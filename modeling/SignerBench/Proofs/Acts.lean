import SignerBench.Proofs.Session

namespace SignerBench.Emulator.Session

open Dialogue

variable {s : Session} {log : WorkLog} {e : Error}

inductive Act where
  | call (c : Call)
  | sleep (ms : Nat)

def Act.call? : Act → Option Call
  | .call c => some c
  | .sleep _ => none

def callsOf (acts : List Act) : List Call := acts.filterMap Act.call?

/-- Acts that were done one after the other. -/
inductive Performed (s : Session) : List Act → WorkLog → Prop
  | nil : Performed s [] []
  | call {c : Call} {content : Bytes} {rest : List Act} {log : WorkLog} (tail : Performed s rest log) :
      Performed s (.call c :: rest) (.asked (.call s.base c) (.body content) :: log)
  | sleep {ms : Nat} {rest : List Act} {log : WorkLog} (tail : Performed s rest log) :
      Performed s (.sleep ms :: rest) (.asked (.sleep ms) () :: log)

/-- Acts that were done one after the other, up to a call that was refused. -/
inductive Refused (s : Session) : List Act → WorkLog → Error → Prop
  | here {c : Call} {r : Web.Response} {e : Error} {rest : List Act} (refused : c.content s.base r = .error e) :
      Refused s (.call c :: rest) [.asked (.call s.base c) r] e
  | call {c : Call} {content : Bytes} {rest : List Act} {log : WorkLog} {e : Error} (tail : Refused s rest log e) :
      Refused s (.call c :: rest) (.asked (.call s.base c) (.body content) :: log) e
  | sleep {ms : Nat} {rest : List Act} {log : WorkLog} {e : Error} (tail : Refused s rest log e) :
      Refused s (.sleep ms :: rest) (.asked (.sleep ms) () :: log) e

inductive Tried (s : Session) : List Act → WorkLog → Prop
  | none (acts : List Act) : Tried s acts []
  | call {c : Call} {r : Web.Response} {rest : List Act} {log : WorkLog} (tail : Tried s rest log) :
      Tried s (.call c :: rest) (.asked (.call s.base c) r :: log)
  | sleep {ms : Nat} {rest : List Act} {log : WorkLog} (tail : Tried s rest log) :
      Tried s (.sleep ms :: rest) (.asked (.sleep ms) () :: log)

def doAct (s : Session) : Act → Work Unit
  | .call c => discard (Work.call s.base c)
  | .sleep ms => Work.sleep ms

def doActs (s : Session) : List Act → Work Unit
  | [] => pure ()
  | a :: rest => do
    s.doAct a
    s.doActs rest

def actsOf : Device.Step → List Act
  | .click b => [.call (.button b)]
  | .tap place => [.call (.finger .tap place)]
  | .hold place ms => [.call (.finger .press place), .sleep ms, .call (.finger .release place)]

def stepCalls (step : Device.Step) : List Call := callsOf (actsOf step)

theorem stepCalls_ne_nil (step : Device.Step) : stepCalls step ≠ [] := by
  cases step <;> exact List.cons_ne_nil _ _

/-- Steps are told as acts, so that one induction serves all of them. -/
theorem perform_eq (s : Session) (step : Device.Step) : s.perform step = s.doActs (actsOf step) := by
  cases step with
  | click b => exact (bind_pure _).symm
  | tap place => exact (bind_pure _).symm
  | hold place ms =>
    refine bind_congr fun _ => bind_congr fun _ => ?_
    exact (bind_pure _).symm

theorem Refused.tried {acts : List Act} (h : s.Refused acts log e) : s.Tried acts log := by
  induction h with
  | here refused => exact .call (.none _)
  | call tail ih => exact .call ih
  | sleep tail ih => exact .sleep ih

theorem Performed.tried {acts : List Act} (h : s.Performed acts log) : s.Tried acts log := by
  induction h with
  | nil => exact .none []
  | call tail ih => exact .call ih
  | sleep tail ih => exact .sleep ih

/-- How acts end: they are done, one of them is refused, or they are under way. -/
inductive ActsEnd (s : Session) (acts : List Act) (log : WorkLog) : Ending Nat (Except Error Unit) → Prop
  | done (performed : s.Performed acts log) : ActsEnd s acts log (.value (.ok ()))
  | refused {e : Error} (refused : s.Refused acts log e) : ActsEnd s acts log (.value (.error e))
  | going (tried : s.Tried acts log) : ActsEnd s acts log .going

theorem closed_act {base : String} {c : Call} : (discard (Work.call base c)).Closed :=
  Attempt.Closed.discard Attempt.closed_demand

theorem closed_doAct {a : Act} : (s.doAct a).Closed := by
  cases a with
  | call c => exact closed_act
  | sleep ms => exact Attempt.closed_query

theorem closed_doActs {acts : List Act} : (s.doActs acts).Closed := by
  induction acts with
  | nil => exact Attempt.closed_pure
  | cons a rest ih => exact closed_doAct.bind fun _ => ih

/-- An act that was done, and how the acts behind it end. -/
theorem ActsEnd.cons {a : Act} {rest : List Act} {front : WorkLog} {ending : Ending Nat (Except Error Unit)}
    (first : s.Performed [a] front) (h : s.ActsEnd rest log ending) : s.ActsEnd (a :: rest) (front ++ log) ending := by
  cases first with
  | call none =>
    cases none
    cases h with
    | done performed => exact .done (.call performed)
    | refused refused => exact .refused (.call refused)
    | going tried => exact .going (.call tried)
  | sleep none =>
    cases none
    cases h with
    | done performed => exact .done (.sleep performed)
    | refused refused => exact .refused (.sleep refused)
    | going tried => exact .going (.sleep tried)

/-- A call is refused by an answer that cannot be used. Time that passes is never refused. -/
theorem doAct_ends {a : Act} {ending : Ending Nat (Except Error Unit)} (h : Goes (s.doAct a).run log ending) :
    s.ActsEnd [a] log ending := by
  cases a with
  | call c =>
    match ending with
    | .going =>
      rcases Work.call_begins (Attempt.begins_map h) with rfl | ⟨r, rfl⟩
      · exact .going (.none _)
      · exact .going (.call (.none _))
    | .value (.ok ()) =>
      obtain ⟨b, hb, _⟩ := Attempt.gives_map h
      rw [Work.call_gives hb]
      exact .done (.call .nil)
    | .value (.error e) =>
      obtain ⟨r, rfl, refused⟩ := Work.call_fails (Attempt.fails_map h)
      exact .refused (.here refused)
    | .again p => exact absurd h (Goes.not_again closed_act)
  | sleep ms =>
    match ending with
    | .going =>
      rcases Attempt.begins_query.mp h with rfl | ⟨_, rfl⟩
      · exact .going (.none _)
      · exact .going (.sleep (.none _))
    | .value (.ok ()) =>
      rw [Attempt.gives_query.mp h]
      exact .done (.sleep .nil)
    | .value (.error e) => exact absurd h Attempt.fails_query
    | .again p => exact absurd h (Goes.not_again Attempt.closed_query)

theorem Tried.more {a : Act} {rest : List Act} (h : s.Tried [a] log) : s.Tried (a :: rest) log := by
  cases h with
  | none => exact .none _
  | call tail => cases tail; exact .call (.none _)
  | sleep tail => cases tail; exact .sleep (.none _)

theorem Refused.more {a : Act} {rest : List Act} (h : s.Refused [a] log e) : s.Refused (a :: rest) log e := by
  cases h with
  | here refused => exact .here refused
  | call tail => cases tail
  | sleep tail => cases tail

/-- The induction is on the acts: the one in front is done, or nothing is done behind it. -/
theorem doActs_ends {acts : List Act} {ending : Ending Nat (Except Error Unit)}
    (h : Goes (s.doActs acts).run log ending) : s.ActsEnd acts log ending := by
  induction acts generalizing log ending with
  | nil =>
    obtain ⟨rfl, rfl | rfl⟩ := goes_done.mp h
    · exact .going (.none _)
    · exact .done .nil
  | cons a rest ih =>
    rcases Attempt.bind_cases (.inr fun _ => closed_doActs) h with
      ⟨_, front, log, rfl, ha, hrest⟩ | ⟨e, rfl, ha⟩ | ⟨rfl, ha⟩ | ⟨p, rfl, ha⟩
    · cases doAct_ends ha with
      | done performed => exact (ih hrest).cons performed
    · cases doAct_ends ha with
      | refused refused => exact .refused refused.more
    · cases doAct_ends ha with
      | going tried => exact .going tried.more
    · exact absurd ha (Goes.not_again closed_doAct)

/-- Whatever the device answers, a step is done, refused at one of its calls, or still under way. -/
theorem perform_ends {step : Device.Step} {ending : Ending Nat (Except Error Unit)}
    (h : Goes (s.perform step).run log ending) : s.ActsEnd (actsOf step) log ending := by
  rw [perform_eq] at h
  exact doActs_ends h

theorem closed_perform {step : Device.Step} : (s.perform step).Closed := by
  rw [perform_eq]
  exact closed_doActs

/-- Acts fail by an answer of the emulator only. -/
theorem Refused.api {acts : List Act} (h : s.Refused acts log e) : ∃ cause, e = .api cause := by
  induction h with
  | here refused => exact Call.content_error refused
  | call tail ih => exact ih
  | sleep tail ih => exact ih

/-- What was tried is a beginning of what there is to do, in the same order. -/
theorem Tried.requests {acts : List Act} (h : s.Tried acts log) : requests log <+: callsOf acts := by
  induction h with
  | none acts => exact List.nil_prefix
  | call tail ih => exact (List.prefix_cons_inj _).mpr ih
  | sleep tail ih => exact ih

/-- A step that was done has made all of its requests, and no others. -/
theorem Performed.requests {acts : List Act} (h : s.Performed acts log) : requests log = callsOf acts := by
  induction h with
  | nil => rfl
  | call tail ih => exact congrArg (List.cons _) ih
  | sleep tail ih => exact ih

theorem Tried.noFiles {acts : List Act} (h : s.Tried acts log) : ∀ ev ∈ log, ¬ AsksFiles ev := by
  induction h with
  | none acts => exact List.forall_mem_nil _
  | call tail ih => exact List.forall_mem_cons.mpr ⟨id, ih⟩
  | sleep tail ih => exact List.forall_mem_cons.mpr ⟨id, ih⟩

theorem stepCalls_inputs (step : Device.Step) : (stepCalls step).filter Call.isInput = stepCalls step := by
  cases step <;> rfl

/-- All that a step asks of the device is input. -/
theorem Performed.inputs {step : Device.Step} (h : s.Performed (actsOf step) log) : inputs log = stepCalls step := by
  rw [Emulator.inputs, h.requests]
  exact stepCalls_inputs step

theorem Tried.inputs {step : Device.Step} (h : s.Tried (actsOf step) log) : inputs log <+: stepCalls step := by
  have hprefix := h.requests.filter Call.isInput
  exact stepCalls_inputs step ▸ hprefix

/-- Acts leave one log behind them, whatever follows. -/
theorem Performed.unique {acts : List Act} {log' rest rest' : WorkLog} (h : s.Performed acts log)
    (h' : s.Performed acts log') (both : log ++ rest <+: log' ++ rest') : log = log' ∧ rest <+: rest' := by
  induction h generalizing log' with
  | nil =>
    cases h'
    exact ⟨rfl, both⟩
  | call tail ih =>
    cases h' with
    | call tail' =>
      obtain ⟨he, hbehind⟩ := List.cons_prefix_cons.mp both
      cases he
      obtain ⟨rfl, hrest⟩ := ih tail' hbehind
      exact ⟨rfl, hrest⟩
  | sleep tail ih =>
    cases h' with
    | sleep tail' =>
      obtain ⟨rfl, hrest⟩ := ih tail' (List.cons_prefix_cons.mp both).2
      exact ⟨rfl, hrest⟩

/-- What was refused at some point never turns out to have been done. -/
theorem Refused.not_performed {acts : List Act} {log' : WorkLog} (h : s.Refused acts log' e)
    (h' : s.Performed acts log) : ¬ log <+: log' := by
  intro both
  induction h generalizing log with
  | here refused =>
    cases h' with
    | call tail =>
      cases (List.cons_prefix_cons.mp both).1
      cases refused
  | call tail ih =>
    cases h' with
    | call tail' => exact ih tail' (List.cons_prefix_cons.mp both).2
  | sleep tail ih =>
    cases h' with
    | sleep tail' => exact ih tail' (List.cons_prefix_cons.mp both).2

end SignerBench.Emulator.Session
