import SignerBench.Proofs.GoldenUpdate
import SignerBench.Proofs.Navigation

namespace SignerBench.Emulator

open Files
open Dialogue hiding bind_assoc

variable {σ α β : Type}

/-- A world with a tree of files beside everything else that there is. -/
def besideFiles (scratch : String) (w : World Ask Reply Nat σ) : World Ask Reply Nat (σ × Tree) where
  reply
    | .files q, (v, t) => (some (Tree.reply scratch q t).1, v, (Tree.reply scratch q t).2)
    | q, (v, t) => ((w.reply q v).1, (w.reply q v).2, t)
  pause p := fun (v, t) => (w.pause p v, t)

variable {scratch : String} {w : World Ask Reply Nat σ}

/-- Files that nothing is asked of stay as they are. -/
theorem besideFiles_reply (q : Ask) (v : σ × Tree) :
    (∃ a, q = .files a) ∨ ((besideFiles scratch w).reply q v).2.2 = v.2 := by
  cases q with
  | files a => exact .inl ⟨a, rfl⟩
  | _ => exact .inr rfl

/-- The induction is on the log, where no event asks for files. -/
theorem answered_keeps_files {v v' : σ × Tree} {log : WorkLog} (h : Half.Answered (besideFiles scratch w) v log v')
    (noFiles : ∀ ev ∈ log, ¬ AsksFiles ev) : v'.2 = v.2 := by
  induction h with
  | nil v => rfl
  | @held q v v₁ v' log held tail ih =>
    rcases besideFiles_reply q v with ⟨a, rfl⟩ | hkept
    · cases held
    · rw [held] at hkept
      exact (ih noFiles).trans hkept
  | @asked q r v v₁ v' log replied tail ih =>
    obtain ⟨hfirst, hrest⟩ := List.forall_mem_cons.mp noFiles
    rcases besideFiles_reply q v with ⟨a, rfl⟩ | hkept
    · exact absurd trivial hfirst
    · rw [replied] at hkept
      exact (ih hrest).trans hkept
  | paused tail ih => exact ih (List.forall_mem_cons.mp noFiles).2

/-- The error is none of a comparison. -/
def Error.Own : Error → Prop
  | .system _ => False
  | .mismatch _ => False
  | _ => True

theorem Error.Own.ne_ofGoldens {e : Error} (h : e.Own) (cause : Snapshot.Goldens.Error) : e ≠ .ofGoldens cause := by
  rintro rfl
  cases cause <;> exact h

/-- Work that asks for no files, fails with errors of its own, and takes no loops again but its own. -/
structure Quiet (x : Work α) : Prop where
  closed : x.Closed
  noFiles : ∀ log, x.Begins log → ∀ ev ∈ log, ¬ AsksFiles ev
  own : ∀ log e, x.Fails log e → e.Own

theorem quiet_pure (a : α) : Quiet (pure a : Work α) where
  closed := Attempt.closed_pure
  noFiles log h := by
    rw [Attempt.begins_pure.mp h]
    exact List.forall_mem_nil _
  own log e h := absurd h Attempt.fails_pure

theorem quiet_throw {e : Error} (own : e.Own) : Quiet (throw e : Work α) where
  closed := Attempt.closed_throw
  noFiles log h := by
    rw [Attempt.begins_throw.mp h]
    exact List.forall_mem_nil _
  own log e' h := by
    obtain ⟨_, rfl⟩ := Attempt.fails_throw.mp h
    exact own

theorem Quiet.bind {x : Work α} {f : α → Work β} (hx : Quiet x) (hf : ∀ a, Quiet (f a)) : Quiet (x >>= f) where
  closed := hx.closed.bind fun a => (hf a).closed
  noFiles log h := by
    rcases Attempt.begins_bind (.inr fun a => (hf a).closed) h with h | ⟨a, first, rest, rfl, ha, h⟩
    · exact hx.noFiles log h
    · exact List.forall_mem_append.mpr ⟨hx.noFiles first ha.begins, (hf a).noFiles rest h⟩
  own log e h := by
    rcases Attempt.fails_bind (.inr fun a => (hf a).closed) h with h | ⟨a, first, rest, _, _, h⟩
    · exact hx.own log e h
    · exact (hf a).own rest e h

namespace Session

variable {s : Session} {current : Snapshot} {taken : List Snapshot}

theorem quiet_snapshot : Quiet s.snapshot where
  closed := closed_snapshot
  noFiles _ h ev hev := (looks_of_asked (.inr rfl) (snapshot_begins h) ev hev).not_files
  own log e h := by
    obtain ⟨_, _, refused⟩ := snapshot_fails h
    obtain ⟨cause, rfl⟩ := Call.content_error refused
    trivial

theorem quiet_findText {wanted : String} : Quiet (s.findText wanted) where
  closed := closed_findText
  noFiles _ h ev hev := (looks_of_asked (.inl rfl) (findText_begins h) ev hev).not_files
  own log e h := by
    obtain ⟨_, _, refused⟩ := findText_fails h
    rcases refused.cause with ⟨cause, rfl⟩ | ⟨cause, rfl⟩
    · trivial
    · trivial

theorem quiet_waitUntilNot : Quiet (s.waitUntilNot current) where
  closed := closed_waitUntilNot
  noFiles _ h ev hev := ((waitUntilNot_ends h).1 ev hev).not_files
  own log e h := by
    obtain ⟨_, he | ⟨_, he, _⟩ | ⟨limit, he⟩ | ⟨cause, he⟩⟩ := waitUntilNot_ends h
    all_goals cases he
    all_goals trivial

theorem quiet_doActs {acts : List Act} : Quiet (s.doActs acts) where
  closed := closed_doActs
  noFiles log h := by
    cases doActs_ends h with
    | going tried => exact tried.noFiles
  own log e h := by
    cases doActs_ends h with
    | refused refused =>
      obtain ⟨cause, rfl⟩ := refused.api
      trivial

theorem quiet_perform (step : Device.Step) : Quiet (s.perform step) := perform_eq s step ▸ quiet_doActs

theorem quiet_performAll {steps : List Device.Step} : Quiet (s.performAll current taken steps) := by
  induction steps generalizing current taken with
  | nil => exact quiet_pure taken
  | cons step rest ih => exact (quiet_perform step).bind fun _ => quiet_waitUntilNot.bind fun next => ih

theorem quiet_advance : Quiet s.advance := by
  unfold advance
  split
  · exact quiet_perform (.tap _)
  · exact quiet_perform (.click .right)

/-- The induction is on the screens that may still be looked at. -/
theorem quiet_findApproval {left : Nat} : Quiet (s.findApproval current taken left) := by
  induction left generalizing current taken with
  | zero => exact quiet_throw trivial
  | succ left ih =>
    refine quiet_findText.bind fun found => ?_
    cases found with
    | some target => exact quiet_pure _
    | none => exact quiet_advance.bind fun _ => quiet_waitUntilNot.bind fun next => ih

theorem quiet_approve {target : Element} : Quiet (s.approve target) := by
  unfold approve
  split
  · exact quiet_perform (.click .both)
  · exact quiet_perform (.hold _ _)
  · split
    · exact quiet_perform (.tap _)
    · exact quiet_throw trivial

inductive Walk where
  | scheduled (schedule : List Device.Step)
  | review

namespace Walk

def run (s : Session) (env : Environment) (dir name : String) : Walk → Work Unit
  | .scheduled schedule => s.navigate env dir name schedule
  | .review => s.reviewAndApprove env dir name

def collect (s : Session) : Walk → Work (List Snapshot)
  | .scheduled schedule => do
    let first ← s.snapshot
    s.performAll first [first] schedule
  | .review => do
    let first ← s.snapshot
    let arrival ← s.findApproval first [first] s.options.maxReviewScreens
    s.approve arrival.target
    let last ← s.waitUntilNot arrival.screen
    return arrival.taken ++ [last]

variable {env : Environment} {dir name : String} {walk : Walk}

theorem quiet_collect : Quiet (walk.collect s) := by
  cases walk with
  | scheduled schedule => exact quiet_snapshot.bind fun _ => quiet_performAll
  | review =>
    exact quiet_snapshot.bind fun _ => quiet_findApproval.bind fun _ => quiet_approve.bind fun _ =>
      quiet_waitUntilNot.bind fun _ => quiet_pure _

theorem run_eq : walk.run s env dir name =
    (walk.collect s >>= fun taken => Work.check (Snapshot.Goldens.compare env dir name taken)) := by
  cases walk with
  | scheduled schedule => exact (bind_assoc ..).symm
  | review =>
    simp only [run, collect, reviewAndApprove, bind_assoc, pure_bind]

theorem closed_run : (walk.run s env dir name).Closed := by
  rw [run_eq]
  exact quiet_collect.closed.bind fun _ => closed_check

/-- A walk has taken all its snapshots, with no file touched, and what followed belongs to their comparison. -/
def Compared (scratch : String) (w : World Ask Reply Nat σ) (s : Session) (env : Environment) (dir name : String)
    (walk : Walk) (before after : σ × Tree) (files : WorkLog) : Prop :=
  ∃ log taken, (walk.collect s).Gives log taken ∧ (∀ ev ∈ log, ¬ AsksFiles ev) ∧
    (Work.check (Snapshot.Goldens.compare env dir name taken)).Begins files ∧
    Half.Answered (besideFiles scratch w) before (log ++ files) after

/-- A walk, whatever is done to the device and the clock in the meantime. It fails before the comparison, and then the
files are as they were, or in the comparison. Once they have changed, the comparison has begun. -/
theorem keeps_files {w : World Ask Reply Nat σ} {n : Nat} {v v' : σ} {t t' : Tree}
    {result : Except Error (Half Ask Reply Nat Error Unit)}
    (h : Half.turns (besideFiles scratch w) n (.ofAttempt (walk.run s env dir name)) (v, t) = (result, v', t')) :
    (∀ e, result = .error e → ((∃ log, (walk.collect s).Fails log e) ∧ (∀ cause, e ≠ .ofGoldens cause) ∧ t' = t) ∨
      ((∃ cause, e = .ofGoldens cause) ∧ ∃ files, Compared scratch w s env dir name walk (v, t) (v', t') files)) ∧
    (t' ≠ t → ∃ files, files ≠ [] ∧ Compared scratch w s env dir name walk (v, t) (v', t') files) := by
  obtain ⟨log, half, answered, comes, hresult⟩ := Half.comes_turns (.going (.here _)) h
  rw [List.nil_append] at comes
  constructor
  · rintro e rfl
    obtain hhalf | ⟨_, he, p, rfl, ended⟩ := hresult
    · cases hhalf
    cases he
    cases comes with
    | going trail =>
      have hfails := (trail.start_follows closed_run).2 _ ended
      rw [run_eq] at hfails
      rcases Attempt.fails_bind (.inr fun _ => closed_check) hfails with
        hfails | ⟨taken, before, files, rfl, hgives, hfails⟩
      · have hkept := answered_keeps_files answered (quiet_collect.noFiles log hfails.begins)
        exact .inl ⟨⟨log, hfails⟩, (quiet_collect.own log e hfails).ne_ofGoldens, hkept⟩
      · obtain ⟨cause, _, rfl⟩ := Attempt.fails_adapt hfails
        have hquiet := quiet_collect.noFiles before hgives.begins
        exact .inr ⟨⟨cause, rfl⟩, files, before, taken, hgives, hquiet, hfails.begins, answered⟩
  · intro changed
    obtain ⟨p, trail⟩ : ∃ p, Trail (Dialogue.start (walk.run s env dir name).run) log p := by
      cases comes with
      | going trail => exact ⟨_, trail⟩
      | settled trail ended => exact ⟨_, trail⟩
    have hbegins := (trail.start_follows closed_run).1
    rw [run_eq] at hbegins
    rcases Attempt.begins_bind (.inr fun _ => closed_check) hbegins with
      hbegins | ⟨taken, before, files, rfl, hgives, hbegins⟩
    · exact absurd (answered_keeps_files answered (quiet_collect.noFiles log hbegins)) changed
    · have hquiet := quiet_collect.noFiles before hgives.begins
      refine ⟨files, ?_, before, taken, hgives, hquiet, hbegins, answered⟩
      rintro rfl
      rw [List.append_nil] at answered
      exact changed (answered_keeps_files answered hquiet)

def tired : World Ask Reply Nat Nat where
  reply
    | .call _ _, 0 => (some (.refused 500), 0)
    | .call _ _, left + 1 => (some (.body []), left)
    | _, left => (none, left)
  pause _ left := left

/-- A walk that is to store its snapshots, and breaks off behind the first one of them. -/
theorem first_click_refused : ∃ url v t, Half.turns (besideFiles "/tmp" tired) 3
    (.ofAttempt ((Walk.scheduled [.click .right]).run twoButtons Snapshot.Goldens.updating "base" "set"))
      (1, Snapshot.Goldens.oldGoldens) = (.error (.api (.refused url 500)), v, t) ∧
    t = Snapshot.Goldens.oldGoldens := by
  obtain ⟨url, v, t, hturns⟩ : ∃ url v t, Half.turns (besideFiles "/tmp" tired) 3
      (.ofAttempt ((Walk.scheduled [.click .right]).run twoButtons Snapshot.Goldens.updating "base" "set"))
        (1, Snapshot.Goldens.oldGoldens) = (.error (.api (.refused url 500)), v, t) := ⟨_, _, _, rfl⟩
  refine ⟨url, v, t, hturns, ?_⟩
  rcases (keeps_files hturns).1 _ rfl with ⟨_, _, kept⟩ | ⟨⟨cause, he⟩, _⟩
  · exact kept
  · cases cause <;> cases he

end Walk

end Session

end SignerBench.Emulator
