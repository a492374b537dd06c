import SignerBench.Proofs.Transcript

namespace SignerBench.App

open Account Apdu

section

variable {ε : Type}

def statusError (unknown : UInt16 → Error ε) (status : UInt16) : Error ε :=
  match Status.description? status with
  | some description => .refused status description
  | none => unknown status

structure Step (ε : Type) where
  command : Command
  /-- The number of bytes that are taken from the answer, and the error where it has fewer. -/
  need : Option (Nat × Error ε)
  /-- The error for a status without a description. -/
  unknown : UInt16 → Error ε

namespace Step

def lookup (c : Command) (need : Nat) (short : Error ε) : Step ε := ⟨c, some (need, short), refusedUnknown⟩

def piece (c : Command) : Step ε := ⟨c, none, .unknownStatus⟩

def lastPiece (c : Command) (need : Nat) (short : Error ε) : Step ε := ⟨c, some (need, short), .unknownStatus⟩

structure Satisfied (s : Step ε) (reply : Except ε Answer) (a : Answer) : Prop where
  came : reply = .ok a
  good : a.status = Status.ok
  enough : ∀ n e, s.need = some (n, e) → n ≤ a.data.length

/-- What is wrong with a reply. The status counts before the data. -/
inductive Fails (s : Step ε) : Except ε Answer → Error ε → Prop where
  | transport (cause : ε) : Fails s (.error cause) (.transport cause)
  | status {a : Answer} (other : a.status ≠ Status.ok) : Fails s (.ok a) (statusError s.unknown a.status)
  | short {a : Answer} {n : Nat} {e : Error ε} (good : a.status = Status.ok) (need : s.need = some (n, e))
      (few : a.data.length < n) : Fails s (.ok a) e

variable {s : Step ε} {reply : Except ε Answer} {a : Answer} {e e' : Error ε}

theorem satisfied_piece {c : Command} (came : reply = .ok a) (good : a.status = Status.ok) :
    (piece c).Satisfied reply a := by
  refine ⟨came, good, ?_⟩
  intro n e need
  cases need

/-- A reply brings what is taken from it, or there is one thing wrong with it. -/
theorem Fails.not_satisfied (h : s.Fails reply e) : ¬ s.Satisfied reply a := by
  rintro ⟨came, good, enough⟩
  cases h with
  | transport cause => cases came
  | status other =>
    cases came
    exact other good
  | short _ need few =>
    cases came
    exact Nat.not_lt.mpr (enough _ _ need) few

/-- The status is looked at before the data, so there are no two errors to choose from. -/
theorem Fails.unique (h : s.Fails reply e) (h' : s.Fails reply e') : e = e' := by
  cases h with
  | transport cause =>
    cases h'
    rfl
  | status other =>
    cases h' with
    | status => rfl
    | short good => exact absurd good other
  | short good need =>
    cases h' with
    | status other => exact absurd good other
    | short _ need' =>
      cases need.symm.trans need'
      rfl

/-- The data fit a length byte, and no error says that an answer ends inside a field. -/
structure Proper (s : Step ε) : Prop where
  data : s.command.data.length ≤ 255
  unknown : ∀ status, s.unknown status ≠ .cutShort
  need : ∀ n e, s.need = some (n, e) → e ≠ .cutShort

theorem proper_lookup {c : Command} {n : Nat} {short : Error ε} (data : c.data.length ≤ 255)
    (h : short ≠ .cutShort) : (lookup c n short).Proper := by
  refine ⟨data, fun _ h => (nomatch h), ?_⟩
  rintro _ _ ⟨⟩
  exact h

theorem proper_piece {c : Command} (data : c.data.length ≤ 255) : (piece c : Step ε).Proper :=
  ⟨data, fun _ h => (nomatch h), fun _ _ h => (nomatch h)⟩

theorem proper_lastPiece {c : Command} {n : Nat} {short : Error ε} (data : c.data.length ≤ 255)
    (h : short ≠ .cutShort) : (lastPiece c n short).Proper := by
  refine ⟨data, fun _ h => (nomatch h), ?_⟩
  rintro _ _ ⟨⟩
  exact h

/-- A step that is proper never fails because an answer ends inside a field. -/
theorem Fails.ne_cutShort (h : s.Fails reply e) (proper : s.Proper) : e ≠ .cutShort := by
  cases h with
  | transport => exact fun h => nomatch h
  | short _ need => exact proper.need _ _ need
  | status =>
    unfold statusError
    split
    · exact fun h => nomatch h
    · exact proper.unknown _

end Step

/-- What fails by itself fails all the more where something is taken from the answer. -/
theorem Step.Fails.more {s : Step ε} {reply : Except ε Answer} {e : Error ε} (h : s.Fails reply e)
    (whatever : s.need = none) (need : Option (Nat × Error ε)) :
    Step.Fails ⟨s.command, need, s.unknown⟩ reply e := by
  cases h with
  | transport cause => exact .transport cause
  | status other => exact .status other
  | short _ need _ => cases whatever.symm.trans need

theorem checkStatus_good {unknown : UInt16 → Error ε} {a : Answer} (good : a.status = Status.ok) :
    (checkStatus unknown a : Link ε Unit) = pure () := by
  simp [checkStatus, good]

theorem checkStatus_other {unknown : UInt16 → Error ε} {a : Answer} (other : a.status ≠ Status.ok) :
    (checkStatus unknown a : Link ε Unit) = throw (statusError unknown a.status) := by
  rw [checkStatus, if_neg other, statusError]
  cases Status.description? a.status <;> rfl

end

namespace Script

def replyAt (answers : List (Except Fault Bytes)) (k : Nat) : Except Fault Answer :=
  match answers[k]? with
  | some answer => answer.bind read
  | none => .error .exhausted

def dataAt (answers : List (Except Fault Bytes)) (k : Nat) : Bytes :=
  match replyAt answers k with
  | .ok a => a.data
  | .error _ => []

variable {answers : List (Except Fault Bytes)} {sent : List Command} {steps steps' : List (Step Fault)}
  {k n : Nat} {e : Error Fault} {α β : Type}

theorem replyAt_drop (answers : List (Except Fault Bytes)) (n k : Nat) :
    replyAt (answers.drop n) k = replyAt answers (n + k) := by
  unfold replyAt
  rw [List.getElem?_drop]

theorem dataAt_drop (answers : List (Except Fault Bytes)) (n k : Nat) :
    dataAt (answers.drop n) k = dataAt answers (n + k) := by
  rw [dataAt, dataAt, replyAt_drop]

theorem dataAt_eq {a : Answer} (h : replyAt answers k = .ok a) : dataAt answers k = a.data := by
  rw [dataAt, h]

/-- All steps get from their answers what they need. -/
def Passes (steps : List (Step Fault)) (answers : List (Except Fault Bytes)) : Prop :=
  ∀ (k : Nat) (s : Step Fault), steps[k]? = some s → ∃ a, s.Satisfied (replyAt answers k) a

/-- The step of this number is the first that does not. -/
structure StopsAt (steps : List (Step Fault)) (answers : List (Except Fault Bytes)) (k : Nat) (e : Error Fault) :
    Prop where
  before : Passes (steps.take k) answers
  here : ∃ s, steps[k]? = some s ∧ s.Fails (replyAt answers k) e

theorem passes_nil : Passes [] answers := fun _ _ h => nomatch h

/-- The steps behind others take the answers that are left. -/
theorem passes_append : Passes (steps ++ steps') answers ↔
    Passes steps answers ∧ Passes steps' (answers.drop steps.length) := by
  constructor
  · intro h
    refine ⟨fun k s hs => h k s ?_, fun k s hs => ?_⟩
    · rw [List.getElem?_append_left (List.getElem?_eq_some_iff.mp hs).1, hs]
    · rw [replyAt_drop]
      exact h _ s (by rw [List.getElem?_append_right (Nat.le_add_right _ _), Nat.add_sub_cancel_left, hs])
  · rintro ⟨h, h'⟩ k s hs
    rcases Nat.lt_or_ge k steps.length with hk | hk
    · exact h k s (by rwa [List.getElem?_append_left hk] at hs)
    · rw [List.getElem?_append_right hk] at hs
      have ha := h' _ s hs
      rwa [replyAt_drop, Nat.add_sub_cancel' hk] at ha

theorem StopsAt.lt (h : StopsAt steps answers k e) : k < steps.length := by
  obtain ⟨s, hs, _⟩ := h.here
  exact (List.getElem?_eq_some_iff.mp hs).1

/-- Steps that come later do not change where a row stops. -/
theorem StopsAt.append (h : StopsAt steps answers k e) (steps' : List (Step Fault)) :
    StopsAt (steps ++ steps') answers k e := by
  obtain ⟨s, hs, hfails⟩ := h.here
  refine ⟨?_, s, ?_, hfails⟩
  · rw [List.take_append_of_le_length (Nat.le_of_lt h.lt)]
    exact h.before
  · rw [List.getElem?_append_left h.lt, hs]

/-- Behind a row that passes, a row stops where it would by itself. -/
theorem StopsAt.behind (h : StopsAt steps' (answers.drop steps.length) k e) (passes : Passes steps answers) :
    StopsAt (steps ++ steps') answers (steps.length + k) e := by
  obtain ⟨s, hs, hfails⟩ := h.here
  refine ⟨?_, s, ?_, ?_⟩
  · rw [List.take_length_add_append]
    exact passes_append.mpr ⟨passes, h.before⟩
  · rw [List.getElem?_append_right (Nat.le_add_right _ _), Nat.add_sub_cancel_left, hs]
  · rwa [replyAt_drop] at hfails

theorem StopsAt.not_passes (h : StopsAt steps answers k e) : ¬ Passes steps answers := by
  obtain ⟨s, hs, hfails⟩ := h.here
  intro passes
  obtain ⟨a, satisfied⟩ := passes k s hs
  exact hfails.not_satisfied satisfied

theorem StopsAt.le (h : StopsAt steps answers k e) {k' : Nat} {e' : Error Fault} (h' : StopsAt steps answers k' e') :
    k ≤ k' := by
  by_contra hk
  have hk := Nat.not_le.mp hk
  obtain ⟨s, hs, hfails⟩ := h'.here
  obtain ⟨a, satisfied⟩ := h.before k' s (by rw [List.getElem?_take_of_lt hk, hs])
  exact hfails.not_satisfied satisfied

/-- There is one step that fails first, with one error. -/
theorem StopsAt.unique (h : StopsAt steps answers k e) {k' : Nat} {e' : Error Fault}
    (h' : StopsAt steps answers k' e') : k = k' ∧ e = e' := by
  obtain rfl := Nat.le_antisymm (h.le h') (h'.le h)
  obtain ⟨s, hs, hfails⟩ := h.here
  obtain ⟨s', hs', hfails'⟩ := h'.here
  cases hs.symm.trans hs'
  exact ⟨rfl, hfails.unique hfails'⟩

/-- How a row of steps comes to its end, and after how many exchanges. -/
inductive Course (steps : List (Step Fault)) (answers : List (Except Fault Bytes))
    (ends : Except (Error Fault) α → Prop) : Except (Error Fault) α → Nat → Prop where
  | through {r : Except (Error Fault) α} (passes : Passes steps answers) (ended : ends r) :
      Course steps answers ends r steps.length
  | stopped {k : Nat} {e : Error Fault} (stops : StopsAt steps answers k e) :
      Course steps answers ends (.error e) (k + 1)

def behind (steps : List (Step Fault)) (n : Nat) (s : Script) : Script :=
  ⟨s.answers.drop n, ((steps.take n).map Step.command).reverse ++ s.sent⟩

/-- A request that takes these steps with the answers, and when they are done ends like this. -/
def Follows (x : Link Fault α) (answers : List (Except Fault Bytes)) (steps : List (Step Fault))
    (ends : Except (Error Fault) α → Prop) : Prop :=
  ∀ sent, ∃ r n, Course steps answers ends r n ∧
    x.on reply ⟨answers, sent⟩ = (r, behind steps n ⟨answers, sent⟩)

variable {x : Link Fault α} {f : α → Link Fault β} {ends : Except (Error Fault) α → Prop}
  {ends' : Except (Error Fault) β → Prop}

theorem Follows.pure {a : α} (h : ends (.ok a)) : Follows (Pure.pure a) answers [] ends :=
  fun _ => ⟨_, _, .through passes_nil h, rfl⟩

/-- A request that is refused by the client takes no step. -/
theorem Follows.throw {e : Error Fault} (h : ends (.error e)) : Follows (MonadExcept.throw e) answers [] ends :=
  fun _ => ⟨_, _, .through passes_nil h, rfl⟩

theorem behind_append (steps steps' : List (Step Fault)) (n : Nat) (s : Script) :
    behind steps' n (behind steps steps.length s) = behind (steps ++ steps') (steps.length + n) s := by
  simp [behind, List.take_length_add_append]

theorem behind_of_le (h : n ≤ steps.length) (steps' : List (Step Fault)) (s : Script) :
    behind (steps ++ steps') n s = behind steps n s := by
  rw [behind, behind, List.take_append_of_le_length h]

/-- Behind a request that succeeds, the steps of the next one follow. -/
theorem Follows.bind (hx : Follows x answers steps ends)
    (hf : ∀ r, ends r → ∃ a, r = .ok a ∧ Follows (f a) (answers.drop steps.length) steps' ends') :
    Follows (x >>= f) answers (steps ++ steps') ends' := by
  intro sent
  obtain ⟨r, n, course, hrun⟩ := hx sent
  cases course with
  | stopped stops =>
    refine ⟨_, _, .stopped (stops.append steps'), ?_⟩
    rw [behind_of_le stops.lt]
    exact Attempt.on_bind_error hrun
  | through passes ended =>
    obtain ⟨a, rfl, hfollows⟩ := hf r ended
    -- The second row starts with the script that the first has left, so its number is added to all of the first.
    obtain ⟨r, n, course, hrun'⟩ := hfollows (behind steps steps.length ⟨answers, sent⟩).sent
    have hon : (x >>= f).on reply ⟨answers, sent⟩ = (r, behind steps' n (behind steps steps.length ⟨answers, sent⟩)) :=
      (Attempt.on_bind hrun).trans hrun'
    rw [behind_append] at hon
    cases course with
    | through passes' ended' =>
      rw [← List.length_append] at hon
      exact ⟨_, _, .through (passes_append.mpr ⟨passes, passes'⟩) ended', hon⟩
    | stopped stops => exact ⟨_, _, .stopped (stops.behind passes), hon⟩

/-- What is made of the result at the end takes no further step. -/
theorem Follows.bind_pure {g : α → β} (hx : Follows x answers steps ends)
    (hg : ∀ r, ends r → ∃ a, r = .ok a ∧ ends' (.ok (g a))) :
    Follows (x >>= fun a => Pure.pure (g a)) answers steps ends' := by
  rw [← List.append_nil steps]
  refine hx.bind fun r ended => ?_
  obtain ⟨a, rfl, ended'⟩ := hg r ended
  exact ⟨a, rfl, .pure ended'⟩

theorem Follows.imp {ends' : Except (Error Fault) α → Prop} (hx : Follows x answers steps ends)
    (h : ∀ r, ends r → ends' r) : Follows x answers steps ends' := by
  intro sent
  obtain ⟨r, n, course, hrun⟩ := hx sent
  cases course with
  | through passes ended => exact ⟨_, _, .through passes (h _ ended), hrun⟩
  | stopped stops => exact ⟨_, _, .stopped stops, hrun⟩

def take (unknown : UInt16 → Error Fault) (c : Command) : Link Fault Answer := do
  let a ← exchange c
  checkStatus unknown a
  return a

/-- An exchange takes one answer. It has been sent also where the answer fails. -/
theorem exchange_on (c : Command) (answers : List (Except Fault Bytes)) (sent : List Command) :
    (exchange c).on reply ⟨answers, sent⟩ =
      ((replyAt answers 0).mapError .transport, ⟨answers.drop 1, c :: sent⟩) := by
  have hquery : (Attempt.query c : Link Fault (Except Fault Answer)).on reply ⟨answers, sent⟩ =
      (.ok (replyAt answers 0), ⟨answers.drop 1, c :: sent⟩) := by
    cases answers <;> rfl
  refine (Attempt.on_bind hquery).trans ?_
  cases replyAt answers 0 <;> rfl

theorem passes_single {s : Step Fault} {a : Answer} (h : s.Satisfied (replyAt answers 0) a) : Passes [s] answers := by
  intro k s' hs
  cases k with
  | zero =>
    cases hs
    exact ⟨a, h⟩
  | succ k => cases hs

theorem stopsAt_single {s : Step Fault} (h : s.Fails (replyAt answers 0) e) : StopsAt [s] answers 0 e :=
  ⟨passes_nil, s, rfl, h⟩

/-- Only the status of the answer decides about such a step. -/
theorem take_follows (unknown : UInt16 → Error Fault) (c : Command) (answers : List (Except Fault Bytes)) :
    Follows (take unknown c) answers [⟨c, none, unknown⟩] fun r => ∃ a, replyAt answers 0 = .ok a ∧ r = .ok a := by
  intro sent
  have hon := exchange_on c answers sent
  cases hreply : replyAt answers 0 with
  | error cause =>
    rw [hreply] at hon
    have fails : Step.Fails ⟨c, none, unknown⟩ (replyAt answers 0) (.transport cause) := hreply ▸ .transport cause
    exact ⟨_, _, .stopped (stopsAt_single fails), Attempt.on_bind_error hon⟩
  | ok a =>
    rw [hreply] at hon
    by_cases good : a.status = Status.ok
    · have satisfied : Step.Satisfied ⟨c, none, unknown⟩ (replyAt answers 0) a :=
        ⟨hreply, good, fun _ _ h => nomatch h⟩
      refine ⟨.ok a, 1, .through (passes_single satisfied) ⟨a, rfl, rfl⟩, (Attempt.on_bind hon).trans ?_⟩
      rw [checkStatus_good good]
      rfl
    · have fails : Step.Fails ⟨c, none, unknown⟩ (replyAt answers 0) (statusError unknown a.status) :=
        hreply ▸ .status good
      refine ⟨_, _, .stopped (stopsAt_single fails), (Attempt.on_bind hon).trans ?_⟩
      rw [checkStatus_other good]
      rfl

theorem passes_concat {s : Step Fault} : Passes (steps ++ [s]) answers ↔
    Passes steps answers ∧ ∃ a, s.Satisfied (replyAt answers steps.length) a := by
  rw [passes_append]
  refine and_congr_right fun _ => ⟨fun h => ?_, fun ⟨a, ha⟩ => passes_single (a := a) ?_⟩
  · obtain ⟨a, ha⟩ := h 0 s rfl
    rw [replyAt_drop] at ha
    exact ⟨a, ha⟩
  · rwa [replyAt_drop]

/-- A row with one more step stops inside, or at the last step with all the others passed. -/
theorem stopsAt_concat {s : Step Fault} (h : StopsAt (steps ++ [s]) answers k e) :
    StopsAt steps answers k e ∨
      k = steps.length ∧ Passes steps answers ∧ s.Fails (replyAt answers steps.length) e := by
  obtain ⟨s', hs, hfails⟩ := h.here
  have hbefore := h.before
  rcases Nat.lt_trichotomy k steps.length with hk | rfl | hk
  · rw [List.getElem?_append_left hk] at hs
    rw [List.take_append_of_le_length (Nat.le_of_lt hk)] at hbefore
    exact .inl ⟨hbefore, s', hs, hfails⟩
  · rw [List.getElem?_concat_length] at hs
    cases hs
    rw [List.take_left] at hbefore
    exact .inr ⟨rfl, hbefore, hfails⟩
  · rw [List.getElem?_eq_none (by rw [List.length_append, List.length_singleton]; omega)] at hs
    cases hs

/-- More may be taken from the answer to the last of some exchanges. -/
theorem Follows.demand {x : Link Fault Bytes} {read : Bytes → Except (Error Fault) β} {s : Step Fault}
    {need : Nat} {short : Error Fault} (hx : Follows x answers (steps ++ [s])
      fun r => ∃ a, replyAt answers steps.length = .ok a ∧ r = .ok a.data)
    (whatever : s.need = none) (guarded : Guarded read need short) :
    Follows (x >>= fun d => Attempt.ofExcept (read d)) answers
      (steps ++ [⟨s.command, some (need, short), s.unknown⟩])
      fun r => ∃ b, read (dataAt answers steps.length) = .ok b ∧ r = .ok b := by
  intro sent
  obtain ⟨r, n, course, hrun⟩ := hx sent
  -- A demand changes what counts as a failure, but not what is sent.
  have hbehind (n : Nat) (sc : Script) :
      behind (steps ++ [⟨s.command, some (need, short), s.unknown⟩]) n sc = behind (steps ++ [s]) n sc := by
    simp [behind]
  cases course with
  | stopped stops =>
    refine ⟨_, _, .stopped ?_, (Attempt.on_bind_error hrun).trans (by rw [hbehind])⟩
    rcases stopsAt_concat stops with stops | ⟨rfl, passes, fails⟩
    · exact stops.append _
    · exact (stopsAt_single (by rw [replyAt_drop]; exact fails.more whatever _)).behind passes
  | through passes ended =>
    obtain ⟨a, hreply, rfl⟩ := ended
    obtain ⟨passes, a', satisfied⟩ := passes_concat.mp passes
    cases Except.ok.inj (satisfied.came.symm.trans hreply)
    have hon := Attempt.on_bind (g := fun d => Attempt.ofExcept (read d)) hrun
    rw [← hbehind] at hon
    rcases Nat.lt_or_ge a.data.length need with few | enough
    · rw [guarded.few _ few] at hon
      have fails : Step.Fails ⟨s.command, some (need, short), s.unknown⟩ (replyAt answers steps.length) short :=
        hreply ▸ .short satisfied.good rfl few
      have stops := (stopsAt_single (by rw [replyAt_drop]; exact fails)).behind passes
      rw [List.length_append] at hon
      exact ⟨_, _, .stopped stops, hon⟩
    · obtain ⟨b, hread⟩ := guarded.enough _ enough
      rw [hread] at hon
      refine ⟨_, _, .through (passes_concat.mpr ⟨passes, a, hreply, satisfied.good, ?_⟩) ⟨b, ?_, rfl⟩, ?_⟩
      · rintro n e ⟨⟩
        exact enough
      · rw [dataAt_eq hreply, hread]
      · rw [List.length_append] at hon ⊢
        exact hon

theorem request_eq (c : Command) :
    (request c : Link Fault Bytes) = take refusedUnknown c >>= fun a => return a.data := by
  simp [request, take]

/-- One exchange, and the data read behind the look at their length. -/
theorem lookup_follows {read : Bytes → Except (Error Fault) β} {need : Nat} {short : Error Fault} (c : Command)
    (answers : List (Except Fault Bytes)) (guarded : Guarded read need short) :
    Follows (request c >>= fun d => Attempt.ofExcept (read d)) answers
      [Step.lookup c need short] fun r => ∃ b, read (dataAt answers 0) = .ok b ∧ r = .ok b := by
  have hrequest : Follows (request c) answers ([] ++ [⟨c, none, refusedUnknown⟩])
      fun r => ∃ a, replyAt answers 0 = .ok a ∧ r = .ok a.data := by
    rw [request_eq]
    refine (take_follows refusedUnknown c answers).bind_pure ?_
    rintro _ ⟨a, hreply, rfl⟩
    exact ⟨a, rfl, a, hreply, rfl⟩
  exact hrequest.demand rfl guarded

/-- Commands are sent one after the other, as long as they are answered with a good status. -/
theorem exchangeAll_follows (last : Answer) (c : Command) (cs : List Command) (answers : List (Except Fault Bytes)) :
    Follows (exchangeAll last (c :: cs)) answers ((c :: cs).map Step.piece)
      fun r => ∃ a, replyAt answers cs.length = .ok a ∧ r = .ok a := by
  have hstep (last : Answer) (c : Command) (cs : List Command) :
      (exchangeAll last (c :: cs) : Link Fault Answer) = take .unknownStatus c >>= fun a => exchangeAll a cs := by
    simp [exchangeAll, take]
  -- On the commands that are left. The answer of the last one is the answer of all.
  induction cs generalizing last c answers with
  | nil =>
    rw [hstep]
    refine (take_follows Error.unknownStatus c answers).bind_pure (g := id) ?_
    rintro _ ⟨a, hreply, rfl⟩
    exact ⟨a, rfl, a, hreply, rfl⟩
  | cons c' cs ih =>
    rw [hstep]
    change Follows _ _ ([.piece c] ++ (c' :: cs).map Step.piece) _
    refine (take_follows Error.unknownStatus c answers).bind ?_
    rintro _ ⟨a, _, rfl⟩
    refine ⟨a, rfl, (ih a c' (answers.drop 1)).imp ?_⟩
    rintro _ ⟨a', hreply, rfl⟩
    rw [replyAt_drop, Nat.add_comm] at hreply
    exact ⟨a', hreply, rfl⟩

def pieces (cs : List Command) : List (Step Fault) := cs.map .piece

def maxPayload : Nat := 63750

theorem frames_ne_nil (ins : UInt8) (head payload : Bytes) : frames ins head payload ≠ [] := List.cons_ne_nil _ _

/-- A payload takes one command that announces it, and one for each 250 bytes. -/
theorem length_frames (ins : UInt8) (head payload : Bytes) :
    (frames ins head payload).length = (payload.length + 249) / 250 + 1 := by
  simp [frames]

theorem ins_of_mem_frames {ins : UInt8} {head payload : Bytes} {c : Command} (h : c ∈ frames ins head payload) :
    c.ins = ins := by
  rcases List.mem_cons.mp h with rfl | h
  · rfl
  · obtain ⟨_, _, rfl⟩ := List.mem_map.mp h
    rfl

theorem length_data_frames {ins : UInt8} {head payload : Bytes} {c : Command} (few : head.length ≤ 255)
    (h : c ∈ frames ins head payload) : c.data.length ≤ 255 := by
  rcases List.mem_cons.mp h with rfl | h
  · exact few
  · obtain ⟨j, _, rfl⟩ := List.mem_map.mp h
    exact Nat.le_trans (List.length_take_le _ _) (by decide)

theorem length_chunks (payload : Bytes) : (payload.chunks chunkSize).length = (payload.length + 249) / 250 := by
  rw [show chunkSize = 249 + 1 from rfl, Bytes.chunks_eq_map_range, List.length_map, List.length_range]

/-- Nothing is sent of a payload that has too many pieces. -/
theorem sendChunks_large {i : Instruction} {head payload : Bytes} (h : maxPayload < payload.length) :
    (sendChunks i head payload : Link Fault Bytes) = MonadExcept.throw .messageSize := by
  have hlen := length_chunks payload
  unfold maxPayload at h
  have hsome : ¬ (payload.chunks chunkSize).length = 0 := by omega
  have hmany : maxChunks < (payload.chunks chunkSize).length := by
    rw [hlen, maxChunks]
    omega
  simp [sendChunks, hsome, hmany]

/-- A payload that is neither empty nor too large is announced and brought by one list of commands. -/
theorem sendChunks_eq {ε : Type} {i : Instruction} {head payload : Bytes} (nonempty : payload ≠ [])
    (fits : payload.length ≤ maxPayload) : (sendChunks i head payload : Link ε Bytes) =
      exchangeAll ⟨[], 0⟩ (frames i.code head payload) >>= fun a => return a.data := by
  have hlen := length_chunks payload
  have hpos := List.length_pos_iff.mpr nonempty
  unfold maxPayload at fits
  have hsome : ¬ (payload.chunks chunkSize).length = 0 := by omega
  have hfew : ¬ maxChunks < (payload.chunks chunkSize).length := by
    rw [hlen, maxChunks]
    omega
  rw [← chunkCommands_chunks]
  simp [sendChunks, exchangeAll, hsome, hfew]

/-- The data come from the last answer. -/
theorem sendChunks_follows {i : Instruction} {head payload : Bytes} (nonempty : payload ≠ [])
    (fits : payload.length ≤ maxPayload) (answers : List (Except Fault Bytes)) :
    Follows (sendChunks i head payload) answers (pieces (frames i.code head payload))
      fun r => ∃ a, replyAt answers ((frames i.code head payload).length - 1) = .ok a ∧ r = .ok a.data := by
  rw [sendChunks_eq nonempty fits, ← chunkCommands_chunks]
  refine (exchangeAll_follows _ _ _ answers).bind_pure ?_
  rintro _ ⟨a, hreply, rfl⟩
  exact ⟨a, rfl, a, hreply, rfl⟩

end Script

end SignerBench.App
