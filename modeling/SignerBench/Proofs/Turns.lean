import SignerBench.Dialogue.Joint
import SignerBench.Proofs.Trail

namespace SignerBench.Dialogue

variable {Ask : Type} {Reply : Ask → Type} {Pause σ ε α β : Type}

namespace Half

def event? (w : World Ask Reply Pause σ) (h : Half Ask Reply Pause ε α) (s : σ) :
    Option (Event Ask Reply Pause) :=
  match h with
  | .settled _ => none
  | .going p =>
    match p.move with
    | .finish _ => none
    | .ask q _ => (w.reply q s).1.map (.asked q)
    | .pause pause _ => some (.paused pause)

/-- How far a dialogue has come from a position, with this log. -/
inductive Comes (p : Position Ask Reply Pause (Except ε α)) :
    Log Ask Reply Pause → Half Ask Reply Pause ε α → Prop where
  | going {log : Log Ask Reply Pause} {q : Position Ask Reply Pause (Except ε α)} (trail : Trail p log q) :
      Comes p log (.going q)
  | settled {log : Log Ask Reply Pause} {q : Position Ask Reply Pause (Except ε α)} {v : α} (trail : Trail p log q)
      (ended : q.move = .finish (.ok v)) : Comes p log (.settled v)

/-- A dialogue that is over, and has failed. -/
def Failed (h : Half Ask Reply Pause ε α) (e : ε) : Prop := ∃ p, h = .going p ∧ p.move = .finish (.error e)

variable {w : World Ask Reply Pause σ} {h h' : Half Ask Reply Pause ε α} {s s' : σ} {e : ε}
  {p : Position Ask Reply Pause (Except ε α)} {log : Log Ask Reply Pause}

/-- What a turn can be: what becomes of the dialogue and of the world, and what happens. -/
inductive Turned (w : World Ask Reply Pause σ) (s : σ) :
    Half Ask Reply Pause ε α → Except ε (Half Ask Reply Pause ε α) → σ → Option (Event Ask Reply Pause) → Prop where
  | resting (v : α) : Turned w s (.settled v) (.ok (.settled v)) s none
  | settles {p : Position Ask Reply Pause (Except ε α)} {v : α} (ends : p.move = .finish (.ok v)) :
      Turned w s (.going p) (.ok (.settled v)) s none
  | fails {p : Position Ask Reply Pause (Except ε α)} {e : ε} (ends : p.move = .finish (.error e)) :
      Turned w s (.going p) (.error e) s none
  | held {p : Position Ask Reply Pause (Except ε α)} {q : Ask} {next : Reply q → Position Ask Reply Pause (Except ε α)}
      {s' : σ} (asks : p.move = .ask q next) (held : w.reply q s = (none, s')) :
      Turned w s (.going p) (.ok (.going p)) s' none
  | answered {p : Position Ask Reply Pause (Except ε α)} {q : Ask}
      {next : Reply q → Position Ask Reply Pause (Except ε α)} {r : Reply q} {s' : σ} (asks : p.move = .ask q next)
      (replied : w.reply q s = (some r, s')) : Turned w s (.going p) (.ok (.going (next r))) s' (some (.asked q r))
  | paused {p next : Position Ask Reply Pause (Except ε α)} {pause : Pause} (pauses : p.move = .pause pause next) :
      Turned w s (.going p) (.ok (.going next)) (w.pause pause s) (some (.paused pause))

theorem turned (w : World Ask Reply Pause σ) (h : Half Ask Reply Pause ε α) (s : σ) :
    Turned w s h (h.turn w s).1 (h.turn w s).2 (h.event? w s) := by
  cases h with
  | settled v => exact .resting v
  | going p =>
    unfold turn event?
    dsimp only
    cases hmove : p.move with
    | finish r =>
      cases r with
      | ok v => exact .settles hmove
      | error e => exact .fails hmove
    | pause pause next => exact .paused hmove
    | ask q next =>
      dsimp only
      rcases hreply : w.reply q s with ⟨_ | r, s'⟩
      · exact .held hmove hreply
      · exact .answered hmove hreply

theorem Turned.turn_eq {r : Except ε (Half Ask Reply Pause ε α)} {event : Option (Event Ask Reply Pause)}
    (turned : Turned w s h r s' event) : h.turn w s = (r, s') := by
  cases turned with
  | resting => rfl
  | settles move | fails move | paused move =>
    unfold turn
    dsimp only
    rw [move]
  | held asks reply | answered asks reply =>
    unfold turn
    dsimp only
    rw [asks]
    dsimp only
    rw [reply]

/-- The turn that came to this. -/
theorem turned_of_turn {r : Except ε (Half Ask Reply Pause ε α)} (ht : h.turn w s = (r, s')) :
    Turned w s h r s' (h.event? w s) := by
  have hturned := turned w h s
  rwa [ht] at hturned

theorem Comes.turn (hc : Comes p log h) (ht : h.turn w s = (.ok h', s')) :
    Comes p (log ++ (h.event? w s).toList) h' := by
  have hturned := turned_of_turn ht
  generalize h.event? w s = event at hturned
  cases hc with
  | settled trail ended =>
    cases hturned
    exact .settled (by simpa using trail) ended
  | going trail =>
    cases hturned with
    | settles ends => exact .settled (by simpa using trail) ends
    | held => exact .going (by simpa using trail)
    | answered asks => exact .going (trail.append (.ask _ asks (.here _)))
    | paused pauses => exact .going (trail.append (.pause pauses (.here _)))

theorem failed_of_turn (ht : h.turn w s = (.error e, s')) : h.Failed e := by
  have hturned := turned_of_turn ht
  generalize h.event? w s = event at hturned
  cases hturned with
  | fails ends => exact ⟨_, rfl, ends⟩

theorem Failed.turn (hf : h.Failed e) : h.turn w s = (.error e, s) := by
  obtain ⟨p, rfl, hp⟩ := hf
  exact (Turned.fails hp).turn_eq

def turns (w : World Ask Reply Pause σ) : Nat → Half Ask Reply Pause ε α → σ → Except ε (Half Ask Reply Pause ε α) × σ
  | 0, h, s => (.ok h, s)
  | n + 1, h, s =>
    match h.turn w s with
    | (.ok h, s) => turns w n h s
    | (.error e, s) => (.error e, s)

theorem turns_settled (w : World Ask Reply Pause σ) (n : Nat) (v : α) (s : σ) :
    turns w n (.settled v : Half Ask Reply Pause ε α) s = (.ok (.settled v), s) := by
  induction n with
  | zero => rfl
  | succ n ih => exact ih

/-- A log in which the world gives all the replies. It may hold a reply back for some turns. -/
inductive Answered (w : World Ask Reply Pause σ) : σ → Log Ask Reply Pause → σ → Prop where
  | nil (s : σ) : Answered w s [] s
  | held {q : Ask} {s s₁ s' : σ} {log : Log Ask Reply Pause} (held : w.reply q s = (none, s₁))
      (tail : Answered w s₁ log s') : Answered w s log s'
  | asked {q : Ask} {r : Reply q} {s s₁ s' : σ} {log : Log Ask Reply Pause} (replied : w.reply q s = (some r, s₁))
      (tail : Answered w s₁ log s') : Answered w s (.asked q r :: log) s'
  | paused {p : Pause} {s s' : σ} {log : Log Ask Reply Pause} (tail : Answered w (w.pause p s) log s') :
      Answered w s (.paused p :: log) s'

theorem Answered.append {s s₁ s' : σ} {log log' : Log Ask Reply Pause} (h : Answered w s log s₁)
    (h' : Answered w s₁ log' s') : Answered w s (log ++ log') s' := by
  induction h with
  | nil s => exact h'
  | held held tail ih => exact .held held (ih h')
  | asked replied tail ih => exact .asked replied (ih h')
  | paused tail ih => exact .paused (ih h')

theorem answered_turn (ht : h.turn w s = (.ok h', s')) : Answered w s (h.event? w s).toList s' := by
  have hturned := turned_of_turn ht
  generalize h.event? w s = event at hturned ⊢
  cases hturned with
  | resting | settles => exact .nil s
  | held _ held => exact .held held (.nil _)
  | answered _ replied => exact .asked replied (.nil _)
  | paused => exact .paused (.nil _)

/-- Whatever a dialogue comes to in some turns, its log is one of its own, and the world has answered in it. -/
theorem comes_turns {n : Nat} {result : Except ε (Half Ask Reply Pause ε α)} (hc : Comes p log h)
    (ht : turns w n h s = (result, s')) :
    ∃ log' h', Answered w s log' s' ∧ Comes p (log ++ log') h' ∧
      (result = .ok h' ∨ ∃ e, result = .error e ∧ h'.Failed e) := by
  induction n generalizing h s log with
  | zero =>
    cases ht
    exact ⟨[], h, .nil _, by rwa [List.append_nil], .inl rfl⟩
  | succ n ih =>
    rw [turns] at ht
    rcases hturn : h.turn w s with ⟨e | h₁, s₁⟩
    · rw [hturn] at ht
      cases ht
      have hfailed := failed_of_turn hturn
      have hs : s' = s := by
        rw [hfailed.turn] at hturn
        cases hturn
        rfl
      exact ⟨[], h, hs ▸ .nil s', by rwa [List.append_nil], .inr ⟨e, rfl, hfailed⟩⟩
    · rw [hturn] at ht
      obtain ⟨rest, h', hanswered, hcomes, hresult⟩ := ih (hc.turn hturn) ht
      exact ⟨_, h', (answered_turn hturn).append hanswered, by rwa [← List.append_assoc], hresult⟩

/-- A talk without loops, held through a world that holds no reply to it back, comes to its end. -/
theorem turns_via {Ask' : Type} {Reply' : Ask' → Type} {reply : (q : Ask') → σ → Reply' q × σ} {question : Ask' → Ask}
    {answer : (q : Ask') → Reply (question q) → Reply' q} {pause : Empty → Pause}
    (part : ∀ q s, ∃ r, w.reply (question q) s = (some r, (reply q s).2) ∧ answer q r = (reply q s).1)
    (d : Talk Ask' Reply' (Except ε α)) (flat : d.Flat) (home : Dialogue Ask Reply Pause (Except ε α)) (s : σ) :
    ∃ enough, ∀ n, enough ≤ n → turns w n (.going ⟨d.via question answer pause, home⟩) s =
      ((d.run reply s).1.map .settled, (d.run reply s).2) := by
  induction d generalizing s with
  | done r =>
    refine ⟨1, fun n hn => ?_⟩
    obtain ⟨n, rfl⟩ := Nat.exists_eq_succ_of_ne_zero (Nat.ne_of_gt hn)
    cases r with
    | ok v => exact turns_settled w n v s
    | error e => rfl
  | ask q k ih =>
    obtain ⟨r, hreply, hanswer⟩ := part q s
    obtain ⟨enough, hturns⟩ := ih (answer q r) (flat _) (reply q s).2
    refine ⟨enough + 1, fun n hn => ?_⟩
    obtain ⟨n, rfl⟩ := Nat.exists_eq_succ_of_ne_zero (Nat.ne_of_gt (Nat.zero_lt_of_lt hn))
    have hturn := (Turned.answered (p := ⟨(Dialogue.ask q k).via question answer pause, home⟩) rfl hreply).turn_eq
    have hrun : Dialogue.run reply (.ask q k) s = (k (answer q r)).run reply (reply q s).2 := by
      rw [hanswer]
      rfl
    rw [turns, hturn, hrun]
    exact hturns n (Nat.le_of_succ_le_succ hn)
  | loop t => exact flat.elim
  | again p => exact nomatch p

end Half

namespace Joint

def event? (w : World Ask Reply Pause σ) (side : Side) (j : Joint Ask Reply Pause ε α β) (s : σ) :
    Option (Event Ask Reply Pause) := (j.half side).event? w s

def log (w : World Ask Reply Pause σ) (side : Side) (j : Joint Ask Reply Pause ε α β) (s : σ) :
    List Side → Log Ask Reply Pause
  | [] => []
  | turn :: rest =>
    (if turn = side then (j.event? w side s).toList else []) ++
      match j.turn w turn s with
      | (.ok j, s) => log w side j s rest
      | (.error _, _) => []

/-- One of the dialogues has failed. -/
def Failed (j : Joint Ask Reply Pause ε α β) (side : Side) (e : ε) : Prop := (j.half side).Failed e

variable {w : World Ask Reply Pause σ} {j j' : Joint Ask Reply Pause ε α β} {s s' : σ} {e : ε} {side of : Side}
  {rest : List Side} {log₁ : Log Ask Reply Pause}

theorem half_withHalf (h : Half Ask Reply Pause ε (side.Value α β)) : (j.withHalf side h).half side = h := by
  cases side <;> rfl

theorem half_withHalf_other (h : Half Ask Reply Pause ε (side.Value α β)) (ne : side ≠ of) :
    (j.withHalf side h).half of = j.half of := by
  cases side <;> cases of <;> first | rfl | exact absurd rfl ne

/-- A turn is one of the dialogue whose turn it is. The other one is as it was. -/
theorem turn_ok (h : j.turn w side s = (.ok j', s')) :
    ∃ half, (j.half side).turn w s = (.ok half, s') ∧ j' = j.withHalf side half := by
  rcases ht : (j.half side).turn w s with ⟨_ | half, st⟩ <;> rw [turn, ht] at h <;> cases h
  exact ⟨half, rfl, rfl⟩

theorem turn_error_iff : j.turn w side s = (.error e, s') ↔ (j.half side).turn w s = (.error e, s') := by
  rcases ht : (j.half side).turn w s with ⟨_ | half, st⟩ <;> simp [turn, ht, Except.map]

theorem failed_of_turn (h : j.turn w side s = (.error e, s')) : j.Failed side e :=
  Half.failed_of_turn (turn_error_iff.mp h)

theorem Failed.turn (h : j.Failed side e) : j.turn w side s = (.error e, s) :=
  turn_error_iff.mpr (Half.Failed.turn h)

theorem run_of_turn (h : j.turn w side s = (.ok j', s')) : j.run w s (side :: rest) = j'.run w s' rest := by
  simp only [run, h]

theorem run_of_failure (h : j.turn w side s = (.error e, s')) : j.run w s (side :: rest) = (.error e, s') := by
  simp only [run, h]

/-- The turns of the other dialogue leave nothing in this log. -/
theorem log_of_turn (h : j.turn w side s = (.ok j', s')) :
    j.log w of s (side :: rest) =
      (if side = of then (j.event? w of s).toList else []) ++ j'.log w of s' rest := by
  simp only [log, h]

theorem run_append {first : List Side} (h : j.run w s first = (.ok j', s')) :
    j.run w s (first ++ rest) = j'.run w s' rest := by
  induction first generalizing j s with
  | nil => cases h; rfl
  | cons side first ih =>
    rcases ht : j.turn w side s with ⟨_ | j'', s''⟩
    · rw [run_of_failure ht] at h
      cases h
    · rw [run_of_turn ht] at h
      rw [List.cons_append, run_of_turn ht]
      exact ih h

theorem comes_turn {p : Position Ask Reply Pause (Except ε (of.Value α β))} (hc : Half.Comes p log₁ (j.half of))
    (h : j.turn w side s = (.ok j', s')) :
    Half.Comes p (log₁ ++ if side = of then (j.event? w of s).toList else []) (j'.half of) := by
  obtain ⟨half, hturn, rfl⟩ := turn_ok h
  by_cases hside : side = of
  · subst hside
    rw [if_pos rfl, half_withHalf]
    exact hc.turn hturn
  · rw [if_neg hside, List.append_nil, half_withHalf_other half hside]
    exact hc

/-- Whatever the order of the turns is, a dialogue comes on by what happens in its own. -/
theorem comes_run {schedule : List Side} (of : Side) {p : Position Ask Reply Pause (Except ε (of.Value α β))}
    (hc : Half.Comes p log₁ (j.half of)) (h : j.run w s schedule = (.ok j', s')) :
    Half.Comes p (log₁ ++ j.log w of s schedule) (j'.half of) := by
  induction schedule generalizing j s log₁ with
  | nil =>
    cases h
    simpa [log] using hc
  | cons side rest ih =>
    rcases ht : j.turn w side s with ⟨_ | j'', s''⟩
    · rw [run_of_failure ht] at h
      cases h
    · rw [run_of_turn ht] at h
      rw [log_of_turn ht, ← List.append_assoc]
      exact ih (comes_turn hc ht) h

/-- A failure comes from the dialogue whose turn it was. -/
theorem run_error {schedule : List Side} (h : j.run w s schedule = (.error e, s')) :
    ∃ first side rest j' st, schedule = first ++ side :: rest ∧ j.run w s first = (.ok j', st) ∧
      j'.Failed side e := by
  induction schedule generalizing j s with
  | nil => cases h
  | cons side rest ih =>
    rcases ht : j.turn w side s with ⟨e' | j'', s''⟩
    · rw [run_of_failure ht] at h
      cases h
      exact ⟨[], side, rest, j, s, rfl, rfl, failed_of_turn ht⟩
    · rw [run_of_turn ht] at h
      obtain ⟨first, side', rest', j', st, rfl, hrun, hfailed⟩ := ih h
      exact ⟨side :: first, side', rest', j', st, rfl, by rw [run_of_turn ht, hrun], hfailed⟩

/-- A dialogue that has failed stays so through the turns of the other one. -/
theorem Failed.other_turn (h : j.Failed of e) (other : side ≠ of) (ht : j.turn w side s = (.ok j', s')) :
    j'.Failed of e := by
  obtain ⟨half, _, rfl⟩ := turn_ok ht
  rwa [Failed, half_withHalf_other half other]

theorem Failed.not_outcome (h : j.Failed side e) : j.outcome? = none := by
  unfold outcome?
  cases side with
  | left =>
    obtain ⟨p, hp : j.left = .going p, _⟩ := h
    rw [hp]
  | right =>
    obtain ⟨p, hp : j.right = .going p, _⟩ := h
    rw [hp]
    cases j.left <;> rfl

/-- Once a dialogue has failed there are no values, and its next turn ends both. -/
theorem Failed.run {schedule : List Side} (h : j.Failed side e) (hrun : j.run w s schedule = (.ok j', s')) :
    side ∉ schedule ∧ j'.Failed side e := by
  induction schedule generalizing j s with
  | nil =>
    cases hrun
    exact ⟨List.not_mem_nil, h⟩
  | cons first rest ih =>
    rcases ht : j.turn w first s with ⟨e' | j'', s''⟩
    · rw [run_of_failure ht] at hrun
      cases hrun
    · rw [run_of_turn ht] at hrun
      have hother : first ≠ side := by
        rintro rfl
        rw [h.turn] at ht
        cases ht
      obtain ⟨hrest, hfailed⟩ := ih (h.other_turn hother ht) hrun
      exact ⟨List.not_mem_cons_of_ne_of_not_mem hother.symm hrest, hfailed⟩

end Joint

end SignerBench.Dialogue
