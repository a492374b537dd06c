import Mathlib.Order.Nat
import SignerBench.Proofs.Runs
import SignerBench.Proofs.Session

namespace SignerBench.Emulator

open Dialogue

/-- A world that gives one reply after the other. The clock has a sequence of times of its own. -/
def replay (replies : Nat → (q : Ask) → Reply q) (clock : Nat → Nat) : World Ask Reply Nat (Nat × Nat) where
  reply
    | .now, (i, t) => (some (clock t), i, t + 1)
    | q, (i, t) => (some (replies i q), i + 1, t)
  pause _ v := v

/-- Every deadline is passed, however often the clock has been looked at before. -/
def PassesDeadlines (clock : Nat → Nat) : Prop := ∀ deadline t, ∃ i, t ≤ i ∧ deadline ≤ clock i

variable {replies : Nat → (q : Ask) → Reply q} {clock : Nat → Nat} {ε ε' α β : Type}

/-- Work that comes to its end with these replies. -/
def Halts (replies : Nat → (q : Ask) → Reply q) (clock : Nat → Nat) (x : Attempt Ask Reply Nat ε α) : Prop :=
  ∀ v, ∃ r v', Yields (replay replies clock) x.run v (.value r) v'

/-- Work that comes to its end without a look at the clock. -/
def HaltsAtOnce (replies : Nat → (q : Ask) → Reply q) (clock : Nat → Nat) (x : Attempt Ask Reply Nat ε α) : Prop :=
  ∀ i t, ∃ r i', Yields (replay replies clock) x.run (i, t) (.value r) (i', t)

section

variable {x : Attempt Ask Reply Nat ε α} {f : α → Attempt Ask Reply Nat ε β} {q : Ask}

theorem HaltsAtOnce.halts (h : HaltsAtOnce replies clock x) : Halts replies clock x := by
  intro v
  obtain ⟨r, i', yields⟩ := h v.1 v.2
  exact ⟨r, _, yields⟩

theorem haltsAtOnce_ofExcept (r : Except ε α) :
    HaltsAtOnce replies clock (Attempt.ofExcept r : Attempt Ask Reply Nat ε α) :=
  fun i _ => ⟨r, i, .done _ _⟩

theorem haltsAtOnce_pure (a : α) : HaltsAtOnce replies clock (pure a : Attempt Ask Reply Nat ε α) :=
  haltsAtOnce_ofExcept (.ok a)

theorem haltsAtOnce_throw (e : ε) : HaltsAtOnce replies clock (throw e : Attempt Ask Reply Nat ε α) :=
  haltsAtOnce_ofExcept (.error e)

theorem haltsAtOnce_demand {read : Reply q → Except ε α} (timeless : q ≠ .now) :
    HaltsAtOnce replies clock (Attempt.demand q read : Attempt Ask Reply Nat ε α) := by
  intro i t
  refine ⟨read (replies i q), i + 1, .ask ?_ (.done _ _)⟩
  cases q with
  | now => exact absurd rfl timeless
  | _ => rfl

theorem haltsAtOnce_lift (hx : HaltsAtOnce replies clock x) :
    HaltsAtOnce replies clock (ExceptT.lift x.run : Attempt Ask Reply Nat ε' (Except ε α)) := by
  intro i t
  obtain ⟨r, i', yields⟩ := hx i t
  exact ⟨.ok r, i', yields.bind (.done _ _) (.inr ⟨_, rfl⟩)⟩

/-- Neither part looks at the clock, so the time is where it was. -/
theorem HaltsAtOnce.bind (hx : HaltsAtOnce replies clock x) (hf : ∀ a, HaltsAtOnce replies clock (f a)) :
    HaltsAtOnce replies clock (x >>= f) := by
  intro i t
  obtain ⟨r, i₁, first⟩ := hx i t
  cases r with
  | error e => exact ⟨.error e, i₁, first.bind (.done _ _) (.inr ⟨_, rfl⟩)⟩
  | ok a =>
    obtain ⟨r, i', rest⟩ := hf a i₁ t
    exact ⟨r, i', first.bind rest (.inr ⟨_, rfl⟩)⟩

/-- The second part starts with the replies and the times that the first one has left. -/
theorem Halts.bind (hx : Halts replies clock x) (hf : ∀ a, Halts replies clock (f a)) :
    Halts replies clock (x >>= f) := by
  intro v
  obtain ⟨r, v₁, first⟩ := hx v
  cases r with
  | error e => exact ⟨.error e, v₁, first.bind (.done _ _) (.inr ⟨_, rfl⟩)⟩
  | ok a =>
    obtain ⟨r, v', rest⟩ := hf a v₁
    exact ⟨r, v', first.bind rest (.inr ⟨_, rfl⟩)⟩

theorem halts_now : Halts replies clock Work.now := fun v => ⟨.ok (clock v.2), (v.1, v.2 + 1), .ask rfl (.done _ _)⟩

end

namespace Session

variable {s : Session} {deadline : Nat} {late : Error} {look : Work (Option α)}

section

variable {σ : Type} {w : World Ask Reply Nat σ} {v v₁ v' : σ}

/-- A turn that finds something is over, even if the deadline has passed. -/
theorem yields_pollTurn_found (s : Session) (deadline : Nat) (late : Error) {a : α}
    (looked : Yields w look.run v (.value (.ok (some a))) v') :
    Yields w (s.pollTurn deadline late look).run v (.value (.ok a)) v' :=
  looked.bind (.done _ _) (.inr ⟨_, rfl⟩)

/-- A turn that has found nothing gives up or goes on, as the clock says. -/
theorem yields_pollTurn (s : Session) (deadline : Nat) (late : Error) {t : Nat} (flat : look.Flat)
    (nothing : Yields w look.run v (.value (.ok none)) v₁) (time : w.reply .now v₁ = (some t, v')) :
    Yields w (s.pollTurn deadline late look).run v
      (if deadline ≤ t then .value (.error late) else .again s.options.pollInterval) v' := by
  refine nothing.bind (.ask time ?_) (.inl flat)
  change Yields _ (ExceptT.run (if deadline ≤ t then (throw late : Work PUnit) >>= fun _ =>
    Attempt.again s.options.pollInterval else Attempt.again s.options.pollInterval)) _ _ _
  split
  · exact .done _ _
  · exact .again _ _

end

/-- One turn ends the poll, or the clock is looked at once. -/
theorem pollTurn_halts (s : Session) (deadline : Nat) (late : Error) (halts : HaltsAtOnce replies clock look)
    (flat : look.Flat) (i t : Nat) :
    (∃ r v', Yields (replay replies clock) (s.pollTurn deadline late look).run (i, t) (.value r) v') ∨
      clock t < deadline ∧ ∃ i', Yields (replay replies clock) (s.pollTurn deadline late look).run (i, t)
        (.again s.options.pollInterval) (i', t + 1) := by
  obtain ⟨r, i', looked⟩ := halts i t
  match r with
  | .error e => exact .inl ⟨.error e, _, looked.bind (.done _ _) (.inl flat)⟩
  | .ok (some a) => exact .inl ⟨.ok a, _, yields_pollTurn_found s deadline late looked⟩
  | .ok none =>
    have turn := yields_pollTurn s deadline late flat looked (rfl : (replay replies clock).reply .now (i', t) = _)
    split at turn
    · exact .inl ⟨_, _, turn⟩
    · rename_i early
      exact .inr ⟨Nat.not_le.mp early, i', turn⟩

/-- The induction is on how often the clock is still looked at before it has passed the deadline. -/
theorem halts_poll (halts : HaltsAtOnce replies clock look) (flat : look.Flat) (passes : PassesDeadlines clock) :
    Halts replies clock (s.poll deadline late look) := by
  rintro ⟨i, t⟩
  obtain ⟨last, hlast, past⟩ := passes deadline t
  induction hlast using Nat.decreasingInduction generalizing i with
  | self =>
    rcases pollTurn_halts s deadline late halts flat i last with ⟨r, v', turn⟩ | ⟨early, _⟩
    · exact ⟨r, v', .last turn⟩
    · exact absurd past (Nat.not_le.mpr early)
  | of_succ t _ ih =>
    rcases pollTurn_halts s deadline late halts flat i t with ⟨r, v', turn⟩ | ⟨_, i', turn⟩
    · exact ⟨r, v', .last turn⟩
    · obtain ⟨r, v', rest⟩ := ih i'
      exact ⟨r, v', .turn turn rest⟩

theorem haltsAtOnce_call (base : String) (c : Call) : HaltsAtOnce replies clock (Work.call base c) :=
  haltsAtOnce_demand nofun

theorem haltsAtOnce_events : HaltsAtOnce replies clock s.events :=
  (haltsAtOnce_call s.base .events).bind fun _ => haltsAtOnce_ofExcept _

theorem haltsAtOnce_snapshot : HaltsAtOnce replies clock s.snapshot := by
  rw [snapshot, Attempt.map_eq_bind]
  exact (haltsAtOnce_call s.base .screenshot).bind fun _ => haltsAtOnce_pure _

theorem haltsAtOnce_textShown {wanted : String} : HaltsAtOnce replies clock (s.textShown wanted) :=
  (haltsAtOnce_events.bind fun _ => haltsAtOnce_pure _).bind fun _ => haltsAtOnce_pure _

end Session

end SignerBench.Emulator
