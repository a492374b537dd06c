import Mathlib.Data.List.Forall2

namespace SignerBench

variable {ε α β : Type} {x : Except ε α} {as : List α} {bs : List β} {b : β}

theorem ok_bind (a : α) (f : α → Except ε β) : (Except.ok a >>= f) = f a := rfl

theorem ok_of_bind {f : α → Except ε β} (h : x >>= f = .ok b) : ∃ a, x = .ok a ∧ f a = .ok b := by
  cases x with
  | error e => cases h
  | ok a => exact ⟨a, rfl, h⟩

theorem bind_ok_iff {f : α → Except ε β} : x >>= f = .ok b ↔ ∃ a, x = .ok a ∧ f a = .ok b := by
  refine ⟨ok_of_bind, ?_⟩
  rintro ⟨a, rfl, h⟩
  exact h

theorem ok_of_map {f : α → β} (h : x.map f = .ok b) : ∃ a, x = .ok a ∧ f a = b := by
  cases x with
  | error e => cases h
  | ok a => exact ⟨a, rfl, Except.ok.inj h⟩

/-- A list is read if each part of it is. -/
theorem mapM_ok_iff {f : α → Except ε β} : as.mapM f = .ok bs ↔ List.Forall₂ (fun a b => f a = .ok b) as bs := by
  induction as generalizing bs with
  | nil =>
    rw [List.forall₂_nil_left_iff, List.mapM_nil]
    exact ⟨fun h => (Except.ok.inj h).symm, fun h => h ▸ rfl⟩
  | cons a as ih =>
    rw [List.mapM_cons, List.forall₂_cons_left_iff]
    constructor
    · intro h
      obtain ⟨b, hb, h⟩ := ok_of_bind h
      obtain ⟨rest, hrest, h⟩ := ok_of_bind h
      cases h
      exact ⟨b, rest, hb, ih.mp hrest, rfl⟩
    · rintro ⟨b, rest, hb, hrest, rfl⟩
      rw [hb, ih.mpr hrest]
      rfl

/-- A list fails at the first part that does. -/
theorem mapM_error_iff {f : α → Except ε β} {e : ε} : as.mapM f = .error e ↔
    ∃ before a behind, as = before ++ a :: behind ∧ (∀ a ∈ before, ∃ b, f a = .ok b) ∧ f a = .error e := by
  induction as with
  | nil =>
    refine ⟨(nomatch ·), ?_⟩
    rintro ⟨before, a, behind, h, _⟩
    cases before <;> cases h
  | cons a as ih =>
    rw [List.mapM_cons]
    constructor
    · intro h
      cases ha : f a with
      | error =>
        rw [ha] at h
        cases h
        exact ⟨[], a, as, rfl, List.forall_mem_nil _, ha⟩
      | ok b =>
        rw [ha] at h
        cases has : as.mapM f with
        | ok bs =>
          rw [has] at h
          cases h
        | error =>
          rw [has] at h
          cases h
          obtain ⟨before, c, behind, rfl, hbefore, hc⟩ := ih.mp has
          exact ⟨a :: before, c, behind, rfl, List.forall_mem_cons.mpr ⟨⟨b, ha⟩, hbefore⟩, hc⟩
    · rintro ⟨before, c, behind, h, hbefore, hc⟩
      cases before with
      | nil =>
        cases h
        rw [hc]
        rfl
      | cons a before =>
        cases h
        obtain ⟨⟨b, hb⟩, hrest⟩ := List.forall_mem_cons.mp hbefore
        rw [hb, ih.mpr ⟨before, c, behind, rfl, hrest, hc⟩]
        rfl

/-- A list whose parts can fail in one way only. -/
theorem mapM_ite {f : α → Except ε β} {g : α → β} {p : α → Prop} [DecidablePred p] {e : ε}
    (each : ∀ a ∈ as, f a = if p a then .ok (g a) else .error e) :
    as.mapM f = if ∀ a ∈ as, p a then .ok (as.map g) else .error e := by
  induction as with
  | nil => exact (if_pos (List.forall_mem_nil _)).symm
  | cons a as ih =>
    obtain ⟨ha, has⟩ := List.forall_mem_cons.mp each
    rw [List.mapM_cons, ha]
    by_cases hp : p a
    · rw [if_pos hp, ih has]
      by_cases hall : ∀ a ∈ as, p a
      · rw [if_pos hall, if_pos (List.forall_mem_cons.mpr ⟨hp, hall⟩)]
        rfl
      · rw [if_neg hall, if_neg fun h => hall (List.forall_mem_cons.mp h).2]
        rfl
    · rw [if_neg hp, if_neg fun h => hp (List.forall_mem_cons.mp h).1]
      rfl

end SignerBench
