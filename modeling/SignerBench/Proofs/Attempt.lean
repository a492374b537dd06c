import SignerBench.Proofs.Trail

namespace SignerBench.Attempt

open Dialogue

variable {Ask : Type} {Reply : Ask → Type} {Pause ε ε' α β : Type}

def Begins (x : Attempt Ask Reply Pause ε α) (log : Log Ask Reply Pause) : Prop := Goes x.run log .going

def Gives (x : Attempt Ask Reply Pause ε α) (log : Log Ask Reply Pause) (a : α) : Prop :=
  Goes x.run log (.value (.ok a))

def Fails (x : Attempt Ask Reply Pause ε α) (log : Log Ask Reply Pause) (e : ε) : Prop :=
  Goes x.run log (.value (.error e))

/-- What is taken again is a loop inside the attempt. -/
def Closed (x : Attempt Ask Reply Pause ε α) : Prop := x.run.Closed

def Flat (x : Attempt Ask Reply Pause ε α) : Prop := x.run.Flat

variable {x : Attempt Ask Reply Pause ε α} {f : α → Attempt Ask Reply Pause ε β}
  {log : Log Ask Reply Pause} {a : α} {b : β} {e : ε} {q : Ask}

/-- A log that gives a value is one that an attempt may have so far. -/
theorem Gives.begins (h : x.Gives log a) : x.Begins log := Goes.begins h

theorem Fails.begins (h : x.Fails log e) : x.Begins log := Goes.begins h

@[simp] theorem closed_pure : Closed (pure a : Attempt Ask Reply Pause ε α) := trivial

@[simp] theorem closed_throw : Closed (throw e : Attempt Ask Reply Pause ε α) := trivial

@[simp] theorem closed_ofExcept {r : Except ε α} :
    Closed (ofExcept r : Attempt Ask Reply Pause ε α) := trivial

@[simp] theorem closed_query : Closed (query q : Attempt Ask Reply Pause ε (Reply q)) := fun _ => trivial

@[simp] theorem closed_demand {read : Reply q → Except ε α} :
    Closed (demand q read : Attempt Ask Reply Pause ε α) := fun _ => trivial

/-- Two attempts that take no loop around them again do not so together. -/
@[simp] theorem Closed.bind (hx : x.Closed) (hf : ∀ a, (f a).Closed) : (x >>= f).Closed :=
  Dialogue.Closed.bind hx fun r => match r with
    | .ok a => hf a
    | .error _ => trivial

@[simp] theorem Closed.map {g : α → β} (hx : x.Closed) : (g <$> x).Closed :=
  Dialogue.Closed.bind hx fun r => match r with
    | .ok _ => trivial
    | .error _ => trivial

@[simp] theorem Closed.discard (hx : x.Closed) : (discard x).Closed := Closed.map hx

@[simp] theorem Closed.adapt {g : ε → ε'} (hx : x.Closed) :
    Closed (ExceptT.adapt g x : Attempt Ask Reply Pause ε' α) :=
  Dialogue.Closed.bind hx fun _ => trivial

@[simp] theorem flat_pure : Flat (pure a : Attempt Ask Reply Pause ε α) := trivial

@[simp] theorem flat_ofExcept {r : Except ε α} : Flat (ofExcept r : Attempt Ask Reply Pause ε α) := trivial

@[simp] theorem flat_throw : Flat (throw e : Attempt Ask Reply Pause ε α) := trivial

@[simp] theorem flat_query : Flat (query q : Attempt Ask Reply Pause ε (Reply q)) := fun _ => trivial

@[simp] theorem flat_demand {read : Reply q → Except ε α} :
    Flat (demand q read : Attempt Ask Reply Pause ε α) := fun _ => trivial

@[simp] theorem Flat.bind (hx : x.Flat) (hf : ∀ a, (f a).Flat) : (x >>= f).Flat :=
  Dialogue.Flat.bind hx fun r => match r with
    | .ok a => hf a
    | .error _ => trivial

@[simp] theorem Flat.map {g : α → β} (hx : x.Flat) : (g <$> x).Flat :=
  Dialogue.Flat.bind hx fun r => match r with
    | .ok _ => trivial
    | .error _ => trivial

@[simp] theorem gives_pure {a' : α} :
    (pure a : Attempt Ask Reply Pause ε α).Gives log a' ↔ log = [] ∧ a' = a :=
  goes_done.trans (by simp)

@[simp] theorem fails_pure : ¬ (pure a : Attempt Ask Reply Pause ε α).Fails log e :=
  fun h => by simpa using goes_done.mp h

@[simp] theorem begins_pure : (pure a : Attempt Ask Reply Pause ε α).Begins log ↔ log = [] :=
  goes_done.trans (by simp)

@[simp] theorem gives_throw : ¬ (throw e : Attempt Ask Reply Pause ε α).Gives log a :=
  fun h => by simpa using goes_done.mp h

@[simp] theorem fails_throw {e' : ε} :
    (throw e : Attempt Ask Reply Pause ε α).Fails log e' ↔ log = [] ∧ e' = e :=
  goes_done.trans (by simp)

@[simp] theorem begins_throw : (throw e : Attempt Ask Reply Pause ε α).Begins log ↔ log = [] :=
  goes_done.trans (by simp)

@[simp] theorem gives_ofExcept {r : Except ε α} :
    (ofExcept r : Attempt Ask Reply Pause ε α).Gives log a ↔ log = [] ∧ r = .ok a :=
  goes_done.trans (by simp [eq_comm])

@[simp] theorem fails_ofExcept {r : Except ε α} :
    (ofExcept r : Attempt Ask Reply Pause ε α).Fails log e ↔ log = [] ∧ r = .error e :=
  goes_done.trans (by simp [eq_comm])

@[simp] theorem begins_ofExcept {r : Except ε α} :
    (ofExcept r : Attempt Ask Reply Pause ε α).Begins log ↔ log = [] :=
  goes_done.trans (by simp)

/-- One question is asked, and the reply is one that can be read. -/
@[simp] theorem gives_demand {read : Reply q → Except ε α} :
    (demand q read : Attempt Ask Reply Pause ε α).Gives log a ↔
      ∃ r, log = [.asked q r] ∧ read r = .ok a :=
  goes_ask.trans (by simp [goes_done, and_assoc, and_comm, eq_comm])

/-- A question fails only by its reply. It has been asked then. -/
@[simp] theorem fails_demand {read : Reply q → Except ε α} :
    (demand q read : Attempt Ask Reply Pause ε α).Fails log e ↔
      ∃ r, log = [.asked q r] ∧ read r = .error e :=
  goes_ask.trans (by simp [goes_done, and_assoc, and_comm, eq_comm])

@[simp] theorem begins_demand {read : Reply q → Except ε α} :
    (demand q read : Attempt Ask Reply Pause ε α).Begins log ↔ log = [] ∨ ∃ r, log = [.asked q r] :=
  goes_ask.trans (by simp [goes_done])

theorem query_eq_demand : (query q : Attempt Ask Reply Pause ε (Reply q)) = demand q .ok := rfl

/-- A query takes any reply as it is, and so never fails. -/
@[simp] theorem gives_query {r : Reply q} :
    (query q : Attempt Ask Reply Pause ε (Reply q)).Gives log r ↔ log = [.asked q r] := by
  simp [query_eq_demand]

@[simp] theorem fails_query : ¬ (query q : Attempt Ask Reply Pause ε (Reply q)).Fails log e := by
  simp [query_eq_demand]

@[simp] theorem begins_query :
    (query q : Attempt Ask Reply Pause ε (Reply q)).Begins log ↔ log = [] ∨ ∃ r, log = [.asked q r] :=
  begins_demand

/-- A log of two attempts is split where the first one gives its value. If there is no such place the first one has
failed or is still under way. -/
theorem bind_cases {ending : Ending Pause (Except ε β)} (hf : x.Flat ∨ ∀ a, (f a).Closed)
    (h : Goes (x >>= f).run log ending) :
    (∃ a first rest, log = first ++ rest ∧ x.Gives first a ∧ Goes (f a).run rest ending) ∨
      (∃ e, ending = .value (.error e) ∧ x.Fails log e) ∨ (ending = .going ∧ x.Begins log) ∨
      ∃ p, ending = .again p ∧ Goes x.run log (.again p) := by
  rcases Goes.bind_cases h (hf.imp_right fun closed r => match r with
    | .ok a => closed a
    | .error _ => trivial) with ⟨r, first, rest, rfl, hx, hr⟩ | ⟨he, hx⟩ | ⟨p, he, hx⟩
  · cases r with
    | ok a => exact .inl ⟨a, first, rest, rfl, hx, hr⟩
    | error e =>
      obtain ⟨rfl, he | he⟩ := goes_done.mp hr
      · exact .inr (.inr (.inl ⟨he, by rw [List.append_nil]; exact Goes.begins hx⟩))
      · exact .inr (.inl ⟨e, he, by rw [List.append_nil]; exact hx⟩)
  · exact .inr (.inr (.inl ⟨he, hx⟩))
  · exact .inr (.inr (.inr ⟨p, he, hx⟩))

/-- Where both come to an end, either the first one fails or the second one comes to it. -/
theorem value_bind {r : Except ε β} (hf : x.Flat ∨ ∀ a, (f a).Closed) (h : Goes (x >>= f).run log (.value r)) :
    (∃ a first rest, log = first ++ rest ∧ x.Gives first a ∧ Goes (f a).run rest (.value r)) ∨
      ∃ e, r = .error e ∧ x.Fails log e := by
  rcases bind_cases hf h with h | ⟨e, he, hx⟩ | ⟨he, _⟩ | ⟨p, he, _⟩
  · exact .inl h
  · cases he
    exact .inr ⟨e, rfl, hx⟩
  all_goals cases he

/-- The whole gives a value only if both parts do. -/
theorem gives_bind (hf : x.Flat ∨ ∀ a, (f a).Closed) (h : (x >>= f).Gives log b) :
    ∃ a first rest, log = first ++ rest ∧ x.Gives first a ∧ (f a).Gives rest b := by
  rcases bind_cases hf h with h | ⟨e, he, _⟩ | ⟨he, _⟩ | ⟨p, he, _⟩
  · exact h
  all_goals cases he

/-- The whole fails in the first part, or in the second one behind a first one that gave its value. -/
theorem fails_bind (hf : x.Flat ∨ ∀ a, (f a).Closed) (h : (x >>= f).Fails log e) :
    x.Fails log e ∨ ∃ a first rest, log = first ++ rest ∧ x.Gives first a ∧ (f a).Fails rest e := by
  rcases bind_cases hf h with h | ⟨e, he, hx⟩ | ⟨he, _⟩ | ⟨p, he, _⟩
  · exact .inr h
  · cases he
    exact .inl hx
  all_goals cases he

/-- However far the whole has come, it stands in the first part or has left it behind. -/
theorem begins_bind (hf : x.Flat ∨ ∀ a, (f a).Closed) (h : (x >>= f).Begins log) :
    x.Begins log ∨ ∃ a first rest, log = first ++ rest ∧ x.Gives first a ∧ (f a).Begins rest := by
  rcases bind_cases hf h with h | ⟨e, he, _⟩ | ⟨_, hx⟩ | ⟨p, he, _⟩
  · exact .inr h
  · cases he
  · exact .inl hx
  · cases he

/-- Both of them, one behind the other. -/
theorem Gives.bind {first rest : Log Ask Reply Pause} {ending : Ending Pause (Except ε β)} (h : x.Gives first a)
    (hf : Goes (f a).run rest ending) (ends : ∀ p, ending ≠ .again p) : Goes (x >>= f).run (first ++ rest) ending :=
  Goes.bind h hf ends

theorem gives_bind_pure {g : α → β} (h : (x >>= fun a => pure (g a)).Gives log b) :
    ∃ a, x.Gives log a ∧ b = g a := by
  obtain ⟨a, first, rest, rfl, hx, hp⟩ := gives_bind (.inr fun _ => closed_pure) h
  obtain ⟨rfl, rfl⟩ := gives_pure.mp hp
  exact ⟨a, by rwa [List.append_nil], rfl⟩

theorem fails_bind_pure {g : α → β} (h : (x >>= fun a => pure (g a)).Fails log e) : x.Fails log e := by
  rcases fails_bind (.inr fun _ => closed_pure) h with hx | ⟨a, first, rest, _, _, hp⟩
  · exact hx
  · exact absurd hp fails_pure

theorem begins_bind_pure {g : α → β} (h : (x >>= fun a => pure (g a)).Begins log) : x.Begins log := by
  rcases begins_bind (.inr fun _ => closed_pure) h with hx | ⟨a, first, rest, rfl, hx, hp⟩
  · exact hx
  · rw [begins_pure.mp hp, List.append_nil]
    exact hx.begins

theorem map_eq_bind {g : α → β} : g <$> x = x >>= fun a => pure (g a) :=
  congrArg (Dialogue.bind x.run) (funext fun r => by cases r <;> rfl)

theorem gives_map {g : α → β} (h : (g <$> x).Gives log b) : ∃ a, x.Gives log a ∧ b = g a :=
  gives_bind_pure (map_eq_bind (x := x) ▸ h)

theorem Gives.map {g : α → β} (h : x.Gives log a) : (g <$> x).Gives log (g a) := by
  have both : (x >>= fun a => pure (g a)).Gives (log ++ []) (g a) := h.bind (.done _) nofun
  rwa [List.append_nil, ← map_eq_bind] at both

theorem Gives.discard (h : x.Gives log a) : (discard x).Gives log () := h.map

theorem fails_map {g : α → β} (h : (g <$> x).Fails log e) : x.Fails log e :=
  fails_bind_pure (map_eq_bind (x := x) ▸ h)

theorem begins_map {g : α → β} (h : (g <$> x).Begins log) : x.Begins log :=
  begins_bind_pure (map_eq_bind (x := x) ▸ h)

/-- An attempt whose result is put in another form when it is there. -/
theorem goes_result {γ : Type} {g : Except ε α → γ} {ending : Ending Pause γ}
    (h : Goes (x.run.bind fun r => .done (g r)) log ending) :
    (∃ r, Goes x.run log (.value r) ∧ (ending = .going ∨ ending = .value (g r))) ∨
      (ending = .going ∧ x.Begins log) ∨ ∃ p, ending = .again p ∧ Goes x.run log (.again p) := by
  rcases Goes.bind_cases h (.inr fun _ => trivial) with ⟨r, first, rest, rfl, hx, hr⟩ | h | h
  · obtain ⟨rfl, he⟩ := goes_done.mp hr
    exact .inl ⟨r, by rwa [List.append_nil], he⟩
  · exact .inr (.inl h)
  · exact .inr (.inr h)

/-- Errors that are told otherwise change no value. -/
theorem gives_adapt {g : ε → ε'} (h : Gives (ExceptT.adapt g x : Attempt Ask Reply Pause ε' α) log a) :
    x.Gives log a := by
  rcases goes_result h with ⟨r, hx, he | he⟩ | ⟨he, _⟩ | ⟨p, he, _⟩
  · cases he
  · cases r with
    | ok a' => cases he; exact hx
    | error e => cases he
  all_goals cases he

/-- What fails with the errors told otherwise has failed before. -/
theorem fails_adapt {g : ε → ε'} {e' : ε'}
    (h : Fails (ExceptT.adapt g x : Attempt Ask Reply Pause ε' α) log e') : ∃ e, x.Fails log e ∧ e' = g e := by
  rcases goes_result h with ⟨r, hx, he | he⟩ | ⟨he, _⟩ | ⟨p, he, _⟩
  · cases he
  · cases r with
    | ok a => cases he
    | error e => cases he; exact ⟨e, hx, rfl⟩
  all_goals cases he

theorem begins_adapt {g : ε → ε'} (h : Begins (ExceptT.adapt g x : Attempt Ask Reply Pause ε' α) log) :
    x.Begins log := by
  rcases goes_result h with ⟨r, hx, _⟩ | ⟨_, hx⟩ | ⟨p, he, _⟩
  · exact Goes.begins hx
  · exact hx
  · cases he

@[simp] theorem closed_lift (hx : x.Closed) : Closed (ExceptT.lift x.run : Attempt Ask Reply Pause ε' (Except ε α)) :=
  Dialogue.Closed.bind hx fun _ => trivial

@[simp] theorem flat_lift (hx : x.Flat) : Flat (ExceptT.lift x.run : Attempt Ask Reply Pause ε' (Except ε α)) :=
  Dialogue.Flat.bind hx fun _ => trivial

/-- The result of an attempt that is tried may be its failure. -/
theorem gives_lift {r : Except ε α} (h : Gives (ExceptT.lift x.run : Attempt Ask Reply Pause ε' (Except ε α)) log r) :
    Goes x.run log (.value r) := by
  rcases goes_result h with ⟨r, hx, he | he⟩ | ⟨he, _⟩ | ⟨p, he, _⟩
  · cases he
  · cases he
    exact hx
  all_goals cases he

/-- Trying something does not fail. -/
theorem fails_lift {e' : ε'} : ¬ Fails (ExceptT.lift x.run : Attempt Ask Reply Pause ε' (Except ε α)) log e' := by
  intro h
  rcases goes_result h with ⟨r, _, he | he⟩ | ⟨he, _⟩ | ⟨p, he, _⟩
  all_goals cases he

section

variable {σ : Type} {reply : (q : Ask) → σ → Reply q × σ} {y : Attempt Ask Reply Empty ε α}
  {g : α → Attempt Ask Reply Empty ε β} {s s' : σ}

/-- Holds an attempt with a partner that has a state. -/
def on (reply : (q : Ask) → σ → Reply q × σ) (y : Attempt Ask Reply Empty ε α) (s : σ) : Except ε α × σ :=
  Dialogue.run reply y.run s

/-- The second attempt is held with the partner as the first one leaves it. -/
theorem on_bind (h : y.on reply s = (.ok a, s')) : (y >>= g).on reply s = (g a).on reply s' := by
  refine (Dialogue.run_bind reply y.run _ s).trans ?_
  have hrun : Dialogue.run reply y.run s = (.ok a, s') := h
  rw [hrun]
  rfl

/-- Where the first attempt fails the partner is left as it was then. -/
theorem on_bind_error (h : y.on reply s = (.error e, s')) : (y >>= g).on reply s = (.error e, s') := by
  refine (Dialogue.run_bind reply y.run _ s).trans ?_
  have hrun : Dialogue.run reply y.run s = (.error e, s') := h
  rw [hrun]
  rfl

/-- A value of the whole has come by way of a value of the first attempt. -/
theorem on_bind_ok (h : (y >>= g).on reply s = (.ok b, s')) :
    ∃ a s₁, y.on reply s = (.ok a, s₁) ∧ (g a).on reply s₁ = (.ok b, s') := by
  cases hy : y.on reply s with
  | mk r s₁ =>
    cases r with
    | error e =>
      rw [on_bind_error hy] at h
      cases h
    | ok a =>
      rw [on_bind hy] at h
      exact ⟨a, s₁, rfl, h⟩

theorem on_map {f : α → β} (h : y.on reply s = (.ok a, s')) : (f <$> y).on reply s = (.ok (f a), s') := by
  rw [map_eq_bind, on_bind h]
  rfl

/-- The partner does not see what becomes of the errors. -/
theorem on_adapt_eq {f : ε → ε'} : on reply (ExceptT.adapt f y : Attempt Ask Reply Empty ε' α) s =
    ((y.on reply s).1.mapError f, (y.on reply s).2) := Dialogue.run_bind reply y.run _ s

theorem on_adapt {f : ε → ε'} (h : y.on reply s = (.ok a, s')) :
    on reply (ExceptT.adapt f y : Attempt Ask Reply Empty ε' α) s = (.ok a, s') := by
  rw [on_adapt_eq, h]
  rfl

theorem on_adapt_error {f : ε → ε'} (h : y.on reply s = (.error e, s')) :
    on reply (ExceptT.adapt f y : Attempt Ask Reply Empty ε' α) s = (.error (f e), s') := by
  rw [on_adapt_eq, h]
  rfl

/-- Holding a dialogue with one part of a partner is holding it with the partner. -/
theorem run_via {Ask' : Type} {Reply' : Ask' → Type} {σ' : Type} (reply : (q : Ask) → σ → Reply q × σ)
    (reply' : (q : Ask') → σ' → Reply' q × σ') (question : Ask → Ask')
    (answer : (q : Ask) → Reply' (question q) → Reply q) (whole : σ → σ')
    (part : ∀ q s, (reply' (question q) (whole s)).2 = whole (reply q s).2 ∧
      answer q (reply' (question q) (whole s)).1 = (reply q s).1) (d : Talk Ask Reply α) (s : σ) :
    Dialogue.run reply' (d.via question answer id) (whole s) =
      ((Dialogue.run reply d s).1, whole (Dialogue.run reply d s).2) := by
  induction d generalizing s with
  | done a => rfl
  | ask q k ih =>
    obtain ⟨hstate, hanswer⟩ := part q s
    rw [Dialogue.via, Dialogue.run, Dialogue.run]
    dsimp only
    rw [hanswer, hstate]
    exact ih _ _
  | loop t ih => exact ih s
  | again p => exact nomatch p

/-- What is tried without failing gives its result as a value. -/
theorem on_lift : on reply (ExceptT.lift y.run : Attempt Ask Reply Empty ε' (Except ε α)) s =
    (.ok (y.on reply s).1, (y.on reply s).2) := Dialogue.run_bind reply y.run _ s

end

end SignerBench.Attempt
