import SignerBench.Proofs.Attempt
import SignerBench.Proofs.Turns

namespace SignerBench

namespace Dialogue

variable {Ask : Type} {Reply : Ask → Type} {Pause σ ε α β : Type} {w : World Ask Reply Pause σ} {s s₁ s' : σ}
  {a : α} {e : Ending Pause β}

inductive Yields (w : World Ask Reply Pause σ) : Dialogue Ask Reply Pause α → σ → Ending Pause α → σ → Prop where
  | done (a : α) (s : σ) : Yields w (.done a) s (.value a) s
  | again (p : Pause) (s : σ) : Yields w (.again p) s (.again p) s
  | ask {q : Ask} {k : Reply q → Dialogue Ask Reply Pause α} {r : Reply q} {s s₁ s' : σ} {e : Ending Pause α}
      (replied : w.reply q s = (some r, s₁)) (tail : Yields w (k r) s₁ e s') : Yields w (.ask q k) s e s'
  | last {t : Dialogue Ask Reply Pause α} {s s' : σ} {a : α} (turn : Yields w t s (.value a) s') :
      Yields w (.loop t) s (.value a) s'
  | turn {t : Dialogue Ask Reply Pause α} {s s₁ s' : σ} {p : Pause} {e : Ending Pause α}
      (turn : Yields w t s (.again p) s₁) (tail : Yields w (.loop t) (w.pause p s₁) e s') : Yields w (.loop t) s e s'

/-- A run has a log of the dialogue, in which the world has answered. -/
theorem Yields.goes {d : Dialogue Ask Reply Pause α} {e : Ending Pause α} (h : Yields w d s e s') :
    ∃ log, Goes d log e ∧ Half.Answered w s log s' := by
  induction h with
  | done a s => exact ⟨[], .done a, .nil s⟩
  | again p s => exact ⟨[], .again p, .nil s⟩
  | ask replied tail ih =>
    obtain ⟨log, goes, answered⟩ := ih
    exact ⟨_, .ask _ goes, .asked replied answered⟩
  | last turn ih =>
    obtain ⟨log, goes, answered⟩ := ih
    exact ⟨log, .last goes nofun, answered⟩
  | turn turn tail ihturn ihtail =>
    obtain ⟨first, goes, answered⟩ := ihturn
    obtain ⟨rest, goes', answered'⟩ := ihtail
    exact ⟨_, .turn goes goes', answered.append (.paused answered')⟩

/-- What breaks off for a loop around does so whatever would follow. -/
theorem Yields.bind_again {d : Dialogue Ask Reply Pause α} {f : α → Dialogue Ask Reply Pause β} {p : Pause}
    (h : Yields w d s (.again p) s') : Yields w (d.bind f) s (.again p) s' := by
  generalize he : Ending.again p = e at h
  induction h generalizing p with
  | done a s => cases he
  | again q s =>
    cases he
    exact .again _ s
  | ask replied tail ih => exact .ask replied (ih he)
  | last turn ih => cases he
  | turn turn tail ihturn ihtail => exact .turn (ihturn rfl) (ihtail he)

/-- What follows a loop stands in its last turn. So where a loop is left the rest must come to a value. -/
theorem Yields.bind {d : Dialogue Ask Reply Pause α} {f : α → Dialogue Ask Reply Pause β}
    (h : Yields w d s (.value a) s₁) (hf : Yields w (f a) s₁ e s') (ends : d.Flat ∨ ∃ b, e = .value b) :
    Yields w (d.bind f) s e s' := by
  generalize hv : Ending.value a = v at h
  induction h with
  | done a' s =>
    cases hv
    exact hf
  | again p s => cases hv
  | ask replied tail ih => exact .ask replied (ih hf (ends.imp_left fun flat => flat _) hv)
  | last turn ih =>
    obtain ⟨b, rfl⟩ := ends.resolve_left id
    exact .last (ih hf (.inr ⟨b, rfl⟩) hv)
  | turn turn tail _ ihtail => exact .turn turn.bind_again (ihtail hf (ends.imp_left False.elim) hv)

/-- A talk that is held through a part of the world. -/
theorem yields_via {Ask' : Type} {Reply' : Ask' → Type} {τ : Type} {reply : (q : Ask') → τ → Reply' q × τ}
    {question : Ask' → Ask} {answer : (q : Ask') → Reply (question q) → Reply' q} {pause : Empty → Pause}
    {whole : τ → σ}
    (part : ∀ q t, ∃ r, w.reply (question q) (whole t) = (some r, whole (reply q t).2) ∧ answer q r = (reply q t).1)
    (d : Talk Ask' Reply' α) (t : τ) :
    Yields w (d.via question answer pause) (whole t) (.value (d.run reply t).1) (whole (d.run reply t).2) := by
  induction d generalizing t with
  | done a => exact .done a _
  | ask q k ih =>
    obtain ⟨r, hreply, hanswer⟩ := part q t
    refine .ask hreply ?_
    rw [hanswer]
    exact ih _ _
  | loop d ih => exact .last (ih t)
  | again p => exact nomatch p

namespace Half

variable {home : Dialogue Ask Reply Pause (Except ε α)} {h h' : Half Ask Reply Pause ε α}

/-- How a dialogue inside a loop that starts at `home` comes to an ending in turns. -/
def Reaches (w : World Ask Reply Pause σ) (home : Dialogue Ask Reply Pause (Except ε α))
    (h : Half Ask Reply Pause ε α) (s : σ) : Ending Pause (Except ε α) → σ → Prop
  | .value r, s' => ∃ enough, ∀ n, enough ≤ n → turns w n h s = (r.map .settled, s')
  | .again p, s' => ∃ m, ∀ n, turns w (m + n) h s = turns w n (.going ⟨home, home⟩) (w.pause p s')
  | .going, _ => True

/-- What is reached is reached from some turns before, too. -/
theorem Reaches.before {e : Ending Pause (Except ε α)} {m : Nat}
    (first : ∀ n, turns w (m + n) h s = turns w n h' s₁) (reaches : Reaches w home h' s₁ e s') :
    Reaches w home h s e s' := by
  cases e with
  | going => trivial
  | value r =>
    obtain ⟨enough, hturns⟩ := reaches
    refine ⟨m + enough, fun n hn => ?_⟩
    obtain ⟨rest, rfl⟩ := Nat.exists_eq_add_of_le (Nat.le_of_add_right_le hn)
    rw [first]
    exact hturns rest (Nat.le_of_add_le_add_left hn)
  | again p =>
    obtain ⟨m', hturns⟩ := reaches
    refine ⟨m + m', fun n => ?_⟩
    rw [Nat.add_assoc, first, hturns]

/-- One turn ahead of any number of them. -/
theorem turns_of_turn (step : h.turn w s = (.ok h', s₁)) (n : Nat) : turns w (1 + n) h s = turns w n h' s₁ := by
  rw [Nat.add_comm, turns, step]

/-- The position may stand before a loop or in it, as long as it moves like the dialogue. -/
theorem reaches_of_yields {d : Dialogue Ask Reply Pause (Except ε α)} {e : Ending Pause (Except ε α)}
    (yields : Yields w d s e s') (home : Dialogue Ask Reply Pause (Except ε α))
    {p : Position Ask Reply Pause (Except ε α)} (here : p.move = d.move home) : Reaches w home (.going p) s e s' := by
  induction yields generalizing home p with
  | done r s =>
    refine ⟨1, fun n hn => ?_⟩
    obtain ⟨n, rfl⟩ := Nat.exists_eq_add_of_le hn
    cases r with
    | ok v =>
      rw [turns_of_turn (Turned.settles here).turn_eq, turns_settled]
      rfl
    | error e =>
      have failed : Failed (.going p) e := ⟨p, rfl, here⟩
      rw [Nat.add_comm, turns, failed.turn]
      rfl
  | again pause s => exact ⟨1, turns_of_turn (Turned.paused here).turn_eq⟩
  | ask replied tail ih => exact (ih home rfl).before (turns_of_turn (Turned.answered here replied).turn_eq)
  | last turn ih =>
    have hturn := ih _ here
    exact hturn
  | turn turn tail ihturn ihtail =>
    obtain ⟨m, first⟩ := ihturn _ here
    exact (ihtail home rfl).before first

/-- Once the value is there, more turns change nothing. -/
theorem turns_of_yields {x : Attempt Ask Reply Pause ε α} {r : Except ε α}
    (yields : Yields w x.run s (.value r) s') :
    ∃ enough, ∀ n, enough ≤ n → turns w n (.ofAttempt x) s = (r.map .settled, s') :=
  reaches_of_yields yields x.run rfl

end Half

end Dialogue

namespace Attempt

open Dialogue

variable {Ask : Type} {Reply : Ask → Type} {Pause σ τ ε ε' α β : Type} {w : World Ask Reply Pause (σ × τ)}
  {x : Attempt Ask Reply Pause ε α} {f : α → Attempt Ask Reply Pause ε β} {s s₁ s' : σ} {a : α} {e : ε}
  {r : Except ε β}

/-- An attempt has this result and leads to this state, whatever the part of the state is that does not count. -/
def Leads (w : World Ask Reply Pause (σ × τ)) (x : Attempt Ask Reply Pause ε α) (s : σ) (r : Except ε α) (s' : σ) :
    Prop := ∀ t, ∃ t', Yields w x.run (s, t) (.value r) (s', t')

theorem leads_pure : Leads w (pure a : Attempt Ask Reply Pause ε α) s (.ok a) s :=
  fun t => ⟨t, .done _ _⟩

theorem leads_throw : Leads w (throw e : Attempt Ask Reply Pause ε α) s (.error e) s :=
  fun t => ⟨t, .done _ _⟩

theorem leads_ofExcept {r : Except ε α} : Leads w (ofExcept r : Attempt Ask Reply Pause ε α) s r s :=
  fun t => ⟨t, .done _ _⟩

theorem leads_demand {q : Ask} {read : Reply q → Except ε α} {reply : Reply q}
    (replied : ∀ t, w.reply q (s, t) = (some reply, s', t)) :
    Leads w (demand q read : Attempt Ask Reply Pause ε α) s (read reply) s' :=
  fun t => ⟨t, .ask (replied t) (.done _ _)⟩

/-- The first attempt may give one value or another, as long as the rest does the same with each. -/
theorem Leads.bind_any (h : ∀ t, ∃ a t', Yields w x.run (s, t) (.value (.ok a)) (s₁, t'))
    (hf : ∀ a, Leads w (f a) s₁ r s') : Leads w (x >>= f) s r s' := by
  intro t
  obtain ⟨a, t₁, hx⟩ := h t
  obtain ⟨t', hrest⟩ := hf a t₁
  exact ⟨t', hx.bind hrest (.inr ⟨r, rfl⟩)⟩

/-- The rest goes on with the value of the first attempt and with the state that it leads to. -/
theorem Leads.bind (h : Leads w x s (.ok a) s₁) (hf : Leads w (f a) s₁ r s') : Leads w (x >>= f) s r s' := by
  intro t
  obtain ⟨t₁, hx⟩ := h t
  obtain ⟨t', hrest⟩ := hf t₁
  exact ⟨t', hx.bind hrest (.inr ⟨r, rfl⟩)⟩

/-- An error ends the whole attempt, in the state where it came up. -/
theorem Leads.bind_error (h : Leads w x s (.error e) s') : Leads w (x >>= f) s (.error e) s' := by
  intro t
  obtain ⟨t', hx⟩ := h t
  exact ⟨t', hx.bind (.done _ _) (.inr ⟨_, rfl⟩)⟩

theorem Leads.map {g : α → β} (h : Leads w x s (.ok a) s') : Leads w (g <$> x) s (.ok (g a)) s' := by
  rw [map_eq_bind]
  exact h.bind leads_pure

theorem Leads.adapt {g : ε → ε'} {r : Except ε α} (h : Leads w x s r s') :
    Leads w (ExceptT.adapt g x : Attempt Ask Reply Pause ε' α) s (r.mapError g) s' := by
  intro t
  obtain ⟨t', hx⟩ := h t
  exact ⟨t', hx.bind (.done _ _) (.inr ⟨_, rfl⟩)⟩

end Attempt

end SignerBench
