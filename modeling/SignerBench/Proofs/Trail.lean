import Mathlib.Data.List.Forall2
import SignerBench.Dialogue

namespace SignerBench.Dialogue

variable {Ask : Type} {Reply : Ask → Type} {Pause α β : Type}

instance : LawfulMonad (Dialogue Ask Reply Pause) :=
  LawfulMonad.mk' _ bind_done (fun _ _ => rfl) bind_assoc

inductive Event (Ask : Type) (Reply : Ask → Type) (Pause : Type) where
  | asked (question : Ask) (reply : Reply question)
  | paused (pause : Pause)

abbrev Log (Ask : Type) (Reply : Ask → Type) (Pause : Type) := List (Event Ask Reply Pause)

/-- The moves from one position to another. Any reply may come to a question. -/
inductive Trail : Position Ask Reply Pause α → Log Ask Reply Pause → Position Ask Reply Pause α → Prop where
  | here (p : Position Ask Reply Pause α) : Trail p [] p
  | ask {p q : Position Ask Reply Pause α} {question next log} (r : Reply question)
      (step : p.move = .ask question next) (tail : Trail (next r) log q) : Trail p (.asked question r :: log) q
  | pause {p q next : Position Ask Reply Pause α} {pause log}
      (step : p.move = .pause pause next) (tail : Trail next log q) : Trail p (.paused pause :: log) q

theorem Trail.append {p q r : Position Ask Reply Pause α} {log log' : Log Ask Reply Pause} (h : Trail p log q)
    (h' : Trail q log' r) : Trail p (log ++ log') r := by
  induction h with
  | here p => exact h'
  | ask r step tail ih => exact .ask r step (ih h')
  | pause step tail ih => exact .pause step (ih h')

/-- How far a dialogue comes by itself. The loop that it takes again may be one that it stands in. -/
inductive Ending (Pause α : Type) where
  | going
  | value (a : α)
  | again (pause : Pause)

inductive Goes : Dialogue Ask Reply Pause α → Log Ask Reply Pause → Ending Pause α → Prop where
  | going (d : Dialogue Ask Reply Pause α) : Goes d [] .going
  | done (a : α) : Goes (.done a) [] (.value a)
  | ask {q k log e} (r : Reply q) (tail : Goes (k r) log e) : Goes (.ask q k) (.asked q r :: log) e
  | again (p : Pause) : Goes (.again p) [] (.again p)
  /-- The last turn of a loop. -/
  | last {t log e} (turn : Goes t log e) (ended : ∀ p, e ≠ .again p) : Goes (.loop t) log e
  | turn {t first p rest e} (turn : Goes t first (.again p)) (tail : Goes (.loop t) rest e) :
      Goes (.loop t) (first ++ .paused p :: rest) e

def Closed : Dialogue Ask Reply Pause α → Prop
  | done _ => True
  | ask _ k => ∀ r, (k r).Closed
  | loop _ => True
  | again _ => False

def Flat : Dialogue Ask Reply Pause α → Prop
  | done _ => True
  | ask _ k => ∀ r, (k r).Flat
  | loop _ => False
  | again _ => True

theorem Closed.bind {d : Dialogue Ask Reply Pause α} {f : α → Dialogue Ask Reply Pause β} (hd : d.Closed)
    (hf : ∀ a, (f a).Closed) : (d.bind f).Closed := by
  induction d with
  | done a => exact hf a
  | ask q k ih => exact fun r => ih r (hd r)
  | loop t => trivial
  | again p => exact hd.elim

theorem Flat.bind {d : Dialogue Ask Reply Pause α} {f : α → Dialogue Ask Reply Pause β} (hd : d.Flat)
    (hf : ∀ a, (f a).Flat) : (d.bind f).Flat := by
  induction d with
  | done a => exact hf a
  | ask q k ih => exact fun r => ih r (hd r)
  | loop t => exact hd.elim
  | again p => trivial

/-- A dialogue that never waits has nothing to take again. -/
theorem closed_of_talk (d : Talk Ask Reply α) : d.Closed := by
  induction d with
  | done a => trivial
  | ask q k ih => exact ih
  | loop t => trivial
  | again p => exact nomatch p

/-- A closed dialogue never breaks off for a loop around it. -/
theorem Goes.not_again {d : Dialogue Ask Reply Pause α} {log : Log Ask Reply Pause} {p : Pause}
    (hd : d.Closed) : ¬ Goes d log (.again p) := by
  intro h
  generalize he : Ending.again p = e at h
  induction h with
  | going d => cases he
  | done a => cases he
  | ask r tail ih => exact ih (hd r) he
  | again q => exact hd
  | last turn ended => exact ended p he.symm
  | turn turn tail ihturn ihtail => exact ihtail trivial he

/-- Where a dialogue can come to an end it can also stand, as if the end were still ahead. -/
theorem Goes.begins {d : Dialogue Ask Reply Pause α} {log : Log Ask Reply Pause} {e : Ending Pause α}
    (h : Goes d log e) : Goes d log .going := by
  induction h with
  | going d => exact .going d
  | done a => exact .going _
  | ask r tail ih => exact .ask r ih
  | again p => exact .going _
  | last turn ended ih => exact .last ih (fun p => by simp)
  | turn turn tail ihturn ihtail => exact .turn turn ihtail

theorem goes_done {a : α} {log : Log Ask Reply Pause} {e : Ending Pause α} :
    Goes (.done a) log e ↔ log = [] ∧ (e = .going ∨ e = .value a) := by
  constructor
  · intro h
    cases h with
    | going => exact ⟨rfl, .inl rfl⟩
    | done a => exact ⟨rfl, .inr rfl⟩
  · rintro ⟨rfl, rfl | rfl⟩
    · exact .going _
    · exact .done a

/-- A question comes with any reply at all, and the dialogue goes on with it. -/
theorem goes_ask {q : Ask} {k : Reply q → Dialogue Ask Reply Pause α} {log : Log Ask Reply Pause}
    {e : Ending Pause α} :
    Goes (.ask q k) log e ↔
      log = [] ∧ e = .going ∨ ∃ r rest, Goes (k r) rest e ∧ log = .asked q r :: rest := by
  constructor
  · intro h
    cases h with
    | going => exact .inl ⟨rfl, rfl⟩
    | ask r tail => exact .inr ⟨r, _, tail, rfl⟩
  · rintro (⟨rfl, rfl⟩ | ⟨r, rest, tail, rfl⟩)
    · exact .going _
    · exact .ask r tail

theorem goes_asked {q : Ask} {k : Reply q → Dialogue Ask Reply Pause α} {r : Reply q} {log : Log Ask Reply Pause}
    {e : Ending Pause α} : Goes (.ask q k) (.asked q r :: log) e ↔ Goes (k r) log e := by
  rw [goes_ask]
  constructor
  · rintro (⟨he, _⟩ | ⟨r', rest, tail, he⟩) <;> cases he
    exact tail
  · exact fun tail => .inr ⟨r, log, tail, rfl⟩

theorem goes_again {p : Pause} {log : Log Ask Reply Pause} {e : Ending Pause α} :
    Goes (.again p) log e ↔ log = [] ∧ (e = .going ∨ e = .again p) := by
  constructor
  · intro h
    cases h with
    | going => exact ⟨rfl, .inl rfl⟩
    | again p => exact ⟨rfl, .inr rfl⟩
  · rintro ⟨rfl, rfl | rfl⟩
    · exact .going _
    · exact .again p

/-- A log of two dialogues, one behind the other, is one of the first, or is cut where the first ends. -/
theorem Goes.bind_cases {d : Dialogue Ask Reply Pause α} {f : α → Dialogue Ask Reply Pause β}
    {log : Log Ask Reply Pause} {e : Ending Pause β} (h : Goes (d.bind f) log e)
    (hf : d.Flat ∨ ∀ a, (f a).Closed) :
    (∃ a first rest, log = first ++ rest ∧ Goes d first (.value a) ∧ Goes (f a) rest e) ∨
      (e = .going ∧ Goes d log .going) ∨ ∃ p, e = .again p ∧ Goes d log (.again p) := by
  induction d generalizing log e with
  | done a => exact .inl ⟨a, [], log, rfl, .done a, h⟩
  | ask q k ih =>
    cases h with
    | going => exact .inr (.inl ⟨rfl, .going _⟩)
    | ask r tail =>
      rcases ih r tail (hf.imp_left fun flat => flat r) with ⟨a, first, rest, rfl, hd, hr⟩ | ⟨he, hd⟩ | ⟨p, he, hd⟩
      · exact .inl ⟨a, _, rest, rfl, .ask r hd, hr⟩
      · exact .inr (.inl ⟨he, .ask r hd⟩)
      · exact .inr (.inr ⟨p, he, .ask r hd⟩)
  | again p =>
    cases h with
    | going => exact .inr (.inl ⟨rfl, .going _⟩)
    | again p => exact .inr (.inr ⟨p, rfl, .again p⟩)
  | loop t ih =>
    have closed := hf.resolve_left id
    generalize hd : (loop t).bind f = d at h
    induction h with
    | going => exact .inr (.inl ⟨rfl, .going _⟩)
    | done a => cases hd
    | ask r tail => cases hd
    | again p => cases hd
    | last turn ended =>
      cases hd
      rcases ih turn (.inr closed) with ⟨a, first, rest, rfl, ht, hr⟩ | ⟨he, ht⟩ | ⟨p, he, _⟩
      · exact .inl ⟨a, first, rest, rfl, .last ht (fun p => by simp), hr⟩
      · exact .inr (.inl ⟨he, .last ht (fun p => by simp)⟩)
      · exact absurd he (ended p)
    | turn turn tail _ ihtail =>
      cases hd
      rcases ih turn (.inr closed) with ⟨a, first, rest, rfl, _, hr⟩ | ⟨he, _⟩ | ⟨q, he, ht⟩
      · exact absurd hr (Goes.not_again (closed a))
      · cases he
      · cases he
        rcases ihtail rfl with ⟨a, first, rest, rfl, hl, hr⟩ | ⟨he, hl⟩ | ⟨p, he, hl⟩
        · exact .inl ⟨a, _, rest, by simp, .turn ht hl, hr⟩
        · exact .inr (.inl ⟨he, .turn ht hl⟩)
        · exact absurd hl (Goes.not_again trivial)

theorem goes_of_move_finish {d home : Dialogue Ask Reply Pause α} {a : α} (h : d.move home = .finish a) :
    Goes d [] (.value a) := by
  induction d generalizing home with
  | done b => cases h; exact .done _
  | ask q k => cases h
  | loop t ih => exact .last (ih h) (fun p => by simp)
  | again p => cases h

/-- What breaks off for a loop around does so whatever would follow. -/
theorem Goes.bind_again {d : Dialogue Ask Reply Pause α} {f : α → Dialogue Ask Reply Pause β}
    {log : Log Ask Reply Pause} {p : Pause} (h : Goes d log (.again p)) : Goes (d.bind f) log (.again p) := by
  generalize he : Ending.again p = e at h
  induction h with
  | going d => cases he
  | done a => cases he
  | ask r tail ih => exact .ask r (ih he)
  | again q =>
    cases he
    exact .again p
  | last turn ended ih => exact absurd he.symm (ended p)
  | turn turn tail ihturn ihtail =>
    cases he
    exact absurd tail (Goes.not_again trivial)

/-- One dialogue behind the other. What follows a loop stands in its last turn. -/
theorem Goes.bind {d : Dialogue Ask Reply Pause α} {f : α → Dialogue Ask Reply Pause β}
    {first rest : Log Ask Reply Pause} {a : α} {e : Ending Pause β} (h : Goes d first (.value a))
    (hf : Goes (f a) rest e) (ends : ∀ p, e ≠ .again p) : Goes (d.bind f) (first ++ rest) e := by
  generalize hv : Ending.value a = v at h
  induction h with
  | going d => cases hv
  | done b =>
    cases hv
    exact hf
  | ask r tail ih => exact .ask r (ih hv)
  | again p => cases hv
  | last turn ended ih => exact .last (ih hv) ends
  | turn turn tail _ ihtail =>
    rw [List.append_assoc, List.cons_append]
    exact .turn turn.bind_again (ihtail hv)

/-- A log leads to one position only. -/
theorem Trail.rest {p q r : Position Ask Reply Pause α} {log log' : Log Ask Reply Pause} (h : Trail p log q)
    (h' : Trail p (log ++ log') r) : Trail q log' r := by
  induction h with
  | here p => exact h'
  | ask reply step tail ih =>
    cases h' with
    | ask _ step' tail' =>
      cases step.symm.trans step'
      exact ih tail'
  | pause step tail ih =>
    cases h' with
    | pause step' tail' =>
      cases step.symm.trans step'
      exact ih tail'

/-- What is left of a trail once a loop is taken again starts at the loop. -/
theorem Trail.loop_of_home {t : Dialogue Ask Reply Pause α} {log : Log Ask Reply Pause}
    {q : Position Ask Reply Pause α} (h : Trail ⟨t, t⟩ log q) (home : Dialogue Ask Reply Pause α) :
    ∃ q', Trail ⟨loop t, home⟩ log q' ∧ q'.move = q.move := by
  cases h with
  | here => exact ⟨⟨loop t, home⟩, .here _, rfl⟩
  | ask r step tail => exact ⟨q, .ask r step tail, rfl⟩
  | pause step tail => exact ⟨q, .pause step tail, rfl⟩

/-- The converse: what leaves a loop that is just entered leaves it at its start, too. -/
theorem Trail.home_of_loop {t home : Dialogue Ask Reply Pause α} {log : Log Ask Reply Pause}
    {q : Position Ask Reply Pause α} (h : Trail ⟨loop t, home⟩ log q) :
    ∃ q', Trail ⟨t, t⟩ log q' ∧ q'.move = q.move := by
  cases h with
  | here => exact ⟨⟨t, t⟩, .here _, rfl⟩
  | ask r step tail => exact ⟨q, .ask r step tail, rfl⟩
  | pause step tail => exact ⟨q, .pause step tail, rfl⟩

/-- A log that a dialogue may have, with the value that it ends with if the trail is over. -/
def Follows (d : Dialogue Ask Reply Pause α) (log : Log Ask Reply Pause) (q : Position Ask Reply Pause α) :
    Prop :=
  Goes d log .going ∧ ∀ a, q.move = .finish a → Goes d log (.value a)

/-- A trail stays in the dialogue, or leaves it where the loop around it is taken again. The loops of a dialogue
may be taken any number of times, so the induction is on the length of the log, and for each log on the form. -/
theorem Trail.follows {n : Nat} {d home : Dialogue Ask Reply Pause α} {log : Log Ask Reply Pause}
    {q : Position Ask Reply Pause α} (hn : log.length ≤ n) (h : Trail ⟨d, home⟩ log q) :
    Follows d log q ∨ ∃ first p rest, log = first ++ .paused p :: rest ∧ Goes d first (.again p) ∧
      Trail ⟨home, home⟩ rest q := by
  induction n using Nat.strongRecOn generalizing d home log q with
  | _ n outer =>
    induction d generalizing home log q with
    | done a =>
      cases h with
      | here => exact .inl ⟨.going _, fun b hb => goes_of_move_finish hb⟩
      | ask r step tail => cases step
      | pause step tail => cases step
    | ask x k ih =>
      cases h with
      | here => exact .inl ⟨.going _, fun b hb => goes_of_move_finish hb⟩
      | ask r step tail =>
        cases step
        rcases ih r (Nat.le_trans (Nat.le_succ _) hn) tail with hf | ⟨first, p, rest, rfl, hg, ht⟩
        · exact .inl ⟨.ask r hf.1, fun b hb => .ask r (hf.2 b hb)⟩
        · exact .inr ⟨_, p, rest, rfl, .ask r hg, ht⟩
      | pause step tail => cases step
    | again p =>
      cases h with
      | here => exact .inl ⟨.going _, fun b hb => goes_of_move_finish hb⟩
      | ask r step tail => cases step
      | pause step tail => cases step; exact .inr ⟨[], p, _, rfl, .again p, tail⟩
    | loop t ih =>
      obtain ⟨q', h', hq⟩ := h.home_of_loop
      rcases ih hn h' with hf | ⟨first, p, rest, rfl, hg, ht⟩
      · exact .inl ⟨.last hf.1 (fun p => by simp), fun b hb => .last (hf.2 b (hq.trans hb)) (fun p => by simp)⟩
      · obtain ⟨q'', ht, hq'⟩ := ht.loop_of_home home
        have hlt : rest.length < n := by simp only [List.length_append, List.length_cons] at hn; omega
        rcases outer rest.length hlt (Nat.le_refl _) ht with hf | ⟨_, _, _, _, hl, _⟩
        · exact .inl ⟨.turn hg hf.1, fun b hb => .turn hg (hf.2 b (hq'.trans (hq.trans hb)))⟩
        · exact absurd hl (Goes.not_again trivial)

/-- A closed dialogue has no loop around it to leave for, so all of its trails are logs of its own. -/
theorem Trail.start_follows {d : Dialogue Ask Reply Pause α} {log : Log Ask Reply Pause}
    {q : Position Ask Reply Pause α} (h : Trail (start d) log q) (closed : d.Closed) : Follows d log q :=
  (Trail.follows (Nat.le_refl _) h).resolve_right fun ⟨_, _, _, _, hg, _⟩ => Goes.not_again closed hg

theorem Follows.ending {d : Dialogue Ask Reply Pause α} {log : Log Ask Reply Pause}
    {q : Position Ask Reply Pause α} (h : Follows d log q) :
    ∃ e, Goes d log e ∧ ∀ a, q.move = .finish a → e = .value a := by
  cases hq : q.move with
  | finish a => exact ⟨.value a, h.2 a hq, fun b hb => by cases hb; rfl⟩
  | ask question next => exact ⟨.going, h.1, fun b hb => nomatch hb⟩
  | pause pause next => exact ⟨.going, h.1, fun b hb => nomatch hb⟩

/-- What a dialogue does by itself is a trail, too. Where it ends it makes the move that the ending says. -/
theorem Goes.trail {d : Dialogue Ask Reply Pause α} {log : Log Ask Reply Pause} {e : Ending Pause α} (h : Goes d log e)
    (home : Dialogue Ask Reply Pause α) : ∃ q, Trail ⟨d, home⟩ log q ∧
      (∀ a, e = .value a → q.move = .finish a) ∧ ∀ p, e = .again p → q.move = .pause p ⟨home, home⟩ := by
  induction h generalizing home with
  | going d => exact ⟨_, .here _, nofun, nofun⟩
  | done a => exact ⟨_, .here _, fun b hb => by cases hb; rfl, nofun⟩
  | ask r tail ih =>
    obtain ⟨q, trail, ends⟩ := ih home
    exact ⟨q, .ask r rfl trail, ends⟩
  | again p => exact ⟨_, .here _, nofun, fun p hp => by cases hp; rfl⟩
  | @last t _ _ turn ended ih =>
    obtain ⟨q, trail, hvalue, _⟩ := ih t
    obtain ⟨q', trail', hmove⟩ := trail.loop_of_home home
    exact ⟨q', trail', hmove ▸ hvalue, fun p hp => absurd hp (ended p)⟩
  | @turn t first p rest _ turn tail ihturn ihtail =>
    -- One turn leads back to the start of the loop, and the rest goes on from there.
    obtain ⟨back, htrail, _, hback⟩ := ihturn t
    obtain ⟨q, rest, hvalue, _⟩ := ihtail t
    obtain ⟨q', rest', hmove⟩ := rest.home_of_loop
    obtain ⟨q'', trail, hmove'⟩ := (htrail.append (.pause (hback p rfl) rest')).loop_of_home home
    refine ⟨q'', trail, fun a ha => ?_, fun p hp => ?_⟩
    · rw [hmove', hmove, hvalue a ha]
    · subst hp
      exact absurd tail (Goes.not_again trivial)

/-- What happens in a dialogue, as another partner sees it. -/
inductive Heard {Ask' : Type} {Reply' : Ask' → Type} {Pause' : Type} (question : Ask → Ask')
    (reply : (q : Ask) → Reply' (question q) → Reply q) (pause : Pause → Pause') :
    Event Ask' Reply' Pause' → Event Ask Reply Pause → Prop where
  | asked (q : Ask) (r : Reply' (question q)) :
      Heard question reply pause (.asked (question q) r) (.asked q (reply q r))
  | paused (p : Pause) : Heard question reply pause (.paused (pause p)) (.paused p)

def Ending.via {Pause' : Type} (pause : Pause → Pause') : Ending Pause α → Ending Pause' α
  | .going => .going
  | .value a => .value a
  | .again p => .again (pause p)

theorem closed_via {Ask' : Type} {Reply' : Ask' → Type} {Pause' : Type} {question : Ask → Ask'}
    {reply : (q : Ask) → Reply' (question q) → Reply q} {pause : Pause → Pause'}
    {d : Dialogue Ask Reply Pause α} (hd : d.Closed) : (d.via question reply pause).Closed := by
  induction d with
  | done a => trivial
  | ask q k ih => exact fun r => ih _ (hd _)
  | loop t => trivial
  | again p => exact hd.elim

/-- A dialogue held with another partner goes as it does with its own. -/
theorem goes_via {Ask' : Type} {Reply' : Ask' → Type} {Pause' : Type} {question : Ask → Ask'}
    {reply : (q : Ask) → Reply' (question q) → Reply q} {pause : Pause → Pause'}
    {d : Dialogue Ask Reply Pause α} {log : Log Ask' Reply' Pause'} {ending : Ending Pause' α}
    (h : Goes (d.via question reply pause) log ending) :
    ∃ inner e, List.Forall₂ (Heard question reply pause) log inner ∧ ending = e.via pause ∧ Goes d inner e := by
  generalize hd : d.via question reply pause = d' at h
  induction h generalizing d with
  | going => exact ⟨[], .going, .nil, rfl, .going d⟩
  | done a =>
    cases d with
    | done b => cases hd; exact ⟨[], .value a, .nil, rfl, .done a⟩
    | ask | loop | again => cases hd
  | ask r tail ih =>
    cases d with
    | ask q k =>
      cases hd
      obtain ⟨inner, e, hheard, he, hg⟩ := ih rfl
      exact ⟨_, e, .cons (.asked q r) hheard, he, .ask _ hg⟩
    | done | loop | again => cases hd
  | again p =>
    cases d with
    | again p => cases hd; exact ⟨[], .again p, .nil, rfl, .again p⟩
    | done | ask | loop => cases hd
  | last turn ended ih =>
    cases d with
    | loop t =>
      cases hd
      obtain ⟨inner, e, hheard, rfl, hg⟩ := ih rfl
      exact ⟨inner, e, hheard, rfl, .last hg fun p hp => ended (pause p) (by rw [hp]; rfl)⟩
    | done | ask | again => cases hd
  | turn turn tail ihturn ihtail =>
    cases d with
    | loop t =>
      cases hd
      obtain ⟨first, e, hfirst, he, hg⟩ := ihturn rfl
      cases e with
      | again p =>
        cases he
        obtain ⟨rest, e, hrest, he, hl⟩ := ihtail (d := .loop t) rfl
        exact ⟨_, e, List.rel_append hfirst (.cons (.paused p) hrest), he, .turn hg hl⟩
      | going | value => cases he
    | done | ask | again => cases hd

/-- Another partner is asked for nothing but what stands for a question of the dialogue. -/
theorem heard_mem {Ask' : Type} {Reply' : Ask' → Type} {Pause' : Type} {question : Ask → Ask'}
    {reply : (q : Ask) → Reply' (question q) → Reply q} {pause : Pause → Pause'}
    {log : Log Ask' Reply' Pause'} {inner : Log Ask Reply Pause}
    (h : List.Forall₂ (Heard question reply pause) log inner) :
    ∀ ev ∈ log, (∃ q r, ev = .asked (question q) r) ∨ ∃ p, ev = .paused (pause p) := by
  induction h with
  | nil => exact fun _ h => nomatch h
  | cons heard _ ih =>
    refine List.forall_mem_cons.mpr ⟨?_, ih⟩
    cases heard with
    | asked q r => exact .inl ⟨q, r, rfl⟩
    | paused p => exact .inr ⟨p, rfl⟩

/-- A log in which a partner with a state gives all the replies. -/
inductive Answers {σ : Type} (reply : (q : Ask) → σ → Reply q × σ) : σ → Log Ask Reply Pause → σ → Prop where
  | nil (s : σ) : Answers reply s [] s
  | cons {s s' : σ} {log} (q : Ask) (tail : Answers reply (reply q s).2 log s') :
      Answers reply s (.asked q (reply q s).1 :: log) s'

theorem Answers.head {σ : Type} {reply : (q : Ask) → σ → Reply q × σ} {s s' : σ} {q : Ask} {r : Reply q}
    {log : Log Ask Reply Pause} (h : Answers reply s (.asked q r :: log) s') :
    (reply q s).1 = r ∧ Answers reply (reply q s).2 log s' := by
  generalize hl : Event.asked q r :: log = l at h
  cases h with
  | nil s => cases hl
  | cons q' tail =>
    cases hl
    exact ⟨rfl, tail⟩

/-- A talk that is held with a partner has a log, in which this partner gives all the replies. -/
theorem run_goes {σ : Type} (reply : (q : Ask) → σ → Reply q × σ) (d : Talk Ask Reply α) (s : σ) :
    ∃ log, Goes d log (.value (d.run reply s).1) ∧ Answers reply s log (d.run reply s).2 := by
  induction d generalizing s with
  | done a => exact ⟨[], .done a, .nil s⟩
  | ask q k ih =>
    obtain ⟨log, hg, ha⟩ := ih (reply q s).1 (reply q s).2
    exact ⟨_, .ask _ hg, .cons q ha⟩
  | loop t ih =>
    obtain ⟨log, hg, ha⟩ := ih s
    exact ⟨log, .last hg (fun p => nomatch p), ha⟩
  | again p => exact nomatch p

end SignerBench.Dialogue
