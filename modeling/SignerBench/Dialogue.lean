namespace SignerBench

/-- A program that asks, goes on with the reply, and ends with a value, or waits and takes the innermost loop from its
start again. What the outside replies is no part of it, so a statement about one holds for every device, disk and clock.
-/
inductive Dialogue (Ask : Type) (Reply : Ask → Type) (Pause : Type) (α : Type) where
  | done (value : α)
  | ask (question : Ask) (next : Reply question → Dialogue Ask Reply Pause α)
  /-- Entering a loop. What follows the loop's last turn stands inside it, so loops follow each other but are
  not nested. -/
  | loop (turn : Dialogue Ask Reply Pause α)
  | again (pause : Pause)

/-- A dialogue that never waits. -/
abbrev Talk (Ask : Type) (Reply : Ask → Type) := Dialogue Ask Reply Empty

namespace Dialogue

variable {Ask : Type} {Reply : Ask → Type} {Pause α β γ : Type}

def bind (d : Dialogue Ask Reply Pause α) (f : α → Dialogue Ask Reply Pause β) :
    Dialogue Ask Reply Pause β :=
  match d with
  | done a => f a
  | ask q k => ask q fun r => (k r).bind f
  | loop t => loop (t.bind f)
  | again p => again p

instance : Monad (Dialogue Ask Reply Pause) where
  pure := done
  bind := bind

def query (q : Ask) : Dialogue Ask Reply Pause (Reply q) := ask q done

theorem bind_done (d : Dialogue Ask Reply Pause α) : d.bind done = d := by
  induction d with
  | done a => rfl
  | ask q k ih => exact congrArg (ask q) (funext ih)
  | loop t ih => exact congrArg loop ih
  | again p => rfl

theorem bind_assoc (d : Dialogue Ask Reply Pause α) (f : α → Dialogue Ask Reply Pause β)
    (g : β → Dialogue Ask Reply Pause γ) : (d.bind f).bind g = d.bind fun a => (f a).bind g := by
  induction d with
  | done a => rfl
  | ask q k ih => exact congrArg (ask q) (funext ih)
  | loop t ih => exact congrArg loop ih
  | again p => rfl

/-- The same dialogue held with another partner, whose questions and replies stand for the first one's. -/
def via {Ask' : Type} {Reply' : Ask' → Type} {Pause' : Type} (question : Ask → Ask')
    (reply : (q : Ask) → Reply' (question q) → Reply q) (pause : Pause → Pause') :
    Dialogue Ask Reply Pause α → Dialogue Ask' Reply' Pause' α
  | done a => done a
  | ask q k => ask (question q) fun r => (k (reply q r)).via question reply pause
  | loop t => loop (t.via question reply pause)
  | again p => again (pause p)

/-- Where a dialogue stands: what is left of it, and the start of the innermost loop. -/
structure Position (Ask : Type) (Reply : Ask → Type) (Pause : Type) (α : Type) where
  here : Dialogue Ask Reply Pause α
  home : Dialogue Ask Reply Pause α

def start (d : Dialogue Ask Reply Pause α) : Position Ask Reply Pause α := ⟨d, d⟩

/-- What a dialogue does next. -/
inductive Move (Ask : Type) (Reply : Ask → Type) (Pause : Type) (α : Type) where
  | finish (value : α)
  | ask (question : Ask) (next : Reply question → Position Ask Reply Pause α)
  | pause (pause : Pause) (next : Position Ask Reply Pause α)

/-- The next move of a dialogue inside a loop that starts at `home`. -/
def move : Dialogue Ask Reply Pause α → (home : Dialogue Ask Reply Pause α) → Move Ask Reply Pause α
  | done a, _ => .finish a
  | ask q k, home => .ask q fun r => ⟨k r, home⟩
  | loop t, _ => t.move t
  | again p, home => .pause p ⟨home, home⟩

def Position.move (p : Position Ask Reply Pause α) : Move Ask Reply Pause α := p.here.move p.home

/-- Runs a talk against a partner that has a state. -/
def run {σ : Type} (reply : (q : Ask) → σ → Reply q × σ) : Talk Ask Reply α → σ → α × σ
  | done a, s => (a, s)
  | ask q k, s =>
    let (r, s) := reply q s
    (k r).run reply s
  | loop t, s => t.run reply s

/-- Runs a talk against a partner whose replies have effects. -/
def runM {m : Type → Type} [Monad m] (reply : (q : Ask) → m (Reply q)) : Talk Ask Reply α → m α
  | done a => pure a
  | ask q k => do
    let r ← reply q
    (k r).runM reply
  | loop t => t.runM reply

theorem run_bind {σ : Type} (reply : (q : Ask) → σ → Reply q × σ) (d : Talk Ask Reply α)
    (f : α → Talk Ask Reply β) (s : σ) :
    (d.bind f).run reply s = (f (d.run reply s).1).run reply (d.run reply s).2 := by
  induction d generalizing s with
  | done a => rfl
  | ask q k ih => exact ih _ _
  | loop t ih => exact ih s
  | again p => exact nomatch p

end Dialogue

/-- A dialogue that may fail. -/
abbrev Attempt (Ask : Type) (Reply : Ask → Type) (Pause : Type) (ε : Type) :=
  ExceptT ε (Dialogue Ask Reply Pause)

namespace Attempt

variable {Ask : Type} {Reply : Ask → Type} {Pause ε α : Type}

def ofExcept (r : Except ε α) : Attempt Ask Reply Pause ε α := ExceptT.mk (.done r)

/-- Asks one question, whose reply cannot fail the attempt by itself. -/
def query (q : Ask) : Attempt Ask Reply Pause ε (Reply q) := ExceptT.lift (Dialogue.query q)

/-- Asks one question, whose reply may be a failure of the attempt. -/
def demand (q : Ask) (read : Reply q → Except ε α) : Attempt Ask Reply Pause ε α :=
  ExceptT.mk (Dialogue.ask q fun r => .done (read r))

def loop (turn : Attempt Ask Reply Pause ε α) : Attempt Ask Reply Pause ε α :=
  ExceptT.mk (Dialogue.loop turn.run)

/-- Takes the innermost loop from its start again after a pause. -/
def again (p : Pause) : Attempt Ask Reply Pause ε α := ExceptT.mk (Dialogue.again p)

end Attempt

end SignerBench
