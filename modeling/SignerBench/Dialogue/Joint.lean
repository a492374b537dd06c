import SignerBench.Dialogue

namespace SignerBench.Dialogue

/-- What a dialogue meets outside, with a state. -/
structure World (Ask : Type) (Reply : Ask → Type) (Pause : Type) (σ : Type) where
  /-- There is no reply as long as it is held back, though the question may have changed the state. -/
  reply : (q : Ask) → σ → Option (Reply q) × σ
  pause : Pause → σ → σ

/-- A dialogue that is under way, or the value that it came to. -/
inductive Half (Ask : Type) (Reply : Ask → Type) (Pause : Type) (ε α : Type) where
  | going (position : Position Ask Reply Pause (Except ε α))
  | settled (value : α)

variable {Ask : Type} {Reply : Ask → Type} {Pause σ ε α β : Type}

namespace Half

def ofAttempt (a : Attempt Ask Reply Pause ε α) : Half Ask Reply Pause ε α := .going (start a.run)

/-- One turn. A reply that is held back leaves the dialogue where it stands. -/
def turn (w : World Ask Reply Pause σ) (h : Half Ask Reply Pause ε α) (s : σ) :
    Except ε (Half Ask Reply Pause ε α) × σ :=
  match h with
  | .settled v => (.ok (.settled v), s)
  | .going p =>
    match p.move with
    | .finish (.ok v) => (.ok (.settled v), s)
    | .finish (.error e) => (.error e, s)
    | .ask q next =>
      match w.reply q s with
      | (some r, s) => (.ok (.going (next r)), s)
      | (none, s) => (.ok (.going p), s)
    | .pause pause next => (.ok (.going next), w.pause pause s)

end Half

inductive Side where
  | left
  | right
  deriving DecidableEq, Repr

def Side.other : Side → Side
  | .left => .right
  | .right => .left

def Side.Value (α β : Type) : Side → Type
  | .left => α
  | .right => β

structure Joint (Ask : Type) (Reply : Ask → Type) (Pause : Type) (ε α β : Type) where
  left : Half Ask Reply Pause ε α
  right : Half Ask Reply Pause ε β

namespace Joint

def outcome? (j : Joint Ask Reply Pause ε α β) : Option (α × β) :=
  match j.left, j.right with
  | .settled a, .settled b => some (a, b)
  | _, _ => none

def half (j : Joint Ask Reply Pause ε α β) : (side : Side) → Half Ask Reply Pause ε (side.Value α β)
  | .left => j.left
  | .right => j.right

def withHalf (j : Joint Ask Reply Pause ε α β) :
    (side : Side) → Half Ask Reply Pause ε (side.Value α β) → Joint Ask Reply Pause ε α β
  | .left, h => { j with left := h }
  | .right, h => { j with right := h }

def turn (w : World Ask Reply Pause σ) (side : Side) (j : Joint Ask Reply Pause ε α β) (s : σ) :
    Except ε (Joint Ask Reply Pause ε α β) × σ :=
  let (h, s) := (j.half side).turn w s
  (h.map (j.withHalf side), s)

/-- Takes turns in the order of a schedule, until one of the dialogues fails. -/
def run (w : World Ask Reply Pause σ) (j : Joint Ask Reply Pause ε α β) (s : σ) :
    List Side → Except ε (Joint Ask Reply Pause ε α β) × σ
  | [] => (.ok j, s)
  | side :: rest =>
    match j.turn w side s with
    | (.ok j, s) => run w j s rest
    | (.error e, s) => (.error e, s)

/-- Takes turns, one side after the other, until both dialogues are over or one fails. There is no result if
that takes more than so many turns. -/
def alternate (w : World Ask Reply Pause σ) (side : Side) (j : Joint Ask Reply Pause ε α β) (s : σ) :
    (turns : Nat) → Option (Except ε (α × β)) × σ
  | 0 => (none, s)
  | turns + 1 =>
    match j.outcome? with
    | some values => (some (.ok values), s)
    | none =>
      match j.turn w side s with
      | (.ok j, s) => alternate w side.other j s turns
      | (.error e, s) => (some (.error e), s)

end Joint

end SignerBench.Dialogue
