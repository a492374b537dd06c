import SignerBench.Decimal.Binary64

namespace SignerBench.Decimal

structure Scientific where
  digits : Nat
  exponent : Int
  deriving DecidableEq, Repr

def scale (num den : Nat) (e : Int) : Nat × Nat :=
  if 0 ≤ e then (num * Nat.pow 10 e.toNat, den) else (num, den * Nat.pow 10 (-e).toNat)

/-- The numbers that round to one pattern: those from `low` to `high`, in units of `1 / den`, where the two
ends belong to them if `closed`. The pattern's own value is `mid`. -/
structure Interval where
  low : Nat
  mid : Nat
  high : Nat
  den : Nat
  closed : Bool

/-- Half of the gap below is a quarter of the gap above at each power of two. -/
def Interval.ofPattern (p : Nat) : Interval :=
  let m := Binary64.significand p
  let unit := 1 <<< Binary64.shift p
  let below := if p % Binary64.fractionUnit = 0 ∧ 1 < p / Binary64.fractionUnit then 1 else 2
  ⟨(4 * m - below) * unit, 4 * m * unit, (4 * m + 2) * unit, 4 <<< 1074, m % 2 = 0⟩

def Interval.holds (i : Interval) (s : Scientific) : Bool :=
  let (num, den) := scale s.digits 1 s.exponent
  let x := num * i.den
  if i.closed then i.low * den ≤ x && x ≤ i.high * den else i.low * den < x && x < i.high * den

/-- The distance of two numbers from the middle, compared: the first is nearer, or as near and even. -/
def Interval.prefers (i : Interval) (s t : Scientific) : Bool :=
  let (a, b) := scale s.digits 1 s.exponent
  let (c, d) := scale t.digits 1 t.exponent
  let x := i.mid * b - a * i.den
  let y := c * i.den - i.mid * d
  x * d < y * b || (x * d == y * b && s.digits % 2 == 0)

def leadExponent (num den : Nat) : Int :=
  let guess := ((Nat.log2 num : Int) - (Nat.log2 den : Int)) * 30103 / 100000
  let reaches (e : Int) : Bool :=
    let (n, d) := scale num den (-e)
    d ≤ n
  if reaches (guess + 1) then guess + 1 else if reaches guess then guess else guess - 1

/-- The better neighbour of the middle on the grid of `10 ^ exponent`, if one lies in the interval. -/
def Interval.onGrid (i : Interval) (exponent : Int) : Option Scientific :=
  let (n, d) := scale i.mid i.den (-exponent)
  let down : Scientific := ⟨n / d, exponent⟩
  let up : Scientific := ⟨n / d + 1, exponent⟩
  match i.holds down, i.holds up with
  | true, true => some (if i.prefers down up then down else up)
  | true, false => some down
  | false, true => some up
  | false, false => none

/-- Drops zeros at the end of the digits, at most `room` of them. -/
def Scientific.trim (room : Nat) (s : Scientific) : Scientific :=
  match room with
  | 0 => s
  | room + 1 =>
    if s.digits ≠ 0 ∧ s.digits % 10 = 0 then Scientific.trim room ⟨s.digits / 10, s.exponent + 1⟩ else s

/-- The first of the grids with one to seventeen digits that has a number in the interval, and the number there that is
nearest to the middle. -/
def shortest (pattern : Nat) : Scientific :=
  if pattern = 0 then ⟨0, 0⟩
  else
    let i := Interval.ofPattern pattern
    let first := leadExponent i.mid i.den
    match (List.range 17).findSome? fun (n : Nat) => i.onGrid (first - n) with
    | some s => s.trim 17
    | none => ⟨i.mid / i.den, 0⟩

end SignerBench.Decimal
