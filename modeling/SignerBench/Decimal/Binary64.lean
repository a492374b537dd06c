namespace SignerBench

structure Binary64 where
  negative : Bool
  /-- The lower 63 bits: eleven of the exponent, then 52 of the fraction. -/
  pattern : Nat
  deriving DecidableEq, Repr

namespace Binary64

def fractionUnit : Nat := 0x10000000000000

/-- The least pattern that stands for no finite number. -/
def infinite : Nat := 2047 * fractionUnit

def significand (pattern : Nat) : Nat :=
  if pattern < fractionUnit then pattern else fractionUnit + pattern % fractionUnit

/-- The exponent of two, counted from that of the least positive number. -/
def shift (pattern : Nat) : Nat := pattern / fractionUnit - 1

def ratio (pattern : Nat) : Nat × Nat :=
  (significand pattern <<< shift pattern, 1 <<< 1074)

/-- The quotient to the nearest whole number, a half to the even one. -/
def roundDiv (num den : Nat) : Nat :=
  let q := num / den
  let r := num % den
  if 2 * r < den then q else if den < 2 * r then q + 1 else q + q % 2

/-- The pattern nearest to `num / den`. It is at least `infinite` when the quotient is too large. -/
def nearest (num den : Nat) : Nat :=
  if num = 0 then 0
  else
    let scaled := num <<< 1074
    let width := Nat.log2 scaled - Nat.log2 den
    let guess := width - 52
    let steps := if scaled / den < fractionUnit <<< guess then guess - 1 else guess
    steps * fractionUnit + roundDiv scaled (den <<< steps)

def ofNat (n : Nat) : Nat := nearest n 1

def mul (x y : Nat) : Nat :=
  let (a, b) := ratio x
  let (c, d) := ratio y
  nearest (a * c) (b * d)

def div (x y : Nat) : Nat :=
  let (a, b) := ratio x
  let (c, d) := ratio y
  nearest (a * d) (b * c)

end Binary64

end SignerBench
