import SignerBench.Bytes.Basic

namespace SignerBench.Utf8

/-- What a character that has begun still needs: the count of bytes, the bounds of the next one, and the
value so far. -/
structure Owed where
  count : Nat
  low : UInt8
  high : UInt8
  value : Nat

/-- A byte that stands for itself, one that begins a longer character, or one that no character has here. -/
inductive Lead where
  | single (value : Nat)
  | begins (owed : Owed)
  | bad

def lead (b : UInt8) : Lead :=
  if b < 0x80 then .single b.toNat
  else if 0xc2 ≤ b ∧ b ≤ 0xdf then .begins ⟨1, 0x80, 0xbf, b.toNat - 0xc0⟩
  else if b = 0xe0 then .begins ⟨2, 0xa0, 0xbf, 0⟩
  else if b = 0xed then .begins ⟨2, 0x80, 0x9f, 13⟩
  else if 0xe1 ≤ b ∧ b ≤ 0xef then .begins ⟨2, 0x80, 0xbf, b.toNat - 0xe0⟩
  else if b = 0xf0 then .begins ⟨3, 0x90, 0xbf, 0⟩
  else if 0xf1 ≤ b ∧ b ≤ 0xf3 then .begins ⟨3, 0x80, 0xbf, b.toNat - 0xf0⟩
  else if b = 0xf4 then .begins ⟨3, 0x80, 0x8f, 4⟩
  else .bad

def replacement : Char := '\ufffd'

/-- The characters that a byte completes between two characters, and the one that it begins. -/
def start (b : UInt8) : List Char × Option Owed :=
  match lead b with
  | .single n => ([Char.ofNat n], none)
  | .begins owed => ([], some owed)
  | .bad => ([replacement], none)

/-- One byte, inside the character that is owed if there is one. -/
def step (owed : Option Owed) (b : UInt8) : List Char × Option Owed :=
  match owed with
  | none => start b
  | some o =>
    if o.low ≤ b ∧ b ≤ o.high then
      let value := o.value * 64 + (b.toNat - 0x80)
      if o.count = 1 then ([Char.ofNat value], none) else ([], some ⟨o.count - 1, 0x80, 0xbf, value⟩)
    else
      let (cs, next) := start b
      (replacement :: cs, next)

/-- Reads on behind the characters read so far in reverse. -/
def readOn (done : List Char) (owed : Option Owed) : Bytes → List Char
  | [] => (if owed.isSome then replacement :: done else done).reverse
  | b :: rest =>
    let (cs, next) := step owed b
    readOn (cs.reverse ++ done) next rest

def decodeLossy (b : Bytes) : String := String.ofList (readOn [] none b)

def encodeChar (c : Char) : Bytes := Bytes.ofText (String.singleton c)

end SignerBench.Utf8
