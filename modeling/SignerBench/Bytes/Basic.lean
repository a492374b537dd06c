namespace SignerBench

abbrev Bytes := List UInt8

/-- A byte string of exactly `n` bytes. -/
abbrev Block (n : Nat) := { b : Bytes // b.length = n }

def Block.take? (n : Nat) (b : Bytes) : Option (Block n) :=
  if h : n ≤ b.length then some ⟨b.take n, List.length_take_of_le h⟩ else none

def Block.zero (n : Nat) : Block n := ⟨List.replicate n 0, List.length_replicate⟩

theorem Block.take?_eq_some {n : Nat} {b : Bytes} (h : n ≤ b.length) :
    Block.take? n b = some ⟨b.take n, List.length_take_of_le h⟩ := by
  simp [Block.take?, h]

namespace Bytes

def ofText (s : String) : Bytes := s.toUTF8.data.toList

def toText? (b : Bytes) : Option String := String.fromUTF8? ⟨b.toArray⟩

theorem toText?_ofText (s : String) : toText? (ofText s) = some s := dif_pos s.isValidUTF8

def le16 (w : UInt16) : Bytes := [w.toUInt8, (w / 256).toUInt8]

def le32 (w : UInt32) : Bytes :=
  [w.toUInt8, (w / 256).toUInt8, (w / 65536).toUInt8, (w / 16777216).toUInt8]

def word16 (low high : UInt8) : UInt16 := low.toUInt16 + 256 * high.toUInt16

/-- The word with these bytes, the lowest one first. -/
def word32 (a b c d : UInt8) : UInt32 :=
  a.toUInt32 + 256 * b.toUInt32 + 65536 * c.toUInt32 + 16777216 * d.toUInt32

theorem word32_le32 (w : UInt32) :
    word32 w.toUInt8 (w / 256).toUInt8 (w / 65536).toUInt8 (w / 16777216).toUInt8 = w := by
  apply UInt32.toNat_inj.1
  have := w.toNat_lt
  simp [word32]
  omega

@[simp] theorem length_le16 (w : UInt16) : (le16 w).length = 2 := rfl

@[simp] theorem length_le32 (w : UInt32) : (le32 w).length = 4 := rfl

/-- Cuts a byte string into pieces of `size` bytes; the last one may be shorter. -/
def chunks (size : Nat) (b : Bytes) : List Bytes :=
  match b with
  | [] => []
  | x :: xs => (x :: xs.take (size - 1)) :: chunks size (xs.drop (size - 1))
termination_by b.length
decreasing_by simp only [List.length_drop, List.length_cons]; omega

end Bytes

end SignerBench
