import SignerBench.Image.Png.Chunk

namespace SignerBench.Image.Png

inductive Color where
  | grey
  | rgb
  | indexed
  | greyAlpha
  | rgbAlpha
  deriving DecidableEq

def Color.ofCode : UInt8 → Option Color
  | 0 => some .grey
  | 2 => some .rgb
  | 3 => some .indexed
  | 4 => some .greyAlpha
  | 6 => some .rgbAlpha
  | _ => none

def Color.samples : Color → Nat
  | .grey => 1
  | .rgb => 3
  | .indexed => 1
  | .greyAlpha => 2
  | .rgbAlpha => 4

/-- The sizes that a sample may have. -/
def Color.depths : Color → List Nat
  | .grey => [1, 2, 4, 8, 16]
  | .rgb => [8, 16]
  | .indexed => [1, 2, 4, 8]
  | .greyAlpha => [8, 16]
  | .rgbAlpha => [8, 16]

structure Header where
  width : Nat
  height : Nat
  depth : Nat
  color : Color
  interlaced : Bool

/-- Bytes behind those of the header do not matter. -/
def Header.ofBytes (b : Bytes) : Option Header :=
  match b.drop 8 with
  | depth :: color :: 0 :: 0 :: interlaced :: _ => do
    let color ← Color.ofCode color
    let width := number (b.take 4)
    let height := number ((b.drop 4).take 4)
    if width ≠ 0 ∧ height ≠ 0 ∧ depth.toNat ∈ color.depths ∧ interlaced ≤ 1 then
      some ⟨width, height, depth.toNat, color, interlaced = 1⟩
    else none
  | _ => none

def Header.bits (h : Header) : Nat := h.color.samples * h.depth

end SignerBench.Image.Png
