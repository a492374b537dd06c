import SignerBench.Image.Inflate
import SignerBench.Image.Png.Pass
import SignerBench.Image.Png.Preamble

namespace SignerBench.Image

structure Raster where
  width : Nat
  height : Nat
  /-- Three bytes for each pixel, row by row. -/
  rgb : Bytes
  deriving DecidableEq, Repr

namespace Png

def mark : Bytes := [0x89, 0x50, 0x4e, 0x47, 0x0d, 0x0a, 0x1a, 0x0a]

/-- The colours that pixels are looked up in. Only indexed ones cannot do without. -/
def Preamble.colors (p : Preamble) (h : Header) : Option (Array Pixel) :=
  match p.palette with
  | some b => some (readPalette b).toArray
  | none => if h.color = .indexed then none else some #[]

def readRaster (h : Header) (palette : Array Pixel) (data : Array UInt8) : Option Raster := do
  if data.size < dataSize h then none
  let empty : Array Pixel := Array.replicate (h.width * h.height) (0, 0, 0)
  let (picture, _) ← (passes h).foldlM (Pass.read h palette) (empty, data.toList)
  return ⟨h.width, h.height, picture.toList.flatMap fun p => [p.1, p.2.1, p.2.2]⟩

/-- Reads an image file. Transparency is left aside, and so is all that stands behind the picture. -/
def decode (file : Bytes) : Option Raster := do
  if file.take 8 ≠ mark then none
  let room := file.length / 12 + 1
  let (told, rest) ← readPreamble room Preamble.empty (file.drop 8)
  let h ← told.header
  let palette ← told.colors h
  let stream ←
    if (← Chunk.kind? rest) = Chunk.Kind.picture then readPicture room rest
    else if told.frame.isSome then readFrame room told.nextFrame rest
    else none
  readRaster h palette (← inflate stream)

end Png

end SignerBench.Image
