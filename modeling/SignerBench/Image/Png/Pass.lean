import SignerBench.Bytes.Basic
import SignerBench.Image.Png.Header

namespace SignerBench.Image.Png

/-- The neighbour nearest to what left, upper and upper left neighbour suggest. -/
def paeth (a b c : Nat) : Nat :=
  let p : Int := (a : Int) + b - c
  let distance (x : Nat) : Nat := (p - x).natAbs
  if distance a ≤ distance b ∧ distance a ≤ distance c then a else if distance b ≤ distance c then b else c

def unfilterByte (filter : UInt8) (x a b c : UInt8) : Option UInt8 :=
  match filter with
  | 0 => some x
  | 1 => some (x + a)
  | 2 => some (x + b)
  | 3 => some (x + UInt8.ofNat ((a.toNat + b.toNat) / 2))
  | 4 => some (x + UInt8.ofNat (paeth a.toNat b.toNat c.toNat))
  | _ => none

/-- Undoes the filter of a row, where `unit` bytes make a pixel. -/
def unfilterRow (filter : UInt8) (unit : Nat) (above : Array UInt8) (row : List UInt8) : Option (Array UInt8) :=
  row.foldlM (fun out x => do
    let i := out.size
    let left (r : Array UInt8) : UInt8 := if unit ≤ i then r.getD (i - unit) 0 else 0
    return out.push (← unfilterByte filter x (left out) (above.getD i 0) (left above))) #[]

/-- Takes rows of `size` bytes, each behind the byte of its filter. -/
def unfilterRows (unit size : Nat) (above : Array UInt8) :
    Nat → List UInt8 → Option (List (Array UInt8) × List UInt8)
  | 0, data => some ([], data)
  | n + 1, data =>
    match data with
    | [] => none
    | filter :: data => do
      if data.length < size then none
      let row ← unfilterRow filter unit above (data.take size)
      let (rows, rest) ← unfilterRows unit size row n (data.drop size)
      return (row :: rows, rest)

/-- The samples of a row, as many of `depth` bits as there are. -/
def samples (depth : Nat) (row : Array UInt8) : List Nat :=
  if depth = 16 then
    let rec wide : List UInt8 → List Nat
      | high :: low :: rest => (high.toNat * 256 + low.toNat) :: wide rest
      | _ => []
    wide row.toList
  else
    let each := 8 / depth
    row.toList.flatMap fun b => (List.range each).map fun i => (b.toNat >>> (8 - depth * (i + 1))) % (1 <<< depth)

def level (depth sample : Nat) : UInt8 :=
  if depth = 16 then UInt8.ofNat ((sample + 128) / 257) else UInt8.ofNat (sample * 255 / ((1 <<< depth) - 1))

abbrev Pixel := UInt8 × UInt8 × UInt8

def readPalette : Bytes → List Pixel
  | r :: g :: b :: rest => (r, g, b) :: readPalette rest
  | _ => []

/-- The pixels of a row of samples. A number that no colour of the palette has is black. -/
def pixels (h : Header) (palette : Array Pixel) : List Nat → List Pixel
  | r :: rest =>
    match h.color with
    | .grey => (level h.depth r, level h.depth r, level h.depth r) :: pixels h palette rest
    | .indexed => palette.getD r (0, 0, 0) :: pixels h palette rest
    | .greyAlpha =>
      match rest with
      | _ :: rest => (level h.depth r, level h.depth r, level h.depth r) :: pixels h palette rest
      | _ => []
    | .rgb =>
      match rest with
      | g :: b :: rest => (level h.depth r, level h.depth g, level h.depth b) :: pixels h palette rest
      | _ => []
    | .rgbAlpha =>
      match rest with
      | g :: b :: _ :: rest => (level h.depth r, level h.depth g, level h.depth b) :: pixels h palette rest
      | _ => []
  | [] => []

/-- A grid of pixels: where it begins, and its steps. -/
structure Pass where
  top : Nat
  left : Nat
  down : Nat
  across : Nat

def passes (h : Header) : List Pass :=
  if h.interlaced then
    [⟨0, 0, 8, 8⟩, ⟨0, 4, 8, 8⟩, ⟨4, 0, 8, 4⟩, ⟨0, 2, 4, 4⟩, ⟨2, 0, 4, 2⟩, ⟨0, 1, 2, 2⟩, ⟨1, 0, 2, 1⟩]
  else [⟨0, 0, 1, 1⟩]

namespace Pass

/-- How many of `size` places are met from `start` on. -/
def places (size start step : Nat) : Nat := (size - start + step - 1) / step

def columns (p : Pass) (h : Header) : Nat := places h.width p.left p.across

/-- The rows of the pass. A pass without columns has none. -/
def rows (p : Pass) (h : Header) : Nat := if p.columns h = 0 then 0 else places h.height p.top p.down

def rowSize (p : Pass) (h : Header) : Nat := (p.columns h * h.bits + 7) / 8

def place (h : Header) (palette : Array Pixel) (p : Pass) (picture : Array Pixel)
    (rows : List (Array UInt8)) : Array Pixel :=
  rows.zipIdx.foldl (fun picture (row, y) =>
    ((pixels h palette (samples h.depth row)).take (p.columns h)).zipIdx.foldl (fun picture (pixel, x) =>
      picture.setIfInBounds ((p.top + y * p.down) * h.width + p.left + x * p.across) pixel) picture) picture

def read (h : Header) (palette : Array Pixel) (state : Array Pixel × List UInt8) (p : Pass) :
    Option (Array Pixel × List UInt8) := do
  let (rows, rest) ← unfilterRows (max 1 (h.bits / 8)) (p.rowSize h) #[] (p.rows h) state.2
  return (place h palette p state.1 rows, rest)

end Pass

/-- The bytes that all rows take, filters included. -/
def dataSize (h : Header) : Nat := (passes h).foldl (fun n p => n + p.rows h * (p.rowSize h + 1)) 0

end SignerBench.Image.Png
