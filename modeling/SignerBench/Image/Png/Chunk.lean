import SignerBench.Bytes.Basic

namespace SignerBench.Image

def crcBit (c : UInt32) : UInt32 := if c % 2 = 1 then (c >>> 1) ^^^ 0xedb88320 else c >>> 1

def crcByte (c : UInt32) (b : UInt8) : UInt32 := (List.range 8).foldl (fun c _ => crcBit c) (c ^^^ b.toUInt32)

def crc (b : Bytes) : UInt32 := b.foldl crcByte 0xffffffff ^^^ 0xffffffff

end SignerBench.Image

namespace SignerBench.Image.Png

def number (b : Bytes) : Nat := b.foldl (fun n d => n * 256 + d.toNat) 0

structure Chunk where
  kind : Bytes
  data : Bytes
  /-- Whether the checksum holds. -/
  sound : Bool

namespace Chunk

/-- The bytes that name a kind. -/
abbrev Kind := Bytes

namespace Kind

def header : Kind := Bytes.ofText "IHDR"
def palette : Kind := Bytes.ofText "PLTE"
def picture : Kind := Bytes.ofText "IDAT"
def ending : Kind := Bytes.ofText "IEND"
def transparency : Kind := Bytes.ofText "tRNS"
def gamma : Kind := Bytes.ofText "gAMA"
def chromaticities : Kind := Bytes.ofText "cHRM"
def scale : Kind := Bytes.ofText "pHYs"
def intent : Kind := Bytes.ofText "sRGB"
def animation : Kind := Bytes.ofText "acTL"
def frame : Kind := Bytes.ofText "fcTL"
def framePicture : Kind := Bytes.ofText "fdAT"
def text : Kind := Bytes.ofText "tEXt"
def packedText : Kind := Bytes.ofText "zTXt"
def wideText : Kind := Bytes.ofText "iTXt"

end Kind

/-- The kind of a chunk that begins here. The rest of it need not be there. -/
def kind? (b : Bytes) : Option Kind := if (b.drop 7).isEmpty then none else some ((b.drop 4).take 4)

def take? (b : Bytes) : Option (Chunk × Bytes) :=
  let size := number (b.take 4)
  let rest := b.drop 4
  if (b.drop (size + 11)).isEmpty then none
  else
    let body := rest.take (size + 4)
    let sum := (rest.drop (size + 4)).take 4
    some (⟨body.take 4, body.drop 4, (crc body).toNat = number sum⟩, rest.drop (size + 8))

/-- Whether the picture cannot do without chunks of this kind: its name begins with a capital letter. -/
def needed (c : Chunk) : Bool :=
  match c.kind with
  | b :: _ => b.toNat / 32 % 2 = 0
  | [] => true

/-- A checksum that does not hold matters to a chunk that the picture needs. -/
def usable (c : Chunk) : Bool := c.sound || !c.needed

end Chunk

end SignerBench.Image.Png
