import SignerBench.Bytes.Hex
import SignerBench.Image.Png
import SignerBench.Text.Basic

namespace SignerBench

structure Snapshot where
  /-- The encoded image. -/
  png : Bytes
  deriving DecidableEq, Repr

namespace Snapshot

/-- Images that cannot be decoded are the same as themselves only. -/
def sameBy (decode : Bytes → Option Image.Raster) (a b : Snapshot) : Bool :=
  if a.png = b.png then true
  else match decode a.png, decode b.png with
    | some p, some q => p = q
    | _, _ => false

def samePixels (a b : Snapshot) : Bool := sameBy Image.Png.decode a b

def base64 (s : Snapshot) : String := Base64.encode s.png

def toLog (s : Snapshot) : String := "Snapshot \x7b png: " ++ toString s.png.length ++ " bytes \x7d"

/-- The file of the snapshot at this place of a set. -/
def fileName (index : Nat) : String := Text.padded 5 index ++ ".png"

end Snapshot

end SignerBench
