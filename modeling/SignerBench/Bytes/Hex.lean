import SignerBench.Bytes.Basic
import SignerBench.Text.Quoted

namespace SignerBench

inductive HexError where
  | oddLength
  /-- The byte of the text that is no digit, and where it stands. -/
  | badDigit (byte : UInt8) (position : Nat)
  deriving DecidableEq, Repr

def HexError.message : HexError → String
  | .oddLength => "Odd number of digits"
  | .badDigit byte position =>
    "Invalid character " ++ Text.quoteChar (Char.ofNat byte.toNat) ++ " at position " ++ toString position

namespace Hex

def digit (n : UInt8) : Char :=
  if n < 10 then Char.ofNat (48 + n.toNat) else Char.ofNat (87 + n.toNat)

def value (c : UInt8) : Option UInt8 :=
  if 48 ≤ c ∧ c ≤ 57 then some (c - 48)
  else if 97 ≤ c ∧ c ≤ 102 then some (c - 87)
  else if 65 ≤ c ∧ c ≤ 70 then some (c - 55)
  else none

def digits (b : UInt8) : List Char := [digit (b / 16), digit (b % 16)]

def encode (b : Bytes) : String := String.ofList (b.flatMap digits)

/-- Reads digit pairs from `position` on, in front of the bytes read so far in reverse. -/
def readPairs (position : Nat) (done : Bytes) : Bytes → Except HexError Bytes
  | [] => .ok done.reverse
  | [_] => .error .oddLength
  | high :: low :: rest =>
    match value high, value low with
    | some h, some l => readPairs (position + 2) ((16 * h + l) :: done) rest
    | none, _ => .error (.badDigit high position)
    | some _, none => .error (.badDigit low (position + 1))

def decode (s : String) : Except HexError Bytes :=
  let text := Bytes.ofText s
  if text.length % 2 = 1 then .error .oddLength else readPairs 0 [] text

end Hex

end SignerBench

namespace SignerBench.Base64

def sign (n : Nat) : Char :=
  if n < 26 then Char.ofNat (65 + n)
  else if n < 52 then Char.ofNat (71 + n)
  else if n < 62 then Char.ofNat (n - 4)
  else if n = 62 then '+' else '/'

def group (a b c : UInt8) : List Char :=
  let n := a.toNat * 65536 + b.toNat * 256 + c.toNat
  [sign (n / 262144), sign (n / 4096 % 64), sign (n / 64 % 64), sign (n % 64)]

/-- Writes groups behind the signs written so far in reverse. -/
def writeGroups (done : List Char) : Bytes → List Char
  | a :: b :: c :: rest => writeGroups ((group a b c).reverse ++ done) rest
  | [a, b] => (done.reverse ++ (group a b 0).take 3) ++ ['=']
  | [a] => (done.reverse ++ (group a 0 0).take 2) ++ ['=', '=']
  | [] => done.reverse

def encode (b : Bytes) : String := String.ofList (writeGroups [] b)

end SignerBench.Base64
