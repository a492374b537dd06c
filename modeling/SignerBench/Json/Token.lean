import SignerBench.Bytes.Utf8
import SignerBench.Decimal.Binary64
import SignerBench.Json.Value

namespace SignerBench.Json

/-- Why reading stops: the text ends too early, or something stands where it may not. -/
inductive Fault where
  | early
  | misplaced
  deriving DecidableEq, Repr

inductive Scalar where
  | null
  | bool (b : Bool)
  | number (n : Number)
  | text (s : String)
  deriving Repr

/-- A scalar may be well delimited and still have no value, as a text with half of a surrogate pair or a number that is
too large. It can then be passed over, but not read. -/
inductive Token where
  | openArray
  | closeArray
  | openObject
  | closeObject
  | comma
  | colon
  /-- A scalar, with its value or the fault that reading its value meets. -/
  | scalar (value : Except Fault Scalar)
  /-- A text in quotes. -/
  | quoted (value : Except Fault String)
  /-- A text in quotes that breaks off: the fault for a reader of its value, and for one who passes over it. -/
  | brokenText (reading passing : Fault)
  /-- Any other word that breaks off. -/
  | broken (reading passing : Fault)
  deriving Repr

structure Scan where
  token : Token
  rest : Bytes

def byte (c : Char) : UInt8 := c.toUInt8

def hexValue (b : UInt8) : Option Nat :=
  if 48 ≤ b ∧ b ≤ 57 then some (b.toNat - 48)
  else if 97 ≤ b ∧ b ≤ 102 then some (b.toNat - 87)
  else if 65 ≤ b ∧ b ≤ 70 then some (b.toNat - 55)
  else none

def hexUnit (a b c d : UInt8) : Option Nat := do
  let w ← hexValue a
  let x ← hexValue b
  let y ← hexValue c
  let z ← hexValue d
  return ((w * 16 + x) * 16 + y) * 16 + z

def isLeading (unit : Nat) : Bool := 0xd800 ≤ unit && unit ≤ 0xdbff

def isTrailing (unit : Nat) : Bool := 0xdc00 ≤ unit && unit ≤ 0xdfff

/-- What has been read of a text: its bytes in reverse, a leading surrogate that waits for its partner, and
whether the text has lost its value. -/
structure Draught where
  done : Bytes
  lead : Option Nat
  lost : Bool

def Draught.empty : Draught := ⟨[], none, false⟩

/-- Adds bytes that are no surrogate. A surrogate before them has no partner. -/
def Draught.add (d : Draught) (bytes : Bytes) : Draught :=
  ⟨bytes.reverse ++ d.done, none, d.lost || d.lead.isSome⟩

def Draught.addUnit (d : Draught) (unit : Nat) : Draught :=
  match d.lead with
  | none =>
    if isLeading unit then { d with lead := some unit }
    else if isTrailing unit then { d with lost := true }
    else d.add (Utf8.encodeChar (Char.ofNat unit))
  | some lead =>
    if isTrailing unit then
      let c := Char.ofNat ((lead - 0xd800) * 0x400 + (unit - 0xdc00) + 0x10000)
      ⟨(Utf8.encodeChar c).reverse ++ d.done, none, d.lost⟩
    else { d with lead := none, lost := true }

def Draught.finish (d : Draught) : Except Fault String :=
  if d.lost ∨ d.lead.isSome then .error .misplaced
  else match Bytes.toText? d.done.reverse with
    | some s => .ok s
    | none => .error .misplaced

/-- A fault met inside a text. A text that has lost its value was at fault before. -/
def Draught.stop (d : Draught) (fault : Fault) : Scan :=
  ⟨.brokenText (if d.lost then .misplaced else fault) fault, []⟩

/-- The character that a backslash and a letter stand for. -/
def shortEscape (b : UInt8) : Option UInt8 :=
  if b = byte '"' ∨ b = byte '\\' ∨ b = byte '/' then some b
  else if b = byte 'b' then some 8
  else if b = byte 'f' then some 12
  else if b = byte 'n' then some 10
  else if b = byte 'r' then some 13
  else if b = byte 't' then some 9
  else none

def scanText (d : Draught) : Bytes → Scan
  | [] => d.stop .early
  | b :: rest =>
    if b = byte '"' then ⟨.quoted d.finish, rest⟩
    else if b = byte '\\' then
      match rest with
      | [] => d.stop .early
      | e :: rest =>
        if e = byte 'u' then
          match rest with
          | h₁ :: h₂ :: h₃ :: h₄ :: rest =>
            match hexUnit h₁ h₂ h₃ h₄ with
            | some unit => scanText (d.addUnit unit) rest
            | none => d.stop .misplaced
          | _ => d.stop .early
        else match shortEscape e with
          | some c => scanText (d.add [c]) rest
          | none => d.stop .misplaced
    else if b < 0x20 then d.stop .misplaced
    else scanText (d.add [b]) rest

def isDigit (b : UInt8) : Bool := 48 ≤ b && b ≤ 57

def digitValue (b : UInt8) : Nat := b.toNat - 48

def wordLimit : Nat := UInt64.size

/-- A whole number below `2 ^ 64` that takes digits while they fit, and a power of ten beside it. -/
structure Mantissa where
  value : Nat
  exponent : Int
  full : Bool

/-- A digit before the point. Those after the first that does not fit only raise the exponent. -/
def Mantissa.whole (m : Mantissa) (digit : Nat) : Mantissa :=
  if m.full ∨ wordLimit ≤ m.value * 10 + digit then { m with exponent := m.exponent + 1, full := true }
  else { m with value := m.value * 10 + digit }

/-- A digit behind the point. Those from the first that does not fit on are dropped. -/
def Mantissa.fraction (m : Mantissa) (digit : Nat) : Mantissa :=
  if m.full ∨ wordLimit ≤ m.value * 10 + digit then { m with full := true }
  else ⟨m.value * 10 + digit, m.exponent - 1, false⟩

/-- A floating-point number times a power of ten, reached by one multiplication or by divisions, each of them
rounded. There is none when the product is too large. -/
def timesTen (pattern : Nat) (exponent : Int) : Option Nat :=
  if 0 ≤ exponent then
    if 308 < exponent then if pattern = 0 then some 0 else none
    else
      let product := Binary64.mul pattern (Binary64.ofNat (Nat.pow 10 exponent.toNat))
      if product < Binary64.infinite then some product else none
  else if exponent < -308 then
    if pattern = 0 then some 0
    else timesTen (Binary64.div pattern (Binary64.ofNat (Nat.pow 10 308))) (exponent + 308)
  else some (Binary64.div pattern (Binary64.ofNat (Nat.pow 10 (-exponent).toNat)))
termination_by exponent.natAbs
decreasing_by omega

def Mantissa.float (negative : Bool) (m : Mantissa) : Except Fault Scalar :=
  match timesTen (Binary64.ofNat m.value) m.exponent with
  | some pattern => .ok (.number (.float ⟨negative, pattern⟩))
  | none => .error .misplaced

/-- A number without point and exponent. Minus zero and what lies outside the words of 64 bits is a
floating-point number. -/
def Mantissa.plain (negative : Bool) (m : Mantissa) : Except Fault Scalar :=
  if m.full then m.float negative
  else if negative then
    if m.value = 0 ∨ 0x8000000000000000 < m.value then m.float true else .ok (.number (.integer (-m.value)))
  else .ok (.number (.integer m.value))

def exponentLimit : Nat := 0x7fffffff

def clampExponent (e : Int) : Int := max (-0x80000000) (min 0x7fffffff e)

/-- The value of a number with an exponent, written in these digits. -/
def Mantissa.withExponent (negative : Bool) (m : Mantissa) (down : Bool) (digits : Bytes) :
    Except Fault Scalar :=
  let size := digits.foldl (fun n b => if exponentLimit < n then n else n * 10 + digitValue b) 0
  if exponentLimit < size then
    if m.value ≠ 0 ∧ !down then .error .misplaced else .ok (.number (.float ⟨negative, 0⟩))
  else
    let e : Int := if down then m.exponent - size else m.exponent + size
    { m with exponent := clampExponent e }.float negative

def scanExponent (negative : Bool) (m : Mantissa) (text : Bytes) : Scan :=
  let (down, text) := match text with
    | b :: rest => if b = byte '-' then (true, rest) else if b = byte '+' then (false, rest) else (false, text)
    | [] => (false, text)
  match text with
  | [] => ⟨.broken .early .misplaced, []⟩
  | b :: rest =>
    if isDigit b then
      ⟨.scalar (m.withExponent negative down (b :: rest.takeWhile isDigit)), rest.dropWhile isDigit⟩
    else ⟨.broken .misplaced .misplaced, []⟩

def isExponentMark (b : UInt8) : Bool := b = byte 'e' || b = byte 'E'

def scanFraction (negative : Bool) (m : Mantissa) (text : Bytes) : Scan :=
  match text with
  | [] => ⟨.broken .early .misplaced, []⟩
  | b :: _ =>
    if isDigit b then
      let m := (text.takeWhile isDigit).foldl (fun m b => m.fraction (digitValue b)) { m with full := false }
      match text.dropWhile isDigit with
      | c :: rest =>
        if isExponentMark c then scanExponent negative m rest else ⟨.scalar (m.float negative), c :: rest⟩
      | [] => ⟨.scalar (m.float negative), []⟩
    else ⟨.broken .misplaced .misplaced, []⟩

def scanTail (negative : Bool) (m : Mantissa) (text : Bytes) : Scan :=
  match text with
  | b :: rest =>
    if b = byte '.' then scanFraction negative m rest
    else if isExponentMark b then scanExponent negative m rest
    else ⟨.scalar (m.plain negative), text⟩
  | [] => ⟨.scalar (m.plain negative), []⟩

/-- Reads a number from behind its sign. A zero in front stands alone. -/
def scanNumber (negative : Bool) (text : Bytes) : Scan :=
  match text with
  | [] => ⟨.broken .early .misplaced, []⟩
  | b :: rest =>
    if b = byte '0' then
      match rest with
      | c :: _ =>
        if isDigit c then ⟨.broken .misplaced .misplaced, []⟩ else scanTail negative ⟨0, 0, false⟩ rest
      | [] => scanTail negative ⟨0, 0, false⟩ []
    else if isDigit b then
      let m := (text.takeWhile isDigit).foldl (fun m b => m.whole (digitValue b)) ⟨0, 0, false⟩
      scanTail negative m (text.dropWhile isDigit)
    else ⟨.broken .misplaced .misplaced, []⟩

def scanWord (word : Bytes) (value : Scalar) (text : Bytes) : Scan :=
  match word, text with
  | [], text => ⟨.scalar (.ok value), text⟩
  | _ :: _, [] => ⟨.broken .early .early, []⟩
  | w :: word, b :: text => if w = b then scanWord word value text else ⟨.broken .misplaced .misplaced, []⟩

def isSpace (b : UInt8) : Bool := b = 32 || b = 10 || b = 9 || b = 13

/-- Reads the token that begins with this byte. -/
def scan (b : UInt8) (rest : Bytes) : Scan :=
  if b = byte '[' then ⟨.openArray, rest⟩
  else if b = byte ']' then ⟨.closeArray, rest⟩
  else if b = byte '\x7b' then ⟨.openObject, rest⟩
  else if b = byte '\x7d' then ⟨.closeObject, rest⟩
  else if b = byte ',' then ⟨.comma, rest⟩
  else if b = byte ':' then ⟨.colon, rest⟩
  else if b = byte '"' then scanText .empty rest
  else if b = byte 'n' then scanWord (Bytes.ofText "ull") .null rest
  else if b = byte 't' then scanWord (Bytes.ofText "rue") (.bool true) rest
  else if b = byte 'f' then scanWord (Bytes.ofText "alse") (.bool false) rest
  else if b = byte '-' then scanNumber true rest
  else if isDigit b then scanNumber false (b :: rest)
  else ⟨.broken .misplaced .misplaced, []⟩

/-- The tokens of a text behind those read so far in reverse. A token is never longer than the text it was
read from, so `room` bytes are room enough for a text of that length. -/
def scanAll (room : Nat) (done : List Token) (text : Bytes) : List Token :=
  match room, text with
  | _, [] => done.reverse
  | 0, _ => done.reverse
  | room + 1, b :: rest =>
    if isSpace b then scanAll room done rest
    else
      let s := scan b rest
      scanAll room (s.token :: done) s.rest

def tokens (text : Bytes) : List Token := scanAll text.length [] text

end SignerBench.Json
