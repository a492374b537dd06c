import SignerBench.Decimal.Shortest
import SignerBench.Json.Draft
import SignerBench.Text.Quoted

namespace SignerBench.Json

/-- How a floating-point number is written: as a plain decimal with a point while the first digit stands at
most five places behind the point and the last one at most sixteen before it, else with a signed exponent. -/
def floatText (x : Binary64) : String :=
  let s := Decimal.shortest x.pattern
  let digits := toString s.digits
  let count := digits.length
  let point : Int := count + s.exponent
  let zeros (n : Nat) : String := String.ofList (List.replicate n '0')
  let body :=
    if x.pattern = 0 then "0.0"
    else if 0 ≤ s.exponent ∧ point ≤ 16 then digits ++ zeros s.exponent.toNat ++ ".0"
    else if 0 < point ∧ point ≤ 16 then
      String.ofList (digits.toList.take point.toNat) ++ "." ++ String.ofList (digits.toList.drop point.toNat)
    else if -5 < point ∧ point ≤ 0 then "0." ++ zeros (-point).toNat ++ digits
    else
      let mantissa :=
        if count = 1 then digits
        else String.ofList (digits.toList.take 1) ++ "." ++ String.ofList (digits.toList.drop 1)
      let exponent := point - 1
      mantissa ++ "e" ++ (if exponent < 0 then "-" else "+") ++ toString exponent.natAbs
  if x.negative then "-" ++ body else body

/-- What stands where something else was wanted. -/
inductive Found where
  | null
  | bool (b : Bool)
  | number (n : Number)
  | text (s : String)
  | sequence
  | map
  deriving Repr

def Found.describe : Found → String
  | .null => "null"
  | .bool b => "boolean `" ++ toString b ++ "`"
  | .number (.integer n) => "integer `" ++ toString n ++ "`"
  | .number (.float x) => "floating point `" ++ floatText x ++ "`"
  | .text s => "string " ++ Text.quote s
  | .sequence => "sequence"
  | .map => "map"

def Found.ofScalar : Scalar → Found
  | .null => .null
  | .bool b => .bool b
  | .number n => .number n
  | .text s => .text s

inductive Mismatch where
  | missingField (name : String)
  | duplicateField (name : String)
  | wrongType (found : Found) (expected : String)
  | wrongValue (found : Found) (expected : String)
  | wrongLength (length : Nat) (expected : String)
  deriving Repr

def Mismatch.message : Mismatch → String
  | .missingField name => "missing field `" ++ name ++ "`"
  | .duplicateField name => "duplicate field `" ++ name ++ "`"
  | .wrongType found expected => "invalid type: " ++ found.describe ++ ", expected " ++ expected
  | .wrongValue found expected => "invalid value: " ++ found.describe ++ ", expected " ++ expected
  | .wrongLength length expected => "invalid length " ++ toString length ++ ", expected " ++ expected

inductive ReadError where
  | fault (fault : Fault)
  | mismatch (mismatch : Mismatch)
  deriving Repr

abbrev Read (α : Type) := Except ReadError α

def Read.fault {α : Type} (f : Fault) : Read α := .error (.fault f)

def Read.mismatch {α : Type} (m : Mismatch) : Read α := .error (.mismatch m)

/-- Most branches that may lie inside each other. -/
def maxDepth : Nat := 127

/-- The value of a branch that has been read to its end. -/
def Ending.close {α : Type} (value : α) : Ending → Read α
  | .closed => .ok value
  | .cut f => .fault f
  | .inside f => .fault f

namespace Draft

/-- Refuses a value of another kind than the wanted one, unless a fault in it comes first. -/
def refuse {α : Type} (expected : String) : Draft → Read α
  | .scalar (.ok s) => .mismatch (.wrongType (.ofScalar s) expected)
  | .scalar (.error f) => .fault f
  | .array _ _ => .mismatch (.wrongType .sequence expected)
  | .object _ _ => .mismatch (.wrongType .map expected)
  | .broken f _ => .fault f

def passOver (d : Draft) : Read Unit :=
  match d.passing with
  | some f => .fault f
  | none => .ok ()

def readText : Draft → Read String
  | .scalar (.ok (.text s)) => .ok s
  | d => d.refuse "a string"

def readWord32 : Draft → Read UInt32
  | .scalar (.ok (.number (.integer n))) =>
    if 0 ≤ n ∧ n < UInt32.size then .ok (UInt32.ofNat n.toNat)
    else .mismatch (.wrongValue (.number (.integer n)) "u32")
  | d => d.refuse "u32"

def readSize : Draft → Read Nat
  | .scalar (.ok (.number (.integer n))) =>
    if 0 ≤ n ∧ n < UInt64.size then .ok n.toNat
    else .mismatch (.wrongValue (.number (.integer n)) "usize")
  | d => d.refuse "usize"

/-- Branches may lie so deep below this one. -/
def enter {α : Type} (room : Nat) (inside : Nat → Read α) : Read α :=
  match room with
  | 0 => .fault .misplaced
  | room + 1 => inside room

def readList {α : Type} (read : Nat → Draft → Read α) (room : Nat) : Draft → Read (List α)
  | .array items ending =>
    enter room fun room => do
      let values ← items.mapM (read room)
      Ending.close values ending
  | d => d.refuse "a sequence"

mutual

/-- Reads any value. Of two entries with one key the first keeps its place and the last gives the value. -/
def readAny (room : Nat) : Draft → Read Json
  | .scalar (.ok .null) => .ok .null
  | .scalar (.ok (.bool b)) => .ok (.bool b)
  | .scalar (.ok (.number n)) => .ok (.number n)
  | .scalar (.ok (.text s)) => .ok (.text s)
  | .scalar (.error f) => .fault f
  | .array items ending =>
    match room with
    | 0 => .fault .misplaced
    | room + 1 => do
      let values ← readItems room [] items
      Ending.close (.array values) ending
  | .object entries ending =>
    match room with
    | 0 => .fault .misplaced
    | room + 1 => do
      let values ← readEntries room [] entries
      Ending.close (.object values) ending
  | .broken f _ => .fault f

def readItems (room : Nat) (done : List Json) : List Draft → Read (List Json)
  | [] => .ok done.reverse
  | d :: ds => do
    let v ← readAny room d
    readItems room (v :: done) ds

def readEntries (room : Nat) (done : Entries) : List (Except Fault String × Draft) → Read Entries
  | [] => .ok done
  | (.error f, _) :: _ => .fault f
  | (.ok key, d) :: es => do
    let v ← readAny room d
    readEntries room (Entries.put done key v) es

end

end Draft

/-- Reads a whole text, with nothing but blanks behind the value. -/
def Document.read {α : Type} (read : Nat → Draft → Read α) (document : Document) : Read α := do
  let value ← read maxDepth document.root
  match document.trailing with
  | none => return value
  | some f => .fault f

def readBytes {α : Type} (read : Nat → Draft → Read α) (text : Bytes) : Read α :=
  (Document.ofBytes text).read read

def parse (text : Bytes) : Read Json := readBytes Draft.readAny text

end SignerBench.Json
