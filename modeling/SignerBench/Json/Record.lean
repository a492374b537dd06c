import SignerBench.Json.Decode

namespace SignerBench.Json

structure Field (α : Type) where
  name : String
  read : Nat → Draft → Read α
  write : α → Json
  /-- The value of the field where it is missing. -/
  fallback : Option α

namespace Field

def word32 (name : String) : Field UInt32 := ⟨name, fun _ => Draft.readWord32, fun w => .ofNat w.toNat, none⟩

def size (name : String) : Field Nat := ⟨name, fun _ => Draft.readSize, .ofNat, none⟩

def any (name : String) : Field Json := ⟨name, Draft.readAny, id, none⟩

def text (name : String) : Field String := ⟨name, fun _ => Draft.readText, .text, none⟩

def texts (name : String) : Field (List String) :=
  ⟨name, Draft.readList fun _ => Draft.readText, Json.texts, some []⟩

end Field

inductive Fields : List Type → Type 1 where
  | nil : Fields []
  | cons {α : Type} {αs : List Type} (f : Field α) (fs : Fields αs) : Fields (α :: αs)

def Row : List Type → Type
  | [] => Unit
  | α :: αs => α × Row αs

/-- The values met so far. -/
def Slots : List Type → Type
  | [] => Unit
  | α :: αs => Option α × Slots αs

namespace Fields

def count {αs : List Type} : Fields αs → Nat
  | nil => 0
  | cons _ fs => fs.count + 1

def empty {αs : List Type} : Fields αs → Slots αs
  | nil => ()
  | cons _ fs => (none, fs.empty)

def put {αs : List Type} (room : Nat) (key : String) (d : Draft) :
    Fields αs → Slots αs → Option (Read (Slots αs))
  | nil, _ => none
  | cons f fs, (slot, rest) =>
    if key = f.name then
      match slot with
      | some _ => some (.mismatch (.duplicateField f.name))
      | none => some ((f.read room d).map fun v => (some v, rest))
    else (put room key d fs rest).map fun r => r.map fun rest => (slot, rest)

def finish {αs : List Type} : Fields αs → Slots αs → Read (Row αs)
  | nil, _ => .ok ()
  | cons f fs, (slot, rest) => do
    let v ← match slot.or f.fallback with
      | some v => .ok v
      | none => .mismatch (.missingField f.name)
    let vs ← finish fs rest
    return (v, vs)

/-- Reads the entries of an object. A key of no field is passed over with its value. -/
def readEntries {αs : List Type} (room : Nat) (fs : Fields αs) (slots : Slots αs) :
    List (Except Fault String × Draft) → Read (Slots αs)
  | [] => .ok slots
  | (.error f, _) :: _ => .fault f
  | (.ok key, d) :: es =>
    match fs.put room key d slots with
    | some (.ok slots) => readEntries room fs slots es
    | some (.error e) => .error e
    | none => do
      d.passOver
      readEntries room fs slots es

/-- Reads the elements of an array from the one at `position` on, and gives back those left over. -/
def readItems {αs : List Type} (room : Nat) (wanted : String) (ending : Ending) (position : Nat) :
    Fields αs → List Draft → Read (Row αs × List Draft)
  | nil, items => .ok ((), items)
  | cons f fs, d :: items => do
    let v ← f.read room d
    let (vs, left) ← readItems room wanted ending (position + 1) fs items
    return ((v, vs), left)
  | cons f fs, [] => do
    Ending.close () ending
    let v ← match f.fallback with
      | some v => .ok v
      | none => .mismatch (.wrongLength position wanted)
    let (vs, left) ← readItems room wanted ending (position + 1) fs []
    return ((v, vs), left)

def entries {αs : List Type} : Fields αs → Row αs → Entries
  | nil, _ => []
  | cons f fs, (v, vs) => (f.name, f.write v) :: entries fs vs

end Fields

structure Record (αs : List Type) where
  name : String
  fields : Fields αs

namespace Record

def wanted {αs : List Type} (r : Record αs) : String :=
  let count := r.fields.count
  "struct " ++ r.name ++ " with " ++ toString count ++ (if count = 1 then " element" else " elements")

def read {αs : List Type} (r : Record αs) (room : Nat) : Draft → Read (Row αs)
  | .object entries ending =>
    Draft.enter room fun room => do
      let slots ← r.fields.readEntries room r.fields.empty entries
      Ending.close () ending
      r.fields.finish slots
  | .array items ending =>
    Draft.enter room fun room => do
      let (row, left) ← r.fields.readItems room r.wanted ending 0 items
      if left.isEmpty then Ending.close row ending else .fault .misplaced
  | d => d.refuse ("struct " ++ r.name)

def write {αs : List Type} (r : Record αs) (row : Row αs) : Json := .object (r.fields.entries row)

end Record

end SignerBench.Json
