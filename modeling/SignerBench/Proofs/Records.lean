import SignerBench.Json.Record
import SignerBench.Proofs.JsonText

namespace SignerBench.Json

namespace Field

/-- A field whose values are written without faults and read back, where branches may lie so deep. -/
structure Faithful {α : Type} (f : Field α) (room : Nat) : Prop where
  whole : ∀ v, Whole (f.write v)
  read : ∀ v, f.read room (draft (f.write v)) = .ok v

theorem readWord32_toNat (w : UInt32) : Draft.readWord32 (.scalar (.ok (.number (.integer w.toNat)))) = .ok w := by
  have hlt := w.toNat_lt
  have hfits : 0 ≤ (w.toNat : Int) ∧ (w.toNat : Int) < UInt32.size := ⟨by omega, by exact_mod_cast hlt⟩
  rw [Draft.readWord32, if_pos hfits, Int.toNat_natCast, UInt32.ofNat_toNat]

theorem faithful_word32 (name : String) (room : Nat) : (word32 name).Faithful room := by
  refine ⟨fun w => ?_, fun w => ?_⟩
  · have hlt := w.toNat_lt
    have hwhole : (Number.integer w.toNat).Whole := by
      unfold Number.Whole
      omega
    exact hwhole
  · have hdraft : draft ((word32 name).write w) = .scalar (.ok (.number (.integer w.toNat))) := rfl
    have hread : (word32 name).read room = Draft.readWord32 := rfl
    rw [hdraft, hread, readWord32_toNat]

/-- Sizes are naturals here, and 64 bits in a file. -/
theorem read_size (name : String) (room : Nat) {n : Nat} (fits : n < UInt64.size) :
    (size name).read room (draft ((size name).write n)) = .ok n := by
  have hfits : 0 ≤ (n : Int) ∧ (n : Int) < UInt64.size := ⟨Int.natCast_nonneg n, by exact_mod_cast fits⟩
  have hdraft : draft ((size name).write n) = .scalar (.ok (.number (.integer n))) := rfl
  have hread : (size name).read room = Draft.readSize := rfl
  rw [hdraft, hread, Draft.readSize, if_pos hfits, Int.toNat_natCast]

theorem faithful_text (name : String) (room : Nat) : (text name).Faithful room := ⟨fun _ => trivial, fun _ => rfl⟩

/-- A list of texts is a branch, so it takes one level of the room. -/
theorem faithful_texts (name : String) (room : Nat) : (texts name).Faithful (room + 1) := by
  refine ⟨fun ss => wholeItems_of_forall fun v hv => ?_, fun ss => ?_⟩
  · obtain ⟨s, _, rfl⟩ := List.mem_map.mp hv
    trivial
  · have hlist : Draft.readList (fun _ => Draft.readText) (room + 1) (draft (.array (ss.map Json.text))) = .ok ss :=
      readList_draft fun _ _ => rfl
    exact hlist

end Field

namespace Fields

variable {α : Type} {αs : List Type} {room : Nat}

def names {αs : List Type} : Fields αs → List String
  | nil => []
  | cons f fs => f.name :: fs.names

def Faithful {αs : List Type} (room : Nat) : Fields αs → Prop
  | nil => True
  | cons f fs => f.Faithful room ∧ fs.Faithful room

def behind (slot : Option α) (slots : Slots αs) : Slots (α :: αs) := (slot, slots)

def full {αs : List Type} : Fields αs → Row αs → Slots αs
  | nil, _ => ()
  | cons _ fs, (v, vs) => behind (some v) (fs.full vs)

theorem finish_cons (f : Field α) (fs : Fields αs) (slot : Option α) (slots : Slots αs) :
    (cons f fs).finish (behind slot slots) =
      match slot.or f.fallback with
      | some v => (fs.finish slots).map fun vs => ((v, vs) : Row (α :: αs))
      | none => .mismatch (.missingField f.name) := by
  have hsome (v : α) : (fs.finish slots >>= fun vs => .ok ((v, vs) : Row (α :: αs))) =
      (fs.finish slots).map fun vs => ((v, vs) : Row (α :: αs)) := by
    cases fs.finish slots <;> rfl
  obtain ⟨name, read, write, fallback⟩ := f
  cases slot with
  | some v => exact hsome v
  | none =>
    cases fallback with
    | some v => exact hsome v
    | none => rfl

theorem finish_full (fs : Fields αs) (row : Row αs) : fs.finish (fs.full row) = .ok row := by
  induction fs with
  | nil => rfl
  | cons f fs ih =>
    obtain ⟨v, vs⟩ := row
    rw [full, finish_cons, Option.some_or, ih]
    rfl

theorem keys_entries (fs : Fields αs) (row : Row αs) : (fs.entries row).map Prod.fst = fs.names := by
  induction fs with
  | nil => rfl
  | cons f fs ih =>
    obtain ⟨v, vs⟩ := row
    rw [entries, names, List.map_cons, ih]

theorem whole_entries {fs : Fields αs} (faithful : fs.Faithful room) (row : Row αs) :
    WholeEntries (fs.entries row) := by
  induction fs with
  | nil => trivial
  | cons f fs ih =>
    obtain ⟨v, vs⟩ := row
    obtain ⟨hf, hfs⟩ := faithful
    exact ⟨hf.whole v, ih hfs vs⟩

theorem readEntries_ok (fs : Fields αs) (slots : Slots αs) (key : String) (d : Draft)
    (es : List (Except Fault String × Draft)) : fs.readEntries room slots ((.ok key, d) :: es) =
      match fs.put room key d slots with
      | some (.ok slots) => fs.readEntries room slots es
      | some (.error e) => .error e
      | none => d.passOver >>= fun _ => fs.readEntries room slots es :=
  rfl

theorem put_first (f : Field α) (fs : Fields αs) (slots : Slots αs) (d : Draft) :
    (cons f fs).put room f.name d (behind none slots) = some ((f.read room d).map fun v => behind (some v) slots) :=
  if_pos rfl

theorem put_behind {f : Field α} {key : String} (other : key ≠ f.name) (fs : Fields αs) (slot : Option α)
    (slots : Slots αs) (d : Draft) : (cons f fs).put room key d (behind slot slots) =
      (fs.put room key d slots).map fun r => r.map (behind slot) :=
  if_neg other

theorem put_other {fs : Fields αs} {key : String} (other : key ∉ fs.names) (slots : Slots αs) (d : Draft) :
    fs.put room key d slots = none := by
  induction fs with
  | nil => rfl
  | cons f fs ih =>
    obtain ⟨slot, slots⟩ := slots
    obtain ⟨hkey, hother⟩ := not_or.mp (fun h => other (List.mem_cons.mpr h))
    refine (put_behind hkey fs slot slots d).trans ?_
    rw [ih hother slots]
    rfl

/-- Entries of no field are passed over. -/
theorem readEntries_other {fs : Fields αs} {es : Entries} (other : ∀ e ∈ es, e.1 ∉ fs.names) (slots : Slots αs) :
    fs.readEntries room slots (draftEntries es) = .ok slots := by
  induction es with
  | nil => rfl
  | cons e es ih =>
    obtain ⟨key, v⟩ := e
    obtain ⟨hkey, hother⟩ := List.forall_mem_cons.mp other
    have hpass : (draft v).passOver = .ok () := by cases v <;> rfl
    rw [draftEntries, readEntries_ok, put_other hkey]
    dsimp only
    rw [hpass]
    exact ih hother

/-- Entries of other names leave the first field as it is. -/
theorem readEntries_cons {f : Field α} {fs : Fields αs} {es : Entries} (other : ∀ e ∈ es, e.1 ≠ f.name)
    (slot : Option α) (slots : Slots αs) :
    (cons f fs).readEntries room (behind slot slots) (draftEntries es) =
      (fs.readEntries room slots (draftEntries es)).map (behind slot) := by
  induction es generalizing slots with
  | nil => rfl
  | cons e es ih =>
    obtain ⟨key, v⟩ := e
    obtain ⟨hkey, hother⟩ := List.forall_mem_cons.mp other
    rw [draftEntries, readEntries_ok, readEntries_ok, put_behind hkey]
    -- Whether the fields behind pass an entry over or take it, they do so behind the first one as well.
    cases fs.put room key (draft v) slots with
    | none =>
      change ((draft v).passOver >>= fun _ => (cons f fs).readEntries room (behind slot slots) (draftEntries es)) =
        ((draft v).passOver >>= fun _ => fs.readEntries room slots (draftEntries es)).map (behind slot)
      rw [ih hother slots]
      cases (draft v).passOver <;> rfl
    | some r =>
      cases r with
      | error e => rfl
      | ok slots' => exact ih hother slots'

/-- What is read of the values that are written of a row. -/
def reread (room : Nat) {αs : List Type} : Fields αs → Row αs → Read (Row αs)
  | nil, _ => .ok ()
  | cons f fs, (v, vs) => f.read room (draft (f.write v)) >>= fun v => (reread room fs vs).map fun vs => (v, vs)

/-- If each field is read back, so is the row. The induction is on the fields. -/
theorem reread_of_faithful {fs : Fields αs} (faithful : fs.Faithful room) (row : Row αs) :
    fs.reread room row = .ok row := by
  induction fs with
  | nil => rfl
  | cons f fs ih =>
    obtain ⟨v, vs⟩ := row
    obtain ⟨hf, hfs⟩ := faithful
    rw [reread, hf.read, ih hfs vs]
    rfl

/-- The entries that are written of a row are read one after the other. -/
theorem readEntries_entries {fs : Fields αs} (distinct : fs.names.Nodup) (row : Row αs) :
    fs.readEntries room fs.empty (draftEntries (fs.entries row)) = (fs.reread room row).map fs.full := by
  induction fs with
  | nil => rfl
  | cons f fs ih =>
    obtain ⟨v, vs⟩ := row
    obtain ⟨hname, hnames⟩ := List.nodup_cons.mp distinct
    have hother : ∀ e ∈ fs.entries vs, e.1 ≠ f.name := by
      intro e he heq
      have hkey := List.mem_map_of_mem (f := Prod.fst) he
      rw [keys_entries, heq] at hkey
      exact hname hkey
    change (cons f fs).readEntries room (behind none fs.empty)
      ((.ok f.name, draft (f.write v)) :: draftEntries (fs.entries vs)) = _
    rw [readEntries_ok, put_first, reread]
    cases f.read room (draft (f.write v)) with
    | error e => rfl
    | ok v =>
      change (cons f fs).readEntries room (behind (some v) fs.empty) (draftEntries (fs.entries vs)) = _
      rw [readEntries_cons hother, ih hnames vs]
      cases fs.reread room vs <;> rfl

end Fields

namespace Record

variable {αs : List Type} {r : Record αs} {room : Nat}

theorem whole_write (faithful : r.fields.Faithful room) (row : Row αs) : Whole (r.write row) :=
  Fields.whole_entries faithful row

/-- What is read of a written record is what its fields give, one by one, errors included. -/
theorem read_write_eq (distinct : r.fields.names.Nodup) (row : Row αs) :
    r.read (room + 1) (draft (r.write row)) = r.fields.reread room row := by
  change (r.fields.readEntries room r.fields.empty (draftEntries (r.fields.entries row)) >>= fun slots =>
    Ending.close () .closed >>= fun _ => r.fields.finish slots) = _
  rw [Fields.readEntries_entries distinct]
  cases r.fields.reread room row with
  | error e => rfl
  | ok row => exact Fields.finish_full _ _

/-- A record is read back from the value that is written of it. -/
theorem read_write (faithful : r.fields.Faithful room) (distinct : r.fields.names.Nodup) (row : Row αs) :
    r.read (room + 1) (draft (r.write row)) = .ok row :=
  (read_write_eq distinct row).trans (Fields.reread_of_faithful faithful row)

end Record

end SignerBench.Json
