import SignerBench.Proofs.Records

namespace SignerBench.Json

def valuesOf (key : String) : List (Except Fault String × Draft) → List Draft
  | [] => []
  | (.error _, _) :: es => valuesOf key es
  | (.ok k, d) :: es => if k = key then d :: valuesOf key es else valuesOf key es

variable {α : Type} {f : Field α} {room : Nat} {key : String} {d : Draft} {es : List (Except Fault String × Draft)}
  {slot slot' : Option α}

theorem valuesOf_same (key : String) (d : Draft) (es : List (Except Fault String × Draft)) :
    valuesOf key ((.ok key, d) :: es) = d :: valuesOf key es :=
  if_pos rfl

theorem valuesOf_other {k : String} (other : k ≠ key) : valuesOf key ((.ok k, d) :: es) = valuesOf key es :=
  if_neg other

/-- A value is read from a text that holds one value and nothing behind it. -/
theorem readBytes_ok_iff {read : Nat → Draft → Read α} {text : Bytes} {v : α} : readBytes read text = .ok v ↔
    ∃ root, Document.ofBytes text = ⟨root, none⟩ ∧ read maxDepth root = .ok v := by
  unfold readBytes Document.read
  generalize Document.ofBytes text = document
  obtain ⟨root, trailing⟩ := document
  rw [bind_ok_iff]
  constructor
  · rintro ⟨w, hread, h⟩
    cases trailing with
    | some => cases h
    | none =>
      cases h
      exact ⟨root, rfl, hread⟩
  · rintro ⟨_, ⟨⟩, hread⟩
    exact ⟨v, hread, rfl⟩

/-- A value that is passed over may have faults, as long as they are none that the reader meets. -/
theorem passOver_ok_iff : d.passOver = .ok () ↔ d.passing = none := by
  unfold Draft.passOver
  cases d.passing with
  | none => exact ⟨fun _ => rfl, fun _ => rfl⟩
  | some f => exact ⟨(nomatch ·), (nomatch ·)⟩

/-- A bracket that is missing is an error even when all fields have been read. -/
theorem close_ok_iff {v w : α} {ending : Ending} : Ending.close v ending = .ok w ↔ ending = .closed ∧ v = w := by
  cases ending with
  | closed => exact ⟨fun h => ⟨rfl, Except.ok.inj h⟩, fun h => congrArg Except.ok h.2⟩
  | cut | inside => exact ⟨(nomatch ·), fun ⟨h, _⟩ => nomatch h⟩

/-- Only a text is taken for a text, and never one with a fault in it. -/
theorem readText_ok_iff {s : String} : Draft.readText d = .ok s ↔ d = draft (.text s) := by
  constructor
  · intro h
    cases d with
    | scalar value =>
      rcases value with fault | _ | _ | _ | t
      case ok.text =>
        cases h
        rfl
      all_goals cases h
    | array | object | broken => cases h
  · rintro rfl
    rfl

namespace Field

theorem read_text_ok_iff {name s : String} : (text name).read room d = .ok s ↔ d = draft (.text s) := readText_ok_iff

theorem read_texts_ok_iff {name : String} {ss : List String} :
    (texts name).read (room + 1) d = .ok ss ↔ d = draft (Json.texts ss) := by
  refine ⟨fun h => ?_, fun h => h ▸ (faithful_texts name room).read ss⟩
  cases d with
  | array items ending =>
    change (items.mapM Draft.readText >>= fun values => Ending.close values ending) = _ at h
    obtain ⟨values, hvalues, hclose⟩ := ok_of_bind h
    obtain ⟨rfl, rfl⟩ := close_ok_iff.mp hclose
    have hitems : items = values.map (draft ∘ Json.text) := by
      rw [← List.forall₂_eq_eq_eq, List.forall₂_map_right_iff]
      exact (mapM_ok_iff.mp hvalues).imp fun _ _ => readText_ok_iff.mp
    rw [hitems, Json.texts, draft, draftItems_eq_map, List.map_map]
  | scalar value => rcases value with _ | _ | _ | _ | _ <;> cases h
  | object | broken => cases h

/-- What the slot of a field comes to behind these entries. -/
inductive Gains (f : Field α) (room : Nat) (es : List (Except Fault String × Draft)) : Option α → Option α → Prop where
  | kept {slot : Option α} (absent : valuesOf f.name es = []) : Gains f room es slot slot
  | filled {d : Draft} {v : α} (once : valuesOf f.name es = [d]) (reads : f.read room d = .ok v) :
      Gains f room es none (some v)

/-- The value of a field in an object with these entries. -/
inductive Given (f : Field α) (room : Nat) (es : List (Except Fault String × Draft)) (v : α) : Prop where
  | once {d : Draft} (once : valuesOf f.name es = [d]) (reads : f.read room d = .ok v)
  | absent (absent : valuesOf f.name es = []) (fallback : f.fallback = some v)

theorem gains_nil_iff : f.Gains room [] slot slot' ↔ slot' = slot := by
  constructor
  · rintro (_ | ⟨once, _⟩)
    · rfl
    · cases once
  · rintro rfl
    exact .kept rfl

theorem gains_other_iff (other : key ≠ f.name) :
    f.Gains room ((.ok key, d) :: es) slot slot' ↔ f.Gains room es slot slot' := by
  constructor
  · rintro (absent | ⟨once, reads⟩)
    · exact .kept (valuesOf_other other ▸ absent)
    · exact .filled (valuesOf_other other ▸ once) reads
  · rintro (absent | ⟨once, reads⟩)
    · exact .kept ((valuesOf_other other).trans absent)
    · exact .filled ((valuesOf_other other).trans once) reads

/-- An entry fills an empty slot, and no other entry of its key may follow. -/
theorem gains_same_iff : f.Gains room ((.ok f.name, d) :: es) slot slot' ↔
    slot = none ∧ ∃ v, f.read room d = .ok v ∧ f.Gains room es (some v) slot' := by
  constructor
  · rintro (absent | ⟨once, reads⟩)
    · rw [valuesOf_same] at absent
      cases absent
    · rw [valuesOf_same] at once
      obtain ⟨rfl, absent⟩ := List.cons.inj once
      exact ⟨rfl, _, reads, .kept absent⟩
  · rintro ⟨rfl, v, reads, absent | _⟩
    exact .filled (by rw [valuesOf_same, absent]) reads

/-- The value is the one of its entry, or the one that stands for a missing entry. -/
theorem given_iff {v : α} : f.Given room es v ↔ ∃ slot, f.Gains room es none slot ∧ slot.or f.fallback = some v := by
  constructor
  · rintro (⟨once, reads⟩ | ⟨absent, fallback⟩)
    · exact ⟨_, .filled once reads, rfl⟩
    · exact ⟨none, .kept absent, fallback⟩
  · rintro ⟨slot, absent | ⟨once, reads⟩, hv⟩
    · exact .absent absent hv
    · cases hv
      exact .once once reads

end Field

namespace Fields

variable {αs : List Type} {fs : Fields αs} {slots slots' : Slots αs} {row : Row αs} {items : List Draft}

/-- What the slots of the fields come to behind these entries. -/
def Gains (room : Nat) (es : List (Except Fault String × Draft)) {αs : List Type} :
    Fields αs → Slots αs → Slots αs → Prop
  | nil, _, _ => True
  | cons f fs, (slot, slots), (slot', slots') => f.Gains room es slot slot' ∧ fs.Gains room es slots slots'

/-- The values of the fields in an object with these entries. -/
def Given (room : Nat) (es : List (Except Fault String × Draft)) {αs : List Type} : Fields αs → Row αs → Prop
  | nil, _ => True
  | cons f fs, (v, vs) => f.Given room es v ∧ fs.Given room es vs

theorem gains_nil_iff : fs.Gains room [] slots slots' ↔ slots' = slots := by
  induction fs with
  | nil => exact ⟨fun _ => rfl, fun _ => trivial⟩
  | cons f fs ih =>
    obtain ⟨slot, slots⟩ := slots
    obtain ⟨slot', slots'⟩ := slots'
    exact (and_congr Field.gains_nil_iff ih).trans ⟨fun ⟨hslot, hslots⟩ => hslot ▸ hslots ▸ rfl, Prod.mk.inj⟩

theorem gains_other_iff (other : key ∉ fs.names) :
    fs.Gains room ((.ok key, d) :: es) slots slots' ↔ fs.Gains room es slots slots' := by
  induction fs with
  | nil => exact Iff.rfl
  | cons f fs ih =>
    obtain ⟨hkey, hother⟩ := not_or.mp fun h => other (List.mem_cons.mpr h)
    exact and_congr (Field.gains_other_iff hkey) (ih hother)

theorem put_first_ok_iff {mid : Slots (α :: αs)} : (cons f fs).put room f.name d (behind slot slots) = some (.ok mid) ↔
    slot = none ∧ ∃ v, f.read room d = .ok v ∧ mid = behind (some v) slots := by
  cases slot with
  | some w =>
    have htwice : (cons f fs).put room f.name d (behind (some w) slots) = some (.mismatch (.duplicateField f.name)) :=
      if_pos rfl
    rw [htwice]
    exact ⟨(nomatch ·), fun ⟨h, _⟩ => nomatch h⟩
  | none =>
    rw [put_first, Option.some_inj]
    constructor
    · intro h
      obtain ⟨v, hread, rfl⟩ := ok_of_map h
      exact ⟨rfl, v, hread, rfl⟩
    · rintro ⟨_, v, hread, rfl⟩
      rw [hread]
      rfl

theorem put_behind_ok_iff {mid : Slots (α :: αs)} (other : key ≠ f.name) :
    (cons f fs).put room key d (behind slot slots) = some (.ok mid) ↔
      ∃ slots', fs.put room key d slots = some (.ok slots') ∧ mid = behind slot slots' := by
  rw [put_behind other, Option.map_eq_some_iff]
  constructor
  · rintro ⟨r, hput, h⟩
    obtain ⟨slots', rfl, rfl⟩ := ok_of_map h
    exact ⟨slots', hput, rfl⟩
  · rintro ⟨slots', hput, rfl⟩
    exact ⟨_, hput, rfl⟩

/-- The entry of a field is read into its slot, and the others follow. -/
theorem gains_cons_iff (distinct : fs.names.Nodup) (known : key ∈ fs.names) :
    fs.Gains room ((.ok key, d) :: es) slots slots' ↔
      ∃ mid, fs.put room key d slots = some (.ok mid) ∧ fs.Gains room es mid slots' := by
  induction fs with
  | nil => cases known
  | cons f fs ih =>
    obtain ⟨slot, slots⟩ := slots
    obtain ⟨slot', slots'⟩ := slots'
    obtain ⟨hname, hnames⟩ := List.nodup_cons.mp distinct
    by_cases hkey : key = f.name
    · subst hkey
      constructor
      · rintro ⟨hslot, hslots⟩
        obtain ⟨hfree, v, hread, hgains⟩ := Field.gains_same_iff.mp hslot
        exact ⟨_, put_first_ok_iff.mpr ⟨hfree, v, hread, rfl⟩, hgains, (gains_other_iff hname).mp hslots⟩
      · rintro ⟨mid, hput, hgains⟩
        obtain ⟨hfree, v, hread, rfl⟩ := put_first_ok_iff.mp hput
        exact ⟨Field.gains_same_iff.mpr ⟨hfree, v, hread, hgains.1⟩, (gains_other_iff hname).mpr hgains.2⟩
    · have hknown := (List.mem_cons.mp known).resolve_left hkey
      constructor
      · rintro ⟨hslot, hslots⟩
        obtain ⟨mid, hput, hgains⟩ := (ih hnames hknown).mp hslots
        exact ⟨_, (put_behind_ok_iff hkey).mpr ⟨mid, hput, rfl⟩, (Field.gains_other_iff hkey).mp hslot, hgains⟩
      · rintro ⟨mid, hput, hgains⟩
        obtain ⟨slots₁, hrest, rfl⟩ := (put_behind_ok_iff hkey).mp hput
        exact ⟨(Field.gains_other_iff hkey).mpr hgains.1, (ih hnames hknown).mpr ⟨slots₁, hrest, hgains.2⟩⟩

theorem put_known (known : key ∈ fs.names) (slots : Slots αs) (d : Draft) : fs.put room key d slots ≠ none := by
  induction fs with
  | nil => cases known
  | cons f fs ih =>
    obtain ⟨slot, slots⟩ := slots
    by_cases hkey : key = f.name
    · subst hkey
      cases slot with
      | some w => exact fun h => nomatch (if_pos rfl).symm.trans h
      | none => exact fun h => nomatch (put_first f fs slots d).symm.trans h
    · intro h
      have hrest := Option.map_eq_none_iff.mp ((put_behind hkey fs slot slots d).symm.trans h)
      exact ih ((List.mem_cons.mp known).resolve_left hkey) slots hrest

/-- An entry whose key can be read. A value that is passed over has no fault that one meets on the way. -/
def Readable (names : List String) (e : Except Fault String × Draft) : Prop :=
  ∃ key, e.1 = .ok key ∧ (key ∉ names → e.2.passing = none)

/-- Entries are read if each key can be, and then each slot has what it comes to, in whichever order they stand. -/
theorem readEntries_ok_iff (distinct : fs.names.Nodup) : fs.readEntries room slots es = .ok slots' ↔
    (∀ e ∈ es, Readable fs.names e) ∧ fs.Gains room es slots slots' := by
  induction es generalizing slots with
  | nil =>
    rw [gains_nil_iff]
    exact ⟨fun h => ⟨List.forall_mem_nil _, (Except.ok.inj h).symm⟩, fun h => congrArg Except.ok h.2.symm⟩
  | cons e es ih =>
    obtain ⟨fault | key, d⟩ := e
    · refine ⟨(nomatch ·), fun ⟨hreadable, _⟩ => ?_⟩
      obtain ⟨key, hkey, _⟩ := hreadable _ List.mem_cons_self
      cases hkey
    rw [List.forall_mem_cons, readEntries_ok]
    -- An entry of a field goes into its slot, and one of no field is only passed over.
    by_cases known : key ∈ fs.names
    · have hkey : Readable fs.names (.ok key, d) := ⟨key, rfl, fun h => absurd known h⟩
      rw [gains_cons_iff distinct known, and_iff_right hkey]
      rcases hput : fs.put room key d slots with _ | (_ | mid)
      · exact absurd hput (put_known known slots d)
      · exact ⟨(nomatch ·), fun ⟨_, _, h, _⟩ => nomatch h⟩
      · refine ih.trans (and_congr_right fun _ => ?_)
        constructor
        · exact fun hgains => ⟨mid, rfl, hgains⟩
        · rintro ⟨_, ⟨⟩, hgains⟩
          exact hgains
    · have hkey : Readable fs.names (.ok key, d) ↔ d.passing = none :=
        ⟨fun ⟨_, h, passes⟩ => passes (Except.ok.inj h ▸ known), fun passes => ⟨key, rfl, fun _ => passes⟩⟩
      rw [gains_other_iff known, put_other known, hkey, and_assoc, ← ih, ← passOver_ok_iff]
      change (d.passOver >>= fun _ => fs.readEntries room slots es) = _ ↔ _
      cases d.passOver with
      | error e => exact ⟨(nomatch ·), fun ⟨h, _⟩ => nomatch h⟩
      | ok u => exact (and_iff_right rfl).symm

theorem finish_cons_iff {v : α} {vs : Row αs} :
    (cons f fs).finish (behind slot slots) = .ok ((v, vs) : Row (α :: αs)) ↔
      slot.or f.fallback = some v ∧ fs.finish slots = .ok vs := by
  rw [finish_cons]
  cases slot.or f.fallback with
  | none => exact ⟨(nomatch ·), fun ⟨h, _⟩ => nomatch h⟩
  | some w =>
    constructor
    · intro h
      obtain ⟨ws, hws, hrow⟩ := ok_of_map h
      cases hrow
      exact ⟨rfl, hws⟩
    · rintro ⟨⟨⟩, hvs⟩
      dsimp only
      rw [hvs]
      rfl

/-- Behind all entries, each field has its value or the one that it has when it is missing. -/
theorem finish_gains_iff :
    (∃ slots, fs.Gains room es fs.empty slots ∧ fs.finish slots = .ok row) ↔ fs.Given room es row := by
  induction fs with
  | nil => exact ⟨fun _ => trivial, fun _ => ⟨(), trivial, rfl⟩⟩
  | cons f fs ih =>
    obtain ⟨v, vs⟩ := row
    have hgiven : (cons f fs).Given room es (v, vs) ↔ f.Given room es v ∧ fs.Given room es vs := Iff.rfl
    rw [hgiven, Field.given_iff, ← ih]
    constructor
    · rintro ⟨⟨slot, slots⟩, ⟨hslot, hslots⟩, hfinish⟩
      obtain ⟨hv, hvs⟩ := finish_cons_iff.mp hfinish
      exact ⟨⟨slot, hslot, hv⟩, slots, hslots, hvs⟩
    · rintro ⟨⟨slot, hslot, hv⟩, slots, hslots, hvs⟩
      exact ⟨behind slot slots, ⟨hslot, hslots⟩, finish_cons_iff.mpr ⟨hv, hvs⟩⟩

def Listed (room : Nat) {αs : List Type} : Fields αs → List Draft → Row αs → Prop
  | nil, items, _ => items = []
  | cons f fs, d :: items, (v, vs) => f.read room d = .ok v ∧ fs.Listed room items vs
  | cons f fs, [], (v, vs) => f.fallback = some v ∧ fs.Listed room [] vs

theorem readItems_cons {wanted : String} {position : Nat} {ending : Ending} (items : List Draft) :
    (cons f fs).readItems room wanted ending position (d :: items) = f.read room d >>= fun v =>
      (fs.readItems room wanted ending (position + 1) items).map fun (vs, left) => ((v, vs), left) := by
  change (f.read room d >>= fun v => fs.readItems room wanted ending (position + 1) items >>= fun (vs, left) =>
    .ok ((v, vs), left)) = _
  cases fs.readItems room wanted ending (position + 1) items <;> rfl

theorem readItems_missing {wanted : String} {position : Nat} :
    (cons f fs).readItems room wanted .closed position [] =
      match f.fallback with
      | some v =>
        (fs.readItems room wanted .closed (position + 1) []).map fun (vs, left) => ((v, vs), left)
      | none => .mismatch (.wrongLength position wanted) := by
  obtain ⟨name, read, write, fallback⟩ := f
  cases fallback with
  | none => rfl
  | some v =>
    change (fs.readItems room wanted .closed (position + 1) [] >>= fun (vs, left) => .ok ((v, vs), left)) = _
    cases fs.readItems room wanted .closed (position + 1) [] <;> rfl

theorem items_behind_iff {x : Read (Row αs × List Draft)} {v w : α} {vs : Row αs} :
    (x.map fun (vs, left) => (((w, vs) : Row (α :: αs)), left)) = .ok ((v, vs), []) ↔ w = v ∧ x = .ok (vs, []) := by
  constructor
  · intro h
    obtain ⟨⟨ws, left⟩, rfl, hrow⟩ := ok_of_map h
    cases hrow
    exact ⟨rfl, rfl⟩
  · rintro ⟨rfl, rfl⟩
    rfl

/-- The fields of an array are told by their places, and a missing one can be none but the last ones. -/
theorem readItems_ok_iff {wanted : String} (position : Nat) :
    fs.readItems room wanted .closed position items = .ok (row, []) ↔ fs.Listed room items row := by
  induction fs generalizing items position with
  | nil =>
    constructor
    · intro h
      cases h
      rfl
    · rintro rfl
      rfl
  | cons f fs ih =>
    obtain ⟨v, vs⟩ := row
    cases items with
    | nil =>
      change _ ↔ f.fallback = some v ∧ fs.Listed room [] vs
      rw [readItems_missing, ← ih (position + 1)]
      cases f.fallback with
      | none => exact ⟨(nomatch ·), fun ⟨h, _⟩ => nomatch h⟩
      | some w => exact items_behind_iff.trans (and_congr_left fun _ => Option.some_inj.symm)
    | cons d items =>
      change _ ↔ f.read room d = .ok v ∧ fs.Listed room items vs
      rw [readItems_cons, ← ih (position + 1), bind_ok_iff]
      constructor
      · rintro ⟨w, hw, h⟩
        obtain ⟨rfl, hvs⟩ := items_behind_iff.mp h
        exact ⟨hw, hvs⟩
      · rintro ⟨hv, hvs⟩
        exact ⟨v, hv, items_behind_iff.mpr ⟨rfl, hvs⟩⟩

end Fields

namespace Record

variable {αs : List Type} {r : Record αs} {row : Row αs} {ending : Ending} {items : List Draft}

/-- An object holds a row if it is closed, all its keys can be read, and each field is there once or may be missing. -/
theorem read_object_ok_iff (distinct : r.fields.names.Nodup) : r.read (room + 1) (.object es ending) = .ok row ↔
    ending = .closed ∧ (∀ e ∈ es, Fields.Readable r.fields.names e) ∧ r.fields.Given room es row := by
  change (r.fields.readEntries room r.fields.empty es >>= fun slots =>
    Ending.close () ending >>= fun _ => r.fields.finish slots) = _ ↔ _
  rw [← Fields.finish_gains_iff]
  constructor
  · intro h
    obtain ⟨slots, hslots, h⟩ := ok_of_bind h
    obtain ⟨_, hending, hfinish⟩ := ok_of_bind h
    obtain ⟨hreadable, hgains⟩ := (Fields.readEntries_ok_iff distinct).mp hslots
    exact ⟨(close_ok_iff.mp hending).1, hreadable, slots, hgains, hfinish⟩
  · rintro ⟨rfl, hreadable, slots, hgains, hfinish⟩
    rw [(Fields.readEntries_ok_iff distinct).mpr ⟨hreadable, hgains⟩]
    exact hfinish

/-- An array holds a row if it is closed and has the fields in their order, where the last ones may be missing. -/
theorem read_array_ok_iff : r.read (room + 1) (.array items ending) = .ok row ↔
    ending = .closed ∧ r.fields.Listed room items row := by
  change (r.fields.readItems room r.wanted ending 0 items >>= fun (row, left) =>
    if left.isEmpty then Ending.close row ending else .fault .misplaced) = _ ↔ _
  constructor
  · intro h
    obtain ⟨⟨row', left⟩, hitems, h⟩ := ok_of_bind h
    cases left with
    | cons d left => cases h
    | nil =>
      obtain ⟨rfl, rfl⟩ := close_ok_iff.mp h
      exact ⟨rfl, (Fields.readItems_ok_iff 0).mp hitems⟩
  · rintro ⟨rfl, hlisted⟩
    rw [(Fields.readItems_ok_iff 0).mpr hlisted]
    rfl

end Record

end SignerBench.Json
