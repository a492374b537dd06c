import Mathlib.Data.List.Basic
import SignerBench.App.Keys

namespace SignerBench.App.Metadata

def readEntries : Nat → Bytes → Option (List Bytes × Bytes)
  | 0, rest => some ([], rest)
  | _ + 1, [] => none
  | n + 1, length :: rest =>
    if rest.length < length.toNat then none
    else (readEntries n (rest.drop length.toNat)).map fun (entries, left) => (rest.take length.toNat :: entries, left)

def unpack : Bytes → Option (List Bytes × Bytes)
  | [] => none
  | count :: rest => readEntries count.toNat rest

variable {entries : List Bytes} {payload : Bytes}

/-- Each entry tells its own length, so what stands behind the entries does not matter. -/
theorem readEntries_append (fits : ∀ e ∈ entries, e.length ≤ maxEntryBytes) (rest : Bytes) :
    readEntries entries.length (entries.flatMap entryBytes ++ rest) = some (entries, rest) := by
  induction entries with
  | nil => rfl
  | cons e entries ih =>
    obtain ⟨he, hfits⟩ := List.forall_mem_cons.mp fits
    have hlength : (UInt8.ofNat e.length).toNat = e.length :=
      UInt8.toNat_ofNat_of_lt' (Nat.lt_of_le_of_lt he (by decide))
    rw [List.length_cons, List.flatMap_cons, entryBytes, List.cons_append, List.cons_append, readEntries, hlength,
      List.append_assoc, if_neg (by rw [List.length_append]; omega), List.drop_left, List.take_left, ih hfits]
    rfl

theorem pack_eq_some : pack entries = some payload ↔
    (entries.length ≤ maxEntries ∧ ∀ e ∈ entries, e.length ≤ maxEntryBytes) ∧
      payload = UInt8.ofNat entries.length :: entries.flatMap entryBytes := by
  rw [pack]
  split
  case isTrue h =>
    have hfits : entries.length ≤ maxEntries ∧ ∀ e ∈ entries, e.length ≤ maxEntryBytes := by simpa using h
    rw [Option.some_inj, eq_comm]
    exact (and_iff_right hfits).symm
  case isFalse h =>
    refine iff_of_false (fun h => nomatch h) fun ⟨hfits, _⟩ => h ?_
    simpa using hfits

/-- The count says how many entries to read, and all of what follows is given back. -/
theorem unpack_pack (h : pack entries = some payload) (rest : Bytes) :
    unpack (payload ++ rest) = some (entries, rest) := by
  obtain ⟨⟨few, fits⟩, rfl⟩ := pack_eq_some.mp h
  have hcount : (UInt8.ofNat entries.length).toNat = entries.length :=
    UInt8.toNat_ofNat_of_lt' (Nat.lt_of_le_of_lt few (by decide))
  rw [List.cons_append, unpack, hcount]
  exact readEntries_append fits rest

/-- An entry takes at most 120 bytes, its length included. -/
theorem length_pack_le (h : pack entries = some payload) : payload.length ≤ 1 + 120 * 254 := by
  obtain ⟨⟨few, fits⟩, rfl⟩ := pack_eq_some.mp h
  have hall : ∀ {es : List Bytes}, (∀ e ∈ es, e.length ≤ maxEntryBytes) →
      (es.flatMap entryBytes).length ≤ 120 * es.length := by
    intro es hes
    induction es with
    | nil => exact Nat.zero_le _
    | cons e es ih =>
      obtain ⟨he, hes⟩ := List.forall_mem_cons.mp hes
      have hrest := ih hes
      rw [List.flatMap_cons, List.length_append, entryBytes, List.length_cons, List.length_cons]
      unfold maxEntryBytes at he
      omega
  have hentries := hall fits
  unfold maxEntries at few
  rw [List.length_cons]
  omega

theorem ne_nil_of_encode {metadata : List String} (h : encode metadata = some payload) : payload ≠ [] := by
  obtain ⟨_, rfl⟩ := pack_eq_some.mp h
  exact List.cons_ne_nil _ _

/-- The texts are told as well as their bytes, since UTF-8 has one encoding for each. -/
theorem encode_injective {metadata metadata' : List String} (h : encode metadata = some payload)
    (h' : encode metadata' = some payload) : metadata = metadata' := by
  have hentries := unpack_pack h []
  rw [unpack_pack h' []] at hentries
  have hbytes : metadata'.map Bytes.ofText = metadata.map Bytes.ofText := congrArg Prod.fst (Option.some.inj hentries)
  have hinj : Function.Injective Bytes.ofText := fun s s' hs => by
    have hread := Bytes.toText?_ofText s
    rw [hs, Bytes.toText?_ofText] at hread
    exact (Option.some.inj hread).symm
  exact (List.map_injective_iff.mpr hinj hbytes).symm

end SignerBench.App.Metadata
