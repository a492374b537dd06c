import SignerBench.Files.Disk
import SignerBench.Proofs.Footprint

namespace SignerBench.Files.Disk

variable {d d' : Disk} {t : Tree} {path : String} {content : Bytes} {result : Except OsError Unit} {q : Place}

/-- The directories above the end of a path, taken from the outermost one on, are on the way to its end. -/
theorem visits_outer {r : Route} (hr : Route.ofText path = .ok r) (count : Nat) :
    ∀ v ∈ visits [] (r.parents.reverse.take count), v ∈ visits [] (namesOf path) := by
  intro v hv
  obtain ⟨rfl, _⟩ := ofText_eq hr
  have hparents : v ∈ visits [] (Route.ofNames (path.endsWith "/") (namesOf path)).parents.reverse := by
    obtain ⟨rest, hrest⟩ := List.take_prefix count (Route.ofNames (path.endsWith "/") (namesOf path)).parents.reverse
    rw [← hrest, visits_append]
    exact List.mem_append_left _ hv
  rcases List.eq_nil_or_concat (namesOf path) with hnames | ⟨front, last, hnames⟩
  · rw [hnames] at hparents
    cases hparents
  · rw [hnames, List.concat_eq_append] at hparents ⊢
    exact visits_parents _ front last v hparents

/-- Making outer directories is making the directories of a path of its own, unless there are none. -/
theorem withOuterDirs_cases (t : Tree) (path : String) (count : Nat) :
    withOuterDirs t path count = t ∨ ∃ front last,
      withOuterDirs t path count = (t.makeDirs (.ofNames false (front ++ [last]))
        (Route.ofNames false (front ++ [last])).parents).2 ∧
      ∀ v ∈ visits [] (front ++ [last]), v ∈ visits [] (namesOf path) := by
  unfold withOuterDirs
  split
  case h_2 => exact .inl rfl
  case h_1 r hr =>
    have houter := visits_outer hr count
    dsimp only
    rcases List.eq_nil_or_concat (r.parents.reverse.take count) with hnames | ⟨front, last, hnames⟩
    · rw [hnames]
      exact .inl rfl
    · rw [List.concat_eq_append] at hnames
      rw [hnames] at houter ⊢
      exact .inr ⟨front, last, rfl, houter⟩

/-- Nothing is changed where the way does not lead, however many of the directories were made before the fault. -/
theorem withOuterDirs_apart (outside : ∀ v ∈ visits [] (namesOf path), ¬ q <+: v) (count : Nat) :
    (withOuterDirs t path count).get? q = t.get? q := by
  rcases withOuterDirs_cases t path count with hsame | ⟨front, last, hmade, hway⟩
  · rw [hsame]
  · rw [hmade]
    exact makeDirs_apart _ _ _ (outside _ (hway _ (visits_last front last))) fun v hv =>
      outside v (hway v (visits_parents _ front last v hv))

/-- No file is in reach, so all that a fault can leave behind are directories of the way. -/
theorem withOuterDirs_touches (count : Nat) :
    Touches (fun _ => False) (· ∈ visits [] (namesOf path)) t (withOuterDirs t path count) := by
  rcases withOuterDirs_cases t path count with hsame | ⟨front, last, hmade, hway⟩
  · rw [hsame]
    exact .refl _ _ t
  · rw [hmade]
    exact makeDirs_touches _ _ _ (hway _ (visits_last front last)) fun v hv =>
      hway v (visits_parents _ front last v hv)

/-- Directories are made as in a tree, or a fault ends it, with nothing made or the outer ones. -/
theorem createDirs_cases (h : d.createDirs path = (result, d')) : d'.faults = d.faults.tail ∧
    (d.tree.createDirs path = (result, d'.tree) ∨
      result ≠ .ok () ∧ (d'.tree = d.tree ∨ ∃ count, d'.tree = withOuterDirs d.tree path count)) := by
  unfold createDirs at h
  split at h
  case h_1 fault faults hfaults =>
    rw [hfaults]
    split at h
    · cases h
      exact ⟨rfl, .inr ⟨nofun, .inr ⟨_, rfl⟩⟩⟩
    · cases h
      exact ⟨rfl, .inr ⟨nofun, .inl rfl⟩⟩
  case h_2 =>
    cases h
    exact ⟨rfl, .inl rfl⟩

/-- What a write leaves. -/
inductive Writes (path : String) (content : Bytes) (d d' : Disk) : Except OsError Unit → Prop where
  | whole (wrote : d.tree.write path content = .ok d'.tree) : Writes path content d d' (.ok ())
  | untouched (cause : OsError) (same : d'.tree = d.tree) : Writes path content d d' (.error cause)
  | broken {size : Nat} {cause : OsError} (fault : some ⟨some size, cause⟩ ∈ d.faults)
    (wrote : d.tree.write path (content.take size) = .ok d'.tree) : Writes path content d d' (.error cause)

/-- A write that fails has done nothing, or the disk has failed behind a part of the bytes. -/
theorem write_cases (h : d.write path content = (result, d')) :
    d'.faults = d.faults.tail ∧ Writes path content d d' result := by
  unfold write at h
  split at h
  case h_1 fault faults hfaults =>
    rw [hfaults]
    split at h
    case h_1 size hdone =>
      cases hwrite : d.tree.write path (content.take size) with
      | error e =>
        rw [hwrite] at h
        cases h
        exact ⟨rfl, .untouched e rfl⟩
      | ok made =>
        rw [hwrite] at h
        cases h
        have hmem : some ⟨some size, fault.cause⟩ ∈ d.faults := by
          rw [hfaults, ← hdone]
          exact List.mem_cons_self
        exact ⟨rfl, .broken hmem hwrite⟩
    case h_2 =>
      cases h
      exact ⟨rfl, .untouched fault.cause rfl⟩
  case h_2 =>
    cases hwrite : d.tree.write path content with
    | error e =>
      rw [hwrite] at h
      cases h
      exact ⟨rfl, .untouched e rfl⟩
    | ok made =>
      rw [hwrite] at h
      cases h
      exact ⟨rfl, .whole hwrite⟩

end SignerBench.Files.Disk
