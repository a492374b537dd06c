import SignerBench.Files.Path

namespace SignerBench.Text

theorem pieces_ne_nil (separator : Char) (cs : List Char) : pieces separator cs ≠ [] := by
  fun_induction pieces separator cs <;> simp_all

theorem pieces_append (separator : Char) (front rest : List Char) :
    pieces separator (front ++ separator :: rest) = pieces separator front ++ pieces separator rest := by
  induction front with
  | nil =>
    obtain ⟨p, ps, h⟩ := List.exists_cons_of_ne_nil (pieces_ne_nil separator rest)
    rw [List.nil_append, pieces, pieces, h]
    dsimp only
    rw [if_pos rfl]
    rfl
  | cons c front ih =>
    obtain ⟨p, ps, h⟩ := List.exists_cons_of_ne_nil (pieces_ne_nil separator front)
    rw [List.cons_append, pieces, ih, pieces, h]
    simp only [List.cons_append]
    split <;> rfl

theorem pieces_of_not_mem (separator : Char) (cs : List Char) (h : separator ∉ cs) : pieces separator cs = [cs] := by
  induction cs with
  | nil => rfl
  | cons c cs ih =>
    have hc : c ≠ separator := fun he => h (he ▸ List.mem_cons_self)
    rw [pieces, ih fun hm => h (List.mem_cons_of_mem _ hm)]
    dsimp only
    rw [if_neg hc]

end SignerBench.Text

namespace SignerBench.Files

/-- The names that a path leads through. -/
def namesOf (path : String) : List String := ((Text.pieces '/' path.toList).map String.ofList).filter (· ≠ "")

variable {path dir name : String} {r : Route}

/-- A path that the system takes is known by its names and its last slash alone. -/
theorem ofText_eq (h : Route.ofText path = .ok r) :
    r = .ofNames (path.endsWith "/") (namesOf path) ∧ hasZero path = false ∧ path ≠ "" ∧
      path.utf8ByteSize < maxPath := by
  unfold Route.ofText at h
  split at h
  · cases h
  · split at h
    · cases h
    · split at h
      · cases h
      · cases h
        rename_i hzero hempty hlong
        exact ⟨rfl, by simpa using hzero, hempty, by omega⟩

/-- The converse of `ofText_eq`: these three conditions are all that the system asks of a path. -/
theorem ofText_of (zero : hasZero path = false) (nonempty : path ≠ "") (fits : path.utf8ByteSize < maxPath) :
    Route.ofText path = .ok (.ofNames (path.endsWith "/") (namesOf path)) := by
  unfold Route.ofText
  rw [if_neg (by simp [zero]), if_neg nonempty, if_neg (by omega)]
  rfl

structure Plain (name : String) : Prop where
  nonempty : name ≠ ""
  slash : '/' ∉ name.toList

theorem endsWith_iff {s pattern : String} : s.endsWith pattern = true ↔ pattern.toList <:+ s.toList := by
  change s.toSlice.endsWith pattern = true ↔ _
  rw [String.Slice.endsWith_string_iff, String.copy_toSlice]

theorem Plain.startsWith (h : Plain name) : name.startsWith "/" = false := by
  rw [String.startsWith_string_eq_false_iff]
  rintro ⟨rest, hrest⟩
  exact h.slash (hrest ▸ by simp)

theorem Plain.endsWith (h : Plain name) : name.endsWith "/" = false :=
  Bool.eq_false_iff.mpr fun hends => h.slash ((endsWith_iff.mp hends).subset (List.mem_singleton_self _))

theorem namesOf_slash {front rest : String} (h : path.toList = front.toList ++ '/' :: rest.toList) :
    namesOf path = namesOf front ++ namesOf rest := by
  rw [namesOf, h, Text.pieces_append, List.map_append, List.filter_append]
  rfl

theorem Plain.namesOf (h : Plain name) : namesOf name = [name] := by
  rw [Files.namesOf, Text.pieces_of_not_mem _ _ h.slash]
  simp [h.nonempty]

/-- A name behind a path stands behind a slash, unless there is nothing before it. -/
theorem join_plain (dir : String) (h : Plain name) : (dir = "" ∧ join dir name = name) ∨
    ∃ front, namesOf front = namesOf dir ∧ (join dir name).toList = front.toList ++ '/' :: name.toList := by
  rw [join, if_neg (by simp [h.startsWith])]
  by_cases hempty : dir = ""
  · exact .inl ⟨hempty, by simp [hempty]⟩
  · by_cases hslash : dir.endsWith "/" = true
    · obtain ⟨front, hfront⟩ : ['/'] <:+ dir.toList := endsWith_iff.mp hslash
      refine .inr ⟨.ofList front, ?_, ?_⟩
      · have hdir : dir.toList = (String.ofList front).toList ++ '/' :: "".toList := by
          rw [String.toList_ofList, ← hfront]
          rfl
        rw [namesOf_slash hdir]
        exact (List.append_nil _).symm
      · rw [if_pos (.inr hslash), String.toList_append, ← hfront, String.toList_ofList]
        simp
    · refine .inr ⟨dir, rfl, ?_⟩
      rw [if_neg (by simp [hempty, hslash]), String.toList_append, String.toList_append]
      simp

/-- However many slashes the path ends with, the name comes as one name behind those of the path. -/
theorem namesOf_join (dir : String) (h : Plain name) : namesOf (join dir name) = namesOf dir ++ [name] := by
  rcases join_plain dir h with ⟨rfl, hjoin⟩ | ⟨front, hfront, hjoin⟩
  · rw [hjoin, h.namesOf]
    rfl
  · rw [namesOf_slash hjoin, hfront, h.namesOf]

theorem join_ne_empty (dir : String) (h : Plain name) : join dir name ≠ "" := by
  intro hempty
  have hnames := namesOf_join dir h
  rw [hempty] at hnames
  exact List.cons_ne_nil _ _ (List.append_eq_nil_iff.mp hnames.symm).2

/-- So a joined path never asks for a directory at its end. -/
theorem endsWith_join (dir : String) (h : Plain name) : (join dir name).endsWith "/" = false := by
  have hname : ¬ ['/'] <:+ name.toList := fun hs => h.slash (hs.subset (List.mem_singleton_self _))
  refine Bool.eq_false_iff.mpr fun hends => ?_
  have hsuffix : ['/'] <:+ (join dir name).toList := endsWith_iff.mp hends
  rcases join_plain dir h with ⟨_, hjoin⟩ | ⟨front, _, hjoin⟩
  · exact hname (hjoin ▸ hsuffix)
  · have hlast : name.toList <:+ (join dir name).toList :=
      hjoin ▸ ⟨front.toList ++ ['/'], by simp⟩
    rcases List.suffix_or_suffix_of_suffix hsuffix hlast with hs | hs
    · exact hname hs
    · rcases List.suffix_cons_iff.mp hs with he | hs
      · exact h.slash (by rw [he]; simp)
      · exact h.nonempty (by simpa using List.suffix_nil.mp hs)

/-- The system takes what a path is joined from if it takes the path. -/
theorem ofText_of_join (h : Plain name) (nonempty : dir ≠ "") (taken : Route.ofText (join dir name) = .ok r) :
    Route.ofText dir = .ok (.ofNames (dir.endsWith "/") (namesOf dir)) := by
  obtain ⟨_, hzero, _, hfits⟩ := ofText_eq taken
  have hjoin : ∃ rest, join dir name = dir ++ rest := by
    rw [join, if_neg (by simp [h.startsWith])]
    split
    · exact ⟨name, rfl⟩
    · exact ⟨"/" ++ name, String.append_assoc ..⟩
  obtain ⟨rest, hrest⟩ := hjoin
  rw [hrest] at hzero hfits
  refine ofText_of ?_ nonempty ?_
  · rw [hasZero, String.toList_append, List.contains_append] at hzero
    exact (Bool.or_eq_false_iff.mp hzero).1
  · rw [String.utf8ByteSize_append] at hfits
    omega

end SignerBench.Files
