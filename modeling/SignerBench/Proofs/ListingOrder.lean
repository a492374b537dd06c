import SignerBench.Proofs.GoldenFrame

namespace SignerBench.Files

theorem Folder.eq_nil {folder : Folder} (h : ∀ name, folder.get? name = none) : folder = .nil := by
  cases folder with
  | nil => rfl
  | cons name node rest =>
    have hname := h name
    rw [Folder.get?, if_pos rfl] at hname
    cases hname

end SignerBench.Files

namespace SignerBench.Snapshot.Goldens

open Files

variable {t t' : Tree} {scratch dir : String}

/-- A set gets a directory of its own there: the way to it leads through nothing inside, and what was at its place
before is seen. -/
def Own (t : Tree) (dir : String) : Prop :=
  (∀ v ∈ visits [] (namesOf dir), walked (namesOf dir) <+: v → walked (namesOf dir) = v) ∧
    (t.HasDir (walked (namesOf dir)) → t.isThere dir = true)

/-- Files that were written one after the other stand behind those that were there. The induction is on the files that
are left. -/
theorem writes_ok (snapshots : List Snapshot) (first : Nat) {done : List (String × Bytes)}
    (there : ∀ v ∈ visits [] (namesOf dir), t.HasDir v)
    (hfolder : t.get? (walked (namesOf dir)) = some (.dir (folderOf done)))
    (fresh : ∀ i, first ≤ i → fileName i ∉ done.map Prod.fst)
    (h : Attempt.on (Tree.reply scratch) ((snapshots.zipIdx first).forM fun (s, index) =>
      Access.write (join dir (fileName index)) s.png) t = (.ok (), t')) :
    (∀ v ∈ visits [] (namesOf dir), t'.HasDir v) ∧
      t'.get? (walked (namesOf dir)) = some (.dir (folderOf (done ++ filesFrom first snapshots))) ∧
      ∀ i < snapshots.length, Route.ofText (join dir (fileName (first + i))) =
        .ok (.ofNames false (namesOf dir ++ [fileName (first + i)])) ∧
        Short (namesOf dir ++ [fileName (first + i)]) := by
  induction snapshots generalizing done first t with
  | nil =>
    cases h
    exact ⟨there, by simpa [filesFrom] using hfolder, nofun⟩
  | cons s rest ih =>
    rw [List.zipIdx_cons, List.forM] at h
    obtain ⟨_, t₁, hwrite, hwrites⟩ := Attempt.on_bind_ok h
    have wrote := wrote_of_on hwrite
    obtain ⟨made, hmade, _, hfolder₁⟩ :=
      write_fresh s.png wrote.route wrote.short wrote.there hfolder (fresh first (Nat.le_refl _))
    rw [write_of_on hwrite] at hmade
    cases hmade
    obtain ⟨hthere, hfolder', htaken⟩ := ih (first + 1) wrote.still_there hfolder₁ (fresh_behind s.png fresh) hwrites
    refine ⟨hthere, ?_, fun i hi => ?_⟩
    · rw [hfolder', filesFrom_cons, List.append_assoc]
      rfl
    · cases i with
      | zero => exact ⟨wrote.route, wrote.short⟩
      | succ i =>
        have hrest := htaken i (Nat.lt_of_succ_lt_succ hi)
        rwa [Nat.add_assoc, Nat.add_comm 1 i] at hrest

/-- The directory of a set is empty when its files are to be written. -/
theorem empty_of_created {t₁ t₂ : Tree} (nonempty : dir ≠ "")
    (outside : ∀ v ∈ visits [] (namesOf dir), walked (namesOf dir) <+: v → walked (namesOf dir) = v)
    (empty : ∀ name rest, t₁.get? (walked (namesOf dir) ++ name :: rest) = none)
    (h : t₁.createDirs dir = (.ok (), t₂)) : t₂.get? (walked (namesOf dir)) = some (.dir .nil) := by
  obtain ⟨_, _, ⟨folder, hfolder⟩, _⟩ := createDirs_ok nonempty h
  have hcreated : Touches (fun _ => False) (· ∈ visits [] (namesOf dir)) t₁ (t₁.createDirs dir).2 := createDirs_touches
  rw [h] at hcreated
  have hinside (name : String) : folder.get? name = none := by
    have hget : t₂.get? (walked (namesOf dir) ++ [name]) = folder.get? name := by
      rw [Tree.get?_append, hfolder, Option.bind_some, Node.get?_name]
    cases hname : folder.get? name with
    | none => rfl
    | some node =>
      rw [hname] at hget
      cases node with
      | file content =>
        have hold := (hcreated.files not_false).mp hget
        rw [empty] at hold
        cases hold
      | dir inner =>
        rcases hcreated.made ⟨inner, hget⟩ with ⟨_, hold⟩ | hway
        · rw [empty] at hold
          cases hold
        · have hplace := outside _ hway (List.prefix_append ..)
          exact absurd (List.append_right_eq_self.mp hplace.symm) (List.cons_ne_nil _ _)
  rw [hfolder, Folder.eq_nil hinside]

/-- A way that never turns back is enough for a directory of its own. -/
theorem own_of_straight {snapshots : List Snapshot} (nonempty : dir ≠ "") (straight : ".." ∉ namesOf dir)
    (h : (writeSet dir snapshots).on (Tree.reply scratch) t = (.ok (), t')) : Own t dir := by
  refine ⟨fun v hv hp => ?_, seen_of_straight nonempty straight h⟩
  have hway := visits_prefix straight [] v hv
  exact hp.eq_of_length_le hway.length_le

/-- A set that was written to a directory of its own is kept there. -/
theorem writeSet_keeps {snapshots : List Snapshot} (nonempty : dir ≠ "") (own : Own t dir)
    (h : (writeSet dir snapshots).on (Tree.reply scratch) t = (.ok (), t')) : Keeps t' dir snapshots := by
  obtain ⟨t₁, t₂, hcleared, hcreate, hwrites⟩ := writeSet_ok h
  obtain ⟨⟨r, hroute⟩, hshort, _, hthere⟩ := createDirs_ok nonempty hcreate
  have hempty := empty_of_created nonempty own.1 (empty_of_cleared own.2 hcleared) hcreate
  obtain ⟨hthere', hfolder, htaken⟩ :=
    @writes_ok t₂ t' scratch dir snapshots 0 [] hthere hempty (fun _ _ => List.not_mem_nil) hwrites
  refine keeps_of_folder hroute hshort hthere' hfolder fun i hi => ?_
  have hfile := htaken i hi
  rwa [Nat.zero_add] at hfile

/-- A directory with a name that the system takes has room for the sets that are not too large. -/
theorem shelf_of_name {count : Nat} (plain : Plain dir) (proper : Proper dir) (zero : hasZero dir = false)
    (small : dir.utf8ByteSize ≤ maxName) (few : count ≤ 1000000) : Shelf dir [] dir count := by
  have hdir : Short ([] ++ [dir]) := List.forall_mem_singleton.mpr (if_neg (Nat.not_lt.mpr small))
  have hmax : maxName = 255 ∧ maxPath = 4096 := ⟨rfl, rfl⟩
  refine ⟨?_, proper, hdir, fun i hi => ?_⟩
  · rw [ofText_of zero plain.nonempty (by omega), plain.endsWith, plain.namesOf]
    rfl
  have hsize := fileName_size (Nat.lt_of_lt_of_le hi few)
  have hjoin : join dir (fileName i) = dir ++ "/" ++ fileName i := by
    rw [join, if_neg (by simp [(fileName_plain i).startsWith]), if_neg (by simp [plain.nonempty, plain.endsWith])]
  have hzero : hasZero (join dir (fileName i)) = false := by
    rw [hjoin, hasZero, String.toList_append, String.toList_append, List.contains_append, List.contains_append]
    exact Bool.or_eq_false_iff.mpr ⟨Bool.or_eq_false_iff.mpr ⟨zero, by decide⟩, fileName_no_zero i⟩
  have hfits : (join dir (fileName i)).utf8ByteSize < maxPath := by
    have hslash : "/".utf8ByteSize = 1 := rfl
    rw [hjoin, String.utf8ByteSize_append, String.utf8ByteSize_append]
    omega
  refine ⟨?_, short_concat hdir (if_neg (by omega))⟩
  rw [ofText_of hzero (join_ne_empty dir (fileName_plain i)) hfits, endsWith_join dir (fileName_plain i),
    namesOf_join dir (fileName_plain i), plain.namesOf]
  rfl

/-- Of two files of a set, that of the smaller number is listed first if and only if the other number shows at least as
much in as many digits from its left. So all are listed in the order of their numbers if and only if there are at most
100000. A set that is kept in a directory is read whole, in the order of the listing: up to 100000 pictures this is the
order of their capture, and of more the one of place 100000 is read at place 10001. A set that was written to a
directory of its own is kept there. -/
theorem read_in_listing_order (t : Tree) (scratch dir : String) (snapshots : List Snapshot) :
    (∀ i j, i < j → (fileName i < fileName j ↔ i ≤ j / 10 ^ (width j - width i))) ∧
    (∀ count, (∀ i j, i < j → j < count → fileName i < fileName j) ↔ count ≤ 100000) ∧
    (Keeps t dir snapshots →
      ∃ listed, (readSet dir).on (Tree.reply scratch) t = (.ok listed, t) ∧ Arranged snapshots listed ∧
        (snapshots.length ≤ 100000 → listed = snapshots) ∧
        (100000 < snapshots.length → listed[10001]? = snapshots[100000]?)) ∧
    ∀ before : Tree, dir ≠ "" → ".." ∉ namesOf dir ∨ Own before dir →
      (writeSet dir snapshots).on (Tree.reply scratch) before = (.ok (), t) → Keeps t dir snapshots := by
  refine ⟨fun i j => fileName_lt_iff, fun count => ⟨fun h => ?_, fun few i j hij hj => ?_⟩, fun keeps => ?_,
    fun before nonempty own h => ?_⟩
  · refine Nat.le_of_not_lt fun many => ?_
    exact absurd ((fileName_lt_early (by decide)).mp (h 10001 100000 (by decide) many)) (by decide)
  · exact fileName_lt hij (Nat.lt_of_lt_of_le hj few)
  · obtain ⟨listed, held, arranged⟩ := keeps.held
    exact ⟨listed, readSet_held scratch held, arranged, arranged.eq_of_few, arranged.early⟩
  · exact writeSet_keeps nonempty (own.elim (fun straight => own_of_straight nonempty straight h) id) h

/-- A set with one picture too many, which is the last one and not like the others. -/
def overfull : List Snapshot := List.replicate 100000 ⟨[0]⟩ ++ [⟨[1]⟩]

theorem length_overfull : overfull.length = 100001 := by
  rw [overfull, List.length_append, List.length_replicate, List.length_singleton]

theorem overfull_last : overfull[100000]? = some ⟨[1]⟩ := by
  rw [overfull, List.getElem?_append_right (Nat.le_of_eq List.length_replicate), List.length_replicate, Nat.sub_self]
  rfl

theorem overfull_inner : overfull[10001]? = some ⟨[0]⟩ := by
  rw [overfull, List.getElem?_append_left (by rw [List.length_replicate]; decide), List.getElem?_replicate,
    if_pos (by decide)]

theorem overfull_written : ∃ t', (writeSet "set" overfull).on (Tree.reply "scratch") ⟨.nil⟩ = (.ok (), t') := by
  have shelf : Shelf "set" [] "set" overfull.length :=
    shelf_of_name ⟨by decide, by decide⟩ ⟨by decide, by decide⟩ (by decide) (by decide)
      (by rw [length_overfull]; decide)
  have clear : ∀ v ∈ visits [] ([] ++ ["set"]), ¬ Tree.HasFile ⟨.nil⟩ v := by decide
  obtain ⟨t', hwrite, _⟩ := writeSet_on "scratch" shelf clear nofun (fun _ => nofun) (Nat.le_refl _)
  exact ⟨t', hwrite⟩

/-- Two pictures come in the place of three and are read in their order. Of a set that is too large the last picture is
read early. -/
theorem written_sets_read :
    (∃ t', (writeSet (goldenDir "base" "set") twoPictures).on (Tree.reply "scratch") oldGoldens = (.ok (), t') ∧
      (readSet (goldenDir "base" "set")).on (Tree.reply "scratch") t' = (.ok twoPictures, t')) ∧
    ∃ t' listed, (writeSet "set" overfull).on (Tree.reply "scratch") ⟨.nil⟩ = (.ok (), t') ∧
      (readSet "set").on (Tree.reply "scratch") t' = (.ok listed, t') ∧ listed[10001]? = some ⟨[1]⟩ := by
  constructor
  · have hwrite : ((writeSet (goldenDir "base" "set") twoPictures).on (Tree.reply "scratch") oldGoldens).1 =
        .ok () := by decide +kernel
    obtain ⟨_, _, hread, hkeep⟩ := read_in_listing_order
      ((writeSet (goldenDir "base" "set") twoPictures).on (Tree.reply "scratch") oldGoldens).2
      "scratch" (goldenDir "base" "set") twoPictures
    have keeps := hkeep oldGoldens (by decide +kernel) (.inl (by decide +kernel)) (Prod.ext hwrite rfl)
    obtain ⟨listed, hlisted, _, hfew, _⟩ := hread keeps
    exact ⟨_, Prod.ext hwrite rfl, hfew (by decide) ▸ hlisted⟩
  · obtain ⟨t', hwrite⟩ := overfull_written
    obtain ⟨_, _, hread, hkeep⟩ := read_in_listing_order t' "scratch" "set" overfull
    obtain ⟨listed, hlisted, _, _, hmany⟩ := hread (hkeep ⟨.nil⟩ (by decide) (.inl (by decide)) hwrite)
    exact ⟨t', listed, hwrite, hlisted, (hmany (by rw [length_overfull]; decide)).trans overfull_last⟩

/-- With one picture too many the last one is read in front of most of the others. -/
theorem overfull_not_in_order : fileName 100000 < fileName 10001 ∧ ∃ t' listed,
    (writeSet "set" overfull).on (Tree.reply "scratch") ⟨.nil⟩ = (.ok (), t') ∧
      (readSet "set").on (Tree.reply "scratch") t' = (.ok listed, t') ∧ listed ≠ overfull := by
  refine ⟨by decide +kernel, ?_⟩
  obtain ⟨t', hwrite⟩ := overfull_written
  have own : Own ⟨.nil⟩ "set" := own_of_straight (by decide) (by decide) hwrite
  obtain ⟨listed, held, arranged⟩ := (writeSet_keeps (by decide) own hwrite).held
  refine ⟨t', listed, hwrite, readSet_held "scratch" held, fun heq => ?_⟩
  have hearly := arranged.early (by rw [length_overfull]; decide)
  rw [heq, overfull_inner, overfull_last] at hearly
  exact absurd hearly (by decide)

end SignerBench.Snapshot.Goldens
