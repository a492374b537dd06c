import SignerBench.Proofs.GoldenSets

namespace SignerBench.Snapshot.Goldens

open Files

variable {t t' : Tree} {env : Environment} {scratch base name kind : String} {names : List String}

def Taken (path : String) : Prop := ∃ r, Route.ofText path = .ok r ∧ Short r.names

def setDir (base kind name : String) : String := join (join base kind) name

instance (names : List String) : Decidable (Short names) :=
  inferInstanceAs (Decidable (∀ name ∈ names, checkName name = .ok ()))

instance (path : String) : Decidable (Taken path) :=
  match h : Route.ofText path with
  | .ok r => decidable_of_iff (Short r.names) ⟨fun hs => ⟨r, h, hs⟩, by
      rintro ⟨_, hr, hs⟩
      cases h.symm.trans hr
      exact hs⟩
  | .error _ => .isFalse (by
      rintro ⟨_, hr, _⟩
      cases h.symm.trans hr)

theorem namesOf_setDir (base : String) (kindPlain : Plain kind) (plain : Plain name) :
    namesOf (setDir base kind name) = namesOf base ++ [kind] ++ [name] := by
  rw [setDir, namesOf_join _ plain, namesOf_join _ kindPlain]

/-- With one file that has to fit, the directory fits too: its path is a part of the path of the file. -/
theorem shelf_of_taken {count : Nat} (kindPlain : Plain kind) (plain : Plain name) (proper : Proper name)
    (nonempty : 0 < count) (taken : ∀ i < count, Taken (join (setDir base kind name) (fileName i))) :
    Shelf (setDir base kind name) (namesOf base ++ [kind]) name count := by
  have hnames := namesOf_setDir base kindPlain plain
  have hfile (i : Nat) (hi : i < count) :
      Route.ofText (join (setDir base kind name) (fileName i)) =
          .ok (.ofNames false (namesOf base ++ [kind] ++ [name] ++ [fileName i])) ∧
        Short (namesOf base ++ [kind] ++ [name] ++ [fileName i]) := by
    obtain ⟨r, hr, hshort⟩ := taken i hi
    have hroute := (ofText_eq hr).1
    rw [endsWith_join _ (fileName_plain i), namesOf_join _ (fileName_plain i), hnames] at hroute
    rw [hroute] at hr hshort
    rw [Route.names_ofNames] at hshort
    exact ⟨hr, hshort⟩
  have hdir : setDir base kind name ≠ "" := join_ne_empty _ plain
  obtain ⟨r, hr, _⟩ := taken 0 nonempty
  refine ⟨?_, proper, (hfile 0 nonempty).2.ofWay, hfile⟩
  rw [ofText_of_join (fileName_plain 0) hdir hr, setDir, endsWith_join _ plain, ← setDir, hnames]

theorem walked_set (names : List String) (kindProper : Proper kind) (proper : Proper name) :
    walked (names ++ [kind] ++ [name]) = walked names ++ [kind] ++ [name] := by
  rw [walked_proper _ proper, walked_proper _ kindProper]

/-- A way to a base that leads through nothing below a set leads through nothing there on its way to any set. -/
theorem outside_sets {kind' : String} (kindProper : Proper kind) (kindProper' : Proper kind') (proper : Proper name)
    (outside : ∀ v ∈ visits [] names,
      walked (names ++ [kind] ++ [name]) <+: v → walked (names ++ [kind] ++ [name]) = v) :
    ∀ v ∈ visits [] (names ++ [kind'] ++ [name]),
      walked (names ++ [kind] ++ [name]) <+: v → walked (names ++ [kind] ++ [name]) = v := by
  intro v hv hp
  rw [visits_concat, visits_concat, List.append_assoc] at hv
  rcases List.mem_append.mp hv with hv | hv
  · exact outside v hv hp
  · refine hp.eq_of_length_le ?_
    rw [walked_set names kindProper' proper, walked_proper names kindProper'] at hv
    rw [walked_set names kindProper proper]
    rcases List.mem_cons.mp hv with rfl | hv
    · simp
    · rw [List.mem_singleton.mp hv]
      simp

theorem sets_apart {kind' : String} (kindProper : Proper kind) (kindProper' : Proper kind') (proper : Proper name)
    (ne : kind ≠ kind') : ¬ walked (names ++ [kind] ++ [name]) <+: walked (names ++ [kind'] ++ [name]) := by
  rw [walked_set names kindProper proper, walked_set names kindProper' proper]
  simp [List.prefix_append_right_inj, List.append_assoc, ne]

/-- With a base and a set in it, all on the way to the set is there. -/
theorem there_of_base (kindProper : Proper kind) (proper : Proper name)
    (hbase : ∀ v ∈ visits [] names, t.HasDir v) (hset : t.HasDir (walked (names ++ [kind] ++ [name]))) :
    ∀ v ∈ visits [] (names ++ [kind] ++ [name]), t.HasDir v := by
  intro v hv
  rw [visits_concat, visits_concat] at hv
  rcases List.mem_append.mp hv with hv | hv
  · rcases List.mem_append.mp hv with hv | hv
    · exact hbase v hv
    · rw [walked_set names kindProper proper] at hset
      rw [List.mem_singleton.mp hv, walked_proper names kindProper]
      exact hset.above
  · exact List.mem_singleton.mp hv ▸ hset

theorem visits_base {v : Place} (hv : v ∈ visits [] names) (kind name : String) :
    v ∈ visits [] (names ++ [kind] ++ [name]) :=
  visits_front (visits_front hv kind) name

theorem plain_captured : Plain "snapshots-tmp" := ⟨by decide, by decide⟩

theorem plain_golden : Plain "snapshots" := ⟨by decide, by decide⟩

theorem proper_captured : Proper "snapshots-tmp" := ⟨by decide, by decide⟩

theorem proper_golden : Proper "snapshots" := ⟨by decide, by decide⟩

/-- No file stands where a directory should be. -/
def Unblocked (t : Tree) (base name : String) : Prop :=
  ∀ dir ∈ [capturedDir base name, goldenDir base name], ∀ v ∈ visits [] (namesOf dir), ¬ t.HasFile v

instance (t : Tree) (base name : String) : Decidable (Unblocked t base name) :=
  inferInstanceAs (Decidable (∀ dir ∈ _, ∀ v ∈ visits [] (namesOf dir), ¬ t.HasFile v))

theorem unblocked_empty (base name : String) : Unblocked ⟨.nil⟩ base name := by
  rintro dir _ v _ ⟨content, hcontent⟩
  cases v <;> cases hcontent

/-- A base directory and a name of sets in it, which a tree has room for. -/
structure Usable (t : Tree) (base name : String) : Prop where
  plain : Plain name
  proper : Proper name
  clear : Unblocked t base name
  /-- The base is not reached by way of what is in its own sets. -/
  outside : ∀ dir ∈ [capturedDir base name, goldenDir base name], ∀ v ∈ visits [] (namesOf base),
    walked (namesOf dir) <+: v → walked (namesOf dir) = v
  /-- A set that was captured before is seen, so the way to the base is there. -/
  reached : t.HasDir (walked (namesOf (capturedDir base name))) → ∀ v ∈ visits [] (namesOf base), t.HasDir v

/-- A base that is reached without turning back serves wherever no file stands in the way. -/
theorem usable_of_straight (plain : Plain name) (proper : Proper name) (straight : ".." ∉ namesOf base)
    (clear : Unblocked t base name) : Usable t base name := by
  have hbase := visits_prefix straight []
  have hset {kind : String} (kindPlain : Plain kind) (kindProper : Proper kind) :
      walked (namesOf (setDir base kind name)) = (namesOf base).foldl step [] ++ [kind] ++ [name] := by
    rw [namesOf_setDir base kindPlain plain, walked_set _ kindProper proper, walked]
  have houtside {kind : String} (kindPlain : Plain kind) (kindProper : Proper kind) :
      ∀ v ∈ visits [] (namesOf base), ¬ walked (namesOf (setDir base kind name)) <+: v := by
    intro v hv hp
    have hlen := (hp.trans (hbase v hv)).length_le
    rw [hset kindPlain kindProper, List.length_append, List.length_append, List.length_singleton,
      List.length_singleton] at hlen
    omega
  refine ⟨plain, proper, clear, ?_, ?_⟩
  · intro dir hdir v hv hp
    rcases List.mem_pair.mp hdir with rfl | rfl
    · exact absurd hp (houtside plain_captured proper_captured v hv)
    · exact absurd hp (houtside plain_golden proper_golden v hv)
  · intro hdir v hv
    obtain ⟨rest, hrest⟩ := hbase v hv
    have hplace := hset plain_captured proper_captured
    rw [← hrest, List.append_assoc, List.append_assoc] at hplace
    rw [capturedDir, ← setDir, hplace] at hdir
    exact hdir.above

structure Stored (t : Tree) (base name : String) (snapshots : List Snapshot) : Prop where
  captured : t.get? (walked (namesOf base ++ ["snapshots-tmp"] ++ [name])) =
    some (.dir (folderOf (filesFrom 0 snapshots)))
  goldens : t.get? (walked (namesOf base ++ ["snapshots"] ++ [name])) =
    some (.dir (folderOf (filesFrom 0 snapshots)))
  there : ∀ v ∈ visits [] (namesOf base), t.HasDir v

theorem Usable.namesOf_captured (h : Usable t base name) :
    namesOf (capturedDir base name) = namesOf base ++ ["snapshots-tmp"] ++ [name] :=
  namesOf_setDir base plain_captured h.plain

theorem Usable.namesOf_golden (h : Usable t base name) :
    namesOf (goldenDir base name) = namesOf base ++ ["snapshots"] ++ [name] :=
  namesOf_setDir base plain_golden h.plain

/-- The way to the base may turn back, but not by way of the set that is to be removed. -/
theorem Usable.outside_captured (h : Usable t base name) : ∀ v ∈ visits [] (namesOf base),
    walked (namesOf base ++ ["snapshots-tmp"] ++ [name]) <+: v →
      walked (namesOf base ++ ["snapshots-tmp"] ++ [name]) = v := by
  rw [← h.namesOf_captured]
  exact h.outside _ (by simp)

theorem Usable.outside_golden (h : Usable t base name) : ∀ v ∈ visits [] (namesOf base),
    walked (namesOf base ++ ["snapshots"] ++ [name]) <+: v →
      walked (namesOf base ++ ["snapshots"] ++ [name]) = v := by
  rw [← h.namesOf_golden]
  exact h.outside _ (by simp)

/-- What is outside of a set on the way to it. -/
theorem outside_way {v : Place} {place : Place}
    (h : ∀ v ∈ visits [] (names ++ [kind] ++ [name]), place <+: v → place = v)
    (hv : v ∈ visits [] (names ++ [kind])) : place <+: v → place = v :=
  h v (visits_front hv name)

section

variable {captured goldens : List Snapshot} {e : OsError} {t₁ t₂ : Tree}

theorem compare_unwritten
    (hwrite : (writeSet (capturedDir base name) captured).on (Tree.reply scratch) t = (.error e, t')) :
    (compare env base name captured).on (Tree.reply scratch) t = (.error (.files e), t') := by
  rw [compare, compareBy_on, hwrite]

/-- With an update neither the goldens nor the captured pictures are looked at. -/
theorem compare_updating (update : updateRequested env = true)
    (hwrite : (writeSet (capturedDir base name) captured).on (Tree.reply scratch) t = (.ok (), t₁)) :
    (compare env base name captured).on (Tree.reply scratch) t =
      Attempt.on (Tree.reply scratch) (ExceptT.adapt Error.files (writeSet (goldenDir base name) captured)) t₁ := by
  rw [compare, compareBy_on, hwrite]
  exact if_pos update

/-- Goldens that cannot be read are an error of their own, and no mismatch. -/
theorem compare_unread (noUpdate : updateRequested env = false)
    (hwrite : (writeSet (capturedDir base name) captured).on (Tree.reply scratch) t = (.ok (), t₁))
    (hread : (readSet (goldenDir base name)).on (Tree.reply scratch) t₁ = (.error e, t₂)) :
    (compare env base name captured).on (Tree.reply scratch) t = (.error (.files e), t₂) := by
  simp only [compare, compareBy_on, hwrite, noUpdate, hread, Bool.false_eq_true, if_false]

/-- The verdict decides how a comparison without an update ends. A reason is told with the report, if there is one. -/
theorem compare_on (noUpdate : updateRequested env = false)
    (hwrite : (writeSet (capturedDir base name) captured).on (Tree.reply scratch) t = (.ok (), t₁))
    (hread : (readSet (goldenDir base name)).on (Tree.reply scratch) t₁ = (.ok goldens, t₂)) :
    (compare env base name captured).on (Tree.reply scratch) t =
      match verdict (goldenDir base name) captured goldens with
      | none => (.ok (), t₂)
      | some reason =>
        let run := (writeReport env (report name reason captured goldens)).on (Tree.reply scratch) t₂
        (.error (.mismatch ⟨name, reason, run.1.toOption⟩), run.2) := by
  simp only [compare, compareBy_on, hwrite, noUpdate, hread, Bool.false_eq_true, if_false]
  rfl

end

theorem update_on (scratch : String) {snapshots : List Snapshot} {count : Nat} (usable : Usable t base name)
    (captured : Shelf (capturedDir base name) (namesOf base ++ ["snapshots-tmp"]) name count)
    (golden : Shelf (goldenDir base name) (namesOf base ++ ["snapshots"]) name count)
    (hcount : snapshots.length ≤ count) (update : updateRequested env = true) :
    ∃ t', (compare env base name snapshots).on (Tree.reply scratch) t = (.ok (), t') ∧
      Stored t' base name snapshots := by
  have hproper := usable.proper
  have hclearC := usable.clear _ (List.mem_cons_self)
  have hclearG := usable.clear (goldenDir base name) (by simp)
  have hreached := usable.reached
  rw [usable.namesOf_captured] at hclearC hreached
  rw [usable.namesOf_golden] at hclearG
  have houtC := fun kind' (hk : Proper kind') => outside_sets proper_captured hk hproper usable.outside_captured
  have houtG := fun kind' (hk : Proper kind') => outside_sets proper_golden hk hproper usable.outside_golden
  -- The captured set first. It leaves the way to the base behind, by which the old goldens are seen.
  obtain ⟨t₁, hrun₁, hwritten₁⟩ := writeSet_on scratch captured hclearC
    (fun v hv => outside_way (houtC _ proper_captured) hv)
    (fun hdir v hv => by
      rw [visits_concat] at hv
      rcases List.mem_append.mp hv with hv | hv
      · exact hreached hdir v hv
      · rw [walked_set _ proper_captured hproper] at hdir
        rw [List.mem_singleton.mp hv, walked_proper _ proper_captured]
        exact hdir.above) hcount
  have hbase₁ : ∀ v ∈ visits [] (namesOf base), t₁.HasDir v := fun v hv => hwritten₁.there v (visits_base hv _ _)
  -- What stands in the way to the goldens now was there before.
  have hclear₁ : ∀ v ∈ visits [] (namesOf base ++ ["snapshots"] ++ [name]), ¬ t₁.HasFile v := by
    intro v hv hfile
    by_cases hp : walked (namesOf base ++ ["snapshots-tmp"] ++ [name]) <+: v
    · obtain ⟨content, hcontent⟩ := hfile
      rw [← houtC _ proper_golden v hv hp, hwritten₁.folder] at hcontent
      cases hcontent
    · exact hclearG v hv (hwritten₁.within.files hfile hp)
  obtain ⟨t₂, hrun₂, hwritten₂⟩ := writeSet_on scratch golden hclear₁
    (fun v hv => outside_way (houtG _ proper_golden) hv)
    (fun hdir v hv => there_of_base proper_golden hproper hbase₁ hdir v
      (visits_front hv name)) hcount
  refine ⟨t₂, ?_, ?_, hwritten₂.folder, fun v hv => hwritten₂.there v (visits_base hv _ _)⟩
  · rw [compare_updating update hrun₁]
    exact Attempt.on_adapt hrun₂
  · exact hwritten₂.within.kept hwritten₁.folder (sets_apart proper_captured proper_golden hproper (by decide))
      (sets_apart proper_golden proper_captured hproper (by decide)) (houtC _ proper_golden)

/-- A comparison that has come to its goldens ends with success or with a mismatch, even if its report could not be
written. -/
theorem compare_of_goldens {captured goldens : List Snapshot} {t₁ t₂ : Tree} (noUpdate : updateRequested env = false)
    (hwrite : (writeSet (capturedDir base name) captured).on (Tree.reply scratch) t = (.ok (), t₁))
    (hread : (readSet (goldenDir base name)).on (Tree.reply scratch) t₁ = (.ok goldens, t₂)) :
    ∃ r t', (compare env base name captured).on (Tree.reply scratch) t = (r, t') ∧
      (r = .ok () ↔ verdict (goldenDir base name) captured goldens = none) ∧
      (r = .ok () ∨ ∃ m, r = .error (.mismatch m)) := by
  rw [compare_on noUpdate hwrite hread]
  cases verdict (goldenDir base name) captured goldens with
  | none => exact ⟨_, _, rfl, by simp, .inl rfl⟩
  | some reason => exact ⟨_, _, rfl, by simp, .inr ⟨_, rfl⟩⟩

/-- Storing the captured set of the second comparison leaves the goldens as they are, so it is these that it reads. -/
theorem Stored.compare_on (scratch : String) {snapshots captured : List Snapshot} {count : Nat}
    (stored : Stored t base name snapshots) (usable : Usable t' base name)
    (shelf : Shelf (capturedDir base name) (namesOf base ++ ["snapshots-tmp"]) name count)
    (golden : Shelf (goldenDir base name) (namesOf base ++ ["snapshots"]) name snapshots.length)
    (hcount : captured.length ≤ count) (nonempty : 0 < snapshots.length) (few : snapshots.length ≤ 100000)
    (noUpdate : updateRequested env = false) :
    ∃ r t'', (compare env base name captured).on (Tree.reply scratch) t = (r, t'') ∧
      (r = .ok () ↔ captured.length = snapshots.length ∧
        ∀ (i : Nat) (c s : Snapshot), captured[i]? = some c → snapshots[i]? = some s → c.samePixels s = true) ∧
      (r = .ok () ∨ ∃ m, r = .error (.mismatch m)) := by
  have hproper := usable.proper
  have houtC := outside_sets proper_captured proper_captured hproper usable.outside_captured
  have houtG := outside_sets proper_golden proper_captured hproper usable.outside_golden
  have hthereC := there_of_base proper_captured hproper stored.there ⟨_, stored.captured⟩
  -- Writing the captured set changes nothing that is not inside of it, so the goldens are still there.
  obtain ⟨t₁, hwrite, hwritten⟩ := writeSet_on scratch shelf (fun v hv => (hthereC v hv).not_file)
    (fun v hv => outside_way houtC hv)
    (fun _ v hv => hthereC v (visits_front hv name)) hcount
  have hgoldens := hwritten.within.kept stored.goldens (sets_apart proper_golden proper_captured hproper (by decide))
    (sets_apart proper_captured proper_golden hproper (by decide)) houtG
  have hthereG := there_of_base proper_golden hproper
    (fun v hv => hwritten.there v (visits_base hv _ _)) ⟨_, hgoldens⟩
  have hread := readSet_held scratch (held_of_folder golden hthereG hgoldens (Nat.le_refl _) few)
  obtain ⟨r, t'', hrun, hok, hends⟩ := compare_of_goldens noUpdate hwrite hread
  refine ⟨r, t'', hrun, hok.trans (verdict_none_iff.trans ?_), hends⟩
  exact and_iff_right (List.length_pos_iff.mp nonempty)

/-- A directory holds the files of a set, and nothing else. -/
def Holds (t : Tree) (dir : String) (snapshots : List Snapshot) : Prop :=
  ∃ folder, t.look dir = .ok (some (.dir folder)) ∧
    folder.contents = snapshots.zipIdx.map fun (s, index) => ([fileName index], some s.png)

theorem holds_of_folder {dir : String} {way : List String} {last : String} {count : Nat} {snapshots : List Snapshot}
    (shelf : Shelf dir way last count) (there : ∀ v ∈ visits [] (way ++ [last]), t.HasDir v)
    (hfolder : t.get? (walked (way ++ [last])) = some (.dir (folderOf (filesFrom 0 snapshots)))) :
    Holds t dir snapshots := by
  rw [walked_proper way shelf.proper] at hfolder
  refine ⟨folderOf (filesFrom 0 snapshots), ?_, ?_⟩
  · rw [look_there shelf.route shelf.proper shelf.short fun v hv =>
      there v (visits_front hv last), hfolder]
  · rw [contents_folderOf, filesFrom, List.map_map]
    rfl

/-- A set that is stored as the goldens is stored alone, and is what later sets are compared with. Trees are those of
directories and regular files, without symbolic links. The goldens may be there already, of whatever number. -/
theorem update_then_compare (usable : Usable t base name) {snapshots : List Snapshot}
    (nonempty : 0 < snapshots.length) (few : snapshots.length ≤ 100000)
    (taken : ∀ dir ∈ [capturedDir base name, goldenDir base name], ∀ i < snapshots.length,
      Taken (join dir (fileName i))) (update : updateRequested env = true) :
    ∃ t', (compare env base name snapshots).on (Tree.reply scratch) t = (.ok (), t') ∧
      Holds t' (capturedDir base name) snapshots ∧ Holds t' (goldenDir base name) snapshots ∧
      ∀ (env' : Environment) (scratch' : String) (captured : List Snapshot), updateRequested env' = false →
        (∀ i < captured.length, Taken (join (capturedDir base name) (fileName i))) →
        ∃ r t'', (compare env' base name captured).on (Tree.reply scratch') t' = (r, t'') ∧
          (r = .ok () ↔ captured.length = snapshots.length ∧ ∀ (i : Nat) (c s : Snapshot),
            captured[i]? = some c → snapshots[i]? = some s → c.samePixels s = true) ∧
          (r = .ok () ∨ ∃ m, r = .error (.mismatch m)) := by
  have htakenC := taken _ List.mem_cons_self
  have golden : Shelf (goldenDir base name) (namesOf base ++ ["snapshots"]) name snapshots.length :=
    shelf_of_taken plain_golden usable.plain usable.proper nonempty (taken (goldenDir base name) (by simp))
  have shelf : Shelf (capturedDir base name) (namesOf base ++ ["snapshots-tmp"]) name snapshots.length :=
    shelf_of_taken plain_captured usable.plain usable.proper nonempty htakenC
  obtain ⟨t', hrun, hstored⟩ := update_on scratch usable shelf golden (Nat.le_refl _) update
  refine ⟨t', hrun, ?_, ?_, fun env' scratch' captured noUpdate htaken => ?_⟩
  · exact holds_of_folder shelf
      (there_of_base proper_captured usable.proper hstored.there ⟨_, hstored.captured⟩) hstored.captured
  · exact holds_of_folder golden
      (there_of_base proper_golden usable.proper hstored.there ⟨_, hstored.goldens⟩) hstored.goldens
  · have larger : Shelf (capturedDir base name) (namesOf base ++ ["snapshots-tmp"]) name
        (max snapshots.length captured.length) := by
      refine shelf_of_taken plain_captured usable.plain usable.proper (by omega) fun i hi => ?_
      rcases Nat.lt_or_ge i snapshots.length with h | h
      · exact htakenC i h
      · exact htaken i (by omega)
    exact hstored.compare_on scratch' usable larger golden (Nat.le_max_right ..) nonempty few noUpdate

def updating : Environment := fun name => if name = "UPDATE_SNAPSHOTS" then some "1" else none

def oldGoldens : Tree :=
  let set := .cons "00000.png" (.file [1]) (.cons "00001.png" (.file [2]) (.cons "old.png" (.file [3]) .nil))
  ⟨.cons "base" (.dir (.cons "snapshots" (.dir (.cons "set" (.dir set) .nil)) .nil)) .nil⟩

/-- Two of the three goldens are left. The same pictures are accepted, and refused in the other order. -/
theorem smaller_set_stored : Usable oldGoldens "base" "set" ∧
    ∃ t', (compare updating "base" "set" [⟨[7]⟩, ⟨[8]⟩]).on (Tree.reply "scratch") oldGoldens = (.ok (), t') ∧
      Holds t' (goldenDir "base" "set") [⟨[7]⟩, ⟨[8]⟩] ∧
      (∃ t'', (compare (fun _ => none) "base" "set" [⟨[7]⟩, ⟨[8]⟩]).on (Tree.reply "scratch") t' = (.ok (), t'')) ∧
      ∃ m t'', (compare (fun _ => none) "base" "set" [⟨[8]⟩, ⟨[7]⟩]).on (Tree.reply "scratch") t' =
        (.error (.mismatch m), t'') := by
  have husable : Usable oldGoldens "base" "set" :=
    usable_of_straight ⟨by decide, by decide⟩ ⟨by decide, by decide⟩ (by decide +kernel) (by decide +kernel)
  have htaken : ∀ dir ∈ [capturedDir "base" "set", goldenDir "base" "set"],
      ∀ i < [Snapshot.mk [7], Snapshot.mk [8]].length, Taken (join dir (fileName i)) := by decide +kernel
  obtain ⟨t', hrun, _, hgolden, hcompare⟩ :=
    @update_then_compare oldGoldens updating "scratch" "base" "set" husable _ (by decide) (by decide) htaken
      (by decide)
  have hcaptured := htaken _ List.mem_cons_self
  refine ⟨husable, t', hrun, hgolden, ?_, ?_⟩
  · obtain ⟨r, t'', hrun', hok, _⟩ := hcompare (fun _ => none) "scratch" [⟨[7]⟩, ⟨[8]⟩] rfl hcaptured
    have hr : r = .ok () := hok.mpr ⟨rfl, fun i c s hc hs => by
      cases hc.symm.trans hs
      exact if_pos rfl⟩
    exact ⟨t'', hr ▸ hrun'⟩
  · obtain ⟨r, t'', hrun', hok, hends⟩ := hcompare (fun _ => none) "scratch" [⟨[8]⟩, ⟨[7]⟩] rfl hcaptured
    have hr : r ≠ .ok () := fun h => absurd ((hok.mp h).2 0 _ _ rfl rfl) (by decide +kernel)
    obtain ⟨m, hm⟩ := hends.resolve_left hr
    exact ⟨m, t'', hm ▸ hrun'⟩

def updated (base name : String) (t : Tree) : Except Error Unit × Tree :=
  (compare updating base name [⟨[7]⟩]).on (Tree.reply "scratch") t

/-- No tree holds a set under a name that is too long. -/
theorem not_holds_of_long {snapshots : List Snapshot} (kindPlain : Plain kind) (plain : Plain name)
    (proper : Proper name) (long : maxName < name.utf8ByteSize) : ¬ Holds t (setDir base kind name) snapshots := by
  rintro ⟨folder, hlook, _⟩
  rw [Tree.look] at hlook
  cases hr : Route.ofText (setDir base kind name) with
  | error e =>
    rw [hr] at hlook
    cases hlook
  | ok r =>
    have hroute := (ofText_eq hr).1
    rw [namesOf_setDir base kindPlain plain, Route.ofNames_proper _ _ proper] at hroute
    rw [hr, hroute] at hlook
    cases hw : t.walk (namesOf base ++ [kind]) with
    | error e =>
      simp [Tree.find, hw, bind, Except.bind] at hlook
    | ok s =>
      have hname : checkName name = .error .nameTooLong := if_pos long
      simp [Tree.find, hw, hname, bind, Except.bind] at hlook

def longName : String := .ofList (List.replicate (maxName + 1) 'n')

def oldCaptured : Tree :=
  let set := .cons "00000.png" (.file [1]) (.cons "00001.png" (.file [2]) .nil)
  ⟨.cons "snapshots-tmp" (.dir (.cons "set" (.dir set) .nil)) .nil⟩

def innerDir : Tree :=
  ⟨.cons "snapshots" (.dir (.cons "set" (.dir (.cons "inner" (.dir .nil) .nil)) .nil)) .nil⟩

/-- A set is not stored under a name that the system refuses. One that was captured before is not seen by way of a
missing directory, and what is left of it stays. A base that leads through a set goes with that and is made again
inside the new one. -/
theorem update_not_stored :
    (Plain longName ∧ Proper longName ∧ Unblocked ⟨.nil⟩ "base" longName ∧
      ∀ t, ¬ Holds t (goldenDir "base" longName) [⟨[7]⟩]) ∧
    (Plain "a\x00b" ∧ Proper "a\x00b" ∧ Unblocked ⟨.nil⟩ "base" "a\x00b" ∧
      (updated "base" "a\x00b" ⟨.nil⟩).1 = .error (.files .zeroInName)) ∧
    (Unblocked oldCaptured "missing/.." "set" ∧ (updated "missing/.." "set" oldCaptured).1 = .ok () ∧
      (updated "missing/.." "set" oldCaptured).2.isFile
        (join (capturedDir "missing/.." "set") "00001.png") = true) ∧
    Unblocked innerDir "snapshots/set/inner/../../.." "set" ∧
      (updated "snapshots/set/inner/../../.." "set" innerDir).1 = .ok () ∧
      (updated "snapshots/set/inner/../../.." "set" innerDir).2.isDir
        (join (goldenDir "snapshots/set/inner/../../.." "set") "inner") = true := by
  have hplain : Plain longName := ⟨by decide +kernel, by simp [longName]⟩
  have hproper : Proper longName := ⟨by decide +kernel, by decide +kernel⟩
  have hlong : maxName < longName.utf8ByteSize := by decide +kernel
  refine ⟨⟨hplain, hproper, unblocked_empty _ _, fun t => not_holds_of_long plain_golden hplain hproper hlong⟩,
    ?_, ?_, ?_⟩
  · exact ⟨⟨by decide, by decide⟩, ⟨by decide, by decide⟩, unblocked_empty _ _, by decide +kernel⟩
  · exact ⟨by decide +kernel, by decide +kernel, by decide +kernel⟩
  · exact ⟨by decide +kernel, by decide +kernel, by decide +kernel⟩

end SignerBench.Snapshot.Goldens
