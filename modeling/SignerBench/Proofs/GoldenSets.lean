import Mathlib.Data.List.Forall2
import SignerBench.Proofs.FileWrites
import SignerBench.Proofs.Numbering

namespace SignerBench.Snapshot.Goldens

open Files

variable {t t' : Tree} {scratch : String} {dir : String} {way : List String} {last : String}

/-- The folder that holds these files and nothing else. -/
def folderOf : List (String × Bytes) → Folder
  | [] => .nil
  | (name, content) :: rest => .cons name (.file content) (folderOf rest)

def filesFrom (first : Nat) (snapshots : List Snapshot) : List (String × Bytes) :=
  (snapshots.zipIdx first).map fun (s, index) => (fileName index, s.png)

theorem names_folderOf (files : List (String × Bytes)) : (folderOf files).names = files.map Prod.fst := by
  induction files with
  | nil => rfl
  | cons file rest ih => rw [folderOf, Folder.names, ih, List.map_cons]

theorem contents_folderOf (files : List (String × Bytes)) :
    (folderOf files).contents = files.map fun (name, content) => ([name], some content) := by
  induction files with
  | nil => rw [folderOf, Folder.contents, List.map_nil]
  | cons file rest ih =>
    rw [folderOf, Folder.contents, Node.contents, ih]
    rfl

theorem get?_folderOf_of_not_mem {files : List (String × Bytes)} {name : String} (h : name ∉ files.map Prod.fst) :
    (folderOf files).get? name = none := by
  induction files with
  | nil => rfl
  | cons file rest ih =>
    rw [List.map_cons, List.mem_cons, not_or] at h
    rw [folderOf, Folder.get?, if_neg (Ne.symm h.1), ih h.2]

/-- The names have to be distinct, as a folder shows the first entry of a name. -/
theorem get?_folderOf_of_mem {files : List (String × Bytes)} {name : String} {content : Bytes}
    (distinct : (files.map Prod.fst).Nodup) (h : (name, content) ∈ files) :
    (folderOf files).get? name = some (.file content) := by
  induction files with
  | nil => cases h
  | cons file rest ih =>
    rw [List.map_cons, List.nodup_cons] at distinct
    rcases List.mem_cons.mp h with rfl | h
    · rw [folderOf, Folder.get?, if_pos rfl]
    · have hne : file.1 ≠ name := by
        rintro rfl
        exact distinct.1 (List.mem_map.mpr ⟨_, h, rfl⟩)
      rw [folderOf, Folder.get?, if_neg hne, ih distinct.2 h]

theorem set_folderOf {files : List (String × Bytes)} {name : String} {content : Bytes}
    (h : name ∉ files.map Prod.fst) :
    (folderOf files).set name (.file content) = folderOf (files ++ [(name, content)]) := by
  induction files with
  | nil => rfl
  | cons file rest ih =>
    rw [List.map_cons, List.mem_cons, not_or] at h
    rw [folderOf, Folder.set, if_neg (Ne.symm h.1), ih h.2]
    rfl

theorem write_on {path : String} {content : Bytes} (h : t.write path content = .ok t') :
    (Access.write path content).on (Tree.reply scratch) t = (.ok (), t') := by
  have hon : (Access.write path content).on (Tree.reply scratch) t = t.change (t.write path content) := rfl
  rw [hon, h]
  rfl

theorem wrote_of_on {index : Nat} {content : Bytes}
    (h : (Access.write (join dir (fileName index)) content).on (Tree.reply scratch) t = (.ok (), t')) :
    Wrote (join dir (fileName index)) content t t' (namesOf dir) (fileName index) := by
  obtain ⟨way, last, wrote⟩ := write_ok (write_of_on h)
  have hnames := wrote.names
  rw [namesOf_join dir (fileName_plain index), List.append_singleton_inj] at hnames
  obtain ⟨rfl, rfl⟩ := hnames
  exact wrote

structure Shelf (dir : String) (way : List String) (last : String) (count : Nat) : Prop where
  route : Route.ofText dir = .ok (.ofNames false (way ++ [last]))
  proper : Proper last
  short : Short (way ++ [last])
  file : ∀ i < count, Route.ofText (join dir (fileName i)) = .ok (.ofNames false (way ++ [last] ++ [fileName i])) ∧
    Short (way ++ [last] ++ [fileName i])

variable {count : Nat}

theorem filesFrom_cons (first : Nat) (s : Snapshot) (rest : List Snapshot) :
    filesFrom first (s :: rest) = (fileName first, s.png) :: filesFrom (first + 1) rest := by
  rw [filesFrom, List.zipIdx_cons, List.map_cons]
  rfl

/-- A file with a fresh name comes behind those that are there. -/
theorem write_fresh {first : Nat} {done : List (String × Bytes)} {names : List String} (content : Bytes)
    (hroute : Route.ofText (join dir (fileName first)) = .ok (.ofNames false (names ++ [fileName first])))
    (hshort : Short (names ++ [fileName first])) (there : ∀ v ∈ visits [] names, t.HasDir v)
    (hfolder : t.get? (walked names) = some (.dir (folderOf done))) (fresh : fileName first ∉ done.map Prod.fst) :
    ∃ t', t.write (join dir (fileName first)) content = .ok t' ∧
      Edited t t' (walked names ++ [fileName first]) (some (.file content)) ∧
      t'.get? (walked names) = some (.dir (folderOf (done ++ [(fileName first, content)]))) := by
  have hnone := get?_folderOf_of_not_mem fresh
  obtain ⟨t', hwrite, hedit, hfolder'⟩ := write_there content hroute (fileName_proper first) hshort there hfolder
    (fun f h => by rw [hnone] at h; cases h)
  exact ⟨t', hwrite, hedit, set_folderOf fresh ▸ hfolder'⟩

/-- The names behind the first are fresh after it was written. -/
theorem fresh_behind {first : Nat} {done : List (String × Bytes)} (content : Bytes)
    (fresh : ∀ i, first ≤ i → fileName i ∉ done.map Prod.fst) :
    ∀ i, first + 1 ≤ i → fileName i ∉ (done ++ [(fileName first, content)]).map Prod.fst := by
  intro i hi hmem
  rw [List.map_append, List.mem_append] at hmem
  rcases hmem with hmem | hmem
  · exact fresh i (by omega) hmem
  · have heq := fileName_injective (List.mem_singleton.mp hmem)
    omega

/-- Writing the files of a set one after the other. The induction is on the files that are left. -/
theorem writes_on (scratch : String) (snapshots : List Snapshot) (first : Nat) (shelf : Shelf dir way last count)
    {done : List (String × Bytes)}
    (there : ∀ v ∈ visits [] (way ++ [last]), t.HasDir v)
    (hfolder : t.get? (walked (way ++ [last])) = some (.dir (folderOf done)))
    (fresh : ∀ i, first ≤ i → fileName i ∉ done.map Prod.fst) (hcount : first + snapshots.length ≤ count) :
    ∃ t', Attempt.on (Tree.reply scratch) ((snapshots.zipIdx first).forM fun (s, index) =>
        Access.write (join dir (fileName index)) s.png) t = (.ok (), t') ∧
      t'.get? (walked (way ++ [last])) = some (.dir (folderOf (done ++ filesFrom first snapshots))) ∧
      (∀ v ∈ visits [] (way ++ [last]), t'.HasDir v) ∧
      Within (walked (way ++ [last])) (visits [] (way ++ [last])) t t' := by
  induction snapshots generalizing done first t with
  | nil => exact ⟨t, rfl, by rw [hfolder]; simp [filesFrom], there, .refl _ _ t⟩
  | cons s rest ih =>
    rw [List.length_cons] at hcount
    obtain ⟨hroute, hshort⟩ := shelf.file first (by omega)
    have hfresh := fresh first (Nat.le_refl _)
    obtain ⟨t₁, hwrite, hedit, hfolder₁⟩ := write_fresh s.png hroute hshort there hfolder hfresh
    have hempty : ¬ t.HasDir (walked (way ++ [last]) ++ [fileName first]) := by
      rintro ⟨f, hf⟩
      rw [Tree.get?_append, hfolder, Option.bind_some, Node.get?_name, get?_folderOf_of_not_mem hfresh] at hf
      cases hf
    obtain ⟨t', hrun, hfolder', hthere', hwithin⟩ := ih (first + 1)
      (fun v hv => hedit.keeps_dirs hempty (there v hv)) hfolder₁ (fresh_behind s.png fresh) (by omega)
    refine ⟨t', ?_, ?_, hthere', (hedit.within (List.prefix_append ..) _).trans hwithin⟩
    · rw [List.zipIdx_cons, List.forM]
      exact (Attempt.on_bind (write_on hwrite)).trans hrun
    · rw [hfolder', filesFrom_cons, List.append_assoc]
      rfl

theorem outside_self {place : Place} {vs : List Place} (outside : ∀ v ∈ vs, place <+: v → place = v) :
    ∀ v ∈ vs ++ [place], place <+: v → place = v := by
  intro v hv hp
  rcases List.mem_append.mp hv with hv | hv
  · exact outside v hv hp
  · exact (List.mem_singleton.mp hv).symm

/-- Making room for a set: what was at its place is taken away. -/
theorem cleared_on (shelf : Shelf dir way last count) (clear : ∀ v ∈ visits [] (way ++ [last]), ¬ t.HasFile v)
    (outside : ∀ v ∈ visits [] way, walked (way ++ [last]) <+: v → walked (way ++ [last]) = v)
    (reached : t.HasDir (walked (way ++ [last])) → ∀ v ∈ visits [] way, t.HasDir v) :
    ∃ t', (t.isThere dir = true ∧ t.removeDirs dir = (.ok (), t') ∨ t.isThere dir = false ∧ t' = t) ∧
      t'.get? (walked (way ++ [last])) = none ∧
      Within (walked (way ++ [last])) (visits [] (way ++ [last])) t t' := by
  have hplace := walked_proper way shelf.proper
  rw [hplace] at outside reached ⊢
  have hfile : ¬ t.HasFile (walked way ++ [last]) := hplace ▸ clear _ (visits_last way last)
  rcases t.walk_clear shelf.short.ofWay (visits_way clear) with ⟨s, hs, h, hp, there⟩ | ⟨hmissing, v, hv, hnone⟩
  · have hlook := look_there shelf.route shelf.proper shelf.short there
    rcases t.hasDir_or _ hfile with ⟨folder, hfolder⟩ | hnone
    · have hall : ∀ v ∈ visits [] (way ++ [last]), t.HasDir v := by
        rw [visits_concat, hplace]
        exact List.forall_mem_append.mpr ⟨there, List.forall_mem_singleton.mpr ⟨folder, hfolder⟩⟩
      obtain ⟨t', hremove, hedit⟩ := removeDirs_there shelf.route shelf.proper shelf.short hall outside
      refine ⟨t', .inl ⟨?_, hremove⟩, hedit.get?_self, hedit.within (List.prefix_refl _) _⟩
      rw [Tree.isThere, hlook, hfolder]
    · refine ⟨t, .inr ⟨?_, rfl⟩, hnone, .refl _ _ t⟩
      rw [Tree.isThere, hlook, hnone]
  · refine ⟨t, .inr ⟨?_, rfl⟩, ?_, .refl _ _ t⟩
    · rw [Tree.isThere, look_of_missing shelf.route hmissing]
    · rcases t.hasDir_or _ hfile with hdir | hnone'
      · obtain ⟨folder, hfolder⟩ := reached hdir v hv
        rw [hnone] at hfolder
        cases hfolder
      · exact hnone'

/-- What a set that was written leaves in a tree. -/
structure Written (dir : String) (way : List String) (last : String) (snapshots : List Snapshot) (t t' : Tree) :
    Prop where
  folder : t'.get? (walked (way ++ [last])) = some (.dir (folderOf (filesFrom 0 snapshots)))
  there : ∀ v ∈ visits [] (way ++ [last]), t'.HasDir v
  within : Within (walked (way ++ [last])) (visits [] (way ++ [last])) t t'

/-- Whatever was at the place before, the set is written and is all there is afterwards. -/
theorem writeSet_on (scratch : String) {snapshots : List Snapshot} (shelf : Shelf dir way last count)
    (clear : ∀ v ∈ visits [] (way ++ [last]), ¬ t.HasFile v)
    (outside : ∀ v ∈ visits [] way, walked (way ++ [last]) <+: v → walked (way ++ [last]) = v)
    (reached : t.HasDir (walked (way ++ [last])) → ∀ v ∈ visits [] way, t.HasDir v)
    (hcount : snapshots.length ≤ count) :
    ∃ t', (writeSet dir snapshots).on (Tree.reply scratch) t = (.ok (), t') ∧
      Written dir way last snapshots t t' := by
  obtain ⟨t₁, hremove, hnone, hwithin₁⟩ := cleared_on shelf clear outside reached
  have hself : ∀ v ∈ visits [] (way ++ [last]), walked (way ++ [last]) <+: v → walked (way ++ [last]) = v := by
    rw [visits_concat]
    exact outside_self outside
  have hclear : ∀ v ∈ visits [] (way ++ [last]), ¬ t₁.HasFile v := by
    intro v hv hfile
    by_cases hp : walked (way ++ [last]) <+: v
    · obtain ⟨content, hcontent⟩ := hfile
      rw [← hself v hv hp, hnone] at hcontent
      cases hcontent
    · exact clear v hv (hwithin₁.files hfile hp)
  obtain ⟨t₂, hcreate, hgrows, hthere⟩ := createDirs_clear shelf.route shelf.proper.here shelf.short hclear
  have hfolder : t₂.get? (walked (way ++ [last])) = some (.dir (folderOf [])) := by
    obtain ⟨folder, hfolder⟩ := hthere _ (visits_last way last)
    rw [hfolder, hgrows.empty hnone hfolder hself]
    rfl
  obtain ⟨t', hwrite, hfolder', hthere', hwithin'⟩ :=
    writes_on scratch snapshots 0 shelf hthere hfolder (fun _ _ => List.not_mem_nil) (by omega)
  refine ⟨t', ?_, hfolder', hthere', (hwithin₁.trans (hgrows.within _)).trans hwithin'⟩
  have hcreated : (Access.createDirs dir).on (Tree.reply scratch) t₁ = (.ok (), t₂) := hcreate
  have hrest : (do
      Access.createDirs dir
      snapshots.zipIdx.forM fun (s, index) => Access.write (join dir (fileName index)) s.png :
      Access Unit).on (Tree.reply scratch) t₁ = (.ok (), t') := (Attempt.on_bind hcreated).trans hwrite
  have hasked : (Access.isThere dir).on (Tree.reply scratch) t = (.ok (t.isThere dir), t) := rfl
  unfold writeSet
  rw [Attempt.on_bind hasked]
  rcases hremove with ⟨hthere, hremove⟩ | ⟨hthere, rfl⟩
  · have hremoved : (Access.removeDirs dir).on (Tree.reply scratch) t = (.ok (), t₁) := hremove
    rw [hthere]
    exact (Attempt.on_bind hremoved).trans hrest
  · rw [hthere]
    exact hrest

/-- The steps of storing a set, when all of them succeeded. -/
theorem writeSet_ok {snapshots : List Snapshot}
    (h : (writeSet dir snapshots).on (Tree.reply scratch) t = (.ok (), t')) :
    ∃ t₁ t₂, (t.isThere dir = true ∧ t.removeDirs dir = (.ok (), t₁) ∨ t.isThere dir = false ∧ t₁ = t) ∧
      t₁.createDirs dir = (.ok (), t₂) ∧ Attempt.on (Tree.reply scratch) (snapshots.zipIdx.forM fun (s, index) =>
        Access.write (join dir (fileName index)) s.png) t₂ = (.ok (), t') := by
  unfold writeSet at h
  obtain ⟨there, _, hasked, h⟩ := Attempt.on_bind_ok h
  cases hasked
  cases hthere : t.isThere dir with
  | false =>
    rw [hthere] at h
    obtain ⟨_, t₂, hcreate, hwrites⟩ := Attempt.on_bind_ok h
    exact ⟨t, t₂, .inr ⟨rfl, rfl⟩, hcreate, hwrites⟩
  | true =>
    rw [hthere] at h
    obtain ⟨_, t₁, hremove, h⟩ := Attempt.on_bind_ok h
    obtain ⟨_, t₂, hcreate, hwrites⟩ := Attempt.on_bind_ok h
    exact ⟨t₁, t₂, .inl ⟨rfl, hremove⟩, hcreate, hwrites⟩

theorem read_on {path : String} {content : Bytes} (h : t.read path = .ok content) :
    (Access.read path).on (Tree.reply scratch) t = (.ok content, t) := by
  have hon : (Access.read path).on (Tree.reply scratch) t = (t.read path, t) := rfl
  rw [hon, h]

/-- The pictures in a directory, in the order of their paths. A directory that is missing has none. -/
inductive Held (t : Tree) (dir : String) : List Snapshot → Prop where
  | missing (absent : t.isDir dir = false) : Held t dir []
  | images {names files : List String} {goldens : List Snapshot} (present : t.isDir dir = true)
      (listed : t.list dir = .ok names) (all : files.Perm (names.filter isImage)) (sorted : files.Pairwise (· ≤ ·))
      (read : List.Forall₂ (fun file golden => t.read (join dir file) = .ok golden.png) files goldens) :
      Held t dir goldens

theorem sorted_by {α : Type} (name : α → String) (entries : List α) :
    (entries.mergeSort fun a b => decide (name a ≤ name b)).Pairwise fun a b => name a ≤ name b := by
  have htrans (a b c : α) (hab : decide (name a ≤ name b) = true) (hbc : decide (name b ≤ name c) = true) :
      decide (name a ≤ name c) = true :=
    decide_eq_true (String.le_trans (of_decide_eq_true hab) (of_decide_eq_true hbc))
  have htotal (a b : α) : (decide (name a ≤ name b) || decide (name b ≤ name a)) = true := by
    rw [Bool.or_eq_true, decide_eq_true_eq, decide_eq_true_eq]
    exact String.le_total (name a) (name b)
  exact (List.pairwise_mergeSort htrans htotal entries).imp of_decide_eq_true

/-- Two sorted arrangements of the same names are equal, so the listing does not depend on how the files came. -/
theorem sorted_unique {files names : List String} (all : files.Perm names) (sorted : files.Pairwise (· ≤ ·)) :
    names.mergeSort (fun a b => decide (a ≤ b)) = files := by
  have hperm := (List.mergeSort_perm names fun a b => decide (a ≤ b)).trans all.symm
  exact hperm.eq_of_pairwise (fun _ _ _ _ => String.le_antisymm) (sorted_by id names) sorted

theorem reads_on {files : List String} {goldens : List Snapshot}
    (read : List.Forall₂ (fun file golden => t.read (join dir file) = .ok golden.png) files goldens) :
    Attempt.on (Tree.reply scratch) (files.mapM fun file => Snapshot.mk <$> Access.read (join dir file)) t =
      (.ok goldens, t) := by
  induction read with
  | nil => rfl
  | cons hfile _ ih =>
    rw [List.mapM_cons, Attempt.on_bind (Attempt.on_map (read_on hfile)), Attempt.on_bind ih]
    rfl

theorem readSet_held (scratch : String) {goldens : List Snapshot} (held : Held t dir goldens) :
    (readSet dir).on (Tree.reply scratch) t = (.ok goldens, t) := by
  have hasked : (Access.isDir dir).on (Tree.reply scratch) t = (.ok (t.isDir dir), t) := rfl
  unfold readSet
  rw [Attempt.on_bind hasked]
  cases held with
  | missing absent =>
    rw [absent]
    rfl
  | images present listed all sorted read =>
    have hlist : (Access.list dir).on (Tree.reply scratch) t = (.ok _, t) := congrArg (·, t) listed
    rw [present, if_pos rfl, Attempt.on_bind hlist, sorted_unique all sorted]
    exact reads_on read

theorem read_ok_on {path : String} {content : Bytes}
    (h : (Access.read path).on (Tree.reply scratch) t = (.ok content, t')) : t' = t ∧ t.read path = .ok content := by
  have hon : (t.read path, t) = (.ok content, t') := h
  exact ⟨(congrArg Prod.snd hon).symm, congrArg Prod.fst hon⟩

/-- The converse of `reads_on`: what was read stands in these files. -/
theorem reads_ok {files : List String} {goldens : List Snapshot}
    (h : Attempt.on (Tree.reply scratch) (files.mapM fun file => Snapshot.mk <$> Access.read (join dir file)) t =
      (.ok goldens, t')) :
    t' = t ∧ List.Forall₂ (fun file golden => t.read (join dir file) = .ok golden.png) files goldens := by
  induction files generalizing goldens t' with
  | nil =>
    cases h
    exact ⟨rfl, .nil⟩
  | cons file rest ih =>
    rw [List.mapM_cons] at h
    obtain ⟨golden, t₁, hfile, h⟩ := Attempt.on_bind_ok h
    obtain ⟨others, t₂, hrest, h⟩ := Attempt.on_bind_ok h
    cases h
    rw [Attempt.map_eq_bind] at hfile
    obtain ⟨content, t₃, hcontent, hgolden⟩ := Attempt.on_bind_ok hfile
    cases hgolden
    obtain ⟨rfl, hread⟩ := read_ok_on hcontent
    obtain ⟨rfl, hreads⟩ := ih hrest
    exact ⟨rfl, .cons hread hreads⟩

/-- What is read of a directory are the pictures in it. -/
theorem held_of_readSet {goldens : List Snapshot} (h : (readSet dir).on (Tree.reply scratch) t = (.ok goldens, t')) :
    t' = t ∧ Held t dir goldens := by
  have hasked : (Access.isDir dir).on (Tree.reply scratch) t = (.ok (t.isDir dir), t) := rfl
  unfold readSet at h
  rw [Attempt.on_bind hasked] at h
  cases hdir : t.isDir dir with
  | false =>
    rw [hdir] at h
    cases h
    exact ⟨rfl, .missing hdir⟩
  | true =>
    rw [hdir, if_pos rfl] at h
    obtain ⟨names, t₁, hlist, h⟩ := Attempt.on_bind_ok h
    have hlisted : (t.list dir, t) = (.ok names, t₁) := hlist
    obtain ⟨hnames, rfl⟩ := Prod.mk.inj hlisted
    obtain ⟨rfl, hreads⟩ := reads_ok h
    exact ⟨rfl, .images hdir hnames (List.mergeSort_perm _ _) (sorted_by id _) hreads⟩

def namesFrom (first : Nat) (snapshots : List Snapshot) : List String := (filesFrom first snapshots).map Prod.fst

theorem namesFrom_eq (first : Nat) (snapshots : List Snapshot) :
    namesFrom first snapshots = (List.range' first snapshots.length).map fileName := by
  rw [namesFrom, filesFrom, List.map_map, ← List.zipIdx_map_snd first snapshots, List.map_map]
  rfl

theorem namesFrom_nodup (first : Nat) (snapshots : List Snapshot) : (namesFrom first snapshots).Nodup := by
  rw [namesFrom_eq, List.Nodup, List.pairwise_map]
  exact (List.pairwise_lt_range' 1).imp fun hij h => Nat.ne_of_lt hij (fileName_injective h)

/-- A directory has the files of a set and no other pictures, in whatever order it lists them. -/
structure Keeps (t : Tree) (dir : String) (snapshots : List Snapshot) : Prop where
  present : t.isDir dir = true
  listed : ∃ names, t.list dir = .ok names ∧ (names.filter isImage).Perm (namesFrom 0 snapshots)
  read : ∀ (place : Nat) (s : Snapshot), snapshots[place]? = some s → t.read (join dir (fileName place)) = .ok s.png

/-- The pictures of a set with their places, in the order of the listing. -/
theorem exists_sorted (snapshots : List Snapshot) : ∃ entries : List (Snapshot × Nat),
    entries.Perm snapshots.zipIdx ∧ entries.Pairwise fun a b => fileName a.2 < fileName b.2 := by
  have hall := List.mergeSort_perm snapshots.zipIdx fun a b => decide (fileName a.2 ≤ fileName b.2)
  have hsorted := sorted_by (fun entry : Snapshot × Nat => fileName entry.2) snapshots.zipIdx
  have hdistinct := (hall.map Prod.snd).nodup_iff.mpr (List.zipIdx_map_snd 0 snapshots ▸ List.nodup_range')
  exact ⟨_, hall, (hsorted.and (List.pairwise_map.mp hdistinct)).imp fun h => fileName_lt_of_le h.2 h.1⟩

/-- What is read of a set that is kept is all of it, in the order of the listing. -/
theorem Keeps.held {snapshots : List Snapshot} (keeps : Keeps t dir snapshots) :
    ∃ listed, Held t dir listed ∧ Arranged snapshots listed := by
  obtain ⟨names, hlist, hnames⟩ := keeps.listed
  obtain ⟨entries, hall, hsorted⟩ := exists_sorted snapshots
  have hfiles : (entries.map fun entry => fileName entry.2).Perm (names.filter isImage) := by
    refine (hall.map _).trans (.trans (.of_eq ?_) hnames.symm)
    rw [namesFrom, filesFrom, List.map_map]
    rfl
  have hnamed : (entries.map fun entry => fileName entry.2).Pairwise (· ≤ ·) :=
    List.pairwise_map.mpr (hsorted.imp String.lt_asymm)
  have hreads : List.Forall₂ (fun file (listed : Snapshot) => t.read (join dir file) = .ok listed.png)
      (entries.map fun entry => fileName entry.2) (entries.map Prod.fst) := by
    rw [List.forall₂_map_left_iff, List.forall₂_map_right_iff, List.forall₂_same]
    exact fun entry hentry => keeps.read _ _ (List.mem_zipIdx_iff_getElem?.mp (hall.mem_iff.mp hentry))
  exact ⟨entries.map Prod.fst, .images keeps.present hlist hfiles hnamed hreads, arranged_of_sorted hall hsorted⟩

/-- A directory keeps a set if it has the files in the order of their places, and the system takes their paths. -/
theorem keeps_of_folder {snapshots : List Snapshot} {r : Route} (route : Route.ofText dir = .ok r)
    (short : Short (namesOf dir)) (there : ∀ v ∈ visits [] (namesOf dir), t.HasDir v)
    (hfolder : t.get? (walked (namesOf dir)) = some (.dir (folderOf (filesFrom 0 snapshots))))
    (taken : ∀ i < snapshots.length, Route.ofText (join dir (fileName i)) =
      .ok (.ofNames false (namesOf dir ++ [fileName i])) ∧ Short (namesOf dir ++ [fileName i])) :
    Keeps t dir snapshots := by
  have hlook := look_dir route short there hfolder
  constructor
  case present => exact isDir_of_look hlook
  case listed =>
    refine ⟨namesFrom 0 snapshots, ?_, .of_eq (List.filter_eq_self.mpr fun name hname => ?_)⟩
    · rw [list_of_look hlook, names_folderOf, namesFrom]
    · rw [namesFrom_eq] at hname
      obtain ⟨index, _, rfl⟩ := List.mem_map.mp hname
      exact isImage_fileName index
  case read =>
    intro place s hs
    obtain ⟨hroute, hshort⟩ := taken place (List.getElem?_eq_some_iff.mp hs).1
    refine read_there hroute (fileName_proper place) hshort there ?_
    rw [Tree.get?_append, hfolder, Option.bind_some, Node.get?_name]
    exact get?_folderOf_of_mem (namesFrom_nodup 0 snapshots)
      (List.mem_map.mpr ⟨(s, place), List.mem_zipIdx_iff_getElem?.mpr hs, rfl⟩)

/-- Up to 100000 files the order of the names is that of the numbers, and the set is held as it was written. -/
theorem held_of_folder {snapshots : List Snapshot} (shelf : Shelf dir way last count)
    (there : ∀ v ∈ visits [] (way ++ [last]), t.HasDir v)
    (hfolder : t.get? (walked (way ++ [last])) = some (.dir (folderOf (filesFrom 0 snapshots))))
    (hcount : snapshots.length ≤ count) (few : snapshots.length ≤ 100000) : Held t dir snapshots := by
  have hroute := shelf.route
  rw [Route.ofNames_proper false way shelf.proper] at hroute
  have hnames : namesOf dir = way ++ [last] := (ofText_name hroute rfl).1
  rw [← hnames] at there hfolder
  have keeps := keeps_of_folder hroute (hnames ▸ shelf.short) there hfolder
    fun i hi => hnames ▸ shelf.file i (Nat.lt_of_lt_of_le hi hcount)
  obtain ⟨listed, held, arranged⟩ := keeps.held
  exact arranged.eq_of_few few ▸ held

theorem agreeAt_iff {captured goldens : List Snapshot} {index : Nat} :
    agreeAt captured goldens index = true ↔
      ∃ c g, captured[index]? = some c ∧ goldens[index]? = some g ∧ c.samePixels g = true := by
  unfold agreeAt agreeBy
  cases captured[index]? <;> cases goldens[index]? <;> simp

/-- No reason to fail means goldens, as many of them as captured, and the same pixels in each pair. -/
theorem verdict_none_iff {captured goldens : List Snapshot} :
    verdict dir captured goldens = none ↔ goldens ≠ [] ∧ captured.length = goldens.length ∧
      ∀ (index : Nat) (c g : Snapshot), captured[index]? = some c → goldens[index]? = some g →
        c.samePixels g = true := by
  unfold verdict verdictBy
  by_cases hempty : goldens = []
  · simp [hempty]
  by_cases hlen : goldens.length = captured.length
  · rw [if_neg hempty, if_neg (not_not_intro hlen), Option.map_eq_none_iff, List.find?_eq_none]
    constructor
    · intro h
      refine ⟨hempty, hlen.symm, fun index c g hc hg => ?_⟩
      have hindex : index ∈ places captured goldens := by
        have := (List.getElem?_eq_some_iff.mp hc).1
        rw [places, List.mem_range]
        omega
      have hagree : agreeBy samePixels captured goldens index = true := by simpa using h index hindex
      obtain ⟨c', g', hc', hg', hsame⟩ := agreeAt_iff.mp hagree
      rw [hc] at hc'
      rw [hg] at hg'
      cases hc'
      cases hg'
      exact hsame
    · rintro ⟨_, _, h⟩ index hindex
      rw [places, List.mem_range, hlen, Nat.max_self] at hindex
      have hagree : agreeBy samePixels captured goldens index = true :=
        agreeAt_iff.mpr ⟨captured[index], goldens[index], List.getElem?_eq_getElem hindex,
          List.getElem?_eq_getElem (hlen ▸ hindex), h index _ _ (List.getElem?_eq_getElem hindex)
            (List.getElem?_eq_getElem (hlen ▸ hindex))⟩
      simp [hagree]
  · rw [if_neg hempty, if_pos hlen]
    constructor
    · rintro ⟨⟩
    · rintro ⟨_, h, _⟩
      exact absurd h.symm hlen

/-- What a comparison comes to. The captured set is stored first, then goldens are stored or read, and the report comes
last. -/
theorem compareBy_on (same : Snapshot → Snapshot → Bool) (env : Environment) (scratch base name : String)
    (captured : List Snapshot) (t : Tree) :
    (compareBy same env base name captured).on (Tree.reply scratch) t =
      match (writeSet (capturedDir base name) captured).on (Tree.reply scratch) t with
      | (.error e, t₁) => (.error (.files e), t₁)
      | (.ok (), t₁) =>
        if updateRequested env = true then
          Attempt.on (Tree.reply scratch) (ExceptT.adapt Error.files (writeSet (goldenDir base name) captured)) t₁
        else
          match (readSet (goldenDir base name)).on (Tree.reply scratch) t₁ with
          | (.error e, t₂) => (.error (.files e), t₂)
          | (.ok goldens, t₂) =>
            match verdictBy same (goldenDir base name) captured goldens with
            | none => (.ok (), t₂)
            | some reason =>
              let run := (writeReport env (reportBy same name reason captured goldens)).on (Tree.reply scratch) t₂
              (.error (.mismatch ⟨name, reason, run.1.toOption⟩), run.2) := by
  unfold compareBy
  rcases stored : (writeSet (capturedDir base name) captured).on (Tree.reply scratch) t with ⟨e | _, t₁⟩
  · exact Attempt.on_bind_error (Attempt.on_adapt_error stored)
  rw [Attempt.on_bind (Attempt.on_adapt stored)]
  dsimp only
  split
  · rfl
  rcases read : (readSet (goldenDir base name)).on (Tree.reply scratch) t₁ with ⟨e | goldens, t₂⟩
  · exact Attempt.on_bind_error (Attempt.on_adapt_error read)
  rw [Attempt.on_bind (Attempt.on_adapt read)]
  dsimp only
  cases verdictBy same (goldenDir base name) captured goldens with
  | none => rfl
  | some reason => exact Attempt.on_bind Attempt.on_lift

end SignerBench.Snapshot.Goldens
