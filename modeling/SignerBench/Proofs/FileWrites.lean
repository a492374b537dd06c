import SignerBench.Files.Access
import SignerBench.Proofs.Attempt
import SignerBench.Proofs.Directories
import SignerBench.Proofs.FilePath
import SignerBench.Proofs.Results

namespace SignerBench.Files

variable {t t' : Tree} {s s' : Spot} {node : Node} {p q : Place} {names way : List String} {path name last : String}
  {content : Bytes} {r : Route}

theorem Stands.step_ok {rest : List String} (h : Stands t s) (hs : s.walk (name :: rest) = .ok s') :
    ∃ s₁, Stands t s₁ ∧ s₁.place = Files.step s.place name ∧ checkName name = .ok () ∧ s₁.walk rest = .ok s' := by
  rw [Spot.walk] at hs
  by_cases hdot : name = "."
  · rw [if_pos hdot] at hs
    exact ⟨s, h, by rw [Files.step, if_pos hdot], hdot ▸ rfl, hs⟩
  by_cases hup : name = ".."
  · rw [if_neg hdot, if_pos hup] at hs
    obtain ⟨hstands, hplace⟩ := h.up
    exact ⟨s.up, hstands, by rw [hplace, Files.step, if_neg hdot, if_pos hup], hup ▸ rfl, hs⟩
  rw [if_neg hdot, if_neg hup] at hs
  cases hname : checkName name with
  | error e => rw [hname] at hs; cases hs
  | ok =>
    rw [hname] at hs
    cases hget : s.folder.get? name with
    | none => simp [hget, bind, Except.bind] at hs
    | some node =>
      cases node with
      | file content => simp [hget, bind, Except.bind] at hs
      | dir folder =>
        refine ⟨⟨folder, (name, s.folder) :: s.around⟩, .inside h hget, ?_, rfl, ?_⟩
        · rw [Spot.place_below, Files.step, if_neg hdot, if_neg hup]
        · simpa [hget, bind, Except.bind] using hs

/-- A walk that came to its end went through directories only. The induction is on the names, with `Stands.step_ok` for
each. -/
theorem Stands.walk_ok (h : Stands t s) (hs : s.walk names = .ok s') :
    Stands t s' ∧ s'.place = names.foldl Files.step s.place ∧ Short names ∧ ∀ v ∈ visits s.place names, t.HasDir v := by
  induction names generalizing s with
  | nil =>
    cases hs
    exact ⟨h, rfl, List.forall_mem_nil _, List.forall_mem_nil _⟩
  | cons name rest ih =>
    obtain ⟨s₁, h₁, hplace, hname, hrest⟩ := h.step_ok hs
    obtain ⟨h', hplace', hshort, hdirs⟩ := ih h₁ hrest
    rw [List.foldl_cons, visits, ← hplace]
    exact ⟨h', hplace', List.forall_mem_cons.mpr ⟨hname, hshort⟩, List.forall_mem_cons.mpr ⟨⟨_, h₁.get?⟩, hdirs⟩⟩

theorem Tree.walk_ok (h : t.walk names = .ok s) :
    Stands t s ∧ s.place = walked names ∧ Short names ∧ ∀ v ∈ visits [] names, t.HasDir v := Stands.start.walk_ok h

/-- A route that ends with a name is that of a path with this name at its end. -/
theorem ofText_name (hr : Route.ofText path = .ok r) (hend : r.ending = .name last) :
    namesOf path = r.way ++ [last] ∧ Proper last ∧ r = .ofNames r.slash (r.way ++ [last]) := by
  obtain ⟨rfl, _⟩ := ofText_eq hr
  rcases List.eq_nil_or_concat (namesOf path) with hnames | ⟨way, end_, hnames⟩
  · rw [hnames] at hend
    cases hend
  · rw [List.concat_eq_append] at hnames
    rw [hnames, Route.ofNames_concat] at hend ⊢
    dsimp only at hend ⊢
    split at hend
    · cases hend
    · split at hend
      · cases hend
      · cases hend
        exact ⟨rfl, ⟨‹_›, ‹_›⟩, (Route.ofNames_concat ..).symm⟩

theorem walked_names (hr : Route.ofText path = .ok r) : walked r.names = walked (namesOf path) := by
  obtain ⟨rfl, _⟩ := ofText_eq hr
  rcases List.eq_nil_or_concat (namesOf path) with hnames | ⟨way, last, hnames⟩
  · rw [hnames]
    rfl
  · rw [hnames, List.concat_eq_append, Route.names_ofNames]

structure Wrote (path : String) (content : Bytes) (t t' : Tree) (way : List String) (last : String) : Prop where
  route : Route.ofText path = .ok (.ofNames false (way ++ [last]))
  names : namesOf path = way ++ [last]
  proper : Proper last
  short : Short (way ++ [last])
  there : ∀ v ∈ visits [] way, t.HasDir v
  missing : ¬ t.HasDir (walked way ++ [last])
  edited : Edited t t' (walked way ++ [last]) (some (.file content))

theorem write_ok (h : t.write path content = .ok t') : ∃ way last, Wrote path content t t' way last := by
  obtain ⟨r, hr, h⟩ := ok_of_bind h
  obtain ⟨s, hw, h⟩ := ok_of_bind h
  obtain ⟨hs, hplace, hshort, hthere⟩ := Tree.walk_ok hw
  cases hend : r.ending with
  | here => rw [hend] at h; cases h
  | up => rw [hend] at h; cases h
  | name last =>
    obtain ⟨hnames, hproper, hroute⟩ := ofText_name hr hend
    rw [hend] at h
    cases hslash : r.slash with
    | true => rw [hslash] at h; cases h
    | false =>
      rw [hslash] at h hroute
      obtain ⟨_, hlast, h⟩ := ok_of_bind h
      have hmissing : ¬ t.HasDir (walked r.way ++ [last]) := by
        rintro ⟨folder, hfolder⟩
        rw [← hplace, hs.get?_name] at hfolder
        rw [hfolder] at h
        cases h
      have ht : s.replace (s.folder.set last (.file content)) = t' := by
        split at h
        · cases h
        · exact Except.ok.inj h
      have hedit := edited_set hs last (.file content)
      rw [hplace, ht] at hedit
      exact ⟨r.way, last, hroute ▸ hr, hnames, hproper,
        List.forall_mem_append.mpr ⟨hshort, List.forall_mem_singleton.mpr hlast⟩, hthere, hmissing, hedit⟩

/-- A change that succeeds is the one that was asked for, as a failing one keeps the tree and gives an error. -/
theorem ok_of_change {r : Except OsError Tree} (h : t.change r = (.ok (), t')) : r = .ok t' := by
  cases r with
  | error e => cases h
  | ok made =>
    cases h
    rfl

theorem write_of_on {scratch : String}
    (h : (Access.write path content).on (Tree.reply scratch) t = (.ok (), t')) : t.write path content = .ok t' :=
  ok_of_change h

/-- A write can turn no directory of its way into a file. -/
theorem Wrote.still_there (h : Wrote path content t t' way last) : ∀ v ∈ visits [] way, t'.HasDir v :=
  fun v hv => h.edited.keeps_dirs h.missing (h.there v hv)

/-- What was written is read back. -/
theorem read_write (h : t.write path content = .ok t') : t'.read path = .ok content := by
  obtain ⟨way, last, wrote⟩ := write_ok h
  exact read_there wrote.route wrote.proper wrote.short wrote.still_there wrote.edited.get?_self

/-- Files beside the one that is written stay as they were. -/
theorem read_write_beside {dir other : String} {old : Bytes} (plain : Plain name) (plain' : Plain other)
    (ne : other ≠ name) (h : t.write (join dir other) old = .ok t') {t'' : Tree}
    (h' : t'.write (join dir name) content = .ok t'') : t''.read (join dir other) = .ok old := by
  obtain ⟨way, last, wrote⟩ := write_ok h
  obtain ⟨way', last', wrote'⟩ := write_ok h'
  have hnames := wrote.names
  have hnames' := wrote'.names
  rw [namesOf_join dir plain', List.append_singleton_inj] at hnames
  rw [namesOf_join dir plain, List.append_singleton_inj] at hnames'
  obtain ⟨rfl, rfl⟩ := hnames
  obtain ⟨rfl, rfl⟩ := hnames'
  have hside : ¬ walked (namesOf dir) ++ [other] <+: walked (namesOf dir) ++ [name] := by
    simp [List.prefix_append_right_inj, ne]
  have hside' : ¬ walked (namesOf dir) ++ [name] <+: walked (namesOf dir) ++ [other] := by
    simp [List.prefix_append_right_inj, ne.symm]
  refine read_there wrote.route wrote.proper wrote.short wrote'.still_there ?_
  rw [wrote'.edited.apart _ hside hside', wrote.edited.get?_self]

variable {slash : Bool}

theorem short_concat (h : Short way) (hlast : checkName last = .ok ()) : Short (way ++ [last]) :=
  List.forall_mem_append.mpr ⟨h, List.forall_mem_singleton.mpr hlast⟩

/-- A directory is made only where there was nothing at all. -/
theorem makeDir_ok (h : t.makeDir (.ofNames slash names) = .ok t') :
    Short names ∧ t.get? (walked names) = none ∧ Edited t t' (walked names) (some (.dir .nil)) := by
  rcases List.eq_nil_or_concat names with rfl | ⟨way, last, rfl⟩
  · cases h
  rw [List.concat_eq_append] at h ⊢
  obtain ⟨s, hw, h⟩ := ok_of_bind h
  rw [Route.ofNames_concat] at hw h
  obtain ⟨hs, hplace, hshort, _⟩ := Tree.walk_ok hw
  by_cases hdot : last = "."
  · rw [if_pos hdot] at h
    cases h
  by_cases hup : last = ".."
  · rw [if_neg hdot, if_pos hup] at h
    cases h
  rw [if_neg hdot, if_neg hup] at h
  obtain ⟨_, hlast, h⟩ := ok_of_bind h
  have hedit := edited_set hs last (.dir .nil)
  rw [hplace] at hedit
  rw [walked_proper way ⟨hdot, hup⟩]
  split at h
  case h_1 => cases h
  case h_2 hnone =>
    cases h
    exact ⟨short_concat hshort hlast, by rw [← hplace, hs.get?_name, hnone], hedit⟩

/-- Whether it succeeds or not, one directory at most is new, and that is the last of the names. -/
theorem settle_apart (outside : ¬ q <+: walked names) : (t.settle (.ofNames slash names)).2.get? q = t.get? q := by
  rw [Tree.settle]
  split
  case h_2 => rfl
  case h_1 made hmake =>
    obtain ⟨_, hnone, hedit⟩ := makeDir_ok hmake
    by_cases hbelow : walked names <+: q
    · obtain ⟨rest, rfl⟩ := hbelow
      cases rest with
      | nil =>
        rw [List.append_nil] at outside
        exact absurd (List.prefix_refl _) outside
      | cons name rest =>
        rw [Tree.get?_append t, hnone]
        exact hedit.inside (name :: rest)
    · exact hedit.apart q outside hbelow

theorem makeDirs_apart (slash : Bool) (names parents : List String) (last : ¬ q <+: walked names)
    (above : ∀ v ∈ visits [] parents.reverse, ¬ q <+: v) :
    (t.makeDirs (.ofNames slash names) parents).2.get? q = t.get? q := by
  induction parents generalizing slash names with
  | nil => exact settle_apart last
  | cons name outer ih =>
    rw [List.reverse_cons] at above
    have hmade := ih false (outer.reverse ++ [name]) (above _ (visits_last outer.reverse name))
      fun v hv => above v (visits_front hv name)
    rw [Tree.makeDirs, List.reverse_cons]
    split
    case h_2 => exact settle_apart last
    case h_1 =>
      split
      case h_1 made hmake =>
        rw [hmake] at hmade
        exact (settle_apart last).trans hmade
      case h_2 => exact hmade

/-- The directories above the last one are on the way to it. -/
theorem visits_parents (slash : Bool) (front : List String) (last : String) :
    ∀ v ∈ visits [] (Route.ofNames slash (front ++ [last])).parents.reverse, v ∈ visits [] (front ++ [last]) := by
  intro v hv
  rw [Route.parents, Route.names_ofNames, List.reverse_reverse] at hv
  obtain ⟨rest, hrest⟩ := List.dropLast_prefix ((front ++ [last]).filter (· ≠ "."))
  refine (visits_filter (front ++ [last]) []).1 v ?_
  rw [← hrest, visits_append]
  exact List.mem_append_left _ hv

/-- Making directories changes nothing but what the way to them leads to. -/
theorem createDirs_apart (outside : ∀ v ∈ visits [] (namesOf path), ¬ q <+: v) :
    (t.createDirs path).2.get? q = t.get? q := by
  rw [Tree.createDirs]
  split
  case isTrue => rfl
  case isFalse =>
    split
    case h_2 => rfl
    case h_1 r hr =>
      obtain ⟨rfl, _⟩ := ofText_eq hr
      rcases List.eq_nil_or_concat (namesOf path) with hnames | ⟨front, last, hnames⟩
      · rw [hnames]
        rfl
      · rw [hnames, List.concat_eq_append] at outside ⊢
        exact makeDirs_apart _ _ _ (outside _ (visits_last front last)) fun v hv =>
          outside v (visits_parents _ front last v hv)

theorem removeDir_ok (hr : Route.ofText path = .ok r) (h : t.removeDir r = .ok t') :
    r.names = namesOf path ∧ Edited t t' (walked (namesOf path)) none := by
  obtain ⟨s, hw, h⟩ := ok_of_bind h
  obtain ⟨hs, hplace, _⟩ := Tree.walk_ok hw
  cases hend : r.ending with
  | here => rw [hend] at h; cases h
  | up => rw [hend] at h; cases h
  | name last =>
    obtain ⟨hnames, hproper, hroute⟩ := ofText_name hr hend
    rw [hend] at h
    cases h
    have herase := edited_erase hs last
    rw [hplace, ← walked_proper r.way hproper, ← hnames] at herase
    exact ⟨by rw [hroute, Route.names_ofNames, hnames], herase⟩

/-- Removing a directory edits the tree at its place, if it does anything: first what is inside goes, and then it. -/
theorem removeDirs_edits {result : Except OsError Unit} (h : t.removeDirs path = (result, t')) :
    t' = t ∧ result ≠ .ok () ∨ t.HasDir (walked (namesOf path)) ∧
      ∃ node, (node = none ∨ node = some (.dir .nil)) ∧ Edited t t' (walked (namesOf path)) node := by
  unfold Tree.removeDirs at h
  dsimp only at h
  split at h
  case h_1 =>
    cases h
    exact .inl ⟨rfl, nofun⟩
  case h_2 r s hplace =>
    obtain ⟨_, hr, hplace⟩ := ok_of_bind hplace
    obtain ⟨found, _, hplace⟩ := ok_of_bind hplace
    split at hplace
    case h_2 => cases hplace
    case h_3 => cases hplace
    case h_1 folder =>
      obtain ⟨_, hw, hs⟩ := ok_of_bind hplace
      cases hs
      obtain ⟨hs, hsplace, _⟩ := Tree.walk_ok hw
      rw [walked_names hr] at hsplace
      have hempty := edited_replace hs .nil
      have hdir : t.HasDir s.place := ⟨_, hs.get?⟩
      rw [hsplace] at hempty hdir
      refine .inr ⟨hdir, ?_⟩
      split at h
      case h_1 removed hremove =>
        cases h
        exact ⟨none, .inl rfl, hempty.trans (removeDir_ok hr hremove).2⟩
      case h_2 =>
        cases h
        exact ⟨_, .inr rfl, hempty⟩
      case h_3 =>
        cases h
        exact ⟨_, .inr rfl, hempty⟩

/-- Removing a directory changes nothing but what is at its place or below. -/
theorem removeDirs_apart {result : Except OsError Unit} (h : t.removeDirs path = (result, t'))
    (above : ¬ q <+: walked (namesOf path)) (below : ¬ walked (namesOf path) <+: q) : t'.get? q = t.get? q := by
  rcases removeDirs_edits h with ⟨rfl, _⟩ | ⟨_, node, _, hedit⟩
  · rfl
  · exact hedit.apart q above below

theorem find_ok (h : t.find (.ofNames slash names) = .ok (some node)) :
    Short names ∧ t.get? (walked names) = some node := by
  rcases List.eq_nil_or_concat names with rfl | ⟨way, last, rfl⟩
  · cases h
    exact ⟨List.forall_mem_nil _, rfl⟩
  rw [List.concat_eq_append] at h ⊢
  obtain ⟨s, hw, h⟩ := ok_of_bind h
  rw [Route.ofNames_concat] at hw h
  obtain ⟨hs, hplace, hshort, _⟩ := Tree.walk_ok hw
  rw [walked_concat, ← hplace]
  by_cases hdot : last = "."
  · rw [if_pos hdot] at h
    cases h
    exact ⟨short_concat hshort (hdot ▸ rfl), by rw [step, if_pos hdot, hs.get?]⟩
  by_cases hup : last = ".."
  · rw [if_neg hdot, if_pos hup] at h
    cases h
    obtain ⟨hs', hplace'⟩ := hs.up
    exact ⟨short_concat hshort (hup ▸ rfl), by rw [step, if_neg hdot, if_pos hup, ← hplace', hs'.get?]⟩
  rw [if_neg hdot, if_neg hup] at h
  obtain ⟨_, hlast, h⟩ := ok_of_bind h
  rw [step, if_neg hdot, if_neg hup, hs.get?_name]
  refine ⟨short_concat hshort hlast, ?_⟩
  split at h
  case h_1 hget =>
    split at h
    · cases h
    · cases h
      exact hget
  case h_2 => exact Except.ok.inj h

theorem look_ok (hr : Route.ofText path = .ok (.ofNames false (way ++ [last]))) (proper : Proper last)
    (h : t.look path = .ok (some node)) : Short (way ++ [last]) ∧ t.get? (walked way ++ [last]) = some node := by
  rw [Tree.look, hr] at h
  rw [← walked_proper way proper]
  exact find_ok h

/-- By a way that never turns back, all directories above a place that is there are there. -/
theorem there_of_straight (straight : ".." ∉ names) (h : t.HasDir (walked names)) :
    ∀ v ∈ visits [] names, t.HasDir v := by
  intro v hv
  obtain ⟨rest, hrest⟩ := visits_prefix straight [] v hv
  rw [walked, ← hrest] at h
  exact h.above

/-- By a way that never turns back, what is at a place is seen: all directories above it are there. -/
theorem look_straight (hr : Route.ofText path = .ok (.ofNames false (way ++ [last]))) (proper : Proper last)
    (straight : ".." ∉ way) :
    t.look path = .ok (some node) ↔ Short (way ++ [last]) ∧ t.get? (walked way ++ [last]) = some node := by
  refine ⟨look_ok hr proper, ?_⟩
  rintro ⟨short, hget⟩
  have hway : t.HasDir (walked way) := Tree.hasDir_of_below hget
  rw [look_there hr proper short (there_of_straight straight hway), hget]

/-- Where the way to it is there, a directory is found, whatever the path ends with. -/
theorem find_there (slash : Bool) (short : Short names) (there : ∀ v ∈ visits [] names, t.HasDir v) :
    ∃ folder, t.find (.ofNames slash names) = .ok (some (.dir folder)) := by
  rcases List.eq_nil_or_concat names with rfl | ⟨way, last, rfl⟩
  · exact ⟨t.root, rfl⟩
  rw [List.concat_eq_append] at short there ⊢
  obtain ⟨s, hs, h, hp⟩ := t.walk_there short.ofWay fun v hv => there v (visits_front hv last)
  obtain ⟨folder, hfolder⟩ := there _ (visits_last way last)
  rw [Route.ofNames_concat, Tree.find]
  dsimp only [bind, Except.bind]
  rw [hs]
  by_cases hdot : last = "."
  · rw [if_pos hdot]
    exact ⟨_, rfl⟩
  by_cases hup : last = ".."
  · rw [if_neg hdot, if_pos hup]
    exact ⟨_, rfl⟩
  rw [walked_proper way ⟨hdot, hup⟩, ← hp, h.get?_name] at hfolder
  rw [if_neg hdot, if_neg hup]
  dsimp only
  rw [short.ofLast, hfolder]
  exact ⟨folder, rfl⟩

theorem look_dir (hr : Route.ofText path = .ok r) (short : Short (namesOf path))
    (there : ∀ v ∈ visits [] (namesOf path), t.HasDir v) {folder : Folder}
    (hfolder : t.get? (walked (namesOf path)) = some (.dir folder)) : t.look path = .ok (some (.dir folder)) := by
  obtain ⟨rfl, _⟩ := ofText_eq hr
  obtain ⟨found, hfind⟩ := find_there (path.endsWith "/") short there
  rw [(find_ok hfind).2] at hfolder
  rw [Tree.look, hr, ← hfolder]
  exact hfind

theorem isDir_of_look {folder : Folder} (h : t.look path = .ok (some (.dir folder))) : t.isDir path = true := by
  obtain ⟨r, hr, hfind⟩ := ok_of_bind h
  rw [Tree.isDir, hr]
  dsimp only
  rw [Tree.isDirAt, hfind]

theorem list_of_look {folder : Folder} (h : t.look path = .ok (some (.dir folder))) :
    t.list path = .ok folder.names := by
  rw [Tree.list, h]
  rfl

/-- By a way that never turns back a directory that is there is seen. -/
theorem isThere_straight (hr : Route.ofText path = .ok r) (straight : ".." ∉ namesOf path)
    (short : Short (namesOf path)) (h : t.HasDir (walked (namesOf path))) : t.isThere path = true := by
  have there := there_of_straight straight h
  obtain ⟨folder, hfolder⟩ := h
  rw [Tree.isThere, look_dir hr short there hfolder]

/-- All directories on a way are there if it was walked, these are kept, and its end is there. -/
theorem there_of_walked (hw : t.walk (Route.ofNames slash names).way = .ok s) (kept : ∀ v, t.HasDir v → t'.HasDir v)
    (last : t'.HasDir (walked names)) : ∀ v ∈ visits [] names, t'.HasDir v := by
  rcases List.eq_nil_or_concat names with rfl | ⟨way, name, rfl⟩
  · exact List.forall_mem_nil _
  rw [List.concat_eq_append] at hw last ⊢
  rw [Route.ofNames_concat] at hw
  obtain ⟨_, _, _, hway⟩ := Tree.walk_ok hw
  rw [visits_concat]
  exact List.forall_mem_append.mpr ⟨fun v hv => kept v (hway v hv), List.forall_mem_singleton.mpr last⟩

/-- A directory that is to be there was made, or is there already. -/
theorem settle_ok (h : t.settle (.ofNames slash names) = (.ok (), t')) :
    Short names ∧ t'.HasDir (walked names) ∧ ∀ v ∈ visits [] names, t'.HasDir v := by
  rw [Tree.settle] at h
  split at h
  case h_1 made hmake =>
    cases h
    obtain ⟨hshort, hnone, hedit⟩ := makeDir_ok hmake
    obtain ⟨s, hw, _⟩ := ok_of_bind hmake
    have hdir : t'.HasDir (walked names) := ⟨_, hedit.get?_self⟩
    have hmissing : ¬ t.HasDir (walked names) := by
      rintro ⟨folder, hfolder⟩
      rw [hnone] at hfolder
      cases hfolder
    exact ⟨hshort, hdir, there_of_walked hw (fun v => hedit.keeps_dirs hmissing) hdir⟩
  case h_2 e hmake =>
    obtain ⟨hat, rfl⟩ := Prod.mk.inj h
    have hfound : t.isDirAt (.ofNames slash names) = true := by
      by_contra hno
      rw [if_neg hno] at hat
      cases hat
    rw [Tree.isDirAt] at hfound
    split at hfound
    case h_1 folder hfind =>
      obtain ⟨hshort, hget⟩ := find_ok hfind
      obtain ⟨s, hw, _⟩ := ok_of_bind hfind
      have hdir : t.HasDir (walked names) := ⟨folder, hget⟩
      exact ⟨hshort, hdir, there_of_walked hw (fun _ => id) hdir⟩
    case h_2 => cases hfound

/-- After a success the whole way is there, also where it turns back. The empty path is left out, as it is taken for a
directory that is there. -/
theorem createDirs_ok (nonempty : path ≠ "") (h : t.createDirs path = (.ok (), t')) :
    (∃ r, Route.ofText path = .ok r) ∧ Short (namesOf path) ∧ t'.HasDir (walked (namesOf path)) ∧
      ∀ v ∈ visits [] (namesOf path), t'.HasDir v := by
  rw [Tree.createDirs, if_neg nonempty] at h
  split at h
  case h_2 => cases h
  case h_1 r hr =>
    have hsettled : ∀ ps, t.makeDirs r ps = (.ok (), t') → ∃ t₁ : Tree, t₁.settle r = (.ok (), t') := by
      intro ps hmakes
      cases ps with
      | nil => exact ⟨t, hmakes⟩
      | cons name outer =>
        rw [Tree.makeDirs] at hmakes
        split at hmakes
        · split at hmakes
          · exact ⟨_, hmakes⟩
          · rename_i failed
            exact absurd hmakes (failed _)
        · exact ⟨t, hmakes⟩
    obtain ⟨t₁, hsettle⟩ := hsettled r.parents h
    rw [(ofText_eq hr).1] at hsettle
    exact ⟨⟨r, hr⟩, settle_ok hsettle⟩

end SignerBench.Files
