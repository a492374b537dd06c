import SignerBench.Proofs.FileTree

namespace SignerBench.Files

variable {t t' t'' : Tree} {s : Spot} {p : Place} {x y : Option Node} {vs ws : List Place}

/-- Below a place there is something else, and nothing else is changed. -/
structure Edited (t t' : Tree) (place : Place) (x : Option Node) : Prop where
  inside : ∀ q, t'.get? (place ++ q) = x.bind (Node.get? q)
  above : ∀ q, q <+: place → q ≠ place → t.HasDir q ∧ t'.HasDir q
  apart : ∀ q, ¬ q <+: place → ¬ place <+: q → t'.get? q = t.get? q

theorem Stands.hasDir (h : Stands t s) (hp : p <+: s.place) : t.HasDir p := by
  induction h with
  | start =>
    rw [Spot.place_start, List.prefix_nil] at hp
    exact hp ▸ t.hasDir_root
  | inside outer found ih =>
    rw [Spot.place_below, List.prefix_concat_iff] at hp
    rcases hp with rfl | hp
    · exact ⟨_, (Spot.place_below .. ▸ (outer.inside found).get?)⟩
    · exact ih hp

theorem edited_replace (h : Stands t s) (folder : Folder) :
    Edited t (s.replace folder) s.place (some (.dir folder)) where
  inside := get?_replace_below h folder
  above _ hq _ := ⟨h.hasDir hq, get?_replace_above h folder hq⟩
  apart _ := get?_replace_apart h folder

/-- A change of a directory at one name is a change below that name. -/
theorem edited_child {name : String} {folder : Folder} (h : Stands t s)
    (other : ∀ n, name ≠ n → folder.get? n = s.folder.get? n) :
    Edited t (s.replace folder) (s.place ++ [name]) (folder.get? name) where
  inside q := by
    rw [List.append_assoc, get?_replace_below h]
    rfl
  above q hq hne := by
    rcases List.prefix_concat_iff.mp hq with rfl | hq
    · exact absurd rfl hne
    · exact ⟨h.hasDir hq, get?_replace_above h folder hq⟩
  apart q hq hs := by
    have habove : ¬ q <+: s.place := fun h => hq (h.trans (List.prefix_append ..))
    by_cases hb : s.place <+: q
    · obtain ⟨rest, rfl⟩ := hb
      rw [get?_replace_below h, h.get?_append]
      cases rest with
      | nil => exact absurd (by simp) habove
      | cons n rest =>
        have hne : name ≠ n := by
          rintro rfl
          exact hs ⟨rest, by simp⟩
        rw [Node.get?, Node.get?, other n hne]
    · exact get?_replace_apart h folder habove hb

/-- What was below the name is gone, also where a folder was there before. -/
theorem edited_set (h : Stands t s) (name : String) (node : Node) :
    Edited t (s.replace (s.folder.set name node)) (s.place ++ [name]) (some node) := by
  have hother (n : String) (hn : name ≠ n) : (s.folder.set name node).get? n = s.folder.get? n := by
    rw [Folder.get?_set, if_neg hn]
  have hedit := edited_child h hother
  rwa [Folder.get?_set, if_pos rfl] at hedit

theorem edited_erase (h : Stands t s) (name : String) :
    Edited t (s.replace (s.folder.erase name)) (s.place ++ [name]) none := by
  have hother (n : String) (hn : name ≠ n) : (s.folder.erase name).get? n = s.folder.get? n := by
    rw [Folder.get?_erase, if_neg hn]
  have hedit := edited_child h hother
  rwa [Folder.get?_erase, if_pos rfl] at hedit

/-- The second change covers the first, as both are at one place. -/
theorem Edited.trans (h : Edited t t' p x) (h' : Edited t' t'' p y) : Edited t t'' p y where
  inside := h'.inside
  above q hq hne := ⟨(h.above q hq hne).1, (h'.above q hq hne).2⟩
  apart q hq hs := (h'.apart q hq hs).trans (h.apart q hq hs)

theorem Edited.get?_self (h : Edited t t' p x) : t'.get? p = x := by
  have hself := h.inside []
  rw [List.append_nil] at hself
  rw [hself]
  cases x <;> rfl

structure Grows (vs : List Place) (t t' : Tree) : Prop where
  kept : ∀ {q node}, t.get? q = some node → (∀ v ∈ vs, q <+: v → q = v) → t'.get? q = some node
  dirs : ∀ {q}, t.HasDir q → t'.HasDir q
  files : ∀ {q}, t'.HasFile q → t.HasFile q
  empty : ∀ {q folder}, t.get? q = none → t'.get? q = some (.dir folder) → (∀ v ∈ vs, q <+: v → q = v) →
    folder = .nil

theorem Grows.refl (vs : List Place) (t : Tree) : Grows vs t t where
  kept h _ := h
  dirs h := h
  files h := h
  empty h h' _ := by
    rw [h] at h'
    cases h'

theorem Grows.mono (h : Grows ws t t') (sub : ∀ v ∈ ws, v ∈ vs) : Grows vs t t' where
  kept hq hv := h.kept hq fun v hw => hv v (sub v hw)
  dirs := h.dirs
  files := h.files
  empty hq hq' hv := h.empty hq hq' fun v hw => hv v (sub v hw)

theorem Grows.trans (h : Grows vs t t') (h' : Grows vs t' t'') : Grows vs t t'' where
  kept hq hv := h'.kept (h.kept hq hv) hv
  dirs hq := h'.dirs (h.dirs hq)
  files hq := h.files (h'.files hq)
  empty {q folder} hq hq' hv := by
    by_cases hf : t'.HasFile q
    · obtain ⟨content, hc⟩ := h.files hf
      rw [hq] at hc
      cases hc
    · rcases t'.hasDir_or q hf with ⟨inner, hinner⟩ | hnone
      · have hkept := h'.kept hinner hv
        rw [hq'] at hkept
        cases hkept
        exact h.empty hq hinner hv
      · exact h'.empty hnone hq' hv

/-- What a directory that is made where there was nothing changes at a place: this may be the new one, or one of those
above it, and else it is as it was. -/
theorem made_cases (h : Edited t t' p (some (.dir .nil))) (missing : t.get? p = none) (q : Place) :
    (t.get? q = none ∧ t'.get? q = some (.dir .nil)) ∨ (q <+: p ∧ p ≠ q ∧ t.HasDir q ∧ t'.HasDir q) ∨
      t'.get? q = t.get? q := by
  by_cases below : p <+: q
  · obtain ⟨rest, rfl⟩ := below
    have hbefore : t.get? (p ++ rest) = none := by rw [Tree.get?_append, missing]; rfl
    cases rest with
    | nil =>
      rw [List.append_nil] at hbefore ⊢
      exact .inl ⟨hbefore, h.get?_self⟩
    | cons name rest =>
      have hinside : t'.get? (p ++ name :: rest) = none := h.inside (name :: rest)
      exact .inr (.inr (hinside.trans hbefore.symm))
  · by_cases above : q <+: p
    · have hne : p ≠ q := fun he => below (he ▸ List.prefix_refl _)
      exact .inr (.inl ⟨above, hne, h.above q above hne.symm⟩)
    · exact .inr (.inr (h.apart q above below))

/-- Making one directory where there is nothing. -/
theorem grows_of_edited (h : Edited t t' p (some (.dir .nil))) (hp : p ∈ vs) (missing : t.get? p = none) :
    Grows vs t t' := by
  have hcases := made_cases h missing
  constructor
  case kept =>
    intro q node hq hv
    rcases hcases q with ⟨hnone, _⟩ | ⟨above, hne, _⟩ | hsame
    · cases hnone.symm.trans hq
    · exact absurd (hv p hp above).symm hne
    · exact hsame.trans hq
  case dirs =>
    rintro q ⟨folder, hq⟩
    rcases hcases q with ⟨hnone, _⟩ | ⟨_, _, _, hdir⟩ | hsame
    · cases hnone.symm.trans hq
    · exact hdir
    · exact ⟨folder, hsame.trans hq⟩
  case files =>
    rintro q ⟨content, hq⟩
    rcases hcases q with ⟨_, hmade⟩ | ⟨_, _, _, hdir⟩ | hsame
    · cases hmade.symm.trans hq
    · exact absurd ⟨content, hq⟩ hdir.not_file
    · exact ⟨content, hsame.symm.trans hq⟩
  case empty =>
    intro q folder hq hq' _
    rcases hcases q with ⟨_, hmade⟩ | ⟨_, _, ⟨f, hf⟩, _⟩ | hsame
    · cases hmade.symm.trans hq'
      rfl
    · cases hf.symm.trans hq
    · cases hq.symm.trans (hsame.symm.trans hq')

theorem Route.ofNames_concat (slash : Bool) (way : List String) (last : String) :
    Route.ofNames slash (way ++ [last]) =
      ⟨way, if last = "." then .here else if last = ".." then .up else .name last, slash⟩ := by
  simp [Route.ofNames]

theorem Route.names_ofNames (slash : Bool) (way : List String) (last : String) :
    (Route.ofNames slash (way ++ [last])).names = way ++ [last] := by
  rw [Route.ofNames_concat, Route.names]
  by_cases hdot : last = "."
  · simp [hdot]
  · by_cases hup : last = ".."
    · simp [hup]
    · simp [hdot, hup]

theorem Route.parents_ofNames (slash : Bool) (way : List String) {last : String} (dot : last ≠ ".") :
    (Route.ofNames slash (way ++ [last])).parents = (way.filter (· ≠ ".")).reverse := by
  rw [Route.parents, Route.names_ofNames, List.filter_append]
  simp [dot]

variable {slash : Bool} {way : List String} {last : String}

theorem visits_way (h : ∀ v ∈ visits [] (way ++ [last]), ¬ t.HasFile v) : ∀ v ∈ visits [] way, ¬ t.HasFile v :=
  fun v hv => h v (visits_front hv last)

theorem Short.ofWay (h : Short (way ++ [last])) : Short way := fun name hname => h name (List.mem_append_left _ hname)

theorem Short.ofLast (h : Short (way ++ [last])) : checkName last = .ok () := h last (by simp)

/-- Where the way to it is there, a directory is there already, or can be made. -/
theorem makeDir_of_walk (dot : last ≠ ".") (short : Short (way ++ [last]))
    (clear : ∀ v ∈ visits [] (way ++ [last]), ¬ t.HasFile v) (hs : t.walk way = .ok s) (h : Stands t s)
    (hp : s.place = walked way) :
    (t.makeDir (.ofNames slash (way ++ [last])) = .error .alreadyThere ∧
      t.isDirAt (.ofNames slash (way ++ [last])) = true ∧ t.HasDir (walked (way ++ [last]))) ∨
    ∃ t', t.makeDir (.ofNames slash (way ++ [last])) = .ok t' ∧ Grows [walked (way ++ [last])] t t' ∧
      t'.HasDir (walked (way ++ [last])) := by
  have hclear : ¬ t.HasFile (walked (way ++ [last])) := clear _ (visits_last way last)
  rw [Route.ofNames_concat, if_neg dot]
  rw [walked_concat, step, if_neg dot, ← hp] at hclear ⊢
  by_cases hup : last = ".."
  · rw [if_pos hup, if_pos hup]
    obtain ⟨hs', hp'⟩ := h.up
    refine .inl ⟨?_, ?_, ⟨_, hp' ▸ hs'.get?⟩⟩
    · rw [Tree.makeDir, hs]
      rfl
    · rw [Tree.isDirAt, Tree.find, hs]
      rfl
  · rw [if_neg hup] at hclear
    rw [if_neg hup, if_neg hup]
    rcases t.hasDir_or _ hclear with ⟨folder, hfolder⟩ | hnone
    · have hget := h.get?_name last ▸ hfolder
      refine .inl ⟨?_, ?_, ⟨folder, hfolder⟩⟩
      · rw [Tree.makeDir, hs]
        dsimp only [bind, Except.bind]
        rw [short.ofLast, hget]
      · rw [Tree.isDirAt, Tree.find, hs]
        dsimp only [bind, Except.bind]
        rw [short.ofLast, hget]
        rfl
    · have hget := h.get?_name last ▸ hnone
      have hedit := edited_set h last (.dir .nil)
      refine .inr ⟨_, ?_, grows_of_edited hedit (List.mem_singleton_self _) hnone, ⟨_, hedit.get?_self⟩⟩
      rw [Tree.makeDir, hs]
      dsimp only [bind, Except.bind]
      rw [short.ofLast, hget]
      rfl

/-- It does not matter whether the directory was there before, as `settle` takes both for a success. -/
theorem settle_of_walk (slash : Bool) (dot : last ≠ ".") (short : Short (way ++ [last]))
    (clear : ∀ v ∈ visits [] (way ++ [last]), ¬ t.HasFile v) (there : ∀ v ∈ visits [] way, t.HasDir v) :
    ∃ t', t.settle (.ofNames slash (way ++ [last])) = (.ok (), t') ∧ Grows [walked (way ++ [last])] t t' ∧
      t'.HasDir (walked (way ++ [last])) := by
  obtain ⟨s, hs, h, hp⟩ := t.walk_there short.ofWay there
  rcases makeDir_of_walk dot short clear hs h hp with ⟨hmake, hat, hdir⟩ | ⟨t', hmake, hgrows, hdir⟩
  · exact ⟨t, by rw [Tree.settle, hmake]; simp [hat], .refl _ t, hdir⟩
  · exact ⟨t', by rw [Tree.settle, hmake], hgrows, hdir⟩

theorem step_of_dot (p : Place) : step p "." = p := if_pos rfl

/-- Steps that stay where they are lead to no other places. -/
theorem visits_filter (names : List String) (p : Place) :
    (∀ v ∈ visits p (names.filter (· ≠ ".")), v ∈ visits p names) ∧
      (∀ v ∈ visits p names, v = p ∨ v ∈ visits p (names.filter (· ≠ "."))) := by
  induction names generalizing p with
  | nil => exact ⟨fun _ h => h, fun _ h => .inr h⟩
  | cons name rest ih =>
    by_cases hdot : name = "."
    · subst hdot
      obtain ⟨hsub, hsup⟩ := ih p
      rw [List.filter_cons_of_neg (by simp), visits, step_of_dot]
      exact ⟨fun v hv => List.mem_cons_of_mem _ (hsub v hv),
        List.forall_mem_cons.mpr ⟨.inl rfl, hsup⟩⟩
    · obtain ⟨hsub, hsup⟩ := ih (step p name)
      rw [List.filter_cons_of_pos (by simp [hdot]), visits, visits]
      refine ⟨List.forall_mem_cons.mpr ⟨List.mem_cons_self, fun v hv => List.mem_cons_of_mem _ (hsub v hv)⟩, ?_⟩
      refine List.forall_mem_cons.mpr ⟨.inr List.mem_cons_self, fun v hv => .inr ?_⟩
      rcases hsup v hv with rfl | hv
      · exact List.mem_cons_self
      · exact List.mem_cons_of_mem _ hv

theorem Grows.clear (h : Grows vs t t') (clear : ∀ v ∈ ws, ¬ t.HasFile v) : ∀ v ∈ ws, ¬ t'.HasFile v :=
  fun v hv hf => clear v hv (h.files hf)

/-- Here the whole way is there afterwards, not the last directory alone. -/
theorem settle_grows (slash : Bool) (dot : last ≠ ".") (short : Short (way ++ [last]))
    (clear : ∀ v ∈ visits [] (way ++ [last]), ¬ t.HasFile v) (there : ∀ v ∈ visits [] way, t.HasDir v) :
    ∃ t', t.settle (.ofNames slash (way ++ [last])) = (.ok (), t') ∧
      Grows (visits [] (way ++ [last])) t t' ∧ ∀ v ∈ visits [] (way ++ [last]), t'.HasDir v := by
  obtain ⟨t', he, hgrows, hdir⟩ := settle_of_walk slash dot short clear there
  rw [visits_concat]
  refine ⟨t', he, hgrows.mono fun v hv => List.mem_append_right _ hv, fun v hv => ?_⟩
  rcases List.mem_append.mp hv with hv | hv
  · exact hgrows.dirs (there v hv)
  · exact List.mem_singleton.mp hv ▸ hdir

/-- A directory is not made without the one above it, so `makeDirs` has to come to that first. -/
theorem makeDir_of_missing (h : t.walk way = .error .notFound) :
    t.makeDir (.ofNames slash (way ++ [last])) = .error .notFound := by
  rw [Route.ofNames_concat, Tree.makeDir, h]
  rfl

/-- With the way to it there, a directory is made without those above it. -/
theorem makeDirs_of_walk {name : String} {outer : List String} (dot : last ≠ ".") (short : Short (way ++ [last]))
    (clear : ∀ v ∈ visits [] (way ++ [last]), ¬ t.HasFile v) (hs : t.walk way = .ok s) (h : Stands t s)
    (hp : s.place = walked way) :
    t.makeDirs (.ofNames slash (way ++ [last])) (name :: outer) = t.settle (.ofNames slash (way ++ [last])) := by
  rw [Tree.makeDirs]
  rcases makeDir_of_walk dot short clear hs h hp with ⟨hmake, _⟩ | ⟨t', hmake, _⟩
  · rw [hmake]
    rfl
  · rw [hmake]

/-- Where the way to it is missing, a directory is made behind those above it. -/
theorem makeDirs_of_missing {name : String} {outer : List String} (missing : t.walk way = .error .notFound)
    (above : t.makeDirs (.ofNames false (outer.reverse ++ [name])) outer = (.ok (), t')) :
    t.makeDirs (.ofNames slash (way ++ [last])) (name :: outer) = t'.settle (.ofNames slash (way ++ [last])) := by
  rw [Tree.makeDirs, makeDir_of_missing missing, List.reverse_cons, above]
  rfl

/-- Making a directory with those above it. The induction is on the directories above. -/
theorem makeDirs_clear (slash : Bool) (parents : List String) (dot : last ≠ ".") (short : Short (way ++ [last]))
    (clear : ∀ v ∈ visits [] (way ++ [last]), ¬ t.HasFile v)
    (above : way.filter (· ≠ ".") = parents.reverse) :
    ∃ t', t.makeDirs (.ofNames slash (way ++ [last])) parents = (.ok (), t') ∧
      Grows (visits [] (way ++ [last])) t t' ∧ ∀ v ∈ visits [] (way ++ [last]), t'.HasDir v := by
  induction parents generalizing way last slash t with
  | nil =>
    refine settle_grows slash dot short clear fun v hv => ?_
    rcases (visits_filter way []).2 v hv with rfl | hv
    · exact t.hasDir_root
    · rw [above] at hv
      cases hv
  | cons name outer ih =>
    rw [List.reverse_cons] at above
    have hsub : ∀ v ∈ visits [] (outer.reverse ++ [name]), v ∈ visits [] (way ++ [last]) := by
      intro v hv
      exact visits_front ((visits_filter way []).1 v (above ▸ hv)) last
    rcases t.walk_clear short.ofWay (visits_way clear) with ⟨s, hs, h, hp, there⟩ | ⟨hmissing, _⟩
    · rw [makeDirs_of_walk dot short clear hs h hp]
      exact settle_grows slash dot short clear there
    · have hmem : ∀ n ∈ outer.reverse ++ [name], n ∈ way ∧ n ≠ "." := by
        intro n hn
        rw [← above] at hn
        simpa using hn
      have hfilter : outer.reverse.filter (· ≠ ".") = outer.reverse :=
        List.filter_eq_self.mpr fun n hn => by simpa using (hmem n (List.mem_append_left _ hn)).2
      obtain ⟨t₁, hmakes, hgrows, hdirs⟩ := ih false (hmem name (by simp)).2 (fun n hn => short.ofWay n (hmem n hn).1)
        (fun v hv => clear v (hsub v hv)) hfilter
      have hthere : ∀ v ∈ visits [] way, t₁.HasDir v := by
        intro v hv
        rcases (visits_filter way []).2 v hv with rfl | hv
        · exact t₁.hasDir_root
        · exact hdirs v (above ▸ hv)
      obtain ⟨t', hsettle, hgrows', hdirs'⟩ := settle_grows slash dot short (hgrows.clear clear) hthere
      exact ⟨t', (makeDirs_of_missing hmissing hmakes).trans hsettle, (hgrows.mono hsub).trans hgrows', hdirs'⟩

variable {path : String}

/-- No file on the way is all that it takes. Directories may be missing from any place on, and the way may turn back
through `..`. -/
theorem createDirs_clear (hr : Route.ofText path = .ok (.ofNames slash (way ++ [last]))) (dot : last ≠ ".")
    (short : Short (way ++ [last])) (clear : ∀ v ∈ visits [] (way ++ [last]), ¬ t.HasFile v) :
    ∃ t', t.createDirs path = (.ok (), t') ∧ Grows (visits [] (way ++ [last])) t t' ∧
      ∀ v ∈ visits [] (way ++ [last]), t'.HasDir v := by
  have hpath : path ≠ "" := by
    rintro rfl
    cases hr
  rw [Tree.createDirs, if_neg hpath, hr]
  dsimp only
  rw [Route.parents_ofNames slash way dot]
  exact makeDirs_clear slash _ dot short clear (List.reverse_reverse _).symm

structure Proper (name : String) : Prop where
  here : name ≠ "."
  up : name ≠ ".."

theorem Route.ofNames_proper (slash : Bool) (way : List String) (proper : Proper last) :
    Route.ofNames slash (way ++ [last]) = ⟨way, .name last, slash⟩ := by
  rw [Route.ofNames_concat, if_neg proper.here, if_neg proper.up]

theorem walked_proper (way : List String) (proper : Proper last) : walked (way ++ [last]) = walked way ++ [last] := by
  rw [walked_concat, step, if_neg proper.here, if_neg proper.up]

/-- What a path leads to is seen if the way to it is there. -/
theorem look_of_walk (hr : Route.ofText path = .ok (.ofNames false (way ++ [last]))) (proper : Proper last)
    (short : Short (way ++ [last])) (hs : t.walk way = .ok s) (h : Stands t s) (hp : s.place = walked way) :
    t.look path = .ok (t.get? (walked way ++ [last])) := by
  rw [Tree.look, hr]
  dsimp only [bind, Except.bind]
  rw [Route.ofNames_proper false way proper, Tree.find]
  dsimp only [bind, Except.bind]
  rw [hs]
  dsimp only
  rw [short.ofLast, ← hp, h.get?_name]
  dsimp only
  split <;> rename_i hfound
  · rw [hfound]
    rfl
  · rfl

theorem look_there (hr : Route.ofText path = .ok (.ofNames false (way ++ [last]))) (proper : Proper last)
    (short : Short (way ++ [last])) (there : ∀ v ∈ visits [] way, t.HasDir v) :
    t.look path = .ok (t.get? (walked way ++ [last])) := by
  obtain ⟨s, hs, h, hp⟩ := t.walk_there short.ofWay there
  exact look_of_walk hr proper short hs h hp

/-- A missing directory on the way is told as such, not as a path with nothing at its end. -/
theorem look_of_missing (hr : Route.ofText path = .ok (.ofNames false (way ++ [last])))
    (missing : t.walk way = .error .notFound) : t.look path = .error .notFound := by
  rw [Tree.look, hr]
  dsimp only [bind, Except.bind]
  rw [Route.ofNames_concat, Tree.find, missing]
  rfl

/-- Removing a directory takes away what is below its place. The way must not lead through that. -/
theorem removeDirs_there (hr : Route.ofText path = .ok (.ofNames false (way ++ [last]))) (proper : Proper last)
    (short : Short (way ++ [last])) (there : ∀ v ∈ visits [] (way ++ [last]), t.HasDir v)
    (outside : ∀ v ∈ visits [] way, walked way ++ [last] <+: v → walked way ++ [last] = v) :
    ∃ t', t.removeDirs path = (.ok (), t') ∧ Edited t t' (walked way ++ [last]) none := by
  have hway : ∀ v ∈ visits [] way, t.HasDir v :=
    fun v hv => there v (visits_front hv last)
  obtain ⟨s, hs, h, hp⟩ := t.walk_there short there
  rw [walked_proper way proper] at hp
  have hempty := edited_replace h .nil
  rw [hp] at hempty
  have hstill : ∀ v ∈ visits [] way, (s.replace .nil).HasDir v := by
    intro v hv
    by_cases hbelow : walked way ++ [last] <+: v
    · exact ⟨_, outside v hv hbelow ▸ hempty.get?_self⟩
    · by_cases habove : v <+: walked way ++ [last]
      · exact (hempty.above v habove fun he => hbelow (he ▸ List.prefix_refl _)).2
      · obtain ⟨folder, hfolder⟩ := hway v hv
        exact ⟨folder, by rw [hempty.apart v habove hbelow, hfolder]⟩
  obtain ⟨s', hs', h', hp'⟩ := Tree.walk_there short.ofWay hstill
  have herase := edited_erase h' last
  rw [hp'] at herase
  refine ⟨_, ?_, hempty.trans herase⟩
  have hlook := look_there hr proper short hway
  rw [← hp, h.get?, Tree.look, hr] at hlook
  dsimp only [bind, Except.bind] at hlook
  rw [Tree.removeDirs, hr]
  dsimp only [bind, Except.bind]
  rw [hlook]
  dsimp only
  rw [Route.names_ofNames, hs]
  dsimp only [pure, Except.pure]
  rw [Route.ofNames_proper false way proper, Tree.removeDir]
  dsimp only [bind, Except.bind]
  rw [hs']
  rfl

/-- Writing a file into a directory that has no directory of its name. -/
theorem write_there {folder : Folder} (content : Bytes)
    (hr : Route.ofText path = .ok (.ofNames false (way ++ [last]))) (proper : Proper last)
    (short : Short (way ++ [last])) (there : ∀ v ∈ visits [] way, t.HasDir v)
    (hfolder : t.get? (walked way) = some (.dir folder)) (free : ∀ f, folder.get? last ≠ some (.dir f)) :
    ∃ t', t.write path content = .ok t' ∧ Edited t t' (walked way ++ [last]) (some (.file content)) ∧
      t'.get? (walked way) = some (.dir (folder.set last (.file content))) := by
  obtain ⟨s, hs, h, hp⟩ := t.walk_there short.ofWay there
  obtain rfl := h.folder_eq (hp ▸ hfolder)
  have hedit := edited_set h last (.file content)
  refine ⟨_, ?_, hp ▸ hedit, hp ▸ (edited_replace h _).get?_self⟩
  rw [Tree.write, hr, Route.ofNames_proper false way proper]
  dsimp only [bind, Except.bind]
  rw [hs]
  dsimp only
  rw [if_neg Bool.false_ne_true, short.ofLast]
  dsimp only
  cases hget : s.folder.get? last with
  | none => rfl
  | some node =>
    cases node with
    | file old => rfl
    | dir f => exact absurd hget (free f)

theorem read_there {content : Bytes} (hr : Route.ofText path = .ok (.ofNames false (way ++ [last])))
    (proper : Proper last) (short : Short (way ++ [last])) (there : ∀ v ∈ visits [] way, t.HasDir v)
    (hfile : t.get? (walked way ++ [last]) = some (.file content)) : t.read path = .ok content := by
  rw [Tree.read, look_there hr proper short there, hfile]
  rfl

theorem Edited.keeps_dirs (h : Edited t t' p x) (hp : ¬ t.HasDir p) {q : Place} (hq : t.HasDir q) :
    t'.HasDir q := by
  have hpq : ¬ p <+: q := by
    rintro ⟨rest, rfl⟩
    exact hp hq.above
  by_cases hqp : q <+: p
  · exact (h.above q hqp fun he => hpq (he ▸ List.prefix_refl _)).2
  · obtain ⟨folder, hfolder⟩ := hq
    exact ⟨folder, by rw [h.apart q hqp hpq, hfolder]⟩

/-- Nothing is changed but what is at a place or below it, and empty directories that were made. -/
structure Within (place : Place) (vs : List Place) (t t' : Tree) : Prop where
  kept : ∀ {q node}, t.get? q = some node → ¬ q <+: place → ¬ place <+: q → (∀ v ∈ vs, q <+: v → q = v) →
    t'.get? q = some node
  dirs : ∀ {q}, t.HasDir q → ¬ place <+: q → t'.HasDir q
  files : ∀ {q}, t'.HasFile q → ¬ place <+: q → t.HasFile q

theorem Within.trans {place : Place} (h : Within place vs t t') (h' : Within place vs t' t'') :
    Within place vs t t'' where
  kept hq habove hbelow hv := h'.kept (h.kept hq habove hbelow hv) habove hbelow hv
  dirs hq hbelow := h'.dirs (h.dirs hq hbelow) hbelow
  files hq hbelow := h.files (h'.files hq hbelow) hbelow

theorem Within.refl (place : Place) (vs : List Place) (t : Tree) : Within place vs t t :=
  ⟨fun h _ _ _ => h, fun h _ => h, fun h _ => h⟩

theorem Grows.within (h : Grows vs t t') (place : Place) : Within place vs t t' where
  kept hq _ _ hv := h.kept hq hv
  dirs hq _ := h.dirs hq
  files hq _ := h.files hq

theorem Edited.within {place : Place} (h : Edited t t' p x) (hp : place <+: p) (vs : List Place) :
    Within place vs t t' where
  kept {q node} hq habove hbelow _ := by
    have hbelow' : ¬ p <+: q := fun hpq => hbelow (hp.trans hpq)
    have habove' : ¬ q <+: p := fun hqp =>
      (List.prefix_or_prefix_of_prefix hqp hp).elim habove hbelow
    rw [h.apart q habove' hbelow', hq]
  dirs {q} hq hbelow := by
    have hbelow' : ¬ p <+: q := fun hpq => hbelow (hp.trans hpq)
    by_cases hqp : q <+: p
    · exact (h.above q hqp fun he => hbelow' (he ▸ List.prefix_refl _)).2
    · obtain ⟨folder, hfolder⟩ := hq
      exact ⟨folder, by rw [h.apart q hqp hbelow', hfolder]⟩
  files {q} hq hbelow := by
    have hbelow' : ¬ p <+: q := fun hpq => hbelow (hp.trans hpq)
    by_cases hqp : q <+: p
    · exact absurd hq (h.above q hqp fun he => hbelow' (he ▸ List.prefix_refl _)).2.not_file
    · obtain ⟨content, hcontent⟩ := hq
      exact ⟨content, by rw [← h.apart q hqp hbelow', hcontent]⟩

end SignerBench.Files
