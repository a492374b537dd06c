import SignerBench.Proofs.FileWrites

namespace SignerBench.Files

variable {t t' t'' : Tree} {x : Option Node} {p q : Place} {reach reach' way way' : Place → Prop}
  {path : String} {content : Bytes}

/-- Out of reach, files are as they were, and directories are still there. New directories are on the way. -/
structure Touches (reach way : Place → Prop) (t t' : Tree) : Prop where
  files : ∀ {q content}, ¬ reach q → (t'.get? q = some (.file content) ↔ t.get? q = some (.file content))
  dirs : ∀ {q}, ¬ reach q → t.HasDir q → t'.HasDir q
  made : ∀ {q}, t'.HasDir q → t.HasDir q ∨ way q

theorem Touches.refl (reach way : Place → Prop) (t : Tree) : Touches reach way t t :=
  ⟨fun _ => .rfl, fun _ h => h, .inl⟩

/-- A file that the first step leaves as it was can be changed by the second one within its reach only. -/
theorem Touches.trans (h : Touches reach way t t') (h' : Touches reach way t' t'') : Touches reach way t t'' where
  files out := (h'.files out).trans (h.files out)
  dirs out hq := h'.dirs out (h.dirs out hq)
  made hq := (h'.made hq).elim h.made .inr

theorem Touches.mono (h : Touches reach way t t') (reaches : ∀ q, reach q → reach' q) (leads : ∀ q, way q → way' q) :
    Touches reach' way' t t' where
  files out := h.files fun hq => out (reaches _ hq)
  dirs out hq := h.dirs (fun hq => out (reaches _ hq)) hq
  made hq := (h.made hq).imp_right (leads _)

/-- Away from the place of an edit nothing is new, and above it there are directories before and after. -/
theorem Edited.elsewhere (h : Edited t t' p x) (hq : ¬ p <+: q) : t'.get? q = t.get? q ∨ t.HasDir q ∧ t'.HasDir q := by
  by_cases habove : q <+: p
  · exact .inr (h.above q habove fun he => hq (he ▸ List.prefix_refl _))
  · exact .inl (h.apart q habove hq)

/-- An edit touches what it touches at its place and below. -/
theorem Edited.touches (h : Edited t t' p x)
    (files : ∀ rest content, ¬ reach (p ++ rest) →
      (t'.get? (p ++ rest) = some (.file content) ↔ t.get? (p ++ rest) = some (.file content)))
    (dirs : ∀ rest, ¬ reach (p ++ rest) → t.HasDir (p ++ rest) → t'.HasDir (p ++ rest))
    (made : ∀ rest, t'.HasDir (p ++ rest) → t.HasDir (p ++ rest) ∨ way (p ++ rest)) : Touches reach way t t' := by
  constructor
  case files =>
    intro q content out
    by_cases hq : p <+: q
    · obtain ⟨rest, rfl⟩ := hq
      exact files rest content out
    · rcases h.elsewhere hq with hsame | ⟨hdir, hdir'⟩
      · rw [hsame]
      · exact iff_of_false (fun hf => hdir'.not_file ⟨_, hf⟩) fun hf => hdir.not_file ⟨_, hf⟩
  case dirs =>
    intro q out hold
    by_cases hq : p <+: q
    · obtain ⟨rest, rfl⟩ := hq
      exact dirs rest out hold
    · rcases h.elsewhere hq with hsame | ⟨_, hdir'⟩
      · rwa [Tree.HasDir, hsame]
      · exact hdir'
  case made =>
    intro q hnew
    by_cases hq : p <+: q
    · obtain ⟨rest, rfl⟩ := hq
      exact made rest hnew
    · rcases h.elsewhere hq with hsame | ⟨hdir, _⟩
      · rw [Tree.HasDir, hsame] at hnew
        exact .inl hnew
      · exact .inl hdir

/-- The reach of a write is one place, and it makes no directories. -/
theorem write_touches (h : t.write path content = .ok t') :
    Touches (· = walked (namesOf path)) (fun _ => False) t t' := by
  obtain ⟨names, last, wrote⟩ := write_ok h
  rw [wrote.names, walked_proper names wrote.proper]
  have hinside (name : String) (rest : Place) : t'.get? (walked names ++ [last] ++ name :: rest) = none :=
    wrote.edited.inside (name :: rest)
  refine wrote.edited.touches (fun rest content out => ?_) (fun rest _ hold => absurd hold.above wrote.missing)
    fun rest hnew => ?_
  · cases rest with
    | nil => exact absurd (List.append_nil _) out
    | cons name rest =>
      rw [hinside]
      exact iff_of_false nofun fun hold => wrote.missing (Tree.hasDir_of_below hold)
  · obtain ⟨_, hnew⟩ := hnew
    cases rest with
    | nil =>
      rw [List.append_nil, wrote.edited.get?_self] at hnew
      cases hnew
    | cons name rest =>
      rw [hinside] at hnew
      cases hnew

/-- All below the directory is in its reach, also where the removal breaks off. -/
theorem removeDirs_touches {result : Except OsError Unit} (h : t.removeDirs path = (result, t')) :
    Touches (walked (namesOf path) <+: ·) (fun _ => False) t t' := by
  rcases removeDirs_edits h with ⟨rfl, _⟩ | ⟨hdir, node, hnode, hedit⟩
  · exact .refl _ _ _
  · refine hedit.touches (fun rest _ out => absurd (List.prefix_append ..) out)
      (fun rest out _ => absurd (List.prefix_append ..) out) fun rest hnew => .inl ?_
    obtain ⟨_, hnew⟩ := hnew
    rw [hedit.inside] at hnew
    rcases hnode with rfl | rfl
    · cases hnew
    · cases rest with
      | nil => rwa [List.append_nil]
      | cons name rest => cases hnew

variable {slash : Bool} {names : List String}

theorem makeDir_touches (h : t.makeDir (.ofNames slash names) = .ok t') :
    Touches (fun _ => False) (· = walked names) t t' := by
  obtain ⟨_, hnone, hedit⟩ := makeDir_ok h
  have hbelow (rest : Place) : t.get? (walked names ++ rest) = none := by
    rw [Tree.get?_append, hnone]
    rfl
  refine hedit.touches (fun rest content _ => ?_) (fun rest _ hold => ?_) fun rest hnew => .inr ?_
  · rw [hedit.inside, hbelow]
    cases rest with
    | nil => exact iff_of_false nofun nofun
    | cons name rest => exact iff_of_false nofun nofun
  · obtain ⟨_, hold⟩ := hold
    rw [hbelow] at hold
    cases hold
  · cases rest with
    | nil => exact List.append_nil _
    | cons name rest =>
      obtain ⟨_, hnew⟩ := hnew
      rw [hedit.inside] at hnew
      cases hnew

theorem settle_touches : Touches (fun _ => False) (· = walked names) t (t.settle (.ofNames slash names)).2 := by
  rw [Tree.settle]
  split
  case h_1 hmake => exact makeDir_touches hmake
  case h_2 => exact .refl _ _ t

/-- Making directories makes some of those on the way. The induction is on the directories above. -/
theorem makeDirs_touches (slash : Bool) (names parents : List String) (last : way (walked names))
    (above : ∀ v ∈ visits [] parents.reverse, way v) :
    Touches (fun _ => False) way t (t.makeDirs (.ofNames slash names) parents).2 := by
  have hsettle (t : Tree) : Touches (fun _ => False) way t (t.settle (.ofNames slash names)).2 :=
    settle_touches.mono (fun _ h => h) fun q hq => hq ▸ last
  induction parents generalizing slash names with
  | nil => exact hsettle t
  | cons name outer ih =>
    rw [List.reverse_cons] at above
    have houter := above _ (visits_last outer.reverse name)
    have hmade := ih false (outer.reverse ++ [name]) houter (fun v hv => above v (visits_front hv name))
      fun t => settle_touches.mono (fun _ h => h) fun q hq => hq ▸ houter
    rw [Tree.makeDirs, List.reverse_cons]
    split
    case h_2 => exact hsettle t
    case h_1 =>
      split
      case h_1 made hmake =>
        rw [hmake] at hmade
        exact hmade.trans (hsettle made)
      case h_2 => exact hmade

theorem createDirs_touches : Touches (fun _ => False) (· ∈ visits [] (namesOf path)) t (t.createDirs path).2 := by
  rw [Tree.createDirs]
  split
  case isTrue => exact .refl _ _ t
  case isFalse =>
    split
    case h_2 => exact .refl _ _ t
    case h_1 r hr =>
      obtain ⟨rfl, _⟩ := ofText_eq hr
      rcases List.eq_nil_or_concat (namesOf path) with hnames | ⟨front, last, hnames⟩
      · rw [hnames]
        exact .refl _ _ t
      · rw [hnames, List.concat_eq_append]
        exact makeDirs_touches _ _ _ (visits_last front last) (visits_parents _ front last)

variable {ε ε' α β : Type} {scratch : String}

/-- Work that keeps to its reach and its way, whatever comes of it. -/
def Confined (scratch : String) (reach way : Place → Prop) (x : Attempt Ask Reply Empty ε α) : Prop :=
  ∀ t, Touches reach way t (x.on (Tree.reply scratch) t).2

variable {y : Attempt Ask Reply Empty ε α} {f : α → Attempt Ask Reply Empty ε β}

theorem Confined.touches {r : Except ε α} (h : Confined scratch reach way y)
    (hrun : y.on (Tree.reply scratch) t = (r, t')) : Touches reach way t t' := by
  have htouches := h t
  rwa [hrun] at htouches

theorem Confined.mono (h : Confined scratch reach way y) (reaches : ∀ q, reach q → reach' q)
    (leads : ∀ q, way q → way' q) : Confined scratch reach' way' y := fun t => (h t).mono reaches leads

theorem confined_pure (a : α) : Confined scratch reach way (pure a : Attempt Ask Reply Empty ε α) :=
  fun t => .refl _ _ t

/-- What follows has to keep to it for the values only that the work before it can give. -/
theorem Confined.bind_of (hy : Confined scratch reach way y)
    (hf : ∀ a t t', y.on (Tree.reply scratch) t = (.ok a, t') → Confined scratch reach way (f a)) :
    Confined scratch reach way (y >>= f) := by
  intro t
  rcases hrun : y.on (Tree.reply scratch) t with ⟨e | a, t₁⟩
  · rw [Attempt.on_bind_error hrun]
    exact hy.touches hrun
  · rw [Attempt.on_bind hrun]
    exact (hy.touches hrun).trans (hf a t t₁ hrun t₁)

theorem Confined.bind (hy : Confined scratch reach way y) (hf : ∀ a, Confined scratch reach way (f a)) :
    Confined scratch reach way (y >>= f) := hy.bind_of fun a _ _ _ => hf a

/-- The result has no part in what is changed, and neither has the error in `Confined.adapt`. -/
theorem Confined.map {g : α → β} (hy : Confined scratch reach way y) : Confined scratch reach way (g <$> y) := by
  rw [Attempt.map_eq_bind]
  exact hy.bind fun a => confined_pure (g a)

theorem Confined.adapt {g : ε → ε'} (hy : Confined scratch reach way y) :
    Confined scratch reach way (ExceptT.adapt g y : Attempt Ask Reply Empty ε' α) := by
  intro t
  rw [Attempt.on_adapt_eq]
  exact hy t

theorem confined_forM {l : List α} {g : α → Attempt Ask Reply Empty ε Unit}
    (h : ∀ a ∈ l, Confined scratch reach way (g a)) : Confined scratch reach way (l.forM g) := by
  induction l with
  | nil => exact confined_pure ()
  | cons a rest ih =>
    obtain ⟨ha, hrest⟩ := List.forall_mem_cons.mp h
    exact ha.bind fun _ => ih hrest

theorem confined_mapM {l : List α} {g : α → Attempt Ask Reply Empty ε β}
    (h : ∀ a, Confined scratch reach way (g a)) : Confined scratch reach way (l.mapM g) := by
  induction l with
  | nil => exact confined_pure []
  | cons a rest ih =>
    rw [List.mapM_cons]
    exact (h a).bind fun b => ih.bind fun bs => confined_pure (b :: bs)

theorem confined_isDir : Confined scratch reach way (Access.isDir path) := fun t => .refl _ _ t

theorem confined_isThere : Confined scratch reach way (Access.isThere path) := fun t => .refl _ _ t

theorem confined_list : Confined scratch reach way (Access.list path) := fun t => .refl _ _ t

theorem confined_read : Confined scratch reach way (Access.read path) := fun t => .refl _ _ t

/-- The request may fail. It then changes nothing in a tree. -/
theorem confined_write :
    Confined scratch (· = walked (namesOf path)) (fun _ => False) (Access.write path content) := by
  intro t
  change Touches _ _ t (t.change (t.write path content)).2
  cases hw : t.write path content with
  | error e => exact .refl _ _ t
  | ok made => exact write_touches hw

theorem confined_createDirs :
    Confined scratch (fun _ => False) (· ∈ visits [] (namesOf path)) (Access.createDirs path) :=
  fun _ => createDirs_touches

theorem confined_removeDirs :
    Confined scratch (walked (namesOf path) <+: ·) (fun _ => False) (Access.removeDirs path) :=
  fun _ => removeDirs_touches rfl

theorem confined_scratchDir {tag : String} :
    Confined scratch (fun _ => False) (· ∈ visits [] (namesOf scratch)) (Access.scratchDir tag) :=
  fun _ => createDirs_touches

end SignerBench.Files
