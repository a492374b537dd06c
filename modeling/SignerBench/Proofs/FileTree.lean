import SignerBench.Files.Tree

namespace SignerBench.Files

/-- What names lead to. -/
def Node.get? : Place → Node → Option Node
  | [], node => some node
  | _ :: _, .file _ => none
  | name :: rest, .dir folder => (folder.get? name).bind (Node.get? rest)

def Tree.get? (t : Tree) (p : Place) : Option Node := (Node.dir t.root).get? p

theorem Node.get?_append (p q : Place) (node : Node) :
    node.get? (p ++ q) = (node.get? p).bind (Node.get? q) := by
  induction p generalizing node with
  | nil => rfl
  | cons name rest ih =>
    cases node with
    | file content => rfl
    | dir folder =>
      rw [List.cons_append, Node.get?, Node.get?]
      cases folder.get? name with
      | none => rfl
      | some inner => exact ih inner

theorem Node.get?_name (name : String) (folder : Folder) : (Node.dir folder).get? [name] = folder.get? name := by
  rw [Node.get?]
  cases folder.get? name <;> rfl

theorem Tree.get?_append (t : Tree) (p q : Place) : t.get? (p ++ q) = (t.get? p).bind (Node.get? q) :=
  Node.get?_append p q _

def Spot.place (s : Spot) : Place := (s.around.map Prod.fst).reverse

/-- The spot is one of the tree. -/
inductive Stands (t : Tree) : Spot → Prop where
  | start : Stands t (Spot.start t)
  | inside {s : Spot} {name : String} {folder : Folder} (outer : Stands t s)
      (found : s.folder.get? name = some (.dir folder)) : Stands t ⟨folder, (name, s.folder) :: s.around⟩

@[simp] theorem Spot.place_start (t : Tree) : (Spot.start t).place = [] := rfl

@[simp] theorem Spot.place_below (s : Spot) (name : String) (folder : Folder) :
    Spot.place ⟨folder, (name, s.folder) :: s.around⟩ = s.place ++ [name] := by
  simp [Spot.place]

variable {t : Tree} {s : Spot} {p q : Place}

theorem Stands.get? (h : Stands t s) : t.get? s.place = some (.dir s.folder) := by
  induction h with
  | start => rfl
  | inside outer found ih =>
    rw [Spot.place_below, Tree.get?_append, ih, Option.bind_some, Node.get?_name, found]

theorem Stands.get?_append (h : Stands t s) (p : Place) : t.get? (s.place ++ p) = (Node.dir s.folder).get? p := by
  rw [Tree.get?_append, h.get?, Option.bind_some]

theorem Stands.get?_name (h : Stands t s) (name : String) : t.get? (s.place ++ [name]) = s.folder.get? name := by
  rw [h.get?_append, Node.get?_name]

/-- Going up from the root stays there, as `dropLast` does on the empty place. -/
theorem Stands.up (h : Stands t s) : Stands t s.up ∧ s.up.place = s.place.dropLast := by
  cases h with
  | start => exact ⟨.start, rfl⟩
  | inside outer found => exact ⟨outer, by rw [Spot.place_below, List.dropLast_concat]; rfl⟩

/-- A spot is where its folder is found. -/
theorem Stands.folder_eq {folder : Folder} (h : Stands t s) (hp : t.get? s.place = some (.dir folder)) :
    s.folder = folder := by
  rw [h.get?] at hp
  cases hp
  rfl

theorem get?_replace_below (h : Stands t s) (folder : Folder) (p : Place) :
    (s.replace folder).get? (s.place ++ p) = (Node.dir folder).get? p := by
  induction h generalizing folder p with
  | start => rfl
  | @inside s name old outer found ih =>
    rw [Spot.place_below, List.append_assoc]
    refine (ih (s.folder.set name (.dir folder)) (name :: p)).trans ?_
    rw [Node.get?, Folder.get?_set, if_pos rfl, Option.bind_some]

/-- Above it there are directories, whose other entries `get?_replace_apart` speaks of. -/
theorem get?_replace_above (h : Stands t s) (folder : Folder) (hp : p <+: s.place) :
    ∃ f, (s.replace folder).get? p = some (.dir f) := by
  induction h generalizing folder with
  | start =>
    rw [Spot.place_start, List.prefix_nil] at hp
    exact ⟨folder, hp ▸ rfl⟩
  | @inside s name old outer found ih =>
    rw [Spot.place_below, List.prefix_concat_iff] at hp
    rcases hp with rfl | hp
    · refine ⟨folder, ?_⟩
      refine (get?_replace_below outer (s.folder.set name (.dir folder)) [name]).trans ?_
      rw [Node.get?_name, Folder.get?_set, if_pos rfl]
    · exact ih (s.folder.set name (.dir folder)) hp

/-- Places of which neither leads through the other are independent. -/
theorem get?_replace_apart (h : Stands t s) (folder : Folder) (hp : ¬ p <+: s.place) (hs : ¬ s.place <+: p) :
    (s.replace folder).get? p = t.get? p := by
  induction h generalizing folder with
  | start => exact absurd (List.nil_prefix) hs
  | @inside s name old outer found ih =>
    rw [Spot.place_below] at hp hs
    have habove : ¬ p <+: s.place := fun h => hp (h.trans (List.prefix_append ..))
    by_cases hb : s.place <+: p
    · obtain ⟨rest, rfl⟩ := hb
      refine (get?_replace_below outer (s.folder.set name (.dir folder)) rest).trans ?_
      rw [outer.get?_append]
      cases rest with
      | nil => exact absurd (by simp) hp
      | cons other rest =>
        have hne : name ≠ other := by
          rintro rfl
          exact hs ⟨rest, by simp⟩
        rw [Node.get?, Node.get?, Folder.get?_set, if_neg hne]
    · exact ih (s.folder.set name (.dir folder)) habove hb

def step (p : Place) (name : String) : Place :=
  if name = "." then p else if name = ".." then p.dropLast else p ++ [name]

def walked (names : List String) : Place := names.foldl step []

/-- The places that a walk leads to one after the other. -/
def visits (p : Place) : List String → List Place
  | [] => []
  | name :: rest => step p name :: visits (step p name) rest

theorem visits_append (p : Place) (names rest : List String) :
    visits p (names ++ rest) = visits p names ++ visits (names.foldl step p) rest := by
  induction names generalizing p with
  | nil => rfl
  | cons name names ih => rw [List.cons_append, visits, ih, visits, List.foldl_cons, List.cons_append]

theorem walked_concat (names : List String) (name : String) :
    walked (names ++ [name]) = step (walked names) name := by
  rw [walked, List.foldl_append]
  rfl

theorem visits_concat (names : List String) (name : String) :
    visits [] (names ++ [name]) = visits [] names ++ [walked (names ++ [name])] := by
  rw [visits_append, walked_concat]
  rfl

theorem visits_front {names : List String} {v : Place} (hv : v ∈ visits [] names) (name : String) :
    v ∈ visits [] (names ++ [name]) := by
  rw [visits_concat]
  exact List.mem_append_left _ hv

theorem visits_last (names : List String) (name : String) : walked (names ++ [name]) ∈ visits [] (names ++ [name]) := by
  rw [visits_concat]
  exact List.mem_append_right _ (List.mem_singleton_self _)

/-- A walk that never turns back leads through nothing but what is above its end. -/
theorem visits_prefix {names : List String} (straight : ".." ∉ names) (p : Place) :
    ∀ v ∈ visits p names, v <+: names.foldl step p := by
  have hstep (p : Place) {name : String} (hup : name ≠ "..") : p <+: step p name := by
    rw [step, if_neg hup]
    split
    · exact List.prefix_refl p
    · exact List.prefix_append p _
  have hwalk (p : Place) {names : List String} (h : ".." ∉ names) : p <+: names.foldl step p := by
    induction names generalizing p with
    | nil => exact List.prefix_refl p
    | cons name rest ih =>
      rw [List.mem_cons, not_or] at h
      exact (hstep p (Ne.symm h.1)).trans (ih _ h.2)
  induction names generalizing p with
  | nil => exact fun _ h => nomatch h
  | cons name rest ih =>
    rw [List.mem_cons, not_or] at straight
    exact List.forall_mem_cons.mpr ⟨hwalk _ straight.2, ih straight.2 _⟩

def Tree.HasDir (t : Tree) (p : Place) : Prop := ∃ folder, t.get? p = some (.dir folder)

def Tree.HasFile (t : Tree) (p : Place) : Prop := ∃ content, t.get? p = some (.file content)

instance (t : Tree) (p : Place) : Decidable (t.HasFile p) :=
  match h : t.get? p with
  | some (.file content) => .isTrue ⟨content, h⟩
  | some (.dir _) => .isFalse fun ⟨_, hf⟩ => by cases h.symm.trans hf
  | none => .isFalse fun ⟨_, hf⟩ => by cases h.symm.trans hf

theorem Tree.hasDir_root (t : Tree) : t.HasDir [] := ⟨t.root, rfl⟩

/-- A place without a file has a directory or nothing. Links or devices do not occur. -/
theorem Tree.hasDir_or (t : Tree) (p : Place) (h : ¬ t.HasFile p) : t.HasDir p ∨ t.get? p = none := by
  cases hp : t.get? p with
  | none => exact .inr rfl
  | some node =>
    cases node with
    | file content => exact absurd ⟨content, hp⟩ h
    | dir folder => exact .inl ⟨folder, hp⟩

def Short (names : List String) : Prop := ∀ name ∈ names, checkName name = .ok ()

/-- One step of a walk, where no file stands in its way. -/
theorem Stands.step {name : String} (h : Stands t s) (short : checkName name = .ok ())
    (clear : ¬ t.HasFile (step s.place name)) :
    (∃ s', Stands t s' ∧ s'.place = Files.step s.place name ∧ ∀ rest, s.walk (name :: rest) = s'.walk rest) ∨
      t.get? (Files.step s.place name) = none ∧ ∀ rest, s.walk (name :: rest) = .error .notFound := by
  by_cases hdot : name = "."
  · exact .inl ⟨s, h, by rw [Files.step, if_pos hdot], fun rest => by rw [Spot.walk, if_pos hdot]⟩
  by_cases hup : name = ".."
  · obtain ⟨hs, hp⟩ := h.up
    refine .inl ⟨s.up, hs, ?_, fun rest => ?_⟩
    · rw [Files.step, if_neg hdot, if_pos hup, hp]
    · rw [Spot.walk, if_neg hdot, if_pos hup]
  · have hstep : Files.step s.place name = s.place ++ [name] := by rw [Files.step, if_neg hdot, if_neg hup]
    rw [hstep] at clear ⊢
    rcases t.hasDir_or _ clear with ⟨folder, hfolder⟩ | hnone
    · rw [h.get?_name] at hfolder
      refine .inl ⟨⟨folder, (name, s.folder) :: s.around⟩, .inside h hfolder, s.place_below name folder, fun rest => ?_⟩
      rw [Spot.walk, if_neg hdot, if_neg hup]
      dsimp only [bind, Except.bind]
      rw [short, hfolder]
    · refine .inr ⟨hnone, fun rest => ?_⟩
      rw [h.get?_name] at hnone
      rw [Spot.walk, if_neg hdot, if_neg hup]
      dsimp only [bind, Except.bind]
      rw [short, hnone]

/-- Where no file stands in its way, a walk comes to its end, or finds a directory missing. -/
theorem Stands.walk_clear {names : List String} (h : Stands t s) (short : Short names)
    (clear : ∀ v ∈ visits s.place names, ¬ t.HasFile v) :
    (∃ s', s.walk names = .ok s' ∧ Stands t s' ∧ s'.place = names.foldl Files.step s.place ∧
      ∀ v ∈ visits s.place names, t.HasDir v) ∨
      s.walk names = .error .notFound ∧ ∃ v ∈ visits s.place names, t.get? v = none := by
  induction names generalizing s with
  | nil => exact .inl ⟨s, rfl, h, rfl, fun _ h => nomatch h⟩
  | cons name rest ih =>
    obtain ⟨hname, hrest⟩ := List.forall_mem_cons.mp short
    obtain ⟨hv, hvs⟩ := List.forall_mem_cons.mp clear
    rcases h.step hname hv with ⟨s', hs', hp, hwalk⟩ | ⟨hnone, hwalk⟩
    · rw [hwalk, List.foldl_cons, visits, ← hp]
      rcases ih hs' hrest (fun v hv => hvs v (hp ▸ hv)) with ⟨s'', hs'', h'', hp'', hdirs⟩ | ⟨he, v, hv, hnone⟩
      · exact .inl ⟨s'', hs'', h'', hp'', List.forall_mem_cons.mpr ⟨⟨_, hs'.get?⟩, hdirs⟩⟩
      · exact .inr ⟨he, v, List.mem_cons_of_mem _ hv, hnone⟩
    · exact .inr ⟨hwalk rest, _, List.mem_cons_self, hnone⟩

/-- From the root, a walk fails for a missing directory only, once its names are short and no file is on it. -/
theorem Tree.walk_clear {names : List String} (short : Short names) (clear : ∀ v ∈ visits [] names, ¬ t.HasFile v) :
    (∃ s, t.walk names = .ok s ∧ Stands t s ∧ s.place = walked names ∧ ∀ v ∈ visits [] names, t.HasDir v) ∨
      t.walk names = .error .notFound ∧ ∃ v ∈ visits [] names, t.get? v = none :=
  Stands.start.walk_clear short clear

theorem Tree.HasDir.not_file (h : t.HasDir p) : ¬ t.HasFile p := by
  obtain ⟨folder, hp⟩ := h
  rintro ⟨content, hf⟩
  rw [hp] at hf
  cases hf

theorem Tree.HasDir.above (h : t.HasDir (p ++ q)) : t.HasDir p := by
  obtain ⟨folder, hfolder⟩ := h
  rw [Tree.get?_append] at hfolder
  cases hget : t.get? p with
  | none => rw [hget] at hfolder; cases hfolder
  | some node =>
    cases node with
    | dir f => exact ⟨f, hget⟩
    | file content => rw [hget] at hfolder; cases q <;> cases hfolder

/-- What holds something is a directory. -/
theorem Tree.hasDir_of_below {name : String} {node : Node} (h : t.get? (p ++ name :: q) = some node) : t.HasDir p := by
  rw [Tree.get?_append] at h
  cases hget : t.get? p with
  | none => rw [hget] at h; cases h
  | some top =>
    cases top with
    | dir folder => exact ⟨folder, hget⟩
    | file content => rw [hget] at h; cases h

/-- A walk through directories that are there. -/
theorem Tree.walk_there {names : List String} (short : Short names) (there : ∀ v ∈ visits [] names, t.HasDir v) :
    ∃ s, t.walk names = .ok s ∧ Stands t s ∧ s.place = walked names := by
  rcases t.walk_clear short fun v hv => (there v hv).not_file with ⟨s, hs, h, hp, _⟩ | ⟨_, v, hv, hnone⟩
  · exact ⟨s, hs, h, hp⟩
  · obtain ⟨folder, hfolder⟩ := there v hv
    rw [hnone] at hfolder
    cases hfolder

end SignerBench.Files
