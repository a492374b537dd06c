import SignerBench.Proofs.JsonWords
import SignerBench.Proofs.Results

namespace SignerBench.Json

mutual

def draft : Json → Draft
  | .null => .scalar (.ok .null)
  | .bool b => .scalar (.ok (.bool b))
  | .number n => .scalar (.ok (.number n))
  | .text s => .scalar (.ok (.text s))
  | .array items => .array (draftItems items) .closed
  | .object entries => .object (draftEntries entries) .closed

def draftItems : List Json → List Draft
  | [] => []
  | v :: vs => draft v :: draftItems vs

def draftEntries : List (String × Json) → List (Except Fault String × Draft)
  | [] => []
  | (k, v) :: es => (.ok k, draft v) :: draftEntries es

end

theorem draftItems_eq_map (vs : List Json) : draftItems vs = vs.map draft := by
  induction vs with
  | nil => rfl
  | cons v vs ih => rw [draftItems, ih, List.map_cons]

variable {ws ws' : List Token} {d : Draft} {ds : List Draft} {es : List (Except Fault String × Draft)}

/-- These words are read as this tree wherever a value may stand. A value never begins with a bracket that closes. -/
structure ReadAs (ws : List Token) (d : Draft) : Prop where
  opens : ∃ t ts, ws = t :: ts ∧ ∀ frames, Reader.shut frames t = none
  reads : ∀ frames, ws.foldl Reader.step (.at .value frames) = .settle d frames

/-- These words are read as further parts of an array. -/
def ReadAsItems (ws : List Token) (ds : List Draft) : Prop :=
  ∀ done frames, ws.foldl Reader.step (.at .after (.array done :: frames)) =
    .at .after (.array (ds.reverse ++ done) :: frames)

/-- These words are read as further entries of an object. -/
def ReadAsEntries (ws : List Token) (es : List (Except Fault String × Draft)) : Prop :=
  ∀ done key frames, ∃ key', ws.foldl Reader.step (.at .after (.object done key :: frames)) =
    .at .after (.object (es.reverse ++ done) key' :: frames)

theorem readAs_scalar (value : Except Fault Scalar) : ReadAs [.scalar value] (.scalar value) :=
  ⟨⟨_, _, rfl, fun _ => rfl⟩, fun _ => rfl⟩

theorem readAs_quoted (s : String) : ReadAs [.quoted (.ok s)] (.scalar (.ok (.text s))) :=
  ⟨⟨_, _, rfl, fun _ => rfl⟩, fun _ => rfl⟩

theorem ReadAs.first (h : ReadAs ws d) (frames : List Frame) (rest : List Token) :
    (ws ++ rest).foldl Reader.step (.at .firstValue frames) = rest.foldl Reader.step (.settle d frames) := by
  obtain ⟨⟨t, ts, rfl, hshut⟩, hreads⟩ := h
  have hfirst : (Reader.at .firstValue frames).step t = (Reader.at .value frames).step t := by
    change (Reader.shut frames t).getD _ = _
    rw [hshut]
    rfl
  rw [← hreads, List.foldl_append, List.foldl_cons, List.foldl_cons, hfirst]

theorem readAs_emptyArray : ReadAs [.openArray, .closeArray] (.array [] .closed) :=
  ⟨⟨_, _, rfl, fun _ => rfl⟩, fun _ => rfl⟩

theorem readAs_emptyObject : ReadAs [.openObject, .closeObject] (.object [] .closed) :=
  ⟨⟨_, _, rfl, fun _ => rfl⟩, fun _ => rfl⟩

theorem readAsItems_nil : ReadAsItems [] [] := fun _ _ => rfl

theorem ReadAsItems.cons (h : ReadAs ws d) (others : ReadAsItems ws' ds) :
    ReadAsItems (.comma :: (ws ++ ws')) (d :: ds) := by
  intro done frames
  have hcomma : (Reader.at .after (.array done :: frames)).step .comma = .at .value (.array done :: frames) := rfl
  have hitem : Reader.settle d (.array done :: frames) = .at .after (.array (d :: done) :: frames) := rfl
  rw [List.foldl_cons, hcomma, List.foldl_append, h.reads, hitem, others, List.reverse_cons, List.append_assoc]
  rfl

/-- An array is its first item, the others behind commas, and the bracket. -/
theorem ReadAs.array (h : ReadAs ws d) (others : ReadAsItems ws' ds) :
    ReadAs (.openArray :: (ws ++ (ws' ++ [.closeArray]))) (.array (d :: ds) .closed) := by
  refine ⟨⟨_, _, rfl, fun _ => rfl⟩, fun frames => ?_⟩
  have hopen : (Reader.at .value frames).step .openArray = .at .firstValue (.array [] :: frames) := rfl
  have hfirst : Reader.settle d (.array [] :: frames) = .at .after (.array [d] :: frames) := rfl
  have hclose (done : List Draft) : (Reader.at .after (.array done :: frames)).step .closeArray =
      .settle (.array done.reverse .closed) frames := rfl
  rw [List.foldl_cons, hopen, h.first, hfirst, List.foldl_append, others, List.foldl_cons, hclose, List.foldl_nil,
    List.reverse_append, List.reverse_reverse]
  rfl

theorem readAsEntries_nil : ReadAsEntries [] [] := fun _ key _ => ⟨key, rfl⟩

theorem ReadAsEntries.cons {k : String} (h : ReadAs ws d) (others : ReadAsEntries ws' es) :
    ReadAsEntries (.comma :: .quoted (.ok k) :: .colon :: (ws ++ ws')) ((.ok k, d) :: es) := by
  intro done key frames
  have hcomma : (Reader.at .after (.object done key :: frames)).step .comma = .at .key (.object done key :: frames) :=
    rfl
  have hkey : (Reader.at .key (.object done key :: frames)).step (.quoted (.ok k)) =
      .at .colon (.object done (.ok k) :: frames) := rfl
  have hcolon : (Reader.at .colon (.object done (.ok k) :: frames)).step .colon =
      .at .value (.object done (.ok k) :: frames) := rfl
  have hentry : Reader.settle d (.object done (.ok k) :: frames) =
      .at .after (.object ((.ok k, d) :: done) (.ok k) :: frames) := rfl
  obtain ⟨key', hothers⟩ := others ((.ok k, d) :: done) (.ok k) frames
  refine ⟨key', ?_⟩
  rw [List.foldl_cons, hcomma, List.foldl_cons, hkey, List.foldl_cons, hcolon, List.foldl_append, h.reads, hentry,
    hothers, List.reverse_cons, List.append_assoc]
  rfl

/-- As for arrays, with keys. An object without entries is `readAs_emptyObject`. -/
theorem ReadAs.object {k : String} (h : ReadAs ws d) (others : ReadAsEntries ws' es) :
    ReadAs (.openObject :: .quoted (.ok k) :: .colon :: (ws ++ (ws' ++ [.closeObject])))
      (.object ((.ok k, d) :: es) .closed) := by
  refine ⟨⟨_, _, rfl, fun _ => rfl⟩, fun frames => ?_⟩
  have hopen : (Reader.at .value frames).step .openObject =
      .at .firstKey (.object [] (.error .misplaced) :: frames) := rfl
  have hkey : (Reader.at .firstKey (.object [] (.error .misplaced) :: frames)).step (.quoted (.ok k)) =
      .at .colon (.object [] (.ok k) :: frames) := rfl
  have hcolon : (Reader.at .colon (.object [] (.ok k) :: frames)).step .colon =
      .at .value (.object [] (.ok k) :: frames) := rfl
  have hfirst : Reader.settle d (.object [] (.ok k) :: frames) = .at .after (.object [(.ok k, d)] (.ok k) :: frames) :=
    rfl
  have hclose (done : List (Except Fault String × Draft)) (key : Except Fault String) :
      (Reader.at .after (.object done key :: frames)).step .closeObject =
        .settle (.object done.reverse .closed) frames := rfl
  obtain ⟨key, hothers⟩ := others [(.ok k, d)] (.ok k) frames
  rw [List.foldl_cons, hopen, List.foldl_cons, hkey, List.foldl_cons, hcolon, List.foldl_append, h.reads, hfirst,
    List.foldl_append, hothers, List.foldl_cons, hclose, List.foldl_nil, List.reverse_append, List.reverse_reverse]
  rfl

/-- A text with these words holds the tree, and nothing behind it. -/
theorem ReadAs.ofBytes {text : Bytes} (h : ReadAs ws d) (holds : tokens text = ws) :
    Document.ofBytes text = ⟨d, none⟩ := by
  rw [Document.ofBytes, holds, h.reads]
  rfl

mutual

/-- The words of a value are read as its tree. -/
theorem readAs_words : ∀ v : Json, ReadAs (words v) (draft v)
  | .null => readAs_scalar _
  | .bool _ => readAs_scalar _
  | .number _ => readAs_scalar _
  | .text s => readAs_quoted s
  | .array [] => readAs_emptyArray
  | .object [] => readAs_emptyObject
  | .array (v :: vs) => (readAs_words v).array (readAs_wordsItems vs)
  | .object ((_, v) :: es) => (readAs_words v).object (readAs_wordsEntries es)

/-- Mutual with `readAs_words`, as values contain lists of values. -/
theorem readAs_wordsItems : ∀ vs : List Json, ReadAsItems (wordsItems vs) (draftItems vs)
  | [] => readAsItems_nil
  | v :: vs => .cons (readAs_words v) (readAs_wordsItems vs)

theorem readAs_wordsEntries : ∀ es : List (String × Json), ReadAsEntries (wordsEntries es) (draftEntries es)
  | [] => readAsEntries_nil
  | (_, v) :: es => .cons (readAs_words v) (readAs_wordsEntries es)

end

theorem wholeItems_of_forall {vs : List Json} (whole : ∀ v ∈ vs, Whole v) : WholeItems vs := by
  induction vs with
  | nil => trivial
  | cons v vs ih =>
    obtain ⟨hv, hvs⟩ := List.forall_mem_cons.mp whole
    exact ⟨hv, ih hvs⟩

variable {α : Type} {read : Nat → Draft → Read α} {room : Nat}

/-- What is read of a value's tree is read of its text. -/
theorem readBytes_of_tokens {text : Bytes} {v : Json} (h : tokens text = words v) :
    readBytes read text = read maxDepth (draft v) := by
  rw [readBytes, (readAs_words v).ofBytes h, Document.read]
  exact bind_pure _

/-- What a reader makes of the text is what it makes of the tree, errors included. -/
theorem readBytes_pretty_eq {v : Json} (whole : Whole v) :
    readBytes read (Bytes.ofText (pretty v)) = read maxDepth (draft v) := readBytes_of_tokens (tokens_pretty whole)

/-- To show that a value is read back from its text it is enough to read it from its tree. -/
theorem readBytes_pretty {v : Json} {a : α} (whole : Whole v) (reads : read maxDepth (draft v) = .ok a) :
    readBytes read (Bytes.ofText (pretty v)) = .ok a :=
  (readBytes_pretty_eq whole).trans reads

/-- A list is read back if its items are. -/
theorem readList_draft {write : α → Json} {as : List α} (reads : ∀ a ∈ as, read room (draft (write a)) = .ok a) :
    Draft.readList read (room + 1) (draft (.array (as.map write))) = .ok as := by
  have hitems : (draftItems (as.map write)).mapM (read room) = .ok as := by
    rw [draftItems_eq_map, mapM_ok_iff, List.forall₂_map_left_iff, List.forall₂_map_left_iff, List.forall₂_same]
    exact reads
  change ((draftItems (as.map write)).mapM (read room) >>= fun values => Ending.close values .closed) = _
  rw [hitems]
  rfl

/-- A list whose items are read back or fail in one way only. -/
theorem readList_draft_ite {write : α → Json} {as : List α} {p : α → Prop} [DecidablePred p] {e : ReadError}
    (reads : ∀ a ∈ as, read room (draft (write a)) = if p a then .ok a else .error e) :
    Draft.readList read (room + 1) (draft (.array (as.map write))) =
      if ∀ a ∈ as, p a then .ok as else .error e := by
  have hitems : (draftItems (as.map write)).mapM (read room) = if ∀ a ∈ as, p a then .ok as else .error e := by
    rw [draftItems_eq_map, List.map_map, List.mapM_map]
    have hall := mapM_ite (f := read room ∘ draft ∘ write) (g := id) reads
    rw [List.map_id] at hall
    exact hall
  change ((draftItems (as.map write)).mapM (read room) >>= fun values => Ending.close values .closed) = _
  rw [hitems]
  split <;> rfl

end SignerBench.Json
