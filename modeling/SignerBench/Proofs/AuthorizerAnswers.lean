import SignerBench.Proofs.HexText
import SignerBench.Proofs.RecordTexts
import SignerBench.Vectors.Authorizer

namespace SignerBench.Vectors.Authorizer

open Json (Draft Document Row valuesOf draft)

variable {a : Answer} {x : Authorized} {room : Nat} {output : Bytes} {es : List (Except Json.Fault String × Draft)}
  {ds : List Draft}

def Listing (key : String) (es : List (Except Json.Fault String × Draft)) (ss : List String) : Prop :=
  valuesOf key es = [draft (Json.texts ss)] ∨ valuesOf key es = [] ∧ ss = []

/-- The entries of an object that make an answer, in any order. Entries with other keys are passed over. -/
structure Named (es : List (Except Json.Fault String × Draft)) (a : Answer) : Prop where
  keys : ∀ e ∈ es, Json.Fields.Readable
    ["plan", "effect_hash", "spend_auths", "delegator_vote_auths", "lqt_vote_auths"] e
  plan : valuesOf "plan" es = [draft (.text a.plan)]
  effectHash : valuesOf "effect_hash" es = [draft (.text a.effectHash)]
  spendAuths : Listing "spend_auths" es a.spendAuths
  delegatorVotes : Listing "delegator_vote_auths" es a.delegatorVotes
  lqtVotes : Listing "lqt_vote_auths" es a.lqtVotes

/-- Lists in their order, of which the last ones may be missing. -/
inductive Lists : List (List String) → List Draft → Prop where
  | missing {lists : List (List String)} (empty : ∀ ss ∈ lists, ss = []) : Lists lists []
  | there {ss : List String} {lists : List (List String)} {ds : List Draft} (rest : Lists lists ds) :
      Lists (ss :: lists) (draft (Json.texts ss) :: ds)

/-- The text is one answer, written as an object or as an array, and nothing else. -/
inductive Response (output : Bytes) (a : Answer) : Prop where
  | object {es : List (Except Json.Fault String × Draft)}
      (holds : Document.ofBytes output = ⟨.object es .closed, none⟩) (entries : Named es a)
  | array {ds : List Draft}
      (holds : Document.ofBytes output =
        ⟨.array (draft (.text a.plan) :: draft (.text a.effectHash) :: ds) .closed, none⟩)
      (lists : Lists [a.spendAuths, a.delegatorVotes, a.lqtVotes] ds)

def Answer.toRow (a : Answer) : Row [String, String, List String, List String, List String] :=
  (a.plan, a.effectHash, a.spendAuths, a.delegatorVotes, a.lqtVotes, ())

/-- A list may be left out, but it may not be given twice, and all of its entries are texts. -/
theorem listing_iff {key : String} {ss : List String} :
    (Json.Field.texts key).Given (room + 1) es ss ↔ Listing key es ss := by
  constructor
  · rintro (⟨once, reads⟩ | ⟨absent, fallback⟩)
    · rw [Json.Field.read_texts_ok_iff] at reads
      exact .inl (reads ▸ once)
    · cases fallback
      exact .inr ⟨absent, rfl⟩
  · rintro (once | ⟨absent, rfl⟩)
    · exact .once once (Json.Field.read_texts_ok_iff.mpr rfl)
    · exact .absent absent rfl

/-- A text is given exactly once. -/
theorem text_given_iff {key s : String} :
    (Json.Field.text key).Given room es s ↔ valuesOf key es = [draft (.text s)] := by
  constructor
  · rintro (⟨once, reads⟩ | ⟨_, ⟨⟩⟩)
    rw [Json.Field.read_text_ok_iff] at reads
    exact reads ▸ once
  · exact fun once => .once once (Json.Field.read_text_ok_iff.mpr rfl)

/-- As an object an answer has its entries in any order. Nothing is asked of entries with other keys but that they can
be read. -/
theorem named_iff : (∀ e ∈ es, Json.Fields.Readable answerRecord.fields.names e) ∧
    answerRecord.fields.Given (room + 1) es a.toRow ↔ Named es a := by
  constructor
  · rintro ⟨keys, plan, effectHash, spendAuths, delegatorVotes, lqtVotes, _⟩
    exact ⟨keys, text_given_iff.mp plan, text_given_iff.mp effectHash, listing_iff.mp spendAuths,
      listing_iff.mp delegatorVotes, listing_iff.mp lqtVotes⟩
  · rintro ⟨keys, plan, effectHash, spendAuths, delegatorVotes, lqtVotes⟩
    exact ⟨keys, text_given_iff.mpr plan, text_given_iff.mpr effectHash, listing_iff.mpr spendAuths,
      listing_iff.mpr delegatorVotes, listing_iff.mpr lqtVotes, trivial⟩

theorem lists_nil_iff : Lists [] ds ↔ ds = [] := by
  constructor
  · rintro ⟨⟩
    rfl
  · rintro rfl
    exact .missing (List.forall_mem_nil _)

/-- A field with a list in front of others. -/
theorem lists_cons_iff {αs : List Type} {fs : Json.Fields αs} {row : Row αs} {lists : List (List String)} {key : String}
    {ss : List String} (others : ∀ ds, fs.Listed (room + 1) ds row ↔ Lists lists ds) (ds : List Draft) :
    (Json.Fields.cons (.texts key) fs).Listed (room + 1) ds (ss, row) ↔ Lists (ss :: lists) ds := by
  cases ds with
  | nil =>
    constructor
    · rintro ⟨⟨⟩, hrest⟩
      obtain ⟨empty⟩ := (others []).mp hrest
      exact .missing (List.forall_mem_cons.mpr ⟨rfl, empty⟩)
    · rintro ⟨empty⟩
      obtain ⟨rfl, hempty⟩ := List.forall_mem_cons.mp empty
      exact ⟨rfl, (others []).mpr (.missing hempty)⟩
  | cons d ds =>
    constructor
    · rintro ⟨hread, hrest⟩
      cases Json.Field.read_texts_ok_iff.mp hread
      exact .there ((others ds).mp hrest)
    · rintro (_ | hrest)
      exact ⟨Json.Field.read_texts_ok_iff.mpr rfl, (others ds).mpr hrest⟩

/-- As an array an answer has the texts in their order, and lists may be missing at its end only. -/
theorem listed_iff : answerRecord.fields.Listed (room + 1) ds a.toRow ↔
    ∃ rest, ds = draft (.text a.plan) :: draft (.text a.effectHash) :: rest ∧
      Lists [a.spendAuths, a.delegatorVotes, a.lqtVotes] rest := by
  have hlists : ∀ ds, (Json.Fields.cons (.texts "spend_auths") (.cons (.texts "delegator_vote_auths")
      (.cons (.texts "lqt_vote_auths") .nil))).Listed (room + 1) ds (a.spendAuths, a.delegatorVotes, a.lqtVotes, ()) ↔
        Lists [a.spendAuths, a.delegatorVotes, a.lqtVotes] ds :=
    lists_cons_iff (lists_cons_iff (lists_cons_iff fun _ => lists_nil_iff.symm))
  constructor
  · intro h
    rcases ds with _ | ⟨d, _ | ⟨d', rest⟩⟩
    · cases h.1
    · cases h.2.1
    · obtain ⟨hplan, heffectHash, hrest⟩ := h
      cases Json.Field.read_text_ok_iff.mp hplan
      cases Json.Field.read_text_ok_iff.mp heffectHash
      exact ⟨rest, rfl, (hlists rest).mp hrest⟩
  · rintro ⟨rest, rfl, hrest⟩
    exact ⟨rfl, rfl, (hlists rest).mpr hrest⟩

theorem read_iff_readBytes : Answer.read output = .ok a ↔ Json.readBytes answerRecord.read output = .ok a.toRow := by
  constructor
  · intro h
    obtain ⟨⟨plan, effectHash, spendAuths, delegatorVotes, lqtVotes, _⟩, hread, h⟩ := ok_of_bind h
    cases h
    exact hread
  · intro h
    rw [Answer.read, h]
    rfl

/-- Which outputs are an answer. There is no room for anything but blanks around it. -/
theorem read_ok_iff : Answer.read output = .ok a ↔ Response output a := by
  have distinct : answerRecord.fields.names.Nodup := by decide
  rw [read_iff_readBytes, Json.readBytes_ok_iff]
  constructor
  · rintro ⟨root, hholds, hread⟩
    cases root with
    | object es ending =>
      obtain ⟨rfl, hkeys, hgiven⟩ := (Json.Record.read_object_ok_iff distinct).mp hread
      exact .object hholds (named_iff.mp ⟨hkeys, hgiven⟩)
    | array ds ending =>
      obtain ⟨rfl, hlisted⟩ := Json.Record.read_array_ok_iff.mp hread
      obtain ⟨rest, rfl, hlists⟩ := listed_iff.mp hlisted
      exact .array hholds hlists
    | scalar value => cases value <;> cases hread
    | broken => cases hread
  · rintro (⟨hholds, hentries⟩ | ⟨hholds, hlists⟩)
    · exact ⟨_, hholds, (Json.Record.read_object_ok_iff distinct).mpr ⟨rfl, named_iff.mpr hentries⟩⟩
    · exact ⟨_, hholds, Json.Record.read_array_ok_iff.mpr ⟨rfl, listed_iff.mpr ⟨_, rfl, hlists⟩⟩⟩

def Answer.texts (a : Answer) : List String :=
  a.plan :: a.effectHash :: (a.spendAuths ++ a.delegatorVotes ++ a.lqtVotes)

def IsHex (s : String) (b : Bytes) : Prop := s.toLower = Hex.encode b

structure Decoded (a : Answer) (x : Authorized) : Prop where
  plan : IsHex a.plan x.plan
  effectHash : IsHex a.effectHash x.effectHash
  spendAuths : List.Forall₂ IsHex a.spendAuths x.spendAuths
  delegatorVotes : List.Forall₂ IsHex a.delegatorVotes x.delegatorVotes
  lqtVotes : List.Forall₂ IsHex a.lqtVotes x.lqtVotes

/-- A list is decoded if each of its texts is. -/
theorem mapM_isHex_iff {ss : List String} {bs : List Bytes} :
    ss.mapM Hex.decode = .ok bs ↔ List.Forall₂ IsHex ss bs := by
  rw [mapM_ok_iff]
  exact ⟨fun h => h.imp fun _ _ => Hex.decode_eq_ok_iff.mp, fun h => h.imp fun _ _ => Hex.decode_eq_ok_iff.mpr⟩

/-- The lists keep their order and their lengths when they are decoded. -/
theorem decode_ok_iff : a.decode = .ok x ↔ Decoded a x := by
  constructor
  · intro h
    obtain ⟨plan, hplan, h⟩ := ok_of_bind h
    obtain ⟨effectHash, heffectHash, h⟩ := ok_of_bind h
    obtain ⟨spends, hspends, h⟩ := ok_of_bind h
    obtain ⟨delegators, hdelegators, h⟩ := ok_of_bind h
    obtain ⟨lqts, hlqts, h⟩ := ok_of_bind h
    cases h
    exact ⟨Hex.decode_eq_ok_iff.mp hplan, Hex.decode_eq_ok_iff.mp heffectHash, mapM_isHex_iff.mp hspends,
      mapM_isHex_iff.mp hdelegators, mapM_isHex_iff.mp hlqts⟩
  · rintro ⟨hplan, heffectHash, hspends, hdelegators, hlqts⟩
    rw [Answer.decode, Hex.decode_eq_ok_iff.mpr hplan, Hex.decode_eq_ok_iff.mpr heffectHash,
      mapM_isHex_iff.mpr hspends, mapM_isHex_iff.mpr hdelegators, mapM_isHex_iff.mpr hlqts]
    rfl

def bytesOf (x : Authorized) : List Bytes :=
  x.plan :: x.effectHash :: (x.spendAuths ++ x.delegatorVotes ++ x.lqtVotes)

/-- An answer is decoded as its texts are, one after the other. -/
theorem mapM_texts (a : Answer) : a.texts.mapM Hex.decode = a.decode.map bytesOf := by
  rw [Answer.texts, Answer.decode, List.mapM_cons, List.mapM_cons, List.mapM_append, List.mapM_append]
  cases Hex.decode a.plan with
  | error => rfl
  | ok =>
  cases Hex.decode a.effectHash with
  | error => rfl
  | ok =>
  cases a.spendAuths.mapM Hex.decode with
  | error => rfl
  | ok =>
  cases a.delegatorVotes.mapM Hex.decode with
  | error => rfl
  | ok =>
  cases a.lqtVotes.mapM Hex.decode <;> rfl

/-- An answer that is not decoded has a first text that is not. -/
theorem decode_error_iff {cause : HexError} : a.decode = .error cause ↔
    ∃ before s behind, a.texts = before ++ s :: behind ∧ (∀ t ∈ before, ∃ b, IsHex t b) ∧
      Hex.decode s = .error cause := by
  have htexts : a.decode = .error cause ↔ a.texts.mapM Hex.decode = .error cause := by
    rw [mapM_texts]
    cases a.decode with
    | ok => exact ⟨(nomatch ·), (nomatch ·)⟩
    | error => simp only [Except.map, Except.error.injEq]
  simp only [htexts, mapM_error_iff, IsHex, Hex.decode_eq_ok_iff]

end SignerBench.Vectors.Authorizer
