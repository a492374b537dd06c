import SignerBench.Proofs.JsonNumbers
import SignerBench.Proofs.JsonText

namespace SignerBench.Json

mutual

/-- The tree of a value, in which each number is what its own text is read as. -/
inductive Shown : Json → Draft → Prop where
  | null : Shown .null (.scalar (.ok .null))
  | bool (b : Bool) : Shown (.bool b) (.scalar (.ok (.bool b)))
  | number {n : Number} {value : Except Fault Scalar}
      (written : tokens (Bytes.ofText (numberText n)) = [.scalar value]) : Shown (.number n) (.scalar value)
  | text (s : String) : Shown (.text s) (.scalar (.ok (.text s)))
  | array {vs : List Json} {ds : List Draft} (items : ShownItems vs ds) : Shown (.array vs) (.array ds .closed)
  | object {es : List (String × Json)} {ds : List (Except Fault String × Draft)} (entries : ShownEntries es ds) :
      Shown (.object es) (.object ds .closed)

inductive ShownItems : List Json → List Draft → Prop where
  | nil : ShownItems [] []
  | cons {v : Json} {vs : List Json} {d : Draft} {ds : List Draft} (item : Shown v d) (items : ShownItems vs ds) :
      ShownItems (v :: vs) (d :: ds)

inductive ShownEntries : List (String × Json) → List (Except Fault String × Draft) → Prop where
  | nil : ShownEntries [] []
  | cons {k : String} {v : Json} {es : List (String × Json)} {d : Draft} {ds : List (Except Fault String × Draft)}
      (value : Shown v d) (entries : ShownEntries es ds) : ShownEntries ((k, v) :: es) ((.ok k, d) :: ds)

end

/-- The text of a number by itself is one word. -/
theorem tokens_numberText {n : Number} {ws : List Token} (h : Spells (numberText n).toList ws Stops) :
    tokens (Bytes.ofText (numberText n)) = ws := by
  refine h.tokens ?_
  rw [charBytes, ← Bytes.ofText_ofList, String.ofList_toList]

mutual

/-- A value with whole numbers only is shown by its own tree. -/
theorem Shown.eq_draft {d : Draft} : ∀ v : Json, Whole v → Shown v d → d = draft v
  | .null, _, .null => rfl
  | .bool _, _, .bool _ => rfl
  | .number _, whole, .number written => by
    cases written.symm.trans (tokens_numberText (spells_number whole))
    rfl
  | .text _, _, .text _ => rfl
  | .array vs, whole, .array items => by rw [draft, items.eq_draftItems vs whole]
  | .object es, whole, .object entries => by rw [draft, entries.eq_draftEntries es whole]

theorem ShownItems.eq_draftItems {ds : List Draft} : ∀ vs : List Json, WholeItems vs → ShownItems vs ds →
    ds = draftItems vs
  | [], _, .nil => rfl
  | v :: vs, ⟨whole, wholes⟩, .cons item items => by
    rw [draftItems, item.eq_draft v whole, items.eq_draftItems vs wholes]

/-- Keys are shown as they are, so only the numbers below them could differ. -/
theorem ShownEntries.eq_draftEntries {ds : List (Except Fault String × Draft)} :
    ∀ es : List (String × Json), WholeEntries es → ShownEntries es ds → ds = draftEntries es
  | [], _, .nil => rfl
  | (_, v) :: es, ⟨whole, wholes⟩, .cons value entries => by
    rw [draftEntries, value.eq_draft v whole, entries.eq_draftEntries es wholes]

end

mutual

/-- The text of a value has the words of a tree that shows it. -/
theorem spells_compact : ∀ v : Json, ∃ ws d, Spells (compactChars v) ws Stops ∧ ReadAs ws d ∧ Shown v d
  | .null => ⟨_, _, (spells_word (b := byte 'n') rfl rfl fun _ => rfl).weaken, readAs_scalar _, .null⟩
  | .bool true => ⟨_, _, (spells_word (b := byte 't') rfl rfl fun _ => rfl).weaken, readAs_scalar _, .bool true⟩
  | .bool false => ⟨_, _, (spells_word (b := byte 'f') rfl rfl fun _ => rfl).weaken, readAs_scalar _, .bool false⟩
  | .number n => by
    obtain ⟨value, hspells⟩ := spells_anyNumber n
    exact ⟨_, _, hspells, readAs_scalar value, .number (tokens_numberText hspells)⟩
  | .text s => ⟨_, _, (spells_quoted s).weaken, readAs_quoted s, .text s⟩
  | .array [] => ⟨_, _, spells_openArray.then spells_closeArray.weaken, readAs_emptyArray, .array .nil⟩
  | .array (v :: vs) => by
    obtain ⟨ws, d, hspells, hreads, hshown⟩ := spells_compact v
    obtain ⟨ws', ds, hothers, hitems, hshowns⟩ := spells_compactItems vs
    refine ⟨_, _, ?_, hreads.array hitems, .array (.cons hshown hshowns)⟩
    have hbranch := spells_branch .nil hspells hothers spells_closeArray fun _ => stops_cons (.inr (.inr (.inl rfl)))
    simpa [compactChars, separated, compactItems] using spells_openArray.then hbranch
  | .object [] => ⟨_, _, spells_openObject.then spells_closeObject.weaken, readAs_emptyObject, .object .nil⟩
  | .object ((k, v) :: es) => by
    obtain ⟨ws, d, hspells, hreads, hshown⟩ := spells_compact v
    obtain ⟨ws', ds, hothers, hentries, hshowns⟩ := spells_compactEntries es
    refine ⟨_, _, ?_, hreads.object (k := k) hentries, .object (.cons hshown hshowns)⟩
    have hbranch := spells_branch .nil (spells_entry (k := k) .nil hspells) hothers spells_closeObject
      fun _ => stops_cons (.inr (.inr (.inr rfl)))
    simpa [compactChars, separated, compactEntries] using spells_openObject.then hbranch

theorem spells_compactItems : ∀ vs : List Json, ∃ ws ds,
    Spells ((compactItems vs).flatMap ((',' :: []) ++ ·)) ws Stops ∧ ReadAsItems ws ds ∧ ShownItems vs ds
  | [] => ⟨_, _, .nil, readAsItems_nil, .nil⟩
  | v :: vs => by
    obtain ⟨ws, d, hspells, hreads, hshown⟩ := spells_compact v
    obtain ⟨ws', ds, hothers, hitems, hshowns⟩ := spells_compactItems vs
    exact ⟨_, _, spells_next .nil hspells hothers, hitems.cons hreads, .cons hshown hshowns⟩

theorem spells_compactEntries : ∀ es : List (String × Json), ∃ ws ds,
    Spells ((compactEntries es).flatMap ((',' :: []) ++ ·)) ws Stops ∧ ReadAsEntries ws ds ∧ ShownEntries es ds
  | [] => ⟨_, _, .nil, readAsEntries_nil, .nil⟩
  | (k, v) :: es => by
    obtain ⟨ws, d, hspells, hreads, hshown⟩ := spells_compact v
    obtain ⟨ws', ds, hothers, hentries, hshowns⟩ := spells_compactEntries es
    have hentry := spells_entry (k := k) .nil hspells
    rw [List.nil_append] at hentry
    exact ⟨_, _, spells_next .nil hentry hothers, .cons hreads hentries, .cons hshown hshowns⟩

end

/-- The text of a value holds a tree that shows it, and nothing behind it. -/
theorem ofBytes_compact (v : Json) :
    ∃ d, Document.ofBytes (Bytes.ofText (compact v)) = ⟨d, none⟩ ∧ Shown v d := by
  obtain ⟨ws, d, hspells, hreads, hshown⟩ := spells_compact v
  exact ⟨d, hreads.ofBytes (hspells.tokens (Bytes.ofText_ofList _)), hshown⟩

end SignerBench.Json
