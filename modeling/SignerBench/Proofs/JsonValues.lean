import SignerBench.Proofs.JsonText

namespace SignerBench.Json

def Number.Fits : Number → Prop
  | .integer n => -0x8000000000000000 ≤ n ∧ n < 0x10000000000000000
  | .float _ => True

def Scalar.Fits : Scalar → Prop
  | .number n => n.Fits
  | .null | .bool _ | .text _ => True

def Token.Fits (t : Token) : Prop := ∀ s, t = .scalar (.ok s) → s.Fits

variable {negative : Bool} {m : Mantissa} {s : Scalar}

/-- A float has no word that it must fit. -/
theorem fits_float (h : m.float negative = .ok s) : s.Fits := by
  unfold Mantissa.float at h
  split at h
  · cases h
    trivial
  · cases h

/-- A whole number that no word holds with its sign has become a float. -/
theorem fits_plain (small : m.value < wordLimit) (h : m.plain negative = .ok s) : s.Fits := by
  unfold Mantissa.plain at h
  split at h
  · exact fits_float h
  split at h
  · split at h
    · exact fits_float h
    · rename_i hsize
      cases h
      simp only [not_or, Nat.not_lt] at hsize
      simp only [Scalar.Fits, Number.Fits]
      omega
  · cases h
    have hlimit : wordLimit = 0x10000000000000000 := rfl
    simp only [Scalar.Fits, Number.Fits]
    omega

theorem fits_withExponent {down : Bool} {digits : Bytes} (h : m.withExponent negative down digits = .ok s) :
    s.Fits := by
  unfold Mantissa.withExponent at h
  dsimp only at h
  split at h
  · split at h
    · cases h
    · cases h
      trivial
  · exact fits_float h

theorem fits_scanExponent (negative : Bool) (m : Mantissa) (text : Bytes) :
    (scanExponent negative m text).token.Fits := by
  unfold scanExponent
  intro s h
  split at h
  split at h
  · cases h
  split at h
  · exact fits_withExponent (Token.scalar.inj h)
  · cases h

theorem fits_scanFraction (negative : Bool) (m : Mantissa) (text : Bytes) :
    (scanFraction negative m text).token.Fits := by
  unfold scanFraction
  split
  · intro s h
    cases h
  split
  · dsimp only
    split
    · split
      · exact fits_scanExponent _ _ _
      · intro s h
        exact fits_float (Token.scalar.inj h)
    · intro s h
      exact fits_float (Token.scalar.inj h)
  · intro s h
    cases h

theorem fits_scanTail (small : m.value < wordLimit) (text : Bytes) : (scanTail negative m text).token.Fits := by
  unfold scanTail
  split
  · split
    · exact fits_scanFraction _ _ _
    split
    · exact fits_scanExponent _ _ _
    · intro s h
      exact fits_plain small (Token.scalar.inj h)
  · intro s h
    exact fits_plain small (Token.scalar.inj h)

theorem whole_small (small : m.value < wordLimit) (digit : Nat) : (m.whole digit).value < wordLimit := by
  unfold Mantissa.whole
  split
  · exact small
  · rename_i more
    exact Nat.lt_of_not_le fun h => more (.inr h)

theorem foldl_whole_small (small : m.value < wordLimit) (digits : Bytes) :
    (digits.foldl (fun m b => m.whole (digitValue b)) m).value < wordLimit := by
  induction digits generalizing m with
  | nil => exact small
  | cons b digits ih => exact ih (whole_small small _)

/-- The digits are added up only as far as the value stays below the word limit. From there on a number is a float. -/
theorem fits_scanNumber (negative : Bool) (text : Bytes) : (scanNumber negative text).token.Fits := by
  have hzero : 0 < wordLimit := by decide
  unfold scanNumber
  split
  · intro s h
    cases h
  split
  · split
    · split
      · intro s h
        cases h
      · exact fits_scanTail hzero _
    · exact fits_scanTail hzero _
  split
  · exact fits_scanTail (foldl_whole_small hzero _) _
  · intro s h
    cases h

theorem fits_scanText (d : Draught) (text : Bytes) : (scanText d text).token.Fits := by
  fun_induction scanText d text <;> first | assumption | exact fun _ h => nomatch h

theorem fits_scanWord {value : Scalar} (fits : value.Fits) (word text : Bytes) :
    (scanWord word value text).token.Fits := by
  induction word generalizing text with
  | nil =>
    rintro s ⟨⟩
    exact fits
  | cons w word ih =>
    cases text with
    | nil =>
      intro s h
      cases h
    | cons b text =>
      unfold scanWord
      split
      · exact ih text
      · intro s h
        cases h

/-- Whatever the first byte is, the word that begins with it fits. -/
theorem fits_scan (b : UInt8) (rest : Bytes) : (scan b rest).token.Fits := by
  have either {p : Prop} [Decidable p] {x y : Scan} (hx : x.token.Fits) (hy : y.token.Fits) :
      (if p then x else y).token.Fits := by
    split
    · exact hx
    · exact hy
  -- A mark is no scalar, and any other word has its own scanner.
  unfold scan
  iterate 6 refine either (fun _ h => nomatch h) ?_
  refine either (fits_scanText _ _) ?_
  iterate 3
    refine either (fits_scanWord ?_ _ _) ?_
    · trivial
  iterate 2 refine either (fits_scanNumber _ _) ?_
  exact fun _ h => nomatch h

theorem fits_scanAll (room : Nat) {done : List Token} (text : Bytes) (fits : ∀ t ∈ done, t.Fits) :
    ∀ t ∈ scanAll room done text, t.Fits := by
  induction room generalizing done text with
  | zero =>
    intro t ht
    cases text <;> exact fits t (List.mem_reverse.mp ht)
  | succ room ih =>
    cases text with
    | nil =>
      intro t ht
      exact fits t (List.mem_reverse.mp ht)
    | cons b rest =>
      rw [scanAll]
      split
      · exact ih rest fits
      · exact ih _ (List.forall_mem_cons.mpr ⟨fits_scan b rest, fits⟩)

/-- No text has a token with a whole number of more than 64 bits. -/
theorem fits_tokens (text : Bytes) : ∀ t ∈ tokens text, t.Fits :=
  fits_scanAll _ text (List.forall_mem_nil _)

inductive Draft.Fits : Draft → Prop where
  | scalar {value : Except Fault Scalar} (fits : ∀ s, value = .ok s → s.Fits) : Fits (.scalar value)
  | array {items : List Draft} {ending : Ending} (fits : ∀ d ∈ items, d.Fits) : Fits (.array items ending)
  | object {entries : List (Except Fault String × Draft)} {ending : Ending} (fits : ∀ e ∈ entries, e.2.Fits) :
    Fits (.object entries ending)
  | broken (reading passing : Fault) : Fits (.broken reading passing)

def Frame.Fits : Frame → Prop
  | .array items => ∀ d ∈ items, d.Fits
  | .object entries _ => ∀ e ∈ entries, e.2.Fits

def Reader.Fits : Reader → Prop
  | .at _ frames => ∀ f ∈ frames, f.Fits
  | .done root => root.Fits
  | .ended document => document.root.Fits

variable {d : Draft} {f : Frame} {frames : List Frame} {t : Token}

theorem Frame.Fits.add (fits : f.Fits) (hd : d.Fits) : (f.add d).Fits := by
  cases f with
  | array items => exact List.forall_mem_cons.mpr ⟨hd, fits⟩
  | object entries key => exact List.forall_mem_cons.mpr ⟨hd, fits⟩

theorem Frame.Fits.close (fits : f.Fits) (ending : Ending) : (f.close ending).Fits := by
  cases f with
  | array items => exact .array fun d h => fits d (List.mem_reverse.mp h)
  | object entries key => exact .object fun e h => fits e (List.mem_reverse.mp h)

/-- Closing what is open adds no number, however the branches end. -/
theorem fits_closeAll (passing : Fault) (hd : d.Fits) (fits : ∀ f ∈ frames, f.Fits) :
    (closeAll passing d frames).Fits := by
  induction frames generalizing d with
  | nil => exact hd
  | cons f frames ih =>
    obtain ⟨hf, hframes⟩ := List.forall_mem_cons.mp fits
    exact ih ((hf.add hd).close _) hframes

theorem fits_breakOff (reading passing : Fault) (fits : ∀ f ∈ frames, f.Fits) :
    (breakOff reading passing frames).Fits :=
  fits_closeAll _ (.broken _ _) fits

theorem fits_cutOff (fault : Fault) (fits : ∀ f ∈ frames, f.Fits) : (cutOff fault frames).Fits := by
  cases frames with
  | nil => exact .broken _ _
  | cons f frames =>
    obtain ⟨hf, hframes⟩ := List.forall_mem_cons.mp fits
    exact fits_closeAll _ (hf.close _) hframes

theorem Reader.fits_settle (hd : d.Fits) (fits : ∀ f ∈ frames, f.Fits) : (Reader.settle d frames).Fits := by
  cases frames with
  | nil => exact hd
  | cons f frames =>
    obtain ⟨hf, hframes⟩ := List.forall_mem_cons.mp fits
    exact List.forall_mem_cons.mpr ⟨hf.add hd, hframes⟩

theorem Reader.fits_value (ht : t.Fits) (fits : ∀ f ∈ frames, f.Fits) : (Reader.value frames t).Fits := by
  cases t with
  | openArray => exact List.forall_mem_cons.mpr ⟨List.forall_mem_nil _, fits⟩
  | openObject => exact List.forall_mem_cons.mpr ⟨List.forall_mem_nil _, fits⟩
  | scalar value =>
    apply fits_settle _ fits
    exact .scalar fun s hs => ht s (congrArg Token.scalar hs)
  | quoted value =>
    apply fits_settle _ fits
    apply Draft.Fits.scalar
    intro s hs
    cases value with
    | error => cases hs
    | ok text =>
      cases hs
      trivial
  | brokenText | broken | closeArray | closeObject | comma | colon => exact fits_breakOff _ _ fits

theorem Reader.fits_key (fits : ∀ f ∈ frames, f.Fits) : (Reader.key frames t).Fits := by
  unfold Reader.key
  split
  · obtain ⟨hf, hframes⟩ := List.forall_mem_cons.mp fits
    exact List.forall_mem_cons.mpr ⟨hf, hframes⟩
  · obtain ⟨hf, hframes⟩ := List.forall_mem_cons.mp fits
    exact fits_breakOff _ _ (List.forall_mem_cons.mpr ⟨hf, hframes⟩)
  · exact fits_cutOff _ fits

theorem Reader.fits_shut {r : Reader} (fits : ∀ f ∈ frames, f.Fits) (h : Reader.shut frames t = some r) : r.Fits := by
  unfold Reader.shut at h
  split at h
  · obtain ⟨hf, hframes⟩ := List.forall_mem_cons.mp fits
    cases h
    exact fits_settle (hf.close .closed) hframes
  · obtain ⟨hf, hframes⟩ := List.forall_mem_cons.mp fits
    cases h
    exact fits_settle (hf.close .closed) hframes
  · cases h

theorem Reader.fits_shut_getD {r : Reader} (fits : ∀ f ∈ frames, f.Fits) (hr : r.Fits) :
    ((Reader.shut frames t).getD r).Fits := by
  cases h : Reader.shut frames t with
  | none => exact hr
  | some r' => exact fits_shut fits h

/-- No token brings a number that does not fit. -/
theorem Reader.fits_step {r : Reader} (hr : r.Fits) (ht : t.Fits) : (r.step t).Fits := by
  cases r with
  | ended document => exact hr
  | done root => exact hr
  | «at» place frames =>
    cases place with
    | value => exact fits_value ht hr
    | firstValue => exact fits_shut_getD hr (fits_value ht hr)
    | key => exact fits_key hr
    | firstKey => exact fits_shut_getD hr (fits_key hr)
    | colon =>
      cases t with
      | colon => exact hr
      | _ => exact fits_breakOff _ _ hr
    | after =>
      unfold Reader.step
      dsimp only
      split
      · exact hr
      · exact hr
      · exact fits_shut_getD hr (fits_cutOff _ hr)

/-- What a reader has gathered fits behind any number of tokens. The induction is on the tokens, and the frames that are
open carry the invariant. -/
theorem Reader.fits_foldl {ts : List Token} {r : Reader} (hr : r.Fits) (fits : ∀ t ∈ ts, t.Fits) :
    (ts.foldl Reader.step r).Fits := by
  induction ts generalizing r with
  | nil => exact hr
  | cons t ts ih =>
    obtain ⟨ht, hts⟩ := List.forall_mem_cons.mp fits
    exact ih (fits_step hr ht) hts

theorem Reader.fits_finish {r : Reader} (hr : r.Fits) : r.finish.root.Fits := by
  cases r with
  | ended document => exact hr
  | done root => exact hr
  | «at» place frames =>
    cases place with
    | value | colon => exact fits_breakOff _ _ hr
    | firstValue | key | firstKey | after => exact fits_cutOff _ hr

/-- No leaf of the tree of a text is a whole number of more than 64 bits, also where the text breaks off. -/
theorem fits_ofBytes (text : Bytes) : (Document.ofBytes text).root.Fits :=
  Reader.fits_finish (Reader.fits_foldl (List.forall_mem_nil _) (fits_tokens text))

/-- What can be read: whole numbers fit, and an object has no key twice. -/
inductive Sound : Json → Prop where
  | null : Sound .null
  | bool (b : Bool) : Sound (.bool b)
  | number {n : Number} (fits : n.Fits) : Sound (.number n)
  | text (s : String) : Sound (.text s)
  | array {items : List Json} (sound : ∀ v ∈ items, Sound v) : Sound (.array items)
  | object {entries : Entries} (distinct : (entries.map Prod.fst).Nodup) (sound : ∀ e ∈ entries, Sound e.2) :
    Sound (.object entries)

namespace Entries

variable {entries : Entries} {key : String} {value : Json}

/-- An entry takes the place of the older one with its key, and else comes last. -/
theorem keys_put (entries : Entries) (key : String) (value : Json) :
    (entries.put key value).map Prod.fst =
      if key ∈ entries.map Prod.fst then entries.map Prod.fst else entries.map Prod.fst ++ [key] := by
  have hany : entries.any (·.1 = key) = true ↔ key ∈ entries.map Prod.fst := by
    simp
  unfold put
  by_cases known : key ∈ entries.map Prod.fst
  · rw [if_pos (hany.mpr known), if_pos known, List.map_map]
    apply List.map_congr_left
    intro e _
    dsimp only [Function.comp_apply]
    split
    · rename_i h
      exact h.symm
    · rfl
  · rw [if_neg fun h => known (hany.mp h), if_neg known, List.map_append]
    rfl

/-- Putting an entry never makes a key stand twice, so an object that is read has distinct keys whatever its text
repeats. -/
theorem nodup_put (distinct : (entries.map Prod.fst).Nodup) (key : String) (value : Json) :
    ((entries.put key value).map Prod.fst).Nodup := by
  rw [keys_put]
  split
  · exact distinct
  · rename_i fresh
    apply List.nodup_append.mpr
    refine ⟨distinct, List.pairwise_singleton _ _, ?_⟩
    rintro a ha _ hkey rfl
    exact fresh (List.mem_singleton.mp hkey ▸ ha)

theorem forall_put {p : Json → Prop} (h : ∀ e ∈ entries, p e.2) (hvalue : p value) :
    ∀ e ∈ entries.put key value, p e.2 := by
  intro e he
  unfold put at he
  split at he
  · obtain ⟨e', he', rfl⟩ := List.mem_map.mp he
    split
    · exact hvalue
    · exact h e' he'
  · rcases List.mem_append.mp he with he | he
    · exact h e he
    · obtain rfl := List.mem_singleton.mp he
      exact hvalue

/-- A new key leaves the older entries as they are. -/
theorem put_fresh (fresh : key ∉ entries.map Prod.fst) (value : Json) :
    entries.put key value = entries ++ [(key, value)] := by
  unfold put
  apply if_neg
  simpa using fresh

end Entries

/-- The items are read with the same room each. The values read before stand in `done`. -/
theorem sound_readItems {room : Nat} {ds : List Draft} {done vs : List Json}
    (each : ∀ d ∈ ds, ∀ v, d.readAny room = .ok v → Sound v) (sound : ∀ v ∈ done, Sound v)
    (h : Draft.readItems room done ds = .ok vs) : ∀ v ∈ vs, Sound v := by
  induction ds generalizing done with
  | nil =>
    cases h
    intro v hv
    exact sound v (List.mem_reverse.mp hv)
  | cons d ds ih =>
    obtain ⟨hd, hds⟩ := List.forall_mem_cons.mp each
    obtain ⟨v, hv, hrest⟩ := ok_of_bind h
    exact ih hds (List.forall_mem_cons.mpr ⟨hd v hv, sound⟩) hrest

/-- Of entries with the same key the last value is kept. So the keys are distinct, even if those of the text are not.
-/
theorem sound_readEntries {room : Nat} {ds : List (Except Fault String × Draft)} {done es : Entries}
    (each : ∀ e ∈ ds, ∀ v, e.2.readAny room = .ok v → Sound v) (distinct : (done.map Prod.fst).Nodup)
    (sound : ∀ e ∈ done, Sound e.2) (h : Draft.readEntries room done ds = .ok es) :
    (es.map Prod.fst).Nodup ∧ ∀ e ∈ es, Sound e.2 := by
  induction ds generalizing done with
  | nil =>
    cases h
    exact ⟨distinct, sound⟩
  | cons e ds ih =>
    obtain ⟨hd, hds⟩ := List.forall_mem_cons.mp each
    obtain ⟨key | key, d⟩ := e
    · cases h
    · obtain ⟨v, hv, hrest⟩ := ok_of_bind h
      exact ih hds (Entries.nodup_put distinct key v) (Entries.forall_put sound (hd v hv)) hrest

/-- The induction is on why the numbers fit. A branch gives a value only if it was closed in the text. -/
theorem sound_readAny {d : Draft} (fits : d.Fits) (room : Nat) (v : Json) (h : d.readAny room = .ok v) : Sound v := by
  induction fits generalizing room v with
  | @scalar value fits =>
    cases value with
    | error => cases h
    | ok s =>
      cases s with
      | null =>
        cases h
        exact .null
      | bool b =>
        cases h
        exact .bool b
      | number n =>
        cases h
        exact .number (fits _ rfl)
      | text s =>
        cases h
        exact .text s
  | @array items ending _ ih =>
    cases room with
    | zero => cases h
    | succ room =>
      obtain ⟨vs, hvs, hclose⟩ := ok_of_bind h
      cases ending with
      | closed =>
        cases hclose
        exact .array (sound_readItems (fun d hd v => ih d hd room v) (List.forall_mem_nil _) hvs)
      | cut | inside => cases hclose
  | @object entries ending _ ih =>
    cases room with
    | zero => cases h
    | succ room =>
      obtain ⟨es, hes, hclose⟩ := ok_of_bind h
      have hnone : (([] : Entries).map Prod.fst).Nodup := List.nodup_nil
      obtain ⟨distinct, sound⟩ := sound_readEntries (fun e he v => ih e he room v) hnone (List.forall_mem_nil _) hes
      cases ending with
      | closed =>
        cases hclose
        exact .object distinct sound
      | cut | inside => cases hclose
  | broken => cases h

/-- Every value that is parsed is sound. Nothing is assumed of the text. -/
theorem sound_of_parse {text : Bytes} {v : Json} (h : parse text = .ok v) : Sound v := by
  obtain ⟨value, hvalue, htrailing⟩ := ok_of_bind h
  have sound := sound_readAny (fits_ofBytes text) maxDepth value hvalue
  split at htrailing
  · cases htrailing
    exact sound
  · cases htrailing

mutual

def depth : Json → Nat
  | .array items => depthItems items + 1
  | .object entries => depthEntries entries + 1
  | .null | .bool _ | .number _ | .text _ => 0

def depthItems : List Json → Nat
  | [] => 0
  | v :: vs => max (depth v) (depthItems vs)

def depthEntries : List (String × Json) → Nat
  | [] => 0
  | (_, v) :: es => max (depth v) (depthEntries es)

end

inductive Integral : Json → Prop where
  | null : Integral .null
  | bool (b : Bool) : Integral (.bool b)
  | number (n : Int) : Integral (.number (.integer n))
  | text (s : String) : Integral (.text s)
  | array {items : List Json} (integral : ∀ v ∈ items, Integral v) : Integral (.array items)
  | object {entries : Entries} (integral : ∀ e ∈ entries, Integral e.2) : Integral (.object entries)

theorem wholeEntries_of_forall {es : Entries} (whole : ∀ e ∈ es, Whole e.2) : WholeEntries es := by
  induction es with
  | nil => trivial
  | cons e es ih =>
    obtain ⟨he, hes⟩ := List.forall_mem_cons.mp whole
    exact ⟨he, ih hes⟩

/-- Only floats can keep a value that was read from being written in digits that are read as the same numbers. -/
theorem Integral.whole {v : Json} (integral : Integral v) (sound : Sound v) : Whole v := by
  induction integral with
  | null | bool | text => trivial
  | number n =>
    cases sound with
    | number fits => exact fits
  | array _ ih =>
    cases sound with
    | array sound => exact wholeItems_of_forall fun v hv => ih v hv (sound v hv)
  | object _ ih =>
    cases sound with
    | object _ sound => exact wholeEntries_of_forall fun e he => ih e he (sound e he)

section

variable {room : Nat}

/-- Reading a value again fails only where it lies too deep. -/
def again (room : Nat) (v : Json) : Read Json := if depth v ≤ room then .ok v else .fault .misplaced

/-- Items that are written are read again as far as each of them is, with the room that their branches take. -/
theorem readItems_draft {vs : List Json} (each : ∀ v ∈ vs, Draft.readAny room (draft v) = again room v)
    (done : List Json) : Draft.readItems room done (draftItems vs) =
      if depthItems vs ≤ room then .ok (done.reverse ++ vs) else .fault .misplaced := by
  induction vs generalizing done with
  | nil => exact (congrArg Except.ok (List.append_nil _)).symm
  | cons v vs ih =>
    obtain ⟨hv, hvs⟩ := List.forall_mem_cons.mp each
    change (Draft.readAny room (draft v) >>= fun v => Draft.readItems room (v :: done) (draftItems vs)) = _
    rw [hv, again]
    by_cases flat : depth v ≤ room
    · rw [if_pos flat]
      refine (ih hvs (v :: done)).trans ?_
      rw [depthItems, List.reverse_cons, List.append_assoc]
      simp only [Nat.max_le, flat, true_and, List.singleton_append]
    · rw [if_neg flat, if_neg]
      · rfl
      · rw [depthItems]
        omega

/-- Entries are read again in their order, as the keys are distinct and no entry takes the place of another one. -/
theorem readEntries_draft {es : Entries} (each : ∀ e ∈ es, Draft.readAny room (draft e.2) = again room e.2)
    (done : Entries) (distinct : ((done ++ es).map Prod.fst).Nodup) :
    Draft.readEntries room done (draftEntries es) =
      if depthEntries es ≤ room then .ok (done ++ es) else .fault .misplaced := by
  induction es generalizing done with
  | nil => exact (congrArg Except.ok (List.append_nil _)).symm
  | cons e es ih =>
    obtain ⟨key, v⟩ := e
    obtain ⟨hv, hes⟩ := List.forall_mem_cons.mp each
    have hput : done.put key v = done ++ [(key, v)] := by
      apply Entries.put_fresh
      intro known
      rw [List.map_append, List.nodup_append] at distinct
      obtain ⟨_, _, apart⟩ := distinct
      exact apart key known key List.mem_cons_self rfl
    change (Draft.readAny room (draft v) >>= fun v => Draft.readEntries room (done.put key v) (draftEntries es)) = _
    rw [hv, again]
    by_cases flat : depth v ≤ room
    · rw [if_pos flat]
      have hmore : done ++ (key, v) :: es = done ++ [(key, v)] ++ es := by simp
      change Draft.readEntries room (done.put key v) (draftEntries es) = _
      rw [hmore] at distinct
      rw [hput, ih hes _ distinct, depthEntries, hmore]
      simp only [Nat.max_le, flat, true_and]
    · rw [if_neg flat, if_neg]
      · rfl
      · rw [depthEntries]
        omega

/-- A value that can be read is read again where its branches have room. -/
theorem readAny_draft {v : Json} (sound : Sound v) (room : Nat) : Draft.readAny room (draft v) = again room v := by
  induction sound generalizing room with
  | null | bool | number | text => rfl
  | @array items _ ih =>
    cases room with
    | zero => rfl
    | succ room =>
      have hitems := readItems_draft (fun v hv => ih v hv room) []
      change (Draft.readItems room [] (draftItems items) >>= fun vs => Ending.close (Json.array vs) .closed) = _
      rw [hitems, again, depth]
      by_cases flat : depthItems items ≤ room
      · rw [if_pos flat, if_pos (Nat.succ_le_succ flat)]
        rfl
      · rw [if_neg flat, if_neg fun h => flat (Nat.le_of_succ_le_succ h)]
        rfl
  | @object entries distinct _ ih =>
    cases room with
    | zero => rfl
    | succ room =>
      have hentries := readEntries_draft (fun e he => ih e he room) [] distinct
      change (Draft.readEntries room [] (draftEntries entries) >>= fun es => Ending.close (Json.object es) .closed) = _
      rw [hentries, again, depth]
      by_cases flat : depthEntries entries ≤ room
      · rw [if_pos flat, if_pos (Nat.succ_le_succ flat)]
        rfl
      · rw [if_neg flat, if_neg fun h => flat (Nat.le_of_succ_le_succ h)]
        rfl

end

end SignerBench.Json
