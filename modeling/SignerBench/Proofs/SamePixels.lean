import SignerBench.Proofs.GoldenSets

namespace SignerBench.Snapshot

variable {decode : Bytes → Option Image.Raster} {a a' b b' c : Snapshot}

theorem sameBy_iff : sameBy decode a b = true ↔ a = b ∨ ∃ p, decode a.png = some p ∧ decode b.png = some p := by
  unfold sameBy
  by_cases heq : a.png = b.png
  · rw [if_pos heq]
    exact iff_of_true rfl (.inl (congrArg Snapshot.mk heq))
  · have hne : a ≠ b := fun h => heq (congrArg png h)
    rw [if_neg heq, or_iff_right hne]
    cases decode a.png <;> cases decode b.png <;> simp [eq_comm]

/-- An image that can be decoded is only ever the same as images that can be decoded, to the same pixels. So the cases
never mix along a chain. -/
theorem sameBy_equivalence (decode : Bytes → Option Image.Raster) :
    Equivalence fun a b : Snapshot => sameBy decode a b = true where
  refl a := sameBy_iff.mpr (.inl rfl)
  symm h := by
    rcases sameBy_iff.mp h with rfl | ⟨p, ha, hb⟩
    · exact h
    · exact sameBy_iff.mpr (.inr ⟨p, hb, ha⟩)
  trans h h' := by
    rcases sameBy_iff.mp h with rfl | ⟨p, ha, hb⟩
    · exact h'
    rcases sameBy_iff.mp h' with rfl | ⟨q, hb', hc⟩
    · exact h
    cases hb.symm.trans hb'
    exact sameBy_iff.mpr (.inr ⟨p, ha, hc⟩)

/-- Either side may be replaced by an image with the same pixels. -/
theorem sameBy_congr (ha : sameBy decode a a' = true) (hb : sameBy decode b b' = true) :
    sameBy decode a b = sameBy decode a' b' := by
  have equivalence := sameBy_equivalence decode
  refine Bool.eq_iff_iff.mpr ⟨fun h => ?_, fun h => ?_⟩
  · exact equivalence.trans (equivalence.symm ha) (equivalence.trans h hb)
  · exact equivalence.trans ha (equivalence.trans h (equivalence.symm hb))

theorem samePixels_comm (a b : Snapshot) : a.samePixels b = b.samePixels a :=
  Bool.eq_iff_iff.mpr ⟨(sameBy_equivalence _).symm, (sameBy_equivalence _).symm⟩

/-- The reason as it is told of a set with its goldens in another directory. -/
def Reason.inDir (dir : String) : Reason → Reason
  | .noGoldens _ => .noGoldens dir
  | reason => reason

namespace Goldens

open Files

/-- A comparison is one with the decoder at hand. -/
theorem compareBy_png : compareBy (sameBy Image.Png.decode) = compare := rfl

variable {captured captured' goldens goldens' : List Snapshot} {dir dir' : String}

abbrev Alike (decode : Bytes → Option Image.Raster) : List Snapshot → List Snapshot → Prop :=
  List.Forall₂ fun a b => sameBy decode a b = true

theorem rel_getElem? {α : Type} {R : α → α → Prop} {l l' : List α} (h : List.Forall₂ R l l') (i : Nat) :
    Option.Rel R l[i]? l'[i]? := by
  induction h generalizing i with
  | nil => exact .none
  | cons hab _ ih =>
    cases i with
    | zero => exact .some hab
    | succ i => exact ih i

theorem agreeBy_congr (hc : Alike decode captured captured') (hg : Alike decode goldens goldens') (i : Nat) :
    agreeBy (sameBy decode) captured goldens i = agreeBy (sameBy decode) captured' goldens' i := by
  have hcaptured := rel_getElem? hc i
  have hgolden := rel_getElem? hg i
  unfold agreeBy
  generalize captured[i]? = c, captured'[i]? = c', goldens[i]? = g, goldens'[i]? = g' at hcaptured hgolden ⊢
  cases hcaptured with
  | none => rfl
  | some hsame =>
    cases hgolden with
    | none => rfl
    | some hsame' => exact sameBy_congr hsame hsame'

/-- Sets with the same pixels have the same first place at which they differ. -/
theorem verdictBy_congr (hc : Alike decode captured captured') (hg : Alike decode goldens goldens') :
    verdictBy (sameBy decode) dir' captured' goldens' =
      (verdictBy (sameBy decode) dir captured goldens).map (.inDir dir') := by
  have hcaptured := hc.length_eq
  have hgoldens := hg.length_eq
  have hempty : goldens = [] ↔ goldens' = [] := by
    rw [← List.length_eq_zero_iff, ← List.length_eq_zero_iff, hgoldens]
  have hagree : agreeBy (sameBy decode) captured goldens = agreeBy (sameBy decode) captured' goldens' :=
    funext (agreeBy_congr hc hg)
  unfold verdictBy places
  rw [hagree, hcaptured, hgoldens]
  by_cases hnone : goldens' = []
  · rw [if_pos hnone, if_pos (hempty.mpr hnone)]
    rfl
  · rw [if_neg hnone, if_neg (mt hempty.mp hnone)]
    split
    · rfl
    · rw [Option.map_map]
      rfl

/-- A comparison of a set of this name that came to a verdict: no update was asked for, and no file that it works on
failed it. -/
structure Run (decode : Bytes → Option Image.Raster) (name : String) where
  env : Environment
  scratch : String
  base : String
  captured : List Snapshot
  before : Tree
  result : Except Error Unit
  after : Tree
  run : (compareBy (sameBy decode) env base name captured).on (Tree.reply scratch) before = (result, after)
  noUpdate : updateRequested env = false
  undisturbed : ∀ cause, result ≠ .error (.files cause)

variable {name : String}

/-- The goldens of a run: the pictures that its directory of goldens holds, once the captured set is stored. -/
def Run.Finds (r : Run decode name) (goldens : List Snapshot) : Prop :=
  ∃ t, (writeSet (capturedDir r.base name) r.captured).on (Tree.reply r.scratch) r.before = (.ok (), t) ∧
    Held t (goldenDir r.base name) goldens

def Told (name : String) (result : Except Error Unit) : Option Reason → Prop
  | none => result = .ok ()
  | some reason => ∃ report, result = .error (.mismatch ⟨name, reason, report⟩)

/-- A run has goldens, and its verdict on them is what it tells. -/
theorem Run.told (r : Run decode name) : ∃ goldens, r.Finds goldens ∧
    Told name r.result (verdictBy (sameBy decode) (goldenDir r.base name) r.captured goldens) := by
  obtain ⟨env, scratch, base, captured, before, result, after, run, noUpdate, undisturbed⟩ := r
  dsimp only
  rw [compareBy_on] at run
  rcases hwrite : (writeSet (capturedDir base name) captured).on (Tree.reply scratch) before with ⟨e | _, t⟩
  · rw [hwrite] at run
    cases run
    exact absurd rfl (undisturbed e)
  rcases hread : (readSet (goldenDir base name)).on (Tree.reply scratch) t with ⟨e | goldens, t'⟩
  · simp only [hwrite, noUpdate, hread, Bool.false_eq_true, if_false] at run
    cases run
    exact absurd rfl (undisturbed e)
  refine ⟨goldens, ⟨t, hwrite, (held_of_readSet hread).2⟩, ?_⟩
  simp only [hwrite, noUpdate, hread, Bool.false_eq_true, if_false] at run
  cases hverdict : verdictBy (sameBy decode) (goldenDir base name) captured goldens with
  | none =>
    rw [hverdict] at run
    cases run
    rfl
  | some reason =>
    rw [hverdict] at run
    cases run
    exact ⟨_, rfl⟩

/-- Where the captured set can be stored and the goldens can be read, there is a run. -/
theorem exists_run (decode : Bytes → Option Image.Raster) {env : Environment} {scratch base : String} {t t₁ : Tree}
    (noUpdate : updateRequested env = false)
    (stored : (writeSet (capturedDir base name) captured).on (Tree.reply scratch) t = (.ok (), t₁))
    (held : Held t₁ (goldenDir base name) goldens) :
    ∃ r : Run decode name, r.captured = captured ∧ r.Finds goldens := by
  have hread := readSet_held scratch held
  obtain ⟨result, after, hrun, hresult⟩ : ∃ result after,
      (compareBy (sameBy decode) env base name captured).on (Tree.reply scratch) t = (result, after) ∧
        ∀ cause, result ≠ .error (.files cause) := by
    simp only [compareBy_on, stored, noUpdate, hread, Bool.false_eq_true, if_false]
    cases verdictBy (sameBy decode) (goldenDir base name) captured goldens with
    | none => exact ⟨_, _, rfl, nofun⟩
    | some reason => exact ⟨_, _, rfl, nofun⟩
  exact ⟨⟨env, scratch, base, captured, t, result, after, hrun, noUpdate, hresult⟩, rfl, t₁, stored, held⟩

theorem Run.finds_unique {r : Run decode name} (h : r.Finds goldens) (h' : r.Finds goldens') :
    goldens = goldens' := by
  obtain ⟨t, hwrite, held⟩ := h
  obtain ⟨t', hwrite', held'⟩ := h'
  cases hwrite.symm.trans hwrite'
  cases (readSet_held r.scratch held).symm.trans (readSet_held r.scratch held')
  rfl

/-- With any decoder, having the same pixels is an equivalence, and two runs on sets and goldens with the same pixels
come to the same result: both succeed, or both tell the same reason, but for the directory of the goldens. -/
theorem verdict_by_pixels (decode : Bytes → Option Image.Raster) :
    (Equivalence fun a b : Snapshot => sameBy decode a b = true) ∧
      compareBy (sameBy Image.Png.decode) = compare ∧
      ∀ (name : String) (r r' : Run decode name),
        (∃ goldens, r.Finds goldens) ∧
          ∀ goldens goldens', r.Finds goldens → r'.Finds goldens' → Alike decode goldens goldens' →
            Alike decode r.captured r'.captured →
            r.result = .ok () ∧ r'.result = .ok () ∨
              ∃ reason report report', r.result = .error (.mismatch ⟨name, reason, report⟩) ∧
                r'.result = .error (.mismatch ⟨name, reason.inDir (goldenDir r'.base name), report'⟩) := by
  refine ⟨sameBy_equivalence decode, compareBy_png, fun name r r' => ?_⟩
  obtain ⟨goldens, hgoldens, told⟩ := r.told
  obtain ⟨goldens', hgoldens', told'⟩ := r'.told
  refine ⟨⟨goldens, hgoldens⟩, fun _ _ h h' alike alikeCaptured => ?_⟩
  cases Run.finds_unique hgoldens h
  cases Run.finds_unique hgoldens' h'
  rw [verdictBy_congr alikeCaptured alike] at told'
  cases hverdict : verdictBy (sameBy decode) (goldenDir r.base name) r.captured goldens with
  | none =>
    rw [hverdict] at told told'
    exact .inl ⟨told, told'⟩
  | some reason =>
    rw [hverdict] at told told'
    obtain ⟨report, told⟩ := told
    obtain ⟨report', told'⟩ := told'
    exact .inr ⟨reason, report, report', told, told'⟩

def storedPng : Bytes :=
  [0x89, 0x50, 0x4e, 0x47, 0x0d, 0x0a, 0x1a, 0x0a, 0x00, 0x00, 0x00, 0x0d, 0x49, 0x48, 0x44, 0x52, 0x00, 0x00, 0x00,
  0x01, 0x00, 0x00, 0x00, 0x01, 0x08, 0x02, 0x00, 0x00, 0x00, 0x90, 0x77, 0x53, 0xde, 0x00, 0x00, 0x00, 0x0f, 0x49,
  0x44, 0x41, 0x54, 0x78, 0x01, 0x01, 0x04, 0x00, 0xfb, 0xff, 0x00, 0x0a, 0x00, 0x00, 0x00, 0x22, 0x00, 0x0b, 0x1d,
  0x2c, 0x4f, 0x62, 0x00, 0x00, 0x00, 0x00, 0x49, 0x45, 0x4e, 0x44, 0xae, 0x42, 0x60, 0x82]

def packedPng : Bytes :=
  [0x89, 0x50, 0x4e, 0x47, 0x0d, 0x0a, 0x1a, 0x0a, 0x00, 0x00, 0x00, 0x0d, 0x49, 0x48, 0x44, 0x52, 0x00, 0x00, 0x00,
  0x01, 0x00, 0x00, 0x00, 0x01, 0x08, 0x02, 0x00, 0x00, 0x00, 0x90, 0x77, 0x53, 0xde, 0x00, 0x00, 0x00, 0x0c, 0x49,
  0x44, 0x41, 0x54, 0x78, 0xda, 0x63, 0xe0, 0x62, 0x60, 0x00, 0x00, 0x00, 0x22, 0x00, 0x0b, 0x30, 0x8f, 0x3f, 0x87,
  0x00, 0x00, 0x00, 0x00, 0x49, 0x45, 0x4e, 0x44, 0xae, 0x42, 0x60, 0x82]

theorem packed_like_stored : sameBy Image.Png.decode ⟨packedPng⟩ ⟨storedPng⟩ = true := by decide +kernel

def goldenPair (png : Bytes) : Tree :=
  let set := .cons "00000.png" (.file png) (.cons "00001.png" (.file png) .nil)
  ⟨.cons "base" (.dir (.cons "snapshots" (.dir (.cons "set" (.dir set) .nil)) .nil)) .nil⟩

def storePair (captured golden : Bytes) : Except OsError Unit × Tree :=
  (writeSet (capturedDir "base" "set") [⟨captured⟩, ⟨[9]⟩]).on (Tree.reply "scratch") (goldenPair golden)

theorem pair_run {captured golden : Bytes} (stored : (storePair captured golden).1 = .ok ())
    (present : (storePair captured golden).2.isDir (goldenDir "base" "set") = true)
    (listed : (storePair captured golden).2.list (goldenDir "base" "set") = .ok ["00000.png", "00001.png"])
    (first : (storePair captured golden).2.read (join (goldenDir "base" "set") "00000.png") = .ok golden)
    (second : (storePair captured golden).2.read (join (goldenDir "base" "set") "00001.png") = .ok golden) :
    ∃ r : Run Image.Png.decode "set", r.captured = [⟨captured⟩, ⟨[9]⟩] ∧ r.Finds [⟨golden⟩, ⟨golden⟩] := by
  have held : Held (storePair captured golden).2 (goldenDir "base" "set") [⟨golden⟩, ⟨golden⟩] :=
    .images present listed (by decide +kernel) (by decide +kernel) (.cons first (.cons second .nil))
  have noUpdate : updateRequested (fun _ => none) = false := rfl
  exact exists_run Image.Png.decode noUpdate (Prod.ext stored rfl) held

/-- The first picture is encoded anew on both sides, and the broken one is told in both runs. -/
theorem reencoded_verdict : ∃ r r' : Run Image.Png.decode "set",
    r.Finds [⟨packedPng⟩, ⟨packedPng⟩] ∧ r'.Finds [⟨storedPng⟩, ⟨storedPng⟩] ∧
      r.captured = [⟨packedPng⟩, ⟨[9]⟩] ∧ r'.captured = [⟨storedPng⟩, ⟨[9]⟩] ∧
      (r.result = .ok () ∧ r'.result = .ok () ∨
        ∃ reason report report', r.result = .error (.mismatch ⟨"set", reason, report⟩) ∧
          r'.result = .error (.mismatch ⟨"set", reason.inDir (goldenDir r'.base "set"), report'⟩)) := by
  obtain ⟨r, hcaptured, hfinds⟩ : ∃ r : Run Image.Png.decode "set", r.captured = [⟨packedPng⟩, ⟨[9]⟩] ∧
      r.Finds [⟨packedPng⟩, ⟨packedPng⟩] :=
    pair_run (by decide +kernel) (by decide +kernel) (by decide +kernel) (by decide +kernel) (by decide +kernel)
  obtain ⟨r', hcaptured', hfinds'⟩ : ∃ r : Run Image.Png.decode "set", r.captured = [⟨storedPng⟩, ⟨[9]⟩] ∧
      r.Finds [⟨storedPng⟩, ⟨storedPng⟩] :=
    pair_run (by decide +kernel) (by decide +kernel) (by decide +kernel) (by decide +kernel) (by decide +kernel)
  have alike : Alike Image.Png.decode r.captured r'.captured := by
    rw [hcaptured, hcaptured']
    exact .cons packed_like_stored (.cons rfl .nil)
  have hverdict := ((verdict_by_pixels Image.Png.decode).2.2 "set" r r').2 _ _ hfinds hfinds'
    (.cons packed_like_stored (.cons packed_like_stored .nil)) alike
  exact ⟨r, r', hfinds, hfinds', hcaptured, hcaptured', hverdict⟩

end Goldens

end SignerBench.Snapshot
