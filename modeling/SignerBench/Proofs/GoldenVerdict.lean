import SignerBench.Proofs.FileWrites
import SignerBench.Proofs.GoldenUpdate

namespace SignerBench.Snapshot.Goldens

open Files

variable {t t' : Tree} {env : Environment} {scratch base name dir kind : String} {captured goldens : List Snapshot}

/-- There are goldens, as many as snapshots, and the two show the same at each place. -/
def Matches (captured goldens : List Snapshot) : Prop :=
  goldens ≠ [] ∧ captured.length = goldens.length ∧ ∀ (i : Nat) (c g : Snapshot),
    captured[i]? = some c → goldens[i]? = some g → c.samePixels g = true

/-- Why sets do not match. Each reason counts if those above it do not, and of places that differ the first. -/
inductive Refused (dir : String) (captured goldens : List Snapshot) : String → Prop where
  | noGoldens (none : goldens = []) : Refused dir captured goldens ("no goldens in " ++ dir)
  | count (some : goldens ≠ []) (differ : captured.length ≠ goldens.length) :
      Refused dir captured goldens
        ("captured " ++ toString captured.length ++ " snapshots, expected " ++ toString goldens.length)
  | differs {i : Nat} {c g : Snapshot} (same : captured.length = goldens.length) (here : captured[i]? = some c)
      (there : goldens[i]? = some g) (differ : c.samePixels g = false)
      (first : ∀ j < i, ∀ c g, captured[j]? = some c → goldens[j]? = some g → c.samePixels g = true) :
      Refused dir captured goldens ("snapshot " ++ fileName i ++ " differs")

/-- The reasons are tried in the order in which `Refused` lists them, so the first that holds is the one that is told.
-/
theorem refused_of_verdict {reason : Reason} (h : verdict dir captured goldens = some reason) :
    Refused dir captured goldens reason.message := by
  unfold verdict verdictBy at h
  split at h
  case isTrue hnone =>
    cases h
    exact .noGoldens hnone
  split at h
  case isTrue hsome hlength =>
    cases h
    exact .count hsome (Ne.symm hlength)
  case isFalse hsome hlength =>
    obtain ⟨i, hfind, rfl⟩ := Option.map_eq_some_iff.mp h
    have hsame : goldens.length = captured.length := not_not.mp hlength
    obtain ⟨hdiffers, hplace, hfirst⟩ := List.find?_range_eq_some.mp hfind
    have hi : i < captured.length := by
      rw [List.mem_range, hsame, Nat.max_self] at hplace
      exact hplace
    have hi' : i < goldens.length := hsame ▸ hi
    refine .differs hsame.symm (List.getElem?_eq_getElem hi) (List.getElem?_eq_getElem hi') ?_ ?_
    · rw [agreeBy, List.getElem?_eq_getElem hi, List.getElem?_eq_getElem hi'] at hdiffers
      simpa using hdiffers
    · intro j hj c g hc hg
      have hagree := hfirst j hj
      rw [agreeBy, hc, hg] at hagree
      simpa using hagree

/-- The steps of a report on two sets: one for each place in the longer one, in order. -/
structure Shows (captured goldens : List Snapshot) (steps : List ReportStep) : Prop where
  length : steps.length = max captured.length goldens.length
  file : ∀ (i : Nat) (step : ReportStep), steps[i]? = some step → step.file = fileName i
  pass : ∀ (i : Nat) (step : ReportStep), steps[i]? = some step →
    (step.pass = true ↔ ∃ c g, captured[i]? = some c ∧ goldens[i]? = some g ∧ c.samePixels g = true)

/-- The shorter set has no picture at the last places, and there the step has none of it either. -/
theorem report_shows (name : String) (reason : Reason) (captured goldens : List Snapshot) :
    Shows captured goldens (report name reason captured goldens).steps := by
  have hstep {i : Nat} {step : ReportStep} (h : (report name reason captured goldens).steps[i]? = some step) :
      step = reportStepBy samePixels captured goldens i := by
    rw [report, reportBy, List.getElem?_map, Option.map_eq_some_iff] at h
    obtain ⟨place, hplace, rfl⟩ := h
    obtain ⟨_, hget⟩ := List.getElem?_eq_some_iff.mp hplace
    rw [← hget]
    exact congrArg _ (List.getElem_range _)
  constructor
  case length => rw [report, reportBy, List.length_map, places, List.length_range]
  case file =>
    intro i step h
    rw [hstep h]
    rfl
  case pass =>
    intro i step h
    rw [hstep h]
    exact agreeAt_iff

/-- A report that could be written is in its file. -/
theorem writeReport_read {r : Report} {path : String}
    (h : (writeReport env r).on (Tree.reply scratch) t = (.ok path, t')) :
    t'.read path = .ok (Bytes.ofText r.html) := by
  obtain ⟨dir, t₁, _, h⟩ := Attempt.on_bind_ok h
  obtain ⟨_, t₂, hwrite, h⟩ := Attempt.on_bind_ok h
  cases h
  exact read_write (write_of_on hwrite)

variable {way : List String} {last : String} {q : Place}

theorem writes_apart (snapshots : List Snapshot) (first : Nat) (above : ¬ q <+: walked (namesOf dir))
    (below : ¬ walked (namesOf dir) <+: q)
    (h : Attempt.on (Tree.reply scratch) ((snapshots.zipIdx first).forM fun (s, index) =>
      Access.write (join dir (fileName index)) s.png) t = (.ok (), t')) : t'.get? q = t.get? q := by
  induction snapshots generalizing first t with
  | nil =>
    cases h
    rfl
  | cons s rest ih =>
    rw [List.zipIdx_cons, List.forM] at h
    obtain ⟨_, t₁, hwrite, h⟩ := Attempt.on_bind_ok h
    have hplace : walked (namesOf dir) <+: walked (namesOf dir) ++ [fileName first] := List.prefix_append ..
    have hmade : t₁.get? q = t.get? q := by
      refine (wrote_of_on hwrite).edited.apart q (fun hq => ?_) fun hq => below (hplace.trans hq)
      exact (List.prefix_or_prefix_of_prefix hq hplace).elim above below
    exact (ih (first + 1) h).trans hmade

/-- Writing a set changes nothing that is not on the way to its directory or in it. -/
theorem writeSet_apart {snapshots : List Snapshot} (hnames : namesOf dir = way ++ [last])
    (outside : ∀ v ∈ visits [] (way ++ [last]), ¬ q <+: v) (below : ¬ walked (way ++ [last]) <+: q)
    (h : (writeSet dir snapshots).on (Tree.reply scratch) t = (.ok (), t')) : t'.get? q = t.get? q := by
  have above := outside _ (visits_last way last)
  obtain ⟨t₁, t₂, hcleared, hcreate, hwrites⟩ := writeSet_ok h
  have hmade := createDirs_apart (t := t₁) (hnames ▸ outside)
  rw [hcreate] at hmade
  rw [← hnames] at above below
  refine (writes_apart snapshots 0 above below hwrites).trans (hmade.trans ?_)
  rcases hcleared with ⟨_, hremove⟩ | ⟨_, rfl⟩
  · exact removeDirs_apart hremove above below
  · rfl

/-- Storing a captured set leaves its goldens as they are, if the base is reached without turning back. -/
theorem goldens_kept {snapshots : List Snapshot} (plain : Plain name) (proper : Proper name)
    (straight : ".." ∉ namesOf base)
    (h : (writeSet (capturedDir base name) snapshots).on (Tree.reply scratch) t = (.ok (), t')) (node : Node) :
    t.look (goldenDir base name) = .ok (some node) ↔ t'.look (goldenDir base name) = .ok (some node) := by
  have hgolden : namesOf (goldenDir base name) = namesOf base ++ ["snapshots"] ++ [name] :=
    namesOf_setDir base plain_golden plain
  have hcaptured : namesOf (capturedDir base name) = namesOf base ++ ["snapshots-tmp"] ++ [name] :=
    namesOf_setDir base plain_captured plain
  have hstraight {k : String} (hk : Proper k) : ".." ∉ namesOf base ++ [k] := by
    simp [straight, hk.up.symm]
  have hapart : ¬ walked (namesOf base ++ ["snapshots"] ++ [name]) <+:
      walked (namesOf base ++ ["snapshots-tmp"] ++ [name]) :=
    sets_apart proper_golden proper_captured proper (by decide)
  have hsame : t'.get? (walked (namesOf base ++ ["snapshots"] ++ [name])) =
      t.get? (walked (namesOf base ++ ["snapshots"] ++ [name])) := by
    refine writeSet_apart hcaptured (fun v hv hq => ?_) ?_ h
    · have hturn : ".." ∉ namesOf base ++ ["snapshots-tmp"] ++ [name] := by
        simp [straight, proper.up.symm]
      have hv' := visits_prefix hturn [] v hv
      exact hapart (hq.trans hv')
    · exact sets_apart proper_captured proper_golden proper (by decide)
  rw [walked_proper _ proper] at hsame
  cases hr : Route.ofText (goldenDir base name) with
  | error e =>
    rw [Tree.look, Tree.look, hr]
    refine iff_of_false (fun h => ?_) fun h => ?_ <;> cases h
  | ok r =>
    have hroute := (ofText_eq hr).1
    rw [goldenDir, endsWith_join _ plain, ← goldenDir, hgolden] at hroute
    rw [hroute] at hr
    rw [look_straight hr proper (hstraight proper_golden), look_straight hr proper (hstraight proper_golden), hsame]

/-- How a comparison ends that found a reason to refuse the set, and what became of its report. The reason is that
of the two sets; the report is told if it was written, and then its file holds the page. -/
structure Ends (env : Environment) (scratch base name : String) (captured goldens : List Snapshot) (t t' : Tree)
    (m : Mismatch) : Prop where
  of : m.name = name
  reason : verdict (goldenDir base name) captured goldens = some m.reason
  refused : Refused (goldenDir base name) captured goldens m.reason.message
  steps : Shows captured goldens (report name m.reason captured goldens).steps
  written : ∃ r, (writeReport env (report name m.reason captured goldens)).on (Tree.reply scratch) t = (r, t') ∧
    m.report = r.toOption
  page : ∀ path, m.report = some path →
    t'.read path = .ok (Bytes.ofText (report name m.reason captured goldens).html)

/-- Once the captured set is stored and its goldens are read, a comparison without an update succeeds if and only if
the sets match. Else it ends with the first reason why they do not, whatever becomes of the report. The goldens are
those from before, unless the way to the base turns back. -/
theorem compare_verdict {t₁ : Tree} (noUpdate : updateRequested env = false)
    (stored : (writeSet (capturedDir base name) captured).on (Tree.reply scratch) t = (.ok (), t₁))
    (held : Held t₁ (goldenDir base name) goldens) :
    ∃ r t', (compare env base name captured).on (Tree.reply scratch) t = (r, t') ∧
      (r = .ok () ↔ Matches captured goldens) ∧
      (¬ Matches captured goldens →
        ∃ m, r = .error (.mismatch m) ∧ Ends env scratch base name captured goldens t₁ t' m) ∧
      (Plain name → Proper name → ".." ∉ namesOf base → ∀ node,
        t.look (goldenDir base name) = .ok (some node) ↔ t₁.look (goldenDir base name) = .ok (some node)) := by
  have hmatches : verdict (goldenDir base name) captured goldens = none ↔ Matches captured goldens := verdict_none_iff
  have hkept (plain : Plain name) (proper : Proper name) (straight : ".." ∉ namesOf base) :=
    goldens_kept plain proper straight stored
  rw [compare_on noUpdate stored (readSet_held scratch held)]
  cases hverdict : verdict (goldenDir base name) captured goldens with
  | none =>
    have hgood := hmatches.mp hverdict
    exact ⟨_, _, rfl, iff_of_true rfl hgood, fun hbad => absurd hgood hbad, hkept⟩
  | some reason =>
    have hbad : ¬ Matches captured goldens := fun hgood => by
      rw [hmatches.mpr hgood] at hverdict
      cases hverdict
    refine ⟨_, _, rfl, iff_of_false nofun hbad, fun _ => ⟨_, rfl, ?_⟩, hkept⟩
    constructor
    case of => rfl
    case reason => exact hverdict
    case refused => exact refused_of_verdict hverdict
    case steps => exact report_shows name reason captured goldens
    case written => exact ⟨_, rfl, rfl⟩
    case page =>
      intro path hpath
      cases hrun : (writeReport env (report name reason captured goldens)).on (Tree.reply scratch) t₁ with
      | mk r t' =>
        rw [hrun] at hpath
        cases r with
        | error e => cases hpath
        | ok written =>
          cases hpath
          exact writeReport_read hrun

def oldPictures : List Snapshot := [⟨[1]⟩, ⟨[2]⟩, ⟨[3]⟩]

def twoPictures : List Snapshot := [⟨[1]⟩, ⟨[9]⟩]

def besideOld : Except OsError Unit × Tree :=
  (writeSet (capturedDir "base" "set") twoPictures).on (Tree.reply "scratch") oldGoldens

/-- Of sets that differ in length and at a place, the lengths are told. -/
theorem fewer_captured :
    besideOld.1 = .ok () ∧ Held besideOld.2 (goldenDir "base" "set") oldPictures ∧
      ∃ m t', (compare (fun _ => none) "base" "set" twoPictures).on (Tree.reply "scratch") oldGoldens =
        (.error (.mismatch m), t') ∧ m.reason.message = "captured 2 snapshots, expected 3" := by
  have hstored : besideOld.1 = .ok () := by decide +kernel
  have hlisted : besideOld.2.list (goldenDir "base" "set") = .ok ["00000.png", "00001.png", "old.png"] := by
    decide +kernel
  have hread : List.Forall₂
      (fun file (golden : Snapshot) => besideOld.2.read (join (goldenDir "base" "set") file) = .ok golden.png)
      ["00000.png", "00001.png", "old.png"] oldPictures :=
    .cons (by decide +kernel) (.cons (by decide +kernel) (.cons (by decide +kernel) .nil))
  have held : Held besideOld.2 (goldenDir "base" "set") oldPictures :=
    .images (by decide +kernel) hlisted (by decide +kernel) (by decide +kernel) hread
  have noUpdate : updateRequested (fun _ => none) = false := rfl
  obtain ⟨r, t', hrun, _, hends, _⟩ := compare_verdict noUpdate (Prod.ext hstored rfl) held
  have hbad : ¬ Matches twoPictures oldPictures := fun h => absurd h.2.1 (by decide)
  obtain ⟨m, rfl, ends⟩ := hends hbad
  have hreason : verdict (goldenDir "base" "set") twoPictures oldPictures = some (.count 2 3) := rfl
  refine ⟨hstored, held, m, t', hrun, ?_⟩
  rw [Option.some.inj (ends.reason.symm.trans hreason)]
  decide +kernel

end SignerBench.Snapshot.Goldens
