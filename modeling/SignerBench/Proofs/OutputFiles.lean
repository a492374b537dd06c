import SignerBench.Proofs.DiskFaults
import SignerBench.Proofs.Generation

namespace SignerBench.Vectors.Generator

open Files (Disk Fault Tree Place Plain Proper Touches join namesOf visits walked)

variable {scratch dir name other : String} {cases : List PlanCase} {plans : List FetchedPlan} {t t' t'' : Tree}
  {d d₁ d₂ d' : Disk} {p : Place} {content : Bytes} {e : Error}

def placeIn (dir name : String) : Place := walked (namesOf dir) ++ [name]

theorem walked_join (plain : Plain name) (proper : Proper name) :
    walked (namesOf (join dir name)) = placeIn dir name := by
  rw [Files.namesOf_join dir plain, Files.walked_proper _ proper, placeIn]

theorem placeIn_apart (ne : other ≠ name) : ¬ placeIn dir other <+: placeIn dir name := by
  rw [placeIn, placeIn, List.prefix_append_right_inj]
  simp [ne]

theorem proper_testCasesFile : Proper testCasesFile := ⟨by decide, by decide⟩

/-- What stands at a place is as it was. Only where the path of the directory leads there itself may directories be new,
those that it names. -/
structure Kept (dir : String) (p : Place) (t t' : Tree) : Prop where
  same : (∀ v ∈ visits [] (namesOf dir), ¬ p <+: v) → t'.get? p = t.get? p
  within : Touches (¬ p <+: ·) (· ∈ visits [] (namesOf dir)) t t'

theorem Kept.refl (dir : String) (p : Place) (t : Tree) : Kept dir p t t := ⟨fun _ => rfl, .refl _ _ t⟩

theorem Kept.trans (h : Kept dir p t t') (h' : Kept dir p t' t'') : Kept dir p t t'' where
  same clear := (h'.same clear).trans (h.same clear)
  within := h.within.trans h'.within

/-- Making the directory of the outputs leaves what is in it, even if the disk fails on the way. -/
theorem kept_createDirs {result : Except Files.OsError Unit} (h : d.createDirs dir = (result, d')) :
    Kept dir p d.tree d'.tree := by
  obtain ⟨_, hmade | ⟨_, hsame | ⟨count, houter⟩⟩⟩ := Disk.createDirs_cases h
  · have hsame (clear : ∀ v ∈ visits [] (namesOf dir), ¬ p <+: v) := Files.createDirs_apart (t := d.tree) clear
    have htouches : Touches _ _ d.tree (d.tree.createDirs dir).2 := Files.createDirs_touches
    rw [hmade] at hsame htouches
    exact ⟨hsame, htouches.mono (fun _ hq => hq.elim) fun _ hq => hq⟩
  · rw [hsame]
    exact .refl dir p d.tree
  · rw [houter]
    exact ⟨fun clear => Disk.withOuterDirs_apart clear count,
      (Disk.withOuterDirs_touches count).mono (fun _ hq => hq.elim) fun _ hq => hq⟩

/-- Writing one file in a directory leaves those beside it. -/
theorem kept_write (plain : Plain other) (proper : Proper other) (ne : other ≠ name)
    (h : t.write (join dir other) content = .ok t') : Kept dir (placeIn dir name) t t' := by
  have htouches := Files.write_touches h
  obtain ⟨way, last, wrote⟩ := Files.write_ok h
  have hplace : walked (namesOf (join dir other)) = placeIn dir other := walked_join plain proper
  have hedit := wrote.edited
  rw [← Files.walked_proper way wrote.proper, ← wrote.names, hplace] at hedit
  rw [hplace] at htouches
  refine ⟨fun _ => hedit.apart _ (placeIn_apart ne.symm) (placeIn_apart ne),
    htouches.mono (fun q hq hbelow => ?_) fun _ hq => hq.elim⟩
  exact placeIn_apart ne.symm (hq ▸ hbelow)

/-- A file that could not be written is as it was, or the disk failed while it was written and it holds what was written
by then. -/
def Unfinished (faults : List (Option Fault)) (dir name : String) (content : Bytes) (cause : Files.OsError)
    (t t' : Tree) : Prop :=
  Kept dir (placeIn dir name) t t' ∨
    ∃ size, some ⟨some size, cause⟩ ∈ faults ∧ t'.read (join dir name) = .ok (content.take size)

/-- How storing fails: on the way to the directory, at the test cases, or at the plans behind the test cases. -/
inductive Failed (dir : String) (cases : List PlanCase) (plans : List FetchedPlan) (d d' : Disk) : Error → Prop where
  | noDir (cause : Files.OsError) (keptCases : Kept dir (placeIn dir testCasesFile) d.tree d'.tree)
    (keptPlans : Kept dir (placeIn dir plansFile) d.tree d'.tree) :
    Failed dir cases plans d d' (.file dir (.system cause))
  | noCases (cause : Files.OsError)
    (unfinished : Unfinished d.faults dir testCasesFile (casesText cases) cause d.tree d'.tree)
    (keptPlans : Kept dir (placeIn dir plansFile) d.tree d'.tree) :
    Failed dir cases plans d d' (.file (join dir testCasesFile) (.system cause))
  | noPlans (cause : Files.OsError) (stored : d'.tree.read (join dir testCasesFile) = .ok (casesText cases))
    (unfinished : Unfinished d.faults dir plansFile (plansText plans) cause d.tree d'.tree) :
    Failed dir cases plans d d' (.file (join dir plansFile) (.system cause))

/-- Storing that fails leaves the plans as they were, unless the disk fails while they are written, and it leaves the
test cases as they were, unless the disk fails while these are written or the plans cannot be written behind them. -/
theorem writeOutputs_failed (failed : (writeOutputs dir cases plans).on (Disk.reply scratch) d = (.error e, d')) :
    Failed dir cases plans d d' e := by
  obtain ⟨r, d₀, hrun, stores⟩ := writeOutputs_stores (Disk.reply scratch) dir cases plans d
  cases hrun.symm.trans failed
  cases stores with
  | noDir made => exact .noDir _ (kept_createDirs made) (kept_createDirs made)
  | @noCases cause d₁ _ made refused =>
    obtain ⟨hfaults, _⟩ := Disk.createDirs_cases made
    obtain ⟨_, writes⟩ := Disk.write_cases refused
    cases writes with
    | untouched _ same =>
      have hkept (p : Place) : Kept dir p d.tree d'.tree := same ▸ kept_createDirs made
      exact .noCases _ (.inl (hkept _)) (hkept _)
    | @broken size _ fault wrote =>
      rw [hfaults] at fault
      refine .noCases _ (.inr ⟨size, List.mem_of_mem_tail fault, Files.read_write wrote⟩) ?_
      exact (kept_createDirs made).trans (kept_write plain_testCasesFile proper_testCasesFile (by decide) wrote)
  | @noPlans cause d₁ d₂ _ made wrote refused =>
    obtain ⟨hfaults, _⟩ := Disk.createDirs_cases made
    obtain ⟨hfaults₁, ⟨wroteCases⟩⟩ := Disk.write_cases wrote
    obtain ⟨_, writes⟩ := Disk.write_cases refused
    cases writes with
    | untouched _ same =>
      refine .noPlans _ (same ▸ Files.read_write wroteCases) (.inl ?_)
      rw [same]
      exact (kept_createDirs made).trans (kept_write plain_testCasesFile proper_testCasesFile (by decide) wroteCases)
    | @broken size _ fault wrotePlans =>
      rw [hfaults₁, hfaults] at fault
      -- What is written of the plans stands beside the test cases, which stay.
      have hcases := Files.read_write_beside plain_plansFile plain_testCasesFile (by decide) wroteCases wrotePlans
      exact .noPlans _ hcases
        (.inr ⟨size, List.mem_of_mem_tail (List.mem_of_mem_tail fault), Files.read_write wrotePlans⟩)

def refused? : Except Error Unit → Option (String × Files.OsError)
  | .error (.file path (.system cause)) => some (path, cause)
  | _ => none

/-- To see how a run has failed it is enough to look at the file and the cause. -/
theorem eq_of_refused? {r : Except Error Unit} {path : String} {cause : Files.OsError}
    (h : refused? r = some (path, cause)) : r = .error (.file path (.system cause)) := by
  unfold refused? at h
  split at h
  · cases h
    rfl
  · cases h

/-- An older file of test cases, with a directory in place of the plans. -/
def blocked : Disk :=
  let files := .cons testCasesFile (.file [0x5b, 0x20, 0x5d]) (.cons plansFile (.dir .nil) .nil)
  ⟨⟨.cons "out" (.dir files) .nil⟩, []⟩

def noSpace : Files.OsError := ⟨some 28, "No space left on device"⟩

/-- Older files of both kinds, on a disk that is full when one byte of the new test cases is written. -/
def full : Disk :=
  let files := .cons testCasesFile (.file [0x5b, 0x20, 0x5d]) (.cons plansFile (.file [0x5b, 0x20, 0x5d]) .nil)
  ⟨⟨.cons "out" (.dir files) .nil⟩, [none, some ⟨some 1, noSpace⟩]⟩

/-- The test cases are written before it turns out that there is no place for the plans. -/
theorem blocked_refused : ((writeOutputs "out" [] []).on (Disk.reply "scratch") blocked).1 =
    .error (.file (join "out" plansFile) (.system .isDirectory)) := eq_of_refused? (by decide +kernel)

/-- The disk is full in the middle of the first of the two files. -/
theorem full_refused : ((writeOutputs "out" [] []).on (Disk.reply "scratch") full).1 =
    .error (.file (join "out" testCasesFile) (.system noSpace)) := eq_of_refused? (by decide +kernel)

/-- A refused path at the second file, and a fault of the disk at the first. -/
theorem blocked_failed :
    (∃ d', (writeOutputs "out" [] []).on (Disk.reply "scratch") blocked =
        (.error (.file (join "out" plansFile) (.system .isDirectory)), d') ∧
      Failed "out" [] [] blocked d' (.file (join "out" plansFile) (.system .isDirectory)) ∧
      d'.tree.isDir (join "out" plansFile) = true) ∧
    ∃ d', (writeOutputs "out" [] []).on (Disk.reply "scratch") full =
        (.error (.file (join "out" testCasesFile) (.system noSpace)), d') ∧
      Failed "out" [] [] full d' (.file (join "out" testCasesFile) (.system noSpace)) ∧
      d'.tree.read (join "out" testCasesFile) = .ok [0x5b] ∧
      d'.tree.read (join "out" plansFile) = .ok [0x5b, 0x20, 0x5d] := by
  constructor
  · have hrun : (writeOutputs "out" [] []).on (Disk.reply "scratch") blocked =
        (.error (.file (join "out" plansFile) (.system .isDirectory)), _) := Prod.ext blocked_refused rfl
    exact ⟨_, hrun, writeOutputs_failed hrun, by decide +kernel⟩
  · have hrun : (writeOutputs "out" [] []).on (Disk.reply "scratch") full =
        (.error (.file (join "out" testCasesFile) (.system noSpace)), _) := Prod.ext full_refused rfl
    exact ⟨_, hrun, writeOutputs_failed hrun, by decide +kernel, by decide +kernel⟩

/-- Test cases are not taken back when the plans cannot be written, and neither is the part of a file that was written
before the disk failed. A path that leads through the place of the test cases has a directory made there before the
files are written. -/
theorem outputs_not_kept :
    (∃ e d', (writeOutputs "out" [] []).on (Disk.reply "scratch") blocked = (.error e, d') ∧
      blocked.tree.read (join "out" testCasesFile) = .ok [0x5b, 0x20, 0x5d] ∧
      d'.tree.read (join "out" testCasesFile) = .ok [0x5b, 0x5d]) ∧
    (∃ e d', (writeOutputs "out" [] []).on (Disk.reply "scratch") full = (.error e, d') ∧
      full.tree.read (join "out" testCasesFile) = .ok [0x5b, 0x20, 0x5d] ∧
      d'.tree.read (join "out" testCasesFile) = .ok [0x5b]) ∧
    ∃ e d', (writeOutputs (join "out" testCasesFile ++ "/..") [] []).on (Disk.reply "scratch") ⟨⟨.nil⟩, []⟩ =
        (.error e, d') ∧
      (⟨.nil⟩ : Tree).isThere (join "out" testCasesFile) = false ∧
      d'.tree.isDir (join "out" testCasesFile) = true := by
  refine ⟨?_, ?_, ?_⟩
  · exact ⟨_, _, Prod.ext blocked_refused rfl, by decide +kernel, by decide +kernel⟩
  · exact ⟨_, _, Prod.ext full_refused rfl, by decide +kernel, by decide +kernel⟩
  · have hrefused : ((writeOutputs (join "out" testCasesFile ++ "/..") [] []).on (Disk.reply "scratch")
        ⟨⟨.nil⟩, []⟩).1 =
          .error (.file (join (join "out" testCasesFile ++ "/..") testCasesFile) (.system .isDirectory)) :=
      eq_of_refused? (by decide +kernel)
    exact ⟨_, _, Prod.ext hrefused rfl, by decide +kernel, by decide +kernel⟩

end SignerBench.Vectors.Generator
