import SignerBench.Proofs.Base64Text
import SignerBench.Proofs.GoldenVerdict
import SignerBench.Proofs.ReportPage

namespace SignerBench.Snapshot

open Files (Tree)

def Cell.image? : Cell → Option Bytes
  | .picture source => (source.toList.dropPrefix? "data:image/png;base64,".toList).bind fun data =>
    Base64.decode (String.ofList data)
  | .words _ => none

/-- What a cell shows of the picture at a place of a set, if there is one. -/
structure Depicts (picture? : Option Snapshot) (cell : Cell) : Prop where
  /-- An image stands for a picture that has bytes. -/
  shown : (∃ source, cell = .picture source) ↔ ∃ s, picture? = some s ∧ s.png ≠ []
  /-- A dash stands for one that is missing or has none. -/
  dash : cell = .words "-" ↔ ∀ s, picture? = some s → s.png = []
  bytes : ∀ s, picture? = some s → s.png ≠ [] → cell.image? = some s.png

theorem image?_picture (data : String) :
    (Cell.picture ("data:image/png;base64," ++ data)).image? = Base64.decode data := by
  have front : ("data:image/png;base64," ++ data).toList.dropPrefix? "data:image/png;base64,".toList =
      some data.toList := by
    rw [String.toList_append]
    exact List.dropPrefix?_append_of_beq _ (beq_self_eq_true _)
  rw [Cell.image?, front, Option.bind_some, String.ofList_toList]

/-- A picture without bytes is shown as if it were missing. -/
theorem depicts_image (picture? : Option Snapshot) : Depicts picture? (.ofImage (picture?.map base64)) := by
  cases picture? with
  | none => exact ⟨by simp [Cell.ofImage], by simp [Cell.ofImage], nofun⟩
  | some s =>
    by_cases empty : s.png = []
    · have cell : Cell.ofImage (some (base64 s)) = .words "-" := if_pos (Base64.encode_eq_empty_iff.mpr empty)
      rw [Option.map_some, cell]
      exact ⟨by simp [empty], by simp [empty], fun s' hs more => absurd (Option.some.inj hs ▸ empty) more⟩
    · have cell : Cell.ofImage (some (base64 s)) = .picture ("data:image/png;base64," ++ base64 s) :=
        if_neg fun h => empty (Base64.encode_eq_empty_iff.mp h)
      rw [Option.map_some, cell]
      refine ⟨by simp [empty], by simp [empty], ?_⟩
      intro s' hs _
      cases hs
      rw [image?_picture]
      exact Base64.decode_encode s.png

namespace Goldens

variable {t t' : Tree} {env : Environment} {scratch base name path : String} {captured goldens : List Snapshot}
  {m : Mismatch}

/-- What is found on the page of a comparison: below the heads of the columns a row for each place of the longer one of
the two sets, in order. -/
structure Pictured (captured goldens : List Snapshot) (page : Shown) : Prop where
  length : page.rows.length = 1 + max captured.length goldens.length
  row : ∀ i < max captured.length goldens.length, ∃ captures expects,
    page.rows[i + 1]? = some [.words (fileName i), captures, expects,
      .words (if agreeAt captured goldens i then "ok" else "differs")] ∧
    Depicts captured[i]? captures ∧ Depicts goldens[i]? expects

/-- There are as many rows as places in the longer set, whatever is missing in the shorter one. -/
theorem report_pictured (name : String) (reason : Reason) (captured goldens : List Snapshot) :
    Pictured captured goldens (Shown.ofPage (report name reason captured goldens).html) := by
  rw [ofPage_html]
  constructor
  case length => simp [Report.shown, report, reportBy, places, Nat.add_comm]
  case row =>
    intro i hi
    have step : (report name reason captured goldens).steps[i]? =
        some (reportStepBy samePixels captured goldens i) := by
      simp [report, reportBy, places, hi]
    have row : (report name reason captured goldens).shown.rows[i + 1]? =
        some (reportStepBy samePixels captured goldens i).cells := by
      rw [Report.shown, List.getElem?_cons_succ, List.getElem?_map, step, Option.map_some]
    exact ⟨_, _, row, depicts_image _, depicts_image _⟩

/-- A comparison that finds sets that do not match has stored the one and read the other before it writes its report. -/
theorem compare_mismatch (h : (compare env base name captured).on (Tree.reply scratch) t = (.error (.mismatch m), t')) :
    ∃ t₁ goldens, (writeSet (capturedDir base name) captured).on (Tree.reply scratch) t = (.ok (), t₁) ∧
      Held t₁ (goldenDir base name) goldens ∧
      ∃ r, (writeReport env (report name m.reason captured goldens)).on (Tree.reply scratch) t₁ = (r, t') ∧
        m.report = r.toOption := by
  rcases stored : (writeSet (capturedDir base name) captured).on (Tree.reply scratch) t with ⟨r, t₁⟩
  cases r with
  | error e => cases (compare_unwritten stored).symm.trans h
  | ok _ =>
    cases update : updateRequested env with
    | true =>
      rw [compare_updating update stored, Attempt.on_adapt_eq] at h
      have outcome := congrArg Prod.fst h
      cases hrun : ((writeSet (goldenDir base name) captured).on (Tree.reply scratch) t₁).1 with
      | error e =>
        rw [hrun] at outcome
        cases outcome
      | ok _ =>
        rw [hrun] at outcome
        cases outcome
    | false =>
      rcases hread : (readSet (goldenDir base name)).on (Tree.reply scratch) t₁ with ⟨r, t₂⟩
      cases r with
      | error e => cases (compare_unread update stored hread).symm.trans h
      | ok goldens =>
        obtain ⟨rfl, held⟩ := held_of_readSet hread
        rw [compare_on update stored hread] at h
        cases hverdict : verdict (goldenDir base name) captured goldens with
        | none =>
          rw [hverdict] at h
          cases h
        | some reason =>
          rw [hverdict] at h
          cases h
          exact ⟨_, goldens, rfl, held, _, rfl, rfl⟩

/-- The page of a comparison shows each picture of the two sets that has any bytes, and a dash in every other place.
From its image the bytes come back as they are. -/
theorem report_depicts (h : (compare env base name captured).on (Tree.reply scratch) t = (.error (.mismatch m), t'))
    (reported : m.report = some path) :
    ∃ t₁ goldens page, (writeSet (capturedDir base name) captured).on (Tree.reply scratch) t = (.ok (), t₁) ∧
      Held t₁ (goldenDir base name) goldens ∧ t'.read path = .ok (Bytes.ofText page) ∧
      Pictured captured goldens (Shown.ofPage page) := by
  obtain ⟨t₁, goldens, stored, held, r, written, hr⟩ := compare_mismatch h
  cases r with
  | error e => cases reported.symm.trans hr
  | ok file =>
    cases reported.symm.trans hr
    exact ⟨t₁, goldens, _, stored, held, writeReport_read written, report_pictured name m.reason captured goldens⟩

def emptyGolden : Tree :=
  let set := .cons "00000.png" (.file []) .nil
  ⟨.cons "base" (.dir (.cons "snapshots" (.dir (.cons "set" (.dir set) .nil)) .nil)) .nil⟩

def besideEmpty : Except Error Unit × Tree :=
  (compare (fun _ => none) "base" "set" [⟨[1]⟩, ⟨[2]⟩]).on (Tree.reply "scratch") emptyGolden

def reportOf (run : Except Error Unit × Tree) : Option String :=
  match run.1 with
  | .error (.mismatch m) => m.report
  | _ => none

/-- The report tells both pictures, and neither the empty golden nor the one that is missing. -/
theorem pictures_shown : ∃ m t', besideEmpty = (.error (.mismatch m), t') ∧ m.report = some "scratch/set.html" ∧
    ∃ t₁ goldens page,
      (writeSet (capturedDir "base" "set") [⟨[1]⟩, ⟨[2]⟩]).on (Tree.reply "scratch") emptyGolden = (.ok (), t₁) ∧
        Held t₁ (goldenDir "base" "set") goldens ∧ t'.read "scratch/set.html" = .ok (Bytes.ofText page) ∧
        Pictured [⟨[1]⟩, ⟨[2]⟩] goldens (Shown.ofPage page) := by
  have reported : reportOf besideEmpty = some "scratch/set.html" := by decide +kernel
  rcases hrun : besideEmpty with ⟨r, t'⟩
  rw [hrun] at reported
  match r with
  | .ok _ => cases reported
  | .error (.files e) => cases reported
  | .error (.mismatch m) => exact ⟨m, t', rfl, reported, report_depicts hrun reported⟩

/-- There is a golden at the first place, and its cell is that of a picture that is missing. -/
theorem empty_golden_not_shown : ∃ m t', besideEmpty = (.error (.mismatch m), t') ∧
    m.report = some "scratch/set.html" ∧ ∃ t₁ page,
      (writeSet (capturedDir "base" "set") [⟨[1]⟩, ⟨[2]⟩]).on (Tree.reply "scratch") emptyGolden = (.ok (), t₁) ∧
        Held t₁ (goldenDir "base" "set") [⟨[]⟩] ∧ t'.read "scratch/set.html" = .ok (Bytes.ofText page) ∧
        (Shown.ofPage page).rows[1]? = some [.words "00000.png", .picture "data:image/png;base64,AQ==", .words "-",
          .words "differs"] := by
  have reported : reportOf besideEmpty = some "scratch/set.html" := by decide +kernel
  rcases hrun : besideEmpty with ⟨r, t'⟩
  rw [hrun] at reported
  match r with
  | .ok _ => cases reported
  | .error (.files e) => cases reported
  | .error (.mismatch m) =>
    obtain ⟨t₁, goldens, stored, held, r, written, hr⟩ := compare_mismatch hrun
    have golden : ((readSet (goldenDir "base" "set")).on (Tree.reply "scratch")
        ((writeSet (capturedDir "base" "set") [⟨[1]⟩, ⟨[2]⟩]).on (Tree.reply "scratch") emptyGolden).2).1 =
          .ok [⟨[]⟩] := by decide +kernel
    rw [stored, readSet_held "scratch" held] at golden
    cases golden
    cases r with
    | error e => cases reported.symm.trans hr
    | ok file =>
      cases reported.symm.trans hr
      have cells : (reportStepBy samePixels [⟨[1]⟩, ⟨[2]⟩] [⟨[]⟩] 0).cells = [.words "00000.png",
          .picture "data:image/png;base64,AQ==", .words "-", .words "differs"] := by decide +kernel
      refine ⟨m, t', rfl, reported, t₁, _, stored, held, writeReport_read written, ?_⟩
      rw [ofPage_html]
      exact congrArg some cells

end Goldens

end SignerBench.Snapshot
