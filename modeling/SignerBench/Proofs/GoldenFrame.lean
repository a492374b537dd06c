import SignerBench.Proofs.Footprint
import SignerBench.Proofs.GoldenVerdict

namespace SignerBench.Snapshot.Goldens

open Files

variable {t t' : Tree} {env : Environment} {scratch base name kind dir : String} {captured : List Snapshot}
  {reach way : Place → Prop} {p q : Place}

def setPlace (base kind name : String) : Place := walked (namesOf (setDir base kind name))

def reportHome (env : Environment) (scratch : String) : String := (env "REPORT_TMP_DIR").getD scratch

def pagePlace (env : Environment) (scratch name : String) : Place :=
  walked (namesOf (reportHome env scratch)) ++ [name ++ ".html"]

/-- What may be changed behind the captured set by a comparison with this result. -/
inductive Changes (env : Environment) (scratch base name : String) (r : Except Error Unit) : Place → Prop
  | goldens {q : Place} (update : updateRequested env = true) (inside : setPlace base "snapshots" name <+: q) :
      Changes env scratch base name r q
  | page {q : Place} {m : Mismatch} (refused : r = .error (.mismatch m)) (here : q = pagePlace env scratch name) :
      Changes env scratch base name r q

/-- Where directories may be made behind the captured set. -/
inductive Leads (env : Environment) (scratch base name : String) (r : Except Error Unit) : Place → Prop
  | goldens {q : Place} (update : updateRequested env = true) (leads : q ∈ visits [] (namesOf (goldenDir base name))) :
      Leads env scratch base name r q
  | report {q : Place} {m : Mismatch} (refused : r = .error (.mismatch m))
      (leads : q ∈ visits [] (namesOf (reportHome env scratch))) : Leads env scratch base name r q

/-- What may be changed at all. -/
def Reaches (env : Environment) (scratch base name : String) (r : Except Error Unit) (q : Place) : Prop :=
  setPlace base "snapshots-tmp" name <+: q ∨ Changes env scratch base name r q

def OnWay (env : Environment) (scratch base name : String) (r : Except Error Unit) (q : Place) : Prop :=
  q ∈ visits [] (namesOf (capturedDir base name)) ∨ Leads env scratch base name r q

theorem setDir_ne_empty (kindPlain : Plain kind) (plain : Plain name) : setDir base kind name ≠ "" := by
  intro h
  have hnames := namesOf_setDir base kindPlain plain
  rw [h] at hnames
  exact List.cons_ne_nil _ _ (List.append_eq_nil_iff.mp hnames.symm).2

section

variable (kindPlain : Plain kind) (kindProper : Proper kind) (plain : Plain name) (up : name ≠ "..")

include kindPlain kindProper plain up

/-- The name `.` adds no step, so the place is then the one of all sets of the kind. -/
theorem setPlace_eq : setPlace base kind name = walked (namesOf base) ++ kind :: if name = "." then [] else [name] := by
  rw [setPlace, namesOf_setDir base kindPlain plain, walked_concat, walked_proper _ kindProper, step]
  by_cases hdot : name = "."
  · rw [if_pos hdot, if_pos hdot]
  · rw [if_neg hdot, if_neg up, if_neg hdot, List.append_assoc]
    rfl

theorem setPlace_append (q : Place) :
    setPlace base kind name ++ q = walked (namesOf base) ++ kind :: ((if name = "." then [] else [name]) ++ q) := by
  rw [setPlace_eq kindPlain kindProper plain up]
  exact List.append_assoc ..

/-- What is in the set is not below another kind of sets. -/
theorem setPlace_apart {kind' : String} (ne : kind ≠ kind') (q : Place) :
    ¬ setPlace base kind name <+: walked (namesOf base) ++ kind' :: q := by
  rw [setPlace_eq kindPlain kindProper plain up, List.prefix_append_right_inj, List.cons_prefix_cons]
  exact fun h => ne h.1

end

theorem walked_file (dir : String) (index : Nat) :
    walked (namesOf (join dir (fileName index))) = walked (namesOf dir) ++ [fileName index] := by
  rw [namesOf_join _ (fileName_plain index), walked_proper _ (fileName_proper index)]

def Numbered (place : Place) (first count : Nat) (q : Place) : Prop :=
  ∃ i, first ≤ i ∧ i < first + count ∧ q = place ++ [fileName i]

theorem confined_writes (snapshots : List Snapshot) (first : Nat) :
    Confined scratch (Numbered (walked (namesOf dir)) first snapshots.length) (fun _ => False)
      ((snapshots.zipIdx first).forM fun (s, index) => Access.write (join dir (fileName index)) s.png) := by
  refine confined_forM fun (s, index) hmem => confined_write.mono (fun q hq => ?_) fun _ h => h
  obtain ⟨hfrom, hto, _⟩ := List.mem_zipIdx hmem
  exact ⟨index, hfrom, hto, by rw [hq, walked_file]⟩

/-- The directory with all that is in it is within reach, since what was there is removed first. -/
theorem confined_writeSet (snapshots : List Snapshot) :
    Confined scratch (walked (namesOf dir) <+: ·) (· ∈ visits [] (namesOf dir)) (writeSet dir snapshots) := by
  have hrest : Confined scratch (walked (namesOf dir) <+: ·) (· ∈ visits [] (namesOf dir)) (do
      Access.createDirs dir
      snapshots.zipIdx.forM fun (s, index) => Access.write (join dir (fileName index)) s.png) := by
    refine (confined_createDirs.mono (fun _ h => h.elim) fun _ h => h).bind fun _ => ?_
    refine (confined_writes snapshots 0).mono (fun q hq => ?_) fun _ h => h.elim
    obtain ⟨i, _, _, rfl⟩ := hq
    exact List.prefix_append ..
  refine confined_isThere.bind fun there => ?_
  cases there with
  | false => exact hrest
  | true => exact (confined_removeDirs.mono (fun _ h => h) fun _ h => h.elim).bind fun _ => hrest

theorem confined_readSet : Confined scratch reach way (readSet dir) := by
  refine confined_isDir.bind fun there => ?_
  cases there with
  | false => exact confined_pure []
  | true => exact confined_list.bind fun names => confined_mapM fun name => confined_read.map

theorem page_toList (name : String) : (name ++ ".html").toList = name.toList ++ ".html".toList := String.toList_append

theorem page_ne {other : String} (name : String) (short : other.toList.length ≤ 4) : name ++ ".html" ≠ other := by
  rintro rfl
  have hhtml : ".html".toList.length = 5 := rfl
  rw [page_toList, List.length_append] at short
  omega

/-- A page has four characters more than the name, so it can be neither `.` nor `..`. -/
theorem page_proper (name : String) : Proper (name ++ ".html") := ⟨page_ne name (by decide), page_ne name (by decide)⟩

theorem page_plain (plain : Plain name) : Plain (name ++ ".html") where
  nonempty := page_ne name (by decide)
  slash h := by
    rw [page_toList] at h
    rcases List.mem_append.mp h with h | h
    · exact plain.slash h
    · exact absurd h (by decide)

/-- The page of a report is no picture. -/
theorem page_not_picture (name : String) : (name ++ ".html").endsWith ".png" = false := by
  refine Bool.eq_false_iff.mpr fun hends => ?_
  have hpng : ".png".toList <:+ name.toList ++ ".html".toList := page_toList name ▸ endsWith_iff.mp hends
  exact absurd (List.suffix_of_suffix_length_le hpng (List.suffix_append ..) (by decide)) (by decide)

theorem walked_page (plain : Plain name) :
    walked (namesOf (join (reportHome env scratch) (name ++ ".html"))) = pagePlace env scratch name := by
  rw [namesOf_join _ (page_plain plain), walked_proper _ (page_proper name)]
  rfl

/-- The directory of reports is known from the environment alone, and does not depend on the tree. -/
theorem reportDir_home {home : String} (h : (reportDir env).on (Tree.reply scratch) t = (.ok home, t')) :
    home = reportHome env scratch := by
  unfold reportDir at h
  unfold reportHome
  cases hdir : env "REPORT_TMP_DIR" with
  | some dir =>
    rw [hdir] at h
    obtain ⟨_, _, _, h⟩ := Attempt.on_bind_ok h
    cases h
    rfl
  | none =>
    rw [hdir] at h
    have hhome : (t.createDirs scratch).1.map (fun _ => scratch) = .ok home := congrArg Prod.fst h
    cases hmade : (t.createDirs scratch).1 with
    | error e =>
      rw [hmade] at hhome
      cases hhome
    | ok made =>
      rw [hmade] at hhome
      cases hhome
      rfl

theorem confined_reportDir :
    Confined scratch (fun _ => False) (· ∈ visits [] (namesOf (reportHome env scratch))) (reportDir env) := by
  unfold reportDir reportHome
  cases env "REPORT_TMP_DIR" with
  | some dir => exact confined_createDirs.bind fun _ => confined_pure dir
  | none => exact confined_scratchDir

theorem confined_writeReport {r : Report} (plain : Plain r.name) :
    Confined scratch (· = pagePlace env scratch r.name) (· ∈ visits [] (namesOf (reportHome env scratch)))
      (writeReport env r) := by
  refine (confined_reportDir.mono (fun _ h => h.elim) fun _ h => h).bind_of fun home t t' hhome => ?_
  rw [reportDir_home hhome]
  refine (confined_write.mono (fun q hq => ?_) fun _ h => h.elim).bind fun _ => confined_pure _
  rw [hq, walked_page plain]

/-- A directory holds the files of a set, but for what is extra, and has no directories inside but some on a way. -/
structure HoldsJust (t : Tree) (place : Place) (snapshots : List Snapshot) (extra way : Place → Prop) : Prop where
  there : t.HasDir place
  stored : ∀ (i : Nat) (s : Snapshot), snapshots[i]? = some s → t.get? (place ++ [fileName i]) = some (.file s.png)
  only : ∀ q, t.HasFile (place ++ q) → extra (place ++ q) ∨ ∃ i < snapshots.length, q = [fileName i]
  inner : ∀ q, q ≠ [] → t.HasDir (place ++ q) → way (place ++ q)

/-- The files of a set that were written one after the other are there. -/
theorem writes_stored (snapshots : List Snapshot) (first : Nat)
    (h : Attempt.on (Tree.reply scratch) ((snapshots.zipIdx first).forM fun (s, index) =>
      Access.write (join dir (fileName index)) s.png) t = (.ok (), t')) {i : Nat} {s : Snapshot}
    (hs : snapshots[i]? = some s) :
    t'.get? (walked (namesOf dir) ++ [fileName (first + i)]) = some (.file s.png) := by
  induction snapshots generalizing first i t with
  | nil => cases hs
  | cons head rest ih =>
    rw [List.zipIdx_cons, List.forM] at h
    obtain ⟨_, t₁, hwrite, hwrites⟩ := Attempt.on_bind_ok h
    cases i with
    | zero =>
      cases hs
      have hfile := (wrote_of_on hwrite).edited.get?_self
      refine (((confined_writes rest (first + 1)).touches hwrites).files ?_).mpr hfile
      rintro ⟨i, hfrom, _, he⟩
      have hindex := fileName_injective (List.singleton_inj.mp (List.append_cancel_left he))
      omega
    | succ i =>
      have hrest := ih (first + 1) hwrites hs
      rwa [Nat.add_assoc, Nat.add_comm 1 i] at hrest

/-- Where room was made for a set, nothing is left inside its place. -/
theorem empty_of_cleared {t₁ : Tree} (seen : t.HasDir (walked (namesOf dir)) → t.isThere dir = true)
    (h : t.isThere dir = true ∧ t.removeDirs dir = (.ok (), t₁) ∨ t.isThere dir = false ∧ t₁ = t) (file : String)
    (rest : Place) : t₁.get? (walked (namesOf dir) ++ file :: rest) = none := by
  rcases h with ⟨_, hremove⟩ | ⟨hunseen, rfl⟩
  · rcases removeDirs_edits hremove with ⟨_, hfailed⟩ | ⟨_, node, hnode, hedit⟩
    · exact absurd rfl hfailed
    · rw [hedit.inside]
      rcases hnode with rfl | rfl <;> rfl
  · cases hget : t₁.get? (walked (namesOf dir) ++ file :: rest) with
    | none => rfl
    | some node => exact absurd (seen (Tree.hasDir_of_below hget)) (by simp [hunseen])

/-- A set that was written is alone in its directory, if what was there before was seen. -/
theorem writeSet_holds {snapshots : List Snapshot} (nonempty : dir ≠ "")
    (seen : t.HasDir (walked (namesOf dir)) → t.isThere dir = true)
    (h : (writeSet dir snapshots).on (Tree.reply scratch) t = (.ok (), t')) :
    HoldsJust t' (walked (namesOf dir)) snapshots (fun _ => False) (· ∈ visits [] (namesOf dir)) := by
  obtain ⟨t₁, t₂, hcleared, hcreate, hwrites⟩ := writeSet_ok h
  have hempty := empty_of_cleared seen hcleared
  obtain ⟨_, _, hdir, _⟩ := createDirs_ok nonempty hcreate
  have hcreated : Touches (fun _ => False) (· ∈ visits [] (namesOf dir)) t₁ (t₁.createDirs dir).2 := createDirs_touches
  rw [hcreate] at hcreated
  have hwritten := (confined_writes snapshots 0).touches hwrites
  constructor
  case there =>
    refine hwritten.dirs ?_ hdir
    rintro ⟨i, _, _, he⟩
    exact List.cons_ne_nil _ _ (List.append_cancel_left ((List.append_nil _).trans he)).symm
  case stored =>
    intro i s hs
    have hstored := writes_stored snapshots 0 hwrites hs
    rwa [Nat.zero_add] at hstored
  case only =>
    rintro q ⟨content, hfile⟩
    refine .inr ?_
    by_cases hnumbered : Numbered (walked (namesOf dir)) 0 snapshots.length (walked (namesOf dir) ++ q)
    · obtain ⟨i, _, hi, he⟩ := hnumbered
      exact ⟨i, by omega, List.append_cancel_left he⟩
    · have hold := (hwritten.files hnumbered).mp hfile
      cases q with
      | nil =>
        rw [List.append_nil] at hold
        exact absurd ⟨content, hold⟩ hdir.not_file
      | cons name rest =>
        have hearlier := (hcreated.files not_false).mp hold
        rw [hempty] at hearlier
        cases hearlier
  case inner =>
    intro q hq hinner
    obtain ⟨name, rest, rfl⟩ := List.exists_cons_of_ne_nil hq
    rcases hcreated.made ((hwritten.made hinner).resolve_right id) with ⟨folder, hold⟩ | hway
    · rw [hempty] at hold
      cases hold
    · exact hway

/-- By a way that never turns back, a set that was there is seen. -/
theorem seen_of_straight {snapshots : List Snapshot} (nonempty : dir ≠ "") (straight : ".." ∉ namesOf dir)
    (h : (writeSet dir snapshots).on (Tree.reply scratch) t = (.ok (), t')) (there : t.HasDir (walked (namesOf dir))) :
    t.isThere dir = true := by
  obtain ⟨_, _, _, hcreate, _⟩ := writeSet_ok h
  obtain ⟨⟨r, hr⟩, hshort, _⟩ := createDirs_ok nonempty hcreate
  exact isThere_straight hr straight hshort there

/-- Work that keeps away from the files of a set may add to its directory only. -/
theorem HoldsJust.touched {extra way' : Place → Prop} {snapshots : List Snapshot}
    (h : HoldsJust t p snapshots extra way) (touches : Touches reach way' t t') (apart : ¬ reach p)
    (beside : ∀ i, ¬ reach (p ++ [fileName i])) :
    HoldsJust t' p snapshots (fun q => extra q ∨ reach q) (fun q => way q ∨ way' q) where
  there := touches.dirs apart h.there
  stored i s hs := (touches.files (beside i)).mpr (h.stored i s hs)
  only q hfile := by
    by_cases hq : reach (p ++ q)
    · exact .inl (.inr hq)
    · obtain ⟨content, hcontent⟩ := hfile
      exact (h.only q ⟨content, (touches.files hq).mp hcontent⟩).imp_left .inl
  inner q hq hdir := (touches.made hdir).imp_left (h.inner q hq)

theorem HoldsJust.mono {extra extra' way' : Place → Prop} {snapshots : List Snapshot}
    (h : HoldsJust t p snapshots extra way) (more : ∀ q, extra (p ++ q) → extra' (p ++ q))
    (leads : ∀ q, way q → way' q) : HoldsJust t p snapshots extra' way' where
  there := h.there
  stored := h.stored
  only q hfile := (h.only q hfile).imp_left (more q)
  inner q hq hdir := leads _ (h.inner q hq hdir)

section

variable (plain : Plain name) (up : name ≠ "..") {r : Except Error Unit}

include plain up

/-- What follows a captured set changes nothing in it, but for the page of a report. -/
theorem changes_inside (h : Changes env scratch base name r (setPlace base "snapshots-tmp" name ++ q)) :
    (∃ m, r = .error (.mismatch m)) ∧ setPlace base "snapshots-tmp" name ++ q = pagePlace env scratch name := by
  cases h with
  | goldens update inside =>
    rw [setPlace_append plain_captured proper_captured plain up] at inside
    exact absurd inside (setPlace_apart plain_golden proper_golden plain up (by decide) _)
  | page refused here => exact ⟨⟨_, refused⟩, here⟩

/-- A page has a longer name than the set that it is about, so it is not at the place of one. -/
theorem changes_not_here : ¬ Changes env scratch base name r (setPlace base "snapshots-tmp" name) := by
  intro h
  rw [← List.append_nil (setPlace ..)] at h
  have hpage := (changes_inside plain up h).2
  rw [List.append_nil, setPlace_eq plain_captured proper_captured plain up, pagePlace] at hpage
  by_cases hdot : name = "."
  · rw [if_pos hdot, List.append_singleton_inj, hdot] at hpage
    exact absurd hpage.2 (by decide)
  · rw [if_neg hdot, List.append_cons, List.append_singleton_inj] at hpage
    have hlonger := congrArg String.toList hpage.2
    rw [page_toList] at hlonger
    exact absurd (List.self_eq_append_right.mp hlonger) (by decide)

theorem changes_not_numbered (i : Nat) :
    ¬ Changes env scratch base name r (setPlace base "snapshots-tmp" name ++ [fileName i]) := by
  intro h
  have hname : fileName i = name ++ ".html" := (List.append_singleton_inj.mp (changes_inside plain up h).2).2
  have hpicture := endsWith_fileName i
  rw [hname, page_not_picture] at hpicture
  cases hpicture

end

/-- Without an update nothing that is changed behind the captured set is a picture. -/
theorem changes_no_picture {r : Except Error Unit} {file : String} (noUpdate : updateRequested env = false)
    (picture : file.endsWith ".png" = true) : ¬ Changes env scratch base name r (q ++ [file]) := by
  intro h
  cases h with
  | goldens update inside =>
    rw [noUpdate] at update
    cases update
  | page refused here =>
    rw [(List.append_singleton_inj.mp here).2, page_not_picture] at picture
    cases picture

/-- A comparison stores the captured set first. Behind that its changes depend on its result. -/
theorem compare_touches (plain : Plain name) {r : Except Error Unit}
    (h : (compare env base name captured).on (Tree.reply scratch) t = (r, t')) :
    (∃ e, (writeSet (capturedDir base name) captured).on (Tree.reply scratch) t = (.error e, t')) ∨
    ∃ t₁, (writeSet (capturedDir base name) captured).on (Tree.reply scratch) t = (.ok (), t₁) ∧
      Touches (Changes env scratch base name r) (Leads env scratch base name r) t₁ t' := by
  rcases hwrite : (writeSet (capturedDir base name) captured).on (Tree.reply scratch) t with ⟨e | _, t₁⟩
  · rw [compare_unwritten hwrite] at h
    cases h
    exact .inl ⟨e, rfl⟩
  refine .inr ⟨t₁, rfl, ?_⟩
  cases update : updateRequested env with
  | true =>
    rw [compare_updating update hwrite] at h
    exact ((confined_writeSet captured).adapt.touches h).mono (fun q => .goldens update) fun q => .goldens update
  | false =>
    rcases hread : (readSet (goldenDir base name)).on (Tree.reply scratch) t₁ with ⟨e | goldens, t₂⟩
    · rw [compare_unread update hwrite hread] at h
      cases h
      exact confined_readSet.touches hread
    · rw [compare_on update hwrite hread] at h
      cases hverdict : verdict (goldenDir base name) captured goldens with
      | none =>
        rw [hverdict] at h
        cases h
        exact confined_readSet.touches hread
      | some reason =>
        rw [hverdict] at h
        cases h
        refine (confined_readSet.touches hread).trans ?_
        have hplain : Plain (report name reason captured goldens).name := plain
        exact ((confined_writeReport hplain).touches rfl).mono (fun q => .page rfl) fun q => .report rfl

/-- A comparison, whatever its outcome is. Nothing but the two sets and the page of a report changes, pictures below
the goldens stay as they are without an update, and a captured set that was written is alone in its directory, if what
was there before was seen. -/
theorem compare_frame (plain : Plain name) {r : Except Error Unit}
    (h : (compare env base name captured).on (Tree.reply scratch) t = (r, t')) :
    Touches (Reaches env scratch base name r) (OnWay env scratch base name r) t t' ∧
    (name ≠ ".." → updateRequested env = false →
      ∀ (q : Place) (file : String) (content : Bytes), file.endsWith ".png" = true →
        (t'.get? (walked (namesOf base) ++ "snapshots" :: q ++ [file]) = some (.file content) ↔
          t.get? (walked (namesOf base) ++ "snapshots" :: q ++ [file]) = some (.file content))) ∧
    (name ≠ ".." → ∀ t₁, (writeSet (capturedDir base name) captured).on (Tree.reply scratch) t = (.ok (), t₁) →
      (".." ∉ namesOf base ∨
        (t.HasDir (setPlace base "snapshots-tmp" name) → t.isThere (capturedDir base name) = true)) →
      HoldsJust t' (setPlace base "snapshots-tmp" name) captured
        (fun q => (∃ m, r = .error (.mismatch m)) ∧ q = pagePlace env scratch name)
        (OnWay env scratch base name r)) := by
  have hframe : Touches (Reaches env scratch base name r) (OnWay env scratch base name r) t t' := by
    have hstored {t₁ : Tree} {result : Except OsError Unit}
        (hwrite : (writeSet (capturedDir base name) captured).on (Tree.reply scratch) t = (result, t₁)) :
        Touches (Reaches env scratch base name r) (OnWay env scratch base name r) t t₁ :=
      ((confined_writeSet captured).touches hwrite).mono (fun _ => .inl) fun _ => .inl
    rcases compare_touches plain h with ⟨e, hwrite⟩ | ⟨t₁, hwrite, hlater⟩
    · exact hstored hwrite
    · exact (hstored hwrite).trans (hlater.mono (fun _ => .inr) fun _ => .inr)
  refine ⟨hframe, fun up noUpdate q file content picture => hframe.files ?_, fun up t₁ hwrite hseen => ?_⟩
  · rintro (inside | changed)
    · rw [List.append_assoc] at inside
      exact setPlace_apart plain_captured proper_captured plain up (by decide) _ inside
    · exact changes_no_picture noUpdate picture changed
  · rcases compare_touches plain h with ⟨e, hfailed⟩ | ⟨t₂, hwrite', hlater⟩
    · rw [hwrite] at hfailed
      cases hfailed
    rw [hwrite] at hwrite'
    cases hwrite'
    have hnonempty : capturedDir base name ≠ "" := setDir_ne_empty plain_captured plain
    have hseen' : t.HasDir (walked (namesOf (capturedDir base name))) → t.isThere (capturedDir base name) = true := by
      rcases hseen with straight | seen
      · refine seen_of_straight hnonempty ?_ hwrite
        rw [capturedDir, ← setDir, namesOf_setDir base plain_captured plain]
        simp [straight, up.symm]
      · exact seen
    have hheld := writeSet_holds hnonempty hseen' hwrite
    exact (hheld.touched hlater (changes_not_here plain up) (changes_not_numbered plain up)).mono
      (fun q hq => changes_inside plain up (hq.resolve_left id)) fun q hq => hq

def otherSet : Tree :=
  let set := .cons "00000.png" (.file [1]) .nil
  ⟨.cons "base" (.dir (.cons "snapshots" (.dir (.cons "x" (.dir set) .nil)) .nil)) .nil⟩

def reporting : Environment := fun name => if name = "REPORT_TMP_DIR" then some "base/snapshots/x" else none

def besideOther : Except OsError Unit × Tree :=
  (writeSet (capturedDir "base" "set") [⟨[7]⟩]).on (Tree.reply "scratch") otherSet

/-- The directory of reports is free to be one of goldens. The page then comes to lie there, and the pictures stay. -/
theorem report_among_goldens : ∃ m t',
    (compare reporting "base" "set" [⟨[7]⟩]).on (Tree.reply "scratch") otherSet = (.error (.mismatch m), t') ∧
      t'.get? ["base", "snapshots", "x", "00000.png"] = some (.file [1]) ∧
      t'.get? ["base", "snapshots-tmp", "set", "00000.png"] = some (.file [7]) := by
  have noUpdate : updateRequested reporting = false := rfl
  have hwrite : (writeSet (capturedDir "base" "set") [⟨[7]⟩]).on (Tree.reply "scratch") otherSet =
      (.ok (), besideOther.2) :=
    Prod.ext (by decide +kernel : besideOther.1 = .ok ()) rfl
  have absent : besideOther.2.isDir (goldenDir "base" "set") = false := by decide +kernel
  obtain ⟨m, t', hrun⟩ : ∃ m t', (compare reporting "base" "set" [⟨[7]⟩]).on (Tree.reply "scratch") otherSet =
      (.error (.mismatch m), t') := ⟨_, _, compare_on noUpdate hwrite (readSet_held "scratch" (.missing absent))⟩
  obtain ⟨_, hgoldens, hcaptured⟩ := compare_frame ⟨by decide, by decide⟩ hrun
  refine ⟨m, t', hrun, ?_, ?_⟩
  · have hbefore : otherSet.get? (walked (namesOf "base") ++ "snapshots" :: ["x"] ++ ["00000.png"]) =
        some (.file [1]) := rfl
    exact (hgoldens (by decide) noUpdate ["x"] "00000.png" [1] (by decide +kernel)).mpr hbefore
  · have hplace : setPlace "base" "snapshots-tmp" "set" ++ [fileName 0] =
        ["base", "snapshots-tmp", "set", "00000.png"] := by decide +kernel
    have hstored := (hcaptured (by decide) _ hwrite (.inl (by decide +kernel))).stored 0 _ rfl
    rwa [hplace] at hstored

def strayFile : Tree := ⟨.cons "base" (.dir (.cons "old.png" (.file [3]) .nil)) .nil⟩

/-- Files that were at the place of a captured set are left there if they are not seen, because a directory is missing
on the way. One name of a set leads out of the directory of all captured sets. -/
theorem unseen_files_left :
    (Plain "set" ∧ Proper "set" ∧
      ((writeSet (capturedDir "missing/.." "set") [⟨[7]⟩]).on (Tree.reply "scratch") oldCaptured).1 = .ok () ∧
      ¬ HoldsJust ((compare (fun _ => none) "missing/.." "set" [⟨[7]⟩]).on (Tree.reply "scratch") oldCaptured).2
        (setPlace "missing/.." "snapshots-tmp" "set") [⟨[7]⟩]
        (· = pagePlace (fun _ => none) "scratch" "set") (fun _ => True)) ∧
    Plain ".." ∧ (updated "base" ".." strayFile).1 = .ok () ∧
      (updated "base" ".." strayFile).2.isFile (join (capturedDir "base" "..") "old.png") = true ∧
      otherSet.isFile "base/snapshots/x/00000.png" = true ∧
      ((compare (fun _ => none) "base" ".." [⟨[7]⟩]).on (Tree.reply "scratch")
        (otherSet.withDir "base/snapshots-tmp")).2.isThere "base/snapshots/x/00000.png" = false := by
  refine ⟨⟨⟨by decide, by decide⟩, ⟨by decide, by decide⟩, by decide +kernel, fun holds => ?_⟩, ⟨by decide, by decide⟩,
    by decide +kernel, by decide +kernel, by decide +kernel, by decide +kernel⟩
  have hfile : ((compare (fun _ => none) "missing/.." "set" [⟨[7]⟩]).on (Tree.reply "scratch") oldCaptured).2.HasFile
      (setPlace "missing/.." "snapshots-tmp" "set" ++ ["00001.png"]) := by decide +kernel
  rcases holds.only _ hfile with hpage | ⟨i, hi, hname⟩
  · exact absurd hpage (by decide +kernel)
  · obtain rfl : i = 0 := Nat.lt_one_iff.mp hi
    exact absurd hname (by decide +kernel)

end SignerBench.Snapshot.Goldens
