import SignerBench.Proofs.Reception

namespace SignerBench.App

open Account Apdu

/-- Metadata cannot be told if it has too many entries or one of them is too long. -/
theorem Metadata.encode_eq_none_iff {metadata : List String} : encode metadata = none ↔
    254 < metadata.length ∨ ∃ m ∈ metadata, 119 < (Bytes.ofText m).length := by
  rw [encode, Option.eq_none_iff_forall_ne_some]
  simp only [ne_eq, pack_eq_some, not_and, List.length_map, List.forall_mem_map, maxEntries, maxEntryBytes]
  constructor
  · intro h
    by_contra fits
    simp only [not_or, not_exists, not_and, Nat.not_lt] at fits
    exact h _ fits rfl
  · rintro (many | ⟨m, hm, long⟩) payload ⟨few, short⟩
    · exact absurd few (Nat.not_le.mpr many)
    · exact absurd (short m hm) (Nat.not_le.mpr long)

namespace Call

open Script

variable {path : Path} {blob : Bytes} {metadata : List String} {answers : List (Except Fault Bytes)}

/-- What the client refuses to have signed, whatever the device would answer. -/
def Rejected (blob : Bytes) (metadata : List String) : Prop :=
  blob = [] ∨ 63750 < blob.length ∨ 254 < metadata.length ∨ ∃ m ∈ metadata, 119 < (Bytes.ofText m).length

theorem untold_iff : Untold metadata ↔ 254 < metadata.length ∨ ∃ m ∈ metadata, 119 < (Bytes.ofText m).length := by
  rw [← Metadata.encode_eq_none_iff]
  refine and_iff_right_of_imp ?_
  rintro hnone rfl
  cases hnone

/-- There are three reasons to reject, and the client looks at the last of them behind the metadata. -/
theorem rejected_iff : Rejected blob metadata ↔ (blob = [] ∨ Untold metadata) ∨ maxPayload < blob.length := by
  rw [Rejected, ← untold_iff, or_assoc, or_comm (a := Untold metadata)]
  rfl

/-- How a request ends that the client rejects. Metadata that can be told goes ahead of a plan that is too large. -/
structure Dismissed (blob : Bytes) (metadata : List String) (answers : List (Except Fault Bytes))
    (r : Except (Error Fault) SignedPlan) (s : Script) : Prop where
  failed : ∃ e, r = .error e
  silent : s.sent = [] ↔ blob = [] ∨ Untold metadata ∨ metadata = []
  untouched : s.sent = [] → s.answers = answers ∧ r = .error (if blob = [] then .emptyMessage else .messageSize)
  ahead : s.sent.reverse <+: metadataFrames metadata
  /-- A device that takes the metadata has all of it before the plan is looked at. -/
  complete : s.sent ≠ [] → Passes (told metadata) answers →
    s.sent.reverse = metadataFrames metadata ∧ r = .error .messageSize

theorem course_nil {α : Type} {ends : Except (Error Fault) α → Prop} {r : Except (Error Fault) α} {n : Nat}
    (course : Course [] answers ends r n) : n = 0 ∧ ends r := by
  cases course with
  | through _ ended => exact ⟨rfl, ended⟩
  | stopped stops => exact absurd stops.lt (Nat.not_lt_zero _)

theorem told_ne_nil (given : metadata ≠ []) (can : ¬ Untold metadata) : told metadata ≠ [] := by
  intro h
  obtain ⟨payload, hpayload⟩ := encode_of_told can given
  have hframes := command_told can
  rw [h, metadataFrames, if_neg given, hpayload] at hframes
  exact frames_ne_nil _ _ _ hframes.symm

/-- An empty plan, metadata that cannot be told, and a plan that is too large without metadata are refused before
anything is sent. -/
theorem dismissed_silent (h : blob = [] ∨ Untold metadata ∨ metadata = []) :
    Dismissed blob metadata answers (.error (if blob = [] then .emptyMessage else .messageSize)) ⟨answers, []⟩ where
  failed := ⟨_, rfl⟩
  silent := iff_of_true rfl h
  untouched _ := ⟨rfl, rfl⟩
  ahead := List.nil_prefix
  complete sent := absurd rfl sent

/-- With a plan that is too large, the metadata has its course first, and the device may fail in it. -/
theorem dismissed_behind {r : Except (Error Fault) SignedPlan} {n : Nat} (nonempty : blob ≠ [])
    (can : ¬ Untold metadata) (given : metadata ≠ [])
    (course : Course (told metadata) answers (· = .error .messageSize) r n) :
    Dismissed blob metadata answers r ⟨answers.drop n, (((told metadata).take n).map Step.command).reverse⟩ := by
  have hn : n ≠ 0 := by
    cases course with
    | through => exact fun h => told_ne_nil given can (List.length_eq_zero_iff.mp h)
    | stopped => exact Nat.succ_ne_zero _
  have hsent : (((told metadata).take n).map Step.command).reverse ≠ [] := by
    simp [hn, told_ne_nil given can]
  constructor
  case failed =>
    cases course with
    | through _ ended => exact ⟨_, ended⟩
    | stopped => exact ⟨_, rfl⟩
  case silent => exact iff_of_false hsent (by simp [nonempty, can, given])
  case untouched => exact fun h => absurd h hsent
  case ahead =>
    rw [List.reverse_reverse, List.map_take, command_told can]
    exact List.take_prefix _ _
  case complete =>
    intro _ passes
    cases course with
    | stopped stops => exact absurd passes stops.not_passes
    | through _ ended =>
      rw [List.reverse_reverse, List.take_length, command_told can]
      exact ⟨rfl, ended⟩

/-- A plan that is too large is refused behind its metadata. -/
theorem run_large (path : Path) (nonempty : blob ≠ []) (can : ¬ Untold metadata) (large : maxPayload < blob.length)
    (answers : List (Except Fault Bytes)) :
    ∃ r n, Course (told metadata) answers (· = .error .messageSize) r n ∧
      Script.run (App.sign path blob metadata) ⟨answers, []⟩ =
        (r, ⟨answers.drop n, (((told metadata).take n).map Step.command).reverse⟩) := by
  obtain ⟨r, n, course, hrun⟩ := run_eq (.sign path blob metadata) answers
  have hsteps : (Call.sign path blob metadata).steps answers = told metadata := by simp [steps, nonempty, can, large]
  have hends : (Call.sign path blob metadata).Ends answers = (· = .error .messageSize) := by
    funext r
    simp [Ends, nonempty, large]
  rw [hsteps, hends] at course
  rw [hsteps] at hrun
  exact ⟨r, n, course, hrun⟩

/-- A request whose arguments alone are at fault fails. Nothing has been sent then, but for metadata ahead of a plan
that is too large. -/
theorem sign_dismissed (path : Path) {blob : Bytes} {metadata : List String} (rejected : Rejected blob metadata)
    (answers : List (Except Fault Bytes)) : ∃ r s, Script.run (App.sign path blob metadata) ⟨answers, []⟩ = (r, s) ∧
      Dismissed blob metadata answers r s := by
  by_cases refused : blob = [] ∨ Untold metadata
  · refine ⟨_, _, ?_, dismissed_silent (or_assoc.mp (.inl refused))⟩
    rw [sign_refused refused]
    rfl
  · have large := (rejected_iff.mp rejected).resolve_left refused
    obtain ⟨nonempty, can⟩ := not_or.mp refused
    obtain ⟨r, n, course, hrun⟩ := run_large path nonempty can large answers
    refine ⟨_, _, hrun, ?_⟩
    by_cases given : metadata ≠ []
    · exact dismissed_behind nonempty can given course
    · obtain rfl := not_not.mp given
      obtain ⟨rfl, rfl⟩ := course_nil course
      have hsilent : Dismissed blob [] answers _ _ := dismissed_silent (.inr (.inr rfl))
      rw [if_neg nonempty] at hsilent
      exact hsilent

def overlong : Bytes := List.replicate 63751 0

theorem maxPayload_lt_overlong : maxPayload < overlong.length := by
  rw [overlong, List.length_replicate]
  decide

theorem overlong_ne_nil : overlong ≠ [] :=
  List.ne_nil_of_length_pos (Nat.zero_lt_of_lt maxPayload_lt_overlong)

/-- The device refuses the second command of the metadata, so the size of the plan is not told at all. -/
theorem sign_dismissed_overlong : ∃ r s, Rejected overlong ["um"] ∧
    Script.run (App.sign (.forAccount 0) overlong ["um"]) ⟨[.ok [0x90, 0x00], .ok [0x69, 0x85]], []⟩ = (r, s) ∧
      Dismissed overlong ["um"] [.ok [0x90, 0x00], .ok [0x69, 0x85]] r s := by
  have rejected : Rejected overlong ["um"] := .inr (.inl maxPayload_lt_overlong)
  obtain ⟨r, s, hrun, dismissed⟩ := sign_dismissed (.forAccount 0) rejected [.ok [0x90, 0x00], .ok [0x69, 0x85]]
  exact ⟨r, s, rejected, hrun, dismissed⟩

/-- Not all that is rejected is rejected before anything is sent. -/
theorem overlong_not_silent : Rejected overlong ["um"] ∧
    Script.run (App.sign (.forAccount 0) overlong ["um"]) ⟨[.ok [0x90, 0x00], .ok [0x90, 0x00]], []⟩ =
      (.error .messageSize, ⟨[], [⟨0x80, 0x04, 2, 0, [1, 2, 0x75, 0x6d]⟩, ⟨0x80, 0x04, 0, 0, []⟩]⟩) := by
  refine ⟨.inr (.inl maxPayload_lt_overlong), ?_⟩
  have htold : told ["um"] = [.piece ⟨0x80, 0x04, 0, 0, []⟩] ++ [.piece ⟨0x80, 0x04, 2, 0, [1, 2, 0x75, 0x6d]⟩] := by
    have hencode : Metadata.encode ["um"] = some [1, 2, 0x75, 0x6d] := by decide +kernel
    rw [told, if_neg (List.cons_ne_nil _ _), tellSteps, hencode]
    rfl
  have hpasses : Passes (told ["um"]) [.ok [0x90, 0x00], .ok [0x90, 0x00]] := by
    rw [htold]
    exact passes_append.mpr
      ⟨passes_single (Step.satisfied_piece rfl rfl), passes_single (Step.satisfied_piece rfl rfl)⟩
  have can : ¬ Untold ["um"] := by decide
  generalize hblob : overlong = blob
  have nonempty : blob ≠ [] := hblob ▸ overlong_ne_nil
  have large : maxPayload < blob.length := hblob ▸ maxPayload_lt_overlong
  obtain ⟨r, n, course, hrun⟩ := run_large (.forAccount 0) nonempty can large [.ok [0x90, 0x00], .ok [0x90, 0x00]]
  cases course with
  | stopped stops => exact absurd hpasses stops.not_passes
  | through _ ended =>
    rw [hrun, ended, htold]
    rfl

/-- How a status without a description is told where it answers this command. -/
def unknownStatus (c : Command) (status : UInt16) : Error Fault :=
  if Carries c then .unknownStatus status else .refused status "[APDU_ERROR] Unknown"

/-- The commands of a payload are the ones where a status without a description is told as unknown. -/
theorem Part.unknown {s : Step Fault} (part : Part s) : s.unknown = unknownStatus s.command := by
  funext status
  cases part with
  | lookup other => exact (if_neg other).symm
  | piece carries => exact (if_pos carries).symm
  | lastPiece carries => exact (if_pos carries).symm

/-- The first answer with another status ends the call, whatever stands behind it. -/
theorem run_status {c : Call} {k : Nat} {s : Step Fault} {a : Answer} (step : (c.steps answers)[k]? = some s)
    (before : Passes ((c.steps answers).take k) answers) (answered : replyAt answers k = .ok a)
    (other : a.status ≠ Status.ok) :
    (Script.run c.link ⟨answers, []⟩).1 = .error (statusError s.unknown a.status) := by
  have fails : s.Fails (replyAt answers k) (statusError s.unknown a.status) := answered ▸ .status other
  exact congrArg Prod.fst (run_of_stopsAt ⟨before, s, step, fails⟩)

/-- A status other than success ends a call with the meaning of the status. What has no meaning is told differently
where it answers a command of a payload. -/
theorem status_told (c : Call) (answers : List (Except Fault Bytes)) (k : Nat) (s : Step Fault) (a : Answer)
    (step : (c.steps answers)[k]? = some s) (before : Passes ((c.steps answers).take k) answers)
    (answered : replyAt answers k = .ok a) (other : a.status ≠ Status.ok) :
    (Script.run c.link ⟨answers, []⟩).1 = .error (match Status.description? a.status with
      | some description => .refused a.status description
      | none => if Carries s.command then .unknownStatus a.status else .refused a.status "[APDU_ERROR] Unknown") := by
  rw [run_status step before answered other, (part_of_mem (List.mem_of_getElem? step)).unknown]
  rfl

def unknownAnswers : List (Except Fault Bytes) := [.ok [0x90, 0x00], .ok [0x69, 0x88]]

/-- The status answers a piece of a payload, so it is told without a text. -/
theorem status_told_unknown :
    (Script.run (Call.sign (.forAccount 0) [1] []).link ⟨unknownAnswers, []⟩).1 = .error (.unknownStatus 0x6988) := by
  have before : Passes (((Call.sign (.forAccount 0) [1] []).steps unknownAnswers).take 1) unknownAnswers :=
    passes_single (Step.satisfied_piece rfl rfl)
  exact status_told (.sign (.forAccount 0) [1] []) unknownAnswers 1 _ ⟨[], 0x6988⟩ rfl before rfl (by decide)

/-- The meaning of a status is not told in one way for all commands. -/
theorem status_not_uniform : ¬ ∀ (c : Call) (answers : List (Except Fault Bytes)) (k : Nat) (s : Step Fault)
    (a : Answer), (c.steps answers)[k]? = some s → Passes ((c.steps answers).take k) answers →
      replyAt answers k = .ok a → a.status ≠ Status.ok →
      (Script.run c.link ⟨answers, []⟩).1 =
        .error (.refused a.status ((Status.description? a.status).getD "[APDU_ERROR] Unknown")) := by
  intro uniform
  have hfirst : ((Call.sign (.forAccount 0) [1] []).steps [.ok [0x69, 0x88]])[0]? =
      some (.piece ⟨0x80, 0x02, 0, 0, (Path.forAccount 0).bytes⟩) := rfl
  have hunknown := run_status hfirst passes_nil (a := ⟨[], 0x6988⟩) rfl (by decide)
  have hrefused := uniform _ _ _ _ ⟨[], 0x6988⟩ hfirst passes_nil rfl (by decide)
  cases hunknown.symm.trans hrefused

end Call

end SignerBench.App
