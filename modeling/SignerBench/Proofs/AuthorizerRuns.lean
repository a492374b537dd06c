import Mathlib.Data.List.TakeWhile
import SignerBench.Proofs.AuthorizerAnswers
import SignerBench.Proofs.CompactText
import SignerBench.Vectors.Command

namespace SignerBench

namespace Text

variable {before behind cs : List Char} {s t : String}

structure Trimmed (s t : String) : Prop where
  between : ∃ before behind, s.toList = before ++ (t.toList ++ behind) ∧
    (∀ c ∈ before, isBlank c) ∧ ∀ c ∈ behind, isBlank c
  first : ∀ c ∈ t.toList.head?, isBlank c = false
  last : ∀ c ∈ t.toList.getLast?, isBlank c = false

/-- Blanks are dropped up to the first character that is none. -/
theorem dropWhile_blanks (blank : ∀ c ∈ before, isBlank c) (first : ∀ c ∈ cs.head?, isBlank c = false) :
    (before ++ cs).dropWhile isBlank = cs := by
  rw [List.dropWhile_append_of_pos blank]
  cases cs with
  | nil => rfl
  | cons c cs => exact List.dropWhile_cons_of_neg (ne_true_of_eq_false (first c rfl))

theorem head_dropWhile (cs : List Char) : ∀ c ∈ (cs.dropWhile isBlank).head?, isBlank c = false := by
  intro c hc
  have hhead := List.head?_dropWhile_not isBlank cs
  rw [hc] at hhead
  exact hhead

/-- There is one text between the blanks. -/
theorem Trimmed.eq_trim (h : Trimmed s t) : trim s = t := by
  obtain ⟨⟨before, behind, hs, hbefore, hbehind⟩, hfirst, hlast⟩ := h
  rw [← String.toList_inj, trim, String.toList_ofList, hs]
  have hend : ((t.toList ++ behind).reverse.dropWhile isBlank).reverse = t.toList := by
    have hblank : ∀ c ∈ behind.reverse, isBlank c := fun c hc => hbehind c (List.mem_reverse.mp hc)
    rw [List.reverse_append, dropWhile_blanks hblank, List.reverse_reverse]
    rwa [List.head?_reverse]
  cases hcs : t.toList with
  | nil =>
    have hall : (before ++ ([] ++ behind)).dropWhile isBlank = [] :=
      List.dropWhile_eq_nil_iff.mpr (List.forall_mem_append.mpr ⟨hbefore, hbehind⟩)
    rw [hall]
    rfl
  | cons c cs =>
    rw [hcs] at hfirst hend
    rw [dropWhile_blanks hbefore, hend]
    exact fun c hc => hfirst c hc

theorem trimmed_trim (s : String) : Trimmed s (trim s) := by
  have htrim : (trim s).toList = ((s.toList.dropWhile isBlank).reverse.dropWhile isBlank).reverse :=
    String.toList_ofList
  have hstart : s.toList.takeWhile isBlank ++ s.toList.dropWhile isBlank = s.toList := List.takeWhile_append_dropWhile
  have hend : (trim s).toList ++ ((s.toList.dropWhile isBlank).reverse.takeWhile isBlank).reverse =
      s.toList.dropWhile isBlank := by
    rw [htrim, ← List.reverse_append, List.takeWhile_append_dropWhile, List.reverse_reverse]
  constructor
  case between =>
    refine ⟨_, _, hstart.symm.trans (congrArg _ hend.symm), fun c hc => List.mem_takeWhile_imp hc, fun c hc => ?_⟩
    exact List.mem_takeWhile_imp (List.mem_reverse.mp hc)
  case first =>
    intro c hc
    have hhead := head_dropWhile s.toList c
    rw [← hend, List.head?_append, hc] at hhead
    exact hhead rfl
  case last =>
    rw [htrim, List.getLast?_reverse]
    exact head_dropWhile _

end Text

namespace Vectors

namespace Authorizer

open Json (Document Shown Whole draft)

/-- One object that holds the words of the keys and the plan, and nothing else. A plan whose numbers are whole ones is
in it as it is. -/
def Carries (input : Bytes) (s : Submission) : Prop :=
  ∃ d, Document.ofBytes input =
      ⟨.object [(.ok "seed_phrase", .scalar (.ok (.text s.seed))), (.ok "plan", d)] .closed, none⟩ ∧
    Shown s.plan.toJson d ∧ (Whole s.plan.toJson → d = draft s.plan.toJson)

/-- The request can be read back, whatever the words and the plan hold. -/
theorem carries_request (s : Submission) : Carries (request s.seed s.plan) s := by
  obtain ⟨d, hholds, hshown⟩ := Json.ofBytes_compact (.object [("seed_phrase", .text s.seed), ("plan", s.plan.toJson)])
  cases hshown with
  | object entries =>
    obtain _ | ⟨hseed, _ | ⟨hplan, hrest⟩⟩ := entries
    cases hseed
    cases hrest
    exact ⟨_, hholds, hplan, fun whole => hplan.eq_draft _ whole⟩

/-- What each way in which a run can end comes to. A program that did not succeed comes first, whatever it read and
wrote, then one that was not fed its request, then what it answered. -/
inductive Concludes (program : String) : Program.Outcome → Except Error Authorized → Prop where
  | unstarted {cause : Files.OsError} :
      Concludes program (.notStarted cause) (.error (.authorizer (.system program cause)))
  | unsuccessful {status : Program.ExitStatus} {fed : Except Files.OsError Unit} {output errors : Bytes} {said : String}
      (failed : status ≠ .exited 0) (trimmed : Text.Trimmed (Utf8.decodeLossy errors) said) :
      Concludes program (.ended status fed output errors) (.error (.authorizer (.ended program status said)))
  | unfed {cause : Files.OsError} {output errors : Bytes} :
      Concludes program (.ended (.exited 0) (.error cause) output errors) (.error (.authorizer (.system program cause)))
  | unread {output errors : Bytes} {cause : Json.ReadError} (noAnswer : ∀ a, ¬ Response output a)
      (misread : Answer.read output = .error cause) :
      Concludes program (.ended (.exited 0) (.ok ()) output errors) (.error (.json cause))
  | misspelled {output errors : Bytes} {a : Answer} {before behind : List String} {s : String} {cause : HexError}
      (answer : Response output a) (texts : a.texts = before ++ s :: behind) (valid : ∀ t ∈ before, ∃ b, IsHex t b)
      (invalid : Hex.decode s = .error cause) :
      Concludes program (.ended (.exited 0) (.ok ()) output errors) (.error (.hex cause))
  | decoded {output errors : Bytes} {a : Answer} {x : Authorized} (answer : Response output a) (decoded : Decoded a x) :
      Concludes program (.ended (.exited 0) (.ok ()) output errors) (.ok x)

/-- What an answer comes to is decided by the answer alone. -/
theorem conclude_answer (program : String) (output errors : Bytes) :
    conclude program (.ended (.exited 0) (.ok ()) output errors) =
      ((Answer.read output).mapError .json >>= fun a => a.decode.mapError .hex) :=
  rfl

/-- A program that did not succeed is told with its status and with what it said, also where it could not be fed. -/
theorem conclude_failed {status : Program.ExitStatus} (failed : status ≠ .exited 0) (program : String)
    (fed : Except Files.OsError Unit) (output errors : Bytes) :
    conclude program (.ended status fed output errors) =
      .error (.authorizer (.ended program status (Text.trim (Utf8.decodeLossy errors)))) := by
  have hstatus : (!status.success) = true := by
    rw [Program.ExitStatus.success, decide_eq_false failed]
    rfl
  exact if_pos hstatus

example : conclude "sh" (.ended (.exited 3) (.error .brokenPipe) (Bytes.ofText "no answer")
    (Bytes.ofText " it broke \n")) = .error (.authorizer (.ended "sh" (.exited 3) "it broke")) := by
  rfl

/-- Each outcome is one of those that are told apart. -/
theorem conclude_concludes (program : String) (outcome : Program.Outcome) :
    Concludes program outcome (conclude program outcome) := by
  cases outcome with
  | notStarted cause => exact .unstarted
  | ended status fed output errors =>
    by_cases succeeded : status = .exited 0
    · subst succeeded
      cases fed with
      | error cause => exact .unfed
      | ok =>
        rw [conclude_answer]
        cases hread : Answer.read output with
        | error cause => exact .unread (fun a answer => nomatch hread.symm.trans (read_ok_iff.mpr answer)) hread
        | ok a =>
          have answer := read_ok_iff.mp hread
          change Concludes _ _ (a.decode.mapError .hex)
          cases hdecode : a.decode with
          | error cause =>
            obtain ⟨before, s, behind, texts, valid, invalid⟩ := decode_error_iff.mp hdecode
            exact .misspelled answer texts valid invalid
          | ok x => exact .decoded answer (decode_ok_iff.mp hdecode)
    · rw [conclude_failed succeeded]
      exact .unsuccessful succeeded (Text.trimmed_trim _)

/-- No outcome is told in two ways. -/
theorem Concludes.eq_conclude {program : String} {outcome : Program.Outcome} {r : Except Error Authorized}
    (h : Concludes program outcome r) : conclude program outcome = r := by
  cases h with
  | unstarted | unfed => rfl
  | unsuccessful failed trimmed => rw [conclude_failed failed, trimmed.eq_trim]
  | unread _ misread =>
    rw [conclude_answer, misread]
    rfl
  | misspelled answer texts valid invalid =>
    rw [conclude_answer, read_ok_iff.mpr answer]
    change Except.mapError _ _ = _
    rw [decode_error_iff.mpr ⟨_, _, _, texts, valid, invalid⟩]
    rfl
  | decoded answer decoded =>
    rw [conclude_answer, read_ok_iff.mpr answer]
    change Except.mapError _ _ = _
    rw [decode_ok_iff.mpr decoded]
    rfl

end Authorizer

namespace Command

/-- The program is started with one object on its input that holds the words of the keys and the plan, and the way in
which its run ends alone decides the result. -/
theorem authorization_exact (job : Job) (s : Submission) :
    (∃ input, question job (.authorize s) = .run ⟨job.program, job.arguments, input⟩ ∧ Authorizer.Carries input s) ∧
      ∀ (outcome : Program.Outcome) (r : Except Error Authorized),
        reply job (.authorize s) outcome = r ↔ Authorizer.Concludes job.program outcome r := by
  refine ⟨⟨_, rfl, Authorizer.carries_request s⟩, fun outcome r => ⟨?_, fun h => h.eq_conclude⟩⟩
  rintro rfl
  exact Authorizer.conclude_concludes job.program outcome

end Command

end Vectors

end SignerBench
