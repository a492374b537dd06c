import SignerBench.Proofs.Generation
import SignerBench.Proofs.Records

namespace SignerBench.Vectors

open Files (Tree join)

/-- Fields of test cases are read back while there is room for one more list. -/
theorem PlanCase.faithful (room : Nat) : PlanCase.record.fields.Faithful (room + 1) := by
  have text (name : String) := Json.Field.faithful_text name (room + 1)
  have texts (name : String) := Json.Field.faithful_texts name room
  exact ⟨Json.Field.faithful_word32 "idx" _, text _, text _, text _, texts _, texts _, texts _, texts _, texts _,
    trivial⟩

theorem PlanCase.distinct : PlanCase.record.fields.names.Nodup := by
  decide +kernel

/-- A test case that is written is read as it was, with room for the lists in it. -/
theorem PlanCase.read_toJson (t : PlanCase) (room : Nat) : PlanCase.read (room + 2) (Json.draft t.toJson) = .ok t := by
  have hrow : PlanCase.record.read (room + 2) (Json.draft (PlanCase.record.write t.toRow)) = .ok t.toRow :=
    Json.Record.read_write (PlanCase.faithful room) PlanCase.distinct t.toRow
  rw [PlanCase.read, PlanCase.toJson, hrow]
  rfl

/-- There are no floats in a test case. -/
theorem PlanCase.whole (t : PlanCase) : Json.Whole t.toJson := Json.Record.whole_write (PlanCase.faithful 0) t.toRow

/-- The text of test cases is read as the test cases. -/
theorem readBytes_cases (cases : List PlanCase) :
    Json.readBytes (Json.Draft.readList PlanCase.read)
      (Bytes.ofText (Json.pretty (.array (cases.map PlanCase.toJson)))) = .ok cases := by
  have whole : Json.WholeItems (cases.map PlanCase.toJson) := by
    refine Json.wholeItems_of_forall fun v hv => ?_
    obtain ⟨t, _, rfl⟩ := List.mem_map.mp hv
    exact t.whole
  exact Json.readBytes_pretty whole (Json.readList_draft fun t _ => t.read_toJson _)

variable {scratch : String} {t t' : Tree}

theorem load_on_eq {α : Type} {read : Nat → Json.Draft → Json.Read α} {path s : String}
    (content : t.read path = .ok (Bytes.ofText s)) :
    (load read path).on (Tree.reply scratch) t =
      ((Json.readBytes (Json.Draft.readList read) (Bytes.ofText s)).mapError .json, t) := by
  have hread : (onFile path (Files.Access.read path)).on (Tree.reply scratch) t = (.ok (Bytes.ofText s), t) := by
    have hon : (Files.Access.read path).on (Tree.reply scratch) t = (t.read path, t) := rfl
    rw [content] at hon
    exact Attempt.on_adapt hon
  refine (Attempt.on_bind hread).trans ?_
  rw [Bytes.toText?_ofText]
  cases Json.readBytes (Json.Draft.readList read) (Bytes.ofText s) <;> rfl

/-- Loading reads one file, and leaves the tree as it is. -/
theorem load_on {α : Type} {read : Nat → Json.Draft → Json.Read α} {path s : String} {values : List α}
    (content : t.read path = .ok (Bytes.ofText s))
    (reads : Json.readBytes (Json.Draft.readList read) (Bytes.ofText s) = .ok values) :
    (load read path).on (Tree.reply scratch) t = (.ok values, t) := by
  rw [load_on_eq content, reads]
  rfl

/-- Test cases that were stored are loaded as they were, in their order. -/
theorem Generator.load_of_writeOutputs {dir : String} {cases : List PlanCase} {plans : List FetchedPlan}
    (written : (writeOutputs dir cases plans).on (Tree.reply scratch) t = (.ok (), t')) :
    (load PlanCase.read (join dir testCasesFile)).on (Tree.reply scratch) t' = (.ok cases, t') := by
  obtain ⟨r, t₁, hrun, hends⟩ := writeOutputs_cases scratch dir cases plans t
  cases written.symm.trans hrun
  obtain ⟨_, stored⟩ | ⟨_, herror, _⟩ := hends
  · exact load_on stored.cases (readBytes_cases cases)
  · cases herror

def awkwardCase : PlanCase :=
  ⟨4294967295, "a \"name\"", "back\\slash", "line\nbreak", ["tab\t", ""], [], ["\x01\x7f"], ["ß€𝄞"], []⟩

theorem Generator.load_awkwardCase : ∃ t',
    (writeOutputs "out" [awkwardCase, awkwardCase] []).on (Tree.reply "scratch") ⟨.nil⟩ = (.ok (), t') ∧
      (load PlanCase.read (join "out" testCasesFile)).on (Tree.reply "scratch") t' =
        (.ok [awkwardCase, awkwardCase], t') := by
  have hok : ((writeOutputs "out" [awkwardCase, awkwardCase] []).on (Tree.reply "scratch") ⟨.nil⟩).1.toOption =
      some () := by decide +kernel
  rcases hrun : (writeOutputs "out" [awkwardCase, awkwardCase] []).on (Tree.reply "scratch") ⟨.nil⟩ with ⟨r, t'⟩
  rw [hrun] at hok
  cases r with
  | error e => cases hok
  | ok => exact ⟨t', rfl, load_of_writeOutputs hrun⟩

end SignerBench.Vectors
