import SignerBench.Proofs.PlanCases
import SignerBench.Proofs.PlanEntries

namespace SignerBench.Vectors

variable {v : Json} {a : Action} {p : Plan} {s s' : PlanSlots} {entries : Json.Entries} {kind : Authorization}

theorem exists_forall₂_iff {α β : Type} {R : α → β → Prop} {as : List α} :
    (∃ bs, List.Forall₂ R as bs) ↔ ∀ a ∈ as, ∃ b, R a b := by
  induction as with
  | nil => exact ⟨fun _ => List.forall_mem_nil _, fun _ => ⟨[], .nil⟩⟩
  | cons a as ih =>
    rw [List.forall_mem_cons, ← ih]
    constructor
    · rintro ⟨bs, h⟩
      cases h with
      | cons hb hbs => exact ⟨⟨_, hb⟩, _, hbs⟩
    · rintro ⟨⟨b, hb⟩, bs, hbs⟩
      exact ⟨b :: bs, .cons hb hbs⟩

def HoldsActions (v : Json) : Prop := ∃ items, v = .array items ∧ ∀ item ∈ items, ∃ a, HoldsAction item a

theorem exists_readActions_iff : (∃ list, readActions v = .ok list) ↔ HoldsActions v := by
  simp only [readActions_ok_iff, HoldsActions, ← exists_forall₂_iff]
  constructor
  · rintro ⟨list, items, rfl, holds⟩
    exact ⟨items, rfl, list, holds⟩
  · rintro ⟨items, rfl, list, holds⟩
    exact ⟨list, items, rfl, holds⟩

namespace PlanSlots

/-- How many values of an entry have been read. -/
def count (s : PlanSlots) : PlanEntry → Nat
  | .actions => s.actions.toList.length
  | .transactionParameters => s.transactionParameters.toList.length
  | .detectionData => s.detectionData.toList.length
  | .memo => s.memo.toList.length

theorem count_empty (e : PlanEntry) : ({} : PlanSlots).count e = 0 := by
  cases e <;> rfl

theorem count_le_one (s : PlanSlots) (e : PlanEntry) : s.count e ≤ 1 := by
  cases e <;> exact Option.length_toList_le

end PlanSlots

theorem Reads.count (h : Reads s entries s') (e : PlanEntry) :
    s'.count e = s.count e + (e.values entries).length := by
  cases e with
  | actions =>
    obtain ⟨lists, hlists, hs'⟩ := h.actions
    rw [(mapM_ok_iff.mp hlists).length_eq]
    exact (congrArg List.length hs').trans List.length_append
  | transactionParameters => exact (congrArg List.length h.transactionParameters).trans List.length_append
  | detectionData => exact (congrArg List.length h.detectionData).trans List.length_append
  | memo => exact (congrArg List.length h.memo).trans List.length_append

/-- An entry is read if nothing has been read of it, and its value is a list of actions where one is wanted. -/
theorem put_ok {key : String} (free : ∀ e, PlanEntry.ofName? key = some e → s.count e = 0)
    (actions : PlanEntry.ofName? key = some .actions → HoldsActions v) : ∃ s', s.put key v = .ok s' := by
  unfold PlanSlots.put
  cases hkey : PlanEntry.ofName? key with
  | none => exact ⟨_, rfl⟩
  | some e =>
    have hfree := free e hkey
    cases e with
    | actions =>
      obtain ⟨list, hlist⟩ := exists_readActions_iff.mpr (actions hkey)
      have hslot : s.actions = none := by simpa [PlanSlots.count] using hfree
      rw [hslot, hlist]
      exact ⟨_, rfl⟩
    | transactionParameters =>
      have hslot : s.transactionParameters = none := by simpa [PlanSlots.count] using hfree
      rw [hslot]
      exact ⟨_, rfl⟩
    | detectionData =>
      have hslot : s.detectionData = none := by simpa [PlanSlots.count] using hfree
      rw [hslot]
      exact ⟨_, rfl⟩
    | memo =>
      have hslot : s.memo = none := by simpa [PlanSlots.count] using hfree
      rw [hslot]
      exact ⟨_, rfl⟩

/-- All is read if of each known entry there is one value at most, counting what has been read before. -/
theorem putAll_ok_iff : (∃ s', s.putAll entries = .ok s') ↔
    (∀ e : PlanEntry, s.count e + (e.values entries).length ≤ 1) ∧
      ∀ v ∈ PlanEntry.actions.values entries, HoldsActions v := by
  constructor
  · rintro ⟨s', h⟩
    have reads := putAll_reads h
    refine ⟨fun e => reads.count e ▸ s'.count_le_one e, fun v hv => ?_⟩
    obtain ⟨lists, hlists, _⟩ := reads.actions
    exact exists_readActions_iff.mp (exists_forall₂_iff.mp ⟨lists, mapM_ok_iff.mp hlists⟩ v hv)
  · rintro ⟨room, actions⟩
    induction entries generalizing s with
    | nil => exact ⟨s, rfl⟩
    | cons x rest ih =>
      obtain ⟨key, v⟩ := x
      have hvalues (e : PlanEntry) : e.values ((key, v) :: rest) = e.values [(key, v)] ++ e.values rest :=
        e.values_append [(key, v)] rest
      simp only [hvalues, List.length_append, List.mem_append] at room actions
      have free : ∀ e, PlanEntry.ofName? key = some e → s.count e = 0 := by
        intro e hkey
        have he := room e
        rw [e.values_single, if_pos hkey, List.length_singleton] at he
        omega
      obtain ⟨s₁, hput⟩ := put_ok (v := v) free fun hkey => actions v (.inl (by
        rw [PlanEntry.values_single, if_pos hkey]
        exact List.mem_singleton_self v))
      obtain ⟨s', hrest⟩ := ih (s := s₁) (fun e => by
        rw [(put_reads hput).count e, Nat.add_assoc]
        exact room e) fun v hv => actions v (.inr hv)
      exact ⟨s', by rw [PlanSlots.putAll, hput]; exact hrest⟩

def Has (entries : Json.Entries) (key : String) : Prop := key ∈ entries.map Prod.fst

/-- Where no key is there twice, a known entry has one value at most unless it is there under two names. -/
theorem length_values_le_one_iff (distinct : (entries.map Prod.fst).Nodup) (e : PlanEntry) :
    (e.values entries).length ≤ 1 ↔
      ∀ key ∈ e.spellings, ∀ other ∈ e.spellings, Has entries key → Has entries other → key = other := by
  have hlength : (e.values entries).length = ((entries.map Prod.fst).filter (· ∈ e.spellings)).length := by
    rw [List.filter_map, List.length_map, PlanEntry.values, List.length_map]
    rfl
  have hmem {key : String} : key ∈ (entries.map Prod.fst).filter (· ∈ e.spellings) ↔
      Has entries key ∧ key ∈ e.spellings := by
    rw [List.mem_filter, decide_eq_true_eq, Has]
  have hnodup := distinct.filter (· ∈ e.spellings)
  rw [hlength]
  generalize (entries.map Prod.fst).filter (· ∈ e.spellings) = keys at hmem hnodup
  constructor
  · intro single key hkey other hother has has'
    have hin := hmem.mpr ⟨has, hkey⟩
    have hin' := hmem.mpr ⟨has', hother⟩
    obtain ⟨k, rfl⟩ := List.length_eq_one_iff.mp (Nat.le_antisymm single (List.length_pos_of_mem hin))
    rw [List.mem_singleton.mp hin, List.mem_singleton.mp hin']
  · intro same
    rcases keys with _ | ⟨key, _ | ⟨other, rest⟩⟩
    · exact Nat.zero_le 1
    · exact Nat.le_refl 1
    · obtain ⟨has, hkey⟩ := hmem.mp List.mem_cons_self
      obtain ⟨has', hother⟩ := hmem.mp (List.mem_cons_of_mem _ List.mem_cons_self)
      rw [same key hkey other hother has has'] at hnodup
      exact absurd List.mem_cons_self (List.nodup_cons.mp hnodup).1

inductive HoldsPlan : Json → Prop where
  | mk {entries : Json.Entries}
      (parameters : ¬ (Has entries "transactionParameters" ∧ Has entries "transaction_parameters"))
      (data : ¬ (Has entries "detectionData" ∧ Has entries "detection_data"))
      (actions : ∀ v, ("actions", v) ∈ entries → HoldsActions v) : HoldsPlan (.object entries)

theorem two_spellings_iff {a b : String} (ne : a ≠ b) :
    (∀ key ∈ [a, b], ∀ other ∈ [a, b], Has entries key → Has entries other → key = other) ↔
      ¬ (Has entries a ∧ Has entries b) := by
  constructor
  · rintro same ⟨has, has'⟩
    exact ne (same a (by simp) b (by simp) has has')
  · intro apart
    simp only [List.mem_cons, List.not_mem_nil, or_false]
    rintro key (rfl | rfl) other (rfl | rfl) has has'
    · rfl
    · exact absurd ⟨has, has'⟩ apart
    · exact absurd ⟨has', has⟩ apart
    · rfl

/-- Only two of the known entries have two names, and so only these can be there twice under distinct keys. -/
theorem once_each_iff (distinct : (entries.map Prod.fst).Nodup) :
    (∀ e : PlanEntry, (e.values entries).length ≤ 1) ↔
      ¬ (Has entries "transactionParameters" ∧ Has entries "transaction_parameters") ∧
        ¬ (Has entries "detectionData" ∧ Has entries "detection_data") := by
  constructor
  · intro once
    have hparameters := (length_values_le_one_iff distinct .transactionParameters).mp (once _)
    have hdata := (length_values_le_one_iff distinct .detectionData).mp (once _)
    exact ⟨(two_spellings_iff (by decide)).mp hparameters, (two_spellings_iff (by decide)).mp hdata⟩
  · rintro ⟨parameters, data⟩ e
    rw [length_values_le_one_iff distinct]
    cases e with
    | transactionParameters => exact (two_spellings_iff (by decide)).mpr parameters
    | detectionData => exact (two_spellings_iff (by decide)).mpr data
    | actions | memo =>
      intro key hkey other hother _ _
      rw [List.mem_singleton.mp hkey, List.mem_singleton.mp hother]

/-- The values that give a plan, told without the reader. Keys are distinct in all values that are read from a text. -/
theorem exists_ofJson_iff (distinct : ∀ entries, v = .object entries → (entries.map Prod.fst).Nodup) :
    (∃ p, Plan.ofJson v = .ok p) ↔ HoldsPlan v := by
  cases v with
  | object entries =>
    have hput : (∃ p, Plan.ofJson (.object entries) = .ok p) ↔ ∃ s, PlanSlots.putAll {} entries = .ok s := by
      constructor
      · rintro ⟨p, h⟩
        obtain ⟨s, hs, _⟩ := ok_of_bind h
        exact ⟨s, hs⟩
      · rintro ⟨s, hs⟩
        rw [Plan.ofJson, hs]
        exact ⟨_, rfl⟩
    rw [hput, putAll_ok_iff]
    simp only [PlanSlots.count_empty, Nat.zero_add, once_each_iff (distinct entries rfl),
      PlanEntry.mem_values_actions]
    constructor
    · rintro ⟨⟨parameters, data⟩, actions⟩
      exact .mk parameters data actions
    · rintro ⟨parameters, data, actions⟩
      exact ⟨⟨parameters, data⟩, actions⟩
  | null | bool | number | text | array =>
    apply iff_of_false
    · rintro ⟨p, h⟩
      cases h
    · intro held
      cases held

/-- The elements of the entry for actions. -/
def actionItems : Json → List Json
  | .object entries =>
    match Json.Entries.get? entries "actions" with
    | some (.array items) => items
    | _ => []
  | _ => []

theorem head?_values_actions (entries : Json.Entries) :
    (PlanEntry.actions.values entries).head? = Json.Entries.get? entries "actions" := by
  induction entries with
  | nil => rfl
  | cons x rest ih =>
    obtain ⟨key, v⟩ := x
    rw [Json.Entries.get?] at ih
    rw [Json.Entries.get?, List.findSome?_cons, ← ih]
    by_cases hkey : key = "actions"
    · simp [PlanEntry.values, PlanEntry.spellings, hkey]
    · simp [PlanEntry.values, PlanEntry.spellings, hkey]

/-- The decoded actions are the elements in their order. -/
theorem holds_actions (read : Plan.ofJson v = .ok p) : List.Forall₂ HoldsAction (actionItems v) p.actions := by
  obtain ⟨entries, s, rfl, reads, rfl⟩ := ofJson_ok read
  obtain ⟨lists, hlists, hs⟩ := reads.actions
  have hread := mapM_ok_iff.mp hlists
  have hget := head?_values_actions entries
  cases hactions : s.actions with
  | none =>
    rw [hactions] at hs
    cases hs
    rw [List.forall₂_nil_right_iff.mp hread] at hget
    rw [actionItems, ← hget]
    exact .nil
  | some list =>
    rw [hactions] at hs
    cases hs
    obtain ⟨w, rest, hw, _, hvalues⟩ := List.forall₂_cons_right_iff.mp hread
    obtain ⟨items, rfl, holds⟩ := readActions_ok_iff.mp hw
    rw [hvalues] at hget
    rw [actionItems, ← hget]
    exact holds

def needs (kind : Authorization) : Json → Bool
  | .object [(name, _)] => name = kind.action.name ∨ name = kind.action.snakeName
  | _ => false

theorem HoldsAction.needs_eq (h : HoldsAction v a) (kind : Authorization) :
    needs kind v = decide (a.kind = kind.action) := by
  cases h with
  | mk body named =>
    rw [← ActionKind.ofName?_eq_some_iff] at named
    rw [needs, decide_eq_decide, ← ActionKind.ofName?_eq_some_iff, named, Option.some_inj]

theorem countP_needs {items : List Json} {actions : List Action} (h : List.Forall₂ HoldsAction items actions)
    (kind : Authorization) : items.countP (needs kind) = actions.countP (·.kind = kind.action) := by
  induction h with
  | nil => rfl
  | cons holds _ ih => rw [List.countP_cons, List.countP_cons, ih, holds.needs_eq kind]

theorem Plan.get_required (p : Plan) (kind : Authorization) : p.required.get kind = p.needed kind := by
  cases kind <;> rfl

/-- What is needed is counted over the elements. -/
theorem required_eq (read : Plan.ofJson v = .ok p) (kind : Authorization) :
    p.required.get kind = (actionItems v).countP (needs kind) := by
  rw [p.get_required, p.needed_eq, countP_needs (holds_actions read)]

/-- A value in which no key is there twice, as in all that are read, gives a plan exactly if it holds one, and is told
to be none otherwise. The actions of the plan are then the elements in their order, and what is needed for a kind is
counted over them: it is the same in every other order, and adds up where the actions of two plans are put together. -/
theorem plan_acceptance (distinct : ∀ entries, v = .object entries → (entries.map Prod.fst).Nodup) :
    ((∃ p, Plan.ofJson v = .ok p) ↔ HoldsPlan v) ∧
      (¬ HoldsPlan v → ∃ cause, (Plan.ofJson v).mapError Error.plan = .error (.plan cause)) ∧
      ∀ p, Plan.ofJson v = .ok p → List.Forall₂ HoldsAction (actionItems v) p.actions ∧
        ∀ kind, p.required.get kind = (actionItems v).countP (needs kind) ∧
          (∀ v' p', Plan.ofJson v' = .ok p' → (actionItems v').Perm (actionItems v) →
            p'.required.get kind = p.required.get kind) ∧
          ∀ v₁ p₁ v₂ p₂, Plan.ofJson v₁ = .ok p₁ → Plan.ofJson v₂ = .ok p₂ →
            actionItems v = actionItems v₁ ++ actionItems v₂ →
              p.required.get kind = p₁.required.get kind + p₂.required.get kind := by
  refine ⟨exists_ofJson_iff distinct, ?_, ?_⟩
  case refine_1 =>
    intro unheld
    cases hread : Plan.ofJson v with
    | ok p => exact absurd ((exists_ofJson_iff distinct).mp ⟨p, hread⟩) unheld
    | error cause => exact ⟨cause, rfl⟩
  case refine_2 =>
    intro p read
    refine ⟨holds_actions read, fun kind => ⟨required_eq read kind, ?_, ?_⟩⟩
    · intro v' p' read' perm
      rw [required_eq read', required_eq read, perm.countP_eq]
    · intro v₁ p₁ v₂ p₂ read₁ read₂ joined
      rw [required_eq read, required_eq read₁, required_eq read₂, joined, List.countP_append]

/-- Spends and a vote, under both kinds of names, and what is needed for them. -/
theorem spendsAndVote_accepted :
    HoldsPlan spendsAndVote ∧ ∀ kind, readSpendsAndVote.required.get kind =
      match kind with
      | .spendAuth => 2
      | .delegatorVote => 1
      | .lqtVote => 0 := by
  have distinct : ∀ entries, spendsAndVote = .object entries → (entries.map Prod.fst).Nodup := by
    rintro entries ⟨⟩
    decide
  have read : Plan.ofJson spendsAndVote = .ok readSpendsAndVote := rfl
  obtain ⟨accepted, _, decoded⟩ := plan_acceptance distinct
  refine ⟨accepted.mp ⟨_, read⟩, fun kind => ?_⟩
  rw [((decoded _ read).2 kind).1]
  cases kind <;> decide

end SignerBench.Vectors
