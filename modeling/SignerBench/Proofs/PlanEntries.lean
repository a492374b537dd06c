import SignerBench.Proofs.Results
import SignerBench.Vectors.Plan

namespace SignerBench.Vectors

/-- Each kind is known by two names, and no name is that of two kinds. -/
theorem ActionKind.ofName?_eq_some_iff {s : String} {k : ActionKind} :
    ActionKind.ofName? s = some k ↔ s = k.name ∨ s = k.snakeName := by
  constructor
  · intro h
    have hk : k.name = s ∨ k.snakeName = s := by simpa using List.find?_some h
    exact hk.imp Eq.symm Eq.symm
  · rintro (rfl | rfl) <;> cases k <;> rfl

namespace PlanEntry

def spellings : PlanEntry → List String
  | .actions => ["actions"]
  | .transactionParameters => ["transactionParameters", "transaction_parameters"]
  | .detectionData => ["detectionData", "detection_data"]
  | .memo => ["memo"]

def all : List PlanEntry := [.actions, .transactionParameters, .detectionData, .memo]

theorem mem_all (e : PlanEntry) : e ∈ all := by
  cases e <;> decide

theorem ofName?_eq_some_iff {s : String} {e : PlanEntry} : ofName? s = some e ↔ s ∈ e.spellings := by
  unfold ofName?
  split
  case isTrue h =>
    subst h
    cases e <;> decide
  split
  case isTrue h => rcases h with rfl | rfl <;> cases e <;> decide
  split
  case isTrue h => rcases h with rfl | rfl <;> cases e <;> decide
  split
  case isTrue h =>
    subst h
    cases e <;> decide
  case isFalse => cases e <;> simp_all [spellings]

theorem ofName?_eq_none_iff {s : String} : ofName? s = none ↔ ∀ e ∈ all, s ∉ e.spellings := by
  constructor
  · intro h e _ hs
    rw [ofName?_eq_some_iff.mpr hs] at h
    cases h
  · intro h
    cases hs : ofName? s with
    | none => rfl
    | some e => exact absurd (ofName?_eq_some_iff.mp hs) (h e e.mem_all)

theorem ofName?_name (e : PlanEntry) : ofName? e.name = some e := by
  cases e <;> rfl

def values (e : PlanEntry) (entries : Json.Entries) : List Json :=
  (entries.filter fun x => x.1 ∈ e.spellings).map Prod.snd

/-- Those that are not null, under the name that is written. -/
def kept (e : PlanEntry) (entries : Json.Entries) : Json.Entries :=
  ((e.values entries).filter (· ≠ .null)).map fun v => (e.name, v)

def others (entries : Json.Entries) : Json.Entries := entries.filter fun x => ∀ e ∈ all, x.1 ∉ e.spellings

theorem values_append (e : PlanEntry) (xs ys : Json.Entries) : e.values (xs ++ ys) = e.values xs ++ e.values ys := by
  rw [values, List.filter_append, List.map_append, ← values, ← values]

theorem others_append (xs ys : Json.Entries) : others (xs ++ ys) = others xs ++ others ys := by
  rw [others, List.filter_append, ← others, ← others]

theorem values_single (e : PlanEntry) (key : String) (v : Json) :
    e.values [(key, v)] = if ofName? key = some e then [v] else [] := by
  simp only [values, List.filter_cons, List.filter_nil, decide_eq_true_eq, ← ofName?_eq_some_iff]
  split <;> rfl

theorem others_single (key : String) (v : Json) :
    others [(key, v)] = if ofName? key = none then [(key, v)] else [] := by
  simp only [others, List.filter_cons, List.filter_nil, decide_eq_true_eq, ← ofName?_eq_none_iff]

end PlanEntry

/-- What reading entries adds to what has been read. Of a known entry there can be one value at most. -/
structure Reads (s : PlanSlots) (entries : Json.Entries) (s' : PlanSlots) : Prop where
  actions : ∃ lists, (PlanEntry.actions.values entries).mapM readActions = .ok lists ∧
    s'.actions.toList = s.actions.toList ++ lists
  transactionParameters : s'.transactionParameters.toList =
    s.transactionParameters.toList ++ PlanEntry.transactionParameters.values entries
  detectionData : s'.detectionData.toList = s.detectionData.toList ++ PlanEntry.detectionData.values entries
  memo : s'.memo.toList = s.memo.toList ++ PlanEntry.memo.values entries
  extra : s'.extra = (PlanEntry.others entries).reverse ++ s.extra

theorem Reads.nil (s : PlanSlots) : Reads s [] s where
  actions := ⟨[], rfl, (List.append_nil _).symm⟩
  transactionParameters := (List.append_nil _).symm
  detectionData := (List.append_nil _).symm
  memo := (List.append_nil _).symm
  extra := rfl

theorem Reads.append {s s' s'' : PlanSlots} {xs ys : Json.Entries} (h : Reads s xs s') (h' : Reads s' ys s'') :
    Reads s (xs ++ ys) s'' where
  actions := by
    obtain ⟨first, hfirst, hs'⟩ := h.actions
    obtain ⟨second, hsecond, hs''⟩ := h'.actions
    refine ⟨first ++ second, ?_, by rw [hs'', hs', List.append_assoc]⟩
    rw [PlanEntry.values_append, mapM_ok_iff]
    exact List.rel_append (mapM_ok_iff.mp hfirst) (mapM_ok_iff.mp hsecond)
  transactionParameters := by
    rw [h'.transactionParameters, h.transactionParameters, PlanEntry.values_append, List.append_assoc]
  detectionData := by rw [h'.detectionData, h.detectionData, PlanEntry.values_append, List.append_assoc]
  memo := by rw [h'.memo, h.memo, PlanEntry.values_append, List.append_assoc]
  extra := by rw [h'.extra, h.extra, PlanEntry.others_append, List.reverse_append, List.append_assoc]

theorem fresh_ok {α : Type} {e : PlanEntry} {slot slot' : Option α} {value : Except PlanError α}
    (h : fresh e slot value = .ok slot') : slot = none ∧ ∃ a, value = .ok a ∧ slot' = some a := by
  cases slot with
  | some old => cases h
  | none =>
    obtain ⟨a, ha, rfl⟩ := ok_of_map h
    exact ⟨rfl, a, ha, rfl⟩

/-- One entry goes to the slot that its name tells, or to the rest. -/
theorem put_reads {s s' : PlanSlots} {key : String} {v : Json} (h : s.put key v = .ok s') :
    Reads s [(key, v)] s' := by
  have hvalues (e : PlanEntry) := e.values_single key v
  have hothers := PlanEntry.others_single key v
  unfold PlanSlots.put at h
  split at h
  case h_1 hkey =>
    obtain ⟨slot, hslot, hs'⟩ := ok_of_bind h
    obtain ⟨hempty, list, hlist, rfl⟩ := fresh_ok hslot
    cases hs'
    simp only [hkey] at hvalues hothers
    constructor
    case actions => exact ⟨[list], by simp [hvalues, hlist], by simp [hempty]⟩
    all_goals simp [hvalues, hothers]
  case h_5 hkey =>
    cases h
    simp only [hkey] at hvalues hothers
    constructor
    case actions => exact ⟨[], by rw [hvalues]; rfl, by simp⟩
    all_goals simp [hvalues, hothers]
  -- The three entries whose values are kept as they are.
  all_goals
    rename_i hkey
    obtain ⟨slot, hslot, hs'⟩ := ok_of_bind h
    obtain ⟨hempty, _, ⟨⟩, rfl⟩ := fresh_ok hslot
    cases hs'
    simp only [hkey] at hvalues hothers
    constructor
    case actions => exact ⟨[], by rw [hvalues]; rfl, by simp⟩
    all_goals simp [hvalues, hothers, hempty]

/-- The induction is on the entries, each of which is read behind those before it. -/
theorem putAll_reads {s s' : PlanSlots} {entries : Json.Entries} (h : s.putAll entries = .ok s') :
    Reads s entries s' := by
  induction entries generalizing s with
  | nil =>
    cases h
    exact .nil _
  | cons x rest ih =>
    obtain ⟨s₁, hput, hrest⟩ := ok_of_bind h
    exact (put_reads hput).append (ih hrest)

/-- A value that holds an action: a single entry, under either name of the action's kind. -/
inductive HoldsAction : Json → Action → Prop where
  | mk {name : String} {kind : ActionKind} (body : Json) (named : name = kind.name ∨ name = kind.snakeName) :
      HoldsAction (.object [(name, body)]) ⟨kind, body⟩

/-- An action is a single entry whose key tells the kind. Its value is kept as it is. -/
theorem Action.ofJson_ok_iff {v : Json} {a : Action} : Action.ofJson v = .ok a ↔ HoldsAction v a := by
  constructor
  · intro h
    unfold Action.ofJson at h
    split at h
    case h_1 name body =>
      split at h
      case h_1 kind hkind =>
        cases h
        exact .mk body (ActionKind.ofName?_eq_some_iff.mp hkind)
      case h_2 => cases h
    all_goals cases h
  · rintro ⟨body, named⟩
    rw [Action.ofJson, ActionKind.ofName?_eq_some_iff.mpr named]

theorem readActions_ok_iff {v : Json} {list : List Action} :
    readActions v = .ok list ↔ ∃ items, v = .array items ∧ List.Forall₂ HoldsAction items list := by
  constructor
  · intro h
    cases v with
    | array items => exact ⟨items, rfl, (mapM_ok_iff.mp h).imp fun _ _ => Action.ofJson_ok_iff.mp⟩
    | null | bool | number | text | object => cases h
  · rintro ⟨items, rfl, holds⟩
    exact mapM_ok_iff.mpr (holds.imp fun _ _ => Action.ofJson_ok_iff.mpr)

/-- An action and the same action under the first name of its kind. -/
inductive Renamed : Json → Json → Prop where
  | action {name : String} {kind : ActionKind} (body : Json) (named : name = kind.name ∨ name = kind.snakeName) :
      Renamed (.object [(name, body)]) (.object [(kind.name, body)])

/-- What is written of an action differs from what was read in the name only. -/
theorem HoldsAction.renamed {v : Json} {a : Action} (h : HoldsAction v a) : Renamed v a.toJson := by
  obtain ⟨body, named⟩ := h
  exact .action body named

theorem ofJson_toJson_action (a : Action) : Action.ofJson a.toJson = .ok a :=
  Action.ofJson_ok_iff.mpr (.mk a.body (.inl rfl))

inductive ActionsIn (entries : Json.Entries) : List Json → Prop where
  | absent (none : ∀ x ∈ entries, x.1 ≠ "actions") : ActionsIn entries []
  | present {items written : List Json} (here : ("actions", .array items) ∈ entries)
      (renamed : List.Forall₂ Renamed items written) : ActionsIn entries written

theorem PlanEntry.mem_values_actions {entries : Json.Entries} {v : Json} :
    v ∈ PlanEntry.actions.values entries ↔ ("actions", v) ∈ entries := by
  simp [PlanEntry.values, PlanEntry.spellings]

/-- Without an entry for actions there are none. -/
theorem Reads.actionsIn {entries : Json.Entries} {s : PlanSlots} (h : Reads {} entries s) :
    ActionsIn entries ((s.actions.getD []).map Action.toJson) := by
  obtain ⟨lists, hlists, hs⟩ := h.actions
  have hread := mapM_ok_iff.mp hlists
  cases hactions : s.actions with
  | none =>
    rw [hactions] at hs
    cases hs
    apply ActionsIn.absent
    rintro ⟨key, v⟩ hx rfl
    have hmem := PlanEntry.mem_values_actions.mpr hx
    rw [List.forall₂_nil_right_iff.mp hread] at hmem
    cases hmem
  | some list =>
    rw [hactions] at hs
    cases hs
    obtain ⟨v, rest, hv, _, hvalues⟩ := List.forall₂_cons_right_iff.mp hread
    obtain ⟨items, rfl, holds⟩ := readActions_ok_iff.mp hv
    refine .present (PlanEntry.mem_values_actions.mp (hvalues ▸ List.mem_cons_self)) ?_
    exact List.forall₂_map_right_iff.mpr (holds.imp fun _ _ => HoldsAction.renamed)

/-- A known entry is there once at most, under one of its names. -/
theorem Reads.length_values {entries : Json.Entries} {s : PlanSlots} (h : Reads {} entries s) (e : PlanEntry) :
    (e.values entries).length ≤ 1 := by
  cases e with
  | actions =>
    obtain ⟨lists, hlists, hs⟩ := h.actions
    have hlength : lists.length ≤ 1 := (congrArg List.length hs) ▸ Option.length_toList_le
    exact (mapM_ok_iff.mp hlists).length_eq ▸ hlength
  | transactionParameters => exact (congrArg List.length h.transactionParameters) ▸ Option.length_toList_le
  | detectionData => exact (congrArg List.length h.detectionData) ▸ Option.length_toList_le
  | memo => exact (congrArg List.length h.memo) ▸ Option.length_toList_le

/-- What is written of an entry that is not null. -/
theorem entry_present {e : PlanEntry} {slot : Option Json} {entries : Json.Entries}
    (h : slot.toList = e.values entries) : Plan.entry e (present slot) = e.kept entries := by
  rw [PlanEntry.kept, ← h]
  cases slot with
  | none => rfl
  | some v =>
    by_cases hv : v = .null
    · subst hv
      rfl
    · have hpresent : present (some v) = some v := Option.filter_eq_some_iff.mpr ⟨rfl, decide_eq_true hv⟩
      have hkept : [v].filter (· ≠ .null) = [v] := List.filter_cons_of_pos (decide_eq_true hv)
      rw [hpresent, Option.toList_some, hkept]
      rfl

structure Readable (p : Plan) : Prop where
  transactionParameters : present p.transactionParameters = p.transactionParameters
  detectionData : present p.detectionData = p.detectionData
  memo : present p.memo = p.memo
  extra : ∀ x ∈ p.extra, PlanEntry.ofName? x.1 = none

theorem present_present (slot : Option Json) : present (present slot) = present slot := by
  rw [present, present, Option.filter_filter]
  simp

theorem ofJson_ok {v : Json} {p : Plan} (h : Plan.ofJson v = .ok p) :
    ∃ entries s, v = .object entries ∧ Reads {} entries s ∧
      p = ⟨s.actions.getD [], present s.transactionParameters, present s.detectionData, present s.memo,
        s.extra.reverse⟩ := by
  cases v with
  | object entries =>
    obtain ⟨s, hs, hp⟩ := ok_of_bind h
    cases hp
    exact ⟨entries, s, rfl, putAll_reads hs, rfl⟩
  | null | bool | number | text | array => cases h

theorem readable_of_ofJson {v : Json} {p : Plan} (h : Plan.ofJson v = .ok p) : Readable p := by
  obtain ⟨entries, s, rfl, reads, rfl⟩ := ofJson_ok h
  refine ⟨present_present _, present_present _, present_present _, ?_⟩
  intro x hx
  have hother : x ∈ PlanEntry.others entries := by simpa [reads.extra] using hx
  exact PlanEntry.ofName?_eq_none_iff.mpr (of_decide_eq_true (List.mem_filter.mp hother).2)

theorem putAll_append (s : PlanSlots) (xs ys : Json.Entries) :
    s.putAll (xs ++ ys) = s.putAll xs >>= fun s => s.putAll ys := by
  induction xs generalizing s with
  | nil => rfl
  | cons x rest ih =>
    rw [List.cons_append, PlanSlots.putAll, PlanSlots.putAll, bind_assoc]
    exact congrArg _ (funext ih)

/-- Unknown entries go to the rest, all of them and in their order. -/
theorem putAll_others {xs : Json.Entries} (h : ∀ x ∈ xs, PlanEntry.ofName? x.1 = none) (s : PlanSlots) :
    s.putAll xs = .ok { s with extra := xs.reverse ++ s.extra } := by
  induction xs generalizing s with
  | nil => rfl
  | cons x rest ih =>
    obtain ⟨hx, hrest⟩ := List.forall_mem_cons.mp h
    have hput : s.put x.1 x.2 = .ok { s with extra := x :: s.extra } := by
      rw [PlanSlots.put, hx]
    rw [PlanSlots.putAll, hput]
    refine (ih hrest _).trans ?_
    rw [List.reverse_cons, List.append_assoc]
    rfl

/-- A plan is read back whole from what is written of it. -/
theorem ofJson_toJson {p : Plan} (h : Readable p) : Plan.ofJson p.toJson = .ok p := by
  obtain ⟨actions, parameters, data, memo, extra⟩ := p
  have hactions : readActions (.array (actions.map Action.toJson)) = .ok actions := by
    rw [readActions, mapM_ok_iff, List.forall₂_map_left_iff, List.forall₂_same]
    exact fun a _ => ofJson_toJson_action a
  have hput : PlanSlots.put {} PlanEntry.actions.name (.array (actions.map Action.toJson)) =
      .ok { actions := some actions } := by
    rw [PlanSlots.put, PlanEntry.ofName?_name, hactions]
    rfl
  have hknown : PlanSlots.putAll {} ((PlanEntry.actions.name, .array (actions.map Action.toJson)) ::
      Plan.entry .transactionParameters parameters ++ Plan.entry .detectionData data ++ Plan.entry .memo memo) =
        .ok ⟨some actions, parameters, data, memo, []⟩ := by
    rw [List.cons_append, List.cons_append, PlanSlots.putAll, hput]
    cases parameters <;> cases data <;> cases memo <;> rfl
  rw [Plan.toJson, Plan.ofJson, putAll_append, hknown]
  have hdone : (⟨actions, present parameters, present data, present memo, (extra.reverse ++ []).reverse⟩ : Plan) =
      ⟨actions, parameters, data, memo, extra⟩ := by
    rw [h.transactionParameters, h.detectionData, h.memo, List.append_nil, List.reverse_reverse]
  exact (congrArg (· >>= _) (putAll_others h.extra _)).trans (congrArg Except.ok hdone)

/-- The object that a plan is written as keeps all that was read of it: the actions in their order, each under the
first name of its kind, then what there is of the other known entries, then all other entries as they were. It
reads as the same plan, so writing it again changes nothing. -/
theorem toJson_of_ofJson {v : Json} {p : Plan} (h : Plan.ofJson v = .ok p) :
    ∃ entries actions, v = .object entries ∧ ActionsIn entries actions ∧
      (∀ e : PlanEntry, (e.values entries).length ≤ 1) ∧
      p.toJson = .object (("actions", .array actions) :: PlanEntry.transactionParameters.kept entries ++
        PlanEntry.detectionData.kept entries ++ PlanEntry.memo.kept entries ++ PlanEntry.others entries) ∧
      Plan.ofJson p.toJson = .ok p ∧ (Plan.ofJson p.toJson).map Plan.toJson = .ok p.toJson := by
  have hback := ofJson_toJson (readable_of_ofJson h)
  obtain ⟨entries, s, rfl, reads, rfl⟩ := ofJson_ok h
  refine ⟨entries, _, rfl, reads.actionsIn, ?_, ?_, hback, ?_⟩
  · intro e
    exact reads.length_values e
  · rw [Plan.toJson, entry_present reads.transactionParameters, entry_present reads.detectionData,
      entry_present reads.memo, reads.extra, List.append_nil, List.reverse_reverse]
    rfl
  · rw [hback]
    rfl

def respelled : Json :=
  .object [("anchor", .null), ("memo", .null), ("detection_data", .text "clues"),
    ("actions", .array [.object [("swap_claim", .null)], .object [("spend", .bool true)]])]

/-- The spellings become the first ones, and the null among the rest is kept. -/
theorem respelled_kept :
    ∃ p, Plan.ofJson respelled = .ok p ∧
      p.toJson = .object [("actions", .array [.object [("swapClaim", .null)], .object [("spend", .bool true)]]),
        ("detectionData", .text "clues"), ("anchor", .null)] ∧
      Plan.ofJson p.toJson = .ok p := by
  have read : Plan.ofJson respelled =
      .ok ⟨[⟨.swapClaim, .null⟩, ⟨.spend, .bool true⟩], none, some (.text "clues"), none, [("anchor", .null)]⟩ := rfl
  obtain ⟨_, _, _, _, _, _, hback, _⟩ := toJson_of_ofJson read
  exact ⟨_, read, rfl, hback⟩

end SignerBench.Vectors
