import SignerBench.Proofs.CaseFiles
import SignerBench.Proofs.JsonValues

namespace SignerBench.Vectors

open Files (Tree join)

namespace FetchedPlan

variable {p : FetchedPlan}

theorem distinct : record.fields.names.Nodup := by decide +kernel

/-- A plan is read back if there is room for it in the record around it. -/
theorem read_toJson (fits : p.index < UInt64.size) (sound : Json.Sound p.plan) (room : Nat) :
    FetchedPlan.read (room + 1) (Json.draft p.toJson) =
      if p.plan.depth ≤ room then .ok p else .error (.fault .misplaced) := by
  have hindex : (Json.Field.size "index").read room (Json.draft ((Json.Field.size "index").write p.index)) =
      .ok p.index := Json.Field.read_size "index" room fits
  have hplan : (Json.Field.any "plan").read room (Json.draft ((Json.Field.any "plan").write p.plan)) =
      Json.again room p.plan := Json.readAny_draft sound room
  have hread : record.read (room + 1) (Json.draft p.toJson) = record.fields.reread room p.toRow :=
    Json.Record.read_write_eq distinct p.toRow
  have hreread : record.fields.reread room p.toRow =
      (Json.Field.size "index").read room (Json.draft ((Json.Field.size "index").write p.index)) >>= fun index =>
        ((Json.Field.any "plan").read room (Json.draft ((Json.Field.any "plan").write p.plan)) >>= fun plan =>
          .ok (plan, ())).map fun row => (index, row) := rfl
  rw [FetchedPlan.read, hread, hreread, hindex, hplan, Json.again]
  split <;> rfl

theorem whole (fits : p.index < UInt64.size) (whole : Json.Whole p.plan) : Json.Whole p.toJson := by
  have hindex : (Json.Number.integer p.index).Whole := by
    have hsize : UInt64.size = 0x10000000000000000 := rfl
    constructor <;> omega
  exact ⟨hindex, whole, trivial⟩

end FetchedPlan

/-- The text of plans is read as the plans if none of them is too deep for it. -/
theorem readBytes_plans {plans : List FetchedPlan} (fits : ∀ p ∈ plans, p.index < UInt64.size)
    (sound : ∀ p ∈ plans, Json.Sound p.plan) (integral : ∀ p ∈ plans, Json.Integral p.plan) :
    Json.readBytes (Json.Draft.readList FetchedPlan.read)
        (Bytes.ofText (Json.pretty (.array (plans.map FetchedPlan.toJson)))) =
      if ∀ p ∈ plans, p.plan.depth ≤ 125 then .ok plans else .error (.fault .misplaced) := by
  have whole : Json.Whole (.array (plans.map FetchedPlan.toJson)) := by
    apply Json.wholeItems_of_forall
    intro v hv
    obtain ⟨p, hp, rfl⟩ := List.mem_map.mp hv
    exact FetchedPlan.whole (fits p hp) ((integral p hp).whole (sound p hp))
  rw [Json.readBytes_pretty_eq whole]
  exact Json.readList_draft_ite fun p hp => FetchedPlan.read_toJson (fits p hp) (sound p hp) 125

namespace Generator

variable {σ : Type} {server : Server} {authorizer : Signer σ} {scratch dir : String} {o : GeneratorOptions}
  {w w' : World σ} {plans : List FetchedPlan} {cases : List PlanCase} {t t' : Tree}

theorem served_fits (few : o.count ≤ UInt64.size) : ∀ p ∈ served server o, p.index < UInt64.size := by
  intro p hp
  obtain ⟨hindex, _⟩ := mem_served.mp hp
  exact Nat.lt_of_lt_of_le hindex few

/-- A plan that was read from a text has no key twice. -/
theorem served_sound : ∀ p ∈ served server o, Json.Sound p.plan := by
  intro p hp
  obtain ⟨_, _, _, _, hparse⟩ := mem_served.mp hp
  exact Json.sound_of_parse hparse

/-- The list and the record around a plan take two of the 127 levels. -/
theorem load_served (few : o.count ≤ UInt64.size) (integral : ∀ p ∈ served server o, p.plan.Integral)
    (written : (writeOutputs dir cases (served server o)).on (Tree.reply scratch) t = (.ok (), t')) :
    (load FetchedPlan.read (join dir plansFile)).on (Tree.reply scratch) t' =
      (if ∀ p ∈ served server o, p.plan.depth ≤ 125 then .ok (served server o)
        else .error (.json (.fault .misplaced)), t') := by
  obtain ⟨r, t₁, hrun, hends⟩ := writeOutputs_cases scratch dir cases (served server o) t
  cases written.symm.trans hrun
  obtain ⟨_, stored⟩ | ⟨_, herror, _⟩ := hends
  · rw [load_on_eq stored.plans, readBytes_plans (served_fits few) served_sound integral]
    split <;> rfl
  · cases herror

/-- Plans that were fetched and stored are loaded as they were if none of them is more than 125 branches deep. A reader
goes as deep as 127, so it can refuse the file for a plan that it has read by itself. -/
theorem load_plans (few : o.count ≤ UInt64.size)
    (fetched : (fetchPlans o).on (reply server authorizer scratch) w = (.ok plans, w'))
    (integral : ∀ p ∈ plans, p.plan.Integral)
    (written : (writeOutputs dir cases plans).on (Tree.reply scratch) t = (.ok (), t')) :
    (load FetchedPlan.read (join dir plansFile)).on (Tree.reply scratch) t' =
      (if ∀ p ∈ plans, p.plan.depth ≤ 125 then .ok plans else .error (.json (.fault .misplaced)), t') := by
  obtain rfl : served server o = plans := by
    cases (fetchPlans_on server authorizer scratch o w).symm.trans fetched
    rfl
  exact load_served few integral written

def nested : Nat → Json
  | 0 => .null
  | n + 1 => .array [nested n]

theorem depth_nested (n : Nat) : (nested n).depth = n := by
  induction n with
  | zero => rfl
  | succ n ih => rw [nested, Json.depth, Json.depthItems, ih, Json.depthItems, Nat.max_zero]

theorem integral_nested (n : Nat) : (nested n).Integral := by
  induction n with
  | zero => exact .null
  | succ n ih => exact .array (List.forall_mem_singleton.mpr ih)

theorem sound_nested (n : Nat) : Json.Sound (nested n) := by
  induction n with
  | zero => exact .null
  | succ n ih => exact .array (List.forall_mem_singleton.mpr ih)

def nestedPlans (n : Nat) : Server where
  answer _ := .body (Bytes.ofText (Json.pretty (nested n)))
  arrange := id
  perm _ := .refl _

def firstOnly : GeneratorOptions := ⟨"https://plans", "c", 1, [], "words"⟩

/-- A reader takes 127 levels, so plans up to this depth are served. -/
theorem served_nested {n : Nat} (flat : n ≤ 127) : served (nestedPlans n) firstOnly = [⟨0, nested n⟩] := by
  have hparse : Json.parse (Bytes.ofText (Json.pretty (nested n))) = .ok (nested n) := by
    have hroom : (nested n).depth ≤ Json.maxDepth := by
      rw [depth_nested]
      exact flat
    rw [Json.parse, Json.readBytes_pretty_eq ((integral_nested n).whole (sound_nested n)),
      Json.readAny_draft (sound_nested n), Json.again, if_pos hroom]
  have hplan (url : String) : planIn ((nestedPlans n).answer url) = some (nested n) := by
    change (Json.parse (Bytes.ofText (Json.pretty (nested n)))).toOption = _
    rw [hparse]
    rfl
  have hrequests : requests firstOnly = [⟨0, planUrl "https://plans" "c" 0⟩] := rfl
  simp only [served, hrequests, List.filterMap_cons, List.filterMap_nil, hplan, Option.map_some]

theorem write_nested {n : Nat} (h : n ∈ [125, 126]) : ∃ t',
    (writeOutputs "out" [] [⟨0, nested n⟩]).on (Tree.reply "scratch") ⟨.nil⟩ = (.ok (), t') := by
  have hboth : ∀ n ∈ [125, 126],
      ((writeOutputs "out" [] [⟨0, nested n⟩]).on (Tree.reply "scratch") ⟨.nil⟩).1.toOption = some () := by
    decide +kernel
  have hok := hboth n h
  rcases hrun : (writeOutputs "out" [] [⟨0, nested n⟩]).on (Tree.reply "scratch") ⟨.nil⟩ with ⟨r, t'⟩
  rw [hrun] at hok
  cases r with
  | error => cases hok
  | ok => exact ⟨t', rfl⟩

def noSigner : Signer Unit := fun _ s => (.error .crash, s)

theorem load_flat_plan : ∃ w' t',
    (fetchPlans firstOnly).on (reply (nestedPlans 125) noSigner "scratch") ⟨⟨.nil⟩, (), []⟩ =
      (.ok [⟨0, nested 125⟩], w') ∧
    (writeOutputs "out" [] [⟨0, nested 125⟩]).on (Tree.reply "scratch") ⟨.nil⟩ = (.ok (), t') ∧
    (load FetchedPlan.read (join "out" plansFile)).on (Tree.reply "scratch") t' = (.ok [⟨0, nested 125⟩], t') := by
  have hfetch := fetchPlans_on (nestedPlans 125) noSigner "scratch" firstOnly ⟨⟨.nil⟩, (), []⟩
  rw [served_nested (by decide)] at hfetch
  obtain ⟨t', hwrite⟩ := write_nested (n := 125) (by decide)
  have hload := load_plans (by decide) hfetch (List.forall_mem_singleton.mpr (integral_nested 125)) hwrite
  have flat : ∀ p ∈ [FetchedPlan.mk 0 (nested 125)], p.plan.depth ≤ 125 :=
    List.forall_mem_singleton.mpr (Nat.le_of_eq (depth_nested 125))
  rw [if_pos flat] at hload
  exact ⟨_, t', hfetch, hwrite, hload⟩

/-- A plan that was fetched and stored need not be loaded again. -/
theorem deep_plan_not_loaded : ∃ w' t', (nested 126).Integral ∧
    (fetchPlans firstOnly).on (reply (nestedPlans 126) noSigner "scratch") ⟨⟨.nil⟩, (), []⟩ =
      (.ok [⟨0, nested 126⟩], w') ∧
    (writeOutputs "out" [] [⟨0, nested 126⟩]).on (Tree.reply "scratch") ⟨.nil⟩ = (.ok (), t') ∧
    (load FetchedPlan.read (join "out" plansFile)).on (Tree.reply "scratch") t' =
      (.error (.json (.fault .misplaced)), t') := by
  have hserved : served (nestedPlans 126) firstOnly = [⟨0, nested 126⟩] := served_nested (by decide)
  have hfetch := fetchPlans_on (nestedPlans 126) noSigner "scratch" firstOnly ⟨⟨.nil⟩, (), []⟩
  have integral : ∀ p ∈ served (nestedPlans 126) firstOnly, p.plan.Integral := by
    rw [hserved]
    exact List.forall_mem_singleton.mpr (integral_nested 126)
  obtain ⟨t', hwrite⟩ := write_nested (n := 126) (by decide)
  rw [← hserved] at hwrite
  have hload := load_served (by decide) integral hwrite
  rw [hserved] at hfetch hwrite hload
  rw [if_neg] at hload
  · exact ⟨_, t', integral_nested 126, hfetch, hwrite, hload⟩
  · intro flat
    have hle := List.forall_mem_singleton.mp flat
    rw [depth_nested] at hle
    exact absurd hle (by decide)

end Generator

end SignerBench.Vectors
