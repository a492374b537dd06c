import SignerBench.Proofs.FileWrites
import SignerBench.Proofs.PlanCases
import SignerBench.Vectors.Generator

namespace SignerBench.Vectors.Generator

open Files (Tree join)

structure Server where
  answer : String → Web.Response
  arrange : List (Nat × Web.Response) → List (Nat × Web.Response)
  perm : ∀ arrivals, (arrange arrivals).Perm arrivals

abbrev Signer (σ : Type) := Submission → σ → Except Error Authorized × σ

structure World (σ : Type) where
  tree : Tree
  authorizer : σ
  /-- The addresses that were asked for. -/
  asked : List String

variable {σ : Type} {server : Server} {authorizer : Signer σ} {scratch seed : String}
  {o : GeneratorOptions} {dir : String} {w : World σ} {s s' : σ} {t t' : Tree}

def reply (server : Server) (authorizer : Signer σ) (scratch : String) : (q : Ask) → World σ → Reply q × World σ
  | .fetch requests, w =>
    (server.arrange (requests.map fun r => (r.index, server.answer r.url)),
      { w with asked := w.asked ++ requests.map Request.url })
  | .authorize q, w =>
    let (answer, s) := authorizer q w.authorizer
    (answer, { w with authorizer := s })
  | .files q, w =>
    let (answer, t) := Tree.reply scratch q w.tree
    (answer, { w with tree := t })

theorem withFiles_on {α : Type} (server : Server) (authorizer : Signer σ) {x : FileWork α} {r : Except Error α}
    (h : x.on (Tree.reply scratch) w.tree = (r, t')) :
    (withFiles x).on (reply server authorizer scratch) w = (r, { w with tree := t' }) := by
  have hrun := Attempt.run_via (Tree.reply scratch) (reply server authorizer scratch) Ask.files (fun _ r => r)
    (fun t => { w with tree := t }) (fun _ _ => ⟨rfl, rfl⟩) x.run w.tree
  have hpart : Dialogue.run (Tree.reply scratch) x.run w.tree = (r, t') := h
  rw [hpart] at hrun
  exact hrun

theorem withAuthorizer_on {α : Type} {x : Authorizing α} {r : Except Error α}
    (h : x.on authorizer w.authorizer = (r, s')) :
    (withAuthorizer x).on (reply server authorizer scratch) w = (r, { w with authorizer := s' }) := by
  have hrun := Attempt.run_via authorizer (reply server authorizer scratch) Ask.authorize (fun _ r => r)
    (fun s => { w with authorizer := s }) (fun _ _ => ⟨rfl, rfl⟩) x.run w.authorizer
  have hpart : Dialogue.run authorizer x.run w.authorizer = (r, s') := h
  rw [hpart] at hrun
  exact hrun

/-- Two plans never share an address, so each address is asked for once. -/
theorem planUrl_injective (base commit : String) {i j : Nat} (h : planUrl base commit i = planUrl base commit j) :
    i = j := by
  unfold planUrl at h
  have hrepr : i.repr = j.repr := (String.append_right_inj _).mp ((String.append_left_inj _).mp h)
  have hdigits : Nat.toDigits 10 i = Nat.toDigits 10 j := by
    rw [← Nat.toList_repr, ← Nat.toList_repr, hrepr]
  rw [← Nat.ofDigitChars_ten_toDigits (n := i), hdigits, Nat.ofDigitChars_ten_toDigits]

theorem lookup_of_mem {arrivals : List (Nat × Web.Response)} {index : Nat} {response : Web.Response}
    (distinct : (arrivals.map Prod.fst).Nodup) (h : (index, response) ∈ arrivals) :
    arrivals.lookup index = some response := by
  induction arrivals with
  | nil => cases h
  | cons first rest ih =>
    rw [List.map_cons, List.nodup_cons] at distinct
    rcases List.mem_cons.mp h with rfl | h
    · rw [List.lookup_cons, beq_self_eq_true]
    · have hne : index ≠ first.1 := by
        rintro rfl
        exact distinct.1 (List.mem_map.mpr ⟨_, h, rfl⟩)
      rw [List.lookup_cons, beq_false_of_ne hne]
      exact ih distinct.2 h

/-- What is asked for, and what comes of it: of each index of interest the plan at its own address, if there is one,
in the order of the indices. -/
structure Fetched (server : Server) (o : GeneratorOptions) (urls : List String) (plans : List FetchedPlan) : Prop where
  once : urls.Nodup
  asked : ∀ url, url ∈ urls ↔ ∃ i < o.count, i ∉ o.skip ∧ url = planUrl o.base o.commit i
  increasing : plans.Pairwise fun p q => p.index < q.index
  plans : ∀ i v, ⟨i, v⟩ ∈ plans ↔ i < o.count ∧ i ∉ o.skip ∧
    ∃ body, server.answer (planUrl o.base o.commit i) = .body body ∧ Json.parse body = .ok v

/-- A status other than success, a request that fails and a body that is no JSON all count as no plan. -/
theorem planIn_eq_some_iff {response : Web.Response} {v : Json} :
    planIn response = some v ↔ ∃ body, response = .body body ∧ Json.parse body = .ok v := by
  cases response with
  | body content =>
    rw [planIn]
    cases hparse : Json.parse content with
    | error e => simp [hparse, Except.toOption]
    | ok parsed => simp [hparse, Except.toOption]
  | refused | unreachable => simp [planIn]

/-- An index is asked for if it is below the count and is not skipped, and at its own address. -/
theorem mem_requests {r : Request} :
    r ∈ requests o ↔ r.index < o.count ∧ r.index ∉ o.skip ∧ r.url = planUrl o.base o.commit r.index := by
  obtain ⟨index, url⟩ := r
  simp only [requests, List.mem_map, List.mem_filter, List.mem_range, Bool.not_eq_true', List.contains_eq_mem,
    decide_eq_false_iff_not, Request.mk.injEq]
  constructor
  · rintro ⟨i, ⟨hi, hskip⟩, rfl, rfl⟩
    exact ⟨hi, hskip, rfl⟩
  · rintro ⟨hi, hskip, rfl⟩
    exact ⟨index, ⟨hi, hskip⟩, rfl, rfl⟩

theorem requests_increasing (o : GeneratorOptions) :
    (requests o).Pairwise fun r r' => r.index < r'.index := by
  rw [requests, List.pairwise_map]
  exact List.pairwise_lt_range.filter _

def served (server : Server) (o : GeneratorOptions) : List FetchedPlan :=
  (requests o).filterMap fun r => (planIn (server.answer r.url)).map fun v => ⟨r.index, v⟩

/-- In whatever order the answers come, each plan is found under its index. -/
theorem gather_eq (server : Server) (o : GeneratorOptions) :
    gather (server.arrange ((requests o).map fun r => (r.index, server.answer r.url))) (requests o) =
      served server o := by
  have hperm := server.perm ((requests o).map fun r => (r.index, server.answer r.url))
  have hdistinct := (hperm.map Prod.fst).nodup_iff.mpr (by
    rw [List.map_map, List.Nodup, List.pairwise_map]
    exact (requests_increasing o).imp Nat.ne_of_lt)
  refine List.filterMap_congr fun r hr => ?_
  have hmem := hperm.mem_iff.mpr (List.mem_map.mpr ⟨r, hr, rfl⟩)
  rw [lookup_of_mem hdistinct hmem]
  exact Option.map_eq_bind.symm

/-- Nothing but the answer at the address of a plan decides whether it is taken. -/
theorem mem_served {i : Nat} {v : Json} : ⟨i, v⟩ ∈ served server o ↔ i < o.count ∧ i ∉ o.skip ∧
    ∃ body, server.answer (planUrl o.base o.commit i) = .body body ∧ Json.parse body = .ok v := by
  rw [served, List.mem_filterMap]
  constructor
  · rintro ⟨r, hr, hp⟩
    obtain ⟨v', hv', hp⟩ := Option.map_eq_some_iff.mp hp
    cases hp
    obtain ⟨hi, hskip, hurl⟩ := mem_requests.mp hr
    exact ⟨hi, hskip, planIn_eq_some_iff.mp (hurl ▸ hv')⟩
  · rintro ⟨hi, hskip, hplan⟩
    refine ⟨⟨i, planUrl o.base o.commit i⟩, mem_requests.mpr ⟨hi, hskip, rfl⟩, ?_⟩
    rw [planIn_eq_some_iff.mpr hplan]
    rfl

theorem served_increasing (server : Server) (o : GeneratorOptions) :
    (served server o).Pairwise fun p q => p.index < q.index := by
  apply List.pairwise_filterMap.mpr
  apply (requests_increasing o).imp
  intro r r' hlt p hp q hq
  obtain ⟨_, _, rfl⟩ := Option.map_eq_some_iff.mp hp
  obtain ⟨_, _, rfl⟩ := Option.map_eq_some_iff.mp hq
  exact hlt

theorem fetched (server : Server) (o : GeneratorOptions) :
    Fetched server o ((requests o).map Request.url) (served server o) := by
  constructor
  case once =>
    rw [List.Nodup, List.pairwise_map]
    apply (requests_increasing o).imp_of_mem
    intro r r' hr hr' hlt heq
    rw [(mem_requests.mp hr).2.2, (mem_requests.mp hr').2.2] at heq
    exact Nat.ne_of_lt hlt (planUrl_injective _ _ heq)
  case asked =>
    intro url
    rw [List.mem_map]
    constructor
    · rintro ⟨r, hr, rfl⟩
      obtain ⟨hi, hskip, hurl⟩ := mem_requests.mp hr
      exact ⟨r.index, hi, hskip, hurl⟩
    · rintro ⟨i, hi, hskip, rfl⟩
      exact ⟨⟨i, _⟩, mem_requests.mpr ⟨hi, hskip, rfl⟩, rfl⟩
  case increasing => exact served_increasing server o
  case plans => exact fun _ _ => mem_served

/-- Fetching never fails, as a plan that is not served is left out. -/
theorem fetchPlans_on (server : Server) (authorizer : Signer σ) (scratch : String) (o : GeneratorOptions)
    (w : World σ) :
    (fetchPlans o).on (reply server authorizer scratch) w =
      (.ok (served server o), { w with asked := w.asked ++ (requests o).map Request.url }) := by
  rw [← gather_eq]
  rfl

/-- All plans are converted, one after the other. -/
inductive Converts (authorizer : Signer σ) (seed : String) : σ → List FetchedPlan → List PlanCase → σ → Prop where
  | nil (s : σ) : Converts authorizer seed s [] [] s
  | cons {s s₁ s' : σ} {p : FetchedPlan} {plans : List FetchedPlan} {c : PlanCase} {cases : List PlanCase}
      (first : (convert seed p.index p.plan).on authorizer s = (.ok c, s₁))
      (rest : Converts authorizer seed s₁ plans cases s') : Converts authorizer seed s (p :: plans) (c :: cases) s'

/-- The first plan that cannot be converted fails like this. -/
inductive Breaks (authorizer : Signer σ) (seed : String) : σ → List FetchedPlan → Error → σ → Prop where
  | here {s s' : σ} {p : FetchedPlan} {e : Error}
      (failed : (convert seed p.index p.plan).on authorizer s = (.error e, s')) (after : List FetchedPlan) :
      Breaks authorizer seed s (p :: after) e s'
  | later {s s₁ s' : σ} {p : FetchedPlan} {plans : List FetchedPlan} {c : PlanCase} {e : Error}
      (first : (convert seed p.index p.plan).on authorizer s = (.ok c, s₁))
      (rest : Breaks authorizer seed s₁ plans e s') : Breaks authorizer seed s (p :: plans) e s'

variable {plans : List FetchedPlan} {cases : List PlanCase} {e e' : Error} {s₁ : σ}

/-- No third case: the authorizer gives an answer for each plan, or the conversion ends there. -/
theorem converts_or_breaks (authorizer : Signer σ) (seed : String) (s : σ) (plans : List FetchedPlan) :
    (∃ cases s', Converts authorizer seed s plans cases s') ∨ ∃ e s', Breaks authorizer seed s plans e s' := by
  induction plans generalizing s with
  | nil => exact .inl ⟨[], s, .nil s⟩
  | cons p rest ih =>
    rcases hfirst : (convert seed p.index p.plan).on authorizer s with ⟨e | c, s₁⟩
    · exact .inr ⟨e, s₁, .here hfirst rest⟩
    · rcases ih s₁ with ⟨cases, s', converted⟩ | ⟨e, s', broken⟩
      · exact .inl ⟨c :: cases, s', .cons hfirst converted⟩
      · exact .inr ⟨e, s', .later hfirst broken⟩

theorem Converts.not_breaks (converted : Converts authorizer seed s plans cases s') :
    ¬ Breaks authorizer seed s plans e s₁ := by
  intro broken
  induction converted with
  | nil => cases broken
  | cons first _ ih =>
    cases broken with
    | here failed => cases first.symm.trans failed
    | later first' rest =>
      cases first.symm.trans first'
      exact ih rest

/-- The first failure is the only one, since nothing is asked behind it. -/
theorem Breaks.unique (broken : Breaks authorizer seed s plans e s') (broken' : Breaks authorizer seed s plans e' s₁) :
    e = e' ∧ s' = s₁ := by
  induction broken with
  | here failed =>
    cases broken' with
    | here failed' =>
      cases failed.symm.trans failed'
      exact ⟨rfl, rfl⟩
    | later first _ => cases failed.symm.trans first
  | later first _ ih =>
    cases broken' with
    | here failed => cases first.symm.trans failed
    | later first' rest =>
      cases first.symm.trans first'
      exact ih rest

theorem Breaks.behind {before : List FetchedPlan} (broken : Breaks authorizer seed s₁ plans e s')
    (converted : Converts authorizer seed s before cases s₁) : Breaks authorizer seed s (before ++ plans) e s' := by
  induction converted with
  | nil => exact broken
  | cons first _ ih => exact .later first (ih broken)

/-- An authorizer that breaks down on a plan breaks the conversion off. -/
theorem breaks_of_crash {p : FetchedPlan} {plan : Plan} (read : Plan.ofJson p.plan = .ok plan)
    (crashed : authorizer ⟨seed, plan⟩ s = (.error .crash, s')) (after : List FetchedPlan) :
    Breaks authorizer seed s (p :: after) .crash s' := by
  refine .here ?_ after
  rw [convert_read read, crashed]
  rfl

theorem convertAll_cons (p : FetchedPlan) (plans : List FetchedPlan) :
    convertAll seed (p :: plans) = do
      let c ← withAuthorizer (convert seed p.index p.plan)
      let cases ← convertAll seed plans
      return c :: cases := List.mapM_cons

theorem convertAll_of_converts (converted : Converts authorizer seed s plans cases s') (t : Tree)
    (asked : List String) :
    (convertAll seed plans).on (reply server authorizer scratch) ⟨t, s, asked⟩ = (.ok cases, ⟨t, s', asked⟩) := by
  induction converted with
  | nil s => rfl
  | cons first _ ih =>
    rw [convertAll_cons, Attempt.on_bind (withAuthorizer_on first), Attempt.on_bind ih]
    rfl

/-- The state of the authorizer is what the failing plan left. Files are not touched. -/
theorem convertAll_of_breaks (broken : Breaks authorizer seed s plans e s') (t : Tree) (asked : List String) :
    (convertAll seed plans).on (reply server authorizer scratch) ⟨t, s, asked⟩ = (.error e, ⟨t, s', asked⟩) := by
  induction broken with
  | here failed => rw [convertAll_cons, Attempt.on_bind_error (withAuthorizer_on failed)]
  | later first _ ih =>
    rw [convertAll_cons, Attempt.on_bind (withAuthorizer_on first), Attempt.on_bind_error ih]

theorem Converts.length_eq (converted : Converts authorizer seed s plans cases s') : cases.length = plans.length := by
  induction converted with
  | nil => rfl
  | cons _ _ ih => rw [List.length_cons, List.length_cons, ih]

theorem Converts.idx (converted : Converts authorizer seed s plans cases s') :
    List.Forall₂ (fun p c => c.idx.toNat = p.index % 2 ^ 32) plans cases := by
  induction converted with
  | nil => exact .nil
  | @cons s _ _ p _ _ _ first _ ih =>
    refine .cons ?_ ih
    obtain ⟨r, _, hrun, hends⟩ := convert_cases authorizer seed p.index p.plan s
    rw [first] at hrun
    cases hrun
    rcases hends with ⟨_, _, t, ht, _, shows⟩ | ⟨_, he, _⟩
    · cases ht
      exact shows.idx
    · cases he

structure Stored (t : Tree) (dir : String) (plans : List FetchedPlan) (cases : List PlanCase) : Prop where
  plans : t.read (join dir plansFile) = .ok (Bytes.ofText (Json.pretty (.array (plans.map FetchedPlan.toJson))))
  cases : t.read (join dir testCasesFile) = .ok (Bytes.ofText (Json.pretty (.array (cases.map PlanCase.toJson))))

theorem plain_plansFile : Files.Plain plansFile := ⟨by decide, by decide +kernel⟩

theorem plain_testCasesFile : Files.Plain testCasesFile := ⟨by decide, by decide +kernel⟩

/-- A failure of the system at one of the places that the generator works on. -/
def Unwritten (dir : String) (e : Error) : Prop :=
  ∃ path ∈ [dir, join dir testCasesFile, join dir plansFile], ∃ cause, e = .file path (.system cause)

theorem onFile_cases {τ α : Type} (reply : (ask : Files.Ask) → τ → Files.Reply ask × τ) (path : String)
    (x : Files.Access α) (t : τ) :
    (∃ a t', x.on reply t = (.ok a, t') ∧ (onFile path x).on reply t = (.ok a, t')) ∨
      ∃ cause t', x.on reply t = (.error cause, t') ∧
        (onFile path x).on reply t = (.error (.file path (.system cause)), t') := by
  have hrun : (onFile path x).on reply t = _ := Attempt.on_adapt_eq
  rcases hx : x.on reply t with ⟨cause | a, t'⟩
  · rw [hx] at hrun
    exact .inr ⟨cause, t', rfl, hrun⟩
  · rw [hx] at hrun
    exact .inl ⟨a, t', rfl, hrun⟩

def casesText (cases : List PlanCase) : Bytes := Bytes.ofText (Json.pretty (.array (cases.map PlanCase.toJson)))

def plansText (plans : List FetchedPlan) : Bytes := Bytes.ofText (Json.pretty (.array (plans.map FetchedPlan.toJson)))

/-- How far storing comes on any system: each step finds what the one before it left, and the first that fails ends
it. -/
inductive Stores {τ : Type} (reply : (ask : Files.Ask) → τ → Files.Reply ask × τ) (dir : String) (cases : List PlanCase)
    (plans : List FetchedPlan) (t : τ) : Except Error Unit → τ → Prop where
  | noDir {cause t'} (made : reply (.createDirs dir) t = (.error cause, t')) :
    Stores reply dir cases plans t (.error (.file dir (.system cause))) t'
  | noCases {cause t₁ t'} (made : reply (.createDirs dir) t = (.ok (), t₁))
      (failed : reply (.write (join dir testCasesFile) (casesText cases)) t₁ = (.error cause, t')) :
    Stores reply dir cases plans t (.error (.file (join dir testCasesFile) (.system cause))) t'
  | noPlans {cause t₁ t₂ t'} (made : reply (.createDirs dir) t = (.ok (), t₁))
      (wrote : reply (.write (join dir testCasesFile) (casesText cases)) t₁ = (.ok (), t₂))
      (failed : reply (.write (join dir plansFile) (plansText plans)) t₂ = (.error cause, t')) :
    Stores reply dir cases plans t (.error (.file (join dir plansFile) (.system cause))) t'
  | all {t₁ t₂ t'} (made : reply (.createDirs dir) t = (.ok (), t₁))
      (wroteCases : reply (.write (join dir testCasesFile) (casesText cases)) t₁ = (.ok (), t₂))
      (wrotePlans : reply (.write (join dir plansFile) (plansText plans)) t₂ = (.ok (), t')) :
    Stores reply dir cases plans t (.ok ()) t'

/-- This holds of any replies to the requests. What a success leaves is then a matter of the system, as `Stored` for a
tree. -/
theorem writeOutputs_stores {τ : Type} (reply : (ask : Files.Ask) → τ → Files.Reply ask × τ) (dir : String)
    (cases : List PlanCase) (plans : List FetchedPlan) (t : τ) :
    ∃ r t', (writeOutputs dir cases plans).on reply t = (r, t') ∧ Stores reply dir cases plans t r t' := by
  unfold writeOutputs
  rcases onFile_cases reply dir (Files.Access.createDirs dir) t with
    ⟨_, t₁, hmade, hcreate⟩ | ⟨cause, t₁, hmade, hcreate⟩
  case inr => exact ⟨_, t₁, Attempt.on_bind_error hcreate, .noDir hmade⟩
  rw [Attempt.on_bind hcreate]
  rcases onFile_cases reply (join dir testCasesFile) (Files.Access.write (join dir testCasesFile) _) t₁ with
    ⟨_, t₂, hcases, hwrite⟩ | ⟨cause, t₂, hcases, hwrite⟩
  case inr => exact ⟨_, t₂, Attempt.on_bind_error hwrite, .noCases hmade hcases⟩
  rw [writeJson, Attempt.on_bind hwrite]
  rcases onFile_cases reply (join dir plansFile) (Files.Access.write (join dir plansFile) _) t₂ with
    ⟨_, t', hplans, hwrite⟩ | ⟨cause, t', hplans, hwrite⟩
  · exact ⟨_, t', hwrite, .all hmade hcases hplans⟩
  · exact ⟨_, t', hwrite, .noPlans hmade hcases hplans⟩

/-- In a tree a success means that both files hold what they are to hold. -/
theorem writeOutputs_cases (scratch dir : String) (cases : List PlanCase) (plans : List FetchedPlan) (t : Tree) :
    ∃ r t', (writeOutputs dir cases plans).on (Tree.reply scratch) t = (r, t') ∧
      (r = .ok () ∧ Stored t' dir plans cases ∨ ∃ e, r = .error e ∧ Unwritten dir e) := by
  obtain ⟨r, t', hrun, stores⟩ := writeOutputs_stores (Tree.reply scratch) dir cases plans t
  refine ⟨r, t', hrun, ?_⟩
  cases stores with
  | noDir => exact .inr ⟨_, rfl, dir, by simp, _, rfl⟩
  | noCases => exact .inr ⟨_, rfl, join dir testCasesFile, by simp, _, rfl⟩
  | noPlans => exact .inr ⟨_, rfl, join dir plansFile, by simp, _, rfl⟩
  | all _ wroteCases wrotePlans =>
    -- The plans are written beside the test cases, which stay.
    have hplans := Files.ok_of_change wrotePlans
    have hcases := Files.read_write_beside plain_plansFile plain_testCasesFile (by decide)
      (Files.ok_of_change wroteCases) hplans
    exact .inl ⟨rfl, Files.read_write hplans, hcases⟩

structure Ended (authorizer : Signer σ) (o : GeneratorOptions) (dir : String) (plans : List FetchedPlan) (w : World σ)
    (r : Except Error Nat) (w' : World σ) : Prop where
  /-- Where it succeeds, both files hold the plans and the test case of each of them. -/
  stored : ∀ n, r = .ok n → n = plans.length ∧ ∃ cases,
    Converts authorizer o.seed w.authorizer plans cases w'.authorizer ∧
    List.Forall₂ (fun p c => c.idx.toNat = p.index % 2 ^ 32) plans cases ∧ Stored w'.tree dir plans cases
  /-- The first plan that cannot be converted ends the run. No plan behind it is submitted, and nothing is stored. -/
  broken : ∀ e s', Breaks authorizer o.seed w.authorizer plans e s' →
    r = .error e ∧ w'.authorizer = s' ∧ w'.tree = w.tree
  crashed : ∀ before p after cases plan s s', plans = before ++ p :: after →
    Converts authorizer o.seed w.authorizer before cases s → Plan.ofJson p.plan = .ok plan →
    authorizer ⟨o.seed, plan⟩ s = (.error .crash, s') → r = .error .crash ∧ w'.authorizer = s' ∧ w'.tree = w.tree
  /-- There is no other reason to fail but files that the system refuses. -/
  failed : ∀ e, r = .error e → Breaks authorizer o.seed w.authorizer plans e w'.authorizer ∨ Unwritten dir e

/-- The tree is the one before: storing comes behind all conversions. -/
theorem ended_of_breaks {t : Tree} {asked asked' : List String} (broken : Breaks authorizer o.seed s plans e s') :
    Ended authorizer o dir plans ⟨t, s, asked⟩ (.error e) ⟨t, s', asked'⟩ := by
  have hbroken (e' : Error) (s₁ : σ) (broken' : Breaks authorizer o.seed s plans e' s₁) :
      Except.error e = (.error e' : Except Error Nat) ∧ s' = s₁ ∧ t = t := by
    obtain ⟨rfl, rfl⟩ := broken.unique broken'
    exact ⟨rfl, rfl, rfl⟩
  constructor
  case stored =>
    intro n hn
    cases hn
  case broken => exact hbroken
  case crashed =>
    rintro before p after cases plan s₁ s₂ rfl converted read crashed
    exact hbroken _ _ ((breaks_of_crash read crashed after).behind converted)
  case failed =>
    rintro _ ⟨⟩
    exact .inl broken

theorem ended_of_converts {t : Tree} {asked asked' : List String} {r : Except Error Unit}
    (converted : Converts authorizer o.seed s plans cases s')
    (hends : r = .ok () ∧ Stored t' dir plans cases ∨ ∃ e, r = .error e ∧ Unwritten dir e) :
    Ended authorizer o dir plans ⟨t, s, asked⟩ (r.map fun _ => cases.length) ⟨t', s', asked'⟩ := by
  have hbroken {e' : Error} {s₁ : σ} : ¬ Breaks authorizer o.seed s plans e' s₁ := converted.not_breaks
  constructor
  case stored =>
    intro n hn
    rcases hends with ⟨rfl, stored⟩ | ⟨e, rfl, _⟩
    · cases hn
      exact ⟨converted.length_eq, cases, converted, converted.idx, stored⟩
    · cases hn
  case broken =>
    intro e s₁ broken
    exact absurd broken hbroken
  case crashed =>
    rintro before p after cases plan s₁ s₂ rfl converted' read crashed
    exact absurd ((breaks_of_crash read crashed after).behind converted') hbroken
  case failed =>
    intro e he
    rcases hends with ⟨rfl, _⟩ | ⟨e', rfl, unwritten⟩
    · cases he
    · cases he
      exact .inr unwritten

/-- The addresses of all plans of interest are asked for, once each, and all plans that are served are taken, in the
order of their indices, whatever the order of the answers. Then either all of them are converted and stored, or none
is stored. -/
theorem generate_run (server : Server) (authorizer : Signer σ) (scratch : String) (o : GeneratorOptions)
    (dir : String) (w : World σ) :
    ∃ urls plans r w', (fetchPlans o).on (reply server authorizer scratch) w =
        (.ok plans, { w with asked := w.asked ++ urls }) ∧ Fetched server o urls plans ∧
      (generate o dir).on (reply server authorizer scratch) w = (r, w') ∧ w'.asked = w.asked ++ urls ∧
      Ended authorizer o dir plans w r w' := by
  obtain ⟨t, s, asked⟩ := w
  have hfetch := fetchPlans_on server authorizer scratch o ⟨t, s, asked⟩
  have hfetched := fetched server o
  unfold generate
  rw [Attempt.on_bind hfetch]
  rcases converts_or_breaks authorizer o.seed s (served server o) with ⟨cases, s', converted⟩ | ⟨e, s', broken⟩
  · obtain ⟨r, t', hwrite, hends⟩ := writeOutputs_cases scratch dir cases (served server o) t
    have hstore := withFiles_on server authorizer (w := ⟨t, s', asked ++ (requests o).map Request.url⟩) hwrite
    rw [Attempt.on_bind (convertAll_of_converts converted ..)]
    cases r with
    | ok =>
      rw [Attempt.on_bind hstore]
      exact ⟨_, _, _, _, hfetch, hfetched, rfl, rfl, ended_of_converts converted hends⟩
    | error e =>
      rw [Attempt.on_bind_error hstore]
      exact ⟨_, _, _, _, hfetch, hfetched, rfl, rfl, ended_of_converts converted hends⟩
  · rw [Attempt.on_bind_error (convertAll_of_breaks broken ..)]
    exact ⟨_, _, _, _, hfetch, hfetched, rfl, rfl, ended_of_breaks broken⟩

def lonePlan : Server where
  answer url := if url = planUrl "https://plans" "c" 1 then .body (Bytes.ofText "\x7b\x7d") else .refused 404
  arrange := List.reverse
  perm := List.reverse_perm

def firstThree : GeneratorOptions := ⟨"https://plans", "c", 3, [], "words"⟩

def loneRun : Except Error Nat × World Nat :=
  (generate firstThree "out").on (reply lonePlan (fun _ count => (.ok (alike 0 0), count + 1)) "scratch")
    ⟨⟨.nil⟩, 0, []⟩

theorem lonePlan_stored :
    loneRun.1 = .ok 1 ∧ loneRun.2.authorizer = 1 ∧ ∃ p c, p.index = 1 ∧ Stored loneRun.2.tree "out" [p] [c] := by
  obtain ⟨urls, plans, r, w', _, fetched, hrun, _, ended⟩ := generate_run lonePlan
    (fun _ count => (.ok (alike 0 0), count + 1)) "scratch" firstThree "out" ⟨⟨.nil⟩, 0, []⟩
  have hloneRun : loneRun = (r, w') := hrun
  have hsome : loneRun.1.toOption = some 1 := by decide +kernel
  have hcount : loneRun.2.authorizer = 1 := by decide +kernel
  rw [hloneRun] at hsome hcount ⊢
  cases r with
  | error e => cases hsome
  | ok n =>
    cases hsome
    obtain ⟨hlength, cases, converted, _, stored⟩ := ended.stored 1 rfl
    obtain ⟨p, rfl⟩ := List.length_eq_one_iff.mp hlength.symm
    obtain ⟨c, rfl⟩ := List.length_eq_one_iff.mp converted.length_eq
    obtain ⟨_, _, body, hbody, _⟩ := (fetched.plans p.index p.plan).mp List.mem_cons_self
    have hindex : p.index = 1 := by
      by_contra hne
      have hother : planUrl "https://plans" "c" p.index ≠ planUrl "https://plans" "c" 1 :=
        fun h => hne (planUrl_injective _ _ h)
      have hrefused : lonePlan.answer (planUrl "https://plans" "c" p.index) = .refused 404 := if_neg hother
      cases hrefused.symm.trans hbody
    exact ⟨rfl, hcount, p, c, hindex, stored⟩

end SignerBench.Vectors.Generator
