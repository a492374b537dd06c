import Mathlib.Algebra.Group.Nat.Defs
import SignerBench.Proofs.Attempt
import SignerBench.Proofs.HexText
import SignerBench.Vectors.Convert

namespace SignerBench.Vectors

def Authorization.action : Authorization → ActionKind
  | .spendAuth => .spend
  | .delegatorVote => .delegatorVote
  | .lqtVote => .actionLiquidityTournamentVote

theorem authorization?_eq_some_iff {k : ActionKind} {a : Authorization} :
    k.authorization? = some a ↔ k = a.action := by
  cases k <;> cases a <;> decide

theorem Plan.needed_eq (p : Plan) (a : Authorization) : p.needed a = p.actions.countP (·.kind = a.action) := by
  unfold Plan.needed
  simp only [authorization?_eq_some_iff]

def Authorized.signatures (a : Authorized) : Authorization → List Bytes
  | .spendAuth => a.spendAuths
  | .delegatorVote => a.delegatorVotes
  | .lqtVote => a.lqtVotes

def Authorization.before : Authorization → List Authorization
  | .spendAuth => []
  | .delegatorVote => [.spendAuth]
  | .lqtVote => [.spendAuth, .delegatorVote]

/-- There is one signature for each of the actions, and each is a whole one. -/
structure Signed (plan : Plan) (a : Authorized) (kind : Authorization) : Prop where
  count : (a.signatures kind).length = plan.actions.countP (·.kind = kind.action)
  whole : ∀ s ∈ a.signatures kind, s.length = 64

/-- What is wrong with the signatures of a kind. Their number counts before the first that is no whole one. -/
inductive Unsigned (plan : Plan) (a : Authorized) (kind : Authorization) : Error → Prop where
  | count (other : (a.signatures kind).length ≠ plan.actions.countP (·.kind = kind.action)) :
      Unsigned plan a kind
        (.signatureCount kind (plan.actions.countP (·.kind = kind.action)) (a.signatures kind).length)
  | length {index : Nat} {s : Bytes}
      (count : (a.signatures kind).length = plan.actions.countP (·.kind = kind.action))
      (here : (a.signatures kind)[index]? = some s) (broken : s.length ≠ 64)
      (first : ∀ i < index, ∀ s', (a.signatures kind)[i]? = some s' → s'.length = 64) :
      Unsigned plan a kind (.signatureLength kind index s.length)

theorem Unsigned.not_signed {plan : Plan} {a : Authorized} {kind : Authorization} {e : Error}
    (h : Unsigned plan a kind e) : ¬ Signed plan a kind := by
  intro signed
  cases h with
  | count other => exact other signed.count
  | length count here broken first => exact broken (signed.whole _ (List.mem_of_getElem? here))

theorem Unsigned.unique {plan : Plan} {a : Authorized} {kind : Authorization} {e e' : Error}
    (h : Unsigned plan a kind e) (h' : Unsigned plan a kind e') : e = e' := by
  cases h with
  | count other =>
    cases h' with
    | count _ => rfl
    | length count _ _ _ => exact absurd count other
  | @length index s count here broken first =>
    cases h' with
    | count other => exact absurd count other
    | @length index' s' _ here' broken' first' =>
      rcases Nat.lt_trichotomy index index' with hlt | rfl | hlt
      · exact absurd (first' index hlt s here) broken
      · rw [here] at here'
        cases here'
        rfl
      · exact absurd (first index' hlt s' here') broken'

/-- The signatures are looked at one after the other, as long as they are whole. -/
theorem checkLengths_cases (kind : Authorization) (index : Nat) (signatures : List Bytes) :
    ((∀ s ∈ signatures, s.length = 64) ∧ checkLengths kind index signatures = .ok (signatures.map Hex.encode)) ∨
      ∃ i s, signatures[i]? = some s ∧ s.length ≠ 64 ∧
        (∀ j < i, ∀ s', signatures[j]? = some s' → s'.length = 64) ∧
        checkLengths kind index signatures = .error (.signatureLength kind (index + i) s.length) := by
  induction signatures generalizing index with
  | nil => exact .inl ⟨List.forall_mem_nil _, rfl⟩
  | cons s rest ih =>
    by_cases hs : s.length = 64
    · have hstep : checkLengths kind index (s :: rest) =
          (checkLengths kind (index + 1) rest).map (Hex.encode s :: ·) := by
        have hwhole : ¬ s.length ≠ signatureLength := not_not_intro hs
        rw [checkLengths, if_neg hwhole]
        cases checkLengths kind (index + 1) rest <;> rfl
      rcases ih (index + 1) with ⟨hall, hok⟩ | ⟨i, s', hget, hbroken, hfirst, herror⟩
      · refine .inl ⟨List.forall_mem_cons.mpr ⟨hs, hall⟩, ?_⟩
        rw [hstep, hok]
        rfl
      · refine .inr ⟨i + 1, s', hget, hbroken, ?_, ?_⟩
        · intro j hj t ht
          cases j with
          | zero =>
            cases ht
            exact hs
          | succ j => exact hfirst j (Nat.lt_of_succ_lt_succ hj) t ht
        · rw [hstep, herror, Nat.add_assoc, Nat.add_comm 1 i]
          rfl
    · refine .inr ⟨0, s, rfl, hs, ?_, ?_⟩
      · intro j hj
        exact absurd hj (Nat.not_lt_zero j)
      · exact if_pos hs

/-- The check succeeds or tells what is wrong, and a success gives all signatures in their order. -/
theorem checkSignatures_cases (plan : Plan) (a : Authorized) (kind : Authorization) :
    (Signed plan a kind ∧ checkSignatures kind (plan.required.get kind) (a.signatures kind) =
        .ok ((a.signatures kind).map Hex.encode)) ∨
      ∃ e, Unsigned plan a kind e ∧
        checkSignatures kind (plan.required.get kind) (a.signatures kind) = .error e := by
  have hrequired : plan.required.get kind = plan.actions.countP (·.kind = kind.action) := by
    rw [← plan.needed_eq kind]
    cases kind <;> rfl
  rw [hrequired]
  unfold checkSignatures
  by_cases hcount : (a.signatures kind).length = plan.actions.countP (·.kind = kind.action)
  · rw [if_neg (not_not_intro hcount)]
    rcases checkLengths_cases kind 0 (a.signatures kind) with ⟨hall, hok⟩ | ⟨i, s, here, broken, first, herror⟩
    · exact .inl ⟨⟨hcount, hall⟩, hok⟩
    · rw [Nat.zero_add] at herror
      exact .inr ⟨_, .length hcount here broken first, herror⟩
  · rw [if_pos hcount]
    exact .inr ⟨_, .count hcount, rfl⟩

/-- An answer with all that a test case of the plan needs. -/
structure Complete (plan : Plan) (a : Authorized) : Prop where
  effectHash : a.effectHash.length = 64
  signed : ∀ kind, Signed plan a kind

/-- The first thing that is wrong with an answer. -/
inductive Flawed (plan : Plan) (a : Authorized) : Error → Prop where
  | effectHash (other : a.effectHash.length ≠ 64) : Flawed plan a (.effectHashLength a.effectHash.length)
  | signatures {kind : Authorization} {e : Error} (hash : a.effectHash.length = 64)
      (before : ∀ k ∈ kind.before, Signed plan a k) (unsigned : Unsigned plan a kind e) : Flawed plan a e

theorem Flawed.not_complete {plan : Plan} {a : Authorized} {e : Error} (h : Flawed plan a e) :
    ¬ Complete plan a := by
  intro complete
  cases h with
  | effectHash other => exact other complete.effectHash
  | signatures _ _ unsigned => exact unsigned.not_signed (complete.signed _)

/-- Of two kinds, one is the first to be checked. -/
theorem Authorization.before_or (k k' : Authorization) : k = k' ∨ k ∈ k'.before ∨ k' ∈ k.before := by
  cases k <;> cases k' <;> decide

/-- Each flaw excludes those behind it, so at most one of them is the first. -/
theorem Flawed.unique {plan : Plan} {a : Authorized} {e e' : Error} (h : Flawed plan a e)
    (h' : Flawed plan a e') : e = e' := by
  cases h with
  | effectHash other =>
    cases h' with
    | effectHash _ => rfl
    | signatures hash _ _ => exact absurd hash other
  | @signatures kind _ hash before unsigned =>
    cases h' with
    | effectHash other => exact absurd hash other
    | @signatures kind' _ _ before' unsigned' =>
      rcases kind.before_or kind' with rfl | hk | hk
      · exact unsigned.unique unsigned'
      · exact absurd (before' kind hk) unsigned.not_signed
      · exact absurd (before kind' hk) unsigned'.not_signed

/-- A test case shows the plan and all of the answer. -/
structure Shows (index : Nat) (plan : Plan) (a : Authorized) (t : PlanCase) : Prop where
  idx : t.idx.toNat = index % 2 ^ 32
  name : t.name = "Penumbra_PR4948_Vector_" ++ toString index
  blob : t.decodeBlob = .ok a.plan
  effectHash : Hex.decode t.expectedEffectHash = .ok a.effectHash
  spends : t.expectedSpendSigs.mapM Hex.decode = .ok a.spendAuths
  delegatorVotes : t.expectedDelegatorVoteSigs.mapM Hex.decode = .ok a.delegatorVotes
  lqtVotes : t.expectedLqtVoteSigs.mapM Hex.decode = .ok a.lqtVotes
  actionTypes : t.actionTypes = plan.actions.map (·.kind.name)
  metadata : t.metadata = []

/-- With a whole hash, what is left are the three lists in their order. -/
theorem make_of_hash {a : Authorized} (hash : a.effectHash.length = 64) (index : Nat) (plan : Plan) :
    PlanCase.make index plan a = do
      let spends ← checkSignatures .spendAuth (plan.required.get .spendAuth) (a.signatures .spendAuth)
      let delegatorVotes ←
        checkSignatures .delegatorVote (plan.required.get .delegatorVote) (a.signatures .delegatorVote)
      let lqtVotes ← checkSignatures .lqtVote (plan.required.get .lqtVote) (a.signatures .lqtVote)
      return ⟨UInt32.ofNat index, "Penumbra_PR4948_Vector_" ++ toString index, Hex.encode a.plan,
        Hex.encode a.effectHash, spends, delegatorVotes, lqtVotes, plan.actionNames, []⟩ :=
  if_neg (not_not_intro hash)

/-- Every answer gives a test case or an error, and which one is told by the answer alone. -/
theorem make_cases (index : Nat) (plan : Plan) (a : Authorized) :
    (Complete plan a ∧ ∃ t, PlanCase.make index plan a = .ok t ∧ Shows index plan a t) ∨
      ∃ e, Flawed plan a e ∧ PlanCase.make index plan a = .error e := by
  by_cases hash : a.effectHash.length = 64
  case neg => exact .inr ⟨_, .effectHash hash, if_pos hash⟩
  rw [make_of_hash hash]
  -- Each list is reached only if those before it are signed.
  rcases checkSignatures_cases plan a .spendAuth with ⟨spends, hspends⟩ | ⟨e, unsigned, herror⟩
  case inr =>
    refine .inr ⟨e, .signatures hash (List.forall_mem_nil _) unsigned, ?_⟩
    rw [herror]
    rfl
  rcases checkSignatures_cases plan a .delegatorVote with ⟨votes, hvotes⟩ | ⟨e, unsigned, herror⟩
  case inr =>
    have before : ∀ k ∈ Authorization.before .delegatorVote, Signed plan a k := List.forall_mem_singleton.mpr spends
    refine .inr ⟨e, .signatures hash before unsigned, ?_⟩
    rw [hspends, herror]
    rfl
  rcases checkSignatures_cases plan a .lqtVote with ⟨lqts, hlqts⟩ | ⟨e, unsigned, herror⟩
  case inr =>
    have before : ∀ k ∈ Authorization.before .lqtVote, Signed plan a k :=
      List.forall_mem_cons.mpr ⟨spends, List.forall_mem_singleton.mpr votes⟩
    refine .inr ⟨e, .signatures hash before unsigned, ?_⟩
    rw [hspends, hvotes, herror]
    rfl
  refine .inl ⟨⟨hash, ?_⟩, _, by rw [hspends, hvotes, hlqts]; rfl, ?_⟩
  · intro kind
    cases kind with
    | spendAuth => exact spends
    | delegatorVote => exact votes
    | lqtVote => exact lqts
  · constructor
    case idx => exact UInt32.toNat_ofNat'
    case name => rfl
    case blob => exact Hex.decode_encode _
    case effectHash => exact Hex.decode_encode _
    case spends => exact Hex.mapM_decode_encode _
    case delegatorVotes => exact Hex.mapM_decode_encode _
    case lqtVotes => exact Hex.mapM_decode_encode _
    case actionTypes => rfl
    case metadata => rfl

/-- Why a value gives no test case, where plans are answered like this. -/
inductive Refused (answer : Plan → Except Error Authorized) (v : Json) : Error → Prop where
  | shape {cause : PlanError} (misread : Plan.ofJson v = .error cause) : Refused answer v (.plan cause)
  | authorizer {plan : Plan} {e : Error} (read : Plan.ofJson v = .ok plan) (failed : answer plan = .error e) :
      Refused answer v e
  | answer {plan : Plan} {a : Authorized} {e : Error} (read : Plan.ofJson v = .ok plan)
      (answered : answer plan = .ok a) (flawed : Flawed plan a e) : Refused answer v e

variable {σ : Type} {authorizer : Submission → σ → Except Error Authorized × σ} {seed : String} {index : Nat}
  {v : Json} {plan : Plan} {a : Authorized} {s : σ}

/-- A value that is no plan is not submitted. -/
theorem convert_misread {cause : PlanError} (misread : Plan.ofJson v = .error cause) :
    (convert seed index v).on authorizer s = (.error (.plan cause), s) := by
  unfold convert
  rw [misread]
  rfl

/-- A plan is submitted once, and the answer decides. -/
theorem convert_read (read : Plan.ofJson v = .ok plan) :
    (convert seed index v).on authorizer s = ((authorizer ⟨seed, plan⟩ s).1 >>= PlanCase.make index plan,
      (authorizer ⟨seed, plan⟩ s).2) := by
  have hsubmit : (authorize seed plan).on authorizer s = authorizer ⟨seed, plan⟩ s := rfl
  unfold convert
  rw [read]
  have hread : Attempt.on authorizer (Attempt.ofExcept (.ok plan : Except Error Plan)) s = (.ok plan, s) := rfl
  refine (Attempt.on_bind hread).trans ?_
  rcases hanswer : authorizer ⟨seed, plan⟩ s with ⟨e | a, s'⟩
  · exact Attempt.on_bind_error (hsubmit.trans hanswer)
  · exact Attempt.on_bind (hsubmit.trans hanswer)

def Accepted (answer : Plan → Except Error Authorized) (v : Json) (plan : Plan) (a : Authorized) : Prop :=
  Plan.ofJson v = .ok plan ∧ answer plan = .ok a ∧ Complete plan a

theorem Refused.not_accepted {answer : Plan → Except Error Authorized} {e : Error} (h : Refused answer v e) :
    ¬ Accepted answer v plan a := by
  rintro ⟨read, answered, complete⟩
  cases h with
  | shape misread =>
    rw [read] at misread
    cases misread
  | authorizer read' failed =>
    cases read.symm.trans read'
    cases answered.symm.trans failed
  | answer read' answered' flawed =>
    cases read.symm.trans read'
    cases answered.symm.trans answered'
    exact flawed.not_complete complete

theorem Refused.unique {answer : Plan → Except Error Authorized} {e e' : Error} (h : Refused answer v e)
    (h' : Refused answer v e') : e = e' := by
  cases h with
  | shape misread =>
    cases h' with
    | shape misread' => cases misread.symm.trans misread'; rfl
    | authorizer read _ | answer read _ _ => cases misread.symm.trans read
  | authorizer read failed =>
    cases h' with
    | shape misread => cases read.symm.trans misread
    | authorizer read' failed' =>
      cases read.symm.trans read'
      cases failed.symm.trans failed'
      rfl
    | answer read' answered _ =>
      cases read.symm.trans read'
      cases failed.symm.trans answered
  | answer read answered flawed =>
    cases h' with
    | shape misread => cases read.symm.trans misread
    | authorizer read' failed =>
      cases read.symm.trans read'
      cases answered.symm.trans failed
    | answer read' answered' flawed' =>
      cases read.symm.trans read'
      cases answered.symm.trans answered'
      exact flawed.unique flawed'

theorem convert_cases (authorizer : Submission → σ → Except Error Authorized × σ) (seed : String) (index : Nat)
    (v : Json) (s : σ) : ∃ r s', (convert seed index v).on authorizer s = (r, s') ∧
      ((∃ plan a t, r = .ok t ∧ Accepted (fun plan => (authorizer ⟨seed, plan⟩ s).1) v plan a ∧
          Shows index plan a t) ∨
        ∃ e, r = .error e ∧ Refused (fun plan => (authorizer ⟨seed, plan⟩ s).1) v e) := by
  cases read : Plan.ofJson v with
  | error cause => exact ⟨_, _, convert_misread read, .inr ⟨_, rfl, .shape read⟩⟩
  | ok plan =>
    refine ⟨_, _, convert_read read, ?_⟩
    cases answered : (authorizer ⟨seed, plan⟩ s).1 with
    | error e => exact .inr ⟨e, rfl, .authorizer read answered⟩
    | ok a =>
      rcases make_cases index plan a with ⟨complete, t, hmake, shows⟩ | ⟨e, flawed, hmake⟩
      · exact .inl ⟨plan, a, t, hmake, ⟨read, answered, complete⟩, shows⟩
      · exact .inr ⟨e, hmake, .answer read answered flawed⟩

/-- Conversion for every authorizer. It succeeds exactly if the value is a plan and the answer to it is complete,
and then shows all of the answer; else it fails with the first check that does. -/
theorem convert_exact (authorizer : Submission → σ → Except Error Authorized × σ) (seed : String) (index : Nat)
    (v : Json) (s : σ) : ∃ r s', (convert seed index v).on authorizer s = (r, s') ∧
      ((∃ t, r = .ok t) ↔ ∃ plan a, Accepted (fun plan => (authorizer ⟨seed, plan⟩ s).1) v plan a) ∧
      (∀ t plan a, r = .ok t → Accepted (fun plan => (authorizer ⟨seed, plan⟩ s).1) v plan a →
        Shows index plan a t) ∧
      (∀ e, r = .error e ↔ Refused (fun plan => (authorizer ⟨seed, plan⟩ s).1) v e) ∧
      (∀ cause, Plan.ofJson v = .error cause → s' = s) ∧
      ∀ plan, Plan.ofJson v = .ok plan → s' = (authorizer ⟨seed, plan⟩ s).2 := by
  obtain ⟨r, s', hrun, hcases⟩ := convert_cases authorizer seed index v s
  refine ⟨r, s', hrun, ?_, ?_, ?_, ?_, ?_⟩
  case refine_1 =>
    rcases hcases with ⟨plan, a, t, rfl, accepted, _⟩ | ⟨e, rfl, refused⟩
    · exact iff_of_true ⟨t, rfl⟩ ⟨plan, a, accepted⟩
    · exact iff_of_false (by rintro ⟨t, ⟨⟩⟩) fun ⟨_, _, accepted⟩ => refused.not_accepted accepted
  case refine_2 =>
    intro t plan a ht accepted
    rcases hcases with ⟨plan', a', t', rfl, accepted', shows⟩ | ⟨e, _, refused⟩
    · cases ht
      cases accepted.1.symm.trans accepted'.1
      cases accepted.2.1.symm.trans accepted'.2.1
      exact shows
    · exact absurd accepted refused.not_accepted
  case refine_3 =>
    intro e
    rcases hcases with ⟨plan, a, t, rfl, accepted, _⟩ | ⟨e', rfl, refused⟩
    · exact iff_of_false (by rintro ⟨⟩) fun refused => refused.not_accepted accepted
    · constructor
      · rintro ⟨⟩
        exact refused
      · intro refused'
        rw [refused.unique refused']
  case refine_4 =>
    intro cause misread
    rw [convert_misread misread] at hrun
    exact (congrArg Prod.snd hrun).symm
  case refine_5 =>
    intro plan read
    rw [convert_read read] at hrun
    exact (congrArg Prod.snd hrun).symm

def spendsAndVote : Json :=
  .object [("actions", .array [.object [("spend", .null)], .object [("delegator_vote", .null)],
    .object [("spend", .bool true)]])]

def readSpendsAndVote : Plan :=
  ⟨[⟨.spend, .null⟩, ⟨.delegatorVote, .null⟩, ⟨.spend, .bool true⟩], none, none, none, []⟩

def alike (spends votes : Nat) : Authorized :=
  ⟨[10, 3], .replicate 64 238, .replicate spends (.replicate 64 1), .replicate votes (.replicate 64 2), []⟩

/-- With its signatures the plan is converted. With the same number of signatures put into the wrong lists it is
not, and the list that is checked first is told. -/
theorem spendsAndVote_converted :
    (∃ t s', (convert "words" 7 spendsAndVote).on (fun _ asked => (.ok (alike 2 1), asked + 1)) 0 = (.ok t, s') ∧
      t.decodeBlob = .ok [10, 3] ∧ t.actionTypes = ["spend", "delegatorVote", "spend"] ∧ s' = 1) ∧
    ∃ s', (convert "words" 7 spendsAndVote).on (fun _ asked => (.ok (alike 1 2), asked + 1)) 0 =
      (.error (.signatureCount .spendAuth 2 1), s') := by
  have read : Plan.ofJson spendsAndVote = .ok readSpendsAndVote := rfl
  refine ⟨?_, ?_⟩
  · obtain ⟨r, s', hrun, hok, hshows, _, _, hstate⟩ :=
      convert_exact (fun _ asked => (.ok (alike 2 1), asked + 1)) "words" 7 spendsAndVote 0
    have complete : Complete readSpendsAndVote (alike 2 1) := ⟨by decide, by
      intro kind
      cases kind <;> exact ⟨by decide, by decide⟩⟩
    obtain ⟨t, rfl⟩ := hok.mpr ⟨_, _, read, rfl, complete⟩
    have shows := hshows t _ _ rfl ⟨read, rfl, complete⟩
    exact ⟨t, s', hrun, shows.blob, shows.actionTypes, hstate _ read⟩
  · obtain ⟨r, s', hrun, _, _, herror, _⟩ :=
      convert_exact (fun _ asked => (.ok (alike 1 2), asked + 1)) "words" 7 spendsAndVote 0
    have unsigned : Unsigned readSpendsAndVote (alike 1 2) .spendAuth _ := .count (by decide)
    have hr := (herror _).mpr (.answer read rfl (.signatures (by decide) (List.forall_mem_nil _) unsigned))
    exact ⟨s', by rw [hrun, hr]; rfl⟩

end SignerBench.Vectors
