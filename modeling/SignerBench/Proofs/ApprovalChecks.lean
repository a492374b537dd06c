import SignerBench.Proofs.PlanCases
import SignerBench.Proofs.Results
import SignerBench.Suite.Checks

namespace SignerBench

open Vectors

def App.SignedPlan.signatures (r : App.SignedPlan) : Authorization → List App.Signature
  | .spendAuth => r.spendAuths
  | .delegatorVote => r.delegatorVotes
  | .lqtVote => r.lqtVotes

def Vectors.PlanCase.signatures (t : PlanCase) : Authorization → List String
  | .spendAuth => t.expectedSpendSigs
  | .delegatorVote => t.expectedDelegatorVoteSigs
  | .lqtVote => t.expectedLqtVoteSigs

/-- A test case has as many signatures of each kind as the plan has actions that need one. -/
theorem Vectors.Shows.length_signatures {index : Nat} {plan : Plan} {a : Authorized} {t : PlanCase}
    (shows : Shows index plan a t) (complete : Complete plan a) (kind : Authorization) :
    (t.signatures kind).length = plan.actions.countP (·.kind = kind.action) := by
  have hread : (t.signatures kind).mapM Hex.decode = .ok (a.signatures kind) := by
    cases kind with
    | spendAuth => exact shows.spends
    | delegatorVote => exact shows.delegatorVotes
    | lqtVote => exact shows.lqtVotes
  rw [← (complete.signed kind).count]
  exact (mapM_ok_iff.mp hread).length_eq

namespace Suite

/-- Texts of bytes are compared as the bytes are: the letters of the expected text may be of either case, and nothing
else may differ. -/
theorem sameIgnoringCase_encode (b : Bytes) (s : String) :
    sameIgnoringCase (Hex.encode b) s = true ↔ Hex.decode s = .ok b := by
  have hlower : (Hex.encode b).toLower = Hex.encode b := Hex.decode_eq_ok_iff.mp (Hex.decode_encode b)
  rw [sameIgnoringCase, decide_eq_true_iff, hlower, eq_comm]
  exact Hex.decode_eq_ok_iff.symm

/-- An expected text that is no hexadecimal text of a hash never passes. -/
theorem checkEffectHash_eq_ok_iff (name expected : String) (r : App.SignedPlan) :
    checkEffectHash name expected r = .ok () ↔ Hex.decode expected = .ok r.effectHash.val := by
  rw [← sameIgnoringCase_encode]
  unfold checkEffectHash
  dsimp only
  split
  case isTrue h => exact iff_of_true rfl h
  case isFalse h => exact iff_of_false (fun h => nomatch h) h

abbrev SameCount (t : PlanCase) (r : App.SignedPlan) (kind : Authorization) : Prop :=
  (t.signatures kind).length = (r.signatures kind).length

def miscount (t : PlanCase) (r : App.SignedPlan) (kind : Authorization) : Error :=
  .signatureCount t.name kind (t.signatures kind).length (r.signatures kind).length

/-- The counts are compared one kind after the other. -/
theorem checkSignatureCounts_eq (t : PlanCase) (r : App.SignedPlan) : checkSignatureCounts t r =
    if SameCount t r .spendAuth then
      if SameCount t r .delegatorVote then
        if SameCount t r .lqtVote then .ok () else .error (miscount t r .lqtVote)
      else .error (miscount t r .delegatorVote)
    else .error (miscount t r .spendAuth) := by
  unfold SameCount miscount PlanCase.signatures App.SignedPlan.signatures checkSignatureCounts signatureCounts
  dsimp only
  split_ifs with spends votes lqts
  · simp [spends, votes, lqts]
  · simp [spends, votes, lqts]
  · simp [spends, votes]
  · simp [spends]

/-- The kinds are looked at in their order, up to the first whose number differs. -/
theorem checkSignatureCounts_cases (t : PlanCase) (r : App.SignedPlan) :
    ((∀ kind, SameCount t r kind) ∧ checkSignatureCounts t r = .ok ()) ∨
      ∃ kind, (∀ k ∈ kind.before, SameCount t r k) ∧ ¬ SameCount t r kind ∧
        checkSignatureCounts t r = .error (miscount t r kind) := by
  rw [checkSignatureCounts_eq]
  by_cases spends : SameCount t r .spendAuth
  case neg => exact .inr ⟨.spendAuth, List.forall_mem_nil _, spends, if_neg spends⟩
  by_cases votes : SameCount t r .delegatorVote
  case neg =>
    refine .inr ⟨.delegatorVote, List.forall_mem_singleton.mpr spends, votes, ?_⟩
    rw [if_pos spends, if_neg votes]
  by_cases lqts : SameCount t r .lqtVote
  case neg =>
    refine .inr ⟨.lqtVote, List.forall_mem_cons.mpr ⟨spends, List.forall_mem_singleton.mpr votes⟩, lqts, ?_⟩
    rw [if_pos spends, if_pos votes, if_neg lqts]
  refine .inl ⟨fun kind => ?_, ?_⟩
  · cases kind with
    | spendAuth => exact spends
    | delegatorVote => exact votes
    | lqtVote => exact lqts
  · rw [if_pos spends, if_pos votes, if_pos lqts]

/-- All kinds have to agree. What the signatures hold is not looked at. -/
theorem checkSignatureCounts_eq_ok_iff {t : PlanCase} {r : App.SignedPlan} :
    checkSignatureCounts t r = .ok () ↔ ∀ kind, SameCount t r kind := by
  rcases checkSignatureCounts_cases t r with ⟨same, hok⟩ | ⟨kind, _, other, herror⟩
  · exact iff_of_true hok same
  · rw [herror]
    exact iff_of_false (fun h => nomatch h) fun same => other (same kind)

/-- The first kind that differs is the one that is told, with both numbers. -/
theorem checkSignatureCounts_first {t : PlanCase} {r : App.SignedPlan} {kind : Authorization}
    (before : ∀ k ∈ kind.before, SameCount t r k) (other : ¬ SameCount t r kind) :
    checkSignatureCounts t r = .error (miscount t r kind) := by
  rcases checkSignatureCounts_cases t r with ⟨same, _⟩ | ⟨kind', before', other', herror⟩
  · exact absurd (same kind) other
  · rcases kind.before_or kind' with rfl | hk | hk
    · exact herror
    · exact absurd (before' kind hk) other
    · exact absurd (before kind' hk) other'

/-- A test case that was made of a plan tells the approvals that fit the plan and its authorization from all others,
and of the others which kind of signatures is the first that there are too few or too many of. An expected hash that
was written by hand passes exactly if it is the text of the hash, in whatever case its letters are. -/
theorem checks_exact {σ : Type} {authorizer : Submission → σ → Except Vectors.Error Authorized × σ} {seed : String}
    {index : Nat} {v : Json} {plan : Plan} {a : Authorized} {t : PlanCase} {s s' : σ}
    (read : Plan.ofJson v = .ok plan) (answered : (authorizer ⟨seed, plan⟩ s).1 = .ok a)
    (converted : (convert seed index v).on authorizer s = (.ok t, s')) (r : App.SignedPlan) :
    (checkEffectHash t.name t.expectedEffectHash r = .ok () ↔ r.effectHash.val = a.effectHash) ∧
    (checkSignatureCounts t r = .ok () ↔
      ∀ kind : Authorization, (r.signatures kind).length = plan.actions.countP (·.kind = kind.action)) ∧
    (∀ kind : Authorization,
      (∀ k ∈ kind.before, (r.signatures k).length = plan.actions.countP (·.kind = k.action)) →
      (r.signatures kind).length ≠ plan.actions.countP (·.kind = kind.action) →
      checkSignatureCounts t r = .error (.signatureCount t.name kind (plan.actions.countP (·.kind = kind.action))
        (r.signatures kind).length)) ∧
    ∀ name expected, checkEffectHash name expected r = .ok () ↔ Hex.decode expected = .ok r.effectHash.val := by
  obtain ⟨_, _, hrun, hcases⟩ := convert_cases authorizer seed index v s
  cases converted.symm.trans hrun
  obtain ⟨plan', a', t', ht, ⟨read', answered', complete⟩, shows⟩ | ⟨_, herror, _⟩ := hcases
  case inr => cases herror
  cases ht
  cases read.symm.trans read'
  cases answered.symm.trans answered'
  -- The authorization is complete, so its signatures are as many as the actions that need one.
  have hcount (kind : Authorization) :
      SameCount t r kind ↔ (r.signatures kind).length = plan.actions.countP (·.kind = kind.action) := by
    rw [SameCount, shows.length_signatures complete, eq_comm]
  refine ⟨?_, ?_, fun kind before other => ?_, fun name expected => checkEffectHash_eq_ok_iff name expected r⟩
  · rw [checkEffectHash_eq_ok_iff, shows.effectHash, Except.ok.injEq, eq_comm]
  · rw [checkSignatureCounts_eq_ok_iff]
    exact forall_congr' hcount
  · rw [← shows.length_signatures complete kind]
    exact checkSignatureCounts_first (fun k hk => (hcount k).mpr (before k hk))
      fun same => other ((hcount kind).mp same)

def approval (spends votes : Nat) : App.SignedPlan :=
  ⟨⟨.replicate 64 238, rfl⟩, .replicate spends (Block.zero 64), .replicate votes (Block.zero 64), []⟩

/-- A plan with two spends and a vote: its approval passes, and one without the vote's signature does not. -/
theorem checks_of_spendsAndVote : ∃ t s',
    (convert "words" 7 spendsAndVote).on (fun _ asked => (.ok (alike 2 1), asked + 1)) 0 = (.ok t, s') ∧
      checkEffectHash t.name t.expectedEffectHash (approval 2 1) = .ok () ∧
      checkSignatureCounts t (approval 2 1) = .ok () ∧
      checkSignatureCounts t (approval 2 0) = .error (.signatureCount t.name .delegatorVote 1 0) := by
  have read : Plan.ofJson spendsAndVote = .ok readSpendsAndVote := rfl
  have complete : Complete readSpendsAndVote (alike 2 1) := by
    refine ⟨by decide, fun kind => ?_⟩
    cases kind <;> exact ⟨by decide, by decide⟩
  obtain ⟨_, s', hrun, ⟨_, _, t, rfl, _⟩ | ⟨_, _, refused⟩⟩ :=
    convert_cases (fun _ asked => (.ok (alike 2 1), asked + 1)) "words" 7 spendsAndVote 0
  case inr => exact absurd ⟨read, rfl, complete⟩ refused.not_accepted
  obtain ⟨hhash, hcounts, _, _⟩ := checks_exact read rfl hrun (approval 2 1)
  obtain ⟨_, _, hfirst, _⟩ := checks_exact read rfl hrun (approval 2 0)
  refine ⟨t, s', hrun, hhash.mpr rfl, hcounts.mpr fun kind => ?_, hfirst .delegatorVote ?_ (by decide)⟩
  · cases kind <;> decide
  · exact List.forall_mem_singleton.mpr (by decide)

end Suite

end SignerBench
