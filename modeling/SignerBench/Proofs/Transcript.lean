import SignerBench.App.Script
import SignerBench.Proofs.AnswerFields
import SignerBench.Proofs.Attempt

namespace SignerBench

namespace Bytes

theorem count_drop (n k : Nat) : (k + 1 + n) / (n + 1) = (k - n + n) / (n + 1) + 1 := by
  rcases Nat.lt_or_ge k n with h | h
  · rw [Nat.sub_eq_zero_of_le (Nat.le_of_lt h), Nat.zero_add, Nat.div_eq_of_lt (Nat.lt_succ_self n)]
    exact Nat.div_eq_of_lt_le (by omega) (by omega)
  · rw [Nat.sub_add_cancel h, show k + 1 + n = k + (n + 1) by omega, Nat.add_div_right _ (Nat.succ_pos n)]

/-- Cutting into pieces, told by the place of each piece. -/
theorem chunks_eq_map_range (n : Nat) (b : Bytes) :
    b.chunks (n + 1) =
      (List.range ((b.length + n) / (n + 1))).map fun j => (b.drop ((n + 1) * j)).take (n + 1) := by
  generalize hs : n + 1 = size
  fun_induction chunks size b with
  | case1 => simp [Nat.div_eq_of_lt (show n < size by omega)]
  | case2 x xs ih =>
    subst hs
    rw [ih, List.length_cons, count_drop, List.range_succ_eq_map, List.map_cons, List.map_map]
    simp only [Nat.add_sub_cancel, Nat.mul_zero, List.drop_zero, List.take_succ_cons, List.length_drop,
      List.cons.injEq, true_and]
    refine List.map_congr_left fun j _ => ?_
    rw [List.drop_drop, Function.comp_apply, Nat.mul_succ, Nat.add_comm _ (n + 1), Nat.add_right_comm,
      List.drop_succ_cons]

end Bytes

namespace App

open Account Apdu Dialogue

variable {ε : Type}

/-- The commands that announce a payload and bring it, 250 bytes in each but the last, which is marked. -/
def frames (ins : UInt8) (head payload : Bytes) : List Command :=
  ⟨0x80, ins, 0, 0, head⟩ :: (List.range ((payload.length + 249) / 250)).map fun j =>
    ⟨0x80, ins, if j + 1 = (payload.length + 249) / 250 then 2 else 1, 0, (payload.drop (250 * j)).take 250⟩

def fetches (ins : UInt8) (count : Nat) : List Command :=
  (List.range count).map fun k => ⟨0x80, ins, 0, 0, Bytes.le16 (UInt16.ofNat k)⟩

theorem chunkCommands_eq_mapIdx (i : Instruction) (cs : List Bytes) :
    chunkCommands i cs = cs.mapIdx fun j c => command i (if j + 1 = cs.length then 2 else 1) c := by
  fun_induction chunkCommands i cs with
  | case1 => rfl
  | case2 last => rfl
  | case3 chunk rest h ih =>
    have hr : rest.length ≠ 0 := fun h0 => h (List.length_eq_zero_iff.mp h0)
    rw [ih, List.mapIdx_cons]
    simp [hr]

/-- The pieces of the client are the frames of the protocol. -/
theorem chunkCommands_chunks (i : Instruction) (head payload : Bytes) :
    command i 0 head :: chunkCommands i (payload.chunks chunkSize) = frames i.code head payload := by
  rw [chunkCommands_eq_mapIdx, show chunkSize = 249 + 1 from rfl, Bytes.chunks_eq_map_range]
  refine congrArg (List.cons _) (List.ext_getElem (by simp) fun j _ _ => ?_)
  simp [command, cla]

abbrev Exchanges (ε : Type) := Log Command (fun _ => Except ε Answer) Empty

def answered : List Command → List Answer → Exchanges ε := List.zipWith fun c a => .asked c (.ok a)

theorem answered_append {cs cs' : List Command} {as as' : List Answer} (h : cs.length = as.length) :
    answered (ε := ε) (cs ++ cs') (as ++ as') = answered cs as ++ answered cs' as' :=
  List.zipWith_append h

theorem gives_bind {α β : Type} {x : Link ε α} {f : α → Link ε β} {log : Exchanges ε} {b : β}
    (h : (x >>= f).Gives log b) :
    ∃ a first rest, log = first ++ rest ∧ x.Gives first a ∧ (f a).Gives rest b :=
  Attempt.gives_bind (.inr fun _ => closed_of_talk _) h

theorem exchange_gives {c : Command} {log : Exchanges ε} {a : Answer} (h : (exchange c).Gives log a) :
    log = answered [c] [a] := by
  obtain ⟨r, first, rest, rfl, hq, hr⟩ := gives_bind h
  rw [Attempt.gives_query.mp hq]
  cases r with
  | error e => exact absurd hr Attempt.gives_throw
  | ok a' =>
    obtain ⟨rfl, rfl⟩ := Attempt.gives_pure.mp hr
    rfl

theorem checkStatus_gives {unknown : UInt16 → Error ε} {a : Answer} {log : Exchanges ε}
    (h : (checkStatus unknown a).Gives log ()) : log = [] := by
  unfold checkStatus at h
  split at h
  · exact (Attempt.gives_pure.mp h).1
  · split at h <;> exact absurd h Attempt.gives_throw

theorem request_gives {c : Command} {log : Exchanges ε} {data : Bytes} (h : (request c).Gives log data) :
    ∃ a, log = answered [c] [a] ∧ data = a.data := by
  obtain ⟨a, first, rest, rfl, hx, hr⟩ := gives_bind h
  obtain ⟨_, first', rest, rfl, hc, hp⟩ := gives_bind hr
  obtain ⟨rfl, rfl⟩ := Attempt.gives_pure.mp hp
  rw [exchange_gives hx, checkStatus_gives hc]
  exact ⟨a, by simp, rfl⟩

/-- Commands and answers come in pairs, and the last answer is the one that is kept. -/
theorem exchangeAll_gives {cs : List Command} {first last : Answer} {log : Exchanges ε}
    (h : (exchangeAll first cs).Gives log last) :
    ∃ as, as.length = cs.length ∧ log = answered cs as ∧
      last = (first :: as).getLast (List.cons_ne_nil _ _) := by
  induction cs generalizing first log with
  | nil =>
    obtain ⟨rfl, rfl⟩ := Attempt.gives_pure.mp h
    exact ⟨[], rfl, rfl, rfl⟩
  | cons c cs ih =>
    obtain ⟨a, log₁, rest, rfl, hx, hr⟩ := gives_bind h
    obtain ⟨_, log₂, rest, rfl, hc, ha⟩ := gives_bind hr
    obtain ⟨as, hlen, rfl, rfl⟩ := ih ha
    rw [exchange_gives hx, checkStatus_gives hc]
    exact ⟨a :: as, by simp [hlen], rfl, rfl⟩

theorem not_throw_bind_gives {α β : Type} {e : Error ε} {f : α → Link ε β} {log : Exchanges ε} {b : β} :
    ¬ (throw e >>= f : Link ε β).Gives log b := by
  intro h
  obtain ⟨_, _, _, _, ht, _⟩ := gives_bind h
  exact Attempt.gives_throw ht

theorem sendChunks_gives {i : Instruction} {head payload : Bytes} {log : Exchanges ε} {data : Bytes}
    (h : (sendChunks i head payload).Gives log data) :
    ∃ as last, as.length + 1 = (frames i.code head payload).length ∧
      log = answered (frames i.code head payload) (as ++ [last]) ∧ data = last.data := by
  unfold sendChunks at h
  dsimp only at h
  split at h
  · exact absurd h not_throw_bind_gives
  split at h
  · exact absurd h not_throw_bind_gives
  obtain ⟨first, log₁, rest, rfl, hx, hr⟩ := gives_bind h
  obtain ⟨_, log₂, rest, rfl, hc, hr⟩ := gives_bind hr
  obtain ⟨last, log₃, rest, rfl, ha, hp⟩ := gives_bind hr
  obtain ⟨rfl, rfl⟩ := Attempt.gives_pure.mp hp
  obtain ⟨as, hlen, rfl, rfl⟩ := exchangeAll_gives ha
  rw [exchange_gives hx, checkStatus_gives hc, ← chunkCommands_chunks]
  refine ⟨(first :: as).dropLast, _, by simp [hlen], ?_, rfl⟩
  rw [List.dropLast_concat_getLast]
  simp [answered]

theorem sendMetadata_gives {metadata : List String} {log : Exchanges ε}
    (h : (sendMetadata metadata).Gives log ()) :
    ∃ payload as, Metadata.encode metadata = some payload ∧ as.length = (frames 0x04 [] payload).length ∧
      log = answered (frames 0x04 [] payload) as := by
  unfold sendMetadata at h
  split at h
  · exact absurd h Attempt.gives_throw
  · rename_i payload hp
    obtain ⟨data, hs, _⟩ := Attempt.gives_map h
    obtain ⟨as, last, hlen, rfl, rfl⟩ := sendChunks_gives hs
    exact ⟨payload, as ++ [last], hp, List.length_append.trans hlen, rfl⟩

/-- One command with the index, and of the answer the first 64 bytes. -/
theorem signature_gives {i : Instruction} {k : Nat} {log : Exchanges ε} {s : Signature}
    (h : (signature i k).Gives log s) :
    ∃ a, log = answered [command i 0 (Bytes.le16 (UInt16.ofNat k))] [a] ∧ s.val = a.data.take 64 := by
  obtain ⟨data, first, rest, rfl, hx, hr⟩ := gives_bind h
  obtain ⟨a, rfl, rfl⟩ := request_gives hx
  obtain ⟨rfl, hread⟩ := Attempt.gives_ofExcept.mp hr
  exact ⟨a, by simp, Signature.ofBytes_ok hread⟩

theorem mapM_signature_gives {i : Instruction} {ks : List Nat} {log : Exchanges ε} {l : List Signature}
    (h : (ks.mapM (signature i)).Gives log l) :
    ∃ as, as.length = ks.length ∧
      log = answered (ks.map fun k => command i 0 (Bytes.le16 (UInt16.ofNat k))) as ∧
      l.map (·.val) = as.map (·.data.take 64) := by
  induction ks generalizing log l with
  | nil =>
    rw [List.mapM_nil] at h
    obtain ⟨rfl, rfl⟩ := Attempt.gives_pure.mp h
    exact ⟨[], rfl, rfl, rfl⟩
  | cons k ks ih =>
    rw [List.mapM_cons] at h
    obtain ⟨s, log₁, rest, rfl, hs, hr⟩ := gives_bind h
    obtain ⟨l', log₂, rest, rfl, hl, hp⟩ := gives_bind hr
    obtain ⟨rfl, rfl⟩ := Attempt.gives_pure.mp hp
    obtain ⟨a, rfl, hval⟩ := signature_gives hs
    obtain ⟨as, hlen, rfl, hvals⟩ := ih hl
    refine ⟨a :: as, by simp [hlen], by simp [answered], ?_⟩
    rw [List.map_cons, List.map_cons, hval, hvals]

/-- The commands are those of `fetches`, for the indices from zero on. -/
theorem signatures_gives {i : Instruction} {count : UInt16} {log : Exchanges ε} {l : List Signature}
    (h : (signatures i count).Gives log l) :
    ∃ as, as.length = count.toNat ∧ log = answered (fetches i.code as.length) as ∧
      l.map (·.val) = as.map (·.data.take 64) := by
  obtain ⟨as, hlen, rfl, hl⟩ := mapM_signature_gives h
  rw [List.length_range] at hlen
  refine ⟨as, hlen, ?_, hl⟩
  rw [hlen]
  rfl

/-- The commands that tell metadata, of which there are none without metadata. -/
def metadataFrames (metadata : List String) : List Command :=
  if metadata = [] then [] else frames 0x04 [] ((Metadata.encode metadata).getD [])

/-- The answers of a device that signs, by what they answer. -/
structure SigningAnswers where
  metadata : List Answer
  /-- All the answers to the plan but the last. -/
  plan : List Answer
  approval : Answer
  spendAuths : List Answer
  delegatorVotes : List Answer
  lqtVotes : List Answer

def SigningAnswers.all (a : SigningAnswers) : List Answer :=
  a.metadata ++ (a.plan ++ [a.approval]) ++ a.spendAuths ++ a.delegatorVotes ++ a.lqtVotes

/-- The commands that were sent, each of which has its answer, and the result that was read from these. -/
structure SigningAnswers.Explain (a : SigningAnswers) (path : Path) (blob : Bytes) (metadata : List String)
    (commands : List Command) (r : SignedPlan) : Prop where
  commands : commands = metadataFrames metadata ++ frames 0x02 path.bytes blob ++
    fetches 0x05 a.spendAuths.length ++ fetches 0x06 a.delegatorVotes.length ++ fetches 0x07 a.lqtVotes.length
  encoded : metadata ≠ [] → (Metadata.encode metadata).isSome
  metadata : a.metadata.length = (metadataFrames metadata).length
  plan : a.plan.length + 1 = (frames 0x02 path.bytes blob).length
  enough : 68 ≤ a.approval.data.length
  spendAuthCount : a.spendAuths.length = a.approval.data.countAt 64
  delegatorVoteCount : a.delegatorVotes.length = a.approval.data.countAt 66
  lqtVoteCount : a.lqtVotes.length = if a.approval.data.length < 70 then 0 else a.approval.data.countAt 68
  effectHash : r.effectHash.val = a.approval.data.take 64
  spendAuths : r.spendAuths.map (·.val) = a.spendAuths.map (·.data.take 64)
  delegatorVotes : r.delegatorVotes.map (·.val) = a.delegatorVotes.map (·.data.take 64)
  lqtVotes : r.lqtVotes.map (·.val) = a.lqtVotes.map (·.data.take 64)

@[simp] theorem length_fetches (ins : UInt8) (count : Nat) : (fetches ins count).length = count := by
  simp [fetches]

theorem sign_without_metadata_gives {path : Path} {blob : Bytes} {log : Exchanges ε} {r : SignedPlan}
    (h : (sign path blob []).Gives log r) :
    ∃ a : SigningAnswers, ∃ commands, log = answered commands a.all ∧ a.Explain path blob [] commands r := by
  unfold sign at h
  dsimp only at h
  split at h
  · exact absurd h not_throw_bind_gives
  obtain ⟨data, log₁, rest, rfl, hs, hr⟩ := gives_bind h
  obtain ⟨plan, approval, hplan, rfl, rfl⟩ := sendChunks_gives hs
  obtain ⟨a, read, rest, rfl, ha, hfetches⟩ := gives_bind hr
  obtain ⟨rfl, hread⟩ := Attempt.gives_ofExcept.mp ha
  obtain ⟨s, log₂, rest, rfl, hs, hr⟩ := gives_bind hfetches
  obtain ⟨d, log₃, rest, rfl, hd, hr⟩ := gives_bind hr
  obtain ⟨l, log₄, rest, rfl, hl, hp⟩ := gives_bind hr
  obtain ⟨rfl, rfl⟩ := Attempt.gives_pure.mp hp
  obtain ⟨spends, hslen, rfl, hsval⟩ := signatures_gives hs
  obtain ⟨delegators, hdlen, rfl, hdval⟩ := signatures_gives hd
  obtain ⟨lqts, hllen, rfl, hlval⟩ := signatures_gives hl
  obtain ⟨henough, hhash, hspend, hdelegator, hlqt⟩ := Approval.ofBytes_ok hread
  refine ⟨⟨[], plan, approval, spends, delegators, lqts⟩, _, ?_,
    { commands := rfl, encoded := fun h => absurd rfl h, metadata := rfl, plan := hplan
      enough := henough, effectHash := hhash, spendAuths := hsval, delegatorVotes := hdval, lqtVotes := hlval
      spendAuthCount := hslen.trans hspend
      delegatorVoteCount := hdlen.trans hdelegator
      lqtVoteCount := hllen.trans hlqt }⟩
  have hframes : (frames 0x02 path.bytes blob).length = (plan ++ [approval]).length := by
    rw [List.length_append]
    exact hplan.symm
  simp only [SigningAnswers.all, metadataFrames, if_pos, List.nil_append, List.append_nil]
  rw [answered_append (by simp [hframes]; omega), answered_append (by simp [hframes]; omega),
    answered_append hframes]
  simp only [List.append_assoc]
  rfl

/-- With a plan that is not empty, metadata is told first and is then out of play. -/
theorem sign_of_metadata {path : Path} {blob : Bytes} {metadata : List String} (hb : blob.isEmpty = false)
    (hm : metadata ≠ []) :
    (sign path blob metadata : Link ε SignedPlan) = sendMetadata metadata >>= fun _ => sign path blob [] := by
  simp [sign, hb, hm]

theorem sign_gives {path : Path} {blob : Bytes} {metadata : List String} {log : Exchanges ε} {r : SignedPlan}
    (h : (sign path blob metadata).Gives log r) :
    ∃ a : SigningAnswers, ∃ commands, log = answered commands a.all ∧
      a.Explain path blob metadata commands r := by
  by_cases hm : metadata = []
  · subst hm
    exact sign_without_metadata_gives h
  · have hb : blob.isEmpty = false := by
      cases hb : blob.isEmpty with
      | false => rfl
      | true =>
        simp only [sign, hb] at h
        exact absurd h not_throw_bind_gives
    rw [sign_of_metadata hb hm] at h
    obtain ⟨_, log₁, rest, rfl, ht, hs⟩ := gives_bind h
    obtain ⟨payload, told, hp, htold, rfl⟩ := sendMetadata_gives ht
    obtain ⟨a, commands, rfl, ha⟩ := sign_without_metadata_gives hs
    have hframes : metadataFrames metadata = frames 0x04 [] payload := by simp [metadataFrames, hm, hp]
    have hnone : a.metadata = [] := List.length_eq_zero_iff.mp ha.metadata
    refine ⟨{ a with metadata := told }, frames 0x04 [] payload ++ commands, ?_,
      { ha with commands := ?_, encoded := fun _ => by simp [hp], metadata := by rw [hframes]; exact htold }⟩
    · rw [← answered_append htold.symm]
      simp [SigningAnswers.all, hnone]
    · rw [ha.commands, hframes]
      simp [metadataFrames]

/-- A script that has given these answers has received these commands, and the answers are its next ones. -/
theorem Script.answered_by {cs : List Command} {as : List Answer} {s s' : Script}
    (hlen : cs.length = as.length) (h : Answers Script.reply s (answered cs as) s') :
    s'.sent.reverse = s.sent.reverse ++ cs ∧
      s.answers.map (·.bind Script.read) = as.map .ok ++ s'.answers.map (·.bind Script.read) := by
  induction cs generalizing as s with
  | nil =>
    cases as with
    | nil =>
      cases h
      exact ⟨by simp, rfl⟩
    | cons a as => cases hlen
  | cons c cs ih =>
    cases as with
    | nil => cases hlen
    | cons a as =>
      obtain ⟨hr, ht⟩ := h.head
      obtain ⟨hsent, hread⟩ := ih (Nat.succ.inj hlen) ht
      obtain ⟨answers, sent⟩ := s
      cases answers with
      | nil => cases hr
      | cons answer rest =>
        refine ⟨by rw [hsent]; simp [Script.reply], ?_⟩
        rw [List.map_cons, List.map_cons, List.cons_append, ← hread]
        exact congrArg (· :: _) hr

theorem SigningAnswers.Explain.length_eq {a : SigningAnswers} {path : Path} {blob : Bytes}
    {metadata : List String} {commands : List Command} {r : SignedPlan}
    (h : a.Explain path blob metadata commands r) : commands.length = a.all.length := by
  have := h.metadata
  have := h.plan
  simp only [h.commands, SigningAnswers.all, List.length_append, length_fetches, List.length_singleton]
  omega

/-- A plan that comes back signed was announced, sent and signed in this order, with nothing else between, and
its hash and its signatures are what the device answered. -/
theorem sign_transcript (path : Path) (blob : Bytes) (metadata : List String)
    (answers : List (Except Script.Fault Bytes)) (r : SignedPlan) (s : Script)
    (h : Script.run (sign path blob metadata) ⟨answers, []⟩ = (.ok r, s)) :
    ∃ a : SigningAnswers, a.Explain path blob metadata s.sent.reverse r ∧
      answers.map (·.bind Script.read) = a.all.map .ok ++ s.answers.map (·.bind Script.read) := by
  obtain ⟨log, hgoes, hanswers⟩ := run_goes Script.reply
    (sign path blob metadata : Link Script.Fault SignedPlan).run ⟨answers, []⟩
  unfold Script.run at h
  rw [h] at hgoes hanswers
  obtain ⟨a, commands, rfl, ha⟩ := sign_gives hgoes
  obtain ⟨hsent, hread⟩ := Script.answered_by ha.length_eq hanswers
  rw [List.reverse_nil, List.nil_append] at hsent
  exact ⟨a, hsent ▸ ha, hread⟩

def twoPieceAnswers : List (Except Script.Fault Bytes) :=
  [[], [], [], [], List.replicate 64 1 ++ [1, 0, 0, 0, 1, 0], List.replicate 64 2, List.replicate 65 3].map
    fun data => .ok (data ++ [0x90, 0x00])

theorem sign_transcript_of_two_pieces :
    ∃ r s, Script.run (sign (.forAccount 0) (List.replicate 251 7) ["um"]) ⟨twoPieceAnswers, []⟩ = (.ok r, s) ∧
      ∃ a : SigningAnswers,
        a.Explain (.forAccount 0) (List.replicate 251 7) ["um"] s.sent.reverse r ∧
          twoPieceAnswers.map (·.bind Script.read) = a.all.map .ok ++ s.answers.map (·.bind Script.read) := by
  have hok : (Script.run (sign (.forAccount 0) (List.replicate 251 7) ["um"])
      ⟨twoPieceAnswers, []⟩).1.toBool = true := by decide +kernel
  cases hrun : Script.run (sign (.forAccount 0) (List.replicate 251 7) ["um"]) ⟨twoPieceAnswers, []⟩ with
  | mk v s =>
    rw [hrun] at hok
    cases v with
    | error e => cases hok
    | ok r => exact ⟨r, s, rfl, sign_transcript _ _ _ _ r s hrun⟩

end App

end SignerBench
