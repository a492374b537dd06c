import SignerBench.Proofs.Exchanges
import SignerBench.Proofs.MetadataPayload

namespace SignerBench.App

open Account Apdu

namespace Script

def fetchSteps (ins : UInt8) (count : Nat) : List (Step Fault) :=
  (fetches ins count).map fun c => .lookup c 64 .signature

/-- The steps that the counts in an approval ask for. -/
def signatureSteps (approval : Bytes) : List (Step Fault) :=
  fetchSteps 0x05 (approval.countAt 64) ++ fetchSteps 0x06 (approval.countAt 66) ++
    fetchSteps 0x07 (if approval.length < 70 then 0 else approval.countAt 68)

/-- There are as many signatures of each kind as the approval has counted. -/
structure Counted (approval : Bytes) (p : SignedPlan) : Prop where
  spendAuths : p.spendAuths.length = approval.countAt 64
  delegatorVotes : p.delegatorVotes.length = approval.countAt 66
  lqtVotes : p.lqtVotes.length = if approval.length < 70 then 0 else approval.countAt 68

def planSteps (path : Path) (blob : Bytes) : List (Step Fault) :=
  pieces (frames 0x02 path.bytes blob).dropLast ++
    [.lastPiece ((frames 0x02 path.bytes blob).getLast (frames_ne_nil _ _ _)) 68 .noSignature]

/-- One exchange for each signature, in the order of their numbers. The first that does not bring one ends them all. -/
theorem signatures_follows (i : Instruction) (count : UInt16) (answers : List (Except Fault Bytes)) :
    Follows (signatures i count) answers (fetchSteps i.code count.toNat)
      fun r => ∃ l, r = .ok l ∧ l.length = count.toNat := by
  -- For any numbers, since what is left of a range is no range from 0.
  have hall (ks : List Nat) (answers : List (Except Fault Bytes)) :
      Follows (ks.mapM (signature i)) answers
        (ks.map fun k => .lookup (command i 0 (Bytes.le16 (UInt16.ofNat k))) 64 .signature)
        fun r => ∃ l, r = .ok l ∧ l.length = ks.length := by
    induction ks generalizing answers with
    | nil =>
      rw [List.mapM_nil]
      exact .pure ⟨[], rfl, rfl⟩
    | cons k ks ih =>
      rw [List.mapM_cons]
      refine (lookup_follows _ answers Signature.guarded).bind ?_
      rintro _ ⟨s, _, rfl⟩
      refine ⟨s, rfl, (ih _).bind_pure ?_⟩
      rintro _ ⟨l, rfl, hlen⟩
      exact ⟨l, rfl, s :: l, rfl, by rw [List.length_cons, List.length_cons, hlen]⟩
  have hsteps : fetchSteps i.code count.toNat =
      (List.range count.toNat).map fun k => .lookup (command i 0 (Bytes.le16 (UInt16.ofNat k))) 64 .signature := by
    rw [fetchSteps, fetches, List.map_map]
    rfl
  have hrange := hall (List.range count.toNat) answers
  rw [List.length_range] at hrange
  rw [hsteps]
  exact hrange

theorem map_command_pieces (cs : List Command) : (pieces cs).map Step.command = cs := by
  rw [pieces, List.map_map]
  exact List.map_id cs

theorem planSteps_commands (path : Path) (blob : Bytes) :
    (planSteps path blob).map Step.command = frames 0x02 path.bytes blob := by
  rw [planSteps, List.map_append, map_command_pieces]
  exact List.dropLast_concat_getLast _

def planEnd (path : Path) (blob : Bytes) : Nat := (frames 0x02 path.bytes blob).length - 1

/-- The answer to the last piece of a plan is the one that is read. The answers to the others are looked at for their
status only. -/
theorem sendPlan_follows {path : Path} {blob : Bytes} (nonempty : blob ≠ []) (fits : blob.length ≤ maxPayload)
    (answers : List (Except Fault Bytes)) :
    Follows (sendChunks .sign path.bytes blob >>= fun d => Attempt.ofExcept (Approval.ofBytes d)) answers
      (planSteps path blob)
      fun r => ∃ a, (Approval.ofBytes (dataAt answers (planEnd path blob)) : Except (Error Fault) Approval) = .ok a ∧
        r = .ok a := by
  have hsend : Follows (sendChunks .sign path.bytes blob) answers (pieces (frames 0x02 path.bytes blob)) _ :=
    sendChunks_follows nonempty fits answers
  have hpieces : pieces (frames 0x02 path.bytes blob) =
      pieces (frames 0x02 path.bytes blob).dropLast ++
        [.piece ((frames 0x02 path.bytes blob).getLast (frames_ne_nil _ _ _))] := by
    rw [pieces, pieces, ← List.map_singleton, ← List.map_append, List.dropLast_concat_getLast]
  have hlast : (pieces (frames 0x02 path.bytes blob).dropLast).length = planEnd path blob := by
    rw [pieces, List.length_map, List.length_dropLast, planEnd]
  rw [hpieces] at hsend
  have hend : Follows (sendChunks .sign path.bytes blob >>= fun d => Attempt.ofExcept (Approval.ofBytes d)) answers
      (planSteps path blob) _ :=
    Follows.demand (by rw [hlast]; exact hsend) rfl Approval.guarded
  rw [hlast] at hend
  exact hend

/-- Signing without metadata: the plan is sent, and then the signatures are fetched that its approval counts. -/
theorem signPlan_follows (path : Path) {blob : Bytes} (nonempty : blob ≠ []) (fits : blob.length ≤ maxPayload)
    (answers : List (Except Fault Bytes)) :
    Follows (sign path blob []) answers
      (planSteps path blob ++ signatureSteps (dataAt answers (planEnd path blob)))
      fun r => ∃ p, r = .ok p ∧ Counted (dataAt answers (planEnd path blob)) p := by
  have hblob : blob.isEmpty = false := by
    rw [List.isEmpty_eq_false_iff]
    exact nonempty
  have heq : (sign path blob [] : Link Fault SignedPlan) =
      (sendChunks .sign path.bytes blob >>= fun d => Attempt.ofExcept (Approval.ofBytes d)) >>= fun a => do
        let spendAuths ← signatures .spendAuth a.spendAuth
        let delegatorVotes ← signatures .delegatorVote a.delegatorVote
        let lqtVotes ← signatures .lqtVote a.lqtVote
        return ⟨a.effectHash, spendAuths, delegatorVotes, lqtVotes⟩ := by
    rw [bind_assoc]
    unfold sign
    simp only [hblob, List.isEmpty_nil, if_true, Bool.false_eq_true, if_false]
  rw [heq]
  refine (sendPlan_follows nonempty fits answers).bind ?_
  rintro _ ⟨a, happroval, rfl⟩
  obtain ⟨_, _, hspends, hvotes, hlqts⟩ := Approval.ofBytes_ok happroval
  rw [signatureSteps, ← hspends, ← hvotes, ← hlqts, List.append_assoc]
  refine ⟨_, rfl, (signatures_follows .spendAuth a.spendAuth _).bind ?_⟩
  rintro _ ⟨spends, rfl, hs⟩
  refine ⟨_, rfl, (signatures_follows .delegatorVote a.delegatorVote _).bind ?_⟩
  rintro _ ⟨votes, rfl, hv⟩
  refine ⟨_, rfl, (signatures_follows .lqtVote a.lqtVote _).bind_pure ?_⟩
  rintro _ ⟨lqts, rfl, hl⟩
  exact ⟨lqts, rfl, _, rfl, hs.trans hspends, hv.trans hvotes, hl.trans hlqts⟩

def tellSteps (metadata : List String) : List (Step Fault) :=
  match Metadata.encode metadata with
  | some payload => pieces (frames 0x04 [] payload)
  | none => []

/-- Metadata that can be packed is never too large for its pieces. -/
theorem tell_follows {metadata : List String} {payload : Bytes} (h : Metadata.encode metadata = some payload)
    (answers : List (Except Fault Bytes)) :
    Follows (sendMetadata metadata) answers (tellSteps metadata) fun r => r = .ok () := by
  have hfits : payload.length ≤ maxPayload := Nat.le_trans (Metadata.length_pack_le h) (by decide)
  have heq : (sendMetadata metadata : Link Fault Unit) = sendChunks .metadata [] payload >>= fun _ => return () := by
    rw [sendMetadata, h]
    exact Attempt.map_eq_bind
  rw [heq, tellSteps, h]
  refine (sendChunks_follows (Metadata.ne_nil_of_encode h) hfits answers).bind_pure ?_
  rintro _ ⟨a, _, rfl⟩
  exact ⟨_, rfl, rfl⟩

end Script

inductive Call where
  | fullViewingKey (path : Path) (index : AddressIndex)
  | address (path : Path) (index : AddressIndex)
  | showAddress (path : Path) (index : AddressIndex)
  | sendMetadata (metadata : List String)
  | sign (path : Path) (blob : Bytes) (metadata : List String)

namespace Call

open Script

abbrev Result : Call → Type
  | .fullViewingKey _ _ => FullViewingKey
  | .address _ _ => Address
  | .showAddress _ _ => Address
  | .sendMetadata _ => Unit
  | .sign _ _ _ => SignedPlan

def link {ε : Type} : (c : Call) → Link ε c.Result
  | .fullViewingKey path index => App.fullViewingKey path index
  | .address path index => App.address path index
  | .showAddress path index => App.showAddress path index
  | .sendMetadata metadata => App.sendMetadata metadata
  | .sign path blob metadata => App.sign path blob metadata

def told (metadata : List String) : List (Step Fault) := if metadata = [] then [] else tellSteps metadata

def approval (path : Path) (blob : Bytes) (metadata : List String) (answers : List (Except Fault Bytes)) : Bytes :=
  dataAt answers ((told metadata).length + planEnd path blob)

/-- There is metadata, and it cannot be told. -/
def Untold (metadata : List String) : Prop := metadata ≠ [] ∧ Metadata.encode metadata = none

instance (metadata : List String) : Decidable (Untold metadata) := inferInstanceAs (Decidable (_ ∧ _))

/-- What is not untold can be packed. -/
theorem encode_of_told {metadata : List String} (can : ¬ Untold metadata) (nonempty : metadata ≠ []) :
    ∃ payload, Metadata.encode metadata = some payload :=
  Option.ne_none_iff_exists'.mp fun hnone => can ⟨nonempty, hnone⟩

/-- The steps of a call with these answers. Only the fetching of signatures hangs on an answer. -/
def steps (answers : List (Except Fault Bytes)) : Call → List (Step Fault)
  | .fullViewingKey path index => [.lookup ⟨0x80, 0x03, 0, 0, path.bytes ++ index.bytes⟩ 64 .publicKey]
  | .address path index => [.lookup ⟨0x80, 0x01, 0, 0, path.bytes ++ index.bytes⟩ 80 .publicKey]
  | .showAddress path index => [.lookup ⟨0x80, 0x01, 1, 0, path.bytes ++ index.bytes⟩ 80 .publicKey]
  | .sendMetadata metadata => tellSteps metadata
  | .sign path blob metadata =>
    if blob = [] ∨ Untold metadata then []
    else if maxPayload < blob.length then told metadata
    else told metadata ++ (planSteps path blob ++ signatureSteps (approval path blob metadata answers))

/-- How a call ends when all its steps are done. What the client refuses by itself it refuses behind these steps. -/
def Ends (answers : List (Except Fault Bytes)) : (c : Call) → Except (Error Fault) c.Result → Prop
  | .fullViewingKey _ _, r => ∃ k, r = .ok k
  | .address _ _, r => ∃ a, r = .ok a
  | .showAddress _ _, r => ∃ a, r = .ok a
  | .sendMetadata metadata, r => r = if (Metadata.encode metadata).isSome then .ok () else .error .messageSize
  | .sign path blob metadata, r =>
    if blob = [] then r = .error .emptyMessage
    else if Untold metadata ∨ maxPayload < blob.length then r = .error .messageSize
    else ∃ p, r = .ok p ∧ Counted (approval path blob metadata answers) p

/-- Without metadata nothing is sent for it. -/
theorem told_follows {metadata : List String} (can : ¬ Untold metadata) (answers : List (Except Fault Bytes)) :
    Follows (if metadata = [] then pure () else App.sendMetadata metadata) answers (told metadata)
      fun r => r = .ok () := by
  unfold told
  split
  case isTrue => exact .pure rfl
  case isFalse nonempty =>
    obtain ⟨payload, hpayload⟩ := encode_of_told can nonempty
    exact tell_follows hpayload answers

/-- Signing with metadata is telling the metadata and then signing without any. -/
theorem sign_eq {path : Path} {blob : Bytes} {metadata : List String} (nonempty : blob ≠ []) :
    (App.sign path blob metadata : Link Fault SignedPlan) =
      (if metadata = [] then pure () else App.sendMetadata metadata) >>= fun _ => App.sign path blob [] := by
  split
  case isTrue h =>
    rw [h]
    rfl
  case isFalse h => exact sign_of_metadata (List.isEmpty_eq_false_iff.mpr nonempty) h

theorem addressOf_follows (shown : Bool) (path : Path) (index : AddressIndex) (answers : List (Except Fault Bytes)) :
    Follows (addressOf shown path index) answers
      [.lookup ⟨0x80, 0x01, if shown then 1 else 0, 0, path.bytes ++ index.bytes⟩ 80 .publicKey]
      fun r => ∃ a, r = .ok a := by
  refine (lookup_follows _ answers Address.guarded).imp ?_
  rintro _ ⟨a, _, rfl⟩
  exact ⟨a, rfl⟩

theorem fullViewingKey_follows (path : Path) (index : AddressIndex) (answers : List (Except Fault Bytes)) :
    Follows (App.fullViewingKey path index) answers
      [.lookup ⟨0x80, 0x03, 0, 0, path.bytes ++ index.bytes⟩ 64 .publicKey] fun r => ∃ k, r = .ok k := by
  refine (lookup_follows _ answers FullViewingKey.guarded).imp ?_
  rintro _ ⟨k, _, rfl⟩
  exact ⟨k, rfl⟩

/-- An empty plan, or metadata that cannot be packed, is refused before anything is sent. -/
theorem sign_refused {path : Path} {blob : Bytes} {metadata : List String} (h : blob = [] ∨ Untold metadata) :
    (App.sign path blob metadata : Link Fault SignedPlan) =
      MonadExcept.throw (if blob = [] then .emptyMessage else .messageSize) := by
  by_cases empty : blob = []
  · rw [if_pos empty, empty]
    rfl
  · obtain ⟨nonempty, hnone⟩ := h.resolve_left empty
    rw [if_neg empty, sign_eq empty, if_neg nonempty, App.sendMetadata, hnone]
    rfl

/-- A plan that is too large is refused only when its turn comes, which is behind the metadata. -/
theorem sign_large {path : Path} {blob : Bytes} (h : maxPayload < blob.length) :
    (App.sign path blob [] : Link Fault SignedPlan) = MonadExcept.throw .messageSize := by
  have hblob : blob.isEmpty = false := by
    cases blob with
    | nil => exact absurd h (Nat.not_lt_zero _)
    | cons => rfl
  simp only [App.sign, hblob, Bool.false_eq_true, if_false, List.isEmpty_nil, if_true, sendChunks_large h]
  rfl

/-- Four cases: refused at once, refused behind the metadata, and sent with metadata or without. -/
theorem sign_follows (path : Path) (blob : Bytes) (metadata : List String) (answers : List (Except Fault Bytes)) :
    Follows (App.sign path blob metadata) answers ((Call.sign path blob metadata).steps answers)
      ((Call.sign path blob metadata).Ends answers) := by
  -- Some is refused before anything is sent, and a blob that is too large only behind its metadata.
  by_cases refused : blob = [] ∨ Untold metadata
  · rw [sign_refused refused, steps, if_pos refused]
    refine .throw ?_
    by_cases empty : blob = []
    · simp [Ends, empty]
    · simp [Ends, empty, refused.resolve_left empty]
  obtain ⟨nonempty, can⟩ := not_or.mp refused
  have htold := told_follows can answers
  rw [sign_eq nonempty, steps, if_neg refused]
  by_cases large : maxPayload < blob.length
  · rw [if_pos large, ← List.append_nil (told metadata)]
    refine htold.bind ?_
    rintro _ rfl
    refine ⟨(), rfl, ?_⟩
    rw [sign_large large]
    exact .throw (by simp [Ends, nonempty, large])
  · rw [if_neg large]
    refine htold.bind ?_
    rintro _ rfl
    have hsign := signPlan_follows path nonempty (Nat.not_lt.mp large) (answers.drop (told metadata).length)
    rw [dataAt_drop] at hsign
    refine ⟨(), rfl, hsign.imp fun r ended => ?_⟩
    simpa [Ends, nonempty, can, large, approval] using ended

/-- Every call is a row of exchanges, with any answers. -/
theorem follows (c : Call) (answers : List (Except Fault Bytes)) :
    Follows c.link answers (c.steps answers) (c.Ends answers) := by
  cases c with
  | fullViewingKey path index => exact fullViewingKey_follows path index answers
  | address path index => exact addressOf_follows false path index answers
  | showAddress path index => exact addressOf_follows true path index answers
  | sign path blob metadata => exact sign_follows path blob metadata answers
  | sendMetadata metadata =>
    cases h : Metadata.encode metadata with
    | some payload =>
      refine (tell_follows h answers).imp ?_
      rintro _ rfl
      exact .symm (if_pos (by rw [h]; rfl))
    | none =>
      have hthrow : (Call.sendMetadata metadata).link = (MonadExcept.throw .messageSize : Link Fault Unit) := by
        rw [link, App.sendMetadata, h]
      have hsteps : (Call.sendMetadata metadata).steps answers = [] := by rw [steps, tellSteps, h]
      rw [hthrow, hsteps]
      exact .throw (by rw [Ends, h]; rfl)

/-- What a call gives, and what it has taken and sent, after as many of its steps as it comes through. -/
theorem run_eq (c : Call) (answers : List (Except Fault Bytes)) :
    ∃ r n, Course (c.steps answers) answers (c.Ends answers) r n ∧
      Script.run c.link ⟨answers, []⟩ =
        (r, ⟨answers.drop n, (((c.steps answers).take n).map Step.command).reverse⟩) := by
  obtain ⟨r, n, course, hrun⟩ := follows c answers []
  rw [behind, List.append_nil] at hrun
  exact ⟨r, n, course, hrun⟩

/-- The step that fails was sent, and its answer taken. Nothing else is sent or taken behind it. -/
theorem run_of_stopsAt {c : Call} {answers : List (Except Fault Bytes)} {k : Nat} {e : Error Fault}
    (stops : StopsAt (c.steps answers) answers k e) : Script.run c.link ⟨answers, []⟩ =
      (.error e, ⟨answers.drop (k + 1), (((c.steps answers).take (k + 1)).map Step.command).reverse⟩) := by
  obtain ⟨r, n, course, hrun⟩ := run_eq c answers
  rw [hrun]
  cases course with
  | through passes => exact absurd passes stops.not_passes
  | stopped stops' =>
    obtain ⟨rfl, rfl⟩ := stops.unique stops'
    rfl

def Carries (c : Command) : Prop := c.ins = 0x02 ∨ c.ins = 0x04

instance (c : Command) : Decidable (Carries c) := inferInstanceAs (Decidable (_ ∨ _))

/-- What a step of a call can be. -/
inductive Part : Step Fault → Prop where
  | lookup {cmd : Command} (other : ¬ Carries cmd) (few : cmd.data.length ≤ 255) (n : Nat) {short : Error Fault}
    (whole : short ≠ .cutShort) : Part (.lookup cmd n short)
  | piece {cmd : Command} (carries : Carries cmd) (few : cmd.data.length ≤ 255) : Part (.piece cmd)
  | lastPiece {cmd : Command} (carries : Carries cmd) (few : cmd.data.length ≤ 255) (n : Nat) {short : Error Fault}
    (whole : short ≠ .cutShort) : Part (.lastPiece cmd n short)

section

variable {s : Step Fault} {ins : UInt8} {metadata : List String}

theorem part_of_mem_pieces {head payload : Bytes} (carries : ins = 0x02 ∨ ins = 0x04) (few : head.length ≤ 255)
    (h : s ∈ pieces (frames ins head payload)) : Part s := by
  obtain ⟨cmd, hc, rfl⟩ := List.mem_map.mp h
  refine .piece ?_ (length_data_frames few hc)
  rw [Carries, ins_of_mem_frames hc]
  exact carries

theorem part_of_mem_fetchSteps {count : Nat} (other : ¬ (ins = 0x02 ∨ ins = 0x04)) (h : s ∈ fetchSteps ins count) :
    Part s := by
  obtain ⟨_, hc, rfl⟩ := List.mem_map.mp h
  obtain ⟨_, _, rfl⟩ := List.mem_map.mp hc
  refine .lookup ?_ (by simp) _ fun h => nomatch h
  exact other

theorem part_of_mem_tellSteps (h : s ∈ tellSteps metadata) : Part s := by
  unfold tellSteps at h
  split at h
  · exact part_of_mem_pieces (.inr rfl) (Nat.zero_le _) h
  · cases h

theorem part_of_mem_told (h : s ∈ told metadata) : Part s := by
  unfold told at h
  split at h
  · cases h
  · exact part_of_mem_tellSteps h

theorem part_of_mem_planSteps {path : Path} {blob : Bytes} (h : s ∈ planSteps path blob) : Part s := by
  have hpath : path.bytes.length ≤ 255 := by simp
  rcases List.mem_append.mp h with h | h
  · exact part_of_mem_pieces (.inl rfl) hpath (List.map_subset _ (List.dropLast_subset _) h)
  · obtain rfl := List.mem_singleton.mp h
    have hlast := List.getLast_mem (frames_ne_nil 0x02 path.bytes blob)
    exact .lastPiece (.inl (ins_of_mem_frames hlast)) (length_data_frames hpath hlast) _ fun h => nomatch h

theorem part_of_mem_signatureSteps {approval : Bytes} (h : s ∈ signatureSteps approval) : Part s := by
  simp only [signatureSteps, List.mem_append] at h
  obtain (h | h) | h := h
  all_goals exact part_of_mem_fetchSteps (by decide) h

/-- The steps of all calls are of three kinds, which the proofs about single steps go through. -/
theorem part_of_mem {c : Call} {answers : List (Except Fault Bytes)} (h : s ∈ c.steps answers) : Part s := by
  cases c with
  | fullViewingKey path index =>
    obtain rfl := List.mem_singleton.mp h
    exact .lookup (of_decide_eq_false rfl) (by simp) _ fun h => nomatch h
  | address path index =>
    obtain rfl := List.mem_singleton.mp h
    exact .lookup (of_decide_eq_false rfl) (by simp) _ fun h => nomatch h
  | showAddress path index =>
    obtain rfl := List.mem_singleton.mp h
    exact .lookup (of_decide_eq_false rfl) (by simp) _ fun h => nomatch h
  | sendMetadata metadata => exact part_of_mem_tellSteps h
  | sign path blob metadata =>
    rw [steps] at h
    split at h
    · cases h
    split at h
    · exact part_of_mem_told h
    simp only [List.mem_append] at h
    obtain h | h | h := h
    · exact part_of_mem_told h
    · exact part_of_mem_planSteps h
    · exact part_of_mem_signatureSteps h

theorem Part.proper (part : Part s) : s.Proper := by
  cases part with
  | lookup _ few _ whole => exact Step.proper_lookup few whole
  | piece _ few => exact Step.proper_piece few
  | lastPiece _ few _ whole => exact Step.proper_lastPiece few whole

end

/-- So no step of a call can fail with `cutShort`. -/
theorem proper_of_mem {c : Call} {answers : List (Except Fault Bytes)} {s : Step Fault} (h : s ∈ c.steps answers) :
    s.Proper := (part_of_mem h).proper

/-- Nor does a call end with it when all its steps are done. -/
theorem Ends.ne_cutShort {c : Call} {answers : List (Except Fault Bytes)} {r : Except (Error Fault) c.Result}
    (h : c.Ends answers r) : r ≠ .error .cutShort := by
  cases c with
  | fullViewingKey | address | showAddress =>
    obtain ⟨_, rfl⟩ := h
    exact fun h => nomatch h
  | sendMetadata =>
    rw [Ends] at h
    split at h <;> subst h <;> exact fun h => nomatch h
  | sign =>
    rw [Ends] at h
    split at h
    · subst h
      exact fun h => nomatch h
    split at h
    · subst h
      exact fun h => nomatch h
    · obtain ⟨_, rfl, _⟩ := h
      exact fun h => nomatch h

/-- Where a step of a call fails, the call fails with the error of that step, and nothing is sent or taken behind it.
Where none fails, all steps got what they need, and the call ends as it is to end then. Whatever the answers are, no
slice is taken that an answer does not have: that would end the call with `cutShort`. -/
theorem stops_at_first_failure (c : Call) (answers : List (Except Fault Bytes)) :
    (∀ k e, StopsAt (c.steps answers) answers k e →
      Script.run c.link ⟨answers, []⟩ =
        (.error e, ⟨answers.drop (k + 1), (((c.steps answers).take (k + 1)).map Step.command).reverse⟩)) ∧
    ((∀ k e, ¬ StopsAt (c.steps answers) answers k e) → Passes (c.steps answers) answers ∧
      ∃ r, c.Ends answers r ∧ Script.run c.link ⟨answers, []⟩ =
        (r, ⟨answers.drop (c.steps answers).length, ((c.steps answers).map Step.command).reverse⟩)) ∧
    (Script.run c.link ⟨answers, []⟩).1 ≠ .error .cutShort := by
  obtain ⟨r, n, course, hrun⟩ := run_eq c answers
  rw [hrun]
  cases course with
  | stopped stops =>
    refine ⟨fun k e stops' => ?_, fun none => absurd stops (none _ _), ?_⟩
    · obtain ⟨rfl, rfl⟩ := stops.unique stops'
      rfl
    · obtain ⟨s, hs, fails⟩ := stops.here
      have hne := fails.ne_cutShort (proper_of_mem (List.mem_of_getElem? hs))
      exact fun h => hne (Except.error.inj h)
  | through passes ended =>
    refine ⟨fun k e stops => absurd passes stops.not_passes, fun _ => ⟨passes, r, ended, ?_⟩, Ends.ne_cutShort ended⟩
    rw [List.take_length]

def shortSignatureAnswers : List (Except Fault Bytes) :=
  [[], List.replicate 64 1 ++ [1, 0, 0, 0], List.replicate 63 2].map fun data => .ok (data ++ [0x90, 0x00])

/-- The signature that has a byte too few is the third exchange, and the last. -/
theorem stops_at_short_signature :
    StopsAt ((Call.sign (.forAccount 0) [1] []).steps shortSignatureAnswers) shortSignatureAnswers 2 .signature ∧
      Script.run (Call.sign (.forAccount 0) [1] []).link ⟨shortSignatureAnswers, []⟩ =
        (.error .signature, ⟨[], [⟨0x80, 0x05, 0, 0, [0, 0]⟩, ⟨0x80, 0x02, 2, 0, [1]⟩,
          ⟨0x80, 0x02, 0, 0, (Path.forAccount 0).bytes⟩]⟩) := by
  have hsteps : (Call.sign (.forAccount 0) [1] []).steps shortSignatureAnswers =
      [.piece ⟨0x80, 0x02, 0, 0, (Path.forAccount 0).bytes⟩] ++ [.lastPiece ⟨0x80, 0x02, 2, 0, [1]⟩ 68 .noSignature] ++
        [.lookup ⟨0x80, 0x05, 0, 0, [0, 0]⟩ 64 .signature] := by
    rfl
  have hannounced : Passes [.piece ⟨0x80, 0x02, 0, 0, (Path.forAccount 0).bytes⟩] shortSignatureAnswers :=
    passes_single ⟨rfl, rfl, fun _ _ h => nomatch h⟩
  have hsent : Passes [.lastPiece ⟨0x80, 0x02, 2, 0, [1]⟩ 68 .noSignature] (shortSignatureAnswers.drop 1) := by
    refine passes_single ⟨rfl, rfl, ?_⟩
    rintro _ _ ⟨⟩
    decide
  have hshort : StopsAt [.lookup ⟨0x80, 0x05, 0, 0, [0, 0]⟩ 64 .signature] (shortSignatureAnswers.drop 2) 0
      .signature :=
    stopsAt_single (.short (a := ⟨List.replicate 63 2, Status.ok⟩) rfl rfl (by decide))
  have hstops : StopsAt ((Call.sign (.forAccount 0) [1] []).steps shortSignatureAnswers) shortSignatureAnswers 2
      .signature := by
    rw [hsteps]
    exact hshort.behind (passes_append.mpr ⟨hannounced, hsent⟩)
  refine ⟨hstops, ((stops_at_first_failure _ _).1 _ _ hstops).trans ?_⟩
  rw [hsteps]
  rfl

end Call

end SignerBench.App
