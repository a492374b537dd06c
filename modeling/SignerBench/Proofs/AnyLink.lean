import SignerBench.Proofs.Calls

namespace SignerBench.App

open Apdu

variable {ε ε' α β : Type}

def Error.map (f : ε → ε') : Error ε → Error ε'
  | .transport cause => .transport (f cause)
  | .refused status description => .refused status description
  | .unknownStatus status => .unknownStatus status
  | .emptyMessage => .emptyMessage
  | .messageSize => .messageSize
  | .publicKey => .publicKey
  | .noSignature => .noSignature
  | .signature => .signature
  | .version => .version
  | .format => .format
  | .text => .text
  | .cutShort => .cutShort

def passOn (r : Except (Error Empty) α) : Link ε α := Attempt.ofExcept (r.mapError (Error.map Empty.elim))

/-- The same request over two links. It sends the same commands, and goes on in the same way behind the same answers. -/
inductive Alike : Link ε α → Link ε' α → Prop where
  | result (r : Except (Error Empty) α) : Alike (passOn r) (passOn r)
  | exchange (c : Command) {next : Answer → Link ε α} {next' : Answer → Link ε' α}
    (alike : ∀ a, Alike (next a) (next' a)) : Alike (exchange c >>= next) (exchange c >>= next')

section

variable {x : Link ε α} {x' : Link ε' α}

theorem alike_pure (a : α) : Alike (pure a : Link ε α) (pure a : Link ε' α) := .result (.ok a)

theorem alike_throw (e : Error Empty) : Alike (passOn (.error e) : Link ε α) (passOn (.error e) : Link ε' α) :=
  .result (.error e)

/-- What follows may depend on the answers, which are the same over both links. -/
theorem Alike.bind {f : α → Link ε β} {f' : α → Link ε' β} (alike : Alike x x') (next : ∀ a, Alike (f a) (f' a)) :
    Alike (x >>= f) (x' >>= f') := by
  induction alike with
  | result r =>
    cases r with
    | ok a => exact next a
    | error e => exact alike_throw e
  | exchange c _ ih =>
    rw [bind_assoc, bind_assoc]
    exact .exchange c ih

theorem Alike.discard (alike : Alike x x') : Alike (discard x) (discard x') := by
  have heq {ε : Type} (y : Link ε α) : (Functor.discard y : Link ε Unit) = y >>= fun _ => pure () :=
    Attempt.map_eq_bind
  rw [heq, heq]
  exact alike.bind fun _ => alike_pure ()

theorem flat_exchange (c : Command) : (exchange c : Link ε Answer).Flat := by
  apply Attempt.flat_query.bind
  intro reply
  cases reply with
  | ok => exact Attempt.flat_pure
  | error => exact Attempt.flat_throw

/-- A request has no loops. -/
theorem Alike.flat (alike : Alike x x') : x'.Flat := by
  induction alike with
  | result r => exact Attempt.flat_ofExcept
  | exchange c _ ih => exact (flat_exchange c).bind ih

theorem alike_exchange (c : Command) : Alike (exchange c : Link ε Answer) (exchange c : Link ε' Answer) := by
  rw [← bind_pure (exchange c : Link ε Answer), ← bind_pure (exchange c : Link ε' Answer)]
  exact .exchange c alike_pure

end

/-- A status is told in the same way over both links, since no link has errors of its own for it. -/
theorem alike_checkStatus {unknown : UInt16 → Error ε} {unknown' : UInt16 → Error ε'} (told : UInt16 → Error Empty)
    (h : ∀ s, unknown s = (told s).map Empty.elim) (h' : ∀ s, unknown' s = (told s).map Empty.elim) (a : Answer) :
    Alike (checkStatus unknown a) (checkStatus unknown' a) := by
  by_cases good : a.status = Status.ok
  · rw [checkStatus_good good, checkStatus_good good]
    exact alike_pure ()
  · rw [checkStatus, checkStatus, if_neg good, if_neg good]
    cases Status.description? a.status with
    | some description => exact alike_throw (.refused a.status description)
    | none =>
      dsimp only
      rw [h, h']
      exact alike_throw (told a.status)

/-- A single command and what is made of the status of its answer. -/
theorem alike_request (c : Command) : Alike (request c : Link ε Bytes) (request c : Link ε' Bytes) := by
  apply (alike_exchange c).bind
  intro a
  apply (alike_checkStatus refusedUnknown (fun _ => rfl) (fun _ => rfl) a).bind
  intro _
  exact alike_pure a.data

theorem alike_exchangeAll (last : Answer) (cs : List Command) :
    Alike (exchangeAll last cs : Link ε Answer) (exchangeAll last cs : Link ε' Answer) := by
  induction cs generalizing last with
  | nil => exact alike_pure last
  | cons c cs ih =>
    apply (alike_exchange c).bind
    intro a
    apply (alike_checkStatus .unknownStatus (fun _ => rfl) (fun _ => rfl) a).bind
    intro _
    exact ih a

/-- The pieces of a payload are the same over any link, and so is the error that there are too many of them. -/
theorem alike_sendChunks (i : Instruction) (head payload : Bytes) :
    Alike (sendChunks i head payload : Link ε Bytes) (sendChunks i head payload : Link ε' Bytes) := by
  unfold sendChunks
  dsimp only
  split
  · exact alike_throw .emptyMessage
  split
  · exact alike_throw .messageSize
  apply (alike_exchange _).bind
  intro a
  apply (alike_checkStatus .unknownStatus (fun _ => rfl) (fun _ => rfl) a).bind
  intro _
  apply (alike_exchangeAll a _).bind
  intro last
  exact alike_pure last.data

/-- What is read from the same data is the same. -/
theorem alike_read (read : (ε : Type) → Bytes → Except (Error ε) α) {need : Nat} (told : Error Empty) (data : Bytes)
    (few : ∀ ε, data.length < need → read ε data = .error (told.map Empty.elim))
    (enough : need ≤ data.length → ∃ a, ∀ ε, read ε data = .ok a) :
    Alike (Attempt.ofExcept (read ε data) : Link ε α) (Attempt.ofExcept (read ε' data) : Link ε' α) := by
  rcases Nat.lt_or_ge data.length need with short | whole
  · rw [few ε short, few ε' short]
    exact alike_throw told
  · obtain ⟨a, ha⟩ := enough whole
    rw [ha ε, ha ε']
    exact alike_pure a

/-- The look at the length comes before the slices, so the link has no part in what is read. -/
theorem alike_fullViewingKey (path : Account.Path) (index : Account.AddressIndex) :
    Alike (fullViewingKey path index : Link ε FullViewingKey) (fullViewingKey path index : Link ε' FullViewingKey) := by
  apply (alike_request _).bind
  intro data
  exact alike_read (fun _ => FullViewingKey.ofBytes) .publicKey data (fun _ => FullViewingKey.ofBytes_few) fun enough =>
    ⟨_, fun _ => FullViewingKey.ofBytes_enough enough⟩

theorem alike_addressOf (shown : Bool) (path : Account.Path) (index : Account.AddressIndex) :
    Alike (addressOf shown path index : Link ε Address) (addressOf shown path index : Link ε' Address) := by
  apply (alike_request _).bind
  intro data
  exact alike_read (fun _ => Address.ofBytes) .publicKey data (fun _ => Address.ofBytes_few) fun enough =>
    ⟨_, fun _ => Address.ofBytes_enough enough⟩

theorem alike_sendMetadata (metadata : List String) :
    Alike (sendMetadata metadata : Link ε Unit) (sendMetadata metadata : Link ε' Unit) := by
  unfold sendMetadata
  split
  · exact alike_throw .messageSize
  · exact (alike_sendChunks _ _ _).discard

theorem alike_signature (i : Instruction) (index : Nat) :
    Alike (signature i index : Link ε Signature) (signature i index : Link ε' Signature) := by
  apply (alike_request _).bind
  intro data
  exact alike_read (fun _ => Signature.ofBytes) .signature data (fun _ => Signature.ofBytes_few) fun enough =>
    ⟨_, fun _ => Signature.ofBytes_enough enough⟩

/-- As many signatures are asked for as were counted, whatever the link. -/
theorem alike_signatures (i : Instruction) (count : UInt16) :
    Alike (signatures i count : Link ε (List Signature)) (signatures i count : Link ε' (List Signature)) := by
  have hall (ks : List Nat) : Alike (ks.mapM (signature i) : Link ε (List Signature)) (ks.mapM (signature i)
      : Link ε' (List Signature)) := by
    induction ks with
    | nil =>
      rw [List.mapM_nil, List.mapM_nil]
      exact alike_pure []
    | cons k ks ih =>
      rw [List.mapM_cons, List.mapM_cons]
      apply (alike_signature i k).bind
      intro s
      apply ih.bind
      intro rest
      exact alike_pure (s :: rest)
  exact hall _

/-- Signing asks for the metadata, the plan, and the signatures that its approval counts. None of it hangs on the link.
-/
theorem alike_sign (path : Account.Path) (blob : Bytes) (metadata : List String) :
    Alike (sign path blob metadata : Link ε SignedPlan) (sign path blob metadata : Link ε' SignedPlan) := by
  have hplan : Alike (sign path blob [] : Link ε SignedPlan) (sign path blob [] : Link ε' SignedPlan) := by
    unfold sign
    simp only [List.isEmpty_nil, if_true]
    split
    · exact alike_throw .emptyMessage
    apply (alike_sendChunks _ _ _).bind
    intro data
    apply (alike_read (fun _ => Approval.ofBytes) .noSignature data (fun _ => Approval.ofBytes_few) fun enough =>
      ⟨_, fun _ => Approval.ofBytes_enough enough⟩).bind
    intro approval
    apply (alike_signatures _ _).bind
    intro spendAuths
    apply (alike_signatures _ _).bind
    intro delegatorVotes
    apply (alike_signatures _ _).bind
    intro lqtVotes
    exact alike_pure _
  by_cases silent : metadata = []
  · rw [silent]
    exact hplan
  cases nonempty : blob.isEmpty with
  | true =>
    rw [List.isEmpty_iff.mp nonempty]
    exact alike_throw .emptyMessage
  | false =>
    rw [sign_of_metadata nonempty silent, sign_of_metadata nonempty silent]
    exact (alike_sendMetadata metadata).bind fun _ => hplan

/-- A call does the same over any link. -/
theorem Call.alike_link (c : Call) : Alike (c.link : Link ε c.Result) (c.link : Link ε' c.Result) := by
  cases c with
  | fullViewingKey path index => exact alike_fullViewingKey path index
  | address path index => exact alike_addressOf false path index
  | showAddress path index => exact alike_addressOf true path index
  | sendMetadata metadata => exact alike_sendMetadata metadata
  | sign path blob metadata => exact alike_sign path blob metadata

end SignerBench.App
