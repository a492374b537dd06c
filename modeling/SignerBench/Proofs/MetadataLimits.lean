import SignerBench.Proofs.Refusals

namespace SignerBench.App

open Account Apdu Dialogue

variable {ε : Type} {c : Command} {a : Answer} {e : Error ε} {log : Exchanges ε}

/-- A failure that is told from outside: the link fails, or the device answers with a status. -/
inductive Error.Foreign : Error ε → Prop where
  | transport (cause : ε) : Foreign (.transport cause)
  | refused (status : UInt16) (description : String) : Foreign (.refused status description)
  | unknownStatus (status : UInt16) : Foreign (.unknownStatus status)

theorem Error.Foreign.ne_emptyMessage (h : e.Foreign) : e ≠ .emptyMessage := by
  rintro rfl
  cases h

theorem Error.Foreign.ne_messageSize (h : e.Foreign) : e ≠ .messageSize := by
  rintro rfl
  cases h

/-- A failure of the whole is one of the first part, or of the second behind what the first has given. -/
theorem fails_bind {α β : Type} {x : Link ε α} {f : α → Link ε β} (h : (x >>= f).Fails log e) :
    x.Fails log e ∨ ∃ a first rest, log = first ++ rest ∧ x.Gives first a ∧ (f a).Fails rest e :=
  Attempt.fails_bind (.inr fun _ => closed_of_talk _) h

theorem exchange_fails (h : (exchange c).Fails log e) : e.Foreign := by
  rcases fails_bind h with hquery | ⟨r, _, _, _, _, hr⟩
  · exact absurd hquery Attempt.fails_query
  · cases r with
    | ok a => exact absurd hr Attempt.fails_pure
    | error cause =>
      obtain ⟨_, rfl⟩ := Attempt.fails_throw.mp hr
      exact .transport cause

theorem checkStatus_fails (h : (checkStatus .unknownStatus a).Fails log e) : e.Foreign := by
  unfold checkStatus at h
  split at h
  · exact absurd h Attempt.fails_pure
  · split at h
    · obtain ⟨_, rfl⟩ := Attempt.fails_throw.mp h
      exact .refused _ _
    · obtain ⟨_, rfl⟩ := Attempt.fails_throw.mp h
      exact .unknownStatus _

theorem exchangeAll_fails {cs : List Command} {last : Answer} (h : (exchangeAll last cs).Fails log e) :
    e.Foreign := by
  induction cs generalizing last log with
  | nil => exact absurd h Attempt.fails_pure
  | cons c cs ih =>
    rcases fails_bind h with hexchange | ⟨a, _, _, _, _, hrest⟩
    · exact exchange_fails hexchange
    rcases fails_bind hrest with hstatus | ⟨_, _, _, _, _, hrest⟩
    · exact checkStatus_fails hstatus
    · exact ih hrest

/-- Within the limits neither of the two checks of the client can fail, so a failure is told from outside. -/
theorem sendChunks_fails {i : Instruction} {head payload : Bytes} (nonempty : payload ≠ [])
    (fits : payload.length ≤ Script.maxPayload) (h : (sendChunks i head payload).Fails log e) : e.Foreign := by
  rw [Script.sendChunks_eq nonempty fits] at h
  exact exchangeAll_fails (Attempt.fails_bind_pure h)

namespace Metadata

variable {metadata : List String} {payload : Bytes}

/-- Metadata with the most entries there can be, each as long as it can be, is still far from too large to be sent. -/
theorem length_encode_le (h : encode metadata = some payload) : payload.length ≤ 30481 := length_pack_le h

/-- A size is refused with nothing sent, and only for metadata without an encoding. -/
theorem sendMetadata_fails (h : (sendMetadata metadata).Fails log e) :
    encode metadata = none ∧ log = [] ∧ e = .messageSize ∨ (encode metadata).isSome ∧ e.Foreign := by
  unfold sendMetadata at h
  split at h
  case h_1 hnone =>
    obtain ⟨hlog, he⟩ := Attempt.fails_throw.mp h
    exact .inl ⟨hnone, hlog, he⟩
  case h_2 payload hpayload =>
    have hfits : payload.length ≤ Script.maxPayload := Nat.le_trans (length_encode_le hpayload) (by decide)
    have hforeign := sendChunks_fails (ne_nil_of_encode hpayload) hfits (Attempt.fails_map h)
    exact .inr ⟨by rw [hpayload]; rfl, hforeign⟩

variable {σ : Type} (reply : Command → σ → Except ε Answer × σ) (s : σ)

/-- The state of the link is as before: it was not asked. -/
theorem sendMetadata_on_none (h : encode metadata = none) :
    (sendMetadata metadata : Link ε Unit).on reply s = (.error .messageSize, s) := by
  unfold sendMetadata
  rw [h]
  rfl

theorem sendMetadata_on_error (h : ((sendMetadata metadata : Link ε Unit).on reply s).1 = .error e) :
    encode metadata = none ∧ e = .messageSize ∨ (encode metadata).isSome ∧ e.Foreign := by
  obtain ⟨log, hgoes, _⟩ := run_goes reply (sendMetadata metadata : Link ε Unit).run s
  rw [show Dialogue.run reply (sendMetadata metadata : Link ε Unit).run s =
    (sendMetadata metadata : Link ε Unit).on reply s from rfl, h] at hgoes
  exact (sendMetadata_fails hgoes).imp_left fun ⟨hnone, _, he⟩ => ⟨hnone, he⟩

/-- Metadata is encoded if it is within its limits. It is then read back whole from its encoding, which no other
metadata has. Telling metadata over any link is refused for a size only where it has no encoding, with nothing asked
of the link. -/
theorem encode_exact (metadata : List String) :
    (encode metadata = none ↔ 254 < metadata.length ∨ ∃ m ∈ metadata, 119 < (Bytes.ofText m).length) ∧
      (∀ payload, encode metadata = some payload →
        unpack payload = some (metadata.map Bytes.ofText, []) ∧ 1 ≤ payload.length ∧ payload.length ≤ 30481 ∧
          ∀ metadata', encode metadata' = some payload → metadata' = metadata) ∧
      ∀ (ε σ : Type) (reply : Command → σ → Except ε Answer × σ) (s : σ),
        ((sendMetadata metadata : Link ε Unit).on reply s).1 ≠ .error .emptyMessage ∧
          (((sendMetadata metadata : Link ε Unit).on reply s).1 = .error .messageSize ↔ encode metadata = none) ∧
          (encode metadata = none → (sendMetadata metadata : Link ε Unit).on reply s = (.error .messageSize, s)) := by
  refine ⟨encode_eq_none_iff, ?encoded, ?told⟩
  case encoded =>
    intro payload h
    have hread := unpack_pack h []
    rw [List.append_nil] at hread
    exact ⟨hread, List.length_pos_iff.mpr (ne_nil_of_encode h), length_encode_le h,
      fun _ h' => encode_injective h' h⟩
  case told =>
    intro ε σ reply s
    refine ⟨fun h => ?_, ⟨fun h => ?_, fun h => ?_⟩, sendMetadata_on_none reply s⟩
    · rcases sendMetadata_on_error reply s h with ⟨_, he⟩ | ⟨_, hforeign⟩
      · cases he
      · exact hforeign.ne_emptyMessage rfl
    · rcases sendMetadata_on_error reply s h with ⟨hnone, _⟩ | ⟨_, hforeign⟩
      · exact hnone
      · exact absurd rfl hforeign.ne_messageSize
    · rw [sendMetadata_on_none reply s h]

/-- What counts is the length in bytes: sixty letters of two bytes each are too long an entry. -/
example : encode [String.ofList (List.replicate 60 'ß')] = none ∧
    encode ["um", "ß"] = some [2, 2, 0x75, 0x6d, 2, 0xc3, 0x9f] := by decide +kernel

end Metadata

end SignerBench.App
