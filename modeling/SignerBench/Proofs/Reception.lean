import SignerBench.Proofs.Calls

namespace SignerBench

open Account Apdu

namespace Account

def Path.ofBytes? : Bytes → Option Path
  | [a₁, a₂, a₃, a₄, b₁, b₂, b₃, b₄, c₁, c₂, c₃, c₄] =>
    some ⟨Bytes.word32 a₁ a₂ a₃ a₄, Bytes.word32 b₁ b₂ b₃ b₄, Bytes.word32 c₁ c₂ c₃ c₄⟩
  | _ => none

@[simp] theorem Path.ofBytes?_bytes (p : Path) : Path.ofBytes? p.bytes = some p := by
  simp [Path.bytes, components, Bytes.le32, ofBytes?, Bytes.word32_le32]

/-- The randomizer counts only behind a set flag. Behind a flag that is not set there are zeros. -/
def AddressIndex.ofBytes? : Bytes → Option AddressIndex
  | a :: b :: c :: d :: flag :: rest =>
    if flag = 0 then
      if rest = (Block.zero 12).val then some ⟨Bytes.word32 a b c d, none⟩ else none
    else if flag = 1 then (Block.take? 12 rest).map fun r => ⟨Bytes.word32 a b c d, some r⟩
    else none
  | _ => none

@[simp] theorem AddressIndex.ofBytes?_bytes (i : AddressIndex) : AddressIndex.ofBytes? i.bytes = some i := by
  obtain ⟨account, _ | r⟩ := i
  · simp [bytes, Bytes.le32, ofBytes?, Bytes.word32_le32]
  · obtain ⟨r, hr⟩ := r
    have htake : Block.take? 12 r = some ⟨r, hr⟩ := by
      rw [Block.take?_eq_some (Nat.le_of_eq hr.symm)]
      exact congrArg some (Subtype.ext (List.take_of_length_le (Nat.le_of_eq hr)))
    simp [bytes, Bytes.le32, ofBytes?, Bytes.word32_le32, htake]

end Account

/-- The command that such bytes are, if their length byte is right. -/
def Apdu.Command.ofBytes? : Bytes → Option Command
  | cla :: ins :: p1 :: p2 :: length :: data =>
    if length.toNat = data.length then some ⟨cla, ins, p1, p2, data⟩ else none
  | _ => none

theorem Apdu.Command.length_byte {c : Command} (h : c.data.length ≤ 255) :
    (UInt8.ofNat c.data.length).toNat = c.data.length :=
  UInt8.toNat_ofNat_of_lt' (Nat.lt_succ_of_le h)

theorem Apdu.Command.ofBytes?_bytes {c : Command} (h : c.data.length ≤ 255) : ofBytes? c.bytes = some c :=
  if_pos (length_byte h)

namespace App

open Script

/-- What a receiver has of a payload. -/
inductive Intake where
  | idle
  | begun (head body : Bytes)
  | whole (head body : Bytes)
  | refused
  deriving DecidableEq

/-- A payload starts at 0, is continued at 1, and is finished at 2. -/
def Intake.step (i : Intake) (c : Command) : Intake :=
  if c.p1 = 0 then .begun c.data []
  else match i with
    | .begun head body =>
      if c.p1 = 1 then .begun head (body ++ c.data)
      else if c.p1 = 2 then .whole head (body ++ c.data)
      else .refused
    | _ => .refused

def gather (ins : UInt8) (cs : List Command) : Intake := (cs.filter (·.ins = ins)).foldl Intake.step .idle

/-- Commands of other instructions do not disturb a payload. -/
theorem gather_append_other {ins : UInt8} {cs cs' : List Command} (h : ∀ c ∈ cs', c.ins ≠ ins) :
    gather ins (cs ++ cs') = gather ins cs := by
  have hnone : cs'.filter (·.ins = ins) = [] := List.filter_eq_nil_iff.mpr fun c hc => by simpa using h c hc
  rw [gather, List.filter_append, hnone, List.append_nil, gather]

theorem gather_other_append {ins : UInt8} {cs cs' : List Command} (h : ∀ c ∈ cs, c.ins ≠ ins) :
    gather ins (cs ++ cs') = gather ins cs' := by
  have hnone : cs.filter (·.ins = ins) = [] := List.filter_eq_nil_iff.mpr fun c hc => by simpa using h c hc
  rw [gather, List.filter_append, hnone, List.nil_append, gather]

theorem gather_all {ins : UInt8} {cs : List Command} (h : ∀ c ∈ cs, c.ins = ins) :
    gather ins cs = cs.foldl Intake.step .idle := by
  rw [gather, List.filter_eq_self.mpr fun c hc => by simpa using h c hc]

/-- Of a payload that was announced and of whose pieces some came, but not all, just these pieces are there. -/
theorem gather_take_frames {ins : UInt8} {head payload : Bytes} {j : Nat} (h : j < (payload.length + 249) / 250) :
    gather ins ((frames ins head payload).take (j + 1)) = .begun head (payload.take (250 * j)) := by
  rw [gather_all fun c hc => ins_of_mem_frames (List.mem_of_mem_take hc)]
  rw [frames, List.take_succ_cons, ← List.map_take, List.take_range, Nat.min_eq_left (Nat.le_of_lt h),
    List.foldl_cons]
  -- On the pieces that came: the last piece of all is not among them, and the others only continue.
  induction j with
  | zero => rfl
  | succ j ih =>
    rw [List.range_succ, List.map_append, List.foldl_append, ih (Nat.lt_of_succ_lt h)]
    have hmore : j + 1 ≠ (payload.length + 249) / 250 := Nat.ne_of_lt h
    simp [Intake.step, hmore, Nat.mul_succ, List.take_add]

/-- The last piece is the one that finishes the payload. -/
theorem frames_eq_concat {ins : UInt8} {head payload : Bytes} {m : Nat} (h : (payload.length + 249) / 250 = m + 1) :
    frames ins head payload = (frames ins head payload).take (m + 1) ++
      [⟨0x80, ins, 2, 0, (payload.drop (250 * m)).take 250⟩] := by
  rw [frames, h, List.range_succ, List.map_append, ← List.cons_append, List.take_left' (by simp)]
  simp

theorem gather_frames {ins : UInt8} {head payload : Bytes} (nonempty : payload ≠ []) :
    gather ins (frames ins head payload) = .whole head payload := by
  have hpos := List.length_pos_iff.mpr nonempty
  obtain ⟨m, hm⟩ : ∃ m, (payload.length + 249) / 250 = m + 1 := ⟨_, (Nat.sub_add_cancel (by omega)).symm⟩
  have hbegun : gather ins ((frames ins head payload).take (m + 1)) = _ := gather_take_frames (by omega)
  have hlast : payload.take (250 * m) ++ (payload.drop (250 * m)).take 250 = payload := by
    rw [← List.take_add]
    exact List.take_of_length_le (by omega)
  rw [gather_all fun c hc => ins_of_mem_frames (List.mem_of_mem_take hc)] at hbegun
  rw [gather_all fun c hc => ins_of_mem_frames hc, frames_eq_concat hm, List.foldl_append, hbegun]
  simp [Intake.step, hlast]

/-- A payload is not whole before its last piece. -/
theorem gather_take_ne_whole {ins : UInt8} {head payload : Bytes} {m : Nat}
    (h : m < (frames ins head payload).length) (head' body : Bytes) :
    gather ins ((frames ins head payload).take m) ≠ .whole head' body := by
  rw [length_frames] at h
  cases m with
  | zero => exact fun h => nomatch h
  | succ j =>
    rw [gather_take_frames (Nat.lt_of_succ_lt_succ h)]
    exact fun h => nomatch h

inductive Heard where
  | fullViewingKey (path : Path) (index : AddressIndex)
  | address (shown : Bool) (path : Path) (index : AddressIndex)
  | plan (metadata : Option Bytes) (path : Path) (blob : Bytes)
  deriving DecidableEq

def hearLookup (c : Command) : Option Heard := do
  let path ← Path.ofBytes? (c.data.take 12)
  let index ← AddressIndex.ofBytes? (c.data.drop 12)
  if c.ins = 0x03 then
    if c.p1 = 0 then return .fullViewingKey path index else none
  else if c.p1 = 0 then return .address false path index
  else if c.p1 = 1 then return .address true path index
  else none

def hearPlan (cs : List Command) : Option Heard :=
  match gather 0x04 cs, gather 0x02 cs with
  | .idle, .whole head blob => (Path.ofBytes? head).map fun path => .plan none path blob
  | .whole [] payload, .whole head blob => (Path.ofBytes? head).map fun path => .plan (some payload) path blob
  | _, _ => none

/-- The first command tells whether something is looked up or a plan is brought. -/
def hear : List Command → Option Heard
  | [] => none
  | c :: cs =>
    if c.ins = 0x01 ∨ c.ins = 0x03 then
      if cs = [] then hearLookup c else none
    else hearPlan (c :: cs)

theorem hearPlan_eq_none {cs : List Command} (h : ∀ head body, gather 0x02 cs ≠ .whole head body) :
    hearPlan cs = none := by
  unfold hearPlan
  split
  · exact absurd ‹_› (h _ _)
  · exact absurd ‹_› (h _ _)
  · rfl

/-- Where nothing is looked up, a plan is all that there is to hear. -/
theorem hear_eq_hearPlan {cs : List Command} (h : ∀ c ∈ cs, c.ins ≠ 0x01 ∧ c.ins ≠ 0x03) : hear cs = hearPlan cs := by
  cases cs with
  | nil => rfl
  | cons c cs => exact if_neg (not_or.mpr (h c List.mem_cons_self))

/-- The flag that asks to show an address is told, and a viewing key has no such flag. -/
theorem hearLookup_selector (ins p1 : UInt8) (path : Path) (index : AddressIndex) :
    hearLookup ⟨0x80, ins, p1, 0, path.bytes ++ index.bytes⟩ =
      if ins = 0x03 then if p1 = 0 then some (.fullViewingKey path index) else none
      else if p1 = 0 then some (.address false path index)
      else if p1 = 1 then some (.address true path index)
      else none := by
  simp only [hearLookup, List.take_left' path.length_bytes, List.drop_left' path.length_bytes, Path.ofBytes?_bytes,
    AddressIndex.ofBytes?_bytes]
  rfl

/-- What is heard in the bytes that came, each string of which is one command. -/
def understand (wire : List Bytes) : Option Heard := wire.mapM Command.ofBytes? >>= hear

theorem mapM_ofBytes?_bytes {cs : List Command} (h : ∀ c ∈ cs, c.data.length ≤ 255) :
    (cs.map Command.bytes).mapM Command.ofBytes? = some cs := by
  induction cs with
  | nil => rfl
  | cons c cs ih =>
    obtain ⟨hc, hcs⟩ := List.forall_mem_cons.mp h
    rw [List.map_cons, List.mapM_cons, Command.ofBytes?_bytes hc, ih hcs]
    rfl

theorem understand_bytes {cs : List Command} (h : ∀ c ∈ cs, c.data.length ≤ 255) :
    understand (cs.map Command.bytes) = hear cs := by
  rw [understand, mapM_ofBytes?_bytes h]
  rfl

namespace Call

/-- The packed metadata that is told with a plan, if there is some. -/
def toldPayload (metadata : List String) : Option Bytes := if metadata = [] then none else Metadata.encode metadata

def heard : Call → Option Heard
  | .fullViewingKey path index => some (.fullViewingKey path index)
  | .address path index => some (.address false path index)
  | .showAddress path index => some (.address true path index)
  | .sendMetadata _ => none
  | .sign path blob metadata => some (.plan (toldPayload metadata) path blob)

/-- A call for something that the client can ask for. -/
def Fits : Call → Prop
  | .fullViewingKey _ _ | .address _ _ | .showAddress _ _ => True
  | .sendMetadata _ => False
  | .sign _ blob metadata => 1 ≤ blob.length ∧ blob.length ≤ 63750 ∧ ¬ Untold metadata

def request : Call → List Command
  | .fullViewingKey path index => [⟨0x80, 0x03, 0, 0, path.bytes ++ index.bytes⟩]
  | .address path index => [⟨0x80, 0x01, 0, 0, path.bytes ++ index.bytes⟩]
  | .showAddress path index => [⟨0x80, 0x01, 1, 0, path.bytes ++ index.bytes⟩]
  | .sendMetadata metadata => metadataFrames metadata
  | .sign path blob metadata => metadataFrames metadata ++ frames 0x02 path.bytes blob

/-- The bytes that are sent when a call gets these answers. -/
def wire (c : Call) (answers : List (Except Fault Bytes)) : List Bytes :=
  (Script.run c.link ⟨answers, []⟩).2.sent.reverse.map Command.bytes

/-- The exchange of a command that is not the last of the request fails. -/
def Unsaid (c : Call) (answers : List (Except Fault Bytes)) : Prop :=
  ∃ k e, k + 1 < c.request.length ∧ StopsAt (c.steps answers) answers k e

variable {c c' : Call} {answers answers' : List (Except Fault Bytes)}

theorem heard_isSome (fits : c.Fits) : c.heard.isSome := by
  cases c
  case sendMetadata => cases fits
  all_goals rfl

/-- Metadata that can be told is known from its packed form. -/
theorem told_injective {metadata metadata' : List String} (can : ¬ Untold metadata) (can' : ¬ Untold metadata')
    (h : toldPayload metadata = toldPayload metadata') : metadata = metadata' := by
  unfold toldPayload at h
  split at h
  case isTrue empty =>
    split at h
    case isTrue empty' => rw [empty, empty']
    case isFalse nonempty' => exact absurd ⟨nonempty', h.symm⟩ can'
  case isFalse nonempty =>
    obtain ⟨payload, hpayload⟩ := encode_of_told can nonempty
    split at h
    case isTrue => cases h.symm.trans hpayload
    case isFalse => exact Metadata.encode_injective hpayload (h.symm.trans hpayload)

theorem heard_injective (fits : c.Fits) (fits' : c'.Fits) (h : c.heard = c'.heard) : c = c' := by
  cases c <;> cases c'
  case sendMetadata.sendMetadata => cases fits
  case sign.sign path blob metadata path' blob' metadata' =>
    obtain ⟨_, _, can⟩ := fits
    obtain ⟨_, _, can'⟩ := fits'
    simp only [heard, Option.some.injEq, Heard.plan.injEq] at h
    obtain ⟨hmetadata, rfl, rfl⟩ := h
    rw [told_injective can can' hmetadata]
  case fullViewingKey.fullViewingKey | address.address | showAddress.showAddress =>
    cases h
    rfl
  all_goals cases h

def fetched (answers : List (Except Fault Bytes)) : Call → List Command
  | .sign path blob metadata => (signatureSteps (approval path blob metadata answers)).map Step.command
  | _ => []

theorem ins_of_mem_fetched {cmd : Command} (h : cmd ∈ c.fetched answers) :
    cmd.ins = 0x05 ∨ cmd.ins = 0x06 ∨ cmd.ins = 0x07 := by
  have hfetch {ins : UInt8} {count : Nat} {s : Step Fault} (h : s ∈ fetchSteps ins count) : s.command.ins = ins := by
    obtain ⟨_, hc, rfl⟩ := List.mem_map.mp h
    obtain ⟨_, _, rfl⟩ := List.mem_map.mp hc
    rfl
  cases c
  case sign =>
    obtain ⟨s, hs, rfl⟩ := List.mem_map.mp h
    simp only [signatureSteps, List.mem_append] at hs
    obtain (hs | hs) | hs := hs
    · exact .inl (hfetch hs)
    · exact .inr (.inl (hfetch hs))
    · exact .inr (.inr (hfetch hs))
  all_goals cases h

theorem ins_of_mem_metadataFrames {metadata : List String} {cmd : Command} (h : cmd ∈ metadataFrames metadata) :
    cmd.ins = 0x04 := by
  unfold metadataFrames at h
  split at h
  · cases h
  · exact ins_of_mem_frames h

theorem ins_of_mem_request {path : Path} {blob : Bytes} {metadata : List String} {cmd : Command}
    (h : cmd ∈ (sign path blob metadata).request) : cmd.ins = 0x04 ∨ cmd.ins = 0x02 := by
  rcases List.mem_append.mp h with h | h
  · exact .inl (ins_of_mem_metadataFrames h)
  · exact .inr (ins_of_mem_frames h)

theorem command_told {metadata : List String} (can : ¬ Untold metadata) :
    (told metadata).map Step.command = metadataFrames metadata := by
  unfold told metadataFrames
  split
  case isTrue => rfl
  case isFalse nonempty =>
    obtain ⟨payload, hpayload⟩ := encode_of_told can nonempty
    rw [tellSteps, hpayload]
    exact map_command_pieces _

theorem gather_metadataFrames {metadata : List String} (can : ¬ Untold metadata) :
    gather 0x04 (metadataFrames metadata) =
      match toldPayload metadata with
      | none => .idle
      | some payload => .whole [] payload := by
  unfold metadataFrames toldPayload
  split
  case isTrue => rfl
  case isFalse nonempty =>
    obtain ⟨payload, hpayload⟩ := encode_of_told can nonempty
    rw [hpayload]
    exact gather_frames (Metadata.ne_nil_of_encode hpayload)

/-- First come the commands of the request, and behind them those that fetch the signatures. -/
theorem command_steps (fits : c.Fits) :
    (c.steps answers).map Step.command = c.request ++ c.fetched answers := by
  cases c
  case sendMetadata => cases fits
  case sign path blob metadata =>
    obtain ⟨enough, few, can⟩ := fits
    have nonempty : blob ≠ [] := List.length_pos_iff.mp enough
    have hfew : ¬ maxPayload < blob.length := Nat.not_lt.mpr few
    rw [steps, if_neg (not_or.mpr ⟨nonempty, can⟩), if_neg hfew, List.map_append, List.map_append, command_told can,
      planSteps_commands, ← List.append_assoc]
    rfl
  all_goals rfl

/-- The whole request is understood, whatever is fetched behind it. -/
theorem hear_request (fits : c.Fits) (m : Nat) : hear (c.request ++ (c.fetched answers).take m) = c.heard := by
  cases c
  case sendMetadata => cases fits
  case sign path blob metadata =>
    obtain ⟨enough, _, can⟩ := fits
    have hfetched : ∀ cmd ∈ ((sign path blob metadata).fetched answers).take m,
        cmd.ins = 0x05 ∨ cmd.ins = 0x06 ∨ cmd.ins = 0x07 := fun _ h => ins_of_mem_fetched (List.mem_of_mem_take h)
    -- Each payload is gathered by its instruction, which nothing else of the call has.
    have hblob : gather 0x02 ((sign path blob metadata).request ++ ((sign path blob metadata).fetched answers).take m) =
        .whole path.bytes blob := by
      rw [gather_append_other, request, gather_other_append, gather_frames (List.length_pos_iff.mp enough)]
      · intro cmd h
        rw [ins_of_mem_metadataFrames h]
        decide
      · intro cmd h
        obtain h | h | h := hfetched cmd h <;> rw [h] <;> decide
    have hmetadata :
        gather 0x04 ((sign path blob metadata).request ++ ((sign path blob metadata).fetched answers).take m) =
          gather 0x04 (metadataFrames metadata) := by
      rw [gather_append_other, request, gather_append_other]
      · intro cmd h
        rw [ins_of_mem_frames h]
        decide
      · intro cmd h
        obtain h | h | h := hfetched cmd h <;> rw [h] <;> decide
    rw [hear_eq_hearPlan, hearPlan, hblob, hmetadata, gather_metadataFrames can, heard]
    · cases toldPayload metadata <;> exact congrArg (Option.map _) path.ofBytes?_bytes
    · intro cmd h
      rcases List.mem_append.mp h with h | h
      · obtain h | h := ins_of_mem_request h <;> rw [h] <;> decide
      · obtain h | h | h := hfetched cmd h <;> rw [h] <;> decide
  all_goals
    have hnone : List.take m ([] : List Command) = [] := List.take_nil
    exact hnone ▸ hearLookup_selector _ _ _ _

/-- Before the request is whole nothing is understood. -/
theorem hear_take_request (fits : c.Fits) {m : Nat} (h : m < c.request.length) : hear (c.request.take m) = none := by
  cases c
  case sendMetadata => cases fits
  case sign path blob metadata =>
    rw [hear_eq_hearPlan]
    · refine hearPlan_eq_none fun head body => ?_
      have hplan := List.length_pos_iff.mpr (frames_ne_nil 0x02 path.bytes blob)
      rw [request, List.length_append] at h
      rw [request, List.take_append, gather_other_append]
      · exact gather_take_ne_whole (by omega) head body
      · intro cmd hc
        rw [ins_of_mem_metadataFrames (List.mem_of_mem_take hc)]
        decide
    · intro cmd hc
      obtain h | h := ins_of_mem_request (List.mem_of_mem_take hc) <;> rw [h] <;> decide
  all_goals
    obtain rfl : m = 0 := Nat.lt_one_iff.mp h
    rfl

/-- What is sent is a beginning of the commands of a call, as far as its course goes. -/
theorem wire_eq (c : Call) (answers : List (Except Fault Bytes)) :
    ∃ r n, Course (c.steps answers) answers (c.Ends answers) r n ∧
      c.wire answers = (((c.steps answers).take n).map Step.command).map Command.bytes := by
  obtain ⟨r, n, course, hrun⟩ := run_eq c answers
  refine ⟨r, n, course, ?_⟩
  rw [wire, hrun, List.reverse_reverse]

theorem length_data_le {c : Call} {answers : List (Except Fault Bytes)} {n : Nat} {cmd : Command}
    (h : cmd ∈ ((c.steps answers).take n).map Step.command) : cmd.data.length ≤ 255 := by
  obtain ⟨s, hs, rfl⟩ := List.mem_map.mp h
  exact (proper_of_mem (List.mem_of_mem_take hs)).data

/-- Of a call that was not cut off before its request was whole, what it asks for is understood. Of one that was,
nothing is. -/
theorem understand_wire (fits : c.Fits) (answers : List (Except Fault Bytes)) :
    understand (c.wire answers) = c.heard ∨ understand (c.wire answers) = none ∧ c.Unsaid answers := by
  obtain ⟨r, n, course, hwire⟩ := wire_eq c answers
  rw [hwire, understand_bytes fun cmd h => length_data_le h, List.map_take, command_steps fits]
  rcases Nat.lt_or_ge n c.request.length with hn | hn
  · rw [List.take_append_of_le_length (Nat.le_of_lt hn)]
    refine .inr ⟨hear_take_request fits hn, ?_⟩
    cases course with
    | stopped stops => exact ⟨_, _, hn, stops⟩
    | through =>
      have hlength : ((c.steps answers).map Step.command).length = _ := congrArg List.length (command_steps fits)
      rw [List.length_map, List.length_append] at hlength
      omega
  · rw [List.take_append, List.take_of_length_le hn]
    exact .inl (hear_request fits _)

/-- Every command has the length byte of its data. What is asked for is understood from the bytes that were sent,
unless the device fails before all of it was said, and then nothing is understood. So calls that ask for different
things never send the same. -/
theorem wire_determines_call (c : Call) (answers : List (Except Fault Bytes)) :
    (∀ b ∈ c.wire answers, ∃ (cla ins p1 p2 length : UInt8) (data : Bytes),
      b = cla :: ins :: p1 :: p2 :: length :: data ∧ length.toNat = data.length) ∧
    (c.Fits →
      (understand (c.wire answers) = c.heard ∨ understand (c.wire answers) = none ∧ c.Unsaid answers) ∧
      ∀ (c' : Call) (answers' : List (Except Fault Bytes)), c'.Fits → c.wire answers = c'.wire answers' →
        c = c' ∨ c.Unsaid answers ∧ c'.Unsaid answers') := by
  refine ⟨fun b hb => ?_, fun fits => ⟨understand_wire fits answers, fun c' answers' fits' hsame => ?_⟩⟩
  · obtain ⟨r, n, _, hwire⟩ := wire_eq c answers
    rw [hwire] at hb
    obtain ⟨cmd, hcmd, rfl⟩ := List.mem_map.mp hb
    exact ⟨_, _, _, _, _, _, rfl, Command.length_byte (length_data_le hcmd)⟩
  · -- Both calls are understood from the same bytes.
    have hsome := heard_isSome fits
    have hsome' := heard_isSome fits'
    have hheard' := understand_wire fits' answers'
    rw [← hsame] at hheard'
    rcases understand_wire fits answers with hheard | ⟨hnone, unsaid⟩
    · rw [hheard] at hheard'
      rcases hheard' with h | ⟨h, _⟩
      · exact .inl (heard_injective fits fits' h)
      · rw [h] at hsome
        cases hsome
    · rw [hnone] at hheard'
      rcases hheard' with h | ⟨_, unsaid'⟩
      · rw [← h] at hsome'
        cases hsome'
      · exact .inr ⟨unsaid, unsaid'⟩

def twoPieces : Call := .sign (.forAccount 0) (List.replicate 251 7) ["um"]

def bareAnswers : List (Except Fault Bytes) := List.replicate 5 (.ok [0x90, 0x00])

/-- A missing randomizer and one of zeros are told apart. A plan in pieces is understood, and so is its metadata. -/
theorem wire_of_zero_randomizer :
    ((Call.address (.forAccount 0) ⟨0, none⟩).Fits ∧
      (Call.address (.forAccount 0) ⟨0, some (Block.zero 12)⟩).Fits ∧
      (Call.address (.forAccount 0) ⟨0, none⟩).wire [] ≠
        (Call.address (.forAccount 0) ⟨0, some (Block.zero 12)⟩).wire []) ∧
      twoPieces.Fits ∧ (twoPieces.wire bareAnswers).map List.length = [5, 9, 17, 255, 6] ∧
      understand (twoPieces.wire bareAnswers) =
        some (.plan (some [1, 2, 0x75, 0x6d]) (.forAccount 0) (List.replicate 251 7)) := by
  refine ⟨⟨trivial, trivial, fun hsame => ?_⟩, ?_⟩
  · have hdetermined := ((wire_determines_call (.address (.forAccount 0) ⟨0, none⟩) []).2 trivial).2
    rcases hdetermined (.address (.forAccount 0) ⟨0, some (Block.zero 12)⟩) [] trivial hsame with h | ⟨unsaid, _⟩
    · cases h
    · obtain ⟨_, _, hmore, _⟩ := unsaid
      exact absurd (Nat.lt_of_succ_lt_succ hmore) (Nat.not_lt_zero _)
  · have fits : twoPieces.Fits := ⟨by decide +kernel, by decide +kernel, by decide⟩
    refine ⟨fits, by decide +kernel, ?_⟩
    have hsome : (understand (twoPieces.wire bareAnswers)).isSome = true := by decide +kernel
    rcases ((wire_determines_call twoPieces bareAnswers).2 fits).1 with hheard | ⟨hnone, _⟩
    · rw [hheard]
      rfl
    · rw [hnone] at hsome
      cases hsome

end Call

end App

end SignerBench
