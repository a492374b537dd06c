import Mathlib.Order.Nat
import SignerBench.Files.Tree
import SignerBench.Proofs.Replays
import SignerBench.Proofs.ReviewWalk

namespace SignerBench.Emulator

open Dialogue (Half World Yields)
open Attempt

/-- A device that answers every request. -/
structure Machine (σ : Type) where
  answer : σ → Call → Bytes
  step : σ → Call → σ
  elements : σ → List Element
  legible : ∀ x, readScreen (answer x .events) = .ok (elements x)

/-- A device, what has been done to it, and the files around it. -/
structure Scene (σ φ : Type) where
  device : σ
  received : List Call
  files : φ

variable {σ φ β : Type}

def Machine.screen (m : Machine σ) (x : σ) : Snapshot := ⟨m.answer x .screenshot⟩

def Machine.performed (m : Machine σ) (x : σ) (calls : List Call) : σ := calls.foldl m.step x

namespace Scene

def perform (m : Machine σ) (v : Scene σ φ) (calls : List Call) : Scene σ φ :=
  { v with device := m.performed v.device calls, received := v.received ++ calls }

theorem perform_nil (m : Machine σ) (v : Scene σ φ) : v.perform m [] = v := by
  rw [perform, List.append_nil]
  rfl

theorem perform_perform (m : Machine σ) (v : Scene σ φ) (calls more : List Call) :
    (v.perform m calls).perform m more = v.perform m (calls ++ more) := by
  simp only [perform, Machine.performed, List.foldl_append, List.append_assoc]

end Scene

/-- The world of such a device. The clock shows one time after the other, and the files have any behaviour. -/
def Machine.world (m : Machine σ) (clock : Nat → Nat) (access : (q : Files.Ask) → φ → Files.Reply q × φ) :
    World Ask Reply Nat (Scene σ φ × Nat) where
  reply
    | .call _ c, (v, t) =>
      (some (Web.Response.body (m.answer v.device c)), if c.isInput then v.perform m [c] else v, t)
    | .now, (v, t) => (some (clock t), v, t + 1)
    | .sleep _, v => (some (), v)
    | .files q, (v, t) => (some (access q v.files).1, { v with files := (access q v.files).2 }, t)
    | _, v => (none, v)
  pause _ v := v

namespace Session

variable {s : Session} {m : Machine σ} {clock : Nat → Nat} {access : (q : Files.Ask) → φ → Files.Reply q × φ}
  {v v' : Scene σ φ} {first : σ} {i j k n left : Nat} {target : Element}

/-- The states that leading on comes to, one after the other. -/
def ahead (s : Session) (m : Machine σ) (first : σ) : Nat → σ
  | 0 => first
  | i + 1 => m.step (s.ahead m first i) s.advanceCall

def asking? (s : Session) (m : Machine σ) (x : σ) : Option Element :=
  (m.elements x).find? fun e => Text.mentions e.text s.options.approveKeyword

/-- Where approval is asked for, among the screens that may be looked at. -/
def approvals (s : Session) (m : Machine σ) (first : σ) : Set Nat :=
  {k | k < s.options.maxReviewScreens ∧
    ∃ e ∈ m.elements (s.ahead m first k), Text.mentions e.text s.options.approveKeyword = true}

/-- Where leading on shows the same pixels again. -/
def standstills (s : Session) (m : Machine σ) (first : σ) : Set Nat :=
  {j | (m.screen (s.ahead m first (j + 1))).samePixels (m.screen (s.ahead m first j)) = true}

/-- The element to be tapped reaches beyond the numbers that a place is told with. -/
def OffScreen (s : Session) (target : Element) : Prop :=
  s.options.device.isTouch = true ∧ s.options.approveAction = .tapKeyword ∧ target.middle? = none

def shots (s : Session) (m : Machine σ) (first : σ) (k : Nat) : List Snapshot :=
  (List.range (k + 1)).map fun i => m.screen (s.ahead m first i)

theorem shots_succ (s : Session) (m : Machine σ) (first : σ) (k : Nat) :
    s.shots m first (k + 1) = s.shots m first k ++ [m.screen (s.ahead m first (k + 1))] := by
  rw [shots, List.range_succ, List.map_append]
  rfl

theorem performed_replicate (s : Session) (m : Machine σ) (first : σ) (i : Nat) :
    m.performed first (List.replicate i s.advanceCall) = s.ahead m first i := by
  induction i with
  | zero => rfl
  | succ i ih =>
    rw [ahead, ← ih, List.replicate_succ', Machine.performed, List.foldl_append]
    rfl

/-- The scene so many screens further on. -/
def led (s : Session) (m : Machine σ) (v : Scene σ φ) (i : Nat) : Scene σ φ :=
  v.perform m (List.replicate i s.advanceCall)

theorem led_zero : s.led m v 0 = v := v.perform_nil m

theorem led_device : (s.led m v i).device = s.ahead m v.device i := performed_replicate s m v.device i

theorem led_succ : (s.led m v i).perform m [s.advanceCall] = s.led m v (i + 1) := by
  rw [led, led, Scene.perform_perform, List.replicate_succ']

theorem leads_call (base : String) (c : Call) : Leads (m.world clock access) (Work.call base c) v
    (.ok (m.answer v.device c)) (if c.isInput then v.perform m [c] else v) := by
  have replied (t : Nat) : (m.world clock access).reply (.call base c) (v, t) =
      (some (Web.Response.body (m.answer v.device c)), if c.isInput then v.perform m [c] else v, t) := rfl
  exact leads_demand replied

theorem leads_input {c : Call} (base : String) (input : c.isInput = true) :
    Leads (m.world clock access) (discard (Work.call base c)) v (.ok ()) (v.perform m [c]) := by
  have h : Leads (m.world clock access) (Work.call base c) v _ _ := leads_call base c
  rw [if_pos input] at h
  exact h.map

theorem leads_advance :
    Leads (m.world clock access) s.advance v (.ok ()) (v.perform m [s.advanceCall]) := by
  rw [advance_eq]
  exact leads_input s.base advanceCall_isInput

theorem leads_snapshot : Leads (m.world clock access) s.snapshot v (.ok (m.screen v.device)) v :=
  Leads.map (leads_call s.base .screenshot)

theorem leads_findText (wanted : String) : Leads (m.world clock access) (s.findText wanted) v
    (.ok ((m.elements v.device).find? fun e => Text.mentions e.text wanted)) v := by
  have events : Leads (m.world clock access) s.events v (.ok (m.elements v.device)) v := by
    refine (leads_call s.base .events).bind ?_
    rw [m.legible]
    exact leads_ofExcept
  exact events.bind leads_pure

section

variable {α : Type} {look : Work (Option α)} {deadline t : Nat} {late : Error} {a : α}

theorem leads_poll_found (found : Leads (m.world clock access) look v (.ok (some a)) v) :
    Leads (m.world clock access) (s.poll deadline late look) v (.ok a) v := by
  intro t
  obtain ⟨t', hlook⟩ := found t
  exact ⟨t', .last (yields_pollTurn_found s deadline late hlook)⟩

/-- The induction is on how often the clock is still looked at before it has passed the deadline. -/
theorem leads_poll_late (flat : look.Flat)
    (nothing : ∀ t, Yields (m.world clock access) look.run (v, t) (.value (.ok none)) (v, t))
    (passes : PassesDeadlines clock) :
    Leads (m.world clock access) (s.poll deadline late look) v (.error late) v := by
  intro t
  obtain ⟨i, hi, past⟩ := passes deadline t
  have last {t : Nat} (past : deadline ≤ clock t) : ∃ t', Yields (m.world clock access)
      (s.poll deadline late look).run (v, t) (.value (.error late)) (v, t') := by
    have hturn := yields_pollTurn s deadline late flat (nothing t) rfl
    rw [if_pos past] at hturn
    exact ⟨t + 1, .last hturn⟩
  induction hi using Nat.decreasingInduction with
  | self => exact last past
  | of_succ t _ ih =>
    by_cases now : deadline ≤ clock t
    · exact last now
    · have hturn := yields_pollTurn s deadline late flat (nothing t) rfl
      rw [if_neg now] at hturn
      obtain ⟨t', hrest⟩ := ih
      exact ⟨t', .turn hturn hrest⟩

end

theorem leads_now {f : Nat → Work β} {r : Except Error β}
    (rest : ∀ time, Leads (m.world clock access) (f time) v r v') :
    Leads (m.world clock access) (Work.now >>= f) v r v' :=
  Leads.bind_any (fun t => ⟨clock t, t + 1, .ask rfl (.done _ _)⟩) rest

theorem yields_otherScreen {reference : Snapshot} {found : Option Snapshot}
    (looked : (if (m.screen v.device).samePixels reference then none else some (m.screen v.device)) = found) (t : Nat) :
    Yields (m.world clock access) (s.otherScreen reference).run (v, t) (.value (.ok found)) (v, t) :=
  looked ▸ .ask rfl (.done _ _)

theorem leads_wait_other {reference : Snapshot} (other : (m.screen v.device).samePixels reference = false) :
    Leads (m.world clock access) (s.waitUntilNot reference) v (.ok (m.screen v.device)) v := by
  refine leads_now fun start => leads_poll_found fun t => ⟨t, yields_otherScreen ?_ t⟩
  rw [other]
  rfl

/-- A screen that stays is waited for until the deadline. -/
theorem leads_wait_same {reference : Snapshot} (passes : PassesDeadlines clock)
    (same : (m.screen v.device).samePixels reference = true) :
    Leads (m.world clock access) (s.waitUntilNot reference) v
      (.error (.screenTimeout .change s.options.screenTimeout)) v := by
  refine leads_now fun start => leads_poll_late flat_otherScreen (yields_otherScreen ?_) passes
  rw [same]
  rfl

/-- Here approval is not asked for, and leading on shows another screen. -/
structure Clear (s : Session) (m : Machine σ) (first : σ) (i : Nat) : Prop where
  silent : s.asking? m (s.ahead m first i) = none
  changing : i ∉ s.standstills m first

theorem leads_asking : Leads (m.world clock access) (s.findText s.options.approveKeyword) (s.led m v i)
    (.ok (s.asking? m (s.ahead m v.device i))) (s.led m v i) := by
  rw [← led_device]
  exact leads_findText s.options.approveKeyword

def searchFrom (s : Session) (m : Machine σ) (first : σ) (i left : Nat) : Work Arrival :=
  s.findApproval (m.screen (s.ahead m first i)) (s.shots m first i) left

variable {r : Except Error Arrival}

/-- Where approval is not asked for the search leads on, and waits. -/
theorem search_on (silent : s.asking? m (s.ahead m v.device i) = none)
    (rest : Leads (m.world clock access) (s.waitUntilNot (m.screen (s.ahead m v.device i)) >>= fun next =>
      s.findApproval next (s.shots m v.device i ++ [next]) left) (s.led m v (i + 1)) r v') :
    Leads (m.world clock access) (s.searchFrom m v.device i (left + 1)) (s.led m v i) r v' := by
  have look : Leads (m.world clock access) (s.findText s.options.approveKeyword) (s.led m v i) (.ok none) _ :=
    silent ▸ leads_asking
  rw [← led_succ] at rest
  exact look.bind (leads_advance.bind rest)

theorem search_further (clear : s.Clear m v.device i)
    (rest : Leads (m.world clock access) (s.searchFrom m v.device (i + 1) left) (s.led m v (i + 1)) r v') :
    Leads (m.world clock access) (s.searchFrom m v.device i (left + 1)) (s.led m v i) r v' := by
  have changed : (m.screen (s.led m v (i + 1)).device).samePixels (m.screen (s.ahead m v.device i)) = false := by
    rw [led_device]
    exact eq_false_of_ne_true clear.changing
  refine search_on clear.silent ((leads_wait_other changed).bind ?_)
  rw [led_device, ← shots_succ]
  exact rest

/-- The input has been given, so the scene is the one behind it. -/
theorem search_stuck (passes : PassesDeadlines clock) (silent : s.asking? m (s.ahead m v.device j) = none)
    (same : j ∈ s.standstills m v.device) :
    Leads (m.world clock access) (s.searchFrom m v.device j (left + 1)) (s.led m v j)
      (.error (.screenTimeout .change s.options.screenTimeout)) (s.led m v (j + 1)) := by
  have unchanged : (m.screen (s.led m v (j + 1)).device).samePixels (m.screen (s.ahead m v.device j)) = true := by
    rw [led_device]
    exact same
  exact search_on silent (leads_wait_same passes unchanged).bind_error

/-- What nothing stops goes on. The induction is on the screens that are passed. -/
theorem search_ahead (clear : ∀ i < n, s.Clear m v.device i)
    (rest : Leads (m.world clock access) (s.searchFrom m v.device n left) (s.led m v n) r v') :
    Leads (m.world clock access) (s.searchFrom m v.device 0 (n + left)) v r v' := by
  induction n generalizing left with
  | zero =>
    rw [led_zero] at rest
    rwa [Nat.zero_add]
  | succ n ih =>
    obtain ⟨before, here⟩ := Nat.forall_lt_succ_right.mp clear
    rw [Nat.succ_add_eq_add_succ]
    exact ih before (search_further here rest)

theorem search_found (here : s.asking? m (s.ahead m v.device k) = some target) :
    Leads (m.world clock access) (s.searchFrom m v.device k (left + 1)) (s.led m v k)
      (.ok ⟨target, m.screen (s.ahead m v.device k), s.shots m v.device k⟩) (s.led m v k) := by
  have look : Leads (m.world clock access) (s.findText s.options.approveKeyword) (s.led m v k) (.ok (some target)) _ :=
    here ▸ leads_asking
  exact look.bind leads_pure

theorem leads_sleep (ms : Nat) : Leads (m.world clock access) (Work.sleep ms) v (.ok ()) v :=
  fun t => ⟨t, .ask rfl (.done _ _)⟩

theorem leads_finger (touch : Touch) (place : Device.Point) :
    Leads (m.world clock access) (s.finger touch place) v (.ok ()) (v.perform m [.finger touch place]) :=
  leads_input s.base rfl

theorem leads_hold (place : Device.Point) (ms : Nat) : Leads (m.world clock access) (s.hold place ms) v (.ok ())
    (v.perform m [.finger .press place, .finger .release place]) :=
  (leads_finger .press place).bind ((leads_sleep ms).bind
    (Scene.perform_perform m v [.finger .press place] [.finger .release place] ▸ leads_finger .release place))

theorem leads_approve (on : ¬ s.OffScreen target) :
    Leads (m.world clock access) (s.approve target) v (.ok ()) (v.perform m (s.gesture target)) := by
  unfold approve gesture
  unfold OffScreen Device.Kind.isTouch at on
  cases hlayout : s.options.device.layout? with
  | none => exact leads_input s.base rfl
  | some layout =>
    cases haction : s.options.approveAction with
    | holdConfirm => exact leads_hold layout.confirm s.options.approveHold
    | tapKeyword =>
      rw [hlayout, haction] at on
      cases hplace : target.middle? with
      | none => exact absurd ⟨rfl, rfl, hplace⟩ on
      | some place => exact leads_finger .tap place

/-- Nothing is done to the device then. -/
theorem leads_approve_offScreen (off : s.OffScreen target) :
    Leads (m.world clock access) (s.approve target) v (.error .offScreen) v := by
  obtain ⟨touch, tap, beyond⟩ := off
  obtain ⟨layout, hlayout⟩ := Option.isSome_iff_exists.mp touch
  unfold approve
  rw [hlayout, tap, beyond]
  exact leads_throw

theorem leads_check {c : Snapshot.Goldens.Check Unit} {r : Except Snapshot.Goldens.Error Unit} {files : φ}
    (h : c.on access v.files = (r, files)) :
    Leads (m.world clock access) (Work.check c) v (r.mapError Error.ofGoldens) { v with files := files } := by
  refine Leads.adapt fun t => ⟨t, ?_⟩
  have part (q : Files.Ask) (files : φ) : ∃ r, (m.world clock access).reply (.files q) ({ v with files := files }, t) =
      (some r, { v with files := (access q files).2 }, t) ∧ r = (access q files).1 := ⟨_, rfl, rfl⟩
  have held : Yields (m.world clock access) (c.run.via Ask.files (fun _ r => r) Empty.elim) (v, t) _ _ :=
    Dialogue.yields_via part c.run v.files
  have hrun : Dialogue.run access c.run v.files = (r, files) := h
  rw [hrun] at held
  exact held

/-- The first screen that asks for approval, with no standstill before it, and the first element there that does. -/
structure Found (s : Session) (m : Machine σ) (first : σ) (k : Nat) (target : Element) : Prop where
  least : IsLeast (s.approvals m first) k
  moving : ∀ j ∈ s.standstills m first, k ≤ j
  shown : s.asking? m (s.ahead m first k) = some target

def approved (s : Session) (m : Machine σ) (v : Scene σ φ) (k : Nat) (target : Element) : Scene σ φ :=
  (s.led m v k).perform m (s.gesture target)

/-- What a review comes to, and the scene that it leaves. -/
inductive Reviews (s : Session) (m : Machine σ) (access : (q : Files.Ask) → φ → Files.Reply q × φ) (env : Environment)
    (dir name : String) (v : Scene σ φ) : Except Error Unit → Scene σ φ → Prop where
  /-- Leading on stands still before approval is asked for. -/
  | unchanged {j : Nat} (least : IsLeast (s.standstills m v.device) j)
      (before : (∃ k, IsLeast (s.approvals m v.device) k ∧ j < k) ∨
        (∀ k, k ∉ s.approvals m v.device) ∧ j < s.options.maxReviewScreens) :
      Reviews s m access env dir name v (.error (.screenTimeout .change s.options.screenTimeout)) (s.led m v (j + 1))
  /-- Approval is asked for on none of the screens that may be looked at. -/
  | unfound (silent : ∀ k, k ∉ s.approvals m v.device)
      (moving : ∀ j ∈ s.standstills m v.device, s.options.maxReviewScreens ≤ j) :
      Reviews s m access env dir name v
        (.error (.approveNotFound s.options.approveKeyword s.options.maxReviewScreens))
        (s.led m v s.options.maxReviewScreens)
  /-- There is nothing that could be tapped. -/
  | offScreen {k : Nat} {target : Element} (found : s.Found m v.device k target) (off : s.OffScreen target) :
      Reviews s m access env dir name v (.error .offScreen) (s.led m v k)
  /-- The gesture changes nothing that can be seen. -/
  | staying {k : Nat} {target : Element} (found : s.Found m v.device k target) (on : ¬ s.OffScreen target)
      (same : (m.screen (s.approved m v k target).device).samePixels (m.screen (s.ahead m v.device k)) = true) :
      Reviews s m access env dir name v (.error (.screenTimeout .change s.options.screenTimeout))
        (s.approved m v k target)
  /-- The screens up to this one and the one behind the gesture are compared, and that decides. -/
  | compared {k : Nat} {target : Element} {r : Except Snapshot.Goldens.Error Unit} {files : φ}
      (found : s.Found m v.device k target) (on : ¬ s.OffScreen target)
      (other : (m.screen (s.approved m v k target).device).samePixels (m.screen (s.ahead m v.device k)) = false)
      (comparison : (Snapshot.Goldens.compare env dir name
        (s.shots m v.device k ++ [m.screen (s.approved m v k target).device])).on access v.files = (r, files)) :
      Reviews s m access env dir name v (r.mapError Error.ofGoldens) { s.approved m v k target with files := files }

section

variable {env : Environment} {dir name : String} {result : Except Error Unit}

theorem asking?_eq_none (room : i < s.options.maxReviewScreens) (quiet : i ∉ s.approvals m first) :
    s.asking? m (s.ahead m first i) = none := by
  apply List.find?_eq_none.mpr
  intro e he mentions
  exact quiet ⟨room, e, he, mentions⟩

theorem clear_before (room : n ≤ s.options.maxReviewScreens) (quiet : ∀ i < n, i ∉ s.approvals m first)
    (moving : ∀ j ∈ s.standstills m first, n ≤ j) : ∀ i < n, s.Clear m first i := by
  intro i hi
  refine ⟨asking?_eq_none (Nat.lt_of_lt_of_le hi room) (quiet i hi), ?_⟩
  intro still
  exact Nat.not_le.mpr hi (moving i still)

theorem not_mem_of_least {S : Set Nat} (least : IsLeast S k) : ∀ i < k, i ∉ S := by
  intro i hi mem
  exact Nat.not_le.mpr hi (least.2 mem)

theorem review_fails {e : Error}
    (search : Leads (m.world clock access) (s.searchFrom m v.device 0 s.options.maxReviewScreens) v (.error e) v') :
    Leads (m.world clock access) (s.reviewAndApprove env dir name) v (.error e) v' :=
  leads_snapshot.bind search.bind_error

/-- The first standstill counts if approval is not asked for up to it. -/
theorem review_unchanged (passes : PassesDeadlines clock) (least : IsLeast (s.standstills m v.device) j)
    (room : j < s.options.maxReviewScreens) (quiet : ∀ i < j + 1, i ∉ s.approvals m v.device) :
    Leads (m.world clock access) (s.reviewAndApprove env dir name) v
      (.error (.screenTimeout .change s.options.screenTimeout)) (s.led m v (j + 1)) := by
  obtain ⟨before, here⟩ := Nat.forall_lt_succ_right.mp quiet
  have clear := clear_before room.le before least.2
  apply review_fails
  obtain ⟨left, hmax⟩ := Nat.exists_eq_add_of_lt room
  rw [hmax, Nat.add_assoc]
  exact search_ahead clear (search_stuck passes (asking?_eq_none room here) least.1)

/-- As many screens as allowed have been looked at, and the last of them was left too. -/
theorem review_unfound (silent : ∀ k, k ∉ s.approvals m v.device)
    (moving : ∀ j ∈ s.standstills m v.device, s.options.maxReviewScreens ≤ j) :
    Leads (m.world clock access) (s.reviewAndApprove env dir name) v
      (.error (.approveNotFound s.options.approveKeyword s.options.maxReviewScreens))
      (s.led m v s.options.maxReviewScreens) := by
  have clear := clear_before (Nat.le_refl _) (fun i _ => silent i) moving
  have ended : Leads (m.world clock access) (s.searchFrom m v.device s.options.maxReviewScreens 0)
      (s.led m v s.options.maxReviewScreens) _ _ := leads_throw
  exact review_fails (search_ahead clear ended)

/-- What follows the search decides, from the scene in which approval is asked for. -/
theorem review_found (found : s.Found m v.device k target)
    (rest : Leads (m.world clock access)
      (s.confirm env dir name ⟨target, m.screen (s.ahead m v.device k), s.shots m v.device k⟩) (s.led m v k)
      result v') :
    Leads (m.world clock access) (s.reviewAndApprove env dir name) v result v' := by
  have room := found.least.1.1
  have clear := clear_before room.le (not_mem_of_least found.least) found.moving
  have search : Leads (m.world clock access) (s.searchFrom m v.device 0 s.options.maxReviewScreens) v
      (.ok ⟨target, m.screen (s.ahead m v.device k), s.shots m v.device k⟩) (s.led m v k) := by
    obtain ⟨left, hmax⟩ := Nat.exists_eq_add_of_lt room
    rw [hmax, Nat.add_assoc]
    exact search_ahead clear (search_found found.shown)
  exact leads_snapshot.bind (search.bind rest)

theorem Reviews.leads (passes : PassesDeadlines clock) (h : s.Reviews m access env dir name v result v') :
    Leads (m.world clock access) (s.reviewAndApprove env dir name) v result v' := by
  cases h with
  | @unchanged j least before =>
    rcases before with ⟨k, first, hjk⟩ | ⟨silent, room⟩
    · refine review_unchanged passes least (hjk.trans first.1.1) fun i hi => ?_
      exact not_mem_of_least first i (Nat.lt_of_lt_of_le hi hjk)
    · exact review_unchanged passes least room fun i _ => silent i
  | unfound silent moving => exact review_unfound silent moving
  | offScreen found off => exact review_found found (leads_approve_offScreen off).bind_error
  | staying found on same =>
    exact review_found found ((leads_approve on).bind (leads_wait_same passes same).bind_error)
  | compared found on other comparison =>
    exact review_found found ((leads_approve on).bind ((leads_wait_other other).bind (leads_check comparison)))

/-- Leading on stands still before this screen, or gets to it. -/
theorem stands_or_moves (s : Session) (m : Machine σ) (first : σ) (n : Nat) :
    (∃ j, IsLeast (s.standstills m first) j ∧ j < n) ∨ ∀ j ∈ s.standstills m first, n ≤ j := by
  classical
  by_cases still : ∃ j ∈ s.standstills m first, j < n
  · obtain ⟨j, hj, hlt⟩ := still
    have least : IsLeast (s.standstills m first) _ := Nat.isLeast_find ⟨j, hj⟩
    exact .inl ⟨_, least, Nat.lt_of_le_of_lt (least.2 hj) hlt⟩
  · refine .inr fun j hj => ?_
    by_contra hlt
    exact still ⟨j, hj, Nat.not_le.mp hlt⟩

/-- A review comes to something on every device. -/
theorem exists_reviews (s : Session) (m : Machine σ) (access : (q : Files.Ask) → φ → Files.Reply q × φ)
    (env : Environment) (dir name : String) (v : Scene σ φ) :
    ∃ result v', s.Reviews m access env dir name v result v' := by
  classical
  by_cases asked : ∃ k, k ∈ s.approvals m v.device
  case neg =>
    have silent := not_exists.mp asked
    rcases s.stands_or_moves m v.device s.options.maxReviewScreens with ⟨j, least, room⟩ | moving
    · exact ⟨_, _, .unchanged least (.inr ⟨silent, room⟩)⟩
    · exact ⟨_, _, .unfound silent moving⟩
  obtain ⟨k, least⟩ : ∃ k, IsLeast (s.approvals m v.device) k := ⟨_, Nat.isLeast_find asked⟩
  rcases s.stands_or_moves m v.device k with ⟨j, first, hjk⟩ | moving
  · exact ⟨_, _, .unchanged first (.inl ⟨k, least, hjk⟩)⟩
  obtain ⟨target, shown⟩ := Option.isSome_iff_exists.mp (List.find?_isSome.mpr least.1.2)
  have found : s.Found m v.device k target := ⟨least, moving, shown⟩
  by_cases off : s.OffScreen target
  · exact ⟨_, _, .offScreen found off⟩
  cases same : (m.screen (s.approved m v k target).device).samePixels (m.screen (s.ahead m v.device k)) with
  | true => exact ⟨_, _, .staying found off same⟩
  | false => exact ⟨_, _, .compared found off same rfl⟩

/-- The clock can go on at any rate, as long as it passes every deadline. -/
theorem Reviews.turns (passes : PassesDeadlines clock) (h : s.Reviews m access env dir name v result v') (t : Nat) :
    ∃ t' enough, ∀ n, enough ≤ n →
      Half.turns (m.world clock access) n (.ofAttempt (s.reviewAndApprove env dir name)) (v, t) =
        (result.map .settled, v', t') := by
  obtain ⟨t', yields⟩ := h.leads passes t
  exact ⟨t', Half.turns_of_yields yields⟩

/-- On every device that only changes when something is done to it the screens that lie ahead tell what a review
comes to. -/
theorem reviewAndApprove_steady (m : Machine σ) (access : (q : Files.Ask) → φ → Files.Reply q × φ)
    (passes : PassesDeadlines clock) (s : Session) (env : Environment) (dir name : String) (v : Scene σ φ) (t : Nat) :
    (∃ result v', s.Reviews m access env dir name v result v') ∧
      ∀ result v', s.Reviews m access env dir name v result v' → ∃ t' enough, ∀ n, enough ≤ n →
        Half.turns (m.world clock access) n (.ofAttempt (s.reviewAndApprove env dir name)) (v, t) =
          (result.map .settled, v', t') := by
  refine ⟨s.exists_reviews m access env dir name v, ?_⟩
  intro result v' h
  exact h.turns passes t

end

theorem passes_id : PassesDeadlines id := fun deadline t => ⟨max t deadline, Nat.le_max_left .., Nat.le_max_right ..⟩

def counter : Machine Nat where
  answer x
    | .screenshot => [UInt8.ofNat x]
    | .events =>
      match x with
      | 0 => Bytes.ofText "\x7b\"events\":[]\x7d"
      | _ + 1 => Bytes.ofText "\x7b\"events\":[\x7b\"text\":\"Approve\"\x7d]\x7d"
    | _ => []
  step x _ := x + 1
  elements
    | 0 => []
    | _ + 1 => [⟨"Approve", 0, 0, 0, 0⟩]
  legible
    | 0 => rfl
    | _ + 1 => rfl

theorem counter_found : twoButtons.Found counter 0 1 ⟨"Approve", 0, 0, 0, 0⟩ := by
  have moved : (counter.screen 1).samePixels (counter.screen 0) = false := by decide
  refine ⟨⟨⟨by decide, _, List.mem_singleton_self _, by decide⟩, ?_⟩, ?_, by decide⟩
  · rintro (_ | k) asked
    · obtain ⟨_, e, he, _⟩ := asked
      cases he
    · exact Nat.le_add_left 1 k
  · rintro (_ | j) same
    · cases moved.symm.trans same
    · exact Nat.le_add_left 1 j

/-- The three screens of a review of the device are compared. -/
theorem counter_reviewed : ∃ r files t' enough,
    (Snapshot.Goldens.compare (fun _ => none) "dir" "name" [⟨[0]⟩, ⟨[1]⟩, ⟨[2]⟩]).on (Files.Tree.reply "/tmp") {} =
      (r, files) ∧ ∀ n, enough ≤ n →
    Half.turns (counter.world id (Files.Tree.reply "/tmp")) n
      (.ofAttempt (twoButtons.reviewAndApprove (fun _ => none) "dir" "name")) (⟨0, [], {}⟩, 0) =
        ((r.mapError Error.ofGoldens).map .settled, ⟨2, [.button .right, .button .both], files⟩, t') := by
  obtain ⟨_, runs⟩ := reviewAndApprove_steady counter (Files.Tree.reply "/tmp") passes_id twoButtons (fun _ => none)
    "dir" "name" ⟨0, [], {}⟩ 0
  have on : ¬ twoButtons.OffScreen ⟨"Approve", 0, 0, 0, 0⟩ := by
    intro off
    cases off.1
  have other : (counter.screen 2).samePixels (counter.screen 1) = false := by decide
  rcases comparison : (Snapshot.Goldens.compare (fun _ => none) "dir" "name" [⟨[0]⟩, ⟨[1]⟩, ⟨[2]⟩]).on
    (Files.Tree.reply "/tmp") {} with ⟨r, files⟩
  obtain ⟨t', enough, h⟩ := runs _ _ (.compared counter_found on other comparison)
  exact ⟨r, files, t', enough, rfl, h⟩

def edge : Machine Nat where
  answer x
    | .screenshot => [UInt8.ofNat x]
    | .events =>
      Bytes.ofText "\x7b\"events\":[\x7b\"text\":\"Hold to sign\",\"x\":4294967295,\"w\":2\x7d]\x7d"
    | _ => []
  step x _ := x + 1
  elements _ := [⟨"Hold to sign", 4294967295, 0, 2, 0⟩]
  legible _ := rfl

def tapping : Session where
  options := { device := .stax, approveAction := .tapKeyword }
  base := "http://127.0.0.1:5000"

/-- Approval is asked for on the first screen, and the device is not touched. -/
theorem edge_not_approved : IsLeast (tapping.approvals edge 0) 0 ∧ ∃ t' enough, ∀ n, enough ≤ n →
    Half.turns (edge.world id (Files.Tree.reply "/tmp")) n
      (.ofAttempt (tapping.reviewAndApprove (fun _ => none) "dir" "name")) (⟨0, [], {}⟩, 0) =
        (.error .offScreen, ⟨0, [], {}⟩, t') := by
  have least : IsLeast (tapping.approvals edge 0) 0 :=
    ⟨⟨by decide, _, List.mem_singleton_self _, by decide⟩, fun k _ => Nat.zero_le k⟩
  have found : tapping.Found edge 0 0 ⟨"Hold to sign", 4294967295, 0, 2, 0⟩ :=
    ⟨least, fun j _ => Nat.zero_le j, by decide⟩
  have off : tapping.OffScreen ⟨"Hold to sign", 4294967295, 0, 2, 0⟩ := ⟨rfl, rfl, by decide⟩
  have reviews : tapping.Reviews edge (Files.Tree.reply "/tmp") (fun _ => none) "dir" "name" ⟨0, [], {}⟩ _ _ :=
    .offScreen found off
  exact ⟨least, reviews.turns passes_id 0⟩

end Session

end SignerBench.Emulator
