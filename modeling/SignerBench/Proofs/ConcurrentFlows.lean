import SignerBench.Emulator.Replica
import SignerBench.Proofs.ReviewWalk
import SignerBench.Proofs.Start
import SignerBench.Proofs.Turns
import SignerBench.Suite.Flows

namespace SignerBench.Suite

open Dialogue Emulator

variable {s : Session} {log : WorkLog} {env : Environment} {dir name : String} {home : Snapshot}
  {awaited : Option String} {α : Type}

/-- The calls of a log post these commands, and the responses of the emulator hold their answers. -/
def Exchanges (s : Session) (log : WorkLog)
    (exchanges : Log Apdu.Command (fun _ => Except Emulator.Error Apdu.Answer) Empty) : Prop :=
  List.Forall₂ (Heard (fun c => Ask.call s.base (.apdu c.bytes)) (readExchange s.base) Empty.elim) log exchanges

theorem closed_app {request : App.Link Emulator.Error α} : (ofApp (s.app request)).Closed :=
  Attempt.Closed.adapt (closed_via (closed_of_talk request.run))

/-- A value of the app comes from responses that hold answers of the device. -/
theorem app_gives {request : App.Link Emulator.Error α} {v : α} (h : (ofApp (s.app request)).Gives log v) :
    ∃ exchanges, Exchanges s log exchanges ∧ request.Gives exchanges v := by
  obtain ⟨exchanges, e, hheard, he, hgoes⟩ := goes_via (Attempt.gives_adapt h)
  cases e with
  | value r => cases he; exact ⟨exchanges, hheard, hgoes⟩
  | going | again => cases he

/-- A check of snapshots, and what it has asked of the files. -/
def Accepts (c : Snapshot.Goldens.Check Unit) (log : WorkLog) : Prop :=
  ∃ accesses, List.Forall₂ (Heard Ask.files (fun _ r => r) Empty.elim) log accesses ∧ c.Gives accesses ()

/-- A check that passes has asked for files, and the replies are those that it accepts. -/
theorem check_gives {c : Snapshot.Goldens.Check Unit} (h : (Work.check c).Gives log ()) : Accepts c log := by
  obtain ⟨accesses, e, hheard, he, hgoes⟩ := goes_via (Attempt.gives_adapt h)
  cases e with
  | value r => cases he; exact ⟨accesses, hheard, hgoes⟩
  | going | again => cases he

/-- The log of a review that was approved: the home screen was left, the awaited text was shown, the approve keyword
was found, there was one gesture, and the goldens agree with what was captured. -/
inductive Approved (s : Session) (home : Snapshot) (env : Environment) (dir name : String)
    (awaited : Option String) : WorkLog → Prop
  | mk {leave wait search approval behind files : WorkLog} {other : Snapshot} {n : Nat} {target : Element}
      {snapshots : List Snapshot} (leaves : ∀ ev ∈ leave, Looks ev) (left : s.Captures leave other)
      (differs : other.samePixels home = false) (waits : ∀ ev ∈ wait, Looks ev)
      (shown : ∀ text, awaited = some text → ∃ element, s.Shows wait text element)
      (arrives : s.Arrives search n target) (approves : s.Approves target approval)
      (looks : ∀ ev ∈ behind, Looks ev) (captured : Session.Captured (search ++ behind) n snapshots)
      (accepts : Accepts (Snapshot.Goldens.compare env dir name snapshots) files) :
      Approved s home env dir name awaited
        (leave ++ (wait ++ (search ++ (approval ++ (behind ++ files)))))

def awaitText (s : Session) : Option String → Part Unit
  | some text => ofWork (s.waitForText text)
  | none => pure ()

/-- With a home screen a review has three parts. -/
theorem review_eq (h : s.mainMenu = some home) : review s env dir name awaited = (do
    discard (ofWork (s.waitUntilNot home))
    awaitText s awaited
    ofWork (s.reviewAndApprove env dir name)) := by
  unfold review
  rw [h]
  cases awaited <;> rfl

theorem closed_awaitText : (awaitText s awaited).Closed := by
  cases awaited with
  | none => trivial
  | some text => exact Session.closed_waitForText.adapt

theorem closed_review : (review s env dir name awaited).Closed := by
  cases h : s.mainMenu with
  | none =>
    unfold review
    rw [h]
    trivial
  | some home =>
    rw [review_eq h]
    exact (Session.closed_waitUntilNot.adapt.discard).bind fun _ =>
      closed_awaitText.bind fun _ => Session.closed_reviewAndApprove.adapt

/-- Where no text is awaited nothing is asked. -/
theorem awaitText_gives (h : (awaitText s awaited).Gives log ()) :
    (∀ ev ∈ log, Looks ev) ∧ ∀ text, awaited = some text → ∃ element, s.Shows log text element := by
  cases awaited with
  | none =>
    obtain ⟨rfl, _⟩ := Attempt.gives_pure.mp h
    exact ⟨nofun, nofun⟩
  | some text =>
    obtain ⟨hlooks, element, hshows⟩ := Session.waitForText_gives (Attempt.gives_adapt h)
    exact ⟨hlooks, fun _ h => by cases h; exact ⟨element, hshows⟩⟩

theorem awaitText_fails {e : Error} (h : (awaitText s awaited).Fails log e) : ∃ cause, e = .emulator cause := by
  cases awaited with
  | none => exact absurd h Attempt.fails_pure
  | some text =>
    obtain ⟨cause, _, he⟩ := Attempt.fails_adapt h
    exact ⟨cause, he⟩

/-- A review that comes to its end has been approved. -/
theorem review_gives (h : s.mainMenu = some home) (hg : (review s env dir name awaited).Gives log ()) :
    Approved s home env dir name awaited log := by
  rw [review_eq h] at hg
  obtain ⟨_, leave, _, rfl, hleave, hg⟩ := Attempt.gives_bind (.inr fun _ =>
    closed_awaitText.bind fun _ => Session.closed_reviewAndApprove.adapt) hg
  obtain ⟨_, wait, walk, rfl, hwait, hwalk⟩ :=
    Attempt.gives_bind (.inr fun _ => Session.closed_reviewAndApprove.adapt) hg
  obtain ⟨other, hother, _⟩ := Attempt.gives_map hleave
  obtain ⟨hlooks, ended | ⟨snap, hsnap, hcaptures, hdiffers⟩⟩ :=
    Session.waitUntilNot_brokenOff (Attempt.gives_adapt hother)
  · exact absurd ended Session.BrokenOff.not_ok
  · cases hsnap
    obtain ⟨hwaits, hshown⟩ := awaitText_gives hwait
    cases Session.reviewAndApprove_ends (Attempt.gives_adapt hwalk) with
    | searching search bound ended => exact absurd ended Session.BrokenOff.not_ok
    | approving arrives begun noFiles ended => exact absurd ended Session.BrokenOff.not_ok
    | leaving arrives approves looks ended => exact absurd ended Session.BrokenOff.not_ok
    | comparing arrives approves looks captured check =>
      exact .mk hlooks hcaptures hdiffers hwaits hshown arrives approves looks captured (check_gives check)

/-- A review that has a home screen fails only by the emulator. -/
theorem review_fails {e : Error} (h : s.mainMenu = some home) (hf : (review s env dir name awaited).Fails log e) :
    ∃ cause, e = .emulator cause := by
  rw [review_eq h] at hf
  rcases Attempt.fails_bind (.inr fun _ => closed_awaitText.bind fun _ => Session.closed_reviewAndApprove.adapt) hf
    with hf | ⟨_, _, _, _, _, hf⟩
  · obtain ⟨cause, _, he⟩ := Attempt.fails_adapt (Attempt.fails_map hf)
    exact ⟨cause, he⟩
  · rcases Attempt.fails_bind (.inr fun _ => Session.closed_reviewAndApprove.adapt) hf with
      hf | ⟨_, _, _, _, _, hf⟩
    · exact awaitText_fails hf
    · obtain ⟨cause, _, he⟩ := Attempt.fails_adapt hf
      exact ⟨cause, he⟩

/-- The failures of the request are told apart from those of the review. -/
theorem app_fails {request : App.Link Emulator.Error α} {e : Error}
    (h : (ofApp (s.app request)).Fails log e) : ∃ cause, e = .app cause := by
  obtain ⟨cause, _, he⟩ := Attempt.fails_adapt h
  exact ⟨cause, he⟩

def Blames : Side → Error → Prop
  | .left, e => ∃ cause, e = .app cause
  | .right, e => ∃ cause, e = .emulator cause

/-- What can be relied on when a request is reviewed while it is under way, in any world and any order of turns. -/
structure Reliable (s : Session) (home : Snapshot) (env : Environment) (dir name : String)
    (awaited : Option String) (request : App.Link Emulator.Error α) (f : Flow α) : Prop where
  /-- A result has been approved. -/
  approved {σ : Type} {w : World Ask Reply Nat σ} {st st' : σ} {schedule : List Side} {j : Flow α} {v : α}
    (run : f.run w st schedule = (.ok j, st')) (outcome : j.outcome? = some (v, ())) :
    Approved s home env dir name awaited (f.log w .right st schedule)
  /-- A result is what the app's answers make of the request. -/
  answered {σ : Type} {w : World Ask Reply Nat σ} {st st' : σ} {schedule : List Side} {j : Flow α} {v : α}
    (run : f.run w st schedule = (.ok j, st')) (outcome : j.outcome? = some (v, ())) :
    ∃ exchanges, Exchanges s (f.log w .left st schedule) exchanges ∧ request.Gives exchanges v
  /-- A flow fails with the failure of the half whose turn it is. -/
  failure {σ : Type} {w : World Ask Reply Nat σ} {st st' : σ} {schedule : List Side} {e : Error}
    (run : f.run w st schedule = (.error e, st')) :
    ∃ first side rest j st'', schedule = first ++ side :: rest ∧ f.run w st first = (.ok j, st'') ∧
      j.Failed side e ∧ Blames side e
  /-- A half that has failed ends the flow at its next turn, and until then there is no result. -/
  fails {σ : Type} {w : World Ask Reply Nat σ} {st st' : σ} {schedule : List Side} {j : Flow α} {side : Side}
    {e : Error} (run : f.run w st schedule = (.ok j, st')) (failed : j.Failed side e) :
    Blames side e ∧ f.run w st (schedule ++ [side]) = (.error e, st') ∧
      ∀ rest j' st'', f.run w st (schedule ++ rest) = (.ok j', st'') → side ∉ rest ∧ j'.outcome? = none
  /-- Nothing comes of a device that stays on its home screen. -/
  atHome {σ : Type} {w : World Ask Reply Nat σ} {st st' : σ} {schedule : List Side} {j : Flow α}
    (run : f.run w st schedule = (.ok j, st'))
    (stays : ∀ snap ∈ captures (f.log w .right st schedule), snap.samePixels home = true) : j.outcome? = none
  /-- Nothing comes of a device that never asks for approval. -/
  unasked {σ : Type} {w : World Ask Reply Nat σ} {st st' : σ} {schedule : List Side} {j : Flow α}
    (run : f.run w st schedule = (.ok j, st'))
    (never : ∀ shown rest target, f.log w .right st schedule = shown ++ rest →
      ¬ s.Shows shown s.options.approveKeyword target) : j.outcome? = none

/-- No review is approved while the device shows its home screen all the time. -/
theorem Approved.left_home (h : Approved s home env dir name awaited log) :
    ∃ snap ∈ captures log, snap.samePixels home = false := by
  cases h with
  | mk leaves left differs =>
    refine ⟨_, ?_, differs⟩
    rw [captures_append]
    exact List.mem_append_left _ (left.sublist.subset (List.mem_singleton_self _))

/-- The approve keyword has been seen before the gesture. -/
theorem Approved.asked (h : Approved s home env dir name awaited log) :
    ∃ shown rest target, log = shown ++ rest ∧ s.Shows shown s.options.approveKeyword target := by
  cases h with
  | @mk leave wait search approval behind files other n target snapshots _ _ _ _ _ arrives =>
    refine ⟨leave ++ (wait ++ search), approval ++ (behind ++ files), target, by simp, ?_⟩
    exact (arrives.shows.behind wait).behind leave

/-- The log of a half that has come to a value. -/
theorem gives_of_comes {x : Part α} {v : α} (closed : x.Closed)
    (hc : Half.Comes (Dialogue.start x.run) log (.settled v)) : x.Gives log v := by
  cases hc with
  | settled trail ended => exact (trail.start_follows closed).2 _ ended

/-- The log of a half that has failed. -/
theorem fails_of_comes {x : Part α} {e : Error} {h : Half Ask Reply Nat Error α} (closed : x.Closed)
    (hc : Half.Comes (Dialogue.start x.run) log h) (hf : h.Failed e) : x.Fails log e := by
  obtain ⟨p, rfl, hp⟩ := hf
  cases hc with
  | going trail => exact (trail.start_follows closed).2 _ hp

/-- The logs of both halves, wherever a flow stands. -/
theorem comes_flow {request : Part α} {review : Part Unit} {σ : Type} {w : World Ask Reply Nat σ} {st st' : σ}
    {schedule : List Side} {j : Flow α} (run : (flow request review).run w st schedule = (.ok j, st')) :
    Half.Comes (Dialogue.start request.run) ((flow request review).log w .left st schedule) j.left ∧
      Half.Comes (Dialogue.start review.run) ((flow request review).log w .right st schedule) j.right := by
  have starts : Half.Comes (Dialogue.start request.run) [] ((flow request review).half .left) := .going (.here _)
  have starts' : Half.Comes (Dialogue.start review.run) [] ((flow request review).half .right) := .going (.here _)
  exact ⟨Joint.comes_run .left starts run, Joint.comes_run .right starts' run⟩

/-- There is an outcome only when both halves have come to their values. -/
theorem settled_of_outcome {j : Flow α} {v : α} (h : j.outcome? = some (v, ())) :
    j.left = .settled v ∧ j.right = .settled () := by
  unfold Joint.outcome? at h
  cases hl : j.left with
  | going p => rw [hl] at h; cases h
  | settled a =>
    cases hr : j.right with
    | going p => rw [hl, hr] at h; cases h
    | settled b => rw [hl, hr] at h; cases h; exact ⟨rfl, rfl⟩

def reviewed (s : Session) (env : Environment) (dir name : String) (awaited : Option String)
    (request : App.Link Emulator.Error α) : Flow α :=
  flow (ofApp (s.app request)) (review s env dir name awaited)

variable {request : App.Link Emulator.Error α} {σ : Type} {w : World Ask Reply Nat σ} {st st' : σ}
  {schedule : List Side} {j : Flow α} {v : α} {e : Error} {side : Side}

/-- An outcome is approved, and is what the app made of its answers. Neither the world nor the order of turns is
restricted. -/
theorem reviewed_outcome (h : s.mainMenu = some home)
    (run : (reviewed s env dir name awaited request).run w st schedule = (.ok j, st'))
    (outcome : j.outcome? = some (v, ())) :
    Approved s home env dir name awaited ((reviewed s env dir name awaited request).log w .right st schedule) ∧
      ∃ exchanges, Exchanges s ((reviewed s env dir name awaited request).log w .left st schedule) exchanges ∧
        request.Gives exchanges v := by
  obtain ⟨hleft, hright⟩ := comes_flow run
  obtain ⟨hl, hr⟩ := settled_of_outcome outcome
  rw [hl] at hleft
  rw [hr] at hright
  exact ⟨review_gives h (gives_of_comes closed_review hright), app_gives (gives_of_comes closed_app hleft)⟩

/-- A half that has failed tells a failure of its own kind. -/
theorem reviewed_blames (h : s.mainMenu = some home)
    (run : (reviewed s env dir name awaited request).run w st schedule = (.ok j, st'))
    (failed : j.Failed side e) : Blames side e := by
  obtain ⟨hleft, hright⟩ := comes_flow run
  cases side with
  | left => exact app_fails (fails_of_comes closed_app hleft failed)
  | right => exact review_fails h (fails_of_comes closed_review hright failed)

theorem no_outcome (h : ∀ v, j.outcome? ≠ some (v, ())) : j.outcome? = none := by
  cases ho : j.outcome? with
  | none => rfl
  | some values => exact absurd ho (h values.1)

/-- Each part follows from the logs of the two halves, which are those that they would have by themselves. -/
theorem reviewed_reliable (h : s.mainMenu = some home) (request : App.Link Emulator.Error α) :
    Reliable s home env dir name awaited request (reviewed s env dir name awaited request) where
  approved run outcome := (reviewed_outcome h run outcome).1
  answered run outcome := (reviewed_outcome h run outcome).2
  failure run := by
    obtain ⟨first, side, rest, j, st'', hschedule, hrun, hfailed⟩ := Joint.run_error run
    exact ⟨first, side, rest, j, st'', hschedule, hrun, hfailed, reviewed_blames h hrun hfailed⟩
  fails run failed := by
    refine ⟨reviewed_blames h run failed, ?_, fun rest j' st'' hrun => ?_⟩
    · rw [Joint.run_append run, Joint.run_of_failure failed.turn]
    · rw [Joint.run_append run] at hrun
      obtain ⟨hside, hfailed⟩ := failed.run hrun
      exact ⟨hside, hfailed.not_outcome⟩
  atHome run stays := by
    refine no_outcome fun v outcome => ?_
    obtain ⟨snap, hsnap, hdiffers⟩ := (reviewed_outcome h run outcome).1.left_home
    rw [stays snap hsnap] at hdiffers
    cases hdiffers
  unasked run never := by
    refine no_outcome fun v outcome => ?_
    obtain ⟨shown, rest, target, hlog, hshows⟩ := (reviewed_outcome h run outcome).1.asked
    exact never shown rest target hlog hshows

/-- The flows of a session give no result that has not been approved, and none but what the app has answered. -/
theorem flows_reliable (ready : s.Ready) : ∃ home, s.mainMenu = some home ∧
    (∀ env dir path index name, Reliable s home env dir name none (App.showAddress path index)
      (showAddressAndApprove s env dir path index name)) ∧
    ∀ env dir path blob metadata name awaited, Reliable s home env dir name awaited
      (App.sign path blob metadata) (signAndApprove s env dir path blob metadata name awaited) := by
  obtain ⟨home, h⟩ := ready.mainMenu
  exact ⟨home, h, fun _ _ _ _ _ => reviewed_reliable h _, fun _ _ _ _ _ _ _ => reviewed_reliable h _⟩

def attached : Session where
  options := {}
  base := "http://127.0.0.1:5000"
  mainMenu := some ⟨[7]⟩

def attachLog : WorkLog :=
  [.asked .now (0 : Nat),
    .asked (.call attached.base .events) (.body (Bytes.ofText "\x7b\"events\":[]\x7d")),
    .asked (.call attached.base .events)
      (.body (Bytes.ofText "\x7b\"events\":[\x7b\"text\":\"Penumbra ready\"\x7d]\x7d")),
    .asked (.call attached.base .screenshot) (.body [7])]

theorem attached_ready : attached.Ready := by
  have hattach : Trail (Dialogue.start (Session.attach "http://127.0.0.1:5000" {}).run) attachLog _ :=
    .ask _ rfl (.ask _ rfl (.ask _ rfl (.ask _ rfl (.here _))))
  exact .inl ⟨_, _, attachLog, (hattach.start_follows Session.closed_waitReady).2 _ rfl⟩

def screenOf (text : String) (png : Bytes) : Replica.Screen where
  events := Bytes.ofText ("\x7b\"events\":[\x7b\"text\":\"" ++ text ++ "\"\x7d]\x7d")
  png := png

def answerOf (data : Bytes) : Replica.ApduAnswer where
  content := Bytes.ofText ("\x7b\"data\":\"" ++ Hex.encode data ++ "9000\"\x7d")

def effectHash : Bytes := List.replicate 64 1

def spendAuth : Bytes := List.replicate 64 2

/-- A device that asks for approval on its second screen, and holds the answer to the last piece of a plan back until
then. The plan spends once. -/
def asking : Replica where
  screens := [screenOf "Penumbra ready" [7], screenOf "Review" [8],
    { screenOf "Approve" [9] with leads := [("both", 3)] }, screenOf "Signed" [10]]
  answers := [answerOf [],
    { answerOf (effectHash ++ [1, 0, 0, 0, 0, 0]) with leadsTo := some 1, heldUntil := some 3 }, answerOf spendAuth]

def updating : Environment := fun name => if name = "UPDATE_SNAPSHOTS" then some "1" else none

def signing : Flow App.SignedPlan :=
  signAndApprove attached updating "dir" (.forAccount 0) [1, 2, 3] [] "name" (some "Review")

def thirtyTurns : List Side := (List.replicate 30 [Side.left, .right]).flatten

def spendAuthsOf : Except Error (Flow App.SignedPlan) → Option (List Bytes)
  | .ok j => j.outcome?.map fun (plan, _) => plan.spendAuths.map (·.val)
  | .error _ => none

/-- Signatures are found only where a flow has come to an outcome. -/
theorem outcome_of_spendAuths {r : Except Error (Flow App.SignedPlan)} {auths : List Bytes}
    (h : spendAuthsOf r = some auths) :
    ∃ j plan, r = .ok j ∧ j.outcome? = some (plan, ()) ∧ plan.spendAuths.map (·.val) = auths := by
  cases r with
  | error e => cases h
  | ok j =>
    obtain ⟨⟨plan, _⟩, houtcome, hauths⟩ := Option.map_eq_some_iff.mp h
    exact ⟨j, plan, rfl, houtcome, hauths⟩

set_option maxRecDepth 100000 in
/-- The flow runs with the device until both halves have come to their ends. -/
theorem signing_gives : spendAuthsOf (signing.run Replica.world asking thirtyTurns).1 = some [spendAuth] := by
  decide +kernel

/-- Of a plan that spends once there comes one signature, which has been reviewed and approved. -/
theorem attached_flows_reliable : attached.Ready ∧ ∃ home, attached.mainMenu = some home ∧
    ∃ j plan asked, signing.run Replica.world asking thirtyTurns = (.ok j, asked) ∧ j.outcome? = some (plan, ()) ∧
      plan.spendAuths.map (·.val) = [spendAuth] ∧
      Approved attached home updating "dir" "name" (some "Review")
        (signing.log Replica.world .right asking thirtyTurns) ∧
      ∃ exchanges, Exchanges attached (signing.log Replica.world .left asking thirtyTurns) exchanges ∧
        (App.sign (.forAccount 0) [1, 2, 3] []).Gives exchanges plan := by
  obtain ⟨home, hmenu, _, hsign⟩ := flows_reliable attached_ready
  have reliable := hsign updating "dir" (.forAccount 0) [1, 2, 3] [] "name" (some "Review")
  obtain ⟨j, plan, hok, houtcome, hauths⟩ := outcome_of_spendAuths signing_gives
  have hrun : signing.run Replica.world asking thirtyTurns = (.ok j, _) := Prod.ext hok rfl
  exact ⟨attached_ready, home, hmenu, j, plan, _, hrun, houtcome, hauths, reliable.approved hrun houtcome,
    reliable.answered hrun houtcome⟩

end SignerBench.Suite
