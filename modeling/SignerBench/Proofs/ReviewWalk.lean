import Mathlib.Data.List.Chain
import SignerBench.Proofs.Acts
import SignerBench.Proofs.SamePixels

namespace SignerBench.Emulator

open Dialogue

def captures (log : WorkLog) : List Snapshot :=
  log.filterMap fun
    | .asked (.call _ .screenshot) (.body content) => some ⟨content⟩
    | _ => none

@[simp] theorem captures_append (l l' : WorkLog) : captures (l ++ l') = captures l ++ captures l' :=
  List.filterMap_append

/-- A check of snapshots asks for nothing but files, however far it comes. -/
theorem Work.check_begins {c : Snapshot.Goldens.Check Unit} {log : WorkLog} (h : (Work.check c).Begins log) :
    ∀ ev ∈ log, AsksFiles ev := by
  obtain ⟨inner, e, hheard, _, _⟩ := goes_via (Attempt.begins_adapt h)
  intro ev hev
  rcases heard_mem hheard ev hev with ⟨q, r, rfl⟩ | ⟨p, _⟩
  · trivial
  · exact p.elim

theorem requests_of_files {log : WorkLog} (h : ∀ ev ∈ log, AsksFiles ev) : requests log = [] := by
  refine List.filterMap_eq_nil_iff.mpr fun ev hev => ?_
  have hfiles := h ev hev
  match ev with
  | .asked (.files _) _ => rfl
  | .asked (.call _ _) _ => exact hfiles.elim

namespace Session

variable {s : Session} {log : WorkLog} {env : Environment} {dir name : String}

def advanceCall (s : Session) : Call :=
  match s.options.device.layout? with
  | some layout => .finger .tap layout.next
  | none => .button .right

/-- What approves on the screen with an element. There is nothing to be done if the element lies off the screen. -/
def gesture (s : Session) (target : Element) : List Call :=
  match s.options.device.layout?, s.options.approveAction with
  | none, _ => [.button .both]
  | some layout, .holdConfirm => [.finger .press layout.confirm, .finger .release layout.confirm]
  | some _, .tapKeyword => (target.middle?.map (.finger .tap)).toList

theorem advance_eq : s.advance = discard (Work.call s.base s.advanceCall) := by
  unfold advance advanceCall
  cases s.options.device.layout? <;> rfl

theorem advanceCall_isInput : s.advanceCall.isInput = true := by
  unfold advanceCall
  cases s.options.device.layout? <;> rfl

/-- A part of a walk that leads on so many times, and otherwise only looks. -/
def Searches (s : Session) (log : WorkLog) (n : Nat) : Prop :=
  inputs log = List.replicate n s.advanceCall ∧ ∀ ev ∈ log, ¬ AsksFiles ev

/-- Looking only is a search that does not lead on. -/
theorem searches_of_looks (h : ∀ ev ∈ log, Looks ev) : s.Searches log 0 :=
  ⟨inputs_of_looks h, fun ev hev => (h ev hev).not_files⟩

/-- The request that leads on counts whatever is answered to it. -/
theorem searches_advance {r : Reply (.call s.base s.advanceCall)} :
    s.Searches [.asked (.call s.base s.advanceCall) r] 1 := by
  refine ⟨?_, fun ev hev => ?_⟩
  · simp [inputs, requests, advanceCall_isInput]
  · cases List.mem_singleton.mp hev
    exact id

/-- Parts of a walk lead on as often together as one after the other. -/
theorem Searches.append {log' : WorkLog} {n m : Nat} (h : s.Searches log n) (h' : s.Searches log' m) :
    s.Searches (log ++ log') (n + m) := by
  refine ⟨?_, fun ev hev => ?_⟩
  · rw [inputs_append, h.1, h'.1, List.replicate_append_replicate]
  · rcases List.mem_append.mp hev with hev | hev
    · exact h.2 ev hev
    · exact h'.2 ev hev

theorem Searches.beforeSearch {log' : WorkLog} {n : Nat} (h : s.Searches log 0) (h' : s.Searches log' n) :
    s.Searches (log ++ log') n := by
  have hboth := h.append h'
  rwa [Nat.zero_add] at hboth

def BrokenOff {α : Type} (ending : Ending Nat (Except Error α)) : Prop :=
  ending = .going ∨
    ∃ e, ending = .value (.error e) ∧ ∀ keyword screens, e ≠ .approveNotFound keyword screens

theorem BrokenOff.going {α : Type} : BrokenOff (.going : Ending Nat (Except Error α)) := .inl rfl

theorem BrokenOff.api {α : Type} {cause : ApiFault} :
    BrokenOff (.value (.error (.api cause)) : Ending Nat (Except Error α)) :=
  .inr ⟨_, rfl, fun _ _ h => nomatch h⟩

theorem BrokenOff.not_ok {α : Type} {a : α} : ¬ BrokenOff (.value (.ok a)) := by
  rintro (h | ⟨e, h, _⟩) <;> cases h

/-- A part that is broken off never claims that no screen asks for approval. -/
theorem BrokenOff.not_unfound {α : Type} {keyword : String} {screens : Nat} :
    ¬ BrokenOff (.value (.error (.approveNotFound keyword screens)) : Ending Nat (Except Error α)) := by
  rintro (h | ⟨e, h, he⟩) <;> cases h
  exact he _ _ rfl

theorem BrokenOff.passed {α β : Type} {e : Error}
    (h : BrokenOff (.value (.error e) : Ending Nat (Except Error α))) :
    BrokenOff (.value (.error e) : Ending Nat (Except Error β)) := by
  rcases h with h | ⟨e, h, he⟩ <;> cases h
  exact .inr ⟨e, rfl, he⟩

/-- The snapshots of a part of a walk, each of them taken after the screen had become another one. -/
structure Passes (current : Snapshot) (log : WorkLog) (more : List Snapshot) (screen : Snapshot) : Prop where
  differ : (current :: more).IsChain fun a b => a.samePixels b = false
  last : (current :: more).getLast? = some screen
  captured : more.Sublist (captures log)

inductive SearchEnds (s : Session) (current : Snapshot) (taken : List Snapshot) (left : Nat) :
    WorkLog → Ending Nat (Except Error Arrival) → Prop
  | brokenOff {log : WorkLog} {n : Nat} {ending : Ending Nat (Except Error Arrival)} (search : s.Searches log n)
      (bound : n ≤ left) (ended : BrokenOff ending) : SearchEnds s current taken left log ending
  | unfound {log : WorkLog} (search : s.Searches log left) :
      SearchEnds s current taken left log
        (.value (.error (.approveNotFound s.options.approveKeyword s.options.maxReviewScreens)))
  | found {log : WorkLog} {n : Nat} {target : Element} {screen : Snapshot} {more : List Snapshot}
      (search : s.Searches log n) (bound : n < left) (shows : s.Shows log s.options.approveKeyword target)
      (count : more.length = n) (passes : Passes current log more screen) :
      SearchEnds s current taken left log (.value (.ok ⟨target, screen, taken ++ more⟩))

/-- One screen further on, the search of the screens behind it is a search from here. -/
theorem SearchEnds.behind {current next : Snapshot} {taken : List Snapshot} {left : Nat} {front : WorkLog}
    {ending : Ending Nat (Except Error Arrival)} (h : s.SearchEnds next (taken ++ [next]) left log ending)
    (step : s.Searches front 1) (captured : [next].Sublist (captures front))
    (differs : next.samePixels current = false) : s.SearchEnds current taken (left + 1) (front ++ log) ending := by
  cases h with
  | brokenOff search bound ended => exact .brokenOff (step.append search) (by omega) ended
  | unfound search => exact .unfound (Nat.add_comm 1 left ▸ step.append search)
  | @found n target screen more search bound shows count passes =>
    have differ : (current :: next :: more).IsChain fun a b => a.samePixels b = false :=
      List.isChain_cons_cons.mpr ⟨Snapshot.samePixels_comm next current ▸ differs, passes.differ⟩
    have hcaptured : (next :: more).Sublist (captures (front ++ log)) := by
      rw [captures_append]
      exact captured.append passes.captured
    rw [List.append_assoc, List.singleton_append]
    exact .found (step.append search) (by omega) (shows.behind front) (by rw [List.length_cons]; omega)
      ⟨differ, by rw [List.getLast?_cons_cons]; exact passes.last, hcaptured⟩

/-- An advance that is answered has led on once. One that fails may or may not have reached the device. -/
theorem advance_ends {ending : Ending Nat (Except Error Unit)} (h : Goes s.advance.run log ending) :
    (s.Searches log 1 ∧ ending = .value (.ok ())) ∨ BrokenOff ending ∧ ∃ n ≤ 1, s.Searches log n := by
  rw [advance_eq] at h
  have hbegun (tried : s.Tried [.call s.advanceCall] log) : ∃ n ≤ 1, s.Searches log n := by
    cases tried with
    | none => exact ⟨0, Nat.zero_le 1, searches_of_looks fun _ h => nomatch h⟩
    | call tail =>
      cases tail
      exact ⟨1, Nat.le_refl 1, searches_advance⟩
  cases (doAct_ends h : s.ActsEnd [.call s.advanceCall] log ending) with
  | done performed =>
    cases performed with
    | call tail =>
      cases tail
      exact .inl ⟨searches_advance, rfl⟩
  | refused refused =>
    obtain ⟨cause, rfl⟩ := refused.api
    exact .inr ⟨.api, hbegun refused.tried⟩
  | going tried => exact .inr ⟨.going, hbegun tried⟩

theorem closed_advance : s.advance.Closed := by
  rw [advance_eq]
  exact closed_act

theorem closed_findApproval {current : Snapshot} {taken : List Snapshot} {left : Nat} :
    (s.findApproval current taken left).Closed := by
  induction left generalizing current taken with
  | zero => trivial
  | succ left ih =>
    refine Attempt.Closed.bind (Attempt.Closed.bind ?_ fun _ => trivial) fun found => ?_
    · exact Attempt.Closed.bind Attempt.closed_demand fun _ => trivial
    · cases found with
      | some target => trivial
      | none => exact closed_advance.bind fun _ => closed_waitUntilNot.bind fun next => ih

/-- A wait gives a snapshot only if it differs from the reference. Else it is under way or has failed in some way of its
own. -/
theorem waitUntilNot_brokenOff {reference : Snapshot} {ending : Ending Nat (Except Error Snapshot)}
    (h : Goes (s.waitUntilNot reference).run log ending) :
    (∀ ev ∈ log, Looks ev) ∧ (BrokenOff ending ∨
      ∃ snap, ending = .value (.ok snap) ∧ s.Captures log snap ∧ snap.samePixels reference = false) := by
  obtain ⟨hlooks, rfl | ⟨snap, hsnap⟩ | ⟨limit, rfl⟩ | ⟨cause, rfl⟩⟩ := waitUntilNot_ends h
  · exact ⟨hlooks, .inl .going⟩
  · exact ⟨hlooks, .inr ⟨snap, hsnap⟩⟩
  · exact ⟨hlooks, .inl (.inr ⟨_, rfl, fun _ _ h => nomatch h⟩)⟩
  · exact ⟨hlooks, .inl .api⟩

theorem Captures.sublist {snap : Snapshot} (h : s.Captures log snap) : [snap].Sublist (captures log) := by
  obtain ⟨front, rfl⟩ := h
  rw [captures_append]
  exact List.sublist_append_right ..

theorem SearchEnds.afterLook {current : Snapshot} {taken : List Snapshot} {left : Nat} {front : WorkLog}
    {ending : Ending Nat (Except Error Arrival)} (h : s.SearchEnds current taken left log ending)
    (look : s.Searches front 0) : s.SearchEnds current taken left (front ++ log) ending := by
  cases h with
  | brokenOff search bound ended => exact .brokenOff (look.beforeSearch search) bound ended
  | unfound search => exact .unfound (look.beforeSearch search)
  | found search bound shows count passes =>
    have hcaptured := passes.captured.trans (List.sublist_append_right (captures front) _)
    rw [← captures_append] at hcaptured
    exact .found (look.beforeSearch search) bound (shows.behind front) count
      ⟨passes.differ, passes.last, hcaptured⟩

/-- Looking for a text leaves the device alone. -/
theorem findText_searches {wanted : String} (h : (s.findText wanted).Begins log) : s.Searches log 0 :=
  searches_of_looks (looks_of_asked (.inl rfl) (findText_begins h))

theorem findText_brokenOff {α : Type} {wanted : String} {e : Error} (h : (s.findText wanted).Fails log e) :
    BrokenOff (.value (.error e) : Ending Nat (Except Error α)) := by
  obtain ⟨r, _, refused⟩ := findText_fails h
  rcases refused.cause with ⟨cause, rfl⟩ | ⟨cause, rfl⟩
  · exact .api
  · exact .inr ⟨_, rfl, fun _ _ h => nomatch h⟩

def walkOn (s : Session) (current : Snapshot) (taken : List Snapshot) (left : Nat) : Work Arrival := do
  s.advance
  let next ← s.waitUntilNot current
  s.findApproval next (taken ++ [next]) left

theorem closed_walkOn {current : Snapshot} {taken : List Snapshot} {left : Nat} :
    (s.walkOn current taken left).Closed :=
  closed_advance.bind fun _ => closed_waitUntilNot.bind fun _ => closed_findApproval

/-- One screen further on. The search from the next screen is assumed to end as it should. -/
theorem walkOn_ends {current : Snapshot} {taken : List Snapshot} {left : Nat}
    {ending : Ending Nat (Except Error Arrival)}
    (search : ∀ {next log ending}, Goes (s.findApproval next (taken ++ [next]) left).run log ending →
      s.SearchEnds next (taken ++ [next]) left log ending)
    (h : Goes (s.walkOn current taken left).run log ending) : s.SearchEnds current taken (left + 1) log ending := by
  rcases Attempt.bind_cases (.inr fun _ => closed_waitUntilNot.bind fun _ => closed_findApproval) h with
    ⟨_, step, rest, rfl, ha, hw⟩ | ⟨e, rfl, ha⟩ | ⟨rfl, ha⟩ | ⟨p, rfl, ha⟩
  · obtain ⟨hstep, _⟩ := (advance_ends ha).resolve_right fun ended => BrokenOff.not_ok ended.1
    rcases Attempt.bind_cases (.inr fun _ => closed_findApproval) hw with
      ⟨next, wait, rest, rfl, hn, hs⟩ | ⟨e, rfl, hn⟩ | ⟨rfl, hn⟩ | ⟨p, rfl, hn⟩
    · obtain ⟨hlooks, ended | ⟨snap, hsnap, hcaptures, hdiffers⟩⟩ := waitUntilNot_brokenOff hn
      · exact absurd ended BrokenOff.not_ok
      · cases hsnap
        rw [← List.append_assoc]
        have hfront := hstep.append (searches_of_looks hlooks)
        exact (search hs).behind hfront (hcaptures.behind step).sublist hdiffers
    · obtain ⟨hlooks, ended | ⟨snap, hsnap, _⟩⟩ := waitUntilNot_brokenOff hn
      · exact .brokenOff (hstep.append (searches_of_looks hlooks)) (Nat.le_add_left 1 left) ended.passed
      · cases hsnap
    · obtain ⟨hlooks, _⟩ := waitUntilNot_brokenOff hn
      exact .brokenOff (hstep.append (searches_of_looks hlooks)) (Nat.le_add_left 1 left) .going
    · exact absurd hn (Goes.not_again closed_waitUntilNot)
  · rcases advance_ends ha with ⟨_, he⟩ | ⟨ended, n, hn, hsearch⟩
    · cases he
    · exact .brokenOff hsearch (by omega) ended.passed
  · rcases advance_ends ha with ⟨_, he⟩ | ⟨_, n, hn, hsearch⟩
    · cases he
    · exact .brokenOff hsearch (by omega) .going
  · exact absurd ha (Goes.not_again closed_advance)

/-- The induction is on the number of screens that may still be looked at. -/
theorem findApproval_ends {current : Snapshot} {taken : List Snapshot} {left : Nat}
    {ending : Ending Nat (Except Error Arrival)}
    (h : Goes (s.findApproval current taken left).run log ending) : s.SearchEnds current taken left log ending := by
  induction left generalizing current taken log ending with
  | zero =>
    obtain ⟨rfl, rfl | rfl⟩ := goes_done.mp h
    · exact .brokenOff (searches_of_looks fun _ h => nomatch h) (Nat.le_refl 0) .going
    · exact .unfound (searches_of_looks fun _ h => nomatch h)
  | succ left ih =>
    have hcases := Attempt.bind_cases (.inr fun found => by
      cases found with
      | some target => trivial
      | none => exact closed_walkOn) h
    rcases hcases with
      ⟨found, look, rest, rfl, hf, hr⟩ | ⟨e, rfl, hf⟩ | ⟨rfl, hf⟩ | ⟨p, rfl, hf⟩
    · have hlook := findText_searches hf.begins
      cases found with
      | none => exact (walkOn_ends ih hr).afterLook hlook
      | some target =>
        obtain ⟨rfl, rfl | rfl⟩ := goes_done.mp hr
        · rw [List.append_nil]
          exact .brokenOff hlook (Nat.zero_le _) .going
        · rw [List.append_nil]
          have hpasses : Passes current look [] current := ⟨.singleton _, rfl, List.nil_sublist _⟩
          have hfound : s.SearchEnds current taken (left + 1) look (.value (.ok ⟨target, current, taken ++ []⟩)) :=
            .found hlook (Nat.succ_pos left) (shows_of_findText hf) rfl hpasses
          rwa [List.append_nil] at hfound
    · exact .brokenOff (findText_searches hf.begins) (Nat.zero_le _) (findText_brokenOff hf)
    · exact .brokenOff (findText_searches hf) (Nat.zero_le _) .going
    · exact absurd hf (Goes.not_again closed_findText)

theorem closed_approve {target : Element} : (s.approve target).Closed := by
  unfold approve
  cases s.options.device.layout? with
  | none => exact closed_act
  | some layout =>
    cases s.options.approveAction with
    | holdConfirm => exact closed_act.bind fun _ => Attempt.closed_query.bind fun _ => closed_act
    | tapKeyword =>
      cases target.middle? with
      | some place => exact closed_act
      | none => trivial

/-- The requests of an approval are those of one gesture, which is there to be made. -/
structure Approves (s : Session) (target : Element) (log : WorkLog) : Prop where
  made : requests log = s.gesture target
  something : s.gesture target ≠ []
  noFiles : ∀ ev ∈ log, ¬ AsksFiles ev

/-- What fails in an approval leaves its gesture unfinished. -/
structure Gestures (s : Session) (target : Element) (log : WorkLog) (ending : Ending Nat (Except Error Unit)) :
    Prop where
  begun : requests log <+: s.gesture target
  noFiles : ∀ ev ∈ log, ¬ AsksFiles ev
  ended : (s.Approves target log ∧ ending = .value (.ok ())) ∨ BrokenOff ending

/-- A gesture that is one of the steps that can be made on a device is made in the order of its requests. If one of them
fails those behind it are left out. -/
theorem gestures_of_step (step : Device.Step) {target : Element} {ending : Ending Nat (Except Error Unit)}
    (gesture : s.gesture target = stepCalls step) (h : Goes (s.perform step).run log ending) :
    s.Gestures target log ending := by
  have hbegun (tried : s.Tried (actsOf step) log) : requests log <+: s.gesture target := gesture ▸ tried.requests
  cases perform_ends h with
  | done performed =>
    have made : requests log = s.gesture target := gesture ▸ performed.requests
    have something : s.gesture target ≠ [] := gesture ▸ stepCalls_ne_nil step
    have noFiles := performed.tried.noFiles
    exact ⟨hbegun performed.tried, noFiles, .inl ⟨⟨made, something, noFiles⟩, rfl⟩⟩
  | refused refused =>
    obtain ⟨cause, rfl⟩ := refused.api
    exact ⟨hbegun refused.tried, refused.tried.noFiles, .inr .api⟩
  | going tried => exact ⟨hbegun tried, tried.noFiles, .inr .going⟩

/-- Whatever the action is, an approval makes the requests of its gesture, or breaks off among them. -/
theorem approve_ends {target : Element} {ending : Ending Nat (Except Error Unit)}
    (h : Goes (s.approve target).run log ending) : s.Gestures target log ending := by
  unfold approve at h
  cases hlayout : s.options.device.layout? with
  | none =>
    rw [hlayout] at h
    refine gestures_of_step (.click .both) ?_ h
    rw [gesture, hlayout]
    rfl
  | some layout =>
    cases haction : s.options.approveAction with
    | holdConfirm =>
      rw [hlayout, haction] at h
      refine gestures_of_step (.hold layout.confirm s.options.approveHold) ?_ h
      rw [gesture, hlayout, haction]
      rfl
    | tapKeyword =>
      rw [hlayout, haction] at h
      cases hplace : target.middle? with
      | some place =>
        rw [hplace] at h
        refine gestures_of_step (.tap place) ?_ h
        rw [gesture, hlayout, haction, hplace]
        rfl
      | none =>
        rw [hplace] at h
        obtain ⟨rfl, rfl | rfl⟩ := goes_done.mp h
        · exact ⟨List.nil_prefix, by simp, .inr .going⟩
        · exact ⟨List.nil_prefix, by simp, .inr (.inr ⟨_, rfl, nofun⟩)⟩

/-- A search that has come to a screen with an element that asks for approval. -/
structure Arrives (s : Session) (log : WorkLog) (n : Nat) (target : Element) : Prop where
  searches : s.Searches log n
  bound : n < s.options.maxReviewScreens
  shows : s.Shows log s.options.approveKeyword target

/-- The snapshots of a whole walk that led on so many times. -/
structure Captured (log : WorkLog) (n : Nat) (snapshots : List Snapshot) : Prop where
  count : snapshots.length = n + 2
  differ : snapshots.IsChain fun a b => a.samePixels b = false
  captured : snapshots.Sublist (captures log)

/-- How a walk may end: before it was asked for approval, with the gesture or behind it, or in the comparison. -/
inductive ReviewEnds (s : Session) (env : Environment) (dir name : String) :
    WorkLog → Ending Nat (Except Error Unit) → Prop
  | searching {log : WorkLog} {n : Nat} {ending : Ending Nat (Except Error Unit)} (search : s.Searches log n)
      (bound : n ≤ s.options.maxReviewScreens) (ended : BrokenOff ending) : ReviewEnds s env dir name log ending
  | unfound {log : WorkLog} (search : s.Searches log s.options.maxReviewScreens) :
      ReviewEnds s env dir name log
        (.value (.error (.approveNotFound s.options.approveKeyword s.options.maxReviewScreens)))
  | approving {search approval : WorkLog} {n : Nat} {target : Element} {ending : Ending Nat (Except Error Unit)}
      (arrives : s.Arrives search n target) (begun : requests approval <+: s.gesture target)
      (noFiles : ∀ ev ∈ approval, ¬ AsksFiles ev) (ended : BrokenOff ending) :
      ReviewEnds s env dir name (search ++ approval) ending
  | leaving {search approval leave : WorkLog} {n : Nat} {target : Element} {ending : Ending Nat (Except Error Unit)}
      (arrives : s.Arrives search n target) (approves : s.Approves target approval)
      (looks : ∀ ev ∈ leave, Looks ev) (ended : BrokenOff ending) :
      ReviewEnds s env dir name (search ++ (approval ++ leave)) ending
  | comparing {search approval leave files : WorkLog} {n : Nat} {target : Element} {snapshots : List Snapshot}
      {ending : Ending Nat (Except Error Unit)}
      (arrives : s.Arrives search n target) (approves : s.Approves target approval)
      (looks : ∀ ev ∈ leave, Looks ev)
      (captured : Captured (search ++ leave) n snapshots)
      (check : Goes (Work.check (Snapshot.Goldens.compare env dir name snapshots)).run files ending) :
      ReviewEnds s env dir name (search ++ (approval ++ (leave ++ files))) ending

def confirm (s : Session) (env : Environment) (dir name : String) (arrival : Arrival) : Work Unit := do
  s.approve arrival.target
  let last ← s.waitUntilNot arrival.screen
  Work.check (Snapshot.Goldens.compare env dir name (arrival.taken ++ [last]))

theorem closed_check {c : Snapshot.Goldens.Check Unit} : (Work.check c).Closed :=
  Attempt.Closed.adapt (closed_via (closed_of_talk c.run))

theorem closed_confirm {arrival : Arrival} : (s.confirm env dir name arrival).Closed :=
  closed_approve.bind fun _ => closed_waitUntilNot.bind fun _ => closed_check

theorem closed_reviewAndApprove : (s.reviewAndApprove env dir name).Closed :=
  (Attempt.Closed.map Attempt.closed_demand).bind fun _ => closed_findApproval.bind fun _ => closed_confirm

/-- The first screen, those that were passed and the last one are what a whole walk captures, each of them different
from the one before. -/
theorem Captured.of_passes {first last screen : Snapshot} {more : List Snapshot} {search leave : WorkLog}
    (start : s.Captures log first) (passes : Passes first search more screen) (left : s.Captures leave last)
    (differs : last.samePixels screen = false) :
    Captured (log ++ search ++ leave) more.length (first :: more ++ [last]) := by
  have differ : (first :: more ++ [last]).IsChain fun a b => a.samePixels b = false := by
    refine List.isChain_append.mpr ⟨passes.differ, .singleton _, fun a ha b hb => ?_⟩
    rw [passes.last] at ha
    cases ha
    cases hb
    rwa [Snapshot.samePixels_comm]
  refine ⟨by simp, differ, ?_⟩
  rw [captures_append, captures_append]
  exact (start.sublist.append passes.captured).append left.sublist

/-- From a screen that asks for approval there is the gesture, the wait for another screen, and the comparison. A walk
may break off in each of them. -/
theorem confirm_ends {search : WorkLog} {n : Nat} {target : Element} {screen : Snapshot}
    {taken : List Snapshot} {ending : Ending Nat (Except Error Unit)} (arrives : s.Arrives search n target)
    (captured : ∀ {leave last}, s.Captures leave last → last.samePixels screen = false →
      Captured (search ++ leave) n (taken ++ [last]))
    (h : Goes (s.confirm env dir name ⟨target, screen, taken⟩).run log ending) :
    s.ReviewEnds env dir name (search ++ log) ending := by
  rcases Attempt.bind_cases (.inr fun _ => closed_waitUntilNot.bind fun _ => closed_check) h with
    ⟨_, approval, rest, rfl, ha, hr⟩ | ⟨e, rfl, ha⟩ | ⟨rfl, ha⟩ | ⟨p, rfl, ha⟩
  · have gestures := approve_ends ha
    obtain ⟨hdone, _⟩ := gestures.ended.resolve_right BrokenOff.not_ok
    rcases Attempt.bind_cases (.inr fun _ => closed_check) hr with
      ⟨last, leave, files, rfl, hl, hc⟩ | ⟨e, rfl, hl⟩ | ⟨rfl, hl⟩ | ⟨p, rfl, hl⟩
    · obtain ⟨hlooks, ended | ⟨snap, hsnap, hcaptures, hdiffers⟩⟩ := waitUntilNot_brokenOff hl
      · exact absurd ended BrokenOff.not_ok
      · cases hsnap
        exact .comparing arrives hdone hlooks (captured hcaptures hdiffers) hc
    · obtain ⟨hlooks, ended | ⟨snap, hsnap, _⟩⟩ := waitUntilNot_brokenOff hl
      · exact .leaving arrives hdone hlooks ended.passed
      · cases hsnap
    · exact .leaving arrives hdone (waitUntilNot_brokenOff hl).1 .going
    · exact absurd hl (Goes.not_again closed_waitUntilNot)
  · have gestures := approve_ends ha
    obtain ⟨_, he⟩ | ended := gestures.ended
    · cases he
    · exact .approving arrives gestures.begun gestures.noFiles ended.passed
  · have gestures := approve_ends ha
    exact .approving arrives gestures.begun gestures.noFiles .going
  · exact absurd ha (Goes.not_again closed_approve)

/-- Every log of a walk, of whatever length, ends in one of these ways. -/
theorem reviewAndApprove_ends {ending : Ending Nat (Except Error Unit)}
    (h : Goes (s.reviewAndApprove env dir name).run log ending) : s.ReviewEnds env dir name log ending := by
  have hlook {l : WorkLog} (hl : s.snapshot.Begins l) : s.Searches l 0 :=
    searches_of_looks (looks_of_asked (.inr rfl) (snapshot_begins hl))
  rcases Attempt.bind_cases (.inr fun _ => closed_findApproval.bind fun _ => closed_confirm) h with
    ⟨first, start, rest, rfl, hf, hr⟩ | ⟨e, rfl, hf⟩ | ⟨rfl, hf⟩ | ⟨p, rfl, hf⟩
  · have hstart := hlook hf.begins
    rcases Attempt.bind_cases (.inr fun _ => closed_confirm) hr with
      ⟨arrival, search, rest, rfl, hs, hc⟩ | ⟨e, rfl, hs⟩ | ⟨rfl, hs⟩ | ⟨p, rfl, hs⟩
    · rw [← List.append_assoc]
      cases findApproval_ends hs with
      | brokenOff search bound ended => exact absurd ended BrokenOff.not_ok
      | @found n target screen more search bound shows count passes =>
        refine confirm_ends ⟨hstart.beforeSearch search, bound, shows.behind start⟩ (fun hl hdiffers => ?_) hc
        exact count ▸ Captured.of_passes ⟨[], snapshot_gives hf⟩ passes hl hdiffers
    · cases findApproval_ends hs with
      | brokenOff search bound ended =>
        exact .searching (hstart.beforeSearch search) bound ended.passed
      | unfound search => exact .unfound (hstart.beforeSearch search)
    · cases findApproval_ends hs with
      | brokenOff search bound ended => exact .searching (hstart.beforeSearch search) bound .going
    · exact absurd hs (Goes.not_again closed_findApproval)
  · obtain ⟨r, _, refused⟩ := snapshot_fails hf
    obtain ⟨cause, rfl⟩ := Call.content_error refused
    exact .searching (hlook hf.begins) (Nat.zero_le _) .api
  · exact .searching (hlook hf) (Nat.zero_le _) .going
  · exact absurd hf (Goes.not_again closed_snapshot)

/-- What is done from a screen on that asks for approval: one gesture at most, and behind it nothing to the device. -/
def ApprovesOnce (s : Session) (target : Element) (log : WorkLog) : Prop :=
  ∃ approval after, log = approval ++ after ∧ requests approval <+: s.gesture target ∧
    (after ≠ [] → requests approval = s.gesture target) ∧ inputs after = []

/-- A gesture may be the very request that leads on, but it makes that request only once. -/
theorem count_gesture (target : Element) : (s.gesture target).count s.advanceCall ≤ 1 := by
  unfold gesture advanceCall
  cases s.options.device.layout? with
  | none => simp
  | some layout =>
    cases s.options.approveAction with
    | holdConfirm => simp
    | tapKeyword => exact (List.count_le_length ..).trans (Option.length_toList_le)

theorem ApprovesOnce.count_le {target : Element} (h : s.ApprovesOnce target log) :
    (requests log).count s.advanceCall ≤ 1 := by
  obtain ⟨approval, after, rfl, begun, _, hafter⟩ := h
  have hnone : (requests after).count s.advanceCall = 0 := by
    rw [← List.count_filter advanceCall_isInput]
    change (inputs after).count s.advanceCall = 0
    rw [hafter, List.count_nil]
  rw [requests_append, List.count_append, hnone]
  exact (begun.sublist.count_le _).trans (count_gesture target)

/-- As many requests lead on as there were screens passed. -/
theorem Searches.count_eq {n : Nat} (h : s.Searches log n) : (requests log).count s.advanceCall = n := by
  rw [← List.count_filter advanceCall_isInput]
  change (inputs log).count s.advanceCall = n
  rw [h.1, List.count_replicate_self]

/-- What can be said of a walk wherever it stands: how it has searched, and what it has done behind its search. -/
structure SafeWalk (s : Session) (env : Environment) (dir name : String)
    (p : Position Ask Reply Nat (Except Error Unit)) (search rest : WorkLog) (n : Nat) : Prop where
  searches : s.Searches search n
  bound : n ≤ s.options.maxReviewScreens
  advances : (requests (search ++ rest)).count s.advanceCall ≤ s.options.maxReviewScreens
  approval : rest ≠ [] → ∃ target, s.Arrives search n target ∧ s.ApprovesOnce target rest
  unfound : ∀ keyword screens, p.move = .finish (.error (.approveNotFound keyword screens)) →
    n = s.options.maxReviewScreens ∧ rest = []
  compared : (∃ ev ∈ search ++ rest, AsksFiles ev) → ∃ before files snapshots,
    search ++ rest = before ++ files ∧ (∀ ev ∈ before, ¬ AsksFiles ev) ∧ Captured before n snapshots ∧
      (Work.check (Snapshot.Goldens.compare env dir name snapshots)).Begins files

/-- A walk that has found nothing yet has only searched. It fails for that reason when all screens are used up, and not
before. -/
theorem safeWalk_of_search {p : Position Ask Reply Nat (Except Error Unit)} {n : Nat} (search : s.Searches log n)
    (bound : n ≤ s.options.maxReviewScreens)
    (unfound : ∀ keyword screens, p.move = .finish (.error (.approveNotFound keyword screens)) →
      n = s.options.maxReviewScreens) : s.SafeWalk env dir name p log [] n where
  searches := search
  bound := bound
  advances := by
    rw [List.append_nil, search.count_eq]
    exact bound
  approval h := absurd rfl h
  unfound keyword screens h := ⟨unfound keyword screens h, rfl⟩
  compared h := by
    obtain ⟨ev, hev, hfiles⟩ := h
    exact absurd hfiles (search.2 ev (by simpa using hev))

/-- Not even the gesture takes a walk beyond the bound on the screens: a search that finds something has not used it up.
-/
theorem Arrives.advances {rest : WorkLog} {n : Nat} {target : Element} (h : s.Arrives log n target)
    (once : s.ApprovesOnce target rest) :
    (requests (log ++ rest)).count s.advanceCall ≤ s.options.maxReviewScreens := by
  have hbound := h.bound
  have honce := once.count_le
  rw [requests_append, List.count_append, h.searches.count_eq]
  omega

/-- Behind a screen that asks for approval there is one gesture at most, and the search stays what it was. -/
theorem safeWalk_of_approval {p : Position Ask Reply Nat (Except Error Unit)} {rest : WorkLog} {n : Nat}
    {target : Element} (arrives : s.Arrives log n target) (once : s.ApprovesOnce target rest)
    (noFiles : ∀ ev ∈ rest, ¬ AsksFiles ev)
    (found : ∀ keyword screens, p.move ≠ .finish (.error (.approveNotFound keyword screens))) :
    s.SafeWalk env dir name p log rest n where
  searches := arrives.searches
  bound := arrives.bound.le
  advances := arrives.advances once
  approval _ := ⟨target, arrives, once⟩
  unfound keyword screens h := absurd h (found keyword screens)
  compared h := by
    obtain ⟨ev, hev, hfiles⟩ := h
    rcases List.mem_append.mp hev with hev | hev
    · exact absurd hfiles (arrives.searches.2 ev hev)
    · exact absurd hfiles (noFiles ev hev)

theorem check_found {c : Snapshot.Goldens.Check Unit} {keyword : String} {screens : Nat} :
    ¬ (Work.check c).Fails log (.approveNotFound keyword screens) := by
  intro h
  obtain ⟨e, _, he⟩ := Attempt.fails_adapt h
  cases e <;> cases he

theorem Captured.around {search approval leave : WorkLog} {n : Nat} {snapshots : List Snapshot}
    (h : Captured (search ++ leave) n snapshots) : Captured (search ++ (approval ++ leave)) n snapshots := by
  refine ⟨h.count, h.differ, h.captured.trans ?_⟩
  simp only [captures_append]
  exact (List.Sublist.refl _).append (List.sublist_append_right ..)

theorem reviewAndApprove_safe {p : Position Ask Reply Nat (Except Error Unit)}
    (h : Trail (Dialogue.start (s.reviewAndApprove env dir name).run) log p) :
    ∃ search rest n, log = search ++ rest ∧ s.SafeWalk env dir name p search rest n := by
  obtain ⟨ending, hgoes, hfinish⟩ := (h.start_follows closed_reviewAndApprove).ending
  have hfound (ended : BrokenOff ending) (keyword : String) (screens : Nat) :
      p.move ≠ .finish (.error (.approveNotFound keyword screens)) :=
    fun hp => BrokenOff.not_unfound (hfinish _ hp ▸ ended)
  cases reviewAndApprove_ends hgoes with
  | searching search bound ended =>
    refine ⟨log, [], _, (List.append_nil log).symm, safeWalk_of_search search bound fun _ _ hp => ?_⟩
    exact absurd hp (hfound ended _ _)
  | unfound search =>
    exact ⟨log, [], _, (List.append_nil log).symm, safeWalk_of_search search (Nat.le_refl _) fun _ _ _ => rfl⟩
  | @approving search approval n target _ arrives begun noFiles ended =>
    have once : s.ApprovesOnce target approval :=
      ⟨approval, [], (List.append_nil _).symm, begun, fun h => absurd rfl h, rfl⟩
    exact ⟨search, approval, n, rfl, safeWalk_of_approval arrives once noFiles (hfound ended)⟩
  | @leaving search approval leave n target _ arrives approves looks ended =>
    have once : s.ApprovesOnce target (approval ++ leave) :=
      ⟨approval, leave, rfl, approves.made ▸ List.prefix_refl _, fun _ => approves.made, inputs_of_looks looks⟩
    refine ⟨search, _, n, rfl, safeWalk_of_approval arrives once (fun ev hev => ?_) (hfound ended)⟩
    rcases List.mem_append.mp hev with hev | hev
    · exact approves.noFiles ev hev
    · exact (looks ev hev).not_files
  | @comparing search approval leave files n target snapshots _ arrives approves looks captured check =>
    have hfiles := Work.check_begins (Goes.begins check)
    have hinputs : inputs files = [] := by rw [inputs, requests_of_files hfiles, List.filter_nil]
    have once : s.ApprovesOnce target (approval ++ (leave ++ files)) :=
      ⟨approval, leave ++ files, rfl, approves.made ▸ List.prefix_refl _, fun _ => approves.made, by
        rw [inputs_append, inputs_of_looks looks, hinputs, List.append_nil]⟩
    refine ⟨search, _, n, rfl, {
      searches := arrives.searches
      bound := arrives.bound.le
      advances := arrives.advances once
      approval := fun _ => ⟨target, arrives, once⟩
      unfound := fun keyword screens hp => ?_
      compared := fun _ => ⟨search ++ (approval ++ leave), files, snapshots, by simp, fun ev hev => ?_, ?_,
        Goes.begins check⟩ }⟩
    · exact absurd (hfinish _ hp ▸ check) check_found
    · rcases List.mem_append.mp hev with hev | hev
      · exact arrives.searches.2 ev hev
      · rcases List.mem_append.mp hev with hev | hev
        · exact approves.noFiles ev hev
        · exact (looks ev hev).not_files
    · exact captured.around

def twoButtons : Session where
  options := { device := .nanoX, maxReviewScreens := 2 }
  base := "http://127.0.0.1:5000"

/-- A review of two screens, up to the gesture on the second of them. -/
def shortWalk : WorkLog :=
  [.asked (.call twoButtons.base .screenshot) (.body [1]),
    .asked (.call twoButtons.base .events) (.body (Bytes.ofText "\x7b\"events\":[]\x7d")),
    .asked (.call twoButtons.base (.button .right)) (.body []),
    .asked .now (0 : Nat),
    .asked (.call twoButtons.base .screenshot) (.body [2]),
    .asked (.call twoButtons.base .events) (.body (Bytes.ofText "\x7b\"events\":[\x7b\"text\":\"Approve\"\x7d]\x7d")),
    .asked (.call twoButtons.base (.button .both)) (.body [])]

theorem shortWalk_safe : ∃ p search rest n,
    Trail (Dialogue.start (twoButtons.reviewAndApprove (fun _ => none) "dir" "name").run) shortWalk p ∧
      shortWalk = search ++ rest ∧ twoButtons.SafeWalk (fun _ => none) "dir" "name" p search rest n := by
  have h : Trail (Dialogue.start (twoButtons.reviewAndApprove (fun _ => none) "dir" "name").run) shortWalk _ :=
    .ask _ rfl (.ask _ rfl (.ask _ rfl (.ask _ rfl (.ask _ rfl (.ask _ rfl (.ask _ rfl (.here _)))))))
  obtain ⟨search, rest, n, hlog, hsafe⟩ := reviewAndApprove_safe h
  exact ⟨_, search, rest, n, h, hlog, hsafe⟩

end Session

end SignerBench.Emulator
