import SignerBench.Emulator.Walk
import SignerBench.Proofs.Attempt

namespace SignerBench.Emulator

open Dialogue

abbrev WorkEvent := Event Ask Reply Nat

abbrev WorkLog := Log Ask Reply Nat

def requests (log : WorkLog) : List Call :=
  log.filterMap fun
    | .asked (.call _ c) _ => some c
    | _ => none

def Call.isInput : Call → Bool
  | .button _ => true
  | .finger _ _ => true
  | _ => false

def inputs (log : WorkLog) : List Call := (requests log).filter Call.isInput

/-- Nothing is done to the device, and no file is touched. -/
def Looks : WorkEvent → Prop
  | .asked (.call _ c) _ => c = .events ∨ c = .screenshot
  | .asked .now _ => True
  | .paused _ => True
  | _ => False

def AsksFiles : WorkEvent → Prop
  | .asked (.files _) _ => True
  | _ => False

@[simp] theorem requests_append (l l' : WorkLog) : requests (l ++ l') = requests l ++ requests l' :=
  List.filterMap_append

@[simp] theorem inputs_append (l l' : WorkLog) : inputs (l ++ l') = inputs l ++ inputs l' := by
  simp [inputs]

theorem requests_of_looks {log : WorkLog} (h : ∀ ev ∈ log, Looks ev) :
    ∀ c ∈ requests log, c = .events ∨ c = .screenshot := by
  intro c hc
  obtain ⟨ev, hev, he⟩ := List.mem_filterMap.mp hc
  have hlook := h ev hev
  split at he
  · cases he
    exact hlook
  · cases he

theorem inputs_of_looks {log : WorkLog} (h : ∀ ev ∈ log, Looks ev) : inputs log = [] := by
  refine List.filter_eq_nil_iff.mpr fun c hc => ?_
  rcases requests_of_looks h c hc with rfl | rfl <;> simp [Call.isInput]

theorem Looks.not_files {ev : WorkEvent} (h : Looks ev) : ¬ AsksFiles ev := by
  cases ev with
  | paused p => exact id
  | asked q r => cases q <;> first | exact id | exact fun _ => h

theorem Call.content_error {base : String} {c : Call} {r : Web.Response} {e : Error}
    (h : c.content base r = .error e) : ∃ cause, e = .api cause := by
  cases r with
  | body content => cases h
  | refused status => cases h; exact ⟨_, rfl⟩
  | unreachable reason => cases h; exact ⟨_, rfl⟩

/-- An answer that cannot be read is told as such, not as a failure of the call. -/
theorem readScreen_error {content : Bytes} {e : Error} (h : readScreen content = .error e) :
    ∃ cause, e = .reply cause := by
  unfold readScreen at h
  split at h
  · cases h
  · cases h; exact ⟨_, rfl⟩

/-- A reply to a call that is of no use, and why. -/
inductive Refuses (base : String) : Call → Web.Response → Error → Prop
  | call {c : Call} {r : Web.Response} {e : Error} (refused : c.content base r = .error e) : Refuses base c r e
  | screen {content : Bytes} {e : Error} (unread : readScreen content = .error e) :
      Refuses base .events (.body content) e

theorem Refuses.cause {base : String} {c : Call} {r : Web.Response} {e : Error} (h : Refuses base c r e) :
    (∃ cause, e = .api cause) ∨ ∃ cause, e = .reply cause := by
  cases h with
  | call refused => exact .inl (Call.content_error refused)
  | screen unread => exact .inr (readScreen_error unread)

namespace Work

theorem call_gives {base : String} {c : Call} {log : WorkLog} {b : Bytes}
    (h : (Work.call base c).Gives log b) : log = [.asked (.call base c) (.body b)] := by
  obtain ⟨r, rfl, hr⟩ := Attempt.gives_demand.mp h
  cases r with
  | body content => cases hr; rfl
  | refused status => cases hr
  | unreachable reason => cases hr

theorem call_fails {base : String} {c : Call} {log : WorkLog} {e : Error}
    (h : (Work.call base c).Fails log e) :
    ∃ r, log = [.asked (.call base c) r] ∧ c.content base r = .error e := Attempt.fails_demand.mp h

theorem call_begins {base : String} {c : Call} {log : WorkLog} (h : (Work.call base c).Begins log) :
    log = [] ∨ ∃ r, log = [.asked (.call base c) r] := Attempt.begins_demand.mp h

end Work

namespace Session

variable {s : Session} {log : WorkLog} {e : Error} {α : Type}

theorem events_gives {elements : List Element} (h : s.events.Gives log elements) :
    ∃ content, log = [.asked (.call s.base .events) (.body content)] ∧ readScreen content = .ok elements := by
  obtain ⟨content, first, rest, rfl, hc, hr⟩ := Attempt.gives_bind (.inr fun _ => Attempt.closed_ofExcept) h
  obtain ⟨rfl, hread⟩ := Attempt.gives_ofExcept.mp hr
  exact ⟨content, by rw [Work.call_gives hc, List.append_nil], hread⟩

/-- A look at the screen fails at the emulator's service, or with what the service says. -/
theorem events_fails (h : s.events.Fails log e) :
    ∃ r, log = [.asked (.call s.base .events) r] ∧ Refuses s.base .events r e := by
  rcases Attempt.fails_bind (.inr fun _ => Attempt.closed_ofExcept) h with hc | ⟨content, first, rest, rfl, hc, hr⟩
  · obtain ⟨r, rfl, refused⟩ := Work.call_fails hc
    exact ⟨r, rfl, .call refused⟩
  · obtain ⟨rfl, hread⟩ := Attempt.fails_ofExcept.mp hr
    rw [Work.call_gives hc, List.append_nil]
    exact ⟨_, rfl, .screen hread⟩

theorem events_begins (h : s.events.Begins log) : log = [] ∨ ∃ r, log = [.asked (.call s.base .events) r] := by
  rcases Attempt.begins_bind (.inr fun _ => Attempt.closed_ofExcept) h with hc | ⟨content, first, rest, rfl, hc, hr⟩
  · exact Work.call_begins hc
  · rw [Attempt.begins_ofExcept.mp hr, List.append_nil]
    exact .inr ⟨_, Work.call_gives hc⟩

theorem snapshot_gives {snap : Snapshot} (h : s.snapshot.Gives log snap) :
    log = [.asked (.call s.base .screenshot) (.body snap.png)] := by
  obtain ⟨b, hc, rfl⟩ := Attempt.gives_map h
  exact Work.call_gives hc

theorem snapshot_fails (h : s.snapshot.Fails log e) :
    ∃ r, log = [.asked (.call s.base .screenshot) r] ∧ Call.screenshot.content s.base r = .error e :=
  Work.call_fails (Attempt.fails_map h)

theorem snapshot_begins (h : s.snapshot.Begins log) :
    log = [] ∨ ∃ r, log = [.asked (.call s.base .screenshot) r] :=
  Work.call_begins (Attempt.begins_map h)

theorem closed_snapshot : s.snapshot.Closed := Attempt.Closed.map Attempt.closed_demand

theorem closed_events : s.events.Closed := Attempt.closed_demand.bind fun _ => Attempt.closed_ofExcept

theorem flat_events : s.events.Flat := Attempt.flat_demand.bind fun _ => Attempt.flat_ofExcept

theorem closed_findText {wanted : String} : (s.findText wanted).Closed :=
  closed_events.bind fun _ => Attempt.closed_pure

/-- The screen that was looked at, and what was found on it. -/
theorem findText_gives {wanted : String} {found : Option Element} (h : (s.findText wanted).Gives log found) :
    ∃ content elements, log = [.asked (.call s.base .events) (.body content)] ∧
      readScreen content = .ok elements ∧ found = elements.find? fun e => Text.mentions e.text wanted := by
  obtain ⟨elements, hv, rfl⟩ := Attempt.gives_bind_pure h
  obtain ⟨content, rfl, hread⟩ := events_gives hv
  exact ⟨content, elements, rfl, hread, rfl⟩

theorem findText_fails {wanted : String} (h : (s.findText wanted).Fails log e) :
    ∃ r, log = [.asked (.call s.base .events) r] ∧ Refuses s.base .events r e :=
  events_fails (Attempt.fails_bind_pure h)

theorem findText_begins {wanted : String} (h : (s.findText wanted).Begins log) :
    log = [] ∨ ∃ r, log = [.asked (.call s.base .events) r] :=
  events_begins (Attempt.begins_bind_pure h)

def pollTurn (s : Session) (deadline : Nat) (late : Error) (look : Work (Option α)) : Work α := do
  match ← look with
  | some found => return found
  | none =>
    let now ← Work.now
    if deadline ≤ now then throw late
    Attempt.again s.options.pollInterval

theorem poll_eq_loop {deadline : Nat} {late : Error} {look : Work (Option α)} :
    s.poll deadline late look = Attempt.loop (s.pollTurn deadline late look) := rfl

/-- Turns of a poll that find nothing, each of them over before the deadline. -/
inductive Misses (pause deadline : Nat) (look : Work (Option α)) : WorkLog → Prop
  | nil : Misses pause deadline look []
  | turn {first rest : WorkLog} {t : Nat} (missed : look.Gives first none) (early : t < deadline)
      (tail : Misses pause deadline look rest) :
      Misses pause deadline look (first ++ .asked .now t :: .paused pause :: rest)

/-- How far the last turn of a poll comes: it looks, it has found something, a look fails, or it gives up. -/
inductive LastTurn (deadline : Nat) (late : Error) (look : Work (Option α)) :
    WorkLog → Ending Nat (Except Error α) → Prop
  | looking {log : WorkLog} (looks : look.Begins log) : LastTurn deadline late look log .going
  | missing {log : WorkLog} {t : Nat} (missed : look.Gives log none) :
      LastTurn deadline late look (log ++ [.asked .now t]) .going
  | found {log : WorkLog} {a : α} (found : look.Gives log (some a)) :
      LastTurn deadline late look log (.value (.ok a))
  | failed {log : WorkLog} {e : Error} (failed : look.Fails log e) :
      LastTurn deadline late look log (.value (.error e))
  | late {log : WorkLog} {t : Nat} (missed : look.Gives log none) (past : deadline ≤ t) :
      LastTurn deadline late look (log ++ [.asked .now t]) (.value (.error late))

/-- Behind a look that finds nothing the time decides. -/
theorem afterLook_ends {deadline pause : Nat} {late : Error} {ending : Ending Nat (Except Error α)}
    (h : Goes (ExceptT.run (do
      let now ← Work.now
      if deadline ≤ now then throw late
      Attempt.again pause : Work α)) log ending) :
    log = [] ∧ ending = .going ∨ ∃ t : Nat, log = [.asked .now t] ∧
      (ending = .going ∨ deadline ≤ t ∧ ending = .value (.error late) ∨ t < deadline ∧ ending = .again pause) := by
  rcases Attempt.bind_cases (.inl Attempt.flat_query) h with
    ⟨t, first, rest, rfl, hq, hr⟩ | ⟨e, _, hq⟩ | ⟨rfl, hq⟩ | ⟨p, _, hq⟩
  · rw [Attempt.gives_query.mp hq]
    dsimp only at hr
    split at hr
    · rename_i past
      rcases Attempt.bind_cases (.inl Attempt.flat_throw) hr with ⟨_, _, _, _, ht, _⟩ | ⟨e, rfl, ht⟩ | ⟨rfl, ht⟩ | ht
      · exact absurd ht Attempt.gives_throw
      · obtain ⟨rfl, rfl⟩ := Attempt.fails_throw.mp ht
        exact .inr ⟨t, rfl, .inr (.inl ⟨past, rfl⟩)⟩
      · rw [Attempt.begins_throw.mp ht]
        exact .inr ⟨t, rfl, .inl rfl⟩
      · obtain ⟨p, _, ht⟩ := ht
        exact absurd ht (Goes.not_again Attempt.closed_throw)
    · rename_i early
      obtain ⟨rfl, rfl | rfl⟩ := goes_again.mp hr
      · exact .inr ⟨t, rfl, .inl rfl⟩
      · exact .inr ⟨t, rfl, .inr (.inr ⟨Nat.not_le.mp early, rfl⟩)⟩
  · exact absurd hq Attempt.fails_query
  · rcases Attempt.begins_query.mp hq with rfl | ⟨t, rfl⟩
    · exact .inl ⟨rfl, rfl⟩
    · exact .inr ⟨t, rfl, .inl rfl⟩
  · exact absurd hq (Goes.not_again Attempt.closed_query)

section

variable {deadline : Nat} {late : Error} {look : Work (Option α)} {ending : Ending Nat (Except Error α)}

/-- A turn that goes on has found nothing and has seen the time before the deadline. -/
theorem pollTurn_ends (flat : look.Flat) (closed : look.Closed)
    (h : Goes (s.pollTurn deadline late look).run log ending) :
    (∃ first t, log = first ++ [.asked .now t] ∧ look.Gives first none ∧ t < deadline ∧
      ending = .again s.options.pollInterval) ∨ LastTurn deadline late look log ending := by
  rcases Attempt.bind_cases (.inl flat) h with
    ⟨found, first, rest, rfl, hl, hr⟩ | ⟨e, rfl, hl⟩ | ⟨rfl, hl⟩ | ⟨p, rfl, hl⟩
  · cases found with
    | some a =>
      obtain ⟨rfl, he⟩ := goes_done.mp hr
      rw [List.append_nil]
      rcases he with rfl | rfl
      · exact .inr (.looking hl.begins)
      · exact .inr (.found hl)
    | none =>
      rcases afterLook_ends hr with ⟨rfl, rfl⟩ | ⟨t, rfl, rfl | ⟨past, rfl⟩ | ⟨early, rfl⟩⟩
      · rw [List.append_nil]
        exact .inr (.looking hl.begins)
      · exact .inr (.missing hl)
      · exact .inr (.late hl past)
      · exact .inl ⟨first, t, rfl, hl, early, rfl⟩
  · exact .inr (.failed hl)
  · exact .inr (.looking hl)
  · exact absurd hl (Goes.not_again closed)

/-- A poll misses for some turns and then takes its last one. The induction is on its turns. -/
theorem poll_ends (flat : look.Flat) (closed : look.Closed)
    (h : Goes (s.poll deadline late look).run log ending) :
    ∃ before last, log = before ++ last ∧ Misses s.options.pollInterval deadline look before ∧
      LastTurn deadline late look last ending := by
  rw [poll_eq_loop] at h
  generalize hd : (Attempt.loop (s.pollTurn deadline late look)).run = d at h
  induction h with
  | going d => exact ⟨[], [], rfl, .nil, .looking (.going _)⟩
  | done a => cases hd
  | ask r tail => cases hd
  | again p => cases hd
  | last turn ended =>
    cases hd
    rcases pollTurn_ends flat closed turn with ⟨_, _, _, _, _, he⟩ | hlast
    · exact absurd he (ended _)
    · exact ⟨[], _, rfl, .nil, hlast⟩
  | turn turn tail _ ih =>
    cases hd
    obtain ⟨before, last, rfl, hbefore, hlast⟩ := ih rfl
    rcases pollTurn_ends flat closed turn with ⟨first, t, rfl, hmissed, early, he⟩ | hturn
    · cases he
      exact ⟨_, last, by simp, .turn hmissed early hbefore, hlast⟩
    · cases hturn

/-- A wait takes the time first. -/
theorem timedPoll_ends {limit : Nat} (flat : look.Flat) (closed : look.Closed)
    (h : Goes (ExceptT.run (do
      let start ← Work.now
      s.poll (start + limit) late look : Work α)) log ending) :
    log = [] ∧ ending = .going ∨ ∃ (start : Nat) (before last : WorkLog), log = .asked .now start :: (before ++ last) ∧
      Misses s.options.pollInterval (start + limit) look before ∧ LastTurn (start + limit) late look last ending := by
  rcases Attempt.bind_cases (.inl Attempt.flat_query) h with
    ⟨start, first, rest, rfl, hq, hp⟩ | ⟨e, _, hq⟩ | ⟨rfl, hq⟩ | ⟨p, _, hq⟩
  · rw [Attempt.gives_query.mp hq]
    obtain ⟨before, last, rfl, hbefore, hlast⟩ := poll_ends flat closed hp
    exact .inr ⟨start, before, last, rfl, hbefore, hlast⟩
  · exact absurd hq Attempt.fails_query
  · rcases Attempt.begins_query.mp hq with rfl | ⟨start, rfl⟩
    · exact .inl ⟨rfl, rfl⟩
    · exact .inr ⟨start, [], [], rfl, .nil, .looking (.going _)⟩
  · exact absurd hq (Goes.not_again Attempt.closed_query)

variable {K : WorkEvent → Prop} {pause : Nat}

/-- What holds of the looks that find nothing holds of all turns that miss, but for the time and the pauses. -/
theorem Misses.all (h : Misses pause deadline look log) (missed : ∀ l, look.Gives l none → ∀ ev ∈ l, K ev)
    (now : ∀ t, K (.asked .now t)) (paused : K (.paused pause)) : ∀ ev ∈ log, K ev := by
  induction h with
  | nil => exact List.forall_mem_nil _
  | turn hmissed early tail ih =>
    refine List.forall_mem_append.mpr ⟨missed _ hmissed, ?_⟩
    exact List.forall_mem_cons.mpr ⟨now _, List.forall_mem_cons.mpr ⟨paused, ih⟩⟩

theorem LastTurn.all (h : LastTurn deadline late look log ending) (begun : ∀ l, look.Begins l → ∀ ev ∈ l, K ev)
    (now : ∀ t, K (.asked .now t)) : ∀ ev ∈ log, K ev := by
  cases h with
  | looking looks => exact begun _ looks
  | found found => exact begun _ found.begins
  | failed failed => exact begun _ failed.begins
  | missing missed => exact List.forall_mem_append.mpr ⟨begun _ missed.begins, List.forall_mem_singleton.mpr (now _)⟩
  | late missed past => exact List.forall_mem_append.mpr ⟨begun _ missed.begins, List.forall_mem_singleton.mpr (now _)⟩

end

theorem looks_of_asked {c : Call} (hc : c = .events ∨ c = .screenshot) {l : WorkLog} {base : String}
    (h : l = [] ∨ ∃ r, l = [.asked (.call base c) r]) : ∀ ev ∈ l, Looks ev := by
  intro ev hev
  rcases h with rfl | ⟨r, rfl⟩
  · cases hev
  · cases List.mem_singleton.mp hev
    exact hc

theorem closed_poll {deadline : Nat} {late : Error} {look : Work (Option α)} :
    (s.poll deadline late look).Closed := trivial

@[simp] theorem closed_waitUntilNot {reference : Snapshot} : (s.waitUntilNot reference).Closed := fun _ => trivial

@[simp] theorem closed_waitForText {wanted : String} : (s.waitForText wanted).Closed := fun _ => trivial

/-- The last thing in a log is the capture of a screen. -/
def Captures (s : Session) (log : WorkLog) (snap : Snapshot) : Prop :=
  ∃ front, log = front ++ [.asked (.call s.base .screenshot) (.body snap.png)]

/-- The last thing in a log is a look at a screen on which this element mentions a text. -/
def Shows (s : Session) (log : WorkLog) (wanted : String) (target : Element) : Prop :=
  ∃ front content elements, log = front ++ [.asked (.call s.base .events) (.body content)] ∧
    readScreen content = .ok elements ∧ target ∈ elements ∧ Text.mentions target.text wanted = true

theorem Captures.behind {snap : Snapshot} (h : s.Captures log snap) (front : WorkLog) :
    s.Captures (front ++ log) snap := by
  obtain ⟨before, rfl⟩ := h
  exact ⟨front ++ before, (List.append_assoc ..).symm⟩

theorem Shows.behind {wanted : String} {target : Element} (h : s.Shows log wanted target) (front : WorkLog) :
    s.Shows (front ++ log) wanted target := by
  obtain ⟨before, content, elements, rfl, hr⟩ := h
  exact ⟨front ++ before, content, elements, (List.append_assoc ..).symm, hr⟩

theorem shows_of_findText {wanted : String} {target : Element} (h : (s.findText wanted).Gives log (some target)) :
    s.Shows log wanted target := by
  obtain ⟨content, elements, rfl, hread, hfound⟩ := findText_gives h
  have hmentions := List.find?_some hfound.symm
  exact ⟨[], content, elements, rfl, hread, List.mem_of_find?_eq_some hfound.symm, hmentions⟩

/-- A wait whose looks only look does nothing else itself. -/
theorem timedPoll_looks {limit : Nat} {late : Error} {look : Work (Option α)} {ending : Ending Nat (Except Error α)}
    (flat : look.Flat) (closed : look.Closed) (hlook : ∀ l, look.Begins l → ∀ ev ∈ l, Looks ev)
    (h : Goes (ExceptT.run (do
      let start ← Work.now
      s.poll (start + limit) late look : Work α)) log ending) :
    (∀ ev ∈ log, Looks ev) ∧ (ending = .going ∨ ∃ deadline before last, log = before ++ last ∧
      LastTurn deadline late look last ending) := by
  rcases timedPoll_ends flat closed h with ⟨rfl, rfl⟩ | ⟨start, before, last, rfl, hbefore, hlast⟩
  · exact ⟨List.forall_mem_nil _, .inl rfl⟩
  · refine ⟨?_, .inr ⟨_, .asked .now start :: before, last, rfl, hlast⟩⟩
    have hmisses := hbefore.all (fun l hl => hlook l hl.begins) (fun _ => trivial) trivial
    exact List.forall_mem_cons.mpr
      ⟨trivial, List.forall_mem_append.mpr ⟨hmisses, hlast.all hlook fun _ => trivial⟩⟩

def otherScreen (s : Session) (reference : Snapshot) : Work (Option Snapshot) := do
  let current ← s.snapshot
  return if current.samePixels reference then none else some current

theorem flat_otherScreen {reference : Snapshot} : (s.otherScreen reference).Flat :=
  Attempt.Flat.bind (Attempt.Flat.map Attempt.flat_demand) fun _ => Attempt.flat_pure

theorem closed_otherScreen {reference : Snapshot} : (s.otherScreen reference).Closed :=
  closed_snapshot.bind fun _ => Attempt.closed_pure

theorem otherScreen_begins {reference : Snapshot} (h : (s.otherScreen reference).Begins log) :
    ∀ ev ∈ log, Looks ev :=
  looks_of_asked (.inr rfl) (snapshot_begins (Attempt.begins_bind_pure h))

/-- The screen that is found was captured, and is not the one that is waited away from. -/
theorem otherScreen_gives {reference snap : Snapshot} (h : (s.otherScreen reference).Gives log (some snap)) :
    s.Captures log snap ∧ snap.samePixels reference = false := by
  obtain ⟨current, hs, hsnap⟩ := Attempt.gives_bind_pure h
  split at hsnap
  · cases hsnap
  · rename_i hdiffers
    cases hsnap
    exact ⟨⟨[], snapshot_gives hs⟩, by simpa using hdiffers⟩

theorem otherScreen_fails {reference : Snapshot} (h : (s.otherScreen reference).Fails log e) :
    ∃ r, log = [.asked (.call s.base .screenshot) r] ∧ Call.screenshot.content s.base r = .error e :=
  snapshot_fails (Attempt.fails_bind_pure h)

/-- Waiting for another screen only looks. The screen that it gives is the last one looked at, and is another. -/
theorem waitUntilNot_ends {reference : Snapshot} {ending : Ending Nat (Except Error Snapshot)}
    (h : Goes (s.waitUntilNot reference).run log ending) :
    (∀ ev ∈ log, Looks ev) ∧
      (ending = .going ∨
        (∃ snap, ending = .value (.ok snap) ∧ s.Captures log snap ∧ snap.samePixels reference = false) ∨
        (∃ limit, ending = .value (.error (.screenTimeout .change limit))) ∨
        ∃ cause, ending = .value (.error (.api cause))) := by
  obtain ⟨hlooks, hends⟩ := timedPoll_looks flat_otherScreen closed_otherScreen (fun _ => otherScreen_begins) h
  refine ⟨hlooks, ?_⟩
  rcases hends with rfl | ⟨_, before, last, rfl, hlast⟩
  · exact .inl rfl
  · cases hlast with
    | looking _ => exact .inl rfl
    | missing _ => exact .inl rfl
    | found hl =>
      obtain ⟨hcapture, hdiffers⟩ := otherScreen_gives hl
      exact .inr (.inl ⟨_, rfl, hcapture.behind before, hdiffers⟩)
    | late _ _ => exact .inr (.inr (.inl ⟨_, rfl⟩))
    | failed hl =>
      obtain ⟨r, rfl, refused⟩ := otherScreen_fails hl
      obtain ⟨cause, rfl⟩ := Call.content_error refused
      exact .inr (.inr (.inr ⟨cause, rfl⟩))

def textShown (s : Session) (wanted : String) : Work (Option Unit) := do
  let found ← s.findText wanted
  return found.map fun _ => ()

theorem flat_textShown {wanted : String} : (s.textShown wanted).Flat :=
  (flat_events.bind fun _ => Attempt.flat_pure).bind fun _ => Attempt.flat_pure

theorem closed_textShown {wanted : String} : (s.textShown wanted).Closed :=
  closed_findText.bind fun _ => Attempt.closed_pure

theorem textShown_begins {wanted : String} (h : (s.textShown wanted).Begins log) : ∀ ev ∈ log, Looks ev :=
  looks_of_asked (.inl rfl) (findText_begins (Attempt.begins_bind_pure h))

theorem textShown_gives {wanted : String} (h : (s.textShown wanted).Gives log (some ())) :
    ∃ target, s.Shows log wanted target := by
  obtain ⟨found, hf, hsome⟩ := Attempt.gives_bind_pure h
  cases found with
  | none => cases hsome
  | some target => exact ⟨target, shows_of_findText hf⟩

/-- Waiting for a text only looks, and is over when an element of the screen mentions the text. -/
theorem waitForText_gives {wanted : String} (h : (s.waitForText wanted).Gives log ()) :
    (∀ ev ∈ log, Looks ev) ∧ ∃ target, s.Shows log wanted target := by
  obtain ⟨hlooks, hends⟩ := timedPoll_looks flat_textShown closed_textShown (fun _ => textShown_begins) h
  rcases hends with he | ⟨_, before, last, rfl, hlast⟩
  · cases he
  · cases hlast with
    | found hl =>
      obtain ⟨target, hshows⟩ := textShown_gives hl
      exact ⟨hlooks, target, hshows.behind before⟩

end Session

end SignerBench.Emulator
