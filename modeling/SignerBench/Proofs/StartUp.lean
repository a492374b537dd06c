import SignerBench.Proofs.ConcurrentFlows
import SignerBench.Proofs.Replays
import SignerBench.Proofs.Start

namespace SignerBench.Emulator.Session

open Dialogue

variable {s : Session} {log : WorkLog} {e : Error}

def Seen (s : Session) (ev : WorkEvent) (elements : List Element) : Prop :=
  ∃ content, ev = .asked (.call s.base .events) (.body content) ∧ readScreen content = .ok elements

def Unseen (s : Session) (log : WorkLog) : Prop := ∀ ev ∈ log, ∀ elements, ¬ s.Seen ev elements

/-- A screen mentions a text, in whatever case its letters are. -/
def Mentioned (wanted : String) (elements : List Element) : Prop := ∃ e ∈ elements, Text.mentions e.text wanted = true

/-- The looks at the screen that have succeeded do not mention a text. -/
def Unmentioned (s : Session) (wanted : String) (log : WorkLog) : Prop :=
  ∀ ev ∈ log, ∀ elements, s.Seen ev elements → ¬ Mentioned wanted elements

theorem unseen_now (t : Nat) (elements : List Element) : ¬ s.Seen (.asked .now t) elements := by
  rintro ⟨_, he, _⟩
  cases he

theorem unseen_paused (p : Nat) (elements : List Element) : ¬ s.Seen (.paused p) elements := by
  rintro ⟨_, he, _⟩
  cases he

theorem unseen_ended (r : Except Files.OsError (Option Program.ExitStatus)) (elements : List Element) :
    ¬ s.Seen (.asked .ended r) elements := by
  rintro ⟨_, he, _⟩
  cases he

theorem unseen_append {log' : WorkLog} (h : s.Unseen log) (h' : s.Unseen log') : s.Unseen (log ++ log') :=
  List.forall_mem_append.mpr ⟨h, h'⟩

theorem unseen_refused {r : Web.Response} (h : Refuses s.base .events r e) (elements : List Element) :
    ¬ s.Seen (.asked (.call s.base .events) r) elements := by
  rintro ⟨content, he, hread⟩
  cases he
  cases h with
  | call refused => cases refused
  | screen unread =>
    rw [hread] at unread
    cases unread

def watch (s : Session) : Work Unit :=
  if s.owned then do
    match ← Work.ended with
    | some status => throw (.process (.endedEarly status))
    | none => pure ()
  else pure ()

def listen (s : Session) : Work (Option Unit) := do
  match ← ExceptT.lift s.events.run with
  | .ok _ => return some ()
  | .error _ => return none

def heard (s : Session) : Work (Option Unit) := do
  s.watch
  s.listen

theorem waitForAnswer_eq {deadline : Nat} :
    s.waitForAnswer deadline = s.poll deadline (.startTimeout s.options.startTimeout) s.heard := by
  unfold waitForAnswer heard watch
  cases s.owned with
  | false => rfl
  | true =>
    refine congrArg (s.poll _ _) ?_
    refine congrArg (Dialogue.ask Ask.ended) (funext fun (r : Except Files.OsError (Option Program.ExitStatus)) => ?_)
    match r with
    | .error e => rfl
    | .ok none => rfl
    | .ok (some status) => rfl

theorem closed_watch : s.watch.Closed := by
  unfold watch
  split
  · refine Attempt.closed_demand.bind fun status => ?_
    cases status <;> trivial
  · trivial

theorem flat_watch : s.watch.Flat := by
  unfold watch
  split
  · refine Attempt.flat_demand.bind fun status => ?_
    cases status <;> trivial
  · trivial

theorem closed_listen : s.listen.Closed := by
  refine (Attempt.closed_lift closed_events).bind fun r => ?_
  cases r <;> trivial

theorem flat_listen : s.listen.Flat := by
  refine (Attempt.flat_lift flat_events).bind fun r => ?_
  cases r <;> trivial

theorem watch_gives (h : s.watch.Gives log ()) : log = [] ∨ log = [.asked .ended (.ok none)] := by
  unfold watch at h
  split at h
  · obtain ⟨status, first, rest, rfl, hended, h⟩ := Attempt.gives_bind (.inl Attempt.flat_demand) h
    obtain ⟨r, rfl, hr⟩ := Attempt.gives_demand.mp hended
    cases status with
    | some status => exact absurd h Attempt.gives_throw
    | none =>
      obtain ⟨rfl, _⟩ := Attempt.gives_pure.mp h
      cases r with
      | error cause => cases hr
      | ok status =>
        cases hr
        exact .inr rfl
  · exact .inl (Attempt.gives_pure.mp h).1

/-- Only a process of our own is watched. It has ended, or the system cannot tell. -/
theorem watch_fails (h : s.watch.Fails log e) : s.owned = true ∧
    ((∃ status, log = [.asked .ended (.ok (some status))] ∧ e = .process (.endedEarly status)) ∨
      ∃ cause, log = [.asked .ended (.error cause)] ∧ e = .system cause) := by
  unfold watch at h
  split at h
  · refine ⟨‹_›, ?_⟩
    rcases Attempt.fails_bind (.inl Attempt.flat_demand) h with h | ⟨status, first, rest, rfl, hended, h⟩
    · obtain ⟨r, rfl, hr⟩ := Attempt.fails_demand.mp h
      cases r with
      | ok status => cases hr
      | error cause =>
        cases hr
        exact .inr ⟨cause, rfl, rfl⟩
    · obtain ⟨r, rfl, hr⟩ := Attempt.gives_demand.mp hended
      cases status with
      | none => exact absurd h Attempt.fails_pure
      | some status =>
        obtain ⟨rfl, rfl⟩ := Attempt.fails_throw.mp h
        cases r with
        | error cause => cases hr
        | ok status' =>
          cases hr
          exact .inl ⟨status, rfl, rfl⟩
  · exact absurd h Attempt.fails_pure

theorem listen_gives {found : Option Unit} (h : s.listen.Gives log found) :
    ∃ r, log = [.asked (.call s.base .events) r] ∧
      (found = some () ∧ (∃ elements, s.Seen (.asked (.call s.base .events) r) elements) ∨
        found = none ∧ ∀ elements, ¬ s.Seen (.asked (.call s.base .events) r) elements) := by
  obtain ⟨r, first, rest, rfl, hlift, h⟩ :=
    Attempt.gives_bind (.inl (Attempt.flat_lift flat_events)) h
  have hevents := Attempt.gives_lift hlift
  cases r with
  | ok elements =>
    obtain ⟨rfl, rfl⟩ := Attempt.gives_pure.mp h
    obtain ⟨content, rfl, hread⟩ := events_gives hevents
    exact ⟨_, rfl, .inl ⟨rfl, elements, content, rfl, hread⟩⟩
  | error e =>
    obtain ⟨rfl, rfl⟩ := Attempt.gives_pure.mp h
    obtain ⟨r, rfl, refused⟩ := events_fails hevents
    exact ⟨r, rfl, .inr ⟨rfl, unseen_refused refused⟩⟩

/-- A failing look is borne with here, as the emulator may not answer yet. -/
theorem listen_fails : ¬ s.listen.Fails log e := by
  intro h
  rcases Attempt.fails_bind (.inl (Attempt.flat_lift flat_events)) h with h | ⟨r, first, rest, rfl, _, h⟩
  · exact Attempt.fails_lift h
  · cases r <;> exact Attempt.fails_pure h

theorem closed_heard : s.heard.Closed := closed_watch.bind fun _ => closed_listen

theorem flat_heard : s.heard.Flat := flat_watch.bind fun _ => flat_listen

/-- A look for an answer ends with a look at the screen, of which nothing is seen before. -/
theorem heard_gives {found : Option Unit} (h : s.heard.Gives log found) :
    ∃ front r, log = front ++ [.asked (.call s.base .events) r] ∧ s.Unseen front ∧
      (found = some () ∧ (∃ elements, s.Seen (.asked (.call s.base .events) r) elements) ∨
        found = none ∧ ∀ elements, ¬ s.Seen (.asked (.call s.base .events) r) elements) := by
  obtain ⟨_, front, rest, rfl, hwatch, hlisten⟩ := Attempt.gives_bind (.inl flat_watch) h
  obtain ⟨r, rfl, hfound⟩ := listen_gives hlisten
  refine ⟨front, r, rfl, ?_, hfound⟩
  rcases watch_gives hwatch with rfl | rfl
  · exact List.forall_mem_nil _
  · exact List.forall_mem_singleton.mpr (unseen_ended _)

theorem heard_missed (h : s.heard.Gives log none) :
    s.Unseen log ∧ ∃ r, .asked (.call s.base .events) r ∈ log := by
  obtain ⟨front, r, rfl, hfront, ⟨hfound, _⟩ | ⟨_, hlast⟩⟩ := heard_gives h
  · cases hfound
  · exact ⟨unseen_append hfront (List.forall_mem_singleton.mpr hlast), r, by simp⟩

theorem heard_fails (h : s.heard.Fails log e) : s.owned = true ∧ s.Unseen log ∧
    ((∃ status, log = [.asked .ended (.ok (some status))] ∧ e = .process (.endedEarly status)) ∨
      ∃ cause, log = [.asked .ended (.error cause)] ∧ e = .system cause) := by
  rcases Attempt.fails_bind (.inl flat_watch) h with h | ⟨_, _, _, _, _, h⟩
  · obtain ⟨owned, hended⟩ := watch_fails h
    refine ⟨owned, ?_, hended⟩
    rcases hended with ⟨status, rfl, _⟩ | ⟨cause, rfl, _⟩ <;> exact List.forall_mem_singleton.mpr (unseen_ended _)
  · exact absurd h listen_fails

theorem textShown_missed {wanted : String} (h : (s.textShown wanted).Gives log none) : s.Unmentioned wanted log := by
  obtain ⟨found, hf, hnone⟩ := Attempt.gives_bind_pure h
  cases found with
  | some target => cases hnone
  | none =>
    obtain ⟨content, elements, rfl, hread, hfind⟩ := findText_gives hf
    refine List.forall_mem_singleton.mpr ?_
    rintro _ ⟨content', he, hread'⟩ ⟨target, hmem, hmentions⟩
    cases he
    cases hread.symm.trans hread'
    exact List.find?_eq_none.mp hfind.symm target hmem hmentions

theorem textShown_found {wanted : String} (h : (s.textShown wanted).Gives log (some ())) :
    ∃ content elements, log = [.asked (.call s.base .events) (.body content)] ∧ readScreen content = .ok elements ∧
      Mentioned wanted elements := by
  obtain ⟨found, hf, hsome⟩ := Attempt.gives_bind_pure h
  cases found with
  | none => cases hsome
  | some target =>
    obtain ⟨content, elements, rfl, hread, hfind⟩ := findText_gives hf
    have hmentions := List.find?_some hfind.symm
    exact ⟨content, elements, rfl, hread, target, List.mem_of_find?_eq_some hfind.symm, hmentions⟩

/-- Once the emulator has answered, no failing look is borne with any more. -/
theorem textShown_fails {wanted : String} (h : (s.textShown wanted).Fails log e) :
    ∃ r, log = [.asked (.call s.base .events) r] ∧ Refuses s.base .events r e :=
  findText_fails (Attempt.fails_bind_pure h)

/-- The whole time that a start may take is over. -/
def Overdue (s : Session) (log : WorkLog) : Prop := ∃ (start t : Nat) (middle : WorkLog),
  log = .asked .now start :: (middle ++ [.asked .now t]) ∧ start + s.options.startTimeout ≤ t

inductive Way where
  | process
  | startTimeout
  | screenTimeout
  | request
  | ready
  deriving DecidableEq

/-- How a start ends, with its log from the moment on when there is an emulator to talk to. -/
inductive StartEnds (s : Session) (log : WorkLog) : Way → Except Error Session → Prop
  /-- The process has been found ended, and nothing has been seen. -/
  | process {before : WorkLog} {status : Program.ExitStatus} (owned : s.owned = true)
      (split : log = before ++ [.asked .ended (.ok (some status))]) (unseen : s.Unseen log) :
      StartEnds s log .process (.error (.process (.endedEarly status)))
  | startTimeout {r : Web.Response} (tried : .asked (.call s.base .events) r ∈ log) (unseen : s.Unseen log)
      (overdue : s.Overdue log) :
      StartEnds s log .startTimeout (.error (.startTimeout s.options.startTimeout))
  | screenTimeout {before later : WorkLog} {first : WorkEvent} {elements : List Element}
      (split : log = before ++ first :: later) (unseen : s.Unseen before) (seen : s.Seen first elements)
      (missing : s.Unmentioned s.options.startText later) (overdue : s.Overdue log) :
      StartEnds s log .screenTimeout
        (.error (.screenTimeout (.text s.options.startText) s.options.startTimeout))
  /-- How the process is could not be found out, and nothing has been seen. -/
  | status {before : WorkLog} {cause : Files.OsError} (owned : s.owned = true)
      (split : log = before ++ [.asked .ended (.error cause)]) (unseen : s.Unseen log) :
      StartEnds s log .request (.error (.system cause))
  | request {before : WorkLog} {c : Call} {r : Web.Response} {e : Error}
      (split : log = before ++ [.asked (.call s.base c) r]) (seen : ∃ ev ∈ before, ∃ elements, s.Seen ev elements)
      (refused : Refuses s.base c r e) : StartEnds s log .request (.error e)
  /-- The home screen is the one behind a look that has found the text. -/
  | ready {before : WorkLog} {content png : Bytes} {elements : List Element}
      (split : log = before ++ [.asked (.call s.base .events) (.body content),
        .asked (.call s.base .screenshot) (.body png)])
      (read : readScreen content = .ok elements) (mentioned : Mentioned s.options.startText elements) :
      StartEnds s log .ready (.ok { s with mainMenu := some ⟨png⟩ })

def Way.ofResult : Except Error Session → Way
  | .ok _ => .ready
  | .error (.process _) => .process
  | .error (.startTimeout _) => .startTimeout
  | .error (.screenTimeout _ _) => .screenTimeout
  | .error _ => .request

/-- The result tells in which way a start has ended. -/
theorem StartEnds.way_eq {way : Way} {r : Except Error Session} (h : StartEnds s log way r) : way = .ofResult r := by
  cases h with
  | request split seen refused => rcases refused.cause with ⟨cause, rfl⟩ | ⟨cause, rfl⟩ <;> rfl
  | process | startTimeout | screenTimeout | status | ready => rfl

/-- How the wait for an answer is over: with an end of the whole start, or with a first look that succeeded. -/
theorem waitForAnswer_ends {start : Nat} {r : Except Error Unit}
    (h : Goes (s.waitForAnswer (start + s.options.startTimeout)).run log (.value r)) :
    (∃ e way, r = .error e ∧ StartEnds s (.asked .now start :: log) way (.error e)) ∨
      ∃ before first elements, r = .ok () ∧ log = before ++ [first] ∧ s.Unseen before ∧ s.Seen first elements := by
  rw [waitForAnswer_eq] at h
  obtain ⟨before, last, rfl, hbefore, hlast⟩ := poll_ends flat_heard closed_heard h
  have hmissed : s.Unseen before :=
    hbefore.all (fun _ missed => (heard_missed missed).1) unseen_now (unseen_paused _)
  have hfront : s.Unseen (.asked .now start :: before) := List.forall_mem_cons.mpr ⟨unseen_now start, hmissed⟩
  cases hlast with
  | found found =>
    obtain ⟨front, r, rfl, hunseen, ⟨_, elements, hseen⟩ | ⟨hnone, _⟩⟩ := heard_gives found
    · exact .inr ⟨before ++ front, _, elements, rfl, (List.append_assoc ..).symm, unseen_append hmissed hunseen, hseen⟩
    · cases hnone
  | failed failed =>
    obtain ⟨owned, hunseen, ⟨status, rfl, rfl⟩ | ⟨cause, rfl, rfl⟩⟩ := heard_fails failed
    · exact .inl ⟨_, _, rfl, .process owned List.cons_append.symm (unseen_append hfront hunseen)⟩
    · exact .inl ⟨_, _, rfl, .status owned List.cons_append.symm (unseen_append hfront hunseen)⟩
  | @late last t missed past =>
    obtain ⟨hunseen, r, hr⟩ := heard_missed missed
    have hnow : s.Unseen [.asked .now t] := List.forall_mem_singleton.mpr (unseen_now t)
    refine .inl ⟨_, _, rfl, .startTimeout (r := r) (by simp [hr]) ?_ ⟨start, t, before ++ last, by simp, past⟩⟩
    exact unseen_append hfront (unseen_append hunseen hnow)

/-- How the wait for the text is over, behind a first look that has succeeded. -/
theorem waitForText_ends {start : Nat} {before : WorkLog} {first : WorkEvent} {elements : List Element}
    (unseen : s.Unseen before) (seen : s.Seen first elements) {r : Except Error Unit}
    (h : Goes (s.waitForTextUntil s.options.startText (start + s.options.startTimeout) s.options.startTimeout).run log
      (.value r)) :
    (∃ e way, r = .error e ∧ StartEnds s (.asked .now start :: (before ++ first :: log)) way (.error e)) ∨
      ∃ looks content elements, r = .ok () ∧ log = looks ++ [.asked (.call s.base .events) (.body content)] ∧
        readScreen content = .ok elements ∧ Mentioned s.options.startText elements := by
  obtain ⟨turns, last, rfl, hturns, hlast⟩ := poll_ends flat_textShown closed_textShown h
  have hseen : ∃ ev ∈ .asked .now start :: (before ++ first :: turns), ∃ elements, s.Seen ev elements :=
    ⟨first, by simp, elements, seen⟩
  cases hlast with
  | found found =>
    obtain ⟨content, elements, rfl, hread, hmentioned⟩ := textShown_found found
    exact .inr ⟨turns, content, elements, rfl, rfl, hread, hmentioned⟩
  | failed failed =>
    obtain ⟨r, rfl, refused⟩ := textShown_fails failed
    exact .inl ⟨_, _, rfl, .request (by simp) hseen refused⟩
  | @late last t missed past =>
    have hmissed : s.Unmentioned s.options.startText turns :=
      hturns.all (fun _ missed => textShown_missed missed) (fun t elements h => absurd h (unseen_now t elements))
        fun elements h => absurd h (unseen_paused _ elements)
    have hnow : s.Unmentioned s.options.startText [.asked .now t] :=
      List.forall_mem_singleton.mpr fun elements h => absurd h (unseen_now t elements)
    have hlater : s.Unmentioned s.options.startText (turns ++ (last ++ [.asked .now t])) :=
      List.forall_mem_append.mpr ⟨hmissed, List.forall_mem_append.mpr ⟨textShown_missed missed, hnow⟩⟩
    refine .inl ⟨_, _, rfl, .screenTimeout List.cons_append.symm ?_ seen hlater ?_⟩
    · exact List.forall_mem_cons.mpr ⟨unseen_now start, unseen⟩
    · exact ⟨start, t, before ++ first :: (turns ++ last), by simp, past⟩

def takeHome (s : Session) : Work Session := do
  let home ← s.snapshot
  return { s with mainMenu := some home }

theorem closed_takeHome : s.takeHome.Closed := closed_snapshot.bind fun _ => Attempt.closed_pure

theorem takeHome_ends (before : WorkLog) {content : Bytes} {elements : List Element} {r : Except Error Session}
    (read : readScreen content = .ok elements) (mentioned : Mentioned s.options.startText elements)
    (h : Goes s.takeHome.run log (.value r)) :
    ∃ way, StartEnds s (before ++ .asked (.call s.base .events) (.body content) :: log) way r := by
  rcases Attempt.value_bind (.inr fun _ => Attempt.closed_pure) h with
    ⟨home, first, rest, rfl, hhome, h⟩ | ⟨e, rfl, hhome⟩
  · obtain ⟨rfl, he | he⟩ := goes_done.mp h
    · cases he
    · cases he
      rw [snapshot_gives hhome]
      exact ⟨_, .ready rfl read mentioned⟩
  · obtain ⟨r, rfl, refused⟩ := snapshot_fails hhome
    have seen : s.Seen (.asked (.call s.base .events) (.body content)) elements := ⟨content, rfl, read⟩
    exact ⟨_, .request (List.append_cons ..) ⟨_, by simp, elements, seen⟩ (.call refused)⟩

def readyBy (s : Session) (deadline : Nat) : Work Session := do
  s.waitForAnswer deadline
  s.waitForTextUntil s.options.startText deadline s.options.startTimeout
  s.takeHome

theorem readyBy_ends {start : Nat} {r : Except Error Session}
    (h : Goes (s.readyBy (start + s.options.startTimeout)).run log (.value r)) :
    ∃ way, StartEnds s (.asked .now start :: log) way r := by
  rcases Attempt.value_bind (.inr fun _ => closed_poll.bind fun _ => closed_takeHome) h with
    ⟨_, answer, rest, rfl, hanswer, hbehind⟩ | ⟨e, rfl, hanswer⟩
  · rcases waitForAnswer_ends hanswer with ⟨_, _, he, _⟩ | ⟨before, first, elements, _, rfl, hunseen, hseen⟩
    · cases he
    rcases Attempt.value_bind (.inr fun _ => closed_takeHome) hbehind with
      ⟨_, text, rest, rfl, htext, hhome⟩ | ⟨e, rfl, htext⟩
    · rcases waitForText_ends hunseen hseen htext with ⟨_, _, he, _⟩ | ⟨looks, content, screen, _, rfl, hread, hfound⟩
      · cases he
      obtain ⟨way, hends⟩ := takeHome_ends (.asked .now start :: (before ++ first :: looks)) hread hfound hhome
      exact ⟨way, by simpa using hends⟩
    · rcases waitForText_ends hunseen hseen htext with ⟨_, way, he, hends⟩ | ⟨_, _, _, he, _⟩
      · cases he
        exact ⟨way, by simpa using hends⟩
      · cases he
  · rcases waitForAnswer_ends hanswer with ⟨_, way, he, hends⟩ | ⟨_, _, _, he, _⟩
    · cases he
      exact ⟨way, hends⟩
    · cases he

/-- However a wait for the home screen ends, it is in one of the ways. -/
theorem waitReady_ends {r : Except Error Session} (h : Goes s.waitReady.run log (.value r)) :
    ∃ way, StartEnds s log way r := by
  rcases Attempt.value_bind (.inl Attempt.flat_query) h with ⟨start, first, rest, rfl, hq, h⟩ | ⟨e, _, hq⟩
  · rw [Attempt.gives_query.mp hq]
    exact readyBy_ends h
  · exact absurd hq Attempt.fails_query

/-- A start that has come to an emulator to talk to, with its log up to there. The emulator was running before, or its
process has just been spawned. -/
inductive Launch : Work Session → WorkLog → Session → Prop
  | attach (address : String) (o : Options) : Launch (attach address o) [] ⟨o, Web.base address, none, false⟩
  | start (env : Environment) (elf : String) (o : Options) (apiPort apduPort : Nat) :
      Launch (Session.start env elf o)
        [.asked (.files (.isFile elf)) true, .asked .freePort (.ok apiPort), .asked .freePort (.ok apduPort),
          .asked (.spawn (o.binary env) (o.arguments apiPort apduPort elf)) (.ok ())]
        ⟨o, Web.base (Web.ofPort apiPort), none, true⟩

variable {x : Work Session} {front : WorkLog}

theorem Launch.goes_iff {ending : Ending Nat (Except Error Session)} (h : Launch x front s) :
    Goes x.run (front ++ log) ending ↔ Goes s.waitReady.run log ending := by
  cases h with
  | attach address o => rfl
  | start env elf o apiPort apduPort =>
    exact goes_asked.trans (goes_asked.trans (goes_asked.trans goes_asked))

theorem Launch.closed (h : Launch x front s) : x.Closed := by
  cases h with
  | attach address o => exact closed_waitReady
  | start env elf o apiPort apduPort =>
    refine Attempt.closed_query.bind fun isFile => ?_
    dsimp only
    split
    · exact Attempt.closed_demand.bind fun _ => Attempt.closed_demand.bind fun _ =>
        Attempt.closed_demand.bind fun _ => closed_waitReady
    · exact Attempt.closed_throw.bind fun _ => Attempt.closed_demand.bind fun _ => Attempt.closed_demand.bind fun _ =>
        Attempt.closed_demand.bind fun _ => closed_waitReady

theorem haltsAtOnce_heard {replies : Nat → (q : Ask) → Reply q} {clock : Nat → Nat} :
    HaltsAtOnce replies clock s.heard := by
  have ended : HaltsAtOnce replies clock Work.ended := haltsAtOnce_demand nofun
  refine HaltsAtOnce.bind ?_ fun _ => (haltsAtOnce_lift haltsAtOnce_events).bind fun r => ?_
  · unfold watch
    split
    · refine ended.bind fun status => ?_
      cases status with
      | none => exact haltsAtOnce_pure _
      | some status => exact haltsAtOnce_throw _
    · exact haltsAtOnce_pure _
  · cases r <;> exact haltsAtOnce_pure _

/-- Both polls come to an end with a clock that goes on, whatever is replied. -/
theorem halts_waitReady {replies : Nat → (q : Ask) → Reply q} {clock : Nat → Nat} (passes : PassesDeadlines clock) :
    Halts replies clock s.waitReady := by
  refine halts_now.bind fun start => ?_
  have hanswer : Halts replies clock (s.waitForAnswer (start + s.options.startTimeout)) := by
    rw [waitForAnswer_eq]
    exact halts_poll haltsAtOnce_heard flat_heard passes
  refine hanswer.bind fun _ => (halts_poll haltsAtOnce_textShown flat_textShown passes).bind fun _ => ?_
  exact haltsAtOnce_snapshot.halts.bind fun _ => (haltsAtOnce_pure _).halts

/-- A review that is given a home screen does not miss it. -/
theorem review_knows_home {home : Snapshot} {env : Environment} {dir name : String} {awaited : Option String}
    {p : Position Ask Reply Nat (Except Suite.Error Unit)} (menu : s.mainMenu = some home)
    (h : Trail (Dialogue.start (Suite.review s env dir name awaited).run) log p) :
    p.move ≠ .finish (.error .noMainMenu) := by
  intro ended
  obtain ⟨cause, he⟩ := Suite.review_fails menu ((h.start_follows Suite.closed_review).2 _ ended)
  cases he

/-- Once there is an emulator, its start comes to an end with every clock that goes on, and every end is in exactly one
of the ways. One that succeeds has a home screen, which no review misses. -/
theorem start_outcome (h : Launch x front s) :
    (∀ log p r, Trail (Dialogue.start x.run) (front ++ log) p → p.move = .finish r →
      (∃! way, StartEnds s log way r) ∧ ∀ s', r = .ok s' → s'.mainMenu.isSome = true ∧
        ∀ env dir name awaited log' p', Trail (Dialogue.start (Suite.review s' env dir name awaited).run) log' p' →
          p'.move ≠ .finish (.error .noMainMenu)) ∧
    ∀ replies clock, PassesDeadlines clock → ∃ log p r v, Trail (Dialogue.start x.run) (front ++ log) p ∧
      p.move = .finish r ∧ Half.Answered (replay replies clock) (0, 0) log v := by
  constructor
  · intro log p r htrail hended
    have hgoes := h.goes_iff.mp ((htrail.start_follows h.closed).2 r hended)
    obtain ⟨way, hends⟩ := waitReady_ends hgoes
    refine ⟨⟨way, hends, fun way' hends' => hends'.way_eq.trans hends.way_eq.symm⟩, ?_⟩
    rintro s' rfl
    obtain ⟨home, menu⟩ := waitReady_gives hgoes
    exact ⟨by rw [menu]; rfl, fun env dir name awaited log' p' => review_knows_home menu⟩
  · intro replies clock passes
    have hhalts : Halts replies clock s.waitReady := halts_waitReady passes
    obtain ⟨r, v, yields⟩ := hhalts (0, 0)
    obtain ⟨log, goes, answered⟩ := yields.goes
    obtain ⟨p, trail, finish, _⟩ := (h.goes_iff.mpr goes).trail x.run
    exact ⟨log, p, r, v, trail, finish r rfl, answered⟩

/-- An emulator that answers at once and shows the text at the second look. -/
theorem attached_started : ∃ p, Trail (Dialogue.start (attach "http://127.0.0.1:5000" {}).run) Suite.attachLog p ∧
    p.move = .finish (.ok Suite.attached) ∧
    (∃! way, StartEnds ⟨{}, "http://127.0.0.1:5000", none, false⟩ Suite.attachLog way (.ok Suite.attached)) ∧
    Suite.attached.mainMenu.isSome = true := by
  have htrail : Trail (Dialogue.start (attach "http://127.0.0.1:5000" {}).run) Suite.attachLog _ :=
    .ask _ rfl (.ask _ rfl (.ask _ rfl (.ask _ rfl (.here _))))
  obtain ⟨hway, hmenu⟩ := (start_outcome (.attach "http://127.0.0.1:5000" {})).1 Suite.attachLog _ _ htrail rfl
  exact ⟨_, htrail, rfl, hway, (hmenu _ rfl).1⟩

end SignerBench.Emulator.Session
