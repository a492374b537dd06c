import SignerBench.Proofs.SteadyReview

namespace SignerBench.Emulator.Session

open Dialogue Device

variable {s : Session} {log log' : WorkLog} {e : Error} {current next : Snapshot}

def shot (s : Session) (snap : Snapshot) : WorkEvent := .asked (.call s.base .screenshot) (.body snap.png)

/-- A part of a wait in which the pixels have stayed the same. -/
structure Stays (current : Snapshot) (log : WorkLog) : Prop where
  looks : ∀ ev ∈ log, Looks ev
  same : ∀ snap ∈ captures log, snap.samePixels current = true

/-- A wait that is over with the first screen that has other pixels. -/
def Leaves (s : Session) (current : Snapshot) (log : WorkLog) (next : Snapshot) : Prop :=
  ∃ before, log = before ++ [s.shot next] ∧ Stays current before ∧ next.samePixels current = false

/-- A wait that has failed: a screen could not be captured, or all of them had the same pixels until it was late. -/
inductive Stuck (s : Session) (current : Snapshot) : WorkLog → Error → Prop
  | refused {before : WorkLog} {r : Web.Response} {e : Error} (stays : Stays current before)
      (refused : Call.screenshot.content s.base r = .error e) :
      Stuck s current (before ++ [.asked (.call s.base .screenshot) r]) e
  | late {before : WorkLog} {t : Nat} (stays : Stays current before) (seen : captures before ≠ []) :
      Stuck s current (before ++ [.asked .now t]) (.screenTimeout .change s.options.screenTimeout)

inductive WaitEnds (s : Session) (current : Snapshot) (log : WorkLog) : Ending Nat (Except Error Snapshot) → Prop
  | going (looks : ∀ ev ∈ log, Looks ev) : WaitEnds s current log .going
  | changed {next : Snapshot} (leaves : s.Leaves current log next) : WaitEnds s current log (.value (.ok next))
  | stuck {e : Error} (stuck : s.Stuck current log e) : WaitEnds s current log (.value (.error e))

theorem stays_nil : Stays current [] := ⟨List.forall_mem_nil _, List.forall_mem_nil _⟩

theorem stays_now (t : Nat) : Stays current [.asked .now t] :=
  ⟨List.forall_mem_singleton.mpr trivial, List.forall_mem_nil _⟩

theorem stays_paused (p : Nat) : Stays current [.paused p] :=
  ⟨List.forall_mem_singleton.mpr trivial, List.forall_mem_nil _⟩

theorem Stays.append (h : Stays current log) (h' : Stays current log') : Stays current (log ++ log') := by
  refine ⟨List.forall_mem_append.mpr ⟨h.looks, h'.looks⟩, ?_⟩
  rw [captures_append]
  exact List.forall_mem_append.mpr ⟨h.same, h'.same⟩

/-- A look that finds nothing has captured a screen with the same pixels. -/
theorem otherScreen_missed (h : (s.otherScreen current).Gives log none) :
    Stays current log ∧ captures log ≠ [] := by
  obtain ⟨snap, hs, hnone⟩ := Attempt.gives_bind_pure h
  rw [snapshot_gives hs]
  split at hnone
  · rename_i hsame
    exact ⟨⟨List.forall_mem_singleton.mpr (.inr rfl), List.forall_mem_singleton.mpr hsame⟩, List.cons_ne_nil _ _⟩
  · cases hnone

/-- The new screen is the last thing that was captured, and the only one in this look. -/
theorem otherScreen_found (h : (s.otherScreen current).Gives log (some next)) :
    log = [s.shot next] ∧ next.samePixels current = false := by
  obtain ⟨snap, hs, hsome⟩ := Attempt.gives_bind_pure h
  split at hsome
  · cases hsome
  · rename_i hdiffers
    cases hsome
    exact ⟨snapshot_gives hs, by simpa using hdiffers⟩

theorem Misses.stays {pause deadline : Nat} (h : Misses pause deadline (s.otherScreen current) log) :
    Stays current log := by
  induction h with
  | nil => exact stays_nil
  | @turn first rest t missed _ _ ih =>
    have hturn := ((otherScreen_missed missed).1.append (stays_now t)).append ((stays_paused pause).append ih)
    simpa using hturn

/-- All that a wait can do, while it is under way and when it is over. -/
theorem waitUntilNot_exact {ending : Ending Nat (Except Error Snapshot)}
    (h : Goes (s.waitUntilNot current).run log ending) : s.WaitEnds current log ending := by
  obtain ⟨hlooks, _⟩ := waitUntilNot_ends h
  rcases timedPoll_ends flat_otherScreen closed_otherScreen h with
    ⟨rfl, rfl⟩ | ⟨start, before, last, rfl, hbefore, hlast⟩
  · exact .going hlooks
  · have hstays : Stays current (.asked .now start :: before) := (stays_now start).append hbefore.stays
    cases hlast with
    | looking _ => exact .going hlooks
    | missing _ => exact .going hlooks
    | found hl =>
      obtain ⟨rfl, hdiffers⟩ := otherScreen_found hl
      exact .changed ⟨_, List.cons_append.symm, hstays, hdiffers⟩
    | failed hl =>
      obtain ⟨r, rfl, refused⟩ := otherScreen_fails hl
      exact .stuck (.refused hstays refused)
    | @late look t missed past =>
      obtain ⟨hlast, hseen⟩ := otherScreen_missed missed
      have hall := hstays.append hlast
      rw [List.cons_append] at hall
      rw [← List.append_assoc, ← List.cons_append]
      refine .stuck (.late hall ?_)
      rw [← List.cons_append, captures_append]
      exact List.append_ne_nil_of_right_ne_nil _ hseen

/-- Steps that were performed one after the other, with the screens that each of them was left for. -/
inductive Walked (s : Session) : Snapshot → WorkLog → List Step → List Snapshot → Prop
  | nil (current : Snapshot) : Walked s current [] [] []
  | cons {current next : Snapshot} {step : Step} {steps : List Step} {shots : List Snapshot}
      {act wait rest : WorkLog} (performed : s.Performed (actsOf step) act) (leaves : s.Leaves current wait next)
      (tail : Walked s next rest steps shots) :
      Walked s current (act ++ wait ++ rest) (step :: steps) (next :: shots)

/-- What follows steps that were performed, if it is not the end of the walk: the next step or the wait behind it, which
are under way or have failed. -/
inductive Unfinished (s : Session) (current : Snapshot) : List Step → WorkLog → Option Error → Prop
  | between (steps : List Step) : Unfinished s current steps [] none
  | acting {step : Step} {steps : List Step} {act : WorkLog} (tried : s.Tried (actsOf step) act) :
      Unfinished s current (step :: steps) act none
  | refused {step : Step} {steps : List Step} {act : WorkLog} {e : Error} (refused : s.Refused (actsOf step) act e) :
      Unfinished s current (step :: steps) act (some e)
  | waiting {step : Step} {steps : List Step} {act wait : WorkLog} (performed : s.Performed (actsOf step) act)
      (looks : ∀ ev ∈ wait, Looks ev) : Unfinished s current (step :: steps) (act ++ wait) none
  | stuck {step : Step} {steps : List Step} {act wait : WorkLog} {e : Error}
      (performed : s.Performed (actsOf step) act) (stuck : s.Stuck current wait e) :
      Unfinished s current (step :: steps) (act ++ wait) (some e)

def stopped {α : Type} : Option Error → Ending Nat (Except Error α)
  | none => .going
  | some e => .value (.error e)

inductive WalkEnds (s : Session) (current : Snapshot) (taken : List Snapshot) (steps : List Step) :
    WorkLog → Ending Nat (Except Error (List Snapshot)) → Prop
  | arrived {log : WorkLog} {shots : List Snapshot} (walked : s.Walked current log steps shots) :
      WalkEnds s current taken steps log (.value (.ok (taken ++ shots)))
  | unfinished (done : List Step) (walked : WorkLog) {rest : List Step} {log : WorkLog} {shots : List Snapshot}
      {failure : Option Error} (split : steps = done ++ rest) (before : s.Walked current walked done shots)
      (unfinished : s.Unfinished (shots.getLastD current) rest log failure) :
      WalkEnds s current taken steps (walked ++ log) (stopped failure)

theorem closed_performAll {taken : List Snapshot} {steps : List Step} : (s.performAll current taken steps).Closed := by
  induction steps generalizing current taken with
  | nil => exact Attempt.closed_pure
  | cons step rest ih => exact closed_perform.bind fun _ => closed_waitUntilNot.bind fun next => ih

/-- One step further on, the walk along the rest is a walk from here. -/
theorem WalkEnds.behind {taken : List Snapshot} {step : Step} {steps : List Step} {act wait : WorkLog}
    {ending : Ending Nat (Except Error (List Snapshot))} (performed : s.Performed (actsOf step) act)
    (leaves : s.Leaves current wait next) (h : s.WalkEnds next (taken ++ [next]) steps log ending) :
    s.WalkEnds current taken (step :: steps) (act ++ (wait ++ log)) ending := by
  rw [← List.append_assoc]
  cases h with
  | @arrived _ shots walked =>
    rw [List.append_assoc taken, List.singleton_append]
    exact .arrived (.cons performed leaves walked)
  | unfinished done walked split before unfinished =>
    rw [← List.append_assoc]
    refine .unfinished (step :: done) _ (by rw [split]; rfl) (.cons performed leaves before) ?_
    rwa [List.getLastD_cons]

/-- The induction is on the steps that are left. -/
theorem performAll_ends {taken : List Snapshot} {steps : List Step} {ending : Ending Nat (Except Error (List Snapshot))}
    (h : Goes (s.performAll current taken steps).run log ending) : s.WalkEnds current taken steps log ending := by
  induction steps generalizing current taken log ending with
  | nil =>
    obtain ⟨rfl, rfl | rfl⟩ := goes_done.mp h
    · exact .unfinished [] [] rfl (.nil current) (.between [])
    · have hwhole : s.WalkEnds current taken [] [] (.value (.ok (taken ++ []))) := .arrived (.nil current)
      rwa [List.append_nil] at hwhole
  | cons step steps ih =>
    have start {here : WorkLog} {failure : Option Error}
        (unfinished : s.Unfinished current (step :: steps) here failure) :
        s.WalkEnds current taken (step :: steps) here (stopped failure) :=
      .unfinished [] [] rfl (.nil current) unfinished
    rcases Attempt.bind_cases (.inr fun _ => closed_waitUntilNot.bind fun _ => closed_performAll) h with
      ⟨_, act, rest, rfl, ha, hr⟩ | ⟨e, rfl, ha⟩ | ⟨rfl, ha⟩ | ⟨p, rfl, ha⟩
    · cases perform_ends ha with
      | done performed =>
        rcases Attempt.bind_cases (.inr fun _ => closed_performAll) hr with
          ⟨next, wait, rest, rfl, hw, hrest⟩ | ⟨e, rfl, hw⟩ | ⟨rfl, hw⟩ | ⟨p, rfl, hw⟩
        · cases waitUntilNot_exact hw with
          | changed leaves => exact (ih hrest).behind performed leaves
        · cases waitUntilNot_exact hw with
          | stuck stuck => exact start (.stuck performed stuck)
        · cases waitUntilNot_exact hw with
          | going looks => exact start (.waiting performed looks)
        · exact absurd hw (Goes.not_again closed_waitUntilNot)
    · cases perform_ends ha with
      | refused refused => exact start (.refused refused)
    · cases perform_ends ha with
      | going tried => exact start (.acting tried)
    · exact absurd ha (Goes.not_again closed_perform)

theorem Leaves.looks (h : s.Leaves current log next) : ∀ ev ∈ log, Looks ev := by
  obtain ⟨before, rfl, stays, _⟩ := h
  exact List.forall_mem_append.mpr ⟨stays.looks, List.forall_mem_singleton.mpr (.inr rfl)⟩

theorem Stuck.looks (h : s.Stuck current log e) : ∀ ev ∈ log, Looks ev := by
  cases h with
  | refused stays refused => exact List.forall_mem_append.mpr ⟨stays.looks, List.forall_mem_singleton.mpr (.inr rfl)⟩
  | late stays seen => exact List.forall_mem_append.mpr ⟨stays.looks, List.forall_mem_singleton.mpr trivial⟩

/-- Each step that was performed is on the log once, in its order, and nothing else was done to the device. -/
theorem Walked.inputs {steps : List Step} {shots : List Snapshot} (h : s.Walked current log steps shots) :
    inputs log = steps.flatMap stepCalls := by
  induction h with
  | nil current => rfl
  | cons performed leaves tail ih =>
    rw [inputs_append, inputs_append, performed.inputs, inputs_of_looks leaves.looks, ih, List.append_nil,
      List.flatMap_cons]

/-- No comparison is begun while steps are left. -/
theorem Walked.noFiles {steps : List Step} {shots : List Snapshot} (h : s.Walked current log steps shots) :
    ∀ ev ∈ log, ¬ AsksFiles ev := by
  induction h with
  | nil current => exact List.forall_mem_nil _
  | cons performed leaves tail ih =>
    have hwait : ∀ ev ∈ _, ¬ AsksFiles ev := fun ev hev => (leaves.looks ev hev).not_files
    exact List.forall_mem_append.mpr ⟨List.forall_mem_append.mpr ⟨performed.tried.noFiles, hwait⟩, ih⟩

theorem Walked.count {steps : List Step} {shots : List Snapshot} (h : s.Walked current log steps shots) :
    shots.length = steps.length := by
  induction h with
  | nil current => rfl
  | cons performed leaves tail ih => exact congrArg (· + 1) ih

/-- Each screen differs from the one before it. Screens further apart may be the same. -/
theorem Walked.differ {steps : List Step} {shots : List Snapshot} (h : s.Walked current log steps shots) :
    (current :: shots).IsChain fun a b => b.samePixels a = false := by
  induction h with
  | nil current => exact .singleton _
  | cons performed leaves tail ih =>
    obtain ⟨_, _, _, differs⟩ := leaves
    exact List.isChain_cons_cons.mpr ⟨differs, ih⟩

/-- A walk that breaks off has performed a beginning of its steps. -/
theorem Unfinished.inputs {steps : List Step} {failure : Option Error} (h : s.Unfinished current steps log failure) :
    inputs log <+: steps.flatMap stepCalls := by
  cases h with
  | between steps => exact List.nil_prefix
  | acting tried => exact tried.inputs.trans (List.prefix_append ..)
  | refused refused => exact refused.tried.inputs.trans (List.prefix_append ..)
  | waiting performed looks =>
    rw [inputs_append, performed.inputs, inputs_of_looks looks, List.append_nil]
    exact List.prefix_append ..
  | stuck performed stuck =>
    rw [inputs_append, performed.inputs, inputs_of_looks stuck.looks, List.append_nil]
    exact List.prefix_append ..

theorem Unfinished.noFiles {steps : List Step} {failure : Option Error} (h : s.Unfinished current steps log failure) :
    ∀ ev ∈ log, ¬ AsksFiles ev := by
  cases h with
  | between steps => exact List.forall_mem_nil _
  | acting tried => exact tried.noFiles
  | refused refused => exact refused.tried.noFiles
  | waiting performed looks =>
    exact List.forall_mem_append.mpr ⟨performed.tried.noFiles, fun ev hev => (looks ev hev).not_files⟩
  | stuck performed stuck =>
    exact List.forall_mem_append.mpr ⟨performed.tried.noFiles, fun ev hev => (stuck.looks ev hev).not_files⟩

/-- A wait does not go past the first screen that has changed. -/
theorem Stays.not_prefix {before : WorkLog} (h : Stays current log) (differs : next.samePixels current = false) :
    ¬ before ++ [s.shot next] <+: log := by
  intro shorter
  have hmem : s.shot next ∈ log := shorter.subset (List.mem_append_right _ List.mem_cons_self)
  have hcaptured : next ∈ captures log := List.mem_filterMap.mpr ⟨_, hmem, rfl⟩
  rw [h.same next hcaptured] at differs
  cases differs

theorem Leaves.eq_of_prefix {next' : Snapshot} (h : s.Leaves current log next) (h' : s.Leaves current log' next')
    (both : log <+: log') : log = log' := by
  obtain ⟨before, rfl, _, differs⟩ := h
  obtain ⟨before', rfl, stays, _⟩ := h'
  exact (List.prefix_concat_iff.mp both).resolve_right (stays.not_prefix differs)

/-- A wait is over at one place only, whatever follows. -/
theorem Leaves.unique {next' : Snapshot} {rest rest' : WorkLog} (h : s.Leaves current log next)
    (h' : s.Leaves current log' next') (both : log ++ rest <+: log' ++ rest') :
    log = log' ∧ next = next' ∧ rest <+: rest' := by
  have hlog : log = log' := by
    rcases List.prefix_or_prefix_of_prefix ((List.prefix_append log rest).trans both) (List.prefix_append log' rest')
      with shorter | longer
    · exact h.eq_of_prefix h' shorter
    · exact (h'.eq_of_prefix h longer).symm
  subst hlog
  refine ⟨rfl, ?_, (List.prefix_append_right_inj log).mp both⟩
  obtain ⟨before, rfl, _⟩ := h
  obtain ⟨before', hsame, _⟩ := h'
  obtain ⟨_, hshot⟩ := List.append_inj' hsame rfl
  cases next
  cases next'
  cases hshot
  rfl

/-- A wait that has failed has seen no other screen, so it cannot be one that is over. -/
theorem Stuck.not_leaves (h : s.Stuck current log' e) (h' : s.Leaves current log next) : ¬ log <+: log' := by
  intro both
  obtain ⟨before, rfl, _, differs⟩ := h'
  cases h with
  | refused stays refused =>
    rcases List.prefix_concat_iff.mp both with same | shorter
    · obtain ⟨_, hshot⟩ := List.append_inj' same rfl
      cases hshot
      cases refused
    · exact stays.not_prefix differs shorter
  | late stays seen =>
    rcases List.prefix_concat_iff.mp both with same | shorter
    · obtain ⟨_, hshot⟩ := List.append_inj' same rfl
      cases hshot
    · exact stays.not_prefix differs shorter

/-- A walk that has failed has not come to the end of its steps. -/
theorem Unfinished.not_walked {done rest : List Step} {shots all : List Snapshot} {walked whole : WorkLog}
    (before : s.Walked current walked done shots) (failed : s.Unfinished (shots.getLastD current) rest log (some e))
    (h : s.Walked current whole (done ++ rest) all) : ¬ whole <+: walked ++ log := by
  intro both
  induction before generalizing whole all with
  | nil current =>
    cases failed with
    | refused refused =>
      cases h with
      | cons performed leaves tail =>
        rw [List.append_assoc] at both
        exact refused.not_performed performed ((List.prefix_append ..).trans both)
    | stuck performed' stuck =>
      cases h with
      | cons performed leaves tail =>
        rw [List.nil_append, List.append_assoc] at both
        obtain ⟨rfl, hwait⟩ := performed.unique performed' both
        exact stuck.not_leaves leaves ((List.prefix_append ..).trans hwait)
  | cons performed' leaves' tail' ih =>
    rw [List.getLastD_cons] at failed
    cases h with
    | cons performed leaves tail =>
      simp only [List.append_assoc] at both
      obtain ⟨rfl, hwait⟩ := performed.unique performed' both
      obtain ⟨rfl, rfl, hrest⟩ := leaves.unique leaves' hwait
      exact ih failed tail hrest

section

variable {env : Environment} {dir name : String} {schedule : List Step}

/-- How a walk along a schedule ends: before its first screen, at one of its steps, or in the comparison. -/
inductive NavigationEnds (s : Session) (env : Environment) (dir name : String) (schedule : List Step) :
    WorkLog → Ending Nat (Except Error Unit) → Prop
  | starting {log : WorkLog} (first : log = [] ∨ ∃ r, log = [.asked (.call s.base .screenshot) r]) :
      NavigationEnds s env dir name schedule log .going
  | unseen {r : Web.Response} {e : Error} (refused : Call.screenshot.content s.base r = .error e) :
      NavigationEnds s env dir name schedule [.asked (.call s.base .screenshot) r] (.value (.error e))
  | unfinished {first : Snapshot} {done rest : List Step} {walked log : WorkLog} {shots : List Snapshot}
      {failure : Option Error} (split : schedule = done ++ rest) (before : s.Walked first walked done shots)
      (unfinished : s.Unfinished (shots.getLastD first) rest log failure) :
      NavigationEnds s env dir name schedule (s.shot first :: (walked ++ log)) (stopped failure)
  | comparing {first : Snapshot} {walked files : WorkLog} {shots : List Snapshot}
      {ending : Ending Nat (Except Error Unit)} (walk : s.Walked first walked schedule shots)
      (count : (first :: shots).length = schedule.length + 1)
      (differ : (first :: shots).IsChain fun a b => b.samePixels a = false)
      (check : Goes (Work.check (Snapshot.Goldens.compare env dir name (first :: shots))).run files ending) :
      NavigationEnds s env dir name schedule (s.shot first :: (walked ++ files)) ending

theorem closed_navigate : (s.navigate env dir name schedule).Closed :=
  closed_snapshot.bind fun _ => closed_performAll.bind fun _ => closed_check

theorem navigate_ends {ending : Ending Nat (Except Error Unit)}
    (h : Goes (s.navigate env dir name schedule).run log ending) :
    s.NavigationEnds env dir name schedule log ending := by
  rcases Attempt.bind_cases (.inr fun _ => closed_performAll.bind fun _ => closed_check) h with
    ⟨first, start, rest, rfl, hf, hr⟩ | ⟨e, rfl, hf⟩ | ⟨rfl, hf⟩ | ⟨p, rfl, hf⟩
  · rw [snapshot_gives hf, List.singleton_append]
    rcases Attempt.bind_cases (.inr fun _ => closed_check) hr with
      ⟨taken, walk, files, rfl, hw, hc⟩ | ⟨e, rfl, hw⟩ | ⟨rfl, hw⟩ | ⟨p, rfl, hw⟩
    · have hwalk := performAll_ends hw
      generalize he : Ending.value (Except.ok taken) = ending' at hwalk
      cases hwalk with
      | arrived walked =>
        cases he
        exact .comparing walked (congrArg (· + 1) walked.count) walked.differ hc
      | @unfinished done walked rest log shots failure => cases failure <;> cases he
    · have hwalk := performAll_ends hw
      generalize he : Ending.value (Except.error e) = ending' at hwalk
      cases hwalk with
      | arrived walked => cases he
      | @unfinished done walked rest log shots failure split before unfinished =>
        cases failure <;> cases he
        exact .unfinished split before unfinished
    · have hwalk := performAll_ends hw
      generalize he : Ending.going = ending' at hwalk
      cases hwalk with
      | arrived walked => cases he
      | @unfinished done walked rest log shots failure split before unfinished =>
        cases failure <;> cases he
        exact .unfinished split before unfinished
    · exact absurd hw (Goes.not_again closed_performAll)
  · obtain ⟨r, rfl, refused⟩ := snapshot_fails hf
    exact .unseen refused
  · exact .starting (snapshot_begins hf)
  · exact absurd hf (Goes.not_again closed_snapshot)

theorem NavigationEnds.inputs {ending : Ending Nat (Except Error Unit)}
    (h : s.NavigationEnds env dir name schedule log ending) : inputs log <+: schedule.flatMap stepCalls := by
  have shot_first (first : Snapshot) (rest : WorkLog) :
      Emulator.inputs (s.shot first :: rest) = Emulator.inputs rest := rfl
  cases h with
  | starting first => rcases first with rfl | ⟨r, rfl⟩ <;> exact List.nil_prefix
  | unseen refused => exact List.nil_prefix
  | unfinished split before unfinished =>
    rw [shot_first, inputs_append, before.inputs, split, List.flatMap_append]
    exact (List.prefix_append_right_inj _).mpr unfinished.inputs
  | @comparing first walked files shots ending walk count differ check =>
    have hfiles : Emulator.inputs files = [] := by
      simp [Emulator.inputs, requests_of_files (Work.check_begins check.begins)]
    simp [shot_first, inputs_append, walk.inputs, hfiles]

/-- A comparison that is over has asked for files. -/
theorem check_asks {snapshots : List Snapshot} {r : Except Error Unit}
    (h : Goes (Work.check (Snapshot.Goldens.compare env dir name snapshots)).run log (.value r)) :
    ∃ ev ∈ log, AsksFiles ev := by
  obtain ⟨ev, hev⟩ : ∃ ev, ev ∈ log := by
    refine List.exists_mem_of_ne_nil log ?_
    rintro rfl
    obtain ⟨_, he⟩ | ⟨_, _, _, he⟩ := goes_ask.mp (h : Goes (.ask _ _) [] _)
    · cases he
    · cases he
  exact ⟨ev, hev, Work.check_begins h.begins ev hev⟩

/-- A walk that is over has been compared if and only if it came to its end. -/
theorem NavigationEnds.compared_iff {r : Except Error Unit}
    (h : s.NavigationEnds env dir name schedule log (.value r)) :
    (∃ ev ∈ log, AsksFiles ev) ↔
      ∃ first walked shots, s.shot first :: walked <+: log ∧ s.Walked first walked schedule shots := by
  generalize he : Ending.value r = ending at h
  cases h with
  | starting first => cases he
  | @unseen r e refused =>
    constructor
    · rintro ⟨ev, hev, hfiles⟩
      cases List.mem_singleton.mp hev
      exact hfiles.elim
    · rintro ⟨first, walked, shots, both, _⟩
      cases (List.cons_prefix_cons.mp both).1
      cases refused
  | @unfinished first done rest walked log shots failure split before unfinished =>
    constructor
    · rintro ⟨ev, hev, hfiles⟩
      rcases List.mem_cons.mp hev with rfl | hev
      · exact hfiles.elim
      · rcases List.mem_append.mp hev with hev | hev
        · exact absurd hfiles (before.noFiles ev hev)
        · exact absurd hfiles (unfinished.noFiles ev hev)
    · rintro ⟨first', whole, all, both, walk⟩
      obtain ⟨hshot, hbehind⟩ := List.cons_prefix_cons.mp both
      cases first
      cases first'
      cases hshot
      cases failure with
      | none => cases he
      | some e => exact absurd hbehind (unfinished.not_walked before (split ▸ walk))
  | comparing walk count differ check =>
    cases he
    obtain ⟨ev, hev, hfiles⟩ := check_asks check
    refine ⟨fun _ => ⟨_, _, _, ?_, walk⟩, fun _ => ⟨ev, by simp [hev], hfiles⟩⟩
    rw [← List.cons_append]
    exact List.prefix_append ..

end

section

open Attempt

variable {σ φ : Type} {m : Machine σ} {clock : Nat → Nat} {access : (q : Files.Ask) → φ → Files.Reply q × φ}
  {v : Scene σ φ} {x : σ} {steps schedule : List Step} {taken : List Snapshot} {i : Nat}
  {env : Environment} {dir name : String}

def screenBehind (m : Machine σ) (x : σ) (steps : List Step) (i : Nat) : Snapshot :=
  m.screen (m.performed x ((steps.take i).flatMap stepCalls))

def idleSteps (m : Machine σ) (x : σ) (steps : List Step) : Set Nat :=
  {i | i < steps.length ∧ (screenBehind m x steps (i + 1)).samePixels (screenBehind m x steps i) = true}

theorem screenBehind_zero (m : Machine σ) (x : σ) (steps : List Step) : screenBehind m x steps 0 = m.screen x := rfl

theorem screenBehind_succ (m : Machine σ) (x : σ) (step : Step) (steps : List Step) (i : Nat) :
    screenBehind m x (step :: steps) (i + 1) = screenBehind m (m.performed x (stepCalls step)) steps i := by
  rw [screenBehind, List.take_succ_cons, List.flatMap_cons, Machine.performed, List.foldl_append]
  rfl

theorem leads_perform (step : Step) :
    Leads (m.world clock access) (s.perform step) v (.ok ()) (v.perform m (stepCalls step)) := by
  cases step with
  | click b => exact leads_input s.base rfl
  | tap place => exact leads_finger .tap place
  | hold place ms => exact leads_hold place ms

theorem perform_flatMap (step : Step) (steps : List Step) :
    (v.perform m (stepCalls step)).perform m (steps.flatMap stepCalls) =
      v.perform m ((step :: steps).flatMap stepCalls) := by
  rw [List.flatMap_cons, Scene.perform_perform]

/-- Where every step changes the pixels, the walk gives the screens behind all of them. -/
theorem leads_performAll (moving : ∀ i < steps.length,
      (screenBehind m v.device steps (i + 1)).samePixels (screenBehind m v.device steps i) = false) :
    Leads (m.world clock access) (s.performAll (m.screen v.device) taken steps) v
      (.ok (taken ++ (List.range steps.length).map fun i => screenBehind m v.device steps (i + 1)))
      (v.perform m (steps.flatMap stepCalls)) := by
  induction steps generalizing v taken with
  | nil =>
    rw [List.flatMap_nil, Scene.perform_nil]
    exact (List.append_nil taken).symm ▸ leads_pure
  | cons step steps ih =>
    have hmoved := moving 0 (Nat.succ_pos _)
    rw [screenBehind_succ, screenBehind_zero, screenBehind_zero] at hmoved
    have hlater : ∀ i < steps.length, (screenBehind m (m.performed v.device (stepCalls step)) steps (i + 1)).samePixels
        (screenBehind m (m.performed v.device (stepCalls step)) steps i) = false := by
      intro i hi
      have hbehind := moving (i + 1) (Nat.succ_lt_succ hi)
      rwa [screenBehind_succ, screenBehind_succ] at hbehind
    have hscreens : (List.range (step :: steps).length).map (fun i => screenBehind m v.device (step :: steps) (i + 1)) =
        m.screen (m.performed v.device (stepCalls step)) :: (List.range steps.length).map fun i =>
          screenBehind m (m.performed v.device (stepCalls step)) steps (i + 1) := by
      rw [List.length_cons, List.range_succ_eq_map, List.map_cons, List.map_map]
      simp only [screenBehind_succ, screenBehind_zero, Function.comp_def]
    rw [hscreens, List.append_cons, ← perform_flatMap]
    exact (leads_perform step).bind ((leads_wait_other hmoved).bind (ih hlater))

/-- At the first step that leaves the pixels as they are, the walk waits in vain. -/
theorem leads_performAll_idle (passes : PassesDeadlines clock) (room : i < steps.length)
    (idle : (screenBehind m v.device steps (i + 1)).samePixels (screenBehind m v.device steps i) = true)
    (moving : ∀ j < i, (screenBehind m v.device steps (j + 1)).samePixels (screenBehind m v.device steps j) = false) :
    Leads (m.world clock access) (s.performAll (m.screen v.device) taken steps) v
      (.error (.screenTimeout .change s.options.screenTimeout))
      (v.perform m ((steps.take (i + 1)).flatMap stepCalls)) := by
  induction steps generalizing v taken i with
  | nil => cases room
  | cons step steps ih =>
    refine (leads_perform step).bind ?_
    cases i with
    | zero =>
      rw [screenBehind_succ, screenBehind_zero, screenBehind_zero] at idle
      have hcalls : ((step :: steps).take 1).flatMap stepCalls = stepCalls step := by simp
      rw [hcalls]
      exact (leads_wait_same passes idle).bind_error
    | succ i =>
      have hmoved := moving 0 (Nat.succ_pos _)
      rw [screenBehind_succ, screenBehind_zero, screenBehind_zero] at hmoved
      refine (leads_wait_other hmoved).bind ?_
      rw [screenBehind_succ, screenBehind_succ] at idle
      rw [List.take_succ_cons, ← perform_flatMap]
      refine ih (v := v.perform m (stepCalls step)) (Nat.lt_of_succ_lt_succ room) idle fun j hj => ?_
      have hlater := moving (j + 1) (Nat.succ_lt_succ hj)
      rwa [screenBehind_succ, screenBehind_succ] at hlater

theorem moves_of_not_idle (room : i < steps.length) (moves : i ∉ idleSteps m x steps) :
    (screenBehind m x steps (i + 1)).samePixels (screenBehind m x steps i) = false := by
  by_contra still
  exact moves ⟨room, eq_true_of_ne_false still⟩

/-- The inputs of the idle step are given, and those of the steps behind it are not. -/
theorem leads_navigate_idle (passes : PassesDeadlines clock) (first : IsLeast (idleSteps m v.device schedule) i) :
    Leads (m.world clock access) (s.navigate env dir name schedule) v
      (.error (.screenTimeout .change s.options.screenTimeout))
      (v.perform m ((schedule.take (i + 1)).flatMap stepCalls)) := by
  obtain ⟨room, idle⟩ := first.1
  refine leads_snapshot.bind (leads_performAll_idle passes room idle fun j hj => ?_).bind_error
  exact moves_of_not_idle (hj.trans room) (not_mem_of_least first j hj)

theorem leads_navigate {r : Except Snapshot.Goldens.Error Unit} {files : φ}
    (moving : ∀ i, i ∉ idleSteps m v.device schedule)
    (comparison : (Snapshot.Goldens.compare env dir name
      ((List.range (schedule.length + 1)).map (screenBehind m v.device schedule))).on access v.files = (r, files)) :
    Leads (m.world clock access) (s.navigate env dir name schedule) v (r.mapError Error.ofGoldens)
      { v.perform m (schedule.flatMap stepCalls) with files := files } := by
  refine leads_snapshot.bind ((leads_performAll fun i hi => moves_of_not_idle hi (moving i)).bind (leads_check ?_))
  rw [List.range_succ_eq_map, List.map_cons, List.map_map] at comparison
  exact comparison

end

/-- What a walk along a schedule does, on any device and with any clock. It performs a beginning of the schedule, and
its snapshots are compared if and only if it has come to the end of that. A device that changes on inputs only is walked
through screen by screen, up to the first step that leaves the pixels as they are. -/
theorem navigate_exact (s : Session) (env : Environment) (dir name : String) (schedule : List Step) :
    (∀ log p, Trail (Dialogue.start (s.navigate env dir name schedule).run) log p →
      inputs log <+: schedule.flatMap stepCalls ∧
      ∃ ending, s.NavigationEnds env dir name schedule log ending ∧ ∀ r, p.move = .finish r → ending = .value r) ∧
    (∀ log p r, Trail (Dialogue.start (s.navigate env dir name schedule).run) log p → p.move = .finish r →
      ((∃ ev ∈ log, AsksFiles ev) ↔
        ∃ first walked shots, s.shot first :: walked <+: log ∧ s.Walked first walked schedule shots)) ∧
    ∀ {σ φ : Type} (m : Machine σ) (clock : Nat → Nat) (access : (q : Files.Ask) → φ → Files.Reply q × φ),
      PassesDeadlines clock → ∀ (v : Scene σ φ) (t : Nat),
      (∀ i, IsLeast (idleSteps m v.device schedule) i → ∃ t' enough, ∀ n, enough ≤ n →
        Half.turns (m.world clock access) n (.ofAttempt (s.navigate env dir name schedule)) (v, t) =
          (.error (.screenTimeout .change s.options.screenTimeout),
            v.perform m ((schedule.take (i + 1)).flatMap stepCalls), t')) ∧
      ((∀ i, i ∉ idleSteps m v.device schedule) → ∀ r files, (Snapshot.Goldens.compare env dir name
        ((List.range (schedule.length + 1)).map (screenBehind m v.device schedule))).on access v.files = (r, files) →
        ∃ t' enough, ∀ n, enough ≤ n →
          Half.turns (m.world clock access) n (.ofAttempt (s.navigate env dir name schedule)) (v, t) =
            ((r.mapError Error.ofGoldens).map .settled,
              { v.perform m (schedule.flatMap stepCalls) with files := files }, t')) := by
  refine ⟨fun log p trail => ?_, fun log p r trail ended => ?_, fun m clock access passes v t => ⟨?_, ?_⟩⟩
  · obtain ⟨ending, hgoes, hends⟩ := (trail.start_follows closed_navigate).ending
    have hwalk := navigate_ends hgoes
    exact ⟨hwalk.inputs, ending, hwalk, hends⟩
  · exact (navigate_ends ((trail.start_follows closed_navigate).2 r ended)).compared_iff
  · intro i first
    have leads : Attempt.Leads (m.world clock access) (s.navigate env dir name schedule) v _ _ :=
      leads_navigate_idle passes first
    obtain ⟨t', yields⟩ := leads t
    exact ⟨t', Half.turns_of_yields yields⟩
  · intro moving r files comparison
    have leads : Attempt.Leads (m.world clock access) (s.navigate env dir name schedule) v _ _ :=
      leads_navigate moving comparison
    obtain ⟨t', yields⟩ := leads t
    exact ⟨t', Half.turns_of_yields yields⟩

def idleWalk : WorkLog :=
  [twoButtons.shot ⟨[1]⟩, .asked (.call twoButtons.base (.button .right)) (.body []), .asked .now (0 : Nat),
    twoButtons.shot ⟨[1]⟩, .asked .now (20000 : Nat)]

/-- The walk that waits in vain is not compared, and one through three screens of a counter is. -/
theorem idleWalk_not_compared :
    (∃ p r, Trail (Dialogue.start (twoButtons.navigate (fun _ => none) "dir" "name" [.click .right]).run) idleWalk p ∧
      p.move = .finish r ∧ ¬ ∃ first walked shots, twoButtons.shot first :: walked <+: idleWalk ∧
        twoButtons.Walked first walked [.click .right] shots) ∧
    ∃ r files t' enough, (Snapshot.Goldens.compare (fun _ => none) "dir" "name" [⟨[0]⟩, ⟨[1]⟩, ⟨[2]⟩]).on
        (Files.Tree.reply "/tmp") {} = (r, files) ∧ ∀ n, enough ≤ n →
      Half.turns (counter.world id (Files.Tree.reply "/tmp")) n
        (.ofAttempt (twoButtons.navigate (fun _ => none) "dir" "name" [.click .right, .click .left])) (⟨0, [], {}⟩, 0) =
          ((r.mapError Error.ofGoldens).map .settled, ⟨2, [.button .right, .button .left], files⟩, t') := by
  constructor
  · have htrail : Trail (Dialogue.start (twoButtons.navigate (fun _ => none) "dir" "name" [.click .right]).run)
        idleWalk _ := .ask _ rfl (.ask _ rfl (.ask _ rfl (.ask _ rfl (.ask _ rfl (.here _)))))
    have hiff := (navigate_exact twoButtons (fun _ => none) "dir" "name" [.click .right]).2.1 idleWalk _ _ htrail rfl
    refine ⟨_, _, htrail, rfl, fun compared => ?_⟩
    obtain ⟨ev, hev, hfiles⟩ := hiff.mpr compared
    simp only [idleWalk, shot, List.mem_cons, List.not_mem_nil, or_false] at hev
    rcases hev with rfl | rfl | rfl | rfl | rfl <;> exact hfiles
  · have moves : ∀ i < 2, (screenBehind counter 0 [.click .right, .click .left] (i + 1)).samePixels
        (screenBehind counter 0 [.click .right, .click .left] i) = false := by decide
    rcases comparison : (Snapshot.Goldens.compare (fun _ => none) "dir" "name" [⟨[0]⟩, ⟨[1]⟩, ⟨[2]⟩]).on
      (Files.Tree.reply "/tmp") {} with ⟨r, files⟩
    obtain ⟨t', enough, hturns⟩ := ((navigate_exact twoButtons (fun _ => none) "dir" "name"
      [.click .right, .click .left]).2.2 counter id (Files.Tree.reply "/tmp") passes_id ⟨0, [], {}⟩ 0).2
        (fun i idle => Bool.false_ne_true ((moves i idle.1).symm.trans idle.2)) r files comparison
    exact ⟨r, files, t', enough, rfl, hturns⟩

end SignerBench.Emulator.Session
