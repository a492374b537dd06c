import SignerBench.Proofs.ReviewWalk

namespace SignerBench.Emulator

open Dialogue

namespace Element

/-- The middle of the element can be told in the numbers of a place. -/
def Fits (e : Element) : Prop :=
  e.x.toNat + e.w.toNat / 2 < UInt32.size ∧ e.y.toNat + e.h.toNat / 2 < UInt32.size

instance (e : Element) : Decidable e.Fits := inferInstanceAs (Decidable (_ ∧ _))

/-- A place in the element's box, its edges included. -/
structure Covers (e : Element) (p : Device.Point) : Prop where
  left : e.x.toNat ≤ p.x.toNat
  right : p.x.toNat ≤ e.x.toNat + e.w.toNat
  top : e.y.toNat ≤ p.y.toNat
  bottom : p.y.toNat ≤ e.y.toNat + e.h.toNat

/-- Half a side further on, if that is a number of a place. -/
theorem toNat_half {a b : UInt32} (fits : a.toNat + b.toNat / 2 < UInt32.size) :
    (a + b / 2).toNat = a.toNat + b.toNat / 2 := by
  rw [UInt32.toNat_add, UInt32.toNat_div]
  exact Nat.mod_eq_of_lt fits

/-- The middle is inside the box, as half a side is no longer than the side. -/
theorem middle?_of_fits {e : Element} (fits : e.Fits) : ∃ place, e.middle? = some place ∧ e.Covers place := by
  have across := toNat_half fits.1
  have down := toNat_half fits.2
  refine ⟨_, if_pos fits, ?_⟩
  constructor <;> dsimp only <;> omega

/-- No place beyond the numbers is tapped, and none is made of what overflows. -/
theorem middle?_eq_none {e : Element} (beyond : ¬ e.Fits) : e.middle? = none := if_neg beyond

end Element

theorem Work.call_answered (base : String) (c : Call) (content : Bytes) :
    (Work.call base c).Gives [.asked (.call base c) (.body content)] content :=
  Attempt.gives_demand.mpr ⟨_, rfl, rfl⟩

namespace Session

variable {s : Session} {log first rest : WorkLog} {env : Environment} {dir name wanted : String} {content : Bytes}
  {elements : List Element} {target : Element}

def sees (s : Session) (content : Bytes) : WorkEvent := .asked (.call s.base .events) (.body content)

def Unread (log : WorkLog) : Prop := Call.events ∉ requests log

theorem unread_of_each (h : ∀ ev ∈ log, Unread [ev]) : Unread log := by
  intro asked
  obtain ⟨ev, hev, he⟩ := List.mem_filterMap.mp asked
  exact h ev hev (List.mem_filterMap.mpr ⟨ev, List.mem_singleton_self ev, he⟩)

theorem Unread.append (h : Unread first) (h' : Unread rest) : Unread (first ++ rest) := by
  rw [Unread, requests_append]
  exact List.not_mem_append h h'

theorem Unread.last_ne (h : Unread log) : log.getLast? ≠ some (s.sees content) := by
  intro last
  exact h (List.mem_filterMap.mpr ⟨_, List.mem_of_getLast? last, rfl⟩)

theorem last_of_append {ev : WorkEvent} (last : (first ++ rest).getLast? = some ev) :
    rest = [] ∧ first.getLast? = some ev ∨ rest.getLast? = some ev := by
  rw [List.getLast?_append, Option.or_eq_some_iff, List.getLast?_eq_none_iff] at last
  exact last.symm

/-- What ends with a look at the elements does so behind the part in which they are not asked for. -/
theorem Unread.last_behind (h : Unread first) (last : (first ++ rest).getLast? = some (s.sees content)) :
    rest.getLast? = some (s.sees content) :=
  (last_of_append last).resolve_left fun before => h.last_ne before.2

theorem Unread.eq_nil (h : Unread rest) (last : (first ++ rest).getLast? = some (s.sees content)) : rest = [] :=
  ((last_of_append last).resolve_right h.last_ne).1

theorem snapshot_unread (h : s.snapshot.Begins log) : Unread log := by
  rcases snapshot_begins h with rfl | ⟨r, rfl⟩
  · exact List.not_mem_nil
  · exact List.not_mem_cons_of_ne_of_not_mem nofun List.not_mem_nil

theorem advance_unread {ending : Ending Nat (Except Error Unit)} (h : Goes s.advance.run log ending) : Unread log := by
  have tried : s.Tried [.call s.advanceCall] log := by
    rw [advance_eq] at h
    cases (doAct_ends h : s.ActsEnd [.call s.advanceCall] log ending) with
    | done performed => exact performed.tried
    | refused refused => exact refused.tried
    | going tried => exact tried
  intro asked
  have input := advanceCall_isInput (s := s)
  rw [← List.mem_singleton.mp (tried.requests.subset asked)] at input
  cases input

/-- A screen that is waited for is compared by its picture alone. -/
theorem waitUntilNot_unread {reference : Snapshot} {ending : Ending Nat (Except Error Snapshot)}
    (h : Goes (s.waitUntilNot reference).run log ending) : Unread log := by
  have look (l : WorkLog) (hl : (s.otherScreen reference).Begins l) : ∀ ev ∈ l, Unread [ev] := by
    rcases snapshot_begins (Attempt.begins_bind_pure hl) with rfl | ⟨r, rfl⟩
    · exact List.forall_mem_nil _
    · exact List.forall_mem_singleton.mpr (List.not_mem_cons_of_ne_of_not_mem nofun List.not_mem_nil)
  have now (t : Nat) : Unread [.asked .now t] := List.not_mem_nil
  apply unread_of_each
  rcases timedPoll_ends flat_otherScreen closed_otherScreen h with ⟨rfl, _⟩ | ⟨start, before, last, rfl, misses, ended⟩
  · exact List.forall_mem_nil _
  · refine List.forall_mem_cons.mpr ⟨now start, List.forall_mem_append.mpr ⟨?_, ended.all look now⟩⟩
    exact misses.all (fun l hl => look l hl.begins) now List.not_mem_nil

theorem approve_unread {ending : Ending Nat (Except Error Unit)} (h : Goes (s.approve target).run log ending) :
    Unread log := by
  intro asked
  have made := (approve_ends h).begun.subset asked
  unfold gesture at made
  split at made
  · cases List.mem_singleton.mp made
  · simp at made
  · simp at made

theorem confirm_unread {arrival : Arrival} {ending : Ending Nat (Except Error Unit)}
    (h : Goes (s.confirm env dir name arrival).run log ending) : Unread log := by
  rcases Attempt.bind_cases (.inr fun _ => closed_waitUntilNot.bind fun _ => closed_check) h with
    ⟨_, approval, rest, rfl, ha, hr⟩ | ⟨e, rfl, ha⟩ | ⟨rfl, ha⟩ | ⟨p, rfl, ha⟩
  · refine (approve_unread ha).append ?_
    rcases Attempt.bind_cases (.inr fun _ => closed_check) hr with
      ⟨last, leave, files, rfl, hl, hc⟩ | ⟨e, rfl, hl⟩ | ⟨rfl, hl⟩ | ⟨p, rfl, hl⟩
    · refine (waitUntilNot_unread hl).append ?_
      rw [Unread, requests_of_files (Work.check_begins (Goes.begins hc))]
      exact List.not_mem_nil
    all_goals exact waitUntilNot_unread hl
  all_goals exact approve_unread ha

theorem findText_sees (accepted : readScreen content = .ok elements) :
    (s.findText wanted).Gives [s.sees content] (elements.find? fun e => Text.mentions e.text wanted) := by
  have read : s.events.Gives ([s.sees content] ++ []) elements :=
    (Work.call_answered s.base .events content).bind (Attempt.gives_ofExcept.mpr ⟨rfl, accepted⟩) nofun
  exact read.bind (Attempt.gives_pure.mpr ⟨rfl, rfl⟩) nofun

/-- A look whose last answer is this one has seen just this. -/
theorem findText_last (h : (s.findText wanted).Begins log) (last : log.getLast? = some (s.sees content)) :
    log = [s.sees content] := by
  rcases findText_begins h with rfl | ⟨r, rfl⟩
  · cases last
  · exact congrArg (fun ev => [ev]) (Option.some.inj last)

/-- A walk to the next screen that ends with a look at the elements has come there, and is in the search from it. -/
theorem walkOn_last {current : Snapshot} {taken : List Snapshot} {left : Nat}
    (h : (s.walkOn current taken left).Begins log) (last : log.getLast? = some (s.sees content))
    (search : ∀ {next l}, (s.findApproval next (taken ++ [next]) left).Begins l → l.getLast? = some (s.sees content) →
      ∃ screen shots, (s.findApproval next (taken ++ [next]) left).Gives l ⟨target, screen, shots⟩) :
    ∃ screen shots, (s.walkOn current taken left).Gives log ⟨target, screen, shots⟩ := by
  rcases Attempt.begins_bind (.inr fun _ => closed_waitUntilNot.bind fun _ => closed_findApproval) h with
    ha | ⟨_, step, rest, rfl, ha, hw⟩
  · exact absurd last (advance_unread ha).last_ne
  have hrest := (advance_unread ha).last_behind last
  rcases Attempt.begins_bind (.inr fun _ => closed_findApproval) hw with hn | ⟨next, wait, rest, rfl, hn, hs⟩
  · exact absurd hrest (waitUntilNot_unread hn).last_ne
  obtain ⟨screen, shots, found⟩ := search hs ((waitUntilNot_unread hn).last_behind hrest)
  exact ⟨screen, shots, ha.bind (hn.bind found nofun) nofun⟩

/-- A search that has just seen the keyword is over. The induction is on the screens that may still be looked at. -/
theorem findApproval_sees {current : Snapshot} {taken : List Snapshot} {left : Nat}
    (accepted : readScreen content = .ok elements)
    (shown : (elements.find? fun e => Text.mentions e.text s.options.approveKeyword) = some target)
    (h : (s.findApproval current taken left).Begins log) (last : log.getLast? = some (s.sees content)) :
    ∃ screen shots, (s.findApproval current taken left).Gives log ⟨target, screen, shots⟩ := by
  have seen : (s.findText s.options.approveKeyword).Gives [s.sees content] (some target) :=
    shown ▸ findText_sees accepted
  induction left generalizing current taken log with
  | zero =>
    obtain ⟨rfl, _⟩ := goes_done.mp h
    cases last
  | succ left ih =>
    have arrived {look : WorkLog} (hl : (s.findText s.options.approveKeyword).Begins look)
        (hlast : look.getLast? = some (s.sees content)) :
        ∃ screen shots, (s.findApproval current taken (left + 1)).Gives look ⟨target, screen, shots⟩ := by
      have here : (s.findApproval current taken (left + 1)).Gives ([s.sees content] ++ []) ⟨target, current, taken⟩ :=
        seen.bind (.done _) nofun
      rw [findText_last hl hlast]
      exact ⟨_, _, here⟩
    have hcases := Attempt.begins_bind (.inr fun found => by
      cases found with
      | some target => trivial
      | none => exact closed_walkOn) h
    rcases hcases with hf | ⟨found, look, rest, rfl, hf, hr⟩
    · exact arrived hf last
    cases found with
    | some other =>
      rw [(goes_done.mp hr).1, List.append_nil] at last ⊢
      exact arrived hf.begins last
    | none =>
      rcases last_of_append last with ⟨rfl, hlast⟩ | hlast
      · -- The only answer so far is this one, so it would have been found.
        rw [findText_last hf.begins hlast] at hf
        obtain ⟨content', elements', hlog, read, missed⟩ := findText_gives hf
        cases hlog
        cases accepted.symm.trans read
        cases missed.trans shown
      · obtain ⟨screen, shots, found⟩ := walkOn_last hr hlast ih
        exact ⟨screen, shots, hf.bind found nofun⟩

/-- A walk that has just seen the keyword goes on to approve there. -/
theorem reviewAndApprove_sees (accepted : readScreen content = .ok elements)
    (shown : (elements.find? fun e => Text.mentions e.text s.options.approveKeyword) = some target)
    (h : (s.reviewAndApprove env dir name).Begins log) (last : log.getLast? = some (s.sees content)) :
    ∃ screen shots, ∀ {rest ending}, Goes (s.confirm env dir name ⟨target, screen, shots⟩).run rest ending →
      (∀ p, ending ≠ .again p) → Goes (s.reviewAndApprove env dir name).run (log ++ rest) ending := by
  rcases Attempt.begins_bind (.inr fun _ => closed_findApproval.bind fun _ => closed_confirm) h with
    hf | ⟨shot, start, search, rfl, hf, hr⟩
  · exact absurd last (snapshot_unread hf).last_ne
  have hlast := (snapshot_unread hf.begins).last_behind last
  have hsearch : (s.findApproval shot [shot] s.options.maxReviewScreens).Begins search := by
    rcases Attempt.begins_bind (.inr fun _ => closed_confirm) hr with hs | ⟨arrival, found, rest, rfl, hs, hc⟩
    · exact hs
    · rw [(confirm_unread hc).eq_nil hlast, List.append_nil]
      exact hs.begins
  obtain ⟨screen, shots, found⟩ := findApproval_sees accepted shown hsearch hlast
  refine ⟨screen, shots, fun approval ends => ?_⟩
  rw [List.append_assoc]
  exact hf.bind (found.bind approval ends) ends

/-- From the screen that shows the keyword the walk goes on with a tap in the first element that does. It breaks off if
the middle of that element is beyond the numbers of a place, and in no other case. -/
theorem keyword_tapped {p : Position Ask Reply Nat (Except Error Unit)} (touch : s.options.device.isTouch = true)
    (tap : s.options.approveAction = .tapKeyword)
    (trail : Trail (Dialogue.start (s.reviewAndApprove env dir name).run) log p)
    (last : log.getLast? = some (.asked (.call s.base .events) (.body content)))
    (accepted : readScreen content = .ok elements)
    (shown : (elements.find? fun e => Text.mentions e.text s.options.approveKeyword) = some target) :
    (target.Fits ∧ ∃ place next, p.move = .ask (.call s.base (.finger .tap place)) next ∧ target.Covers place) ∨
      ¬ target.Fits ∧ p.move = .finish (.error .offScreen) := by
  obtain ⟨layout, hlayout⟩ := Option.isSome_iff_exists.mp touch
  have begun : (s.reviewAndApprove env dir name).Begins log := (trail.start_follows closed_reviewAndApprove).1
  obtain ⟨screen, shots, goes⟩ := reviewAndApprove_sees accepted shown begun last
  by_cases fits : target.Fits
  · obtain ⟨place, hplace, covers⟩ := Element.middle?_of_fits fits
    have taps : s.approve target = s.tap place := by simp only [approve, hlayout, tap, hplace]
    have tapped : (s.approve target).Gives [.asked (.call s.base (.finger .tap place)) (.body [])] () :=
      taps ▸ (Work.call_answered s.base (.finger .tap place) []).discard
    obtain ⟨q, further, _⟩ := (goes (tapped.bind (.going _) nofun) nofun).trail _
    cases trail.rest further with
    | ask r step tail => exact .inl ⟨fits, place, _, step, covers⟩
  · have breaks : s.approve target = throw .offScreen := by
      simp only [approve, hlayout, tap, Element.middle?_eq_none fits]
    have broken : (s.confirm env dir name ⟨target, screen, shots⟩).Fails [] .offScreen := by
      unfold confirm
      rw [breaks]
      exact .done _
    obtain ⟨q, further, ended, _⟩ := (goes broken nofun).trail _
    cases trail.rest further with
    | here => exact .inr ⟨fits, ended _ rfl⟩

def confirming : Session where
  options := { device := .flex, approveKeyword? := some "Confirm", approveAction := .tapKeyword }
  base := "http://127.0.0.1:5000"

def firstLook (content : Bytes) : WorkLog :=
  [.asked (.call confirming.base .screenshot) (.body [0]), confirming.sees content]

/-- The box of the second element reaches beyond the numbers of a place, but its middle does not. -/
def wideScreen : Bytes := Bytes.ofText
  "\x7b\"events\":[\x7b\"text\":\"Address\"\x7d,\x7b\"text\":\"confirm?\",\"x\":4294967294,\"w\":3\x7d]\x7d"

/-- An element that reaches beyond the last place is tapped all the same, where its middle is one. -/
theorem wide_keyword_tapped : ∃ p place next,
    Trail (Dialogue.start (confirming.reviewAndApprove (fun _ => none) "dir" "name").run) (firstLook wideScreen) p ∧
      readScreen wideScreen = .ok [⟨"Address", 0, 0, 0, 0⟩, ⟨"confirm?", 4294967294, 0, 3, 0⟩] ∧
      p.move = .ask (.call confirming.base (.finger .tap place)) next ∧
      Element.Covers ⟨"confirm?", 4294967294, 0, 3, 0⟩ place := by
  have trail : Trail (Dialogue.start (confirming.reviewAndApprove (fun _ => none) "dir" "name").run)
      (firstLook wideScreen) _ := .ask _ rfl (.ask _ rfl (.here _))
  have accepted : readScreen wideScreen = .ok [⟨"Address", 0, 0, 0, 0⟩, ⟨"confirm?", 4294967294, 0, 3, 0⟩] := rfl
  have shown : ([⟨"Address", 0, 0, 0, 0⟩, ⟨"confirm?", 4294967294, 0, 3, 0⟩] : List Element).find? (fun e =>
      Text.mentions e.text confirming.options.approveKeyword) = some ⟨"confirm?", 4294967294, 0, 3, 0⟩ := by decide
  rcases keyword_tapped rfl rfl trail rfl accepted shown with ⟨_, place, next, move, covers⟩ | ⟨beyond, _⟩
  · exact ⟨_, place, next, trail, accepted, move, covers⟩
  · exact absurd (by decide) beyond

/-- The middle of the element is one step below the last place. -/
def lowScreen : Bytes :=
  Bytes.ofText "\x7b\"events\":[\x7b\"text\":\"Confirm\",\"x\":3,\"y\":4294967295,\"h\":2\x7d]\x7d"

/-- The keyword is found, and the walk breaks off without a tap. -/
theorem low_keyword_not_tapped : readScreen lowScreen = .ok [⟨"Confirm", 3, 4294967295, 0, 2⟩] ∧
    Text.mentions "Confirm" confirming.options.approveKeyword = true ∧ ∃ p,
      Trail (Dialogue.start (confirming.reviewAndApprove (fun _ => none) "dir" "name").run) (firstLook lowScreen) p ∧
        p.move = .finish (.error .offScreen) :=
  ⟨rfl, by decide, _, .ask _ rfl (.ask _ rfl (.here _)), rfl⟩

end Session

end SignerBench.Emulator
