import SignerBench.Proofs.KeywordTap
import SignerBench.Proofs.LowercasePieces
import SignerBench.Proofs.Records

namespace SignerBench.Emulator

open Dialogue

namespace Element

/-- Fields of elements are read back wherever they lie. -/
theorem faithful (room : Nat) : Element.record.fields.Faithful room := by
  have side (name : String) : (Element.side name).Faithful room := by
    refine ⟨(Json.Field.faithful_word32 name room).whole, fun w => ?_⟩
    have hdraft : Json.draft ((Element.side name).write w) = .scalar (.ok (.number (.integer w.toNat))) := rfl
    have hread : (Element.side name).read room = Json.Draft.readWord32 := rfl
    rw [hdraft, hread, Json.Field.readWord32_toNat]
  exact ⟨Json.Field.faithful_text "text" room, side "x", side "y", side "w", side "h", trivial⟩

theorem distinct : Element.record.fields.names.Nodup := by
  decide +kernel

theorem whole (e : Element) : Json.Whole e.toJson := by
  have hrow : Json.Whole (Element.record.write (e.text, e.x, e.y, e.w, e.h, ())) :=
    Json.Record.whole_write (faithful 0) _
  exact hrow

theorem read_toJson (e : Element) (room : Nat) : Element.read (room + 1) (Json.draft e.toJson) = .ok e := by
  have hrow := Json.Record.read_write (faithful room) distinct (e.text, e.x, e.y, e.w, e.h, ())
  rw [Element.read, Element.toJson, hrow]
  rfl

end Element

def showing (elements : List Element) : Bytes := Bytes.ofText (Json.pretty (screenRecord.write (elements, ())))

/-- There is a screen of any elements. -/
theorem readScreen_showing (elements : List Element) : readScreen (showing elements) = .ok elements := by
  have faithful : screenRecord.fields.Faithful 126 := by
    refine ⟨⟨fun es => Json.wholeItems_of_forall ?_, fun es => Json.readList_draft fun e _ => e.read_toJson _⟩, trivial⟩
    intro v hv
    obtain ⟨e, _, rfl⟩ := List.mem_map.mp hv
    exact e.whole
  have distinct : screenRecord.fields.names.Nodup := List.pairwise_singleton _ _
  have hrow := Json.Record.read_write faithful distinct (elements, ())
  rw [readScreen, showing, Json.readBytes_pretty (Json.Record.whole_write faithful (elements, ())) hrow]

namespace Session

variable {s : Session} {content : Bytes} {elements : List Element} {e target : Element} {wanted : String} {i : Nat}

/-- The search for a text ends with this as soon as it has seen the screen. -/
def Finds (s : Session) (content : Bytes) (wanted : String) (found : Option Element) : Prop :=
  ∃ p, Trail (Dialogue.start (s.findText wanted).run) [s.sees content] p ∧ p.move = .finish (.ok found)

/-- The wait for a text is over when it has seen the screen once. -/
def Awaits (s : Session) (content : Bytes) (wanted : String) : Prop :=
  ∀ t, ∃ p, Trail (Dialogue.start (s.waitForText wanted).run) [.asked .now t, s.sees content] p ∧
    p.move = .finish (.ok ())

/-- For an answer that is accepted, the search is known from the elements. -/
theorem finds_iff (accepted : readScreen content = .ok elements) {found : Option Element} :
    s.Finds content wanted found ↔ elements.find? (fun e => Text.mentions e.text wanted) = found := by
  constructor
  · rintro ⟨p, trail, ended⟩
    have gives : (s.findText wanted).Gives [s.sees content] found := (trail.start_follows closed_findText).2 _ ended
    obtain ⟨content', elements', hlog, read, hfound⟩ := findText_gives gives
    cases hlog
    cases accepted.symm.trans read
    exact hfound.symm
  · intro hfound
    have search : (s.findText wanted).Gives [s.sees content] _ := findText_sees accepted
    obtain ⟨p, trail, ended, _⟩ := search.trail (s.findText wanted).run
    exact ⟨p, trail, hfound ▸ ended _ rfl⟩

/-- The wait is over at once if and only if there is something to find. -/
theorem awaits_iff (accepted : readScreen content = .ok elements) :
    s.Awaits content wanted ↔ ∃ target, s.Finds content wanted (some target) := by
  constructor
  · intro awaits
    obtain ⟨p, trail, ended⟩ := awaits (0 : Nat)
    obtain ⟨_, target, front, content', elements', hlog, read, shown, mentions⟩ :=
      waitForText_gives ((trail.start_follows closed_waitForText).2 _ ended)
    have hlast := congrArg List.getLast? hlog
    rw [List.getLast?_concat] at hlast
    cases hlast
    cases accepted.symm.trans read
    have found : (elements.find? fun e => Text.mentions e.text wanted).isSome = true :=
      List.find?_isSome.mpr ⟨target, shown, mentions⟩
    obtain ⟨first, hfirst⟩ := Option.isSome_iff_exists.mp found
    exact ⟨first, (finds_iff accepted).mpr hfirst⟩
  · rintro ⟨target, finds⟩ t
    have search : (s.findText wanted).Gives [s.sees content] _ := findText_sees accepted
    rw [(finds_iff accepted).mp finds] at search
    have look : (s.textShown wanted).Gives ([s.sees content] ++ []) (some ()) := search.bind (.done _) nofun
    have turn (deadline : Nat) (late : Error) :
        (s.pollTurn deadline late (s.textShown wanted)).Gives ([s.sees content] ++ []) () := look.bind (.done _) nofun
    have wait : (s.waitForText wanted).Gives [.asked .now t, s.sees content] () := .ask t (.last (turn _ _) nofun)
    obtain ⟨p, trail, ended, _⟩ := wait.trail (s.waitForText wanted).run
    exact ⟨p, trail, ended _ rfl⟩

/-- The text is found at once, in this element or in one before it. -/
structure FoundBy (s : Session) (content : Bytes) (elements : List Element) (wanted : String) (i : Nat) : Prop where
  finds : ∃ j target, j ≤ i ∧ elements[j]? = some target ∧ s.Finds content wanted (some target)
  awaits : s.Awaits content wanted

/-- The first element that mentions the text is no further down than any other. -/
theorem foundBy_of_mentions (accepted : readScreen content = .ok elements) (stands : elements[i]? = some e)
    (mentions : Text.mentions e.text wanted = true) : s.FoundBy content elements wanted i := by
  have found : (elements.find? fun e => Text.mentions e.text wanted).isSome = true :=
    List.find?_isSome.mpr ⟨e, List.mem_of_getElem? stands, mentions⟩
  obtain ⟨target, htarget⟩ := Option.isSome_iff_exists.mp found
  have finds : s.Finds content wanted (some target) := (finds_iff accepted).mpr htarget
  obtain ⟨-, j, hj, hat, before⟩ := List.find?_eq_some_iff_getElem.mp htarget
  refine ⟨⟨j, target, ?_, List.getElem?_eq_some_iff.mpr ⟨hj, hat⟩, finds⟩, (awaits_iff accepted).mpr ⟨target, finds⟩⟩
  by_contra further
  obtain ⟨hi, here⟩ := List.getElem?_eq_some_iff.mp stands
  have missed := before i (Nat.lt_of_not_le further)
  rw [here, mentions] at missed
  cases missed

/-- A text that stands on the screen as it is alone is found at once, no further down than it stands. Just the texts
that tell the form of their capital sigmas are found so wherever they stand, and all texts without any do. -/
theorem verbatim_found (s : Session) (wanted : String) :
    (∀ content elements i e, readScreen content = .ok elements → elements[i]? = some e → Text.StandsIn wanted e.text →
      s.FoundBy content elements wanted i) ∧
    (Text.Settled wanted.toList ↔ ∀ content elements i e, readScreen content = .ok elements → elements[i]? = some e →
      wanted.toList <:+: e.text.toList → s.FoundBy content elements wanted i) ∧
    ('\u03a3' ∉ wanted.toList → Text.Settled wanted.toList) := by
  refine ⟨fun content elements i e accepted here stands => ?_, ⟨?_, ?_⟩, Text.settled_of_no_sigma⟩
  · exact foundBy_of_mentions accepted here (Text.mentions_of_stands stands)
  · intro settled content elements i e accepted here inside
    exact foundBy_of_mentions accepted here (Text.settled_iff.mp settled e.text inside)
  · intro found
    refine Text.settled_iff.mpr fun text inside => ?_
    have accepted := readScreen_showing [⟨text, 0, 0, 0, 0⟩]
    obtain ⟨target, finds⟩ := (awaits_iff accepted).mp (found _ _ 0 _ accepted rfl inside).awaits
    have first := (finds_iff accepted).mp finds
    have mentions := List.find?_some first
    rwa [List.mem_singleton.mp (List.mem_of_find?_eq_some first)] at mentions

def streets : List Element := [⟨"οδός", 0, 0, 0, 0⟩, ⟨"ΟΔΟΣ 7", 0, 12, 60, 10⟩]

/-- The capital sigma ends the word in both. -/
theorem street_found : readScreen (showing streets) = .ok streets ∧
    Text.StandsIn "ΟΣ" "ΟΔΟΣ 7" ∧
      confirming.FoundBy (showing streets) streets "ΟΣ" 1 := by
  have accepted := readScreen_showing streets
  have stands : Text.StandsIn "ΟΣ" "ΟΔΟΣ 7" :=
    ⟨"ΟΔ".toList, " 7".toList, rfl, Text.lowerBetween_eq_iff.mp (by decide +kernel)⟩
  exact ⟨accepted, stands, (verbatim_found confirming "ΟΣ").1 _ _ 1 _ accepted rfl stands⟩

/-- A capital sigma alone is not found at the end of a word. -/
theorem sigma_not_found : readScreen (showing streets) = .ok streets ∧
    "Σ".toList <:+: "ΟΔΟΣ 7".toList ∧ streets[1]? = some ⟨"ΟΔΟΣ 7", 0, 12, 60, 10⟩ ∧
      confirming.Finds (showing streets) "Σ" none ∧ ¬ confirming.Awaits (showing streets) "Σ" := by
  have accepted := readScreen_showing streets
  have unfound : (streets.find? fun e => Text.mentions e.text "Σ") = none := by decide +kernel
  refine ⟨accepted, ⟨"ΟΔΟ".toList, " 7".toList, rfl⟩, rfl, (finds_iff accepted).mpr unfound, ?_⟩
  intro awaits
  obtain ⟨target, finds⟩ := (awaits_iff accepted).mp awaits
  cases unfound.symm.trans ((finds_iff accepted).mp finds)

end Session

end SignerBench.Emulator
