import Mathlib.Data.List.Infix
import SignerBench.Text.LetterCase

namespace SignerBench.Text

variable {before before' after after' w : List Char} {text wanted : String}

theorem occurs_iff {cs : List Char} : occurs w cs = true ↔ w <:+: cs := by
  induction cs with
  | nil => rw [occurs, List.isEmpty_iff, List.infix_nil]
  | cons c cs ih => rw [occurs, Bool.or_eq_true, List.isPrefixOf_iff_prefix, ih, List.infix_cons_iff]

/-- A text is found where its lowercase form is a part of the lowercase form of the other. -/
theorem mentions_iff : mentions text wanted = true ↔ (lowercase wanted).toList <:+: (lowercase text).toList :=
  occurs_iff

def neighbour? (cs : List Char) : Option Char := cs.find? fun c => !inRanges caseIgnorable c

theorem neighbour?_append (a b : List Char) : neighbour? (a ++ b) = (neighbour? a).or (neighbour? b) :=
  List.find?_append

theorem meetsCased_eq (cs : List Char) : meetsCased cs = (neighbour? cs).any (inRanges cased) := by
  induction cs with
  | nil => rfl
  | cons c cs ih =>
    cases passed : inRanges caseIgnorable c with
    | true =>
      have hmeets : meetsCased (c :: cs) = meetsCased cs := by simp only [meetsCased, List.dropWhile_cons_of_pos passed]
      have hnext : neighbour? (c :: cs) = neighbour? cs := List.find?_cons_of_neg (by simp [passed])
      rw [hmeets, hnext, ih]
    | false =>
      have hhere : neighbour? (c :: cs) = some c := List.find?_cons_of_pos (by simp [passed])
      rw [hhere, meetsCased, List.dropWhile_cons_of_neg (by simp [passed])]
      rfl

def endsWord (before after : List Char) : Bool := meetsCased before && !meetsCased after

/-- There is a letter before the sigma and none behind it, past all that the rule does not look at. -/
theorem endsWord_eq (before after : List Char) : endsWord before after =
    ((neighbour? before).any (inRanges cased) && !(neighbour? after).any (inRanges cased)) := by
  rw [endsWord, meetsCased_eq, meetsCased_eq]

/-- What stands next to a capital sigma tells its form, whatever there is further away. -/
def Told (before after : Option Char) : Prop :=
  (∃ c, before = some c ∧ inRanges cased c = false) ∨ (∃ c, after = some c ∧ inRanges cased c = true) ∨
    before.isSome = true ∧ after.isSome = true

/-- Where the neighbours in the text settle the form, what stands around the text has no say. -/
theorem endsWord_of_told {u v : List Char} (told : Told (neighbour? u) (neighbour? v)) (before after : List Char) :
    endsWord (u ++ before) (v ++ after) = endsWord u v := by
  simp only [endsWord_eq, neighbour?_append]
  rcases told with ⟨c, hc, uncased⟩ | ⟨c, hc, cased⟩ | ⟨hu, hv⟩
  · simp [hc, uncased]
  · simp [hc, cased]
  · obtain ⟨c, hc⟩ := Option.isSome_iff_exists.mp hu
    obtain ⟨d, hd⟩ := Option.isSome_iff_exists.mp hv
    rw [hc, hd, Option.some_or, Option.some_or]

/-- The lowercase form of a piece of a text, with what stands before it, in reverse, and behind it. -/
def lowerBetween (before after : List Char) : List Char → List Char
  | [] => []
  | c :: rest =>
    let low :=
      if c = '\u03a3' then if endsWord before (rest ++ after) then ['\u03c2'] else ['\u03c3']
      else lowerChar c
    low ++ lowerBetween (c :: before) after rest

theorem lowerBetween_letter {c : Char} (hc : c ≠ '\u03a3') (before after w : List Char) :
    lowerBetween before after (c :: w) = lowerChar c ++ lowerBetween (c :: before) after w := by
  rw [lowerBetween, if_neg hc]

theorem lowerAfter_eq (before cs : List Char) : lowerAfter before cs = lowerBetween before [] cs := by
  induction cs generalizing before with
  | nil => rfl
  | cons c cs ih => rw [lowerAfter, lowerBetween, ih, List.append_nil, endsWord]

theorem lowercase_toList (text : String) : (lowercase text).toList = lowerBetween [] [] text.toList := by
  rw [lowercase, String.toList_ofList, lowerAfter_eq]

theorem lowerBetween_append (before after a b : List Char) : lowerBetween before after (a ++ b) =
    lowerBetween before (b ++ after) a ++ lowerBetween (a.reverse ++ before) after b := by
  induction a generalizing before with
  | nil => rfl
  | cons c a ih =>
    rw [List.cons_append, lowerBetween, lowerBetween, ih, List.append_assoc, List.append_assoc, List.reverse_cons,
      List.append_assoc, List.singleton_append]

/-- The capital sigmas of a text have the same form between these and between those. -/
def Alike (before after before' after' w : List Char) : Prop :=
  ∀ u v, w = u ++ '\u03a3' :: v →
    endsWord (u.reverse ++ before) (v ++ after) = endsWord (u.reverse ++ before') (v ++ after')

theorem alike_cons {c : Char} : Alike before after before' after' (c :: w) ↔
    (c = '\u03a3' → endsWord before (w ++ after) = endsWord before' (w ++ after')) ∧
      Alike (c :: before) after (c :: before') after' w := by
  constructor
  · intro alike
    refine ⟨fun hc => alike [] w (by rw [hc]; rfl), fun u v hw => ?_⟩
    have h := alike (c :: u) v (by rw [hw]; rfl)
    simpa using h
  · rintro ⟨here, there⟩ u v hw
    cases u with
    | nil =>
      obtain ⟨hc, rfl⟩ := List.cons_eq_cons.mp hw
      exact here hc
    | cons d u =>
      obtain ⟨rfl, hrest⟩ := List.cons_eq_cons.mp hw
      simpa using there u v hrest

/-- Only the form of the sigmas tells where a piece stands. -/
theorem lowerBetween_eq_iff : lowerBetween before after w = lowerBetween before' after' w ↔
    Alike before after before' after' w := by
  induction w generalizing before before' with
  | nil => exact iff_of_true rfl fun u v hw => by simp at hw
  | cons c w ih =>
    rw [lowerBetween, lowerBetween, alike_cons, ← ih]
    by_cases hc : c = '\u03a3'
    · simp only [hc, if_true, forall_const]
      cases endsWord before (w ++ after) <;> cases endsWord before' (w ++ after') <;> simp
    · simp only [hc, if_false, false_implies, true_and]
      exact List.append_right_inj _

/-- Both forms of a sigma are one character, so the place of a piece does not change its length. -/
theorem length_lowerBetween (before after before' after' w : List Char) :
    (lowerBetween before after w).length = (lowerBetween before' after' w).length := by
  induction w generalizing before before' with
  | nil => rfl
  | cons c w ih =>
    rw [lowerBetween, lowerBetween, List.length_append, List.length_append, ih (c :: before) (c :: before')]
    by_cases hc : c = '\u03a3'
    · simp only [hc, if_true]
      split <;> split <;> rfl
    · simp only [hc, if_false]

/-- The wanted text stands in the other one, with its sigmas as they are in it alone. -/
def StandsIn (wanted text : String) : Prop :=
  ∃ pre post, text.toList = pre ++ wanted.toList ++ post ∧ Alike pre.reverse post [] [] wanted.toList

theorem mentions_of_stands (stands : StandsIn wanted text) : mentions text wanted = true := by
  obtain ⟨pre, post, there, alike⟩ := stands
  rw [mentions_iff, lowercase_toList, lowercase_toList, there, lowerBetween_append, lowerBetween_append]
  have here := lowerBetween_eq_iff.mpr alike
  rw [List.append_nil, List.append_nil, here]
  exact List.infix_append ..

/-- The text itself tells the form of each of its capital sigmas. -/
def Settled (w : List Char) : Prop := ∀ u v, w = u ++ '\u03a3' :: v → Told (neighbour? u.reverse) (neighbour? v)

theorem Settled.alike (settled : Settled w) (before after : List Char) : Alike before after [] [] w := by
  intro u v hw
  rw [List.append_nil, List.append_nil]
  exact endsWord_of_told (settled u v hw) before after

/-- So a text without capital sigmas is found wherever it stands. -/
theorem settled_of_no_sigma (none : '\u03a3' ∉ w) : Settled w := by
  intro u v hw
  exact absurd (by simp [hw]) none

/-- A letter that has no part in the rest, and whose lowercase form is not this character. -/
theorem exists_letter (avoid : Option Char) :
    ∃ c, lowerChar c = [c] ∧ c ≠ '\u03a3' ∧ neighbour? [c] = some c ∧ inRanges cased c = true ∧ avoid ≠ some c := by
  by_cases h : avoid = some 'a'
  · exact ⟨'b', by decide +kernel, by decide, by decide +kernel, by decide +kernel, by simp [h]⟩
  · exact ⟨'a', by decide +kernel, by decide, by decide +kernel, by decide +kernel, h⟩

theorem eq_of_infix_cons {c : Char} {x y : List Char} (h : x <:+: c :: y) (same : x.length = y.length)
    (other : x.head? ≠ some c) : x = y := by
  rcases List.infix_cons_iff.mp h with front | inside
  · cases x with
    | nil => exact (List.length_eq_zero_iff.mp same.symm).symm
    | cons d x => exact absurd (congrArg some (List.cons_prefix_cons.mp front).1) other
  · exact inside.eq_of_length same

theorem eq_of_infix_concat {c : Char} {x y : List Char} (h : x <:+: y ++ [c]) (same : x.length = y.length)
    (other : x.getLast? ≠ some c) : x = y := by
  have hreverse : x.reverse <:+: c :: y.reverse := by simpa using List.reverse_infix.mpr h
  have hlength : x.reverse.length = y.reverse.length := by simpa using same
  exact List.reverse_injective (eq_of_infix_cons hreverse hlength (by rwa [List.head?_reverse]))

/-- A text that is found wherever it stands tells the form of its sigmas itself. Behind or before a letter each sigma
would have the other form, and the letter is none that the lowercase form could be moved to. -/
theorem settled_of_found (found : ∀ text : String, wanted.toList <:+: text.toList → mentions text wanted = true) :
    Settled wanted.toList := by
  intro u v hw
  by_contra untold
  cases hu : neighbour? u.reverse with
  | none =>
    obtain ⟨c, hlow, hc, hnext, hcased, hother⟩ := exists_letter (lowerBetween [] [] wanted.toList).head?
    have hafter : (neighbour? v).any (inRanges cased) = false := by
      cases hv : neighbour? v with
      | none => rfl
      | some e => exact eq_false_of_ne_true fun he => untold (.inr (.inl ⟨e, hv, he⟩))
    have hfound := found (.ofList (c :: wanted.toList)) (by simpa using (List.suffix_cons ..).isInfix)
    rw [mentions_iff, lowercase_toList, lowercase_toList, String.toList_ofList, lowerBetween_letter hc, hlow] at hfound
    have hsame := eq_of_infix_cons hfound (length_lowerBetween ..) hother
    have hends := lowerBetween_eq_iff.mp hsame u v hw
    simp [endsWord_eq, neighbour?_append, hu, hnext, hcased, hafter] at hends
  | some d =>
    obtain ⟨c, hlow, hc, hnext, hcased, hother⟩ := exists_letter (lowerBetween [] [] wanted.toList).getLast?
    have hbefore : inRanges cased d = true := eq_true_of_ne_false fun hd => untold (.inl ⟨d, hu, hd⟩)
    have hafter : neighbour? v = none := by
      by_contra some
      exact untold (.inr (.inr ⟨by rw [hu]; rfl, Option.isSome_iff_ne_none.mpr some⟩))
    have hfound := found (.ofList (wanted.toList ++ [c])) (by simpa using (List.prefix_append ..).isInfix)
    rw [mentions_iff, lowercase_toList, lowercase_toList, String.toList_ofList, lowerBetween_append,
      lowerBetween_letter hc, hlow] at hfound
    have hsame := eq_of_infix_concat hfound (length_lowerBetween ..) hother
    have hends := lowerBetween_eq_iff.mp hsame u v hw
    simp [endsWord_eq, neighbour?_append, hu, hnext, hcased, hbefore, hafter] at hends

/-- Just the texts that tell the form of their sigmas are found in every text that contains them. -/
theorem settled_iff : Settled wanted.toList ↔
    ∀ text : String, wanted.toList <:+: text.toList → mentions text wanted = true := by
  refine ⟨fun settled text inside => ?_, settled_of_found⟩
  obtain ⟨pre, post, there⟩ := inside
  exact mentions_of_stands ⟨pre, post, there.symm, settled.alike _ _⟩

end SignerBench.Text
