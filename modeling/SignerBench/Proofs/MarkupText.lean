import Mathlib.Data.List.Infix
import Mathlib.Data.String.Basic
import SignerBench.Snapshot.Report

namespace SignerBench.Snapshot.Markup

def reserved : List Char := ['&', '<', '>', '"', '\x27', '\x60', '=']

def named? (name : List Char) : Option Char :=
  if name = "amp".toList then some '&'
  else if name = "lt".toList then some '<'
  else if name = "gt".toList then some '>'
  else if name = "quot".toList then some '"'
  else if name = "#x27".toList then some '\x27'
  else if name = "#x60".toList then some '\x60'
  else if name = "#x3D".toList then some '='
  else none

/-- Text with the names resolved. Where it starts behind an ampersand, with what was read of the name so far, in
reverse. What is no name stays as it is. -/
def resolve : Option (List Char) → List Char → List Char
  | none, [] => []
  | some name, [] => '&' :: name.reverse
  | none, c :: cs => if c = '&' then resolve (some []) cs else c :: resolve none cs
  | some name, c :: cs =>
    if c = ';' then
      match named? name.reverse with
      | some d => d :: resolve none cs
      | none => '&' :: name.reverse ++ ';' :: resolve none cs
    else resolve (some (c :: name)) cs

def unescape (cs : List Char) : List Char := resolve none cs

def isLetter (c : Char) : Bool := c ∉ reserved ∧ c ≠ ';'

/-- A character is written as it is, or by a name that is resolved to it. -/
theorem escapeChar_cases (c : Char) : (c ∉ reserved ∧ escapeChar c = [c]) ∨
    ∃ name, named? name = some c ∧ escapeChar c = '&' :: name ++ [';'] ∧ name.all isLetter = true := by
  by_cases h : c ∈ reserved
  · right
    simp only [reserved, List.mem_cons, List.not_mem_nil, or_false] at h
    rcases h with rfl | rfl | rfl | rfl | rfl | rfl | rfl
    · exact ⟨"amp".toList, rfl, rfl, rfl⟩
    · exact ⟨"lt".toList, rfl, rfl, rfl⟩
    · exact ⟨"gt".toList, rfl, rfl, rfl⟩
    · exact ⟨"quot".toList, rfl, rfl, rfl⟩
    · exact ⟨"#x27".toList, rfl, rfl, rfl⟩
    · exact ⟨"#x60".toList, rfl, rfl, rfl⟩
    · exact ⟨"#x3D".toList, rfl, rfl, rfl⟩
  · refine .inl ⟨h, ?_⟩
    simp only [reserved, List.mem_cons, List.not_mem_nil, or_false, not_or] at h
    obtain ⟨h₁, h₂, h₃, h₄, h₅, h₆, h₇⟩ := h
    simp [escapeChar, h₁, h₂, h₃, h₄, h₅, h₆, h₇]

/-- A name ends at the first semicolon. One that is none stays as it was written. -/
theorem resolve_name {name : List Char} (h : ';' ∉ name) (read rest : List Char) :
    resolve (some read) (name ++ ';' :: rest) = match named? (read.reverse ++ name) with
      | some d => d :: resolve none rest
      | none => '&' :: read.reverse ++ name ++ ';' :: resolve none rest := by
  induction name generalizing read with
  | nil => simp [resolve]
  | cons c name ih =>
    obtain ⟨hc, hname⟩ := not_or.mp (fun h' => h (List.mem_cons.mpr h'))
    rw [List.cons_append, resolve, if_neg (Ne.symm hc), ih hname]
    simp

theorem unescape_plain {plain : List Char} (h : '&' ∉ plain) (rest : List Char) :
    unescape (plain ++ rest) = plain ++ unescape rest := by
  induction plain with
  | nil => rfl
  | cons c plain ih =>
    obtain ⟨hc, hplain⟩ := not_or.mp (fun h' => h (List.mem_cons.mpr h'))
    rw [List.cons_append, unescape, resolve, if_neg (Ne.symm hc), ← unescape, ih hplain, List.cons_append]

theorem unescape_escapeChar (c : Char) (rest : List Char) : unescape (escapeChar c ++ rest) = c :: unescape rest := by
  rcases escapeChar_cases c with ⟨unreserved, he⟩ | ⟨name, named, he, letters⟩
  · have plain : '&' ∉ [c] := by
      intro h
      rw [← List.mem_singleton.mp h] at unreserved
      exact unreserved (by decide)
    rw [he, unescape_plain plain, List.singleton_append]
  · have ended : ';' ∉ name := fun h => (of_decide_eq_true (List.all_eq_true.mp letters ';' h)).2 rfl
    rw [he, List.append_assoc, List.cons_append, List.singleton_append, unescape, resolve, if_pos rfl,
      resolve_name ended, List.reverse_nil, List.nil_append, named]
    rfl

/-- Text that was escaped is read as it was. -/
theorem unescape_escape (s : String) : unescape (escape s).toList = s.toList := by
  rw [escape, String.toList_ofList]
  induction s.toList with
  | nil => rfl
  | cons c cs ih => rw [List.flatMap_cons, unescape_escapeChar, ih]

def marks : List Char := ['<', '>', '"']

/-- Escaped text can neither open nor close a tag, nor a quote in one. -/
theorem not_mem_escape {c : Char} (h : c ∈ marks) (s : String) : c ∉ (escape s).toList := by
  intro hc
  rw [escape, String.toList_ofList] at hc
  obtain ⟨d, _, hd⟩ := List.mem_flatMap.mp hc
  have hreserved : c ∈ reserved ∧ c ≠ '&' ∧ c ≠ ';' := by
    simp only [marks, List.mem_cons, List.not_mem_nil, or_false] at h
    rcases h with rfl | rfl | rfl <;> decide
  rcases escapeChar_cases d with ⟨unreserved, he⟩ | ⟨name, _, he, letters⟩
  · rw [he, List.mem_singleton] at hd
    exact unreserved (hd ▸ hreserved.1)
  · rw [he] at hd
    simp only [List.cons_append, List.mem_cons, List.mem_append, List.not_mem_nil, or_false] at hd
    rcases hd with hd | hd | hd
    · exact hreserved.2.1 hd
    · exact (of_decide_eq_true (List.all_eq_true.mp letters c hd)).1 hreserved.1
    · exact hreserved.2.2 hd

inductive Token where
  | char (c : Char)
  | tag (content : String)
  deriving DecidableEq

/-- The tokens of a text. Where it starts inside a tag, with what was read of the tag so far, in reverse. A bracket that
opens before the last one was closed starts the tag anew. -/
def scan : Option (List Char) → List Char → List Token
  | _, [] => []
  | none, c :: cs => if c = '<' then scan (some []) cs else .char c :: scan none cs
  | some content, c :: cs =>
    if c = '>' then .tag (String.ofList content.reverse) :: scan none cs
    else if c = '<' then scan (some []) cs
    else scan (some (c :: content)) cs

/-- What a text leaves of a tag that it does not close. -/
def unclosed : Option (List Char) → List Char → Option (List Char)
  | start, [] => start
  | none, c :: cs => if c = '<' then unclosed (some []) cs else unclosed none cs
  | some content, c :: cs =>
    if c = '>' then unclosed none cs else if c = '<' then unclosed (some []) cs else unclosed (some (c :: content)) cs

def tokens (page : String) : List Token := scan none page.toList

variable {text : List Char}

/-- A reader that stops inside of a tag goes on there. -/
theorem scan_append (start : Option (List Char)) (a b : List Char) :
    scan start (a ++ b) = scan start a ++ scan (unclosed start a) b := by
  induction a generalizing start with
  | nil => cases start <;> rfl
  | cons c a ih =>
    cases start with
    | none =>
      rw [List.cons_append, scan, scan, unclosed]
      split
      · exact ih _
      · rw [ih, List.cons_append]
    | some content =>
      rw [List.cons_append, scan, scan, unclosed]
      split
      · rw [ih, List.cons_append]
      · split <;> exact ih _

/-- Text with these tokens, which leaves no tag open. -/
def Scans (text : List Char) (ts : List Token) : Prop := scan none text = ts ∧ unclosed none text = none

instance (text : List Char) (ts : List Token) : Decidable (Scans text ts) := inferInstanceAs (Decidable (_ ∧ _))

/-- Behind such text the reader starts afresh. -/
theorem Scans.append {ts : List Token} (h : Scans text ts) (rest : List Char) :
    scan none (text ++ rest) = ts ++ scan none rest := by
  rw [scan_append, h.1, h.2]

/-- Outside of tags, text without markup is read character by character. -/
theorem scan_text (h : '<' ∉ text) : scan none text = text.map .char := by
  induction text with
  | nil => rfl
  | cons c text ih =>
    obtain ⟨hc, htext⟩ := not_or.mp (fun h' => h (List.mem_cons.mpr h'))
    rw [scan, if_neg (Ne.symm hc), ih htext, List.map_cons]

theorem unclosed_text (h : '<' ∉ text) : unclosed none text = none := by
  induction text with
  | nil => rfl
  | cons c text ih =>
    obtain ⟨hc, htext⟩ := not_or.mp (fun h' => h (List.mem_cons.mpr h'))
    rw [unclosed, if_neg (Ne.symm hc), ih htext]

/-- Inside of a tag, it belongs to the tag. -/
theorem scan_inside (opened : '<' ∉ text) (closed : '>' ∉ text) (content : List Char) :
    scan (some content) text = [] := by
  induction text generalizing content with
  | nil => rfl
  | cons c text ih =>
    obtain ⟨ho, hopened⟩ := not_or.mp (fun h => opened (List.mem_cons.mpr h))
    obtain ⟨hc, hclosed⟩ := not_or.mp (fun h => closed (List.mem_cons.mpr h))
    rw [scan, if_neg (Ne.symm hc), if_neg (Ne.symm ho), ih hopened hclosed]

theorem unclosed_inside (opened : '<' ∉ text) (closed : '>' ∉ text) (content : List Char) :
    unclosed (some content) text = some (text.reverse ++ content) := by
  induction text generalizing content with
  | nil => rfl
  | cons c text ih =>
    obtain ⟨ho, hopened⟩ := not_or.mp (fun h => opened (List.mem_cons.mpr h))
    obtain ⟨hc, hclosed⟩ := not_or.mp (fun h => closed (List.mem_cons.mpr h))
    rw [unclosed, if_neg (Ne.symm hc), if_neg (Ne.symm ho), ih hopened hclosed, List.reverse_cons, List.append_assoc,
      List.singleton_append]

def occurrences (pattern : List Char) : List Char → Nat
  | [] => 0
  | c :: cs => (if pattern <+: c :: cs then 1 else 0) + occurrences pattern cs

def bracketed (name : String) : List Char := '<' :: (name.toList ++ ['>'])

theorem occurrences_cons_of_ne {name : String} {c : Char} (h : c ≠ '<') (cs : List Char) :
    occurrences (bracketed name) (c :: cs) = occurrences (bracketed name) cs := by
  have apart : ¬ bracketed name <+: c :: cs := fun front => h (List.cons_prefix_cons.mp front).1.symm
  rw [occurrences, if_neg apart, Nat.zero_add]

theorem bracketed_prefix_iff {name : String} {content : List Char} (hname : '>' ∉ name.toList)
    (hcontent : '>' ∉ content) (rest : List Char) :
    bracketed name <+: '<' :: (content ++ '>' :: rest) ↔ content = name.toList := by
  have front {cs : List Char} (h : '>' ∉ cs) (behind : List Char) : (cs ++ '>' :: behind).takeWhile (· ≠ '>') = cs := by
    rw [List.takeWhile_append_of_pos]
    · simp
    · exact fun c hc => decide_eq_true fun same => h (same ▸ hc)
  rw [bracketed, List.cons_prefix_cons]
  constructor
  · rintro ⟨-, behind, h⟩
    rw [List.append_assoc, List.singleton_append] at h
    have same := congrArg (List.takeWhile (· ≠ '>')) h
    rw [front hname, front hcontent] at same
    exact same.symm
  · rintro rfl
    exact ⟨rfl, rest, by simp⟩

/-- A tag that is opened anew before it was closed is not the one of this name. -/
theorem not_bracketed_of_reopened {name : String} {content : List Char} (hname : '<' ∉ name.toList)
    (hcontent : '>' ∉ content) (rest : List Char) : ¬ bracketed name <+: '<' :: (content ++ '<' :: rest) := by
  intro h
  obtain ⟨-, behind, same⟩ := List.cons_prefix_cons.mp h
  rw [List.append_assoc, List.singleton_append] at same
  rcases List.append_eq_append_iff.mp same with ⟨more, rfl, htail⟩ | ⟨more, hfront, htail⟩
  · cases more with
    | nil => cases htail
    | cons c more =>
      cases htail
      exact hcontent (by simp)
  · cases more with
    | nil => cases htail
    | cons c more =>
      cases htail
      exact hname (by simp [hfront])

/-- The induction keeps account of the tag that the reader is in, since only its end tells whether it is the one that is
counted. -/
theorem occurrences_scan {name : String} (hopened : '<' ∉ name.toList) (hclosed : '>' ∉ name.toList) (cs : List Char) :
    occurrences (bracketed name) cs = (scan none cs).count (.tag name) ∧
      ∀ content, '>' ∉ content → (if bracketed name <+: '<' :: (content.reverse ++ cs) then 1 else 0) +
        occurrences (bracketed name) cs = (scan (some content) cs).count (.tag name) := by
  induction cs with
  | nil =>
    refine ⟨rfl, fun content hcontent => ?_⟩
    have apart : ¬ bracketed name <+: '<' :: (content.reverse ++ []) := by
      intro h
      have ending : '>' ∈ content.reverse ++ [] := (List.cons_prefix_cons.mp h).2.subset (by simp)
      simp [hcontent] at ending
    rw [if_neg apart]
    rfl
  | cons c cs ih =>
    obtain ⟨outside, inside⟩ := ih
    have opening : occurrences (bracketed name) ('<' :: cs) = (scan (some []) cs).count (.tag name) :=
      inside [] List.not_mem_nil
    constructor
    · by_cases hopen : c = '<'
      · rw [hopen, opening, scan, if_pos rfl]
      · have other : Token.char c ≠ .tag name := nofun
        rw [scan, if_neg hopen, occurrences_cons_of_ne hopen, outside, List.count_cons_of_ne other]
    · intro content hcontent
      have hreverse : '>' ∉ content.reverse := fun h => hcontent (List.mem_reverse.mp h)
      by_cases hclose : c = '>'
      · have whole : bracketed name <+: '<' :: (content.reverse ++ '>' :: cs) ↔
            Token.tag (String.ofList content.reverse) = .tag name := by
          rw [bracketed_prefix_iff hclosed hreverse, Token.tag.injEq, String.ofList_eq]
        rw [hclose, scan, if_pos rfl, occurrences_cons_of_ne (by decide), outside, List.count_cons, Nat.add_comm]
        simp only [whole, beq_iff_eq]
      by_cases hopen : c = '<'
      · rw [hopen, if_neg (not_bracketed_of_reopened hopened hreverse cs), Nat.zero_add, opening, scan,
          if_neg (by decide), if_pos rfl]
      · have more := inside (c :: content) (by simp [hcontent, Ne.symm hclose])
        rw [List.reverse_cons, List.append_assoc, List.singleton_append] at more
        rw [scan, if_neg hclose, if_neg hopen, occurrences_cons_of_ne hopen, more]

/-- Wherever the text of a tag stands, a reader comes upon the tag. -/
theorem occurrences_bracketed {name : String} (hopened : '<' ∉ name.toList) (hclosed : '>' ∉ name.toList)
    (cs : List Char) : occurrences (bracketed name) cs = (scan none cs).count (.tag name) :=
  (occurrences_scan hopened hclosed cs).1

def tags (ts : List Token) : List String := ts.filterMap fun t => match t with
  | .char _ => none
  | .tag content => some content

theorem mem_tags {name : String} {ts : List Token} : name ∈ tags ts ↔ .tag name ∈ ts := by
  rw [tags, List.mem_filterMap]
  constructor
  · rintro ⟨t, ht, hname⟩
    cases t with
    | char c => cases hname
    | tag content =>
      cases hname
      exact ht
  · intro h
    exact ⟨_, h, rfl⟩

/-- What stands between each tag of the one kind and the next one of the other kind. -/
def contents (opening closing : String) : List Token → List (List Token)
  | [] => []
  | t :: rest =>
    if t = .tag opening then rest.takeWhile (· ≠ .tag closing) :: contents opening closing rest
    else contents opening closing rest

def element (opening closing : String) (inner : List Token) : List Token := .tag opening :: inner ++ [.tag closing]

variable {opening closing : String} {inner front rest : List Token}

def chars (s : String) : List Token := s.toList.map .char

@[simp] theorem not_mem_chars {name s : String} : .tag name ∉ chars s := by
  simp [chars]

@[simp] theorem tag_mem_element {name : String} :
    .tag name ∈ element opening closing inner ↔ name = opening ∨ .tag name ∈ inner ∨ name = closing := by
  simp [element]

@[simp] theorem count_chars (name s : String) : (chars s).count (.tag name) = 0 := List.count_eq_zero.mpr not_mem_chars

@[simp] theorem count_element (name : String) : (element opening closing inner).count (.tag name) =
    (if opening = name then 1 else 0) + inner.count (.tag name) + (if closing = name then 1 else 0) := by
  simp [element, List.count_cons, Nat.add_comm, Nat.add_left_comm]

theorem contents_skip (h : .tag opening ∉ front) (rest : List Token) :
    contents opening closing (front ++ rest) = contents opening closing rest := by
  induction front with
  | nil => rfl
  | cons t front ih =>
    obtain ⟨ht, hfront⟩ := not_or.mp (fun h' => h (List.mem_cons.mpr h'))
    rw [List.cons_append, contents, if_neg (Ne.symm ht), ih hfront]

theorem contents_eq_nil (h : .tag opening ∉ front) : contents opening closing front = [] := by
  have skipped : contents opening closing (front ++ []) = [] := contents_skip h []
  rwa [List.append_nil] at skipped

theorem contents_element (other : opening ≠ closing) (unopened : .tag opening ∉ inner) (unended : .tag closing ∉ inner)
    (rest : List Token) : contents opening closing (element opening closing inner ++ rest) =
      inner :: contents opening closing rest := by
  have behind : .tag opening ∉ inner ++ [Token.tag closing] := by
    simp [unopened, other]
  have whole : (inner ++ [Token.tag closing] ++ rest).takeWhile (· ≠ .tag closing) = inner := by
    rw [List.append_assoc, List.takeWhile_append_of_pos]
    · simp
    · intro t ht
      exact decide_eq_true fun h => unended (h ▸ ht)
  rw [element, List.cons_append, List.cons_append, contents, if_pos rfl, whole, contents_skip behind]

def char? : Token → Option Char
  | .char c => some c
  | .tag _ => none

def words (ts : List Token) : String := String.ofList (unescape (ts.filterMap char?))

/-- The source of an image, which goes up to the next quote. -/
def source? : Token → Option String
  | .char _ => none
  | .tag content => (content.toList.dropPrefix? "img src=\"".toList).map fun cs =>
    String.ofList (unescape (cs.takeWhile (· ≠ '"')))

theorem filterMap_chars (s : String) : (chars s).filterMap char? = s.toList := by
  rw [chars, List.filterMap_map]
  exact List.filterMap_some

theorem words_element (opening closing : String) (inner : List Token) :
    words (element opening closing inner) = words inner := by
  simp [words, element, List.filterMap_cons, char?]

theorem words_plain {plain : String} (h : '&' ∉ plain.toList) : words (chars plain) = plain := by
  have whole : unescape (plain.toList ++ []) = plain.toList ++ unescape [] := unescape_plain h []
  rw [List.append_nil] at whole
  rw [words, filterMap_chars, whole]
  simp [unescape, resolve]

theorem words_escape (s : String) : words (chars (escape s)) = s := by
  rw [words, filterMap_chars, unescape_escape, String.ofList_toList]

/-- What was escaped behind plain characters is read behind them. -/
theorem words_behind {plain : String} (h : '&' ∉ plain.toList) (s : String) :
    words (chars plain ++ chars (escape s)) = plain ++ s := by
  rw [words, List.filterMap_append, filterMap_chars, filterMap_chars, unescape_plain h, unescape_escape,
    String.ofList_append, String.ofList_toList, String.ofList_toList]

theorem source?_eq_none {name : String} (letter : name.toList.head? ≠ some 'i') : source? (.tag name) = none := by
  have other : name.toList.dropPrefix? "img src=\"".toList = none := by
    rw [Option.eq_none_iff_forall_ne_some]
    intro cs h
    obtain ⟨front, hname, hfront⟩ := List.dropPrefix?_eq_some_iff.mp h
    rw [hname, eq_of_beq hfront] at letter
    exact letter rfl
  rw [source?, other, Option.map_none]

/-- The quote that ends the source is the one of the page, as a quote in the text is told by name. -/
theorem source?_escape {plain : String} (quote : '"' ∉ plain.toList) (h : '&' ∉ plain.toList) (s : String) :
    source? (.tag ("img src=\"" ++ (plain ++ escape s) ++ "\"")) = some (plain ++ s) := by
  have quotes : ∀ c ∈ plain.toList ++ (escape s).toList, decide (c ≠ '"') = true := by
    intro c hc
    refine decide_eq_true fun same => ?_
    rcases List.mem_append.mp (same ▸ hc) with hplain | hescape
    · exact quote hplain
    · exact not_mem_escape (by decide) s hescape
  have front : ("img src=\"" ++ (plain ++ escape s) ++ "\"").toList.dropPrefix? "img src=\"".toList =
      some (plain.toList ++ (escape s).toList ++ ['"']) := by
    simp only [String.toList_append, List.append_assoc]
    exact List.dropPrefix?_append_of_beq _ (beq_self_eq_true _)
  have upTo : (plain.toList ++ (escape s).toList ++ ['"']).takeWhile (· ≠ '"') = plain.toList ++ (escape s).toList := by
    rw [List.takeWhile_append_of_pos quotes]
    simp
  rw [source?, front, Option.map_some, upTo, unescape_plain h, unescape_escape]
  simp

theorem source?_chars (s : String) : (chars s).findSome? source? = none := by
  rw [chars, List.findSome?_map]
  simp [source?, Function.comp_def]

end SignerBench.Snapshot.Markup
