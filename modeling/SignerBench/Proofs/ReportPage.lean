import SignerBench.Proofs.MarkupText

namespace SignerBench.Snapshot

open Markup

inductive Cell where
  | picture (source : String)
  | words (text : String)
  deriving DecidableEq

def Cell.ofTokens (ts : List Token) : Cell :=
  match ts.findSome? source? with
  | some source => .picture source
  | none => .words (Markup.words ts)

structure Shown where
  titles : List String
  headings : List String
  /-- The lines that say that all is well. -/
  passed : List String
  /-- The lines that say what is wrong. -/
  failed : List String
  /-- The cells of each row of the table, without those that head a column. -/
  rows : List (List Cell)
  deriving DecidableEq

def Shown.ofPage (page : String) : Shown where
  titles := (contents "title" "/title" (tokens page)).map words
  headings := (contents "h1" "/h1" (tokens page)).map words
  passed := (contents "p class=\"pass\"" "/p" (tokens page)).map words
  failed := (contents "p class=\"fail\"" "/p" (tokens page)).map words
  rows := (contents "tr" "/tr" (tokens page)).map fun row => (contents "td" "/td" row).map Cell.ofTokens

/-- The image is shown if there is one and it has any data. -/
def Cell.ofImage (image : Option String) : Cell :=
  match image with
  | some data => if data = "" then .words "-" else .picture ("data:image/png;base64," ++ data)
  | none => .words "-"

def ReportStep.cells (s : ReportStep) : List Cell :=
  [.words s.file, .ofImage s.captured, .ofImage s.expected, .words (if s.pass then "ok" else "differs")]

/-- What is to be found on the page of a report. The first row of the table has nothing but the heads of the columns. -/
def Report.shown (r : Report) : Shown where
  titles := [r.name]
  headings := [r.name]
  passed := if r.result then ["PASS"] else []
  failed := if r.result then [] else ["FAIL: " ++ r.reason]
  rows := [] :: r.steps.map ReportStep.cells

def imageTokens (image : Option String) : List Token :=
  match image with
  | some data =>
    if data = "" then chars "-" else [.tag ("img src=\"" ++ ("data:image/png;base64," ++ escape data) ++ "\"")]
  | none => chars "-"

def passTokens (pass : Bool) : List Token :=
  if pass then element "span class=\"pass\"" "/span" (chars "ok")
  else element "span class=\"fail\"" "/span" (chars "differs")

def ReportStep.row (s : ReportStep) : List Token :=
  chars "\n      " ++ (element "td" "/td" (chars (escape s.file)) ++
    (chars "\n      " ++ (element "td" "/td" (imageTokens s.captured) ++
      (chars "\n      " ++ (element "td" "/td" (imageTokens s.expected) ++
        (chars "\n      " ++ (element "td" "/td" (passTokens s.pass) ++ chars "\n    ")))))))

def stepTokens (s : ReportStep) : List Token := chars "    " ++ (element "tr" "/tr" s.row ++ chars "\n")

theorem scan_escape (s : String) (rest : List Char) :
    scan none ((escape s).toList ++ rest) = chars (escape s) ++ scan none rest := by
  have plain : '<' ∉ (escape s).toList := not_mem_escape (by decide) s
  exact Scans.append ⟨scan_text plain, unclosed_text plain⟩ rest

def rendered (ps : List Piece) : List Char := ps.flatMap fun p => p.render.toList

@[simp] theorem rendered_append (ps qs : List Piece) : rendered (ps ++ qs) = rendered ps ++ rendered qs :=
  List.flatMap_append

@[simp] theorem rendered_cons (p : Piece) (ps : List Piece) : rendered (p :: ps) = p.render.toList ++ rendered ps := rfl

@[simp] theorem rendered_nil : rendered [] = [] := rfl

theorem html_toList (r : Report) : r.html.toList = rendered r.pieces := by
  rw [Report.html, String.toList_join, List.flatMap_map]
  rfl

/-- The data of an image is a part of its tag. -/
theorem scan_image (image : Option String) (rest : List Char) :
    scan none (rendered (imagePieces image) ++ rest) = imageTokens image ++ scan none rest := by
  cases image with
  | none => rfl
  | some data =>
    by_cases empty : data = ""
    · simp only [imagePieces, imageTokens, if_pos empty]
      rfl
    · have opened : '<' ∉ (escape data).toList := not_mem_escape (by decide) data
      have closed : '>' ∉ (escape data).toList := not_mem_escape (by decide) data
      have front : scan none "<img src=\"data:image/png;base64,".toList = [] := rfl
      have within : unclosed none "<img src=\"data:image/png;base64,".toList =
          some "img src=\"data:image/png;base64,".toList.reverse := rfl
      have ending (content : List Char) : scan (some content) ("\">".toList ++ rest) =
          .tag (String.ofList (content.reverse ++ ['"'])) :: scan none rest := by
        simp [scan]
      simp only [imagePieces, imageTokens, if_neg empty, rendered_cons, rendered_nil, Piece.render, List.append_nil,
        List.append_assoc]
      have whole : String.ofList
          (((escape data).toList.reverse ++ "img src=\"data:image/png;base64,".toList.reverse).reverse ++ ['"']) =
            "img src=\"" ++ ("data:image/png;base64," ++ escape data) ++ "\"" := by
        apply String.toList_injective
        simp
      rw [scan_append, front, within, List.nil_append, scan_append, scan_inside opened closed,
        unclosed_inside opened closed, List.nil_append, ending, whole, List.singleton_append]

theorem scan_step (s : ReportStep) (rest : List Char) :
    scan none (rendered s.pieces ++ rest) = stepTokens s ++ scan none rest := by
  have start : Scans "    <tr>\n      <td>".toList
      (chars "    " ++ Token.tag "tr" :: (chars "\n      " ++ [Token.tag "td"])) := ⟨rfl, rfl⟩
  have next : Scans "</td>\n      <td>".toList (Token.tag "/td" :: (chars "\n      " ++ [Token.tag "td"])) := ⟨rfl, rfl⟩
  have finish : Scans ("</td>\n      <td>" ++ passMarkup s.pass ++ "</td>\n    </tr>\n").toList
      (Token.tag "/td" :: (chars "\n      " ++ (element "td" "/td" (passTokens s.pass) ++
        (chars "\n    " ++ Token.tag "/tr" :: chars "\n")))) := by
    unfold passMarkup
    cases s.pass <;> simp only [String.toList_append, Bool.false_eq_true, if_false, if_true]
    · repeat rw [String.toList_ofList]
      decide +kernel
    · repeat rw [String.toList_ofList]
      decide +kernel
  simp only [ReportStep.pieces, rendered_append, rendered_cons, rendered_nil, Piece.render, List.append_nil,
    List.append_assoc]
  rw [start.append, scan_escape, next.append, scan_image, next.append, scan_image, finish.append]
  simp only [stepTokens, element, ReportStep.row, List.append_assoc, List.cons_append, List.nil_append]

theorem scan_steps (steps : List ReportStep) (rest : List Char) :
    scan none (rendered (steps.flatMap ReportStep.pieces) ++ rest) =
      steps.flatMap stepTokens ++ scan none rest := by
  induction steps with
  | nil => rfl
  | cons s steps ih =>
    rw [List.flatMap_cons, rendered_append, List.append_assoc, scan_step, ih, List.flatMap_cons, List.append_assoc]

def frontNames : List String := ["!DOCTYPE html", "html", "head", "meta charset=\"utf-8\""]

def frontTokens : List Token := (tokens openingMarkup).dropLast

/-- The markup before the title is fixed, so its tokens are computed once. -/
theorem scans_opening : Scans openingMarkup.toList (frontTokens ++ [Token.tag "title"]) := by
  unfold frontTokens tokens openingMarkup
  rw [String.toList_ofList]
  decide +kernel

theorem tags_front : tags frontTokens = frontNames := by
  unfold frontTokens tokens openingMarkup
  rw [String.toList_ofList]
  decide +kernel

def styleNames : List String := ["style", "/style", "/head", "body"]

def styleTokens : List Token := (tokens styleMarkup).tail.dropLast

theorem scans_style : Scans styleMarkup.toList (.tag "/title" :: (styleTokens ++ [.tag "h1"])) := by
  unfold styleTokens tokens styleMarkup
  simp only [String.toList_append]
  repeat rw [String.toList_ofList]
  decide +kernel

theorem tags_style : tags styleTokens = styleNames := by
  unfold styleTokens tokens styleMarkup
  simp only [String.toList_append]
  repeat rw [String.toList_ofList]
  decide +kernel

def lineTag (result : Bool) : String := if result then "p class=\"pass\"" else "p class=\"fail\""

def lineTokens (r : Report) : List Token :=
  if r.result then chars "PASS" else chars "FAIL: " ++ chars (escape r.reason)

def verdictTokens (r : Report) : List Token :=
  chars "  " ++ (element (lineTag r.result) "/p" (lineTokens r) ++ chars "\n")

def columnTokens : List Token :=
  element "th" "/th" (chars "#") ++ element "th" "/th" (chars "captured") ++ element "th" "/th" (chars "expected") ++
    element "th" "/th" []

def tableTokens (r : Report) : List Token :=
  chars "  " ++ (.tag "table" :: (chars "\n    " ++ (element "tr" "/tr" columnTokens ++ (chars "\n" ++
    (r.steps.flatMap stepTokens ++ tokens closingMarkup)))))

theorem scan_verdict (r : Report) (rest : List Char) :
    scan none (rendered r.verdictPieces ++ rest) = verdictTokens r ++ scan none rest := by
  unfold Report.verdictPieces verdictTokens lineTag lineTokens
  by_cases passed : r.result = true
  · have line : Scans "  <p class=\"pass\">PASS</p>\n".toList
        (chars "  " ++ (element "p class=\"pass\"" "/p" (chars "PASS") ++ chars "\n")) := ⟨rfl, rfl⟩
    simp only [if_pos passed, rendered_cons, rendered_nil, Piece.render, List.append_nil]
    rw [line.append]
  · have front : Scans "  <p class=\"fail\">FAIL: ".toList
        (chars "  " ++ (.tag "p class=\"fail\"" :: chars "FAIL: ")) := ⟨rfl, rfl⟩
    have back : Scans "</p>\n".toList (.tag "/p" :: chars "\n") := ⟨rfl, rfl⟩
    simp only [if_neg passed, rendered_cons, rendered_nil, Piece.render, List.append_nil, List.append_assoc]
    rw [front.append, scan_escape, back.append]
    simp only [element, List.append_assoc, List.cons_append, List.nil_append]

theorem scans_table : Scans tableMarkup.toList (chars "  " ++ (.tag "table" :: (chars "\n    " ++
    (element "tr" "/tr" columnTokens ++ chars "\n")))) := by
  unfold tableMarkup
  rw [String.toList_ofList]
  decide +kernel

theorem tokens_closing : tokens closingMarkup = chars "  " ++ (.tag "/table" :: (chars "\n" ++ (.tag "/body" ::
    (chars "\n" ++ (.tag "/html" :: chars "\n"))))) := rfl

theorem page_toList (r : Report) : r.html.toList =
    openingMarkup.toList ++ ((escape r.name).toList ++ (styleMarkup.toList ++ ((escape r.name).toList ++
      ("</h1>\n".toList ++ (rendered r.verdictPieces ++ (tableMarkup.toList ++
        (rendered (r.steps.flatMap ReportStep.pieces) ++ closingMarkup.toList))))))) := by
  rw [html_toList]
  simp only [Report.pieces, rendered_append, rendered_cons, rendered_nil, Piece.render, List.append_nil,
    List.append_assoc]

/-- All of the page: fixed parts, the title and the heading, the verdict and the table. -/
theorem tokens_html (r : Report) : tokens r.html =
    frontTokens ++ (element "title" "/title" (chars (escape r.name)) ++ (styleTokens ++
      (element "h1" "/h1" (chars (escape r.name)) ++ (chars "\n" ++ (verdictTokens r ++ tableTokens r))))) := by
  have heading : Scans "</h1>\n".toList (.tag "/h1" :: chars "\n") := ⟨rfl, rfl⟩
  rw [tokens, page_toList, scans_opening.append, scan_escape, scans_style.append, scan_escape, heading.append,
    scan_verdict, scans_table.append, scan_steps, ← tokens, tableTokens]
  simp -implicitDefEqProofs only [element, List.append_assoc, List.cons_append, List.nil_append]

variable {name : String} {r : Report}

def rowNames : List String := ["td", "/td", "span class=\"pass\"", "span class=\"fail\"", "/span"]

theorem not_mem_image (letter : name.toList.head? ≠ some 'i') (image : Option String) :
    .tag name ∉ imageTokens image := by
  unfold imageTokens
  split
  · split
    · exact not_mem_chars
    · intro h
      rw [List.mem_singleton, Token.tag.injEq] at h
      exact letter (by simp [h])
  · exact not_mem_chars

theorem not_mem_pass (other : name ∉ rowNames) (pass : Bool) : .tag name ∉ passTokens pass := by
  simp only [rowNames, List.mem_cons, List.not_mem_nil, or_false, not_or] at other
  cases pass <;> simp [passTokens, other]

/-- A row has its own tags and images, and nothing else. -/
theorem not_mem_row (letter : name.toList.head? ≠ some 'i') (other : name ∉ rowNames) (s : ReportStep) :
    .tag name ∉ s.row := by
  have pass := not_mem_pass other s.pass
  simp only [rowNames, List.mem_cons, List.not_mem_nil, or_false, not_or] at other
  simp [ReportStep.row, not_mem_image letter, pass, other]

theorem ofTokens_file (s : String) : Cell.ofTokens (chars (escape s)) = .words s := by
  rw [Cell.ofTokens, source?_chars, words_escape]

theorem ofTokens_image (image : Option String) : Cell.ofTokens (imageTokens image) = .ofImage image := by
  unfold imageTokens Cell.ofImage
  split
  · split
    · rfl
    · rw [Cell.ofTokens, List.findSome?_singleton, source?_escape (by decide) (by decide)]
  · rfl

theorem ofTokens_pass (pass : Bool) : Cell.ofTokens (passTokens pass) = .words (if pass then "ok" else "differs") := by
  have text (name word : String) (letter : name.toList.head? ≠ some 'i') (plain : '&' ∉ word.toList) :
      Cell.ofTokens (element name "/span" (chars word)) = .words word := by
    have ending : source? (.tag "/span") = none := source?_eq_none (by decide)
    have silent : (element name "/span" (chars word)).findSome? source? = none := by
      simp [element, source?_eq_none letter, source?_chars, ending]
    rw [Cell.ofTokens, silent, words_element, words_plain plain]
  cases pass
  · exact text _ _ (by decide) (by decide)
  · exact text _ _ (by decide) (by decide)

/-- What a reader makes of the cells of a row is what the step holds. -/
theorem cells_row (s : ReportStep) : (contents "td" "/td" s.row).map Cell.ofTokens = s.cells := by
  have image (image : Option String) : .tag "td" ∉ imageTokens image ∧ .tag "/td" ∉ imageTokens image :=
    ⟨not_mem_image (by decide) image, not_mem_image (by decide) image⟩
  have pass : .tag "td" ∉ passTokens s.pass ∧ .tag "/td" ∉ passTokens s.pass := by
    cases s.pass <;> simp [passTokens]
  rw [ReportStep.row, contents_skip not_mem_chars,
    contents_element (by decide) not_mem_chars not_mem_chars, contents_skip not_mem_chars,
    contents_element (by decide) (image _).1 (image _).2, contents_skip not_mem_chars,
    contents_element (by decide) (image _).1 (image _).2, contents_skip not_mem_chars,
    contents_element (by decide) pass.1 pass.2, contents_eq_nil not_mem_chars]
  simp only [List.map_cons, List.map_nil, ofTokens_file, ofTokens_image, ofTokens_pass, ReportStep.cells]

def tableNames : List String := ["table", "tr", "/tr", "th", "/th", "/table", "/body", "/html"]

theorem not_mem_table (letter : name.toList.head? ≠ some 'i') (inRow : name ∉ rowNames) (other : name ∉ tableNames)
    (r : Report) : .tag name ∉ tableTokens r := by
  simp only [tableNames, List.mem_cons, List.not_mem_nil, or_false, not_or] at other
  have step (s : ReportStep) : .tag name ∉ stepTokens s := by
    simp [stepTokens, not_mem_row letter inRow, other]
  have steps : .tag name ∉ r.steps.flatMap stepTokens := by
    intro h
    obtain ⟨s, _, hs⟩ := List.mem_flatMap.mp h
    exact step s hs
  simp [tableTokens, columnTokens, steps, tokens_closing, other]

theorem not_mem_line : .tag name ∉ lineTokens r := by
  unfold lineTokens
  split <;> simp

theorem not_mem_verdict (other : name ∉ [lineTag true, lineTag false, "/p"]) : .tag name ∉ verdictTokens r := by
  simp only [List.mem_cons, List.not_mem_nil, or_false, not_or] at other
  have line : name ≠ lineTag r.result := by
    cases r.result
    · exact other.2.1
    · exact other.1
  simp [verdictTokens, not_mem_line, line, other]

theorem not_mem_front (other : name ∉ frontNames) : .tag name ∉ frontTokens := by
  rwa [← mem_tags, tags_front]

theorem not_mem_style (other : name ∉ styleNames) : .tag name ∉ styleTokens := by
  rwa [← mem_tags, tags_style]

theorem titles_html (r : Report) : (contents "title" "/title" (tokens r.html)).map words = [r.name] := by
  have style : .tag "title" ∉ styleTokens := not_mem_style (by decide)
  have verdict : .tag "title" ∉ verdictTokens r := not_mem_verdict (by decide)
  have table : .tag "title" ∉ tableTokens r := not_mem_table (by decide) (by decide) (by decide) r
  have rest : .tag "title" ∉ styleTokens ++ (element "h1" "/h1" (chars (escape r.name)) ++ (chars "\n" ++
      (verdictTokens r ++ tableTokens r))) := by
    simp [style, verdict, table]
  rw [tokens_html, contents_skip (not_mem_front (by decide)), contents_element (by decide) not_mem_chars not_mem_chars,
    contents_eq_nil rest, List.map_singleton, words_escape]

theorem headings_html (r : Report) : (contents "h1" "/h1" (tokens r.html)).map words = [r.name] := by
  have title : .tag "h1" ∉ element "title" "/title" (chars (escape r.name)) := by simp
  have verdict : .tag "h1" ∉ verdictTokens r := not_mem_verdict (by decide)
  have table : .tag "h1" ∉ tableTokens r := not_mem_table (by decide) (by decide) (by decide) r
  have rest : .tag "h1" ∉ chars "\n" ++ (verdictTokens r ++ tableTokens r) := by
    simp [verdict, table]
  rw [tokens_html, contents_skip (not_mem_front (by decide)), contents_skip title,
    contents_skip (not_mem_style (by decide)), contents_element (by decide) not_mem_chars not_mem_chars,
    contents_eq_nil rest, List.map_singleton, words_escape]

def headTokens (r : Report) : List Token :=
  frontTokens ++ (element "title" "/title" (chars (escape r.name)) ++ (styleTokens ++
    (element "h1" "/h1" (chars (escape r.name)) ++ chars "\n")))

theorem tokens_head (r : Report) : tokens r.html = headTokens r ++ (verdictTokens r ++ tableTokens r) := by
  simp only [tokens_html, headTokens, List.append_assoc]

theorem not_mem_head (front : name ∉ frontNames) (style : name ∉ styleNames)
    (other : name ∉ ["title", "/title", "h1", "/h1"]) : .tag name ∉ headTokens r := by
  simp only [List.mem_cons, List.not_mem_nil, or_false, not_or] at other
  simp [headTokens, not_mem_front front, not_mem_style style, other]

/-- There is one line with a verdict, and it is the right one. -/
theorem contents_line (result : Bool) (r : Report) : contents (lineTag result) "/p" (tokens r.html) =
    if result = r.result then [lineTokens r] else [] := by
  have head : .tag (lineTag result) ∉ headTokens r := by
    cases result <;> exact not_mem_head (by decide) (by decide) (by decide)
  have table : .tag (lineTag result) ∉ tableTokens r := by
    cases result <;> exact not_mem_table (by decide) (by decide) (by decide) r
  have rest : .tag (lineTag result) ∉ chars "\n" ++ tableTokens r := by
    simp [table]
  have ended : lineTag result ≠ "/p" := by cases result <;> decide
  rw [tokens_head, contents_skip head, verdictTokens, List.append_assoc, List.append_assoc, contents_skip not_mem_chars]
  by_cases same : result = r.result
  · rw [if_pos same, ← same, contents_element ended not_mem_line not_mem_line, contents_eq_nil rest]
  · have differ : lineTag result ≠ lineTag r.result := by
      revert same
      cases result <;> cases r.result <;> decide
    have other : .tag (lineTag result) ∉ element (lineTag r.result) "/p" (lineTokens r) := by
      simp [not_mem_line, differ, ended]
    rw [if_neg same, contents_skip other, contents_eq_nil rest]

theorem passed_html (r : Report) : (contents "p class=\"pass\"" "/p" (tokens r.html)).map words =
    if r.result then ["PASS"] else [] := by
  have line : contents "p class=\"pass\"" "/p" (tokens r.html) = _ := contents_line true r
  by_cases passed : r.result = true
  · rw [line, if_pos passed.symm, if_pos passed, lineTokens, if_pos passed, List.map_singleton, words_plain (by decide)]
  · rw [line, if_neg (Ne.symm passed), if_neg passed, List.map_nil]

theorem failed_html (r : Report) : (contents "p class=\"fail\"" "/p" (tokens r.html)).map words =
    if r.result then [] else ["FAIL: " ++ r.reason] := by
  have line : contents "p class=\"fail\"" "/p" (tokens r.html) = _ := contents_line false r
  by_cases passed : r.result = true
  · rw [line, if_pos passed, passed, if_neg (by decide), List.map_nil]
  · have failed : false = r.result := (Bool.eq_false_iff.mpr passed).symm
    rw [line, if_pos failed, if_neg passed, lineTokens, if_neg passed, List.map_singleton, words_behind (by decide)]

/-- Each step has its row, and the rows stand in the order of the steps. -/
theorem contents_steps (steps : List ReportStep) (rest : List Token) :
    contents "tr" "/tr" (steps.flatMap stepTokens ++ rest) =
      steps.map ReportStep.row ++ contents "tr" "/tr" rest := by
  induction steps with
  | nil => rfl
  | cons s steps ih =>
    have opening : .tag "tr" ∉ s.row := not_mem_row (by decide) (by decide) s
    have closing : .tag "/tr" ∉ s.row := not_mem_row (by decide) (by decide) s
    rw [List.flatMap_cons, List.append_assoc, stepTokens, List.append_assoc, List.append_assoc,
      contents_skip not_mem_chars, contents_element (by decide) opening closing, contents_skip not_mem_chars, ih,
      List.map_cons, List.cons_append]

/-- The first row has heads of columns and no cells. -/
theorem rows_html (r : Report) : (contents "tr" "/tr" (tokens r.html)).map
    (fun row => (contents "td" "/td" row).map Cell.ofTokens) = [] :: r.steps.map ReportStep.cells := by
  have head : .tag "tr" ∉ headTokens r := not_mem_head (by decide) (by decide) (by decide)
  have verdict : .tag "tr" ∉ verdictTokens r := not_mem_verdict (by decide)
  have table : .tag "tr" ∉ chars "  " ++ (.tag "table" :: chars "\n    ") := by simp
  have columns : .tag "tr" ∉ columnTokens ∧ .tag "/tr" ∉ columnTokens ∧ .tag "td" ∉ columnTokens := by
    simp [columnTokens]
  have closing : .tag "tr" ∉ tokens closingMarkup := by simp [tokens_closing]
  have body : tableTokens r = chars "  " ++ (.tag "table" :: chars "\n    ") ++ (element "tr" "/tr" columnTokens ++
      (chars "\n" ++ (r.steps.flatMap stepTokens ++ tokens closingMarkup))) := by
    simp only [tableTokens, List.append_assoc, List.cons_append]
  rw [tokens_head, contents_skip head, contents_skip verdict, body, contents_skip table,
    contents_element (by decide) columns.1 columns.2.1, contents_skip not_mem_chars, contents_steps,
    contents_eq_nil closing, List.append_nil, List.map_cons, List.map_map, contents_eq_nil columns.2.2]
  have cells : (fun row => (contents "td" "/td" row).map Cell.ofTokens) ∘ ReportStep.row = ReportStep.cells :=
    funext cells_row
  rw [cells, List.map_nil]

/-- A reader finds on the page just what the report holds. -/
theorem ofPage_html (r : Report) : Shown.ofPage r.html = r.shown := by
  rw [Shown.ofPage, titles_html, headings_html, passed_html, failed_html, rows_html, Report.shown]

theorem count_steps (steps : List ReportStep) : (steps.flatMap stepTokens).count (.tag "tr") = steps.length := by
  induction steps with
  | nil => rfl
  | cons s steps ih =>
    have row : s.row.count (.tag "tr") = 0 := List.count_eq_zero.mpr (not_mem_row (by decide) (by decide) s)
    have step : (stepTokens s).count (.tag "tr") = 1 := by
      simp [stepTokens, row]
    rw [List.flatMap_cons, List.count_append, step, ih, List.length_cons, Nat.add_comm]

/-- There is a row for the heads of the columns and one for each step, and nothing else that looks like one. -/
theorem occurrences_html (r : Report) : occurrences "<tr>".toList r.html.toList = 1 + r.steps.length := by
  have pattern : "<tr>".toList = bracketed "tr" := rfl
  have head : (headTokens r).count (.tag "tr") = 0 :=
    List.count_eq_zero.mpr (not_mem_head (by decide) (by decide) (by decide))
  have verdict : (verdictTokens r).count (.tag "tr") = 0 := List.count_eq_zero.mpr (not_mem_verdict (by decide))
  have columns : columnTokens.count (.tag "tr") = 0 := by
    simp [columnTokens]
  have table : (tableTokens r).count (.tag "tr") = 1 + r.steps.length := by
    simp [tableTokens, columns, count_steps, tokens_closing, Nat.add_comm]
  rw [pattern, occurrences_bracketed (by decide) (by decide), ← tokens, tokens_head, List.count_append,
    List.count_append, head, verdict, table, Nat.zero_add, Nat.zero_add]

def marksOf (cs : List Char) : List Char := cs.filter (· ∈ marks)

theorem marksOf_escape (s : String) : marksOf (escape s).toList = [] :=
  List.filter_eq_nil_iff.mpr fun _ hc h => not_mem_escape (of_decide_eq_true h) s hc

/-- An image of which only counts that it is shown. -/
def blankImage (image : Option String) : Option String := image.map fun data => if data = "" then "" else "data"

def ReportStep.blank (s : ReportStep) : ReportStep :=
  { s with file := "", captured := blankImage s.captured, expected := blankImage s.expected }

/-- The report without its texts. Images that are shown are all the same. -/
def Report.blank (r : Report) : Report :=
  { r with name := "", reason := "", steps := r.steps.map ReportStep.blank }

def Piece.marks : Piece → List Char
  | .markup s => marksOf s.toList
  | .text _ => []

theorem marksOf_rendered (ps : List Piece) : marksOf (rendered ps) = ps.flatMap Piece.marks := by
  induction ps with
  | nil => rfl
  | cons p ps ih =>
    have first : marksOf p.render.toList = p.marks := by
      cases p with
      | markup s => rfl
      | text s => exact marksOf_escape s
    rw [rendered_cons, marksOf, List.filter_append, ← marksOf, ← marksOf, first, ih, List.flatMap_cons]

theorem marks_image (image : Option String) :
    (imagePieces (blankImage image)).flatMap Piece.marks = (imagePieces image).flatMap Piece.marks := by
  cases image with
  | none => rfl
  | some data =>
    by_cases empty : data = ""
    · simp [blankImage, imagePieces, empty]
    · simp [blankImage, imagePieces, empty, Piece.marks]

theorem marks_step (s : ReportStep) : s.blank.pieces.flatMap Piece.marks = s.pieces.flatMap Piece.marks := by
  simp only [ReportStep.pieces, ReportStep.blank, List.flatMap_append, List.flatMap_cons, List.flatMap_nil, marks_image,
    Piece.marks]

/-- None of the texts of a report adds to the markup. -/
theorem marksOf_html (r : Report) : marksOf r.html.toList = marksOf r.blank.html.toList := by
  have steps : (r.blank.steps.flatMap ReportStep.pieces).flatMap Piece.marks =
      (r.steps.flatMap ReportStep.pieces).flatMap Piece.marks := by
    simp only [Report.blank, List.flatMap_map, List.flatMap_assoc, marks_step]
  have verdict : r.blank.verdictPieces.flatMap Piece.marks = r.verdictPieces.flatMap Piece.marks := by
    by_cases passed : r.result = true <;> simp [Report.verdictPieces, Report.blank, passed, Piece.marks]
  rw [html_toList, html_toList, marksOf_rendered, marksOf_rendered]
  simp only [Report.pieces, List.flatMap_append, List.flatMap_cons, List.flatMap_nil, steps, verdict, Piece.marks]

/-- Whatever its texts hold, the page of a report has just the rows of its steps, a reader finds on it just what the
report holds, and all its markup is there for every report of this shape. -/
theorem page_unforged (r : Report) :
    occurrences "<tr>".toList r.html.toList = 1 + r.steps.length ∧ Shown.ofPage r.html = r.shown ∧
      marksOf r.html.toList = marksOf r.blank.html.toList :=
  ⟨occurrences_html r, ofPage_html r, marksOf_html r⟩

end SignerBench.Snapshot
