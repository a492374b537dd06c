namespace SignerBench.Snapshot

/-- One place of the two sets. The images are base64 text. -/
structure ReportStep where
  file : String
  captured : Option String
  expected : Option String
  pass : Bool
  deriving DecidableEq, Repr

structure Report where
  /-- Of the set. -/
  name : String
  result : Bool
  reason : String
  steps : List ReportStep
  deriving DecidableEq, Repr

inductive Piece where
  | markup (s : String)
  | text (s : String)
  deriving DecidableEq, Repr

def escapeChar (c : Char) : List Char :=
  if c = '&' then ['&', 'a', 'm', 'p', ';']
  else if c = '<' then ['&', 'l', 't', ';']
  else if c = '>' then ['&', 'g', 't', ';']
  else if c = '"' then ['&', 'q', 'u', 'o', 't', ';']
  else if c = '\x27' then ['&', '#', 'x', '2', '7', ';']
  else if c = '\x60' then ['&', '#', 'x', '6', '0', ';']
  else if c = '=' then ['&', '#', 'x', '3', 'D', ';']
  else [c]

def escape (s : String) : String := String.ofList (s.toList.flatMap escapeChar)

def Piece.render : Piece → String
  | markup s => s
  | text s => escape s

/-- An image in its cell, or a dash where there is none. -/
def imagePieces (image : Option String) : List Piece :=
  match image with
  | some data =>
    if data = "" then [.markup "-"]
    else [.markup "<img src=\"data:image/png;base64,", .text data, .markup "\">"]
  | none => [.markup "-"]

def passMarkup (pass : Bool) : String :=
  if pass then "<span class=\"pass\">ok</span>" else "<span class=\"fail\">differs</span>"

def ReportStep.pieces (s : ReportStep) : List Piece :=
  [.markup "    <tr>\n      <td>", .text s.file, .markup "</td>\n      <td>"] ++ imagePieces s.captured ++
    [.markup "</td>\n      <td>"] ++ imagePieces s.expected ++
    [.markup ("</td>\n      <td>" ++ passMarkup s.pass ++ "</td>\n    </tr>\n")]

def openingMarkup : String :=
  "<!DOCTYPE html>\n<html>\n<head>\n  <meta charset=\"utf-8\">\n  <title>"

def styleMarkup : String :=
  "</title>\n  <style>\n" ++
  "    body \x7b font-family: monospace; background: #1e1e1e; color: #ddd; \x7d\n" ++
  "    table \x7b border-collapse: collapse; \x7d\n" ++
  "    td, th \x7b padding: 6px 12px; border-bottom: 1px solid #444; vertical-align: top; \x7d\n" ++
  "    img \x7b image-rendering: pixelated; border: 1px solid #666; max-width: 320px; \x7d\n" ++
  "    .pass \x7b color: #6c6; \x7d\n" ++
  "    .fail \x7b color: #e55; \x7d\n" ++
  "  </style>\n</head>\n<body>\n  <h1>"

def tableMarkup : String :=
  "  <table>\n    <tr><th>#</th><th>captured</th><th>expected</th><th></th></tr>\n"

def closingMarkup : String := "  </table>\n</body>\n</html>\n"

namespace Report

def verdictPieces (r : Report) : List Piece :=
  if r.result then [.markup "  <p class=\"pass\">PASS</p>\n"]
  else [.markup "  <p class=\"fail\">FAIL: ", .text r.reason, .markup "</p>\n"]

def pieces (r : Report) : List Piece :=
  [.markup openingMarkup, .text r.name, .markup styleMarkup, .text r.name, .markup "</h1>\n"] ++
    r.verdictPieces ++ [.markup tableMarkup] ++ r.steps.flatMap ReportStep.pieces ++
    [.markup closingMarkup]

def html (r : Report) : String := String.join (r.pieces.map Piece.render)

end Report

end SignerBench.Snapshot
