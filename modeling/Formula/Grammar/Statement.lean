import Formula.Grammar.Expression

/-! The explanation of a rejected text: the text, cut at the place where it could not be read any
further, and what was tried there. Everything that a reader is shown follows from these. -/

namespace Formula

structure Diagnostic where
  before : List Char
  after : List Char
  tried : List Grammar.Production
  deriving DecidableEq, Repr

namespace Diagnostic

def position (d : Diagnostic) : Text.Position :=
  .after d.before

def expected (d : Diagnostic) : List String :=
  Grammar.Production.names d.tried

def alternatives : List String → String
  | [] => ""
  | [only] => only
  | [first, second] => first ++ " or " ++ second
  | first :: second :: others =>
    ", ".intercalate ((first :: second :: others).dropLast) ++ ", or " ++
      (second :: others).getLast (List.cons_ne_nil _ _)

def reason (d : Diagnostic) : String :=
  if d.expected.isEmpty then "unknown parsing error" else "expected " ++ alternatives d.expected

/-- The line around the place, with the line feed that ends it. Where the place is a line end, the
line ends are shown as pictures of themselves, and otherwise they are left out. -/
def excerpt (d : Diagnostic) : List Char :=
  let line := Text.lastLine d.before ++ Text.throughLineFeed d.after
  let atLineEnd := match d.after with
    | c :: _ => c == '\r' || c == '\n'
    | [] => false
  if atLineEnd then line.map fun c => if c = '\r' then '␍' else if c = '\n' then '␊' else c
  else line.filter fun c => c ≠ '\r' && c ≠ '\n'

/-- The line below the excerpt, which points at the place. It has the excerpt's tabs, so that it
stays in step with it. -/
def pointer (d : Diagnostic) : List Char :=
  (d.excerpt.take (d.position.column - 1)).map (fun c => if c = '\t' then '\t' else ' ') ++
    ['^', '-', '-', '-']

/-- The diagnostic on several lines, with the excerpt beside its line number. -/
def render (d : Diagnostic) : String :=
  let line := toString d.position.line
  let margin := String.ofList (List.replicate line.length ' ')
  "\n".intercalate
    [margin ++ "--> " ++ line ++ ":" ++ toString d.position.column,
     margin ++ " |",
     line ++ " | " ++ String.ofList d.excerpt,
     margin ++ " | " ++ String.ofList d.pointer,
     margin ++ " |",
     margin ++ " = " ++ d.reason]

def message (d : Diagnostic) : String :=
  "Parse failure at " ++ toString d.position.line ++ ":" ++ toString d.position.column ++ ": " ++
    d.render

end Diagnostic

end Formula

/-! Whole texts: an expression, or an assignment of an expression to a name. -/

namespace Formula.Grammar

inductive Statement where
  | assignment (name : String) (body : Reading)
  | expression (body : Reading)

open Formula.Grammar.Parser

def assignment : Parser Statement :=
  named .assignment do
    let name ← identifier
    blanks
    literal ['=']
    blanks
    let body ← expression
    pure (.assignment name body)

/-- A whole text, with white space before and after it. -/
def statement : Parser Statement :=
  named .expression do
    blanks
    let found ← assignment <|> (do let body ← expression; pure (.expression body))
    blanks
    endOfInput
    pure found

def read (text : String) : Except Diagnostic Statement :=
  let characters := text.toList
  match statement characters with
  | ⟨some (found, _), _⟩ => .ok found
  | ⟨none, attempts⟩ =>
    let read := characters.length - attempts.remaining characters.length
    .error ⟨characters.take read, characters.drop read, attempts.productions⟩

end Formula.Grammar
