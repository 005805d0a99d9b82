import Formula.Operator
import Formula.Text

/-! The productions of the grammar and their names for a reader. -/

namespace Formula.Grammar

/-- The productions of the grammar, by which a rejected text is explained. -/
inductive Production where
  | endOfInput
  | expression
  | assignment
  | layer (layer : Layer)
  | operator (layer : Layer)
  | operand
  | negation
  | factorialOperand
  | factorial
  | primary
  | conditional
  | conditionalArguments
  | call
  | callArguments
  | var
  | parenthetical
  | closingParenthesis
  | number
  | identifier
  deriving DecidableEq, Repr

namespace Production

/-- All productions in the order in which they are listed to a reader. -/
def all : List Production :=
  [endOfInput, expression, assignment] ++ Layer.all.map layer ++ Layer.all.map operator ++
    [operand, negation, factorialOperand, factorial, primary, conditional, conditionalArguments,
     call, callArguments, var, parenthetical, closingParenthesis, number, identifier]

/-- The name of a production for a reader. Productions that differ only in precedence share one. -/
def name : Production → String
  | endOfInput => "end of input"
  | expression | layer _ => "expression"
  | assignment => "assignment"
  | operator _ => "operator"
  | operand | negation | factorialOperand | primary | parenthetical => "operand"
  | factorial => "factorial"
  | conditional => "conditional"
  | call => "function call"
  | conditionalArguments | callArguments => "arguments"
  | closingParenthesis => "closing parenthesis"
  | var | identifier => "identifier"
  | number => "number"

def names (productions : List Production) : List String :=
  ((all.filter productions.contains).map name).eraseDups

end Production

/-! What the reading of a text tried in vain. Only the furthest place counts, and there a
production stands for all those within it that were tried at the same place. -/

/-- What was tried in vain so far, at the place furthest into the text where anything was. The place
is known by the number of characters after it, so that fewer characters are further on. At least
one production was tried there. -/
inductive Attempts where
  | nothing
  | furthest (remaining : Nat) (first : Production) (others : List Production)
  deriving DecidableEq, Repr

namespace Attempts

/-- The attempts of two stretches of reading, the earlier stretch first. Only the furthest place
counts. -/
def merge : Attempts → Attempts → Attempts
  | nothing, later => later
  | earlier, nothing => earlier
  | furthest remaining first others, furthest remaining' first' others' =>
    if remaining < remaining' then furthest remaining first others
    else if remaining' < remaining then furthest remaining' first' others'
    else furthest remaining first (others ++ first' :: others')

/-- What a production that failed leaves behind, given what was tried within it. It stands for all
that was tried at the place where it starts itself, unless that is a single production, which says
more. What was tried further on stays. -/
def within (start : Nat) (production : Production) : Attempts → Attempts
  | nothing => furthest start production []
  | furthest remaining first others =>
    if remaining < start ∨ others = [] then furthest remaining first others
    else furthest start production []

def productions : Attempts → List Production
  | nothing => []
  | furthest _ first others => first :: others

/-- The number of characters after the furthest place, in a text of the given length. Where nothing
was tried this is the start of the text. -/
def remaining (length : Nat) : Attempts → Nat
  | nothing => length
  | furthest remaining _ _ => remaining

end Attempts

/-! Parsers with ordered choice. A parser reads from the start of a text, and also reports what it
tried in vain, whether it succeeds or not. Nothing that was tried is forgotten when a choice goes on
to its next alternative. -/

structure Outcome (α : Type) where
  result : Option (α × List Char)
  attempts : Attempts

def Parser (α : Type) : Type :=
  List Char → Outcome α

namespace Parser

variable {α β : Type}

def succeed (a : α) : Parser α :=
  fun text => ⟨some (a, text), .nothing⟩

def andThen (first : Parser α) (next : α → Parser β) : Parser β := fun text =>
  match first text with
  | ⟨none, attempts⟩ => ⟨none, attempts⟩
  | ⟨some (a, rest), attempts⟩ =>
    let later := next a rest
    ⟨later.result, attempts.merge later.attempts⟩

def orElse (first second : Parser α) : Parser α := fun text =>
  match first text with
  | ⟨some found, attempts⟩ => ⟨some found, attempts⟩
  | ⟨none, attempts⟩ =>
    let other := second text
    ⟨other.result, attempts.merge other.attempts⟩

instance : Monad Parser where
  pure := succeed
  bind := andThen

instance : OrElse (Parser α) where
  orElse first second := first.orElse (second ())

/-- Read with a function that finds something at the start of a text. It is not itself a production,
so its failure leaves no trace. -/
def lexeme (find? : List Char → Option (α × List Char)) : Parser α :=
  fun text => ⟨find? text, .nothing⟩

def literal (characters : List Char) : Parser Unit :=
  lexeme fun text => (characters.isPrefixOf? text).map ((), ·)

def blanks : Parser Unit :=
  fun text => ⟨some ((), Text.skipBlanks text), .nothing⟩

def remainder : Parser (List Char) :=
  fun text => ⟨some (text, text), .nothing⟩

def optional (parser : Parser α) : Parser (Option α) :=
  (do let a ← parser; pure (some a)) <|> pure none

/-- Read as often as a parser succeeds, but at most as often as the bound says. -/
def many (parser : Parser α) : Nat → Parser (List α)
  | 0 => pure []
  | bound + 1 =>
    (do
      let a ← parser
      let more ← many parser bound
      pure (a :: more)) <|>
    pure []

def named (production : Production) (parser : Parser α) : Parser α := fun text =>
  match parser text with
  | ⟨some found, attempts⟩ => ⟨some found, attempts⟩
  | ⟨none, attempts⟩ => ⟨none, attempts.within text.length production⟩

end Parser

end Formula.Grammar
