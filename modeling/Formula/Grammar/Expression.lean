import Formula.Grammar.Parser
import Formula.Term.Basic

/-! The parts of a text that are read character by character: names, numbers and operators. Each
function finds the longest such part at the start of a text and gives the text after it. -/

namespace Formula.Grammar.Lexeme

/-- The characters of operators, parentheses and other punctuation. They end a name. -/
def punctuation : List Char :=
  ['+', '-', '*', '×', '/', '÷', '^', '(', ')', ',', '=', '>', '<', '&', '|', '!']

def continuesName (c : Char) : Bool :=
  !punctuation.contains c && !Text.isBlank c

/-- Whether a name may begin with a character. Number characters of any script cannot begin one. -/
def startsName (c : Char) : Bool :=
  continuesName c && !Text.isNumeric c

def identifier? : List Char → Option (String × List Char)
  | [] => none
  | c :: rest =>
    if startsName c then
      some (String.ofList (c :: rest.takeWhile continuesName), rest.dropWhile continuesName)
    else none

def number? (text : List Char) : Option (Float × List Char) :=
  let (whole, afterWhole) := Number.splitDigits text
  let (fraction, afterFraction) := Number.splitFraction afterWhole
  let (exponent, rest) := Number.splitExponent afterFraction
  if whole.isEmpty then none
  else some ((Number.Decimal.ofParts whole fraction exponent).toFloat, rest)

/-- The operator of a layer at the start of a text, by the first spelling that fits. -/
def operator? (layer : Layer) (text : List Char) : Option (Operator × List Char) :=
  Operator.spellings.findSome? fun (spelling, operator) =>
    if operator.layer = layer then (spelling.toList.isPrefixOf? text).map (operator, ·) else none

end Formula.Grammar.Lexeme

/-! What the grammar makes of a text, with a record of the chains of operators in it. -/

namespace Formula.Grammar

/-- A chain of operators that was grouped, with the text that it was read from. -/
structure Grouping where
  associativity : Associativity
  source : String
  deriving DecidableEq, Repr

/-- An expression that was read, with its chains of operators. A chain comes after the chains
within its operands. -/
structure Reading where
  expr : Expr
  groupings : List Grouping
  deriving Inhabited

namespace Reading

def plain (expr : Expr) : Reading :=
  ⟨expr, []⟩

def map (build : Expr → Expr) (reading : Reading) : Reading :=
  ⟨build reading.expr, reading.groupings⟩

def call (name : String) (first : Reading) : Option Reading → Reading
  | none => ⟨.unary name first.expr, first.groupings⟩
  | some second => ⟨.binary name first.expr second.expr, first.groupings ++ second.groupings⟩

def conditional (condition whenTrue otherwise : Reading) : Reading :=
  ⟨.conditional condition.expr whenTrue.expr otherwise.expr,
    condition.groupings ++ whenTrue.groupings ++ otherwise.groupings⟩

/-- A chain of operands of one layer, read from the given text. A single operand is no chain. -/
def chain (layer : Layer) (first : Reading) (rest : List (Operator × Reading))
    (source : Unit → List Char) : Reading :=
  if rest.isEmpty then first
  else
    { expr := layer.associativity.fold Expr.operation first.expr
        (rest.map fun (operator, operand) => (operator, operand.expr))
      groupings := first.groupings ++ rest.flatMap (fun (_, operand) => operand.groupings) ++
        [⟨layer.associativity, String.ofList (source ())⟩] }

end Reading

/-! The grammar of expressions. White space may stand around infix operators, commas and the equals
sign and inside parentheses, but not between a minus sign, a name or an operand and what belongs to
it: the operand that is negated, the arguments of a call, or the exclamation mark.

What stands in parentheses is read by the parser `nested`, which every production takes, so that no
production refers back to itself. -/

open Formula.Grammar.Parser

def identifier : Parser String :=
  named .identifier (lexeme Lexeme.identifier?)

def closingParenthesis : Parser Unit :=
  named .closingParenthesis (literal [')'])

def endOfInput : Parser Unit :=
  named .endOfInput (lexeme fun text => if text.isEmpty then some ((), text) else none)

def number : Parser Reading :=
  named .number do
    let value ← lexeme Lexeme.number?
    pure (.plain (.number value))

def reference : Parser Reading :=
  named .var do
    let name ← identifier
    pure (.plain (.var name))

def parenthetical (nested : Parser Reading) : Parser Reading :=
  named .parenthetical do
    literal ['(']
    blanks
    let inner ← nested
    blanks
    closingParenthesis
    pure inner

def nextArgument (nested : Parser Reading) : Parser Reading := do
  literal [',']
  blanks
  nested

def callArguments (nested : Parser Reading) : Parser (Reading × Option Reading) :=
  named .callArguments do
    literal ['(']
    blanks
    let first ← nested
    blanks
    let second ← optional (nextArgument nested)
    blanks
    closingParenthesis
    pure (first, second)

/-- A call. Its name touches the parenthesis. -/
def call (nested : Parser Reading) : Parser Reading :=
  named .call do
    let name ← identifier
    let (first, second) ← callArguments nested
    pure (.call name first second)

def conditionalArguments (nested : Parser Reading) : Parser (Reading × Reading × Reading) :=
  named .conditionalArguments do
    literal ['(']
    blanks
    let condition ← nested
    blanks
    let whenTrue ← nextArgument nested
    blanks
    let otherwise ← nextArgument nested
    blanks
    closingParenthesis
    pure (condition, whenTrue, otherwise)

/-- A conditional. Its `if` touches the parenthesis. -/
def conditional (nested : Parser Reading) : Parser Reading :=
  named .conditional do
    literal ['i', 'f']
    let (condition, whenTrue, otherwise) ← conditionalArguments nested
    pure (.conditional condition whenTrue otherwise)

/-- An operand without signs. A conditional is tried before a call, so that a call named `if` has
one or two arguments, and a call before a name by itself. -/
def primary (nested : Parser Reading) : Parser Reading :=
  named .primary
    (conditional nested <|> call nested <|> reference <|> parenthetical nested <|> number)

/-- An operand and perhaps an exclamation mark that touches it. -/
def factorialOperand (nested : Parser Reading) : Parser Reading :=
  named .factorialOperand do
    let operand ← primary nested
    let mark ← optional (named .factorial (literal ['!']))
    pure (if mark.isSome then operand.map .withFactorial else operand)

/-- An operand after a minus sign that touches it. -/
def negation (nested : Parser Reading) : Parser Reading :=
  named .negation do
    literal ['-']
    let operand ← factorialOperand nested
    pure (operand.map .negated)

/-- What operators stand between. -/
def operand (nested : Parser Reading) : Parser Reading :=
  named .operand (negation nested <|> factorialOperand nested)

def operator (layer : Layer) : Parser Operator :=
  named (.operator layer) (lexeme (Lexeme.operator? layer))

/-- An operator and the operand after it. White space before the operator belongs to them, so that
it is left alone where no operator follows. -/
def link (layer : Layer) (item : Parser Reading) : Parser (Operator × Reading) := do
  blanks
  let operator ← operator layer
  blanks
  let operand ← item
  pure (operator, operand)

/-- The most links that a chain can have. Comparisons do not chain. In all other layers there are
fewer links than characters. -/
def linkBound (layer : Layer) (text : List Char) : Nat :=
  if layer = .comparison then 1 else text.length

/-- A chain of one layer, whose operands are read by `item`. White space after the first operand is
skipped whether or not an operator follows. -/
def chain (layer : Layer) (item : Parser Reading) : Parser Reading :=
  named (.layer layer) do
    let text ← remainder
    let first ← item
    blanks
    let rest ← many (link layer item) (linkBound layer text)
    let after ← remainder
    pure (.chain layer first rest fun _ => text.take (text.length - after.length))

/-- An expression, as the chains of all layers within each other. -/
def subexpression (nested : Parser Reading) : Parser Reading :=
  Layer.all.foldr chain (operand nested)

/-- An expression whose parentheses are nested less deeply than the given depth. -/
def expressionWithin : Nat → Parser Reading
  | 0 => lexeme fun _ => none
  | depth + 1 => subexpression (expressionWithin depth)

/-- An expression. Every parenthesis takes a character, so that the length of the text bounds the
depth. -/
def expression : Parser Reading := fun text =>
  expressionWithin (text.length + 1) text

end Formula.Grammar
