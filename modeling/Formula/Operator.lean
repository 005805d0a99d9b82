import Formula.Number.Binary

/-! Chains of operators, grouped from the left or from the right. -/

namespace Formula

inductive Associativity where
  /-- The grouping `((a + b) + c) + d`. -/
  | left
  /-- The grouping `a ^ (b ^ (c ^ d))`. -/
  | right
  deriving DecidableEq, Repr

namespace Associativity

variable {op α : Type}

def foldLeft (combine : op → α → α → α) (first : α) (rest : List (op × α)) : α :=
  rest.foldl (fun whole (operator, operand) => combine operator whole operand) first

/-- Put an operator and the operand after it on a stack. The operand on top waits for the operator
that follows it, and every one below is kept with the operator that follows it. -/
def push (stack : List (α × op) × α) (next : op × α) : List (α × op) × α :=
  ((stack.2, next.1) :: stack.1, next.2)

/-- Combine a chain from its last operand back. The operands wait on a stack until the last one is
known. -/
def foldRight (combine : op → α → α → α) (first : α) (rest : List (op × α)) : α :=
  let (waiting, last) := rest.foldl push ([], first)
  waiting.foldl (fun whole (operand, operator) => combine operator operand whole) last

/-- Combine a chain of operands, each but the first with the operator before it. The chain may be
one of numbers, of expressions or of terms. -/
def fold (associativity : Associativity) (combine : op → α → α → α) (first : α)
    (rest : List (op × α)) : α :=
  match associativity with
  | left => foldLeft combine first rest
  | right => foldRight combine first rest

end Associativity

/-! The infix operators: their precedences, their spellings and their results. -/

inductive Layer where
  | disjunction
  | conjunction
  | comparison
  | additive
  | multiplicative
  | exponential
  deriving DecidableEq, Repr

namespace Layer

def all : List Layer :=
  [disjunction, conjunction, comparison, additive, multiplicative, exponential]

/-- Powers are grouped from the right and everything else from the left. -/
def associativity : Layer → Associativity
  | exponential => .right
  | _ => .left

end Layer

inductive Operator where
  | add
  | subtract
  | multiply
  | divide
  | power
  | greaterThan
  | lessThan
  | greaterThanOrEqual
  | lessThanOrEqual
  | equal
  | and
  | or
  deriving DecidableEq, Repr

namespace Operator

def layer : Operator → Layer
  | or => .disjunction
  | and => .conjunction
  | greaterThan | lessThan | greaterThanOrEqual | lessThanOrEqual | equal => .comparison
  | add | subtract => .additive
  | multiply | divide => .multiplicative
  | power => .exponential

def associativity (operator : Operator) : Associativity :=
  operator.layer.associativity

/-- The spelling under which an operator is shown, and which names the calls it makes. -/
def symbol : Operator → String
  | add => "+"
  | subtract => "-"
  | multiply => "*"
  | divide => "/"
  | power => "^"
  | greaterThan => ">"
  | lessThan => "<"
  | greaterThanOrEqual => ">="
  | lessThanOrEqual => "<="
  | equal => "=="
  | and => "&&"
  | or => "||"

/-- Every spelling of every operator. A spelling that another one begins with comes after it, so
that the first spelling found at the start of a text is the longest. -/
def spellings : List (String × Operator) :=
  [("||", or), ("&&", and), (">=", greaterThanOrEqual), ("<=", lessThanOrEqual), ("==", equal),
   (">", greaterThan), ("<", lessThan), ("+", add), ("-", subtract), ("*", multiply),
   ("×", multiply), ("/", divide), ("÷", divide), ("^", power)]

def ofSpelling? (spelling : String) : Option Operator :=
  spellings.lookup spelling

/-- The result of an operator on two numbers. Comparisons and logical operators give 1 or 0. -/
def apply (operator : Operator) (left right : Float) : Float :=
  match operator with
  | add => left + right
  | subtract => left - right
  | multiply => left * right
  | divide => left / right
  | power => Float.pow left right
  | greaterThan => Number.ofBool (left > right)
  | lessThan => Number.ofBool (left < right)
  | greaterThanOrEqual => Number.ofBool (left >= right)
  | lessThanOrEqual => Number.ofBool (left <= right)
  | equal => Number.ofBool (left == right)
  | and => Number.ofBool (Number.isTruthy left && Number.isTruthy right)
  | or => Number.ofBool (Number.isTruthy left || Number.isTruthy right)

end Operator

end Formula
