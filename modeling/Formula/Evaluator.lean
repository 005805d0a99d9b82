import Formula.Grammar.Statement
import Formula.Term.Equality
import Formula.Term.Unresolved

/-! The events that can be observed, as data. Their wording is worked out only where it is asked
for. -/

namespace Formula

inductive Level where
  | debug
  | trace
  deriving DecidableEq, Repr

/-- What can be observed of the work of a session or an evaluator, apart from its answers. -/
inductive Event where
  | parsing (text : String)
  | cacheHit (text : String)
  | grouped (grouping : Grammar.Grouping)
  | assignedUnknown (name : String) (error : LookupError)
  | assigning (name : String) (value : Float)
  | parsed (text : String) (term : Term)
  | rejected (text : String) (diagnostic : Diagnostic)
  | unevaluated (error : LookupError)

namespace Event

def level : Event → Level
  | grouped _ | assignedUnknown _ _ | unevaluated _ => .trace
  | parsing _ | cacheHit _ | assigning _ _ | parsed _ _ | rejected _ _ => .debug

def message : Event → String
  | parsing text => "Parsing expression: " ++ text
  | cacheHit text => "Parse cache hit: " ++ text
  | grouped ⟨.left, source⟩ => "Left fold of '" ++ source ++ "'"
  | grouped ⟨.right, source⟩ => "Right fold of '" ++ source ++ "'"
  | assignedUnknown name error =>
    "Assignment to '" ++ name ++ "' did not evaluate: " ++ error.message
  | assigning name value => "Assigning " ++ name ++ " = " ++ Number.plainText value
  | parsed text term => "Parsed '" ++ text ++ "' into " ++ term.text
  | rejected text diagnostic => "Failed to parse '" ++ text ++ "': " ++ diagnostic.message
  | unevaluated error => "Evaluation failed: " ++ error.message

end Event

structure Report (α : Type) where
  answer : α
  events : List Event

/-! Evaluators, which are made from a text once and give values for any symbols afterwards. -/

/-- A term that can be evaluated any number of times, with the symbols that were known when it was
made. Later changes to the symbols of a session do not reach it. -/
structure Evaluator where
  term : Term
  symbols : SymbolTable

/-- The number that stands for the outcome of an evaluation: a failure counts as a NaN. -/
def orNaN : Except LookupError Float → Float
  | .ok value => value
  | .error _ => Number.nan

namespace Evaluator

def scope (evaluator : Evaluator) : Scope :=
  evaluator.symbols.scope.within SymbolTable.builtins.scope

def value (evaluator : Evaluator) : Except LookupError Float :=
  evaluator.term.eval evaluator.scope

def valueWith (evaluator : Evaluator) (symbols : SymbolTable) : Except LookupError Float :=
  evaluator.term.eval (symbols.scope.within evaluator.scope)

def valueAt (evaluator : Evaluator) (name : String) (value : Float) : Except LookupError Float :=
  evaluator.term.eval ((Scope.binding name value).within evaluator.scope)

def describe (evaluator : Evaluator) : String :=
  "Evaluator \x7b token: " ++ evaluator.term.describe ++ ", symbols: " ++
    evaluator.symbols.describe ++ " \x7d"

/-- Answer with a number in every case. The reason for a missing value is only an event. -/
def estimate (outcome : Except LookupError Float) : Report Float :=
  { answer := orNaN outcome
    events := match outcome with
      | .ok _ => []
      | .error error => [.unevaluated error] }

/-- The values with one variable bound to each of several numbers, in their order. Only a batch of
one is observed: the evaluations of a longer one have no order among themselves. -/
def batch (evaluator : Evaluator) (name : String) (values : List Float) : Report (List Float) :=
  let estimates := values.map fun value => estimate (evaluator.valueAt name value)
  { answer := estimates.map Report.answer
    events := match estimates with
      | [only] => only.events
      | _ => [] }

end Evaluator

end Formula
