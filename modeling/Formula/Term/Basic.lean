import Formula.Operator
import Formula.Symbols

/-! Terms, and the constructors that work out what is already known: they build no call of a known
function whose arguments are all constant, and no conditional whose condition is constant. -/

namespace Formula

/-- What is left of an expression once the names that were known have been replaced by their
meanings. A call without a function is one whose name had no meaning then; it is looked up again
at every evaluation. -/
inductive Term where
  | constant (value : Float)
  | var (name : String)
  | unaryCall (function : Option UnaryFunction) (name : String) (argument : Term)
  | binaryCall (function : Option BinaryFunction) (name : String) (first second : Term)
  | conditional (condition whenTrue otherwise : Term)
  deriving Inhabited

namespace Term

def reduceUnary (function : Option UnaryFunction) (name : String) (argument : Term) : Term :=
  match function, argument with
  | some f, constant x => constant (f x)
  | _, _ => unaryCall function name argument

def reduceBinary (function : Option BinaryFunction) (name : String) (first second : Term) : Term :=
  match function, first, second with
  | some f, constant x, constant y => constant (f x y)
  | _, _, _ => binaryCall function name first second

def reduceConditional (condition whenTrue otherwise : Term) : Term :=
  match condition with
  | constant x => if Number.isTruthy x then whenTrue else otherwise
  | _ => conditional condition whenTrue otherwise

def reduceOperation (operator : Operator) (left right : Term) : Term :=
  reduceBinary (some operator.apply) operator.symbol left right

end Term

/-! Expressions as they are written, and their resolution into terms by the names that are known. -/

/-- What a text says, before any name in it has a meaning. Operators keep their identity, and
grouping is the only trace that parentheses leave. -/
inductive Expr where
  | number (value : Float)
  | var (name : String)
  | unary (name : String) (argument : Expr)
  | binary (name : String) (first second : Expr)
  | conditional (condition whenTrue otherwise : Expr)
  | operation (operator : Operator) (left right : Expr)
  deriving Inhabited

namespace Expr

/-- A minus sign before an operand multiplies it by -1. -/
def negated (operand : Expr) : Expr :=
  operation .multiply (number (-1.0)) operand

def withFactorial (operand : Expr) : Expr :=
  unary "!" operand

/-- Replace every name by its meaning in a scope, and work out what has become constant. A name
that the scope does not know stays. -/
def resolve (scope : Scope) : Expr → Term
  | number value => .constant value
  | var name =>
    match scope.value? name with
    | some value => .constant value
    | none => .var name
  | unary name argument => .reduceUnary (scope.unary? name) name (argument.resolve scope)
  | binary name first second =>
    .reduceBinary (scope.binary? name) name (first.resolve scope) (second.resolve scope)
  | conditional condition whenTrue otherwise =>
    .reduceConditional (condition.resolve scope) (whenTrue.resolve scope) (otherwise.resolve scope)
  | operation operator left right =>
    .reduceOperation operator (left.resolve scope) (right.resolve scope)

end Expr

end Formula
