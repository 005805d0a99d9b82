import Std.Data.TreeSet
import Formula.Term.Basic

/-! The two ways in which an evaluation can fail. -/

namespace Formula

/-- Why an evaluation has no value: a name has no meaning of the kind that is asked for. -/
inductive LookupError where
  | unknownVariable (name : String)
  | unknownFunction (name : String)
  deriving DecidableEq, Repr

def LookupError.message : LookupError → String
  | unknownVariable name => "Variable '" ++ name ++ "' not found"
  | unknownFunction name => "Function '" ++ name ++ "' not found"

end Formula

/-! The evaluation of terms, in one pass from the leaves to the root. -/

namespace Formula.Term

/-- The value of a term, where a scope gives the meanings that are still missing. Arguments come
before the function that is called, from left to right, so that of several missing names the first
one in this order is reported. Only the branch that a condition selects is evaluated. -/
def eval (scope : Scope) : Term → Except LookupError Float
  | constant value => .ok value
  | var name =>
    match scope.value? name with
    | some value => .ok value
    | none => .error (.unknownVariable name)
  | unaryCall function name argument => do
    let x ← argument.eval scope
    match function.or (scope.unary? name) with
    | some f => .ok (f x)
    | none => .error (.unknownFunction name)
  | binaryCall function name first second => do
    let x ← first.eval scope
    let y ← second.eval scope
    match function.or (scope.binary? name) with
    | some f => .ok (f x y)
    | none => .error (.unknownFunction name)
  | conditional condition whenTrue otherwise => do
    let x ← condition.eval scope
    if Number.isTruthy x then whenTrue.eval scope else otherwise.eval scope

end Formula.Term

/-! The names that a term leaves open. -/

namespace Formula

abbrev NameSet := Std.TreeSet String

/-- The names in a term that still need a meaning, by kind. -/
structure Unresolved where
  variableNames : NameSet
  unaryNames : NameSet
  binaryNames : NameSet

namespace Unresolved

def empty : Unresolved :=
  ⟨∅, ∅, ∅⟩

/-- The number of names, where a name counts once for every kind that it is needed in. -/
def size (names : Unresolved) : Nat :=
  names.variableNames.size + names.unaryNames.size + names.binaryNames.size

def isEmpty (names : Unresolved) : Bool :=
  names.size == 0

instance : BEq Unresolved where
  beq names other :=
    names.variableNames.toList == other.variableNames.toList &&
      names.unaryNames.toList == other.unaryNames.toList &&
      names.binaryNames.toList == other.binaryNames.toList

/-- Add the names that a term needs. All branches of a conditional count. -/
def collect (names : Unresolved) : Term → Unresolved
  | .constant _ => names
  | .var name => { names with variableNames := names.variableNames.insert name }
  | .unaryCall function name argument =>
    let own := match function with
      | some _ => names
      | none => { names with unaryNames := names.unaryNames.insert name }
    own.collect argument
  | .binaryCall function name first second =>
    let own := match function with
      | some _ => names
      | none => { names with binaryNames := names.binaryNames.insert name }
    (own.collect first).collect second
  | .conditional condition whenTrue otherwise =>
    ((names.collect condition).collect whenTrue).collect otherwise

end Unresolved

def Term.unresolved (term : Term) : Unresolved :=
  Unresolved.empty.collect term

end Formula
