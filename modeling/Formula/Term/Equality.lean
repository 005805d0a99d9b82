import Formula.Term.Basic

/-! The two texts of a term: as nested calls, and with everything that can be seen of it. -/

namespace Formula.Term

/-- A term written as nested calls. Operators are written as calls of their symbols. -/
def written : Term → List Char
  | constant value => (Number.text value).toList
  | var name => name.toList
  | unaryCall _ name argument => name.toList ++ '(' :: argument.written ++ [')']
  | binaryCall _ name first second =>
    name.toList ++ '(' :: first.written ++ [',', ' '] ++ second.written ++ [')']
  | conditional condition whenTrue otherwise =>
    ['i', 'f', '('] ++ condition.written ++ [',', ' '] ++ whenTrue.written ++ [',', ' '] ++
      otherwise.written ++ [')']

/-- The text of a term. It does not show which calls have their function. -/
def text (term : Term) : String :=
  String.ofList term.written

def describe : Term → String
  | constant value => "Constant(" ++ Number.text value ++ ")"
  | var name => "Variable(" ++ Text.quoted name ++ ")"
  | unaryCall function name argument =>
    "UnaryCall \x7b resolved: " ++ toString function.isSome ++ ", name: " ++ Text.quoted name ++
      ", arg: " ++ argument.describe ++ " \x7d"
  | binaryCall function name first second =>
    "BinaryCall \x7b resolved: " ++ toString function.isSome ++ ", name: " ++ Text.quoted name ++
      ", arg1: " ++ first.describe ++ ", arg2: " ++ second.describe ++ " \x7d"
  | conditional condition whenTrue otherwise =>
    "Conditional \x7b condition: " ++ condition.describe ++ ", then: " ++ whenTrue.describe ++
      ", otherwise: " ++ otherwise.describe ++ " \x7d"

/-! Equality of terms as far as it can be decided. -/

/-- Whether two terms have the same shape, the same names and equal constants. Functions cannot be
compared, so calls agree if both or neither has its function. A constant that is not a number is
equal to none, and the two zeros are equal. -/
def same : Term → Term → Bool
  | constant x, constant y => x == y
  | var name, var name' => name == name'
  | unaryCall function name argument, unaryCall function' name' argument' =>
    function.isSome == function'.isSome && name == name' && argument.same argument'
  | binaryCall function name first second, binaryCall function' name' first' second' =>
    function.isSome == function'.isSome && name == name' && first.same first' && second.same second'
  | conditional condition whenTrue otherwise, conditional condition' whenTrue' otherwise' =>
    condition.same condition' && whenTrue.same whenTrue' && otherwise.same otherwise'
  | _, _ => false

instance : BEq Term :=
  ⟨same⟩

end Formula.Term
