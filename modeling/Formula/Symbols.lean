import Std.Data.TreeMap
import Formula.Number.Text
import Formula.Text

/-! Tables of the names that a caller provides: variables, functions of one number and functions of
two numbers, which do not get in each other's way. -/

namespace Formula

abbrev UnaryFunction := Float → Float

abbrev BinaryFunction := Float → Float → Float

/-- What is known about names, which are kept in the order of their code points. -/
abbrev NameMap (α : Type) := Std.TreeMap String α

/-- The variables and functions that a caller or the library provides. One name may stand for a
variable, a function of one number and a function of two numbers at once. -/
structure SymbolTable where
  values : NameMap Float
  unaryFunctions : NameMap UnaryFunction
  binaryFunctions : NameMap BinaryFunction

namespace SymbolTable

def empty : SymbolTable :=
  ⟨∅, ∅, ∅⟩

instance : Inhabited SymbolTable :=
  ⟨empty⟩

def withVariable (table : SymbolTable) (name : String) (value : Float) : SymbolTable :=
  { table with values := table.values.insert name value }

def withUnary (table : SymbolTable) (name : String) (function : UnaryFunction) : SymbolTable :=
  { table with unaryFunctions := table.unaryFunctions.insert name function }

def withBinary (table : SymbolTable) (name : String) (function : BinaryFunction) : SymbolTable :=
  { table with binaryFunctions := table.binaryFunctions.insert name function }

/-- The table of the given variables. Of two values for one variable the later one counts. -/
def ofVariables (bindings : List (String × Float)) : SymbolTable :=
  bindings.foldl (fun table (name, value) => table.withVariable name value) empty

/-- All entries of both tables. Where both have an entry for a name, the second one's counts. -/
def extend (table other : SymbolTable) : SymbolTable where
  values := table.values ∪ other.values
  unaryFunctions := table.unaryFunctions ∪ other.unaryFunctions
  binaryFunctions := table.binaryFunctions ∪ other.binaryFunctions

def isEmpty (table : SymbolTable) : Bool :=
  table.values.isEmpty && table.unaryFunctions.isEmpty && table.binaryFunctions.isEmpty

def describe (table : SymbolTable) : String :=
  let entries := table.values.toList.map fun (name, value) =>
    Text.quoted name ++ ": " ++ Number.text value
  let names (functions : List String) : String :=
    "[" ++ ", ".intercalate (functions.map Text.quoted) ++ "]"
  "SymbolTable \x7b variables: \x7b" ++ ", ".intercalate entries ++
    "\x7d, unary_functions: " ++ names table.unaryFunctions.keys ++
    ", binary_functions: " ++ names table.binaryFunctions.keys ++ " \x7d"

end SymbolTable

end Formula

/-! The constants and functions that are known without being provided. -/

namespace Formula.SymbolTable

def builtinConstants : List (String × Float) :=
  [("pi", 3.141592653589793), ("π", 3.141592653589793), ("e", 2.718281828459045)]

/-- The functions of one number that are always known. The exclamation mark is written after its
argument. -/
def builtinUnary : List (String × UnaryFunction) :=
  [("sin", Float.sin), ("asin", Float.asin), ("cos", Float.cos), ("acos", Float.acos),
   ("tan", Float.tan), ("atan", Float.atan), ("log10", Float.log10), ("ln", Float.log),
   ("loge", Float.log), ("log2", Float.log2), ("exp", Float.exp), ("ceil", Float.ceil),
   ("floor", Float.floor), ("round", Float.round), ("sqrt", Float.sqrt), ("√", Float.sqrt),
   ("cbrt", Number.cubeRoot), ("abs", Float.abs), ("sgn", Number.sign), ("!", Number.factorial)]

def builtinBinary : List (String × BinaryFunction) :=
  [("atan2", Float.atan2), ("hypot", Number.hypotenuse), ("pow", Float.pow)]

def withBuiltins (table : SymbolTable) : SymbolTable :=
  let constants := builtinConstants.foldl (fun t (name, value) => t.withVariable name value) table
  let unary := builtinUnary.foldl (fun t (name, function) => t.withUnary name function) constants
  builtinBinary.foldl (fun t (name, function) => t.withBinary name function) unary

/-- The table that every other one is laid over. -/
def builtins : SymbolTable :=
  empty.withBuiltins

end Formula.SymbolTable

/-! The meanings of names where several tables are laid over each other. Nothing is copied: a name
is looked for in the narrowest scope first. -/

namespace Formula

/-- The meanings that names have at one place, for every kind of name by itself. -/
structure Scope where
  value? : String → Option Float
  unary? : String → Option UnaryFunction
  binary? : String → Option BinaryFunction

namespace Scope

def empty : Scope :=
  ⟨fun _ => none, fun _ => none, fun _ => none⟩

/-- The scope of a single variable. A function of the same name is not hidden by it. -/
def binding (name : String) (value : Float) : Scope :=
  { empty with value? := fun other => if other = name then some value else none }

/-- The names of a narrow scope, and around it those of a broad one. A meaning in the narrow scope
hides the meaning of the same kind in the broad one. -/
def within (narrow broad : Scope) : Scope where
  value? := fun name => (narrow.value? name).or (broad.value? name)
  unary? := fun name => (narrow.unary? name).or (broad.unary? name)
  binary? := fun name => (narrow.binary? name).or (broad.binary? name)

end Scope

def SymbolTable.scope (table : SymbolTable) : Scope where
  value? := fun name => table.values[name]?
  unary? := fun name => table.unaryFunctions[name]?
  binary? := fun name => table.binaryFunctions[name]?

end Formula
