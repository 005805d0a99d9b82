import Formula.Evaluator

/-! A store of limited size that forgets what has not been used for the longest time. -/

namespace Formula

/-- A store of at most `capacity` values under texts. The entry that was used last comes first, and
a store without capacity holds nothing. -/
structure LruCache (α : Type) where
  capacity : Nat
  entries : List (String × α)

namespace LruCache

variable {α : Type}

def empty (capacity : Nat) : LruCache α :=
  ⟨capacity, []⟩

def find? (cache : LruCache α) (key : String) : Option α :=
  cache.entries.lookup key

/-- Use an entry, or put a new one in. If there is no room for it, the entry whose last use is the
longest ago has to go. -/
def insert (cache : LruCache α) (key : String) (value : α) : LruCache α :=
  let others := cache.entries.filter fun entry => entry.1 != key
  { cache with entries := ((key, value) :: others).take cache.capacity }

def clear (cache : LruCache α) : LruCache α :=
  empty cache.capacity

end LruCache

/-! Sessions, which understand one text after another. The state changes by assignments only, and
the cache does not change an answer. -/

/-- The state between two texts: the symbols that assignments add to, and the evaluators of recent
expressions. -/
structure Session where
  symbols : SymbolTable
  cache : LruCache Evaluator

namespace Session

def new (symbols : SymbolTable) (capacity : Nat) : Session :=
  ⟨symbols, .empty capacity⟩

/-- The meanings of names in a session, from its own symbols and what is always known. -/
def scope (session : Session) : Scope :=
  session.symbols.scope.within SymbolTable.builtins.scope

/-- Give a variable a value. The evaluators that were kept may have an earlier value of it worked
into them, so they are forgotten. -/
def setVariable (session : Session) (name : String) (value : Float) : Session :=
  { symbols := session.symbols.withVariable name value
    cache := session.cache.clear }

def evaluator (session : Session) (expr : Expr) : Evaluator :=
  ⟨expr.resolve session.scope, session.symbols⟩

/-- Evaluate the right side of an assignment in a session, and give the variable its value, which is
a NaN if it has none. The evaluator of an assignment gives the new value. -/
def assign (session : Session) (name : String) (expr : Expr) : Session × Report Evaluator :=
  let outcome := (session.evaluator expr).value
  let failure := match outcome with
    | .ok _ => []
    | .error error => [Event.assignedUnknown name error]
  let assigned := session.setVariable name (orNaN outcome)
  (assigned, ⟨⟨.var name, assigned.symbols⟩, failure ++ [.assigning name (orNaN outcome)]⟩)

/-- Understand a text, from the cache if the same text was understood before. An assignment changes
the symbols at once and is not kept, and a rejected text changes nothing. -/
def parse (session : Session) (text : String) :
    Session × Report (Except Diagnostic Evaluator) :=
  match session.cache.find? text with
  | some kept =>
    ({ session with cache := session.cache.insert text kept },
      ⟨.ok kept, [.parsing text, .cacheHit text]⟩)
  | none =>
    match Grammar.read text with
    | .error diagnostic => (session, ⟨.error diagnostic, [.parsing text]⟩)
    | .ok (.expression body) =>
      let made := session.evaluator body.expr
      ({ session with cache := session.cache.insert text made },
        ⟨.ok made,
          .parsing text :: body.groupings.map .grouped ++ [.parsed text made.term]⟩)
    | .ok (.assignment name body) =>
      let (assigned, report) := session.assign name body.expr
      (assigned,
        ⟨.ok report.answer,
          .parsing text :: body.groupings.map .grouped ++ report.events ++
            [.parsed text report.answer.term]⟩)

/-- Understand a text, where the reason for a rejection is only an event. -/
def parse? (session : Session) (text : String) : Session × Report (Option Evaluator) :=
  let (next, report) := session.parse text
  match report.answer with
  | .ok made => (next, ⟨some made, report.events⟩)
  | .error diagnostic => (next, ⟨none, report.events ++ [.rejected text diagnostic]⟩)

def isCached (session : Session) (text : String) : Bool :=
  (session.cache.find? text).isSome

def value? (session : Session) (name : String) : Option Float :=
  session.scope.value? name

/-- The description of a session. Of the cache it shows only the capacity. -/
def describe (session : Session) : String :=
  "MathParser \x7b symbols: " ++ session.symbols.describe ++ ", cache_capacity: " ++
    toString session.cache.capacity ++ " \x7d"

end Session

/-! The value of a single text. -/

inductive Error where
  | malformed (diagnostic : Diagnostic)
  | unevaluated (error : LookupError)

namespace Error

def message : Error → String
  | malformed diagnostic => diagnostic.message
  | unevaluated error => error.message

end Error

/-- The value of a text by itself, where the variables that it leaves open have the given values. -/
def evaluate (text : String) (bindings : List (String × Float)) : Except Error Float :=
  match ((Session.new .empty 0).parse text).2.answer with
  | .error diagnostic => .error (.malformed diagnostic)
  | .ok evaluator =>
    match evaluator.valueWith (.ofVariables bindings) with
    | .error error => .error (.unevaluated error)
    | .ok value => .ok value

end Formula
