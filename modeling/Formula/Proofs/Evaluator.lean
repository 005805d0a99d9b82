import Formula.Proofs.Session.Dependence

/-! The values of an evaluator as values in one table. Whatever is given for one evaluation overrides the
evaluator's own symbols, and those override what is always known, as if all of it had been merged. -/

namespace Formula.Evaluator

variable (evaluator : Evaluator)

/-! ### The layers of the three ways to ask for a value -/

/-- Without further symbols, an evaluation goes by the evaluator's own and by what is always known. -/
theorem value_eq_eval_layers : evaluator.value =
    evaluator.term.eval (⟨none, none, evaluator.symbols, .builtins⟩ : Layers).scope := by
  rw [Layers.scope_own, SymbolTable.scope_extend]
  rfl

theorem valueWith_eq_eval_layers (given : SymbolTable) : evaluator.valueWith given =
    evaluator.term.eval (⟨none, some given, evaluator.symbols, .builtins⟩ : Layers).scope := by
  rw [Layers.scope_given, Layers.scope_own, SymbolTable.scope_extend]
  rfl

theorem valueAt_eq_eval_layers (name : String) (value : Float) : evaluator.valueAt name value =
    evaluator.term.eval (⟨some (name, value), none, evaluator.symbols, .builtins⟩ : Layers).scope := by
  rw [Layers.scope_binding, Layers.scope_own, SymbolTable.scope_extend]
  rfl

/-! ### One way in terms of another -/

/-- To bind one variable is to give a table with this variable in it. -/
theorem valueAt_eq_valueWith (name : String) (value : Float) :
    evaluator.valueAt name value = evaluator.valueWith (.ofVariables [(name, value)]) := by
  rw [valueAt_eq_eval_layers, valueWith_eq_eval_layers, Layers.scope_binding_eq_given]

/-- An empty table makes no difference. -/
theorem value_eq_valueWith_empty : evaluator.value = evaluator.valueWith .empty := by
  rw [value, valueWith, SymbolTable.scope_empty, Scope.empty_within]

theorem answer_batch (name : String) (values : List Float) :
    (evaluator.batch name values).answer =
      values.map fun value => orNaN (evaluator.valueWith (.ofVariables [(name, value)])) := by
  have hEach (value : Float) : (estimate (evaluator.valueAt name value)).answer =
      orNaN (evaluator.valueWith (.ofVariables [(name, value)])) := by
    rw [valueAt_eq_valueWith]
    rfl
  rw [batch, List.map_map]
  exact List.map_congr_left fun value _ => hEach value

end Formula.Evaluator

/-! What a caller can change about a value. The symbols that are given for an evaluation count only by
the names that the evaluator leaves open, each in its own kind. What was known when the evaluator was
made cannot be overridden. -/

namespace Formula

open Grammar

/-- What a name of one of the three kinds can stand for. -/
inductive Meaning where
  | value (number : Float)
  | unary (function : UnaryFunction)
  | binary (function : BinaryFunction)

def Meaning.kind : Meaning → NameKind
  | value _ => .value
  | unary _ => .unary
  | binary _ => .binary

namespace SymbolTable

def define (table : SymbolTable) (name : String) : Meaning → SymbolTable
  | .value number => table.withVariable name number
  | .unary function => table.withUnary name function
  | .binary function => table.withBinary name function

/-- A definition changes no other name, and nothing of another kind. -/
theorem agreesAt_define {meaning : Meaning} {kind : NameKind} {name key : String}
    (h : ¬ (kind = meaning.kind ∧ key = name)) (table : SymbolTable) :
    (table.define name meaning).scope.AgreesAt table.scope kind key := by
  have hKey (hKind : kind = meaning.kind) : key ≠ name := fun hName => h ⟨hKind, hName⟩
  cases meaning with
  | value number =>
      cases kind with
      | value => exact getElem?_insert_of_ne (hKey rfl) table.values number
      | unary => rfl
      | binary => rfl
  | unary function =>
      cases kind with
      | value => rfl
      | unary => exact getElem?_insert_of_ne (hKey rfl) table.unaryFunctions function
      | binary => rfl
  | binary function =>
      cases kind with
      | value => rfl
      | unary => rfl
      | binary => exact getElem?_insert_of_ne (hKey rfl) table.binaryFunctions function

end SymbolTable

/-- What a session knows does not stay open in the expressions that it understands. -/
theorem Session.Coherent.not_mem_unresolved {session : Session} (h : session.Coherent)
    {text : String} (hText : IsExpression text) {made : Evaluator}
    (hMade : (session.parse text).2.answer = .ok made) {kind : NameKind} {name : String}
    (hKnows : session.scope.Knows kind name) : name ∉ made.term.unresolved.names kind := by
  obtain ⟨body, hBody⟩ := isExpression_iff.mp hText
  obtain rfl := Except.ok.inj (hMade.symm.trans (h.parse_of_body hBody))
  intro hName
  have hReduced := Term.reduced_resolve session.scope (body.interpret .written)
  exact hReduced.not_knows (Term.mem_unresolved.mp hName) hKnows

namespace Evaluator

variable {evaluator : Evaluator} {given other : SymbolTable} {name : String}

/-- Of the symbols that are given, only those matter that the evaluator leaves open. -/
theorem valueWith_congr (h : ∀ kind, ∀ name ∈ evaluator.term.unresolved.names kind,
    given.scope.AgreesAt other.scope kind name) :
    evaluator.valueWith given = evaluator.valueWith other := by
  apply Term.eval_congr
  intro kind name hNeeds
  exact (h kind name (Term.mem_unresolved.mpr hNeeds)).within evaluator.scope

/-- A name that is not left open can be given any meaning. -/
theorem valueWith_define {meaning : Meaning}
    (h : name ∉ evaluator.term.unresolved.names meaning.kind) (given : SymbolTable) :
    evaluator.valueWith (given.define name meaning) = evaluator.valueWith given := by
  apply valueWith_congr
  intro kind key hKey
  apply SymbolTable.agreesAt_define
  rintro ⟨rfl, rfl⟩
  exact h hKey

theorem valueAt_eq_value {value : Float} (h : name ∉ evaluator.term.unresolved.variableNames) :
    evaluator.valueAt name value = evaluator.value := by
  rw [valueAt_eq_valueWith, value_eq_valueWith_empty]
  exact valueWith_define (show name ∉ evaluator.term.unresolved.names (Meaning.value value).kind from h)
    .empty

/-- A caller has no influence on a value but by the names that are left open. Symbols that agree on
these give the same value, or the same failure. So nothing changes if any other name is given another
meaning or bound to a number, and among the others is each name that the session knew, in its kind, when
it understood the expression. -/
theorem value_determined_by_unresolved (evaluator : Evaluator) :
    (∀ given other : SymbolTable,
      (∀ kind, ∀ name ∈ evaluator.term.unresolved.names kind,
        given.scope.AgreesAt other.scope kind name) →
      evaluator.valueWith given = evaluator.valueWith other) ∧
    (∀ (given : SymbolTable) (name : String) (meaning : Meaning),
      name ∉ evaluator.term.unresolved.names meaning.kind →
      evaluator.valueWith (given.define name meaning) = evaluator.valueWith given) ∧
    (∀ (name : String) (value : Float), name ∉ evaluator.term.unresolved.variableNames →
      evaluator.valueAt name value = evaluator.value) ∧
    ∀ (table : SymbolTable) (capacity : Nat) (calls : List Session.Call) (text : String),
      let session := (Session.new table capacity).after calls
      IsExpression text → (session.parse text).2.answer = .ok evaluator →
      ∀ (given : SymbolTable) (name : String) (meaning : Meaning),
        session.scope.Knows meaning.kind name →
        evaluator.valueWith (given.define name meaning) = evaluator.valueWith given := by
  refine ⟨fun _ _ => valueWith_congr, fun given _ _ h => valueWith_define h given,
    fun _ _ => valueAt_eq_value, ?_⟩
  intro table capacity calls text session hText hMade given name meaning hKnows
  have hCoherent : session.Coherent := Session.coherent_after table capacity calls
  exact valueWith_define (hCoherent.not_mem_unresolved hText hMade hKnows) given

/-- One name can be open as a variable and as a function of one number, and not as a function of two. A
variable that a session knew is not open in what it made of a text. -/
theorem value_determined_by_unresolved_kinds :
    let mixed : Evaluator := ⟨.binaryCall (some fun x _ => x) "f" (.var "f")
      (.unaryCall none "f" (.constant 1.0)), .empty⟩
    let session := (Session.new .empty 1).after [.setVariable "x" 2.0]
    ("f" ∉ mixed.term.unresolved.binaryNames ∧ ∀ (given : SymbolTable) (function : BinaryFunction),
      mixed.valueWith (given.define "f" (.binary function)) = mixed.valueWith given) ∧
    IsExpression "x + y" ∧ session.scope.Knows .value "x" ∧
      ∃ made, (session.parse "x + y").2.answer = .ok made ∧
        ∀ (given : SymbolTable) (number : Float),
          made.valueWith (given.define "x" (.value number)) = made.valueWith given := by
  intro mixed session
  have hClosed : "f" ∉ mixed.term.unresolved.names .binary := by
    rw [Term.mem_unresolved]
    simp [mixed, Term.Needs]
  have hText : IsExpression "x + y" := by decide +kernel
  have hKnows : session.scope.Knows .value "x" := by
    simp [Scope.Knows, session, Session.after, Session.perform, Session.scope_setVariable, Scope.binding]
  have hCoherent : session.Coherent := Session.coherent_after .empty 1 [.setVariable "x" 2.0]
  obtain ⟨body, hBody⟩ := isExpression_iff.mp hText
  have hMade := hCoherent.parse_of_body hBody
  obtain ⟨_, hOverride, _⟩ := value_determined_by_unresolved mixed
  obtain ⟨_, _, _, hParsed⟩ := value_determined_by_unresolved
    ⟨Expr.resolve session.scope (body.interpret .written), session.symbols⟩
  refine ⟨⟨hClosed, fun given function => hOverride given "f" (.binary function) hClosed⟩, hText,
    hKnows, _, hMade, ?_⟩
  intro given number
  exact hParsed .empty 1 [.setVariable "x" 2.0] "x + y" hText hMade given "x" (.value number) hKnows

end Evaluator

end Formula
