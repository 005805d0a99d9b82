import Formula.Proofs.Evaluator

/-! The value of a single text under bindings. The bindings settle what an expression leaves open. An
assignment is settled before they are looked at, so that they count only for the variable that it is of. -/

namespace Formula

open Grammar

variable {text name before after right : String} {body : Reading} {value : Float}

namespace Evaluator

/-- A variable has the value that is given for it, else the one that it was assigned. -/
theorem valueWith_assigned (table given : SymbolTable) (name : String) (value : Float) :
    (⟨.var name, table.withVariable name value⟩ : Evaluator).valueWith given =
      .ok ((given.values[name]?).getD value) := by
  have hOwn : (table.withVariable name value).scope.value? name = some value := by
    simp [SymbolTable.scope, SymbolTable.withVariable]
  rw [valueWith, Term.eval_var_eq_ok, Scope.value?_within, scope, Scope.value?_within, hOwn]
  change (given.values[name]?).or _ = _
  cases given.values[name]? <;> rfl

/-- A value that is there without further symbols is not changed by any. -/
theorem valueWith_eq_ok_of_value {evaluator : Evaluator}
    (hReduced : evaluator.term.Reduced evaluator.scope) (hValue : evaluator.value = .ok value)
    (given : SymbolTable) : evaluator.valueWith given = .ok value := by
  obtain ⟨number, hNumber⟩ := hReduced.isConstant_of_eval hValue
  rw [Evaluator.value, hNumber] at hValue
  rw [valueWith, hNumber]
  exact hValue

end Evaluator

namespace Session

variable {session : Session}

theorem Coherent.parse_of_read (h : session.Coherent) (hRead : read text = .ok (.expression body)) :
    (session.parse text).2.answer = .ok (session.evaluator body.expr) := by
  have hFresh := h.parse_eq_fresh text
  simp only [fresh, outcome, hRead] at hFresh
  exact (Prod.mk.inj hFresh).2

/-- An assignment of an expression is understood as its variable, which has the value of the expression
by then, or a NaN if there is none. -/
theorem Coherent.parse_assignment_of_read (h : session.Coherent) (hName : IsIdentifier name)
    (hBefore : Blank before.toList) (hAfter : Blank after.toList)
    (hRead : read right = .ok (.expression body)) :
    (session.parse (name ++ before ++ "=" ++ after ++ right)).2.answer = .ok ⟨.var name,
      session.symbols.withVariable name (orNaN (session.evaluator body.expr).value)⟩ := by
  obtain ⟨name, hSpelled, rfl⟩ := hName.exists_name
  obtain ⟨sentence, hRight, hDescribes⟩ := exists_sentence_of_read hRead
  cases sentence with
  | assignment other derivation => exact absurd hDescribes id
  | expression derivation =>
      have hExpr : derivation.interpret .written = body.expr := hDescribes
      have hText : (name.text ++ before ++ "=" ++ after ++ right).toList =
          [] ++ (name.characters ++ (before.toList ++ '=' :: (after.toList ++ right.toList))) := by
        simp [hSpelled]
      have hYields : (Sentence.assignment name derivation).Yields
          (name.text ++ before ++ "=" ++ after ++ right).toList := by
        rw [hText, Sentence.yields_assignment_iff blank_nil hBefore,
          Derivation.Yields.blank_append_iff hAfter]
        exact ⟨rfl, Sentence.yields_expression_iff.mp hRight⟩
      -- What is folded while the text is read is what comes of the expression as it is written.
      rw [(h.parse_of_yields hYields).2, Sentence.term, Sentence.symbols,
        ← resolve_interpret_written, hExpr]
      rfl

end Session

/-! ### The sessions of single texts -/

/-- Of what is always known, the variables are the constants. -/
theorem SymbolTable.values_builtins : builtins.values =
    builtinConstants.foldl (fun values constant => values.insert constant.1 constant.2) ∅ :=
  rfl

/-- What an expression is understood as where nothing is known but what is always known. -/
def Expr.alone (expr : Expr) : Evaluator :=
  (Session.new .empty 0).evaluator expr

/-- Nothing is known by itself but what is always known, and no symbols are kept with it. -/
theorem Expr.alone_eq (expr : Expr) :
    expr.alone = ⟨expr.resolve SymbolTable.builtins.scope, .empty⟩ := by
  rw [alone, Session.evaluator, Session.scope, Session.new, SymbolTable.scope_empty,
    Scope.empty_within]

/-- The name of a constant is understood as its value. -/
theorem Expr.alone_var_of_known (h : SymbolTable.builtins.scope.value? name = some value) :
    (Expr.var name).alone = ⟨.constant value, .empty⟩ := by
  rw [alone_eq, resolve, h]

/-- A name that is not always known stays open. -/
theorem Expr.alone_var_of_unknown (h : SymbolTable.builtins.scope.value? name = none) :
    (Expr.var name).alone = ⟨.var name, .empty⟩ := by
  rw [alone_eq, resolve, h]

theorem Evaluator.value_var_of_unknown (h : SymbolTable.builtins.scope.value? name = none) :
    (⟨.var name, .empty⟩ : Evaluator).value = .error (.unknownVariable name) := by
  rw [value, scope, SymbolTable.scope_empty, Scope.empty_within, Term.eval, h]

theorem SymbolTable.builtins_value?_pi : builtins.scope.value? "pi" = some 3.141592653589793 := by
  simp [scope, values_builtins, builtinConstants, Std.TreeMap.getElem?_insert]

theorem SymbolTable.builtins_value?_t : builtins.scope.value? "t" = none := by
  simp [scope, values_builtins, builtinConstants]

theorem coherent_new : (Session.new .empty 0).Coherent :=
  Session.coherent_of_entries_eq_nil rfl

/-- A text has the value that its evaluator has under the bindings, or fails as that does. -/
theorem evaluate_eq_of_parse {made : Evaluator}
    (h : ((Session.new .empty 0).parse text).2.answer = .ok made) (bindings : List (String × Float)) :
    evaluate text bindings = (made.valueWith (.ofVariables bindings)).mapError .unevaluated := by
  unfold evaluate
  rw [h]
  dsimp only
  cases made.valueWith (.ofVariables bindings) <;> rfl

/-- A text that is an expression has the value of the expression, or fails as its evaluation does. -/
theorem evaluate_expression_eq (hRead : read text = .ok (.expression body))
    (bindings : List (String × Float)) : evaluate text bindings =
      (body.expr.alone.valueWith (.ofVariables bindings)).mapError .unevaluated :=
  evaluate_eq_of_parse (coherent_new.parse_of_read hRead) bindings

theorem evaluate_expression_eq_ok_iff (hRead : read text = .ok (.expression body))
    (bindings : List (String × Float)) : evaluate text bindings = .ok value ↔
      body.expr.alone.valueWith (.ofVariables bindings) = .ok value := by
  rw [evaluate_expression_eq hRead]
  cases body.expr.alone.valueWith (.ofVariables bindings) <;> simp [Except.mapError]

/-- The bindings come first, and then the value that the right side had when the text was read. -/
theorem evaluate_assignment_eq (hName : IsIdentifier name) (hBefore : Blank before.toList)
    (hAfter : Blank after.toList) (hRead : read right = .ok (.expression body))
    (bindings : List (String × Float)) :
    evaluate (name ++ before ++ "=" ++ after ++ right) bindings =
      .ok (((SymbolTable.ofVariables bindings).values[name]?).getD (orNaN body.expr.alone.value)) := by
  have hParse := coherent_new.parse_assignment_of_read hName hBefore hAfter hRead
  have hValue := Evaluator.valueWith_assigned .empty (.ofVariables bindings) name
    (orNaN body.expr.alone.value)
  rw [evaluate_eq_of_parse hParse]
  exact congrArg (Except.mapError Error.unevaluated) hValue

/-- An assignment always has a value. It is the one that the bindings have for the variable, if they have
one. Else it is the value that the right side has by itself, which is then its value under the bindings
as well, and a NaN if the right side has none by itself, whatever the bindings say about the names in
it. -/
theorem evaluate_assignment (bindings : List (String × Float)) (hName : IsIdentifier name)
    (hBefore : Blank before.toList) (hAfter : Blank after.toList) (hRight : IsExpression right) :
    let text := name ++ before ++ "=" ++ after ++ right
    let bound := (SymbolTable.ofVariables bindings).values[name]?
    (∀ value, bound = some value → evaluate text bindings = .ok value) ∧
      (bound = none →
        (∀ value, evaluate right [] = .ok value →
          evaluate text bindings = .ok value ∧ evaluate right bindings = .ok value) ∧
        (∀ error, evaluate right [] = .error error →
          evaluate text bindings = .ok Number.nan)) := by
  intro text bound
  obtain ⟨body, hRead⟩ := hRight
  have hText : evaluate text bindings = .ok (bound.getD (orNaN body.expr.alone.value)) :=
    evaluate_assignment_eq hName hBefore hAfter hRead bindings
  have hAlone {value : Float} :
      evaluate right [] = .ok value ↔ body.expr.alone.value = .ok value := by
    rw [evaluate_expression_eq_ok_iff hRead, Evaluator.value_eq_valueWith_empty]
    rfl
  refine ⟨?_, fun hUnbound => ⟨?_, ?_⟩⟩
  · intro value hBound
    rw [hText, hBound]
    rfl
  · intro value hRight
    -- A right side that has a value by itself was reduced to a constant, which no binding changes.
    have hValue := hAlone.mp hRight
    have hReduced : body.expr.alone.term.Reduced body.expr.alone.scope := Term.reduced_resolve _ _
    rw [hText, hUnbound, hValue, evaluate_expression_eq_ok_iff hRead]
    exact ⟨rfl, Evaluator.valueWith_eq_ok_of_value hReduced hValue _⟩
  · intro error hRight
    rw [hText, hUnbound]
    cases hValue : body.expr.alone.value with
    | ok value =>
        rw [hAlone.mpr hValue] at hRight
        cases hRight
    | error missing => rfl

/-- With a value for `t` only: what is written to `t` is not seen, the constant `pi` is seen under another
name, and what is written to another name as `t` is a NaN. -/
theorem evaluate_assignment_bound_and_unbound :
    let bindings := [("t", (5.0 : Float))]
    (IsIdentifier "t" ∧ Blank " ".toList ∧ IsExpression "x" ∧
      (SymbolTable.ofVariables bindings).values["t"]? = some 5.0 ∧
      evaluate ("t" ++ " " ++ "=" ++ " " ++ "x") bindings = .ok 5.0) ∧
    (IsIdentifier "y" ∧ IsExpression "pi" ∧
      (SymbolTable.ofVariables bindings).values["y"]? = none ∧
      evaluate "pi" [] = .ok 3.141592653589793 ∧
      evaluate ("y" ++ " " ++ "=" ++ " " ++ "pi") bindings = .ok 3.141592653589793 ∧
      evaluate "pi" bindings = .ok 3.141592653589793) ∧
    (IsExpression "t" ∧ evaluate "t" [] = .error (.unevaluated (.unknownVariable "t")) ∧
      evaluate ("y" ++ " " ++ "=" ++ " " ++ "t") bindings = .ok Number.nan) := by
  intro bindings
  have hShadowing : IsIdentifier "t" := rfl
  have hOther : IsIdentifier "y" := rfl
  have hBlank : Blank " ".toList := by decide
  have hOpen : IsExpression "x" := ⟨_, rfl⟩
  have hReadPi : read "pi" = .ok (.expression ⟨.var "pi", []⟩) := rfl
  have hRead : read "t" = .ok (.expression ⟨.var "t", []⟩) := rfl
  have hBound : (SymbolTable.ofVariables bindings).values["t"]? = some 5.0 := by
    simp [bindings, SymbolTable.ofVariables, SymbolTable.withVariable]
  have hUnbound : (SymbolTable.ofVariables bindings).values["y"]? = none := by
    simp [bindings, SymbolTable.ofVariables, SymbolTable.withVariable, SymbolTable.empty]
  have hPi : evaluate "pi" [] = .ok 3.141592653589793 := by
    rw [evaluate_expression_eq_ok_iff hReadPi, Expr.alone_var_of_known SymbolTable.builtins_value?_pi]
    rfl
  have hMissing : evaluate "t" [] = .error (.unevaluated (.unknownVariable "t")) := by
    have hValue := Evaluator.value_var_of_unknown SymbolTable.builtins_value?_t
    rw [Evaluator.value_eq_valueWith_empty] at hValue
    rw [evaluate_expression_eq hRead, Expr.alone_var_of_unknown SymbolTable.builtins_value?_t]
    exact congrArg (Except.mapError Error.unevaluated) hValue
  obtain ⟨hShadowed, -⟩ := evaluate_assignment bindings hShadowing hBlank hBlank hOpen
  obtain ⟨-, hSeen⟩ := evaluate_assignment bindings hOther hBlank hBlank ⟨_, hReadPi⟩
  obtain ⟨-, hLost⟩ := evaluate_assignment bindings hOther hBlank hBlank ⟨_, hRead⟩
  obtain ⟨hText, hRight⟩ := (hSeen hUnbound).1 _ hPi
  exact ⟨⟨hShadowing, hBlank, hOpen, hBound, hShadowed 5.0 hBound⟩,
    ⟨hOther, ⟨_, hReadPi⟩, hUnbound, hPi, hText, hRight⟩,
    ⟨_, hRead⟩, hMissing, (hLost hUnbound).2 _ hMissing⟩

/-- An assignment need not have the value of its right side. A binding of its own variable comes first,
and a binding of another one comes too late. -/
theorem evaluate_assignment_ne_evaluate_right :
    let bindings := [("t", (5.0 : Float))]
    (IsIdentifier "t" ∧ IsExpression "pi" ∧ evaluate "t = pi" bindings = .ok 5.0 ∧
        evaluate "pi" bindings = .ok 3.141592653589793 ∧
        evaluate "t = pi" bindings ≠ evaluate "pi" bindings) ∧
      IsIdentifier "y" ∧ IsExpression "t" ∧ evaluate "y = t" bindings = .ok Number.nan ∧
        evaluate "t" bindings = .ok 5.0 ∧ evaluate "y = t" bindings ≠ evaluate "t" bindings := by
  intro bindings
  have hBlank : Blank " ".toList := by decide
  have hTable : SymbolTable.ofVariables bindings = SymbolTable.empty.withVariable "t" 5.0 := rfl
  have hAlonePi : Expr.alone (.var "pi") = ⟨.constant 3.141592653589793, .empty⟩ :=
    Expr.alone_var_of_known SymbolTable.builtins_value?_pi
  have hAlone : Expr.alone (.var "t") = ⟨.var "t", .empty⟩ :=
    Expr.alone_var_of_unknown SymbolTable.builtins_value?_t
  have hReadPi : read "pi" = .ok (.expression ⟨.var "pi", []⟩) := rfl
  have hRead : read "t" = .ok (.expression ⟨.var "t", []⟩) := rfl
  have hShadowing : IsIdentifier "t" := rfl
  have hOther : IsIdentifier "y" := rfl
  have hShadowed : evaluate "t = pi" bindings = .ok 5.0 := by
    have hText : "t = pi" = "t" ++ " " ++ "=" ++ " " ++ "pi" := by decide
    rw [hText, evaluate_assignment_eq hShadowing hBlank hBlank hReadPi, hTable]
    simp [SymbolTable.withVariable]
  have hRightPi : evaluate "pi" bindings = .ok 3.141592653589793 := by
    rw [evaluate_expression_eq_ok_iff hReadPi, hAlonePi]
    rfl
  have hLate : evaluate "y = t" bindings = .ok Number.nan := by
    have hText : "y = t" = "y" ++ " " ++ "=" ++ " " ++ "t" := by decide
    have hValue := Evaluator.value_var_of_unknown SymbolTable.builtins_value?_t
    rw [hText, evaluate_assignment_eq hOther hBlank hBlank hRead, hTable, hAlone, hValue]
    simp [SymbolTable.withVariable, SymbolTable.empty, orNaN]
  have hRight : evaluate "t" bindings = .ok 5.0 := by
    rw [evaluate_expression_eq_ok_iff hRead, hAlone, hTable, Evaluator.valueWith, Term.eval_var_eq_ok]
    simp [SymbolTable.scope, SymbolTable.withVariable]
  refine ⟨⟨hShadowing, ⟨_, hReadPi⟩, hShadowed, hRightPi, ?_⟩, hOther, ⟨_, hRead⟩, hLate, hRight, ?_⟩
  · rw [hShadowed, hRightPi]
    exact fun h => absurd (Except.ok.inj h) (by decide)
  · rw [hLate, hRight]
    exact fun h => absurd (Except.ok.inj h) (by decide)

end Formula
