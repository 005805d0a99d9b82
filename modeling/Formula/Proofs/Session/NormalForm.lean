import Formula.Proofs.Session.Recognition

/-! The form of the terms that a session makes. In no part of such a term is anything left that could be
looked up or worked out, every operator still has its function, and what has none is a name of the
grammar. So there is nothing to do if the term is made once more from its leaves up. -/

namespace Formula

open Grammar

namespace Term

variable {scope : Scope} {term argument first second condition whenTrue otherwise : Term}

def subterms : Term → List Term
  | constant value => [constant value]
  | var name => [var name]
  | unaryCall function name argument => unaryCall function name argument :: argument.subterms
  | binaryCall function name first second =>
    binaryCall function name first second :: (first.subterms ++ second.subterms)
  | conditional condition whenTrue otherwise =>
    conditional condition whenTrue otherwise ::
      (condition.subterms ++ (whenTrue.subterms ++ otherwise.subterms))

/-- The function that a call of two arguments is made with: that of the operator with this symbol, or
else the one that the name has in a scope. -/
def binaryFunction? (scope : Scope) (name : String) : Option BinaryFunction :=
  ((Operator.ofSpelling? name).map Operator.apply).or (scope.binary? name)

/-- The root of a term is done with. A variable has no value in the scope. A call without a function has
a name of the grammar that stands for none there, and a call with a function has an argument that is
not constant. The names that are not of the grammar are those of the exclamation mark and of the
operators. The condition of a conditional is not constant. -/
def Settled (scope : Scope) : Term → Prop
  | constant _ => True
  | var name => IsIdentifier name ∧ scope.value? name = none
  | unaryCall none name _ => IsIdentifier name ∧ scope.unary? name = none
  | unaryCall (some function) name argument =>
    (IsIdentifier name ∨ name = "!") ∧ scope.unary? name = some function ∧ ¬ argument.IsConstant
  | binaryCall none name _ _ => IsIdentifier name ∧ scope.binary? name = none
  | binaryCall (some function) name first second =>
    (IsIdentifier name ∨ ∃ operator : Operator, name = operator.symbol) ∧
      binaryFunction? scope name = some function ∧ ¬ (first.IsConstant ∧ second.IsConstant)
  | conditional condition _ _ => ¬ condition.IsConstant

/-- Make a term once more from its leaves up, with the reducing constructors and with the meanings that
names have in a scope. -/
def rebuild (scope : Scope) : Term → Term
  | constant value => constant value
  | var name =>
    match scope.value? name with
    | some value => constant value
    | none => var name
  | unaryCall _ name argument => reduceUnary (scope.unary? name) name (argument.rebuild scope)
  | binaryCall _ name first second =>
    reduceBinary (binaryFunction? scope name) name (first.rebuild scope) (second.rebuild scope)
  | conditional condition whenTrue otherwise =>
    reduceConditional (condition.rebuild scope) (whenTrue.rebuild scope) (otherwise.rebuild scope)

def Normal (scope : Scope) (term : Term) : Prop :=
  ∀ part ∈ term.subterms, part.Settled scope

theorem normal_constant (scope : Scope) (value : Float) : (constant value).Normal scope := by
  simp [Normal, subterms, Settled]

/-- A name is left in a term only if it has no value. -/
theorem normal_var_iff {name : String} :
    (var name).Normal scope ↔ IsIdentifier name ∧ scope.value? name = none := by
  simp [Normal, subterms, Settled]

/-- A call is in normal form if it is settled itself and its argument is in normal form. -/
theorem normal_unaryCall_iff {function : Option UnaryFunction} {name : String} :
    (unaryCall function name argument).Normal scope ↔
      (unaryCall function name argument).Settled scope ∧ argument.Normal scope := by
  simp [Normal, subterms]

theorem normal_binaryCall_iff {function : Option BinaryFunction} {name : String} :
    (binaryCall function name first second).Normal scope ↔
      (binaryCall function name first second).Settled scope ∧
        first.Normal scope ∧ second.Normal scope := by
  simp [Normal, subterms, or_imp, forall_and]

/-- A conditional is left in a term only if its condition is not known, and then both branches are. -/
theorem normal_conditional_iff :
    (conditional condition whenTrue otherwise).Normal scope ↔
      ¬ condition.IsConstant ∧
        condition.Normal scope ∧ whenTrue.Normal scope ∧ otherwise.Normal scope := by
  simp [Normal, subterms, Settled, or_imp, forall_and]

/-! ### Names -/

theorem isIdentifier_text (name : Name) : IsIdentifier name.text := by
  have hEnds : EndsName [] := by simp [EndsName]
  have hFound := identifier?_append name hEnds
  simp only [IsIdentifier, identifier, Parser.result_named, Parser.result_lexeme]
  simpa [Name.text] using hFound

/-- Nothing that is written with punctuation is a name. -/
theorem not_isIdentifier_spelling : ∀ entry ∈ Operator.spellings, ¬ IsIdentifier entry.1 := by
  decide

/-- The exclamation mark of a factorial cannot be the name of a call in a text. -/
theorem not_isIdentifier_mark : ¬ IsIdentifier "!" := by
  decide

theorem mem_spellings_symbol (operator : Operator) :
    (operator.symbol, operator) ∈ Operator.spellings := by
  cases operator <;> decide

/-- The symbols of operators cannot be names of calls in a text either. -/
theorem not_isIdentifier_symbol (operator : Operator) : ¬ IsIdentifier operator.symbol :=
  not_isIdentifier_spelling (operator.symbol, operator) (mem_spellings_symbol operator)

/-- A call with the symbol of an operator means the operator, whatever the scope says about the
symbol. -/
theorem binaryFunction?_symbol (scope : Scope) (operator : Operator) :
    binaryFunction? scope operator.symbol = some operator.apply := by
  cases operator <;> rfl

/-- A name does not hide an operator. -/
theorem binaryFunction?_of_isIdentifier {name : String} (h : IsIdentifier name) :
    binaryFunction? scope name = scope.binary? name := by
  have hNone : Operator.ofSpelling? name = none := by
    rw [Operator.ofSpelling?, List.lookup_eq_none_iff]
    intro entry hListed
    rw [bne_iff_ne]
    rintro rfl
    exact not_isIdentifier_spelling entry hListed h
  rw [binaryFunction?, hNone, Option.map_none, Option.none_or]

/-! ### The reducing constructors -/

/-- A call that is worked out is a constant, and any other is settled as it stands. -/
theorem Normal.reduceUnary {name : String} (hArgument : argument.Normal scope)
    (hName : IsIdentifier name ∨ name = "!" ∧ (scope.unary? name).isSome) :
    (reduceUnary (scope.unary? name) name argument).Normal scope := by
  cases hFunction : scope.unary? name with
  | none =>
      rw [hFunction] at hName
      have hIdentifier : IsIdentifier name := hName.resolve_right (by simp)
      exact normal_unaryCall_iff.mpr ⟨⟨hIdentifier, hFunction⟩, hArgument⟩
  | some function =>
      unfold Term.reduceUnary
      split
      · exact normal_constant scope _
      · next hOpen =>
          refine normal_unaryCall_iff.mpr ⟨⟨hName.imp_right And.left, hFunction, ?_⟩, hArgument⟩
          rintro ⟨x, rfl⟩
          exact hOpen function x rfl rfl

theorem Normal.reduceBinary {name : String} (hFirst : first.Normal scope)
    (hSecond : second.Normal scope)
    (hName : IsIdentifier name ∨ ∃ operator : Operator, name = operator.symbol) :
    (reduceBinary (binaryFunction? scope name) name first second).Normal scope := by
  cases hFunction : binaryFunction? scope name with
  | none =>
      have hIdentifier : IsIdentifier name := by
        rcases hName with hIdentifier | ⟨operator, rfl⟩
        · exact hIdentifier
        · simp [binaryFunction?_symbol] at hFunction
      rw [binaryFunction?_of_isIdentifier hIdentifier] at hFunction
      exact normal_binaryCall_iff.mpr ⟨⟨hIdentifier, hFunction⟩, hFirst, hSecond⟩
  | some function =>
      unfold Term.reduceBinary
      split
      · exact normal_constant scope _
      · next hOpen =>
          refine normal_binaryCall_iff.mpr ⟨⟨hName, hFunction, ?_⟩, hFirst, hSecond⟩
          rintro ⟨⟨x, rfl⟩, y, rfl⟩
          exact hOpen function x y rfl rfl rfl

/-- The branch that a known condition selects is in normal form already. -/
theorem Normal.reduceConditional (hCondition : condition.Normal scope)
    (hWhenTrue : whenTrue.Normal scope) (hOtherwise : otherwise.Normal scope) :
    (reduceConditional condition whenTrue otherwise).Normal scope := by
  unfold Term.reduceConditional
  split
  · split
    · exact hWhenTrue
    · exact hOtherwise
  · next hOpen =>
      refine normal_conditional_iff.mpr ⟨?_, hCondition, hWhenTrue, hOtherwise⟩
      rintro ⟨x, rfl⟩
      exact hOpen x rfl

/-- The constructors change nothing where all parts are done with. -/
theorem Normal.rebuild_eq (h : term.Normal scope) : term.rebuild scope = term := by
  induction term with
  | constant value => rfl
  | var name =>
      obtain ⟨-, hName⟩ := normal_var_iff.mp h
      simp [rebuild, hName]
  | unaryCall function name argument ih =>
      obtain ⟨hSettled, hArgument⟩ := normal_unaryCall_iff.mp h
      cases function with
      | none =>
          rw [rebuild, ih hArgument, hSettled.2, Term.reduceUnary]
          exact nofun
      | some function =>
          obtain ⟨-, hFunction, hOpen⟩ := hSettled
          rw [rebuild, ih hArgument, hFunction, Term.reduceUnary]
          rintro _ x - rfl
          exact hOpen (isConstant_constant x)
  | binaryCall function name first second ihFirst ihSecond =>
      obtain ⟨hSettled, hFirst, hSecond⟩ := normal_binaryCall_iff.mp h
      cases function with
      | none =>
          rw [rebuild, ihFirst hFirst, ihSecond hSecond,
            binaryFunction?_of_isIdentifier hSettled.1, hSettled.2, Term.reduceBinary]
          exact nofun
      | some function =>
          obtain ⟨-, hFunction, hOpen⟩ := hSettled
          rw [rebuild, ihFirst hFirst, ihSecond hSecond, hFunction, Term.reduceBinary]
          rintro _ x y - rfl rfl
          exact hOpen ⟨isConstant_constant x, isConstant_constant y⟩
  | conditional condition whenTrue otherwise ihCondition ihWhenTrue ihOtherwise =>
      obtain ⟨hOpen, hCondition, hWhenTrue, hOtherwise⟩ := normal_conditional_iff.mp h
      rw [rebuild, ihCondition hCondition, ihWhenTrue hWhenTrue, ihOtherwise hOtherwise,
        Term.reduceConditional]
      rintro x rfl
      exact hOpen (isConstant_constant x)

/-! ### Derivations -/

/-- Whatever is worked out while a term is made, all of its parts are done with. -/
theorem preserves_normal (hMark : (scope.unary? "!").isSome) :
    (Interpretation.folded scope).Preserves (Normal scope) where
  number value := normal_constant scope value
  var name := by
    show Normal scope (match scope.value? name.text with
      | some value => .constant value
      | none => .var name.text)
    split
    · exact normal_constant scope _
    · next hName => exact normal_var_iff.mpr ⟨isIdentifier_text name, hName⟩
  unary name _ h := h.reduceUnary (Or.inl (isIdentifier_text name))
  factorial h := h.reduceUnary (Or.inr ⟨rfl, hMark⟩)
  binary name _ _ hFirst hSecond := by
    have hIdentifier := isIdentifier_text name
    have hNormal := hFirst.reduceBinary hSecond (Or.inl hIdentifier)
    rwa [binaryFunction?_of_isIdentifier hIdentifier] at hNormal
  conditional hCondition hWhenTrue hOtherwise := hCondition.reduceConditional hWhenTrue hOtherwise
  operation operator _ _ hLeft hRight := by
    have hNormal := hLeft.reduceBinary hRight (Or.inr ⟨operator, rfl⟩)
    rwa [binaryFunction?_symbol] at hNormal

end Term

namespace Session

/-- The exclamation mark has a function, whatever a session knows besides. -/
theorem isSome_unary?_mark (session : Session) : (session.scope.unary? "!").isSome := by
  have hBuiltin : SymbolTable.builtins.scope.unary? "!" = some Number.factorial := by
    have hFunctions : SymbolTable.builtins.unaryFunctions =
        SymbolTable.builtinUnary.foldl (fun functions entry => functions.insert entry.1 entry.2) ∅ :=
      rfl
    simp [SymbolTable.scope, hFunctions, SymbolTable.builtinUnary, Std.TreeMap.getElem?_insert]
  rw [Session.scope, Scope.within]
  simp [hBuiltin]

/-- At any time, the term that a session makes of an expression is done with in all of its parts under
the names that are known. What an operator, a minus sign or an exclamation mark has left in it has its
function, and making the term once more from its leaves up gives the same term. -/
theorem parse_isNormal (table : SymbolTable) (capacity : Nat) (calls : List Call) {text : String}
    (hText : IsExpression text) :
    let session := (new table capacity).after calls
    ∃ made, (session.parse text).2.answer = .ok made ∧
      (∀ part ∈ made.term.subterms, part.Settled session.scope) ∧
      (∀ (operator : Operator) (function : Option BinaryFunction) (left right : Term),
        .binaryCall function operator.symbol left right ∈ made.term.subterms →
          function = some operator.apply) ∧
      (∀ (function : Option UnaryFunction) (argument : Term),
        .unaryCall function "!" argument ∈ made.term.subterms →
          function = session.scope.unary? "!" ∧ function.isSome) ∧
      made.term.rebuild session.scope = made.term := by
  intro session
  obtain ⟨body, hBody⟩ := isExpression_iff.mp hText
  have hCoherent : session.Coherent := coherent_after table capacity calls
  have hNormal : Term.Normal session.scope (body.interpret (.folded session.scope)) :=
    (Term.preserves_normal session.isSome_unary?_mark).interpret body
  refine ⟨_, (hCoherent.parse_of_yields (.expression hBody)).2, hNormal, ?_, ?_, hNormal.rebuild_eq⟩
  · intro operator function left right hPart
    have hSettled := hNormal _ hPart
    cases function with
    | none => exact absurd hSettled.1 (Term.not_isIdentifier_symbol operator)
    | some function => rw [← hSettled.2.1, Term.binaryFunction?_symbol]
  · intro function argument hPart
    have hSettled := hNormal _ hPart
    cases function with
    | none => exact absurd hSettled.1 Term.not_isIdentifier_mark
    | some function => exact ⟨hSettled.2.1.symm, rfl⟩

/-- Neither the branches nor the condition of such a conditional can be worked out. -/
theorem parse_isNormal_conditional :
    let session := (new (.withVariable .empty "y" 2.0) 1).after [.parse "y = 3"]
    IsExpression "if(x, f(y)!, -z)" ∧ ∃ made, (session.parse "if(x, f(y)!, -z)").2.answer = .ok made ∧
      (∀ part ∈ made.term.subterms, part.Settled session.scope) ∧
      (∀ (operator : Operator) (function : Option BinaryFunction) (left right : Term),
        .binaryCall function operator.symbol left right ∈ made.term.subterms →
          function = some operator.apply) ∧
      (∀ (function : Option UnaryFunction) (argument : Term),
        .unaryCall function "!" argument ∈ made.term.subterms →
          function = session.scope.unary? "!" ∧ function.isSome) ∧
      made.term.rebuild session.scope = made.term := by
  have hText : IsExpression "if(x, f(y)!, -z)" := by decide +kernel
  exact ⟨hText, parse_isNormal (.withVariable .empty "y" 2.0) 1 [.parse "y = 3"] hText⟩

end Session

end Formula
