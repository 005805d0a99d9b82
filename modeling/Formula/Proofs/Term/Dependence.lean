import Formula.Proofs.Term.Evaluation

/-! What a value depends on. Only the names that occur in an expression count, each in its own kind,
and a scope that knows more settles more of an expression, but nothing differently. -/

namespace Formula

variable {scope other narrow wide : Scope} {kind : NameKind} {name : String}

/-! ### The names that count -/

namespace Term

variable {term : Term} {value : Float}

/-- The value of a term, or the failure to have one, depends only on the names that it needs. -/
theorem eval_congr (h : ∀ kind name, term.Needs kind name → scope.AgreesAt other kind name) :
    term.eval scope = term.eval other := by
  induction term with
  | constant value => rfl
  | var name =>
      have hName : scope.value? name = other.value? name := h .value name ⟨rfl, rfl⟩
      simp only [eval, hName]
  | unaryCall function name argument ih =>
      have hArgument := ih fun kind name hNeeds => h kind name (Or.inr hNeeds)
      have hFunction : function.or (scope.unary? name) = function.or (other.unary? name) := by
        cases function with
        | none => exact h .unary name (Or.inl ⟨rfl, rfl, rfl⟩)
        | some f => rfl
      simp only [eval, hArgument, hFunction]
  | binaryCall function name first second ihFirst ihSecond =>
      have hFirst := ihFirst fun kind name hNeeds => h kind name (Or.inr (Or.inl hNeeds))
      have hSecond := ihSecond fun kind name hNeeds => h kind name (Or.inr (Or.inr hNeeds))
      have hFunction : function.or (scope.binary? name) = function.or (other.binary? name) := by
        cases function with
        | none => exact h .binary name (Or.inl ⟨rfl, rfl, rfl⟩)
        | some f => rfl
      simp only [eval, hFirst, hSecond, hFunction]
  | conditional condition whenTrue otherwise ihCondition ihTrue ihOtherwise =>
      have hCondition := ihCondition fun kind name hNeeds => h kind name (Or.inl hNeeds)
      have hTrue := ihTrue fun kind name hNeeds => h kind name (Or.inr (Or.inl hNeeds))
      have hOtherwise := ihOtherwise fun kind name hNeeds => h kind name (Or.inr (Or.inr hNeeds))
      simp only [eval, hCondition, hTrue, hOtherwise]

/-- A value is kept when more becomes known. A failure need not be kept. -/
theorem eval_of_extendedBy (h : narrow.ExtendedBy wide) (hValue : term.eval narrow = .ok value) :
    term.eval wide = .ok value := by
  induction term generalizing value with
  | constant constant => exact hValue
  | var name =>
      rw [eval_var_eq_ok] at hValue ⊢
      exact h.value? hValue
  | unaryCall function name argument ih =>
      rw [eval_unaryCall_eq_ok] at hValue ⊢
      obtain ⟨x, f, hArgument, hFunction, hResult⟩ := hValue
      refine ⟨x, f, ih hArgument, ?_, hResult⟩
      cases function with
      | none => exact h.unary? hFunction
      | some known => exact hFunction
  | binaryCall function name first second ihFirst ihSecond =>
      rw [eval_binaryCall_eq_ok] at hValue ⊢
      obtain ⟨x, y, f, hFirst, hSecond, hFunction, hResult⟩ := hValue
      refine ⟨x, y, f, ihFirst hFirst, ihSecond hSecond, ?_, hResult⟩
      cases function with
      | none => exact h.binary? hFunction
      | some known => exact hFunction
  | conditional condition whenTrue otherwise ihCondition ihTrue ihOtherwise =>
      rw [eval_conditional_eq_ok] at hValue ⊢
      obtain ⟨x, hCondition, hBranch⟩ := hValue
      refine ⟨x, ihCondition hCondition, ?_⟩
      cases hTruthy : Number.isTruthy x with
      | true =>
          rw [hTruthy] at hBranch
          exact ihTrue hBranch
      | false =>
          rw [hTruthy] at hBranch
          exact ihOtherwise hBranch

/-- What a reduced term needs has no meaning in its scope. -/
theorem Reduced.not_knows (h : term.Reduced scope) (hNeeds : term.Needs kind name) :
    ¬ scope.Knows kind name := by
  induction h with
  | constant value => exact absurd hNeeds id
  | var hName =>
      obtain ⟨rfl, rfl⟩ := hNeeds
      simp [Scope.Knows, hName]
  | unaryKnown hArgument hOpen ih =>
      rcases hNeeds with ⟨hMissing, _⟩ | hNeeds
      · exact absurd hMissing (Option.some_ne_none _)
      · exact ih hNeeds
  | unaryMissing hName hArgument ih =>
      rcases hNeeds with ⟨_, rfl, rfl⟩ | hNeeds
      · simp [Scope.Knows, hName]
      · exact ih hNeeds
  | binaryKnown hFirst hSecond hOpen ihFirst ihSecond =>
      rcases hNeeds with ⟨hMissing, _⟩ | hNeeds | hNeeds
      · exact absurd hMissing (Option.some_ne_none _)
      · exact ihFirst hNeeds
      · exact ihSecond hNeeds
  | binaryMissing hName hFirst hSecond ihFirst ihSecond =>
      rcases hNeeds with ⟨_, rfl, rfl⟩ | hNeeds | hNeeds
      · simp [Scope.Knows, hName]
      · exact ihFirst hNeeds
      · exact ihSecond hNeeds
  | conditional hCondition hTrue hOtherwise hOpen ihCondition ihTrue ihOtherwise =>
      rcases hNeeds with hNeeds | hNeeds | hNeeds
      · exact ihCondition hNeeds
      · exact ihTrue hNeeds
      · exact ihOtherwise hNeeds

/-! ### The names that reduction leaves -/

variable {argument first second condition whenTrue otherwise : Term}

theorem IsConstant.not_needs (h : term.IsConstant) : ¬ term.Needs kind name := by
  obtain ⟨value, rfl⟩ := h
  exact id

/-- A call is worked out to a constant, or stays the call that it is. -/
theorem reduceUnary_eq (function : Option UnaryFunction) (name : String) (argument : Term) :
    (reduceUnary function name argument).IsConstant ∨
      reduceUnary function name argument = unaryCall function name argument := by
  unfold reduceUnary
  split
  · exact Or.inl (isConstant_constant _)
  · exact Or.inr rfl

theorem reduceBinary_eq (function : Option BinaryFunction) (name : String) (first second : Term) :
    (reduceBinary function name first second).IsConstant ∨
      reduceBinary function name first second = binaryCall function name first second := by
  unfold reduceBinary
  split
  · exact Or.inl (isConstant_constant _)
  · exact Or.inr rfl

/-- A call needs no more names than another one whose function and argument need no more. Calls that
were worked out need none. -/
theorem needs_reduceUnary {function function' : Option UnaryFunction} {own : String}
    {argument argument' : Term} (hOpen : ¬ (reduceUnary function own argument).IsConstant)
    (hFunction : function' = none → function = none)
    (hArgument : argument'.Needs kind name → argument.Needs kind name)
    (hNeeds : (reduceUnary function' own argument').Needs kind name) :
    (reduceUnary function own argument).Needs kind name := by
  rcases reduceUnary_eq function own argument with hConstant | hCall
  · exact absurd hConstant hOpen
  rcases reduceUnary_eq function' own argument' with hConstant | hCall'
  · exact absurd hNeeds hConstant.not_needs
  rw [hCall]
  rw [hCall'] at hNeeds
  rcases hNeeds with ⟨hMissing, hName⟩ | hNeeds
  · exact Or.inl ⟨hFunction hMissing, hName⟩
  · exact Or.inr (hArgument hNeeds)

theorem needs_reduceBinary {function function' : Option BinaryFunction} {own : String}
    {first second first' second' : Term}
    (hOpen : ¬ (reduceBinary function own first second).IsConstant)
    (hFunction : function' = none → function = none)
    (hFirst : first'.Needs kind name → first.Needs kind name)
    (hSecond : second'.Needs kind name → second.Needs kind name)
    (hNeeds : (reduceBinary function' own first' second').Needs kind name) :
    (reduceBinary function own first second).Needs kind name := by
  rcases reduceBinary_eq function own first second with hConstant | hCall
  · exact absurd hConstant hOpen
  rcases reduceBinary_eq function' own first' second' with hConstant | hCall'
  · exact absurd hNeeds hConstant.not_needs
  rw [hCall]
  rw [hCall'] at hNeeds
  rcases hNeeds with ⟨hMissing, hName⟩ | hNeeds | hNeeds
  · exact Or.inl ⟨hFunction hMissing, hName⟩
  · exact Or.inr (Or.inl (hFirst hNeeds))
  · exact Or.inr (Or.inr (hSecond hNeeds))

theorem reduceConditional_of_not_isConstant (h : ¬ condition.IsConstant) :
    reduceConditional condition whenTrue otherwise = conditional condition whenTrue otherwise := by
  unfold reduceConditional
  split
  · exact absurd (isConstant_constant _) h
  · rfl

end Term

namespace Expr

variable {expr : Expr}

/-- A name occurs in an expression in a place of the given kind. Operators are not names. -/
def Mentions (kind : NameKind) (name : String) : Expr → Prop
  | number _ => False
  | var own => kind = .value ∧ own = name
  | unary own argument => (kind = .unary ∧ own = name) ∨ argument.Mentions kind name
  | binary own first second =>
    (kind = .binary ∧ own = name) ∨ (first.Mentions kind name ∨ second.Mentions kind name)
  | conditional condition whenTrue otherwise =>
    condition.Mentions kind name ∨ (whenTrue.Mentions kind name ∨ otherwise.Mentions kind name)
  | operation _ left right => left.Mentions kind name ∨ right.Mentions kind name

/-- Before anything is looked up, every name that occurs is needed. -/
theorem needs_plain_iff :
    (Grammar.Interpretation.plain.ofExpr expr).Needs kind name ↔ expr.Mentions kind name := by
  induction expr with
  | number value => rfl
  | var own => rfl
  | unary own argument ih =>
      simp only [Grammar.Interpretation.ofExpr, Grammar.Interpretation.plain, Term.Needs,
        Mentions] at ih ⊢
      simp [ih]
  | binary own first second ihFirst ihSecond =>
      simp only [Grammar.Interpretation.ofExpr, Grammar.Interpretation.plain, Term.Needs,
        Mentions] at ihFirst ihSecond ⊢
      simp [ihFirst, ihSecond]
  | conditional condition whenTrue otherwise ihCondition ihTrue ihOtherwise =>
      simp only [Grammar.Interpretation.ofExpr, Grammar.Interpretation.plain, Term.Needs,
        Mentions] at ihCondition ihTrue ihOtherwise ⊢
      rw [ihCondition, ihTrue, ihOtherwise]
  | operation operator left right ihLeft ihRight =>
      simp only [Grammar.Interpretation.ofExpr, Grammar.Interpretation.plain, Term.Needs,
        Mentions] at ihLeft ihRight ⊢
      simp [ihLeft, ihRight]

/-- The value of an expression in a scope is that of its term before anything was looked up. -/
theorem eval_resolve_self (scope : Scope) (expr : Expr) :
    (expr.resolve scope).eval scope = (Grammar.Interpretation.plain.ofExpr expr).eval scope := by
  have hValue := expr.eval_resolve scope Scope.empty
  rwa [Scope.empty_within, Scope.within_empty] at hValue

/-- The value of an expression depends only on the names that occur in it. -/
theorem eval_resolve_congr
    (h : ∀ kind name, expr.Mentions kind name → scope.AgreesAt other kind name) :
    (expr.resolve scope).eval scope = (expr.resolve other).eval other := by
  rw [eval_resolve_self, eval_resolve_self]
  apply Term.eval_congr
  intro kind name hNeeds
  exact h kind name (needs_plain_iff.mp hNeeds)

/-- What is worked out stays so when more is known. -/
theorem resolve_eq_constant_of_extendedBy (h : narrow.ExtendedBy wide) {value : Float}
    (hValue : expr.resolve narrow = .constant value) : expr.resolve wide = .constant value := by
  have hNarrow : (expr.resolve narrow).eval narrow = .ok value := by
    rw [hValue]
    rfl
  have hWide : (expr.resolve wide).eval wide = .ok value := by
    rw [eval_resolve_self] at hNarrow ⊢
    exact Term.eval_of_extendedBy h hNarrow
  obtain ⟨settled, hSettled⟩ := (Term.reduced_resolve wide expr).isConstant_of_eval hWide
  rw [hSettled] at hWide ⊢
  exact congrArg Term.constant (Except.ok.inj hWide)

/-- When more is known, no other names stay open. Conditionals that become settled drop the names of
one branch, and all other parts of the two terms stand in the same places. -/
theorem needs_resolve_of_extendedBy (h : narrow.ExtendedBy wide)
    (hNeeds : (expr.resolve wide).Needs kind name) : (expr.resolve narrow).Needs kind name := by
  have hOpen {expr : Expr} (hNeeds : (expr.resolve wide).Needs kind name) :
      ¬ (expr.resolve narrow).IsConstant := by
    rintro ⟨value, hValue⟩
    exact Term.IsConstant.not_needs ⟨value, resolve_eq_constant_of_extendedBy h hValue⟩ hNeeds
  induction expr with
  | number value => exact absurd hNeeds id
  | var own =>
      cases hName : wide.value? own with
      | some value => simp [resolve, hName, Term.Needs] at hNeeds
      | none =>
          have hMissing : narrow.value? own = none := Scope.eq_none_of_extended h.value? hName
          simpa only [resolve, hName, hMissing] using hNeeds
  | unary own argument ih =>
      exact Term.needs_reduceUnary (hOpen hNeeds) (Scope.eq_none_of_extended h.unary?) ih hNeeds
  | binary own first second ihFirst ihSecond =>
      exact Term.needs_reduceBinary (hOpen hNeeds) (Scope.eq_none_of_extended h.binary?) ihFirst
        ihSecond hNeeds
  | conditional condition whenTrue otherwise ihCondition ihTrue ihOtherwise =>
      rw [resolve] at hNeeds ⊢
      by_cases hNarrow : (condition.resolve narrow).IsConstant
      · -- The condition is settled in both terms, and selects the same branch.
        obtain ⟨x, hx⟩ := hNarrow
        rw [resolve_eq_constant_of_extendedBy h hx] at hNeeds
        rw [hx]
        simp only [Term.reduceConditional] at hNeeds ⊢
        cases hTruthy : Number.isTruthy x with
        | true =>
            rw [hTruthy] at hNeeds
            exact ihTrue hNeeds
        | false =>
            rw [hTruthy] at hNeeds
            exact ihOtherwise hNeeds
      · rw [Term.reduceConditional_of_not_isConstant hNarrow]
        by_cases hWide : (condition.resolve wide).IsConstant
        · obtain ⟨x, hx⟩ := hWide
          rw [hx, Term.reduceConditional] at hNeeds
          split at hNeeds
          · exact Or.inr (Or.inl (ihTrue hNeeds))
          · exact Or.inr (Or.inr (ihOtherwise hNeeds))
        · rw [Term.reduceConditional_of_not_isConstant hWide] at hNeeds
          rcases hNeeds with hNeeds | hNeeds | hNeeds
          · exact Or.inl (ihCondition hNeeds)
          · exact Or.inr (Or.inl (ihTrue hNeeds))
          · exact Or.inr (Or.inr (ihOtherwise hNeeds))
  | operation operator left right ihLeft ihRight =>
      have hLeftOpen := hOpen hNeeds
      rw [resolve, Term.reduceOperation] at hNeeds hLeftOpen ⊢
      exact Term.needs_reduceBinary hLeftOpen id ihLeft ihRight hNeeds

end Expr

end Formula
