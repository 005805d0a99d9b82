import Mathlib.Tactic.ByContra
import Formula.Proofs.Grammar.Meaning
import Formula.Proofs.Symbols
import Formula.Term.Unresolved

/-! The value of a term is the value of what it was reduced from. Working out a call early, or leaving
out the branch that is not selected, changes neither a value nor which missing name is reported. -/

namespace Formula

namespace Term

variable {scope : Scope} {name : String} {value : Float}

/-! ### What it takes for a term to have a value -/

theorem eval_var_eq_ok : (var name).eval scope = .ok value ↔ scope.value? name = some value := by
  unfold eval
  cases scope.value? name <;> simp

theorem eval_unaryCall_eq_ok {function : Option UnaryFunction} {argument : Term} :
    (unaryCall function name argument).eval scope = .ok value ↔
      ∃ x f, argument.eval scope = .ok x ∧ function.or (scope.unary? name) = some f ∧ f x = value := by
  rw [eval]
  cases argument.eval scope with
  | error error => simp [bind, Except.bind]
  | ok x => cases function.or (scope.unary? name) <;> simp [bind, Except.bind]

/-- A call of two arguments needs the values of both, and its function. -/
theorem eval_binaryCall_eq_ok {function : Option BinaryFunction} {first second : Term} :
    (binaryCall function name first second).eval scope = .ok value ↔
      ∃ x y f, first.eval scope = .ok x ∧ second.eval scope = .ok y ∧
        function.or (scope.binary? name) = some f ∧ f x y = value := by
  rw [eval]
  cases first.eval scope with
  | error error => simp [bind, Except.bind]
  | ok x =>
      cases second.eval scope with
      | error error => simp [bind, Except.bind]
      | ok y => cases function.or (scope.binary? name) <;> simp [bind, Except.bind]

/-- A conditional has the value of the branch that its condition selects. -/
theorem eval_conditional_eq_ok {condition whenTrue otherwise : Term} :
    (conditional condition whenTrue otherwise).eval scope = .ok value ↔
      ∃ x, condition.eval scope = .ok x ∧
        (if Number.isTruthy x then whenTrue else otherwise).eval scope = .ok value := by
  rw [eval]
  cases condition.eval scope with
  | error error => simp [bind, Except.bind]
  | ok x => simp [bind, Except.bind, apply_ite (Term.eval scope)]

/-! ### The reducing constructors -/

/-- To work a call out early gives the value that it would have later. -/
theorem eval_reduceUnary (function : Option UnaryFunction) (argument : Term) :
    (reduceUnary function name argument).eval scope =
      (unaryCall function name argument).eval scope := by
  unfold reduceUnary
  split <;> rfl

theorem eval_reduceBinary (function : Option BinaryFunction) (first second : Term) :
    (reduceBinary function name first second).eval scope =
      (binaryCall function name first second).eval scope := by
  unfold reduceBinary
  split <;> rfl

/-- To take the selected branch early gives the value that the conditional would have later. -/
theorem eval_reduceConditional (condition whenTrue otherwise : Term) :
    (reduceConditional condition whenTrue otherwise).eval scope =
      (conditional condition whenTrue otherwise).eval scope := by
  unfold reduceConditional
  split
  · simp only [eval, apply_ite (Term.eval scope)]
    rfl
  · rfl

end Term

/-- It makes no difference to look names up first, and to evaluate what is left where the same scope
comes last. A name that is still open then has no meaning in that scope. -/
theorem Expr.eval_resolve (known given : Scope) (expr : Expr) :
    (expr.resolve known).eval (given.within known) =
      (Grammar.Interpretation.plain.ofExpr expr).eval (known.within given) := by
  induction expr with
  | number value => rfl
  | var name =>
      simp only [resolve, Grammar.Interpretation.ofExpr, Grammar.Interpretation.plain, Term.eval,
        Scope.value?_within]
      cases hKnown : known.value? name <;> simp [Term.eval, hKnown]
  | unary name argument ih =>
      simp only [resolve, Term.eval_reduceUnary, Grammar.Interpretation.ofExpr,
        Grammar.Interpretation.plain, Term.eval, Scope.unary?_within] at ih ⊢
      rw [ih]
      cases hKnown : known.unary? name <;> simp
  | binary name first second ihFirst ihSecond =>
      simp only [resolve, Term.eval_reduceBinary, Grammar.Interpretation.ofExpr,
        Grammar.Interpretation.plain, Term.eval, Scope.binary?_within] at ihFirst ihSecond ⊢
      rw [ihFirst, ihSecond]
      cases hKnown : known.binary? name <;> simp
  | conditional condition whenTrue otherwise ihCondition ihTrue ihOtherwise =>
      simp only [resolve, Term.eval_reduceConditional, Grammar.Interpretation.ofExpr,
        Grammar.Interpretation.plain, Term.eval] at ihCondition ihTrue ihOtherwise ⊢
      rw [ihCondition, ihTrue, ihOtherwise]
  | operation operator left right ihLeft ihRight =>
      simp only [resolve, Term.reduceOperation, Term.eval_reduceBinary,
        Grammar.Interpretation.ofExpr, Grammar.Interpretation.plain, Term.eval,
        Option.some_or] at ihLeft ihRight ⊢
      rw [ihLeft, ihRight]

end Formula

/-! The terms that resolution makes. In such a term nothing is left that could be worked out or looked
up, so that whatever is not constant depends on a missing name. -/

namespace Formula.Term

variable {scope : Scope} {term argument first second condition whenTrue otherwise : Term}
  {name : String}

def IsConstant (term : Term) : Prop :=
  ∃ value, term = constant value

theorem isConstant_constant (value : Float) : (constant value).IsConstant :=
  ⟨value, rfl⟩

/-- Nothing is left of a term that its scope could work out or look up. -/
inductive Reduced (scope : Scope) : Term → Prop where
  | constant (value : Float) : Reduced scope (constant value)
  | var {name : String} (hName : scope.value? name = none) : Reduced scope (var name)
  | unaryKnown {function : UnaryFunction} {name : String} {argument : Term}
      (hArgument : Reduced scope argument) (hOpen : ¬ argument.IsConstant) :
      Reduced scope (unaryCall (some function) name argument)
  | unaryMissing {name : String} {argument : Term} (hName : scope.unary? name = none)
      (hArgument : Reduced scope argument) : Reduced scope (unaryCall none name argument)
  | binaryKnown {function : BinaryFunction} {name : String} {first second : Term}
      (hFirst : Reduced scope first) (hSecond : Reduced scope second)
      (hOpen : ¬ (first.IsConstant ∧ second.IsConstant)) :
      Reduced scope (binaryCall (some function) name first second)
  | binaryMissing {name : String} {first second : Term} (hName : scope.binary? name = none)
      (hFirst : Reduced scope first) (hSecond : Reduced scope second) :
      Reduced scope (binaryCall none name first second)
  | conditional {condition whenTrue otherwise : Term} (hCondition : Reduced scope condition)
      (hTrue : Reduced scope whenTrue) (hOtherwise : Reduced scope otherwise)
      (hOpen : ¬ condition.IsConstant) :
      Reduced scope (conditional condition whenTrue otherwise)

/-- What cannot be worked out has a function or an argument that is not known. -/
theorem Reduced.reduceUnary {function : Option UnaryFunction}
    (hFunction : function = none → scope.unary? name = none) (hArgument : argument.Reduced scope) :
    (reduceUnary function name argument).Reduced scope := by
  unfold Term.reduceUnary
  split
  · exact .constant _
  · rename_i hOpen
    cases function with
    | none => exact .unaryMissing (hFunction rfl) hArgument
    | some f => exact .unaryKnown hArgument fun ⟨x, hx⟩ => hOpen f x rfl hx

theorem Reduced.reduceBinary {function : Option BinaryFunction}
    (hFunction : function = none → scope.binary? name = none) (hFirst : first.Reduced scope)
    (hSecond : second.Reduced scope) : (reduceBinary function name first second).Reduced scope := by
  unfold Term.reduceBinary
  split
  · exact .constant _
  · rename_i hOpen
    cases function with
    | none => exact .binaryMissing (hFunction rfl) hFirst hSecond
    | some f =>
        exact .binaryKnown hFirst hSecond fun ⟨⟨x, hx⟩, y, hy⟩ => hOpen f x y rfl hx hy

/-- Either the condition was known, or the whole conditional stays as it is. -/
theorem Reduced.reduceConditional (hCondition : condition.Reduced scope)
    (hTrue : whenTrue.Reduced scope) (hOtherwise : otherwise.Reduced scope) :
    (reduceConditional condition whenTrue otherwise).Reduced scope := by
  unfold Term.reduceConditional
  split
  · split
    · exact hTrue
    · exact hOtherwise
  · rename_i hOpen
    exact .conditional hCondition hTrue hOtherwise fun ⟨x, hx⟩ => hOpen x hx

/-- By induction on the expression, of which every part is reduced when it is built. -/
theorem reduced_resolve (scope : Scope) (expr : Expr) : (expr.resolve scope).Reduced scope := by
  induction expr with
  | number value => exact .constant value
  | var name =>
      unfold Expr.resolve
      split
      · exact .constant _
      · exact .var ‹_›
  | unary name argument ih => exact .reduceUnary id ih
  | binary name first second ihFirst ihSecond => exact .reduceBinary id ihFirst ihSecond
  | conditional condition whenTrue otherwise ihCondition ihTrue ihOtherwise =>
      exact .reduceConditional ihCondition ihTrue ihOtherwise
  | operation operator left right ihLeft ihRight =>
      exact .reduceBinary (fun h => absurd h (Option.some_ne_none _)) ihLeft ihRight

/-- A reduced term has a value in its own scope only if it is that value. The arguments of a known
function cannot all have one, and the value of a condition would have selected a branch. -/
theorem Reduced.isConstant_of_eval (h : term.Reduced scope) {value : Float}
    (hValue : term.eval scope = .ok value) : term.IsConstant := by
  induction h generalizing value with
  | constant constant => exact isConstant_constant constant
  | var hName =>
      rw [eval_var_eq_ok, hName] at hValue
      exact absurd hValue (Option.some_ne_none _).symm
  | unaryKnown _ hOpen ih =>
      obtain ⟨x, _, hArgument, _⟩ := eval_unaryCall_eq_ok.mp hValue
      exact absurd (ih hArgument) hOpen
  | unaryMissing hName =>
      obtain ⟨_, f, _, hFunction, _⟩ := eval_unaryCall_eq_ok.mp hValue
      simp [hName] at hFunction
  | binaryKnown _ _ hOpen ihFirst ihSecond =>
      obtain ⟨x, y, _, hFirst, hSecond, _⟩ := eval_binaryCall_eq_ok.mp hValue
      exact absurd ⟨ihFirst hFirst, ihSecond hSecond⟩ hOpen
  | binaryMissing hName =>
      obtain ⟨_, _, f, _, _, hFunction, _⟩ := eval_binaryCall_eq_ok.mp hValue
      simp [hName] at hFunction
  | conditional _ _ _ hOpen ih =>
      obtain ⟨x, hCondition, _⟩ := eval_conditional_eq_ok.mp hValue
      exact absurd (ih hCondition) hOpen

end Formula.Term

/-! The names that a term needs, and their collection into sets. -/

namespace Formula

def Unresolved.names (unresolved : Unresolved) : NameKind → NameSet
  | .value => unresolved.variableNames
  | .unary => unresolved.unaryNames
  | .binary => unresolved.binaryNames

/-- Whether a name has no function in a term, or stands for a variable in it. -/
def Term.Needs (kind : NameKind) (name : String) : Term → Prop
  | constant _ => False
  | var own => kind = .value ∧ own = name
  | unaryCall function own argument =>
    (function = none ∧ kind = .unary ∧ own = name) ∨ argument.Needs kind name
  | binaryCall function own first second =>
    (function = none ∧ kind = .binary ∧ own = name) ∨
      (first.Needs kind name ∨ second.Needs kind name)
  | conditional condition whenTrue otherwise =>
    condition.Needs kind name ∨ (whenTrue.Needs kind name ∨ otherwise.Needs kind name)

namespace Unresolved

variable {kind : NameKind} {name : String}

/-- The names that are collected are those that were there before and those that the term needs. -/
theorem mem_collect (unresolved : Unresolved) (term : Term) :
    name ∈ (unresolved.collect term).names kind ↔
      name ∈ unresolved.names kind ∨ term.Needs kind name := by
  induction term generalizing unresolved with
  | constant value => simp [collect, Term.Needs]
  | var own => cases kind <;> simp [collect, names, Term.Needs, or_comm]
  | unaryCall function own argument ih =>
      simp only [collect, ih, Term.Needs, ← or_assoc]
      cases function <;> cases kind <;> simp [names, or_comm]
  | binaryCall function own first second ihFirst ihSecond =>
      simp only [collect, ihFirst, ihSecond, Term.Needs, ← or_assoc]
      cases function <;> cases kind <;> simp [names, or_comm]
  | conditional condition whenTrue otherwise ihCondition ihTrue ihOtherwise =>
      simp only [collect, ihCondition, ihTrue, ihOtherwise, Term.Needs, or_assoc]

/-- No names are left open if there is no name of any kind. -/
theorem isEmpty_iff {unresolved : Unresolved} :
    unresolved.isEmpty = true ↔ ∀ kind name, name ∉ unresolved.names kind := by
  have hSet (names : NameSet) : names.size = 0 ↔ ∀ name, name ∉ names := by
    rw [← Std.TreeSet.isEmpty_iff_forall_not_mem, Std.TreeSet.isEmpty_eq_size_eq_zero, beq_iff_eq]
  simp only [isEmpty, size, beq_iff_eq, Nat.add_eq_zero_iff, hSet]
  constructor
  · rintro ⟨⟨hValue, hUnary⟩, hBinary⟩ kind
    cases kind with
    | value => exact hValue
    | unary => exact hUnary
    | binary => exact hBinary
  · exact fun h => ⟨⟨h .value, h .unary⟩, h .binary⟩

end Unresolved

namespace Term

variable {scope : Scope} {term : Term} {kind : NameKind} {name : String}

theorem mem_unresolved : name ∈ term.unresolved.names kind ↔ term.Needs kind name := by
  have hEmpty : name ∉ Unresolved.empty.names kind := by
    cases kind <;> exact Std.TreeSet.not_mem_emptyc
  simp [unresolved, Unresolved.mem_collect, hEmpty]

theorem isEmpty_unresolved_iff :
    term.unresolved.isEmpty = true ↔ ∀ kind name, ¬ term.Needs kind name := by
  simp only [Unresolved.isEmpty_iff, mem_unresolved]

/-- A reduced term that is no number needs a name. -/
theorem Reduced.exists_needs (h : term.Reduced scope) (hOpen : ¬ term.IsConstant) :
    ∃ kind name, term.Needs kind name := by
  induction h with
  | constant value => exact absurd (isConstant_constant value) hOpen
  | @var name => exact ⟨.value, name, rfl, rfl⟩
  | unaryKnown _ hArgument ih =>
      obtain ⟨kind, name, hNeeds⟩ := ih hArgument
      exact ⟨kind, name, Or.inr hNeeds⟩
  | @unaryMissing name => exact ⟨.unary, name, Or.inl ⟨rfl, rfl, rfl⟩⟩
  | @binaryKnown _ _ first second _ _ hArguments ihFirst ihSecond =>
      by_cases hFirst : first.IsConstant
      · obtain ⟨kind, name, hNeeds⟩ := ihSecond fun hSecond => hArguments ⟨hFirst, hSecond⟩
        exact ⟨kind, name, Or.inr (Or.inr hNeeds)⟩
      · obtain ⟨kind, name, hNeeds⟩ := ihFirst hFirst
        exact ⟨kind, name, Or.inr (Or.inl hNeeds)⟩
  | @binaryMissing name => exact ⟨.binary, name, Or.inl ⟨rfl, rfl, rfl⟩⟩
  | conditional _ _ _ hCondition ih =>
      obtain ⟨kind, name, hNeeds⟩ := ih hCondition
      exact ⟨kind, name, Or.inl hNeeds⟩

/-- What a reduced term leaves open, its shape and its value tell alike whether anything is missing. -/
theorem Reduced.isEmpty_unresolved_iff_isConstant (h : term.Reduced scope) :
    term.unresolved.isEmpty = true ↔ term.IsConstant := by
  rw [isEmpty_unresolved_iff]
  constructor
  · intro hNone
    by_contra hOpen
    obtain ⟨kind, name, hNeeds⟩ := h.exists_needs hOpen
    exact hNone kind name hNeeds
  · rintro ⟨value, rfl⟩ kind name hNeeds
    exact hNeeds

theorem Reduced.isConstant_iff_eval (h : term.Reduced scope) :
    term.IsConstant ↔ ∃ value, term.eval scope = .ok value := by
  constructor
  · rintro ⟨value, rfl⟩
    exact ⟨value, rfl⟩
  · rintro ⟨value, hValue⟩
    exact h.isConstant_of_eval hValue

end Term

end Formula
