import Mathlib.Tactic.Choose
import Formula.Proofs.Term.Evaluation

/-! Why an evaluation fails. A name is missing, it is one of the names that the term leaves open, and no
layer of symbols has it. -/

namespace Formula

/-- The failure to find a meaning of one kind for a name. It does not show how many arguments the
function was to have. -/
def NameKind.missing : NameKind → String → LookupError
  | .value => .unknownVariable
  | .unary | .binary => .unknownFunction

namespace Term

variable {scope : Scope} {term : Term} {kind : NameKind} {name : String} {value : Float}
  {error : LookupError}

/-! ### What it takes for a term to have no value -/

theorem eval_var_eq_error :
    (var name).eval scope = .error error ↔
      scope.value? name = none ∧ error = .unknownVariable name := by
  rw [eval]
  cases scope.value? name <;> simp [eq_comm]

/-- A call fails as its argument does, or else for its own name. -/
theorem eval_unaryCall_eq_error {function : Option UnaryFunction} {argument : Term} :
    (unaryCall function name argument).eval scope = .error error ↔
      argument.eval scope = .error error ∨
        (∃ x, argument.eval scope = .ok x) ∧ function.or (scope.unary? name) = none ∧
          error = .unknownFunction name := by
  rw [eval]
  cases argument.eval scope with
  | error other => simp [bind, Except.bind]
  | ok x => cases function.or (scope.unary? name) <;> simp [bind, Except.bind, eq_comm]

/-- Of several failures in a call the one that comes first from the left is reported. -/
theorem eval_binaryCall_eq_error {function : Option BinaryFunction} {first second : Term} :
    (binaryCall function name first second).eval scope = .error error ↔
      first.eval scope = .error error ∨
        (∃ x, first.eval scope = .ok x) ∧ (second.eval scope = .error error ∨
          (∃ y, second.eval scope = .ok y) ∧ function.or (scope.binary? name) = none ∧
            error = .unknownFunction name) := by
  rw [eval]
  cases first.eval scope with
  | error other => simp [bind, Except.bind]
  | ok x =>
      cases second.eval scope with
      | error other => simp [bind, Except.bind]
      | ok y => cases function.or (scope.binary? name) <;> simp [bind, Except.bind, eq_comm]

/-- A conditional fails as its condition does, or else as the selected branch. The other branch is not
looked at. -/
theorem eval_conditional_eq_error {condition whenTrue otherwise : Term} :
    (conditional condition whenTrue otherwise).eval scope = .error error ↔
      condition.eval scope = .error error ∨ ∃ x, condition.eval scope = .ok x ∧
        (if Number.isTruthy x then whenTrue else otherwise).eval scope = .error error := by
  rw [eval]
  cases condition.eval scope with
  | error other => simp [bind, Except.bind]
  | ok x => simp [bind, Except.bind, apply_ite (Term.eval scope)]

/-! ### The name that is missing -/

/-- A failure names what the term needs and the scope does not know. -/
theorem exists_missing_of_eval_eq_error (h : term.eval scope = .error error) :
    ∃ kind name, error = kind.missing name ∧ term.Needs kind name ∧ ¬ scope.Knows kind name := by
  induction term with
  | constant value => cases h
  | var name =>
      obtain ⟨hName, hError⟩ := eval_var_eq_error.mp h
      exact ⟨.value, name, hError, ⟨rfl, rfl⟩, by simp [Scope.Knows, hName]⟩
  | unaryCall function name argument ih =>
      rcases eval_unaryCall_eq_error.mp h with hArgument | ⟨_, hFunction, hError⟩
      · obtain ⟨kind, other, hError, hNeeds, hMissing⟩ := ih hArgument
        exact ⟨kind, other, hError, Or.inr hNeeds, hMissing⟩
      · obtain ⟨hCall, hName⟩ := Option.or_eq_none_iff.mp hFunction
        exact ⟨.unary, name, hError, Or.inl ⟨hCall, rfl, rfl⟩, by simp [Scope.Knows, hName]⟩
  | binaryCall function name first second ihFirst ihSecond =>
      rcases eval_binaryCall_eq_error.mp h with hFirst | ⟨_, hSecond | ⟨_, hFunction, hError⟩⟩
      · obtain ⟨kind, other, hError, hNeeds, hMissing⟩ := ihFirst hFirst
        exact ⟨kind, other, hError, Or.inr (Or.inl hNeeds), hMissing⟩
      · obtain ⟨kind, other, hError, hNeeds, hMissing⟩ := ihSecond hSecond
        exact ⟨kind, other, hError, Or.inr (Or.inr hNeeds), hMissing⟩
      · obtain ⟨hCall, hName⟩ := Option.or_eq_none_iff.mp hFunction
        exact ⟨.binary, name, hError, Or.inl ⟨hCall, rfl, rfl⟩, by simp [Scope.Knows, hName]⟩
  | conditional condition whenTrue otherwise ihCondition ihTrue ihOtherwise =>
      rcases eval_conditional_eq_error.mp h with hCondition | ⟨x, _, hBranch⟩
      · obtain ⟨kind, name, hError, hNeeds, hMissing⟩ := ihCondition hCondition
        exact ⟨kind, name, hError, Or.inl hNeeds, hMissing⟩
      -- Only the branch that is taken can fail, and both branches leave their names open.
      · split at hBranch
        · obtain ⟨kind, name, hError, hNeeds, hMissing⟩ := ihTrue hBranch
          exact ⟨kind, name, hError, Or.inr (Or.inl hNeeds), hMissing⟩
        · obtain ⟨kind, name, hError, hNeeds, hMissing⟩ := ihOtherwise hBranch
          exact ⟨kind, name, hError, Or.inr (Or.inr hNeeds), hMissing⟩

theorem exists_eval_eq_ok (h : ∀ kind name, term.Needs kind name → scope.Knows kind name) :
    ∃ value, term.eval scope = .ok value := by
  cases hEval : term.eval scope with
  | ok value => exact ⟨value, rfl⟩
  | error error =>
      obtain ⟨kind, name, _, hNeeds, hMissing⟩ := exists_missing_of_eval_eq_error hEval
      exact absurd (h kind name hNeeds) hMissing

/-- No part of a term depends on a condition. -/
def Unconditional : Term → Prop
  | constant _ | var _ => True
  | unaryCall _ _ argument => argument.Unconditional
  | binaryCall _ _ first second => first.Unconditional ∧ second.Unconditional
  | conditional _ _ _ => False

/-- Without conditions every part is evaluated, so that a value takes all names. -/
theorem Unconditional.knows_of_needs (h : term.Unconditional) (hValue : term.eval scope = .ok value)
    (hNeeds : term.Needs kind name) : scope.Knows kind name := by
  induction term generalizing value with
  | constant constant => exact absurd hNeeds id
  | var own =>
      obtain ⟨rfl, rfl⟩ := hNeeds
      exact Option.isSome_of_eq_some (eval_var_eq_ok.mp hValue)
  | unaryCall function own argument ih =>
      obtain ⟨_, _, hArgument, hFunction, _⟩ := eval_unaryCall_eq_ok.mp hValue
      rcases hNeeds with ⟨rfl, rfl, rfl⟩ | hNeeds
      · exact Option.isSome_of_eq_some hFunction
      · exact ih h hArgument hNeeds
  | binaryCall function own first second ihFirst ihSecond =>
      obtain ⟨_, _, _, hFirst, hSecond, hFunction, _⟩ := eval_binaryCall_eq_ok.mp hValue
      rcases hNeeds with ⟨rfl, rfl, rfl⟩ | hNeeds | hNeeds
      · exact Option.isSome_of_eq_some hFunction
      · exact ihFirst h.1 hFirst hNeeds
      · exact ihSecond h.2 hSecond hNeeds
  | conditional condition whenTrue otherwise => exact absurd h id

/-- The names that a term leaves open account for every failure. An evaluation fails only for one of
them that no layer defines, as a variable or as a function of one or of two numbers, and has a value if
all of them are defined. Where nothing depends on a condition, it has a value only then. -/
theorem unresolved_accounts_for_failure (term : Term) (layers : Layers) :
    (∀ error, term.eval layers.scope = .error error →
      (∃ name, error = .unknownVariable name ∧ name ∈ term.unresolved.variableNames ∧
        ¬ layers.Define .value name) ∨
      (∃ name, error = .unknownFunction name ∧
        ((name ∈ term.unresolved.unaryNames ∧ ¬ layers.Define .unary name) ∨
          (name ∈ term.unresolved.binaryNames ∧ ¬ layers.Define .binary name)))) ∧
    ((∀ kind, ∀ name ∈ term.unresolved.names kind, layers.Define kind name) →
      ∃ value, term.eval layers.scope = .ok value) ∧
    (term.Unconditional → (∃ value, term.eval layers.scope = .ok value) →
      ∀ kind, ∀ name ∈ term.unresolved.names kind, layers.Define kind name) := by
  refine ⟨?_, ?_, ?_⟩
  · intro error hError
    obtain ⟨kind, name, rfl, hNeeds, hMissing⟩ := exists_missing_of_eval_eq_error hError
    rw [Layers.knows_scope_iff] at hMissing
    rw [← mem_unresolved] at hNeeds
    cases kind with
    | value => exact Or.inl ⟨name, rfl, hNeeds, hMissing⟩
    | unary => exact Or.inr ⟨name, rfl, Or.inl ⟨hNeeds, hMissing⟩⟩
    | binary => exact Or.inr ⟨name, rfl, Or.inr ⟨hNeeds, hMissing⟩⟩
  · intro hDefined
    apply exists_eval_eq_ok
    intro kind name hNeeds
    exact Layers.knows_scope_iff.mpr (hDefined kind name (mem_unresolved.mpr hNeeds))
  · rintro hShape ⟨value, hValue⟩ kind name hName
    exact Layers.knows_scope_iff.mp (hShape.knows_of_needs hValue (mem_unresolved.mp hName))

/-- A function of one number is not made up for by a variable or a function of two numbers of the same
name. -/
theorem unresolved_accounts_for_failure_kinds :
    let term := unaryCall none "f" (var "f")
    let given := SymbolTable.empty.withBinary "f" fun x _ => x
    let layers : Layers := ⟨some ("f", 2.0), some given, .empty, .empty⟩
    let complete : Layers := ⟨some ("f", 2.0), some (given.withUnary "f" id), .empty, .empty⟩
    term.eval layers.scope = .error (.unknownFunction "f") ∧
      ("f" ∈ term.unresolved.unaryNames ∧ ¬ layers.Define .unary "f") ∧
      (∀ kind, ∀ name ∈ term.unresolved.names kind, complete.Define kind name) ∧
      ∃ value, term.eval complete.scope = .ok value := by
  intro term given layers complete
  have hFailure : term.eval layers.scope = .error (.unknownFunction "f") := by
    refine eval_unaryCall_eq_error.mpr (Or.inr ⟨⟨2.0, ?_⟩, ?_, rfl⟩)
    · simp [eval_var_eq_ok, layers, Layers.scope, Layers.scopes, Scope.binding]
    · simp [layers, given, Layers.scope, Layers.scopes, Scope.binding, Scope.empty, SymbolTable.scope,
        SymbolTable.withBinary, SymbolTable.empty]
  have hBinary : layers.Define .binary "f" := by
    simp [layers, given, Layers.Define, Layers.scopes, Scope.Knows, SymbolTable.scope,
      SymbolTable.withBinary]
  have hDefined : ∀ kind, ∀ name ∈ term.unresolved.names kind, complete.Define kind name := by
    intro kind name hName
    rcases mem_unresolved.mp hName with ⟨_, rfl, rfl⟩ | ⟨rfl, rfl⟩
    · simp [complete, Layers.Define, Layers.scopes, Scope.Knows, SymbolTable.scope,
        SymbolTable.withUnary]
    · simp [complete, Layers.Define, Layers.scopes, Scope.Knows, Scope.binding]
  obtain ⟨hAccount, _⟩ := unresolved_accounts_for_failure term layers
  obtain ⟨_, hSufficient, _⟩ := unresolved_accounts_for_failure term complete
  refine ⟨hFailure, ?_, hDefined, hSufficient hDefined⟩
  rcases hAccount _ hFailure with ⟨_, hOther, _⟩ | ⟨name, hName, hUnary | hOther⟩
  · cases hOther
  · cases hName
    exact hUnary
  · cases hName
    exact absurd hBinary hOther.2

end Term

end Formula

/-! Chains of operators between terms. However a chain is grouped, and whatever is worked out while
it is folded, its operands are evaluated from the first one to the last. -/

namespace Formula.Term

open Associativity

variable {scope : Scope} {operator : Operator} {left right first : Term} {value : Float}
  {error : LookupError} {rest : List (Operator × Term)}

/-! ### Single operations -/

/-- An operation has a value if both operands have one. Operators are always known. -/
theorem eval_reduceOperation_eq_ok :
    (reduceOperation operator left right).eval scope = .ok value ↔
      ∃ x y, left.eval scope = .ok x ∧ right.eval scope = .ok y ∧ operator.apply x y = value := by
  simp [reduceOperation, eval_reduceBinary, eval_binaryCall_eq_ok]

theorem exists_eval_reduceOperation_eq_ok :
    (∃ value, (reduceOperation operator left right).eval scope = .ok value) ↔
      (∃ x, left.eval scope = .ok x) ∧ ∃ y, right.eval scope = .ok y := by
  simp only [eval_reduceOperation_eq_ok]
  constructor
  · rintro ⟨value, x, y, hLeft, hRight, _⟩
    exact ⟨⟨x, hLeft⟩, y, hRight⟩
  · rintro ⟨⟨x, hLeft⟩, y, hRight⟩
    exact ⟨_, x, y, hLeft, hRight, rfl⟩

theorem eval_reduceOperation_eq_error :
    (reduceOperation operator left right).eval scope = .error error ↔
      left.eval scope = .error error ∨
        (∃ x, left.eval scope = .ok x) ∧ right.eval scope = .error error := by
  simp [reduceOperation, eval_reduceBinary, eval_binaryCall_eq_error]

/-! ### The operand that decides a failure -/

/-- Of some operands, the first one without a value fails with the given error. -/
def FailsFirst (scope : Scope) (error : LookupError) (operands : List Term) : Prop :=
  ∃ earlier operand later, operands = earlier ++ operand :: later ∧
    (∀ other ∈ earlier, ∃ value, other.eval scope = .ok value) ∧ operand.eval scope = .error error

theorem not_failsFirst_nil : ¬ FailsFirst scope error [] := by
  rintro ⟨earlier, operand, later, hOperands, _⟩
  cases earlier <;> cases hOperands

/-- Either the first operand fails, or it has a value and a later one is the first to fail. -/
theorem failsFirst_cons_iff {operands : List Term} :
    FailsFirst scope error (first :: operands) ↔
      first.eval scope = .error error ∨
        (∃ x, first.eval scope = .ok x) ∧ FailsFirst scope error operands := by
  constructor
  · rintro ⟨earlier, operand, later, hOperands, hEarlier, hError⟩
    cases earlier with
    | nil =>
        obtain ⟨rfl, rfl⟩ := List.cons.inj hOperands
        exact Or.inl hError
    | cons other earlier =>
        obtain ⟨rfl, rfl⟩ := List.cons.inj hOperands
        obtain ⟨hFirst, hOthers⟩ := List.forall_mem_cons.mp hEarlier
        exact Or.inr ⟨hFirst, earlier, operand, later, rfl, hOthers, hError⟩
  · rintro (hError | ⟨hFirst, earlier, operand, later, rfl, hEarlier, hError⟩)
    · exact ⟨[], first, operands, rfl, by simp, hError⟩
    · exact ⟨first :: earlier, operand, later, rfl, List.forall_mem_cons.mpr ⟨hFirst, hEarlier⟩,
        hError⟩

/-- An operation can take the place of its two operands. -/
theorem failsFirst_reduceOperation_iff {operands : List Term} :
    FailsFirst scope error (reduceOperation operator left right :: operands) ↔
      FailsFirst scope error (left :: right :: operands) := by
  simp only [failsFirst_cons_iff, eval_reduceOperation_eq_error, exists_eval_reduceOperation_eq_ok]
  simp only [and_or_left, or_assoc, and_assoc]

/-! ### Chains -/

/-- A chain has a value if all of its operands have one, however it is grouped. -/
theorem exists_eval_nest_eq_ok_iff (associativity : Associativity) :
    (∃ value, (nest reduceOperation associativity first rest).eval scope = .ok value) ↔
      ∀ operand ∈ first :: rest.map Prod.snd, ∃ value, operand.eval scope = .ok value := by
  induction rest generalizing first with
  | nil => cases associativity <;> simp [nest]
  | cons link rest ih =>
      obtain ⟨operator, operand⟩ := link
      cases associativity with
      | left =>
          simp only [nest, ih, List.map_cons, List.forall_mem_cons,
            exists_eval_reduceOperation_eq_ok, and_assoc]
      | right =>
          simp only [nest, exists_eval_reduceOperation_eq_ok, ih, List.map_cons,
            List.forall_mem_cons]

/-- A chain fails as the first of its operands that fails, however it is grouped. -/
theorem eval_nest_eq_error_iff (associativity : Associativity) :
    (nest reduceOperation associativity first rest).eval scope = .error error ↔
      FailsFirst scope error (first :: rest.map Prod.snd) := by
  induction rest generalizing first with
  | nil => cases associativity <;> simp [nest, failsFirst_cons_iff, not_failsFirst_nil]
  | cons link rest ih =>
      obtain ⟨operator, operand⟩ := link
      cases associativity with
      | left => rw [nest, ih, failsFirst_reduceOperation_iff, List.map_cons]
      | right => rw [nest, eval_reduceOperation_eq_error, ih, List.map_cons, ← failsFirst_cons_iff]

/-- The outcome of an operation, whose operands are looked at from the left. -/
def operate (operator : Operator) (left right : Except LookupError Float) :
    Except LookupError Float := do
  let x ← left
  let y ← right
  pure (operator.apply x y)

/-- An operation on terms is the operation on their values, with the failure of the left one first. -/
theorem eval_reduceOperation (operator : Operator) (left right : Term) :
    (reduceOperation operator left right).eval scope =
      operate operator (left.eval scope) (right.eval scope) := by
  rw [reduceOperation, eval_reduceBinary, eval]
  rfl

/-- The operands of a chain have the given values, each but the first one after its operator. -/
def HaveValues (scope : Scope) (first : Term) (rest : List (Operator × Term)) (x : Float)
    (values : List (Operator × Float)) : Prop :=
  first.eval scope = .ok x ∧
    (rest.map fun (operator, operand) => (operator, operand.eval scope)) =
      values.map fun (operator, y) => (operator, .ok y)

/-- The value of a chain comes of the values of its operands, which are grouped in the same way. -/
theorem HaveValues.eval_nest {x : Float} {values : List (Operator × Float)}
    (h : HaveValues scope first rest x values) (associativity : Associativity) :
    (nest reduceOperation associativity first rest).eval scope =
      .ok (nest Operator.apply associativity x values) := by
  obtain ⟨hFirst, hRest⟩ := h
  calc (nest reduceOperation associativity first rest).eval scope
      = nest operate associativity (first.eval scope)
          (rest.map fun (operator, operand) => (operator, operand.eval scope)) :=
        map_nest eval_reduceOperation associativity first rest
    _ = nest operate associativity (.ok x) (values.map fun (operator, y) => (operator, .ok y)) := by
        rw [hFirst, hRest]
    _ = .ok (nest Operator.apply associativity x values) :=
        (map_nest (fun _ _ _ => rfl) associativity x values).symm

theorem exists_haveValues
    (h : ∀ operand ∈ first :: rest.map Prod.snd, ∃ value, operand.eval scope = .ok value) :
    ∃ x values, HaveValues scope first rest x values := by
  choose! number hNumber using h
  refine ⟨number first, rest.map fun (operator, operand) => (operator, number operand),
    hNumber first List.mem_cons_self, ?_⟩
  rw [List.map_map]
  apply List.map_congr_left
  rintro ⟨operator, operand⟩ hLink
  have hOperand : operand ∈ first :: rest.map Prod.snd :=
    List.mem_cons_of_mem _ (List.mem_map_of_mem hLink)
  simp only [Function.comp_apply, hNumber operand hOperand]

/-- Folding a chain of operators makes the term that its grouping written out makes: `a ^ (b ^ c)`
from the right, and `(a + b) + c` from the left. In any scope that term has a value exactly if every
operand has one, and the value is then the one that the operators, grouped in the same way, give for
those of the operands. Otherwise it fails as the leftmost operand without a value does. -/
theorem fold_reduceOperation_means_grouping (associativity : Associativity) (first : Term)
    (rest : List (Operator × Term)) (scope : Scope) :
    let folded := associativity.fold reduceOperation first rest
    let operands := first :: rest.map Prod.snd
    folded = associativity.nest reduceOperation first rest ∧
      ((∃ value, folded.eval scope = .ok value) ↔
        ∀ operand ∈ operands, ∃ value, operand.eval scope = .ok value) ∧
      (∀ value, folded.eval scope = .ok value ↔
        ∃ x values, HaveValues scope first rest x values ∧
          associativity.nest Operator.apply x values = value) ∧
      ∀ error, folded.eval scope = .error error ↔
        ∃ earlier operand later, operands = earlier ++ operand :: later ∧
          (∀ other ∈ earlier, ∃ value, other.eval scope = .ok value) ∧
          operand.eval scope = .error error := by
  intro folded operands
  have hFolded : folded = nest reduceOperation associativity first rest :=
    fold_eq_nest associativity reduceOperation first rest
  rw [hFolded]
  refine ⟨rfl, exists_eval_nest_eq_ok_iff associativity, fun value => ?_,
    fun error => eval_nest_eq_error_iff associativity⟩
  constructor
  · intro hValue
    obtain ⟨x, values, hValues⟩ :=
      exists_haveValues ((exists_eval_nest_eq_ok_iff associativity).mp ⟨value, hValue⟩)
    exact ⟨x, values, hValues, Except.ok.inj ((hValues.eval_nest associativity).symm.trans hValue)⟩
  · rintro ⟨x, values, hValues, rfl⟩
    exact hValues.eval_nest associativity

end Formula.Term
