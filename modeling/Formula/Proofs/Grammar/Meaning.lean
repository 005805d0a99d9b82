import Formula.Proofs.Grammar.Lexical

/-! The grouping of chains of operators, said by recursion on the chain. Folding a chain from the
right with a stack of waiting operands gives the same grouping. -/

namespace Formula.Associativity

variable {op α β : Type}

/-- A chain with its grouping written out: `((a + b) + c) + d` or `a ^ (b ^ (c ^ d))`. -/
def nest (combine : op → α → α → α) : Associativity → α → List (op × α) → α
  | _, first, [] => first
  | left, first, (operator, operand) :: rest => nest combine left (combine operator first operand) rest
  | right, first, (operator, operand) :: rest =>
    combine operator first (nest combine right operand rest)

theorem foldLeft_eq_nest (combine : op → α → α → α) (first : α) (rest : List (op × α)) :
    foldLeft combine first rest = nest combine left first rest := by
  induction rest generalizing first with
  | nil => rfl
  | cons link rest ih =>
      obtain ⟨operator, operand⟩ := link
      rw [nest, ← ih]
      rfl

/-- The operands that wait on the stack are combined with whatever the rest of the chain gives. -/
theorem foldl_push (combine : op → α → α → α) (waiting : List (α × op)) (last : α)
    (rest : List (op × α)) :
    (rest.foldl push (waiting, last)).1.foldl
        (fun whole (operand, operator) => combine operator operand whole)
        (rest.foldl push (waiting, last)).2 =
      waiting.foldl (fun whole (operand, operator) => combine operator operand whole)
        (nest combine right last rest) := by
  induction rest generalizing waiting last with
  | nil => rfl
  | cons link rest ih =>
      obtain ⟨operator, operand⟩ := link
      simp only [List.foldl_cons, push, ih, nest]

/-- With no operand waiting at the start, the stack comes to the grouping from the right. -/
theorem foldRight_eq_nest (combine : op → α → α → α) (first : α) (rest : List (op × α)) :
    foldRight combine first rest = nest combine right first rest :=
  foldl_push combine [] first rest

/-- Folding a chain gives its grouping, whichever of the two it is. -/
theorem fold_eq_nest (associativity : Associativity) (combine : op → α → α → α) (first : α)
    (rest : List (op × α)) :
    associativity.fold combine first rest = nest combine associativity first rest := by
  cases associativity with
  | left => exact foldLeft_eq_nest combine first rest
  | right => exact foldRight_eq_nest combine first rest

/-- What respects the combination of two operands respects the grouping of a chain. -/
theorem map_nest {combine : op → α → α → α} {combine' : op → β → β → β} {f : α → β}
    (hCombine : ∀ operator x y, f (combine operator x y) = combine' operator (f x) (f y))
    (associativity : Associativity) (first : α) (rest : List (op × α)) :
    f (nest combine associativity first rest) =
      nest combine' associativity (f first) (rest.map fun (operator, x) => (operator, f x)) := by
  induction rest generalizing first with
  | nil => cases associativity <;> rfl
  | cons link rest ih =>
      obtain ⟨operator, operand⟩ := link
      cases associativity with
      | left => simp only [nest, List.map_cons, ih, hCombine]
      | right => simp only [nest, List.map_cons, ih, hCombine]

/-- What the combination of two operands preserves, the grouping of a chain preserves. -/
theorem nest_induction {combine : op → α → α → α} {P : α → Prop}
    (hCombine : ∀ operator x y, P x → P y → P (combine operator x y))
    (associativity : Associativity) {first : α} {rest : List (op × α)} (hFirst : P first)
    (hRest : ∀ link ∈ rest, P link.2) : P (nest combine associativity first rest) := by
  induction rest generalizing first with
  | nil => cases associativity <;> exact hFirst
  | cons link rest ih =>
      obtain ⟨hLink, hRest⟩ := List.forall_mem_cons.mp hRest
      cases associativity with
      | left => exact ih (hCombine _ _ _ hFirst hLink) hRest
      | right => exact hCombine _ _ _ hFirst (ih hLink hRest)

end Formula.Associativity

/-! What is made of a derivation. Trees of every kind are built from a derivation in the same way, by
one operation for every part of an expression. -/

namespace Formula.Grammar

variable {α β : Type}

/-- What is made of the parts of an expression. -/
structure Interpretation (α : Type) where
  number : Float → α
  var : String → α
  unary : String → α → α
  binary : String → α → α → α
  conditional : α → α → α → α
  operation : Operator → α → α → α

namespace Interpretation

def written : Interpretation Expr where
  number := .number
  var := .var
  unary := .unary
  binary := .binary
  conditional := .conditional
  operation := .operation

/-- The term with every name in a scope replaced by its meaning, and with everything worked out that
has become constant. -/
def folded (scope : Scope) : Interpretation Term where
  number := .constant
  var name :=
    match scope.value? name with
    | some value => .constant value
    | none => .var name
  unary name := .reduceUnary (scope.unary? name) name
  binary name := .reduceBinary (scope.binary? name) name
  conditional := .reduceConditional
  operation := .reduceOperation

/-- The term in which no name has been looked up and nothing has been worked out. Only operators have
their functions. -/
def plain : Interpretation Term where
  number := .constant
  var := .var
  unary := .unaryCall none
  binary := .binaryCall none
  conditional := .conditional
  operation operator := .binaryCall (some operator.apply) operator.symbol

end Interpretation

/-- What a phrase is made into. Links are kept apart until the chain is grouped. -/
@[reducible]
def Phrase.Meaning (α : Type) : Phrase → Type
  | .links _ _ => List (Operator × α)
  | _ => α

/-- Make something of a derivation. Powers are nested to the right and all other chains to the left,
a minus sign multiplies by -1, and an exclamation mark is a call. -/
def Derivation.interpret (parts : Interpretation α) :
    {phrase : Phrase} → Derivation phrase → phrase.Meaning α
  | _, .padded inner => inner.interpret parts
  | _, @chain layer _ first rest =>
    layer.associativity.nest parts.operation (first.interpret parts) (rest.interpret parts)
  | _, .done => []
  | _, .link _ spelling item more =>
    (spelling.operator, item.interpret parts) :: more.interpret parts
  | _, .comparison spelling item => [(spelling.operator, item.interpret parts)]
  | _, .operand inner => inner.interpret parts
  | _, .negation inner => parts.operation .multiply (parts.number (-1.0)) (inner.interpret parts)
  | _, .plain inner => inner.interpret parts
  | _, .factorial inner => parts.unary "!" (inner.interpret parts)
  | _, .conditional condition whenTrue otherwise =>
    parts.conditional (condition.interpret parts) (whenTrue.interpret parts)
      (otherwise.interpret parts)
  | _, .binaryCall name first second =>
    parts.binary name.text (first.interpret parts) (second.interpret parts)
  | _, .unaryCall name argument => parts.unary name.text (argument.interpret parts)
  | _, .var name => parts.var name.text
  | _, .parenthetical inner => inner.interpret parts
  | _, .number numeral => parts.number numeral.value

def Interpretation.ofExpr (parts : Interpretation α) : Expr → α
  | .number value => parts.number value
  | .var name => parts.var name
  | .unary name argument => parts.unary name (parts.ofExpr argument)
  | .binary name first second => parts.binary name (parts.ofExpr first) (parts.ofExpr second)
  | .conditional condition whenTrue otherwise =>
    parts.conditional (parts.ofExpr condition) (parts.ofExpr whenTrue) (parts.ofExpr otherwise)
  | .operation operator left right =>
    parts.operation operator (parts.ofExpr left) (parts.ofExpr right)

/-- To make a term of an expression is to look its names up. -/
theorem Interpretation.ofExpr_folded (scope : Scope) (expr : Expr) :
    (folded scope).ofExpr expr = expr.resolve scope := by
  induction expr with
  | number | var => rfl
  | unary name argument ih =>
      simp only [ofExpr, Expr.resolve, ih]
      rfl
  | binary name first second ihFirst ihSecond =>
      simp only [ofExpr, Expr.resolve, ihFirst, ihSecond]
      rfl
  | conditional condition whenTrue otherwise ihCondition ihTrue ihOtherwise =>
      simp only [ofExpr, Expr.resolve, ihCondition, ihTrue, ihOtherwise]
      rfl
  | operation operator left right ihLeft ihRight =>
      simp only [ofExpr, Expr.resolve, ihLeft, ihRight]
      rfl

def Phrase.mapMeaning (f : α → β) : (phrase : Phrase) → phrase.Meaning α → phrase.Meaning β
  | .links _ _, chained => chained.map fun (operator, x) => (operator, f x)
  | .padded, x | .layers _, x | .factorialOperand, x | .primary, x => f x

/-- Whatever is made of a derivation is made of the expression that it stands for. Nothing else of
the derivation counts, such as parentheses or the spelling of an operator. -/
theorem Derivation.mapMeaning_interpret (parts : Interpretation α) {phrase : Phrase}
    (derivation : Derivation phrase) :
    phrase.mapMeaning parts.ofExpr (derivation.interpret .written) = derivation.interpret parts := by
  induction derivation with
  | padded inner ih => exact ih
  | @chain layer tighter first rest ihFirst ihRest =>
      simp only [interpret, ← ihFirst, ← ihRest]
      exact Associativity.map_nest (fun _ _ _ => rfl) _ _ _
  | done => rfl
  | link repeats spelling item more ihItem ihMore =>
      simp only [interpret, ← ihItem, ← ihMore]
      rfl
  | comparison spelling item ih =>
      simp only [interpret, ← ih]
      rfl
  | operand inner ih => exact ih
  | negation inner ih =>
      simp only [interpret, ← ih]
      rfl
  | plain inner ih => exact ih
  | factorial inner ih =>
      simp only [interpret, ← ih]
      rfl
  | conditional condition whenTrue otherwise ihCondition ihTrue ihOtherwise =>
      simp only [interpret, ← ihCondition, ← ihTrue, ← ihOtherwise]
      rfl
  | binaryCall name first second ihFirst ihSecond =>
      simp only [interpret, ← ihFirst, ← ihSecond]
      rfl
  | unaryCall name argument ih =>
      simp only [interpret, ← ih]
      rfl
  | var name => rfl
  | parenthetical inner ih => exact ih
  | number numeral => rfl

/-- A property that every operation of an interpretation preserves. Names come from the grammar, apart
from that of the exclamation mark. -/
structure Interpretation.Preserves (parts : Interpretation α) (P : α → Prop) : Prop where
  number (value : Float) : P (parts.number value)
  var (name : Name) : P (parts.var name.text)
  unary (name : Name) {x : α} (h : P x) : P (parts.unary name.text x)
  factorial {x : α} (h : P x) : P (parts.unary "!" x)
  binary (name : Name) {x y : α} (hFirst : P x) (hSecond : P y) : P (parts.binary name.text x y)
  conditional {x y z : α} (hCondition : P x) (hWhenTrue : P y) (hOtherwise : P z) :
    P (parts.conditional x y z)
  operation (operator : Operator) {x y : α} (hLeft : P x) (hRight : P y) :
    P (parts.operation operator x y)

def Phrase.ForAll (P : α → Prop) : (phrase : Phrase) → phrase.Meaning α → Prop
  | .links _ _, chained => ∀ link ∈ chained, P link.2
  | .padded, x | .layers _, x | .factorialOperand, x | .primary, x => P x

/-- What every operation preserves holds of whatever is made of a derivation. -/
theorem Interpretation.Preserves.interpret {parts : Interpretation α} {P : α → Prop}
    (h : parts.Preserves P) {phrase : Phrase} (derivation : Derivation phrase) :
    phrase.ForAll P (derivation.interpret parts) := by
  induction derivation with
  | padded inner ih => exact ih
  | chain first rest ihFirst ihRest =>
      exact Associativity.nest_induction (fun operator _ _ => h.operation operator) _ ihFirst ihRest
  | done => exact fun _ hLink => absurd hLink List.not_mem_nil
  | link repeats spelling item more ihItem ihMore => exact List.forall_mem_cons.mpr ⟨ihItem, ihMore⟩
  | comparison spelling item ih => exact List.forall_mem_singleton.mpr ih
  | operand inner ih => exact ih
  | negation inner ih => exact h.operation .multiply (h.number _) ih
  | plain inner ih => exact ih
  | factorial inner ih => exact h.factorial ih
  | conditional condition whenTrue otherwise ihCondition ihWhenTrue ihOtherwise =>
      exact h.conditional ihCondition ihWhenTrue ihOtherwise
  | binaryCall name first second ihFirst ihSecond => exact h.binary name ihFirst ihSecond
  | unaryCall name argument ih => exact h.unary name ih
  | var name => exact h.var name
  | parenthetical inner ih => exact ih
  | number numeral => exact h.number _

/-! Texts put together from smaller ones. What a text in parentheses stands for does not depend on
what is around it. -/

/-- A text is derived as a phrase and stands for what is given. -/
def Phrase.Spells (phrase : Phrase) (text : List Char) (meaning : phrase.Meaning Expr) : Prop :=
  ∃ derivation : Derivation phrase, derivation.Yields text ∧ derivation.interpret .written = meaning

theorem mem_all_layers (layer : Layer) : layer ∈ Layer.all := by
  cases layer <;> decide

namespace Phrase.Spells

variable {text head tail : List Char} {expr left right : Expr} {layers : List Layer}

/-! ### Operands -/

/-- Parentheses leave no trace in what a text stands for. -/
theorem parenthetical (h : Phrase.padded.Spells text expr) :
    Phrase.primary.Spells ('(' :: (text ++ [')'])) expr := by
  obtain ⟨inner, hInner, hMeaning⟩ := h
  exact ⟨.parenthetical inner, .parenthetical hInner, hMeaning⟩

theorem unaryCall (h : Phrase.padded.Spells text expr) (name : Name) :
    Phrase.primary.Spells (name.characters ++ '(' :: (text ++ [')'])) (.unary name.text expr) := by
  obtain ⟨argument, hArgument, rfl⟩ := h
  exact ⟨.unaryCall name argument, .unaryCall hArgument, rfl⟩

theorem binaryCall (hLeft : Phrase.padded.Spells head left) (hRight : Phrase.padded.Spells tail right)
    (name : Name) :
    Phrase.primary.Spells (name.characters ++ '(' :: (head ++ ',' :: (tail ++ [')'])))
      (.binary name.text left right) := by
  obtain ⟨first, hFirst, rfl⟩ := hLeft
  obtain ⟨second, hSecond, rfl⟩ := hRight
  exact ⟨.binaryCall name first second, .binaryCall hFirst hSecond, rfl⟩

/-- The three parts of a conditional are spelled between its commas. -/
theorem conditional (h : Phrase.padded.Spells text expr) (hLeft : Phrase.padded.Spells head left)
    (hRight : Phrase.padded.Spells tail right) :
    Phrase.primary.Spells ('i' :: 'f' :: '(' :: (text ++ ',' :: (head ++ ',' :: (tail ++ [')']))))
      (.conditional expr left right) := by
  obtain ⟨condition, hCondition, rfl⟩ := h
  obtain ⟨whenTrue, hWhenTrue, rfl⟩ := hLeft
  obtain ⟨otherwise, hOtherwise, rfl⟩ := hRight
  exact ⟨.conditional condition whenTrue otherwise, .conditional hCondition hWhenTrue hOtherwise, rfl⟩

theorem plain (h : Phrase.primary.Spells text expr) : Phrase.factorialOperand.Spells text expr := by
  obtain ⟨inner, hInner, hMeaning⟩ := h
  exact ⟨.plain inner, .plain hInner, hMeaning⟩

/-- The mark after an operand is a call of its own. -/
theorem factorial (h : Phrase.primary.Spells text expr) :
    Phrase.factorialOperand.Spells (text ++ ['!']) expr.withFactorial := by
  obtain ⟨inner, hInner, rfl⟩ := h
  exact ⟨.factorial inner, .factorial hInner, rfl⟩

theorem operand (h : Phrase.factorialOperand.Spells text expr) :
    (Phrase.layers []).Spells text expr := by
  obtain ⟨inner, hInner, hMeaning⟩ := h
  exact ⟨.operand inner, .operand hInner, hMeaning⟩

/-- The sign before an operand is part of what is spelled, and not of a number. -/
theorem negation (h : Phrase.factorialOperand.Spells text expr) :
    (Phrase.layers []).Spells ('-' :: text) expr.negated := by
  obtain ⟨inner, hInner, rfl⟩ := h
  exact ⟨.negation inner, .negation hInner, rfl⟩

/-! ### Layers -/

/-- What an operand stands for, it stands for as a chain without operators. -/
theorem chain_done {layer : Layer} (h : (Phrase.layers layers).Spells text expr) :
    (Phrase.layers (layer :: layers)).Spells text expr := by
  obtain ⟨first, hFirst, hMeaning⟩ := h
  refine ⟨.chain first .done, List.append_nil text ▸ .chain hFirst .done, ?_⟩
  simp only [Derivation.interpret, hMeaning]
  cases layer.associativity <;> rfl

/-- An operand counts as an expression of any layers. -/
theorem alone (h : (Phrase.layers []).Spells text expr) (layers : List Layer) :
    (Phrase.layers layers).Spells text expr := by
  induction layers with
  | nil => exact h
  | cons layer layers ih => exact ih.chain_done

/-- Two operands and an operator between them, where each operand is of a tighter layer. -/
theorem chain_operation {layer : Layer} (spelling : Spelling layer)
    (hLeft : (Phrase.layers layers).Spells head left)
    (hRight : (Phrase.layers layers).Spells tail right) {before after : List Char}
    (hBefore : Blank before) (hAfter : Blank after) :
    (Phrase.layers (layer :: layers)).Spells
      (head ++ (before ++ (spelling.characters ++ (after ++ tail))))
      (.operation spelling.operator left right) := by
  obtain ⟨first, hFirst, rfl⟩ := hLeft
  obtain ⟨item, hItem, rfl⟩ := hRight
  by_cases hLayer : layer = .comparison
  · subst hLayer
    exact ⟨.chain first (.comparison spelling item),
      .chain hFirst (.comparison hBefore hAfter hItem), rfl⟩
  · refine ⟨.chain first (.link hLayer spelling item .done),
      List.append_nil tail ▸ .chain hFirst (.link hBefore hAfter hItem .done), ?_⟩
    cases layer <;> rfl

/-- Two operands with an operator between them are an expression of any layers among which the
layer of the operator is. -/
theorem operation {layer : Layer} (spelling : Spelling layer)
    (hLeft : (Phrase.layers []).Spells head left) (hRight : (Phrase.layers []).Spells tail right)
    {before after : List Char} (hBefore : Blank before) (hAfter : Blank after)
    (hLayer : layer ∈ layers) :
    (Phrase.layers layers).Spells (head ++ (before ++ (spelling.characters ++ (after ++ tail))))
      (.operation spelling.operator left right) := by
  induction layers with
  | nil => simp at hLayer
  | cons other layers ih =>
      rcases List.mem_cons.mp hLayer with rfl | hTighter
      · exact chain_operation spelling (hLeft.alone layers) (hRight.alone layers) hBefore hAfter
      · exact (ih hTighter).chain_done

theorem padded (h : Phrase.expression.Spells text expr) : Phrase.padded.Spells text expr := by
  obtain ⟨inner, hInner, hMeaning⟩ := h
  refine ⟨.padded inner, ?_, hMeaning⟩
  have hPadded := Derivation.Yields.padded blank_nil hInner blank_nil
  rwa [List.nil_append, List.append_nil] at hPadded

/-- An operand by itself is an expression. -/
theorem whole (h : (Phrase.layers []).Spells text expr) : Phrase.padded.Spells text expr :=
  (h.alone Layer.all).padded

end Phrase.Spells

end Formula.Grammar
