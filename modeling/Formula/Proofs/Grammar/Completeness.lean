import Formula.Proofs.Grammar.Boundary
import Formula.Proofs.Grammar.Soundness

/-! Whatever can be derived is found. An earlier alternative never takes a text away from a later one,
because it fails on every text of the later one that ends where the grammar lets it end. -/

namespace Formula.Grammar

open Formula.Grammar.Parser

variable {nested : Parser Reading} {size : Nat} {text rest : List Char}

/-- A parser reads every derived text that is shorter than the given size, wherever nothing follows
that could belong to it. It may read white space after it as well. -/
def Complete (layers : List Layer) (size : Nat) (parser : Parser Reading) : Prop :=
  ∀ {derivation : Derivation (.layers layers)} {text rest : List Char}, derivation.Yields text →
    text.length < size → Stops layers rest → ∃ reading remaining,
      parser.result (text ++ rest) = some (reading, remaining) ∧
        Text.skipBlanks remaining = Text.skipBlanks rest ∧
        reading.expr = derivation.interpret .written

/-- A parser reads an expression at the start of a text, and nothing of the text after it. -/
def Reads (parser : Parser Reading) (text : List Char) (expr : Expr) (rest : List Char) : Prop :=
  ∃ reading, parser.result text = some (reading, rest) ∧ reading.expr = expr

/-- A padded expression is read after the white space before it, up to the white space after it. -/
theorem Complete.padded (hNested : Complete Layer.all size nested) {derivation : Derivation .padded}
    (h : derivation.Yields text) (hSize : text.length < size) (hRest : Closes rest) :
    ∃ reading remaining, nested.result (Text.skipBlanks (text ++ rest)) = some (reading, remaining) ∧
      Text.skipBlanks remaining = rest ∧ reading.expr = derivation.interpret .written := by
  cases h with
  | @padded inner before body after hBefore hInner hAfter =>
      obtain ⟨reading, remaining, hRead, hRemaining, hExpr⟩ :=
        hNested hInner (by simp at hSize; omega) (hRest.stops hAfter)
      refine ⟨reading, remaining, ?_, ?_, hExpr⟩
      · simp only [List.append_assoc]
        rw [hBefore.skipBlanks_append, hInner.skipBlanks_append, hRead]
      · rw [hRemaining, hAfter.skipBlanks_append, hRest.skipBlanks_eq]

/-- A closing parenthesis belongs to no expression, and neither do a comma and the end of the text. -/
theorem closes_closing (rest : List Char) : Closes (')' :: rest) := by
  simp [Closes]

theorem closes_comma (rest : List Char) : Closes (',' :: rest) := by
  simp [Closes]

/-- An argument is read with the white space around it, up to the comma or the parenthesis that closes
it. -/
theorem result_nextArgument (hNested : Complete Layer.all size nested)
    {derivation : Derivation .padded} (h : derivation.Yields text) (hSize : text.length < size)
    (hRest : Closes rest) :
    ∃ reading remaining, (nextArgument nested).result (',' :: (text ++ rest)) =
      some (reading, remaining) ∧ Text.skipBlanks remaining = rest ∧
        reading.expr = derivation.interpret .written := by
  obtain ⟨reading, remaining, hRead, hFound⟩ := hNested.padded h hSize hRest
  exact ⟨reading, remaining, by simp [nextArgument, hRead], hFound⟩

theorem result_nextArgument_eq_none (h : rest.head? ≠ some ',') :
    (nextArgument nested).result rest = none := by
  simp [nextArgument, result_literal_eq_none h]

theorem result_closingParenthesis :
    closingParenthesis.result (')' :: rest) = some ((), rest) := by
  simp [closingParenthesis]

/-- The first alternative of an operand. Nothing is tried before it. -/
theorem result_conditional (hNested : Complete Layer.all size nested)
    {condition whenTrue otherwise : Derivation .padded} {first second third : List Char}
    (hCondition : condition.Yields first) (hWhenTrue : whenTrue.Yields second)
    (hOtherwise : otherwise.Yields third) (hFirst : first.length < size)
    (hSecond : second.length < size) (hThird : third.length < size) (rest : List Char) :
    Reads (conditional nested)
      ('i' :: 'f' :: '(' :: (first ++ ',' :: (second ++ ',' :: (third ++ ')' :: rest))))
      ((Derivation.conditional condition whenTrue otherwise).interpret .written) rest := by
  obtain ⟨c, afterFirst, hReadFirst, hAfterFirst, hExprFirst⟩ :=
    hNested.padded hCondition hFirst (closes_comma (second ++ ',' :: (third ++ ')' :: rest)))
  obtain ⟨a, afterSecond, hReadSecond, hAfterSecond, hExprSecond⟩ :=
    result_nextArgument hNested hWhenTrue hSecond (closes_comma (third ++ ')' :: rest))
  obtain ⟨b, afterThird, hReadThird, hAfterThird, hExprThird⟩ :=
    result_nextArgument hNested hOtherwise hThird (closes_closing rest)
  have hIf (tail : List Char) : (literal ['i', 'f']).result ('i' :: 'f' :: tail) = some ((), tail) :=
    result_literal_eq_some.mpr rfl
  refine ⟨Reading.conditional c a b, ?_, ?_⟩
  · simp [conditional, conditionalArguments, hIf, hReadFirst, hAfterFirst, hReadSecond,
      hAfterSecond, hReadThird, hAfterThird, result_closingParenthesis]
  · simp only [Derivation.interpret, ← hExprFirst, ← hExprSecond, ← hExprThird]
    rfl

/-! ### Names and calls -/

theorem result_identifier (name : Name) (h : EndsName rest) :
    identifier.result (name.characters ++ rest) = some (name.text, rest) := by
  simp [identifier, identifier?_append name h]

theorem result_unaryCall (hNested : Complete Layer.all size nested) (name : Name)
    {argument : Derivation .padded} (h : argument.Yields text) (hSize : text.length < size)
    (rest : List Char) :
    Reads (call nested) (name.characters ++ '(' :: (text ++ ')' :: rest))
      ((Derivation.unaryCall name argument).interpret .written) rest := by
  obtain ⟨reading, afterArgument, hRead, hAfter, hExpr⟩ :=
    hNested.padded h hSize (closes_closing rest)
  have hLeftOut : (optional (nextArgument nested)).result (')' :: rest) = some (none, ')' :: rest) :=
    result_optional_none (result_nextArgument_eq_none (by simp))
  have hSkip : Text.skipBlanks (')' :: rest) = ')' :: rest := skipBlanks_cons (by decide)
  refine ⟨Reading.call name.text reading none, ?_, ?_⟩
  · simp [call, callArguments, result_identifier name endsName_opening, hRead, hAfter, hLeftOut,
      hSkip, result_closingParenthesis]
  · simp only [Derivation.interpret, ← hExpr]
    rfl

theorem result_binaryCall (hNested : Complete Layer.all size nested) (name : Name)
    {first second : Derivation .padded} {head tail : List Char} (hFirst : first.Yields head)
    (hSecond : second.Yields tail) (hHead : head.length < size) (hTail : tail.length < size)
    (rest : List Char) :
    Reads (call nested) (name.characters ++ '(' :: (head ++ ',' :: (tail ++ ')' :: rest)))
      ((Derivation.binaryCall name first second).interpret .written) rest := by
  obtain ⟨a, afterFirst, hReadFirst, hAfterFirst, hExprFirst⟩ :=
    hNested.padded hFirst hHead (closes_comma (tail ++ ')' :: rest))
  obtain ⟨b, afterSecond, hReadSecond, hAfterSecond, hExprSecond⟩ :=
    result_nextArgument hNested hSecond hTail (closes_closing rest)
  refine ⟨Reading.call name.text a (some b), ?_, ?_⟩
  · simp [call, callArguments, result_identifier name endsName_opening, hReadFirst, hAfterFirst,
      result_optional_some hReadSecond, hAfterSecond, result_closingParenthesis]
  · simp only [Derivation.interpret, ← hExprFirst, ← hExprSecond]
    rfl

/-- Without a parenthesis that touches it, a name is not the name of a call. -/
theorem result_call_eq_none (name : Name) (h : EndsPrimary rest) :
    (call nested).result (name.characters ++ rest) = none := by
  simp [call, callArguments, result_identifier name h.1, result_literal_eq_none h.2]

/-! ### Conditionals that turn out to be something else -/

/-- A conditional needs its own name and a parenthesis that touches it. -/
theorem result_conditional_eq_none {name : Name} (hName : EndsName rest)
    (h : name ≠ .conditional ∨ rest.head? ≠ some '(') :
    (conditional nested).result (name.characters ++ rest) = none := by
  rw [Option.eq_none_iff_forall_ne_some]
  rintro ⟨reading, remaining⟩ hFound
  simp only [conditional, conditionalArguments, result_named, result_bind_eq_some,
    result_literal_eq_some] at hFound
  obtain ⟨_, middle, hIf, _, _, ⟨_, tail, rfl, _⟩, _⟩ := hFound
  have hText : name.characters ++ rest = Name.conditional.characters ++ '(' :: tail := hIf
  obtain ⟨rfl, rfl⟩ := Name.append_cancel hName endsName_opening hText
  simp at h

/-- One argument is too few for a conditional, so that a call named `if` is read as a call. -/
theorem result_conditionalArguments_unary (hNested : Complete Layer.all size nested)
    {argument : Derivation .padded} (h : argument.Yields text) (hSize : text.length < size)
    (hRest : Closes rest) (hComma : rest.head? ≠ some ',') :
    (conditionalArguments nested).result ('(' :: (text ++ rest)) = none := by
  obtain ⟨reading, after, hRead, hAfter, _⟩ := hNested.padded h hSize hRest
  simp [conditionalArguments, hRead, hAfter, result_nextArgument_eq_none hComma]

theorem result_conditionalArguments_binary (hNested : Complete Layer.all size nested)
    {first second : Derivation .padded} {head tail : List Char} (hFirst : first.Yields head)
    (hSecond : second.Yields tail) (hHead : head.length < size) (hTail : tail.length < size)
    (hRest : Closes rest) (hComma : rest.head? ≠ some ',') :
    (conditionalArguments nested).result ('(' :: (head ++ ',' :: (tail ++ rest))) = none := by
  obtain ⟨a, afterFirst, hReadFirst, hAfterFirst, _⟩ :=
    hNested.padded hFirst hHead (closes_comma (tail ++ rest))
  obtain ⟨b, afterSecond, hReadSecond, hAfterSecond, _⟩ :=
    result_nextArgument hNested hSecond hTail hRest
  simp [conditionalArguments, hReadFirst, hAfterFirst, hReadSecond, hAfterSecond,
    result_nextArgument_eq_none hComma]

/-- What is not followed by the arguments of a conditional is none. -/
theorem result_conditional_of_arguments {inner : List Char} (name : Name)
    (h : (conditionalArguments nested).result ('(' :: inner) = none) :
    (conditional nested).result (name.characters ++ '(' :: inner) = none := by
  by_cases hName : name = .conditional
  · subst hName
    have hIf : (literal ['i', 'f']).result (Name.conditional.characters ++ '(' :: inner) =
        some ((), '(' :: inner) := result_literal_eq_some.mpr rfl
    simp [conditional, hIf, h]
  · exact result_conditional_eq_none endsName_opening (Or.inl hName)

/-! ### Operands -/

/-- Where no name begins, neither a conditional nor a call nor a variable is found. -/
theorem result_primary_of_not_startsName {c : Char} (h : Lexeme.startsName c = false) :
    (primary nested).result (c :: rest) =
      ((parenthetical nested).result (c :: rest)).or (number.result (c :: rest)) := by
  have hLetter : c ≠ 'i' := by
    rintro rfl
    exact absurd h (by decide)
  simp [primary, conditional, call, reference, identifier, identifier?_eq_none h,
    result_literal_cons_ne hLetter]

/-- One case for each production, where every earlier alternative has to fail. -/
theorem primary_complete (hNested : Complete Layer.all size nested)
    {derivation : Derivation .primary} (h : derivation.Yields text) (hSize : text.length ≤ size)
    (hRest : EndsPrimary rest) :
    Reads (primary nested) (text ++ rest) (derivation.interpret .written) rest := by
  cases h with
  | @conditional _ _ _ first second third hCondition hWhenTrue hOtherwise =>
      simp only [List.length_cons, List.length_append] at hSize
      obtain ⟨reading, hRead, hExpr⟩ := result_conditional hNested hCondition hWhenTrue hOtherwise
        (by omega) (by omega) (by omega) rest
      exact ⟨reading, by simp [primary, hRead], hExpr⟩
  | @binaryCall name _ _ head tail hFirst hSecond =>
      simp only [List.length_cons, List.length_append] at hSize
      have hOther := result_conditional_of_arguments name (result_conditionalArguments_binary hNested
        hFirst hSecond (by omega) (by omega) (closes_closing rest) (by simp))
      obtain ⟨reading, hRead, hExpr⟩ :=
        result_binaryCall hNested name hFirst hSecond (by omega) (by omega) rest
      exact ⟨reading, by simp [primary, hOther, hRead], hExpr⟩
  | @unaryCall name _ body hArgument =>
      simp only [List.length_cons, List.length_append] at hSize
      have hOther := result_conditional_of_arguments name (result_conditionalArguments_unary hNested
        hArgument (by omega) (closes_closing rest) (by simp))
      obtain ⟨reading, hRead, hExpr⟩ := result_unaryCall hNested name hArgument (by omega) rest
      exact ⟨reading, by simp [primary, hOther, hRead], hExpr⟩
  | var name =>
      have hConditional : (conditional nested).result (name.characters ++ rest) = none :=
        result_conditional_eq_none hRest.1 (Or.inr hRest.2)
      have hCall : (call nested).result (name.characters ++ rest) = none :=
        result_call_eq_none name hRest
      exact ⟨.plain (.var name.text),
        by simp [primary, hConditional, hCall, reference, result_identifier name hRest.1], rfl⟩
  | @parenthetical inner body hInner =>
      simp only [List.length_cons, List.length_append] at hSize
      obtain ⟨reading, remaining, hRead, hRemaining, hExpr⟩ :=
        hNested.padded hInner (by omega) (closes_closing rest)
      refine ⟨reading, ?_, hExpr⟩
      rw [List.cons_append, result_primary_of_not_startsName (by decide)]
      simp [parenthetical, hRead, hRemaining, result_closingParenthesis]
  | number numeral =>
      obtain ⟨c, others, hCharacters, hDigit⟩ := numeral.exists_cons
      have hOpening : c ≠ '(' := by
        rintro rfl
        exact absurd hDigit (by decide)
      refine ⟨.plain (.number numeral.value), ?_, rfl⟩
      have hRead : number.result (numeral.characters ++ rest) =
          some (.plain (.number numeral.value), rest) := by
        simp [number, number?_append numeral hRest.1]
      rw [hCharacters, List.cons_append] at hRead ⊢
      rw [result_primary_of_not_startsName (startsName_of_isDigit hDigit), hRead]
      simp [parenthetical, result_literal_cons_ne hOpening]

/-- If no mark belongs to the operand, none follows it. -/
theorem factorialOperand_complete (hNested : Complete Layer.all size nested)
    {derivation : Derivation .factorialOperand} (h : derivation.Yields text)
    (hSize : text.length ≤ size) (hRest : EndsOperand rest) :
    Reads (factorialOperand nested) (text ++ rest) (derivation.interpret .written) rest := by
  cases h with
  | plain hInner =>
      obtain ⟨reading, hRead, hExpr⟩ := primary_complete hNested hInner hSize hRest.1
      have hMark : (optional (named .factorial (literal ['!']))).result rest = some (none, rest) :=
        result_optional_none (by rw [result_named, result_literal_eq_none hRest.2])
      exact ⟨reading, by simp [factorialOperand, hRead, hMark], hExpr⟩
  | @factorial _ body hInner =>
      simp only [List.length_append] at hSize
      obtain ⟨reading, hRead, hExpr⟩ := primary_complete hNested hInner (by omega)
        (endsPrimary_mark rest)
      have hMark : (optional (named .factorial (literal ['!']))).result ('!' :: rest) =
          some (some (), rest) :=
        result_optional_some (by rw [result_named, result_literal_cons])
      refine ⟨reading.map .withFactorial, ?_, ?_⟩
      · simp [factorialOperand, hRead, hMark]
      · simp only [Derivation.interpret, ← hExpr]
        rfl

/-- An operand that begins with a minus sign is read as a negation, and any other is not. -/
theorem operand_complete (hNested : Complete Layer.all size nested) :
    Complete [] (size + 1) (operand nested) := by
  intro derivation text rest h hSize hRest
  cases h with
  | negation hInner =>
      simp only [List.length_cons] at hSize
      obtain ⟨reading, hRead, hExpr⟩ :=
        factorialOperand_complete hNested hInner (by omega) hRest.operand
      refine ⟨reading.map .negated, rest, ?_, rfl, ?_⟩
      · simp [operand, negation, hRead]
      · simp only [Derivation.interpret, ← hExpr]
        rfl
  | operand hInner =>
      obtain ⟨c, others, rfl, hStarts⟩ := hInner.exists_cons_of_factorialOperand
      obtain ⟨reading, hRead, hExpr⟩ :=
        factorialOperand_complete hNested hInner (by omega) hRest.operand
      have hMinus : c ≠ '-' := ne_of_startsPrimary hStarts (by decide) (by decide)
      refine ⟨reading, rest, ?_, rfl, hExpr⟩
      rw [List.cons_append] at hRead ⊢
      simp [operand, negation, result_literal_cons_ne hMinus, hRead]

/-! ### Chains -/

section Chains

variable {layer : Layer} {tighter : List Layer} {item : Parser Reading}

theorem result_link_eq_none (h : Lexeme.operator? layer (Text.skipBlanks text) = none) :
    (link layer item).result text = none := by
  simp [link, operator, h]

/-- White space around the operator is skipped, and what is left is the text that follows, up to white
space. -/
theorem result_link (hItem : Complete tighter size item) (spelling : Spelling layer)
    {derivation : Derivation (.layers tighter)} {before after body : List Char}
    (hBefore : Blank before) (hAfter : Blank after) (h : derivation.Yields body)
    (hSize : body.length < size) (hRest : Stops tighter rest)
    (hText : Text.skipBlanks text =
      Text.skipBlanks (before ++ (spelling.characters ++ (after ++ (body ++ rest))))) :
    ∃ reading remaining, (link layer item).result text =
        some ((spelling.operator, reading), remaining) ∧
      Text.skipBlanks remaining = Text.skipBlanks rest ∧
      reading.expr = derivation.interpret .written := by
  obtain ⟨reading, remaining, hRead, hFound⟩ := hItem h hSize hRest
  refine ⟨reading, remaining, ?_, hFound⟩
  have hSkip : Text.skipBlanks text = spelling.characters ++ (after ++ (body ++ rest)) := by
    rw [hText, hBefore.skipBlanks_append, spelling.skipBlanks_append]
  simp [link, operator, hSkip, operator?_append spelling (h.head?_ne_equals hAfter),
    hAfter.skipBlanks_append, h.skipBlanks_append, hRead]

/-- Every link takes a character, so that a bound by the length of the text is never reached. -/
theorem links_complete {bound : Nat} (hItem : Complete tighter size item) (hLayer : layer ∉ tighter)
    {derivation : Derivation (.links layer tighter)} {links : List Char} (h : derivation.Yields links)
    (hSize : links.length < size) (hRest : Stops (layer :: tighter) rest)
    (hBound : links.length ≤ bound ∨ (layer = .comparison ∧ bound = 1))
    (hText : Text.skipBlanks text = Text.skipBlanks (links ++ rest)) :
    ∃ found remaining, (many (link layer item) bound).result text = some (found, remaining) ∧
      Text.skipBlanks remaining = Text.skipBlanks rest ∧
      (found.map fun (operator, reading) => (operator, reading.expr)) =
        derivation.interpret .written := by
  have hDone (bound : Nat) {remaining : List Char}
      (hSkip : Text.skipBlanks remaining = Text.skipBlanks rest) :
      (many (link layer item) bound).result remaining = some ([], remaining) :=
    result_many_none (result_link_eq_none (hSkip ▸ hRest.operators layer List.mem_cons_self)) bound
  induction bound generalizing text links derivation with
  | zero =>
      cases h with
      | done => exact ⟨[], text, hDone 0 hText, hText, rfl⟩
      | @link _ _ _ spelling =>
          obtain ⟨c, others, hCharacters, _⟩ := spelling.exists_cons
          simp [hCharacters] at hBound
      | @comparison _ spelling =>
          obtain ⟨c, others, hCharacters, _⟩ := spelling.exists_cons
          simp [hCharacters] at hBound
  | succ bound ih =>
      cases h with
      | done => exact ⟨[], text, hDone _ hText, hText, rfl⟩
      | @link _ _ hRepeats spelling inner others before after body tail hBefore hAfter hItem' hMore =>
          obtain ⟨c, spelled, hCharacters, _⟩ := spelling.exists_cons
          simp only [List.append_assoc] at hText
          simp only [List.length_append] at hSize
          obtain ⟨reading, middle, hLink, hMiddle, hExpr⟩ := result_link hItem spelling hBefore hAfter
            hItem' (by omega) (hMore.stops_links hLayer hRest) hText
          obtain ⟨found, remaining, hFound, hRemaining, hExprs⟩ := ih hMore (by omega)
            (Or.inl (by simp [hRepeats, hCharacters] at hBound; omega)) hMiddle
          refine ⟨(spelling.operator, reading) :: found, remaining, result_many_some hLink hFound,
            hRemaining, ?_⟩
          simp only [List.map_cons, Derivation.interpret, hExpr, hExprs]
      | @comparison _ spelling inner before after body hBefore hAfter hItem' =>
          simp only [List.append_assoc] at hText
          simp only [List.length_append] at hSize
          obtain ⟨reading, middle, hLink, hMiddle, hExpr⟩ := result_link hItem spelling hBefore hAfter
            hItem' (by omega) (Derivation.Yields.done.stops_links hLayer hRest) hText
          refine ⟨[(spelling.operator, reading)], middle,
            result_many_some hLink (hDone bound hMiddle), hMiddle, ?_⟩
          simp only [List.map_cons, List.map_nil, Derivation.interpret, hExpr]

/-- The chain is read to its last link, after which no operator of the layer follows. -/
theorem chain_complete (hItem : Complete tighter size item) (hLayer : layer ∉ tighter) :
    Complete (layer :: tighter) size (chain layer item) := by
  intro derivation text rest h hSize hRest
  cases h with
  | @chain _ _ first links head tail hFirst hLinks =>
      simp only [List.length_append] at hSize
      obtain ⟨reading, afterFirst, hRead, hAfterFirst, hExpr⟩ :=
        hItem hFirst (by omega) (hLinks.stops_links hLayer hRest)
      have hBound : tail.length ≤ linkBound layer (head ++ (tail ++ rest)) ∨
          (layer = .comparison ∧ linkBound layer (head ++ (tail ++ rest)) = 1) := by
        by_cases hComparison : layer = .comparison
        · exact Or.inr ⟨hComparison, if_pos hComparison⟩
        · refine Or.inl ?_
          rw [linkBound, if_neg hComparison]
          simp only [List.length_append]
          omega
      obtain ⟨found, remaining, hFound, hRemaining, hExprs⟩ := links_complete hItem hLayer hLinks
        (by omega) hRest hBound
        (show Text.skipBlanks (Text.skipBlanks afterFirst) = _ by
          rw [skipBlanks_skipBlanks, hAfterFirst])
      refine ⟨.chain layer reading found fun _ =>
        (head ++ (tail ++ rest)).take ((head ++ (tail ++ rest)).length - remaining.length),
        remaining, ?_, hRemaining, ?_⟩
      · simp [chain, hRead, hFound]
      · rw [Reading.expr_chain]
        simp only [Derivation.interpret, hExpr, hExprs]
        rfl

end Chains

/-- The layers are different from each other, so that an operator of one ends the chains of the
tighter ones. -/
theorem chains_complete (hNested : Complete Layer.all size nested) {layers : List Layer}
    (hLayers : layers.Nodup) : Complete layers (size + 1) (layers.foldr chain (operand nested)) := by
  induction layers with
  | nil => exact operand_complete hNested
  | cons layer layers ih =>
      exact chain_complete (ih (List.nodup_cons.mp hLayers).2) (List.nodup_cons.mp hLayers).1

/-- Every level of parentheses takes a character, so that the depth is never reached. -/
theorem expressionWithin_complete (depth : Nat) :
    Complete Layer.all depth (expressionWithin depth) := by
  induction depth with
  | zero => exact fun _ hSize => absurd hSize (Nat.not_lt_zero _)
  | succ depth ih => exact chains_complete ih (by decide)

/-- The length of the text is enough depth for every expression in it. -/
theorem expression_complete (size : Nat) : Complete Layer.all size expression := by
  intro derivation text rest h _ hRest
  rw [result_expression]
  exact expressionWithin_complete _ h (by simp only [List.length_append]; omega) hRest

/-! ### Whole texts -/

theorem closes_nil : Closes [] := by
  simp [Closes]

theorem result_endOfInput : endOfInput.result [] = some ((), []) := by
  simp [endOfInput]

/-- A padded expression is read up to the end of the text, a closing parenthesis or a comma. -/
theorem result_expression_padded {derivation : Derivation .padded} (h : derivation.Yields text)
    (hRest : Closes rest) :
    ∃ reading remaining, expression.result (Text.skipBlanks (text ++ rest)) =
      some (reading, remaining) ∧ Text.skipBlanks remaining = rest ∧
        reading.expr = derivation.interpret .written :=
  Complete.padded (expression_complete (text.length + 1)) h (Nat.lt_succ_self _) hRest

/-- The body of an assignment is an expression up to the end of the text. -/
theorem result_assignment (name : Name) {derivation : Derivation .padded} {after : List Char}
    (hAfter : Blank after) (h : derivation.Yields text) (hRest : Closes rest) :
    ∃ reading remaining, assignment.result (name.characters ++ (after ++ '=' :: (text ++ rest))) =
      some (.assignment name.text reading, remaining) ∧ Text.skipBlanks remaining = rest ∧
        reading.expr = derivation.interpret .written := by
  obtain ⟨reading, remaining, hRead, hFound⟩ := result_expression_padded h hRest
  have hName := result_identifier name (endsName_of_blank_equals hAfter (text ++ rest))
  have hEquals : Text.skipBlanks ('=' :: (text ++ rest)) = '=' :: (text ++ rest) :=
    skipBlanks_cons (by decide)
  exact ⟨reading, remaining,
    by simp [assignment, hName, hAfter.skipBlanks_append, hEquals, hRead], hFound⟩

/-- The text of an expression is not taken for an assignment, because after a name and an equals
sign in it there is another equals sign, with which no expression begins. -/
theorem result_assignment_eq_none {derivation : Derivation .padded} (h : derivation.Yields text)
    (hRest : Closes rest) : assignment.result (Text.skipBlanks (text ++ rest)) = none := by
  rw [Option.eq_none_iff_forall_ne_some]
  rintro ⟨found, remaining⟩ hFound
  obtain ⟨name, body, blanks, tail, reading, hText, hBlanks, hBody, _⟩ := assignment_sound hFound
  cases h with
  | @padded inner before text after hBefore hInner hAfter =>
      simp only [List.append_assoc] at hText
      rw [hBefore.skipBlanks_append, hInner.skipBlanks_append] at hText
      have hEquals := hInner.head?_eq_equals (by decide) (hRest.stops hAfter)
        (hRest.noAssignment hAfter) hBlanks hText
      cases hBody with
      | padded hBefore' hInner' _ =>
          simp only [List.append_assoc] at hEquals
          exact hInner'.head?_ne_equals hBefore' hEquals

/-- Every text of a sentence is read, and what is read says what the sentence says. -/
theorem statement_complete {sentence : Sentence} (h : sentence.Yields text) :
    ∃ found, statement.result text = some (found, []) ∧ sentence.Describes found := by
  cases h with
  | @assignment name body before after tail hBefore hAfter hBody =>
      obtain ⟨reading, remaining, hRead, hRemaining, hExpr⟩ :=
        result_assignment name hAfter hBody closes_nil
      rw [List.append_nil] at hRead
      refine ⟨.assignment name.text reading, ?_, rfl, hExpr.symm⟩
      simp [statement, hBefore.skipBlanks_append, name.skipBlanks_append, hRead, hRemaining,
        result_endOfInput]
  | expression hBody =>
      obtain ⟨reading, remaining, hRead, hRemaining, hExpr⟩ :=
        result_expression_padded hBody closes_nil
      have hAssignment := result_assignment_eq_none hBody closes_nil
      rw [List.append_nil] at hRead hAssignment
      refine ⟨.expression reading, ?_, hExpr.symm⟩
      simp [statement, hAssignment, hRead, hRemaining, result_endOfInput]

end Formula.Grammar
