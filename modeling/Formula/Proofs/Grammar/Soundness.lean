import Mathlib.Data.List.Basic
import Formula.Grammar.Statement
import Formula.Proofs.Grammar.Meaning
import Formula.Proofs.Grammar.Numeral

/-! What a parser finds, apart from what it tried in vain. Every combinator has an equation for it,
so that a production can be followed step by step. -/

namespace Formula.Grammar.Parser

variable {α β : Type} {text rest : List Char}

/-- What a parser finds at the start of a text, and the text after it. -/
def result (parser : Parser α) (text : List Char) : Option (α × List Char) :=
  (parser text).result

@[simp]
theorem result_pure (a : α) : (pure a : Parser α).result text = some (a, text) :=
  rfl

/-- The second parser goes on in the text that the first one leaves. -/
@[simp]
theorem result_bind (first : Parser α) (next : α → Parser β) :
    (first >>= next).result text =
      (first.result text).bind fun found => (next found.1).result found.2 := by
  change (andThen first next text).result = _
  unfold andThen result
  split <;> next h => simp [h]

/-- A sequence finds something if there is a place in between, where the first parser ends and the
second begins. -/
theorem result_bind_eq_some {first : Parser α} {next : α → Parser β} {b : β} :
    (first >>= next).result text = some (b, rest) ↔ ∃ a middle,
      first.result text = some (a, middle) ∧ (next a).result middle = some (b, rest) := by
  rw [result_bind, Option.bind_eq_some_iff, Prod.exists]

/-- The second alternative counts only where the first finds nothing. It starts again from the same
text. -/
@[simp]
theorem result_orElse (first second : Parser α) :
    (first <|> second).result text = (first.result text).or (second.result text) := by
  change (orElse first second text).result = _
  unfold orElse result
  split <;> next h => simp [h]

/-- Being a production changes what is reported, not what is found. -/
@[simp]
theorem result_named (production : Production) (parser : Parser α) :
    (named production parser).result text = parser.result text := by
  change (named production parser text).result = _
  unfold named result
  split <;> next h => simp [h]

@[simp]
theorem result_lexeme (find? : List Char → Option (α × List Char)) :
    (lexeme find?).result text = find? text :=
  rfl

@[simp]
theorem result_blanks : blanks.result text = some ((), Text.skipBlanks text) :=
  rfl

theorem result_blanks_bind (next : Unit → Parser β) :
    (blanks >>= next).result text = (next ()).result (Text.skipBlanks text) :=
  result_bind blanks next

@[simp]
theorem result_remainder : remainder.result text = some (text, text) :=
  rfl

theorem result_remainder_bind (next : List Char → Parser β) :
    (remainder >>= next).result text = (next text).result text :=
  result_bind remainder next

/-- Exactly the given characters are taken. -/
theorem result_literal_eq_some {characters : List Char} {u : Unit} :
    (literal characters).result text = some (u, rest) ↔ text = characters ++ rest := by
  simp [literal, eq_comm]

@[simp]
theorem result_literal_cons (c : Char) : (literal [c]).result (c :: rest) = some ((), rest) :=
  result_literal_eq_some.mpr rfl

/-- A text that begins with another character, or is empty, does not have the given characters. -/
theorem result_literal_eq_none {c : Char} {characters : List Char} (h : text.head? ≠ some c) :
    (literal (c :: characters)).result text = none := by
  rw [Option.eq_none_iff_forall_ne_some]
  rintro ⟨u, rest⟩ hFound
  exact h (by simp [result_literal_eq_some.mp hFound])

theorem result_literal_cons_ne {c d : Char} {characters : List Char} (h : d ≠ c) :
    (literal (c :: characters)).result (d :: rest) = none :=
  result_literal_eq_none (by simpa using h)

theorem result_optional_some {parser : Parser α} {a : α} (h : parser.result text = some (a, rest)) :
    (optional parser).result text = some (some a, rest) := by
  simp [optional, h]

theorem result_optional_none {parser : Parser α} (h : parser.result text = none) :
    (optional parser).result text = some (none, text) := by
  simp [optional, h]

/-- An optional part is either found or left out. -/
theorem result_optional_eq_some {parser : Parser α} {found : Option α}
    (h : (optional parser).result text = some (found, rest)) :
    (∃ a, found = some a ∧ parser.result text = some (a, rest)) ∨
      (found = none ∧ rest = text ∧ parser.result text = none) := by
  cases hParser : parser.result text with
  | none =>
      simp only [result_optional_none hParser, Option.some.injEq, Prod.mk.injEq] at h
      exact Or.inr ⟨h.1.symm, h.2.symm, rfl⟩
  | some first =>
      simp only [result_optional_some hParser, Option.some.injEq, Prod.mk.injEq] at h
      obtain ⟨rfl, rfl⟩ := h
      exact Or.inl ⟨_, rfl, rfl⟩

@[simp]
theorem result_many_zero (parser : Parser α) : (many parser 0).result text = some ([], text) :=
  rfl

/-- A repetition takes nothing from a text in which a single time fails, and does not fail itself. -/
theorem result_many_none {parser : Parser α} (h : parser.result text = none) (bound : Nat) :
    (many parser bound).result text = some ([], text) := by
  cases bound with
  | zero => rfl
  | succ bound => simp [many, h]

/-- One time more, within a bound that is larger by one. -/
theorem result_many_some {parser : Parser α} {a : α} {bound : Nat} {more : List α}
    {afterFirst : List Char} (hFirst : parser.result text = some (a, afterFirst))
    (hMore : (many parser bound).result afterFirst = some (more, rest)) :
    (many parser (bound + 1)).result text = some (a :: more, rest) := by
  simp [many, hFirst, hMore]

/-- A repetition always finds something, if only an empty list. -/
theorem isSome_result_many (parser : Parser α) (bound : Nat) (text : List Char) :
    ((many parser bound).result text).isSome := by
  cases bound <;> simp [many]

/-- A repetition ends, or it finds one more and goes on. -/
theorem result_many_succ_eq_some {parser : Parser α} {bound : Nat} {found : List α}
    (h : (many parser (bound + 1)).result text = some (found, rest)) :
    (found = [] ∧ rest = text) ∨ ∃ a more afterFirst, found = a :: more ∧
      parser.result text = some (a, afterFirst) ∧
      (many parser bound).result afterFirst = some (more, rest) := by
  cases hFirst : parser.result text with
  | none =>
      simp only [result_many_none hFirst, Option.some.injEq, Prod.mk.injEq] at h
      exact Or.inl ⟨h.1.symm, h.2.symm⟩
  | some first =>
      obtain ⟨a, afterFirst⟩ := first
      obtain ⟨⟨more, tail⟩, hMore⟩ :=
        Option.isSome_iff_exists.mp (isSome_result_many parser bound afterFirst)
      simp only [result_many_some hFirst hMore, Option.some.injEq, Prod.mk.injEq] at h
      obtain ⟨rfl, rfl⟩ := h
      exact Or.inr ⟨a, more, afterFirst, rfl, rfl, hMore⟩

end Formula.Grammar.Parser

/-! Whatever the parsers find can be derived. What an operand is read from is exactly a text of its
derivation, and a chain may take white space along that comes after it. -/

namespace Formula.Grammar

open Formula.Grammar.Parser

variable {nested : Parser Reading} {text rest : List Char} {reading : Reading}

/-- A parser reads derived texts only, and leaves at most the white space after them behind. -/
def Sound (layers : List Layer) (parser : Parser Reading) : Prop :=
  ∀ {text rest : List Char} {reading : Reading}, parser.result text = some (reading, rest) →
    ∃ (derivation : Derivation (.layers layers)) (body after : List Char),
      text = body ++ (after ++ rest) ∧ Blank after ∧ derivation.Yields body ∧
        derivation.interpret .written = reading.expr

def Derives (phrase : Phrase) (text : List Char) (meaning : phrase.Meaning Expr)
    (rest : List Char) : Prop :=
  ∃ (derivation : Derivation phrase) (body : List Char),
    text = body ++ rest ∧ derivation.Yields body ∧ derivation.interpret .written = meaning

/-- What is read between optional white space is a padded expression. -/
theorem Sound.padded (hNested : Sound Layer.all nested)
    (h : nested.result (Text.skipBlanks text) = some (reading, rest)) :
    Derives .padded text reading.expr (Text.skipBlanks rest) := by
  obtain ⟨inner, body, after, hText, hAfter, hYields, hExpr⟩ := hNested h
  obtain ⟨before, hBefore, hSkip⟩ := exists_blank_append text
  obtain ⟨behind, hBehind, hRest⟩ := exists_blank_append rest
  refine ⟨.padded inner, before ++ body ++ (after ++ behind), ?_,
    .padded hBefore hYields (hAfter.append hBehind), hExpr⟩
  rw [hSkip, hText]
  conv_lhs => rw [hRest]
  simp only [List.append_assoc]

/-- The characters that are read are those of a name, and no longer name was possible. -/
theorem identifier_sound {spelled : String} (h : identifier.result text = some (spelled, rest)) :
    ∃ name : Name, text = name.characters ++ rest ∧ spelled = name.text ∧ EndsName rest := by
  simp only [identifier, result_named, result_lexeme] at h
  exact exists_name_of_identifier? h

theorem closingParenthesis_sound {u : Unit}
    (h : closingParenthesis.result text = some (u, rest)) : text = ')' :: rest := by
  simp only [closingParenthesis, result_named] at h
  exact result_literal_eq_some.mp h

/-- The argument is what is derived after the comma, with the white space around it. -/
theorem nextArgument_sound (hNested : Sound Layer.all nested)
    (h : (nextArgument nested).result text = some (reading, rest)) :
    ∃ tail, text = ',' :: tail ∧ Derives .padded tail reading.expr (Text.skipBlanks rest) := by
  simp only [nextArgument, result_bind_eq_some, result_literal_eq_some, result_blanks_bind] at h
  obtain ⟨_, afterComma, rfl, hArgument⟩ := h
  exact ⟨afterComma, rfl, hNested.padded hArgument⟩

/-- Parentheses leave no trace in the expression, only in the derivation. -/
theorem parenthetical_sound (hNested : Sound Layer.all nested)
    (h : (parenthetical nested).result text = some (reading, rest)) :
    Derives .primary text reading.expr rest := by
  simp only [parenthetical, result_named, result_bind_eq_some, result_literal_eq_some,
    result_blanks_bind, result_pure, Option.some.injEq, Prod.mk.injEq] at h
  obtain ⟨_, afterOpening, rfl, inner, afterInner, hInner, _, _, hClosing, rfl, rfl⟩ := h
  obtain ⟨derivation, body, rfl, hYields, hExpr⟩ := hNested.padded hInner
  refine ⟨.parenthetical derivation, _, ?_, .parenthetical hYields, hExpr⟩
  simp [closingParenthesis_sound hClosing]

/-- A call has as many arguments as commas were read, and its derivation is the one for their number.
-/
theorem call_sound (hNested : Sound Layer.all nested)
    (h : (call nested).result text = some (reading, rest)) :
    Derives .primary text reading.expr rest := by
  simp only [call, callArguments, result_named, result_bind_eq_some, result_literal_eq_some,
    result_blanks_bind, result_pure, Option.some.injEq, Prod.mk.injEq] at h
  obtain ⟨spelled, _, hName, ⟨first, second⟩, _, ⟨_, afterOpening, rfl, found, afterFirst, hFirst,
    found', afterSecond, hOptional, _, _, hClosing, ⟨rfl, rfl⟩, rfl⟩, rfl, rfl⟩ := h
  obtain ⟨name, rfl, rfl, _⟩ := identifier_sound hName
  obtain ⟨argument, body, rfl, hYields, hExpr⟩ := hNested.padded hFirst
  rcases result_optional_eq_some hOptional with ⟨second, rfl, hSecond⟩ | ⟨rfl, rfl, _⟩
  · obtain ⟨tail, hText, argument', body', rfl, hYields', hExpr'⟩ :=
      nextArgument_sound hNested hSecond
    refine ⟨.binaryCall name argument argument', _, ?_, .binaryCall hYields hYields', ?_⟩
    · simp [hText, closingParenthesis_sound hClosing]
    · simp only [Derivation.interpret, hExpr, hExpr']
      rfl
  · refine ⟨.unaryCall name argument, _, ?_, .unaryCall hYields, ?_⟩
    · rw [skipBlanks_skipBlanks] at hClosing
      simp [closingParenthesis_sound hClosing]
    · simp only [Derivation.interpret, hExpr]
      rfl

/-- All three parts of a conditional are padded expressions of their own. -/
theorem conditional_sound (hNested : Sound Layer.all nested)
    (h : (conditional nested).result text = some (reading, rest)) :
    Derives .primary text reading.expr rest := by
  simp only [conditional, conditionalArguments, result_named, result_bind_eq_some,
    result_literal_eq_some, result_blanks_bind, result_pure, Option.some.injEq, Prod.mk.injEq] at h
  obtain ⟨_, _, rfl, ⟨condition, whenTrue, otherwise⟩, _, ⟨_, _, rfl, first, afterFirst, hFirst, second,
    afterSecond, hSecond, third, afterThird, hThird, _, _, hClosing, ⟨rfl, rfl, rfl⟩, rfl⟩, rfl,
    rfl⟩ := h
  obtain ⟨c, body, rfl, hYields, hExpr⟩ := hNested.padded hFirst
  obtain ⟨_, hText', a, body', rfl, hYields', hExpr'⟩ := nextArgument_sound hNested hSecond
  obtain ⟨_, hText'', b, body'', rfl, hYields'', hExpr''⟩ := nextArgument_sound hNested hThird
  refine ⟨.conditional c a b, _, ?_, .conditional hYields hYields' hYields'', ?_⟩
  · simp [hText', hText'', closingParenthesis_sound hClosing]
  · simp only [Derivation.interpret, hExpr, hExpr', hExpr'']
    rfl

theorem reference_sound (h : reference.result text = some (reading, rest)) :
    Derives .primary text reading.expr rest := by
  simp only [reference, result_named, result_bind_eq_some, result_pure, Option.some.injEq,
    Prod.mk.injEq] at h
  obtain ⟨spelled, _, hName, rfl, rfl⟩ := h
  obtain ⟨name, rfl, rfl, _⟩ := identifier_sound hName
  exact ⟨.var name, _, rfl, .var name, rfl⟩

/-- The value of the number that was read is the value of the numeral that was derived. -/
theorem number_sound (h : number.result text = some (reading, rest)) :
    Derives .primary text reading.expr rest := by
  simp only [number, result_named, result_bind_eq_some, result_lexeme, result_pure,
    Option.some.injEq, Prod.mk.injEq] at h
  obtain ⟨value, _, hNumber, rfl, rfl⟩ := h
  obtain ⟨numeral, rfl, rfl⟩ := exists_numeral_of_number? hNumber
  exact ⟨.number numeral, _, rfl, .number numeral, rfl⟩

/-- Whichever alternative was taken, it is one of those that the grammar has without an order. -/
theorem primary_sound (hNested : Sound Layer.all nested)
    (h : (primary nested).result text = some (reading, rest)) :
    Derives .primary text reading.expr rest := by
  simp only [primary, result_named, result_orElse, Option.or_eq_some_iff] at h
  rcases h with h | ⟨_, h | ⟨_, h | ⟨_, h | ⟨_, h⟩⟩⟩⟩
  · exact conditional_sound hNested h
  · exact call_sound hNested h
  · exact reference_sound h
  · exact parenthetical_sound hNested h
  · exact number_sound h

/-- The exclamation mark touches the operand, so that no white space is between them in the
derivation. -/
theorem factorialOperand_sound (hNested : Sound Layer.all nested)
    (h : (factorialOperand nested).result text = some (reading, rest)) :
    Derives .factorialOperand text reading.expr rest := by
  simp only [factorialOperand, result_named, result_bind_eq_some, result_pure, Option.some.injEq,
    Prod.mk.injEq] at h
  obtain ⟨inner, afterInner, hInner, found, _, hOptional, rfl, rfl⟩ := h
  obtain ⟨derivation, body, rfl, hYields, hExpr⟩ := primary_sound hNested hInner
  rcases result_optional_eq_some hOptional with ⟨_, rfl, hMark⟩ | ⟨rfl, rfl, _⟩
  · rw [result_named, result_literal_eq_some] at hMark
    refine ⟨.factorial derivation, _, ?_, .factorial hYields, ?_⟩
    · simp [hMark]
    · simp only [Derivation.interpret, hExpr]
      rfl
  · exact ⟨.plain derivation, body, rfl, .plain hYields, hExpr⟩

/-- An operand takes no white space along, and needs none for its derivation. -/
theorem operand_sound (hNested : Sound Layer.all nested) : Sound [] (operand nested) := by
  intro text rest reading h
  simp only [operand, negation, result_named, result_orElse, Option.or_eq_some_iff,
    result_bind_eq_some, result_literal_eq_some, result_pure, Option.some.injEq,
    Prod.mk.injEq] at h
  rcases h with ⟨_, _, rfl, inner, _, hInner, rfl, rfl⟩ | ⟨_, hInner⟩
  · obtain ⟨derivation, body, rfl, hYields, hExpr⟩ := factorialOperand_sound hNested hInner
    refine ⟨.negation derivation, '-' :: body, [], rfl, blank_nil, .negation hYields, ?_⟩
    simp only [Derivation.interpret, hExpr]
    rfl
  · obtain ⟨derivation, body, rfl, hYields, hExpr⟩ := factorialOperand_sound hNested hInner
    exact ⟨.operand derivation, body, [], rfl, blank_nil, .operand hYields, hExpr⟩

/-! ### Chains -/

/-- An operator of the layer and an operand of the tighter layers, with white space around both. -/
theorem link_sound {layer : Layer} {tighter : List Layer} {item : Parser Reading}
    {found : Operator × Reading} (hItem : Sound tighter item)
    (h : (link layer item).result text = some (found, rest)) :
    ∃ (spelling : Spelling layer) (derivation : Derivation (.layers tighter))
      (before between body after : List Char),
      text = before ++ (spelling.characters ++ (between ++ (body ++ (after ++ rest)))) ∧
        Blank before ∧ Blank between ∧ Blank after ∧ derivation.Yields body ∧
        found.1 = spelling.operator ∧ derivation.interpret .written = found.2.expr := by
  simp only [link, operator, result_blanks_bind, result_bind_eq_some, result_named, result_lexeme,
    result_pure, Option.some.injEq, Prod.mk.injEq] at h
  obtain ⟨operator, afterOperator, hOperator, reading, _, hReading, rfl, rfl⟩ := h
  obtain ⟨spelling, hText, rfl⟩ := exists_spelling_of_operator? hOperator
  obtain ⟨derivation, body, after, hBody, hAfter, hYields, hExpr⟩ := hItem hReading
  obtain ⟨before, hBefore, hSkipBefore⟩ := exists_blank_append text
  obtain ⟨between, hBetween, hSkipBetween⟩ := exists_blank_append afterOperator
  refine ⟨spelling, derivation, before, between, body, after, ?_, hBefore, hBetween, hAfter,
    hYields, rfl, hExpr⟩
  rw [← hBody, ← hSkipBetween, ← hText, ← hSkipBefore]

/-- The white space that comes before the first link is part of it, and that after the last operand
stays outside the derived text. -/
theorem links_sound {layer : Layer} {tighter : List Layer} {item : Parser Reading} {bound : Nat}
    {found : List (Operator × Reading)} {before : List Char} (hItem : Sound tighter item)
    (hBound : layer = .comparison → bound = 1) (hBefore : Blank before)
    (h : (many (link layer item) bound).result text = some (found, rest)) :
    ∃ (derivation : Derivation (.links layer tighter)) (body after : List Char),
      before ++ text = body ++ (after ++ rest) ∧ Blank after ∧ derivation.Yields body ∧
        derivation.interpret .written = found.map fun (operator, reading) => (operator, reading.expr) := by
  have hDone : ∃ (derivation : Derivation (.links layer tighter)) (body after : List Char),
      before ++ text = body ++ (after ++ text) ∧ Blank after ∧ derivation.Yields body ∧
        derivation.interpret .written = [] := ⟨.done, [], before, rfl, hBefore, .done, rfl⟩
  by_cases hLayer : layer = .comparison
  · subst hLayer
    obtain rfl := hBound rfl
    rcases result_many_succ_eq_some h with ⟨rfl, rfl⟩ | ⟨first, more, afterFirst, rfl, hFirst, hMore⟩
    · exact hDone
    · simp only [result_many_zero, Option.some.injEq, Prod.mk.injEq] at hMore
      obtain ⟨rfl, rfl⟩ := hMore
      obtain ⟨spelling, inner, before', between, body, after, rfl, hBefore', hBetween, hAfter,
        hYields, hOperator, hExpr⟩ := link_sound hItem hFirst
      refine ⟨.comparison spelling inner, _, after, ?_, hAfter,
        .comparison (hBefore.append hBefore') hBetween hYields, ?_⟩
      · simp only [List.append_assoc]
      · simp only [Derivation.interpret, List.map_cons, List.map_nil, hOperator, hExpr]
  · clear hBound
    induction bound generalizing text found before with
    | zero =>
        simp only [result_many_zero, Option.some.injEq, Prod.mk.injEq] at h
        obtain ⟨rfl, rfl⟩ := h
        exact hDone
    | succ bound ih =>
        rcases result_many_succ_eq_some h with
          ⟨rfl, rfl⟩ | ⟨first, more, afterFirst, rfl, hFirst, hMore⟩
        · exact hDone
        · obtain ⟨spelling, inner, before', between, body, after, rfl, hBefore', hBetween, hAfter,
            hYields, hOperator, hExpr⟩ := link_sound hItem hFirst
          obtain ⟨others, tail, behind, hTail, hBehind, hOthers, hExprs⟩ := ih hAfter hMore
            ⟨.done, [], after, rfl, hAfter, .done, rfl⟩
          refine ⟨.link hLayer spelling inner others, _, behind, ?_, hBehind,
            .link (hBefore.append hBefore') hBetween hYields hOthers, ?_⟩
          · simp only [List.append_assoc, hTail]
          · simp only [Derivation.interpret, List.map_cons, hOperator, hExpr, hExprs]

/-- A single operand counts as a chain without links. -/
theorem Reading.expr_chain (layer : Layer) (first : Reading) (links : List (Operator × Reading))
    (source : Unit → List Char) :
    (Reading.chain layer first links source).expr = layer.associativity.nest Expr.operation first.expr
      (links.map fun (operator, reading) => (operator, reading.expr)) := by
  cases links with
  | nil => cases layer <;> rfl
  | cons link links => exact Associativity.fold_eq_nest _ _ _ _

/-- A chain is derived link by link from its operands, or is a single operand without a link. -/
theorem chain_sound {layer : Layer} {tighter : List Layer} {item : Parser Reading}
    (hItem : Sound tighter item) : Sound (layer :: tighter) (chain layer item) := by
  intro text rest reading h
  simp only [chain, result_named, result_remainder_bind, result_bind_eq_some, result_blanks_bind,
    result_pure, Option.some.injEq, Prod.mk.injEq] at h
  obtain ⟨first, afterFirst, hFirst, found, _, hLinks, rfl, rfl⟩ := h
  obtain ⟨inner, body, after, rfl, hAfter, hYields, hExpr⟩ := hItem hFirst
  obtain ⟨before, hBefore, hSkip⟩ := exists_blank_append afterFirst
  obtain ⟨links, tail, behind, hTail, hBehind, hLinks, hExprs⟩ := links_sound hItem
    (fun hLayer => if_pos hLayer) (hAfter.append hBefore) hLinks
  refine ⟨.chain inner links, body ++ tail, behind, ?_, hBehind, .chain hYields hLinks, ?_⟩
  · rw [List.append_assoc, ← hTail, List.append_assoc, ← hSkip]
  · rw [Reading.expr_chain]
    simp only [Derivation.interpret, hExpr, hExprs]
    rfl

/-- By induction on the layers, from the tightest to the loosest. -/
theorem chains_sound (hNested : Sound Layer.all nested) (layers : List Layer) :
    Sound layers (layers.foldr chain (operand nested)) := by
  induction layers with
  | nil => exact operand_sound hNested
  | cons layer layers ih => exact chain_sound ih

/-- By induction on the depth. At depth zero nothing is read, so that there is nothing to derive. -/
theorem expressionWithin_sound (depth : Nat) : Sound Layer.all (expressionWithin depth) := by
  induction depth with
  | zero =>
      intro text rest reading h
      simp [expressionWithin] at h
  | succ depth ih => exact chains_sound ih Layer.all

theorem result_expression :
    expression.result text = (expressionWithin (text.length + 1)).result text := by
  simp only [result, expression]

/-- Whatever is read as an expression can be derived, whatever bound there is on its depth. -/
theorem expression_sound : Sound Layer.all expression := by
  intro text rest reading h
  rw [result_expression] at h
  exact expressionWithin_sound (text.length + 1) h

/-! ### Whole texts -/

/-- The body of an assignment takes along the white space that comes after the equals sign. -/
theorem assignment_sound {statement : Statement}
    (h : assignment.result text = some (statement, rest)) :
    ∃ (name : Name) (derivation : Derivation .padded) (before body : List Char) (reading : Reading),
      text = name.characters ++ (before ++ '=' :: (body ++ Text.skipBlanks rest)) ∧ Blank before ∧
        derivation.Yields body ∧ statement = .assignment name.text reading ∧
        derivation.interpret .written = reading.expr := by
  simp only [assignment, result_named, result_bind_eq_some, result_blanks_bind,
    result_literal_eq_some, result_pure, Option.some.injEq, Prod.mk.injEq] at h
  obtain ⟨spelled, afterName, hName, _, afterEquals, hEquals, reading, _, hBody, rfl, rfl⟩ := h
  obtain ⟨name, rfl, rfl, _⟩ := identifier_sound hName
  obtain ⟨derivation, body, rfl, hYields, hExpr⟩ := expression_sound.padded hBody
  obtain ⟨before, hBefore, hSkip⟩ := exists_blank_append afterName
  refine ⟨name, derivation, before, body, reading, ?_, hBefore, hYields, rfl, hExpr⟩
  rw [hSkip, hEquals]
  rfl

/-- A statement says what a sentence says, apart from the record of its chains. -/
def Sentence.Describes : Sentence → Statement → Prop
  | .assignment name body, .assignment spelled reading =>
    name.text = spelled ∧ body.interpret .written = reading.expr
  | .expression body, .expression reading => body.interpret .written = reading.expr
  | _, _ => False

theorem endOfInput_sound {u : Unit} (h : endOfInput.result text = some (u, rest)) :
    text = [] ∧ rest = [] := by
  simp only [endOfInput, result_named, result_lexeme, Option.ite_none_right_eq_some,
    List.isEmpty_iff, Option.some.injEq, Prod.mk.injEq] at h
  exact ⟨h.1, h.2.2.symm.trans h.1⟩

/-- A statement that was read from a whole text says what a sentence for the same text says. -/
theorem statement_sound {found : Statement} (h : statement.result text = some (found, rest)) :
    ∃ sentence : Sentence, sentence.Yields text ∧ sentence.Describes found := by
  simp only [statement, result_named, result_blanks_bind, result_bind_eq_some, result_orElse,
    Option.or_eq_some_iff, result_pure, Option.some.injEq, Prod.mk.injEq] at h
  obtain ⟨_, afterBody, hFound, _, _, hEnd, rfl, rfl⟩ := h
  obtain ⟨hEnd, -⟩ := endOfInput_sound hEnd
  obtain ⟨blanks, hBlanks, hSkip⟩ := exists_blank_append text
  rcases hFound with hFound | ⟨_, reading, _, hFound, rfl, rfl⟩
  · obtain ⟨name, derivation, before, body, reading, hText, hBefore, hYields, rfl, hExpr⟩ :=
      assignment_sound hFound
    refine ⟨.assignment name derivation, ?_, rfl, hExpr⟩
    rw [hSkip, hText, hEnd, List.append_nil]
    exact .assignment hBlanks hBefore hYields
  · obtain ⟨derivation, body, hText, hYields, hExpr⟩ := expression_sound.padded hFound
    refine ⟨.expression derivation, ?_, hExpr⟩
    rw [hEnd, List.append_nil] at hText
    exact .expression (hText ▸ hYields)

/-- A text is accepted if its parser finds a statement, which then ends where the text does. -/
theorem read_eq_ok_iff {text : String} {found : Statement} :
    read text = .ok found ↔ ∃ rest, statement.result text.toList = some (found, rest) := by
  unfold read result
  dsimp only
  split <;> next h => simp [h]

end Formula.Grammar
