import Formula.Proofs.Grammar.Layout
import Formula.Proofs.Grammar.Recognition
import Formula.Proofs.Grammar.Viability

/-! Parentheses in the texts of the grammar. Every one that is opened is closed, and none is closed
before it was opened. -/

namespace Formula.Grammar

section Balance

variable {text front back : List Char}

/-- The parentheses of a text belong together in pairs: there are as many of both kinds, and at no
place have more been closed than opened. -/
structure Balanced (text : List Char) : Prop where
  closed : text.count '(' = text.count ')'
  opened : ∀ front, front <+: text → front.count ')' ≤ front.count '('

/-- A text without parentheses is balanced. -/
theorem balanced_of_not_mem (h : ∀ c ∈ text, c ≠ '(' ∧ c ≠ ')') : Balanced text := by
  have hNone : ∀ front, front <+: text → front.count '(' = 0 ∧ front.count ')' = 0 := by
    intro front hFront
    rw [List.count_eq_zero, List.count_eq_zero]
    exact ⟨fun hMem => (h _ (hFront.subset hMem)).1 rfl,
      fun hMem => (h _ (hFront.subset hMem)).2 rfl⟩
  obtain ⟨hOpening, hClosing⟩ := hNone text (List.prefix_refl text)
  refine ⟨hOpening.trans hClosing.symm, fun front hFront => ?_⟩
  obtain ⟨hOpening, hClosing⟩ := hNone front hFront
  rw [hOpening, hClosing]

/-- Nothing is closed too early in the second part, because the first one has closed all that it
opened. -/
theorem Balanced.append (hFront : Balanced front) (hBack : Balanced back) :
    Balanced (front ++ back) := by
  constructor
  · rw [List.count_append, List.count_append, hFront.closed, hBack.closed]
  · intro part hPart
    rcases List.prefix_or_prefix_of_prefix hPart (List.prefix_append front back)
      with h | ⟨extra, rfl⟩
    · exact hFront.opened part h
    · rw [List.count_append, List.count_append, hFront.closed]
      have hExtra : extra <+: back := (List.prefix_append_right_inj front).mp hPart
      exact Nat.add_le_add_left (hBack.opened extra hExtra) _

/-- The pair around a text is closed after all that was opened within it. -/
theorem Balanced.parenthesized (h : Balanced text) : Balanced ('(' :: (text ++ [')'])) := by
  constructor
  · simp [h.closed]
  · intro part hPart
    rcases List.prefix_cons_iff.mp hPart with rfl | ⟨inner, rfl, hInner⟩
    · exact Nat.le_refl _
    rcases List.prefix_concat_iff.mp hInner with rfl | hInner
    · simp [h.closed]
    · have hOpened := h.opened inner hInner
      simp only [List.count_cons_self, List.count_cons_of_ne (show '(' ≠ ')' by decide)]
      omega

/-! ### The texts of the grammar -/

theorem Name.balanced (name : Name) : Balanced name.characters := by
  apply balanced_of_not_mem
  intro c hMem
  have hName := name.continues_characters c hMem
  exact ⟨ne_of_continuesName hName (by decide), ne_of_continuesName hName (by decide)⟩

theorem Numeral.balanced (numeral : Numeral) : Balanced numeral.characters := by
  apply balanced_of_not_mem
  intro c hMem
  rcases numeral.isDigit_or_mem hMem with hDigit | hOther
  · have hName := continuesName_of_isDigit hDigit
    exact ⟨ne_of_continuesName hName (by decide), ne_of_continuesName hName (by decide)⟩
  · have hAll : ∀ d ∈ ['.', 'e', 'E', '+', '-'], d ≠ '(' ∧ d ≠ ')' := by simp
    exact hAll c hOther

theorem Spelling.balanced {layer : Layer} (spelling : Spelling layer) :
    Balanced spelling.characters := by
  apply balanced_of_not_mem
  intro c hMem
  have hOther := (spelling.isBlank_of_mem hMem).2
  simp only [List.mem_cons, List.not_mem_nil, or_false, not_or] at hOther
  exact ⟨hOther.1, hOther.2.1⟩

theorem Blank.balanced (h : Blank text) : Balanced text := by
  apply balanced_of_not_mem
  intro c hMem
  have hBlank := h c hMem
  constructor <;> rintro rfl <;> exact absurd hBlank (by decide)

theorem balanced_singleton {c : Char} (h : c ≠ '(' ∧ c ≠ ')') : Balanced [c] := by
  apply balanced_of_not_mem
  simpa using h

/-- By induction on the derivation. Only calls, conditionals and parentheses have any in them, and
these come in pairs. -/
theorem Derivation.Yields.balanced {phrase : Phrase} {derivation : Derivation phrase}
    (h : derivation.Yields text) : Balanced text := by
  have hComma : Balanced [','] := balanced_singleton (by decide)
  induction h with
  | padded hBefore _ hAfter ih => exact (hBefore.balanced.append ih).append hAfter.balanced
  | chain _ _ ihFirst ihRest => exact ihFirst.append ihRest
  | done => exact balanced_of_not_mem (by simp)
  | link hBefore hAfter _ _ ihItem ihMore =>
      exact hBefore.balanced.append ((Spelling.balanced _).append
        (hAfter.balanced.append (ihItem.append ihMore)))
  | comparison hBefore hAfter _ ih =>
      exact hBefore.balanced.append ((Spelling.balanced _).append (hAfter.balanced.append ih))
  | operand _ ih => exact ih
  | negation _ ih => exact (balanced_singleton (c := '-') (by decide)).append ih
  | plain _ ih => exact ih
  | factorial _ ih => exact ih.append (balanced_singleton (by decide))
  | conditional _ _ _ ihCondition ihTrue ihOtherwise =>
      have hBranches := ihTrue.append (hComma.append ihOtherwise)
      have hArguments := ihCondition.append (hComma.append hBranches)
      have hName := Name.conditional.balanced
      simpa [Name.characters, Name.conditional] using hName.append hArguments.parenthesized
  | @binaryCall name _ _ _ _ _ _ ihFirst ihSecond =>
      simpa using name.balanced.append (ihFirst.append (hComma.append ihSecond)).parenthesized
  | @unaryCall name _ _ _ ih => exact name.balanced.append ih.parenthesized
  | var name => exact name.balanced
  | parenthetical _ ih => exact ih.parenthesized
  | number numeral => exact numeral.balanced

theorem Sentence.Yields.balanced {sentence : Sentence} (h : sentence.Yields text) :
    Balanced text := by
  cases h with
  | @assignment name _ _ _ _ hBefore hAfter hBody =>
      have hEquals : Balanced ['='] := balanced_singleton (by decide)
      exact hBefore.balanced.append
        (name.balanced.append (hAfter.balanced.append (hEquals.append hBody.balanced)))
  | expression hBody => exact hBody.balanced

/-- A text with an opening parenthesis too many is not one of the grammar. -/
theorem not_yields_of_unclosed {inner : List Char} (hFront : Balanced front)
    (hInner : Balanced inner) (sentence : Sentence) :
    ¬ sentence.Yields (front ++ '(' :: inner) := by
  intro h
  have hClosed := h.balanced.closed
  simp only [List.count_append, List.count_cons_self, hFront.closed, hInner.closed,
    List.count_cons_of_ne (show '(' ≠ ')' by decide)] at hClosed
  omega

/-- Nothing can be put after a closing parenthesis that has no partner. -/
theorem not_yields_of_unopened (hText : Balanced text) (sentence : Sentence) (more : List Char) :
    ¬ sentence.Yields (text ++ [')'] ++ more) := by
  intro h
  have hOpened := h.balanced.opened (text ++ [')']) (List.prefix_append _ _)
  simp [hText.closed] at hOpened

end Balance

/-! Unbalanced parentheses. Where one is missing at the end of a text, it is looked for there, and
where there is one too many, the end of the text is. Whatever else is tried before or after cannot
hide this, because no place that could be read up to is further on. -/

/-- The attempts reach a place with so many characters after it. If they go no further, the
production is among what was tried there. -/
def Attempts.Reach (remaining : Nat) (production : Production) : Attempts → Prop
  | nothing => False
  | furthest further first others =>
    further < remaining ∨ (further = remaining ∧ production ∈ first :: others)

namespace Attempts.Reach

variable {remaining start : Nat} {production other : Production} {first second : Attempts}

theorem merge_left (h : first.Reach remaining production) (second : Attempts) :
    (first.merge second).Reach remaining production := by
  cases first with
  | nothing => exact absurd h id
  | furthest place head others =>
      cases second with
      | nothing => exact h
      | furthest place' head' others' =>
          simp only [Attempts.merge]
          split
          · exact h
          split
          · simp only [Reach] at h ⊢
            omega
          · simp only [Reach, List.mem_cons, List.mem_append] at h ⊢
            tauto

theorem merge_right (h : second.Reach remaining production) (first : Attempts) :
    (first.merge second).Reach remaining production := by
  cases second with
  | nothing => exact absurd h id
  | furthest place' head' others' =>
      cases first with
      | nothing => exact h
      | furthest place head others =>
          simp only [Attempts.merge]
          split
          · simp only [Reach] at h ⊢
            omega
          split
          · exact h
          · obtain rfl : place = place' := by omega
            simp only [Reach, List.mem_cons, List.mem_append] at h ⊢
            tauto

/-- A production that starts before the place does not stand for what was tried there. -/
theorem within (h : first.Reach remaining production) (hStart : remaining < start)
    (other : Production) : (first.within start other).Reach remaining production := by
  cases first with
  | nothing => exact absurd h id
  | furthest place head others =>
      have hPlace : place < start := by
        simp only [Reach] at h
        omega
      rw [Attempts.within, if_pos (Or.inl hPlace)]
      exact h

end Attempts.Reach

namespace Parser

variable {α β : Type} {text rest : List Char} {remaining : Nat} {production : Production}
  {first second : Parser α} {next : α → Parser β}

def Reaches (parser : Parser α) (text : List Char) (remaining : Nat) (production : Production) :
    Prop :=
  (parser text).attempts.Reach remaining production

/-- A production that begins earlier does not stand for what was tried further on. -/
theorem Reaches.named (h : first.Reaches text remaining production)
    (hStart : remaining < text.length) (other : Production) :
    (named other first).Reaches text remaining production := by
  rw [Reaches] at h
  unfold Reaches Parser.named
  split
  · next found attempts hFound =>
      rw [hFound] at h
      exact h
  · next attempts hFailed =>
      rw [hFailed] at h
      exact h.within hStart other

/-- A production that fails without a trace of its own stands for itself. -/
theorem reaches_named_lexeme {find? : List Char → Option (α × List Char)} (h : find? text = none)
    (production : Production) :
    (Parser.named production (lexeme find?)).Reaches text text.length production := by
  simp [Reaches, Parser.named, lexeme, h, Attempts.within, Attempts.Reach]

/-- What the first parser tried in vain is kept whether or not it succeeds. -/
theorem Reaches.bind (h : first.Reaches text remaining production) (next : α → Parser β) :
    (first >>= next).Reaches text remaining production := by
  rw [Reaches] at h
  show (andThen first next text).attempts.Reach remaining production
  unfold andThen
  split
  · next attempts hFailed =>
      rw [hFailed] at h
      exact h
  · next a rest attempts hFound =>
      rw [hFound] at h
      exact h.merge_left _

/-- Where the first parser succeeds, what the second one tries after it counts as well. -/
theorem Reaches.bind_result {a : α} (h : (next a).Reaches rest remaining production)
    (hFirst : first.result text = some (a, rest)) :
    (first >>= next).Reaches text remaining production := by
  rw [result] at hFirst
  show (andThen first next text).attempts.Reach remaining production
  unfold andThen
  split
  · next attempts hFailed => simp [hFailed] at hFirst
  · next a' rest' attempts hFound =>
      rw [hFound, Option.some.injEq, Prod.mk.injEq] at hFirst
      obtain ⟨rfl, rfl⟩ := hFirst
      exact h.merge_right attempts

theorem Reaches.orElse_left (h : first.Reaches text remaining production) (second : Parser α) :
    (first <|> second).Reaches text remaining production := by
  rw [Reaches] at h
  show (Parser.orElse first second text).attempts.Reach remaining production
  unfold Parser.orElse
  split
  · next found attempts hFound =>
      rw [hFound] at h
      exact h
  · next attempts hFailed =>
      rw [hFailed] at h
      exact h.merge_left _

/-- The attempts of the first alternative do not hide those of the second. -/
theorem Reaches.orElse_right (h : second.Reaches text remaining production)
    (hFirst : first.result text = none) :
    (first <|> second).Reaches text remaining production := by
  rw [result] at hFirst
  show (Parser.orElse first second text).attempts.Reach remaining production
  unfold Parser.orElse
  split
  · next found attempts hFound => simp [hFound] at hFirst
  · next attempts hFailed => exact h.merge_right attempts

theorem Reaches.literal_bind {next : Unit → Parser β} {c : Char}
    (h : (next ()).Reaches rest remaining production) :
    (literal [c] >>= next).Reaches (c :: rest) remaining production :=
  h.bind_result (result_literal_cons c)

theorem Reaches.blanks_bind {next : Unit → Parser β}
    (h : (next ()).Reaches (Text.skipBlanks text) remaining production) :
    (blanks >>= next).Reaches text remaining production :=
  h.bind_result result_blanks

end Parser

open Formula.Grammar.Parser

variable {nested : Parser Reading} {size : Nat} {text rest first second third : List Char}

/-! ### A closing parenthesis that is missing -/

/-- At the end of the text a closing parenthesis is looked for in vain. -/
theorem reaches_closing {α : Type} (a : α) :
    (closingParenthesis >>= fun _ => pure a).Reaches [] 0 .closingParenthesis := by
  have hClosing : closingParenthesis.Reaches [] 0 .closingParenthesis := reaches_named_lexeme rfl _
  exact hClosing.bind _

section Nested

variable (hNested : Complete Layer.all size nested) {remaining : Nat} {production : Production}

include hNested in
/-- What comes after an expression in parentheses is reached, since the expression is read as a whole.
-/
theorem reaches_padded {β : Type} {next : Reading → Parser β} (h : Phrase.padded.Accepts text)
    (hSize : text.length < size) (hRest : Closes rest)
    (hNext : ∀ reading, (next reading).Reaches rest remaining production) :
    (do blanks; let inner ← nested; blanks; next inner).Reaches (text ++ rest)
      remaining production := by
  obtain ⟨derivation, hYields⟩ := h
  obtain ⟨reading, after, hRead, hAfter, _⟩ := hNested.padded hYields hSize hRest
  apply Reaches.blanks_bind
  refine Reaches.bind_result ?_ hRead
  apply Reaches.blanks_bind
  rw [hAfter]
  exact hNext reading

include hNested in
theorem reaches_nextArgument {β : Type} {next : Reading → Parser β} (h : Phrase.padded.Accepts text)
    (hSize : text.length < size) (hRest : Closes rest)
    (hNext : ∀ reading, (next reading).Reaches rest remaining production) :
    (do let found ← nextArgument nested; blanks; next found).Reaches (',' :: (text ++ rest))
      remaining production := by
  obtain ⟨derivation, hYields⟩ := h
  obtain ⟨reading, after, hRead, hAfter, _⟩ := result_nextArgument hNested hYields hSize hRest
  refine Reaches.bind_result ?_ hRead
  apply Reaches.blanks_bind
  rw [hAfter]
  exact hNext reading

include hNested in
/-- With its closing parenthesis missing, an expression in parentheses is read up to the end of the
text. -/
theorem reaches_parenthetical (h : Phrase.padded.Accepts text) (hSize : text.length < size) :
    (parenthetical nested).Reaches ('(' :: text) 0 .closingParenthesis := by
  refine Reaches.named ?_ (Nat.succ_pos _) _
  apply Reaches.literal_bind
  rw [← List.append_nil text]
  exact reaches_padded hNested h hSize closes_nil fun reading => reaches_closing reading

include hNested in
theorem reaches_callArguments_unary (h : Phrase.padded.Accepts text) (hSize : text.length < size) :
    (callArguments nested).Reaches ('(' :: text) 0 .closingParenthesis := by
  refine Reaches.named ?_ (Nat.succ_pos _) _
  apply Reaches.literal_bind
  rw [← List.append_nil text]
  refine reaches_padded hNested h hSize closes_nil fun reading => ?_
  have hLeftOut : (optional (nextArgument nested)).result [] = some (none, []) :=
    result_optional_none (result_nextArgument_eq_none (by simp))
  refine Reaches.bind_result ?_ hLeftOut
  apply Reaches.blanks_bind
  exact reaches_closing _

include hNested in
theorem reaches_callArguments_binary (hFirst : Phrase.padded.Accepts first)
    (hSecond : Phrase.padded.Accepts second) (hFirstSize : first.length < size)
    (hSecondSize : second.length < size) :
    (callArguments nested).Reaches ('(' :: (first ++ ',' :: second)) 0 .closingParenthesis := by
  refine Reaches.named ?_ (Nat.succ_pos _) _
  apply Reaches.literal_bind
  refine reaches_padded hNested hFirst hFirstSize (closes_comma second) fun reading => ?_
  obtain ⟨derivation, hYields⟩ := hSecond
  obtain ⟨argument, after, hRead, hAfter, _⟩ :=
    result_nextArgument hNested hYields hSecondSize closes_nil
  rw [List.append_nil] at hRead
  refine Reaches.bind_result ?_ (result_optional_some hRead)
  apply Reaches.blanks_bind
  rw [hAfter]
  exact reaches_closing _

include hNested in
/-- All three arguments are there, and only the parenthesis after them is missing. -/
theorem reaches_conditionalArguments (hFirst : Phrase.padded.Accepts first)
    (hSecond : Phrase.padded.Accepts second) (hThird : Phrase.padded.Accepts third)
    (hFirstSize : first.length < size) (hSecondSize : second.length < size)
    (hThirdSize : third.length < size) :
    (conditionalArguments nested).Reaches ('(' :: (first ++ ',' :: (second ++ ',' :: third))) 0
      .closingParenthesis := by
  refine Reaches.named ?_ (Nat.succ_pos _) _
  apply Reaches.literal_bind
  refine reaches_padded hNested hFirst hFirstSize (closes_comma _) fun condition => ?_
  refine reaches_nextArgument hNested hSecond hSecondSize (closes_comma third) fun whenTrue => ?_
  rw [← List.append_nil third]
  exact reaches_nextArgument hNested hThird hThirdSize closes_nil fun otherwise => reaches_closing _

end Nested

/-- The texts of operands in parentheses and with arguments, without the parenthesis at their end.
-/
inductive Unclosed : List Char → Prop where
  | parenthetical {text : List Char} (h : Phrase.padded.Accepts text) : Unclosed ('(' :: text)
  | unaryCall {text : List Char} (name : Name) (h : Phrase.padded.Accepts text) :
      Unclosed (name.characters ++ '(' :: text)
  | binaryCall {first second : List Char} (name : Name) (hFirst : Phrase.padded.Accepts first)
      (hSecond : Phrase.padded.Accepts second) :
      Unclosed (name.characters ++ '(' :: (first ++ ',' :: second))
  | conditional {first second third : List Char} (hFirst : Phrase.padded.Accepts first)
      (hSecond : Phrase.padded.Accepts second) (hThird : Phrase.padded.Accepts third) :
      Unclosed ('i' :: 'f' :: '(' :: (first ++ ',' :: (second ++ ',' :: third)))

namespace Unclosed

/-- What lacks its last parenthesis begins as an operand does. -/
theorem exists_cons (h : Unclosed text) : ∃ c others, text = c :: others ∧ startsPrimary c := by
  cases h with
  | parenthetical => exact ⟨_, _, rfl, Or.inl rfl⟩
  | unaryCall name | binaryCall name => exact ⟨_, _, rfl, Or.inr (Or.inr name.starts)⟩
  | conditional => exact ⟨_, _, rfl, Or.inr (Or.inr (by decide))⟩

/-- One parenthesis is open at the end, and around it everything is balanced. -/
theorem exists_balanced (h : Unclosed text) :
    ∃ front inner, text = front ++ '(' :: inner ∧ Balanced front ∧ Balanced inner := by
  have hComma : Balanced [','] := balanced_singleton (by decide)
  have hBalanced {text : List Char} : Phrase.padded.Accepts text → Balanced text :=
    fun ⟨_, hYields⟩ => hYields.balanced
  cases h with
  | parenthetical h => exact ⟨[], _, rfl, balanced_of_not_mem (by simp), hBalanced h⟩
  | unaryCall name h => exact ⟨_, _, rfl, name.balanced, hBalanced h⟩
  | binaryCall name hFirst hSecond =>
      exact ⟨_, _, rfl, name.balanced,
        (hBalanced hFirst).append (hComma.append (hBalanced hSecond))⟩
  | conditional hFirst hSecond hThird =>
      exact ⟨Name.conditional.characters, _, rfl, Name.conditional.balanced,
        (hBalanced hFirst).append
          (hComma.append ((hBalanced hSecond).append (hComma.append (hBalanced hThird))))⟩

/-- Such a text has more parentheses of one kind than of the other, so that no sentence is spelled as
it is. -/
theorem not_yields (h : Unclosed text) (sentence : Sentence) : ¬ sentence.Yields text := by
  obtain ⟨front, inner, rfl, hFront, hInner⟩ := h.exists_balanced
  exact not_yields_of_unclosed hFront hInner sentence

/-- A name before a parenthesis is no assignment of anything. -/
theorem result_assignment_eq_none (h : Unclosed text) : assignment.result text = none := by
  have hName (name : Name) (inner : List Char) :
      assignment.result (name.characters ++ '(' :: inner) = none := by
    have hSkip : Text.skipBlanks ('(' :: inner) = '(' :: inner := skipBlanks_cons (by decide)
    simp [assignment, result_identifier name endsName_opening, hSkip, result_literal_cons_ne]
  cases h with
  | parenthetical =>
      have hOpening : Lexeme.startsName '(' = false := by decide
      simp [assignment, identifier, identifier?_eq_none hOpening]
  | unaryCall name | binaryCall name => exact hName name _
  | conditional => exact hName .conditional _

end Unclosed

section Nested

variable (hNested : Complete Layer.all size nested)

/-- A parenthesis after a name can only belong to a conditional or to a call. -/
theorem reaches_primary_of_arguments {inner : List Char} (name : Name)
    (hConditional : (conditionalArguments nested).result ('(' :: inner) = none)
    (hCall : (callArguments nested).Reaches ('(' :: inner) 0 .closingParenthesis) :
    (primary nested).Reaches (name.characters ++ '(' :: inner) 0 .closingParenthesis := by
  have hText : 0 < (name.characters ++ '(' :: inner).length := by simp
  have hReached :
      (call nested).Reaches (name.characters ++ '(' :: inner) 0 .closingParenthesis := by
    refine Reaches.named ?_ hText _
    exact Reaches.bind_result (hCall.bind _) (result_identifier name endsName_opening)
  refine Reaches.named ?_ hText _
  exact (hReached.orElse_left _).orElse_right (result_conditional_of_arguments name hConditional)

include hNested in
/-- Whichever of the forms it is, the missing parenthesis is looked for at the end of the text. -/
theorem Unclosed.reaches_primary (h : Unclosed text) (hSize : text.length ≤ size) :
    (primary nested).Reaches text 0 .closingParenthesis := by
  cases h with
  | parenthetical h =>
      have hOpening : Lexeme.startsName '(' = false := by decide
      have hReached := (reaches_parenthetical hNested h hSize).orElse_left number
      refine Reaches.named ?_ (Nat.succ_pos _) _
      refine ((hReached.orElse_right ?_).orElse_right ?_).orElse_right ?_
      · simp [reference, identifier, identifier?_eq_none hOpening]
      · simp [call, identifier, identifier?_eq_none hOpening]
      · simp [Grammar.conditional, result_literal_cons_ne]
  | @unaryCall text name h =>
      simp only [List.length_append, List.length_cons] at hSize
      have hText : text.length < size := by omega
      have hCall := reaches_callArguments_unary hNested h hText
      obtain ⟨derivation, hYields⟩ := h
      have hConditional :=
        result_conditionalArguments_unary hNested hYields hText closes_nil (by simp)
      rw [List.append_nil] at hConditional
      exact reaches_primary_of_arguments name hConditional hCall
  | @binaryCall first second name hFirst hSecond =>
      simp only [List.length_append, List.length_cons] at hSize
      have hFirstSize : first.length < size := by omega
      have hSecondSize : second.length < size := by omega
      have hCall := reaches_callArguments_binary hNested hFirst hSecond hFirstSize hSecondSize
      obtain ⟨_, hYieldsFirst⟩ := hFirst
      obtain ⟨_, hYieldsSecond⟩ := hSecond
      have hConditional := result_conditionalArguments_binary hNested hYieldsFirst hYieldsSecond
        hFirstSize hSecondSize closes_nil (by simp)
      rw [List.append_nil] at hConditional
      exact reaches_primary_of_arguments name hConditional hCall
  | @conditional first second third hFirst hSecond hThird =>
      simp only [List.length_append, List.length_cons] at hSize
      have hArguments := reaches_conditionalArguments hNested hFirst hSecond hThird
        (by omega) (by omega) (by omega)
      have hIf (tail : List Char) : (literal ['i', 'f']).result ('i' :: 'f' :: tail) =
          some ((), tail) := result_literal_eq_some.mpr rfl
      refine Reaches.named ?_ (Nat.succ_pos _) _
      refine Reaches.orElse_left (Reaches.named ?_ (Nat.succ_pos _) _) _
      exact Reaches.bind_result (hArguments.bind _) (hIf _)

include hNested in
/-- No layer of operators gets past an operand that is not closed. -/
theorem Unclosed.reaches_chains (h : Unclosed text) (hSize : text.length ≤ size)
    (layers : List Layer) :
    (layers.foldr chain (operand nested)).Reaches text 0 .closingParenthesis := by
  obtain ⟨c, others, rfl, hStarts⟩ := h.exists_cons
  have hText : 0 < (c :: others).length := Nat.succ_pos _
  induction layers with
  | nil =>
      have hMinus : c ≠ '-' := ne_of_startsPrimary hStarts (by decide) (by decide)
      have hOperand : (factorialOperand nested).Reaches (c :: others) 0 .closingParenthesis :=
        Reaches.named ((h.reaches_primary hNested hSize).bind _) hText _
      refine Reaches.named (hOperand.orElse_right ?_) hText _
      simp [negation, result_literal_cons_ne hMinus]
  | cons layer layers ih =>
      refine Reaches.named ?_ hText _
      refine Reaches.bind_result ?_ result_remainder
      exact ih.bind _

end Nested

/-- No layer around the operand reaches further than the operand itself. -/
theorem Unclosed.reaches_expression (h : Unclosed text) :
    expression.Reaches text 0 .closingParenthesis := by
  have hText : expression text = expressionWithin (text.length + 1) text := rfl
  rw [Reaches, hText]
  exact h.reaches_chains (expressionWithin_complete text.length) (Nat.le_refl _) Layer.all

/-- The text is first tried as an assignment, which changes nothing about the place. -/
theorem Unclosed.reaches_statement (h : Unclosed text) :
    statement.Reaches text 0 .closingParenthesis := by
  obtain ⟨c, others, hCons, hStarts⟩ := h.exists_cons
  have hSkip : Text.skipBlanks text = text := by
    rw [hCons, skipBlanks_cons (isBlank_of_startsPrimary hStarts)]
  refine Reaches.named (Reaches.blanks_bind ?_) (by simp [hCons]) _
  rw [hSkip]
  exact ((h.reaches_expression.bind _).orElse_right h.result_assignment_eq_none).bind _

/-! ### A closing parenthesis too many -/

/-- Where the text should end, a parenthesis is in the way. -/
theorem reaches_ending {found : Statement} (h : Text.skipBlanks rest = [')']) :
    (do blanks; endOfInput; pure found).Reaches rest 1 .endOfInput := by
  have hEnd : endOfInput.Reaches [')'] 1 .endOfInput := reaches_named_lexeme rfl _
  apply Reaches.blanks_bind
  rw [h]
  exact hEnd.bind _

theorem Sentence.Yields.length_pos {sentence : Sentence} (h : sentence.Yields text) :
    0 < text.length := by
  cases h with
  | assignment => simp
  | expression hBody =>
      cases hBody with
      | padded _ hInner _ =>
          obtain ⟨c, others, rfl, _⟩ := hInner.exists_cons
          simp

/-- After a whole sentence the end of the text is expected, where one more parenthesis stands. -/
theorem Sentence.Yields.reaches_statement {sentence : Sentence} (h : sentence.Yields text) :
    statement.Reaches (text ++ [')']) 1 .endOfInput := by
  refine Reaches.named (Reaches.blanks_bind ?_) (by simpa using h.length_pos) _
  have hCloses : Closes [')'] := closes_closing []
  cases h with
  | @assignment name body before after tail hBefore hAfter hBody =>
      obtain ⟨reading, remaining, hRead, hRemaining, _⟩ :=
        result_assignment name hAfter hBody hCloses
      simp only [List.append_assoc, List.cons_append]
      rw [hBefore.skipBlanks_append, name.skipBlanks_append]
      refine Reaches.bind_result (reaches_ending hRemaining) (a := .assignment name.text reading) ?_
      simp [hRead]
  | expression hBody =>
      obtain ⟨reading, remaining, hRead, hRemaining, _⟩ :=
        result_expression_padded hBody hCloses
      refine Reaches.bind_result (reaches_ending hRemaining) (a := .expression reading) ?_
      simp [result_assignment_eq_none hBody hCloses, hRead]

/-! ### What is said about the whole text -/

/-- A text that is not one of the grammar is rejected no earlier than at a place that was reached.
-/
theorem exists_read_of_reaches {text : String} {remaining : Nat} {production : Production}
    (h : statement.Reaches text.toList remaining production)
    (hLength : remaining ≤ text.toList.length)
    (hRejected : ∀ sentence : Sentence, ¬ sentence.Yields text.toList) :
    ∃ diagnostic, read text = .error diagnostic ∧
      (diagnostic.after.length < remaining ∨
        (diagnostic.after.length = remaining ∧ production ∈ diagnostic.tried)) := by
  cases hRead : read text with
  | ok found =>
      obtain ⟨sentence, hYields⟩ := read_isOk_iff.mp ⟨found, hRead⟩
      exact absurd hYields (hRejected sentence)
  | error diagnostic =>
      refine ⟨diagnostic, rfl, ?_⟩
      unfold read at hRead
      dsimp only at hRead
      split at hRead
      · cases hRead
      · next attempts hStatement =>
          cases hRead
          rw [Reaches, hStatement] at h
          cases attempts with
          | nothing => exact absurd h id
          | furthest further first others =>
              simp only [Attempts.Reach] at h
              simp only [Attempts.remaining, Attempts.productions, List.length_drop]
              rcases h with hFurther | ⟨hHere, hTried⟩
              · exact Or.inl (by omega)
              · exact Or.inr ⟨by omega, hTried⟩

/-- A parenthesis that is missing at the end is looked for there. -/
theorem Unclosed.exists_read {text : String} (h : Unclosed text.toList) :
    ∃ diagnostic, read text = .error diagnostic ∧ diagnostic.before = text.toList ∧
      .closingParenthesis ∈ diagnostic.tried := by
  obtain ⟨diagnostic, hRead, hPlace⟩ :=
    exists_read_of_reaches h.reaches_statement (Nat.zero_le _) h.not_yields
  obtain ⟨hAfter, hTried⟩ := hPlace.resolve_left (Nat.not_lt_zero _)
  obtain ⟨hText, _⟩ := beginsSentence_of_read_eq_error hRead
  rw [List.length_eq_zero_iff.mp hAfter, List.append_nil] at hText
  exact ⟨diagnostic, hRead, hText.symm, hTried⟩

/-- After a whole text, a parenthesis that closes nothing is where the end was looked for. No place
after it is reached, because no text of the grammar begins with it there. -/
theorem Sentence.Yields.exists_read_unopened {sentence : Sentence} {text : String}
    (h : sentence.Yields text.toList) :
    ∃ diagnostic, read (text ++ ")") = .error diagnostic ∧ diagnostic.before = text.toList ∧
      .endOfInput ∈ diagnostic.tried := by
  have hWhole : (text ++ ")").toList = text.toList ++ [')'] := String.toList_append
  have hReaches := h.reaches_statement
  rw [← hWhole] at hReaches
  have hRejected (other : Sentence) : ¬ other.Yields (text ++ ")").toList := fun hOther =>
    not_yields_of_unopened h.balanced other [] (by rwa [List.append_nil, ← hWhole])
  obtain ⟨diagnostic, hRead, hPlace⟩ := exists_read_of_reaches hReaches (by simp) hRejected
  obtain ⟨hText, more, other, hOther⟩ := beginsSentence_of_read_eq_error hRead
  rw [hWhole] at hText
  obtain ⟨hAfter, hTried⟩ := hPlace.resolve_left fun hFurther => by
    have hEmpty : diagnostic.after = [] := List.length_eq_zero_iff.mp (by omega)
    rw [hEmpty, List.append_nil] at hText
    exact not_yields_of_unopened h.balanced other more (by rwa [hText])
  exact ⟨diagnostic, hRead, (List.append_inj_left' hText hAfter.symm).symm, hTried⟩

end Formula.Grammar
