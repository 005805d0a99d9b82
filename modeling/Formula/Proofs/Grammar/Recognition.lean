import Formula.Proofs.Grammar.Completeness

/-! A text has one derivation only, up to the places of its white space. Where two productions could
be meant, the parser has read the same expression for both, and that tells them apart. -/

namespace Formula.Grammar

section Unambiguity

open Formula.Grammar.Parser

variable {text text' rest rest' : List Char}

def Phrase.Ends : Phrase → List Char → Prop
  | .padded, rest => Closes rest
  | .layers chained, rest => chained.Nodup ∧ Stops chained rest
  | .links layer tighter, rest => (layer :: tighter).Nodup ∧ Stops (layer :: tighter) rest
  | .factorialOperand, rest => EndsOperand rest
  | .primary, rest => EndsPrimary rest

/-- Two derivations of a primary at one place stand for the same expression and have the same text. -/
theorem primary_agree {first second : Derivation .primary} (hFirst : first.Yields text)
    (hSecond : second.Yields text') (hRest : EndsPrimary rest) (hRest' : EndsPrimary rest')
    (hText : text ++ rest = text' ++ rest') :
    first.interpret .written = second.interpret .written ∧ rest = rest' := by
  have hNested : Complete Layer.all (text.length + text'.length)
      (expressionWithin (text.length + text'.length)) := expressionWithin_complete _
  obtain ⟨reading, hRead, hExpr⟩ := primary_complete hNested hFirst (by omega) hRest
  obtain ⟨reading', hRead', hExpr'⟩ := primary_complete hNested hSecond (by omega) hRest'
  rw [hText, hRead', Option.some.injEq, Prod.mk.injEq] at hRead
  obtain ⟨rfl, rfl⟩ := hRead
  exact ⟨hExpr.symm.trans hExpr', rfl⟩

/-- Two rows of links at one place join the same expressions by the same operators. -/
theorem links_agree {layer : Layer} {tighter : List Layer}
    {first second : Derivation (.links layer tighter)} (hFirst : first.Yields text)
    (hSecond : second.Yields text') (hLayers : (layer :: tighter).Nodup)
    (hRest : Stops (layer :: tighter) rest) (hRest' : Stops (layer :: tighter) rest')
    (hText : text ++ rest = text' ++ rest') :
    first.interpret .written = second.interpret .written := by
  obtain ⟨hLayer, hTighter⟩ := List.nodup_cons.mp hLayers
  have hItem : Complete tighter (text.length + text'.length + 1)
      (tighter.foldr chain (operand (expressionWithin (text.length + text'.length)))) :=
    chains_complete (expressionWithin_complete _) hTighter
  obtain ⟨bound, hFirstBound, hSecondBound⟩ : ∃ bound,
      (text.length ≤ bound ∨ (layer = .comparison ∧ bound = 1)) ∧
        (text'.length ≤ bound ∨ (layer = .comparison ∧ bound = 1)) :=
    ⟨text.length + text'.length, Or.inl (by omega), Or.inl (by omega)⟩
  obtain ⟨found, remaining, hFound, _, hExprs⟩ :=
    links_complete hItem hLayer hFirst (by omega) hRest hFirstBound rfl
  obtain ⟨found', remaining', hFound', _, hExprs'⟩ :=
    links_complete hItem hLayer hSecond (by omega) hRest' hSecondBound (congrArg _ hText)
  rw [hFound, Option.some.injEq, Prod.mk.injEq] at hFound'
  obtain ⟨rfl, _⟩ := hFound'
  exact hExprs.symm.trans hExprs'

theorem Name.first_ne_opening (name : Name) : name.first ≠ '(' :=
  ne_of_continuesName (continuesName_of_startsName name.starts) (by decide)

theorem Numeral.head_ne_opening (numeral : Numeral) {tail tail' : List Char} :
    numeral.characters ++ tail ≠ '(' :: tail' := by
  obtain ⟨c, others, hCharacters, hDigit⟩ := numeral.exists_cons
  intro h
  rw [hCharacters] at h
  rw [(List.cons.inj h).1] at hDigit
  exact absurd hDigit (by decide)

/-- Where two operators stand between white space and expressions, they and what comes after them are
the same. -/
theorem spelling_cancel {layer : Layer} {layers : List Layer} {spelling other : Spelling layer}
    {item item' : Derivation (.layers layers)} {before after before' after' : List Char}
    (hBefore : Blank before) (hAfter : Blank after) (hItem : item.Yields text)
    (hBefore' : Blank before') (hAfter' : Blank after') (hItem' : item'.Yields text')
    (h : before ++ (spelling.characters ++ (after ++ (text ++ rest))) =
      before' ++ (other.characters ++ (after' ++ (text' ++ rest')))) :
    spelling = other ∧ text ++ rest = text' ++ rest' := by
  have hSpellings := congrArg Text.skipBlanks h
  rw [hBefore.skipBlanks_append, hBefore'.skipBlanks_append, spelling.skipBlanks_append,
    other.skipBlanks_append] at hSpellings
  obtain ⟨hSpelling, hTail⟩ := Spelling.append_cancel (hItem.head?_ne_equals hAfter)
    (hItem'.head?_ne_equals hAfter') hSpellings
  have hItems := congrArg Text.skipBlanks hTail
  rw [hAfter.skipBlanks_append, hAfter'.skipBlanks_append, hItem.skipBlanks_append,
    hItem'.skipBlanks_append] at hItems
  exact ⟨hSpelling, hItems⟩

/-! ### One production after the other -/

/-- No other derivation of the phrase has a text at the same place, and this one ends at one place. -/
def Derivation.Determined {phrase : Phrase} (first : Derivation phrase) (text : List Char) : Prop :=
  ∀ {second : Derivation phrase} {text' rest rest' : List Char}, second.Yields text' →
    phrase.Ends rest → phrase.Ends rest' → text ++ rest = text' ++ rest' →
      first = second ∧ rest = rest'

namespace Derivation.Determined

/-- The white space around an expression is not part of its derivation. -/
theorem padded {inner : Derivation .expression} {before after : List Char} (hBefore : Blank before)
    (hInner : inner.Yields text) (hAfter : Blank after) (h : inner.Determined text) :
    (Derivation.padded inner).Determined (before ++ text ++ after) := by
  intro second text' rest rest' hSecond hRest hRest' hText
  cases hSecond with
  | padded hBefore' hInner' hAfter' =>
      have hSkip := congrArg Text.skipBlanks hText
      simp only [List.append_assoc] at hSkip
      rw [hBefore.skipBlanks_append, hBefore'.skipBlanks_append, hInner.skipBlanks_append,
        hInner'.skipBlanks_append] at hSkip
      obtain ⟨rfl, hTail⟩ := h hInner' ⟨by decide, hRest.stops hAfter⟩
        ⟨by decide, hRest'.stops hAfter'⟩ hSkip
      have hRests := congrArg Text.skipBlanks hTail
      rw [hAfter.skipBlanks_append, hAfter'.skipBlanks_append, hRest.skipBlanks_eq,
        hRest'.skipBlanks_eq] at hRests
      exact ⟨rfl, hRests⟩

section Chains

variable {layer : Layer} {tighter : List Layer}

/-- A chain is determined by its first operand and its links, since the operand is read as far as
possible. -/
theorem chain {first : Derivation (.layers tighter)} {links : Derivation (.links layer tighter)}
    {head tail : List Char} (hLinks : links.Yields tail) (h : first.Determined head)
    (hMore : links.Determined tail) : (Derivation.chain first links).Determined (head ++ tail) := by
  intro second text' rest rest' hSecond hRest hRest' hText
  cases hSecond with
  | chain hFirst' hLinks' =>
      obtain ⟨hLayer, hTighter⟩ := List.nodup_cons.mp hRest.1
      rw [List.append_assoc, List.append_assoc] at hText
      obtain ⟨rfl, hTail⟩ := h hFirst' ⟨hTighter, hLinks.stops_links hLayer hRest.2⟩
        ⟨hTighter, hLinks'.stops_links hLayer hRest'.2⟩ hText
      obtain ⟨rfl, hRests⟩ := hMore hLinks' hRest hRest' hTail
      exact ⟨rfl, hRests⟩

theorem done : (Derivation.done : Derivation (.links layer tighter)).Determined [] := by
  intro second text' rest rest' hSecond hRest hRest' hText
  have hAgree := links_agree .done hSecond hRest.1 hRest.2 hRest'.2 hText
  cases hSecond with
  | done => exact ⟨rfl, hText⟩
  | link | comparison => simp [Derivation.interpret] at hAgree

/-- The spelling of the operator comes first, and the operand ends where the next link begins. -/
theorem link {repeats : layer ≠ .comparison} {spelling : Spelling layer}
    {item : Derivation (.layers tighter)} {more : Derivation (.links layer tighter)}
    {before after body tail : List Char} (hBefore : Blank before) (hAfter : Blank after)
    (hItem : item.Yields body) (hMore : more.Yields tail) (h : item.Determined body)
    (hTail : more.Determined tail) :
    (Derivation.link repeats spelling item more).Determined
      (before ++ (spelling.characters ++ (after ++ (body ++ tail)))) := by
  intro second text' rest rest' hSecond hRest hRest' hText
  have hFirst : (Derivation.link repeats spelling item more).Yields
      (before ++ (spelling.characters ++ (after ++ (body ++ tail)))) :=
    .link hBefore hAfter hItem hMore
  have hAgree := links_agree hFirst hSecond hRest.1 hRest.2 hRest'.2 hText
  cases hSecond with
  | done => simp [Derivation.interpret] at hAgree
  | link hBefore' hAfter' hItem' hMore' =>
      obtain ⟨hLayer, hTighter⟩ := List.nodup_cons.mp hRest.1
      simp only [List.append_assoc] at hText
      obtain ⟨rfl, hItems⟩ :=
        spelling_cancel hBefore hAfter hItem hBefore' hAfter' hItem' hText
      obtain ⟨rfl, hMores⟩ := h hItem' ⟨hTighter, hMore.stops_links hLayer hRest.2⟩
        ⟨hTighter, hMore'.stops_links hLayer hRest'.2⟩ hItems
      obtain ⟨rfl, hRests⟩ := hTail hMore' hRest hRest' hMores
      exact ⟨rfl, hRests⟩
  | comparison => exact absurd rfl repeats

theorem comparison {spelling : Spelling .comparison} {item : Derivation (.layers tighter)}
    {before after body : List Char} (hBefore : Blank before) (hAfter : Blank after)
    (hItem : item.Yields body) (h : item.Determined body) :
    (Derivation.comparison spelling item).Determined
      (before ++ (spelling.characters ++ (after ++ body))) := by
  intro second text' rest rest' hSecond hRest hRest' hText
  have hFirst : (Derivation.comparison spelling item).Yields
      (before ++ (spelling.characters ++ (after ++ body))) := .comparison hBefore hAfter hItem
  have hAgree := links_agree hFirst hSecond hRest.1 hRest.2 hRest'.2 hText
  cases hSecond with
  | done => simp [Derivation.interpret] at hAgree
  | @link _ _ repeats => exact absurd rfl repeats
  | comparison hBefore' hAfter' hItem' =>
      obtain ⟨hLayer, hTighter⟩ := List.nodup_cons.mp hRest.1
      simp only [List.append_assoc] at hText
      obtain ⟨rfl, hItems⟩ :=
        spelling_cancel hBefore hAfter hItem hBefore' hAfter' hItem' hText
      obtain ⟨rfl, hRests⟩ := h hItem'
        ⟨hTighter, Derivation.Yields.done.stops_links hLayer hRest.2⟩
        ⟨hTighter, Derivation.Yields.done.stops_links hLayer hRest'.2⟩ hItems
      exact ⟨rfl, hRests⟩

end Chains

/-- An operand without a sign cannot be one with a sign. -/
theorem operand {inner : Derivation .factorialOperand} (hInner : inner.Yields text)
    (h : inner.Determined text) : (Derivation.operand inner).Determined text := by
  intro second text' rest rest' hSecond hRest hRest' hText
  cases hSecond with
  | operand hInner' =>
      obtain ⟨rfl, hRests⟩ := h hInner' hRest.2.operand hRest'.2.operand hText
      exact ⟨rfl, hRests⟩
  | negation =>
      obtain ⟨c, others, rfl, hStarts⟩ := hInner.exists_cons_of_factorialOperand
      exact absurd (List.cons.inj hText).1 (ne_of_startsPrimary hStarts (by decide) (by decide))

theorem negation {inner : Derivation .factorialOperand} (h : inner.Determined text) :
    (Derivation.negation inner).Determined ('-' :: text) := by
  intro second text' rest rest' hSecond hRest hRest' hText
  cases hSecond with
  | operand hInner' =>
      obtain ⟨c, others, rfl, hStarts⟩ := hInner'.exists_cons_of_factorialOperand
      exact absurd (List.cons.inj hText).1.symm
        (ne_of_startsPrimary hStarts (by decide) (by decide))
  | negation hInner' =>
      obtain ⟨rfl, hRests⟩ := h hInner' hRest.2.operand hRest'.2.operand (List.cons.inj hText).2
      exact ⟨rfl, hRests⟩

theorem plain {inner : Derivation .primary} (h : inner.Determined text) :
    (Derivation.plain inner).Determined text := by
  intro second text' rest rest' hSecond hRest hRest' hText
  cases hSecond with
  | plain hInner' =>
      obtain ⟨rfl, hRests⟩ := h hInner' hRest.1 hRest'.1 hText
      exact ⟨rfl, hRests⟩
  | factorial hInner' =>
      rw [List.append_assoc] at hText
      obtain ⟨_, rfl⟩ := h hInner' hRest.1 (endsPrimary_mark _) hText
      exact absurd rfl hRest.2

/-- The mark is the last character, which no operand without a mark has. -/
theorem factorial {inner : Derivation .primary} (h : inner.Determined text) :
    (Derivation.factorial inner).Determined (text ++ ['!']) := by
  intro second text' rest rest' hSecond hRest hRest' hText
  rw [List.append_assoc] at hText
  cases hSecond with
  | plain hInner' =>
      obtain ⟨_, rfl⟩ := h hInner' (endsPrimary_mark _) hRest'.1 hText
      exact absurd rfl hRest'.2
  | factorial hInner' =>
      rw [List.append_assoc] at hText
      obtain ⟨rfl, hRests⟩ := h hInner' (endsPrimary_mark _) (endsPrimary_mark _) hText
      exact ⟨rfl, (List.cons.inj hRests).2⟩

/-- No call named `if` has three arguments. -/
theorem conditional {condition whenTrue otherwise : Derivation .padded}
    {first second third : List Char} (hCondition : condition.Yields first)
    (hWhenTrue : whenTrue.Yields second) (hOtherwise : otherwise.Yields third)
    (hFirst : condition.Determined first) (hSecond : whenTrue.Determined second)
    (hThird : otherwise.Determined third) :
    (Derivation.conditional condition whenTrue otherwise).Determined
      ('i' :: 'f' :: '(' :: (first ++ ',' :: (second ++ ',' :: (third ++ [')'])))) := by
  intro other text' rest rest' hOther hRest hRest' hText
  have hYields := Derivation.Yields.conditional hCondition hWhenTrue hOtherwise
  obtain ⟨hAgree, rfl⟩ := primary_agree hYields hOther hRest hRest' hText
  cases hOther with
  | conditional hCondition' hWhenTrue' hOtherwise' =>
      simp only [List.cons_append, List.append_assoc, List.cons.injEq, true_and] at hText
      obtain ⟨rfl, hTail⟩ := hFirst hCondition' (closes_comma _) (closes_comma _) hText
      obtain ⟨rfl, hTail⟩ :=
        hSecond hWhenTrue' (closes_comma _) (closes_comma _) (List.cons.inj hTail).2
      obtain ⟨rfl, _⟩ :=
        hThird hOtherwise' (closes_closing _) (closes_closing _) (List.cons.inj hTail).2
      exact ⟨rfl, rfl⟩
  | parenthetical => simp at hText
  | binaryCall | unaryCall | var | number =>
      simp [Derivation.interpret, Interpretation.written] at hAgree

/-- The comma between the arguments is the one that is in neither of them. -/
theorem binaryCall {name : Name} {first second : Derivation .padded} {head tail : List Char}
    (hFirst : first.Yields head) (hSecond : second.Yields tail) (hHead : first.Determined head)
    (hTail : second.Determined tail) :
    (Derivation.binaryCall name first second).Determined
      (name.characters ++ '(' :: (head ++ ',' :: (tail ++ [')']))) := by
  intro other text' rest rest' hOther hRest hRest' hText
  have hYields : (Derivation.binaryCall name first second).Yields
      (name.characters ++ '(' :: (head ++ ',' :: (tail ++ [')']))) := .binaryCall hFirst hSecond
  obtain ⟨hAgree, rfl⟩ := primary_agree hYields hOther hRest hRest' hText
  cases hOther with
  | binaryCall hFirst' hSecond' =>
      simp only [List.cons_append, List.append_assoc] at hText
      obtain ⟨rfl, hArguments⟩ := Name.append_cancel endsName_opening endsName_opening hText
      obtain ⟨rfl, hMore⟩ :=
        hHead hFirst' (closes_comma _) (closes_comma _) (List.cons.inj hArguments).2
      obtain ⟨rfl, _⟩ :=
        hTail hSecond' (closes_closing _) (closes_closing _) (List.cons.inj hMore).2
      exact ⟨rfl, rfl⟩
  | parenthetical => exact absurd (List.cons.inj hText).1 name.first_ne_opening
  | conditional | unaryCall | var | number =>
      simp [Derivation.interpret, Interpretation.written] at hAgree

/-- A call with one argument has no comma of its own. -/
theorem unaryCall {name : Name} {argument : Derivation .padded} (hArgument : argument.Yields text)
    (h : argument.Determined text) :
    (Derivation.unaryCall name argument).Determined
      (name.characters ++ '(' :: (text ++ [')'])) := by
  intro other text' rest rest' hOther hRest hRest' hText
  have hYields : (Derivation.unaryCall name argument).Yields
      (name.characters ++ '(' :: (text ++ [')'])) := .unaryCall hArgument
  obtain ⟨hAgree, rfl⟩ := primary_agree hYields hOther hRest hRest' hText
  cases hOther with
  | unaryCall hArgument' =>
      simp only [List.cons_append, List.append_assoc] at hText
      obtain ⟨rfl, hArguments⟩ := Name.append_cancel endsName_opening endsName_opening hText
      obtain ⟨rfl, _⟩ :=
        h hArgument' (closes_closing _) (closes_closing _) (List.cons.inj hArguments).2
      exact ⟨rfl, rfl⟩
  | parenthetical => exact absurd (List.cons.inj hText).1 name.first_ne_opening
  | conditional | binaryCall | var | number =>
      simp [Derivation.interpret, Interpretation.written] at hAgree

/-- A name alone is not the beginning of a call, because nothing follows it. -/
theorem var (name : Name) : (Derivation.var name).Determined name.characters := by
  intro other text' rest rest' hOther hRest hRest' hText
  obtain ⟨hAgree, rfl⟩ := primary_agree (.var name) hOther hRest hRest' hText
  cases hOther with
  | var name' =>
      obtain ⟨rfl, _⟩ := Name.append_cancel hRest.1 hRest.1 hText
      exact ⟨rfl, rfl⟩
  | parenthetical => exact absurd (List.cons.inj hText).1 name.first_ne_opening
  | conditional | binaryCall | unaryCall | number =>
      simp [Derivation.interpret, Interpretation.written] at hAgree

theorem parenthetical {inner : Derivation .padded} (h : inner.Determined text) :
    (Derivation.parenthetical inner).Determined ('(' :: (text ++ [')'])) := by
  intro other text' rest rest' hOther hRest hRest' hText
  cases hOther with
  | parenthetical hInner' =>
      simp only [List.cons_append, List.append_assoc, List.cons.injEq, true_and] at hText
      obtain ⟨rfl, hTail⟩ := h hInner' (closes_closing _) (closes_closing _) hText
      exact ⟨rfl, (List.cons.inj hTail).2⟩
  | conditional => simp at hText
  | @binaryCall name | @unaryCall name | var name =>
      exact absurd (List.cons.inj hText).1.symm name.first_ne_opening
  | number numeral => exact absurd hText.symm numeral.head_ne_opening

/-- A number begins with a digit, which no name does. -/
theorem number (numeral : Numeral) : (Derivation.number numeral).Determined numeral.characters := by
  intro other text' rest rest' hOther hRest hRest' hText
  obtain ⟨hAgree, rfl⟩ := primary_agree (.number numeral) hOther hRest hRest' hText
  cases hOther with
  | number numeral' =>
      obtain ⟨rfl, _⟩ := Numeral.append_cancel hRest.1 hRest.1 hText
      exact ⟨rfl, rfl⟩
  | parenthetical => exact absurd hText numeral.head_ne_opening
  | conditional | binaryCall | unaryCall | var =>
      simp [Derivation.interpret, Interpretation.written] at hAgree

end Derivation.Determined

/-- Derivations are determined by their texts. -/
theorem Derivation.Yields.determined {phrase : Phrase} {derivation : Derivation phrase}
    (h : derivation.Yields text) : derivation.Determined text := by
  induction h with
  | padded hBefore hInner hAfter ih => exact Determined.padded hBefore hInner hAfter ih
  | chain _ hLinks ihFirst ihLinks => exact Determined.chain hLinks ihFirst ihLinks
  | done => exact Determined.done
  | link hBefore hAfter hItem hMore ihItem ihMore =>
      exact Determined.link hBefore hAfter hItem hMore ihItem ihMore
  | comparison hBefore hAfter hItem ih => exact Determined.comparison hBefore hAfter hItem ih
  | operand hInner ih => exact Determined.operand hInner ih
  | negation _ ih => exact Determined.negation ih
  | plain _ ih => exact Determined.plain ih
  | factorial _ ih => exact Determined.factorial ih
  | conditional hCondition hWhenTrue hOtherwise ihCondition ihTrue ihOtherwise =>
      exact Determined.conditional hCondition hWhenTrue hOtherwise ihCondition ihTrue ihOtherwise
  | binaryCall hFirst hSecond ihFirst ihSecond =>
      exact Determined.binaryCall hFirst hSecond ihFirst ihSecond
  | unaryCall hArgument ih => exact Determined.unaryCall hArgument ih
  | var name => exact Determined.var name
  | parenthetical _ ih => exact Determined.parenthetical ih
  | number numeral => exact Determined.number numeral

/-! ### Whole texts -/

/-- Where a text begins with a name and an equals sign, an assignment of the rest is one to that name. -/
theorem Sentence.yields_assignment_iff {name other : Name} {body : Derivation .padded}
    {before between : List Char} (hBefore : Blank before) (hBetween : Blank between) :
    (Sentence.assignment other body).Yields (before ++ (name.characters ++ (between ++ '=' :: text))) ↔
      other = name ∧ body.Yields text := by
  constructor
  · intro h
    generalize hText : before ++ (name.characters ++ (between ++ '=' :: text)) = whole at h
    cases h with
    | assignment hBefore' hBetween' hBody =>
        have hNames := congrArg Text.skipBlanks hText
        rw [hBefore.skipBlanks_append, hBefore'.skipBlanks_append, name.skipBlanks_append,
          other.skipBlanks_append] at hNames
        obtain ⟨rfl, hTail⟩ := Name.append_cancel (endsName_of_blank_equals hBetween _)
          (endsName_of_blank_equals hBetween' _) hNames
        have hBodies := congrArg Text.skipBlanks hTail
        rw [hBetween.skipBlanks_append, hBetween'.skipBlanks_append, skipBlanks_cons (by decide),
          skipBlanks_cons (by decide), List.cons.injEq] at hBodies
        exact ⟨rfl, hBodies.2 ▸ hBody⟩
  · rintro ⟨rfl, hBody⟩
    exact .assignment hBefore hBetween hBody

/-- The name ends at the first equals sign, and the body is what comes after it. -/
theorem assignment_unique {name name' : Name} {body body' : Derivation .padded}
    (hFirst : (Sentence.assignment name body).Yields text)
    (hSecond : (Sentence.assignment name' body').Yields text) : name = name' ∧ body = body' := by
  cases hFirst with
  | assignment hBefore hBetween hBody =>
      obtain ⟨rfl, hBody'⟩ := (Sentence.yields_assignment_iff hBefore hBetween).mp hSecond
      obtain ⟨rfl, _⟩ := hBody.determined hBody' closes_nil closes_nil rfl
      exact ⟨rfl, rfl⟩

/-- A whole text is derived in one way at most. -/
theorem Sentence.Yields.unique {first second : Sentence} (hFirst : first.Yields text)
    (hSecond : second.Yields text) : first = second := by
  obtain ⟨found, hFound, hFirstDescribes⟩ := statement_complete hFirst
  obtain ⟨found', hFound', hSecondDescribes⟩ := statement_complete hSecond
  rw [hFound, Option.some.injEq, Prod.mk.injEq] at hFound'
  obtain ⟨rfl, _⟩ := hFound'
  match first, second, found with
  | .assignment _ _, .assignment _ _, _ =>
      obtain ⟨rfl, rfl⟩ := assignment_unique hFirst hSecond
      rfl
  | .expression _, .expression _, _ =>
      cases hFirst with
      | expression hBody =>
          cases hSecond with
          | expression hBody' =>
              obtain ⟨rfl, _⟩ := hBody.determined hBody' closes_nil closes_nil rfl
              rfl
  -- The statement that was read is of one kind only.
  | .assignment _ _, .expression _, .assignment _ _ => exact absurd hSecondDescribes id
  | .assignment _ _, .expression _, .expression _ => exact absurd hFirstDescribes id
  | .expression _, .assignment _ _, .assignment _ _ => exact absurd hFirstDescribes id
  | .expression _, .assignment _ _, .expression _ => exact absurd hSecondDescribes id

end Unambiguity

/-! The grammar says which texts are read and what is read from them. -/

variable {text : String} {sentence : Sentence} {found : Statement} {parts : Interpretation Term}

/-- What is read is described by a sentence that is spelled as the text is. -/
theorem exists_sentence_of_read (h : read text = .ok found) :
    ∃ sentence : Sentence, sentence.Yields text.toList ∧ sentence.Describes found := by
  obtain ⟨_, hFound⟩ := read_eq_ok_iff.mp h
  exact statement_sound hFound

/-- Every text of the grammar is read, and read as its sentence says. -/
theorem exists_read_of_yields (h : sentence.Yields text.toList) :
    ∃ found, read text = .ok found ∧ sentence.Describes found := by
  obtain ⟨found, hFound, hDescribes⟩ := statement_complete h
  exact ⟨found, read_eq_ok_iff.mpr ⟨[], hFound⟩, hDescribes⟩

/-- A text is read exactly if it can be derived. -/
theorem read_isOk_iff : (∃ found, read text = .ok found) ↔
    ∃ sentence : Sentence, sentence.Yields text.toList := by
  constructor
  · rintro ⟨found, hRead⟩
    obtain ⟨sentence, hYields, _⟩ := exists_sentence_of_read hRead
    exact ⟨sentence, hYields⟩
  · rintro ⟨sentence, hYields⟩
    obtain ⟨found, hRead, _⟩ := exists_read_of_yields hYields
    exact ⟨found, hRead⟩

theorem Sentence.yields_expression_iff {body : Derivation .padded} {text : List Char} :
    (Sentence.expression body).Yields text ↔ body.Yields text := by
  constructor
  · intro h
    cases h with
    | expression hBody => exact hBody
  · exact .expression

def IsIdentifier (text : String) : Prop :=
  identifier.result text.toList = some (text, [])

instance : Decidable (IsIdentifier text) :=
  inferInstanceAs (Decidable (_ = _))

/-- What the parser reads as a name up to its end is a name of the grammar. -/
theorem IsIdentifier.exists_name (h : IsIdentifier text) :
    ∃ name : Name, name.characters = text.toList ∧ name.text = text := by
  obtain ⟨name, hText, hSpelled, _⟩ := identifier_sound h
  exact ⟨name, by rw [hText, List.append_nil], hSpelled.symm⟩

/-- A text that is read as an expression, and not as an assignment of one. -/
def IsExpression (text : String) : Prop :=
  ∃ reading, read text = .ok (.expression reading)

/-- The texts that are read as expressions are those that the grammar derives as such. -/
theorem isExpression_iff : IsExpression text ↔
    ∃ body : Derivation .padded, body.Yields text.toList := by
  constructor
  · rintro ⟨reading, hRead⟩
    obtain ⟨sentence, hYields, hDescribes⟩ := exists_sentence_of_read hRead
    cases sentence with
    | assignment => exact absurd hDescribes id
    | expression body => exact ⟨body, Sentence.yields_expression_iff.mp hYields⟩
  · rintro ⟨body, hBody⟩
    obtain ⟨found, hRead, hDescribes⟩ := exists_read_of_yields (.expression hBody)
    cases found with
    | assignment => exact absurd hDescribes id
    | expression reading => exact ⟨reading, hRead⟩

instance : Decidable (IsExpression text) :=
  match hRead : read text with
  | .ok (.expression reading) => .isTrue ⟨reading, hRead⟩
  | .ok (.assignment _ _) | .error _ => .isFalse (by simp [IsExpression, hRead])

def IsAssignment (text : String) : Prop :=
  ∃ name reading, read text = .ok (.assignment name reading)

instance : Decidable (IsAssignment text) :=
  match hRead : read text with
  | .ok (.assignment name reading) => .isTrue ⟨name, reading, hRead⟩
  | .ok (.expression _) | .error _ => .isFalse (by simp [IsAssignment, hRead])

theorem isAssignment_iff : IsAssignment text ↔
    ∃ (name : Name) (body : Derivation .padded), (Sentence.assignment name body).Yields text.toList := by
  constructor
  · rintro ⟨name, reading, hRead⟩
    obtain ⟨sentence, hYields, hDescribes⟩ := exists_sentence_of_read hRead
    cases sentence with
    | assignment name body => exact ⟨name, body, hYields⟩
    | expression => exact absurd hDescribes id
  · rintro ⟨name, body, hYields⟩
    obtain ⟨found, hRead, hDescribes⟩ := exists_read_of_yields hYields
    cases found with
    | assignment name reading => exact ⟨name, reading, hRead⟩
    | expression => exact absurd hDescribes id

theorem Sentence.Yields.isExpression {body : Derivation .padded}
    (h : (Sentence.expression body).Yields text.toList) : IsExpression text :=
  isExpression_iff.mpr ⟨body, yields_expression_iff.mp h⟩

theorem Sentence.Yields.isAssignment {name : Name} {body : Derivation .padded}
    (h : (Sentence.assignment name body).Yields text.toList) : IsAssignment text :=
  isAssignment_iff.mpr ⟨name, body, h⟩

/-- No text is an expression and an assignment. -/
theorem IsExpression.not_isAssignment (h : IsExpression text) : ¬ IsAssignment text := by
  rintro ⟨name, reading, hRead⟩
  obtain ⟨body, hOther⟩ := h
  simp [hRead] at hOther

/-- Whatever is made of an expression as it is written is what is made of its derivation. -/
theorem ofExpr_interpret_written (body : Derivation .padded) :
    parts.ofExpr (body.interpret .written) = body.interpret parts :=
  body.mapMeaning_interpret parts

/-- To read an expression and then look its names up is the same as to look them up while it is read.
-/
theorem resolve_interpret_written (scope : Scope) (body : Derivation .padded) :
    Expr.resolve scope (body.interpret .written) = body.interpret (.folded scope) := by
  rw [← Interpretation.ofExpr_folded, ofExpr_interpret_written]

end Formula.Grammar
