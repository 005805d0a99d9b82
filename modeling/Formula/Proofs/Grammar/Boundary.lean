import Formula.Proofs.Grammar.Lexical

/-! Where the phrases of the grammar begin and end. An operand begins with a character that no
operator could go on with, and what follows a phrase can neither extend it nor be an operator in it. -/

namespace Formula.Grammar

variable {text rest : List Char} {c : Char} {layers : List Layer}

def startsPrimary (c : Char) : Prop :=
  c = '(' ∨ c.isDigit = true ∨ Lexeme.startsName c = true

theorem isBlank_of_startsPrimary (h : startsPrimary c) : Text.isBlank c = false := by
  rcases h with rfl | hDigit | hName
  · decide
  · exact isBlank_of_continuesName (continuesName_of_isDigit hDigit)
  · exact isBlank_of_continuesName (continuesName_of_startsName hName)

/-- No operand begins with punctuation other than a parenthesis. -/
theorem ne_of_startsPrimary {d : Char} (h : startsPrimary c) (hName : Lexeme.continuesName d = false)
    (hOther : d ≠ '(') : c ≠ d := by
  rcases h with rfl | hDigit | hStarts
  · exact hOther.symm
  · exact ne_of_continuesName (continuesName_of_isDigit hDigit) hName
  · exact ne_of_continuesName (continuesName_of_startsName hStarts) hName

namespace Derivation.Yields

/-- An operand is not empty, and its first character shows that it is one. -/
theorem exists_cons_of_primary {derivation : Derivation .primary} (h : derivation.Yields text) :
    ∃ c others, text = c :: others ∧ startsPrimary c := by
  cases h with
  | conditional => exact ⟨_, _, rfl, Or.inr (Or.inr (by decide))⟩
  | @binaryCall name => exact ⟨_, _, rfl, Or.inr (Or.inr name.starts)⟩
  | @unaryCall name => exact ⟨_, _, rfl, Or.inr (Or.inr name.starts)⟩
  | var name => exact ⟨_, _, rfl, Or.inr (Or.inr name.starts)⟩
  | parenthetical => exact ⟨_, _, rfl, Or.inl rfl⟩
  | number numeral =>
      obtain ⟨c, others, hCharacters, hDigit⟩ := numeral.exists_cons
      exact ⟨c, others, hCharacters, Or.inr (Or.inl hDigit)⟩

theorem exists_cons_of_factorialOperand {derivation : Derivation .factorialOperand}
    (h : derivation.Yields text) : ∃ c others, text = c :: others ∧ startsPrimary c := by
  cases h with
  | plain hInner => exact hInner.exists_cons_of_primary
  | factorial hInner =>
      obtain ⟨c, others, rfl, hStarts⟩ := hInner.exists_cons_of_primary
      exact ⟨c, _, rfl, hStarts⟩

/-- An expression begins neither with white space nor with an equals sign. -/
theorem exists_cons {derivation : Derivation (.layers layers)} (h : derivation.Yields text) :
    ∃ c others, text = c :: others ∧ Text.isBlank c = false ∧ c ≠ '=' := by
  induction layers generalizing text with
  | nil =>
      cases h with
      | negation => exact ⟨_, _, rfl, by decide, by decide⟩
      | operand hInner =>
          obtain ⟨c, others, rfl, hStarts⟩ := hInner.exists_cons_of_factorialOperand
          exact ⟨c, others, rfl, isBlank_of_startsPrimary hStarts,
            ne_of_startsPrimary hStarts (by decide) (by decide)⟩
  | cons layer layers ih =>
      cases h with
      | chain hFirst =>
          obtain ⟨c, others, rfl, hStarts⟩ := ih hFirst
          exact ⟨c, _, rfl, hStarts⟩

/-- An expression does not begin with white space, so that nothing is skipped before it. -/
theorem skipBlanks_append {derivation : Derivation (.layers layers)} (h : derivation.Yields text) :
    Text.skipBlanks (text ++ rest) = text ++ rest := by
  obtain ⟨c, others, rfl, hBlank, _⟩ := h.exists_cons
  exact skipBlanks_cons hBlank

/-- An expression does not begin with an equals sign, not even after white space. -/
theorem head?_ne_equals {derivation : Derivation (.layers layers)} {blanks : List Char}
    (h : derivation.Yields text) (hBlanks : Blank blanks) :
    (blanks ++ (text ++ rest)).head? ≠ some '=' := by
  cases blanks with
  | nil =>
      obtain ⟨c, others, rfl, _, hEquals⟩ := h.exists_cons
      simpa using hEquals
  | cons c blanks =>
      have hBlank := hBlanks c List.mem_cons_self
      intro hHead
      obtain rfl : c = '=' := by simpa using hHead
      exact absurd hBlank (by decide)

/-- White space before a padded expression is part of its padding. -/
theorem blank_append_iff {derivation : Derivation .padded} {blanks : List Char}
    (hBlanks : Blank blanks) : derivation.Yields (blanks ++ text) ↔ derivation.Yields text := by
  constructor
  · intro h
    generalize hText : blanks ++ text = whole at h
    cases h with
    | @padded inner before body after hBefore hInner hAfter =>
        rw [List.append_assoc] at hText
        rcases List.append_eq_append_iff.mp hText with ⟨extra, rfl, rfl⟩ | ⟨extra, rfl, hRest⟩
        · have hExtra : Blank extra := fun c hMem => hBefore c (List.mem_append_right _ hMem)
          rw [← List.append_assoc]
          exact .padded hExtra hInner hAfter
        · -- The expression begins where the white space ends.
          obtain ⟨c, others, rfl, hBlank, _⟩ := hInner.exists_cons
          have hExtra : Blank extra := fun d hMem => hBlanks d (List.mem_append_right _ hMem)
          obtain rfl := hExtra.eq_nil_of_append_eq_cons hBlank hRest.symm
          rw [List.nil_append] at hRest
          exact hRest ▸ .padded blank_nil hInner hAfter
  · intro h
    cases h with
    | padded hBefore hInner hAfter =>
        rw [← List.append_assoc, ← List.append_assoc]
        exact .padded (hBlanks.append hBefore) hInner hAfter

end Derivation.Yields

/-! ### What follows a phrase -/

/-- Nothing follows that could belong to an expression of the given layers. -/
structure Stops (layers : List Layer) (rest : List Char) : Prop where
  operand : EndsOperand rest
  operators : ∀ layer ∈ layers, Lexeme.operator? layer (Text.skipBlanks rest) = none

/-- A text that does not begin with a character of an operand ends the operand before it. -/
theorem endsOperand_cons (hName : Lexeme.continuesName c = false) (hOpening : c ≠ '(')
    (hMark : c ≠ '!') : EndsOperand (c :: rest) := by
  refine ⟨⟨?_, by simpa using hOpening⟩, by simpa using hMark⟩
  intro d hHead
  obtain rfl : c = d := by simpa using hHead
  exact hName

/-- An exclamation mark belongs to the operand before it, but not to its primary. -/
theorem endsPrimary_mark (rest : List Char) : EndsPrimary ('!' :: rest) := by
  refine ⟨fun c hHead => ?_, by simp⟩
  obtain rfl : '!' = c := by simpa using hHead
  decide

theorem endsName_opening : EndsName ('(' :: rest) := by
  intro c hHead
  obtain rfl : '(' = c := by simpa using hHead
  decide

theorem endsOperand_nil : EndsOperand [] := by
  simp [EndsOperand, EndsPrimary, EndsName]

/-- White space after an operand changes nothing about what may follow it. -/
theorem Blank.endsOperand_append {blanks : List Char} (h : Blank blanks) (hRest : EndsOperand rest) :
    EndsOperand (blanks ++ rest) := by
  cases blanks with
  | nil => exact hRest
  | cons c blanks =>
      have hBlank := h c List.mem_cons_self
      refine endsOperand_cons ?_ ?_ ?_
      · by_contra hName
        simp [isBlank_of_continuesName (Bool.eq_true_of_not_eq_false hName)] at hBlank
      · rintro rfl
        exact absurd hBlank (by decide)
      · rintro rfl
        exact absurd hBlank (by decide)

def Closes (rest : List Char) : Prop :=
  ∀ c ∈ rest.head?, c = ')' ∨ c = ','

theorem Closes.skipBlanks_eq (h : Closes rest) : Text.skipBlanks rest = rest := by
  cases rest with
  | nil => rfl
  | cons c rest =>
      rcases h c rfl with rfl | rfl <;> exact skipBlanks_cons (by decide)

/-- White space before the end of an expression does not belong to it. -/
theorem Closes.stops {blanks : List Char} (hBlanks : Blank blanks) (h : Closes rest) :
    Stops layers (blanks ++ rest) := by
  constructor
  · apply hBlanks.endsOperand_append
    cases rest with
    | nil => exact endsOperand_nil
    | cons c rest =>
        rcases h c rfl with rfl | rfl <;> exact endsOperand_cons (by decide) (by decide) (by decide)
  · intro layer _
    rw [hBlanks.skipBlanks_append, h.skipBlanks_eq, Option.eq_none_iff_forall_ne_some]
    rintro ⟨operator, tail⟩ hFound
    obtain ⟨spelling, rfl, _⟩ := exists_spelling_of_operator? hFound
    obtain ⟨c, others, hCharacters, _, _, hOther⟩ := spelling.exists_cons
    rcases h c (by simp [hCharacters]) with rfl | rfl <;> simp at hOther

/-- An operator of a looser layer ends an expression of tighter layers. -/
theorem Spelling.stops {layer : Layer} (spelling : Spelling layer) {before : List Char}
    (hBefore : Blank before) (hLayer : layer ∉ layers) (hRest : rest.head? ≠ some '=') :
    Stops layers (before ++ (spelling.characters ++ rest)) := by
  obtain ⟨c, others, hCharacters, _, hName, hOther⟩ := spelling.exists_cons
  simp only [List.mem_cons, List.not_mem_nil, or_false, not_or] at hOther
  constructor
  · apply hBefore.endsOperand_append
    rw [hCharacters]
    exact endsOperand_cons hName hOther.1 hOther.2.2.2
  · intro other hMem
    rw [hBefore.skipBlanks_append, spelling.skipBlanks_append]
    exact operator?_append_of_ne spelling hRest (ne_of_mem_of_not_mem hMem hLayer)

/-- What follows the first operand of a chain does not belong to that operand. -/
theorem Derivation.Yields.stops_links {layer : Layer} {derivation : Derivation (.links layer layers)}
    (h : derivation.Yields text) (hLayer : layer ∉ layers) (hRest : Stops (layer :: layers) rest) :
    Stops layers (text ++ rest) := by
  cases h with
  | done => exact ⟨hRest.operand, fun other hMem => hRest.operators other (by simp [hMem])⟩
  | @link _ _ _ spelling _ _ before _ _ _ hBefore hAfter hItem _ =>
      simp only [List.append_assoc]
      exact spelling.stops hBefore hLayer (hItem.head?_ne_equals hAfter)
  | @comparison _ spelling _ before _ _ hBefore hAfter hItem =>
      simp only [List.append_assoc]
      exact spelling.stops hBefore hLayer (hItem.head?_ne_equals hAfter)

/-! ### The equals sign of an assignment -/

/-- If an equals sign comes next, another one follows it. -/
def NoAssignment (rest : List Char) : Prop :=
  ∀ tail, Text.skipBlanks rest = '=' :: tail → tail.head? = some '='

theorem noAssignment_cons (hBlank : Text.isBlank c = false) (hEquals : c ≠ '=') :
    NoAssignment (c :: rest) := by
  intro tail h
  rw [skipBlanks_cons hBlank, List.cons.injEq] at h
  exact absurd h.1 hEquals

theorem Closes.noAssignment {blanks : List Char} (hBlanks : Blank blanks) (h : Closes rest) :
    NoAssignment (blanks ++ rest) := by
  intro tail hTail
  rw [hBlanks.skipBlanks_append, h.skipBlanks_eq] at hTail
  rcases h '=' (by simp [hTail]) with hEquals | hEquals <;> simp at hEquals

/-- An operator may be or begin with an equals sign only if another one follows. -/
theorem Spelling.noAssignment {layer : Layer} (spelling : Spelling layer) {before : List Char}
    (hBefore : Blank before) : NoAssignment (before ++ (spelling.characters ++ rest)) := by
  have hAll : ∀ entry ∈ Operator.spellings, entry.1.toList.head? = some '=' →
      entry.1.toList.tail.head? = some '=' := by decide
  intro tail h
  obtain ⟨c, others, hCharacters, _⟩ := spelling.exists_cons
  have hEquals := hAll _ spelling.listed
  rw [hBefore.skipBlanks_append, spelling.skipBlanks_append, hCharacters, List.cons_append,
    List.cons.injEq] at h
  obtain ⟨rfl, rfl⟩ := h
  rw [show spelling.text.toList = '=' :: others from hCharacters] at hEquals
  cases others with
  | nil => simp at hEquals
  | cons d others => simpa using hEquals

/-- The links of a chain begin with an operator, unless there are none. -/
theorem Derivation.Yields.noAssignment_links {layer : Layer}
    {derivation : Derivation (.links layer layers)} (h : derivation.Yields text)
    (hRest : NoAssignment rest) : NoAssignment (text ++ rest) := by
  cases h with
  | done => exact hRest
  | @link _ _ _ spelling _ _ _ _ _ _ hBefore =>
      simp only [List.append_assoc]
      exact spelling.noAssignment hBefore
  | @comparison _ spelling _ _ _ _ hBefore =>
      simp only [List.append_assoc]
      exact spelling.noAssignment hBefore

section Assignment

variable {name : Name} {blanks tail : List Char}

/-- A name ends before an equals sign, with or without white space between them. -/
theorem endsName_of_blank_equals (hBlanks : Blank blanks) (tail : List Char) :
    EndsName (blanks ++ '=' :: tail) :=
  (hBlanks.endsOperand_append
    (endsOperand_cons (by decide) (by decide) (by decide))).1.1

theorem head?_blank_equals (hBlanks : Blank blanks) (tail : List Char) :
    (blanks ++ '=' :: tail).head? ≠ some '(' :=
  (hBlanks.endsOperand_append
    (endsOperand_cons (by decide) (by decide) (by decide))).1.2

/-- Where a name and an equals sign begin an operand and what follows it, the sign is the first of
two. -/
theorem Derivation.Yields.head?_eq_equals_of_primary {derivation : Derivation .primary}
    (h : derivation.Yields text) (hRest : EndsPrimary rest) (hEquals : NoAssignment rest)
    (hBlanks : Blank blanks) (hText : text ++ rest = name.characters ++ (blanks ++ '=' :: tail)) :
    tail.head? = some '=' := by
  have hCall (other : Name) {arguments : List Char}
      (hCall : other.characters ++ '(' :: arguments = name.characters ++ (blanks ++ '=' :: tail)) :
      False := by
    obtain ⟨_, hOpening⟩ := Name.append_cancel endsName_opening
      (endsName_of_blank_equals hBlanks tail) hCall
    exact head?_blank_equals hBlanks tail (by simp [← hOpening])
  cases h with
  | conditional => exact (hCall .conditional hText).elim
  | binaryCall | unaryCall =>
      rw [List.append_assoc] at hText
      exact (hCall _ hText).elim
  | var other =>
      obtain ⟨_, rfl⟩ := Name.append_cancel hRest.1 (endsName_of_blank_equals hBlanks tail) hText
      exact hEquals tail (by rw [hBlanks.skipBlanks_append, skipBlanks_cons (by decide)])
  | parenthetical =>
      have hStarts := name.starts
      rw [← (List.cons.inj hText).1] at hStarts
      exact absurd hStarts (by decide)
  | number numeral =>
      obtain ⟨c, others, hCharacters, hDigit⟩ := numeral.exists_cons
      have hStarts := name.starts
      rw [hCharacters] at hText
      rw [← (List.cons.inj hText).1, startsName_of_isDigit hDigit] at hStarts
      exact absurd hStarts (by decide)

theorem Derivation.Yields.head?_eq_equals_of_factorialOperand
    {derivation : Derivation .factorialOperand} (h : derivation.Yields text)
    (hRest : EndsOperand rest) (hEquals : NoAssignment rest) (hBlanks : Blank blanks)
    (hText : text ++ rest = name.characters ++ (blanks ++ '=' :: tail)) :
    tail.head? = some '=' := by
  cases h with
  | plain hInner => exact hInner.head?_eq_equals_of_primary hRest.1 hEquals hBlanks hText
  | factorial hInner =>
      rw [List.append_assoc] at hText
      exact hInner.head?_eq_equals_of_primary (endsPrimary_mark _)
        (noAssignment_cons (by decide) (by decide)) hBlanks hText

/-- Where an expression begins with a name and an equals sign, another equals sign follows. -/
theorem Derivation.Yields.head?_eq_equals {derivation : Derivation (.layers layers)}
    (h : derivation.Yields text) (hLayers : layers.Nodup) (hRest : Stops layers rest)
    (hEquals : NoAssignment rest) (hBlanks : Blank blanks)
    (hText : text ++ rest = name.characters ++ (blanks ++ '=' :: tail)) :
    tail.head? = some '=' := by
  induction layers generalizing text rest with
  | nil =>
      cases h with
      | operand hInner =>
          exact hInner.head?_eq_equals_of_factorialOperand hRest.operand hEquals hBlanks hText
      | negation =>
          have hStarts := name.starts
          rw [← (List.cons.inj hText).1] at hStarts
          exact absurd hStarts (by decide)
  | cons layer layers ih =>
      cases h with
      | chain hFirst hLinks =>
          obtain ⟨hLayer, hTighter⟩ := List.nodup_cons.mp hLayers
          rw [List.append_assoc] at hText
          exact ih hFirst hTighter (hLinks.stops_links hLayer hRest)
            (hLinks.noAssignment_links hEquals) hText

end Assignment

end Formula.Grammar
