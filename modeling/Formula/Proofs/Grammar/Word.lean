import Formula.Proofs.Grammar.Execution
import Formula.Proofs.Grammar.Numeral

/-! Patterns of single words. They have no productions in them and record nothing, and what they leave of
a text is what is left after the name, the number or the operator at its start. -/

namespace Formula.Grammar

open Pattern

variable {mode : Mode} {pattern first second : Pattern} {text rest : List Char}
  {result : Option (List Char)} {p q : Char → Bool}

/-- A pattern leaves a text with a result, and records nothing. -/
def Pattern.Reads (mode : Mode) (pattern : Pattern) (text : List Char)
    (result : Option (List Char)) : Prop :=
  ∀ length ledger, Runs length mode pattern text ledger result ledger

/-- A pattern of one character, as far as it is read in one way. -/
def Pattern.IsClass (mode : Mode) (pattern : Pattern) (accepts : Char → Bool) : Prop :=
  ∀ text, pattern.Reads mode text (afterCharacter accepts text)

def Mode.word : Mode :=
  ⟨.word, false⟩

/-! ### Spellings -/

theorem reads_literal (characters : List Char) :
    (literal characters).Reads mode text (characters.isPrefixOf? text) :=
  fun _ _ => .literal ..

theorem reads_literal_append (characters rest : List Char) :
    (literal characters).Reads mode (characters ++ rest) (some rest) := by
  have hPrefix : characters.isPrefixOf? (characters ++ rest) = some rest := by simp
  exact hPrefix ▸ reads_literal characters

theorem reads_literal_none {c : Char} (h : ∀ rest, text = c :: rest → False) :
    (literal [c]).Reads mode text none := by
  have hPrefix : [c].isPrefixOf? text = none := by
    rw [Option.eq_none_iff_forall_ne_some]
    intro rest hFound
    exact h rest (by simpa [eq_comm] using hFound)
  exact hPrefix ▸ reads_literal [c]

/-- Of several spellings the first one that fits is taken. -/
theorem reads_oneOf (first : String) (others : List String) :
    (oneOf first others).Reads mode text
      ((first :: others).findSome? fun spelling => spelling.toList.isPrefixOf? text) := by
  unfold oneOf
  induction others generalizing first with
  | nil =>
      rw [List.findSome?_singleton]
      exact reads_literal _
  | cons next others ih =>
      intro length ledger
      rw [List.findSome?_cons, List.map_cons, choice]
      cases hFirst : first.toList.isPrefixOf? text with
      | none => exact .either_second (hFirst ▸ reads_literal first.toList length ledger) (ih ..)
      | some rest => exact .either_first (hFirst ▸ reads_literal first.toList length ledger)

/-! ### Classes of characters -/

theorem isClass_character (accepts : Char → Bool) : (character accepts).IsClass mode accepts :=
  fun _ _ _ => .character ..

theorem isClass_literal (c : Char) : (literal [c]).IsClass mode (· == c) := by
  intro text length ledger
  have hText : afterCharacter (· == c) text = [c].isPrefixOf? text := by
    cases text with
    | nil => rfl
    | cons d rest => simp [afterCharacter, List.isPrefixOf?, eq_comm (a := d)]
  rw [hText]
  exact .literal ..

/-- A choice between two kinds of characters is a kind of characters. -/
theorem Pattern.IsClass.either (hFirst : first.IsClass mode p) (hSecond : second.IsClass mode q) :
    (Pattern.either first second).IsClass mode fun c => p c || q c := by
  intro text length ledger
  have hRuns := hFirst text length ledger
  have hOther := hSecond text length ledger
  cases text with
  | nil => exact .either_second hRuns hOther
  | cons c rest =>
      cases hAccepts : p c with
      | false =>
          simp only [afterCharacter, hAccepts, Bool.false_or] at hRuns hOther ⊢
          exact .either_second hRuns hOther
      | true =>
          simp only [afterCharacter, hAccepts, Bool.true_or, if_true] at hRuns ⊢
          exact .either_first hRuns

/-- A choice between single characters accepts those in the list. -/
theorem isClass_choice (first : Char) (others : List Char) :
    (choice (literal [first]) (others.map fun c => literal [c])).IsClass mode
      (first :: others).contains := by
  induction others generalizing first with
  | nil =>
      have hClass : [first].contains = (· == first) := by
        funext c
        rw [List.contains_cons, List.contains_nil, Bool.or_false]
      rw [hClass]
      exact isClass_literal first
  | cons next others ih =>
      have hClass : (first :: next :: others).contains =
          fun c => c == first || (next :: others).contains c := by
        funext c
        exact List.contains_cons
      rw [hClass]
      exact (isClass_literal first).either (ih next)

/-- The characters that end a name. -/
theorem isClass_symbol : symbol.IsClass mode Lexeme.punctuation.contains :=
  isClass_choice '+' Lexeme.punctuation.tail

/-- Any character that is not in a class. -/
theorem isClass_except {excluded : Pattern} (h : excluded.IsClass (Mode.opposite .word) p) :
    excluded.except.IsClass .word fun c => !p c := by
  intro text length ledger
  have hAbsent := Runs.absent (h text length ledger)
  cases text with
  | nil => exact .both hAbsent (.character ..)
  | cons c rest =>
      cases hAccepts : p c with
      | false =>
          simp only [afterCharacter, hAccepts] at hAbsent ⊢
          exact .both hAbsent (.character ..)
      | true =>
          simp only [afterCharacter, hAccepts] at hAbsent ⊢
          exact .both_fails hAbsent

/-! ### Rows of characters -/

/-- A repeated kind of characters takes the whole row, by induction on the text. -/
theorem reads_again {inner : Pattern} (h : inner.IsClass .word p) (text : List Char) :
    (again inner).Reads .word text (some (text.dropWhile p)) := by
  induction text with
  | nil => exact fun length ledger => .again_done (h [] length ledger)
  | cons c rest ih =>
      intro length ledger
      have hInner := h (c :: rest) length ledger
      cases hAccepts : p c with
      | false =>
          simp only [afterCharacter, hAccepts, List.dropWhile_cons] at hInner ⊢
          exact .again_done hInner
      | true =>
          simp only [afterCharacter, hAccepts, List.dropWhile_cons, if_true] at hInner ⊢
          exact .again hInner (ih length ledger)

/-- Nothing stands between the characters of a word, so that all of them are read in the same way. -/
theorem reads_many {inner : Pattern} (h : inner.IsClass .word p) (text : List Char) :
    (many inner).Reads .word text (some (text.dropWhile p)) := by
  intro length ledger
  have hInner := h text length ledger
  cases text with
  | nil => exact .many_done hInner
  | cons c rest =>
      cases hAccepts : p c with
      | false =>
          simp only [afterCharacter, hAccepts, List.dropWhile_cons] at hInner ⊢
          exact .many_done hInner
      | true =>
          simp only [afterCharacter, hAccepts, List.dropWhile_cons, if_true] at hInner ⊢
          exact .many hInner (reads_again h rest length ledger)

/-! ### Names -/

/-- Punctuation, number characters and white space are looked out for before the first character of a
name. -/
theorem isClass_startsName :
    (except (choice symbol [character Text.isNumeric, character Text.isBlank])).IsClass .word
      Lexeme.startsName := by
  have hClass : Lexeme.startsName =
      fun c => !(Lexeme.punctuation.contains c || (Text.isNumeric c || Text.isBlank c)) := by
    funext c
    simp only [Lexeme.startsName, Lexeme.continuesName, Bool.not_or]
    ac_rfl
  rw [hClass]
  exact isClass_except (isClass_symbol.either ((isClass_character _).either (isClass_character _)))

/-- Before its further characters, number characters are not looked out for any more. -/
theorem isClass_continuesName :
    (except (choice symbol [character Text.isBlank])).IsClass .word Lexeme.continuesName := by
  have hClass : Lexeme.continuesName =
      fun c => !(Lexeme.punctuation.contains c || Text.isBlank c) := by
    funext c
    rw [Lexeme.continuesName, Bool.not_or]
  rw [hClass]
  exact isClass_except (isClass_symbol.either (isClass_character _))

/-- The pattern of a name reads what the function for names finds. -/
theorem reads_identifier (text : List Char) :
    Production.identifier.body.Reads .word text ((Lexeme.identifier? text).map Prod.snd) := by
  intro length ledger
  have hFirst := isClass_startsName text length ledger
  cases text with
  | nil => exact .both_fails hFirst
  | cons c rest =>
      cases hStarts : Lexeme.startsName c with
      | false =>
          simp only [afterCharacter, Lexeme.identifier?, hStarts] at hFirst ⊢
          exact .both_fails hFirst
      | true =>
          simp only [afterCharacter, Lexeme.identifier?, hStarts, if_true] at hFirst ⊢
          exact .both hFirst (reads_many isClass_continuesName rest length ledger)

/-! ### Numbers -/

/-- The digits at the start of a text, of which there must be one. -/
theorem reads_digits (text : List Char) :
    digits.Reads .word text
      (if (Number.splitDigits text).1.isEmpty then none else some (Number.splitDigits text).2) := by
  have hDigit : (character Char.isDigit).IsClass .word Char.isDigit := isClass_character _
  intro length ledger
  have hFirst := hDigit text length ledger
  cases text with
  | nil => exact .both_fails hFirst
  | cons c rest =>
      cases hAccepts : c.isDigit with
      | false =>
          simp only [afterCharacter, Number.splitDigits, hAccepts, List.takeWhile_cons] at hFirst ⊢
          exact .both_fails hFirst
      | true =>
          simp only [afterCharacter, Number.splitDigits, hAccepts, List.takeWhile_cons,
            List.dropWhile_cons, if_true] at hFirst ⊢
          exact .both hFirst (reads_many hDigit rest length ledger)

/-- A point without digits after it is left where it is. -/
theorem reads_fraction (text : List Char) :
    (optional (sequence (literal ['.']) [digits])).Reads .word text
      (some (Number.splitFraction text).2) := by
  intro length ledger
  unfold Number.splitFraction
  split
  · next afterPoint =>
      have hFraction := Runs.optional (.both (reads_literal_append ['.'] afterPoint length ledger)
        (reads_digits afterPoint length ledger))
      dsimp only at hFraction ⊢
      split at hFraction
      · next hEmpty => rwa [if_pos hEmpty]
      · next hDigits => rwa [if_neg hDigits]
  · next hOther => exact .optional (.both_fails (reads_literal_none hOther length ledger))

theorem reads_sign (text : List Char) :
    (optional (oneOf "+" ["-"])).Reads .word text (some (splitSign text).2) := by
  intro length ledger
  unfold splitSign
  split
  · next unsigned =>
      have hPlus : ∀ rest, '-' :: unsigned = '+' :: rest → False := by simp
      exact .optional (.either_second (reads_literal_none hPlus length ledger)
        (reads_literal_append ['-'] unsigned length ledger))
  · next unsigned =>
      exact .optional (.either_first (reads_literal_append ['+'] unsigned length ledger))
  · next hMinus hPlus =>
      exact .optional (.either_second (reads_literal_none hPlus length ledger)
        (reads_literal_none hMinus length ledger))

/-- The letter without digits after it, or after its sign, is left where it is. -/
theorem reads_exponent (text : List Char) :
    (optional (sequence (character fun c => c = 'e' ∨ c = 'E')
      [optional (oneOf "+" ["-"]), digits])).Reads .word text
      (some (Number.splitExponent text).2) := by
  intro length ledger
  have hClass : (character fun c => c = 'e' ∨ c = 'E').IsClass .word fun c => c = 'e' ∨ c = 'E' :=
    isClass_character _
  have hMark := hClass text length ledger
  cases text with
  | nil => exact .optional (.both_fails hMark)
  | cons mark rest =>
      simp only [afterCharacter, decide_eq_true_eq] at hMark
      by_cases hAccepts : mark = 'e' ∨ mark = 'E'
      · rw [if_pos hAccepts] at hMark
        have hExponent := Runs.optional (.both hMark
          (.both (reads_sign rest length ledger) (reads_digits (splitSign rest).2 length ledger)))
        rw [splitExponent_of_mark hAccepts]
        dsimp only at hExponent ⊢
        split at hExponent
        · next hEmpty => rwa [if_pos hEmpty]
        · next hDigits => rwa [if_neg hDigits]
      · rw [if_neg hAccepts] at hMark
        simp only [Number.splitExponent, if_neg hAccepts]
        exact .optional (.both_fails hMark)

theorem reads_number (text : List Char) :
    Production.number.body.Reads .word text ((Lexeme.number? text).map Prod.snd) := by
  intro length ledger
  have hDigits := reads_digits text length ledger
  have hFraction := reads_fraction (Number.splitDigits text).2 length ledger
  have hExponent := reads_exponent
    (Number.splitFraction (Number.splitDigits text).2).2 length ledger
  simp only [Lexeme.number?]
  split
  · next hEmpty =>
      rw [if_pos hEmpty] at hDigits
      exact .both_fails hDigits
  · next hWhole =>
      rw [if_neg hWhole] at hDigits
      exact .both hDigits (.both hFraction hExponent)

/-! ### Operators -/

def spellingsOf (layer : Layer) : List String :=
  (Operator.spellings.filter fun entry => entry.2.layer = layer).map Prod.fst

/-- What is left after an operator does not depend on which operator it was, only on its spelling. -/
theorem map_snd_operator? (layer : Layer) (text : List Char) :
    (Lexeme.operator? layer text).map Prod.snd =
      (spellingsOf layer).findSome? fun spelling => spelling.toList.isPrefixOf? text := by
  unfold Lexeme.operator? spellingsOf
  induction Operator.spellings with
  | nil => rfl
  | cons entry entries ih =>
      by_cases hLayer : entry.2.layer = layer
      · cases hPrefix : entry.1.toList.isPrefixOf? text with
        | none => simpa [List.findSome?_cons, hLayer, hPrefix] using ih
        | some rest => simp [hLayer, hPrefix]
      · simpa [List.findSome?_cons, hLayer] using ih

/-- The pattern of the operators of a layer reads what the function for them finds. -/
theorem reads_operator (layer : Layer) (text : List Char) :
    (Production.operator layer).body.Reads mode text ((Lexeme.operator? layer text).map Prod.snd) := by
  rw [map_snd_operator?]
  cases layer <;> exact reads_oneOf _ _

end Formula.Grammar
