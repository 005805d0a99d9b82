import Formula.Proofs.Grammar.Lexical

/-! Numbers at the start of a text. The digits, the fraction and the exponent are each taken as far
as they go, which is the only way in which a number can be spelled there. -/

namespace Formula.Grammar

variable {text rest rest' : List Char}

def EndsDigits (rest : List Char) : Prop :=
  ∀ c ∈ rest.head?, c.isDigit = false

def EndsFraction (rest : List Char) : Prop :=
  ∀ c ∈ rest.head?, c.isDigit = false ∧ c ≠ '.'

theorem EndsFraction.endsDigits (h : EndsFraction rest) : EndsDigits rest :=
  fun c hHead => (h c hHead).1

/-- A number is followed by what could also follow a name, which is more than its fraction needs. -/
theorem EndsName.endsFraction (h : EndsName rest) : EndsFraction rest := by
  intro c hHead
  have hName := h c hHead
  refine ⟨?_, ?_⟩
  · by_contra hDigit
    rw [continuesName_of_isDigit (Bool.eq_true_of_not_eq_false hDigit)] at hName
    exact absurd hName (by decide)
  · rintro rfl
    exact absurd hName (by decide)

/-! ### Digits -/

/-- A row of digits is found whole if no further digit follows. -/
theorem splitDigits_append (digits : Digits) (h : EndsDigits rest) :
    Number.splitDigits (digits.characters ++ rest) = (digits.characters, rest) := by
  simp [Number.splitDigits, takeWhile_append_stop digits.decimal h,
    dropWhile_append_stop digits.decimal h]

theorem exists_digits_of_splitDigits {front : List Char}
    (h : Number.splitDigits text = (front, rest)) (hFront : front ≠ []) :
    ∃ digits : Digits, digits.characters = front ∧ text = front ++ rest := by
  simp only [Number.splitDigits, Prod.mk.injEq] at h
  obtain ⟨rfl, rfl⟩ := h
  exact ⟨⟨_, hFront, fun _ hMem => List.mem_takeWhile_imp hMem⟩, rfl,
    List.takeWhile_append_dropWhile.symm⟩

theorem Digits.append_cancel {digits other : Digits} (hRest : EndsDigits rest)
    (hRest' : EndsDigits rest') (h : digits.characters ++ rest = other.characters ++ rest') :
    digits = other ∧ rest = rest' := by
  have hSplit := splitDigits_append digits hRest
  rw [h, splitDigits_append other hRest', Prod.mk.injEq] at hSplit
  obtain ⟨hCharacters, rfl⟩ := hSplit
  refine ⟨?_, rfl⟩
  cases digits
  cases other
  simpa using hCharacters.symm

/-! ### Exponents -/

theorem Exponent.isDigit_mark (exponent : Exponent) :
    exponent.mark.isDigit = false ∧ exponent.mark ≠ '.' := by
  rcases exponent.marks with h | h <;> rw [h] <;> decide

/-- With or without an exponent, nothing that follows could belong to the digits before it. -/
theorem endsFraction_exponent (exponent : Option Exponent) (h : EndsName rest) :
    EndsFraction (Numeral.exponentCharacters exponent ++ rest) := by
  cases exponent with
  | none => exact h.endsFraction
  | some exponent =>
      intro c hHead
      obtain rfl : exponent.mark = c := by
        simpa [Numeral.exponentCharacters, Exponent.characters] using hHead
      exact exponent.isDigit_mark

def splitSign : List Char → Bool × List Char
  | '-' :: unsigned => (true, unsigned)
  | '+' :: unsigned => (false, unsigned)
  | unsigned => (false, unsigned)

theorem splitExponent_of_mark {mark : Char} (h : mark = 'e' ∨ mark = 'E') (text : List Char) :
    Number.splitExponent (mark :: text) =
      let (negative, unsigned) := splitSign text
      let (digits, rest) := Number.splitDigits unsigned
      if digits.isEmpty then (0, mark :: text)
      else (if negative then -Int.ofNat (Number.ofDigits digits)
        else Int.ofNat (Number.ofDigits digits), rest) := by
  unfold Number.splitExponent
  simp only [if_pos h]
  rfl

/-- After its mark an exponent has an optional sign, and then as many digits as there are. -/
theorem splitExponent_cons {mark : Char} (hMark : mark = 'e' ∨ mark = 'E') (afterMark : List Char) :
    ∃ sign unsigned, (sign = none ∨ sign = some '+' ∨ sign = some '-') ∧
      afterMark = sign.toList ++ unsigned ∧
      Number.splitExponent (mark :: afterMark) =
        if (Number.splitDigits unsigned).1.isEmpty then (0, mark :: afterMark)
        else (if sign = some '-' then -Int.ofNat (Number.ofDigits (Number.splitDigits unsigned).1)
          else Int.ofNat (Number.ofDigits (Number.splitDigits unsigned).1),
          (Number.splitDigits unsigned).2) := by
  unfold Number.splitExponent
  simp only [if_pos hMark]
  split
  · next unsigned => exact ⟨some '-', unsigned, by simp, rfl, by simp⟩
  · next unsigned => exact ⟨some '+', unsigned, by simp, rfl, by simp⟩
  · exact ⟨none, afterMark, by simp, rfl, by simp⟩

/-- The sign is what comes before the digits. -/
theorem Exponent.takeWhile_sign (exponent : Exponent) :
    (exponent.sign.toList ++ (exponent.digits.characters ++ rest)).takeWhile (! ·.isDigit) =
      exponent.sign.toList := by
  apply takeWhile_append_stop
  · rcases exponent.signs with h | h | h <;> simp [h]
  · intro c hHead
    obtain ⟨d, others, hCharacters, hDigit⟩ := exponent.digits.exists_cons
    obtain rfl : d = c := by simpa [hCharacters] using hHead
    simp [hDigit]

/-- The mark, the sign and all the digits are taken, and the value is that of the exponent. -/
theorem splitExponent_some (exponent : Exponent) (h : EndsDigits rest) :
    Number.splitExponent (exponent.characters ++ rest) = (exponent.value, rest) := by
  obtain ⟨mark, sign, digits, hMark, hSign⟩ := exponent
  have hSplit := splitDigits_append digits h
  have hEmpty : digits.characters.isEmpty = false := by simpa using digits.nonempty
  rcases hSign with rfl | rfl | rfl
  · obtain ⟨c, others, hCharacters, hDigit⟩ := digits.exists_cons
    have hMinus : c ≠ '-' := by rintro rfl; exact absurd hDigit (by decide)
    have hPlus : c ≠ '+' := by rintro rfl; exact absurd hDigit (by decide)
    rw [hCharacters, List.cons_append] at hSplit
    simp [Exponent.characters, Number.splitExponent, hMark, hCharacters, hMinus, hPlus, hSplit,
      Exponent.value]
  · simp [Exponent.characters, Number.splitExponent, hMark, hSplit, hEmpty, Exponent.value]
  · simp [Exponent.characters, Number.splitExponent, hMark, hSplit, hEmpty, Exponent.value]

/-- Where there is no exponent, an `e` does not follow either, so that none is found. -/
theorem splitExponent_append (exponent : Option Exponent) (h : EndsName rest) :
    Number.splitExponent (Numeral.exponentCharacters exponent ++ rest) =
      (exponent.elim 0 Exponent.value, rest) := by
  cases exponent with
  | none =>
      cases rest with
      | nil => rfl
      | cons c rest =>
          have hMark : ¬ (c = 'e' ∨ c = 'E') := by
            rintro (rfl | rfl) <;> exact absurd (h _ rfl) (by decide)
          simp [Numeral.exponentCharacters, Number.splitExponent, hMark]
  | some exponent => exact splitExponent_some exponent h.endsFraction.endsDigits

/-- Either an exponent is found with its value, or nothing is taken and the value is zero. -/
theorem exists_exponent_of_splitExponent {value : Int}
    (h : Number.splitExponent text = (value, rest)) :
    ∃ exponent : Option Exponent, exponent.elim 0 Exponent.value = value ∧
      text = Numeral.exponentCharacters exponent ++ rest := by
  cases text with
  | nil =>
      simp only [Number.splitExponent, Prod.mk.injEq] at h
      exact ⟨none, h.1, h.2⟩
  | cons mark afterMark =>
      by_cases hMark : mark = 'e' ∨ mark = 'E'
      · obtain ⟨sign, unsigned, hSign, rfl, hSplit⟩ := splitExponent_cons hMark afterMark
        rw [h] at hSplit
        split at hSplit
        · simp only [Prod.mk.injEq] at hSplit
          exact ⟨none, hSplit.1.symm, hSplit.2.symm⟩
        · next hFound =>
            simp only [Prod.mk.injEq] at hSplit
            obtain ⟨rfl, rfl⟩ := hSplit
            obtain ⟨digits, hDigits, hUnsigned⟩ :=
              exists_digits_of_splitDigits (Prod.mk.eta).symm (by simpa using hFound)
            refine ⟨some ⟨mark, sign, digits, hMark, hSign⟩, ?_, ?_⟩
            · rw [Option.elim_some, Exponent.value, hDigits]
            · rw [Numeral.exponentCharacters, Exponent.characters, hDigits, List.cons_append,
                List.append_assoc, ← hUnsigned]
      · simp only [Number.splitExponent, if_neg hMark, Prod.mk.injEq] at h
        exact ⟨none, h.1, h.2⟩

/-! ### Fractions -/

theorem endsDigits_fraction (fraction : Option Digits) (h : EndsFraction rest) :
    EndsDigits (Numeral.fractionCharacters fraction ++ rest) := by
  cases fraction with
  | none => exact h.endsDigits
  | some digits =>
      intro c hHead
      obtain rfl : '.' = c := by simpa [Numeral.fractionCharacters] using hHead
      rfl

/-- Where there is no fraction, a point does not follow either, so that none is found. -/
theorem splitFraction_append (fraction : Option Digits) (h : EndsFraction rest) :
    Number.splitFraction (Numeral.fractionCharacters fraction ++ rest) =
      (fraction.elim [] Digits.characters, rest) := by
  cases fraction with
  | none =>
      cases rest with
      | nil => rfl
      | cons c rest => simp [Numeral.fractionCharacters, Number.splitFraction, (h c rfl).2]
  | some digits =>
      have hEmpty : digits.characters.isEmpty = false := by simpa using digits.nonempty
      simp [Numeral.fractionCharacters, Number.splitFraction,
        splitDigits_append digits h.endsDigits, hEmpty]

/-- Either a point and its digits are found, or nothing is taken. -/
theorem exists_fraction_of_splitFraction {front : List Char}
    (h : Number.splitFraction text = (front, rest)) :
    ∃ fraction : Option Digits, fraction.elim [] Digits.characters = front ∧
      text = Numeral.fractionCharacters fraction ++ rest := by
  unfold Number.splitFraction at h
  split at h
  · next afterPoint =>
      cases hSplit : Number.splitDigits afterPoint with
      | mk found tail =>
          simp only [hSplit] at h
          split at h
          · simp only [Prod.mk.injEq] at h
            exact ⟨none, h.1, h.2⟩
          · next hFound =>
              simp only [Prod.mk.injEq] at h
              obtain ⟨rfl, rfl⟩ := h
              obtain ⟨digits, hDigits, rfl⟩ :=
                exists_digits_of_splitDigits hSplit (by simpa using hFound)
              exact ⟨some digits, hDigits, by simp [Numeral.fractionCharacters, hDigits]⟩
  · simp only [Prod.mk.injEq] at h
    exact ⟨none, h.1, h.2⟩

/-! ### Numbers with their fraction and exponent -/

/-- A numeral is found with its value wherever a name would end, too. -/
theorem number?_append (numeral : Numeral) (h : EndsName rest) :
    Lexeme.number? (numeral.characters ++ rest) = some (numeral.value, rest) := by
  have hEnds := endsFraction_exponent numeral.exponent h
  have hWhole := splitDigits_append numeral.whole (endsDigits_fraction numeral.fraction hEnds)
  have hFraction := splitFraction_append numeral.fraction hEnds
  have hExponent := splitExponent_append numeral.exponent h
  have hEmpty : numeral.whole.characters.isEmpty = false := by simpa using numeral.whole.nonempty
  simp [Lexeme.number?, Numeral.characters, hWhole, hFraction, hExponent, hEmpty, Numeral.value]

/-- What is read as a number is a numeral of the grammar with this value. -/
theorem exists_numeral_of_number? {value : Float}
    (h : Lexeme.number? text = some (value, rest)) :
    ∃ numeral : Numeral, text = numeral.characters ++ rest ∧ numeral.value = value := by
  simp only [Lexeme.number?, Option.ite_none_left_eq_some, Option.some.injEq, Prod.mk.injEq] at h
  obtain ⟨hFound, hValue, hRest⟩ := h
  obtain ⟨⟨front, afterWhole⟩, hSplitWhole⟩ : ∃ split, Number.splitDigits text = split := ⟨_, rfl⟩
  obtain ⟨⟨places, afterFraction⟩, hSplitFraction⟩ :
      ∃ split, Number.splitFraction afterWhole = split := ⟨_, rfl⟩
  obtain ⟨⟨power, afterExponent⟩, hSplitExponent⟩ :
      ∃ split, Number.splitExponent afterFraction = split := ⟨_, rfl⟩
  rw [hSplitWhole] at hFound hValue hRest
  rw [hSplitFraction] at hValue hRest
  rw [hSplitExponent] at hValue hRest
  obtain ⟨whole, hWhole, hText⟩ :=
    exists_digits_of_splitDigits hSplitWhole (by simpa using hFound)
  obtain ⟨fraction, hFraction, hAfterWhole⟩ := exists_fraction_of_splitFraction hSplitFraction
  obtain ⟨exponent, hExponent, hAfterFraction⟩ := exists_exponent_of_splitExponent hSplitExponent
  refine ⟨⟨whole, fraction, exponent⟩, ?_, ?_⟩
  · rw [Numeral.characters, List.append_assoc, List.append_assoc, ← hRest, ← hAfterFraction,
      ← hAfterWhole, hWhole, ← hText]
  · rw [Numeral.value, hWhole, hFraction, hExponent, hValue]

/-! ### The only way to spell a number -/

/-- An exponent is the longest one at its place. -/
theorem Exponent.append_cancel {exponent other : Exponent} (hRest : EndsDigits rest)
    (hRest' : EndsDigits rest') (h : exponent.characters ++ rest = other.characters ++ rest') :
    exponent = other ∧ rest = rest' := by
  simp only [Exponent.characters, List.cons_append, List.cons.injEq, List.append_assoc] at h
  obtain ⟨hMark, h⟩ := h
  have hSigns := congrArg (List.takeWhile (! ·.isDigit)) h
  rw [exponent.takeWhile_sign, other.takeWhile_sign] at hSigns
  rw [hSigns] at h
  have hSign : exponent.sign = other.sign := by
    simpa using congrArg List.head? hSigns
  obtain ⟨hDigits, hRests⟩ := Digits.append_cancel hRest hRest' (List.append_cancel_left h)
  refine ⟨?_, hRests⟩
  cases exponent
  cases other
  simp_all

theorem exponent_append_cancel {exponent other : Option Exponent} (hRest : EndsName rest)
    (hRest' : EndsName rest')
    (h : Numeral.exponentCharacters exponent ++ rest = Numeral.exponentCharacters other ++ rest') :
    exponent = other ∧ rest = rest' := by
  have hMark (e : Exponent) : Lexeme.continuesName e.mark = true := by
    rcases e.marks with hMark | hMark <;> rw [hMark] <;> decide
  cases exponent with
  | none =>
      cases other with
      | none => exact ⟨rfl, h⟩
      | some other =>
          have hName := hRest other.mark (by rw [← List.nil_append rest]; exact h ▸ rfl)
          simp [hMark] at hName
  | some exponent =>
      cases other with
      | none =>
          have hName := hRest' exponent.mark (by rw [← List.nil_append rest']; exact h ▸ rfl)
          simp [hMark] at hName
      | some other =>
          obtain ⟨rfl, hRests⟩ := Exponent.append_cancel hRest.endsFraction.endsDigits
            hRest'.endsFraction.endsDigits h
          exact ⟨rfl, hRests⟩

/-- A fraction, or its absence, is determined by the text that it begins. -/
theorem fraction_append_cancel {fraction other : Option Digits} (hRest : EndsFraction rest)
    (hRest' : EndsFraction rest')
    (h : Numeral.fractionCharacters fraction ++ rest = Numeral.fractionCharacters other ++ rest') :
    fraction = other ∧ rest = rest' := by
  cases fraction with
  | none =>
      cases other with
      | none => exact ⟨rfl, h⟩
      | some other =>
          exact absurd rfl (hRest '.' (by rw [← List.nil_append rest]; exact h ▸ rfl)).2
  | some digits =>
      cases other with
      | none => exact absurd rfl (hRest' ('.') (by rw [← List.nil_append rest']; exact h ▸ rfl)).2
      | some other =>
          obtain ⟨rfl, hRests⟩ := Digits.append_cancel hRest.endsDigits hRest'.endsDigits
            (List.tail_eq_of_cons_eq h)
          exact ⟨rfl, hRests⟩

/-- A number is the longest one at its place. -/
theorem Numeral.append_cancel {numeral other : Numeral} (hRest : EndsName rest)
    (hRest' : EndsName rest') (h : numeral.characters ++ rest = other.characters ++ rest') :
    numeral = other ∧ rest = rest' := by
  obtain ⟨whole, fraction, exponent⟩ := numeral
  obtain ⟨whole', fraction', exponent'⟩ := other
  have hEnds := endsFraction_exponent exponent hRest
  have hEnds' := endsFraction_exponent exponent' hRest'
  simp only [Numeral.characters, List.append_assoc] at h
  obtain ⟨rfl, hFraction⟩ := Digits.append_cancel (endsDigits_fraction fraction hEnds)
    (endsDigits_fraction fraction' hEnds') h
  obtain ⟨rfl, hExponent⟩ := fraction_append_cancel hEnds hEnds' hFraction
  obtain ⟨rfl, hRests⟩ := exponent_append_cancel hRest hRest' hExponent
  exact ⟨rfl, hRests⟩

end Formula.Grammar
