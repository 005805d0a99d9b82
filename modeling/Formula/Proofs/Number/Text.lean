import Formula.Proofs.Grammar.Layout
import Formula.Proofs.Number.Rounding

/-! What a binary64 number is determines its bits. Only a NaN is not told apart by its shape, and
there is one NaN only. -/

namespace Formula.Number

open Float.Model Float.Model.UnpackedFloat

variable {x y : Float}

/-- All bits of the exponent are set, and some of the fraction. -/
theorem fields_of_shape_eq_nan (h : shape x = .nan) :
    x.toBits.toNat / leadingBit % 2048 = 2047 ∧ x.toBits.toNat % leadingBit ≠ 0 := by
  unfold shape at h
  dsimp only at h
  split at h
  · next hExponent =>
      split at h
      · cases h
      · next hFraction => exact ⟨hExponent, hFraction⟩
  · split at h <;> cases h

/-- The fields of a NaN are those of no number, so that the bits are those of the one NaN. -/
theorem isNaN_of_shape_eq_nan (h : shape x = .nan) : x.isNaN = true := by
  obtain ⟨hExponent, hFraction⟩ := fields_of_shape_eq_nan h
  have hBits : x.toModel.toBits.toBitVec = packedNaN Format.binary64 := by
    refine x.toModel.valid.eq_packedNaN ?_ ?_
    · have hSet : x.toModel.toBits.toNat / 4503599627370496 % 2048 = 2047 := hExponent
      apply BitVec.eq_of_toNat_eq
      simpa [unpackExponent, Nat.shiftRight_eq_div_pow] using hSet
    · intro hZero
      have hNone : x.toModel.toBits.toNat % 4503599627370496 = 0 := by
        simpa [unpackMantissa] using congrArg BitVec.toNat hZero
      exact hFraction hNone
  show (unpack Format.binary64 x.toModel.toBits.toBitVec).isNaN = true
  rw [hBits]
  rfl

/-! ### Shapes and bits -/

def signBit (negative : Bool) : Nat :=
  if negative then 2 ^ 63 else 0

/-- A number has no more bits than its sign, its exponent and its fraction. -/
theorem toBits_eq_fields (x : Float) :
    x.toBits.toNat = signBit (decide (Nat.pow 2 63 ≤ x.toBits.toNat)) +
      x.toBits.toNat / leadingBit % 2048 * leadingBit + x.toBits.toNat % leadingBit := by
  have hBit : leadingBit = 4503599627370496 := rfl
  have hSign : Nat.pow 2 63 = 9223372036854775808 := rfl
  have hRange := x.toBits.toNat_lt
  rw [signBit, hBit, hSign]
  by_cases hNegative : 9223372036854775808 ≤ x.toBits.toNat <;> simp [hNegative] <;> omega

theorem toBits_of_infinite {negative : Bool} (h : shape x = .infinite negative) :
    x.toBits.toNat = signBit negative + 2047 * leadingBit := by
  have hFields := toBits_eq_fields x
  unfold shape at h
  dsimp only at h
  split at h
  · next hExponent =>
      split at h
      · next hFraction =>
          cases h
          rwa [hExponent, hFraction, Nat.add_zero] at hFields
      · cases h
  · split at h <;> cases h

/-- The significand carries into the exponent. -/
theorem toBits_of_finite {negative : Bool} {magnitude : Binary}
    (h : shape x = .finite negative magnitude) : x.toBits.toNat = signBit negative +
      (magnitude.exponent + 1074).toNat * leadingBit + magnitude.significand := by
  have hFields := toBits_eq_fields x
  unfold shape at h
  dsimp only at h
  split at h
  · split at h <;> cases h
  · split at h
    · next hExponent =>
        cases h
        rwa [hExponent] at hFields
    · next hExponent =>
        cases h
        generalize x.toBits.toNat / leadingBit % 2048 = exponent at hExponent hFields
        obtain ⟨before, rfl⟩ := Nat.exists_eq_add_one_of_ne_zero hExponent
        have hBefore : (Int.ofNat (before + 1) - 1075 + 1074).toNat = before := by
          simp only [Int.ofNat_eq_natCast]
          omega
        rw [Nat.succ_mul] at hFields
        dsimp only
        rw [hBefore]
        omega

/-- There is one number for every row of 64 bits. -/
theorem eq_of_toBits_eq (h : x.toBits = y.toBits) : x = y := by
  obtain ⟨⟨bits, _⟩⟩ := x
  obtain ⟨⟨bits', _⟩⟩ := y
  obtain rfl : bits = bits' := h
  rfl

/-- The shape tells which number it is, unless it is that of a NaN. -/
theorem eq_of_shape_eq (hx : x.isNaN = false) (h : shape x = shape y) : x = y := by
  apply eq_of_toBits_eq
  apply UInt64.toNat_inj.mp
  cases hShape : shape x with
  | nan => exact absurd (isNaN_of_shape_eq_nan hShape) (Bool.eq_false_iff.mp hx)
  | infinite negative => rw [toBits_of_infinite hShape, toBits_of_infinite (h ▸ hShape)]
  | finite negative magnitude => rw [toBits_of_finite hShape, toBits_of_finite (h ▸ hShape)]

/-- Only the numbers with the least exponent lack the leading bit. -/
theorem normalized_of_shape {negative : Bool} {magnitude : Binary}
    (h : shape x = .finite negative magnitude) : magnitude.Normalized := by
  have hBit : leadingBit = 2 ^ 52 := rfl
  have hFraction : x.toBits.toNat % leadingBit < leadingBit := Nat.mod_lt _ (by decide)
  unfold shape at h
  dsimp only at h
  split at h
  · split at h <;> cases h
  · split at h
    · cases h
      exact ⟨le_refl _, by dsimp only; omega, by simp⟩
    · cases h
      constructor <;> simp only [Int.ofNat_eq_natCast] <;> omega

end Formula.Number

/-! The text of a number tells which number it is. What is written for a magnitude is a numeral of
the grammar, whose value rounds to this magnitude and to no other. -/

namespace Formula

open Grammar

namespace Number

/-! ### Rows of digits -/

/-- Digits in front count as much more as there are digits behind them. -/
theorem ofDigits_append (front back : List Char) :
    ofDigits (front ++ back) = 10 ^ back.length * ofDigits front + ofDigits back :=
  (Nat.ofDigitChars_append 0).trans Nat.ofDigitChars_eq_ofDigitChars_zero

theorem ofDigits_toDigits (n : Nat) : ofDigits (Nat.toDigits 10 n) = n :=
  Nat.ofDigitChars_toDigits (b := 10) (by decide) (by decide)

theorem ofDigits_replicate_zero (n : Nat) : ofDigits (List.replicate n '0') = 0 :=
  Nat.ofDigitChars_replicate_zero

theorem isDigit_of_mem_numerals (d : Decimal) : ∀ c ∈ d.numerals, c.isDigit = true :=
  fun _ h => Nat.isDigit_of_mem_toDigits (by decide) (by decide) h

theorem isDigit_of_mem_replicate {n : Nat} : ∀ c ∈ List.replicate n '0', c.isDigit = true := by
  intro c h
  rw [List.eq_of_mem_replicate h]
  decide

end Number

namespace Grammar

def Exponent.ofInt (n : Int) : Exponent where
  mark := 'e'
  sign := if n < 0 then some '-' else none
  digits := ⟨Nat.toDigits 10 n.natAbs, Nat.toDigits_ne_nil, fun _ h =>
    Nat.isDigit_of_mem_toDigits (by decide) (by decide) h⟩
  marks := Or.inl rfl
  signs := by split <;> simp

/-- An exponent is written after its mark as whole numbers are written. -/
theorem Exponent.characters_ofInt (n : Int) :
    (Exponent.ofInt n).characters = 'e' :: (toString n).toList := by
  cases n with
  | ofNat n =>
      rw [Int.toString_eq_repr, Int.repr, Nat.toList_repr]
      simp [characters, ofInt]
  | negSucc n =>
      rw [Int.toString_eq_repr, Int.repr, String.toList_append, Nat.toList_repr]
      simp [characters, ofInt, Int.negSucc_lt_zero]

theorem Exponent.value_ofInt (n : Int) : (Exponent.ofInt n).value = n := by
  cases n with
  | ofNat n => simp [value, ofInt, Number.ofDigits_toDigits]
  | negSucc n =>
      have hSign : (ofInt (Int.negSucc n)).sign = some '-' := if_pos (Int.negSucc_lt_zero n)
      rw [value, if_pos hSign]
      show -Int.ofNat (Number.ofDigits (Nat.toDigits 10 (n + 1))) = Int.negSucc n
      rw [Number.ofDigits_toDigits]
      rfl

def Numeral.decimal (numeral : Numeral) : Number.Decimal :=
  .ofParts numeral.whole.characters (numeral.fraction.elim [] Digits.characters)
    (numeral.exponent.elim 0 Exponent.value)

end Grammar

namespace Number

namespace Decimal

/-! ### Layouts of decimals -/

theorem value_ofParts (whole fraction : List Char) (exponent : Int) :
    (ofParts whole fraction exponent).value =
      ofDigits (whole ++ fraction) * 10 ^ (exponent - fraction.length) :=
  rfl

/-- Zeros are appended up to the point, and a single zero comes after it. -/
theorem exists_numeral_of_nonneg {d : Decimal} (h : 0 ≤ d.exponent) : ∃ numeral : Numeral,
    numeral.characters = d.positional true ∧ numeral.decimal.value = d.value := by
  obtain ⟨digits, exponent⟩ := d
  obtain ⟨zeros, rfl⟩ := Int.eq_ofNat_of_zero_le h
  let d : Decimal := ⟨digits, zeros⟩
  have hDigits : ∀ c ∈ d.numerals ++ List.replicate zeros '0', c.isDigit = true :=
    List.forall_mem_append.mpr ⟨isDigit_of_mem_numerals d, isDigit_of_mem_replicate⟩
  have hNonempty : d.numerals ++ List.replicate zeros '0' ≠ [] :=
    List.append_ne_nil_of_left_ne_nil Nat.toDigits_ne_nil _
  let zero : Digits := ⟨['0'], by simp, by simp⟩
  refine ⟨⟨⟨_, hNonempty, hDigits⟩, some zero, none⟩, ?_, ?_⟩
  · simp [Numeral.characters, Numeral.fractionCharacters, Numeral.exponentCharacters, positional,
      zero, d]
  · have hRow : ofDigits ((d.numerals ++ List.replicate zeros '0') ++ ['0']) =
        10 * (10 ^ zeros * digits) := by
      rw [ofDigits_append, ofDigits_append, ofDigits_replicate_zero, numerals, ofDigits_toDigits,
        List.length_replicate]
      rfl
    simp only [Numeral.decimal, Option.elim, zero, value_ofParts, hRow]
    simp [value]
    ring

/-- Zeros are put before the digits, so that there is at least one before the point. -/
theorem exists_numeral_of_neg {d : Decimal} (h : d.exponent < 0) : ∃ numeral : Numeral,
    numeral.characters = d.positional true ∧ numeral.decimal.value = d.value := by
  let places := (-d.exponent).toNat
  let padded := List.replicate (places + 1 - d.numerals.length) '0' ++ d.numerals
  have hLength : places + 1 ≤ padded.length := by
    simp only [padded, List.length_append, List.length_replicate]
    omega
  have hPlaces : 0 < places := by omega
  have hDigits : ∀ c ∈ padded, c.isDigit = true :=
    List.forall_mem_append.mpr ⟨isDigit_of_mem_replicate, isDigit_of_mem_numerals d⟩
  let whole : Digits := ⟨padded.take (padded.length - places),
    List.ne_nil_of_length_pos (by simp only [List.length_take]; omega),
    fun c hMem => hDigits c (List.mem_of_mem_take hMem)⟩
  let fraction : Digits := ⟨padded.drop (padded.length - places),
    List.ne_nil_of_length_pos (by simp only [List.length_drop]; omega),
    fun c hMem => hDigits c (List.mem_of_mem_drop hMem)⟩
  refine ⟨⟨whole, some fraction, none⟩, ?_, ?_⟩
  · rw [positional, if_neg (by omega)]
    simp [Numeral.characters, Numeral.fractionCharacters, Numeral.exponentCharacters, whole,
      fraction, padded, places]
  · have hRow : ofDigits (whole.characters ++ fraction.characters) = d.digits := by
      simp only [whole, fraction, List.take_append_drop, padded]
      rw [ofDigits_append, ofDigits_replicate_zero, numerals, ofDigits_toDigits]
      omega
    have hFraction : fraction.characters.length = places := by
      simp only [fraction, List.length_drop]
      omega
    have hExponent : (0 : Int) - places = d.exponent := by omega
    simp only [Numeral.decimal, Option.elim, value_ofParts, hRow, hFraction, hExponent]
    rfl

/-- One digit comes before the point, so that the exponent is the order of the decimal. -/
theorem exists_numeral_scientific (d : Decimal) : ∃ numeral : Numeral,
    numeral.characters = d.scientific ∧ numeral.decimal.value = d.value := by
  obtain ⟨c, further, hNumerals⟩ : ∃ c further, d.numerals = c :: further :=
    List.exists_cons_of_ne_nil Nat.toDigits_ne_nil
  have hDigits := isDigit_of_mem_numerals d
  rw [hNumerals] at hDigits
  obtain ⟨hFirst, hFurther⟩ := List.forall_mem_cons.mp hDigits
  have hRow : ofDigits ([c] ++ further) = d.digits := by
    rw [List.singleton_append, ← hNumerals, numerals, ofDigits_toDigits]
  have hOrder : d.order - further.length = d.exponent := by
    rw [order, hNumerals, List.length_cons]
    push_cast
    ring
  let whole : Digits := ⟨[c], by simp, by simpa using hFirst⟩
  obtain ⟨fraction, hFraction, hSpelled⟩ : ∃ fraction : Option Digits,
      fraction.elim [] Digits.characters = further ∧
        Numeral.fractionCharacters fraction = if further.isEmpty then [] else '.' :: further := by
    by_cases hEmpty : further = []
    · exact ⟨none, hEmpty.symm, by simp [hEmpty, Numeral.fractionCharacters]⟩
    · exact ⟨some ⟨further, hEmpty, hFurther⟩, rfl, by simp [hEmpty, Numeral.fractionCharacters]⟩
  refine ⟨⟨whole, fraction, some (.ofInt d.order)⟩, ?_, ?_⟩
  · simp [Numeral.characters, Numeral.exponentCharacters, Exponent.characters_ofInt, hSpelled,
      scientific, hNumerals, whole]
  · simp only [Numeral.decimal, Option.elim_some, hFraction, value_ofParts, Exponent.value_ofInt,
      whole, hRow, hOrder]
    rfl

/-- A decimal is written as a numeral of the same value. -/
theorem exists_numeral_compactLayout (d : Decimal) : ∃ numeral : Numeral,
    numeral.characters = compactLayout d ∧ numeral.decimal.value = d.value := by
  unfold compactLayout
  split
  · rcases lt_or_ge d.exponent 0 with hNegative | hWhole
    · exact exists_numeral_of_neg hNegative
    · exact exists_numeral_of_nonneg hWhole
  · exact d.exists_numeral_scientific

end Decimal

/-! ### Texts of numbers -/

variable {x y : Float}

def signed (negative : Bool) (body : List Char) : List Char :=
  if negative then '-' :: body else body

/-- The sign can be told from the text, because nothing without a sign begins with a minus. -/
theorem signed_inj {negative negative' : Bool} {body body' : List Char}
    (hBody : body.head? ≠ some '-') (hBody' : body'.head? ≠ some '-')
    (h : signed negative body = signed negative' body') : negative = negative' ∧ body = body' := by
  cases negative <;> cases negative' <;> simp only [signed] at h
  · exact ⟨rfl, h⟩
  · simp [show body = '-' :: body' from h] at hBody
  · simp [show body' = '-' :: body from h.symm] at hBody'
  · exact ⟨rfl, List.tail_eq_of_cons_eq h⟩

/-- The texts that a number of a given shape may have. -/
inductive Spells : Shape → List Char → Prop where
  | infinite (negative : Bool) : Spells (.infinite negative) (signed negative ['i', 'n', 'f'])
  | finite (negative : Bool) {magnitude : Binary} (numeral : Numeral)
      (h : magnitude.Rounds numeral.decimal.value) :
      Spells (.finite negative magnitude) (signed negative numeral.characters)

/-- What is written for a number spells its shape, whether it is finite or not. -/
theorem spells_text (hx : x.isNaN = false) : Spells (shape x) (text x).toList := by
  cases hShape : shape x with
  | nan => exact absurd (isNaN_of_shape_eq_nan hShape) (Bool.eq_false_iff.mp hx)
  | infinite negative =>
      simp only [text, textWith, hShape, String.toList_ofList]
      exact .infinite negative
  | finite negative magnitude =>
      obtain ⟨numeral, hLayout, hValue⟩ := magnitude.shortest.exists_numeral_compactLayout
      simp only [text, textWith, hShape, String.toList_ofList, ← hLayout]
      exact .finite negative numeral (hValue ▸ magnitude.rounds_shortest)

theorem head?_numeral_ne {c : Char} (h : c.isDigit = false) (numeral : Numeral) :
    numeral.characters.head? ≠ some c := by
  obtain ⟨d, others, hCharacters, hDigit⟩ := numeral.exists_cons
  rw [hCharacters, List.head?_cons]
  rintro ⟨rfl⟩
  simp [h] at hDigit

namespace Spells

variable {first second : Shape} {characters : List Char}

/-- A text is that of one shape only. -/
theorem unique (hFirst : Spells first characters) (hSecond : Spells second characters)
    (hNormalized : ∀ negative magnitude, first = .finite negative magnitude → magnitude.Normalized)
    (hNormalized' : ∀ negative magnitude, second = .finite negative magnitude →
      magnitude.Normalized) : first = second := by
  have hMinus (numeral : Numeral) := head?_numeral_ne (c := '-') (by decide) numeral
  have hLetter (numeral : Numeral) := head?_numeral_ne (c := 'i') (by decide) numeral
  have hWord : ['i', 'n', 'f'].head? ≠ some '-' := by decide
  generalize hText : characters = other at hSecond
  cases hFirst with
  | infinite negative =>
      cases hSecond with
      | infinite negative' =>
          obtain ⟨rfl, _⟩ := signed_inj hWord hWord hText
          rfl
      | finite negative' numeral =>
          obtain ⟨_, hBody⟩ := signed_inj hWord (hMinus numeral) hText
          exact absurd (by rw [← hBody]; rfl) (hLetter numeral)
  | finite negative numeral hRounds =>
      cases hSecond with
      | infinite negative' =>
          obtain ⟨_, hBody⟩ := signed_inj (hMinus numeral) hWord hText
          exact absurd (by rw [hBody]; rfl) (hLetter numeral)
      | finite negative' numeral' hRounds' =>
          obtain ⟨rfl, hBody⟩ := signed_inj (hMinus numeral) (hMinus numeral') hText
          have hEnds : EndsName [] := by simp [EndsName]
          obtain ⟨rfl, _⟩ := Numeral.append_cancel hEnds hEnds (congrArg (· ++ []) hBody)
          rw [hRounds.unique (hNormalized _ _ rfl) (hNormalized' _ _ rfl) hRounds']

/-- A number's text is a word, or it begins with a digit or a sign. -/
theorem exists_cons (h : Spells first characters) : characters = ['i', 'n', 'f'] ∨
    ∃ c others, characters = c :: others ∧ (c.isDigit = true ∨ c = '-') := by
  cases h with
  | infinite negative =>
      cases negative with
      | true => exact Or.inr ⟨_, _, rfl, Or.inr rfl⟩
      | false => exact Or.inl rfl
  | finite negative numeral =>
      cases negative with
      | true => exact Or.inr ⟨_, _, rfl, Or.inr rfl⟩
      | false =>
          obtain ⟨c, others, hCharacters, hDigit⟩ := numeral.exists_cons
          exact Or.inr ⟨c, others, hCharacters, Or.inl hDigit⟩

/-- No parenthesis and no comma is in a number's text. -/
theorem not_mem (h : Spells first characters) : ∀ c ∈ characters, c ∉ ['(', ')', ','] := by
  have hSigned (negative : Bool) {body : List Char} (hBody : ∀ c ∈ body, c ∉ ['(', ')', ',']) :
      ∀ c ∈ signed negative body, c ∉ ['(', ')', ','] := by
    cases negative with
    | false => exact hBody
    | true => exact List.forall_mem_cons.mpr ⟨by decide, hBody⟩
  cases h with
  | infinite negative => exact hSigned negative (by simp)
  | finite negative numeral =>
      refine hSigned negative fun c hMem hOther => ?_
      rcases numeral.isDigit_or_mem hMem with hDigit | hPoint
      · simp only [List.mem_cons, List.not_mem_nil, or_false] at hOther
        rcases hOther with rfl | rfl | rfl <;> exact absurd hDigit (by decide)
      · simp only [List.mem_cons, List.not_mem_nil, or_false] at hOther hPoint
        rcases hOther with rfl | rfl | rfl <;> simp at hPoint

end Spells

/-- No two numbers have the same text. -/
theorem text_inj (hx : x.isNaN = false) (hy : y.isNaN = false) (h : text x = text y) : x = y := by
  have hSecond := spells_text hy
  rw [← h] at hSecond
  exact eq_of_shape_eq hx ((spells_text hx).unique hSecond (fun _ _ => normalized_of_shape)
    fun _ _ => normalized_of_shape)

end Number

end Formula
