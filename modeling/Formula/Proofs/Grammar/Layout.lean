import Formula.Proofs.Grammar.Numeral

/-! Texts as rows of pieces with white space between them. A row of pieces has many layouts, of which
one has no white space at all, and more white space may be put wherever there is room for some. -/

namespace Formula.Grammar

/-- The parts of a text that white space does not divide. -/
inductive Piece where
  | name (name : Name)
  | number (numeral : Numeral)
  /-- An infix operator. -/
  | operator {layer : Layer} (spelling : Spelling layer)
  /-- The sign of a negation. -/
  | minus
  /-- The exclamation mark after an operand. -/
  | mark
  | opening
  | closing
  | comma
  /-- The equals sign of an assignment. -/
  | equals

namespace Piece

def characters : Piece → List Char
  | .name spelled => spelled.characters
  | .number numeral => numeral.characters
  | .operator spelling => spelling.characters
  | .minus => ['-']
  | .mark => ['!']
  | .opening => ['(']
  | .closing => [')']
  | .comma => [',']
  | .equals => ['=']

def roomBefore : Piece → Bool
  | .operator _ | .closing | .comma | .equals => true
  | .name _ | .number _ | .minus | .mark | .opening => false

def roomAfter : Piece → Bool
  | .operator _ | .opening | .comma | .equals => true
  | .name _ | .number _ | .minus | .mark | .closing => false

end Piece

def spell (pieces : List Piece) : List Char :=
  pieces.flatMap Piece.characters

def withoutBlanks (text : List Char) : List Char :=
  text.filter (! Text.isBlank ·)

/-- White space, of which there may be none unless there is room. -/
def Gap (room : Bool) (blanks : List Char) : Prop :=
  Blank blanks ∧ (blanks ≠ [] → room = true)

/-- The texts in which pieces stand one after another, with white space where two neighbours leave
room for it. At both ends there may be more room than the pieces leave. -/
inductive Layout : Bool → List Piece → Bool → List Char → Prop where
  | done {before after : Bool} {blanks : List Char} (hGap : Gap (before || after) blanks) :
      Layout before [] after blanks
  | piece {before after : Bool} {piece : Piece} {pieces : List Piece} {blanks text : List Char}
      (hGap : Gap (before || piece.roomBefore) blanks)
      (hRest : Layout piece.roomAfter pieces after text) :
      Layout before (piece :: pieces) after (blanks ++ (piece.characters ++ text))

variable {before after room : Bool} {piece : Piece} {pieces earlier later : List Piece}
  {text front back blanks : List Char}

/-! ### Gaps -/

theorem gap_nil (room : Bool) : Gap room [] :=
  ⟨blank_nil, fun h => absurd rfl h⟩

theorem Blank.gap (h : Blank blanks) : Gap true blanks :=
  ⟨h, fun _ => rfl⟩

/-- Where there is room any white space may stand, and everywhere else none. -/
@[simp]
theorem gap_true_iff : Gap true blanks ↔ Blank blanks :=
  ⟨And.left, Blank.gap⟩

@[simp]
theorem gap_false_iff : Gap false blanks ↔ blanks = [] := by
  constructor
  · intro h
    by_contra hBlanks
    exact absurd (h.2 hBlanks) Bool.false_ne_true
  · rintro rfl
    exact gap_nil false

/-- Two gaps next to each other are a gap, with room if either of them has room. -/
theorem Gap.append {other : Bool} {blanks' : List Char} (h : Gap room blanks)
    (h' : Gap other blanks') : Gap (room || other) (blanks ++ blanks') := by
  refine ⟨h.1.append h'.1, fun hNonempty => ?_⟩
  by_cases hFirst : blanks = []
  · subst hFirst
    simp [h'.2 hNonempty]
  · simp [h.2 hFirst]

/-! ### The characters of pieces -/

/-- The characters of a number are digits, the decimal point, and the letter and sign of an exponent. -/
theorem Numeral.isDigit_or_mem (numeral : Numeral) {c : Char} (h : c ∈ numeral.characters) :
    c.isDigit = true ∨ c ∈ ['.', 'e', 'E', '+', '-'] := by
  rcases List.mem_append.mp h with hWhole | h
  · exact Or.inl (numeral.whole.decimal c hWhole)
  rcases List.mem_append.mp h with hFraction | hExponent
  · cases hDigits : numeral.fraction with
    | none => simp [hDigits, fractionCharacters] at hFraction
    | some digits =>
        rw [hDigits, fractionCharacters] at hFraction
        rcases List.mem_cons.mp hFraction with rfl | hDigit
        · simp
        · exact Or.inl (digits.decimal c hDigit)
  · cases hFound : numeral.exponent with
    | none => simp [hFound, exponentCharacters] at hExponent
    | some exponent =>
        rw [hFound, exponentCharacters, Exponent.characters] at hExponent
        rcases List.mem_cons.mp hExponent with rfl | hSigned
        · rcases exponent.marks with hMark | hMark <;> simp [hMark]
        rcases List.mem_append.mp hSigned with hSign | hDigit
        · rcases exponent.signs with hNone | hPlus | hMinus <;> simp_all
        · exact Or.inl (exponent.digits.decimal c hDigit)

/-- No operator has white space, a parenthesis or a comma in it. -/
theorem Spelling.isBlank_of_mem {layer : Layer} (spelling : Spelling layer) {c : Char}
    (h : c ∈ spelling.characters) : Text.isBlank c = false ∧ c ∉ ['(', ')', ','] := by
  have hAll : ∀ entry ∈ Operator.spellings, entry.1.toList.all
      (fun c => !Text.isBlank c && !(['(', ')', ','].contains c)) = true := by decide
  simpa using List.all_eq_true.mp (hAll _ spelling.listed) c h

namespace Piece

/-- No piece has white space in it. -/
theorem isBlank_of_mem {c : Char} (h : c ∈ piece.characters) : Text.isBlank c = false := by
  cases piece with
  | name spelled => exact isBlank_of_continuesName (spelled.continues_characters c h)
  | number numeral =>
      rcases numeral.isDigit_or_mem h with hDigit | hOther
      · exact isBlank_of_continuesName (continuesName_of_isDigit hDigit)
      · have hAll : ['.', 'e', 'E', '+', '-'].all (! Text.isBlank ·) = true := by decide
        simpa using List.all_eq_true.mp hAll c hOther
  | operator spelling => exact (spelling.isBlank_of_mem h).1
  | minus | mark | opening | closing | comma | equals =>
      obtain rfl := List.mem_singleton.mp h
      decide

theorem exists_cons (piece : Piece) :
    ∃ c others, piece.characters = c :: others ∧ Text.isBlank c = false := by
  have hNonempty : piece.characters ≠ [] := by
    cases piece with
    | name | minus | mark | opening | closing | comma | equals => exact List.cons_ne_nil _ _
    | number numeral => simp [characters, Numeral.characters, numeral.whole.nonempty]
    | operator spelling =>
        obtain ⟨c, others, hCharacters, _⟩ := spelling.exists_cons
        simp [characters, hCharacters]
  obtain ⟨c, others, hCharacters⟩ := List.exists_cons_of_ne_nil hNonempty
  exact ⟨c, others, hCharacters, piece.isBlank_of_mem (by simp [hCharacters])⟩

/-- Parentheses and commas are pieces of their own wherever they stand. -/
theorem eq_of_mem_characters {other : Piece} {c : Char} (hPiece : piece ∈ [opening, closing, comma])
    (h : c ∈ piece.characters) (hOther : c ∈ other.characters) : other = piece := by
  have hMark : c ∈ ['(', ')', ','] ∧ Lexeme.continuesName c = false ∧ c.isDigit = false ∧
      c ∉ ['.', 'e', 'E', '+', '-'] := by
    simp only [List.mem_cons, List.not_mem_nil, or_false] at hPiece
    rcases hPiece with rfl | rfl | rfl <;> obtain rfl := List.mem_singleton.mp h <;> decide
  cases other with
  | name spelled => simp [spelled.continues_characters c hOther] at hMark
  | number numeral =>
      rcases numeral.isDigit_or_mem hOther with hDigit | hMem
      · simp [hDigit] at hMark
      · exact absurd hMem hMark.2.2.2
  | operator spelling => exact absurd hMark.1 (spelling.isBlank_of_mem hOther).2
  | minus | mark | opening | closing | comma | equals =>
      obtain rfl := List.mem_singleton.mp hOther
      simp only [List.mem_cons, List.not_mem_nil, or_false] at hPiece
      rcases hPiece with rfl | rfl | rfl <;> simp [characters] at h ⊢

end Piece

/-! ### Deleting white space -/

@[simp]
theorem withoutBlanks_append (front back : List Char) :
    withoutBlanks (front ++ back) = withoutBlanks front ++ withoutBlanks back :=
  List.filter_append ..

theorem Blank.withoutBlanks_eq (h : Blank blanks) : withoutBlanks blanks = [] := by
  simpa [withoutBlanks, List.filter_eq_nil_iff, Blank] using h

theorem blank_of_withoutBlanks_eq_nil (h : withoutBlanks text = []) : Blank text := by
  simpa [withoutBlanks, List.filter_eq_nil_iff, Blank] using h

/-- Taking out white space leaves every piece as it is. -/
@[simp]
theorem Piece.withoutBlanks_characters (piece : Piece) :
    withoutBlanks piece.characters = piece.characters :=
  List.filter_eq_self.mpr fun c h => by simp [piece.isBlank_of_mem h]

@[simp]
theorem spell_cons : spell (piece :: pieces) = piece.characters ++ spell pieces :=
  rfl

/-- Where a text goes on with something else than white space, it is determined by its characters
other than white space how far it has come. -/
theorem front_eq_of_withoutBlanks_eq {front' back' : List Char} {c d : Char}
    (hFirst : Text.isBlank c = false) (hSecond : Text.isBlank d = false)
    (h : withoutBlanks front = withoutBlanks front')
    (hText : front ++ c :: back = front' ++ d :: back') : front = front' := by
  rcases List.append_eq_append_iff.mp hText with ⟨extra, rfl, hRest⟩ | ⟨extra, rfl, hRest⟩
  · have hExtra : Blank extra := blank_of_withoutBlanks_eq_nil (by simpa using h)
    rw [hExtra.eq_nil_of_append_eq_cons hFirst hRest.symm, List.append_nil]
  · have hExtra : Blank extra := blank_of_withoutBlanks_eq_nil (by simpa using h)
    rw [hExtra.eq_nil_of_append_eq_cons hSecond hRest.symm, List.append_nil]

/-! ### Layouts -/

/-- Whatever white space a layout has, without it there is only the row of pieces. -/
theorem Layout.withoutBlanks_eq (h : Layout before pieces after text) :
    withoutBlanks text = spell pieces := by
  induction h with
  | done hGap => exact hGap.1.withoutBlanks_eq
  | piece hGap _ ih => simp [hGap.1.withoutBlanks_eq, ih]

theorem layout_nil_iff : Layout before [] after text ↔ Gap (before || after) text := by
  constructor
  · rintro ⟨hGap⟩
    exact hGap
  · exact .done

/-- A layout of a row is a gap, the first piece and a layout of the others. -/
theorem layout_cons_iff : Layout before (piece :: pieces) after text ↔
    ∃ blanks rest, Gap (before || piece.roomBefore) blanks ∧
      text = blanks ++ (piece.characters ++ rest) ∧ Layout piece.roomAfter pieces after rest := by
  constructor
  · intro h
    cases h with
    | piece hGap hRest => exact ⟨_, _, hGap, rfl, hRest⟩
  · rintro ⟨blanks, rest, hGap, rfl, hRest⟩
    exact .piece hGap hRest

/-- No white space is needed anywhere. -/
theorem layout_spell (before : Bool) (pieces : List Piece) (after : Bool) :
    Layout before pieces after (spell pieces) := by
  induction pieces generalizing before with
  | nil => exact .done (gap_nil _)
  | cons piece pieces ih => exact .piece (gap_nil _) (ih piece.roomAfter)

/-- White space between two rows belongs to either of them. -/
theorem Layout.append (hFirst : Layout before earlier false front)
    (hSecond : Layout false later after back) :
    Layout before (earlier ++ later) after (front ++ back) := by
  induction earlier generalizing before front with
  | nil =>
      cases hFirst with
      | done hGap =>
          rw [Bool.or_false] at hGap
          -- What is left of the first row is a gap, and it joins the first gap of the second row.
          cases hSecond with
          | done hGap' => exact .done (hGap.append hGap')
          | piece hGap' hRest =>
              rw [← List.append_assoc]
              exact .piece (hGap.append hGap') hRest
  | cons piece earlier ih =>
      cases hFirst with
      | piece hGap hRest =>
          rw [List.append_assoc, List.append_assoc]
          exact .piece hGap (ih hRest)

/-- A row is laid out around each of its pieces. White space before the piece is counted to the
pieces before it. -/
theorem layout_append_cons_iff : Layout before (earlier ++ piece :: later) after text ↔
    ∃ front back, text = front ++ (piece.characters ++ back) ∧
      Layout before earlier piece.roomBefore front ∧ Layout piece.roomAfter later after back := by
  constructor
  · intro h
    induction earlier generalizing before text with
    | nil =>
        cases h with
        | piece hGap hRest => exact ⟨_, _, rfl, .done hGap, hRest⟩
    | cons first earlier ih =>
        cases h with
        | piece hGap hRest =>
            obtain ⟨front, back, rfl, hFront, hBack⟩ := ih hRest
            refine ⟨_, back, ?_, .piece hGap hFront, hBack⟩
            simp only [List.append_assoc]
  · rintro ⟨front, back, rfl, hFront, hBack⟩
    induction earlier generalizing before front with
    | nil =>
        cases hFront with
        | done hGap => exact .piece hGap hBack
    | cons first earlier ih =>
        cases hFront with
        | piece hGap hRest =>
            rw [List.append_assoc, List.append_assoc]
            exact .piece hGap (ih _ hRest)

/-- Room before a row is room for white space, after which the row begins at once. -/
theorem layout_before_iff : Layout true pieces after text ↔
    ∃ blanks rest, Blank blanks ∧ text = blanks ++ rest ∧ Layout false pieces after rest := by
  constructor
  · intro h
    cases h with
    | done hGap => exact ⟨text, [], hGap.1, by simp, .done (gap_nil _)⟩
    | @piece _ _ piece pieces blanks rest hGap hRest =>
        exact ⟨blanks, piece.characters ++ rest, hGap.1, rfl, .piece (gap_nil _) hRest⟩
  · rintro ⟨blanks, rest, hBlanks, rfl, h⟩
    cases h with
    | done hGap => exact .done (hBlanks.append hGap.1).gap
    | piece hGap hRest =>
        rw [← List.append_assoc]
        exact .piece (hBlanks.append hGap.1).gap hRest

theorem layout_after_iff : Layout before pieces true text ↔
    ∃ rest blanks, Blank blanks ∧ text = rest ++ blanks ∧ Layout before pieces false rest := by
  constructor
  · intro h
    induction pieces generalizing before text with
    | nil =>
        cases h with
        | done hGap => exact ⟨[], text, hGap.1, rfl, .done (gap_nil _)⟩
    | cons piece pieces ih =>
        cases h with
        | piece hGap hRest =>
            obtain ⟨rest, blanks, hBlanks, rfl, hPieces⟩ := ih hRest
            refine ⟨_, blanks, hBlanks, ?_, .piece hGap hPieces⟩
            simp only [List.append_assoc]
  · rintro ⟨rest, blanks, hBlanks, rfl, h⟩
    induction pieces generalizing before rest with
    | nil =>
        cases h with
        | done hGap =>
            rw [Bool.or_false] at hGap
            exact .done (hGap.append hBlanks.gap)
    | cons piece pieces ih =>
        cases h with
        | piece hGap hRest =>
            rw [List.append_assoc, List.append_assoc]
            exact .piece hGap (ih _ hRest)

/-- Two rows of which the second one begins with room before it are laid out apart. -/
theorem Layout.split (h : Layout before (earlier ++ later) false text)
    (hRoom : ∀ piece ∈ later.head?, piece.roomBefore = true) :
    ∃ front back, text = front ++ back ∧ Layout before earlier false front ∧
      Layout false later false back := by
  cases later with
  | nil =>
      rw [List.append_nil] at h
      exact ⟨text, [], by simp, h, .done (gap_nil _)⟩
  | cons piece later =>
      obtain ⟨front, back, rfl, hFront, hBack⟩ := layout_append_cons_iff.mp h
      rw [hRoom piece rfl] at hFront
      obtain ⟨rest, blanks, hBlanks, rfl, hRest⟩ := layout_after_iff.mp hFront
      refine ⟨rest, blanks ++ (piece.characters ++ back), by simp, hRest, .piece ?_ hBack⟩
      simpa [hRoom piece rfl] using hBlanks

/-! ### More white space -/

/-- Where there is room before a row there is room for more white space. -/
theorem Layout.blank_append (h : Layout true pieces after text) (hBlanks : Blank blanks) :
    Layout true pieces after (blanks ++ text) := by
  obtain ⟨blanks', rest, hBlanks', rfl, hRest⟩ := layout_before_iff.mp h
  exact layout_before_iff.mpr ⟨blanks ++ blanks', rest, hBlanks.append hBlanks', by simp, hRest⟩

theorem Layout.append_blank (h : Layout before pieces true text) (hBlanks : Blank blanks) :
    Layout before pieces true (text ++ blanks) := by
  obtain ⟨rest, blanks', hBlanks', rfl, hRest⟩ := layout_after_iff.mp h
  exact layout_after_iff.mpr ⟨rest, blanks' ++ blanks, hBlanks'.append hBlanks, by simp, hRest⟩

/-- In a row of pieces, a piece comes right after those that spell a text apart from its white
space. -/
def ComesAfter (pieces : List Piece) (piece : Piece) (front : List Char) : Prop :=
  ∃ earlier later, pieces = earlier ++ piece :: later ∧ withoutBlanks front = spell earlier

/-- Each piece of a row stands somewhere in the text. -/
theorem Layout.exists_place (h : Layout before (earlier ++ piece :: later) after text) :
    ∃ front back, text = front ++ (piece.characters ++ back) ∧ withoutBlanks front = spell earlier := by
  obtain ⟨front, back, hText, hFront, _⟩ := layout_append_cons_iff.mp h
  exact ⟨front, back, hText, hFront.withoutBlanks_eq⟩

/-- There is no other place where the piece stands. -/
theorem Layout.of_place (h : Layout before (earlier ++ piece :: later) after
    (front ++ (piece.characters ++ back))) (hFront : withoutBlanks front = spell earlier) :
    Layout before earlier piece.roomBefore front ∧ Layout piece.roomAfter later after back := by
  obtain ⟨front', back', hText, hEarlier, hLater⟩ := layout_append_cons_iff.mp h
  obtain ⟨c, others, hCharacters, hBlank⟩ := piece.exists_cons
  have hSame : withoutBlanks front = withoutBlanks front' := hFront.trans hEarlier.withoutBlanks_eq.symm
  obtain rfl : front = front' := by
    rw [hCharacters] at hText
    exact front_eq_of_withoutBlanks_eq hBlank hBlank hSame hText
  obtain rfl : back = back' := List.append_cancel_left (List.append_cancel_left hText)
  exact ⟨hEarlier, hLater⟩

/-- More white space fits before a piece that leaves room there. -/
theorem Layout.insert_before (h : Layout before pieces after (front ++ (piece.characters ++ back)))
    (hPlace : ComesAfter pieces piece front) (hRoom : piece.roomBefore = true)
    (hBlanks : Blank blanks) :
    Layout before pieces after (front ++ (blanks ++ (piece.characters ++ back))) := by
  obtain ⟨earlier, later, rfl, hFront⟩ := hPlace
  obtain ⟨hEarlier, hLater⟩ := h.of_place hFront
  rw [hRoom] at hEarlier
  refine layout_append_cons_iff.mpr ⟨front ++ blanks, back, by simp, ?_, hLater⟩
  rw [hRoom]
  exact hEarlier.append_blank hBlanks

theorem Layout.insert_after (h : Layout before pieces after (front ++ (piece.characters ++ back)))
    (hPlace : ComesAfter pieces piece front) (hRoom : piece.roomAfter = true)
    (hBlanks : Blank blanks) :
    Layout before pieces after (front ++ (piece.characters ++ (blanks ++ back))) := by
  obtain ⟨earlier, later, rfl, hFront⟩ := hPlace
  obtain ⟨hEarlier, hLater⟩ := h.of_place hFront
  rw [hRoom] at hLater
  refine layout_append_cons_iff.mpr ⟨front, blanks ++ back, rfl, hEarlier, ?_⟩
  rw [hRoom]
  exact hLater.blank_append hBlanks

/-- Wherever a parenthesis or a comma stands in the spelling of a row, it is a piece of the row. -/
theorem exists_pieces_of_spell (hPiece : piece ∈ [.opening, .closing, .comma])
    (h : spell pieces = front ++ (piece.characters ++ back)) :
    ∃ earlier later, pieces = earlier ++ piece :: later ∧ front = spell earlier ∧
      back = spell later := by
  obtain ⟨c, hCharacters⟩ : ∃ c, piece.characters = [c] := by
    simp only [List.mem_cons, List.not_mem_nil, or_false] at hPiece
    rcases hPiece with rfl | rfl | rfl <;> exact ⟨_, rfl⟩
  rw [hCharacters] at h
  induction pieces generalizing front with
  | nil => simp [spell] at h
  | cons first pieces ih =>
      by_cases hFirst : first = piece
      · subst hFirst
        rw [spell_cons, hCharacters] at h
        cases front with
        | nil =>
            obtain rfl : back = spell pieces := by simpa using h.symm
            exact ⟨[], pieces, rfl, rfl, rfl⟩
        | cons d front =>
            obtain ⟨rfl, hRest⟩ : c = d ∧ spell pieces = front ++ ([c] ++ back) := by simpa using h
            obtain ⟨earlier, later, rfl, rfl, rfl⟩ := ih hRest
            exact ⟨first :: earlier, later, rfl, by simp [hCharacters], rfl⟩
      · -- The piece that is looked for cannot stand within another one.
        have hNot : c ∉ first.characters := fun hMem =>
          hFirst (Piece.eq_of_mem_characters hPiece (by simp [hCharacters]) hMem)
        rcases List.append_eq_append_iff.mp h with ⟨extra, rfl, hRest⟩ | ⟨extra, hSplit, hRest⟩
        · obtain ⟨earlier, later, rfl, rfl, rfl⟩ := ih hRest
          exact ⟨first :: earlier, later, rfl, rfl, rfl⟩
        · cases extra with
          | nil =>
              obtain ⟨earlier, later, rfl, hNil, rfl⟩ := @ih [] hRest.symm
              refine ⟨first :: earlier, later, rfl, ?_, rfl⟩
              rw [spell_cons, ← hNil, hSplit]
              simp
          | cons d extra =>
              obtain rfl : c = d := by simpa using congrArg List.head? hRest
              simp [hSplit] at hNot

end Formula.Grammar
