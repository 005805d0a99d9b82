import Mathlib.Data.List.DropRight
import Mathlib.Tactic.IntervalCases
import Formula.Proofs.Grammar.Derivation

/-! Names, numbers, operators and white space as they are found at the start of a text. A spelling is
found in full wherever the text goes on with something that could not belong to it, and nothing but
a spelling is found. -/

namespace Formula.Grammar

variable {text rest : List Char} {c : Char}

/-- Nothing follows that could belong to a name or a number. -/
def EndsName (rest : List Char) : Prop :=
  ∀ c ∈ rest.head?, Lexeme.continuesName c = false

def EndsPrimary (rest : List Char) : Prop :=
  EndsName rest ∧ rest.head? ≠ some '('

def EndsOperand (rest : List Char) : Prop :=
  EndsPrimary rest ∧ rest.head? ≠ some '!'

/-! ### Characters -/

/-- The digits are those of ASCII, whatever other digits there are in Unicode. -/
theorem mem_of_isDigit (h : c.isDigit = true) :
    c ∈ ['0', '1', '2', '3', '4', '5', '6', '7', '8', '9'] := by
  have hRange : 48 ≤ c.toNat ∧ c.toNat ≤ 57 := by
    simpa [Char.isDigit, UInt32.le_iff_toNat_le] using h
  have hChar : c = Char.ofNat c.toNat := (Char.ofNat_toNat c).symm
  obtain ⟨hLow, hHigh⟩ := hRange
  generalize c.toNat = n at hLow hHigh hChar
  subst hChar
  interval_cases n <;> decide

theorem isNumeric_of_isDigit (h : c.isDigit = true) : Text.isNumeric c = true := by
  have hDigits : ∀ d ∈ ['0', '1', '2', '3', '4', '5', '6', '7', '8', '9'],
      Text.isNumeric d = true := List.all_eq_true.mp (by decide)
  exact hDigits c (mem_of_isDigit h)

/-- A digit may stand in a name, but a name cannot begin with one. -/
theorem continuesName_of_isDigit (h : c.isDigit = true) : Lexeme.continuesName c = true := by
  have hDigits : ∀ d ∈ ['0', '1', '2', '3', '4', '5', '6', '7', '8', '9'],
      Lexeme.continuesName d = true := List.all_eq_true.mp (by decide)
  exact hDigits c (mem_of_isDigit h)

theorem startsName_of_isDigit (h : c.isDigit = true) : Lexeme.startsName c = false := by
  simp [Lexeme.startsName, isNumeric_of_isDigit h]

theorem continuesName_of_startsName (h : Lexeme.startsName c = true) :
    Lexeme.continuesName c = true := by
  simp only [Lexeme.startsName, Bool.and_eq_true] at h
  exact h.1

/-- White space ends a name. -/
theorem isBlank_of_continuesName (h : Lexeme.continuesName c = true) : Text.isBlank c = false := by
  simp only [Lexeme.continuesName, Bool.and_eq_true, Bool.not_eq_true'] at h
  exact h.2

/-- Characters of names differ from all characters that end a name. -/
theorem ne_of_continuesName {d : Char} (hName : Lexeme.continuesName c = true)
    (hOther : Lexeme.continuesName d = false) : c ≠ d := by
  rintro rfl
  simp [hName] at hOther

/-! ### White space -/

/-- White space is skipped together with all the white space that follows it. -/
theorem Blank.skipBlanks_append {blanks : List Char} (h : Blank blanks) :
    Text.skipBlanks (blanks ++ rest) = Text.skipBlanks rest :=
  List.dropWhile_append_of_pos h

/-- Every text is some white space and then a text that begins with none. -/
theorem exists_blank_append (text : List Char) :
    ∃ blanks, Blank blanks ∧ text = blanks ++ Text.skipBlanks text :=
  ⟨text.takeWhile Text.isBlank, fun _ h => List.mem_takeWhile_imp h,
    List.takeWhile_append_dropWhile.symm⟩

theorem skipBlanks_cons (h : Text.isBlank c = false) : Text.skipBlanks (c :: rest) = c :: rest := by
  simp [Text.skipBlanks, h]

@[simp]
theorem skipBlanks_skipBlanks : Text.skipBlanks (Text.skipBlanks text) = Text.skipBlanks text :=
  List.dropWhile_idempotent ..

theorem Blank.append {first second : List Char} (hFirst : Blank first) (hSecond : Blank second) :
    Blank (first ++ second) := by
  intro c h
  exact (List.mem_append.mp h).elim (hFirst c) (hSecond c)

theorem blank_nil : Blank [] :=
  fun _ h => absurd h (List.not_mem_nil)

/-- There is no white space before a character at the start of a text. -/
theorem Blank.eq_nil_of_append_eq_cons {blanks others : List Char} (h : Blank blanks)
    (hBlank : Text.isBlank c = false) (hText : blanks ++ rest = c :: others) : blanks = [] := by
  cases blanks with
  | nil => rfl
  | cons d blanks =>
      obtain rfl : d = c := (List.cons.inj hText).1
      simp [h d List.mem_cons_self] at hBlank

/-! ### Rows of characters of one kind -/

/-- A row of characters of one kind is found as it is if no further one follows it. -/
theorem takeWhile_append_stop {p : Char → Bool} (hText : ∀ c ∈ text, p c = true)
    (hRest : ∀ c ∈ rest.head?, p c = false) : (text ++ rest).takeWhile p = text := by
  rw [List.takeWhile_append_of_pos hText]
  cases rest with
  | nil => simp
  | cons c rest => simp [hRest c rfl]

theorem dropWhile_append_stop {p : Char → Bool} (hText : ∀ c ∈ text, p c = true)
    (hRest : ∀ c ∈ rest.head?, p c = false) : (text ++ rest).dropWhile p = rest := by
  rw [List.dropWhile_append_of_pos hText]
  cases rest with
  | nil => simp
  | cons c rest => simp [hRest c rfl]

theorem head?_dropWhile {p : Char → Bool} : ∀ c ∈ (text.dropWhile p).head?, p c = false := by
  intro c h
  simpa [Option.mem_def.mp h] using List.head?_dropWhile_not p text

/-! ### Names -/

/-- A name is found at the start of a text if nothing follows that would make it longer. -/
theorem identifier?_append (name : Name) (h : EndsName rest) :
    Lexeme.identifier? (name.characters ++ rest) = some (name.text, rest) := by
  simp [Name.characters, Lexeme.identifier?, name.starts, Name.text,
    takeWhile_append_stop name.continues h, dropWhile_append_stop name.continues h]

/-- What is found is a name, and it is the longest one: what is left would not continue it. -/
theorem exists_name_of_identifier? {spelled : String}
    (h : Lexeme.identifier? text = some (spelled, rest)) :
    ∃ name : Name, text = name.characters ++ rest ∧ spelled = name.text ∧ EndsName rest := by
  cases text with
  | nil => simp [Lexeme.identifier?] at h
  | cons c others =>
      by_cases hStarts : Lexeme.startsName c = true
      · simp only [Lexeme.identifier?, hStarts, if_true, Option.some.injEq, Prod.mk.injEq] at h
        obtain ⟨rfl, rfl⟩ := h
        refine ⟨⟨c, others.takeWhile Lexeme.continuesName, hStarts,
          fun _ hMem => List.mem_takeWhile_imp hMem⟩, ?_, rfl, head?_dropWhile⟩
        simp [Name.characters, List.takeWhile_append_dropWhile]
      · simp [Lexeme.identifier?, hStarts] at h

theorem identifier?_eq_none (h : Lexeme.startsName c = false) :
    Lexeme.identifier? (c :: rest) = none := by
  simp [Lexeme.identifier?, h]

theorem Name.continues_characters (name : Name) :
    ∀ c ∈ name.characters, Lexeme.continuesName c = true := by
  intro c h
  rcases List.mem_cons.mp h with rfl | h
  · exact continuesName_of_startsName name.starts
  · exact name.continues c h

theorem Name.skipBlanks_append (name : Name) :
    Text.skipBlanks (name.characters ++ rest) = name.characters ++ rest :=
  skipBlanks_cons (isBlank_of_continuesName (continuesName_of_startsName name.starts))

/-- A name is the longest one at its place, so that a text cannot begin with two of them. -/
theorem Name.append_cancel {name other : Name} {rest' : List Char} (hRest : EndsName rest)
    (hRest' : EndsName rest') (h : name.characters ++ rest = other.characters ++ rest') :
    name = other ∧ rest = rest' := by
  have hTake := congrArg (List.takeWhile Lexeme.continuesName) h
  rw [takeWhile_append_stop name.continues_characters hRest,
    takeWhile_append_stop other.continues_characters hRest'] at hTake
  refine ⟨?_, List.append_cancel_left (hTake ▸ h)⟩
  cases name
  cases other
  simp only [Name.characters, List.cons.injEq] at hTake
  obtain ⟨rfl, rfl⟩ := hTake
  rfl

/-- The name that conditionals begin with. Calls and variables may have it as well. -/
def Name.conditional : Name :=
  ⟨'i', ['f'], by decide, List.all_eq_true.mp (by decide)⟩

/-! ### First digits -/

theorem Digits.exists_cons (digits : Digits) :
    ∃ c others, digits.characters = c :: others ∧ c.isDigit = true := by
  obtain ⟨c, others, hCharacters⟩ := List.exists_cons_of_ne_nil digits.nonempty
  exact ⟨c, others, hCharacters, digits.decimal c (by simp [hCharacters])⟩

/-- A number begins with a digit. -/
theorem Numeral.exists_cons (numeral : Numeral) :
    ∃ c others, numeral.characters = c :: others ∧ c.isDigit = true := by
  obtain ⟨c, others, hWhole, hDigit⟩ := numeral.whole.exists_cons
  exact ⟨c, _, by rw [Numeral.characters, hWhole, List.cons_append], hDigit⟩

/-! ### Operators -/

/-- What is found is one of the spellings of the layer, with the operator that it stands for. -/
theorem exists_spelling_of_operator? {layer : Layer} {operator : Operator}
    (h : Lexeme.operator? layer text = some (operator, rest)) :
    ∃ spelling : Spelling layer, text = spelling.characters ++ rest ∧
      spelling.operator = operator := by
  obtain ⟨⟨spelled, found⟩, hListed, hFound⟩ := List.exists_of_findSome?_eq_some h
  by_cases hLayer : found.layer = layer
  · simp only [hLayer, if_true, Option.map_eq_some_iff, Prod.mk.injEq] at hFound
    obtain ⟨tail, hTail, rfl, rfl⟩ := hFound
    exact ⟨⟨spelled, found, hListed, hLayer⟩,
      (List.isPrefixOf?_eq_some_iff_append_eq.mp hTail).symm, rfl⟩
  · simp [hLayer] at hFound

/-- Only a longer spelling of the same layer begins with another one, and it comes first. -/
theorem spellings_ordered : Operator.spellings.Pairwise fun earlier later =>
    ¬ earlier.1.toList <+: later.1.toList := by
  decide

/-- The longer of two spellings that begin alike has one more equals sign. -/
theorem spelling_extends : ∀ short ∈ Operator.spellings, ∀ long ∈ Operator.spellings,
    short.1.toList <+: long.1.toList →
      short = long ∨ (long.1.toList = short.1.toList ++ ['='] ∧ short.2.layer = long.2.layer) := by
  decide

/-- A spelling that stands before something else than an equals sign begins no other spelling that
stands at the same place. -/
theorem Spelling.eq_of_prefix {layer : Layer} (spelling : Spelling layer)
    (h : rest.head? ≠ some '=') {entry : String × Operator} (hEntry : entry ∈ Operator.spellings)
    {tail : List Char} (hText : entry.1.toList ++ tail = spelling.characters ++ rest) :
    entry = (spelling.text, spelling.operator) ∨
      (entry.1.toList <+: spelling.text.toList ∧ entry.2.layer = layer) := by
  have hEntryPrefix : entry.1.toList <+: spelling.characters ++ rest := ⟨tail, hText⟩
  have hSpellingPrefix : spelling.characters <+: spelling.characters ++ rest := ⟨rest, rfl⟩
  rcases List.prefix_or_prefix_of_prefix hEntryPrefix hSpellingPrefix with hShort | hLong
  · rcases spelling_extends entry hEntry _ spelling.listed hShort with hEq | ⟨_, hLayer⟩
    · exact Or.inl hEq
    · exact Or.inr ⟨hShort, hLayer.trans spelling.joins⟩
  · rcases spelling_extends _ spelling.listed entry hEntry hLong with hEq | ⟨hLonger, _⟩
    · exact Or.inl hEq.symm
    · rw [hLonger, Spelling.characters, List.append_assoc] at hText
      rw [← List.append_cancel_left hText] at h
      simp at h

/-- The first spelling that fits is the one that stands there, if no equals sign comes after it. -/
theorem operator?_append {layer : Layer} (spelling : Spelling layer) (h : rest.head? ≠ some '=') :
    Lexeme.operator? layer (spelling.characters ++ rest) = some (spelling.operator, rest) := by
  have hPrefix : spelling.text.toList.isPrefixOf? (spelling.characters ++ rest) = some rest :=
    List.isPrefixOf?_eq_some_iff_append_eq.mpr rfl
  have hSome : (Lexeme.operator? layer (spelling.characters ++ rest)).isSome := by
    refine List.findSome?_isSome_iff.mpr ⟨_, spelling.listed, ?_⟩
    simp [spelling.joins, hPrefix]
  obtain ⟨⟨operator, tail⟩, hFound⟩ := Option.isSome_iff_exists.mp hSome
  obtain ⟨before, entry, after, hList, hEntry, hBefore⟩ := List.findSome?_eq_some_iff.mp hFound
  have hOrder := hList ▸ spellings_ordered
  have hSpelling := hList ▸ spelling.listed
  have hText : entry.1.toList ++ tail = spelling.characters ++ rest := by
    simp only [Option.ite_none_right_eq_some, Option.map_eq_some_iff, Prod.mk.injEq] at hEntry
    obtain ⟨_, _, hTail, _, rfl⟩ := hEntry
    exact List.isPrefixOf?_eq_some_iff_append_eq.mp hTail
  have hEq : (spelling.text, spelling.operator) = entry := by
    rcases spelling.eq_of_prefix h (hList ▸ by simp) hText with hEq | ⟨hShort, _⟩
    · exact hEq.symm
    · rcases List.mem_append.mp hSpelling with hEarlier | hLater
      · have hNone := hBefore _ hEarlier
        simp [spelling.joins, hPrefix] at hNone
      · rcases List.mem_cons.mp hLater with hEq | hLater
        · exact hEq
        · exact absurd hShort (List.rel_of_pairwise_cons (List.pairwise_append.mp hOrder).2.1 hLater)
  subst hEq
  simpa [spelling.joins, hPrefix] using hFound.trans hEntry.symm

/-- Where one layer has an operator, no other layer has one. -/
theorem operator?_append_of_ne {layer other : Layer} (spelling : Spelling layer)
    (h : rest.head? ≠ some '=') (hOther : other ≠ layer) :
    Lexeme.operator? other (spelling.characters ++ rest) = none := by
  rw [Option.eq_none_iff_forall_ne_some]
  rintro ⟨operator, tail⟩ hFound
  obtain ⟨found, hText, rfl⟩ := exists_spelling_of_operator? hFound
  rcases spelling.eq_of_prefix h found.listed hText.symm with hEq | ⟨_, hLayer⟩
  · simp only [Prod.mk.injEq] at hEq
    exact hOther (by rw [← found.joins, hEq.2, spelling.joins])
  · exact hOther (by rw [← found.joins, hLayer])

/-- Of two spellings at the start of one text neither is a part of the other, unless an equals sign
follows. -/
theorem Spelling.append_cancel {layer : Layer} {spelling other : Spelling layer}
    {rest' : List Char} (hRest : rest.head? ≠ some '=') (hRest' : rest'.head? ≠ some '=')
    (h : spelling.characters ++ rest = other.characters ++ rest') :
    spelling = other ∧ rest = rest' := by
  have hFound := operator?_append spelling hRest
  rw [h, operator?_append other hRest', Option.some.injEq, Prod.mk.injEq] at hFound
  obtain ⟨hOperator, rfl⟩ := hFound
  have hCharacters := List.append_cancel_right h
  obtain ⟨text, operator, listed, joins⟩ := spelling
  obtain ⟨text', operator', listed', joins'⟩ := other
  obtain rfl : text = text' := String.toList_inj.mp hCharacters
  obtain rfl : operator' = operator := hOperator
  exact ⟨rfl, rfl⟩

/-- The first character of an operator is neither white space nor part of a name, and no other
punctuation. -/
theorem Spelling.exists_cons {layer : Layer} (spelling : Spelling layer) :
    ∃ c others, spelling.characters = c :: others ∧ Text.isBlank c = false ∧
      Lexeme.continuesName c = false ∧ c ∉ ['(', ')', ',', '!'] := by
  have hAll : ∀ entry ∈ Operator.spellings, entry.1.toList ≠ [] ∧
      entry.1.toList.head?.all (fun c => !Text.isBlank c && !Lexeme.continuesName c &&
        !(['(', ')', ',', '!'].contains c)) = true := by decide
  obtain ⟨hNonempty, hHead⟩ := hAll _ spelling.listed
  obtain ⟨c, others, hCharacters⟩ := List.exists_cons_of_ne_nil hNonempty
  simp only [hCharacters, List.head?_cons, Option.all_some, Bool.and_eq_true, Bool.not_eq_true',
    List.contains_eq_mem, decide_eq_false_iff_not] at hHead
  exact ⟨c, others, hCharacters, hHead.1.1, hHead.1.2, hHead.2⟩

theorem Spelling.skipBlanks_append {layer : Layer} (spelling : Spelling layer) :
    Text.skipBlanks (spelling.characters ++ rest) = spelling.characters ++ rest := by
  obtain ⟨c, others, hCharacters, hBlank, _⟩ := spelling.exists_cons
  rw [hCharacters]
  exact skipBlanks_cons hBlank

end Formula.Grammar
