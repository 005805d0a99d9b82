import Mathlib.Data.List.Forall2
import Formula.Proofs.Grammar.Recognition

/-! The signs `×` and `÷`, for which `*` and `/` may be written. Names, numbers and white space have
none of them, and operators have both spellings, so that the same is found at the start of a text
whichever way its signs are spelled. -/

namespace Formula.Grammar

section Signs

def signs : List Char :=
  ['×', '÷', '*', '/']

def plainSign (c : Char) : Char :=
  if c = '×' then '*' else if c = '÷' then '/' else c

def respell (text : List Char) : List Char :=
  text.map plainSign

variable {text : List Char} {c : Char}

/-- What is to be shown of every sign is shown of four characters. -/
theorem forall_mem_signs {P : Char → Prop} :
    (∀ c ∈ signs, P c) ↔ P '×' ∧ P '÷' ∧ P '*' ∧ P '/' := by
  simp [signs]

theorem plainSign_of_not_mem (h : c ∉ signs) : plainSign c = c := by
  simp only [signs, List.mem_cons, not_or] at h
  simp [plainSign, h.1, h.2.1]

/-- Spelling a sign in another way gives a sign, and no other character becomes one. -/
theorem plainSign_mem_signs (h : c ∈ signs) : plainSign c ∈ signs := by
  have hAll : ∀ d ∈ signs, plainSign d ∈ signs := forall_mem_signs.mpr (by decide)
  exact hAll c h

/-- Only what is itself a character other than a sign is spelled as that character. -/
theorem plainSign_eq_iff {d : Char} (h : d ∉ signs) : plainSign c = d ↔ c = d := by
  by_cases hSign : c ∈ signs
  · exact iff_of_false (fun hEq => h (hEq ▸ plainSign_mem_signs hSign)) fun hEq => h (hEq ▸ hSign)
  · rw [plainSign_of_not_mem hSign]

@[simp]
theorem length_respell (text : List Char) : (respell text).length = text.length :=
  List.length_map ..

@[simp]
theorem respell_cons (c : Char) (text : List Char) :
    respell (c :: text) = plainSign c :: respell text :=
  rfl

/-! ### Lexemes -/

section Rows

variable {p : Char → Bool} (hSigns : ∀ c ∈ signs, p c = false)

include hSigns in
/-- A kind of characters without signs does not tell the two spellings apart. -/
theorem class_plainSign (c : Char) : p (plainSign c) = p c := by
  by_cases hSign : c ∈ signs
  · rw [hSigns c hSign, hSigns _ (plainSign_mem_signs hSign)]
  · rw [plainSign_of_not_mem hSign]

include hSigns in
theorem plainSign_of_class (h : p c = true) : plainSign c = c :=
  plainSign_of_not_mem fun hSign => by simp [hSigns c hSign] at h

include hSigns in
/-- No sign is in a row of characters of a kind without signs. -/
theorem takeWhile_respell (text : List Char) : (respell text).takeWhile p = text.takeWhile p := by
  induction text with
  | nil => rfl
  | cons c text ih =>
      rw [respell_cons, List.takeWhile_cons, List.takeWhile_cons, class_plainSign hSigns, ih]
      split
      · next h => rw [plainSign_of_class hSigns h]
      · rfl

include hSigns in
/-- What comes after such a row is spelled in the other way. -/
theorem dropWhile_respell (text : List Char) :
    (respell text).dropWhile p = respell (text.dropWhile p) := by
  induction text with
  | nil => rfl
  | cons c text ih =>
      rw [respell_cons, List.dropWhile_cons, List.dropWhile_cons, class_plainSign hSigns, ih]
      split <;> rfl

end Rows

/-- Signs are punctuation, so that a name ends before them in either spelling. -/
theorem continuesName_of_mem_signs : ∀ c ∈ signs, Lexeme.continuesName c = false :=
  forall_mem_signs.mpr (by decide)

theorem startsName_of_mem_signs : ∀ c ∈ signs, Lexeme.startsName c = false :=
  forall_mem_signs.mpr (by decide)

theorem isDigit_of_mem_signs : ∀ c ∈ signs, c.isDigit = false :=
  forall_mem_signs.mpr (by decide)

theorem isBlank_of_mem_signs : ∀ c ∈ signs, Text.isBlank c = false :=
  forall_mem_signs.mpr (by decide)

/-- A text begins with a row of other characters no matter how signs are spelled. -/
theorem isPrefixOf?_respell {characters : List Char} (h : ∀ c ∈ characters, c ∉ signs)
    (text : List Char) :
    characters.isPrefixOf? (respell text) = (characters.isPrefixOf? text).map respell := by
  induction characters generalizing text with
  | nil => rfl
  | cons c characters ih =>
      obtain ⟨hFirst, hOthers⟩ := List.forall_mem_cons.mp h
      cases text with
      | nil => rfl
      | cons d text =>
          have hSame : (c == plainSign d) = (c == d) := by
            rw [Bool.eq_iff_iff, beq_iff_eq, beq_iff_eq, eq_comm, plainSign_eq_iff hFirst, eq_comm]
          simp only [respell_cons, List.isPrefixOf?, hSame, ih hOthers]
          split <;> rfl

/-- The same white space is skipped, because no sign is white space. -/
theorem skipBlanks_respell (text : List Char) :
    Text.skipBlanks (respell text) = respell (Text.skipBlanks text) :=
  dropWhile_respell isBlank_of_mem_signs text

/-- The digits found are the same characters, and only the text after them is spelled in another way.
-/
theorem splitDigits_respell (text : List Char) : Number.splitDigits (respell text) =
    ((Number.splitDigits text).1, respell (Number.splitDigits text).2) := by
  rw [Number.splitDigits, takeWhile_respell isDigit_of_mem_signs,
    dropWhile_respell isDigit_of_mem_signs, Number.splitDigits]

theorem splitFraction_respell (text : List Char) : Number.splitFraction (respell text) =
    ((Number.splitFraction text).1, respell (Number.splitFraction text).2) := by
  cases text with
  | nil => rfl
  | cons c text =>
      by_cases hPoint : c = '.'
      · subst hPoint
        rw [respell_cons, plainSign_of_not_mem (by decide)]
        simp only [Number.splitFraction, splitDigits_respell]
        split <;> rfl
      · have hOther : plainSign c ≠ '.' := by rwa [Ne, plainSign_eq_iff (by decide)]
        simp [Number.splitFraction, hPoint, hOther]

/-- The sign of an exponent is a plus or a minus, which have one spelling only. -/
theorem splitSign_respell (text : List Char) :
    splitSign (respell text) = ((splitSign text).1, respell (splitSign text).2) := by
  cases text with
  | nil => rfl
  | cons c text =>
      by_cases hMinus : c = '-'
      · subst hMinus
        rfl
      by_cases hPlus : c = '+'
      · subst hPlus
        rfl
      have hMinus' : plainSign c ≠ '-' := by rwa [Ne, plainSign_eq_iff (by decide)]
      have hPlus' : plainSign c ≠ '+' := by rwa [Ne, plainSign_eq_iff (by decide)]
      simp [splitSign, hMinus, hPlus, hMinus', hPlus']

/-- The value of an exponent is the same number, and what is left of the text is respelled. -/
theorem splitExponent_respell (text : List Char) : Number.splitExponent (respell text) =
    ((Number.splitExponent text).1, respell (Number.splitExponent text).2) := by
  cases text with
  | nil => rfl
  | cons mark text =>
      by_cases hMark : mark = 'e' ∨ mark = 'E'
      · have hPlain : plainSign mark = mark := by rcases hMark with rfl | rfl <;> decide
        rw [respell_cons, hPlain, splitExponent_of_mark hMark, splitExponent_of_mark hMark,
          splitSign_respell]
        simp only [splitDigits_respell]
        split
        · rw [respell_cons, hPlain]
        · rfl
      · have hOther : ¬ (plainSign mark = 'e' ∨ plainSign mark = 'E') := by
          rwa [plainSign_eq_iff (by decide), plainSign_eq_iff (by decide)]
        unfold Number.splitExponent
        simp only [respell_cons, if_neg hMark, if_neg hOther]

/-- What is found at the start of a text is found in the other spelling as well. -/
def Ignores {α : Type} (find? : List Char → Option (α × List Char)) : Prop :=
  ∀ text, find? (respell text) = (find? text).map fun (a, rest) => (a, respell rest)

/-- A name is the same in both spellings: it has no sign in it, and a sign ends it. -/
theorem identifier?_ignores : Ignores Lexeme.identifier? := by
  rintro (_ | ⟨c, text⟩)
  · rfl
  · simp only [respell_cons, Lexeme.identifier?, class_plainSign startsName_of_mem_signs,
      takeWhile_respell continuesName_of_mem_signs, dropWhile_respell continuesName_of_mem_signs]
    split
    · next h => rw [plainSign_of_class startsName_of_mem_signs h, Option.map_some]
    · rfl

/-- A number is the same in both spellings, since no part of it can contain a sign. -/
theorem number?_ignores : Ignores Lexeme.number? := by
  intro text
  simp only [Lexeme.number?, splitDigits_respell, splitFraction_respell, splitExponent_respell]
  split <;> rfl

/-- Every spelling of an operator is either a sign or has none in it. -/
theorem spelling_sign_or_free {entry : String × Operator} (h : entry ∈ Operator.spellings) :
    (∃ sign ∈ signs, entry.1.toList = [sign]) ∨ ∀ c ∈ entry.1.toList, c ∉ signs := by
  have hAll : ∀ entry ∈ Operator.spellings, (signs.any (entry.1.toList == [·]) ||
      entry.1.toList.all (!signs.contains ·)) = true := by decide
  simpa using hAll entry h

/-- A search through a table follows a change of what each of its entries gives. -/
theorem findSome?_eq_map {α β : Type} {f f' : α → Option β} {g : β → β} {entries : List α}
    (h : ∀ entry ∈ entries, f' entry = (f entry).map g) :
    entries.findSome? f' = (entries.findSome? f).map g := by
  induction entries with
  | nil => rfl
  | cons entry entries ih =>
      obtain ⟨hFirst, hOthers⟩ := List.forall_mem_cons.mp h
      rw [List.findSome?_cons, List.findSome?_cons, hFirst, ih hOthers]
      cases f entry <;> rfl

/-- The two spellings of a sign stand for the same operator, and no other spelling has a sign in it.
-/
theorem operator?_ignores (layer : Layer) : Ignores (Lexeme.operator? layer) := by
  rintro (_ | ⟨c, text⟩)
  · cases layer <;> rfl
  by_cases hSign : c ∈ signs
  · simp only [signs, List.mem_cons, List.not_mem_nil, or_false] at hSign
    rcases hSign with rfl | rfl | rfl | rfl <;> cases layer <;> rfl
  · refine findSome?_eq_map fun entry hEntry => ?_
    have hPrefix : entry.1.toList.isPrefixOf? (respell (c :: text)) =
        (entry.1.toList.isPrefixOf? (c :: text)).map respell := by
      rcases spelling_sign_or_free hEntry with ⟨sign, hMem, hSpelled⟩ | hFree
      · have hOther : (sign == c) = false := by
          rw [beq_eq_false_iff_ne]
          rintro rfl
          exact hSign hMem
        simp [hSpelled, plainSign_of_not_mem hSign, List.isPrefixOf?, hOther]
      · exact isPrefixOf?_respell hFree _
    simp only [hPrefix]
    split
    · rw [Option.map_map, Option.map_map]
      rfl
    · rfl

end Signs

/-! Whole texts with their signs spelled in another way. Every parser finds the same in both texts,
and tries the same in vain at the same places. Only the record of the chains shows a difference,
because it quotes the text. -/

/-- What a parser finds in a text and in its other spelling, with related results and the same
attempts. -/
inductive Outcome.Respelled {α : Type} (R : α → α → Prop) : Outcome α → Outcome α → Prop where
  | found {a b : α} (rest : List Char) (attempts : Attempts) (h : R a b) :
      Respelled R ⟨some (a, rest), attempts⟩ ⟨some (b, respell rest), attempts⟩
  | failed (attempts : Attempts) : Respelled R ⟨none, attempts⟩ ⟨none, attempts⟩

namespace Parser

variable {α β : Type} {R : α → α → Prop} {S : β → β → Prop} {first first' second second' : Parser α}

/-- One parser makes of a text what another one makes of its other spelling. -/
def Respells (R : α → α → Prop) (parser parser' : Parser α) : Prop :=
  ∀ text, (parser text).Respelled R (parser' (respell text))

theorem respells_pure {a b : α} (h : R a b) : Respells R (pure a) (pure b) :=
  fun text => .found text .nothing h

/-- A function that ignores the spelling of signs makes such a parser. It leaves no attempts in either
text. -/
theorem respells_lexeme {find? : List Char → Option (α × List Char)} (h : Ignores find?) :
    Respells Eq (lexeme find?) (lexeme find?) := by
  intro text
  simp only [lexeme, h text]
  cases find? text with
  | none => exact .failed _
  | some found => exact .found _ _ rfl

/-- Characters that are no signs are read in both texts or in neither. -/
theorem respells_literal {characters : List Char} (h : ∀ c ∈ characters, c ∉ signs) :
    Respells Eq (literal characters) (literal characters) := by
  refine respells_lexeme fun text => ?_
  rw [isPrefixOf?_respell h, Option.map_map, Option.map_map]
  rfl

/-- White space is skipped alike in both texts. -/
theorem respells_blanks : Respells Eq blanks blanks := by
  intro text
  rw [blanks, blanks, skipBlanks_respell]
  exact .found _ _ rfl

theorem respells_remainder :
    Respells (fun text text' => text' = respell text) remainder remainder :=
  fun text => .found text _ rfl

/-- Both parsers go on from related results at the same place, and their attempts are merged alike. -/
theorem Respells.bind {next next' : α → Parser β} (hFirst : Respells R first first')
    (hNext : ∀ a b, R a b → Respells S (next a) (next' b)) :
    Respells S (first >>= next) (first' >>= next') := by
  intro text
  show (andThen first next text).Respelled S (andThen first' next' (respell text))
  have hOutcome := hFirst text
  unfold andThen
  generalize first text = outcome, first' (respell text) = outcome' at hOutcome ⊢
  cases hOutcome with
  | failed attempts => exact .failed attempts
  | @found a b rest attempts h =>
      have hLater := hNext a b h rest
      dsimp only
      generalize next a rest = later, next' b (respell rest) = later' at hLater ⊢
      cases hLater with
      | failed attempts' => exact .failed _
      | found rest' attempts' h' => exact .found _ _ h'

/-- Both alternatives are tried from the same place, and the second one in both texts or in neither.
-/
theorem Respells.orElse (hFirst : Respells R first first') (hSecond : Respells R second second') :
    Respells R (first <|> second) (first' <|> second') := by
  intro text
  show (Parser.orElse first second text).Respelled R (Parser.orElse first' second' (respell text))
  have hOutcome := hFirst text
  have hOther := hSecond text
  unfold Parser.orElse
  generalize first text = outcome, first' (respell text) = outcome' at hOutcome ⊢
  cases hOutcome with
  | found rest attempts h => exact .found rest attempts h
  | failed attempts =>
      dsimp only
      generalize second text = other, second' (respell text) = other' at hOther ⊢
      cases hOther with
      | failed attempts' => exact .failed _
      | found rest' attempts' h => exact .found _ _ h

/-- A production starts at the same place in both spellings. -/
theorem Respells.named (h : Respells R first first') (production : Production) :
    Respells R (named production first) (named production first') := by
  intro text
  have hOutcome := h text
  unfold Parser.named
  rw [length_respell]
  generalize first text = outcome, first' (respell text) = outcome' at hOutcome ⊢
  cases hOutcome with
  | found rest attempts h => exact .found rest attempts h
  | failed attempts => exact .failed _

theorem Respells.optional (h : Respells R first first') :
    Respells (Option.Rel R) (optional first) (optional first') :=
  (h.bind fun _ _ hFound => respells_pure (.some hFound)).orElse (respells_pure .none)

/-- A repetition stops at the same place in both texts, with results that are related one by one. -/
theorem Respells.many (h : Respells R first first') (bound : Nat) :
    Respells (List.Forall₂ R) (many first bound) (many first' bound) := by
  induction bound with
  | zero => exact respells_pure .nil
  | succ bound ih =>
      refine Respells.orElse ?_ (respells_pure .nil)
      exact h.bind fun _ _ hFirst => ih.bind fun _ _ hMore => respells_pure (.cons hFirst hMore)

/-! ### Sequences that begin with a part without a result -/

variable {next next' : Unit → Parser β}

theorem Respells.blanks_bind (h : Respells S (next ()) (next' ())) :
    Respells S (blanks >>= next) (blanks >>= next') :=
  respells_blanks.bind fun _ _ _ => h

theorem Respells.literal_bind {c : Char} (hSign : c ∉ signs) (h : Respells S (next ()) (next' ())) :
    Respells S (literal [c] >>= next) (literal [c] >>= next') :=
  (respells_literal (by simpa using hSign)).bind fun _ _ _ => h

end Parser

open Formula.Grammar.Parser

def Reading.Alike (reading reading' : Reading) : Prop :=
  reading.expr = reading'.expr

/-- A name is found with the same characters, and tried in vain at the same places. -/
theorem respells_identifier : Respells Eq identifier identifier :=
  (respells_lexeme identifier?_ignores).named _

/-- The end of everything in parentheses: a closing parenthesis, and then the result. -/
theorem respells_closing_bind {α : Type} {R : α → α → Prop} {a b : α} (h : R a b) :
    Respells R (closingParenthesis >>= fun _ => pure a) (closingParenthesis >>= fun _ => pure b) :=
  ((respells_literal (by simp [signs])).named _).bind fun _ _ _ => respells_pure h

/-- A number has no chain of operators in it, so that its reading is alike. -/
theorem respells_number : Respells Reading.Alike number number := by
  refine Respells.named ?_ _
  exact (respells_lexeme number?_ignores).bind fun _ _ h => respells_pure (h ▸ rfl)

theorem respells_reference : Respells Reading.Alike reference reference := by
  refine Respells.named ?_ _
  exact respells_identifier.bind fun _ _ h => respells_pure (h ▸ rfl)

section Nested

variable {nested : Parser Reading} (hNested : Respells Reading.Alike nested nested)

include hNested in
theorem respells_parenthetical :
    Respells Reading.Alike (parenthetical nested) (parenthetical nested) := by
  refine Respells.named ?_ _
  refine Respells.literal_bind (by decide) (Respells.blanks_bind ?_)
  refine hNested.bind fun _ _ hInner => Respells.blanks_bind ?_
  exact respells_closing_bind hInner

include hNested in
theorem respells_nextArgument :
    Respells Reading.Alike (nextArgument nested) (nextArgument nested) :=
  Respells.literal_bind (by decide) (Respells.blanks_bind hNested)

include hNested in
/-- The arguments may quote other texts in their chains, but the call is the same expression. -/
theorem respells_call : Respells Reading.Alike (call nested) (call nested) := by
  have hArguments : Respells (fun found found' => found.1.Alike found'.1 ∧
      Option.Rel Reading.Alike found.2 found'.2) (callArguments nested) (callArguments nested) := by
    refine Respells.named ?_ _
    refine Respells.literal_bind (by decide) (Respells.blanks_bind ?_)
    refine hNested.bind fun _ _ hFirst => Respells.blanks_bind ?_
    refine (respells_nextArgument hNested).optional.bind fun _ _ hSecond => Respells.blanks_bind ?_
    exact respells_closing_bind ⟨hFirst, hSecond⟩
  refine Respells.named ?_ _
  refine respells_identifier.bind ?_
  rintro name _ rfl
  refine hArguments.bind ?_
  rintro ⟨first, _⟩ ⟨first', _⟩ ⟨hFirst, hSecond⟩
  apply respells_pure
  simp only [Reading.Alike] at hFirst
  cases hSecond with
  | none => simp [Reading.Alike, Reading.call, hFirst]
  | some hSecond =>
      simp only [Reading.Alike] at hSecond
      simp [Reading.Alike, Reading.call, hFirst, hSecond]

include hNested in
/-- All three parts are read alike, and so is the conditional. -/
theorem respells_conditional :
    Respells Reading.Alike (conditional nested) (conditional nested) := by
  have hArguments : Respells (fun found found' => found.1.Alike found'.1 ∧
      found.2.1.Alike found'.2.1 ∧ found.2.2.Alike found'.2.2)
      (conditionalArguments nested) (conditionalArguments nested) := by
    refine Respells.named ?_ _
    refine Respells.literal_bind (by decide) (Respells.blanks_bind ?_)
    refine hNested.bind fun _ _ hCondition => Respells.blanks_bind ?_
    refine (respells_nextArgument hNested).bind fun _ _ hWhenTrue => Respells.blanks_bind ?_
    refine (respells_nextArgument hNested).bind fun _ _ hOtherwise => Respells.blanks_bind ?_
    exact respells_closing_bind ⟨hCondition, hWhenTrue, hOtherwise⟩
  refine Respells.named ?_ _
  refine (respells_literal (by simp [signs])).bind fun _ _ _ => ?_
  refine hArguments.bind ?_
  rintro ⟨c, a, b⟩ ⟨c', a', b'⟩ ⟨hCondition, hWhenTrue, hOtherwise⟩
  apply respells_pure
  simp only [Reading.Alike] at hCondition hWhenTrue hOtherwise
  simp [Reading.Alike, Reading.conditional, hCondition, hWhenTrue, hOtherwise]

/-- What is made of the expression is made of equal expressions. -/
theorem Reading.Alike.map {reading reading' : Reading} (h : reading.Alike reading')
    (build : Expr → Expr) : (reading.map build).Alike (reading'.map build) :=
  congrArg build h

include hNested in
theorem respells_factorialOperand :
    Respells Reading.Alike (factorialOperand nested) (factorialOperand nested) := by
  have hPrimary : Respells Reading.Alike (primary nested) (primary nested) := by
    refine Respells.named ?_ _
    exact (respells_conditional hNested).orElse ((respells_call hNested).orElse
      (respells_reference.orElse ((respells_parenthetical hNested).orElse respells_number)))
  have hMark : Respells Eq (named .factorial (literal ['!'])) (named .factorial (literal ['!'])) :=
    (respells_literal (by simp [signs])).named _
  refine Respells.named ?_ _
  refine hPrimary.bind fun _ _ hOperand => hMark.optional.bind fun _ _ hFound => respells_pure ?_
  cases hFound with
  | none => exact hOperand
  | some _ => exact hOperand.map _

include hNested in
/-- With its signs spelled in another way, an operand has the same sign, mark and expression. -/
theorem respells_operand : Respells Reading.Alike (operand nested) (operand nested) := by
  have hNegation : Respells Reading.Alike (negation nested) (negation nested) := by
    refine Respells.named (Respells.literal_bind (by decide) ?_) _
    exact (respells_factorialOperand hNested).bind fun _ _ h => respells_pure (h.map _)
  exact (hNegation.orElse (respells_factorialOperand hNested)).named _

end Nested

/-- The operators and the operands of two chains are the same. -/
theorem Reading.Alike.chain {layer : Layer} {first first' : Reading}
    {links links' : List (Operator × Reading)} (hFirst : first.Alike first')
    (hLinks : List.Forall₂ (fun link link' => link.1 = link'.1 ∧ link.2.Alike link'.2) links links')
    (source source' : Unit → List Char) :
    (Reading.chain layer first links source).Alike (Reading.chain layer first' links' source') := by
  have hExprs : links.map (Prod.map id Reading.expr) = links'.map (Prod.map id Reading.expr) := by
    induction hLinks with
    | nil => rfl
    | cons hLink _ ih =>
        obtain ⟨hOperator, hOperand⟩ := hLink
        rw [List.map_cons, List.map_cons, ih, Prod.map, Prod.map, hOperator,
          show _ = _ from hOperand]
  rw [Reading.Alike, Reading.expr_chain, Reading.expr_chain, show _ = _ from hFirst]
  exact congrArg _ hExprs

/-- The operators of a chain are the same whichever way they are spelled. Its record quotes its text,
which is respelled. -/
theorem respells_chain {layer : Layer} {item : Parser Reading}
    (hItem : Respells Reading.Alike item item) :
    Respells Reading.Alike (chain layer item) (chain layer item) := by
  have hOperator : Respells Eq (operator layer) (operator layer) :=
    (respells_lexeme (operator?_ignores layer)).named _
  have hLink : Respells (fun link link' => link.1 = link'.1 ∧ link.2.Alike link'.2)
      (link layer item) (link layer item) := by
    refine Respells.blanks_bind (hOperator.bind fun _ _ hOperator => Respells.blanks_bind ?_)
    exact hItem.bind fun _ _ hOperand => respells_pure ⟨hOperator, hOperand⟩
  refine Respells.named (respells_remainder.bind ?_) _
  rintro text _ rfl
  have hBound : linkBound layer (respell text) = linkBound layer text := by
    simp only [linkBound, length_respell]
  refine hItem.bind fun _ _ hFirst => Respells.blanks_bind ?_
  rw [hBound]
  refine (hLink.many _).bind fun _ _ hLinks => respells_remainder.bind fun _ _ _ => ?_
  exact respells_pure (hFirst.chain hLinks _ _)

/-- By induction on the depth of parentheses: what stands in them is read alike. -/
theorem respells_expressionWithin (depth : Nat) :
    Respells Reading.Alike (expressionWithin depth) (expressionWithin depth) := by
  induction depth with
  | zero => exact fun text => .failed _
  | succ depth ih =>
      have hChains (layers : List Layer) :
          Respells Reading.Alike (layers.foldr chain (operand (expressionWithin depth)))
            (layers.foldr chain (operand (expressionWithin depth))) := by
        induction layers with
        | nil => exact respells_operand ih
        | cons layer layers ihLayers => exact respells_chain ihLayers
      exact hChains Layer.all

/-- The bound on the depth is the length of the text, which respelling does not change. -/
theorem respells_expression : Respells Reading.Alike expression expression := by
  intro text
  unfold expression
  rw [length_respell]
  exact respells_expressionWithin _ text

/-! ### Whole texts -/

inductive Statement.Alike : Statement → Statement → Prop where
  | assignment {name : String} {body body' : Reading} (h : body.Alike body') :
      Alike (.assignment name body) (.assignment name body')
  | expression {body body' : Reading} (h : body.Alike body') :
      Alike (.expression body) (.expression body')

/-- The equals sign is no sign of multiplication or division. -/
theorem respells_assignment : Respells Statement.Alike assignment assignment := by
  refine Respells.named (respells_identifier.bind ?_) _
  rintro name _ rfl
  refine Respells.blanks_bind (Respells.literal_bind (by decide) (Respells.blanks_bind ?_))
  exact respells_expression.bind fun _ _ h => respells_pure (.assignment h)

theorem respells_statement : Respells Statement.Alike statement statement := by
  have hEnd : Respells Eq endOfInput endOfInput := by
    refine (respells_lexeme fun text => ?_).named _
    cases text <;> rfl
  have hExpression : Respells Statement.Alike
      (do let body ← expression; pure (Statement.expression body))
      (do let body ← expression; pure (Statement.expression body)) :=
    respells_expression.bind fun _ _ h => respells_pure (.expression h)
  refine Respells.named (Respells.blanks_bind ?_) _
  refine (respells_assignment.orElse hExpression).bind fun _ _ h => Respells.blanks_bind ?_
  exact hEnd.bind fun _ _ _ => respells_pure h

/-- The same is understood in both spellings, or both are rejected at the same character because the
same was tried there. -/
inductive SameRead : Except Diagnostic Statement → Except Diagnostic Statement → Prop where
  | ok {found found' : Statement} (h : found.Alike found') : SameRead (.ok found) (.ok found')
  | error (before after : List Char) (tried : List Production) :
      SameRead (.error ⟨before, after, tried⟩) (.error ⟨respell before, respell after, tried⟩)

/-- A text and the same text with its signs in ASCII are read alike, or rejected alike at the same
place. -/
theorem sameRead_map_plainSign (text : String) :
    SameRead (read text) (read (text.map plainSign)) := by
  have hText : (text.map plainSign).toList = respell text.toList := String.toList_map
  have hOutcome := respells_statement text.toList
  unfold read
  simp only [hText, length_respell]
  generalize statement text.toList = outcome, statement (respell text.toList) = outcome'
    at hOutcome ⊢
  cases hOutcome with
  | found rest attempts h => exact .ok h
  | failed attempts =>
      simp only [respell, ← List.map_take, ← List.map_drop]
      exact .error _ _ _

end Formula.Grammar
