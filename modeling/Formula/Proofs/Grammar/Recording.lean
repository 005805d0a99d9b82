import Formula.Proofs.Grammar.Boundary
import Formula.Proofs.Grammar.Soundness
import Formula.Proofs.Grammar.Word

/-! The parsers do what the runs of their patterns do. What a parser tried in vain is what the run adds
to a ledger, whatever was in the ledger before, so that the attempts of the whole text are the ledger at
its end. -/

namespace Formula.Grammar

open Formula.Grammar.Parser

theorem Attempts.merge_nothing (attempts : Attempts) : attempts.merge .nothing = attempts := by
  cases attempts <;> rfl

/-- An outcome is that of a run of a pattern: it leaves the same of the text, and what was tried in vain
is what the run adds to the ledger, whatever was there before. The whole text has the given length. -/
def Outcome.Follows {α : Type} (outcome : Outcome α) (length : Nat) (spacing : Spacing)
    (pattern : Pattern) (text : List Char) : Prop :=
  ∀ ledger, Runs length ⟨spacing, false⟩ pattern text ledger (outcome.result.map Prod.snd)
    (ledger.add outcome.attempts)

theorem length_skipBlanks_le (text : List Char) : (Text.skipBlanks text).length ≤ text.length :=
  (List.dropWhile_suffix _).length_le

namespace Parser

variable {α β : Type} {length : Nat} {spacing : Spacing} {pattern : Pattern} {first : Parser α}
  {next : α → Parser β} {text rest : List Char}

def Follows (parser : Parser α) (length : Nat) (spacing : Spacing) (pattern : Pattern)
    (text : List Char) : Prop :=
  (parser text).Follows length spacing pattern text

namespace Follows

/-- What is left behind is the end of the text. -/
theorem length_le (h : first.Follows length spacing pattern text) {a : α}
    (hResult : first.result text = some (a, rest)) : rest.length ≤ text.length := by
  rw [result] at hResult
  have hRest : rest ∈ (first text).result.map Prod.snd := by simp [hResult]
  exact ((h (.blank 0)).isSuffix rest hRest).length_le

theorem length_skipBlanks_le (h : first.Follows length spacing pattern text) {a : α}
    (hResult : first.result text = some (a, rest)) :
    (Text.skipBlanks rest).length ≤ text.length :=
  (Grammar.length_skipBlanks_le rest).trans (h.length_le hResult)

/-- Nothing is tried in vain before the text that is read. -/
theorem remaining_le (h : first.Follows length spacing pattern text) :
    (first text).attempts.remaining text.length ≤ text.length := by
  cases hAttempts : (first text).attempts with
  | nothing => exact Nat.le_refl _
  | furthest place production others =>
      -- A ledger at the place just before would show it.
      have hRemaining := (h (.blank (place + 1))).remaining
      simp only [hAttempts, Ledger.remaining_add, Ledger.blank] at hRemaining
      simp only [Attempts.remaining]
      omega

/-- The parser of a production runs its body, and takes back what was recorded in it where it fails.
-/
theorem named (production : Production) (hSpacing : spacing ≠ .word)
    (h : first.Follows length (production.spacing?.getD spacing) production.body text) :
    (Parser.named production first).Follows length spacing (.production production) text := by
  intro ledger
  have hRecords : Mode.records ⟨spacing, false⟩ production = true := Mode.records_of_ne hSpacing _
  have hRuns : Runs length ⟨spacing, false⟩ (.production production) text ledger _ _ :=
    .production (h ledger)
  have hPlace := h.remaining_le
  unfold Parser.named
  rcases hOutcome : first text with ⟨_ | ⟨a, rest⟩, attempts⟩
  · rw [hOutcome] at hRuns hPlace
    rw [if_pos ⟨hRecords, rfl⟩, Ledger.record_add ledger production hPlace] at hRuns
    exact hRuns
  · rw [hOutcome, if_neg (by simp)] at hRuns
    exact hRuns

/-- After the first part, the text is read from where white space has been skipped. -/
theorem both {second : Pattern} (hFirst : first.Follows length spacing pattern text)
    (hNext : ∀ a rest, first.result text = some (a, rest) →
      (next a rest).Follows length spacing second (Mode.skip ⟨spacing, false⟩ rest)) :
    (first >>= next).Follows length spacing (.both pattern second) text := by
  intro ledger
  have hRuns := hFirst ledger
  show Runs _ _ _ _ _ ((andThen first next text).result.map _)
    (ledger.add (andThen first next text).attempts)
  unfold result at hNext
  unfold andThen
  rcases hOutcome : first text with ⟨_ | ⟨a, rest⟩, attempts⟩
  · rw [hOutcome] at hRuns
    exact .both_fails hRuns
  · rw [hOutcome] at hRuns hNext
    rw [Ledger.add_merge]
    exact .both hRuns (hNext a rest rfl _)

/-- A sequence with white space in between, which is skipped by the first part of the pattern. -/
theorem bind_blanks {second : Pattern} (hFirst : first.Follows length .spaced pattern text)
    (hNext : ∀ a rest, first.result text = some (a, rest) →
      (next a).Follows length .spaced second (Text.skipBlanks rest)) :
    (first >>= fun a => blanks >>= fun _ => next a).Follows length .spaced (.both pattern second)
      text :=
  hFirst.both hNext

/-- A sequence whose parts touch each other. -/
theorem bind {second : Pattern} (hFirst : first.Follows length .touching pattern text)
    (hNext : ∀ a rest, first.result text = some (a, rest) →
      (next a).Follows length .touching second rest) :
    (first >>= next).Follows length .touching (.both pattern second) text :=
  hFirst.both hNext

/-- A parser after which nothing is read any more. -/
theorem bind_done (hFirst : first.Follows length spacing pattern text)
    (hNext : ∀ a rest, ∃ b, next a rest = ⟨some (b, rest), .nothing⟩) :
    (first >>= next).Follows length spacing pattern text := by
  intro ledger
  have hRuns := hFirst ledger
  show Runs _ _ _ _ _ ((andThen first next text).result.map _)
    (ledger.add (andThen first next text).attempts)
  unfold andThen
  rcases hOutcome : first text with ⟨_ | ⟨a, rest⟩, attempts⟩
  · rw [hOutcome] at hRuns
    exact hRuns
  · obtain ⟨b, hNext⟩ := hNext a rest
    rw [hOutcome] at hRuns
    dsimp only
    rw [hNext, Attempts.merge_nothing]
    exact hRuns

/-- The second alternative is run with what was recorded in the first one, as the attempts of both are
merged. -/
theorem orElse {other : Parser α} {second : Pattern}
    (hFirst : first.Follows length spacing pattern text)
    (hOther : other.Follows length spacing second text) :
    (first <|> other).Follows length spacing (.either pattern second) text := by
  intro ledger
  have hRuns := hFirst ledger
  show Runs _ _ _ _ _ ((Parser.orElse first other text).result.map _)
    (ledger.add (Parser.orElse first other text).attempts)
  unfold Parser.orElse
  rcases hOutcome : first text with ⟨_ | ⟨a, rest⟩, attempts⟩
  · rw [hOutcome] at hRuns
    rw [Ledger.add_merge]
    exact .either_second hRuns (hOther _)
  · rw [hOutcome] at hRuns
    exact .either_first hRuns

theorem optional (h : first.Follows length spacing pattern text) :
    (Parser.optional first).Follows length spacing (.optional pattern) text := by
  intro ledger
  have hRuns := Runs.optional (h ledger)
  have hOptional : Parser.optional first text =
      ⟨some (((first text).result.map (Prod.map some id)).getD (none, text)),
        (first text).attempts⟩ := by
    show Parser.orElse (andThen first fun a => succeed (some a)) (succeed none) text = _
    unfold Parser.orElse andThen
    rcases first text with ⟨_ | ⟨a, rest⟩, attempts⟩ <;> simp [succeed, Attempts.merge_nothing]
  rw [hOptional]
  rcases hOutcome : first text with ⟨_ | ⟨a, rest⟩, attempts⟩ <;> rw [hOutcome] at hRuns <;>
    exact hRuns

theorem assoc {second third : Pattern}
    (h : first.Follows length spacing (.both (.both pattern second) third) text) :
    first.Follows length spacing (.both pattern (.both second third)) text :=
  fun ledger => (h ledger).assoc

end Follows

/-! ### Repetitions -/

section Repetitions

variable {n : Nat} {link : Parser α}

theorem many_succ (parser : Parser α) (bound : Nat) (text : List Char) :
    many parser (bound + 1) text =
      match parser text with
      | ⟨none, attempts⟩ => ⟨some ([], text), attempts⟩
      | ⟨some (a, rest), attempts⟩ =>
        let later := many parser bound rest
        ⟨later.result.map fun (more, rest) => (a :: more, rest), attempts.merge later.attempts⟩ := by
  show Parser.orElse (andThen parser fun a => andThen (many parser bound) fun more =>
    succeed (a :: more)) (succeed []) text = _
  unfold Parser.orElse andThen
  rcases parser text with ⟨_ | ⟨a, rest⟩, attempts⟩
  · simp [succeed, Attempts.merge_nothing]
  · obtain ⟨found, hFound⟩ := Option.isSome_iff_exists.mp (isSome_result_many parser bound rest)
    rcases hMany : many parser bound rest with ⟨_ | ⟨more, tail⟩, attempts'⟩
    · simp [result, hMany] at hFound
    · simp [succeed, hMany, Attempts.merge_nothing]

/-- A link skips the white space before it, as the repetitions of a pattern do. -/
theorem Follows.again
    (hLink : ∀ text, text.length ≤ n →
      (link text).Follows length .spaced pattern (Text.skipBlanks text))
    (hShorter : ∀ text a rest, link.result text = some (a, rest) → rest.length < text.length)
    {bound : Nat} (hText : text.length ≤ n) (hBound : text.length < bound) :
    (many link bound).Follows length .spaced (.again pattern) text := by
  induction bound generalizing text with
  | zero => omega
  | succ bound ih =>
      intro ledger
      have hRuns := hLink text hText ledger
      rw [many_succ]
      rcases hOutcome : link text with ⟨_ | ⟨a, rest⟩, attempts⟩
      · rw [hOutcome] at hRuns
        exact .again_done hRuns
      · have hRest := hShorter text a rest (congrArg Outcome.result hOutcome)
        rw [hOutcome] at hRuns
        dsimp only
        rw [Ledger.add_merge, Option.map_map]
        have hLater : (many link bound).Follows length .spaced (.again pattern) rest :=
          ih (by omega) (by omega)
        exact .again hRuns (hLater _)

/-- A single link may be found or not. -/
theorem Follows.many_one (hLink : (link text).Follows length .spaced pattern text) :
    (many link 1).Follows length .spaced (.optional pattern) text := by
  intro ledger
  have hRuns := Runs.optional (hLink ledger)
  rw [many_succ]
  rcases hOutcome : link text with ⟨_ | ⟨a, rest⟩, attempts⟩ <;> rw [hOutcome] at hRuns
  · exact hRuns
  · have hLater : many link 0 rest = ⟨some ([], rest), .nothing⟩ := rfl
    dsimp only
    rw [hLater, Attempts.merge_nothing]
    exact hRuns

end Repetitions

end Parser

open Formula.Grammar.Parser

variable {length n : Nat} {spacing : Spacing} {text rest : List Char} {nested : Parser Reading}

/-! ### Names, numbers and punctuation -/

/-- What is read character by character records nothing, as the patterns of single words do. -/
theorem follows_lexeme {α : Type} {find? : List Char → Option (α × List Char)} {pattern : Pattern}
    (h : pattern.Reads ⟨spacing, false⟩ text ((find? text).map Prod.snd)) :
    (lexeme find?).Follows length spacing pattern text :=
  fun ledger => h length ledger

theorem follows_literal (characters : List Char) :
    (literal characters).Follows length spacing (.literal characters) text := by
  apply follows_lexeme
  rw [Option.map_map]
  simpa [Function.comp_def] using reads_literal characters

theorem identifier_follows (hSpacing : spacing ≠ .word) :
    identifier.Follows length spacing (.production .identifier) text :=
  (follows_lexeme (reads_identifier text)).named .identifier hSpacing

/-- The three parts of a number are found by functions, and in the pattern one after the other. -/
theorem number_follows (hSpacing : spacing ≠ .word) :
    number.Follows length spacing (.production .number) text := by
  have hValue : (lexeme Lexeme.number?).Follows length .word Production.number.body text :=
    follows_lexeme (reads_number text)
  exact (hValue.bind_done fun _ _ => ⟨_, rfl⟩).named .number hSpacing

theorem reference_follows (hSpacing : spacing ≠ .word) :
    reference.Follows length spacing (.production .var) text := by
  exact ((identifier_follows hSpacing).bind_done fun _ _ => ⟨_, rfl⟩).named .var hSpacing

/-- With the result after it, because every pair of parentheses ends in this way. -/
theorem closing_follows {α : Type} (a : α) :
    (closingParenthesis >>= fun _ => pure a).Follows length .spaced (.production .closingParenthesis)
      text := by
  have hClosing : closingParenthesis.Follows length .spaced (.production .closingParenthesis) text :=
    (follows_literal [')']).named .closingParenthesis (by decide)
  exact hClosing.bind_done fun _ _ => ⟨a, rfl⟩

/-- The spellings are tried in the order of their table. -/
theorem operator_follows (layer : Layer) (hSpacing : spacing ≠ .word) :
    (operator layer).Follows length spacing (.production (.operator layer)) text :=
  (follows_lexeme (reads_operator layer text)).named (.operator layer) hSpacing

/-! ### Parentheses -/

/-- White space that is skipped after a character leaves less of the text. -/
theorem length_skipBlanks_lt {c : Char} {characters : List Char} {u : Unit}
    (h : (literal (c :: characters)).result text = some (u, rest)) :
    (Text.skipBlanks rest).length < text.length := by
  have hSkip := length_skipBlanks_le rest
  rw [result_literal_eq_some.mp h, List.length_append, List.length_cons]
  omega

section Nested

variable (hNested : ∀ text, text.length < n →
  nested.Follows length .spaced (.production (.layer .disjunction)) text)

include hNested

theorem nextArgument_follows (hText : text.length ≤ n) :
    (nextArgument nested).Follows length .spaced
      (.both (.literal [',']) (.production (.layer .disjunction))) text := by
  refine (follows_literal [',']).bind_blanks fun _ rest hComma => ?_
  exact hNested _ ((length_skipBlanks_lt hComma).trans_le hText)

/-- The text after the opening parenthesis is shorter, so that the parser of what is nested may be
used for it. -/
theorem parenthetical_follows (hText : text.length ≤ n) :
    (parenthetical nested).Follows length .spaced (.production .parenthetical) text := by
  refine .named .parenthetical (by decide) ?_
  refine (follows_literal ['(']).bind_blanks fun _ rest hOpening => ?_
  have hInner := hNested _ ((length_skipBlanks_lt hOpening).trans_le hText)
  exact hInner.bind_blanks fun inner _ _ => closing_follows inner

/-- The second argument is optional, and the attempts at its comma are kept if there is none. -/
theorem callArguments_follows (hSpacing : spacing ≠ .word) (hText : text.length ≤ n) :
    (callArguments nested).Follows length spacing (.production .callArguments) text := by
  refine .named .callArguments hSpacing ?_
  refine (follows_literal ['(']).bind_blanks fun _ afterOpening hOpening => ?_
  have hLength := (length_skipBlanks_lt hOpening).trans_le hText
  have hFirst := hNested _ hLength
  refine hFirst.bind_blanks fun first afterFirst hRead => ?_
  have hSecond := nextArgument_follows hNested
    ((hFirst.length_skipBlanks_le hRead).trans hLength.le)
  exact hSecond.optional.bind_blanks fun second _ _ => closing_follows (first, second)

theorem conditionalArguments_follows (hSpacing : spacing ≠ .word) (hText : text.length ≤ n) :
    (conditionalArguments nested).Follows length spacing (.production .conditionalArguments)
      text := by
  refine .named .conditionalArguments hSpacing ?_
  refine (follows_literal ['(']).bind_blanks fun _ afterOpening hOpening => ?_
  have hLength := (length_skipBlanks_lt hOpening).trans_le hText
  have hFirst := hNested _ hLength
  refine hFirst.bind_blanks fun condition afterFirst hRead => ?_
  have hLength' := (hFirst.length_skipBlanks_le hRead).trans hLength.le
  have hSecond := nextArgument_follows hNested hLength'
  refine .assoc (hSecond.bind_blanks fun whenTrue afterSecond hRead' => ?_)
  have hThird := nextArgument_follows hNested
    ((hSecond.length_skipBlanks_le hRead').trans hLength')
  exact .assoc (hThird.bind_blanks fun otherwise _ _ => closing_follows _)

/-! ### Operands -/

/-- The name touches the parenthesis after it. -/
theorem call_follows (hText : text.length ≤ n) :
    (call nested).Follows length .spaced (.production .call) text := by
  refine .named .call (by decide) ?_
  have hName : identifier.Follows length .touching (.production .identifier) text :=
    identifier_follows (by decide)
  refine hName.bind fun name rest hRead => ?_
  have hArguments : (callArguments nested).Follows length .touching (.production .callArguments)
      rest :=
    callArguments_follows hNested (by decide) ((hName.length_le hRead).trans hText)
  exact hArguments.bind_done fun _ _ => ⟨_, rfl⟩

theorem conditional_follows (hText : text.length ≤ n) :
    (conditional nested).Follows length .spaced (.production .conditional) text := by
  refine .named .conditional (by decide) ?_
  have hWord : (literal ['i', 'f']).Follows length .touching (.literal ['i', 'f']) text :=
    follows_literal _
  refine hWord.bind fun _ rest hRead => ?_
  have hArguments : (conditionalArguments nested).Follows length .touching
      (.production .conditionalArguments) rest :=
    conditionalArguments_follows hNested (by decide) ((hWord.length_le hRead).trans hText)
  exact hArguments.bind_done fun _ _ => ⟨_, rfl⟩

/-- All alternatives are tried in the order of the grammar, each with what the earlier ones recorded.
-/
theorem primary_follows (hSpacing : spacing ≠ .word) (hText : text.length ≤ n) :
    (primary nested).Follows length spacing (.production .primary) text := by
  refine .named .primary hSpacing ?_
  exact (conditional_follows hNested hText).orElse <| (call_follows hNested hText).orElse <|
    (reference_follows (by decide)).orElse <| (parenthetical_follows hNested hText).orElse <|
    number_follows (by decide)

/-- The mark is a production of its own, which is recorded where it is missing. -/
theorem factorialOperand_follows (hSpacing : spacing ≠ .word) (hText : text.length ≤ n) :
    (factorialOperand nested).Follows length spacing (.production .factorialOperand) text := by
  refine .named .factorialOperand hSpacing ?_
  have hPrimary : (primary nested).Follows length .touching (.production .primary) text :=
    primary_follows hNested (by decide) hText
  refine hPrimary.bind fun operand rest _ => ?_
  have hMark : (named .factorial (literal ['!'])).Follows length .touching (.production .factorial)
      rest := (follows_literal ['!']).named .factorial (by decide)
  exact hMark.optional.bind_done fun _ _ => ⟨_, rfl⟩

theorem negation_follows (hText : text.length ≤ n) :
    (negation nested).Follows length .spaced (.production .negation) text := by
  refine .named .negation (by decide) ?_
  have hMinus : (literal ['-']).Follows length .touching (.literal ['-']) text := follows_literal _
  refine hMinus.bind fun _ rest hRead => ?_
  have hOperand : (factorialOperand nested).Follows length .touching
      (.production .factorialOperand) rest :=
    factorialOperand_follows hNested (by decide) ((hMinus.length_le hRead).trans hText)
  exact hOperand.bind_done fun _ _ => ⟨_, rfl⟩

/-- A sign is tried before an operand without one. -/
theorem operand_follows (hText : text.length ≤ n) :
    (operand nested).Follows length .spaced (.production .operand) text := by
  refine .named .operand (by decide) ?_
  exact (negation_follows hNested hText).orElse (factorialOperand_follows hNested (by decide) hText)

end Nested

/-! ### Chains -/

section Chains

variable {layers : List Layer} {kind : Layer} {item : Parser Reading}

/-- An expression has at least one character. -/
theorem Sound.length_lt {reading : Reading} (hItem : Sound layers item)
    (h : item.result text = some (reading, rest)) : rest.length < text.length := by
  obtain ⟨derivation, body, after, rfl, _, hYields, _⟩ := hItem h
  obtain ⟨c, others, rfl, _⟩ := hYields.exists_cons
  simp only [List.length_append, List.length_cons]
  omega

/-- A link takes the characters of its operator at least. -/
theorem length_lt_of_link {found : Operator × Reading} (hItem : Sound layers item)
    (h : (link kind item).result text = some (found, rest)) : rest.length < text.length := by
  obtain ⟨spelling, _, before, between, body, after, rfl, _⟩ := link_sound hItem h
  obtain ⟨c, others, hCharacters, _⟩ := spelling.exists_cons
  simp only [hCharacters, List.length_append, List.length_cons]
  omega

variable (hSound : Sound layers item)
  (hItem : ∀ text, text.length ≤ n →
    item.Follows length .spaced (.production (Production.tighter kind)) text)

include hItem in
/-- The white space before an operator is skipped before the link is tried. -/
theorem link_follows (hText : text.length ≤ n) :
    (link kind item text).Follows length .spaced (Production.link kind) (Text.skipBlanks text) := by
  have hLength : (Text.skipBlanks text).length ≤ n := (length_skipBlanks_le text).trans hText
  have hOperator : (operator kind).Follows length .spaced (.production (.operator kind))
      (Text.skipBlanks text) := operator_follows kind (by decide)
  refine hOperator.bind_blanks fun found rest hRead => ?_
  have hLength' := (hOperator.length_skipBlanks_le hRead).trans hLength
  exact (hItem _ hLength').bind_done fun _ _ => ⟨_, rfl⟩

include hSound hItem in
/-- After the first operand and the white space behind it, the bound on the links is never reached. -/
theorem links_follow {whole : List Char} (hBlanks : Text.skipBlanks text = text)
    (hWhole : text.length < whole.length) (hText : whole.length ≤ n) :
    (many (link kind item) (linkBound kind whole)).Follows length .spaced (Production.links kind)
      text := by
  have hLink := link_follows hItem (hWhole.le.trans hText)
  rw [hBlanks] at hLink
  by_cases hKind : kind = .comparison
  · subst hKind
    exact .many_one hLink
  · have hLinks : Production.links kind = .many (Production.link kind) := by
      cases kind <;> first | rfl | exact absurd rfl hKind
    rw [linkBound, if_neg hKind, hLinks]
    have hAgain := Follows.again (fun _ hText => link_follows hItem hText)
      (fun _ _ _ hRead => length_lt_of_link hSound hRead) (hWhole.le.trans hText) hWhole
    exact fun ledger => .many_of_again hBlanks (hAgain ledger)

variable (kind) in
include hSound hItem in
/-- White space after the first operand is skipped before the links, which are read in a shorter text.
-/
theorem chain_follows (hText : text.length ≤ n) :
    (chain kind item).Follows length .spaced (.production (.layer kind)) text := by
  refine .named (.layer kind) (by decide) ?_
  refine (hItem text hText).bind_blanks fun first rest hRead => ?_
  have hShorter : (Text.skipBlanks rest).length < text.length :=
    (length_skipBlanks_le rest).trans_lt (hSound.length_lt hRead)
  have hLinks := links_follow hSound hItem skipBlanks_skipBlanks hShorter hText
  exact hLinks.bind_done fun _ _ => ⟨_, rfl⟩

end Chains

/-! ### Expressions and whole texts -/

/-- From the tightest layer to the loosest, each with the layer before it as its operand. -/
theorem subexpression_follows (hSound : Sound Layer.all nested)
    (hNested : ∀ text, text.length < n →
      nested.Follows length .spaced (.production (.layer .disjunction)) text)
    (hText : text.length ≤ n) :
    (subexpression nested).Follows length .spaced (.production (.layer .disjunction)) text := by
  have hOperand (text : List Char) (hText : text.length ≤ n) := operand_follows hNested hText
  have hPower (text : List Char) (hText : text.length ≤ n) :=
    chain_follows .exponential (operand_sound hSound) hOperand hText
  have hProduct (text : List Char) (hText : text.length ≤ n) :=
    chain_follows .multiplicative (chains_sound hSound [.exponential]) hPower hText
  have hSum (text : List Char) (hText : text.length ≤ n) :=
    chain_follows .additive (chains_sound hSound [.multiplicative, .exponential])
      hProduct hText
  have hComparison (text : List Char) (hText : text.length ≤ n) :=
    chain_follows .comparison
      (chains_sound hSound [.additive, .multiplicative, .exponential]) hSum hText
  have hConjunction (text : List Char) (hText : text.length ≤ n) :=
    chain_follows .conjunction
      (chains_sound hSound [.comparison, .additive, .multiplicative, .exponential]) hComparison hText
  exact chain_follows .disjunction
    (chains_sound hSound [.conjunction, .comparison, .additive, .multiplicative, .exponential])
    hConjunction hText

/-- The depth is never reached by a text that is shorter than it. -/
theorem expressionWithin_follows (depth : Nat) (hText : text.length < depth) :
    (expressionWithin depth).Follows length .spaced (.production (.layer .disjunction)) text := by
  induction depth generalizing text with
  | zero => omega
  | succ depth ih =>
      exact subexpression_follows (expressionWithin_sound depth) (fun _ => ih)
        (Nat.le_of_lt_succ hText)

/-- The depth that the text allows is never reached within the text. -/
theorem expression_follows :
    expression.Follows length .spaced (.production (.layer .disjunction)) text := by
  have hText : expression text = expressionWithin (text.length + 1) text := rfl
  rw [Follows, hText]
  exact expressionWithin_follows (text.length + 1) (Nat.lt_succ_self _)

theorem assignment_follows :
    assignment.Follows length .spaced (.production .assignment) text := by
  refine .named .assignment (by decide) ?_
  have hName : identifier.Follows length .spaced (.production .identifier) text :=
    identifier_follows (by decide)
  refine hName.bind_blanks fun name _ _ => ?_
  refine (follows_literal ['=']).bind_blanks fun _ _ _ => ?_
  exact expression_follows.bind_done fun _ _ => ⟨_, rfl⟩

/-- What the parser of whole texts tries in vain is what a run of the first production records. -/
theorem statement_follows (text : List Char) :
    statement.Follows text.length .spaced (.production .expression) text := by
  refine .named .expression (by decide) ?_
  have hExpression : (do let body ← expression; pure (Statement.expression body)).Follows text.length
      .spaced (.production (.layer .disjunction)) (Text.skipBlanks text) :=
    expression_follows.bind_done fun _ _ => ⟨_, rfl⟩
  have hEnd {rest : List Char} : endOfInput.Follows text.length .spaced (.production .endOfInput)
      rest := by
    refine .named .endOfInput (by decide) (follows_lexeme fun length ledger => ?_)
    have hRuns : Runs length ⟨.spaced, false⟩ .finish rest ledger _ ledger := .finish ..
    cases rest <;> exact hRuns
  have hEnding (found : Statement) {rest : List Char} : (endOfInput >>= fun _ => pure found).Follows
      text.length .spaced (.production .endOfInput) rest := hEnd.bind_done fun _ _ => ⟨found, rfl⟩
  have hBody := (assignment_follows.orElse hExpression).bind_blanks fun found _ _ => hEnding found
  intro ledger
  have hStart : Runs text.length ⟨.spaced, false⟩ .start text ledger
      (if text.length = text.length then some text else none) ledger := .start ..
  rw [if_pos rfl] at hStart
  exact .both hStart (hBody ledger)

/-- A production that failed leaves an attempt behind. -/
theorem exists_attempts_of_named {α : Type} {production : Production} {parser : Parser α}
    {attempts : Attempts} (h : named production parser text = ⟨none, attempts⟩) :
    ∃ remaining first others, attempts = .furthest remaining first others := by
  unfold named at h
  split at h
  · cases h
  · next found _ =>
      cases h
      cases found with
      | nothing => exact ⟨_, _, _, rfl⟩
      | furthest remaining first others =>
          rw [Attempts.within]
          split <;> exact ⟨_, _, _, rfl⟩

/-- The attempts of a rejected text are what is recorded when it is read, at the place where it is cut.
There is at least one of them, and nothing is recorded that would have to be absent. -/
theorem rejectedWith_of_read {text : String} {diagnostic : Diagnostic}
    (h : read text = .error diagnostic) :
    RejectedWith text.toList ⟨diagnostic.after.length, diagnostic.tried, []⟩ ∧
      diagnostic.tried ≠ [] := by
  have hFollows := statement_follows text.toList
  have hRuns := hFollows (.blank text.toList.length)
  have hPlace := hFollows.remaining_le
  unfold read at h
  dsimp only at h
  split at h
  · cases h
  · next attempts hRead =>
      cases h
      rw [hRead] at hRuns hPlace
      obtain ⟨remaining, first, others, rfl⟩ := exists_attempts_of_named hRead
      simp only [Attempts.remaining] at hPlace
      have hAfter : (text.toList.drop (text.toList.length - remaining)).length = remaining := by
        rw [List.length_drop]
        omega
      simp only [Attempts.remaining, Attempts.productions, hAfter]
      rw [Ledger.blank_add hPlace] at hRuns
      exact ⟨hRuns, List.cons_ne_nil _ _⟩

/-- What does not fit the pattern of whole texts is what cannot be read. -/
theorem exists_rejectedWith_iff {text : String} :
    (∃ ledger, RejectedWith text.toList ledger) ↔ ∃ diagnostic, read text = .error diagnostic := by
  constructor
  · rintro ⟨ledger, hRejected⟩
    cases hRead : read text with
    | error diagnostic => exact ⟨diagnostic, rfl⟩
    | ok found =>
        obtain ⟨rest, hResult⟩ := read_eq_ok_iff.mp hRead
        have hRuns := statement_follows text.toList (.blank text.toList.length)
        rw [result] at hResult
        rw [hResult] at hRuns
        cases (Runs.unique hRejected hRuns).1
  · rintro ⟨diagnostic, hRead⟩
    exact ⟨_, (rejectedWith_of_read hRead).1⟩

end Formula.Grammar
