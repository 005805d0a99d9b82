import Formula.Proofs.Grammar.Bounds
import Formula.Proofs.Grammar.Descent

/-! Reading with a budget. Whatever is read within something else has one unit less to spend, and where
nothing is left there is no answer. -/

namespace Formula.Grammar

open Formula.Grammar.Parser
open Relation (TransGen)

namespace Entry

/-- What is left of the text of an entry and what is recorded afterwards, unless the budget is used up
before that has been found out. The whole text has the given length. -/
def answer? (length : Nat) : Nat → Entry → Option (Option (List Char) × Ledger)
  | 0, _ => none
  | budget + 1, ⟨mode, pattern, text, ledger⟩ =>
    match pattern with
    | .literal characters => some (characters.isPrefixOf? text, ledger)
    | .character accepts => some (afterCharacter accepts text, ledger)
    | .start => some (if text.length = length then some text else none, ledger)
    | .finish => some (if text = [] then some text else none, ledger)
    | .production production => do
      let (result, after) ←
        answer? length budget ⟨mode.within production, production.body, text, ledger⟩
      some (result,
        if mode.records production ∧ result.isSome = mode.negated then
          Ledger.record production text.length mode.negated ledger after
        else after)
    | .both first second => do
      let (result, between) ← answer? length budget ⟨mode, first, text, ledger⟩
      match result with
      | none => some (none, between)
      | some rest => answer? length budget ⟨mode, second, mode.skip rest, between⟩
    | .either first second => do
      let (result, between) ← answer? length budget ⟨mode, first, text, ledger⟩
      match result with
      | none => answer? length budget ⟨mode, second, text, between⟩
      | some rest => some (some rest, between)
    | .optional inner => do
      let (result, after) ← answer? length budget ⟨mode, inner, text, ledger⟩
      some (some (result.getD text), after)
    | .many inner => do
      let (result, between) ← answer? length budget ⟨mode, inner, text, ledger⟩
      match result with
      | none => some (some text, between)
      | some rest => answer? length budget ⟨mode, .again inner, rest, between⟩
    | .again inner => do
      let (result, between) ← answer? length budget ⟨mode, inner, mode.skip text, ledger⟩
      match result with
      | none => some (some text, between)
      | some rest => answer? length budget ⟨mode, .again inner, rest, between⟩
    | .absent inner => do
      let (result, after) ← answer? length budget ⟨mode.opposite, inner, text, ledger⟩
      some (if result.isSome then none else some text, after)

variable {length budget : Nat} {entry : Entry} {result : Option (List Char)} {after : Ledger}

/-- Whatever is answered with any budget is the outcome of the run. -/
theorem runs_of_answer? (h : entry.answer? length budget = some (result, after)) :
    Runs length entry.mode entry.pattern entry.text entry.ledger result after := by
  induction budget generalizing entry result after with
  | zero => cases h
  | succ budget ih =>
      obtain ⟨mode, pattern, text, ledger⟩ := entry
      cases pattern with
      | literal =>
          cases h
          exact .literal ..
      | character =>
          cases h
          exact .character ..
      | start =>
          cases h
          exact .start ..
      | finish =>
          cases h
          exact .finish ..
      | production production =>
          obtain ⟨⟨found, between⟩, hBody, h⟩ := Option.bind_eq_some_iff.mp h
          cases h
          exact .production (ih hBody)
      | both first second =>
          obtain ⟨⟨found, between⟩, hFirst, h⟩ := Option.bind_eq_some_iff.mp h
          cases found with
          | none =>
              cases h
              exact .both_fails (ih hFirst)
          | some rest => exact .both (ih hFirst) (ih h)
      | either first second =>
          obtain ⟨⟨found, between⟩, hFirst, h⟩ := Option.bind_eq_some_iff.mp h
          cases found with
          | none => exact .either_second (ih hFirst) (ih h)
          | some rest =>
              cases h
              exact .either_first (ih hFirst)
      | optional inner =>
          obtain ⟨⟨found, between⟩, hInner, h⟩ := Option.bind_eq_some_iff.mp h
          cases h
          exact .optional (ih hInner)
      | many inner =>
          obtain ⟨⟨found, between⟩, hInner, h⟩ := Option.bind_eq_some_iff.mp h
          cases found with
          | none =>
              cases h
              exact .many_done (ih hInner)
          | some rest => exact .many (ih hInner) (ih h)
      | again inner =>
          obtain ⟨⟨found, between⟩, hInner, h⟩ := Option.bind_eq_some_iff.mp h
          cases found with
          | none =>
              cases h
              exact .again_done (ih hInner)
          | some rest => exact .again (ih hInner) (ih h)
      | absent inner =>
          obtain ⟨⟨found, between⟩, hInner, h⟩ := Option.bind_eq_some_iff.mp h
          cases h
          exact .absent (ih hInner)

/-- An answer is that of a run, and there is only one run. -/
theorem answer?_of_isSome (h : (entry.answer? length budget).isSome)
    (hRuns : Runs length entry.mode entry.pattern entry.text entry.ledger result after) :
    entry.answer? length budget = some (result, after) := by
  obtain ⟨⟨result', after'⟩, hAnswer⟩ := Option.isSome_iff_exists.mp h
  obtain ⟨rfl, rfl⟩ := hRuns.unique (runs_of_answer? hAnswer)
  exact hAnswer

/-- Whatever is entered on the way to an answer has an answer of its own, with one unit less. -/
theorem isSome_answer?_of_enters {inner : Entry} (h : (entry.answer? length (budget + 1)).isSome)
    (hEnters : Enters length entry inner) : (inner.answer? length budget).isSome := by
  cases hEnters with
  | production | both_first | either_first | optional | many | again | absent =>
      exact Option.isSome_of_isSome_bind h
  | both_second hRuns | either_second hRuns | many_again hRuns | again_again hRuns =>
      have hFirst := answer?_of_isSome (Option.isSome_of_isSome_bind h) hRuns
      simpa [answer?, hFirst] using h

/-- An answer needs one unit more than the answers of everything that is entered on the way. -/
theorem isSome_answer?_succ
    (h : ∀ inner, Enters length entry inner → (inner.answer? length budget).isSome) :
    (entry.answer? length (budget + 1)).isSome := by
  obtain ⟨mode, pattern, text, ledger⟩ := entry
  cases pattern with
  | literal | character | start | finish => rfl
  | production production =>
      obtain ⟨_, hBody⟩ := Option.isSome_iff_exists.mp (h _ (.production ..))
      simp [answer?, hBody]
  | both first second =>
      obtain ⟨⟨found, between⟩, hFirst⟩ := Option.isSome_iff_exists.mp (h _ (.both_first ..))
      cases found with
      | none => simp [answer?, hFirst]
      | some rest => simpa [answer?, hFirst] using h _ (.both_second (runs_of_answer? hFirst))
  | either first second =>
      obtain ⟨⟨found, between⟩, hFirst⟩ := Option.isSome_iff_exists.mp (h _ (.either_first ..))
      cases found with
      | none => simpa [answer?, hFirst] using h _ (.either_second (runs_of_answer? hFirst))
      | some rest => simp [answer?, hFirst]
  | optional inner =>
      obtain ⟨_, hInner⟩ := Option.isSome_iff_exists.mp (h _ (.optional ..))
      simp [answer?, hInner]
  | many inner =>
      obtain ⟨⟨found, between⟩, hInner⟩ := Option.isSome_iff_exists.mp (h _ (.many ..))
      cases found with
      | none => simp [answer?, hInner]
      | some rest => simpa [answer?, hInner] using h _ (.many_again (runs_of_answer? hInner))
  | again inner =>
      obtain ⟨⟨found, between⟩, hInner⟩ := Option.isSome_iff_exists.mp (h _ (.again ..))
      cases found with
      | none => simp [answer?, hInner]
      | some rest => simpa [answer?, hInner] using h _ (.again_again (runs_of_answer? hInner))
  | absent inner =>
      obtain ⟨_, hInner⟩ := Option.isSome_iff_exists.mp (h _ (.absent ..))
      simp [answer?, hInner]

/-- One unit more is enough for an entry exactly if the smaller budget is enough for all that it
enters. -/
theorem isSome_answer?_succ_iff : (entry.answer? length (budget + 1)).isSome ↔
    ∀ inner, Enters length entry inner → (inner.answer? length budget).isSome :=
  ⟨fun h _ => isSome_answer?_of_enters h, isSome_answer?_succ⟩

/-- Where there is an answer, only finitely many entries follow each other on the way to it. -/
theorem acc_enters_of_isSome (h : (entry.answer? length budget).isSome) :
    Acc (fun inner outer => Enters length outer inner) entry := by
  induction budget generalizing entry with
  | zero => cases h
  | succ budget ih => exact .intro entry fun inner hEnters => ih (isSome_answer?_of_enters h hEnters)

/-- A larger budget does not lose an answer. -/
theorem isSome_answer?_of_le {budget' : Nat} (h : (entry.answer? length budget).isSome)
    (hBudget : budget ≤ budget') : (entry.answer? length budget').isSome := by
  induction budget generalizing entry budget' with
  | zero => cases h
  | succ budget ih =>
      obtain ⟨budget', rfl⟩ := Nat.exists_eq_succ_of_ne_zero (Nat.ne_zero_of_lt hBudget)
      exact isSome_answer?_succ fun inner hEnters =>
        ih (isSome_answer?_of_enters h hEnters) (Nat.le_of_succ_le_succ hBudget)

/-- A larger budget gives the same answer. -/
theorem answer?_of_le {budget' : Nat} {answer : Option (List Char) × Ledger}
    (h : entry.answer? length budget = some answer) (hBudget : budget ≤ budget') :
    entry.answer? length budget' = some answer :=
  answer?_of_isSome (isSome_answer?_of_le (h ▸ rfl) hBudget) (runs_of_answer? h)

/-! ### How much is enough -/

/-- How many entries may follow each other from an entry on. -/
def height (entry : Entry) : Nat :=
  300 * entry.text.length + entry.pattern.rank

/-- What is entered is less high, because a character weighs more than all ranks of the grammar. -/
theorem Below.height_lt {inner outer : Entry} (h : inner.Below outer)
    (hGrammar : inner.pattern.InGrammar) : inner.height < outer.height := by
  obtain ⟨hText, hLower⟩ := h
  have hLength := hText.length_le
  have hRank := hGrammar.rank_lt
  unfold height
  omega

/-- By induction on the budget: what is entered is less high by one unit at least. -/
theorem isSome_answer?_of_height_lt (hGrammar : entry.pattern.InGrammar)
    (hBudget : entry.height < budget) : (entry.answer? length budget).isSome := by
  induction budget generalizing entry with
  | zero => exact absurd hBudget (Nat.not_lt_zero _)
  | succ budget ih =>
      refine isSome_answer?_succ fun inner hEnters => ?_
      have hInner := hEnters.inGrammar hGrammar
      have hHeight := (hEnters.below hGrammar).height_lt hInner
      exact ih hInner (by omega)

/-- A budget in proportion to the length of the text is enough for every production. -/
theorem isSome_answer?_of_production {production : Production} (h : entry.pattern = production)
    (hBudget : 300 * (entry.text.length + 1) ≤ budget) : (entry.answer? length budget).isSome := by
  have hGrammar : entry.pattern.InGrammar := h ▸ Pattern.inGrammar_production production
  have hRank := hGrammar.rank_lt
  refine isSome_answer?_of_height_lt hGrammar ?_
  unfold height
  omega

def whole (text : List Char) : Entry :=
  ⟨.whole, Production.expression, text, .blank text.length⟩

/-- With an answer, a whole text is read as its parser reads it. -/
theorem answer?_whole {text : List Char} (h : ((whole text).answer? text.length budget).isSome) :
    (whole text).answer? text.length budget = some ((statement text).result.map Prod.snd,
      (Ledger.blank text.length).add (statement text).attempts) :=
  answer?_of_isSome h (statement_follows text _)

end Entry

/-! Reading ends on every text. The recursion of the grammar goes on in the text before it comes back to
where it was, and the bounds under which texts are read are never reached. -/

/-- A production that is entered again within itself is entered further on in the text. -/
def ReentersFurtherOn (length : Nat) : Prop :=
  ∀ (production : Production) (outer inner : Entry), TransGen (Enters length) outer inner →
    outer.pattern = production → inner.pattern = production →
    inner.text <:+ outer.text ∧ inner.text.length < outer.text.length

/-- A layer that is entered within a layer is entered further on in the text, or it is tighter. So no
layer comes back to itself on its left. -/
def LayersTighten (length : Nat) : Prop :=
  ∀ (kind kind' : Layer) (outer inner : Entry), TransGen (Enters length) outer inner →
    outer.pattern = Production.layer kind → inner.pattern = Production.layer kind' →
    inner.text.length < outer.text.length ∨
      inner.text = outer.text ∧ Layer.all.idxOf kind < Layer.all.idxOf kind'

/-- Whatever is repeated takes a character every time, in the patterns of the productions and in the
chains that the parsers read. -/
structure RepetitionsAdvance (text : List Char) : Prop where
  pattern : ∀ (production : Production) (repeated : Pattern),
    .many repeated ∈ production.body.parts → ∀ mode start rest before after,
    Runs text.length mode repeated start before (some rest) after →
    rest <:+ start ∧ rest.length < start.length
  link : ∀ (kind : Layer) (layers : List Layer) (depth : Nat) (found : Operator × Reading)
    (rest : List Char),
    (link kind (layers.foldr chain (operand (expressionWithin depth)))).result text =
      some (found, rest) → rest.length < text.length

/-- Only finitely many entries follow each other, and a budget in proportion to the length of the text
is enough to read it, whether it fits or not. -/
structure BudgetSuffices (text : List Char) : Prop where
  acc : ∀ (production : Production) (entry : Entry), entry.pattern = production →
    Acc (fun inner outer => Enters text.length outer inner) entry
  answered : ∀ (production : Production) (entry : Entry), entry.pattern = production →
    ∀ budget, 300 * (entry.text.length + 1) ≤ budget → (entry.answer? text.length budget).isSome
  /-- A budget is exactly a bound on how many entries follow each other. -/
  spent : ∀ (entry : Entry) (budget : Nat), (entry.answer? text.length (budget + 1)).isSome ↔
    ∀ inner, Enters text.length entry inner → (inner.answer? text.length budget).isSome
  larger : ∀ (entry : Entry) (budget budget' : Nat) (answer : Option (List Char) × Ledger),
    entry.answer? text.length budget = some answer → budget ≤ budget' →
    entry.answer? text.length budget' = some answer
  /-- The answer for a whole text is what its parser finds and tries. -/
  whole : ∀ budget, 300 * (text.length + 1) ≤ budget →
    (Entry.whole text).answer? text.length budget = some ((statement text).result.map Prod.snd,
      (Ledger.blank text.length).add (statement text).attempts)

/-- The bounds of the parsers on the depth of parentheses and on the links of a chain are never
reached. It makes no difference if both are larger, or what would be done at the end of the depth. -/
def BoundsUnreached (text : List Char) : Prop :=
  ∀ (bound depth : Nat) (nested : Parser Reading), text.length ≤ bound → text.length < depth →
    ∀ rest, rest <:+ text → ((subexpressionUpTo bound)^[depth] nested) rest = expression rest

theorem repetitionsAdvance (text : List Char) : RepetitionsAdvance text where
  pattern _ _ hPart _ _ _ _ _ := length_lt_of_repeated hPart
  link _ layers depth _ _ :=
    length_lt_of_link (chains_sound (expressionWithin_sound depth) layers)

theorem budgetSuffices (text : List Char) : BudgetSuffices text where
  acc _ _ hEntry :=
    Entry.acc_enters_of_isSome (Entry.isSome_answer?_of_production hEntry (Nat.le_refl _))
  answered _ _ hEntry _ := Entry.isSome_answer?_of_production hEntry
  spent _ _ := Entry.isSome_answer?_succ_iff
  larger _ _ _ _ := Entry.answer?_of_le
  whole _ hBudget := Entry.answer?_whole (Entry.isSome_answer?_of_production rfl hBudget)

theorem boundsUnreached (text : List Char) : BoundsUnreached text := by
  intro bound depth nested hBound hDepth rest hRest
  have hLength := hRest.length_le
  exact iterate_subexpressionUpTo_eq_expression nested (hLength.trans hBound)
    (hLength.trans_lt hDepth)

/-- The recursion of the grammar is well founded on every text. It goes on in the text before it comes
back to where it was, so that reading ends, within a budget in proportion to the length of the text and
without ever reaching the bounds that the parsers have themselves. -/
theorem recursion_wellFounded (text : List Char) :
    ReentersFurtherOn text.length ∧ LayersTighten text.length ∧ RepetitionsAdvance text ∧
      BudgetSuffices text ∧ BoundsUnreached text :=
  ⟨fun _ _ _ => length_lt_of_reentered, fun _ _ _ _ => tighter_of_entered,
    repetitionsAdvance text, budgetSuffices text, boundsUnreached text⟩

/-- A layer is entered from the layer around it without taking a character. -/
theorem enters_tighter (length : Nat) (mode : Mode) (kind : Layer) (text : List Char)
    (ledger : Ledger) : TransGen (Enters length) ⟨mode, Production.layer kind, text, ledger⟩
      ⟨mode, Production.tighter kind, text, ledger⟩ :=
  .tail (.single (.production ..)) (.both_first ..)

/-- An opening parenthesis leads back to the loosest layer. -/
theorem exists_enters_nested (length : Nat) (rest : List Char) (before : Ledger) :
    ∃ after, TransGen (Enters length)
      ⟨.whole, Production.layer .disjunction, '(' :: rest, before⟩
      ⟨.whole, Production.layer .disjunction, Text.skipBlanks rest, after⟩ := by
  have hLayers : TransGen (Enters length) ⟨.whole, Production.layer .disjunction, '(' :: rest, before⟩
      ⟨.whole, Production.operand, '(' :: rest, before⟩ :=
    (((((enters_tighter ..).trans (enters_tighter ..)).trans (enters_tighter ..)).trans
      (enters_tighter ..)).trans (enters_tighter ..)).trans (enters_tighter ..)
  -- Everything that is tried before a parenthesis fails there.
  have hName (spacing : Spacing) (ledger : Ledger) : ∃ after,
      Runs length ⟨spacing, false⟩ Production.identifier ('(' :: rest) ledger none after :=
    ⟨_, .production (reads_identifier ('(' :: rest) length ledger)⟩
  obtain ⟨first, hNegation⟩ : ∃ after,
      Runs length .whole Production.negation ('(' :: rest) before none after :=
    ⟨_, .production (.both_fails (.literal ..))⟩
  obtain ⟨second, hConditional⟩ : ∃ after,
      Runs length .whole Production.conditional ('(' :: rest) first none after :=
    ⟨_, .production (.both_fails (.literal ..))⟩
  obtain ⟨third, hCall⟩ : ∃ after,
      Runs length .whole Production.call ('(' :: rest) second none after := by
    obtain ⟨_, hFails⟩ := hName .touching second
    exact ⟨_, .production (.both_fails hFails)⟩
  obtain ⟨fourth, hVar⟩ : ∃ after,
      Runs length .whole Production.var ('(' :: rest) third none after := by
    obtain ⟨_, hFails⟩ := hName .spaced third
    exact ⟨_, .production hFails⟩
  have hOpening : Runs length .whole (.literal ['(']) ('(' :: rest) fourth (some rest) fourth :=
    .literal ..
  have hPrimary : TransGen (Enters length) ⟨.whole, Production.operand, '(' :: rest, before⟩
      ⟨⟨.touching, false⟩, Production.primary, '(' :: rest, first⟩ :=
    (((TransGen.single (.production ..)).tail (.either_second hNegation)).tail (.production ..)).tail
      (.both_first ..)
  have hParenthetical : TransGen (Enters length)
      ⟨⟨.touching, false⟩, Production.primary, '(' :: rest, first⟩
      ⟨.whole, Production.parenthetical, '(' :: rest, fourth⟩ :=
    ((((TransGen.single (.production ..)).tail (.either_second hConditional)).tail
      (.either_second hCall)).tail (.either_second hVar)).tail (.either_first ..)
  have hNested : TransGen (Enters length) ⟨.whole, Production.parenthetical, '(' :: rest, fourth⟩
      ⟨.whole, Production.layer .disjunction, Text.skipBlanks rest, fourth⟩ :=
    ((TransGen.single (.production ..)).tail (.both_second hOpening)).tail (.both_first ..)
  exact ⟨fourth, ((hLayers.trans hPrimary).trans hParenthetical).trans hNested⟩

/-- A parenthesis leads back to the loosest layer, with one character less to read. -/
theorem recursion_wellFounded_parenthesis :
    (∃ ledger, TransGen (Enters 3)
        ⟨.whole, Production.layer .disjunction, "(1)".toList, .blank 3⟩
        ⟨.whole, Production.layer .disjunction, "1)".toList, ledger⟩ ∧
      "1)".toList <:+ "(1)".toList ∧ "1)".toList.length < "(1)".toList.length) ∧
    (TransGen (Enters 3)
        ⟨.whole, Production.layer .disjunction, "(1)".toList, .blank 3⟩
        ⟨.whole, Production.layer .conjunction, "(1)".toList, .blank 3⟩ ∧
      Layer.all.idxOf .disjunction < Layer.all.idxOf .conjunction) ∧
    (Runs 3 .word (.character Char.isDigit) "1)".toList (.blank 3) (some ")".toList) (.blank 3) ∧
      ")".toList.length < "1)".toList.length) ∧
    (Entry.whole "(1)".toList).answer? 3 1200 = some (some [],
      (Ledger.blank 3).add (statement "(1)".toList).attempts) ∧
    (Entry.whole "(1)".toList).answer? 3 5000 = (Entry.whole "(1)".toList).answer? 3 1200 ∧
    (∃ found, (link .additive (operand (expressionWithin 4))).result "+2)".toList =
      some (found, ")".toList)) ∧ ")".toList.length < "+2)".toList.length ∧
    ((subexpressionUpTo 5)^[7] number) "(1)".toList = expression "(1)".toList ∧
    ((subexpressionUpTo 5)^[7] number) "1)".toList = expression "1)".toList := by
  obtain ⟨hReentered, hLayers, hRepeated, hBudget, hBounds⟩ := recursion_wellFounded "(1)".toList
  obtain ⟨-, -, hLinks, -, -⟩ := recursion_wellFounded "+2)".toList
  obtain ⟨ledger, hNested⟩ := exists_enters_nested 3 "1)".toList (.blank 3)
  have hTighter := enters_tighter 3 .whole .disjunction "(1)".toList (.blank 3)
  have hDigit : Runs 3 .word (.character Char.isDigit) "1)".toList (.blank 3) (some ")".toList)
      (.blank 3) := .character ..
  have hDigits : .many (.character Char.isDigit) ∈ Production.number.body.parts := by
    simp [Production.body, Pattern.sequence, Pattern.digits, Pattern.parts]
  have hAnswer := hBudget.whole 1200 (by decide)
  rw [show (statement "(1)".toList).result.map Prod.snd = some [] by decide] at hAnswer
  have hLink : ∃ found, (link .additive (operand (expressionWithin 4))).result "+2)".toList =
      some (found, ")".toList) := ⟨_, rfl⟩
  refine ⟨⟨ledger, hNested, hReentered _ _ _ hNested rfl rfl⟩, ⟨hTighter, ?_⟩,
    ⟨hDigit, (hRepeated.pattern _ _ hDigits _ _ _ _ _ hDigit).2⟩, hAnswer,
    (hBudget.larger _ _ 5000 _ hAnswer (by decide)).trans hAnswer.symm, hLink, ?_,
    hBounds 5 7 number (by decide) (by decide) _ List.suffix_rfl,
    hBounds 5 7 number (by decide) (by decide) _ ⟨['('], rfl⟩⟩
  · exact ((hLayers _ _ _ _ hTighter rfl rfl).resolve_left (Nat.lt_irrefl _)).2
  · obtain ⟨found, hFound⟩ := hLink
    exact hLinks.link .additive [] 4 found _ hFound

end Formula.Grammar
