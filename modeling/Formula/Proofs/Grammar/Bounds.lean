import Mathlib.Logic.Function.Iterate
import Formula.Proofs.Grammar.Recording

/-! How deep parentheses are followed and how many links of a chain are read. What stands in parentheses
is read further on, so that a production depends on the parser of nested expressions only as far as shorter
texts go. A text is too short for any of the bounds under which it is read. -/

namespace Formula.Grammar

open Formula.Grammar.Parser

namespace Parser

variable {α β : Type} {n : Nat} {text : List Char} {first first' : Parser α} {next next' : α → Parser β}

def Shrinks (parser : Parser α) (text : List Char) : Prop :=
  ∀ a rest, parser.result text = some (a, rest) → rest.length ≤ text.length

/-- Two parsers do the same with a text, and leave no more of it than there was. -/
structure Agree (first second : Parser α) (text : List Char) : Prop where
  same : first text = second text
  shrinks : first.Shrinks text

namespace Agree

theorem pure (a : α) : (Pure.pure a : Parser α).Agree (Pure.pure a) text := by
  refine ⟨rfl, fun b rest h => ?_⟩
  cases h
  exact Nat.le_refl _

theorem literal (characters : List Char) :
    (Parser.literal characters).Agree (Parser.literal characters) text := by
  refine ⟨rfl, fun u rest h => ?_⟩
  rw [result_literal_eq_some.mp h, List.length_append]
  exact Nat.le_add_left ..

/-- What comes second needs to agree only where the first parser leads to, which is further on. -/
theorem bind (h : first.Agree first' text)
    (hNext : ∀ a rest, first.result text = some (a, rest) → (next a).Agree (next' a) rest) :
    (first >>= next).Agree (first' >>= next') text := by
  constructor
  · show andThen first next text = andThen first' next' text
    unfold andThen
    rw [← h.same]
    rcases hOutcome : first text with ⟨_ | ⟨a, rest⟩, attempts⟩
    · rfl
    · have hLater := hNext a rest (congrArg Outcome.result hOutcome)
      dsimp only
      rw [hLater.same]
  · intro b rest hFound
    obtain ⟨a, middle, hFirst, hLater⟩ := result_bind_eq_some.mp hFound
    exact ((hNext a middle hFirst).shrinks b rest hLater).trans (h.shrinks a middle hFirst)

/-- Both alternatives have to agree at the same place. -/
theorem orElse {second second' : Parser α} (h : first.Agree first' text)
    (hSecond : second.Agree second' text) : (first <|> second).Agree (first' <|> second') text := by
  constructor
  · show Parser.orElse first second text = Parser.orElse first' second' text
    unfold Parser.orElse
    rw [← h.same, hSecond.same]
  · intro a rest hFound
    rw [result_orElse, Option.or_eq_some_iff] at hFound
    rcases hFound with hFound | ⟨-, hFound⟩
    · exact h.shrinks a rest hFound
    · exact hSecond.shrinks a rest hFound

/-- Agreement is about attempts as well as about what is found, so that a production keeps it. -/
theorem named (h : first.Agree first' text) (production : Production) :
    (Parser.named production first).Agree (Parser.named production first') text := by
  constructor
  · unfold Parser.named
    rw [h.same]
  · intro a rest hFound
    rw [result_named] at hFound
    exact h.shrinks a rest hFound

theorem optional (h : first.Agree first' text) :
    (Parser.optional first).Agree (Parser.optional first') text :=
  (h.bind fun a _ _ => .pure (some a)).orElse (.pure none)

/-- A repetition stays within the texts that are not longer, where a single time agrees. -/
theorem many (h : ∀ text, text.length ≤ n → first.Agree first' text) (bound : Nat)
    (hText : text.length ≤ n) : (Parser.many first bound).Agree (Parser.many first' bound) text := by
  induction bound generalizing text with
  | zero => exact .pure []
  | succ bound ih =>
      refine orElse ((h text hText).bind fun a rest hFound => ?_) (.pure [])
      have hRest := (h text hText).shrinks a rest hFound
      exact (ih (hRest.trans hText)).bind fun more _ _ => .pure (a :: more)

theorem remainder : Parser.remainder.Agree Parser.remainder text := by
  refine ⟨rfl, fun _ rest h => ?_⟩
  cases h
  exact Nat.le_refl _

theorem blanks : Parser.blanks.Agree Parser.blanks text := by
  refine ⟨rfl, fun u rest h => ?_⟩
  cases h
  exact length_skipBlanks_le text

/-- Between two parts, white space is skipped. -/
theorem bind_blanks (h : first.Agree first' text)
    (hNext : ∀ a rest, first.result text = some (a, rest) →
      (next a).Agree (next' a) (Text.skipBlanks rest)) :
    (first >>= fun a => Parser.blanks >>= fun _ => next a).Agree
      (first' >>= fun a => Parser.blanks >>= fun _ => next' a) text := by
  refine h.bind fun a rest hFound => blanks.bind fun _ after hAfter => ?_
  cases hAfter
  exact hNext a rest hFound

/-- What comes after the first part is no longer than the text. -/
theorem bind_blanks_le (h : first.Agree first' text)
    (hNext : ∀ a rest, rest.length ≤ text.length → (next a).Agree (next' a) rest) :
    (first >>= fun a => Parser.blanks >>= fun _ => next a).Agree
      (first' >>= fun a => Parser.blanks >>= fun _ => next' a) text :=
  h.bind_blanks fun a rest hFound =>
    hNext a _ ((length_skipBlanks_le rest).trans (h.shrinks a rest hFound))

/-- What comes after a character is shorter than the text. -/
theorem character_bind {c : Char} {later later' : Parser β} (hText : text.length ≤ n)
    (hNext : ∀ rest, rest.length < n → later.Agree later' rest) :
    (Parser.literal [c] >>= fun _ => Parser.blanks >>= fun _ => later).Agree
      (Parser.literal [c] >>= fun _ => Parser.blanks >>= fun _ => later') text :=
  (literal [c]).bind_blanks fun _ _ hFound =>
    hNext _ ((length_skipBlanks_lt hFound).trans_le hText)

end Agree

/-- A parser that does what a run of a pattern does leaves no more of a text than there was. -/
theorem Follows.agree {length : Nat} {spacing : Spacing} {pattern : Pattern}
    (h : first.Follows length spacing pattern text) : first.Agree first text :=
  ⟨rfl, fun _ _ => h.length_le⟩

/-- If something is read every time, a bound that exceeds the length of the text is never reached, and a
larger one makes no difference. Where the text is used up, one more attempt is made in vain. -/
theorem many_eq_many {parser : Parser α} {bound bound' : Nat}
    (hShorter : ∀ text a rest, parser.result text = some (a, rest) → rest.length < text.length)
    (hBound : text.length < bound) (hBound' : text.length < bound') :
    many parser bound text = many parser bound' text := by
  induction bound generalizing text bound' with
  | zero => exact absurd hBound (Nat.not_lt_zero _)
  | succ bound ih =>
      obtain ⟨bound', rfl⟩ := Nat.exists_eq_succ_of_ne_zero (Nat.ne_zero_of_lt hBound')
      rw [many_succ, many_succ]
      rcases hOutcome : parser text with ⟨_ | ⟨a, rest⟩, attempts⟩
      · rfl
      · have hRest := hShorter text a rest (congrArg Outcome.result hOutcome)
        have hLater : many parser bound rest = many parser bound' rest := ih (by omega) (by omega)
        dsimp only
        rw [hLater]

end Parser

/-! ### Productions -/

section Nested

variable {n : Nat} {nested nested' : Parser Reading} {text : List Char}

/-- Whatever has nothing nested in it agrees with itself, and does not make the text longer. -/
theorem identifier_agrees : identifier.Agree identifier text :=
  have hFollows : identifier.Follows 0 .spaced (.production .identifier) text :=
    identifier_follows (by decide)
  hFollows.agree

theorem number_agrees : number.Agree number text :=
  have hFollows : number.Follows 0 .spaced (.production .number) text := number_follows (by decide)
  hFollows.agree

theorem reference_agrees : reference.Agree reference text :=
  have hFollows : reference.Follows 0 .spaced (.production .var) text := reference_follows (by decide)
  hFollows.agree

theorem operator_agrees (layer : Layer) : (operator layer).Agree (operator layer) text :=
  have hFollows : (operator layer).Follows 0 .spaced (.production (.operator layer)) text :=
    operator_follows layer (by decide)
  hFollows.agree

theorem mark_agrees : (named .factorial (literal ['!'])).Agree (named .factorial (literal ['!'])) text :=
  (Agree.literal ['!']).named .factorial

/-- With the result after it, as it stands at the end of everything in parentheses. -/
theorem closing_agrees {α : Type} (a : α) :
    (closingParenthesis >>= fun _ => pure a).Agree (closingParenthesis >>= fun _ => pure a) text :=
  ((Agree.literal [')']).named .closingParenthesis).bind fun _ _ _ => .pure a

variable (hNested : ∀ text, text.length < n → nested.Agree nested' text)

include hNested

theorem nextArgument_agrees (hText : text.length ≤ n) :
    (nextArgument nested).Agree (nextArgument nested') text :=
  .character_bind hText hNested

/-- What is nested is read in a shorter text, in which the two parsers of it agree. -/
theorem parenthetical_agrees (hText : text.length ≤ n) :
    (parenthetical nested).Agree (parenthetical nested') text := by
  refine .named ?_ .parenthetical
  refine .character_bind hText fun rest hRest => ?_
  exact (hNested rest hRest).bind_blanks_le fun inner _ _ => closing_agrees inner

theorem callArguments_agrees (hText : text.length ≤ n) :
    (callArguments nested).Agree (callArguments nested') text := by
  refine .named ?_ .callArguments
  refine .character_bind hText fun rest hRest => ?_
  refine (hNested rest hRest).bind_blanks_le fun first afterFirst hFirst => ?_
  have hSecond := nextArgument_agrees hNested (hFirst.trans hRest.le)
  exact hSecond.optional.bind_blanks_le fun second _ _ => closing_agrees (first, second)

/-- The text gets shorter with every part, so that all three may be read by either parser. -/
theorem conditionalArguments_agrees (hText : text.length ≤ n) :
    (conditionalArguments nested).Agree (conditionalArguments nested') text := by
  refine .named ?_ .conditionalArguments
  refine .character_bind hText fun rest hRest => ?_
  refine (hNested rest hRest).bind_blanks_le fun condition afterFirst hFirst => ?_
  have hLength := hFirst.trans hRest.le
  refine (nextArgument_agrees hNested hLength).bind_blanks_le fun whenTrue afterSecond hSecond => ?_
  have hThird := nextArgument_agrees hNested (hSecond.trans hLength)
  exact hThird.bind_blanks_le fun otherwise _ _ => closing_agrees (condition, whenTrue, otherwise)

/-- A name takes characters, and the parenthesis takes one more. -/
theorem call_agrees (hText : text.length ≤ n) : (call nested).Agree (call nested') text := by
  refine .named ?_ .call
  refine identifier_agrees.bind fun name rest hFound => ?_
  have hRest := identifier_agrees.shrinks name rest hFound
  have hArguments := callArguments_agrees hNested (hRest.trans hText)
  exact hArguments.bind fun _ _ _ => .pure _

theorem conditional_agrees (hText : text.length ≤ n) :
    (conditional nested).Agree (conditional nested') text := by
  refine .named ?_ .conditional
  have hWord : (literal ['i', 'f']).Agree (literal ['i', 'f']) text := .literal _
  refine hWord.bind fun u rest hFound => ?_
  have hArguments := conditionalArguments_agrees hNested ((hWord.shrinks u rest hFound).trans hText)
  exact hArguments.bind fun _ _ _ => .pure _

/-- One case for each alternative. -/
theorem primary_agrees (hText : text.length ≤ n) : (primary nested).Agree (primary nested') text := by
  refine .named ?_ .primary
  exact (conditional_agrees hNested hText).orElse <| (call_agrees hNested hText).orElse <|
    reference_agrees.orElse <| (parenthetical_agrees hNested hText).orElse number_agrees

theorem factorialOperand_agrees (hText : text.length ≤ n) :
    (factorialOperand nested).Agree (factorialOperand nested') text := by
  refine .named ?_ .factorialOperand
  refine (primary_agrees hNested hText).bind fun operand rest _ => ?_
  exact mark_agrees.optional.bind fun _ _ _ => .pure _

theorem negation_agrees (hText : text.length ≤ n) :
    (negation nested).Agree (negation nested') text := by
  refine .named ?_ .negation
  have hMinus : (literal ['-']).Agree (literal ['-']) text := .literal _
  refine hMinus.bind fun u rest hFound => ?_
  have hOperand := factorialOperand_agrees hNested ((hMinus.shrinks u rest hFound).trans hText)
  exact hOperand.bind fun _ _ _ => .pure _

/-- With both parsers of what is nested, the operands of an expression are the same. -/
theorem operand_agrees (hText : text.length ≤ n) : (operand nested).Agree (operand nested') text :=
  ((negation_agrees hNested hText).orElse (factorialOperand_agrees hNested hText)).named .operand

end Nested

section Chains

variable {n : Nat} {item item' : Parser Reading} {text : List Char}
  (hItem : ∀ text, text.length ≤ n → item.Agree item' text)

include hItem

/-- White space may leave the text as long as it is, but the operator does not. -/
theorem link_agrees (layer : Layer) (hText : text.length ≤ n) :
    (link layer item).Agree (link layer item') text := by
  refine Agree.blanks.bind fun u afterBlanks hBlanks => ?_
  have hLength := (Agree.blanks.shrinks u afterBlanks hBlanks).trans hText
  refine (operator_agrees layer).bind_blanks_le fun found rest hRest => ?_
  exact (hItem rest (hRest.trans hLength)).bind fun _ _ _ => .pure _

end Chains

/-! ### Expressions under other bounds -/

def chainUpTo (bound : Nat) (layer : Layer) (item : Parser Reading) : Parser Reading :=
  named (.layer layer) do
    let text ← remainder
    let first ← item
    blanks
    let rest ← many (link layer item) (if layer = .comparison then 1 else bound)
    let after ← remainder
    pure (.chain layer first rest fun _ => text.take (text.length - after.length))

/-- The bound of a chain is the length of its text, except in the layer of comparisons. -/
theorem chain_eq_chainUpTo (layer : Layer) (item : Parser Reading) (text : List Char) :
    chain layer item text = chainUpTo text.length layer item text :=
  rfl

/-- An expression of which no more links are read in any chain than a bound says. -/
def subexpressionUpTo (bound : Nat) (nested : Parser Reading) : Parser Reading :=
  Layer.all.foldr (chainUpTo bound) (operand nested)

section Expressions

variable {n bound : Nat} {nested nested' : Parser Reading} {text : List Char}

/-- After the first operand fewer characters are left than there were, so that neither bound on the links
is reached. -/
theorem chainUpTo_agrees {item item' : Parser Reading} {layers : List Layer} (layer : Layer)
    (hItem : ∀ text, text.length ≤ n → item.Agree item' text) (hSound : Sound layers item')
    (hBound : n ≤ bound) (hText : text.length ≤ n) :
    (chainUpTo bound layer item).Agree (chain layer item') text := by
  suffices h : (chainUpTo bound layer item).Agree (chainUpTo text.length layer item') text from
    ⟨h.same.trans (chain_eq_chainUpTo layer item' text).symm, h.shrinks⟩
  refine .named ?_ (.layer layer)
  refine Agree.remainder.bind fun whole rest hWhole => ?_
  cases hWhole
  refine (hItem text hText).bind_blanks fun first afterFirst hFirst => ?_
  rw [result, (hItem text hText).same] at hFirst
  have hRest : (Text.skipBlanks afterFirst).length < text.length :=
    (length_skipBlanks_le afterFirst).trans_lt (hSound.length_lt hFirst)
  have hLink (text : List Char) (hText : text.length ≤ n) := link_agrees hItem layer hText
  suffices hLinks : (many (link layer item) (if layer = .comparison then 1 else bound)).Agree
      (many (link layer item') (if layer = .comparison then 1 else text.length))
      (Text.skipBlanks afterFirst) from
    hLinks.bind fun _ _ _ => Agree.remainder.bind fun _ _ _ => .pure _
  by_cases hLayer : layer = .comparison
  · rw [if_pos hLayer, if_pos hLayer]
    exact .many hLink 1 (hRest.le.trans hText)
  · rw [if_neg hLayer, if_neg hLayer]
    have hSame := Agree.many hLink bound (hRest.le.trans hText)
    have hShorter (text : List Char) (found : Operator × Reading) (rest : List Char)
        (hFound : (link layer item').result text = some (found, rest)) : rest.length < text.length :=
      length_lt_of_link hSound hFound
    have hBounds := many_eq_many hShorter (hRest.trans_le (hText.trans hBound)) hRest
    exact ⟨hSame.same.trans hBounds, hSame.shrinks⟩

/-- What an expression makes of a text depends on nested expressions in shorter texts only, and not on a
bound that is no less than the length of the text. -/
theorem subexpressionUpTo_agrees (hNested : ∀ text, text.length < n → nested.Agree nested' text)
    (hSound : Sound Layer.all nested') (hBound : n ≤ bound) (hText : text.length ≤ n) :
    (subexpressionUpTo bound nested).Agree (subexpression nested') text := by
  have hLayers (layers : List Layer) : ∀ text, text.length ≤ n →
      (layers.foldr (chainUpTo bound) (operand nested)).Agree
        (layers.foldr chain (operand nested')) text := by
    induction layers with
    | nil => exact fun _ => operand_agrees hNested
    | cons layer layers ih =>
        exact fun _ => chainUpTo_agrees layer ih (chains_sound hSound layers) hBound
  exact hLayers Layer.all text hText

/-- A text is too short to get to the end of a depth that exceeds its length, so that nothing depends on
what would be done there. -/
theorem iterate_subexpressionUpTo_agrees {depth depth' : Nat} (nested : Parser Reading)
    (hBound : text.length ≤ bound) (hDepth : text.length < depth) (hDepth' : text.length < depth') :
    ((subexpressionUpTo bound)^[depth] nested).Agree (expressionWithin depth') text := by
  induction depth generalizing text depth' with
  | zero => exact absurd hDepth (Nat.not_lt_zero _)
  | succ depth ih =>
      obtain ⟨depth', rfl⟩ := Nat.exists_eq_succ_of_ne_zero (Nat.ne_zero_of_lt hDepth')
      rw [Function.iterate_succ_apply', expressionWithin]
      have hNested (inner : List Char) (hInner : inner.length < text.length) :
          ((subexpressionUpTo bound)^[depth] nested).Agree (expressionWithin depth') inner :=
        ih (by omega) (by omega) (by omega)
      exact subexpressionUpTo_agrees hNested (expressionWithin_sound depth') hBound (Nat.le_refl _)

/-- The bounds under which an expression is read are never reached, and larger ones make no difference. -/
theorem iterate_subexpressionUpTo_eq_expression {depth : Nat} (nested : Parser Reading)
    (hBound : text.length ≤ bound) (hDepth : text.length < depth) :
    ((subexpressionUpTo bound)^[depth] nested) text = expression text :=
  (iterate_subexpressionUpTo_agrees nested hBound hDepth (Nat.lt_succ_self _)).same

end Expressions

end Formula.Grammar
