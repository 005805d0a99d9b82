import Mathlib.Logic.Relation
import Formula.Proofs.Grammar.Execution

/-! How one pattern is read within another. What is read within a pattern is read further on, or else it
stands lower in an order of the patterns at one place. So no production is read within itself at the place
where it begins. -/

namespace Formula.Grammar

/-! ### Patterns that take a character -/

/-- Whether a production takes at least one character wherever it fits. Only the end of the text takes
none. -/
def Production.consumes : Production → Bool
  | endOfInput => false
  | _ => true

namespace Pattern

def consumes : Pattern → Bool
  | literal characters => !characters.isEmpty
  | character _ => true
  | production inner => inner.consumes
  | both first second => first.consumes || second.consumes
  | either first second => first.consumes && second.consumes
  | start | finish | optional _ | many _ | again _ | absent _ => false

/-- A production is said to take a character only where its body does. -/
theorem consumes_body {production : Production} (h : production.consumes = true) :
    production.body.consumes = true := by
  cases production with
  | endOfInput => cases h
  | layer kind | operator kind => cases kind <;> rfl
  | _ => rfl

end Pattern

/-- A pattern that is known to take a character does so in every run. -/
theorem Runs.length_lt {length : Nat} {mode : Mode} {pattern : Pattern} {text : List Char}
    {before after : Ledger} {result : Option (List Char)}
    (h : Runs length mode pattern text before result after) (hConsumes : pattern.consumes = true) :
    ∀ rest ∈ result, rest.length < text.length := by
  induction h with
  | literal mode characters text =>
      intro rest hRest
      have hText : text = characters ++ rest := by simpa [eq_comm] using hRest
      have hCharacters : 0 < characters.length := by
        simpa [Pattern.consumes, List.length_pos_iff] using hConsumes
      rw [hText, List.length_append]
      omega
  | character mode accepts text =>
      intro rest hRest
      cases text with
      | nil => cases hRest
      | cons c others =>
          obtain ⟨-, rfl⟩ : accepts c = true ∧ others = rest := by simpa [afterCharacter] using hRest
          exact Nat.lt_succ_self _
  | production _ ih => exact ih (Pattern.consumes_body hConsumes)
  | both_fails =>
      intro rest hRest
      cases hRest
  | @both mode first second text rest _ _ _ _ hFirst hSecond ihFirst ihSecond =>
      intro tail hTail
      have hRest := (hFirst.isSuffix rest rfl).length_le
      have hSkip := (mode.skip_isSuffix rest).length_le
      have hLater := (hSecond.isSuffix tail hTail).length_le
      rcases Bool.or_eq_true_iff.mp hConsumes with hTakes | hTakes
      · have hLess := ihFirst hTakes rest rfl
        omega
      · have hLess := ihSecond hTakes tail hTail
        omega
  | either_first _ ih => exact ih (Bool.and_eq_true_iff.mp hConsumes).1
  | either_second _ _ _ ih => exact ih (Bool.and_eq_true_iff.mp hConsumes).2
  | start | finish | optional | many_done | many | again_done | again | absent => cases hConsumes

/-! ### The order of patterns at one place -/

/-- Where a production stands in the order in which one begins with another. It stands above all those
that may be read at the place where it begins. -/
def Production.tier : Production → Nat
  | expression => 11
  | layer .disjunction => 10
  | layer .conjunction => 9
  | layer .comparison => 8
  | layer .additive => 7
  | layer .multiplicative => 6
  | layer .exponential => 5
  | operand => 4
  | factorialOperand => 3
  | primary => 2
  | assignment | call | var => 1
  | endOfInput | operator _ | negation | factorial | conditional | conditionalArguments
  | callArguments | parenthetical | closingParenthesis | number | identifier => 0

namespace Pattern

/-- Where a pattern stands in the order of all patterns that may be read at one place. What comes after
a part that takes a character is not read at the same place. From a production to the next tier there are
fewer than 24 patterns within each other. -/
def rank : Pattern → Nat
  | literal _ | character _ | start | finish => 0
  | production inner => 24 * (inner.tier + 1)
  | both first second => max first.rank (if first.consumes then 0 else second.rank) + 1
  | either first second => max first.rank second.rank + 1
  | optional inner | many inner | again inner | absent inner => inner.rank + 1

def parts : Pattern → List Pattern
  | literal characters => [literal characters]
  | character accepts => [character accepts]
  | start => [start]
  | finish => [finish]
  | production inner => [production inner]
  | both first second => both first second :: (first.parts ++ second.parts)
  | either first second => either first second :: (first.parts ++ second.parts)
  | optional inner => optional inner :: inner.parts
  | many inner => many inner :: again inner :: inner.parts
  | again inner => again inner :: inner.parts
  | absent inner => absent inner :: inner.parts

def progresses : Pattern → Bool
  | many inner | again inner => inner.consumes
  | _ => true

/-- The rank of a production is above that of its body, which may refer to looser ones only behind a
character. -/
theorem rank_body_lt (production : Production) :
    production.body.rank < (Pattern.production production).rank := by
  cases production with
  | layer kind | operator kind => cases kind <;> decide
  | _ => decide

/-- The grammar is finite: there is a bound on the ranks in it, and every repetition in it can be looked
at. -/
theorem rank_lt_and_progresses {production : Production} {pattern : Pattern}
    (h : pattern ∈ production.body.parts) : pattern.rank < 300 ∧ pattern.progresses = true := by
  have hAll : ∀ part ∈ production.body.parts, part.rank < 300 ∧ part.progresses = true := by
    cases production with
    | layer kind | operator kind => cases kind <;> decide
    | _ => decide
  exact hAll pattern h

theorem mem_parts_self (pattern : Pattern) : pattern ∈ pattern.parts := by
  cases pattern <;> exact List.mem_cons_self

theorem parts_subset {pattern whole : Pattern} (h : pattern ∈ whole.parts) :
    pattern.parts ⊆ whole.parts := by
  induction whole with
  | literal | character | start | finish | production =>
      rw [List.mem_singleton.mp h]
      exact List.Subset.refl _
  | both first second ihFirst ihSecond | either first second ihFirst ihSecond =>
      rcases List.mem_cons.mp h with rfl | h
      · exact List.Subset.refl _
      rcases List.mem_append.mp h with h | h
      · exact fun part hPart => List.mem_cons_of_mem _ (List.mem_append_left _ (ihFirst h hPart))
      · exact fun part hPart => List.mem_cons_of_mem _ (List.mem_append_right _ (ihSecond h hPart))
  | optional inner ih | again inner ih | absent inner ih =>
      rcases List.mem_cons.mp h with rfl | h
      · exact List.Subset.refl _
      · exact fun part hPart => List.mem_cons_of_mem _ (ih h hPart)
  | many inner ih =>
      rcases List.mem_cons.mp h with rfl | h
      · exact List.Subset.refl _
      rcases List.mem_cons.mp h with rfl | h
      · exact List.subset_cons_self _ _
      · exact fun part hPart => List.mem_cons_of_mem _ (List.mem_cons_of_mem _ (ih h hPart))

/-- The patterns that are read for the sake of the productions: these themselves, and all parts of what
they consist of. -/
def InGrammar (pattern : Pattern) : Prop :=
  ∃ production : Production, pattern = production ∨ pattern ∈ production.body.parts

theorem inGrammar_production (production : Production) : (Pattern.production production).InGrammar :=
  ⟨production, Or.inl rfl⟩

/-- Whatever is read within a production belongs to the grammar. -/
theorem inGrammar_body (production : Production) : production.body.InGrammar :=
  ⟨production, Or.inr (mem_parts_self _)⟩

/-- The grammar is finite, so that there is a bound on all ranks in it. -/
theorem InGrammar.rank_lt {pattern : Pattern} (h : pattern.InGrammar) : pattern.rank < 300 := by
  obtain ⟨production, rfl | hPart⟩ := h
  · have hTier : production.tier ≤ 11 := by
      cases production with
      | layer kind => cases kind <;> decide
      | _ => simp only [Production.tier]; omega
    simp only [rank]
    omega
  · exact (rank_lt_and_progresses hPart).1

/-- In the grammar nothing is repeated that could take no character. -/
theorem InGrammar.progresses {pattern : Pattern} (h : pattern.InGrammar) :
    pattern.progresses = true := by
  obtain ⟨production, rfl | hPart⟩ := h
  · rfl
  · exact (rank_lt_and_progresses hPart).2

theorem InGrammar.part {pattern part : Pattern} (h : pattern.InGrammar) (hPart : part ∈ pattern.parts) :
    part.InGrammar := by
  obtain ⟨production, rfl | hWhole⟩ := h
  · exact ⟨production, Or.inl (List.mem_singleton.mp hPart)⟩
  · exact ⟨production, Or.inr (parts_subset hWhole hPart)⟩

end Pattern

/-! ### Entries -/

structure Entry where
  mode : Mode
  pattern : Pattern
  text : List Char
  ledger : Ledger

/-- To read what the first entry asks for, what the second one asks for is read on the way. The whole
text has the given length. -/
inductive Enters (length : Nat) : Entry → Entry → Prop where
  | production (mode : Mode) (production : Production) (text : List Char) (ledger : Ledger) :
      Enters length ⟨mode, production, text, ledger⟩
        ⟨mode.within production, production.body, text, ledger⟩
  | both_first (mode : Mode) (first second : Pattern) (text : List Char) (ledger : Ledger) :
      Enters length ⟨mode, .both first second, text, ledger⟩ ⟨mode, first, text, ledger⟩
  | both_second {mode : Mode} {first second : Pattern} {text rest : List Char}
      {before between : Ledger} (hFirst : Runs length mode first text before (some rest) between) :
      Enters length ⟨mode, .both first second, text, before⟩ ⟨mode, second, mode.skip rest, between⟩
  | either_first (mode : Mode) (first second : Pattern) (text : List Char) (ledger : Ledger) :
      Enters length ⟨mode, .either first second, text, ledger⟩ ⟨mode, first, text, ledger⟩
  | either_second {mode : Mode} {first second : Pattern} {text : List Char} {before between : Ledger}
      (hFirst : Runs length mode first text before none between) :
      Enters length ⟨mode, .either first second, text, before⟩ ⟨mode, second, text, between⟩
  | optional (mode : Mode) (inner : Pattern) (text : List Char) (ledger : Ledger) :
      Enters length ⟨mode, .optional inner, text, ledger⟩ ⟨mode, inner, text, ledger⟩
  | many (mode : Mode) (inner : Pattern) (text : List Char) (ledger : Ledger) :
      Enters length ⟨mode, .many inner, text, ledger⟩ ⟨mode, inner, text, ledger⟩
  | many_again {mode : Mode} {inner : Pattern} {text rest : List Char} {before between : Ledger}
      (hInner : Runs length mode inner text before (some rest) between) :
      Enters length ⟨mode, .many inner, text, before⟩ ⟨mode, .again inner, rest, between⟩
  | again (mode : Mode) (inner : Pattern) (text : List Char) (ledger : Ledger) :
      Enters length ⟨mode, .again inner, text, ledger⟩ ⟨mode, inner, mode.skip text, ledger⟩
  | again_again {mode : Mode} {inner : Pattern} {text rest : List Char} {before between : Ledger}
      (hInner : Runs length mode inner (mode.skip text) before (some rest) between) :
      Enters length ⟨mode, .again inner, text, before⟩ ⟨mode, .again inner, rest, between⟩
  | absent (mode : Mode) (inner : Pattern) (text : List Char) (ledger : Ledger) :
      Enters length ⟨mode, .absent inner, text, ledger⟩ ⟨mode.opposite, inner, text, ledger⟩

/-- An entry is below another one if it is further on in the text, or else lower in the order of the
patterns at the same place. -/
def Entry.Below (inner outer : Entry) : Prop :=
  inner.text <:+ outer.text ∧
    (inner.text.length < outer.text.length ∨ inner.pattern.rank < outer.pattern.rank)

/-- Either step of two may be the one that goes on in the text. If neither does, both go down in the
order. -/
theorem Entry.Below.trans {first second third : Entry} (h : third.Below second)
    (h' : second.Below first) : third.Below first := by
  obtain ⟨hText, hLower⟩ := h
  obtain ⟨hText', hLower'⟩ := h'
  have hLength := hText.length_le
  have hLength' := hText'.length_le
  exact ⟨hText.trans hText', by omega⟩

namespace Enters

variable {length : Nat} {outer inner : Entry}

/-- Whatever is entered from the grammar belongs to the grammar. -/
theorem inGrammar (h : Enters length outer inner) (hGrammar : outer.pattern.InGrammar) :
    inner.pattern.InGrammar := by
  cases h with
  | production => exact Pattern.inGrammar_body _
  | _ => exact hGrammar.part (by simp [Pattern.parts, Pattern.mem_parts_self])

/-- Every entry goes on in the text, or else down in the order of the patterns. -/
theorem below (h : Enters length outer inner) (hGrammar : outer.pattern.InGrammar) :
    inner.Below outer := by
  cases h with
  | production mode production => exact ⟨List.suffix_rfl, Or.inr (Pattern.rank_body_lt production)⟩
  | both_first | either_first | either_second | optional | many | absent =>
      refine ⟨List.suffix_rfl, Or.inr ?_⟩
      simp only [Pattern.rank]
      omega
  | again mode inner text =>
      exact ⟨mode.skip_isSuffix text, Or.inr (Nat.lt_succ_self _)⟩
  | @both_second mode first second text rest _ _ hFirst =>
      have hSkip := mode.skip_isSuffix rest
      refine ⟨hSkip.trans (hFirst.isSuffix rest rfl), ?_⟩
      cases hConsumes : first.consumes with
      | true =>
          exact Or.inl (hSkip.length_le.trans_lt (hFirst.length_lt hConsumes rest rfl))
      | false =>
          refine Or.inr ?_
          simp only [Pattern.rank, hConsumes, Bool.false_eq_true, if_false]
          omega
  | many_again hInner =>
      exact ⟨hInner.isSuffix _ rfl, Or.inl (hInner.length_lt hGrammar.progresses _ rfl)⟩
  | @again_again mode _ text _ _ _ hInner =>
      have hSkip := mode.skip_isSuffix text
      exact ⟨(hInner.isSuffix _ rfl).trans hSkip,
        Or.inl ((hInner.length_lt hGrammar.progresses _ rfl).trans_le hSkip.length_le)⟩

end Enters

section Within

open Relation (TransGen)

variable {length : Nat} {outer inner : Entry}

theorem below_of_transGen (h : TransGen (Enters length) outer inner)
    (hGrammar : outer.pattern.InGrammar) : inner.Below outer := by
  suffices hBoth : inner.Below outer ∧ inner.pattern.InGrammar from hBoth.1
  induction h with
  | single hStep => exact ⟨hStep.below hGrammar, hStep.inGrammar hGrammar⟩
  | tail _ hStep ih => exact ⟨(hStep.below ih.2).trans ih.1, hStep.inGrammar ih.2⟩

/-- A production that is read within itself begins further on. -/
theorem length_lt_of_reentered {production : Production} (h : TransGen (Enters length) outer inner)
    (hOuter : outer.pattern = production) (hInner : inner.pattern = production) :
    inner.text <:+ outer.text ∧ inner.text.length < outer.text.length := by
  obtain ⟨hText, hLower⟩ :=
    below_of_transGen h (hOuter ▸ Pattern.inGrammar_production production)
  rw [hOuter, hInner] at hLower
  exact ⟨hText, hLower.resolve_right (Nat.lt_irrefl _)⟩

/-- The tiers of the layers are in the order of the layers. -/
theorem idxOf_lt_of_tier_lt {kind kind' : Layer}
    (h : (Production.layer kind').tier < (Production.layer kind).tier) :
    Layer.all.idxOf kind < Layer.all.idxOf kind' := by
  revert h
  cases kind <;> cases kind' <;> decide

/-- A layer that is read within a layer begins further on, or else it is tighter. -/
theorem tighter_of_entered {kind kind' : Layer} (h : TransGen (Enters length) outer inner)
    (hOuter : outer.pattern = Production.layer kind) (hInner : inner.pattern = Production.layer kind') :
    inner.text.length < outer.text.length ∨
      inner.text = outer.text ∧ Layer.all.idxOf kind < Layer.all.idxOf kind' := by
  obtain ⟨hText, hLower⟩ := below_of_transGen h (hOuter ▸ Pattern.inGrammar_production _)
  rcases Nat.lt_or_eq_of_le hText.length_le with hLength | hLength
  · exact Or.inl hLength
  · rw [hOuter, hInner, Pattern.rank, Pattern.rank] at hLower
    exact Or.inr ⟨hText.eq_of_length hLength, idxOf_lt_of_tier_lt (by omega)⟩

/-- What a production repeats takes at least one character every time. -/
theorem length_lt_of_repeated {production : Production} {repeated : Pattern}
    (hPart : .many repeated ∈ production.body.parts) {mode : Mode} {text rest : List Char}
    {before after : Ledger} (h : Runs length mode repeated text before (some rest) after) :
    rest <:+ text ∧ rest.length < text.length :=
  ⟨h.isSuffix rest rfl, h.length_lt (Pattern.rank_lt_and_progresses hPart).2 rest rfl⟩

end Within

end Formula.Grammar
