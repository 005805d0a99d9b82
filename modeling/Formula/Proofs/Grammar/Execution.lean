import Mathlib.Data.List.Basic
import Mathlib.Order.Nat
import Formula.Grammar.Parser

/-! The grammar as data. A pattern says what a text may begin with, and a production is a pattern with
a name, by which other patterns refer to it. -/

namespace Formula.Grammar

/-- What a text may begin with. The start and the end of the whole text are patterns without
characters, and so is the absence of another pattern. The repetitions of a pattern that come after its
first one are a pattern of their own, because white space may stand before each of them. -/
inductive Pattern where
  | literal (characters : List Char)
  | character (accepts : Char → Bool)
  | start
  | finish
  | production (production : Production)
  | both (first second : Pattern)
  | either (first second : Pattern)
  | optional (inner : Pattern)
  | many (inner : Pattern)
  | again (inner : Pattern)
  | absent (inner : Pattern)

namespace Pattern

instance : Coe Production Pattern :=
  ⟨production⟩

def sequence (first : Pattern) : List Pattern → Pattern
  | [] => first
  | next :: others => both first (sequence next others)

def choice (first : Pattern) : List Pattern → Pattern
  | [] => first
  | next :: others => either first (choice next others)

def oneOf (first : String) (others : List String) : Pattern :=
  choice (literal first.toList) (others.map fun spelling => literal spelling.toList)

def digits : Pattern :=
  sequence (character Char.isDigit) [many (character Char.isDigit)]

/-- A character that ends a name because an operator or other punctuation is written with it. -/
def symbol : Pattern :=
  oneOf "+" ["-", "*", "×", "/", "÷", "^", "(", ")", ",", "=", ">", "<", "&", "|", "!"]

def except (excluded : Pattern) : Pattern :=
  sequence (absent excluded) [character fun _ => true]

end Pattern

/-- How the parts of a pattern follow each other. White space may stand between them, or they touch. If
they belong to a single word, no production among them is recorded. -/
inductive Spacing where
  | spaced
  | touching
  | word
  deriving DecidableEq

namespace Production

open Pattern

/-- How the parts of a production follow each other, unless that is as where the production stands. -/
def spacing? : Production → Option Spacing
  | negation | factorialOperand | conditional | call => some .touching
  | primary | conditionalArguments | callArguments => some .spaced
  | number | identifier => some .word
  | _ => none

def tighter : Layer → Production
  | .disjunction => layer .conjunction
  | .conjunction => layer .comparison
  | .comparison => layer .additive
  | .additive => layer .multiplicative
  | .multiplicative => layer .exponential
  | .exponential => operand

def link (kind : Layer) : Pattern :=
  sequence (operator kind) [tighter kind]

def links : Layer → Pattern
  | .comparison => optional (link .comparison)
  | kind => many (link kind)

def body : Production → Pattern
  | endOfInput => .finish
  | expression => .sequence .start [choice assignment [layer .disjunction], endOfInput]
  | assignment => .sequence identifier [literal ['='], layer .disjunction]
  | layer kind => .sequence (tighter kind) [links kind]
  | operator .disjunction => oneOf "||" []
  | operator .conjunction => oneOf "&&" []
  | operator .comparison => oneOf ">=" ["<=", "==", ">", "<"]
  | operator .additive => oneOf "+" ["-"]
  | operator .multiplicative => oneOf "*" ["×", "/", "÷"]
  | operator .exponential => oneOf "^" []
  | operand => choice negation [factorialOperand]
  | negation => .sequence (literal ['-']) [factorialOperand]
  | factorialOperand => .sequence primary [optional factorial]
  | factorial => literal ['!']
  | primary => choice conditional [call, var, parenthetical, number]
  | conditional => .sequence (literal ['i', 'f']) [conditionalArguments]
  | conditionalArguments =>
    .sequence (literal ['(']) [layer .disjunction, literal [','], layer .disjunction, literal [','],
      layer .disjunction, closingParenthesis]
  | call => .sequence identifier [callArguments]
  | callArguments =>
    .sequence (literal ['(']) [layer .disjunction,
      optional (.sequence (literal [',']) [layer .disjunction]), closingParenthesis]
  | var => identifier
  | parenthetical => .sequence (literal ['(']) [layer .disjunction, closingParenthesis]
  | closingParenthesis => literal [')']
  | number =>
    .sequence digits [optional (.sequence (literal ['.']) [digits]),
      optional (.sequence (character fun c => c = 'e' ∨ c = 'E') [optional (oneOf "+" ["-"]), digits])]
  | identifier =>
    .sequence (except (choice symbol [character Text.isNumeric, character Text.isBlank]))
      [many (except (choice symbol [character Text.isBlank]))]

end Production

/-! A running record of what was tried in vain, which is kept while a text is read. A production that
failed takes back what was recorded within it, which does the same as to work out the attempts of every
part on their own and to merge them. -/

/-- What is recorded at the place furthest into the text so far, known by the number of characters
after it: the productions that were looked for in vain, and those that were found although they had to
be absent. -/
@[ext]
structure Ledger where
  remaining : Nat
  wanted : List Production
  unwanted : List Production
  deriving DecidableEq

namespace Ledger

variable {ledger : Ledger} {place : Nat} {attempts first second : Attempts} {production : Production}

def blank (length : Nat) : Ledger :=
  ⟨length, [], []⟩

def entries (ledger : Ledger) (place : Nat) : Nat :=
  if ledger.remaining = place then ledger.wanted.length + ledger.unwanted.length else 0

/-- A ledger at the place of another one, without what was added to that one since. -/
def truncate (before after : Ledger) (place : Nat) : Ledger :=
  if before.remaining = place then
    { after with
      wanted := after.wanted.take before.wanted.length
      unwanted := after.unwanted.take before.unwanted.length }
  else { after with wanted := [], unwanted := [] }

def push (ledger : Ledger) (production : Production) (negated : Bool) : Ledger :=
  if negated then { ledger with unwanted := ledger.unwanted ++ [production] }
  else { ledger with wanted := ledger.wanted ++ [production] }

/-- Record a production that was read from a place, given the ledgers before and after. A single new
production that is recorded at the same place already says more. Otherwise the production takes back
whatever was recorded there within it. A place further on than it stays as it is. -/
def record (production : Production) (place : Nat) (negated : Bool) (before after : Ledger) :
    Ledger :=
  if after.entries place = before.entries place + 1 then after
  else if place = after.remaining then (before.truncate after place).push production negated
  else if place < after.remaining then push ⟨place, [], []⟩ production negated
  else after

/-- Add what was tried in vain in a stretch of reading. Only the furthest place counts. -/
def add (ledger : Ledger) : Attempts → Ledger
  | .nothing => ledger
  | .furthest remaining first others =>
    if remaining < ledger.remaining then ⟨remaining, first :: others, []⟩
    else if remaining = ledger.remaining then
      { ledger with wanted := ledger.wanted ++ first :: others }
    else ledger

@[simp]
theorem remaining_truncate (before after : Ledger) (place : Nat) :
    (before.truncate after place).remaining = after.remaining := by
  unfold truncate
  split <;> rfl

@[simp]
theorem remaining_push (ledger : Ledger) (production : Production) (negated : Bool) :
    (ledger.push production negated).remaining = ledger.remaining := by
  cases negated <;> rfl

/-- The furthest place stays the furthest, or else it is where the production starts. -/
theorem remaining_record (production : Production) (place : Nat) (negated : Bool)
    (before after : Ledger) :
    (record production place negated before after).remaining = after.remaining ∨
      (record production place negated before after).remaining = place := by
  unfold record
  split_ifs <;> simp

@[simp]
theorem add_nothing (ledger : Ledger) : ledger.add .nothing = ledger :=
  rfl

/-- Attempts at a place further on replace what was recorded. -/
theorem add_further {others : List Production} (h : place < ledger.remaining) :
    ledger.add (.furthest place production others) = ⟨place, production :: others, []⟩ :=
  if_pos h

/-- Attempts at the same place are put behind what was recorded. -/
theorem add_same (ledger : Ledger) (production : Production) (others : List Production) :
    ledger.add (.furthest ledger.remaining production others) =
      ⟨ledger.remaining, ledger.wanted ++ production :: others, ledger.unwanted⟩ := by
  simp [add]

theorem add_nearer {others : List Production} (h : ledger.remaining < place) :
    ledger.add (.furthest place production others) = ledger := by
  rw [add, if_neg (by omega), if_neg (by omega)]

/-- What the first attempts in a text leave in an empty ledger. -/
theorem blank_add {remaining length : Nat} (h : remaining ≤ length) (first : Production)
    (others : List Production) :
    (blank length).add (.furthest remaining first others) =
      ⟨remaining, first :: others, []⟩ := by
  rcases Nat.lt_or_eq_of_le h with hFurther | rfl
  · exact add_further hFurther
  · exact add_same (.blank remaining) first others

/-- The place is the one further on, with the smaller number of characters after it. -/
@[simp]
theorem remaining_add (ledger : Ledger) (place : Nat) (production : Production)
    (others : List Production) :
    (ledger.add (.furthest place production others)).remaining = min place ledger.remaining := by
  rcases Nat.lt_trichotomy ledger.remaining place with h | rfl | h
  · rw [add_nearer h, Nat.min_eq_right (Nat.le_of_lt h)]
  · rw [add_same, Nat.min_self]
  · rw [add_further h, Nat.min_eq_left (Nat.le_of_lt h)]

/-- Stretches of reading may be merged before they are added. -/
theorem add_merge (ledger : Ledger) (first second : Attempts) :
    ledger.add (first.merge second) = (ledger.add first).add second := by
  cases first with
  | nothing => rfl
  | furthest place production others =>
      cases second with
      | nothing => rfl
      | furthest place' production' others' =>
          let between := ledger.add (.furthest place production others)
          have hBetween : between.remaining = min place ledger.remaining := remaining_add ..
          simp only [Attempts.merge]
          split
          · have hNearer : between.remaining < place' := by omega
            exact (add_nearer hNearer).symm
          split
          · by_cases hNearer : ledger.remaining < place
            · rw [add_nearer hNearer]
            · have hFurther : place' < ledger.remaining := by omega
              have hFurther' : place' < between.remaining := by omega
              exact (add_further hFurther).trans (add_further hFurther').symm
          · obtain rfl : place = place' := by omega
            rcases Nat.lt_trichotomy place ledger.remaining with h | rfl | h
            · rw [add_further h, add_further h]
              simp [add]
            · simp [add]
            · rw [add_nearer h, add_nearer h, add_nearer h]

/-- A place further on than a production is left alone. -/
theorem record_of_lt {before after : Ledger} {negated : Bool} (h : after.remaining < place) :
    record production place negated before after = after := by
  rw [record, if_neg, if_neg (by omega), if_neg (by omega)]
  rw [entries, if_neg (by omega)]
  omega

/-- A production that fails without a trace within it is recorded itself. -/
theorem record_self (ledger : Ledger) (production : Production) (place : Nat) :
    record production place false ledger ledger = ledger.add (.furthest place production []) := by
  rcases Nat.lt_trichotomy ledger.remaining place with hPlace | rfl | hPlace
  · rw [record_of_lt hPlace, add_nearer hPlace]
  · simp [record, truncate, push, add_same]
  · simp [record, push, add_further hPlace, hPlace, Nat.ne_of_lt hPlace]

/-- A production that failed may be recorded after what was tried within it, or stand for that at once,
because nothing within it was tried before the place where it starts. -/
theorem record_add (ledger : Ledger) (production : Production)
    (h : attempts.remaining place ≤ place) :
    record production place false ledger (ledger.add attempts) =
      ledger.add (attempts.within place production) := by
  cases attempts with
  | nothing => exact ledger.record_self production place
  | furthest place' first others =>
      simp only [Attempts.remaining] at h
      by_cases hWithin : place' < place
      · rw [record_of_lt (by rw [remaining_add]; omega), Attempts.within, if_pos (Or.inl hWithin)]
      obtain rfl : place' = place := by omega
      rcases Nat.lt_trichotomy ledger.remaining place' with hPlace | rfl | hPlace
      · rw [add_nearer hPlace, record_of_lt hPlace, Attempts.within]
        split <;> rw [add_nearer hPlace]
      · cases others with
        | nil => simp [Attempts.within, add_same, record, entries, Nat.add_right_comm]
        | cons second others =>
            have hMore : ledger.wanted.length + (others.length + 1 + 1) + ledger.unwanted.length ≠
                ledger.wanted.length + ledger.unwanted.length + 1 := by omega
            simp [Attempts.within, add_same, record, entries, truncate, push, hMore]
      · have hOther : ledger.remaining ≠ place' := Nat.ne_of_gt hPlace
        rw [add_further hPlace]
        cases others with
        | nil => simp [Attempts.within, add_further hPlace, record, entries, hOther]
        | cons second others =>
            simp [Attempts.within, add_further hPlace, record, entries, truncate, push, hOther]

end Ledger

/-! How patterns are read. A pattern fits a text or does not, and in either case something may have been
recorded. Nothing that was recorded is taken back when another alternative is tried. -/

/-- How a pattern is read: how its parts follow each other, and whether it has to be absent. -/
structure Mode where
  spacing : Spacing
  negated : Bool

namespace Mode

def whole : Mode :=
  ⟨.spaced, false⟩

def skip (mode : Mode) (text : List Char) : List Char :=
  match mode.spacing with
  | .spaced => Text.skipBlanks text
  | .touching | .word => text

def within (mode : Mode) (production : Production) : Mode :=
  { mode with spacing := production.spacing?.getD mode.spacing }

def opposite (mode : Mode) : Mode :=
  { mode with negated := !mode.negated }

/-- Whether a production is recorded where it stands. It is not if it belongs to a single word, unless
its own parts follow each other in another way. -/
def records (mode : Mode) (production : Production) : Bool :=
  match production.spacing? with
  | some .spaced | some .touching => true
  | some .word | none => mode.spacing != .word

/-- Only characters at the start of a text are ever skipped. -/
theorem skip_isSuffix (mode : Mode) (text : List Char) : mode.skip text <:+ text := by
  unfold skip
  split
  · exact List.dropWhile_suffix _
  · exact List.suffix_rfl
  · exact List.suffix_rfl

/-- Outside of single words every production is recorded. -/
theorem records_of_ne {mode : Mode} (h : mode.spacing ≠ .word) (production : Production) :
    mode.records production = true := by
  unfold records
  split
  · rfl
  · rfl
  · simpa using h
  · simpa using h

end Mode

def afterCharacter (accepts : Char → Bool) : List Char → Option (List Char)
  | [] => none
  | c :: rest => if accepts c then some rest else none

/-- A pattern is read from a text with a ledger. If it fits, the result is what is left of the text. The
other ledger is what is recorded afterwards. The whole text has the given length. -/
inductive Runs (length : Nat) :
    Mode → Pattern → List Char → Ledger → Option (List Char) → Ledger → Prop where
  | literal (mode : Mode) (characters text : List Char) (ledger : Ledger) :
      Runs length mode (.literal characters) text ledger (characters.isPrefixOf? text) ledger
  | character (mode : Mode) (accepts : Char → Bool) (text : List Char) (ledger : Ledger) :
      Runs length mode (.character accepts) text ledger (afterCharacter accepts text) ledger
  | start (mode : Mode) (text : List Char) (ledger : Ledger) :
      Runs length mode .start text ledger (if text.length = length then some text else none) ledger
  | finish (mode : Mode) (text : List Char) (ledger : Ledger) :
      Runs length mode .finish text ledger (if text = [] then some text else none) ledger
  | production {mode : Mode} {production : Production} {text : List Char} {before after : Ledger}
      {result : Option (List Char)}
      (hBody : Runs length (mode.within production) production.body text before result after) :
      Runs length mode (.production production) text before result
        (if mode.records production ∧ result.isSome = mode.negated then
          Ledger.record production text.length mode.negated before after
        else after)
  | both_fails {mode : Mode} {first second : Pattern} {text : List Char} {before after : Ledger}
      (hFirst : Runs length mode first text before none after) :
      Runs length mode (.both first second) text before none after
  | both {mode : Mode} {first second : Pattern} {text rest : List Char}
      {before between after : Ledger} {result : Option (List Char)}
      (hFirst : Runs length mode first text before (some rest) between)
      (hSecond : Runs length mode second (mode.skip rest) between result after) :
      Runs length mode (.both first second) text before result after
  | either_first {mode : Mode} {first second : Pattern} {text rest : List Char}
      {before after : Ledger} (hFirst : Runs length mode first text before (some rest) after) :
      Runs length mode (.either first second) text before (some rest) after
  | either_second {mode : Mode} {first second : Pattern} {text : List Char}
      {before between after : Ledger} {result : Option (List Char)}
      (hFirst : Runs length mode first text before none between)
      (hSecond : Runs length mode second text between result after) :
      Runs length mode (.either first second) text before result after
  | optional {mode : Mode} {inner : Pattern} {text : List Char} {before after : Ledger}
      {result : Option (List Char)} (hInner : Runs length mode inner text before result after) :
      Runs length mode (.optional inner) text before (some (result.getD text)) after
  | many_done {mode : Mode} {inner : Pattern} {text : List Char} {before after : Ledger}
      (hInner : Runs length mode inner text before none after) :
      Runs length mode (.many inner) text before (some text) after
  | many {mode : Mode} {inner : Pattern} {text rest : List Char} {before between after : Ledger}
      {result : Option (List Char)}
      (hInner : Runs length mode inner text before (some rest) between)
      (hAgain : Runs length mode (.again inner) rest between result after) :
      Runs length mode (.many inner) text before result after
  | again_done {mode : Mode} {inner : Pattern} {text : List Char} {before after : Ledger}
      (hInner : Runs length mode inner (mode.skip text) before none after) :
      Runs length mode (.again inner) text before (some text) after
  | again {mode : Mode} {inner : Pattern} {text rest : List Char} {before between after : Ledger}
      {result : Option (List Char)}
      (hInner : Runs length mode inner (mode.skip text) before (some rest) between)
      (hAgain : Runs length mode (.again inner) rest between result after) :
      Runs length mode (.again inner) text before result after
  | absent {mode : Mode} {inner : Pattern} {text : List Char} {before after : Ledger}
      {result : Option (List Char)}
      (hInner : Runs length mode.opposite inner text before result after) :
      Runs length mode (.absent inner) text before (if result.isSome then none else some text) after

namespace Runs

variable {length : Nat} {mode : Mode} {pattern : Pattern} {text rest : List Char}
  {before after after' : Ledger} {result result' : Option (List Char)}

/-- What is left of a text and what is recorded are determined by the pattern, the text and the ledger
before. -/
theorem unique (h : Runs length mode pattern text before result after)
    (h' : Runs length mode pattern text before result' after') : result = result' ∧ after = after' := by
  induction h generalizing result' after' with
  | literal | character | start | finish =>
      cases h'
      exact ⟨rfl, rfl⟩
  | production _ ih =>
      cases h' with
      | production hBody =>
          obtain ⟨rfl, rfl⟩ := ih hBody
          exact ⟨rfl, rfl⟩
  | both_fails _ ih =>
      cases h' with
      | both_fails hFirst => exact ih hFirst
      | both hFirst => cases (ih hFirst).1
  | both _ _ ihFirst ihSecond =>
      cases h' with
      | both_fails hFirst => cases (ihFirst hFirst).1
      | both hFirst hSecond =>
          obtain ⟨hRest, rfl⟩ := ihFirst hFirst
          cases hRest
          exact ihSecond hSecond
  | either_first _ ih =>
      cases h' with
      | either_first hFirst => exact ih hFirst
      | either_second hFirst => cases (ih hFirst).1
  | either_second _ _ ihFirst ihSecond =>
      cases h' with
      | either_first hFirst => cases (ihFirst hFirst).1
      | either_second hFirst hSecond =>
          obtain ⟨-, rfl⟩ := ihFirst hFirst
          exact ihSecond hSecond
  | optional _ ih | absent _ ih =>
      cases h' with
      | _ hInner =>
          obtain ⟨rfl, rfl⟩ := ih hInner
          exact ⟨rfl, rfl⟩
  | many_done _ ih =>
      cases h' with
      | many_done hInner => exact ⟨rfl, (ih hInner).2⟩
      | many hInner => cases (ih hInner).1
  | again_done _ ih =>
      cases h' with
      | again_done hInner => exact ⟨rfl, (ih hInner).2⟩
      | again hInner => cases (ih hInner).1
  | many _ _ ihInner ihAgain =>
      cases h' with
      | many_done hInner => cases (ihInner hInner).1
      | many hInner hAgain =>
          obtain ⟨hRest, rfl⟩ := ihInner hInner
          cases hRest
          exact ihAgain hAgain
  | again _ _ ihInner ihAgain =>
      cases h' with
      | again_done hInner => cases (ihInner hInner).1
      | again hInner hAgain =>
          obtain ⟨hRest, rfl⟩ := ihInner hInner
          cases hRest
          exact ihAgain hAgain

/-- What is left of a text is what the text ends with. -/
theorem isSuffix (h : Runs length mode pattern text before result after) :
    ∀ rest ∈ result, rest <:+ text := by
  induction h with
  | literal mode characters text =>
      intro rest hRest
      exact ⟨characters, by simpa using hRest⟩
  | character mode accepts text =>
      intro rest hRest
      cases text with
      | nil => cases hRest
      | cons c others =>
          obtain ⟨-, rfl⟩ : accepts c = true ∧ others = rest := by simpa [afterCharacter] using hRest
          exact List.suffix_cons c others
  | start | finish =>
      intro rest hRest
      obtain ⟨-, rfl⟩ : _ ∧ _ = rest := by simpa using hRest
      exact List.suffix_rfl
  | production _ ih | either_first _ ih => exact ih
  | both_fails => exact nofun
  | either_second _ _ _ ih => exact ih
  | both _ _ ihFirst ihSecond =>
      exact fun rest hRest =>
        ((ihSecond rest hRest).trans (Mode.skip_isSuffix ..)).trans (ihFirst _ rfl)
  | @optional _ _ text _ _ result _ ih =>
      rintro rest ⟨⟩
      cases result with
      | none => exact List.suffix_rfl
      | some rest => exact ih rest rfl
  | many_done | again_done =>
      rintro rest ⟨⟩
      exact List.suffix_rfl
  | many _ _ ihInner ihAgain => exact fun rest hRest => (ihAgain rest hRest).trans (ihInner _ rfl)
  | again _ _ ihInner ihAgain =>
      exact fun rest hRest =>
        (ihAgain rest hRest).trans ((ihInner _ rfl).trans (Mode.skip_isSuffix ..))
  | @absent _ _ text _ _ result =>
      intro rest hRest
      obtain ⟨-, rfl⟩ : _ ∧ text = rest := by simpa using hRest
      exact List.suffix_rfl

/-- Nothing is recorded before the place from which a pattern is read. -/
theorem remaining (h : Runs length mode pattern text before result after) :
    after.remaining = before.remaining ∨ after.remaining ≤ text.length := by
  induction h with
  | literal | character | start | finish => exact Or.inl rfl
  | @production mode production text before after _ _ ih =>
      split
      · rcases Ledger.remaining_record production text.length mode.negated before after with h | h
        · rwa [h]
        · exact Or.inr h.le
      · exact ih
  | both_fails _ ih | either_first _ ih | optional _ ih | many_done _ ih | absent _ ih => exact ih
  | again_done _ ih => exact ih.imp_right fun h => h.trans (Mode.skip_isSuffix ..).length_le
  | either_second _ _ ihFirst ihSecond =>
      rcases ihSecond with h | h
      · rwa [h]
      · exact Or.inr h
  | both hFirst _ ihFirst ihSecond =>
      rcases ihSecond with h | h
      · rwa [h]
      · have hRest := (hFirst.isSuffix _ rfl).length_le
        exact Or.inr ((h.trans (Mode.skip_isSuffix ..).length_le).trans hRest)
  | many hInner _ ihInner ihAgain =>
      rcases ihAgain with h | h
      · rwa [h]
      · exact Or.inr (h.trans (hInner.isSuffix _ rfl).length_le)
  | again hInner _ ihInner ihAgain =>
      have hSkip := fun mode text => (Mode.skip_isSuffix mode text).length_le
      rcases ihAgain with h | h
      · rw [h]
        exact ihInner.imp_right fun h => h.trans (hSkip ..)
      · exact Or.inr (h.trans ((hInner.isSuffix _ rfl).length_le.trans (hSkip ..)))

/-- The order in which three patterns are put together does not matter. -/
theorem assoc {first second third : Pattern}
    (h : Runs length mode (.both (.both first second) third) text before result after) :
    Runs length mode (.both first (.both second third)) text before result after := by
  cases h with
  | both_fails hBoth =>
      cases hBoth with
      | both_fails hFirst => exact .both_fails hFirst
      | both hFirst hSecond => exact .both hFirst (.both_fails hSecond)
  | both hBoth hThird =>
      cases hBoth with
      | both hFirst hSecond => exact .both hFirst (.both hSecond hThird)

/-- Where there is no white space to skip, the first repetition is like any other. -/
theorem many_of_again {inner : Pattern} (hText : mode.skip text = text)
    (h : Runs length mode (.again inner) text before result after) :
    Runs length mode (.many inner) text before result after := by
  cases h with
  | again_done hInner => exact .many_done (hText ▸ hInner)
  | again hInner hAgain => exact .many (hText ▸ hInner) hAgain

end Runs

/-- A whole text does not fit, and a ledger is what is recorded when that has been found out. -/
def RejectedWith (text : List Char) (ledger : Ledger) : Prop :=
  Runs text.length .whole (.production .expression) text (.blank text.length) none ledger

theorem RejectedWith.unique {text : List Char} {ledger ledger' : Ledger} (h : RejectedWith text ledger)
    (h' : RejectedWith text ledger') : ledger = ledger' :=
  (Runs.unique h h').2

end Formula.Grammar
