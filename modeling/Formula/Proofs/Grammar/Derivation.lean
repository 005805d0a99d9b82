import Formula.Grammar.Expression

/-! The grammar without any order among its alternatives. A derivation records which productions
were used and how names, numbers and operators were spelled, but not where white space stood. The
texts that it yields are those in which white space stands where the grammar leaves room for it. -/

namespace Formula.Grammar

def Blank (text : List Char) : Prop :=
  ∀ c ∈ text, Text.isBlank c = true

instance (text : List Char) : Decidable (Blank text) :=
  decidable_of_iff (text.all Text.isBlank = true) List.all_eq_true

structure Name where
  first : Char
  others : List Char
  starts : Lexeme.startsName first = true
  continues : ∀ c ∈ others, Lexeme.continuesName c = true

namespace Name

def characters (name : Name) : List Char :=
  name.first :: name.others

def text (name : Name) : String :=
  String.ofList name.characters

end Name

structure Digits where
  characters : List Char
  nonempty : characters ≠ []
  decimal : ∀ c ∈ characters, c.isDigit = true

structure Exponent where
  mark : Char
  sign : Option Char
  digits : Digits
  marks : mark = 'e' ∨ mark = 'E'
  signs : sign = none ∨ sign = some '+' ∨ sign = some '-'

namespace Exponent

def characters (exponent : Exponent) : List Char :=
  exponent.mark :: (exponent.sign.toList ++ exponent.digits.characters)

def value (exponent : Exponent) : Int :=
  if exponent.sign = some '-' then -Int.ofNat (Number.ofDigits exponent.digits.characters)
  else Int.ofNat (Number.ofDigits exponent.digits.characters)

end Exponent

/-- A number as it is spelled. A point is followed by a digit. -/
structure Numeral where
  whole : Digits
  fraction : Option Digits
  exponent : Option Exponent

namespace Numeral

def fractionCharacters : Option Digits → List Char
  | none => []
  | some digits => '.' :: digits.characters

def exponentCharacters : Option Exponent → List Char
  | none => []
  | some exponent => exponent.characters

def characters (numeral : Numeral) : List Char :=
  numeral.whole.characters ++
    (fractionCharacters numeral.fraction ++ exponentCharacters numeral.exponent)

def value (numeral : Numeral) : Float :=
  (Number.Decimal.ofParts numeral.whole.characters
    (numeral.fraction.elim [] Digits.characters) (numeral.exponent.elim 0 Exponent.value)).toFloat

end Numeral

/-- An infix operator of a layer under one of its spellings. -/
structure Spelling (layer : Layer) where
  text : String
  operator : Operator
  listed : (text, operator) ∈ Operator.spellings
  joins : operator.layer = layer

def Spelling.characters {layer : Layer} (spelling : Spelling layer) : List Char :=
  spelling.text.toList

/-- The parts of a text that the grammar names. Layers are listed from the loosest one on, and what
has no layer left is an operand. -/
inductive Phrase where
  | padded
  | layers (layers : List Layer)
  | links (layer : Layer) (tighter : List Layer)
  | factorialOperand
  | primary

abbrev Phrase.expression : Phrase :=
  .layers Layer.all

/-- The ways to derive a phrase. Any production may be used that fits. All layers may repeat their
operators, except that there is at most one comparison. -/
inductive Derivation : Phrase → Type where
  | padded (inner : Derivation .expression) : Derivation .padded
  | chain {layer : Layer} {tighter : List Layer} (first : Derivation (.layers tighter))
      (rest : Derivation (.links layer tighter)) : Derivation (.layers (layer :: tighter))
  | done {layer : Layer} {tighter : List Layer} : Derivation (.links layer tighter)
  | link {layer : Layer} {tighter : List Layer} (repeats : layer ≠ .comparison)
      (spelling : Spelling layer) (item : Derivation (.layers tighter))
      (more : Derivation (.links layer tighter)) : Derivation (.links layer tighter)
  | comparison {tighter : List Layer} (spelling : Spelling .comparison)
      (item : Derivation (.layers tighter)) : Derivation (.links .comparison tighter)
  | operand (inner : Derivation .factorialOperand) : Derivation (.layers [])
  | negation (inner : Derivation .factorialOperand) : Derivation (.layers [])
  | plain (inner : Derivation .primary) : Derivation .factorialOperand
  | factorial (inner : Derivation .primary) : Derivation .factorialOperand
  | conditional (condition whenTrue otherwise : Derivation .padded) : Derivation .primary
  | binaryCall (name : Name) (first second : Derivation .padded) : Derivation .primary
  | unaryCall (name : Name) (argument : Derivation .padded) : Derivation .primary
  | var (name : Name) : Derivation .primary
  | parenthetical (inner : Derivation .padded) : Derivation .primary
  | number (numeral : Numeral) : Derivation .primary

/-- The texts of a derivation. White space may stand around a padded expression and around an infix
operator, and nowhere else. -/
inductive Derivation.Yields : {phrase : Phrase} → Derivation phrase → List Char → Prop where
  | padded {inner : Derivation .expression} {before body after : List Char}
      (hBefore : Blank before) (hInner : Yields inner body) (hAfter : Blank after) :
      Yields (.padded inner) (before ++ body ++ after)
  | chain {layer : Layer} {tighter : List Layer} {first : Derivation (.layers tighter)}
      {rest : Derivation (.links layer tighter)} {head tail : List Char}
      (hFirst : Yields first head) (hRest : Yields rest tail) :
      Yields (.chain first rest) (head ++ tail)
  | done {layer : Layer} {tighter : List Layer} :
      Yields (.done : Derivation (.links layer tighter)) []
  | link {layer : Layer} {tighter : List Layer} {repeats : layer ≠ .comparison}
      {spelling : Spelling layer} {item : Derivation (.layers tighter)}
      {more : Derivation (.links layer tighter)} {before after body tail : List Char}
      (hBefore : Blank before) (hAfter : Blank after) (hItem : Yields item body)
      (hMore : Yields more tail) :
      Yields (.link repeats spelling item more)
        (before ++ (spelling.characters ++ (after ++ (body ++ tail))))
  | comparison {tighter : List Layer} {spelling : Spelling .comparison}
      {item : Derivation (.layers tighter)} {before after body : List Char}
      (hBefore : Blank before) (hAfter : Blank after) (hItem : Yields item body) :
      Yields (.comparison spelling item) (before ++ (spelling.characters ++ (after ++ body)))
  | operand {inner : Derivation .factorialOperand} {body : List Char} (hInner : Yields inner body) :
      Yields (.operand inner) body
  | negation {inner : Derivation .factorialOperand} {body : List Char}
      (hInner : Yields inner body) : Yields (.negation inner) ('-' :: body)
  | plain {inner : Derivation .primary} {body : List Char} (hInner : Yields inner body) :
      Yields (.plain inner) body
  | factorial {inner : Derivation .primary} {body : List Char} (hInner : Yields inner body) :
      Yields (.factorial inner) (body ++ ['!'])
  | conditional {condition whenTrue otherwise : Derivation .padded} {first second third : List Char}
      (hCondition : Yields condition first) (hWhenTrue : Yields whenTrue second)
      (hOtherwise : Yields otherwise third) :
      Yields (.conditional condition whenTrue otherwise)
        ('i' :: 'f' :: '(' :: (first ++ ',' :: (second ++ ',' :: (third ++ [')']))))
  | binaryCall {name : Name} {first second : Derivation .padded} {head tail : List Char}
      (hFirst : Yields first head) (hSecond : Yields second tail) :
      Yields (.binaryCall name first second)
        (name.characters ++ '(' :: (head ++ ',' :: (tail ++ [')'])))
  | unaryCall {name : Name} {argument : Derivation .padded} {body : List Char}
      (hArgument : Yields argument body) :
      Yields (.unaryCall name argument) (name.characters ++ '(' :: (body ++ [')']))
  | var (name : Name) : Yields (.var name) name.characters
  | parenthetical {inner : Derivation .padded} {body : List Char} (hInner : Yields inner body) :
      Yields (.parenthetical inner) ('(' :: (body ++ [')']))
  | number (numeral : Numeral) : Yields (.number numeral) numeral.characters

/-- The ways to derive a whole text: an assignment of an expression to a name, or an expression. -/
inductive Sentence where
  | assignment (name : Name) (body : Derivation .padded)
  | expression (body : Derivation .padded)

inductive Sentence.Yields : Sentence → List Char → Prop where
  | assignment {name : Name} {body : Derivation .padded} {before after text : List Char}
      (hBefore : Blank before) (hAfter : Blank after) (hBody : body.Yields text) :
      Yields (.assignment name body) (before ++ (name.characters ++ (after ++ '=' :: text)))
  | expression {body : Derivation .padded} {text : List Char} (hBody : body.Yields text) :
      Yields (.expression body) text

end Formula.Grammar
