import Formula.Proofs.Grammar.Completeness
import Formula.Proofs.Number.Text
import Formula.Term.Equality

/-! The text of a term tells which term it is, apart from the functions of its calls. -/

namespace Formula.Term

open Grammar

/-- A text without the parentheses and commas of calls. -/
def IsWord (text : List Char) : Prop :=
  ∀ c ∈ text, c ∉ ['(', ')', ',']

/-- The names of a term have no parentheses and commas in them, its variables are not spelled like
numbers, and its constants are numbers. -/
def Legible : Term → Prop
  | constant value => value.isNaN = false
  | var name =>
    IsWord name.toList ∧ (∀ c ∈ name.toList.head?, c.isDigit = false ∧ c ≠ '-') ∧ name ≠ "inf"
  | unaryCall _ name argument => IsWord name.toList ∧ argument.Legible
  | binaryCall _ name first second => IsWord name.toList ∧ first.Legible ∧ second.Legible
  | conditional condition whenTrue otherwise =>
    condition.Legible ∧ whenTrue.Legible ∧ otherwise.Legible

/-- Two terms of the same shape with the same names and, bit for bit, the same constants. Their
calls may have different functions, or have none. -/
inductive SameUpToFunctions : Term → Term → Prop where
  | constant {x y : Float} (h : x.toBits = y.toBits) :
      SameUpToFunctions (constant x) (constant y)
  | var (name : String) : SameUpToFunctions (var name) (var name)
  | unaryCall (function function' : Option UnaryFunction) (name : String)
      {argument argument' : Term} (h : SameUpToFunctions argument argument') :
      SameUpToFunctions (unaryCall function name argument) (unaryCall function' name argument')
  | binaryCall (function function' : Option BinaryFunction) (name : String)
      {first first' second second' : Term} (hFirst : SameUpToFunctions first first')
      (hSecond : SameUpToFunctions second second') :
      SameUpToFunctions (binaryCall function name first second)
        (binaryCall function' name first' second')
  | conditional {condition condition' whenTrue whenTrue' otherwise otherwise' : Term}
      (hCondition : SameUpToFunctions condition condition')
      (hWhenTrue : SameUpToFunctions whenTrue whenTrue')
      (hOtherwise : SameUpToFunctions otherwise otherwise') :
      SameUpToFunctions (conditional condition whenTrue otherwise)
        (conditional condition' whenTrue' otherwise')

/-- Functions are not written, only their names. -/
theorem SameUpToFunctions.written_eq {first second : Term} (h : SameUpToFunctions first second) :
    first.written = second.written := by
  induction h with
  | @constant x y hBits =>
      obtain rfl := Number.eq_of_toBits_eq hBits
      rfl
  | var name => rfl
  | unaryCall _ _ name _ ih => rw [written, written, ih]
  | binaryCall _ _ name _ _ ihFirst ihSecond => rw [written, written, ihFirst, ihSecond]
  | conditional _ _ _ ihCondition ihWhenTrue ihOtherwise =>
      rw [written, written, ihCondition, ihWhenTrue, ihOtherwise]

/-! ### Words and arguments -/

def EndsWord (rest : List Char) : Prop :=
  ∀ c ∈ rest.head?, c ∈ ['(', ')', ',']

/-- A word ends where the first parenthesis or comma stands. -/
theorem IsWord.append_cancel {word word' rest rest' : List Char} (hWord : IsWord word)
    (hWord' : IsWord word') (hRest : EndsWord rest) (hRest' : EndsWord rest')
    (h : word ++ rest = word' ++ rest') : word = word' ∧ rest = rest' := by
  have hTake {text after : List Char} (hText : IsWord text) (hAfter : EndsWord after) :
      (text ++ after).takeWhile (fun c => (['(', ')', ','].contains c).not) = text := by
    apply takeWhile_append_stop
    · intro c hMem
      simpa only [Bool.not_eq_true', ← Bool.not_eq_true, List.contains_iff_mem] using hText c hMem
    · intro c hHead
      simpa only [Bool.not_eq_false', List.contains_iff_mem] using hAfter c hHead
  have hSame : word = word' := by rw [← hTake hWord hRest, h, hTake hWord' hRest']
  exact ⟨hSame, List.append_cancel_left (hSame ▸ h)⟩

def word : Term → List Char
  | constant value => (Number.text value).toList
  | var name | unaryCall _ name _ | binaryCall _ name _ _ => name.toList
  | conditional _ _ _ => ['i', 'f']

def operands : Term → List Term
  | constant _ | var _ => []
  | unaryCall _ _ argument => [argument]
  | binaryCall _ _ first second => [first, second]
  | conditional condition whenTrue otherwise => [condition, whenTrue, otherwise]

/-- The text of a row of operands, up to the parenthesis that closes it. -/
def writtenOperands : List Term → List Char
  | [] => [')']
  | [last] => last.written ++ [')']
  | operand :: others => operand.written ++ ',' :: ' ' :: writtenOperands others

def arguments (term : Term) : List Char :=
  if term.operands.isEmpty then [] else '(' :: writtenOperands term.operands

/-- A term is written as a word and its arguments, if it has any. -/
theorem written_eq (term : Term) : term.written = term.word ++ term.arguments := by
  cases term <;> simp [written, word, arguments, operands, writtenOperands]

namespace Legible

variable {term : Term}

/-- No name or number in a legible term has a parenthesis or a comma in it. -/
theorem isWord_word (h : term.Legible) : IsWord term.word := by
  cases term with
  | constant value => exact (Number.spells_text h).not_mem
  | var | unaryCall | binaryCall => exact h.1
  | conditional => simp [word, IsWord]

theorem operands (h : term.Legible) : ∀ operand ∈ term.operands, operand.Legible := by
  cases term with
  | constant | var => simp [Term.operands]
  | unaryCall | binaryCall => simpa [Term.operands] using h.2
  | conditional => simpa [Term.operands, Legible] using h

/-- No number is spelled like a variable. -/
theorem text_ne {x : Float} {name : String} (hConstant : (constant x).Legible)
    (hVar : (var name).Legible) : Number.text x ≠ name := by
  rintro rfl
  obtain ⟨_, hStart, hInf⟩ := hVar
  rcases (Number.spells_text hConstant).exists_cons with hWord | ⟨c, others, hCharacters, hOther⟩
  · exact hInf (String.toList_inj.mp hWord)
  · obtain ⟨hDigit, hMinus⟩ := hStart c (by rw [hCharacters]; rfl)
    rcases hOther with hIsDigit | rfl
    · simp [hDigit] at hIsDigit
    · exact hMinus rfl

end Legible

/-! ### Unique readability -/

variable {first second : Term} {rest rest' : List Char}

theorem endsWord_arguments (term : Term) (h : Closes rest) : EndsWord (term.arguments ++ rest) := by
  intro c hHead
  unfold arguments at hHead
  split at hHead
  · rcases h c hHead with rfl | rfl <;> simp
  · obtain rfl : '(' = c := by simpa using hHead
    simp

theorem not_closes_opening (text : List Char) : ¬ Closes ('(' :: text) := by
  simp [Closes]

/-- Where a text begins with a term, it begins with no other one, and its rest is determined as
well. -/
def Determined (first : Term) : Prop :=
  ∀ (second : Term) (rest rest' : List Char), second.Legible → Closes rest → Closes rest' →
    first.written ++ rest = second.written ++ rest' →
      SameUpToFunctions first second ∧ rest = rest'

/-- After each operand a comma or a parenthesis says whether there is another one. -/
theorem writtenOperands_cancel {operand operand' : Term} {others others' : List Term}
    (hOperands : ∀ term ∈ operand :: others, term.Determined)
    (hLegible : ∀ term ∈ operand' :: others', term.Legible)
    (h : writtenOperands (operand :: others) ++ rest =
      writtenOperands (operand' :: others') ++ rest') :
    List.Forall₂ SameUpToFunctions (operand :: others) (operand' :: others') ∧ rest = rest' := by
  induction others generalizing operand operand' others' with
  | nil =>
      obtain ⟨hOperand, -⟩ := List.forall_mem_cons.mp hOperands
      obtain ⟨hOperand', -⟩ := List.forall_mem_cons.mp hLegible
      cases others' with
      | nil =>
          simp only [writtenOperands, List.append_assoc, List.singleton_append] at h
          obtain ⟨hSame, hRests⟩ := hOperand _ _ _ hOperand' (closes_closing _) (closes_closing _) h
          exact ⟨.cons hSame .nil, List.tail_eq_of_cons_eq hRests⟩
      | cons next others' =>
          simp only [writtenOperands, List.append_assoc, List.cons_append] at h
          have hRests := (hOperand _ _ _ hOperand' (closes_closing _) (closes_comma _) h).2
          simp at hRests
  | cons next others ih =>
      obtain ⟨hOperand, hNext⟩ := List.forall_mem_cons.mp hOperands
      obtain ⟨hOperand', hNext'⟩ := List.forall_mem_cons.mp hLegible
      cases others' with
      | nil =>
          simp only [writtenOperands, List.append_assoc, List.cons_append] at h
          have hRests := (hOperand _ _ _ hOperand' (closes_comma _) (closes_closing _) h).2
          simp at hRests
      | cons next' others' =>
          simp only [writtenOperands, List.append_assoc, List.cons_append] at h
          obtain ⟨hSame, hRests⟩ := hOperand _ _ _ hOperand' (closes_comma _) (closes_comma _) h
          simp only [List.cons.injEq, true_and] at hRests
          obtain ⟨hOthers, hRest⟩ := ih hNext hNext' hRests
          exact ⟨.cons hSame hOthers, hRest⟩

/-- A term without operands does not begin like one with operands. -/
theorem arguments_cancel (hOperands : ∀ term ∈ first.operands, term.Determined)
    (hSecond : second.Legible) (hRest : Closes rest) (hRest' : Closes rest')
    (h : first.arguments ++ rest = second.arguments ++ rest') :
    List.Forall₂ SameUpToFunctions first.operands second.operands ∧ rest = rest' := by
  have hLegible := hSecond.operands
  unfold arguments at h
  generalize first.operands = terms, second.operands = terms' at hOperands hLegible h ⊢
  cases terms with
  | nil =>
      cases terms' with
      | nil => exact ⟨.nil, h⟩
      | cons operand' others' =>
          obtain rfl : rest = '(' :: _ := h
          exact absurd hRest (not_closes_opening _)
  | cons operand others =>
      cases terms' with
      | nil =>
          obtain rfl : rest' = '(' :: _ := h.symm
          exact absurd hRest' (not_closes_opening _)
      | cons operand' others' =>
          exact writtenOperands_cancel hOperands hLegible (List.tail_eq_of_cons_eq h)

/-- The number of operands tells the different calls apart, and no call from a number or a variable.
-/
theorem SameUpToFunctions.of_word (hFirst : first.Legible) (hSecond : second.Legible)
    (hWord : first.word = second.word)
    (h : List.Forall₂ SameUpToFunctions first.operands second.operands) :
    SameUpToFunctions first second := by
  cases first with
  | constant x =>
      cases second with
      | constant y =>
          obtain rfl := Number.text_inj hFirst hSecond (String.toList_inj.mp hWord)
          exact .constant rfl
      | var name => exact absurd (String.toList_inj.mp hWord) (hFirst.text_ne hSecond)
      | unaryCall | binaryCall | conditional => cases h
  | var name =>
      cases second with
      | constant y => exact absurd (String.toList_inj.mp hWord.symm) (hSecond.text_ne hFirst)
      | var name' =>
          obtain rfl := String.toList_inj.mp hWord
          exact .var name
      | unaryCall | binaryCall | conditional => cases h
  | unaryCall function name argument =>
      cases second with
      | constant | var | binaryCall | conditional => simp [operands] at h
      | unaryCall function' name' argument' =>
          obtain rfl := String.toList_inj.mp hWord
          simp only [operands, List.forall₂_cons, List.forall₂_nil_left_iff, and_true] at h
          exact .unaryCall _ _ _ h
  | binaryCall function name argument further =>
      cases second with
      | constant | var | unaryCall | conditional => simp [operands] at h
      | binaryCall function' name' argument' further' =>
          obtain rfl := String.toList_inj.mp hWord
          simp only [operands, List.forall₂_cons, List.forall₂_nil_left_iff, and_true] at h
          exact .binaryCall _ _ _ h.1 h.2
  | conditional condition whenTrue otherwise =>
      cases second with
      | constant | var | unaryCall | binaryCall => simp [operands] at h
      | conditional condition' whenTrue' otherwise' =>
          simp only [operands, List.forall₂_cons, List.forall₂_nil_left_iff, and_true] at h
          exact .conditional h.1 h.2.1 h.2.2

/-- The step of the induction: word, number of arguments, and then the arguments in turn. -/
theorem Legible.determined_of_operands (hFirst : first.Legible)
    (h : ∀ term ∈ first.operands, term.Determined) : first.Determined := by
  intro second rest rest' hSecond hRest hRest' hText
  rw [written_eq, written_eq, List.append_assoc, List.append_assoc] at hText
  obtain ⟨hWord, hArguments⟩ := hFirst.isWord_word.append_cancel hSecond.isWord_word
    (endsWord_arguments first hRest) (endsWord_arguments second hRest') hText
  obtain ⟨hSame, hRests⟩ := arguments_cancel h hSecond hRest hRest' hArguments
  exact ⟨.of_word hFirst hSecond hWord hSame, hRests⟩

/-- By induction on the term. What it is written as is written by no term that differs in more than
functions. -/
theorem Legible.determined (h : first.Legible) : first.Determined := by
  induction first with
  | constant | var => exact h.determined_of_operands (by simp [Term.operands])
  | unaryCall function name argument ih =>
      have hArgument : argument.Determined := ih h.2
      exact h.determined_of_operands (by simpa [Term.operands] using hArgument)
  | binaryCall function name first second ihFirst ihSecond =>
      have hFirst : first.Determined := ihFirst h.2.1
      have hSecond : second.Determined := ihSecond h.2.2
      exact h.determined_of_operands (by simpa [Term.operands] using ⟨hFirst, hSecond⟩)
  | conditional condition whenTrue otherwise ihCondition ihWhenTrue ihOtherwise =>
      have hCondition : condition.Determined := ihCondition h.1
      have hWhenTrue : whenTrue.Determined := ihWhenTrue h.2.1
      have hOtherwise : otherwise.Determined := ihOtherwise h.2.2
      exact h.determined_of_operands
        (by simpa [Term.operands] using ⟨hCondition, hWhenTrue, hOtherwise⟩)

/-- The text of a term determines the term up to the functions of its calls. Names need not be those
of the grammar, and may be empty or have white space in them. -/
theorem text_eq_iff_sameUpToFunctions (hFirst : first.Legible) (hSecond : second.Legible) :
    first.text = second.text ↔ SameUpToFunctions first second := by
  constructor
  · intro h
    have hWritten : first.written ++ [] = second.written ++ [] :=
      congrArg (· ++ []) (String.ofList_injective h)
    exact (hFirst.determined _ _ _ hSecond closes_nil closes_nil hWritten).1
  · intro h
    rw [text, text, h.written_eq]

theorem text_eq_iff_sameUpToFunctions_sum :
    let resolved := unaryCall none "f" (binaryCall (some (· + ·)) "+" (constant 1.0) (var "x"))
    let unresolved := unaryCall none "f" (binaryCall none "+" (constant 1.0) (var "x"))
    resolved.Legible ∧ unresolved.Legible ∧ resolved.text = unresolved.text ∧
      SameUpToFunctions resolved unresolved := by
  intro resolved unresolved
  have hOne : Float.isNaN 1.0 = false := by decide
  have hVar : (var "x").Legible := ⟨by simp [IsWord], by simp, by simp⟩
  have hResolved : resolved.Legible := ⟨by simp [IsWord], by simp [IsWord], hOne, hVar⟩
  have hUnresolved : unresolved.Legible := ⟨by simp [IsWord], by simp [IsWord], hOne, hVar⟩
  have hText : resolved.text = unresolved.text := rfl
  exact ⟨hResolved, hUnresolved, hText,
    (text_eq_iff_sameUpToFunctions hResolved hUnresolved).mp hText⟩

end Formula.Term
