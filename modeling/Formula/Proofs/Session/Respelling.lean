import Formula.Proofs.Grammar.Respelling
import Formula.Proofs.Grammar.Spacing
import Formula.Proofs.Session.Recognition

/-! Texts put together from expressions. A session makes their terms from those of the parts. -/

namespace Formula.Session

open Grammar

variable {session : Session} {text other : String} {term : Term} {sentence : Sentence}

/-- A text is an expression, and a session makes the given term of it. -/
def Understands (session : Session) (text : String) (term : Term) : Prop :=
  IsExpression text ∧ ∃ made, (session.parse text).2.answer = .ok made ∧ made.term = term

/-- A session understands a text as a term if the grammar spells an expression so that resolves to the
term. -/
theorem Coherent.understands_iff (h : session.Coherent) : session.Understands text term ↔
    ∃ expr, Phrase.padded.Spells text.toList expr ∧ expr.resolve session.scope = term := by
  constructor
  · rintro ⟨hText, made, hMade, rfl⟩
    obtain ⟨body, hBody⟩ := isExpression_iff.mp hText
    obtain rfl := Except.ok.inj (hMade.symm.trans (h.parse_of_body hBody))
    exact ⟨_, ⟨body, hBody, rfl⟩, rfl⟩
  · rintro ⟨_, ⟨body, hBody, rfl⟩, rfl⟩
    exact ⟨isExpression_iff.mpr ⟨body, hBody⟩, _, h.parse_of_body hBody, rfl⟩

/-- Every spelling of an operator belongs to the layer of the operator. -/
theorem exists_spelling_of_ofSpelling? {spelled : String} {operator : Operator}
    (h : Operator.ofSpelling? spelled = some operator) :
    ∃ (layer : Layer) (spelling : Spelling layer), spelling.characters = spelled.toList ∧
      spelling.operator = operator := by
  obtain ⟨before, after, hSpellings, _⟩ := List.lookup_eq_some_iff.mp h
  exact ⟨operator.layer, ⟨spelled, operator, by simp [hSpellings], rfl⟩, rfl, rfl⟩

/-- Expressions in parentheses, as operands, as arguments and as branches are understood as they are
by themselves. -/
theorem understands_composed (table : SymbolTable) (capacity : Nat) (calls : List Call)
    {t₁ t₂ t₃ : String} {T₁ T₂ T₃ : Term} :
    let session := (new table capacity).after calls
    session.Understands t₁ T₁ → session.Understands t₂ T₂ → session.Understands t₃ T₃ →
      session.Understands ("(" ++ t₁ ++ ")") T₁ ∧
      (∀ spelled operator before after, Operator.ofSpelling? spelled = some operator →
        Blank before.toList → Blank after.toList →
        session.Understands ("(" ++ t₁ ++ ")" ++ before ++ spelled ++ after ++ "(" ++ t₂ ++ ")")
          (.reduceOperation operator T₁ T₂)) ∧
      session.Understands ("-(" ++ t₁ ++ ")") (.reduceOperation .multiply (.constant (-1.0)) T₁) ∧
      session.Understands ("(" ++ t₁ ++ ")!") (.reduceUnary (session.scope.unary? "!") "!" T₁) ∧
      (∀ name, IsIdentifier name →
        session.Understands (name ++ "(" ++ t₁ ++ ")")
          (.reduceUnary (session.scope.unary? name) name T₁) ∧
        session.Understands (name ++ "(" ++ t₁ ++ "," ++ t₂ ++ ")")
          (.reduceBinary (session.scope.binary? name) name T₁ T₂)) ∧
      session.Understands ("if(" ++ t₁ ++ "," ++ t₂ ++ "," ++ t₃ ++ ")")
        (.reduceConditional T₁ T₂ T₃) := by
  intro session h₁ h₂ h₃
  have hCoherent : session.Coherent := coherent_after table capacity calls
  obtain ⟨e₁, hFirst, rfl⟩ := hCoherent.understands_iff.mp h₁
  obtain ⟨e₂, hSecond, rfl⟩ := hCoherent.understands_iff.mp h₂
  obtain ⟨e₃, hThird, rfl⟩ := hCoherent.understands_iff.mp h₃
  refine ⟨?_, ?_, ?_, ?_, ?_, ?_⟩
  · have hInner := hFirst.parenthetical.plain.operand.whole
    exact hCoherent.understands_iff.mpr ⟨e₁, by simpa using hInner, rfl⟩
  · intro spelled operator before after hSpelled hBefore hAfter
    obtain ⟨layer, spelling, hCharacters, rfl⟩ := exists_spelling_of_ofSpelling? hSpelled
    have hOperation := Phrase.Spells.operation spelling hFirst.parenthetical.plain.operand
      hSecond.parenthetical.plain.operand hBefore hAfter (mem_all_layers layer)
    exact hCoherent.understands_iff.mpr ⟨.operation spelling.operator e₁ e₂,
      by simpa [hCharacters] using hOperation.padded, rfl⟩
  · have hNegation := hFirst.parenthetical.plain.negation.whole
    exact hCoherent.understands_iff.mpr ⟨.negated e₁, by simpa using hNegation, rfl⟩
  · have hFactorial := hFirst.parenthetical.factorial.operand.whole
    exact hCoherent.understands_iff.mpr ⟨.withFactorial e₁, by simpa using hFactorial, rfl⟩
  · intro name hName
    obtain ⟨name, hSpelled, rfl⟩ := hName.exists_name
    have hUnary := (hFirst.unaryCall name).plain.operand.whole
    have hBinary := (hFirst.binaryCall hSecond name).plain.operand.whole
    exact ⟨hCoherent.understands_iff.mpr
        ⟨.unary name.text e₁, by simpa [hSpelled] using hUnary, rfl⟩,
      hCoherent.understands_iff.mpr
        ⟨.binary name.text e₁ e₂, by simpa [hSpelled] using hBinary, rfl⟩⟩
  · have hConditional := (hFirst.conditional hSecond hThird).plain.operand.whole
    exact hCoherent.understands_iff.mpr ⟨.conditional e₁ e₂ e₃, by simpa using hConditional, rfl⟩

/-- With two arguments `if` is the name of a call, and with three it is a conditional. -/
theorem understands_composed_if :
    let session := new .empty 1
    session.Understands "x" (.var "x") ∧ session.Understands " y " (.var "y") ∧
      session.Understands "z" (.var "z") ∧ IsIdentifier "if" ∧
      session.Understands ("if" ++ "(" ++ "x" ++ "," ++ " y " ++ ")")
        (.reduceBinary (session.scope.binary? "if") "if" (.var "x") (.var "y")) ∧
      session.Understands ("if(" ++ "x" ++ "," ++ " y " ++ "," ++ "z" ++ ")")
        (.reduceConditional (.var "x") (.var "y") (.var "z")) := by
  intro session
  have hFirst : session.Understands "x" (.var "x") := ⟨⟨_, rfl⟩, _, rfl, rfl⟩
  have hSecond : session.Understands " y " (.var "y") := ⟨⟨_, rfl⟩, _, rfl, rfl⟩
  have hThird : session.Understands "z" (.var "z") := ⟨⟨_, rfl⟩, _, rfl, rfl⟩
  have hName : IsIdentifier "if" := rfl
  obtain ⟨_, _, _, _, hCalls, hConditional⟩ :=
    understands_composed .empty 1 [] hFirst hSecond hThird
  exact ⟨hFirst, hSecond, hThird, hName, (hCalls "if" hName).2, hConditional⟩

/-! White space in the texts that a session accepts. It may be taken out altogether, and more of it may
be put wherever the grammar leaves room, without any difference to what the text means. -/

/-- Two texts are accepted as the same kind of sentence, with the same answer and the same effect on
the symbols. -/
structure SameMeaning (session : Session) (text other : String) : Prop where
  expression : IsExpression text ↔ IsExpression other
  assignment : IsAssignment text ↔ IsAssignment other
  answer : ∃ made, (session.parse text).2.answer = .ok made ∧
    (session.parse other).2.answer = .ok made
  symbols : (session.parse text).1.symbols = (session.parse other).1.symbols

/-- Texts of one sentence have the same meaning. -/
theorem Coherent.sameMeaning (h : session.Coherent) (hText : sentence.Yields text.toList)
    (hOther : sentence.Yields other.toList) : session.SameMeaning text other := by
  obtain ⟨hSymbols, hAnswer⟩ := h.parse_of_yields hText
  obtain ⟨hSymbols', hAnswer'⟩ := h.parse_of_yields hOther
  have hAnswers : ∃ made, (session.parse text).2.answer = .ok made ∧
      (session.parse other).2.answer = .ok made := ⟨_, hAnswer, hAnswer'⟩
  have hSame := hSymbols.trans hSymbols'.symm
  cases sentence with
  | assignment name body =>
      have hFirst : IsAssignment text := hText.isAssignment
      have hSecond : IsAssignment other := hOther.isAssignment
      exact ⟨iff_of_false (·.not_isAssignment hFirst) (·.not_isAssignment hSecond),
        iff_of_true hFirst hSecond, hAnswers, hSame⟩
  | expression body =>
      have hFirst : IsExpression text := hText.isExpression
      have hSecond : IsExpression other := hOther.isExpression
      exact ⟨iff_of_true hFirst hSecond,
        iff_of_false hFirst.not_isAssignment hSecond.not_isAssignment, hAnswers, hSame⟩

theorem exists_yields_of_accepted (h : IsExpression text ∨ IsAssignment text) :
    ∃ sentence : Sentence, sentence.Yields text.toList := by
  rcases h with ⟨_, hRead⟩ | ⟨_, _, hRead⟩
  · exact read_isOk_iff.mp ⟨_, hRead⟩
  · exact read_isOk_iff.mp ⟨_, hRead⟩

/-- An accepted text keeps its meaning if all its white space is deleted, and if white space is put
into it where there is room. In particular there is room around each of its infix operators, which all
have their places in the text. -/
theorem sameMeaning_respaced (table : SymbolTable) (capacity : Nat) (calls : List Call)
    {text : String} (hText : IsExpression text ∨ IsAssignment text) :
    let session := (new table capacity).after calls
    session.SameMeaning text (String.ofList (withoutBlanks text.toList)) ∧
      ∃ sentence : Sentence, sentence.Yields text.toList ∧
        (∀ {layer} (spelling : Spelling layer) earlier later,
          sentence.pieces = earlier ++ .operator spelling :: later → ∃ front back : String,
            text = front ++ spelling.text ++ back ∧ withoutBlanks front.toList = spell earlier) ∧
        ∀ front blanks back : String, text = front ++ back →
          sentence.RoomAt front.toList back.toList → Blank blanks.toList →
            session.SameMeaning text (front ++ blanks ++ back) := by
  intro session
  have hCoherent : session.Coherent := coherent_after table capacity calls
  obtain ⟨sentence, hYields⟩ := exists_yields_of_accepted hText
  refine ⟨hCoherent.sameMeaning hYields (by simpa using hYields.withoutBlanks), sentence, hYields,
    ?_, ?_⟩
  · intro layer spelling earlier later hPieces
    have hLayout := Sentence.yields_iff_layout.mp hYields
    rw [hPieces] at hLayout
    obtain ⟨front, back, hSplit, hFront⟩ := hLayout.exists_place
    refine ⟨String.ofList front, String.ofList back, ?_, by simpa using hFront⟩
    rw [← String.toList_inj, hSplit]
    simp [Piece.characters, Spelling.characters]
  · rintro front blanks back rfl hRoom hBlanks
    rw [String.toList_append] at hYields
    exact hCoherent.sameMeaning (by simpa using hYields)
      (by simpa using hYields.insert_blank hRoom hBlanks)

/-- Of two signs in a row only the first one is an operator. -/
theorem sameMeaning_respaced_negation :
    let text := "x - -y"
    (IsExpression text ∨ IsAssignment text) ∧ (new .empty 1).SameMeaning text "x--y" ∧
      (new .empty 1).SameMeaning text "x -\n -y" := by
  intro text
  let x : Name := ⟨'x', [], by decide, by simp⟩
  let y : Name := ⟨'y', [], by decide, by simp⟩
  let minus : Spelling .additive := ⟨"-", .subtract, by decide, rfl⟩
  let left : Derivation (.layers []) := .operand (.plain (.var x))
  let right : Derivation (.layers []) := .negation (.plain (.var y))
  let difference : Derivation (.layers [.additive, .multiplicative, .exponential]) :=
    .chain (.chain (.chain left .done) .done)
      (.link (by decide) minus (.chain (.chain right .done) .done) .done)
  let body : Derivation .padded := .padded (.chain (.chain (.chain difference .done) .done) .done)
  let sentence : Sentence := .expression body
  have hPieces : sentence.pieces = [.name x] ++ .operator minus :: [.minus, .name y] := rfl
  have hYields : sentence.Yields text.toList := by
    have hLeft : Layout true [.name x] true ['x'] := layout_spell ..
    have hRight : Layout true [.minus, .name y] true ['-', 'y'] := layout_spell ..
    have hBlank : Blank [' '] := by decide
    rw [Sentence.yields_iff_layout, hPieces]
    exact layout_append_cons_iff.mpr
      ⟨_, _, by decide, hLeft.append_blank hBlank, hRight.blank_append hBlank⟩
  have hText : IsExpression text ∨ IsAssignment text := .inl hYields.isExpression
  obtain ⟨hDeleted, found, hFound, _, hInserted⟩ := sameMeaning_respaced .empty 1 [] hText
  obtain rfl := hFound.unique hYields
  have hCompact : String.ofList (withoutBlanks text.toList) = "x--y" := by decide
  have hRoom : sentence.RoomAt "x -".toList " -y".toList := by
    rw [show "x -".toList = ['x', ' '] ++ minus.characters by decide]
    exact .afterOperator ⟨[.name x], _, hPieces, rfl⟩
  exact ⟨hText, hCompact ▸ hDeleted, hInserted "x -" "\n" " -y" rfl hRoom (by decide)⟩

end Formula.Session

/-! The spelling of the signs of multiplication and division in the texts of a session. It shows in
no answer, and in no place or reason of a rejection. -/

namespace Formula

open Grammar

namespace Grammar

/-- No name has a sign of multiplication or division in it. -/
theorem Name.not_mem_of_mem_signs (name : Name) {sign : Char} (h : sign ∈ signs) :
    sign ∉ name.text.toList := by
  intro hMem
  have hContinues := name.continues_characters sign (by simpa [Name.text] using hMem)
  simp [continuesName_of_mem_signs sign h] at hContinues

theorem SameRead.isExpression_iff {text text' : String} (h : SameRead (read text) (read text')) :
    IsExpression text ↔ IsExpression text' := by
  rw [IsExpression, IsExpression]
  generalize read text = found, read text' = found' at h ⊢
  cases h with
  | ok hAlike => cases hAlike <;> simp
  | error => simp

theorem SameRead.isAssignment_iff {text text' : String} (h : SameRead (read text) (read text')) :
    IsAssignment text ↔ IsAssignment text' := by
  rw [IsAssignment, IsAssignment]
  generalize read text = found, read text' = found' at h ⊢
  cases h with
  | ok hAlike => cases hAlike <;> simp
  | error => simp

end Grammar

/-- No sign is a line feed, so that lines and columns are counted alike. -/
theorem Text.Position.after_respell (text : List Char) :
    (after (respell text)).line = (after text).line ∧
      (after (respell text)).column = (after text).column := by
  have hFrom : ∀ place place' : Position, place'.line = place.line → place'.column = place.column →
      ((respell text).foldl advance place').line = (text.foldl advance place).line ∧
        ((respell text).foldl advance place').column = (text.foldl advance place).column := by
    induction text with
    | nil => exact fun _ _ hLine hColumn => ⟨hLine, hColumn⟩
    | cons c text ih =>
        intro place place' hLine hColumn
        have hFeed : plainSign c = '\n' ↔ c = '\n' := plainSign_eq_iff (by decide)
        rw [respell_cons, List.foldl_cons, List.foldl_cons]
        apply ih <;> simp only [advance, hFeed] <;> split <;> simp [hLine, hColumn]
  exact hFrom start start rfl rfl

namespace Session

variable {session : Session} {text text' : String}

/-- Two answers to a text. They are the same evaluator, or rejections with the same line and column
and the same names of what was expected there. -/
inductive SameAnswer : Except Diagnostic Evaluator → Except Diagnostic Evaluator → Prop where
  | ok (made : Evaluator) : SameAnswer (.ok made) (.ok made)
  | error {diagnostic diagnostic' : Diagnostic}
      (line : diagnostic'.position.line = diagnostic.position.line)
      (column : diagnostic'.position.column = diagnostic.position.column)
      (expected : diagnostic'.expected = diagnostic.expected) :
      SameAnswer (.error diagnostic) (.error diagnostic')

/-- Whatever the symbols are, such texts have the same outcome. -/
theorem fresh_of_sameRead (session : Session) (h : SameRead (read text) (read text')) :
    (session.fresh text').1 = (session.fresh text).1 ∧
      SameAnswer (session.fresh text).2 (session.fresh text').2 := by
  rw [fresh, fresh]
  generalize read text = found, read text' = found' at h ⊢
  cases h with
  | error before after tried =>
      obtain ⟨hLine, hColumn⟩ := Text.Position.after_respell before
      exact ⟨rfl, .error hLine hColumn rfl⟩
  | ok hAlike =>
      cases hAlike with
      | assignment hBody | expression hBody =>
          simp only [outcome, show _ = _ from hBody, true_and]
          exact .ok _

/-- At any time, a text with its signs spelled in ASCII is understood as the text itself, or
rejected at the same line and column for the same reason. Names are the same in both, because there
are no signs in them. -/
theorem sameAnswer_plainSign (table : SymbolTable) (capacity : Nat) (calls : List Call)
    (text : String) :
    let session := (new table capacity).after calls
    let plain := text.map plainSign
    (IsExpression text ↔ IsExpression plain) ∧ (IsAssignment text ↔ IsAssignment plain) ∧
      SameAnswer (session.parse text).2.answer (session.parse plain).2.answer ∧
      (session.parse plain).1.symbols = (session.parse text).1.symbols ∧
      (∀ name, IsIdentifier name → ∀ sign ∈ signs, sign ∉ name.toList) ∧
      ∀ sentence : Sentence, sentence.Yields text.toList →
        ∀ name, .name name ∈ sentence.pieces → ∀ sign ∈ signs, sign ∉ name.text.toList := by
  intro session plain
  have hCoherent : session.Coherent := coherent_after table capacity calls
  have hRead : SameRead (read text) (read plain) := sameRead_map_plainSign text
  obtain ⟨hSymbols, hAnswer⟩ := session.fresh_of_sameRead hRead
  rw [← hCoherent.parse_eq_fresh, ← hCoherent.parse_eq_fresh] at hSymbols hAnswer
  refine ⟨hRead.isExpression_iff, hRead.isAssignment_iff, hAnswer, hSymbols, ?_, ?_⟩
  · intro name hName sign hSign
    obtain ⟨spelled, _, rfl⟩ := hName.exists_name
    exact spelled.not_mem_of_mem_signs hSign
  · exact fun _ _ name _ sign hSign => name.not_mem_of_mem_signs hSign

end Session

end Formula
