import Formula.Proofs.Grammar.Recognition
import Formula.Proofs.Session.Coherence
import Formula.Proofs.Term.Evaluation

/-! What a session makes of the texts of the grammar. -/

namespace Formula

open Grammar

namespace Grammar.Sentence

/-- The term that the reducing constructors make of a sentence. An assignment becomes its variable. -/
def term (scope : Scope) : Sentence → Term
  | .assignment name _ => .var name.text
  | .expression body => body.interpret (.folded scope)

/-- The symbols of a session after a sentence. A value that cannot be worked out is assigned as a
NaN. -/
def symbols (session : Session) : Sentence → SymbolTable
  | .assignment name body =>
    session.symbols.withVariable name.text
      (orNaN (Term.eval session.scope (body.interpret (.folded session.scope))))
  | .expression _ => session.symbols

end Grammar.Sentence

namespace Session

variable {session : Session} {text : String} {sentence : Sentence}

/-- The outcome for a text of the grammar follows from its sentence and the symbols. -/
theorem fresh_of_yields (h : sentence.Yields text.toList) :
    session.fresh text =
      (sentence.symbols session, .ok ⟨sentence.term session.scope, sentence.symbols session⟩) := by
  obtain ⟨found, hRead, hDescribes⟩ := exists_read_of_yields h
  match sentence, found with
  | .expression body, .expression reading =>
      simp only [fresh, outcome, hRead, evaluator, Sentence.term, Sentence.symbols]
      rw [← resolve_interpret_written, show body.interpret .written = reading.expr from hDescribes]
  | .assignment name body, .assignment spelled reading =>
      obtain ⟨rfl, hExpr⟩ := hDescribes
      simp only [fresh, outcome, hRead, assign, setVariable, evaluator, Evaluator.value, Sentence.term,
        Sentence.symbols]
      rw [← resolve_interpret_written, hExpr]
      rfl

/-- A text without a sentence is rejected, and nothing changes. -/
theorem fresh_eq_error (session : Session) {text : String}
    (h : ∀ sentence : Sentence, ¬ sentence.Yields text.toList) :
    ∃ diagnostic, session.fresh text = (session.symbols, .error diagnostic) := by
  cases hRead : read text with
  | error diagnostic => exact ⟨diagnostic, by simp only [fresh, outcome, hRead]⟩
  | ok found =>
      obtain ⟨sentence, hYields⟩ := read_isOk_iff.mp ⟨found, hRead⟩
      exact absurd hYields (h sentence)

/-- The same of a session with a cache. -/
theorem Coherent.parse_of_yields (h : session.Coherent) (hYields : sentence.Yields text.toList) :
    (session.parse text).1.symbols = sentence.symbols session ∧
      (session.parse text).2.answer =
        .ok ⟨sentence.term session.scope, sentence.symbols session⟩ :=
  Prod.mk.inj ((h.parse_eq_fresh text).trans (fresh_of_yields hYields))

/-! ### What a text does to the state of a session -/

/-- A coherent session keeps expressions only. -/
theorem Coherent.isExpression_of_mem_keys (h : session.Coherent) (hText : text ∈ session.cache.keys) :
    IsExpression text := by
  obtain ⟨entry, hEntry, rfl⟩ := List.mem_map.mp hText
  obtain ⟨body, hRead, _⟩ := h entry hEntry
  exact ⟨body, hRead⟩

/-- Nothing but expressions is ever kept. -/
theorem Coherent.find?_eq_none (h : session.Coherent) (hText : ¬ IsExpression text) :
    session.cache.find? text = none := by
  rw [← Option.not_isSome_iff_eq_none, LruCache.isSome_find?_iff]
  exact fun hKeys => hText (h.isExpression_of_mem_keys hKeys)

theorem Coherent.cache_parse_of_isAssignment (h : session.Coherent) (hText : IsAssignment text) :
    (session.parse text).1.cache = session.cache.clear := by
  have hFind := h.find?_eq_none fun hOther => hOther.not_isAssignment hText
  obtain ⟨name, body, hRead⟩ := hText
  simp only [Session.parse, hFind, hRead, assign, setVariable]

theorem symbols_parse_of_not_isAssignment (h : ¬ IsAssignment text) :
    (session.parse text).1.symbols = session.symbols := by
  cases hFind : session.cache.find? text with
  | some kept => simp only [parse, hFind]
  | none =>
      cases hRead : read text with
      | error diagnostic => simp only [parse, hFind, hRead]
      | ok found =>
          cases found with
          | expression body => simp only [parse, hFind, hRead]
          | assignment name body => exact absurd ⟨name, body, hRead⟩ h

/-- A text that is rejected leaves no trace. -/
theorem Coherent.fst_parse_of_rejected (h : session.Coherent) (hExpression : ¬ IsExpression text)
    (hAssignment : ¬ IsAssignment text) : (session.parse text).1 = session := by
  have hFind := h.find?_eq_none hExpression
  cases hRead : read text with
  | error diagnostic => simp only [Session.parse, hFind, hRead]
  | ok found =>
      cases found with
      | expression body => exact absurd ⟨body, hRead⟩ hExpression
      | assignment name body => exact absurd ⟨name, body, hRead⟩ hAssignment

theorem eval_var_setVariable (session : Session) (name : String) (value : Float) :
    Term.eval (session.setVariable name value).scope (.var name) = .ok value := by
  simp [Term.eval, setVariable, scope, Scope.within, SymbolTable.scope, SymbolTable.withVariable]

theorem values_setVariable_of_ne (session : Session) {name other : String} (value : Float)
    (h : other ≠ name) :
    (session.setVariable name value).symbols.values[other]? = session.symbols.values[other]? :=
  SymbolTable.getElem?_insert_of_ne h session.symbols.values value

/-- A coherent session gives the variable of an assignment its value, as a caller could do who knows
what the right side means. -/
theorem Coherent.fst_parse_assignment (h : session.Coherent) {name : Name}
    {body : Derivation .padded} (hYields : (Sentence.assignment name body).Yields text.toList) :
    (session.parse text).1 = session.setVariable name.text
      (orNaN (Term.eval session.scope (body.interpret (.folded session.scope)))) := by
  have hSymbols := (h.parse_of_yields hYields).1
  have hCache := h.cache_parse_of_isAssignment hYields.isAssignment
  rw [← show (⟨_, _⟩ : Session) = (session.parse text).1 from rfl, hSymbols, hCache]
  rfl

/-- A name, an equals sign and a text make an assignment exactly if the text alone is an expression.
The assignment does what is done by giving the variable directly the value that the expression has
before, or a NaN if it has none: that variable has the value from then on, and nothing else changes
but that the cache is emptied. Whatever is not an assignment leaves the symbols alone. -/
theorem parse_assignment_eq_setVariable (table : SymbolTable) (capacity : Nat) (calls : List Call)
    {name before after : String} (right : String) (hName : IsIdentifier name)
    (hBefore : Blank before.toList) (hAfter : Blank after.toList) :
    let session := (new table capacity).after calls
    let text := name ++ before ++ "=" ++ after ++ right
    let next := (session.parse text).1
    (IsAssignment text ↔ IsExpression right) ∧
      (IsExpression right → ∃ alone assigned,
        (session.parse right).2.answer = .ok alone ∧
        (session.parse text).2.answer = .ok assigned ∧
        next = session.setVariable name (orNaN alone.value) ∧
        (∀ other, other ≠ name → next.symbols.values[other]? = session.symbols.values[other]?) ∧
        next.symbols.unaryFunctions = session.symbols.unaryFunctions ∧
        next.symbols.binaryFunctions = session.symbols.binaryFunctions ∧
        next.cache = .empty session.cache.capacity ∧
        assigned.term = .var name ∧ assigned.symbols = next.symbols ∧
        assigned.value = .ok (orNaN alone.value)) ∧
      (¬ IsAssignment text → next.symbols = session.symbols) := by
  intro session text next
  have hCoherent : session.Coherent := coherent_after table capacity calls
  obtain ⟨name, hSpelled, rfl⟩ := hName.exists_name
  have hText : text.toList =
      [] ++ (name.characters ++ (before.toList ++ '=' :: (after.toList ++ right.toList))) := by
    simp [text, hSpelled]
  have hSentence {other : Name} {body : Derivation .padded} :
      (Sentence.assignment other body).Yields text.toList ↔ other = name ∧ body.Yields right.toList := by
    rw [hText, Sentence.yields_assignment_iff blank_nil hBefore,
      Derivation.Yields.blank_append_iff hAfter]
  refine ⟨?_, fun hRight => ?_, symbols_parse_of_not_isAssignment⟩
  · rw [isAssignment_iff, isExpression_iff]
    constructor
    · rintro ⟨other, body, hYields⟩
      exact ⟨body, (hSentence.mp hYields).2⟩
    · rintro ⟨body, hBody⟩
      exact ⟨name, body, hSentence.mpr ⟨rfl, hBody⟩⟩
  · obtain ⟨body, hBody⟩ := isExpression_iff.mp hRight
    have hYields : (Sentence.assignment name body).Yields text.toList := hSentence.mpr ⟨rfl, hBody⟩
    have hNext : next = session.setVariable name.text
        (orNaN (Term.eval session.scope (body.interpret (.folded session.scope)))) :=
      hCoherent.fst_parse_assignment hYields
    refine ⟨_, _, (hCoherent.parse_of_yields (.expression hBody)).2,
      (hCoherent.parse_of_yields hYields).2, hNext, ?_, ?_, ?_, ?_, rfl, ?_, ?_⟩
    · intro other hOther
      rw [hNext, values_setVariable_of_ne session _ hOther]
    · rw [hNext]; rfl
    · rw [hNext]; rfl
    · rw [hNext]; rfl
    · exact (hCoherent.parse_of_yields hYields).1.symm
    · exact eval_var_setVariable session name.text _

/-- The right side is evaluated before the variable changes, so that it may mention it. -/
theorem parse_assignment_eq_setVariable_self_reference :
    let text := "x" ++ " " ++ "=" ++ " " ++ "x + 1"
    IsIdentifier "x" ∧ Blank " ".toList ∧ IsExpression "x + 1" ∧ IsAssignment text ∧
      ∃ alone, ((new .empty 1).parse "x + 1").2.answer = .ok alone ∧
        ((new .empty 1).parse text).1 = (new .empty 1).setVariable "x" (orNaN alone.value) := by
  intro text
  have hName : IsIdentifier "x" := rfl
  have hBlank : Blank " ".toList := by decide
  have hRight : IsExpression "x + 1" := ⟨_, rfl⟩
  obtain ⟨hAccepted, hEffect, _⟩ :=
    parse_assignment_eq_setVariable .empty 1 [] "x + 1" hName hBlank hBlank
  obtain ⟨alone, assigned, hAlone, _, hNext, _⟩ := hEffect hRight
  exact ⟨hName, hBlank, hRight, hAccepted.mpr hRight, alone, hAlone, hNext⟩

/-! The values of the evaluators that a session makes, compared with those of the text as it is
written. -/

/-- An expression is understood with the symbols that the session has by then. -/
theorem Coherent.parse_of_body (h : session.Coherent) {body : Derivation .padded}
    (hBody : body.Yields text.toList) :
    (session.parse text).2.answer =
      .ok ⟨Expr.resolve session.scope (body.interpret .written), session.symbols⟩ := by
  rw [resolve_interpret_written]
  exact (h.parse_of_yields (.expression hBody)).2

/-- Looking names up and working out constants when a text is understood does not change what it
means. At any time, the value of an expression with given symbols, or the failure to have one, is that
of the term without any of this, where a name has its meaning in the session if there is one, else
the one that is always known, and else the given one. -/
theorem valueWith_eq_eval_plain (table : SymbolTable) (capacity : Nat) (calls : List Call)
    {text : String} (hText : IsExpression text) :
    let session := (new table capacity).after calls
    ∃ body : Derivation .padded, body.Yields text.toList ∧ ∃ made,
      (session.parse text).2.answer = .ok made ∧
        (∀ given : SymbolTable, made.valueWith given =
          Term.eval ((session.symbols.scope.within SymbolTable.builtins.scope).within given.scope)
            (body.interpret .plain)) ∧
        made.value =
          Term.eval ((session.symbols.scope.within SymbolTable.builtins.scope).within
            SymbolTable.empty.scope) (body.interpret .plain) := by
  intro session
  obtain ⟨body, hBody⟩ := isExpression_iff.mp hText
  have hCoherent : session.Coherent := coherent_after table capacity calls
  have hEval (given : Scope) : Term.eval (given.within session.scope)
      (Expr.resolve session.scope (body.interpret .written)) =
        Term.eval (session.scope.within given) (body.interpret .plain) := by
    rw [Expr.eval_resolve, ofExpr_interpret_written]
  refine ⟨body, hBody, _, hCoherent.parse_of_body hBody, fun given => hEval given.scope, ?_⟩
  have hEmpty : SymbolTable.empty.scope.within session.scope = session.scope := by
    simp [Scope.within, SymbolTable.scope, SymbolTable.empty]
  have hValue := hEval SymbolTable.empty.scope
  rw [hEmpty] at hValue
  exact hValue

theorem valueWith_eq_eval_plain_factorial :
    let table := SymbolTable.empty.withVariable "x" 2.0
    IsExpression "x!" ∧ ∃ body : Derivation .padded, body.Yields "x!".toList ∧ ∃ made,
      ((new table 1).parse "x!").2.answer = .ok made ∧
        ∀ given : SymbolTable, made.valueWith given =
          Term.eval ((table.scope.within SymbolTable.builtins.scope).within given.scope)
            (body.interpret .plain) := by
  intro table
  have hText : IsExpression "x!" := ⟨_, rfl⟩
  obtain ⟨body, hBody, made, hMade, hValue, _⟩ := valueWith_eq_eval_plain table 1 [] hText
  exact ⟨hText, body, hBody, made, hMade, hValue⟩

/-- Three questions about an expression have the same answer: whether no name in it is left open,
whether its term is a number, and whether it has a value without further symbols. -/
theorem unresolved_isEmpty_iff (table : SymbolTable) (capacity : Nat) (calls : List Call)
    {text : String} (hText : IsExpression text) :
    let session := (new table capacity).after calls
    ∃ made, (session.parse text).2.answer = .ok made ∧
      (made.term.unresolved.isEmpty = true ↔ ∃ value, made.term = .constant value) ∧
      ((∃ value, made.term = .constant value) ↔ ∃ value, made.value = .ok value) := by
  intro session
  obtain ⟨body, hBody⟩ := isExpression_iff.mp hText
  have hCoherent : session.Coherent := coherent_after table capacity calls
  have hReduced := Term.reduced_resolve session.scope (body.interpret .written)
  exact ⟨_, hCoherent.parse_of_body hBody, hReduced.isEmpty_unresolved_iff_isConstant,
    hReduced.isConstant_iff_eval⟩

theorem unresolved_isEmpty_iff_factorial :
    IsExpression "x!" ∧ ∃ made, ((new .empty 1).parse "x!").2.answer = .ok made ∧
      (made.term.unresolved.isEmpty = true ↔ ∃ value, made.term = .constant value) ∧
      ((∃ value, made.term = .constant value) ↔ ∃ value, made.value = .ok value) := by
  have hText : IsExpression "x!" := ⟨_, rfl⟩
  exact ⟨hText, unresolved_isEmpty_iff .empty 1 [] hText⟩

end Session

end Formula
