import Formula.Proofs.Session.Recognition
import Formula.Proofs.Term.Dependence

/-! What the answers of a session depend on. A text counts on the symbols only by the names in it, so
that more symbols settle more of it, and so that writes to different variables may change places
unless one uses what the other writes. -/

namespace Formula

open Grammar

namespace Session

variable {session : Session} {call : Call} {name : String}

/-- After an assignment its variable has the new value, and everything else the meaning that it had.
-/
theorem scope_setVariable (session : Session) (name : String) (value : Float) :
    (session.setVariable name value).scope = (Scope.binding name value).within session.scope := by
  rw [scope, scope, ← Scope.within_assoc, ← SymbolTable.scope_withVariable]
  rfl

/-! ### More symbols -/

/-- If one session knows all that another one knows, each name that it leaves open in an expression is
also left open by the other one, in the same kind, and has no meaning in either. -/
theorem unresolved_subset_of_extendedBy (table richer : SymbolTable) (capacity capacity' : Nat)
    (calls calls' : List Call) {text : String} (hText : IsExpression text) :
    let session := (new table capacity).after calls
    let knowing := (new richer capacity').after calls'
    session.scope.ExtendedBy knowing.scope → ∃ made made',
      (session.parse text).2.answer = .ok made ∧ (knowing.parse text).2.answer = .ok made' ∧
        ∀ kind name, name ∈ made'.term.unresolved.names kind →
          name ∈ made.term.unresolved.names kind ∧ ¬ knowing.scope.Knows kind name := by
  intro session knowing hExtended
  obtain ⟨body, hBody⟩ := isExpression_iff.mp hText
  have hSession : session.Coherent := coherent_after table capacity calls
  have hKnowing : knowing.Coherent := coherent_after richer capacity' calls'
  refine ⟨_, _, hSession.parse_of_body hBody, hKnowing.parse_of_body hBody, ?_⟩
  intro kind name hOpen
  rw [Term.mem_unresolved] at hOpen ⊢
  have hReduced := Term.reduced_resolve knowing.scope (body.interpret .written)
  exact ⟨Expr.needs_resolve_of_extendedBy hExtended hOpen, hReduced.not_knows hOpen⟩

/-- Where the condition becomes known, the names of the other branch are not open any more. -/
theorem unresolved_subset_of_extendedBy_branch :
    let text := "if(t,x,y)"
    let session := new .empty 1
    let knowing := new (SymbolTable.empty.withVariable "t" 1.0) 1
    IsExpression text ∧ session.scope.ExtendedBy knowing.scope ∧ ∃ made made',
      (session.parse text).2.answer = .ok made ∧ (knowing.parse text).2.answer = .ok made' ∧
        ∀ kind name, name ∈ made'.term.unresolved.names kind →
          name ∈ made.term.unresolved.names kind ∧ ¬ knowing.scope.Knows kind name := by
  intro text session knowing
  have hLetter (c : Char) (hName : Lexeme.startsName c = true) :
      Phrase.padded.Spells [c] (.var (String.ofList [c])) := by
    have hVariable : Phrase.primary.Spells [c] (.var (String.ofList [c])) :=
      ⟨.var ⟨c, [], hName, nofun⟩, .var _, rfl⟩
    exact hVariable.plain.operand.whole
  have hText : IsExpression text := by
    have hConditional := (hLetter 't' (by decide)).conditional (hLetter 'x' (by decide))
      (hLetter 'y' (by decide))
    obtain ⟨body, hBody, _⟩ := hConditional.plain.operand.whole
    exact isExpression_iff.mpr ⟨body, by simpa [text] using hBody⟩
  have hMissing : session.scope.value? "t" = none := by
    simp [session, new, scope, SymbolTable.scope, SymbolTable.empty, SymbolTable.builtins,
      SymbolTable.withBuiltins, SymbolTable.builtinConstants, SymbolTable.builtinUnary,
      SymbolTable.builtinBinary, SymbolTable.withVariable, SymbolTable.withUnary,
      SymbolTable.withBinary]
  have hScope : knowing.scope = (Scope.binding "t" 1.0).within session.scope :=
    scope_setVariable session "t" 1.0
  have hExtended : session.scope.ExtendedBy knowing.scope := by
    rw [hScope]
    apply Scope.extendedBy_binding
    simp [Scope.Knows, hMissing]
  exact ⟨hText, hExtended, unresolved_subset_of_extendedBy .empty _ 1 1 [] [] hText hExtended⟩

/-! ### Writes to different variables -/

inductive RightSide where
  | number (value : Float)
  | expression (expr : Expr)

namespace RightSide

/-- A name occurs as a variable. A function that is called by it does not count. -/
def Mentions (name : String) : RightSide → Prop
  | number _ => False
  | expression expr => expr.Mentions .value name

def value (scope : Scope) : RightSide → Float
  | number value => value
  | expression expr => orNaN ((expr.resolve scope).eval scope)

/-- A right side that does not mention a variable has the same value whatever this variable is. -/
theorem value_binding {right : RightSide} (h : ¬ right.Mentions name) (scope : Scope)
    (value : Float) : right.value ((Scope.binding name value).within scope) = right.value scope := by
  cases right with
  | number number => rfl
  | expression expr =>
      have hEval : (expr.resolve scope).eval scope =
          (expr.resolve ((Scope.binding name value).within scope)).eval
            ((Scope.binding name value).within scope) := by
        apply Expr.eval_resolve_congr
        intro kind other hMentions
        apply Scope.agreesAt_binding
        rintro ⟨rfl, rfl⟩
        exact h hMentions
      rw [RightSide.value, RightSide.value, hEval]

end RightSide

/-- A call gives a variable the value of a right side, directly or by an assignment. -/
inductive Call.Writes : Call → String → RightSide → Prop where
  | setVariable (name : String) (value : Float) : Writes (.setVariable name value) name (.number value)
  | parse {text name : String} {body : Reading} (hRead : read text = .ok (.assignment name body)) :
      Writes (.parse text) name (.expression body.expr)
  | parse? {text name : String} {body : Reading} (hRead : read text = .ok (.assignment name body)) :
      Writes (.parse? text) name (.expression body.expr)

/-- Two answers to the same write. What an assignment returned has the same value. -/
inductive Answer.SameValue : Answer → Answer → Prop where
  | done : SameValue .done .done
  | parsed {made made' : Evaluator} (hValue : made.value = made'.value) :
      SameValue (.parsed (.ok made)) (.parsed (.ok made'))
  | parsed? {made made' : Evaluator} (hValue : made.value = made'.value) :
      SameValue (.parsed? (some made)) (.parsed? (some made'))

theorem Coherent.parse_of_assignment (h : session.Coherent) {text name : String} {body : Reading}
    (hRead : read text = .ok (.assignment name body)) :
    (session.parse text).1 = (session.assign name body.expr).1 ∧
      (session.parse text).2.answer = .ok (session.assign name body.expr).2.answer := by
  have hOther : ¬ IsExpression text := fun hText => hText.not_isAssignment ⟨name, body, hRead⟩
  simp only [Session.parse, h.find?_eq_none hOther, hRead, and_self]

/-- A call that writes to a variable does nothing else. -/
theorem Coherent.fst_perform_of_writes (h : session.Coherent) {right : RightSide}
    (hWrites : call.Writes name right) :
    (session.perform call).1 = session.setVariable name (right.value session.scope) := by
  cases hWrites with
  | setVariable name value => rfl
  | parse hRead => exact (h.parse_of_assignment hRead).1
  | parse? hRead =>
      rw [Session.perform, fst_parse?]
      exact (h.parse_of_assignment hRead).1

theorem value_assign (session : Session) (name : String) (expr : Expr) :
    (session.assign name expr).2.answer.value =
      .ok (RightSide.value session.scope (.expression expr)) :=
  eval_var_setVariable session name _

/-- A write is answered alike wherever its right side has the same value. -/
theorem Coherent.sameValue_of_writes {other : Session} (h : session.Coherent)
    (hOther : other.Coherent) {right : RightSide} (hWrites : call.Writes name right)
    (hValue : right.value session.scope = right.value other.scope) :
    (session.perform call).2.SameValue (other.perform call).2 := by
  cases hWrites with
  | setVariable name value => exact .done
  | parse hRead =>
      simp only [Session.perform, (h.parse_of_assignment hRead).2,
        (hOther.parse_of_assignment hRead).2]
      exact .parsed (by rw [value_assign, value_assign, hValue])
  | parse? hRead =>
      simp only [Session.perform, answer_parse?, (h.parse_of_assignment hRead).2,
        (hOther.parse_of_assignment hRead).2]
      exact .parsed? (by rw [value_assign, value_assign, hValue])

/-- Writes to different variables may change places at any time, unless one of them uses the variable
of the other. Every name has the same meanings after both, no evaluator is kept, and what the
assignments return has the same values. -/
theorem writes_commute (table : SymbolTable) (capacity : Nat) (calls : List Call)
    {first second : Call} {n m : String} {left right : RightSide} (hFirst : first.Writes n left)
    (hSecond : second.Writes m right) (hNames : n ≠ m) (hLeft : ¬ left.Mentions m)
    (hRight : ¬ right.Mentions n) :
    let session := (new table capacity).after calls
    let afterFirst := (session.perform first).1
    let afterSecond := (session.perform second).1
    (afterFirst.perform second).1.symbols.scope = (afterSecond.perform first).1.symbols.scope ∧
      (afterFirst.perform second).1.scope = (afterSecond.perform first).1.scope ∧
      (afterFirst.perform second).1.cache = (afterSecond.perform first).1.cache ∧
      (session.perform first).2.SameValue (afterSecond.perform first).2 ∧
      (session.perform second).2.SameValue (afterFirst.perform second).2 := by
  intro session afterFirst afterSecond
  have hSession : session.Coherent := coherent_after table capacity calls
  have hCoherentFirst : afterFirst.Coherent := hSession.perform first
  have hCoherentSecond : afterSecond.Coherent := hSession.perform second
  have hAfterFirst : afterFirst = session.setVariable n (left.value session.scope) :=
    hSession.fst_perform_of_writes hFirst
  have hAfterSecond : afterSecond = session.setVariable m (right.value session.scope) :=
    hSession.fst_perform_of_writes hSecond
  have hLeftValue : left.value session.scope = left.value afterSecond.scope := by
    rw [hAfterSecond, scope_setVariable, RightSide.value_binding hLeft]
  have hRightValue : right.value session.scope = right.value afterFirst.scope := by
    rw [hAfterFirst, scope_setVariable, RightSide.value_binding hRight]
  have hBoth : (afterFirst.perform second).1 =
      afterFirst.setVariable m (right.value session.scope) := by
    rw [hCoherentFirst.fst_perform_of_writes hSecond, hRightValue]
  have hSwapped : (afterSecond.perform first).1 =
      afterSecond.setVariable n (left.value session.scope) := by
    rw [hCoherentSecond.fst_perform_of_writes hFirst, hLeftValue]
  refine ⟨?_, ?_, ?_, ?_, ?_⟩
  · rw [hBoth, hSwapped, hAfterFirst, hAfterSecond]
    simp only [setVariable, SymbolTable.scope_withVariable]
    exact Scope.binding_within_binding hNames.symm
  · rw [hBoth, hSwapped, hAfterFirst, hAfterSecond]
    simp only [scope_setVariable]
    exact Scope.binding_within_binding hNames.symm
  · rw [hBoth, hSwapped, hAfterFirst, hAfterSecond]
    rfl
  · exact hSession.sameValue_of_writes hCoherentSecond hFirst hLeftValue
  · exact hSession.sameValue_of_writes hCoherentFirst hSecond hRightValue

/-- The call of a function `y` does not use the variable `y`. -/
theorem writes_commute_function :
    let session := new .empty 1
    let first := Call.parse "x = y(x)"
    let second := Call.setVariable "y" 1.0
    let left := RightSide.expression (.unary "y" (.var "x"))
    let right := RightSide.number 1.0
    first.Writes "x" left ∧ second.Writes "y" right ∧ "x" ≠ "y" ∧ ¬ left.Mentions "y" ∧
      ¬ right.Mentions "x" ∧
      ((session.perform first).1.perform second).1.scope =
        ((session.perform second).1.perform first).1.scope := by
  have hRead : read "x = y(x)" = .ok (.assignment "x" ⟨.unary "y" (.var "x"), []⟩) := by cbv
  intro session first second left right
  have hFirst : first.Writes "x" left := .parse hRead
  have hSecond : second.Writes "y" right := .setVariable "y" 1.0
  have hNames : "x" ≠ "y" := by decide
  have hLeft : ¬ left.Mentions "y" := by simp [left, RightSide.Mentions, Expr.Mentions]
  have hRight : ¬ right.Mentions "x" := id
  have hCommute := writes_commute .empty 1 [] hFirst hSecond hNames hLeft hRight
  exact ⟨hFirst, hSecond, hNames, hLeft, hRight, hCommute.2.1⟩

end Session

end Formula
