import Formula.Term.Equality
import Formula.Term.Unresolved

/-! Equality of terms as far as it can be decided. It has the laws that the equality of numbers has,
and terms that are equal leave the same names open. -/

namespace Formula

namespace Number

open Float.Model Float.Model.UnpackedFloat

/-- What of a number is compared: nothing of a NaN, no sign of a zero, and of any other finite number its
sign, its exponent and its significand. -/
def comparand? : UnpackedFloat → Option (Sign × Option (Int × Nat))
  | .notANumber => none
  | .infinity sign => some (sign, none)
  | .zero _ => some (.positive, some (0, 0))
  | .finite sign significand exponent _ => some (sign, some (exponent, significand))

/-- The parts of a number, by which `==` compares it. -/
def parts (x : Float) : UnpackedFloat :=
  unpack Format.binary64 x.toBits.toBitVec

/-! ### Equality of numbers -/

variable {x y z : Float}

theorem compare_sign_eq_eq {s t : Sign} : compare s t = .eq ↔ s = t := by
  cases s <;> cases t <;> simp <;> decide

/-- The cases are those of the comparison, for either sign of both numbers. -/
theorem compare_eq_some_eq {a b : UnpackedFloat} :
    a.compare b = some .eq ↔ ∃ number, comparand? a = some number ∧ comparand? b = some number := by
  delta UnpackedFloat.compare
  rcases a with (_ | _) | _ | _ | ⟨_ | _, m, e, hm⟩ <;>
    rcases b with (_ | _) | _ | _ | ⟨_ | _, n, f, hn⟩ <;>
    dsimp only [comparand?] <;> simp [Ordering.then_eq_eq, compare_sign_eq_eq] <;> omega

/-- Two numbers are equal if what is compared of them is there and is the same. -/
theorem beq_iff_comparand? : (x == y) = true ↔
    ∃ number, comparand? (parts x) = some number ∧ comparand? (parts y) = some number := by
  rw [← compare_eq_some_eq]
  show ((parts x).compare (parts y) == some .eq) = true ↔ _
  exact beq_iff_eq

theorem beq_symm (h : (x == y) = true) : (y == x) = true := by
  obtain ⟨number, hx, hy⟩ := beq_iff_comparand?.mp h
  exact beq_iff_comparand?.mpr ⟨number, hy, hx⟩

theorem beq_trans (h : (x == y) = true) (h' : (y == z) = true) : (x == z) = true := by
  obtain ⟨number, hx, hy⟩ := beq_iff_comparand?.mp h
  obtain ⟨other, hy', hz⟩ := beq_iff_comparand?.mp h'
  obtain rfl : number = other := Option.some.inj (hy.symm.trans hy')
  exact beq_iff_comparand?.mpr ⟨number, hx, hz⟩

/-- A NaN is the only number that is not equal to itself. -/
theorem beq_self_iff : (x == x) = true ↔ x.isNaN = false := by
  rw [beq_iff_comparand?]
  show _ ↔ (parts x).isNaN = false
  delta UnpackedFloat.isNaN
  cases parts x <;> dsimp only [comparand?] <;> simp

end Number

instance : ReflBEq Unresolved where
  rfl {names} := by
    show (_ && _ && _) = true
    simp

namespace Term

variable {a b c : Term}

def constants : Term → List Float
  | constant value => [value]
  | var _ => []
  | unaryCall _ _ argument => argument.constants
  | binaryCall _ _ first second => first.constants ++ second.constants
  | conditional condition whenTrue otherwise =>
    condition.constants ++ (whenTrue.constants ++ otherwise.constants)

/-- Two terms of the same shape with the same names, with constants that compare as equal, and with
functions in the same places. -/
inductive Alike : Term → Term → Prop where
  | constant {x y : Float} (h : (x == y) = true) : Alike (constant x) (constant y)
  | var (name : String) : Alike (var name) (var name)
  | unaryCall {function function' : Option UnaryFunction} (name : String)
      {argument argument' : Term} (hFunction : function.isSome = function'.isSome)
      (hArgument : Alike argument argument') :
      Alike (unaryCall function name argument) (unaryCall function' name argument')
  | binaryCall {function function' : Option BinaryFunction} (name : String)
      {first first' second second' : Term} (hFunction : function.isSome = function'.isSome)
      (hFirst : Alike first first') (hSecond : Alike second second') :
      Alike (binaryCall function name first second) (binaryCall function' name first' second')
  | conditional {condition condition' whenTrue whenTrue' otherwise otherwise' : Term}
      (hCondition : Alike condition condition') (hWhenTrue : Alike whenTrue whenTrue')
      (hOtherwise : Alike otherwise otherwise') :
      Alike (conditional condition whenTrue otherwise) (conditional condition' whenTrue' otherwise')

/-- Nothing but pairs of the same constructor is ever equal. -/
theorem Alike.of_same (h : a.same b = true) : Alike a b := by
  induction a generalizing b with
  | constant x =>
      cases b with
      | constant y => exact .constant h
      | var | unaryCall | binaryCall | conditional => cases h
  | var name =>
      cases b with
      | var name' =>
          obtain rfl : name = name' := by simpa [same] using h
          exact .var name
      | constant | unaryCall | binaryCall | conditional => cases h
  | unaryCall function name argument ih =>
      cases b with
      | unaryCall function' name' argument' =>
          simp only [same, Bool.and_eq_true, beq_iff_eq] at h
          obtain ⟨⟨hFunction, rfl⟩, hArgument⟩ := h
          exact .unaryCall name hFunction (ih hArgument)
      | constant | var | binaryCall | conditional => cases h
  | binaryCall function name first second ihFirst ihSecond =>
      cases b with
      | binaryCall function' name' first' second' =>
          simp only [same, Bool.and_eq_true, beq_iff_eq] at h
          obtain ⟨⟨⟨hFunction, rfl⟩, hFirst⟩, hSecond⟩ := h
          exact .binaryCall name hFunction (ihFirst hFirst) (ihSecond hSecond)
      | constant | var | unaryCall | conditional => cases h
  | conditional condition whenTrue otherwise ihCondition ihWhenTrue ihOtherwise =>
      cases b with
      | conditional condition' whenTrue' otherwise' =>
          simp only [same, Bool.and_eq_true] at h
          obtain ⟨⟨hCondition, hWhenTrue⟩, hOtherwise⟩ := h
          exact .conditional (ihCondition hCondition) (ihWhenTrue hWhenTrue)
            (ihOtherwise hOtherwise)
      | constant | var | unaryCall | binaryCall => cases h

/-- The equality that is computed is the relation between terms of the same shape. -/
theorem beq_eq_true_iff_alike : (a == b) = true ↔ Alike a b := by
  refine ⟨Alike.of_same, fun h => ?_⟩
  show a.same b = true
  induction h with
  | constant h => exact h
  | var name => simp [same]
  | unaryCall name hFunction _ ih => simp [same, hFunction, ih]
  | binaryCall name hFunction _ _ ihFirst ihSecond => simp [same, hFunction, ihFirst, ihSecond]
  | conditional _ _ _ ihCondition ihWhenTrue ihOtherwise =>
      simp [same, ihCondition, ihWhenTrue, ihOtherwise]

namespace Alike

theorem symm (h : Alike a b) : Alike b a := by
  induction h with
  | constant h => exact .constant (Number.beq_symm h)
  | var name => exact .var name
  | unaryCall name hFunction _ ih => exact .unaryCall name hFunction.symm ih
  | binaryCall name hFunction _ _ ihFirst ihSecond =>
      exact .binaryCall name hFunction.symm ihFirst ihSecond
  | conditional _ _ _ ihCondition ihWhenTrue ihOtherwise =>
      exact .conditional ihCondition ihWhenTrue ihOtherwise

/-- The functions of the two calls need not be the same, as long as they are in the same places. -/
theorem trans (hFirst : Alike a b) (hSecond : Alike b c) : Alike a c := by
  induction hFirst generalizing c with
  | constant h =>
      cases hSecond with
      | constant h' => exact .constant (Number.beq_trans h h')
  | var name => exact hSecond
  | unaryCall name hFunction _ ih =>
      cases hSecond with
      | unaryCall _ hFunction' hArgument =>
          exact .unaryCall name (hFunction.trans hFunction') (ih hArgument)
  | binaryCall name hFunction _ _ ihFirst ihSecond =>
      cases hSecond with
      | binaryCall _ hFunction' hFirst hSecond =>
          exact .binaryCall name (hFunction.trans hFunction') (ihFirst hFirst) (ihSecond hSecond)
  | conditional _ _ _ ihCondition ihWhenTrue ihOtherwise =>
      cases hSecond with
      | conditional hCondition hWhenTrue hOtherwise =>
          exact .conditional (ihCondition hCondition) (ihWhenTrue hWhenTrue)
            (ihOtherwise hOtherwise)

/-- Names are collected by the shape of a term and by where its functions are. -/
theorem collect_eq (h : Alike a b) (names : Unresolved) : names.collect a = names.collect b := by
  induction h generalizing names with
  | constant h => rfl
  | var name => rfl
  | @unaryCall function function' name _ _ hFunction _ ih =>
      cases function <;> cases function' <;> simp_all [Unresolved.collect]
  | @binaryCall function function' name _ _ _ _ hFunction _ _ ihFirst ihSecond =>
      cases function <;> cases function' <;> simp_all [Unresolved.collect]
  | conditional _ _ _ ihCondition ihWhenTrue ihOtherwise =>
      rw [Unresolved.collect, Unresolved.collect, ihCondition, ihWhenTrue, ihOtherwise]

end Alike

/-- A term is like itself unless it has a NaN in it. -/
theorem alike_self_iff : Alike a a ↔ ∀ value ∈ a.constants, value.isNaN = false := by
  induction a with
  | constant value =>
      rw [constants, List.forall_mem_singleton, ← Number.beq_self_iff]
      exact ⟨fun | .constant h => h, .constant⟩
  | var name => simp [constants, Alike.var name]
  | unaryCall function name argument ih =>
      rw [constants, ← ih]
      exact ⟨fun | .unaryCall _ _ h => h, .unaryCall name rfl⟩
  | binaryCall function name first second ihFirst ihSecond =>
      rw [constants, List.forall_mem_append, ← ihFirst, ← ihSecond]
      exact ⟨fun | .binaryCall _ _ h h' => ⟨h, h'⟩, fun ⟨h, h'⟩ => .binaryCall name rfl h h'⟩
  | conditional condition whenTrue otherwise ihCondition ihWhenTrue ihOtherwise =>
      rw [constants, List.forall_mem_append, List.forall_mem_append, ← ihCondition, ← ihWhenTrue,
        ← ihOtherwise]
      exact ⟨fun | .conditional h h' h'' => ⟨h, h', h''⟩, fun ⟨h, h', h''⟩ => .conditional h h' h''⟩

instance : PartialEquivBEq Term where
  symm h := beq_eq_true_iff_alike.mpr (beq_eq_true_iff_alike.mp h).symm
  trans h h' :=
    beq_eq_true_iff_alike.mpr ((beq_eq_true_iff_alike.mp h).trans (beq_eq_true_iff_alike.mp h'))

/-- Equality of terms is symmetric and transitive. It is reflexive on the terms without a NaN and on
no others, and terms that are equal need the same names. -/
theorem beq_isPartialEquivalence :
    (∀ a b : Term, (a == b) = true → (b == a) = true) ∧
      (∀ a b c : Term, (a == b) = true → (b == c) = true → (a == c) = true) ∧
      (∀ a : Term, (a == a) = true ↔ ∀ value ∈ a.constants, value.isNaN = false) ∧
      ∀ a b : Term, (a == b) = true → (a.unresolved == b.unresolved) = true := by
  refine ⟨fun _ _ => BEq.symm, fun _ _ _ => BEq.trans, fun _ => ?_, fun a b h => ?_⟩
  · rw [beq_eq_true_iff_alike, alike_self_iff]
  · rw [unresolved, unresolved, (beq_eq_true_iff_alike.mp h).collect_eq]
    exact BEq.rfl

/-- Zeros of either sign and different functions of one name make terms that are equal. -/
theorem beq_isPartialEquivalence_zeros :
    let call (zero : Float) (function : UnaryFunction) : Term :=
      binaryCall none "f" (unaryCall (some function) "g" (constant zero)) (var "x")
    (call 0.0 Float.sin == call (-0.0) Float.cos) = true ∧
      (call (-0.0) Float.cos == call 0.0 Float.cos) = true ∧
      (call (-0.0) Float.cos == call 0.0 Float.sin) = true ∧
      (call 0.0 Float.sin == call 0.0 Float.cos) = true ∧
      ((call Number.nan Float.sin == call Number.nan Float.sin) = true ↔
        ∀ value ∈ (call Number.nan Float.sin).constants, value.isNaN = false) ∧
      ((call 0.0 Float.sin).unresolved == (call (-0.0) Float.cos).unresolved) = true := by
  intro call
  have hZeros : (0.0 == -0.0) = true := by decide
  have hZeros' : (-0.0 == 0.0) = true := by decide
  have hFirst : (call 0.0 Float.sin == call (-0.0) Float.cos) = true :=
    beq_eq_true_iff_alike.mpr
      (.binaryCall "f" rfl (.unaryCall "g" rfl (.constant hZeros)) (.var "x"))
  have hSecond : (call (-0.0) Float.cos == call 0.0 Float.cos) = true :=
    beq_eq_true_iff_alike.mpr
      (.binaryCall "f" rfl (.unaryCall "g" rfl (.constant hZeros')) (.var "x"))
  obtain ⟨hSymm, hTrans, hSelf, hNames⟩ := beq_isPartialEquivalence
  exact ⟨hFirst, hSecond, hSymm _ _ hFirst, hTrans _ _ _ hFirst hSecond, hSelf _,
    hNames _ _ hFirst⟩

end Term

end Formula
