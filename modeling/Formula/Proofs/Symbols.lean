import Formula.Symbols

/-! What scopes know and how they compare. Scopes are looked at only through the meanings that they
give, each kind of name by itself, so that laying scopes over each other and merging tables come to the
same. -/

namespace Formula

section Scopes

inductive NameKind where
  | value
  | unary
  | binary
  deriving DecidableEq

attribute [ext] Scope

variable {scope other narrow wide broad : Scope} {kind : NameKind} {name key : String}
  {value value' : Float}

namespace Scope

/-- Two scopes give a name the same meaning of one kind, or both none. -/
def AgreesAt (scope other : Scope) (kind : NameKind) (name : String) : Prop :=
  match kind with
  | .value => scope.value? name = other.value? name
  | .unary => scope.unary? name = other.unary? name
  | .binary => scope.binary? name = other.binary? name

def Knows (scope : Scope) (kind : NameKind) (name : String) : Prop :=
  match kind with
  | .value => (scope.value? name).isSome
  | .unary => (scope.unary? name).isSome
  | .binary => (scope.binary? name).isSome

/-! ### Scopes that are laid over each other -/

@[simp]
theorem value?_within (narrow broad : Scope) (name : String) :
    (narrow.within broad).value? name = (narrow.value? name).or (broad.value? name) :=
  rfl

@[simp]
theorem unary?_within (narrow broad : Scope) (name : String) :
    (narrow.within broad).unary? name = (narrow.unary? name).or (broad.unary? name) :=
  rfl

@[simp]
theorem binary?_within (narrow broad : Scope) (name : String) :
    (narrow.within broad).binary? name = (narrow.binary? name).or (broad.binary? name) :=
  rfl

@[simp]
theorem within_empty (scope : Scope) : scope.within empty = scope := by
  ext <;> simp [empty]

@[simp]
theorem empty_within (scope : Scope) : empty.within scope = scope := by
  ext <;> simp [empty]

/-- Three scopes may be laid over each other in either order. -/
theorem within_assoc (narrow middle broad : Scope) :
    (narrow.within middle).within broad = narrow.within (middle.within broad) := by
  ext <;> simp [Option.or_assoc]

theorem not_knows_empty : ¬ empty.Knows kind name := by
  cases kind <;> simp [Knows, empty]

/-- A name has a meaning if it has one in either scope. -/
theorem knows_within_iff :
    (narrow.within broad).Knows kind name ↔ narrow.Knows kind name ∨ broad.Knows kind name := by
  cases kind <;> simp [Knows]

/-- A name has a meaning in a row of scopes if it has one in any of them. -/
theorem knows_foldr_within_iff (scopes : List Scope) :
    (scopes.foldr within empty).Knows kind name ↔ ∃ scope ∈ scopes, scope.Knows kind name := by
  induction scopes with
  | nil => simp [not_knows_empty]
  | cons first rest ih => simp [knows_within_iff, ih]

/-- Scopes that agree still do so over the same broad scope. -/
theorem AgreesAt.within (h : scope.AgreesAt other kind name) (broad : Scope) :
    (scope.within broad).AgreesAt (other.within broad) kind name := by
  cases kind with
  | value => exact congrArg (Option.or · (broad.value? name)) h
  | unary => exact congrArg (Option.or · (broad.unary? name)) h
  | binary => exact congrArg (Option.or · (broad.binary? name)) h

/-! ### Scopes that know more -/

/-- Whatever one scope knows has the same meaning in the other one. -/
def ExtendedBy (narrow wide : Scope) : Prop :=
  ∀ kind name, narrow.Knows kind name → narrow.AgreesAt wide kind name

/-- A variable keeps its value in a scope that knows more. -/
theorem ExtendedBy.value? (h : narrow.ExtendedBy wide) (hName : narrow.value? name = some value) :
    wide.value? name = some value := by
  have hKnows : narrow.Knows .value name := Option.isSome_of_eq_some hName
  exact (h .value name hKnows).symm.trans hName

theorem ExtendedBy.unary? (h : narrow.ExtendedBy wide) {function : UnaryFunction}
    (hName : narrow.unary? name = some function) : wide.unary? name = some function := by
  have hKnows : narrow.Knows .unary name := Option.isSome_of_eq_some hName
  exact (h .unary name hKnows).symm.trans hName

theorem ExtendedBy.binary? (h : narrow.ExtendedBy wide) {function : BinaryFunction}
    (hName : narrow.binary? name = some function) : wide.binary? name = some function := by
  have hKnows : narrow.Knows .binary name := Option.isSome_of_eq_some hName
  exact (h .binary name hKnows).symm.trans hName

/-- What the wider scope does not know, the narrower one does not know either. -/
theorem eq_none_of_extended {α : Type} {meaning meaning' : Option α}
    (h : ∀ {a}, meaning = some a → meaning' = some a) (hMissing : meaning' = none) :
    meaning = none := by
  rw [Option.eq_none_iff_forall_ne_some]
  intro a hKnown
  exact absurd hMissing (Option.ne_none_iff_exists'.mpr ⟨a, h hKnown⟩)

/-! ### Bindings -/

/-- A binding hides no other variable and no function. -/
theorem agreesAt_binding (h : ¬ (kind = .value ∧ key = name)) :
    scope.AgreesAt ((binding name value).within scope) kind key := by
  cases kind with
  | value =>
      have hOther : key ≠ name := fun hName => h ⟨rfl, hName⟩
      simp [AgreesAt, binding, hOther]
  | unary => simp [AgreesAt, binding, empty]
  | binary => simp [AgreesAt, binding, empty]

/-- To bind a variable that was not known takes no meaning away. -/
theorem extendedBy_binding (h : ¬ scope.Knows .value name) :
    scope.ExtendedBy ((binding name value).within scope) := by
  intro kind key hKnows
  apply agreesAt_binding
  rintro ⟨rfl, rfl⟩
  exact h hKnows

/-- Bindings of different variables do not hide each other. -/
theorem binding_within_binding {other : String} (h : name ≠ other) :
    (binding name value).within ((binding other value').within scope) =
      (binding other value').within ((binding name value).within scope) := by
  ext key : 2
  · by_cases hName : key = name
    · subst hName
      simp [binding, h]
    · simp [binding, hName]
  · simp [binding, empty]
  · simp [binding, empty]

end Scope

/-! ### Scopes of tables -/

namespace SymbolTable

/-- A new meaning of one name leaves those of all others alone. -/
theorem getElem?_insert_of_ne {α : Type} (h : key ≠ name) (names : NameMap α) (meaning : α) :
    (names.insert name meaning)[key]? = names[key]? := by
  simp [Std.TreeMap.getElem?_insert, h.symm]

theorem scope_empty : empty.scope = .empty := by
  ext <;> simp [SymbolTable.scope, empty, Scope.empty]

/-- Merging lays the entries of the second table over those of the first one. -/
theorem scope_extend (table other : SymbolTable) :
    (table.extend other).scope = other.scope.within table.scope := by
  ext <;> simp [SymbolTable.scope, extend, Std.TreeMap.getElem?_union]

/-- A variable that is given a value is bound before all other symbols of the table. -/
theorem scope_withVariable (table : SymbolTable) (name : String) (value : Float) :
    (table.withVariable name value).scope = (Scope.binding name value).within table.scope := by
  ext key : 2
  · by_cases hName : key = name
    · subst hName
      simp [SymbolTable.scope, withVariable, Scope.binding]
    · simp [SymbolTable.scope, withVariable, Scope.binding, getElem?_insert_of_ne hName, hName]
  · simp [SymbolTable.scope, withVariable, Scope.binding, Scope.empty]
  · simp [SymbolTable.scope, withVariable, Scope.binding, Scope.empty]

/-- The table of a single variable gives the same meanings as a binding. -/
theorem scope_ofVariables_singleton (name : String) (value : Float) :
    (ofVariables [(name, value)]).scope = Scope.binding name value := by
  have hTable : ofVariables [(name, value)] = empty.withVariable name value := rfl
  rw [hTable, scope_withVariable, scope_empty, Scope.within_empty]

end SymbolTable

end Scopes

/-! The layers of symbols that an evaluation goes through, and the single table that they amount to.
Nothing is copied where the layers are looked through one after another, and still every name has the
meaning that it has in the merged table. -/

/-- The symbols that an evaluation goes by, from the narrowest to the broadest. A binding and a table
may be given for this evaluation only. They come before the symbols that belong to what is evaluated,
and those before the symbols that are always known. -/
structure Layers where
  binding? : Option (String × Float)
  given? : Option SymbolTable
  own : SymbolTable
  always : SymbolTable

namespace Layers

variable {layers : Layers} {kind : NameKind} {name : String}

def scopes (layers : Layers) : List Scope :=
  (layers.binding?.map fun bound => Scope.binding bound.1 bound.2).toList ++
    (layers.given?.map SymbolTable.scope).toList ++ [layers.own.scope, layers.always.scope]

/-- The meanings that names have where the layers are looked through one after another. -/
def scope (layers : Layers) : Scope :=
  layers.scopes.foldr Scope.within .empty

def Define (layers : Layers) (kind : NameKind) (name : String) : Prop :=
  ∃ scope ∈ layers.scopes, scope.Knows kind name

/-- The scope of some layers knows what any of the layers defines. -/
theorem knows_scope_iff : layers.scope.Knows kind name ↔ layers.Define kind name :=
  Scope.knows_foldr_within_iff layers.scopes

/-! ### The layers as one table -/

variable (own given always : SymbolTable) (value : Float)

/-- The layers of a value without further symbols are those of one merged table. -/
theorem scope_own : (⟨none, none, own, always⟩ : Layers).scope = (always.extend own).scope := by
  rw [SymbolTable.scope_extend]
  simp [scope, scopes]

theorem scope_given : (⟨none, some given, own, always⟩ : Layers).scope =
    given.scope.within (⟨none, none, own, always⟩ : Layers).scope := by
  simp [scope, scopes]

/-- A binding is laid over all tables. -/
theorem scope_binding (given? : Option SymbolTable) (name : String) :
    (⟨some (name, value), given?, own, always⟩ : Layers).scope =
      (Scope.binding name value).within (⟨none, given?, own, always⟩ : Layers).scope := by
  simp [scope, scopes]

/-- A given table hides the entries of the other two, in whatever order the three are merged. -/
theorem scope_given_eq_extend : (⟨none, some given, own, always⟩ : Layers).scope =
    ((always.extend own).extend given).scope := by
  rw [scope_given, scope_own, SymbolTable.scope_extend _ given]

/-- Given symbols may as well be merged into the evaluator's own beforehand. -/
theorem scope_given_eq_extend_own : (⟨none, some given, own, always⟩ : Layers).scope =
    (always.extend (own.extend given)).scope := by
  rw [scope_given_eq_extend]
  simp only [SymbolTable.scope_extend, Scope.within_assoc]

/-- A binding does what is done by a table of its variable alone. -/
theorem scope_binding_eq_given (name : String) :
    (⟨some (name, value), none, own, always⟩ : Layers).scope =
      (⟨none, some (.ofVariables [(name, value)]), own, always⟩ : Layers).scope := by
  rw [scope_binding, scope_given, SymbolTable.scope_ofVariables_singleton]

/-- A binding gives a variable a new value in the merged table. -/
theorem scope_binding_eq_withVariable (name : String) :
    (⟨some (name, value), none, own, always⟩ : Layers).scope =
      ((always.extend own).withVariable name value).scope := by
  rw [scope_binding, scope_own, SymbolTable.scope_withVariable]

/-- With everything given, the layers come to one table that everything is merged into in turn. -/
theorem scope_all_eq_withVariable (name : String) :
    (⟨some (name, value), some given, own, always⟩ : Layers).scope =
      (((always.extend own).extend given).withVariable name value).scope := by
  rw [scope_binding, scope_given_eq_extend, SymbolTable.scope_withVariable]

end Layers

end Formula
