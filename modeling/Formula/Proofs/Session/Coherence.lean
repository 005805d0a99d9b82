import Formula.Evaluation

/-! What a store may hold after an entry was used. It can forget entries, but it changes none, and
its texts are the first ones of all texts in the order of their last uses. -/

namespace Formula.LruCache

variable {α : Type} {cache : LruCache α} {key : String} {value : α} {entry : String × α}

/-- What is found under a text was put in under this text. -/
theorem mem_entries_of_find? (h : cache.find? key = some value) : (key, value) ∈ cache.entries := by
  obtain ⟨before, after, hEntries, _⟩ := List.lookup_eq_some_iff.mp h
  simp [hEntries]

/-- An insertion adds no entry but its own. -/
theorem mem_entries_of_insert (h : entry ∈ (cache.insert key value).entries) :
    entry = (key, value) ∨ entry ∈ cache.entries := by
  rcases List.mem_cons.mp (List.mem_of_mem_take h) with hUsed | hOther
  · exact Or.inl hUsed
  · exact Or.inr (List.mem_filter.mp hOther).1

@[simp]
theorem entries_empty {capacity : Nat} : (empty capacity : LruCache α).entries = [] :=
  rfl

@[simp]
theorem clear_empty {capacity : Nat} : (empty capacity : LruCache α).clear = empty capacity :=
  rfl

/-! ### The order of the texts -/

def keys (cache : LruCache α) : List String :=
  cache.entries.map Prod.fst

@[simp]
theorem keys_clear : cache.clear.keys = [] :=
  rfl

@[simp]
theorem capacity_clear : cache.clear.capacity = cache.capacity :=
  rfl

@[simp]
theorem capacity_insert : (cache.insert key value).capacity = cache.capacity :=
  rfl

theorem isSome_find?_iff : (cache.find? key).isSome ↔ key ∈ cache.keys := by
  simp [find?, keys, List.lookup_isSome_iff]

/-- Texts in the order of their last uses, after one more use of a text. Nothing is forgotten. -/
def moveToFront (key : String) (keys : List String) : List String :=
  key :: keys.filter (· != key)

/-- The text that is used comes to the front, and the last one drops out if there is no room. -/
theorem keys_insert :
    (cache.insert key value).keys = (moveToFront key cache.keys).take cache.capacity := by
  simp only [keys, insert, moveToFront, List.map_take, List.map_cons, List.filter_map]
  rfl

theorem nodup_moveToFront {keys : List String} (h : keys.Nodup) : (moveToFront key keys).Nodup := by
  refine List.nodup_cons.mpr ⟨?_, h.filter _⟩
  simp

/-- Filtering before or after a cut makes a difference of one text, if the filter rejects no more
than one. -/
theorem take_filter_take_succ (key : String) {keys : List String} (h : keys.Nodup) (size : Nat) :
    ((keys.take (size + 1)).filter (· != key)).take size = (keys.filter (· != key)).take size := by
  induction keys generalizing size with
  | nil => rfl
  | cons first keys ih =>
      obtain ⟨hFirst, hKeys⟩ := List.nodup_cons.mp h
      by_cases hKey : first = key
      · subst hKey
        have hOthers : keys.filter (· != first) = keys :=
          List.filter_eq_self.mpr fun other hOther => by
            simpa using ne_of_mem_of_not_mem hOther hFirst
        have hTaken : (keys.take size).filter (· != first) = keys.take size :=
          List.filter_eq_self.mpr fun other hOther => by
            simpa using ne_of_mem_of_not_mem (List.mem_of_mem_take hOther) hFirst
        simp [hOthers, hTaken, List.take_take]
      · cases size with
        | zero => simp
        | succ size => simp [hKey, ih hKeys]

/-- What a store has forgotten does not show in what it keeps after the next use. -/
theorem take_moveToFront_take (key : String) {keys : List String} (h : keys.Nodup) (size : Nat) :
    (moveToFront key (keys.take size)).take size = (moveToFront key keys).take size := by
  cases size with
  | zero => rfl
  | succ size => simp only [moveToFront, List.take_succ_cons, take_filter_take_succ key h]

end Formula.LruCache

/-! The calls that a caller makes of a session, one after another. -/

namespace Formula.Session

inductive Call where
  | parse (text : String)
  | parse? (text : String)
  | setVariable (name : String) (value : Float)
  | value? (name : String)

/-- What the caller gets to see. Events are not part of an answer. -/
inductive Answer where
  | parsed (outcome : Except Diagnostic Evaluator)
  | parsed? (outcome : Option Evaluator)
  | done
  | value? (value : Option Float)

def perform (session : Session) : Call → Session × Answer
  | .parse text => ((session.parse text).1, .parsed (session.parse text).2.answer)
  | .parse? text => ((session.parse? text).1, .parsed? (session.parse? text).2.answer)
  | .setVariable name value => (session.setVariable name value, .done)
  | .value? name => (session, .value? (session.value? name))

def after (session : Session) : List Call → Session
  | [] => session
  | call :: calls => (session.perform call).1.after calls

/-- The answers to some calls, each with the symbols of the session after it. -/
def trace (session : Session) : List Call → List (Answer × SymbolTable)
  | [] => []
  | call :: calls =>
    ((session.perform call).2, (session.perform call).1.symbols) ::
      (session.perform call).1.trace calls

variable {session other : Session} {text : String}

@[simp]
theorem fst_parse? : (session.parse? text).1 = (session.parse text).1 := by
  unfold parse?
  rcases session.parse text with ⟨next, outcome | made, events⟩ <;> rfl

/-- They answer alike, except that the reason of a rejection is left out in one of them. -/
@[simp]
theorem answer_parse? : (session.parse? text).2.answer = (session.parse text).2.answer.toOption := by
  unfold parse?
  rcases session.parse text with ⟨next, outcome | made, events⟩ <;> rfl

/-- What every call preserves holds after any number of calls. -/
theorem after_induction (invariant : Session → Prop) (hStart : invariant session)
    (hStep : ∀ (session : Session) (call : Call), invariant session →
      invariant (session.perform call).1) (calls : List Call) : invariant (session.after calls) := by
  induction calls generalizing session with
  | nil => exact hStart
  | cons call calls ih => exact ih (hStep session call hStart)

/-! The cache gives the evaluators that would be made anew. Every change of the symbols forgets all of
them, so that this stays so. -/

/-- Every evaluator that was kept is the one that its text has under the symbols of now. -/
def Coherent (session : Session) : Prop :=
  ∀ entry ∈ session.cache.entries, ∃ body, Grammar.read entry.1 = .ok (.expression body) ∧
    entry.2 = session.evaluator body.expr

/-- What is done to the symbols and answered once a text was read. -/
def outcome (session : Session) :
    Except Diagnostic Grammar.Statement → SymbolTable × Except Diagnostic Evaluator
  | .error diagnostic => (session.symbols, .error diagnostic)
  | .ok (.expression body) => (session.symbols, .ok (session.evaluator body.expr))
  | .ok (.assignment name body) =>
    ((session.assign name body.expr).1.symbols, .ok (session.assign name body.expr).2.answer)

/-- What a text does to the symbols and what it is answered with, if nothing is kept. -/
def fresh (session : Session) (text : String) : SymbolTable × Except Diagnostic Evaluator :=
  session.outcome (Grammar.read text)

/-- What a text would be understood as without a cache depends on the symbols only. -/
theorem fresh_congr (h : session.symbols = other.symbols) : session.fresh text = other.fresh text := by
  have hScope : session.scope = other.scope := by rw [scope, scope, h]
  rw [fresh, fresh]
  rcases Grammar.read text with diagnostic | (⟨name, body⟩ | body) <;>
    simp only [outcome, assign, setVariable, evaluator, hScope, h]

/-- A cache without entries cannot be wrong. -/
theorem coherent_of_entries_eq_nil (h : session.cache.entries = []) : session.Coherent := by
  simp [Coherent, h]

/-- A session that keeps one more evaluator of now is coherent. -/
theorem Coherent.insert (h : session.Coherent) {body : Grammar.Reading}
    (hRead : Grammar.read text = .ok (.expression body)) :
    Coherent { session with cache := session.cache.insert text (session.evaluator body.expr) } := by
  intro entry hEntry
  rcases LruCache.mem_entries_of_insert hEntry with rfl | hOld
  · exact ⟨body, hRead, rfl⟩
  · exact h entry hOld

/-- The cache of a coherent session does not show in an answer. -/
theorem Coherent.parse_eq_fresh (h : session.Coherent) (text : String) :
    ((session.parse text).1.symbols, (session.parse text).2.answer) = session.fresh text := by
  cases hFind : session.cache.find? text with
  | some kept =>
      obtain ⟨body, hRead, rfl⟩ := h _ (LruCache.mem_entries_of_find? hFind)
      simp only [parse, fresh, outcome, hFind, hRead]
  | none =>
      simp only [parse, fresh, hFind]
      cases hRead : Grammar.read text with
      | error diagnostic => rfl
      | ok found => cases found <;> rfl

/-- A text that is understood anew is kept with the evaluator made for it, and an assignment forgets
them all. -/
theorem Coherent.parse (h : session.Coherent) (text : String) : (session.parse text).1.Coherent := by
  cases hFind : session.cache.find? text with
  | some kept =>
      obtain ⟨body, hRead, rfl⟩ := h _ (LruCache.mem_entries_of_find? hFind)
      simp only [Session.parse, hFind]
      exact h.insert hRead
  | none =>
      simp only [Session.parse, hFind]
      cases hRead : Grammar.read text with
      | error diagnostic => exact h
      | ok found =>
          cases found with
          | expression body => exact h.insert hRead
          | assignment name body => exact coherent_of_entries_eq_nil rfl

theorem Coherent.perform (h : session.Coherent) (call : Call) :
    (session.perform call).1.Coherent := by
  cases call with
  | parse text => exact h.parse text
  | parse? text =>
      rw [Session.perform, fst_parse?]
      exact h.parse text
  | setVariable name value => exact coherent_of_entries_eq_nil rfl
  | value? name => exact h

/-- Sessions are coherent at any time. -/
theorem coherent_after (symbols : SymbolTable) (capacity : Nat) (calls : List Call) :
    ((new symbols capacity).after calls).Coherent :=
  after_induction Coherent (coherent_of_entries_eq_nil rfl) (fun _ call h => h.perform call) calls

/-- Coherent sessions with the same symbols answer a call alike, and have the same symbols after it. -/
theorem Coherent.perform_eq (hFirst : session.Coherent) (hSecond : other.Coherent)
    (h : session.symbols = other.symbols) (call : Call) :
    (session.perform call).2 = (other.perform call).2 ∧
      (session.perform call).1.symbols = (other.perform call).1.symbols := by
  have hParse (text : String) : ((session.parse text).1.symbols, (session.parse text).2.answer) =
      ((other.parse text).1.symbols, (other.parse text).2.answer) := by
    rw [hFirst.parse_eq_fresh, hSecond.parse_eq_fresh, fresh_congr h]
  cases call with
  | parse text =>
      obtain ⟨hSymbols, hAnswer⟩ := Prod.mk.inj (hParse text)
      simp only [Session.perform, hSymbols, hAnswer, and_self]
  | parse? text =>
      obtain ⟨hSymbols, hAnswer⟩ := Prod.mk.inj (hParse text)
      simp only [Session.perform, fst_parse?, answer_parse?, hSymbols, hAnswer, and_self]
  | setVariable name value => simp only [Session.perform, setVariable, h, and_self]
  | value? name => simp only [Session.perform, Session.value?, scope, h, and_self]

/-- Sessions with the same symbols give the same answers to the same calls, whatever is in their
caches. -/
theorem Coherent.trace_eq (hFirst : session.Coherent) (hSecond : other.Coherent)
    (h : session.symbols = other.symbols) (calls : List Call) :
    session.trace calls = other.trace calls := by
  induction calls generalizing session other with
  | nil => rfl
  | cons call calls ih =>
      obtain ⟨hAnswer, hSymbols⟩ := hFirst.perform_eq hSecond h call
      rw [trace, trace, hAnswer, hSymbols, ih (hFirst.perform call) (hSecond.perform call) hSymbols]

/-- Without room for an evaluator no text is ever answered from the cache. -/
theorem isCached_after_eq_false (symbols : SymbolTable) (calls : List Call) (text : String) :
    ((new symbols 0).after calls).isCached text = false := by
  have hEmpty : ((new symbols 0).after calls).cache = .empty 0 := by
    refine after_induction (fun session => session.cache = .empty 0) rfl ?_ calls
    intro session call h
    have hParse (text : String) : (session.parse text).1.cache = .empty 0 := by
      simp only [parse, h, LruCache.find?, LruCache.entries_empty, List.lookup_nil]
      cases Grammar.read text with
      | error diagnostic => exact h
      | ok found =>
          cases found with
          | expression body => rfl
          | assignment name body => simp [assign, setVariable, h]
    cases call with
    | parse text => exact hParse text
    | parse? text =>
        rw [Session.perform, fst_parse?]
        exact hParse text
    | setVariable name value => simp [Session.perform, setVariable, h]
    | value? name => exact h
  simp [isCached, hEmpty, LruCache.find?]

/-- No caller can tell how much a session keeps. A session that keeps nothing gives the same answers
to the same calls, and has the same symbols after each of them. -/
theorem trace_eq_trace_uncached (symbols : SymbolTable) (capacity : Nat) (calls : List Call) :
    (new symbols capacity).trace calls = (new symbols 0).trace calls :=
  (coherent_after symbols capacity []).trace_eq (coherent_after symbols 0 []) rfl calls

end Formula.Session
