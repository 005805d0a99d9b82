import Mathlib.Data.Finset.Dedup
import Mathlib.Data.Finset.Card
import Formula.Proofs.Session.Recognition

/-! When a text is answered from the cache. Only expressions are kept, an assignment forgets them
all, and of the others the cache keeps those that were understood last. So it has a text exactly if
few enough other texts were understood since it was understood itself. -/

namespace Formula.Session

open Grammar

variable {session : Session} {text : String} {call : Call} {calls : List Call} {recent : List String}

def Call.expression? : Call → Option String
  | .parse text | .parse? text => if IsExpression text then some text else none
  | .setVariable _ _ | .value? _ => none

/-- Calls that give a value to a variable, by an assignment or directly. -/
def Call.Assigns : Call → Prop
  | .parse text | .parse? text => IsAssignment text
  | .setVariable _ _ => True
  | .value? _ => False

instance (call : Call) : Decidable call.Assigns := by
  cases call <;> unfold Call.Assigns <;> infer_instance

/-- A text is answered from the cache, as its events show. -/
def AnswersFromCache (session : Session) (text : String) : Prop :=
  .cacheHit text ∈ (session.parse text).2.events

theorem Call.not_assigns_of_expression? (h : call.expression? = some text) : ¬ call.Assigns := by
  cases call with
  | parse other | parse? other =>
      by_cases hOther : IsExpression other
      · exact hOther.not_isAssignment
      · simp [expression?, hOther] at h
  | setVariable | value? => simp [expression?] at h

/-! ### What a call does to the cache -/

/-- A text is answered from the cache if it is among its texts. -/
theorem answersFromCache_iff_mem_keys :
    session.AnswersFromCache text ↔ text ∈ session.cache.keys := by
  rw [AnswersFromCache, ← LruCache.isSome_find?_iff, parse]
  cases session.cache.find? text with
  | some kept => simp
  | none =>
      rcases read text with diagnostic | (⟨name, body⟩ | body)
      · simp
      · cases hValue : (session.evaluator body.expr).value <;> simp [assign, hValue]
      · simp

/-- The event of a hit shows just when a text is answered from the cache. -/
theorem cacheHit_mem_events_parse?_iff :
    .cacheHit text ∈ (session.parse? text).2.events ↔ session.AnswersFromCache text := by
  rw [AnswersFromCache, parse?]
  rcases session.parse text with ⟨next, outcome | made, events⟩ <;> simp

/-- Whether an expression was in the cache or is put into it, it is in front afterwards. -/
theorem keys_parse_of_isExpression (h : IsExpression text) :
    (session.parse text).1.cache.keys =
      (LruCache.moveToFront text session.cache.keys).take session.cache.capacity := by
  obtain ⟨body, hRead⟩ := h
  cases hFind : session.cache.find? text with
  | some kept => simp only [parse, hFind, LruCache.keys_insert]
  | none => simp only [parse, hFind, hRead, LruCache.keys_insert]

theorem capacity_parse : (session.parse text).1.cache.capacity = session.cache.capacity := by
  cases hFind : session.cache.find? text with
  | some kept => simp only [parse, hFind, LruCache.capacity_insert]
  | none =>
      simp only [parse, hFind]
      rcases read text with diagnostic | (⟨name, body⟩ | body)
      · rfl
      · rfl
      · rfl

theorem capacity_perform : (session.perform call).1.cache.capacity = session.cache.capacity := by
  cases call with
  | parse text => exact capacity_parse
  | parse? text => rw [perform, fst_parse?, capacity_parse]
  | setVariable name value => rfl
  | value? name => rfl

/-! ### The order of use -/

def Call.track (recent : List String) (call : Call) : List String :=
  if call.Assigns then []
  else match call.expression? with
    | some text => LruCache.moveToFront text recent
    | none => recent

theorem Call.track_of_assigns (h : call.Assigns) : call.track recent = [] :=
  if_pos h

theorem Call.track_of_expression? (hAssigns : ¬ call.Assigns) (h : call.expression? = some text) :
    call.track recent = LruCache.moveToFront text recent := by
  simp only [track, if_neg hAssigns, h]

/-- Any other call, such as one that is rejected, is no use of a text. -/
theorem Call.track_of_expression?_eq_none (hAssigns : ¬ call.Assigns) (h : call.expression? = none) :
    call.track recent = recent := by
  simp only [track, if_neg hAssigns, h]

theorem Call.nodup_track (h : recent.Nodup) : (call.track recent).Nodup := by
  by_cases hAssigns : call.Assigns
  · rw [track_of_assigns hAssigns]
    exact List.nodup_nil
  · cases hText : call.expression? with
    | some text =>
        rw [track_of_expression? hAssigns hText]
        exact LruCache.nodup_moveToFront h
    | none => rwa [track_of_expression?_eq_none hAssigns hText]

/-- The texts in the cache are the first ones of a list that forgets nothing for lack of room. -/
structure Tracks (session : Session) (recent : List String) : Prop where
  coherent : session.Coherent
  nodup : recent.Nodup
  keys : session.cache.keys = recent.take session.cache.capacity

/-- At first nothing was used and nothing is kept. -/
theorem tracks_new (symbols : SymbolTable) (capacity : Nat) : (new symbols capacity).Tracks [] :=
  ⟨coherent_after symbols capacity [], List.nodup_nil, List.take_nil.symm⟩

/-- The cache holds as many of the texts used last as it has room for. -/
theorem Tracks.keys_parse (h : session.Tracks recent) (text : String) :
    (session.parse text).1.cache.keys =
      ((Call.parse text).track recent).take session.cache.capacity := by
  by_cases hExpression : IsExpression text
  · have hAssigns : ¬ (Call.parse text).Assigns := hExpression.not_isAssignment
    have hUsed : (Call.parse text).expression? = some text := if_pos hExpression
    rw [keys_parse_of_isExpression hExpression, h.keys, LruCache.take_moveToFront_take text h.nodup,
      Call.track_of_expression? hAssigns hUsed]
  · have hUsed : (Call.parse text).expression? = none := if_neg hExpression
    by_cases hAssigns : (Call.parse text).Assigns
    · rw [h.coherent.cache_parse_of_isAssignment hAssigns, LruCache.keys_clear,
        Call.track_of_assigns hAssigns, List.take_nil]
    · rw [h.coherent.fst_parse_of_rejected hExpression hAssigns, h.keys,
        Call.track_of_expression?_eq_none hAssigns hUsed]

/-- The texts in the cache follow those of the calls, step by step. -/
theorem Tracks.perform (h : session.Tracks recent) (call : Call) :
    (session.perform call).1.Tracks (call.track recent) := by
  refine ⟨h.coherent.perform call, Call.nodup_track h.nodup, ?_⟩
  rw [capacity_perform]
  cases call with
  | parse text => exact h.keys_parse text
  | parse? text =>
      rw [Session.perform, fst_parse?]
      exact h.keys_parse text
  | setVariable name value =>
      have hAssigns : (Call.setVariable name value).Assigns := trivial
      rw [Call.track_of_assigns hAssigns, List.take_nil]
      rfl
  | value? name => exact h.keys

/-- So they do over any number of calls. -/
theorem Tracks.after (h : session.Tracks recent) (calls : List Call) :
    (session.after calls).Tracks (calls.foldl Call.track recent) := by
  induction calls generalizing session recent with
  | nil => exact h
  | cons call calls ih => exact ih (h.perform call)

theorem nodup_foldl_track (h : recent.Nodup) (calls : List Call) :
    (calls.foldl Call.track recent).Nodup := by
  induction calls generalizing recent with
  | nil => exact h
  | cons call calls ih => exact ih (Call.nodup_track h)

/-! ### The distance of a use -/

/-- As long as nothing is assigned and a text is not understood again, the texts before it are those
that were there already and those that were understood. -/
theorem exists_front_foldl_track {front back : List String} {later : List Call}
    (hLater : ∀ call ∈ later, call.expression? ≠ some text ∧ ¬ call.Assigns)
    (hNodup : (front ++ text :: back).Nodup) :
    ∃ front' back', later.foldl Call.track (front ++ text :: back) = front' ++ text :: back' ∧
      front'.toFinset = front.toFinset ∪ (later.filterMap Call.expression?).toFinset := by
  induction later generalizing front back with
  | nil => exact ⟨front, back, rfl, by simp⟩
  | cons call later ih =>
      obtain ⟨⟨hOther, hAssigns⟩, hMore⟩ := List.forall_mem_cons.mp hLater
      cases hUsed : call.expression? with
      | none =>
          rw [List.foldl_cons, Call.track_of_expression?_eq_none hAssigns hUsed,
            List.filterMap_cons_none hUsed]
          exact ih hMore hNodup
      | some used =>
          have hNe : text ≠ used := by
            rintro rfl
            exact hOther hUsed
          have hTrack : call.track (front ++ text :: back) =
              (used :: front.filter (· != used)) ++ text :: back.filter (· != used) := by
            rw [Call.track_of_expression? hAssigns hUsed]
            simp [LruCache.moveToFront, hNe]
          obtain ⟨front', back', hFold, hFront⟩ := ih hMore (hTrack ▸ Call.nodup_track hNodup)
          refine ⟨front', back', by rw [List.foldl_cons, hTrack, hFold], ?_⟩
          rw [hFront, List.filterMap_cons_some hUsed]
          ext other
          by_cases hEq : other = used <;> simp [hEq]

/-- A text that is tracked was understood, and after the last time no variable was given a value. -/
theorem exists_last_use (h : text ∈ calls.foldl Call.track []) :
    ∃ earlier latest later, calls = earlier ++ latest :: later ∧ latest.expression? = some text ∧
      ∀ call ∈ later, call.expression? ≠ some text ∧ ¬ call.Assigns := by
  induction calls using List.reverseRecOn with
  | nil => simp at h
  | append_singleton calls call ih =>
      rw [List.foldl_append, List.foldl_cons, List.foldl_nil] at h
      by_cases hAssigns : call.Assigns
      · simp [Call.track_of_assigns hAssigns] at h
      by_cases hUsed : call.expression? = some text
      · exact ⟨calls, call, [], rfl, hUsed, by simp⟩
      · have hBefore : text ∈ calls.foldl Call.track [] := by
          cases hOther : call.expression? with
          | none => rwa [Call.track_of_expression?_eq_none hAssigns hOther] at h
          | some other =>
              rw [Call.track_of_expression? hAssigns hOther] at h
              rcases List.mem_cons.mp h with rfl | h
              · exact absurd hOther hUsed
              · exact (List.mem_filter.mp h).1
        obtain ⟨earlier, latest, later, rfl, hLatest, hLater⟩ := ih hBefore
        refine ⟨earlier, latest, later ++ [call], by simp, hLatest, ?_⟩
        intro other hOther
        rcases List.mem_append.mp hOther with hOther | hOther
        · exact hLater other hOther
        · obtain rfl := List.mem_singleton.mp hOther
          exact ⟨hUsed, hAssigns⟩

theorem mem_take_append_cons_iff {front back : List String} (h : text ∉ front) (size : Nat) :
    text ∈ (front ++ text :: back).take size ↔ front.length < size := by
  rw [List.take_append, List.mem_append]
  constructor
  · rintro (hFront | hBack)
    · exact absurd (List.mem_of_mem_take hFront) h
    · by_contra hSize
      simp [Nat.sub_eq_zero_of_le (Nat.le_of_not_lt hSize)] at hBack
  · intro hSize
    obtain ⟨room, hRoom⟩ := Nat.exists_eq_succ_of_ne_zero (Nat.sub_ne_zero_of_lt hSize)
    rw [hRoom]
    exact Or.inr List.mem_cons_self

/-- After its last use, a text is preceded by the other texts that were understood since. -/
theorem mem_take_foldl_track_iff {earlier later : List Call} {latest : Call}
    (hLatest : latest.expression? = some text)
    (hLater : ∀ call ∈ later, call.expression? ≠ some text ∧ ¬ call.Assigns) (size : Nat) :
    text ∈ ((earlier ++ latest :: later).foldl Call.track []).take size ↔
      (later.filterMap Call.expression?).toFinset.card < size := by
  have hStart : latest.track (earlier.foldl Call.track []) =
      [] ++ text :: (earlier.foldl Call.track []).filter (· != text) :=
    Call.track_of_expression? (Call.not_assigns_of_expression? hLatest) hLatest
  obtain ⟨front, back, hFold, hFront⟩ := exists_front_foldl_track hLater
    (hStart ▸ Call.nodup_track (nodup_foldl_track List.nodup_nil earlier))
  have hWhole : (earlier ++ latest :: later).foldl Call.track [] = front ++ text :: back := by
    rw [List.foldl_append, List.foldl_cons, hStart, hFold]
  have hNodup : (front ++ text :: back).Nodup :=
    hWhole ▸ nodup_foldl_track List.nodup_nil (earlier ++ latest :: later)
  obtain ⟨hFrontNodup, -, hDisjoint⟩ := List.nodup_append.mp hNodup
  have hAbsent : text ∉ front := fun hMem => hDisjoint text hMem text List.mem_cons_self rfl
  rw [List.toFinset_nil, Finset.empty_union] at hFront
  rw [hWhole, mem_take_append_cons_iff hAbsent, ← hFront, List.toFinset_card_of_nodup hFrontNodup]

/-- The law of the cache, for any history of a session. A text is answered from the cache exactly if
it was understood as an expression before, no variable was given a value since the last time, and
since then fewer other expressions were understood than the cache has room for. Texts that are not
expressions are never answered from the cache, and it never outgrows its room. -/
theorem answersFromCache_iff (symbols : SymbolTable) (capacity : Nat) (calls : List Call) :
    let session := (new symbols capacity).after calls
    (∀ text, session.AnswersFromCache text ↔
      ∃ earlier latest later, calls = earlier ++ latest :: later ∧ latest.expression? = some text ∧
        (∀ call ∈ later, call.expression? ≠ some text ∧ ¬ call.Assigns) ∧
        (later.filterMap Call.expression?).toFinset.card < capacity) ∧
      (∀ text, .cacheHit text ∈ (session.parse? text).2.events ↔ session.AnswersFromCache text) ∧
      (∀ text, ¬ IsExpression text → ¬ session.AnswersFromCache text) ∧
      session.cache.entries.length ≤ capacity := by
  intro session
  have hTracks : session.Tracks (calls.foldl Call.track []) := (tracks_new symbols capacity).after calls
  have hCapacity : session.cache.capacity = capacity :=
    after_induction (fun session => session.cache.capacity = capacity) rfl
      (fun _ _ h => capacity_perform.trans h) calls
  have hKeys : session.cache.keys = (calls.foldl Call.track []).take capacity :=
    hCapacity ▸ hTracks.keys
  refine ⟨fun text => ?_, fun text => cacheHit_mem_events_parse?_iff, fun text hText hAnswers => ?_, ?_⟩
  · rw [answersFromCache_iff_mem_keys, hKeys]
    constructor
    · intro hMem
      obtain ⟨earlier, latest, later, rfl, hLatest, hLater⟩ :=
        exists_last_use (List.mem_of_mem_take hMem)
      exact ⟨earlier, latest, later, rfl, hLatest, hLater,
        (mem_take_foldl_track_iff hLatest hLater capacity).mp hMem⟩
    · rintro ⟨earlier, latest, later, rfl, hLatest, hLater, hCard⟩
      exact (mem_take_foldl_track_iff hLatest hLater capacity).mpr hCard
  · exact hText (hTracks.coherent.isExpression_of_mem_keys (answersFromCache_iff_mem_keys.mp hAnswers))
  · have hLength := congrArg List.length hKeys
    rw [LruCache.keys, List.length_map, List.length_take] at hLength
    omega

end Formula.Session
