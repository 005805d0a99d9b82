import Mathlib.Data.List.Infix
import Formula.Proofs.Grammar.Recognition
import Formula.Proofs.Grammar.Viability
import Formula.Proofs.Session.Coherence

/-! Places in a text, counted from what stands before them. -/

namespace Formula.Text

theorem lastLine_append_singleton (text : List Char) (c : Char) :
    lastLine (text ++ [c]) = if c = '\n' then [] else lastLine text ++ [c] := by
  by_cases h : c = '\n' <;> simp [lastLine, h]

/-- Before its last line a text has whole lines only, each with its line feed. -/
theorem exists_lines_append_lastLine (text : List Char) :
    ∃ lines, text = lines ++ lastLine text ∧ (lines = [] ∨ ∃ earlier, lines = earlier ++ ['\n']) ∧
      '\n' ∉ lastLine text := by
  induction text using List.reverseRecOn with
  | nil => exact ⟨[], rfl, Or.inl rfl, by simp [lastLine]⟩
  | append_singleton text c ih =>
      rw [lastLine_append_singleton]
      by_cases hFeed : c = '\n'
      · rw [if_pos hFeed, hFeed]
        exact ⟨text ++ ['\n'], (List.append_nil _).symm, Or.inr ⟨text, rfl⟩, List.not_mem_nil⟩
      · obtain ⟨lines, hText, hLines, hLast⟩ := ih
        rw [if_neg hFeed]
        refine ⟨lines, ?_, hLines, ?_⟩
        · rw [← List.append_assoc, ← hText]
        · simp [hLast, Ne.symm hFeed]

namespace Position

theorem after_append_singleton (text : List Char) (c : Char) :
    after (text ++ [c]) = (after text).advance c := by
  rw [after, List.foldl_append]
  rfl

/-- Every line feed before a place starts one more line. -/
theorem line_after (text : List Char) : (after text).line = 1 + text.count '\n' := by
  induction text using List.reverseRecOn with
  | nil => rfl
  | append_singleton text c ih =>
      rw [after_append_singleton, advance, List.count_append]
      by_cases hFeed : c = '\n' <;> simp [hFeed, ih, Nat.add_assoc]

/-- A column is counted in characters from the last line feed on. -/
theorem column_after (text : List Char) : (after text).column = 1 + (lastLine text).length := by
  induction text using List.reverseRecOn with
  | nil => rfl
  | append_singleton text c ih =>
      rw [after_append_singleton, advance, lastLine_append_singleton]
      by_cases hFeed : c = '\n' <;> simp [hFeed, ih, Nat.add_assoc]

/-- Offsets count the bytes of a text, whatever its lines are. -/
theorem offset_after (text : List Char) :
    (after text).offset = (String.ofList text).utf8ByteSize := by
  induction text using List.reverseRecOn with
  | nil => rfl
  | append_singleton text c ih =>
      have hAdvance (place : Position) : (place.advance c).offset = place.offset + c.utf8Size := by
        unfold advance
        split <;> rfl
      rw [after_append_singleton, hAdvance, ih, String.ofList_append, String.utf8ByteSize_append]
      simp

/-- The line and the column after a text say where its last line begins. -/
theorem line_column_after (text : List Char) :
    (after text).line = 1 + text.count '\n' ∧
      ∃ lines current : String, String.ofList text = lines ++ current ∧
        (lines = "" ∨ ∃ earlier, lines = earlier ++ "\n") ∧ '\n' ∉ current.toList ∧
        (after text).column = 1 + current.length := by
  obtain ⟨lines, hText, hLines, hLast⟩ := exists_lines_append_lastLine text
  refine ⟨line_after text, String.ofList lines, String.ofList (lastLine text), ?_, ?_, ?_, ?_⟩
  · rw [← String.ofList_append, ← hText]
  · rcases hLines with rfl | ⟨earlier, rfl⟩
    · exact Or.inl rfl
    · exact Or.inr ⟨String.ofList earlier, String.ofList_append⟩
  · rwa [String.toList_ofList]
  · rw [column_after, String.length_ofList]

end Position

/-- The front part of a text is known by the number of its bytes. -/
theorem eq_of_append_eq_append {before after before' after' : String}
    (h : before ++ after = before' ++ after') (hSize : before.utf8ByteSize = before'.utf8ByteSize) :
    before = before' := by
  have hEnd : before.rawEndPos = before'.rawEndPos := String.Pos.Raw.ext hSize
  have hValid : before.rawEndPos.IsValid (before ++ after) :=
    String.Pos.Raw.isValid_iff_exists_append.mpr ⟨before, after, rfl, rfl⟩
  have hSplits : String.Pos.Splits ⟨before.rawEndPos, hValid⟩ before after := ⟨rfl, rfl⟩
  have hSplits' : String.Pos.Splits ⟨before.rawEndPos, hValid⟩ before' after' := ⟨h, hEnd⟩
  exact hSplits.eq_left hSplits'

end Formula.Text

/-! Texts that are rejected. They leave a session exactly as it was, the order of use of its cache
included, so that a history reads the same whether or not they were part of it. -/

namespace Formula.Session

variable {session : Session} {call : Call} {text : String}

/-- A call asks for a text to be understood, and the text is rejected. -/
def Rejects (session : Session) : Call → Prop
  | .parse text => ∃ diagnostic, (session.parse text).2.answer = .error diagnostic
  | .parse? text => (session.parse? text).2.answer = none
  | .setVariable _ _ | .value? _ => False

/-- The events of a call. They tell whether a text was answered from the cache. -/
def events (session : Session) : Call → List Event
  | .parse text => (session.parse text).2.events
  | .parse? text => (session.parse? text).2.events
  | .setVariable _ _ | .value? _ => []

/-- All that there is to know about one call in a history. -/
structure Exchange where
  call : Call
  answer : Answer
  events : List Event
  next : Session

def exchange (session : Session) (call : Call) : Exchange :=
  ⟨call, (session.perform call).2, session.events call, (session.perform call).1⟩

def history (session : Session) : List Call → List Exchange
  | [] => []
  | call :: calls => session.exchange call :: (session.perform call).1.history calls

/-- What stays of a list in which some entries are marked to be kept. -/
def kept {α : Type} (marked : List (α × Bool)) : List α :=
  (marked.filter Prod.snd).map Prod.fst

/-- Every call that is not marked to be kept is rejected where it stands. -/
def DropsRejected (session : Session) : List (Call × Bool) → Prop
  | [] => True
  | (call, keeps) :: marked =>
    (keeps = false → session.Rejects call) ∧ (session.perform call).1.DropsRejected marked

/-- An error comes only from reading a text that is not in the cache, before anything is done. -/
theorem parse_of_error {diagnostic : Diagnostic}
    (h : (session.parse text).2.answer = .error diagnostic) :
    Grammar.read text = .error diagnostic ∧ (session.parse text).1 = session := by
  unfold parse at h ⊢
  cases hFind : session.cache.find? text with
  | some kept => simp [hFind] at h
  | none =>
      cases hRead : Grammar.read text with
      | error found =>
          simp only [hFind, hRead, Except.error.injEq] at h
          subst h
          exact ⟨rfl, rfl⟩
      | ok found => cases found <;> simp [hFind, hRead] at h

theorem Rejects.fst_perform (h : session.Rejects call) : (session.perform call).1 = session := by
  cases call with
  | parse text =>
      obtain ⟨diagnostic, hAnswer⟩ := h
      exact (parse_of_error hAnswer).2
  | parse? text =>
      rw [Rejects, answer_parse?] at h
      rw [perform, fst_parse?]
      cases hAnswer : (session.parse text).2.answer with
      | error diagnostic => exact (parse_of_error hAnswer).2
      | ok made => simp [hAnswer, Except.toOption] at h
  | setVariable name value => exact absurd h id
  | value? name => exact absurd h id

/-- A history without some of its rejected calls ends in the same session, and all its other entries
are as before. -/
theorem DropsRejected.history_kept {marked : List (Call × Bool)} (h : session.DropsRejected marked) :
    session.after (kept marked) = session.after (marked.map Prod.fst) ∧
      session.history (kept marked) =
        kept ((session.history (marked.map Prod.fst)).zip (marked.map Prod.snd)) := by
  induction marked generalizing session with
  | nil => exact ⟨rfl, rfl⟩
  | cons entry marked ih =>
      obtain ⟨call, keeps⟩ := entry
      obtain ⟨hDropped, hLater⟩ := h
      obtain ⟨hAfter, hHistory⟩ := ih hLater
      cases keeps with
      | true =>
          refine ⟨hAfter, ?_⟩
          show session.exchange call :: (session.perform call).1.history (kept marked) = _
          rw [hHistory]
          rfl
      | false =>
          -- The call before the rest of the history is not there any more, and changed nothing.
          have hSame : (session.perform call).1 = session := (hDropped rfl).fst_perform
          rw [hSame] at hAfter hHistory
          constructor
          · show session.after (kept marked) = (session.perform call).1.after (marked.map Prod.fst)
            rw [hSame, hAfter]
          · show session.history (kept marked) =
              kept (((session.perform call).1.history (marked.map Prod.fst)).zip
                (marked.map Prod.snd))
            rw [hSame, hHistory]

/-- A rejected text leaves no trace, whatever the session and its cache hold. Any of the rejected texts
may be left out of a history: all other calls get the same answers, the same of them are answered from
the cache, and they leave the same sessions. -/
theorem rejected_leaves_no_trace (session : Session) :
    (∀ text diagnostic, (session.parse text).2.answer = .error diagnostic →
      (session.parse text).1 = session) ∧
    (∀ text, (session.parse? text).2.answer = none → (session.parse? text).1 = session) ∧
    ∀ marked : List (Call × Bool), session.DropsRejected marked →
      session.after (kept marked) = session.after (marked.map Prod.fst) ∧
        session.history (kept marked) =
          kept ((session.history (marked.map Prod.fst)).zip (marked.map Prod.snd)) := by
  refine ⟨fun text diagnostic h => (parse_of_error h).2, fun text h => ?_, fun marked h => ?_⟩
  · have hRejects : session.Rejects (.parse? text) := h
    exact hRejects.fst_perform
  · exact h.history_kept

/-- A rejected text between two uses of the same text does not push it out of a cache of one entry. -/
theorem rejected_leaves_no_trace_unclosed :
    let session := new .empty 1
    let marked : List (Call × Bool) :=
      [(.parse "x", true), (.parse "x = (", false), (.parse? "y)", false), (.parse "x", true)]
    session.DropsRejected marked ∧
      session.history [.parse "x", .parse "x"] =
        kept ((session.history (marked.map Prod.fst)).zip (marked.map Prod.snd)) := by
  intro session marked
  have hDrops : session.DropsRejected marked :=
    ⟨nofun, fun _ => ⟨_, rfl⟩, fun _ => rfl, nofun, trivial⟩
  exact ⟨hDrops, ((rejected_leaves_no_trace session).2.2 marked hDrops).2⟩

end Formula.Session

/-! What a session says about a text that it rejects. -/

namespace Formula

open Grammar

/-- The first line of a rendered diagnostic states the place, and its third line begins with the
number of the line that is shown. -/
theorem Diagnostic.exists_render_eq_append (diagnostic : Diagnostic) :
    ∃ margin source : String, Blank margin.toList ∧
      diagnostic.render = margin ++ "--> " ++ toString diagnostic.position.line ++ ":" ++
        toString diagnostic.position.column ++ "\n" ++ margin ++ " |\n" ++
        toString diagnostic.position.line ++ " | " ++ source := by
  let margin := String.ofList (List.replicate (toString diagnostic.position.line).length ' ')
  have hBlank : Blank margin.toList := by
    intro c hMem
    rw [String.toList_ofList] at hMem
    obtain rfl := List.eq_of_mem_replicate hMem
    decide
  obtain ⟨source, hRender⟩ : ∃ source, diagnostic.render =
      margin ++ ("--> " ++ (toString diagnostic.position.line ++ (":" ++
        (toString diagnostic.position.column ++ ("\n" ++ (margin ++ (" |" ++ ("\n" ++
          (toString diagnostic.position.line ++ (" | " ++ source)))))))))) := by
    simp only [Diagnostic.render, String.intercalate_cons_cons, String.append_assoc]
    exact ⟨_, rfl⟩
  refine ⟨margin, source, hBlank, ?_⟩
  simp only [hRender, String.append_assoc]
  rfl

namespace Session

variable {session : Session} {text : String}

/-- Whatever a session keeps, it accepts the texts of the grammar. -/
theorem exists_answer_of_yields {sentence : Sentence} (session : Session)
    (h : sentence.Yields text.toList) : ∃ made, (session.parse text).2.answer = .ok made := by
  cases hAnswer : (session.parse text).2.answer with
  | ok made => exact ⟨made, rfl⟩
  | error diagnostic =>
      obtain ⟨found, hRead, _⟩ := exists_read_of_yields h
      have hError := (parse_of_error hAnswer).1
      simp [hRead] at hError

/-- A rejected text can be read as far as its diagnostic says. There is a text that can take the place
of what comes after that, and with it every session accepts the text. -/
theorem exists_accepted_continuation (session : Session) (text : String) (diagnostic : Diagnostic)
    (h : (session.parse text).2.answer = .error diagnostic) :
    ∃ before after : String, text = before ++ after ∧
      before.utf8ByteSize = diagnostic.position.offset ∧
      ∃ more : String, ∀ other : Session, ∃ made,
        (other.parse (before ++ more)).2.answer = .ok made := by
  obtain ⟨hText, more, sentence, hYields⟩ := beginsSentence_of_read_eq_error (parse_of_error h).1
  refine ⟨String.ofList diagnostic.before, String.ofList diagnostic.after, ?_,
    (Text.Position.offset_after _).symm, String.ofList more, fun other => ?_⟩
  · rw [← String.ofList_append, ← hText, String.ofList_toList]
  · rw [← String.ofList_append]
    rw [← String.toList_ofList (l := diagnostic.before ++ more)] at hYields
    exact other.exists_answer_of_yields hYields

/-- The text `f(` is rejected at its end, and something can be written there. -/
theorem exists_accepted_continuation_unclosed :
    ∃ diagnostic, ((new .empty 1).parse "f(").2.answer = .error diagnostic ∧
      diagnostic.position.offset = 2 ∧
      ∃ before after : String, "f(" = before ++ after ∧
        before.utf8ByteSize = diagnostic.position.offset ∧
        ∃ more : String, ∀ other : Session, ∃ made,
          (other.parse (before ++ more)).2.answer = .ok made := by
  obtain ⟨diagnostic, hRejected, hPosition⟩ :
      ∃ diagnostic, ((new .empty 1).parse "f(").2.answer = .error diagnostic ∧
        diagnostic.position.offset = 2 := ⟨_, rfl, rfl⟩
  exact ⟨diagnostic, hRejected, hPosition, exists_accepted_continuation _ _ _ hRejected⟩

/-- The parts of a diagnostic's place say the same in bytes, lines and columns, and the message states
the line and the column twice. -/
theorem rejected_place (session : Session) (text : String) (diagnostic : Diagnostic)
    (h : (session.parse text).2.answer = .error diagnostic) :
    let place := diagnostic.position
    place.offset ≤ text.utf8ByteSize ∧ (⟨place.offset⟩ : String.Pos.Raw).IsValid text ∧
      (∀ before after : String, text = before ++ after → before.utf8ByteSize = place.offset →
        place.line = 1 + before.toList.count '\n' ∧
          ∃ lines current : String, before = lines ++ current ∧
            (lines = "" ∨ ∃ earlier, lines = earlier ++ "\n") ∧ '\n' ∉ current.toList ∧
            place.column = 1 + current.length) ∧
      diagnostic.message = "Parse failure at " ++ toString place.line ++ ":" ++
        toString place.column ++ ": " ++ diagnostic.render ∧
      ∃ margin source : String, Blank margin.toList ∧
        diagnostic.render = margin ++ "--> " ++ toString place.line ++ ":" ++
          toString place.column ++ "\n" ++ margin ++ " |\n" ++ toString place.line ++ " | " ++
          source := by
  intro place
  obtain ⟨hText, -⟩ := beginsSentence_of_read_eq_error (parse_of_error h).1
  have hSplit : text = String.ofList diagnostic.before ++ String.ofList diagnostic.after := by
    rw [← String.ofList_append, ← hText, String.ofList_toList]
  have hOffset : place.offset = (String.ofList diagnostic.before).utf8ByteSize :=
    Text.Position.offset_after _
  have hValid : (⟨place.offset⟩ : String.Pos.Raw).IsValid text :=
    String.Pos.Raw.isValid_iff_exists_append.mpr ⟨_, _, hSplit, by rw [hOffset]; rfl⟩
  refine ⟨hValid.le_utf8ByteSize, hValid, ?_, rfl, diagnostic.exists_render_eq_append⟩
  intro before after hAppend hSize
  obtain rfl : before = String.ofList diagnostic.before :=
    Text.eq_of_append_eq_append (hAppend.symm.trans hSplit) (hSize.trans hOffset)
  rw [String.toList_ofList]
  exact Text.Position.line_column_after diagnostic.before

/-- A carriage return and line feed end one line, and a letter of two bytes is one column. -/
theorem rejected_place_line_end :
    ∃ diagnostic, ((new .empty 1).parse "é\r\n+").2.answer = .error diagnostic ∧
      diagnostic.position = ⟨2, 2, 5⟩ ∧
      (⟨diagnostic.position.offset⟩ : String.Pos.Raw).IsValid "é\r\n+" ∧
      (∃ lines current : String, "é\r\n+" = lines ++ current ∧
        (lines = "" ∨ ∃ earlier, lines = earlier ++ "\n") ∧ '\n' ∉ current.toList ∧
        diagnostic.position.column = 1 + current.length) ∧
      ∃ margin source : String, Blank margin.toList ∧
        diagnostic.render = margin ++ "--> " ++ toString diagnostic.position.line ++ ":" ++
          toString diagnostic.position.column ++ "\n" ++ margin ++ " |\n" ++
          toString diagnostic.position.line ++ " | " ++ source := by
  obtain ⟨diagnostic, hRejected, hPosition⟩ :
      ∃ diagnostic, ((new .empty 1).parse "é\r\n+").2.answer = .error diagnostic ∧
        diagnostic.position = ⟨2, 2, 5⟩ := ⟨_, rfl, by decide⟩
  obtain ⟨-, hValid, hFields, -, hRender⟩ := rejected_place _ _ _ hRejected
  have hSize : "é\r\n+".utf8ByteSize = diagnostic.position.offset := by
    rw [hPosition]
    rfl
  exact ⟨diagnostic, hRejected, hPosition, hValid, (hFields "é\r\n+" "" rfl hSize).2, hRender⟩

end Session

end Formula
