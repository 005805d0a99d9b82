import Formula.Proofs.Grammar.Parentheses
import Formula.Proofs.Grammar.Recording
import Formula.Proofs.Session.Rejection

/-! What a session says about unbalanced parentheses. -/

namespace Formula

open Grammar

/-- Every production has its place in the order of all of them. -/
theorem Grammar.Production.mem_all (production : Production) : production ∈ all := by
  cases production with
  | layer layer | operator layer => cases layer <;> decide
  | _ => decide

namespace Diagnostic

variable {diagnostic : Diagnostic} {production : Production}

/-- Whatever was tried is named to the reader. -/
theorem name_mem_expected (h : production ∈ diagnostic.tried) :
    production.name ∈ diagnostic.expected := by
  simp only [expected, Production.names, List.mem_eraseDups, List.mem_map, List.mem_filter,
    List.contains_iff_mem]
  exact ⟨production, ⟨production.mem_all, h⟩, rfl⟩

theorem reason_of_ne_nil (h : diagnostic.expected ≠ []) :
    diagnostic.reason = "expected " ++ alternatives diagnostic.expected := by
  rw [reason, if_neg (by simpa using h)]

/-- A message ends with the names of what was expected. -/
theorem exists_message_eq_append {name : String} (h : name ∈ diagnostic.expected) :
    ∃ front, diagnostic.message = front ++ ("expected " ++ alternatives diagnostic.expected) := by
  have hReason := reason_of_ne_nil (List.ne_nil_of_mem h)
  obtain ⟨front, hRender⟩ : ∃ front, diagnostic.render = front ++ diagnostic.reason := by
    simp only [render, String.intercalate_cons_cons, String.intercalate_singleton,
      ← String.append_assoc]
    exact ⟨_, rfl⟩
  unfold message
  rw [hRender, hReason, ← String.append_assoc]
  exact ⟨_, rfl⟩

end Diagnostic

namespace Session

/-- A session rejects a text at an offset in bytes, and a name is among those at the end of its
message of what was expected there. -/
def RejectsAt (session : Session) (text : String) (offset : Nat) (name : String) : Prop :=
  ∃ diagnostic, (session.parse text).2.answer = .error diagnostic ∧
    diagnostic.position.offset = offset ∧ name ∈ diagnostic.expected ∧
    ∃ front, diagnostic.message =
      front ++ ("expected " ++ Diagnostic.alternatives diagnostic.expected)

def RejectsUnclosed (session : Session) (text : String) : Prop :=
  session.RejectsAt text text.utf8ByteSize "closing parenthesis"

/-- What the grammar says about a text is said by every session, because no rejected text is in a
cache. -/
theorem Coherent.rejectsAt {session : Session} (hSession : session.Coherent) {text before : String}
    {production : Production}
    (h : ∃ diagnostic, read text = .error diagnostic ∧ diagnostic.before = before.toList ∧
      production ∈ diagnostic.tried) :
    session.RejectsAt text before.utf8ByteSize production.name := by
  obtain ⟨diagnostic, hRead, hBefore, hTried⟩ := h
  have hFresh : session.fresh text = (session.symbols, .error diagnostic) := by
    simp only [fresh, outcome, hRead]
  have hNamed := Diagnostic.name_mem_expected hTried
  refine ⟨diagnostic, congrArg Prod.snd ((hSession.parse_eq_fresh text).trans hFresh), ?_, hNamed,
    Diagnostic.exists_message_eq_append hNamed⟩
  rw [Diagnostic.position, Text.Position.offset_after, hBefore, String.ofList_toList]

end Session

/-! What a session says that it expected where it rejects a text. -/

/-! ### Names in words -/

theorem nodup_eraseDups {α : Type} [BEq α] [LawfulBEq α] (entries : List α) :
    entries.eraseDups.Nodup := by
  match entries with
  | [] => simp
  | entry :: others =>
      rw [List.eraseDups_cons, List.nodup_cons]
      refine ⟨?_, nodup_eraseDups _⟩
      simp [List.mem_eraseDups]
termination_by entries.length
decreasing_by exact Nat.lt_succ_of_le (List.length_filter_le ..)

namespace Diagnostic

variable {names : List String} {words : String} {c : Char}

inductive Joins : List String → String → Prop
  | one (name : String) : Joins [name] name
  | two (first second : String) : Joins [first, second] (first ++ " or " ++ second)
  | more (first second : String) (others : List String) (last : String) :
      Joins (first :: second :: (others ++ [last]))
        (", ".intercalate (first :: second :: others) ++ ", or " ++ last)

/-- Of three names or more, the last one stands after a comma and an `or`. -/
theorem alternatives_more (first second : String) (others : List String) (last : String) :
    alternatives (first :: second :: (others ++ [last])) =
      ", ".intercalate (first :: second :: others) ++ ", or " ++ last := by
  have hFront : (first :: second :: (others ++ [last])).dropLast = first :: second :: others := by
    rw [← List.cons_append, ← List.cons_append, List.dropLast_concat]
  cases others with
  | nil => rfl
  | cons third others =>
      have hLast : (second :: third :: (others ++ [last])).getLast (List.cons_ne_nil _ _) = last :=
        List.getLast_append_singleton (second :: third :: others)
      rw [List.cons_append] at hFront ⊢
      rw [alternatives, hFront, hLast]
      exact nofun

theorem joins_alternatives (h : names ≠ []) : Joins names (alternatives names) := by
  match names with
  | [name] => exact .one name
  | [first, second] => exact .two first second
  | first :: second :: third :: others =>
      have hOthers := List.dropLast_append_getLast (List.cons_ne_nil third others)
      rw [← hOthers, alternatives_more]
      exact .more ..

/-- A character in a joined text is in one of its parts or in the separator. -/
theorem not_mem_intercalate {separator : String} (hSeparator : c ∉ separator.toList)
    (h : ∀ name ∈ names, c ∉ name.toList) : c ∉ (separator.intercalate names).toList := by
  induction names with
  | nil => simp
  | cons name names ih =>
      cases names with
      | nil => simpa using h
      | cons next names =>
          simp only [String.intercalate_cons_cons, String.toList_append, List.mem_append, not_or]
          exact ⟨⟨h name List.mem_cons_self, hSeparator⟩,
            ih fun other hOther => h other (List.mem_cons_of_mem _ hOther)⟩

/-- Names on a single line are put into words on a single line. -/
theorem Joins.newline_not_mem (h : Joins names words) (hNames : ∀ name ∈ names, '\n' ∉ name.toList) :
    '\n' ∉ words.toList := by
  cases h with
  | one => exact hNames _ List.mem_cons_self
  | two first second =>
      simp only [String.toList_append, List.mem_append, not_or]
      exact ⟨⟨hNames first (by simp), by decide⟩, hNames second (by simp)⟩
  | more first second others last =>
      have hFront : ∀ name ∈ first :: second :: others, '\n' ∉ name.toList :=
        fun name hName => hNames name (by simp at hName ⊢; tauto)
      simp only [String.toList_append, List.mem_append, not_or]
      exact ⟨⟨not_mem_intercalate (by decide) hFront, by decide⟩, hNames last (by simp)⟩

end Diagnostic

namespace Grammar

/-! ### Productions by name -/

namespace Production

theorem newline_not_mem_name (production : Production) : '\n' ∉ production.name.toList := by
  have hAll : ∀ production ∈ all, '\n' ∉ production.name.toList := by decide
  exact hAll production production.mem_all

/-- The productions of a list in the order in which they are listed to a reader, each once. -/
theorem exists_listed (productions : List Production) :
    ∃ listed : List Production, listed.Sublist all ∧
      (∀ production, production ∈ listed ↔ production ∈ productions) ∧
      names productions = (listed.map name).eraseDups := by
  refine ⟨all.filter productions.contains, List.filter_sublist, fun production => ?_, rfl⟩
  simp [production.mem_all]

def inWords? (productions : List Production) : Option String :=
  match names productions with
  | [] => none
  | listed => some (Diagnostic.alternatives listed)

end Production

/-- The wording of what was wanted and of what was unwanted at a place. -/
def Ledger.reason (ledger : Ledger) : String :=
  match Production.inWords? ledger.wanted, Production.inWords? ledger.unwanted with
  | some expected, none => "expected " ++ expected
  | none, some unexpected => "unexpected " ++ unexpected
  | some expected, some unexpected => "unexpected " ++ unexpected ++ "; expected " ++ expected
  | none, none => "unknown parsing error"

end Grammar

namespace Diagnostic

variable {diagnostic : Diagnostic}

/-- What is written for a ledger without anything unwanted is what the diagnostic says. -/
theorem reason_eq (diagnostic : Diagnostic) (place : Nat) :
    diagnostic.reason = (⟨place, diagnostic.tried, []⟩ : Ledger).reason := by
  unfold reason Ledger.reason Production.inWords? expected
  cases Production.names diagnostic.tried <;> rfl

/-- The last line of a rendered diagnostic gives the reason. -/
theorem exists_render_eq_reason (diagnostic : Diagnostic) :
    ∃ opening margin : String, (∀ c ∈ margin.toList, c = ' ') ∧
      diagnostic.render = opening ++ "\n" ++ margin ++ "= " ++ diagnostic.reason := by
  let margin := String.ofList (List.replicate (toString diagnostic.position.line).length ' ')
  obtain ⟨opening, hRender⟩ : ∃ opening,
      diagnostic.render = opening ++ "\n" ++ margin ++ " = " ++ diagnostic.reason := by
    simp only [render, String.intercalate_cons_cons, String.intercalate_singleton,
      ← String.append_assoc]
    exact ⟨_, rfl⟩
  refine ⟨opening, margin ++ " ", fun c hMem => ?_, ?_⟩
  · rw [String.toList_append, String.toList_ofList, List.mem_append] at hMem
    exact hMem.elim List.eq_of_mem_replicate List.mem_singleton.mp
  · rw [hRender]
    simp only [String.append_assoc]
    rfl

end Diagnostic

namespace Session

/-- A rejection says what was recorded at its place while the text was read. The record is unique. Every
production in it was looked for in vain, and none had to be absent. The last line of the diagnostic
names these productions, each name once and in the order of the productions. -/
theorem rejected_expectation (session : Session) (text : String) (diagnostic : Diagnostic)
    (h : (session.parse text).2.answer = .error diagnostic) :
    ∃ ledger : Ledger, (∀ other, RejectedWith text.toList other ↔ other = ledger) ∧
      (∃ before after : String, text = before ++ after ∧
        before.utf8ByteSize = diagnostic.position.offset ∧ after.length = ledger.remaining) ∧
      ledger.unwanted = [] ∧
      (∃ listed : List Production, listed.Sublist Production.all ∧
        (∀ production, production ∈ listed ↔ production ∈ ledger.wanted) ∧
        diagnostic.expected = (listed.map Production.name).eraseDups) ∧
      diagnostic.expected ≠ [] ∧ diagnostic.expected.Nodup ∧
      diagnostic.reason = ledger.reason ∧
      ∃ opening margin words : String, (∀ c ∈ margin.toList, c = ' ') ∧
        Diagnostic.Joins diagnostic.expected words ∧ '\n' ∉ words.toList ∧
        diagnostic.render = opening ++ "\n" ++ margin ++ "= expected " ++ words := by
  have hRead := (parse_of_error h).1
  obtain ⟨hRejected, hTried⟩ := rejectedWith_of_read hRead
  obtain ⟨hText, -⟩ := beginsSentence_of_read_eq_error hRead
  obtain ⟨production, others, hOthers⟩ := List.exists_cons_of_ne_nil hTried
  have hNamed : production.name ∈ diagnostic.expected :=
    Diagnostic.name_mem_expected (by simp [hOthers])
  have hExpected : diagnostic.expected ≠ [] := List.ne_nil_of_mem hNamed
  refine ⟨_, fun other => ⟨fun hOther => hOther.unique hRejected, fun hOther => hOther ▸ hRejected⟩,
    ⟨String.ofList diagnostic.before, String.ofList diagnostic.after, ?_,
      (Text.Position.offset_after _).symm, ?_⟩, rfl, Production.exists_listed _, hExpected, ?_, ?_, ?_⟩
  · rw [← String.ofList_append, ← hText, String.ofList_toList]
  · exact String.length_ofList
  · exact nodup_eraseDups _
  · exact diagnostic.reason_eq _
  · obtain ⟨opening, margin, hMargin, hRender⟩ := diagnostic.exists_render_eq_reason
    have hJoins := Diagnostic.joins_alternatives hExpected
    have hReason := Diagnostic.reason_of_ne_nil hExpected
    refine ⟨opening, margin, _, hMargin, hJoins, hJoins.newline_not_mem fun name hName => ?_, ?_⟩
    · simp only [Diagnostic.expected, Production.names, List.mem_eraseDups, List.mem_map] at hName
      obtain ⟨production, -, rfl⟩ := hName
      exact production.newline_not_mem_name
    · rw [hRender, hReason]
      simp only [String.append_assoc]
      rfl

/-- After `(1` a reader is told of an operator, an exclamation mark and a parenthesis. -/
theorem rejected_expectation_unclosed :
    ∃ diagnostic, ((new .empty 1).parse "(1").2.answer = .error diagnostic ∧
      diagnostic.expected = ["operator", "factorial", "closing parenthesis"] ∧
      (∃ ledger, RejectedWith "(1".toList ledger ∧ ledger.unwanted = [] ∧
        diagnostic.reason = ledger.reason) ∧
      ∃ opening margin words : String, (∀ c ∈ margin.toList, c = ' ') ∧
        Diagnostic.Joins diagnostic.expected words ∧ '\n' ∉ words.toList ∧
        diagnostic.render = opening ++ "\n" ++ margin ++ "= expected " ++ words := by
  obtain ⟨diagnostic, hRejected, hExpected⟩ :
      ∃ diagnostic, ((new .empty 1).parse "(1").2.answer = .error diagnostic ∧
        diagnostic.expected = ["operator", "factorial", "closing parenthesis"] := ⟨_, rfl, by decide⟩
  obtain ⟨ledger, hLedger, -, hUnwanted, -, -, -, hReason, hRender⟩ :=
    rejected_expectation _ _ _ hRejected
  exact ⟨diagnostic, hRejected, hExpected, ⟨ledger, (hLedger ledger).mpr rfl, hUnwanted, hReason⟩,
    hRender⟩

end Session

end Formula
