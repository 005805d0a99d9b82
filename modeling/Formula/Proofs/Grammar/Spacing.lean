import Formula.Proofs.Grammar.Layout

/-! White space in the texts of the grammar. A sentence yields the layouts of its pieces and no other
text, so that white space may be taken out of it and put into it like out of a row of pieces. -/

namespace Formula.Grammar

def Phrase.room : Phrase → Bool
  | .padded => true
  | .layers _ | .links _ _ | .factorialOperand | .primary => false

def Derivation.pieces : {phrase : Phrase} → Derivation phrase → List Piece
  | _, .padded inner => inner.pieces
  | _, .chain first rest => first.pieces ++ rest.pieces
  | _, .done => []
  | _, .link _ spelling item more => .operator spelling :: (item.pieces ++ more.pieces)
  | _, .comparison spelling item => .operator spelling :: item.pieces
  | _, .operand inner => inner.pieces
  | _, .negation inner => .minus :: inner.pieces
  | _, .plain inner => inner.pieces
  | _, .factorial inner => inner.pieces ++ [.mark]
  | _, .conditional condition whenTrue otherwise =>
    .name .conditional :: .opening :: (condition.pieces ++ .comma ::
      (whenTrue.pieces ++ .comma :: (otherwise.pieces ++ [.closing])))
  | _, .binaryCall name first second =>
    .name name :: .opening :: (first.pieces ++ .comma :: (second.pieces ++ [.closing]))
  | _, .unaryCall name argument => .name name :: .opening :: (argument.pieces ++ [.closing])
  | _, .var name => [.name name]
  | _, .parenthetical inner => .opening :: (inner.pieces ++ [.closing])
  | _, .number numeral => [.number numeral]

def Sentence.pieces : Sentence → List Piece
  | .assignment name body => .name name :: .equals :: body.pieces
  | .expression body => body.pieces

variable {phrase : Phrase} {layer : Layer} {layers : List Layer} {before after : Bool}
  {earlier later pieces : List Piece} {text : List Char}

/-! ### Layouts of the productions -/

theorem layout_single_iff {piece : Piece} (hBefore : piece.roomBefore = false)
    (hAfter : piece.roomAfter = false) :
    Layout false [piece] false text ↔ text = piece.characters := by
  simp [layout_cons_iff, layout_nil_iff, hBefore, hAfter]

/-- Around an operator there is room on both sides. -/
theorem layout_operator_iff {spelling : Spelling layer} :
    Layout false (.operator spelling :: pieces) false text ↔ ∃ before after body, Blank before ∧
      Blank after ∧ text = before ++ (spelling.characters ++ (after ++ body)) ∧
      Layout false pieces false body := by
  simp only [layout_cons_iff, Piece.roomBefore, Piece.roomAfter, Piece.characters, layout_before_iff,
    Bool.false_or, gap_true_iff]
  constructor
  · rintro ⟨blanks, _, hBefore, rfl, blanks', body, hAfter, rfl, hBody⟩
    exact ⟨blanks, blanks', body, hBefore, hAfter, rfl, hBody⟩
  · rintro ⟨blanks, blanks', body, hBefore, hAfter, rfl, hBody⟩
    exact ⟨blanks, _, hBefore, rfl, blanks', body, hAfter, rfl, hBody⟩

theorem layout_minus_iff : Layout false (.minus :: pieces) false text ↔
    ∃ body, text = '-' :: body ∧ Layout false pieces false body := by
  simp [layout_cons_iff, Piece.roomBefore, Piece.roomAfter, Piece.characters]

/-- An exclamation mark touches what stands before it. -/
theorem layout_mark_iff : Layout false (pieces ++ [.mark]) false text ↔
    ∃ body, text = body ++ ['!'] ∧ Layout false pieces false body := by
  rw [layout_append_cons_iff]
  simp [layout_nil_iff, Piece.roomBefore, Piece.roomAfter, Piece.characters]

theorem layout_opening_iff : Layout false (.opening :: pieces) after text ↔
    ∃ rest, text = '(' :: rest ∧ Layout true pieces after rest := by
  simp [layout_cons_iff, Piece.roomBefore, Piece.roomAfter, Piece.characters]

/-- The name of a call touches its parenthesis, after which there is room. -/
theorem layout_call_iff {name : Name} : Layout false (.name name :: .opening :: pieces) after text ↔
    ∃ rest, text = name.characters ++ '(' :: rest ∧ Layout true pieces after rest := by
  rw [layout_cons_iff]
  simp [layout_opening_iff, Piece.roomBefore, Piece.roomAfter, Piece.characters]

/-- A comma leaves room on both sides, and divides a layout into two. -/
theorem layout_comma_iff : Layout before (earlier ++ .comma :: later) after text ↔
    ∃ front back, text = front ++ ',' :: back ∧ Layout before earlier true front ∧
      Layout true later after back :=
  layout_append_cons_iff

theorem layout_closing_iff : Layout before (pieces ++ [.closing]) false text ↔
    ∃ body, text = body ++ [')'] ∧ Layout before pieces true body := by
  rw [layout_append_cons_iff]
  simp [layout_nil_iff, Piece.roomBefore, Piece.roomAfter, Piece.characters]

/-- Around the name and the equals sign of an assignment there is room everywhere. -/
theorem layout_equals_iff {name : Name} : Layout true (.name name :: .equals :: pieces) after text ↔
    ∃ before between rest, Blank before ∧ Blank between ∧
      text = before ++ (name.characters ++ (between ++ '=' :: rest)) ∧
      Layout true pieces after rest := by
  simp only [layout_cons_iff, Piece.roomBefore, Piece.roomAfter, Piece.characters, Bool.true_or,
    Bool.or_true, gap_true_iff]
  constructor
  · rintro ⟨blanks, _, hBefore, rfl, blanks', rest, hBetween, rfl, hRest⟩
    exact ⟨blanks, blanks', rest, hBefore, hBetween, rfl, hRest⟩
  · rintro ⟨blanks, blanks', rest, hBefore, hBetween, rfl, hRest⟩
    exact ⟨blanks, _, hBefore, rfl, blanks', rest, hBetween, rfl, hRest⟩

/-- White space before more links belongs to their first operator. -/
theorem layout_links_iff {links : Derivation (.links layer layers)} :
    Layout false (earlier ++ links.pieces) false text ↔ ∃ head tail, text = head ++ tail ∧
      Layout false earlier false head ∧ Layout false links.pieces false tail := by
  constructor
  · intro h
    refine h.split fun piece hPiece => ?_
    cases links with
    | done => simp [Derivation.pieces] at hPiece
    | link | comparison =>
        obtain rfl := Option.some.inj hPiece
        rfl
  · rintro ⟨head, tail, rfl, hHead, hTail⟩
    exact hHead.append hTail

/-! ### Layouts and derivations -/

/-- The texts of a derivation are layouts of its pieces. The induction is on the derivation. -/
theorem Derivation.Yields.layout {derivation : Derivation phrase} (h : derivation.Yields text) :
    Layout phrase.room derivation.pieces phrase.room text := by
  induction h with
  | padded hBefore _ hAfter ih =>
      rw [List.append_assoc]
      exact layout_before_iff.mpr ⟨_, _, hBefore, rfl, layout_after_iff.mpr ⟨_, _, hAfter, rfl, ih⟩⟩
  | chain _ _ ihFirst ihRest => exact layout_links_iff.mpr ⟨_, _, rfl, ihFirst, ihRest⟩
  | done => exact layout_nil_iff.mpr (gap_nil false)
  | link hBefore hAfter _ _ ihItem ihMore =>
      exact layout_operator_iff.mpr ⟨_, _, _, hBefore, hAfter, rfl,
        layout_links_iff.mpr ⟨_, _, rfl, ihItem, ihMore⟩⟩
  | comparison hBefore hAfter _ ihItem =>
      exact layout_operator_iff.mpr ⟨_, _, _, hBefore, hAfter, rfl, ihItem⟩
  | operand _ ih | plain _ ih => exact ih
  | negation _ ih => exact layout_minus_iff.mpr ⟨_, rfl, ih⟩
  | factorial _ ih => exact layout_mark_iff.mpr ⟨_, rfl, ih⟩
  | conditional _ _ _ ihCondition ihWhenTrue ihOtherwise =>
      exact layout_call_iff.mpr ⟨_, rfl, layout_comma_iff.mpr ⟨_, _, rfl, ihCondition,
        layout_comma_iff.mpr ⟨_, _, rfl, ihWhenTrue, layout_closing_iff.mpr ⟨_, rfl, ihOtherwise⟩⟩⟩⟩
  | binaryCall _ _ ihFirst ihSecond =>
      exact layout_call_iff.mpr ⟨_, rfl, layout_comma_iff.mpr ⟨_, _, rfl, ihFirst,
        layout_closing_iff.mpr ⟨_, rfl, ihSecond⟩⟩⟩
  | unaryCall _ ihArgument =>
      exact layout_call_iff.mpr ⟨_, rfl, layout_closing_iff.mpr ⟨_, rfl, ihArgument⟩⟩
  | parenthetical _ ih =>
      exact layout_opening_iff.mpr ⟨_, rfl, layout_closing_iff.mpr ⟨_, rfl, ih⟩⟩
  | var | number => exact (layout_single_iff rfl rfl).mpr rfl

/-- Conversely, every layout of its pieces is a text of the derivation. -/
theorem Derivation.yields_of_layout {derivation : Derivation phrase}
    (h : Layout phrase.room derivation.pieces phrase.room text) : derivation.Yields text := by
  induction derivation generalizing text with
  | padded inner ih =>
      obtain ⟨blanks, _, hBefore, rfl, hRest⟩ := layout_before_iff.mp h
      obtain ⟨body, blanks', hAfter, rfl, hBody⟩ := layout_after_iff.mp hRest
      rw [← List.append_assoc]
      exact .padded hBefore (ih hBody) hAfter
  | chain first rest ihFirst ihRest =>
      obtain ⟨head, tail, rfl, hHead, hTail⟩ := layout_links_iff.mp h
      exact .chain (ihFirst hHead) (ihRest hTail)
  | done =>
      obtain rfl := gap_false_iff.mp (layout_nil_iff.mp h)
      exact .done
  | link repeats spelling item more ihItem ihMore =>
      obtain ⟨_, _, _, hBefore, hAfter, rfl, hLinks⟩ := layout_operator_iff.mp h
      obtain ⟨body, tail, rfl, hBody, hTail⟩ := layout_links_iff.mp hLinks
      exact .link hBefore hAfter (ihItem hBody) (ihMore hTail)
  | comparison spelling item ihItem =>
      obtain ⟨_, _, body, hBefore, hAfter, rfl, hBody⟩ := layout_operator_iff.mp h
      exact .comparison hBefore hAfter (ihItem hBody)
  | operand inner ih => exact .operand (ih h)
  | negation inner ih =>
      obtain ⟨body, rfl, hBody⟩ := layout_minus_iff.mp h
      exact .negation (ih hBody)
  | plain inner ih => exact .plain (ih h)
  | factorial inner ih =>
      obtain ⟨body, rfl, hBody⟩ := layout_mark_iff.mp h
      exact .factorial (ih hBody)
  | conditional condition whenTrue otherwise ihCondition ihWhenTrue ihOtherwise =>
      obtain ⟨_, rfl, hArguments⟩ := layout_call_iff.mp h
      obtain ⟨first, _, rfl, hFirst, hOthers⟩ := layout_comma_iff.mp hArguments
      obtain ⟨second, _, rfl, hSecond, hLast⟩ := layout_comma_iff.mp hOthers
      obtain ⟨third, rfl, hThird⟩ := layout_closing_iff.mp hLast
      exact .conditional (ihCondition hFirst) (ihWhenTrue hSecond) (ihOtherwise hThird)
  | binaryCall name first second ihFirst ihSecond =>
      obtain ⟨_, rfl, hArguments⟩ := layout_call_iff.mp h
      obtain ⟨head, _, rfl, hHead, hLast⟩ := layout_comma_iff.mp hArguments
      obtain ⟨tail, rfl, hTail⟩ := layout_closing_iff.mp hLast
      exact .binaryCall (ihFirst hHead) (ihSecond hTail)
  | unaryCall name argument ihArgument =>
      obtain ⟨_, rfl, hLast⟩ := layout_call_iff.mp h
      obtain ⟨body, rfl, hBody⟩ := layout_closing_iff.mp hLast
      exact .unaryCall (ihArgument hBody)
  | var name =>
      obtain rfl := (layout_single_iff rfl rfl).mp h
      exact .var name
  | parenthetical inner ih =>
      obtain ⟨_, rfl, hLast⟩ := layout_opening_iff.mp h
      obtain ⟨body, rfl, hBody⟩ := layout_closing_iff.mp hLast
      exact .parenthetical (ih hBody)
  | number numeral =>
      obtain rfl := (layout_single_iff rfl rfl).mp h
      exact .number numeral

/-- The texts of a sentence are the layouts of its pieces. -/
theorem Sentence.yields_iff_layout {sentence : Sentence} :
    sentence.Yields text ↔ Layout true sentence.pieces true text := by
  constructor
  · intro h
    cases h with
    | assignment hBefore hAfter hBody =>
        exact layout_equals_iff.mpr ⟨_, _, _, hBefore, hAfter, rfl, hBody.layout⟩
    | expression hBody => exact hBody.layout
  · intro h
    cases sentence with
    | assignment name body =>
        obtain ⟨_, _, rest, hBefore, hAfter, rfl, hRest⟩ := layout_equals_iff.mp h
        exact .assignment hBefore hAfter (Derivation.yields_of_layout hRest)
    | expression body => exact .expression (Derivation.yields_of_layout h)

/-! ### White space of a sentence -/

/-- The places where white space may be put into a text of a sentence, with the text before and after
them. An infix operator is found by the pieces that come before it. -/
inductive Sentence.RoomAt (sentence : Sentence) : List Char → List Char → Prop where
  | start {back : List Char} : RoomAt sentence [] back
  | ending {front : List Char} : RoomAt sentence front []
  | afterOpening {front back : List Char} : RoomAt sentence (front ++ ['(']) back
  | beforeClosing {front back : List Char} : RoomAt sentence front (')' :: back)
  | beforeComma {front back : List Char} : RoomAt sentence front (',' :: back)
  | afterComma {front back : List Char} : RoomAt sentence (front ++ [',']) back
  | beforeEquals {front back : List Char} {name : Name} {body : Derivation .padded}
      (hSentence : sentence = .assignment name body) (hFront : '=' ∉ front) :
      RoomAt sentence front ('=' :: back)
  | afterEquals {front back : List Char} {name : Name} {body : Derivation .padded}
      (hSentence : sentence = .assignment name body) (hFront : '=' ∉ front) :
      RoomAt sentence (front ++ ['=']) back
  | beforeOperator {front back : List Char} {layer : Layer} {spelling : Spelling layer}
      (hPlace : ComesAfter sentence.pieces (.operator spelling) front) :
      RoomAt sentence front (spelling.characters ++ back)
  | afterOperator {front back : List Char} {layer : Layer} {spelling : Spelling layer}
      (hPlace : ComesAfter sentence.pieces (.operator spelling) front) :
      RoomAt sentence (front ++ spelling.characters) back

namespace Sentence.Yields

variable {sentence : Sentence} {piece : Piece} {front back blanks : List Char}

/-- Parentheses and commas are pieces of a sentence wherever they stand in its text. -/
theorem comesAfter (h : sentence.Yields (front ++ (piece.characters ++ back)))
    (hPiece : piece ∈ [.opening, .closing, .comma]) : ComesAfter sentence.pieces piece front := by
  have hSpell := (yields_iff_layout.mp h).withoutBlanks_eq
  rw [withoutBlanks_append, withoutBlanks_append, Piece.withoutBlanks_characters] at hSpell
  obtain ⟨earlier, later, hPieces, hFront, _⟩ := exists_pieces_of_spell hPiece hSpell.symm
  exact ⟨earlier, later, hPieces, hFront⟩

/-- The first equals sign in the text of an assignment is the one of the assignment. -/
theorem comesAfter_equals {name : Name} {body : Derivation .padded}
    (h : (Sentence.assignment name body).Yields (front ++ '=' :: back)) (hFront : '=' ∉ front) :
    ComesAfter (Sentence.assignment name body).pieces .equals front := by
  refine ⟨[.name name], body.pieces, rfl, ?_⟩
  have hSpell : withoutBlanks (front ++ '=' :: back) = name.characters ++ '=' :: spell body.pieces :=
    (yields_iff_layout.mp h).withoutBlanks_eq
  rw [withoutBlanks_append, show withoutBlanks ('=' :: back) = '=' :: _ from rfl] at hSpell
  have hBefore : ∀ c ∈ withoutBlanks front, (c != '=') = true := by
    rintro c hMem
    exact bne_iff_ne.mpr fun hEq => hFront (hEq ▸ (List.mem_filter.mp hMem).1)
  have hName : ∀ c ∈ name.characters, (c != '=') = true := by
    intro c hMem
    refine bne_iff_ne.mpr ?_
    rintro rfl
    exact absurd (name.continues_characters _ hMem) (by decide)
  -- Both fronts end where the first equals sign stands.
  have hTake := congrArg (List.takeWhile (· != '=')) hSpell
  rw [takeWhile_append_stop hBefore (by simp), takeWhile_append_stop hName (by simp)] at hTake
  rw [hTake]
  exact (List.append_nil _).symm

/-- White space may be put before a piece of a sentence that leaves room there. -/
theorem insert_before (h : sentence.Yields (front ++ (piece.characters ++ back)))
    (hPlace : ComesAfter sentence.pieces piece front) (hRoom : piece.roomBefore = true)
    (hBlanks : Blank blanks) : sentence.Yields (front ++ (blanks ++ (piece.characters ++ back))) :=
  yields_iff_layout.mpr ((yields_iff_layout.mp h).insert_before hPlace hRoom hBlanks)

theorem insert_after (h : sentence.Yields (front ++ (piece.characters ++ back)))
    (hPlace : ComesAfter sentence.pieces piece front) (hRoom : piece.roomAfter = true)
    (hBlanks : Blank blanks) : sentence.Yields (front ++ (piece.characters ++ (blanks ++ back))) :=
  yields_iff_layout.mpr ((yields_iff_layout.mp h).insert_after hPlace hRoom hBlanks)

/-- White space may be put wherever there is room for it. -/
theorem insert_blank (h : sentence.Yields (front ++ back)) (hRoom : sentence.RoomAt front back)
    (hBlanks : Blank blanks) : sentence.Yields (front ++ (blanks ++ back)) := by
  cases hRoom with
  | start => exact yields_iff_layout.mpr ((yields_iff_layout.mp h).blank_append hBlanks)
  | ending =>
      rw [List.append_nil] at h ⊢
      exact yields_iff_layout.mpr ((yields_iff_layout.mp h).append_blank hBlanks)
  | afterOpening =>
      rw [List.append_assoc] at h ⊢
      have hPlace : ComesAfter sentence.pieces .opening _ := h.comesAfter (by simp)
      exact h.insert_after hPlace rfl hBlanks
  | beforeClosing =>
      have hPlace : ComesAfter sentence.pieces .closing front := h.comesAfter (by simp)
      exact h.insert_before hPlace rfl hBlanks
  | beforeComma =>
      have hPlace : ComesAfter sentence.pieces .comma front := h.comesAfter (by simp)
      exact h.insert_before hPlace rfl hBlanks
  | afterComma =>
      rw [List.append_assoc] at h ⊢
      have hPlace : ComesAfter sentence.pieces .comma _ := h.comesAfter (by simp)
      exact h.insert_after hPlace rfl hBlanks
  | beforeEquals hSentence hFront =>
      subst hSentence
      exact h.insert_before (h.comesAfter_equals hFront) rfl hBlanks
  | afterEquals hSentence hFront =>
      subst hSentence
      rw [List.append_assoc] at h ⊢
      exact h.insert_after (h.comesAfter_equals hFront) rfl hBlanks
  | beforeOperator hPlace => exact h.insert_before hPlace rfl hBlanks
  | afterOperator hPlace =>
      rw [List.append_assoc] at h ⊢
      exact h.insert_after hPlace rfl hBlanks

/-- White space may be deleted everywhere. -/
theorem withoutBlanks (h : sentence.Yields text) : sentence.Yields (withoutBlanks text) := by
  rw [(yields_iff_layout.mp h).withoutBlanks_eq]
  exact yields_iff_layout.mpr (layout_spell true sentence.pieces true)

end Sentence.Yields

end Formula.Grammar
