import Formula.Proofs.Grammar.Beginnings
import Formula.Proofs.Grammar.Soundness

/-! Where parsers try something in vain. For every combinator a property of the text before such a place
follows from what its parts do, where each part is looked at with what was read before it. -/

namespace Formula.Grammar

/-- The place that counts is reached by reading a part of the text that has a property. -/
def Attempts.At (attempts : Attempts) (text : List Char) (P : List Char → Prop) : Prop :=
  match attempts with
  | nothing => True
  | furthest remaining _ _ =>
    ∃ before after, text = before ++ after ∧ after.length = remaining ∧ P before

namespace Attempts.At

variable {text rest consumed : List Char} {P Q : List Char → Prop} {first second : Attempts}

theorem mono (h : first.At text P) (hImp : ∀ before, P before → Q before) : first.At text Q := by
  cases first with
  | nothing => trivial
  | furthest remaining production others =>
      obtain ⟨before, after, hText, hLength, hBefore⟩ := h
      exact ⟨before, after, hText, hLength, hImp before hBefore⟩

/-- Only one of the two places counts. -/
theorem merge (hFirst : first.At text P) (hSecond : second.At text P) :
    (first.merge second).At text P := by
  cases first with
  | nothing => exact hSecond
  | furthest remaining production others =>
      cases second with
      | nothing => exact hFirst
      | furthest remaining' production' others' =>
          simp only [Attempts.merge]
          split
          · exact hFirst
          split
          · exact hSecond
          · exact hFirst

/-- A production that failed stands either for itself or for a place within it. -/
theorem within (h : first.At text P) (hStart : P []) (production : Production) :
    (first.within text.length production).At text P := by
  have hHere : (furthest text.length production []).At text P := ⟨[], text, rfl, rfl, hStart⟩
  cases first with
  | nothing => exact hHere
  | furthest remaining production' others =>
      simp only [Attempts.within]
      split
      · exact h
      · exact hHere

/-- A place in the rest of a text is a place in the whole text. -/
theorem append (h : first.At rest fun before => P (consumed ++ before)) :
    first.At (consumed ++ rest) P := by
  cases first with
  | nothing => trivial
  | furthest remaining production others =>
      obtain ⟨before, after, rfl, hLength, hBefore⟩ := h
      exact ⟨consumed ++ before, after, by rw [List.append_assoc], hLength, hBefore⟩

end Attempts.At

namespace Parser

variable {α β : Type} {text rest : List Char} {P Q : List Char → Prop} {first second : Parser α}
  {next : α → Parser β}

/-- Wherever a parser tries something in vain in a text, it has read a part of it with a property. -/
def TriesAt (parser : Parser α) (text : List Char) (P : List Char → Prop) : Prop :=
  (parser text).attempts.At text P

theorem TriesAt.mono (h : first.TriesAt text P) (hImp : ∀ before, P before → Q before) :
    first.TriesAt text Q :=
  Attempts.At.mono h hImp

theorem triesAt_pure (a : α) : (pure a : Parser α).TriesAt text P :=
  trivial

/-- A function that is not a production leaves no attempts, so that there is no place to speak of. -/
theorem triesAt_lexeme (find? : List Char → Option (α × List Char)) :
    (lexeme find?).TriesAt text P :=
  trivial

theorem triesAt_literal (characters : List Char) : (literal characters).TriesAt text P :=
  trivial

/-- A production fails where it starts, or where something within it fails. -/
theorem TriesAt.named (h : first.TriesAt text P) (hStart : P []) (production : Production) :
    (named production first).TriesAt text P := by
  rw [TriesAt] at h
  unfold TriesAt Parser.named
  split
  · next found attempts hFound =>
      rw [hFound] at h
      exact h
  · next attempts hFailed =>
      rw [hFailed] at h
      exact Attempts.At.within h hStart production

/-- What is tried after the first parser counts with its place in the whole text. -/
theorem TriesAt.bind_at (hFirst : first.TriesAt text P)
    (hNext : ∀ a rest, first.result text = some (a, rest) → (next a rest).attempts.At text P) :
    (first >>= next).TriesAt text P := by
  show (andThen first next text).attempts.At text P
  rw [TriesAt] at hFirst
  unfold result at hNext
  unfold andThen
  split
  · next attempts h =>
      rw [h] at hFirst
      exact hFirst
  · next a rest attempts h =>
      rw [h] at hFirst hNext
      exact Attempts.At.merge hFirst (hNext a rest rfl)

/-- What is tried after the first parser is tried after what the first parser read. -/
theorem TriesAt.bind (hFirst : first.TriesAt text P)
    (hNext : ∀ a rest, first.result text = some (a, rest) → ∃ consumed, text = consumed ++ rest ∧
      (next a).TriesAt rest fun before => P (consumed ++ before)) :
    (first >>= next).TriesAt text P := by
  apply hFirst.bind_at
  intro a rest h
  obtain ⟨consumed, rfl, hRest⟩ := hNext a rest h
  exact Attempts.At.append hRest

/-- White space that is skipped after the first parser counts as read. -/
theorem TriesAt.bind_blanks (hFirst : first.TriesAt text P)
    (hNext : ∀ a rest, first.result text = some (a, rest) →
      ∃ consumed, text = consumed ++ Text.skipBlanks rest ∧
        (next a).TriesAt (Text.skipBlanks rest) fun before => P (consumed ++ before)) :
    (first >>= fun a => blanks >>= fun _ => next a).TriesAt text P := by
  apply hFirst.bind_at
  intro a rest h
  obtain ⟨consumed, hText, hRest⟩ := hNext a rest h
  show (next a (Text.skipBlanks rest)).attempts.At text P
  rw [hText]
  exact Attempts.At.append hRest

/-- A parser after which nothing is tried any more. -/
theorem TriesAt.bind_silent (hFirst : first.TriesAt text P)
    (hNext : ∀ a rest, (next a rest).attempts = .nothing) : (first >>= next).TriesAt text P := by
  apply hFirst.bind_at
  intro a rest _
  rw [hNext a rest]
  trivial

/-- Nothing is forgotten when a choice goes on to its second alternative. -/
theorem TriesAt.orElse (hFirst : first.TriesAt text P) (hSecond : second.TriesAt text P) :
    (first <|> second).TriesAt text P := by
  show (Parser.orElse first second text).attempts.At text P
  rw [TriesAt] at hFirst
  unfold Parser.orElse
  split
  · next found attempts hFound =>
      rw [hFound] at hFirst
      exact hFirst
  · next attempts hFailed =>
      rw [hFailed] at hFirst
      exact Attempts.At.merge hFirst hSecond

/-! ### Sequences that begin with a part of their own -/

/-- The characters that were read stand before every place that is reached afterwards. -/
theorem TriesAt.literal_bind {characters : List Char} {next : Unit → Parser β}
    (hNext : ∀ rest, text = characters ++ rest →
      (next ()).TriesAt rest fun before => P (characters ++ before)) :
    (literal characters >>= next).TriesAt text P := by
  apply (triesAt_literal characters).bind
  intro _ rest h
  have hText : text = characters ++ rest := result_literal_eq_some.mp h
  exact ⟨characters, hText, hNext rest hText⟩

theorem TriesAt.blanks_bind {next : Unit → Parser β}
    (hNext : ∀ before, Blank before → text = before ++ Text.skipBlanks text →
      (next ()).TriesAt (Text.skipBlanks text) fun after => P (before ++ after)) :
    (blanks >>= next).TriesAt text P := by
  have hBlanks : blanks.TriesAt text P := trivial
  apply hBlanks.bind
  intro _ rest h
  simp only [result_blanks, Option.some.injEq, Prod.mk.injEq, true_and] at h
  obtain ⟨before, hBefore, hText⟩ := exists_blank_append text
  subst h
  exact ⟨before, hText, hNext before hBefore hText⟩

theorem TriesAt.remainder_bind {next : List Char → Parser β} (hNext : (next text).TriesAt text P) :
    (remainder >>= next).TriesAt text P :=
  hNext

theorem TriesAt.optional (h : first.TriesAt text P) : (Parser.optional first).TriesAt text P := by
  have hFound : (first >>= fun a => pure (some a)).TriesAt text P := h.bind_silent fun _ _ => rfl
  exact hFound.orElse (triesAt_pure none)

end Parser

/-! The places where a text can be read no further. What was read up to such a place begins a text of the
grammar, at whatever depth and in whatever alternative something was tried in vain there. -/

open Formula.Grammar.Parser

variable {nested : Parser Reading} {text rest : List Char} {reading : Reading} {layers : List Layer}
  {P : List Char → Prop}

/-- Wherever a parser tries something in vain, what it has read begins an expression of its layers. -/
def Viable (layers : List Layer) (parser : Parser Reading) : Prop :=
  ∀ text, parser.TriesAt text (Phrase.layers layers).Begins

/-- What a parser reads is an expression of its layers, perhaps with white space after it. -/
theorem Sound.exists_body {parser : Parser Reading} (hSound : Sound layers parser)
    (h : parser.result text = some (reading, rest)) :
    ∃ body blanks, text = body ++ blanks ++ Text.skipBlanks rest ∧
      (Phrase.layers layers).Accepts body ∧ Blank blanks := by
  obtain ⟨derivation, body, after, rfl, hAfter, hYields, _⟩ := hSound h
  obtain ⟨behind, hBehind, hRest⟩ := exists_blank_append rest
  refine ⟨body, after ++ behind, ?_, ⟨derivation, hYields⟩, hAfter.append hBehind⟩
  conv_lhs => rw [hRest]
  simp only [List.append_assoc]

/-- A name is a word: if it is tried in vain, then at its start. -/
theorem triesAt_identifier (hStart : P []) : identifier.TriesAt text P :=
  (triesAt_lexeme _).named hStart _

theorem triesAt_closing {α : Type} (a : α) (hStart : P []) :
    (closingParenthesis >>= fun _ => pure a).TriesAt text P := by
  have hClosing : closingParenthesis.TriesAt text P := (triesAt_literal _).named hStart _
  exact hClosing.bind_silent fun _ _ => rfl

/-! ### Parentheses -/

section Nested

variable (hSound : Sound Layer.all nested) (hNested : Viable Layer.all nested)

include hSound hNested in
/-- An expression between optional white space, and whatever is read after it. -/
theorem triesAt_padded {β : Type} {next : Reading → Parser β}
    (hWithin : ∀ before, Phrase.padded.Begins before → P before)
    (hNext : ∀ reading body rest, Phrase.padded.Accepts body → Text.skipBlanks rest = rest →
      (next reading).TriesAt rest fun before => P (body ++ before)) :
    (do blanks; let inner ← nested; blanks; next inner).TriesAt text P := by
  apply TriesAt.blanks_bind
  intro before hBefore _
  have hInner : nested.TriesAt (Text.skipBlanks text) fun after => P (before ++ after) :=
    (hNested _).mono fun after hAfter => hWithin _ (hAfter.padded hBefore)
  apply hInner.bind_blanks
  intro reading rest hRead
  obtain ⟨body, behind, hText, hBody, hBehind⟩ := hSound.exists_body hRead
  refine ⟨body ++ behind, hText, ?_⟩
  have hAccepts : Phrase.padded.Accepts (before ++ (body ++ behind)) := hBody.padded hBefore hBehind
  apply (hNext reading _ (Text.skipBlanks rest) hAccepts skipBlanks_skipBlanks).mono
  intro after hAfter
  rwa [← List.append_assoc]

include hNested in
theorem triesAt_nextArgument (h : ∀ before, Phrase.padded.Begins before → P (',' :: before)) :
    (nextArgument nested).TriesAt text P := by
  apply TriesAt.literal_bind
  intro rest _
  apply TriesAt.blanks_bind
  intro before hBefore _
  exact (hNested _).mono fun after hAfter => h _ (hAfter.padded hBefore)

include hSound hNested in
/-- After the opening parenthesis, the text up to a place begins an expression in it or is one. -/
theorem triesAt_parenthetical (text : List Char) :
    (parenthetical nested).TriesAt text Phrase.primary.Begins := by
  refine TriesAt.named ?_ (Phrase.begins_nil _) _
  apply TriesAt.literal_bind
  intro rest _
  apply triesAt_padded hSound hNested fun before hBefore => hBefore.parenthetical
  intro reading body rest hBody _
  apply triesAt_closing
  rw [List.append_nil]
  exact hBody.begins.parenthetical

include hSound hNested in
/-- Arguments fail where they start, in one of them, or where they are not closed. -/
theorem triesAt_callArguments (hStart : P [])
    (hFirst : ∀ before, Phrase.padded.Begins before → P ('(' :: before))
    (hSecond : ∀ first before, Phrase.padded.Accepts first → Phrase.padded.Begins before →
      P ('(' :: (first ++ ',' :: before))) :
    (callArguments nested).TriesAt text P := by
  refine TriesAt.named ?_ hStart _
  apply TriesAt.literal_bind
  intro rest _
  apply triesAt_padded hSound hNested hFirst
  intro reading first rest hAccepts hSkip
  have hArgument : (optional (nextArgument nested)).TriesAt rest fun before =>
      P (['('] ++ (first ++ before)) :=
    (triesAt_nextArgument hNested fun before hBefore => hSecond first before hAccepts hBefore).optional
  apply hArgument.bind_blanks
  intro found after hRead
  rcases result_optional_eq_some hRead with ⟨argument, rfl, hFound⟩ | ⟨rfl, rfl, _⟩
  · obtain ⟨tail, rfl, derivation, body, rfl, hYields, _⟩ := nextArgument_sound hSound hFound
    refine ⟨',' :: body, rfl, triesAt_closing _ ?_⟩
    have hBody : Phrase.padded.Accepts body := ⟨derivation, hYields⟩
    rw [List.append_nil]
    exact hSecond first body hAccepts hBody.begins
  · -- White space was skipped before the second argument was looked for, so that none is left.
    refine ⟨[], by rw [hSkip, List.nil_append], triesAt_closing _ ?_⟩
    rw [List.append_nil, List.append_nil]
    exact hFirst first hAccepts.begins

include hSound hNested in
theorem triesAt_conditionalArguments (hStart : P [])
    (hFirst : ∀ before, Phrase.padded.Begins before → P ('(' :: before))
    (hSecond : ∀ first before, Phrase.padded.Accepts first → Phrase.padded.Begins before →
      P ('(' :: (first ++ ',' :: before)))
    (hThird : ∀ first second before, Phrase.padded.Accepts first → Phrase.padded.Accepts second →
      Phrase.padded.Begins before → P ('(' :: (first ++ ',' :: (second ++ ',' :: before)))) :
    (conditionalArguments nested).TriesAt text P := by
  refine TriesAt.named ?_ hStart _
  apply TriesAt.literal_bind
  intro rest _
  apply triesAt_padded hSound hNested hFirst
  intro condition first rest hAccepts _
  have hWhenTrue : (nextArgument nested).TriesAt rest fun before => P (['('] ++ (first ++ before)) :=
    triesAt_nextArgument hNested fun before hBefore => hSecond first before hAccepts hBefore
  apply hWhenTrue.bind_blanks
  intro whenTrue after hRead
  obtain ⟨tail, rfl, derivation, second, rfl, hYields, _⟩ := nextArgument_sound hSound hRead
  have hAccepts' : Phrase.padded.Accepts second := ⟨derivation, hYields⟩
  refine ⟨',' :: second, rfl, ?_⟩
  have hOtherwise : (nextArgument nested).TriesAt (Text.skipBlanks after) fun before =>
      P (['('] ++ (first ++ (',' :: second ++ before))) :=
    triesAt_nextArgument hNested fun before hBefore =>
      hThird first second before hAccepts hAccepts' hBefore
  apply hOtherwise.bind_blanks
  intro otherwise behind hRead'
  obtain ⟨tail, hText, derivation', third, rfl, hYields', _⟩ := nextArgument_sound hSound hRead'
  refine ⟨',' :: third, hText, triesAt_closing _ ?_⟩
  have hAccepts'' : Phrase.padded.Accepts third := ⟨derivation', hYields'⟩
  rw [List.append_nil]
  exact hThird first second third hAccepts hAccepts' hAccepts''.begins

/-! ### Operands -/

include hSound hNested in
/-- The arguments of a call may be cut off within either of them. -/
theorem triesAt_call (text : List Char) : (call nested).TriesAt text Phrase.primary.Begins := by
  refine TriesAt.named ?_ (Phrase.begins_nil _) _
  apply (triesAt_identifier (Phrase.begins_nil _)).bind
  intro spelled rest hName
  obtain ⟨name, rfl, _, _⟩ := identifier_sound hName
  refine ⟨name.characters, rfl, ?_⟩
  have hArguments : (callArguments nested).TriesAt rest fun before =>
      Phrase.primary.Begins (name.characters ++ before) := by
    -- Without the parenthesis the name is a variable.
    apply triesAt_callArguments hSound hNested
    · rw [List.append_nil]
      exact (Phrase.accepts_name name).begins
    · exact fun before hBefore => hBefore.unaryCall name
    · exact fun first before hFirst hBefore => hFirst.begins_binaryCall hBefore name
  exact hArguments.bind_silent fun _ _ => rfl

include hSound hNested in
/-- An `if` that is not followed by three arguments begins a call or is a variable. -/
theorem triesAt_conditional (text : List Char) :
    (conditional nested).TriesAt text Phrase.primary.Begins := by
  refine TriesAt.named ?_ (Phrase.begins_nil _) _
  apply TriesAt.literal_bind
  intro rest _
  have hArguments : (conditionalArguments nested).TriesAt rest fun before =>
      Phrase.primary.Begins (Name.conditional.characters ++ before) := by
    apply triesAt_conditionalArguments hSound hNested
    · exact (Phrase.accepts_name .conditional).begins
    · exact fun before hBefore => hBefore.unaryCall .conditional
    · exact fun first before hFirst hBefore => hFirst.begins_binaryCall hBefore .conditional
    · exact fun first second before hFirst hSecond hBefore =>
        hFirst.begins_conditional hSecond hBefore
  exact hArguments.bind_silent fun _ _ => rfl

include hSound hNested in
/-- Whichever alternative something is tried in, the text before that place begins an operand. -/
theorem triesAt_primary (text : List Char) :
    (primary nested).TriesAt text Phrase.primary.Begins := by
  have hStart : Phrase.primary.Begins [] := Phrase.begins_nil _
  have hReference : reference.TriesAt text Phrase.primary.Begins := by
    have hName : identifier.TriesAt text Phrase.primary.Begins := triesAt_identifier hStart
    exact (hName.bind_silent fun _ _ => rfl).named hStart _
  have hNumber : number.TriesAt text Phrase.primary.Begins := by
    have hValue : (lexeme Lexeme.number?).TriesAt text Phrase.primary.Begins := triesAt_lexeme _
    exact (hValue.bind_silent fun _ _ => rfl).named hStart _
  refine TriesAt.named ?_ hStart _
  exact (triesAt_conditional hSound hNested text).orElse <|
    (triesAt_call hSound hNested text).orElse <| hReference.orElse <|
    (triesAt_parenthetical hSound hNested text).orElse hNumber

include hSound hNested in
theorem triesAt_factorialOperand (text : List Char) :
    (factorialOperand nested).TriesAt text Phrase.factorialOperand.Begins := by
  refine TriesAt.named ?_ (Phrase.begins_nil _) _
  have hPrimary := (triesAt_primary hSound hNested text).mono fun before hBefore => hBefore.plain
  apply hPrimary.bind
  intro reading rest hRead
  obtain ⟨derivation, body, rfl, hYields, _⟩ := primary_sound hSound hRead
  refine ⟨body, rfl, ?_⟩
  have hBody : Phrase.primary.Accepts body := ⟨derivation, hYields⟩
  have hMark : (named .factorial (literal ['!'])).TriesAt rest fun before =>
      Phrase.factorialOperand.Begins (body ++ before) := by
    refine (triesAt_literal _).named ?_ _
    rw [List.append_nil]
    exact hBody.plain.begins
  exact hMark.optional.bind_silent fun _ _ => rfl

include hSound hNested in
/-- The innermost layer, which has no operators of its own. -/
theorem operand_viable : Viable [] (operand nested) := by
  intro text
  have hNegation : (negation nested).TriesAt text (Phrase.layers []).Begins := by
    refine TriesAt.named ?_ (Phrase.begins_nil _) _
    apply TriesAt.literal_bind
    intro rest _
    have hOperand := (triesAt_factorialOperand hSound hNested rest).mono
      fun before hBefore => hBefore.negation
    exact hOperand.bind_silent fun _ _ => rfl
  refine TriesAt.named ?_ (Phrase.begins_nil _) _
  apply hNegation.orElse
  exact (triesAt_factorialOperand hSound hNested text).mono fun before hBefore => hBefore.operand

end Nested

/-! ### Chains -/

section Chains

variable {layer : Layer} {tighter : List Layer} {item : Parser Reading}

/-- The text up to a place within a link is white space, or it begins with the operator and an
operand. -/
theorem triesAt_link (hItem : Viable tighter item) (text : List Char) :
    (link layer item).TriesAt text (Phrase.links layer tighter).Begins := by
  apply TriesAt.blanks_bind
  intro before hBefore _
  have hOperator : (operator layer).TriesAt (Text.skipBlanks text) fun after =>
      (Phrase.links layer tighter).Begins (before ++ after) :=
    (triesAt_lexeme _).named (Phrase.accepts_done.begins.blank_append hBefore) _
  apply hOperator.bind
  intro found rest hFound
  simp only [operator, result_named, result_lexeme] at hFound
  obtain ⟨spelling, hText, _⟩ := exists_spelling_of_operator? hFound
  refine ⟨spelling.characters, hText, ?_⟩
  apply TriesAt.blanks_bind
  intro between hBetween _
  have hOperand := (hItem (Text.skipBlanks rest)).mono fun after hAfter =>
    hAfter.lastLink spelling hBefore hBetween
  exact hOperand.bind_silent fun _ _ => rfl

/-- Of comparisons there is at most one, after which nothing is tried any more. -/
theorem triesAt_links {bound : Nat} (hSound : Sound tighter item) (hItem : Viable tighter item)
    (hBound : layer = .comparison → bound ≤ 1) (text : List Char) :
    (many (link layer item) bound).TriesAt text (Phrase.links layer tighter).Begins := by
  induction bound generalizing text with
  | zero => exact triesAt_pure []
  | succ bound ih =>
      refine TriesAt.orElse ?_ (triesAt_pure [])
      apply (triesAt_link hItem text).bind
      intro found rest hRead
      obtain ⟨spelling, derivation, before, between, body, after, hText, hBefore, hBetween, hAfter,
        hYields, _⟩ := link_sound hSound hRead
      refine ⟨before ++ (spelling.characters ++ (between ++ (body ++ after))), ?_, ?_⟩
      · simpa only [List.append_assoc] using hText
      -- A comparison with a further link is no comparison any more, so there must not be one.
      by_cases hLayer : layer = .comparison
      · have hLast : bound = 0 := Nat.le_zero.mp (Nat.le_of_succ_le_succ (hBound hLayer))
        subst hLast
        exact (triesAt_pure []).bind_silent fun _ _ => rfl
      · have hMore := (ih (fun h => absurd h hLayer) rest).mono fun front hFront =>
          Phrase.Begins.link hLayer spelling hBefore hBetween ⟨derivation, hYields⟩
            (hFront.blank_append hAfter)
        simp only [List.append_assoc]
        exact hMore.bind_silent fun _ _ => rfl

/-- What is tried after some links is tried after a whole chain, which more links can follow. -/
theorem chain_viable (hSound : Sound tighter item) (hItem : Viable tighter item) :
    Viable (layer :: tighter) (chain layer item) := by
  intro text
  refine TriesAt.named ?_ (Phrase.begins_nil _) _
  apply TriesAt.remainder_bind
  apply ((hItem text).mono fun before hBefore => hBefore.alone).bind_blanks
  intro first rest hRead
  obtain ⟨body, behind, hText, hBody, hBehind⟩ := hSound.exists_body hRead
  refine ⟨body ++ behind, hText, ?_⟩
  have hBound : layer = .comparison → linkBound layer text ≤ 1 := by
    intro hLayer
    rw [linkBound, if_pos hLayer]
  have hLinks := (triesAt_links hSound hItem hBound (Text.skipBlanks rest)).mono fun before hBefore =>
    Phrase.Begins.chain hBody (hBefore.blank_append hBehind)
  simp only [List.append_assoc]
  exact hLinks.bind_silent fun _ _ => rfl

/-- By induction on the layers, from the tightest to the loosest. -/
theorem chains_viable (hSound : Sound Layer.all nested) (hNested : Viable Layer.all nested)
    (layers : List Layer) : Viable layers (layers.foldr chain (operand nested)) := by
  induction layers with
  | nil => exact operand_viable hSound hNested
  | cons layer layers ih => exact chain_viable (chains_sound hSound layers) ih

end Chains

/-- By induction on the depth. At depth zero nothing is tried. -/
theorem expressionWithin_viable (depth : Nat) : Viable Layer.all (expressionWithin depth) := by
  induction depth with
  | zero => exact fun text => triesAt_lexeme _
  | succ depth ih => exact chains_viable (expressionWithin_sound depth) ih Layer.all

theorem expression_viable : Viable Layer.all expression := by
  intro text
  have hText : expression text = expressionWithin (text.length + 1) text := rfl
  rw [TriesAt, hText]
  exact expressionWithin_viable (text.length + 1) text

/-! ### Whole texts -/

/-- A text can be continued to a whole text of the grammar. -/
def BeginsSentence (text : List Char) : Prop :=
  ∃ (more : List Char) (sentence : Sentence), sentence.Yields (text ++ more)

/-- The beginning of an expression begins a sentence that is no assignment. -/
theorem beginsSentence_of_expression (h : Phrase.padded.Begins text) : BeginsSentence text := by
  obtain ⟨more, body, hBody⟩ := h.exists_accepts
  exact ⟨more, .expression body, .expression hBody⟩

theorem beginsSentence_nil : BeginsSentence [] :=
  beginsSentence_of_expression (Phrase.begins_nil _)

/-- A name and an equals sign, and then the beginning of an expression. -/
theorem beginsSentence_of_assignment (h : Phrase.padded.Begins text) (name : Name)
    {before after : List Char} (hBefore : Blank before) (hAfter : Blank after) :
    BeginsSentence (before ++ (name.characters ++ (after ++ '=' :: text))) := by
  obtain ⟨more, body, hBody⟩ := h.exists_accepts
  refine ⟨more, .assignment name body, ?_⟩
  simp only [List.append_assoc, List.cons_append]
  exact .assignment hBefore hAfter hBody

/-- Up to a place where something is tried for an assignment, the text begins a sentence. -/
theorem triesAt_assignment {blanks : List Char} (hBlanks : Blank blanks) (text : List Char) :
    assignment.TriesAt text fun before => BeginsSentence (blanks ++ before) := by
  have hStart : BeginsSentence (blanks ++ []) :=
    beginsSentence_of_expression ((Phrase.begins_nil _).padded hBlanks)
  refine TriesAt.named ?_ hStart _
  apply (triesAt_identifier hStart).bind
  intro spelled rest hName
  obtain ⟨name, rfl, _, _⟩ := identifier_sound hName
  refine ⟨name.characters, rfl, ?_⟩
  apply TriesAt.blanks_bind
  intro after hAfter _
  apply TriesAt.literal_bind
  intro tail _
  apply TriesAt.blanks_bind
  intro between hBetween _
  have hBody := (expression_viable (Text.skipBlanks tail)).mono fun before hBefore =>
    beginsSentence_of_assignment (hBefore.padded hBetween) name hBlanks hAfter
  exact hBody.bind_silent fun _ _ => rfl

/-- An assignment or an expression that was read, with the white space around it. -/
theorem exists_beginsSentence {blanks : List Char} {found : Statement} (hBlanks : Blank blanks)
    (h : (assignment <|> (do let body ← expression; pure (Statement.expression body))).result text =
      some (found, rest)) :
    ∃ consumed, text = consumed ++ Text.skipBlanks rest ∧ BeginsSentence (blanks ++ consumed) := by
  simp only [result_orElse, Option.or_eq_some_iff, result_bind_eq_some, result_pure,
    Option.some.injEq, Prod.mk.injEq] at h
  rcases h with hAssignment | ⟨_, reading, _, hExpression, rfl, rfl⟩
  · obtain ⟨name, derivation, before, body, _, hText, hBefore, hYields, _, _⟩ :=
      assignment_sound hAssignment
    have hBody : Phrase.padded.Accepts body := ⟨derivation, hYields⟩
    refine ⟨name.characters ++ (before ++ '=' :: body), ?_,
      beginsSentence_of_assignment hBody.begins name hBlanks hBefore⟩
    simp only [hText, List.append_assoc, List.cons_append]
  · obtain ⟨body, behind, hText, hBody, hBehind⟩ := expression_sound.exists_body hExpression
    have hAccepts : Phrase.padded.Accepts (blanks ++ (body ++ behind)) := hBody.padded hBlanks hBehind
    exact ⟨body ++ behind, hText, beginsSentence_of_expression hAccepts.begins⟩

/-- What was read before any place at which something was tried in vain begins a whole text. -/
theorem triesAt_statement (text : List Char) : statement.TriesAt text BeginsSentence := by
  refine TriesAt.named ?_ beginsSentence_nil _
  apply TriesAt.blanks_bind
  intro before hBefore _
  have hExpression : (do let body ← expression; pure (Statement.expression body)).TriesAt
      (Text.skipBlanks text) fun after => BeginsSentence (before ++ after) := by
    have hBody := (expression_viable (Text.skipBlanks text)).mono fun after hAfter =>
      beginsSentence_of_expression (hAfter.padded hBefore)
    exact hBody.bind_silent fun _ _ => rfl
  apply ((triesAt_assignment hBefore (Text.skipBlanks text)).orElse hExpression).bind_blanks
  intro found rest hFound
  obtain ⟨consumed, hText, hConsumed⟩ := exists_beginsSentence hBefore hFound
  refine ⟨consumed, hText, ?_⟩
  have hEnd : endOfInput.TriesAt (Text.skipBlanks rest) fun after =>
      BeginsSentence (before ++ (consumed ++ after)) := by
    refine (triesAt_lexeme _).named ?_ _
    rwa [List.append_nil]
  exact hEnd.bind_silent fun _ _ => rfl

/-- A text that cannot be read is cut where its front part can still be continued. -/
theorem beginsSentence_of_read_eq_error {text : String} {diagnostic : Diagnostic}
    (h : read text = .error diagnostic) :
    text.toList = diagnostic.before ++ diagnostic.after ∧ BeginsSentence diagnostic.before := by
  unfold read at h
  dsimp only at h
  split at h
  · cases h
  · next attempts hRead =>
      cases h
      refine ⟨(List.take_append_drop _ _).symm, ?_⟩
      have hAttempts := triesAt_statement text.toList
      rw [TriesAt, hRead] at hAttempts
      cases attempts with
      | nothing =>
          simp only [Attempts.remaining, Nat.sub_self, List.take_zero]
          exact beginsSentence_nil
      | furthest remaining production others =>
          obtain ⟨before, after, hText, hLength, hBefore⟩ := hAttempts
          have hTake : text.toList.take (text.toList.length - remaining) = before := by
            rw [hText, List.length_append, ← hLength, Nat.add_sub_cancel, List.take_left]
          simp only [Attempts.remaining, hTake]
          exact hBefore

end Formula.Grammar
