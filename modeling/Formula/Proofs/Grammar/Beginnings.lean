import Formula.Proofs.Grammar.Lexical

/-! Beginnings of the texts of the grammar. A text is the beginning of a phrase if something can be put
after it that makes it one of the phrase. Each production turns beginnings of its last part that has
been begun into beginnings of the whole. -/

namespace Formula.Grammar.Phrase

variable {phrase whole : Phrase} {text first second blanks : List Char} {layers : List Layer}
  {layer : Layer}

def Accepts (phrase : Phrase) (text : List Char) : Prop :=
  ∃ derivation : Derivation phrase, derivation.Yields text

/-- A text can be continued to one of a phrase, perhaps with white space after it. -/
def Begins (phrase : Phrase) (text : List Char) : Prop :=
  ∃ more body after, text ++ more = body ++ after ∧ phrase.Accepts body ∧ Blank after

/-- What is accepted as a whole is a beginning to which nothing has to be put. -/
theorem Accepts.begins (h : phrase.Accepts text) : phrase.Begins text :=
  ⟨[], text, [], rfl, h, blank_nil⟩

/-- Every part at the front of what is accepted is a beginning of it. -/
theorem begins_of_append {more : List Char} (h : phrase.Accepts (text ++ more)) :
    phrase.Begins text :=
  ⟨more, text ++ more, [], (List.append_nil _).symm, h, blank_nil⟩

/-- If every text of a phrase is one of a larger phrase after some front part, then every beginning of
it is a beginning of the larger phrase after that part. -/
theorem Begins.map (h : phrase.Begins text) (front : List Char)
    (hWhole : ∀ body, phrase.Accepts body → whole.Accepts (front ++ body)) :
    whole.Begins (front ++ text) := by
  obtain ⟨more, body, after, hText, hBody, hAfter⟩ := h
  refine ⟨more, front ++ body, after, ?_, hWhole body hBody, hAfter⟩
  rw [List.append_assoc, hText, List.append_assoc]

/-! ### Texts of the productions -/

theorem accepts_name (name : Name) : Phrase.primary.Accepts name.characters :=
  ⟨.var name, .var name⟩

theorem Accepts.parenthetical (h : Phrase.padded.Accepts text) :
    Phrase.primary.Accepts ('(' :: (text ++ [')'])) := by
  obtain ⟨inner, hInner⟩ := h
  exact ⟨.parenthetical inner, .parenthetical hInner⟩

theorem Accepts.unaryCall (h : Phrase.padded.Accepts text) (name : Name) :
    Phrase.primary.Accepts (name.characters ++ '(' :: (text ++ [')'])) := by
  obtain ⟨argument, hArgument⟩ := h
  exact ⟨.unaryCall name argument, .unaryCall hArgument⟩

theorem Accepts.binaryCall (hFirst : Phrase.padded.Accepts first) (h : Phrase.padded.Accepts text)
    (name : Name) :
    Phrase.primary.Accepts (name.characters ++ '(' :: (first ++ ',' :: (text ++ [')']))) := by
  obtain ⟨head, hHead⟩ := hFirst
  obtain ⟨tail, hTail⟩ := h
  exact ⟨.binaryCall name head tail, .binaryCall hHead hTail⟩

theorem Accepts.conditional (hFirst : Phrase.padded.Accepts first)
    (hSecond : Phrase.padded.Accepts second) (h : Phrase.padded.Accepts text) :
    Phrase.primary.Accepts
      ('i' :: 'f' :: '(' :: (first ++ ',' :: (second ++ ',' :: (text ++ [')'])))) := by
  obtain ⟨condition, hCondition⟩ := hFirst
  obtain ⟨whenTrue, hWhenTrue⟩ := hSecond
  obtain ⟨otherwise, hOtherwise⟩ := h
  exact ⟨.conditional condition whenTrue otherwise, .conditional hCondition hWhenTrue hOtherwise⟩

theorem Accepts.plain (h : Phrase.primary.Accepts text) : Phrase.factorialOperand.Accepts text := by
  obtain ⟨inner, hInner⟩ := h
  exact ⟨.plain inner, .plain hInner⟩

theorem Accepts.operand (h : Phrase.factorialOperand.Accepts text) :
    (Phrase.layers []).Accepts text := by
  obtain ⟨inner, hInner⟩ := h
  exact ⟨.operand inner, .operand hInner⟩

theorem Accepts.negation (h : Phrase.factorialOperand.Accepts text) :
    (Phrase.layers []).Accepts ('-' :: text) := by
  obtain ⟨inner, hInner⟩ := h
  exact ⟨.negation inner, .negation hInner⟩

theorem accepts_done : (Phrase.links layer layers).Accepts [] :=
  ⟨.done, .done⟩

/-- A chain is its first operand and its links. -/
theorem Accepts.chain (hFirst : (Phrase.layers layers).Accepts first)
    (h : (Phrase.links layer layers).Accepts text) :
    (Phrase.layers (layer :: layers)).Accepts (first ++ text) := by
  obtain ⟨head, hHead⟩ := hFirst
  obtain ⟨tail, hTail⟩ := h
  exact ⟨.chain head tail, .chain hHead hTail⟩

/-- An operand by itself is a chain. -/
theorem Accepts.alone (h : (Phrase.layers layers).Accepts text) :
    (Phrase.layers (layer :: layers)).Accepts text := by
  have hDone : (Phrase.links layer layers).Accepts [] := accepts_done
  have hChain := h.chain hDone
  rwa [List.append_nil] at hChain

/-- In every layer but that of comparisons, further links may follow a link. -/
theorem Accepts.link {before between : List Char} (hLayer : layer ≠ .comparison)
    (spelling : Spelling layer) (hBefore : Blank before) (hBetween : Blank between)
    (hFirst : (Phrase.layers layers).Accepts first) (h : (Phrase.links layer layers).Accepts text) :
    (Phrase.links layer layers).Accepts
      (before ++ (spelling.characters ++ (between ++ (first ++ text)))) := by
  obtain ⟨item, hItem⟩ := hFirst
  obtain ⟨more, hMore⟩ := h
  exact ⟨.link hLayer spelling item more, .link hBefore hBetween hItem hMore⟩

/-- A single link, which in any layer may be the last one. -/
theorem Accepts.lastLink {before between : List Char} (spelling : Spelling layer)
    (hBefore : Blank before) (hBetween : Blank between) (h : (Phrase.layers layers).Accepts text) :
    (Phrase.links layer layers).Accepts
      (before ++ (spelling.characters ++ (between ++ text))) := by
  by_cases hLayer : layer = .comparison
  · subst hLayer
    obtain ⟨item, hItem⟩ := h
    exact ⟨.comparison spelling item, .comparison hBefore hBetween hItem⟩
  · have hLink := Accepts.link hLayer spelling hBefore hBetween h accepts_done
    rwa [List.append_nil] at hLink

/-- White space before and after an expression belongs to what stands in parentheses. -/
theorem Accepts.padded {before after : List Char} (h : Phrase.expression.Accepts text)
    (hBefore : Blank before) (hAfter : Blank after) :
    Phrase.padded.Accepts (before ++ (text ++ after)) := by
  obtain ⟨inner, hInner⟩ := h
  exact ⟨.padded inner, List.append_assoc .. ▸ .padded hBefore hInner hAfter⟩

/-- White space after a padded text is part of it. -/
theorem Accepts.append_blank {after : List Char} (h : Phrase.padded.Accepts text)
    (hAfter : Blank after) : Phrase.padded.Accepts (text ++ after) := by
  obtain ⟨_, hText⟩ := h
  cases hText with
  | @padded inner before body behind hBefore hInner hBehind =>
      rw [List.append_assoc, List.append_assoc]
      exact Accepts.padded ⟨inner, hInner⟩ hBefore (hBehind.append hAfter)

/-! ### Beginnings of the productions -/

/-- A name by itself is a text of every layer. -/
theorem accepts_layers_name (name : Name) (layers : List Layer) :
    (Phrase.layers layers).Accepts name.characters := by
  induction layers with
  | nil => exact (accepts_name name).plain.operand
  | cons layer layers ih => exact ih.alone

/-- Every phrase has a text, which begins with nothing. -/
theorem begins_nil (phrase : Phrase) : phrase.Begins [] := by
  have hText : ∃ text, phrase.Accepts text := by
    cases phrase with
    | padded => exact ⟨_, (accepts_layers_name .conditional Layer.all).padded blank_nil blank_nil⟩
    | layers layers => exact ⟨_, accepts_layers_name .conditional layers⟩
    | links layer layers => exact ⟨_, accepts_done⟩
    | factorialOperand => exact ⟨_, (accepts_name .conditional).plain⟩
    | primary => exact ⟨_, accepts_name .conditional⟩
  obtain ⟨text, hText⟩ := hText
  exact begins_of_append hText

/-- White space before the beginning of an expression is part of the beginning. -/
theorem Begins.padded (h : Phrase.expression.Begins text) (hBlanks : Blank blanks) :
    Phrase.padded.Begins (blanks ++ text) := by
  obtain ⟨more, body, after, hText, hBody, hAfter⟩ := h
  have hPadded : Phrase.padded.Accepts (blanks ++ text ++ more) := by
    rw [List.append_assoc, hText]
    exact hBody.padded hBlanks hAfter
  exact begins_of_append hPadded

/-- White space after it does not matter to a padded text. -/
theorem Begins.exists_accepts (h : Phrase.padded.Begins text) :
    ∃ more, Phrase.padded.Accepts (text ++ more) := by
  obtain ⟨more, body, after, hText, hBody, hAfter⟩ := h
  exact ⟨more, hText ▸ hBody.append_blank hAfter⟩

/-- What is put in parentheses can be continued as it can be outside, and then closed. -/
theorem Begins.close (h : Phrase.padded.Begins text) (front : List Char)
    (hWhole : ∀ body, Phrase.padded.Accepts body → whole.Accepts (front ++ (body ++ [')']))) :
    whole.Begins (front ++ text) := by
  obtain ⟨more, hMore⟩ := h.exists_accepts
  have hClosed : whole.Accepts (front ++ text ++ (more ++ [')'])) := by
    rw [List.append_assoc, ← List.append_assoc text]
    exact hWhole _ hMore
  exact begins_of_append hClosed

/-- After the parenthesis, the beginning of what stands in it is a beginning of the operand. -/
theorem Begins.parenthetical (h : Phrase.padded.Begins text) :
    Phrase.primary.Begins ('(' :: text) :=
  h.close ['('] fun _ hBody => hBody.parenthetical

theorem Begins.unaryCall (h : Phrase.padded.Begins text) (name : Name) :
    Phrase.primary.Begins (name.characters ++ '(' :: text) := by
  have hCall : Phrase.primary.Begins (name.characters ++ ['('] ++ text) :=
    h.close _ fun body hBody => by simpa using hBody.unaryCall name
  simpa using hCall

/-- A call may be cut off within its second argument, where the first one is whole. -/
theorem Accepts.begins_binaryCall (hFirst : Phrase.padded.Accepts first) (h : Phrase.padded.Begins text)
    (name : Name) : Phrase.primary.Begins (name.characters ++ '(' :: (first ++ ',' :: text)) := by
  have hCall : Phrase.primary.Begins (name.characters ++ '(' :: (first ++ [',']) ++ text) :=
    h.close _ fun body hBody => by simpa using hFirst.binaryCall hBody name
  simpa using hCall

/-- A conditional may be cut off within its last part, where the other two are whole. -/
theorem Accepts.begins_conditional (hFirst : Phrase.padded.Accepts first)
    (hSecond : Phrase.padded.Accepts second) (h : Phrase.padded.Begins text) :
    Phrase.primary.Begins ('i' :: 'f' :: '(' :: (first ++ ',' :: (second ++ ',' :: text))) := by
  have hConditional : Phrase.primary.Begins
      ('i' :: 'f' :: '(' :: (first ++ ',' :: (second ++ [','])) ++ text) :=
    h.close _ fun body hBody => by simpa using hFirst.conditional hSecond hBody
  simpa using hConditional

theorem Begins.plain (h : Phrase.primary.Begins text) : Phrase.factorialOperand.Begins text :=
  h.map [] fun _ hBody => hBody.plain

theorem Begins.operand (h : Phrase.factorialOperand.Begins text) :
    (Phrase.layers []).Begins text :=
  h.map [] fun _ hBody => hBody.operand

theorem Begins.negation (h : Phrase.factorialOperand.Begins text) :
    (Phrase.layers []).Begins ('-' :: text) :=
  h.map ['-'] fun _ hBody => hBody.negation

/-- An operand that is cut off begins a chain of the layer around it. -/
theorem Begins.alone (h : (Phrase.layers layers).Begins text) :
    (Phrase.layers (layer :: layers)).Begins text :=
  h.map [] fun _ hBody => hBody.alone

/-- A chain may be cut off within its links, where its first operand is whole. -/
theorem Begins.chain (hFirst : (Phrase.layers layers).Accepts first)
    (h : (Phrase.links layer layers).Begins text) :
    (Phrase.layers (layer :: layers)).Begins (first ++ text) :=
  h.map first fun _ hBody => hFirst.chain hBody

/-- After an operator, the beginning of an operand is the beginning of a link. -/
theorem Begins.lastLink {before between : List Char} (spelling : Spelling layer)
    (hBefore : Blank before) (hBetween : Blank between) (h : (Phrase.layers layers).Begins text) :
    (Phrase.links layer layers).Begins
      (before ++ (spelling.characters ++ (between ++ text))) := by
  have hLink : (Phrase.links layer layers).Begins
      (before ++ (spelling.characters ++ between) ++ text) :=
    h.map _ fun body hBody => by simpa using hBody.lastLink spelling hBefore hBetween
  simpa using hLink

/-- A link that is whole may be followed by links that are cut off. -/
theorem Begins.link {before between : List Char} (hLayer : layer ≠ .comparison)
    (spelling : Spelling layer) (hBefore : Blank before) (hBetween : Blank between)
    (hFirst : (Phrase.layers layers).Accepts first) (h : (Phrase.links layer layers).Begins text) :
    (Phrase.links layer layers).Begins
      (before ++ (spelling.characters ++ (between ++ (first ++ text)))) := by
  have hLink : (Phrase.links layer layers).Begins
      (before ++ (spelling.characters ++ (between ++ first)) ++ text) :=
    h.map _ fun body hBody => by simpa using hFirst.link hLayer spelling hBefore hBetween hBody
  simpa using hLink

/-- White space before the next link is part of that link, or else comes after the whole chain. -/
theorem Begins.blank_append (h : (Phrase.links layer layers).Begins text) (hBlanks : Blank blanks) :
    (Phrase.links layer layers).Begins (blanks ++ text) := by
  obtain ⟨more, body, after, hText, ⟨_, hBody⟩, hAfter⟩ := h
  cases hBody with
  | done =>
      refine ⟨more, [], blanks ++ after, ?_, accepts_done, hBlanks.append hAfter⟩
      rw [List.append_assoc, hText]
      rfl
  | @link _ _ hLayer spelling item others before between _ tail hBefore hBetween hItem hMore =>
      refine ⟨more, _, after, ?_, Accepts.link hLayer spelling (hBlanks.append hBefore) hBetween
        ⟨item, hItem⟩ ⟨others, hMore⟩, hAfter⟩
      simp only [List.append_assoc, hText]
  | @comparison _ spelling item before between _ hBefore hBetween hItem =>
      refine ⟨more, _, after, ?_, Accepts.lastLink spelling (hBlanks.append hBefore) hBetween
        ⟨item, hItem⟩, hAfter⟩
      simp only [List.append_assoc, hText]

end Formula.Grammar.Phrase
