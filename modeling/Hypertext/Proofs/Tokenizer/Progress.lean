import Hypertext.Proofs.Tokenizer.Gauge

/-!
# Every state makes progress

For every state: its rule uses up a character, or pushes it back for a state of lower rank, unless a
token waits or the input has ended; and it adds no more to the queue than the characters allow.
-/

namespace Hypertext.Tokenizer

variable {t : Tokenizer} {g : Gauge} {ahead : List Char} {s : State} {r : Option State}
  {b : List Char} {k : Bool}

/-! ## 1. Text -/

theorem moves_data (h : t.gauge = .given ahead .data r b k) :
    Moves ahead .data r b (t.data ahead.head?).gauge := by
  cases ahead with
  | nil => exact .last rfl (by simp [data, h])
  | cons c rest =>
    simp only [List.head?_cons, data]
    split_ifs
    · exact .read rfl (by simp [h]) (by simp [h, isAttributeValue])
    · exact .read rfl (by simp [h]) (by simp [h])
    · exact .read rfl (by simp [h]) (by simp [h])
    · exact .read rfl (by simp [h]) (by simp [h])

theorem moves_rawCharacter (h : t.gauge = .given ahead s r b k) :
    Moves ahead s r b (t.rawCharacter ahead.head?).gauge := by
  cases ahead with
  | nil => exact .last rfl (by simp [rawCharacter, h])
  | cons c rest =>
    simp only [List.head?_cons, rawCharacter]
    split_ifs
    · exact .read rfl (by simp [h]) (by simp [h, Nat.add_comm])
    · exact .read rfl (by simp [h]) (by simp [h, Nat.add_comm])

theorem moves_tagOpen (h : t.gauge = .given ahead .tagOpen r b k) :
    Moves ahead .tagOpen r b (t.tagOpen ahead.head?).gauge := by
  cases ahead with
  | nil => exact .last rfl (by simp [tagOpen, h])
  | cons c rest =>
    simp only [List.head?_cons, tagOpen]
    split_ifs
    · exact .read rfl (by simp [h]) (by simp [h])
    · exact .read rfl (by simp [h]) (by simp [h])
    · exact .back (by simp [h]) (by simp [h]) (by simp [h])
    · exact .back (by simp [h]) (by simp [h]) (by simp [h])
    · exact .back (by simp [h]) (by simp [h]) (by simp [h])

theorem moves_endTagOpen (h : t.gauge = .given ahead .endTagOpen r b k) :
    Moves ahead .endTagOpen r b (t.endTagOpen ahead.head?).gauge := by
  cases ahead with
  | nil => exact .last rfl (by simp [endTagOpen, h])
  | cons c rest =>
    simp only [List.head?_cons, endTagOpen]
    split_ifs
    · exact .back (by simp [h]) (by simp [h]) (by simp [h])
    · exact .read rfl (by simp [h]) (by simp [h])
    · exact .back (by simp [h]) (by simp [h]) (by simp [h])

theorem moves_cdataSection (h : t.gauge = .given ahead .cdataSection r b k) :
    Moves ahead .cdataSection r b (t.cdataSection ahead.head?).gauge := by
  cases ahead with
  | nil => exact .last rfl (by simp [cdataSection, h])
  | cons c rest =>
    simp only [List.head?_cons, cdataSection]
    split_ifs
    · exact .read rfl (by simp [h]) (by simp [h])
    · exact .read rfl (by simp [h]) (by simp [h])

theorem moves_cdataSectionBracket (h : t.gauge = .given ahead .cdataSectionBracket r b k) :
    Moves ahead .cdataSectionBracket r b (t.cdataSectionBracket ahead.head?).gauge := by
  unfold cdataSectionBracket
  split_ifs with hc
  · exact .read hc (by simp [h]) (by simp [h])
  · exact .back (by simp [h]) (by simp [h]) (by simp [h])

theorem moves_cdataSectionEnd (h : t.gauge = .given ahead .cdataSectionEnd r b k) :
    Moves ahead .cdataSectionEnd r b (t.cdataSectionEnd ahead.head?).gauge := by
  unfold cdataSectionEnd
  split_ifs with hc hc
  · exact .read hc (by simp [h]) (by simp [h])
  · exact .read hc (by simp [h]) (by simp [h])
  · exact .back (by simp [h]) (by simp [h]) (by simp [h])

/-! ## 2. Raw text -/

theorem moves_escapedCharacter {s' : State} (h : t.gauge = .given ahead s r b k)
    (hs : debt r b s' ≤ debt r b s) :
    Moves ahead s r b (t.escapedCharacter s' ahead.head?).gauge := by
  cases ahead with
  | nil => exact .last rfl (by simp [escapedCharacter, endInScriptComment, h])
  | cons c rest =>
    simp only [List.head?_cons, escapedCharacter]
    split_ifs
    · exact .read rfl (by simp [h]) (by simpa [h, Nat.add_comm] using hs)
    · exact .read rfl (by simp [h]) (by simpa [h, Nat.add_comm] using hs)

theorem moves_text (kind : RawText) (h : t.gauge = .given ahead (.text kind) r b k) :
    Moves ahead (.text kind) r b (t.text kind ahead.head?).gauge := by
  unfold text
  split
  · next hc => exact .read hc (by simp [h]) (by simp [h])
  · cases kind with
    | rcdata =>
      dsimp only
      split
      · next hc => exact .read hc (by simp [h]) (by simp [h, isAttributeValue])
      · exact moves_rawCharacter h
    | rawtext => exact moves_rawCharacter h
    | scriptData => exact moves_rawCharacter h
    | scriptDataEscaped =>
      dsimp only
      split
      · next hc => exact .read hc (by simp [h]) (by simp [h])
      · exact moves_escapedCharacter h (Nat.le_refl _)

theorem moves_textLessThanSign (kind : RawText)
    (h : t.gauge = .given ahead (.textLessThanSign kind) r b k) :
    Moves ahead (.textLessThanSign kind) r b (t.textLessThanSign kind ahead.head?).gauge := by
  unfold textLessThanSign
  split_ifs with hc hc
  · exact .read hc (by simp [h]) (by simp [h])
  · exact .read hc.2 (by simp [h]) (by simp [h])
  · exact .back (by simp [h]) (by simp [h]) (by simp [h])
  · exact .back (by simp [h]) (by simp [h]) (by simp [h])

theorem moves_textEndTagOpen (kind : RawText)
    (h : t.gauge = .given ahead (.textEndTagOpen kind) r b k) :
    Moves ahead (.textEndTagOpen kind) r b (t.textEndTagOpen kind ahead.head?).gauge := by
  unfold textEndTagOpen
  split_ifs
  · exact .back (by simp [h]) (by simp [h]) (by simp [h])
  · exact .back (by simp [h]) (by simp [h]) (by simp [h])

theorem moves_abandonEndTag (kind : RawText)
    (h : t.gauge = .given ahead (.textEndTagName kind) r b k) :
    Moves ahead (.textEndTagName kind) r b (t.abandonEndTag kind).gauge := by
  have hbuffer : t.buffer = b := congrArg Gauge.buffer h
  unfold abandonEndTag
  exact .back (by simp [h]) (by simp [h]) (by simp [h, hbuffer])

theorem moves_textEndTagName (kind : RawText)
    (h : t.gauge = .given ahead (.textEndTagName kind) r b k) :
    Moves ahead (.textEndTagName kind) r b (t.textEndTagName kind ahead.head?).gauge := by
  cases ahead with
  | nil => exact moves_abandonEndTag kind h
  | cons c rest =>
    have hbuffer : (t.editTag (.name c.toLower)).buffer = b :=
      congrArg Gauge.buffer ((gauge_editTag t _).trans h)
    simp only [List.head?_cons, textEndTagName]
    split_ifs
    · exact .read rfl (by simp [h]) (by simp [h])
    · exact .read rfl (by simp [h]) (by simp [h])
    · exact .finish rfl (by simp [h]) (by simp [h])
    · exact .read rfl (by simp [h]) (by simp [h, hbuffer, Nat.add_assoc])
    · exact moves_abandonEndTag kind h

/-! ## 3. Script data -/

theorem moves_scriptDataEscapeStart (h : t.gauge = .given ahead .scriptDataEscapeStart r b k) :
    Moves ahead .scriptDataEscapeStart r b (t.scriptDataEscapeStart ahead.head?).gauge := by
  unfold scriptDataEscapeStart
  split_ifs with hc
  · exact .read hc (by simp [h]) (by simp [h])
  · exact .back (by simp [h]) (by simp [h]) (by simp [h])

theorem moves_scriptDataEscapeStartDash
    (h : t.gauge = .given ahead .scriptDataEscapeStartDash r b k) :
    Moves ahead .scriptDataEscapeStartDash r b (t.scriptDataEscapeStartDash ahead.head?).gauge := by
  unfold scriptDataEscapeStartDash
  split_ifs with hc
  · exact .read hc (by simp [h]) (by simp [h])
  · exact .back (by simp [h]) (by simp [h]) (by simp [h])

theorem moves_scriptDataEscapedDash (h : t.gauge = .given ahead .scriptDataEscapedDash r b k) :
    Moves ahead .scriptDataEscapedDash r b (t.scriptDataEscapedDash ahead.head?).gauge := by
  unfold scriptDataEscapedDash
  split_ifs with hc hc
  · exact .read hc (by simp [h]) (by simp [h])
  · exact .read hc (by simp [h]) (by simp [h])
  · exact moves_escapedCharacter h (Nat.le_refl _)

theorem moves_scriptDataEscapedDashDash
    (h : t.gauge = .given ahead .scriptDataEscapedDashDash r b k) :
    Moves ahead .scriptDataEscapedDashDash r b (t.scriptDataEscapedDashDash ahead.head?).gauge := by
  unfold scriptDataEscapedDashDash
  split_ifs with hc hc hc
  · exact .read hc (by simp [h]) (by simp [h])
  · exact .read hc (by simp [h]) (by simp [h])
  · exact .read hc (by simp [h]) (by simp [h])
  · exact moves_escapedCharacter h (Nat.le_refl _)

/-- The two states at either end lead to states that read every character. -/
theorem moves_doubleEscapeBoundary {s₁ s₂ : State} (h : t.gauge = .given ahead s r b k)
    (hrank : rank ahead.head? s₂ < rank ahead.head? s)
    (hdebt : ∀ b, debt r b s = 0 ∧ debt r b s₁ = 0 ∧ debt r b s₂ = 0) :
    Moves ahead s r b (t.doubleEscapeBoundary s₁ s₂ ahead.head?).gauge := by
  have hback : Moves ahead s r b (t.reconsumeIn s₂).gauge := by
    refine .back (by simp [h]) (Or.inr hrank) ?_
    rw [gauge_reconsumeIn, h]
    show 0 + debt r b s₂ ≤ debt r b s
    rw [(hdebt b).2.2]
    omega
  cases ahead with
  | nil => exact hback
  | cons c rest =>
    simp only [List.head?_cons, doubleEscapeBoundary]
    split
    · refine .read rfl (by simp [h]) ?_
      split <;> simp only [gauge_emitChar, gauge_switchTo, h, hdebt, Nat.le_refl]
    · split
      · exact .read rfl
          (by simp [h]) (by simp only [gauge_emitChar, gauge_buffer, h, hdebt, Nat.le_refl])
      · exact hback

theorem moves_scriptDataDoubleEscaped (h : t.gauge = .given ahead .scriptDataDoubleEscaped r b k) :
    Moves ahead .scriptDataDoubleEscaped r b (t.scriptDataDoubleEscaped ahead.head?).gauge := by
  unfold scriptDataDoubleEscaped
  split_ifs with hc hc
  · exact .read hc (by simp [h]) (by simp [h])
  · exact .read hc (by simp [h]) (by simp [h])
  · exact moves_escapedCharacter h (Nat.le_refl _)

theorem moves_scriptDataDoubleEscapedDash
    (h : t.gauge = .given ahead .scriptDataDoubleEscapedDash r b k) :
    Moves ahead .scriptDataDoubleEscapedDash r b
      (t.scriptDataDoubleEscapedDash ahead.head?).gauge := by
  unfold scriptDataDoubleEscapedDash
  split_ifs with hc hc
  · exact .read hc (by simp [h]) (by simp [h])
  · exact .read hc (by simp [h]) (by simp [h])
  · exact moves_escapedCharacter h (Nat.le_refl _)

theorem moves_scriptDataDoubleEscapedDashDash
    (h : t.gauge = .given ahead .scriptDataDoubleEscapedDashDash r b k) :
    Moves ahead .scriptDataDoubleEscapedDashDash r b
      (t.scriptDataDoubleEscapedDashDash ahead.head?).gauge := by
  unfold scriptDataDoubleEscapedDashDash
  split_ifs with hc hc hc
  · exact .read hc (by simp [h]) (by simp [h])
  · exact .read hc (by simp [h]) (by simp [h])
  · exact .read hc (by simp [h]) (by simp [h])
  · exact moves_escapedCharacter h (Nat.le_refl _)

theorem moves_scriptDataDoubleEscapedLessThanSign
    (h : t.gauge = .given ahead .scriptDataDoubleEscapedLessThanSign r b k) :
    Moves ahead .scriptDataDoubleEscapedLessThanSign r b
      (t.scriptDataDoubleEscapedLessThanSign ahead.head?).gauge := by
  unfold scriptDataDoubleEscapedLessThanSign
  split_ifs with hc
  · exact .read hc (by simp [h]) (by simp [h])
  · exact .back (by simp [h]) (by simp [h]) (by simp [h])

/-! ## 4. Tags -/

theorem moves_tagName (h : t.gauge = .given ahead .tagName r b k) :
    Moves ahead .tagName r b (t.tagName ahead.head?).gauge := by
  cases ahead with
  | nil => exact .last rfl (by simp [tagName, h])
  | cons c rest =>
    simp only [List.head?_cons, tagName]
    split_ifs
    · exact .read rfl (by simp [h]) (by simp [h])
    · exact .read rfl (by simp [h]) (by simp [h])
    · exact .finish rfl (by simp [h]) (by simp [h])
    · exact .read rfl (by simp [h]) (by simp [h])
    · exact .read rfl (by simp [h]) (by simp [h])

/-- Before a name the next character goes to one of the two states that hand characters to each
other. -/
theorem rank_attributeName_lt (next : Option Char) :
    rank next .attributeName < rank next .beforeAttributeName ∧
      rank next .afterAttributeName < rank next .beforeAttributeName := by
  rw [rank, rank, rank]
  split <;> decide

theorem moves_beforeAttributeName (h : t.gauge = .given ahead .beforeAttributeName r b k) :
    Moves ahead .beforeAttributeName r b (t.beforeAttributeName ahead.head?).gauge := by
  have hrank := rank_attributeName_lt ahead.head?
  have hafter : Moves ahead .beforeAttributeName r b (t.reconsumeIn .afterAttributeName).gauge :=
    .back (by simp [h]) (Or.inr hrank.2) (by simp [h])
  cases ahead with
  | nil => exact hafter
  | cons c rest =>
    simp only [List.head?_cons, beforeAttributeName]
    split_ifs
    · exact .read rfl (by simp [h]) (by simp [h])
    · exact hafter
    · exact .read rfl (by simp [h]) (by simp [h])
    · exact .back (by simp [h]) (Or.inr hrank.1) (by simp [h])

theorem moves_attributeName (h : t.gauge = .given ahead .attributeName r b k) :
    Moves ahead .attributeName r b (t.attributeName ahead.head?).gauge := by
  cases ahead with
  | nil =>
    show Moves [] .attributeName r b (t.checkDuplicate.reconsumeIn .afterAttributeName).gauge
    exact .back (by simp [h]) (by simp [endsName]) (by simp [h])
  | cons c rest =>
    simp only [List.head?_cons, attributeName]
    split_ifs with hends
    · exact .back (by simp [h]) (by simp [h, endsName, hends]) (by simp [h])
    · exact .read rfl (by simp [h]) (by simp [h])
    · exact .read rfl (by simp [h]) (by simp [h])
    · exact .read rfl (by simp [h]) (by simp [h])
    · exact .read rfl (by simp [h]) (by simp [h])

theorem moves_afterAttributeName (h : t.gauge = .given ahead .afterAttributeName r b k) :
    Moves ahead .afterAttributeName r b (t.afterAttributeName ahead.head?).gauge := by
  cases ahead with
  | nil => exact .last rfl (by simp [afterAttributeName, h])
  | cons c rest =>
    simp only [List.head?_cons, afterAttributeName]
    split_ifs with hblank hslash hequals hclose
    · exact .read rfl (by simp [h]) (by simp [h])
    · exact .read rfl (by simp [h]) (by simp [h])
    · exact .read rfl (by simp [h]) (by simp [h])
    · exact .finish rfl (by simp [h]) (by simp [h])
    · exact .back (by simp [h]) (by simp [h, endsName, hblank, hslash, hclose])
        (by simp [h])

theorem moves_beforeAttributeValue (h : t.gauge = .given ahead .beforeAttributeValue r b k) :
    Moves ahead .beforeAttributeValue r b (t.beforeAttributeValue ahead.head?).gauge := by
  cases ahead with
  | nil =>
    show Moves [] .beforeAttributeValue r b (t.reconsumeIn .attributeValueUnquoted).gauge
    exact .back (by simp [h]) (by simp) (by simp [h])
  | cons c rest =>
    simp only [List.head?_cons, beforeAttributeValue]
    split_ifs
    · exact .read rfl (by simp [h]) (by simp [h])
    · exact .read rfl (by simp [h]) (by simp [h])
    · exact .read rfl (by simp [h]) (by simp [h])
    · exact .finish rfl (by simp [h]) (by simp [h])
    · exact .back (by simp [h]) (by simp [h]) (by simp [h])

theorem moves_attributeValueQuoted (quote : Quote)
    (h : t.gauge = .given ahead (.attributeValueQuoted quote) r b k) :
    Moves ahead (.attributeValueQuoted quote) r b
      (t.attributeValueQuoted quote ahead.head?).gauge := by
  cases ahead with
  | nil => exact .last rfl (by simp [attributeValueQuoted, h])
  | cons c rest =>
    simp only [List.head?_cons, attributeValueQuoted]
    split_ifs
    · exact .read rfl (by simp [h]) (by simp [h])
    · exact .read rfl (by simp [h]) (by simp [h, isAttributeValue])
    · exact .read rfl (by simp [h]) (by simp [h])
    · exact .read rfl (by simp [h]) (by simp [h])

theorem moves_attributeValueUnquoted (h : t.gauge = .given ahead .attributeValueUnquoted r b k) :
    Moves ahead .attributeValueUnquoted r b (t.attributeValueUnquoted ahead.head?).gauge := by
  cases ahead with
  | nil => exact .last rfl (by simp [attributeValueUnquoted, h])
  | cons c rest =>
    simp only [List.head?_cons, attributeValueUnquoted]
    split_ifs
    · exact .read rfl (by simp [h]) (by simp [h])
    · exact .read rfl (by simp [h]) (by simp [h, isAttributeValue])
    · exact .finish rfl (by simp [h]) (by simp [h])
    · exact .read rfl (by simp [h]) (by simp [h])
    · exact .read rfl (by simp [h]) (by simp [h])
    · exact .read rfl (by simp [h]) (by simp [h])

theorem moves_afterAttributeValueQuoted
    (h : t.gauge = .given ahead .afterAttributeValueQuoted r b k) :
    Moves ahead .afterAttributeValueQuoted r b (t.afterAttributeValueQuoted ahead.head?).gauge := by
  cases ahead with
  | nil => exact .last rfl (by simp [afterAttributeValueQuoted, h])
  | cons c rest =>
    simp only [List.head?_cons, afterAttributeValueQuoted]
    split_ifs
    · exact .read rfl (by simp [h]) (by simp [h])
    · exact .read rfl (by simp [h]) (by simp [h])
    · exact .finish rfl (by simp [h]) (by simp [h])
    · exact .back (by simp [h]) (by simp [h]) (by simp [h])

theorem moves_selfClosingStartTag (h : t.gauge = .given ahead .selfClosingStartTag r b k) :
    Moves ahead .selfClosingStartTag r b (t.selfClosingStartTag ahead.head?).gauge := by
  cases ahead with
  | nil => exact .last rfl (by simp [selfClosingStartTag, h])
  | cons c rest =>
    simp only [List.head?_cons, selfClosingStartTag]
    split_ifs
    · exact .finish rfl (by simp [h]) (by simp [h])
    · exact .back (by simp [h]) (by simp [h]) (by simp [h])

/-! ## 5. Comments -/

theorem moves_bogusComment (h : t.gauge = .given ahead .bogusComment r b k) :
    Moves ahead .bogusComment r b (t.bogusComment ahead.head?).gauge := by
  cases ahead with
  | nil => exact .emitLast (by simp [h]) rfl
  | cons c rest =>
    simp only [List.head?_cons, bogusComment]
    split_ifs
    · exact .finish rfl (by simp [h]) (by simp [h])
    · exact .read rfl (by simp [h]) (by simp [h])
    · exact .read rfl (by simp [h]) (by simp [h])

theorem moves_commentStart (h : t.gauge = .given ahead .commentStart r b k) :
    Moves ahead .commentStart r b (t.commentStart ahead.head?).gauge := by
  unfold commentStart
  split_ifs with hc hc
  · exact .read hc (by simp [h]) (by simp [h])
  · exact .finish hc (by simp [h]) (by simp [h])
  · exact .back (by simp [h]) (by simp [h]) (by simp [h])

theorem moves_commentStartDash (h : t.gauge = .given ahead .commentStartDash r b k) :
    Moves ahead .commentStartDash r b (t.commentStartDash ahead.head?).gauge := by
  cases ahead with
  | nil => exact .emitLast (by simp [h]) rfl
  | cons c rest =>
    simp only [List.head?_cons, commentStartDash]
    split_ifs
    · exact .read rfl (by simp [h]) (by simp [h])
    · exact .finish rfl (by simp [h]) (by simp [h])
    · exact .back (by simp [h]) (by simp [h]) (by simp [h])

theorem moves_comment (h : t.gauge = .given ahead .comment r b k) :
    Moves ahead .comment r b (t.comment ahead.head?).gauge := by
  cases ahead with
  | nil => exact .emitLast (by simp [h]) rfl
  | cons c rest =>
    simp only [List.head?_cons, comment]
    split_ifs
    · exact .read rfl (by simp [h]) (by simp [h])
    · exact .read rfl (by simp [h]) (by simp [h])
    · exact .read rfl (by simp [h]) (by simp [h])
    · exact .read rfl (by simp [h]) (by simp [h])

theorem moves_commentLessThanSign (h : t.gauge = .given ahead .commentLessThanSign r b k) :
    Moves ahead .commentLessThanSign r b (t.commentLessThanSign ahead.head?).gauge := by
  unfold commentLessThanSign
  split_ifs with hc hc
  · exact .read hc (by simp [h]) (by simp [h])
  · exact .read hc (by simp [h]) (by simp [h])
  · exact .back (by simp [h]) (by simp [h]) (by simp [h])

theorem moves_commentLessThanSignBang (h : t.gauge = .given ahead .commentLessThanSignBang r b k) :
    Moves ahead .commentLessThanSignBang r b (t.commentLessThanSignBang ahead.head?).gauge := by
  unfold commentLessThanSignBang
  split_ifs with hc
  · exact .read hc (by simp [h]) (by simp [h])
  · exact .back (by simp [h]) (by simp [h]) (by simp [h])

theorem moves_commentLessThanSignBangDash
    (h : t.gauge = .given ahead .commentLessThanSignBangDash r b k) :
    Moves ahead .commentLessThanSignBangDash r b
      (t.commentLessThanSignBangDash ahead.head?).gauge := by
  unfold commentLessThanSignBangDash
  split_ifs with hc
  · exact .read hc (by simp [h]) (by simp [h])
  · exact .back (by simp [h]) (by simp [h]) (by simp [h])

theorem moves_commentLessThanSignBangDashDash
    (h : t.gauge = .given ahead .commentLessThanSignBangDashDash r b k) :
    Moves ahead .commentLessThanSignBangDashDash r b
      (t.commentLessThanSignBangDashDash ahead.head?).gauge := by
  unfold commentLessThanSignBangDashDash
  split_ifs
  · exact .back (by simp [h]) (by simp [h]) (by simp [h])
  · exact .back (by simp [h]) (by simp [h]) (by simp [h])

theorem moves_commentEndDash (h : t.gauge = .given ahead .commentEndDash r b k) :
    Moves ahead .commentEndDash r b (t.commentEndDash ahead.head?).gauge := by
  cases ahead with
  | nil => exact .emitLast (by simp [h]) rfl
  | cons c rest =>
    simp only [List.head?_cons, commentEndDash]
    split_ifs
    · exact .read rfl (by simp [h]) (by simp [h])
    · exact .back (by simp [h]) (by simp [h]) (by simp [h])

theorem moves_commentEnd (h : t.gauge = .given ahead .commentEnd r b k) :
    Moves ahead .commentEnd r b (t.commentEnd ahead.head?).gauge := by
  cases ahead with
  | nil => exact .emitLast (by simp [h]) rfl
  | cons c rest =>
    simp only [List.head?_cons, commentEnd]
    split_ifs
    · exact .finish rfl (by simp [h]) (by simp [h])
    · exact .read rfl (by simp [h]) (by simp [h])
    · exact .read rfl (by simp [h]) (by simp [h])
    · exact .back (by simp [h]) (by simp [h]) (by simp [h])

theorem moves_commentEndBang (h : t.gauge = .given ahead .commentEndBang r b k) :
    Moves ahead .commentEndBang r b (t.commentEndBang ahead.head?).gauge := by
  cases ahead with
  | nil => exact .emitLast (by simp [h]) rfl
  | cons c rest =>
    simp only [List.head?_cons, commentEndBang]
    split_ifs
    · exact .read rfl (by simp [h]) (by simp [h])
    · exact .finish rfl (by simp [h]) (by simp [h])
    · exact .back (by simp [h]) (by simp [h]) (by simp [h])

/-- Several characters are used up at once. -/
theorem Moves.skip (target : List Char) (hne : ahead ≠ []) (htarget : target ≠ [])
    (ha : g.ahead = ahead.drop target.length)
    (hy : g.queued + debt g.returnState g.buffer g.state ≤ debt r b s) : Moves ahead s r b g := by
  have hlength := List.length_pos_iff.2 hne
  have hskip := List.length_pos_iff.2 htarget
  have hdrop : g.ahead.length = ahead.length - target.length := by rw [ha, List.length_drop]
  refine ⟨Or.inr (Or.inr (Or.inl (by omega))), ?_⟩
  split <;> omega

theorem moves_markupDeclarationOpen (h : t.gauge = .given ahead .markupDeclarationOpen r b k) :
    Moves ahead .markupDeclarationOpen r b t.markupDeclarationOpen.gauge := by
  have hahead : t.input.pushBack.ahead = ahead := by rw [ahead_pushBack, h]; rfl
  cases ahead with
  | nil =>
    have hstart : t.markupDeclarationOpen = (({ t with input := t.input.pushBack }.report
        .incorrectlyOpenedComment).begin (.comment "")).switchTo .bogusComment := by
      simp [markupDeclarationOpen, Cursor.startsWith, Cursor.startsWithIgnoringCase, hahead,
        commentOpening, cdataOpening, doctypeOpening, Ascii.startsWithIgnoringCase]
    rw [hstart]
    exact .back (by simp [hahead]) (by simp [h]) (by simp [h])
  | cons c rest =>
    have hne : c :: rest ≠ [] := List.cons_ne_nil c rest
    unfold markupDeclarationOpen
    dsimp only
    split_ifs
    · exact .skip commentOpening hne (by decide) (by simp [Cursor.ahead_skip, hahead])
        (by simp [h])
    · exact .skip doctypeOpening hne (by decide) (by simp [Cursor.ahead_skip, hahead])
        (by simp [h])
    · exact .skip cdataOpening hne (by decide) (by simp [Cursor.ahead_skip, hahead])
        (by simp [h])
    · exact .skip cdataOpening hne (by decide) (by simp [Cursor.ahead_skip, hahead])
        (by simp [h])
    · exact .back (by simp [hahead]) (by simp [h]) (by simp [h])

/-! ## 6. Document types -/

theorem moves_doctype (h : t.gauge = .given ahead .doctype r b k) :
    Moves ahead .doctype r b (t.doctype ahead.head?).gauge := by
  cases ahead with
  | nil => exact .emitLast (by simp [h]) rfl
  | cons c rest =>
    simp only [List.head?_cons, doctype]
    split_ifs
    · exact .read rfl (by simp [h]) (by simp [h])
    · exact .back (by simp [h]) (by simp [h]) (by simp [h])
    · exact .back (by simp [h]) (by simp [h]) (by simp [h])

theorem moves_beforeDoctypeName (h : t.gauge = .given ahead .beforeDoctypeName r b k) :
    Moves ahead .beforeDoctypeName r b (t.beforeDoctypeName ahead.head?).gauge := by
  cases ahead with
  | nil => exact .emitLast (by simp [h]) rfl
  | cons c rest =>
    simp only [List.head?_cons, beforeDoctypeName]
    split_ifs
    · exact .read rfl (by simp [h]) (by simp [h])
    · exact .read rfl (by simp [beginDoctype, h]) (by simp [beginDoctype, h])
    · exact .finish rfl (by simp [h]) (by simp [h])
    · exact .read rfl (by simp [beginDoctype, h]) (by simp [beginDoctype, h])

theorem moves_doctypeName (h : t.gauge = .given ahead .doctypeName r b k) :
    Moves ahead .doctypeName r b (t.doctypeName ahead.head?).gauge := by
  cases ahead with
  | nil => exact .emitLast (by simp [h]) rfl
  | cons c rest =>
    simp only [List.head?_cons, doctypeName]
    split_ifs
    · exact .read rfl (by simp [h]) (by simp [h])
    · exact .finish rfl (by simp [h]) (by simp [h])
    · exact .read rfl (by simp [h]) (by simp [h])
    · exact .read rfl (by simp [h]) (by simp [h])

theorem moves_afterDoctypeName (h : t.gauge = .given ahead .afterDoctypeName r b k) :
    Moves ahead .afterDoctypeName r b (t.afterDoctypeName ahead.head?).gauge := by
  have hahead : t.input.pushBack.ahead = ahead := by rw [ahead_pushBack, h]; rfl
  cases ahead with
  | nil => exact .emitLast (by simp [h]) rfl
  | cons c rest =>
    have hne : c :: rest ≠ [] := List.cons_ne_nil c rest
    simp only [List.head?_cons, afterDoctypeName]
    split_ifs
    · exact .read rfl (by simp [h]) (by simp [h])
    · exact .finish rfl (by simp [h]) (by simp [h])
    · exact .skip publicKeyword hne (by decide) (by simp [Cursor.ahead_skip, hahead])
        (by simp [h])
    · exact .skip systemKeyword hne (by decide) (by simp [Cursor.ahead_skip, hahead])
        (by simp [h])
    · exact .back (by simp [hahead]) (by simp [h]) (by simp [h])

theorem moves_missingQuote (which : Identifier) (h : t.gauge = .given ahead s r b k)
    (hrank : rank ahead.head? s = 1) (hdebt : debt r b s = 1) :
    Moves ahead s r b (t.missingQuote which).gauge := by
  refine .back (by simp [missingQuote, h]) (Or.inr ?_) (by rw [hdebt]; simp [missingQuote, h])
  show 0 < rank ahead.head? s
  omega

theorem moves_afterDoctypeKeyword (which : Identifier)
    (h : t.gauge = .given ahead (.afterDoctypeKeyword which) r b k) :
    Moves ahead (.afterDoctypeKeyword which) r b
      (t.afterDoctypeKeyword which ahead.head?).gauge := by
  cases ahead with
  | nil => exact .emitLast (by simp [h]) rfl
  | cons c rest =>
    simp only [List.head?_cons, afterDoctypeKeyword]
    split_ifs
    · exact .read rfl (by simp [h]) (by simp [h])
    · exact .finish rfl (by simp [h]) (by simp [h])
    · split
      · exact .read rfl (by simp [beginIdentifier, h]) (by simp [beginIdentifier, h])
      · exact moves_missingQuote which h rfl rfl

theorem moves_beforeDoctypeIdentifier (which : Identifier)
    (h : t.gauge = .given ahead (.beforeDoctypeIdentifier which) r b k) :
    Moves ahead (.beforeDoctypeIdentifier which) r b
      (t.beforeDoctypeIdentifier which ahead.head?).gauge := by
  cases ahead with
  | nil => exact .emitLast (by simp [h]) rfl
  | cons c rest =>
    simp only [List.head?_cons, beforeDoctypeIdentifier]
    split_ifs
    · exact .read rfl (by simp [h]) (by simp [h])
    · exact .finish rfl (by simp [h]) (by simp [h])
    · split
      · exact .read rfl (by simp [beginIdentifier, h]) (by simp [beginIdentifier, h])
      · exact moves_missingQuote which h rfl rfl

theorem moves_doctypeIdentifier (which : Identifier) (quote : Quote)
    (h : t.gauge = .given ahead (.doctypeIdentifier which quote) r b k) :
    Moves ahead (.doctypeIdentifier which quote) r b
      (t.doctypeIdentifier which quote ahead.head?).gauge := by
  cases ahead with
  | nil => exact .emitLast (by simp [h]) rfl
  | cons c rest =>
    simp only [List.head?_cons, doctypeIdentifier]
    split_ifs
    · exact .read rfl (by simp [h]) (by simp [h])
    · exact .read rfl (by simp [h]) (by simp [h])
    · exact .finish rfl (by simp [h]) (by simp [h])
    · exact .read rfl (by simp [h]) (by simp [h])

theorem moves_afterPublicIdentifier
    (h : t.gauge = .given ahead (.afterDoctypeIdentifier .publicId) r b k) :
    Moves ahead (.afterDoctypeIdentifier .publicId) r b
      (t.afterPublicIdentifier ahead.head?).gauge := by
  cases ahead with
  | nil => exact .emitLast (by simp [h]) rfl
  | cons c rest =>
    simp only [List.head?_cons, afterPublicIdentifier]
    split_ifs
    · exact .read rfl (by simp [h]) (by simp [h])
    · exact .finish rfl (by simp [h]) (by simp [h])
    · split
      · exact .read rfl (by simp [beginIdentifier, h]) (by simp [beginIdentifier, h])
      · exact moves_missingQuote .systemId h rfl rfl

theorem moves_betweenDoctypeIdentifiers
    (h : t.gauge = .given ahead .betweenDoctypeIdentifiers r b k) :
    Moves ahead .betweenDoctypeIdentifiers r b (t.betweenDoctypeIdentifiers ahead.head?).gauge := by
  cases ahead with
  | nil => exact .emitLast (by simp [h]) rfl
  | cons c rest =>
    simp only [List.head?_cons, betweenDoctypeIdentifiers]
    split_ifs
    · exact .read rfl (by simp [h]) (by simp [h])
    · exact .finish rfl (by simp [h]) (by simp [h])
    · split
      · exact .read rfl (by simp [beginIdentifier, h]) (by simp [beginIdentifier, h])
      · exact moves_missingQuote .systemId h rfl rfl

theorem moves_afterSystemIdentifier
    (h : t.gauge = .given ahead (.afterDoctypeIdentifier .systemId) r b k) :
    Moves ahead (.afterDoctypeIdentifier .systemId) r b
      (t.afterSystemIdentifier ahead.head?).gauge := by
  cases ahead with
  | nil => exact .emitLast (by simp [h]) rfl
  | cons c rest =>
    simp only [List.head?_cons, afterSystemIdentifier]
    split_ifs
    · exact .read rfl (by simp [h]) (by simp [h])
    · exact .finish rfl (by simp [h]) (by simp [h])
    · exact .back (by simp [h]) (by simp [h]) (by simp [h])

theorem moves_bogusDoctype (h : t.gauge = .given ahead .bogusDoctype r b k) :
    Moves ahead .bogusDoctype r b (t.bogusDoctype ahead.head?).gauge := by
  cases ahead with
  | nil => exact .emitLast (by simp [h]) rfl
  | cons c rest =>
    simp only [List.head?_cons, bogusDoctype]
    split_ifs
    · exact .finish rfl (by simp [h]) (by simp [h])
    · exact .read rfl (by simp [h]) (by simp [h])
    · exact .read rfl (by simp [h]) (by simp [h])

/-! ## 7. Character references -/

/-- The states in which a reference can begin read every character. -/
theorem return_of_isHost (hr : ∀ s, r = some s → s.isHost = true) (next : Option Char)
    (b : List Char) :
    rank next (r.getD .data) = 0 ∧ debt none b (r.getD .data) = (isAttributeValue r).toNat := by
  cases r with
  | none => exact ⟨rfl, rfl⟩
  | some s =>
    have hs := hr s rfl
    cases s with
    | data => exact ⟨rfl, rfl⟩
    | text kind => exact ⟨rfl, rfl⟩
    | attributeValueQuoted quote => exact ⟨rfl, rfl⟩
    | attributeValueUnquoted => exact ⟨rfl, rfl⟩
    | _ => cases hs

@[simp] theorem gauge_resolve (t : Tokenizer) (cs : List Char) : (t.resolve cs).gauge =
    { t.gauge with
      buffer := cs
      queued := t.gauge.queued +
        if isAttributeValue t.gauge.returnState then 0 else cs.length } := by
  rw [resolve, gauge_flush, gauge_buffer]

/-- A reference is over, and the next character is for the state in which it began. -/
theorem Moves.comeBack (hr : ∀ s, r = some s → s.isHost = true) (ht : t.gauge.returnState = r)
    (ha : t.gauge.ahead = ahead) (hrank : 0 < rank ahead.head? s)
    (hy : t.gauge.queued + (isAttributeValue r).toNat ≤ debt r b s) :
    Moves ahead s r b t.switchToReturn.gauge := by
  obtain ⟨hrank', hdebt⟩ := return_of_isHost hr ahead.head? t.gauge.buffer
  rw [gauge_switchToReturn, ht]
  refine .back ha (Or.inr ?_) ?_
  · show rank ahead.head? (r.getD .data) < rank ahead.head? s
    omega
  · show t.gauge.queued + debt none t.gauge.buffer (r.getD .data) ≤ debt r b s
    omega

theorem Moves.reconsumeBack (hr : ∀ s, r = some s → s.isHost = true) (ht : t.gauge.returnState = r)
    (ha : t.gauge.previous = some ahead) (hrank : 0 < rank ahead.head? s)
    (hy : t.gauge.queued + (isAttributeValue r).toNat ≤ debt r b s) :
    Moves ahead s r b t.reconsumeInReturn.gauge := by
  have hahead : t.input.pushBack.ahead = ahead := by rw [ahead_pushBack, ha]; rfl
  exact .comeBack (t := { t with input := t.input.pushBack }) hr ht hahead hrank hy

/-- A reference is over, and its name has been used up. -/
theorem Moves.skipBack {name : List Char} (hr : ∀ s, r = some s → s.isHost = true) (hne : name ≠ [])
    (hname : name <+: ahead) (ht : t.gauge.returnState = r)
    (ha : t.gauge.ahead = ahead.drop name.length)
    (hy : t.gauge.queued + (isAttributeValue r).toNat ≤ debt r b s + name.length) :
    Moves ahead s r b t.switchToReturn.gauge := by
  obtain ⟨-, hdebt⟩ := return_of_isHost hr ahead.head? t.gauge.buffer
  have hpos := List.length_pos_iff.2 hne
  have hle := hname.length_le
  have hdrop : t.gauge.ahead.length = ahead.length - name.length := by rw [ha, List.length_drop]
  rw [gauge_switchToReturn, ht]
  refine ⟨Or.inr (Or.inr (Or.inl ?_)), ?_⟩
  · show t.gauge.ahead.length < ahead.length
    omega
  · show t.gauge.queued + (if t.gauge.ended then 0 else
      t.gauge.ahead.length + debt none t.gauge.buffer (r.getD .data) + 1) ≤
        ahead.length + debt r b s + 1
    split <;> omega

theorem moves_characterReference (hr : ∀ s, r = some s → s.isHost = true)
    (h : t.gauge = .given ahead .characterReference r b k) :
    Moves ahead .characterReference r b (t.characterReference ahead.head?).gauge := by
  unfold characterReference
  dsimp only
  split_ifs with halnum hc
  · exact .back (by simp [h]) (by simp) (by simp [h])
  · exact .read hc (by simp [h]) (by simp [h]; omega)
  · exact .reconsumeBack hr (by simp [h]) (by simp [h]) (by simp) (by simp [h]; split <;> omega)

theorem moves_namedCharacterReference (hr : ∀ s, r = some s → s.isHost = true)
    (h : t.gauge = .given ahead .namedCharacterReference r b k) :
    Moves ahead .namedCharacterReference r b t.namedCharacterReference.gauge := by
  have hahead : t.input.pushBack.ahead = ahead := by rw [ahead_pushBack, h]; rfl
  have hbuffer : t.buffer = b := congrArg Gauge.buffer h
  unfold namedCharacterReference
  dsimp only
  rw [hahead]
  split
  · exact .back (by simp [hahead]) (by simp) (by simp [h]; split <;> omega)
  · next entry hentry =>
    obtain ⟨hmem, hname⟩ := Entity.longestMatch_eq_some hentry
    obtain ⟨hne, htext⟩ := Entity.length_text_le entry hmem
    have hprefix : entry.name <+: ahead := hname.trans (nameCandidate_isPrefix _ _)
    split_ifs
    · exact .skipBack hr hne hprefix (by simp [gauge_input_buffer, h])
        (by simp [gauge_input_buffer, Cursor.ahead_skip, hahead])
        (by simp [gauge_input_buffer, h]; split <;> omega)
    · exact .skipBack hr hne hprefix (by simp [gauge_input_buffer, h])
        (by simp [gauge_input_buffer, Cursor.ahead_skip, hahead])
        (by simp [gauge_input_buffer, h, hbuffer]; split <;> omega)
    · exact .skipBack hr hne hprefix (by simp [gauge_input_buffer, h])
        (by simp [gauge_input_buffer, Cursor.ahead_skip, hahead])
        (by simp [gauge_input_buffer, h]; split <;> omega)

theorem moves_ambiguousAmpersand (hr : ∀ s, r = some s → s.isHost = true)
    (h : t.gauge = .given ahead .ambiguousAmpersand r b k) :
    Moves ahead .ambiguousAmpersand r b (t.ambiguousAmpersand ahead.head?).gauge := by
  have hback : Moves ahead .ambiguousAmpersand r b t.reconsumeInReturn.gauge :=
    .reconsumeBack hr (by simp [h]) (by simp [h]) (by simp) (by simp [h])
  cases ahead with
  | nil => exact hback
  | cons c rest =>
    simp only [List.head?_cons, ambiguousAmpersand]
    split_ifs
    · exact .read rfl (by simp [h]) (by simp [h]; split <;> omega)
    · exact .reconsumeBack hr (by simp [h]) (by simp [h]) (by simp) (by simp [h])
    · exact hback

theorem moves_numericCharacterReference
    (h : t.gauge = .given ahead .numericCharacterReference r b k) :
    Moves ahead .numericCharacterReference r b (t.numericCharacterReference ahead.head?).gauge := by
  have hbuffer : t.buffer = b := congrArg Gauge.buffer h
  unfold numericCharacterReference
  dsimp only
  split
  · next hc =>
    exact .read hc (by simp [gauge_buffer_code, h]) (by simp [gauge_buffer_code, h, hbuffer]; omega)
  · next hc =>
    exact .read hc (by simp [gauge_buffer_code, h]) (by simp [gauge_buffer_code, h, hbuffer]; omega)
  · exact .back (by simp [h]) (by simp) (by simp [h])

theorem moves_numericReferenceStart (hr : ∀ s, r = some s → s.isHost = true) (radix : Radix)
    (h : t.gauge = .given ahead (.numericReferenceStart radix) r b k) :
    Moves ahead (.numericReferenceStart radix) r b
      (t.numericReferenceStart radix ahead.head?).gauge := by
  unfold numericReferenceStart
  split_ifs
  · refine .back (by simp [h]) (by simp) ?_
    simp only [gauge_reconsumeIn, h, Option.getD_some, debt, Nat.zero_add, Nat.add_le_add_iff_right]
    exact Nat.le_max_left ..
  · exact .reconsumeBack hr (by simp [h]) (by simp [h]) (by simp) (by simp [h]; split <;> omega)

theorem moves_numericReferenceDigits (radix : Radix)
    (h : t.gauge = .given ahead (.numericReferenceDigits radix) r b k) :
    Moves ahead (.numericReferenceDigits radix) r b
      (t.numericReferenceDigits radix ahead.head?).gauge := by
  unfold numericReferenceDigits
  split
  · next digit hdigit =>
    obtain ⟨c, hc, -⟩ := Option.bind_eq_some_iff.1 hdigit
    exact .read hc (by simp [h]) (by simp [h])
  · split_ifs with hc
    · exact .read hc (by simp [h]) (by simp [h])
    · exact .back (by simp [h]) (by simp) (by simp [h])

theorem moves_numericReferenceEnd (hr : ∀ s, r = some s → s.isHost = true)
    (h : t.gauge = .given ahead .numericReferenceEnd r b k) :
    Moves ahead .numericReferenceEnd r b t.numericReferenceEnd.gauge := by
  have hahead : t.input.pushBack.ahead = ahead := by rw [ahead_pushBack, h]; rfl
  unfold numericReferenceEnd
  dsimp only
  split
  · exact .comeBack hr (by simp [h]) (by simp [hahead]) (by simp) (by simp [h]; split <;> omega)
  · exact .comeBack hr (by simp [h]) (by simp [hahead]) (by simp) (by simp [h]; split <;> omega)

/-! ## 8. One step -/

theorem moves_handle (hs : t.state = s) (hr : ∀ s, r = some s → s.isHost = true)
    (h : t.gauge = .given ahead s r b k) : Moves ahead s r b (t.handle ahead.head?).gauge := by
  unfold handle
  rw [hs]
  cases s with
  | data => exact moves_data h
  | plaintext => exact moves_rawCharacter h
  | text kind => exact moves_text kind h
  | textLessThanSign kind => exact moves_textLessThanSign kind h
  | textEndTagOpen kind => exact moves_textEndTagOpen kind h
  | textEndTagName kind => exact moves_textEndTagName kind h
  | tagOpen => exact moves_tagOpen h
  | endTagOpen => exact moves_endTagOpen h
  | tagName => exact moves_tagName h
  | scriptDataEscapeStart => exact moves_scriptDataEscapeStart h
  | scriptDataEscapeStartDash => exact moves_scriptDataEscapeStartDash h
  | scriptDataEscapedDash => exact moves_scriptDataEscapedDash h
  | scriptDataEscapedDashDash => exact moves_scriptDataEscapedDashDash h
  | scriptDataDoubleEscapeStart =>
    exact moves_doubleEscapeBoundary h (by simp) fun _ => ⟨rfl, rfl, rfl⟩
  | scriptDataDoubleEscaped => exact moves_scriptDataDoubleEscaped h
  | scriptDataDoubleEscapedDash => exact moves_scriptDataDoubleEscapedDash h
  | scriptDataDoubleEscapedDashDash => exact moves_scriptDataDoubleEscapedDashDash h
  | scriptDataDoubleEscapedLessThanSign => exact moves_scriptDataDoubleEscapedLessThanSign h
  | scriptDataDoubleEscapeEnd =>
    exact moves_doubleEscapeBoundary h (by simp) fun _ => ⟨rfl, rfl, rfl⟩
  | beforeAttributeName => exact moves_beforeAttributeName h
  | attributeName => exact moves_attributeName h
  | afterAttributeName => exact moves_afterAttributeName h
  | beforeAttributeValue => exact moves_beforeAttributeValue h
  | attributeValueQuoted quote => exact moves_attributeValueQuoted quote h
  | attributeValueUnquoted => exact moves_attributeValueUnquoted h
  | afterAttributeValueQuoted => exact moves_afterAttributeValueQuoted h
  | selfClosingStartTag => exact moves_selfClosingStartTag h
  | bogusComment => exact moves_bogusComment h
  | markupDeclarationOpen => exact moves_markupDeclarationOpen h
  | commentStart => exact moves_commentStart h
  | commentStartDash => exact moves_commentStartDash h
  | comment => exact moves_comment h
  | commentLessThanSign => exact moves_commentLessThanSign h
  | commentLessThanSignBang => exact moves_commentLessThanSignBang h
  | commentLessThanSignBangDash => exact moves_commentLessThanSignBangDash h
  | commentLessThanSignBangDashDash => exact moves_commentLessThanSignBangDashDash h
  | commentEndDash => exact moves_commentEndDash h
  | commentEnd => exact moves_commentEnd h
  | commentEndBang => exact moves_commentEndBang h
  | doctype => exact moves_doctype h
  | beforeDoctypeName => exact moves_beforeDoctypeName h
  | doctypeName => exact moves_doctypeName h
  | afterDoctypeName => exact moves_afterDoctypeName h
  | afterDoctypeKeyword which => exact moves_afterDoctypeKeyword which h
  | beforeDoctypeIdentifier which => exact moves_beforeDoctypeIdentifier which h
  | doctypeIdentifier which quote => exact moves_doctypeIdentifier which quote h
  | afterDoctypeIdentifier which =>
    cases which with
    | publicId => exact moves_afterPublicIdentifier h
    | systemId => exact moves_afterSystemIdentifier h
  | betweenDoctypeIdentifiers => exact moves_betweenDoctypeIdentifiers h
  | bogusDoctype => exact moves_bogusDoctype h
  | cdataSection => exact moves_cdataSection h
  | cdataSectionBracket => exact moves_cdataSectionBracket h
  | cdataSectionEnd => exact moves_cdataSectionEnd h
  | characterReference => exact moves_characterReference hr h
  | namedCharacterReference => exact moves_namedCharacterReference hr h
  | ambiguousAmpersand => exact moves_ambiguousAmpersand hr h
  | numericCharacterReference => exact moves_numericCharacterReference h
  | numericReferenceStart radix => exact moves_numericReferenceStart hr radix h
  | numericReferenceDigits radix => exact moves_numericReferenceDigits radix h
  | numericReferenceEnd => exact moves_numericReferenceEnd hr h

theorem gauge_consume (t : Tokenizer) : t.consume.gauge =
    { t.gauge with ahead := t.input.ahead.tail, previous := some t.input.ahead } := by
  have hadvance : ({ t with input := t.input.advance } : Tokenizer).gauge =
      { t.gauge with ahead := t.input.ahead.tail, previous := some t.input.ahead } := by
    rw [gauge_input, Cursor.ahead_advance, Cursor.previous_advance]
  obtain ⟨errors, heq, -⟩ := consume_eq_advance t
  rw [heq]
  exact hadvance

theorem moves_step (hr : ∀ s, t.returnState = some s → s.isHost = true) (hp : t.pending = [])
    (he : t.ended = false) :
    Moves t.input.ahead t.state t.returnState t.buffer t.step.gauge := by
  have hgiven : t.consume.gauge =
      .given t.input.ahead t.state t.returnState t.buffer t.current.isSome := by
    rw [gauge_consume, gauge, hp, he]
    rfl
  exact moves_handle (congrArg Gauge.state hgiven) hr hgiven

end Hypertext.Tokenizer
