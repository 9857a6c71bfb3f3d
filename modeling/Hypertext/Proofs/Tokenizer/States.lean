import Hypertext.Proofs.Tokenizer.Zones
import Hypertext.Tokenizer
import Mathlib.Tactic.SplitIfs

/-!
# What each state does

For every state: from a tokenizer without waiting tokens, its rule goes on reading in some zone,
comes to the end of the input, or finishes the token under construction.
-/

namespace Hypertext.Tokenizer

variable {t : Tokenizer} {z : Zone} {c : Option Char}

/-! ## 1. Text with markup -/

theorem stepped_data (h : Reads t .content t) : Stepped t (t.data c) := by
  cases c with
  | none => exact h.emitEnd
  | some c =>
    simp only [data]
    split_ifs
    · exact .reads _ (h.enterReference rfl rfl)
    · exact .reads _ (h.markStart.switchTo rfl)
    · exact .reads _ ((h.report _).emitChar rfl c)
    · exact .reads _ (h.emitChar rfl c)

theorem stepped_rawCharacter (h : Reads t z t) (hz : z.isText = true) :
    Stepped t (t.rawCharacter c) := by
  cases c with
  | none => exact h.emitEnd
  | some c =>
    simp only [rawCharacter]
    split_ifs
    · exact .reads _ ((h.report _).emitChar hz _)
    · exact .reads _ (h.emitChar hz c)

theorem stepped_tagOpen (h : Reads t .content t) (hp : t.pending = []) :
    Stepped t (t.tagOpen c) := by
  cases c with
  | none => exact ((h.report _).emitChar rfl _).emitEnd
  | some c =>
    simp only [tagOpen]
    split_ifs
    · exact .reads _ (h.switchTo rfl)
    · exact .reads _ (h.switchTo rfl)
    · exact .reads .tagName ((h.input _).begin hp rfl rfl)
    · exact .reads .comment (((h.report _).input _).begin hp rfl rfl)
    · exact .reads _ (((h.report _).emitChar rfl _).reconsumeIn rfl)

theorem stepped_endTagOpen (h : Reads t .content t) (hp : t.pending = []) :
    Stepped t (t.endTagOpen c) := by
  cases c with
  | none => exact (((h.report _).emitChar rfl _).emitChar rfl _).emitEnd
  | some c =>
    simp only [endTagOpen]
    split_ifs
    · exact .reads .tagName ((h.input _).begin hp rfl rfl)
    · exact .reads _ ((h.report _).switchTo rfl)
    · exact .reads .comment (((h.report _).input _).begin hp rfl rfl)

theorem stepped_markupDeclarationOpen (h : Reads t .content t) (hp : t.pending = []) :
    Stepped t t.markupDeclarationOpen := by
  unfold markupDeclarationOpen
  extract_lets t₁ t₂
  have h₁ : Reads t .content t₁ := h.input _
  have h₂ : Reads t .content t₂ := h₁.input _
  split_ifs
  · exact .reads .comment ((h₁.input _).begin hp rfl rfl)
  · exact .reads .doctype ((h₁.input _).enter hp rfl)
  · exact .reads _ (h₂.switchTo rfl)
  · exact .reads .comment ((h₂.report _).begin hp rfl rfl)
  · exact .reads .comment ((h₁.report _).begin hp rfl rfl)

theorem stepped_cdataSection (h : Reads t .content t) : Stepped t (t.cdataSection c) := by
  cases c with
  | none => exact (h.report _).emitEnd
  | some c =>
    simp only [cdataSection]
    split_ifs
    · exact .reads _ (h.switchTo rfl)
    · exact .reads _ (h.emitChar rfl c)

theorem stepped_cdataSectionBracket (h : Reads t .content t) :
    Stepped t (t.cdataSectionBracket c) := by
  unfold cdataSectionBracket
  split_ifs
  · exact .reads _ (h.switchTo rfl)
  · exact .reads _ ((h.emitChar rfl _).reconsumeIn rfl)

theorem stepped_cdataSectionEnd (h : Reads t .content t) : Stepped t (t.cdataSectionEnd c) := by
  unfold cdataSectionEnd
  split_ifs
  · exact .reads _ (h.emitChar rfl _)
  · exact .reads _ (h.switchTo rfl)
  · exact .reads _ (((h.emitChar rfl _).emitChar rfl _).reconsumeIn rfl)

/-! ## 2. Raw text -/

theorem stepped_escapedCharacter (h : Reads t .rawText t) {s : State}
    (hs : s.zone? = some .rawText) : Stepped t (t.escapedCharacter s c) := by
  cases c with
  | none => exact (h.report _).emitEnd
  | some c =>
    simp only [escapedCharacter]
    split_ifs
    · exact .reads _ (((h.report _).switchTo hs).emitChar rfl _)
    · exact .reads _ ((h.switchTo hs).emitChar rfl c)

theorem stepped_text (h : Reads t .rawText t) (kind : RawText) : Stepped t (t.text kind c) := by
  unfold text
  split
  · exact .reads _ (h.markStart.switchTo rfl)
  · cases kind with
    | rcdata =>
      dsimp only
      split
      · exact .reads _ (h.enterReference rfl rfl)
      · exact stepped_rawCharacter h rfl
    | rawtext => exact stepped_rawCharacter h rfl
    | scriptData => exact stepped_rawCharacter h rfl
    | scriptDataEscaped =>
      dsimp only
      split
      · exact .reads _ ((h.switchTo rfl).emitChar rfl _)
      · exact stepped_escapedCharacter h rfl

theorem stepped_textLessThanSign (h : Reads t .rawText t) (kind : RawText) :
    Stepped t (t.textLessThanSign kind c) := by
  unfold textLessThanSign
  split_ifs
  · exact .reads _ ((h.buffer _).switchTo rfl)
  · exact .reads _ (((h.switchTo rfl).emitChar rfl _).emitChar rfl _)
  · exact .reads _ (((h.buffer _).emitChar rfl _).reconsumeIn rfl)
  · exact .reads _ ((h.emitChar rfl _).reconsumeIn rfl)

theorem stepped_textEndTagOpen (h : Reads t .rawText t) (hp : t.pending = []) (kind : RawText) :
    Stepped t (t.textEndTagOpen kind c) := by
  unfold textEndTagOpen
  split_ifs
  · exact .reads _ ((h.input _).beginEndTag hp rfl)
  · exact .reads _ (((h.emitChar rfl _).emitChar rfl _).reconsumeIn rfl)

theorem emitChars_eq (t : Tokenizer) (cs : List Char) : t.emitChars cs =
    { t with pending := t.pending ++ cs.map fun c => ⟨.character c, t.input.position⟩ } := by
  induction cs generalizing t with
  | nil => simp [emitChars]
  | cons c cs ih =>
    rw [show t.emitChars (c :: cs) = (t.emitChar c).emitChars cs from rfl, ih]
    simp [emitChar, enqueue]

theorem Reads.abandonEndTag (h : Reads t .rawEndTag t) (kind : RawText) :
    Reads t .rawText (t.abandonEndTag kind) := by
  have hdrop : Reads t .rawText ({ t with current := none }.switchTo (.text kind)) :=
    h.dropEndTag rfl
  have hemit := (((hdrop.emitChar rfl '<').emitChar rfl '/').emitChars rfl t.buffer).input
    t.input.pushBack
  rw [emitChars_eq] at hemit
  rw [Tokenizer.abandonEndTag, emitChars_eq]
  exact hemit

theorem stepped_textEndTagName (h : Reads t .rawEndTag t) (hp : t.pending = []) (kind : RawText) :
    Stepped t (t.textEndTagName kind c) := by
  cases c with
  | none => exact .reads _ (h.abandonEndTag kind)
  | some c =>
    simp only [textEndTagName]
    split_ifs with hblank hslash hclose
    · exact .reads _ (h.acceptEndTag (Bool.and_eq_true_iff.1 hblank).2 rfl)
    · exact .reads _ (h.acceptEndTag hslash.2 rfl)
    · exact h.finish_of hp fun name hl _ => outline_of_appropriate hclose.2 hl
    · exact .reads _ ((h.editName (by simp) _).buffer _)
    · exact .reads _ (h.abandonEndTag kind)

/-! ## 3. Script data -/

theorem stepped_scriptDataEscapeStart (h : Reads t .rawText t) :
    Stepped t (t.scriptDataEscapeStart c) := by
  unfold scriptDataEscapeStart
  split_ifs
  · exact .reads _ ((h.switchTo rfl).emitChar rfl _)
  · exact .reads _ (h.reconsumeIn rfl)

theorem stepped_scriptDataEscapeStartDash (h : Reads t .rawText t) :
    Stepped t (t.scriptDataEscapeStartDash c) := by
  unfold scriptDataEscapeStartDash
  split_ifs
  · exact .reads _ ((h.switchTo rfl).emitChar rfl _)
  · exact .reads _ (h.reconsumeIn rfl)

theorem stepped_scriptDataEscapedDash (h : Reads t .rawText t) :
    Stepped t (t.scriptDataEscapedDash c) := by
  unfold scriptDataEscapedDash
  split_ifs
  · exact .reads _ ((h.switchTo rfl).emitChar rfl _)
  · exact .reads _ (h.markStart.switchTo rfl)
  · exact stepped_escapedCharacter h rfl

theorem stepped_scriptDataEscapedDashDash (h : Reads t .rawText t) :
    Stepped t (t.scriptDataEscapedDashDash c) := by
  unfold scriptDataEscapedDashDash
  split_ifs
  · exact .reads _ (h.emitChar rfl _)
  · exact .reads _ (h.markStart.switchTo rfl)
  · exact .reads _ ((h.switchTo rfl).emitChar rfl _)
  · exact stepped_escapedCharacter h rfl

theorem stepped_doubleEscapeBoundary (h : Reads t .rawText t) {s s' : State}
    (hs : s.zone? = some .rawText) (hs' : s'.zone? = some .rawText) :
    Stepped t (t.doubleEscapeBoundary s s' c) := by
  cases c with
  | none => exact .reads _ (h.reconsumeIn hs')
  | some c =>
    simp only [doubleEscapeBoundary]
    split
    · refine .reads .rawText ((h.switchTo ?_).emitChar rfl c)
      split
      · exact hs
      · exact hs'
    · split
      · exact .reads _ ((h.buffer _).emitChar rfl c)
      · exact .reads _ (h.reconsumeIn hs')

theorem stepped_scriptDataDoubleEscaped (h : Reads t .rawText t) :
    Stepped t (t.scriptDataDoubleEscaped c) := by
  unfold scriptDataDoubleEscaped
  split_ifs
  · exact .reads _ ((h.switchTo rfl).emitChar rfl _)
  · exact .reads _ ((h.switchTo rfl).emitChar rfl _)
  · exact stepped_escapedCharacter h rfl

theorem stepped_scriptDataDoubleEscapedDash (h : Reads t .rawText t) :
    Stepped t (t.scriptDataDoubleEscapedDash c) := by
  unfold scriptDataDoubleEscapedDash
  split_ifs
  · exact .reads _ ((h.switchTo rfl).emitChar rfl _)
  · exact .reads _ ((h.switchTo rfl).emitChar rfl _)
  · exact stepped_escapedCharacter h rfl

theorem stepped_scriptDataDoubleEscapedDashDash (h : Reads t .rawText t) :
    Stepped t (t.scriptDataDoubleEscapedDashDash c) := by
  unfold scriptDataDoubleEscapedDashDash
  split_ifs
  · exact .reads _ (h.emitChar rfl _)
  · exact .reads _ ((h.switchTo rfl).emitChar rfl _)
  · exact .reads _ ((h.switchTo rfl).emitChar rfl _)
  · exact stepped_escapedCharacter h rfl

theorem stepped_scriptDataDoubleEscapedLessThanSign (h : Reads t .rawText t) :
    Stepped t (t.scriptDataDoubleEscapedLessThanSign c) := by
  unfold scriptDataDoubleEscapedLessThanSign
  split_ifs
  · exact .reads _ (((h.buffer _).switchTo rfl).emitChar rfl _)
  · exact .reads _ (h.reconsumeIn rfl)

/-! ## 4. Tags -/

theorem Reads.endInTag (h : Reads t z t) (hp : t.pending = []) : Stepped t t.endInTag := by
  refine .ends ⟨fun _ ht => (by cases ht), h.returnState, fun hd => (by cases hd), h.fault⟩ rfl
    h.last (fun p hp' => ?_) ⟨t.pending, _, rfl, fun p hp' => ne_endOfFile_of_char (h.chars p hp')⟩
    (fun _ _ _ p hp' => Or.inr ?_) fun _ p hp' => ?_
  all_goals
    have hmem : p ∈ t.pending ++ [⟨.endOfFile, t.input.position⟩] := hp'
    rw [hp, List.nil_append, List.mem_singleton] at hmem
    rw [hmem]
  rfl

theorem stepped_tagName (h : Reads t .tagName t) (hp : t.pending = []) :
    Stepped t (t.tagName c) := by
  cases c with
  | none => exact h.endInTag hp
  | some c =>
    simp only [tagName]
    split_ifs
    · exact .reads _ (h.closeName rfl)
    · exact .reads _ (h.closeName rfl)
    · exact h.finish hp (by decide)
    · exact .reads _ ((h.report _).editName (by simp) _)
    · exact .reads _ (h.editName (by simp) _)

theorem stepped_beforeAttributeName (h : Reads t .attributes t) :
    Stepped t (t.beforeAttributeName c) := by
  cases c with
  | none => exact .reads _ (h.reconsumeIn rfl)
  | some c =>
    simp only [beforeAttributeName]
    split_ifs
    · exact .reads _ h
    · exact .reads _ (h.reconsumeIn rfl)
    · exact .reads _
        (((h.report _).newAttribute.editTag (e := .attributeName '=') (by simp)).switchTo rfl)
    · exact .reads _ (h.newAttribute.reconsumeIn rfl)

theorem stepped_attributeName (h : Reads t .attributes t) : Stepped t (t.attributeName c) := by
  cases c with
  | none => exact .reads _ (h.checkDuplicate.reconsumeIn rfl)
  | some c =>
    simp only [attributeName]
    split_ifs
    · exact .reads _ (h.checkDuplicate.reconsumeIn rfl)
    · exact .reads _ (h.checkDuplicate.switchTo rfl)
    · exact .reads _ ((h.report _).editTag (by simp))
    · exact .reads _ ((h.report _).editTag (by simp))
    · exact .reads _ (h.editTag (by simp))

theorem stepped_afterAttributeName (h : Reads t .attributes t) (hp : t.pending = []) :
    Stepped t (t.afterAttributeName c) := by
  cases c with
  | none => exact h.endInTag hp
  | some c =>
    simp only [afterAttributeName]
    split_ifs
    · exact .reads _ h
    · exact .reads _ (h.switchTo rfl)
    · exact .reads _ (h.switchTo rfl)
    · exact h.finish hp (by decide)
    · exact .reads _ (h.newAttribute.reconsumeIn rfl)

theorem stepped_beforeAttributeValue (h : Reads t .attributes t) (hp : t.pending = []) :
    Stepped t (t.beforeAttributeValue c) := by
  cases c with
  | none => exact .reads _ (h.reconsumeIn rfl)
  | some c =>
    simp only [beforeAttributeValue]
    split_ifs
    · exact .reads _ h
    · exact .reads _ (h.switchTo rfl)
    · exact .reads _ (h.switchTo rfl)
    · exact (h.report _).finish hp (by decide)
    · exact .reads _ (h.reconsumeIn rfl)

theorem stepped_attributeValueQuoted (h : Reads t .attributes t) (hp : t.pending = [])
    (quote : Quote) : Stepped t (t.attributeValueQuoted quote c) := by
  cases c with
  | none => exact h.endInTag hp
  | some c =>
    simp only [attributeValueQuoted]
    split_ifs
    · exact .reads _ (h.switchTo rfl)
    · exact .reads _ (h.enterReference rfl rfl)
    · exact .reads _ ((h.report _).editTag (by simp))
    · exact .reads _ (h.editTag (by simp))

theorem stepped_attributeValueUnquoted (h : Reads t .attributes t) (hp : t.pending = []) :
    Stepped t (t.attributeValueUnquoted c) := by
  cases c with
  | none => exact h.endInTag hp
  | some c =>
    simp only [attributeValueUnquoted]
    split_ifs
    · exact .reads _ (h.switchTo rfl)
    · exact .reads _ (h.enterReference rfl rfl)
    · exact h.finish hp (by decide)
    · exact .reads _ ((h.report _).editTag (by simp))
    · exact .reads _ ((h.report _).editTag (by simp))
    · exact .reads _ (h.editTag (by simp))

theorem stepped_afterAttributeValueQuoted (h : Reads t .attributes t) (hp : t.pending = []) :
    Stepped t (t.afterAttributeValueQuoted c) := by
  cases c with
  | none => exact h.endInTag hp
  | some c =>
    simp only [afterAttributeValueQuoted]
    split_ifs
    · exact .reads _ (h.switchTo rfl)
    · exact .reads _ (h.switchTo rfl)
    · exact h.finish hp (by decide)
    · exact .reads _ ((h.report _).reconsumeIn rfl)

theorem stepped_selfClosingStartTag (h : Reads t .attributes t) (hp : t.pending = []) :
    Stepped t (t.selfClosingStartTag c) := by
  cases c with
  | none => exact h.endInTag hp
  | some c =>
    simp only [selfClosingStartTag]
    split_ifs
    · exact (h.editTag (e := .selfClosing) (by simp)).finish ((pending_edit t _).trans hp)
        (by decide)
    · exact .reads _ ((h.report _).reconsumeIn rfl)

/-! ## 5. Comments -/

theorem Reads.endInComment (h : Reads t .comment t) : Stepped t t.endInComment :=
  (h.report _).emitLast (Or.inl rfl)

theorem stepped_bogusComment (h : Reads t .comment t) (hp : t.pending = []) :
    Stepped t (t.bogusComment c) := by
  cases c with
  | none => exact h.emitLast (Or.inl rfl)
  | some c =>
    simp only [bogusComment]
    split_ifs
    · exact h.finish hp (by decide)
    · exact .reads _ ((h.report _).editComment _)
    · exact .reads _ (h.editComment _)

theorem stepped_commentStart (h : Reads t .comment t) (hp : t.pending = []) :
    Stepped t (t.commentStart c) := by
  unfold commentStart
  split_ifs
  · exact .reads _ (h.switchTo rfl)
  · exact (h.report _).finish hp (by decide)
  · exact .reads _ (h.reconsumeIn rfl)

theorem stepped_commentStartDash (h : Reads t .comment t) (hp : t.pending = []) :
    Stepped t (t.commentStartDash c) := by
  cases c with
  | none => exact h.endInComment
  | some c =>
    simp only [commentStartDash]
    split_ifs
    · exact .reads _ (h.switchTo rfl)
    · exact (h.report _).finish hp (by decide)
    · exact .reads _ ((h.editComment _).reconsumeIn rfl)

theorem stepped_comment (h : Reads t .comment t) : Stepped t (t.comment c) := by
  cases c with
  | none => exact h.endInComment
  | some c =>
    simp only [comment]
    split_ifs
    · exact .reads _ ((h.editComment _).switchTo rfl)
    · exact .reads _ (h.switchTo rfl)
    · exact .reads _ ((h.report _).editComment _)
    · exact .reads _ (h.editComment _)

theorem stepped_commentLessThanSign (h : Reads t .comment t) :
    Stepped t (t.commentLessThanSign c) := by
  unfold commentLessThanSign
  split_ifs
  · exact .reads _ ((h.editComment _).switchTo rfl)
  · exact .reads _ (h.editComment _)
  · exact .reads _ (h.reconsumeIn rfl)

theorem stepped_commentLessThanSignBang (h : Reads t .comment t) :
    Stepped t (t.commentLessThanSignBang c) := by
  unfold commentLessThanSignBang
  split_ifs
  · exact .reads _ (h.switchTo rfl)
  · exact .reads _ (h.reconsumeIn rfl)

theorem stepped_commentLessThanSignBangDash (h : Reads t .comment t) :
    Stepped t (t.commentLessThanSignBangDash c) := by
  unfold commentLessThanSignBangDash
  split_ifs
  · exact .reads _ (h.switchTo rfl)
  · exact .reads _ (h.reconsumeIn rfl)

theorem stepped_commentLessThanSignBangDashDash (h : Reads t .comment t) :
    Stepped t (t.commentLessThanSignBangDashDash c) := by
  unfold commentLessThanSignBangDashDash
  split_ifs
  · exact .reads _ (h.reconsumeIn rfl)
  · exact .reads _ ((h.report _).reconsumeIn rfl)

theorem stepped_commentEndDash (h : Reads t .comment t) : Stepped t (t.commentEndDash c) := by
  cases c with
  | none => exact h.endInComment
  | some c =>
    simp only [commentEndDash]
    split_ifs
    · exact .reads _ (h.switchTo rfl)
    · exact .reads _ ((h.editComment _).reconsumeIn rfl)

theorem stepped_commentEnd (h : Reads t .comment t) (hp : t.pending = []) :
    Stepped t (t.commentEnd c) := by
  cases c with
  | none => exact h.endInComment
  | some c =>
    simp only [commentEnd]
    split_ifs
    · exact h.finish hp (by decide)
    · exact .reads _ (h.switchTo rfl)
    · exact .reads _ (h.editComment _)
    · exact .reads _ ((h.editComment _).reconsumeIn rfl)

theorem stepped_commentEndBang (h : Reads t .comment t) (hp : t.pending = []) :
    Stepped t (t.commentEndBang c) := by
  cases c with
  | none => exact h.endInComment
  | some c =>
    simp only [commentEndBang]
    split_ifs
    · exact .reads _ ((h.editComment _).switchTo rfl)
    · exact (h.report _).finish hp (by decide)
    · exact .reads _ ((h.editComment _).reconsumeIn rfl)

/-! ## 6. Document types -/

theorem Reads.editDoctype {t₁ : Tokenizer} (h : Reads t .doctype t₁) (e : DoctypeEdit) :
    Reads t .doctype (t₁.editDoctype e) := by
  have hbegin : Reads t .doctype (t₁.begin (.doctype t₁.currentDoctype)) := by
    refine ⟨⟨?_, h.returnState, h.duplicate, h.fault⟩, h.zone, h.last, h.ended, h.chars, h.quiet,
      fun name hl hcon => absurd hcon (h.not_confined rfl hl),
      fun ht => absurd (h.zone.symm.trans (h.inTag ht).zone) (by decide)⟩
    rintro _ ⟨⟩
    change t₁.zone.admits _ = true
    rw [h.zone]
    rfl
  exact hbegin.edit rfl fun hz => by cases hz

theorem Reads.beginDoctype {t₁ : Tokenizer} (h : Reads t .doctype t₁) (c : Char) :
    Reads t .doctype (t₁.beginDoctype c) := by
  refine h.leave rfl rfl (h.pending_eq_nil rfl) ?_
  rintro _ ⟨⟩
  rfl

theorem Reads.endInDoctype (h : Reads t .doctype t) : Stepped t t.endInDoctype :=
  ((h.report _).editDoctype _).emitLast (Or.inr rfl)

theorem Reads.missingIdentifier (h : Reads t .doctype t) (hp : t.pending = [])
    (which : Identifier) : Stepped t (t.missingIdentifier which) :=
  ((h.report _).editDoctype _).finish hp (by decide)

theorem Reads.missingQuote (h : Reads t .doctype t) (which : Identifier) :
    Reads t .doctype (t.missingQuote which) := ((h.report _).editDoctype _).reconsumeIn rfl

theorem Reads.beginIdentifier {t₁ : Tokenizer} (h : Reads t .doctype t₁) (which : Identifier)
    (quote : Quote) : Reads t .doctype (t₁.beginIdentifier which quote) :=
  (h.editDoctype _).switchTo rfl

theorem stepped_doctype (h : Reads t .doctype t) : Stepped t (t.doctype c) := by
  cases c with
  | none => exact h.endInDoctype
  | some c =>
    simp only [doctype]
    split_ifs
    · exact .reads _ (h.switchTo rfl)
    · exact .reads _ (h.reconsumeIn rfl)
    · exact .reads _ ((h.report _).reconsumeIn rfl)

theorem stepped_beforeDoctypeName (h : Reads t .doctype t) (hp : t.pending = []) :
    Stepped t (t.beforeDoctypeName c) := by
  cases c with
  | none => exact h.endInDoctype
  | some c =>
    simp only [beforeDoctypeName]
    split_ifs
    · exact .reads _ h
    · exact .reads _ ((h.report _).beginDoctype _)
    · have hb : Reads t .doctype (((t.report .missingDoctypeName).begin
          (.doctype { forceQuirks := true })).switchTo .doctype) := by
        refine (h.report _).leave rfl rfl hp ?_
        rintro _ ⟨⟩
        rfl
      exact hb.finish hp (by decide)
    · exact .reads _ (h.beginDoctype _)

theorem stepped_doctypeName (h : Reads t .doctype t) (hp : t.pending = []) :
    Stepped t (t.doctypeName c) := by
  cases c with
  | none => exact h.endInDoctype
  | some c =>
    simp only [doctypeName]
    split_ifs
    · exact .reads _ (h.switchTo rfl)
    · exact h.finish hp (by decide)
    · exact .reads _ ((h.report _).editDoctype _)
    · exact .reads _ (h.editDoctype _)

theorem stepped_afterDoctypeName (h : Reads t .doctype t) (hp : t.pending = []) :
    Stepped t (t.afterDoctypeName c) := by
  cases c with
  | none => exact h.endInDoctype
  | some c =>
    simp only [afterDoctypeName]
    split_ifs
    · exact .reads _ h
    · exact h.finish hp (by decide)
    · exact .reads _ ((h.input _).switchTo rfl)
    · exact .reads _ ((h.input _).switchTo rfl)
    · exact .reads _ ((((h.input _).report _).editDoctype _).switchTo rfl)

theorem stepped_afterDoctypeKeyword (h : Reads t .doctype t) (hp : t.pending = [])
    (which : Identifier) : Stepped t (t.afterDoctypeKeyword which c) := by
  cases c with
  | none => exact h.endInDoctype
  | some c =>
    simp only [afterDoctypeKeyword]
    split_ifs
    · exact .reads _ (h.switchTo rfl)
    · exact h.missingIdentifier hp which
    · split
      · exact .reads _ ((h.report _).beginIdentifier which _)
      · exact .reads _ (h.missingQuote which)

theorem stepped_beforeDoctypeIdentifier (h : Reads t .doctype t) (hp : t.pending = [])
    (which : Identifier) : Stepped t (t.beforeDoctypeIdentifier which c) := by
  cases c with
  | none => exact h.endInDoctype
  | some c =>
    simp only [beforeDoctypeIdentifier]
    split_ifs
    · exact .reads _ h
    · exact h.missingIdentifier hp which
    · split
      · exact .reads _ (h.beginIdentifier which _)
      · exact .reads _ (h.missingQuote which)

theorem stepped_doctypeIdentifier (h : Reads t .doctype t) (hp : t.pending = [])
    (which : Identifier) (quote : Quote) : Stepped t (t.doctypeIdentifier which quote c) := by
  cases c with
  | none => exact h.endInDoctype
  | some c =>
    simp only [doctypeIdentifier]
    split_ifs
    · exact .reads _ (h.switchTo rfl)
    · exact .reads _ ((h.report _).editDoctype _)
    · exact ((h.report _).editDoctype _).finish hp (by decide)
    · exact .reads _ (h.editDoctype _)

theorem stepped_afterPublicIdentifier (h : Reads t .doctype t) (hp : t.pending = []) :
    Stepped t (t.afterPublicIdentifier c) := by
  cases c with
  | none => exact h.endInDoctype
  | some c =>
    simp only [afterPublicIdentifier]
    split_ifs
    · exact .reads _ (h.switchTo rfl)
    · exact h.finish hp (by decide)
    · split
      · exact .reads _ ((h.report _).beginIdentifier .systemId _)
      · exact .reads _ (h.missingQuote .systemId)

theorem stepped_betweenDoctypeIdentifiers (h : Reads t .doctype t) (hp : t.pending = []) :
    Stepped t (t.betweenDoctypeIdentifiers c) := by
  cases c with
  | none => exact h.endInDoctype
  | some c =>
    simp only [betweenDoctypeIdentifiers]
    split_ifs
    · exact .reads _ h
    · exact h.finish hp (by decide)
    · split
      · exact .reads _ (h.beginIdentifier .systemId _)
      · exact .reads _ (h.missingQuote .systemId)

theorem stepped_afterSystemIdentifier (h : Reads t .doctype t) (hp : t.pending = []) :
    Stepped t (t.afterSystemIdentifier c) := by
  cases c with
  | none => exact h.endInDoctype
  | some c =>
    simp only [afterSystemIdentifier]
    split_ifs
    · exact .reads _ h
    · exact h.finish hp (by decide)
    · exact .reads _ ((h.report _).reconsumeIn rfl)

theorem stepped_bogusDoctype (h : Reads t .doctype t) (hp : t.pending = []) :
    Stepped t (t.bogusDoctype c) := by
  cases c with
  | none => exact h.emitLast (Or.inr rfl)
  | some c =>
    simp only [bogusDoctype]
    split_ifs
    · exact h.finish hp (by decide)
    · exact .reads _ (h.report _)
    · exact .reads _ h

/-! ## 7. Character references -/

theorem stepped_characterReference (h : Refers t z t) : Stepped t (t.characterReference c) := by
  unfold characterReference
  dsimp only
  split_ifs
  · exact .reads _ ((h.buffer _).reconsumeIn rfl).toReads
  · exact .reads _ ((h.buffer _).switchTo rfl).toReads
  · exact .reads _ (h.buffer _).flush.reconsumeInReturn

theorem stepped_namedCharacterReference (h : Refers t z t) :
    Stepped t t.namedCharacterReference := by
  unfold namedCharacterReference
  dsimp only
  split
  · exact .reads _ ((h.input _).flush.switchTo rfl).toReads
  · have hread : ∀ input buffer, Refers t z { t with input, buffer } := fun input buffer =>
      (h.input input).buffer buffer
    split_ifs
    · exact .reads _ ((hread _ _).resolve _).switchToReturn
    · exact .reads _ (hread _ _).flush.switchToReturn
    · exact .reads _ (((hread _ _).report _).resolve _).switchToReturn

theorem stepped_ambiguousAmpersand (h : Refers t z t) : Stepped t (t.ambiguousAmpersand c) := by
  cases c with
  | none => exact .reads _ h.reconsumeInReturn
  | some c =>
    simp only [ambiguousAmpersand]
    split_ifs
    · exact .reads _ (h.deliver _).toReads
    · exact .reads _ (h.report _).reconsumeInReturn
    · exact .reads _ h.reconsumeInReturn

theorem stepped_numericCharacterReference (h : Refers t z t) :
    Stepped t (t.numericCharacterReference c) := by
  unfold numericCharacterReference
  dsimp only
  split
  · exact .reads _ (((h.code 0).buffer _).switchTo rfl).toReads
  · exact .reads _ (((h.code 0).buffer _).switchTo rfl).toReads
  · exact .reads _ ((h.code 0).reconsumeIn rfl).toReads

theorem stepped_numericReferenceStart (h : Refers t z t) (radix : Radix) :
    Stepped t (t.numericReferenceStart radix c) := by
  unfold numericReferenceStart
  split_ifs
  · exact .reads _ (h.reconsumeIn rfl).toReads
  · exact .reads _ (h.report _).flush.reconsumeInReturn

theorem stepped_numericReferenceDigits (h : Refers t z t) (radix : Radix) :
    Stepped t (t.numericReferenceDigits radix c) := by
  unfold numericReferenceDigits
  split
  · exact .reads _ (h.code _).toReads
  · split_ifs
    · exact .reads _ (h.switchTo rfl).toReads
    · exact .reads _ ((h.report _).reconsumeIn rfl).toReads

theorem stepped_numericReferenceEnd (h : Refers t z t) : Stepped t t.numericReferenceEnd := by
  unfold numericReferenceEnd
  dsimp only
  split
  · exact .reads _ (((h.input _).report _).resolve _).switchToReturn
  · exact .reads _ ((h.input _).resolve _).switchToReturn

/-! ## 8. One step -/

theorem FitsZone.reads (h : FitsZone t) (hp : t.pending = []) : Reads t t.zone t := by
  refine ⟨h, rfl, rfl, rfl, fun p hmem => ?_, fun hne => absurd hp hne, fun _ _ hc => hc, id⟩
  rw [hp] at hmem
  cases hmem

theorem FitsZone.readsIn (h : FitsZone t) (hp : t.pending = []) {s : State} (hs : t.state = s)
    (hz : s.zone? = some z) : Reads t z t := zone_of_state hs hz ▸ h.reads hp

theorem stepped_handle (h : FitsZone t) (hp : t.pending = []) : Stepped t (t.handle c) := by
  -- every state either has a zone or belongs to a reference
  have hread : ∀ {s : State} {z : Zone}, t.state = s → s.zone? = some z → Reads t z t :=
    fun hs hz => h.readsIn hp hs hz
  have hrefer : ∀ {s : State}, t.state = s → s.zone? = none → Refers t t.zone t :=
    fun hs hz => ⟨h.reads hp, hs ▸ hz⟩
  unfold handle
  split <;> rename_i hs
  · exact stepped_data (hread hs rfl)
  · exact stepped_rawCharacter (hread hs rfl) rfl
  · exact stepped_text (hread hs rfl) _
  · exact stepped_textLessThanSign (hread hs rfl) _
  · exact stepped_textEndTagOpen (hread hs rfl) hp _
  · exact stepped_textEndTagName (hread hs rfl) hp _
  · exact stepped_tagOpen (hread hs rfl) hp
  · exact stepped_endTagOpen (hread hs rfl) hp
  · exact stepped_tagName (hread hs rfl) hp
  · exact stepped_scriptDataEscapeStart (hread hs rfl)
  · exact stepped_scriptDataEscapeStartDash (hread hs rfl)
  · exact stepped_scriptDataEscapedDash (hread hs rfl)
  · exact stepped_scriptDataEscapedDashDash (hread hs rfl)
  · exact stepped_doubleEscapeBoundary (hread hs rfl) rfl rfl
  · exact stepped_scriptDataDoubleEscaped (hread hs rfl)
  · exact stepped_scriptDataDoubleEscapedDash (hread hs rfl)
  · exact stepped_scriptDataDoubleEscapedDashDash (hread hs rfl)
  · exact stepped_scriptDataDoubleEscapedLessThanSign (hread hs rfl)
  · exact stepped_doubleEscapeBoundary (hread hs rfl) rfl rfl
  · exact stepped_beforeAttributeName (hread hs rfl)
  · exact stepped_attributeName (hread hs rfl)
  · exact stepped_afterAttributeName (hread hs rfl) hp
  · exact stepped_beforeAttributeValue (hread hs rfl) hp
  · exact stepped_attributeValueQuoted (hread hs rfl) hp _
  · exact stepped_attributeValueUnquoted (hread hs rfl) hp
  · exact stepped_afterAttributeValueQuoted (hread hs rfl) hp
  · exact stepped_selfClosingStartTag (hread hs rfl) hp
  · exact stepped_bogusComment (hread hs rfl) hp
  · exact stepped_markupDeclarationOpen (hread hs rfl) hp
  · exact stepped_commentStart (hread hs rfl) hp
  · exact stepped_commentStartDash (hread hs rfl) hp
  · exact stepped_comment (hread hs rfl)
  · exact stepped_commentLessThanSign (hread hs rfl)
  · exact stepped_commentLessThanSignBang (hread hs rfl)
  · exact stepped_commentLessThanSignBangDash (hread hs rfl)
  · exact stepped_commentLessThanSignBangDashDash (hread hs rfl)
  · exact stepped_commentEndDash (hread hs rfl)
  · exact stepped_commentEnd (hread hs rfl) hp
  · exact stepped_commentEndBang (hread hs rfl) hp
  · exact stepped_doctype (hread hs rfl)
  · exact stepped_beforeDoctypeName (hread hs rfl) hp
  · exact stepped_doctypeName (hread hs rfl) hp
  · exact stepped_afterDoctypeName (hread hs rfl) hp
  · exact stepped_afterDoctypeKeyword (hread hs rfl) hp _
  · exact stepped_beforeDoctypeIdentifier (hread hs rfl) hp _
  · exact stepped_doctypeIdentifier (hread hs rfl) hp _ _
  · exact stepped_afterPublicIdentifier (hread hs rfl) hp
  · exact stepped_afterSystemIdentifier (hread hs rfl) hp
  · exact stepped_betweenDoctypeIdentifiers (hread hs rfl) hp
  · exact stepped_bogusDoctype (hread hs rfl) hp
  · exact stepped_cdataSection (hread hs rfl)
  · exact stepped_cdataSectionBracket (hread hs rfl)
  · exact stepped_cdataSectionEnd (hread hs rfl)
  · exact stepped_characterReference (hrefer hs rfl)
  · exact stepped_namedCharacterReference (hrefer hs rfl)
  · exact stepped_ambiguousAmpersand (hrefer hs rfl)
  · exact stepped_numericCharacterReference (hrefer hs rfl)
  · exact stepped_numericReferenceStart (hrefer hs rfl) _
  · exact stepped_numericReferenceDigits (hrefer hs rfl) _
  · exact stepped_numericReferenceEnd (hrefer hs rfl)

/-- Reading a character moves the cursor on, and reports the character if it is bad. -/
theorem consume_cases (t : Tokenizer) : t.consume = { t with input := t.input.advance } ∨
    ∃ c kind, inputError? c = some kind ∧
      t.consume = ({ t with input := t.input.advance } : Tokenizer).report kind := by
  unfold consume
  dsimp only
  split
  · exact Or.inl rfl
  · next c _ =>
    split
    · next kind hkind =>
      split
      · exact Or.inr ⟨c, kind, hkind, rfl⟩
      · exact Or.inl rfl
    · exact Or.inl rfl

theorem consume_eq_advance (t : Tokenizer) : ∃ errors,
    t.consume = { t with input := t.input.advance, errors } ∧
      (errors = t.errors ∨ ∃ kind, errors = t.errors.record kind t.input.advance.position) := by
  obtain heq | ⟨_, kind, -, heq⟩ := consume_cases t
  · exact ⟨_, heq, Or.inl rfl⟩
  · exact ⟨_, heq, Or.inr ⟨kind, rfl⟩⟩

theorem stepped_step (h : FitsZone t) (hp : t.pending = []) : Stepped t t.step := by
  unfold step
  obtain ⟨errors, heq, -⟩ := consume_eq_advance t
  rw [heq]
  have hfits : FitsZone { t with input := t.input.advance, errors } :=
    ⟨h.current, h.returnState, h.duplicate, h.fault⟩
  cases stepped_handle (c := t.input.peek) hfits hp with
  | reads z hr =>
    exact .reads z ⟨hr.toFitsZone, hr.zone, hr.last, hr.ended, hr.chars, hr.quiet, hr.confined,
      fun ht => hr.inTag ⟨ht.zone, ht.current⟩⟩
  | ends fitsZone ended last untagged pending confined inTag =>
    exact .ends fitsZone ended last untagged pending confined fun ht => inTag ⟨ht.zone, ht.current⟩
  | finishes p fitsZone state current pending ended token start confined mark =>
    exact .finishes p fitsZone state current pending ended token start confined mark

end Hypertext.Tokenizer
