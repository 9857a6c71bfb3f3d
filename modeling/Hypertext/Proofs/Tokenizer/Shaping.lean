import Hypertext.Proofs.Tokenizer.Shape

/-!
# What the states of text, tags and comments add

Each state keeps to what is known of the token under construction in the state that comes after it.
-/

namespace Hypertext.Tokenizer

variable {P : Token → Prop} {R R' : List Char → Prop} {t : Tokenizer} {s : State} {z : Zone}
  {c : Option Char}

/-! ## 1. Text -/

theorem ne_null_of_isAlpha {c : Char} (h : c.isAlpha = true) : '\x00' ≠ c := by
  rintro rfl
  cases h

section Text

variable (h : Clear t)
include h

theorem clear_data : Clear (t.data c) := by
  cases c <;> grind [data]

theorem clear_rawCharacter : Clear (t.rawCharacter c) := by
  cases c <;> grind [rawCharacter]

theorem clear_escapedCharacter (s : State) : Clear (t.escapedCharacter s c) := by
  cases c <;> grind [escapedCharacter, endInScriptComment]

theorem clear_text (kind : RawText) : Clear (t.text kind c) := by
  cases kind <;> grind [Tokenizer.text, clear_rawCharacter, clear_escapedCharacter]

theorem clear_textLessThanSign (kind : RawText) : Clear (t.textLessThanSign kind c) := by
  have hempty : Clear { t with buffer := [] } := h.buffer (by simp)
  grind [textLessThanSign]

theorem clear_scriptDataEscapeStart : Clear (t.scriptDataEscapeStart c) := by
  grind [scriptDataEscapeStart]

theorem clear_scriptDataEscapeStartDash : Clear (t.scriptDataEscapeStartDash c) := by
  grind [scriptDataEscapeStartDash]

theorem clear_scriptDataEscapedDash : Clear (t.scriptDataEscapedDash c) := by
  grind [scriptDataEscapedDash, clear_escapedCharacter]

theorem clear_scriptDataEscapedDashDash : Clear (t.scriptDataEscapedDashDash c) := by
  grind [scriptDataEscapedDashDash, clear_escapedCharacter]

theorem clear_doubleEscapeBoundary (s₁ s₂ : State) : Clear (t.doubleEscapeBoundary s₁ s₂ c) := by
  cases c with
  | none => exact h.reconsumeIn _
  | some c =>
    simp only [doubleEscapeBoundary]
    split
    · exact (h.switchTo _).emitChar c
    · split
      · next ha =>
        have hlower : c.toLower ≠ '\x00' := by
          rintro heq
          have := isLower_toLower ha
          rw [heq] at this
          cases this
        refine Builds.emitChar (h.buffer ?_) c
        simp [h.2.2, hlower.symm]
      · exact h.reconsumeIn _

theorem clear_scriptDataDoubleEscaped : Clear (t.scriptDataDoubleEscaped c) := by
  grind [scriptDataDoubleEscaped, clear_escapedCharacter]

theorem clear_scriptDataDoubleEscapedDash : Clear (t.scriptDataDoubleEscapedDash c) := by
  grind [scriptDataDoubleEscapedDash, clear_escapedCharacter]

theorem clear_scriptDataDoubleEscapedDashDash : Clear (t.scriptDataDoubleEscapedDashDash c) := by
  grind [scriptDataDoubleEscapedDashDash, clear_escapedCharacter]

theorem clear_scriptDataDoubleEscapedLessThanSign :
    Clear (t.scriptDataDoubleEscapedLessThanSign c) := by
  have hempty : Clear { t with buffer := [] } := h.buffer (by simp)
  grind [scriptDataDoubleEscapedLessThanSign]

theorem clear_cdataSection : Clear (t.cdataSection c) := by
  cases c <;> grind [cdataSection]

theorem clear_cdataSectionBracket : Clear (t.cdataSectionBracket c) := by
  grind [cdataSectionBracket]

theorem clear_cdataSectionEnd : Clear (t.cdataSectionEnd c) := by
  grind [cdataSectionEnd]

end Text

theorem Builds.abandonEndTag (h : Builds P t) (kind : RawText) : Clear (t.abandonEndTag kind) :=
  Builds.reconsumeIn (t := { ((t.emitChar '<').emitChar '/').emitChars t.buffer with
    current := none }) (((h.emitChar '<').emitChar '/').emitChars t.buffer).drop _

/-! ## 2. The beginnings of tags, comments and document types -/

/-- What is known in the state that has been entered. -/
theorem Builds.shaped (h : Builds (Shape s t.input.peek t.duplicate) t) (hs : t.state = s)
    (hz : s.zone? = some z) : Shaped t := by
  unfold Shaped host
  rw [hs, hz]
  exact h

/-- What is known if the same character is read again. -/
theorem Builds.again (h : Builds (Shape s c t.duplicate) t) (hpeek : t.input.pushBack.peek = c)
    (hz : s.zone? = some z) : Shaped (t.reconsumeIn s) :=
  Builds.shaped (s := s) (by rw [show (t.reconsumeIn s).input.peek = c from hpeek]; exact h) rfl hz

section Opening

variable (h : Clear t) (hpeek : t.input.pushBack.peek = c)
include h hpeek

theorem shaped_tagOpen : Shaped (t.tagOpen c) := by
  cases c with
  | none => exact shaped_of_clear ((h.report _).emitChar _).emitEnd
  | some c =>
    simp only [tagOpen]
    split_ifs with _ _ hc
    · exact shaped_of_clear (h.switchTo _)
    · exact shaped_of_clear (h.switchTo _)
    · have hname : Naming (some c) {} := ⟨Or.inl ⟨rfl, hc⟩, rfl⟩
      exact Builds.again (s := .tagName) (h.begin (.startTag {}) hname) hpeek rfl
    · exact Builds.again (s := .bogusComment) ((h.report _).begin (.comment "") bogus_nil) hpeek rfl
    · exact shaped_of_clear (((h.report _).emitChar _).reconsumeIn _)

theorem shaped_endTagOpen : Shaped (t.endTagOpen c) := by
  cases c with
  | none => exact shaped_of_clear (((h.report _).emitChar _).emitChar _).emitEnd
  | some c =>
    simp only [endTagOpen]
    split_ifs with hc
    · have hname : Naming (some c) {} := ⟨Or.inl ⟨rfl, hc⟩, rfl⟩
      exact Builds.again (s := .tagName) (h.begin (.endTag {}) hname) hpeek rfl
    · exact shaped_of_clear ((h.report _).switchTo _)
    · exact Builds.again (s := .bogusComment) ((h.report _).begin (.comment "") bogus_nil) hpeek rfl

theorem shaped_textEndTagOpen (kind : RawText) : Shaped (t.textEndTagOpen kind c) := by
  unfold textEndTagOpen
  split_ifs with hc
  · exact Builds.again (s := .textEndTagName kind) (h.begin (.endTag {}) ⟨Or.inl ⟨rfl, hc⟩, rfl⟩)
      hpeek rfl
  · exact shaped_of_clear (((h.emitChar _).emitChar _).reconsumeIn _)

end Opening

theorem shaped_markupDeclarationOpen (h : Clear t) : Shaped t.markupDeclarationOpen := by
  unfold markupDeclarationOpen
  extract_lets t₁ t₂
  have h₁ : Clear t₁ := h.input _
  have h₂ : Clear t₂ := h₁.input _
  have hcdata : Bogus "[CDATA[".toList := bogus_of_all (by decide)
  split_ifs
  · have hskip := h₁.input (t₁.input.skip commentOpening)
    exact Builds.shaped (s := .commentStart) (hskip.begin (.comment "") rfl) rfl rfl
  · exact shaped_of_clear ((h₁.input _).switchTo _)
  · exact shaped_of_clear (h₂.switchTo _)
  · exact Builds.shaped (s := .bogusComment)
      ((h₂.report .cdataInHtmlContent).begin (.comment "[CDATA[") hcdata) rfl rfl
  · exact Builds.shaped (s := .bogusComment)
      ((h₁.report .incorrectlyOpenedComment).begin (.comment "") bogus_nil) rfl rfl

/-! ## 3. Tags -/

theorem Builds.endInTag (h : Builds P t) : Shaped t.endInTag :=
  shaped_of_clear (Builds.emitEnd
    (t := { t.report .eofInTag with current := none, duplicate := false }) h.drop)

theorem isAlpha_of_endsName (h : endsName c = true) : c.any Char.isAlpha = false := by
  cases c with
  | none => rfl
  | some c =>
    simp only [endsName, Option.all_some, Ascii.isBlank, Bool.or_eq_true, beq_iff_eq] at h
    obtain ((((rfl | rfl) | rfl) | rfl) | rfl) | rfl := h <;> rfl

theorem beginsName_of_endsName (h : endsName c = true) : c.any beginsName = false := by
  cases c with
  | none => rfl
  | some c =>
    have hends : (Ascii.isBlank c || c == '/' || c == '>') = true := h
    simp [beginsName, hends]

theorem isSolid_of_ne {c : Char} (hcr : some c ≠ some '\r') (hnull : c ≠ '\x00') :
    isSolid c = true := by
  simp only [isSolid, Bool.and_eq_true, bne_iff_ne]
  exact ⟨hnull, fun heq => hcr (congrArg some heq)⟩

section Name

variable (h : Builds (OnTag (Naming c)) t)
include h

theorem Builds.closeName (hc : endsName c = true) : Builds (OnTag (Attributed t.duplicate)) t :=
  h.onTag fun _ hn => hn.close (isAlpha_of_endsName hc) _

theorem shaped_tagName (hs : t.state = .tagName) (hcr : c ≠ some '\r') : Shaped (t.tagName c) := by
  cases c with
  | none => exact h.endInTag
  | some c =>
    simp only [tagName]
    split_ifs with hblank hslash hclose hnull
    · exact Builds.shaped (s := .beforeAttributeName) (h.closeName (by simp [endsName, hblank])) rfl
        rfl
    · exact Builds.shaped (s := .selfClosingStartTag) (h.closeName (by simp [endsName, hslash])) rfl
        rfl
    · exact shaped_of_clear (h.closeName (by simp [endsName, hclose])).finishTag
    · subst hnull
      refine Builds.shaped (s := .tagName) (Builds.editTag (h.report _) fun tag hn =>
        hn.push rfl (by decide)) ?_ rfl
      exact (state_edit _ _).trans hs
    · have htag := isTagChar_toLower (isSolid_of_ne hcr hnull) (Bool.eq_false_iff.2 hblank) hclose
        hslash
      refine Builds.shaped (s := .tagName) (h.editTag fun tag hn => hn.push htag isLower_toLower)
        ?_ rfl
      exact (state_edit _ _).trans hs

theorem shaped_textEndTagName (kind : RawText) (hs : t.state = .textEndTagName kind) :
    Shaped (t.textEndTagName kind c) := by
  cases c with
  | none => exact shaped_of_clear (h.abandonEndTag kind)
  | some c =>
    simp only [textEndTagName]
    split_ifs with hblank hslash hclose halpha
    · have hb := (Bool.and_eq_true_iff.1 hblank).1
      exact Builds.shaped (s := .beforeAttributeName) (h.closeName (by simp [endsName, hb])) rfl rfl
    · exact Builds.shaped (s := .selfClosingStartTag) (h.closeName (by simp [endsName, hslash.1]))
        rfl rfl
    · exact shaped_of_clear (h.closeName (by simp [endsName, hclose.1])).finishTag
    · have hlower := isLower_toLower halpha
      have hnull : '\x00' ∉ t.buffer ++ [c] := by simp [h.2.2, ne_null_of_isAlpha halpha]
      refine Builds.shaped (s := .textEndTagName kind) (Builds.buffer (h.editTag fun tag hn =>
        hn.push (isTagChar_of_isLower hlower) fun _ => hlower) ?_) ?_ rfl
      · obtain ⟨current, fault, heq⟩ := exists_edit t (.tag (.name c.toLower))
        rw [editTag, heq]
        exact hnull
      · exact (state_edit _ _).trans hs
    · exact shaped_of_clear (h.abandonEndTag kind)

end Name

/-! ## 4. Attributes -/

theorem input_newAttribute (t : Tokenizer) : t.newAttribute.input = t.input :=
  congrArg Trail.input ((trail_editTag _ _).trans (trail_dropDuplicate t))

theorem duplicate_newAttribute (t : Tokenizer) : t.newAttribute.duplicate = false := by
  rw [newAttribute, duplicate_editTag, dropDuplicate]
  split
  · rw [duplicate_editTag]
  · next hd => exact Bool.eq_false_iff.2 hd

section Attribute

variable (h : Builds (OnTag (Attributed t.duplicate)) t)
include h

theorem Builds.newAttribute (hc : c.any beginsName = true) :
    Builds (Shape .attributeName c t.newAttribute.duplicate) t.newAttribute := by
  rw [duplicate_newAttribute]
  exact h.dropDuplicate.editTag fun tag ha => ⟨rfl, .start ha hc⟩

theorem Builds.editAttributes {e : TagEdit}
    (he : ∀ tag, Attributed t.duplicate tag → Attributed t.duplicate (tag.edit e)) :
    Builds (OnTag (Attributed (t.editTag e).duplicate)) (t.editTag e) := by
  rw [duplicate_editTag]
  exact h.editTag he

theorem Builds.attributeValue {x : Char} (hx : x ≠ '\x00') :
    Builds (OnTag (Attributed (t.editTag (.attributeValue x)).duplicate))
      (t.editTag (.attributeValue x)) :=
  h.editAttributes fun _ ha => ha.value hx

theorem shaped_newAttribute (hpeek : t.input.pushBack.peek = c) (hc : c.any beginsName = true) :
    Shaped (t.newAttribute.reconsumeIn .attributeName) := by
  refine Builds.again (s := .attributeName) (h.newAttribute hc) ?_ rfl
  rw [input_newAttribute, hpeek]

theorem shaped_beforeAttributeName (hpeek : t.input.pushBack.peek = c)
    (hs : t.state = .beforeAttributeName) : Shaped (t.beforeAttributeName c) := by
  cases c with
  | none => exact Builds.again (s := .afterAttributeName) h hpeek rfl
  | some c =>
    simp only [beforeAttributeName]
    split_ifs with hblank hends hequals
    · exact Builds.shaped (s := .beforeAttributeName) h hs rfl
    · exact Builds.again (s := .afterAttributeName) h hpeek rfl
    · have hname : Builds (OnTag fun tag => ∃ tag', tag = tag'.edit .newAttribute ∧
          Attributed false tag') (t.report .unexpectedEqualsSignBeforeAttributeName).newAttribute :=
        Builds.editTag (Builds.dropDuplicate (t := t.report _) h) fun tag ha => ⟨tag, rfl, ha⟩
      refine Builds.shaped (s := .attributeName) ?_ rfl rfl
      refine Builds.switchTo (hname.editTag ?_) _
      rintro _ ⟨tag, rfl, ha⟩
      exact ⟨(duplicate_editTag _ _).trans (duplicate_newAttribute _), .startEquals ha⟩
    · obtain ⟨hslash, hclose⟩ := not_or.1 hends
      exact shaped_newAttribute h hpeek (by simp [beginsName, hblank, hslash, hclose, hequals])

theorem shaped_afterAttributeName (hpeek : t.input.pushBack.peek = c)
    (hs : t.state = .afterAttributeName) : Shaped (t.afterAttributeName c) := by
  cases c with
  | none => exact h.endInTag
  | some c =>
    simp only [afterAttributeName]
    split_ifs with hblank hslash hequals hclose
    · exact Builds.shaped (s := .afterAttributeName) h hs rfl
    · exact Builds.shaped (s := .selfClosingStartTag) h rfl rfl
    · exact Builds.shaped (s := .beforeAttributeValue) h rfl rfl
    · exact shaped_of_clear h.finishTag
    · exact shaped_newAttribute h hpeek (by simp [beginsName, hblank, hslash, hclose, hequals])

theorem shaped_beforeAttributeValue (hpeek : t.input.pushBack.peek = c)
    (hs : t.state = .beforeAttributeValue) : Shaped (t.beforeAttributeValue c) := by
  cases c with
  | none => exact Builds.again (s := .attributeValueUnquoted) h hpeek rfl
  | some c =>
    simp only [beforeAttributeValue]
    split_ifs
    · exact Builds.shaped (s := .beforeAttributeValue) h hs rfl
    · exact Builds.shaped (s := .attributeValueQuoted .double) h rfl rfl
    · exact Builds.shaped (s := .attributeValueQuoted .single) h rfl rfl
    · exact shaped_of_clear (Builds.finishTag (t := t.report _) h)
    · exact Builds.again (s := .attributeValueUnquoted) h hpeek rfl

theorem shaped_attributeValueQuoted (quote : Quote) (hs : t.state = .attributeValueQuoted quote) :
    Shaped (t.attributeValueQuoted quote c) := by
  cases c with
  | none => exact h.endInTag
  | some c =>
    simp only [attributeValueQuoted]
    split_ifs with _ _ hnull
    · exact Builds.shaped (s := .afterAttributeValueQuoted) h rfl rfl
    · exact h
    · exact Builds.shaped (s := .attributeValueQuoted quote)
        (Builds.attributeValue (t := t.report _) h (by decide)) ((state_edit _ _).trans hs) rfl
    · exact Builds.shaped (s := .attributeValueQuoted quote) (h.attributeValue hnull)
        ((state_edit _ _).trans hs) rfl

theorem shaped_attributeValueUnquoted (hs : t.state = .attributeValueUnquoted) :
    Shaped (t.attributeValueUnquoted c) := by
  cases c with
  | none => exact h.endInTag
  | some c =>
    simp only [attributeValueUnquoted]
    split_ifs with _ _ _ hnull
    · exact Builds.shaped (s := .beforeAttributeName) h rfl rfl
    · exact h
    · exact shaped_of_clear h.finishTag
    · exact Builds.shaped (s := .attributeValueUnquoted) (Builds.attributeValue (t := t.report _) h
        (by decide)) ((state_edit _ _).trans hs) rfl
    · exact Builds.shaped (s := .attributeValueUnquoted) (Builds.attributeValue (t := t.report _) h
        hnull) ((state_edit _ _).trans hs) rfl
    · exact Builds.shaped (s := .attributeValueUnquoted) (h.attributeValue hnull)
        ((state_edit _ _).trans hs) rfl

theorem shaped_afterAttributeValueQuoted (hpeek : t.input.pushBack.peek = c) :
    Shaped (t.afterAttributeValueQuoted c) := by
  cases c with
  | none => exact h.endInTag
  | some c =>
    simp only [afterAttributeValueQuoted]
    split_ifs
    · exact Builds.shaped (s := .beforeAttributeName) h rfl rfl
    · exact Builds.shaped (s := .selfClosingStartTag) h rfl rfl
    · exact shaped_of_clear h.finishTag
    · exact Builds.again (t := t.report _) (s := .beforeAttributeName) h hpeek rfl

theorem shaped_selfClosingStartTag (hpeek : t.input.pushBack.peek = c) :
    Shaped (t.selfClosingStartTag c) := by
  cases c with
  | none => exact h.endInTag
  | some c =>
    simp only [selfClosingStartTag]
    split_ifs
    · exact shaped_of_clear (h.editAttributes fun _ => Attributed.selfClosing).finishTag
    · exact Builds.again (t := t.report _) (s := .beforeAttributeName) h hpeek rfl

end Attribute

section AttributeName

variable (h : Builds (Shape .attributeName c t.duplicate) t)
include h

theorem Builds.checkDuplicate (hc : c.any beginsName = false) :
    Builds (OnTag (Attributed t.checkDuplicate.duplicate)) t.checkDuplicate := by
  -- checking only reads the tag: what it finds is put in the flag of the tokenizer
  have hchecked : ∀ token, t.current = some token →
      OnTag (fun tag =>
        t.duplicate = false ∧ Attributed token.lastAttributeIsDuplicate tag) token :=
    fun token ht => by
      have hname := h.2.1 token ht
      cases token with
      | startTag tag => exact ⟨hname.1, hname.2.check hc⟩
      | endTag tag => exact ⟨hname.1, hname.2.check hc⟩
      | _ => exact hname
  unfold Tokenizer.checkDuplicate
  cases hcurrent : t.current with
  | none => exact ⟨h.1, by simp [hcurrent], h.2.2⟩
  | some token =>
    dsimp only
    split
    · next hd =>
      refine ⟨h.1, fun token' ht => ?_, h.2.2⟩
      have heq : token = token' := Option.some.inj (hcurrent.symm.trans ht)
      have hc := hchecked token hcurrent
      rw [hd] at hc
      cases token <;> first | exact heq ▸ hc.2 | exact hc.elim
    · next hd =>
      refine ⟨h.1, fun token' ht => ?_, h.2.2⟩
      have heq : token = token' := Option.some.inj (hcurrent.symm.trans ht)
      have hc := hchecked token hcurrent
      rw [Bool.eq_false_iff.2 hd] at hc
      cases token <;> first | exact heq ▸ hc.1 ▸ hc.2 | exact hc.elim

theorem Builds.attributeName {x : Char} (hx : isTagChar x = true) (hne : x ≠ '=')
    (next : Option Char) :
    Builds (Shape .attributeName next (t.editTag (.attributeName x)).duplicate)
      (t.editTag (.attributeName x)) := by
  rw [duplicate_editTag]
  exact h.editTag fun tag hn => ⟨hn.1, hn.2.push hx hne⟩

theorem shaped_attributeName (hpeek : t.input.pushBack.peek = c) (hs : t.state = .attributeName)
    (hcr : c ≠ some '\r') : Shaped (t.attributeName c) := by
  have hinput : t.checkDuplicate.input = t.input := by
    unfold checkDuplicate
    split
    · split <;> rfl
    · rfl
  have hagain : c.any beginsName = false →
      Shaped (t.checkDuplicate.reconsumeIn .afterAttributeName) := fun hc =>
    Builds.again (s := .afterAttributeName) (h.checkDuplicate hc) (by rw [hinput, hpeek]) rfl
  cases c with
  | none => exact hagain rfl
  | some c =>
    simp only [attributeName]
    split
    · next hends => exact hagain (beginsName_of_endsName hends)
    · next hends =>
      simp only [Bool.or_eq_true, beq_iff_eq, not_or] at hends
      obtain ⟨⟨hblank, hslash⟩, hclose⟩ := hends
      split_ifs with hequals hnull
      · subst hequals
        exact Builds.shaped (s := .beforeAttributeValue) (h.checkDuplicate rfl) rfl rfl
      · exact Builds.shaped (s := .attributeName) (Builds.attributeName (t := t.report _) h rfl
          (by decide) _) ((state_edit _ _).trans hs) rfl
      all_goals
        have htag := isTagChar_toLower (isSolid_of_ne hcr hnull) (Bool.eq_false_iff.2 hblank) hclose
          hslash
        -- an equals sign is no letter, so none comes from a capital one
        have hne : c.toLower ≠ '=' := by
          obtain ⟨-, heq⟩ | ⟨-, hlower⟩ := toLower_cases c
          · rwa [heq]
          · rintro heq
            rw [heq] at hlower
            cases hlower
      · exact Builds.shaped (s := .attributeName) (Builds.attributeName (t := t.report _)
          h htag hne _) ((state_edit _ _).trans hs) rfl
      · exact Builds.shaped (s := .attributeName) (h.attributeName htag hne _)
          ((state_edit _ _).trans hs) rfl

end AttributeName

/-! ## 5. Comments -/

theorem Builds.finishComment (h : Builds (OnComment IsCommentText) t) (hd : t.duplicate = false) :
    Clear t.finish := Builds.finish (h.mono fun _ => finished_of_comment) hd

theorem Builds.endInComment (h : Builds (OnComment IsCommentText) t) (hd : t.duplicate = false) :
    Shaped t.endInComment := by
  refine shaped_of_clear (Builds.emitEnd (Builds.emitCurrent ?_))
  rw [dropDuplicate_of_eq_false (t := t.report _) hd]
  exact h.mono fun _ => finished_of_comment

theorem Builds.pushComment {x : Char} (h : Builds (OnComment R) t)
    (hx : ∀ text, R text → R' (text ++ [x])) : Builds (OnComment R') (t.editComment (.char x)) :=
  h.editComment fun data hr => by
    rw [toList_editComment]
    exact hx _ hr

theorem Builds.pushText (text : String) (h : Builds (OnComment R) t)
    (hx : ∀ old, R old → R' (old ++ text.toList)) :
    Builds (OnComment R') (t.editComment (.text text)) :=
  h.editComment fun data hr => by
    rw [toList_editComment]
    exact hx _ hr

theorem peek_editComment (e : CommentEdit) :
    (t.editComment e).input.pushBack.peek = t.input.pushBack.peek := by
  obtain ⟨current, fault, heq⟩ := exists_edit t (.comment e)
  rw [Tokenizer.editComment, heq]

section Comment

variable (hd : t.duplicate = false)
include hd

theorem shaped_bogusComment (h : Builds (OnComment Bogus) t) (hs : t.state = .bogusComment)
    (hcr : c ≠ some '\r') : Shaped (t.bogusComment c) := by
  have hfine : Builds (OnComment IsCommentText) t := h.onComment fun _ => Bogus.isCommentText
  have hpush : ∀ x : Char, isSolid x = true → x ≠ '>' → ∀ text, Bogus text → Bogus (text ++ [x]) :=
    fun x hx hne text hb y hy =>
      (List.mem_append.1 hy).elim (hb y) fun hy => List.mem_singleton.1 hy ▸ ⟨hx, hne⟩
  cases c with
  | none =>
    refine shaped_of_clear (Builds.emitEnd (Builds.emitCurrent ?_))
    rw [dropDuplicate_of_eq_false hd]
    exact hfine.mono fun _ => finished_of_comment
  | some c =>
    simp only [bogusComment]
    split_ifs with hclose hnull
    · exact shaped_of_clear (hfine.finishComment hd)
    · exact Builds.shaped (s := .bogusComment) (Builds.pushComment (t := t.report _) h
        (hpush _ rfl (by decide))) ((state_edit _ _).trans hs) rfl
    · exact Builds.shaped (s := .bogusComment)
        (h.pushComment (hpush c (isSolid_of_ne hcr hnull) hclose)) ((state_edit _ _).trans hs) rfl

theorem shaped_commentStart (h : Builds (OnComment (· = [])) t)
    (hpeek : t.input.pushBack.peek = c) : Shaped (t.commentStart c) := by
  unfold commentStart
  split_ifs with hdash hclose
  · exact Builds.shaped (s := .commentStartDash) h rfl rfl
  · exact shaped_of_clear (Builds.finishComment (t := t.report _)
      (h.onComment fun _ ht => ht ▸ .nil) hd)
  · refine Builds.again (s := .comment) (h.onComment ?_) hpeek rfl
    rintro _ rfl
    exact commenting_of_ne .nil hclose hdash (by simp)

theorem shaped_commentStartDash (h : Builds (OnComment (· = [])) t)
    (hpeek : t.input.pushBack.peek = c) : Shaped (t.commentStartDash c) := by
  have hfine : Builds (OnComment IsCommentText) t := h.onComment fun _ ht => ht ▸ .nil
  cases c with
  | none => exact hfine.endInComment hd
  | some c =>
    simp only [commentStartDash]
    split_ifs with hdash hclose
    · exact Builds.shaped (s := .commentEnd) hfine rfl rfl
    · exact shaped_of_clear (Builds.finishComment (t := t.report _) hfine hd)
    · refine Builds.again (s := .comment) (h.pushComment ?_) ((peek_editComment _).trans hpeek) rfl
      rintro _ rfl
      refine commenting_of_ne (IsCommentText.nil.push rfl fun heq => absurd heq (by decide)) ?_ ?_
        ?_
      · exact fun heq => hclose (Option.some.inj heq)
      · exact fun heq => hdash (Option.some.inj heq)
      · exact fun _ => by decide

theorem shaped_comment (h : Builds (OnComment (Commenting c)) t) (hs : t.state = .comment)
    (hcr : c ≠ some '\r') : Shaped (t.comment c) := by
  cases c with
  | none => exact (h.onComment fun _ => Commenting.fine).endInComment hd
  | some c =>
    simp only [Tokenizer.comment]
    split_ifs with hangle hdash hnull
    · exact Builds.shaped (s := .commentLessThanSign)
        (h.pushComment fun _ hc => by subst hangle; exact hc.push rfl (by decide)) rfl rfl
    · exact Builds.shaped (s := .commentEndDash)
        (h.onComment fun _ hc => hc.dash (congrArg some hdash)) rfl rfl
    · refine Builds.shaped (s := .comment) (Builds.pushComment (t := t.report _) h fun _ hc => ?_)
        ((state_edit _ _).trans hs) rfl
      have hfine := hc.fine.push (c := '\uFFFD') rfl fun heq => absurd heq (by decide)
      exact (loose_concat hfine (by decide) fun heq => absurd heq (by decide)).commenting _
    · refine Builds.shaped (s := .comment) (h.pushComment fun _ hc => ?_)
        ((state_edit _ _).trans hs) rfl
      exact (hc.push (isSolid_of_ne hcr hnull) hdash).commenting _

omit hd in
theorem shaped_commentLessThanSign (h : Builds (OnComment Loose) t)
    (hs : t.state = .commentLessThanSign)
    (hpeek : t.input.pushBack.peek = c) : Shaped (t.commentLessThanSign c) := by
  unfold commentLessThanSign
  split_ifs
  · exact Builds.shaped (s := .commentLessThanSignBang)
      (h.pushComment fun _ ht => ht.push rfl (by decide) (by decide)) rfl rfl
  · exact Builds.shaped (s := .commentLessThanSign)
      (h.pushComment fun _ ht => ht.push rfl (by decide) (by decide)) ((state_edit _ _).trans hs)
      rfl
  · exact Builds.again (s := .comment) (h.onComment fun _ ht => ht.commenting _) hpeek rfl

omit hd in
theorem shaped_commentLessThanSignBang (h : Builds (OnComment Loose) t)
    (hpeek : t.input.pushBack.peek = c) : Shaped (t.commentLessThanSignBang c) := by
  unfold commentLessThanSignBang
  split_ifs
  · exact Builds.shaped (s := .commentLessThanSignBangDash) h rfl rfl
  · exact Builds.again (s := .comment) (h.onComment fun _ ht => ht.commenting _) hpeek rfl

omit hd in
theorem shaped_commentLessThanSignBangDash (h : Builds (OnComment Loose) t)
    (hpeek : t.input.pushBack.peek = c) : Shaped (t.commentLessThanSignBangDash c) := by
  unfold commentLessThanSignBangDash
  split_ifs
  · exact Builds.shaped (s := .commentLessThanSignBangDashDash) h rfl rfl
  · exact Builds.again (s := .commentEndDash) (h.onComment fun _ => Loose.toUndashed) hpeek rfl

omit hd in
theorem shaped_commentLessThanSignBangDashDash (h : Builds (OnComment Loose) t)
    (hpeek : t.input.pushBack.peek = c) : Shaped (t.commentLessThanSignBangDashDash c) := by
  have hfine : Builds (OnComment IsCommentText) t := h.onComment fun _ ht => ht.fine
  unfold commentLessThanSignBangDashDash
  split_ifs
  · exact Builds.again (s := .commentEnd) hfine hpeek rfl
  · exact Builds.again (t := t.report _) (s := .commentEnd) hfine hpeek rfl

theorem shaped_commentEndDash (h : Builds (OnComment Undashed) t)
    (hpeek : t.input.pushBack.peek = c) : Shaped (t.commentEndDash c) := by
  have hfine : Builds (OnComment IsCommentText) t := h.onComment fun _ => Undashed.fine
  cases c with
  | none => exact hfine.endInComment hd
  | some c =>
    simp only [commentEndDash]
    split_ifs with hdash
    · exact Builds.shaped (s := .commentEnd) hfine rfl rfl
    · exact Builds.again (s := .comment) (h.pushComment fun _ ht =>
        ht.commenting fun heq => hdash (Option.some.inj heq))
        ((peek_editComment _).trans hpeek) rfl

theorem shaped_commentEnd (h : Builds (OnComment IsCommentText) t) (hs : t.state = .commentEnd)
    (hpeek : t.input.pushBack.peek = c) : Shaped (t.commentEnd c) := by
  cases c with
  | none => exact h.endInComment hd
  | some c =>
    simp only [commentEnd]
    split_ifs with hclose hbang hdash
    · exact shaped_of_clear (h.finishComment hd)
    · exact Builds.shaped (s := .commentEndBang) h rfl rfl
    · exact Builds.shaped (s := .commentEnd)
        (h.pushComment fun _ ht => ht.push rfl fun heq => absurd heq (by decide))
        ((state_edit _ _).trans hs) rfl
    · refine Builds.again (s := .comment) (h.pushText "--" fun _ ht => ?_)
        ((peek_editComment _).trans hpeek) rfl
      exact commenting_of_ne (isCommentText_append ht (bogus_of_all (by decide)))
        (fun heq => hclose (Option.some.inj heq)) (fun heq => hdash (Option.some.inj heq))
        fun heq => absurd (Option.some.inj heq) hbang

theorem shaped_commentEndBang (h : Builds (OnComment IsCommentText) t)
    (hpeek : t.input.pushBack.peek = c) : Shaped (t.commentEndBang c) := by
  have hbangs : ∀ l text : List Char, ¬ l ++ ['-'] <:+ text ++ ['-', '-', '!'] :=
    fun l text hs => by
    have hs : l ++ ['-'] <:+ (text ++ ['-', '-']) ++ ['!'] := by simpa using hs
    exact absurd (suffix_concat hs).1 (by decide)
  cases c with
  | none => exact h.endInComment hd
  | some c =>
    simp only [commentEndBang]
    split_ifs with hdash hclose
    · exact Builds.shaped (s := .commentEndDash) (h.pushText "--!" fun _ ht =>
        ⟨isCommentText_append ht (bogus_of_all (by decide)), by simp, hbangs [] _⟩) rfl rfl
    · exact shaped_of_clear (Builds.finishComment (t := t.report _) h hd)
    · refine Builds.again (s := .comment) (h.pushText "--!" fun _ ht => ?_)
        ((peek_editComment _).trans hpeek) rfl
      exact commenting_of_ne (isCommentText_append ht (bogus_of_all (by decide)))
        (fun heq => hclose (Option.some.inj heq)) (fun heq => hdash (Option.some.inj heq)) fun _ =>
        hbangs ['-'] _

end Comment

end Hypertext.Tokenizer
