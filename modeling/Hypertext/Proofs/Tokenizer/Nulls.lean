import Hypertext.Proofs.Tokenizer.Delivery
import Hypertext.Proofs.Tokenizer.WellFormed

/-!
# Nulls in tokens

A null in the name of a tag, in a comment and so on is replaced when it is read. Only as a character
of the text between tags, or of a CDATA section, it is delivered as it stands.
-/

namespace Hypertext

/-! ## 1. Tokens -/

/-- What an edit adds is no null. -/
def Edit.NullFree : Edit → Prop
  | .doctype (.name c) | .doctype (.publicId c) | .doctype (.systemId c) | .tag (.name c)
  | .tag (.attributeName c) | .tag (.attributeValue c) | .comment (.char c) => c ≠ '\x00'
  | .comment (.text s) => Hypertext.NullFree s
  | .doctype .publicIdEmpty | .doctype .systemIdEmpty | .doctype .forceQuirks | .tag .selfClosing
  | .tag .newAttribute | .tag .dropAttribute => True

theorem nullFree_pushTo {part : Option String} {c : Char} (h : ∀ s ∈ part, NullFree s)
    (hc : c ≠ '\x00') : ∀ s ∈ pushTo part c, NullFree s := by
  intro s hs
  obtain rfl := Option.some.inj hs
  refine NullFree.push ?_ hc
  cases part with
  | none => exact List.not_mem_nil
  | some s => exact h s rfl

theorem Doctype.NullFree.edit {d : Doctype} (h : d.NullFree) {e : DoctypeEdit}
    (he : (Edit.doctype e).NullFree) : (d.edit e).NullFree := by
  have hempty : ∀ s ∈ some "", Hypertext.NullFree s := by
    rintro s ⟨⟩
    exact List.not_mem_nil
  cases e with
  | name c => exact ⟨nullFree_pushTo h.name he, h.publicId, h.systemId⟩
  | publicIdEmpty => exact ⟨h.name, hempty, h.systemId⟩
  | publicId c => exact ⟨h.name, nullFree_pushTo h.publicId he, h.systemId⟩
  | systemIdEmpty => exact ⟨h.name, h.publicId, hempty⟩
  | systemId c => exact ⟨h.name, h.publicId, nullFree_pushTo h.systemId he⟩
  | forceQuirks => exact ⟨h.name, h.publicId, h.systemId⟩

theorem forall_mem_onLast {α : Type} {P : α → Prop} {f : α → α} {l : List α} (h : ∀ a ∈ l, P a)
    (hf : ∀ a, P a → P (f a)) : ∀ a ∈ onLast f l, P a := by
  induction l with
  | nil => exact h
  | cons a rest ih =>
    obtain ⟨ha, hrest⟩ := List.forall_mem_cons.1 h
    cases rest with
    | nil => exact List.forall_mem_cons.2 ⟨hf a ha, nofun⟩
    | cons b rest => exact List.forall_mem_cons.2 ⟨ha, ih hrest⟩

theorem Tag.NullFree.edit {t : Tag} (h : t.NullFree) {e : TagEdit} (he : (Edit.tag e).NullFree) :
    (t.edit e).NullFree := by
  cases e with
  | name c => exact ⟨h.name.push he, h.attributes⟩
  | selfClosing => exact ⟨h.name, h.attributes⟩
  | newAttribute =>
    refine ⟨h.name, fun a ha => ?_⟩
    rcases List.mem_append.1 ha with ha | ha
    · exact h.attributes a ha
    · rw [List.mem_singleton.1 ha]
      exact ⟨List.not_mem_nil, List.not_mem_nil⟩
  | attributeName c =>
    exact ⟨h.name, forall_mem_onLast h.attributes fun a ha => ⟨ha.name.push he, ha.value⟩⟩
  | attributeValue c =>
    exact ⟨h.name, forall_mem_onLast h.attributes fun a ha => ⟨ha.name, ha.value.push he⟩⟩
  | dropAttribute => exact ⟨h.name, fun a ha => h.attributes a (List.mem_of_mem_dropLast ha)⟩

theorem Token.NullFree.edit {token token' : Token} {e : Edit} (h : token.NullFree) (he : e.NullFree)
    (heq : token.edit e = .ok token') : token'.NullFree := by
  unfold Token.edit at heq
  split at heq
  · cases heq
    exact Doctype.NullFree.edit h he
  · cases heq
    exact Tag.NullFree.edit h he
  · cases heq
    exact Tag.NullFree.edit h he
  · next s e =>
    cases heq
    cases e with
    | char c => exact Hypertext.NullFree.push h he
    | text more => exact Hypertext.NullFree.append h he
  · cases heq

namespace Tokenizer

/-! ## 2. What the rules are made of -/

variable {t : Tokenizer} {nulls : Prop} {c : Option Char}

/-- What is held has no nulls, besides null characters that wait where there may be some. -/
structure NullFree (nulls : Prop) (t : Tokenizer) : Prop where
  current : ∀ token, t.current = some token → token.NullFree
  buffer : '\x00' ∉ t.buffer
  pending : ∀ p ∈ t.pending, p.token.NullFree ∨ nulls ∧ p.token = .character '\x00'

namespace NullFree

variable (h : NullFree nulls t)
include h

theorem congr {t' : Tokenizer} (hc : t'.current = t.current) (hb : t'.buffer = t.buffer)
    (hp : t'.pending = t.pending) : NullFree nulls t' :=
  ⟨hc ▸ h.current, hb ▸ h.buffer, hp ▸ h.pending⟩

@[grind ←]
theorem report (kind : ErrorKind) : NullFree nulls (t.report kind) := h.congr rfl rfl rfl

@[grind ←]
theorem input (input : Cursor) : NullFree nulls { t with input } := h.congr rfl rfl rfl

@[grind ←]
theorem switchTo (s : State) : NullFree nulls (t.switchTo s) := h.congr rfl rfl rfl

@[grind ←]
theorem reconsumeIn (s : State) : NullFree nulls (t.reconsumeIn s) := h.congr rfl rfl rfl

@[grind ←]
theorem enterReference (s : State) : NullFree nulls (t.enterReference s) := h.congr rfl rfl rfl

@[grind ←]
theorem switchToReturn : NullFree nulls t.switchToReturn := h.congr rfl rfl rfl

@[grind ←]
theorem reconsumeInReturn : NullFree nulls t.reconsumeInReturn := h.congr rfl rfl rfl

@[grind ←]
theorem markStart : NullFree nulls t.markStart := h.congr rfl rfl rfl

@[grind ←]
theorem buffer_of {buffer : List Char} (hb : '\x00' ∉ buffer) : NullFree nulls { t with buffer } :=
  ⟨h.current, hb, h.pending⟩

theorem enqueue {token : Token} (ht : token.NullFree ∨ nulls ∧ token = .character '\x00')
    (position : Position) : NullFree nulls (t.enqueue token position) := by
  refine ⟨h.current, h.buffer, fun p hp => ?_⟩
  rcases List.mem_append.1 hp with hp | hp
  · exact h.pending p hp
  · rw [List.mem_singleton.1 hp]
    exact ht

@[grind ←]
theorem emitChar {c : Char} (hc : c = '\x00' → nulls) : NullFree nulls (t.emitChar c) := by
  refine h.enqueue ?_ _
  by_cases hnull : c = '\x00'
  · exact Or.inr ⟨hc hnull, congrArg Token.character hnull⟩
  · exact Or.inl hnull

theorem emit {c : Char} (hc : c ≠ '\x00') : NullFree nulls (t.emitChar c) :=
  h.emitChar fun heq => absurd heq hc

@[grind ←]
theorem emitEnd : NullFree nulls t.emitEnd := by
  have hended : NullFree nulls { t with ended := true } := h.congr rfl rfl rfl
  exact hended.enqueue (Or.inl (show Token.endOfFile.NullFree from trivial)) _

@[grind ←]
theorem edit {e : Edit} (he : e.NullFree) : NullFree nulls (t.edit e) := by
  unfold Tokenizer.edit
  split
  · exact h
  · next token hcurrent =>
    split
    · next token' heq =>
      refine ⟨fun token'' ht => ?_, h.buffer, h.pending⟩
      cases ht
      exact (h.current token hcurrent).edit he heq
    · exact h.congr rfl rfl rfl

@[grind ←]
theorem editTag {e : TagEdit} (he : (Edit.tag e).NullFree) : NullFree nulls (t.editTag e) :=
  h.edit he

@[grind ←]
theorem editComment {e : CommentEdit} (he : (Edit.comment e).NullFree) :
    NullFree nulls (t.editComment e) :=
  h.edit he

@[grind ←]
theorem begin {token : Token} (ht : token.NullFree) : NullFree nulls (t.begin token) := by
  refine ⟨fun token' heq => ?_, h.buffer, h.pending⟩
  cases heq
  exact ht

@[grind ←]
theorem editDoctype {e : DoctypeEdit} (he : (Edit.doctype e).NullFree) :
    NullFree nulls (t.editDoctype e) := by
  refine (h.begin ?_).edit he
  unfold currentDoctype
  split
  · next d hcurrent => exact h.current _ hcurrent
  · exact ⟨nofun, nofun, nofun⟩

@[grind ←]
theorem emitChars {cs : List Char} (hcs : '\x00' ∉ cs) : NullFree nulls (t.emitChars cs) := by
  induction cs generalizing t with
  | nil => exact h
  | cons c cs ih =>
    rw [List.mem_cons, not_or] at hcs
    exact ih (h.emitChar fun hc => absurd hc.symm hcs.1) hcs.2

@[grind ←]
theorem deliver {cs : List Char} (hcs : '\x00' ∉ cs) : NullFree nulls (t.deliver cs) := by
  unfold Tokenizer.deliver
  split
  · clear * - h hcs
    induction cs generalizing t with
    | nil => exact h
    | cons c cs ih =>
      rw [List.mem_cons, not_or] at hcs
      exact ih (h.editTag (Ne.symm hcs.1)) hcs.2
  · exact h.emitChars hcs

@[grind ←]
theorem flush : NullFree nulls t.flush := h.deliver h.buffer

@[grind ←]
theorem resolve {cs : List Char} (hcs : '\x00' ∉ cs) : NullFree nulls (t.resolve cs) :=
  (h.buffer_of hcs).flush

@[grind ←]
theorem dropDuplicate : NullFree nulls t.dropDuplicate := by
  unfold Tokenizer.dropDuplicate
  split
  · have hd : NullFree nulls { t with duplicate := false } := h.congr rfl rfl rfl
    exact hd.editTag trivial
  · exact h

@[grind ←]
theorem newAttribute : NullFree nulls t.newAttribute := h.dropDuplicate.editTag trivial

@[grind ←]
theorem checkDuplicate : NullFree nulls t.checkDuplicate := by
  unfold Tokenizer.checkDuplicate
  split
  · split
    · exact h.congr rfl rfl rfl
    · exact h
  · exact h

@[grind ←]
theorem dropCurrent : NullFree nulls { t with current := none } := ⟨nofun, h.buffer, h.pending⟩

@[grind ←]
theorem emitCurrent : NullFree nulls t.emitCurrent := by
  have hd := h.dropDuplicate
  unfold Tokenizer.emitCurrent
  extract_lets t'
  split
  · exact hd
  · next token hcurrent =>
    have ht := hd.current token hcurrent
    have hnone := hd.dropCurrent
    dsimp only
    split
    · next tag =>
      have hlast : NullFree nulls { t' with current := none, lastStartTag := some tag.name } :=
        hnone.congr rfl rfl rfl
      exact hlast.enqueue (Or.inl ht) _
    · next tag =>
      have hname : (Token.endTag { name := tag.name }).NullFree :=
        ⟨Tag.NullFree.name (t := tag) ht, nofun⟩
      refine NullFree.enqueue ?_ (Or.inl hname) _
      repeat' split
      all_goals first
        | exact hnone
        | exact hnone.report _
        | exact (hnone.report _).report _
    · exact hnone.enqueue (Or.inl ht) _

@[grind ←]
theorem finish : NullFree nulls t.finish := (h.switchTo _).emitCurrent

end NullFree

@[grind .]
theorem nullFree_startTag : (Token.startTag {}).NullFree := ⟨List.not_mem_nil, nofun⟩

@[grind .]
theorem nullFree_endTag : (Token.endTag {}).NullFree := ⟨List.not_mem_nil, nofun⟩

@[grind .]
theorem nullFree_emptyComment : (Token.comment "").NullFree := List.not_mem_nil

@[grind .]
theorem nullFree_cdataOpening : (Token.comment "[CDATA[").NullFree := by
  unfold Token.NullFree
  decide

@[grind .]
theorem nullFree_dashes : Hypertext.NullFree "--" := by decide

@[grind .]
theorem nullFree_dashesBang : Hypertext.NullFree "--!" := by decide

attribute [grind] Edit.NullFree
attribute [grind .] toLower_ne_null
attribute [grind →] ne_null_of_isAlpha

/-! ## 3. Rules -/

variable (h : NullFree nulls t)
include h

/-! ### Text -/

@[grind ←]
theorem nullFree_data (hn : nulls) : NullFree nulls (t.data c) := by
  unfold Tokenizer.data
  grind

@[grind ←]
theorem nullFree_cdataSection (hn : nulls) : NullFree nulls (t.cdataSection c) := by
  unfold Tokenizer.cdataSection
  grind

@[grind ←]
theorem nullFree_rawCharacter : NullFree nulls (t.rawCharacter c) := by
  unfold Tokenizer.rawCharacter
  grind

@[grind ←]
theorem nullFree_endInScriptComment : NullFree nulls t.endInScriptComment := by
  unfold Tokenizer.endInScriptComment
  grind

@[grind ←]
theorem nullFree_escapedCharacter (s : State) : NullFree nulls (t.escapedCharacter s c) := by
  unfold Tokenizer.escapedCharacter
  grind

@[grind ←]
theorem nullFree_text (kind : RawText) : NullFree nulls (t.text kind c) := by
  unfold Tokenizer.text
  grind

@[grind ←]
theorem nullFree_textLessThanSign (kind : RawText) :
    NullFree nulls (t.textLessThanSign kind c) := by
  unfold Tokenizer.textLessThanSign
  grind

@[grind ←]
theorem nullFree_abandonEndTag (kind : RawText) : NullFree nulls (t.abandonEndTag kind) := by
  unfold Tokenizer.abandonEndTag
  have htext : NullFree nulls (((t.emitChar '<').emitChar '/').emitChars t.buffer) :=
    ((h.emit (by decide)).emit (by decide)).emitChars h.buffer
  exact htext.dropCurrent.reconsumeIn _

@[grind ←]
theorem nullFree_textEndTagOpen (kind : RawText) : NullFree nulls (t.textEndTagOpen kind c) := by
  unfold Tokenizer.textEndTagOpen
  grind

@[grind ←]
theorem nullFree_textEndTagName (kind : RawText) : NullFree nulls (t.textEndTagName kind c) := by
  unfold Tokenizer.textEndTagName
  split
  · grind
  · next x =>
    repeat' split
    · exact h.switchTo _
    · exact h.switchTo _
    · exact h.finish
    · next hx =>
      have hne := ne_null_of_isAlpha hx
      have hname : (Edit.tag (.name x.toLower)).NullFree := toLower_ne_null hne.symm
      have hread := h.editTag hname
      exact hread.buffer_of (List.not_mem_append hread.buffer (by simpa using hne))
    · grind

@[grind ←]
theorem nullFree_scriptDataEscapeStart : NullFree nulls (t.scriptDataEscapeStart c) := by
  unfold Tokenizer.scriptDataEscapeStart
  grind

@[grind ←]
theorem nullFree_scriptDataEscapeStartDash : NullFree nulls (t.scriptDataEscapeStartDash c) := by
  unfold Tokenizer.scriptDataEscapeStartDash
  grind

@[grind ←]
theorem nullFree_scriptDataEscapedDash : NullFree nulls (t.scriptDataEscapedDash c) := by
  unfold Tokenizer.scriptDataEscapedDash
  grind

@[grind ←]
theorem nullFree_scriptDataEscapedDashDash : NullFree nulls (t.scriptDataEscapedDashDash c) := by
  unfold Tokenizer.scriptDataEscapedDashDash
  grind

@[grind ←]
theorem nullFree_doubleEscapeBoundary (ifScript otherwise : State) :
    NullFree nulls (t.doubleEscapeBoundary ifScript otherwise c) := by
  unfold Tokenizer.doubleEscapeBoundary
  split
  · exact h.reconsumeIn _
  · next x =>
    split
    · next hx =>
      refine (h.switchTo _).emitChar ?_
      rintro rfl
      exact absurd hx (by decide)
    · split
      · next hx =>
        have hne := (ne_null_of_isAlpha hx).symm
        have hbuffer : '\x00' ∉ t.buffer ++ [x.toLower] :=
          List.not_mem_append h.buffer (by simpa using (toLower_ne_null hne).symm)
        exact (h.buffer_of hbuffer).emit hne
      · exact h.reconsumeIn _

@[grind ←]
theorem nullFree_scriptDataDoubleEscaped : NullFree nulls (t.scriptDataDoubleEscaped c) := by
  unfold Tokenizer.scriptDataDoubleEscaped
  grind

@[grind ←]
theorem nullFree_scriptDataDoubleEscapedDash :
    NullFree nulls (t.scriptDataDoubleEscapedDash c) := by
  unfold Tokenizer.scriptDataDoubleEscapedDash
  grind

@[grind ←]
theorem nullFree_scriptDataDoubleEscapedDashDash :
    NullFree nulls (t.scriptDataDoubleEscapedDashDash c) := by
  unfold Tokenizer.scriptDataDoubleEscapedDashDash
  grind

@[grind ←]
theorem nullFree_scriptDataDoubleEscapedLessThanSign :
    NullFree nulls (t.scriptDataDoubleEscapedLessThanSign c) := by
  unfold Tokenizer.scriptDataDoubleEscapedLessThanSign
  grind

@[grind ←]
theorem nullFree_cdataSectionBracket : NullFree nulls (t.cdataSectionBracket c) := by
  unfold Tokenizer.cdataSectionBracket
  grind

@[grind ←]
theorem nullFree_cdataSectionEnd : NullFree nulls (t.cdataSectionEnd c) := by
  unfold Tokenizer.cdataSectionEnd
  grind

/-! ### Tags -/

@[grind ←]
theorem nullFree_endInTag : NullFree nulls t.endInTag := by
  unfold Tokenizer.endInTag
  have hd : NullFree nulls { t.report .eofInTag with current := none, duplicate := false } :=
    ⟨nofun, h.buffer, h.pending⟩
  exact hd.emitEnd

@[grind ←]
theorem nullFree_tagOpen : NullFree nulls (t.tagOpen c) := by
  unfold Tokenizer.tagOpen
  grind

@[grind ←]
theorem nullFree_endTagOpen : NullFree nulls (t.endTagOpen c) := by
  unfold Tokenizer.endTagOpen
  grind

@[grind ←]
theorem nullFree_tagName : NullFree nulls (t.tagName c) := by
  unfold Tokenizer.tagName
  grind

@[grind ←]
theorem nullFree_beforeAttributeName : NullFree nulls (t.beforeAttributeName c) := by
  unfold Tokenizer.beforeAttributeName
  grind

@[grind ←]
theorem nullFree_attributeName : NullFree nulls (t.attributeName c) := by
  unfold Tokenizer.attributeName
  grind

@[grind ←]
theorem nullFree_afterAttributeName : NullFree nulls (t.afterAttributeName c) := by
  unfold Tokenizer.afterAttributeName
  grind

@[grind ←]
theorem nullFree_beforeAttributeValue : NullFree nulls (t.beforeAttributeValue c) := by
  unfold Tokenizer.beforeAttributeValue
  grind

@[grind ←]
theorem nullFree_attributeValueQuoted (quote : Quote) :
    NullFree nulls (t.attributeValueQuoted quote c) := by
  unfold Tokenizer.attributeValueQuoted
  grind

@[grind ←]
theorem nullFree_attributeValueUnquoted : NullFree nulls (t.attributeValueUnquoted c) := by
  unfold Tokenizer.attributeValueUnquoted
  grind

@[grind ←]
theorem nullFree_afterAttributeValueQuoted : NullFree nulls (t.afterAttributeValueQuoted c) := by
  unfold Tokenizer.afterAttributeValueQuoted
  grind

@[grind ←]
theorem nullFree_selfClosingStartTag : NullFree nulls (t.selfClosingStartTag c) := by
  unfold Tokenizer.selfClosingStartTag
  grind

/-! ### Comments -/

@[grind ←]
theorem nullFree_markupDeclarationOpen : NullFree nulls t.markupDeclarationOpen := by
  unfold Tokenizer.markupDeclarationOpen
  grind

@[grind ←]
theorem nullFree_bogusComment : NullFree nulls (t.bogusComment c) := by
  unfold Tokenizer.bogusComment
  grind

@[grind ←]
theorem nullFree_endInComment : NullFree nulls t.endInComment := by
  unfold Tokenizer.endInComment
  grind

@[grind ←]
theorem nullFree_commentStart : NullFree nulls (t.commentStart c) := by
  unfold Tokenizer.commentStart
  grind

@[grind ←]
theorem nullFree_commentStartDash : NullFree nulls (t.commentStartDash c) := by
  unfold Tokenizer.commentStartDash
  grind

@[grind ←]
theorem nullFree_comment : NullFree nulls (t.comment c) := by
  unfold Tokenizer.comment
  grind

@[grind ←]
theorem nullFree_commentLessThanSign : NullFree nulls (t.commentLessThanSign c) := by
  unfold Tokenizer.commentLessThanSign
  grind

@[grind ←]
theorem nullFree_commentLessThanSignBang : NullFree nulls (t.commentLessThanSignBang c) := by
  unfold Tokenizer.commentLessThanSignBang
  grind

@[grind ←]
theorem nullFree_commentLessThanSignBangDash :
    NullFree nulls (t.commentLessThanSignBangDash c) := by
  unfold Tokenizer.commentLessThanSignBangDash
  grind

@[grind ←]
theorem nullFree_commentLessThanSignBangDashDash :
    NullFree nulls (t.commentLessThanSignBangDashDash c) := by
  unfold Tokenizer.commentLessThanSignBangDashDash
  grind

@[grind ←]
theorem nullFree_commentEndDash : NullFree nulls (t.commentEndDash c) := by
  unfold Tokenizer.commentEndDash
  grind

@[grind ←]
theorem nullFree_commentEnd : NullFree nulls (t.commentEnd c) := by
  unfold Tokenizer.commentEnd
  grind

@[grind ←]
theorem nullFree_commentEndBang : NullFree nulls (t.commentEndBang c) := by
  unfold Tokenizer.commentEndBang
  grind

/-! ### Document types -/

@[grind ←]
theorem nullFree_endInDoctype : NullFree nulls t.endInDoctype := by
  unfold Tokenizer.endInDoctype
  grind

@[grind ←]
theorem nullFree_doctype : NullFree nulls (t.doctype c) := by
  unfold Tokenizer.doctype
  grind

@[grind ←]
theorem nullFree_beginDoctype {x : Char} (hx : x ≠ '\x00') : NullFree nulls (t.beginDoctype x) := by
  have hempty : Doctype.NullFree {} := ⟨nofun, nofun, nofun⟩
  have hname : (Edit.doctype (.name x)).NullFree := hx
  have htoken : (Token.doctype (Doctype.edit {} (.name x))).NullFree := hempty.edit hname
  exact (h.begin htoken).switchTo _

@[grind ←]
theorem nullFree_beforeDoctypeName : NullFree nulls (t.beforeDoctypeName c) := by
  unfold Tokenizer.beforeDoctypeName
  have hmissing : (Token.doctype { forceQuirks := true }).NullFree := ⟨nofun, nofun, nofun⟩
  grind

@[grind ←]
theorem nullFree_doctypeName : NullFree nulls (t.doctypeName c) := by
  unfold Tokenizer.doctypeName
  grind

@[grind ←]
theorem nullFree_afterDoctypeName : NullFree nulls (t.afterDoctypeName c) := by
  unfold Tokenizer.afterDoctypeName
  grind

@[grind ←]
theorem nullFree_beginIdentifier (which : Identifier) (quote : Quote) :
    NullFree nulls (t.beginIdentifier which quote) := by
  unfold Tokenizer.beginIdentifier
  have hempty : (Edit.doctype (emptyIdentifier which)).NullFree := by cases which <;> trivial
  exact (h.editDoctype hempty).switchTo _

@[grind ←]
theorem nullFree_missingIdentifier (which : Identifier) :
    NullFree nulls (t.missingIdentifier which) := by
  unfold Tokenizer.missingIdentifier
  grind

@[grind ←]
theorem nullFree_missingQuote (which : Identifier) : NullFree nulls (t.missingQuote which) := by
  unfold Tokenizer.missingQuote
  grind

@[grind ←]
theorem nullFree_afterDoctypeKeyword (which : Identifier) :
    NullFree nulls (t.afterDoctypeKeyword which c) := by
  unfold Tokenizer.afterDoctypeKeyword
  grind

@[grind ←]
theorem nullFree_beforeDoctypeIdentifier (which : Identifier) :
    NullFree nulls (t.beforeDoctypeIdentifier which c) := by
  unfold Tokenizer.beforeDoctypeIdentifier
  grind

@[grind ←]
theorem nullFree_doctypeIdentifier (which : Identifier) (quote : Quote) :
    NullFree nulls (t.doctypeIdentifier which quote c) := by
  unfold Tokenizer.doctypeIdentifier
  have hextend {x : Char} (hx : x ≠ '\x00') :
      (Edit.doctype (extendIdentifier x which)).NullFree := by
    cases which <;> exact hx
  grind

@[grind ←]
theorem nullFree_afterPublicIdentifier : NullFree nulls (t.afterPublicIdentifier c) := by
  unfold Tokenizer.afterPublicIdentifier
  grind

@[grind ←]
theorem nullFree_betweenDoctypeIdentifiers : NullFree nulls (t.betweenDoctypeIdentifiers c) := by
  unfold Tokenizer.betweenDoctypeIdentifiers
  grind

@[grind ←]
theorem nullFree_afterSystemIdentifier : NullFree nulls (t.afterSystemIdentifier c) := by
  unfold Tokenizer.afterSystemIdentifier
  grind

@[grind ←]
theorem nullFree_bogusDoctype : NullFree nulls (t.bogusDoctype c) := by
  unfold Tokenizer.bogusDoctype
  grind

/-! ### References -/

@[grind ←]
theorem nullFree_characterReference : NullFree nulls (t.characterReference c) := by
  unfold Tokenizer.characterReference
  grind

@[grind ←]
theorem nullFree_namedCharacterReference : NullFree nulls t.namedCharacterReference := by
  unfold Tokenizer.namedCharacterReference
  dsimp only
  split
  · exact (h.input _).flush.switchTo _
  · next entry hmatch =>
    obtain ⟨hname, htext⟩ := Entity.null_not_mem entry (Entity.longestMatch_eq_some hmatch).1
    have hread := (h.input (t.input.pushBack.skip entry.name)).buffer_of
      (List.not_mem_append h.buffer hname)
    split_ifs
    · exact (hread.resolve htext).switchToReturn
    · exact hread.flush.switchToReturn
    · exact ((hread.report _).resolve htext).switchToReturn

@[grind ←]
theorem nullFree_ambiguousAmpersand : NullFree nulls (t.ambiguousAmpersand c) := by
  unfold Tokenizer.ambiguousAmpersand
  split
  · exact h.reconsumeInReturn
  · next x =>
    split_ifs with halnum
    · refine h.deliver fun hmem => ?_
      rw [← List.mem_singleton.1 hmem] at halnum
      cases halnum
    · exact (h.report _).reconsumeInReturn
    · exact h.reconsumeInReturn

@[grind ←]
theorem nullFree_numericCharacterReference : NullFree nulls (t.numericCharacterReference c) := by
  have hpush : ∀ x : Char, x ≠ '\x00' → '\x00' ∉ t.buffer ++ [x] := fun x hx =>
    List.not_mem_append h.buffer (by simpa using hx.symm)
  have hcode : NullFree nulls { t with code := 0 } := h.congr rfl rfl rfl
  unfold Tokenizer.numericCharacterReference
  dsimp only
  split
  · exact (hcode.buffer_of (hpush 'x' (by decide))).switchTo _
  · exact (hcode.buffer_of (hpush 'X' (by decide))).switchTo _
  · exact hcode.reconsumeIn _

@[grind ←]
theorem nullFree_numericReferenceStart (radix : Radix) :
    NullFree nulls (t.numericReferenceStart radix c) := by
  unfold Tokenizer.numericReferenceStart
  grind

@[grind ←]
theorem nullFree_numericReferenceDigits (radix : Radix) :
    NullFree nulls (t.numericReferenceDigits radix c) := by
  unfold Tokenizer.numericReferenceDigits
  split
  · exact h.congr rfl rfl rfl
  · grind

@[grind ←]
theorem nullFree_numericReferenceEnd : NullFree nulls t.numericReferenceEnd := by
  have hnull : '\x00' ∉ [Char.ofNat (resolveCode t.code).1] := by
    simpa using (char_resolveCode_ne t.code).symm
  unfold Tokenizer.numericReferenceEnd
  dsimp only
  split
  · exact (((h.input _).report _).resolve hnull).switchToReturn
  · exact ((h.input _).resolve hnull).switchToReturn

/-! ## 4. Steps -/

theorem nullFree_handle (hn : t.state = .data ∨ t.state = .cdataSection → nulls) :
    NullFree nulls (t.handle c) := by
  unfold handle
  split
  all_goals grind -ring -linarith -lia

theorem NullFree.step (hn : t.state = .data ∨ t.state = .cdataSection → nulls) :
    NullFree nulls t.step := by
  obtain ⟨errors, heq, -⟩ := consume_eq_advance t
  rw [Tokenizer.step, heq]
  have hconsume : NullFree nulls { t with input := t.input.advance, errors } := h.congr rfl rfl rfl
  exact nullFree_handle hconsume hn

omit h in
/-- Null characters are read outside of raw text only. -/
theorem nulls_of_state (hended : t.ended = false) (hb : nulls ∨ ∃ name, Bound name t)
    (hs : t.state = .data ∨ t.state = .cdataSection) : nulls := by
  obtain hnulls | ⟨name, hbound⟩ := hb
  · exact hnulls
  · have hfree : t.zone.isFree = true := by
      obtain hs | hs := hs
      all_goals
        rw [zone_of_state hs rfl]
        rfl
    refine absurd (hbound.confined.resolve_left fun hend => ?_) (not_confined hfree)
    rw [hended] at hend
    cases hend

omit h in
/-- A token that is delivered has no nulls, or is a null character outside of raw text. -/
theorem nullFree_pull (fuel : Nat) (hc : Calm t) (hb : nulls ∨ ∃ name, Bound name t)
    (h : NullFree nulls t) :
    ((pull fuel t).1.token.NullFree ∨ nulls ∧ (pull fuel t).1.token = .character '\x00') ∧
      NullFree nulls (pull fuel t).2 := by
  have hpop : ∀ {t : Tokenizer} {p rest}, NullFree nulls t → t.pending = p :: rest →
      (p.token.NullFree ∨ nulls ∧ p.token = .character '\x00') ∧
        NullFree nulls { t with pending := rest } := by
    intro t p rest h hp
    exact ⟨h.pending p (hp ▸ List.mem_cons_self ..), h.current, h.buffer,
      fun q hq => h.pending q (hp ▸ List.mem_cons_of_mem p hq)⟩
  induction fuel generalizing t with
  | zero => exact ⟨Or.inl trivial, h⟩
  | succ fuel ih =>
    unfold pull
    cases hp : t.pending with
    | cons p rest => exact hpop h hp
    | nil =>
      dsimp only
      split
      · exact ⟨Or.inl trivial, h⟩
      · next hended =>
        rw [Bool.not_eq_true] at hended
        have hstep := h.step (nulls_of_state hended hb)
        obtain ⟨hcalm, hbound⟩ | ⟨p, hpending, -⟩ := hc.step_cases hp hended
        · exact ih hcalm (hb.imp_right (Exists.imp hbound)) hstep
        · -- the finished token is handed out in the next round
          cases fuel with
          | zero => exact ⟨Or.inl trivial, hstep⟩
          | succ fuel =>
            unfold pull
            rw [hpending]
            exact hpop hstep hpending

omit h in
theorem nullFree_nextToken (hc : Calm t) (hb : nulls ∨ ∃ name, Bound name t) (h : NullFree nulls t)
    (foreign : Bool) :
    ((t.nextToken foreign).1.token.NullFree ∨ nulls ∧
      (t.nextToken foreign).1.token = .character '\x00') ∧
      NullFree nulls (t.nextToken foreign).2 := by
  have hcalm : Calm { t with foreign } :=
    ⟨⟨hc.current, hc.returnState, hc.duplicate, hc.fault⟩, hc.queue⟩
  refine nullFree_pull t.stepLimit hcalm ?_ (h.congr rfl rfl rfl)
  exact hb.imp_right fun ⟨name, hname⟩ => ⟨name, hname.last, hname.queue, hname.confined⟩

end Tokenizer

end Hypertext
