import Hypertext.Proofs.Tokenizer.Termination
import Hypertext.Proofs.Tokenizer.Trail

/-!
# Tokens are placed in order

In text the tokens that are finished reach up to the next character, in a reference up to the
character read last, and in markup up to its `<`. Every state keeps to this, so that the tokens that
are delivered are placed one after the other.
-/

namespace Hypertext.Tokenizer

variable {text : List Char} {low : Nat} {t : Tokenizer} {c : Option Char}

/-! ## 1. What holds between two steps -/

/-- Whether the `<` of a token that may be given up again has just been read. -/
def State.isOpening : State → Bool
  | .tagOpen | .endTagOpen | .markupDeclarationOpen | .textLessThanSign _
  | .textEndTagOpen _ => true
  | _ => false

/-- Whether the `<` of a token has been marked. -/
def marks (t : Tokenizer) : Bool :=
  match t.state.zone? with
  | some z => t.state.isOpening || !z.isText
  | none => t.inAttribute

/-- Whether a state reads text as it stands. -/
def State.isPlain (s : State) : Bool := s.zone?.any (·.isText) && !s.isOpening

/-- How far what has been finished reaches before the next step. -/
def Ordered (text : List Char) (low : Nat) (t : Tokenizer) : Prop :=
  if t.ended then Here text low t
  else if t.marks then Opened text low t
  else if t.state.zone? = none then Here text low t
  else Next text low t

theorem Opened.ordered (h : Opened text low t) : Ordered text low t := by
  unfold Ordered
  split_ifs
  · exact h.here
  · exact h
  · exact h.here
  · exact h.here.next

@[grind ←]
theorem Marked.ordered (h : Marked text low t) : Ordered text low t := h.opened.ordered

theorem Here.ordered (h : Here text low t) (hm : t.ended = true ∨ t.marks = false) :
    Ordered text low t := by
  unfold Ordered
  split_ifs with he hmarks
  · exact h
  · rw [hmarks] at hm
    exact absurd (hm.resolve_left he) (by simp)
  · exact h
  · exact h.next

theorem marks_of_isPlain {s : State} (hs : t.state = s) (hp : s.isPlain = true) :
    ∃ z, s.zone? = some z ∧ t.marks = false := by
  obtain ⟨hz, hopening⟩ := Bool.and_eq_true_iff.1 hp
  obtain ⟨z, hzone, htext⟩ := (Option.any_eq_true ..).1 hz
  refine ⟨z, hzone, ?_⟩
  simp only [marks, hs, hzone, htext]
  simpa using hopening

theorem Next.ordered {s : State} (h : Next text low t) (he : t.ended = false) (hs : t.state = s)
    (hp : s.isPlain = true) : Ordered text low t := by
  obtain ⟨z, hzone, hm⟩ := marks_of_isPlain hs hp
  unfold Ordered
  rw [he, hm, hs, hzone]
  simpa using h

theorem Here.ordered_of_plain {s : State} (h : Here text low t) (he : t.ended = false)
    (hs : t.state = s) (hp : s.isPlain = true) : Ordered text low t := h.next.ordered he hs hp

theorem Here.ordered_emitEnd (h : Here text low t) : Ordered text low t.emitEnd :=
  h.emitEnd.ordered (Or.inl rfl)

/-! ## 2. What each state does -/

/-! ### Text -/

section Text

variable (h : Here text low t) (he : t.ended = false)
include h he

theorem ordered_data (hs : t.state = .data) :
    Ordered text low (t.data c) := by
  cases c with
  | none => exact h.ordered_emitEnd
  | some c =>
    simp only [data]
    split_ifs with _ hc
    · exact Here.ordered (t := t.enterReference .data) h (Or.inr rfl)
    · exact ((h.mark).switchTo _).ordered
    · exact ((h.report _).emitChar c).ordered_of_plain he hs rfl
    · exact (h.emitChar c).ordered_of_plain he hs rfl

theorem ordered_rawCharacter {s : State} (hs : t.state = s) (hp : s.isPlain = true) :
    Ordered text low (t.rawCharacter c) := by
  cases c with
  | none => exact h.ordered_emitEnd
  | some c =>
    simp only [rawCharacter]
    split_ifs
    · exact ((h.report _).emitChar _).ordered_of_plain he hs hp
    · exact (h.emitChar c).ordered_of_plain he hs hp

theorem ordered_escapedCharacter {s : State} (hp : s.isPlain = true) :
    Ordered text low (t.escapedCharacter s c) := by
  cases c with
  | none => exact (h.report _).ordered_emitEnd
  | some c =>
    simp only [escapedCharacter]
    split_ifs
    · exact (((h.report _).switchTo s).emitChar _).ordered_of_plain he rfl hp
    · exact ((h.switchTo s).emitChar c).ordered_of_plain he rfl hp

theorem ordered_text (kind : RawText) (hs : t.state = .text kind)
    : Ordered text low (t.text kind c) := by
  unfold Tokenizer.text
  split
  · next hc => exact ((h.mark).switchTo _).ordered
  · cases kind with
    | rcdata =>
      dsimp only
      split
      · exact Here.ordered (t := t.enterReference (.text .rcdata)) h (Or.inr rfl)
      · exact ordered_rawCharacter h he hs rfl
    | rawtext => exact ordered_rawCharacter h he hs rfl
    | scriptData => exact ordered_rawCharacter h he hs rfl
    | scriptDataEscaped =>
      dsimp only
      split
      · exact ((h.switchTo _).emitChar _).ordered_of_plain he rfl rfl
      · exact ordered_escapedCharacter h he rfl

theorem ordered_scriptDataEscapeStart : Ordered text low (t.scriptDataEscapeStart c) := by
  unfold scriptDataEscapeStart
  split_ifs
  · exact ((h.switchTo _).emitChar _).ordered_of_plain he rfl rfl
  · exact (h.reconsumeIn _).ordered he rfl rfl

theorem ordered_scriptDataEscapeStartDash : Ordered text low (t.scriptDataEscapeStartDash c) := by
  unfold scriptDataEscapeStartDash
  split_ifs
  · exact ((h.switchTo _).emitChar _).ordered_of_plain he rfl rfl
  · exact (h.reconsumeIn _).ordered he rfl rfl

theorem ordered_scriptDataEscapedDash :
    Ordered text low (t.scriptDataEscapedDash c) := by
  unfold scriptDataEscapedDash
  split_ifs with _ hc
  · exact ((h.switchTo _).emitChar _).ordered_of_plain he rfl rfl
  · exact ((h.mark).switchTo _).ordered
  · exact ordered_escapedCharacter h he rfl

theorem ordered_scriptDataEscapedDashDash (hs : t.state = .scriptDataEscapedDashDash)
    :
    Ordered text low (t.scriptDataEscapedDashDash c) := by
  unfold scriptDataEscapedDashDash
  split_ifs with _ hc
  · exact (h.emitChar _).ordered_of_plain he hs rfl
  · exact ((h.mark).switchTo _).ordered
  · exact ((h.switchTo _).emitChar _).ordered_of_plain he rfl rfl
  · exact ordered_escapedCharacter h he rfl

theorem ordered_doubleEscapeBoundary {s s₁ s₂ : State} (hs : t.state = s) (hp : s.isPlain = true)
    (hp₁ : s₁.isPlain = true) (hp₂ : s₂.isPlain = true) :
    Ordered text low (t.doubleEscapeBoundary s₁ s₂ c) := by
  cases c with
  | none => exact (h.reconsumeIn _).ordered he rfl hp₂
  | some c =>
    simp only [doubleEscapeBoundary]
    split
    · refine ((h.switchTo _).emitChar c).ordered_of_plain he rfl ?_
      split
      · exact hp₁
      · exact hp₂
    · split
      · exact ((h.buffer _).emitChar c).ordered_of_plain he hs hp
      · exact (h.reconsumeIn _).ordered he rfl hp₂

theorem ordered_scriptDataDoubleEscaped : Ordered text low (t.scriptDataDoubleEscaped c) := by
  unfold scriptDataDoubleEscaped
  split_ifs
  · exact ((h.switchTo _).emitChar _).ordered_of_plain he rfl rfl
  · exact ((h.switchTo _).emitChar _).ordered_of_plain he rfl rfl
  · exact ordered_escapedCharacter h he rfl

theorem ordered_scriptDataDoubleEscapedDash :
    Ordered text low (t.scriptDataDoubleEscapedDash c) := by
  unfold scriptDataDoubleEscapedDash
  split_ifs
  · exact ((h.switchTo _).emitChar _).ordered_of_plain he rfl rfl
  · exact ((h.switchTo _).emitChar _).ordered_of_plain he rfl rfl
  · exact ordered_escapedCharacter h he rfl

theorem ordered_scriptDataDoubleEscapedDashDash (hs : t.state = .scriptDataDoubleEscapedDashDash) :
    Ordered text low (t.scriptDataDoubleEscapedDashDash c) := by
  unfold scriptDataDoubleEscapedDashDash
  split_ifs
  · exact (h.emitChar _).ordered_of_plain he hs rfl
  · exact ((h.switchTo _).emitChar _).ordered_of_plain he rfl rfl
  · exact ((h.switchTo _).emitChar _).ordered_of_plain he rfl rfl
  · exact ordered_escapedCharacter h he rfl

theorem ordered_scriptDataDoubleEscapedLessThanSign :
    Ordered text low (t.scriptDataDoubleEscapedLessThanSign c) := by
  unfold scriptDataDoubleEscapedLessThanSign
  split_ifs
  · exact (((h.buffer _).switchTo _).emitChar _).ordered_of_plain he rfl rfl
  · exact (h.reconsumeIn _).ordered he rfl rfl

theorem ordered_cdataSection (hs : t.state = .cdataSection) :
    Ordered text low (t.cdataSection c) := by
  cases c with
  | none => exact (h.report _).ordered_emitEnd
  | some c =>
    simp only [cdataSection]
    split_ifs
    · exact (h.switchTo _).ordered_of_plain he rfl rfl
    · exact (h.emitChar c).ordered_of_plain he hs rfl

theorem ordered_cdataSectionBracket : Ordered text low (t.cdataSectionBracket c) := by
  unfold cdataSectionBracket
  split_ifs
  · exact (h.switchTo _).ordered_of_plain he rfl rfl
  · exact ((h.emitChar _).reconsumeIn _).ordered he rfl rfl

theorem ordered_cdataSectionEnd (hs : t.state = .cdataSectionEnd) :
    Ordered text low (t.cdataSectionEnd c) := by
  unfold cdataSectionEnd
  split_ifs
  · exact (h.emitChar _).ordered_of_plain he hs rfl
  · exact (h.switchTo _).ordered_of_plain he rfl rfl
  · exact (((h.emitChar _).emitChar _).reconsumeIn _).ordered he rfl rfl

end Text

/-! ### Markup that may be given up -/

section Opening

variable (h : Marked text low t) (he : t.ended = false)
include h he

theorem ordered_tagOpen : Ordered text low (t.tagOpen c) := by
  cases c with
  | none => exact ((h.here.report _).emitChar _).ordered_emitEnd
  | some c =>
    simp only [tagOpen]
    split_ifs
    · exact (h.switchTo _).ordered
    · exact (h.switchTo _).ordered
    · exact ((h.begin _).reconsumeIn _).ordered
    · exact (((h.report _).begin _).reconsumeIn _).ordered
    · exact (((h.here.report _).emitChar _).reconsumeIn _).ordered he rfl rfl

omit he in
theorem ordered_endTagOpen : Ordered text low (t.endTagOpen c) := by
  cases c with
  | none => exact (((h.here.report _).emitChar _).emitChar _).ordered_emitEnd
  | some c =>
    simp only [endTagOpen]
    split_ifs
    · exact ((h.begin _).reconsumeIn _).ordered
    · exact ((h.report _).switchTo _).ordered
    · exact (((h.report _).begin _).reconsumeIn _).ordered

theorem ordered_textLessThanSign (kind : RawText) :
    Ordered text low (t.textLessThanSign kind c) := by
  unfold textLessThanSign
  split_ifs
  · exact ((h.buffer _).switchTo _).ordered
  · exact (((h.here.switchTo _).emitChar _).emitChar _).ordered_of_plain he rfl rfl
  · exact (((h.here.buffer _).emitChar _).reconsumeIn _).ordered he rfl rfl
  · exact ((h.here.emitChar _).reconsumeIn _).ordered he rfl rfl

theorem ordered_textEndTagOpen (kind : RawText) : Ordered text low (t.textEndTagOpen kind c) := by
  unfold textEndTagOpen
  split_ifs
  · exact ((h.begin _).reconsumeIn _).ordered
  · exact (((h.here.emitChar _).emitChar _).reconsumeIn _).ordered he rfl rfl

theorem ordered_abandonEndTag (kind : RawText) : Ordered text low (t.abandonEndTag kind) := by
  have hemit := ((h.here.emitChar '<').emitChar '/').emitChars t.buffer
  exact (Here.reconsumeIn (t := { ((t.emitChar '<').emitChar '/').emitChars t.buffer with
    current := none }) hemit _).ordered (by rw [emitChars_eq]; exact he) rfl rfl

theorem ordered_textEndTagName (kind : RawText) : Ordered text low (t.textEndTagName kind c) := by
  cases c with
  | none => exact ordered_abandonEndTag h he kind
  | some c =>
    simp only [textEndTagName]
    split_ifs
    · exact (h.switchTo _).ordered
    · exact (h.switchTo _).ordered
    · exact h.finish.ordered
    · exact ((h.editTag _).buffer _).ordered
    · exact ordered_abandonEndTag h he kind

end Opening

/-- The characters of the opening are read only after the one before them has been pushed back. -/
theorem ordered_markupDeclarationOpen (h : Marked text low t) :
    Ordered text low t.markupDeclarationOpen := by
  unfold markupDeclarationOpen
  extract_lets t₁ t₂
  have h₁ : Marked text low t₁ := h.pushBack
  have h₂ : Marked text low t₂ := h₁.skip _
  split_ifs
  · exact (((h₁.skip _).begin _).switchTo _).ordered
  · exact ((h₁.skip _).switchTo _).ordered
  · exact (h₂.switchTo _).ordered
  · exact (((h₂.report _).begin _).switchTo _).ordered
  · exact (((h₁.report _).begin _).switchTo _).ordered

/-! ### Markup -/

@[grind ←]
theorem Marked.ordered_emitEnd (h : Marked text low t) : Ordered text low t.emitEnd :=
  h.here.ordered_emitEnd

section Markup

variable (h : Marked text low t)
include h

@[grind ←]
theorem Marked.endInTag : Ordered text low t.endInTag :=
  Here.ordered_emitEnd (t := { t.report .eofInTag with current := none, duplicate := false })
    (h.report _).here

theorem ordered_tagName : Ordered text low (t.tagName c) := by
  cases c <;> grind [tagName]

theorem ordered_beforeAttributeName : Ordered text low (t.beforeAttributeName c) := by
  cases c <;> grind [beforeAttributeName]

theorem ordered_attributeName : Ordered text low (t.attributeName c) := by
  cases c <;> grind [attributeName]

theorem ordered_afterAttributeName : Ordered text low (t.afterAttributeName c) := by
  cases c <;> grind [afterAttributeName]

theorem ordered_beforeAttributeValue : Ordered text low (t.beforeAttributeValue c) := by
  cases c <;> grind [beforeAttributeValue]

theorem ordered_attributeValueQuoted (quote : Quote) :
    Ordered text low (t.attributeValueQuoted quote c) := by
  cases c <;> grind [attributeValueQuoted]

theorem ordered_attributeValueUnquoted : Ordered text low (t.attributeValueUnquoted c) := by
  cases c <;> grind [attributeValueUnquoted]

theorem ordered_afterAttributeValueQuoted :
    Ordered text low (t.afterAttributeValueQuoted c) := by
  cases c <;> grind [afterAttributeValueQuoted]

theorem ordered_selfClosingStartTag : Ordered text low (t.selfClosingStartTag c) := by
  cases c <;> grind [selfClosingStartTag]

theorem ordered_bogusComment : Ordered text low (t.bogusComment c) := by
  cases c <;> grind [bogusComment]

@[grind ←]
theorem Marked.endInComment : Ordered text low t.endInComment :=
  (h.report _).emitCurrent.ordered_emitEnd

theorem ordered_commentStart : Ordered text low (t.commentStart c) := by
  grind [commentStart]

theorem ordered_commentStartDash : Ordered text low (t.commentStartDash c) := by
  cases c <;> grind [commentStartDash]

theorem ordered_comment : Ordered text low (t.comment c) := by
  cases c <;> grind [Tokenizer.comment]

theorem ordered_commentLessThanSign : Ordered text low (t.commentLessThanSign c) := by
  grind [commentLessThanSign]

theorem ordered_commentLessThanSignBang : Ordered text low (t.commentLessThanSignBang c) := by
  grind [commentLessThanSignBang]

theorem ordered_commentLessThanSignBangDash :
    Ordered text low (t.commentLessThanSignBangDash c) := by
  grind [commentLessThanSignBangDash]

theorem ordered_commentLessThanSignBangDashDash :
    Ordered text low (t.commentLessThanSignBangDashDash c) := by
  grind [commentLessThanSignBangDashDash]

theorem ordered_commentEndDash : Ordered text low (t.commentEndDash c) := by
  cases c <;> grind [commentEndDash]

theorem ordered_commentEnd : Ordered text low (t.commentEnd c) := by
  cases c <;> grind [commentEnd]

theorem ordered_commentEndBang : Ordered text low (t.commentEndBang c) := by
  cases c <;> grind [commentEndBang]

@[grind ←]
theorem Marked.endInDoctype : Ordered text low t.endInDoctype :=
  ((h.report _).editDoctype _).emitCurrent.ordered_emitEnd

@[grind ←]
theorem Marked.missingIdentifier (which : Identifier) :
    Marked text low (t.missingIdentifier which) := ((h.report _).editDoctype _).finish

@[grind ←]
theorem Marked.missingQuote (which : Identifier) : Marked text low (t.missingQuote which) :=
  ((h.report _).editDoctype _).reconsumeIn _

@[grind ←]
theorem Marked.beginIdentifier (which : Identifier) (quote : Quote) :
    Marked text low (t.beginIdentifier which quote) := (h.editDoctype _).switchTo _

@[grind ←]
theorem Marked.beginDoctype (x : Char) : Marked text low (t.beginDoctype x) := h

theorem ordered_doctype : Ordered text low (t.doctype c) := by
  cases c <;> grind [Tokenizer.doctype]

theorem ordered_beforeDoctypeName : Ordered text low (t.beforeDoctypeName c) := by
  cases c <;> grind [beforeDoctypeName]

theorem ordered_doctypeName : Ordered text low (t.doctypeName c) := by
  cases c <;> grind [doctypeName]

theorem ordered_afterDoctypeName : Ordered text low (t.afterDoctypeName c) := by
  cases c with
  | none => exact h.endInDoctype
  | some c =>
    simp only [afterDoctypeName]
    have hback := h.pushBack
    split_ifs
    · exact h.ordered
    · exact h.finish.ordered
    · exact ((hback.skip _).switchTo _).ordered
    · exact ((hback.skip _).switchTo _).ordered
    · exact (((hback.report _).editDoctype _).switchTo _).ordered

theorem ordered_afterDoctypeKeyword (which : Identifier) :
    Ordered text low (t.afterDoctypeKeyword which c) := by
  cases which <;> cases c <;> grind [afterDoctypeKeyword]

theorem ordered_beforeDoctypeIdentifier (which : Identifier) :
    Ordered text low (t.beforeDoctypeIdentifier which c) := by
  cases c <;> grind [beforeDoctypeIdentifier]

theorem ordered_doctypeIdentifier (which : Identifier) (quote : Quote) :
    Ordered text low (t.doctypeIdentifier which quote c) := by
  cases which <;> cases c <;> grind [doctypeIdentifier]

theorem ordered_afterPublicIdentifier : Ordered text low (t.afterPublicIdentifier c) := by
  cases c <;> grind [afterPublicIdentifier]

theorem ordered_betweenDoctypeIdentifiers : Ordered text low (t.betweenDoctypeIdentifiers c) := by
  cases c <;> grind [betweenDoctypeIdentifiers]

theorem ordered_afterSystemIdentifier : Ordered text low (t.afterSystemIdentifier c) := by
  cases c <;> grind [afterSystemIdentifier]

theorem ordered_bogusDoctype : Ordered text low (t.bogusDoctype c) := by
  cases c <;> grind [bogusDoctype]

end Markup

/-! ### Character references -/

/-- A reference in an attribute value is part of a tag; one in text may still be text
as it stands. -/
structure Referring (text : List Char) (low : Nat) (t : Tokenizer) : Prop where
  host : ∀ s, t.returnState = some s → s.isHost = true
  ended : t.ended = false
  marked : t.inAttribute = true → Marked text low t
  held : t.inAttribute = false → Held text low t

/-- Characters of a reference may have been delivered. -/
structure Referred (text : List Char) (low : Nat) (t : Tokenizer) : Prop where
  host : ∀ s, t.returnState = some s → s.isHost = true
  ended : t.ended = false
  marked : t.inAttribute = true → Marked text low t
  here : t.inAttribute = false → Here text low t

theorem Referring.referred (h : Referring text low t) : Referred text low t :=
  ⟨h.host, h.ended, h.marked, fun ha => (h.held ha).here⟩

theorem Referring.report (h : Referring text low t) (kind : ErrorKind) :
    Referring text low (t.report kind) :=
  ⟨h.host, h.ended, fun ha => (h.marked ha).report kind, fun ha => (h.held ha).report kind⟩

theorem Referring.buffer (h : Referring text low t) (buffer : List Char) :
    Referring text low { t with buffer } := ⟨h.host, h.ended, h.marked, h.held⟩

theorem Referring.code (h : Referring text low t) (code : Nat) :
    Referring text low { t with code } := ⟨h.host, h.ended, h.marked, h.held⟩

theorem Referring.switchTo (h : Referring text low t) (s : State) :
    Referring text low (t.switchTo s) := ⟨h.host, h.ended, h.marked, h.held⟩

theorem Referring.pushBack (h : Referring text low t) :
    Referred text low { t with input := t.input.pushBack } :=
  ⟨h.host, h.ended, fun ha => (h.marked ha).pushBack, fun ha => (h.held ha).back⟩

theorem Referred.report (h : Referred text low t) (kind : ErrorKind) :
    Referred text low (t.report kind) :=
  ⟨h.host, h.ended, fun ha => (h.marked ha).report kind, fun ha => (h.here ha).report kind⟩

theorem Referred.buffer (h : Referred text low t) (buffer : List Char) :
    Referred text low { t with buffer } := ⟨h.host, h.ended, h.marked, h.here⟩

theorem Referred.switchTo (h : Referred text low t) (s : State) :
    Referred text low (t.switchTo s) := ⟨h.host, h.ended, h.marked, h.here⟩

theorem Referred.skip (h : Referred text low t) (target : List Char) :
    Referred text low { t with input := t.input.skip target } :=
  ⟨h.host, h.ended, fun ha => (h.marked ha).skip target, fun ha => (h.here ha).skip target⟩

theorem Referred.deliver (h : Referred text low t) (cs : List Char) :
    Referred text low (t.deliver cs) := by
  unfold Tokenizer.deliver
  split
  · next ha =>
    have htrail : ∀ t', t'.trail = t.trail → t'.gauge = t.gauge → Referred text low t' :=
      fun t' htrail hgauge => by
        have hreturn : t'.returnState = t.returnState := congrArg Gauge.returnState hgauge
        have hattr : t'.inAttribute = true := by rw [inAttribute, hreturn]; exact ha
        refine ⟨hreturn ▸ h.host, (congrArg Gauge.ended hgauge).trans h.ended,
          fun _ => (h.marked ha).congr htrail, fun hn => ?_⟩
        rw [hattr] at hn
        cases hn
    refine htrail _ ?_ ?_
    · exact List.foldlRecOn cs _ (motive := fun t' : Tokenizer => t'.trail = t.trail) rfl
        fun t' ht' _ _ => (trail_editTag t' _).trans ht'
    · exact List.foldlRecOn cs _ (motive := fun t' : Tokenizer => t'.gauge = t.gauge) rfl
        fun t' ht' _ _ => (gauge_editTag t' _).trans ht'
  · next ha =>
    have hemit := (h.here (Bool.eq_false_iff.2 ha)).emitChars cs
    rw [emitChars_eq] at hemit ⊢
    exact ⟨h.host, h.ended, fun hattr => absurd hattr ha, fun _ => hemit⟩

theorem Referred.flush (h : Referred text low t) : Referred text low t.flush := h.deliver _

theorem Referred.resolve (h : Referred text low t) (cs : List Char) :
    Referred text low (t.resolve cs) := (h.buffer cs).flush

/-- The reference goes on. -/
theorem Referred.ordered (h : Referred text low t) (hz : t.state.zone? = none) :
    Ordered text low t := by
  cases ha : t.inAttribute with
  | true => exact (h.marked ha).ordered
  | false =>
    refine (h.here ha).ordered (Or.inr ?_)
    rw [marks, hz]
    exact ha

theorem Referring.ordered (h : Referring text low t) (hz : t.state.zone? = none) :
    Ordered text low t := h.referred.ordered hz

/-- A reference that is no part of an attribute value goes back to text. -/
theorem isPlain_of_not_inAttribute (hh : ∀ s, t.returnState = some s → s.isHost = true)
    (ha : t.inAttribute = false) : (t.returnState.getD .data).isPlain = true := by
  obtain hr | hr | ⟨kind, hr⟩ := returnState_cases hh (by simp [ha])
  all_goals
    rw [hr]
    rfl

theorem Referred.switchToReturn (h : Referred text low t) :
    Ordered text low t.switchToReturn := by
  cases ha : t.inAttribute with
  | true => exact Marked.ordered (t := t.switchToReturn) (h.marked ha)
  | false =>
    exact Here.ordered_of_plain (t := t.switchToReturn) (h.here ha) h.ended rfl
      (isPlain_of_not_inAttribute h.host ha)

theorem Referred.reconsumeInReturn (h : Referred text low t) :
    Ordered text low t.reconsumeInReturn := by
  cases ha : t.inAttribute with
  | true => exact Marked.ordered (t := t.reconsumeInReturn) (h.marked ha).pushBack
  | false =>
    exact Next.ordered (t := t.reconsumeInReturn) ((h.here ha).reconsumeIn .data) h.ended rfl
      (isPlain_of_not_inAttribute h.host ha)

theorem Referring.reconsumeIn (h : Referring text low t) {s : State} (hs : s.zone? = none) :
    Ordered text low (t.reconsumeIn s) := (h.pushBack.switchTo s).ordered hs

section Reference

variable (h : Referring text low t)
include h

theorem ordered_characterReference : Ordered text low (t.characterReference c) := by
  unfold characterReference
  dsimp only
  split_ifs
  · exact (h.buffer _).reconsumeIn rfl
  · exact ((h.buffer ['&', '#']).switchTo .numericCharacterReference).ordered rfl
  · exact (h.buffer _).referred.flush.reconsumeInReturn

theorem ordered_namedCharacterReference : Ordered text low t.namedCharacterReference := by
  unfold namedCharacterReference
  dsimp only
  split
  · exact (h.pushBack.flush.switchTo _).ordered rfl
  · next entry _ =>
    have hskip := (h.pushBack.skip entry.name).buffer (t.buffer ++ entry.name)
    split_ifs
    · exact (hskip.resolve _).switchToReturn
    · exact hskip.flush.switchToReturn
    · exact ((hskip.report _).resolve _).switchToReturn

theorem ordered_ambiguousAmpersand (hs : t.state = .ambiguousAmpersand) :
    Ordered text low (t.ambiguousAmpersand c) := by
  cases c with
  | none => exact h.referred.reconsumeInReturn
  | some c =>
    simp only [ambiguousAmpersand]
    split_ifs
    · exact (h.referred.deliver _).ordered (by rw [state_deliver, hs]; rfl)
    · exact (h.referred.report _).reconsumeInReturn
    · exact h.referred.reconsumeInReturn

theorem ordered_numericCharacterReference : Ordered text low (t.numericCharacterReference c) := by
  unfold numericCharacterReference
  dsimp only
  split
  · exact (((h.code 0).buffer (t.buffer ++ ['x'])).switchTo
      (.numericReferenceStart .hexadecimal)).ordered rfl
  · exact (((h.code 0).buffer (t.buffer ++ ['X'])).switchTo
      (.numericReferenceStart .hexadecimal)).ordered rfl
  · exact (h.code 0).reconsumeIn rfl

theorem ordered_numericReferenceStart (radix : Radix) :
    Ordered text low (t.numericReferenceStart radix c) := by
  unfold numericReferenceStart
  split_ifs
  · exact h.reconsumeIn rfl
  · exact (h.referred.report _).flush.reconsumeInReturn

theorem ordered_numericReferenceDigits (radix : Radix)
    (hs : t.state = .numericReferenceDigits radix) :
    Ordered text low (t.numericReferenceDigits radix c) := by
  unfold numericReferenceDigits
  split
  · exact (h.code _).ordered
      (by rw [show ({ t with code := _ } : Tokenizer).state = _ from hs]; rfl)
  · split_ifs
    · exact (h.switchTo _).ordered rfl
    · exact (h.report _).reconsumeIn rfl

theorem ordered_numericReferenceEnd : Ordered text low t.numericReferenceEnd := by
  unfold numericReferenceEnd
  dsimp only
  split
  · exact ((h.pushBack.report _).resolve _).switchToReturn
  · exact (h.pushBack.resolve _).switchToReturn

end Reference

/-! ## 3. One step -/

/-- Reading a character reports it, if at all, where it is. -/
theorem Trail.Tracks.consume (h : t.trail.Tracks text) : t.consume.trail.Tracks text := by
  have hadvance : Trail.Tracks text { t.trail with input := t.input.advance } :=
    ⟨h.input.advance, h.start, h.queue, h.errors⟩
  obtain ⟨errors, heq, rfl | ⟨kind, rfl⟩⟩ := consume_eq_advance t
  · rw [heq]
    exact hadvance
  · rw [heq]
    exact hadvance.report kind

theorem Next.consume (h : Next text low t) : Here text low t.consume := by
  refine ⟨h.1.consume, ?_⟩
  obtain ⟨errors, heq, -⟩ := consume_eq_advance t
  rw [heq]
  exact h.2

theorem Here.consume (h : Here text low t) : Held text low t.consume := by
  refine ⟨h.1.consume, ?_⟩
  obtain ⟨errors, heq, -⟩ := consume_eq_advance t
  rw [heq]
  show Rising t.input.advance.pushBack.position.offset low t.pending
  rw [Cursor.pushBack_advance_position]
  exact h.2

theorem Opened.consume (h : Opened text low t) : Marked text low t.consume := by
  have htracks := h.1.consume
  obtain ⟨errors, heq, -⟩ := consume_eq_advance t
  rw [heq] at htracks ⊢
  refine ⟨htracks, h.2.1, ?_⟩
  show t.tokenStart.offset ≤ t.input.advance.pushBack.position.offset
  rw [Cursor.pushBack_advance_position]
  exact h.2.2

theorem Ordered.here (h : Ordered text low t) (he : t.ended = true) : Here text low t := by
  unfold Ordered at h
  rwa [if_pos he] at h

theorem Ordered.tracks (h : Ordered text low t) : t.trail.Tracks text := by
  unfold Ordered at h
  split_ifs at h
  · exact h.1
  · exact h.1
  · exact h.1
  · exact h.1

section Step

variable (h : Ordered text low t) (he : t.ended = false)
include h he

theorem Ordered.opened (hm : t.marks = true) : Opened text low t := by
  unfold Ordered at h
  rwa [he, if_neg Bool.false_ne_true, if_pos hm] at h

theorem Ordered.next {s : State} (hs : t.state = s) (hp : s.isPlain = true) :
    Next text low t := by
  obtain ⟨z, hzone, hm⟩ := marks_of_isPlain hs hp
  unfold Ordered at h
  rw [he, hm, hs, hzone] at h
  simpa using h

theorem Ordered.referring (hh : ∀ s, t.returnState = some s → s.isHost = true)
    (hs : t.state.zone? = none) : Referring text low t.consume := by
  have hmarks : t.marks = t.inAttribute := by rw [marks, hs]
  have hmarked : t.inAttribute = true → Marked text low t.consume := fun ha =>
    (h.opened he (hmarks.trans ha)).consume
  have hheld : t.inAttribute = false → Held text low t.consume := fun ha => by
    unfold Ordered at h
    rw [he, hmarks, hs, ha] at h
    exact Here.consume (by simpa using h)
  obtain ⟨errors, heq, -⟩ := consume_eq_advance t
  rw [heq] at hmarked hheld ⊢
  exact ⟨hh, he, hmarked, hheld⟩

/-- What has been finished reaches no further after a step than that step allows. -/
theorem Ordered.step (ht : FitsZone t) : Ordered text low t.step := by
  -- in the text of the input the next token starts here, in a construct where its mark is, and in a
  -- reference where its host says
  have hplain : ∀ {s : State}, t.consume.state = s → t.state = s → s.isPlain = true →
      Here text low t.consume := fun _ hs hp => (h.next he hs hp).consume
  have hmarked : ∀ {s : State} {z : Zone}, t.state = s → s.zone? = some z →
      (s.isOpening || !z.isText) = true → Marked text low t.consume := fun hs hz hm =>
    (h.opened he (by rwa [marks, hs, hz])).consume
  have hrefer := h.referring he ht.returnState
  have hended : t.consume.ended = false := by
    obtain ⟨errors, heq, -⟩ := consume_eq_advance t
    rw [heq]
    exact he
  have hstate : t.consume.state = t.state := by
    obtain ⟨errors, heq, -⟩ := consume_eq_advance t
    rw [heq]
  unfold Tokenizer.step handle
  split <;> rename_i hs <;> have hs' := hstate.symm.trans hs
  · exact ordered_data (hplain hs hs' rfl) hended hs
  · exact ordered_rawCharacter (hplain hs hs' rfl) hended hs rfl
  · exact ordered_text (hplain hs hs' rfl) hended _ hs
  · exact ordered_textLessThanSign (hmarked hs' rfl rfl) hended _
  · exact ordered_textEndTagOpen (hmarked hs' rfl rfl) hended _
  · exact ordered_textEndTagName (hmarked hs' rfl rfl) hended _
  · exact ordered_tagOpen (hmarked hs' rfl rfl) hended
  · exact ordered_endTagOpen (hmarked hs' rfl rfl)
  · exact ordered_tagName (hmarked hs' rfl rfl)
  · exact ordered_scriptDataEscapeStart (hplain hs hs' rfl) hended
  · exact ordered_scriptDataEscapeStartDash (hplain hs hs' rfl) hended
  · exact ordered_scriptDataEscapedDash (hplain hs hs' rfl) hended
  · exact ordered_scriptDataEscapedDashDash (hplain hs hs' rfl) hended hs
  · exact ordered_doubleEscapeBoundary (hplain hs hs' rfl) hended hs rfl rfl rfl
  · exact ordered_scriptDataDoubleEscaped (hplain hs hs' rfl) hended
  · exact ordered_scriptDataDoubleEscapedDash (hplain hs hs' rfl) hended
  · exact ordered_scriptDataDoubleEscapedDashDash (hplain hs hs' rfl) hended hs
  · exact ordered_scriptDataDoubleEscapedLessThanSign (hplain hs hs' rfl) hended
  · exact ordered_doubleEscapeBoundary (hplain hs hs' rfl) hended hs rfl rfl rfl
  · exact ordered_beforeAttributeName (hmarked hs' rfl rfl)
  · exact ordered_attributeName (hmarked hs' rfl rfl)
  · exact ordered_afterAttributeName (hmarked hs' rfl rfl)
  · exact ordered_beforeAttributeValue (hmarked hs' rfl rfl)
  · exact ordered_attributeValueQuoted (hmarked hs' rfl rfl) _
  · exact ordered_attributeValueUnquoted (hmarked hs' rfl rfl)
  · exact ordered_afterAttributeValueQuoted (hmarked hs' rfl rfl)
  · exact ordered_selfClosingStartTag (hmarked hs' rfl rfl)
  · exact ordered_bogusComment (hmarked hs' rfl rfl)
  · exact ordered_markupDeclarationOpen (hmarked hs' rfl rfl)
  · exact ordered_commentStart (hmarked hs' rfl rfl)
  · exact ordered_commentStartDash (hmarked hs' rfl rfl)
  · exact ordered_comment (hmarked hs' rfl rfl)
  · exact ordered_commentLessThanSign (hmarked hs' rfl rfl)
  · exact ordered_commentLessThanSignBang (hmarked hs' rfl rfl)
  · exact ordered_commentLessThanSignBangDash (hmarked hs' rfl rfl)
  · exact ordered_commentLessThanSignBangDashDash (hmarked hs' rfl rfl)
  · exact ordered_commentEndDash (hmarked hs' rfl rfl)
  · exact ordered_commentEnd (hmarked hs' rfl rfl)
  · exact ordered_commentEndBang (hmarked hs' rfl rfl)
  · exact ordered_doctype (hmarked hs' rfl rfl)
  · exact ordered_beforeDoctypeName (hmarked hs' rfl rfl)
  · exact ordered_doctypeName (hmarked hs' rfl rfl)
  · exact ordered_afterDoctypeName (hmarked hs' rfl rfl)
  · exact ordered_afterDoctypeKeyword (hmarked hs' rfl rfl) _
  · exact ordered_beforeDoctypeIdentifier (hmarked hs' rfl rfl) _
  · exact ordered_doctypeIdentifier (hmarked hs' rfl rfl) _ _
  · exact ordered_afterPublicIdentifier (hmarked hs' rfl rfl)
  · exact ordered_afterSystemIdentifier (hmarked hs' rfl rfl)
  · exact ordered_betweenDoctypeIdentifiers (hmarked hs' rfl rfl)
  · exact ordered_bogusDoctype (hmarked hs' rfl rfl)
  · exact ordered_cdataSection (hplain hs hs' rfl) hended hs
  · exact ordered_cdataSectionBracket (hplain hs hs' rfl) hended
  · exact ordered_cdataSectionEnd (hplain hs hs' rfl) hended hs
  · exact ordered_characterReference (hrefer (by rw [hs']; rfl))
  · exact ordered_namedCharacterReference (hrefer (by rw [hs']; rfl))
  · exact ordered_ambiguousAmpersand (hrefer (by rw [hs']; rfl)) hs
  · exact ordered_numericCharacterReference (hrefer (by rw [hs']; rfl))
  · exact ordered_numericReferenceStart (hrefer (by rw [hs']; rfl)) _
  · exact ordered_numericReferenceDigits (hrefer (by rw [hs']; rfl)) _ hs
  · exact ordered_numericReferenceEnd (hrefer (by rw [hs']; rfl))

end Step

/-! ## 4. Token after token -/

theorem Ordered.pop {p : PositionedToken} {rest : List PositionedToken}
    (h : Ordered text low t) (hp : t.pending = p :: rest) :
    low ≤ p.position.offset ∧ Ordered text p.position.offset { t with pending := rest } := by
  have hqueue : ∀ {high : Nat}, Rising high low t.pending →
      low ≤ p.position.offset ∧ Rising high p.position.offset rest := fun hr => by rwa [hp] at hr
  have htracks : t.trail.Tracks text →
      Trail.Tracks text ({ t with pending := rest } : Tokenizer).trail :=
    fun g => ⟨g.input, g.start, fun q hq => g.queue q (by
      rw [show t.trail.queue = _ from hp]; exact List.mem_cons_of_mem p hq), g.errors⟩
  unfold Ordered at *
  have hmarks : ({ t with pending := rest } : Tokenizer).marks = t.marks := rfl
  rw [hmarks]
  split_ifs at h ⊢
  · exact ⟨(hqueue h.2).1, htracks h.1, (hqueue h.2).2⟩
  · exact ⟨(hqueue h.2.1).1, htracks h.1, (hqueue h.2.1).2, h.2.2⟩
  · exact ⟨(hqueue h.2).1, htracks h.1, (hqueue h.2).2⟩
  · exact ⟨(hqueue h.2).1, htracks h.1, (hqueue h.2).2⟩

/-- A token is not placed before what was finished earlier. -/
theorem Ordered.pulls {p : PositionedToken} {t' : Tokenizer} (hpulls : Pulls t p t')
    (ht : Between t ∨ Midway t) (h : Ordered text low t) :
    low ≤ p.position.offset ∧ p.position.On text ∧
      Ordered text p.position.offset t' := by
  induction hpulls with
  | @queued t p rest hp =>
    have hon := h.tracks.queue p (by rw [show t.trail.queue = _ from hp]; exact List.mem_cons_self)
    obtain ⟨hlow, hrest⟩ := h.pop hp
    exact ⟨hlow, hon, hrest⟩
  | @ended t hp he =>
    have hhere := h.here he
    have hlow : low ≤ t.input.position.offset := by
      have hr := hhere.2
      rwa [hp] at hr
    refine ⟨hlow, hhere.1.here, Here.ordered ⟨hhere.1, ?_⟩ (Or.inl he)⟩
    rw [hp]
    exact Nat.le_refl _
  | step hp he _ ih =>
    have hmid := ht.elim (fun hb => hb.midway hp he) id
    exact ih hmid.step (h.step he hmid.fitsZone)

theorem Ordered.nextToken (h : Ordered text low t) (ht : Between t)
    (foreign : Bool) :
    low ≤ (t.nextToken foreign).1.position.offset ∧ (t.nextToken foreign).1.position.On text ∧
      Ordered text (t.nextToken foreign).1.position.offset (t.nextToken foreign).2 :=
  Ordered.pulls (ht.pulls_nextToken foreign) (Or.inl (ht.setForeign foreign)) h

theorem tracks_ofString (html : String) :
    (ofString html).trail.Tracks (normalizeNewlines html.toList) :=
  ⟨Cursor.walks_ofString html, Position.on_start _, nofun, nofun⟩

theorem rising_start (high : Nat) : Rising high 0 [] := Nat.zero_le _

theorem ordered_plain (html : String) {s : State} (hs : s.isPlain = true)
    (last : Option String) :
    Ordered (normalizeNewlines html.toList) 0
      (((ofString html).switchTo s).setLastStartTag last) := by
  refine Next.ordered ?_ rfl rfl hs
  exact ⟨tracks_ofString html, rising_start _⟩

theorem Ordered.after (h : Ordered text low t) (ht : Between t)
    (answers : Nat → Bool) (n : Nat) : ∃ low, Ordered text low (t.after answers n) := by
  induction n with
  | zero => exact ⟨low, h⟩
  | succ n ih =>
    obtain ⟨low, hn⟩ := ih
    exact ⟨_, (hn.nextToken (ht.after answers n) (answers n)).2.2⟩

end Hypertext.Tokenizer
