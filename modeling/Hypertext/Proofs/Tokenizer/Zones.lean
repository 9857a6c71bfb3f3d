import Hypertext.Tokenizer.Reference

/-!
# Where a tokenizer is

The states fall into zones by what can be under construction in them. Between two tokens a tokenizer
that reads raw text can finish nothing but characters and the one end tag that fits; the zones say
how it is kept to that, through partial end tags, their attributes and character references.
-/

namespace Hypertext

/-- A token without its details: its kind, and the name of a tag. -/
def Token.outline : Token → Token
  | .doctype _ => .doctype {}
  | .startTag tag => .startTag { name := tag.name }
  | .endTag tag => .endTag { name := tag.name }
  | .comment _ => .comment ""
  | token => token

theorem Token.outline_edit {token token' : Token} {e : Edit} (h : token.edit e = .ok token')
    (he : ∀ c, e ≠ .tag (.name c)) : token'.outline = token.outline := by
  unfold Token.edit at h
  split at h
  · cases h
    rfl
  · next tag e =>
    cases h
    cases e <;> first | rfl | exact absurd rfl (he _)
  · next tag e =>
    cases h
    cases e <;> first | rfl | exact absurd rfl (he _)
  · cases h
    rfl
  · cases h

namespace Tokenizer

/-! ## 1. Zones -/

/-- What the characters that are read belong to. -/
inductive Zone where
  | content
  | rawText
  | rawEndTag
  | tagName
  | attributes
  | comment
  | doctype
deriving DecidableEq

/-- The zone of a state; a character reference has none of its own. -/
def State.zone? : State → Option Zone
  | .data | .plaintext | .tagOpen | .endTagOpen | .markupDeclarationOpen | .cdataSection
  | .cdataSectionBracket | .cdataSectionEnd => some .content
  | .text _ | .textLessThanSign _ | .textEndTagOpen _ | .scriptDataEscapeStart
  | .scriptDataEscapeStartDash | .scriptDataEscapedDash | .scriptDataEscapedDashDash
  | .scriptDataDoubleEscapeStart | .scriptDataDoubleEscaped | .scriptDataDoubleEscapedDash
  | .scriptDataDoubleEscapedDashDash | .scriptDataDoubleEscapedLessThanSign
  | .scriptDataDoubleEscapeEnd => some .rawText
  | .textEndTagName _ => some .rawEndTag
  | .tagName => some .tagName
  | .beforeAttributeName | .attributeName | .afterAttributeName | .beforeAttributeValue
  | .attributeValueQuoted _ | .attributeValueUnquoted | .afterAttributeValueQuoted
  | .selfClosingStartTag => some .attributes
  | .bogusComment | .commentStart | .commentStartDash | .comment | .commentLessThanSign
  | .commentLessThanSignBang | .commentLessThanSignBangDash | .commentLessThanSignBangDashDash
  | .commentEndDash | .commentEnd | .commentEndBang => some .comment
  | .doctype | .beforeDoctypeName | .doctypeName | .afterDoctypeName | .afterDoctypeKeyword _
  | .beforeDoctypeIdentifier _ | .doctypeIdentifier _ _ | .afterDoctypeIdentifier _
  | .betweenDoctypeIdentifiers | .bogusDoctype => some .doctype
  | .characterReference | .namedCharacterReference | .ambiguousAmpersand
  | .numericCharacterReference | .numericReferenceStart _ | .numericReferenceDigits _
  | .numericReferenceEnd => none

/-- The zone of the current state, or of the state that a character reference goes back to. -/
def zone (t : Tokenizer) : Zone :=
  t.state.zone?.getD ((t.returnState.bind State.zone?).getD .content)

/-- Whether a token may be under construction in a zone. -/
def Zone.admits : Zone → Token → Bool
  | .rawEndTag, .endTag _ => true
  | .tagName, .startTag _ | .tagName, .endTag _ => true
  | .attributes, .startTag _ | .attributes, .endTag _ => true
  | .comment, .comment _ => true
  | .doctype, .doctype _ => true
  | _, _ => false

/-- Whether characters are delivered as they are read; no token is under construction then. -/
def Zone.isText : Zone → Bool
  | .content | .rawText => true
  | _ => false

/-- Whether a character reference can begin in a state. -/
def State.isHost : State → Bool
  | .data | .text .rcdata | .attributeValueQuoted _ | .attributeValueUnquoted => true
  | _ => false

/-- What is under construction fits the zone and every edit has fitted it, an attribute is repeated
only among attributes, and a reference goes back to where one can begin. -/
structure FitsZone (t : Tokenizer) : Prop where
  current : ∀ token, t.current = some token → t.zone.admits token = true
  returnState : ∀ s, t.returnState = some s → s.isHost = true
  duplicate : t.duplicate = true → t.zone = .attributes
  fault : t.fault = none

/-- No tag can be finished but the end tag of this name, if it is that of the last start tag. -/
def Confined (name : String) (t : Tokenizer) : Prop :=
  match t.zone with
  | .rawText | .rawEndTag => True
  | .attributes => t.current.map Token.outline = some (.endTag { name })
  | _ => False

/-- The attributes of a tag are being read. -/
structure InTag (t : Tokenizer) : Prop where
  zone : t.zone = .attributes
  current : t.current ≠ none

/-- On the way from `t` to `t'`, which is in the zone `z`, nothing but characters has
been finished. -/
structure Reads (t : Tokenizer) (z : Zone) (t' : Tokenizer) : Prop extends FitsZone t' where
  zone : t'.zone = z
  last : t'.lastStartTag = t.lastStartTag
  ended : t'.ended = t.ended
  chars : ∀ p ∈ t'.pending, ∃ c, p.token = .character c
  quiet : t'.pending ≠ [] → z.isText = true
  confined : ∀ name, t.lastStartTag = some name → Confined name t → Confined name t'
  inTag : InTag t → InTag t'

/-- What one step can do, if no token was waiting: go on reading, come to the end of the input, or
finish the token under construction. -/
inductive Stepped (t t' : Tokenizer) : Prop where
  | reads (z : Zone) (h : Reads t z t')
  | ends (fitsZone : FitsZone t') (ended : t'.ended = true)
      (last : t'.lastStartTag = t.lastStartTag)
    (untagged : ∀ p ∈ t'.pending, p.token.tagName? = none)
    (pending : ∃ waiting position, t'.pending = waiting ++ [⟨.endOfFile, position⟩] ∧
      ∀ p ∈ waiting, p.token ≠ .endOfFile)
    (confined : ∀ name, t.lastStartTag = some name → Confined name t →
      ∀ p ∈ t'.pending, (∃ c, p.token = .character c) ∨ p.token = .endOfFile)
    (inTag : InTag t → ∀ p ∈ t'.pending, p.token = .endOfFile)
  | finishes (p : PositionedToken) (fitsZone : FitsZone t') (state : t'.state = .data)
    (current : t'.current = none) (pending : t'.pending = [p]) (ended : t'.ended = t.ended)
    (token : p.token ≠ .endOfFile)
    (start : ∀ tag, p.token = .startTag tag → t'.lastStartTag = some tag.name)
    (confined : ∀ name, t.lastStartTag = some name → Confined name t →
      ∃ tag, p.token = .endTag tag ∧ tag.name = name)
    (mark : ∀ c, p.token ≠ .character c)

/-! ## 2. What an edit leaves alone -/

variable {t t₁ t₂ : Tokenizer} {z z' : Zone} {s : State} {name : String}

theorem Zone.admits_outline (z : Zone) (token : Token) :
    z.admits token.outline = z.admits token := by
  cases z <;> cases token <;> rfl

theorem Zone.admits_edit {token token' : Token} {e : Edit} (h : token.edit e = .ok token')
    (z : Zone) : z.admits token' = z.admits token := by
  unfold Token.edit at h
  split at h <;> cases h <;> cases z <;> rfl

/-- The zones in which an edit is made. -/
def Zone.fits : Zone → Edit → Bool
  | .rawEndTag, .tag _ | .tagName, .tag _ | .attributes, .tag _ => true
  | .comment, .comment _ => true
  | .doctype, .doctype _ => true
  | _, _ => false

/-- An edit that fits the zone fits whatever may be under construction there. -/
theorem Zone.exists_edit {token : Token} {e : Edit} (ha : z.admits token = true)
    (he : z.fits e = true) : ∃ token', token.edit e = .ok token' := by
  cases z <;> cases e <;> cases he <;> cases token <;> first | exact ⟨_, rfl⟩ | cases ha

/-- An edit that fits changes the token under construction, if there is one, and nothing else. -/
theorem edit_eq {e : Edit} (ha : ∀ token, t.current = some token → z.admits token = true)
    (he : z.fits e = true) :
    ∃ current, t.edit e = { t with current } ∧
      (∀ z : Zone, current.map z.admits = t.current.map z.admits) ∧
      ((∀ c, e ≠ .tag (.name c)) → current.map Token.outline = t.current.map Token.outline) := by
  unfold edit
  split
  · next hc => exact ⟨none, by rw [← hc], by rw [hc]; simp, by rw [hc]; simp⟩
  · next token hc =>
    obtain ⟨token', htoken⟩ := Zone.exists_edit (ha token hc) he
    rw [htoken]
    refine ⟨some token', rfl, fun z => ?_, fun hn => ?_⟩
    · rw [hc, Option.map_some, Option.map_some, Zone.admits_edit htoken]
    · rw [hc, Option.map_some, Option.map_some, Token.outline_edit htoken hn]

theorem pending_edit (t : Tokenizer) (e : Edit) : (t.edit e).pending = t.pending := by
  unfold edit
  split
  · rfl
  · split <;> rfl

theorem admits_of_map_eq (hz : t₂.zone = t₁.zone)
    (ha : ∀ z : Zone, t₂.current.map z.admits = t₁.current.map z.admits) (h : FitsZone t₁) :
    ∀ token, t₂.current = some token → t₂.zone.admits token = true := by
  intro token ht
  have hmap := ha t₂.zone
  rw [ht, Option.map_some] at hmap
  obtain ⟨token', ht', hadmits⟩ := Option.map_eq_some_iff.1 hmap.symm
  rw [← hadmits, hz]
  exact h.current token' ht'

theorem InTag.congr (h : InTag t₁) (hz : t₂.zone = t₁.zone)
    (ha : ∀ z : Zone, t₂.current.map z.admits = t₁.current.map z.admits) : InTag t₂ := by
  refine ⟨hz.trans h.zone, fun hnone => h.current ?_⟩
  have hmap := ha .content
  rw [hnone, Option.map_none] at hmap
  exact Option.map_eq_none_iff.1 hmap.symm

theorem confined_congr (hz : t₂.zone = t₁.zone)
    (hc : t₁.zone = .attributes → t₂.current.map Token.outline = t₁.current.map Token.outline)
    (h : Confined name t₁) : Confined name t₂ := by
  unfold Confined at *
  rw [hz]
  split at h
  · trivial
  · trivial
  · next heq => rw [hc heq, h]
  · exact h.elim

/-! ## 3. Moves within a zone -/

theorem zone_of_state (hs : t.state = s) (hz : s.zone? = some z) : t.zone = z := by
  rw [zone, hs, hz]
  rfl

theorem zone_switchTo (hs : s.zone? = some z) : (t.switchTo s).zone = z := zone_of_state rfl hs

/-- A move that keeps zone, kind of token and queue. -/
theorem Reads.keep (h : Reads t z t₁) (hz : t₂.zone = t₁.zone)
    (ha : ∀ z : Zone, t₂.current.map z.admits = t₁.current.map z.admits)
    (hc : z = .attributes → t₂.current.map Token.outline = t₁.current.map Token.outline)
    (hr : ∀ s, t₂.returnState = some s → s.isHost = true)
    (hd : t₂.duplicate = true → t₁.duplicate = true) (hf : t₂.fault = t₁.fault)
    (hl : t₂.lastStartTag = t₁.lastStartTag) (he : t₂.ended = t₁.ended)
    (hp : t₂.pending = t₁.pending) : Reads t z t₂ := by
  refine ⟨⟨admits_of_map_eq hz ha h.toFitsZone, hr, fun hdup => hz.trans (h.duplicate (hd hdup)),
    hf.trans h.fault⟩, hz.trans h.zone, hl.trans h.last, he.trans h.ended, hp ▸ h.chars,
    hp ▸ h.quiet, fun name hn hcon => ?_, fun ht => (h.inTag ht).congr hz ha⟩
  exact confined_congr hz (fun hz => hc (h.zone ▸ hz)) (h.confined name hn hcon)

theorem Reads.congr (h : Reads t z t₁) (hs : t₂.state = t₁.state)
    (hr : t₂.returnState = t₁.returnState) (hc : t₂.current = t₁.current)
    (hd : t₂.duplicate = true → t₁.duplicate = true) (hf : t₂.fault = t₁.fault)
    (hl : t₂.lastStartTag = t₁.lastStartTag) (he : t₂.ended = t₁.ended)
    (hp : t₂.pending = t₁.pending) : Reads t z t₂ :=
  h.keep (by rw [Tokenizer.zone, Tokenizer.zone, hs, hr]) (fun _ => by rw [hc])
    (fun _ => by rw [hc]) (hr ▸ h.returnState) hd hf hl he hp

theorem Reads.report (h : Reads t z t₁) (kind : ErrorKind) : Reads t z (t₁.report kind) :=
  h.congr rfl rfl rfl id rfl rfl rfl rfl

theorem Reads.input (h : Reads t z t₁) (input : Cursor) : Reads t z { t₁ with input } :=
  h.congr rfl rfl rfl id rfl rfl rfl rfl

theorem Reads.buffer (h : Reads t z t₁) (buffer : List Char) : Reads t z { t₁ with buffer } :=
  h.congr rfl rfl rfl id rfl rfl rfl rfl

theorem Reads.code (h : Reads t z t₁) (code : Nat) : Reads t z { t₁ with code } :=
  h.congr rfl rfl rfl id rfl rfl rfl rfl

theorem Reads.markStart (h : Reads t z t₁) : Reads t z t₁.markStart :=
  h.congr rfl rfl rfl id rfl rfl rfl rfl

theorem Reads.switchTo (h : Reads t z t₁) (hs : s.zone? = some z) : Reads t z (t₁.switchTo s) :=
  h.keep ((zone_switchTo hs).trans h.zone.symm) (fun _ => rfl) (fun _ => rfl) h.returnState id rfl
    rfl rfl rfl

theorem Reads.reconsumeIn (h : Reads t z t₁) (hs : s.zone? = some z) :
    Reads t z (t₁.reconsumeIn s) := (h.input _).switchTo hs

theorem Reads.emitChar (h : Reads t z t₁) (hz : z.isText = true) (c : Char) :
    Reads t z (t₁.emitChar c) := by
  refine ⟨⟨h.current, h.returnState, h.duplicate, h.fault⟩, h.zone, h.last, h.ended, fun p hp => ?_,
    fun _ => hz, fun name hn hc => ?_, fun ht => ⟨(h.inTag ht).zone, (h.inTag ht).current⟩⟩
  · obtain hp | hp := List.mem_append.1 hp
    · exact h.chars p hp
    · exact ⟨c, by rw [List.mem_singleton.1 hp]⟩
  · exact confined_congr rfl (fun _ => rfl) (h.confined name hn hc)

theorem Reads.emitChars (h : Reads t z t₁) (hz : z.isText = true) (cs : List Char) :
    Reads t z (t₁.emitChars cs) := by
  induction cs generalizing t₁ with
  | nil => exact h
  | cons c cs ih => exact ih (h.emitChar hz c)

/-- An edit is made where it fits; the name of a tag changes only where it is still being read. -/
theorem Reads.edit (h : Reads t z t₁) {e : Edit} (hz : z.fits e = true)
    (he : z = .attributes → ∀ c, e ≠ .tag (.name c)) : Reads t z (t₁.edit e) := by
  obtain ⟨current, heq, ha, hc⟩ := edit_eq (fun token ht => h.zone ▸ h.current token ht) hz
  rw [heq]
  exact h.keep rfl ha (fun hz => hc (he hz)) h.returnState id rfl rfl rfl rfl

theorem Reads.editComment (h : Reads t .comment t₁) (e : CommentEdit) :
    Reads t .comment (t₁.editComment e) :=
  h.edit rfl fun hz => by cases hz

/-! ## 4. Attributes -/

theorem Reads.editTag (h : Reads t .attributes t₁) {e : TagEdit} (he : ∀ c, e ≠ .name c) :
    Reads t .attributes (t₁.editTag e) := by
  refine h.edit rfl fun _ c hn => ?_
  cases hn
  exact he c rfl

theorem Reads.editName (h : Reads t z t₁) (hz : z = .tagName ∨ z = .rawEndTag) (c : Char) :
    Reads t z (t₁.editTag (.name c)) := by
  obtain rfl | rfl := hz
  · exact h.edit rfl fun hz => by cases hz
  · exact h.edit rfl fun hz => by cases hz

theorem Reads.dropDuplicate (h : Reads t .attributes t₁) :
    Reads t .attributes t₁.dropDuplicate := by
  unfold Tokenizer.dropDuplicate
  split
  · have h' : Reads t .attributes { t₁ with duplicate := false } :=
      h.congr rfl rfl rfl (fun hd => by cases hd) rfl rfl rfl rfl
    exact h'.editTag (by simp)
  · exact h

theorem Reads.newAttribute (h : Reads t .attributes t₁) : Reads t .attributes t₁.newAttribute :=
  h.dropDuplicate.editTag (by simp)

theorem Reads.checkDuplicate (h : Reads t .attributes t₁) :
    Reads t .attributes t₁.checkDuplicate := by
  unfold Tokenizer.checkDuplicate
  split
  · split
    · exact ⟨⟨h.current, h.returnState, fun _ => h.zone, h.fault⟩, h.zone, h.last, h.ended, h.chars,
        h.quiet, h.confined, fun ht => ⟨(h.inTag ht).zone, (h.inTag ht).current⟩⟩
    · exact h
  · exact h

/-! ## 5. Character references -/

theorem zone_of_reference (hs : t.state.zone? = none) :
    t.zone = (t.returnState.bind State.zone?).getD .content := by
  rw [zone, hs]
  rfl

theorem Reads.enterReference (h : Reads t z t₁) (hs : s.zone? = some z) (hh : s.isHost = true) :
    Reads t z (t₁.enterReference s) := by
  refine h.keep (Eq.trans ?_ h.zone.symm) (fun _ => rfl) (fun _ => rfl) ?_ id rfl rfl rfl rfl
  · rw [zone_of_reference rfl]
    change (s.zone?).getD .content = z
    rw [hs]
    rfl
  · rintro _ ⟨⟩
    exact hh

theorem Reads.appendValue (h : Reads t .attributes t₁) (cs : List Char) :
    Reads t .attributes (cs.foldl (fun t c => t.editTag (.attributeValue c)) t₁) := by
  induction cs generalizing t₁ with
  | nil => exact h
  | cons c cs ih => exact ih (h.editTag (by simp))

theorem State.exists_zone?_of_isHost (hs : s.isHost = true) : ∃ z, s.zone? = some z := by
  cases s with
  | data => exact ⟨_, rfl⟩
  | text kind => exact ⟨_, rfl⟩
  | attributeValueQuoted quote => exact ⟨_, rfl⟩
  | attributeValueUnquoted => exact ⟨_, rfl⟩
  | _ => cases hs

theorem state_edit (t : Tokenizer) (e : Edit) : (t.edit e).state = t.state := by
  unfold edit
  split
  · rfl
  · split <;> rfl

theorem state_deliver (t : Tokenizer) (cs : List Char) : (t.deliver cs).state = t.state := by
  unfold Tokenizer.deliver Tokenizer.emitChars
  split
  · exact List.foldlRecOn cs _ (motive := fun t' : Tokenizer => t'.state = t.state) rfl
      fun t' ht' _ _ => (state_edit t' _).trans ht'
  · exact List.foldlRecOn cs _ (motive := fun t' : Tokenizer => t'.state = t.state) rfl
      fun t' ht' _ _ => ht'

/-- In the middle of a character reference. -/
structure Refers (t : Tokenizer) (z : Zone) (t' : Tokenizer) : Prop extends Reads t z t' where
  state : t'.state.zone? = none

theorem Refers.report (h : Refers t z t₁) (kind : ErrorKind) : Refers t z (t₁.report kind) :=
  ⟨h.toReads.report kind, h.state⟩

theorem Refers.input (h : Refers t z t₁) (input : Cursor) : Refers t z { t₁ with input } :=
  ⟨h.toReads.input input, h.state⟩

theorem Refers.buffer (h : Refers t z t₁) (buffer : List Char) : Refers t z { t₁ with buffer } :=
  ⟨h.toReads.buffer buffer, h.state⟩

theorem Refers.code (h : Refers t z t₁) (code : Nat) : Refers t z { t₁ with code } :=
  ⟨h.toReads.code code, h.state⟩

/-- A reference that is no part of an attribute value is one in text. -/
theorem returnState_cases (hh : ∀ s, t.returnState = some s → s.isHost = true)
    (ha : ¬ t.inAttribute = true) : t.returnState = none ∨ t.returnState = some .data ∨
    ∃ kind, t.returnState = some (.text kind) := by
  cases hr : t.returnState with
  | none => exact Or.inl rfl
  | some s =>
    have hs := hh s hr
    cases s with
    | data => exact Or.inr (Or.inl rfl)
    | text kind => exact Or.inr (Or.inr ⟨kind, rfl⟩)
    | attributeValueQuoted quote => simp [inAttribute, hr] at ha
    | attributeValueUnquoted => simp [inAttribute, hr] at ha
    | _ => cases hs

theorem returnState_of_inAttribute (ha : t.inAttribute = true) :
    (∃ quote, t.returnState = some (.attributeValueQuoted quote)) ∨
      t.returnState = some .attributeValueUnquoted := by
  unfold inAttribute at ha
  split at ha
  · next quote hr => exact Or.inl ⟨quote, hr⟩
  · next hr => exact Or.inr hr
  · cases ha

theorem Refers.zone_of_inAttribute (h : Refers t z t₁) (ha : t₁.inAttribute = true) :
    z = .attributes := by
  rw [← h.zone, zone_of_reference h.state]
  obtain ⟨quote, hr⟩ | hr := returnState_of_inAttribute ha
  all_goals
    rw [hr]
    rfl

theorem Refers.isText_of_not_inAttribute (h : Refers t z t₁) (ha : ¬ t₁.inAttribute = true) :
    z.isText = true := by
  rw [← h.zone, zone_of_reference h.state]
  obtain hr | hr | ⟨kind, hr⟩ := returnState_cases h.returnState ha
  all_goals
    rw [hr]
    rfl

theorem Refers.deliver (h : Refers t z t₁) (cs : List Char) : Refers t z (t₁.deliver cs) := by
  refine ⟨?_, by rw [state_deliver]; exact h.state⟩
  unfold Tokenizer.deliver
  split
  · next ha =>
    obtain rfl := h.zone_of_inAttribute ha
    exact h.toReads.appendValue cs
  · next ha => exact h.toReads.emitChars (h.isText_of_not_inAttribute ha) cs

theorem Refers.flush (h : Refers t z t₁) : Refers t z t₁.flush := h.deliver _

theorem Refers.resolve (h : Refers t z t₁) (cs : List Char) : Refers t z (t₁.resolve cs) :=
  (h.buffer cs).flush

/-- One state of a reference leads to another. -/
theorem Refers.switchTo (h : Refers t z t₁) (hs : s.zone? = none) : Refers t z (t₁.switchTo s) :=
  ⟨h.keep ((zone_of_reference hs).trans (zone_of_reference h.state).symm) (fun _ => rfl)
    (fun _ => rfl) h.returnState id rfl rfl rfl rfl, hs⟩

theorem Refers.reconsumeIn (h : Refers t z t₁) (hs : s.zone? = none) :
    Refers t z (t₁.reconsumeIn s) := (h.input _).switchTo hs

theorem Refers.switchToReturn (h : Refers t z t₁) : Reads t z t₁.switchToReturn := by
  refine h.keep ?_ (fun _ => rfl) (fun _ => rfl) (fun s hs => by cases hs) id rfl rfl rfl rfl
  rw [zone_of_reference h.state]
  cases hr : t₁.returnState with
  | none => exact zone_of_state (by rw [Tokenizer.switchToReturn, hr]) rfl
  | some s =>
    obtain ⟨z', hz'⟩ := State.exists_zone?_of_isHost (h.returnState s hr)
    rw [zone_of_state (by rw [Tokenizer.switchToReturn, hr]; rfl) hz', Option.bind_some, hz']
    rfl

theorem Refers.reconsumeInReturn (h : Refers t z t₁) : Reads t z t₁.reconsumeInReturn :=
  (h.input _).switchToReturn

/-! ## 6. From one zone to another -/

/-- Whether a tag other than an end tag of raw text may be met. -/
def Zone.isFree : Zone → Bool
  | .rawText | .rawEndTag | .attributes => false
  | _ => true

theorem not_confined (hz : t.zone.isFree = true) : ¬ Confined name t := by
  unfold Confined
  intro h
  split at h
  · next heq => rw [heq] at hz; cases hz
  · next heq => rw [heq] at hz; cases hz
  · next heq => rw [heq] at hz; cases hz
  · exact h

theorem Reads.not_confined (h : Reads t z t₁) (hz : z.isFree = true)
    (hl : t.lastStartTag = some name) : ¬ Confined name t := fun hc =>
  Tokenizer.not_confined (h.zone.symm ▸ hz) (h.confined name hl hc)

/-- Outside text no character waits. -/
theorem Reads.pending_eq_nil (h : Reads t z t₁) (hz : z.isText = false) : t₁.pending = [] := by
  cases hp : t₁.pending with
  | nil => rfl
  | cons p waiting =>
    rw [h.quiet (by rw [hp]; simp)] at hz
    cases hz

/-- From one zone to another, if what is under construction fits there and no character waits that
was read on the way to it. -/
theorem Reads.move (h : Reads t z t₁) (hz : z ≠ .attributes) (hs : s.zone? = some z')
    (hp : t₁.pending = [] ∨ z'.isText = true) {current : Option Token}
    (hc : ∀ token, current = some token → z'.admits token = true)
    (hcon : ∀ name, t.lastStartTag = some name → Confined name t →
      Confined name { t₁ with current, state := s }) :
    Reads t z' { t₁ with current, state := s } := by
  have hz' : { t₁ with current, state := s }.zone = z' := zone_of_state rfl hs
  refine ⟨⟨fun token ht => ?_, h.returnState, fun hd => ?_, h.fault⟩, hz', h.last, h.ended, h.chars,
    hp.resolve_left, hcon, fun ht => absurd (h.zone.symm.trans (h.inTag ht).zone) hz⟩
  · rw [hz']
    exact hc token ht
  · exact absurd (h.zone.symm.trans (h.duplicate hd)) hz

/-- From a zone where tags are free any other can be entered. -/
theorem Reads.leave (h : Reads t z t₁) (hz : z.isFree = true) (hs : s.zone? = some z')
    (hp : t₁.pending = []) {current : Option Token}
    (hc : ∀ token, current = some token → z'.admits token = true) :
    Reads t z' { t₁ with current, state := s } := by
  refine h.move ?_ hs (Or.inl hp) hc fun name hl hcon => absurd hcon (h.not_confined hz hl)
  rintro rfl
  cases hz

theorem Reads.current_eq_none (h : Reads t z t₁) (hz : ∀ token, z.admits token = false) :
    t₁.current = none := by
  cases hc : t₁.current with
  | none => rfl
  | some token =>
    have ha := h.current token hc
    rw [h.zone, hz] at ha
    cases ha

theorem Zone.admits_content (token : Token) : Zone.content.admits token = false := by
  cases token <;> rfl

theorem Reads.enter (h : Reads t .content t₁) (hp : t₁.pending = []) (hs : s.zone? = some z) :
    Reads t z (t₁.switchTo s) := by
  have hc := h.current_eq_none Zone.admits_content
  refine h.leave rfl hs hp fun token ht => ?_
  rw [hc] at ht
  cases ht

theorem Reads.begin {token : Token} (h : Reads t .content t₁) (hp : t₁.pending = [])
    (ha : z.admits token = true) (hs : s.zone? = some z) :
    Reads t z ((t₁.begin token).switchTo s) := by
  refine h.leave rfl hs hp ?_
  rintro _ ⟨⟩
  exact ha

/-- The name of a tag is complete. -/
theorem Reads.closeName (h : Reads t .tagName t₁) (hs : s.zone? = some .attributes) :
    Reads t .attributes (t₁.switchTo s) := by
  refine h.leave rfl hs (h.pending_eq_nil rfl) fun token ht => ?_
  have ha := h.current token ht
  rw [h.zone] at ha
  cases token <;> first | rfl | cases ha

/-! ## 7. End tags in raw text -/

theorem confined_rawText (hs : t.state.zone? = some .rawText) : Confined name t := by
  rw [Confined, zone_of_state rfl hs]
  trivial

theorem confined_rawEndTag (hs : t.state.zone? = some .rawEndTag) : Confined name t := by
  rw [Confined, zone_of_state rfl hs]
  trivial

theorem Reads.beginEndTag (h : Reads t .rawText t₁) (hp : t₁.pending = [])
    (hs : s.zone? = some .rawEndTag) :
    Reads t .rawEndTag ((t₁.begin (.endTag {})).switchTo s) := by
  refine h.move (by decide) hs (Or.inl hp) ?_ fun _ _ _ => confined_rawEndTag hs
  rintro _ ⟨⟩
  rfl

/-- What looked like an end tag is text after all. -/
theorem Reads.dropEndTag (h : Reads t .rawEndTag t₁) (hs : s.zone? = some .rawText) :
    Reads t .rawText ({ t₁ with current := none }.switchTo s) :=
  h.move (by decide) hs (Or.inr rfl) (by simp) fun _ _ _ => confined_rawText hs

/-- An appropriate end tag has the name of the last start tag. -/
theorem outline_of_appropriate (ha : t.isAppropriateEndTag = true)
    (hl : t.lastStartTag = some name) :
    t.current.map Token.outline = some (.endTag { name }) := by
  unfold isAppropriateEndTag at ha
  split at ha
  · next last tag hl' hc =>
    rw [hl] at hl'
    cases hl'
    rw [hc, ← eq_of_beq ha]
    rfl
  · cases ha

theorem Reads.acceptEndTag (h : Reads t .rawEndTag t₁) (ha : t₁.isAppropriateEndTag = true)
    (hs : s.zone? = some .attributes) : Reads t .attributes (t₁.switchTo s) := by
  refine h.move (by decide) hs (Or.inl (h.pending_eq_nil rfl)) (fun token ht => ?_)
    fun name hl _ => ?_
  · have hadmits := h.current token ht
    rw [h.zone] at hadmits
    cases token <;> first | rfl | cases hadmits
  · rw [Confined, zone_of_state rfl hs]
    exact outline_of_appropriate ha (h.last.trans hl)

/-! ## 8. Finished tokens -/

/-- Only a tag carries a repeated attribute. -/
theorem FitsZone.tag_of_duplicate (h : FitsZone t) (hd : t.duplicate = true) {token : Token}
    (ht : t.current = some token) : Zone.attributes.admits token = true :=
  h.duplicate hd ▸ h.current token ht

theorem dropDuplicate_eq (hd : t.duplicate = true → ∀ token, t.current = some token →
      Zone.attributes.admits token = true) :
    ∃ current, t.dropDuplicate = { t with current, duplicate := false } ∧
      current.map Token.outline = t.current.map Token.outline := by
  unfold dropDuplicate
  split
  · next hdup =>
    obtain ⟨current, heq, -, hc⟩ := edit_eq (t := { t with duplicate := false })
      (e := .tag .dropAttribute) (hd hdup) rfl
    exact ⟨current, heq, hc (by simp)⟩
  · next hdup =>
    rw [Bool.not_eq_true] at hdup
    exact ⟨t.current, by rw [← hdup], rfl⟩

/-- What is put in the queue is what was under construction, up to attributes and flags. -/
theorem emitCurrent_eq (hd : t.duplicate = true → ∀ token, t.current = some token →
      Zone.attributes.admits token = true) :
    ∃ errors, (t.current = none ∧ t.emitCurrent = { t with errors, duplicate := false }) ∨
    ∃ p : PositionedToken, t.current.map Token.outline = some p.token.outline ∧
      ∃ last, (∀ tag, p.token = .startTag tag → last = some tag.name) ∧
        ((∀ tag, p.token ≠ .startTag tag) → last = t.lastStartTag) ∧
        t.emitCurrent = { t with
          current := none, lastStartTag := last, pending := t.pending ++ [p], errors,
          duplicate := false } := by
  obtain ⟨current, heq, hc⟩ := dropDuplicate_eq hd
  unfold emitCurrent
  rw [heq]
  cases current with
  | none =>
    have hn : t.current = none := by
      rw [Option.map_none] at hc
      exact Option.map_eq_none_iff.1 hc.symm
    exact ⟨t.errors, Or.inl ⟨hn, by rw [hn]⟩⟩
  | some token =>
    cases token with
    | startTag tag =>
      refine ⟨t.errors, Or.inr ⟨⟨.startTag tag, t.tokenStart⟩, hc.symm, some tag.name, ?_,
        fun hn => absurd rfl (hn tag), rfl⟩⟩
      rintro _ ⟨⟩
      rfl
    | endTag tag =>
      -- an end tag loses its attributes and its flag, and each of the two is an error
      by_cases ha : tag.attributes.isEmpty = true <;> by_cases hs : tag.selfClosing = true
      all_goals
        simp only [ha, hs, if_true, if_false, Bool.false_eq_true]
        exact ⟨_, Or.inr ⟨⟨.endTag { name := tag.name }, t.tokenStart⟩, hc.symm, t.lastStartTag,
          by simp, fun _ => rfl, rfl⟩⟩
    | _ => exact ⟨t.errors, Or.inr ⟨⟨_, t.tokenStart⟩, hc.symm, t.lastStartTag, (by simp),
        fun _ => rfl, rfl⟩⟩

/-- What is under construction is of a kind that fits the zone. -/
theorem Reads.admits (h : Reads t z t₁) {token : Token}
    (hc : t₁.current.map Token.outline = some token.outline) : z.admits token = true := by
  obtain ⟨token', ht, ho⟩ := Option.map_eq_some_iff.1 hc
  have ha := h.current token' ht
  rwa [h.zone, ← Zone.admits_outline, ho, Zone.admits_outline] at ha

/-- What may be under construction is not the end of the input. -/
theorem Reads.ne_endOfFile (h : Reads t z t₁) {token : Token}
    (hc : t₁.current.map Token.outline = some token.outline) : token ≠ .endOfFile := by
  rintro rfl
  cases z <;> cases h.admits hc

/-- Nor is it a character. -/
theorem Reads.ne_character (h : Reads t z t₁) {token : Token}
    (hc : t₁.current.map Token.outline = some token.outline) (c : Char) : token ≠ .character c := by
  rintro rfl
  cases z <;> cases h.admits hc

/-- The token under construction is finished; in raw text it is the end tag that fits. -/
theorem Reads.finish_of (h : Reads t z t₁) (hp : t₁.pending = [])
    (hend : ∀ name, t.lastStartTag = some name → Confined name t →
      t₁.current.map Token.outline = some (.endTag { name })) : Stepped t t₁.finish := by
  obtain ⟨errors, ⟨hc, heq⟩ | ⟨p, hc, last, hstart, -, heq⟩⟩ :=
    emitCurrent_eq (t := t₁.switchTo .data) fun hd token ht => h.tag_of_duplicate hd ht
  · have hnone : t₁.current = none := hc
    rw [finish, heq]
    refine .reads .content ⟨⟨fun token ht => ?_, h.returnState, fun hd => (by cases hd), h.fault⟩,
      rfl, h.last, h.ended, h.chars, fun _ => rfl, fun name hl hcon => ?_,
      fun ht => absurd hnone (h.inTag ht).current⟩
    · rw [show t₁.current = some token from ht] at hnone
      cases hnone
    · have hsome := hend name hl hcon
      rw [hnone] at hsome
      cases hsome
  · have hc : t₁.current.map Token.outline = some p.token.outline := hc
    rw [finish, heq]
    refine .finishes p ⟨by simp, h.returnState, fun hd => (by cases hd), h.fault⟩ rfl rfl ?_ h.ended
      (h.ne_endOfFile hc) hstart (fun name hl hcon => ?_) (h.ne_character hc)
    · change t₁.pending ++ [p] = [p]
      rw [hp, List.nil_append]
    · rw [hend name hl hcon] at hc
      obtain ⟨token, position⟩ := p
      cases token <;> cases hc
      exact ⟨_, rfl, rfl⟩

/-- Outside raw text, and in the attributes of an end tag, any token may be finished. -/
theorem Reads.finish (h : Reads t z t₁) (hp : t₁.pending = [])
    (hz : z ≠ .rawText ∧ z ≠ .rawEndTag) : Stepped t t₁.finish := by
  refine h.finish_of hp fun name hl hcon => ?_
  have hcon' := h.confined name hl hcon
  rw [Confined, h.zone] at hcon'
  cases z with
  | attributes => exact hcon'
  | rawText => exact absurd rfl hz.1
  | rawEndTag => exact absurd rfl hz.2
  | _ => exact hcon'.elim

theorem tagName?_of_char {p : PositionedToken} (h : ∃ c, p.token = .character c) :
    p.token.tagName? = none := by
  obtain ⟨c, hc⟩ := h
  rw [hc]
  rfl

theorem ne_endOfFile_of_char {p : PositionedToken} (h : ∃ c, p.token = .character c) :
    p.token ≠ .endOfFile := by
  obtain ⟨c, hc⟩ := h
  rw [hc]
  simp

theorem Reads.emitEnd (h : Reads t z t₁) : Stepped t t₁.emitEnd := by
  have hmem : ∀ p ∈ t₁.emitEnd.pending,
      (∃ c, p.token = .character c) ∨ p.token = .endOfFile := by
    intro p hp
    obtain hp | hp := List.mem_append.1 hp
    · exact Or.inl (h.chars p hp)
    · exact Or.inr (by rw [List.mem_singleton.1 hp])
  refine .ends ⟨h.current, h.returnState, h.duplicate, h.fault⟩ rfl h.last (fun p hp => ?_)
    ⟨t₁.pending, _, rfl, fun p hp => ne_endOfFile_of_char (h.chars p hp)⟩ (fun _ _ _ => hmem)
    fun ht p hp => ?_
  · obtain hc | hc := hmem p hp
    · exact tagName?_of_char hc
    · rw [hc]
      rfl
  · have hz : z = .attributes := h.zone.symm.trans (h.inTag ht).zone
    have hp : p ∈ t₁.pending ++ [⟨.endOfFile, t₁.input.position⟩] := hp
    rw [h.pending_eq_nil (hz ▸ rfl), List.nil_append, List.mem_singleton] at hp
    rw [hp]

/-- At the end of the input a comment or a document type is kept. -/
theorem Reads.emitLast (h : Reads t z t₁) (hz : z = .comment ∨ z = .doctype) :
    Stepped t t₁.emitCurrent.emitEnd := by
  obtain ⟨errors, ⟨-, heq⟩ | ⟨p, hc, last, -, hlast, heq⟩⟩ :=
    emitCurrent_eq fun hd token ht => h.tag_of_duplicate hd ht
  · rw [heq]
    have h' : Reads t z { t₁ with errors, duplicate := false } :=
      h.congr rfl rfl rfl (fun hd => by cases hd) rfl rfl rfl rfl
    exact h'.emitEnd
  · -- both are outside of raw text, where only one end tag could come
    have hfree : z.isFree = true := by
      obtain rfl | rfl := hz <;> rfl
    have hadmits := h.admits hc
    have hp : p.token.tagName? = none := by
      obtain ⟨token, position⟩ := p
      obtain rfl | rfl := hz <;> cases token <;> first | rfl | cases hadmits
    have hnot : ∀ tag, p.token ≠ .startTag tag := by
      intro tag htag
      rw [htag] at hp
      cases hp
    have hpending : ∀ q ∈ t₁.pending ++ [p], q.token.tagName? = none ∧ q.token ≠ .endOfFile := by
      intro q hq
      obtain hq | hq := List.mem_append.1 hq
      · exact ⟨tagName?_of_char (h.chars q hq), ne_endOfFile_of_char (h.chars q hq)⟩
      · rw [List.mem_singleton.1 hq]
        exact ⟨hp, h.ne_endOfFile hc⟩
    rw [heq]
    refine .ends ⟨fun _ ht => (by cases ht), h.returnState, fun hd => (by cases hd), h.fault⟩ rfl
      ((hlast hnot).trans h.last) (fun q hq => ?_)
      ⟨_, _, rfl, fun q hq => (hpending q hq).2⟩
      (fun name hl hcon => absurd hcon (h.not_confined hfree hl)) fun ht => ?_
    · obtain hq | hq := List.mem_append.1 hq
      · exact (hpending q hq).1
      · rw [List.mem_singleton.1 hq]
        rfl
    · rw [← h.zone, (h.inTag ht).zone] at hfree
      cases hfree

end Tokenizer

end Hypertext
