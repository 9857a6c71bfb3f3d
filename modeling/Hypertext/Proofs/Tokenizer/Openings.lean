import Hypertext.Proofs.Tokenizer.Places

/-!
# What comes of a `<`

From the `<` that opens it until it is finished, a token keeps the place of that `<`. On the way
nothing else is finished, and nothing before the `<` is read again. If the token is given up,
characters are delivered instead.
-/

namespace Hypertext

/-! ## 1. How far back a cursor can go -/

/-- Neither a cursor nor a push-back of it goes back beyond `ahead`. -/
structure Cursor.Within (ahead : List Char) (c : Cursor) : Prop where
  here : c.ahead <:+ ahead
  back : c.pushBack.ahead <:+ ahead

namespace Cursor

variable {ahead : List Char} {c : Cursor}

theorem within_advance (h : c.ahead <:+ ahead) : c.advance.Within ahead := by
  refine ⟨?_, ?_⟩
  · rw [ahead_advance]
    exact (List.tail_suffix _).trans h
  · rw [pushBack_advance_ahead]
    exact h

theorem Within.pushBack (h : c.Within ahead) : c.pushBack.Within ahead :=
  ⟨h.back, by rw [pushBack_pushBack]; exact h.back⟩

theorem Within.skip (h : c.Within ahead) (target : List Char) : (c.skip target).Within ahead := by
  induction target generalizing c with
  | nil => exact h
  | cons x target ih => exact ih (within_advance h.here)

end Cursor

namespace Tokenizer

variable {start : Position} {ahead : List Char} {t t' : Tokenizer} {c : Option Char}
  {p : PositionedToken}

/-! ## 2. A token under construction -/

/-- Nothing has been finished since the `<` at `start`, behind which the text `ahead` is. To put
back a character does not lead before that text. -/
structure Opening (start : Position) (ahead : List Char) (t : Tokenizer) : Prop where
  pending : t.pending = []
  ended : t.ended = false
  start : t.tokenStart = start
  within : t.input.Within ahead

/-- A token has been begun since the `<` at `start`. -/
structure Constructing (start : Position) (ahead : List Char) (t : Tokenizer) : Prop
    extends Opening start ahead t where
  current : t.current ≠ none

/-- What was opened at `start` has been finished, or given up for characters. Text is read next. -/
structure Concluded (start : Position) (ahead : List Char) (t : Tokenizer) : Prop where
  queue : ∃ p waiting, t.pending = p :: waiting ∧
    (p.token.isMarkup = true → p.position = start) ∧ ∀ q ∈ waiting, q.token.isMarkup = false
  state : t.ended = false → t.state.isPlain = true
  left : t.input.ahead <:+ ahead

/-- Whether a token is begun or given up in a state, without having been begun before. -/
def State.isUndecided : State → Bool
  | .textLessThanSign _ | .textEndTagOpen _ | .doctype | .beforeDoctypeName => true
  | _ => false

/-- What the rules make of a `<`. -/
inductive Proceeds (start : Position) (ahead : List Char) (t : Tokenizer) : Prop where
  | undecided (h : Opening start ahead t) (hs : t.state.isUndecided = true)
  | constructing (h : Constructing start ahead t)
  | concluded (h : Concluded start ahead t)

namespace Opening

variable (h : Opening start ahead t)
include h

theorem report (kind : ErrorKind) : Opening start ahead (t.report kind) :=
  ⟨h.pending, h.ended, h.start, h.within⟩

theorem switchTo (s : State) : Opening start ahead (t.switchTo s) :=
  ⟨h.pending, h.ended, h.start, h.within⟩

theorem buffer (buffer : List Char) : Opening start ahead { t with buffer } :=
  ⟨h.pending, h.ended, h.start, h.within⟩

theorem pushBack : Opening start ahead { t with input := t.input.pushBack } :=
  ⟨h.pending, h.ended, h.start, h.within.pushBack⟩

theorem skip (target : List Char) :
    Opening start ahead { t with input := t.input.skip target } :=
  ⟨h.pending, h.ended, h.start, h.within.skip target⟩

theorem reconsumeIn (s : State) : Opening start ahead (t.reconsumeIn s) := h.pushBack.switchTo s

theorem begin (token : Token) : Constructing start ahead (t.begin token) :=
  ⟨⟨h.pending, h.ended, h.start, h.within⟩, nofun⟩

theorem edit (e : Edit) : Opening start ahead (t.edit e) := by
  obtain ⟨hinput, hstart, hqueue, -⟩ := Trail.mk.inj (trail_edit t e)
  have hended : (t.edit e).ended = t.ended := congrArg Gauge.ended (gauge_edit t e)
  exact ⟨hqueue.trans h.pending, hended.trans h.ended, hstart.trans h.start, hinput ▸ h.within⟩

end Opening

namespace Constructing

variable (h : Constructing start ahead t)
include h

@[grind ←]
theorem report (kind : ErrorKind) : Constructing start ahead (t.report kind) :=
  ⟨h.toOpening.report kind, h.current⟩

@[grind ←]
theorem switchTo (s : State) : Constructing start ahead (t.switchTo s) :=
  ⟨h.toOpening.switchTo s, h.current⟩

@[grind ←]
theorem enterReference (s : State) : Constructing start ahead (t.enterReference s) :=
  ⟨⟨h.pending, h.ended, h.start, h.within⟩, h.current⟩

@[grind ←]
theorem buffer (buffer : List Char) : Constructing start ahead { t with buffer } :=
  ⟨h.toOpening.buffer buffer, h.current⟩

theorem code (code : Nat) : Constructing start ahead { t with code } :=
  ⟨⟨h.pending, h.ended, h.start, h.within⟩, h.current⟩

theorem pushBack : Constructing start ahead { t with input := t.input.pushBack } :=
  ⟨h.toOpening.pushBack, h.current⟩

theorem skip (target : List Char) :
    Constructing start ahead { t with input := t.input.skip target } :=
  ⟨h.toOpening.skip target, h.current⟩

@[grind ←]
theorem reconsumeIn (s : State) : Constructing start ahead (t.reconsumeIn s) :=
  h.pushBack.switchTo s

theorem switchToReturn : Constructing start ahead t.switchToReturn :=
  ⟨⟨h.pending, h.ended, h.start, h.within⟩, h.current⟩

theorem reconsumeInReturn : Constructing start ahead t.reconsumeInReturn :=
  h.pushBack.switchToReturn

@[grind ←]
theorem begin (token : Token) : Constructing start ahead (t.begin token) := h.toOpening.begin token

theorem edit (e : Edit) : Constructing start ahead (t.edit e) := by
  refine ⟨h.toOpening.edit e, fun hnone => ?_⟩
  have hbuilding : (t.edit e).current.isSome = t.current.isSome :=
    congrArg Gauge.building (gauge_edit t e)
  rw [hnone] at hbuilding
  exact h.current (Option.isNone_iff_eq_none.1 (by simpa using hbuilding.symm))

@[grind ←]
theorem editTag (e : TagEdit) : Constructing start ahead (t.editTag e) := h.edit _

@[grind ←]
theorem editComment (e : CommentEdit) : Constructing start ahead (t.editComment e) := h.edit _

@[grind ←]
theorem editDoctype (e : DoctypeEdit) : Constructing start ahead (t.editDoctype e) :=
  (h.begin _).edit _

theorem dropDuplicate : Constructing start ahead t.dropDuplicate := by
  unfold Tokenizer.dropDuplicate
  split
  · have hnone : Constructing start ahead { t with duplicate := false } :=
      ⟨⟨h.pending, h.ended, h.start, h.within⟩, h.current⟩
    exact hnone.editTag _
  · exact h

@[grind ←]
theorem newAttribute : Constructing start ahead t.newAttribute := h.dropDuplicate.editTag _

@[grind ←]
theorem checkDuplicate : Constructing start ahead t.checkDuplicate := by
  unfold Tokenizer.checkDuplicate
  split
  · split
    · exact ⟨⟨h.pending, h.ended, h.start, h.within⟩, h.current⟩
    · exact h
  · exact h

/-- What a reference stands for goes to the value in which it was found. -/
theorem deliver (ha : t.inAttribute = true) (cs : List Char) :
    Constructing start ahead (t.deliver cs) := by
  unfold Tokenizer.deliver
  rw [if_pos ha]
  exact List.foldlRecOn cs _ (motive := Constructing start ahead) h fun _ h _ _ => h.editTag _

theorem flush (ha : t.inAttribute = true) : Constructing start ahead t.flush := h.deliver ha _

theorem resolve (ha : t.inAttribute = true) (cs : List Char) :
    Constructing start ahead (t.resolve cs) := (h.buffer cs).flush ha

@[grind ←]
theorem proceeds : Proceeds start ahead t := .constructing h

end Constructing

/-! ## 3. The end of a token -/

/-- A finished token is placed where it was opened. -/
theorem Constructing.pending_emitCurrent (h : Constructing start ahead t) :
    ∃ token, t.emitCurrent.pending = [⟨token, start⟩] := by
  have hdrop := h.dropDuplicate
  unfold Tokenizer.emitCurrent
  generalize t.dropDuplicate = t' at hdrop
  have hqueue : ∀ token, t'.pending ++ [⟨token, t'.tokenStart⟩] = [⟨token, start⟩] :=
    fun token => by
    rw [hdrop.pending, hdrop.start, List.nil_append]
  cases hc : t'.current with
  | none => exact absurd hc hdrop.current
  | some token =>
    cases token with
    | endTag tag =>
      simp only [hc]
      split_ifs <;> exact ⟨_, hqueue _⟩
    | _ =>
      simp only [hc]
      exact ⟨_, hqueue _⟩

theorem concluded_of_pending {token : Token} (hp : t.pending = [⟨token, start⟩])
    (hs : t.ended = false → t.state.isPlain = true) (ha : t.input.ahead <:+ ahead) :
    Concluded start ahead t :=
  ⟨⟨_, [], hp, fun _ => rfl, nofun⟩, hs, ha⟩

@[grind ←]
theorem Constructing.finish (h : Constructing start ahead t) : Proceeds start ahead t.finish := by
  obtain ⟨token, hp⟩ := (h.switchTo .data).pending_emitCurrent
  have hgauge := gauge_finish t
  refine .concluded (concluded_of_pending hp (fun _ => ?_) ?_)
  · rw [show t.finish.state = .data from congrArg Gauge.state hgauge]
    rfl
  · rw [show t.finish.input.ahead = t.input.ahead from congrArg Gauge.ahead hgauge]
    exact h.within.here

/-- The input ends behind a finished token. -/
@[grind ←]
theorem Constructing.emitLast (h : Constructing start ahead t) :
    Proceeds start ahead t.emitCurrent.emitEnd := by
  obtain ⟨token, hp⟩ := h.pending_emitCurrent
  refine .concluded ⟨⟨⟨token, start⟩, [⟨.endOfFile, t.emitCurrent.input.position⟩], ?_,
    fun _ => rfl, ?_⟩, nofun, ?_⟩
  · show t.emitCurrent.pending ++ [_] = _
    rw [hp]
    rfl
  · intro q hq
    rw [List.mem_singleton.1 hq]
    rfl
  · rw [show t.emitCurrent.emitEnd.input.ahead = t.input.ahead from
      congrArg Gauge.ahead (gauge_emitCurrent t)]
    exact h.within.here

/-! ## 4. Characters instead of a token -/

/-- Nothing but characters and the end of the input waits. -/
structure Textual (ahead : List Char) (t : Tokenizer) : Prop where
  queue : ∀ q ∈ t.pending, q.token.isMarkup = false
  within : t.input.Within ahead

theorem Opening.textual (h : Opening start ahead t) : Textual ahead t := by
  refine ⟨?_, h.within⟩
  rw [h.pending]
  nofun

namespace Textual

variable (h : Textual ahead t)
include h

theorem report (kind : ErrorKind) : Textual ahead (t.report kind) := ⟨h.queue, h.within⟩

theorem switchTo (s : State) : Textual ahead (t.switchTo s) := ⟨h.queue, h.within⟩

theorem buffer (buffer : List Char) : Textual ahead { t with buffer } := ⟨h.queue, h.within⟩

theorem drop : Textual ahead { t with current := none, duplicate := false } := ⟨h.queue, h.within⟩

theorem reconsumeIn (s : State) : Textual ahead (t.reconsumeIn s) := ⟨h.queue, h.within.pushBack⟩

theorem enqueue {token : Token} (ht : token.isMarkup = false) (position : Position) :
    Textual ahead (t.enqueue token position) := by
  refine ⟨fun q hq => ?_, h.within⟩
  obtain hq | hq := List.mem_append.1 hq
  · exact h.queue q hq
  · rw [List.mem_singleton.1 hq]
    exact ht

theorem emitChar (c : Char) : Textual ahead (t.emitChar c) := h.enqueue rfl _

theorem emitChars (cs : List Char) : Textual ahead (t.emitChars cs) := by
  induction cs generalizing t with
  | nil => exact h
  | cons c cs ih => exact ih (h.emitChar c)

theorem emitEnd : Textual ahead t.emitEnd :=
  Textual.enqueue (t := { t with ended := true }) ⟨h.queue, h.within⟩ rfl _

/-- What was opened is text after all. -/
theorem concluded (hp : t.pending ≠ []) (hs : t.ended = false → t.state.isPlain = true) :
    Concluded start ahead t := by
  obtain ⟨p, waiting, hp⟩ := List.exists_cons_of_ne_nil hp
  have hq := h.queue
  rw [hp] at hq
  obtain ⟨hfirst, hwaiting⟩ := List.forall_mem_cons.1 hq
  refine ⟨⟨p, waiting, hp, fun hm => ?_, hwaiting⟩, hs, h.within.here⟩
  rw [hfirst] at hm
  cases hm

end Textual

theorem pending_enqueue_ne (t : Tokenizer) (token : Token) (position : Position) :
    (t.enqueue token position).pending ≠ [] := by
  simp [Tokenizer.enqueue]

theorem pending_emitChars_ne {cs : List Char} (h : t.pending ≠ []) :
    (t.emitChars cs).pending ≠ [] := by
  rw [emitChars_eq]
  exact fun hnil => h (List.append_eq_nil_iff.1 hnil).1

@[grind ←]
theorem Constructing.endInTag (h : Constructing start ahead t) : Proceeds start ahead t.endInTag :=
  .concluded ((h.textual.report _).drop.emitEnd.concluded (pending_enqueue_ne _ _ _) nofun)

theorem Constructing.abandonEndTag (h : Constructing start ahead t) (kind : RawText) :
    Proceeds start ahead (t.abandonEndTag kind) := by
  have htext := ((h.textual.emitChar '<').emitChar '/').emitChars t.buffer
  refine .concluded (Textual.concluded (t := t.abandonEndTag kind) ?_ ?_ fun _ => rfl)
  · exact ⟨htext.queue, htext.within.pushBack⟩
  · exact pending_emitChars_ne (pending_enqueue_ne _ _ _)

/-! ## 5. The rules for markup -/

section Rules

variable (h : Constructing start ahead t)
include h

@[grind ←]
theorem Constructing.endInComment : Proceeds start ahead t.endInComment := (h.report _).emitLast

@[grind ←]
theorem Constructing.endInDoctype : Proceeds start ahead t.endInDoctype :=
  ((h.report _).editDoctype _).emitLast

@[grind ←]
theorem Constructing.beginDoctype (x : Char) : Constructing start ahead (t.beginDoctype x) :=
  (h.begin _).switchTo _

@[grind ←]
theorem Constructing.beginIdentifier (which : Identifier) (quote : Quote) :
    Constructing start ahead (t.beginIdentifier which quote) := (h.editDoctype _).switchTo _

@[grind ←]
theorem Constructing.missingIdentifier (which : Identifier) :
    Proceeds start ahead (t.missingIdentifier which) := ((h.report _).editDoctype _).finish

@[grind ←]
theorem Constructing.missingQuote (which : Identifier) :
    Constructing start ahead (t.missingQuote which) := ((h.report _).editDoctype _).reconsumeIn _

theorem proceeds_textEndTagName (kind : RawText) :
    Proceeds start ahead (t.textEndTagName kind c) := by
  cases c with
  | none => exact h.abandonEndTag kind
  | some c =>
    simp only [textEndTagName]
    split_ifs
    · exact (h.switchTo _).proceeds
    · exact (h.switchTo _).proceeds
    · exact h.finish
    · exact ((h.editTag _).buffer _).proceeds
    · exact h.abandonEndTag kind

theorem proceeds_afterDoctypeName : Proceeds start ahead (t.afterDoctypeName c) := by
  cases c with
  | none => exact h.endInDoctype
  | some c =>
    simp only [afterDoctypeName]
    have hback := h.pushBack
    split_ifs
    · exact h.proceeds
    · exact h.finish
    · exact ((hback.skip _).switchTo _).proceeds
    · exact ((hback.skip _).switchTo _).proceeds
    · exact (((hback.report _).editDoctype _).switchTo _).proceeds

/-! ### References in attribute values -/

section Attribute

variable (ha : t.inAttribute = true)
include ha

theorem proceeds_characterReference : Proceeds start ahead (t.characterReference c) := by
  unfold characterReference
  dsimp only
  split_ifs
  · exact ((h.buffer _).reconsumeIn _).proceeds
  · exact ((h.buffer _).switchTo _).proceeds
  · exact ((h.buffer ['&']).flush ha).reconsumeInReturn.proceeds

theorem proceeds_namedCharacterReference : Proceeds start ahead t.namedCharacterReference := by
  unfold namedCharacterReference
  dsimp only
  split
  · exact ((h.pushBack.flush ha).switchTo _).proceeds
  · next entry _ =>
    have hskip := (h.pushBack.skip entry.name).buffer (t.buffer ++ entry.name)
    split_ifs
    · exact (hskip.resolve ha _).switchToReturn.proceeds
    · exact (hskip.flush ha).switchToReturn.proceeds
    · exact ((hskip.report _).resolve ha _).switchToReturn.proceeds

theorem proceeds_ambiguousAmpersand : Proceeds start ahead (t.ambiguousAmpersand c) := by
  cases c with
  | none => exact h.reconsumeInReturn.proceeds
  | some c =>
    simp only [ambiguousAmpersand]
    split_ifs
    · exact (h.deliver ha _).proceeds
    · exact (h.report _).reconsumeInReturn.proceeds
    · exact h.reconsumeInReturn.proceeds

theorem proceeds_numericReferenceStart (radix : Radix) :
    Proceeds start ahead (t.numericReferenceStart radix c) := by
  unfold numericReferenceStart
  split_ifs
  · exact (h.reconsumeIn _).proceeds
  · exact ((h.report _).flush ha).reconsumeInReturn.proceeds

theorem proceeds_numericReferenceEnd : Proceeds start ahead t.numericReferenceEnd := by
  unfold numericReferenceEnd
  dsimp only
  split
  · exact ((h.pushBack.report _).resolve ha _).switchToReturn.proceeds
  · exact (h.pushBack.resolve ha _).switchToReturn.proceeds

end Attribute

theorem proceeds_numericCharacterReference :
    Proceeds start ahead (t.numericCharacterReference c) := by
  unfold numericCharacterReference
  dsimp only
  split
  · exact (((h.code 0).buffer _).switchTo _).proceeds
  · exact (((h.code 0).buffer _).switchTo _).proceeds
  · exact ((h.code 0).reconsumeIn _).proceeds

theorem proceeds_numericReferenceDigits (radix : Radix) :
    Proceeds start ahead (t.numericReferenceDigits radix c) := by
  unfold numericReferenceDigits
  split
  · exact (h.code _).proceeds
  · split_ifs
    · exact (h.switchTo _).proceeds
    · exact ((h.report _).reconsumeIn _).proceeds

end Rules

/-! ## 6. One step -/

theorem Constructing.isText_zone (h : Constructing start ahead t) (ht : FitsZone t) :
    t.zone.isText = false := by
  obtain ⟨token, hc⟩ := Option.ne_none_iff_exists'.1 h.current
  have hadmits := ht.current token hc
  cases hz : t.zone with
  | content | rawText =>
    rw [hz] at hadmits
    cases token <;> cases hadmits
  | _ => rfl

/-- A reference that is found while a token is under construction is part of an attribute value. -/
theorem Constructing.inAttribute (h : Constructing start ahead t) (ht : FitsZone t)
    (hs : t.state.zone? = none) : t.inAttribute = true := by
  by_contra ha
  have hzone := h.isText_zone ht
  rw [zone_of_reference hs] at hzone
  obtain hr | hr | ⟨kind, hr⟩ := returnState_cases ht.returnState ha
  all_goals
    rw [hr] at hzone
    cases hzone

theorem proceeds_handle (h : Constructing start ahead t) (ht : FitsZone t) :
    Proceeds start ahead (t.handle c) := by
  have hzone := h.isText_zone ht
  have hattribute := h.inAttribute ht
  -- in text nothing is under construction
  have htext : ∀ {s : State} {z : Zone}, t.state = s → s.zone? = some z → z.isText = true → False :=
    fun hs hz hz' => by
      rw [zone_of_state hs hz, hz'] at hzone
      cases hzone
  have hrefer : ∀ {s : State}, t.state = s → s.zone? = none → t.inAttribute = true :=
    fun hs hz => hattribute (hs ▸ hz)
  unfold handle
  split <;> rename_i hs
  all_goals first
    | exact (htext hs rfl rfl).elim
    | exact proceeds_textEndTagName h _
    | exact proceeds_afterDoctypeName h
    | exact proceeds_characterReference h (hrefer hs rfl)
    | exact proceeds_namedCharacterReference h (hrefer hs rfl)
    | exact proceeds_ambiguousAmpersand h (hrefer hs rfl)
    | exact proceeds_numericCharacterReference h
    | exact proceeds_numericReferenceStart h (hrefer hs rfl) _
    | exact proceeds_numericReferenceDigits h _
    | exact proceeds_numericReferenceEnd h (hrefer hs rfl)
    | skip
  all_goals simp only [tagName.eq_def, beforeAttributeName.eq_def, attributeName.eq_def,
    afterAttributeName.eq_def, beforeAttributeValue.eq_def, attributeValueQuoted.eq_def,
    attributeValueUnquoted.eq_def, afterAttributeValueQuoted.eq_def, selfClosingStartTag.eq_def,
    bogusComment.eq_def, commentStart.eq_def, commentStartDash.eq_def, comment.eq_def,
    commentLessThanSign.eq_def, commentLessThanSignBang.eq_def, commentLessThanSignBangDash.eq_def,
    commentLessThanSignBangDashDash.eq_def, commentEndDash.eq_def, commentEnd.eq_def,
    commentEndBang.eq_def, doctype.eq_def, beforeDoctypeName.eq_def, doctypeName.eq_def,
    afterDoctypeKeyword.eq_def, beforeDoctypeIdentifier.eq_def, doctypeIdentifier.eq_def,
    afterPublicIdentifier.eq_def, betweenDoctypeIdentifiers.eq_def, afterSystemIdentifier.eq_def,
    bogusDoctype.eq_def]
  -- each rule is a tree of tests with one operation or two at each leaf
  all_goals grind -ring -linarith -lia

theorem Opening.beginDoctype (h : Opening start ahead t) (x : Char) :
    Constructing start ahead (t.beginDoctype x) := (h.begin _).switchTo _

theorem Opening.endInDoctype (h : Opening start ahead t) :
    Proceeds start ahead t.endInDoctype :=
  (((h.report _).begin _).edit _).emitLast

section Undecided

variable (h : Opening start ahead t)
include h

theorem proceeds_doctype : Proceeds start ahead (t.doctype c) := by
  cases c with
  | none => exact h.endInDoctype
  | some c =>
    simp only [Tokenizer.doctype]
    split_ifs
    · exact .undecided (h.switchTo _) rfl
    · exact .undecided (h.reconsumeIn _) rfl
    · exact .undecided ((h.report _).reconsumeIn _) rfl

theorem proceeds_beforeDoctypeName (hs : t.state = .beforeDoctypeName) :
    Proceeds start ahead (t.beforeDoctypeName c) := by
  cases c with
  | none => exact h.endInDoctype
  | some c =>
    simp only [beforeDoctypeName]
    split_ifs
    · exact .undecided h (hs ▸ rfl)
    · exact ((h.report _).beginDoctype _).proceeds
    · exact ((h.report _).begin _).finish
    · exact (h.beginDoctype _).proceeds

theorem proceeds_textLessThanSign (kind : RawText) :
    Proceeds start ahead (t.textLessThanSign kind c) := by
  have htext := h.textual
  unfold textLessThanSign
  split_ifs
  · exact .undecided ((h.buffer _).switchTo _) rfl
  · exact .concluded ((((htext.switchTo _).emitChar _).emitChar _).concluded
      (pending_enqueue_ne _ _ _) fun _ => rfl)
  · exact .concluded ((((htext.buffer _).emitChar _).reconsumeIn _).concluded
      (pending_enqueue_ne _ _ _) fun _ => rfl)
  · exact .concluded (((htext.emitChar _).reconsumeIn _).concluded
      (pending_enqueue_ne _ _ _) fun _ => rfl)

theorem proceeds_textEndTagOpen (kind : RawText) :
    Proceeds start ahead (t.textEndTagOpen kind c) := by
  unfold textEndTagOpen
  split_ifs
  · exact ((h.begin _).reconsumeIn _).proceeds
  · exact .concluded ((((h.textual.emitChar _).emitChar _).reconsumeIn _).concluded
      (pending_enqueue_ne _ _ _) fun _ => rfl)

/-- After a `<` in text with markup two more characters may be needed to decide. -/
theorem proceeds_tagOpen : Proceeds start ahead (t.tagOpen c) ∨
    c = some '!' ∧ t.tagOpen c = t.switchTo .markupDeclarationOpen ∨
    c = some '/' ∧ t.tagOpen c = t.switchTo .endTagOpen := by
  have htext := h.textual
  cases c with
  | none =>
    exact Or.inl (.concluded ((((htext.report _).emitChar _).emitEnd).concluded
      (pending_enqueue_ne _ _ _) nofun))
  | some c =>
    simp only [tagOpen]
    split_ifs with hdeclaration hend
    · exact Or.inr (Or.inl ⟨congrArg some hdeclaration, rfl⟩)
    · exact Or.inr (Or.inr ⟨congrArg some hend, rfl⟩)
    · exact Or.inl ((h.begin _).reconsumeIn _).proceeds
    · exact Or.inl (((h.report _).begin _).reconsumeIn _).proceeds
    · exact Or.inl (.concluded ((((htext.report _).emitChar _).reconsumeIn _).concluded
        (pending_enqueue_ne _ _ _) fun _ => rfl))

theorem proceeds_endTagOpen (hc : c ≠ some '>') : Proceeds start ahead (t.endTagOpen c) := by
  have htext := h.textual
  cases c with
  | none =>
    exact .concluded (((((htext.report _).emitChar _).emitChar _).emitEnd).concluded
      (pending_enqueue_ne _ _ _) nofun)
  | some c =>
    simp only [endTagOpen]
    split_ifs with _ hclose
    · exact ((h.begin _).reconsumeIn _).proceeds
    · exact absurd (congrArg some hclose) hc
    · exact (((h.report _).begin _).reconsumeIn _).proceeds

theorem proceeds_markupDeclarationOpen
    (hs : t.foreign = true → t.input.pushBack.startsWith cdataOpening = false) :
    Proceeds start ahead t.markupDeclarationOpen := by
  unfold markupDeclarationOpen
  extract_lets t₁ t₂
  have h₁ : Opening start ahead t₁ := h.pushBack
  have h₂ : Opening start ahead t₂ := h₁.skip _
  split_ifs with _ _ hsection hforeign
  · exact (((h₁.skip _).begin _).switchTo _).proceeds
  · exact .undecided ((h₁.skip _).switchTo _) rfl
  · exact absurd hsection (Bool.eq_false_iff.1 (hs hforeign))
  · exact (((h₂.report _).begin _).switchTo _).proceeds
  · exact (((h₁.report _).begin _).switchTo _).proceeds

end Undecided

/-! ## 7. One call -/

/-- What is left of `Opening` between two steps, where nothing is put back. -/
structure Since (start : Position) (rest : List Char) (t : Tokenizer) : Prop where
  pending : t.pending = []
  ended : t.ended = false
  start : t.tokenStart = start
  left : t.input.ahead <:+ rest

/-- A token has been begun since the `<` at `start`, or it is begun or given up next. -/
structure Pursues (start : Position) (rest : List Char) (t : Tokenizer) : Prop
    extends Since start rest t where
  stage : t.current ≠ none ∨ t.state.isUndecided = true

/-- Text is read next, or what looked like a reference and is none; nothing from markup waits. -/
structure InText (t : Tokenizer) : Prop where
  state : t.ended = false →
    t.state.isPlain = true ∨ t.state = .ambiguousAmpersand ∧ t.inAttribute = false
  queue : ∀ q ∈ t.pending, q.token.isMarkup = false

variable {rest : List Char}

theorem Opening.since (h : Opening start rest t) : Since start rest t :=
  ⟨h.pending, h.ended, h.start, h.within.here⟩

theorem Proceeds.cases (h : Proceeds start rest t) :
    Pursues start rest t ∨ Concluded start rest t := by
  cases h with
  | undecided h hs => exact Or.inl ⟨h.since, Or.inr hs⟩
  | constructing h => exact Or.inl ⟨h.toOpening.since, Or.inl h.current⟩
  | concluded h => exact Or.inr h

theorem Since.consume (h : Since start rest t) : Opening start rest t.consume := by
  obtain ⟨errors, heq, -⟩ := consume_eq_advance t
  rw [heq]
  exact ⟨h.pending, h.ended, h.start, Cursor.within_advance h.left⟩

theorem FitsZone.consume (h : FitsZone t) : FitsZone t.consume := by
  obtain ⟨errors, heq, -⟩ := consume_eq_advance t
  rw [heq]
  exact ⟨h.current, h.returnState, h.duplicate, h.fault⟩

theorem Pursues.step (h : Pursues start rest t) (ht : FitsZone t) : Proceeds start rest t.step := by
  have hopen := h.consume
  obtain ⟨errors, heq, -⟩ := consume_eq_advance t
  have hstate : t.consume.state = t.state := by rw [heq]
  have hcurrent : t.consume.current = t.current := by rw [heq]
  unfold Tokenizer.step
  obtain hc | hs := h.stage
  · exact proceeds_handle ⟨hopen, hcurrent ▸ hc⟩ ht.consume
  · rw [handle, hstate]
    cases hs' : t.state with
    | textLessThanSign kind => exact proceeds_textLessThanSign hopen kind
    | textEndTagOpen kind => exact proceeds_textEndTagOpen hopen kind
    | doctype => exact proceeds_doctype hopen
    | beforeDoctypeName => exact proceeds_beforeDoctypeName hopen (hstate.trans hs')
    | _ =>
      rw [hs'] at hs
      cases hs

/-- A call takes the first token of what has been concluded. -/
theorem Concluded.pulls (h : Concluded start rest t) (hp : Pulls t p t') :
    (p.token.isMarkup = true → p.position = start) ∧ t'.input.ahead <:+ rest ∧ InText t' := by
  obtain ⟨q, waiting, hqueue, hstart, hwaiting⟩ := h.queue
  obtain ⟨rfl, rfl⟩ := hp.unique (.queued hqueue)
  exact ⟨hstart, h.left, fun he => Or.inl (h.state he), hwaiting⟩

/-- The token that a call delivers was opened at the last `<`, unless it is a character. -/
theorem Pulls.opened (hp : Pulls t p t') (ht : Between t ∨ Midway t)
    (h : Pursues start rest t ∨ Concluded start rest t) :
    (p.token.isMarkup = true → p.position = start) ∧ t'.input.ahead <:+ rest ∧ InText t' := by
  induction hp with
  | queued hp =>
    obtain h | h := h
    · rw [h.pending] at hp
      cases hp
    · exact h.pulls (.queued hp)
  | ended hp he =>
    obtain h | h := h
    · rw [h.ended] at he
      cases he
    · exact h.pulls (.ended hp he)
  | step hp he hpulls ih =>
    obtain h | h := h
    · have hmid := ht.elim (fun hb => hb.midway hp he) id
      exact ih hmid.step (h.step hmid.fitsZone).cases
    · exact h.pulls (.step hp he hpulls)

end Tokenizer

end Hypertext
