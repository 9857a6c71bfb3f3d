import Hypertext.Proofs.Newlines
import Hypertext.Proofs.Tokenizer.Shaping

/-!
# Every token is well formed

With the states of document types and character references, every step keeps to what is known of the
token under construction. So whatever is delivered is well formed.
-/

namespace Hypertext.Tokenizer

variable {t : Tokenizer} {c : Option Char}

/-! ## 1. Document types -/

theorem wellFormed_empty : Doctype.WellFormed {} := ⟨nofun, nofun, nofun⟩

theorem wellFormed_forceQuirks {dt : Doctype} (h : dt.WellFormed) :
    (dt.edit .forceQuirks).WellFormed :=
  ⟨h.name, h.publicId, h.systemId⟩

theorem duplicate_editDoctype (t : Tokenizer) (e : DoctypeEdit) :
    (t.editDoctype e).duplicate = t.duplicate := by
  obtain ⟨current, fault, heq⟩ := exists_edit (t.begin (.doctype t.currentDoctype)) (.doctype e)
  rw [Tokenizer.editDoctype, heq]
  rfl

theorem peek_editDoctype (e : DoctypeEdit) :
    (t.editDoctype e).input.pushBack.peek = t.input.pushBack.peek := by
  obtain ⟨current, fault, heq⟩ := exists_edit (t.begin (.doctype t.currentDoctype)) (.doctype e)
  rw [Tokenizer.editDoctype, heq]
  rfl

theorem state_editDoctype (t : Tokenizer) (e : DoctypeEdit) : (t.editDoctype e).state = t.state :=
  state_edit _ _

section Doctype

variable (h : Builds (OnDoctype Doctype.WellFormed) t)
include h

theorem Builds.forceQuirks : Builds (OnDoctype Doctype.WellFormed) (t.editDoctype .forceQuirks) :=
  h.editDoctype wellFormed_empty fun _ => wellFormed_forceQuirks

theorem Builds.finishDoctype (hd : t.duplicate = false) : Clear t.finish :=
  Builds.finish (h.mono fun _ => finished_of_doctype) hd

theorem Builds.endInDoctype (hd : t.duplicate = false) : Shaped t.endInDoctype := by
  refine shaped_of_clear (Builds.emitEnd (Builds.emitCurrent ?_))
  rw [dropDuplicate_of_eq_false ((duplicate_editDoctype (t.report _) _).trans hd)]
  exact (Builds.forceQuirks (t := t.report _) h).mono fun _ => finished_of_doctype

theorem shaped_beginIdentifier (which : Identifier) (quote : Quote) :
    Shaped (t.beginIdentifier which quote) :=
  Builds.shaped (s := .doctypeIdentifier which quote)
    (h.editDoctype wellFormed_empty fun _ hdt => Quoting.start hdt which quote) rfl rfl

theorem shaped_missingIdentifier (which : Identifier) (hd : t.duplicate = false) :
    Shaped (t.missingIdentifier which) :=
  shaped_of_clear (Builds.finishDoctype (Builds.forceQuirks (t := t.report _) h)
    ((duplicate_editDoctype _ _).trans hd))

theorem shaped_missingQuote (which : Identifier) (hpeek : t.input.pushBack.peek = c) :
    Shaped (t.missingQuote which) :=
  Builds.again (s := .bogusDoctype) (Builds.forceQuirks (t := t.report _) h)
    ((peek_editDoctype _).trans hpeek) rfl

theorem shaped_doctype (hd : t.duplicate = false) (hpeek : t.input.pushBack.peek = c) :
    Shaped (t.doctype c) := by
  cases c with
  | none => exact h.endInDoctype hd
  | some c =>
    simp only [Tokenizer.doctype]
    split_ifs
    · exact Builds.shaped (s := .beforeDoctypeName) h rfl rfl
    · exact Builds.again (s := .beforeDoctypeName) h hpeek rfl
    · exact Builds.again (t := t.report _) (s := .beforeDoctypeName) h hpeek rfl

theorem shaped_beginDoctype {x : Char} (hx : isNameChar x = true) : Shaped (t.beginDoctype x) :=
  Builds.shaped (s := .doctypeName) (h.begin (.doctype _) (wellFormed_name wellFormed_empty hx))
    rfl rfl

theorem shaped_beforeDoctypeName (hd : t.duplicate = false) (hs : t.state = .beforeDoctypeName)
    (hcr : c ≠ some '\r') : Shaped (t.beforeDoctypeName c) := by
  cases c with
  | none => exact h.endInDoctype hd
  | some c =>
    simp only [beforeDoctypeName]
    split_ifs with hblank hnull hclose
    · exact Builds.shaped (s := .beforeDoctypeName) h hs rfl
    · exact shaped_beginDoctype (t := t.report _) h rfl
    · exact shaped_of_clear (Builds.finishDoctype
        (Builds.begin (t := t.report _) h (.doctype { forceQuirks := true })
          (wellFormed_forceQuirks wellFormed_empty)) hd)
    · exact shaped_beginDoctype h (isNameChar_toLower (isSolid_of_ne hcr hnull)
        (Bool.eq_false_iff.2 hblank) hclose)

theorem Builds.doctypeName {x : Char} (hx : isNameChar x = true) :
    Builds (OnDoctype Doctype.WellFormed) (t.editDoctype (.name x)) :=
  h.editDoctype wellFormed_empty fun _ hdt => wellFormed_name hdt hx

theorem shaped_doctypeName (hd : t.duplicate = false) (hs : t.state = .doctypeName)
    (hcr : c ≠ some '\r') : Shaped (t.doctypeName c) := by
  cases c with
  | none => exact h.endInDoctype hd
  | some c =>
    simp only [Tokenizer.doctypeName]
    split_ifs with hblank hclose hnull
    · exact Builds.shaped (s := .afterDoctypeName) h rfl rfl
    · exact shaped_of_clear (h.finishDoctype hd)
    · exact Builds.shaped (s := .doctypeName) (Builds.doctypeName (t := t.report _) h rfl)
        ((state_editDoctype _ _).trans hs) rfl
    · have hname := isNameChar_toLower (isSolid_of_ne hcr hnull) (Bool.eq_false_iff.2 hblank) hclose
      exact Builds.shaped (s := .doctypeName) (h.doctypeName hname)
        ((state_editDoctype _ _).trans hs) rfl

theorem shaped_afterDoctypeName (hd : t.duplicate = false) (hs : t.state = .afterDoctypeName) :
    Shaped (t.afterDoctypeName c) := by
  cases c with
  | none => exact h.endInDoctype hd
  | some c =>
    simp only [afterDoctypeName]
    split_ifs
    · exact Builds.shaped (s := .afterDoctypeName) h hs rfl
    · exact shaped_of_clear (h.finishDoctype hd)
    · exact Builds.shaped (s := .afterDoctypeKeyword .publicId) h rfl rfl
    · exact Builds.shaped (s := .afterDoctypeKeyword .systemId) h rfl rfl
    · exact Builds.shaped (s := .bogusDoctype)
        (Builds.forceQuirks (t := Tokenizer.report { t with input := t.input.pushBack } _) h)
        rfl rfl

theorem shaped_afterDoctypeKeyword (which : Identifier) (hd : t.duplicate = false)
    (hpeek : t.input.pushBack.peek = c) : Shaped (t.afterDoctypeKeyword which c) := by
  cases c with
  | none => exact h.endInDoctype hd
  | some c =>
    simp only [afterDoctypeKeyword]
    split_ifs
    · exact Builds.shaped (s := .beforeDoctypeIdentifier which) h rfl rfl
    · exact shaped_missingIdentifier h which hd
    · split
      · exact shaped_beginIdentifier (t := t.report _) h which _
      · exact shaped_missingQuote h which hpeek

theorem shaped_beforeDoctypeIdentifier (which : Identifier) (hd : t.duplicate = false)
    (hs : t.state = .beforeDoctypeIdentifier which) (hpeek : t.input.pushBack.peek = c) :
    Shaped (t.beforeDoctypeIdentifier which c) := by
  cases c with
  | none => exact h.endInDoctype hd
  | some c =>
    simp only [beforeDoctypeIdentifier]
    split_ifs
    · exact Builds.shaped (s := .beforeDoctypeIdentifier which) h hs rfl
    · exact shaped_missingIdentifier h which hd
    · split
      · exact shaped_beginIdentifier h which _
      · exact shaped_missingQuote h which hpeek

omit h in
theorem shaped_doctypeIdentifier (which : Identifier) (quote : Quote)
    (h : Builds (OnDoctype (Quoting which quote)) t) (hd : t.duplicate = false)
    (hs : t.state = .doctypeIdentifier which quote) (hcr : c ≠ some '\r') :
    Shaped (t.doctypeIdentifier which quote c) := by
  have hfine : Builds (OnDoctype Doctype.WellFormed) t := h.onDoctype fun _ => Quoting.wellFormed
  have hempty : Quoting which quote {} := ⟨wellFormed_empty, by cases which <;> nofun⟩
  cases c with
  | none => exact hfine.endInDoctype hd
  | some c =>
    simp only [doctypeIdentifier]
    split_ifs with hquote hnull hclose
    · exact Builds.shaped (s := .afterDoctypeIdentifier which) hfine rfl rfl
    · refine Builds.shaped (s := .doctypeIdentifier which quote)
        (Builds.editDoctype (t := t.report _) h hempty fun _ hdt => hdt.push rfl (by decide) ?_)
        ((state_editDoctype _ _).trans hs) rfl
      cases quote <;> decide
    · exact shaped_of_clear (Builds.finishDoctype (Builds.forceQuirks (t := t.report _) hfine)
        ((duplicate_editDoctype _ _).trans hd))
    · exact Builds.shaped (s := .doctypeIdentifier which quote)
        (h.editDoctype hempty fun _ hdt => hdt.push (isSolid_of_ne hcr hnull) hclose hquote)
        ((state_editDoctype _ _).trans hs) rfl

theorem shaped_afterPublicIdentifier (hd : t.duplicate = false)
    (hpeek : t.input.pushBack.peek = c) : Shaped (t.afterPublicIdentifier c) := by
  cases c with
  | none => exact h.endInDoctype hd
  | some c =>
    simp only [afterPublicIdentifier]
    split_ifs
    · exact Builds.shaped (s := .betweenDoctypeIdentifiers) h rfl rfl
    · exact shaped_of_clear (h.finishDoctype hd)
    · split
      · exact shaped_beginIdentifier (t := t.report _) h .systemId _
      · exact shaped_missingQuote h .systemId hpeek

theorem shaped_betweenDoctypeIdentifiers (hd : t.duplicate = false)
    (hs : t.state = .betweenDoctypeIdentifiers)
    (hpeek : t.input.pushBack.peek = c) : Shaped (t.betweenDoctypeIdentifiers c) := by
  cases c with
  | none => exact h.endInDoctype hd
  | some c =>
    simp only [betweenDoctypeIdentifiers]
    split_ifs
    · exact Builds.shaped (s := .betweenDoctypeIdentifiers) h hs rfl
    · exact shaped_of_clear (h.finishDoctype hd)
    · split
      · exact shaped_beginIdentifier h .systemId _
      · exact shaped_missingQuote h .systemId hpeek

theorem shaped_afterSystemIdentifier (hd : t.duplicate = false)
    (hs : t.state = .afterDoctypeIdentifier .systemId)
    (hpeek : t.input.pushBack.peek = c) : Shaped (t.afterSystemIdentifier c) := by
  cases c with
  | none => exact h.endInDoctype hd
  | some c =>
    simp only [afterSystemIdentifier]
    split_ifs
    · exact Builds.shaped (s := .afterDoctypeIdentifier .systemId) h hs rfl
    · exact shaped_of_clear (h.finishDoctype hd)
    · exact Builds.again (t := t.report _) (s := .bogusDoctype) h hpeek rfl

theorem shaped_bogusDoctype (hd : t.duplicate = false) (hs : t.state = .bogusDoctype) :
    Shaped (t.bogusDoctype c) := by
  cases c with
  | none =>
    refine shaped_of_clear (Builds.emitEnd (Builds.emitCurrent ?_))
    rw [dropDuplicate_of_eq_false hd]
    exact h.mono fun _ => finished_of_doctype
  | some c =>
    simp only [bogusDoctype]
    split_ifs
    · exact shaped_of_clear (h.finishDoctype hd)
    · exact Builds.shaped (t := t.report _) (s := .bogusDoctype) h hs rfl
    · exact Builds.shaped (s := .bogusDoctype) h hs rfl

end Doctype

/-! ## 2. Character references -/

theorem windowsCharacters_valid : ∀ p ∈ windowsCharacters, p.2.isValidChar ∧ p.2 ≠ 0 := by
  unfold Nat.isValidChar
  decide

/-- A numeric reference always stands for a character, and never for the null character. -/
theorem resolveCode_valid (code : Nat) :
    (resolveCode code).1.isValidChar ∧ (resolveCode code).1 ≠ 0 := by
  have hfffd : Nat.isValidChar 0xFFFD ∧ 0xFFFD ≠ 0 := by
    unfold Nat.isValidChar
    decide
  unfold resolveCode
  split_ifs with hzero hlarge hsurrogate
  · exact hfffd
  · exact hfffd
  · exact hfffd
  all_goals
    have hcode : code.isValidChar ∧ code ≠ 0 := by
      unfold Nat.isValidChar
      omega
  · exact hcode
  · dsimp only
    cases hlookup : windowsCharacters.lookup code with
    | none => exact hcode
    | some n =>
      obtain ⟨before, after, heq, -⟩ := List.lookup_eq_some_iff.1 hlookup
      exact windowsCharacters_valid (code, n) (heq ▸ List.mem_append_right _ List.mem_cons_self)
  · exact hcode

theorem char_resolveCode_ne (code : Nat) : Char.ofNat (resolveCode code).1 ≠ '\x00' := fun heq => by
  obtain ⟨hvalid, hne⟩ := resolveCode_valid code
  rw [Char.ofNat, dif_pos hvalid] at heq
  exact hne (congrArg Char.toNat heq)

/-- A reference adds to an attribute value or to text. -/
structure Cites (t : Tokenizer) : Prop where
  host : ∀ s, t.returnState = some s → s.isHost = true
  builds : Builds (Shape (t.returnState.getD .data) none t.duplicate) t

theorem shape_of_isHost (hs : s.isHost = true) (next : Option Char) (d : Bool) :
    Shape s next d = Shape s none d := by
  cases s with
  | data => rfl
  | text kind => rfl
  | attributeValueQuoted quote => rfl
  | attributeValueUnquoted => rfl
  | _ => cases hs

theorem isHost_getD (hh : ∀ s, t.returnState = some s → s.isHost = true) :
    (t.returnState.getD .data).isHost = true := by
  cases hr : t.returnState with
  | none => rfl
  | some s => exact hh s hr

theorem Cites.report (h : Cites t) (kind : ErrorKind) : Cites (t.report kind) := ⟨h.host, h.builds⟩

theorem Cites.input (h : Cites t) (input : Cursor) : Cites { t with input } := ⟨h.host, h.builds⟩

theorem Cites.code (h : Cites t) (code : Nat) : Cites { t with code } := ⟨h.host, h.builds⟩

theorem Cites.switchTo (h : Cites t) (s : State) : Cites (t.switchTo s) := ⟨h.host, h.builds⟩

theorem Cites.buffer (h : Cites t) {buffer : List Char} (hb : '\x00' ∉ buffer) :
    Cites { t with buffer } :=
  ⟨h.host, h.builds.buffer hb⟩

theorem Cites.shaped (h : Cites t) (hz : t.state.zone? = none) : Shaped t := by
  unfold Shaped Tokenizer.host
  rw [hz]
  dsimp only
  rw [shape_of_isHost (isHost_getD h.host)]
  exact h.builds

theorem Cites.reconsumeIn (h : Cites t) {s : State} (hz : s.zone? = none) :
    Shaped (t.reconsumeIn s) :=
  Cites.shaped (t := t.reconsumeIn s) ⟨h.host, h.builds⟩ hz

theorem Cites.switchToReturn (h : Cites t) : Shaped t.switchToReturn := by
  have hhost := isHost_getD h.host
  obtain ⟨z, hz⟩ := State.exists_zone?_of_isHost hhost
  refine Builds.shaped (s := t.returnState.getD .data) ?_ rfl hz
  rw [shape_of_isHost hhost]
  exact h.builds

theorem Cites.reconsumeInReturn (h : Cites t) : Shaped t.reconsumeInReturn :=
  (h.input _).switchToReturn

theorem Cites.editValue (h : Cites t) (ha : t.inAttribute = true) {x : Char} (hx : x ≠ '\x00') :
    Cites (t.editTag (.attributeValue x)) ∧ (t.editTag (.attributeValue x)).inAttribute = true := by
  have hreturn : (t.editTag (.attributeValue x)).returnState = t.returnState :=
    congrArg Gauge.returnState (gauge_editTag t _)
  have hshape : ∀ d, Shape (t.returnState.getD .data) none d = OnTag (Attributed d) := by
    intro d
    obtain ⟨quote, hr⟩ | hr := returnState_of_inAttribute ha
    all_goals
      rw [hr]
      rfl
  refine ⟨⟨hreturn ▸ h.host, ?_⟩, by rw [inAttribute, hreturn]; exact ha⟩
  have hbuilds := h.builds
  rw [hshape] at hbuilds
  rw [hreturn, hshape]
  exact hbuilds.attributeValue hx

theorem Cites.deliver (h : Cites t) {cs : List Char} (hcs : '\x00' ∉ cs) :
    Cites (t.deliver cs) := by
  unfold Tokenizer.deliver
  split
  · next ha =>
    suffices hall : ∀ {t : Tokenizer}, Cites t → t.inAttribute = true →
        Cites (cs.foldl (fun t c => t.editTag (.attributeValue c)) t) from hall h ha
    induction cs with
    | nil => exact fun h _ => h
    | cons c cs ih =>
      intro t h ha
      obtain ⟨hc, hcs⟩ := not_or.1 (List.mem_cons.not.1 hcs)
      obtain ⟨h', ha'⟩ := h.editValue ha (Ne.symm hc)
      exact ih hcs h' ha'
  · have hemit := h.builds.emitChars cs
    rw [emitChars_eq] at hemit ⊢
    exact ⟨h.host, hemit⟩

theorem Cites.flush (h : Cites t) : Cites t.flush := h.deliver h.builds.2.2

theorem Cites.resolve (h : Cites t) {cs : List Char} (hcs : '\x00' ∉ cs) : Cites (t.resolve cs) :=
  (h.buffer hcs).flush

section Reference

variable (h : Cites t)
include h

theorem shaped_characterReference : Shaped (t.characterReference c) := by
  unfold characterReference
  dsimp only
  split_ifs
  · exact (h.buffer (by decide)).reconsumeIn rfl
  · exact Cites.shaped ((h.buffer (show '\x00' ∉ ['&', '#'] by decide)).switchTo
      .numericCharacterReference) rfl
  · exact (h.buffer (by decide)).flush.reconsumeInReturn

theorem shaped_namedCharacterReference : Shaped t.namedCharacterReference := by
  unfold namedCharacterReference
  dsimp only
  split
  · exact ((h.input _).flush.switchTo _).shaped rfl
  · next entry hmatch =>
    obtain ⟨hname, htext⟩ := Entity.null_not_mem entry (Entity.longestMatch_eq_some hmatch).1
    have hread := (h.input (t.input.pushBack.skip entry.name)).buffer
      (List.not_mem_append h.builds.2.2 hname)
    split_ifs
    · exact (hread.resolve htext).switchToReturn
    · exact hread.flush.switchToReturn
    · exact ((hread.report _).resolve htext).switchToReturn

theorem shaped_ambiguousAmpersand (hs : t.state = .ambiguousAmpersand) :
    Shaped (t.ambiguousAmpersand c) := by
  cases c with
  | none => exact h.reconsumeInReturn
  | some c =>
    simp only [ambiguousAmpersand]
    split_ifs with halnum
    · have hc : '\x00' ∉ [c] := by
        rintro hmem
        rw [← List.mem_singleton.1 hmem] at halnum
        cases halnum
      exact (h.deliver hc).shaped (by rw [state_deliver, hs]; rfl)
    · exact (h.report _).reconsumeInReturn
    · exact h.reconsumeInReturn

theorem shaped_numericCharacterReference : Shaped (t.numericCharacterReference c) := by
  have hpush : ∀ x : Char, x ≠ '\x00' → '\x00' ∉ t.buffer ++ [x] := fun x hx =>
    List.not_mem_append h.builds.2.2 (by simpa using hx.symm)
  unfold numericCharacterReference
  dsimp only
  split
  · exact (((h.code 0).buffer (hpush 'x' (by decide))).switchTo
      (.numericReferenceStart .hexadecimal)).shaped rfl
  · exact (((h.code 0).buffer (hpush 'X' (by decide))).switchTo
      (.numericReferenceStart .hexadecimal)).shaped rfl
  · exact (h.code 0).reconsumeIn rfl

theorem shaped_numericReferenceStart (radix : Radix) :
    Shaped (t.numericReferenceStart radix c) := by
  unfold numericReferenceStart
  split_ifs
  · exact h.reconsumeIn rfl
  · exact (h.report _).flush.reconsumeInReturn

theorem shaped_numericReferenceDigits (radix : Radix)
    (hs : t.state = .numericReferenceDigits radix) : Shaped (t.numericReferenceDigits radix c) := by
  unfold numericReferenceDigits
  split
  · exact (h.code _).shaped (by rw [show ({ t with code := _ } : Tokenizer).state = _ from hs]; rfl)
  · split_ifs
    · exact (h.switchTo _).shaped rfl
    · exact (h.report _).reconsumeIn rfl

theorem shaped_numericReferenceEnd : Shaped t.numericReferenceEnd := by
  have hnull : '\x00' ∉ [Char.ofNat (resolveCode t.code).1] := by
    simpa using (char_resolveCode_ne t.code).symm
  unfold numericReferenceEnd
  dsimp only
  split
  · exact (((h.input _).report _).resolve hnull).switchToReturn
  · exact ((h.input _).resolve hnull).switchToReturn

end Reference

/-! ## 3. One step -/

theorem shaped_handle (h : Builds (Shape t.host c t.duplicate) t) (ht : FitsZone t)
    (hpeek : t.input.pushBack.peek = c) (hcr : c ≠ some '\r') : Shaped (t.handle c) := by
  -- every state either has a zone, which says what is built in it, or belongs to a reference
  -- and its host
  have hin : ∀ {s : State} {z : Zone}, t.state = s → s.zone? = some z →
      Builds (Shape s c t.duplicate) t :=
    fun hs hz => by
      rw [host, hs, hz] at h
      exact h
  have hd : ∀ {s : State} {z : Zone}, t.state = s → s.zone? = some z → z ≠ .attributes →
      t.duplicate = false := fun hs hz hne =>
    Bool.eq_false_iff.2 fun hdup => hne ((zone_of_state hs hz).symm.trans (ht.duplicate hdup))
  have hcites : t.state.zone? = none → Cites t := fun hz => by
    rw [host, hz] at h
    dsimp only at h
    rw [shape_of_isHost (isHost_getD ht.returnState)] at h
    exact ⟨ht.returnState, h⟩
  unfold handle
  split <;> rename_i hs
  · exact shaped_of_clear (clear_data (hin hs rfl))
  · exact shaped_of_clear (clear_rawCharacter (hin hs rfl))
  · exact shaped_of_clear (clear_text (hin hs rfl) _)
  · exact shaped_of_clear (clear_textLessThanSign (hin hs rfl) _)
  · exact shaped_textEndTagOpen (hin hs rfl) hpeek _
  · exact shaped_textEndTagName (hin hs rfl) _ hs
  · exact shaped_tagOpen (hin hs rfl) hpeek
  · exact shaped_endTagOpen (hin hs rfl) hpeek
  · exact shaped_tagName (hin hs rfl) hs hcr
  · exact shaped_of_clear (clear_scriptDataEscapeStart (hin hs rfl))
  · exact shaped_of_clear (clear_scriptDataEscapeStartDash (hin hs rfl))
  · exact shaped_of_clear (clear_scriptDataEscapedDash (hin hs rfl))
  · exact shaped_of_clear (clear_scriptDataEscapedDashDash (hin hs rfl))
  · exact shaped_of_clear (clear_doubleEscapeBoundary (hin hs rfl) _ _)
  · exact shaped_of_clear (clear_scriptDataDoubleEscaped (hin hs rfl))
  · exact shaped_of_clear (clear_scriptDataDoubleEscapedDash (hin hs rfl))
  · exact shaped_of_clear (clear_scriptDataDoubleEscapedDashDash (hin hs rfl))
  · exact shaped_of_clear (clear_scriptDataDoubleEscapedLessThanSign (hin hs rfl))
  · exact shaped_of_clear (clear_doubleEscapeBoundary (hin hs rfl) _ _)
  · exact shaped_beforeAttributeName (hin hs rfl) hpeek hs
  · exact shaped_attributeName (hin hs rfl) hpeek hs hcr
  · exact shaped_afterAttributeName (hin hs rfl) hpeek hs
  · exact shaped_beforeAttributeValue (hin hs rfl) hpeek hs
  · exact shaped_attributeValueQuoted (hin hs rfl) _ hs
  · exact shaped_attributeValueUnquoted (hin hs rfl) hs
  · exact shaped_afterAttributeValueQuoted (hin hs rfl) hpeek
  · exact shaped_selfClosingStartTag (hin hs rfl) hpeek
  · exact shaped_bogusComment (hd hs rfl nofun) (hin hs rfl) hs hcr
  · exact shaped_markupDeclarationOpen (hin hs rfl)
  · exact shaped_commentStart (hd hs rfl nofun) (hin hs rfl) hpeek
  · exact shaped_commentStartDash (hd hs rfl nofun) (hin hs rfl) hpeek
  · exact shaped_comment (hd hs rfl nofun) (hin hs rfl) hs hcr
  · exact shaped_commentLessThanSign (hin hs rfl) hs hpeek
  · exact shaped_commentLessThanSignBang (hin hs rfl) hpeek
  · exact shaped_commentLessThanSignBangDash (hin hs rfl) hpeek
  · exact shaped_commentLessThanSignBangDashDash (hin hs rfl) hpeek
  · exact shaped_commentEndDash (hd hs rfl nofun) (hin hs rfl) hpeek
  · exact shaped_commentEnd (hd hs rfl nofun) (hin hs rfl) hs hpeek
  · exact shaped_commentEndBang (hd hs rfl nofun) (hin hs rfl) hpeek
  · exact shaped_doctype (hin hs rfl) (hd hs rfl nofun) hpeek
  · exact shaped_beforeDoctypeName (hin hs rfl) (hd hs rfl nofun) hs hcr
  · exact shaped_doctypeName (hin hs rfl) (hd hs rfl nofun) hs hcr
  · exact shaped_afterDoctypeName (hin hs rfl) (hd hs rfl nofun) hs
  · exact shaped_afterDoctypeKeyword (hin hs rfl) _ (hd hs rfl nofun) hpeek
  · exact shaped_beforeDoctypeIdentifier (hin hs rfl) _ (hd hs rfl nofun) hs hpeek
  · exact shaped_doctypeIdentifier _ _ (hin hs rfl) (hd hs rfl nofun) hs hcr
  · exact shaped_afterPublicIdentifier (hin hs rfl) (hd hs rfl nofun) hpeek
  · exact shaped_afterSystemIdentifier (hin hs rfl) (hd hs rfl nofun) hs hpeek
  · exact shaped_betweenDoctypeIdentifiers (hin hs rfl) (hd hs rfl nofun) hs hpeek
  · exact shaped_bogusDoctype (hin hs rfl) (hd hs rfl nofun) hs
  · exact shaped_of_clear (clear_cdataSection (hin hs rfl))
  · exact shaped_of_clear (clear_cdataSectionBracket (hin hs rfl))
  · exact shaped_of_clear (clear_cdataSectionEnd (hin hs rfl))
  · exact shaped_characterReference (hcites (by rw [hs]; rfl))
  · exact shaped_namedCharacterReference (hcites (by rw [hs]; rfl))
  · exact shaped_ambiguousAmpersand (hcites (by rw [hs]; rfl)) hs
  · exact shaped_numericCharacterReference (hcites (by rw [hs]; rfl))
  · exact shaped_numericReferenceStart (hcites (by rw [hs]; rfl)) _
  · exact shaped_numericReferenceDigits (hcites (by rw [hs]; rfl)) _ hs
  · exact shaped_numericReferenceEnd (hcites (by rw [hs]; rfl))

variable {text : List Char}

theorem Shaped.step (h : Shaped t) (ht : FitsZone t) (hw : t.input.Walks text) (hcr : '\r' ∉ text) :
    Shaped t.step := by
  obtain ⟨errors, heq, -⟩ := consume_eq_advance t
  unfold Tokenizer.step
  rw [heq]
  refine shaped_handle (t := { t with input := t.input.advance, errors }) h
    ⟨ht.current, ht.returnState, ht.duplicate, ht.fault⟩ ?_ ?_
  · show t.input.advance.pushBack.ahead.head? = t.input.ahead.head?
    rw [Cursor.pushBack_advance_ahead]
  · intro hc
    obtain ⟨done, htext, -⟩ := hw.stands
    exact hcr (htext ▸ List.mem_append_right _ (List.mem_of_mem_head? hc))

/-! ## 4. Token after token -/

theorem Shaped.pop {p : PositionedToken} {rest : List PositionedToken} (h : Shaped t)
    (hp : t.pending = p :: rest) : p.token.WellFormed ∧ Shaped { t with pending := rest } :=
  ⟨h.1 p (hp ▸ List.mem_cons_self), fun q hq => h.1 q (hp ▸ List.mem_cons_of_mem p hq), h.2⟩

theorem Shaped.pulls {p : PositionedToken} {t' : Tokenizer} (hpulls : Pulls t p t')
    (ht : Between t ∨ Midway t) {low : Nat} (ho : Ordered text low t)
    (hcr : '\r' ∉ text) (h : Shaped t) : p.token.WellFormed ∧ Shaped t' := by
  induction hpulls with
  | queued hp => exact h.pop hp
  | ended hp he => exact ⟨trivial, h⟩
  | step hp he _ ih =>
    have hmid := ht.elim (fun hb => hb.midway hp he) id
    exact ih hmid.step (ho.step he hmid.fitsZone) (h.step hmid.fitsZone ho.tracks.input hcr)

theorem Shaped.nextToken (h : Shaped t) (hb : Between t) {low : Nat}
    (ho : Ordered text low t) (hcr : '\r' ∉ text) (foreign : Bool) :
    (t.nextToken foreign).1.token.WellFormed ∧ Shaped (t.nextToken foreign).2 := by
  have hforeign : Ordered text low { t with foreign } := ho
  exact Shaped.pulls (hb.pulls_nextToken foreign) (Or.inl (hb.setForeign foreign)) hforeign hcr h

theorem Shaped.after (h : Shaped t) (hb : Between t) {low : Nat} (ho : Ordered text low t)
    (hcr : '\r' ∉ text) (answers : Nat → Bool) (n : Nat) : Shaped (t.after answers n) := by
  induction n with
  | zero => exact h
  | succ n ih =>
    obtain ⟨low, hn⟩ := ho.after hb answers n
    exact (ih.nextToken (hb.after answers n) hn hcr (answers n)).2

/-- In whatever text state the tokenizer begins, and whatever it is told of the tree, every token
that it delivers is well formed. -/
theorem delivery_wellFormed (html : String) {s : State} (hs : s.isPlain = true)
    (last : Option String) (answers : Nat → Bool) (n : Nat) :
    ((((ofString html).switchTo s).setLastStartTag last).delivery answers n).token.WellFormed := by
  have hbetween : Between (((ofString html).switchTo s).setLastStartTag last) :=
    ((between_ofString html).switchTo s).setLastStartTag last
  have hordered := ordered_plain html hs last
  have hcr := return_not_mem_normalizeNewlines html.toList
  have hshaped : Shaped (((ofString html).switchTo s).setLastStartTag last) :=
    shaped_of_clear ⟨nofun, nofun, nofun⟩
  obtain ⟨low, hn⟩ := hordered.after hbetween answers n
  exact ((hshaped.after hbetween hordered hcr answers n).nextToken (hbetween.after answers n) hn hcr
    (answers n)).1

/-- An attribute that is repeated is dropped. -/
theorem delivery_wellFormed_duplicate : State.data.isPlain = true ∧
    ∃ token, token = ((((ofString "<A b b=c>").switchTo .data).setLastStartTag none).delivery
        (fun _ => false) 0).token ∧
      token = .startTag { name := "a", attributes := [{ name := "b" }] } ∧ token.WellFormed :=
  ⟨rfl, _, rfl, by decide, delivery_wellFormed "<A b b=c>" rfl none (fun _ => false) 0⟩

example : [.data, .text .rcdata, .text .rawtext, .text .scriptData, .plaintext, .cdataSection].all
    State.isPlain = true := rfl

end Hypertext.Tokenizer
