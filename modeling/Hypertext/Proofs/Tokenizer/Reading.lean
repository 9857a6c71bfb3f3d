import Hypertext.Proofs.Completion
import Hypertext.Proofs.Tokenizer.Attributes
import Hypertext.Proofs.Tokenizer.Comments

/-!
# Reading what was written

The tokenizer reads every token as it was written, and is between two tokens again after it. So the
tokens of a written text are those that were written.
-/

namespace Hypertext.Tokenizer

variable {Q : Tokenizer → Prop} {s : State} {ahead rest : List Char} {token : Token}
  {current : Option Token} {t : Tokenizer} {c : Char}

/-! ## 1. Comments -/

/-- A comment is read as it was written. -/
theorem goes_commentMarkup {data : String} (hw : IsCommentText data.toList)
    (h : At .data ((Token.comment data).markup ++ rest) none t) :
    Goes (Waits (.comment data) rest) t := by
  have hmarkup : (Token.comment data).markup ++ rest =
      '<' :: '!' :: '-' :: '-' :: (data.toList ++ (['-', '-'] ++ '>' :: rest)) := by
    simp [Token.markup]
  have hnull : ∀ text, text <+: data.toList → text.map denull = text := fun text htext =>
    map_denull fun hmem => by cases hw.chars _ (htext.subset hmem)
  have hopen : ∀ done after, data.toList = done ++ '>' :: after →
      ¬ IsCommentText.Ready (done.map denull) :=
    fun done after heq => by
      rw [hnull done ⟨_, heq.symm⟩]
      exact IsCommentText.not_ready (heq ▸ hw)
  rw [hmarkup] at h
  refine (goes_commentOpening h).trans fun t h => ?_
  have hgoes := goes_closedComment hopen (Or.inl rfl) h
  rwa [hnull _ List.prefix_rfl, String.ofList_toList] at hgoes

/-! ## 2. Document types -/

variable {d : Doctype} {which : Identifier} {quote : Quote}

theorem goes_doctypeOpening
    (h : At .markupDeclarationOpen
      ('D' :: 'O' :: 'C' :: 'T' :: 'Y' :: 'P' :: 'E' :: ' ' :: rest) none t) :
    Goes (At .beforeDoctypeName rest none) t := by
  refine h.goes fun t' h' hback _ _ => ?_
  have hcomment :
      commentOpening.isPrefixOf ('D' :: 'O' :: 'C' :: 'T' :: 'Y' :: 'P' :: 'E' :: ' ' :: rest) =
        false := rfl
  have hdoctype : Ascii.startsWithIgnoringCase doctypeOpening
      ('D' :: 'O' :: 'C' :: 'T' :: 'Y' :: 'P' :: 'E' :: ' ' :: rest) = true := rfl
  simp only [handle, h'.state]
  simp only [markupDeclarationOpen, Cursor.startsWith, Cursor.startsWithIgnoringCase, hback,
    hcomment, hdoctype, Bool.false_eq_true, if_false, if_true]
  have hskip := h'.pushBackSkip doctypeOpening
  rw [hback] at hskip
  refine (hskip.switchTo .doctype).goes fun t' h' _ _ _ => ?_
  simp only [handle, h'.state]
  exact .here (h'.switchTo _)

theorem goes_doctypeName {done name : List Char} (hname : ∀ c ∈ name, isNameChar c = true)
    (h : At .doctypeName (name ++ rest) (some (.doctype { name := some (String.ofList done) })) t) :
    Goes (At .doctypeName rest (some (.doctype { name := some (String.ofList (done ++ name)) })))
      t := by
  induction name generalizing done t with
  | nil =>
    rw [List.append_nil]
    exact .here h
  | cons c name ih =>
    obtain ⟨hc, hname⟩ := List.forall_mem_cons.1 hname
    obtain ⟨hblank, hclose, hnull, hlower⟩ := isNameChar_cases hc
    rw [List.append_cons]
    refine h.goes fun t' h' _ _ _ => ih hname ?_
    simp only [handle, h'.state, List.cons_append, List.head?_cons, doctypeName, hblank, hclose,
      hnull, hlower, Bool.false_eq_true, if_false]
    have hedit := h'.editDoctype (.name c)
    simp only [Doctype.edit, pushTo, Option.getD_some, push_ofList] at hedit
    exact hedit

theorem goes_beginName {name : String} (hname : IsDoctypeName name)
    (h : At .beforeDoctypeName (name.toList ++ rest) none t) :
    Goes (At .doctypeName rest (some (.doctype { name := some name }))) t := by
  obtain ⟨c, more, hcons⟩ := List.exists_cons_of_ne_nil hname.nonempty
  obtain ⟨hc, hmore⟩ := List.forall_mem_cons.1 (hcons ▸ hname.chars)
  obtain ⟨hblank, hclose, hnull, hlower⟩ := isNameChar_cases hc
  have heq : name = String.ofList ([c] ++ more) := by
    rw [List.singleton_append, ← hcons, String.ofList_toList]
  rw [hcons] at h
  refine h.goes fun t' h' _ _ _ => ?_
  simp only [handle, h'.state, List.cons_append, List.head?_cons, beforeDoctypeName, hblank, hclose,
    hnull, hlower, Bool.false_eq_true, if_false]
  have hbegun := (h'.begin (.doctype (Doctype.edit {} (.name c)))).switchTo .doctypeName
  rw [heq]
  exact goes_doctypeName hmore hbegun

/-- A document type with an identifier. -/
def withIdentifier (d : Doctype) (which : Identifier) (id : List Char) : Doctype :=
  match which with
  | .publicId => { d with publicId := some (String.ofList id) }
  | .systemId => { d with systemId := some (String.ofList id) }

theorem edit_extendIdentifier (d : Doctype) (which : Identifier) (id : List Char) (c : Char) :
    (withIdentifier d which id).edit (extendIdentifier c which) =
      withIdentifier d which (id ++ [c]) := by
  cases which <;> simp only [withIdentifier, Doctype.edit, extendIdentifier, pushTo,
    Option.getD_some, push_ofList]

theorem goes_identifierText {done id : List Char}
    (hid : ∀ c ∈ id, (isSolid c = true ∧ c ≠ '>') ∧ c ≠ quote.char)
    (h : At (.doctypeIdentifier which quote)
      (id ++ rest) (some (.doctype (withIdentifier d which done))) t) :
      Goes (At (.doctypeIdentifier which quote) rest
        (some (.doctype (withIdentifier d which (done ++ id))))) t := by
  induction id generalizing done t with
  | nil =>
    rw [List.append_nil]
    exact .here h
  | cons c id ih =>
    obtain ⟨⟨⟨hsolid, hclose⟩, hquote⟩, hid⟩ := List.forall_mem_cons.1 hid
    have hnull : c ≠ '\x00' := by
      simp only [isSolid, Bool.and_eq_true, bne_iff_ne] at hsolid
      exact hsolid.1
    rw [List.append_cons]
    refine h.goes fun t' h' _ _ _ => ih hid ?_
    simp only [handle, h'.state, List.cons_append, List.head?_cons, doctypeIdentifier, hquote,
      hnull, hclose, if_false]
    have hedit := h'.editDoctype (extendIdentifier c which)
    rwa [edit_extendIdentifier] at hedit

theorem freeQuote_not_mem {id : String} (h : IsIdentifier id) :
    (freeQuote id).char ∉ id.toList := by
  unfold freeQuote
  split
  · next hdouble => exact fun hsingle => h.quotes ⟨hdouble, hsingle⟩
  · next hdouble => exact hdouble

/-- An identifier in its quotes, where one may begin. -/
theorem goes_identifier {id : String} (hid : IsIdentifier id)
    (hs : s = .beforeDoctypeIdentifier which ∨ s = .betweenDoctypeIdentifiers ∧ which = .systemId)
    (h : At s (quotedIdentifier id ++ rest) (some (.doctype d)) t) :
    Goes (At (.afterDoctypeIdentifier which) rest
      (some (.doctype (withIdentifier d which id.toList)))) t := by
  have hfree := freeQuote_not_mem hid
  unfold quotedIdentifier at h
  generalize freeQuote id = quote at h hfree
  have hbegin : ∀ {t' : Tokenizer}, At s (id.toList ++ quote.char :: rest) (some (.doctype d)) t' →
      Goes (At (.afterDoctypeIdentifier which) rest
        (some (.doctype (withIdentifier d which id.toList))))
        (t'.beginIdentifier which quote) := fun h' => by
    have hbegun := (h'.editDoctype (emptyIdentifier which)).switchTo
      (.doctypeIdentifier which quote)
    have hempty : d.edit (emptyIdentifier which) = withIdentifier d which [] := by
      cases which <;> rfl
    rw [hempty] at hbegun
    have hall : ∀ c ∈ id.toList, (isSolid c = true ∧ c ≠ '>') ∧ c ≠ quote.char := fun c hc =>
      ⟨hid.chars c hc, fun heq => hfree (heq ▸ hc)⟩
    refine (goes_identifierText hall hbegun).trans fun t h => h.goes fun t' h' _ _ _ => ?_
    simp only [handle, h'.state, List.head?_cons, doctypeIdentifier, if_true]
    exact .here (h'.switchTo _)
  have hquote : Ascii.isBlank quote.char = false ∧ quote.char ≠ '>' ∧
      quote? quote.char = some quote := by
    cases quote <;> decide
  rw [List.cons_append, List.append_assoc] at h
  refine h.goes fun t' h' _ _ _ => ?_
  obtain rfl | ⟨rfl, rfl⟩ := hs
  · simp only [handle, h'.state, List.head?_cons, beforeDoctypeIdentifier, hquote,
      Bool.false_eq_true, if_false]
    exact hbegin h'
  · simp only [handle, h'.state, List.head?_cons, betweenDoctypeIdentifiers, hquote,
      Bool.false_eq_true, if_false]
    exact hbegin h'

theorem goes_keyword
    (h : At .doctypeName (' ' :: (which.keyword ++ ' ' :: rest)) (some (.doctype d)) t) :
    Goes (At (.beforeDoctypeIdentifier which) rest (some (.doctype d))) t := by
  refine h.goes fun t' h' _ _ _ => ?_
  simp only [handle, h'.state]
  refine (h'.switchTo .afterDoctypeName).goes fun t' h' hback _ _ => ?_
  rw [List.tail_cons] at hback
  have hword : t'.handle (which.keyword ++ ' ' :: rest).head? =
      { t' with input := t'.input.pushBack.skip which.keyword }.switchTo
      (.afterDoctypeKeyword which) := by
    simp only [handle, h'.state]
    cases which with
    | publicId =>
      have hpublic : Ascii.startsWithIgnoringCase publicKeyword
          (Identifier.publicId.keyword ++ ' ' :: rest) = true :=
        rfl
      simp only [afterDoctypeName, Cursor.startsWithIgnoringCase, hback, hpublic]
      rfl
    | systemId =>
      have hpublic : Ascii.startsWithIgnoringCase publicKeyword
          (Identifier.systemId.keyword ++ ' ' :: rest) = false :=
        rfl
      have hsystem : Ascii.startsWithIgnoringCase systemKeyword
          (Identifier.systemId.keyword ++ ' ' :: rest) = true :=
        rfl
      simp only [afterDoctypeName, Cursor.startsWithIgnoringCase, hback, hpublic, hsystem]
      rfl
  have hskip := (h'.pushBackSkip which.keyword).switchTo (.afterDoctypeKeyword which)
  rw [hback, List.drop_left] at hskip
  rw [List.tail_cons, hword]
  refine hskip.goes fun t h _ _ _ => ?_
  simp only [handle, h.state, List.head?_cons, afterDoctypeKeyword]
  exact .here (h.switchTo _)

/-- Where the declaration may end, a `>` finishes it. -/
theorem goes_doctypeClose (hs : s = .doctypeName ∨ ∃ which, s = .afterDoctypeIdentifier which)
    (h : At s ('>' :: rest) (some (.doctype d)) t) : Goes (Waits (.doctype d) rest) t := by
  refine h.goes fun t' h' _ _ _ => ?_
  have hclose : t'.handle (some '>') = t'.finish := by
    obtain rfl | ⟨which, rfl⟩ := hs
    · simp only [handle, h'.state]
      rfl
    · cases which <;> (simp only [handle, h'.state]; rfl)
  rw [List.head?_cons, hclose]
  exact .here (h'.finish (by simp))

theorem goes_betweenIdentifiers
    (h : At (.afterDoctypeIdentifier .publicId) (' ' :: rest) (some (.doctype d)) t) :
    Goes (At .betweenDoctypeIdentifiers rest (some (.doctype d))) t := by
  refine h.goes fun t' h' _ _ _ => ?_
  simp only [handle, h'.state]
  exact .here (h'.switchTo _)

theorem goes_identifiers {name : Option String} (hw : d.WellFormed)
    (h : At .doctypeName (d.identifiers ++ '>' :: rest) (some (.doctype { name })) t) :
    Goes (Waits (.doctype { d with name, forceQuirks := false }) rest) t := by
  have hpublic := hw.publicId
  have hsystem := hw.systemId
  unfold Doctype.identifiers at h
  generalize d.publicId = publicId, d.systemId = systemId at h hpublic hsystem ⊢
  match publicId, systemId, hpublic, hsystem with
  | none, none, _, _ => exact goes_doctypeClose (Or.inl rfl) h
  | some publicId, none, hpublic, _ =>
    simp only [List.cons_append, List.append_assoc] at h
    refine (goes_keyword h).trans fun t h =>
      (goes_identifier (hpublic _ rfl) (Or.inl rfl) h).trans fun t h => ?_
    have hgoes := goes_doctypeClose (Or.inr ⟨_, rfl⟩) h
    rwa [withIdentifier, String.ofList_toList] at hgoes
  | none, some systemId, _, hsystem =>
    simp only [List.cons_append, List.append_assoc] at h
    refine (goes_keyword h).trans fun t h =>
      (goes_identifier (hsystem _ rfl) (Or.inl rfl) h).trans fun t h => ?_
    have hgoes := goes_doctypeClose (Or.inr ⟨_, rfl⟩) h
    rwa [withIdentifier, String.ofList_toList] at hgoes
  | some publicId, some systemId, hpublic, hsystem =>
    simp only [List.cons_append, List.append_assoc] at h
    refine (goes_keyword h).trans fun t h =>
      (goes_identifier (hpublic _ rfl) (Or.inl rfl) h).trans fun t h => ?_
    refine (goes_betweenIdentifiers h).trans fun t h => ?_
    refine (goes_identifier (hsystem _ rfl) (Or.inr ⟨rfl, rfl⟩) h).trans fun t h => ?_
    have hgoes := goes_doctypeClose (Or.inr ⟨_, rfl⟩) h
    rwa [withIdentifier, withIdentifier, String.ofList_toList, String.ofList_toList] at hgoes

/-- A document type is read as it was written. -/
theorem goes_doctypeMarkup (hw : d.WellFormed) (hname : d.name ≠ none)
    (hquirks : d.forceQuirks = false) (h : At .data (d.markup ++ rest) none t) :
    Goes (Waits (.doctype d) rest) t := by
  obtain ⟨name, hname⟩ := Option.ne_none_iff_exists'.1 hname
  have hmarkup : d.markup ++ rest = '<' :: '!' :: 'D' :: 'O' :: 'C' :: 'T' :: 'Y' :: 'P' :: 'E' ::
      ' ' :: (name.toList ++ (d.identifiers ++ '>' :: rest)) := by
    simp [Doctype.markup, hname]
  rw [hmarkup] at h
  refine (goes_declaration h).trans fun t h => (goes_doctypeOpening h).trans fun t h => ?_
  refine (goes_beginName (hw.name name hname) h).trans fun t h => ?_
  have hgoes := goes_identifiers hw h
  rwa [← hname, ← hquirks] at hgoes

/-! ## 3. A whole text -/

/-- Every token is read as it was written. -/
theorem goes_markup (hw : token.Writable) (h : At .data (token.markup ++ rest) none t) :
    Goes (Waits token rest) t := by
  cases token with
  | doctype d => exact goes_doctypeMarkup hw.1 hw.2.1 hw.2.2 h
  | startTag tag => exact goes_startTagMarkup hw h
  | endTag tag =>
    obtain ⟨hname, hattributes, hclosing⟩ := hw
    refine goes_endTagMarkup hname ?_ h
    cases tag
    cases hattributes
    cases hclosing
    rfl
  | comment data => exact goes_commentMarkup hw h
  | character c => exact goes_character h
  | endOfFile => exact hw.elim

/-- A call for a token brings the one that was written next. -/
theorem At.nextToken (h : At .data (token.markup ++ rest) none t) (ht : Between t)
    (hw : token.Writable) (foreign : Bool) :
    (t.nextToken foreign).1.token = token ∧ At .data rest none (t.nextToken foreign).2 := by
  have hgoes := (goes_markup hw (h.setForeign foreign)).trans fun t h => .here h.pulls
  obtain ⟨p, t', hpulls, rfl, hrest⟩ := hgoes.pulls
  obtain ⟨rfl, rfl⟩ := hpulls.unique (ht.pulls_nextToken foreign)
  exact ⟨rfl, hrest⟩

/-- When nothing is left, it brings the end of the input. -/
theorem At.nextToken_nil (h : At .data [] none t) (ht : Between t) (foreign : Bool) :
    (t.nextToken foreign).1.token = .endOfFile := by
  have hgoes : Goes (fun t => ∃ p t', Pulls t p t' ∧ p.token = .endOfFile) { t with foreign } := by
    refine (h.setForeign foreign).goes fun t' h' _ _ _ => ?_
    simp only [handle, h'.state]
    have hpending : t'.emitEnd.pending = [⟨.endOfFile, t'.input.position⟩] := by
      show t'.pending ++ [⟨.endOfFile, t'.input.position⟩] = _
      rw [h'.pending, List.nil_append]
    exact .here ⟨_, _, .queued hpending, rfl⟩
  obtain ⟨p, t', hpulls, hend⟩ := hgoes.pulls
  rwa [(hpulls.unique (ht.pulls_nextToken foreign)).1] at hend

theorem map_collect {ts : List Token} {fuel : Nat} (hw : ∀ token ∈ ts, token.Writable)
    (ht : Between t) (h : At .data (ts.flatMap Token.markup) none t) (hfuel : t.remaining ≤ fuel) :
    (collect false fuel t).1.map (·.token) = ts ++ [.endOfFile] := by
  induction ts generalizing fuel t with
  | nil =>
    have hremaining : 0 < t.remaining := by
      unfold remaining
      rw [h.ended]
      exact Nat.lt_of_lt_of_le (Nat.succ_pos _) (Nat.le_add_left _ _)
    obtain ⟨fuel, rfl⟩ := Nat.exists_eq_succ_of_ne_zero (n := fuel) (by omega)
    have hend := h.nextToken_nil ht false
    simp [collect, hend]
  | cons token ts ih =>
    rw [List.flatMap_cons] at h
    obtain ⟨hfirst, hw⟩ := List.forall_mem_cons.1 hw
    obtain ⟨htoken, hrest⟩ := h.nextToken ht hfirst false
    have hne : (t.nextToken false).1.token ≠ .endOfFile := fun heq => by
      rw [← htoken, heq] at hfirst
      exact hfirst
    obtain ⟨hend, -⟩ | ⟨-, hless⟩ := ht.delivered false
    · exact absurd hend hne
    · obtain ⟨fuel, rfl⟩ := Nat.exists_eq_succ_of_ne_zero (n := fuel) (by omega)
      have hmore := ih hw (ht.nextToken false) hrest (show _ ≤ fuel by omega)
      simp only [collect]
      rw [if_neg hne, List.map_cons, hmore, htoken, List.cons_append]

/-- The tokens of a written text are those that were written, and the end of the input. -/
theorem run_print {ts : List Token} (h : ∀ token ∈ ts, token.Writable) :
    (ofString (print ts)).run.1 = ts ++ [.endOfFile] := by
  have hat : At .data (ts.flatMap Token.markup) none (ofString (print ts)) :=
    ⟨rfl, normalizeNewlines_print h, rfl, rfl, rfl, rfl⟩
  exact map_collect h (between_ofString _) hat (remaining_le_tokenLimit _)

/-- Everything that is written in a way of its own: an identifier with a double quote in it, an
equals sign at the front of a name, a carriage return in a value, a comment that ends like its
closing, and an angle bracket. -/
theorem run_print_mixed :
    let ts : List Token :=
      [.doctype { name := some "a", publicId := some "\x22", systemId := some "\x27" }, .startTag
        { name := "p", selfClosing := true, attributes := [{ name := "=", value := "\r&\x22" }] },
      .comment "--!", .character '<', .character '\x00', .endTag { name := "p" }]
    (∀ token ∈ ts, token.Writable) ∧ (ofString (print ts)).run.1 = ts ++ [.endOfFile] := by
  intro ts
  have hname : IsTagName "p" := ⟨by decide, List.all_eq_true.1 (by decide)⟩
  have hid {id : String} (hall : (id.toList.all fun x => isSolid x && x != '>') = true)
      (hquotes : ¬ ('\x22' ∈ id.toList ∧ '\x27' ∈ id.toList)) : IsIdentifier id :=
      ⟨bogus_of_all hall, hquotes⟩
  have hdoctype : ({ name := some "a", publicId := some "\x22", systemId := some "\x27" } :
      Doctype).WellFormed := by
    refine ⟨fun _ h => ?_, fun _ h => ?_, fun _ h => ?_⟩ <;> cases h
    · exact ⟨by decide, List.all_eq_true.1 (by decide)⟩
    · exact hid (by decide) (by decide)
    · exact hid (by decide) (by decide)
  have hattribute : ({ name := "=", value := "\r&\x22" } : Attribute).WellFormed :=
    ⟨⟨by decide, List.all_eq_true.1 (by decide), by decide⟩, by decide⟩
  have hcomment : IsCommentText ['-', '-', '!'] :=
    isCommentText_append .nil (bogus_of_all (by decide))
  have hwritable : ∀ token ∈ ts, token.Writable := by
    simp only [ts, List.forall_mem_cons]
    refine ⟨⟨hdoctype, nofun, rfl⟩, ⟨hname, by decide, by simpa using hattribute⟩, hcomment,
      trivial, trivial, ⟨hname, rfl, rfl⟩, nofun⟩
  exact ⟨hwritable, run_print hwritable⟩

end Hypertext.Tokenizer
