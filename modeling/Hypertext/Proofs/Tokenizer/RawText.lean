import Hypertext.Proofs.Tokenizer.Spelling

/-!
# The text of raw text elements

Raw text, scripts, plain text and CDATA sections are delivered as they are read, up to the end tag
that fits or to the end of the section. What looked like an end tag, an escape or a closing bracket,
and was none, is text.
-/

namespace Hypertext

/-! ## 1. Where raw text may end -/

/-- Whether a name ends before the next character of an end tag. -/
def endsTagName (c : Char) : Bool := Ascii.isBlank c || c == '/' || c == '>'

/-- Whether the name comes next, in any case, and ends there. -/
def nameFollows (name text : List Char) : Bool :=
  Ascii.startsWithIgnoringCase name text && (text.drop name.length).head?.any endsTagName

/-- Whether an end tag of this name comes next. -/
def closesRawText (name : List Char) : List Char → Bool
  | '<' :: '/' :: rest => nameFollows name rest
  | _ => false

theorem endsTagName_of_isAlpha {c : Char} (h : c.isAlpha = true) : endsTagName c = false := by
  refine Bool.eq_false_iff.2 fun hend => ?_
  simp only [endsTagName, Ascii.isBlank, Bool.or_eq_true, beq_iff_eq] at hend
  obtain ((((rfl | rfl) | rfl) | rfl) | rfl) | rfl := hend <;> cases h

theorem isAlpha_of_toLower {c : Char} (h : c.toLower.isLower = true) : c.isAlpha = true := by
  obtain ⟨-, heq⟩ | ⟨hupper, -⟩ := toLower_cases c
  · rw [heq] at h
    exact Bool.or_eq_true_iff.2 (Or.inr h)
  · exact Bool.or_eq_true_iff.2 (Or.inl hupper)

/-- The name follows if it is made of the letters that come next, all of them. -/
theorem nameFollows_append {name letters rest : List Char} (hname : ∀ c ∈ name, c.isLower = true)
    (hletters : ∀ c ∈ letters, c.isAlpha = true) (hrest : rest.head?.any Char.isAlpha = false) :
    nameFollows name (letters ++ rest) =
      (letters.map Char.toLower == name && rest.head?.any endsTagName) := by
  -- the letters are as many as the name has, or one of the two goes on with what the other
  -- cannot have
  induction name generalizing letters with
  | nil =>
    cases letters with
    | nil => rfl
    | cons c letters =>
      show endsTagName c = false
      exact endsTagName_of_isAlpha (hletters c List.mem_cons_self)
  | cons x name ih =>
    obtain ⟨hx, hname⟩ := List.forall_mem_cons.1 hname
    have hsame (c : Char) : Ascii.sameLetter c x = (c.toLower == x) := by
      rw [Ascii.sameLetter, toLower_of_isLower hx]
    cases letters with
    | nil =>
      cases rest with
      | nil => rfl
      | cons c rest =>
        have hne : (c.toLower == x) = false := by
          refine Bool.eq_false_iff.2 fun heq => ?_
          have halpha : c.isAlpha = true := isAlpha_of_toLower (eq_of_beq heq ▸ hx)
          rw [List.head?_cons, Option.any_some, halpha] at hrest
          cases hrest
        show (Ascii.sameLetter c x && _ && _) = false
        rw [hsame, hne]
        rfl
    | cons c letters =>
      obtain ⟨-, hletters⟩ := List.forall_mem_cons.1 hletters
      have hmore := ih hname hletters
      unfold nameFollows at hmore ⊢
      show (Ascii.sameLetter c x && Ascii.startsWithIgnoringCase name (letters ++ rest) &&
        ((letters ++ rest).drop name.length).head?.any endsTagName) = _
      rw [hsame, Bool.and_assoc, hmore, List.map_cons, ← Bool.and_assoc]
      rfl

namespace Tokenizer

variable {S : State → Prop} {answers : Nat → Bool} {last : Option String} {name : String}
  {script : Bool} {kind : RawText} {s : State} {text ahead rest done : List Char}
  {current : Option Token} {t t' : Tokenizer} {c : Char} {p : PositionedToken}

/-! ## 2. Where text ends -/

/-- No character comes next: another token waits, or the attributes of a tag are being read. -/
def Leaves (t : Tokenizer) : Prop :=
  (∃ p waiting, t.pending = p :: waiting ∧ ∀ c, p.token ≠ .character c) ∨
    t.pending = [] ∧ t.ended = false ∧ InTag t

/-- The attributes of a tag are read up to its end or to the end of the input, whatever they are. -/
theorem Leaves.ne_character (h : Leaves t) (ht : Between t ∨ Midway t) (hpulls : Pulls t p t')
    (c : Char) : p.token ≠ .character c := by
  -- by induction on the steps of the call; until one finishes the tag, its attributes
  -- are being read
  induction hpulls with
  | queued hp =>
    obtain ⟨q, waiting, hp', hq⟩ | ⟨hp', -⟩ := h
    · obtain ⟨rfl, -⟩ := List.cons.inj (hp.symm.trans hp')
      exact hq c
    · rw [hp] at hp'
      cases hp'
  | ended => exact nofun
  | step hp he _ ih =>
    have hmid := ht.elim (fun hb => hb.midway hp he) id
    obtain ⟨q, waiting, hp', -⟩ | ⟨-, -, hin⟩ := h
    · rw [hp] at hp'
      cases hp'
    · refine ih ?_ hmid.step
      cases stepped_step hmid.fitsZone hp with
      | reads z hr =>
        have hz : z = .attributes := hr.zone.symm.trans (hr.inTag hin).zone
        exact Or.inr ⟨hr.pending_eq_nil (hz ▸ rfl), hr.ended.trans he, hr.inTag hin⟩
      | ends _ _ _ _ pending _ inTag =>
        obtain ⟨waiting, position, hpending, -⟩ := pending
        obtain ⟨q, more, hcons⟩ :=
          List.exists_cons_of_ne_nil (l := waiting ++ [⟨.endOfFile, position⟩]) (by simp)
        refine Or.inl ⟨q, more, hpending.trans hcons, fun c hc => ?_⟩
        rw [inTag hin q (by rw [hpending, hcons]; exact List.mem_cons_self)] at hc
        cases hc
      | finishes q _ _ _ pending _ _ _ _ mark => exact Or.inl ⟨q, [], pending, mark⟩

theorem leaves_emitEnd (hp : t.pending = []) : Leaves t.emitEnd := by
  refine Or.inl ⟨⟨.endOfFile, t.input.position⟩, [], ?_, nofun⟩
  show t.pending ++ [_] = _
  rw [hp, List.nil_append]

theorem leaves_finish {tag : Tag} (hp : t.pending = []) (hc : t.current = some (.endTag tag)) :
    Leaves t.finish := by
  have hfits : (t.switchTo .data).duplicate = true →
      ∀ token, (t.switchTo .data).current = some token →
      Zone.attributes.admits token = true := fun _ token ht => by
    obtain rfl := Option.some.inj (hc.symm.trans ht)
    rfl
  obtain ⟨errors, ⟨hnone, -⟩ | ⟨p, hout, last, -, -, heq⟩⟩ := emitCurrent_eq hfits
  · exact absurd (hc.symm.trans hnone) nofun
  · refine Or.inl ⟨p, [], ?_, fun c hchar => ?_⟩
    · rw [finish, heq]
      show t.pending ++ [p] = [p]
      rw [hp, List.nil_append]
    · have hout : t.current.map Token.outline = some p.token.outline := hout
      rw [hc, hchar] at hout
      cases hout

/-- The calls deliver a text, one character each, and no further character then. -/
def Brings (answers : Nat → Bool) (t : Tokenizer) (text : List Char) : Prop :=
  (∀ n (hn : n < text.length), (t.delivery answers n).token = .character text[n]) ∧
    ∀ c, (t.delivery answers text.length).token ≠ .character c

theorem Between.brings (ht : Between t)
    (h : Spells S Leaves (fun n => answers (n + 1)) text { t with foreign := answers 0 }) :
    Brings answers t text := by
  obtain ⟨hdelivered, hgoes⟩ := ht.deliveries answers h
  refine ⟨fun n hn => (hdelivered n hn).1, fun c => ?_⟩
  have hb := ht.after answers text.length
  have hmid := hgoes.midway (Or.inl (hb.setForeign _))
  obtain ⟨t₁, ⟨hleaves, ht₁⟩, hpulls⟩ := hmid.exists_pulls (hb.pulls_nextToken _)
  exact hleaves.ne_character ht₁ hpulls c

/-! ## 3. End tags -/

/-- The states in which the text of an element is read; in a script they are many. -/
def covers (script : Bool) : State → Bool
  | .text .rawtext => !script
  | .text .scriptData | .text .scriptDataEscaped | .scriptDataEscapeStart
  | .scriptDataEscapeStartDash | .scriptDataEscapedDash | .scriptDataEscapedDashDash
  | .scriptDataDoubleEscapeStart | .scriptDataDoubleEscaped | .scriptDataDoubleEscapedDash
  | .scriptDataDoubleEscapedDashDash | .scriptDataDoubleEscapedLessThanSign
  | .scriptDataDoubleEscapeEnd => script
  | _ => false

/-- The text ahead is read further: it ends here, or characters have been delivered. Outside scripts
no end tag that fits is passed over. -/
def Passes (answers : Nat → Bool) (name : String) (script : Bool) (ahead : List Char)
    (t : Tokenizer) : Prop :=
  (ahead = [] ∨ closesRawText name.toList ahead = true) ∧ Goes Leaves t ∨
    ∃ done rest s, ahead = done ++ rest ∧ done ≠ [] ∧ covers script s = true ∧
      (script = false → closesRawText name.toList ahead = false ∧ '<' ∉ done.tail) ∧
      Spells (fun _ => True) (Owes (some name) [] s rest none) answers (done.map denull) t

theorem Passes.step (h : Passes answers name script ahead t.step) (hp : t.pending = [])
    (he : t.ended = false) : Passes answers name script ahead t := by
  obtain ⟨hcloses, hgoes⟩ | ⟨done, rest, s, heq, hne, hs, hraw, hspells⟩ := h
  · exact Or.inl ⟨hcloses, .step hp he hgoes⟩
  · exact Or.inr ⟨done, rest, s, heq, hne, hs, hraw, .step hp he hspells⟩

/-- One step reads the next character and can put it back. -/
theorem Owes.passes_step (h : Owes (some name) [] s ahead current t)
    (hP : Owes (some name) [] s ahead.tail current t.consume →
      t.consume.input.pushBack.ahead = ahead →
      Passes answers name script text (t.consume.handle ahead.head?)) :
      Passes answers name script text t := by
  obtain ⟨hread, hback, hstep⟩ := h.consume
  exact Passes.step (hstep ▸ hP hread hback) h.pending_eq_nil h.ended

/-- What waits has been read as text. -/
theorem Owes.passes {chars : List Char} (done : List Char)
    (h : Owes (some name) chars s rest none t)
    (hs : covers script s = true) (hchars : done.map denull = chars) (hne : done ≠ [])
    (hraw : script = false → closesRawText name.toList (done ++ rest) = false ∧ '<' ∉ done.tail) :
    Passes answers name script (done ++ rest) t := by
  subst hchars
  exact Or.inr ⟨done, rest, s, rfl, hne, hs, hraw, h.spells trivial⟩

theorem closesRawText_of_ne {name : List Char} (hc : c ≠ '<') :
    closesRawText name (c :: rest) = false := by
  unfold closesRawText
  split
  · next heq =>
    cases heq
    exact absurd rfl hc
  · rfl

theorem Owes.passes_char (h : Owes (some name) [denull c] s rest none t)
    (hs : covers script s = true) (hc : script = false → c ≠ '<') :
    Passes answers name script (c :: rest) t :=
  h.passes [c] hs rfl (List.cons_ne_nil _ _) fun hraw =>
    ⟨closesRawText_of_ne (hc hraw), List.not_mem_nil⟩

/-- What looked like an end tag is text after all. -/
theorem Owes.abandonEndTag (h : Owes last [] s rest current t)
    (hback : t.input.pushBack.ahead = ahead) (kind : RawText) :
    Owes last ('<' :: '/' :: t.buffer) (.text kind) ahead none (t.abandonEndTag kind) := by
  have hchars := ((h.emitChar '<').emitChar '/').emitChars t.buffer
  have hinput : (((t.emitChar '<').emitChar '/').emitChars t.buffer).input = t.input := by
    rw [emitChars_eq]
    rfl
  exact (hchars.setCurrent none).reconsumeIn ((congrArg (·.pushBack.ahead) hinput).trans hback)
    (.text kind)

theorem Owes.isAppropriateEndTag_eq
    (h : Owes (some name) [] s ahead
      (some (.endTag { name := String.ofList (done.map Char.toLower) })) t) :
    t.isAppropriateEndTag = (done.map Char.toLower == name.toList) := by
  simp only [isAppropriateEndTag, h.last, h.current]
  rw [Bool.eq_iff_iff, beq_iff_eq, beq_iff_eq]
  exact ⟨fun heq => by rw [← heq, String.toList_ofList],
    fun heq => by rw [heq, String.ofList_toList]⟩

theorem ne_of_isAlpha (h : c.isAlpha = true) : c ≠ '<' ∧ c ≠ '/' ∧ c ≠ '>' ∧ c ≠ '\x00' := by
  refine ⟨?_, ?_, ?_, ?_⟩ <;> rintro rfl <;> cases h

/-- An end tag of another name is text, its angle bracket and its solidus included. -/
theorem Owes.passes_abandoned (h : Owes (some name) [] s rest current t)
    (hback : t.input.pushBack.ahead = ahead) (hk : covers script (.text kind) = true)
    (hbuffer : t.buffer = done) (hdone : ∀ c ∈ done, c.isAlpha = true)
    (hcloses : closesRawText name.toList ('<' :: '/' :: (done ++ ahead)) = false) :
    Passes answers name script ('<' :: '/' :: (done ++ ahead)) (t.abandonEndTag kind) := by
  have hnot : ∀ x ∈ done, x ≠ '<' ∧ x ≠ '\x00' := fun x hx =>
    ⟨(ne_of_isAlpha (hdone x hx)).1, (ne_of_isAlpha (hdone x hx)).2.2.2⟩
  have hdenull : ('<' :: '/' :: done).map denull = '<' :: '/' :: done :=
    map_denull (by simpa using fun hmem => (hnot _ hmem).2 rfl)
  have hangle : '<' ∉ '/' :: done := by simpa using fun hmem => (hnot _ hmem).1 rfl
  have htext := h.abandonEndTag hback kind
  rw [hbuffer] at htext
  exact htext.passes ('<' :: '/' :: done) hk hdenull (List.cons_ne_nil _ _) fun _ =>
    ⟨hcloses, hangle⟩

/-- The letters of an end tag are held back until its name has ended. -/
theorem passes_endTagName {letters : List Char} (done : List Char)
    (hk : covers script (.text kind) = true)
    (hname : ∀ c ∈ name.toList, c.isLower = true) (hletters : ∀ c ∈ letters, c.isAlpha = true)
    (hrest : rest.head?.any Char.isAlpha = false) (hbuffer : t.buffer = done)
    (hdone : ∀ c ∈ done, c.isAlpha = true)
    (h : Owes (some name) [] (.textEndTagName kind) (letters ++ rest)
      (some (.endTag { name := String.ofList (done.map Char.toLower) })) t) :
    Passes answers name script ('<' :: '/' :: (done ++ (letters ++ rest))) t := by
  -- by induction on the letters; each goes to the name of the tag, in lower case, and to the buffer
  induction letters generalizing t done with
  | cons c letters ih =>
    obtain ⟨hc, hletters⟩ := List.forall_mem_cons.1 hletters
    obtain ⟨-, hslash, hclose, -⟩ := ne_of_isAlpha hc
    have hblank : Ascii.isBlank c = false := by
      have hends := endsTagName_of_isAlpha hc
      simp only [endsTagName, Bool.or_eq_false_iff] at hends
      exact hends.1.1
    refine h.passes_step fun h' _ => ?_
    have hedit := h'.edit (e := .tag (.name c.toLower)) rfl
    have hpush : String.ofList ((done ++ [c]).map Char.toLower) =
        (String.ofList (done.map Char.toLower)).push c.toLower := by
      rw [push_ofList, List.map_append]
      rfl
    simp only [handle, h'.state, List.cons_append, List.head?_cons, textEndTagName, hblank,
      hslash, hclose, hc, Bool.false_and, Bool.false_eq_true, false_and, if_false, if_true, editTag,
      hedit, buffer_consume, hbuffer]
    rw [List.append_cons]
    have hmore : ∀ x ∈ done ++ [c], x.isAlpha = true := by
      simpa [or_imp, forall_and] using ⟨hdone, hc⟩
    refine ih (done ++ [c]) hletters rfl hmore ?_
    rw [hpush]
    exact ⟨rfl, h'.ahead, rfl, h'.pending, h'.ended, h'.last⟩
  | nil =>
    -- the name has ended, and whether it fits is decided by what comes next
    refine h.passes_step fun h' hback => ?_
    have hbuffer : t.consume.buffer = done := (buffer_consume t).trans hbuffer
    have hfits := h'.isAppropriateEndTag_eq
    have hcloses : closesRawText name.toList ('<' :: '/' :: (done ++ rest)) =
        (t.consume.isAppropriateEndTag && rest.head?.any endsTagName) :=
      (nameFollows_append hname hdone hrest).trans (by rw [hfits])
    have habandon (hnot : (t.consume.isAppropriateEndTag && rest.head?.any endsTagName) = false) :
        Passes answers name script ('<' :: '/' :: (done ++ rest)) (t.consume.abandonEndTag kind) :=
      h'.passes_abandoned hback hk hbuffer hdone (hcloses.trans hnot)
    -- the end tag goes on with attributes, unless it ends here
    have hattributes {s' : State} (hs : s'.zone? = some .attributes)
        (hyes : (t.consume.isAppropriateEndTag && rest.head?.any endsTagName) = true) :
        Passes answers name script ('<' :: '/' :: (done ++ rest)) (t.consume.switchTo s') := by
      refine Or.inl ⟨Or.inr (hcloses.trans hyes),
        .here (Or.inr ⟨h'.pending_eq_nil, h'.ended, zone_switchTo hs, ?_⟩)⟩
      show t.consume.current ≠ none
      rw [h'.current]
      exact Option.some_ne_none _
    rw [List.nil_append]
    cases rest with
    | nil =>
      simp only [handle, h'.state]
      exact habandon (Bool.and_false _)
    | cons c rest =>
      have hc : c.isAlpha = false := hrest
      simp only [handle, h'.state, List.head?_cons, textEndTagName, hc, Bool.false_eq_true,
        if_false, Bool.and_eq_true]
      split_ifs with hblank hslash hclose
      · exact hattributes rfl (by simp [hblank, endsTagName])
      · exact hattributes rfl (by simp [hslash, endsTagName])
      · exact Or.inl ⟨Or.inr (hcloses.trans (by simp [hclose, endsTagName])),
          .here (leaves_finish h'.pending_eq_nil h'.current)⟩
      · refine habandon ?_
        simp only [List.head?_cons, Option.any_some, endsTagName]
        grind

theorem passes_endTagOpen (hk : covers script (.text kind) = true)
    (hname : ∀ c ∈ name.toList, c.isLower = true) (hne : name ≠ "") (hbuffer : t.buffer = [])
    (h : Owes (some name) [] (.textEndTagOpen kind) ahead none t) :
    Passes answers name script ('<' :: '/' :: ahead) t := by
  refine h.passes_step fun h' hback => ?_
  simp only [handle, h'.state, textEndTagOpen]
  split_ifs with halpha
  · obtain ⟨letters, rest, rfl, hletters, hrest⟩ := exists_run Char.isAlpha ahead
    have hbegun := (h'.setCurrent (some (.endTag {}))).reconsumeIn hback (.textEndTagName kind)
    exact passes_endTagName [] hk hname hletters hrest ((buffer_consume t).trans hbuffer)
      (by simp) hbegun
  · -- the name would have at least one letter
    have hfollows : nameFollows name.toList ahead = false := by
      have heq : nameFollows name.toList ([] ++ ahead) =
          (([] : List Char).map Char.toLower == name.toList && ahead.head?.any endsTagName) :=
        nameFollows_append hname (by simp) (Bool.eq_false_iff.2 halpha)
      have hnil : ([] == name.toList) = false := by
        cases hlist : name.toList with
        | nil => exact absurd (String.toList_eq_nil_iff.1 hlist) hne
        | cons => rfl
      rwa [List.nil_append, List.map_nil, hnil, Bool.false_and] at heq
    have htext := ((h'.emitChar '<').emitChar '/').reconsumeIn hback (.text kind)
    exact htext.passes ['<', '/'] hk rfl (List.cons_ne_nil _ _) fun _ => ⟨hfollows, by decide⟩

/-- An angle bracket is text, unless the end tag that fits begins with it. -/
theorem passes_lessThanSign (hk : covers script (.text kind) = true)
    (hname : ∀ c ∈ name.toList, c.isLower = true)
    (hne : name ≠ "") (h : Owes (some name) [] (.textLessThanSign kind) ahead none t) :
    Passes answers name script ('<' :: ahead) t := by
  refine h.passes_step fun h' hback => ?_
  simp only [handle, h'.state, textLessThanSign]
  split_ifs with hslash hbang halpha
  · -- an end tag may begin
    obtain ⟨rest, rfl⟩ := List.head?_eq_some_iff.1 hslash
    exact passes_endTagOpen hk hname hne rfl ((h'.buffer []).switchTo (.textEndTagOpen kind))
  · -- a script may be escaped from here on
    obtain ⟨rfl, hc⟩ := hbang
    obtain ⟨rest, rfl⟩ := List.head?_eq_some_iff.1 hc
    have hscript : script = true := hk
    have htext := ((h'.switchTo .scriptDataEscapeStart).emitChar '<').emitChar '!'
    exact htext.passes ['<', '!'] hscript rfl (List.cons_ne_nil _ _) fun hraw => by
      rw [hscript] at hraw
      cases hraw
  · -- a script may begin within an escaped one
    obtain ⟨rfl, -⟩ := halpha
    have hscript : script = true := hk
    have htext := ((h'.buffer []).emitChar '<').reconsumeIn hback .scriptDataDoubleEscapeStart
    exact htext.passes ['<'] hscript rfl (List.cons_ne_nil _ _) fun hraw => by
      rw [hscript] at hraw
      cases hraw
  · -- otherwise what follows it does not begin an end tag
    have htext := (h'.emitChar '<').reconsumeIn hback (.text kind)
    refine htext.passes ['<'] hk rfl (List.cons_ne_nil _ _) fun _ => ⟨?_, List.not_mem_nil⟩
    cases ahead with
    | nil => rfl
    | cons c rest =>
      show closesRawText name.toList ('<' :: c :: rest) = false
      unfold closesRawText
      split
      · next heq =>
        cases heq
        exact absurd rfl hslash
      · rfl

/-! ## 4. Text -/

theorem Owes.emits (h : Owes last [] s rest current t) (hnull : c ≠ '\x00') :
    Owes last [denull c] s rest current (t.emitChar c) := by
  rw [denull_of_ne hnull]
  exact h.emitChar c

theorem Owes.rawCharacter (h : Owes last [] s rest current t) (c : Char) :
    Owes last [denull c] s rest current (t.rawCharacter (some c)) := by
  simp only [Tokenizer.rawCharacter]
  split_ifs with hnull
  · subst hnull
    exact (h.report .unexpectedNullCharacter).emitChar '\uFFFD'
  · exact h.emits hnull

/-- The next character is text; a null is replaced, and at the end of the input nothing is left. -/
theorem Owes.passes_rawCharacter (h : Owes (some name) [] s ahead.tail none t)
    (hs : covers script s = true) (hc : script = false → ahead.head? ≠ some '<') :
    Passes answers name script ahead (t.rawCharacter ahead.head?) := by
  cases ahead with
  | nil => exact Or.inl ⟨Or.inl rfl, .here (leaves_emitEnd h.pending_eq_nil)⟩
  | cons c rest =>
    exact (h.rawCharacter c).passes_char hs fun hraw heq => hc hraw (congrArg some heq)

theorem Owes.passes_escapedCharacter {s' : State} (h : Owes (some name) [] s ahead.tail none t)
    (hs : covers true s' = true) :
    Passes answers name true ahead (t.escapedCharacter s' ahead.head?) := by
  cases ahead with
  | nil => exact Or.inl ⟨Or.inl rfl, .here (leaves_emitEnd h.pending_eq_nil)⟩
  | cons c rest =>
    simp only [List.head?_cons, escapedCharacter]
    split_ifs with hnull
    · subst hnull
      exact (((h.report .unexpectedNullCharacter).switchTo s').emitChar '\uFFFD').passes_char hs
        (by simp)
    · exact ((h.switchTo s').emits hnull).passes_char hs (by simp)

/-- A character that means something to a script is text of the script as well. -/
theorem Owes.passes_marked (h : Owes (some name) [] s ahead.tail none t) (hs : covers true s = true)
    (hc : ahead.head? = some c) (hnull : c ≠ '\x00') :
    Passes answers name true ahead (t.emitChar c) := by
  obtain ⟨rest, rfl⟩ := List.head?_eq_some_iff.1 hc
  exact (h.emits hnull).passes_char hs nofun

section

variable (hname : ∀ c ∈ name.toList, c.isLower = true) (hne : name ≠ "")
include hname hne

theorem Owes.passes_angle (h : Owes (some name) [] s ahead.tail none t)
    (hk : covers script (.text kind) = true) (hc : ahead.head? = some '<') :
    Passes answers name script ahead (t.markStart.switchTo (.textLessThanSign kind)) := by
  obtain ⟨rest, rfl⟩ := List.head?_eq_some_iff.1 hc
  exact passes_lessThanSign hk hname hne (h.markStart.switchTo _)

theorem passes_text (hk : covers script (.text kind) = true)
    (h : Owes (some name) [] (.text kind) ahead none t) : Passes answers name script ahead t := by
  refine h.passes_step fun h' _ => ?_
  simp only [handle, h'.state, text]
  split
  · next hangle => exact h'.passes_angle hname hne hk hangle
  · next hangle =>
    cases kind with
    | rcdata => cases hk
    | rawtext | scriptData => exact h'.passes_rawCharacter hk fun _ => hangle
    | scriptDataEscaped =>
      obtain rfl : script = true := hk
      dsimp only
      split_ifs with hdash
      · exact (h'.switchTo .scriptDataEscapedDash).passes_marked rfl hdash (by decide)
      · exact h'.passes_escapedCharacter rfl

theorem passes_escapeStart (h : Owes (some name) [] .scriptDataEscapeStart ahead none t) :
    Passes answers name true ahead t := by
  refine h.passes_step fun h' hback => ?_
  simp only [handle, h'.state, scriptDataEscapeStart]
  split_ifs with hdash
  · exact (h'.switchTo .scriptDataEscapeStartDash).passes_marked rfl hdash (by decide)
  · exact passes_text hname hne rfl (h'.reconsumeIn hback (.text .scriptData))

theorem passes_escapeStartDash (h : Owes (some name) [] .scriptDataEscapeStartDash ahead none t) :
    Passes answers name true ahead t := by
  refine h.passes_step fun h' hback => ?_
  simp only [handle, h'.state, scriptDataEscapeStartDash]
  split_ifs with hdash
  · exact (h'.switchTo .scriptDataEscapedDashDash).passes_marked rfl hdash (by decide)
  · exact passes_text hname hne rfl (h'.reconsumeIn hback (.text .scriptData))

theorem passes_escapedDash (h : Owes (some name) [] .scriptDataEscapedDash ahead none t) :
    Passes answers name true ahead t := by
  refine h.passes_step fun h' _ => ?_
  simp only [handle, h'.state, scriptDataEscapedDash]
  split_ifs with hdash hangle
  · exact (h'.switchTo .scriptDataEscapedDashDash).passes_marked rfl hdash (by decide)
  · exact h'.passes_angle hname hne rfl hangle
  · exact h'.passes_escapedCharacter rfl

theorem passes_escapedDashDash (h : Owes (some name) [] .scriptDataEscapedDashDash ahead none t) :
    Passes answers name true ahead t := by
  refine h.passes_step fun h' _ => ?_
  simp only [handle, h'.state, scriptDataEscapedDashDash]
  split_ifs with hdash hangle hclose
  · exact h'.passes_marked rfl hdash (by decide)
  · exact h'.passes_angle hname hne rfl hangle
  · exact (h'.switchTo (.text .scriptData)).passes_marked rfl hclose (by decide)
  · exact h'.passes_escapedCharacter rfl

end

theorem passes_doubleEscaped (h : Owes (some name) [] .scriptDataDoubleEscaped ahead none t) :
    Passes answers name true ahead t := by
  refine h.passes_step fun h' _ => ?_
  simp only [handle, h'.state, scriptDataDoubleEscaped]
  split_ifs with hdash hangle
  · exact (h'.switchTo .scriptDataDoubleEscapedDash).passes_marked rfl hdash (by decide)
  · exact (h'.switchTo .scriptDataDoubleEscapedLessThanSign).passes_marked rfl hangle (by decide)
  · exact h'.passes_escapedCharacter rfl

theorem passes_doubleEscapedDash
    (h : Owes (some name) [] .scriptDataDoubleEscapedDash ahead none t) :
    Passes answers name true ahead t := by
  refine h.passes_step fun h' _ => ?_
  simp only [handle, h'.state, scriptDataDoubleEscapedDash]
  split_ifs with hdash hangle
  · exact (h'.switchTo .scriptDataDoubleEscapedDashDash).passes_marked rfl hdash (by decide)
  · exact (h'.switchTo .scriptDataDoubleEscapedLessThanSign).passes_marked rfl hangle (by decide)
  · exact h'.passes_escapedCharacter rfl

theorem passes_doubleEscapedDashDash
    (h : Owes (some name) [] .scriptDataDoubleEscapedDashDash ahead none t) :
    Passes answers name true ahead t := by
  refine h.passes_step fun h' _ => ?_
  simp only [handle, h'.state, scriptDataDoubleEscapedDashDash]
  split_ifs with hdash hangle hclose
  · exact h'.passes_marked rfl hdash (by decide)
  · exact (h'.switchTo .scriptDataDoubleEscapedLessThanSign).passes_marked rfl hangle (by decide)
  · exact (h'.switchTo (.text .scriptData)).passes_marked rfl hclose (by decide)
  · exact h'.passes_escapedCharacter rfl

theorem passes_doubleEscapedLessThanSign
    (h : Owes (some name) [] .scriptDataDoubleEscapedLessThanSign ahead none t) :
    Passes answers name true ahead t := by
  refine h.passes_step fun h' hback => ?_
  simp only [handle, h'.state, scriptDataDoubleEscapedLessThanSign]
  split_ifs with hslash
  · exact ((h'.buffer []).switchTo .scriptDataDoubleEscapeEnd).passes_marked rfl hslash (by decide)
  · exact passes_doubleEscaped (h'.reconsumeIn hback .scriptDataDoubleEscaped)

/-- The name after an angle bracket in an escaped script is text, whatever it is. -/
theorem Owes.passes_boundary {s₁ s₂ : State} (h : Owes (some name) [] s ahead.tail none t)
    (hback : t.input.pushBack.ahead = ahead) (hs : covers true s = true)
    (hs₁ : covers true s₁ = true)
    (hs₂ : ∀ {t : Tokenizer}, Owes (some name) [] s₂ ahead none t →
      Passes answers name true ahead t) (hcovers : covers true s₂ = true) :
      Passes answers name true ahead (t.doubleEscapeBoundary s₁ s₂ ahead.head?) := by
  cases ahead with
  | nil => exact hs₂ (h.reconsumeIn hback s₂)
  | cons c rest =>
    simp only [List.head?_cons, doubleEscapeBoundary]
    split_ifs with hends hscript halpha
    · have hnull : c ≠ '\x00' := by
        rintro rfl
        cases hends
      exact (h.switchTo s₁).passes_marked hs₁ rfl hnull
    · have hnull : c ≠ '\x00' := by
        rintro rfl
        cases hends
      exact (h.switchTo s₂).passes_marked hcovers rfl hnull
    · exact (h.buffer _).passes_marked hs rfl (ne_of_isAlpha halpha).2.2.2
    · exact hs₂ (h.reconsumeIn hback s₂)

theorem passes_of_covers (hname : ∀ c ∈ name.toList, c.isLower = true) (hne : name ≠ "")
    (hs : covers script s = true) (h : Owes (some name) [] s ahead none t) :
    Passes answers name script ahead t := by
  cases s with
  | text kind => exact passes_text hname hne hs h
  | scriptDataEscapeStart =>
    obtain rfl : script = true := hs
    exact passes_escapeStart hname hne h
  | scriptDataEscapeStartDash =>
    obtain rfl : script = true := hs
    exact passes_escapeStartDash hname hne h
  | scriptDataEscapedDash =>
    obtain rfl : script = true := hs
    exact passes_escapedDash hname hne h
  | scriptDataEscapedDashDash =>
    obtain rfl : script = true := hs
    exact passes_escapedDashDash hname hne h
  | scriptDataDoubleEscapeStart =>
    obtain rfl : script = true := hs
    refine h.passes_step fun h' hback => ?_
    simp only [handle, h'.state]
    exact h'.passes_boundary hback rfl rfl (passes_text hname hne rfl) rfl
  | scriptDataDoubleEscaped =>
    obtain rfl : script = true := hs
    exact passes_doubleEscaped h
  | scriptDataDoubleEscapedDash =>
    obtain rfl : script = true := hs
    exact passes_doubleEscapedDash h
  | scriptDataDoubleEscapedDashDash =>
    obtain rfl : script = true := hs
    exact passes_doubleEscapedDashDash h
  | scriptDataDoubleEscapedLessThanSign =>
    obtain rfl : script = true := hs
    exact passes_doubleEscapedLessThanSign h
  | scriptDataDoubleEscapeEnd =>
    obtain rfl : script = true := hs
    refine h.passes_step fun h' hback => ?_
    simp only [handle, h'.state]
    exact h'.passes_boundary hback rfl rfl passes_doubleEscaped rfl
  | _ => cases hs

/-- Where a text that has been read of `ahead` ends: with the input, or before an end tag that fits.
Outside scripts that is the first such end tag. -/
def EndsAt (name : String) (script : Bool) (ahead done : List Char) : Prop :=
  ∃ rest, ahead = done ++ rest ∧ (rest = [] ∨ closesRawText name.toList rest = true) ∧
    (script = false → splitBefore (closesRawText name.toList) ahead = (done, rest))

theorem EndsAt.append (h : EndsAt name script rest text)
    (hraw : script = false → closesRawText name.toList (done ++ rest) = false ∧ '<' ∉ done.tail) :
    EndsAt name script (done ++ rest) (done ++ text) := by
  obtain ⟨more, rfl, hmore, hcut⟩ := h
  refine ⟨more, (List.append_assoc ..).symm, hmore, fun hscript => ?_⟩
  obtain ⟨hcloses, hangle⟩ := hraw hscript
  rw [splitBefore_append_of, hcut hscript]
  -- a later end tag would begin with an angle bracket
  intro tail htail hne
  cases done with
  | nil => exact absurd (List.suffix_nil.1 htail) hne
  | cons c done =>
    obtain rfl | htail := List.suffix_cons_iff.1 htail
    · exact hcloses
    · obtain ⟨x, tail, rfl⟩ := List.exists_cons_of_ne_nil hne
      exact closesRawText_of_ne fun heq => hangle (heq ▸ htail.subset List.mem_cons_self)

/-- By induction on what is ahead: some of it is delivered, and the rest is read from a state of
the same text. -/
theorem spells_rawText (hname : ∀ c ∈ name.toList, c.isLower = true) (hne : name ≠ "")
    (hs : covers script s = true) (h : Owes (some name) [] s ahead none t) :
    ∃ text, (∃ done, text = done.map denull ∧ EndsAt name script ahead done) ∧
      Spells (fun _ => True) Leaves answers text t := by
  induction hlength : ahead.length using Nat.strong_induction_on generalizing ahead s t answers with
  | _ n ih =>
    obtain ⟨hend, hgoes⟩ | ⟨done, rest, s', rfl, hdone, hs', hraw, hspells⟩ :=
      passes_of_covers hname hne hs h
    · refine ⟨[], ⟨[], rfl, ahead, rfl, hend, fun _ => ?_⟩, hgoes.spells fun t ht => .here ht⟩
      obtain rfl | hcloses := hend
      · rfl
      · exact splitBefore_of_stop hcloses
    · have hless : rest.length < n := by
        have hpos := List.length_pos_iff.2 hdone
        rw [← hlength, List.length_append]
        omega
      obtain ⟨_, ⟨more, rfl, hmore⟩, hall⟩ := hspells.append fun t ht => ih _ hless hs' ht rfl
      refine ⟨_, ⟨done ++ more, ?_, hmore.append hraw⟩, hall⟩
      rw [List.map_append]

theorem spells_plaintext (h : Owes last [] .plaintext ahead none t) :
    Spells (fun _ => True) Leaves answers (ahead.map denull) t := by
  induction ahead generalizing t answers with
  | nil =>
    refine h.step fun h' _ => ?_
    simp only [handle, h'.state]
    exact .here (leaves_emitEnd h'.pending_eq_nil)
  | cons c rest ih =>
    refine h.step fun h' _ => ?_
    simp only [handle, h'.state]
    exact ((h'.rawCharacter c).spells trivial).trans fun _ _ h => ih h

/-! ## 5. CDATA sections -/

def cdataClosing : List Char := [']', ']', '>']

def inCdata : List State := [.cdataSection, .cdataSectionBracket, .cdataSectionEnd]

/-- After a section text goes on behind its closing; without a closing the input has ended. -/
def AfterCdata (last : Option String) (rest : List Char) (t : Tokenizer) : Prop :=
  rest = [] ∧ (∃ position, t.pending = [⟨.endOfFile, position⟩]) ∨
    rest ≠ [] ∧ Owes last [] .data (rest.drop cdataClosing.length) none t

/-- The rest of a section, of which `held` has been read and not delivered. -/
def SpellsCdata (held : List Char) (s : State) (ahead : List Char) : Prop :=
  ∀ (last : Option String) (answers : Nat → Bool) (t : Tokenizer), Owes last [] s ahead none t →
    Spells (· ∈ inCdata)
      (AfterCdata last (splitBefore cdataClosing.isPrefixOf (held ++ ahead)).2) answers
      (splitBefore cdataClosing.isPrefixOf (held ++ ahead)).1 t

/-- Some of what is held back is delivered, since no closing begins with it. -/
theorem Owes.spells_held {held : List Char} (given : List Char) (h : Owes last given s ahead none t)
    (hs : s ∈ inCdata) (hrest : SpellsCdata held s ahead)
    (hgiven : ∀ tail, tail <:+ given → tail ≠ [] →
      cdataClosing.isPrefixOf (tail ++ (held ++ ahead)) = false) :
    Spells (· ∈ inCdata)
      (AfterCdata last (splitBefore cdataClosing.isPrefixOf (given ++ (held ++ ahead))).2) answers
      (splitBefore cdataClosing.isPrefixOf (given ++ (held ++ ahead))).1 t := by
  rw [splitBefore_append_of hgiven]
  exact (h.spells hs).trans (hrest last)

theorem not_closing_of_ne (hc : c ≠ ']') : cdataClosing.isPrefixOf (c :: rest) = false := by
  show (']' == c && _) = false
  rw [beq_eq_false_iff_ne.2 (Ne.symm hc), Bool.false_and]

/-- A single bracket in front of something else is no closing. -/
theorem not_closing_of_head? (hc : ahead.head? ≠ some ']') :
    cdataClosing.isPrefixOf (']' :: ahead) = false := by
  cases ahead with
  | nil => rfl
  | cons c rest =>
    have hne : (']' == c) = false := beq_eq_false_iff_ne.2 fun heq => hc (heq ▸ rfl)
    show (']' == ']' && (']' == c && _)) = false
    rw [hne, Bool.false_and, Bool.and_false]

theorem not_closing_of_pair (hc : ahead.head? ≠ some '>') :
    cdataClosing.isPrefixOf (']' :: ']' :: ahead) = false := by
  cases ahead with
  | nil => rfl
  | cons c rest =>
    have hne : ('>' == c) = false := beq_eq_false_iff_ne.2 fun heq => hc (heq ▸ rfl)
    show (']' == ']' && (']' == ']' && ('>' == c && _))) = false
    rw [hne, Bool.false_and, Bool.and_false, Bool.and_false]

theorem spellsCdata_section
    (hmore : ∀ c rest, ahead = c :: rest → SpellsCdata [] .cdataSection rest ∧
    SpellsCdata [']'] .cdataSectionBracket rest) : SpellsCdata [] .cdataSection ahead := by
  intro last answers t h
  refine h.step fun h' _ => ?_
  simp only [handle, h'.state]
  cases ahead with
  | nil =>
    refine .here (Or.inl ⟨rfl, t.consume.input.position, ?_⟩)
    show t.consume.pending ++ [_] = _
    rw [h'.pending_eq_nil, List.nil_append]
    rfl
  | cons c rest =>
    -- a bracket may begin the closing and is held back; any other character is text
    obtain ⟨hsection, hbracket⟩ := hmore c rest rfl
    simp only [List.head?_cons, cdataSection]
    split_ifs with hclose
    · subst hclose
      exact hbracket _ _ _ (h'.switchTo .cdataSectionBracket)
    · refine (h'.emitChar c).spells_held [c] (by decide) hsection fun tail htail hne => ?_
      obtain rfl : tail = [c] := by simpa [List.suffix_cons_iff, hne] using htail
      exact not_closing_of_ne hclose

theorem spellsCdata_bracket (hsection : SpellsCdata [] .cdataSection ahead)
    (hend : ∀ rest, ahead = ']' :: rest → SpellsCdata [']', ']'] .cdataSectionEnd rest) :
    SpellsCdata [']'] .cdataSectionBracket ahead := by
  intro last answers t h
  refine h.step fun h' hback => ?_
  simp only [handle, h'.state, cdataSectionBracket]
  split_ifs with hclose
  · obtain ⟨rest, rfl⟩ := List.head?_eq_some_iff.1 hclose
    exact hend rest rfl _ _ _ (h'.switchTo .cdataSectionEnd)
  · have htext := (h'.emitChar ']').reconsumeIn hback .cdataSection
    refine htext.spells_held [']'] (by decide) hsection fun tail htail hne => ?_
    obtain rfl : tail = [']'] := by simpa [List.suffix_cons_iff, hne] using htail
    exact not_closing_of_head? hclose

theorem spellsCdata_end (hsection : SpellsCdata [] .cdataSection ahead)
    (hend : ∀ rest, ahead = ']' :: rest → SpellsCdata [']', ']'] .cdataSectionEnd rest) :
    SpellsCdata [']', ']'] .cdataSectionEnd ahead := by
  intro last answers t h
  refine h.step fun h' hback => ?_
  simp only [handle, h'.state, cdataSectionEnd]
  split_ifs with hclose hangle
  · obtain ⟨rest, rfl⟩ := List.head?_eq_some_iff.1 hclose
    -- of three brackets the first is text
    refine (h'.emitChar ']').spells_held [']'] (by decide) (hend rest rfl) fun tail htail hne => ?_
    obtain rfl : tail = [']'] := by simpa [List.suffix_cons_iff, hne] using htail
    show cdataClosing.isPrefixOf (']' :: ']' :: ']' :: rest) = false
    exact not_closing_of_pair (by simp)
  · -- the section is closed, and its closing is no text
    obtain ⟨rest, rfl⟩ := List.head?_eq_some_iff.1 hangle
    have hstop : cdataClosing.isPrefixOf ([']', ']'] ++ '>' :: rest) = true := rfl
    rw [splitBefore_of_stop hstop]
    exact .here (Or.inr ⟨List.cons_ne_nil _ _, h'.switchTo .data⟩)
  · have htext := ((h'.emitChar ']').emitChar ']').reconsumeIn hback .cdataSection
    refine htext.spells_held [']', ']'] (by decide) hsection fun tail htail hne => ?_
    obtain rfl | rfl : tail = [']', ']'] ∨ tail = [']'] := by
      simpa [List.suffix_cons_iff, hne] using htail
    · exact not_closing_of_pair hangle
    · exact not_closing_of_head? hclose

theorem spellsCdata (ahead : List Char) : SpellsCdata [] .cdataSection ahead ∧
    SpellsCdata [']'] .cdataSectionBracket ahead ∧
    SpellsCdata [']', ']'] .cdataSectionEnd ahead := by
  -- a bracket that is put back is read again in the section, so that its case comes first
  induction ahead with
  | nil =>
    have hsection : SpellsCdata [] .cdataSection [] := spellsCdata_section fun _ _ heq => by
      cases heq
    exact ⟨hsection, spellsCdata_bracket hsection nofun, spellsCdata_end hsection nofun⟩
  | cons c rest ih =>
    obtain ⟨hsection, hbracket, hend⟩ := ih
    have hnext : SpellsCdata [] .cdataSection (c :: rest) := spellsCdata_section fun _ _ heq => by
      obtain ⟨rfl, rfl⟩ := List.cons.inj heq
      exact ⟨hsection, hbracket⟩
    have hend : ∀ more, c :: rest = ']' :: more → SpellsCdata [']', ']'] .cdataSectionEnd more :=
      fun _ heq => by
      obtain ⟨-, rfl⟩ := List.cons.inj heq
      exact hend
    exact ⟨hnext, spellsCdata_bracket hnext hend, spellsCdata_end hnext hend⟩

/-- The calls deliver the text of a section while it lasts. Then text is read on behind the closing
of the section, or the input has ended. -/
structure BringsCdata (answers : Nat → Bool) (t : Tokenizer) (text rest : List Char) : Prop where
  chars : ∀ n (hn : n < text.length), (t.delivery answers n).token = .character text[n] ∧
    (t.after answers (n + 1)).state ∈ inCdata
  closed : rest ≠ [] → ∃ t', At .data (rest.drop cdataClosing.length) none t' ∧
    Pulls t' (t.delivery answers text.length) (t.after answers (text.length + 1))
  ended : rest = [] → (t.delivery answers text.length).token = .endOfFile

theorem Between.bringsCdata {rest : List Char} (ht : Between t)
    (h : Spells (· ∈ inCdata) (AfterCdata last rest) (fun n => answers (n + 1)) text
      { t with foreign := answers 0 }) :
    BringsCdata answers t text rest := by
  obtain ⟨hdelivered, hgoes⟩ := ht.deliveries answers h
  have hb := ht.after answers text.length
  have hmid := hgoes.midway (Or.inl (hb.setForeign _))
  obtain ⟨t₁, ⟨hafter, ht₁⟩, hpulls⟩ := hmid.exists_pulls (hb.pulls_nextToken _)
  refine ⟨hdelivered, fun hrest => ?_, fun hrest => ?_⟩
  · obtain ⟨hnil, -⟩ | ⟨-, howes⟩ := hafter
    · exact absurd hnil hrest
    · have hmid : Midway t₁ := ht₁.elim (fun hb => hb.midway howes.pending_eq_nil howes.ended) id
      have hnotBuilding := hmid.fitsZone.notBuilding (by rw [zone_of_state howes.state rfl]; rfl)
      exact ⟨t₁, howes.at hnotBuilding.duplicate, hpulls⟩
  · obtain ⟨-, position, hpending⟩ | ⟨hne, -⟩ := hafter
    · exact congrArg PositionedToken.token (hpulls.unique (.queued hpending)).1
    · exact absurd hrest hne

/-! ## 6. What is delivered -/

theorem At.switched (h : At s ahead none t) (hl : t.lastStartTag = last) (s' : State)
    (foreign : Bool) : Owes last [] s' ahead none { t.switchTo s' with foreign } :=
  ⟨rfl, h.ahead, h.current, by
    rw [show ({ t.switchTo s' with foreign } : Tokenizer).pending = [] from h.pending]; rfl,
    h.ended, hl⟩

/-- The text of an element is what stands before its end tag, with nulls replaced. Of raw text the
first end tag that fits is the end, of a script one of them, and plain text has no end. A section is
delivered as it is. -/
theorem brings_text {x : List Char} (hne : name ≠ "") (hname : ∀ c ∈ name.toList, c.isLower = true)
    (ht : Between t) (h : At s x none t) (hl : t.lastStartTag = some name) (answers : Nat → Bool) :
    Brings answers (t.switchTo (.text .rawtext))
      ((splitBefore (closesRawText name.toList) x).1.map denull) ∧
    (∃ done rest, x = done ++ rest ∧ (rest = [] ∨ closesRawText name.toList rest = true) ∧
      Brings answers (t.switchTo (.text .scriptData)) (done.map denull)) ∧
    Brings answers (t.switchTo .plaintext) (x.map denull) ∧
    BringsCdata answers (t.switchTo .cdataSection) (splitBefore cdataClosing.isPrefixOf x).1
      (splitBefore cdataClosing.isPrefixOf x).2 := by
  refine ⟨?_, ?_, ?_, ?_⟩
  · have hcovers : covers false (.text .rawtext) = true := rfl
    obtain ⟨_, ⟨done, rfl, rest, -, -, hcut⟩, hspells⟩ :=
      spells_rawText hname hne hcovers (h.switched hl (.text .rawtext) (answers 0))
    rw [hcut rfl]
    exact (ht.switchTo _).brings hspells
  · have hcovers : covers true (.text .scriptData) = true := rfl
    obtain ⟨_, ⟨done, rfl, rest, hx, hend, -⟩, hspells⟩ :=
      spells_rawText hname hne hcovers (h.switched hl (.text .scriptData) (answers 0))
    exact ⟨done, rest, hx, hend, (ht.switchTo _).brings hspells⟩
  · exact (ht.switchTo _).brings (spells_plaintext (h.switched hl .plaintext (answers 0)))
  · exact (ht.switchTo _).bringsCdata
      ((spellsCdata x).1 _ _ _ (h.switched hl .cdataSection (answers 0)))

/-- An end tag after an escaped one, with a null between them and the closing of a section
behind them. -/
theorem brings_text_escaped :
    let t := (ofString "<!--<script></Script\x00></script >]]]>").setLastStartTag (some "script")
    ("script" ≠ "" ∧ (∀ c ∈ "script".toList, c.isLower = true) ∧ Between t ∧
      At .data t.input.ahead none t ∧ t.lastStartTag = some "script") ∧
    Brings (fun _ => false) (t.switchTo (.text .rawtext)) "<!--<script></Script\uFFFD>".toList ∧
    (∃ done rest, t.input.ahead = done ++ rest ∧
      (rest = [] ∨ closesRawText "script".toList rest = true) ∧
      Brings (fun _ => false) (t.switchTo (.text .scriptData)) (done.map denull)) ∧
    BringsCdata (fun _ => false) (t.switchTo .cdataSection)
    "<!--<script></Script\x00></script >]".toList
      "]]>".toList := by
  intro t
  have hne : "script" ≠ "" := by decide
  have hname : ∀ c ∈ "script".toList, c.isLower = true := List.all_eq_true.1 (by decide)
  have ht : Between t := (between_ofString _).setLastStartTag _
  have h : At .data t.input.ahead none t := ⟨rfl, rfl, rfl, rfl, rfl, rfl⟩
  obtain ⟨hraw, hscript, -, hcdata⟩ := brings_text hne hname ht h rfl fun _ => false
  refine ⟨⟨hne, hname, ht, h, rfl⟩, ?_, hscript, ?_⟩
  · have htext : ((splitBefore (closesRawText "script".toList) t.input.ahead).1.map denull) =
        "<!--<script></Script\uFFFD>".toList := by decide +kernel
    rwa [htext] at hraw
  · have htext : splitBefore cdataClosing.isPrefixOf t.input.ahead =
        ("<!--<script></Script\x00></script >]".toList, "]]>".toList) := by decide +kernel
    rwa [htext] at hcdata

end Tokenizer

end Hypertext
