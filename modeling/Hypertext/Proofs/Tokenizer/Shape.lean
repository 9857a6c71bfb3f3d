import Hypertext.Proofs.Token
import Hypertext.Proofs.Tokenizer.Places

/-!
# What tokens look like

In every state something is known of the token under construction, and in some states of the next
character as well: a name is in lower case, the attributes before the current one are complete and
differ, and a comment does not hold an end of it. So what is finished is well formed.
-/

namespace Hypertext.Tokenizer

variable {tag : Tag} {c : Char} {next next' : Option Char} {d : Bool}

/-! ## 1. Tags -/

/-- A character that an attribute name begins with, other than an equals sign. -/
def beginsName (c : Char) : Bool := !(Ascii.isBlank c || c == '/' || c == '>' || c == '=')

/-- The name of the tag is being read. -/
structure Naming (next : Option Char) (tag : Tag) : Prop where
  name : tag.name = "" ∧ next.any Char.isAlpha = true ∨ IsTagName tag.name
  attributes : tag.attributes = []

/-- The attributes are complete. They differ, but for the last one if it has been found to
repeat another. -/
structure Attributed (d : Bool) (tag : Tag) : Prop where
  name : IsTagName tag.name
  names : ((if d then tag.attributes.dropLast else tag.attributes).map (·.name)).Nodup
  attributes : ∀ a ∈ tag.attributes, a.WellFormed

/-- The name of the last attribute is being read. -/
def NamingAttribute (next : Option Char) (tag : Tag) : Prop :=
  ∃ init last, tag.attributes = init ++ [last] ∧ Attributed false { tag with attributes := init } ∧
    last.value = "" ∧ (last.name = "" ∧ next.any beginsName = true ∨ IsAttributeName last.name)

theorem onLast_concat {α : Type} (f : α → α) (init : List α) (a : α) :
    onLast f (init ++ [a]) = init ++ [f a] := by
  induction init with
  | nil => rfl
  | cons b init ih =>
    cases init with
    | nil => rfl
    | cons b' init => exact congrArg (b :: ·) ih

theorem Naming.push (h : Naming next tag) (hc : isTagChar c = true)
    (hfirst : next.any Char.isAlpha = true → c.isLower = true) :
    Naming next' (tag.edit (.name c)) := by
  refine ⟨Or.inr ⟨?_, ?_⟩, h.attributes⟩
  all_goals simp only [Tag.edit, String.toList_push]
  · obtain ⟨hname, hnext⟩ | hname := h.name
    · rw [hname]
      exact hfirst hnext
    · obtain ⟨x, hx, hlower⟩ := (Option.any_eq_true ..).1 hname.head
      obtain ⟨rest, hrest⟩ := List.head?_eq_some_iff.1 hx
      rw [hrest]
      exact hlower
  · obtain ⟨hname, -⟩ | hname := h.name
    · rw [hname]
      simpa using hc
    · intro x hx
      obtain hx | hx := List.mem_append.1 hx
      · exact hname.chars x hx
      · exact List.mem_singleton.1 hx ▸ hc

theorem Naming.close (h : Naming next tag) (hnext : next.any Char.isAlpha = false) (d : Bool) :
    Attributed d tag := by
  refine ⟨h.name.resolve_left fun hn => ?_, ?_, ?_⟩
  · rw [hnext] at hn
    cases hn.2
  · rw [h.attributes]
    cases d <;> exact List.nodup_nil
  · rw [h.attributes]
    simp

theorem Attributed.drop (h : Attributed true tag) : Attributed false (tag.edit .dropAttribute) :=
  ⟨h.name, h.names, fun a ha => h.attributes a (List.dropLast_subset _ ha)⟩

theorem Attributed.selfClosing (h : Attributed d tag) : Attributed d (tag.edit .selfClosing) :=
  ⟨h.name, h.names, h.attributes⟩

theorem Attributed.value (h : Attributed d tag) (hc : c ≠ '\x00') :
    Attributed d (tag.edit (.attributeValue c)) := by
  -- only the value of the last attribute changes, so the names stay different
  obtain hnil | ⟨init, last, hattributes⟩ := List.eq_nil_or_concat tag.attributes
  · have heq : tag.edit (.attributeValue c) = tag := by
      obtain ⟨name, selfClosing, attributes⟩ := tag
      cases hnil
      rfl
    rwa [heq]
  · have hattributes' : (tag.edit (.attributeValue c)).attributes =
        init ++ [{ last with value := last.value.push c }] := by
      simp only [Tag.edit, hattributes, onLast_concat, List.concat_eq_append]
    have hnames := h.names
    have hall := h.attributes
    rw [hattributes, List.concat_eq_append] at hnames hall
    refine ⟨h.name, ?_, ?_⟩
    · rw [hattributes']
      cases d <;> simpa using hnames
    · rw [hattributes']
      intro a ha
      obtain ha | ha := List.mem_append.1 ha
      · exact hall a (List.mem_append_left _ ha)
      · rw [List.mem_singleton.1 ha]
        have hlast := hall last (by simp)
        refine ⟨hlast.name, fun hmem => ?_⟩
        rw [String.toList_push, List.mem_append, List.mem_singleton] at hmem
        exact hmem.elim hlast.value fun heq => hc heq.symm

theorem Attributed.wellFormed (h : Attributed false tag) : tag.WellFormed :=
  ⟨h.name, h.names, h.attributes⟩

theorem NamingAttribute.start (h : Attributed false tag) (hnext : next.any beginsName = true) :
    NamingAttribute next (tag.edit .newAttribute) :=
  ⟨tag.attributes, {}, rfl, h, rfl, Or.inl ⟨rfl, hnext⟩⟩

/-- An equals sign where a name should begin is the first character of one. -/
theorem NamingAttribute.startEquals (h : Attributed false tag) :
    NamingAttribute next ((tag.edit .newAttribute).edit (.attributeName '=')) :=
  ⟨tag.attributes, { name := "=" }, onLast_concat _ _ _, h, rfl,
    Or.inr ⟨by decide, List.all_eq_true.1 (by decide), by decide⟩⟩

theorem NamingAttribute.push (h : NamingAttribute next tag) (hc : isTagChar c = true)
    (hne : c ≠ '=') : NamingAttribute next' (tag.edit (.attributeName c)) := by
  obtain ⟨init, last, heq, hinit, hvalue, hname⟩ := h
  refine ⟨init, { last with name := last.name.push c }, ?_, hinit, hvalue, Or.inr ?_⟩
  · simp only [Tag.edit, heq, onLast_concat]
  · refine ⟨?_, ?_, ?_⟩
    all_goals simp only [String.toList_push]
    · simp
    · obtain ⟨hname, -⟩ | hname := hname
      · rw [hname]
        simpa using hc
      · intro x hx
        obtain hx | hx := List.mem_append.1 hx
        · exact hname.chars x hx
        · exact List.mem_singleton.1 hx ▸ hc
    · obtain ⟨hname, -⟩ | hname := hname
      · rw [hname]
        simp
      · -- an equals sign could only be the first character
        obtain ⟨x, rest, hrest⟩ := List.exists_cons_of_ne_nil hname.nonempty
        have htail := hname.tail
        rw [hrest] at htail ⊢
        simpa [hne.symm] using htail

theorem NamingAttribute.check (h : NamingAttribute next tag) (hnext : next.any beginsName = false) :
    Attributed tag.lastIsDuplicate tag := by
  obtain ⟨init, last, heq, hinit, hvalue, hname⟩ := h
  have hname := hname.resolve_left fun hn => by
    rw [hnext] at hn
    cases hn.2
  refine ⟨hinit.name, ?_, ?_⟩
  · -- the names before the last one differ, and the test says whether the last one is among them
    have hdup : tag.lastIsDuplicate = init.any fun a => a.name == last.name := by
      simp [Tag.lastIsDuplicate, heq]
    rw [hdup, heq, List.dropLast_concat]
    split
    · exact hinit.names
    · next hany =>
      rw [List.map_append, List.nodup_append]
      refine ⟨hinit.names, by simp, fun x hx y hy hxy => hany ?_⟩
      obtain ⟨a, ha, rfl⟩ := List.mem_map.1 hx
      refine List.any_eq_true.2 ⟨a, ha, ?_⟩
      simp only [List.map_cons, List.map_nil, List.mem_singleton] at hy
      simpa [hy] using hxy
  · rw [heq]
    intro a ha
    obtain ha | ha := List.mem_append.1 ha
    · exact hinit.attributes a ha
    · rw [List.mem_singleton.1 ha]
      exact ⟨hname, by simp [hvalue]⟩

/-! ## 2. Comments and document types -/

/-- Text of a comment that a dash which is held back may follow. -/
structure Undashed (text : List Char) : Prop where
  fine : IsCommentText text
  nonempty : text ≠ []
  dash : ¬ ['-'] <:+ text

/-- Text of a comment that any character may follow. -/
structure Loose (text : List Char) : Prop extends Undashed text where
  bang : ¬ ['-', '-', '!'] <:+ text

/-- Text of a comment with the character that follows it. -/
structure Commenting (next : Option Char) (text : List Char) : Prop where
  fine : IsCommentText text
  close : next = some '>' → ¬ IsCommentText.Ready text
  bang : next = some '!' → ¬ ['-', '-'] <:+ text
  dash : next = some '-' → Undashed text

/-- The text of a comment that any `>` ends. -/
def Bogus (text : List Char) : Prop := ∀ x ∈ text, isSolid x = true ∧ x ≠ '>'

variable {text : List Char}

theorem bogus_of_all (h : (text.all fun x => isSolid x && x != '>') = true) : Bogus text :=
  fun x hx => by
  simpa using List.all_eq_true.1 h x hx

theorem suffix_concat {l : List Char} {x : Char} (h : l ++ [x] <:+ text ++ [c]) :
    x = c ∧ l <:+ text := by
  obtain hnil | ⟨l', heq, hs⟩ := List.suffix_concat_iff.1 h
  · simp at hnil
  · obtain ⟨rfl, hx⟩ := List.append_inj' heq rfl
    exact ⟨List.singleton_inj.1 hx, hs⟩

theorem Undashed.not_dashes (h : Undashed text) : ¬ ['-', '-'] <:+ text := fun hs =>
  h.dash (List.IsSuffix.trans (List.suffix_cons '-' ['-']) hs)

theorem Loose.commenting (h : Loose text) (next : Option Char) : Commenting next text := by
  have hready : ¬ IsCommentText.Ready text := by
    rintro (hnil | hdash | hdashes | hbang)
    · exact h.nonempty hnil
    · exact h.dash (hdash ▸ List.suffix_refl _)
    · exact h.not_dashes hdashes
    · exact h.bang hbang
  exact ⟨h.fine, fun _ => hready, fun _ => h.not_dashes, fun _ => h.toUndashed⟩

theorem loose_concat (h : IsCommentText (text ++ [c])) (hc : c ≠ '-')
    (hbang : c = '!' → ¬ ['-', '-'] <:+ text) : Loose (text ++ [c]) :=
  ⟨⟨h, by simp, fun hs => hc (suffix_concat (l := []) hs).1.symm⟩, fun hs =>
    hbang (suffix_concat (l := ['-', '-']) hs).1.symm (suffix_concat (l := ['-', '-']) hs).2⟩

/-- A character other than a dash goes into a comment. -/
theorem Commenting.push (h : Commenting (some c) text) (hs : isSolid c = true) (hc : c ≠ '-') :
    Loose (text ++ [c]) :=
  loose_concat (h.fine.push hs fun hclose => h.close (congrArg some hclose)) hc
    fun hbang => h.bang (congrArg some hbang)

theorem Loose.push (h : Loose text) (hs : isSolid c = true) (hc : c ≠ '-') (hclose : c ≠ '>') :
    Loose (text ++ [c]) :=
  loose_concat (h.fine.push hs fun heq => absurd heq hclose) hc fun _ => h.not_dashes

/-- Dashes and an exclamation mark that have been held back go into the comment after all. -/
theorem bogus_nil : Bogus [] := nofun

theorem isCommentText_append (h : IsCommentText text) {more : List Char} (hm : Bogus more) :
    IsCommentText (text ++ more) := by
  induction more generalizing text with
  | nil => rwa [List.append_nil]
  | cons x more ih =>
    obtain ⟨⟨hs, hx⟩, hm⟩ := List.forall_mem_cons.1 hm
    rw [List.append_cons]
    exact ih (h.push hs fun heq => absurd heq hx) hm

theorem Bogus.isCommentText (h : Bogus text) : IsCommentText text := by
  have := isCommentText_append .nil h
  rwa [List.nil_append] at this

/-- A dash that has been held back goes into the comment, and the next character is not one. -/
theorem Undashed.commenting (h : Undashed text) (hnext : next ≠ some '-') :
    Commenting next (text ++ ['-']) := by
  have hdashes : ¬ ['-', '-'] <:+ text ++ ['-'] := fun hs =>
    h.dash (suffix_concat (l := ['-']) hs).2
  refine ⟨h.fine.push (by decide) fun hc => absurd hc (by decide), fun _ => ?_, fun _ => hdashes,
    fun heq => absurd heq hnext⟩
  rintro (hnil | hdash | hsuffix | hbang)
  · simp at hnil
  · exact h.nonempty (by simpa using hdash)
  · exact hdashes hsuffix
  · exact absurd (suffix_concat (l := ['-', '-']) hbang).1 (by decide)

/-- Neither a dash nor a `>` comes next. -/
theorem commenting_of_ne (h : IsCommentText text) (hclose : next ≠ some '>')
    (hdash : next ≠ some '-') (hbang : next = some '!' → ¬ ['-', '-'] <:+ text) :
    Commenting next text :=
  ⟨h, fun heq => absurd heq hclose, hbang, fun heq => absurd heq hdash⟩

/-- The identifier of a document type. -/
def identifier : Identifier → Doctype → Option String
  | .publicId, dt => dt.publicId
  | .systemId, dt => dt.systemId

/-- An identifier is being read, and its quote has not come yet. -/
structure Quoting (which : Identifier) (quote : Quote) (dt : Doctype) : Prop where
  wellFormed : dt.WellFormed
  quote : ∀ id, identifier which dt = some id → quote.char ∉ id.toList

variable {dt : Doctype}

theorem isIdentifier_of_quote {id : String} (quote : Quote)
    (h : ∀ x ∈ id.toList, isSolid x = true ∧ x ≠ '>')
    (hq : quote.char ∉ id.toList) : IsIdentifier id :=
  ⟨h, fun hboth => by
    cases quote with
    | double => exact hq hboth.1
    | single => exact hq hboth.2⟩

theorem wellFormed_name (h : dt.WellFormed) (hc : isNameChar c = true) :
    (dt.edit (.name c)).WellFormed := by
  refine ⟨fun name heq => ?_, h.publicId, h.systemId⟩
  cases heq
  refine ⟨by simp, fun x hx => ?_⟩
  rw [String.toList_push] at hx
  obtain hx | hx := List.mem_append.1 hx
  · cases hn : dt.name with
    | none =>
      rw [hn] at hx
      simp at hx
    | some name =>
      rw [hn] at hx
      exact (h.name name hn).chars x hx
  · exact List.mem_singleton.1 hx ▸ hc

theorem Quoting.start (h : dt.WellFormed) (which : Identifier) (quote : Quote) :
    Quoting which quote (dt.edit (emptyIdentifier which)) := by
  have hempty : IsIdentifier "" := ⟨by simp, by simp⟩
  cases which with
  | publicId =>
    exact ⟨⟨h.name, fun id heq => by cases heq; exact hempty, h.systemId⟩,
      fun id heq => by cases heq; simp⟩
  | systemId =>
    exact ⟨⟨h.name, h.publicId, fun id heq => by cases heq; exact hempty⟩,
      fun id heq => by cases heq; simp⟩

theorem Quoting.push {which : Identifier} {quote : Quote} (h : Quoting which quote dt)
    (hs : isSolid c = true) (hc : c ≠ '>') (hq : c ≠ quote.char) :
    Quoting which quote (dt.edit (extendIdentifier c which)) := by
  -- both identifiers grow in the same way
  have hpush : ∀ part : Option String, (∀ id, part = some id → IsIdentifier id) →
      (∀ id, part = some id → quote.char ∉ id.toList) → ∀ id, pushTo part c = some id →
      IsIdentifier id ∧ quote.char ∉ id.toList := by
    rintro part hid hquote id ⟨⟩
    have hold : (∀ x ∈ (part.getD "").toList, isSolid x = true ∧ x ≠ '>') ∧
        quote.char ∉ (part.getD "").toList := by
      cases part with
      | none => simp
      | some id => exact ⟨(hid id rfl).chars, hquote id rfl⟩
    have hnot : quote.char ∉ ((part.getD "").push c).toList := by
      rw [String.toList_push, List.mem_append, List.mem_singleton]
      exact fun hmem => hmem.elim hold.2 fun heq => hq heq.symm
    refine ⟨isIdentifier_of_quote quote (fun x hx => ?_) hnot, hnot⟩
    rw [String.toList_push] at hx
    obtain hx | hx := List.mem_append.1 hx
    · exact hold.1 x hx
    · exact List.mem_singleton.1 hx ▸ ⟨hs, hc⟩
  cases which with
  | publicId =>
    have hid := hpush dt.publicId h.wellFormed.publicId h.quote
    exact ⟨⟨h.wellFormed.name, fun id heq => (hid id heq).1, h.wellFormed.systemId⟩,
      fun id heq => (hid id heq).2⟩
  | systemId =>
    have hid := hpush dt.systemId h.wellFormed.systemId h.quote
    exact ⟨⟨h.wellFormed.name, h.wellFormed.publicId, fun id heq => (hid id heq).1⟩,
      fun id heq => (hid id heq).2⟩

/-! ## 3. What holds between two steps -/

section

variable (P : Tag → Prop) (Q : List Char → Prop) (R : Doctype → Prop)

def OnTag : Token → Prop
  | .startTag tag | .endTag tag => P tag
  | _ => False

def OnComment : Token → Prop
  | .comment data => Q data.toList
  | _ => False

def OnDoctype : Token → Prop
  | .doctype dt => R dt
  | _ => False

end

/-- What is known in a state of the token under construction. `next` is the character that is read
next, and `d` says whether the last attribute repeats another. -/
def Shape (s : State) (next : Option Char) (d : Bool) : Token → Prop :=
  match s with
  | .tagName | .textEndTagName _ => OnTag (Naming next)
  | .attributeName => OnTag fun tag => d = false ∧ NamingAttribute next tag
  | .beforeAttributeName | .afterAttributeName | .beforeAttributeValue | .attributeValueQuoted _
  | .attributeValueUnquoted | .afterAttributeValueQuoted | .selfClosingStartTag =>
    OnTag (Attributed d)
  | .bogusComment => OnComment Bogus
  | .commentStart | .commentStartDash => OnComment (· = [])
  | .comment => OnComment (Commenting next)
  | .commentLessThanSign | .commentLessThanSignBang | .commentLessThanSignBangDash
  | .commentLessThanSignBangDashDash => OnComment Loose
  | .commentEndDash => OnComment Undashed
  | .commentEnd | .commentEndBang => OnComment IsCommentText
  | .doctypeIdentifier which quote => OnDoctype (Quoting which quote)
  | .doctype | .beforeDoctypeName | .doctypeName | .afterDoctypeName | .afterDoctypeKeyword _
  | .beforeDoctypeIdentifier _ | .afterDoctypeIdentifier _ | .betweenDoctypeIdentifiers
    | .bogusDoctype =>
    OnDoctype Doctype.WellFormed
  | _ => fun _ => False

/-- What is finished is well formed, `P` holds of what is under construction, and what may go into
an attribute value is no null character. -/
def Builds (P : Token → Prop) (t : Tokenizer) : Prop :=
  (∀ p ∈ t.pending, p.token.WellFormed) ∧ (∀ token, t.current = some token → P token) ∧
    '\x00' ∉ t.buffer

/-- Nothing is under construction. -/
abbrev Clear (t : Tokenizer) : Prop := Builds (fun _ => False) t

/-- The current state, or the one that a character reference goes back to. -/
def host (t : Tokenizer) : State :=
  match t.state.zone? with
  | some _ => t.state
  | none => t.returnState.getD .data

def Shaped (t : Tokenizer) : Prop := Builds (Shape t.host t.input.peek t.duplicate) t

variable {P P' : Token → Prop} {Q Q' : Tag → Prop} {R R' : List Char → Prop} {S S' : Doctype → Prop}
  {t : Tokenizer}

/-! ### Moves -/

theorem Builds.mono (h : Builds P t) (hP : ∀ token, P token → P' token) : Builds P' t :=
  ⟨h.1, fun token ht => hP token (h.2.1 token ht), h.2.2⟩

theorem Builds.onTag (h : Builds (OnTag Q) t) (hQ : ∀ tag, Q tag → Q' tag) : Builds (OnTag Q') t :=
  h.mono fun token ht => by
    cases token with
    | startTag tag => exact hQ tag ht
    | endTag tag => exact hQ tag ht
    | _ => exact ht

theorem Builds.onComment (h : Builds (OnComment R) t) (hR : ∀ text, R text → R' text) :
    Builds (OnComment R') t :=
  h.mono fun token ht => by
    cases token with
    | comment data => exact hR _ ht
    | _ => exact ht

theorem Builds.onDoctype (h : Builds (OnDoctype S) t) (hS : ∀ dt, S dt → S' dt) :
    Builds (OnDoctype S') t :=
  h.mono fun token ht => by
    cases token with
    | doctype dt => exact hS dt ht
    | _ => exact ht

@[grind ←]
theorem Builds.report (h : Builds P t) (kind : ErrorKind) : Builds P (t.report kind) := h

@[grind ←]
theorem Builds.switchTo (h : Builds P t) (s : State) : Builds P (t.switchTo s) := h

@[grind ←]
theorem Builds.markStart (h : Builds P t) : Builds P t.markStart := h

@[grind ←]
theorem Builds.enterReference (h : Builds P t) (s : State) : Builds P (t.enterReference s) := h

theorem Builds.input (h : Builds P t) (input : Cursor) : Builds P { t with input } := h

@[grind ←]
theorem Builds.reconsumeIn (h : Builds P t) (s : State) : Builds P (t.reconsumeIn s) := h

theorem Builds.buffer (h : Builds P t) {buffer : List Char} (hb : '\x00' ∉ buffer) :
    Builds P { t with buffer } := ⟨h.1, h.2.1, hb⟩

theorem Builds.begin (h : Builds P t) (token : Token) (ht : P' token) : Builds P' (t.begin token) :=
  ⟨h.1, fun _ ht' => Option.some.inj ht' ▸ ht, h.2.2⟩

theorem Builds.drop (h : Builds P t) : Clear { t with current := none } := ⟨h.1, nofun, h.2.2⟩

theorem Builds.enqueue (h : Builds P t) (token : Token) (ht : token.WellFormed)
    (position : Position) : Builds P (t.enqueue token position) :=
  ⟨fun p hp => (List.mem_append.1 hp).elim (h.1 p) fun hp => List.mem_singleton.1 hp ▸ ht, h.2⟩

@[grind ←]
theorem Builds.emitChar (h : Builds P t) (c : Char) : Builds P (t.emitChar c) :=
  h.enqueue (.character c) trivial _

theorem Builds.emitChars (h : Builds P t) (cs : List Char) : Builds P (t.emitChars cs) := by
  induction cs generalizing t with
  | nil => exact h
  | cons c cs ih => exact ih (h.emitChar c)

@[grind ←]
theorem Builds.emitEnd (h : Builds P t) : Builds P t.emitEnd :=
  Builds.enqueue (t := { t with ended := true }) h .endOfFile trivial _

theorem shaped_of_clear (h : Clear t) : Shaped t := h.mono fun _ hf => hf.elim

/-! ### Edits -/

theorem exists_edit (t : Tokenizer) (e : Edit) :
    ∃ current fault, t.edit e = { t with current, fault } := by
  unfold edit
  split
  · exact ⟨_, _, rfl⟩
  · split
    · exact ⟨_, _, rfl⟩
    · exact ⟨_, _, rfl⟩

theorem duplicate_editTag (t : Tokenizer) (e : TagEdit) :
    (t.editTag e).duplicate = t.duplicate := by
  obtain ⟨current, fault, heq⟩ := exists_edit t (.tag e)
  rw [editTag, heq]

theorem Builds.edit (h : Builds P t) {e : Edit}
    (he : ∀ token, P token → ∃ token', token.edit e = .ok token' ∧ P' token') :
    Builds P' (t.edit e) := by
  unfold Tokenizer.edit
  split
  · next hc =>
    refine ⟨h.1, fun token ht => ?_, h.2.2⟩
    rw [hc] at ht
    cases ht
  · next token hc =>
    obtain ⟨token', heq, hP⟩ := he token (h.2.1 token hc)
    rw [heq]
    refine ⟨h.1, fun token ht => ?_, h.2.2⟩
    cases ht
    exact hP

theorem Builds.editTag (h : Builds (OnTag Q) t) {e : TagEdit}
    (he : ∀ tag, Q tag → Q' (tag.edit e)) : Builds (OnTag Q') (t.editTag e) :=
  h.edit fun token ht => by
    cases token with
    | startTag tag => exact ⟨_, rfl, he tag ht⟩
    | endTag tag => exact ⟨_, rfl, he tag ht⟩
    | _ => exact ht.elim

theorem toList_editComment (data : String) (e : CommentEdit) :
    (Hypertext.editComment data e).toList = data.toList ++ match e with
      | .char c => [c]
      | .text s => s.toList := by
  cases e with
  | char c => exact String.toList_push ..
  | text s => exact String.toList_append ..

theorem Builds.editComment (h : Builds (OnComment R) t) {e : CommentEdit}
    (he : ∀ data : String, R data.toList → R' (Hypertext.editComment data e).toList) :
    Builds (OnComment R') (t.editComment e) :=
  h.edit fun token ht => by
    cases token with
    | comment data => exact ⟨_, rfl, he data ht⟩
    | _ => exact ht.elim

theorem Builds.editDoctype (h : Builds (OnDoctype S) t) {e : DoctypeEdit} (hempty : S {})
    (he : ∀ dt, S dt → S' (dt.edit e)) : Builds (OnDoctype S') (t.editDoctype e) := by
  have hcurrent : S t.currentDoctype := by
    unfold currentDoctype
    split
    · next dt hc => exact h.2.1 _ hc
    · exact hempty
  refine Builds.edit (P := OnDoctype S) (h.begin (.doctype _) hcurrent) fun token ht => ?_
  cases token with
  | doctype dt => exact ⟨_, rfl, he dt ht⟩
  | _ => exact ht.elim

/-! ### Finished tokens -/

/-- A token that is well formed once an end tag has been reduced to its name. -/
def Finished : Token → Prop
  | .endTag tag => IsTagName tag.name
  | token => token.WellFormed

theorem Builds.emitCurrent (h : Builds Finished t.dropDuplicate) : Clear t.emitCurrent := by
  unfold Tokenizer.emitCurrent
  generalize t.dropDuplicate = t at h
  have hnone : ∀ last errors, Clear { t with current := none, lastStartTag := last, errors } :=
    fun _ _ => h.drop
  cases hc : t.current with
  | none =>
    simp only [hc]
    exact ⟨h.1, by simp [hc], h.2.2⟩
  | some token =>
    have hfinished : Finished token := h.2.1 token hc
    cases token with
    | endTag tag =>
      have hreduced : (Token.endTag { name := tag.name }).WellFormed := ⟨hfinished, rfl, rfl⟩
      simp only [hc]
      split_ifs <;> exact (hnone _ _).enqueue _ hreduced _
    | startTag tag =>
      simp only [hc]
      exact (hnone (some tag.name) t.errors).enqueue (.startTag tag) hfinished _
    | _ =>
      simp only [hc]
      refine (hnone t.lastStartTag t.errors).enqueue _ ?_ _
      exact hfinished

theorem dropDuplicate_of_eq_false (hd : t.duplicate = false) : t.dropDuplicate = t := by
  unfold dropDuplicate
  rw [hd]
  rfl

theorem Builds.finish (h : Builds Finished t) (hd : t.duplicate = false) : Clear t.finish := by
  refine Builds.emitCurrent ?_
  rw [dropDuplicate_of_eq_false (t := t.switchTo .data) hd]
  exact h

/-- A repeated attribute is removed. -/
theorem Builds.dropDuplicate (h : Builds (OnTag (Attributed t.duplicate)) t) :
    Builds (OnTag (Attributed false)) t.dropDuplicate := by
  unfold Tokenizer.dropDuplicate
  split
  · next hd =>
    rw [hd] at h
    exact Builds.editTag (t := { t with duplicate := false }) h fun tag => Attributed.drop
  · next hd =>
    rw [Bool.eq_false_iff.2 hd] at h
    exact h

theorem finished_of_attributed {token : Token} (h : OnTag (Attributed false) token) :
    Finished token := by
  cases token with
  | startTag tag => exact Attributed.wellFormed h
  | endTag tag => exact Attributed.name h
  | _ => exact h.elim

theorem Builds.finishTag (h : Builds (OnTag (Attributed t.duplicate)) t) : Clear t.finish :=
  Builds.emitCurrent ((Builds.dropDuplicate (t := t.switchTo .data) h).mono fun _ =>
    finished_of_attributed)

theorem finished_of_comment {token : Token} (h : OnComment IsCommentText token) :
    Finished token := by
  cases token with
  | comment data => exact h
  | _ => exact h.elim

theorem finished_of_doctype {token : Token} (h : OnDoctype Doctype.WellFormed token) :
    Finished token := by
  cases token with
  | doctype dt => exact h
  | _ => exact h.elim

end Hypertext.Tokenizer
