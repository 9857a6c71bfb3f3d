import Hypertext.Proofs.Tokenizer.Paths

/-!
# Attributes of a start tag

An attribute that repeats a name stays on the tag until its value has been read, so that the value
goes to no other attribute, and is taken off when the next attribute begins or the tag ends. What is
left in the end are the first attributes of each name, and each of the others has been reported.
-/

namespace Hypertext

/-! ## 1. Repeated names -/

/-- Adds an attribute, unless there is one of its name. -/
def addAttribute (attributes : List Attribute) (a : Attribute) : List Attribute :=
  if a.name ∈ attributes.map (·.name) then attributes else attributes ++ [a]

/-- One after the other, they are the first ones of each name. -/
theorem foldl_addAttribute (attributes : List Attribute) :
    attributes.foldl addAttribute [] = attributes.eraseDupsBy fun a b => a.name == b.name := by
  have hloop (kept : List Attribute) :
      attributes.foldl addAttribute kept =
        List.eraseDupsBy.loop (fun a b => a.name == b.name) attributes kept.reverse := by
    induction attributes generalizing kept with
    | nil => rw [List.foldl_nil, List.eraseDupsBy.loop, List.reverse_reverse]
    | cons a attributes ih =>
      have hmem : kept.reverse.any (fun b => a.name == b.name) =
          decide (a.name ∈ kept.map (·.name)) := by
        rw [Bool.eq_iff_iff, List.any_eq_true, decide_eq_true_iff, List.mem_map]
        exact ⟨fun ⟨b, hb, heq⟩ => ⟨b, List.mem_reverse.1 hb, (eq_of_beq heq).symm⟩,
          fun ⟨b, hb, heq⟩ => ⟨b, List.mem_reverse.2 hb, beq_iff_eq.2 heq.symm⟩⟩
      rw [List.foldl_cons, ih, List.eraseDupsBy.loop, hmem, addAttribute]
      by_cases h : a.name ∈ kept.map (·.name)
      · rw [if_pos h, decide_eq_true h]
      · rw [if_neg h, decide_eq_false h, List.reverse_concat]
  exact hloop []

theorem foldl_addAttribute_of_nodup {kept attributes : List Attribute}
    (h : ((kept ++ attributes).map (·.name)).Nodup) :
    attributes.foldl addAttribute kept = kept ++ attributes := by
  induction attributes generalizing kept with
  | nil => rw [List.foldl_nil, List.append_nil]
  | cons a attributes ih =>
    have hnew : a.name ∉ kept.map (·.name) := by
      intro hmem
      rw [List.map_append, List.nodup_append] at h
      exact h.2.2 _ hmem a.name (by simp) rfl
    rw [List.append_cons] at h ⊢
    rw [List.foldl_cons, addAttribute, if_neg hnew, ih h]

/-- An attribute is added or repeats a name. -/
theorem length_addAttribute (attributes : List Attribute) (a : Attribute) :
    (decide (a.name ∈ attributes.map (·.name))).toNat + (addAttribute attributes a).length =
      attributes.length + 1 := by
  unfold addAttribute
  by_cases h : a.name ∈ attributes.map (·.name)
  · rw [if_pos h, decide_eq_true h, Bool.toNat_true, Nat.add_comm]
  · rw [if_neg h, decide_eq_false h, Bool.toNat_false, Nat.zero_add, List.length_append,
      List.length_singleton]

/-- The tag without its last attribute, if that repeats a name. -/
def Tag.settled (tag : Tag) (repeated : Bool) : Tag :=
  if repeated then tag.edit .dropAttribute else tag

/-! ## 2. Written start tags -/

/-- A way to write the characters of a value: as a reference, or as they stand if they have no
meaning in a value. -/
def IsWriting (write : Char → List Char) : Prop :=
  ∀ c, write c = escape c ∨ write c = [c] ∧ c ≠ '&' ∧ c ≠ '\x22'

theorem IsWriting.cases {write : Char → List Char} (h : IsWriting write) (c : Char) :
    (∃ more, write c = '&' :: more ∧ escape c = '&' :: more) ∨ write c = [c] ∧ c ≠ '&' ∧
    c ≠ '\x22' := by
  obtain heq | hplain := h c
  · obtain ⟨more, hmore⟩ | ⟨hself, hamp, -, hquot, -⟩ := escape_cases c
    · exact Or.inl ⟨more, heq.trans hmore, hmore⟩
    · exact Or.inr ⟨heq.trans hself, hamp, hquot⟩
  · exact Or.inr hplain

/-- A character of a value between double quotes: an angle bracket has no meaning there. -/
def escapeValue (c : Char) : List Char :=
  if c = '&' then ['&', 'a', 'm', 'p', ';']
  else if c = '\x22' then ['&', 'q', 'u', 'o', 't', ';']
  else if c = '\r' then ['&', '#', '1', '3', ';']
  else [c]

theorem isWriting_escape : IsWriting escape := fun _ => Or.inl rfl

theorem isWriting_escapeValue : IsWriting escapeValue := fun c => by
  unfold escapeValue
  split_ifs with hamp hquot hcr
  · exact Or.inl (by rw [hamp]; rfl)
  · exact Or.inl (by rw [hquot]; rfl)
  · exact Or.inl (by rw [hcr]; rfl)
  · exact Or.inr ⟨rfl, hamp, hquot⟩

def spaces (n : Nat) : List Char := List.replicate n ' '

/-- An attribute with its value in double quotes. -/
def Attribute.written (write : Char → List Char) (a : Attribute) : List Char :=
  a.name.toList ++ '=' :: '\x22' :: (a.value.toList.flatMap write ++ ['\x22'])

/-- A start tag of this name. In front of each attribute there is a space, and so many more. -/
def writtenStartTag (write : Char → List Char) (name : String) (parts : List (Nat × Attribute))
    (trailing : Nat) (selfClosing : Bool) : List Char :=
  '<' :: (name.toList ++ (parts.flatMap (fun p => spaces (p.1 + 1) ++ p.2.written write) ++
    (spaces trailing ++ if selfClosing then ['/', '>'] else ['>'])))

namespace Tokenizer

variable {Q : Tokenizer → Prop} {k : Tally} {s r : State} {ahead rest : List Char}
  {current : Option Token} {token : Token} {tag : Tag} {t : Tokenizer} {c : Char} {n m : Nat}
  {write : Char → List Char}

/-! ## 3. One attribute -/

/-- A tag with one more attribute. -/
def withAttribute (tag : Tag) (name value : List Char) : Tag :=
  { tag with attributes := tag.attributes ++
    [{ name := String.ofList name, value := String.ofList value }] }

theorem edit_attributeName (tag : Tag) (name : List Char) (c : Char) :
    (withAttribute tag name []).edit (.attributeName c) = withAttribute tag (name ++ [c]) [] := by
  simp only [Tag.edit, withAttribute, onLast_concat, push_ofList]

theorem edit_attributeValue (tag : Tag) (name value : List Char) (c : Char) :
    (withAttribute tag name value).edit (.attributeValue c) =
      withAttribute tag name (value ++ [c]) := by
  simp only [Tag.edit, withAttribute, onLast_concat, push_ofList]

namespace Tallied

theorem editAttribute {tag' : Tag} (h : Tallied k s ahead (some (.startTag tag)) t) {e : TagEdit}
    (he : tag.edit e = tag') : Tallied k s ahead (some (.startTag tag')) (t.editTag e) :=
  h.edit (he ▸ rfl)

theorem dropDuplicate (h : Tallied k s ahead (some (.startTag tag)) t) :
    Tallied ⟨false, k.reported⟩ s ahead (some (.startTag (tag.settled k.repeated)))
      t.dropDuplicate := by
  have hrepeated : t.duplicate = k.repeated := congrArg Tally.repeated h.tally
  have hreported : t.errors.repetitions = k.reported := congrArg Tally.reported h.tally
  have hcleared : Tallied ⟨false, k.reported⟩ s ahead (some (.startTag tag))
      { t with duplicate := false } :=
    ⟨h.state, h.ahead, h.current, h.pending, h.ended, congrArg (Tally.mk false) hreported⟩
  unfold Tokenizer.dropDuplicate Tag.settled
  rw [hrepeated]
  by_cases hk : k.repeated = true
  · rw [if_pos hk, if_pos hk]
    exact hcleared.editAttribute rfl
  · have hnone : t.tally = ⟨false, k.reported⟩ := by
      rw [Tokenizer.tally, hrepeated, hreported, Bool.eq_false_iff.2 hk]
    rw [if_neg hk, if_neg hk]
    exact ⟨h.state, h.ahead, h.current, h.pending, h.ended, hnone⟩

theorem newAttribute (h : Tallied k s ahead (some (.startTag tag)) t) :
    Tallied ⟨false, k.reported⟩ s ahead
      (some (.startTag (withAttribute (tag.settled k.repeated) [] [])))
      t.newAttribute := h.dropDuplicate.editAttribute rfl

/-- The name is complete. If it repeats one, that is reported, and noted for later. -/
theorem checkDuplicate (h : Tallied ⟨false, n⟩ s ahead (some (.startTag tag)) t) :
    Tallied ⟨tag.lastIsDuplicate, n + tag.lastIsDuplicate.toNat⟩ s ahead (some (.startTag tag))
      t.checkDuplicate := by
  have hreported : t.errors.repetitions = n := congrArg Tally.reported h.tally
  simp only [Tokenizer.checkDuplicate, h.current]
  by_cases hlast : (Token.startTag tag).lastAttributeIsDuplicate = true
  · rw [if_pos hlast, show tag.lastIsDuplicate = true from hlast]
    refine ⟨h.state, h.ahead, h.current, h.pending, h.ended, congrArg (Tally.mk true) ?_⟩
    show (t.errors.record .duplicateAttribute t.input.position).repetitions = n + 1
    rw [ErrorLog.repetitions_record, hreported, if_pos rfl]
  · rw [if_neg hlast, show tag.lastIsDuplicate = false from Bool.eq_false_iff.2 hlast]
    exact h

/-- The start tag is finished. -/
theorem finish (h : Tallied k s ahead (some (.startTag tag)) t) :
    Waits (.startTag (tag.settled k.repeated)) ahead t.finish ∧
    t.finish.errors.repetitions = k.reported := by
  have hdropped := (h.switchTo .data).dropDuplicate
  have hnone : ∀ last, At .data ahead none
      { (t.switchTo .data).dropDuplicate with current := none, lastStartTag := last } :=
    fun _ => ⟨hdropped.state, hdropped.ahead, rfl, hdropped.pending, hdropped.ended,
      congrArg Tally.repeated hdropped.tally⟩
  unfold Tokenizer.finish emitCurrent
  simp only [hdropped.current]
  exact ⟨(hnone _).enqueue _ _, congrArg Tally.reported hdropped.tally⟩

end Tallied

theorem goes_attributeName {done name : List Char}
    (hname : ∀ c ∈ name, isTagChar c = true ∧ c ≠ '=')
    (h : Tallied k .attributeName (name ++ rest) (some (.startTag (withAttribute tag done []))) t) :
    Goes (Tallied k .attributeName rest (some (.startTag (withAttribute tag (done ++ name) []))))
      t := by
  induction name generalizing done t with
  | nil =>
    rw [List.append_nil]
    exact .here h
  | cons c name ih =>
    obtain ⟨⟨hc, hequals⟩, hname⟩ := List.forall_mem_cons.1 hname
    obtain ⟨hblank, hslash, hclose, hnull, hlower⟩ := isTagChar_cases hc
    have hslash' : (c == '/') = false := by simpa using hslash
    have hclose' : (c == '>') = false := by simpa using hclose
    rw [List.append_cons]
    refine h.goes fun t' h' _ _ _ => ih hname ?_
    simp only [handle, h'.state, List.cons_append, List.head?_cons, attributeName, hblank,
      hslash', hclose', hequals, hnull, hlower, Bool.or_self, Bool.false_eq_true, if_false]
    split
    · exact (h'.report (by simp)).editAttribute (edit_attributeName ..)
    · exact h'.editAttribute (edit_attributeName ..)

/-- The first character of a name may be an equals sign. -/
theorem goes_beginAttribute {name : String} (hname : IsAttributeName name)
    (h : Tallied k .beforeAttributeName (name.toList ++ rest) (some (.startTag tag)) t) :
    Goes (Tallied ⟨false, k.reported⟩ .attributeName rest
      (some (.startTag (withAttribute (tag.settled k.repeated) name.toList [])))) t := by
  obtain ⟨c, more, hcons⟩ := List.exists_cons_of_ne_nil hname.nonempty
  obtain ⟨hc, hmore⟩ := List.forall_mem_cons.1 (hcons ▸ hname.chars)
  have htail := hname.tail
  rw [hcons] at h htail ⊢
  have hmore : ∀ x ∈ more, isTagChar x = true ∧ x ≠ '=' := fun x hx =>
    ⟨hmore x hx, fun heq => htail (heq ▸ hx)⟩
  obtain ⟨hblank, hslash, hclose, hnull, hlower⟩ := isTagChar_cases hc
  refine h.goes fun t' h' hback _ _ => ?_
  simp only [handle, h'.state, List.cons_append, List.head?_cons, beforeAttributeName, hblank,
    hslash, hclose, or_self, Bool.false_eq_true, if_false]
  split
  · next heq =>
    subst heq
    exact goes_attributeName hmore
      ((((h'.report (by simp)).newAttribute).editAttribute (edit_attributeName ..)).switchTo _)
  · next hequals =>
    have hback' : t'.newAttribute.input.pushBack.ahead = c :: more ++ rest := by
      rw [input_newAttribute]
      exact hback
    have hall : ∀ x ∈ c :: more, isTagChar x = true ∧ x ≠ '=' :=
      List.forall_mem_cons.2 ⟨⟨hc, hequals⟩, hmore⟩
    exact goes_attributeName hall (h'.newAttribute.reconsumeIn hback' .attributeName)

theorem lastIsDuplicate_withAttribute (tag : Tag) (name value : List Char) :
    (withAttribute tag name value).lastIsDuplicate =
      decide (String.ofList name ∈ tag.attributes.map (·.name)) := by
  simp only [Tag.lastIsDuplicate, withAttribute, List.getLast?_concat, List.dropLast_concat]
  rw [Bool.eq_iff_iff, List.any_eq_true, decide_eq_true_iff, List.mem_map]
  exact exists_congr fun a => and_congr_right' beq_iff_eq

/-- The name is complete, and its value follows in quotes. -/
theorem goes_openValue {name : List Char} {repeated : Bool}
    (hrepeated : repeated = decide (String.ofList name ∈ tag.attributes.map (·.name)))
    (h : Tallied ⟨false, n⟩ .attributeName ('=' :: '\x22' :: rest)
      (some (.startTag (withAttribute tag name []))) t) :
    Goes (Tallied ⟨repeated, n + repeated.toNat⟩ (.attributeValueQuoted .double) rest
      (some (.startTag (withAttribute tag name [])))) t := by
  -- whether the name is repeated is found out before the value is read
  refine h.goes fun t' h' _ _ _ => ?_
  have hequals : t'.attributeName (some '=') = t'.checkDuplicate.switchTo .beforeAttributeValue :=
    rfl
  have hchecked := h'.checkDuplicate.switchTo .beforeAttributeValue
  rw [lastIsDuplicate_withAttribute, ← hrepeated] at hchecked
  simp only [handle, h'.state, List.head?_cons, hequals]
  refine hchecked.goes fun t'' h'' _ _ _ => ?_
  simp only [handle, h''.state, List.tail_cons, List.head?_cons]
  exact .here (h''.switchTo _)

/-- What a reference in a value stands for goes to the end of the value. -/
theorem Resolves.value {quote : Quote} {name value : List Char} {x : Char}
    (h : Resolves k (.attributeValueQuoted quote) ahead
      (some (.startTag (withAttribute tag name value))) x t) :
    Tallied k (.attributeValueQuoted quote) ahead
      (some (.startTag (withAttribute tag name (value ++ [x])))) t := by
  obtain ⟨t', s, h', rfl⟩ := h
  have hattribute : ({ t' with buffer := [x] } : Tokenizer).inAttribute = true := by
    simp only [inAttribute, h'.returnState]
  have hresolve : t'.resolve [x] = { t' with buffer := [x] }.editTag (.attributeValue x) := by
    rw [resolve, flush, deliver, hattribute]
    rfl
  rw [hresolve]
  apply Tallied.switchToReturn ((h'.buffer [x]).toTallied.editAttribute (edit_attributeValue tag
    name value x))
  exact (congrArg Gauge.returnState (gauge_editTag { t' with buffer := [x] } _)).trans
    h'.returnState

theorem goes_value (hw : IsWriting write) {name value more : List Char} (hv : '\x00' ∉ more)
    (h : Tallied k (.attributeValueQuoted .double) (more.flatMap write ++ rest)
      (some (.startTag (withAttribute tag name value))) t) :
    Goes (Tallied k (.attributeValueQuoted .double) rest
      (some (.startTag (withAttribute tag name (value ++ more))))) t := by
  induction more generalizing value t with
  | nil =>
    rw [List.append_nil]
    exact .here h
  | cons c more ih =>
    obtain ⟨hc, hv⟩ := not_or.1 (List.mem_cons.not.1 hv)
    rw [List.append_cons]
    rw [List.flatMap_cons, List.append_assoc] at h
    obtain ⟨text, heq, hescape⟩ | ⟨heq, hamp, hquot⟩ := hw.cases c
    · rw [heq] at h
      refine h.goes fun t' h' _ _ _ => ?_
      simp only [handle, h'.state]
      refine (goes_escape hescape (h'.enterReference (.attributeValueQuoted .double))).trans
        fun t h => ?_
      exact ih hv h.value
    · rw [heq] at h
      refine h.goes fun t' h' _ _ _ => ih hv ?_
      have hnull : c ≠ '\x00' := Ne.symm hc
      simp only [handle, h'.state, List.singleton_append, List.head?_cons, attributeValueQuoted,
        Quote.char, hquot, hamp, hnull, if_false]
      exact h'.editAttribute (edit_attributeValue ..)

/-! ## 4. From part to part -/

/-- Inside a start tag that would be `tag` if it ended here. So many attributes have been read: each
is on the tag or has been reported. -/
def Inside (s : State) (ahead : List Char) (tag : Tag) (count : Nat) (t : Tokenizer) : Prop :=
  ∃ held k, Tallied k s ahead (some (.startTag held)) t ∧ held.settled k.repeated = tag ∧
    k.reported + tag.attributes.length = count

/-- The start tag has been read. -/
def TagRead (rest : List Char) (tag : Tag) (count : Nat) (t : Tokenizer) : Prop :=
  Waits (.startTag tag) rest t ∧ t.errors.repetitions + tag.attributes.length = count

theorem TagRead.pulls (h : TagRead rest tag n t) :
    ∃ p t', Pulls t p t' ∧ p.token = .startTag tag ∧
    t'.errors.repetitions + tag.attributes.length = n ∧
      At .data rest none t' := by
  obtain ⟨hwaits, hcount⟩ := h
  obtain ⟨position, hp⟩ := hwaits.pending
  -- taking the token from the queue reports nothing
  exact ⟨_, _, .queued hp, rfl, hcount, hwaits.rest⟩

/-- A state right after the name of the tag or a value in quotes. -/
def AfterPart (s : State) : Prop := s = .tagName ∨ s = .afterAttributeValueQuoted

theorem handle_space (hs : AfterPart t.state) :
    t.handle (some ' ') = t.switchTo .beforeAttributeName := by
  obtain hs | hs := hs <;>
  · simp only [handle, hs]
    rfl

theorem handle_close (hs : AfterPart t.state ∨ t.state = .afterAttributeName) :
    t.handle (some '>') = t.finish ∧ t.handle (some '/') = t.switchTo .selfClosingStartTag := by
  obtain (hs | hs) | hs := hs <;>
  · simp only [handle, hs]
    exact ⟨rfl, rfl⟩

theorem goes_spaces (h : Tallied k .beforeAttributeName (spaces m ++ rest) current t) :
    Goes (Tallied k .beforeAttributeName rest current) t := by
  induction m generalizing t with
  | zero => exact .here h
  | succ m ih =>
    refine h.goes fun t' h' _ _ _ => ih ?_
    simp only [handle, h'.state]
    exact h'

/-- Spaces lead from one part of the tag to the next. -/
theorem goes_apart (hs : AfterPart s) (h : Tallied k s (spaces (m + 1) ++ rest) current t) :
    Goes (Tallied k .beforeAttributeName rest current) t := by
  refine h.goes fun t' h' _ _ _ => goes_spaces (m := m) ?_
  have hspace : (spaces (m + 1) ++ rest).head? = some ' ' := rfl
  rw [hspace, handle_space (h'.state.symm ▸ hs)]
  exact h'.switchTo _

theorem settled_withAttribute {a : Attribute} {repeated : Bool}
    (h : repeated = decide (a.name ∈ tag.attributes.map (·.name))) :
    (withAttribute tag a.name.toList a.value.toList).settled repeated =
      { tag with attributes := addAttribute tag.attributes a } := by
  subst h
  unfold Tag.settled addAttribute
  by_cases hmem : a.name ∈ tag.attributes.map (·.name)
  · rw [decide_eq_true hmem, if_pos rfl, if_pos hmem]
    simp only [Tag.edit, withAttribute, List.dropLast_concat]
  · rw [decide_eq_false hmem, if_neg Bool.false_ne_true, if_neg hmem]
    simp only [withAttribute, String.ofList_toList]

/-- An attribute is on the tag or has been reported, and its value is where it belongs. -/
theorem goes_attribute (hw : IsWriting write) (hs : AfterPart s) {a : Attribute} (ha : a.WellFormed)
    (h : Inside s (spaces (m + 1) ++ (a.written write ++ rest)) tag n t) :
    Goes (Inside .afterAttributeValueQuoted rest
      { tag with attributes := addAttribute tag.attributes a } (n + 1))
      t := by
  obtain ⟨held, k, h, htag, hcount⟩ := h
  obtain ⟨repeated, hrepeated⟩ :
    ∃ repeated, repeated = decide (a.name ∈ tag.attributes.map (·.name)) := ⟨_, rfl⟩
  -- a repetition before this attribute goes when this one begins, so that the name is looked
  -- for in `tag`
  refine (goes_apart hs h).trans fun t h => ?_
  have hwritten : a.written write ++ rest =
      a.name.toList ++ '=' :: '\x22' :: (a.value.toList.flatMap write ++ '\x22' :: rest) := by
    simp [Attribute.written]
  rw [hwritten] at h
  refine (goes_beginAttribute ha.name h).trans fun t h => ?_
  rw [htag] at h
  have hopen : repeated = decide (String.ofList a.name.toList ∈ tag.attributes.map (·.name)) := by
    rw [String.ofList_toList, hrepeated]
  refine (goes_openValue hopen h).trans fun t h => ?_
  refine (goes_value hw ha.value h).trans fun t h => h.goes fun t' h' _ _ _ => ?_
  simp only [handle, h'.state, List.head?_cons]
  refine .here ⟨_, ⟨repeated, _⟩, h'.switchTo _, settled_withAttribute hrepeated, ?_⟩
  have hlength := length_addAttribute tag.attributes a
  rw [← hrepeated] at hlength
  show k.reported + repeated.toNat + (addAttribute tag.attributes a).length = n + 1
  omega

theorem goes_attributes (hw : IsWriting write) {parts : List (Nat × Attribute)} (hs : AfterPart s)
    (ha : ∀ p ∈ parts, p.2.WellFormed)
    (h : Inside s (parts.flatMap (fun p => spaces (p.1 + 1) ++ p.2.written write) ++ rest)
      tag n t) :
    Goes (fun t => ∃ s, AfterPart s ∧
      Inside s rest { tag with attributes := (parts.map (·.2)).foldl addAttribute tag.attributes }
        (n + parts.length) t) t := by
  induction parts generalizing s tag n t with
  | nil => exact .here ⟨s, hs, h⟩
  | cons p parts ih =>
    obtain ⟨hp, ha⟩ := List.forall_mem_cons.1 ha
    rw [List.flatMap_cons, List.append_assoc, List.append_assoc] at h
    refine (goes_attribute hw hs hp h).trans fun t h => ?_
    have hgoes := ih (Or.inr rfl) ha h
    rwa [Nat.add_assoc, Nat.add_comm 1] at hgoes

theorem Tallied.finished (h : Tallied k s rest (some (.startTag tag)) t) {kept : Tag}
    (hkept : tag.settled k.repeated = kept) (hcount : k.reported + kept.attributes.length = n) :
    TagRead rest kept n t.finish := by
  subst hkept
  obtain ⟨hwaits, hreported⟩ := h.finish
  exact ⟨hwaits, hreported ▸ hcount⟩

theorem goes_close (hs : AfterPart s ∨ s = .afterAttributeName) {selfClosing : Bool}
    (htag : tag.selfClosing = false)
    (h : Inside s ((if selfClosing then ['/', '>'] else ['>']) ++ rest) tag n t) :
    Goes (TagRead rest { tag with selfClosing } n) t := by
  obtain ⟨held, k, h, hheld, hcount⟩ := h
  cases selfClosing with
  | false =>
    refine h.goes fun t' h' _ _ _ => ?_
    have hhandle : t'.handle (some '>') = t'.finish := (handle_close (h'.state.symm ▸ hs)).1
    have hsame : ({ tag with selfClosing := false } : Tag) = tag := by rw [← htag]
    rw [hsame]
    exact .here (hhandle ▸ h'.finished hheld hcount)
  | true =>
    refine h.goes fun t' h' _ _ _ => ?_
    have hhandle : t'.handle (some '/') = t'.switchTo .selfClosingStartTag :=
      (handle_close (h'.state.symm ▸ hs)).2
    show Goes _ (t'.handle (some '/'))
    rw [hhandle]
    refine (h'.switchTo .selfClosingStartTag).goes fun t'' h'' _ _ _ => ?_
    have hsettled : ({ held with selfClosing := true } : Tag).settled k.repeated =
        { tag with selfClosing := true } := by
      rw [← hheld]
      unfold Tag.settled
      split <;> rfl
    show Goes _ (t''.handle (some '>'))
    simp only [handle, h''.state, selfClosingStartTag, if_true]
    exact .here ((h''.editAttribute (e := .selfClosing) rfl).finished hsettled hcount)

/-- Spaces at the end of the tag change nothing. -/
theorem goes_end (hs : AfterPart s) {selfClosing : Bool} (htag : tag.selfClosing = false)
    (h : Inside s (spaces m ++ ((if selfClosing then ['/', '>'] else ['>']) ++ rest)) tag n t) :
    Goes (TagRead rest { tag with selfClosing } n) t := by
  cases m with
  | zero => exact goes_close (Or.inl hs) htag h
  | succ m =>
    obtain ⟨held, k, h, hheld, hcount⟩ := h
    refine (goes_apart hs h).trans fun t h => h.goes fun t' h' hback _ _ => ?_
    refine goes_close (s := .afterAttributeName) (Or.inr rfl) htag ⟨held, k, ?_, hheld, hcount⟩
    have hhandle : t'.handle ((if selfClosing then ['/', '>'] else ['>']) ++ rest).head? =
        t'.reconsumeIn .afterAttributeName := by
      simp only [handle, h'.state]
      cases selfClosing <;> rfl
    rw [hhandle]
    exact h'.reconsumeIn hback _

/-! ## 5. A whole tag -/

variable {name : String} {parts : List (Nat × Attribute)} {selfClosing : Bool}

theorem goes_writtenStartTag (hw : IsWriting write) (hname : IsTagName name)
    (ha : ∀ p ∈ parts, p.2.WellFormed)
    (h : At .data (writtenStartTag write name parts m selfClosing ++ rest) none t) :
    Goes (TagRead rest { name, attributes := (parts.map (·.2)).foldl addAttribute [], selfClosing }
      (t.errors.repetitions + parts.length)) t := by
  have htext : writtenStartTag write name parts m selfClosing ++ rest = '<' :: (name.toList ++
      (parts.flatMap (fun p => spaces (p.1 + 1) ++ p.2.written write) ++
        (spaces m ++ ((if selfClosing then ['/', '>'] else ['>']) ++ rest)))) := by
    simp only [writtenStartTag, List.cons_append, List.append_assoc]
  rw [htext] at h
  refine (goes_tagOpen h.tallied).trans fun t h =>
    (goes_startTag h (isAlpha_head hname _)).trans fun t h => ?_
  refine (goes_nameOf (fun _ _ => rfl) hname h).trans fun t h => ?_
  refine (goes_attributes hw (Or.inl rfl) ha ⟨_, _, h, rfl, rfl⟩).trans fun t ⟨s, hs, h⟩ => ?_
  exact goes_end hs rfl h

/-- A start tag is read as it was written. -/
theorem goes_startTagMarkup (hw : tag.WellFormed) (h : At .data (tag.markup ++ rest) none t) :
    Goes (Waits (.startTag tag) rest) t := by
  have hmarkup : tag.markup =
      writtenStartTag escape tag.name (tag.attributes.map (Prod.mk 0)) 0 tag.selfClosing := by
    simp only [Tag.markup, writtenStartTag, List.flatMap_map]
    rfl
  have hattributes : ((tag.attributes.map (Prod.mk 0)).map (·.2)).foldl addAttribute [] =
      tag.attributes := by
    rw [List.map_map, show (·.2) ∘ Prod.mk (0 : Nat) = (id : Attribute → Attribute) from rfl,
      List.map_id]
    exact foldl_addAttribute_of_nodup hw.names
  have hparts : ∀ p ∈ tag.attributes.map (Prod.mk 0), p.2.WellFormed :=
    List.forall_mem_map.2 hw.attributes
  rw [hmarkup] at h
  refine (goes_writtenStartTag isWriting_escape hw.name hparts h).trans fun t h => .here ?_
  rw [hattributes] at h
  exact h.1

theorem return_not_mem_writtenStartTag (hname : IsTagName name) (ha : ∀ p ∈ parts, p.2.WellFormed) :
    '\r' ∉ writtenStartTag escapeValue name parts m selfClosing := by
  have hspaces (n : Nat) : '\r' ∉ spaces n := fun hc =>
    absurd (List.eq_of_mem_replicate hc) (by decide)
  have hvalue (c : Char) : '\r' ∉ escapeValue c := by
    unfold escapeValue
    split_ifs with _ _ hc
    · decide
    · decide
    · decide
    · simpa using Ne.symm hc
  have hwritten : ∀ p ∈ parts, '\r' ∉ p.2.written escapeValue := fun p hp => by
    simp [Attribute.written, return_not_mem_of_tagChars (ha p hp).name.chars, hvalue]
  have hclose : '\r' ∉ (if selfClosing then ['/', '>'] else ['>']) := by
    split <;> decide
  simp only [writtenStartTag, List.mem_cons, List.mem_append, List.mem_flatMap, not_or]
  refine ⟨by decide, return_not_mem_of_tagChars hname.chars, ?_, hspaces m, hclose⟩
  rintro ⟨p, hp, hc | hc⟩
  · exact hspaces _ hc
  · exact hwritten p hp hc

/-- However often names are repeated, the token carries the first attribute of each name with its
own value, and each of the others has been reported once. -/
theorem nextToken_of_writtenStartTag (hname : IsTagName name) (ha : ∀ p ∈ parts, p.2.WellFormed)
    (ht : Between t)
    (h : At .data (normalizeNewlines (writtenStartTag escapeValue name parts m selfClosing ++ rest))
      none t)
    (foreign : Bool) :
    let attributes := (parts.map (·.2)).eraseDupsBy fun a b => a.name == b.name
    (t.nextToken foreign).1.token = .startTag { name, attributes, selfClosing } ∧
      (t.nextToken foreign).2.errors.repetitions + attributes.length =
        t.errors.repetitions + parts.length ∧
      At .data (normalizeNewlines rest) none (t.nextToken foreign).2 := by
  intro attributes
  rw [normalizeNewlines_append (return_not_mem_writtenStartTag hname ha)] at h
  have hgoes := goes_writtenStartTag isWriting_escapeValue hname ha (h.setForeign foreign)
  rw [foldl_addAttribute] at hgoes
  obtain ⟨p, t', hpulls, hread⟩ := (hgoes.trans fun t h => .here h.pulls).pulls
  obtain ⟨rfl, rfl⟩ := hpulls.unique (ht.pulls_nextToken foreign)
  exact hread

/-- Two repetitions in a row, references in a value that is dropped, and one right before the end
of the tag. -/
theorem nextToken_of_repetitions :
    let t := ofString
      "<p a=\x221&amp;\x22 a=\x222&quot;\x22  a=\x22&#13;\x22 b=\x22<\x22 b=\x22>\x22/>c"
    IsTagName "p" ∧ Between t ∧
      (t.nextToken false).1.token = .startTag { name := "p", selfClosing := true, attributes :=
        [{ name := "a", value := "1&" }, { name := "b", value := "<" }] } ∧
      (t.nextToken false).2.errors.repetitions = 3 := by
  intro t
  have hname : IsTagName "p" := ⟨by decide, List.all_eq_true.1 (by decide)⟩
  let parts : List (Nat × Attribute) :=
    [(0, { name := "a", value := "1&" }), (0, { name := "a", value := "2\x22" }),
      (1, { name := "a", value := "\r" }), (0, { name := "b", value := "<" }),
      (0, { name := "b", value := ">" })]
  have hattribute (n : String) (hn : n = "a" ∨ n = "b") : IsAttributeName n := by
    obtain rfl | rfl := hn <;> exact ⟨by decide, List.all_eq_true.1 (by decide), by decide⟩
  have ha : ∀ p ∈ parts, p.2.WellFormed := by
    simp only [parts, List.forall_mem_cons]
    exact ⟨⟨hattribute _ (.inl rfl), by decide⟩, ⟨hattribute _ (.inl rfl), by decide⟩,
      ⟨hattribute _ (.inl rfl), by decide⟩, ⟨hattribute _ (.inr rfl), by decide⟩,
      ⟨hattribute _ (.inr rfl), by decide⟩, nofun⟩
  have hat : At .data (normalizeNewlines (writtenStartTag escapeValue "p" parts 0 true ++ ['c']))
      none t :=
    ⟨rfl, by decide, rfl, rfl, rfl, rfl⟩
  have hkept : (parts.map (·.2)).eraseDupsBy (fun a b => a.name == b.name) =
      [{ name := "a", value := "1&" }, { name := "b", value := "<" }] := by decide
  have ht : Between t := between_ofString _
  obtain ⟨htoken, hcount, -⟩ := nextToken_of_writtenStartTag hname ha ht hat false
  have hnone : t.errors.repetitions = 0 := rfl
  have hfive : parts.length = 5 := rfl
  rw [hkept] at htoken hcount
  rw [hnone, hfive] at hcount
  exact ⟨hname, ht, htoken, Nat.add_right_cancel (m := 2) hcount⟩

end Tokenizer

end Hypertext
