import Hypertext.Ascii
import Hypertext.Token
import Mathlib.Data.List.Infix

/-!
# Well-formed tokens

What can be read of a token in a text: its names are in lower case and hold nothing that would have
ended them, no null character is left, and a comment does not hold what would have closed it.
-/

namespace Hypertext

/-- Null characters and carriage returns are replaced when a text is read. -/
def isSolid (c : Char) : Bool := c != '\x00' && c != '\r'

/-- A character of a name: letters are in lower case, and blanks and `>` end the name. -/
def isNameChar (c : Char) : Bool := isSolid c && !c.isUpper && !Ascii.isBlank c && c != '>'

/-- A character of the name of a tag or an attribute, which a `/` ends as well. -/
def isTagChar (c : Char) : Bool := isNameChar c && c != '/'

structure IsTagName (name : String) : Prop where
  head : name.toList.head?.any Char.isLower = true
  chars : ∀ c ∈ name.toList, isTagChar c = true

/-- An equals sign is part of a name at its front only. -/
structure IsAttributeName (name : String) : Prop where
  nonempty : name.toList ≠ []
  chars : ∀ c ∈ name.toList, isTagChar c = true
  tail : '=' ∉ name.toList.tail

structure IsDoctypeName (name : String) : Prop where
  nonempty : name.toList ≠ []
  chars : ∀ c ∈ name.toList, isNameChar c = true

/-- One of the two quotes is free to go around the identifier. -/
structure IsIdentifier (id : String) : Prop where
  chars : ∀ c ∈ id.toList, isSolid c = true ∧ c ≠ '>'
  quotes : ¬ ('\x22' ∈ id.toList ∧ '\x27' ∈ id.toList)

/-- The text of a comment does not hold an end of it, and is no end right after its opening. -/
structure IsCommentText (text : List Char) : Prop where
  chars : ∀ c ∈ text, isSolid c = true
  close : ¬ ['-', '-', '>'] <:+: text
  closeBang : ¬ ['-', '-', '!', '>'] <:+: text
  abrupt : ¬ ['>'] <+: text
  abruptDash : ¬ ['-', '>'] <+: text

structure Attribute.WellFormed (a : Attribute) : Prop where
  name : IsAttributeName a.name
  value : '\x00' ∉ a.value.toList

structure Doctype.WellFormed (d : Doctype) : Prop where
  name : ∀ name, d.name = some name → IsDoctypeName name
  publicId : ∀ id, d.publicId = some id → IsIdentifier id
  systemId : ∀ id, d.systemId = some id → IsIdentifier id

/-- No two attributes have the same name. -/
structure Tag.WellFormed (t : Tag) : Prop where
  name : IsTagName t.name
  names : (t.attributes.map (·.name)).Nodup
  attributes : ∀ a ∈ t.attributes, a.WellFormed

/-- An end tag has nothing but its name. -/
def Token.WellFormed : Token → Prop
  | .doctype d => d.WellFormed
  | .startTag t => t.WellFormed
  | .endTag t => IsTagName t.name ∧ t.attributes = [] ∧ t.selfClosing = false
  | .comment data => IsCommentText data.toList
  | .character _ | .endOfFile => True

/-! ## Letters -/

theorem toLower_cases (c : Char) :
    c.isUpper = false ∧ c.toLower = c ∨ c.isUpper = true ∧ c.toLower.isLower = true := by
  by_cases h : c.isUpper = true
  · refine Or.inr ⟨h, ?_⟩
    have h : c.val ≥ 'A'.val ∧ c.val ≤ 'Z'.val := of_decide_eq_true h
    delta Char.isLower Char.toLower
    simp only [ge_iff_le, UInt32.le_iff_toNat_le] at h ⊢
    rw [dif_pos h]
    have hshift : ('a'.val - 'A'.val).toNat = 32 := by decide
    have hA : 'A'.val.toNat = 65 := by decide
    have hZ : 'Z'.val.toNat = 90 := by decide
    have ha : 'a'.val.toNat = 97 := by decide
    have hz : 'z'.val.toNat = 122 := by decide
    have hadd : (c.val + ('a'.val - 'A'.val)).toNat = c.val.toNat + 32 := by
      rw [UInt32.toNat_add]
      omega
    simp only [Bool.and_eq_true, decide_eq_true_eq]
    omega
  · refine Or.inl ⟨Bool.eq_false_iff.2 h, ?_⟩
    have h : ¬ (c.val ≥ 'A'.val ∧ c.val ≤ 'Z'.val) := fun hrange => h (decide_eq_true hrange)
    delta Char.toLower
    rw [dif_neg h]

theorem isTagChar_of_isLower {c : Char} (h : c.isLower = true) : isTagChar c = true := by
  have hne : ∀ d : Char, d.isLower = false → c ≠ d := by
    rintro d hd rfl
    rw [h] at hd
    cases hd
  have hupper : c.isUpper = false := by
    delta Char.isLower at h
    delta Char.isUpper
    simp only [Bool.and_eq_true, decide_eq_true_eq,
      decide_eq_false_iff_not, ge_iff_le, UInt32.le_iff_toNat_le] at h ⊢
    have hZ : 'Z'.val.toNat = 90 := by decide
    have ha : 'a'.val.toNat = 97 := by decide
    omega
  simp [isTagChar, isNameChar, isSolid, Ascii.isBlank, hupper, hne '\x00' rfl, hne '\r' rfl,
    hne '\t' rfl, hne '\n' rfl, hne '\x0c' rfl, hne ' ' rfl, hne '>' rfl, hne '/' rfl]

theorem isNameChar_of_isTagChar {c : Char} (h : isTagChar c = true) : isNameChar c = true :=
  (Bool.and_eq_true_iff.1 h).1

/-- Where no name ends, the character that is read goes into it in lower case. -/
theorem isNameChar_toLower {c : Char} (hs : isSolid c = true) (hb : Ascii.isBlank c = false)
    (hc : c ≠ '>') : isNameChar c.toLower = true := by
  obtain ⟨hupper, heq⟩ | ⟨-, hlower⟩ := toLower_cases c
  · rw [heq]
    simp [isNameChar, hs, hupper, hb, hc]
  · exact isNameChar_of_isTagChar (isTagChar_of_isLower hlower)

theorem isTagChar_toLower {c : Char} (hs : isSolid c = true) (hb : Ascii.isBlank c = false)
    (hc : c ≠ '>') (hslash : c ≠ '/') : isTagChar c.toLower = true := by
  obtain ⟨hupper, heq⟩ | ⟨-, hlower⟩ := toLower_cases c
  · rw [heq]
    simp [isTagChar, isNameChar, hs, hupper, hb, hc, hslash]
  · exact isTagChar_of_isLower hlower

theorem isLower_toLower {c : Char} (h : c.isAlpha = true) : c.toLower.isLower = true := by
  obtain ⟨hupper, heq⟩ | ⟨-, hlower⟩ := toLower_cases c
  · rw [heq]
    have hcase : (c.isUpper || c.isLower) = true := h
    simpa [hupper] using hcase
  · exact hlower

theorem toLower_of_isLower {c : Char} (h : c.isLower = true) : c.toLower = c := by
  obtain ⟨-, heq⟩ | ⟨hupper, -⟩ := toLower_cases c
  · exact heq
  · have hname := isNameChar_of_isTagChar (isTagChar_of_isLower h)
    simp only [isNameChar, hupper, Bool.not_true, Bool.and_false, Bool.false_and] at hname
    cases hname

theorem toLower_toLower (c : Char) : c.toLower.toLower = c.toLower := by
  obtain ⟨-, heq⟩ | ⟨-, hlower⟩ := toLower_cases c
  · rw [heq, heq]
  · exact toLower_of_isLower hlower

/-- Lower case does not depend on the case before. -/
theorem toLower_toUpper (c : Char) : c.toUpper.toLower = c.toLower := by
  by_cases h : c.isLower = true
  · -- the letters are few
    have hrange : 97 ≤ c.toNat ∧ c.toNat < 123 := by
      unfold Char.isLower at h
      simp only [Bool.and_eq_true, decide_eq_true_eq, ge_iff_le, UInt32.le_iff_toNat_le] at h
      have ha : 'a'.val.toNat = 97 := by decide
      have hz : 'z'.val.toNat = 122 := by decide
      have hc : c.val.toNat = c.toNat := rfl
      omega
    rw [← Char.ofNat_toNat c]
    exact (by decide : ∀ n < 123, 97 ≤ n →
      (Char.ofNat n).toUpper.toLower = (Char.ofNat n).toLower) _ hrange.2 hrange.1
  · have h : ¬ (c.val ≥ 'a'.val ∧ c.val ≤ 'z'.val) := fun hrange => h <| by
      delta Char.isLower
      simpa using hrange
    have heq : c.toUpper = c := by
      delta Char.toUpper
      rw [dif_neg h]
    rw [heq]

theorem toLower_ne_null {c : Char} (hc : c ≠ '\x00') : c.toLower ≠ '\x00' := by
  obtain ⟨-, heq⟩ | ⟨-, hlower⟩ := toLower_cases c
  · rwa [heq]
  · intro heq
    rw [heq] at hlower
    exact absurd hlower (by decide)

/-! ## The text of comments -/

namespace IsCommentText

variable {text : List Char} {c : Char}

/-- A `>` would close the comment here. -/
def Ready (text : List Char) : Prop :=
  text = [] ∨ text = ['-'] ∨ ['-', '-'] <:+ text ∨ ['-', '-', '!'] <:+ text

theorem nil : IsCommentText [] := ⟨by simp, by simp, by simp, by simp, by simp⟩

theorem infix_concat {l : List Char} (h : ¬ l ++ [c] <:+: text) {d : Char}
    (hd : d = c → ¬ l <:+ text) : ¬ l ++ [c] <:+: text ++ [d] := fun hi => by
  obtain hs | hi := List.infix_concat_iff.1 hi
  · obtain hnil | ⟨l', heq, hs⟩ := List.suffix_concat_iff.1 hs
    · simp at hnil
    · obtain ⟨hl, hc⟩ := List.append_inj' heq rfl
      exact hd (List.singleton_inj.1 hc).symm (hl ▸ hs)
  · exact h hi

theorem prefix_concat {l : List Char} (h : ¬ l ++ [c] <+: text) {d : Char}
    (hd : d = c → text ≠ l) : ¬ l ++ [c] <+: text ++ [d] := fun hp => by
  obtain heq | hp := List.prefix_concat_iff.1 hp
  · obtain ⟨heq, hc⟩ := List.append_inj' heq rfl
    exact hd (List.singleton_inj.1 hc).symm heq.symm
  · exact h hp

/-- Only a `>` can close a comment. -/
theorem push (h : IsCommentText text) (hc : isSolid c = true) (hr : c = '>' → ¬ Ready text) :
    IsCommentText (text ++ [c]) where
  chars d hd := (List.mem_append.1 hd).elim (h.chars d) fun hd => List.mem_singleton.1 hd ▸ hc
  close := infix_concat h.close fun hd hs => hr hd (Or.inr (Or.inr (Or.inl hs)))
  closeBang := infix_concat h.closeBang fun hd hs => hr hd (Or.inr (Or.inr (Or.inr hs)))
  abrupt := prefix_concat (l := []) h.abrupt fun hd heq => hr hd (Or.inl heq)
  abruptDash := prefix_concat (l := ['-']) h.abruptDash fun hd heq => hr hd (Or.inr (Or.inl heq))

/-- Where a `>` stands, none would close the comment. -/
theorem not_ready {more : List Char} (h : IsCommentText (text ++ '>' :: more)) : ¬ Ready text := by
  rintro (rfl | rfl | ⟨before, rfl⟩ | ⟨before, rfl⟩)
  · exact h.abrupt ⟨more, rfl⟩
  · exact h.abruptDash ⟨more, rfl⟩
  · exact h.close ⟨before, more, by simp⟩
  · exact h.closeBang ⟨before, more, by simp⟩

end IsCommentText

/-! ## Nulls -/

/-- A string without nulls. -/
def NullFree (s : String) : Prop := '\x00' ∉ s.toList

instance (s : String) : Decidable (NullFree s) := inferInstanceAs (Decidable (_ ∉ _))

theorem NullFree.append {s t : String} (hs : NullFree s) (ht : NullFree t) : NullFree (s ++ t) := by
  rw [NullFree, String.toList_append, List.mem_append]
  exact not_or.2 ⟨hs, ht⟩

theorem NullFree.push {s : String} {c : Char} (hs : NullFree s) (hc : c ≠ '\x00') :
    NullFree (s.push c) := by
  rw [NullFree, String.toList_push, List.mem_append, List.mem_singleton]
  exact not_or.2 ⟨hs, hc.symm⟩

structure Attribute.NullFree (a : Attribute) : Prop where
  name : Hypertext.NullFree a.name
  value : Hypertext.NullFree a.value

structure Tag.NullFree (t : Tag) : Prop where
  name : Hypertext.NullFree t.name
  attributes : ∀ a ∈ t.attributes, a.NullFree

structure Doctype.NullFree (d : Doctype) : Prop where
  name : ∀ s ∈ d.name, Hypertext.NullFree s
  publicId : ∀ s ∈ d.publicId, Hypertext.NullFree s
  systemId : ∀ s ∈ d.systemId, Hypertext.NullFree s

/-- A token that has no nulls. -/
def Token.NullFree : Token → Prop
  | .doctype d => d.NullFree
  | .startTag t | .endTag t => t.NullFree
  | .comment s => Hypertext.NullFree s
  | .character c => c ≠ '\x00'
  | .endOfFile => True

end Hypertext
