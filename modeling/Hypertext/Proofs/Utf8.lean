/-!
# The order of texts

Texts are in the same order by their characters and by the bytes that these are written with: of two
characters, the one with the larger code point has the larger bytes, and no longer ones have a
smaller first byte.
-/

namespace Hypertext

/-- The bytes of a text. -/
def utf8 (text : List Char) : List UInt8 := text.flatMap String.utf8EncodeChar

variable {a b : Nat} {x y : List UInt8} {c d : Char} {text text' : List Char}

theorem ofNat_cons_lt_iff (ha : a < 256) (hb : b < 256) :
    UInt8.ofNat a :: x < UInt8.ofNat b :: y ↔ a < b ∨ a = b ∧ x < y := by
  rw [List.cons_lt_cons_iff, UInt8.lt_iff_toNat_lt, ← UInt8.toNat_inj, UInt8.toNat_ofNat_of_lt' ha,
    UInt8.toNat_ofNat_of_lt' hb]

/-- One to four bytes; the first shows how many there are, and the others are the digits of the
code point. -/
theorem utf8EncodeChar_cases (c : Char) {v : Nat} (hv : c.val.toNat = v) :
    v ≤ 0x7F ∧ String.utf8EncodeChar c = [UInt8.ofNat v] ∨
    (0x7F < v ∧ v ≤ 0x7FF) ∧
    String.utf8EncodeChar c = [UInt8.ofNat (v / 64 % 32 + 192), UInt8.ofNat (v % 64 + 128)] ∨
    (0x7FF < v ∧ v ≤ 0xFFFF) ∧ String.utf8EncodeChar c =
      [UInt8.ofNat (v / 4096 % 16 + 224), UInt8.ofNat (v / 64 % 64 + 128),
        UInt8.ofNat (v % 64 + 128)] ∨
    (0xFFFF < v ∧ v < 0x110000) ∧ String.utf8EncodeChar c =
      [UInt8.ofNat (v / 262144 % 8 + 240), UInt8.ofNat (v / 4096 % 64 + 128),
        UInt8.ofNat (v / 64 % 64 + 128), UInt8.ofNat (v % 64 + 128)] := by
  have hmax : v < 0x110000 := by
    have hvalid := c.valid
    simp only [UInt32.isValidChar, Nat.isValidChar] at hvalid
    omega
  subst hv
  by_cases hone : c.val.toNat ≤ 0x7F
  · exact Or.inl ⟨hone, if_pos hone⟩
  · by_cases htwo : c.val.toNat ≤ 0x7FF
    · exact Or.inr (Or.inl ⟨⟨by omega, htwo⟩, (if_neg hone).trans (if_pos htwo)⟩)
    · by_cases hthree : c.val.toNat ≤ 0xFFFF
      · exact Or.inr (Or.inr (Or.inl ⟨⟨by omega, hthree⟩,
          (if_neg hone).trans ((if_neg htwo).trans (if_pos hthree))⟩))
      · exact Or.inr (Or.inr (Or.inr ⟨⟨by omega, hmax⟩,
          (if_neg hone).trans ((if_neg htwo).trans (if_neg hthree))⟩))

theorem utf8EncodeChar_append_lt (h : c < d) (x y : List UInt8) :
    String.utf8EncodeChar c ++ x < String.utf8EncodeChar d ++ y := by
  have hless : c.val.toNat < d.val.toNat := UInt32.lt_iff_toNat_lt.1 h
  have hdigits (n : Nat) : n / 4096 = n / 64 / 64 ∧ n / 262144 = n / 64 / 64 / 64 := by omega
  generalize hv : c.val.toNat = v at hless
  generalize hw : d.val.toNat = w at hless
  obtain ⟨hc, heq⟩ | ⟨hc, heq⟩ | ⟨hc, heq⟩ | ⟨hc, heq⟩ := utf8EncodeChar_cases c hv
  all_goals obtain ⟨hd, heq'⟩ | ⟨hd, heq'⟩ | ⟨hd, heq'⟩ | ⟨hd, heq'⟩ := utf8EncodeChar_cases d hw
  -- the smaller code point has no more bytes than the larger one
  all_goals try omega
  all_goals
    rw [heq, heq']
    clear hv hw heq heq' h
    simp (disch := omega) only [ofNat_cons_lt_iff, hdigits, List.cons_append, List.nil_append]
    omega

theorem utf8_lt_of_lt (h : text < text') : utf8 text < utf8 text' := by
  induction text generalizing text' with
  | nil =>
    cases text' with
    | nil => exact absurd h (List.lt_irrefl [])
    | cons d text' =>
      obtain ⟨byte, bytes, hbytes⟩ :=
        List.exists_cons_of_ne_nil (String.utf8EncodeChar_ne_nil (c := d))
      rw [utf8, utf8, List.flatMap_nil, List.flatMap_cons, hbytes]
      exact List.nil_lt_cons ..
  | cons c text ih =>
    cases text' with
    | nil => exact absurd h (List.not_lt_nil _)
    | cons d text' =>
      rw [utf8, utf8, List.flatMap_cons, List.flatMap_cons]
      obtain hless | ⟨rfl, hrest⟩ := List.cons_lt_cons_iff.1 h
      · exact utf8EncodeChar_append_lt hless ..
      · exact List.append_left_lt (ih hrest)

/-- Texts are ordered as their bytes are. -/
theorem utf8_lt_utf8_iff : utf8 text < utf8 text' ↔ text < text' := by
  refine ⟨fun h => ?_, utf8_lt_of_lt⟩
  obtain hless | rfl | hmore := Std.lt_trichotomy text text'
  · exact hless
  · exact absurd h (List.lt_irrefl _)
  · exact absurd h (List.lt_asymm (utf8_lt_of_lt hmore))

end Hypertext
