import Hypertext.Conformance.Slices
import Mathlib.Data.List.Infix

/-!
# Escapes are undone

What is written in escapes, one for each UTF-16 code unit, is read back. Whatever the text is, the
pass by slices comes to an end, never cuts a character, and gives what the pieces of the text give.
-/

namespace Hypertext

/-! ## 1. Characters of pieces -/

namespace Utf16

variable {pieces rest : List Piece} {c : Char} {v w : Nat}

/-- The characters of the text of the pieces. -/
def characters (pieces : List Piece) : List Char :=
  (paired pieces).map fun piece => piece.char?.getD '\uFFFD'

theorem characters_char (c : Char) (pieces : List Piece) :
    characters (.char c :: pieces) = c :: characters pieces := rfl

theorem characters_map_char (text : List Char) (pieces : List Piece) :
    characters (text.map .char ++ pieces) = text ++ characters pieces := by
  induction text with
  | nil => rfl
  | cons c text ih => exact congrArg (c :: ·) ih

theorem not_isLead_of_isTrail (h : isTrail v = true) : isLead v = false := by
  simp only [isTrail, Bool.and_eq_true, decide_eq_true_eq] at h
  simp only [isLead, Bool.and_eq_false_iff, decide_eq_false_iff_not]
  omega

/-- A unit that is in front of the paired pieces was in front before. -/
theorem exists_of_paired_eq (h : paired pieces = .unit v :: rest) :
    ∃ rest', pieces = .unit v :: rest' := by
  cases pieces with
  | nil => cases h
  | cons piece pieces =>
    rw [paired, List.foldr_cons] at h
    unfold Piece.join at h
    split at h
    · split at h
      · cases h
      · cases h
        exact ⟨pieces, rfl⟩
    · cases h
      exact ⟨pieces, rfl⟩

/-- A unit stays alone if no unit follows that closes a pair with it. -/
theorem paired_unit (h : ∀ w rest, pieces = .unit w :: rest → (isLead v && isTrail w) = false) :
    paired (.unit v :: pieces) = .unit v :: paired pieces := by
  show Piece.join (.unit v) (paired pieces) = _
  unfold Piece.join
  split
  · next hpiece hpaired =>
    cases hpiece
    obtain ⟨rest', rfl⟩ := exists_of_paired_eq hpaired
    rw [h _ _ rfl, if_neg Bool.false_ne_true, hpaired]
  · rfl

theorem characters_unit (h : ∀ w rest, pieces = .unit w :: rest → (isLead v && isTrail w) = false) :
    characters (.unit v :: pieces) = (Piece.unit v).char?.getD '\uFFFD' :: characters pieces := by
  rw [characters, paired_unit h]
  rfl

theorem characters_pair (hv : isLead v = true) (hw : isTrail w = true) (pieces : List Piece) :
    characters (.unit v :: .unit w :: pieces) = ofPair v w :: characters pieces := by
  have htrail : paired (.unit w :: pieces) = .unit w :: paired pieces :=
    paired_unit fun _ _ _ => by rw [not_isLead_of_isTrail hw, Bool.false_and]
  have hjoin : paired (.unit v :: .unit w :: pieces) = paired (.char (ofPair v w) :: pieces) := by
    show Piece.join (.unit v) (paired (.unit w :: pieces)) = .char (ofPair v w) :: paired pieces
    rw [htrail, Piece.join, hv, hw, Bool.true_and, if_pos rfl]
  rw [characters, hjoin]
  exact characters_char ..

/-- The units of a character are put together again. -/
theorem characters_units (c : Char) (pieces : List Piece) :
    characters ((units c).map .unit ++ pieces) = c :: characters pieces := by
  have hvalid : c.toNat.isValidChar := c.valid
  have hrange := hvalid
  unfold Nat.isValidChar at hrange
  unfold units
  split
  · have hlead : isLead c.toNat = false := by
      simp only [isLead, Bool.and_eq_false_iff, decide_eq_false_iff_not]
      omega
    rw [List.map_singleton, List.singleton_append,
      characters_unit fun _ _ _ => by rw [hlead, Bool.false_and]]
    rw [Piece.char?, if_pos hvalid, Option.getD_some, Char.ofNat_toNat]
  · next hlarge =>
    have hlead : isLead (0xD800 + (c.toNat - 0x10000) / 0x400) = true := by
      simp only [isLead, Bool.and_eq_true, decide_eq_true_eq]
      omega
    have htrail : isTrail (0xDC00 + (c.toNat - 0x10000) % 0x400) = true := by
      simp only [isTrail, Bool.and_eq_true, decide_eq_true_eq]
      omega
    have hcode : 0x10000 + (0xD800 + (c.toNat - 0x10000) / 0x400 - 0xD800) * 0x400 +
        (0xDC00 + (c.toNat - 0x10000) % 0x400 - 0xDC00) = c.toNat := by omega
    rw [List.map_cons, List.map_singleton, List.cons_append, List.singleton_append,
      characters_pair hlead htrail, ofPair, hcode, Char.ofNat_toNat]

end Utf16

namespace Conformance

open Utf16

variable {text front after rest : List Char} {c : Char} {v n : Nat}

/-! ## 2. Pieces of a text -/

/-- What opens an escape. -/
def opening : List Char := ['\\', 'u']

theorem pieces_cons (h : ¬ opening <+: c :: text) :
    pieces (c :: text) = .char c :: pieces text := by
  rw [pieces]
  rintro a b c' d rest rfl rfl
  exact h ⟨a :: b :: c' :: d :: rest, rfl⟩

theorem pieces_escape {a b c d : Char} (h : unitOf? a b c d = some v) (rest : List Char) :
    pieces (opening ++ ([a, b, c, d] ++ rest)) = .unit v :: pieces rest := by
  show pieces ('\\' :: 'u' :: a :: b :: c :: d :: rest) = _
  rw [pieces, h]

/-- An opening that no unit follows stands for itself. -/
theorem pieces_opening (h : ∀ a b c d rest, text = [a, b, c, d] ++ rest → unitOf? a b c d = none) :
    pieces (opening ++ text) = .char '\\' :: .char 'u' :: pieces text := by
  show pieces ('\\' :: 'u' :: text) = _
  have hu : pieces ('u' :: text) = .char 'u' :: pieces text := pieces_cons (by rintro ⟨_, ⟨⟩⟩)
  match text with
  | a :: b :: c :: d :: rest => rw [pieces, h a b c d rest rfl]
  | [] | [_] | [_, _] | [_, _, _] =>
    rw [pieces.eq_2 _ _ (by simp), hu]

theorem pieces_of_plain (h : ¬ opening <:+: text) : pieces text = text.map .char := by
  induction text with
  | nil => rfl
  | cons c text ih =>
    rw [pieces_cons fun hopens => h hopens.isInfix, ih fun hlater => h (List.infix_cons hlater)]
    rfl

theorem exists_of_pieces_eq {ps : List Piece} (h : pieces text = .unit v :: ps) :
    ∃ a b c d rest, text = opening ++ ([a, b, c, d] ++ rest) ∧ unitOf? a b c d = some v := by
  fun_cases pieces text with
  | case1 a b c d rest value hvalue =>
    rw [pieces, hvalue] at h
    cases h
    exact ⟨a, b, c, d, rest, rfl, hvalue⟩
  | case2 a b c d rest hnone =>
    rw [pieces, hnone] at h
    cases h
  | case3 c rest hno =>
    rw [pieces.eq_2 c rest hno] at h
    cases h
  | case4 => cases h

theorem characters_pieces_of_plain (h : ¬ opening <:+: text) : characters (pieces text) = text := by
  rw [pieces_of_plain h, ← List.append_nil (text.map _), characters_map_char]
  exact List.append_nil text

/-! ## 3. Written escapes -/

/-- A hexadecimal digit, in upper or lower case if it is a letter. -/
def hexDigit (upper : Bool) (n : Nat) : Char := if upper then n.digitChar.toUpper else n.digitChar

theorem hexValue?_hexDigit : ∀ upper, ∀ n < 0x10,
    Ascii.hexValue? (hexDigit upper n) = some n ∧ hexDigit upper n ≠ '+' := by
  decide

/-- The escape of a unit. The case of each digit is free. -/
def IsEscape (unit : Nat) (text : List Char) : Prop := ∃ a b c d : Bool, text = opening ++
  [hexDigit a (unit / 0x1000 % 0x10), hexDigit b (unit / 0x100 % 0x10),
    hexDigit c (unit / 0x10 % 0x10), hexDigit d (unit % 0x10)]

/-- A text in escapes, one for each unit of each character. -/
def Escaped (text escaped : String) : Prop := ∃ parts,
  List.Forall₂ IsEscape (text.toList.flatMap units) parts ∧ escaped.toList = parts.flatten

theorem lt_of_mem_units (h : v ∈ units c) : v < 0x10000 := by
  have hvalid : c.toNat.isValidChar := c.valid
  unfold Nat.isValidChar at hvalid
  unfold units at h
  split at h
  · rw [List.mem_singleton.1 h]
    assumption
  · rcases List.mem_pair.1 h with hv | hv
    · omega
    · omega

theorem pieces_isEscape (h : IsEscape v text) (hv : v < 0x10000) (rest : List Char) :
    pieces (text ++ rest) = .unit v :: pieces rest := by
  obtain ⟨a, b, c, d, rfl⟩ := h
  have hdigit (upper : Bool) (n : Nat) :=
    hexValue?_hexDigit upper (n % 0x10) (Nat.mod_lt n (by decide))
  rw [List.append_assoc]
  apply pieces_escape
  rw [unitOf?, if_neg (hdigit a _).2, Ascii.hexNumber?]
  simp only [List.foldlM_cons, List.foldlM_nil, (hdigit _ _).1, Option.map_some,
    Option.bind_eq_bind, Option.bind_some, Option.pure_def, Option.some.injEq]
  omega

theorem pieces_of_escaped {unitList : List Nat} {parts : List (List Char)}
    (h : List.Forall₂ IsEscape unitList parts)
    (hlt : ∀ v ∈ unitList, v < 0x10000) : pieces parts.flatten = unitList.map .unit := by
  induction h with
  | nil => rfl
  | cons hpart _ ih =>
    obtain ⟨hv, hlt⟩ := List.forall_mem_cons.1 hlt
    rw [List.flatten_cons, pieces_isEscape hpart hv, ih hlt]
    rfl

theorem characters_flatMap_units (text : List Char) :
    characters ((text.flatMap units).map .unit) = text := by
  induction text with
  | nil => rfl
  | cons c text ih => rw [List.flatMap_cons, List.map_append, characters_units, ih]

theorem toList_unescape (text : String) :
    (unescape text).toList = characters (pieces text.toList) :=
  String.toList_ofList

theorem unescape_of_escaped {text escaped : String} (h : Escaped text escaped) :
    unescape escaped = text := by
  obtain ⟨parts, hparts, hescaped⟩ := h
  have hlt : ∀ v ∈ text.toList.flatMap units, v < 0x10000 := fun v hv => by
    obtain ⟨c, -, hc⟩ := List.mem_flatMap.1 hv
    exact lt_of_mem_units hc
  rw [← String.toList_inj, toList_unescape, hescaped, pieces_of_escaped hparts hlt,
    characters_flatMap_units]

/-! ## 4. Cuts -/

/-- The number of bytes of a text in UTF-8. -/
def byteLength : List Char → Nat
  | [] => 0
  | c :: text => c.utf8Size + byteLength text

theorem byteLength_cons (c : Char) (text : List Char) :
    byteLength (c :: text) = c.utf8Size + byteLength text := rfl

theorem byteLength_append (front after : List Char) :
    byteLength (front ++ after) = byteLength front + byteLength after := by
  induction front with
  | nil => exact (Nat.zero_add _).symm
  | cons c front ih => rw [List.cons_append, byteLength_cons, byteLength_cons, ih, Nat.add_assoc]

theorem byteLength_of_single (h : ∀ c ∈ text, c.utf8Size = 1) : byteLength text = text.length := by
  induction text with
  | nil => rfl
  | cons c text ih =>
    obtain ⟨hc, htext⟩ := List.forall_mem_cons.1 h
    rw [byteLength_cons, hc, ih htext, List.length_cons, Nat.add_comm]

theorem cut?_append (front after : List Char) :
    cut? (front ++ after) (byteLength front) = some (front, after) := by
  induction front with
  | nil => cases after <;> rfl
  | cons c front ih =>
    obtain ⟨k, hk⟩ : ∃ k, byteLength (c :: front) = k + 1 :=
      Nat.exists_eq_add_one_of_ne_zero (by rw [byteLength_cons]; have := c.utf8Size_pos; omega)
    rw [byteLength_cons] at hk
    rw [byteLength_cons, hk, List.cons_append, cut?, if_pos (by omega)]
    rw [show k + 1 - c.utf8Size = byteLength front by omega, ih]
    rfl

theorem eq_of_cut? (h : cut? text n = some (front, after)) :
    text = front ++ after ∧ byteLength front = n := by
  fun_induction cut? text n generalizing front after with
  | case1 text =>
    cases h
    exact ⟨rfl, rfl⟩
  | case2 => cases h
  | case3 c text bytes hle ih =>
    obtain ⟨⟨front', after'⟩, hcut, heq⟩ := Option.map_eq_some_iff.1 h
    cases heq
    obtain ⟨rfl, hlength⟩ := ih hcut
    refine ⟨rfl, ?_⟩
    rw [byteLength_cons, hlength]
    omega
  | case4 => cases h

theorem escapeAt?_eq_none (h : escapeAt? text = none) : ¬ opening <:+: text := by
  induction text with
  | nil => exact fun hlater => by cases List.infix_nil.1 hlater
  | cons c text ih =>
    unfold escapeAt? at h
    split at h
    · cases h
    · next hfront =>
      rw [List.infix_cons_iff]
      rintro (hopens | hlater)
      · exact hfront (List.isPrefixOf_iff_prefix.2 hopens)
      · exact ih (Option.map_eq_none_iff.1 h) hlater

/-- What is in front of the first opening is read as it is. -/
theorem exists_of_escapeAt? (h : escapeAt? text = some n) : ∃ front after,
    text = front ++ (opening ++ after) ∧ byteLength front = n ∧
      pieces text = front.map .char ++ pieces (opening ++ after) := by
  induction text generalizing n with
  | nil => cases h
  | cons c text ih =>
    unfold escapeAt? at h
    split at h
    · next hfront =>
      cases h
      obtain ⟨after, hafter⟩ := List.isPrefixOf_iff_prefix.1 hfront
      exact ⟨[], after, hafter.symm, rfl, congrArg pieces hafter.symm⟩
    · next hfront =>
      obtain ⟨m, hm, rfl⟩ := Option.map_eq_some_iff.1 h
      obtain ⟨front, after, rfl, rfl, hpieces⟩ := ih hm
      have hcons := pieces_cons fun hopens => hfront (List.isPrefixOf_iff_prefix.2 hopens)
      exact ⟨c :: front, after, rfl, rfl, hcons.trans (congrArg _ hpieces)⟩

/-! ## 5. Units -/

theorem utf8Size_of_hexValue? (h : Ascii.hexValue? c = some v) : c.utf8Size = 1 := by
  have hle {d : Char} (hc : c ≤ d) (hd : d.val ≤ 127) : c.utf8Size = 1 :=
    Char.utf8Size_eq_one_iff.2 (UInt32.le_trans hc hd)
  unfold Ascii.hexValue? at h
  split_ifs at h with hdigit hlower hupper
  · exact hle (d := '9') (of_decide_eq_true (Bool.and_eq_true_iff.1 hdigit).2) (by decide)
  · exact hle hlower.2 (by decide)
  · exact hle hupper.2 (by decide)

theorem utf8Size_of_foldlM {digits : List Char} (m : Nat)
    (h : digits.foldlM (fun n c => (Ascii.hexValue? c).map (n * 16 + ·)) m = some v) :
    ∀ c ∈ digits, c.utf8Size = 1 := by
  induction digits generalizing m with
  | nil => exact List.forall_mem_nil _
  | cons c digits ih =>
    rw [List.foldlM_cons] at h
    obtain ⟨m', hm, hrest⟩ := Option.bind_eq_some_iff.1 h
    obtain ⟨w, hw, -⟩ := Option.map_eq_some_iff.1 hm
    exact List.forall_mem_cons.2 ⟨utf8Size_of_hexValue? hw, ih m' hrest⟩

/-- Nothing but ASCII is in a number. -/
theorem utf8Size_of_signedHex? (h : signedHex? text = some v) : ∀ c ∈ text, c.utf8Size = 1 := by
  unfold signedHex? at h
  split_ifs at h with hempty
  have hdigits := utf8Size_of_foldlM 0 h
  unfold withoutPlus at hdigits
  split at hdigits
  · exact List.forall_mem_cons.2 ⟨by decide, hdigits⟩
  · exact hdigits

theorem signedHex?_four (a b c d : Char) : signedHex? [a, b, c, d] = unitOf? a b c d := by
  unfold unitOf?
  split
  · next ha =>
    rw [ha]
    rfl
  · next ha =>
    have hdigits : withoutPlus [a, b, c, d] = [a, b, c, d] := by
      unfold withoutPlus
      split
      · next heq => exact absurd (List.cons.inj heq).1 ha
      · rfl
    rw [signedHex?, hdigits]
    rfl

theorem exists_of_unitAt? (h : unitAt? text = some v) : ∃ a b c d rest,
    text = [a, b, c, d] ++ rest ∧ byteLength [a, b, c, d] = 4 ∧ unitOf? a b c d = some v := by
  obtain ⟨⟨digits, rest⟩, hcut, hv⟩ := Option.bind_eq_some_iff.1 h
  obtain ⟨rfl, hbytes⟩ := eq_of_cut? hcut
  have hlength : digits.length = 4 :=
    (byteLength_of_single (utf8Size_of_signedHex? hv)).symm.trans hbytes
  match digits, hlength with
  | [a, b, c, d], _ =>
    exact ⟨a, b, c, d, rest, rfl, hbytes, (signedHex?_four a b c d).symm.trans hv⟩

theorem unitAt?_of_unitOf? {a b c d : Char} (h : unitOf? a b c d = some v) (rest : List Char) :
    unitAt? ([a, b, c, d] ++ rest) = some v := by
  rw [← signedHex?_four] at h
  have hcut := cut?_append [a, b, c, d] rest
  rw [byteLength_of_single (utf8Size_of_signedHex? h)] at hcut
  rw [unitAt?, show 4 = [a, b, c, d].length from rfl, hcut]
  exact h

theorem unitOf?_of_unitAt?_eq_none (h : unitAt? text = none) :
    ∀ a b c d rest, text = [a, b, c, d] ++ rest → unitOf? a b c d = none := by
  rintro a b c d rest rfl
  by_contra hsome
  obtain ⟨w, hw⟩ := Option.ne_none_iff_exists'.1 hsome
  rw [unitAt?_of_unitOf? hw] at h
  cases h

theorem exists_of_trailAt? (h : trailAt? text = some v) :
    ∃ a b c d rest, text = opening ++ ([a, b, c, d] ++ rest) ∧
    byteLength (opening ++ [a, b, c, d]) = 6 ∧ unitOf? a b c d = some v ∧ isTrail v = true := by
  unfold trailAt? at h
  split at h
  · next after =>
    obtain ⟨hv, htrail⟩ := Option.filter_eq_some_iff.1 h
    obtain ⟨a, b, c, d, rest, rfl, hbytes, hunit⟩ := exists_of_unitAt? hv
    refine ⟨a, b, c, d, rest, rfl, ?_, hunit, htrail⟩
    rw [byteLength_append, hbytes]
    rfl
  · cases h

theorem isTrail_of_trailAt?_eq_none (h : trailAt? text = none) {ps : List Piece}
    (hps : pieces text = .unit v :: ps) : isTrail v = false := by
  obtain ⟨a, b, c, d, rest, rfl, hunit⟩ := exists_of_pieces_eq hps
  have hfilter : (unitAt? ([a, b, c, d] ++ rest)).filter isTrail = none := h
  rw [unitAt?_of_unitOf? hunit] at hfilter
  simpa using hfilter

/-! ## 6. Turns -/

/-- A turn that is not the last writes the characters of the pieces it takes away. -/
theorem turn?_cases (text : List Char) :
    turn? text = some (.last text) ∧ characters (pieces text) = text ∨
    ∃ written rest, turn? text = some (.more written rest) ∧ rest.length < text.length ∧
      characters (pieces text) = written ++ characters (pieces rest) := by
  unfold turn?
  cases hat : escapeAt? text with
  | none =>
    refine Or.inl ⟨rfl, ?_⟩
    exact characters_pieces_of_plain (escapeAt?_eq_none hat)
  | some n =>
    right
    obtain ⟨front, after, rfl, rfl, hpieces⟩ := exists_of_escapeAt? hat
    have hlength : byteLength front + 2 = byteLength (front ++ opening) := by
      rw [byteLength_append]
      rfl
    have hafter : cut? (front ++ (opening ++ after)) (byteLength front + 2) =
        some (front ++ opening, after) := by
      rw [hlength, ← List.append_assoc, cut?_append]
    simp only [cut?_append, hafter, hpieces, characters_map_char, Option.bind_eq_bind,
      Option.bind_some]
    cases hunit : unitAt? after with
    | none =>
      -- the opening of no escape is passed over
      refine ⟨front ++ ['\\', 'u'], after, rfl, ?_, ?_⟩
      · simp only [opening, List.length_append, List.length_cons]
        omega
      · rw [pieces_opening (unitOf?_of_unitAt?_eq_none hunit), characters_char, characters_char,
          List.append_assoc]
        rfl
    | some v =>
      obtain ⟨a, b, c, d, rest, rfl, hbytes, hv⟩ := exists_of_unitAt? hunit
      have hrest : cut? ([a, b, c, d] ++ rest) 4 = some ([a, b, c, d], rest) := by
        rw [← hbytes, cut?_append]
      simp only [hrest, pieces_escape hv, Option.bind_some]
      cases htrail : if isLead v then trailAt? rest else none with
      | some w =>
        -- the second escape closes a pair and goes with the first one
        obtain ⟨hlead, htrail⟩ := Option.ite_none_right_eq_some.1 htrail
        obtain ⟨a', b', c', d', rest, rfl, hbytes', hw, hwtrail⟩ := exists_of_trailAt? htrail
        have hrest' : cut? (opening ++ ([a', b', c', d'] ++ rest)) 6 =
            some (opening ++ [a', b', c', d'], rest) := by
          rw [← hbytes', ← List.append_assoc, cut?_append]
        refine ⟨front ++ [ofPair v w], rest, by rw [hrest']; rfl, ?_, ?_⟩
        · simp only [List.length_append, List.length_cons]
          omega
        · rw [pieces_escape hw, characters_pair hlead hwtrail, List.append_assoc]
          rfl
      | none =>
        refine ⟨front ++ [(Piece.unit v).char?.getD '\uFFFD'], rest, rfl, ?_, ?_⟩
        · simp only [List.length_append, List.length_cons]
          omega
        · -- no unit that closes a pair is next, whether or not it is looked for
          have halone : ∀ w ps, pieces rest = .unit w :: ps → (isLead v && isTrail w) = false := by
            intro w ps hps
            cases hlead : isLead v with
            | false => rfl
            | true =>
              rw [hlead, if_pos rfl] at htrail
              exact isTrail_of_trailAt?_eq_none htrail hps
          rw [characters_unit halone, List.append_assoc]
          rfl

/-- Every turn but the last shortens the text, so there are no more turns than characters
and one more. -/
theorem unescapeLoop?_eq {turns : Nat} (h : text.length < turns) :
    unescapeLoop? turns text = some (characters (pieces text)) := by
  induction turns generalizing text with
  | zero => exact absurd h (Nat.not_lt_zero _)
  | succ turns ih =>
    unfold unescapeLoop?
    rcases turn?_cases text with ⟨hlast, hread⟩ | ⟨written, rest, hmore, hrest, hread⟩
    · rw [hlast, hread]
    · rw [hmore, hread]
      show (unescapeLoop? turns rest).map (written ++ ·) = _
      rw [ih (by omega)]
      rfl

/-! ## 7. Undoing escapes -/

/-- What is written in escapes, whatever the case of their digits, is read back. On every text
the pass by slices comes to its end within one turn more than there are characters, without a
cut inside a character, and gives the same; and a text without a backslash and a `u` after it
stays as it is. -/
theorem unescape_spec (text : String) :
    (∀ escaped, Escaped text escaped → unescape escaped = text) ∧
    (∀ turns, text.length < turns → unescapeLoop? turns text.toList = some (unescape text).toList) ∧
    (¬ opening <:+: text.toList → unescape text = text) := by
  refine ⟨fun escaped => unescape_of_escaped, fun turns hturns => ?_, fun hno => ?_⟩
  · rw [toList_unescape, unescapeLoop?_eq hturns]
  · rw [← String.toList_inj, toList_unescape, characters_pieces_of_plain hno]

/-- A pair in digits of both cases; an escape that a character of two bytes cuts short; and a text
without escapes. -/
theorem unescape_pair :
    Escaped "a𝄞" "\\u0061\\uD834\\udD1e" ∧ unescape "\\u0061\\uD834\\udD1e" = "a𝄞" ∧
    "\\ud834\\u00é1".length < 13 ∧
    unescapeLoop? 13 "\\ud834\\u00é1".toList = some "\uFFFD\\u00é1".toList ∧
    ¬ opening <:+: "u\\é".toList ∧ unescape "u\\é" = "u\\é" := by
  have hescaped : Escaped "a𝄞" "\\u0061\\uD834\\udD1e" := by
    refine ⟨["\\u0061".toList, "\\uD834".toList, "\\udD1e".toList], ?_, by decide⟩
    exact .cons ⟨false, false, false, false, by decide⟩
      (.cons ⟨true, false, false, false, by decide⟩
        (.cons ⟨false, true, false, false, by decide⟩ .nil))
  have hread : (unescape "\\ud834\\u00é1").toList = "\uFFFD\\u00é1".toList := by decide
  refine ⟨hescaped, (unescape_spec "a𝄞").1 _ hescaped, by decide, ?_, by decide, ?_⟩
  · rw [(unescape_spec "\\ud834\\u00é1").2.1 13 (by decide), hread]
  · exact (unescape_spec "u\\é").2.2 (by decide)

end Conformance

end Hypertext
