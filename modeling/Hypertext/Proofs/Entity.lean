import Hypertext.Tokenizer.Reference

/-!
# What a named reference matches

The longest match is an entry of the table whose name begins the text, and no entry stands for more
characters than its name has.
-/

namespace Hypertext.Tokenizer

variable {limit : Nat} {text : List Char} {c : Char}

theorem nameCandidate_isPrefix (limit : Nat) (text : List Char) :
    nameCandidate limit text <+: text := by
  induction limit generalizing text with
  | zero => exact List.nil_prefix
  | succ limit ih =>
    cases text with
    | nil => exact List.nil_prefix
    | cons c rest =>
      unfold nameCandidate
      split
      · exact ⟨rest, rfl⟩
      · split
        · exact List.cons_prefix_cons.2 ⟨rfl, ih rest⟩
        · exact List.nil_prefix

theorem of_mem_nameCandidate (hc : c ∈ nameCandidate limit text) :
    c = ';' ∨ c.isAlphanum = true := by
  induction limit generalizing text with
  | zero => exact absurd hc List.not_mem_nil
  | succ limit ih =>
    cases text with
    | nil => exact absurd hc List.not_mem_nil
    | cons x rest =>
      unfold nameCandidate at hc
      split at hc
      · next hsemicolon => exact Or.inl ((List.mem_singleton.1 hc).trans hsemicolon)
      · split at hc
        · next halnum =>
          obtain rfl | hc := List.mem_cons.1 hc
          · exact Or.inr halnum
          · exact ih hc
        · exact absurd hc List.not_mem_nil

end Hypertext.Tokenizer

namespace Hypertext.Entity

variable {name taken text : List Char} {e : Entry} {best : Option Entry}

/-- What is true of an entry by itself: it has a name, which is taken as a whole where names are
looked for, and it stands for some characters, no more than the name has and none of them null. -/
def Entry.isSound (e : Entry) : Bool :=
  e.name != [] && decide (e.text.length ≤ e.name.length) && !e.text.contains '\x00' &&
    e.text != [] && Tokenizer.nameCandidate Tokenizer.nameLimit e.name == e.name

theorem Entry.isSound_iff : e.isSound = true ↔
    e.name ≠ [] ∧ e.text.length ≤ e.name.length ∧ '\x00' ∉ e.text ∧ e.text ≠ [] ∧
      Tokenizer.nameCandidate Tokenizer.nameLimit e.name = e.name := by
  simp [isSound, and_assoc]

/-- The table is long, so it is gone through once for all of this. -/
theorem isSound_of_mem (he : e ∈ entries) : e.isSound = true :=
  List.all_eq_true.1 (by decide +kernel : entries.all Entry.isSound = true) e he

theorem nameCandidate_name (he : e ∈ entries) :
    Tokenizer.nameCandidate Tokenizer.nameLimit e.name = e.name :=
  (Entry.isSound_iff.1 (isSound_of_mem he)).2.2.2.2

theorem text_ne_nil (he : e ∈ entries) : e.text ≠ [] :=
  (Entry.isSound_iff.1 (isSound_of_mem he)).2.2.2.1

theorem length_text_le : ∀ e ∈ entries, e.name ≠ [] ∧ e.text.length ≤ e.name.length := by
  intro e he
  obtain ⟨hne, hlength, -, -⟩ := Entry.isSound_iff.1 (isSound_of_mem he)
  exact ⟨hne, hlength⟩

/-- The characters that mean something in markup have names. -/
theorem mem_entries_of_markup :
    ⟨['a', 'm', 'p', ';'], ['&']⟩ ∈ entries ∧ ⟨['l', 't', ';'], ['<']⟩ ∈ entries ∧
    ⟨['q', 'u', 'o', 't', ';'], ['\x22']⟩ ∈ entries := by
  have hamp : ⟨['a', 'm', 'p', ';'], ['&']⟩ ∈ Table.lowerA := by decide +kernel
  have hlt : ⟨['l', 't', ';'], ['<']⟩ ∈ Table.lowerL := by decide +kernel
  have hquot : ⟨['q', 'u', 'o', 't', ';'], ['\x22']⟩ ∈ Table.lowerQ := by decide +kernel
  simp only [entries, Table.aToC, Table.hToM, Table.nToQ, List.mem_append, hamp, hlt, hquot,
    true_or, or_true, and_self]

theorem null_not_mem : ∀ e ∈ entries, '\x00' ∉ e.name ∧ '\x00' ∉ e.text := by
  intro e he
  obtain ⟨-, -, htext, -, hname⟩ := Entry.isSound_iff.1 (isSound_of_mem he)
  refine ⟨fun hmem => ?_, htext⟩
  rw [← hname] at hmem
  obtain hnull | hnull := Tokenizer.of_mem_nameCandidate hmem <;> exact absurd hnull (by decide)

theorem find?_eq_some (h : find? name = some e) : e ∈ entries ∧ e.name = name := by
  unfold find? at h
  split at h
  · next item hitem =>
    split at h
    · next hname =>
      cases h
      exact ⟨Array.mem_def.1 (Array.mem_of_getElem? hitem), hname⟩
    · cases h
  · cases h

/-- What is found extends the name already taken, unless it is what had been found before. -/
theorem longestFrom_eq_some (h : longestFrom best taken text = some e) :
    best = some e ∨ e ∈ entries ∧ ∃ more, more <+: text ∧ e.name = taken ++ more := by
  induction text generalizing best taken with
  | nil => exact Or.inl h
  | cons c rest ih =>
    simp only [longestFrom] at h
    split at h
    · obtain hbest | ⟨hmem, more, hmore, hname⟩ := ih h
      · cases hfind : find? (taken ++ [c]) with
        | none =>
          rw [hfind, Option.none_or] at hbest
          exact Or.inl hbest
        | some found =>
          rw [hfind, Option.some_or] at hbest
          cases hbest
          obtain ⟨hmem, hname⟩ := find?_eq_some hfind
          exact Or.inr ⟨hmem, [c], ⟨rest, rfl⟩, hname⟩
      · refine Or.inr ⟨hmem, c :: more, List.cons_prefix_cons.2 ⟨rfl, hmore⟩, ?_⟩
        rw [hname, List.append_assoc, List.singleton_append]
    · exact Or.inl h

theorem longestMatch_eq_some (h : longestMatch text = some e) : e ∈ entries ∧ e.name <+: text := by
  obtain hbest | ⟨hmem, more, hmore, hname⟩ := longestFrom_eq_some h
  · cases hbest
  · rw [List.nil_append] at hname
    exact ⟨hmem, hname ▸ hmore⟩

end Hypertext.Entity
