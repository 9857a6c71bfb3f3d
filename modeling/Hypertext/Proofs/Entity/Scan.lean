import Hypertext.Proofs.Entity.Search
import Hypertext.Proofs.Utf8

/-!
# Searches and scans

What is searched for in the sorted table is what a scan of all entries finds, whether names are
compared by characters or by bytes.
-/

namespace Hypertext.Entity

variable {text : List Char} {e : Entry}

theorem indexOf_eq_of_utf8 (text : List Char) :
    indexOf text = partitionPoint table (fun e => utf8 e.name < utf8 text) 0 table.size := by
  simp only [indexOf, utf8_lt_utf8_iff]

theorem find?_eq_find?_entries (text : List Char) :
    find? text = entries.find? fun e => e.name = text := by
  cases hscan : entries.find? fun e => e.name = text with
  | some e =>
    have hname := List.find?_some hscan
    exact find?_eq_some_iff.2 ⟨List.mem_of_find?_eq_some hscan, of_decide_eq_true hname⟩
  | none =>
    rw [Option.eq_none_iff_forall_ne_some]
    intro e hfind
    obtain ⟨hmem, hname⟩ := find?_eq_some_iff.1 hfind
    exact List.find?_eq_none.1 hscan e hmem (decide_eq_true hname)

theorem lookup?_eq_some_iff {replacement : List Char} :
    lookup? text = some replacement ↔ ∃ e ∈ entries, e.name = text ∧ e.text = replacement := by
  simp only [lookup?, Option.map_eq_some_iff, find?_eq_some_iff, and_assoc]

theorem anyStartsWith_eq_any (text : List Char) :
    anyStartsWith text = entries.any fun e => text.isPrefixOf e.name := by
  rw [Bool.eq_iff_iff, anyStartsWith_iff, List.any_eq_true]
  simp only [List.isPrefixOf_iff_prefix]

theorem longestMatch_eq_maxOn? (text : List Char) :
    longestMatch text =
      (entries.filter fun e => e.name.isPrefixOf text).maxOn? (·.name.length) := by
  have hmem {e : Entry} : e ∈ (entries.filter fun e => e.name.isPrefixOf text) ↔
      e ∈ entries ∧ e.name <+: text := by
    rw [List.mem_filter, List.isPrefixOf_iff_prefix]
  cases hscan : (entries.filter fun e => e.name.isPrefixOf text).maxOn? (·.name.length) with
  | some e =>
    obtain ⟨he, hbegins⟩ := hmem.1 (List.maxOn?_mem hscan)
    refine longestMatch_eq_some_iff.2 ⟨he, hbegins, fun e' he' hbegins' => ?_⟩
    have hle := List.le_apply_get_maxOn?_of_mem (f := (·.name.length)) (hmem.2 ⟨he', hbegins'⟩)
    simpa only [hscan, Option.get_some] using hle
  | none =>
    refine longestMatch_eq_none_iff.2 fun e he hbegins => ?_
    have hsome := List.isSome_maxOn?_of_mem (f := (·.name.length)) (hmem.2 ⟨he, hbegins⟩)
    rw [hscan] at hsome
    cases hsome

/-- What a name stands for, whether a name begins with a text, and which is the longest name that
begins a text are found as by going through all entries. The place of a text is also its place in
the order of the bytes. -/
theorem searches_eq_scans (text : List Char) :
    indexOf text = partitionPoint table (fun e => utf8 e.name < utf8 text) 0 table.size ∧
    lookup? text = (entries.find? fun e => e.name = text).map (·.text) ∧
    (∀ replacement, lookup? text = some replacement ↔
      ∃ e ∈ entries, e.name = text ∧ e.text = replacement) ∧
    anyStartsWith text = entries.any (fun e => text.isPrefixOf e.name) ∧
    longestMatch text = (entries.filter fun e => e.name.isPrefixOf text).maxOn? (·.name.length) ∧
    (∀ e, longestMatch text = some e ↔ Longest text e) ∧
    (longestMatch text = none ↔ ∀ e ∈ entries, ¬ e.name <+: text) := by
  refine ⟨indexOf_eq_of_utf8 text, ?_, fun _ => lookup?_eq_some_iff, anyStartsWith_eq_any text,
    longestMatch_eq_maxOn? text, fun _ => longestMatch_eq_some_iff, longestMatch_eq_none_iff⟩
  rw [lookup?, find?_eq_find?_entries]

end Hypertext.Entity
