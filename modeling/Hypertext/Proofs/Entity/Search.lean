import Hypertext.Proofs.Entity
import Mathlib.Data.List.Chain
import Mathlib.Tactic.ByContra

/-!
# Finding names in the table

The table is in the order of its names, so halving finds the place of a name, and the names that
begin with a text stand together from its place on. The search for the longest name that begins a
text stops when no longer one can come, and so it finds the longest there is.
-/

namespace Hypertext.Entity

variable {name start text taken more : List Char} {e e' : Entry} {best : Option Entry} {i j : Nat}

/-! ## 1. The order of the table -/

theorem isChain_of_all {α : Type} {r : α → α → Bool} {l : List α}
    (h : (l.zip l.tail).all (fun p => r p.1 p.2) = true) : l.IsChain fun a b => r a b = true := by
  induction l with
  | nil => exact .nil
  | cons a l ih =>
    cases l with
    | nil => exact .singleton a
    | cons b l =>
      rw [List.tail_cons, List.zip_cons_cons, List.all_cons, Bool.and_eq_true] at h
      exact .cons_cons h.1 (ih h.2)

def Entry.precedes (a b : Entry) : Bool := a.name < b.name

theorem isChain_entries : entries.IsChain fun a b => a.precedes b = true := by
  -- the order of lists is an instance that is slow to evaluate, `List.lex` a function that is not
  have hlex : entries.IsChain fun a b => a.name.lex b.name = true :=
    isChain_of_all (by decide +kernel)
  exact hlex.imp fun a b h => decide_eq_true (List.lex_eq_true_iff_lt.1 h)

theorem pairwise_entries : entries.Pairwise fun a b => a.precedes b = true := by
  have htrans : Trans (fun a b : Entry => a.precedes b = true) (fun a b => a.precedes b = true)
      (fun a b => a.precedes b = true) :=
    ⟨fun h h' => decide_eq_true (List.lt_trans (of_decide_eq_true h) (of_decide_eq_true h'))⟩
  exact List.isChain_iff_pairwise.1 isChain_entries

/-- An earlier entry has a smaller name. -/
theorem name_lt_of_lt (hij : i < j) (hi : table[i]? = some e) (hj : table[j]? = some e') :
    e.name < e'.name := by
  have htable : table.toList = entries := rfl
  rw [← Array.getElem?_toList, htable] at hi hj
  obtain ⟨hi, rfl⟩ := List.getElem?_eq_some_iff.1 hi
  obtain ⟨hj, rfl⟩ := List.getElem?_eq_some_iff.1 hj
  exact of_decide_eq_true (List.pairwise_iff_getElem.1 pairwise_entries i j _ _ hij)

/-! ## 2. Halving -/

/-- `before` holds in front of the index that is found and fails from there on, if it holds up to
some index. -/
theorem partitionPoint_spec {α : Type} {items : Array α} {before : α → Bool}
    (hbefore : ∀ (i j : Nat) a b, i ≤ j → items[i]? = some a → items[j]? = some b →
      before b = true → before a = true)
    {low high : Nat} (hle : low ≤ high) (hhigh : high ≤ items.size)
    (hlow : ∀ (i : Nat) a, i < low → items[i]? = some a → before a = true)
    (hrest : ∀ (i : Nat) a, high ≤ i → items[i]? = some a → before a = false) :
    (∀ (i : Nat) a, i < partitionPoint items before low high → items[i]? = some a →
      before a = true) ∧ ∀ (i : Nat) a, partitionPoint items before low high ≤ i →
      items[i]? = some a → before a = false := by
  -- everything in front of `low` is before, and nothing from `high` on
  fun_induction partitionPoint items before low high with
  | case1 low high hless middle hnone =>
    have hmiddle : middle < items.size := by omega
    rw [Array.getElem?_eq_getElem hmiddle] at hnone
    cases hnone
  | case2 low high hless middle item hitem htrue ih =>
    refine ih (by omega) hhigh (fun i a hi ha => ?_) hrest
    exact hbefore i middle a item (by omega) ha hitem htrue
  | case3 low high hless middle item hitem hfalse ih =>
    refine ih (by omega) (by omega) hlow fun i a hi ha => ?_
    exact Bool.eq_false_iff.2 fun htrue => hfalse (hbefore middle i item a hi hitem ha htrue)
  | case4 low high hle' => exact ⟨hlow, fun i a hi ha => hrest i a (by omega) ha⟩

theorem exists_getElem?_table (h : e ∈ entries) : ∃ i : Nat, table[i]? = some e := by
  obtain ⟨i, hi⟩ := List.getElem?_of_mem h
  exact ⟨i, by rw [← Array.getElem?_toList]; exact hi⟩

theorem mem_of_getElem?_table (h : table[i]? = some e) : e ∈ entries :=
  Array.mem_def.1 (Array.mem_of_getElem? h)

/-- The names in front of the place of a name are smaller, and none from there on is. -/
theorem lt_indexOf_iff (hi : table[i]? = some e) : i < indexOf name ↔ e.name < name := by
  have hbefore : ∀ (i j : Nat) a b, i ≤ j → table[i]? = some a → table[j]? = some b →
      decide (b.name < name) = true → decide (a.name < name) = true := by
    intro i j a b hij ha hb hless
    obtain hij | rfl := Nat.lt_or_eq_of_le hij
    · exact decide_eq_true (List.lt_trans (name_lt_of_lt hij ha hb) (of_decide_eq_true hless))
    · obtain rfl := Option.some.inj (ha.symm.trans hb)
      exact hless
  have hsize : ∀ (i : Nat) a, table.size ≤ i → table[i]? = some a →
      decide (a.name < name) = false := by
    intro i a hle ha
    rw [Array.getElem?_eq_none hle] at ha
    cases ha
  obtain ⟨hlow, hrest⟩ := partitionPoint_spec hbefore (Nat.zero_le _) (Nat.le_refl _) nofun hsize
  refine ⟨fun hless => of_decide_eq_true (hlow i e hless hi), fun hless => ?_⟩
  by_contra hle
  have hnot := hrest i e (Nat.le_of_not_lt hle) hi
  exact of_decide_eq_false hnot hless

/-- If some name does not precede a text, the first such is at the place of the text. -/
theorem exists_getElem?_indexOf (hmem : e ∈ entries) (hnot : ¬ e.name < name) :
    ∃ first, table[indexOf name]? = some first ∧ ¬ first.name < name ∧
    (first = e ∨ first.name < e.name) := by
  obtain ⟨i, hi⟩ := exists_getElem?_table hmem
  have hplace : indexOf name ≤ i := Nat.le_of_not_lt fun hless => hnot ((lt_indexOf_iff hi).1 hless)
  have hsize : i < table.size := (Array.getElem?_eq_some_iff.1 hi).1
  obtain ⟨first, hfirst⟩ : ∃ first, table[indexOf name]? = some first :=
    ⟨_, Array.getElem?_eq_getElem (Nat.lt_of_le_of_lt hplace hsize)⟩
  refine ⟨first, hfirst, fun hless => Nat.lt_irrefl _ ((lt_indexOf_iff hfirst).2 hless), ?_⟩
  obtain hless | heq := Nat.lt_or_eq_of_le hplace
  · exact Or.inr (name_lt_of_lt hless hfirst hi)
  · rw [heq] at hfirst
    exact Or.inl (Option.some.inj (hfirst.symm.trans hi))

/-! ## 3. Names -/

theorem find?_eq_some_iff : find? name = some e ↔ e ∈ entries ∧ e.name = name := by
  constructor
  · exact find?_eq_some
  · intro ⟨hmem, hname⟩
    subst hname
    obtain ⟨first, hfirst, hnot, heq | hless⟩ :=
      exists_getElem?_indexOf hmem (List.lt_irrefl e.name)
    · rw [heq] at hfirst
      unfold find?
      split
      · next item hitem =>
        obtain rfl := Option.some.inj (hitem.symm.trans hfirst)
        rw [if_pos rfl]
      · next hitem =>
        rw [hfirst] at hitem
        cases hitem
    · exact absurd hless hnot

theorem not_append_lt (start more : List Char) : ¬ start ++ more < start := by
  induction start with
  | nil => exact List.not_lt_nil _
  | cons a start ih =>
    intro hless
    obtain hless | ⟨-, hless⟩ := List.cons_lt_cons_iff.1 hless
    · exact Char.lt_irrefl a hless
    · exact ih hless

/-- What lies between a text and a longer one that begins with it begins with it as well. -/
theorem isPrefix_of_between {l : List Char} (hl : ¬ l < start) (hm : ¬ start ++ more < l) :
    start <+: l := by
  induction start generalizing l with
  | nil => exact List.nil_prefix
  | cons a start ih =>
    cases l with
    | nil => exact absurd (List.nil_lt_cons a start) hl
    | cons b l =>
      rw [List.cons_append, List.cons_lt_cons_iff, not_or] at hm
      rw [List.cons_lt_cons_iff, not_or] at hl
      obtain rfl : a = b := Char.le_antisymm (Char.not_lt.1 hl.1) (Char.not_lt.1 hm.1)
      exact List.cons_prefix_cons.2 ⟨rfl, ih (fun h => hl.2 ⟨rfl, h⟩) fun h => hm.2 ⟨rfl, h⟩⟩

theorem anyStartsWith_iff : anyStartsWith start = true ↔ ∃ e ∈ entries, start <+: e.name := by
  unfold anyStartsWith
  refine ⟨fun h => ?_, fun ⟨e, hmem, more, hname⟩ => ?_⟩
  · split at h
    · next e he => exact ⟨e, mem_of_getElem?_table he, List.isPrefixOf_iff_prefix.1 h⟩
    · cases h
  · -- the first name that does not precede the beginning lies between it and the name
    -- that was given
    obtain ⟨first, hfirst, hnot, rfl | hless⟩ :=
      exists_getElem?_indexOf hmem (hname ▸ not_append_lt start more)
    · rw [hfirst]
      exact List.isPrefixOf_iff_prefix.2 ⟨more, hname⟩
    · rw [hfirst]
      have hnot' : ¬ start ++ more < first.name := hname ▸ fun h =>
        List.lt_irrefl _ (List.lt_trans hless h)
      exact List.isPrefixOf_iff_prefix.2 (isPrefix_of_between hnot hnot')

/-! ## 4. The longest name -/

/-- An entry whose name begins the text, and no longer name does. -/
structure Longest (text : List Char) (e : Entry) : Prop where
  mem : e ∈ entries
  begins : e.name <+: text
  longest : ∀ e' ∈ entries, e'.name <+: text → e'.name.length ≤ e.name.length

/-- What the search finds after the name `taken`: the longest name that goes on from it, or what had
been found before, if no name goes on from it. -/
theorem longestFrom_cases (best : Option Entry) (taken text : List Char) :
    (∃ e more, longestFrom best taken text = some e ∧ e ∈ entries ∧ e.name = taken ++ more ∧
      more ≠ [] ∧ more <+: text ∧ ∀ e' ∈ entries, ∀ more', e'.name = taken ++ more' →
      more' <+: text → more'.length ≤ more.length) ∨
    longestFrom best taken text = best ∧
      ∀ e' ∈ entries, ∀ more', e'.name = taken ++ more' → more' <+: text → more' = [] := by
  induction text generalizing best taken with
  | nil => exact Or.inr ⟨rfl, fun _ _ _ _ hmore => List.prefix_nil.1 hmore⟩
  | cons c rest ih =>
    -- a name that goes on goes on with the next character
    have hnext : ∀ e' ∈ entries, ∀ more', e'.name = taken ++ more' → more' <+: c :: rest →
        more' = [] ∨ ∃ more'', more' = c :: more'' ∧ more'' <+: rest ∧ e'.name = (taken ++ [c]) ++
          more'' := by
      intro e' _ more' hname hmore
      cases more' with
      | nil => exact Or.inl rfl
      | cons x more'' =>
        obtain ⟨rfl, htail⟩ := List.cons_prefix_cons.1 hmore
        exact Or.inr ⟨more'', rfl, htail, by rw [hname, List.append_assoc]; rfl⟩
    simp only [longestFrom]
    split
    · obtain ⟨e, more, hfound, hmem, hname, hne, hmore, hlongest⟩ | ⟨hfound, hnone⟩ :=
        ih ((find? (taken ++ [c])).or best) (taken ++ [c])
      · refine Or.inl ⟨e, c :: more, hfound, hmem, ?_, List.cons_ne_nil _ _,
          List.cons_prefix_cons.2 ⟨rfl, hmore⟩, ?_⟩
        · rw [hname, List.append_assoc]
          rfl
        · intro e' he' more' hname' hmore'
          obtain rfl | ⟨more'', rfl, hmore'', hname''⟩ := hnext e' he' more' hname' hmore'
          · exact Nat.zero_le _
          · exact Nat.succ_le_succ (hlongest e' he' more'' hname'' hmore'')
      · -- no name goes on from here, but one may end here
        rw [hfound]
        cases hfind : find? (taken ++ [c]) with
        | some e =>
          obtain ⟨hmem, hname⟩ := find?_eq_some hfind
          refine Or.inl ⟨e, [c], rfl, hmem, hname, List.cons_ne_nil _ _, ⟨rest, rfl⟩, ?_⟩
          intro e' he' more' hname' hmore'
          obtain rfl | ⟨more'', rfl, hmore'', hname''⟩ := hnext e' he' more' hname' hmore'
          · exact Nat.zero_le _
          · rw [hnone e' he' more'' hname'' hmore'']
        | none =>
          refine Or.inr ⟨Option.none_or, fun e' he' more' hname' hmore' => ?_⟩
          obtain rfl | ⟨more'', rfl, hmore'', hname''⟩ := hnext e' he' more' hname' hmore'
          · rfl
          · obtain rfl := hnone e' he' more'' hname'' hmore''
            rw [List.append_nil] at hname''
            rw [find?_eq_some_iff.2 ⟨he', hname''⟩] at hfind
            cases hfind
    · next hstop =>
      refine Or.inr ⟨rfl, fun e' he' more' hname' hmore' => ?_⟩
      obtain rfl | ⟨more'', rfl, -, hname''⟩ := hnext e' he' more' hname' hmore'
      · rfl
      · exact absurd (anyStartsWith_iff.2 ⟨e', he', more'', hname''.symm⟩) hstop

/-- The search finds the longest name that begins a text, if any does. -/
theorem longestMatch_cases (text : List Char) :
    (∃ e, longestMatch text = some e ∧ Longest text e) ∨
      longestMatch text = none ∧ ∀ e ∈ entries, ¬ e.name <+: text := by
  obtain ⟨e, more, hfound, hmem, hname, -, hmore, hlongest⟩ | ⟨hfound, hnone⟩ :=
    longestFrom_cases none [] text
  · rw [List.nil_append] at hname
    subst hname
    exact Or.inl ⟨e, hfound, hmem, hmore, fun e' he' hbegins => hlongest e' he' _ rfl hbegins⟩
  · exact Or.inr ⟨hfound, fun e he hbegins => (length_text_le e he).1 (hnone e he _ rfl hbegins)⟩

/-- Two longest names are one. -/
theorem Longest.unique {e' : Entry} (h : Longest text e) (h' : Longest text e') : e = e' := by
  have hlength := Nat.le_antisymm (h'.longest e h.mem h.begins) (h.longest e' h'.mem h'.begins)
  have hbegins : e.name <+: e'.name :=
    List.prefix_of_prefix_length_le h.begins h'.begins (Nat.le_of_eq hlength)
  have hname : e.name = e'.name := hbegins.eq_of_length hlength
  have hfind := find?_eq_some_iff.2 ⟨h.mem, hname⟩
  have hfind' := find?_eq_some_iff.2 ⟨h'.mem, rfl⟩
  exact Option.some.inj (hfind.symm.trans hfind')

theorem longestMatch_eq_some_iff : longestMatch text = some e ↔ Longest text e := by
  obtain ⟨e', hfound, hlongest⟩ | ⟨hfound, hnone⟩ := longestMatch_cases text
  · rw [hfound, Option.some_inj]
    exact ⟨fun heq => heq ▸ hlongest, hlongest.unique⟩
  · rw [hfound]
    exact ⟨nofun, fun h => absurd h.begins (hnone e h.mem)⟩

theorem longestMatch_eq_none_iff : longestMatch text = none ↔ ∀ e ∈ entries, ¬ e.name <+: text := by
  obtain ⟨e, hfound, hlongest⟩ | ⟨hfound, hnone⟩ := longestMatch_cases text
  · rw [hfound]
    exact ⟨nofun, fun h => absurd hlongest.begins (h e hlongest.mem)⟩
  · exact ⟨fun _ => hnone, fun _ => hfound⟩

theorem longestMatch_name (h : e ∈ entries) : longestMatch e.name = some e :=
  longestMatch_eq_some_iff.2 ⟨h, List.prefix_rfl, fun _ _ hbegins => hbegins.length_le⟩

end Hypertext.Entity

namespace Hypertext.Tokenizer

open Entity

variable {text l : List Char} {e : Entry} {limit : Nat}

/-! ## 5. Where names are looked for -/

/-- What is a candidate as a whole is in the candidate of every text that begins with it. -/
theorem isPrefix_nameCandidate (hl : nameCandidate limit l = l) (hbegins : l <+: text) :
    l <+: nameCandidate limit text := by
  induction limit generalizing l text with
  | zero => exact hl ▸ List.nil_prefix
  | succ limit ih =>
    cases l with
    | nil => exact List.nil_prefix
    | cons c l =>
      cases text with
      | nil => cases List.prefix_nil.1 hbegins
      | cons x text =>
        obtain ⟨rfl, htail⟩ := List.cons_prefix_cons.1 hbegins
        unfold nameCandidate at hl ⊢
        split_ifs at hl ⊢ with hsemicolon halnum
        · exact hl ▸ List.cons_prefix_cons.2 ⟨rfl, List.nil_prefix⟩
        · exact List.cons_prefix_cons.2 ⟨rfl, ih (List.cons.inj hl).2 htail⟩

/-- No name is longer than the text that is searched for it, and none goes on behind a semicolon. -/
theorem isPrefix_nameCandidate_iff (he : e ∈ entries) :
    e.name <+: nameCandidate nameLimit text ↔ e.name <+: text :=
  ⟨fun h => h.trans (nameCandidate_isPrefix ..), isPrefix_nameCandidate (nameCandidate_name he)⟩

theorem longestMatch_nameCandidate (text : List Char) :
    (∃ e, longestMatch (nameCandidate nameLimit text) = some e ∧ Longest text e) ∨
      longestMatch (nameCandidate nameLimit text) = none ∧ ∀ e ∈ entries, ¬ e.name <+: text := by
  obtain ⟨e, hfound, hlongest⟩ | ⟨hfound, hnone⟩ :=
    longestMatch_cases (nameCandidate nameLimit text)
  · refine Or.inl ⟨e, hfound, hlongest.mem,
      (isPrefix_nameCandidate_iff hlongest.mem).1 hlongest.begins, ?_⟩
    exact fun e' he' hbegins => hlongest.longest e' he' ((isPrefix_nameCandidate_iff he').2 hbegins)
  · exact Or.inr ⟨hfound,
      fun e he hbegins => hnone e he ((isPrefix_nameCandidate_iff he).2 hbegins)⟩

end Hypertext.Tokenizer
