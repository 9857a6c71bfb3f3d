import Hypertext.Cursor

/-!
# Newlines

A text is normalized by replacing every carriage return that has a line feed after it, together with
that line feed, and then every carriage return that is left, by a line feed. A text without carriage
returns stays as it is.
-/

namespace Hypertext

/-- Writes `new` in place of every `old`, from the beginning on. -/
def replaceAll (old new : List Char) : List Char → List Char
  | [] => []
  | c :: text =>
    if old.isPrefixOf (c :: text) then new ++ replaceAll old new (text.drop (old.length - 1))
    else c :: replaceAll old new text
termination_by text => text.length

variable {old new text l : List Char} {c : Char}

theorem replaceAll_append (hold : old ≠ []) (text : List Char) :
    replaceAll old new (old ++ text) = new ++ replaceAll old new text := by
  obtain ⟨c, more, rfl⟩ := List.exists_cons_of_ne_nil hold
  have hbegins : (c :: more).isPrefixOf (c :: (more ++ text)) = true :=
    List.isPrefixOf_iff_prefix.2 (List.prefix_append (c :: more) text)
  rw [List.cons_append, replaceAll, if_pos hbegins, List.length_cons, Nat.add_sub_cancel,
    List.drop_left]

theorem replaceAll_cons (h : ¬ old <+: c :: text) :
    replaceAll old new (c :: text) = c :: replaceAll old new text := by
  rw [replaceAll, if_neg (fun hbegins => h (List.isPrefixOf_iff_prefix.1 hbegins))]

theorem normalizeNewlines_eq_replaceAll (l : List Char) :
    normalizeNewlines l = replaceAll ['\r'] ['\n'] (replaceAll ['\r', '\n'] ['\n'] l) := by
  have hfeed (text : List Char) : ¬ ['\r'] <+: '\n' :: text := fun h =>
    absurd (List.cons_prefix_cons.1 h).1 (by decide)
  fun_induction normalizeNewlines l with
  | case1 => rw [replaceAll, replaceAll]
  | case2 rest ih =>
    have hpair : replaceAll ['\r', '\n'] ['\n'] ('\r' :: '\n' :: rest) =
        '\n' :: replaceAll ['\r', '\n'] ['\n'] rest :=
        replaceAll_append (List.cons_ne_nil '\r' ['\n']) rest
    rw [hpair, replaceAll_cons (hfeed _), ih]
  | case3 rest hrest ih =>
    have hpair : ¬ ['\r', '\n'] <+: '\r' :: rest := by
      rintro ⟨more, hmore⟩
      exact hrest more (List.cons.inj hmore).2.symm
    have hlone (text : List Char) : replaceAll ['\r'] ['\n'] ('\r' :: text) =
        '\n' :: replaceAll ['\r'] ['\n'] text :=
      replaceAll_append (List.cons_ne_nil '\r' []) text
    rw [replaceAll_cons hpair, hlone, ih]
  | case4 c rest hpair hc ih =>
    have hne (more : List Char) : ¬ '\r' :: more <+: c :: rest := fun h =>
      hc (List.cons_prefix_cons.1 h).1.symm
    have hne' : ¬ ['\r'] <+: c :: replaceAll ['\r', '\n'] ['\n'] rest := fun h =>
      hc (List.cons_prefix_cons.1 h).1.symm
    rw [replaceAll_cons (hne _), replaceAll_cons hne', ih]

theorem return_not_mem_normalizeNewlines (l : List Char) : '\r' ∉ normalizeNewlines l := by
  fun_induction normalizeNewlines l with
  | case1 => simp
  | case2 rest ih => simpa using ih
  | case3 rest _ ih => simpa using ih
  | case4 c rest hc hcr ih =>
    simp only [List.mem_cons, not_or]
    exact ⟨fun heq => hcr heq.symm, ih⟩

theorem normalizeNewlines_append (h : '\r' ∉ l) (rest : List Char) :
    normalizeNewlines (l ++ rest) = l ++ normalizeNewlines rest := by
  induction l with
  | nil => rfl
  | cons c l ih =>
    obtain ⟨hc, hl⟩ := not_or.1 (mt List.mem_cons.2 h)
    rw [List.cons_append, List.cons_append, ← ih hl]
    exact normalizeNewlines.eq_4 c (l ++ rest) (fun _ heq _ => hc heq.symm) fun heq => hc heq.symm

theorem normalizeNewlines_eq (h : '\r' ∉ l) : normalizeNewlines l = l := by
  have happend := normalizeNewlines_append h []
  rwa [normalizeNewlines, List.append_nil] at happend

theorem normalizeNewlines_normalizeNewlines (l : List Char) :
    normalizeNewlines (normalizeNewlines l) = normalizeNewlines l :=
  normalizeNewlines_eq (return_not_mem_normalizeNewlines l)

end Hypertext
