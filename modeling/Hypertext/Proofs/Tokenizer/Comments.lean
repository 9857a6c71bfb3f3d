import Hypertext.Proofs.Tokenizer.Spelling

/-!
# Comments

A comment is its text up to the first closing. The states in which it is read hold back what
may be the beginning of a closing, and give it back when it is none; at the end of the input
it is left out.
-/

namespace Hypertext

/-! ## 1. What a comment is -/

/-- Whether a closing comes next. -/
def closesComment (text : List Char) : Bool :=
  ['-', '-', '>'].isPrefixOf text || ['-', '-', '!', '>'].isPrefixOf text

/-- The longest beginning of a closing with which a text ends. -/
def heldBack (text : List Char) : List Char :=
  ([['-', '-', '!'], ['-', '-'], ['-']].find? (·.isSuffixOf text)).getD []

/-- The text of a comment after its opening, and what comes behind the comment if it is closed. -/
def readComment (x : List Char) : List Char × Option (List Char) :=
  if ['>'].isPrefixOf x then ([], some (x.drop 1))
  else if ['-', '>'].isPrefixOf x then ([], some (x.drop 2))
  else
    let (text, rest) := splitBefore closesComment x
    if rest = [] then (x.take (x.length - (heldBack x).length), none)
    else (text, some (rest.drop (if ['-', '-', '>'].isPrefixOf rest then 3 else 4)))

/-- What is held back after one more character. -/
def nextHeld (held : List Char) (c : Char) : List Char :=
  if c = '-' then if held = ['-'] ∨ held = ['-', '-'] then ['-', '-'] else ['-']
  else if c = '!' ∧ held = ['-', '-'] then ['-', '-', '!']
  else []

theorem heldBack_suffix (text : List Char) : heldBack text <:+ text := by
  unfold heldBack
  cases hfind : [['-', '-', '!'], ['-', '-'], ['-']].find? (·.isSuffixOf text) with
  | none => exact List.nil_suffix
  | some held =>
    have hheld := List.find?_some hfind
    exact List.isSuffixOf_iff_suffix.1 hheld

theorem heldBack_reverse (r : List Char) : heldBack r.reverse =
    if ['!', '-', '-'] <+: r then ['-', '-', '!'] else if ['-', '-'] <+: r then ['-', '-']
    else if ['-'] <+: r then ['-'] else [] := by
  have hsuffix (l : List Char) : l.isSuffixOf r.reverse = decide (l.reverse <+: r) := by
    rw [Bool.eq_iff_iff, decide_eq_true_iff, List.isSuffixOf_iff_suffix, ← List.reverse_prefix,
      List.reverse_reverse]
  simp only [heldBack, List.find?_cons, List.find?_nil, hsuffix]
  grind

theorem heldBack_concat (text : List Char) (c : Char) :
    heldBack (text ++ [c]) = nextHeld (heldBack text) c := by
  -- turned around, the text is looked at from its front
  obtain ⟨r, rfl⟩ : ∃ r : List Char, text = r.reverse := ⟨text.reverse, text.reverse_reverse.symm⟩
  have hconcat : r.reverse ++ [c] = (c :: r).reverse := List.reverse_cons.symm
  rw [hconcat, heldBack_reverse, heldBack_reverse, nextHeld]
  cases r with
  | nil =>
    simp only [List.cons_prefix_cons]
    grind
  | cons a r =>
    simp only [List.cons_prefix_cons]
    grind

/-- What is a text after its nulls were replaced, and holds no replacement, was that text before. -/
theorem eq_of_map_denull {l marks : List Char} (h : l.map denull = marks)
    (hmarks : '\uFFFD' ∉ marks) : l = marks := by
  subst h
  refine (map_denull fun hnull => hmarks ?_).symm
  exact List.mem_map_of_mem (f := denull) hnull

/-- Where a `>` stands in a text that is not closed, none would close it. -/
theorem not_ready_of_open {text rest done after : List Char}
    (habrupt : ['>'].isPrefixOf (text ++ rest) = false)
    (hdash : ['-', '>'].isPrefixOf (text ++ rest) = false)
    (hopen : ∀ tail, tail <:+ text → tail ≠ [] → closesComment (tail ++ rest) = false)
    (htext : text = done ++ '>' :: after) : ¬ IsCommentText.Ready (done.map denull) := by
  subst htext
  have hclosing {mark : List Char} (hmark : mark = ['-', '-'] ∨ mark = ['-', '-', '!']) :
      ¬ mark <:+ done.map denull := fun hsuffix => by
    obtain ⟨l, ⟨before, rfl⟩, heq⟩ := List.suffix_map_iff.1 hsuffix
    obtain rfl : l = mark := eq_of_map_denull heq.symm (by obtain rfl | rfl := hmark <;> decide)
    have htail := hopen (l ++ '>' :: after) ⟨before, by simp⟩ (by simp)
    obtain rfl | rfl := hmark <;> cases htail
  rintro (hnil | hone | hdashes | hbang)
  · obtain rfl := List.map_eq_nil_iff.1 hnil
    cases habrupt
  · obtain rfl := eq_of_map_denull hone (by decide)
    cases hdash
  · exact hclosing (Or.inl rfl) hdashes
  · exact hclosing (Or.inr rfl) hbang

/-- A closing is two dashes, or two dashes and a bang, with a `>` behind them. -/
theorem closesComment_cases {x : List Char} (h : closesComment x = true) :
    ∃ mark rest, (mark = ['-', '-'] ∨ mark = ['-', '-', '!']) ∧ x = mark ++ '>' :: rest ∧
      x.drop (if ['-', '-', '>'].isPrefixOf x then 3 else 4) = rest := by
  rw [closesComment, Bool.or_eq_true] at h
  by_cases hdashes : ['-', '-', '>'].isPrefixOf x = true
  · obtain ⟨rest, rfl⟩ := List.isPrefixOf_iff_prefix.1 hdashes
    exact ⟨['-', '-'], rest, Or.inl rfl, rfl, rfl⟩
  · obtain ⟨rest, rfl⟩ := List.isPrefixOf_iff_prefix.1 (h.resolve_left hdashes)
    exact ⟨['-', '-', '!'], rest, Or.inr rfl, rfl, rfl⟩

theorem heldBack_closing {mark : List Char} (hmark : mark = ['-', '-'] ∨ mark = ['-', '-', '!'])
    (text : List Char) : heldBack (text ++ mark) = mark := by
  have hdashes : heldBack (text ++ ['-', '-']) = ['-', '-'] := by
    rw [List.append_cons, heldBack_concat, heldBack_concat]
    unfold nextHeld
    split_ifs <;> simp_all
  obtain rfl | rfl := hmark
  · exact hdashes
  · rw [show text ++ ['-', '-', '!'] = text ++ ['-', '-'] ++ ['!'] by simp, heldBack_concat,
      hdashes]
    rfl

namespace Tokenizer

variable {Q : Tokenizer → Prop} {s : State} {ahead rest text held : List Char} {t : Tokenizer}
  {c : Char}

/-! ## 2. One character further -/

/-- What a state has read of a comment without adding it to its text. -/
def held? : State → Option (List Char)
  | .commentStart | .comment | .commentLessThanSign | .commentLessThanSignBang => some []
  | .commentStartDash | .commentLessThanSignBangDash | .commentEndDash => some ['-']
  | .commentLessThanSignBangDashDash | .commentEnd => some ['-', '-']
  | .commentEndBang => some ['-', '-', '!']
  | _ => none

/-- In a comment with this text, where `held` is held back. -/
def Commented (text held ahead : List Char) (t : Tokenizer) : Prop :=
  ∃ s, held? s = some held ∧ (s = .commentStart ∨ s = .commentStartDash → text = []) ∧
    At s ahead (some (.comment (String.ofList text))) t

theorem At.commented (h : At s ahead (some (.comment (String.ofList text))) t)
    (hs : held? s = some held) (hstart : s = .commentStart ∨ s = .commentStartDash → text = []) :
    Commented text held ahead t :=
  ⟨s, hs, hstart, h⟩

theorem At.editComment (h : At s ahead (some (.comment (String.ofList text))) t) (c : Char) :
    At s ahead (some (.comment (String.ofList (text ++ [c])))) (t.editComment (.char c)) := by
  have hedit := h.edit (e := .comment (.char c)) rfl
  rwa [Hypertext.editComment, push_ofList] at hedit

theorem At.editText (h : At s ahead (some (.comment (String.ofList text))) t) (more : String) :
    At s ahead (some (.comment (String.ofList (text ++ more.toList))))
      (t.editComment (.text more)) := by
  have hedit := h.edit (e := .comment (.text more)) rfl
  rwa [Hypertext.editComment, ← String.ofList_toList (s := more), ← String.ofList_append,
    String.ofList_toList] at hedit

theorem ahead_editComment {t' : Tokenizer} (e : CommentEdit) :
    (t'.editComment e).input.pushBack.ahead = t'.input.pushBack.ahead := by
  obtain ⟨current, fault, heq⟩ := exists_edit t' (.comment e)
  rw [Tokenizer.editComment, heq]

/-- The comment has been read one character further. -/
def Further (text held : List Char) (c : Char) (ahead : List Char) (t : Tokenizer) : Prop :=
  ∃ text', text' ++ nextHeld held c = text ++ held ++ [denull c] ∧
    Commented text' (nextHeld held c) ahead t

theorem Commented.further {text' held' : List Char} (h : Commented text' held' ahead t)
    (hheld : nextHeld held c = held') (htext : text' ++ held' = text ++ held ++ [denull c]) :
    Further text held c ahead t := by
  subst hheld
  exact ⟨text', htext, h⟩

/-- What was held back has become text. -/
theorem Further.of_text (h : Further (text ++ held) [] c ahead t)
    (hheld : nextHeld held c = nextHeld [] c) : Further text held c ahead t := by
  obtain ⟨text', heq, hin⟩ := h
  rw [List.append_nil] at heq
  exact (hheld ▸ hin).further rfl (hheld ▸ heq)

theorem nextHeld_of_ne (hdash : c ≠ '-') (hbang : held = ['-', '-'] → c ≠ '!') :
    nextHeld held c = [] := by
  unfold nextHeld
  rw [if_neg hdash, if_neg fun h => hbang h.2 h.1]

theorem goes_comment (h : At .comment (c :: rest) (some (.comment (String.ofList text))) t) :
    Goes (Further text [] c rest) t := by
  refine h.goes fun t' h' _ _ _ => ?_
  simp only [handle, h'.state, List.head?_cons, Tokenizer.comment]
  split_ifs with hangle hdash hnull
  · subst hangle
    exact .here ((((h'.editComment '<').switchTo .commentLessThanSign).commented rfl
      (by simp)).further rfl (by simp [denull]))
  · subst hdash
    exact .here (((h'.switchTo .commentEndDash).commented rfl (by simp)).further rfl
      (by simp [denull]))
  · subst hnull
    exact .here ((((h'.report _).editComment '\uFFFD').commented rfl (by simp)).further rfl
      (by simp [denull]))
  · refine .here (((h'.editComment c).commented rfl (by simp)).further (nextHeld_of_ne hdash
      (by simp)) ?_)
    rw [denull_of_ne hnull, List.append_nil, List.append_nil]

/-- The text may have to be read on from here. -/
theorem goes_reconsume {t' : Tokenizer} (hdash : c ≠ '-') (hbang : held = ['-', '-'] → c ≠ '!')
    (h : At s rest (some (.comment (String.ofList (text ++ held)))) t')
    (hback : t'.input.pushBack.ahead = c :: rest) :
    Goes (Further text held c rest) (t'.reconsumeIn .comment) := by
  refine (goes_comment (h.reconsumeIn hback _)).trans fun _ h => .here (h.of_text ?_)
  have hnil : nextHeld [] c = [] := nextHeld_of_ne hdash nofun
  rw [nextHeld_of_ne hdash hbang, hnil]

theorem goes_commentEndDash
    (h : At .commentEndDash (c :: rest) (some (.comment (String.ofList text))) t) :
    Goes (Further text ['-'] c rest) t := by
  refine h.goes fun t' h' hback _ _ => ?_
  simp only [handle, h'.state, List.head?_cons, commentEndDash]
  split_ifs with hdash
  · subst hdash
    exact .here (((h'.switchTo .commentEnd).commented rfl (by simp)).further rfl (by simp [denull]))
  · exact goes_reconsume hdash (by simp) (h'.editComment '-') ((ahead_editComment _).trans hback)

theorem goes_commentEnd (hclose : c ≠ '>')
    (h : At .commentEnd (c :: rest) (some (.comment (String.ofList text))) t) :
    Goes (Further text ['-', '-'] c rest) t := by
  refine h.goes fun t' h' hback _ _ => ?_
  simp only [handle, h'.state, List.head?_cons, commentEnd, hclose, if_false]
  split_ifs with hbang hdash
  · subst hbang
    exact .here (((h'.switchTo .commentEndBang).commented rfl (by simp)).further rfl
      (by simp [denull]))
  · subst hdash
    exact .here (((h'.editComment '-').commented rfl (by simp)).further rfl (by simp [denull]))
  · exact goes_reconsume hdash (fun _ => hbang) (h'.editText "--")
      ((ahead_editComment _).trans hback)

theorem goes_commentStart (hclose : c ≠ '>')
    (h : At .commentStart (c :: rest) (some (.comment (String.ofList []))) t) :
    Goes (Further [] [] c rest) t := by
  refine h.goes fun t' h' hback _ _ => ?_
  simp only [handle, h'.state, List.head?_cons, commentStart, Option.some.injEq, hclose, if_false]
  split_ifs with hdash
  · subst hdash
    exact .here (((h'.switchTo .commentStartDash).commented rfl fun _ => rfl).further rfl
      (by simp [denull]))
  · exact goes_reconsume hdash (by simp) h' hback

theorem goes_commentStartDash (hclose : c ≠ '>')
    (h : At .commentStartDash (c :: rest) (some (.comment (String.ofList []))) t) :
    Goes (Further [] ['-'] c rest) t := by
  refine h.goes fun t' h' hback _ _ => ?_
  simp only [handle, h'.state, List.head?_cons, commentStartDash, hclose, if_false]
  split_ifs with hdash
  · subst hdash
    exact .here (((h'.switchTo .commentEnd).commented rfl (by simp)).further rfl (by simp [denull]))
  · exact goes_reconsume hdash (by simp) (h'.editComment '-') ((ahead_editComment _).trans hback)

theorem goes_commentLessThanSign
    (h : At .commentLessThanSign (c :: rest) (some (.comment (String.ofList text))) t) :
    Goes (Further text [] c rest) t := by
  refine h.goes fun t' h' hback _ _ => ?_
  simp only [handle, h'.state, List.head?_cons, commentLessThanSign, Option.some.injEq]
  split_ifs with hbang hangle
  · subst hbang
    exact .here ((((h'.editComment '!').switchTo .commentLessThanSignBang).commented rfl
      (by simp)).further rfl (by simp [denull]))
  · subst hangle
    exact .here (((h'.editComment '<').commented rfl (by simp)).further rfl (by simp [denull]))
  · exact goes_comment (h'.reconsumeIn hback _)

theorem goes_commentLessThanSignBang
    (h : At .commentLessThanSignBang (c :: rest) (some (.comment (String.ofList text))) t) :
    Goes (Further text [] c rest) t := by
  refine h.goes fun t' h' hback _ _ => ?_
  simp only [handle, h'.state, List.head?_cons, commentLessThanSignBang, Option.some.injEq]
  split_ifs with hdash
  · subst hdash
    exact .here (((h'.switchTo .commentLessThanSignBangDash).commented rfl (by simp)).further rfl
      (by simp [denull]))
  · exact goes_comment (h'.reconsumeIn hback _)

theorem goes_commentLessThanSignBangDash
    (h : At .commentLessThanSignBangDash (c :: rest) (some (.comment (String.ofList text))) t) :
    Goes (Further text ['-'] c rest) t := by
  refine h.goes fun t' h' hback _ _ => ?_
  simp only [handle, h'.state, List.head?_cons, commentLessThanSignBangDash, Option.some.injEq]
  split_ifs with hdash
  · subst hdash
    exact .here (((h'.switchTo .commentLessThanSignBangDashDash).commented rfl (by simp)).further
      rfl (by simp [denull]))
  · exact goes_commentEndDash (h'.reconsumeIn hback _)

theorem goes_commentLessThanSignBangDashDash (hclose : c ≠ '>')
    (h : At .commentLessThanSignBangDashDash (c :: rest) (some (.comment (String.ofList text))) t) :
    Goes (Further text ['-', '-'] c rest) t := by
  refine h.goes fun t' h' hback _ _ => ?_
  simp only [handle, h'.state, List.head?_cons, commentLessThanSignBangDashDash, Option.some.injEq,
    hclose, reduceCtorEq, or_self, if_false]
  exact goes_commentEnd hclose ((h'.report _).reconsumeIn hback _)

theorem goes_commentEndBang (hclose : c ≠ '>')
    (h : At .commentEndBang (c :: rest) (some (.comment (String.ofList text))) t) :
    Goes (Further text ['-', '-', '!'] c rest) t := by
  refine h.goes fun t' h' hback _ _ => ?_
  simp only [handle, h'.state, List.head?_cons, commentEndBang, hclose, if_false]
  split_ifs with hdash
  · subst hdash
    exact .here ((((h'.editText "--!").switchTo .commentEndDash).commented rfl (by simp)).further
      rfl (by simp [denull]))
  · exact goes_reconsume hdash (by simp) (h'.editText "--!") ((ahead_editComment _).trans hback)

/-- A character goes into a comment if it does not close it. -/
theorem goes_further (hready : c = '>' → ¬ IsCommentText.Ready (text ++ held))
    (h : Commented text held (c :: rest) t) : Goes (Further text held c rest) t := by
  obtain ⟨s, hs, hstart, h⟩ := h
  -- a character that a state does not know is put back, until a state takes it
  cases s with
  | commentStart =>
    cases hs
    obtain rfl := hstart (Or.inl rfl)
    exact goes_commentStart (fun heq => hready heq (Or.inl rfl)) h
  | commentStartDash =>
    cases hs
    obtain rfl := hstart (Or.inr rfl)
    exact goes_commentStartDash (fun heq => hready heq (Or.inr (Or.inl rfl))) h
  | comment =>
    cases hs
    exact goes_comment h
  | commentLessThanSign =>
    cases hs
    exact goes_commentLessThanSign h
  | commentLessThanSignBang =>
    cases hs
    exact goes_commentLessThanSignBang h
  | commentLessThanSignBangDash =>
    cases hs
    exact goes_commentLessThanSignBangDash h
  | commentLessThanSignBangDashDash =>
    cases hs
    exact goes_commentLessThanSignBangDashDash
      (fun heq => hready heq (Or.inr (Or.inr (Or.inl (List.suffix_append ..))))) h
  | commentEndDash =>
    cases hs
    exact goes_commentEndDash h
  | commentEnd =>
    cases hs
    exact goes_commentEnd (fun heq => hready heq (Or.inr (Or.inr (Or.inl (List.suffix_append ..)))))
      h
  | commentEndBang =>
    cases hs
    exact goes_commentEndBang (fun heq =>
      hready heq (Or.inr (Or.inr (Or.inr (List.suffix_append ..))))) h
  | _ => cases hs

/-! ## 3. A whole comment -/

/-- A text in which nothing closes the comment is read to its end. -/
theorem goes_commentText {more : List Char}
    (hopen : ∀ done after, more = done ++ '>' :: after → ¬ IsCommentText.Ready (done.map denull))
    (h : At .commentStart (more ++ rest) (some (.comment (String.ofList []))) t) :
    Goes (fun t => ∃ text, text ++ heldBack more = more.map denull ∧
      Commented text (heldBack more) rest t) t := by
  -- from the end of the text, since what is held back depends on what was before
  induction more using List.reverseRecOn generalizing rest with
  | nil => exact .here ⟨[], rfl, h.commented rfl fun _ => rfl⟩
  | append_singleton more c ih =>
    rw [List.append_assoc] at h
    have hmore : ∀ done after, more = done ++ '>' :: after →
        ¬ IsCommentText.Ready (done.map denull) :=
      fun done after heq => hopen done (after ++ [c]) (by rw [heq, List.append_assoc]; rfl)
    refine (ih hmore h).trans fun t ⟨text, heq, hin⟩ => ?_
    have hready : c = '>' → ¬ IsCommentText.Ready (text ++ heldBack more) := fun hc => by
      rw [heq]
      exact hopen more [] (by rw [hc])
    refine (goes_further hready hin).trans fun t ⟨text', heq', hin'⟩ => .here ⟨text', ?_, ?_⟩
    · rw [heldBack_concat, heq', heq, List.map_append]
      rfl
    · rwa [heldBack_concat]

/-- The comment has been read, and after it the input ends. -/
def Last (token : Token) (t : Tokenizer) : Prop :=
  ∃ position position', t.pending = [⟨token, position⟩, ⟨.endOfFile, position'⟩]

theorem At.endInComment {token : Token} (h : At s rest (some (.comment (String.ofList text))) t)
    (htoken : token = .comment (String.ofList text)) : Last token t.endInComment := by
  subst htoken
  have h' := h.report .eofInComment
  unfold Tokenizer.endInComment emitCurrent
  rw [dropDuplicate_of_eq_false h'.duplicate]
  simp only [h'.current]
  refine ⟨t.tokenStart, t.input.position, ?_⟩
  show (t.pending ++ [_]) ++ [_] = _
  rw [h.pending]
  rfl

/-- These states end the comment at the end of the input; the others hand the end on to
one of them. -/
theorem goes_endInComment
    (hs : s ∈ [.comment, .commentStartDash, .commentEndDash, .commentEnd, .commentEndBang])
    (h : At s [] (some (.comment (String.ofList text))) t) :
    Goes (Last (.comment (String.ofList text))) t := by
  refine h.goes fun t' h' _ _ _ => .here ?_
  have hhandle : t'.handle none = t'.endInComment := by
    simp only [List.mem_cons, List.not_mem_nil, or_false] at hs
    obtain rfl | rfl | rfl | rfl | rfl := hs <;> simp only [handle, h'.state] <;> rfl
  rw [List.head?_nil, hhandle]
  exact h'.endInComment rfl

/-- At the end of the input the text is the comment, without what is held back. -/
theorem Commented.last (h : Commented text held [] t) :
    Goes (Last (.comment (String.ofList text))) t := by
  obtain ⟨s, hs, hstart, h⟩ := h
  cases s with
  | commentStart | commentLessThanSign | commentLessThanSignBang =>
    refine h.goes fun t' h' hback _ _ => ?_
    simp only [handle, h'.state]
    exact goes_endInComment (by decide) (h'.reconsumeIn hback .comment)
  | commentLessThanSignBangDash =>
    refine h.goes fun t' h' hback _ _ => ?_
    simp only [handle, h'.state]
    exact goes_endInComment (by decide) (h'.reconsumeIn hback .commentEndDash)
  | commentLessThanSignBangDashDash =>
    refine h.goes fun t' h' hback _ _ => ?_
    simp only [handle, h'.state, commentLessThanSignBangDashDash, List.head?_nil, or_true, if_true]
    exact goes_endInComment (by decide) (h'.reconsumeIn hback .commentEnd)
  | comment | commentStartDash | commentEndDash | commentEnd | commentEndBang =>
    exact goes_endInComment (by decide) h
  | _ => cases hs

/-- After two dashes, or two dashes and a bang, the comment is closed by a `>`. -/
theorem Commented.close (h : Commented text held ('>' :: rest) t)
    (hheld : held = ['-', '-'] ∨ held = ['-', '-', '!']) :
    Goes (Waits (.comment (String.ofList text)) rest) t := by
  obtain ⟨s, hs, -, h⟩ := h
  have hend {t : Tokenizer} (h : At .commentEnd ('>' :: rest) (some (.comment (String.ofList text)))
      t) : Goes (Waits (.comment (String.ofList text)) rest) t := h.goes fun t' h' _ _ _ => by
    simp only [handle, h'.state, List.head?_cons, commentEnd, if_true]
    exact .here (h'.finish (by simp))
  cases s with
  | commentEnd => exact hend h
  -- this state only warns of a nested comment
  | commentLessThanSignBangDashDash =>
    refine h.goes fun t' h' hback _ _ => ?_
    simp only [handle, h'.state, List.head?_cons, commentLessThanSignBangDashDash, true_or, if_true]
    exact hend (h'.reconsumeIn hback _)
  | commentEndBang =>
    refine h.goes fun t' h' _ _ _ => ?_
    simp only [handle, h'.state, List.head?_cons]
    exact .here ((h'.report _).finish (by simp))
  | commentStart | comment | commentLessThanSign | commentLessThanSignBang | commentStartDash
  | commentLessThanSignBangDash | commentEndDash =>
    cases hs
    simp at hheld
  | _ => cases hs

/-- A `>` right behind the opening, or behind one dash, closes the comment as well. -/
theorem goes_abrupt (dashes : List Char) (hdashes : dashes = [] ∨ dashes = ['-'])
    (h : At .commentStart (dashes ++ '>' :: rest) (some (.comment (String.ofList []))) t) :
    Goes (Waits (.comment (String.ofList [])) rest) t := by
  refine h.goes fun t' h' _ _ _ => ?_
  simp only [handle, h'.state]
  obtain rfl | rfl := hdashes
  · exact .here ((h'.report _).finish (by simp))
  · refine (h'.switchTo .commentStartDash).goes fun t'' h'' _ _ _ => ?_
    simp only [handle, h''.state]
    exact .here ((h''.report _).finish (by simp))

/-- A text in which nothing closes the comment is the comment, without the beginning of a closing
at its end. -/
theorem goes_openComment
    (hopen : ∀ done after, text = done ++ '>' :: after → ¬ IsCommentText.Ready (done.map denull))
    (h : At .commentStart text (some (.comment (String.ofList []))) t) :
    Goes (Last (.comment (String.ofList ((text.take (text.length - (heldBack text).length)).map
      denull)))) t := by
  rw [← List.append_nil text] at h
  refine (goes_commentText hopen h).trans fun t ⟨text', heq, hin⟩ => ?_
  obtain ⟨before, hbefore⟩ := heldBack_suffix text
  have htake : text.take (text.length - (heldBack text).length) = before := by
    have hlength := congrArg List.length hbefore
    rw [List.length_append] at hlength
    rw [show text.length - (heldBack text).length = before.length by omega]
    exact (List.prefix_iff_eq_take.1 ⟨_, hbefore⟩).symm
  have hmap : before.map denull ++ (heldBack text).map denull = text.map denull := by
    rw [← List.map_append, hbefore]
  obtain rfl : text' = before.map denull :=
    List.append_inj_left' (heq.trans hmap.symm) (by rw [List.length_map])
  rw [htake]
  exact hin.last

theorem goes_closedComment {mark : List Char}
    (hopen : ∀ done after, text = done ++ '>' :: after → ¬ IsCommentText.Ready (done.map denull))
    (hmark : mark = ['-', '-'] ∨ mark = ['-', '-', '!'])
    (h : At .commentStart (text ++ (mark ++ '>' :: rest)) (some (.comment (String.ofList []))) t) :
    Goes (Waits (.comment (String.ofList (text.map denull))) rest) t := by
  have hclose : '>' ∉ mark := by obtain rfl | rfl := hmark <;> decide
  -- the closing itself holds no `>`, so a `>` that comes earlier is in the text
  have hmore : ∀ done after, text ++ mark = done ++ '>' :: after →
      ¬ IsCommentText.Ready (done.map denull) := by
    intro done after heq
    obtain ⟨more, -, rfl⟩ | ⟨more, rfl, hsplit⟩ := List.append_eq_append_iff.1 heq
    · exact absurd (by simp) hclose
    · cases more with
      | nil =>
        obtain rfl : '>' :: after = mark := hsplit
        exact absurd List.mem_cons_self hclose
      | cons c more =>
        obtain ⟨rfl, -⟩ := List.cons.inj hsplit
        exact hopen _ _ rfl
  rw [← List.append_assoc] at h
  refine (goes_commentText hmore h).trans fun t ⟨text', heq, hin⟩ => ?_
  rw [heldBack_closing hmark] at heq hin
  rw [List.map_append] at heq
  obtain rfl : text' = text.map denull := List.append_inj_left' heq (by rw [List.length_map])
  exact hin.close hmark

/-- The comment that is read of `x`, and where it leads. -/
def CommentRead (x : List Char) (t : Tokenizer) : Prop :=
  match (readComment x).2 with
  | some rest => Waits (.comment (String.ofList ((readComment x).1.map denull))) rest t
  | none => Last (.comment (String.ofList ((readComment x).1.map denull))) t

theorem goes_commentRead {x : List Char}
    (h : At .commentStart x (some (.comment (String.ofList []))) t) : Goes (CommentRead x) t := by
  by_cases habrupt : ['>'].isPrefixOf x = true
  · obtain ⟨rest, rfl⟩ := List.isPrefixOf_iff_prefix.1 habrupt
    exact goes_abrupt [] (Or.inl rfl) h
  by_cases hdash : ['-', '>'].isPrefixOf x = true
  · obtain ⟨rest, rfl⟩ := List.isPrefixOf_iff_prefix.1 hdash
    exact goes_abrupt ['-'] (Or.inr rfl) h
  rw [Bool.not_eq_true] at habrupt hdash
  -- cut at the first closing, if there is one
  obtain ⟨text, rest, hcut⟩ : ∃ text rest, splitBefore closesComment x = (text, rest) := ⟨_, _, rfl⟩
  have hx := splitBefore_append closesComment x
  have hfirst : ∀ tail, tail <:+ (splitBefore closesComment x).1 → tail ≠ [] →
      closesComment (tail ++ (splitBefore closesComment x).2) = false := fun _ => stop_of_mem_tails
  have hstop := stop_splitBefore closesComment x
  have hread : readComment x = if rest = [] then (x.take (x.length - (heldBack x).length), none)
      else (text, some (rest.drop (if ['-', '-', '>'].isPrefixOf rest then 3 else 4))) := by
    rw [readComment, habrupt, hdash, hcut]
    rfl
  rw [hcut] at hx hfirst hstop
  subst hx
  have hready : ∀ done after, text = done ++ '>' :: after →
      ¬ IsCommentText.Ready (done.map denull) :=
    fun _ _ => not_ready_of_open habrupt hdash hfirst
  unfold CommentRead
  rw [hread]
  obtain rfl | hcloses := hstop
  · rw [if_pos rfl, List.append_nil]
    rw [List.append_nil] at h
    exact goes_openComment hready h
  · obtain ⟨mark, after, hmark, rfl, hafter⟩ := closesComment_cases hcloses
    rw [if_neg (by simp), hafter]
    exact goes_closedComment hready hmark h

/-! ## 4. From its opening on -/

theorem At.pushBackSkip {current : Option Token} (h : At s ahead current t) (target : List Char) :
    At s (t.input.pushBack.ahead.drop target.length) current
      { t with input := t.input.pushBack.skip target } :=
  ⟨h.state, Cursor.ahead_skip .., h.current, h.pending, h.ended, h.duplicate⟩

theorem goes_declaration (h : At .data ('<' :: '!' :: rest) none t) :
    Goes (At .markupDeclarationOpen rest none) t :=
  (goes_tagOpen h.tallied).trans fun t h => h.untallied.goes fun t' h' _ _ _ => by
    simp only [handle, h'.state, List.head?_cons, tagOpen, if_true]
    exact .here (h'.switchTo _)

theorem goes_commentOpening (h : At .data ('<' :: '!' :: '-' :: '-' :: rest) none t) :
    Goes (At .commentStart rest (some (.comment (String.ofList [])))) t := by
  refine (goes_declaration h).trans fun t h => h.goes fun t' h' hback _ _ => ?_
  have hstarts : commentOpening.isPrefixOf ('-' :: '-' :: rest) = true := rfl
  simp only [handle, h'.state]
  simp only [markupDeclarationOpen, Cursor.startsWith, hback, hstarts, if_true]
  have hskip := h'.pushBackSkip commentOpening
  rw [hback] at hskip
  exact .here ((hskip.begin (.comment "")).switchTo .commentStart)

/-- A call where a comment opens brings the comment. Then text is read on behind it, or the
input has ended. -/
theorem nextToken_comment {x : List Char} (ht : Between t)
    (h : At .data ('<' :: '!' :: '-' :: '-' :: x) none t) (foreign : Bool) :
    (t.nextToken foreign).1.token = .comment (String.ofList ((readComment x).1.map denull)) ∧
      match (readComment x).2 with
      | some rest => At .data rest none (t.nextToken foreign).2
      | none => ∀ foreign', ((t.nextToken foreign).2.nextToken foreign').1.token = .endOfFile := by
  have hgoes := (goes_commentOpening (h.setForeign foreign)).trans fun _ h => goes_commentRead h
  obtain ⟨t₁, hread, hpulls⟩ := hgoes.exists_pulls (ht.pulls_nextToken foreign)
  unfold CommentRead at hread
  cases hrest : (readComment x).2 with
  | some rest =>
    rw [hrest] at hread
    obtain ⟨p, t', hpulls', htoken, hat⟩ := hread.pulls
    obtain ⟨rfl, rfl⟩ := hpulls'.unique hpulls
    exact ⟨htoken, hat⟩
  | none =>
    rw [hrest] at hread
    obtain ⟨position, position', hpending⟩ := hread
    -- at the end of the input both tokens are in the queue at once
    obtain ⟨hfirst, hleft⟩ := hpulls.unique (.queued hpending)
    refine ⟨congrArg PositionedToken.token hfirst, fun foreign' => ?_⟩
    have hnext := (ht.nextToken foreign).pulls_nextToken foreign'
    have hqueue : ({ (t.nextToken foreign).2 with foreign := foreign' } : Tokenizer).pending =
        [⟨.endOfFile, position'⟩] := by rw [hleft]
    exact congrArg PositionedToken.token (hnext.unique (.queued hqueue)).1

/-- Dashes and bangs that close nothing, a null, and a closing with a bang. -/
theorem nextToken_comment_bang :
    let t := ofString "<!--\x00--!--a->-<!-!>--!>b"
    (Between t ∧ At .data ('<' :: '!' :: '-' :: '-' :: "\x00--!--a->-<!-!>--!>b".toList) none t) ∧
      (t.nextToken false).1.token = .comment "\uFFFD--!--a->-<!-!>" ∧
      At .data ['b'] none (t.nextToken false).2 := by
  intro t
  have ht : Between t := between_ofString _
  have h : At .data ('<' :: '!' :: '-' :: '-' :: "\x00--!--a->-<!-!>--!>b".toList) none t :=
    ⟨rfl, by decide +kernel, rfl, rfl, rfl, rfl⟩
  have hread : readComment "\x00--!--a->-<!-!>--!>b".toList =
      ("\x00--!--a->-<!-!>".toList, some ['b']) := by
    decide +kernel
  have hnext := nextToken_comment ht h false
  rw [hread] at hnext
  exact ⟨⟨ht, h⟩, hnext⟩

end Tokenizer

end Hypertext
