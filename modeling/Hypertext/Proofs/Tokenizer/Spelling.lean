import Hypertext.Proofs.Tokenizer.Paths

/-!
# Text, character by character

One step may finish several characters, and they are handed out by as many calls before the
next step is taken. A text that is spelled in this way is what the calls deliver, whatever each
of them is told.
-/

namespace Hypertext

/-! ## 1. Where a text is cut -/

/-- The text up to the first place where `stop` holds of what follows, and what follows there. -/
def splitBefore (stop : List Char → Bool) : List Char → List Char × List Char
  | [] => ([], [])
  | c :: rest =>
    if stop (c :: rest) then ([], c :: rest)
    else (c :: (splitBefore stop rest).1, (splitBefore stop rest).2)

/-- A null character in a text is replaced. -/
def denull (c : Char) : Char := if c = '\x00' then '\uFFFD' else c

variable {stop : List Char → Bool} {done rest text : List Char} {c : Char}

theorem denull_of_ne (h : c ≠ '\x00') : denull c = c := if_neg h

theorem map_denull (h : '\x00' ∉ text) : text.map denull = text :=
  (List.map_congr_left fun _ hc => denull_of_ne fun hnull => h (hnull ▸ hc)).trans
    (List.map_id' text)

theorem splitBefore_append (stop : List Char → Bool) (text : List Char) :
    (splitBefore stop text).1 ++ (splitBefore stop text).2 = text := by
  induction text with
  | nil => rfl
  | cons c rest ih =>
    unfold splitBefore
    split
    · rfl
    · exact congrArg (c :: ·) ih

theorem splitBefore_of_stop (h : stop text = true) : splitBefore stop text = ([], text) := by
  cases text with
  | nil => rfl
  | cons c rest => rw [splitBefore, if_pos h]

/-- What follows the cut is nothing, or it is a stop. -/
theorem stop_splitBefore (stop : List Char → Bool) (text : List Char) :
    (splitBefore stop text).2 = [] ∨ stop (splitBefore stop text).2 = true := by
  induction text with
  | nil => exact Or.inl rfl
  | cons c rest ih =>
    unfold splitBefore
    split
    · next hstop => exact Or.inr hstop
    · exact ih

/-- Nothing in front of the cut is a stop. -/
theorem stop_of_mem_tails (h : rest <:+ (splitBefore stop text).1) (hne : rest ≠ []) :
    stop (rest ++ (splitBefore stop text).2) = false := by
  induction text with
  | nil => exact absurd (List.suffix_nil.1 h) hne
  | cons c more ih =>
    unfold splitBefore at h ⊢
    split at h
    · exact absurd (List.suffix_nil.1 h) hne
    · next hstop =>
      rw [if_neg hstop]
      obtain rfl | h := List.suffix_cons_iff.1 h
      · show stop (c :: ((splitBefore stop more).1 ++ (splitBefore stop more).2)) = false
        rw [splitBefore_append]
        exact Bool.eq_false_iff.2 hstop
      · exact ih h

/-- A text without a stop is in front of the cut. -/
theorem splitBefore_append_of
    (h : ∀ tail, tail <:+ done → tail ≠ [] → stop (tail ++ rest) = false) :
    splitBefore stop (done ++ rest) =
      (done ++ (splitBefore stop rest).1, (splitBefore stop rest).2) := by
  induction done with
  | nil => rfl
  | cons c done ih =>
    have hstop : stop (c :: (done ++ rest)) = false :=
      h (c :: done) List.suffix_rfl (List.cons_ne_nil _ _)
    rw [List.cons_append, splitBefore, hstop, if_neg Bool.false_ne_true,
      ih fun tail htail => h tail (htail.trans (List.suffix_cons _ _))]
    rfl

/-- A text begins with characters of a kind, and goes on with none of them. -/
theorem exists_run (p : Char → Bool) (text : List Char) :
    ∃ run rest, text = run ++ rest ∧ (∀ c ∈ run, p c = true) ∧ rest.head?.any p = false := by
  induction text with
  | nil => exact ⟨[], [], rfl, nofun, rfl⟩
  | cons c text ih =>
    cases hc : p c with
    | true =>
      obtain ⟨run, rest, rfl, hrun, hrest⟩ := ih
      exact ⟨c :: run, rest, rfl, List.forall_mem_cons.2 ⟨hc, hrun⟩, hrest⟩
    | false => exact ⟨[], c :: text, rfl, nofun, hc⟩

namespace Tokenizer

/-! ## 2. Spelling -/

/-- Steps and calls deliver the characters of a text and lead to where `Q` holds. In between the
tokenizer is in states in which `S` holds. Each call is told, by the next of the answers, whether
the tree is being built in foreign content. -/
inductive Spells (S : State → Prop) (Q : Tokenizer → Prop) : (Nat → Bool) → List Char → Tokenizer →
    Prop where
  | here {answers : Nat → Bool} {t : Tokenizer} (h : Q t) : Spells S Q answers [] t
  | step {answers : Nat → Bool} {text : List Char} {t : Tokenizer} (hp : t.pending = [])
      (he : t.ended = false)
    (h : Spells S Q answers text t.step) : Spells S Q answers text t
  | take {answers : Nat → Bool} {c : Char} {text : List Char} {position : Position}
      {waiting : List PositionedToken}
    {t : Tokenizer} (hp : t.pending = ⟨.character c, position⟩ :: waiting) (hs : S t.state)
    (h : Spells S Q (fun n => answers (n + 1)) text
      { t with pending := waiting, foreign := answers 0 }) :
    Spells S Q answers (c :: text) t

variable {S : State → Prop} {Q Q' : Tokenizer → Prop} {answers : Nat → Bool} {more : List Char}
  {t t' : Tokenizer} {p : PositionedToken}

/-- What follows may depend on where a text leads. -/
theorem Spells.append {P : List Char → Prop} (h : Spells S Q' answers text t)
    (hQ : ∀ t, Q' t → ∃ more, P more ∧ Spells S Q (fun n => answers (n + text.length)) more t) :
    ∃ more, P more ∧ Spells S Q answers (text ++ more) t := by
  induction h with
  | here h => exact hQ _ h
  | step hp he _ ih =>
    obtain ⟨more, hmore, hspells⟩ := ih hQ
    exact ⟨more, hmore, .step hp he hspells⟩
  | take hp hs _ ih =>
    obtain ⟨more, hmore, hspells⟩ := ih hQ
    exact ⟨more, hmore, .take hp hs hspells⟩

theorem Spells.trans (h : Spells S Q' answers text t)
    (hQ : ∀ answers t, Q' t → Spells S Q answers more t) : Spells S Q answers (text ++ more) t := by
  obtain ⟨_, rfl, hspells⟩ := h.append (P := (· = more)) fun t ht => ⟨more, rfl, hQ _ t ht⟩
  exact hspells

theorem Spells.goes (h : Spells S Q answers [] t) : Goes Q t := by
  generalize htext : ([] : List Char) = text at h
  induction h with
  | here h => exact .here h
  | step hp he _ ih => exact .step hp he (ih htext)
  | take => cases htext

theorem Goes.spells (h : Goes Q' t) (hQ : ∀ t, Q' t → Spells S Q answers text t) :
    Spells S Q answers text t := by
  induction h with
  | here h => exact hQ _ h
  | step hp he _ ih => exact .step hp he ih

/-- All characters that wait are delivered before the next step. -/
theorem spells_waiting {chars : List Char} (hp : t.pending.map (·.token) = chars.map .character)
    (hs : S t.state) (h : ∀ foreign, Q { t with pending := [], foreign }) (answers : Nat → Bool) :
    Spells S Q answers chars t := by
  induction chars generalizing t answers with
  | nil =>
    have hnil : t.pending = [] := List.map_eq_nil_iff.1 hp
    have heq : ({ t with pending := [] } : Tokenizer) = t := by rw [← hnil]
    exact .here (heq ▸ h t.foreign)
  | cons c chars ih =>
    obtain ⟨p, waiting, hpending, hp₁, hp₂⟩ := List.map_eq_cons_iff.1 hp
    obtain ⟨token, position⟩ := p
    obtain rfl : token = .character c := hp₁
    exact .take hpending hs (ih (t := { t with pending := waiting, foreign := answers 0 }) hp₂
      hs h _)

/-! ## 3. Characters that wait -/

/-- In a state, with this text ahead and this token under construction; these characters are still
to be delivered. -/
structure Owes (last : Option String) (chars : List Char) (s : State) (ahead : List Char)
    (current : Option Token) (t : Tokenizer) : Prop where
  state : t.state = s
  ahead : t.input.ahead = ahead
  current : t.current = current
  pending : t.pending.map (·.token) = chars.map .character
  ended : t.ended = false
  last : t.lastStartTag = last

section Owes

variable {last : Option String} {chars ahead rest : List Char} {s : State} {current : Option Token}

theorem Owes.pending_eq_nil (h : Owes last [] s ahead current t) : t.pending = [] :=
  List.map_eq_nil_iff.1 h.pending

theorem Owes.at (h : Owes last [] s ahead current t) (hd : t.duplicate = false) :
    At s ahead current t :=
  ⟨h.state, h.ahead, h.current, h.pending_eq_nil, h.ended, hd⟩

/-- Reading a character changes nothing but the input and the errors. -/
theorem buffer_consume (t : Tokenizer) : t.consume.buffer = t.buffer := by
  obtain ⟨errors, heq, -⟩ := consume_eq_advance t
  rw [heq]

theorem code_consume (t : Tokenizer) : t.consume.code = t.code := by
  obtain ⟨errors, heq, -⟩ := consume_eq_advance t
  rw [heq]

theorem returnState_consume (t : Tokenizer) : t.consume.returnState = t.returnState := by
  obtain ⟨errors, heq, -⟩ := consume_eq_advance t
  rw [heq]

/-- One step reads the next character and can put it back. -/
theorem Owes.consume (h : Owes last [] s ahead current t) :
    Owes last [] s ahead.tail current t.consume ∧
    t.consume.input.pushBack.ahead = ahead ∧ t.step = t.consume.handle ahead.head? := by
  have hpeek : t.input.peek = ahead.head? := congrArg List.head? h.ahead
  obtain ⟨errors, heq, -⟩ := consume_eq_advance t
  rw [Tokenizer.step, hpeek, heq]
  refine ⟨⟨h.state, ?_, h.current, h.pending, h.ended, h.last⟩, ?_, rfl⟩
  · show t.input.advance.ahead = ahead.tail
    rw [Cursor.ahead_advance, h.ahead]
  · show t.input.advance.pushBack.ahead = ahead
    rw [Cursor.pushBack_advance_ahead, h.ahead]

theorem Owes.step (h : Owes last [] s ahead current t)
    (hQ : Owes last [] s ahead.tail current t.consume → t.consume.input.pushBack.ahead = ahead →
      Spells S Q answers text (t.consume.handle ahead.head?)) : Spells S Q answers text t := by
  obtain ⟨hread, hback, hstep⟩ := h.consume
  exact .step h.pending_eq_nil h.ended (hstep ▸ hQ hread hback)

theorem Owes.switchTo (h : Owes last chars s ahead current t) (s' : State) :
    Owes last chars s' ahead current (t.switchTo s') :=
  ⟨rfl, h.ahead, h.current, h.pending, h.ended, h.last⟩

theorem Owes.reconsumeIn (h : Owes last chars s rest current t)
    (hback : t.input.pushBack.ahead = ahead) (s' : State) :
    Owes last chars s' ahead current (t.reconsumeIn s') :=
  ⟨rfl, hback, h.current, h.pending, h.ended, h.last⟩

theorem Owes.report (h : Owes last chars s ahead current t) (kind : ErrorKind) :
    Owes last chars s ahead current (t.report kind) :=
  ⟨h.state, h.ahead, h.current, h.pending, h.ended, h.last⟩

theorem Owes.markStart (h : Owes last chars s ahead current t) :
    Owes last chars s ahead current t.markStart :=
  ⟨h.state, h.ahead, h.current, h.pending, h.ended, h.last⟩

theorem Owes.buffer (h : Owes last chars s ahead current t) (buffer : List Char) :
    Owes last chars s ahead current { t with buffer } :=
  ⟨h.state, h.ahead, h.current, h.pending, h.ended, h.last⟩

theorem Owes.setCurrent (h : Owes last chars s ahead current t) (current' : Option Token) :
    Owes last chars s ahead current' { t with current := current' } :=
  ⟨h.state, h.ahead, rfl, h.pending, h.ended, h.last⟩

theorem Owes.edit {token token' : Token} {e : Edit} (h : Owes last chars s ahead (some token) t)
    (he : token.edit e = .ok token') : t.edit e = { t with current := some token' } := by
  simp only [Tokenizer.edit, h.current, he]

theorem Owes.emitChar (h : Owes last chars s ahead current t) (c : Char) :
    Owes last (chars ++ [c]) s ahead current (t.emitChar c) := by
  refine ⟨h.state, h.ahead, h.current, ?_, h.ended, h.last⟩
  show (t.pending ++ [(⟨.character c, t.input.position⟩ : PositionedToken)]).map (·.token) = _
  rw [List.map_append, h.pending, List.map_append]
  rfl

theorem Owes.emitChars (h : Owes last chars s ahead current t) (cs : List Char) :
    Owes last (chars ++ cs) s ahead current (t.emitChars cs) := by
  induction cs generalizing chars t with
  | nil => rwa [List.append_nil]
  | cons c cs ih =>
    rw [List.append_cons]
    exact ih (h.emitChar c)

/-- What waits is delivered, and nothing else changes. -/
theorem Owes.spells (h : Owes last chars s ahead current t) (hs : S s) :
    Spells S (Owes last [] s ahead current) answers chars t :=
  spells_waiting h.pending (h.state.symm ▸ hs)
    (fun _ => ⟨h.state, h.ahead, h.current, rfl, h.ended, h.last⟩) answers

end Owes

/-! ## 4. What is spelled is delivered -/

/-- A call goes on from where some steps lead. -/
theorem Goes.exists_pulls (h : Goes Q t) (hpulls : Pulls t p t') : ∃ t₁, Q t₁ ∧ Pulls t₁ p t' := by
  induction h with
  | here h => exact ⟨_, h, hpulls⟩
  | step hp he _ ih => exact ih (hpulls.of_step hp he)

theorem Goes.midway (h : Goes Q t) (ht : Between t ∨ Midway t) :
    Goes (fun t => Q t ∧ (Between t ∨ Midway t)) t := by
  induction h with
  | here h => exact .here ⟨h, ht⟩
  | step hp he _ ih =>
    have hmid := ht.elim (fun hb => hb.midway hp he) id
    exact .step hp he (ih hmid.step)

/-- A call delivers the first character. -/
theorem Spells.cons_pulls {c : Char} (h : Spells S Q answers (c :: text) t) :
    ∃ p t', Pulls t p t' ∧ p.token = .character c ∧ S t'.state ∧
      Spells S Q (fun n => answers (n + 1)) text { t' with foreign := answers 0 } := by
  generalize htext : c :: text = all at h
  induction h with
  | here => cases htext
  | step hp he _ ih =>
    obtain ⟨p, t', hpulls, hrest⟩ := ih htext
    exact ⟨p, t', .step hp he hpulls, hrest⟩
  | take hp hs h _ =>
    cases htext
    exact ⟨_, _, .queued hp, rfl, hs, h⟩

theorem after_succ (answers : Nat → Bool) (t : Tokenizer) (n : Nat) :
    t.after answers (n + 1) = (t.nextToken (answers 0)).2.after (fun n => answers (n + 1)) n := by
  induction n with
  | zero => rfl
  | succ n ih => exact congrArg (fun t => (nextToken t (answers (n + 1))).2) ih

theorem delivery_succ (answers : Nat → Bool) (t : Tokenizer) (n : Nat) :
    t.delivery answers (n + 1) =
      (t.nextToken (answers 0)).2.delivery (fun n => answers (n + 1)) n :=
  congrArg (fun t => (nextToken t (answers (n + 1))).1) (after_succ answers t n)

/-- The calls deliver what is spelled, one character each. -/
theorem Between.deliveries (ht : Between t) (answers : Nat → Bool)
    (h : Spells S Q (fun n => answers (n + 1)) text { t with foreign := answers 0 }) :
    (∀ n (hn : n < text.length), (t.delivery answers n).token = .character text[n] ∧
      S (t.after answers (n + 1)).state) ∧
    Goes Q { t.after answers text.length with foreign := answers text.length } := by
  induction text generalizing t answers with
  | nil => exact ⟨fun n hn => absurd hn n.not_lt_zero, h.goes⟩
  | cons c text ih =>
    obtain ⟨p, t', hpulls, hchar, hs, hrest⟩ := h.cons_pulls
    obtain ⟨rfl, rfl⟩ := hpulls.unique (ht.pulls_nextToken (answers 0))
    obtain ⟨hdelivered, hgoes⟩ := ih (ht.nextToken (answers 0)) (fun n => answers (n + 1)) hrest
    refine ⟨fun n hn => ?_, ?_⟩
    · cases n with
      | zero => exact ⟨hchar, hs⟩
      | succ n =>
        obtain ⟨htoken, hstate⟩ := hdelivered n (Nat.lt_of_succ_lt_succ hn)
        rw [delivery_succ, after_succ]
        exact ⟨htoken, hstate⟩
    · rw [List.length_cons, after_succ]
      exact hgoes

end Tokenizer

end Hypertext
