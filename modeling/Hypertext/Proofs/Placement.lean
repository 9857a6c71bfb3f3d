import Hypertext.Proofs.Completion
import Hypertext.Proofs.Tokenizer.Origins
import Hypertext.Proofs.TreeBuilder.Rounds

/-!
# Where tokens and errors are

Every token that a session delivers is placed in the text, no token before an earlier one, and so is
every error. A tag, a comment or a document type is placed at the `<` at which it was opened, and a
character that is text by itself where it stands. Any other character is placed where the tokenizer
is when it is finished, which may be later than where it was read.
-/

namespace Hypertext

namespace Tokenizer

variable {t : Tokenizer} {text : List Char} {low : Nat}

/-! ## 1. The tokenizer alone -/

theorem Ordered.takeErrors (h : Ordered text low t) : Ordered text low t.takeErrors.2 := by
  have htracks : t.trail.Tracks text → t.takeErrors.2.trail.Tracks text := fun g =>
    ⟨g.input, g.start, g.queue, nofun⟩
  unfold Ordered at h
  show if t.ended then Here _ _ t.takeErrors.2 else if t.marks then Opened _ _ t.takeErrors.2
    else if t.state.zone? = none then Here _ _ t.takeErrors.2 else Next _ _ t.takeErrors.2
  split_ifs at h ⊢
  · exact ⟨htracks h.1, h.2⟩
  · exact ⟨htracks h.1, h.2⟩
  · exact ⟨htracks h.1, h.2⟩
  · exact ⟨htracks h.1, h.2⟩

/-- One text state may take the place of another. -/
theorem Ordered.switchTo (h : Ordered text low t) {s s' : State} (hs : t.state = s)
    (hp : s.isPlain = true) (hp' : s'.isPlain = true) : Ordered text low (t.switchTo s') := by
  by_cases he : t.ended = true
  · exact Here.ordered (t := t.switchTo s') (h.here he) (Or.inl he)
  · rw [Bool.not_eq_true] at he
    exact Next.ordered (t := t.switchTo s') (h.next he hs hp) he rfl hp'

/-- In whatever text state the tokenizer begins, a token from markup is placed at the `<` at which
it was opened: the call that delivers it begins with nothing in the queue, and that `<` comes next,
behind what gives no token. A character that is read as text comes next as well, and is placed
where it stands. -/
theorem delivery_placed (html : String) {s : State} (hs : s.isPlain = true) (last : Option String)
    (answers : Nat → Bool) (n : Nat) :
    let t := ((ofString html).switchTo s).setLastStartTag last
    let before := t.after answers n
    let after := t.after answers (n + 1)
    let p := t.delivery answers n
    let passed := passOver (answers n) before.host before.input.ahead
    (p.token.isMarkup = true → before.pending = [] ∧ before.ended = false) ∧
    (before.pending = [] → before.ended = false → ∃ done rest,
      normalizeNewlines html.toList = done ++ before.input.ahead ∧
      before.input.ahead = passed.1 ++ rest ∧
      Begins (Position.start.advanceBy (done ++ passed.1)) passed.2 rest p after.input.ahead) := by
  intro t before after p passed
  have hbetween : Between t := ((between_ofString html).switchTo s).setLastStartTag last
  have hbefore : Between before := hbetween.after answers n
  have htext : InText before := (inText_plain html hs last).after hbetween answers n
  obtain ⟨low, hordered⟩ := (ordered_plain html hs last).after hbetween answers n
  obtain ⟨done, hdone, hposition⟩ := hordered.tracks.input.stands
  obtain ⟨-, hqueue, hnext⟩ := (htext.setForeign (answers n)).pulls (hbefore.setForeign _)
    (hbefore.pulls_nextToken (answers n))
  refine ⟨hqueue, fun hp he => ?_⟩
  obtain ⟨rest, hrest, hbegun⟩ := hnext hp he
  refine ⟨done, rest, hdone, hrest, ?_⟩
  rw [Position.advanceBy, List.foldl_append, ← Position.advanceBy, ← Position.advanceBy,
    ← hposition]
  exact hbegun.begins

/-- The start tag in `a<b>` is placed at its `<`. -/
theorem delivery_tag : State.data.isPlain = true ∧
    let p := (((ofString "a<b>").switchTo .data).setLastStartTag none).delivery (fun _ => false) 1
    p.token = .startTag { name := "b" } ∧
      ∃ done read, ['a', '<', 'b', '>'] = done ++ '<' :: read ∧
        p.position = (Position.start.advanceBy done).advance '<' := by
  obtain ⟨hqueue, hnext⟩ := delivery_placed "a<b>" (s := .data) rfl none (fun _ => false) 1
  have htoken : ((((ofString "a<b>").switchTo .data).setLastStartTag none).delivery
      (fun _ => false) 1).token = .startTag { name := "b" } := by decide
  have hmarkup : Token.isMarkup (.startTag { name := "b" }) = true := rfl
  rw [← htoken] at hmarkup
  obtain ⟨hp, he⟩ := hqueue hmarkup
  obtain ⟨done, rest, hdone, hrest, hbegins⟩ := hnext hp he
  obtain ⟨hposition, read, hread⟩ := hbegins.markup hmarkup
  have hahead := hrest.trans (congrArg (_ ++ ·) hread)
  have htext := hdone.trans (congrArg (done ++ ·) hahead)
  exact ⟨rfl, htoken, _, _, htext.trans (List.append_assoc ..).symm, hposition⟩

/-- A `<` that opens nothing is placed at the character after it, which had to be read
to see that. -/
theorem delivery_angle :
    (ofString "a<3").delivery (fun _ => false) 1 = ⟨.character '<', ⟨1, 3, 3⟩⟩ ∧
    Position.start.advanceBy ['a', '<'] = ⟨1, 2, 2⟩ := by decide

end Tokenizer

namespace Session

open TreeBuilder Tokenizer

variable {s s' : Session} {text : List Char} {low : Nat}

/-! ## 2. One step of a session -/

/-- The errors are in the text, and what is still to be delivered is placed at the offset
`low` or later. -/
structure Placed (text : List Char) (low : Nat) (s : Session) : Prop where
  ordered : Ordered text low s.tokenizer
  errors : s.builder.errors.On text

theorem placed_start (html : String) (options : ParseOptions) :
    Placed (normalizeNewlines html.toList) 0 (start html options) := by
  have htracks := tracks_ofString html
  refine ⟨Opened.ordered ?_, nofun⟩
  show Opened _ _ (tokenizerFor html options)
  unfold tokenizerFor
  cases options.initialState <;> cases options.lastStartTag <;>
    exact ⟨htracks, rising_start _, Nat.le_refl _⟩

/-- The state that is asked for reads text. -/
theorem isPlain_of_request {builder : TreeBuilder} {tag : Tag} {state : State}
    (h : Request builder tag) (hs : builder.stateRequest = some state) : state.isPlain = true := by
  obtain hr | ⟨kind, hr⟩ := h.stateRequest_cases
  all_goals
    rw [hr] at hs
    cases hs
    rfl

theorem Placed.step (h : Placed text low s) (hr : Session.Reachable s) (hs : s.step = .ok s') :
    low ≤ s.fetch.1.position.offset ∧ s.fetch.1.position.On text ∧
      Placed text s.fetch.1.position.offset s' := by
  have hf := finished_of_step hs
  have hrunning := hr.running hf
  obtain ⟨hlow, hon, hnext⟩ :=
    h.ordered.nextToken hrunning.between s.builder.isForeign
  have hnoted : s.noted.errors.On text := h.errors.append hnext.tracks.errors
  obtain ⟨builder, hp, hfin⟩ := hrunning.inStep.noted.process s.fetch.1
  have hworking : Working s.noted := (hr.builder.absorbErrors _).working hf
  have herrors : builder.errors.On text := (hworking.logs hp).on hnoted hon
  rw [step_eq hf hp] at hs
  cases hs
  refine ⟨hlow, hon, ?_⟩
  cases hrequest : builder.stateRequest with
  | none =>
    rw [applyRequest_none hrequest]
    exact ⟨hnext.takeErrors, herrors⟩
  | some state =>
    obtain ⟨tag, htag, hasks⟩ := hrunning.inStep.request_token hfin hrequest
    have hdata := (hrunning.inStep.delivers.start tag htag).1
    rw [applyRequest_some hrequest]
    exact ⟨hnext.takeErrors.switchTo hdata rfl (isPlain_of_request hasks hrequest), herrors⟩

/-! ## 3. Step after step -/

/-- Some steps of a session, which deliver these tokens. -/
inductive Carries (s : Session) : List PositionedToken → Session → Prop where
  | none : Carries s [] s
  | step {tokens : List PositionedToken} {s' s'' : Session} (h : Carries s tokens s')
    (hs : s'.step = .ok s'') : Carries s (tokens ++ [s'.fetch.1]) s''

theorem Carries.reachable {tokens : List PositionedToken} (h : Carries s tokens s')
    (hs : Session.Reachable s) : Session.Reachable s' := by
  induction h with
  | none => exact hs
  | step _ hstep ih => exact ih.step hstep

/-- The tokens so far are placed one after the other, and the next one comes after them. -/
theorem Carries.placed {tokens : List PositionedToken} (h : Carries s tokens s')
    (hs : Session.Reachable s) (hp : Placed text low s) :
    (∀ p ∈ tokens, p.position.On text) ∧
    tokens.Pairwise (fun p q => p.position.offset ≤ q.position.offset) ∧
      ∃ low, (∀ p ∈ tokens, p.position.offset ≤ low) ∧ Placed text low s' := by
  induction h with
  | none => exact ⟨nofun, List.Pairwise.nil, low, nofun, hp⟩
  | @step tokens s' s'' h hstep ih =>
    obtain ⟨hon, hpairwise, low, hle, hp⟩ := ih
    obtain ⟨hlow, hon', hp'⟩ := hp.step (h.reachable hs) hstep
    refine ⟨fun p hmem => ?_, ?_, _, fun p hmem => ?_, hp'⟩
    · obtain hmem | hmem := List.mem_append.1 hmem
      · exact hon p hmem
      · exact List.mem_singleton.1 hmem ▸ hon'
    · refine List.pairwise_append.2 ⟨hpairwise, List.pairwise_singleton _ _, fun p hmem q hq => ?_⟩
      rw [List.mem_singleton.1 hq]
      exact Nat.le_trans (hle p hmem) hlow
    · obtain hmem | hmem := List.mem_append.1 hmem
      · exact Nat.le_trans (hle p hmem) hlow
      · exact List.mem_singleton.1 hmem ▸ Nat.le_refl _

/-- Whatever the options, a session goes on until it has ended. The tokens that it delivers are
placed in order, and they and all errors at places in the text. -/
theorem places_of_carries (html : String) (options : ParseOptions) {tokens : List PositionedToken}
    (h : Carries (start html options) tokens s) :
    let text := normalizeNewlines html.toList
    tokens.Pairwise (fun p q => p.position.offset ≤ q.position.offset) ∧
    (∀ p ∈ tokens, p.position.On text) ∧ (∀ e ∈ s.errors.entries, e.position.On text) ∧
    (s.finished = false →
      ∃ s', s.step = .ok s' ∧ Carries (start html options) (tokens ++ [s.fetch.1]) s') := by
  intro text
  have hreach := h.reachable (.start html options)
  obtain ⟨hon, hpairwise, low, -, hplaced⟩ :=
    h.placed (.start html options) (placed_start html options)
  refine ⟨hpairwise, hon, hplaced.errors, fun hf => ?_⟩
  obtain ⟨s', hs', -⟩ := (hreach.running hf).step
  exact ⟨s', hs', h.step hs'⟩

/-- A comment and a reference, each delivered by one step. -/
theorem places_commentAndReference :
    let comment : PositionedToken := ⟨.comment "b", ⟨1, 1, 1⟩⟩
    let ampersand : PositionedToken := ⟨.character '&', ⟨1, 13, 13⟩⟩
    ∃ s, Carries (start "<!--b-->&amp;" {}) [comment, ampersand] s ∧
      [comment, ampersand].Pairwise (fun p q => p.position.offset ≤ q.position.offset) ∧
      ∀ e ∈ s.errors.entries, e.position.On (normalizeNewlines "<!--b-->&amp;".toList) := by
  intro comment ampersand
  have hcomment : (start "<!--b-->&amp;" {}).fetch.1 = comment := by
    with_unfolding_all decide
  obtain ⟨s, hstep, hf, hampersand⟩ := exists_ok (start "<!--b-->&amp;" {}).step
    (fun s => s.finished = false ∧ s.fetch.1 = ampersand) (by decide +kernel)
  have hone : Carries (start "<!--b-->&amp;" {}) [(start "<!--b-->&amp;" {}).fetch.1] s :=
    .step .none hstep
  obtain ⟨s', -, htwo⟩ := (places_of_carries _ _ hone).2.2.2 hf
  rw [hcomment, hampersand] at htwo
  have hplaces := places_of_carries _ _ htwo
  exact ⟨s', htwo, hplaces.1, hplaces.2.2.1⟩

end Session

end Hypertext
