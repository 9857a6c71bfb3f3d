import Hypertext.Proofs.TreeBuilder.Run

/-!
# What tree construction can get to

A builder is `Reachable` if a host can bring it about: it was made with some options and has been
fed any tokens whatever. Of every such builder the nodes form a forest, the mode fits the open
elements, and the next token is dealt with in finitely many rounds.
-/

namespace Hypertext.TreeBuilder

open Hypertext.Tree

variable {b b' : TreeBuilder}

/-! ## 1. Reachable builders -/

/-- What a host can do with a builder. -/
inductive Reachable : TreeBuilder → Prop where
  | start (scripting srcdoc : Bool) : Reachable { scripting, srcdoc }
  | process {b b' : TreeBuilder} (t : PositionedToken) (h : Reachable b)
    (hp : b.process t = .ok b') : Reachable b'
  | takeStateRequest {b : TreeBuilder} (h : Reachable b) : Reachable b.takeStateRequest.2
  | absorbErrors {b : TreeBuilder} (errors : ErrorLog) (h : Reachable b) :
    Reachable { b with errors := b.errors.append errors }

/-- Tree construction is under way, or has come to its end. -/
def Valid (b : TreeBuilder) : Prop := Spine b ∨ Halted b

theorem spine_start (scripting srcdoc : Bool) : Spine { scripting, srcdoc } := by
  have hempty : Tree.empty.skeleton.content = [] := by rw [skeleton_empty]
  refine ⟨⟨⟨.empty, ?_, ?_, .nil, ?_, .empty, ?_, by simp⟩, .nil, by simp, fun _ => rfl, rfl, rfl⟩,
    rfl, rfl, rfl, hempty⟩
  all_goals exact fun x hx => absurd hx List.not_mem_nil

theorem Valid.update (h : Valid b) (stateRequest : Option Tokenizer.State) (errors : ErrorLog) :
    Valid { b with stateRequest, errors } :=
  h.imp (·.update _ _ _ _ _ _) (·.update _ _ _ _ _ _)

theorem Halted.process (h : Halted b) (t : PositionedToken) :
    b.process t = .error .alreadyFinished := by
  rw [TreeBuilder.process, if_pos h.stopped]

theorem Valid.process (h : Valid b) {t : PositionedToken} (hp : b.process t = .ok b') :
    Valid b' := by
  obtain h | h := h
  · obtain ⟨b₁, hb₁, hf⟩ := h.process t
    rw [hp] at hb₁
    cases hb₁
    by_cases ht : t.token = .endOfFile
    · exact Or.inr (hf.halted ht)
    · exact Or.inl (hf.spine ht)
  · rw [h.process t] at hp
    cases hp

theorem Reachable.valid (h : Reachable b) : Valid b := by
  induction h with
  | start scripting srcdoc => exact Or.inl (spine_start scripting srcdoc)
  | process t _ hp ih => exact ih.process hp
  | @takeStateRequest b _ ih => exact ih.update none b.errors
  | @absorbErrors b errors _ ih => exact ih.update b.stateRequest (b.errors.append errors)

theorem Reachable.spine (h : Reachable b) (hs : b.stopped = false) : Spine b := by
  refine h.valid.resolve_right fun hh => ?_
  rw [hh.stopped] at hs
  cases hs

theorem Valid.planted (h : Valid b) : Planted b.tree b.openElements b.headElement := by
  obtain h | h := h
  · exact h.planted
  · rw [h.openElements]
    exact h.planted

/-- The tree builders that a host can bring about with some of the tokens only. -/
inductive ReachableBy (allowed : Token → Prop) : TreeBuilder → Prop where
  | start (scripting srcdoc : Bool) : ReachableBy allowed { scripting, srcdoc }
  | process {b b' : TreeBuilder} (t : PositionedToken) (ht : allowed t.token)
      (h : ReachableBy allowed b)
    (hp : b.process t = .ok b') : ReachableBy allowed b'
  | takeStateRequest {b : TreeBuilder} (h : ReachableBy allowed b) :
    ReachableBy allowed b.takeStateRequest.2
  | absorbErrors {b : TreeBuilder} (errors : ErrorLog) (h : ReachableBy allowed b) :
    ReachableBy allowed { b with errors := b.errors.append errors }

theorem ReachableBy.reachable {allowed : Token → Prop} (h : ReachableBy allowed b) :
    Reachable b := by
  induction h with
  | start scripting srcdoc => exact .start scripting srcdoc
  | process t _ _ hp ih => exact .process t ih hp
  | takeStateRequest _ ih => exact ih.takeStateRequest
  | absorbErrors errors _ ih => exact ih.absorbErrors errors

theorem Reachable.reachableBy (h : Reachable b) : ReachableBy (fun _ => True) b := by
  induction h with
  | start scripting srcdoc => exact .start scripting srcdoc
  | process t _ hp ih => exact .process t trivial ih hp
  | takeStateRequest _ ih => exact ih.takeStateRequest
  | absorbErrors errors _ ih => exact ih.absorbErrors errors

/-- The builder after some tokens. -/
def feed (b : TreeBuilder) (tokens : List Token) : Except HostError TreeBuilder :=
  tokens.foldlM (fun b token => b.process ⟨token, .start⟩) b

theorem exists_process_of_feed {tokens : List Token} (hf : b.feed (token :: tokens) = .ok b') :
    ∃ b₁, b.process ⟨token, .start⟩ = .ok b₁ ∧ b₁.feed tokens = .ok b' := by
  rw [TreeBuilder.feed, List.foldlM_cons] at hf
  cases hp : b.process ⟨token, .start⟩ with
  | error e =>
    rw [hp] at hf
    cases hf
  | ok b₁ =>
    rw [hp] at hf
    exact ⟨b₁, rfl, hf⟩

theorem ReachableBy.feed {allowed : Token → Prop} {tokens : List Token} (h : ReachableBy allowed b)
    (ht : ∀ token ∈ tokens, allowed token) (hf : b.feed tokens = .ok b') :
    ReachableBy allowed b' := by
  induction tokens generalizing b with
  | nil =>
    cases hf
    exact h
  | cons token tokens ih =>
    obtain ⟨htoken, ht⟩ := List.forall_mem_cons.1 ht
    obtain ⟨b₁, hp, hf⟩ := exists_process_of_feed hf
    exact ih (.process _ htoken h hp) ht hf

theorem Reachable.feed {tokens : List Token} (h : Reachable b) (hf : b.feed tokens = .ok b') :
    Reachable b' := (h.reachableBy.feed (fun _ _ => trivial) hf).reachable

/-- A result that passes a test is there. -/
theorem exists_ok {ε α : Type} (x : Except ε α) (p : α → Prop) [DecidablePred p]
    (h : x.toOption.any (fun a => p a) = true) : ∃ a, x = .ok a ∧ p a := by
  cases x with
  | error e => cases h
  | ok a => exact ⟨a, rfl, of_decide_eq_true h⟩

/-! ## 2. The nodes form a forest -/

/-- Whatever tokens are fed, the nodes form a forest that every open element hangs in. -/
theorem wellFormed_of_reachable (h : Reachable b) :
    b.tree.WellFormed ∧
      ∀ x ∈ b.openElements, (b.tree.element? x).isSome ∧ b.tree.Descends root x := by
  have hp := h.valid.planted
  refine ⟨hp.forest.wellFormed, fun x hx => ⟨?_, hp.forest.descends (hp.reach x hx)⟩⟩
  have hl := hp.element x hx
  rwa [label?, Option.isSome_map] at hl

/-- Two links that are not closed in order, one of them in a table. -/
def misnested : List Token :=
  [.startTag { name := "a" }, .startTag { name := "table" }, .startTag { name := "a" },
    .startTag { name := "p" }, .endTag { name := "a" }]

theorem wellFormed_misnested : ∃ b, feed {} misnested = .ok b ∧
    b.openNames = ["html", "body", "table", "p"] ∧ b.tree.WellFormed ∧
      ∀ x ∈ b.openElements, (b.tree.element? x).isSome ∧ b.tree.Descends root x := by
  obtain ⟨b, hb, hn⟩ := exists_ok (feed {} misnested)
    (fun b => b.openNames = ["html", "body", "table", "p"]) (by with_unfolding_all decide)
  exact ⟨b, hb, hn, wellFormed_of_reachable (.feed (.start false false) hb)⟩

/-! ## 3. The mode fits the open elements -/

theorem Steady.kind_appropriateMode {mode : InsertionMode} {outer : List NodeId}
    (h : Steady b.tree outer b.templateModes b.headElement.isSome mode)
    (hbones : b.tree.bones b.openElements = b.tree.bones outer) :
    b.appropriateMode.kind = mode.kind := by
  have hlone := h.1.frame.lone
  rw [← hbones] at hlone
  have hkind := kind_modeFor hlone
  rw [appropriateMode, hkind, hbones, h.2]

/-- The mode is the one that a search through the open elements finds; raw text and the text of a
table go back to it. -/
theorem appropriateMode_of_reachable (h : Reachable b) (hs : b.stopped = false) :
    (b.mode ∈ steadyModes → b.appropriateMode.kind = b.mode.kind) ∧
    (b.mode = .text ∨ b.mode = .inTableText → ∃ mode, b.resumeMode = some mode ∧ mode ≠ .text ∧
      mode ≠ .inTableText ∧ (mode ∈ steadyModes → b.appropriateMode.kind = mode.kind)) := by
  have hspine := h.spine hs
  have hstanding := hspine.standing
  refine ⟨fun hm => (hspine.steady hm).kind_appropriateMode rfl, ?_⟩
  rintro (hm | hm)
  · rw [hm] at hstanding
    obtain ⟨mode, x, outer, hr, hopen, hx, hfits⟩ := hstanding
    refine ⟨mode, hr, ?_, ?_, fun hsteady => ?_⟩
    · rintro rfl
      exact hfits
    · rintro rfl
      exact hfits
    · refine ((fits_iff hsteady).1 hfits).kind_appropriateMode ?_
      rw [hopen, bones_cons_none hx.part]
  · rw [hm] at hstanding
    obtain ⟨mode, hmem, hr, hsteady⟩ := hstanding
    refine ⟨mode, hr, ?_, ?_, fun _ => hsteady.kind_appropriateMode rfl⟩
    · rintro rfl
      simp at hmem
    · rintro rfl
      simp at hmem

/-- A title in a row in a template. -/
def titleInRow : List Token :=
  [.startTag { name := "template" }, .startTag { name := "tr" }, .startTag { name := "title" }]

theorem appropriateMode_titleInRow : ∃ b, feed {} titleInRow = .ok b ∧ b.stopped = false ∧
    b.mode = .text ∧ b.resumeMode = some .inRow ∧ b.appropriateMode = .inRow := by
  obtain ⟨b, hb, hs, hm, hr⟩ := exists_ok (feed {} titleInRow)
    (fun b => b.stopped = false ∧ b.mode = .text ∧ b.resumeMode = some .inRow)
    (by with_unfolding_all decide)
  obtain ⟨mode, hr', -, -, hmode⟩ :=
    (appropriateMode_of_reachable (.feed (.start false false) hb) hs).2 (Or.inl hm)
  rw [hr] at hr'
  cases hr'
  refine ⟨b, hb, hs, hm, hr, ?_⟩
  have hkind := hmode (by decide)
  revert hkind
  cases b.appropriateMode <;> simp [InsertionMode.kind]

/-! ## 4. Every token is dealt with -/

/-- The rounds that a token sets off come to an end before their limit, and tree construction stops
at the end of the input and nowhere else; then nothing is left open. -/
theorem process_of_reachable (h : Reachable b) (hs : b.stopped = false) (t : PositionedToken) :
    Acc Outcome.After ((b.receive t).rules t.token) ∧
    Settles ((b.receive t).rules t.token) ((b.receive t).dispatch t.token) ∧
    ∃ b', b.process t = .ok b' ∧ (b'.stopped = true ↔ t.token = .endOfFile) ∧
      (t.token = .endOfFile →
        b'.openElements = [] ∧ b'.formatting = [] ∧ b'.templateModes = []) := by
  have hspine := h.spine hs
  have hsettles := (concludes_dispatch (hspine.receive t) t.token).1
  obtain ⟨b', hb', hf⟩ := hspine.process t
  refine ⟨hsettles.acc, hsettles, b', hb', ⟨fun hstopped => ?_, fun ht => (hf.halted ht).stopped⟩,
    fun ht => ?_⟩
  · by_contra ht
    have hrunning := (hf.spine ht).running
    rw [hstopped] at hrunning
    cases hrunning
  · have hh := hf.halted ht
    exact ⟨hh.openElements, hh.formatting, hh.templateModes⟩

/-- The end of the input in a title in a row in a template. -/
theorem process_titleInRow : ∃ b b', feed {} titleInRow = .ok b ∧ b.stopped = false ∧
    b.templateModes ≠ [] ∧ b.process ⟨.endOfFile, .start⟩ = .ok b' ∧ b'.stopped = true ∧
    b'.openElements = [] ∧ b'.formatting = [] ∧ b'.templateModes = [] := by
  obtain ⟨b, hb, hs, hm⟩ := exists_ok (feed {} titleInRow)
    (fun b => b.stopped = false ∧ b.templateModes ≠ []) (by with_unfolding_all decide)
  obtain ⟨-, -, b', hb', hstopped, hempty⟩ :=
    process_of_reachable (.feed (.start false false) hb) hs ⟨.endOfFile, .start⟩
  exact ⟨b, b', hb, hs, hm, hb', hstopped.2 rfl, hempty rfl⟩

end Hypertext.TreeBuilder
