import Hypertext.Proofs.Session
import Hypertext.Proofs.Tokenizer.Termination

/-!
# Parsing comes to an end

Every call for a token comes back, and after finitely many tokens it brings the end of the input and
nothing else. A session therefore runs to its end on every document.
-/

namespace Hypertext

namespace Tokenizer

variable {t : Tokenizer}

theorem remaining_switchTo_le {s : State} (hs : debt t.returnState t.buffer s = 0) :
    (t.switchTo s).remaining ≤ t.remaining := by
  show t.pending.length + (if t.ended then 0 else
    t.input.ahead.length + debt t.returnState t.buffer s + 1) ≤ t.remaining
  unfold remaining
  rw [hs]
  split <;> omega

theorem debt_le (r : Option State) (b : List Char) (s : State) : debt r b s ≤ b.length + 2 := by
  have hr := Bool.toNat_le (isAttributeValue r)
  cases s <;> simp only [debt] <;> omega

/-- No character gives so many tokens that the bound on their number is met. -/
theorem remaining_le_tokenLimit (t : Tokenizer) : t.remaining ≤ t.tokenLimit := by
  have hdebt := debt_le t.returnState t.buffer t.state
  unfold remaining tokenLimit
  split <;> omega

end Tokenizer

namespace Session

open TreeBuilder Tokenizer

variable {s s' : Session}

/-! ## 1. One step -/

theorem debt_of_request {builder : TreeBuilder} {tag : Tag} {state : State}
    (h : Request builder tag) (hs : builder.stateRequest = some state) (r : Option State)
    (b : List Char) : debt r b state = 0 := by
  obtain hr | ⟨kind, hr⟩ := h.stateRequest_cases
  all_goals
    rw [hr] at hs
    cases hs
    rfl

/-- Both sides are ready for the next token. -/
structure Running (s : Session) : Prop where
  inStep : InStep s
  between : Between s.tokenizer
  finished : s.finished = false

theorem running_start (html : String) (options : ParseOptions) : Running (start html options) := by
  refine ⟨inStep_start html options, ?_, rfl⟩
  exact (notBuilding_tokenizerFor html options).between (pending_tokenizerFor html options) (by
    show (tokenizerFor html options).ended = false
    unfold tokenizerFor
    cases options.initialState <;> cases options.lastStartTag <;> rfl)

/-- The tokenizer that goes on after a token has less to deliver than before it. -/
theorem Running.remaining_lt (h : Running s) {builder : TreeBuilder}
    (hfin : Finished s.noted s.fetch.1.token builder) (he : s.fetch.1.token ≠ .endOfFile) :
    (applyRequest ⟨s.fetch.2, builder⟩).tokenizer.remaining < s.tokenizer.remaining := by
  have hfetch : s.fetch.2.remaining < s.tokenizer.remaining := by
    obtain ⟨hend, -⟩ | ⟨-, hless⟩ := h.between.delivered s.builder.isForeign
    · exact absurd hend he
    · exact hless
  cases hr : builder.stateRequest with
  | none =>
    rw [applyRequest_none hr]
    exact hfetch
  | some state =>
    obtain ⟨tag, -, hrequest⟩ := h.inStep.request_token hfin hr
    rw [applyRequest_some hr]
    exact Nat.lt_of_le_of_lt (remaining_switchTo_le (debt_of_request hrequest hr _ _)) hfetch

theorem between_applyRequest (h : Between s.tokenizer) : Between (applyRequest s).tokenizer := by
  obtain ⟨t, builder⟩ := s
  cases hr : builder.stateRequest with
  | none =>
    rw [applyRequest_none hr]
    exact h
  | some state =>
    rw [applyRequest_some hr]
    exact h.switchTo state

/-- A step ends the session, or leaves it running with less to deliver. -/
theorem Running.step (h : Running s) : ∃ s', s.step = .ok s' ∧
    (s'.finished = true ∨ Running s' ∧ s'.tokenizer.remaining < s.tokenizer.remaining) := by
  obtain ⟨builder, hp, hfin⟩ := h.inStep.noted.process s.fetch.1
  refine ⟨_, step_eq h.finished hp, ?_⟩
  by_cases he : s.fetch.1.token = .endOfFile
  · refine Or.inl ?_
    rw [finished_applyRequest]
    exact (hfin.halted he).stopped
  · have hf' : (applyRequest ⟨s.fetch.2, builder⟩).finished = false := by
      rw [finished_applyRequest]
      exact (hfin.spine he).running
    have hbetween : Between s.fetch.2 := (h.between.nextToken s.builder.isForeign).takeErrors
    exact Or.inr ⟨⟨h.inStep.step h.finished (step_eq h.finished hp) hf',
      between_applyRequest hbetween, hf'⟩, h.remaining_lt hfin he⟩

theorem Reachable.running (h : Reachable s) (hf : s.finished = false) : Running s := by
  induction h with
  | start html options => exact running_start html options
  | @step s s' h hs ih =>
    obtain ⟨s₁, hs₁, hnext⟩ := (ih (finished_of_step hs)).step
    rw [hs] at hs₁
    cases hs₁
    refine (hnext.resolve_left fun htrue => ?_).1
    rw [hf] at htrue
    cases htrue

/-! ## 2. A whole run -/

/-- Steps follow each other until the session has ended. -/
inductive Runs : Session → Session → Prop where
  | last {s s' : Session} (hs : s.step = .ok s') (hf : s'.finished = true) : Runs s s'
  | more {s s₁ s' : Session} (hs : s.step = .ok s₁) (hf : s₁.finished = false) (h : Runs s₁ s') :
    Runs s s'

theorem Runs.reachable (r : Runs s s') (h : Reachable s) : Reachable s' := by
  induction r with
  | last hs _ => exact h.step hs
  | more hs _ _ ih => exact ih (h.step hs)

theorem Running.steps {fuel : Nat} (h : Running s) (hfuel : s.tokenizer.remaining < fuel) :
    ∃ s', Runs s s' ∧ steps fuel s = .ok s' ∧ s'.finished = true := by
  induction fuel generalizing s with
  | zero => omega
  | succ fuel ih =>
    obtain ⟨s₁, hs, hnext⟩ := h.step
    by_cases hf : s₁.finished = true
    · exact ⟨s₁, .last hs hf, by simp [Session.steps, hs, hf], hf⟩
    · obtain ⟨hrunning, hless⟩ := hnext.resolve_left hf
      obtain ⟨s', hruns, hsteps, hf'⟩ := ih hrunning (by omega)
      exact ⟨s', .more hs hrunning.finished hruns, by simp [Session.steps, hs, hf, hsteps], hf'⟩

/-- In whatever state the tokenizer begins and whatever it is told about the tree, each call steps
on until it delivers a token, and from some call on every call delivers the end of the input. A
session on any document, with any options, runs to its end. -/
theorem calls_and_run_end (html : String) (state : State) (last : Option String)
    (answers : Nat → Bool) (options : ParseOptions) :
    let t := ((ofString html).switchTo state).setLastStartTag last
    (∀ n, Pulls { t.after answers n with foreign := answers n } (t.delivery answers n)
      (t.after answers (n + 1))) ∧
    (∃ n, ∀ m, (t.delivery answers m).token = .endOfFile ↔ n ≤ m) ∧
    ∃ s, Runs (start html options) s ∧ (start html options).run = .ok s ∧ s.finished = true := by
  intro t
  have hbetween : Between t := ((between_ofString html).switchTo state).setLastStartTag last
  refine ⟨fun n => ?_, exists_first_endOfFile answers hbetween, ?_⟩
  · exact (hbetween.after answers n).pulls_nextToken (answers n)
  · have hlimit := remaining_le_tokenLimit (start html options).tokenizer
    exact (running_start html options).steps (Nat.lt_succ_of_le hlimit)

end Session

end Hypertext
