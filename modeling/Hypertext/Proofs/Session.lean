import Hypertext.Proofs.Tokenizer.Delivery
import Hypertext.Proofs.TreeBuilder.Reachable
import Hypertext.Session

/-!
# Tokenizer and tree builder stay in step

The two talk through one request for a state and through the name of the last start tag. While the
tree builder reads the text of an element, the tokenizer is bound to that element: all it can
deliver is characters, the end tag of the element, and the end of the input.
-/

namespace Hypertext.Session

open TreeBuilder Tokenizer

variable {s s' : Session}

/-! ## 1. One step -/

/-- The next token, and the tokenizer when its errors have been taken. -/
def fetch (s : Session) : PositionedToken × Tokenizer :=
  ((s.tokenizer.nextToken s.builder.isForeign).1,
    (s.tokenizer.nextToken s.builder.isForeign).2.takeErrors.2)

/-- The tree builder with the errors of the tokenizer. -/
def noted (s : Session) : TreeBuilder :=
  let errors := (s.tokenizer.nextToken s.builder.isForeign).2.takeErrors.1
  { s.builder with errors := s.builder.errors.append errors }

theorem step_eq (hf : s.finished = false) {builder : TreeBuilder}
    (hp : s.noted.process s.fetch.1 = .ok builder) :
    s.step = .ok (applyRequest ⟨s.fetch.2, builder⟩) := by
  unfold step
  rw [hf]
  unfold noted fetch at hp
  simp only [Bool.false_eq_true, if_false, hp]
  rfl

/-- What a host can bring about. -/
inductive Reachable : Session → Prop where
  | start (html : String) (options : ParseOptions) : Reachable (start html options)
  | step {s s' : Session} (h : Reachable s) (hs : s.step = .ok s') : Reachable s'

/-! ## 2. Being in step -/

/-- The tokenizer reads what the tree builder expects. -/
structure InStep (s : Session) : Prop where
  spine : Spine s.builder
  request : s.builder.stateRequest = none
  calm : Calm s.tokenizer
  text : s.builder.mode = .text → ∃ x outer name, s.builder.openElements = x :: outer ∧
    s.builder.tree.label? x = some (.html, name) ∧ Bound name s.tokenizer

theorem notBuilding_tokenizerFor (html : String) (options : ParseOptions) :
    NotBuilding (tokenizerFor html options) := by
  have h := notBuilding_ofString html
  unfold tokenizerFor
  cases options.initialState <;> cases options.lastStartTag <;>
    exact ⟨h.current, h.returnState, h.duplicate, h.fault⟩

theorem pending_tokenizerFor (html : String) (options : ParseOptions) :
    (tokenizerFor html options).pending = [] := by
  unfold tokenizerFor
  cases options.initialState <;> cases options.lastStartTag <;> rfl

theorem inStep_start (html : String) (options : ParseOptions) : InStep (start html options) := by
  exact ⟨spine_start _ _, rfl,
    (notBuilding_tokenizerFor html options).calm (pending_tokenizerFor _ _),
    fun hm => (by cases hm)⟩

theorem InStep.noted (h : InStep s) : Spine s.noted :=
  ⟨⟨h.spine.planted, h.spine.named, h.spine.form, h.spine.frameset, h.spine.running,
    h.spine.intact⟩, h.spine.standing⟩

theorem InStep.delivers (h : InStep s) : Delivers s.tokenizer s.fetch.1 s.fetch.2 := by
  have hd := delivers_nextToken h.calm s.builder.isForeign
  refine ⟨fun he => ?_, hd.start, fun name hb => ?_⟩
  · have hc := hd.calm he
    exact ⟨⟨hc.current, hc.returnState, hc.duplicate, hc.fault⟩, hc.queue⟩
  · refine (hd.bound name hb).imp_left ?_
    rintro ⟨c, hc, hb'⟩
    exact ⟨c, hc, hb'.last, hb'.queue, hb'.confined⟩

/-- In the text of an element only characters, its end tag and the end of the input come. -/
theorem InStep.text_token (h : InStep s) (hm : s.builder.mode = .text) :
    (∃ c, s.fetch.1.token = .character c) ∨
    (∃ tag e, s.fetch.1.token = .endTag tag ∧ s.builder.currentElement? = some e ∧
      tag.name = e.tagName) ∨ s.fetch.1.token = .endOfFile := by
  obtain ⟨x, outer, name, hopen, hl, hb⟩ := h.text hm
  obtain ⟨c, hc, -⟩ | ⟨tag, htag, hname⟩ | hend := h.delivers.bound name hb
  · exact Or.inl ⟨c, hc⟩
  · obtain ⟨e, he, -, hlabel⟩ := Tree.exists_element_of_label hl
    refine Or.inr (Or.inl ⟨tag, e, htag, ?_, ?_⟩)
    · rw [currentElement?, currentNode?, hopen]
      exact he
    · rw [hname]
      exact hlabel.symm
  · exact Or.inr (Or.inr hend)

/-- A state is asked for only by the start tag that has just been delivered. -/
theorem InStep.request_token (h : InStep s) {builder : TreeBuilder} {state : State}
    (hf : Finished s.noted s.fetch.1.token builder) (hr : builder.stateRequest = some state) :
    ∃ tag, s.fetch.1.token = .startTag tag ∧ Request builder tag := by
  refine hf.asks.resolve_left fun hq => ?_
  have hnone : builder.stateRequest = none := hq.request.trans h.request
  rw [hr] at hnone
  cases hnone

/-! ## 3. Staying in step -/

theorem applyRequest_none {t : Tokenizer} {builder : TreeBuilder}
    (hr : builder.stateRequest = none) :
    applyRequest ⟨t, builder⟩ = ⟨t, { builder with stateRequest := none }⟩ := by
  simp only [applyRequest, takeStateRequest, hr]

theorem applyRequest_some {t : Tokenizer} {builder : TreeBuilder} {state : State}
    (hr : builder.stateRequest = some state) :
    applyRequest ⟨t, builder⟩ = ⟨t.switchTo state, { builder with stateRequest := none }⟩ := by
  simp only [applyRequest, takeStateRequest, hr]

/-- Nothing was asked for: the tokenizer is bound to the same element as before, if to any. -/
theorem InStep.of_quiet (h : InStep s) {builder : TreeBuilder}
    (hp : s.noted.process s.fetch.1 = .ok builder) (he : s.fetch.1.token ≠ .endOfFile)
    (hspine : Spine builder) (hq : Quiet s.noted builder) :
    InStep (applyRequest ⟨s.fetch.2, builder⟩) := by
  rw [applyRequest_none (hq.request.trans h.request)]
  refine ⟨⟨⟨hspine.planted, hspine.named, hspine.form, hspine.frameset, hspine.running,
    hspine.intact⟩, hspine.standing⟩, rfl, h.delivers.calm he, fun hm => ?_⟩
  have hm : builder.mode = .text := hm
  obtain ⟨hm', hopen', hkeeps⟩ := hq.text hm
  obtain ⟨x, outer, name, hopen, hl, hb⟩ := h.text hm'
  obtain ⟨c, -, hb'⟩ | ⟨tag, htag, -⟩ | hend := h.delivers.bound name hb
  · exact ⟨x, outer, name, hopen'.trans hopen, hkeeps x _ hl, hb'⟩
  · exact absurd hm (h.noted.process_endTag hm' htag hp)
  · exact absurd hend he

/-- A start tag has asked for another state, and the tokenizer is bound to its element. -/
theorem InStep.of_request (h : InStep s) {builder : TreeBuilder} {tag : Tag}
    (htag : s.fetch.1.token = .startTag tag) (hspine : Spine builder) (hr : Request builder tag) :
    InStep (applyRequest ⟨s.fetch.2, builder⟩) := by
  obtain ⟨hstate, hpending, -, hlast⟩ := h.delivers.start tag htag
  have hcalm := h.delivers.calm (by rw [htag]; simp)
  have hnotBuilding : NotBuilding s.fetch.2 :=
    hcalm.notBuilding (by rw [zone_of_state hstate rfl]; rfl)
  have hspine' : Spine { builder with stateRequest := none } :=
    ⟨⟨hspine.planted, hspine.named, hspine.form, hspine.frameset, hspine.running, hspine.intact⟩,
      hspine.standing⟩
  cases hr with
  | text kind x outer mode request stack label name =>
    rw [applyRequest_some request]
    exact ⟨hspine', rfl, (hnotBuilding.switchTo _).calm hpending, fun _ =>
      ⟨x, outer, tag.name, stack, label, bound_switchTo hpending hlast kind⟩⟩
  | plaintext mode request name =>
    rw [applyRequest_some request]
    exact ⟨hspine', rfl, (hnotBuilding.switchTo _).calm hpending, fun hm => absurd hm mode⟩

theorem finished_applyRequest (s : Session) : (applyRequest s).finished = s.finished := by
  obtain ⟨t, builder⟩ := s
  cases hr : builder.stateRequest with
  | none =>
    rw [applyRequest_none hr]
    rfl
  | some state =>
    rw [applyRequest_some hr]
    rfl

theorem InStep.step (h : InStep s) (hf : s.finished = false) (hs : s.step = .ok s')
    (hf' : s'.finished = false) : InStep s' := by
  obtain ⟨builder, hp, hfin⟩ := h.noted.process s.fetch.1
  rw [step_eq hf hp] at hs
  cases hs
  rw [finished_applyRequest] at hf'
  have he : s.fetch.1.token ≠ .endOfFile := by
    intro he
    have hstopped : builder.stopped = true := (hfin.halted he).stopped
    rw [finished, hstopped] at hf'
    cases hf'
  obtain hq | ⟨tag, htag, hr⟩ := hfin.asks
  · exact h.of_quiet hp he (hfin.spine he) hq
  · exact h.of_request htag (hfin.spine he) hr

theorem finished_of_step (hs : s.step = .ok s') : s.finished = false := by
  cases hf : s.finished with
  | false => rfl
  | true =>
    rw [Session.step, if_pos hf] at hs
    cases hs

theorem Reachable.inStep (h : Reachable s) (hf : s.finished = false) : InStep s := by
  induction h with
  | start html options => exact inStep_start html options
  | step _ hs ih => exact (ih (finished_of_step hs)).step (finished_of_step hs) hs hf

theorem builder_applyRequest (s : Session) :
    (applyRequest s).builder = s.builder.takeStateRequest.2 := by
  obtain ⟨t, builder⟩ := s
  cases hr : builder.stateRequest with
  | none => rw [applyRequest_none hr]; rfl
  | some state => rw [applyRequest_some hr]; rfl

theorem Reachable.builder (h : Reachable s) : s.builder.Reachable := by
  induction h with
  | start html options => exact .start _ _
  | @step s s' _ hs ih =>
    have hf := finished_of_step hs
    have hnoted : s.noted.Reachable := ih.absorbErrors _
    obtain ⟨builder, hp, -⟩ := (hnoted.spine hf).process s.fetch.1
    rw [step_eq hf hp] at hs
    cases hs
    rw [builder_applyRequest]
    exact (hnoted.process s.fetch.1 hp).takeStateRequest

/-! ## 4. What is delivered and when a state is applied -/

/-- Every step succeeds. In the text of an element it delivers a character, the end tag of the
element or the end of the input, and no token that is handed on is read as text; and a state
that is asked for is applied to a tokenizer that has just delivered the start tag and is ready
for anything. -/
theorem step_of_reachable (h : Reachable s) (hf : s.finished = false) :
    (s.builder.mode = .text → (∃ c, s.fetch.1.token = .character c) ∨
      (∃ tag e, s.fetch.1.token = .endTag tag ∧ s.builder.currentElement? = some e ∧
        tag.name = e.tagName) ∨ s.fetch.1.token = .endOfFile) ∧
    (∀ o, Relation.ReflTransGen Outcome.After o
        ((s.noted.receive s.fetch.1).rules s.fetch.1.token) →
      o.handOn?.isSome → o.builder.mode ≠ .text) ∧
    ∃ builder, s.noted.process s.fetch.1 = .ok builder ∧
      s.step = .ok (applyRequest ⟨s.fetch.2, builder⟩) ∧
      ∀ state, builder.stateRequest = some state →
        s.fetch.2.state = .data ∧ s.fetch.2.pending = [] ∧ s.fetch.2.current = none ∧
        ∃ tag, s.fetch.1.token = .startTag tag ∧ s.fetch.2.lastStartTag = some tag.name := by
  have hin := h.inStep hf
  obtain ⟨builder, hp, hfin⟩ := hin.noted.process s.fetch.1
  refine ⟨hin.text_token, fun o hafter hon => ?_, builder, hp, step_eq hf hp, fun state hr => ?_⟩
  · exact Underway.mode_ne_text ⟨_, _, hin.noted.receive s.fetch.1, Or.inl rfl⟩ hafter hon
  · obtain ⟨tag, htag, -⟩ := hin.request_token hfin hr
    obtain ⟨hstate, hpending, hcurrent, hlast⟩ := hin.delivers.start tag htag
    exact ⟨hstate, hpending, hcurrent, tag, htag, hlast⟩

/-- The first step on `<title></title >` asks for raw text, and the second one delivers
its end tag. -/
theorem step_title : ∃ s, (start "<title></title >" {}).step = .ok s ∧ s.finished = false ∧
    s.builder.mode = .text ∧ s.fetch.1.token = .endTag { name := "title" } ∧
    ∃ e, s.builder.currentElement? = some e ∧ e.tagName = "title" := by
  obtain ⟨s, hstep, hf, hm, htoken⟩ := exists_ok (start "<title></title >" {}).step
    (fun s => s.finished = false ∧ s.builder.mode = .text ∧
      s.fetch.1.token = .endTag { name := "title" }) (by with_unfolding_all decide)
  obtain ⟨c, hc⟩ | ⟨tag, e, htag, he, hname⟩ | hend :=
    (step_of_reachable (.step (.start _ _) hstep) hf).1 hm
  · rw [htoken] at hc
    cases hc
  · rw [htoken] at htag
    cases htag
    exact ⟨s, hstep, hf, hm, htoken, e, he, hname.symm⟩
  · rw [htoken] at hend
    cases hend

end Hypertext.Session
