import Hypertext.Proofs.Tokenizer.States

/-!
# Which token is delivered

A token is delivered by stepping until one waits in the queue. A start tag that is delivered has
left the tokenizer in the data state with nothing else at hand; and in the raw text of an element
nothing but characters, its end tag and the end of the input is delivered.
-/

namespace Hypertext.Tokenizer

variable {t t' : Tokenizer} {name : String}

/-! ## 1. Between two tokens -/

/-- Between two tokens no start tag is left waiting. -/
structure Calm (t : Tokenizer) : Prop extends FitsZone t where
  queue : ∀ p ∈ t.pending, ∀ tag, p.token ≠ .startTag tag

/-- What is being read is the raw text of an element of this name. -/
structure Bound (name : String) (t : Tokenizer) : Prop where
  last : t.lastStartTag = some name
  queue : ∀ p ∈ t.pending, (∃ c, p.token = .character c) ∨ p.token = .endOfFile
  confined : t.ended = true ∨ Confined name t

/-- `p` is delivered and `t'` is left. -/
structure Delivers (t : Tokenizer) (p : PositionedToken) (t' : Tokenizer) : Prop where
  calm : p.token ≠ .endOfFile → Calm t'
  start : ∀ tag, p.token = .startTag tag →
    t'.state = .data ∧ t'.pending = [] ∧ t'.current = none ∧ t'.lastStartTag = some tag.name
  bound : ∀ name, Bound name t → (∃ c, p.token = .character c ∧ Bound name t') ∨
    (∃ tag, p.token = .endTag tag ∧ tag.name = name) ∨ p.token = .endOfFile

theorem delivers_end {p : PositionedToken} (hp : p.token = .endOfFile) : Delivers t p t' := by
  refine ⟨fun h => absurd hp h, fun tag htag => ?_, fun _ _ => Or.inr (Or.inr hp)⟩
  rw [hp] at htag
  cases htag

theorem Calm.of_untagged (h : FitsZone t) (hq : ∀ p ∈ t.pending, p.token.tagName? = none) :
    Calm t := by
  refine ⟨h, fun p hp tag htag => ?_⟩
  have hnone := hq p hp
  rw [htag] at hnone
  cases hnone

/-! ## 2. Taking tokens from the queue -/

/-- What waits is delivered first. -/
theorem delivers_pop (h : Calm t) {p : PositionedToken} {rest : List PositionedToken}
    (hp : t.pending = p :: rest) : Delivers t p { t with pending := rest } := by
  have hmem : ∀ q ∈ rest, q ∈ t.pending := fun q hq => hp ▸ List.mem_cons_of_mem p hq
  have hhead : p ∈ t.pending := hp ▸ List.mem_cons_self
  refine ⟨fun _ => ⟨⟨h.current, h.returnState, h.duplicate, h.fault⟩,
    fun q hq => h.queue q (hmem q hq)⟩,
    fun tag htag => absurd htag (h.queue p hhead tag), fun name hb => ?_⟩
  obtain ⟨c, hc⟩ | hend := hb.queue p hhead
  · exact Or.inl ⟨c, hc, hb.last, fun q hq => hb.queue q (hmem q hq), hb.confined⟩
  · exact Or.inr (Or.inr hend)

/-- A token that has just been finished is delivered at once. -/
theorem delivers_finished {p : PositionedToken} (ht : t.ended = false) (fitsZone : FitsZone t')
    (state : t'.state = .data) (current : t'.current = none)
    (start : ∀ tag, p.token = .startTag tag → t'.lastStartTag = some tag.name)
    (confined : ∀ name, t.lastStartTag = some name → Confined name t →
      ∃ tag, p.token = .endTag tag ∧ tag.name = name) :
    Delivers t p { t' with pending := [] } := by
  refine ⟨fun _ =>
    ⟨⟨fitsZone.current, fitsZone.returnState, fitsZone.duplicate, fitsZone.fault⟩, by simp⟩,
    fun tag htag => ⟨state, rfl, current, start tag htag⟩, fun name hb => Or.inr (Or.inl ?_)⟩
  refine confined name hb.last (hb.confined.resolve_left fun hended => ?_)
  rw [ht] at hended
  cases hended

/-- Steps that finish no token may come first. -/
theorem Delivers.of_step {p : PositionedToken} {t'' : Tokenizer} (h : Delivers t' p t'')
    (hb : ∀ name, Bound name t → Bound name t') : Delivers t p t'' :=
  ⟨h.calm, h.start, fun name hname => h.bound name (hb name hname)⟩

/-- One step of a tokenizer that has nothing to hand out finishes a token, or leaves it as
bound as it was. -/
theorem Calm.step_cases (h : Calm t) (hp : t.pending = []) (hended : t.ended = false) :
    Calm t.step ∧ (∀ name, Bound name t → Bound name t.step) ∨
      ∃ p, t.step.pending = [p] ∧ Delivers t p { t.step with pending := [] } := by
  have hconfined : ∀ {name}, Bound name t → Confined name t := fun hb =>
    hb.confined.resolve_left fun hend => by
    rw [hended] at hend
    cases hend
  cases stepped_step h.toFitsZone hp with
  | reads z hr =>
    refine Or.inl ⟨.of_untagged hr.toFitsZone fun p hp => tagName?_of_char (hr.chars p hp),
      fun name hb => ?_⟩
    exact ⟨hr.last.trans hb.last, fun p hp => Or.inl (hr.chars p hp),
      Or.inr (hr.confined name hb.last (hconfined hb))⟩
  | ends fitsZone ended last untagged _ confined =>
    refine Or.inl ⟨.of_untagged fitsZone untagged, fun name hb => ?_⟩
    exact ⟨last.trans hb.last, confined name hb.last (hconfined hb), Or.inl ended⟩
  | finishes p fitsZone state current pending _ _ start confined =>
    exact Or.inr ⟨p, pending, delivers_finished hended fitsZone state current start confined⟩

theorem delivers_pull (fuel : Nat) (h : Calm t) : Delivers t (pull fuel t).1 (pull fuel t).2 := by
  induction fuel generalizing t with
  | zero => exact delivers_end rfl
  | succ fuel ih =>
    unfold pull
    cases hp : t.pending with
    | cons p rest => exact delivers_pop h hp
    | nil =>
      dsimp only
      split
      · exact delivers_end rfl
      · next hended =>
        obtain ⟨hcalm, hb⟩ | ⟨p, hpending, hd⟩ := h.step_cases hp (Bool.eq_false_iff.2 hended)
        · exact (ih hcalm).of_step hb
        · -- the queue holds the finished token only, so the next round hands it out
          cases fuel with
          | zero => exact delivers_end rfl
          | succ fuel =>
            unfold pull
            rw [hpending]
            exact hd

theorem delivers_nextToken (h : Calm t) (foreign : Bool) :
    Delivers t (t.nextToken foreign).1 (t.nextToken foreign).2 := by
  have hcalm : Calm { t with foreign } :=
    ⟨⟨h.current, h.returnState, h.duplicate, h.fault⟩, h.queue⟩
  exact (delivers_pull t.stepLimit hcalm).of_step fun name hb => ⟨hb.last, hb.queue, hb.confined⟩

/-! ## 3. Going on in another state -/

/-- Nothing is under construction. -/
structure NotBuilding (t : Tokenizer) : Prop where
  current : t.current = none
  returnState : ∀ s, t.returnState = some s → s.isHost = true
  duplicate : t.duplicate = false
  fault : t.fault = none

theorem FitsZone.notBuilding (h : FitsZone t) (hz : t.zone.isText = true) : NotBuilding t := by
  refine ⟨?_, h.returnState, ?_, h.fault⟩
  · cases hc : t.current with
    | none => rfl
    | some token =>
      have ha := h.current token hc
      cases hzone : t.zone <;> rw [hzone] at ha hz <;> cases hz <;> cases token <;> cases ha
  · cases hd : t.duplicate with
    | false => rfl
    | true =>
      rw [h.duplicate hd] at hz
      cases hz

/-- What has nothing under construction can go on in any state. -/
theorem NotBuilding.fitsZone (h : NotBuilding t) : FitsZone t := by
  refine ⟨fun token ht => ?_, h.returnState, fun hd => ?_, h.fault⟩
  · rw [h.current] at ht
    cases ht
  · rw [h.duplicate] at hd
    cases hd

theorem NotBuilding.switchTo (h : NotBuilding t) (s : State) : NotBuilding (t.switchTo s) :=
  ⟨h.current, h.returnState, h.duplicate, h.fault⟩

theorem NotBuilding.calm (h : NotBuilding t) (hp : t.pending = []) : Calm t := by
  refine ⟨h.fitsZone, fun p hmem => ?_⟩
  rw [hp] at hmem
  cases hmem

theorem notBuilding_ofString (text : String) : NotBuilding (ofString text) :=
  ⟨rfl, fun _ hs => (by cases hs), rfl, rfl⟩

theorem bound_switchTo (hp : t.pending = []) (hl : t.lastStartTag = some name) (kind : RawText) :
    Bound name (t.switchTo (.text kind)) := by
  refine ⟨hl, fun p hmem => ?_, Or.inr (confined_rawText rfl)⟩
  have hmem : p ∈ t.pending := hmem
  rw [hp] at hmem
  cases hmem

end Hypertext.Tokenizer
