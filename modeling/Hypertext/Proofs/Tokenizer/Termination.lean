import Hypertext.Proofs.Tokenizer.Delivery
import Hypertext.Proofs.Tokenizer.Progress
import Mathlib.Data.Nat.Find
import Mathlib.Tactic.ByContra

/-!
# Every call delivers a token, and in the end the end

Stepping until a token waits comes to an end, so the bound on the number of steps is never met. Each
token that is delivered lowers a bound on what is left; so from some call on every call delivers the
end of the input.
-/

namespace Hypertext.Tokenizer

variable {t t' : Tokenizer} {p : PositionedToken}

/-! ## 1. Two measures -/

/-- A bound on the steps to the next token. -/
def work (t : Tokenizer) : Nat := 16 * t.input.ahead.length + rank t.input.ahead.head? t.state

/-- A bound on the tokens that are still to be delivered, with the end of the input. -/
def remaining (t : Tokenizer) : Nat :=
  t.pending.length +
    if t.ended then 0 else t.input.ahead.length + debt t.returnState t.buffer t.state + 1

theorem rank_le (next : Option Char) (s : State) : rank next s ≤ 4 := by
  cases s <;> simp only [rank] <;> first | omega | (split <;> omega)

theorem work_step (h : FitsZone t) (hp : t.pending = []) (he : t.ended = false) :
    t.step.ended = true ∨ t.step.pending ≠ [] ∨ t.step.work < t.work := by
  obtain hend | hqueued | hread | ⟨hahead, hrank⟩ := (moves_step h.returnState hp he).works
  · exact Or.inl hend
  · exact Or.inr (Or.inl fun hnil => hqueued (List.length_eq_zero_iff.2 hnil))
  · have hread : t.step.input.ahead.length < t.input.ahead.length := hread
    have hle := rank_le t.step.input.ahead.head? t.step.state
    refine Or.inr (Or.inr ?_)
    unfold work
    omega
  · have hahead : t.step.input.ahead = t.input.ahead := hahead
    refine Or.inr (Or.inr ?_)
    unfold work
    rw [hahead]
    exact Nat.add_lt_add_left hrank _

theorem remaining_step (h : FitsZone t) (hp : t.pending = []) (he : t.ended = false) :
    t.step.remaining ≤ t.remaining := by
  have hyields := (moves_step h.returnState hp he).yields
  unfold remaining
  rw [hp, he, List.length_nil, Nat.zero_add]
  exact hyields

/-! ## 2. Between two tokens and in the middle of one -/

/-- Nothing is under construction, and the end of the input waits only as the last token. -/
structure Between (t : Tokenizer) : Prop where
  notBuilding : t.ended = false → NotBuilding t
  fault : t.fault = none
  queue : t.ended = false → ∀ p ∈ t.pending, p.token ≠ .endOfFile
  close : t.ended = true → t.pending = [] ∨
    ∃ waiting position, t.pending = waiting ++ [⟨.endOfFile, position⟩] ∧
      ∀ p ∈ waiting, p.token ≠ .endOfFile

/-- No token waits and the input has not ended. -/
structure Midway (t : Tokenizer) : Prop where
  fitsZone : FitsZone t
  pending : t.pending = []
  ended : t.ended = false

theorem Between.midway (h : Between t) (hp : t.pending = []) (he : t.ended = false) : Midway t :=
  ⟨(h.notBuilding he).fitsZone, hp, he⟩

theorem NotBuilding.between (h : NotBuilding t) (hp : t.pending = []) (he : t.ended = false) :
    Between t := by
  refine ⟨fun _ => h, h.fault, fun _ p hmem => ?_, fun he' => ?_⟩
  · rw [hp] at hmem
    cases hmem
  · rw [he] at he'
    cases he'

theorem Midway.step (h : Midway t) : Between t.step ∨ Midway t.step := by
  cases stepped_step h.fitsZone h.pending with
  | reads z hr =>
    have hended : t.step.ended = false := hr.ended.trans h.ended
    by_cases hp : t.step.pending = []
    · exact Or.inr ⟨hr.toFitsZone, hp, hended⟩
    · have hnotBuilding : NotBuilding t.step :=
        hr.toFitsZone.notBuilding (by rw [hr.zone]; exact hr.quiet hp)
      refine Or.inl ⟨fun _ => hnotBuilding, hr.fault,
        fun _ p hmem => ne_endOfFile_of_char (hr.chars p hmem), fun he => ?_⟩
      rw [hended] at he
      cases he
  | ends fitsZone ended last untagged pending confined =>
    refine Or.inl ⟨fun he => ?_, fitsZone.fault, fun he => ?_, fun _ => Or.inr pending⟩
    all_goals
      rw [ended] at he
      cases he
  | finishes p fitsZone state current pending ended token start confined =>
    have hended : t.step.ended = false := ended.trans h.ended
    have hnotBuilding : NotBuilding t.step :=
      fitsZone.notBuilding (by rw [zone_of_state state rfl]; rfl)
    refine Or.inl ⟨fun _ => hnotBuilding, fitsZone.fault, fun _ q hmem => ?_, fun he => ?_⟩
    · rw [pending, List.mem_singleton] at hmem
      rw [hmem]
      exact token
    · rw [hended] at he
      cases he

/-! ## 3. Delivering without a bound on the steps -/

/-- Stepping until a token waits: `p` is delivered and `t'` is left. -/
inductive Pulls : Tokenizer → PositionedToken → Tokenizer → Prop where
  | queued {t : Tokenizer} {p : PositionedToken} {rest : List PositionedToken}
    (hp : t.pending = p :: rest) : Pulls t p { t with pending := rest }
  | ended {t : Tokenizer} (hp : t.pending = []) (he : t.ended = true) : Pulls t t.endToken t
  | step {t t' : Tokenizer} {p : PositionedToken} (hp : t.pending = []) (he : t.ended = false)
    (h : Pulls t.step p t') : Pulls t p t'

/-- With nothing in the queue and before the end of the input a call takes a step. -/
theorem Pulls.of_step (h : Pulls t p t') (hp : t.pending = []) (he : t.ended = false) :
    Pulls t.step p t' := by
  cases h with
  | queued hp' =>
    rw [hp'] at hp
    cases hp
  | ended _ he' =>
    rw [he'] at he
    cases he
  | step _ _ h => exact h

/-- What a call brings is decided. -/
theorem Pulls.unique {q : PositionedToken} {t₁ t₂ : Tokenizer} (h : Pulls t p t₁)
    (h' : Pulls t q t₂) : p = q ∧ t₁ = t₂ := by
  -- the queue and the end flag decide which of the three ways a call goes
  induction h with
  | queued hp =>
    cases h' with
    | queued hp' =>
      obtain ⟨rfl, rfl⟩ := List.cons.inj (hp.symm.trans hp')
      exact ⟨rfl, rfl⟩
    | ended hp' _ | step hp' _ _ =>
      rw [hp'] at hp
      cases hp
  | ended hp he =>
    cases h' with
    | queued hp' =>
      rw [hp] at hp'
      cases hp'
    | ended _ _ => exact ⟨rfl, rfl⟩
    | step _ he' _ =>
      rw [he] at he'
      cases he'
  | step hp he _ ih => exact ih (h'.of_step hp he)

theorem pulls_pull_of_waiting {fuel : Nat} (h : t.ended = true ∨ t.pending ≠ []) :
    Pulls t (pull (fuel + 1) t).1 (pull (fuel + 1) t).2 := by
  unfold pull
  cases hp : t.pending with
  | cons p rest => exact .queued hp
  | nil =>
    have he : t.ended = true := h.resolve_right fun hne => hne hp
    simp only [he, if_true]
    exact .ended hp he

theorem pulls_pull {fuel : Nat} (h : Between t ∨ Midway t) (hfuel : t.work + 1 < fuel) :
    Pulls t (pull fuel t).1 (pull fuel t).2 := by
  induction fuel generalizing t with
  | zero => omega
  | succ fuel ih =>
    by_cases hwait : t.ended = true ∨ t.pending ≠ []
    · exact pulls_pull_of_waiting hwait
    · have hp : t.pending = [] := Classical.not_not.1 fun hne => hwait (Or.inr hne)
      have he : t.ended = false := Bool.eq_false_iff.2 fun htrue => hwait (Or.inl htrue)
      have hmid : Midway t := h.elim (fun hb => hb.midway hp he) id
      have hpull : pull (fuel + 1) t = pull fuel t.step := by
        rw [pull, hp, he]
        rfl
      rw [hpull]
      refine .step hp he ?_
      obtain hend | hqueued | hwork := work_step hmid.fitsZone hp he
      · obtain ⟨fuel, rfl⟩ := Nat.exists_eq_succ_of_ne_zero (n := fuel) (by omega)
        exact pulls_pull_of_waiting (Or.inl hend)
      · obtain ⟨fuel, rfl⟩ := Nat.exists_eq_succ_of_ne_zero (n := fuel) (by omega)
        exact pulls_pull_of_waiting (Or.inr hqueued)
      · exact ih hmid.step (by omega)

/-- What waits is delivered: the end of the input with nothing left behind it, any other token with
less to come. -/
theorem Between.pop (h : Between t) {rest : List PositionedToken} (hp : t.pending = p :: rest) :
    Between { t with pending := rest } ∧
      (p.token = .endOfFile ∧ t.ended = true ∧ rest = [] ∨
        p.token ≠ .endOfFile ∧
        ({ t with pending := rest } : Tokenizer).remaining < t.remaining) := by
  have hless : ({ t with pending := rest } : Tokenizer).remaining < t.remaining := by
    unfold remaining
    rw [hp, List.length_cons]
    exact Nat.add_lt_add_right (Nat.lt_succ_self rest.length) _
  have hnotBuilding : t.ended = false → NotBuilding { t with pending := rest } := fun he =>
    ⟨(h.notBuilding he).current, (h.notBuilding he).returnState, (h.notBuilding he).duplicate,
      h.fault⟩
  have hqueue : t.ended = false → ∀ q ∈ rest, q.token ≠ .endOfFile := fun he q hq =>
    h.queue he q (hp ▸ List.mem_cons_of_mem p hq)
  by_cases he : t.ended = true
  · obtain hnil | ⟨waiting, position, hpending, hwaiting⟩ := h.close he
    · rw [hp] at hnil
      cases hnil
    · rw [hp] at hpending
      cases waiting with
      | nil =>
        obtain ⟨rfl, rfl⟩ := List.cons.inj hpending
        exact ⟨⟨hnotBuilding, h.fault, hqueue, fun _ => Or.inl rfl⟩, Or.inl ⟨rfl, he, rfl⟩⟩
      | cons q waiting =>
        obtain ⟨rfl, rfl⟩ := List.cons.inj hpending
        exact ⟨⟨hnotBuilding, h.fault, hqueue, fun _ => Or.inr ⟨waiting, position, rfl, fun r hr =>
          hwaiting r (List.mem_cons_of_mem p hr)⟩⟩, Or.inr ⟨hwaiting p List.mem_cons_self, hless⟩⟩
  · have hne := h.queue (Bool.eq_false_iff.2 he) p (hp ▸ List.mem_cons_self)
    exact ⟨⟨hnotBuilding, h.fault, hqueue, fun he' => absurd he' he⟩, Or.inr ⟨hne, hless⟩⟩

theorem Pulls.delivered (h : Pulls t p t') (ht : Between t ∨ Midway t) :
    Between t' ∧ (p.token = .endOfFile ∧ t'.ended = true ∧ t'.pending = [] ∨
      p.token ≠ .endOfFile ∧ t'.remaining < t.remaining) := by
  induction h with
  | queued hp =>
    obtain hb | hm := ht
    · exact hb.pop hp
    · rw [hm.pending] at hp
      cases hp
  | ended hp he =>
    obtain hb | hm := ht
    · exact ⟨hb, Or.inl ⟨rfl, he, hp⟩⟩
    · rw [hm.ended] at he
      cases he
  | step hp he _ ih =>
    have hmid := ht.elim (fun hb => hb.midway hp he) id
    obtain ⟨hb, hp⟩ := ih hmid.step
    refine ⟨hb, hp.imp_right fun ⟨hne, hless⟩ => ⟨hne, ?_⟩⟩
    exact Nat.lt_of_lt_of_le hless (remaining_step hmid.fitsZone hmid.pending hmid.ended)

/-! ## 4. One call -/

theorem Between.setForeign (h : Between t) (foreign : Bool) : Between { t with foreign } :=
  ⟨fun he => ⟨(h.notBuilding he).current, (h.notBuilding he).returnState,
    (h.notBuilding he).duplicate, h.fault⟩, h.fault, h.queue, h.close⟩

/-- The bound on the steps of a call is above what the call needs. -/
theorem Between.pulls_nextToken (h : Between t) (foreign : Bool) :
    Pulls { t with foreign } (t.nextToken foreign).1 (t.nextToken foreign).2 := by
  refine pulls_pull (Or.inl (h.setForeign foreign)) ?_
  have hrank := rank_le t.input.ahead.head? t.state
  show 16 * t.input.ahead.length + rank t.input.ahead.head? t.state + 1 < t.stepLimit
  unfold stepLimit
  omega

theorem Between.nextToken (h : Between t) (foreign : Bool) : Between (t.nextToken foreign).2 :=
  ((h.pulls_nextToken foreign).delivered (Or.inl (h.setForeign foreign))).1

theorem Between.delivered (h : Between t) (foreign : Bool) :
    (t.nextToken foreign).1.token = .endOfFile ∧ (t.nextToken foreign).2.ended = true ∧
        (t.nextToken foreign).2.pending = [] ∨
      (t.nextToken foreign).1.token ≠ .endOfFile ∧
        (t.nextToken foreign).2.remaining < t.remaining :=
  ((h.pulls_nextToken foreign).delivered (Or.inl (h.setForeign foreign))).2

/-- After the end of the input nothing else comes. -/
theorem nextToken_of_ended (he : t.ended = true) (hp : t.pending = []) (foreign : Bool) :
    (t.nextToken foreign).1.token = .endOfFile := by
  have hlimit : t.stepLimit = 16 * t.input.ahead.length + 31 + 1 := by
    unfold stepLimit
    omega
  rw [Tokenizer.nextToken, hlimit, pull]
  simp [hp, he, endToken]

theorem Between.switchTo (h : Between t) (s : State) : Between (t.switchTo s) :=
  ⟨fun he => (h.notBuilding he).switchTo s, h.fault, h.queue, h.close⟩

theorem Between.takeErrors (h : Between t) : Between t.takeErrors.2 :=
  ⟨fun he => ⟨(h.notBuilding he).current, (h.notBuilding he).returnState,
    (h.notBuilding he).duplicate, h.fault⟩, h.fault, h.queue, h.close⟩

theorem Between.setLastStartTag (h : Between t) (name : Option String) :
    Between (t.setLastStartTag name) :=
  ⟨fun he => ⟨(h.notBuilding he).current, (h.notBuilding he).returnState,
    (h.notBuilding he).duplicate, h.fault⟩, h.fault, h.queue, h.close⟩

theorem between_ofString (text : String) : Between (ofString text) :=
  (notBuilding_ofString text).between rfl rfl

/-! ## 5. Call after call -/

/-- The tokenizer after `n` calls, each told whether the tree is being built in foreign content. -/
def after (answers : Nat → Bool) (t : Tokenizer) : Nat → Tokenizer
  | 0 => t
  | n + 1 => ((t.after answers n).nextToken (answers n)).2

/-- What the call after the first `n` delivers. -/
def delivery (answers : Nat → Bool) (t : Tokenizer) (n : Nat) : PositionedToken :=
  ((t.after answers n).nextToken (answers n)).1

variable (answers : Nat → Bool)

theorem Between.after (h : Between t) (n : Nat) : Between (t.after answers n) := by
  induction n with
  | zero => exact h
  | succ n ih => exact ih.nextToken (answers n)

theorem remaining_after (h : Between t) {n : Nat}
    (hne : ∀ m < n, (t.delivery answers m).token ≠ .endOfFile) :
    (t.after answers n).remaining + n ≤ t.remaining := by
  induction n with
  | zero => exact Nat.le_refl _
  | succ n ih =>
    have hbound := ih fun m hm => hne m (Nat.lt_succ_of_lt hm)
    obtain ⟨hend, -⟩ | ⟨-, hless⟩ := (h.after answers n).delivered (answers n)
    · exact absurd hend (hne n (Nat.lt_succ_self n))
    · have hless : (t.after answers (n + 1)).remaining < (t.after answers n).remaining := hless
      omega

theorem exists_delivery_endOfFile (h : Between t) :
    ∃ n, (t.delivery answers n).token = .endOfFile := by
  by_contra hnone
  have hbound := remaining_after answers h (n := t.remaining + 1)
    fun m _ hm => hnone ⟨m, hm⟩
  omega

/-- The end of the input is delivered from some call on, and not before. -/
theorem exists_first_endOfFile (h : Between t) :
    ∃ n, ∀ m, (t.delivery answers m).token = .endOfFile ↔ n ≤ m := by
  have hexists := exists_delivery_endOfFile answers h
  refine ⟨Nat.find hexists, fun m => ⟨fun hm => Nat.find_min' hexists hm, fun hm => ?_⟩⟩
  -- once delivered, the end leaves nothing but itself for the calls to come
  induction m, hm using Nat.le_induction with
  | base => exact Nat.find_spec hexists
  | succ m _ ih =>
    obtain ⟨-, he, hp⟩ | ⟨hne, -⟩ := (h.after answers m).delivered (answers m)
    · exact nextToken_of_ended he hp _
    · exact absurd ih hne

end Hypertext.Tokenizer
