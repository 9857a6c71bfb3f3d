import Hypertext.Proofs.TreeBuilder.Rules.After
import Hypertext.Proofs.TreeBuilder.Rules.Foreign
import Hypertext.Proofs.TreeBuilder.Rules.Select
import Hypertext.Proofs.TreeBuilder.Rules.Table
import Hypertext.TreeBuilder

/-!
# Processing a token to the end

Each rule of each mode is lawful, so a token is handed on only finitely often: its rank falls each
time. What is true of one rule is then true of everything that a token sets off.
-/

namespace Hypertext.TreeBuilder

open Hypertext.Tree

variable {b b' : TreeBuilder} {token : Token} {o o' : Outcome}

/-! ## 1. The rules for a token -/

/-- In the body no token is out of place. -/
theorem proper_inBody {mode : InsertionMode} (hm : mode = .inBody) (token : Token) :
    Proper mode token := by
  subst hm
  cases token with
  | startTag tag => exact fun _ => by decide
  | endTag tag => exact Or.inl rfl
  | _ => trivial

theorem lawful_modeRules (h : Spine b) : Lawful b token (b.modeRules token) := by
  cases hm : b.mode
  all_goals simp only [modeRules, hm]
  case initial => exact lawful_initial h hm
  case beforeHtml => exact lawful_beforeHtml h hm
  case beforeHead => exact lawful_beforeHead h hm
  case inHead => exact lawful_inHead h hm
  case inHeadNoscript => exact lawful_inHeadNoscript h hm
  case afterHead => exact lawful_afterHead h hm
  case inBody => exact lawful_inBody h (by rw [hm]; decide) (proper_inBody hm token)
  case text => exact lawful_rawText h hm
  case inTable => exact lawful_inTable h hm
  case inTableText => exact lawful_inTableText h hm
  case inCaption => exact lawful_inCaption h hm
  case inColumnGroup => exact lawful_inColumnGroup h hm
  case inTableBody => exact lawful_inTableBody h hm
  case inRow => exact lawful_inRow h hm
  case inCell => exact lawful_inCell h hm
  case inSelect => exact lawful_inSelect h (Or.inl hm)
  case inSelectInTable => exact lawful_inSelectInTable h hm
  case inTemplate => exact lawful_inTemplate h hm
  case afterBody => exact lawful_afterBody h hm
  case inFrameset => exact lawful_inFrameset h hm
  case afterFrameset => exact lawful_afterFrameset h hm
  case afterAfterBody => exact lawful_afterAfterBody h hm
  case afterAfterFrameset => exact lawful_afterAfterFrameset h hm

/-- A token is dealt with lawfully, unless foreign content leaves it to the mode. -/
theorem rules_cases (h : Spine b) (token : Token) : Lawful b token (b.rules token) ∨
    ∃ b', Plain b b' ∧ Spine b' ∧ b.mode ≠ .text ∧ b.rules token = b'.byMode token := by
  unfold rules
  split
  · exact Or.inl (lawful_modeRules h)
  · next huses =>
    obtain ⟨x, outer, e, hopen, he, hns⟩ := exists_foreign (Bool.eq_false_iff.2 huses)
    have hm := h.mode_of_foreign hopen he hns
    have htext : b.mode ≠ .text := by
      rintro htext
      simp [htext] at hm
    have hbegun := h.begun_of_foreign hopen he hns
    obtain ⟨b', p, heq | ⟨ht, heq⟩⟩ := foreignContent_cases h.toSound hbegun hopen he hns token
    · exact Or.inr ⟨b', p, h.plain p hm, htext, heq⟩
    · rw [heq]
      exact Or.inl (lawful_plain h p hm ht)

/-! ## 2. Handing on -/

/-- What follows an outcome that is not done with its token. -/
def Outcome.handOn? (o : Outcome) : Option Outcome :=
  match o.next with
  | .done => none
  | .reprocess token => some (o.builder.rules token)
  | .byMode token => some (o.builder.modeRules token)

/-- `o'` comes directly after `o`. -/
def Outcome.After (o' o : Outcome) : Prop := o.handOn? = some o'

/-- Handing on comes to an end, and leaves this builder. -/
inductive Settles : Outcome → TreeBuilder → Prop where
  | done {o : Outcome} (h : o.handOn? = none) : Settles o o.builder
  | handOn {o o' : Outcome} {b : TreeBuilder} (h : o.handOn? = some o') (hs : Settles o' b) :
    Settles o b

theorem Settles.acc (h : Settles o b) : Acc Outcome.After o := by
  induction h with
  | done h =>
    refine Acc.intro _ fun o' ho' => ?_
    rw [Outcome.After, h] at ho'
    cases ho'
  | handOn h _ ih =>
    refine Acc.intro _ fun o₁ ho₁ => ?_
    rw [Outcome.After, h] at ho₁
    cases ho₁
    exact ih

theorem settle_succ (fuel : Nat) (o : Outcome) :
    settle (fuel + 1) o = match o.handOn? with
      | none => o.builder
      | some o' => settle fuel o' := by
  rw [settle, Outcome.handOn?]
  cases o.next <;> rfl

/-- What a token has brought about when it is done with. -/
structure Finished (b : TreeBuilder) (token : Token) (b' : TreeBuilder) : Prop where
  spine : token ≠ .endOfFile → Spine b'
  halted : token = .endOfFile → Halted b'
  asks : Quiet b b' ∨ ∃ tag, token = .startTag tag ∧ Request b' tag

theorem Request.name_ne {tag : Tag} (h : Request b tag) : tag.name ≠ "img" := by
  cases h with
  | text _ _ _ _ _ _ _ name => exact name
  | plaintext _ _ name => rw [name]; decide

/-- The image tag that was meant asks the tokenizer for nothing. -/
theorem Request.of_follows {token' : Token} {tag : Tag} (h : Request b tag)
    (hf : Follows token token') (ht : token' = .startTag tag) : token = .startTag tag := by
  obtain rfl | ⟨tag', -, -, rfl⟩ := hf
  · exact ht
  · cases ht
    exact absurd rfl h.name_ne

theorem Follows.endOfFile {token' : Token} (hf : Follows token token') :
    token = .endOfFile ↔ token' = .endOfFile := by
  obtain rfl | ⟨tag, rfl, -, rfl⟩ := hf
  · exact Iff.rfl
  · simp

/-- A token that is handed on quietly does what it does there. -/
theorem Finished.of_follows {b₁ : TreeBuilder} {token' : Token} (h : Finished b₁ token' b')
    (hf : Follows token token') (hq : Quiet b b₁) : Finished b token b' := by
  refine ⟨fun ht => h.spine (mt hf.endOfFile.2 ht), fun ht => h.halted (hf.endOfFile.1 ht), ?_⟩
  obtain hquiet | ⟨tag, ht, hr⟩ := h.asks
  · exact Or.inl (hq.trans hquiet)
  · exact Or.inr ⟨tag, hr.of_follows hf ht, hr⟩

/-- Raw text is never in a foreign element, so the rules are those of the mode. -/
theorem Spine.rules_text (h : Spine b) (hm : b.mode = .text) : b.rules token = b.rawText token := by
  unfold rules
  split
  · simp only [modeRules, hm]
  · next huses =>
    obtain ⟨x, outer, e, hopen, he, hns⟩ := exists_foreign (Bool.eq_false_iff.2 huses)
    have hforeign := h.mode_of_foreign hopen he hns
    simp [hm] at hforeign

/-- A round that a token can come to. -/
def Underway (o : Outcome) : Prop :=
  ∃ b token, Spine b ∧ (o = b.rules token ∨ o = b.modeRules token)

/-- What raw text hands on is handed on to another mode. -/
theorem mode_of_rawText (h : Spine b) (hm : b.mode = .text) {token' : Token}
    (hnext : (b.rawText token).next = .reprocess token') :
    (b.rawText token).builder.mode ≠ .text := by
  cases token with
  | endOfFile =>
    have p := plain_report h.toSound .eofWithOpenElements
    exact (spine_resume (h.still p rfl) hm).2
  | _ => cases hnext

/-- An outcome that hands a token on leaves the builder in order, and the rules go on
with the token. -/
theorem Lawful.exists_reprocess (h : Lawful b token o) (hon : o.handOn? = some o') : ∃ token',
    o.next = .reprocess token' ∧ o' = o.builder.rules token' ∧ Spine o.builder ∧
    Follows token token' := by
  have hnext := h.next
  cases hc : o.next with
  | done =>
    rw [Outcome.handOn?, hc] at hon
    cases hon
  | reprocess token' =>
    rw [hc] at hnext
    rw [Outcome.handOn?, hc] at hon
    cases hon
    exact ⟨token', rfl, rfl, hnext.1, hnext.2.1⟩
  | byMode token' =>
    rw [hc] at hnext
    exact hnext.elim

theorem Lawful.underway (h : Lawful b token o) (hs : Spine b)
    (htext : b.mode = .text → o = b.rawText token) (hon : o.handOn? = some o') :
    Underway o' ∧ o.builder.mode ≠ .text := by
  obtain ⟨token', hc, rfl, hspine, -⟩ := h.exists_reprocess hon
  refine ⟨⟨o.builder, token', hspine, Or.inl rfl⟩, ?_⟩
  by_cases hm : b.mode = .text
  · rw [htext hm] at hc ⊢
    exact mode_of_rawText hs hm hc
  · obtain hq | ⟨tag, -, hdone, -⟩ := h.asks
    · exact fun hm' => hm (hq.text hm').1
    · rw [hc] at hdone
      cases hdone

theorem Underway.handOn (h : Underway o) (hon : o.handOn? = some o') :
    Underway o' ∧ o.builder.mode ≠ .text := by
  obtain ⟨b, token, hs, rfl | rfl⟩ := h
  · obtain hl | ⟨b₁, p, hspine, hm, heq⟩ := rules_cases hs token
    · exact hl.underway hs (fun hm => hs.rules_text hm) hon
    · rw [heq] at hon ⊢
      cases hon
      exact ⟨⟨b₁, token, hspine, Or.inr rfl⟩, fun hm' => hm (p.same.mode ▸ hm')⟩
  · exact (lawful_modeRules hs).underway hs (fun hm => by simp only [modeRules, hm]) hon

/-- Only the first round for a token can be one of raw text. -/
theorem Underway.mode_ne_text (h : Underway o) (hc : Relation.ReflTransGen Outcome.After o' o)
    (hon : o'.handOn?.isSome) : o'.builder.mode ≠ .text := by
  have hunder : Underway o' := by
    clear hon
    induction hc using Relation.ReflTransGen.head_induction_on with
    | refl => exact h
    | head hafter _ ih => exact (ih.handOn hafter).1
  obtain ⟨o'', hon⟩ := Option.isSome_iff_exists.1 hon
  exact (hunder.handOn hon).2

/-! ## 3. Enough rounds -/

/-- With these rounds to go, an outcome settles and the token is finished. -/
def Concludes (fuel : Nat) (b : TreeBuilder) (token : Token) (o : Outcome) : Prop :=
  Settles o (settle fuel o) ∧ Finished b token (settle fuel o)

/-- One round: a lawful outcome is the last, or the token goes on with a lower rank. -/
theorem Lawful.concludes {fuel : Nat} (h : Lawful b token o)
    (ih : ∀ {b₁ : TreeBuilder} {token' : Token}, Spine b₁ → b₁.rank token' < b.rank token →
      Concludes fuel b₁ token' (b₁.rules token')) : Concludes (fuel + 1) b token o := by
  have hnext := h.next
  rw [Concludes, settle_succ]
  cases hc : o.next with
  | done =>
    rw [hc] at hnext
    have hlast : o.handOn? = none := by rw [Outcome.handOn?, hc]
    rw [hlast]
    refine ⟨.done hlast, hnext.1, hnext.2, h.asks.imp id ?_⟩
    rintro ⟨tag, ht, -, hr⟩
    exact ⟨tag, ht, hr⟩
  | reprocess token' =>
    rw [hc] at hnext
    obtain ⟨hspine, hfollows, hrank⟩ := hnext
    have hon : o.handOn? = some (o.builder.rules token') := by rw [Outcome.handOn?, hc]
    -- only an outcome that is done asks the tokenizer for another state
    have hquiet : Quiet b o.builder := by
      refine h.asks.resolve_right ?_
      rintro ⟨tag, -, hdone, -⟩
      rw [hc] at hdone
      cases hdone
    obtain ⟨hs, hf⟩ := ih hspine hrank
    rw [hon]
    exact ⟨.handOn hon hs, hf.of_follows hfollows hquiet⟩
  | byMode token' =>
    rw [hc] at hnext
    exact hnext.elim

/-- Two rounds for each rank are enough: one of them may go to foreign content. -/
theorem concludes_rules (n : Nat) {fuel : Nat} (h : Spine b) (hr : b.rank token < n)
    (hf : 2 * n ≤ fuel) : Concludes fuel b token (b.rules token) := by
  -- Induction on a bound of the rank: what is handed on has a lower rank, and two rounds less.
  induction n generalizing b token fuel with
  | zero => exact absurd hr (Nat.not_lt_zero _)
  | succ n ih =>
    obtain ⟨fuel, rfl⟩ : ∃ fuel', fuel = fuel' + 2 := ⟨fuel - 2, by omega⟩
    obtain hl | ⟨b₁, p, hspine, hm, heq⟩ := rules_cases h token
    · exact hl.concludes fun hspine hrank => ih hspine (by omega) (by omega)
    · have hrank : b₁.rank token = b.rank token := rank_congr p.same.mode p.same.modes
      have hc : Concludes (fuel + 1) b₁ token (b₁.modeRules token) :=
        (lawful_modeRules hspine).concludes fun hspine hrank => ih hspine (by omega) (by omega)
      rw [heq, Concludes, settle_succ]
      exact ⟨.handOn rfl hc.1, hc.2.of_follows (Or.inl rfl) (p.quiet hm)⟩

theorem modeRank_le (course : Course) (mode : InsertionMode) : modeRank course mode ≤ 6 := by
  cases course <;> cases mode <;> decide

theorem endRank_le_six (mode : InsertionMode) : endRank mode ≤ 6 := by
  cases mode <;> decide

/-- The limit of rounds is never what ends the processing of a token. -/
theorem Spine.rank_lt_roundLimit (h : Spine b) : 2 * (b.rank token + 1) ≤ b.roundLimit := by
  have hlen := h.standing.length_le
  have hmode := modeRank_le (.of token) b.mode
  have hend := endRank_le_six b.mode
  unfold roundLimit
  cases token with
  | endOfFile => simp only [rank]; omega
  | startTag tag =>
    have hname := modeRank_le (.ofName tag.name) b.mode
    simp only [rank]
    split <;> omega
  | endTag tag => simp only [rank]; omega
  | character c => simp only [rank]; omega
  | comment data => simp only [rank]; omega
  | doctype d => simp only [rank]; omega

theorem concludes_dispatch (h : Spine b) (token : Token) :
    Settles (b.rules token) (b.dispatch token) ∧ Finished b token (b.dispatch token) :=
  concludes_rules (b.rank token + 1) h (Nat.lt_succ_self _) h.rank_lt_roundLimit

/-- Where one rule is done with the token, it is dealt with. -/
theorem dispatch_of_done (h : b.rules token = b'.done) : b.dispatch token = b' := by
  rw [dispatch, h, roundLimit, Nat.add_comm]
  rfl

/-! ## 4. Taking a token -/

/-- The builder with a token at hand. -/
def receive (b : TreeBuilder) (t : PositionedToken) : TreeBuilder :=
  { b with position := t.position, skipNewline := false, selfClosing := isSelfClosing t.token }

/-- The token is done with: what is left of its self-closing flag is an error. -/
def release (b : TreeBuilder) : TreeBuilder :=
  { b with selfClosing := false }.reportIf b.selfClosing
    .nonVoidHtmlElementStartTagWithTrailingSolidus

theorem process_eq (b : TreeBuilder) (t : PositionedToken) (hs : b.stopped = false) :
    b.process t = .ok (if b.skipNewline && t.token = .character '\n'
      then { b with position := t.position, skipNewline := false }
      else ((b.receive t).dispatch t.token).release) := by
  rw [process, if_neg (by rw [hs]; decide)]
  dsimp only
  split <;> rfl

theorem Spine.receive (h : Spine b) (t : PositionedToken) : Spine (b.receive t) :=
  h.update _ _ _ _ _ _

theorem release_eq (b : TreeBuilder) :
    ∃ errors, b.release = { b with selfClosing := false, errors } :=
  (reportIf_eq (b := { b with selfClosing := false }) _ _ rfl).imp fun _ h => h.1

theorem Spine.release (h : Spine b) : Spine b.release := by
  obtain ⟨errors, hb⟩ := release_eq b
  rw [hb]
  exact h.update _ _ _ _ _ _

theorem Halted.release (h : Halted b) : Halted b.release := by
  obtain ⟨errors, hb⟩ := release_eq b
  rw [hb]
  exact h.update _ _ _ _ _ _

theorem Finished.release {t : PositionedToken} (h : Finished (b.receive t) token b') :
    Finished b token b'.release := by
  refine ⟨fun ht => (h.spine ht).release, fun ht => (h.halted ht).release, ?_⟩
  obtain ⟨errors, hb⟩ := release_eq b'
  rw [hb]
  obtain hq | ⟨tag, ht, hr⟩ := h.asks
  · exact Or.inl ⟨hq.request, hq.text⟩
  · refine Or.inr ⟨tag, ht, ?_⟩
    cases hr with
    | text kind x outer mode request stack label name =>
      exact .text kind x outer mode request stack label name
    | plaintext mode request name => exact .plaintext mode request name

/-- An end tag ends raw text. -/
theorem Spine.process_endTag (h : Spine b) (hm : b.mode = .text) {t : PositionedToken} {tag : Tag}
    (ht : t.token = .endTag tag) (hp : b.process t = .ok b') : b'.mode ≠ .text := by
  have hskip : (b.skipNewline && decide (t.token = .character '\n')) = false := by
    rw [ht]
    simp
  have hrules : (b.receive t).rules (.endTag tag) = (b.receive t).pop.resume.done :=
    (h.receive t).rules_text hm
  have hdispatch : (b.receive t).dispatch (.endTag tag) = (b.receive t).pop.resume :=
    dispatch_of_done hrules
  rw [process_eq b t h.running, hskip, if_neg (by decide), ht, hdispatch] at hp
  cases hp
  obtain ⟨errors, hb⟩ := release_eq (b.receive t).pop.resume
  rw [hb]
  exact (spine_resume (h.receive t) hm).2

/-- A token is always taken, and what it brings about keeps the invariant. -/
theorem Spine.process (h : Spine b) (t : PositionedToken) :
    ∃ b', b.process t = .ok b' ∧ Finished b t.token b' := by
  rw [process_eq b t h.running]
  refine ⟨_, rfl, ?_⟩
  split
  · next hskip =>
    have ht : t.token = .character '\n' := by
      simp only [Bool.and_eq_true, decide_eq_true_eq] at hskip
      exact hskip.2
    refine ⟨fun _ => ?_, fun he => ?_, Or.inl ⟨rfl, fun hm => ⟨hm, rfl, fun _ _ hl => hl⟩⟩⟩
    · exact h.update _ _ _ _ _ _
    · rw [ht] at he
      cases he
  · exact (concludes_dispatch (h.receive t) t.token).2.release

end Hypertext.TreeBuilder
