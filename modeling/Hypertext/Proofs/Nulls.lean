import Hypertext.Proofs.Completion
import Hypertext.Proofs.Tokenizer.Nulls
import Hypertext.Proofs.TreeBuilder.Nulls

/-!
# No nulls in a document

The rules of raw text insert whatever character comes. In the other modes, a null character is
dropped or replaced. So it is for the tokenizer to deliver none while the tree builder reads raw
text, and the two are in step.
-/

namespace Hypertext

namespace Session

open TreeBuilder Tokenizer

variable {s s' : Session}

/-- No null character waits for raw text. -/
structure NullFree (s : Session) : Prop where
  builder : s.builder.NullFree
  tokenizer : s.finished = false → s.tokenizer.NullFree (s.builder.mode ≠ .text)

theorem nullFree_start (html : String) (options : ParseOptions) :
    (start html options).NullFree := by
  refine ⟨⟨.empty, nofun⟩, fun _ => ?_⟩
  have hnotBuilding := notBuilding_tokenizerFor html options
  have hbuffer : (tokenizerFor html options).buffer = [] := by
    unfold tokenizerFor
    cases options.initialState <;> cases options.lastStartTag <;> rfl
  refine ⟨fun token ht => ?_, ?_, fun p hp => ?_⟩
  · have hnone : (tokenizerFor html options).current = none := hnotBuilding.current
    exact absurd ht (by simp [start, hnone])
  · show '\x00' ∉ (tokenizerFor html options).buffer
    rw [hbuffer]
    exact List.not_mem_nil
  · have hp : p ∈ (tokenizerFor html options).pending := hp
    rw [pending_tokenizerFor] at hp
    cases hp

/-- The next token suits the tree builder, and so does what is left. -/
theorem NullFree.fetch (h : s.NullFree) (hin : InStep s) (hf : s.finished = false) :
    s.noted.Bears s.fetch.1.token ∧ s.fetch.2.NullFree (s.builder.mode ≠ .text) := by
  have hb : s.builder.mode ≠ .text ∨ ∃ name, Bound name s.tokenizer := by
    by_cases hm : s.builder.mode = .text
    · obtain ⟨-, -, name, -, -, hbound⟩ := hin.text hm
      exact Or.inr ⟨name, hbound⟩
    · exact Or.inl hm
  obtain ⟨htoken, hrest⟩ := nullFree_nextToken hin.calm hb (h.tokenizer hf) s.builder.isForeign
  exact ⟨htoken, hrest.congr rfl rfl rfl⟩

theorem NullFree.step (h : s.NullFree) (hr : Reachable s) (hs : s.step = .ok s') : s'.NullFree := by
  have hf := finished_of_step hs
  have hin := hr.inStep hf
  obtain ⟨builder, hp, hfin⟩ := hin.noted.process s.fetch.1
  obtain ⟨hbears, hrest⟩ := h.fetch hin hf
  rw [step_eq hf hp] at hs
  cases hs
  have hworking : Working s.noted := (hr.builder.absorbErrors _).working hf
  have hbuilder : builder.NullFree :=
    hworking.nullFree hp hbears ⟨h.builder.tree, h.builder.formatting⟩
  -- the state changes only behind a start tag, and then nothing waits in the tokenizer
  cases hask : builder.stateRequest with
  | none =>
    rw [applyRequest_none hask]
    refine ⟨⟨hbuilder.tree, hbuilder.formatting⟩, fun _ => ?_⟩
    obtain hq | ⟨tag, htag, hrequest⟩ := hfin.asks
    · exact ⟨hrest.current, hrest.buffer, fun p hmem =>
        (hrest.pending p hmem).imp_right fun ⟨hm, hc⟩ => ⟨fun hm' => hm (hq.text hm').1, hc⟩⟩
    · obtain hr | ⟨kind, hr⟩ := hrequest.stateRequest_cases
      all_goals
        rw [hr] at hask
        cases hask
  | some state =>
    rw [applyRequest_some hask]
    refine ⟨⟨hbuilder.tree, hbuilder.formatting⟩, fun _ => ?_⟩
    obtain ⟨tag, htag, -⟩ := hin.request_token hfin hask
    obtain ⟨-, hpending, -, -⟩ := hin.delivers.start tag htag
    refine ⟨hrest.current, hrest.buffer, fun p hmem => ?_⟩
    have hmem : p ∈ s.fetch.2.pending := hmem
    rw [hpending] at hmem
    cases hmem

theorem Reachable.nullFree (h : Reachable s) : s.NullFree := by
  induction h with
  | start html options => exact nullFree_start html options
  | step h hs ih => exact ih.step h hs

end Session

/-- No string of a parsed document has a null: no text or comment, no name of an element or an
attribute and no value of one, and no part of a document type, wherever they are in the tree. -/
theorem nullFree_parseDocument (html : String) (options : ParseOptions) :
    (parseDocument html options).tree.NullFree := by
  have hlimit := Tokenizer.remaining_le_tokenLimit (Session.start html options).tokenizer
  obtain ⟨s, hruns, hrun, -⟩ :=
    (Session.running_start html options).steps (Nat.lt_succ_of_le hlimit)
  have hrun : (Session.start html options).run = .ok s := hrun
  rw [parseDocument, hrun]
  exact (hruns.reachable (.start html options)).nullFree.builder.tree

end Hypertext
