import Hypertext.Proofs.Completion
import Hypertext.Proofs.Tokenizer.Screening
import Hypertext.Proofs.TreeBuilder.Rounds

/-!
# Every bad character is reported once

Only the tokenizer finds fault with a character as such, when it reads it for the first time; and a
session does not end before everything has been read.
-/

namespace Hypertext.Session

open TreeBuilder Tokenizer

variable {s s' : Session} {text : List Char}

/-- The errors of the characters read so far have been handed over, and all of them when the
session ends. -/
structure Screened (text : List Char) (s : Session) : Prop where
  tokenizer : s.tokenizer.Screened text False s.errors.ofInput
  taken : s.tokenizer.errors = {}
  ended : s.finished = true → s.tokenizer.ended = true

theorem screened_start (html : String) (options : ParseOptions) :
    Screened (normalizeNewlines html.toList) (start html options) := by
  have h := screened_ofString html
  have heq : (tokenizerFor html options).input = (ofString html).input ∧
      (tokenizerFor html options).errors = {} ∧ (tokenizerFor html options).ended = false := by
    unfold tokenizerFor
    cases options.initialState <;> cases options.lastStartTag <;> exact ⟨rfl, rfl, rfl⟩
  exact ⟨h.congr heq.1 heq.2.1 heq.2.2, heq.2.1, nofun⟩

theorem Screened.step (h : Screened text s) (hr : Reachable s) (hs : s.step = .ok s') :
    Screened text s' := by
  have hf := finished_of_step hs
  have hrunning := hr.running hf
  obtain ⟨builder, hp, hfin⟩ := hrunning.inStep.noted.process s.fetch.1
  have hfetch := (h.tokenizer.nextToken hrunning.between s.builder.isForeign).takeErrors
  have herrors : builder.errors.ofInput =
      s.errors.ofInput ++ (s.tokenizer.nextToken s.builder.isForeign).2.errors.ofInput := by
    have hworking : Working s.noted := (hr.builder.absorbErrors _).working hf
    rw [(hworking.logs hp).ofInput]
    exact ErrorLog.ofInput_append ..
  rw [step_eq hf hp] at hs
  cases hs
  have hended : builder.stopped = true → s.fetch.2.ended = true := by
    intro hstopped
    obtain ⟨-, he, -⟩ | ⟨hne, -⟩ := hrunning.between.delivered s.builder.isForeign
    · exact he
    · rw [(hfin.spine hne).running] at hstopped
      cases hstopped
  cases hrequest : builder.stateRequest with
  | none =>
    rw [applyRequest_none hrequest]
    exact ⟨(herrors ▸ hfetch).congr rfl rfl rfl, rfl, hended⟩
  | some state =>
    rw [applyRequest_some hrequest]
    exact ⟨(herrors ▸ hfetch).congr rfl rfl rfl, rfl, hended⟩

theorem Runs.screened (r : Runs s s') (hr : Reachable s) (h : Screened text s) :
    Screened text s' := by
  induction r with
  | last hs _ => exact h.step hr hs
  | more hs _ _ ih => exact ih (hr.step hs) (h.step hr hs)

/-- At the end all characters have been read. -/
theorem Screened.errors_eq (h : Screened text s) (hf : s.finished = true) :
    s.errors.ofInput = flaws text := by
  have hread := h.tokenizer.errors
  rw [h.taken] at hread
  rw [← flawsUpTo_eq (h.tokenizer.complete (Or.inr (h.ended hf))), ← hread]
  exact (List.append_nil _).symm

/-- A run of a session, with whatever options, reports the bad characters of its text and no others:
each of them once, in the order of the text, by its kind and at its place. -/
theorem inputErrors_of_run (html : String) (options : ParseOptions) :
    ∃ s, Runs (start html options) s ∧ (start html options).run = .ok s ∧
      s.errors.ofInput = flaws (normalizeNewlines html.toList) := by
  have hlimit := remaining_le_tokenLimit (start html options).tokenizer
  obtain ⟨s, hruns, hrun, hf⟩ := (running_start html options).steps (Nat.lt_succ_of_le hlimit)
  have hscreened := hruns.screened (.start html options) (screened_start html options)
  exact ⟨s, hruns, hrun, hscreened.errors_eq hf⟩

end Hypertext.Session
