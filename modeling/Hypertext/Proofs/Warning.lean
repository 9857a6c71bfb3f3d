import Hypertext.Warning
import Mathlib.Data.List.Infix

/-!
# Which warnings are new

A warning is new if none that reads the same was given since the memory was cleared. Two different
warnings read the same if one is cut later than the other, which takes a component with a closing
bracket and a blank.
-/

namespace Hypertext

namespace Warning

variable {w w' : Warning}

/-! ## 1. Warnings that read the same -/

/-- The end of a component in the line that shows a warning. -/
def componentEnd : List Char := [']', ' ']

theorem toList_display (w : Warning) :
    w.display.toList = '[' :: (w.component.toList ++ (componentEnd ++ w.message.toList)) := by
  simp only [display, String.toList_append, List.append_assoc]
  rfl

/-- The component of the second warning goes on after the end of that of the first one, with what
the message of the first one begins with. -/
def Overruns (w w' : Warning) : Prop := ∃ middle,
  w'.component.toList = w.component.toList ++ (componentEnd ++ middle) ∧
    w.message.toList = middle ++ (componentEnd ++ w'.message.toList)

theorem Overruns.display_eq (h : w.Overruns w') : w.display = w'.display := by
  obtain ⟨middle, hcomponent, hmessage⟩ := h
  rw [← String.toList_inj, toList_display, toList_display, hcomponent, hmessage]
  simp only [List.append_assoc]

/-- Two ends of components do not overlap. -/
theorem eq_nil_or_of_componentEnd_append {rest message message' : List Char}
    (h : componentEnd ++ message = rest ++ (componentEnd ++ message')) :
    rest = [] ∧ message = message' ∨
      ∃ middle, rest = componentEnd ++ middle ∧ message = middle ++ (componentEnd ++ message') := by
  match rest with
  | [] => exact Or.inl ⟨rfl, List.append_cancel_left h⟩
  | [_] =>
    have hblank : ' ' = ']' := (List.cons.inj (List.cons.inj h).2).1
    exact absurd hblank (by decide)
  | _ :: _ :: middle =>
    obtain ⟨rfl, htail⟩ := List.cons.inj h
    obtain ⟨rfl, hmessage⟩ := List.cons.inj htail
    exact Or.inr ⟨middle, rfl, hmessage⟩

/-- If the component of one warning begins that of another one that reads the same, they are the
same or the other one is cut later. -/
theorem eq_or_overruns {rest : List Char}
    (hcomponent : w'.component.toList = w.component.toList ++ rest)
    (hrest : componentEnd ++ w.message.toList = rest ++ (componentEnd ++ w'.message.toList)) :
    w = w' ∨ w.Overruns w' := by
  rcases eq_nil_or_of_componentEnd_append hrest with ⟨rfl, hmessage⟩ | ⟨middle, rfl, hmessage⟩
  · rw [List.append_nil, String.toList_inj] at hcomponent
    rw [String.toList_inj] at hmessage
    left
    cases w
    cases w'
    rw [mk.injEq]
    exact ⟨hcomponent.symm, hmessage⟩
  · exact Or.inr ⟨middle, hcomponent, hmessage⟩

theorem display_eq_iff : w.display = w'.display ↔ w = w' ∨ w.Overruns w' ∨ w'.Overruns w := by
  constructor
  · intro h
    rw [← String.toList_inj, toList_display, toList_display, List.cons.injEq,
      List.append_eq_append_iff] at h
    rcases h.2 with ⟨rest, hcomponent, hrest⟩ | ⟨rest, hcomponent, hrest⟩
    · exact (eq_or_overruns hcomponent hrest).imp_right Or.inl
    · exact (eq_or_overruns hcomponent hrest).imp Eq.symm Or.inr
  · rintro (rfl | h | h)
    · rfl
    · exact h.display_eq
    · exact h.display_eq.symm

/-- Nothing in the component reads like the end of it. -/
def IsCutOnce (w : Warning) : Prop := ¬ componentEnd <:+: w.component.toList

theorem IsCutOnce.not_overruns (h : w'.IsCutOnce) : ¬ w.Overruns w' := by
  rintro ⟨middle, hcomponent, -⟩
  apply h
  rw [hcomponent]
  exact ⟨w.component.toList, middle, List.append_assoc ..⟩

theorem IsCutOnce.display_eq_iff (h : w.IsCutOnce) (h' : w'.IsCutOnce) :
    w.display = w'.display ↔ w = w' := by
  simp only [Warning.display_eq_iff, h.not_overruns, h'.not_overruns, or_false]

end Warning

/-! ## 2. Sequences of calls -/

namespace WarningLog

/-- What is done with the memory of shown warnings. -/
inductive Call where
  | warn (w : Warning)
  | clear
deriving DecidableEq

/-- The answer of a call, if it has one, and the memory after it. -/
def call (log : WarningLog) : Call → Option Bool × WarningLog
  | .warn w => (some (log.warn w).1, (log.warn w).2)
  | .clear => (none, empty)

def after (log : WarningLog) (calls : List Call) : WarningLog :=
  calls.foldl (fun log c => (log.call c).2) log

/-- The answers of calls that are made one after the other. -/
def answers : WarningLog → List Call → List (Option Bool)
  | _, [] => []
  | log, c :: calls => (log.call c).1 :: answers (log.call c).2 calls

/-- The warning was given, and the memory was not cleared afterwards. -/
def Given (calls : List Call) (w : Warning) : Prop :=
  ∃ before later, calls = before ++ .warn w :: later ∧ Call.clear ∉ later

variable {log : WarningLog} {calls before later : List Call} {w w' : Warning} {c : Call}
  {text : String}

theorem given_nil : ¬ Given [] w := by
  rintro ⟨before, later, heq, -⟩
  simp at heq

theorem given_concat_clear (calls : List Call) : ¬ Given (calls ++ [.clear]) w := by
  rintro ⟨before, later, heq, hlater⟩
  rcases List.eq_nil_or_concat later with rfl | ⟨later, c, rfl⟩
  · cases (List.append_inj' heq rfl).2
  · rw [List.concat_eq_append, ← List.cons_append, ← List.append_assoc] at heq
    cases (List.append_inj' heq rfl).2
    exact hlater (by simp)

theorem given_concat_warn (calls : List Call) : Given (calls ++ [.warn w]) w' ↔
    w' = w ∨ Given calls w' := by
  constructor
  · rintro ⟨before, later, heq, hlater⟩
    rcases List.eq_nil_or_concat later with rfl | ⟨later, c, rfl⟩
    · cases (List.append_inj' heq rfl).2
      exact Or.inl rfl
    · rw [List.concat_eq_append, ← List.cons_append, ← List.append_assoc] at heq
      obtain ⟨rfl, -⟩ := List.append_inj' heq rfl
      exact Or.inr ⟨before, later, rfl, fun h => hlater (by simp [h])⟩
  · rintro (rfl | ⟨before, later, rfl, hlater⟩)
    · exact ⟨calls, [], rfl, List.not_mem_nil⟩
    · exact ⟨before, later ++ [.warn w], by simp, by simp [hlater]⟩

theorem shown_warn (log : WarningLog) (w : Warning) :
    text ∈ (log.warn w).2.shown ↔ text = w.display ∨ text ∈ log.shown := by
  unfold warn
  split
  · next h => exact ⟨Or.inr, fun hor => hor.elim (fun heq => heq ▸ h) id⟩
  · exact List.mem_cons

theorem warn_new (log : WarningLog) (w : Warning) :
    (log.warn w).1 = true ↔ w.display ∉ log.shown := by
  unfold warn
  split
  · next h => exact ⟨nofun, fun hnot => absurd h hnot⟩
  · next h => exact ⟨fun _ => h, fun _ => rfl⟩

/-- The memory holds what the warnings read that were given since it was cleared. -/
theorem shown_after (calls : List Call) : text ∈ (empty.after calls).shown ↔
    ∃ w, Given calls w ∧ w.display = text := by
  induction calls using List.reverseRecOn with
  | nil =>
    refine ⟨fun h => absurd h List.not_mem_nil, ?_⟩
    rintro ⟨w, hw, -⟩
    exact absurd hw given_nil
  | append_singleton calls c ih =>
    rw [after, List.foldl_concat, ← after]
    cases c with
    | clear =>
      refine ⟨fun h => absurd h List.not_mem_nil, ?_⟩
      rintro ⟨w, hw, -⟩
      exact absurd hw (given_concat_clear calls)
    | warn w =>
      rw [call, shown_warn, ih]
      simp only [given_concat_warn, or_and_right, exists_or, exists_eq_left, eq_comm (a := text)]

theorem answers_append (log : WarningLog) (before later : List Call) :
    log.answers (before ++ later) = log.answers before ++ (log.after before).answers later := by
  induction before generalizing log with
  | nil => rfl
  | cons c before ih => exact congrArg ((log.call c).1 :: ·) (ih _)

theorem length_answers (log : WarningLog) (calls : List Call) :
    (log.answers calls).length = calls.length := by
  induction calls generalizing log with
  | nil => rfl
  | cons c calls ih => exact congrArg (· + 1) (ih _)

theorem answer_warn (before later : List Call) (w : Warning) :
    (empty.answers (before ++ .warn w :: later))[before.length]? =
      some (some ((empty.after before).warn w).1) := by
  rw [answers_append, List.getElem?_append_right (length_answers ..).le, length_answers,
    Nat.sub_self]
  rfl

/-! ## 3. What is new -/

/-- Whatever was called before, a warning is new if and only if neither it nor one that is cut
elsewhere in the same line was given since the memory was cleared. Where no component reads like the
end of one, that is the same as that it was not given itself. -/
theorem answers_of_calls (before later : List Call) (w : Warning) : ∃ new : Bool,
    (empty.answers (before ++ .warn w :: later))[before.length]? = some (some new) ∧
    (new = true ↔ ∀ w', Given before w' → w' ≠ w ∧ ¬ w'.Overruns w ∧ ¬ w.Overruns w') ∧
    (w.IsCutOnce → (∀ w', Given before w' → w'.IsCutOnce) → (new = true ↔ ¬ Given before w)) := by
  have hnew : ((empty.after before).warn w).1 = true ↔
      ∀ w', Given before w' → w'.display ≠ w.display := by
    rw [warn_new, shown_after]
    simp only [not_exists, not_and]
  refine ⟨_, answer_warn before later w, ?_, fun hw hall => ?_⟩
  · simp only [hnew, ne_eq, Warning.display_eq_iff, not_or]
  · rw [hnew]
    constructor
    · exact fun h hgiven => h w hgiven rfl
    · intro h w' hgiven heq
      rw [(hall w' hgiven).display_eq_iff hw] at heq
      exact h (heq ▸ hgiven)

/-- After the memory was cleared, a warning is new that had been given before. -/
theorem answers_cleared :
    let before : List Call := [.warn ⟨"net", "slow"⟩, .clear, .warn ⟨"net", "down"⟩]
    Warning.IsCutOnce ⟨"net", "slow"⟩ ∧ (∀ w, Given before w → w.IsCutOnce) ∧
    ¬ Given before ⟨"net", "slow"⟩ ∧
      (empty.answers (before ++ [.warn ⟨"net", "slow"⟩, .clear]))[3]? = some (some true) := by
  intro before
  have hcut (message : String) : Warning.IsCutOnce ⟨"net", message⟩ := by
    have hnet : ¬ Warning.componentEnd <:+: "net".toList := by decide
    exact hnet
  have hgiven (w : Warning) (hw : Given before w) : w = ⟨"net", "down"⟩ := by
    rcases (given_concat_warn [.warn ⟨"net", "slow"⟩, .clear]).1 hw with hw | hw
    · exact hw
    · exact absurd hw (given_concat_clear [.warn ⟨"net", "slow"⟩])
  have hall (w : Warning) (hw : Given before w) : w.IsCutOnce := hgiven w hw ▸ hcut "down"
  have hnot : ¬ Given before ⟨"net", "slow"⟩ := fun h => by simpa using hgiven _ h
  obtain ⟨new, hanswer, -, hnew⟩ := answers_of_calls before [.clear] ⟨"net", "slow"⟩
  refine ⟨hcut "slow", hall, hnot, ?_⟩
  rw [(hnew (hcut "slow") hall).2 hnot] at hanswer
  exact hanswer

/-- Two different warnings that read the same count as one. -/
theorem answers_cut_elsewhere :
    empty.answers [.warn ⟨"a", "b] c"⟩, .warn ⟨"a] b", "c"⟩] = [some true, some false] ∧
      ¬ Given [.warn ⟨"a", "b] c"⟩] ⟨"a] b", "c"⟩ := by
  refine ⟨by decide, fun h => ?_⟩
  rcases (given_concat_warn []).1 h with heq | hnil
  · exact absurd heq (by decide)
  · exact given_nil hnil

end WarningLog

end Hypertext
