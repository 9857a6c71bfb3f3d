import Hypertext.Proofs.Tokenizer.Termination

/-!
# No edit of the wrong kind

An edit that does not fit the token under construction is recorded, and the record is never cleared.
A host may put a tokenizer into any state between two tokens; nothing is under construction then, so
the states that edit a token find none, and no such edit is ever made.
-/

namespace Hypertext.Tokenizer

variable {t u : Tokenizer}

/-- What a host can bring about: tokens are taken, and between them the state, the name of the last
start tag and the list of errors are changed at will. -/
inductive Driven : Tokenizer → Prop where
  | ofString (text : String) : Driven (ofString text)
  | nextToken {t : Tokenizer} (h : Driven t) (foreign : Bool) : Driven (t.nextToken foreign).2
  | switchTo {t : Tokenizer} (h : Driven t) (s : State) : Driven (t.switchTo s)
  | setLastStartTag {t : Tokenizer} (h : Driven t) (name : Option String) :
    Driven (t.setLastStartTag name)
  | takeErrors {t : Tokenizer} (h : Driven t) : Driven t.takeErrors.2

/-- The tokenizers that a call passes through on its way to a token. -/
inductive Visits (t : Tokenizer) : Tokenizer → Prop where
  | start : Visits t t
  | step {u : Tokenizer} (h : Visits t u) (hp : u.pending = []) (he : u.ended = false) :
    Visits t u.step

theorem Driven.between (h : Driven t) : Between t := by
  induction h with
  | ofString text => exact between_ofString text
  | nextToken _ foreign ih => exact ih.nextToken foreign
  | switchTo _ s ih => exact ih.switchTo s
  | setLastStartTag _ name ih => exact ih.setLastStartTag name
  | takeErrors _ ih => exact ih.takeErrors

theorem Visits.between_or_midway (h : Visits t u) (ht : Between t) : Between u ∨ Midway u := by
  induction h with
  | start => exact Or.inl ht
  | step _ hp he ih => exact (ih.elim (fun hb => hb.midway hp he) id).step

/-- However calls and changes of state follow each other, no edit is made of a token that it is not
for: not before a call, not at any step of it, and not after it. -/
theorem fault_eq_none_of_driven (h : Driven t) (foreign : Bool) :
    t.fault = none ∧ (t.nextToken foreign).2.fault = none ∧
      ∀ u, Visits { t with foreign } u → u.fault = none := by
  refine ⟨h.between.fault, (h.between.nextToken foreign).fault, fun u hu => ?_⟩
  obtain hb | hm := hu.between_or_midway (h.between.setForeign foreign)
  · exact hb.fault
  · exact hm.fitsZone.fault

/-- After the tag `<b a a>` the tokenizer is sent into an attribute value: the reference and the `<`
that it finds there belong to no tag, and the `>` finishes none. -/
theorem fault_of_retargeted :
    let t := ((ofString "<b a a>&no</b>").nextToken false).2.switchTo .attributeValueUnquoted
    t.pending = [] ∧ (t.nextToken true).1.token = .endOfFile ∧
    (t.nextToken true).2.fault = none := by
  intro t
  have hdriven : Driven t := .switchTo (.nextToken (.ofString _) false) .attributeValueUnquoted
  exact ⟨by with_unfolding_all decide, by decide +kernel,
    (fault_eq_none_of_driven hdriven true).2.1⟩

end Hypertext.Tokenizer
