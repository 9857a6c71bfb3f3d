import Hypertext.Proofs.TreeBuilder.Rules.Head
import Hypertext.TreeBuilder.Rules.ForeignContent

/-!
# The rules of foreign content are lawful

While the current node is foreign it is no part, so elements may be opened on it and foreign
elements closed without any change to what the mode is read off. A token may be left to the
mode afterwards.
-/

namespace Hypertext.TreeBuilder

open Hypertext.Tree

variable {b b' : TreeBuilder} {token : Token} {tag : Tag}

/-! ## 1. Foreign elements -/

/-- The current node is a foreign element. -/
theorem exists_foreign (h : b.usesMode token = false) :
    ∃ x outer e, b.openElements = x :: outer ∧ b.tree.element? x = some e ∧ e.ns ≠ .html := by
  unfold usesMode at h
  split at h
  · cases h
  · next e he =>
    obtain ⟨x, hx, he⟩ := Option.bind_eq_some_iff.1 he
    obtain ⟨outer, hopen⟩ := List.head?_eq_some_iff.1 hx
    refine ⟨x, outer, e, hopen, he, fun hns => ?_⟩
    simp [hns] at h

theorem part?_of_foreign {x : NodeId} {e : Element} (he : b.tree.element? x = some e)
    (hns : e.ns ≠ .html) : b.tree.part? x = none := by
  simp [part?, label?, he, partOf, hns]

/-- Raw text, and content before the body, is never in a foreign element. -/
theorem Spine.mode_of_foreign (h : Spine b) {x : NodeId} {outer : List NodeId} {e : Element}
    (hopen : b.openElements = x :: outer) (he : b.tree.element? x = some e) (hns : e.ns ≠ .html) :
    b.mode ∉ [InsertionMode.initial, .beforeHtml, .inHeadNoscript, .text] := by
  have hs := h.standing
  have hnot : ∀ y rest, b.openElements = y :: rest → ¬ Ordinary b.tree y := by
    rintro y rest hstack ⟨name, hl, -⟩
    rw [hopen] at hstack
    obtain ⟨rfl, -⟩ := List.cons.inj hstack
    rw [label?, he] at hl
    exact hns (Prod.ext_iff.1 (Option.some.inj hl)).1
  intro hm
  simp only [List.mem_cons, List.not_mem_nil, or_false] at hm
  rcases hm with hm | hm | hm | hm <;> rw [hm] at hs
  · rw [hopen] at hs
    cases hs.1
  · rw [hopen] at hs
    cases hs.1
  · obtain ⟨y, rest, hstack, hy, -⟩ := hs
    exact hnot y rest hstack hy
  · obtain ⟨_, y, rest, -, hstack, hy, -⟩ := hs
    exact hnot y rest hstack hy

/-- Nor is content before the head. -/
theorem Spine.begun_of_foreign (h : Spine b) {x : NodeId} {outer : List NodeId} {e : Element}
    (hopen : b.openElements = x :: outer) (he : b.tree.element? x = some e) (hns : e.ns ≠ .html) :
    Begun b := by
  have hm := h.mode_of_foreign hopen he hns
  have hhead : b.mode ≠ .beforeHead := by
    intro hm
    obtain ⟨y, hopen', hl, -⟩ := (h.steady (by rw [hm]; decide)).alone (Or.inl hm)
    rw [hopen] at hopen'
    obtain ⟨rfl, -⟩ := List.cons.inj hopen'
    rw [label?, he] at hl
    exact hns (Prod.ext_iff.1 (Option.some.inj hl)).1
  refine h.begun ?_
  revert hm hhead
  cases b.mode <;> simp

/-! ## 2. Closing foreign elements -/

/-- The way to the element that an end tag names stays in the stack, and only foreign elements are
closed on it. -/
theorem exists_foreignEndTarget (name : String) {inner stack : List NodeId} {x : NodeId}
    (hopen : b.openElements = inner ++ x :: stack) (hx : b.tree.part? x = none) :
    ∃ target, b.foreignEndTarget? name stack.length = some target ∧
      ∀ depth, target = .close depth → ∃ dropped outer, x :: stack = dropped ++ outer ∧
        outer.length = depth ∧ Clear b.tree dropped := by
  induction stack generalizing inner x with
  | nil => exact ⟨.ignore, rfl, fun depth h => by cases h⟩
  | cons parent stack ih =>
    have hx' := openAt?_eq hopen
    have hopen' : b.openElements = (inner ++ [x]) ++ parent :: stack := by simp [hopen]
    have hparent := openAt?_eq hopen'
    rw [List.length_cons] at hx' ⊢
    simp only [foreignEndTarget?, hx', hparent, Option.bind_eq_bind, Option.bind_some]
    split
    · refine ⟨_, rfl, fun depth h => ⟨[x], parent :: stack, rfl, ?_, clear_cons.2 ⟨hx, clear_nil⟩⟩⟩
      cases h
      rfl
    · split
      · exact ⟨_, rfl, fun depth h => by cases h⟩
      · -- the search goes on only if the parent is foreign, and a foreign element is no part
        next hforeign =>
        have hp : b.tree.part? parent = none := by
          cases he : b.tree.element? parent with
          | none => rw [part?, label?, he]; rfl
          | some e => exact part?_of_foreign he (by simpa [he] using hforeign)
        obtain ⟨target, htarget, hclose⟩ := ih hopen' hp
        refine ⟨target, htarget, fun depth h => ?_⟩
        obtain ⟨dropped, outer, heq, hlength, hc⟩ := hclose depth h
        exact ⟨x :: dropped, outer, by rw [heq]; rfl, hlength, clear_cons.2 ⟨hx, hc⟩⟩

theorem plain_breakOut (h : Sound b) (token : Token) : ∃ b', b.breakOut token = b'.byMode token ∧
    Plain b b' := by
  have p := plain_report h token.unexpected
  refine ⟨_, rfl, p.next fun h => plain_popWhile h fun x hx => ?_⟩
  obtain ⟨e, he, hstays⟩ := (Option.any_eq_true _ _).1 hx
  refine part?_of_foreign he fun hns => ?_
  simp [hns] at hstays

/-! ## 3. The rules -/

/-- What the rules of foreign content make of a token: they are done with it, or leave it
to the mode. -/
theorem foreignContent_cases (h : Sound b) (hb : Begun b) {x : NodeId} {outer : List NodeId}
    {e : Element} (hopen : b.openElements = x :: outer) (he : b.tree.element? x = some e)
    (hns : e.ns ≠ .html) (token : Token) :
    ∃ b', Plain b b' ∧ (b.foreignContent token = b'.byMode token ∨
      token ≠ .endOfFile ∧ b.foreignContent token = b'.done) := by
  have hx := part?_of_foreign he hns
  have hcurrent : b.currentElement? = some e := by
    rw [currentElement?, currentNode?, hopen]
    exact he
  have hbreak : ∀ {token : Token}, ∃ b', Plain b b' ∧ (b.breakOut token = b'.byMode token ∨
      token ≠ .endOfFile ∧ b.breakOut token = b'.done) := by
    intro token
    obtain ⟨b', heq, p⟩ := plain_breakOut h token
    exact ⟨b', p, Or.inl heq⟩
  cases token with
  | character c =>
    simp only [foreignContent]
    split
    · exact ⟨_, (plain_report h _).next fun h => plain_insertChar h _, Or.inr ⟨by simp, rfl⟩⟩
    · split
      · exact ⟨_, plain_insertChar h c, Or.inr ⟨by simp, rfl⟩⟩
      · exact ⟨_, (plain_insertChar h c).next plain_framesetNotOk, Or.inr ⟨by simp, rfl⟩⟩
  | comment data => exact ⟨_, plain_insertComment h data, Or.inr ⟨by simp, rfl⟩⟩
  | doctype d => exact ⟨_, plain_report h _, Or.inr ⟨by simp, rfl⟩⟩
  | startTag tag =>
    simp only [foreignContent]
    split
    · exact hbreak
    · have ha : Admits b.tree b.openElements := by
        intro y hy
        rw [hopen] at hy
        cases hy
        rw [hx]
        simp [Sits]
      refine ⟨_, plain_insertForeign h hb ha tag ?_ _, Or.inr ⟨by simp, rfl⟩⟩
      rw [hcurrent]
      exact hns
  | endTag tag =>
    simp only [foreignContent]
    split
    · exact hbreak
    · split
      · exact ⟨_, plain_pop h hopen hx, Or.inr ⟨by simp, rfl⟩⟩
      · -- the name is looked for outwards, up to the first element of HTML
        have hlength : b.openElements.length = outer.length + 1 := by rw [hopen]; rfl
        have hstack : b.openElements = [] ++ x :: outer := hopen
        obtain ⟨errors, hb, -⟩ :=
          reportIf_eq (b := b) (!b.hasLowerName tag.name x) .unexpectedEndTag rfl
        have p := plain_reportIf h (!b.hasLowerName tag.name x) .unexpectedEndTag
        rw [hb] at p
        obtain ⟨target, htarget, hclose⟩ :=
          exists_foreignEndTarget (b := { b with errors }) tag.name hstack hx
        simp only [foreignEnd, hlength, Indexed.before?, foreignEndAt?, openAt?_eq hstack,
          hb, htarget, Option.bind_eq_bind, Option.bind_some]
        cases target with
        | close depth =>
          obtain ⟨dropped, rest, heq, rfl, hc⟩ := hclose depth rfl
          have hcut : { b with errors }.openElements = dropped ++ rest := hopen.trans heq
          refine ⟨{ b with errors, openElements := rest }, p.next fun h => plain_closed h hcut hc,
            Or.inr ⟨by simp, ?_⟩⟩
          simp only [truncate_eq hcut]
          rfl
        | byMode => exact ⟨_, p, Or.inl rfl⟩
        | ignore => exact ⟨_, p, Or.inr ⟨by simp, rfl⟩⟩
  | endOfFile => exact ⟨b, .refl h, Or.inl rfl⟩

end Hypertext.TreeBuilder
