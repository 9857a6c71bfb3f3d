import Hypertext.Proofs.Dom.Attributes
import Hypertext.Proofs.Foreign
import Hypertext.Proofs.Token
import Hypertext.Proofs.TreeBuilder.Reachable

/-!
# Foreign tags come in pairs

Names in SVG get their capitals back when an element is made, and the end tag has to find the
element again by a name without them. Every table of names only changes the case of letters, so the
name of an element, read without regard to case, is that of its tag, no two attributes become one,
and the end tag closes the element.
-/

namespace Hypertext

/-- There is no ASCII capital in the name. -/
def NoCapitals (name : String) : Prop := ∀ c ∈ name.toList, c.isUpper = false

instance (name : String) : Decidable (NoCapitals name) :=
  show Decidable (∀ c ∈ name.toList, c.isUpper = false) from List.decidableBAll _ _

theorem NoCapitals.toLower_eq {name : String} (h : NoCapitals name) : name.toLower = name := by
  rw [← String.toList_inj]
  show (name.map Char.toLower).toList = name.toList
  rw [String.toList_map]
  conv_rhs => rw [← List.map_id name.toList]
  apply List.map_congr_left
  intro c hc
  obtain ⟨-, heq⟩ | ⟨hupper, -⟩ := toLower_cases c
  · exact heq
  · rw [h c hc] at hupper
    cases hupper

/-! ## 1. Adjusted names -/

namespace Foreign

variable {name : String} (h : NoCapitals name)
include h

theorem toLower_adjustTagName (ns : Namespace) : (adjustTagName ns name).toLower = name := by
  obtain heq | heq := adjustTagName_cases ns name
  · rw [heq, h.toLower_eq]
  · exact heq

theorem toLower_adjustAttributeName (ns : Namespace) :
    (adjustAttributeName ns name).toLower = name := by
  obtain heq | heq := adjustAttributeName_cases ns name
  · rw [heq, h.toLower_eq]
  · exact heq

end Foreign

namespace TreeBuilder

open Hypertext.Tree

variable {b b' : TreeBuilder} {e : Element} {tag : Tag}

/-- The attributes of an element are those of its tag, each with its value, if none of them stand
for the same. -/
theorem attributesOf_adjusted (ns : Namespace) {attributes : List Attribute}
    (hlower : ∀ a ∈ attributes, NoCapitals a.name) (hnodup : (attributes.map (·.name)).Nodup) :
    (attributesOf (Foreign.adjustAttributes ns attributes)).map (fun a => (a.1.toLower, a.2)) =
      attributes.map fun a => (a.name, a.value) := by
  -- read without regard to case, the adjusted names are those of the tag, so they are
  -- still different
  have hnames : ((Foreign.adjustAttributes ns attributes).map (·.name)).map String.toLower =
      attributes.map (·.name) := by
    rw [Foreign.adjustAttributes, List.map_map, List.map_map]
    apply List.map_congr_left
    exact fun a ha => Foreign.toLower_adjustAttributeName (hlower a ha) ns
  have hadjusted : ((Foreign.adjustAttributes ns attributes).map (·.name)).Nodup := by
    apply List.Nodup.of_map String.toLower
    rw [hnames]
    exact hnodup
  rw [attributesOf_of_nodup hadjusted, Foreign.adjustAttributes, List.map_map, List.map_map]
  apply List.map_congr_left
  exact fun a ha => Prod.ext (Foreign.toLower_adjustAttributeName (hlower a ha) ns) rfl

/-! ## 2. The start tag -/

/-- The element that a start tag makes in foreign content. -/
def foreignElement (ns : Namespace) (tag : Tag) : Element where
  tagName := Foreign.adjustTagName ns tag.name
  ns := ns
  attributes := attributesOf (Foreign.adjustAttributes ns tag.attributes)

theorem exists_foreignStart (h : Anchored b.tree b.openElements) (he : b.currentElement? = some e)
    (hns : e.ns ≠ .html) (hclosing : tag.selfClosing = false) : ∃ id tree,
      b.foreignStart tag = { b with tree, openElements := id :: b.openElements } ∧
      b.tree.size ≤ id ∧ tree.element? id = some (foreignElement e.ns tag) := by
  have hne : (e.ns, Foreign.adjustTagName e.ns tag.name) ≠ (.html, "template") :=
    fun heq => hns (Prod.ext_iff.1 heq).1
  obtain ⟨id, tree, heq, hfresh, hmade⟩ :=
    exists_insertElement h (Foreign.adjustAttributes e.ns tag.attributes) hne
  refine ⟨id, tree, ?_, hfresh, hmade⟩
  simp only [foreignStart, he, insertForeign, hclosing]
  exact heq

/-! ## 3. The end tag -/

theorem usesMode_endTag (he : b.currentElement? = some e) (hns : e.ns ≠ .html) :
    b.usesMode (.endTag tag) = false := by
  have hadmits : admitsHtml e (.endTag tag) = false := rfl
  rw [usesMode, he]
  show (decide (e.ns = .html) || admitsHtml e (.endTag tag)) = false
  rw [hadmits, decide_eq_false hns, Bool.or_self]

/-- A name that only HTML has gets no element in foreign content, and the end tags that leave it
have such names. -/
theorem ne_of_breaksOut {other : Tag} (hbreak : breaksOut tag = false)
    (hname : other.name = tag.name) : ¬ (other.name = "br" ∨ other.name = "p") := by
  rw [hname]
  rintro (heq | heq) <;>
  · rw [breaksOut, heq] at hbreak
    cases hbreak

/-- The end tag closes the current node, if that has its name and is not the only one. -/
theorem foreignContent_endTag {id outer : NodeId} {stack : List NodeId}
    (hopen : b.openElements = id :: outer :: stack) (he : b.tree.element? id = some e)
    (hlower : e.tagName.toLower = tag.name) (hname : ¬ (tag.name = "br" ∨ tag.name = "p")) :
    b.foreignContent (.endTag tag) = { b with openElements := outer :: stack }.done := by
  have hpop : b.pop = { b with openElements := outer :: stack } := by
    rw [pop, hopen, List.tail_cons]
  have hhas : b.hasLowerName tag.name id = true := by
    rw [hasLowerName, he]
    exact beq_iff_eq.2 hlower
  rw [foreignContent, if_neg hname]
  split
  · rw [hpop]
  · -- the search starts at the current node, and ends there
    have hlength : b.openElements.length = stack.length + 2 := by rw [hopen]; rfl
    have hinner : b.openElements = [] ++ id :: outer :: stack := hopen
    have houter : b.openElements = [id] ++ outer :: stack := hopen
    have hat : b.openAt? (outer :: stack).length = some id := openAt?_eq hinner
    rw [List.length_cons] at hat
    have htarget : b.foreignEndTarget? tag.name (stack.length + 1) =
        some (.close (stack.length + 1)) := by
      simp only [foreignEndTarget?, hat, Option.bind_eq_bind, Option.bind_some, hhas, if_true]
      rfl
    have hcut : b.truncate (stack.length + 1) = { b with openElements := outer :: stack } :=
      truncate_eq houter
    have hquiet : b.reportIf (!b.hasLowerName tag.name id) .unexpectedEndTag = b := by
      rw [hhas]; rfl
    simp only [foreignEnd, hlength, Indexed.before?, foreignEndAt?, hat, hquiet, htarget,
      Option.bind_eq_bind, Option.bind_some, hcut]
    rfl

/-! ## 4. Both tags -/

/-- A token that foreign content is done with is dealt with. -/
theorem process_of_foreign {t : PositionedToken} (hs : b.stopped = false)
    (hchar : t.token ≠ .character '\n')
    (hforeign : b.usesMode t.token = false) (hdone : (b.receive t).foreignContent t.token = b'.done)
    (hclosing : b'.selfClosing = false) : b.process t = .ok b' := by
  have hrules : (b.receive t).rules t.token = b'.done := by
    rw [rules, if_neg]
    · exact hdone
    · show ¬ b.usesMode t.token = true
      rw [hforeign]
      exact Bool.false_ne_true
  have hskip : (b.skipNewline && decide (t.token = .character '\n')) = false := by simp [hchar]
  rw [process_eq b t hs, hskip, if_neg Bool.false_ne_true, dispatch_of_done hrules]
  -- no flag is left over
  obtain ⟨⟩ := b'
  cases hclosing
  rfl

/-- Once the input has ended, nothing is open. -/
theorem Reachable.running_of_current (h : Reachable b) (he : b.currentElement? = some e) :
    b.stopped = false ∧ Anchored b.tree b.openElements := by
  obtain hspine | hhalted := h.valid
  · exact ⟨hspine.running, hspine.planted.anchored⟩
  · rw [currentElement?, currentNode?, hhalted.openElements] at he
    cases he

/-- A start tag in foreign content opens an element of the namespace of the current one. Apart from
the case of letters, it has the name of the tag and its attributes, none of which is lost, and the
next end tag of that name closes it and leaves the stack as it was, without an error. -/
theorem paired_of_reachable (h : Reachable b) (he : b.currentElement? = some e) (hns : e.ns ≠ .html)
    (hname : NoCapitals tag.name) (hattributes : ∀ a ∈ tag.attributes, NoCapitals a.name)
    (hnodup : (tag.attributes.map (·.name)).Nodup) (hclosing : tag.selfClosing = false)
    (hforeign : b.usesMode (.startTag tag) = false) (hbreak : breaksOut tag = false)
    (position : Position) : ∃ b' id element, b.process ⟨.startTag tag, position⟩ = .ok b' ∧
      b'.openElements = id :: b.openElements ∧ b.tree.size ≤ id ∧
      b'.tree.element? id = some element ∧
      element.ns = e.ns ∧ element.tagName.toLower = tag.name ∧ element.attributes.names.Nodup ∧
      element.attributes.map (fun a => (a.1.toLower, a.2)) =
        tag.attributes.map (fun a => (a.name, a.value)) ∧
      ∀ other position', other.name = tag.name →
      ∃ b'', b'.process ⟨.endTag other, position'⟩ = .ok b'' ∧
        b''.openElements = b.openElements ∧ b''.errors = b'.errors := by
  obtain ⟨hs, hanchored⟩ := h.running_of_current he
  obtain ⟨x, stack, -, hopen, -, -⟩ := exists_foreign hforeign
  -- the start tag
  have hanchored' : Anchored (b.receive ⟨.startTag tag, position⟩).tree
      (b.receive ⟨.startTag tag, position⟩).openElements := hanchored
  obtain ⟨id, tree, hstart, hfresh, hmade⟩ := exists_foreignStart hanchored' he hns hclosing
  have hdone : (b.receive ⟨.startTag tag, position⟩).foreignContent (.startTag tag) =
      { b.receive ⟨.startTag tag, position⟩ with
        tree, openElements := id :: b.openElements }.done := by
    rw [foreignContent, if_neg (by rw [hbreak]; exact Bool.false_ne_true), hstart]
    rfl
  have hprocess := process_of_foreign hs (by simp) hforeign hdone hclosing
  refine ⟨_, id, foreignElement e.ns tag, hprocess, rfl, hfresh, hmade, rfl, ?_,
    nodup_attributesOf _, ?_, fun other position' hother => ?_⟩
  · exact Foreign.toLower_adjustTagName hname e.ns
  · exact attributesOf_adjusted e.ns hattributes hnodup
  · -- the end tag finds the new element on top of the stack
    have hcurrent : { b.receive ⟨.startTag tag, position⟩ with
        tree, openElements := id :: b.openElements }.currentElement? =
          some (foreignElement e.ns tag) := hmade
    have hlower : (foreignElement e.ns tag).tagName.toLower = other.name := by
      rw [hother]
      exact Foreign.toLower_adjustTagName hname e.ns
    have hend := foreignContent_endTag (b := { b.receive ⟨.startTag tag, position⟩ with
        tree, openElements := id :: b.openElements }.receive ⟨.endTag other, position'⟩)
      (congrArg (id :: ·) hopen) hmade hlower (ne_of_breaksOut hbreak hother)
    refine ⟨_, process_of_foreign hs (by simp) (usesMode_endTag hcurrent hns) hend rfl,
      hopen.symm, rfl⟩

/-- A tag that gets capitals in its name and in the name of an attribute. -/
def gradient : Tag where
  name := "lineargradient"
  attributes := [⟨"gradientunits", "userSpaceOnUse"⟩, ⟨"xlink:href", "#a"⟩]

theorem paired_gradient : ∃ b b' b'' id element, feed {} [.startTag { name := "svg" }] = .ok b ∧
    b.process ⟨.startTag gradient, .start⟩ = .ok b' ∧ b'.openElements = id :: b.openElements ∧
    b'.tree.element? id = some element ∧ element.ns = .svg ∧
    element.tagName.toLower = "lineargradient" ∧
    element.attributes.map (fun a => (a.1.toLower, a.2)) =
      [("gradientunits", "userSpaceOnUse"), ("xlink:href", "#a")] ∧
    b'.process ⟨.endTag { name := "lineargradient" }, .start⟩ = .ok b'' ∧
    b''.openElements = b.openElements ∧ b''.errors = b'.errors := by
  obtain ⟨b, hb, he, hforeign⟩ := exists_ok (feed {} [.startTag { name := "svg" }])
    (fun b => b.currentElement? = some { tagName := "svg", ns := .svg } ∧
      b.usesMode (.startTag gradient) = false)
    (by with_unfolding_all decide)
  have hr : Reachable b := .feed (.start false false) hb
  obtain ⟨b', id, element, hstart, hopen, -, helement, hns, hname, -, hattributes, hend⟩ :=
    paired_of_reachable hr he (by decide) (by decide) (by decide) (by decide) rfl hforeign
      (by decide) .start
  obtain ⟨b'', hprocess, hstack, herrors⟩ := hend { name := "lineargradient" } .start rfl
  exact ⟨b, b', b'', id, element, hb, hstart, hopen, helement, hns, hname, hattributes, hprocess,
    hstack, herrors⟩

end TreeBuilder

end Hypertext
