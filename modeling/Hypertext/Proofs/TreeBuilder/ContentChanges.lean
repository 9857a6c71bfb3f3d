import Hypertext.Proofs.TreeBuilder.Steps

/-!
# Changes that heed the content models

An element without content is inserted and closed again, a template comes with a mode of its own:
seen from what elements hold, such steps belong together. `ContentChange` is one change seen that
way, with what is known about the place that it is made from. A rule `ContentChanges` the content
models if its steps come in such changes.
-/

namespace Hypertext.TreeBuilder

open Hypertext.Tree

variable {token : Token} {mode : InsertionMode} {b b' a a' : TreeBuilder} {cs : List Char}

/-! ## 1. What a place takes -/

/-- The names of what may be open directly in the innermost part. -/
def region (b : TreeBuilder) : Option (List String) := regionNames b.templateModes b.bones

/-- Content of any kind may be put into this element, or where its content is put. -/
def Welcomes (b : TreeBuilder) (y : NodeId) : Prop :=
  Redirects b y ∨ b.tree.part? y = some .template ∨ (b.tree.part? y).bind Part.contents? = none

/-- The current node takes an element with this label, as far as its part shows. -/
structure Takes (b : TreeBuilder) (l : Namespace × String) : Prop where
  bottom : b.openElements = [] → l = (.html, "html")
  foster : ∀ y ∈ b.openElements.head?, Redirects b y → Flow l
  braced : Braced b b.openElements
  holds : ∀ y ∈ b.openElements.head?, ¬ Redirects b y → b.tree.part? y ≠ some .template →
    match (b.tree.part? y).bind Part.contents? with
    | some names => l.1 = .html ∧ l.2 ∈ names
    | none => Flow l ∨ l = (.html, "col") ∧ b.tree.part? y = none ∧
        b.region = some Category.formatting

/-- The element may stay open in the innermost part. What is put into a foreign element may: none is
open where not all may be. -/
def Suits (b : TreeBuilder) (l : Namespace × String) : Prop :=
  ∀ names, b.region = some names → partOf l = none → (l.1 = .html ∧ l.2 ∈ names) ∨
    ∃ y ∈ b.openElements.head?, ∃ l', b.tree.label? y = some l' ∧ l'.1 ≠ .html

/-- The element ends no paragraph, or none is open that it would end. -/
def Spares (b : TreeBuilder) (l : Namespace × String) : Prop :=
  l.1 = .html → l.2 ∈ Content.block → b.tree.mode ≠ .quirks → b.inScope .button "p" = false

/-- An element with this label may be opened here, to hold other elements. -/
structure Hosts (b : TreeBuilder) (l : Namespace × String) : Prop where
  mode : b.mode ≠ .text
  takes : Takes b l
  plain : l.1 = .html → l.2 ∉ Content.void ∧ l.2 ∉ Content.raw b.scripting
  suits : Suits b l
  spares : Spares b l

/-! ## 2. Changes -/

/-- Nothing is opened, and no node is put anywhere. -/
structure Eases (b b' : TreeBuilder) : Prop where
  parent : ∀ x p, b'.tree.parent? x = some p → b.tree.parent? x = some p
  outermost : ∀ x, b.tree.parent? x = some Tree.root → b'.tree.parent? x = some Tree.root
  /-- Only the body makes room for something else. -/
  stays : ∀ x, b.tree.label? x ≠ some (.html, "body") → b'.tree.parent? x = b.tree.parent? x
  label : ∀ x, b'.tree.label? x = b.tree.label? x
  fragment : ∀ f, b.tree.data? f = some .fragment → b'.tree.data? f = some .fragment
  text : ∀ x, b'.tree.text? x = b.tree.text? x
  documentMode : b'.tree.mode = b.tree.mode
  openElements : b'.openElements <:+ b.openElements
  templateModes : b'.templateModes <:+ b.templateModes
  scripting : b'.scripting = b.scripting
  fostering : b'.fostering = b.fostering
  /-- Raw text is left together with its element. -/
  mode : b.mode = .text → b'.mode = .text ∨ b'.openElements <:+ b.openElements.tail

/-- One change, with what the content models are about. -/
inductive ContentChange : TreeBuilder → TreeBuilder → Prop where
  | ease {b b' : TreeBuilder} (h : Eases b b') : ContentChange b b'
  | remove {b : TreeBuilder} {id : NodeId} {formatting : List FormattingEntry}
    (hid : ∃ name ∈ "form" :: Category.formatting, b.tree.label? id = some (.html, name)) :
    ContentChange b { b.removeOpen id with formatting }
  | dropHead {b : TreeBuilder} {inner : List NodeId} {head html : NodeId}
    (hopen : b.openElements = inner ++ [head, html])
    (hhead : b.tree.label? head = some (.html, "head"))
    (hhtml : b.tree.label? html = some (.html, "html")) : ContentChange b (b.removeOpen head)
  | pushHead {b : TreeBuilder} {head html : NodeId} (hopen : b.openElements = [html])
    (hhead : b.tree.label? head = some (.html, "head")) (hm : b.mode ≠ .text) :
    ContentChange b (b.push head)
  | insert {b : TreeBuilder} {name : String} {attributes : List Attribute} {ns : Namespace}
    {formatting : List FormattingEntry} {framesetOk : Bool} (h : Hosts b (ns, name)) :
    ContentChange b { b.insertElement name attributes ns with formatting, framesetOk }
  /-- A form between the parts of a table is closed at once, too. -/
  | void {b : TreeBuilder} {name : String} {attributes : List Attribute}
    (hname : name ∈ Content.void ∨ name = "form") (hm : b.mode ≠ .text) (ht : Takes b (.html, name))
    (hs : name = "form" ∨ b.region.isSome ∨ Spares b (.html, name)) :
    ContentChange b (b.insertElement name attributes .html).pop
  | startText {b : TreeBuilder} {name : String} {attributes : List Attribute}
    (hname : name ∈ Content.raw b.scripting) (hm : b.mode ≠ .text) (ht : Takes b (.html, name))
    (hs : Spares b (.html, name)) : ContentChange b { b.insertElement name attributes .html with
      resumeMode := some b.mode, mode := .text }
  | openTemplate {b : TreeBuilder} {attributes : List Attribute} {formatting : List FormattingEntry}
    {framesetOk : Bool} (hm : b.mode ≠ .text) (ht : Takes b (.html, "template"))
    (hcount : b.bones.count .template ≤ b.templateModes.length) :
    ContentChange b { b.insertElement "template" attributes .html with
      formatting, framesetOk, mode := .inTemplate, templateModes := .inTemplate :: b.templateModes }
  | retarget {b : TreeBuilder} {rest : List InsertionMode} (mode' : InsertionMode)
    (hmodes : b.templateModes = .inTemplate :: rest) (hm : b.mode ≠ .text) :
    ContentChange b { b with mode := mode', templateModes := mode' :: rest }
  | leaf {b : TreeBuilder} {data : NodeData} {place : Place}
    (hd : data.isComment = true ∨ data.isDoctype = true) (hp : PlacesLeaf b place)
    (hm : b.mode ≠ .text ∨ Outermost b place.parent) : ContentChange b { b with
      tree := (b.tree.alloc data).2.insertAt place.parent place.before b.tree.size }
  | setMode {b : TreeBuilder} (documentMode : DocumentMode) (hblank : ∀ x, b.tree.label? x = none) :
    ContentChange b { b with tree := b.tree.setMode documentMode }
  | adopt {b b' : TreeBuilder} {r : AgencyRound} (ha : Adopts b b' r) (hm : b.mode ≠ .text)
    (hw : ∀ y ∈ r.outer.head?, Welcomes b y) : ContentChange b b'

theorem ContentChange.settings (h : ContentChange b b') :
    b'.fostering = b.fostering ∧ b'.scripting = b.scripting := by
  cases h with
  | ease h => exact ⟨h.fostering, h.scripting⟩
  | @insert name attributes ns =>
    obtain ⟨tree, openElements, fault, heq⟩ := insertElement_same b name attributes ns
    rw [heq]
    exact ⟨rfl, rfl⟩
  | @void name attributes =>
    obtain ⟨tree, openElements, fault, heq⟩ := insertElement_same b name attributes .html
    rw [heq]
    exact ⟨rfl, rfl⟩
  | @startText name attributes =>
    obtain ⟨tree, openElements, fault, heq⟩ := insertElement_same b name attributes .html
    rw [heq]
    exact ⟨rfl, rfl⟩
  | @openTemplate attributes =>
    obtain ⟨tree, openElements, fault, heq⟩ := insertElement_same b "template" attributes .html
    rw [heq]
    exact ⟨rfl, rfl⟩
  | adopt ha =>
    rw [ha.rebuilt.same]
    exact ⟨rfl, rfl⟩
  | _ => exact ⟨rfl, rfl⟩

theorem ContentChange.fostering (h : ContentChange b b') : b'.fostering = b.fostering :=
  h.settings.1

theorem ContentChange.scripting (h : ContentChange b b') : b'.scripting = b.scripting :=
  h.settings.2

/-! ## 3. Rules -/

theorem Acts.trans {cs' : List Char} (h : Acts token mode b cs a) (h' : Acts token mode a cs' a') :
    Acts token mode b (cs ++ cs') a' := by
  induction h' with
  | refl => rwa [List.append_nil]
  | step _ s ih => exact ih.step s
  | char _ hp hb c ih =>
    rw [← List.append_assoc]
    exact ih.char hp hb c

theorem Acts.keeps (h : Acts token mode b cs a) (hb : Rooted b) : b.tree.Keeps a.tree := by
  induction h with
  | refl => exact .refl _
  | step h s ih => exact ih.trans (s.keeps (h.rooted hb))
  | char h _ _ c ih =>
    obtain ⟨tree, heq, e, -⟩ := insertChar_eq (h.rooted hb).anchored c
    rw [heq]
    exact ih.trans e.keeps

/-- A character that is not blank is not inserted directly between the parts of a table. -/
structure TakesChar (b : TreeBuilder) (c : Char) : Prop where
  holds : ∀ y ∈ b.openElements.head?, b.tree.part? y ∈ [some Part.table, some .rowGroup,
    some .row] → Redirects b y ∨ isSpace c = true
  braced : Braced b b.openElements

/-- Changes that heed the content models lead from `b` to another builder, and insert these
characters on the way. -/
inductive ContentChanges (token : Token) (mode : InsertionMode) (b : TreeBuilder) :
    List Char → TreeBuilder → Prop where
  | refl : ContentChanges token mode b [] b
  | step {cs : List Char} {a a' : TreeBuilder} (h : ContentChanges token mode b cs a)
    (s : Acts token mode a [] a') (d : ContentChange a a') : ContentChanges token mode b cs a'
  | char {cs : List Char} {a : TreeBuilder} (h : ContentChanges token mode b cs a)
    (hp : a.place.parent ≠ Tree.root) {c : Char} (hc : TakesChar a c) :
    ContentChanges token mode b (cs ++ [c]) (a.insertChar c)

namespace ContentChanges

theorem acts (h : ContentChanges token mode b cs a) : Acts token mode b cs a := by
  induction h with
  | refl => exact .refl
  | step _ s _ ih =>
    have h' := ih.trans s
    rwa [List.append_nil] at h'
  | char _ hp hc ih => exact ih.char hp hc.braced _

theorem rooted (h : ContentChanges token mode b cs a) (hb : Rooted b) : Rooted a := h.acts.rooted hb

theorem fostering (h : ContentChanges token mode b cs a) : a.fostering = b.fostering := by
  induction h with
  | refl => rfl
  | step _ _ d ih => exact d.fostering.trans ih
  | @char cs a _ _ c _ ih =>
    obtain ⟨tree, fault, heq⟩ := insertChar_same a c
    rw [heq]
    exact ih

theorem scripting (h : ContentChanges token mode b cs a) : a.scripting = b.scripting := by
  induction h with
  | refl => rfl
  | step _ _ d ih => exact d.scripting.trans ih
  | @char cs a _ _ c _ ih =>
    obtain ⟨tree, fault, heq⟩ := insertChar_same a c
    rw [heq]
    exact ih

end ContentChanges

end Hypertext.TreeBuilder
