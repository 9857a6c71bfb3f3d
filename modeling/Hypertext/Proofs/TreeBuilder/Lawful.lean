import Hypertext.Proofs.TreeBuilder.Ready
import Hypertext.TreeBuilder.Outcome

/-!
# What a rule may do

`Spine` is the invariant of tree construction: the mode fits the open elements. A rule is
`Lawful` if it keeps the invariant, hands a token on only where that can happen less often
afterwards, stops at the end of the input and nowhere else, and asks the tokenizer for another
state only for a start tag.
-/

namespace Hypertext.TreeBuilder

open Hypertext.Tree

/-! ## 1. The mode fits the open elements -/

/-- The modes that are read off the open elements. -/
def steadyModes : List InsertionMode :=
  [.beforeHead, .inHead, .afterHead, .inBody, .inTable, .inCaption, .inColumnGroup, .inTableBody,
   .inRow, .inCell, .inSelect, .inSelectInTable, .inTemplate, .inFrameset]

/-- Those of them that come in a body, a frameset or a template. -/
def innerModes : List InsertionMode :=
  [.inBody, .inTable, .inCaption, .inColumnGroup, .inTableBody, .inRow, .inCell, .inSelect,
   .inSelectInTable, .inTemplate, .inFrameset]

/-- An HTML element that is no part. -/
def Ordinary (t : Tree) (x : NodeId) : Prop :=
  ∃ name, t.label? x = some (.html, name) ∧ Part.ofName? name = none

/-- The open elements are in order, and the mode is that of the innermost part. -/
def Steady (t : Tree) (stack : List NodeId) (modes : List InsertionMode) (headSeen : Bool)
    (mode : InsertionMode) : Prop :=
  Framed t stack modes headSeen ∧ mode.kind = modeOf modes headSeen (t.bones stack)

/-- How the open elements look in a mode. Raw text and the text of a table come on top of one of the
other modes. -/
def Fits (t : Tree) (stack : List NodeId) (modes : List InsertionMode) (headSeen : Bool)
    (mode : InsertionMode) : Prop :=
  match mode with
  | .initial => stack = [] ∧ modes = [] ∧ headSeen = false ∧ t.skeleton.content = []
  | .beforeHtml => stack = [] ∧ modes = [] ∧ headSeen = false ∧ t.documentElement? = none
  | .inHeadNoscript =>
    ∃ x outer, stack = x :: outer ∧ Ordinary t x ∧ Steady t outer modes headSeen .inHead
  | .afterBody | .afterAfterBody =>
    Framed t stack modes headSeen ∧ t.bones stack = [.body, .html]
  | .afterFrameset | .afterAfterFrameset =>
    t.bones stack = [.html] ∧ modes = [] ∧ headSeen = true ∧ t.skeleton.bodies ≠ []
  | .text | .inTableText => False
  | mode => Steady t stack modes headSeen mode

/-- The mode fits the open elements, whatever it is. -/
def Standing (t : Tree) (stack : List NodeId) (modes : List InsertionMode) (headSeen : Bool)
    (resume : Option InsertionMode) (mode : InsertionMode) : Prop :=
  match mode with
  | .text => ∃ mode x outer, resume = some mode ∧ stack = x :: outer ∧ Ordinary t x ∧
      Fits t outer modes headSeen mode
  | .inTableText => ∃ mode ∈ [InsertionMode.inTable, .inTableBody, .inRow],
      resume = some mode ∧ Steady t stack modes headSeen mode
  | mode => Fits t stack modes headSeen mode

/-- The invariant of tree construction. -/
structure Spine (b : TreeBuilder) : Prop extends Sound b where
  standing : Standing b.tree b.openElements b.templateModes b.headElement.isSome b.resumeMode b.mode

section Fits

variable {t : Tree} {stack : List NodeId} {modes : List InsertionMode} {headSeen : Bool}
  {resume : Option InsertionMode} {mode : InsertionMode}

theorem fits_iff (hm : mode ∈ steadyModes) :
    Fits t stack modes headSeen mode ↔ Steady t stack modes headSeen mode := by
  cases mode <;> first | exact Iff.rfl | simp [steadyModes] at hm

theorem standing_iff (hm : mode ≠ .text ∧ mode ≠ .inTableText) :
    Standing t stack modes headSeen resume mode ↔ Fits t stack modes headSeen mode := by
  cases mode <;> first | exact Iff.rfl | simp at hm

theorem standing_iff_steady (hm : mode ∈ steadyModes) :
    Standing t stack modes headSeen resume mode ↔ Steady t stack modes headSeen mode := by
  cases mode <;> first | exact Iff.rfl | simp [steadyModes] at hm

/-- There are at least as many open elements as modes of templates. -/
theorem Framed.length_le (h : Framed t stack modes headSeen) : modes.length ≤ stack.length :=
  Nat.le_trans h.frame.length_le (List.length_filterMap_le _ _)

theorem Fits.length_le (h : Fits t stack modes headSeen mode) : modes.length ≤ stack.length := by
  unfold Fits at h
  split at h
  · simp [h.2.1]
  · simp [h.2.1]
  · obtain ⟨x, outer, rfl, -, h⟩ := h
    exact Nat.le_succ_of_le h.1.length_le
  · exact h.1.length_le
  · exact h.1.length_le
  · simp [h.2.1]
  · simp [h.2.1]
  · exact h.elim
  · exact h.elim
  · exact h.1.length_le

theorem Standing.length_le (h : Standing t stack modes headSeen resume mode) :
    modes.length ≤ stack.length := by
  unfold Standing at h
  split at h
  · obtain ⟨_, x, outer, -, rfl, -, h⟩ := h
    exact Nat.le_succ_of_le h.length_le
  · obtain ⟨_, -, -, h⟩ := h
    exact h.1.length_le
  · exact h.length_le

end Fits

variable {b b' : TreeBuilder} {token : Token}

theorem Spine.steady (h : Spine b) (hm : b.mode ∈ steadyModes) :
    Steady b.tree b.openElements b.templateModes b.headElement.isSome b.mode :=
  (standing_iff_steady hm).1 h.standing

theorem Steady.begun {mode : InsertionMode}
    (h : Steady b.tree b.openElements b.templateModes b.headElement.isSome mode)
    (hm : mode ≠ .beforeHead) : Begun b := by
  refine ⟨?_, fun hnil => h.1.frame.ne_nil (by rw [hnil]; rfl)⟩
  by_cases hb : b.tree.bones b.openElements = [.html]
  · have hkind := h.2
    rw [hb] at hkind
    cases hseen : b.headElement.isSome with
    | true => rfl
    | false =>
      rw [hseen] at hkind
      revert hkind hm
      cases mode <;> simp [modeOf, InsertionMode.kind]
  · exact h.1.furnished.head hb

/-- The head has been seen in every mode that comes after it. -/
theorem Spine.begun (h : Spine b)
    (hm : b.mode ∉ [InsertionMode.initial, .beforeHtml, .beforeHead, .text]) : Begun b := by
  have hs := h.standing
  have hframed : Framed b.tree b.openElements b.templateModes b.headElement.isSome →
      b.bones = [.body, .html] → Begun b := by
    intro hf hb
    refine ⟨hf.furnished.head ?_, fun hnil => hf.frame.ne_nil (by rw [hnil]; rfl)⟩
    change b.bones ≠ _
    rw [hb]
    simp
  have hafter : b.bones = [.html] → b.headElement.isSome = true → Begun b := fun hb hseen =>
    ⟨hseen, fun hnil => by rw [bones, hnil] at hb; cases hb⟩
  revert hs hm
  cases b.mode <;> simp only [Standing, Fits, List.mem_cons, List.not_mem_nil,
    reduceCtorEq, or_false, or_true, not_true_eq_false, not_false_eq_true, false_implies,
    true_implies]
  -- the mode that is resumed is one of those of a table
  case inTableText =>
    rintro ⟨mode, hmode, -, hs⟩
    exact hs.begun (by rintro rfl; simp at hmode)
  case inHeadNoscript =>
    rintro ⟨x, outer, hopen, -, hs⟩
    -- the outer elements are those of the head, so there is more than the document element
    have hb : b.tree.bones outer ≠ [.html] := by
      intro hb
      have hkind := hs.2
      rw [hb] at hkind
      cases hseen : b.headElement.isSome <;> simp [hseen, modeOf, InsertionMode.kind] at hkind
    exact ⟨hs.1.furnished.head hb, by rw [hopen]; simp⟩
  case afterBody => exact fun hs => hframed hs.1 hs.2
  case afterAfterBody => exact fun hs => hframed hs.1 hs.2
  case afterFrameset => exact fun hs => hafter hs.1 hs.2.2.1
  case afterAfterFrameset => exact fun hs => hafter hs.1 hs.2.2.1
  all_goals exact fun hs => Steady.begun hs (by simp)

/-- Plain changes do not take that back. -/
theorem Spine.begun_of_plain (h : Spine b) (p : Plain b b') (hm : b.mode ∈ innerModes) :
    Begun b' := by
  have hs := h.steady (by revert hm; cases b.mode <;> simp [innerModes, steadyModes])
  refine ⟨?_, fun hnil => hs.1.frame.ne_nil ?_⟩
  · rw [p.same.head]
    exact (hs.begun (by rintro he; simp [he, innerModes] at hm)).head
  · have hbones : b'.tree.bones b'.openElements = b.tree.bones b.openElements := p.same.bones
    rw [← hbones, hnil]
    rfl

/-- With no template open, a body or a frameset is. -/
theorem Steady.bodies_ne_nil {t : Tree} {stack : List NodeId} {modes : List InsertionMode}
    {headSeen : Bool} {mode : InsertionMode} (h : Steady t stack modes headSeen mode)
    (hm : mode ∈ innerModes) (hclosed : .template ∉ t.bones stack) : t.skeleton.bodies ≠ [] := by
  have hkind := h.2
  have hbody : .body ∈ t.bones stack ∨ .frameset ∈ t.bones stack := by
    refine h.1.frame.body_mem hclosed ?_ ?_ <;> intro hb <;> rw [hb] at hkind <;>
      revert hm hkind <;> cases mode <;> cases headSeen <;>
      simp [innerModes, modeOf, InsertionMode.kind]
  intro hnil
  obtain ⟨hno, hno'⟩ := h.1.furnished.body.1 hnil
  exact hbody.elim hno hno'

/-! ## 2. How often a token is handed on -/

/-- What matters about a token, other than the end of the input, for where it is handed on to. -/
inductive Course where
  | cell
  | row
  | column
  | table
  | htmlEnd
  | char
  | other
deriving DecidableEq

/-- The course of a start tag of this name. -/
def Course.ofName (name : String) : Course :=
  if name = "td" ∨ name = "th" then .cell
  else if name = "tr" then .row
  else if name = "col" then .column
  else if name = "table" then .table
  else .other

def Course.of : Token → Course
  | .startTag tag => .ofName tag.name
  | .endTag tag => if tag.name = "html" then .htmlEnd else .other
  | .character _ => .char
  | _ => .other

/-- How many modes a token can still be handed on through. The way into the document goes by the
modes before the body; in a table it goes to the part that the token belongs to. -/
def modeRank (course : Course) : InsertionMode → Nat
  | .initial => 6
  | .beforeHtml => 5
  | .beforeHead | .inHeadNoscript => 4
  | .inHead => 3
  | .afterHead | .afterAfterBody => 2
  | .inBody => if course = .htmlEnd then 1 else 0
  | .afterBody => if course = .htmlEnd then 0 else 1
  | .inTable => match course with
    | .cell => 2
    | .row | .column | .table | .char => 1
    | _ => 0
  | .inTableText => if course = .char then 0 else 4
  | .inCaption => match course with
    | .cell => 3
    | .row | .column => 2
    | .table | .char => 0
    | _ => 1
  | .inColumnGroup => match course with
    | .cell => 3
    | .row | .table | .char => 2
    | .column => 0
    | _ => 1
  | .inTableBody => match course with
    | .row => 0
    | .column => 2
    | _ => 1
  | .inRow => match course with
    | .cell => 0
    | .row | .table | .char => 1
    | .column => 3
    | _ => 2
  | .inCell => match course with
    | .cell => 1
    | .row => 2
    | .column => 4
    | .table | .char => 0
    | _ => 3
  | .inSelect | .inSelectInTable => 5
  | .inTemplate => 1
  | .text | .inFrameset | .afterFrameset | .afterAfterFrameset => 0

/-- How many modes the end of the input is handed on through before the body is left. -/
def endRank : InsertionMode → Nat
  | .text => 6
  | .initial => 5
  | .beforeHtml => 4
  | .beforeHead | .inHeadNoscript => 3
  | .inHead => 2
  | .afterHead | .inTableText => 1
  | _ => 0

/-- How often a token can still be handed on. A misspelt image tag is handed on once
for its name. -/
def rank (b : TreeBuilder) (token : Token) : Nat :=
  match token with
  | .endOfFile => 4 * b.templateModes.length + endRank b.mode
  | .startTag tag => 2 * modeRank (.ofName tag.name) b.mode + if tag.name = "image" then 1 else 0
  | token => 2 * modeRank (.of token) b.mode

/-- The token that is handed on is the one that came, or the image tag that was meant. -/
def Follows (token token' : Token) : Prop :=
  token' = token ∨ ∃ tag, token = .startTag tag ∧ tag.name = "image" ∧
    token' = .startTag { tag with name := "img" }

/-! ## 3. Lawful rules -/

/-- Nothing is open any more, and the skeleton of the document is complete. -/
structure Halted (b : TreeBuilder) : Prop where
  planted : Planted b.tree [] b.headElement
  form : ∀ f, b.formElement = some f → b.tree.label? f = some (.html, "form")
  intact : b.fault = false
  stopped : b.stopped = true
  openElements : b.openElements = []
  formatting : b.formatting = []
  templateModes : b.templateModes = []
  head : b.headElement.isSome = true
  bodies : b.tree.skeleton.bodies ≠ []

/-- A start tag has made the tokenizer go on in another state: as raw text for the content of the
element, or as plain text for all the rest. -/
inductive Request (b : TreeBuilder) (tag : Tag) : Prop where
  | text (kind : RawText) (x : NodeId) (outer : List NodeId) (mode : b.mode = .text)
    (request : b.stateRequest = some (.text kind)) (stack : b.openElements = x :: outer)
    (label : b.tree.label? x = some (.html, tag.name)) (name : tag.name ≠ "img")
  | plaintext (mode : b.mode ≠ .text) (request : b.stateRequest = some .plaintext)
    (name : tag.name = "plaintext")

theorem Request.stateRequest_cases (h : Request b tag) :
    b.stateRequest = some .plaintext ∨ ∃ kind, b.stateRequest = some (.text kind) := by
  cases h with
  | text kind x outer mode request stack label name => exact Or.inr ⟨kind, request⟩
  | plaintext mode request name => exact Or.inl request

/-- The tokenizer is asked for nothing, and raw text goes on only in the element it is in. -/
structure Quiet (b b' : TreeBuilder) : Prop where
  request : b'.stateRequest = b.stateRequest
  text : b'.mode = .text → b.mode = .text ∧ b'.openElements = b.openElements ∧
    b.tree.Keeps b'.tree

/-- What a rule of a mode makes of a token. -/
structure Lawful (b : TreeBuilder) (token : Token) (o : Outcome) : Prop where
  next : match o.next with
    | .done => (token ≠ .endOfFile → Spine o.builder) ∧ (token = .endOfFile → Halted o.builder)
    | .reprocess token' =>
      Spine o.builder ∧ Follows token token' ∧ o.builder.rank token' < b.rank token
    | .byMode _ => False
  asks : Quiet b o.builder ∨
    ∃ tag, token = .startTag tag ∧ o.next = .done ∧ Request o.builder tag

/-- A rule that tests the token or the state is lawful if both ways are. -/
theorem Lawful.ite {c : Prop} [Decidable c] {o o' : Outcome} (h : c → Lawful b token o)
    (h' : ¬ c → Lawful b token o') : Lawful b token (if c then o else o') :=
  iteInduction (motive := Lawful b token) h h'

/-! ## 4. Keeping the mode -/

section Keeps

variable {t t' : Tree} {stack : List NodeId} {modes : List InsertionMode} {headSeen : Bool}
  {resume : Option InsertionMode} {mode : InsertionMode}

theorem Ordinary.keeps {x : NodeId} (h : Ordinary t x) (hk : t.Keeps t') : Ordinary t' x := by
  obtain ⟨name, hl, hn⟩ := h
  exact ⟨name, hk x _ hl, hn⟩

theorem Ordinary.part {x : NodeId} (h : Ordinary t x) : t.part? x = none := by
  obtain ⟨name, hl, hn⟩ := h
  exact (part?_of_label hl).trans hn

theorem Framed.keeps (h : Framed t stack modes headSeen) (hk : t.Keeps t')
    (hs : t'.skeleton = t.skeleton) (hl : ∀ x ∈ stack, (t.label? x).isSome) :
    Framed t' stack modes headSeen :=
  ⟨by rw [hk.bones hl]; exact h.frame, hk.seated hl h.seated,
    by rw [hk.bones hl, hs]; exact h.furnished⟩

theorem Steady.keeps (h : Steady t stack modes headSeen mode) (hk : t.Keeps t')
    (hs : t'.skeleton = t.skeleton) (hl : ∀ x ∈ stack, (t.label? x).isSome) :
    Steady t' stack modes headSeen mode :=
  ⟨h.1.keeps hk hs hl, by rw [hk.bones hl]; exact h.2⟩

theorem Fits.keeps (h : Fits t stack modes headSeen mode) (hk : t.Keeps t')
    (hs : t'.skeleton = t.skeleton) (hl : ∀ x ∈ stack, (t.label? x).isSome) :
    Fits t' stack modes headSeen mode := by
  unfold Fits at *
  split at h
  · rw [hs]
    exact h
  · rw [show t'.documentElement? = t.documentElement? from congrArg Skeleton.html hs]
    exact h
  · obtain ⟨x, outer, rfl, hx, h⟩ := h
    exact ⟨x, outer, rfl, hx.keeps hk, h.keeps hk hs fun y hy => hl y (List.mem_cons_of_mem _ hy)⟩
  · exact ⟨h.1.keeps hk hs hl, by rw [hk.bones hl]; exact h.2⟩
  · exact ⟨h.1.keeps hk hs hl, by rw [hk.bones hl]; exact h.2⟩
  · rw [hs, hk.bones hl]
    exact h
  · rw [hs, hk.bones hl]
    exact h
  · exact h
  · exact h
  · exact Steady.keeps h hk hs hl

theorem Standing.keeps (h : Standing t stack modes headSeen resume mode) (hk : t.Keeps t')
    (hs : t'.skeleton = t.skeleton) (hl : ∀ x ∈ stack, (t.label? x).isSome) :
    Standing t' stack modes headSeen resume mode := by
  unfold Standing at *
  split at h
  · obtain ⟨mode, x, outer, hr, rfl, hx, h⟩ := h
    exact ⟨mode, x, outer, hr, rfl, hx.keeps hk,
      h.keeps hk hs fun y hy => hl y (List.mem_cons_of_mem _ hy)⟩
  · obtain ⟨mode, hm, hr, h⟩ := h
    exact ⟨mode, hm, hr, h.keeps hk hs hl⟩
  · exact h.keeps hk hs hl

end Keeps

section Update

variable (fostering skipNewline selfClosing : Bool) (stateRequest : Option Tokenizer.State)
  (position : Position) (errors : ErrorLog)

/-- What tree construction does not look at may change. -/
theorem Spine.update (h : Spine b) :
    Spine { b with fostering, skipNewline, selfClosing, stateRequest, position, errors } :=
  ⟨⟨h.planted, h.named, h.form, h.frameset, h.running, h.intact⟩, h.standing⟩

theorem Halted.update (h : Halted b) :
    Halted { b with fostering, skipNewline, selfClosing, stateRequest, position, errors } :=
  ⟨h.planted, h.form, h.intact, h.stopped, h.openElements, h.formatting, h.templateModes, h.head,
    h.bodies⟩

end Update

/-- A change that closes and opens nothing keeps the invariant in every mode. -/
theorem Spine.still (h : Spine b) (p : Plain b b') (hopen : b'.openElements = b.openElements) :
    Spine b' := by
  refine ⟨p.sound, ?_⟩
  rw [hopen, p.same.modes, p.same.head, p.same.resume, p.same.mode]
  exact h.standing.keeps p.same.keeps p.same.skeleton h.planted.element

theorem Steady.plain {mode : InsertionMode}
    (h : Steady b.tree b.openElements b.templateModes b.headElement.isSome mode) (p : Plain b b') :
    Steady b'.tree b'.openElements b'.templateModes b'.headElement.isSome mode := by
  refine ⟨p.framed h.1, ?_⟩
  have hbones : b'.tree.bones b'.openElements = b.tree.bones b.openElements := p.same.bones
  rw [hbones, p.same.modes, p.same.head]
  exact h.2

/-- A plain change keeps the invariant, where elements above the innermost part do not matter. -/
theorem Spine.plain (h : Spine b) (p : Plain b b')
    (hm : b.mode ∉ [InsertionMode.initial, .beforeHtml, .inHeadNoscript, .text]) : Spine b' := by
  refine ⟨p.sound, ?_⟩
  have hs := h.standing
  have hbones : b'.tree.bones b'.openElements = b.tree.bones b.openElements := p.same.bones
  rw [p.same.mode, p.same.resume]
  revert hs hm
  cases b.mode <;> simp only [Standing, Fits, List.mem_cons, List.not_mem_nil,
    reduceCtorEq, or_false, or_true, not_true_eq_false, not_false_eq_true, false_implies,
    true_implies]
  case inTableText =>
    rintro ⟨mode, hmode, hr, hs⟩
    exact ⟨mode, hmode, hr, hs.plain p⟩
  case afterBody => exact fun hs => ⟨p.framed hs.1, hbones.trans hs.2⟩
  case afterAfterBody => exact fun hs => ⟨p.framed hs.1, hbones.trans hs.2⟩
  case afterFrameset =>
    rw [hbones, p.same.modes, p.same.head, p.same.skeleton]
    exact id
  case afterAfterFrameset =>
    rw [hbones, p.same.modes, p.same.head, p.same.skeleton]
    exact id
  all_goals exact fun hs => Steady.plain hs p

/-! ## 5. Outcomes -/

theorem Plain.quiet (p : Plain b b') (hm : b.mode ≠ .text) : Quiet b b' :=
  ⟨p.same.request, fun hm' => absurd (p.same.mode ▸ hm') hm⟩

/-- Nothing is asked for, and the text of an element is not what comes next. -/
theorem quiet_of_ne (hr : b'.stateRequest = b.stateRequest) (hm : b'.mode ≠ .text) : Quiet b b' :=
  ⟨hr, fun hm' => absurd hm' hm⟩

/-- The tokenizer is asked to go on in another state. -/
theorem lawful_request {tag : Tag} (h : Spine b') (hr : Request b' tag) :
    Lawful b (.startTag tag) b'.done :=
  ⟨⟨fun _ => h, by simp⟩, Or.inr ⟨tag, rfl, rfl, hr⟩⟩

theorem Request.still {tag : Tag} (hr : Request b tag) (p : Plain b b')
    (hopen : b'.openElements = b.openElements) : Request b' tag := by
  cases hr with
  | text kind x outer mode request stack label name =>
    exact .text kind x outer (p.same.mode.trans mode) (p.same.request.trans request)
      (hopen.trans stack) (p.same.keeps x _ label) name
  | plaintext mode request name =>
    exact .plaintext (p.same.mode ▸ mode) (p.same.request.trans request) name

theorem lawful_done (h : Spine b') (ht : token ≠ .endOfFile) (hq : Quiet b b') :
    Lawful b token b'.done :=
  ⟨⟨fun _ => h, fun he => absurd he ht⟩, Or.inl hq⟩

theorem lawful_reprocess (h : Spine b') (hr : b'.rank token < b.rank token) (hq : Quiet b b') :
    Lawful b token (b'.reprocess token) := ⟨⟨h, Or.inl rfl, hr⟩, Or.inl hq⟩

/-- Something is inserted, or an error recorded, and nothing opened or closed. -/
theorem lawful_still (h : Spine b) (p : Plain b b') (hopen : b'.openElements = b.openElements)
    (ht : token ≠ .endOfFile) : Lawful b token b'.done := by
  refine lawful_done (h.still p hopen) ht ⟨p.same.request, fun hm => ?_⟩
  exact ⟨p.same.mode ▸ hm, hopen, p.same.keeps⟩

theorem lawful_refuse (h : Spine b) (kind : ErrorKind) (ht : token ≠ .endOfFile) :
    Lawful b token (b.refuse kind) := lawful_still h (plain_report h.toSound kind) rfl ht

theorem lawful_insertChar (h : Spine b) (c : Char) :
    Lawful b (.character c) (b.insertChar c).done := by
  refine lawful_still h (plain_insertChar h.toSound c) ?_ (by simp)
  obtain ⟨tree, hb, -⟩ := insertChar_eq h.planted.anchored c
  rw [hb]

theorem lawful_insertComment (h : Spine b) (data : String) :
    Lawful b (.comment data) (b.insertComment data).done := by
  refine lawful_still h (plain_insertComment h.toSound data) ?_ (by simp)
  obtain ⟨tree, hb, -⟩ := insertComment_eq h.planted.anchored data
  rw [hb]

theorem lawful_insertCommentIn (h : Spine b) {parent : NodeId} (hp : parent < b.tree.size)
    (data : String) : Lawful b (.comment data) (b.insertCommentIn parent data).done := by
  refine lawful_still h (plain_insertCommentIn h.toSound hp data) ?_ (by simp)
  obtain ⟨tree, hb, -⟩ := insertCommentIn_eq h.planted.forest hp data
  rw [hb]

theorem lawful_insertVoid (h : Spine b) (hb : Begun b) {tag : Tag}
    (hname : Part.ofName? tag.name = none) : Lawful b (.startTag tag) (b.insertVoid tag).done := by
  refine lawful_still h (plain_insertVoid h.toSound hb hname) ?_ (by simp)
  obtain ⟨id, tree, hb, -⟩ := insertElement_eq h.planted.anchored tag.name tag.attributes .html
  rw [insertVoid, insertHtml, hb]
  rfl

theorem lawful_plain (h : Spine b) (p : Plain b b')
    (hm : b.mode ∉ [InsertionMode.initial, .beforeHtml, .inHeadNoscript, .text])
    (ht : token ≠ .endOfFile) : Lawful b token b'.done :=
  lawful_done (h.plain p hm) ht (p.quiet (by rintro hm'; simp [hm'] at hm))

/-- The end of the input stops tree construction, when head and body are there. -/
theorem lawful_stop (h : Sound b') (hhead : b'.headElement.isSome = true)
    (hbodies : b'.tree.skeleton.bodies ≠ []) (hq : Quiet b b') (hm : b'.mode ≠ .text) :
    Lawful b .endOfFile b'.stop.done := by
  have hhalted : Halted b'.stop :=
    ⟨h.planted.sublist (List.nil_sublist _), h.form, h.intact, rfl, rfl, rfl, rfl, hhead, hbodies⟩
  exact ⟨⟨by simp, fun _ => hhalted⟩, Or.inl ⟨hq.request, fun ht => absurd ht hm⟩⟩

theorem Quiet.trans {b'' : TreeBuilder} (h : Quiet b b') (h' : Quiet b' b'') : Quiet b b'' := by
  refine ⟨h'.request.trans h.request, fun hm => ?_⟩
  obtain ⟨hm', hopen', hk'⟩ := h'.text hm
  obtain ⟨hm, hopen, hk⟩ := h.text hm'
  exact ⟨hm, hopen'.trans hopen, hk.trans hk'⟩

theorem rank_congr (hmode : b'.mode = b.mode) (hmodes : b'.templateModes = b.templateModes) :
    b'.rank token = b.rank token := by
  unfold rank
  rw [hmode, hmodes]

/-- A rule may begin with a plain change. -/
theorem Lawful.of_plain {o : Outcome} (h : Lawful b' token o) (p : Plain b b')
    (hm : b.mode ≠ .text) : Lawful b token o := by
  refine ⟨?_, h.asks.imp (p.quiet hm).trans id⟩
  have hnext := h.next
  rw [rank_congr p.same.mode p.same.modes] at hnext
  exact hnext

/-- A token other than the end of the input is handed on less often from a mode of lower rank. -/
theorem rank_lt_of_modeRank (ht : token ≠ .endOfFile)
    (hr : modeRank (.of token) b'.mode < modeRank (.of token) b.mode) :
    b'.rank token < b.rank token := by
  cases token with
  | endOfFile => exact absurd rfl ht
  | startTag tag =>
    have hr : modeRank (.ofName tag.name) b'.mode < modeRank (.ofName tag.name) b.mode := hr
    simp only [rank]
    omega
  | endTag tag => simp only [rank]; omega
  | character c => simp only [rank]; omega
  | comment data => simp only [rank]; omega
  | doctype d => simp only [rank]; omega

theorem rank_lt (hmodes : b'.templateModes = b.templateModes)
    (he : endRank b'.mode < endRank b.mode)
    (hr : modeRank (.of token) b'.mode < modeRank (.of token) b.mode) :
    b'.rank token < b.rank token := by
  by_cases ht : token = .endOfFile
  · subst ht
    simp only [rank, hmodes]
    omega
  · exact rank_lt_of_modeRank ht hr

/-! ## 6. Switching the mode -/

theorem Sound.switchTo (h : Sound b) (mode : InsertionMode) : Sound (b.switchTo mode) :=
  ⟨h.planted, h.named, h.form, h.frameset, h.running, h.intact⟩

theorem Sound.pop (h : Sound b) : Sound b.pop := h.sublist (List.tail_sublist _)

theorem Steady.mem {t : Tree} {stack : List NodeId} {modes : List InsertionMode} {headSeen : Bool}
    {mode : InsertionMode} (h : Steady t stack modes headSeen mode) : mode ∈ steadyModes := by
  obtain ⟨p, rest, -, hp⟩ := h.1.frame.exists_innermost headSeen
  rw [← h.2] at hp
  revert hp
  cases mode <;> simp [Frame.innermost, InsertionMode.kind, steadyModes]

/-- The parts that may be innermost in a mode are those that the mode is read off. -/
theorem Steady.innermost {t : Tree} {stack : List NodeId} {modes : List InsertionMode}
    {headSeen : Bool} {mode : InsertionMode} (h : Steady t stack modes headSeen mode) :
    ∃ p rest, t.bones stack = p :: rest ∧ p ∈ Frame.innermost mode.kind := by
  rw [h.2]
  exact h.1.frame.exists_innermost headSeen

theorem Steady.bones_eq {t : Tree} {stack : List NodeId} {modes : List InsertionMode}
    {headSeen : Bool} {mode : InsertionMode} {p : Part} (h : Steady t stack modes headSeen mode)
    (hp : Frame.innermost mode.kind = [p]) : ∃ rest, t.bones stack = p :: rest := by
  obtain ⟨q, rest, hb, hq⟩ := h.innermost
  rw [hp, List.mem_singleton] at hq
  exact ⟨rest, hq ▸ hb⟩

theorem spine_of_steady (h : Sound b)
    (hs : Steady b.tree b.openElements b.templateModes b.headElement.isSome b.mode) : Spine b :=
  ⟨h, (standing_iff_steady hs.mem).2 hs⟩

theorem Fits.standing {t : Tree} {stack : List NodeId} {modes : List InsertionMode}
    {headSeen : Bool} {resume : Option InsertionMode} {mode : InsertionMode}
    (h : Fits t stack modes headSeen mode) : Standing t stack modes headSeen resume mode := by
  cases mode
  case text => exact h.elim
  case inTableText => exact h.elim
  all_goals exact h

theorem spine_switchTo (h : Sound b) {mode : InsertionMode}
    (hs : Steady b.tree b.openElements b.templateModes b.headElement.isSome mode) :
    Spine (b.switchTo mode) :=
  spine_of_steady (h.switchTo mode) hs

/-- The mode that is found by a search fits the open elements. -/
theorem Framed.steady (h : Framed b.tree b.openElements b.templateModes b.headElement.isSome) :
    Steady b.tree b.openElements b.templateModes b.headElement.isSome b.appropriateMode :=
  ⟨h, kind_modeFor h.frame.lone⟩

theorem spine_resetMode (h : Sound b)
    (hf : Framed b.tree b.openElements b.templateModes b.headElement.isSome) : Spine b.resetMode :=
  spine_switchTo h hf.steady

/-- Modes in which content of any kind may come. -/
def bodyModes : List InsertionMode := [.inBody, .inTable, .inCaption, .inTableBody, .inRow, .inCell]

/-- The modes between the parts of a table. -/
def tableModes : List InsertionMode := [.inTable, .inTableBody, .inRow]

theorem ready_of_steady (h : Sound b) {mode : InsertionMode}
    (hs : Steady b.tree b.openElements b.templateModes b.headElement.isSome mode)
    (hm : mode ∈ .inTemplate :: bodyModes) : Ready b := by
  have hall : ∀ mode ∈ .inTemplate :: bodyModes, ∀ p ∈ Frame.innermost mode.kind,
      p ∈ Part.content := by decide
  obtain ⟨p, rest, hb, hp⟩ := hs.innermost
  exact ⟨h, hs.1, p, rest, hb, hall mode hm p hp⟩

theorem Spine.ready (h : Spine b) (hm : b.mode ∈ .inTemplate :: bodyModes) : Ready b := by
  refine ready_of_steady h.toSound (h.steady ?_) hm
  revert hm
  cases b.mode <;> simp [bodyModes, steadyModes]

theorem ne_text_of_steady : ∀ mode ∈ steadyModes, mode ≠ .text := by decide

theorem mem_steadyModes_of_innerModes : ∀ mode ∈ innerModes, mode ∈ steadyModes := by decide

theorem mem_innerModes_of_bodyModes : ∀ mode ∈ bodyModes, mode ∈ innerModes := by decide

theorem mem_steadyModes_of_bodyModes : ∀ mode ∈ bodyModes, mode ∈ steadyModes := by decide

/-! ## 7. Opening elements -/

section Pushed

variable {l : Namespace × String} (h : Sound b) (p : Pushed b b' l)
include h p

/-- A part is opened. -/
theorem Pushed.framed {q : Part} (hl : partOf l = some q) (hseat : Seated b.tree b.openElements)
    (hframe : Frame (q :: b.bones) b.templateModes)
    (hfurnished : Furnished (q :: b.bones) b.headElement.isSome b.tree.skeleton.bodies)
    (hsits : ∀ y ∈ b.openElements.head?, Sits (some q) (b.tree.part? y)) :
    Framed b'.tree b'.openElements b'.templateModes b'.headElement.isSome := by
  have hbones : b'.tree.bones b'.openElements = q :: b.bones := by
    have := p.bones h
    rwa [hl] at this
  have hmodes : b'.templateModes = b.templateModes := by rw [p.same]
  have hseen : b'.headElement = b.headElement := by rw [p.same]
  refine ⟨?_, p.seated h hseat (hl ▸ hsits), ?_⟩
  · rw [hbones, hmodes]
    exact hframe
  · rw [hbones, hseen, p.skeleton]
    exact hfurnished

/-- A part of a table, or a select element, is opened where it may begin. -/
theorem Pushed.spine {q : Part} {mode mode' : InsertionMode} (hl : partOf l = some q)
    (hs : Steady b.tree b.openElements b.templateModes b.headElement.isSome mode)
    (hhost : mode ∈ q.hosts)
    (hsits : ∀ y ∈ b.openElements.head?, Sits (some q) (b.tree.part? y))
    (hmode : ∀ modes headSeen rest, mode'.kind = modeOf modes headSeen (q :: rest)) :
    Spine (b'.switchTo mode') := by
  have hbody : q ∉ [Part.body, .frameset] := by
    revert hhost
    cases q <;> simp [Part.hosts]
  -- the mode that the frame gives is `mode` itself: it is its own kind, and the document element is
  -- not innermost in it
  have hframe : Frame (q :: b.bones) b.templateModes := by
    refine .inside hs.1.frame ?_
    obtain ⟨r, rest, hr, hin⟩ := hs.innermost
    have hall : ∀ mode ∈ q.hosts, mode.kind = mode ∧ .html ∉ Frame.innermost mode.kind := by
      cases q <;> decide
    obtain ⟨hkind, hhtml⟩ := hall mode hhost
    have hr' : r ≠ .html := fun hr' => hhtml (hr' ▸ hin)
    have hm := hs.2
    rw [hr, Frame.modeOf_headSeen hr', ← hr, hkind] at hm
    exact hm ▸ hhost
  have hseen : b.headElement.isSome = true := by
    refine (hs.begun ?_).head
    rintro rfl
    revert hhost
    cases q <;> simp [Part.hosts]
  have hf := p.framed h hl hs.1.seated hframe (hs.1.furnished.cons hseen hbody) hsits
  refine spine_switchTo p.sound ⟨hf, ?_⟩
  have hbones : b'.tree.bones b'.openElements = q :: b.bones := by
    have := p.bones h
    rwa [hl] at this
  rw [hbones]
  exact hmode _ _ _

/-- A template is opened. -/
theorem Pushed.spine_template (hb : Begun b) (hl : partOf l = some .template)
    (hf : Framed b.tree b.openElements b.templateModes b.headElement.isSome) :
    Spine { b'.insertMarker.framesetNotOk with
      mode := .inTemplate, templateModes := .inTemplate :: b'.templateModes } := by
  have hbones : b'.tree.bones b'.openElements = .template :: b.bones := by
    have := p.bones h
    rwa [hl] at this
  have hmodes : b'.templateModes = b.templateModes := by rw [p.same]
  have hseen : b'.headElement = b.headElement := by rw [p.same]
  have hsound : Sound { b'.insertMarker.framesetNotOk with
      mode := .inTemplate, templateModes := .inTemplate :: b'.templateModes } :=
    ⟨p.sound.planted, p.sound.named.append .marker, p.sound.form, by simp [framesetNotOk],
      p.sound.running, p.sound.intact⟩
  have hseat : Seated b'.tree b'.openElements :=
    p.seated h hf.seated fun y _ => by rw [hl]; trivial
  refine spine_of_steady hsound ⟨⟨?_, ?_, ?_⟩, ?_⟩
  · change Frame (b'.tree.bones b'.openElements) (.inTemplate :: b'.templateModes)
    rw [hbones, hmodes]
    exact .template hf.frame (by decide)
  · exact hseat
  · change Furnished (b'.tree.bones b'.openElements) b'.headElement.isSome b'.tree.skeleton.bodies
    rw [hbones, hseen, p.skeleton]
    exact hf.furnished.cons hb.head (by simp)
  · change InsertionMode.inTemplate.kind = modeOf (.inTemplate :: b'.templateModes)
      b'.headElement.isSome (b'.tree.bones b'.openElements)
    rw [hbones]
    rfl

end Pushed

/-- A part is opened after a plain change. -/
theorem Spine.opened {b₁ : TreeBuilder} {l : Namespace × String} {q : Part}
    (h : Spine b) (p : Plain b b₁) (p' : Pushed b₁ b' l) (hl : partOf l = some q)
    (hhost : b.mode ∈ q.hosts)
    (hsits : ∀ y ∈ b₁.openElements.head?, Sits (some q) (b₁.tree.part? y)) (mode : InsertionMode)
    (hmode : ∀ modes headSeen rest, mode.kind = modeOf modes headSeen (q :: rest)) :
    Spine (b'.switchTo mode) ∧ b'.stateRequest = b.stateRequest := by
  have hall : ∀ mode ∈ q.hosts, mode ∈ steadyModes := by cases q <;> decide
  have hm := hall _ hhost
  refine ⟨p'.spine p.sound hl ((h.steady hm).plain p) hhost hsits hmode, ?_⟩
  rw [p'.same]
  exact p.same.request

/-- An element whose content is raw text is opened. -/
theorem Pushed.spine_text {tag : Tag} (h : Sound b) (p : Pushed b b' (.html, tag.name))
    (hname : Part.ofName? tag.name = none) (himg : tag.name ≠ "img") (kind : RawText)
    (hf : Fits b.tree b.openElements b.templateModes b.headElement.isSome b.mode) :
    Spine { b'.requestState (.text kind) with resumeMode := some b'.mode, mode := .text } ∧
      Request { b'.requestState (.text kind) with resumeMode := some b'.mode, mode := .text }
        tag := by
  obtain ⟨id, hopen, hl⟩ := p.stack
  have hkeep := hf.keeps p.keeps p.skeleton h.planted.element
  have hmodes : b'.templateModes = b.templateModes := by rw [p.same]
  have hmode : b'.mode = b.mode := by rw [p.same]
  have hhead : b'.headElement = b.headElement := by rw [p.same]
  rw [← hmodes, ← hhead, ← hmode] at hkeep
  have hsound : Sound { b'.requestState (.text kind) with
      resumeMode := some b'.mode, mode := .text } :=
    ⟨p.sound.planted, p.sound.named, p.sound.form, p.sound.frameset, p.sound.running,
      p.sound.intact⟩
  exact ⟨⟨hsound, b'.mode, id, b.openElements, rfl, hopen, ⟨tag.name, hl, hname⟩, hkeep⟩,
    .text kind id b.openElements rfl rfl hopen hl himg⟩

end Hypertext.TreeBuilder
