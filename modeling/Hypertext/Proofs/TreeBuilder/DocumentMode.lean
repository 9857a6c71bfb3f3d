import Hypertext.Proofs.Token
import Hypertext.Proofs.TreeBuilder.Rounds
import Mathlib.Data.List.Forall2

/-!
# The mode of the document is decided once

The first token that is neither a comment nor white space decides it. Afterwards there is an
element, so no rule sets it again, and none goes back to where it is set.
-/

namespace Hypertext

open Hypertext.Tree

/-! ## 1. What decides the mode -/

/-- Comments and white space leave the mode of the document open. -/
def Neutral : Token → Prop
  | .comment _ => True
  | .character c => isSpace c = true
  | _ => False

instance : DecidablePred Neutral
  | .comment _ => instDecidableTrue
  | .character c => instDecidableEqBool (isSpace c) true
  | .startTag _ | .endTag _ | .doctype _ | .endOfFile => instDecidableFalse

/-- The mode that this token gives the document, if it is the first that counts. -/
def Token.documentMode (srcdoc : Bool) : Token → DocumentMode
  | .doctype d => if srcdoc then .noQuirks else d.documentMode
  | _ => if srcdoc then .noQuirks else .quirks

/-- The mode of a document that begins with these tokens. -/
def decidedMode (srcdoc : Bool) (tokens : List Token) : DocumentMode :=
  ((tokens.find? fun token => !decide (Neutral token)).map
    (Token.documentMode srcdoc)).getD .noQuirks

theorem Token.documentMode_srcdoc (token : Token) : token.documentMode true = .noQuirks := by
  cases token <;> rfl

theorem decidedMode_srcdoc (tokens : List Token) : decidedMode true tokens = .noQuirks := by
  unfold decidedMode
  cases tokens.find? fun token => !decide (Neutral token) with
  | none => rfl
  | some token => exact token.documentMode_srcdoc

theorem find?_eq_none_of_neutral {tokens : List Token} (h : ∀ token ∈ tokens, Neutral token) :
    tokens.find? (fun token => !decide (Neutral token)) = none := by
  rw [List.find?_eq_none]
  exact fun token ht => by simpa using h token ht

theorem decidedMode_of_neutral (srcdoc : Bool) {tokens : List Token}
    (h : ∀ token ∈ tokens, Neutral token) : decidedMode srcdoc tokens = .noQuirks := by
  rw [decidedMode, find?_eq_none_of_neutral h]
  rfl

theorem decidedMode_append_of_neutral (srcdoc : Bool) {tokens : List Token} {token : Token}
    (h : ∀ token ∈ tokens, Neutral token) (ht : ¬ Neutral token) :
    decidedMode srcdoc (tokens ++ [token]) = token.documentMode srcdoc := by
  rw [decidedMode, List.find?_append, find?_eq_none_of_neutral h]
  simp [ht]

/-- What comes later is no matter. -/
theorem decidedMode_append (srcdoc : Bool) {tokens : List Token} (later : List Token)
    (h : ¬ ∀ token ∈ tokens, Neutral token) :
    decidedMode srcdoc (tokens ++ later) = decidedMode srcdoc tokens := by
  rw [decidedMode, decidedMode, List.find?_append]
  cases hf : tokens.find? fun token => !decide (Neutral token) with
  | none =>
    rw [List.find?_eq_none] at hf
    exact absurd (fun token ht => by simpa using hf token ht) h
  | some token => rfl

/-! ## 2. The case of identifiers -/

/-- The strings differ at most in the case of ASCII letters. -/
def SameButCase (s s' : String) : Prop :=
  List.Forall₂ (fun c c' : Char => c' = c ∨ c' = c.toLower ∨ c' = c.toUpper) s.toList s'.toList

theorem toLower_of_sameButCase {s s' : String} (h : SameButCase s s') : s'.toLower = s.toLower := by
  have hlower {cs cs' : List Char}
      (h : List.Forall₂ (fun c c' : Char => c' = c ∨ c' = c.toLower ∨ c' = c.toUpper) cs cs') :
      cs'.map Char.toLower = cs.map Char.toLower := by
    induction h with
    | nil => rfl
    | cons hc _ ih =>
      rw [List.map_cons, List.map_cons, ih]
      obtain rfl | rfl | rfl := hc
      · rfl
      · rw [toLower_toLower]
      · rw [toLower_toUpper]
  show s'.map Char.toLower = s.map Char.toLower
  rw [← String.toList_inj, String.toList_map, String.toList_map]
  exact hlower h

/-- Identifiers are compared without regard to their case. -/
theorem documentMode_of_sameButCase {d d' : Doctype} (hname : d'.name = d.name)
    (hquirks : d'.forceQuirks = d.forceQuirks)
    (hpublic : Option.Rel SameButCase d.publicId d'.publicId)
    (hsystem : Option.Rel SameButCase d.systemId d'.systemId) :
    d'.documentMode = d.documentMode := by
  have hlower {id id' : Option String} (h : Option.Rel SameButCase id id') :
      id'.map String.toLower = id.map String.toLower := by
    cases h with
    | some h => exact congrArg some (toLower_of_sameButCase h)
    | none => rfl
  simp only [Doctype.documentMode, hname, hquirks, hlower hpublic, hlower hsystem]

namespace TreeBuilder

variable {token : Token} {mode : InsertionMode} {b b' a : TreeBuilder} {cs : List Char}
  {o : Outcome}

/-! ## 3. Once there is an element -/

/-- An element has been put into the tree. -/
def Peopled (t : Tree) : Prop := ∃ x l, t.label? x = some l

theorem Peopled.keeps {t t' : Tree} (h : Peopled t) (k : t.Keeps t') : Peopled t' := by
  obtain ⟨x, l, hl⟩ := h
  exact ⟨x, l, k x l hl⟩

theorem ContentChange.documentMode (d : ContentChange b b') (hr : Rooted b) (hp : Peopled b.tree) :
    b'.tree.mode = b.tree.mode := by
  cases d with
  | ease d => exact d.documentMode
  | @insert name attributes ns => exact insertElement_mode hr name attributes ns
  | @void name attributes => exact insertElement_mode hr name attributes .html
  | @startText name attributes => exact insertElement_mode hr name attributes .html
  | @openTemplate attributes => exact insertElement_mode hr "template" attributes .html
  | leaf hd hp _ => exact (adds_leaf hd hr.anchored.forest (hp.lt hr)).mode hr.anchored.forest
  | setMode documentMode hblank =>
    obtain ⟨x, l, hl⟩ := hp
    rw [hblank x] at hl
    cases hl
  | adopt ha =>
    exact mode_congr (ha.rearranges.data? hr.anchored.forest.linked hr.anchored.forest.root_lt)
  | _ => rfl

theorem ContentChanges.documentMode (h : ContentChanges token mode b cs a) (hr : Rooted b)
    (hp : Peopled b.tree) : a.tree.mode = b.tree.mode := by
  induction h with
  | refl => rfl
  | step h _ d ih => exact (d.documentMode (h.rooted hr) (hp.keeps (h.acts.keeps hr))).trans ih
  | char h hplace _ ih => exact (insertChar_elements (h.rooted hr).anchored hplace _).1.trans ih

theorem Spine.openElements_ne_nil (h : Spine b) (hm : b.mode ≠ .initial)
    (hm' : b.mode ≠ .beforeHtml) : b.openElements ≠ [] := by
  have hs := h.standing
  have hframed {outer : List NodeId}
      (hf : Framed b.tree outer b.templateModes b.headElement.isSome) :
      outer ≠ [] := fun hnil => hf.frame.ne_nil (by rw [hnil]; rfl)
  have hbones (hb : b.tree.bones b.openElements = [.html]) : b.openElements ≠ [] := fun hnil => by
    rw [hnil] at hb
    cases hb
  revert hs hm hm'
  cases b.mode <;> simp only [Standing, Fits, ne_eq, reduceCtorEq, not_true_eq_false,
    not_false_eq_true, false_implies, true_implies]
  case inHeadNoscript =>
    rintro ⟨x, outer, hopen, -, -⟩
    rw [hopen]
    exact List.cons_ne_nil x outer
  case text =>
    rintro ⟨_, x, outer, -, hopen, -, -⟩
    rw [hopen]
    exact List.cons_ne_nil x outer
  case inTableText =>
    rintro ⟨_, _, _, hs⟩
    exact hframed hs.1
  case afterBody | afterAfterBody => exact fun hs => hframed hs.1
  case afterFrameset | afterAfterFrameset => exact fun hs => hbones hs.1
  all_goals exact fun hs => hframed hs.1

theorem Spine.peopled (h : Spine b) (hm : b.mode ≠ .initial) (hm' : b.mode ≠ .beforeHtml) :
    Peopled b.tree := by
  obtain ⟨x, hx⟩ := List.exists_mem_of_ne_nil _ (h.openElements_ne_nil hm hm')
  obtain ⟨l, hl⟩ := Option.isSome_iff_exists.1 (h.planted.element x hx)
  exact ⟨x, l, hl⟩

/-- There is none in the mode that everything begins with. -/
theorem Spine.mode_ne_initial (h : Spine b) (ht : ParagraphsApart b) (hp : Peopled b.tree) :
    b.mode ≠ .initial := by
  intro hm
  obtain ⟨x, l, hl⟩ := hp
  rw [h.blank hm ht x] at hl
  cases hl

theorem mode_endOfFileInTemplate (h : b.endOfFileInTemplate.next = .done) :
    b.endOfFileInTemplate.builder.mode = b.mode := by
  revert h
  unfold endOfFileInTemplate
  split
  · exact nofun
  · exact fun _ => rfl

theorem mode_bodyEndOfFile (h : b.bodyEndOfFile.next = .done) :
    b.bodyEndOfFile.builder.mode = b.mode := by
  revert h
  unfold bodyEndOfFile
  split
  · exact fun _ => mode_reportIf _ _ _
  · exact mode_endOfFileInTemplate

/-- The end of the input is done with in the mode that it comes to. -/
theorem mode_of_endOfFile (h : (b.modeRules .endOfFile).next = .done) :
    (b.modeRules .endOfFile).builder.mode = b.mode := by
  revert h
  cases hm : b.mode <;> simp only [modeRules, hm]
  case inTemplate => exact fun h => (mode_endOfFileInTemplate h).trans hm
  case inFrameset => exact fun _ => (mode_reportIf _ _ _).trans hm
  case afterBody | afterAfterBody | afterFrameset | afterAfterFrameset => exact fun _ => hm
  case inBody | inTable | inCaption | inColumnGroup | inTableBody | inRow | inCell | inSelect |
      inSelectInTable => exact fun h => (mode_bodyEndOfFile h).trans hm
  all_goals
    intro h
    cases h

/-! ## 4. Rounds -/

theorem Round.eq_modeRules (r : Round b token o) (huses : b.usesMode token = true) :
    o = b.modeRules token :=
  r.rules.elim (fun h => h.trans (if_pos huses)) id

theorem usesMode_of_empty (hopen : b.openElements = []) (token : Token) :
    b.usesMode token = true := by
  rw [usesMode, currentElement?, currentNode?, hopen]
  rfl

/-- The end of the input is no matter of foreign content. -/
theorem usesMode_endOfFile (b : TreeBuilder) : b.usesMode .endOfFile = true := by
  unfold usesMode
  split
  · rfl
  · exact Bool.or_true _

/-- A comment or a document type that is put last into the document. -/
theorem adds_root {data : NodeData} (hd : data.isComment = true ∨ data.isDoctype = true)
    (h : Forest b.tree) :
    Adds b.tree ((b.tree.alloc data).2.insertAt root none b.tree.size) b.tree.size root none :=
  @adds_leaf b data ⟨root, none⟩ hd h h.root_lt

/-- The document element is made without a look at the mode of the document. -/
theorem beforeHtml_documentMode (h : Spine b) (hm : b.mode = .beforeHtml) (token : Token) :
    (b.beforeHtml token).builder.mode ≠ .initial ∧
    (b.beforeHtml token).builder.tree.mode = b.tree.mode := by
  have hs := h.standing
  rw [hm] at hs
  have hr := h.toSound.rooted
  have hroot (attributes : List Attribute) : (b.insertRoot attributes).tree.mode = b.tree.mode := by
    rw [insertRoot_eq_insertElement hr hs.1]
    exact insertElement_mode hr "html" attributes .html
  have hcomment (data : String) : (b.insertCommentIn root data).mode = b.mode ∧
      (b.insertCommentIn root data).tree.mode = b.tree.mode := by
    rw [insertCommentIn_eq_insertAt hr.anchored.forest hr.anchored.forest.root_lt]
    exact ⟨rfl, (adds_root (Or.inl rfl) hr.anchored.forest).mode hr.anchored.forest⟩
  have hne : b.mode ≠ .initial := by rw [hm]; decide
  have hstays : b.mode ≠ .initial ∧ b.tree.mode = b.tree.mode := ⟨hne, rfl⟩
  have hmade (attributes : List Attribute) :
      ((b.insertRoot attributes).switchTo .beforeHead).mode ≠ .initial ∧
        ((b.insertRoot attributes).switchTo .beforeHead).tree.mode = b.tree.mode :=
    ⟨nofun, hroot attributes⟩
  unfold beforeHtml
  cases token with
  | comment data => exact ⟨(hcomment data).1 ▸ hne, (hcomment data).2⟩
  | doctype d => exact hstays
  | character c =>
    dsimp only
    split
    · exact hstays
    · exact hmade []
  | startTag tag =>
    dsimp only
    split
    · exact hmade tag.attributes
    · exact hmade []
  | endTag tag =>
    dsimp only
    split
    · exact hmade []
    · exact hstays
  | endOfFile => exact hmade []

/-- No round after the first mode sets the mode of the document, or goes back there. -/
theorem Round.documentMode (r : Round b token o) (hm : b.mode ≠ .initial) :
    o.builder.mode ≠ .initial ∧ o.builder.tree.mode = b.tree.mode := by
  have hspine := r.working.spine
  by_cases hbefore : b.mode = .beforeHtml
  · have hs := hspine.standing
    rw [hbefore] at hs
    rw [r.eq_modeRules (usesMode_of_empty hs.1 token)]
    simp only [modeRules, hbefore]
    exact beforeHtml_documentMode hspine hbefore token
  · -- there is a document element, and what has been done to the tree keeps it
    have hp := hspine.peopled hm hbefore
    obtain ⟨text, fostering, cs, -, hchanges, -⟩ := r.performs
    have hr := r.working.rooted text
    have hr' : Rooted { b with tableText := text, fostering } := ⟨hr.anchored, hr.named⟩
    refine ⟨?_, hchanges.documentMode hr' hp⟩
    have hp' : Peopled o.builder.tree := hp.keeps (hchanges.acts.keeps hr')
    by_cases ht : token = .endOfFile
    · subst ht
      obtain rfl := r.eq_modeRules (usesMode_endOfFile b)
      cases hnext : (b.modeRules .endOfFile).next with
      | done => exact mode_of_endOfFile hnext ▸ hm
      | reprocess token' =>
        exact (r.next (by rw [Outcome.handOn?, hnext])).1.mode_ne_initial r.paragraphsApart hp'
      | byMode token' =>
        exact (r.next (by rw [Outcome.handOn?, hnext])).1.mode_ne_initial r.paragraphsApart hp'
    · exact (r.spine ht).mode_ne_initial r.paragraphsApart hp'

theorem Rounds.documentMode (r : Rounds b token o b') (hm : b.mode ≠ .initial) :
    b'.mode ≠ .initial ∧ b'.tree.mode = b.tree.mode := by
  induction r with
  | last r _ => exact r.documentMode hm
  | more r _ _ _ ih =>
    obtain ⟨hm', hmode⟩ := r.documentMode hm
    exact ⟨(ih hm').1, (ih hm').2.trans hmode⟩

/-- What the first mode makes of a token. -/
theorem initial_cases (h : Sound b) (token : Token) :
    (Neutral token ∧ (b.initial token).next = .done ∧ (b.initial token).builder.mode = b.mode ∧
      (b.initial token).builder.srcdoc = b.srcdoc ∧
      (b.initial token).builder.tree.mode = b.tree.mode) ∨
    (¬ Neutral token ∧ (b.initial token).builder.mode = .beforeHtml ∧
      (b.tree.mode = .noQuirks →
        (b.initial token).builder.tree.mode = token.documentMode b.srcdoc)) := by
  have hf := h.planted.forest
  -- any other token is as if there were no doctype
  have hother (ht : token.documentMode b.srcdoc = if b.srcdoc then .noQuirks else .quirks)
      (hmode : b.tree.mode = .noQuirks) :
      (if b.srcdoc then b
        else { b.report .missingDoctype with tree := b.tree.setMode .quirks }).tree.mode =
          token.documentMode b.srcdoc := by
    rw [ht]
    cases b.srcdoc with
    | true => exact hmode
    | false => exact hf.mode_setMode .quirks
  cases token with
  | character c =>
    by_cases hc : isSpace c = true
    · refine Or.inl ⟨hc, ?_⟩
      rw [initial, if_pos hc]
      exact ⟨rfl, rfl, rfl, rfl⟩
    · refine Or.inr ⟨hc, ?_⟩
      rw [initial, if_neg hc]
      exact ⟨rfl, hother rfl⟩
  | comment data =>
    refine Or.inl ⟨True.intro, rfl, ?_⟩
    change (b.insertCommentIn root data).mode = _ ∧ (b.insertCommentIn root data).srcdoc = _ ∧
      (b.insertCommentIn root data).tree.mode = _
    rw [insertCommentIn_eq_insertAt hf hf.root_lt]
    exact ⟨rfl, rfl, (adds_root (Or.inl rfl) hf).mode hf⟩
  | doctype d =>
    refine Or.inr ⟨id, rfl, fun hmode => ?_⟩
    change (b.insertDoctype d).tree.mode = _
    let data : NodeData := .doctype (d.name.getD "") (d.publicId.getD "") (d.systemId.getD "")
    have a := adds_root (b := b) (Or.inr (rfl : data.isDoctype = true)) hf
    have s := (put_alloc hf hf.root_lt data (by simp [data]) none).1.sprout hf hf.root_lt
    rw [insertDoctype_eq_insertAt hf, Token.documentMode]
    cases b.srcdoc with
    | true => exact (a.mode hf).trans hmode
    | false => exact s.forest.mode_setMode d.documentMode
  | startTag tag => exact Or.inr ⟨id, rfl, hother rfl⟩
  | endTag tag => exact Or.inr ⟨id, rfl, hother rfl⟩
  | endOfFile => exact Or.inr ⟨id, rfl, hother rfl⟩

/-- The first token that counts decides the mode of the document and leaves the first mode. -/
theorem Rounds.documentMode_initial (r : Rounds b token o b') (hm : b.mode = .initial)
    (hmode : b.tree.mode = .noQuirks) :
    (Neutral token → b'.mode = .initial ∧ b'.srcdoc = b.srcdoc ∧ b'.tree.mode = .noQuirks) ∧
      (¬ Neutral token → b'.mode ≠ .initial ∧ b'.tree.mode = token.documentMode b.srcdoc) := by
  have heq {b : TreeBuilder} {token : Token} {o : Outcome} (r : Round b token o)
      (hm : b.mode = .initial) : o = b.initial token := by
    have hs := r.working.spine.standing
    rw [hm] at hs
    rw [r.eq_modeRules (usesMode_of_empty hs.1 token)]
    simp only [modeRules, hm]
  cases r with
  | last r _ =>
    rw [heq r hm]
    obtain ⟨hn, -, hm', hsrcdoc, hmode'⟩ | ⟨hn, hm', hmode'⟩ :=
      initial_cases r.working.spine.toSound token
    · exact ⟨fun _ => ⟨hm'.trans hm, hsrcdoc, hmode'.trans hmode⟩, fun h => absurd hn h⟩
    · exact ⟨fun h => absurd h hn, fun _ => ⟨by rw [hm']; decide, hmode' hmode⟩⟩
  | more r hon _ r' =>
    rw [heq r hm] at hon r'
    obtain ⟨-, hdone, -⟩ | ⟨hn, hm', hmode'⟩ := initial_cases r.working.spine.toSound token
    · rw [Outcome.handOn?, hdone] at hon
      cases hon
    · obtain ⟨hlate, hkept⟩ := r'.documentMode (by rw [hm']; decide)
      exact ⟨fun h => absurd h hn, fun _ => ⟨hlate, hkept.trans (hmode' hmode)⟩⟩

/-! ## 5. Runs -/

/-- The builders that a host can bring about with these options, by feeding these tokens. -/
inductive Fed (scripting srcdoc : Bool) : List Token → TreeBuilder → Prop where
  | start : Fed scripting srcdoc [] { scripting, srcdoc }
  | process {tokens : List Token} {b b' : TreeBuilder} (t : PositionedToken)
      (h : Fed scripting srcdoc tokens b)
    (hp : b.process t = .ok b') : Fed scripting srcdoc (tokens ++ [t.token]) b'
  | takeStateRequest {tokens : List Token} {b : TreeBuilder} (h : Fed scripting srcdoc tokens b) :
    Fed scripting srcdoc tokens b.takeStateRequest.2
  | absorbErrors {tokens : List Token} {b : TreeBuilder} (errors : ErrorLog)
    (h : Fed scripting srcdoc tokens b) :
    Fed scripting srcdoc tokens { b with errors := b.errors.append errors }

variable {scripting srcdoc : Bool} {tokens : List Token}

theorem Fed.reachable (h : Fed scripting srcdoc tokens b) : Reachable b := by
  induction h with
  | start => exact .start scripting srcdoc
  | process t _ hp ih => exact .process t ih hp
  | takeStateRequest _ ih => exact ih.takeStateRequest
  | absorbErrors errors _ ih => exact ih.absorbErrors errors

theorem Fed.feed {later : List Token} (h : Fed scripting srcdoc tokens b)
    (hf : b.feed later = .ok b') : Fed scripting srcdoc (tokens ++ later) b' := by
  induction later generalizing tokens b with
  | nil =>
    cases hf
    rwa [List.append_nil]
  | cons token later ih =>
    obtain ⟨b₁, hp, hf⟩ := exists_process_of_feed hf
    have h' := ih (.process _ h hp) hf
    rwa [List.append_assoc] at h'

/-- Only a token that comes in the first mode can set the mode of the document. -/
theorem Working.documentMode (h : Working b) {t : PositionedToken} (hp : b.process t = .ok b') :
    (b.mode ≠ .initial → b'.mode ≠ .initial ∧ b'.tree.mode = b.tree.mode) ∧
    (b.mode = .initial → b.tree.mode = .noQuirks →
      (Neutral t.token → b'.mode = .initial ∧ b'.srcdoc = b.srcdoc ∧ b'.tree.mode = .noQuirks) ∧
      (¬ Neutral t.token → b'.mode ≠ .initial ∧ b'.tree.mode = t.token.documentMode b.srcdoc)) := by
  obtain ⟨-, ht, rfl⟩ | ⟨-, rfl⟩ := h.process_cases hp
  · refine ⟨fun hm => ⟨hm, rfl⟩, fun hm hmode => ⟨fun _ => ⟨hm, rfl, hmode⟩, fun hn => ?_⟩⟩
    rw [ht] at hn
    exact absurd rfl hn
  · have r := (h.receive t).rounds t.token
    obtain ⟨errors, he⟩ := release_eq ((b.receive t).dispatch t.token)
    rw [he]
    exact ⟨fun hm => r.documentMode hm, fun hm hmode => r.documentMode_initial hm hmode⟩

/-- While nothing but comments and white space has come, the builder is in the first mode;
afterwards the mode of the document is decided. -/
theorem Fed.documentMode (h : Fed scripting srcdoc tokens b) :
    ((∀ token ∈ tokens, Neutral token) → b.mode = .initial ∧ b.srcdoc = srcdoc) ∧
    ((¬ ∀ token ∈ tokens, Neutral token) → b.mode ≠ .initial) ∧
    b.tree.mode = decidedMode srcdoc tokens := by
  induction h with
  | start => exact ⟨fun _ => ⟨rfl, rfl⟩, fun h => absurd (fun _ h => nomatch h) h, rfl⟩
  | @process tokens b b' t h hp ih =>
    obtain ⟨hneutral, hlate, hmode⟩ := ih
    have hs : b.stopped = false := by
      cases hs : b.stopped with
      | false => rfl
      | true =>
        rw [TreeBuilder.process, if_pos hs] at hp
        cases hp
    obtain ⟨hkept, hdecides⟩ := (h.reachable.working hs).documentMode hp
    simp only [List.forall_mem_append, List.forall_mem_singleton]
    -- the first token that is not neutral decides; before it nothing does, and after it nothing
    -- changes the mode
    by_cases hall : ∀ token ∈ tokens, Neutral token
    · obtain ⟨hm, hsrcdoc⟩ := hneutral hall
      rw [decidedMode_of_neutral srcdoc hall] at hmode
      obtain ⟨hstay, hgo⟩ := hdecides hm hmode
      by_cases ht : Neutral t.token
      · obtain ⟨hm', hsrcdoc', hmode'⟩ := hstay ht
        refine ⟨fun _ => ⟨hm', hsrcdoc'.trans hsrcdoc⟩, fun hnot => absurd ⟨hall, ht⟩ hnot,
          hmode'.trans ?_⟩
        exact (decidedMode_of_neutral srcdoc (List.forall_mem_append.2
          ⟨hall, List.forall_mem_singleton.2 ht⟩)).symm
      · obtain ⟨hm', hmode'⟩ := hgo ht
        refine ⟨fun hboth => absurd hboth.2 ht, fun _ => hm', ?_⟩
        rw [decidedMode_append_of_neutral srcdoc hall ht, hmode', hsrcdoc]
    · obtain ⟨hm', hmode'⟩ := hkept (hlate hall)
      refine ⟨fun hboth => absurd hboth.1 hall, fun _ => hm', ?_⟩
      rw [decidedMode_append srcdoc _ hall, hmode', hmode]
  | takeStateRequest _ ih => exact ih
  | absorbErrors errors _ ih => exact ih

/-- The mode of the document is set at most once, by the token that leaves the first mode. With a
frame's own source it is never set; otherwise that token decides it, a declaration by its
identifiers, whose case is no matter. -/
theorem documentMode_of_fed (h : Fed scripting srcdoc tokens b) :
    (b.mode = .initial ↔ ∀ token ∈ tokens, Neutral token) ∧
    b.tree.mode = decidedMode srcdoc tokens ∧
    (srcdoc = true → b.tree.mode = .noQuirks) ∧
    (∀ t b', b.process t = .ok b' →
      (b.mode ≠ .initial → b'.mode ≠ .initial ∧ b'.tree.mode = b.tree.mode) ∧
      (b'.mode = .initial → b'.tree.mode = b.tree.mode)) ∧
    ∀ d d' : Doctype, d'.name = d.name → d'.forceQuirks = d.forceQuirks →
      Option.Rel SameButCase d.publicId d'.publicId →
      Option.Rel SameButCase d.systemId d'.systemId → d'.documentMode = d.documentMode := by
  have hinitial {tokens : List Token} {b : TreeBuilder} (h : Fed scripting srcdoc tokens b) :
      b.mode = .initial ↔ ∀ token ∈ tokens, Neutral token :=
    ⟨fun hm => by_contra fun hnot => h.documentMode.2.1 hnot hm,
      fun hall => (h.documentMode.1 hall).1⟩
  have hmode := h.documentMode.2.2
  refine ⟨hinitial h, hmode, ?_, fun t b' hp => ⟨fun hm => ?_, fun hm => ?_⟩,
    fun d d' => documentMode_of_sameButCase⟩
  · rintro rfl
    rw [hmode, decidedMode_srcdoc]
  · have hnot := mt (hinitial h).2 hm
    have h' := (h.process t hp).documentMode
    refine ⟨h'.2.1 fun hall => hnot (List.forall_mem_append.1 hall).1, ?_⟩
    rw [h'.2.2, hmode, decidedMode_append srcdoc _ hnot]
  · have hall := (hinitial (h.process t hp)).1 hm
    rw [(h.process t hp).documentMode.2.2, hmode, decidedMode_of_neutral srcdoc hall,
      decidedMode_of_neutral srcdoc (List.forall_mem_append.1 hall).1]

/-- A document with two declarations. -/
def twiceDeclared : List Token :=
  [.comment "", .doctype { name := some "html", forceQuirks := true },
    .doctype { name := some "html" }, .startTag { name := "html" }]

theorem documentMode_twiceDeclared : ∃ b, feed {} twiceDeclared = .ok b ∧ b.mode = .beforeHead ∧
    b.tree.mode = .quirks := by
  obtain ⟨b, hb, hm⟩ := exists_ok (feed {} twiceDeclared) (fun b => b.mode = .beforeHead)
    (by with_unfolding_all decide)
  have hfed : Fed false false ([] ++ twiceDeclared) b := Fed.start.feed hb
  have h := documentMode_of_fed hfed
  exact ⟨b, hb, hm, h.2.1.trans (by decide)⟩

end TreeBuilder

end Hypertext
