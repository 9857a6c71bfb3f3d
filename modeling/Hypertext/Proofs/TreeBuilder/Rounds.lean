import Hypertext.Proofs.TreeBuilder.Acts.After
import Hypertext.Proofs.TreeBuilder.Acts.Table
import Hypertext.Proofs.TreeBuilder.Reachable

/-!
# A token in rounds

Whatever rules a token comes to, it is dealt with by steps. What every step keeps is therefore true
of every reachable builder.
-/

namespace Hypertext.TreeBuilder

open Hypertext.Tree

variable {token token' : Token} {mode : InsertionMode} {b b' a : TreeBuilder} {cs : List Char}
  {o o' : Outcome}

/-! ## 1. Foreign content -/

theorem ContentChanges.breakOut (h : ContentChanges token mode b cs a) :
    ContentChanges token mode b cs (a.breakOut token).builder :=
  (h.report _ token.isOfInput_unexpected).popWhile _

theorem ContentChanges.foreignEnd (h : ContentChanges token mode b cs a) (tag : Tag) :
    ContentChanges token mode b cs (a.foreignEnd tag).builder := by
  unfold TreeBuilder.foreignEnd
  split
  · exact h
  · next depth _ =>
    cases ho : a.foreignEndAt? tag depth with
    | none => exact h.remark rfl id .refl
    | some o =>
      rw [Option.getD_some]
      simp only [foreignEndAt?, Option.bind_eq_bind, Option.bind_eq_some_iff] at ho
      obtain ⟨current, -, target, -, ho⟩ := ho
      have h' := h.reportIf (!a.hasLowerName tag.name current) .unexpectedEndTag rfl
      split at ho
      · cases ho
        exact h'.truncate _
      · cases ho
        exact h'
      · cases ho
        exact h'

/-- Raw text is read in HTML elements. -/
theorem Spine.ne_text_of_foreign (h : Spine b) {x : NodeId} {outer : List NodeId} {e : Element}
    (hopen : b.openElements = x :: outer) (he : b.tree.element? x = some e) (hns : e.ns ≠ .html) :
    b.mode ≠ .text := by
  intro hm
  have hs := h.standing
  rw [hm] at hs
  obtain ⟨-, y, rest, -, hopen', ⟨name, hl, -⟩, -⟩ := hs
  obtain ⟨rfl, -⟩ := List.cons.inj (hopen.symm.trans hopen')
  rw [label?, he] at hl
  exact hns (congrArg Prod.fst (Option.some.inj hl))

/-- The rules of foreign content are no business of the mode. -/
theorem contentChanges_foreignContent (h : Spine b) (huses : b.usesMode token = false)
    (mode : InsertionMode) :
    ∃ new, ContentChanges token mode b new (b.foreignContent token).builder ∧
      Writes token (b.foreignContent token).next new ∧ '\x00' ∉ new := by
  obtain ⟨x, outer, e, hopen, he, hns⟩ := exists_foreign huses
  have hplace : b.place.parent ≠ root := place_ne_root h.planted (by simp [hopen])
  have hne := h.ne_text_of_foreign hopen he hns
  have hcurrent : b.currentElement? = some e := by
    rw [currentElement?, currentNode?, hopen]
    exact he
  have hlabel : b.tree.label? x = some (e.ns, e.tagName) := by rw [label?, he]; rfl
  have hpart : b.tree.part? x = none := by rw [part?_of_label hlabel, partOf, if_neg hns]
  have hhead : ∀ y ∈ b.openElements.head?, y = x := fun y hy => by
    rw [hopen] at hy
    exact (Option.some.inj hy).symm
  have hquiet : ContentChanges token mode b [] (b.foreignContent token).builder → ∃ new,
      ContentChanges token mode b new (b.foreignContent token).builder ∧
        Writes token (b.foreignContent token).next new ∧ '\x00' ∉ new :=
    fun h => ⟨[], h, Or.inl rfl, List.not_mem_nil⟩
  have hpart' : ∀ y ∈ b.openElements.head?, b.tree.part? y ∉ [some Part.table, some .rowGroup,
      some .row] := by
    intro y hy
    rw [hhead y hy, hpart]
    decide
  have htakes (c : Char) : TakesChar b c := takesChar_of_part hpart' c
  cases token with
  | character c =>
    simp only [foreignContent]
    split
    · next hc =>
      -- a replacement character takes its place
      have hreport := plain_report h.toSound .unexpectedNullCharacter
      have hplace : (b.report .unexpectedNullCharacter).place.parent ≠ root :=
        place_ne_root hreport.sound.planted (by simp [report, hopen])
      refine ⟨_, (ContentChanges.refl.report _ rfl).char hplace ?_,
        Or.inr ⟨rfl, c, rfl, Or.inr ⟨hc, rfl⟩⟩, by decide⟩
      exact ⟨(htakes _).holds, (htakes c).braced⟩
    · next hc =>
      have hnew : '\x00' ∉ [c] := fun hmem => hc (List.mem_singleton.1 hmem).symm
      have hchar : ContentChanges (.character c) mode b [c] (b.insertChar c) :=
        ContentChanges.refl.char hplace (htakes c)
      split
      · exact ⟨[c], hchar, Or.inr ⟨rfl, c, rfl, Or.inl rfl⟩, hnew⟩
      · exact ⟨[c], hchar.framesetNotOk, Or.inr ⟨rfl, c, rfl, Or.inl rfl⟩, hnew⟩
  | comment data => exact hquiet (ContentChanges.refl.insertComment h.toSound.rooted hne rfl)
  | doctype d => exact hquiet (ContentChanges.refl.report _ rfl)
  | startTag tag =>
    refine hquiet ?_
    simp only [foreignContent]
    split
    · exact ContentChanges.refl.breakOut
    · have hforeign : ((b.currentElement?.map (·.ns)).getD .html) ≠ .html := by
        rw [hcurrent]
        exact hns
      -- the current node is foreign, so what is said of the elements of HTML does not apply
      refine ContentChanges.refl.insertForeign hforeign _ ⟨hne,
        ⟨fun hnil => ?_, fun _ _ _ hhtml => absurd hhtml hforeign,
        braced_of_part hpart', fun y hy _ _ => ?_⟩, fun hhtml => absurd hhtml hforeign,
        fun _ _ _ => Or.inr ⟨x, ?_, _, hlabel, hns⟩, fun hhtml => absurd hhtml hforeign⟩
        (.adjusted _ rfl (Or.inr rfl))
      · rw [hopen] at hnil
        cases hnil
      · rw [hhead y hy, hpart]
        exact Or.inl fun hhtml => absurd hhtml hforeign
      · rw [hopen]
        rfl
  | endTag tag =>
    refine hquiet ?_
    simp only [foreignContent]
    split
    · exact ContentChanges.refl.breakOut
    · split
      · exact ContentChanges.refl.pop
      · exact ContentChanges.refl.foreignEnd tag
  | endOfFile => exact hquiet .refl

/-- The mode and the text of a table stay as they are. -/
theorem performs_foreignContent (h : Spine b) (hc : Collects b) (huses : b.usesMode token = false) :
    Performs b token (b.foreignContent token) := by
  obtain ⟨new, hchanges, hw, hn⟩ := contentChanges_foreignContent h huses b.mode
  have htext := hchanges.acts.tableText
  have hsettled : (b.foreignContent token).builder.fostering = false :=
    hchanges.fostering.trans hc.settled
  have hmode : (b.foreignContent token).builder.mode = b.mode := by
    obtain ⟨x, outer, e, hopen, he, hns⟩ := exists_foreign huses
    obtain ⟨b', p, heq | ⟨-, heq⟩⟩ := foreignContent_cases h.toSound
      (h.begun_of_foreign hopen he hns) hopen he hns token
    · rw [heq]
      exact p.same.mode
    · rw [heq]
      exact p.same.mode
  rw [← fostering_eta hsettled] at hchanges
  refine ⟨b.tableText, false, new, new, ?_, List.perm_append_comm, hw, ⟨?_, ?_, hsettled⟩,
    fun h => absurd h hn⟩
  · rw [fostering_eta hc.settled]
    exact hchanges
  · rw [htext, hmode]
    exact hc.mode
  · rw [htext]
    exact hc.solid

/-! ## 2. The rules of the mode -/

/-- What a round relies on besides the order of the open elements. It is true of a builder that has
stopped, too. -/
structure Prepared (b : TreeBuilder) : Prop where
  collects : Collects b
  leafy : b.tree.Leafy
  paragraphsApart : ParagraphsApart b

/-- Everything that a round relies on. -/
structure Working (b : TreeBuilder) : Prop extends Prepared b where
  spine : Spine b

theorem performs_modeRules (h : Working b) : Performs b token (b.modeRules token) := by
  obtain ⟨⟨hc, hl, ht⟩, h⟩ := h
  have hempty : b.mode ≠ .inTableText → b.tableText = [] := hc.mode.resolve_right
  cases hm : b.mode
  all_goals simp only [modeRules, hm]
  case inTableText => exact performs_inTableText h hm hc
  all_goals have hb : NoTextWaiting b := ⟨hempty (by simp [hm]), hc.settled⟩
  case initial => exact performs_initial h hm ht hb
  case beforeHtml => exact performs_beforeHtml h hm hb
  case beforeHead => exact performs_beforeHead h hm hb
  case inHead => exact performs_inHead h hm hb
  case inHeadNoscript => exact performs_inHeadNoscript h hm hb
  case afterHead => exact performs_afterHead h hm hb
  case inBody => exact performs_inBody h ht (by rw [hm]; decide) hb
  case text => exact performs_rawText h hm hb
  case inTable => exact performs_table h ht (by rw [hm]; decide) (fun _ _ => Or.inl hm) hb
  case inCaption => exact performs_inCaption h ht hm hb
  case inColumnGroup => exact performs_inColumnGroup h hm hb
  case inTableBody => exact performs_inTableBody h ht hm hb
  case inRow => exact performs_inRow h ht hm hb
  case inCell => exact performs_inCell h ht hm hb
  case inSelect => exact performs_inSelect h (Or.inl hm) hb
  case inSelectInTable => exact performs_inSelectInTable h hm hb
  case inTemplate => exact performs_inTemplate h hm hb
  case afterBody => exact performs_afterBody h hm hb
  case inFrameset => exact performs_inFrameset h hm hb
  case afterFrameset => exact performs_afterFrameset h hm hl hb
  case afterAfterBody => exact performs_afterAfterBody h hm hb
  case afterAfterFrameset => exact performs_afterAfterFrameset h hm hl hb

theorem performs_rules (h : Working b) : Performs b token (b.rules token) := by
  unfold rules
  split
  · exact performs_modeRules h
  · next huses => exact performs_foreignContent h.spine h.collects (Bool.eq_false_iff.2 huses)

/-! ## 3. Rounds -/

/-- What the rules make of a token, those of the mode or whichever are due. -/
structure Round (b : TreeBuilder) (token : Token) (o : Outcome) : Prop where
  working : Working b
  rules : o = b.rules token ∨ o = b.modeRules token

/-- A token is processed in rounds, each of which hands it on to the next. -/
inductive Rounds : TreeBuilder → Token → Outcome → TreeBuilder → Prop where
  | last {b : TreeBuilder} {token : Token} {o : Outcome} (h : Round b token o)
      (hdone : o.next = .done) :
    Rounds b token o o.builder
  | more {b b' : TreeBuilder} {token token' : Token} {o o' : Outcome} (h : Round b token o)
    (hon : o.handOn? = some o') (hf : Follows token token') (r : Rounds o.builder token' o' b') :
    Rounds b token o b'

theorem Round.performs (r : Round b token o) : Performs b token o := by
  have h := r.working
  obtain rfl | rfl := r.rules
  · exact performs_rules h
  · exact performs_modeRules h

theorem Round.next (r : Round b token o) (hon : o.handOn? = some o') :
    Spine o.builder ∧ ∃ token', Follows token token' ∧
      (o' = o.builder.rules token' ∨ o' = o.builder.modeRules token') := by
  have hlawful (hl : Lawful b token o) : Spine o.builder ∧ ∃ token', Follows token token' ∧
      (o' = o.builder.rules token' ∨ o' = o.builder.modeRules token') := by
    obtain ⟨token', -, heq, hspine, hfollows⟩ := hl.exists_reprocess hon
    exact ⟨hspine, token', hfollows, Or.inl heq⟩
  have hspine := r.working.spine
  obtain hr | hr := r.rules
  · obtain hl | ⟨b₁, -, hspine, -, heq⟩ := rules_cases hspine token
    · exact hlawful (hr ▸ hl)
    · rw [hr, heq] at hon ⊢
      cases hon
      exact ⟨hspine, token, Or.inl rfl, Or.inr rfl⟩
  · exact hlawful (hr ▸ lawful_modeRules hspine)

/-- Until the input ends, every round leaves the invariant in place. -/
theorem Round.spine (r : Round b token o) (ht : token ≠ .endOfFile) : Spine o.builder := by
  have hlawful (hl : Lawful b token o) : Spine o.builder := by
    have hnext := hl.next
    split at hnext
    · exact hnext.1 ht
    · exact hnext.1
    · exact hnext.elim
  obtain hr | hr := r.rules
  · obtain hl | ⟨b₁, -, hspine, -, heq⟩ := rules_cases r.working.spine token
    · exact hlawful (hr ▸ hl)
    · rw [hr, heq]
      exact hspine
  · exact hlawful (hr ▸ lawful_modeRules r.working.spine)

theorem Follows.character {token' : Token} {c : Char} (h : Follows token token')
    (ht : token' = .character c) : token = .character c := by
  obtain rfl | ⟨tag, -, -, rfl⟩ := h
  · exact ht
  · cases ht

/-- A token that is handed on writes nothing yet. -/
theorem Writes.of_handOn {new : List Char} (h : Writes token o.next new)
    (hon : o.handOn? = some o') : new = [] := h.resolve_right fun ⟨hdone, _⟩ => by
  rw [Outcome.handOn?, hdone] at hon
  cases hon

theorem Writes.of_follows {new : List Char} (h : Writes token' .done new)
    (hf : Follows token token') : Writes token .done new :=
  h.imp_right fun ⟨hdone, c, ht, hc⟩ => ⟨hdone, c, hf.character ht, hc⟩

theorem Working.rooted (h : Working b) (text : List Char) : Rooted { b with tableText := text } :=
  ⟨h.spine.toSound.rooted.anchored, h.spine.toSound.rooted.named⟩

theorem Round.leafy (r : Round b token o) : o.builder.tree.Leafy := by
  obtain ⟨text, cs, -, hacts, -⟩ := r.performs.exists_acts
  exact hacts.leafy (r.working.rooted text) r.working.leafy

theorem Round.paragraphsApart (r : Round b token o) : ParagraphsApart o.builder := by
  obtain ⟨text, fostering, cs, -, hchanges, -⟩ := r.performs
  have hr := r.working.rooted text
  have ht : ParagraphsApart { o.builder with fostering } :=
    hchanges.paragraphsApart ⟨hr.anchored, hr.named⟩
    ⟨r.working.paragraphsApart.apart, r.working.paragraphsApart.based⟩
  exact ⟨ht.apart, ht.based⟩

theorem Round.prepared (r : Round b token o) : Prepared o.builder := by
  obtain ⟨-, -, -, -, -, -, -, hc, -⟩ := r.performs
  exact ⟨hc, r.leafy, r.paragraphsApart⟩

theorem Settles.rounds (h : Settles o b') (r : Round b token o) : Rounds b token o b' := by
  induction h generalizing b token with
  | done hlast =>
    refine .last r ?_
    rw [Outcome.handOn?] at hlast
    split at hlast
    · next hnext => exact hnext
    · cases hlast
    · cases hlast
  | handOn hon _ ih =>
    obtain ⟨hspine, token', hf, hrules⟩ := r.next hon
    exact .more r hon hf (ih ⟨⟨r.prepared, hspine⟩, hrules⟩)

theorem Working.rounds (h : Working b) (token : Token) :
    Rounds b token (b.rules token) (b.dispatch token) :=
  (concludes_dispatch h.spine token).1.rounds ⟨h, Or.inl rfl⟩

/-- Whatever a token sets off, errors are placed at it. -/
theorem Rounds.logs (r : Rounds b token o b') : Logs b b' := by
  have hround : ∀ {b token o}, Round b token o → Logs b o.builder := fun r => by
    obtain ⟨text, cs, -, hacts, -⟩ := r.performs.exists_acts
    exact ⟨hacts.logs.position, hacts.logs.errors⟩
  induction r with
  | last r _ => exact hround r
  | more r _ _ _ ih => exact (hround r).trans ih

/-! ## 4. What every step keeps -/

/-- A property of the tree, the open elements, the list of active formatting elements and the modes
that are noted down, which every step for one of these tokens keeps. It may rule out some modes. -/
structure Kept (allowed : Token → Prop) (modes : InsertionMode → Prop) (I : TreeBuilder → Prop) :
    Prop where
  follows : ∀ {token token'}, allowed token → Follows token token' → allowed token'
  mode : ∀ {b : TreeBuilder}, Spine b → I b → modes b.mode
  note : ∀ {b b' : TreeBuilder}, b'.tree = b.tree → b'.openElements = b.openElements →
    b'.formatting = b.formatting → (b'.framesetOk = true → b.framesetOk = true) →
    (Calm b.mode b.resumeMode b.templateModes → Calm b'.mode b'.resumeMode b'.templateModes) →
    I b → I b'
  step : ∀ {token mode} {b b' : TreeBuilder}, allowed token → modes mode → Step token mode b b' →
    Rooted b → b.tree.Leafy → I b → I b'
  char : ∀ {b : TreeBuilder} (c : Char), Rooted b → b.tree.Leafy → b.place.parent ≠ Tree.root →
    Braced b b.openElements → I b → I (b.insertChar c)

theorem Rounds.prepared (r : Rounds b token o b') : Prepared b' := by
  induction r with
  | last r _ => exact r.prepared
  | more _ _ _ _ ih => exact ih

/-- What rules note down for the tokenizer and about errors is no matter. -/
theorem Prepared.congr (h : Prepared b) (ht : b'.tree = b.tree)
    (ho : b'.openElements = b.openElements)
    (hm : b'.mode = b.mode) (htext : b'.tableText = b.tableText) (hf : b'.fostering = b.fostering) :
    Prepared b' := by
  refine ⟨⟨?_, ?_, hf.trans h.collects.settled⟩, ht ▸ h.leafy, ?_, ht ▸ h.paragraphsApart.based⟩
  · rw [htext, hm]
    exact h.collects.mode
  · rw [htext]
    exact h.collects.solid
  · rw [ht, ho]
    exact h.paragraphsApart.apart

theorem Working.receive (h : Working b) (t : PositionedToken) : Working (b.receive t) :=
  ⟨h.toPrepared.congr rfl rfl rfl rfl rfl, h.spine.receive t⟩

/-- A token is skipped as a line feed, or processed in rounds. -/
theorem Working.process_cases (h : Working b) {t : PositionedToken} (hp : b.process t = .ok b') :
    (b.skipNewline = true ∧ t.token = .character '\n' ∧
      b' = { b with position := t.position, skipNewline := false }) ∨
    (b.skipNewline = true → t.token ≠ .character '\n') ∧
      b' = ((b.receive t).dispatch t.token).release := by
  rw [process_eq b t h.spine.running] at hp
  cases hp
  split
  · next hskip =>
    rw [Bool.and_eq_true, decide_eq_true_eq] at hskip
    exact Or.inl ⟨hskip.1, hskip.2, rfl⟩
  · next hskip =>
    rw [Bool.and_eq_true, decide_eq_true_eq] at hskip
    exact Or.inr ⟨fun hs ht => hskip ⟨hs, ht⟩, rfl⟩

theorem Working.logs (h : Working b) {t : PositionedToken} (hp : b.process t = .ok b') :
    b.errors.GrowsAt t.position b'.errors := by
  obtain ⟨-, -, rfl⟩ | ⟨-, rfl⟩ := h.process_cases hp
  · exact .refl
  · have hlogs := ((h.receive t).rounds t.token).logs
    obtain ⟨errors, heq, hrelease⟩ := reportIf_eq
      (b := { (b.receive t).dispatch t.token with selfClosing := false })
      ((b.receive t).dispatch t.token).selfClosing .nonVoidHtmlElementStartTagWithTrailingSolidus
      rfl
    rw [release, heq]
    have hposition : ((b.receive t).dispatch t.token).position = t.position := hlogs.position
    exact hlogs.errors.trans (hposition ▸ hrelease)

section Kept

variable {allowed : Token → Prop} {modes : InsertionMode → Prop} {I : TreeBuilder → Prop}
  (k : Kept allowed modes I)
include k

theorem Kept.acts (ht : allowed token) (hm : modes mode) (h : Acts token mode b cs a)
    (hr : Rooted b) (hl : b.tree.Leafy) (hi : I b) : I a := by
  induction h with
  | refl => exact hi
  | step h s ih => exact k.step ht hm s (h.rooted hr) (h.leafy hr hl) ih
  | char h hp hb c ih => exact k.char c (h.rooted hr) (h.leafy hr hl) hp hb ih

theorem Kept.round (ht : allowed token) (r : Round b token o) (hi : I b) : I o.builder := by
  obtain ⟨text, cs, -, hacts, -⟩ := r.performs.exists_acts
  exact k.acts ht (k.mode r.working.spine hi) hacts (r.working.rooted text) r.working.leafy
    (k.note (b := b) rfl rfl rfl id id hi)

theorem Kept.rounds (ht : allowed token) (r : Rounds b token o b') (hi : I b) : I b' := by
  induction r with
  | last r _ => exact k.round ht r hi
  | more r _ hf _ ih => exact ih (k.follows ht hf) (k.round ht r hi)

theorem Kept.process {t : PositionedToken} (ht : allowed t.token) (h : Working b)
    (hp : b.process t = .ok b') (hi : I b) : I b' := by
  obtain ⟨-, -, rfl⟩ | ⟨-, rfl⟩ := h.process_cases hp
  · exact k.note (b := b) rfl rfl rfl id id hi
  · have hi' := k.rounds ht ((h.receive t).rounds t.token) (k.note (b := b) rfl rfl rfl id id hi)
    obtain ⟨errors, he⟩ := release_eq ((b.receive t).dispatch t.token)
    rw [he]
    exact k.note (b := (b.receive t).dispatch t.token) rfl rfl rfl id id hi'

end Kept

/-! ## 5. Reachable builders -/

theorem Reachable.prepared (h : Reachable b) : Prepared b := by
  induction h with
  | start scripting srcdoc =>
    exact ⟨⟨Or.inl rfl, List.not_mem_nil, rfl⟩, .empty, fun _ => True.intro, fun y l hy => by
      rw [label?_empty] at hy
      cases hy⟩
  | @process b b' t h hp ih =>
    obtain hspine | hh := h.valid
    · have hw : Working b := ⟨ih, hspine⟩
      obtain ⟨-, -, rfl⟩ | ⟨-, rfl⟩ := hw.process_cases hp
      · exact ih.congr rfl rfl rfl rfl rfl
      · have hprepared := ((hw.receive t).rounds t.token).prepared
        obtain ⟨errors, he⟩ := release_eq ((b.receive t).dispatch t.token)
        rw [he]
        exact hprepared.congr rfl rfl rfl rfl rfl
    · rw [hh.process t] at hp
      cases hp
  | takeStateRequest _ ih => exact ih.congr rfl rfl rfl rfl rfl
  | absorbErrors errors _ ih => exact ih.congr rfl rfl rfl rfl rfl

theorem Reachable.working (h : Reachable b) (hs : b.stopped = false) : Working b :=
  ⟨h.prepared, h.spine hs⟩

/-- What every step for the tokens that are fed keeps is true of every builder that a host can bring
about with them, if it is true at the start. -/
theorem Kept.reachableBy {allowed : Token → Prop} {modes : InsertionMode → Prop}
    {I : TreeBuilder → Prop} (k : Kept allowed modes I)
    (hstart : ∀ scripting srcdoc, I { scripting, srcdoc }) (h : ReachableBy allowed b) : I b := by
  induction h with
  | start scripting srcdoc => exact hstart scripting srcdoc
  | @process b b' t ht h hp ih =>
    obtain hspine | hh := h.reachable.valid
    · exact k.process ht ⟨h.reachable.prepared, hspine⟩ hp ih
    · rw [hh.process t] at hp
      cases hp
  | @takeStateRequest b _ ih => exact k.note (b := b) rfl rfl rfl id id ih
  | @absorbErrors b errors _ ih => exact k.note (b := b) rfl rfl rfl id id ih

theorem Kept.reachable {modes : InsertionMode → Prop} {I : TreeBuilder → Prop}
    (k : Kept (fun _ => True) modes I) (hstart : ∀ scripting srcdoc, I { scripting, srcdoc })
    (h : Reachable b) : I b := k.reachableBy hstart h.reachableBy

end Hypertext.TreeBuilder
