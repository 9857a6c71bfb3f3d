import Hypertext.Proofs.TreeBuilder.Rounds

/-!
# What stays in the document

Nodes are moved in the document, and may be carried while the adoption agency climbs, but in the end
everything hangs in it again. Only a frameset takes the place of the body, with all that is in it.
-/

namespace Hypertext

open Hypertext.Tree

namespace Tree

variable {t t' t'' : Tree} {x y : NodeId}

theorem Forest.descends_iff (h : Forest t) : t.Descends x y ↔ t.Reach x y :=
  ⟨fun hd => Relation.ReflTransGen.mono
    (fun a c hac => Or.imp_left (h.linked.mem_children a c).1 hac) _ _ hd, h.descends⟩

/-! ## 1. Trees -/

/-- What is in the document stays in it. -/
def Retains (t t' : Tree) : Prop := ∀ x, t.Reach root x → t'.Reach root x

theorem Retains.refl : Retains t t := fun _ => id

theorem Retains.trans (h : Retains t t') (h' : Retains t' t'') : Retains t t'' :=
  fun x hx => h' x (h x hx)

/-- What is below a node that is taken out goes with it, and nothing else does. -/
theorem Moved.reach_root_iff {c : NodeId} (m : Moved t t' c none) (h : Forest t) (hroot : c ≠ root)
    (hd : t.data? c ≠ some .fragment) (hx : t.Reach root x) : t'.Reach root x ↔ ¬ t.Reach c x := by
  refine ⟨fun hx' => ?_, m.reach_of_not h hd hx⟩
  clear hx
  induction hx' with
  | refl => exact fun hc => hroot (h.reach_root hc)
  | tail _ hab ih =>
    rcases (m.rehung h hd _ _).1 hab with ⟨hne, hab⟩ | ⟨-, ⟨⟩⟩
    exact fun hc => ih (h.reach_of_above hab hc (Ne.symm hne))

theorem Extends.retains (h : Forest t) (e : Extends t t') : Retains t t' := fun x hx =>
  (e.reach_iff root x (h.reach_lt h.root_lt hx)).2 hx

end Tree

/-- What rules framesets out when it is opened. -/
def barring : List Part := [.table, .select, .template]

/-- Without such a part the innermost part is one of the outermost elements. -/
theorem Frame.plain {bones : List Part} {modes : List InsertionMode} (h : Frame bones modes)
    (hn : ∀ p ∈ bones, p ∉ barring) :
    ∃ p rest, bones = p :: rest ∧ p ∈ [Part.html, .head, .body, .frameset] := by
  induction h with
  | html => exact ⟨.html, [], rfl, by decide⟩
  | @outer p hp => exact ⟨p, [.html], rfl, List.mem_cons_of_mem _ hp⟩
  | @frameset bones _ _ => exact ⟨.frameset, .frameset :: bones, rfl, by decide⟩
  | @inside p bones modes _ hm ih =>
    obtain ⟨q, rest, rfl, hq⟩ := ih fun p hp => hn p (List.mem_cons_of_mem _ hp)
    have hp := hn p (List.mem_cons_self ..)
    simp only [List.mem_cons, List.not_mem_nil, or_false] at hq
    rcases hq with rfl | rfl | rfl | rfl <;> revert hm hp <;> cases p <;>
      simp [modeOf, Part.hosts, barring]
  | template _ _ _ => exact absurd (hn .template (List.mem_cons_self ..)) (by decide)

namespace TreeBuilder

variable {token token' : Token} {mode : InsertionMode} {b b' a : TreeBuilder} {cs : List Char}
  {o o' : Outcome}

/-! ## 2. The adoption agency -/

section Climbs

variable {deeper between copies rest outer : List NodeId} {block : NodeId} {w₀ w : Walk}

/-- What has been in the document is still there, or it is below what is carried. -/
theorem Climbs.reach (c : Climbs deeper block outer w₀ between copies rest w)
    (h : Walk.Sound b deeper block [] between outer w₀) {x : NodeId}
    (hx : w₀.builder.tree.Reach root x) :
    w.builder.tree.Reach root x ∨ w.builder.tree.Reach w.lastNode x := by
  induction c with
  | start => exact Or.inl hx
  | forget _ _ ih => exact ih
  | close _ _ ih => exact ih
  | @copy copies rest node id w i tag tree c hi htag hnew ih =>
    have hcarried := (c.sound h).carried
    have hf := hcarried.forest
    have hlast := hcarried.lt hcarried.mem_stack
    obtain ⟨g, m⟩ := hcarried.moved_copy hnew
    obtain ⟨l, hl⟩ := hcarried.exists_label
    have hsolid := ne_fragment_of_label (g.keeps _ l hl)
    have hforest := g.forest hf
    have hdown : (tree.appendChild id w.lastNode).Reach id w.lastNode :=
      .single (Or.inl (by rw [m.parent, if_pos rfl]))
    have hgrown : ∀ {y}, w.builder.tree.Reach y x → y < w.builder.tree.size → tree.Reach y x :=
      fun hy hlt => (g.reach_iff hf (hf.reach_lt hlt hy)).2 hy
    -- what is below the carried node stays below it, and that comes into the copy; the rest is
    -- not touched
    by_cases hbelow : tree.Reach w.lastNode x
    · exact Or.inr (hdown.trans (m.reach_below hforest hsolid hbelow))
    · rcases ih with hroot | hcarry
      · exact Or.inl (m.reach_of_not hforest hsolid (hgrown hroot hf.root_lt) hbelow)
      · exact absurd (hgrown hcarry hlast) hbelow

end Climbs

theorem Adopts.retains {r : AgencyRound} (h : Adopts b b' r) : b.tree.Retains b'.tree := by
  intro x hx
  have hcarried := (h.carriable.sound h.climbs).carried
  obtain ⟨hroot, hnot⟩ := h.carriable.target h.climbs
  have hmem := hcarried.mem
  have m := (h.carriable.shifted h.climbs).toMoved
  obtain ⟨l, hl⟩ := Option.isSome_iff_exists.1 (hcarried.element _ hcarried.mem_stack)
  have hsolid := ne_fragment_of_label hl
  -- what is carried is put down in the document
  have hput : (r.walk.putDown r.outer).builder.tree.Reach root x := by
    rcases h.climbs.reach (h.carriable.start _) hx with hx | hx
    · exact m.reach_root hcarried.forest hsolid rfl (hnot _ hmem) hroot hx
    · have hdown : (r.walk.putDown r.outer).builder.tree.Reach (r.walk.target r.outer).parent
          r.walk.lastNode := .single (Or.inl (by rw [m.parent, if_pos rfl]))
      have htarget := m.reach_of_not hcarried.forest hsolid hroot (hnot _ hmem)
      exact (htarget.trans hdown).trans (m.reach_below hcarried.forest hsolid hx)
  -- the children of the block are wrapped where they are
  have hplanted := (h.carriable.rebuilt h.climbs).1.planted
  have hformatting : r.tag.name ∈ Category.formatting :=
    ((h.carriable.sound h.climbs).named r.element r.tag (List.mem_of_getElem? h.entry)).1
  have hnone := contents?_createElement (t := (r.walk.putDown r.outer).builder.tree) r.tag.name
    r.tag.attributes .html (not_html_of_formatting hformatting).2.2
  rw [h.created] at hnone
  rw [h.tree_eq]
  exact (wrapped_moveChildren hplanted.forest h.grown_copy hnone h.block_lt).reach hplanted.forest
    hput

/-! ## 3. Steps -/

/-- The body is not taken out for this token in this mode. -/
def Harmless (token : Token) (mode : InsertionMode) (b : TreeBuilder) : Prop :=
  ∀ tag, token = .startTag tag → tag.name = "frameset" → mode ∈ bodyModes → b.framesetOk = false

theorem Step.retains (s : Step token mode b b') (h : Rooted b) (hharm : Harmless token mode b) :
    b.tree.Retains b'.tree := by
  have hf := h.anchored.forest
  cases s with
  | aside a => exact a.tree ▸ .refl
  | @insert name attributes ns =>
    obtain ⟨id, tree, heq, w, -⟩ := insertElement_eq h.anchored name attributes ns
    rw [heq]
    exact (w.sprout hf (place_lt h.anchored)).toExtends.retains hf
  | leaf hd hp =>
    exact ((put_leaf hf (hp.lt h) (Token.isLeaf hd) _).1.sprout hf (hp.lt h)).toExtends.retains hf
  | setMode documentMode => exact ((sameShape_setMode hf.linked documentMode).extends hf).retains hf
  | @merge _ tag =>
    obtain ⟨tree, heq, e, -⟩ := mergeAttributes_eq hf _ tag.attributes
    rw [heq]
    exact e.retains hf
  | adopt _ _ ha => exact ha.retains
  | unbody ht hname hm _ _ hok =>
    rw [hharm _ ht hname hm] at hok
    cases hok
  | _ => exact .refl

theorem Acts.framesetOk (h : Acts token mode b cs a) (hb : Rooted b) (hok : a.framesetOk = true) :
    b.framesetOk = true := by
  induction h with
  | refl => exact hok
  | step _ s ih => exact ih (s.framesetOk hok)
  | char h _ _ c ih =>
    obtain ⟨tree, heq, -⟩ := insertChar_eq (h.rooted hb).anchored c
    rw [heq] at hok
    exact ih hok

theorem Acts.retains (h : Acts token mode b cs a) (hb : Rooted b) (hharm : Harmless token mode b) :
    b.tree.Retains a.tree := by
  induction h with
  | refl => exact .refl
  | step h s ih =>
    refine ih.trans (s.retains (h.rooted hb) fun tag ht hname hm => ?_)
    exact Bool.eq_false_iff.2 fun hok =>
      Bool.eq_false_iff.1 (hharm tag ht hname hm) (h.framesetOk hb hok)
  | char h _ _ c ih =>
    obtain ⟨tree, heq, e, -⟩ := insertChar_eq (h.rooted hb).anchored c
    rw [heq]
    exact ih.trans (e.retains (h.rooted hb).anchored.forest)

/-! ## 4. Rounds -/

theorem Round.retains (r : Round b token o) (hharm : Harmless token b.mode b) :
    b.tree.Retains o.builder.tree := by
  obtain ⟨text, cs, -, hacts, -⟩ := r.performs.exists_acts
  exact hacts.retains (r.working.rooted text) hharm

theorem Round.framesetOk (r : Round b token o) (hok : o.builder.framesetOk = true) :
    b.framesetOk = true := by
  obtain ⟨text, cs, -, hacts, -⟩ := r.performs.exists_acts
  exact hacts.framesetOk (r.working.rooted text) hok

/-- A token is no frameset, or framesets have been ruled out. -/
def Tame (token : Token) (b : TreeBuilder) : Prop :=
  ∀ tag, token = .startTag tag → tag.name = "frameset" → b.framesetOk = false

theorem Rounds.retains (r : Rounds b token o b') (h : Tame token b) : b.tree.Retains b'.tree := by
  induction r with
  | last r _ => exact r.retains fun tag ht hname _ => h tag ht hname
  | more r _ hf _ ih =>
    refine (r.retains fun tag ht hname _ => h tag ht hname).trans (ih fun tag ht' hname => ?_)
    obtain rfl | ⟨image, -, -, rfl⟩ := hf
    · exact Bool.eq_false_iff.2 fun hok => Bool.eq_false_iff.1 (h tag ht' hname) (r.framesetOk hok)
    · cases ht'
      exact absurd hname (show "img" ≠ "frameset" by decide)

/-! ## 5. Framesets -/

section Frameset

variable {tag : Tag} (hname : tag.name = "frameset")
include hname

/-- In foreign content a frameset is an element like any other. -/
theorem next_foreignContent : (b.foreignContent (.startTag tag)).next = .done := by
  have hbreakout : "frameset" ∉ Category.breakout := by decide
  have hbreaks : breaksOut tag = false := by simp [breaksOut, hname, hbreakout]
  rw [foreignContent, hbreaks]
  rfl

/-- The modes before the body. -/
def earlyModes : List InsertionMode :=
  [.initial, .beforeHtml, .beforeHead, .inHead, .inHeadNoscript, .afterHead]

/-- Before the body, a frameset is inserted, or is handed on to a mode that comes before it too. -/
theorem early_cases (hm : b.mode ∈ earlyModes) : (b.modeRules (.startTag tag)).next = .done ∨
    ∃ b₁ : TreeBuilder, b.modeRules (.startTag tag) = b₁.reprocess (.startTag tag) ∧
    b₁.mode ∈ earlyModes := by
  have hhead : "frameset" ∉ Category.headContent := by decide
  have hnoscript : isNoscriptContent "frameset" = false := by decide
  -- each of these modes makes what is missing and hands the token on to the next one, up to the
  -- mode after the head
  cases hmode : b.mode <;> simp only [hmode] at hm <;> simp only [modeRules, hmode]
  case initial => exact Or.inr ⟨_, rfl, show InsertionMode.beforeHtml ∈ earlyModes by decide⟩
  case beforeHtml =>
    exact Or.inr ⟨(b.insertRoot []).switchTo .beforeHead, by simp [beforeHtml, hname],
      show InsertionMode.beforeHead ∈ earlyModes by decide⟩
  case beforeHead =>
    exact Or.inr ⟨b.startHead [], by simp [beforeHead, hname],
      show InsertionMode.inHead ∈ earlyModes by decide⟩
  case inHead =>
    exact Or.inr ⟨b.pop.switchTo .afterHead, by simp [inHead, hname, hhead],
      show InsertionMode.afterHead ∈ earlyModes by decide⟩
  case inHeadNoscript =>
    exact Or.inr ⟨(b.report .unexpectedStartTag).pop.switchTo .inHead,
      by simp [inHeadNoscript, hname, hnoscript], show InsertionMode.inHead ∈ earlyModes by decide⟩
  case afterHead => exact Or.inl (by simp [afterHead, hname, done])
  all_goals exact absurd hm (by decide)

theorem follows_frameset (hf : Follows (.startTag tag) token') : token' = .startTag tag := by
  obtain rfl | ⟨image, heq, himage, -⟩ := hf
  · rfl
  · cases heq
    rw [hname] at himage
    exact absurd himage (by decide)

theorem Rounds.retains_early (r : Rounds b token o b') (ht : token = .startTag tag)
    (ho : o = b.rules token) (hm : b.mode ∈ earlyModes) : b.tree.Retains b'.tree := by
  -- only the rules of the body could replace the body, and these modes come before them
  have hharm : ∀ {b : TreeBuilder} {token : Token}, b.mode ∈ earlyModes → Harmless token b.mode b :=
    fun hm _ _ _ hm' => by
      have hdisjoint : ∀ mode ∈ earlyModes, mode ∉ bodyModes := by decide
      exact absurd hm' (hdisjoint _ hm)
  induction r with
  | last r _ => exact r.retains (hharm hm)
  | @more b b' token token' o o' r hon hf _ ih =>
    subst ht
    obtain rfl := follows_frameset hname hf
    have hcases : o.next = .done ∨
        ∃ b₁ : TreeBuilder, o = b₁.reprocess (.startTag tag) ∧ b₁.mode ∈ earlyModes := by
      rw [ho, rules]
      split
      · exact early_cases hname hm
      · exact Or.inl (next_foreignContent hname)
    rcases hcases with hdone | ⟨b₁, rfl, hm₁⟩
    · rw [Outcome.handOn?, hdone] at hon
      cases hon
    · cases hon
      exact (r.retains (hharm hm)).trans (ih rfl rfl hm₁)

/-- The modes in which a frameset may take the place of the body. -/
def lateModes : List InsertionMode := [.inBody, .afterBody, .afterAfterBody]

omit hname in
theorem Rounds.eq_of_done (r : Rounds b token o b') (hdone : o.next = .done) : b' = o.builder := by
  cases r with
  | last => rfl
  | more _ hon =>
    rw [Outcome.handOn?, hdone] at hon
    cases hon

theorem rules_inBody (hm : b.mode = .inBody) (huses : b.usesMode (.startTag tag) = true) :
    b.rules (.startTag tag) = (b.lateFrameset tag).done := by
  have hkind : BodyStart.ofName "frameset" = .frameset := by decide
  rw [rules, if_pos huses, modeRules, hm]
  simp only [inBody, bodyStart, hname, hkind]

/-- After the body, the rules of the body decide about a frameset. -/
theorem Rounds.late (r : Rounds b (.startTag tag) (b.rules (.startTag tag)) b')
    (hm : b.mode ∈ lateModes) (huses : b.usesMode (.startTag tag) = true) :
    ∃ b₁ : TreeBuilder, b₁.tree = b.tree ∧
      b₁.openElements = b.openElements ∧ b₁.framesetOk = b.framesetOk ∧
      b' = b₁.lateFrameset tag := by
  -- after the body the token is handed on to the rules of the body, and they are done with it
  have hback : ∀ {b' : TreeBuilder} {o : Outcome}, Rounds b (.startTag tag) o b' →
      o = b.backToBody (.startTag tag) → ∃ b₁ : TreeBuilder, b₁.tree = b.tree ∧
        b₁.openElements = b.openElements ∧ b₁.framesetOk = b.framesetOk ∧
        b' = b₁.lateFrameset tag := by
    intro b' o r ho
    cases r with
    | last _ hdone =>
      rw [ho] at hdone
      cases hdone
    | more _ hon hf r =>
      rw [ho] at hon r
      cases hon
      refine ⟨(b.report .unexpectedStartTag).switchTo .inBody, rfl, rfl, rfl, ?_⟩
      have hrules := rules_inBody hname (b := (b.report .unexpectedStartTag).switchTo .inBody)
        rfl huses
      exact (r.eq_of_done (congrArg Outcome.next hrules)).trans (congrArg Outcome.builder hrules)
  simp only [lateModes, List.mem_cons, List.not_mem_nil, or_false] at hm
  rcases hm with hm | hm | hm
  · have hrules := rules_inBody hname hm huses
    refine ⟨b, rfl, rfl, rfl, ?_⟩
    exact (r.eq_of_done (congrArg Outcome.next hrules)).trans (congrArg Outcome.builder hrules)
  · refine hback r ?_
    rw [rules, if_pos huses, modeRules, hm]
    simp [afterBody, hname]
  · refine hback r ?_
    rw [rules, if_pos huses, modeRules, hm]
    simp [afterAfterBody, hname]

/-- The other modes that framesets are allowed in do without the body. -/
theorem next_of_frameset
    (hm : b.mode ∈ [InsertionMode.text, .inFrameset, .afterFrameset, .afterAfterFrameset]) :
    (b.rules (.startTag tag)).next = .done := by
  rw [rules]
  split
  · simp only [List.mem_cons, List.not_mem_nil, or_false] at hm
    rcases hm with hm | hm | hm | hm <;> rw [modeRules, hm]
    · rfl
    · simp [inFrameset, hname, done]
    · simp [afterFrameset, hname, refuse, done]
    · simp [afterAfterFrameset, hname, refuse, done]
  · exact next_foreignContent hname

/-! ## 6. The place of the body -/

omit hname in
theorem reach_lateFrameset (h : Anchored b.tree b.openElements) {body : NodeId}
    (hat : b.openAt? 1 = some body) (hbody : b.isHtml "body" body = true)
    (hok : b.framesetOk = true) {x : NodeId} (hx : b.tree.Reach root x) :
    (b.lateFrameset tag).tree.Reach root x ↔ ¬ b.tree.Reach body x := by
  have hf := h.forest
  have hl := isHtml_iff.1 hbody
  have m := moved_detach hf.linked body
  have hanchored := anchored_detach (b := b.report .unexpectedStartTag) h hat hl
  obtain ⟨id, tree, heq, w, -⟩ := insertElement_eq
    (b := { b.report .unexpectedStartTag with tree := b.tree.detach body }.truncate 1) hanchored
    tag.name tag.attributes .html
  -- with the body taken out, the frameset is inserted like any element
  have htree : (b.lateFrameset tag).tree = tree := by
    have hlate : b.lateFrameset tag = (({ b.report .unexpectedStartTag with
        tree := b.tree.detach body }.truncate 1).insertHtml tag).switchTo .inFrameset := by
      have hat' : (b.report .unexpectedStartTag).openAt? 1 = some body := hat
      have hcond' : ((b.report .unexpectedStartTag).isHtml "body" body &&
        (b.report .unexpectedStartTag).framesetOk) = true := Bool.and_eq_true_iff.2 ⟨hbody, hok⟩
      have hdetach : (b.report .unexpectedStartTag).tree.detach? body = some (b.tree.detach body) :=
        detach?_eq hf.linked body
      simp only [lateFrameset, hat', hcond', hdetach, if_true, Option.bind_eq_bind,
        Option.bind_some]
      rfl
    rw [hlate, insertHtml, heq]
    rfl
  -- the frameset is new, so it is in no way between old nodes
  have e := (w.sprout hanchored.forest (place_lt hanchored)).toExtends
  have hlt : x < (b.tree.detach body).size := by
    rw [m.size]
    exact hf.reach_lt hf.root_lt hx
  rw [htree, e.reach_iff root x hlt]
  exact m.reach_root_iff hf (hf.ne_root_of_label hl) (ne_fragment_of_label hl) hx

omit hname in
theorem tree_lateFrameset (h : ∀ body, b.openAt? 1 = some body → b.isHtml "body" body = true →
    b.framesetOk = false) : (b.lateFrameset tag).tree = b.tree := by
  unfold lateFrameset
  dsimp only
  split
  · rfl
  · next body hat =>
    split
    · next hcond =>
      obtain ⟨hbody, hok⟩ := Bool.and_eq_true_iff.1 hcond
      rw [show b.framesetOk = true from hok] at h
      cases h body hat hbody
    · rfl

end Frameset

/-! ## 7. Where framesets are allowed -/

/-- While framesets are allowed, no table, select element or template is open. -/
def Barred (b : TreeBuilder) : Prop :=
  b.framesetOk = true → ∀ x ∈ b.openElements, ∀ p, b.tree.part? x = some p → p ∉ barring

theorem Barred.of_subset (hb : Barred b) (h : Rooted b) (hk : b.tree.Keeps b'.tree)
    (hok : b'.framesetOk = true → b.framesetOk = true)
    (hs : b'.framesetOk = true → ∀ x ∈ b'.openElements, x ∈ b.openElements ∨
      ∀ p, b'.tree.part? x = some p → p ∉ barring) : Barred b' := by
  intro hok' x hx p hp
  rcases hs hok' x hx with hopen | hnew
  · rw [part?, h.label_eq hk hopen] at hp
    exact hb (hok hok') x hopen p hp
  · exact hnew p hp

theorem Step.barred (s : Step token mode b b') (h : Rooted b) (hb : Barred b) : Barred b' := by
  -- it is enough that what is opened may be open without the flag
  refine hb.of_subset h (s.keeps h) s.framesetOk fun hok x hx => ?_
  cases s with
  | aside a => exact Or.inl (a.openElements ▸ hx)
  | close hs => exact Or.inl (hs.subset hx)
  | forget _ hs => exact Or.inl ((sublist_of_forget hs).subset hx)
  | @insert name attributes ns _ _ _ _ hbefore =>
    obtain ⟨id, tree, heq, -, hl⟩ := insertElement_eq h.anchored name attributes ns
    rw [heq] at hx ⊢
    rcases List.mem_cons.1 hx with rfl | hx
    · refine Or.inr fun p hp => (hbefore hok).2 p ?_
      exact (part?_of_label hl).symm.trans hp
    · exact Or.inl hx
  | @pushHead head _ _ _ hhead =>
    rcases List.mem_cons.1 hx with rfl | hx
    · refine Or.inr fun p hp => ?_
      obtain rfl := Option.some.inj ((part?_of_label hhead).symm.trans hp)
      decide
    · exact Or.inl hx
  | unmark hopen => exact Or.inl (hopen ▸ List.mem_append_right _ hx)
  | stop => exact absurd hx List.not_mem_nil
  | adopt _ _ ha =>
    refine (ha.mem_openElements hx).imp_right ?_
    rintro ⟨name, hname, hl⟩ p hp
    rw [part?_of_label hl, partOf_html, ofName?_formatting name hname] at hp
    cases hp
  | unbody => exact Or.inl ((List.drop_sublist _ _).subset hx)
  | _ => exact Or.inl hx

theorem kept_barred : Kept (fun _ => True) (fun _ => True) Barred where
  follows _ _ := trivial
  mode _ _ := trivial
  note ht hs _ hf _ hb hok x hx := by
    rw [ht]
    exact hb (hf hok) x (hs ▸ hx)
  step _ _ s hr _ hb := s.barred hr hb
  char c hr hl hp _ hb := by
    obtain ⟨tree, heq, e, -⟩ := insertChar_eq hr.anchored c
    rw [heq]
    exact hb.of_subset hr e.keeps id fun _ x hx => Or.inl hx

theorem mode_of_barred (h : Spine b) (hb : Barred b) (hok : b.framesetOk = true) :
    b.mode ∈ earlyModes ∨ b.mode ∈ lateModes ∨
      b.mode ∈ [InsertionMode.text, .inFrameset, .afterFrameset, .afterAfterFrameset] := by
  -- an open element that bars framesets has made them not allowed, so the innermost part is one of
  -- the outermost ones, and the mode is theirs
  have hsteady : ∀ {mode}, Steady b.tree b.openElements b.templateModes b.headElement.isSome mode →
      mode.kind ∈ [InsertionMode.beforeHead, .afterHead, .inHead, .inBody, .inFrameset] := by
    intro mode hs
    obtain ⟨p, rest, hbones, hp⟩ := hs.1.frame.plain fun p hp => by
      obtain ⟨x, hx, hpart⟩ := List.mem_filterMap.1 hp
      exact hb hok x hx p hpart
    rw [hs.2, hbones]
    simp only [List.mem_cons, List.not_mem_nil, or_false] at hp
    rcases hp with rfl | rfl | rfl | rfl
    · rw [modeOf]
      split <;> decide
    all_goals simp [modeOf]
  have hstanding := h.standing
  cases hm : b.mode <;> rw [hm] at hstanding
  case inTableText =>
    obtain ⟨mode, hmode, -, hs⟩ := hstanding
    have hkind := hsteady hs
    revert hmode hkind
    cases mode <;> decide
  all_goals first
    | decide
    | exact absurd (hsteady hstanding) (by decide)

/-! ## 8. Every token -/

/-- The token is a frameset that the rules of the body put in the place of `body`. -/
def ReplacesBody (b : TreeBuilder) (token : Token) (body : NodeId) : Prop :=
  (∃ tag, token = .startTag tag ∧ tag.name = "frameset") ∧ b.usesMode token = true ∧
    b.mode ∈ lateModes ∧ b.framesetOk = true ∧ b.openAt? 1 = some body ∧ b.isHtml "body" body = true

theorem Working.reach_replaced (h : Working b) {body : NodeId} (hr : ReplacesBody b token body)
    {x : NodeId} (hx : b.tree.Reach root x) :
    (b.dispatch token).tree.Reach root x ↔ ¬ b.tree.Reach body x := by
  obtain ⟨⟨tag, rfl, hname⟩, huses, hm, hok, hat, hbody⟩ := hr
  obtain ⟨b₁, ht, ho, hf, heq⟩ := (h.rounds (.startTag tag)).late hname hm huses
  have hanchored := h.spine.toSound.rooted.anchored
  have hat' : b₁.openAt? 1 = some body := by rw [openAt?, ho]; exact hat
  have hbody' : b₁.isHtml "body" body = true := by rw [isHtml, ht]; exact hbody
  rw [heq, reach_lateFrameset (ht ▸ ho ▸ hanchored) hat' hbody' (hf ▸ hok) (ht ▸ hx), ht]

theorem Working.retains (h : Working b) (hb : Barred b)
    (hno : ∀ body, ¬ ReplacesBody b token body) : b.tree.Retains (b.dispatch token).tree := by
  have r := h.rounds token
  have hround : Round b token (b.rules token) := ⟨h, Or.inl rfl⟩
  by_cases htame : Tame token b
  · exact r.retains htame
  · simp only [Tame, not_forall, Bool.not_eq_false] at htame
    obtain ⟨tag, rfl, hname, hok⟩ := htame
    by_cases huses : b.usesMode (.startTag tag) = true
    · rcases mode_of_barred h.spine hb hok with hm | hm | hm
      · exact r.retains_early hname rfl rfl hm
      · obtain ⟨b₁, ht, ho, hf, heq⟩ := r.late hname hm huses
        rw [heq, tree_lateFrameset fun body hat hbody => ?_, ht]
        · exact .refl
        · rw [openAt?, ho] at hat
          rw [isHtml, ht] at hbody
          exact absurd ⟨⟨tag, rfl, hname⟩, huses, hm, hok, hat, hbody⟩ (hno body)
      · rw [r.eq_of_done (next_of_frameset hname hm)]
        have hdisjoint :
            ∀ mode ∈ [InsertionMode.text, .inFrameset, .afterFrameset, .afterAfterFrameset],
            mode ∉ bodyModes := by decide
        exact hround.retains fun _ _ _ hm' => absurd hm' (hdisjoint _ hm)
    · have huses := Bool.eq_false_iff.2 huses
      have hrules : b.rules (.startTag tag) = b.foreignContent (.startTag tag) := by
        rw [rules, if_neg (Bool.eq_false_iff.1 huses)]
      rw [r.eq_of_done (hrules ▸ next_foreignContent hname), hrules]
      -- the rules of foreign content have nothing to do with the body
      obtain ⟨cs, hchanges, -⟩ := contentChanges_foreignContent h.spine huses .text
      exact hchanges.acts.retains h.spine.toSound.rooted fun _ _ _ hm => absurd hm (by decide)

/-- Whatever token is fed, what is in the document stays in it, unless the token is a frameset that
takes the place of the body; then the body goes with everything in it, and nothing else. -/
theorem descends_of_reachable (h : Reachable b) (t : PositionedToken) :
    b.stopped = true ∧ b.process t = .error .alreadyFinished ∨ ∃ b', b.process t = .ok b' ∧
      (∀ body, ReplacesBody b t.token body → ∀ x, b.tree.Descends root x →
        (b'.tree.Descends root x ↔ ¬ b.tree.Descends body x)) ∧
      ((∀ body, ¬ ReplacesBody b t.token body) →
        ∀ x, b.tree.Descends root x → b'.tree.Descends root x) := by
  cases hs : b.stopped with
  | true =>
    refine Or.inl ⟨rfl, ?_⟩
    rw [TreeBuilder.process, if_pos hs]
  | false =>
    have hw := h.working hs
    have hb : Barred b := kept_barred.reachable (fun _ _ _ x hx => absurd hx List.not_mem_nil) h
    obtain ⟨-, -, b', hp, -⟩ := process_of_reachable h hs t
    have hf := hw.spine.toSound.planted.forest
    have hf' := (Reachable.process t h hp).valid.planted.forest
    refine Or.inr ⟨b', hp, ?_⟩
    simp only [hf.descends_iff, hf'.descends_iff]
    obtain ⟨-, ht, rfl⟩ | ⟨-, rfl⟩ := hw.process_cases hp
    · -- a character may be skipped, and then nothing has changed; it is no frameset either
      refine ⟨fun body hr => ?_, fun _ _ => id⟩
      obtain ⟨⟨tag, htag, -⟩, -⟩ := hr
      rw [ht] at htag
      cases htag
    · have hw' := hw.receive t
      have hb' : Barred (b.receive t) := hb
      obtain ⟨errors, he⟩ := release_eq ((b.receive t).dispatch t.token)
      rw [he]
      exact ⟨fun body hr x hx => hw'.reach_replaced hr hx, fun hno => hw'.retains hb' hno⟩

/-- A paragraph in a body that nothing has ruled out framesets for. -/
def paragraphed : List Token := [.startTag { name := "p" }]

theorem descends_paragraphed : ∃ b p body b' b'', feed {} paragraphed = .ok b ∧
    b.tree.Descends root p ∧ b.tree.Descends body p ∧
    b.process ⟨.startTag { name := "frameset" }, .start⟩ = .ok b' ∧ ¬ b'.tree.Descends root p ∧
    b.process ⟨.startTag { name := "div" }, .start⟩ = .ok b'' ∧ b''.tree.Descends root p := by
  obtain ⟨b, hb, hs, hmode, hok, huses, hopen, hbody, hchild⟩ := exists_ok (feed {} paragraphed)
    (fun b => b.stopped = false ∧ b.mode = .inBody ∧ b.framesetOk = true ∧
      b.usesMode (.startTag { name := "frameset" }) = true ∧ b.openElements = [4, 3, 1] ∧
      b.isHtml "body" 3 = true ∧ 4 ∈ b.tree.children 3) (by with_unfolding_all decide)
  have hreach : Reachable b := .feed (.start false false) hb
  have hroot : b.tree.Descends root 4 := ((wellFormed_of_reachable hreach).2 4 (by simp [hopen])).2
  have hbelow : b.tree.Descends 3 4 := .single (Or.inl hchild)
  have hreplaces : ReplacesBody b (.startTag { name := "frameset" }) 3 :=
    ⟨⟨_, rfl, rfl⟩, huses, by rw [hmode]; decide, hok, by simp [openAt?, hopen], hbody⟩
  obtain ⟨hstopped, -⟩ | ⟨b', hb', hgone, -⟩ :=
    descends_of_reachable hreach ⟨.startTag { name := "frameset" }, .start⟩
  · rw [hs] at hstopped
    cases hstopped
  obtain ⟨hstopped, -⟩ | ⟨b'', hb'', -, hkept⟩ :=
    descends_of_reachable hreach ⟨.startTag { name := "div" }, .start⟩
  · rw [hs] at hstopped
    cases hstopped
  refine ⟨b, 4, 3, b', b'', hb, hroot, hbelow, hb', ?_, hb'', hkept ?_ 4 hroot⟩
  · exact fun hx => (hgone 3 hreplaces 4 hroot).1 hx hbelow
  · rintro body ⟨⟨tag, htag, hname⟩, -⟩
    cases htag
    exact absurd hname (by decide)

end TreeBuilder

end Hypertext
