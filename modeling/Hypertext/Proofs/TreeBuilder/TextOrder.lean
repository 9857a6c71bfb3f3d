import Hypertext.Proofs.TreeBuilder.Rightmost

/-!
# Text keeps its order

Without tables, templates and framesets, the text of the body only grows at its end, by the
characters that come in. The body stays open until the input ends, and the current element, which
takes in the text, comes last in it. Whatever else a rule does, the adoption agency included, the
body reads the same afterwards.
-/

namespace Hypertext

open Hypertext.Tree

/-! ## 1. The body -/

namespace TreeBuilder

variable {token : Token} {mode : InsertionMode} {b b' a : TreeBuilder} {cs : List Char}
  {o : Outcome} {body : NodeId} {r : AgencyRound}

theorem Adopts.housed (h : Adopts b b' r) (hb : b.tree.Housed body) : b'.tree.Housed body := by
  have hp := h.carriable.planted
  have hp' := h.rebuilt.planted
  rw [hp.upright.housed_iff hp.forest.linked] at hb
  rw [hp'.upright.housed_iff hp'.forest.linked, h.rebuilt.skeleton]
  exact ⟨hb.1, h.rebuilt.keeps _ _ hb.2⟩

/-- Only framesets take the body out. -/
theorem Step.housed (s : Step token mode b b') (ht : Flowing token) (h : Rooted b)
    (hb : b.tree.Housed body) : b'.tree.Housed body := by
  have hf := h.anchored.forest
  cases s with
  | aside a => exact a.tree ▸ hb
  | @insert name attributes ns =>
    obtain ⟨id, tree, heq, w, -⟩ := insertElement_eq h.anchored name attributes ns
    rw [heq]
    exact hb.extend (w.sprout hf (place_lt h.anchored)).toExtends
  | leaf hd hp =>
    exact hb.extend ((put_leaf hf (hp.lt h) (Token.isLeaf hd) _).1.sprout hf (hp.lt h)).toExtends
  | setMode documentMode => exact hb.extend ((sameShape_setMode hf.linked documentMode).extends hf)
  | @merge _ tag =>
    obtain ⟨tree, heq, e, -⟩ := mergeAttributes_eq hf _ tag.attributes
    rw [heq]
    exact hb.extend e
  | adopt _ _ ha => exact ha.housed hb
  | unbody htoken hname =>
    rw [htoken, Flowing, hname] at ht
    exact absurd (by decide) ht
  | _ => exact hb

theorem kept_housed : Kept Flowing (fun _ => True) fun b => b.tree.Housed body where
  follows := kept_rightmost.follows
  mode _ _ := trivial
  note ht _ _ _ _ hb := ht ▸ hb
  step ht _ s h _ hb := s.housed ht h hb
  char c h _ _ _ hb := by
    obtain ⟨tree, heq, e, -⟩ := insertChar_eq h.anchored c
    rw [heq]
    exact hb.extend e

/-- A body is not opened twice. -/
theorem Step.mem_of_mem (s : Step token mode b b') (h : Rooted b)
    (hl : b.tree.label? body = some (.html, "body")) (hx : body ∈ b'.openElements) :
    body ∈ b.openElements := by
  have hk := s.keeps h body _ hl
  cases s with
  | aside a => exact a.openElements ▸ hx
  | close hs => exact hs.subset hx
  | forget _ hs => exact (sublist_of_forget hs).subset hx
  | @insert name attributes ns =>
    obtain ⟨id, tree, heq, w, -⟩ := insertElement_eq h.anchored name attributes ns
    rw [heq] at hx
    refine (List.mem_cons.1 hx).resolve_left ?_
    rintro rfl
    have hfresh := (w.sprout h.anchored.forest (place_lt h.anchored)).fresh
    -- the body is an old node, and the one that is opened here is new
    exact absurd (lt_size_of_label? hl) (Nat.not_lt.2 hfresh)
  | pushHead _ _ hhead =>
    refine (List.mem_cons.1 hx).resolve_left ?_
    rintro rfl
    simp [hl] at hhead
  | unmark hopen => exact hopen ▸ List.mem_append_right _ hx
  | stop => exact absurd hx List.not_mem_nil
  | adopt _ _ ha =>
    -- the copies that the agency opens have the names of formatting elements
    refine (ha.mem_openElements hx).resolve_right ?_
    rintro ⟨name, hname, hl'⟩
    rw [hk] at hl'
    exact (not_html_of_formatting hname).2.1 (Prod.mk.inj (Option.some.inj hl')).2.symm
  | unbody => exact (List.drop_sublist _ _).subset hx
  | _ => exact hx

/-! ## 2. Steps -/

/-- A formatting element is in the body, so the body is open outside. -/
theorem Adopts.mem_outer (h : Adopts b b' r) (ha : Aligned b.tree b.openElements)
    (hb : b.tree.Housed body) (hopen : body ∈ b.openElements) : body ∈ r.outer := by
  have hp := h.carriable.planted
  have hf := hp.forest
  obtain ⟨hl, html, hhtml, hparent, hroot⟩ := hb
  have hne : r.element ≠ body := fun heq => h.movable_element _ (by decide) (heq ▸ hl)
  have hne' : r.element ≠ html := fun heq => h.movable_element _ (by decide) (heq ▸ hhtml)
  by_contra hnot
  -- otherwise the formatting element would be above the document element
  have hcut : b.openElements = (r.deeper ++ r.block :: r.between) ++ r.element :: r.outer := by
    rw [h.carriable.stack]
    simp
  have htail := ha.tail
  obtain ⟨l, helement⟩ := Option.isSome_iff_exists.1 (hp.element r.element (by simp [hcut]))
  rw [hcut] at htail hopen
  have hinner := (List.mem_append.1 hopen).resolve_right fun hmem =>
    hnot ((List.mem_cons.1 hmem).resolve_left (Ne.symm hne))
  have hbelow := (List.pairwise_append.1 htail).2.2 body hinner r.element (by simp)
  have hreach := (hbelow.resolve_left (h.movable_element _ (by decide))).reach hf
  have hreach := hf.reach_of_above (Or.inl hparent) hreach hne
  have hreach := hf.reach_of_above (Or.inl hroot) hreach hne'
  exact hf.ne_root_of_label helement (hf.reach_root hreach)

/-- No step changes the text of the body. -/
theorem Step.textContent (s : Step token mode b b') (ht : Flowing token) (h : Rooted b)
    (ha : Aligned b.tree b.openElements) (hb : b.tree.Housed body)
    (hopen : body ∈ b.openElements ∨ token = .endOfFile) :
    b'.tree.textContent body = b.tree.textContent body := by
  have hf := h.anchored.forest
  have htext := s.text? h
  cases s with
  | aside a => rw [a.tree]
  | @insert name attributes ns =>
    obtain ⟨id, tree, heq, w, -⟩ := insertElement_eq h.anchored name attributes ns
    have hlt := place_lt h.anchored
    -- in an aligned tree the new node comes last, so it is behind all text that there is
    rw [place_eq h.anchored ha] at w hlt
    rw [heq] at htext ⊢
    exact w.textContent hf hlt htext body
  | @leaf data place hd hp =>
    have w := (put_leaf hf (hp.lt h) (Token.isLeaf hd) place.before).1
    rw [(hp.end h ha).1] at w htext ⊢
    exact w.textContent hf (hp.lt h) htext body
  | setMode documentMode =>
    have s := sameShape_setMode hf.linked documentMode
    exact textContent_congr hf (s.extends hf).forest (fun x _ => s.children x) fun x _ => htext x
  | @merge id tag =>
    have s : SameShape b.tree (b.mergeAttributes id tag.attributes).tree :=
      sameShape_modifyElement hf.linked id fun _ => rfl
    exact textContent_congr hf (s.extends hf).forest (fun x _ => s.children x) fun x _ => htext x
  | adopt hend _ had =>
    -- the body is outside of what the agency moves
    have hmem := had.mem_outer ha hb (hopen.resolve_right hend)
    exact (had.aligned ha).2 body hmem (by simp [hb.1])
  | unbody htoken hname =>
    -- a frameset tag is no flowing token
    rw [htoken, Flowing, hname] at ht
    exact absurd (by decide) ht
  | _ => rfl

/-- A character is read after all that was there. -/
theorem textContent_insertChar (h : Rooted b) (hl : b.tree.Leafy)
    (ha : Aligned b.tree b.openElements) (hb : b.tree.Housed body) (hopen : body ∈ b.openElements)
    (hp : b.place.parent ≠ Tree.root) (c : Char) :
    (b.insertChar c).tree.textContent body = b.tree.textContent body ++ c.toString := by
  have hlt := place_lt h.anchored
  rw [insertChar_eq_insertText h.anchored, if_neg hp, place_eq h.anchored ha]
  rw [place_eq h.anchored ha] at hlt
  refine textContent_insertText h.anchored.forest
    (fun x s hx => hl.children_of_text h.anchored.forest hx) hlt ?_ _
  -- the current element comes last in the body
  have htail := ha.tail
  cases hstack : b.openElements with
  | nil => exact absurd hopen (hstack ▸ List.not_mem_nil)
  | cons current outer =>
    rw [hstack] at hopen htail
    rcases List.mem_cons.1 hopen with rfl | hopen
    · exact .refl
    · exact ((List.pairwise_cons.1 htail).1 body hopen).resolve_left (by simp [hb.1])

/-! ## 3. Acts -/

/-- What is inserted for a token is read at the end of the body, if that is still open
afterwards. -/
theorem Acts.textContent (h : Acts token mode b cs a) (ht : Flowing token)
    (hm : mode ∉ tabularModes) (hr : Rooted b) (hl : b.tree.Leafy) (hright : Rightmost b)
    (hb : b.tree.Housed body) (hopen : body ∈ a.openElements ∨ token = .endOfFile ∧ cs = []) :
    a.tree.textContent body = b.tree.textContent body ++ String.ofList cs := by
  induction h with
  | refl => simp
  | step h s ih =>
    have hb' := kept_housed.acts ht trivial h hr hl hb
    have ha := (kept_rightmost.acts ht hm h hr hl hright).toAligned
    have hopen' := hopen.imp_left (s.mem_of_mem (h.rooted hr) hb'.1)
    rw [s.textContent ht (h.rooted hr) ha hb' (hopen'.imp_right And.left), ih hopen']
  | @char cs a h hp _ c ih =>
    have hb' := kept_housed.acts ht trivial h hr hl hb
    have ha := (kept_rightmost.acts ht hm h hr hl hright).toAligned
    have hopen' : body ∈ a.openElements := by
      obtain ⟨tree, heq, -⟩ := insertChar_eq (h.rooted hr).anchored c
      rw [heq] at hopen
      exact hopen.resolve_right (by simp)
    rw [textContent_insertChar (h.rooted hr) (h.leafy hr hl) ha hb' hopen' hp, ih (Or.inl hopen'),
      String.append_assoc, String.ofList_append, Char.toString_eq_singleton]
    rfl

/-! ## 4. Rounds -/

/-- The body is open until the input ends. -/
theorem Spine.mem_of_bodies (h : Spine b) (hright : Rightmost b)
    (hb : body ∈ b.tree.skeleton.bodies) :
    body ∈ b.openElements ∧ b.tree.label? body = some (.html, "body") := by
  have hne : b.tree.skeleton.bodies ≠ [] := List.ne_nil_of_mem hb
  obtain ⟨html, hhtml, -⟩ := mem_bodies.1 hb
  -- a frameset is no flow part, so it is a body that is open, and there is only one
  have hframed {stack : List NodeId} (hs : stack ⊆ b.openElements)
      (hf : Framed b.tree stack b.templateModes b.headElement.isSome) :
      body ∈ b.openElements ∧ b.tree.label? body = some (.html, "body") := by
    have hopen : .body ∈ b.tree.bones stack ∨ .frameset ∈ b.tree.bones stack := by
      by_contra hnot
      exact hne (hf.furnished.body.2 (not_or.1 hnot))
    obtain ⟨p, hp, hmem⟩ : ∃ p ∈ [Part.body, .frameset], p ∈ b.tree.bones stack := by
      simpa using hopen
    obtain ⟨x, hx, hpart⟩ := List.mem_filterMap.1 hmem
    have hflow := hright.parts x (hs hx) p hpart
    obtain rfl : p = .body := by
      revert hp hflow
      cases p <;> simp [flowParts]
    have hl : b.tree.label? x = some (.html, "body") := by
      simpa [Part.names] using part?_eq_some.1 hpart
    have hbodies := h.planted.upright.bodies_eq hb
    have hmem := h.planted.body x (hs hx) hl
    rw [hbodies, List.mem_singleton] at hmem
    exact hmem ▸ ⟨hs hx, hl⟩
  -- the first modes are those without a document element
  have hfits {stack : List NodeId} {mode : InsertionMode} (hs : stack ⊆ b.openElements)
      (hm : mode ∉ pastFrameset)
      (hf : Fits b.tree stack b.templateModes b.headElement.isSome mode) :
      body ∈ b.openElements ∧ b.tree.label? body = some (.html, "body") := by
    unfold Fits at hf
    split at hf
    · obtain ⟨hroot, helement⟩ := documentElement?_mem hhtml
      have hcontent : html ∈ b.tree.skeleton.content := mem_select.2 ⟨hroot, by
        cases hd : b.tree.data? html with
        | none => simp [hd] at helement
        | some d => cases d <;> simp_all [NodeData.isElement, NodeData.isComment]⟩
      rw [hf.2.2.2] at hcontent
      cases hcontent
    · rw [hf.2.2.2] at hhtml
      cases hhtml
    · obtain ⟨x, outer, rfl, -, hsteady⟩ := hf
      exact hframed (fun y hy => hs (List.mem_cons_of_mem x hy)) hsteady.1
    · exact hframed hs hf.1
    · exact hframed hs hf.1
    · simp [pastFrameset] at hm
    · simp [pastFrameset] at hm
    · exact hf.elim
    · exact hf.elim
    · exact hframed hs hf.1
  -- in a text or in the text of a table, it is the mode to go back to that fits
  have hstanding := h.standing
  unfold Standing at hstanding
  split at hstanding
  · obtain ⟨mode, x, outer, hr, hopen, -, hf⟩ := hstanding
    exact hfits (hopen ▸ List.subset_cons_self x outer) (hright.calm.resumeMode mode hr) hf
  · obtain ⟨mode, -, -, hsteady⟩ := hstanding
    exact hframed (List.Subset.refl _) hsteady.1
  · exact hfits (List.Subset.refl _) hright.calm.mode hstanding

/-- What a round writes is read at the end of the body. -/
theorem Round.textContent (r : Round b token o) (ht : Flowing token) (hright : Rightmost b)
    (hb : b.tree.Housed body) : ∃ new, Writes token o.next new ∧
      o.builder.tree.textContent body = b.tree.textContent body ++ String.ofList new := by
  have hm := mode_of_aligned r.working.spine hright.toAligned
  obtain ⟨text, cs, new, hacts, hperm, hw, hc, -⟩ := r.performs.exists_acts
  have hright' := kept_rightmost.round ht r hright
  have hb' := kept_housed.round ht r hb
  have hwaiting : b.tableText = [] := r.working.collects.mode.resolve_right fun heq =>
    hm (heq ▸ List.mem_cons_self ..)
  have htext : o.builder.tableText = text := hacts.tableText
  rw [hwaiting, List.nil_append] at hperm
  -- nothing waits in front of a table, neither before the round nor after it, so what was written
  -- is what was read
  have hall : cs = new ∧ (body ∈ o.builder.openElements ∨ token = .endOfFile ∧ cs = []) := by
    by_cases hend : token = .endOfFile
    · have hnew : new = [] := hw.resolve_right fun ⟨_, c, hchar, _⟩ => by
        rw [hend] at hchar
        cases hchar
      rw [hnew] at hperm ⊢
      have hcs := (List.append_eq_nil_iff.1 hperm.eq_nil).1
      exact ⟨hcs, Or.inr ⟨hend, hcs⟩⟩
    · have hspine := r.spine hend
      have hempty : text = [] := htext ▸ hc.mode.resolve_right fun heq =>
        mode_of_aligned hspine hright'.toAligned (heq ▸ List.mem_cons_self ..)
      rw [hempty, List.append_nil] at hperm
      have hbodies := ((hspine.planted.upright.housed_iff hspine.planted.forest.linked).1 hb').1
      refine ⟨?_, Or.inl (hspine.mem_of_bodies hright' hbodies).1⟩
      obtain rfl | ⟨-, c, -, rfl | ⟨-, rfl⟩⟩ := hw
      · exact hperm.eq_nil
      · exact List.perm_singleton.1 hperm
      · exact List.perm_singleton.1 hperm
  refine ⟨new, hw, ?_⟩
  rw [← hall.1]
  exact hacts.textContent ht hm (r.working.rooted text) r.working.leafy
    ⟨⟨hright.parts, hright.tail⟩, hright.calm⟩ hb hall.2

theorem Rounds.textContent (r : Rounds b token o b') (ht : Flowing token) (hright : Rightmost b)
    (hb : b.tree.Housed body) : ∃ new, Writes token .done new ∧
      b'.tree.textContent body = b.tree.textContent body ++ String.ofList new := by
  induction r with
  | last r hdone =>
    obtain ⟨new, hw, heq⟩ := r.textContent ht hright hb
    exact ⟨new, hdone ▸ hw, heq⟩
  | more r hon hf _ ih =>
    obtain ⟨new, hw, heq⟩ := r.textContent ht hright hb
    obtain ⟨new', hw', heq'⟩ :=
      ih (kept_rightmost.follows ht hf) (kept_rightmost.round ht r hright)
        (kept_housed.round ht r hb)
    refine ⟨new', hw'.of_follows hf, ?_⟩
    rw [heq', heq, hw.of_handOn hon, String.ofList_nil, String.append_empty]

/-! ## 5. Every token -/

theorem ReachableBy.rightmost (h : ReachableBy Flowing b) : Rightmost b :=
  kept_rightmost.reachableBy (fun _ _ => ⟨⟨fun _ hx => absurd hx List.not_mem_nil, .nil⟩,
    ⟨(by decide : InsertionMode.initial ∉ pastFrameset), nofun, nofun⟩⟩) h

/-- Once there is a body, a character comes at the end of its text, if it is written at all, and no
other token changes that text: tables, templates and framesets apart, text keeps its order, whatever
the adoption agency moves. -/
theorem textContent_of_flowing (h : ReachableBy Flowing b) (hs : b.stopped = false)
    (hbody : b.tree.body? = some body) (t : PositionedToken) (ht : Flowing t.token) :
    ∃ b', b.process t = .ok b' ∧ b'.tree.body? = some body ∧
      ((∀ c, t.token ≠ .character c) → b'.tree.textContent body = b.tree.textContent body) ∧
      ∀ c, t.token = .character c →
        b'.tree.textContent body = b.tree.textContent body ∨
        b'.tree.textContent body = b.tree.textContent body ++ c.toString ∨
        c = '\x00' ∧ b'.tree.textContent body = b.tree.textContent body ++ "\uFFFD" := by
  have hw := h.reachable.working hs
  have hright := h.rightmost
  have hplanted := hw.spine.planted
  rw [body?_eq] at hbody
  have hmem := List.mem_of_mem_head? hbody
  have hb : b.tree.Housed body := (hplanted.upright.housed_iff hplanted.forest.linked).2
    ⟨hmem, (hw.spine.mem_of_bodies hright hmem).2⟩
  obtain ⟨b', hp, -⟩ := hw.spine.process t
  have hplanted' := (h.reachable.process t hp).valid.planted
  have hb' := (hplanted'.upright.housed_iff hplanted'.forest.linked).1
    (kept_housed.process ht hw hp hb)
  refine ⟨b', hp, ?_, ?_⟩
  · rw [body?_eq, hplanted'.upright.bodies_eq hb'.1]
    rfl
  -- the first line feed of a preformatted text is skipped
  obtain ⟨-, hnewline, rfl⟩ | ⟨-, rfl⟩ := hw.process_cases hp
  · exact ⟨fun _ => rfl, fun c _ => Or.inl rfl⟩
  · obtain ⟨new, hwrites, heq⟩ := ((hw.receive t).rounds t.token).textContent ht
      ⟨⟨hright.parts, hright.tail⟩, hright.calm⟩ hb
    obtain ⟨errors, he⟩ := release_eq ((b.receive t).dispatch t.token)
    rw [he]
    obtain rfl | ⟨-, c, hchar, hnew⟩ := hwrites
    · have hsame := heq.trans String.append_empty
      exact ⟨fun _ => hsame, fun _ _ => Or.inl hsame⟩
    · refine ⟨fun hnot => absurd hchar (hnot c), fun c' hchar' => Or.inr ?_⟩
      obtain rfl : c = c' := Token.character.inj (hchar.symm.trans hchar')
      obtain rfl | ⟨hnull, rfl⟩ := hnew
      · exact Or.inl (Char.toString_eq_singleton ▸ heq)
      · exact Or.inr ⟨hnull, heq⟩

/-- A paragraph that is still open in a link. -/
def linkedParagraph : List Token :=
  [.startTag { name := "a" }, .character 'x', .startTag { name := "p" }, .character 'y']

/-- The end of the link moves the paragraph, and the text with it. -/
theorem textContent_linkedParagraph : ∃ b b' body, feed {} linkedParagraph = .ok b ∧
    b.stopped = false ∧ b.tree.body? = some body ∧ b.tree.textContent body = "xy" ∧
    b.process ⟨.endTag { name := "a" }, .start⟩ = .ok b' ∧ b'.tree.textContent body = "xy" := by
  obtain ⟨b, hb, hs, hbody⟩ := exists_ok (feed {} linkedParagraph)
    (fun b => b.stopped = false ∧ b.tree.body?.map b.tree.textContent = some "xy")
    (by with_unfolding_all decide)
  obtain ⟨body, hbody, htext⟩ := Option.map_eq_some_iff.1 hbody
  have hreach : ReachableBy Flowing b := .feed (.start false false) (by decide) hb
  obtain ⟨b', hp, -, hother, -⟩ :=
    textContent_of_flowing hreach hs hbody ⟨.endTag { name := "a" }, .start⟩ trivial
  exact ⟨b, b', body, hb, hs, hbody, htext, hp, htext ▸ hother nofun⟩

end TreeBuilder

end Hypertext
