import Hypertext.Proofs.Dom.Skeleton
import Hypertext.Proofs.Dom.Walks

/-!
# Reading a tree in document order

The text below a node is its own text, followed by the text below its children, one after the other.
What is added to the end of the last child of the last child of a node is therefore added to the end
of its text, and a node that is taken out there and put there again leaves the text as it was.
-/

namespace Hypertext.Tree

variable {t t' : Tree} {x y z p q c : NodeId}

/-! ## 1. The text of one node -/

theorem text?_eq_some {s : String} : t.text? x = some s ↔ t.data? x = some (.text s) := by
  unfold text?
  split <;> simp_all

theorem text?_congr (h : t'.data? x = t.data? x) : t'.text? x = t.text? x := by
  rw [text?, text?, h]

theorem text?_alloc (t : Tree) {data : NodeData} (hd : ∀ s, data ≠ .text s) (x : NodeId) :
    (t.alloc data).2.text? x = t.text? x := by
  by_cases hx : x = t.size
  · have hnone : t.data? x = none := by rw [data?, get?_eq_none t x (Nat.le_of_eq hx.symm)]; rfl
    rw [text?, text?, data?_alloc, if_pos hx, hnone]
    cases data with
    | text s => exact absurd rfl (hd s)
    | _ => rfl
  · exact text?_congr (by rw [data?_alloc, if_neg hx])

theorem text?_setData (t : Tree) {id : NodeId} (hid : id < t.size) (s : String) (x : NodeId) :
    (t.setData id (.text s)).text? x = if x = id then some s else t.text? x := by
  by_cases hx : x = id
  · obtain ⟨n, hn⟩ := exists_get? t x (hx ▸ hid)
    rw [if_pos hx, text?_eq_some, setData, data?, get?_modify, if_pos hx.symm, hn]
    rfl
  · refine (text?_congr ?_).trans (if_neg hx).symm
    rw [setData, data?, get?_modify, if_neg (Ne.symm hx), data?]

theorem text?_modify (t : Tree) (id x : NodeId) {f : Node → Node}
    (hf : ∀ n s, (f n).data = .text s ↔ n.data = .text s) :
    (t.modify id f).text? x = t.text? x := by
  refine Option.ext fun s => ?_
  rw [text?_eq_some, text?_eq_some, data?, data?, get?_modify]
  split
  · simp only [Option.map_map, Option.map_eq_some_iff, Function.comp_apply, hf]
  · rfl

theorem text?_modifyElement (t : Tree) (id x : NodeId) (f : Element → Element) :
    (t.modifyElement id f).text? x = t.text? x := by
  refine text?_modify t id x fun n s => ?_
  split
  · next e he => simp [he]
  · rfl

theorem text?_setMode (t : Tree) (mode : DocumentMode) (x : NodeId) :
    (t.setMode mode).text? x = t.text? x := by
  refine text?_modify t root x fun n s => ?_
  split
  · next m hm => simp [hm]
  · rfl

/-- The shape of a tree tells its texts from the other nodes. -/
theorem SameShape.text?_eq_none_iff (s : SameShape t t') (x : NodeId) :
    t'.text? x = none ↔ t.text? x = none := by
  have hx := s.shape x
  unfold text?
  rcases hd : t.data? x with _ | d <;> rcases hd' : t'.data? x with _ | d' <;>
    simp only [hd, hd', Option.map_none, Option.map_some, reduceCtorEq] at hx ⊢
  cases d <;> cases d' <;> simp_all [NodeData.shape]

/-- Only the data of the document changes. -/
theorem Forest.data?_setMode (h : Forest t) (mode : DocumentMode) (x : NodeId) :
    (t.setMode mode).data? x = if x = root then some (.document mode) else t.data? x := by
  obtain ⟨old, hold⟩ := h.document
  obtain ⟨n, hn, hdata⟩ := Option.map_eq_some_iff.1 hold
  rw [setMode, data?, get?_modify]
  split
  · next hx => simp [← hx, hn, hdata]
  · next hx => rw [if_neg (Ne.symm hx), data?]

theorem Forest.mode_setMode (h : Forest t) (mode : DocumentMode) :
    (t.setMode mode).mode = mode := by
  rw [Tree.mode, h.data?_setMode, if_pos rfl]

/-! ## 2. Going down -/

theorem children_eq_nil (h : t.size ≤ x) : t.children x = [] := by
  rw [children_eq, get?_eq_none t x h]
  rfl

namespace Forest

variable (h : Forest t)
include h

theorem above_of_mem (hc : c ∈ t.children p) : t.Above p c :=
  Or.inl ((h.linked.mem_children p c).1 hc)

/-- Without the contents of templates, there are fewer ways down. -/
theorem grove : Grove t where
  linked := h.linked
  acyclic x hx := h.acyclic x (Relation.TransGen.mono (fun _ _ hp => Or.inl hp) _ _ hx)

/-- What is true of a node if it is true of all its children is true of every node. -/
theorem below_induction {P : NodeId → Prop} (step : ∀ x, (∀ c ∈ t.children x, P c) → P x)
    (x : NodeId) : P x := by
  have hwf := h.grove.hierarchy.wellFounded_down fun _ _ hc => lt_size_of_parent? hc
  induction x using hwf.induction with
  | _ x ih => exact step x fun c hc => ih c ((h.linked.mem_children x c).1 hc)

/-- No node is below two siblings. -/
theorem siblings_disjoint (hx : x ∈ t.children p) (hy : y ∈ t.children p) (hne : x ≠ y)
    (hxz : t.Reach x z) : ¬ t.Reach y z :=
  h.hierarchy.siblings_disjoint (h.above_of_mem hx) (h.above_of_mem hy) hne hxz

/-- The text below a node is its own text, followed by that below its children. -/
theorem textContent_eq (x : NodeId) :
    t.textContent x = (t.text? x).getD "" ++ String.join ((t.children x).map t.textContent) := by
  have hflat : ∀ xs : List NodeId,
      String.join ((xs.flatMap t.descendants).filterMap t.text?) =
        String.join (xs.map t.textContent) := by
    intro xs
    induction xs with
    | nil => rfl
    | cons x xs ih =>
      rw [List.flatMap_cons, List.filterMap_append, String.join_append, ih, List.map_cons,
        String.join_cons]
      rfl
  rw [textContent, h.grove.descendants_eq, List.filterMap_cons]
  cases t.text? x with
  | none => simp [hflat]
  | some s => simp [hflat]

end Forest

/-! ## 3. Changes of the text -/

theorem join_concat (l : List String) (s : String) :
    String.join (l ++ [s]) = String.join l ++ s := by
  rw [String.join_append, String.join_cons, String.join_nil, String.append_empty]

/-- Only what is below a node matters for its text. -/
theorem textContent_congr (h : Forest t) (h' : Forest t')
    (hch : ∀ y, t.Reach x y → t'.children y = t.children y)
    (htext : ∀ y, t.Reach x y → t'.text? y = t.text? y) : t'.textContent x = t.textContent x := by
  induction x using h.below_induction with
  | step x ih =>
    rw [h.textContent_eq, h'.textContent_eq, hch x .refl, htext x .refl]
    congr 2
    refine List.map_congr_left fun c hc => ?_
    have hdown : ∀ {y}, t.Reach c y → t.Reach x y := Relation.ReflTransGen.head (h.above_of_mem hc)
    exact ih c hc (fun y hy => hch y (hdown hy)) fun y hy => htext y (hdown hy)

/-- `y` is found from `x` by going to the last child again and again. -/
def Tail (t : Tree) : NodeId → NodeId → Prop :=
  Relation.ReflTransGen fun p c => t.lastChild? p = some c

section Tail

variable (h : Forest t)
include h

theorem Forest.above_lastChild (hc : t.lastChild? p = some c) : t.Above p c :=
  h.above_of_mem (List.mem_of_getLast? hc)

theorem Tail.reach (ht : t.Tail x y) : t.Reach x y :=
  Relation.ReflTransGen.mono (fun _ _ hc => h.above_lastChild hc) _ _ ht

/-- Only the children of the nodes on the way matter. -/
theorem Tail.congr (ht : t.Tail x y)
    (hch : ∀ z, t.Reach x z → t.Reach z y → z ≠ y → t'.children z = t.children z) :
    t'.Tail x y := by
  induction ht using Relation.ReflTransGen.head_induction_on with
  | refl => exact .refl
  | @head a c hac hcy ih =>
    have habove := h.above_lastChild hac
    have hdown := Tail.reach h hcy
    have hne : a ≠ y := by
      rintro rfl
      exact h.not_reach_of_above habove hdown
    have hlast : t'.lastChild? a = some c := by
      rw [lastChild?, hch a .refl (.head habove hdown) hne]
      exact hac
    exact .head hlast (ih fun z hz => hch z (.head habove hz))

/-- What comes last below a node comes last in its text. -/
theorem Tail.textContent (ht : t.Tail x y) (h' : Forest t')
    (hch : ∀ z, ¬ t.Reach y z → t'.children z = t.children z)
    (htext : ∀ z, ¬ t.Reach y z → t'.text? z = t.text? z) {s : String}
    (hy : t'.textContent y = t.textContent y ++ s) : t'.textContent x = t.textContent x ++ s := by
  induction ht using Relation.ReflTransGen.head_induction_on with
  | refl => exact hy
  | @head a c hac hcy ih =>
    have habove := h.above_lastChild hac
    have hdown := Tail.reach h hcy
    have hya : ¬ t.Reach y a := fun hya => h.not_reach_of_above habove (hdown.trans hya)
    obtain ⟨cs, hcs⟩ := List.getLast?_eq_some_iff.1 hac
    -- the other children are not touched
    have hothers : ∀ d ∈ cs, t'.textContent d = t.textContent d := by
      intro d hd
      have hda : d ∈ t.children a := hcs ▸ List.mem_append_left _ hd
      have hne : d ≠ c := by
        rintro rfl
        have hnodup := h.linked.nodup a
        rw [hcs] at hnodup
        exact (List.nodup_append.1 hnodup).2.2 d hd d (by simp) rfl
      have hnot : ∀ z, t.Reach d z → ¬ t.Reach y z := fun z hdz hyz =>
        h.siblings_disjoint hda (List.mem_of_getLast? hac) hne hdz (hdown.trans hyz)
      exact textContent_congr h h' (fun z hz => hch z (hnot z hz)) fun z hz => htext z (hnot z hz)
    rw [h.textContent_eq, h'.textContent_eq, hch a hya, htext a hya, hcs, List.map_append,
      List.map_append, List.map_congr_left hothers, List.map_singleton, List.map_singleton,
      join_concat, join_concat, ih]
    simp only [String.append_assoc]

/-- A node that is put at the end of what another one holds does not come between. -/
theorem Tail.lengthen (ht : t.Tail x y)
    (hch : ∀ z, t'.children z = if z = p then t.children z ++ [c] else t.children z)
    (hp : t.Reach x p → t.Reach p y → p = y) : t'.Tail x y := by
  refine ht.congr h fun z hxz hzy hne => ?_
  rw [hch, if_neg]
  rintro rfl
  exact hne (hp hxz hzy)

theorem Tail.lengthen_new (ht : t.Tail x p)
    (hch : ∀ z, t'.children z = if z = p then t.children z ++ [c] else t.children z) :
    t'.Tail x c := by
  have hlast : t'.lastChild? p = some c := by
    rw [lastChild?, hch, if_pos rfl, List.getLast?_concat]
  exact (ht.lengthen h hch fun _ _ => rfl).tail hlast

end Tail

/-- `t'` is `t` with `c`, which hangs nowhere, as the last child of `q`. -/
structure Hangs (t t' : Tree) (q c : NodeId) : Prop where
  children : ∀ x, t'.children x = if x = q then t.children x ++ [c] else t.children x
  text : ∀ x, t'.text? x = t.text? x
  free : ¬ t.Reach c q

namespace Hangs

variable (h : Forest t) (h' : Forest t') (g : Hangs t t' q c)
include h h' g

/-- What hangs elsewhere is read as before. -/
theorem textContent_of_not (hx : ¬ t.Reach x q) : t'.textContent x = t.textContent x := by
  refine textContent_congr h h' (fun y hy => ?_) fun y _ => g.text y
  rw [g.children, if_neg]
  rintro rfl
  exact hx hy

theorem textContent_self : t'.textContent q = t.textContent q ++ t.textContent c := by
  have hold : ∀ d ∈ t.children q, t'.textContent d = t.textContent d := fun d hd =>
    g.textContent_of_not h h' (h.not_reach_of_above (h.above_of_mem hd))
  rw [h.textContent_eq q, h'.textContent_eq q, g.children, if_pos rfl, g.text, List.map_append,
    List.map_congr_left hold, List.map_singleton, join_concat, g.textContent_of_not h h' g.free,
    String.append_assoc]

theorem textContent (ht : t.Tail x q) : t'.textContent x = t.textContent x ++ t.textContent c := by
  refine ht.textContent h h' (fun z hz => ?_) (fun z _ => g.text z) (g.textContent_self h h')
  rw [g.children, if_neg]
  rintro rfl
  exact hz .refl

/-- Where nothing is added, the place does not matter. -/
theorem textContent_of_silent (hc : t.textContent c = "") (x : NodeId) :
    t'.textContent x = t.textContent x := by
  induction x using h.below_induction with
  | step x ih =>
    by_cases hx : x = q
    · rw [hx, g.textContent_self h h', hc, String.append_empty]
    · rw [h.textContent_eq x, h'.textContent_eq x, g.children, if_neg hx, g.text,
        List.map_congr_left ih]

end Hangs

/-! ## 4. The last child -/

section Last

variable (h : Forest t)
include h

theorem Forest.ne_fragment_of_mem (hc : c ∈ t.children p) : t.data? c ≠ some .fragment :=
  fun hd => by
  have hparent := h.fragment_parent c hd
  rw [(h.linked.mem_children p c).1 hc] at hparent
  cases hparent

theorem Forest.detach (hroot : c ≠ root) (hd : t.data? c ≠ some .fragment) : Forest (t.detach c) :=
  (moved_detach h.linked c).forest h hd hroot nofun

/-- Nothing new comes to be below anything when a node is taken out. -/
theorem reach_of_detach (hd : t.data? c ≠ some .fragment) (hr : (t.detach c).Reach x y) :
    t.Reach x y :=
  ((moved_detach h.linked c).reach_of h hd hr).resolve_right nofun

/-- A last child that has been taken out hung there. -/
theorem Forest.hangs_of_lastChild (hc : t.lastChild? q = some c) : Hangs (t.detach c) t q c where
  children x := by
    have hparent := (h.linked.mem_children q c).1 (List.mem_of_getLast? hc)
    rw [children_detach c x h.linked]
    split
    · next hx =>
      obtain ⟨cs, hcs⟩ := List.getLast?_eq_some_iff.1 hc
      have hnot : c ∉ cs := fun hm => by
        have hnodup := h.linked.nodup q
        rw [hcs] at hnodup
        exact (List.nodup_append.1 hnodup).2.2 c hm c (by simp) rfl
      rw [hx, hcs, List.erase_append_right _ hnot]
      simp
    · next hx =>
      refine (List.erase_of_not_mem fun hm => hx ?_).symm
      rw [h.linked.mem_children, hparent] at hm
      exact (Option.some.inj hm).symm
  text x := text?_congr (data?_detach c x).symm
  free hr := by
    have hmem := List.mem_of_getLast? hc
    exact h.not_reach_of_above (h.above_of_mem hmem)
      (reach_of_detach h (h.ne_fragment_of_mem hmem) hr)

theorem Shifted.hangs (s : Shifted t t' c p none) (hd : t.data? c ≠ some .fragment)
    (hcp : ¬ t.Reach c p) : Hangs (t.detach c) t' p c where
  children x := by
    rw [s.children, children_detach c x h.linked]
    rfl
  text x := text?_congr ((s.data x).trans (data?_detach c x).symm)
  free hr := hcp (reach_of_detach h hd hr)

/-- A new node hangs where it is put. -/
theorem Grown.hangs {grown : Tree} (g : Grown t grown c) (s : Shifted grown t' c p none)
    (hp : p < t.size) : Hangs grown t' p c where
  children x := by
    rw [s.children, List.erase_of_not_mem (g.not_mem_children x)]
    rfl
  text x := text?_congr (s.data x)
  free hr := absurd hp (Nat.not_lt.2 (g.le_of_reach h hr))

theorem Put.children (w : Put t t' c p none) (hp : p < t.size) (x : NodeId) :
    t'.children x = if x = p then t.children x ++ [c] else t.children x := by
  obtain ⟨grown, g, s⟩ := w.exists_grown
  rw [(g.hangs h s hp).children, g.children]

/-- A new node without text leaves all text as it was. -/
theorem Put.textContent (w : Put t t' c p none)
    (hp : p < t.size) (htext : ∀ x, t'.text? x = t.text? x)
    (x : NodeId) : t'.textContent x = t.textContent x := by
  have h' := (w.sprout h hp).forest
  obtain ⟨grown, g, s⟩ := w.exists_grown
  have hangs := g.hangs h s hp
  have hg := g.forest h
  have hsame : ∀ x, grown.textContent x = t.textContent x := fun x =>
    textContent_congr h hg (fun y _ => g.children y) fun y _ => (hangs.text y).symm.trans (htext y)
  have hsilent : grown.textContent c = "" := by
    have hnone : t.text? c = none := by
      rw [text?, data?, get?_eq_none t c g.fresh]
      rfl
    rw [hsame, h.textContent_eq, hnone, children_eq_nil g.fresh]
    rfl
  rw [hangs.textContent_of_silent hg h' hsilent, hsame]

/-- Text that is inserted at the end of the last node comes last. -/
theorem textContent_insertText (hleaf : ∀ y s, t.text? y = some s → t.children y = [])
    (hp : p < t.size) (ht : t.Tail x p) (text : String) :
    (t.insertText p none text).2.textContent x = t.textContent x ++ text := by
  have h' := (extends_insertText h hp none text).forest
  obtain ⟨prev, old, hprev, hold, heq⟩ | ⟨-, heq⟩ := insertText_cases t p none text
  · have hlt : prev < t.size := lt_size_of_data? (text?_eq_some.1 hold)
    have hchildren : ∀ y, (t.setData prev (.text (old ++ text))).children y = t.children y :=
      (sameShape_setText h.linked hold).children
    rw [heq] at h' ⊢
    refine Tail.textContent h (ht.tail hprev) h' (fun z _ => hchildren z) (fun z hz => ?_) ?_
    · rw [text?_setData t hlt, if_neg]
      rintro rfl
      exact hz .refl
    · rw [h.textContent_eq, h'.textContent_eq, hchildren, hleaf prev old hold, hold,
        text?_setData t hlt, if_pos rfl]
      simp
  · have g : Grown t (t.alloc (.text text)).2 t.size := Grown.alloc h (by simp) (by simp)
    have hangs := g.hangs h (shifted_insertAt g.linked (Nat.lt_of_lt_of_le hp g.size_le) g.lt none)
      hp
    have hg := g.forest h
    have hx := h.left_lt_of_reach hp (ht.reach h)
    -- the new node holds the text
    have hnew : (t.alloc (.text text)).2.textContent t.size = text := by
      have htext : (t.alloc (.text text)).2.text? t.size = some text := by
        rw [text?_eq_some, data?_alloc, if_pos rfl]
      rw [hg.textContent_eq, htext, g.children, children_eq_nil (Nat.le_refl _)]
      simp
    have hold : (t.alloc (.text text)).2.textContent x = t.textContent x :=
      textContent_congr h hg (fun y _ => g.children y) fun y hy =>
        text?_congr (g.data y (h.reach_lt hx hy))
    rw [heq] at h' ⊢
    rw [hangs.textContent hg h' (ht.congr h fun z _ _ _ => g.children z), hold, hnew]

end Last

/-! ## 5. Wrapping -/

/-- `t'` is `t` with a new node `copy`, which has no text, between `block` and its children. -/
structure Wraps (t t' : Tree) (block copy : NodeId) : Prop where
  outer : t'.children block = [copy]
  inner : t'.children copy = t.children block
  others : ∀ x, x ≠ block → x ≠ copy → t'.children x = t.children x
  text : ∀ x, t'.text? x = t.text? x
  fresh : t.size ≤ copy

theorem wraps_moveChildren {t₁ : Tree} {block copy : NodeId} (g : Grown t t₁ copy)
    (htext : ∀ x, t₁.text? x = t.text? x) (hblock : block < t.size) :
    Wraps t ((t₁.moveChildren block copy).appendChild block copy) block copy := by
  have m := movedAll_moveChildren g.linked block g.lt
  have hne : block ≠ copy := Nat.ne_of_lt (Nat.lt_of_lt_of_le hblock g.fresh)
  have hblock' : block < (t₁.moveChildren block copy).size := by
    rw [m.size]
    exact Nat.lt_of_lt_of_le hblock g.size_le
  have s := shifted_insertAt m.linked hblock' (c := copy) (by rw [m.size]; exact g.lt) none
  have hchildren : ∀ x, ((t₁.moveChildren block copy).appendChild block copy).children x =
      if x = block then (t₁.moveChildren block copy).children x ++ [copy]
      else (t₁.moveChildren block copy).children x := by
    intro x
    have hnot : copy ∉ (t₁.moveChildren block copy).children x := by
      rw [m.linked.mem_children, m.parent, if_neg (g.not_mem_children block)]
      rw [← g.linked.mem_children]
      exact g.not_mem_children x
    have hx := s.children x
    rw [List.erase_of_not_mem hnot] at hx
    exact hx
  -- all of its children have gone
  have hempty : (t₁.moveChildren block copy).children block = [] := by
    rw [List.eq_nil_iff_forall_not_mem]
    intro x hx
    rw [m.linked.mem_children, m.parent] at hx
    split at hx
    · exact hne (Option.some.inj hx).symm
    · next hx' => exact hx' ((g.linked.mem_children block x).2 hx)
  have hcopy : t₁.children copy = [] := by rw [g.children, children_eq_nil g.fresh]
  refine ⟨?_, ?_, fun x hx hx' => ?_, fun x => ?_, g.fresh⟩
  · rw [hchildren, if_pos rfl, hempty]
    rfl
  · rw [hchildren, if_neg (Ne.symm hne), m.target (g.linked.nodup block) (by simp [hcopy]), hcopy,
      g.children]
    rfl
  · rw [hchildren, if_neg hx, m.others x hx' fun c hc hcx => hx ?_, g.children]
    rw [g.linked.mem_children] at hc hcx
    rw [hc] at hcx
    exact (Option.some.inj hcx).symm
  · rw [← htext]
    exact text?_congr ((s.data x).trans (m.data x))

namespace Wraps

variable {block copy : NodeId} (h : Forest t) (w : Wraps t t' block copy)
include h w

theorem textContent (h' : Forest t') (hx : x < t.size) : t'.textContent x = t.textContent x := by
  induction x using h.below_induction with
  | step x ih =>
    have hne : ∀ {x}, x < t.size → x ≠ copy := fun hx =>
      Nat.ne_of_lt (Nat.lt_of_lt_of_le hx w.fresh)
    have hbelow : ∀ c ∈ t.children x, t'.textContent c = t.textContent c := fun c hc =>
      ih c hc (h.above_right_lt (h.above_of_mem hc))
    by_cases hb : x = block
    · subst hb
      have hcopy : t.text? copy = none := by
        rw [text?, data?, get?_eq_none t copy w.fresh]
        rfl
      rw [h.textContent_eq x, h'.textContent_eq x, w.outer, w.text, List.map_singleton,
        String.join_cons, String.join_nil, h'.textContent_eq copy, w.inner, w.text, hcopy,
        List.map_congr_left hbelow]
      simp
    · rw [h.textContent_eq x, h'.textContent_eq x, w.others x hb (hne hx), w.text,
        List.map_congr_left hbelow]

theorem lastChild? (hc : t.lastChild? p = some c) : t'.Tail p c := by
  have hp : p ≠ copy :=
    Nat.ne_of_lt (Nat.lt_of_lt_of_le (h.above_left_lt (h.above_lastChild hc)) w.fresh)
  by_cases hb : p = block
  · subst hb
    have hfirst : t'.lastChild? p = some copy := by rw [Tree.lastChild?, w.outer]; rfl
    have hsecond : t'.lastChild? copy = some c := by rw [Tree.lastChild?, w.inner]; exact hc
    exact .head hfirst (.single hsecond)
  · refine .single ?_
    rw [Tree.lastChild?, w.others p hb hp]
    exact hc

theorem tail (ht : t.Tail x y) : t'.Tail x y := by
  induction ht with
  | refl => exact .refl
  | tail _ hbc ih => exact ih.trans (w.lastChild? h hbc)

/-- What comes last in the block comes last in the copy. -/
theorem tail_copy (ht : t.Tail block y) (hne : y ≠ block) : t'.Tail copy y := by
  rcases Relation.ReflTransGen.cases_head ht with rfl | ⟨c, hc, hcy⟩
  · exact absurd rfl hne
  · have hlast : t'.lastChild? copy = some c := by rw [Tree.lastChild?, w.inner]; exact hc
    exact .head hlast (w.tail h hcy)

omit h in
theorem tail_block : t'.Tail block copy := by
  refine .single ?_
  rw [Tree.lastChild?, w.outer]
  rfl

end Wraps

end Hypertext.Tree
