import Hypertext.Proofs.Entity.Search
import Hypertext.Proofs.Tokenizer.Screening
import Hypertext.Proofs.Tokenizer.Spelling
import Mathlib.Data.Nat.Digits.Defs

/-!
# What a character reference stands for

A reference is read in the same way wherever it is found. What it stands for comes out as characters
in text, and goes to the end of the last attribute in a value. A name is the longest there is in the
table, without a bound on what follows, and a number may have any number of digits.
-/

namespace Hypertext

/-! ## 1. Where it goes -/

/-- The kinds of the errors that are about more than a character as such. -/
def ErrorLog.ofMarkup (log : ErrorLog) : List ErrorKind :=
  (log.entries.toList.map (·.kind)).filter fun kind => !kind.isOfInput

theorem ErrorLog.ofMarkup_record (log : ErrorLog) (kind : ErrorKind) (p : Position) :
    (log.record kind p).ofMarkup = log.ofMarkup ++ if kind.isOfInput then [] else [kind] := by
  rw [ofMarkup, record, Array.toList_push, List.map_append, List.filter_append, List.map_singleton,
    List.filter_singleton]
  cases kind.isOfInput <;> rfl

/-- The value of the last attribute goes on with a text. -/
def Tag.addValue (tag : Tag) (out : List Char) : Tag :=
  { tag with
    attributes :=
      onLast (fun a => { a with value := a.value ++ String.ofList out }) tag.attributes }

/-- The value of the last attribute goes on with a text, if the token is a tag. -/
def Token.addValue (out : List Char) : Token → Token
  | .startTag tag => .startTag (tag.addValue out)
  | .endTag tag => .endTag (tag.addValue out)
  | token => token

theorem onLast_onLast {α : Type} (f g : α → α) (l : List α) :
    onLast f (onLast g l) = onLast (fun a => f (g a)) l := by
  obtain rfl | ⟨init, last, rfl⟩ := l.eq_nil_or_concat
  · rfl
  · rw [List.concat_eq_append, Tokenizer.onLast_concat, Tokenizer.onLast_concat,
      Tokenizer.onLast_concat]

theorem Tag.addValue_addValue (tag : Tag) (out more : List Char) :
    (tag.addValue out).addValue more = tag.addValue (out ++ more) := by
  simp only [addValue, onLast_onLast, String.append_assoc, String.ofList_append]

theorem Tag.addValue_nil (tag : Tag) : tag.addValue [] = tag := by
  obtain ⟨name, selfClosing, attributes⟩ := tag
  obtain rfl | ⟨init, last, rfl⟩ := attributes.eq_nil_or_concat
  · rfl
  · simp [addValue, Tokenizer.onLast_concat]

theorem Tag.edit_attributeValue (tag : Tag) (c : Char) :
    tag.edit (.attributeValue c) = tag.addValue [c] := by
  simp only [Tag.edit, addValue, String.push_eq_append]
  rfl

theorem Token.addValue_addValue (token : Token) (out more : List Char) :
    (token.addValue out).addValue more = token.addValue (out ++ more) := by
  cases token <;> simp only [addValue, Tag.addValue_addValue]

theorem Token.addValue_nil (token : Token) : token.addValue [] = token := by
  cases token <;> simp only [addValue, Tag.addValue_nil]

namespace Tokenizer

open Entity

variable {S : State → Prop} {Q : Tokenizer → Prop} {answers : Nat → Bool}
  {text out chars ahead rest : List Char}
  {kinds : List ErrorKind} {s : State} {t₀ t : Tokenizer} {c : Char} {e : Entry}

/-- What comes out as characters, if a reference in the state `s` stands for `out`. -/
def uttered (s : State) (out : List Char) : List Char :=
  if isAttributeValue (some s) then [] else out

/-- What is under construction, if a reference in the state `s` stands for `out`. -/
def revised (s : State) (current : Option Token) (out : List Char) : Option Token :=
  if isAttributeValue (some s) then current.map (·.addValue out) else current

/-- A character reference can be read here, and this text is next. -/
structure Hosting (ahead : List Char) (t : Tokenizer) : Prop where
  host : t.state.isHost = true
  ahead : t.input.ahead = ahead
  pending : t.pending = []
  ended : t.ended = false

/-- The reference has been read as `out`, with these errors, and reading goes on in the
same state. -/
structure Decoded (t₀ : Tokenizer) (out rest : List Char) (kinds : List ErrorKind) (t : Tokenizer) :
    Prop where
  state : t.state = t₀.state
  ahead : t.input.ahead = rest
  current : t.current = revised t₀.state t₀.current out
  pending : t.pending = []
  ended : t.ended = false
  last : t.lastStartTag = t₀.lastStartTag
  errors : t.errors.ofMarkup = t₀.errors.ofMarkup ++ kinds

/-- The reference that is next stands for `out`, and `rest` follows it; these errors
are reported. -/
def Decodes (t : Tokenizer) (out rest : List Char) (kinds : List ErrorKind) : Prop :=
  ∀ answers, Spells (fun _ => True) (Decoded t out rest kinds) answers (uttered t.state out) t

theorem uttered_append (s : State) (out more : List Char) :
    uttered s (out ++ more) = uttered s out ++ uttered s more := by
  unfold uttered
  split <;> rfl

theorem revised_nil (s : State) (current : Option Token) : revised s current [] = current := by
  unfold revised
  split
  · cases current with
    | none => rfl
    | some token => exact congrArg some token.addValue_nil
  · rfl

theorem revised_append (s : State) (current : Option Token) (out more : List Char) :
    revised s current (out ++ more) = revised s (revised s current out) more := by
  unfold revised
  split
  · rw [Option.map_map]
    exact congrFun (congrArg Option.map
      (funext fun token => (token.addValue_addValue out more).symm)) current
  · rfl

/-! ## 2. Within a reference -/

/-- In a reference that began at `t₀`: `out` and these errors have come of it, and these characters
still wait. -/
structure Deciphering (t₀ : Tokenizer) (out : List Char) (kinds : List ErrorKind)
    (chars : List Char) (s : State) (ahead : List Char) (t : Tokenizer) : Prop
    extends Owes t₀.lastStartTag chars s ahead (revised t₀.state t₀.current out) t where
  returnState : t.returnState = some t₀.state
  errors : t.errors.ofMarkup = t₀.errors.ofMarkup ++ kinds

theorem errors_consume (t : Tokenizer) : t.consume.errors.ofMarkup = t.errors.ofMarkup := by
  obtain heq | ⟨c, kind, hkind, heq⟩ := consume_cases t
  · rw [heq]
  · rw [heq, report, ErrorLog.ofMarkup_record, isOfInput_of_flawKind? (inputError?_eq c ▸ hkind)]
    exact List.append_nil _

/-- Characters that are added to a value one by one are added as a text. -/
theorem exists_foldl_editTag (t : Tokenizer) (out : List Char) :
    ∃ fault, out.foldl (fun t c => t.editTag (.attributeValue c)) t =
      { t with current := t.current.map (·.addValue out), fault } := by
  induction out generalizing t with
  | nil =>
    refine ⟨t.fault, ?_⟩
    rw [List.foldl_nil,
      show t.current.map (·.addValue []) = t.current from revised_nil .attributeValueUnquoted _]
  | cons c out ih =>
    have hedit : ∃ fault, t.editTag (.attributeValue c) =
        { t with current := t.current.map (·.addValue [c]), fault } := by
      unfold editTag edit
      cases ht : t.current with
      | none =>
        refine ⟨t.fault, ?_⟩
        show t = { t with current := none, fault := t.fault }
        rw [← ht]
      | some token =>
        cases token with
        | startTag tag => exact ⟨t.fault, by simp only [Token.edit, Tag.edit_attributeValue]; rfl⟩
        | endTag tag => exact ⟨t.fault, by simp only [Token.edit, Tag.edit_attributeValue]; rfl⟩
        -- only tags take a value: on another token the edit is a fault, and the token stays
        | _ =>
          refine ⟨t.fault.or (some ⟨.tag (.attributeValue c)⟩), ?_⟩
          simp only [Token.edit, Option.map_some, Token.addValue]
    obtain ⟨fault, hfirst⟩ := hedit
    obtain ⟨fault', hmore⟩ := ih (t.editTag (.attributeValue c))
    refine ⟨fault', ?_⟩
    rw [List.foldl_cons, hmore, hfirst]
    show ({ t with current := _, fault := fault' } : Tokenizer) = _
    rw [show (t.current.map (·.addValue [c])).map (·.addValue out) =
      t.current.map (·.addValue (c :: out)) from
      (revised_append .attributeValueUnquoted t.current [c] out).symm]

namespace Deciphering

theorem step (h : Deciphering t₀ out kinds [] s ahead t)
    (hQ : Deciphering t₀ out kinds [] s ahead.tail t.consume →
      t.consume.input.pushBack.ahead = ahead →
      Spells S Q answers text (t.consume.handle ahead.head?)) : Spells S Q answers text t :=
  h.toOwes.step fun h' hback => hQ
    ⟨h', (returnState_consume t).trans h.returnState, (errors_consume t).trans h.errors⟩ hback

theorem switchTo (h : Deciphering t₀ out kinds chars s ahead t) (s' : State) :
    Deciphering t₀ out kinds chars s' ahead (t.switchTo s') :=
  ⟨h.toOwes.switchTo s', h.returnState, h.errors⟩

theorem reconsumeIn (h : Deciphering t₀ out kinds chars s rest t)
    (hback : t.input.pushBack.ahead = ahead)
    (s' : State) : Deciphering t₀ out kinds chars s' ahead (t.reconsumeIn s') :=
  ⟨h.toOwes.reconsumeIn hback s', h.returnState, h.errors⟩

theorem buffer (h : Deciphering t₀ out kinds chars s ahead t) (buffer : List Char) :
    Deciphering t₀ out kinds chars s ahead { t with buffer } :=
  ⟨h.toOwes.buffer buffer, h.returnState, h.errors⟩

theorem code (h : Deciphering t₀ out kinds chars s ahead t) (code : Nat) :
    Deciphering t₀ out kinds chars s ahead { t with code } :=
  ⟨⟨h.state, h.ahead, h.current, h.pending, h.ended, h.last⟩, h.returnState, h.errors⟩

theorem input (h : Deciphering t₀ out kinds chars s rest t) {input : Cursor}
    (hinput : input.ahead = ahead) : Deciphering t₀ out kinds chars s ahead { t with input } :=
  ⟨⟨h.state, hinput, h.current, h.pending, h.ended, h.last⟩, h.returnState, h.errors⟩

theorem report (h : Deciphering t₀ out kinds chars s ahead t) {kind : ErrorKind}
    (hk : kind.isOfInput = false) :
    Deciphering t₀ out (kinds ++ [kind]) chars s ahead (t.report kind) := by
  refine ⟨h.toOwes.report kind, h.returnState, ?_⟩
  rw [Tokenizer.report, ErrorLog.ofMarkup_record, hk, if_neg Bool.false_ne_true, h.errors,
    List.append_assoc]

/-- What is delivered waits if it is text, and is in the value otherwise. -/
theorem deliver (h : Deciphering t₀ out kinds chars s ahead t) (more : List Char) :
    Deciphering t₀ (out ++ more) kinds (chars ++ uttered t₀.state more) s ahead
      (t.deliver more) := by
  have hin : t.inAttribute = isAttributeValue (some t₀.state) :=
    congrArg isAttributeValue h.returnState
  have hcurrent := h.current
  unfold Tokenizer.deliver
  rw [hin]
  cases hvalue : isAttributeValue (some t₀.state) with
  | true =>
    rw [if_pos rfl, uttered, if_pos hvalue, List.append_nil]
    obtain ⟨fault, heq⟩ := exists_foldl_editTag t more
    rw [heq]
    refine ⟨⟨h.state, h.ahead, ?_, h.pending, h.ended, h.last⟩, h.returnState, h.errors⟩
    show t.current.map (·.addValue more) = _
    rw [revised_append, hcurrent]
    unfold revised
    rw [if_pos hvalue, if_pos hvalue]
  | false =>
    rw [if_neg Bool.false_ne_true, uttered, hvalue, if_neg Bool.false_ne_true]
    have howes := h.toOwes.emitChars more
    rw [emitChars_eq] at howes ⊢
    refine ⟨⟨howes.state, howes.ahead, ?_, howes.pending, howes.ended, howes.last⟩,
      h.returnState, h.errors⟩
    rw [howes.current, revised_append]
    simp only [revised, hvalue, Bool.false_eq_true, if_false]

theorem resolve (h : Deciphering t₀ out kinds chars s ahead t) (more : List Char) :
    Deciphering t₀ (out ++ more) kinds (chars ++ uttered t₀.state more) s ahead (t.resolve more) :=
  (h.buffer more).deliver more

/-- The characters that wait are delivered. -/
theorem spells (h : Deciphering t₀ out kinds chars s ahead t) :
    Spells (fun _ => True) (Deciphering t₀ out kinds [] s ahead) answers chars t :=
  spells_waiting h.pending trivial
    (fun _ => ⟨⟨h.state, h.ahead, h.current, rfl, h.ended, h.last⟩, h.returnState, h.errors⟩)
    answers

/-- Reading goes on where the reference began. -/
theorem returns (h : Deciphering t₀ out kinds chars s rest t) :
    Spells (fun _ => True) (Decoded t₀ out rest kinds) answers chars t.switchToReturn := by
  have hstate : t.switchToReturn.state = t₀.state := by
    rw [switchToReturn, h.returnState]
    rfl
  exact spells_waiting (t := t.switchToReturn) h.pending trivial
    (fun _ => ⟨hstate, h.ahead, h.current, rfl, h.ended, h.last, h.errors⟩) answers

theorem returnsBack (h : Deciphering t₀ out kinds chars s ahead t)
    (hback : t.input.pushBack.ahead = rest) :
    Spells (fun _ => True) (Decoded t₀ out rest kinds) answers chars t.reconsumeInReturn :=
  (h.input hback).returns

end Deciphering

theorem handle_ampersand (hs : t.state.isHost = true) :
    t.handle (some '&') = t.enterReference t.state := by
  unfold State.isHost at hs
  split at hs
  · next heq =>
    simp only [handle, heq]
    rfl
  · next heq =>
    simp only [handle, heq]
    rfl
  · next quote heq =>
    simp only [handle, heq]
    cases quote <;> rfl
  · next heq =>
    simp only [handle, heq]
    rfl
  · cases hs

theorem Hosting.spells (h : Hosting ('&' :: ahead) t)
    (hQ : ∀ t', Deciphering t [] [] [] .characterReference ahead t' → Spells S Q answers text t') :
    Spells S Q answers text t := by
  have howes : Owes t.lastStartTag [] t.state ('&' :: ahead) t.current t :=
    ⟨rfl, h.ahead, rfl, by rw [h.pending]; rfl, h.ended, rfl⟩
  refine howes.step fun h' _ => hQ _ ?_
  have hstate : t.consume.state.isHost = true := h'.state.symm ▸ h.host
  rw [List.head?_cons, handle_ampersand hstate, h'.state]
  refine ⟨⟨rfl, h'.ahead, ?_, h'.pending, h'.ended, h'.last⟩, rfl, ?_⟩
  · rw [revised_nil]
    exact h'.current
  · rw [List.append_nil]
    exact errors_consume t

/-! ## 3. Names -/

/-- Whether a name stands for itself: in a value it does if it has no semicolon and what follows
looks like more of it. -/
def keepsName (s : State) (e : Entry) (rest : List Char) : Bool :=
  isAttributeValue (some s) && e.name.getLast? != some ';' && rest.head?.any fun c =>
    c == '=' || c.isAlphanum

theorem spells_ambiguous {run : List Char} (hrun : ∀ c ∈ run, c.isAlphanum = true)
    (h : Deciphering t₀ out kinds [] .ambiguousAmpersand (run ++ rest) t) (answers : Nat → Bool) :
    Spells (fun _ => True) (Deciphering t₀ (out ++ run) kinds [] .ambiguousAmpersand rest) answers
      (uttered t₀.state run) t := by
  induction run generalizing out t answers with
  | nil =>
    have hnil : uttered t₀.state [] = [] := by unfold uttered; split <;> rfl
    rw [hnil, List.append_nil]
    exact .here h
  | cons c run ih =>
    obtain ⟨hc, hrun⟩ := List.forall_mem_cons.1 hrun
    rw [← List.singleton_append, uttered_append]
    refine h.step fun h' _ => ?_
    simp only [handle, h'.state, List.cons_append, List.nil_append, List.head?_cons,
      ambiguousAmpersand, hc, if_true]
    refine (h'.deliver [c]).spells.trans fun answers t h => ?_
    rw [List.append_cons]
    exact ih hrun h answers

theorem spells_unknown (hrest : rest.head?.any Char.isAlphanum = false)
    (h : Deciphering t₀ out kinds [] .ambiguousAmpersand rest t) (answers : Nat → Bool) :
    Spells (fun _ => True) (Decoded t₀ out rest
      (kinds ++ if rest.head? = some ';' then [.unknownNamedCharacterReference] else []))
      answers [] t := by
  refine h.step fun h' hback => ?_
  simp only [handle, h'.state]
  cases hhead : rest.head? with
  | none =>
    rw [if_neg (Option.some_ne_none _).symm, List.append_nil]
    exact h'.returnsBack hback
  | some c =>
    rw [hhead, Option.any_some] at hrest
    simp only [ambiguousAmpersand, hrest, Bool.false_eq_true, if_false, Option.some.injEq]
    split
    · exact (h'.report rfl).returnsBack hback
    · rw [List.append_nil]
      exact h'.returnsBack hback

theorem handle_named (hs : t.state = .namedCharacterReference) (next : Option Char) :
    t.handle next = t.namedCharacterReference := by
  simp only [handle, hs]

theorem namedCharacterReference_of_none
    (he : longestMatch (nameCandidate nameLimit t.input.pushBack.ahead) = none)
    (hbuffer : t.buffer = chars) :
    t.namedCharacterReference =
      ({ t with input := t.input.pushBack }.deliver chars).switchTo .ambiguousAmpersand := by
  subst hbuffer
  simp only [namedCharacterReference, he]
  rfl

theorem namedCharacterReference_of_some {t' : Tokenizer}
    (he : longestMatch (nameCandidate nameLimit t.input.pushBack.ahead) = some e)
    (ht' : t' = { t with input := t.input.pushBack.skip e.name, buffer := t.buffer ++ e.name }) :
    t.namedCharacterReference =
      if e.name.getLast? = some ';' then (t'.resolve e.text).switchToReturn
      else if t'.inAttribute && t'.input.peek.any (fun c => c == '=' || c.isAlphanum) then
        t'.flush.switchToReturn
      else ((t'.report .missingSemicolonAfterCharacterReference).resolve
        e.text).switchToReturn := by
  subst ht'
  simp only [namedCharacterReference, he]

/-- The longest name is taken off the text, and what it stands for comes out, or the name itself if
it is kept. -/
theorem spells_name (he : longestMatch (nameCandidate nameLimit (e.name ++ rest)) = some e)
    (hbuffer : t.buffer = ['&'])
    (h : Deciphering t₀ [] [] [] .namedCharacterReference (e.name ++ rest) t)
    (answers : Nat → Bool) : Spells (fun _ => True)
      (Decoded t₀ (if keepsName t₀.state e rest then '&' :: e.name else e.text) rest
        (if keepsName t₀.state e rest || e.name.getLast? == some ';' then []
          else [.missingSemicolonAfterCharacterReference])) answers
      (uttered t₀.state (if keepsName t₀.state e rest then '&' :: e.name else e.text)) t := by
  refine h.step fun h' hback => ?_
  have hahead : (t.consume.input.pushBack.skip e.name).ahead = rest := by
    rw [Cursor.ahead_skip, hback, List.drop_left]
  -- the name is skipped, and goes into the buffer
  obtain ⟨t', ht'⟩ : ∃ t', t' = { t.consume with
    input := t.consume.input.pushBack.skip e.name, buffer := t.consume.buffer ++ e.name } :=
      ⟨_, rfl⟩
  have hread : Deciphering t₀ [] [] [] .namedCharacterReference rest t' :=
    ht' ▸ (h'.input hahead).buffer (t.consume.buffer ++ e.name)
  have hname : t'.buffer = '&' :: e.name := by
    rw [ht', buffer_consume, hbuffer]
    rfl
  have hin : t'.inAttribute = isAttributeValue (some t₀.state) :=
    congrArg isAttributeValue hread.returnState
  have hpeek : t'.input.peek = rest.head? := congrArg List.head? hread.ahead
  rw [handle_named h'.state, namedCharacterReference_of_some (hback.symm ▸ he) ht', hin, hpeek]
  by_cases hsemicolon : e.name.getLast? = some ';'
  · -- a name with a semicolon is never kept
    have hkeeps : keepsName t₀.state e rest = false := by simp [keepsName, hsemicolon]
    rw [if_pos hsemicolon, hkeeps, hsemicolon]
    exact (hread.resolve e.text).returns
  · have hne : (e.name.getLast? == some ';') = false := beq_eq_false_iff_ne.2 hsemicolon
    have hkeeps : keepsName t₀.state e rest =
        (isAttributeValue (some t₀.state) && rest.head?.any fun c => c == '=' || c.isAlphanum) := by
      rw [keepsName, bne, hne, Bool.not_false, Bool.and_true]
    rw [if_neg hsemicolon, hne, Bool.or_false, hkeeps]
    split
    · have hflushed := hread.deliver t'.buffer
      rw [hname] at hflushed
      rw [flush, hname]
      exact hflushed.returns
    · exact ((hread.report rfl).resolve e.text).returns

/-- A letter or digit after the ampersand begins a name. -/
theorem Hosting.spells_alphanumeric (h : Hosting ('&' :: text) t)
    (htext : text.head?.any Char.isAlphanum = true)
    (hQ : ∀ t', t'.buffer = ['&'] → Deciphering t [] [] [] .namedCharacterReference text t' →
      Spells S Q answers chars t') : Spells S Q answers chars t := by
  apply h.spells
  intro t₁ h₁
  refine h₁.step fun h₂ hback => ?_
  have hhandle : t₁.consume.handle text.head? =
      { t₁.consume with buffer := ['&'] }.reconsumeIn .namedCharacterReference := by
    simp only [handle, h₂.state, characterReference, htext, if_true]
  rw [hhandle]
  exact hQ _ rfl ((h₂.buffer ['&']).reconsumeIn hback _)

/-- If no name of the table begins the text, the ampersand and the letters and digits stand for
themselves. Otherwise the longest such name is read and nothing behind it. -/
theorem decodes_name (h : Hosting ('&' :: text) t) (htext : text.head?.any Char.isAlphanum = true) :
    ((∀ e ∈ entries, ¬ e.name <+: text) →
      Decodes t ('&' :: text.takeWhile Char.isAlphanum) (text.dropWhile Char.isAlphanum)
        (if (text.dropWhile Char.isAlphanum).head? = some ';' then
          [.unknownNamedCharacterReference] else [])) ∧
    ∀ e rest, Longest text e → text = e.name ++ rest →
      Decodes t (if keepsName t.state e rest then '&' :: e.name else e.text) rest
        (if keepsName t.state e rest || e.name.getLast? == some ';' then []
          else [.missingSemicolonAfterCharacterReference]) := by
  constructor
  · intro hnone answers
    have hfound : longestMatch (nameCandidate nameLimit text) = none := by
      obtain ⟨e, -, hlongest⟩ | ⟨hfound, -⟩ := longestMatch_nameCandidate text
      · exact absurd hlongest.begins (hnone e hlongest.mem)
      · exact hfound
    apply h.spells_alphanumeric htext
    intro t₁ hbuffer h₁
    refine h₁.step fun h₂ hback => ?_
    have hbuffer' : t₁.consume.buffer = ['&'] := (buffer_consume t₁).trans hbuffer
    rw [handle_named h₂.state, namedCharacterReference_of_none (hback.symm ▸ hfound) hbuffer',
      ← List.singleton_append, uttered_append]
    have hflushed := ((h₂.input hback).deliver ['&']).switchTo .ambiguousAmpersand
    refine hflushed.spells.trans fun answers t₂ h₃ => ?_
    rw [← text.takeWhile_append_dropWhile (p := Char.isAlphanum)] at h₃
    -- the letters and digits stand for themselves, up to something else
    have hrun : ∀ c ∈ text.takeWhile Char.isAlphanum, c.isAlphanum = true :=
      List.all_eq_true.1 List.all_takeWhile
    have hend : (text.dropWhile Char.isAlphanum).head?.any Char.isAlphanum = false := by
      have hnot := text.head?_dropWhile_not Char.isAlphanum
      cases hhead : (text.dropWhile Char.isAlphanum).head? with
      | none => rfl
      | some c =>
        rw [hhead] at hnot
        exact hnot
    rw [← List.append_nil (uttered t.state (text.takeWhile Char.isAlphanum))]
    exact (spells_ambiguous hrun h₃ answers).trans fun answers t₃ h₄ =>
      spells_unknown hend h₄ answers
  · intro e rest hlongest heq answers
    subst heq
    have hfound : longestMatch (nameCandidate nameLimit (e.name ++ rest)) = some e := by
      obtain ⟨e', hfound, hlongest'⟩ | ⟨-, hnone⟩ := longestMatch_nameCandidate (e.name ++ rest)
      · rw [hfound, hlongest.unique hlongest']
      · exact absurd hlongest.begins (hnone e hlongest.mem)
    apply h.spells_alphanumeric htext
    intro t₁ hbuffer h₁
    exact spells_name hfound hbuffer h₁ answers

/-- A tag with one attribute, whose value is being read. -/
def valueOf (value text : String) : Tokenizer :=
  { input := .ofString text, state := .attributeValueUnquoted,
    current := some (.startTag { name := "a", attributes := [{ name := "href", value }] }) }

/-- A name without a semicolon in text and in a value, and one that is in no table. -/
theorem decodes_name_not :
    (Hosting "&notit;".toList (ofString "&notit;") ∧
      Hosting "&notit;".toList (valueOf "?" "&notit;") ∧
      Hosting "&zz;".toList (ofString "&zz;") ∧ "notit;".toList.head?.any Char.isAlphanum = true ∧
      "zz;".toList.head?.any Char.isAlphanum = true ∧
      Longest "notit;".toList ⟨"not".toList, ['¬']⟩ ∧ ∀ e ∈ entries, ¬ e.name <+: "zz;".toList) ∧
    Decodes (ofString "&notit;") ['¬'] "it;".toList [.missingSemicolonAfterCharacterReference] ∧
    Decodes (valueOf "?" "&notit;") "&not".toList "it;".toList [] ∧
    Decodes (ofString "&zz;") "&zz".toList [';'] [.unknownNamedCharacterReference] := by
  have hword : Hosting "&notit;".toList (ofString "&notit;") := ⟨rfl, rfl, rfl, rfl⟩
  have hvalue : Hosting "&notit;".toList (valueOf "?" "&notit;") := ⟨rfl, rfl, rfl, rfl⟩
  have hnone : Hosting "&zz;".toList (ofString "&zz;") := ⟨rfl, rfl, rfl, rfl⟩
  have hmem : ⟨"not".toList, ['¬']⟩ ∈ Table.lowerN := by decide +kernel
  have hall : ∀ e ∈ entries, (e.name <+: "notit;".toList → e.name.length ≤ 3) ∧
      ¬ e.name <+: "zz;".toList := by
    decide +kernel
  have hnot : Longest "notit;".toList ⟨"not".toList, ['¬']⟩ := by
    refine ⟨?_, by decide, fun e he => (hall e he).1⟩
    simp only [entries, Table.nToQ, List.mem_append, hmem, true_or, or_true]
  have hzz : ∀ e ∈ entries, ¬ e.name <+: "zz;".toList := fun e he => (hall e he).2
  refine ⟨⟨hword, hvalue, hnone, rfl, rfl, hnot, hzz⟩, ?_, ?_, ?_⟩
  · exact (decodes_name hword rfl).2 _ "it;".toList hnot rfl
  · exact (decodes_name hvalue rfl).2 _ "it;".toList hnot rfl
  · exact (decodes_name hnone rfl).1 hzz

/-! ## 4. Numbers -/

/-- What may stand between the number sign and the digits. -/
def markers : Radix → List (List Char)
  | .decimal => [[]]
  | .hexadecimal => [['x'], ['X']]

/-- The number with these digits, the most significant first. -/
def numericValue (radix : Radix) (digits : List Char) : Nat :=
  Nat.ofDigits (base radix) (digits.reverse.map fun c => (digitValue? radix c).getD 0)

/-- The character with this number, or what stands in for it. -/
def codeCharacter (v : Nat) : Char :=
  if v = 0 ∨ 0x10FFFF < v ∨ 0xD800 ≤ v ∧ v ≤ 0xDFFF then '\uFFFD'
  else Char.ofNat ((windowsCharacters.lookup v).getD v)

/-- What is wrong with the number of a character. -/
def codeFlaw? (v : Nat) : Option ErrorKind :=
  if v = 0 then some .nullCharacterReference
  else if 0x10FFFF < v then some .characterReferenceOutsideUnicodeRange
  else if 0xD800 ≤ v ∧ v ≤ 0xDFFF then some .surrogateCharacterReference
  else if 0xFDD0 ≤ v ∧ v ≤ 0xFDEF ∨ v % 0x10000 = 0xFFFE ∨ v % 0x10000 = 0xFFFF then
    some .noncharacterCharacterReference
  else if v ≤ 0x1F ∧ v ∉ [0x09, 0x0A, 0x0C] ∨ 0x7F ≤ v ∧ v ≤ 0x9F then
    some .controlCharacterReference
  else none

variable {radix : Radix} {digits marker : List Char} {v code : Nat}

theorem numericValue_concat (radix : Radix) (digits : List Char) (c : Char) :
    numericValue radix (digits ++ [c]) =
      numericValue radix digits * base radix + (digitValue? radix c).getD 0 := by
  rw [numericValue, List.reverse_append, List.reverse_singleton, List.singleton_append,
    List.map_cons, Nat.ofDigits_cons, ← numericValue, Nat.mul_comm, Nat.add_comm]

/-- Saturating at each digit comes to saturating once. -/
theorem addDigit_min (radix : Radix) (v digit : Nat) :
    addDigit radix (min v codeLimit) digit = min (v * base radix + digit) codeLimit := by
  have hbase : 1 ≤ base radix := by cases radix <;> decide
  unfold addDigit
  by_cases hv : v ≤ codeLimit
  · rw [Nat.min_eq_left hv]
    omega
  · have hmul : codeLimit ≤ codeLimit * base radix := Nat.le_mul_of_pos_right _ hbase
    have hmul' : v ≤ v * base radix := Nat.le_mul_of_pos_right _ hbase
    rw [Nat.min_eq_right (Nat.le_of_not_le hv)]
    omega

theorem lookup_windowsCharacters (h : v < 0x80 ∨ 0x9F < v) : windowsCharacters.lookup v = none := by
  have hkeys : ∀ p ∈ windowsCharacters, 0x80 ≤ p.1 ∧ p.1 ≤ 0x9F := by decide
  refine List.lookup_eq_none_iff.2 fun p hp => bne_iff_ne.2 ?_
  have hrange := hkeys p hp
  omega

theorem resolveCode_of_lt (h : 0x10FFFF < v) :
    resolveCode v = (0xFFFD, some .characterReferenceOutsideUnicodeRange) := by
  rw [resolveCode, if_neg (by omega), if_pos h]

/-- All numbers that saturate are out of range alike. -/
theorem resolveCode_min (v : Nat) : resolveCode (min v codeLimit) = resolveCode v := by
  by_cases hv : v ≤ codeLimit
  · rw [Nat.min_eq_left hv]
  · have hlimit : 0x10FFFF < codeLimit := by decide
    rw [Nat.min_eq_right (Nat.le_of_not_le hv), resolveCode_of_lt hlimit,
      resolveCode_of_lt (by omega)]

theorem isNoncharacter_iff_of_le (h : v ≤ 0x10FFFF) : Ascii.isNoncharacter v = true ↔
    0xFDD0 ≤ v ∧ v ≤ 0xFDEF ∨ v % 0x10000 = 0xFFFE ∨ v % 0x10000 = 0xFFFF := by
  simp only [Ascii.isNoncharacter, Bool.or_eq_true, Bool.and_eq_true, decide_eq_true_eq]
  omega

theorem isControl_iff_of_not_blank :
    v = 0x0D ∨ (Ascii.isControl v = true ∧ v ∉ [0x09, 0x0A, 0x0C, 0x20]) ↔
    v ≤ 0x1F ∧ v ∉ [0x09, 0x0A, 0x0C] ∨ 0x7F ≤ v ∧ v ≤ 0x9F := by
  simp only [Ascii.isControl, Bool.or_eq_true, Bool.and_eq_true, decide_eq_true_eq, List.mem_cons,
    List.not_mem_nil, or_false, not_or]
  omega

/-- The table of the code page holds controls only, so it may be looked up for every number. -/
theorem resolveCode_eq (v : Nat) :
    Char.ofNat (resolveCode v).1 = codeCharacter v ∧ (resolveCode v).2 = codeFlaw? v := by
  by_cases hzero : v = 0
  · subst hzero
    exact ⟨rfl, rfl⟩
  by_cases hlarge : 0x10FFFF < v
  · rw [resolveCode_of_lt hlarge, codeCharacter, if_pos (Or.inr (Or.inl hlarge)), codeFlaw?,
      if_neg hzero, if_pos hlarge]
    exact ⟨rfl, rfl⟩
  by_cases hsurrogate : 0xD800 ≤ v ∧ v ≤ 0xDFFF
  · rw [resolveCode, if_neg hzero, if_neg hlarge, if_pos hsurrogate, codeCharacter,
      if_pos (Or.inr (Or.inr hsurrogate)),
      codeFlaw?, if_neg hzero, if_neg hlarge, if_pos hsurrogate]
    exact ⟨rfl, rfl⟩
  -- only scalar values are left, and of these the table changes controls
  have hscalar : ¬ (v = 0 ∨ 0x10FFFF < v ∨ 0xD800 ≤ v ∧ v ≤ 0xDFFF) := by
    rintro (h | h | h)
    · exact hzero h
    · exact hlarge h
    · exact hsurrogate h
  simp only [resolveCode, codeCharacter, codeFlaw?, if_neg hzero, if_neg hlarge, if_neg hsurrogate,
    if_neg hscalar, isNoncharacter_iff_of_le (Nat.le_of_not_lt hlarge), isControl_iff_of_not_blank]
  split_ifs with hnon hcontrol
  · rw [lookup_windowsCharacters (by omega)]
    exact ⟨rfl, rfl⟩
  · exact ⟨rfl, rfl⟩
  · rw [lookup_windowsCharacters (by omega)]
    exact ⟨rfl, rfl⟩

/-! ### Digits -/

/-- In a numeric reference, with this number read so far. -/
structure Counting (t₀ : Tokenizer) (kinds : List ErrorKind) (code : Nat) (s : State)
    (ahead : List Char) (t : Tokenizer) : Prop extends Deciphering t₀ [] kinds [] s ahead t where
  code : t.code = code

theorem Counting.step (h : Counting t₀ kinds code s ahead t)
    (hQ : Counting t₀ kinds code s ahead.tail t.consume → t.consume.input.pushBack.ahead = ahead →
      Spells S Q answers text (t.consume.handle ahead.head?)) : Spells S Q answers text t :=
  h.toDeciphering.step fun h' hback => hQ ⟨h', (code_consume t).trans h.code⟩ hback

/-- The digits are read one by one, and the number is what they say, up to the limit. -/
theorem spells_digits (hdigits : ∀ c ∈ digits, (digitValue? radix c).isSome = true)
    {done : List Char}
    (h : Counting t₀ [] (min (numericValue radix done) codeLimit) (.numericReferenceDigits radix)
      (digits ++ rest) t)
    (hQ : ∀ t', Counting t₀ [] (min (numericValue radix (done ++ digits)) codeLimit)
      (.numericReferenceDigits radix) rest t' → Spells S Q answers text t') :
      Spells S Q answers text t := by
  induction digits generalizing done t with
  | nil =>
    rw [List.append_nil] at hQ
    exact hQ t h
  | cons c digits ih =>
    obtain ⟨hc, hdigits⟩ := List.forall_mem_cons.1 hdigits
    obtain ⟨digit, hdigit⟩ := Option.isSome_iff_exists.1 hc
    refine h.step fun h' _ => ?_
    rw [List.append_cons] at hQ
    refine ih hdigits ?_ hQ
    -- saturating now or later comes to the same
    have hvalue : addDigit radix t.consume.code digit =
        min (numericValue radix (done ++ [c])) codeLimit := by
      rw [h'.code, addDigit_min, numericValue_concat, hdigit]
      rfl
    simp only [handle, h'.state, List.cons_append, List.head?_cons]
    simp only [numericReferenceDigits, Option.bind_some, hdigit]
    exact ⟨h'.toDeciphering.code _, hvalue⟩

theorem numericCharacterReference_of_ne (hx : c ≠ 'x') (hX : c ≠ 'X') :
    t.numericCharacterReference (some c) =
      { t with code := 0 }.reconsumeIn (.numericReferenceStart .decimal) := by
  unfold numericCharacterReference
  split
  · next heq => exact absurd (Option.some.inj heq) hx
  · next heq => exact absurd (Option.some.inj heq) hX
  · rfl

/-- The marker decides how the digits are read. -/
theorem spells_marker (hmarker : marker ∈ markers radix)
    (hahead : ahead.head?.any (fun c => (digitValue? radix c).isSome) = true)
    (h : Deciphering t₀ [] [] [] .numericCharacterReference (marker ++ ahead) t)
    (hQ : ∀ t', Counting t₀ [] 0 (.numericReferenceStart radix) ahead t' →
      Spells S Q answers text t') :
    Spells S Q answers text t := by
  refine h.step fun h' hback => hQ _ ?_
  simp only [handle, h'.state]
  cases radix with
  | decimal =>
    obtain rfl := List.mem_singleton.1 hmarker
    obtain ⟨c, hc, hdigit⟩ := (Option.any_eq_true ..).1 hahead
    -- a decimal digit is no marker
    have hne : c ≠ 'x' ∧ c ≠ 'X' := by
      constructor <;> rintro rfl <;> cases hdigit
    rw [List.nil_append, hc, numericCharacterReference_of_ne hne.1 hne.2]
    exact ⟨(h'.code 0).reconsumeIn hback _, rfl⟩
  | hexadecimal =>
    simp only [markers, List.mem_cons, List.not_mem_nil, or_false] at hmarker
    obtain rfl | rfl := hmarker
    · exact ⟨((h'.code 0).buffer _).switchTo _, rfl⟩
    · exact ⟨((h'.code 0).buffer _).switchTo _, rfl⟩

theorem isOfInput_of_codeFlaw? {kind : ErrorKind} (h : codeFlaw? v = some kind) :
    kind.isOfInput = false := by
  unfold codeFlaw? at h
  split_ifs at h
  all_goals
    cases h
    rfl

theorem numericReferenceEnd_of_none (hcode : t.code = min v codeLimit)
    (hflaw : codeFlaw? v = none) :
    t.numericReferenceEnd =
      ({ t with input := t.input.pushBack }.resolve [codeCharacter v]).switchToReturn := by
  obtain ⟨hchar, hkind⟩ := resolveCode_eq v
  unfold numericReferenceEnd
  simp only [hcode, resolveCode_min, hchar, hkind, hflaw]

theorem numericReferenceEnd_of_some {kind : ErrorKind} (hcode : t.code = min v codeLimit)
    (hflaw : codeFlaw? v = some kind) :
    t.numericReferenceEnd =
      (({ t with input := t.input.pushBack }.report kind).resolve
        [codeCharacter v]).switchToReturn := by
  obtain ⟨hchar, hkind⟩ := resolveCode_eq v
  unfold numericReferenceEnd
  simp only [hcode, resolveCode_min, hchar, hkind, hflaw]

/-- The number is complete. -/
theorem spells_number (h : Counting t₀ kinds (min v codeLimit) .numericReferenceEnd rest t)
    (answers : Nat → Bool) :
    Spells (fun _ => True) (Decoded t₀ [codeCharacter v] rest (kinds ++ (codeFlaw? v).toList))
      answers (uttered t₀.state [codeCharacter v]) t := by
  refine h.step fun h' hback => ?_
  simp only [handle, h'.state]
  cases hflaw : codeFlaw? v with
  | none =>
    rw [numericReferenceEnd_of_none h'.code hflaw, Option.toList_none, List.append_nil]
    exact ((h'.input hback).resolve _).returns
  | some kind =>
    rw [numericReferenceEnd_of_some h'.code hflaw]
    exact (((h'.input hback).report (isOfInput_of_codeFlaw? hflaw)).resolve _).returns

/-- Behind the digits a semicolon is read, or missed. -/
theorem spells_semicolon (hrest : rest.head?.bind (digitValue? radix) = none)
    (h : Counting t₀ [] (min v codeLimit) (.numericReferenceDigits radix) rest t)
    (answers : Nat → Bool) : Spells (fun _ => True)
      (Decoded t₀ [codeCharacter v] (if rest.head? = some ';' then rest.tail else rest)
        ((if rest.head? = some ';' then [] else [.missingSemicolonAfterCharacterReference]) ++
          (codeFlaw? v).toList))
      answers (uttered t₀.state [codeCharacter v]) t := by
  refine h.step fun h' hback => ?_
  simp only [handle, h'.state, numericReferenceDigits, hrest]
  by_cases hsemicolon : rest.head? = some ';'
  · rw [if_pos hsemicolon, if_pos hsemicolon, if_pos hsemicolon]
    exact spells_number ⟨h'.toDeciphering.switchTo _, h'.code⟩ answers
  · rw [if_neg hsemicolon, if_neg hsemicolon, if_neg hsemicolon]
    exact spells_number ⟨(h'.toDeciphering.report rfl).reconsumeIn hback _, h'.code⟩ answers

/-- A number stands for the same character whatever the length of its digits. A semicolon that
follows is read with it, and missed otherwise. -/
theorem decodes_number (h : Hosting ('&' :: '#' :: (marker ++ digits ++ rest)) t)
    (hmarker : marker ∈ markers radix)
    (hne : digits ≠ []) (hdigits : ∀ c ∈ digits, (digitValue? radix c).isSome = true)
    (hrest : rest.head?.bind (digitValue? radix) = none) :
    Decodes t [codeCharacter (numericValue radix digits)]
      (if rest.head? = some ';' then rest.tail else rest)
      ((if rest.head? = some ';' then [] else [.missingSemicolonAfterCharacterReference]) ++
        (codeFlaw? (numericValue radix digits)).toList) := by
  intro answers
  have hhead : (digits ++ rest).head?.any (fun c => (digitValue? radix c).isSome) = true := by
    cases digits with
    | nil => exact absurd rfl hne
    | cons c digits => exact (List.forall_mem_cons.1 hdigits).1
  apply h.spells
  intro t₁ h₁
  refine h₁.step fun h₂ _ => ?_
  have hhandle : t₁.consume.handle (some '#') =
      { t₁.consume with buffer := ['&', '#'] }.switchTo .numericCharacterReference := by
    simp only [handle, h₂.state]
    rfl
  rw [List.head?_cons, hhandle]
  have hbegun := (h₂.buffer ['&', '#']).switchTo .numericCharacterReference
  rw [List.tail_cons, List.append_assoc] at hbegun
  apply spells_marker hmarker hhead hbegun
  intro t₂ h₃
  refine h₃.step fun h₄ hback => ?_
  obtain ⟨c, hc, hdigit⟩ := (Option.any_eq_true ..).1 hhead
  have hhandle : t₂.consume.handle (digits ++ rest).head? =
      t₂.consume.reconsumeIn (.numericReferenceDigits radix) := by
    simp only [handle, h₄.state, numericReferenceStart, hc, Option.bind_some, hdigit, if_true]
  rw [hhandle]
  -- no digit has been read, and the number is zero
  have hzero : Counting t [] (min (numericValue radix []) codeLimit) (.numericReferenceDigits radix)
      (digits ++ rest) (t₂.consume.reconsumeIn (.numericReferenceDigits radix)) :=
    ⟨h₄.toDeciphering.reconsumeIn hback _, h₄.code⟩
  apply spells_digits hdigits hzero
  intro t₃ h₅
  exact spells_semicolon hrest h₅ answers

/-- A number that would be a letter if it wrapped around, without a semicolon. -/
theorem decodes_number_large :
    (Hosting ('&' :: '#' :: (['x'] ++ "100000041".toList ++ ['G'])) (ofString "&#x100000041G") ∧
      ['x'] ∈ markers .hexadecimal ∧ "100000041".toList ≠ [] ∧
      (∀ c ∈ "100000041".toList, (digitValue? .hexadecimal c).isSome = true) ∧
      ['G'].head?.bind (digitValue? .hexadecimal) = none) ∧
    Decodes (ofString "&#x100000041G") ['\uFFFD'] ['G']
      [.missingSemicolonAfterCharacterReference, .characterReferenceOutsideUnicodeRange] := by
  have h : Hosting ('&' :: '#' :: (['x'] ++ "100000041".toList ++ ['G']))
      (ofString "&#x100000041G") :=
    ⟨rfl, rfl, rfl, rfl⟩
  have hmarker : ['x'] ∈ markers .hexadecimal := by decide
  have hne : "100000041".toList ≠ [] := by decide
  have hdigits : ∀ c ∈ "100000041".toList, (digitValue? .hexadecimal c).isSome = true :=
    List.all_eq_true.1 (by decide)
  have hrest : ['G'].head?.bind (digitValue? .hexadecimal) = none := by decide
  have hvalue : numericValue .hexadecimal "100000041".toList = 0x100000041 := by decide +kernel
  have hdecodes := decodes_number h hmarker hne hdigits hrest
  rw [hvalue] at hdecodes
  exact ⟨⟨h, hmarker, hne, hdigits, hrest⟩, hdecodes⟩

end Tokenizer

end Hypertext
