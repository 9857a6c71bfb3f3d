import Hypertext.Proofs.Newlines
import Hypertext.Proofs.Token
import Hypertext.Proofs.Tokenizer.Trail

/-!
# Writing tokens

How a token is written so that it can be read again. Characters that have a meaning in text or in an
attribute value are written as character references, and the identifiers of a document type in a
quote that they are free of.
-/

namespace Hypertext

/-- A character of text or of the value of an attribute. -/
def escape (c : Char) : List Char :=
  if c = '&' then ['&', 'a', 'm', 'p', ';']
  else if c = '<' then ['&', 'l', 't', ';']
  else if c = '\x22' then ['&', 'q', 'u', 'o', 't', ';']
  else if c = '\r' then ['&', '#', '1', '3', ';']
  else [c]

/-- The value of an attribute with the quotes around it. -/
def quotedValue (value : String) : List Char :=
  '\x22' :: (value.toList.flatMap escape ++ ['\x22'])

def Attribute.markup (a : Attribute) : List Char :=
  ' ' :: (a.name.toList ++ '=' :: quotedValue a.value)

def Tag.markup (t : Tag) : List Char :=
  '<' :: (t.name.toList ++ (t.attributes.flatMap Attribute.markup ++
    if t.selfClosing then ['/', '>'] else ['>']))

/-- A quote that the identifier is free of, if there is one. -/
def freeQuote (id : String) : Quote := if '\x22' ∈ id.toList then .single else .double

def quotedIdentifier (id : String) : List Char :=
  (freeQuote id).char :: (id.toList ++ [(freeQuote id).char])

/-- The word that comes before an identifier. -/
def Identifier.keyword : Identifier → List Char
  | .publicId => ['P', 'U', 'B', 'L', 'I', 'C']
  | .systemId => ['S', 'Y', 'S', 'T', 'E', 'M']

namespace Doctype

/-- The identifiers with their keyword. -/
def identifiers (d : Doctype) : List Char :=
  match d.publicId, d.systemId with
  | none, none => []
  | some publicId, none => ' ' :: (Identifier.publicId.keyword ++ ' ' :: quotedIdentifier publicId)
  | none, some systemId => ' ' :: (Identifier.systemId.keyword ++ ' ' :: quotedIdentifier systemId)
  | some publicId, some systemId =>
    ' ' :: (Identifier.publicId.keyword ++
      ' ' :: (quotedIdentifier publicId ++ ' ' :: quotedIdentifier systemId))

def markup (d : Doctype) : List Char :=
  ['<', '!', 'D', 'O', 'C', 'T', 'Y', 'P', 'E', ' '] ++ (d.name.getD "").toList ++
    d.identifiers ++ ['>']

end Doctype

namespace Token

def markup : Token → List Char
  | .doctype d => d.markup
  | .startTag t => t.markup
  | .endTag t => ['<', '/'] ++ t.name.toList ++ ['>']
  | .comment data => ['<', '!', '-', '-'] ++ data.toList ++ ['-', '-', '>']
  | .character c => escape c
  | .endOfFile => []

/-- Whether a token can be written: a document type needs a name, and it cannot be told to ask
for quirks. -/
def Writable : Token → Prop
  | .doctype d => d.WellFormed ∧ d.name ≠ none ∧ d.forceQuirks = false
  | .endOfFile => False
  | token => token.WellFormed

end Token

/-- What is written for some tokens. -/
def print (tokens : List Token) : String := String.ofList (tokens.flatMap Token.markup)

/-- A character is written as a reference or as it stands. -/
theorem escape_cases (c : Char) : (∃ more, escape c = '&' :: more) ∨
    escape c = [c] ∧ c ≠ '&' ∧ c ≠ '<' ∧ c ≠ '\x22' ∧ c ≠ '\r' := by
  unfold escape
  split_ifs with hamp hlt hquot hcr
  · exact Or.inl ⟨_, rfl⟩
  · exact Or.inl ⟨_, rfl⟩
  · exact Or.inl ⟨_, rfl⟩
  · exact Or.inl ⟨_, rfl⟩
  · exact Or.inr ⟨rfl, hamp, hlt, hquot, hcr⟩

/-! ## Carriage returns -/

theorem return_not_mem_escape (c : Char) : '\r' ∉ escape c := by
  unfold escape
  split_ifs with _ _ _ hc
  · decide
  · decide
  · decide
  · decide
  · simpa using Ne.symm hc

theorem return_not_mem_of_tagChars {name : List Char} (h : ∀ c ∈ name, isTagChar c = true) :
    '\r' ∉ name :=
  fun hc => absurd (h _ hc) (by decide)

theorem return_not_mem_quotedIdentifier {id : String} (h : IsIdentifier id) :
    '\r' ∉ quotedIdentifier id := by
  have hquote : '\r' ≠ (freeQuote id).char := by cases freeQuote id <;> decide
  have hid : '\r' ∉ id.toList := fun hc => absurd (h.chars _ hc).1 (by decide)
  simp [quotedIdentifier, hquote, hid]

theorem return_not_mem_identifiers {d : Doctype} (h : d.WellFormed) : '\r' ∉ d.identifiers := by
  have hpublic := fun id heq => return_not_mem_quotedIdentifier (h.publicId id heq)
  have hsystem := fun id heq => return_not_mem_quotedIdentifier (h.systemId id heq)
  unfold Doctype.identifiers
  split
  · exact List.not_mem_nil
  · next id heq _ => simp [Identifier.keyword, hpublic id heq]
  · next id _ heq => simp [Identifier.keyword, hsystem id heq]
  · next id id' heq heq' => simp [Identifier.keyword, hpublic id heq, hsystem id' heq']

theorem return_not_mem_attribute {a : Attribute} (h : a.WellFormed) : '\r' ∉ a.markup := by
  have hname := return_not_mem_of_tagChars h.name.chars
  simp [Attribute.markup, quotedValue, hname, return_not_mem_escape]

/-- What is written holds no carriage return, so that reading it changes no line end. -/
theorem return_not_mem_markup {token : Token} (h : token.Writable) : '\r' ∉ token.markup := by
  -- names, values and texts that may be written hold none, and neither does what is put around them
  cases token with
  | doctype d =>
    have hwell : d.WellFormed := h.1
    have hname : '\r' ∉ (d.name.getD "").toList := by
      cases hn : d.name with
      | none => simp
      | some name => exact fun hc => absurd ((hwell.name name hn).chars _ hc) (by decide)
    have hids := return_not_mem_identifiers hwell
    have hopening : '\r' ∉ ['<', '!', 'D', 'O', 'C', 'T', 'Y', 'P', 'E', ' '] := by decide
    simp only [Token.markup, Doctype.markup, List.mem_append, List.mem_singleton, not_or]
    exact ⟨⟨⟨hopening, hname⟩, hids⟩, by decide⟩
  | startTag tag =>
    have hname := return_not_mem_of_tagChars h.name.chars
    have hattributes : ∀ a ∈ tag.attributes, '\r' ∉ a.markup := fun a ha =>
      return_not_mem_attribute (h.attributes a ha)
    have hclose : '\r' ∉ (if tag.selfClosing then ['/', '>'] else ['>']) := by
      split <;> decide
    simp only [Token.markup, Tag.markup, List.mem_cons, List.mem_append, List.mem_flatMap, not_or]
    exact ⟨by decide, hname, fun ⟨a, ha, hc⟩ => hattributes a ha hc, hclose⟩
  | endTag tag =>
    have hname := return_not_mem_of_tagChars h.1.chars
    simp [Token.markup, hname]
  | comment data =>
    have hdata : '\r' ∉ data.toList := fun hc => absurd (IsCommentText.chars h _ hc) (by decide)
    simp [Token.markup, hdata]
  | character c => exact return_not_mem_escape c
  | endOfFile => exact h.elim

theorem normalizeNewlines_print {tokens : List Token} (h : ∀ token ∈ tokens, token.Writable) :
    normalizeNewlines (print tokens).toList = tokens.flatMap Token.markup := by
  rw [print, String.toList_ofList]
  refine normalizeNewlines_eq fun hc => ?_
  obtain ⟨token, ht, hc⟩ := List.mem_flatMap.1 hc
  exact return_not_mem_markup (h token ht) hc

end Hypertext
