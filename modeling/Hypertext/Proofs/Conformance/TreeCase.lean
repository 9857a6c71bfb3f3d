import Hypertext.Conformance.TreeCase
import Mathlib.Data.List.Basic

/-!
# Test files are read back

A case is written as a block: its sections in order, each below its header, and an empty line at the
end. A file of such blocks is read back, if no line of a section can be taken for a header or for
part of a line break.
-/

namespace Hypertext.Conformance

/-! ## 1. Lines -/

/-- Lines, each with its line feed. -/
def joinLines (ls : List String) : String := String.join (ls.map (· ++ "\n"))

theorem joinLines_cons (line : String) (ls : List String) :
    joinLines (line :: ls) = line ++ "\n" ++ joinLines ls :=
  String.join_cons

theorem joinLines_singleton (line : String) : joinLines [line] = line ++ "\n" := by
  rw [joinLines_cons, joinLines, List.map_nil, String.join_nil, String.append_empty]

theorem joinLines_append (ls ls' : List String) :
    joinLines (ls ++ ls') = joinLines ls ++ joinLines ls' := by
  rw [joinLines, List.map_append, String.join_append]
  rfl

theorem joinLines_eq_intercalate {ls : List String} (h : ls ≠ []) :
    joinLines ls = "\n".intercalate ls ++ "\n" := by
  induction ls with
  | nil => exact absurd rfl h
  | cons line ls ih =>
    rw [joinLines_cons]
    match ls with
    | [] => rw [← joinLines_cons, joinLines_singleton, String.intercalate_singleton]
    | next :: ls =>
      rw [ih (List.cons_ne_nil _ _), String.intercalate_cons_cons]
      exact String.append_assoc.symm

/-- What stands between line feeds. -/
def between (text : String) : List String := (text.toList.splitOn '\n').map String.ofList

theorem between_ne_nil (text : String) : between text ≠ [] := by
  rw [between, ne_eq, List.map_eq_nil_iff]
  exact List.splitOn_ne_nil _ _

theorem intercalate_between (text : String) : "\n".intercalate (between text) = text := by
  have hid : String.toList ∘ String.ofList = id := funext fun _ => String.toList_ofList
  rw [← String.toList_inj, String.toList_intercalate, between, List.map_map, hid, List.map_id]
  exact List.intercalate_splitOn '\n'

theorem joinLines_between (text : String) : joinLines (between text) = text ++ "\n" := by
  rw [joinLines_eq_intercalate (between_ne_nil text), intercalate_between]

theorem not_mem_of_mem_splitOnP {α : Type} {p : α → Bool} {l part : List α}
    (h : part ∈ l.splitOnP p) : ∀ a ∈ part, p a = false := by
  induction l generalizing part with
  | nil =>
    rw [List.splitOnP_nil, List.mem_singleton] at h
    rw [h]
    exact List.forall_mem_nil _
  | cons a l ih =>
    rw [List.splitOnP_cons_eq_if_modifyHead] at h
    split_ifs at h with ha
    · rcases List.mem_cons.1 h with rfl | h
      · exact List.forall_mem_nil _
      · exact ih h
    · obtain ⟨first, parts, hparts⟩ := List.exists_cons_of_ne_nil (List.splitOnP_ne_nil p l)
      rw [hparts, List.modifyHead_cons] at h
      rw [hparts] at ih
      rcases List.mem_cons.1 h with rfl | h
      · exact List.forall_mem_cons.2 ⟨Bool.eq_false_iff.2 ha, ih List.mem_cons_self⟩
      · exact ih (List.mem_cons_of_mem _ h)

theorem not_mem_of_mem_between {text line : String} (h : line ∈ between text) :
    '\n' ∉ line.toList := by
  obtain ⟨part, hpart, rfl⟩ := List.mem_map.1 h
  rw [String.toList_ofList]
  intro hmem
  simpa using not_mem_of_mem_splitOnP hpart _ hmem

/-- A single line, no part of which is taken for a line break. -/
structure IsLine (line : String) : Prop where
  single : '\n' ∉ line.toList
  noReturn : line.toList.getLast? ≠ some '\r'

theorem linesFrom_append {line reversed rest : List Char} (h : '\n' ∉ line) :
    linesFrom reversed (line ++ '\n' :: rest) =
      lineOf (line.reverse ++ reversed) :: linesFrom [] rest := by
  induction line generalizing reversed with
  | nil => rw [List.nil_append, linesFrom, if_pos rfl, List.reverse_nil, List.nil_append]
  | cons c line ih =>
    obtain ⟨hc, hline⟩ := not_or.1 (List.mem_cons.not.1 h)
    rw [List.cons_append, linesFrom, if_neg (Ne.symm hc), ih hline, List.reverse_cons,
      List.append_assoc]
    rfl

theorem lineOf_reverse {line : String} (h : line.toList.getLast? ≠ some '\r') :
    lineOf line.toList.reverse = line := by
  unfold lineOf
  split
  · next rest hreverse =>
    rw [List.getLast?_eq_head?_reverse, hreverse] at h
    exact absurd rfl h
  · rw [List.reverse_reverse, String.ofList_toList]

/-- Lines that are written with line feeds are read as they are. -/
theorem lines_joinLines {ls : List String} (h : ∀ line ∈ ls, IsLine line) :
    lines (joinLines ls) = ls := by
  induction ls with
  | nil => rfl
  | cons line ls ih =>
    obtain ⟨hline, hls⟩ := List.forall_mem_cons.1 h
    have hchars : (joinLines (line :: ls)).toList =
        line.toList ++ '\n' :: (joinLines ls).toList := by
      rw [joinLines_cons, String.toList_append, String.toList_append, List.append_assoc]
      rfl
    rw [lines, hchars, linesFrom_append hline.single, List.append_nil,
      lineOf_reverse hline.noReturn, ← lines, ih hls]

/-! ## 2. Sections -/

/-- The lines that open a section. -/
def headers : List String :=
  ["#data", "#errors", "#new-errors", "#document-fragment", "#document", "#script-on",
    "#script-off"]

theorem ofLine?_header (s : Section) : Section.ofLine? s.header = some s := by
  cases s with
  | script on => cases on <;> decide
  | _ => decide

theorem ofLine?_of_not_mem {line : String} (h : line ∉ headers) : Section.ofLine? line = none := by
  rw [Section.ofLine?, List.find?_eq_none]
  intro s _ heq
  rw [beq_iff_eq] at heq
  apply h
  rw [← heq]
  cases s with
  | script on => cases on <;> decide
  | _ => decide

variable {d : Draft} {ls : List String}

theorem readCases_data (draft : Option Draft) (rest : List String) :
    readCases draft ("#data" :: rest) =
      (draft.map Draft.finish).toList ++ readCases (some {}) rest := by
  rw [readCases, show "#data" = Section.data.header from rfl, ofLine?_header]

theorem readCases_header (s : Section) (hs : s ≠ .data) (d : Draft) (rest : List String) :
    readCases (some d) (s.header :: rest) = readCases (some (d.enter s)) rest := by
  rw [readCases, ofLine?_header]
  cases s with
  | data => exact absurd rfl hs
  | _ => rfl

theorem readCases_lines (h : ∀ line ∈ ls, line ∉ headers) (d : Draft) (rest : List String) :
    readCases (some d) (ls ++ rest) = readCases (some (ls.foldl Draft.add d)) rest := by
  induction ls generalizing d with
  | nil => rfl
  | cons line ls ih =>
    obtain ⟨hline, hls⟩ := List.forall_mem_cons.1 h
    rw [List.cons_append, readCases, ofLine?_of_not_mem hline]
    exact ih hls (d.add line)

namespace Draft

/-- Adds lines to a section that has as many lines as one likes. -/
def put (d : Draft) (ls : List String) : Draft :=
  match d.current with
  | .data => { d with dataLines := d.dataLines ++ ls }
  | .errors => { d with errors := d.errors ++ ls }
  | .document => { d with documentLines := d.documentLines ++ ls }
  | .newErrors | .fragment | .script _ => d

theorem put_nil (d : Draft) : d.put [] = d := by
  unfold put
  split <;> simp only [List.append_nil]

theorem put_cons (d : Draft) (line : String) (ls : List String) :
    d.put (line :: ls) = (d.put [line]).put ls := by
  unfold put
  cases hcurrent : d.current with
  | data | errors | document => simp only [List.append_assoc, List.singleton_append]
  | newErrors | fragment | script => simp only [hcurrent]

theorem current_put (d : Draft) (ls : List String) : (d.put ls).current = d.current := by
  unfold put
  split <;> rfl

/-- Empty lines are lost among the errors only. -/
theorem foldl_add (hcurrent : d.current ∈ [Section.data, .errors, .document])
    (hempty : d.current = .errors → ∀ line ∈ ls, line ≠ "") : ls.foldl add d = d.put ls := by
  induction ls generalizing d with
  | nil => exact d.put_nil.symm
  | cons line ls ih =>
    -- among the errors an empty line is dropped, and there is none
    have hadd : d.add line = d.put [line] := by
      simp only [List.mem_cons, List.not_mem_nil, or_false] at hcurrent
      unfold add put
      rcases hcurrent with h | h | h
      · rw [h]
      · have hline : line.isEmpty = false := by
          rw [Bool.eq_false_iff, ne_eq, String.isEmpty_iff]
          exact hempty h line List.mem_cons_self
        rw [h, hline]
        rfl
      · rw [h]
    rw [List.foldl_cons, hadd, d.put_cons line ls]
    apply ih
    · rw [current_put]
      exact hcurrent
    · rw [current_put]
      exact fun h next hnext => hempty h next (List.mem_cons_of_mem _ hnext)

theorem readCases_put (hcurrent : d.current ∈ [Section.data, .errors, .document])
    (hls : ∀ line ∈ ls, line ∉ headers)
    (hempty : d.current = .errors → ∀ line ∈ ls, line ≠ "") (rest : List String) :
    readCases (some d) (ls ++ rest) = readCases (some (d.put ls)) rest := by
  rw [readCases_lines hls, foldl_add hcurrent hempty]

/-- The lines for the element around a fragment. -/
def contextLines : Option String → List String
  | some context => ["#document-fragment", context]
  | none => []

def scriptingLines : Option Bool → List String
  | some true => ["#script-on"]
  | some false => ["#script-off"]
  | none => []

/-- The lines that have been read when there is this draft. -/
def block (d : Draft) : List String :=
  ["#data"] ++ d.dataLines ++ ["#errors"] ++ d.errors ++ contextLines d.fragmentContext ++
    scriptingLines d.scripting ++ ["#document"] ++ d.documentLines

/-- A draft whose lines do not read like headers, and of which none would be passed over. -/
structure Readable (d : Draft) : Prop where
  current : d.current = .document
  data : ∀ line ∈ d.dataLines, line ∉ headers
  errors : ∀ line ∈ d.errors, line ∉ headers ∧ line ≠ ""
  context : ∀ line ∈ d.fragmentContext, line ∉ headers ∧ line ≠ ""
  document : ∀ line ∈ d.documentLines, line ∉ headers

theorem readCases_scripting (scripting : Option Bool) (d : Draft) (rest : List String) :
    readCases (some d) (scriptingLines scripting ++ ("#document" :: rest)) =
      readCases (some { d with current := .document, scripting := scripting.or d.scripting })
        rest := by
  have hdocument (d : Draft) : readCases (some d) ("#document" :: rest) =
      readCases (some (d.enter .document)) rest :=
    readCases_header .document nofun d rest
  match scripting with
  | none => exact hdocument d
  | some true =>
    have hscript := readCases_header (.script true) nofun d ("#document" :: rest)
    exact hscript.trans (hdocument _)
  | some false =>
    have hscript := readCases_header (.script false) nofun d ("#document" :: rest)
    exact hscript.trans (hdocument _)

theorem readCases_context {context : Option String}
    (h : ∀ line ∈ context, line ∉ headers ∧ line ≠ "")
    (scripting : Option Bool) (d : Draft) (rest : List String) :
    readCases (some d)
        (contextLines context ++ (scriptingLines scripting ++ ("#document" :: rest))) =
      readCases (some { d with
        current := .document
        fragmentContext := context.or d.fragmentContext
        scripting := scripting.or d.scripting }) rest := by
  cases context with
  | none => exact readCases_scripting scripting d rest
  | some line =>
    obtain ⟨hline, hne⟩ := h line rfl
    have hempty : line.isEmpty = false := by rwa [Bool.eq_false_iff, ne_eq, String.isEmpty_iff]
    have hadd : (d.enter .fragment).add line =
        { d with current := .fragment, fragmentContext := some line } := by
      show (if line.isEmpty = true then d.enter .fragment else _) = _
      rw [hempty]
      rfl
    have hfragment := readCases_header .fragment nofun d
    have hcontext := readCases_lines (List.forall_mem_singleton.2 hline) (d.enter .fragment)
    rw [List.foldl_cons, List.foldl_nil, hadd] at hcontext
    exact (hfragment _).trans ((hcontext _).trans (readCases_scripting scripting _ rest))

/-- Reading the lines of a draft finishes the one before, and leads to it. -/
theorem readCases_block (h : d.Readable) (draft : Option Draft) (rest : List String) :
    readCases draft (d.block ++ rest) = (draft.map finish).toList ++ readCases (some d) rest := by
  obtain ⟨current, dataLines, errors, fragmentContext, scripting, documentLines⟩ := d
  obtain ⟨rfl, hdata, herrors, hcontext, hdocument⟩ := h
  -- each part of the block is added to what the parts before it have made of the empty draft
  have hafterData (rest : List String) :
      readCases (some {}) (dataLines ++ rest) = readCases (some { dataLines }) rest :=
    readCases_put (d := {}) List.mem_cons_self hdata (by simp) rest
  have hafterErrors (rest : List String) :
      readCases (some { current := .errors, dataLines }) (errors ++ rest) =
      readCases (some { current := .errors, dataLines, errors }) rest :=
    readCases_put (d := { current := .errors, dataLines })
      (by simp) (fun line hline => (herrors line hline).1)
      (fun _ line hline => (herrors line hline).2) rest
  have hafterContext (rest : List String) :
      readCases (some { current := .errors, dataLines, errors })
        (contextLines fragmentContext ++ (scriptingLines scripting ++ ("#document" :: rest))) =
      readCases (some { current := .document, dataLines, errors, fragmentContext, scripting })
      rest := by
    simpa using readCases_context hcontext scripting { current := .errors, dataLines, errors } rest
  have hafterDocument : readCases
        (some { current := .document, dataLines, errors, fragmentContext, scripting })
        (documentLines ++ rest) =
      readCases
        (some { current := .document, dataLines, errors, fragmentContext, scripting
                documentLines }) rest :=
    readCases_put (d := { current := .document, dataLines, errors, fragmentContext, scripting })
      (by simp) hdocument (by simp) rest
  have herrorsHeader (rest : List String) : readCases (some { dataLines }) ("#errors" :: rest) =
      readCases (some { current := .errors, dataLines }) rest :=
      readCases_header .errors nofun _ rest
  simp only [block, List.append_assoc, List.cons_append, List.nil_append]
  rw [readCases_data, hafterData, herrorsHeader, hafterErrors, hafterContext, hafterDocument]

end Draft

/-! ## 3. Blocks -/

/-- A line that is no header, and whose end is not taken for part of a line break. -/
structure IsPlain (line : String) : Prop where
  noHeader : line ∉ headers
  noReturn : line.toList.getLast? ≠ some '\r'

instance (line : String) : Decidable (IsPlain line) :=
  decidable_of_iff (line ∉ headers ∧ line.toList.getLast? ≠ some '\r')
    ⟨fun h => ⟨h.1, h.2⟩, fun h => ⟨h.noHeader, h.noReturn⟩⟩

theorem isLine_of_mem_headers : ∀ line ∈ headers, IsLine line := by
  have hall : ∀ line ∈ headers, '\n' ∉ line.toList ∧ line.toList.getLast? ≠ some '\r' := by decide
  exact fun line hline => ⟨(hall line hline).1, (hall line hline).2⟩

namespace TreeCase

def contextText (context : Option String) : String :=
  context.elim "" fun line => "#document-fragment\n" ++ line ++ "\n"

def scriptingText : Option Bool → String
  | some true => "#script-on\n"
  | some false => "#script-off\n"
  | none => ""

/-- A case as a block of a test file. -/
def print (c : TreeCase) : String :=
  "#data\n" ++ c.data ++ "\n" ++ "#errors\n" ++ joinLines c.errors ++
    contextText c.fragmentContext ++ scriptingText c.scripting ++
    "#document\n" ++ c.document ++ "\n"

/-- A case that can be told from its block. All its lines are plain; an error is a line and not
empty, and so is the element around a fragment; and the document is made of whole lines, of which
the last is not empty. -/
structure Printable (c : TreeCase) : Prop where
  data : ∀ line ∈ between c.data, IsPlain line
  errors : ∀ line ∈ c.errors, IsPlain line ∧ '\n' ∉ line.toList ∧ line ≠ ""
  context : ∀ line ∈ c.fragmentContext, IsPlain line ∧ '\n' ∉ line.toList ∧ line ≠ ""
  document : ∃ ls, c.document = joinLines ls ∧ (∀ line ∈ ls, IsPlain line ∧ '\n' ∉ line.toList) ∧
    ls.getLast? ≠ some ""

/-- What has been read of a case at the end of its block, if these are the lines of the document. -/
def draft (c : TreeCase) (ls : List String) : Draft where
  current := .document
  dataLines := between c.data
  errors := c.errors
  fragmentContext := c.fragmentContext
  scripting := c.scripting
  documentLines := ls ++ [""]

variable {c : TreeCase}

/-- The empty line at the end of the block is removed, and no other. -/
theorem trimEnd_concat (h : ls.getLast? ≠ some "") : Draft.trimEnd (ls ++ [""]) = ls := by
  rw [Draft.trimEnd, List.reverse_append, List.reverse_singleton, List.singleton_append,
    List.dropWhile_cons, if_pos (by decide), List.reverse_eq_iff]
  cases hreverse : ls.reverse with
  | nil => rfl
  | cons last front =>
    rw [List.getLast?_eq_head?_reverse, hreverse] at h
    have hlast : last.isEmpty = false := by
      rw [Bool.eq_false_iff, ne_eq, String.isEmpty_iff]
      rintro rfl
      exact h rfl
    rw [List.dropWhile_cons, hlast]
    rfl

theorem finish_draft (hdocument : c.document = joinLines ls) (hlast : ls.getLast? ≠ some "") :
    (c.draft ls).finish = c := by
  obtain ⟨data, errors, fragmentContext, scripting, document⟩ := c
  cases hdocument
  simp only [draft, Draft.finish, intercalate_between, trimEnd_concat hlast]
  rfl

theorem joinLines_contextLines (context : Option String) :
    joinLines (Draft.contextLines context) = contextText context := by
  cases context with
  | none => rfl
  | some context =>
    simp only [Draft.contextLines, contextText, Option.elim_some,
      joinLines_cons "#document-fragment",
      joinLines_singleton, String.reduceAppend, String.append_assoc]

theorem joinLines_scriptingLines (scripting : Option Bool) :
    joinLines (Draft.scriptingLines scripting) = scriptingText scripting := by
  match scripting with
  | none | some true | some false => decide

theorem joinLines_block (hdocument : c.document = joinLines ls) :
    joinLines (c.draft ls).block = c.print := by
  delta print
  simp only [Draft.block, draft, joinLines_append, joinLines_between, joinLines_singleton,
    joinLines_contextLines, joinLines_scriptingLines, hdocument, String.reduceAppend,
    String.append_assoc]

theorem isLine_block (h : c.Printable) (hls : ∀ line ∈ ls, IsPlain line ∧ '\n' ∉ line.toList) :
    ∀ line ∈ (c.draft ls).block, IsLine line := by
  have hheader (line : String) (h : line ∈ headers) : ∀ line' ∈ [line], IsLine line' :=
    List.forall_mem_singleton.2 (isLine_of_mem_headers line h)
  have hdata : ∀ line ∈ between c.data, IsLine line := fun line hline =>
    ⟨not_mem_of_mem_between hline, (h.data line hline).noReturn⟩
  have herrors : ∀ line ∈ c.errors, IsLine line := fun line hline =>
    ⟨(h.errors line hline).2.1, (h.errors line hline).1.noReturn⟩
  have hcontext : ∀ line ∈ Draft.contextLines c.fragmentContext, IsLine line := by
    cases hcontext : c.fragmentContext with
    | none => exact List.forall_mem_nil _
    | some context =>
      obtain ⟨hplain, hsingle, -⟩ := h.context context hcontext
      exact List.forall_mem_cons.2 ⟨isLine_of_mem_headers _ (by decide),
        List.forall_mem_singleton.2 ⟨hsingle, hplain.noReturn⟩⟩
  have hscripting : ∀ line ∈ Draft.scriptingLines c.scripting, IsLine line := by
    match c.scripting with
    | none => exact List.forall_mem_nil _
    | some true | some false => exact hheader _ (by decide)
  have hdocument : ∀ line ∈ ls, IsLine line := fun line hline =>
    ⟨(hls line hline).2, (hls line hline).1.noReturn⟩
  have hend : ∀ line ∈ [""], IsLine line := List.forall_mem_singleton.2 ⟨by decide, by decide⟩
  simp only [Draft.block, draft, List.forall_mem_append]
  exact ⟨⟨⟨⟨⟨⟨⟨hheader _ (by decide), hdata⟩, hheader _ (by decide)⟩, herrors⟩, hcontext⟩,
    hscripting⟩, hheader _ (by decide)⟩, hdocument, hend⟩

theorem readable_draft (h : c.Printable) (hls : ∀ line ∈ ls, IsPlain line ∧ '\n' ∉ line.toList) :
    (c.draft ls).Readable where
  current := rfl
  data line hline := (h.data line hline).noHeader
  errors line hline := ⟨(h.errors line hline).1.noHeader, (h.errors line hline).2.2⟩
  context line hline := ⟨(h.context line hline).1.noHeader, (h.context line hline).2.2⟩
  document line hline := by
    rcases List.mem_append.1 hline with hline | hline
    · exact (hls line hline).1.noHeader
    · rw [List.mem_singleton.1 hline]
      decide

/-- Each block finishes the case before it, and the last one is finished by the end of the file. -/
theorem exists_lines {cases : List TreeCase} (h : ∀ c ∈ cases, c.Printable) :
    ∃ ls, (∀ line ∈ ls, IsLine line) ∧ joinLines ls = String.join (cases.map print) ∧
    ∀ draft, readCases draft ls = (draft.map Draft.finish).toList ++ cases := by
  induction cases with
  | nil => exact ⟨[], List.forall_mem_nil _, rfl, fun draft => (List.append_nil _).symm⟩
  | cons c cases ih =>
    obtain ⟨hc, hcases⟩ := List.forall_mem_cons.1 h
    obtain ⟨rest, hrest, hjoin, hread⟩ := ih hcases
    obtain ⟨ls, hdocument, hls, hlast⟩ := hc.document
    refine ⟨(c.draft ls).block ++ rest, List.forall_mem_append.2 ⟨isLine_block hc hls, hrest⟩, ?_,
      fun draft => ?_⟩
    · rw [joinLines_append, joinLines_block hdocument, hjoin, List.map_cons, String.join_cons]
    · rw [Draft.readCases_block (readable_draft hc hls), hread, Option.map_some,
        finish_draft hdocument hlast]
      rfl

/-- Whatever the cases are, they are read back from a file of their blocks. -/
theorem ofFile_print {cases : List TreeCase} (h : ∀ c ∈ cases, c.Printable) :
    ofFile (String.join (cases.map print)) = cases := by
  obtain ⟨ls, hls, hjoin, hread⟩ := exists_lines h
  rw [ofFile, ← hjoin, lines_joinLines hls, hread]
  rfl

/-- Empty lines inside the data and the document stay, and a fragment may have neither. -/
theorem ofFile_print_two :
    let cases : List TreeCase :=
      [{ data := "<p>One\n\nTwo", errors := ["(1,3): expected-doctype"],
         document := "| \"a\n\nb\"\n" },
       { fragmentContext := some "svg desc", scripting := some false }]
    (∀ c ∈ cases, c.Printable) ∧
      ofFile
      ("#data\n<p>One\n\nTwo\n#errors\n(1,3): expected-doctype\n#document\n| \"a\n\nb\"\n\n" ++
        "#data\n\n#errors\n#document-fragment\nsvg desc\n#script-off\n#document\n\n") = cases := by
  intro cases
  have hcases : ∀ c ∈ cases, c.Printable := by
    refine List.forall_mem_cons.2 ⟨?_, List.forall_mem_singleton.2 ?_⟩
    · exact ⟨by decide, by decide, by decide, ["| \"a", "", "b\""], by decide, by decide, by decide⟩
    · exact ⟨by decide, by decide, by decide, [], by decide, by decide, by decide⟩
  refine ⟨hcases, ?_⟩
  rw [← ofFile_print hcases]
  exact congrArg ofFile (by decide)

end TreeCase

end Hypertext.Conformance
