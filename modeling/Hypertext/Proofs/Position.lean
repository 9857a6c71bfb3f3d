import Hypertext.ParseError

/-!
# Places in a text

Everything that is reported or delivered is given the position after some beginning of the text. An
error is placed where its finder is, and none is ever taken back.
-/

namespace Hypertext

/-- The position after some beginning of the text. -/
def Position.On (text : List Char) (p : Position) : Prop :=
  ∃ done, done <+: text ∧ p = Position.start.advanceBy done

theorem Position.on_start (text : List Char) : Position.start.On text := ⟨[], List.nil_prefix, rfl⟩

/-- Whether an error is about a character that should be in no input, whatever it is read as. -/
def ErrorKind.isOfInput : ErrorKind → Bool
  | .noncharacterInInputStream | .controlCharacterInInputStream => true
  | _ => false

namespace ErrorLog

/-- All errors in the log are placed in the text. -/
def On (text : List Char) (log : ErrorLog) : Prop := ∀ e ∈ log.entries, e.position.On text

/-- The errors about characters that should be in no input. -/
def ofInput (log : ErrorLog) : List ParseError := log.entries.toList.filter (·.kind.isOfInput)

/-- Errors are added to a log, all of them at one place and none about a character as such. -/
structure GrowsAt (log : ErrorLog) (p : Position) (log' : ErrorLog) : Prop where
  entries : ∀ e ∈ log'.entries, e ∈ log.entries ∨ e.position = p
  ofInput : log'.ofInput = log.ofInput

variable {log log' log'' : ErrorLog} {p : Position} {text : List Char} {kind : ErrorKind}

theorem ofInput_record (log : ErrorLog) (kind : ErrorKind) (p : Position) :
    (log.record kind p).ofInput = log.ofInput ++ if kind.isOfInput then [⟨kind, p⟩] else [] := by
  rw [ofInput, record, Array.toList_push, List.filter_append, List.filter_cons, List.filter_nil]
  rfl

theorem ofInput_append (log other : ErrorLog) :
    (log.append other).ofInput = log.ofInput ++ other.ofInput := by
  rw [ofInput, append, Array.toList_append, List.filter_append]
  rfl

theorem GrowsAt.refl : log.GrowsAt p log := ⟨fun _ => Or.inl, rfl⟩

theorem GrowsAt.trans (h : log.GrowsAt p log') (h' : log'.GrowsAt p log'') : log.GrowsAt p log'' :=
  ⟨fun e he => (h'.entries e he).elim (h.entries e) Or.inr, h'.ofInput.trans h.ofInput⟩

theorem GrowsAt.record (hk : kind.isOfInput = false) : log.GrowsAt p (log.record kind p) := by
  refine ⟨fun _ he => (Array.mem_push.1 he).imp_right fun heq => congrArg ParseError.position heq,
    ?_⟩
  rw [ofInput_record, hk, if_neg Bool.false_ne_true, List.append_nil]

theorem GrowsAt.on (h : log.GrowsAt p log') (hl : log.On text) (hp : p.On text) : log'.On text :=
  fun e he => (h.entries e he).elim (hl e) fun heq => heq ▸ hp

theorem On.record (h : log.On text) (hp : p.On text) : (log.record kind p).On text := fun e he =>
  (Array.mem_push.1 he).elim (h e) fun heq => heq ▸ hp

theorem On.append (h : log.On text) (h' : log'.On text) : (log.append log').On text := fun e he =>
  (Array.mem_append.1 he).elim (h e) (h' e)

end ErrorLog

end Hypertext
