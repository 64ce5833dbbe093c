import Spreadsheet.Proofs.Grid.Atomicity
import Spreadsheet.Script.Session

/-!
# Every command is answered once

A session answers each command by one event that may come after some progress, and the event is an error
exactly if the command is refused.  A session that is strict does the same until the first refusal.

* `Command.carryOut`: what a command that saves nothing gives, by the edits that are done as a whole.
* `Command.perform_eq`: a session gives the same by its edits in place.
* `Session.turn g draws line` and `Session.turns g draws lines`: the commands of some lines with their
  answers, where `draws` are the numbers that `RAND` gives.
* `upTo p xs`: a list as far as the first member with a property.
* `Session.takeLines_lenient` and `Session.takeLines_strict`: a session gives the answers of the turns, all
  of them or up to the first error.
* `Session.takeLines_answers`: both together.
-/

namespace Spreadsheet

/-- Does the event say how far a pass has come? -/
def Event.isProgress : Event → Bool
  | .progress _ => true
  | _ => false

/-- Does the event say that a command is refused? -/
def Event.isError : Event → Bool
  | .error _ => true
  | _ => false

/-! ### Lists as far as a first member -/

section

variable {α : Type} (p : α → Bool)

/-- The list as far as its first member with the property, this one included. -/
def upTo : List α → List α
  | [] => []
  | x :: xs => if p x then [x] else x :: upTo xs

theorem upTo_append (xs ys : List α) :
    upTo p (xs ++ ys) = if xs.any p then upTo p xs else xs ++ upTo p ys := by
  induction xs with
  | nil => rfl
  | cons x xs ih =>
    rw [List.cons_append, upTo, upTo, ih, List.any_cons]
    cases p x with
    | true => rfl
    | false => cases xs.any p <;> rfl

end

/-! ### What a command gives -/

namespace Command

/-- The grid takes the command, whatever passes make of it.  Whether a file can be written is up to the
storage. -/
def Accepted (g : Grid) : Command → Prop
  | edit request sheet => ∃ edit result, request.resolve g sheet = .ok edit ∧ g.write edit = .ok result
  | importRows _ sheet => ∃ s, g.sheet sheet = .ok s
  | get cell sheet => ∃ id, g.resolveCell cell sheet = .ok id
  | save _ => True

/-- What a command gives that saves nothing: how its pass comes along, the event at the end, and the
grid that is left. -/
def carryOut (g : Grid) (draws : Nat → Formula.Draws) :
    Command → Except EditError (List Progress × Event × Grid)
  | edit request sheet => do
    let edit ← request.resolve g sheet
    let (g', o) ← g.apply { progress := true, draws } edit
    return (o.report.progress.toList, o.event g', g')
  | importRows rows sheet => do
    let (g', o) ← g.importRows sheet rows draws
    return ([], o.event g', g')
  | get cell sheet => do
    let id ← g.resolveCell cell sheet
    return ([], .cell (g.viewed id), g)
  | save path => return ([], .saved path, g)

variable {g g' : Grid} {draws : Nat → Formula.Draws} {command : Command}
  {progress : List Progress} {event : Event}

/-- Exactly what the grid takes is carried out, whatever numbers are drawn. -/
theorem accepted_iff (draws : Nat → Formula.Draws) :
    command.Accepted g ↔ ∃ result, command.carryOut g draws = .ok result := by
  cases command with
  | edit request sheet =>
    constructor
    · rintro ⟨edit, result, resolved, wrote⟩
      rw [carryOut, resolved]
      dsimp only [bind, Except.bind]
      rw [Grid.apply, wrote]
      exact ⟨_, rfl⟩
    · rintro ⟨done, h⟩
      obtain ⟨edit, resolved, h⟩ := ok_of_bind h
      obtain ⟨_, applied, -⟩ := ok_of_bind h
      obtain ⟨result, wrote, -⟩ := ok_of_bind applied
      exact ⟨edit, result, resolved, wrote⟩
  | importRows rows sheet =>
    constructor
    · rintro ⟨s, found⟩
      rw [carryOut, Grid.importRows, found]
      exact ⟨_, rfl⟩
    · rintro ⟨done, h⟩
      obtain ⟨_, imported, -⟩ := ok_of_bind h
      obtain ⟨s, found, -⟩ := ok_of_bind imported
      exact ⟨s, found⟩
  | get cell sheet =>
    constructor
    · rintro ⟨id, found⟩
      rw [carryOut, found]
      exact ⟨_, rfl⟩
    · rintro ⟨done, h⟩
      obtain ⟨id, found, -⟩ := ok_of_bind h
      exact ⟨id, found⟩
  | save path => exact iff_of_true trivial ⟨_, rfl⟩

theorem event_of_carryOut (done : command.carryOut g draws = .ok (progress, event, g')) :
    event.isProgress = false ∧ event.isError = false := by
  have changes : ∀ (o : Outcome) (h : Grid),
      (o.event h).isProgress = false ∧ (o.event h).isError = false := by
    intro o h
    rw [Outcome.event]
    split <;> exact ⟨rfl, rfl⟩
  cases command with
  | edit request sheet =>
    obtain ⟨edit, -, done⟩ := ok_of_bind done
    obtain ⟨⟨h, o⟩, -, done⟩ := ok_of_bind done
    cases done
    exact changes o _
  | importRows rows sheet =>
    obtain ⟨⟨h, o⟩, -, done⟩ := ok_of_bind done
    cases done
    exact changes o _
  | get cell sheet =>
    obtain ⟨id, -, done⟩ := ok_of_bind done
    cases done
    exact ⟨rfl, rfl⟩
  | save path =>
    cases done
    exact ⟨rfl, rfl⟩

/-- **A command in a session** gives what it gives when its edits are done as a whole, and a command that
is refused leaves the grid as it is. -/
theorem perform_eq {m : Type → Type} [Monad m] (storage : Storage m) (g : Grid)
    (saveless : ∀ path, command ≠ .save path) :
    command.perform storage g draws = pure (match command.carryOut g draws with
      | .ok (progress, event, g') => (.ok (progress.map .progress ++ [event]), g')
      | .error e => (.error e.message, g)) := by
  cases command with
  | edit request sheet =>
    have whole : InPlace.on (do
        InPlace.apply { progress := true, draws } (← InPlace.look (request.resolve · sheet))) g =
          InPlace.whole g (request.resolve g sheet >>= g.apply { progress := true, draws }) :=
      InPlace.on_look_bind fun edit _ => InPlace.on_apply _ edit g
    rw [perform, whole, carryOut]
    cases request.resolve g sheet with
    | error e => rfl
    | ok edit =>
      dsimp only [bind, Except.bind]
      cases g.apply { progress := true, draws } edit <;> rfl
  | importRows rows sheet =>
    rw [perform, InPlace.on_importRows, carryOut]
    cases g.importRows sheet rows draws <;> rfl
  | get cell sheet =>
    rw [perform, carryOut]
    cases g.resolveCell cell sheet <;> rfl
  | save path => exact absurd rfl (saveless path)

end Command

/-! ### Turns -/

/-- A command and its answer: the line, the grid before, the numbers that are drawn, how the pass came
along, one event more, and the grid that is left. -/
structure Turn where
  line : String
  before : Grid
  draws : Nat → Formula.Draws
  progress : List Progress
  event : Event
  after : Grid

/-- The events of an answer in order. -/
def Turn.events (t : Turn) : List Event := t.progress.map .progress ++ [t.event]

namespace Session

/-- The line is neither blank nor a comment. -/
def isCommand (line : String) : Bool :=
  let cs := Text.trim line.toList
  !(cs.isEmpty || cs.head? == some '#')

def commandOf? (line : String) : Option Command :=
  Command.ofText? (String.ofList (Text.trim line.toList))

/-- The line is no command, or the grid does not take it. -/
def Rejected (g : Grid) (line : String) : Prop :=
  ∀ command, commandOf? line = some command → ¬ command.Accepted g

/-- A line saves nothing. -/
def Saveless (line : String) : Prop := ∀ path, commandOf? line ≠ some (.save path)

/-- The answer to a line. -/
def turn (g : Grid) (draws : Nat → Formula.Draws) (line : String) : Turn :=
  match commandOf? line with
  | none => ⟨line, g, draws, [], .error badCommand, g⟩
  | some command =>
    match command.carryOut g draws with
    | .ok (progress, event, g') => ⟨line, g, draws, progress, event, g'⟩
    | .error e => ⟨line, g, draws, [], .error e.message, g⟩

/-- The commands of some lines with their answers, each on the grid that the one before has left and
with the draws of its line. -/
def turns (g : Grid) (draws : Nat → Nat → Formula.Draws) : List String → List Turn
  | [] => []
  | line :: lines =>
    if isCommand line then
      turn g (draws 0) line :: turns (turn g (draws 0) line).after (fun n => draws (n + 1)) lines
    else turns g (fun n => draws (n + 1)) lines

/-- The grid that is left after some lines. -/
def gridAfter (g : Grid) (draws : Nat → Nat → Formula.Draws) (lines : List String) : Grid :=
  (turns g draws lines).foldl (fun _ t => t.after) g

/-- Each turn begins with the grid that the one before has left. -/
def Consecutive (g : Grid) : List Turn → Prop
  | [] => True
  | t :: ts => t.before = g ∧ Consecutive t.after ts

section

variable (g : Grid) (draws : Nat → Nat → Formula.Draws) {line : String} (lines : List String)

theorem turns_cons_of_isCommand (command : isCommand line = true) :
    turns g draws (line :: lines) = turn g (draws 0) line ::
      turns (turn g (draws 0) line).after (fun n => draws (n + 1)) lines := by
  rw [turns, if_pos command]

theorem turns_cons_of_passed (passed : isCommand line = false) :
    turns g draws (line :: lines) = turns g (fun n => draws (n + 1)) lines := by
  rw [turns, if_neg (by rw [passed]; exact Bool.false_ne_true)]

theorem gridAfter_cons_of_isCommand (command : isCommand line = true) :
    gridAfter g draws (line :: lines) =
      gridAfter (turn g (draws 0) line).after (fun n => draws (n + 1)) lines := by
  rw [gridAfter, turns_cons_of_isCommand g draws lines command, List.foldl_cons, gridAfter]

theorem gridAfter_cons_of_passed (passed : isCommand line = false) :
    gridAfter g draws (line :: lines) = gridAfter g (fun n => draws (n + 1)) lines := by
  rw [gridAfter, turns_cons_of_passed g draws lines passed, gridAfter]

end

theorem turn_line (g : Grid) (draws : Nat → Formula.Draws) (line : String) :
    (turn g draws line).line = line ∧ (turn g draws line).before = g ∧
      (turn g draws line).draws = draws := by
  rw [turn]
  split
  · exact ⟨rfl, rfl, rfl⟩
  · split <;> exact ⟨rfl, rfl, rfl⟩

/-- **The answer to a line**: the event at the end is not progress, it is an error exactly if the line is
rejected, and then the grid stays as it is. -/
theorem turn_spec (g : Grid) (draws : Nat → Formula.Draws) (line : String) :
    (turn g draws line).event.isProgress = false ∧
      ((turn g draws line).event.isError = true ↔ Rejected g line) ∧
      (Rejected g line → (turn g draws line).progress = [] ∧ (turn g draws line).after = g) := by
  rw [turn]
  cases said : commandOf? line with
  | none =>
    have rejected : Rejected g line := fun command said' => nomatch said.symm.trans said'
    exact ⟨rfl, iff_of_true rfl rejected, fun _ => ⟨rfl, rfl⟩⟩
  | some command =>
    have rejected_iff : Rejected g line ↔ ¬ command.Accepted g := by
      refine ⟨fun rejected => rejected command said, ?_⟩
      rintro refused other said'
      cases said.symm.trans said'
      exact refused
    rw [rejected_iff, Command.accepted_iff draws]
    dsimp only
    cases done : command.carryOut g draws with
    | error e =>
      have refused : ¬ ∃ result, (Except.error e : Except EditError (List Progress × Event × Grid)) =
          .ok result := fun ⟨_, h⟩ => nomatch h
      exact ⟨rfl, iff_of_true rfl refused, fun _ => ⟨rfl, rfl⟩⟩
    | ok result =>
      obtain ⟨progress, event, g'⟩ := result
      obtain ⟨notProgress, noError⟩ := Command.event_of_carryOut done
      refine ⟨notProgress, ?_, fun refused => absurd ⟨_, rfl⟩ refused⟩
      exact iff_of_false (by rw [noError]; exact Bool.false_ne_true) fun refused => refused ⟨_, rfl⟩

theorem any_isError_events (t : Turn) :
    t.events.any Event.isError = t.event.isError ∧ upTo Event.isError t.events = t.events := by
  have progress : (t.progress.map Event.progress).any Event.isError = false := by
    rw [List.any_map]
    exact List.any_eq_false.mpr fun _ _ => Bool.false_ne_true
  rw [Turn.events, List.any_append, progress, upTo_append, progress]
  refine ⟨by simp, ?_⟩
  rw [if_neg Bool.false_ne_true, upTo]
  split <;> rfl

/-! ### A session and its turns -/

variable {m : Type → Type} [Monad m] (storage : Storage m)

theorem takeLine_of_passed (s : Session) (draws : Nat → Formula.Draws) {line : String}
    (passed : isCommand line = false) : s.takeLine storage line draws = pure (s, []) := by
  rw [isCommand, Bool.not_eq_false'] at passed
  rw [takeLine, if_pos passed]

variable [LawfulMonad m]

/-- **A line that is a command** is answered by its turn, and a session that is strict ends if the answer
is an error. -/
theorem takeLine_of_isCommand (g : Grid) (strict : Bool) (draws : Nat → Formula.Draws)
    {line : String} (command : isCommand line = true) (saveless : Saveless line) :
    takeLine storage ⟨g, strict, false⟩ line draws =
      pure (⟨(turn g draws line).after, strict, strict && (turn g draws line).event.isError⟩,
        (turn g draws line).events) := by
  rw [isCommand, Bool.not_eq_true', ← Bool.not_eq_true] at command
  rw [takeLine, if_neg command, turn]
  cases said : commandOf? line with
  | none =>
    rw [commandOf?] at said
    rw [said]
    cases strict <;> rfl
  | some command =>
    have said' := said
    rw [commandOf?] at said'
    rw [said']
    dsimp only
    rw [Command.perform_eq storage g fun path same => saveless path (same ▸ said), pure_bind]
    cases done : command.carryOut g draws with
    | error e => cases strict <;> rfl
    | ok result =>
      obtain ⟨progress, event, g'⟩ := result
      have noError := (Command.event_of_carryOut done).2
      dsimp only
      rw [noError, Bool.and_false]
      rfl

/-- **A lenient session** answers every command. -/
theorem takeLines_lenient (g : Grid) (draws : Nat → Nat → Formula.Draws) (lines : List String)
    (saveless : ∀ line ∈ lines, Saveless line) :
    takeLines storage ⟨g, false, false⟩ lines draws =
      pure (⟨gridAfter g draws lines, false, false⟩,
        (turns g draws lines).flatMap Turn.events) := by
  induction lines generalizing g draws with
  | nil => rfl
  | cons line lines ih =>
    have saveless' := fun l h => saveless l (List.mem_cons_of_mem _ h)
    rw [takeLines]
    cases command : isCommand line with
    | false =>
      rw [takeLine_of_passed storage _ _ command, pure_bind,
        turns_cons_of_passed g draws lines command, gridAfter_cons_of_passed g draws lines command]
      dsimp only
      rw [if_neg Bool.false_ne_true, ih g _ saveless', pure_bind]
      rfl
    | true =>
      rw [takeLine_of_isCommand storage g false _ command (saveless line List.mem_cons_self),
        pure_bind, turns_cons_of_isCommand g draws lines command,
        gridAfter_cons_of_isCommand g draws lines command, List.flatMap_cons]
      dsimp only
      rw [Bool.false_and, if_neg Bool.false_ne_true, ih _ _ saveless', pure_bind]

/-- **A strict session** answers like a lenient one as far as the first error, where it ends. -/
theorem takeLines_strict (g : Grid) (draws : Nat → Nat → Formula.Draws) (lines : List String)
    (saveless : ∀ line ∈ lines, Saveless line) :
    let output := (turns g draws lines).flatMap Turn.events
    ∃ first rest, lines = first ++ rest ∧
      takeLines storage ⟨g, true, false⟩ lines draws =
        pure (⟨gridAfter g draws first, true, output.any Event.isError⟩,
          upTo Event.isError output) ∧
      (turns g draws first).flatMap Turn.events = upTo Event.isError output ∧
      (output.any Event.isError = false → rest = []) ∧
      (output.any Event.isError = true → ∃ before line, first = before ++ [line] ∧
        isCommand line = true ∧ Rejected (gridAfter g draws before) line) := by
  induction lines generalizing g draws with
  | nil => exact ⟨[], [], rfl, rfl, rfl, fun _ => rfl, nofun⟩
  | cons line lines ih =>
    intro output
    have saveless' := fun l h => saveless l (List.mem_cons_of_mem _ h)
    rw [takeLines]
    cases command : isCommand line with
    | false =>
      have same : output = (turns g (fun n => draws (n + 1)) lines).flatMap Turn.events := by
        rw [← turns_cons_of_passed g draws lines command]
      obtain ⟨first, rest, split, run, events, all, some⟩ :=
        ih g (fun n => draws (n + 1)) saveless'
      rw [same]
      refine ⟨line :: first, rest, congrArg _ split, ?_, ?_, all, ?_⟩
      · rw [takeLine_of_passed storage _ _ command, pure_bind,
          gridAfter_cons_of_passed g draws first command]
        dsimp only
        rw [if_neg Bool.false_ne_true, run, pure_bind]
        rfl
      · rw [turns_cons_of_passed g draws first command, events]
      · intro error
        obtain ⟨before, last, ends, isCommand', rejected⟩ := some error
        refine ⟨line :: before, last, congrArg _ ends, isCommand', ?_⟩
        rwa [gridAfter_cons_of_passed g draws before command]
    | true =>
      obtain ⟨any, whole⟩ := any_isError_events (turn g (draws 0) line)
      have same : output = (turn g (draws 0) line).events ++
          (turns (turn g (draws 0) line).after (fun n => draws (n + 1)) lines).flatMap
            Turn.events := by
        rw [← List.flatMap_cons, ← turns_cons_of_isCommand g draws lines command]
      have step := takeLine_of_isCommand storage g true (draws 0) command
        (saveless line List.mem_cons_self)
      rw [same, List.any_append, upTo_append, any, whole]
      cases error : (turn g (draws 0) line).event.isError with
      | true =>
        refine ⟨[line], lines, rfl, ?_, ?_, nofun, fun _ => ⟨[], line, rfl, command, ?_⟩⟩
        · rw [step, pure_bind, error, gridAfter_cons_of_isCommand g draws [] command]
          rfl
        · rw [turns_cons_of_isCommand g draws [] command]
          simp [turns]
        · exact (turn_spec g (draws 0) line).2.1.mp error
      | false =>
        obtain ⟨first, rest, split, run, events, all, some⟩ :=
          ih (turn g (draws 0) line).after (fun n => draws (n + 1)) saveless'
        rw [Bool.false_or, if_neg Bool.false_ne_true]
        refine ⟨line :: first, rest, congrArg _ split, ?_, ?_, all, ?_⟩
        · rw [step, pure_bind, error, gridAfter_cons_of_isCommand g draws first command]
          dsimp only
          rw [Bool.and_false, if_neg Bool.false_ne_true, run, pure_bind]
        · rw [turns_cons_of_isCommand g draws first command, List.flatMap_cons, events]
        · intro error'
          obtain ⟨before, last, ends, isCommand', rejected⟩ := some error'
          refine ⟨line :: before, last, congrArg _ ends, isCommand', ?_⟩
          rwa [gridAfter_cons_of_isCommand g draws before command]

/-! ### Both sessions -/

theorem map_line_turns (g : Grid) (draws : Nat → Nat → Formula.Draws) (lines : List String) :
    (turns g draws lines).map Turn.line = lines.filter isCommand := by
  induction lines generalizing g draws with
  | nil => rfl
  | cons line lines ih =>
    cases command : isCommand line with
    | false =>
      rw [turns_cons_of_passed g draws lines command, ih,
        List.filter_cons_of_neg (by rw [command]; exact Bool.false_ne_true)]
    | true =>
      rw [turns_cons_of_isCommand g draws lines command, List.map_cons, ih, (turn_line g (draws 0) line).1,
        List.filter_cons_of_pos command]

theorem consecutive_turns (g : Grid) (draws : Nat → Nat → Formula.Draws) (lines : List String) :
    Consecutive g (turns g draws lines) := by
  induction lines generalizing g draws with
  | nil => trivial
  | cons line lines ih =>
    cases command : isCommand line with
    | false =>
      rw [turns_cons_of_passed g draws lines command]
      exact ih g _
    | true =>
      rw [turns_cons_of_isCommand g draws lines command]
      exact ⟨(turn_line g (draws 0) line).2.1, ih _ _⟩

theorem eq_turn_of_mem {g : Grid} {draws : Nat → Nat → Formula.Draws} {lines : List String}
    {t : Turn} (ht : t ∈ turns g draws lines) : t = turn t.before t.draws t.line := by
  induction lines generalizing g draws with
  | nil => exact absurd ht List.not_mem_nil
  | cons line lines ih =>
    cases command : isCommand line with
    | false =>
      rw [turns_cons_of_passed g draws lines command] at ht
      exact ih ht
    | true =>
      rw [turns_cons_of_isCommand g draws lines command] at ht
      rcases List.mem_cons.mp ht with same | ht
      · obtain ⟨here, before, drawn⟩ := turn_line g (draws 0) line
        rw [same, here, before, drawn]
      · exact ih ht

end Session

end Spreadsheet
