import DomainFactory.Failure
import DomainFactory.Journal

/-!
# Runs

A run keeps a journal and a clock. It ends with a value, with an error, or because it is overdue:
it would wait beyond its deadline. A time limit turns the latter into a failure; what was written to
the journal until then stays.
-/
namespace DomainFactory

/-- What a run leaves behind. -/
structure World (σ : Type) where
  /-- What has happened. -/
  journal : Journal σ := []
  /-- The time in milliseconds. -/
  clock : Nat := 0

/-- Why a run ends without a value. -/
inductive Stop (ε : Type) where
  /-- An error was raised. -/
  | raised (error : ε)
  /-- The deadline passed. -/
  | overdue
deriving DecidableEq, Repr

namespace Stop

/-- The reason with its error changed. -/
def map {ε φ : Type} (change : ε → φ) : Stop ε → Stop φ
  | .raised error => .raised (change error)
  | .overdue => .overdue

end Stop

/-- A computation that knows its deadline and works on the world. -/
def Run (σ ε α : Type) : Type := Option Nat → World σ → Except (Stop ε) α × World σ

namespace Run

variable {σ ε φ α β : Type}

/-- The run that gives a value at once. -/
def pure (value : α) : Run σ ε α := fun _ world => (.ok value, world)

/-- One run after another. -/
def bind (run : Run σ ε α) (next : α → Run σ ε β) : Run σ ε β := fun deadline world =>
  match run deadline world with
  | (.ok value, later) => next value deadline later
  | (.error stop, later) => (.error stop, later)

instance : Monad (Run σ ε) where
  pure := Run.pure
  bind := Run.bind

/-- The run that raises an error. -/
def raise (error : ε) : Run σ ε α := fun _ world => (.error (.raised error), world)

/-- The run of a result that is known. -/
def ofExcept : Except ε α → Run σ ε α
  | .ok value => .pure value
  | .error error => raise error

/-- The run with its error changed. -/
def mapError (change : ε → φ) (run : Run σ ε α) : Run σ φ α := fun deadline world =>
  match run deadline world with
  | (.ok value, later) => (.ok value, later)
  | (.error stop, later) => (.error (stop.map change), later)

/-- The run whose error is a value. A run that is overdue still ends. -/
def attempt (run : Run σ ε α) : Run σ φ (Except ε α) := fun deadline world =>
  match run deadline world with
  | (.ok value, later) => (.ok (.ok value), later)
  | (.error (.raised error), later) => (.ok (.error error), later)
  | (.error .overdue, later) => (.error .overdue, later)

/-- The journal so far. -/
def journal : Run σ ε (Journal σ) := fun _ world => (.ok world.journal, world)

/-- Writes an event to the journal. -/
def write (side : Side) (event : Event σ) : Run σ ε Unit := fun _ world =>
  (.ok (), { world with journal := world.journal ++ [⟨side, event⟩] })

/-- Lets time pass. A run that would wait beyond its deadline is overdue at the deadline. -/
def wait (milliseconds : Nat) : Run σ ε Unit := fun deadline world =>
  let later := world.clock + milliseconds
  match deadline with
  | none => (.ok (), { world with clock := later })
  | some deadline =>
    if later ≤ deadline then (.ok (), { world with clock := later })
    else (.error .overdue, { world with clock := deadline })

/-- The run with a time limit: it fails when it takes longer. -/
def within (limit : Nat) (run : Run σ Failure α) : Run σ Failure α := fun deadline world =>
  let mine := world.clock + limit
  let first := (deadline.map (min mine)).getD mine
  match run (some first) world with
  | (.error .overdue, later) =>
    (.error (if first = mine then .raised (.timeout limit) else .overdue), later)
  | result => result

end Run

/-- What running code does on its way. -/
inductive Moment where
  /-- Waits. -/
  | pause (milliseconds : Nat)
  /-- Notes a text. -/
  | note (text : String)
deriving DecidableEq, Repr

/-- What running code does and how it ends. -/
structure Answer (α : Type) where
  /-- What it does on its way, in order. -/
  moments : List Moment
  /-- The result, or the fault it raises. -/
  result : Except Fault α

namespace Answer

variable {α : Type}

/-- The answer that gives a result at once. -/
def ofResult (result : Except Fault α) : Answer α := ⟨[], result⟩

end Answer

namespace Run

variable {σ ε α : Type}

/-- Goes through a moment of running code. -/
def live (side : Side) : Moment → Run σ ε Unit
  | .pause milliseconds => wait milliseconds
  | .note text => write side (.noted text)

/-- Goes through an answer to its result. -/
def play (side : Side) (answer : Answer α) : Run σ Fault α := do
  answer.moments.forM (live side)
  ofExcept answer.result

/-- Runs a callback between its two entries in the journal. The run may go on when the callback
gives a value that passes. -/
def enclose (side : Side) (callback : Callback σ) (passes : α → Bool) (run : Run σ Fault α) :
    Run σ Fault α := do
  write side (.began callback)
  match ← run.attempt with
  | .ok value =>
    write side (if passes value then .passed callback else .stopped callback)
    return value
  | .error fault =>
    write side (.stopped callback)
    raise fault

/-- Runs a callback whose answer depends on what has happened so far. -/
def consult (side : Side) (callback : Callback σ) (passes : α → Bool)
    (behaviour : Journal σ → Answer α) : Run σ Fault α := do
  let past ← journal
  enclose side callback passes (play side (behaviour past))

end Run

end DomainFactory
