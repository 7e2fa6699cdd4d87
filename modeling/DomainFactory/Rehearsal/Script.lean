import DomainFactory.Host

/-!
# Scripts

A script stands in for the code behind an operation or a check, so that a factory can be rehearsed
without it. It is a list of guarded steps, taken in order; a step whose guard does not hold is
passed over. The services of a rehearsal are texts.
-/
namespace DomainFactory

/-- The input of a callback as guards see it. -/
structure Scene where
  /-- The kind of the gated operation; only checks know it. -/
  kind : Option Kind := none
  /-- The target. -/
  target : Option Entity
  /-- The arguments. -/
  arguments : List Value
  /-- The services by parameter name. -/
  services : Keyed String

namespace Scene

/-- The service bound to a parameter; null when there is none. -/
def service (scene : Scene) (parameter : String) : Value :=
  .ofOption ((scene.services.get? parameter).map .string)

/-- The argument at a position; null when there is none. -/
def argument (scene : Scene) (position : Nat) : Value := .ofOption scene.arguments[position]?

end Scene

/-- The conditions of a step; each one that is given must hold. -/
structure Guard where
  /-- The argument at a position exists and has a value. -/
  argument : Option (Nat × Value) := none
  /-- The target has a field with a value. -/
  field : Option (String × Value) := none
  /-- The service bound to a parameter is a text. -/
  service : Option (String × Value) := none
  /-- There is a target, and it is new or not. -/
  isNew : Option Bool := none
  /-- The gated operation has a kind. -/
  kind : Option Kind := none

namespace Guard

/-- Whether the conditions hold in a scene. -/
def holds (guard : Guard) (scene : Scene) : Bool :=
  guard.argument.all (fun wanted => scene.arguments[wanted.1]?.any wanted.2.same) &&
    guard.field.all (fun wanted =>
      (scene.target.bind (·.get? wanted.1)).any wanted.2.same) &&
    guard.service.all (fun wanted => wanted.2.same (scene.service wanted.1)) &&
    guard.isNew.all (fun wanted => scene.target.any (·.state.isNew == wanted)) &&
    guard.kind.all (fun wanted => scene.kind == some wanted)

end Guard

/-- A step of a script with its guard. -/
structure Guarded (α : Type) where
  /-- The guard. -/
  guard : Guard
  /-- The step. -/
  step : α

/-- A step of a handler. Steps on fields do nothing without a target. -/
inductive HandlerStep where
  /-- Sets a field to a value. -/
  | set (field : String) (value : Value)
  /-- Sets a field to the argument at a position. -/
  | setArgument (field : String) (position : Nat)
  /-- Sets a field to the service bound to a parameter. -/
  | setService (field parameter : String)
  /-- Sets the state of the target. -/
  | setState (state : SaveState)
  /-- Takes a fresh instance as the target. -/
  | newTarget (typeName : String)
  /-- Goes on without a target. -/
  | dropTarget
  /-- Settles what is returned at the end. -/
  | giveBack (value : Value)
  /-- Returns the argument at a position at the end. -/
  | giveBackArgument (position : Nat)
  /-- Waits or notes a text. -/
  | live (moment : Moment)
  /-- Raises a fault. -/
  | raise (fault : Fault)
  /-- Leaves out the steps behind. -/
  | finish

/-- A step of a check. -/
inductive CheckStep where
  /-- Gives a verdict. -/
  | decide (verdict : Verdict)
  /-- Waits or notes a text. -/
  | live (moment : Moment)
  /-- Raises a fault. -/
  | raise (fault : Fault)

/-- The script of a handler. -/
abbrev HandlerScript := List (Guarded HandlerStep)

/-- The script of a check. -/
abbrev CheckScript := List (Guarded CheckStep)

namespace Answer

/-- The answer with a moment in front. -/
def behind {α : Type} (moment : Moment) (answer : Answer α) : Answer α :=
  { answer with moments := moment :: answer.moments }

end Answer

namespace HandlerScript

/-- Plays a script on an input, given the target and what is to be returned so far. -/
def playFrom (invocation : Invocation String) :
    (target : Option Entity) → (returned : Value) → HandlerScript → Answer Completion
  | target, returned, [] => .ofResult (.ok ⟨target, returned⟩)
  | target, returned, ⟨guard, step⟩ :: steps =>
    let scene : Scene := { invocation with target }
    if !guard.holds scene then playFrom invocation target returned steps
    else
      match step with
      | .set field value =>
        playFrom invocation (target.map (·.set field value)) returned steps
      | .setArgument field position =>
        playFrom invocation (target.map (·.set field (scene.argument position))) returned steps
      | .setService field parameter =>
        playFrom invocation (target.map (·.set field (scene.service parameter))) returned steps
      | .setState state =>
        playFrom invocation (target.map fun target => { target with state }) returned steps
      | .newTarget typeName => playFrom invocation (some (.new typeName)) returned steps
      | .dropTarget => playFrom invocation none returned steps
      | .giveBack value => playFrom invocation target value steps
      | .giveBackArgument position =>
        playFrom invocation target (scene.argument position) steps
      | .live moment => (playFrom invocation target returned steps).behind moment
      | .raise fault => .ofResult (.error fault)
      | .finish => .ofResult (.ok ⟨target, returned⟩)

/-- The handler that plays a script. -/
def handler (script : HandlerScript) : Handler String := fun _ invocation =>
  playFrom invocation invocation.target .null script

end HandlerScript

namespace CheckScript

/-- Plays a script in a scene: the first verdict counts, and without one the call is allowed. -/
def playIn (scene : Scene) : CheckScript → Answer Verdict
  | [] => .ofResult (.ok .allow)
  | ⟨guard, step⟩ :: steps =>
    if !guard.holds scene then playIn scene steps
    else
      match step with
      | .decide verdict => .ofResult (.ok verdict)
      | .live moment => (playIn scene steps).behind moment
      | .raise fault => .ofResult (.error fault)

/-- The check that plays a script. -/
def checker (script : CheckScript) : Checker String := fun _ question =>
  playIn ⟨question.kind, question.target, question.arguments, question.services⟩ script

end CheckScript

end DomainFactory
