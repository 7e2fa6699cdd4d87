import DomainFactory.Json.Form

/-!
# Diagnostics

A problem that generation works around is recorded as a diagnostic: what went wrong, for which
type, at which of its members, and a message.
-/
namespace DomainFactory

open Json

/-- What went wrong. -/
inductive Problem where
  /-- The text of a member is no method signature. -/
  | unresolvableSyntax
  /-- A marker names something unknown. -/
  | unknownMarker
  /-- A method has a receiver its kind forbids, or lacks one it needs. -/
  | invalidReceiver
  /-- A base type is not declared. -/
  | unresolvedBase
  /-- A type is associated with several policies. -/
  | multiplePolicies
  /-- The policy type is not declared, or its base chain is cyclic. -/
  | unresolvedPolicy
  /-- Several writes of one kind share their parameter types. -/
  | ambiguousSave
  /-- Every check of an operation needs the instance, so it has no probe. -/
  | probeRequiresTarget
deriving DecidableEq, Repr, Inhabited

namespace Problem

/-- The problems in declaration order. -/
def all : List Problem :=
  [.unresolvableSyntax, .unknownMarker, .invalidReceiver, .unresolvedBase, .multiplePolicies,
    .unresolvedPolicy, .ambiguousSave, .probeRequiresTarget]

/-- The name of a problem in JSON. -/
def name : Problem → String
  | .unresolvableSyntax => "UnresolvableSyntax"
  | .unknownMarker => "UnknownMarker"
  | .invalidReceiver => "InvalidReceiver"
  | .unresolvedBase => "UnresolvedBase"
  | .multiplePolicies => "MultiplePolicies"
  | .unresolvedPolicy => "UnresolvedPolicy"
  | .ambiguousSave => "AmbiguousSave"
  | .probeRequiresTarget => "ProbeRequiresTarget"

/-- The name of a problem in a message. -/
def text : Problem → String
  | .unresolvableSyntax => "unresolvable-syntax"
  | .unknownMarker => "unknown-marker"
  | .invalidReceiver => "invalid-receiver"
  | .unresolvedBase => "unresolved-base"
  | .multiplePolicies => "multiple-policies"
  | .unresolvedPolicy => "unresolved-policy"
  | .ambiguousSave => "ambiguous-save"
  | .probeRequiresTarget => "probe-requires-target"

instance : Form Problem where
  encode problem := .string problem.name
  decode := named? name all

end Problem

/-- A recorded problem. -/
structure Diagnostic where
  /-- What went wrong. -/
  problem : Problem
  /-- The type that was being generated. -/
  typeName : String
  /-- The member it concerns, when it concerns one. -/
  member : Option String
  /-- The explanation. -/
  message : String
deriving DecidableEq, Repr, Inhabited

namespace Diagnostic

/-- A diagnostic on one line. -/
def line (diagnostic : Diagnostic) : String :=
  "[" ++ diagnostic.problem.text ++ "] " ++ diagnostic.typeName ++
    (diagnostic.member.elim "" ("::" ++ ·)) ++ ": " ++ diagnostic.message

instance : Form Diagnostic where
  encode diagnostic :=
    record [("code", encode diagnostic.problem), ("type_name", encode diagnostic.typeName),
      ("member", encode diagnostic.member), ("message", encode diagnostic.message)]
  decode json := do
    match ← slots? ["code", "type_name", "member", "message"] json with
    | [problem, typeName, member, message] =>
      return ⟨← required problem, ← required typeName, ← nullable member, ← required message⟩
    | _ => none

end Diagnostic

end DomainFactory
