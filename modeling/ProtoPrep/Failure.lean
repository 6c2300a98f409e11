import ProtoPrep.Config.Reader
import ProtoPrep.Files.Tree

/-!
# Failures

Why a step of the program fails: a value is not given, a file cannot be read or
written, or the configuration is not usable. A failed run may put the failure in a
context. The messages of the context, the failure and its cause make up the chain
that is shown.
-/

namespace ProtoPrep

inductive ConfigProblem where
  | unreadable (path : Text) (cause : Files.Cause)
  | malformed (fault : Json.Fault) (place : Json.Place)
  | invalid (reason : Config.Invalid)
  /-- Any other problem, in the words of whoever reports it. -/
  | stated (message : Text)

inductive Failure where
  | missingArgument (what flag : Text)
  | file (path : Text) (cause : Files.Cause)
  | config (problem : ConfigProblem)

namespace Failure

def fileMessage (path : Text) (cause : Files.Cause) : String :=
  "I/O error on " ++ path.quoted ++ ": " ++ cause.message

end Failure

def ConfigProblem.message : ConfigProblem → String
  | unreadable path cause =>
    "failed to read " ++ path.quoted ++ ": " ++ Failure.fileMessage path cause
  | malformed fault place => fault.message ++ s!" at line {place.line} column {place.column}"
  | invalid reason => reason.message
  | stated message => String.ofList message

namespace Failure

def message : Failure → String
  | missingArgument what flag =>
    "No path to " ++ String.ofList what ++ " given. Use " ++ String.ofList flag ++ "."
  | file path cause => fileMessage path cause
  | config problem => "Configuration error: " ++ problem.message

/-- The failure behind a failure, in words. -/
def cause? : Failure → Option String
  | file _ cause => some cause.message
  | _ => none

def isArgument : Failure → Bool
  | missingArgument .. => true
  | _ => false

end Failure

inductive Context where
  | loadConfig
  | convert (path : Text)
  | fixIncludes (path : Text)
  | addPragmas (path : Text)
  | serviceFlag
deriving DecidableEq

def Context.message : Context → String
  | loadConfig => "Failed to load configuration"
  | convert path => "Failed to convert " ++ path.quoted
  | fixIncludes path => "Failed to fix includes in " ++ path.quoted
  | addPragmas path => "Failed to inject pragmas into " ++ path.quoted
  | serviceFlag => "Invalid --service value"

structure RunFailure where
  context : Option Context
  failure : Failure

namespace RunFailure

/-- The messages of the context, the failure and its cause. -/
def chain (e : RunFailure) : List String :=
  (e.context.map Context.message).toList ++ e.failure.message :: e.failure.cause?.toList

def diagnostic (e : RunFailure) : String :=
  if e.failure.isArgument then e.failure.message ++ "\n"
  else "Error: " ++ ": ".intercalate e.chain ++ "\n"

end RunFailure

namespace Config

def ofText (t : Text) : Except ConfigProblem Config :=
  (parse t).mapError fun stop => .malformed stop.fault (stop.place t)

def load (t : Text) : Except ConfigProblem Config := do
  let config ← ofText t
  config.check.mapError .invalid
  return config

end Config

end ProtoPrep
