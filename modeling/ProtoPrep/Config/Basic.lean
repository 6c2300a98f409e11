import ProtoPrep.Generated.Patches
import ProtoPrep.Log
import ProtoPrep.Text.CharClass
import ProtoPrep.Text.Quoted

/-!
# Configurations

A configuration names the service, lists the compiler warnings to turn off and sets
the bound of the log. It is valid when the name is a bare name, not blank and free
of slashes, backslashes and quotes, and no warning has the code zero.
-/

namespace ProtoPrep

structure Config where
  serviceName : Text
  warnings : List Warning
  level : Level
deriving DecidableEq

namespace Config

def defaultServiceName : Text :=
  "economy_service".toList

def defaultWarnings : List Warning :=
  [⟨4800, "forcing value to bool true or false".toList⟩,
   ⟨4125, "decimal digit terminates octal escape sequence".toList⟩,
   ⟨4647, "behavior change __is_pod has different value in previous version".toList⟩,
   ⟨4668, ("'symbol' is not defined as a preprocessor macro, " ++
      "replacing with '0' for 'directives'").toList⟩,
   ⟨4946, "reinterpret_cast used".toList⟩]

def defaultLevel : Level :=
  .info

def default : Config :=
  ⟨defaultServiceName, defaultWarnings, defaultLevel⟩

inductive Invalid where
  | blankName
  | notBareName (name : Text)
  | zeroCode (comment : Text)
deriving DecidableEq

def Invalid.message : Invalid → String
  | blankName => "service_name must not be empty"
  | notBareName name => "service_name must be a bare name, got " ++ name.quoted
  | zeroCode comment => "pragma warning code must be non-zero (comment: " ++ comment.quoted ++ ")"

def isSeparator (c : Char) : Bool :=
  c = '/' || c = '\\' || c = '"'

/-- The first reason why a configuration is not valid. -/
def check (config : Config) : Except Invalid Unit :=
  if config.serviceName.trim = [] then .error .blankName
  else if config.serviceName.trim.any isSeparator then .error (.notBareName config.serviceName)
  else match config.warnings.find? fun warning => warning.code = 0 with
    | some warning => .error (.zeroCode warning.comment)
    | none => .ok ()

def describe (config : Config) : String :=
  let warning (w : Warning) : String :=
    s!"PragmaWarning \x7b code: {w.code.toNat}, comment: " ++ w.comment.quoted ++ " \x7d"
  "Config \x7b service_name: " ++ config.serviceName.quoted ++ ", pragma_warnings: [" ++
    ", ".intercalate (config.warnings.map warning) ++ "], log_level: " ++ config.level.title ++
    " \x7d"

end Config

end ProtoPrep
