import ProtoPrep.Command

/-!
# The command line

There are three tools with one command each, and one program that holds all three
behind subcommands. Arguments are read from left to right, and the first that asks
for help or the version, or is not acceptable, decides.

A flag takes its value after an equals sign or from the next argument, which may not
begin with a dash unless it is a dash alone. No flag may be given twice, and there
are no positional arguments. The value of a flag is checked when the next flag comes
or the arguments end, or at once after an equals sign.
-/

namespace ProtoPrep

inductive Tool where
  | convert
  | fixIncludes
  | fixPragmas
deriving DecidableEq

namespace Tool

def name : Tool → String
  | convert => "convert-proto"
  | fixIncludes => "fix-includes"
  | fixPragmas => "fix-pragmas"

/-- The name of a tool as a subcommand. -/
def subcommand : Tool → String
  | convert => "convert"
  | fixIncludes => "fix-includes"
  | fixPragmas => "fix-pragmas"

end Tool

inductive Program where
  | single (tool : Tool)
  | multi
deriving DecidableEq

inductive Request where
  | refuse
  | showHelp
  | showVersion (program : String)
  | showCompletions (shell : Text)
  | run (invocation : Invocation)
deriving DecidableEq

namespace CommandLine

inductive Flag where
  | input
  | output
  | file
  | service
  | config
  | logLevel
deriving DecidableEq

def Flag.name : Flag → Text
  | input => "input".toList
  | output => "output".toList
  | file => "file".toList
  | service => "service".toList
  | config => "config".toList
  | logLevel => "log-level".toList

def Flag.accepts (flag : Flag) (value : Text) : Bool :=
  match flag with
  | config => !value.isEmpty
  | logLevel => (Level.ofName? value).isSome
  | _ => true

def flagsOf : Tool → List Flag
  | .convert => [.input, .output, .config, .logLevel]
  | .fixIncludes => [.file, .service, .config, .logLevel]
  | .fixPragmas => [.file, .config, .logLevel]

/-- The values of flags, as given so far, and a flag whose value is not yet checked or given. -/
structure Given where
  values : List (Flag × Text) := []
  pending : Option (Flag × Option Text) := none

namespace Given

def take (given : Given) (flag : Flag) (value : Text) : Option Given :=
  if given.values.any (fun v => v.1 = flag) || !flag.accepts value then none
  else some ⟨given.values ++ [(flag, value)], none⟩

def settle (given : Given) : Option Given :=
  match given.pending with
  | none => some given
  | some (_, none) => none
  | some (flag, some value) => given.take flag value

def value? (given : Given) (flag : Flag) : Option Text :=
  (given.values.find? fun v => v.1 = flag).map Prod.snd

def invocation (given : Given) (tool : Tool) : Invocation where
  command := match tool with
    | .convert => .convert (given.value? .input) (given.value? .output)
    | .fixIncludes => .fixIncludes (given.value? .file) (given.value? .service)
    | .fixPragmas => .fixPragmas (given.value? .file)
  config := given.value? .config
  level := (given.value? .logLevel).bind Level.ofName?

end Given

inductive Argument where
  /-- Two dashes: all that follows is positional. -/
  | separator
  /-- Two dashes, a name, and perhaps a value after an equals sign. -/
  | long (name : Text) (value : Option Text)
  /-- A dash and letters. -/
  | short (letters : Text)
  | plain (t : Text)
deriving DecidableEq

def Argument.ofText : Text → Argument
  | ['-', '-'] => separator
  | '-' :: '-' :: rest =>
    match rest.dropWhile (· ≠ '=') with
    | [] => long rest none
    | _ :: value => long (rest.takeWhile (· ≠ '=')) (some value)
  | '-' :: c :: rest => short (c :: rest)
  | t => plain t

inductive Display where
  | help
  | version

def Argument.display? : Argument → Option Display
  | long name none =>
    if name = "help".toList then some .help
    else if name = "version".toList then some .version
    else none
  | short ('h' :: _) => some .help
  | short ('V' :: _) => some .version
  | _ => none

/-- What the arguments of a tool ask for. `version` is what the version text calls the tool. -/
def readTool (tool : Tool) (version : String) (given : Given) : List Text → Request
  | [] =>
    match given.settle with
    | none => .refuse
    | some given => .run (given.invocation tool)
  | arg :: rest =>
    match Argument.ofText arg, given.pending with
    | .separator, _ =>
      match given.settle with
      | none => .refuse
      | some given => if rest = [] then .run (given.invocation tool) else .refuse
    | .plain value, some (flag, none) =>
      readTool tool version { given with pending := some (flag, some value) } rest
    | .plain _, _ => .refuse
    | argument, _ =>
      match given.settle with
      | none => .refuse
      | some given =>
        match argument.display? with
        | some .help => .showHelp
        | some .version => .showVersion version
        | none =>
          match argument with
          | .long name value =>
            match (flagsOf tool).find? (fun flag => flag.name = name), value with
            | none, _ => .refuse
            | some flag, none =>
              readTool tool version { given with pending := some (flag, none) } rest
            | some flag, some value =>
              match given.take flag value with
              | none => .refuse
              | some given => readTool tool version given rest
          | _ => .refuse

def shells : List Text :=
  ["bash", "elvish", "fish", "powershell", "zsh"].map String.toList

def readAfterShell (shell : Text) : List Text → Request
  | [] => if shell ∈ shells then .showCompletions shell else .refuse
  | [arg] =>
    match Argument.ofText arg with
    | .separator => if shell ∈ shells then .showCompletions shell else .refuse
    | argument =>
      match argument.display? with
      | some .help => if shell ∈ shells then .showHelp else .refuse
      | _ => .refuse
  | arg :: _ =>
    match (Argument.ofText arg).display? with
    | some .help => if shell ∈ shells then .showHelp else .refuse
    | _ => .refuse

def readCompletions : List Text → Request
  | [] => .refuse
  | arg :: rest =>
    match Argument.ofText arg with
    | .separator =>
      match rest with
      | [shell] => if shell ∈ shells then .showCompletions shell else .refuse
      | _ => .refuse
    | .plain shell => readAfterShell shell rest
    | argument =>
      match argument.display? with
      | some .help => .showHelp
      | _ => .refuse

def multiName : String :=
  "ue4-proto-tools"

def subcommands : List Text :=
  ["convert", "fix-includes", "fix-pragmas", "completions", "help"].map String.toList

def toolOf? (name : Text) : Option Tool :=
  [Tool.convert, .fixIncludes, .fixPragmas].find? fun tool => (tool.subcommand).toList = name

def readHelp : List Text → Request
  | [] => .showHelp
  | [name] => if name ∈ subcommands then .showHelp else .refuse
  | _ => .refuse

def readMulti : List Text → Request
  | [] => .refuse
  | arg :: rest =>
    match toolOf? arg with
    | some tool => readTool tool (multiName ++ "-" ++ tool.subcommand) {} rest
    | none =>
      if arg = "completions".toList then readCompletions rest
      else if arg = "help".toList then readHelp rest
      else match (Argument.ofText arg).display? with
        | some .help => .showHelp
        | some .version => .showVersion multiName
        | none => .refuse

def read : Program → List Text → Request
  | .single tool, args => readTool tool (tool.name) {} args
  | .multi, args => readMulti args

def version : String :=
  "1.0.0"

def versionText (program : String) : String :=
  program ++ " " ++ version ++ "\n"

end CommandLine

end ProtoPrep
