import ProtoPrep.CommandLine
import Std.Time.Zoned

/-!
# The program

Carries out what the arguments ask for on the files of the machine. Under the name
of one of the three tools the program is that tool; under any other name it has the
subcommands.
-/

namespace ProtoPrep

def padded (width n : Nat) : String :=
  let digits := toString n
  String.ofList (List.replicate (width - digits.length) '0') ++ digits

def clock : IO String := do
  let now ← Std.Time.PlainTime.now
  return padded 2 now.hour.val.toNat ++ ":" ++ padded 2 now.minute.val.toNat ++ ":" ++
    padded 2 now.second.val.toNat ++ "." ++ padded 3 (now.nanosecond.val.toNat / 1000000)

def causeOf (error : IO.Error) : Files.Cause :=
  match error with
  | .noFileOrDirectory .. => .notFound
  | .inappropriateType _ code _ => if code = 20 then .notDirectory else .isDirectory
  | .invalidArgument _ code details =>
    if code = 36 then .nameTooLong else .stated (details ++ s!" (os error {code})").toList
  | .permissionDenied _ code details => .stated (details ++ s!" (os error {code})").toList
  | other => .stated (toString other).toList

def readText (path : Text) : IO (Except Files.Cause Text) := do
  if '\x00' ∈ path then return .error .nulInPath
  try
    match Text.decode? (← IO.FS.readBinFile (String.ofList path)) with
    | some t => return .ok t
    | none => return .error .notUtf8
  catch error => return .error (causeOf error)

def writeText (path t : Text) : IO (Except Files.Cause Unit) := do
  if '\x00' ∈ path then return .error .nulInPath
  try
    IO.FS.writeBinFile (String.ofList path) t.encode
    return .ok ()
  catch error => return .error (causeOf error)

def Script.perform {ε α : Type} (shown : Option Level) : Script ε α → IO (Except ε α)
  | done a => return .ok a
  | fail e => return .error e
  | read path next => do (next (← readText path)).perform shown
  | write path content next => do (next (← writeText path content)).perform shown
  | log record next => do
    if record.level.within shown then IO.eprint (record.line (← clock))
    next.perform shown
  | bound level next => next.perform (some level)

def usage : String :=
  "Usage:\n" ++
  "  ue4-proto-tools convert --input PATH --output PATH [--config PATH] [--log-level LEVEL]\n" ++
  "  ue4-proto-tools fix-includes --file PATH [--service NAME] [--config PATH] " ++
    "[--log-level LEVEL]\n" ++
  "  ue4-proto-tools fix-pragmas --file PATH [--config PATH] [--log-level LEVEL]\n" ++
  "  ue4-proto-tools completions bash|elvish|fish|powershell|zsh\n" ++
  "  ue4-proto-tools help [SUBCOMMAND]\n"

/-- The words that a shell completes, one a line. -/
def completions : String :=
  String.join (CommandLine.subcommands.map fun name => String.ofList name ++ "\n")

def Request.perform : Request → IO UInt32
  | refuse => do
    IO.eprint usage
    return 1
  | showHelp => do
    IO.print usage
    return 0
  | showVersion program => do
    IO.print (CommandLine.versionText program)
    return 0
  | showCompletions _ => do
    IO.print completions
    return 0
  | run invocation => do
    match ← invocation.script.perform none with
    | .ok () => return 0
    | .error failure =>
      IO.eprint failure.diagnostic
      return 1

def Program.ofName (name : String) : Program :=
  match [Tool.convert, .fixIncludes, .fixPragmas].find? fun tool => tool.name = name with
  | some tool => .single tool
  | none => .multi

end ProtoPrep

def main (args : List String) : IO UInt32 := do
  let name := (← IO.appPath).fileName.getD ""
  (ProtoPrep.CommandLine.read (.ofName name) (args.map String.toList)).perform
