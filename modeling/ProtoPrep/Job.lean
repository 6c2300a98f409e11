import ProtoPrep.Failure
import ProtoPrep.Generated.Patches
import ProtoPrep.Schema.Reduction
import ProtoPrep.Script

/-!
# Jobs on files

The three jobs read a file, change its text and write the result: to another file
when a schema is converted, to the same file when a generated source is patched. A
job that cannot read its file writes nothing.
-/

namespace ProtoPrep.Job

def read (path : Text) : Script Failure Text :=
  .read path fun answer => .ofExcept (answer.mapError (Failure.file path))

def write (path content : Text) : Script Failure Unit :=
  .write path content fun answer => .ofExcept (answer.mapError (Failure.file path))

def note (level : Level) (message : String) : Script Failure Unit :=
  .log ⟨level, message⟩ (.done ())

/-- Replace the text of a file by what an edit makes of it, and return what the edit found. -/
def edit {α : Type} (path : Text) (change : Text → Text × α) : Script Failure α := do
  let (content, found) := change (← read path)
  write path content
  return found

def convert (input output : Text) : Script Failure Report := do
  let reduction := reduce (← read input)
  Script.logAll reduction.records
  write output reduction.text
  note .info ("Converted " ++ input.quoted ++ " -> " ++ output.quoted)
  return reduction.report

def noteFixes (path service : Text) (count : Nat) : Script Failure Unit := do
  if count = 0 then
    note .debug ("No " ++ String.ofList service ++ " wrapper includes found in " ++ path.quoted)
  note .info (s!"Fixed {count} include(s) in " ++ path.quoted)

def fixIncludes (path service : Text) : Script Failure Nat := do
  let count ← edit path fun t =>
    let fixed := WrapperInclude.fix service t
    (fixed.text, fixed.count)
  noteFixes path service count
  return count

def addPragmas (path : Text) (warnings : List Warning) : Script Failure Unit := do
  edit path fun t => (PragmaBlock.prepend warnings t, ())
  note .info (s!"Injected {warnings.length} pragma(s) into " ++ path.quoted)

/-- The configuration in a file, or the default one if no file is given. -/
def loadConfig : Option Text → Script Failure Config
  | none => .done .default
  | some path => .read path fun
    | .error cause => .fail (.config (.unreadable path cause))
    | .ok t => .ofExcept ((Config.load t).mapError Failure.config)

end ProtoPrep.Job
