import ProtoPrep.Text.Basic

/-!
# Files and directories

A tree of files and directories, given by the entries at lists of names; the root is
the current directory. A path is followed name by name. What lies outside the root
is unknown: a path that leaves it finds nothing there.

Reading and writing fail for the reasons listed as causes, the first one met on the
way. Writing creates a file or replaces its content; a failed write changes nothing.

A run may do with a tree or with the files of a machine: a storage is whatever texts can
be read from and written to under paths.
-/

namespace ProtoPrep.Files

inductive Cause where
  | nulInPath
  | notFound
  | notDirectory
  | isDirectory
  | nameTooLong
  | notUtf8
  /-- Any other cause, in the words of whoever reports it. -/
  | stated (message : Text)
deriving DecidableEq

def Cause.message : Cause → String
  | nulInPath => "file name contained an unexpected NUL byte"
  | notFound => "No such file or directory (os error 2)"
  | notDirectory => "Not a directory (os error 20)"
  | isDirectory => "Is a directory (os error 21)"
  | nameTooLong => "File name too long (os error 36)"
  | notUtf8 => "stream did not contain valid UTF-8"
  | stated message => String.ofList message

/-- What is found at a list of names. -/
inductive Entry where
  | directory
  | file (content : ByteArray)

/-- The entries below the current directory. -/
structure Tree where
  entries : List (List Text × Entry)

inductive Location where
  | inside (names : List Text)
  | outside
deriving DecidableEq

def maxName : Nat := 255

def maxPath : Nat := 4095

namespace Tree

def find? (tree : Tree) (names : List Text) : Option Entry :=
  if names = [] then some .directory
  else (tree.entries.find? fun entry => entry.1 = names).map Prod.snd

def put (tree : Tree) (names : List Text) (entry : Entry) : Tree :=
  if tree.entries.any fun old => old.1 = names then
    ⟨tree.entries.map fun old => if old.1 = names then (names, entry) else old⟩
  else ⟨tree.entries ++ [(names, entry)]⟩

/-- Follow the parts of a path from a directory. The last part may name an entry that is yet to be
made; if it is to be made, no slash may follow it. -/
def follow (tree : Tree) (make : Bool) : Location → List Text → Except Cause Location
  | here, [] => .ok here
  | here, part :: rest =>
    if part = [] ∨ part = ['.'] then follow tree make here rest
    else match here with
      | .outside => if part = ['.', '.'] then follow tree make .outside rest else .error .notFound
      | .inside names =>
        if part = ['.', '.'] then
          follow tree make (if names = [] then .outside else .inside names.dropLast) rest
        else if make ∧ rest ≠ [] ∧ rest.all List.isEmpty then .error .isDirectory
        else if maxName < Text.byteSize part then .error .nameTooLong
        else if rest = [] then .ok (.inside (names ++ [part]))
        else match tree.find? (names ++ [part]) with
          | none => .error .notFound
          | some (.file _) => .error .notDirectory
          | some .directory => follow tree make (.inside (names ++ [part])) rest

/-- Where a path leads. -/
def locate (tree : Tree) (make : Bool) (path : Text) : Except Cause Location :=
  if '\x00' ∈ path then .error .nulInPath
  else if path = [] then .error .notFound
  else if maxPath < path.byteSize then .error .nameTooLong
  else
    let start := if path.head? = some '/' then .outside else .inside []
    tree.follow make start (path.splitOn '/')

def read (tree : Tree) (path : Text) : Except Cause ByteArray := do
  match ← tree.locate false path with
  | .outside => .error .isDirectory
  | .inside names =>
    match tree.find? names with
    | none => .error .notFound
    | some .directory => .error .isDirectory
    | some (.file content) => .ok content

def write (tree : Tree) (path : Text) (content : ByteArray) : Except Cause Tree := do
  match ← tree.locate true path with
  | .outside => .error .isDirectory
  | .inside names =>
    match tree.find? names with
    | some .directory => .error .isDirectory
    | _ => .ok (tree.put names (.file content))

def readText (tree : Tree) (path : Text) : Except Cause Text := do
  match Text.decode? (← tree.read path) with
  | some t => .ok t
  | none => .error .notUtf8

def writeText (tree : Tree) (path t : Text) : Except Cause Tree :=
  tree.write path t.encode

end Tree

/-- What texts can be read from and written to. Reading changes nothing, and a write that fails
has changed nothing. -/
class Storage (σ : Type) where
  /-- The text under a path. -/
  readText (files : σ) (path : Text) : Except Cause Text
  /-- The storage after a text was written under a path. -/
  writeText (files : σ) (path t : Text) : Except Cause σ

instance : Storage Tree where
  readText := Tree.readText
  writeText := Tree.writeText

end ProtoPrep.Files
