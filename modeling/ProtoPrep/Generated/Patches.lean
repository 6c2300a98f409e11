import ProtoPrep.Text.Pattern

/-!
# Patches of generated sources

A pragma block stands at the beginning of a generated source and turns compiler
warnings off: a banner, one line for each warning, and an empty line. Putting a
block in front of a text takes no notice of a block that is already there.

Generated sources include the wrappers of a service under the names that the
generator gives them. The fix renames the two includes of one service; it leaves
every other include as it is.
-/

namespace ProtoPrep

structure Warning where
  code : UInt32
  comment : Text
deriving DecidableEq

namespace PragmaBlock

def banner : Text :=
  "// Extra pramas to fix compilation in UE4.  DO NOT EDIT!".toList

/-- The line of one warning. An empty comment is left out. -/
def line (warning : Warning) : Text :=
  "#pragma warning (disable : ".toList ++ Nat.toDigits 10 warning.code.toNat ++ [')'] ++
    if warning.comment = [] then [] else " // ".toList ++ warning.comment

def render (warnings : List Warning) : Text :=
  banner ++ ['\n'] ++ warnings.flatMap (fun warning => line warning ++ ['\n']) ++ ['\n']

def prepend (warnings : List Warning) (t : Text) : Text :=
  render warnings ++ t

end PragmaBlock

namespace WrapperInclude

def directive (service : Text) (ending : String) : Text :=
  "#include \"Wrappers/".toList ++ service ++ ['/'] ++ service ++ ['.'] ++ ending.toList ++ ['"']

/-- The directives to look for and what replaces them, message wrapper first. -/
def renamings (service : Text) : List (Text × Text) :=
  [(directive service "pb.hpp", directive service "pb.h"),
   (directive service "grpc.pb.hpp", directive service "grpc.pb.h")]

def fix (service t : Text) : Edit :=
  (renamings service).foldl
    (fun edit (lead, new) =>
      let next := Text.replace lead new edit.text
      ⟨next.text, edit.count + next.count⟩)
    ⟨t, 0⟩

end WrapperInclude

end ProtoPrep
