import ProtoPrep.Log
import ProtoPrep.Schema.ImportStatement
import ProtoPrep.Text.Pattern

/-!
# Substitution rules

A rule replaces every match of what it looks for by a fixed text, which is inserted
as it stands. Rules of a list are applied in order, so a later rule sees what the
earlier ones wrote. The three tables replace the imports of well-known files by
definitions, drop all imports that are left, and shorten qualified type names.
-/

namespace ProtoPrep

inductive Matcher where
  | literal (t : Text)
  | importStatement
deriving DecidableEq

structure Rule where
  name : String
  matcher : Matcher
  replacement : Text
deriving DecidableEq

/-- The outcome of several rules, each with the number of its replacements. -/
structure Pass where
  text : Text
  counts : List (Rule × Nat)

namespace Pass

def total (pass : Pass) : Nat :=
  pass.counts.foldr (fun (_, count) sum => count + sum) 0

/-- The log of a pass: the rules that replaced something. -/
def records (pass : Pass) : List Record :=
  (pass.counts.filter fun (_, count) => count ≠ 0).map fun (rule, count) =>
    ⟨.debug, s!"Rule '{rule.name}' replaced {count} occurrence(s)"⟩

end Pass

namespace Rule

def apply (rule : Rule) (t : Text) : Edit :=
  match rule.matcher with
  | .literal lead => Text.replace lead rule.replacement t
  | .importStatement => Pattern.importStatement.replace rule.replacement t

def applyInOrder : List Rule → Text → Pass
  | [], t => ⟨t, []⟩
  | rule :: rules, t =>
    let edit := rule.apply t
    let rest := applyInOrder rules edit.text
    ⟨rest.text, (rule, edit.count) :: rest.counts⟩

def timestampDefinition : Text :=
  Text.unlines <| List.map String.toList
    ["",
     "message Timestamp \x7b",
     "  int64 seconds = 1;",
     "  int32 nanos = 2;",
     "\x7d",
     ""]

def structDefinitions : Text :=
  Text.unlines <| List.map String.toList
    ["",
     "message Struct \x7b",
     "  map<string, Value> fields = 1;",
     "\x7d",
     "",
     "message Value \x7b",
     "  oneof kind \x7b",
     "    NullValue null_value = 1;",
     "    double number_value = 2;",
     "    string string_value = 3;",
     "    bool bool_value = 4;",
     "    Struct struct_value = 5;",
     "    ListValue list_value = 6;",
     "  \x7d",
     "\x7d",
     "",
     "enum NullValue \x7b",
     "  NULL_VALUE = 0;",
     "\x7d",
     "",
     "message ListValue \x7b",
     "  repeated Value values = 1;",
     "\x7d",
     ""]

def inlineImports : List Rule :=
  [⟨"inline struct.proto", .literal "import \"google/protobuf/struct.proto\";".toList,
      structDefinitions⟩,
   ⟨"inline timestamp.proto", .literal "import \"google/protobuf/timestamp.proto\";".toList,
      timestampDefinition⟩]

def stripImports : Rule :=
  ⟨"strip imports", .importStatement, []⟩

/-- Shorten the qualified name of one type to its last part. -/
def rename (type : String) : Rule :=
  ⟨"rename " ++ type, .literal ("google.protobuf.".toList ++ type.toList), type.toList⟩

/-- Shorten the names of the types that are defined in place. -/
def renameTypes : List Rule :=
  ["Struct", "Value", "Timestamp", "ListValue", "NullValue"].map rename

def all : List Rule :=
  inlineImports ++ stripImports :: renameTypes

def ofName? (name : String) : Option Rule :=
  all.find? fun rule => rule.name = name

end Rule

end ProtoPrep
