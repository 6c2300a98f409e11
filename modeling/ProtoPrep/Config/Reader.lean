import ProtoPrep.Config.Basic
import ProtoPrep.Generated.Patches
import ProtoPrep.Json.Fields
import ProtoPrep.Log

/-!
# Configurations in JSON

A level is written as its name, or as an object with the name as its only key and
null as the value. A warning is a record with a code, which it must have, and perhaps
a comment. A configuration is a record of which every field may be left out, and
nothing but white space may stand around it.
-/

namespace ProtoPrep.Level

open Json

def readName (t : Text) : Except Stop (Level × Text) :=
  match readString t with
  | .error stop => .error stop
  | .ok (name, rest) =>
    match ofName? name with
    | some level => .ok (level, rest)
    | none => stopAt (.unknownVariant name (all.map Level.name)) rest

/-- The end of an object that has one member only. -/
def closeSingle (t : Text) : Except Stop Text :=
  match skipSpace t with
  | [] => stopAt .endInObject []
  | c :: rest => if c = '\x7d' then .ok rest else stopAt .valueExpected (c :: rest)

def readKey (t : Text) : Except Stop (Level × Text) :=
  match skipSpace t with
  | [] => stopAt .endInObject []
  | c :: rest =>
    if c = '"' then do
      let (level, rest) ← readName rest
      let rest ← readColon rest
      let ((), rest) ← Reader.unit.read rest
      let rest ← closeSingle rest
      return (level, rest)
    else stopIn (if c = '\x7d' then .valueExpected else .keyExpected) (c :: rest)

theorem readName_shorter {t rest : Text} {level : Level} (h : readName t = .ok (level, rest)) :
    rest.length < t.length := by
  simp only [readName] at h
  split at h
  · cases h
  · rename_i name after hn
    split at h
    · cases h
      exact readString_shorter hn
    · cases h

theorem closeSingle_shorter {t rest : Text} (h : closeSingle t = .ok rest) :
    rest.length < t.length := by
  simp only [closeSingle] at h
  have bound := skipSpace_length_le t
  split at h
  · cases h
  · rename_i c r hs
    rw [hs] at bound
    split at h
    · cases h
      exact bound
    · cases h

theorem readKey_shorter {t rest : Text} {level : Level} (h : readKey t = .ok (level, rest)) :
    rest.length < t.length := by
  simp only [readKey] at h
  have bound := skipSpace_length_le t
  split at h
  · cases h
  · rename_i c r hs
    rw [hs, List.length_cons] at bound
    split at h
    · obtain ⟨⟨name, afterName⟩, hn, h⟩ := ok_of_bind h
      obtain ⟨afterColon, hc, h⟩ := ok_of_bind h
      obtain ⟨⟨⟨⟩, afterNull⟩, hu, h⟩ := ok_of_bind h
      obtain ⟨last, hd, h⟩ := ok_of_bind h
      cases h
      have := readName_shorter hn
      have : afterColon.length < afterName.length := readColon_shorter hc
      have := Reader.unit.shorter hu
      have : rest.length < afterNull.length := closeSingle_shorter hd
      omega
    · cases h

def reader : Reader Level :=
  .ofToken (fun c rest =>
      if c = '"' then readName rest
      else if c = '\x7b' then readKey rest
      else stopIn .valueExpected (c :: rest)) <| by
    intro c t a rest h
    split at h
    · exact Nat.le_of_lt (readName_shorter h)
    · split at h
      · exact Nat.le_of_lt (readKey_shorter h)
      · cases h

end ProtoPrep.Level

namespace ProtoPrep.Warning

open Json

structure Draft where
  code : Option UInt32 := none
  comment : Option Text := none

def fields : List (Json.Field Draft) :=
  [⟨"code", fun draft => draft.code.isSome,
    fun draft => Reader.code.map fun value => { draft with code := some value }⟩,
   ⟨"comment", fun draft => draft.comment.isSome,
    fun draft => Reader.string.map fun value => { draft with comment := some value }⟩]

/-- The warning of some parts, with no comment if there is none. -/
def Draft.warning (missing : Fault) (draft : Draft) : Except Fault Warning :=
  match draft.code with
  | some value => .ok ⟨value, draft.comment.getD []⟩
  | none => .error missing

def reader : Reader Warning :=
  .record "struct PragmaWarning" fields {}
    (Draft.warning (.wrongLength 0 "struct PragmaWarning with 2 elements"))
    (Draft.warning (.missingField "code"))

end ProtoPrep.Warning

namespace ProtoPrep.Config

open Json

structure Draft where
  serviceName : Option Text := none
  warnings : Option (List Warning) := none
  level : Option Level := none

/-- The configuration of some parts, with the defaults for the others. -/
def Draft.config (draft : Draft) : Config :=
  ⟨draft.serviceName.getD defaultServiceName, draft.warnings.getD defaultWarnings,
    draft.level.getD defaultLevel⟩

def fields : List (Json.Field Draft) :=
  [⟨"service_name", fun draft => draft.serviceName.isSome,
    fun draft => Reader.string.map fun value => { draft with serviceName := some value }⟩,
   ⟨"pragma_warnings", fun draft => draft.warnings.isSome,
    fun draft => (Reader.list Warning.reader).map fun value =>
      { draft with warnings := some value }⟩,
   ⟨"log_level", fun draft => draft.level.isSome,
    fun draft => Level.reader.map fun value => { draft with level := some value }⟩]

def reader : Reader Draft :=
  .record "struct Config" fields {} .ok .ok

def parse (t : Text) : Except Stop Config := do
  let (draft, rest) ← reader.read t
  match skipSpace rest with
  | [] => return draft.config
  | c :: rest => stopIn .trailingCharacters (c :: rest)

end ProtoPrep.Config
