import ProtoPrep.Files.Tree
import ProtoPrep.Proofs.Text.Bytes

/-!
# File systems

A storage is a file system if a path leads to a file, for reading or for writing, or
to a cause why it does not, and if a file holds what was stored in it last. How paths
lead to files is left open: links, permissions and other directories are all possible.
Only one thing is asked of them, that a path leads where it did after a file that
exists was given another content. Trees are file systems.
-/

namespace ProtoPrep.Files

def textOf : Option ByteArray → Except Cause Text
  | none => .error .notFound
  | some bytes =>
    match Text.decode? bytes with
    | some t => .ok t
    | none => .error .notUtf8

/-- What lies behind the paths of a storage. -/
class FileSystem (σ : Type) extends Storage σ where
  /-- What tells files apart. A file may have many paths, and it may be yet to be made. -/
  File : Type
  /-- What a file holds, if it exists. -/
  content? (files : σ) (file : File) : Option ByteArray
  /-- The file that a path opens for reading. -/
  readable (files : σ) (path : Text) : Except Cause File
  /-- The file that a path opens for writing. -/
  writable (files : σ) (path : Text) : Except Cause File
  /-- The storage after a file was given a content. -/
  store (files : σ) (file : File) (bytes : ByteArray) : σ
  readText_eq (files : σ) (path : Text) : readText files path =
    (readable files path).bind fun file => textOf (content? files file)
  writeText_eq (files : σ) (path t : Text) : writeText files path t =
    (writable files path).map fun file => store files file t.encode
  content?_store_self (files : σ) (file : File) (bytes : ByteArray) :
    content? (store files file bytes) file = some bytes
  content?_store_other {files : σ} {file other : File} {bytes : ByteArray} : other ≠ file →
    content? (store files file bytes) other = content? files other
  readable_store {files : σ} {file : File} (bytes : ByteArray) (path : Text) :
    (content? files file).isSome → readable (store files file bytes) path = readable files path
  writable_store {files : σ} {file : File} (bytes : ByteArray) (path : Text) :
    (content? files file).isSome → writable (store files file bytes) path = writable files path

export FileSystem (File content? readable writable store)

section FileSystem

variable {σ : Type} [FileSystem σ] {files : σ} {path t : Text}

theorem textOf_eq_ok_iff {content : Option ByteArray} :
    textOf content = .ok t ↔ content = some t.encode := by
  cases content with
  | none => simp [textOf]
  | some bytes =>
    rw [Option.some.injEq, ← Text.decode?_eq_some_iff, textOf]
    cases Text.decode? bytes with
    | none => simp
    | some found => simp

/-- A path can be read as a text if it leads to a file that holds the UTF-8 form of the text. -/
theorem readText_eq_ok_iff : Storage.readText files path = .ok t ↔
    ∃ file, readable files path = .ok file ∧ content? files file = some t.encode := by
  rw [FileSystem.readText_eq]
  cases readable files path with
  | error cause => simp [Except.bind]
  | ok file => simp [Except.bind, textOf_eq_ok_iff]

/-- A path that leads elsewhere is read as before. -/
theorem readText_store {file : File σ} {bytes : ByteArray} (there : (content? files file).isSome)
    (apart : readable files path ≠ .ok file) :
    Storage.readText (store files file bytes) path = Storage.readText files path := by
  rw [FileSystem.readText_eq, FileSystem.readText_eq, FileSystem.readable_store bytes path there]
  cases opened : readable files path with
  | error cause => rfl
  | ok other =>
    have other_ne : other ≠ file := fun same => apart (same ▸ opened)
    simp only [Except.bind, FileSystem.content?_store_other other_ne]

/-- Two changes of files that differ in one file at most. Neither changes that file, and they leave
every other file with the same content. -/
structure SameChanges (file : File σ) (before after before' after' : σ) : Prop where
  others : ∀ other, other ≠ file → content? after other = content? after' other
  kept : content? after file = content? before file
  kept' : content? after' file = content? before' file

theorem SameChanges.refl {file : File σ} (bytes : ByteArray) :
    SameChanges file files files (store files file bytes) (store files file bytes) where
  others _ apart := (FileSystem.content?_store_other apart).symm
  kept := rfl
  kept' := rfl

/-- Storing in another file makes the same change, whatever the spared file holds. -/
theorem SameChanges.stores {file target : File σ} (apart : file ≠ target) (new bytes : ByteArray) :
    SameChanges file files (store files target new) (store files file bytes)
      (store (store files file bytes) target new) where
  others other other_ne := by
    by_cases here : other = target
    · subst here
      rw [FileSystem.content?_store_self, FileSystem.content?_store_self]
    · rw [FileSystem.content?_store_other here, FileSystem.content?_store_other here,
        FileSystem.content?_store_other other_ne]
  kept := FileSystem.content?_store_other apart
  kept' := FileSystem.content?_store_other apart

end FileSystem

def Entry.isDirectory : Entry → Bool
  | directory => true
  | file _ => false

namespace Tree

variable {tree : Tree} {names other : List Text} {entry : Entry}

theorem find?_replaced (entries : List (List Text × Entry)) :
    (entries.map fun old => if old.1 = names then (names, entry) else old).find?
        (fun old => decide (old.1 = other)) =
      (entries.find? fun old => decide (old.1 = other)).map fun old =>
        if old.1 = names then (names, entry) else old := by
  rw [List.find?_map]
  congr 2
  funext old
  by_cases here : old.1 = names
  · simp [here]
  · simp [here]

theorem find?_put_of_ne (apart : other ≠ names) :
    (tree.put names entry).find? other = tree.find? other := by
  by_cases root : other = []
  · rw [find?, find?, if_pos root, if_pos root]
  · rw [find?, find?, if_neg root, if_neg root, put]
    split
    · rw [find?_replaced, Option.map_map]
      cases found : tree.entries.find? fun old => decide (old.1 = other) with
      | none => rfl
      | some old =>
        have key : old.1 = other := by simpa using List.find?_some found
        simp [key, apart]
    · simp [Ne.symm apart]

theorem find?_put_self (below : names ≠ []) : (tree.put names entry).find? names = some entry := by
  rw [find?, if_neg below, put]
  split
  · rename_i taken
    obtain ⟨old, member, key⟩ := List.any_eq_true.mp taken
    rw [find?_replaced]
    cases found : tree.entries.find? fun old => decide (old.1 = names) with
    | none => exact absurd key (List.find?_eq_none.mp found old member)
    | some old =>
      have key : old.1 = names := by simpa using List.find?_some found
      simp [key]
  · rename_i free
    have none_here : (tree.entries.find? fun old => decide (old.1 = names)) = none := by
      rw [List.find?_eq_none]
      intro old member key
      exact free (List.any_eq_true.mpr ⟨old, member, key⟩)
    simp [none_here]

/-- Paths lead where they did if files stay files and directories stay directories. -/
theorem follow_congr {after : Tree} {make : Bool}
    (kinds : ∀ names, (after.find? names).map Entry.isDirectory =
      (tree.find? names).map Entry.isDirectory) (here : Location) (parts : List Text) :
    after.follow make here parts = tree.follow make here parts := by
  induction parts generalizing here with
  | nil => rfl
  | cons part rest ih =>
    cases here with
    | outside => simp only [follow, ih]
    | inside names =>
      have kind := kinds (names ++ [part])
      simp only [follow, ih]
      match found : after.find? (names ++ [part]), found' : tree.find? (names ++ [part]) with
      | none, none => rfl
      | some (.file _), some (.file _) => rfl
      | some .directory, some .directory => rfl
      | none, some _ => simp [found, found'] at kind
      | some _, none => simp [found, found'] at kind
      | some .directory, some (.file _) => simp [found, found', Entry.isDirectory] at kind
      | some (.file _), some .directory => simp [found, found', Entry.isDirectory] at kind

theorem locate_congr {after : Tree}
    (kinds : ∀ names, (after.find? names).map Entry.isDirectory =
      (tree.find? names).map Entry.isDirectory) (make : Bool) (path : Text) :
    after.locate make path = tree.locate make path := by
  rw [locate, locate]
  simp only [follow_congr kinds]

/-- The names of the file that a path opens. A path that is to be written may open a file that is
yet to be made. -/
def opened (tree : Tree) (make : Bool) (path : Text) :
    Except Cause { names : List Text // names ≠ [] } := do
  match ← tree.locate make path with
  | .outside => .error .isDirectory
  | .inside names =>
    if root : names = [] then .error .isDirectory
    else match (tree.find? names).map Entry.isDirectory with
      | some true => .error .isDirectory
      | some false => .ok ⟨names, root⟩
      | none => if make then .ok ⟨names, root⟩ else .error .notFound

def content? (tree : Tree) (names : List Text) : Option ByteArray :=
  match tree.find? names with
  | some (.file content) => some content
  | _ => none

theorem opened_congr {after : Tree}
    (kinds : ∀ names, (after.find? names).map Entry.isDirectory =
      (tree.find? names).map Entry.isDirectory) (make : Bool) (path : Text) :
    after.opened make path = tree.opened make path := by
  rw [opened, opened]
  simp only [locate_congr kinds, kinds]

theorem find?_of_content? {content : ByteArray} (h : tree.content? names = some content) :
    tree.find? names = some (.file content) := by
  rw [content?] at h
  split at h
  · rename_i found
    cases h
    exact found
  · cases h

theorem kinds_put {old : ByteArray} (bytes : ByteArray) (there : tree.content? names = some old)
    (other : List Text) : ((tree.put names (.file bytes)).find? other).map Entry.isDirectory =
      (tree.find? other).map Entry.isDirectory := by
  have found := find?_of_content? there
  by_cases here : other = names
  · subst here
    have below : other ≠ [] := by
      rintro rfl
      cases found
    rw [find?_put_self below, found]
    rfl
  · rw [find?_put_of_ne here]

theorem readText_eq (tree : Tree) (path : Text) : tree.readText path =
    (tree.opened false path).bind fun file => textOf (tree.content? file.1) := by
  rw [readText, read, opened]
  cases tree.locate false path with
  | error cause => rfl
  | ok place =>
    cases place with
    | outside => rfl
    | inside names =>
      by_cases root : names = []
      · subst root
        rfl
      · simp only [bind, Except.bind, dif_neg root]
        cases found : tree.find? names with
        | none => rfl
        | some entry =>
          cases entry with
          | directory => rfl
          | file content =>
            have held : tree.content? names = some content := by rw [content?, found]
            cases decoded : Text.decode? content with
            | none => simp [Entry.isDirectory, held, textOf, decoded]
            | some t => simp [Entry.isDirectory, held, textOf, decoded]

theorem writeText_eq (tree : Tree) (path t : Text) : tree.writeText path t =
    (tree.opened true path).map fun file => tree.put file.1 (.file t.encode) := by
  rw [writeText, write, opened]
  cases tree.locate true path with
  | error cause => rfl
  | ok place =>
    cases place with
    | outside => rfl
    | inside names =>
      by_cases root : names = []
      · subst root
        rfl
      · simp only [bind, Except.bind, dif_neg root]
        cases tree.find? names with
        | none => rfl
        | some entry =>
          cases entry with
          | directory => rfl
          | file content => rfl

instance : FileSystem Tree where
  File := { names : List Text // names ≠ [] }
  content? tree file := tree.content? file.1
  readable tree := tree.opened false
  writable tree := tree.opened true
  store tree file bytes := tree.put file.1 (.file bytes)
  readText_eq := readText_eq
  writeText_eq := writeText_eq
  content?_store_self tree file bytes := by
    simp only [content?, find?_put_self file.2]
  content?_store_other apart := by
    simp only [content?, find?_put_of_ne fun same => apart (Subtype.ext same)]
  readable_store bytes path there := by
    obtain ⟨old, there⟩ := Option.isSome_iff_exists.mp there
    exact opened_congr (kinds_put bytes there) false path
  writable_store bytes path there := by
    obtain ⟨old, there⟩ := Option.isSome_iff_exists.mp there
    exact opened_congr (kinds_put bytes there) true path

end Tree

end ProtoPrep.Files
