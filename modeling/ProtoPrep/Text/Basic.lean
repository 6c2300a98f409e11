/-!
# Text

A text is the list of its characters. Its size in bytes is the size of its UTF-8
form, and `encode` and `decode?` pass between the two.
-/

namespace ProtoPrep

/-- Text that is read, cut or written. -/
abbrev Text := List Char

namespace Text

def byteSize : Text → Nat
  | [] => 0
  | c :: rest => c.utf8Size + byteSize rest

def encode (t : Text) : ByteArray :=
  (String.ofList t).toUTF8

/-- The text whose UTF-8 form is given, if there is one. -/
def decode? (bytes : ByteArray) : Option Text :=
  (String.fromUTF8? bytes).map String.toList

theorem byteSize_append (s t : Text) : byteSize (s ++ t) = byteSize s + byteSize t := by
  induction s with
  | nil => simp [byteSize]
  | cons c rest ih => simp only [List.cons_append, byteSize, ih, Nat.add_assoc]

/-- Lines, cut at line feeds. A carriage return stays on its line, and a text that ends in a
line feed ends in an empty line. -/
def lines (t : Text) : List Text :=
  t.splitOn '\n'

/-- Lines joined by line feeds. -/
def unlines (ls : List Text) : Text :=
  ['\n'].intercalate ls

/-- Whether a text occurs in another. The empty text occurs everywhere. -/
def occursIn (lead : Text) : Text → Bool
  | [] => lead.isEmpty
  | c :: rest => lead.isPrefixOf (c :: rest) || occursIn lead rest

theorem occursIn_iff (lead t : Text) : occursIn lead t = true ↔ lead <:+: t := by
  induction t with
  | nil => simp [occursIn]
  | cons c rest ih =>
    simp [occursIn, ih, List.infix_cons_iff, List.isPrefixOf_iff_prefix]

/-- What follows `lead` in a text that begins with it. -/
def after? : Text → Text → Option Text
  | [], t => some t
  | _ :: _, [] => none
  | c :: lead, d :: rest => if c = d then after? lead rest else none

theorem after?_eq_some_iff {lead t rest : Text} :
    after? lead t = some rest ↔ lead ++ rest = t := by
  fun_induction after? lead t with
  | case1 t => simp [eq_comm]
  | case2 => simp
  | case3 c lead r ih => simpa using ih
  | case4 c lead d r h => simp [h]

/-- What remains of `t` before its ending `rest`. -/
def before (t rest : Text) : Text :=
  t.take (t.length - rest.length)

@[simp] theorem before_self_append (lead rest : Text) : before (lead ++ rest) rest = lead := by
  simp [before]

theorem before_append {t rest : Text} (h : rest <:+ t) : before t rest ++ rest = t := by
  obtain ⟨lead, rfl⟩ := h
  simp [before]

theorem before_ne_nil {t rest : Text} (h : rest <:+ t) (shorter : rest.length < t.length) :
    before t rest ≠ [] := by
  obtain ⟨lead, rfl⟩ := h
  rw [List.length_append] at shorter
  simp only [before, List.length_append, Nat.add_sub_cancel, List.take_left']
  rintro rfl
  simp at shorter

end Text

end ProtoPrep
