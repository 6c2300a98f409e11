import Mathlib.Data.List.Basic
import ProtoPrep.Text.Pattern

/-!
# Places in a text, counted in bytes

A place is the number of bytes before it. A text can be cut where a character begins
or where the text ends, and nowhere else; a slice from one place to another has its
bounds in this order. Bytes are read as a text only if they are its UTF-8 form.
-/

namespace ProtoPrep

/-- The bytes from `start` up to, not including, `stop`. -/
structure Extent where
  start : Nat
  stop : Nat
deriving DecidableEq

namespace Extent

def Covers (outer inner : Extent) : Prop :=
  outer.start ≤ inner.start ∧ inner.stop ≤ outer.stop

instance (outer inner : Extent) : Decidable (outer.Covers inner) :=
  inferInstanceAs (Decidable (_ ∧ _))

def Apart (first second : Extent) : Prop :=
  first.stop ≤ second.start ∨ second.stop ≤ first.start

def shift (n : Nat) (place : Extent) : Extent :=
  ⟨place.start + n, place.stop + n⟩

end Extent

namespace Text

def fromByte? : Nat → Text → Option Text
  | 0, t => some t
  | _ + 1, [] => none
  | n + 1, c :: rest => if c.utf8Size ≤ n + 1 then fromByte? (n + 1 - c.utf8Size) rest else none

/-- What stands between two places. -/
def slice? (t : Text) (start stop : Nat) : Option Text :=
  if start ≤ stop then
    (t.fromByte? start).bind fun tail => (t.fromByte? stop).map (before tail)
  else none

@[simp] theorem byteSize_nil : byteSize [] = 0 := rfl

theorem byteSize_pos {t : Text} (nonempty : t ≠ []) : 0 < t.byteSize := by
  cases t with
  | nil => exact absurd rfl nonempty
  | cons c rest =>
    have here := c.utf8Size_pos
    rw [byteSize]
    omega

/-- Each character left out takes one byte with it at least. -/
theorem byteSize_add_length_le {s t : Text} (h : s.Sublist t) :
    s.byteSize + t.length ≤ t.byteSize + s.length := by
  induction h with
  | slnil => exact Nat.le_refl _
  | cons c _ ih =>
    have here := c.utf8Size_pos
    rw [byteSize, List.length_cons]
    omega
  | cons_cons c _ ih =>
    rw [byteSize, byteSize, List.length_cons, List.length_cons]
    omega

theorem fromByte?_append (lead rest : Text) :
    (lead ++ rest).fromByte? lead.byteSize = some rest := by
  induction lead with
  | nil =>
    rw [List.nil_append, byteSize_nil]
    cases rest <;> rfl
  | cons c lead ih =>
    have here := c.utf8Size_pos
    obtain ⟨n, size⟩ : ∃ n, c.utf8Size + byteSize lead = n + 1 :=
      Nat.exists_eq_succ_of_ne_zero (by omega)
    rw [byteSize, size, List.cons_append, fromByte?, if_pos (by omega), ← ih]
    congr 1
    omega

/-- A text can be cut only between two characters. -/
theorem exists_lead_of_fromByte? {n : Nat} {t rest : Text} (h : t.fromByte? n = some rest) :
    ∃ lead, t = lead ++ rest ∧ n = lead.byteSize := by
  fun_induction fromByte? n t with
  | case1 t =>
    cases h
    exact ⟨[], rfl, rfl⟩
  | case2 => cases h
  | case3 n c t fits ih =>
    obtain ⟨lead, rfl, size⟩ := ih h
    refine ⟨c :: lead, rfl, ?_⟩
    rw [byteSize]
    omega
  | case4 => cases h

/-- Of two beginnings of a text, the one with fewer bytes begins the other. -/
theorem exists_between {s t u v : Text} (whole : s ++ t = u ++ v)
    (ordered : s.byteSize ≤ u.byteSize) : ∃ w, u = s ++ w ∧ t = w ++ v := by
  rcases List.append_eq_append_iff.mp whole with behind | ⟨w, rfl, rfl⟩
  · exact behind
  · by_cases nothing : w = []
    · exact ⟨[], by simp [nothing]⟩
    · have long := byteSize_pos nothing
      rw [byteSize_append] at ordered
      omega

/-- A place in bytes tells where a text is cut. -/
theorem eq_of_byteSize_eq {s t u v : Text} (whole : s ++ t = u ++ v)
    (same : s.byteSize = u.byteSize) : s = u ∧ t = v := by
  have behind := fromByte?_append s t
  rw [whole, same, fromByte?_append] at behind
  obtain rfl := Option.some.inj behind
  exact ⟨List.append_cancel_right whole, rfl⟩

theorem slice?_append (lead part rest : Text) :
    (lead ++ (part ++ rest)).slice? lead.byteSize (lead ++ part).byteSize = some part := by
  have tail := fromByte?_append lead (part ++ rest)
  have behind := fromByte?_append (lead ++ part) rest
  rw [List.append_assoc] at behind
  rw [slice?, if_pos (by rw [byteSize_append]; omega), tail, behind]
  simp

/-- The bytes that a text is read from are those that it is written as. -/
theorem decode?_eq_some_iff {bytes : ByteArray} {t : Text} :
    decode? bytes = some t ↔ bytes = t.encode := by
  constructor
  · intro h
    obtain ⟨s, read, rfl⟩ := Option.map_eq_some_iff.mp h
    rw [String.fromUTF8?] at read
    split at read
    · cases read
      rw [encode, String.ofList_toList]
      rfl
    · cases read
  · rintro rfl
    have utf8 : t.encode.IsValidUTF8 := (String.ofList t).isValidUTF8
    rw [decode?, String.fromUTF8?, dif_pos utf8]
    exact congrArg some String.toList_ofList

end Text

/-- The places of the matches of a text that begins at a place. -/
def Cuts.extents (offset : Nat) : Cuts → List Extent
  | last _ => []
  | hit gap span rest =>
    let start := offset + gap.byteSize
    let stop := start + span.byteSize
    ⟨start, stop⟩ :: rest.extents stop

end ProtoPrep
