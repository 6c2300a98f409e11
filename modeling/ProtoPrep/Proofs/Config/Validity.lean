import Mathlib.Data.List.TakeWhile
import ProtoPrep.Config.Basic

/-!
# Valid configurations

Trimming takes only blanks away, and a separator is not blank. So the check of the
trimmed name is a check of the name itself, and the check of a configuration is a
statement about all its characters and codes.
-/

namespace ProtoPrep

theorem Text.mem_dropBlanks {t : Text} {c : Char} (member : c ∈ t) (solid : isBlank c = false) :
    c ∈ t.dropBlanks := by
  rw [← List.takeWhile_append_dropWhile (p := isBlank) (l := t)] at member
  obtain blank | member := List.mem_append.mp member
  · rw [List.mem_takeWhile_imp blank] at solid
    cases solid
  · exact member

/-- Trimming takes nothing but blanks away. -/
theorem Text.mem_trim_iff {t : Text} {c : Char} (solid : isBlank c = false) :
    c ∈ t.trim ↔ c ∈ t := by
  constructor
  · intro member
    have inner := (List.dropWhile_suffix isBlank).subset (List.mem_reverse.mp member)
    exact (List.dropWhile_suffix isBlank).subset (List.mem_reverse.mp inner)
  · intro member
    exact List.mem_reverse.mpr
      (mem_dropBlanks (List.mem_reverse.mpr (mem_dropBlanks member solid)) solid)

theorem Text.trim_eq_nil_iff {t : Text} : t.trim = [] ↔ ∀ c ∈ t, isBlank c = true := by
  constructor
  · intro empty c member
    by_contra solid
    rw [Bool.not_eq_true] at solid
    have inside := (mem_trim_iff solid).mpr member
    rw [empty] at inside
    cases inside
  · intro blank
    have none : t.dropBlanks = [] := List.dropWhile_eq_nil_iff.mpr blank
    rw [Text.trim, none]
    rfl

namespace Config

/-- The name is a bare name and every warning has a code. -/
structure IsValid (config : Config) : Prop where
  named : ∃ c ∈ config.serviceName, isBlank c = false
  bare : ∀ c ∈ config.serviceName, c ≠ '/' ∧ c ≠ '\\' ∧ c ≠ '"'
  coded : ∀ warning ∈ config.warnings, 1 ≤ warning.code.toNat ∧ warning.code.toNat ≤ 4294967295

/-- A separator is not blank, so it is found whether or not the name is trimmed. -/
theorem any_isSeparator_iff {t : Text} :
    t.trim.any isSeparator = false ↔ ∀ c ∈ t, c ≠ '/' ∧ c ≠ '\\' ∧ c ≠ '"' := by
  have separators : ∀ {c : Char}, isSeparator c = false ↔ c ≠ '/' ∧ c ≠ '\\' ∧ c ≠ '"' := by
    intro c
    simp [isSeparator, and_assoc]
  have solid : ∀ {c : Char}, isSeparator c = true → isBlank c = false := by
    intro c h
    have separator : c = '/' ∨ c = '\\' ∨ c = '"' := by simpa [isSeparator, or_assoc] using h
    obtain rfl | rfl | rfl := separator <;> decide
  rw [List.any_eq_false]
  constructor
  · intro h c member
    refine separators.mp ?_
    by_contra separator
    rw [Bool.not_eq_false] at separator
    exact h c ((Text.mem_trim_iff (solid separator)).mpr member) separator
  · intro h c member separator
    have same := separators.mpr (h c ((Text.mem_trim_iff (solid separator)).mp member))
    rw [separator] at same
    cases same

theorem code_ne_zero_iff {code : UInt32} :
    code ≠ 0 ↔ 1 ≤ code.toNat ∧ code.toNat ≤ 4294967295 := by
  have bound := code.toNat_lt
  rw [ne_eq, ← UInt32.toNat_inj, UInt32.toNat_zero]
  omega

/-- The check accepts exactly the valid configurations. -/
theorem check_eq_ok_iff {config : Config} : config.check = .ok () ↔ config.IsValid := by
  have named : config.serviceName.trim ≠ [] ↔ ∃ c ∈ config.serviceName, isBlank c = false := by
    simp [Text.trim_eq_nil_iff]
  have coded : (config.warnings.find? fun warning => warning.code = 0) = none ↔
      ∀ warning ∈ config.warnings, 1 ≤ warning.code.toNat ∧
        warning.code.toNat ≤ 4294967295 := by
    simp only [List.find?_eq_none, decide_eq_true_eq, ← ne_eq, code_ne_zero_iff]
  constructor
  · intro h
    rw [check] at h
    split at h
    · cases h
    · rename_i notBlank
      split at h
      · cases h
      · rename_i bare
        split at h
        · cases h
        · rename_i none
          exact ⟨named.mp notBlank, any_isSeparator_iff.mp (Bool.not_eq_true _ ▸ bare),
            coded.mp none⟩
  · rintro ⟨notBlank, bare, codes⟩
    rw [check, if_neg (named.mpr notBlank), any_isSeparator_iff.mpr bare, if_neg (by decide),
      coded.mpr codes]

end Config

end ProtoPrep
