import ProtoPrep.Proofs.Config.Spelling

/-!
# Writing configurations

A configuration is written as the list of its three parts, and a warning as the list of
its two. Every name and every comment has a literal, so every configuration has a
written form that is parsed as it.
-/

namespace ProtoPrep

open Json

namespace Json

def escaped (c : Char) : Text :=
  if c = '"' ∨ c = '\\' then ['\\', c]
  else if c.toNat < 0x20 then '\\' :: 'u' :: hexDigits c.toNat
  else [c]

def literal (t : Text) : Text :=
  '"' :: (t.flatMap escaped ++ ['"'])

/-- What is left of a list that still has these items. -/
def listRest : Bool → List Text → Text
  | _, [] => [']']
  | true, v :: vs => v ++ listRest false vs
  | false, v :: vs => ',' :: (v ++ listRest false vs)

def list (vs : List Text) : Text :=
  '[' :: listRest true vs

theorem written_escaped (t : Text) : Written Escape t (t.flatMap escaped) := by
  have controls : ∀ n < 0x20, (hexDigits n).map Char.toLower = hexDigits n := by decide
  induction t with
  | nil => exact .nil
  | cons c t ih =>
    rw [List.flatMap_cons, escaped]
    split
    · rename_i marked
      have self : (c, c) ∈ letters := by
        rcases marked with rfl | rfl
        · simp [letters]
        · simp [letters]
      exact .escaped (.letter self) ih
    · rename_i plain
      rw [not_or] at plain
      split
      · rename_i control
        have small : c.toNat < 65536 := by omega
        exact .escaped (.number ⟨small, controls _ control⟩) ih
      · rename_i visible
        exact .plain plain.1 plain.2 (by omega) ih

theorem quoted_literal (t : Text) : Quoted t (literal t) :=
  ⟨_, written_escaped t, rfl⟩

theorem items_listRest {ι : Type} {item : ι → Text → Prop} {is : List ι} {vs : List Text}
    (spelled : List.Forall₂ item is vs) (first : Bool) :
    Items item ']' first is (listRest first vs) := by
  induction spelled generalizing first with
  | nil => cases first <;> exact .closed .nil
  | cons spells _ ih =>
    cases first with
    | true => exact .item (.first .nil) spells (ih false)
    | false => exact .item (.later .nil .nil) spells (ih false)

end Json

def Level.render (level : Level) : Text :=
  literal level.name.toList

def Warning.render (warning : Warning) : Text :=
  list [Nat.toDigits 10 warning.code.toNat, literal warning.comment]

namespace Config

def render (config : Config) : Text :=
  list [literal config.serviceName, list (config.warnings.map Warning.render), config.level.render]

end Config

theorem Warning.spells_render (warning : Warning) : warning.Spells warning.render := by
  refine ⟨⟨some warning.code, some warning.comment⟩, ?_, rfl, rfl⟩
  refine .list (items_listRest (List.forall₂_same.mpr fun _ _ => rfl) true) le_rfl ⟨?_, ?_⟩
  · exact .cons rfl .nil
  · exact .cons (quoted_literal warning.comment) .nil

/-- Every configuration has a spelling. -/
theorem Config.spells_render (config : Config) : config.Spells config.render := by
  have warnings :
      Listed Warning.Spells config.warnings (list (config.warnings.map Warning.render)) :=
    ⟨_, rfl, items_listRest (List.forall₂_map_right_iff.mpr
      (List.forall₂_same.mpr fun warning _ => warning.spells_render)) true⟩
  refine ⟨⟨some config.serviceName, some config.warnings, some config.level⟩, [], config.render, [],
    .nil, ?_, .nil, by simp, rfl⟩
  refine .list (items_listRest (List.forall₂_same.mpr fun _ _ => rfl) true) le_rfl ⟨?_, ?_, ?_⟩
  · exact .cons (quoted_literal config.serviceName) .nil
  · exact .cons warnings .nil
  · exact .cons (.name (quoted_literal _)) .nil

end ProtoPrep
