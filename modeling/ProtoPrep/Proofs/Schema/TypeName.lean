import ProtoPrep.Proofs.Schema.RuleExchange

/-!
# Names of well-known types

A full name is shortened by taking the name of the package away. That can complete the
full name of another type, or of the same one, but only where the package stood twice, or
where the name of a list or a null was put together from two parts. In a text without the
first no full name is left; in a text without the second the order of the rules does not
matter.
-/

namespace ProtoPrep.TypeName

open scoped List
open Rule Text

def package : Text :=
  "google.protobuf.".toList

def wellKnown : List String :=
  ["Struct", "Value", "Timestamp", "ListValue", "NullValue"]

def qualified (type : String) : Text :=
  package ++ type.toList

variable {type other : String} {t rest u : Text}

theorem qualified_ne_nil (type : String) : qualified type ≠ [] :=
  rename_lead_ne_nil type

/-- The package does not begin in the name of a type. -/
theorem unbegun_type (known : type ∈ wellKnown) (rest : Text) :
    Unbegun (package ++ rest) type.toList := by
  have foreign : ∀ type ∈ wellKnown, 'g' ∉ type.toList := by decide
  exact unbegun_of_not_mem (foreign type known)

theorem type_ne_nil : ∀ type ∈ wellKnown, type.toList ≠ [] := by
  decide

/-- No full name overlaps another one: each begins with the package, which stands nowhere inside. -/
theorem clear_qualified : ∀ type ∈ wellKnown, ∀ other ∈ wellKnown, type ≠ other →
    Clear (qualified type) (qualified other) := by
  decide

/-- Of a full name a shortened one can make only the end, and that only as a whole. -/
theorem tails_qualified : ∀ type ∈ wellKnown, ∀ other ∈ wellKnown,
    ∀ v ∈ (qualified other).tails, v ≠ [] → (v <+: type.toList ∨ type.toList <+: v) →
      v = type.toList ∧ type.toList <:+ other.toList := by
  decide

/-- Only a type whose name ends in that of another type can be completed, and then behind the
package. -/
theorem exists_of_completed (known : type ∈ wellKnown) (known' : other ∈ wellKnown)
    (h : Completed type.toList (qualified other) u) :
    ∃ first, other.toList = first ++ type.toList ∧ u = package ++ first := by
  obtain ⟨v, whole, solid, agrees⟩ := h
  have ending : v ∈ (qualified other).tails := (List.mem_tails _ _).mpr ⟨u, whole.symm⟩
  obtain ⟨rfl, first, split⟩ := tails_qualified type known other known' v ending solid agrees
  refine ⟨first, split.symm, ?_⟩
  rw [qualified, ← split, ← List.append_assoc] at whole
  exact (List.append_cancel_right whole).symm

/-- A full name that stands somewhere after a rule stood there before and is that of another type,
or it was completed behind a package and the beginning of its name. -/
theorem qualified_of_prefix_rename (known : type ∈ wellKnown) (known' : other ∈ wellKnown)
    (h : qualified other <+: ((rename type).apply t).text) :
    (type ≠ other ∧ qualified other <+: t) ∨
      ∃ first, other.toList = first ++ type.toList ∧
        package ++ (first ++ qualified type) <+: t := by
  have completed (u : Text) (h : Completed type.toList (qualified other) u)
      (stood : u ++ qualified type <+: t) : ∃ first, other.toList = first ++ type.toList ∧
        package ++ (first ++ qualified type) <+: t := by
    obtain ⟨first, split, rfl⟩ := exists_of_completed known known' h
    exact ⟨first, split, by rwa [List.append_assoc] at stood⟩
  by_cases same : type = other
  · subst same
    obtain ⟨u, made, stood⟩ := completed_of_prefix_replace (qualified_ne_nil type)
      (unbegun_type known type.toList) (type_ne_nil type known) h
    exact Or.inr (completed u made stood)
  · rcases prefix_of_replace (qualified_ne_nil type) h with stood | ⟨u, made, stood⟩
    · exact Or.inl ⟨same, stood⟩
    · exact Or.inr (completed u made stood)

theorem qualified_of_infix_rename (known : type ∈ wellKnown) (known' : other ∈ wellKnown)
    (h : qualified other <:+: ((rename type).apply t).text) :
    (type ≠ other ∧ qualified other <:+: t) ∨
      ∃ first, other.toList = first ++ type.toList ∧
        package ++ (first ++ qualified type) <:+: t := by
  obtain ⟨s, ends, begins⟩ :=
    exists_suffix_of_replace (qualified_ne_nil type) (unbegun_type known other.toList) h
  rcases qualified_of_prefix_rename known known' begins with ⟨differ, stood⟩ | ⟨first, split, stood⟩
  · exact Or.inl ⟨differ, stood.isInfix.trans ends.isInfix⟩
  · exact Or.inr ⟨first, split, stood.isInfix.trans ends.isInfix⟩

/-- A text behind a package that no name of a type can complete does not come up. -/
theorem not_infix_rename (known : type ∈ wellKnown)
    (incomplete : ∀ v ∈ (package ++ rest).tails, v ≠ [] →
      ¬ (v <+: type.toList ∨ type.toList <+: v))
    (absent : ¬ package ++ rest <:+: t) :
    ¬ package ++ rest <:+: ((rename type).apply t).text := by
  intro stands
  obtain ⟨s, ends, begins⟩ :=
    exists_suffix_of_replace (qualified_ne_nil type) (unbegun_type known rest) stands
  rcases prefix_of_replace (qualified_ne_nil type) begins with
    stood | ⟨u, ⟨v, whole, solid, agrees⟩, _⟩
  · exact absent (stood.isInfix.trans ends.isInfix)
  · exact incomplete v ((List.mem_tails _ _).mpr ⟨u, whole.symm⟩) solid agrees

/-- A package that would stand twice afterwards did so before. -/
theorem not_doubled_rename (known : type ∈ wellKnown) (absent : ¬ package ++ package <:+: t) :
    ¬ package ++ package <:+: ((rename type).apply t).text := by
  have table : ∀ type ∈ wellKnown, ∀ v ∈ (package ++ package).tails, v ≠ [] →
      ¬ (v <+: type.toList ∨ type.toList <+: v) := by
    decide
  exact not_infix_rename known (table type known) absent

/-- A name that no rule of a list can complete does not come up. -/
theorem not_qualified_applyInOrder {types : List String} (known : ∀ type ∈ types, type ∈ wellKnown)
    (known' : other ∈ wellKnown) (apart : ∀ type ∈ types, ¬ type.toList <:+ other.toList)
    (absent : ¬ qualified other <:+: t) :
    ¬ qualified other <:+: (applyInOrder (types.map rename) t).text := by
  induction types generalizing t with
  | nil => exact absent
  | cons type types ih =>
    obtain ⟨here, later⟩ := List.forall_mem_cons.mp known
    obtain ⟨incomplete, apart⟩ := List.forall_mem_cons.mp apart
    refine ih later apart ?_
    intro stands
    rcases qualified_of_infix_rename here known' stands with ⟨_, stood⟩ | ⟨first, split, _⟩
    · exact absent stood
    · exact incomplete ⟨first, split.symm⟩

/-- Names of types are gone after their rules if no later name ends an earlier one. -/
theorem not_qualified_of_pairwise {types : List String} (known : ∀ type ∈ types, type ∈ wellKnown)
    (ordered : types.Pairwise fun type later => ¬ later.toList <:+ type.toList)
    (unnested : ¬ package ++ package <:+: t) :
    ∀ type ∈ types, ¬ qualified type <:+: (applyInOrder (types.map rename) t).text := by
  induction types generalizing t with
  | nil => exact fun _ member => nomatch member
  | cons type types ih =>
    obtain ⟨here, later⟩ := List.forall_mem_cons.mp known
    obtain ⟨apart, ordered⟩ := List.pairwise_cons.mp ordered
    have gone : ¬ qualified type <:+: ((rename type).apply t).text := by
      intro stands
      rcases qualified_of_infix_rename here here stands with ⟨differ, _⟩ | ⟨first, split, stood⟩
      · exact differ rfl
      -- It was completed behind nothing but the package, so the package stood twice.
      · obtain rfl : first = [] := List.append_left_eq_self.mp split.symm
        refine unnested (List.IsInfix.trans ?_ stood)
        exact ⟨[], type.toList, by simp [qualified]⟩
    have kept := not_qualified_applyInOrder later here apart gone
    exact List.forall_mem_cons.mpr ⟨kept, ih later ordered (not_doubled_rename here unnested)⟩

/-- In a text that does not name the package twice in a row no full name is left, so a second pass
changes nothing. Every replacement takes the package away. -/
theorem renameTypes_complete (t : Text) :
    let pass := applyInOrder renameTypes t
    (¬ package ++ package <:+: t →
      (∀ type ∈ wellKnown, ¬ qualified type <:+: pass.text) ∧
        (applyInOrder renameTypes pass.text).text = pass.text ∧
        (applyInOrder renameTypes pass.text).total = 0) ∧
      pass.text.length + 16 * pass.total = t.length := by
  intro pass
  constructor
  · intro unnested
    have ordered : wellKnown.Pairwise fun type later => ¬ later.toList <:+ type.toList := by
      decide
    have gone := not_qualified_of_pairwise (fun _ known => known) ordered unnested
    have again : (applyInOrder renameTypes pass.text).total = 0 :=
      total_renameTypes_eq_zero_iff.mpr gone
    exact ⟨gone, text_of_total_eq_zero again, again⟩
  · rw [Nat.mul_comm]
    exact length_renameTypes t

/-- The value is shortened first, which completes the name of a list. -/
theorem renameTypes_complete_of_parts :
    let t : Text := "google.protobuf.Listgoogle.protobuf.Value v = 1;".toList
    let pass := applyInOrder renameTypes t
    ¬ package ++ package <:+: t ∧ pass.text = "ListValue v = 1;".toList ∧ pass.total = 2 ∧
      (∀ type ∈ wellKnown, ¬ qualified type <:+: pass.text) ∧
      (applyInOrder renameTypes pass.text).text = pass.text ∧
      (applyInOrder renameTypes pass.text).total = 0 := by
  intro t pass
  have unnested : ¬ package ++ package <:+: t := by
    rw [← occursIn_iff]
    decide
  exact ⟨unnested, by decide +kernel, by decide +kernel, (renameTypes_complete t).1 unnested⟩

/-- The full name of a value behind the package and the beginning of a name. -/
def joined (first : String) : Text :=
  package ++ (first.toList ++ qualified "Value")

/-- No name of a list or a null is put together from two parts. -/
def Parted (t : Text) : Prop :=
  ∀ first ∈ ["List", "Null"], ¬ joined first <:+: t

/-- Different rules for names of types, and a text in which the rule for values, if it is among
them, completes no other name. -/
structure Ready (rules : List Rule) (t : Text) : Prop where
  nodup : rules.Nodup
  known : ∀ rule ∈ rules, ∃ type ∈ wellKnown, rule = rename type
  parted : rename "Value" ∈ rules → Parted t

/-- Only the name of a value ends another name. -/
theorem eq_value_of_suffix : ∀ type ∈ wellKnown, ∀ other ∈ wellKnown, type ≠ other →
    type.toList <:+ other.toList →
      type = "Value" ∧ ∃ first ∈ ["List", "Null"], other.toList = first.toList ++ type.toList := by
  decide

theorem parted_rename (known : type ∈ wellKnown) (differ : type ≠ "Value") (parted : Parted t) :
    Parted ((rename type).apply t).text := by
  have table : ∀ type ∈ wellKnown, type ≠ "Value" → ∀ first ∈ ["List", "Null"],
      ∀ v ∈ (joined first).tails, v ≠ [] → ¬ (v <+: type.toList ∨ type.toList <+: v) := by
    decide
  intro first member
  exact not_infix_rename known (table type known differ first member) (parted first member)

/-- In such a text no rule makes the name of another type stand. -/
theorem qualified_of_parted (known : type ∈ wellKnown) (known' : other ∈ wellKnown)
    (differ : type ≠ other) (parted : type = "Value" → Parted t) {s : Text} (ends : s <:+ t)
    (h : qualified other <+: ((rename type).apply s).text) : qualified other <+: s := by
  rcases qualified_of_prefix_rename known known' h with ⟨_, stood⟩ | ⟨front, split, stood⟩
  · exact stood
  · obtain ⟨rfl, first, member, parts⟩ :=
      eq_value_of_suffix type known other known' differ ⟨front, split.symm⟩
    obtain rfl : first.toList = front := List.append_cancel_right (parts.symm.trans split)
    exact absurd (stood.isInfix.trans ends.isInfix) (parted rfl first member)

theorem exchangeable_rename (known : type ∈ wellKnown) (known' : other ∈ wellKnown)
    (differ : type ≠ other) (parted : type = "Value" ∨ other = "Value" → Parted t) :
    Exchangeable (qualified type) type.toList (qualified other) other.toList t where
  nonempty := qualified_ne_nil type
  nonempty' := qualified_ne_nil other
  apart := clear_qualified type known other known' differ
  outside := unbegun_type known' type.toList
  outside' := unbegun_type known other.toList
  kept ends h :=
    qualified_of_parted known' known differ.symm (fun value => parted (Or.inr value)) ends h
  kept' ends h :=
    qualified_of_parted known known' differ (fun value => parted (Or.inl value)) ends h

/-- The rule for values may spoil the text, but no rule for values is left then. -/
theorem anyOrder_ready : AnyOrder Ready where
  perm same ready :=
    { nodup := same.nodup_iff.mp ready.nodup
      known := fun rule member => ready.known rule (same.mem_iff.mpr member)
      parted := fun member => ready.parted (same.mem_iff.mpr member) }
  step {rule rules t} ready := by
    obtain ⟨fresh, nodup⟩ := List.nodup_cons.mp ready.nodup
    obtain ⟨⟨type, known, rfl⟩, later⟩ := List.forall_mem_cons.mp ready.known
    refine ⟨nodup, later, ?_⟩
    intro member
    have differ : type ≠ "Value" := fun same => fresh (same ▸ member)
    exact parted_rename known differ (ready.parted (List.mem_cons_of_mem _ member))
  commute {first second rules t} ready := by
    obtain ⟨fresh, _⟩ := List.nodup_cons.mp ready.nodup
    obtain ⟨⟨type, known, rfl⟩, later⟩ := List.forall_mem_cons.mp ready.known
    obtain ⟨⟨other, known', rfl⟩, _⟩ := List.forall_mem_cons.mp later
    have differ : type ≠ other := fun same => fresh (same ▸ List.mem_cons_self)
    refine commute_of_exchangeable rfl rfl (exchangeable_rename known known' differ ?_)
    rintro (rfl | rfl)
    · exact ready.parted List.mem_cons_self
    · exact ready.parted (List.mem_cons_of_mem _ List.mem_cons_self)

/-- Unless the rule for values completes the name of a list or a null, the rules may be applied in
any order. -/
theorem renameTypes_perm {t : Text} (unlisted : ¬ joined "List" <:+: t)
    (unnulled : ¬ joined "Null" <:+: t) {rules : List Rule} (same : rules.Perm renameTypes) :
    (applyInOrder rules t).text = (applyInOrder renameTypes t).text ∧
      (applyInOrder rules t).total = (applyInOrder renameTypes t).total := by
  have distinct : renameTypes.Nodup := by decide
  have parted : Parted t :=
    List.forall_mem_cons.mpr ⟨unlisted, List.forall_mem_singleton.mpr unnulled⟩
  have start : Ready rules t := by
    refine ⟨same.nodup_iff.mpr distinct, ?_, fun _ => parted⟩
    intro rule member
    obtain ⟨type, known, found⟩ := List.mem_map.mp (same.mem_iff.mp member)
    exact ⟨type, known, found.symm⟩
  exact anyOrder_ready.applyInOrder_perm same start

/-- The reverse order, on a text in which a pass puts the name of a list together. -/
theorem renameTypes_perm_of_nested :
    let t : Text := ("google.protobuf.Listgoogle.protobuf.google.protobuf.Value " ++
      "google.protobuf.NullValuegoogle.protobuf.Struct").toList
    ¬ joined "List" <:+: t ∧ ¬ joined "Null" <:+: t ∧ renameTypes.reverse.Perm renameTypes ∧
      (applyInOrder renameTypes t).text = joined "List" ++ " NullValueStruct".toList ∧
      (applyInOrder renameTypes.reverse t).text = (applyInOrder renameTypes t).text ∧
      (applyInOrder renameTypes.reverse t).total = (applyInOrder renameTypes t).total := by
  intro t
  have unlisted : ¬ joined "List" <:+: t := by
    rw [← occursIn_iff]
    decide
  have unnulled : ¬ joined "Null" <:+: t := by
    rw [← occursIn_iff]
    decide
  have same := renameTypes.reverse_perm
  exact ⟨unlisted, unnulled, same, by decide +kernel, renameTypes_perm unlisted unnulled same⟩

end ProtoPrep.TypeName
