import ProtoPrep.Generated.Patches
import ProtoPrep.Proofs.Config.Validity
import ProtoPrep.Proofs.Schema.RuleExchange
import ProtoPrep.Proofs.Text.Quotation

/-!
# Fixing wrapper includes

A directive puts a path in quotes, and the name of a service holds neither a quote nor a
slash, whatever else it holds. So two directives do not overlap, and they are the same
only if service and ending are. From this it follows that one fix renames all includes of
its service, that a second one finds nothing, and that the fixes of two services take no
notice of each other.
-/

namespace ProtoPrep.WrapperInclude

open scoped List
open Text

/-- A name that a path can hold between two slashes, and that can stand in quotes. -/
def IsBare (service : Text) : Prop :=
  ∀ c ∈ service, c ≠ '/' ∧ c ≠ '\\' ∧ c ≠ '"'

/-- An ending that the closing quote can follow: it holds no quote and does not end in a blank. -/
def IsPlain (ending : String) : Prop :=
  '"' ∉ ending.toList ∧ ending.toList.getLast? ≠ some ' '

instance (ending : String) : Decidable (IsPlain ending) :=
  inferInstanceAs (Decidable (_ ∧ _))

def path (service : Text) (ending : String) : Text :=
  "Wrappers/".toList ++ (service ++ '/' :: (service ++ '.' :: ending.toList))

/-- The endings of wrappers, each with the one that replaces it. -/
def endings : List (String × String) :=
  [("pb.hpp", "pb.h"), ("grpc.pb.hpp", "grpc.pb.h")]

variable {service other : Text} {ending ending' : String}

/-- A directive is a keyword and a path in quotes, so what is known of quotations holds of it. -/
theorem directive_eq (service : Text) (ending : String) :
    directive service ending = quotation "#include ".toList (path service ending) := by
  have opening :
      "#include \"Wrappers/".toList = "#include ".toList ++ '"' :: "Wrappers/".toList := by
    decide
  unfold directive path quotation
  rw [opening]
  simp only [List.append_assoc, List.cons_append, List.nil_append]

theorem directive_ne_nil (service : Text) (ending : String) : directive service ending ≠ [] := by
  rw [directive_eq]
  exact List.append_ne_nil_of_right_ne_nil _ (List.cons_ne_nil _ _)

theorem length_directive (service : Text) (ending : String) :
    (directive service ending).length = (directive service "").length + ending.toList.length := by
  unfold directive
  simp only [List.length_append, String.toList_empty, List.length_nil, Nat.add_right_comm,
    Nat.add_zero]

theorem IsBare.slash (bare : IsBare service) : '/' ∉ service :=
  fun member => (bare _ member).1 rfl

theorem IsBare.quote (bare : IsBare service) : '"' ∉ service :=
  fun member => (bare _ member).2.2 rfl

theorem quote_not_mem_path (bare : IsBare service) (plain : IsPlain ending) :
    '"' ∉ path service ending := by
  have folder : '"' ∉ "Wrappers/".toList := by decide
  unfold path
  simp only [List.mem_append, List.mem_cons, not_or]
  exact ⟨folder, bare.quote, by decide, bare.quote, by decide, plain.1⟩

theorem getLast?_path (plain : IsPlain ending) : (path service ending).getLast? ≠ some ' ' := by
  have whole : path service ending =
      ("Wrappers/".toList ++ service ++ '/' :: service) ++ '.' :: ending.toList := by
    unfold path
    simp only [List.append_assoc, List.cons_append]
  rw [whole, List.getLast?_append_of_ne_nil _ (List.cons_ne_nil _ _), List.getLast?_cons]
  intro last
  cases found : ending.toList.getLast? with
  | none =>
    rw [found] at last
    exact absurd last (by decide)
  | some c =>
    rw [found] at last
    exact plain.2 (found.trans last)

/-- The first slash behind the folder ends the name of the service. -/
theorem path_inj (bare : IsBare service) (bare' : IsBare other)
    (same : path service ending = path other ending') : service = other ∧ ending = ending' := by
  obtain ⟨rfl, files⟩ :=
    (append_cons_inj bare.slash bare'.slash).mp (List.append_cancel_left same)
  have endings := List.append_cancel_left files
  exact ⟨rfl, String.toList_injective (List.cons.inj endings).2⟩

/-- Directives for different wrappers do not overlap. -/
theorem clear_directive (bare : IsBare service) (bare' : IsBare other) (plain : IsPlain ending)
    (plain' : IsPlain ending') (differ : service ≠ other ∨ ending ≠ ending') :
    Clear (directive service ending) (directive other ending') := by
  have unquoted : '"' ∉ "#include ".toList := by decide
  have last : "#include ".toList.getLast? = some ' ' := by decide
  rw [directive_eq, directive_eq]
  refine clear_quotation unquoted (quote_not_mem_path bare plain) (quote_not_mem_path bare' plain')
    last (getLast?_path plain) (getLast?_path plain') ?_
  intro same
  obtain ⟨services, endings⟩ := path_inj bare bare' same
  exact differ.elim (absurd services) (absurd endings)

theorem renamings_eq (service : Text) : renamings service =
    endings.map fun pair => (directive service pair.1, directive service pair.2) := rfl

def rule (service : Text) (pair : String × String) : Rule :=
  ⟨"rename wrapper include", .literal (directive service pair.1), directive service pair.2⟩

/-- The fix of a service is a pass of rules. -/
theorem fix_eq (service t : Text) :
    fix service t = ⟨(Rule.applyInOrder (endings.map (rule service)) t).text,
      (Rule.applyInOrder (endings.map (rule service)) t).total⟩ := by
  simp [fix, renamings, endings, rule, Rule.applyInOrder, Rule.apply, Pass.total]

theorem isPlain_endings : ∀ pair ∈ endings, IsPlain pair.1 ∧ IsPlain pair.2 := by
  decide

/-- No ending comes up by renaming. -/
theorem endings_apart : ∀ pair ∈ endings, ∀ pair' ∈ endings, pair.1 ≠ pair'.2 := by
  decide

theorem length_endings : ∀ pair ∈ endings, pair.1.toList.length = pair.2.toList.length + 2 := by
  decide

/-- Renaming one include completes no other one, so none of them is left. -/
theorem not_infix_fix (bare : IsBare service) (t : Text) :
    ∀ pair ∈ endings, ¬ directive service pair.1 <:+: (fix service t).text := by
  intro pair known
  rw [fix_eq]
  refine Rule.not_infix_applyInOrder (directive_ne_nil service pair.1) ?_
    (Or.inl ⟨rule service pair, List.mem_map_of_mem known, rfl⟩)
  rw [List.forall_mem_map]
  intro pair' known'
  have clear : Clear (directive service pair.1) (directive service pair'.2) :=
    clear_directive bare bare (isPlain_endings pair known).1 (isPlain_endings pair' known').2
      (Or.inr (endings_apart pair known pair' known'))
  exact ⟨_, rfl, directive_ne_nil service pair'.1, clear⟩

/-- A renamed include is two characters shorter. -/
theorem length_fix (service t : Text) :
    (fix service t).text.length + (fix service t).count * 2 = t.length := by
  have loses : ∀ made ∈ endings.map (rule service), ∀ s,
      (made.apply s).text.countP (fun _ => true) + (made.apply s).count * 2 =
        s.countP fun _ => true := by
    rw [List.forall_mem_map]
    intro pair known s
    refine countP_replace (directive_ne_nil service pair.1) ?_
    have shorter := length_endings pair known
    rw [List.countP_true, rule, length_directive service pair.1, length_directive service pair.2]
    omega
  have whole := Rule.countP_applyInOrder loses t
  rw [List.countP_true] at whole
  rw [fix_eq]
  exact whole

theorem fix_of_absent {t : Text} (absent : ∀ pair ∈ endings, ¬ directive service pair.1 <:+: t) :
    fix service t = ⟨t, 0⟩ := by
  have unmatched : (Rule.applyInOrder (endings.map (rule service)) t).total = 0 := by
    rw [Rule.total_eq_zero_iff, List.forall_mem_map]
    intro pair known
    exact (count_replace_eq_zero_iff (directive_ne_nil service pair.1) _ t).mpr (absent pair known)
  rw [fix_eq, unmatched, Rule.text_of_total_eq_zero unmatched]

/-- No include of the service is left to rename, so a second fix changes nothing. Each renamed
include loses two characters. -/
theorem fix_complete {config : Config} (accepted : config.check = .ok ()) (t : Text) :
    let service := config.serviceName
    let edit := fix service t
    (∀ pair ∈ renamings service, ¬ pair.1 <:+: edit.text) ∧
      edit.text.length + 2 * edit.count = t.length ∧ fix service edit.text = ⟨edit.text, 0⟩ := by
  intro service edit
  have bare : IsBare service := (Config.check_eq_ok_iff.mp accepted).bare
  have renamed := not_infix_fix bare t
  refine ⟨?_, ?_, fix_of_absent renamed⟩
  · rw [renamings_eq, List.forall_mem_map]
    exact renamed
  · rw [Nat.mul_comm]
    exact length_fix service t

/-- Two includes side by side, of a service that is named like a directive. -/
theorem fix_complete_of_adjacent :
    let config : Config := { Config.default with serviceName := "#include x.grpc".toList }
    let service := config.serviceName
    let t := directive service "pb.hpp" ++ directive service "grpc.pb.hpp"
    let edit := fix service t
    config.check = .ok () ∧
      edit = ⟨directive service "pb.h" ++ directive service "grpc.pb.h", 2⟩ ∧
      (∀ pair ∈ renamings service, ¬ pair.1 <:+: edit.text) ∧
      edit.text.length + 2 * edit.count = t.length ∧ fix service edit.text = ⟨edit.text, 0⟩ := by
  intro config service t edit
  have accepted : config.check = .ok () := by decide
  exact ⟨accepted, by decide +kernel, fix_complete accepted t⟩

/-- The quote that closes a path tells services apart, even if one name begins with the other. -/
theorem independent_rules (bare : IsBare service) (bare' : IsBare other)
    (differ : service ≠ other) : ∀ made ∈ endings.map (rule service),
      ∀ made' ∈ endings.map (rule other), Rule.Independent made made' := by
  simp only [List.forall_mem_map]
  intro pair known pair' known'
  obtain ⟨plain, plain_new⟩ := isPlain_endings pair known
  obtain ⟨plain', plain_new'⟩ := isPlain_endings pair' known'
  have apart : Text.Independent (directive service pair.1) (directive service pair.2)
      (directive other pair'.1) (directive other pair'.2) :=
    { nonempty := directive_ne_nil service pair.1
      nonempty' := directive_ne_nil other pair'.1
      apart := clear_directive bare bare' plain plain' (Or.inl differ)
      clear := clear_directive bare bare' plain plain_new' (Or.inl differ)
      clear' := clear_directive bare' bare plain' plain_new (Or.inl differ.symm) }
  exact ⟨_, _, rfl, rfl, apart⟩

theorem fix_fix (bare : IsBare service) (bare' : IsBare other) (differ : service ≠ other)
    (t : Text) :
    (fix other (fix service t).text).text = (fix service (fix other t).text).text ∧
      (fix other (fix service t).text).count = (fix other t).count := by
  simp only [fix_eq]
  exact Rule.applyInOrder_comm (independent_rules bare bare' differ) t

/-- An include of another service stays where it stands. -/
theorem fix_around (bare : IsBare service) (bare' : IsBare other) (differ : service ≠ other)
    (plain : IsPlain ending) (before behind : Text) :
    fix service (before ++ (directive other ending ++ behind)) =
      ⟨(fix service before).text ++ (directive other ending ++ (fix service behind).text),
        (fix service before).count + (fix service behind).count⟩ := by
  have clear : ∀ made ∈ endings.map (rule service), ∃ lead, made.matcher = .literal lead ∧
      lead ≠ [] ∧ Clear lead (directive other ending) := by
    rw [List.forall_mem_map]
    intro pair known
    have apart := clear_directive bare bare' (isPlain_endings pair known).1 plain (Or.inl differ)
    exact ⟨_, rfl, directive_ne_nil service pair.1, apart⟩
  obtain ⟨texts, totals⟩ := Rule.applyInOrder_around clear before behind
  simp only [fix_eq, texts, totals]

/-- The fixes of two services may be made in either order, and each counts as if it alone were
made. An include of a wrapper of the other service stays where it stands. -/
theorem fix_comm {config config' : Config} (accepted : config.check = .ok ())
    (accepted' : config'.check = .ok ()) (differ : config.serviceName ≠ config'.serviceName)
    (t : Text) :
    let service := config.serviceName
    let other := config'.serviceName
    (fix other (fix service t).text).text = (fix service (fix other t).text).text ∧
      (fix other (fix service t).text).count = (fix other t).count ∧
      (fix service (fix other t).text).count = (fix service t).count ∧
      ∀ ending, IsPlain ending → ∀ before behind,
        fix service (before ++ (directive other ending ++ behind)) =
          ⟨(fix service before).text ++ (directive other ending ++ (fix service behind).text),
            (fix service before).count + (fix service behind).count⟩ := by
  intro service other
  have bare : IsBare service := (Config.check_eq_ok_iff.mp accepted).bare
  have bare' : IsBare other := (Config.check_eq_ok_iff.mp accepted').bare
  obtain ⟨texts, counts⟩ := fix_fix bare bare' differ t
  obtain ⟨_, counts'⟩ := fix_fix bare' bare differ.symm t
  exact ⟨texts, counts, counts', fun _ plain => fix_around bare bare' differ plain⟩

/-- Two services of which one is named like a wrapper of the other one. -/
theorem fix_comm_of_extension :
    let config : Config := { Config.default with serviceName := "x".toList }
    let config' : Config := { Config.default with serviceName := "x.grpc".toList }
    let service := config.serviceName
    let other := config'.serviceName
    let t := directive service "grpc.pb.hpp" ++ directive other "pb.hpp"
    config.check = .ok () ∧ config'.check = .ok () ∧ service ≠ other ∧
      fix service t = ⟨directive service "grpc.pb.h" ++ directive other "pb.hpp", 1⟩ ∧
      (fix other (fix service t).text).text = (fix service (fix other t).text).text ∧
      (fix other (fix service t).text).count = (fix other t).count ∧
      (fix service (fix other t).text).count = (fix service t).count ∧
      ∀ ending, IsPlain ending → ∀ before behind,
        fix service (before ++ (directive other ending ++ behind)) =
          ⟨(fix service before).text ++ (directive other ending ++ (fix service behind).text),
            (fix service before).count + (fix service behind).count⟩ := by
  intro config config' service other t
  have accepted : config.check = .ok () := by decide
  have accepted' : config'.check = .ok () := by decide
  have differ : service ≠ other := by decide
  exact ⟨accepted, accepted', differ, by decide +kernel, fix_comm accepted accepted' differ t⟩

end ProtoPrep.WrapperInclude
