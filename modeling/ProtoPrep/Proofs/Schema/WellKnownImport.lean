import ProtoPrep.Proofs.Schema.Reduction
import ProtoPrep.Proofs.Schema.RuleExchange

/-!
# Imports of well-known files

The definitions that stand for the imports of well-known files are inserted where such
a statement is written in the plain form, with one blank and no modifier. A statement in
another form is not replaced: it is dropped with the rest of the imports, and the schema
loses the definitions it asks for. Neither plain import overlaps the other one or a
definition, so one pass leaves none of them, in whichever order the two are replaced.
-/

namespace ProtoPrep

open scoped List

namespace ImportStatement

/-- The text between the double quotes of a statement. -/
def path (statement : Text) : Text :=
  ((statement.dropWhile (· ≠ '"')).drop 1).takeWhile (· ≠ '"')

/-- The statement that imports a file, without anything that could be left out. -/
def plain (file : Text) : Text :=
  "import".toList ++ ' ' :: '"' :: file ++ ['"', ';']

def wellKnown : List Text :=
  ["google/protobuf/struct.proto".toList, "google/protobuf/timestamp.proto".toList]

theorem path_append {lead path : Text} (unquoted : '"' ∉ lead) (unquoted' : '"' ∉ path)
    (rest : Text) :
    ImportStatement.path (lead ++ '"' :: (path ++ '"' :: rest)) = path := by
  have skip (s : Text) (free : '"' ∉ s) : ∀ c ∈ s, decide (c ≠ '"') = true := by
    intro c member
    exact decide_eq_true fun same => free (same ▸ member)
  rw [ImportStatement.path, List.dropWhile_append_of_pos (skip lead unquoted),
    List.dropWhile_cons_of_neg (by decide), List.drop_one, List.tail_cons,
    List.takeWhile_append_of_pos (skip path unquoted'), List.takeWhile_cons_of_neg (by decide),
    List.append_nil]

theorem IsSpace.not_mem {space : Text} (spaced : IsSpace space) {c : Char}
    (solid : isBlank c = false) : c ∉ space := by
  intro member
  rw [spaced.2 c member] at solid
  cases solid

theorem IsModifier.not_mem {modifier : Text} (modified : IsModifier modifier) {c : Char}
    (solid : isBlank c = false) (foreign : c ∉ "public".toList ++ "weak".toList) :
    c ∉ modifier := by
  rcases modified with rfl | ⟨word, known, space, spaced, rfl⟩
  · exact List.not_mem_nil
  · rw [List.mem_append, not_or] at foreign ⊢
    refine ⟨?_, spaced.not_mem solid⟩
    rcases List.mem_cons.mp known with rfl | known
    · exact foreign.1
    · obtain rfl := List.mem_singleton.mp known
      exact foreign.2

/-- The ends of a statement, and what it does not hold besides its path. -/
structure Frame (statement : Text) : Prop where
  first : statement.head? = some 'i'
  last : statement.getLast? = some ';'
  quoted : '"' ∈ statement
  /-- A brace can stand in the path only. -/
  braces : ∀ c, c = '{' ∨ c = '}' → c ∈ statement → c ∈ path statement

theorem IsStatement.frame {statement : Text} (h : IsStatement statement) : Frame statement := by
  have last := h.getLast?_eq
  obtain ⟨spaced, modified, unquoted, blank⟩ := h
  rename_i space modifier file blanks
  have solid : isBlank '"' = false := by decide
  have unquoted' : '"' ∉ "import".toList ++ space ++ modifier := by
    simp only [List.mem_append, not_or]
    exact ⟨⟨by decide, spaced.not_mem solid⟩, modified.not_mem solid (by decide)⟩
  have named :
      path ("import".toList ++ space ++ modifier ++ '"' :: file ++ '"' :: blanks ++ [';']) =
        file := by
    simpa using path_append unquoted' unquoted (blanks ++ [';'])
  refine ⟨rfl, last, by simp, ?_⟩
  intro c brace member
  rw [named]
  have solid' : isBlank c = false := by rcases brace with rfl | rfl <;> decide
  have not_word : c ∉ "import".toList := by rcases brace with rfl | rfl <;> decide
  have not_space : c ∉ space := spaced.not_mem solid'
  have not_modifier : c ∉ modifier :=
    modified.not_mem solid' (by rcases brace with rfl | rfl <;> decide)
  have not_blank : c ∉ blanks := fun inside => by rw [blank c inside] at solid'; cases solid'
  have not_quote : c ≠ '"' := by rcases brace with rfl | rfl <;> decide
  have not_semicolon : c ≠ ';' := by rcases brace with rfl | rfl <;> decide
  simpa only [List.mem_append, List.mem_cons, List.not_mem_nil, not_word, not_space, not_modifier,
    not_blank, not_quote, not_semicolon, false_or, or_false] using member

/-- What holds of the definitions that stand for imports: they hold no quote, and neither a
semicolon before their first brace nor an `i` behind their last one. -/
structure IsDefinition (new : Text) : Prop where
  unquoted : '"' ∉ new
  opens : '{' ∈ new
  before : ';' ∉ new.takeWhile (· ≠ '{')
  behind : 'i' ∉ new.reverse.takeWhile (· ≠ '}')

instance (new : Text) : Decidable (IsDefinition new) :=
  decidable_of_iff ('"' ∉ new ∧ '{' ∈ new ∧ ';' ∉ new.takeWhile (· ≠ '{') ∧
      'i' ∉ new.reverse.takeWhile (· ≠ '}'))
    ⟨fun ⟨h₁, h₂, h₃, h₄⟩ => ⟨h₁, h₂, h₃, h₄⟩, fun ⟨h₁, h₂, h₃, h₄⟩ => ⟨h₁, h₂, h₃, h₄⟩⟩

theorem mem_takeWhile_ne {u t : Text} {c stop : Char} (lead : u <+: t) (free : stop ∉ u)
    (member : c ∈ u) : c ∈ t.takeWhile (· ≠ stop) := by
  obtain ⟨rest, rfl⟩ := lead
  rw [List.takeWhile_append_of_pos]
  · exact List.mem_append_left _ member
  · exact fun d inside => decide_eq_true fun same => free (same ▸ inside)

/-- A statement whose path holds no brace does not overlap a definition. -/
theorem Frame.clear {statement new : Text} (frame : Frame statement) (definition : IsDefinition new)
    (bare : '{' ∉ path statement ∧ '}' ∉ path statement) : Text.Clear statement new where
  ahead := by
    rintro u v w rfl rfl
    by_contra nonempty
    have last := frame.last
    rw [List.getLast?_append_of_ne_nil _ nonempty] at last
    have closed : '{' ∉ v := fun inside =>
      bare.1 (frame.braces '{' (Or.inl rfl) (List.mem_append_right u inside))
    exact definition.before (mem_takeWhile_ne ⟨w, rfl⟩ closed (List.mem_of_getLast? last))
  behind := by
    rintro u v w rfl rfl
    by_contra nonempty
    have first := frame.first
    rw [List.head?_append_of_ne_nil _ nonempty] at first
    have closed : '}' ∉ v.reverse := fun inside => bare.2
      (frame.braces '}' (Or.inr rfl) (List.mem_append_left w (List.mem_reverse.mp inside)))
    refine definition.behind (mem_takeWhile_ne ?_ closed (List.mem_reverse.mpr ?_))
    · exact ⟨u.reverse, List.reverse_append.symm⟩
    · exact List.mem_of_head? first
  not_inside := fun inside => definition.unquoted (inside.subset frame.quoted)
  not_around := fun around =>
    bare.1 (frame.braces '{' (Or.inl rfl) (around.subset definition.opens))

theorem wellKnown_bare : ∀ file ∈ wellKnown, '{' ∉ file ∧ '}' ∉ file := by decide

theorem isStatement_plain {file : Text} (unquoted : '"' ∉ file) :
    IsStatement (plain file) ∧ path (plain file) = file := by
  have spaced : IsSpace [' '] := by
    refine ⟨List.cons_ne_nil _ _, fun c member => ?_⟩
    obtain rfl := List.mem_singleton.mp member
    decide
  have none_blank : ∀ c ∈ ([] : Text), isBlank c = true := fun c member => nomatch member
  have written := IsStatement.intro spaced (Or.inl rfl) unquoted none_blank
  have named := path_append (show '"' ∉ "import".toList ++ [' '] by decide) unquoted [';']
  simp only [List.append_assoc, List.cons_append, List.nil_append] at written named
  have form : plain file = "import".toList ++ (' ' :: '"' :: (file ++ ['"', ';'])) :=
    List.append_assoc _ _ _
  rw [form]
  exact ⟨written, named⟩

end ImportStatement

namespace Rule

open ImportStatement

variable {rules : List Rule} {t statement : Text}

/-- A statement that stands clear of all replacements stood in the text before. -/
theorem standing_applyInOrder
    (literal : ∀ rule ∈ rules, ∃ other, rule.matcher = .literal other ∧ other ≠ [] ∧
      wordMayBegin other.getLast? = true ∧ Text.Clear statement rule.replacement)
    {lead after : Text} (opens : wordMayBegin lead.getLast? = true)
    (whole : (applyInOrder rules t).text = lead ++ (statement ++ after)) :
    ∃ front behind, t = front ++ (statement ++ behind) ∧ wordMayBegin front.getLast? = true := by
  induction rules generalizing t with
  | nil => exact ⟨lead, after, whole, opens⟩
  | cons rule rules ih =>
    obtain ⟨⟨other, found, solid, closes, clear⟩, others⟩ := List.forall_mem_cons.mp literal
    obtain ⟨front, behind, stood, opens'⟩ := ih others whole
    rw [apply_literal found] at stood
    obtain ⟨before, rest, stood', last⟩ := Text.standing_of_replace solid clear stood
    refine ⟨before, rest, stood', ?_⟩
    rcases last with same | same <;> rw [same]
    · exact opens'
    · exact closes

theorem inlineImports_plain : ∀ rule ∈ inlineImports, ∃ file ∈ wellKnown,
    rule.matcher = .literal (plain file) ∧ IsDefinition rule.replacement := by
  decide +kernel

theorem exists_inlineImports : ∀ file ∈ wellKnown, ∃ rule ∈ inlineImports,
    rule.matcher = .literal (plain file) := by
  decide +kernel

theorem wordMayBegin_plain : ∀ file ∈ wellKnown,
    plain file ≠ [] ∧ wordMayBegin (plain file).getLast? = true := by
  decide +kernel

/-- No import of a well-known file is left in the plain form. -/
theorem not_plain_infix_inlineImports {file : Text} (known : file ∈ wellKnown) (t : Text) :
    ¬ plain file <:+: (applyInOrder inlineImports t).text := by
  have unquoted : '"' ∉ file := (by decide : ∀ file ∈ wellKnown, '"' ∉ file) file known
  obtain ⟨written, named⟩ := isStatement_plain unquoted
  refine not_infix_applyInOrder (wordMayBegin_plain file known).1 ?_
    (Or.inl (exists_inlineImports file known))
  intro rule member
  obtain ⟨other, other_known, found, definition⟩ := inlineImports_plain rule member
  exact ⟨_, found, (wordMayBegin_plain other other_known).1,
    written.frame.clear definition (named.symm ▸ wellKnown_bare file known)⟩

/-- An import of a well-known file that is there after the plain ones were replaced was there
before. -/
theorem standing_inlineImports (written : IsStatement statement)
    (known : path statement ∈ wellKnown) {lead after : Text}
    (opens : wordMayBegin lead.getLast? = true)
    (whole : (applyInOrder inlineImports t).text = lead ++ (statement ++ after)) :
    ∃ front behind, t = front ++ (statement ++ behind) ∧ wordMayBegin front.getLast? = true := by
  refine standing_applyInOrder ?_ opens whole
  intro rule member
  obtain ⟨other, other_known, found, definition⟩ := inlineImports_plain rule member
  obtain ⟨solid, closes⟩ := wordMayBegin_plain other other_known
  exact ⟨_, found, solid, closes, written.frame.clear definition (wellKnown_bare _ known)⟩

end Rule

namespace Reduction

open ImportStatement

/-- The statements that are dropped. -/
def strippedImports (source : Text) : List Text :=
  (Pattern.importStatement.cuts none (inlined source)).spans

/-- An import of a well-known file is dropped only if it stood in the schema in another than the
plain form; none in the plain form is left to be dropped. -/
theorem strippedImports_wellKnown (source : Text) :
    (reduce source).report.stripped = (strippedImports source).length ∧
      (∀ file ∈ wellKnown, ¬ plain file <:+: inlined source) ∧
      ∀ statement ∈ strippedImports source, path statement ∈ wellKnown →
        statement ≠ plain (path statement) ∧
          ∃ front behind, ungated source = front ++ (statement ++ behind) ∧
            wordMayBegin front.getLast? = true := by
  have replaced : ∀ file ∈ wellKnown, ¬ plain file <:+: inlined source :=
    fun file known => Rule.not_plain_infix_inlineImports known (ungated source)
  have counted : (reduce source).report.stripped = (strippedImports source).length := by
    rw [report_eq]
    exact rfl
  refine ⟨counted, replaced, fun statement member known => ?_⟩
  obtain ⟨lead, after, whole, found⟩ := Pattern.standing_of_mem_spans _ member
  have opens := (Pattern.ofRest_at?_eq_some_iff.mp found).1
  rw [Option.or_none] at opens
  constructor
  · intro same
    refine replaced (path statement) known ⟨lead, after, ?_⟩
    rw [← same, whole, List.append_assoc]
  · exact Rule.standing_inlineImports (isStatement_of_mem_spans member) known opens whole

/-- Two blanks behind the keyword, where the plain form has one. -/
theorem strippedImports_wellKnown_of_blanks :
    let source := ("import  \"google/protobuf/struct.proto\";\n" ++
      "import \"google/protobuf/timestamp.proto\";\n").toList
    let statement := "import  \"google/protobuf/struct.proto\";".toList
    statement ∈ strippedImports source ∧ path statement ∈ wellKnown ∧
      statement ≠ plain (path statement) ∧
        ∃ front behind, ungated source = front ++ (statement ++ behind) ∧
          wordMayBegin front.getLast? = true := by
  intro source statement
  have member : statement ∈ strippedImports source := by decide +kernel
  have known : path statement ∈ wellKnown := by decide +kernel
  exact ⟨member, known, (strippedImports_wellKnown source).2.2 statement member known⟩

/-- An import with two blanks is dropped, and the type that it declares is lost. -/
theorem strippedImports_loses_definition :
    let source := ("import  \"google/protobuf/struct.proto\";\n" ++
      "message A \x7b google.protobuf.Struct s = 1; \x7d").toList
    strippedImports source = ["import  \"google/protobuf/struct.proto\";".toList] ∧
      path "import  \"google/protobuf/struct.proto\";".toList ∈ wellKnown ∧
      (reduce source).report.inlined = 0 ∧ (reduce source).report.stripped = 1 ∧
      (reduce source).text = "\nmessage A \x7b Struct s = 1; \x7d".toList := by
  decide +kernel

end Reduction

namespace Rule

/-- Neither import overlaps the other one or a definition. -/
theorem inlineImports_independent : inlineImports.Pairwise Independent := by
  have apart : Text.Independent "import \"google/protobuf/struct.proto\";".toList structDefinitions
      "import \"google/protobuf/timestamp.proto\";".toList timestampDefinition := by
    decide +kernel
  rw [inlineImports, List.pairwise_pair]
  exact ⟨_, _, rfl, rfl, apart⟩

/-- Neither import is left, so a second pass changes nothing. The order of the rules does not
matter, and every replacement takes the two quotes of a path. -/
theorem inlineImports_complete (t : Text) :
    let pass := applyInOrder inlineImports t
    ¬ "import \"google/protobuf/struct.proto\";".toList <:+: pass.text ∧
      ¬ "import \"google/protobuf/timestamp.proto\";".toList <:+: pass.text ∧
      (applyInOrder inlineImports pass.text).text = pass.text ∧
      (applyInOrder inlineImports pass.text).total = 0 ∧
      (∀ rules, rules.Perm inlineImports →
        (applyInOrder rules t).text = pass.text ∧ (applyInOrder rules t).total = pass.total) ∧
      pass.text.count '"' + 2 * pass.total = t.count '"' := by
  intro pass
  have struct_known : "google/protobuf/struct.proto".toList ∈ ImportStatement.wellKnown := by decide
  have timestamp_known : "google/protobuf/timestamp.proto".toList ∈ ImportStatement.wellKnown := by
    decide
  have structs := not_plain_infix_inlineImports struct_known t
  have timestamps := not_plain_infix_inlineImports timestamp_known t
  have again := total_inlineImports_eq_zero_iff.mpr ⟨structs, timestamps⟩
  refine ⟨structs, timestamps, text_of_total_eq_zero again, again, ?_, ?_⟩
  · intro rules same
    have reordered := applyInOrder_perm same.symm inlineImports_independent t
    exact ⟨reordered.1.symm, reordered.2.symm⟩
  · rw [Nat.mul_comm]
    exact count_quote_inlineImports t

end Rule

end ProtoPrep
