import ProtoPrep.Json.Brackets
import ProtoPrep.Proofs.Json.Value

/-!
# Readers and spellings

A reader reads a spelling if it accepts, behind white space, exactly the texts that
spell a value, and returns that value. Here this is shown for the readers of single
values and carried over to lists of values.
-/

namespace ProtoPrep.Json

variable {α β : Type}

/-- A reader accepts exactly the spellings of values. A spelling begins with a token, and the text
behind it must not go on with a numeral. -/
structure Reads (reader : Reader α) (Spells : α → Text → Prop) : Prop where
  opens {a : α} {v : Text} : Spells a v → OpensItem v
  complete {a : α} {space v rest : Text} : Spells a v → IsSpacing space → Delimited rest →
    reader.read (space ++ (v ++ rest)) = .ok (a, rest)
  sound {a : α} {t rest : Text} : reader.read t = .ok (a, rest) →
    ∃ space v, IsSpacing space ∧ Spells a v ∧ t = space ++ (v ++ rest)

/-- The written form of a code: its decimal digits. -/
def IsCode (n : UInt32) (v : Text) : Prop :=
  v = Nat.toDigits 10 n.toNat

def IsNull (v : Text) : Prop :=
  v = "null".toList

namespace Reads

theorem map {reader : Reader α} {Spells : α → Text → Prop} (h : Reads reader Spells) (f : α → β) :
    Reads (reader.map f) fun b v => ∃ a, f a = b ∧ Spells a v where
  opens := fun ⟨_, _, spells⟩ => h.opens spells
  complete := by
    rintro _ space v rest ⟨a, rfl, spells⟩ spacing stops
    simp only [Reader.map, h.complete spells spacing stops, Except.map]
  sound := by
    intro b t rest read
    obtain ⟨⟨a, after⟩, read, same⟩ := ok_of_map read
    cases same
    obtain ⟨space, v, spacing, spells, whole⟩ := h.sound read
    exact ⟨space, v, spacing, ⟨a, rfl, spells⟩, whole⟩

/-- A reader that looks at the first character of a token need only be compared behind it. -/
theorem ofToken {reader : Reader α} {read : Char → Text → Except Stop (α × Text)}
    {Spells : α → Text → Prop}
    (token : ∀ t, reader.read t = match skipSpace t with
      | [] => stopAt .endInValue []
      | c :: rest => read c rest)
    (opens : ∀ {a v}, Spells a v → OpensItem v)
    (complete : ∀ {a c w rest}, Spells a (c :: w) → Delimited rest →
      read c (w ++ rest) = .ok (a, rest))
    (sound : ∀ {a c t rest}, read c t = .ok (a, rest) → ∃ w, Spells a (c :: w) ∧ t = w ++ rest) :
    Reads reader Spells where
  opens := opens
  complete := by
    intro a space v rest spells spacing stops
    obtain ⟨c, w, rfl, isToken, -⟩ := opens spells
    rw [token, skipSpace_append spacing, List.cons_append, skipSpace_cons isToken]
    exact complete spells stops
  sound := by
    intro a t rest h
    rw [token] at h
    obtain ⟨space, c, r, spacing, rfl, found⟩ := exists_token h
    obtain ⟨w, spells, rfl⟩ := sound found
    exact ⟨space, c :: w, spacing, spells, rfl⟩

theorem skip : Reads Reader.skip fun _ => IsValue where
  opens := IsValue.opens
  complete := by
    intro _ space v rest value spacing stops
    simp only [Reader.skip, passValue_append spacing value stops, Except.map]
  sound := by
    intro _ t rest h
    obtain ⟨after, passed, same⟩ := ok_of_map h
    cases same
    exact exists_value_of_passValue passed

/-- A string is read from its literals, which end in the first quote that is not escaped. -/
theorem string : Reads Reader.string Quoted := by
  refine ofToken (fun _ => rfl) ?_ ?_ ?_
  · rintro t v ⟨body, -, rfl⟩
    exact ⟨_, _, rfl, by decide, by decide⟩
  · rintro t c w rest ⟨body, written, same⟩ -
    cases same
    rw [if_pos rfl, List.append_assoc]
    exact readString_append written rest
  · intro t c r rest h
    split at h
    · rename_i quote
      obtain ⟨body, written, rfl⟩ := exists_body_of_readString h
      exact ⟨body ++ ['"'], ⟨body, written, by rw [quote]⟩, by simp⟩
    · exact (stopWrongType_ne_ok h).elim

theorem unit : Reads Reader.unit fun _ => IsNull := by
  refine ofToken (fun _ => rfl) ?_ ?_ ?_
  · rintro _ v rfl
    exact ⟨_, _, rfl, by decide, by decide⟩
  · intro _ c w rest same _
    have first : "null".toList = 'n' :: "ull".toList := rfl
    obtain ⟨rfl, rfl⟩ := List.cons.inj (same.trans first)
    rw [if_pos rfl, expectWord_append]
    rfl
  · intro _ c r rest h
    split at h
    · rename_i first
      obtain ⟨after, expected, same⟩ := ok_of_map h
      cases same
      exact ⟨"ull".toList, by rw [first]; rfl, eq_append_of_expectWord expected⟩
    · exact (stopWrongType_ne_ok h).elim

/-- A code is read from its decimal digits alone: a sign, a fraction or an exponent makes another
number. -/
theorem code : Reads Reader.code IsCode := by
  have head : ∀ {n : Nat} {c : Char} {w : Text}, c :: w = Nat.toDigits 10 n →
      c.isDigit = true := fun {n c w} same =>
    (isWhole_toDigits n).1.2 c (same ▸ List.mem_cons_self)
  refine ofToken (fun _ => rfl) ?_ ?_ ?_
  · rintro n v rfl
    obtain ⟨c, w, same⟩ := List.exists_cons_of_ne_nil (Nat.toDigits_ne_nil (n := n.toNat) (b := 10))
    have digit := head same.symm
    refine ⟨c, w, same, fun member => ?_, numeral_head_ne (.inr digit) (by decide)⟩
    have others : ∀ d ∈ spaces, d.isDigit = false := by simp [spaces]
    rw [others c member] at digit
    cases digit
  · intro n c w rest same stops
    rw [IsCode] at same
    have digit := head same
    have read := readNumber_toDigits (Nat.lt_trans n.toNat_lt (by decide)) stops
    rw [← same] at read
    rw [if_pos (by simp [digit]), ← List.cons_append, read]
    simp only [Reader.ofNumber, if_pos n.toNat_lt, UInt32.ofNat_toNat]
  · intro n c r rest h
    split at h
    · split at h
      · cases h
      · rename_i number after read
        cases number with
        | natural m =>
          simp only [Reader.ofNumber] at h
          split at h
          · rename_i small
            cases h
            have whole := eq_toDigits_of_readNumber read
            obtain ⟨d, w, digits⟩ := List.exists_cons_of_ne_nil
              (Nat.toDigits_ne_nil (n := m) (b := 10))
            rw [digits, List.cons_append] at whole
            obtain ⟨rfl, rfl⟩ := List.cons.inj whole
            exact ⟨w, by rw [IsCode, UInt32.toNat_ofNat_of_lt' small, digits], rfl⟩
          · cases h
        | negative m => cases h
        | float x => cases h
    · exact (stopWrongType_ne_ok h).elim

end Reads

theorem Gap.append {first : Bool} {gap space : Text} (gapped : Gap first gap)
    (spacing : IsSpacing space) : Gap first (gap ++ space) := by
  cases gapped with
  | first spacing' => exact .first (spacing'.append spacing)
  | later spacing' spacing'' =>
    rw [List.append_assoc, List.cons_append]
    exact .later spacing' (spacing''.append spacing)

theorem nextElement_closing (first : Bool) {space : Text} (spacing : IsSpacing space)
    (rest : Text) : nextElement first (space ++ ']' :: rest) = .ok (.closed rest) := by
  rw [nextElement, skipSpace_append spacing, skipSpace_cons (by decide)]
  exact if_pos rfl

theorem nextElement_gap {first : Bool} {gap t : Text} (gapped : Gap first gap)
    (opens : OpensItem t) : nextElement first (gap ++ t) = .ok (.item t) := by
  obtain ⟨c, r, rfl, token, noClosing⟩ := opens
  cases gapped with
  | first spacing =>
    rw [nextElement, skipSpace_append spacing, skipSpace_cons token]
    simp only [if_neg noClosing, if_true]
  | later spacing spacing' =>
    rw [nextElement, List.append_assoc, skipSpace_append spacing, List.cons_append,
      skipSpace_cons (by decide)]
    simp only [skipSpace_append spacing', skipSpace_cons token, if_neg noClosing]
    rfl

theorem exists_space_of_nextElement {first : Bool} {t rest : Text}
    (h : nextElement first t = .ok (.closed rest)) :
    ∃ space, IsSpacing space ∧ t = space ++ ']' :: rest := by
  obtain ⟨space, c, r, spacing, rfl, read⟩ := exists_token h
  split at read
  · rename_i closes
    cases read
    exact ⟨space, spacing, by rw [closes]⟩
  · repeat' split at read
    all_goals cases read

theorem exists_gap_of_nextElement {first : Bool} {t u : Text}
    (h : nextElement first t = .ok (.item u)) : ∃ gap, Gap first gap ∧ t = gap ++ u := by
  obtain ⟨space, c, r, spacing, rfl, read⟩ := exists_token h
  split at read
  · cases read
  · split at read
    · rename_i isFirst
      cases read
      rw [isFirst]
      exact ⟨space, .first spacing, rfl⟩
    · rename_i notFirst
      rw [Bool.not_eq_true] at notFirst
      rw [notFirst]
      split at read
      · rename_i comma
        obtain ⟨space', d, after, spacing', rfl, read'⟩ := exists_token read
        split at read'
        · cases read'
        · cases read'
          exact ⟨_, .later spacing spacing', by rw [comma]; simp⟩
      · cases read

theorem closeList_append {space : Text} (spacing : IsSpacing space) (rest : Text) :
    closeList (space ++ ']' :: rest) = .ok rest := by
  rw [closeList, skipSpace_append spacing, skipSpace_cons (by decide)]
  exact if_pos rfl

theorem exists_space_of_closeList {t rest : Text} (h : closeList t = .ok rest) :
    ∃ space, IsSpacing space ∧ t = space ++ ']' :: rest := by
  obtain ⟨space, c, r, spacing, rfl, read⟩ := exists_token h
  split at read
  · rename_i closes
    cases read
    exact ⟨space, spacing, by rw [closes]⟩
  · split at read
    · split at read <;> cases read
    · cases read

theorem readElements_closed {element : Reader α} {first : Bool} {t rest : Text}
    (h : nextElement first t = .ok (.closed rest)) :
    readElements element first t = .ok ([], rest) := by
  rw [readElements]
  grind

theorem readElements_item {element : Reader α} {first : Bool} {t u rest : Text} {a : α}
    (h : nextElement first t = .ok (.item u)) (g : element.read u = .ok (a, rest)) :
    readElements element first t =
      (readElements element false rest).map fun (as, rest) => (a :: as, rest) := by
  rw [readElements]
  grind

def Listed (Spells : α → Text → Prop) (as : List α) (v : Text) : Prop :=
  ∃ s, v = '[' :: s ∧ Items Spells ']' true as s

namespace Reads

variable {element : Reader α} {Spells : α → Text → Prop}

theorem nextElement_append (reads : Reads element Spells) {first : Bool} {gap v : Text} {a : α}
    (gapped : Gap first gap) (spells : Spells a v) (rest : Text) :
    nextElement first (gap ++ (v ++ rest)) = .ok (.item (v ++ rest)) :=
  nextElement_gap gapped ((reads.opens spells).append rest)

theorem read_append (reads : Reads element Spells) {v rest : Text} {a : α} (spells : Spells a v)
    (stops : Delimited rest) : element.read (v ++ rest) = .ok (a, rest) :=
  reads.complete spells .nil stops

theorem readElements_append (reads : Reads element Spells) {first : Bool} {as : List α} {s : Text}
    (items : Items Spells ']' first as s) (rest : Text) :
    readElements element first (s ++ rest) = .ok (as, rest) := by
  induction items with
  | closed spacing =>
    rw [List.append_assoc]
    exact readElements_closed (nextElement_closing _ spacing rest)
  | @item first gap v t a as gapped spells items ih =>
    have next := reads.nextElement_append gapped spells (t ++ rest)
    have read := reads.read_append spells (items.delimited List.mem_cons_self rest)
    rw [List.append_assoc, List.append_assoc, readElements_item next read, ih]
    rfl

theorem exists_items_of_readElements (reads : Reads element Spells) {first : Bool} {as : List α}
    {t rest : Text} (h : readElements element first t = .ok (as, rest)) :
    ∃ s, Items Spells ']' first as s ∧ t = s ++ rest := by
  fun_induction readElements element first t generalizing as with
  | case1 => cases h
  | case2 first t r closed =>
    cases h
    obtain ⟨space, spacing, rfl⟩ := exists_space_of_nextElement closed
    exact ⟨_, .closed spacing, by simp⟩
  | case3 => cases h
  | case4 first t u item a r read ih =>
    obtain ⟨⟨others, last⟩, more, same⟩ := ok_of_map h
    cases same
    obtain ⟨gap, gapped, rfl⟩ := exists_gap_of_nextElement item
    obtain ⟨space, v, spacing, spells, rfl⟩ := reads.sound read
    obtain ⟨s, items, rfl⟩ := ih more
    exact ⟨_, .item (gapped.append spacing) spells items, by simp⟩

theorem list (reads : Reads element Spells) : Reads (Reader.list element) (Listed Spells) := by
  refine ofToken (fun _ => rfl) ?_ ?_ ?_
  · rintro as v ⟨s, rfl, -⟩
    exact ⟨_, _, rfl, by decide, by decide⟩
  · rintro as c w rest ⟨s, same, items⟩ -
    cases same
    rw [if_pos rfl]
    exact reads.readElements_append items rest
  · intro as c r rest h
    split at h
    · rename_i opens
      obtain ⟨s, items, rfl⟩ := reads.exists_items_of_readElements h
      exact ⟨s, ⟨s, by rw [opens], items⟩, rfl⟩
    · exact (stopWrongType_ne_ok h).elim

end Reads

theorem IsCode.isValue {n : UInt32} {v : Text} (h : IsCode n v) : IsValue v :=
  h ▸ .scalar (.numeral (spells_toDigits n.toNat))

theorem IsNull.isValue {v : Text} (h : IsNull v) : IsValue v :=
  h ▸ .scalar (.word List.mem_cons_self)

theorem Quoted.isValue {t v : Text} (h : Quoted t v) : IsValue v :=
  .scalar (.literal h.isLiteral)

theorem isValue_of_elements {Spells : α → Text → Prop} {as : List α} {s : Text}
    (items : Items Spells ']' true as s) (values : ∀ a ∈ as, ∀ v, Spells a v → IsValue v) :
    IsValue ('[' :: s) :=
  isValue_of_items .list items fun a member v spells =>
    ⟨([], v), rfl, .none, values a member v spells⟩

end ProtoPrep.Json
