import Mathlib.Data.List.Forall2
import ProtoPrep.Proofs.Json.Reader

/-!
# Objects with known keys

An object is read member by member, and what a key means may depend on what was read
before. Where each known key fills a part of its own, and none may come twice, what
the members give in the end does not depend on their order: it is told, for each
key, by the list of the values that stand under it.
-/

namespace ProtoPrep.Json

variable {α σ : Type}

/-- The written forms of a member, which is a key and the text of its value. -/
def IsMember (m : Text × Text) (item : Text) : Prop :=
  ∃ literal before after, Quoted m.1 literal ∧ IsSpacing before ∧ IsSpacing after ∧
    item = literal ++ (before ++ ':' :: (after ++ m.2))

theorem IsMember.intro {key body before after v : Text} (written : Written Escape key body)
    (spacing : IsSpacing before) (spacing' : IsSpacing after) :
    IsMember (key, v) ('"' :: (body ++ ['"']) ++ (before ++ ':' :: (after ++ v))) :=
  ⟨_, before, after, ⟨body, written, rfl⟩, spacing, spacing', rfl⟩

/-- The texts of the values under a key. -/
def valuesOf (key : Text) (members : List (Text × Text)) : List Text :=
  (members.filter fun m => m.1 = key).map Prod.snd

/-- What the texts of its values give for a part: nothing if there are none, and what the text
spells if there is one. Two texts give nothing that a part could hold. -/
def Gives (Spells : α → Text → Prop) (texts : List Text) (part : Option α) : Prop :=
  List.Forall₂ Spells part.toList texts

theorem gives_nil {Spells : α → Text → Prop} {part : Option α} :
    Gives Spells [] part ↔ part = none := by
  cases part <;> simp [Gives]

theorem gives_singleton {Spells : α → Text → Prop} {v : Text} {part : Option α} :
    Gives Spells [v] part ↔ ∃ a, part = some a ∧ Spells a v := by
  cases part <;> simp [Gives]

/-- What the members make of a part that may have been read before. -/
def Supplies (Spells : α → Text → Prop) (key : Text) (members : List (Text × Text)) :
    Option α → Option α → Prop
  | none, part => Gives Spells (valuesOf key members) part
  | some a, part => some a = part ∧ valuesOf key members = []

section Supplies

variable {Spells : α → Text → Prop} {key k v : Text} {members : List (Text × Text)}
  {part part' : Option α}

theorem valuesOf_self : valuesOf key ((key, v) :: members) = v :: valuesOf key members := by
  simp [valuesOf]

theorem valuesOf_other (h : k ≠ key) :
    valuesOf key ((k, v) :: members) = valuesOf key members := by
  simp [valuesOf, h]

theorem supplies_nil : Supplies Spells key [] part part' ↔ part = part' := by
  cases part with
  | some a => simp [Supplies, valuesOf]
  | none => simp [Supplies, valuesOf, gives_nil, eq_comm]

theorem supplies_other (h : k ≠ key) :
    Supplies Spells key ((k, v) :: members) part part' ↔
      Supplies Spells key members part part' := by
  cases part <;> simp only [Supplies, Gives, valuesOf_other h]

/-- A part is set once, and the later members must leave it alone. -/
theorem supplies_self :
    Supplies Spells key ((key, v) :: members) part part' ↔
      part = none ∧ ∃ a, Spells a v ∧ Supplies Spells key members (some a) part' := by
  cases part with
  | some a => simp [Supplies, valuesOf_self]
  | none => cases part' <;> simp [Supplies, Gives, valuesOf_self]

end Supplies

/-- The members take a state to another one, each by a step that its key and its value allow. -/
def Steps (Step : σ → Text → σ → Text → Prop) : σ → List (Text × Text) → σ → Prop
  | state, [], last => state = last
  | state, (key, v) :: members, last =>
    ∃ next, Step state key next v ∧ Steps Step next members last

/-- What a key means: a reader of the values that allow a step, or a fault if there is no step. -/
inductive MemberReads (Step : σ → Text → Prop) : Except Fault (Reader σ) → Prop where
  | reads {reader : Reader σ} : Reads reader Step → MemberReads Step (.ok reader)
  | refuses {fault : Fault} : (∀ next v, ¬ Step next v) → MemberReads Step (.error fault)

/-- A part that may be read once. -/
theorem MemberReads.part {reader : Reader α} {Spells : α → Text → Prop}
    (reads : Reads reader Spells) (part : Option α) (f : α → σ) (fault : Fault) :
    MemberReads (fun next v => part = none ∧ ∃ a, f a = next ∧ Spells a v)
      (if part.isSome then .error fault else .ok (reader.map f)) := by
  cases part with
  | some a => exact .refuses fun next v h => nomatch h.1
  | none =>
    have mapped := reads.map f
    exact .reads ⟨fun h => mapped.opens h.2, fun h => mapped.complete h.2, fun h => by
      obtain ⟨space, v, spacing, spells, whole⟩ := mapped.sound h
      exact ⟨space, v, spacing, ⟨rfl, spells⟩, whole⟩⟩

theorem nextKey_closing (first : Bool) {space : Text} (spacing : IsSpacing space) (rest : Text) :
    nextKey first (space ++ '\x7d' :: rest) = .ok (.closed rest) := by
  rw [nextKey, skipSpace_append spacing, skipSpace_cons (by decide)]
  exact if_pos rfl

/-- The first key needs no comma, and a later one has one in front. -/
theorem nextKey_gap {first : Bool} {gap : Text} (gapped : Gap first gap) (t : Text) :
    nextKey first (gap ++ '"' :: t) = .ok (.item t) := by
  cases gapped with
  | first spacing =>
    rw [nextKey, skipSpace_append spacing, skipSpace_cons (by decide)]
    rfl
  | later spacing spacing' =>
    rw [nextKey, List.append_assoc, skipSpace_append spacing, List.cons_append,
      skipSpace_cons (by decide)]
    simp only [skipSpace_append spacing', skipSpace_cons (show '"' ∉ spaces by decide)]
    rfl

theorem exists_space_of_nextKey {first : Bool} {t rest : Text}
    (h : nextKey first t = .ok (.closed rest)) :
    ∃ space, IsSpacing space ∧ t = space ++ '\x7d' :: rest := by
  obtain ⟨space, c, r, spacing, rfl, read⟩ := exists_token h
  split at read
  · rename_i closes
    cases read
    exact ⟨space, spacing, by rw [closes]⟩
  · repeat' split at read
    all_goals cases read

theorem exists_gap_of_nextKey {first : Bool} {t u : Text}
    (h : nextKey first t = .ok (.item u)) : ∃ gap, Gap first gap ∧ t = gap ++ '"' :: u := by
  obtain ⟨space, c, r, spacing, rfl, read⟩ := exists_token h
  split at read
  · cases read
  · split at read
    · rename_i isFirst
      rw [isFirst]
      split at read
      · rename_i quote
        cases read
        exact ⟨space, .first spacing, by rw [quote]⟩
      · cases read
    · rename_i notFirst
      rw [Bool.not_eq_true] at notFirst
      rw [notFirst]
      split at read
      · rename_i comma
        obtain ⟨space', d, after, spacing', rfl, read'⟩ := exists_token read
        split at read'
        · rename_i quote
          cases read'
          exact ⟨_, .later spacing spacing', by rw [comma, quote]; simp⟩
        · split at read' <;> cases read'
      · cases read

theorem readColon_append {space : Text} (spacing : IsSpacing space) (rest : Text) :
    readColon (space ++ ':' :: rest) = .ok rest := by
  rw [readColon, skipSpace_append spacing, skipSpace_cons (by decide)]
  exact if_pos rfl

theorem exists_space_of_readColon {t rest : Text} (h : readColon t = .ok rest) :
    ∃ space, IsSpacing space ∧ t = space ++ ':' :: rest := by
  obtain ⟨space, c, r, spacing, rfl, read⟩ := exists_token h
  split at read
  · rename_i colon
    cases read
    exact ⟨space, spacing, by rw [colon]⟩
  · cases read

variable {member : σ → Text → Except Fault (Reader σ)}

theorem readMembers_closed {first : Bool} {state : σ} {t rest : Text}
    (h : nextKey first t = .ok (.closed rest)) :
    readMembers member first state t = .ok (state, rest) := by
  rw [readMembers]
  grind

theorem readMembers_item {first : Bool} {state next : σ} {t u key afterKey afterColon rest : Text}
    {value : Reader σ} (h : nextKey first t = .ok (.item u))
    (hk : readString u = .ok (key, afterKey)) (hm : member state key = .ok value)
    (hc : readColon afterKey = .ok afterColon) (hv : value.read afterColon = .ok (next, rest)) :
    readMembers member first state t = readMembers member false next rest := by
  rw [readMembers]
  grind

variable {Step : σ → Text → σ → Text → Prop}

/-- By induction on the layout, with the state after the members read so far. -/
theorem readMembers_append (reads : ∀ state key, MemberReads (Step state key) (member state key))
    {first : Bool} {state last : σ} {members : List (Text × Text)} {s : Text}
    (items : Items IsMember '\x7d' first members s) (steps : Steps Step state members last)
    (rest : Text) : readMembers member first state (s ++ rest) = .ok (last, rest) := by
  induction items generalizing state with
  | closed spacing =>
    rw [List.append_assoc, show state = last from steps]
    exact readMembers_closed (nextKey_closing _ spacing rest)
  | @item first gap _ t m members gapped isMember items ih =>
    obtain ⟨next, step, steps⟩ := steps
    obtain ⟨literal, before, after, ⟨body, written, rfl⟩, spacing, spacing', rfl⟩ := isMember
    have allowed := reads state m.1
    cases read : member state m.1 with
    | error fault =>
      -- A key that is refused has no step, and the members make one.
      rw [read] at allowed
      cases allowed with
      | refuses none => exact absurd step (none next m.2)
    | ok value =>
      rw [read] at allowed
      cases allowed with
      | reads reads =>
        have stops := items.delimited (List.mem_cons_of_mem _ List.mem_cons_self) rest
        simp only [List.append_assoc, List.cons_append, List.nil_append]
        rw [readMembers_item (nextKey_gap gapped _) (readString_append written _) read
          (readColon_append spacing _) (reads.complete step spacing' stops)]
        exact ih steps

/-- By the recursion of the reader: each turn takes one member off the text and makes one step. -/
theorem exists_members_of_readMembers
    (reads : ∀ state key, MemberReads (Step state key) (member state key)) {first : Bool}
    {state last : σ} {t rest : Text} (h : readMembers member first state t = .ok (last, rest)) :
    ∃ members s, Items IsMember '\x7d' first members s ∧ Steps Step state members last ∧
      t = s ++ rest := by
  fun_induction readMembers member first state t with
  | case1 => cases h
  | case2 first state t r closed =>
    cases h
    obtain ⟨space, spacing, rfl⟩ := exists_space_of_nextKey closed
    exact ⟨[], _, .closed spacing, rfl, by simp⟩
  | case3 => cases h
  | case4 => cases h
  | case5 => cases h
  | case6 => cases h
  | case7 first state t u item key afterKey quoted value known afterColon colon next r read ih =>
    have allowed := reads state key
    rw [known] at allowed
    cases allowed with
    | reads reads =>
      obtain ⟨gap, gapped, rfl⟩ := exists_gap_of_nextKey item
      obtain ⟨body, written, rfl⟩ := exists_body_of_readString quoted
      obtain ⟨before, spacing, rfl⟩ := exists_space_of_readColon colon
      obtain ⟨after, v, spacing', step, rfl⟩ := reads.sound read
      obtain ⟨members, s, items, steps, rfl⟩ := ih h
      have isMember := IsMember.intro (v := v) written spacing spacing'
      exact ⟨(key, v) :: members, _, .item gapped isMember items, ⟨next, step, steps⟩, by simp⟩

theorem isValue_of_members {members : List (Text × Text)} {s : Text}
    (items : Items IsMember '\x7d' true members s) (values : ∀ m ∈ members, IsValue m.2) :
    IsValue ('\x7b' :: s) :=
  isValue_of_items .object items fun m member item isMember => by
    obtain ⟨literal, before, after, quoted, spacing, spacing', rfl⟩ := isMember
    exact ⟨(literal ++ (before ++ ':' :: after), m.2), by simp [IsPart],
      .key quoted.isLiteral spacing spacing', values m member⟩

theorem Gives.isValue {Spells : α → Text → Prop} {texts : List Text} {part : Option α}
    (h : Gives Spells texts part) (values : ∀ a v, Spells a v → IsValue v) :
    ∀ v ∈ texts, IsValue v := by
  rw [Gives] at h
  generalize part.toList = as at h
  induction h with
  | nil => exact nofun
  | cons spells _ ih => exact List.forall_mem_cons.mpr ⟨values _ _ spells, ih⟩

theorem mem_valuesOf {m : Text × Text} {members : List (Text × Text)} (h : m ∈ members) :
    m.2 ∈ valuesOf m.1 members :=
  List.mem_map.mpr ⟨m, List.mem_filter.mpr ⟨h, by simp⟩, rfl⟩

end ProtoPrep.Json
