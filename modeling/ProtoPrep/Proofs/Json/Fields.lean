import Mathlib.Data.List.Pairwise
import ProtoPrep.Json.Fields
import ProtoPrep.Proofs.Json.Object

/-!
# Records read part by part

A record is told by its parts: each field sets a part of the state, sets no other part,
and the parts are all that there is to a state. Then what the members of an object or
the elements of a list give in the end can be said part by part, and the reader of the
record accepts exactly the texts of which this can be said.
-/

namespace ProtoPrep.Json

variable {σ : Type}

/-- A part of a state, with the key and the written forms of what it may hold. -/
structure Part (σ : Type) where
  {α : Type}
  key : String
  get : σ → Option α
  set : σ → α → σ
  reader : Reader α
  Spells : α → Text → Prop
  reads : Reads reader Spells
  isValue {a : α} {v : Text} : Spells a v → IsValue v
  get_set (state : σ) (a : α) : get (set state a) = some a

namespace Part

def field (p : Part σ) : Field σ :=
  ⟨p.key, fun state => (p.get state).isSome, fun state => p.reader.map (p.set state)⟩

/-- Two parts with keys of their own, of which neither is set along with the other. -/
structure Apart (p q : Part σ) : Prop where
  keys : p.key.toList ≠ q.key.toList
  get_set_left (state : σ) (a : p.α) : q.get (p.set state a) = q.get state
  get_set_right (state : σ) (a : q.α) : p.get (q.set state a) = p.get state

instance : Std.Symm (Apart (σ := σ)) where
  symm _ _ h := ⟨h.keys.symm, h.get_set_right, h.get_set_left⟩

/-- The values of a list set the parts in their order and lead from one state to another. -/
def Fills : List (Part σ) → σ → List Text → σ → Prop
  | _, state, [], last => state = last
  | [], _, _ :: _, _ => False
  | p :: ps, state, v :: vs, last => ∃ a, p.Spells a v ∧ Fills ps (p.set state a) vs last

/-- Each part holds what the value at its place gives. -/
def Listed : List (Part σ) → List Text → σ → Prop
  | [], _, _ => True
  | p :: ps, vs, last => Gives p.Spells vs.head?.toList (p.get last) ∧ Listed ps vs.tail last

theorem listed_nil_iff {ps : List (Part σ)} {last : σ} :
    Listed ps [] last ↔ ∀ p ∈ ps, p.get last = none := by
  induction ps with
  | nil => simp [Listed]
  | cons p ps ih =>
    rw [Listed, List.forall_mem_cons]
    exact and_congr gives_nil ih

theorem Listed.isValue {ps : List (Part σ)} {vs : List Text} {last : σ} (h : Listed ps vs last)
    (short : vs.length ≤ ps.length) : ∀ v ∈ vs, IsValue v := by
  induction ps generalizing vs with
  | nil =>
    rw [List.length_eq_zero_iff.mp (Nat.le_zero.mp short)]
    exact nofun
  | cons p ps ih =>
    cases vs with
    | nil => exact nofun
    | cons v vs =>
      obtain ⟨a, -, spells⟩ := gives_singleton.mp h.1
      exact List.forall_mem_cons.mpr ⟨p.isValue spells, ih h.2 (Nat.le_of_succ_le_succ short)⟩

/-- By induction on the fields that are left, with the state that the earlier ones have made. -/
theorem readFields_append {ps : List (Part σ)} {first : Bool} {state last : σ} {vs : List Text}
    {s : Text} (items : Items Eq ']' first vs s) (fills : Fills ps state vs last) (rest : Text) :
    readFields (ps.map field) first state (s ++ rest) = .ok (last, rest) := by
  induction ps generalizing first state vs s with
  | nil =>
    cases items with
    | closed spacing =>
      obtain rfl : state = last := fills
      rw [List.map_nil, readFields, List.append_assoc, List.singleton_append,
        closeList_append spacing]
      rfl
    | item => exact fills.elim
  | cons p ps ih =>
    rw [List.map_cons, readFields]
    cases items with
    | closed spacing =>
      obtain rfl : state = last := fills
      rw [List.append_assoc, List.singleton_append, nextElement_closing first spacing]
    | item gapped same items =>
      subst same
      obtain ⟨a, spells, fills⟩ := fills
      have spelled : ∃ b, p.set state b = p.set state a ∧ p.Spells b _ := ⟨a, rfl, spells⟩
      have reads := p.reads.map (p.set state)
      rw [List.append_assoc, List.append_assoc, reads.nextElement_append gapped spelled]
      simp only [field, reads.read_append spelled (items.delimited List.mem_cons_self rest)]
      exact ih items fills

theorem exists_items_of_readFields {ps : List (Part σ)} {first : Bool} {state last : σ}
    {t rest : Text} (h : readFields (ps.map field) first state t = .ok (last, rest)) :
    ∃ vs s, Items Eq ']' first vs s ∧ Fills ps state vs last ∧ t = s ++ rest := by
  induction ps generalizing first state t with
  | nil =>
    obtain ⟨r, closed, same⟩ := ok_of_map h
    cases same
    obtain ⟨space, spacing, rfl⟩ := exists_space_of_closeList closed
    exact ⟨[], _, .closed spacing, rfl, by simp⟩
  | cons p ps ih =>
    rw [List.map_cons, readFields] at h
    split at h
    · cases h
    · rename_i r closed
      cases h
      obtain ⟨space, spacing, rfl⟩ := exists_space_of_nextElement closed
      exact ⟨[], _, .closed spacing, rfl, by simp⟩
    · rename_i u item
      obtain ⟨gap, gapped, rfl⟩ := exists_gap_of_nextElement item
      split at h
      · cases h
      · rename_i next r read
        obtain ⟨space, v, spacing, ⟨a, rfl, spells⟩, rfl⟩ :=
          (p.reads.map (p.set state)).sound read
        obtain ⟨vs, s, items, fills, rfl⟩ := ih h
        exact ⟨v :: vs, _, .item (gapped.append spacing) rfl items, ⟨a, spells, fills⟩, by simp⟩

end Part

/-- The parts of a state of which none is set at the start. -/
structure Parts (σ : Type) where
  list : List (Part σ)
  start : σ
  unset : ∀ p ∈ list, p.get start = none
  apart : list.Pairwise Part.Apart
  ext {s s' : σ} : (∀ p ∈ list, p.get s = p.get s') → s = s'

namespace Parts

variable (parts : Parts σ)

def fields : List (Field σ) :=
  parts.list.map Part.field

def keys : List Text :=
  parts.list.map fun p => p.key.toList

/-- What a key and the text of its value make of a state. -/
def Step (state : σ) (key : Text) : σ → Text → Prop :=
  match parts.list.find? fun p => key = p.key.toList with
  | none => fun next v => state = next ∧ IsValue v
  | some p => fun next v => p.get state = none ∧ ∃ a, p.set state a = next ∧ p.Spells a v

/-- The written forms of a record, told by the parts of the state at its end. -/
inductive Written (last : σ) : Text → Prop where
  | list {vs : List Text} {s : Text} : Items Eq ']' true vs s → vs.length ≤ parts.list.length →
      Part.Listed parts.list vs last → Written last ('[' :: s)
  | object {members : List (Text × Text)} {s : Text} : Items IsMember '\x7d' true members s →
      (∀ p ∈ parts.list, Gives p.Spells (valuesOf p.key.toList members) (p.get last)) →
      (∀ m ∈ members, m.1 ∉ parts.keys → IsValue m.2) → Written last ('\x7b' :: s)

variable {parts} {state last : σ}

theorem apart_of_ne {p q : Part σ} (hp : p ∈ parts.list) (hq : q ∈ parts.list) (ne : p ≠ q) :
    p.Apart q :=
  parts.apart.forall hp hq ne

theorem apart_of_split {done ps : List (Part σ)} {p : Part σ}
    (whole : parts.list = done ++ p :: ps) :
    (∀ q ∈ done, q.Apart p) ∧ ∀ q ∈ ps, p.Apart q := by
  obtain ⟨-, later, across⟩ := List.pairwise_append.mp (whole ▸ parts.apart)
  exact ⟨fun q member => across q member p List.mem_cons_self, (List.pairwise_cons.mp later).1⟩

/-- A key that is known sets its part, which nothing has set before. -/
theorem step_of_mem {p : Part σ} (member : p ∈ parts.list) {next : σ} {v : Text} :
    parts.Step state p.key.toList next v ↔
      p.get state = none ∧ ∃ a, p.set state a = next ∧ p.Spells a v := by
  rw [Step]
  cases found : parts.list.find? fun q => p.key.toList = q.key.toList with
  | none => exact absurd (decide_eq_true rfl) (List.find?_eq_none.mp found p member)
  | some q =>
    have same : p.key.toList = q.key.toList := by simpa using List.find?_some found
    obtain rfl : p = q := by
      by_contra ne
      exact (apart_of_ne member (List.mem_of_find?_eq_some found) ne).keys same
    rfl

/-- A key that is not known leaves the state alone, whatever value of the grammar follows. -/
theorem step_of_not_mem {key : Text} (unknown : key ∉ parts.keys) {next : σ} {v : Text} :
    parts.Step state key next v ↔ state = next ∧ IsValue v := by
  have missing : (parts.list.find? fun p => key = p.key.toList) = none := by
    rw [List.find?_eq_none]
    intro p member same
    exact unknown (List.mem_map.mpr ⟨p, member, (of_decide_eq_true same).symm⟩)
  rw [Step, missing]

/-- What the key means to the reader is the step that it allows. -/
theorem memberOf_reads (state : σ) (key : Text) :
    MemberReads (parts.Step state key) (memberOf parts.fields state key) := by
  have found : (parts.fields.find? fun field => key = field.key.toList) =
      (parts.list.find? fun p => key = p.key.toList).map Part.field := List.find?_map ..
  rw [Step, memberOf, found]
  cases parts.list.find? fun p => key = p.key.toList with
  | none =>
    have skipped := Reads.skip.map fun _ => state
    simp only [exists_const] at skipped
    exact .reads skipped
  | some p => exact .part p.reads (p.get state) (p.set state) _

/-- A member whose key is known sets its part, and the other parts are left to the later members. -/
theorem supplied_known_iff {p : Part σ} (member : p ∈ parts.list) {v : Text}
    {members : List (Text × Text)} :
    (∀ q ∈ parts.list, Supplies q.Spells q.key.toList ((p.key.toList, v) :: members) (q.get state)
      (q.get last)) ↔
    p.get state = none ∧ ∃ a, p.Spells a v ∧ ∀ q ∈ parts.list,
      Supplies q.Spells q.key.toList members (q.get (p.set state a)) (q.get last) := by
  constructor
  · intro supplied
    obtain ⟨unset, a, spells, later⟩ := supplies_self.mp (supplied p member)
    refine ⟨unset, a, spells, fun q other => ?_⟩
    by_cases same : p = q
    · subst same
      rwa [p.get_set]
    · have apart := apart_of_ne member other same
      rw [apart.get_set_left, ← supplies_other apart.keys]
      exact supplied q other
  · rintro ⟨unset, a, spells, supplied⟩ q other
    by_cases same : p = q
    · subst same
      have later := supplied p member
      rw [p.get_set] at later
      exact supplies_self.mpr ⟨unset, a, spells, later⟩
    · have apart := apart_of_ne member other same
      rw [supplies_other apart.keys, ← apart.get_set_left state a]
      exact supplied q other

/-- A member with another key sets no part. -/
theorem supplied_unknown_iff {key : Text} (unknown : key ∉ parts.keys) {v : Text}
    {members : List (Text × Text)} :
    (∀ p ∈ parts.list, Supplies p.Spells p.key.toList ((key, v) :: members) (p.get state)
      (p.get last)) ↔
    ∀ p ∈ parts.list, Supplies p.Spells p.key.toList members (p.get state) (p.get last) := by
  refine forall₂_congr fun p member => supplies_other ?_
  rintro rfl
  exact unknown (List.mem_map_of_mem member)

/-- The members make the parts that their values give, whatever their order. -/
theorem steps_iff {members : List (Text × Text)} : Steps parts.Step state members last ↔
    (∀ p ∈ parts.list,
      Supplies p.Spells p.key.toList members (p.get state) (p.get last)) ∧
    ∀ m ∈ members, m.1 ∉ parts.keys → IsValue m.2 := by
  induction members generalizing state with
  | nil =>
    simp only [Steps, supplies_nil, List.not_mem_nil, false_implies, implies_true, and_true]
    constructor
    · rintro rfl p _
      rfl
    · exact parts.ext
  | cons m members ih =>
    obtain ⟨key, v⟩ := m
    simp only [Steps, ih, List.forall_mem_cons]
    by_cases known : key ∈ parts.keys
    · obtain ⟨p, member, rfl⟩ := List.mem_map.mp known
      rw [supplied_known_iff member]
      constructor
      · rintro ⟨_, step, supplied, others⟩
        obtain ⟨unset, a, rfl, spells⟩ := (step_of_mem member).mp step
        exact ⟨⟨unset, a, spells, supplied⟩, fun unknown => absurd known unknown, others⟩
      · rintro ⟨⟨unset, a, spells, supplied⟩, -, others⟩
        exact ⟨p.set state a, (step_of_mem member).mpr ⟨unset, a, rfl, spells⟩, supplied, others⟩
    · rw [supplied_unknown_iff known]
      constructor
      · rintro ⟨_, step, supplied, others⟩
        obtain ⟨rfl, value⟩ := (step_of_not_mem known).mp step
        exact ⟨supplied, fun _ => value, others⟩
      · rintro ⟨supplied, value, others⟩
        exact ⟨state, (step_of_not_mem known).mpr ⟨rfl, value known⟩, supplied, others⟩

/-- The values of a list give the parts at their places and leave the parts before them. -/
theorem fills_iff {done ps : List (Part σ)} (whole : parts.list = done ++ ps)
    (unset : ∀ p ∈ ps, p.get state = none) {vs : List Text} : Part.Fills ps state vs last ↔
      vs.length ≤ ps.length ∧ Part.Listed ps vs last ∧ ∀ p ∈ done, p.get state = p.get last := by
  induction ps generalizing done state vs with
  | nil =>
    cases vs with
    | nil =>
      rw [List.append_nil] at whole
      constructor
      · rintro rfl
        exact ⟨Nat.le_refl 0, trivial, fun _ _ => rfl⟩
      · rintro ⟨-, -, same⟩
        exact parts.ext (whole ▸ same)
    | cons v vs => simp [Part.Fills]
  | cons p ps ih =>
    cases vs with
    | nil =>
      rw [Part.Fills, Part.listed_nil_iff]
      constructor
      · rintro rfl
        exact ⟨Nat.zero_le _, unset, fun _ _ => rfl⟩
      · rintro ⟨-, empty, same⟩
        refine parts.ext fun q member => ?_
        obtain before | behind := List.mem_append.mp (whole ▸ member)
        · exact same q before
        · rw [unset q behind, empty q behind]
    | cons v vs =>
      have whole' : parts.list = (done ++ [p]) ++ ps := by rw [whole, List.append_cons]
      obtain ⟨before, behind⟩ := apart_of_split whole
      have unset' : ∀ a, ∀ q ∈ ps, q.get (p.set state a) = none := fun a q member => by
        rw [(behind q member).get_set_left]
        exact unset q (List.mem_cons_of_mem p member)
      rw [Part.Fills, Part.Listed, List.head?_cons, List.tail_cons, Option.toList_some,
        gives_singleton, List.length_cons, List.length_cons, Nat.succ_le_succ_iff]
      constructor
      · rintro ⟨a, spells, fills⟩
        obtain ⟨short, listed, same⟩ := (ih whole' (unset' a)).mp fills
        have here := same p (List.mem_append_right done List.mem_cons_self)
        rw [p.get_set] at here
        refine ⟨short, ⟨⟨a, here.symm, spells⟩, listed⟩, fun q member => ?_⟩
        rw [← same q (List.mem_append_left [p] member), (before q member).get_set_right]
      · rintro ⟨short, ⟨⟨a, here, spells⟩, listed⟩, same⟩
        refine ⟨a, spells, (ih whole' (unset' a)).mpr ⟨short, listed, fun q member => ?_⟩⟩
        obtain earlier | last := List.mem_append.mp member
        · rw [(before q earlier).get_set_right]
          exact same q earlier
        · obtain rfl := List.mem_singleton.mp last
          rw [q.get_set, here]

theorem Written.opens {v : Text} (h : parts.Written last v) : OpensItem v := by
  cases h <;> exact ⟨_, _, rfl, by decide, by decide⟩

theorem Written.isValue {v : Text} (h : parts.Written last v) : IsValue v := by
  cases h with
  | list items short listed =>
    have values := listed.isValue short
    exact isValue_of_elements items fun v member _ same => same ▸ values v member
  | @object members s items given others =>
    refine isValue_of_members items fun m member => ?_
    by_cases known : m.1 ∈ parts.keys
    · obtain ⟨p, part, key⟩ := List.mem_map.mp known
      exact (given p part).isValue (fun _ _ => p.isValue) m.2 (key ▸ mem_valuesOf member)
    · exact others m member known

theorem fills_start_iff {vs : List Text} : Part.Fills parts.list parts.start vs last ↔
    vs.length ≤ parts.list.length ∧ Part.Listed parts.list vs last := by
  rw [fills_iff (List.nil_append _).symm parts.unset]
  simp

theorem steps_start_iff {members : List (Text × Text)} :
    Steps parts.Step parts.start members last ↔
      (∀ p ∈ parts.list, Gives p.Spells (valuesOf p.key.toList members) (p.get last)) ∧
      ∀ m ∈ members, m.1 ∉ parts.keys → IsValue m.2 := by
  rw [steps_iff]
  refine and_congr_left fun _ => forall₂_congr fun p member => ?_
  rw [parts.unset p member, Supplies]

/-- A record is read from its written forms, if both of its forms are finished alike. -/
theorem reads {α : Type} {want : String} {ofList ofObject : σ → Except Fault α}
    {Makes : σ → α → Prop} (list : ∀ {state a}, ofList state = .ok a ↔ Makes state a)
    (object : ∀ {state a}, ofObject state = .ok a ↔ Makes state a) :
    Reads (Reader.record want parts.fields parts.start ofList ofObject) fun a v =>
      ∃ last, parts.Written last v ∧ Makes last a := by
  refine Reads.ofToken (fun _ => rfl) ?_ ?_ ?_
  · rintro a v ⟨last, written, -⟩
    exact written.opens
  · rintro a c s rest ⟨last, written, makes⟩ -
    cases written with
    | list items short listed =>
      have read := Part.readFields_append items (fills_start_iff.mpr ⟨short, listed⟩) rest
      rw [if_pos rfl, fields, read]
      simp only [bind, Except.bind, finish, list.mpr makes]
    | object items given others =>
      have steps := steps_start_iff.mpr ⟨given, others⟩
      have read := readMembers_append memberOf_reads items steps rest
      rw [if_neg (by decide), if_pos rfl, read]
      simp only [bind, Except.bind, finish, object.mpr makes]
  · intro a c r rest h
    split at h
    · rename_i opens
      obtain ⟨⟨last, after⟩, read, made⟩ := ok_of_bind h
      obtain ⟨makes, rfl⟩ := finish_rest made
      obtain ⟨vs, s, items, fills, rfl⟩ := Part.exists_items_of_readFields read
      obtain ⟨short, listed⟩ := fills_start_iff.mp fills
      exact ⟨s, ⟨last, opens ▸ .list items short listed, list.mp makes⟩, rfl⟩
    · split at h
      · rename_i opens
        obtain ⟨⟨last, after⟩, read, made⟩ := ok_of_bind h
        obtain ⟨makes, rfl⟩ := finish_rest made
        obtain ⟨members, s, items, steps, rfl⟩ := exists_members_of_readMembers memberOf_reads read
        obtain ⟨given, others⟩ := steps_start_iff.mp steps
        exact ⟨s, ⟨last, opens ▸ .object items given others, object.mp makes⟩, rfl⟩
      · exact (stopWrongType_ne_ok h).elim

end Parts

end ProtoPrep.Json
