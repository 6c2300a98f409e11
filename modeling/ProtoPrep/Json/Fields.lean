import ProtoPrep.Json.Brackets

/-!
# Records in JSON

A record is written as an object or as a list. The object has its members in any order,
each field at most once, and members with other keys are passed over; the list has the
values of the first fields. Either way the record is read in parts: what has been read
so far is a state, and a field says how the state changes by its value. At the end the
state may still lack something.
-/

namespace ProtoPrep.Json

/-- A field of a record, in a state of which it may have been read. -/
structure Field (σ : Type) where
  key : String
  isSet : σ → Bool
  fill : σ → Reader σ

variable {σ α : Type}

/-- What a key means for a record with the given fields. -/
def memberOf (fields : List (Field σ)) (state : σ) (key : Text) : Except Fault (Reader σ) :=
  match fields.find? fun field => key = field.key.toList with
  | none => .ok (Reader.skip.map fun _ => state)
  | some field =>
    if field.isSet state then .error (.duplicateField field.key) else .ok (field.fill state)

def readFields : List (Field σ) → Bool → σ → Text → Except Stop (σ × Text)
  | [], _, state, t => (closeList t).map fun rest => (state, rest)
  | field :: fields, first, state, t =>
    match nextElement first t with
    | .error stop => .error stop
    | .ok (.closed rest) => .ok (state, rest)
    | .ok (.item u) =>
      match (field.fill state).read u with
      | .error stop => .error stop
      | .ok (next, rest) => readFields fields false next rest

theorem readFields_shorter {fields : List (Field σ)} {first : Bool} {state last : σ}
    {t rest : Text} (h : readFields fields first state t = .ok (last, rest)) :
    rest.length < t.length := by
  induction fields generalizing first state t with
  | nil =>
    obtain ⟨r, closed, same⟩ := ok_of_map h
    cases same
    exact closeList_shorter closed
  | cons field fields ih =>
    rw [readFields] at h
    split at h
    · cases h
    · rename_i r closed
      cases h
      exact nextElement_closed_shorter closed
    · rename_i u item
      split at h
      · cases h
      · rename_i next r read
        have first_part := nextElement_length_le item
        have second_part := (field.fill state).shorter read
        have third_part := ih h
        omega

/-- What the state at the end of a record makes. -/
def finish (make : σ → Except Fault α) : σ × Text → Except Stop (α × Text)
  | (state, rest) =>
    match make state with
    | .ok a => .ok (a, rest)
    | .error fault => stopAt fault rest

theorem finish_rest {make : σ → Except Fault α} {state : σ} {t rest : Text} {a : α}
    (h : finish make (state, t) = .ok (a, rest)) : make state = .ok a ∧ t = rest := by
  rw [finish] at h
  split at h
  · rename_i made
    cases h
    exact ⟨made, rfl⟩
  · cases h

/-- A record. What the state makes may depend on how it was written. -/
def Reader.record (want : String) (fields : List (Field σ)) (start : σ)
    (ofList ofObject : σ → Except Fault α) : Reader α :=
  .ofToken (fun c rest =>
      if c = '[' then readFields fields true start rest >>= finish ofList
      else if c = '\x7b' then readMembers (memberOf fields) true start rest >>= finish ofObject
      else stopWrongType want (c :: rest)) <| by
    intro c t a rest h
    split at h
    · obtain ⟨⟨state, r⟩, read, made⟩ := ok_of_bind h
      obtain ⟨-, rfl⟩ := finish_rest made
      exact Nat.le_of_lt (readFields_shorter read)
    · split at h
      · obtain ⟨⟨state, r⟩, read, made⟩ := ok_of_bind h
        obtain ⟨-, rfl⟩ := finish_rest made
        exact Nat.le_of_lt (readMembers_shorter read)
      · exact (stopWrongType_ne_ok h).elim

end ProtoPrep.Json
