import ProtoPrep.Config.Reader
import ProtoPrep.Proofs.Json.Object

/-!
# The written forms of levels

A level is written as its name, or as an object with the name as its only key and
null as the value. The reader accepts exactly these forms.
-/

namespace ProtoPrep.Level

open Json

/-- The written forms of a level. -/
inductive Spells (level : Level) : Text → Prop where
  | name {v : Text} : Quoted level.name.toList v → Spells level v
  | key {v s : Text} : IsNull v →
      Items IsMember '\x7d' true [(level.name.toList, v)] s → Spells level ('\x7b' :: s)

theorem ofName?_eq_some_iff {name : Text} {level : Level} :
    ofName? name = some level ↔ name = level.name.toList := by
  constructor
  · intro h
    have same : level.name.toList = name := by simpa using List.find?_some h
    exact same.symm
  · rintro rfl
    exact ofName?_name level

theorem readName_append {level : Level} {body : Text}
    (written : Written Escape level.name.toList body) (rest : Text) :
    readName (body ++ '"' :: rest) = .ok (level, rest) := by
  simp only [readName, readString_append written, ofName?_name]

theorem exists_body_of_readName {level : Level} {t rest : Text}
    (h : readName t = .ok (level, rest)) :
    ∃ body, Written Escape level.name.toList body ∧ t = body ++ '"' :: rest := by
  rw [readName] at h
  split at h
  · cases h
  · rename_i name after read
    split at h
    · rename_i found known
      cases h
      rw [ofName?_eq_some_iff] at known
      exact known ▸ exists_body_of_readString read
    · cases h

theorem closeSingle_append {space : Text} (spacing : IsSpacing space) (rest : Text) :
    closeSingle (space ++ '\x7d' :: rest) = .ok rest := by
  rw [closeSingle, skipSpace_append spacing, skipSpace_cons (by decide)]
  exact if_pos rfl

theorem exists_space_of_closeSingle {t rest : Text} (h : closeSingle t = .ok rest) :
    ∃ space, IsSpacing space ∧ t = space ++ '\x7d' :: rest := by
  obtain ⟨space, c, r, spacing, rfl, read⟩ := exists_token h
  split at read
  · rename_i closes
    cases read
    exact ⟨space, spacing, by rw [closes]⟩
  · cases read

theorem readKey_append {level : Level} {v s : Text} (null : IsNull v)
    (items : Items IsMember '\x7d' true [(level.name.toList, v)] s) (rest : Text) :
    readKey (s ++ rest) = .ok (level, rest) := by
  cases items with
  | item gapped isMember items =>
    obtain ⟨_, before, after, ⟨body, written, rfl⟩, spacing, spacing', rfl⟩ := isMember
    cases gapped with
    | first spacing'' =>
      have stops := items.delimited (List.mem_cons_of_mem _ List.mem_cons_self) rest
      cases items with
      | @closed _ space closing =>
        rw [List.append_assoc, List.singleton_append] at stops
        have read : Reader.unit.read (after ++ (v ++ (space ++ '\x7d' :: rest))) =
          .ok ((), space ++ '\x7d' :: rest) := Reads.unit.complete null spacing' stops
        simp only [readKey, List.append_assoc, List.cons_append, List.nil_append,
          skipSpace_append spacing'', skipSpace_cons (show '"' ∉ spaces by decide), if_true,
          readName_append written, readColon_append spacing, bind, Except.bind, read,
          closeSingle_append closing, pure, Except.pure]

theorem exists_items_of_readKey {level : Level} {t rest : Text}
    (h : readKey t = .ok (level, rest)) : ∃ v s, IsNull v ∧
      Items IsMember '\x7d' true [(level.name.toList, v)] s ∧ t = s ++ rest := by
  obtain ⟨gap, c, r, gapped, rfl, read⟩ := exists_token h
  split at read
  · rename_i quote
    obtain ⟨⟨found, afterName⟩, name, read⟩ := ok_of_bind read
    obtain ⟨afterColon, colon, read⟩ := ok_of_bind read
    obtain ⟨⟨⟨⟩, afterNull⟩, null, read⟩ := ok_of_bind read
    obtain ⟨last, closed, read⟩ := ok_of_bind read
    cases read
    obtain ⟨body, written, rfl⟩ := exists_body_of_readName name
    obtain ⟨before, spacing, rfl⟩ := exists_space_of_readColon colon
    obtain ⟨after, v, spacing', isNull, rfl⟩ := Reads.unit.sound null
    obtain ⟨space, closing, rfl⟩ := exists_space_of_closeSingle closed
    have isMember := IsMember.intro (v := v) written spacing spacing'
    exact ⟨v, _, isNull, .item (.first gapped) isMember (.closed closing), by simp [quote]⟩
  · cases read

/-- A level is read from its two forms and from nothing else. -/
theorem reads : Reads reader Spells := by
  refine Reads.ofToken (fun _ => rfl) ?_ ?_ ?_
  · intro level v spells
    cases spells with
    | name quoted => exact Reads.string.opens quoted
    | key => exact ⟨_, _, rfl, by decide, by decide⟩
  · intro level c w rest spells _
    cases spells with
    | name quoted =>
      obtain ⟨body, written, same⟩ := quoted
      cases same
      rw [if_pos rfl, List.append_assoc]
      exact readName_append written rest
    | key null items =>
      rw [if_neg (by decide), if_pos rfl]
      exact readKey_append null items rest
  · intro level c r rest h
    split at h
    · rename_i quote
      obtain ⟨body, written, rfl⟩ := exists_body_of_readName h
      exact ⟨body ++ ['"'], .name ⟨body, written, by rw [quote]⟩, by simp⟩
    · split at h
      · rename_i opens
        obtain ⟨v, s, null, items, rfl⟩ := exists_items_of_readKey h
        exact ⟨s, opens ▸ .key null items, rfl⟩
      · cases h

theorem Spells.isValue {level : Level} {v : Text} (h : Spells level v) : IsValue v := by
  cases h with
  | name quoted => exact quoted.isValue
  | key null items =>
    exact isValue_of_members items (List.forall_mem_singleton.mpr null.isValue)

end ProtoPrep.Level
