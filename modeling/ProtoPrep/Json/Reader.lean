import ProtoPrep.Json.Pass

/-!
# Readers of wanted values

A reader takes a value of a wanted form off the beginning of a text. A value of
another form is read through before the reader stops behind it, unless it is a list
or an object: then the reader stops before it.
-/

namespace ProtoPrep.Json

/-- A reader of values. What it leaves is shorter than what it was given. -/
structure Reader (α : Type) where
  read : Text → Except Stop (α × Text)
  shorter : ∀ {t a rest}, read t = .ok (a, rest) → rest.length < t.length

namespace Reader

variable {α β : Type}

def map (f : α → β) (reader : Reader α) : Reader β where
  read t := (reader.read t).map fun (a, rest) => (f a, rest)
  shorter := by
    intro t b rest h
    obtain ⟨⟨a, r⟩, ha, hp⟩ := ok_of_map h
    cases hp
    exact reader.shorter ha

def skip : Reader Unit where
  read t := (passValue t).map fun rest => ((), rest)
  shorter := by
    intro t a rest h
    obtain ⟨r, hr, hp⟩ := ok_of_map h
    cases hp
    exact passValue_shorter hr

end Reader

def readNumber (t : Text) : Except Stop (Number × Text) :=
  match Numeral.read .endInValue t with
  | .error stop => .error stop
  | .ok (numeral, rest) =>
    match numeral.value with
    | .ok n => .ok (n, rest)
    | .error unread =>
      let places := (numeral.exponent.map Prod.snd).getD []
      stopAt .numberOutOfRange (places.drop (places.length - unread) ++ rest)

theorem readNumber_shorter {t rest : Text} {n : Number} (h : readNumber t = .ok (n, rest)) :
    rest.length < t.length := by
  rw [readNumber] at h
  split at h
  · cases h
  · rename_i numeral after hn
    split at h
    · cases h
      exact Numeral.read_shorter hn
    · cases h

/-- Stop at a value that is not of the wanted form. A list or an object is not read; any other value
is read first, and may be at fault itself. -/
def stopWrongType {α : Type} (want : String) : Text → Except Stop α
  | [] => stopAt .endInValue []
  | c :: rest =>
    let wrong (shape : Shape) (rest : Text) : Except Stop α := stopAt (.wrongType shape want) rest
    if c = 'n' then expectWord "ull".toList rest >>= wrong .null
    else if c = 't' then expectWord "rue".toList rest >>= wrong (.boolean true)
    else if c = 'f' then expectWord "alse".toList rest >>= wrong (.boolean false)
    else if c = '"' then readString rest >>= fun (t, rest) => wrong (.string t) rest
    else if c = '[' then wrong .sequence (c :: rest)
    else if c = '\x7b' then wrong .map (c :: rest)
    else if c = '-' || c.isDigit then
      readNumber (c :: rest) >>= fun (n, rest) => wrong (.number n) rest
    else stopIn .valueExpected (c :: rest)

theorem stopWrongType_ne_ok {α : Type} {want : String} {t : Text} {a : α} :
    stopWrongType want t ≠ .ok a := by
  cases t with
  | nil => exact stopAt_ne_ok
  | cons c rest =>
    simp only [stopWrongType]
    split
    · exact bind_ne_ok fun _ => stopAt_ne_ok
    · split
      · exact bind_ne_ok fun _ => stopAt_ne_ok
      · split
        · exact bind_ne_ok fun _ => stopAt_ne_ok
        · split
          · exact bind_ne_ok fun _ => stopAt_ne_ok
          · split
            · exact stopAt_ne_ok
            · split
              · exact stopAt_ne_ok
              · split
                · exact bind_ne_ok fun _ => stopAt_ne_ok
                · exact stopIn_ne_ok

namespace Reader

variable {α : Type}

/-- A reader that looks at the first character of the next token. -/
def ofToken (read : Char → Text → Except Stop (α × Text))
    (shorter : ∀ {c t a rest}, read c t = .ok (a, rest) → rest.length ≤ t.length) : Reader α where
  read t := match skipSpace t with
    | [] => stopAt .endInValue []
    | c :: rest => read c rest
  shorter := by
    intro t a rest h
    have bound := skipSpace_length_le t
    split at h
    · cases h
    · rename_i c r hs
      rw [hs] at bound
      exact Nat.lt_of_le_of_lt (shorter h) bound

def string : Reader Text :=
  ofToken (fun c rest =>
      if c = '"' then readString rest else stopWrongType "a string" (c :: rest)) <| by
    intro c t a rest h
    split at h
    · exact Nat.le_of_lt (readString_shorter h)
    · exact (stopWrongType_ne_ok h).elim

/-- A number that must be an integer of 32 bits. -/
def ofNumber (rest : Text) : Number → Except Stop (UInt32 × Text)
  | .natural n =>
    if n < UInt32.size then .ok (UInt32.ofNat n, rest)
    else stopAt (.wrongValue (.number (.natural n)) "u32") rest
  | .negative n => stopAt (.wrongValue (.number (.negative n)) "u32") rest
  | .float x => stopAt (.wrongType (.number (.float x)) "u32") rest

theorem ofNumber_rest {rest after : Text} {n : Number} {code : UInt32}
    (h : ofNumber rest n = .ok (code, after)) : after = rest := by
  simp only [ofNumber] at h
  split at h
  · split at h
    · simp only [Except.ok.injEq, Prod.mk.injEq] at h
      exact h.2.symm
    · cases h
  · cases h
  · cases h

def code : Reader UInt32 :=
  ofToken (fun c rest =>
      if c = '-' || c.isDigit then
        match readNumber (c :: rest) with
        | .error stop => .error stop
        | .ok (n, after) => ofNumber after n
      else stopWrongType "u32" (c :: rest)) <| by
    intro c t a rest h
    split at h
    · split at h
      · cases h
      · rename_i n after hn
        rw [ofNumber_rest h]
        exact Nat.le_of_lt_succ (readNumber_shorter hn)
    · exact (stopWrongType_ne_ok h).elim

def unit : Reader Unit :=
  ofToken (fun c rest =>
      if c = 'n' then (expectWord "ull".toList rest).map fun after => ((), after)
      else stopWrongType "unit" (c :: rest)) <| by
    intro c t a rest h
    split at h
    · obtain ⟨after, ha, hp⟩ := ok_of_map h
      cases hp
      have := expectWord_length ha
      omega
    · exact (stopWrongType_ne_ok h).elim

end Reader

end ProtoPrep.Json
