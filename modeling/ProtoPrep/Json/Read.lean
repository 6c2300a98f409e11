import ProtoPrep.Json.Fault

/-!
# Reading off the beginning of a text

A reader takes its part off the beginning of a text and returns what is left, or
stops. Here are the two ways to stop, the white space between tokens, and fixed words.
-/

namespace ProtoPrep.Json

def stopAt {α : Type} (fault : Fault) (rest : Text) : Except Stop α :=
  .error ⟨fault, rest, 0⟩

def stopIn {α : Type} (fault : Fault) (rest : Text) : Except Stop α :=
  .error ⟨fault, rest, 1⟩

theorem stopAt_ne_ok {α : Type} {fault : Fault} {rest : Text} {a : α} :
    stopAt fault rest ≠ .ok a :=
  nofun

theorem stopIn_ne_ok {α : Type} {fault : Fault} {rest : Text} {a : α} :
    stopIn fault rest ≠ .ok a :=
  nofun

theorem bind_ne_ok {α β : Type} {read : Except Stop β} {next : β → Except Stop α} {a : α}
    (h : ∀ b, next b ≠ .ok a) : (read >>= next) ≠ .ok a := by
  cases read with
  | error stop => exact nofun
  | ok b => exact h b

theorem ok_of_bind {ε α β : Type} {read : Except ε β} {next : β → Except ε α} {a : α}
    (h : (read >>= next) = .ok a) : ∃ b, read = .ok b ∧ next b = .ok a := by
  cases read with
  | error e => cases h
  | ok b => exact ⟨b, rfl, h⟩

theorem ok_of_map {ε α β : Type} {x : Except ε α} {f : α → β} {b : β} (h : x.map f = .ok b) :
    ∃ a, x = .ok a ∧ f a = b := by
  cases x with
  | error e => cases h
  | ok a => exact ⟨a, rfl, by simpa [Except.map] using h⟩

theorem ok_of_mapError {ε ε' α : Type} {x : Except ε α} {f : ε → ε'} {a : α}
    (h : x.mapError f = .ok a) : x = .ok a := by
  cases x with
  | error e => cases h
  | ok b =>
    cases h
    rfl

def isSpace (c : Char) : Bool :=
  c = ' ' || c = '\n' || c = '\t' || c = '\r'

/-- The text from its first token on. -/
def skipSpace (t : Text) : Text :=
  t.dropWhile isSpace

theorem skipSpace_length_le (t : Text) : (skipSpace t).length ≤ t.length :=
  (List.dropWhile_suffix isSpace).length_le

def expectWord : Text → Text → Except Stop Text
  | [], t => .ok t
  | _ :: _, [] => stopAt .endInValue []
  | w :: ws, c :: rest => if c = w then expectWord ws rest else stopIn .identExpected (c :: rest)

theorem expectWord_length {word t rest : Text} (h : expectWord word t = .ok rest) :
    rest.length + word.length = t.length := by
  fun_induction expectWord word t with
  | case1 t => cases h; simp
  | case2 => cases h
  | case3 ws c r ih => simp only [List.length_cons]; have := ih h; omega
  | case4 => cases h

end ProtoPrep.Json
