import ProtoPrep.Text.Basic

/-!
# Log records

A record has a level and a message. A log shows the records whose level is within
its bound and drops the others; the clock of a line is supplied by whoever prints it.
-/

namespace ProtoPrep

inductive Level where
  | error
  | warn
  | info
  | debug
  | trace
deriving DecidableEq, Repr

namespace Level

def all : List Level :=
  [error, warn, info, debug, trace]

def name : Level → String
  | error => "error"
  | warn => "warn"
  | info => "info"
  | debug => "debug"
  | trace => "trace"

/-- The name shown where a configuration is described. -/
def title : Level → String
  | error => "Error"
  | warn => "Warn"
  | info => "Info"
  | debug => "Debug"
  | trace => "Trace"

def label : Level → String
  | error => "ERROR"
  | warn => "WARN"
  | info => "INFO"
  | debug => "DEBUG"
  | trace => "TRACE"

def tag : Level → String
  | error => "ERROR"
  | warn => "WARN "
  | info => "INFO "
  | debug => "DEBUG"
  | trace => "TRACE"

def colour : Level → Nat
  | error => 31
  | warn => 33
  | info => 32
  | debug => 36
  | trace => 35

def rank : Level → Nat
  | error => 1
  | warn => 2
  | info => 3
  | debug => 4
  | trace => 5

/-- Whether a log bounded by `bound` shows this level. Without a bound it shows nothing. -/
def within (level : Level) : Option Level → Bool
  | none => false
  | some bound => level.rank ≤ bound.rank

def ofName? (name : Text) : Option Level :=
  all.find? fun level => level.name.toList = name

/-- The level of a name in which the case of ASCII letters does not count. -/
def ofNameAnyCase? (name : Text) : Option Level :=
  ofName? (name.map Char.toLower)

theorem ofName?_name (level : Level) : ofName? level.name.toList = some level := by
  cases level <;> decide

end Level

structure Record where
  level : Level
  message : String
deriving DecidableEq, Repr

/-- The line that shows a record, written at the given clock time. -/
def Record.line (clock : String) (record : Record) : String :=
  "\x1b[1;" ++ toString record.level.colour ++ "m" ++ clock ++ " " ++ record.level.tag ++ " " ++
    record.message ++ "\x1b[0m\n"

end ProtoPrep
