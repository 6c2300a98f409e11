import ProtoPrep.Files.Tree
import ProtoPrep.Log

/-!
# Scripts

A script is what a run does, as a tree: it ends with a result or a failure, or asks
for a file to be read or written, or writes to the log or sets its bound, and goes
on from the answer. `run` answers from a world of files and a log. The files may be
kept in any storage, a tree if nothing else is said. A record is shown if it is within
the bound of the log at that time.
-/

namespace ProtoPrep

/-- What a run does, ending in `α` or failing with `ε`. -/
inductive Script (ε α : Type) where
  | done (a : α)
  | fail (e : ε)
  | read (path : Text) (next : Except Files.Cause Text → Script ε α)
  | write (path content : Text) (next : Except Files.Cause Unit → Script ε α)
  | log (record : Record) (next : Script ε α)
  | bound (level : Level) (next : Script ε α)

namespace Script

variable {ε ε' α β : Type}

def bind : Script ε α → (α → Script ε β) → Script ε β
  | done a, f => f a
  | fail e, _ => fail e
  | read path next, f => read path fun answer => (next answer).bind f
  | write path content next, f => write path content fun answer => (next answer).bind f
  | log record next, f => log record (next.bind f)
  | bound level next, f => bound level (next.bind f)

def mapFailure (f : ε → ε') : Script ε α → Script ε' α
  | done a => done a
  | fail e => fail (f e)
  | read path next => read path fun answer => (next answer).mapFailure f
  | write path content next => write path content fun answer => (next answer).mapFailure f
  | log record next => log record (next.mapFailure f)
  | bound level next => bound level (next.mapFailure f)

instance : Monad (Script ε) where
  pure := done
  bind := bind

def ofExcept : Except ε α → Script ε α
  | .ok a => done a
  | .error e => fail e

def logAll (records : List Record) : Script ε Unit :=
  records.foldr log (done ())

end Script

/-- The files and the log that a run works on. -/
structure World (σ : Type := Files.Tree) where
  files : σ
  bound : Option Level
  shown : List Record

namespace World

variable {σ : Type}

def record (world : World σ) (r : Record) : World σ :=
  if r.level.within world.bound then { world with shown := world.shown ++ [r] } else world

end World

namespace Script

variable {ε α σ : Type}

def run [Files.Storage σ] : Script ε α → World σ → Except ε α × World σ
  | done a, world => (.ok a, world)
  | fail e, world => (.error e, world)
  | read path next, world => (next (Files.Storage.readText world.files path)).run world
  | write path content next, world =>
    match Files.Storage.writeText world.files path content with
    | .ok files => (next (.ok ())).run { world with files := files }
    | .error cause => (next (.error cause)).run world
  | log r next, world => next.run (world.record r)
  | bound level next, world => next.run { world with bound := some level }

end Script

end ProtoPrep
