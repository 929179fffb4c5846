import Deadwood.Failure

/-!
# The log

A noted computation leaves records behind, also when it fails.  Its result does
not depend on them: `Noted.result` takes noted computations to plain ones.
-/

namespace Deadwood

/-- How much a record matters. -/
inductive Level where
  | debug
  | info
  | warning
  | error
  deriving DecidableEq, Repr

namespace Level

def name : Level → String
  | debug => "DEBUG"
  | info => "INFO"
  | warning => "WARNING"
  | error => "ERROR"

/-- The place of a level among the levels. -/
def rank : Level → Nat
  | debug => 0
  | info => 1
  | warning => 2
  | error => 3

/-- Whether a level is at least another. -/
def atLeast (level least : Level) : Bool := least.rank ≤ level.rank

end Level

/-- How much is logged. -/
inductive Verbosity where
  | quiet
  | normal
  | verbose
  deriving DecidableEq, Repr

namespace Verbosity

def name : Verbosity → String
  | quiet => "quiet"
  | normal => "normal"
  | verbose => "verbose"

/-- The verbosity of a given name. -/
def ofName? (name : Text) : Option Verbosity := [quiet, normal, verbose].find? fun v => (v.name : Text) = name

/-- The least level that is logged. -/
def level : Verbosity → Level
  | quiet => .error
  | normal => .warning
  | verbose => .debug

end Verbosity

/-- What was noted, and by which part of the program. -/
structure Record where
  level : Level
  source : Text
  message : Text
  deriving DecidableEq, Repr

namespace Record

/-- The name above all sources. -/
def program : Text := "deadref"

/-- The full name of a source; names below the program's stand as they are. -/
def sourceName (name : Text) : Text :=
  if name = program || Text.startsWith name (program ++ ".") then name else program ++ "." ++ name

/-- A record as a line of a log file. -/
def line (record : Record) : Text :=
  let level := record.level.name
  (level ++ String.ofList (List.replicate (8 - level.length) ' ') : String) ++ (" " : Text) ++ record.source ++ ": " ++
    record.message

end Record

/-- A computation with the records that it left. -/
structure Noted (α : Type) where
  log : List Record
  result : Except Failure α

namespace Noted

variable {α β : Type}

protected def pure (value : α) : Noted α := { log := [], result := .ok value }

protected def bind (first : Noted α) (next : α → Noted β) : Noted β :=
  match first.result with
  | .ok value => { log := first.log ++ (next value).log, result := (next value).result }
  | .error failure => { log := first.log, result := .error failure }

instance : Monad Noted where
  pure := Noted.pure
  bind := Noted.bind

/-- Leaves records. -/
def note (records : List Record) : Noted Unit := { log := records, result := .ok () }

/-- A plain computation, without records. -/
def lift (result : Except Failure α) : Noted α := { log := [], result }

/-- A computation that fails only by faults. -/
def liftFault (result : Except Fault α) : Noted α := lift (result.mapError Failure.fault)

/-- The outcome of a computation as a value, so that more can be done after a failure. -/
def outcome (first : Noted α) : Noted (Except Failure α) := { log := first.log, result := .ok first.result }

instance : MonadExceptOf Failure Noted where
  throw failure := { log := [], result := .error failure }
  tryCatch first next := match first.result with
    | .ok _ => first
    | .error failure => { log := first.log ++ (next failure).log, result := (next failure).result }

@[simp] theorem result_pure (value : α) : (pure value : Noted α).result = .ok value := rfl

@[simp] theorem result_bind (first : Noted α) (next : α → Noted β) :
    (first >>= next).result = first.result.bind fun value => (next value).result := by
  change (Noted.bind first next).result = _
  unfold Noted.bind
  cases first.result <;> rfl

@[simp] theorem result_note (records : List Record) : (note records).result = .ok () := rfl

@[simp] theorem result_lift (result : Except Failure α) : (lift result).result = result := rfl

end Noted

end Deadwood
