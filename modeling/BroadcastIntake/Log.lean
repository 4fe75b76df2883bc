/-!
# Log records

What the intake tells about its work.  A computation that tells something is `Logged`: it carries
its result together with the records it made, in order.  Nothing in the library reads the records
back, so a result never depends on them.
-/

namespace BroadcastIntake

/-- How urgent a record is. -/
inductive LogLevel where
  | debug
  | info
  | warning
  | error
  | critical
  deriving DecidableEq, Repr

namespace LogLevel

def name : LogLevel → String
  | debug => "DEBUG"
  | info => "INFO"
  | warning => "WARNING"
  | error => "ERROR"
  | critical => "CRITICAL"

/-- The weight of a level: the more urgent, the larger. -/
def weight : LogLevel → Nat
  | debug => 10
  | info => 20
  | warning => 30
  | error => 40
  | critical => 50

/-- All levels, from the least urgent on. -/
def all : List LogLevel := [debug, info, warning, error, critical]

def ofName? (name : String) : Option LogLevel :=
  all.find? fun level => level.name = name

end LogLevel

/-- One record: how urgent it is, which part of the intake made it, and its text. -/
structure LogRecord where
  level : LogLevel
  logger : String
  message : String
  deriving DecidableEq, Repr

/-- A result and the records that were made on the way to it. -/
structure Logged (α : Type) where
  value : α
  records : List LogRecord
  deriving Repr

namespace Logged

/-- A result without records. -/
def quiet {α : Type} (value : α) : Logged α :=
  ⟨value, []⟩

/-- One record and no result. -/
def tell (level : LogLevel) (logger message : String) : Logged Unit :=
  ⟨(), [⟨level, logger, message⟩]⟩

/-- A computation followed by one that uses its result. -/
def andThen {α β : Type} (x : Logged α) (f : α → Logged β) : Logged β :=
  let y := f x.value
  ⟨y.value, x.records ++ y.records⟩

instance : Monad Logged where
  pure := quiet
  bind := andThen

@[simp] theorem value_pure {α : Type} (a : α) : (pure a : Logged α).value = a := rfl

@[simp] theorem value_bind {α β : Type} (x : Logged α) (f : α → Logged β) :
    (x >>= f).value = (f x.value).value := rfl

@[simp] theorem value_map {α β : Type} (f : α → β) (x : Logged α) :
    (f <$> x).value = f x.value := rfl

@[simp] theorem value_tell (level : LogLevel) (logger message : String) :
    (tell level logger message).value = () := rfl

@[simp] theorem value_quiet {α : Type} (a : α) : (quiet a).value = a := rfl

@[simp] theorem value_ite {α : Type} (c : Prop) [Decidable c] (x y : Logged α) :
    (if c then x else y).value = if c then x.value else y.value :=
  apply_ite Logged.value c x y

end Logged

end BroadcastIntake
