/-!
# Log records

What the library has to say on its way is kept as data: a computation gives its value together with
the records it wrote (`Logged`). The value never depends on the log, which is what
`Logged.value_bind` says, so a statement about a value can forget the records.
-/

namespace DocTree

/-- How important a record is. -/
inductive LogLevel where
  | debug
  | info
  | warning
  | error
  | critical
  deriving DecidableEq, Repr

/-- The name of a level. -/
def LogLevel.name : LogLevel → String
  | debug => "DEBUG"
  | info => "INFO"
  | warning => "WARNING"
  | error => "ERROR"
  | critical => "CRITICAL"

/-- The rank of a level: a more important one is greater. -/
def LogLevel.rank : LogLevel → Nat
  | debug => 10
  | info => 20
  | warning => 30
  | error => 40
  | critical => 50

/-- One record of the log. -/
structure LogRecord where
  level : LogLevel
  /-- The part of the program that wrote the record. -/
  source : String
  message : String
  deriving DecidableEq, Repr

/-- A value and the records written on the way to it, in order. -/
structure Logged (α : Type) where
  value : α
  log : List LogRecord
  deriving Repr

namespace Logged

variable {α β : Type}

instance : Monad Logged where
  pure a := ⟨a, []⟩
  bind x f := ⟨(f x.value).value, x.log ++ (f x.value).log⟩

@[simp] theorem value_pure (a : α) : (pure a : Logged α).value = a := rfl

@[simp] theorem log_pure (a : α) : (pure a : Logged α).log = [] := rfl

@[simp] theorem value_bind (x : Logged α) (f : α → Logged β) :
    (x >>= f).value = (f x.value).value := rfl

@[simp] theorem log_bind (x : Logged α) (f : α → Logged β) :
    (x >>= f).log = x.log ++ (f x.value).log := rfl

/-- Write a record. -/
def write (r : LogRecord) : Logged Unit := ⟨(), [r]⟩

end Logged

/-- A computation that may fail and keeps a log; what was written before a failure stays. -/
abbrev Traced (ε α : Type) := ExceptT ε Logged α

namespace Traced

variable {ε ε' α : Type}

/-- The outcome of a computation, its log forgotten. -/
def outcome (x : Traced ε α) : Except ε α := (ExceptT.run x).value

/-- The records of a computation. -/
def records (x : Traced ε α) : List LogRecord := (ExceptT.run x).log

/-- A computation with a given outcome that writes nothing. -/
def ofExcept (x : Except ε α) : Traced ε α := ExceptT.mk ⟨x, []⟩

/-- Write a record. -/
def write (level : LogLevel) (source message : String) : Traced ε Unit :=
  ExceptT.mk ⟨.ok (), [⟨level, source, message⟩]⟩

/-- Report failures in another way. -/
def mapError (f : ε → ε') (x : Traced ε α) : Traced ε' α :=
  ExceptT.mk ⟨(match x.outcome with
    | .ok a => .ok a
    | .error e => .error (f e)), x.records⟩

end Traced

end DocTree
