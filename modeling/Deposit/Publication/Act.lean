import Deposit.Metrics
import Deposit.Publication.Journal

/-!
Acts: what may call services, may use the machine, may measure, and may fail.

An act takes a session to a result and the session after it. What it did stays in
the history whether it fails or not.
-/

namespace Deposit

/-- One thing that happens in a session. -/
inductive Happening where
  /-- A service was called. -/
  | called (event : Event)
  /-- A measurement was made. -/
  | measured (measurement : Measurement)
  /-- Room for a scratch file was asked for. -/
  | scratchMade (answer : Except FileError Unit)
  /-- The file of a license was read. -/
  | licenseRead (path : String) (answer : Except FileError Bytes)
  /-- An identifier was drawn. -/
  | drawn (pid : Pid)

namespace Happening

/-- The call that was made, if it was one. -/
def event? : Happening → Option Event
  | .called event => some event
  | _ => none

/-- The measurement that was made, if it was one. -/
def measurement? : Happening → Option Measurement
  | .measured measurement => some measurement
  | _ => none

/-- The identifier that was drawn, if it was one. -/
def pid? : Happening → Option Pid
  | .drawn pid => some pid
  | _ => none

end Happening

/-- What has happened so far, in order. -/
structure Session where
  history : List Happening

namespace Session

/-- Before anything has happened. -/
def start : Session := ⟨[]⟩

/-- The session after more has happened. -/
def extend (s : Session) (more : List Happening) : Session := ⟨s.history ++ more⟩

/-- The calls to services. -/
def journal (s : Session) : Journal := s.history.filterMap Happening.event?

/-- The measurements. -/
def log (s : Session) : MeasurementLog := s.history.filterMap Happening.measurement?

/-- The objects that the repository was given. -/
def creations (s : Session) : List CreateCall := s.journal.creations

end Session

/-- What gives an `α`, or fails with an `ε`. -/
def Act (ε α : Type) : Type := Session → Except ε α × Session

namespace Act

variable {ε ε' α β : Type}

/-- The act that does nothing and gives a value. -/
def give (a : α) : Act ε α := fun s => (.ok a, s)

/-- The act that does nothing and fails. -/
def fail (e : ε) : Act ε α := fun s => (.error e, s)

/-- One act, and unless it fails another one on what it gives. -/
def andThen (act : Act ε α) (next : α → Act ε β) : Act ε β := fun s =>
  match act s with
  | (.ok a, s) => next a s
  | (.error e, s) => (.error e, s)

instance : Monad (Act ε) where
  pure := give
  bind := andThen

/-- The act that gives a result at once. -/
def ofExcept (result : Except ε α) : Act ε α := fun s => (result, s)

/-- An act whose failures are put in other words. -/
def rename (f : ε → ε') (act : Act ε α) : Act ε' α := fun s =>
  match act s with
  | (.ok a, s) => (.ok a, s)
  | (.error e, s) => (.error (f e), s)

/-- An act whose failure is a result like any other. -/
def attempt (act : Act ε α) : Act ε' (Except ε α) := fun s =>
  let (result, s) := act s
  (.ok result, s)

/-- Adds a measurement. -/
def measure (measurement : Measurement) : Act ε Unit := fun s =>
  (.ok (), s.extend [.measured measurement])

/-- Asks for something: the answer depends on what has happened, and stays in the
history. -/
def ask (answer : Session → Except ε α) (record : Except ε α → Happening) : Act ε α := fun s =>
  let result := answer s
  (result, s.extend [record result])

/-- Calls a service, which answers in view of the calls so far. -/
def call (answer : Journal → Except ε α) (event : Except ε α → Event) : Act ε α :=
  ask (fun s => answer s.journal) fun result => .called (event result)

/-- What depends on what has happened so far. -/
def consult (f : Session → α) : Act ε α := fun s => (.ok (f s), s)

/-- One act for each element, in order, until one fails. -/
def each (act : α → Act ε β) : List α → Act ε (List β)
  | [] => pure []
  | a :: rest => do
    let b ← act a
    let bs ← each act rest
    pure (b :: bs)

end Act

end Deposit
