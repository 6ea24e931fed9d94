import KeyCodec.Model.Report
import KeyCodec.Record.Reader
import KeyCodec.Value.Stream

/-!
# Verdicts

What came of checking a part of an input.  A rejected part does not stop the check of the others:
their rows are put together.  Only a fault that is no value fault ends the whole check at once.
-/

namespace KeyCodec

/-- What came of checking a part of an input. -/
inductive Verdict (α : Type) where
  | accepted (a : α)
  | rejected (rows : List Row)
  | failed (f : Fault)

namespace Verdict

def combine {α β γ : Type} (f : α → β → γ) : Verdict α → Verdict β → Verdict γ
  | failed e, _ => failed e
  | accepted _, failed e => failed e
  | rejected _, failed e => failed e
  | accepted a, accepted b => accepted (f a b)
  | accepted _, rejected rows => rejected rows
  | rejected rows, accepted _ => rejected rows
  | rejected rows, rejected more => rejected (rows ++ more)

def map {α β : Type} (f : α → β) : Verdict α → Verdict β
  | accepted a => accepted (f a)
  | rejected rows => rejected rows
  | failed e => failed e

def under {α : Type} (item : PathItem) : Verdict α → Verdict α
  | rejected rows => rejected (rows.map fun row => { row with path := item :: row.path })
  | v => v

def ofRows : List Row → Verdict Unit
  | [] => accepted ()
  | rows => rejected rows

end Verdict

/-- A verdict, the notices on the way, and the streams read so far. -/
structure Step (α : Type) where
  verdict : Verdict α
  notices : List Notice
  drains : Drains

namespace Step

def of {α : Type} (drains : Drains) (verdict : Verdict α) : Step α :=
  ⟨verdict, [], drains⟩

def map {α β : Type} (f : α → β) (s : Step α) : Step β :=
  ⟨s.verdict.map f, s.notices, s.drains⟩

def under {α : Type} (item : PathItem) (s : Step α) : Step α :=
  { s with verdict := s.verdict.under item }

/-- One step after another, on different parts; a failure ends the check. -/
def andThen {α β γ : Type} (f : α → β → γ) (s : Step α) (next : Drains → Step β) : Step γ :=
  match s.verdict with
  | .failed e => ⟨.failed e, s.notices, s.drains⟩
  | verdict =>
    let t := next s.drains
    ⟨verdict.combine f t.verdict, s.notices ++ t.notices, t.drains⟩

end Step
end KeyCodec
