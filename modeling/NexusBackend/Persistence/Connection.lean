import NexusBackend.Persistence.AuditView
import NexusBackend.Persistence.SecuritiesQuery

/-!
The connection behind the readers that show nothing where the database fails: it may be lost, and
it does not take every text.
-/
namespace NexusBackend

open Python

/-- An exception that the readers name. -/
abbrev DatabaseError : Type := { e : Exn // e.isInstance Worker.databaseErrors = true }

structure Connection where
  lost : Option DatabaseError

namespace Connection

variable (c : Connection)

/-- What a query with the texts among its arguments returns. -/
def answer {α : Type} (texts : List Text) (rows : Except Exn α) : Except Exn α :=
  match c.lost with
  | some e => .error e.val
  | none => if ∀ s ∈ texts, Storable s then rows else raise postgresError

/-- The block around the query. -/
def guarded {α : Type} (rows : Except Exn (List α)) : Except Exn (List α) :=
  tryExcept rows Worker.databaseErrors fun _ => .ok []

/-- The database is up and takes the texts. -/
def Answers (texts : List Text) : Prop := c.lost = none ∧ ∀ s ∈ texts, Storable s

instance (texts : List Text) : Decidable (c.Answers texts) :=
  inferInstanceAs (Decidable (_ ∧ _))

theorem guarded_answer {α : Type} (texts : List Text) (rows : List α) :
    guarded (c.answer texts (.ok rows)) = .ok (if c.Answers texts then rows else []) := by
  by_cases hanswers : c.Answers texts
  · rw [if_pos hanswers, answer, hanswers.1]
    exact congrArg guarded (if_pos hanswers.2)
  · rw [if_neg hanswers, answer]
    cases hlost : c.lost with
    | some e => exact tryExcept_caught _ e.property
    | none =>
        have htexts : ¬ ∀ s ∈ texts, Storable s := fun h => hanswers ⟨hlost, h⟩
        exact congrArg guarded (if_neg htexts)

end Connection
end NexusBackend
