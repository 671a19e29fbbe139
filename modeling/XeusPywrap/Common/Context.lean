import Mathlib.Tactic.Common

/-!
# Common.Context

Context variables, in the manner of Python's `contextvars`: a *context* gives
values to some of its variables, the code that runs in a context reads and sets
variables there, and a new unit of concurrency starts from a *copy* of the
context that was current when it was created. A copy is a value: no later `set`
in the original shows in it.
-/

/-- A context: the value of every variable that has been set. -/
def Context (κ ν : Type) := κ → Option ν

namespace Context

variable {κ ν : Type} [DecidableEq κ]

/-- The context in which no variable has been set. -/
def empty : Context κ ν := fun _ => none

/-- `ContextVar.get` without a default; `none` stands for `LookupError`. -/
def lookup (c : Context κ ν) (x : κ) : Option ν := c x

/-- `ContextVar.set`. -/
def set (c : Context κ ν) (x : κ) (v : ν) : Context κ ν := fun y => if y = x then some v else c y

@[simp] theorem lookup_set_same (c : Context κ ν) (x : κ) (v : ν) :
    (c.set x v).lookup x = some v := by
  simp [lookup, set]

@[simp] theorem lookup_set_of_ne (c : Context κ ν) {x y : κ} (v : ν) (h : y ≠ x) :
    (c.set x v).lookup y = c.lookup y := by
  simp [lookup, set, h]

end Context
