import XeusPywrap.Kernel.Isolation

/-!
# XeusPywrap.Kernel.Replies

Replies, as a front end sees them: what the reply to an execute request has to
be, which replies a kernel has delivered, and where the coroutines stand that
still owe one.

`record_*` say how these change when something done for a request is recorded;
they are all the two modules about replies need to know about the log.
-/

namespace XeusPywrap

variable {V : Type}

/-- The reply to an execute request whose user call ended with the outcome. -/
def Libraries.Answers (lib : Libraries) : Outcome → Json → Prop
  | .returned .none, reply => reply = lib.pyCreateSuccessfulReply
  | .returned (.json v), reply => reply = v
  | .returned .unconvertible, reply => lib.IsErrorReply reply
  | .raised e, reply =>
      if e.isException then ∃ tb, reply = lib.createErrorReply e.name e.str tb
      else lib.IsErrorReply reply

/-- What was done for a request. -/
def Kernel.eventsOf (k : Kernel V) (i : Nat) : List (Event V) :=
  k.log.filterMap fun p => if p.1 = i then some p.2 else none

/-- All replies the kernel has delivered, in order, with their requests. -/
def Kernel.delivered (k : Kernel V) : List (Nat × Json) := deliveries (k.log.map Prod.snd)

/-- The replies the callback of a request has delivered. -/
def Kernel.repliesTo (k : Kernel V) (i : Nat) : List Json :=
  k.delivered.filterMap fun p => if p.1 = i then some p.2 else none

/-- The status of a task, if it is the coroutine that answers the request `i`. -/
def Task.statusFor (i : Nat) (t : Task V) : Option TaskStatus :=
  match t.kind with
  | .wrapped cb _ => if cb = i then some t.status else none
  | .user => none

/-- Where the coroutines stand that answer a request. -/
def Kernel.coroutinesOf (k : Kernel V) (i : Nat) : List TaskStatus :=
  k.tasks.filterMap (Task.statusFor i)

theorem deliveries_map_snd (i : Nat) (l : List (Event V)) :
    deliveries ((l.map fun e => (i, e)).map Prod.snd) = deliveries l := by
  simp [List.map_map, Function.comp_def]

theorem Kernel.record_delivered (k : Kernel V) (owner : Nat) (w : World V) :
    (k.record owner w).delivered = k.delivered ++ deliveries w.log := by
  rw [delivered, record, List.map_append, deliveries_append, deliveries_map_snd]
  rfl

/-- Of the tasks code made, those count that are coroutines of the request. -/
theorem filterMap_statusFor_spawned (owner i : Nat) (spawned : List (NewTask V)) :
    (spawned.map (NewTask.toTask owner)).filterMap (Task.statusFor i) =
      ((coroutines spawned).filter fun cb => cb = i).map fun _ => .created := by
  induction spawned with
  | nil => rfl
  | cons t spawned ih =>
      rw [List.map_cons, List.filterMap_cons, ih]
      obtain ⟨kind, context⟩ := t
      cases kind with
      | user => simp [NewTask.toTask, Task.statusFor, coroutines]
      | wrapped cb args =>
          by_cases h : cb = i <;> simp [NewTask.toTask, Task.statusFor, coroutines, h]

theorem Kernel.record_coroutinesOf (k : Kernel V) (owner i : Nat) (w : World V) :
    (k.record owner w).coroutinesOf i = k.coroutinesOf i ++
      ((coroutines w.spawned).filter fun cb => cb = i).map fun _ => .created := by
  rw [coroutinesOf, record, List.filterMap_append, filterMap_statusFor_spawned]
  rfl

end XeusPywrap
