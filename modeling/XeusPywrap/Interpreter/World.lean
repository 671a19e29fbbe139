import XeusPywrap.Common.Context
import XeusPywrap.Python

/-!
# XeusPywrap.Interpreter.World

What the bridge's code runs in. A `World` is the Python context that is current,
the tasks the code has created and the log of everything it did that can be seen
from outside: the calls of overridable methods, the lookups of the request
context, the publications, and the replies handed to a request's callback.

`V` is the type of request contexts. User variables of a Python context take
their values in it as well; nothing below looks at them.

The module ends with the two facts everything about contexts and replies is
derived from: `Extends`, what a piece of code may add to a world whose request
context is set, and its composition.
-/

namespace XeusPywrap

variable {V : Type}

/-! ### Events -/

/-- On whose account something was published: user code called a publishing
method, or the bridge itself reported an error. -/
inductive Source
  | user
  | bridge
  deriving DecidableEq, Repr

/-- The publications of `xeus::xinterpreter`. -/
inductive Publication
  | stream (name text : String)
  | displayData (data metadata transient : Json)
  | updateDisplayData (data metadata transient : Json)
  | executionInput (code : String) (executionCount : Int)
  | executionResult (executionCount : Int) (data metadata : Json)
  | executionError (ename evalue : String) (traceBack : List String)

/-- The arguments of an execute request. -/
structure ExecuteArgs where
  executionCount : Int
  code : String
  silent : Bool
  storeHistory : Bool
  userExpressions : Json
  allowStdin : Bool

/-- A call of a method a subclass of `InterpreterBase` may override, with the
arguments it gets. -/
inductive HookCall
  | execute (args : ExecuteArgs)
  | complete (code : String) (cursorPos : Int)
  | inspect (code : String) (cursorPos detailLevel : Int)
  | isComplete (code : String)
  | shutdown (restart : Bool)

/-- What can be seen of a computation from outside. -/
inductive Event (V : Type)
  | called (hook : HookCall)
  /-- A call of `get_request_context` and what it found; `none` is the
  `LookupError` of a variable that was never set. -/
  | contextRead (src : Source) (found : Option V)
  | published (src : Source) (p : Publication)
  /-- The callback of a request got a reply; `seen` is the request context that
  was visible then. -/
  | delivered (request : Nat) (seen : Option V) (reply : Json)

/-- The replies delivered in a stretch of log, with their requests. -/
def deliveries (log : List (Event V)) : List (Nat × Json) :=
  log.filterMap fun
    | .delivered i _ reply => some (i, reply)
    | _ => none

@[simp] theorem deliveries_nil : deliveries ([] : List (Event V)) = [] := rfl

@[simp] theorem deliveries_append (l l' : List (Event V)) :
    deliveries (l ++ l') = deliveries l ++ deliveries l' :=
  List.filterMap_append

/-- Everything the event tells about the request context agrees with `c`. -/
def Event.Sees (c : V) : Event V → Prop
  | .contextRead _ found => found = some c
  | .delivered _ seen _ => seen = some c
  | _ => True

/-! ### The world -/

/-- What a task runs: the coroutine `wrapped` of `AsyncInterpreterBase`, which
answers the request `cb`, or a coroutine of the user. -/
inductive TaskKind
  | wrapped (cb : Nat) (args : ExecuteArgs)
  | user

/-- A task as `create_task` makes it: with a snapshot of the current context. -/
structure NewTask (V : Type) where
  kind : TaskKind
  context : Context String V

/-- The state of running code. -/
structure World (V : Type) where
  context : Context String V
  spawned : List (NewTask V)
  log : List (Event V)

/-- Code of the bridge. -/
abbrev Bridge (V : Type) := Exec (World V) Fault

/-- The context variable of `request_context_module`. -/
def requestContext : String := "request_context"

/-- The value of the request context in a Python context. -/
abbrev requestContextIn (c : Context String V) : Option V := c.lookup requestContext

/-- Append to the log. -/
def emit (e : Event V) : Bridge V Unit :=
  Exec.update fun w => { w with log := w.log ++ [e] }

/-- `loop.create_task`. -/
def createTask (kind : TaskKind) : Bridge V Unit :=
  Exec.update fun w => { w with spawned := w.spawned ++ [⟨kind, w.context⟩] }

/-- `ContextVar.set` in the current context. -/
def setVariable (x : String) (v : V) : Bridge V Unit :=
  Exec.update fun w => { w with context := w.context.set x v }

/-- `interpreter::set_request_context`. -/
def setRequestContext (c : V) : Bridge V Unit := setVariable requestContext c

/-- `interpreter::get_request_context`. The function is `noexcept`, so the
`LookupError` of an unset variable terminates the process. -/
def getRequestContext (src : Source) : Bridge V V := do
  let w ← Exec.get
  emit (.contextRead src (requestContextIn w.context))
  match requestContextIn w.context with
  | some c => pure c
  | none => Exec.fail .terminate

/-- The publishing functions of `xeus::xinterpreter`, which ask for the request
context to address what they publish. -/
def publish (src : Source) (p : Publication) : Bridge V Unit := do
  let _ ← getRequestContext src
  emit (.published src p)

/-- The reply callback of the request `cb`. -/
def deliver (cb : Nat) (reply : Json) : Bridge V Unit := do
  let w ← Exec.get
  emit (.delivered cb (requestContextIn w.context) reply)

theorem run_deliver (cb : Nat) (reply : Json) (w : World V) :
    (deliver cb reply).run w =
      (.ok (), { w with log := w.log ++ [.delivered cb (requestContextIn w.context) reply] }) :=
  rfl

/-! ### User code -/

/-- A variable of user code; it is not the bridge's. -/
def UserVariable := { x : String // x ≠ requestContext }

/-- What user code does besides computing. -/
inductive UserAct (V : Type)
  | publish (p : Publication)
  | setVariable (x : UserVariable) (v : V)
  | createTask

def UserAct.toBridge : UserAct V → Bridge V Unit
  | .publish p => XeusPywrap.publish .user p
  | .setVariable x v => XeusPywrap.setVariable x.val v
  | .createTask => XeusPywrap.createTask .user

/-- Let the acts of user code happen here. -/
def runActs (acts : List (UserAct V)) : Bridge V Unit := Exec.each UserAct.toBridge acts

/-- One call of a method of user code: what it does, and how it ends. -/
structure UserCall (V : Type) where
  acts : List (UserAct V)
  outcome : Outcome

def UserCall.run (call : UserCall V) : Bridge V PyValue := do
  runActs call.acts
  call.outcome.toExec

/-- One step of a coroutine of user code: what it does, and how it ends, if it
does not suspend at an `await`. -/
structure CoroutineStep (V : Type) where
  acts : List (UserAct V)
  ends : Option Outcome

/-! ### What code adds to a world -/

/-- The requests for which a stretch of created tasks contains a coroutine
`wrapped`. -/
def coroutines (tasks : List (NewTask V)) : List Nat :=
  tasks.filterMap fun t =>
    match t.kind with
    | .wrapped cb _ => some cb
    | .user => none

@[simp] theorem coroutines_append (l l' : List (NewTask V)) :
    coroutines (l ++ l') = coroutines l ++ coroutines l' :=
  List.filterMap_append

/-- `w'` is `w` after code that ran with the request context `c`, handed out the
replies `replies` and created coroutines for the requests `created`: every
lookup saw `c`, every task got a context with `c`, and `c` is still set. -/
structure Extends (c : V) (replies : List (Nat × Json)) (created : List Nat)
    (w w' : World V) : Prop where
  stillSet : requestContextIn w'.context = some c
  log : ∃ new, w'.log = w.log ++ new ∧ (∀ e ∈ new, e.Sees c) ∧ deliveries new = replies
  spawned : ∃ new, w'.spawned = w.spawned ++ new ∧
    (∀ t ∈ new, requestContextIn t.context = some c) ∧ coroutines new = created

namespace Extends

variable {c : V} {w w' w'' : World V} {r r' : List (Nat × Json)} {n n' : List Nat}

theorem refl (h : requestContextIn w.context = some c) : Extends c [] [] w w :=
  ⟨h, ⟨[], by simp⟩, ⟨[], by simp [coroutines]⟩⟩

theorem trans (h : Extends c r n w w') (h' : Extends c r' n' w' w'') :
    Extends c (r ++ r') (n ++ n') w w'' := by
  obtain ⟨l, hl, hsees, hr⟩ := h.log
  obtain ⟨l', hl', hsees', hr'⟩ := h'.log
  obtain ⟨t, ht, hset, hn⟩ := h.spawned
  obtain ⟨t', ht', hset', hn'⟩ := h'.spawned
  refine ⟨h'.stillSet, ⟨l ++ l', ?_, ?_, ?_⟩, ⟨t ++ t', ?_, ?_, ?_⟩⟩
  · rw [hl', hl, List.append_assoc]
  · exact fun e he => (List.mem_append.mp he).elim (hsees e) (hsees' e)
  · rw [deliveries_append, hr, hr']
  · rw [ht', ht, List.append_assoc]
  · exact fun x hx => (List.mem_append.mp hx).elim (hset x) (hset' x)
  · rw [coroutines_append, hn, hn']

/-- Code that does nothing but log one event. -/
theorem emit (h : requestContextIn w.context = some c) {e : Event V} (he : e.Sees c) :
    Extends c (deliveries [e]) [] w { w with log := w.log ++ [e] } :=
  ⟨h, ⟨[e], rfl, by simpa using he, rfl⟩, ⟨[], by simp [coroutines]⟩⟩

end Extends

/-- A lookup of an unset request context terminates the process. -/
theorem run_getRequestContext_of_unset {w : World V} (h : requestContextIn w.context = none)
    (src : Source) :
    (getRequestContext src).run w =
      (.error .terminate, { w with log := w.log ++ [.contextRead src none] }) := by
  simp only [getRequestContext, emit]
  rw [Exec.run_bind_ok (Exec.run_get w), Exec.run_bind_ok (Exec.run_update _ w), h]
  rfl

/-! ### The primitives with the request context set -/

section Set

variable {c : V} {w : World V}

theorem run_getRequestContext_of_set (h : requestContextIn w.context = some c) (src : Source) :
    (getRequestContext src).run w =
      (.ok c, { w with log := w.log ++ [.contextRead src (some c)] }) := by
  simp only [getRequestContext, emit]
  rw [Exec.run_bind_ok (Exec.run_get w), Exec.run_bind_ok (Exec.run_update _ w), h]
  rfl

theorem run_publish_of_set (h : requestContextIn w.context = some c) (src : Source)
    (p : Publication) :
    (publish src p).run w =
      (.ok (), { w with log := w.log ++ [.contextRead src (some c), .published src p] }) := by
  rw [publish, Exec.run_bind_ok (run_getRequestContext_of_set h src)]
  simp [emit]

theorem extends_publish (h : requestContextIn w.context = some c) (src : Source)
    (p : Publication) :
    Extends c [] [] w
      { w with log := w.log ++ [.contextRead src (some c), .published src p] } := by
  have h₁ := Extends.emit (e := .contextRead src (some c)) h rfl
  have h₂ := Extends.emit (e := .published src p) h₁.stillSet trivial
  simpa [deliveries] using h₁.trans h₂

/-- A single act of user code. -/
theorem run_toBridge_of_set (h : requestContextIn w.context = some c) (a : UserAct V) :
    ∃ w', a.toBridge.run w = (.ok (), w') ∧ Extends c [] [] w w' := by
  cases a with
  | publish p => exact ⟨_, run_publish_of_set h .user p, extends_publish h .user p⟩
  | setVariable x v =>
      refine ⟨_, rfl, ⟨?_, ⟨[], by simp⟩, ⟨[], by simp [coroutines]⟩⟩⟩
      simpa [Context.lookup_set_of_ne _ _ x.property.symm] using h
  | createTask =>
      refine ⟨_, rfl, ⟨h, ⟨[], by simp⟩, ⟨[⟨.user, w.context⟩], rfl, ?_, rfl⟩⟩⟩
      simpa using h

/-- User code runs through its acts and cannot touch the request context. -/
theorem run_runActs_of_set (h : requestContextIn w.context = some c) (acts : List (UserAct V)) :
    ∃ w', (runActs acts).run w = (.ok (), w') ∧ Extends c [] [] w w' := by
  induction acts generalizing w with
  | nil => exact ⟨w, rfl, Extends.refl h⟩
  | cons a acts ih =>
      obtain ⟨w₁, hrun₁, hext₁⟩ := run_toBridge_of_set h a
      obtain ⟨w₂, hrun₂, hext₂⟩ := ih hext₁.stillSet
      refine ⟨w₂, ?_, hext₁.trans hext₂⟩
      rw [runActs, Exec.each_cons, Exec.run_bind_ok hrun₁]
      exact hrun₂

/-- A call of user code ends with its outcome. -/
theorem run_userCall_of_set (h : requestContextIn w.context = some c) (call : UserCall V) :
    ∃ w', call.run.run w = call.outcome.toExec.run w' ∧ Extends c [] [] w w' := by
  obtain ⟨w', hrun, hext⟩ := run_runActs_of_set h call.acts
  exact ⟨w', by rw [UserCall.run, Exec.run_bind_ok hrun], hext⟩

end Set

end XeusPywrap
