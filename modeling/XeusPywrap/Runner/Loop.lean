import XeusPywrap.Common.Channel
import XeusPywrap.Common.Machine
import XeusPywrap.Kernel.System

/-!
# XeusPywrap.Runner.Loop

`src/xasync_runner.cpp`: the event loop the kernel lives in.

asyncio's loop works in iterations. It asks the selector which of the registered
descriptors are ready, schedules their callbacks, runs what is scheduled, and
looks at its stop flag only then; a scheduled callback whose reader has been
removed meanwhile is skipped. The two callbacks are the doorbells, which drain
their sockets one message at a time, and while a drain goes on messages arrive.

`runnerMachine` takes these as steps. It leaves to its actions what the program
does not decide: the arrivals, the order in which the selector reports, whether it
reports without cause, which task steps run, and whether a use of the shell socket
clears its descriptor. What the shell listener does with a message and what a task
does in a step is a parameter, `Guest`; `Runner.Kernel` puts the kernel there.

`Runner.Step` lists the steps with their guards; the facts about runs are proved
over its cases.
-/

namespace XeusPywrap

/-! ### Exceptions in the loop -/

/-- asyncio logs the exceptions of callbacks and tasks and goes on, except for these
two, which leave `run_forever`. -/
def PyExc.exitsLoop (e : PyExc) : Bool := e.kind == .systemExit || e.kind == .keyboardInterrupt

/-- What `run_main` raises when `run_main_non_busy_loop` raises `e`: its handler
turns an `Exception` into `sys.exit(1)`. -/
def runMain (e : PyExc) : PyExc := if e.isException then ⟨.systemExit, "SystemExit", "1"⟩ else e

/-! ### The state -/

/-- What the runner calls: the shell listener, and the steps of tasks. -/
structure Guest (K M T : Type) where
  notifyShellListener : M → K → Reaction K
  /-- `none` if there is no such task, or it is done. -/
  resume : T → K → Option (Reaction K)

/-- The callbacks of the two file descriptors. -/
inductive Doorbell
  | shell
  | controller
  deriving DecidableEq, Repr

inductive Phase
  /-- `run_forever` goes on. -/
  | running
  /-- `run_forever` has returned, and `run_main` with it. -/
  | returned
  /-- `run_main` has raised, and `run_impl` with it. -/
  | raised (e : PyExc)
  /-- The process is dead. -/
  | terminated
  deriving DecidableEq, Repr

/-- The runner. `L` is the state of the internal listener. -/
structure Runner (K M L : Type) where
  shell : EdgeChannel M
  controller : Channel String
  /-- The doorbells whose readers are registered with the loop. -/
  readers : List Doorbell
  /-- The doorbells still to run in this iteration. -/
  scheduled : List Doorbell
  /-- The doorbell that is running. -/
  active : Option Doorbell
  /-- The flag `loop.stop()` sets. -/
  stopping : Bool
  phase : Phase
  guest : K
  listener : L
  /-- What `notify_shell_listener` has been called with. -/
  notified : List M
  /-- What `send_controller` has been called with. -/
  sent : List String

namespace Runner

variable {K M T L : Type}

/-- `run_main_non_busy_loop` up to `run_forever`. -/
def initial (guest : K) (listener : L) : Runner K M L where
  shell := .empty
  controller := .empty
  readers := [.shell, .controller]
  scheduled := []
  active := none
  stopping := false
  phase := .running
  guest
  listener
  notified := []
  sent := []

/-! ### The callbacks -/

/-- The end of a callback that raised: the loop logs the exception, or is left. -/
def afterCallback (r : Runner K M L) : Option Fault → Runner K M L
  | none => r
  | some .terminate => { r with active := none, phase := .terminated }
  | some (.raised e) =>
      if e.exitsLoop then { r with active := none, phase := .raised (runMain e) }
      else { r with active := none }

/-- One round of `while (auto msg = read_shell(ZMQ_DONTWAIT))` in
`on_message_doorbell_shell`. `byRead` and `bySend` say whether the read and the
replies sent by the listener clear the descriptor. -/
def onMessageDoorbellShell (g : Guest K M T) (r : Runner K M L) (byRead bySend : Bool) :
    Runner K M L :=
  match r.shell.take? byRead with
  | none => { r with shell := r.shell.touch byRead, active := none }
  | some (msg, shell) =>
      let re := g.notifyShellListener msg r.guest
      afterCallback
        { r with
          shell := shell.touch (bySend && decide (0 < re.sends))
          guest := re.state
          notified := r.notified ++ [msg] }
        re.fault

/-- `loop.remove_reader`; it also cancels the callback if that is scheduled. -/
def removeReader (r : Runner K M L) (d : Doorbell) : Runner K M L :=
  { r with readers := r.readers.erase d }

/-- `stop_loop`. -/
def stopLoop (r : Runner K M L) : Runner K M L :=
  { (r.removeReader .shell).removeReader .controller with stopping := true }

/-- One round of the loop in `on_message_doorbell_controller`. -/
def onMessageDoorbellController (notifyInternalListener : L → String → String × L)
    (r : Runner K M L) : Runner K M L :=
  match r.controller.take? with
  | none => { r with active := none }
  | some (val, controller) =>
      let r := { r with controller }
      if val = "stop" then
        { stopLoop { r with sent := r.sent ++ [val] } with active := none }
      else
        let (rep, listener) := notifyInternalListener r.listener val
        { r with listener, sent := r.sent ++ [rep] }

/-! ### The loop -/

end Runner

/-- What happens next. -/
inductive RunnerAction (M T : Type)
  | arriveShell (msg : M)
  | arriveController (msg : String)
  /-- A new iteration: the selector reports these descriptors, in this order. -/
  | select (ready : List Doorbell)
  /-- The loop takes the next scheduled doorbell. -/
  | dispatch
  | readShell (byRead bySend : Bool)
  | readController
  /-- A task takes a step, which may clear the shell descriptor by sending. -/
  | task (t : T) (bySend : Bool)
  /-- The iteration is over and the loop has been told to stop. -/
  | leave

namespace Runner

variable {K M T L : Type}

/-- Between two callbacks of a loop that goes on. -/
def idle (r : Runner K M L) : Bool := r.phase = .running && r.active = none

/-- The step of a task. -/
def task (g : Guest K M T) (r : Runner K M L) (t : T) (bySend : Bool) : Option (Runner K M L) :=
  (g.resume t r.guest).map fun re =>
    afterCallback
      { r with
        shell := r.shell.touch (bySend && decide (0 < re.sends))
        guest := re.state }
      re.fault

/-- One step of the runner; `none` if the action cannot happen. -/
def step (g : Guest K M T) (notifyInternalListener : L → String → String × L)
    (r : Runner K M L) : RunnerAction M T → Option (Runner K M L)
  | .arriveShell msg => some { r with shell := r.shell.arrive msg }
  | .arriveController msg => some { r with controller := r.controller.arrive msg }
  | .select ready =>
      if r.idle ∧ r.scheduled = [] ∧ r.stopping = false ∧ ready.Nodup ∧
          (∀ d ∈ ready, d ∈ r.readers) then
        some { r with scheduled := ready }
      else none
  | .dispatch =>
      if r.idle then
        match r.scheduled with
        | [] => none
        | d :: rest =>
            some { r with scheduled := rest, active := if d ∈ r.readers then some d else none }
      else none
  | .readShell byRead bySend =>
      if r.phase = .running ∧ r.active = some .shell then
        some (r.onMessageDoorbellShell g byRead bySend)
      else none
  | .readController =>
      if r.phase = .running ∧ r.active = some .controller then
        some (r.onMessageDoorbellController notifyInternalListener)
      else none
  | .task t bySend => if r.idle then r.task g t bySend else none
  | .leave =>
      if r.idle ∧ r.scheduled = [] ∧ r.stopping then some { r with phase := .returned } else none

/-! ### What a step can do -/

theorem idle_iff {r : Runner K M L} : r.idle = true ↔ r.phase = .running ∧ r.active = none := by
  simp [idle]

/-- The runner after a message has been handed to the shell listener. -/
def handled (g : Guest K M T) (r : Runner K M L) (msg : M) (shell : EdgeChannel M)
    (bySend : Bool) : Runner K M L :=
  let re := g.notifyShellListener msg r.guest
  afterCallback
    { r with
      shell := shell.touch (bySend && decide (0 < re.sends))
      guest := re.state
      notified := r.notified ++ [msg] }
    re.fault

/-- The runner after a task of the guest has taken a step. -/
def resumed (r : Runner K M L) (re : Reaction K) (bySend : Bool) : Runner K M L :=
  afterCallback
    { r with
      shell := r.shell.touch (bySend && decide (0 < re.sends))
      guest := re.state }
    re.fault

/-- The steps of the runner, with the guards they pass. A round of a doorbell finds
its socket empty, which ends the drain, or reads a message. -/
inductive Step (g : Guest K M T) (notifyInternalListener : L → String → String × L)
    (r : Runner K M L) : RunnerAction M T → Runner K M L → Prop
  | arriveShell (msg : M) :
      Step g notifyInternalListener r (.arriveShell msg) { r with shell := r.shell.arrive msg }
  | arriveController (msg : String) :
      Step g notifyInternalListener r (.arriveController msg)
        { r with controller := r.controller.arrive msg }
  | select (ready : List Doorbell) :
      Step g notifyInternalListener r (.select ready) { r with scheduled := ready }
  | dispatch (d : Doorbell) (rest : List Doorbell) (running : r.phase = .running)
      (active : r.active = none) :
      Step g notifyInternalListener r .dispatch
        { r with scheduled := rest, active := if d ∈ r.readers then some d else none }
  | shellDrained (byRead bySend : Bool) (active : r.active = some .shell)
      (drained : r.shell.queue = []) :
      Step g notifyInternalListener r (.readShell byRead bySend)
        { r with shell := r.shell.touch byRead, active := none }
  | shellRead (byRead bySend : Bool) (msg : M) (shell : EdgeChannel M)
      (running : r.phase = .running) (active : r.active = some .shell)
      (read : r.shell.take? byRead = some (msg, shell)) :
      Step g notifyInternalListener r (.readShell byRead bySend) (r.handled g msg shell bySend)
  | controllerDrained (active : r.active = some .controller) :
      Step g notifyInternalListener r .readController { r with active := none }
  | controllerRead (val : String) (controller : Channel String) (running : r.phase = .running)
      (active : r.active = some .controller)
      (read : r.controller.take? = some (val, controller)) (go : val ≠ "stop") :
      Step g notifyInternalListener r .readController
        { r with
          controller
          listener := (notifyInternalListener r.listener val).2
          sent := r.sent ++ [(notifyInternalListener r.listener val).1] }
  | stop (controller : Channel String) (running : r.phase = .running)
      (active : r.active = some .controller)
      (read : r.controller.take? = some ("stop", controller)) :
      Step g notifyInternalListener r .readController
        { stopLoop { r with controller, sent := r.sent ++ ["stop"] } with active := none }
  | task (t : T) (bySend : Bool) (re : Reaction K) (running : r.phase = .running)
      (active : r.active = none) (resume : g.resume t r.guest = some re) :
      Step g notifyInternalListener r (.task t bySend) (r.resumed re bySend)
  | leave (stopping : r.stopping = true) :
      Step g notifyInternalListener r .leave { r with phase := .returned }

theorem step_sound {g : Guest K M T} {notifyInternalListener : L → String → String × L}
    {r r' : Runner K M L} {a : RunnerAction M T}
    (h : r.step g notifyInternalListener a = some r') : Step g notifyInternalListener r a r' := by
  cases a with
  | arriveShell msg =>
      obtain rfl := Option.some.inj h
      exact .arriveShell msg
  | arriveController msg =>
      obtain rfl := Option.some.inj h
      exact .arriveController msg
  | select ready =>
      simp only [step, Option.ite_none_right_eq_some] at h
      obtain rfl := Option.some.inj h.2
      exact .select ready
  | dispatch =>
      simp only [step, Option.ite_none_right_eq_some] at h
      obtain ⟨hidle, h⟩ := h
      obtain ⟨hrunning, hactive⟩ := idle_iff.mp hidle
      split at h
      · exact absurd h (by simp)
      · obtain rfl := Option.some.inj h
        exact .dispatch _ _ hrunning hactive
  | readShell byRead bySend =>
      simp only [step, Option.ite_none_right_eq_some] at h
      obtain ⟨⟨hrunning, hactive⟩, h⟩ := h
      obtain rfl := Option.some.inj h
      unfold onMessageDoorbellShell
      split
      next hnone =>
        exact .shellDrained byRead bySend hactive (EdgeChannel.take?_eq_none_iff.mp hnone)
      next msg shell hread => exact .shellRead byRead bySend msg shell hrunning hactive hread
  | readController =>
      simp only [step, Option.ite_none_right_eq_some] at h
      obtain ⟨⟨hrunning, hactive⟩, h⟩ := h
      obtain rfl := Option.some.inj h
      unfold onMessageDoorbellController
      split
      next => exact .controllerDrained hactive
      next val controller hread =>
        by_cases hval : val = "stop"
        · subst hval
          exact .stop controller hrunning hactive hread
        · simp only [if_neg hval]
          exact .controllerRead val controller hrunning hactive hread hval
  | task t bySend =>
      simp only [step, Option.ite_none_right_eq_some] at h
      obtain ⟨hidle, h⟩ := h
      obtain ⟨hrunning, hactive⟩ := idle_iff.mp hidle
      obtain ⟨re, hre, rfl⟩ := Option.map_eq_some_iff.mp h
      exact .task t bySend re hrunning hactive hre
  | leave =>
      simp only [step, Option.ite_none_right_eq_some] at h
      obtain ⟨⟨-, -, hstopping⟩, h⟩ := h
      obtain rfl := Option.some.inj h
      exact .leave hstopping

end Runner

/-- The runner as a machine. -/
def runnerMachine {K M T L : Type} (g : Guest K M T)
    (notifyInternalListener : L → String → String × L) (guest : K) (listener : L) :
    Machine (Runner K M L) (RunnerAction M T) where
  init := Runner.initial guest listener
  step := Runner.step g notifyInternalListener

theorem runnerMachine_sound {K M T L : Type} {g : Guest K M T}
    {notifyInternalListener : L → String → String × L} {guest : K} {listener : L}
    {r r' : Runner K M L} {a : RunnerAction M T}
    (h : (runnerMachine g notifyInternalListener guest listener).step r a = some r') :
    Runner.Step g notifyInternalListener r a r' :=
  Runner.step_sound h

end XeusPywrap
