import XeusPywrap.Common.Machine
import XeusPywrap.Interpreter.Queries

/-!
# XeusPywrap.Kernel.System

The kernel as xeus and asyncio drive it: requests are served one after another on
the shell thread, in the one context the shell doorbell's handle owns, and
between two requests the tasks created so far take steps, each in its own
context.

An action of `kernelMachine` is one request, together with what the user's method
does if it is called, or one step of one task, together with what the coroutine
does in it. So a run of the machine is an interleaving of requests with task
steps. User code publishes, sets variables of its own, creates tasks, and ends as it
likes. What else it could do is left out: callbacks it hands to the loop, a call of
`loop.stop`, threads, code it runs in a context other than that of its step, and an
exception whose `__str__` raises anything but an `Exception`.

What code did is recorded under the request it was done for: code of the shell
thread works for the request it serves, a task for the request that created it.
-/

namespace XeusPywrap

variable {V : Type}

/-- The requests the interpreter's handlers serve. xeus hands an execute request
over with its context. -/
inductive Request (V : Type)
  | execute (context : V) (args : ExecuteArgs)
  | query (q : Query)

inductive TaskStatus
  | created
  | suspended
  | ended (outcome : Outcome)

/-- A task of the event loop. -/
structure Task (V : Type) where
  /-- The request for which the task was created, directly or through other tasks. -/
  owner : Nat
  kind : TaskKind
  context : Context String V
  status : TaskStatus

structure Kernel (V : Type) where
  /-- The context of the shell doorbell's handle. -/
  shellContext : Context String V
  tasks : List (Task V)
  /-- The requests served so far; a request is known by its index. -/
  requests : List (Request V)
  /-- Everything done so far, with the request it was done for. -/
  log : List (Nat × Event V)
  alive : Bool

/-- The kernel at the end of the interpreter's constructor: nothing has set the
request context yet. -/
def Kernel.initial : Kernel V := ⟨Context.empty, [], [], [], true⟩

/-- xeus serves the request with number `i`: it sets the context of an execute
request and calls the handler, and it sends the reply a handler returns. -/
def handleRequest (env : Env) (call : UserCall V) (i : Nat) : Request V → Bridge V Unit
  | .execute c args => do
      setRequestContext c
      executeRequestImpl env call i args
  | .query q => do
      let reply ← q.handle env call
      deliver i reply

/-- A task before its first step. -/
def NewTask.toTask (owner : Nat) (t : NewTask V) : Task V := ⟨owner, t.kind, t.context, .created⟩

/-- The world in which code starts to run in a context. -/
def World.start (context : Context String V) : World V := ⟨context, [], []⟩

/-- Record what code did for the request `owner`: its log and the tasks it made. -/
def Kernel.record (k : Kernel V) (owner : Nat) (w : World V) : Kernel V :=
  { k with
    tasks := k.tasks ++ w.spawned.map (NewTask.toTask owner)
    log := k.log ++ w.log.map fun e => (owner, e) }

/-- What a callback did to the kernel: the state after it, the number of messages
it sent on the shell socket, and the exception it let out, if any. -/
structure Reaction (K : Type) where
  state : K
  sends : Nat
  fault : Option Fault

/-- The failure of a computation. -/
def faultOf {α : Type} : Except Fault α → Option Fault
  | .ok _ => none
  | .error fault => some fault

/-- The process survives every failure but termination. -/
def survives {α : Type} (r : Except Fault α) : Bool := faultOf r != some .terminate

/-- Serve a request. -/
def Kernel.serve (env : Env) (k : Kernel V) (r : Request V) (call : UserCall V) :
    Reaction (Kernel V) :=
  let i := k.requests.length
  let (result, w) := (handleRequest env call i r).run (World.start k.shellContext)
  { state := { k.record i w with
      shellContext := w.context
      requests := k.requests ++ [r]
      alive := survives result }
    sends := (deliveries w.log).length
    fault := faultOf result }

/-- The code of one step of a task. -/
def Task.code (env : Env) (t : Task V) (step : CoroutineStep V) : Bridge V Bool :=
  match t.kind with
  | .wrapped cb args =>
      let first := match t.status with | .created => true | _ => false
      AsyncInterpreterBase.wrapped env cb args first step
  | .user => userCoroutine step

/-- May the task take a step? -/
def Task.live (t : Task V) : Bool :=
  match t.status with
  | .ended _ => false
  | _ => true

/-- The task after a step. -/
def Task.afterStep (t : Task V) (context : Context String V) (step : CoroutineStep V) : Task V :=
  { t with
    context
    status := match step.ends with
      | none => .suspended
      | some outcome => .ended outcome }

/-- Replace the task with number `n`. -/
def Kernel.setTask (k : Kernel V) (n : Nat) (t : Task V) : Kernel V :=
  { k with tasks := k.tasks.set n t }

/-- Let the task with number `n` take a step, if it exists and is not done. -/
def Kernel.resume (env : Env) (k : Kernel V) (n : Nat) (step : CoroutineStep V) :
    Option (Reaction (Kernel V)) :=
  match k.tasks[n]? with
  | none => none
  | some t =>
      if t.live then
        let (result, w) := (t.code env step).run (World.start t.context)
        some
          { state := { (k.setTask n (t.afterStep w.context step)).record t.owner w with
              alive := survives result }
            sends := (deliveries w.log).length
            fault := faultOf result }
      else none

/-- The actions of a kernel. -/
inductive KernelAction (V : Type)
  | serve (r : Request V) (call : UserCall V)
  | resume (n : Nat) (step : CoroutineStep V)

/-- The kernel as a machine. -/
def kernelMachine (V : Type) (env : Env) : Machine (Kernel V) (KernelAction V) where
  init := Kernel.initial
  step k a :=
    if k.alive then
      match a with
      | .serve r call => some (k.serve env r call).state
      | .resume n step => (k.resume env n step).map Reaction.state
    else none

/-! ### What a step can do -/

/-- The world a step of a task leaves behind. -/
def Task.world (env : Env) (t : Task V) (step : CoroutineStep V) : World V :=
  ((t.code env step).run (World.start t.context)).2

/-- The world serving a request leaves behind. -/
def Kernel.served (env : Env) (k : Kernel V) (r : Request V) (call : UserCall V) : World V :=
  ((handleRequest env call k.requests.length r).run (World.start k.shellContext)).2

theorem Kernel.serve_requests (env : Env) (k : Kernel V) (r : Request V) (call : UserCall V) :
    (k.serve env r call).state.requests = k.requests ++ [r] := rfl

theorem Kernel.serve_log (env : Env) (k : Kernel V) (r : Request V) (call : UserCall V) :
    (k.serve env r call).state.log =
      k.log ++ (k.served env r call).log.map fun e => (k.requests.length, e) := rfl

/-- A step of the task with number `n` is recorded for the owner of the task. -/
theorem Kernel.resume_cases {env : Env} {k : Kernel V} {n : Nat} {step : CoroutineStep V}
    {re : Reaction (Kernel V)} (h : k.resume env n step = some re) :
    ∃ t, k.tasks[n]? = some t ∧ t.live = true ∧
      re.state = { (k.setTask n (t.afterStep (t.world env step).context step)).record
        t.owner (t.world env step) with
          alive := survives ((t.code env step).run (World.start t.context)).1 } ∧
      re.sends = (deliveries (t.world env step).log).length ∧
      re.fault = faultOf ((t.code env step).run (World.start t.context)).1 := by
  unfold resume at h
  split at h
  · exact absurd h (by simp)
  · rename_i t ht
    split at h
    · rename_i hlive
      obtain rfl := Option.some.inj h
      exact ⟨t, ht, hlive, rfl, rfl, rfl⟩
    · exact absurd h (by simp)

/-- A step of the kernel serves a request or resumes a task. -/
theorem kernelMachine_step_cases {env : Env} {k k' : Kernel V} {a : KernelAction V}
    (h : (kernelMachine V env).step k a = some k') :
    k.alive = true ∧
      ((∃ r call, a = .serve r call ∧ k' = (k.serve env r call).state) ∨
        ∃ n step re, a = .resume n step ∧ k.resume env n step = some re ∧ k' = re.state) := by
  simp only [kernelMachine] at h
  split at h
  · rename_i halive
    refine ⟨halive, ?_⟩
    cases a with
    | serve r call => exact Or.inl ⟨r, call, rfl, (Option.some.inj h).symm⟩
    | resume n step =>
        obtain ⟨re, hre, rfl⟩ := Option.map_eq_some_iff.mp h
        exact Or.inr ⟨n, step, re, rfl, hre, rfl⟩
  · exact absurd h (by simp)

/-! ### Serving a query -/

/-- How serving the query `i` ends after its `try` block, by the result of the
block and the request context visible then, and what that adds to the log. -/
def queryTail (env : Env) (i : Nat) (seen : Option V) :
    Except Fault Json → Except Fault Unit × List (Event V)
  | .ok reply => (.ok (), [.delivered i seen reply])
  | .error (.raised e) =>
      match seen with
      | some c =>
          (.ok (), [.contextRead .bridge (some c),
            .published .bridge (.executionError "Excetpion" (env.lib.what e) []),
            .delivered i (some c)
              (env.lib.createErrorReply (env.lib.what e) "Exception" .null)])
      | none => (.error .terminate, [.contextRead .bridge none])
  | .error .terminate => (.error .terminate, [])

/-- **Serving a query**: the `try` block of its handler, then the tail. -/
theorem run_handleRequest_query (env : Env) (call : UserCall V) (i : Nat) (q : Query)
    {w w₁ : World V} {r : Except Fault Json} (h : (q.attempt env call).run w = (r, w₁)) :
    (handleRequest env call i (.query q)).run w =
      ((queryTail env i (requestContextIn w₁.context) r).1,
        { w₁ with log := w₁.log ++ (queryTail env i (requestContextIn w₁.context) r).2 }) := by
  unfold handleRequest
  cases r with
  | ok reply =>
      rw [Exec.run_bind_ok (Query.run_handle_of_ok h), run_deliver]
      rfl
  | error fault =>
      cases fault with
      | terminate =>
          rw [Exec.run_bind_error (Query.run_handle_of_terminate h)]
          simp [queryTail]
      | raised e =>
          cases hset : requestContextIn w₁.context with
          | none =>
              rw [Exec.run_bind_error (Query.run_handle_of_raised_unset h hset)]
              rfl
          | some c =>
              rw [Exec.run_bind_ok (Query.run_handle_of_raised h hset), run_deliver]
              simp [queryTail, hset]

/-! ### The code of a task step -/

/-- The reply the handler of `wrapped` comes to, unless its report raises. -/
def Libraries.reportedReply (lib : Libraries) (e : PyExc) : Option Json :=
  if lib.reportFault e = none then some (lib.pyErrorReply e (lib.formatExc e)) else none

theorem Libraries.reportedReply_isSome (lib : Libraries) (e : PyExc) :
    (lib.reportedReply e).isSome ↔ lib.reportFault e = none := by
  unfold reportedReply
  split <;> simp_all

/-- The reply the coroutine `wrapped` hands to the callback when the user's
coroutine ends with an outcome. -/
def Libraries.asyncReply (lib : Libraries) : Outcome → Option Json
  | .returned ret =>
      match (lib.replyOf ret).toJson? with
      | some reply => some reply
      | none => lib.reportedReply lib.typeError
  | .raised e => if e.isException then lib.reportedReply e else none

/-- The exception that `wrapped` lets out: it catches every `Exception`, but not what
reporting one raises. -/
def Libraries.asyncFault (lib : Libraries) : Outcome → Option PyExc
  | .returned ret =>
      match (lib.replyOf ret).toJson? with
      | some _ => none
      | none => lib.reportFault lib.typeError
  | .raised e => if e.isException then lib.reportFault e else some e

/-- A coroutine `wrapped` that replies lets nothing out. -/
theorem Libraries.asyncFault_of_asyncReply {lib : Libraries} {o : Outcome}
    (h : (lib.asyncReply o).isSome) : lib.asyncFault o = none := by
  cases o with
  | returned ret =>
      simp only [asyncReply, asyncFault] at h ⊢
      split at h
      · rfl
      · exact (lib.reportedReply_isSome _).mp h
  | raised e =>
      simp only [asyncReply, asyncFault] at h ⊢
      split at h
      · rename_i he
        rw [if_pos he]
        exact (lib.reportedReply_isSome e).mp h
      · exact absurd h (by decide)

/-- The exception a coroutine step lets out of the task. A coroutine of the user is on
its own. -/
def TaskKind.letsOut (lib : Libraries) : TaskKind → Option Outcome → Option PyExc
  | .wrapped _ _, some outcome => lib.asyncFault outcome
  | .user, some (.raised e) => some e
  | _, _ => none

/-- The replies one step of a task delivers. -/
def TaskKind.delivers (lib : Libraries) : TaskKind → Option Outcome → List (Nat × Json)
  | .wrapped cb _, some outcome => (lib.asyncReply outcome).toList.map fun reply => (cb, reply)
  | _, _ => []

/-- Coroutines of the user have no callback. -/
@[simp] theorem TaskKind.delivers_user (lib : Libraries) (ends : Option Outcome) :
    TaskKind.user.delivers lib ends = [] := by
  cases ends <;> rfl

section Set

variable {c : V} {w : World V} {env : Env}

/-- The handler of `wrapped`: a traceback on `stderr`, then an error reply, unless one of
them raises. -/
theorem run_async_onException (env : Env) (h : requestContextIn w.context = some c) (cb : Nat)
    (e : PyExc) :
    ∃ r w', (AsyncInterpreterBase.onException env cb e).run w = (r, w') ∧
      Extends c ((env.lib.reportedReply e).toList.map fun reply => (cb, reply)) [] w w' ∧
      faultOf r = (env.lib.reportFault e).map .raised := by
  obtain ⟨w₁, hext, hrun⟩ := run_reportException h env.lib e
  unfold AsyncInterpreterBase.onException Libraries.reportedReply
  cases hfault : env.lib.reportFault e with
  | none =>
      rw [hfault] at hrun
      have hsend := extends_delivered hext.stillSet cb
        (env.lib.pyErrorReply e (env.lib.formatExc e))
      refine ⟨_, _, (Exec.run_bind_ok hrun).trans
        (Exec.run_bind_ok (run_sendReplyCallback_of_json rfl)), hext.trans hsend, rfl⟩
  | some e' =>
      rw [hfault] at hrun
      exact ⟨_, w₁, Exec.run_bind_error hrun, hext, rfl⟩

/-- The user's coroutine returned a value that can be sent. -/
theorem run_afterAwait_of_json {cb : Nat} {ret : PyValue} {reply : Json}
    (hret : (env.lib.replyOf ret).toJson? = some reply) :
    (AsyncInterpreterBase.afterAwait env cb (some (.returned ret))).run w =
      (.ok false, { w with
        log := w.log ++ [.delivered cb (requestContextIn w.context) reply] }) := by
  show (sendReplyCallback env.lib cb (env.lib.replyOf ret) >>= fun _ => pure false).run w = _
  rw [Exec.run_bind_ok (run_sendReplyCallback_of_json hret)]
  rfl

/-- The user's coroutine returned a value the callback raises on. -/
theorem run_afterAwait_of_unconvertible {cb : Nat} {ret : PyValue}
    (hret : (env.lib.replyOf ret).toJson? = none) :
    (AsyncInterpreterBase.afterAwait env cb (some (.returned ret))).run w =
      (.error (.raised env.lib.typeError), w) := by
  show (sendReplyCallback env.lib cb (env.lib.replyOf ret) >>= fun _ => pure false).run w = _
  exact Exec.run_bind_error (run_sendReplyCallback_of_unconvertible hret)

/-- Up to the end of the user's step nothing can fail in the `try` block of
`wrapped`: the request context is set. -/
theorem run_wrapped_body (env : Env) (h : requestContextIn w.context = some c) (cb : Nat)
    (args : ExecuteArgs) (first : Bool) (step : CoroutineStep V) :
    ∃ w₁, Extends c [] [] w w₁ ∧
      ((do
        AsyncInterpreterBase.startHook first args
        runActs step.acts
        AsyncInterpreterBase.afterAwait env cb step.ends : Bridge V Bool)).run w =
      (AsyncInterpreterBase.afterAwait env cb step.ends).run w₁ := by
  have start : ∃ w₀, (AsyncInterpreterBase.startHook first args : Bridge V Unit).run w =
      (.ok (), w₀) ∧ Extends c [] [] w w₀ := by
    cases first with
    | false => exact ⟨w, rfl, Extends.refl h⟩
    | true => exact ⟨_, rfl, extends_called h (.execute args)⟩
  obtain ⟨w₀, hstart, hext₀⟩ := start
  obtain ⟨w₁, hacts, hext₁⟩ := run_runActs_of_set hext₀.stillSet step.acts
  exact ⟨w₁, hext₀.trans hext₁, by rw [Exec.run_bind_ok hstart, Exec.run_bind_ok hacts]⟩

/-- **A step of the coroutine `wrapped`.** Whatever the step of the user's coroutine
does, its end decides whether a reply is delivered, which one, and which exception
leaves the task. -/
theorem run_wrapped (h : requestContextIn w.context = some c) (cb : Nat) (args : ExecuteArgs)
    (first : Bool) (step : CoroutineStep V) :
    ∃ r w', (AsyncInterpreterBase.wrapped env cb args first step).run w = (r, w') ∧
      Extends c ((TaskKind.wrapped cb args).delivers env.lib step.ends) [] w w' ∧
      faultOf r = ((TaskKind.wrapped cb args).letsOut env.lib step.ends).map .raised := by
  obtain ⟨w₁, hext₁, hbody⟩ := run_wrapped_body env h cb args first step
  unfold AsyncInterpreterBase.wrapped
  cases hends : step.ends with
  | none =>
      rw [hends] at hbody
      exact ⟨_, w₁, run_exceptException_ok hbody, hext₁, rfl⟩
  | some outcome =>
      rw [hends] at hbody
      cases outcome with
      | raised e =>
          have hraised : Exec.run _ w = (.error (Fault.raised e), w₁) := hbody
          rw [run_exceptException_raised hraised]
          by_cases he : e.isException
          · obtain ⟨r, w₂, hrun, hext₂, hfault⟩ :=
              run_async_onException env hext₁.stillSet cb e
            refine ⟨r, w₂, by rw [if_pos he]; exact hrun, ?_, ?_⟩
            · simpa [TaskKind.delivers, Libraries.asyncReply, he] using hext₁.trans hext₂
            · simpa [TaskKind.letsOut, Libraries.asyncFault, he] using hfault
          · refine ⟨_, w₁, by rw [if_neg he], ?_, ?_⟩
            · simpa [TaskKind.delivers, Libraries.asyncReply, he] using hext₁
            · simp [TaskKind.letsOut, Libraries.asyncFault, he, faultOf]
      | returned ret =>
          cases hret : (env.lib.replyOf ret).toJson? with
          | some reply =>
              have hsend := extends_delivered hext₁.stillSet cb reply
              refine ⟨_, _, run_exceptException_ok (hbody.trans (run_afterAwait_of_json hret)),
                ?_, ?_⟩
              · simpa [TaskKind.delivers, Libraries.asyncReply, hret] using hext₁.trans hsend
              · simp [TaskKind.letsOut, Libraries.asyncFault, hret, faultOf]
          | none =>
              obtain ⟨r, w₂, hrun, hext₂, hfault⟩ :=
                run_async_onException env hext₁.stillSet cb env.lib.typeError
              rw [run_exceptException_raised (hbody.trans (run_afterAwait_of_unconvertible hret)),
                if_pos env.lib.typeError_isException]
              refine ⟨r, w₂, hrun, ?_, ?_⟩
              · simpa [TaskKind.delivers, Libraries.asyncReply, hret] using hext₁.trans hext₂
              · simpa [TaskKind.letsOut, Libraries.asyncFault, hret] using hfault

/-- A step of a coroutine of the user. -/
theorem run_userCoroutine (h : requestContextIn w.context = some c) (step : CoroutineStep V) :
    ∃ r w', (userCoroutine step).run w = (r, w') ∧ Extends c [] [] w w' ∧
      faultOf r = (TaskKind.user.letsOut env.lib step.ends).map .raised := by
  obtain ⟨w₁, hacts, hext₁⟩ := run_runActs_of_set h step.acts
  refine ⟨((userCoroutine step).run w).1, w₁, ?_, hext₁, ?_⟩ <;>
  · unfold userCoroutine
    rw [Exec.run_bind_ok hacts]
    rcases step.ends with _ | ⟨ret⟩ | ⟨e⟩ <;> rfl

/-- **A step of any task** whose context has the request context set. -/
theorem Task.run_code (env : Env) (t : Task V) (step : CoroutineStep V)
    (h : requestContextIn t.context = some c) :
    ∃ r w', (t.code env step).run (World.start t.context) = (r, w') ∧
      Extends c (t.kind.delivers env.lib step.ends) [] (World.start t.context) w' ∧
      faultOf r = (t.kind.letsOut env.lib step.ends).map .raised := by
  unfold Task.code
  cases hkind : t.kind with
  | wrapped cb args => exact run_wrapped (w := World.start t.context) h cb args _ step
  | user => exact run_userCoroutine (w := World.start t.context) h step

end Set

end XeusPywrap
