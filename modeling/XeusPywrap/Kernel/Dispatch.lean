import XeusPywrap.Kernel.PublishContext

/-!
# XeusPywrap.Kernel.Dispatch

The two layers a query passes through, compared with a direct call of the
overridable method it is about.

The reference is `directCall`: the method, called with the arguments of the query
in the same context. `Dispatched` says what the handlers should make of it: they
call the method once, hand on the value it returns, and report an exception it
raises on both channels alike. `dispatched_iff` says for which queries they do.
-/

namespace XeusPywrap

variable {V : Type}

/-- The methods called in a stretch of log. -/
def calledHooks (log : List (Event V)) : List HookCall :=
  log.filterMap fun
    | .called hook => some hook
    | _ => none

/-- The errors the bridge has published in a stretch of log, by name and value. -/
def bridgeErrors (log : List (Event V)) : List (String × String) :=
  log.filterMap fun
    | .published .bridge (.executionError ename evalue _) => some (ename, evalue)
    | _ => none

/-- The method the query is about, called directly where the query is served. -/
def Kernel.directCall (env : Env) (k : Kernel V) (q : Query) (call : UserCall V) :
    Except Fault PyValue :=
  ((callHook env.overrides call q.hook).run (World.start k.shellContext)).1

/-- Serving the query amounts to a direct call of its method. `message` gives the
message of an exception. -/
structure Dispatched (env : Env) (message : PyExc → String) (k : Kernel V) (q : Query)
    (call : UserCall V) : Prop where
  reached : calledHooks (k.served env (.query q) call).log = [q.hook]
  returned : ∀ ret v, k.directCall env q call = .ok ret → ret.toJson? = some v →
    deliveries (k.served env (.query q) call).log = [(k.requests.length, v)] ∧
      bridgeErrors (k.served env (.query q) call).log = []
  raised : ∀ e, k.directCall env q call = .error (.raised e) →
    ∃ ename traceBack,
      bridgeErrors (k.served env (.query q) call).log = [(ename, message e)] ∧
      deliveries (k.served env (.query q) call).log =
        [(k.requests.length, env.lib.createErrorReply ename (message e) traceBack)]

/-- `xeus::create_error_reply` puts the name and the value of the error into the
reply, where they can be told apart. -/
def Libraries.ErrorReplyFaithful (lib : Libraries) : Prop :=
  ∀ ename evalue traceBack ename' evalue' traceBack',
    lib.createErrorReply ename evalue traceBack =
      lib.createErrorReply ename' evalue' traceBack' → ename = ename' ∧ evalue = evalue'

/-! ### The log of a served query -/

@[simp] theorem calledHooks_append (l l' : List (Event V)) :
    calledHooks (l ++ l') = calledHooks l ++ calledHooks l' :=
  List.filterMap_append

@[simp] theorem bridgeErrors_append (l l' : List (Event V)) :
    bridgeErrors (l ++ l') = bridgeErrors l ++ bridgeErrors l' :=
  List.filterMap_append

theorem calledHooks_of_user {l : List (Event V)} (h : ∀ e ∈ l, e.OfUser) : calledHooks l = [] := by
  rw [calledHooks, List.filterMap_eq_nil_iff]
  intro e he
  cases e with
  | called hook => exact (h _ he).elim
  | _ => rfl

theorem bridgeErrors_of_user {l : List (Event V)} (h : ∀ e ∈ l, e.OfUser) :
    bridgeErrors l = [] := by
  rw [bridgeErrors, List.filterMap_eq_nil_iff]
  intro e he
  cases e with
  | published src p =>
      obtain rfl : src = .user := h _ he
      rfl
  | _ => rfl

/-- What the `try` block of a handler leaves in the log. -/
theorem Query.log_attempt (env : Env) (call : UserCall V) (q : Query)
    (context : Context String V) :
    calledHooks ((q.attempt env call).run (World.start context)).2.log =
        (if q.reachesHook then [q.hook] else []) ∧
      bridgeErrors ((q.attempt env call).run (World.start context)).2.log = [] := by
  by_cases hq : q.reachesHook
  · obtain ⟨new, hlog, hnew⟩ :=
      (Query.attempt_of_reachesHook env call (w := World.start context) hq rfl).1.log
    rw [hlog, if_pos hq, calledHooks_append, bridgeErrors_append, calledHooks_of_user hnew,
      bridgeErrors_of_user hnew]
    exact ⟨rfl, rfl⟩
  · rw [Query.attempt_of_not_reachesHook hq, if_neg hq]
    exact ⟨rfl, rfl⟩

theorem calledHooks_queryTail (env : Env) (i : Nat) (seen : Option V) (r : Except Fault Json) :
    calledHooks (queryTail env i seen r).2 = [] := by
  rcases r with (e | _) | reply
  · cases seen <;> rfl
  · rfl
  · rfl

/-- **The log of a served query**: the method, if the handler calls it; then what the
tail adds for the result of the `try` block. -/
theorem log_served_query (env : Env) (k : Kernel V) (q : Query) (call : UserCall V) :
    let r := ((q.attempt env call).run (World.start k.shellContext)).1
    let seen := requestContextIn k.shellContext
    calledHooks (k.served env (.query q) call).log = (if q.reachesHook then [q.hook] else []) ∧
      bridgeErrors (k.served env (.query q) call).log =
        bridgeErrors (queryTail env k.requests.length seen r).2 ∧
      deliveries (k.served env (.query q) call).log =
        deliveries (queryTail env k.requests.length seen r).2 := by
  have hlog := Query.log_attempt env call q k.shellContext
  have hcontext := Query.context_attempt env call q k.shellContext
  have hdelivered := (Query.attempt_effects env call q k.shellContext).2
  rcases hr : (q.attempt env call).run (World.start k.shellContext) with ⟨r, w₁⟩
  rw [hr] at hlog hcontext hdelivered
  simp only at hlog hcontext hdelivered ⊢
  rw [Kernel.served, run_handleRequest_query env call _ q hr]
  simp only [calledHooks_append, bridgeErrors_append, deliveries_append, hlog.1, hlog.2,
    hdelivered, hcontext, calledHooks_queryTail, List.append_nil, List.nil_append, and_self]

/-- The `try` block of a handler that calls its method ends as the method does. -/
theorem attempt_of_directCall {env : Env} {k : Kernel V} {q : Query} {call : UserCall V}
    (hq : q.reachesHook) :
    ((q.attempt env call).run (World.start k.shellContext)).1 =
      match k.directCall env q call with
      | .error fault => .error fault
      | .ok ret => ((castToJson env.lib ret).run (World.start k.shellContext)).1 := by
  have hattempt : q.attempt env call =
      (callHook env.overrides call q.hook >>= castToJson env.lib) := by
    cases q <;> first | rfl | simp [Query.reachesHook] at hq
  rw [hattempt, Kernel.directCall]
  rcases hr : (callHook env.overrides call q.hook).run (World.start k.shellContext) with ⟨r, w⟩
  cases r with
  | error fault => rw [Exec.run_bind_error hr]
  | ok ret =>
      rw [Exec.run_bind_ok hr]
      cases hv : ret.toJson? <;> simp only [castToJson, hv, Exec.run_pure, Exec.run_fail]

/-! ### When a query is dispatched faithfully -/

/-- The report of an exception is never faithful: what is published and what is
replied disagree in name and value. -/
theorem not_dispatched_of_raised {env : Env} (hlib : env.lib.ErrorReplyFaithful)
    {message : PyExc → String} {k : Kernel V} {q : Query} {call : UserCall V} {e : PyExc}
    (hq : q.reachesHook) (hraised : k.directCall env q call = .error (.raised e)) :
    ¬ Dispatched env message k q call := by
  intro h
  obtain ⟨ename, traceBack, herrors, hreply⟩ := h.raised e hraised
  obtain ⟨-, herrors', hreply'⟩ := log_served_query env k q call
  rw [attempt_of_directCall hq, hraised] at herrors' hreply'
  rw [herrors'] at herrors
  rw [hreply'] at hreply
  cases hset : requestContextIn k.shellContext with
  | none =>
      rw [hset] at herrors
      simp [queryTail, bridgeErrors] at herrors
  | some c =>
      rw [hset] at herrors hreply
      simp only [queryTail, bridgeErrors, List.filterMap_cons, List.filterMap_nil,
        List.cons.injEq, Prod.mk.injEq, and_true] at herrors
      simp only [queryTail, deliveries, List.filterMap_cons, List.filterMap_nil,
        List.cons.injEq, Prod.mk.injEq, and_true, true_and] at hreply
      obtain ⟨rfl, hvalue⟩ := herrors
      obtain ⟨hname, hmessage⟩ := hlib _ _ _ _ _ _ hreply
      -- The reply names the error by its message and gives "Exception" for its value.
      rw [hname] at hvalue
      exact absurd (hvalue.trans hmessage.symm) (by decide)

/-- **When a query is dispatched faithfully**: exactly when it is a completion or a
question whether code is complete, and its method does not raise. -/
theorem dispatched_iff {env : Env} (hlib : env.lib.ErrorReplyFaithful)
    (message : PyExc → String) (k : Kernel V) (q : Query) (call : UserCall V) :
    Dispatched env message k q call ↔
      q.reachesHook = true ∧ raisedBy (k.directCall env q call) = none := by
  obtain ⟨hcalled, herrors, hreply⟩ := log_served_query env k q call
  constructor
  · intro h
    have hq : q.reachesHook = true := by
      by_contra hq
      have := h.reached
      rw [hcalled, if_neg hq] at this
      simp at this
    refine ⟨hq, ?_⟩
    cases hdirect : k.directCall env q call with
    | ok ret => rfl
    | error fault =>
        cases fault with
        | terminate => rfl
        | raised e => exact absurd h (not_dispatched_of_raised hlib hq hdirect)
  · rintro ⟨hq, hnone⟩
    rw [attempt_of_directCall hq] at herrors hreply
    refine ⟨by rw [hcalled, if_pos hq], ?_, ?_⟩
    · intro ret v hret hv
      rw [hret] at herrors hreply
      rw [herrors, hreply]
      simp only [castToJson, hv]
      exact ⟨rfl, rfl⟩
    · intro e he
      rw [he] at hnone
      exact absurd hnone (by simp [raisedBy])

/-- Every query a run serves is dispatched faithfully. -/
def DispatchedThroughout (env : Env) (message : PyExc → String)
    (as : List (KernelAction V)) : Prop :=
  ∀ before q call after k, as = before ++ .serve (.query q) call :: after →
    (kernelMachine V env).run before = some k → k.alive = true →
    Dispatched env message k q call

/-- **When every query of a run is dispatched faithfully**: exactly when no
inspection and no shutdown is among them and no completion method raises. -/
theorem dispatchedThroughout_iff {env : Env} (hlib : env.lib.ErrorReplyFaithful)
    (message : PyExc → String) (as : List (KernelAction V)) :
    DispatchedThroughout env message as ↔
      ∀ before q call after k, as = before ++ .serve (.query q) call :: after →
        (kernelMachine V env).run before = some k → k.alive = true →
        q.reachesHook = true ∧ raisedBy (k.directCall env q call) = none := by
  constructor
  · exact fun h before q call after k has hrun halive =>
      (dispatched_iff hlib message k q call).mp (h before q call after k has hrun halive)
  · exact fun h before q call after k has hrun halive =>
      (dispatched_iff hlib message k q call).mpr (h before q call after k has hrun halive)

theorem Libraries.documented_errorReplyFaithful : Libraries.documented.ErrorReplyFaithful := by
  intro ename evalue traceBack ename' evalue' traceBack' h
  simp only [Libraries.documented, Json.obj.injEq, List.cons.injEq, Prod.mk.injEq, Json.str.injEq,
    true_and, and_true] at h
  exact ⟨h.1, h.2.1⟩

theorem dispatchedThroughout_iff_of_inspectionAfterCell :
    DispatchedThroughout (plainKernel .blocking) PyExc.str inspectionAfterCell ↔
      ∀ before q call after k, inspectionAfterCell = before ++ .serve (.query q) call :: after →
        (kernelMachine Nat (plainKernel .blocking)).run before = some k → k.alive = true →
        q.reachesHook = true ∧
          raisedBy (k.directCall (plainKernel .blocking) q call) = none :=
  dispatchedThroughout_iff Libraries.documented_errorReplyFaithful PyExc.str inspectionAfterCell

/-- An inspection after the first cell: the method of the subclass is never called. -/
theorem not_dispatched_of_inspectionAfterCell :
    ¬ DispatchedThroughout (plainKernel .blocking) PyExc.str inspectionAfterCell := by
  intro h
  obtain ⟨k, hk⟩ : ∃ k, (kernelMachine Nat (plainKernel .blocking)).run
      (inspectionAfterCell.take 2) = some k := ⟨_, rfl⟩
  have halive : k.alive = true :=
    Machine.read_run Kernel.alive hk rfl
  have hreached := (h _ (.inspect "print" 5 0) ⟨[], .returned .none⟩ [] k rfl hk halive).reached
  rw [(log_served_query _ k _ _).1] at hreached
  exact absurd hreached (by simp [Query.reachesHook])

end XeusPywrap
