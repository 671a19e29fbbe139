import Mathlib.Data.List.TakeWhile
import XeusPywrap.Kernel.Replies

/-!
# XeusPywrap.Kernel.PublishContext

Publishing without a request context kills the process.

Only execute requests set the request context, but the error reports of all
handlers look it up. So until the first execute request the shell thread runs
without one (`shellContext_of_run`), and the first report ends the process.
`publishesWithContext_iff` says which requests make such a report, in the order
they come.
-/

namespace XeusPywrap

variable {V : Type}

/-- Every lookup of the request context that found nothing was made by user code,
and not for an execute request: reports of the bridge and publications of
execute requests always find a context. -/
def PublishesWithContext (k : Kernel V) : Prop :=
  ∀ i src, (i, Event.contextRead src none) ∈ k.log →
    src = .user ∧ ∀ c args, k.requests[i]? ≠ some (.execute c args)

/-! ### User code without a request context -/

def UserAct.publishes : UserAct V → Bool
  | .publish _ => true
  | _ => false

/-- Without a request context user code runs until it publishes. -/
theorem run_runActs_of_unset {w : World V} (h : requestContextIn w.context = none)
    (acts : List (UserAct V)) :
    ((runActs acts).run w).1 =
      if acts.any UserAct.publishes then .error .terminate else .ok () := by
  induction acts generalizing w with
  | nil => rfl
  | cons a acts ih =>
      rw [runActs, Exec.each_cons, List.any_cons]
      cases a with
      | publish p =>
          have hpublish : (UserAct.publish p).toBridge.run w =
              (.error .terminate, { w with log := w.log ++ [.contextRead .user none] }) :=
            Exec.run_bind_error (run_getRequestContext_of_unset h .user)
          rw [Exec.run_bind_error hpublish]
          rfl
      | setVariable x v =>
          exact ih ((Context.lookup_set_of_ne w.context v x.property.symm).trans h)
      | createTask => exact ih h

/-- A call of user code, without a request context. -/
theorem run_userCall_of_unset {w : World V} (h : requestContextIn w.context = none)
    (call : UserCall V) :
    (call.run.run w).1 =
      if call.acts.any UserAct.publishes then .error .terminate
      else (call.outcome.toExec.run ((runActs call.acts).run w).2).1 := by
  have hacts := run_runActs_of_unset h call.acts
  rcases hr : (runActs call.acts).run w with ⟨r, w'⟩
  rw [hr] at hacts
  unfold UserCall.run
  split at hacts <;> rename_i hp
  · rw [if_pos hp, Exec.run_bind_error (hr.trans (congrArg (·, w') hacts))]
  · rw [if_neg hp, Exec.run_bind_ok (hr.trans (congrArg (·, w') hacts))]

/-- The exception a computation raised. -/
def raisedBy {α : Type} : Except Fault α → Option PyExc
  | .error (.raised e) => some e
  | _ => none

/-- Does the handler of the query have an exception to report, if it is served
without a request context? `inspect_request_impl` always has. -/
def Query.reportsUnset (env : Env) (call : UserCall V) : Query → Bool
  | .inspect _ _ _ => true
  | .shutdown _ => false
  | q => env.overrides.overridesHook q.hook && !call.acts.any UserAct.publishes &&
      !call.outcome.sendable

/-- A hook raises, or returns what cannot be converted, if it is the subclass's and
gets that far. -/
theorem raisedBy_callHook_of_unset {env : Env} {call : UserCall V} {hook : HookCall} {v : Json}
    (hbase : baseHook hook = (pure (.json v) : Bridge V PyValue)) {w : World V}
    (h : requestContextIn w.context = none) :
    (raisedBy ((callHook env.overrides call hook >>= castToJson env.lib).run w).1).isSome =
      (env.overrides.overridesHook hook && !call.acts.any UserAct.publishes &&
        !call.outcome.sendable) := by
  have hcall : (callHook env.overrides call hook).run w =
      (if env.overrides.overridesHook hook then call.run else baseHook hook).run
        { w with log := w.log ++ [.called hook] } := Exec.run_bind_ok (Exec.run_update _ w)
  cases ho : env.overrides.overridesHook hook with
  | false =>
      -- The base class's method returns JSON.
      rw [ho, if_neg Bool.false_ne_true, hbase] at hcall
      rw [Exec.run_bind_ok hcall]
      rfl
  | true =>
      rw [ho, if_pos rfl] at hcall
      have hrun := run_userCall_of_unset (w := { w with log := w.log ++ [.called hook] }) h call
      rcases hr : call.run.run { w with log := w.log ++ [.called hook] } with ⟨r, w'⟩
      rw [hr] at hrun hcall
      simp only at hrun
      cases hp : call.acts.any UserAct.publishes with
      | true =>
          -- Its first publication terminates the process, so nothing is raised.
          rw [hp, if_pos rfl] at hrun
          rw [Exec.run_bind_error (hcall.trans (congrArg (·, w') hrun))]
          rfl
      | false =>
          rw [hp, if_neg Bool.false_ne_true] at hrun
          rcases hout : call.outcome with ⟨_ | v | _⟩ | e <;> rw [hout] at hrun <;>
            first
              | rw [Exec.run_bind_ok (hcall.trans (congrArg (·, w') hrun))]; rfl
              | rw [Exec.run_bind_error (hcall.trans (congrArg (·, w') hrun))]; rfl

/-- **When a handler has an exception to report** although no request context is
set. -/
theorem Query.raisedBy_attempt_of_unset (env : Env) (call : UserCall V) (q : Query) {w : World V}
    (h : requestContextIn w.context = none) :
    (raisedBy ((q.attempt env call).run w).1).isSome = q.reportsUnset env call := by
  cases q with
  | complete code cursorPos => exact raisedBy_callHook_of_unset rfl h
  | isComplete code => exact raisedBy_callHook_of_unset rfl h
  | inspect => rfl
  | shutdown => rfl

/-! ### The lookups of one step -/

theorem mem_queryTail_iff (env : Env) (i : Nat) (seen : Option V) (r : Except Fault Json) :
    Event.contextRead .bridge none ∈ (queryTail env i seen r).2 ↔
      seen = none ∧ (raisedBy r).isSome := by
  rcases r with (e | _) | reply
  · cases seen <;> simp [queryTail, raisedBy]
  · simp [queryTail, raisedBy]
  · simp [queryTail, raisedBy]

/-- Up to its `catch` block the handler of a query makes no lookup of its own. -/
theorem Query.bridge_not_mem_attempt (env : Env) (call : UserCall V) (q : Query)
    (context : Context String V) (found : Option V) :
    Event.contextRead .bridge found ∉ ((q.attempt env call).run (World.start context)).2.log := by
  by_cases hq : q.reachesHook
  · obtain ⟨new, hlog, hnew⟩ :=
      (Query.attempt_of_reachesHook env call (w := World.start context) hq rfl).1.log
    rw [hlog]
    intro hmem
    rcases List.mem_append.mp hmem with hmem | hmem
    · simp [World.start] at hmem
    · exact absurd (hnew _ hmem) (by simp [Event.OfUser])
  · rw [Query.attempt_of_not_reachesHook hq]
    simp [World.start]

/-- The `try` block of the handler of a query keeps the request context. -/
theorem Query.context_attempt (env : Env) (call : UserCall V) (q : Query)
    (context : Context String V) :
    requestContextIn ((q.attempt env call).run (World.start context)).2.context =
      requestContextIn context := by
  by_cases hq : q.reachesHook
  · exact (Query.attempt_of_reachesHook env call (w := World.start context) hq rfl).1.context
  · rw [Query.attempt_of_not_reachesHook hq]
    rfl

/-- **Serving a query** keeps the request context of the shell thread, and reports
without one exactly if there is none and the handler has something to report. -/
theorem served_query (env : Env) (k : Kernel V) (q : Query) (call : UserCall V) :
    requestContextIn (k.served env (.query q) call).context = requestContextIn k.shellContext ∧
      (Event.contextRead .bridge none ∈ (k.served env (.query q) call).log ↔
        requestContextIn k.shellContext = none ∧ q.reportsUnset env call) := by
  have hbefore := Query.bridge_not_mem_attempt env call q k.shellContext none
  have hcontext := Query.context_attempt env call q k.shellContext
  have hraised := Query.raisedBy_attempt_of_unset env call q
    (w := World.start k.shellContext)
  rcases hr : (q.attempt env call).run (World.start k.shellContext) with ⟨r, w₁⟩
  rw [hr] at hbefore hcontext hraised
  rw [Kernel.served, run_handleRequest_query env call _ q hr]
  refine ⟨hcontext, ?_⟩
  simp only at hbefore hcontext ⊢
  rw [List.mem_append, or_iff_right hbefore, hcontext, mem_queryTail_iff]
  exact and_congr_right fun hunset => by rw [← hraised hunset]

/-- **Serving an execute request** sets the request context of the shell thread, and
every lookup finds it. -/
theorem served_execute (env : Env) (k : Kernel V) (c : V) (args : ExecuteArgs)
    (call : UserCall V) :
    requestContextIn (k.served env (.execute c args) call).context = some c ∧
      ∀ src, Event.contextRead src none ∉ (k.served env (.execute c args) call).log := by
  obtain ⟨w, hrun, hext⟩ :=
    run_handleRequest_execute env call k.requests.length c args k.shellContext
  rw [Kernel.served, hrun]
  exact ⟨hext.stillSet, fun src hmem => by simpa [Event.Sees] using hext.sees.log _ hmem⟩

/-- A lookup that finds nothing is made in a task of a query only, by user code. -/
theorem Isolated.unset_of_task {k : Kernel V} (h : Isolated k) {env : Env} {t : Task V}
    (ht : t ∈ k.tasks) {step : CoroutineStep V} {src : Source}
    (hmem : Event.contextRead src none ∈ (t.world env step).log) :
    src = .user ∧ ∀ c args, k.requests[t.owner]? ≠ some (.execute c args) := by
  have hno : ∀ c, k.contextOf t.owner ≠ some c := by
    intro c hc
    simpa [Event.Sees] using ((h.task_step env ht step).2.2 c hc).1.log _ hmem
  refine ⟨?_, fun c args hexec => hno c (Kernel.contextOf_eq_some.mpr ⟨args, hexec⟩)⟩
  cases hkind : t.kind with
  | wrapped cb args =>
      obtain ⟨howner, c, hc⟩ := h.wrappedOwner t ht cb args hkind
      exact absurd (howner ▸ hc) (hno c)
  | user =>
      obtain ⟨new, hlog, hnew⟩ := (run_userCoroutine_log step t.context).log
      rw [Task.world, Task.code, hkind] at hmem
      have hmem' : Event.contextRead src none ∈ ([] : List (Event V)) ++ new := hlog ▸ hmem
      exact hnew _ (by simpa using hmem')

/-! ### Runs -/

/-- What is recorded for one request adds its own lookups and no others. -/
theorem publishesWithContext_record {k k' : Kernel V} (hiso : Isolated k) {owner : Nat}
    {events : List (Event V)} {rs : List (Request V)} (hrequests : k'.requests = k.requests ++ rs)
    (hlog : k'.log = k.log ++ events.map fun e => (owner, e)) :
    PublishesWithContext k' ↔ PublishesWithContext k ∧
      ∀ src, .contextRead src none ∈ events →
        src = .user ∧ ∀ c args, k'.requests[owner]? ≠ some (.execute c args) := by
  -- An entry of the old log belongs to a request whose place has not moved.
  have hold : ∀ i src, (i, Event.contextRead src none) ∈ k.log →
      k'.requests[i]? = k.requests[i]? := by
    intro i src hmem
    rw [hrequests, List.getElem?_append_left (hiso.logOwner _ hmem)]
  constructor
  · intro h
    refine ⟨fun i src hmem => ?_, fun src hmem => h owner src ?_⟩
    · have hall := h i src (by rw [hlog]; exact List.mem_append_left _ hmem)
      rwa [hold i src hmem] at hall
    · rw [hlog]
      exact List.mem_append_right _ (List.mem_map.mpr ⟨_, hmem, rfl⟩)
  · rintro ⟨h, hnew⟩ i src hmem
    rw [hlog] at hmem
    rcases List.mem_append.mp hmem with hmem | hmem
    · rw [hold i src hmem]
      exact h i src hmem
    · obtain ⟨e, he, heq⟩ := List.mem_map.mp hmem
      obtain ⟨rfl, rfl⟩ := Prod.mk.inj heq
      exact hnew src he

/-- Does the action hand an execute request to the interpreter? -/
def KernelAction.isExecute : KernelAction V → Bool
  | .serve (.execute _ _) _ => true
  | _ => false

/-- Does the action make the bridge report an error, if no request context is set? -/
def KernelAction.reportsUnset (env : Env) : KernelAction V → Bool
  | .serve (.query q) call => q.reportsUnset env call
  | _ => false

/-- One step: the shell thread gets its request context from execute requests and
keeps it, and a lookup goes wrong exactly if a report comes before it has one. -/
theorem publishesWithContext_step {env : Env} {k k' : Kernel V} {a : KernelAction V}
    (hiso : Isolated k) (h : (kernelMachine V env).step k a = some k') :
    (requestContextIn k'.shellContext = none ↔
      requestContextIn k.shellContext = none ∧ a.isExecute = false) ∧
    (PublishesWithContext k' ↔ PublishesWithContext k ∧
      ¬ (requestContextIn k.shellContext = none ∧ a.reportsUnset env = true)) := by
  obtain ⟨-, ⟨r, call, rfl, rfl⟩ | ⟨n, step, re, rfl, hre, rfl⟩⟩ := kernelMachine_step_cases h
  · have hrecord : PublishesWithContext (k.serve env r call).state ↔ _ :=
      publishesWithContext_record hiso (k.serve_requests env r call)
        (k.serve_log env r call)
    have hlast : (k.serve env r call).state.requests[k.requests.length]? = some r := by
      rw [Kernel.serve_requests]
      simp
    rw [hrecord, hlast]
    cases r with
    | execute c args =>
        obtain ⟨hset, hno⟩ := served_execute env k c args call
        refine ⟨?_, and_congr_right fun _ => ?_⟩
        · simp only [KernelAction.isExecute, Bool.true_eq_false, and_false, iff_false]
          exact fun hnone => by simpa [hset] using hnone.symm.trans hset
        · simp only [KernelAction.reportsUnset, Bool.false_eq_true, and_false, not_false_eq_true,
            iff_true]
          exact fun src hmem => absurd hmem (hno src)
    | query q =>
        obtain ⟨hset, hlookup⟩ := served_query env k q call
        refine ⟨?_, and_congr_right fun _ => ?_⟩
        · simp only [KernelAction.isExecute, and_true]
          exact hset ▸ Iff.rfl
        · simp only [KernelAction.reportsUnset, ← hlookup]
          constructor
          · exact fun hall hmem => absurd (hall .bridge hmem).1 (by decide)
          · intro hno src hmem
            cases src with
            | bridge => exact absurd hmem hno
            | user => exact ⟨rfl, by simp⟩
  -- A task steps in its own context and serves no request.
  · obtain ⟨t, ht, -, hstate, -, -⟩ := Kernel.resume_cases hre
    have hrequests : re.state.requests = k.requests ++ [] := by
      rw [hstate, List.append_nil]
      rfl
    have hlog : re.state.log = k.log ++ (t.world env step).log.map fun e => (t.owner, e) := by
      rw [hstate]
      rfl
    have hshell : re.state.shellContext = k.shellContext := by
      rw [hstate]
      rfl
    rw [publishesWithContext_record hiso hrequests hlog, hshell]
    refine ⟨by simp [KernelAction.isExecute], and_congr_right fun _ => ?_⟩
    simp only [KernelAction.reportsUnset, Bool.false_eq_true, and_false, not_false_eq_true,
      iff_true]
    intro src hmem
    rw [hrequests, List.append_nil]
    exact hiso.unset_of_task (List.mem_of_getElem? ht) hmem

/-- Until the first execute request the shell thread runs without a request context. -/
theorem shellContext_of_run {env : Env} {as : List (KernelAction V)} {k : Kernel V}
    (h : (kernelMachine V env).run as = some k) :
    requestContextIn k.shellContext = none ↔ ∀ a ∈ as, a.isExecute = false := by
  refine Machine.run_induction
    (motive := fun as k => requestContextIn k.shellContext = none ↔ ∀ a ∈ as, a.isExecute = false)
    ?_ ?_ h
  · exact ⟨fun _ a ha => by simp at ha, fun _ => rfl⟩
  · intro as k a k' hrun ih hstep
    rw [(publishesWithContext_step (isolated_of_run hrun) hstep).1, ih]
    constructor
    · rintro ⟨hall, ha⟩ b hb
      rcases List.mem_append.mp hb with hb | hb
      · exact hall b hb
      · exact List.mem_singleton.mp hb ▸ ha
    · exact fun hall => ⟨fun b hb => hall b (List.mem_append_left _ hb), hall a (by simp)⟩

/-- **When no report of the bridge and no publication of an execute request misses
its request context**: exactly when, before the first execute request, no
inspection is asked for and no overridden completion handler fails. -/
theorem publishesWithContext_iff {env : Env} {as : List (KernelAction V)} {k : Kernel V}
    (h : (kernelMachine V env).run as = some k) :
    PublishesWithContext k ↔
      ∀ a ∈ as.takeWhile (fun a => !a.isExecute), a.reportsUnset env = false := by
  refine Machine.run_induction (motive := fun as k => PublishesWithContext k ↔
    ∀ a ∈ as.takeWhile (fun a => !a.isExecute), a.reportsUnset env = false) ?_ ?_ h
  · exact ⟨fun _ a ha => by simp at ha, fun _ i src hmem => by
      simp [kernelMachine, Kernel.initial] at hmem⟩
  · intro as k a k' hrun ih hstep
    have hbefore := shellContext_of_run hrun
    rw [(publishesWithContext_step (isolated_of_run hrun) hstep).2, ih, hbefore,
      List.takeWhile_append]
    by_cases hall : ∀ a ∈ as, a.isExecute = false
    · -- No execute request so far, so the new action counts, unless it is the first one.
      have htake : as.takeWhile (fun a => !a.isExecute) = as :=
        List.takeWhile_eq_self_iff.mpr fun a ha => by simp [hall a ha]
      rw [htake, if_pos rfl]
      cases hexec : a.isExecute with
      | true =>
          have hquiet : a.reportsUnset env = false := by
            rcases a with ⟨⟨c, args⟩ | q, call⟩ | ⟨n, step⟩ <;>
              simp_all [KernelAction.isExecute, KernelAction.reportsUnset]
          simp [hexec, hquiet]
      | false =>
          simp only [List.takeWhile_cons, hexec, Bool.not_false, if_true, List.takeWhile_nil,
            List.forall_mem_append, List.forall_mem_singleton]
          refine and_congr_right fun _ => ⟨fun hno => ?_, fun hquiet hbad => ?_⟩
          · exact Bool.eq_false_iff.mpr fun hreports => hno ⟨hall, hreports⟩
          · exact absurd hbad.2 (by simp [hquiet])
    · -- The first execute request is behind, and with it every action that counts.
      have htake : (as.takeWhile fun a => !a.isExecute).length ≠ as.length := by
        intro hlen
        apply hall
        have := List.takeWhile_eq_self_iff.mp
          ((List.takeWhile_sublist fun a : KernelAction V => !a.isExecute).eq_of_length hlen)
        exact fun a ha => by simpa using this a ha
      rw [if_neg htake]
      simp [hall]

/-- A question whether the code is complete, a cell, then an inspection. -/
def inspectionAfterCell : List (KernelAction Nat) :=
  [.serve (.query (.isComplete "print")) ⟨[], .returned .none⟩,
   .serve (.execute 7 ⟨1, "print", false, true, .obj [], true⟩) ⟨[], .returned .none⟩,
   .serve (.query (.inspect "print" 5 0)) ⟨[], .returned .none⟩]

theorem publishesWithContext_iff_of_inspectionAfterCell :
    ∃ k, (kernelMachine Nat (plainKernel .blocking)).run inspectionAfterCell = some k ∧
      (PublishesWithContext k ↔ ∀ a ∈ inspectionAfterCell.takeWhile (fun a => !a.isExecute),
        a.reportsUnset (plainKernel .blocking) = false) := by
  obtain ⟨k, hk⟩ : ∃ k,
      (kernelMachine Nat (plainKernel .blocking)).run inspectionAfterCell = some k := ⟨_, rfl⟩
  exact ⟨k, hk, publishesWithContext_iff hk⟩

/-- The front end asks for an inspection before the first cell has run: the report of
the `TypeError` finds no request context. -/
theorem unset_of_first_inspection :
    ∃ k, (kernelMachine Nat (plainKernel .blocking)).run
        [.serve (.query (.inspect "print" 5 0)) ⟨[], .returned .none⟩] = some k ∧
      k.alive = false ∧ ¬ PublishesWithContext k := by
  obtain ⟨k, hk⟩ : ∃ k, (kernelMachine Nat (plainKernel .blocking)).run
      [.serve (.query (.inspect "print" 5 0)) ⟨[], .returned .none⟩] = some k := ⟨_, rfl⟩
  have hlog : k.log = [(0, .contextRead .bridge none)] :=
    Machine.read_run Kernel.log hk rfl
  refine ⟨k, hk, Machine.read_run Kernel.alive hk rfl, fun h => ?_⟩
  exact absurd (h 0 .bridge (by simp [hlog])).1 (by decide)

end XeusPywrap
