import XeusPywrap.Interpreter.Xinterpreter

/-!
# XeusPywrap.Interpreter.Queries

What the handlers of queries can do in *any* world, whether the request context
is set or not: user code has no other means than its acts, and the bridge reports
errors and answers its own request.

The facts are invariants in the sense of `Exec.Maintains`, built up along the
structure of the code: acts, a user's call, a hook, a guarded call, a handler.
-/

namespace XeusPywrap

variable {V : Type}

/-- The event was caused by user code: one of its publications, or the lookup of
the request context such a publication starts with. -/
def Event.OfUser : Event V → Prop
  | .contextRead src _ => src = .user
  | .published src _ => src = .user
  | _ => False

/-- So far user code has added `new` to the log `start`, and no coroutine that
would have to answer a request; the request context is still what it was. -/
structure UserExtends (start : List (Event V)) (seen : Option V) (w : World V) : Prop where
  log : ∃ new, w.log = start ++ new ∧ ∀ e ∈ new, e.OfUser
  created : coroutines w.spawned = []
  context : requestContextIn w.context = seen

theorem UserExtends.emit {start : List (Event V)} {seen : Option V} {w : World V}
    (h : UserExtends start seen w) {e : Event V} (he : e.OfUser) :
    UserExtends start seen { w with log := w.log ++ [e] } := by
  obtain ⟨new, hlog, hnew⟩ := h.log
  refine ⟨⟨new ++ [e], by rw [hlog, List.append_assoc], ?_⟩, h.created, h.context⟩
  intro e' he'
  rcases List.mem_append.mp he' with he' | he'
  · exact hnew e' he'
  · exact List.mem_singleton.mp he' ▸ he

/-- User code has no callback to deliver a reply with. -/
theorem deliveries_of_user {l : List (Event V)} (h : ∀ e ∈ l, e.OfUser) : deliveries l = [] := by
  rw [deliveries, List.filterMap_eq_nil_iff]
  intro e he
  cases e with
  | delivered i seen reply => exact (h _ he).elim
  | _ => rfl

theorem UserExtends.deliveries_eq {start : List (Event V)} {seen : Option V} {w : World V}
    (h : UserExtends start seen w) : deliveries w.log = deliveries start := by
  obtain ⟨new, hlog, hnew⟩ := h.log
  rw [hlog, deliveries_append, deliveries_of_user hnew, List.append_nil]

section UserCode

variable {start : List (Event V)} {seen : Option V}

theorem maintains_emit {e : Event V} (he : e.OfUser) :
    Exec.Maintains (UserExtends start seen) (fun _ => True) (emit e) :=
  Exec.Maintains.update fun _ h => h.emit he

theorem maintains_getRequestContext :
    Exec.Maintains (UserExtends start seen) (fun _ => True)
      (getRequestContext .user : Bridge V V) := by
  refine Exec.Maintains.bind (fun w h => ⟨h, by simp⟩) fun w => ?_
  refine (maintains_emit (e := .contextRead .user _) rfl).bind fun _ => ?_
  split
  · exact Exec.Maintains.pure _
  · exact Exec.Maintains.fail trivial

theorem maintains_toBridge (a : UserAct V) :
    Exec.Maintains (UserExtends start seen) (fun _ => True) a.toBridge := by
  cases a with
  | publish p =>
      exact maintains_getRequestContext.bind fun _ => maintains_emit (e := .published .user p) rfl
  | setVariable x v =>
      refine Exec.Maintains.update fun w h => ⟨h.log, h.created, ?_⟩
      rw [← h.context]
      exact Context.lookup_set_of_ne _ _ x.property.symm
  | createTask =>
      refine Exec.Maintains.update fun w h => ⟨h.log, ?_, h.context⟩
      rw [coroutines_append, h.created]
      rfl

theorem maintains_runActs (acts : List (UserAct V)) :
    Exec.Maintains (UserExtends start seen) (fun _ => True) (runActs acts) :=
  Exec.Maintains.each maintains_toBridge acts

theorem maintains_outcome (o : Outcome) :
    Exec.Maintains (UserExtends start seen) (fun _ => True) (o.toExec : Bridge V PyValue) := by
  cases o with
  | returned v => exact Exec.Maintains.pure v
  | raised e => exact Exec.Maintains.fail trivial

theorem maintains_userCall (call : UserCall V) :
    Exec.Maintains (UserExtends start seen) (fun _ => True) call.run :=
  (maintains_runActs call.acts).bind fun _ => maintains_outcome call.outcome

theorem maintains_baseHook (hook : HookCall) :
    Exec.Maintains (UserExtends start seen) (fun _ => True)
      (baseHook hook : Bridge V PyValue) := by
  cases hook with
  | execute => exact Exec.Maintains.fail trivial
  | _ => exact Exec.Maintains.pure _

theorem maintains_userCoroutine (step : CoroutineStep V) :
    Exec.Maintains (UserExtends start seen) (fun _ => True) (userCoroutine step) := by
  refine (maintains_runActs step.acts).bind fun _ => ?_
  cases step.ends with
  | none => exact Exec.Maintains.pure true
  | some o => exact (maintains_outcome o).bind fun _ => Exec.Maintains.pure false

end UserCode

/-- **A hook runs once.** Calling an overridable method logs the call, and all that
follows is caused by user code. -/
theorem run_callHook (o : Overrides) (call : UserCall V) (hook : HookCall) {w : World V}
    (hw : coroutines w.spawned = []) :
    UserExtends (w.log ++ [.called hook]) (requestContextIn w.context)
      ((callHook o call hook).run w).2 := by
  have hstart : UserExtends (w.log ++ [.called hook]) (requestContextIn w.context)
      { w with log := w.log ++ [.called hook] } := ⟨⟨[], by simp⟩, hw, rfl⟩
  rw [callHook, emit, Exec.run_bind_ok (Exec.run_update _ w)]
  split
  · exact (maintains_userCall call _ hstart).1
  · exact (maintains_baseHook hook _ hstart).1

theorem run_userCoroutine_log (step : CoroutineStep V) (context : Context String V) :
    UserExtends [] (requestContextIn context)
      ((userCoroutine step).run ⟨context, [], []⟩).2 := by
  have hstart : UserExtends [] (requestContextIn context) (⟨context, [], []⟩ : World V) :=
    ⟨⟨[], rfl, by simp⟩, rfl, rfl⟩
  exact (maintains_userCoroutine step _ hstart).1

/-! ### The handlers, by what their `try` block does -/

/-- The overridable method a query is about, with the arguments of the query. -/
def Query.hook : Query → HookCall
  | .complete code cursorPos => .complete code cursorPos
  | .isComplete code => .isComplete code
  | .inspect code cursorPos detailLevel => .inspect code cursorPos detailLevel
  | .shutdown restart => .shutdown restart

/-- Does the handler of the query call its method? -/
def Query.reachesHook : Query → Bool
  | .complete _ _ => true
  | .isComplete _ => true
  | .inspect _ _ _ => false
  | .shutdown _ => false

/-- What the handler of a query does up to its `catch` block. The call of
`inspect_request_impl` does not get past the signature of `_inspect_request`, and
`shutdown_request_impl` calls nothing. -/
def Query.attempt (env : Env) (call : UserCall V) : Query → Bridge V Json
  | .complete code cursorPos => do
      let ret ← callHook env.overrides call (.complete code cursorPos)
      castToJson env.lib ret
  | .isComplete code => do
      let ret ← callHook env.overrides call (.isComplete code)
      castToJson env.lib ret
  | .inspect _ _ _ => Exec.fail (.raised (missingArguments .inspectRequest 0))
  | .shutdown _ => pure (env.lib.createShutdownReply false)

theorem Query.handle_eq (env : Env) (call : UserCall V) (q : Query) :
    q.handle env call = catchStdException (q.attempt env call) (reportError env) := by
  cases q <;> rfl

section Handlers

variable {env : Env} {call : UserCall V} {q : Query} {w w' : World V}

/-- A query whose method is called logs the call, and all that follows up to the
`catch` block is caused by user code. -/
theorem Query.attempt_of_reachesHook (env : Env) (call : UserCall V) (h : q.reachesHook)
    (hw : coroutines w.spawned = []) :
    UserExtends (w.log ++ [.called q.hook]) (requestContextIn w.context)
        ((q.attempt env call).run w).2 ∧
      ((q.attempt env call).run w).2 = ((callHook env.overrides call q.hook).run w).2 := by
  have hattempt : q.attempt env call =
      (callHook env.overrides call q.hook >>= castToJson env.lib) := by
    cases q <;> first | rfl | simp [Query.reachesHook] at h
  have hstate : ((q.attempt env call).run w).2 =
      ((callHook env.overrides call q.hook).run w).2 := by
    rw [hattempt]
    rcases hr : (callHook env.overrides call q.hook).run w with ⟨r, w₁⟩
    cases r with
    | error fault => rw [Exec.run_bind_error hr]
    | ok ret =>
        rw [Exec.run_bind_ok hr]
        unfold castToJson
        cases ret.toJson? <;> rfl
  exact ⟨hstate ▸ run_callHook env.overrides call q.hook hw, hstate⟩

/-- A query whose method is not called leaves no trace before the `catch` block. -/
theorem Query.attempt_of_not_reachesHook (h : ¬ q.reachesHook) :
    ((q.attempt env call).run w).2 = w := by
  cases q <;> first | rfl | simp [Query.reachesHook] at h

theorem Query.run_handle_of_ok {reply : Json} (h : (q.attempt env call).run w = (.ok reply, w')) :
    (q.handle env call).run w = (.ok reply, w') := by
  rw [Query.handle_eq]
  exact run_catchStdException_ok h

/-- An exception is reported to the front end, if there is a request context the
report can be addressed with. -/
theorem Query.run_handle_of_raised {e : PyExc} {c : V}
    (h : (q.attempt env call).run w = (.error (.raised e), w'))
    (hset : requestContextIn w'.context = some c) :
    (q.handle env call).run w =
      (.ok (env.lib.createErrorReply (env.lib.what e) "Exception" .null),
        { w' with log := w'.log ++ [.contextRead .bridge (some c),
          .published .bridge (.executionError "Excetpion" (env.lib.what e) [])] }) := by
  rw [Query.handle_eq, run_catchStdException_raised h]
  exact Exec.run_bind_ok (run_publish_of_set hset _ _)

/-- Otherwise the report terminates the process. -/
theorem Query.run_handle_of_raised_unset {e : PyExc}
    (h : (q.attempt env call).run w = (.error (.raised e), w'))
    (hset : requestContextIn w'.context = none) :
    (q.handle env call).run w =
      (.error .terminate, { w' with log := w'.log ++ [.contextRead .bridge none] }) := by
  rw [Query.handle_eq, run_catchStdException_raised h]
  exact Exec.run_bind_error (Exec.run_bind_error (run_getRequestContext_of_unset hset _))

theorem Query.run_handle_of_terminate
    (h : (q.attempt env call).run w = (.error .terminate, w')) :
    (q.handle env call).run w = (.error .terminate, w') := by
  rw [Query.handle_eq]
  exact run_catchStdException_terminate h

end Handlers

end XeusPywrap
