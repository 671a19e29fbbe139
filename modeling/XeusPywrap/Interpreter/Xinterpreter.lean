import XeusPywrap.Interpreter.InterpreterBase

/-!
# XeusPywrap.Interpreter.Xinterpreter

`src/xinterpreter.cpp`: the request handlers of the C++ class `interpreter`.

Every handler that calls into Python guards the call with
`catch (std::exception&)` and reports what it caught with
`publish_execution_error`. `run_executeRequestImpl_*` say what the handler of an
execute request adds to a world whose request context is set, for a blocking
kernel and for an async one; in particular it always returns.
-/

namespace XeusPywrap

variable {V : Type}

/-- Convert what a Python method returned to JSON. -/
def castToJson (lib : Libraries) (ret : PyValue) : Bridge V Json :=
  match ret.toJson? with
  | some v => pure v
  | none => Exec.fail (.raised lib.conversionError)

/-- The body of the `catch` blocks, up to the reply: the text is the code's. -/
def publishExecutionError (errorMessage : String) : Bridge V Unit :=
  publish .bridge (.executionError "Excetpion" errorMessage [])

/-- `interpreter::execute_request_impl`. -/
def executeRequestImpl (env : Env) (call : UserCall V) (cb : Nat) (args : ExecuteArgs) :
    Bridge V Unit :=
  catchStdException
    (do
      let _ ← callMethod env call .executeRequest
        [.callback cb, .int args.executionCount, .str args.code, .bool args.silent,
         .bool args.storeHistory, .json args.userExpressions, .bool args.allowStdin]
      pure ())
    (fun e => do
      let errorMessage := env.lib.what e
      publishExecutionError errorMessage
      -- The statement computes a reply and drops it.
      let _reply := env.lib.createErrorReply errorMessage "Exception" .null
      pure ())

/-- The `catch` block of the handlers that return a reply. -/
def reportError (env : Env) (e : PyExc) : Bridge V Json := do
  let errorMessage := env.lib.what e
  publishExecutionError errorMessage
  pure (env.lib.createErrorReply errorMessage "Exception" .null)

/-- The `try` block of the handlers that return what a Python method returns. -/
def callForReply (env : Env) (call : UserCall V) (m : Method) (args : List PyArg) :
    Bridge V Json := do
  let ret ← callMethod env call m args
  castToJson env.lib ret

/-- `interpreter::is_complete_request_impl`. -/
def isCompleteRequestImpl (env : Env) (call : UserCall V) (code : String) : Bridge V Json :=
  catchStdException (callForReply env call .isCompleteRequest [.str code]) (reportError env)

/-- `interpreter::complete_request_impl`. -/
def completeRequestImpl (env : Env) (call : UserCall V) (code : String) (cursorPos : Int) :
    Bridge V Json :=
  catchStdException (callForReply env call .completeRequest [.str code, .int cursorPos])
    (reportError env)

/-- `interpreter::inspect_request_impl`; the parameters are not named in the
source, and the call passes nothing on. -/
def inspectRequestImpl (env : Env) (call : UserCall V) (_code : String)
    (_cursorPos _detailLevel : Int) : Bridge V Json :=
  catchStdException (callForReply env call .inspectRequest []) (reportError env)

/-- `interpreter::shutdown_request_impl`; the call into Python is commented out. -/
def shutdownRequestImpl (env : Env) (_call : UserCall V) (_restart : Bool) : Bridge V Json :=
  pure (env.lib.createShutdownReply false)

/-- The requests a handler answers with the JSON value it returns. -/
inductive Query
  | complete (code : String) (cursorPos : Int)
  | isComplete (code : String)
  | inspect (code : String) (cursorPos detailLevel : Int)
  | shutdown (restart : Bool)

/-- The handler of a query. -/
def Query.handle (env : Env) (call : UserCall V) : Query → Bridge V Json
  | .complete code cursorPos => completeRequestImpl env call code cursorPos
  | .isComplete code => isCompleteRequestImpl env call code
  | .inspect code cursorPos detailLevel => inspectRequestImpl env call code cursorPos detailLevel
  | .shutdown restart => shutdownRequestImpl env call restart

/-! ### The handler of execute requests -/

section Set

variable {c : V} {w : World V} {env : Env}

theorem extends_publishExecutionError (h : requestContextIn w.context = some c)
    (errorMessage : String) :
    ∃ w', (publishExecutionError errorMessage).run w = (.ok (), w') ∧ Extends c [] [] w w' :=
  ⟨_, run_publish_of_set h _ _, extends_publish h _ _⟩

/-- What the `try` block of `execute_request_impl` calls. -/
theorem callMethod_executeRequest (env : Env) (call : UserCall V) (cb : Nat)
    (args : ExecuteArgs) :
    callMethod env call .executeRequest
        [.callback cb, .int args.executionCount, .str args.code, .bool args.silent,
         .bool args.storeHistory, .json args.userExpressions, .bool args.allowStdin] =
      (executeRequestOf env call cb args >>= fun _ => pure .none) := rfl

/-- An exception that reaches the `catch` block is published, and that is all. -/
theorem run_executeRequestImpl_of_raised {call : UserCall V} {cb : Nat} {args : ExecuteArgs}
    {w' : World V} {e : PyExc} (hset : requestContextIn w'.context = some c)
    (h : (executeRequestOf env call cb args).run w = (.error (.raised e), w')) :
    ∃ w'', (executeRequestImpl env call cb args).run w = (.ok (), w'') ∧
      Extends c [] [] w' w'' := by
  obtain ⟨w'', hrun, hext⟩ := extends_publishExecutionError hset (env.lib.what e)
  refine ⟨w'', ?_, hext⟩
  rw [executeRequestImpl, callMethod_executeRequest,
    run_catchStdException_raised (Exec.run_bind_error (Exec.run_bind_error h))]
  exact Exec.run_bind_ok hrun

theorem run_executeRequestImpl_of_ok {call : UserCall V} {cb : Nat} {args : ExecuteArgs}
    {w' : World V}
    (h : (executeRequestOf env call cb args).run w = (.ok (), w')) :
    (executeRequestImpl env call cb args).run w = (.ok (), w') := by
  have hcall : (executeRequestOf env call cb args >>= fun _ => pure PyValue.none).run w =
      (.ok .none, w') := Exec.run_bind_ok h
  rw [executeRequestImpl, callMethod_executeRequest]
  exact run_catchStdException_ok (Exec.run_bind_ok hcall)

/-- The reply `BlockingInterpreterBase._execute_request` hands to the callback. -/
def Libraries.blockingReply (lib : Libraries) : Outcome → Option Json
  | .returned ret => (lib.replyOf ret).toJson?
  | .raised _ => none

/-- The handler of an `Exception` publishes the traceback and replies nothing, and may
raise in doing so. -/
theorem run_blocking_onException (env : Env) (h : requestContextIn w.context = some c) (e : PyExc) :
    ∃ w', Extends c [] [] w w' ∧
      ((BlockingInterpreterBase.onException env e).run w = (.ok (), w') ∨
        ∃ e', (BlockingInterpreterBase.onException env e).run w = (.error (.raised e'), w')) := by
  obtain ⟨w', hext, hrun⟩ := run_reportException h env.lib e
  refine ⟨w', hext, ?_⟩
  unfold BlockingInterpreterBase.onException
  cases hfault : env.lib.reportFault e with
  | none =>
      rw [hfault] at hrun
      exact .inl (Exec.run_bind_ok hrun)
  | some e' =>
      rw [hfault] at hrun
      exact .inr ⟨e', Exec.run_bind_error hrun⟩

/-- **`_execute_request` of a blocking kernel**, by the outcome of the user's call:
a value that can be sent is delivered last; an `Exception` ends in a traceback on
`stderr`; any other exception, and one raised by the report, goes on to C++. -/
theorem run_blocking_executeRequest (env : Env) (hset : requestContextIn w.context = some c)
    (call : UserCall V) (cb : Nat) (args : ExecuteArgs) :
    ∃ w₁, Extends c [] [] w w₁ ∧
      match env.lib.blockingReply call.outcome with
      | some reply =>
          (BlockingInterpreterBase.executeRequest env call cb args).run w =
            (.ok (), { w₁ with
              log := w₁.log ++ [.delivered cb (requestContextIn w₁.context) reply] })
      | none =>
          ∃ w₂, Extends c [] [] w₁ w₂ ∧
            ((BlockingInterpreterBase.executeRequest env call cb args).run w = (.ok (), w₂) ∨
              ∃ e, (BlockingInterpreterBase.executeRequest env call cb args).run w =
                (.error (.raised e), w₂)) := by
  obtain ⟨w₁, hcall, hext⟩ := run_callHook_execute_of_set hset env.overrides call args
  refine ⟨w₁, hext, ?_⟩
  unfold BlockingInterpreterBase.executeRequest
  cases hout : call.outcome with
  | raised e =>
      rw [hout, Outcome.run_toExec_raised] at hcall
      simp only [Libraries.blockingReply]
      rw [run_exceptException_raised (Exec.run_bind_error hcall)]
      by_cases he : e.isException
      · rw [if_pos he]
        exact run_blocking_onException env hext.stillSet e
      · rw [if_neg he]
        exact ⟨w₁, Extends.refl hext.stillSet, .inr ⟨e, rfl⟩⟩
  | returned ret =>
      rw [hout, Outcome.run_toExec_returned] at hcall
      simp only [Libraries.blockingReply]
      cases hret : (env.lib.replyOf ret).toJson? with
      | some reply =>
          apply run_exceptException_ok
          rw [Exec.run_bind_ok hcall]
          exact run_sendReplyCallback_of_json hret
      | none =>
          -- `cb(ret)` itself raises, inside the `try` block.
          have hraised : (sendReplyCallback env.lib cb (env.lib.replyOf ret)).run w₁ = _ :=
            run_sendReplyCallback_of_unconvertible hret
          rw [run_exceptException_raised ((Exec.run_bind_ok hcall).trans hraised),
            if_pos env.lib.typeError_isException]
          exact run_blocking_onException env hext.stillSet env.lib.typeError

/-- **`execute_request_impl` of a blocking kernel.** It returns; if the outcome of
the user's call can be sent it ends with the delivery, otherwise it delivers
nothing. -/
theorem run_executeRequestImpl_blocking (hbase : env.base = .blocking)
    (hset : requestContextIn w.context = some c) (call : UserCall V) (cb : Nat)
    (args : ExecuteArgs) :
    ∃ w₁ w', Extends c [] [] w w₁ ∧
      (executeRequestImpl env call cb args).run w = (.ok (), w') ∧
      match env.lib.blockingReply call.outcome with
      | some reply =>
          w' = { w₁ with log := w₁.log ++ [.delivered cb (requestContextIn w₁.context) reply] }
      | none => Extends c [] [] w₁ w' := by
  obtain ⟨w₁, hext, hrun⟩ := run_blocking_executeRequest env hset call cb args
  have hof : executeRequestOf env call cb args =
      BlockingInterpreterBase.executeRequest env call cb args := by
    rw [executeRequestOf, hbase]
  rw [← hof] at hrun
  cases hreply : env.lib.blockingReply call.outcome with
  | some reply =>
      rw [hreply] at hrun
      exact ⟨w₁, _, hext, run_executeRequestImpl_of_ok hrun, rfl⟩
  | none =>
      rw [hreply] at hrun
      obtain ⟨w₂, hext₂, hok | ⟨e, hraised⟩⟩ := hrun
      · exact ⟨w₁, w₂, hext, run_executeRequestImpl_of_ok hok, hext₂⟩
      · obtain ⟨w₃, hrun₃, hext₃⟩ := run_executeRequestImpl_of_raised hext₂.stillSet hraised
        exact ⟨w₁, w₃, hext, hrun₃, hext₂.trans hext₃⟩

/-- **`execute_request_impl` of an async kernel.** If the name `asyncio` is bound it
creates one coroutine for the request and delivers nothing yet; otherwise the
`NameError` is published, and there is no coroutine that could ever reply. -/
theorem run_executeRequestImpl_async (hbase : env.base = .async)
    (hset : requestContextIn w.context = some c) (call : UserCall V) (cb : Nat)
    (args : ExecuteArgs) :
    ∃ w', (executeRequestImpl env call cb args).run w = (.ok (), w') ∧
      Extends c [] (if "asyncio" ∈ env.globals then [cb] else []) w w' := by
  by_cases hbound : "asyncio" ∈ env.globals
  · rw [if_pos hbound]
    refine ⟨{ w with spawned := w.spawned ++ [⟨.wrapped cb args, w.context⟩] },
      run_executeRequestImpl_of_ok ?_, ⟨hset, ⟨[], by simp⟩, ⟨_, rfl, by simpa using hset, rfl⟩⟩⟩
    rw [executeRequestOf, hbase]
    simp only [AsyncInterpreterBase.executeRequest, lookupGlobal, if_pos hbound]
    rfl
  · rw [if_neg hbound]
    apply run_executeRequestImpl_of_raised (e := nameError "asyncio") hset
    rw [executeRequestOf, hbase]
    simp only [AsyncInterpreterBase.executeRequest, lookupGlobal, if_neg hbound]
    rfl

end Set

end XeusPywrap
