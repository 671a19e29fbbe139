import XeusPywrap.Interpreter.World

/-!
# XeusPywrap.Interpreter.InterpreterBase

`module/xpywrap/interpreter_base.py`: the overridable methods with their
defaults, the underscore wrappers C++ calls, and the two `_execute_request`
methods of `BlockingInterpreterBase` and `AsyncInterpreterBase`.

C++ reaches this module through `m_py_interpreter.attr(name)(args...)`, a call
nothing checks before it happens. `callMethod` is that call: arguments that do
not fit the wrapper's signature make it raise a `TypeError` here, at run time.
-/

namespace XeusPywrap

variable {V : Type}

/-! ### The kernel's subclass and its libraries -/

/-- The base class the kernel's interpreter derives from. -/
inductive Base
  | blocking
  | async
  deriving DecidableEq, Repr

/-- The optional methods a subclass overrides. `execute_request` is abstract, so
every subclass overrides it. -/
structure Overrides where
  inspectRequest : Bool
  isCompleteRequest : Bool
  completeRequest : Bool
  shutdownRequest : Bool

/-- A kernel: its libraries, its base class, the names `interpreter_base.py`
binds at module level, and what the subclass overrides. -/
structure Env where
  lib : Libraries
  base : Base
  globals : List String
  overrides : Overrides

/-- The names the text of `interpreter_base.py` binds at module level: by its
imports, by the assignment to `_interpreter`, and by its definitions. -/
def interpreterBaseGlobals : List String :=
  ["ABC", "abstractmethod", "traceback", "redirect_stdout", "contextmanager",
   "create_successful_reply", "create_error_reply", "_interpreter", "get_interpreter",
   "InterpreterBase", "BlockingInterpreterBase", "AsyncInterpreterBase"]

/-- A kernel that overrides nothing it need not, with the documented libraries. -/
def plainKernel (base : Base) : Env :=
  ⟨Libraries.documented, base, interpreterBaseGlobals, ⟨false, false, false, false⟩⟩

/-- An async kernel in which the name `asyncio` resolves. -/
def asyncioKernel : Env :=
  { plainKernel .async with globals := "asyncio" :: interpreterBaseGlobals }

/-- The `NameError` of a global name that is not bound. -/
def nameError (name : String) : PyExc :=
  ⟨.exception, "NameError", "name '" ++ name ++ "' is not defined"⟩

/-- Look a global name up. -/
def lookupGlobal (globals : List String) (name : String) : Bridge V Unit :=
  if name ∈ globals then pure () else Exec.fail (.raised (nameError name))

/-! ### The overridable methods -/

/-- What `InterpreterBase` itself does for a hook; `execute_request` is abstract. -/
def baseHook : HookCall → Bridge V PyValue
  | .execute _ => Exec.fail (.raised ⟨.exception, "NotImplementedError", ""⟩)
  | .inspect _ _ _ =>
      pure (.json (.obj [("status", .str "ok"), ("found", .bool false), ("data", .obj []),
        ("metadata", .obj [])]))
  | .isComplete _ => pure (.json (.obj [("status", .str "complete"), ("indent", .str "")]))
  | .complete _ _ =>
      pure (.json (.obj [("matches", .arr []), ("cursor_start", .int 0), ("cursor_end", .int 0),
        ("metadata", .obj []), ("status", .str "ok")]))
  | .shutdown _ => pure (.json (.obj [("status", .str "ok"), ("restart", .bool false)]))

/-- Does the subclass override the method of a hook call? -/
def Overrides.overridesHook (o : Overrides) : HookCall → Bool
  | .execute _ => true
  | .inspect _ _ _ => o.inspectRequest
  | .isComplete _ => o.isCompleteRequest
  | .complete _ _ => o.completeRequest
  | .shutdown _ => o.shutdownRequest

/-- Call an overridable method; `call` is what the subclass's method does, if
there is one. -/
def callHook (o : Overrides) (call : UserCall V) (hook : HookCall) : Bridge V PyValue := do
  emit (.called hook)
  if o.overridesHook hook then call.run else baseHook hook

/-! ### Things to call -/

/-- `InterpreterBase.publish_stderr`, as the bridge's handlers call it: with the
traceback of an exception. -/
def publishStderr (lib : Libraries) (e : PyExc) (tb : String) : Bridge V Unit :=
  if lib.encodes e then publish .bridge (.stream "stderr" tb)
  else Exec.fail (.raised lib.typeError)

/-- The call of `create_error_reply` in the bridge's handlers. -/
def createErrorReply (lib : Libraries) (e : PyExc) (tb : String) : Bridge V Json :=
  match lib.evalueRaises e with
  | none => pure (lib.pyErrorReply e tb)
  | some (name, str) => Exec.fail (.raised ⟨.exception, name, str⟩)

/-- What the `except` blocks of both `_execute_request` methods begin with. -/
def reportException (lib : Libraries) (e : PyExc) : Bridge V Json := do
  let tb := lib.formatExc e
  publishStderr lib e tb
  createErrorReply lib e tb

/-- `send_reply_callback_wrapper.__call__`. pybind11 converts the argument to JSON
before the body runs, so a value it cannot convert raises a `TypeError` and
nothing is delivered. -/
def sendReplyCallback (lib : Libraries) (cb : Nat) (ret : PyValue) : Bridge V Unit :=
  match ret.toJson? with
  | some reply => deliver cb reply
  | none => Exec.fail (.raised lib.typeError)

/-- `if ret is None: ret = create_successful_reply()`. -/
def Libraries.replyOf (lib : Libraries) : PyValue → PyValue
  | .none => .json lib.pyCreateSuccessfulReply
  | ret => ret

/-! ### `_execute_request` -/

/-- The `except` block of `BlockingInterpreterBase._execute_request`. It ends with
the assignment `ret = create_error_reply(...)`. -/
def BlockingInterpreterBase.onException (env : Env) (e : PyExc) : Bridge V Unit := do
  let _ret ← reportException env.lib e
  pure ()

/-- `BlockingInterpreterBase._execute_request`. -/
def BlockingInterpreterBase.executeRequest (env : Env) (call : UserCall V) (cb : Nat)
    (args : ExecuteArgs) : Bridge V Unit :=
  exceptException
    (do
      let ret ← callHook env.overrides call (.execute args)
      sendReplyCallback env.lib cb (env.lib.replyOf ret))
    (BlockingInterpreterBase.onException env)

/-- `AsyncInterpreterBase._execute_request`: `asyncio.get_event_loop()`, then
`loop.create_task(wrapped(...))`. -/
def AsyncInterpreterBase.executeRequest (env : Env) (cb : Nat) (args : ExecuteArgs) :
    Bridge V Unit := do
  lookupGlobal env.globals "asyncio"
  createTask (.wrapped cb args)

/-- The `except` block of `wrapped`. -/
def AsyncInterpreterBase.onException (env : Env) (cb : Nat) (e : PyExc) : Bridge V Bool := do
  let ret ← reportException env.lib e
  sendReplyCallback env.lib cb (.json ret)
  pure false

/-- The rest of the `try` block of `wrapped` once the step of the user's coroutine
is done: still suspended at the `await`, or on to the callback. -/
def AsyncInterpreterBase.afterAwait (env : Env) (cb : Nat) : Option Outcome → Bridge V Bool
  | none => pure true
  | some outcome => do
      let ret ← outcome.toExec
      sendReplyCallback env.lib cb (env.lib.replyOf ret)
      pure false

/-- `self.execute_request(...)` is called in the first step of `wrapped`. -/
def AsyncInterpreterBase.startHook (first : Bool) (args : ExecuteArgs) : Bridge V Unit :=
  if first then emit (.called (.execute args)) else pure ()

/-- One step of the coroutine `wrapped`, `first` being its first one. Its value
says whether the coroutine is suspended at `await self.execute_request(...)`. -/
def AsyncInterpreterBase.wrapped (env : Env) (cb : Nat) (args : ExecuteArgs) (first : Bool)
    (step : CoroutineStep V) : Bridge V Bool :=
  exceptException
    (do
      AsyncInterpreterBase.startHook first args
      runActs step.acts
      AsyncInterpreterBase.afterAwait env cb step.ends)
    (AsyncInterpreterBase.onException env cb)

/-- One step of a coroutine of the user. -/
def userCoroutine (step : CoroutineStep V) : Bridge V Bool := do
  runActs step.acts
  match step.ends with
  | none => pure true
  | some outcome => do
      let _ ← outcome.toExec
      pure false

/-! ### The calls C++ makes -/

/-- The methods C++ calls by name. -/
inductive Method
  | executeRequest
  | inspectRequest
  | isCompleteRequest
  | completeRequest
  | shutdownRequest

/-- An argument C++ passes to Python. -/
inductive PyArg
  | callback (cb : Nat)
  | int (n : Int)
  | str (s : String)
  | bool (b : Bool)
  | json (v : Json)

/-- The name of a method, for messages. -/
def Method.qualname : Method → String
  | .executeRequest => "InterpreterBase._execute_request"
  | .inspectRequest => "InterpreterBase._inspect_request"
  | .isCompleteRequest => "InterpreterBase._is_complete_request"
  | .completeRequest => "InterpreterBase._complete_request"
  | .shutdownRequest => "InterpreterBase._shutdown_request"

/-- The parameters of a wrapper, without `self`. -/
def Method.parameters : Method → List String
  | .executeRequest =>
      ["cb", "execution_count", "code", "silent", "store_history", "user_expressions",
        "allow_stdin"]
  | .inspectRequest => ["code", "cursor_pos", "detail_level"]
  | .isCompleteRequest => ["code"]
  | .completeRequest => ["code", "cursor_pos"]
  | .shutdownRequest => ["restart"]

/-- The `TypeError` of a call with `given` positional arguments where the method
has more parameters. -/
def missingArguments (m : Method) (given : Nat) : PyExc :=
  let missing := (m.parameters.drop given).map fun p => "'" ++ p ++ "'"
  let listed :=
    match missing with
    | [] => ""
    | [p] => p
    | [p, q] => p ++ " and " ++ q
    | ps => ", ".intercalate ps.dropLast ++ ", and " ++ ps.getLastD ""
  ⟨.exception, "TypeError",
    m.qualname ++ "() missing " ++ toString missing.length ++ " required positional argument" ++
      (if missing.length = 1 then "" else "s") ++ ": " ++ listed⟩

/-- The `_execute_request` of the kernel's base class. -/
def executeRequestOf (env : Env) (call : UserCall V) (cb : Nat) (args : ExecuteArgs) :
    Bridge V Unit :=
  match env.base with
  | .blocking => BlockingInterpreterBase.executeRequest env call cb args
  | .async => AsyncInterpreterBase.executeRequest env cb args

/-- `m_py_interpreter.attr(name)(args...)`: the wrapper `name`, called with
positional arguments. -/
def callMethod (env : Env) (call : UserCall V) : Method → List PyArg → Bridge V PyValue
  | .executeRequest, [.callback cb, .int n, .str code, .bool silent, .bool storeHistory,
      .json userExpressions, .bool allowStdin] => do
      executeRequestOf env call cb ⟨n, code, silent, storeHistory, userExpressions, allowStdin⟩
      pure .none
  | .inspectRequest, [.str code, .int cursorPos, .int detailLevel] =>
      callHook env.overrides call (.inspect code cursorPos detailLevel)
  | .isCompleteRequest, [.str code] => callHook env.overrides call (.isComplete code)
  | .completeRequest, [.str code, .int cursorPos] =>
      callHook env.overrides call (.complete code cursorPos)
  | .shutdownRequest, [.bool restart] => callHook env.overrides call (.shutdown restart)
  | m, args => Exec.fail (.raised (missingArguments m args.length))

/-! ### What the callback and the hooks do -/

section Set

variable {c : V} {w : World V} {lib : Libraries} {cb : Nat}

/-- The callback delivers a convertible value. -/
theorem run_sendReplyCallback_of_json {ret : PyValue} {reply : Json}
    (h : ret.toJson? = some reply) :
    (sendReplyCallback lib cb ret).run w =
      (.ok (), { w with log := w.log ++ [.delivered cb (requestContextIn w.context) reply] }) := by
  rw [sendReplyCallback, h]
  exact run_deliver cb reply w

/-- The callback raises on every other value, before it delivers anything. -/
theorem run_sendReplyCallback_of_unconvertible {ret : PyValue} (h : ret.toJson? = none) :
    (sendReplyCallback lib cb ret).run w = (.error (.raised lib.typeError), w) := by
  rw [sendReplyCallback, h]
  rfl

theorem extends_delivered (h : requestContextIn w.context = some c) (cb : Nat) (reply : Json) :
    Extends c [(cb, reply)] [] w
      { w with log := w.log ++ [.delivered cb (requestContextIn w.context) reply] } :=
  Extends.emit (e := .delivered cb (requestContextIn w.context) reply) h h

theorem extends_called (h : requestContextIn w.context = some c) (hook : HookCall) :
    Extends c [] [] w { w with log := w.log ++ [.called hook] } :=
  Extends.emit (e := .called hook) h trivial

/-- Reporting an exception delivers nothing; it may raise. -/
theorem run_reportException (h : requestContextIn w.context = some c) (lib : Libraries)
    (e : PyExc) :
    ∃ w', Extends c [] [] w w' ∧
      (reportException lib e).run w =
        match lib.reportFault e with
        | none => (.ok (lib.pyErrorReply e (lib.formatExc e)), w')
        | some e' => (.error (.raised e'), w') := by
  unfold reportException publishStderr Libraries.reportFault
  cases lib.encodes e with
  | false => exact ⟨w, Extends.refl h, rfl⟩
  | true =>
      refine ⟨_, extends_publish h .bridge (.stream "stderr" (lib.formatExc e)), ?_⟩
      simp only [if_true]
      rw [Exec.run_bind_ok (run_publish_of_set h _ _), createErrorReply]
      cases lib.evalueRaises e <;> rfl

/-- `execute_request` is always the subclass's. -/
theorem run_callHook_execute_of_set (h : requestContextIn w.context = some c) (o : Overrides)
    (call : UserCall V) (args : ExecuteArgs) :
    ∃ w', (callHook o call (.execute args)).run w = call.outcome.toExec.run w' ∧
      Extends c [] [] w w' := by
  have hcalled := extends_called h (.execute args)
  obtain ⟨w', hrun, hext⟩ := run_userCall_of_set hcalled.stillSet call
  refine ⟨w', ?_, hcalled.trans hext⟩
  rw [callHook, emit, Exec.run_bind_ok (Exec.run_update _ w)]
  exact hrun

end Set

end XeusPywrap
