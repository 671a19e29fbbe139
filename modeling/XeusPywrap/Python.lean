import XeusPywrap.Common.Exec

/-!
# XeusPywrap.Python

The part of Python and of the C++ boundary the bridge is written against:
exceptions and their classes, the two kinds of handler (`except Exception` and
`catch (std::exception&)`), values and their JSON conversion.

A failure is a `Fault`: either a Python exception on its way up, which handlers
may catch, or `terminate`, the death of the process when an exception meets a
`noexcept` function, which nothing catches.
-/

namespace XeusPywrap

/-! ### JSON -/

/-- `nlohmann::json`. -/
inductive Json
  | null
  | bool (b : Bool)
  | int (n : Int)
  | float (x : Float)
  | str (s : String)
  | arr (xs : List Json)
  | obj (fields : List (String × Json))

/-! ### Exceptions -/

/-- The classes of exceptions that some handler or event loop tells apart. -/
inductive ExcKind
  /-- `Exception` and its subclasses. -/
  | exception
  /-- `asyncio.CancelledError`, a direct subclass of `BaseException`. -/
  | cancelledError
  | systemExit
  | keyboardInterrupt
  /-- Every other subclass of `BaseException` that is not an `Exception`. -/
  | otherBaseException
  deriving DecidableEq, Repr

/-- An exception object. -/
structure PyExc where
  kind : ExcKind
  /-- `type(e).__name__`. -/
  name : String
  /-- `str(e)`, if that returns a text C++ can take. -/
  str : String
  deriving DecidableEq, Repr

/-- `isinstance(e, Exception)`. -/
def PyExc.isException (e : PyExc) : Bool := e.kind == .exception

/-- Why a computation failed. -/
inductive Fault
  | raised (e : PyExc)
  | terminate
  deriving DecidableEq, Repr

/-- `try: body except Exception as e: handler(e)`. -/
def exceptException {σ α : Type} (body : Exec σ Fault α) (handler : PyExc → Exec σ Fault α) :
    Exec σ Fault α :=
  body.handle fun
    | .raised e => if e.isException then handler e else Exec.fail (.raised e)
    | .terminate => Exec.fail .terminate

/-- `try { body } catch (std::exception& e) { handler }`. pybind11 turns every
Python exception that crosses into C++, whatever its class, into an
`error_already_set`, which is a `std::exception`. -/
def catchStdException {σ α : Type} (body : Exec σ Fault α) (handler : PyExc → Exec σ Fault α) :
    Exec σ Fault α :=
  body.handle fun
    | .raised e => handler e
    | .terminate => Exec.fail .terminate

section Handlers

variable {σ α : Type} {body : Exec σ Fault α} {handler : PyExc → Exec σ Fault α} {s s' : σ}

theorem run_exceptException_ok {a : α} (h : body.run s = (.ok a, s')) :
    (exceptException body handler).run s = (.ok a, s') :=
  Exec.run_handle_ok h

theorem run_exceptException_raised {e : PyExc} (h : body.run s = (.error (.raised e), s')) :
    (exceptException body handler).run s =
      if e.isException then (handler e).run s' else (.error (.raised e), s') := by
  rw [exceptException, Exec.run_handle_error h]
  by_cases he : e.isException <;> simp [he]

theorem run_catchStdException_ok {a : α} (h : body.run s = (.ok a, s')) :
    (catchStdException body handler).run s = (.ok a, s') :=
  Exec.run_handle_ok h

theorem run_catchStdException_raised {e : PyExc} (h : body.run s = (.error (.raised e), s')) :
    (catchStdException body handler).run s = (handler e).run s' :=
  Exec.run_handle_error h

theorem run_catchStdException_terminate (h : body.run s = (.error .terminate, s')) :
    (catchStdException body handler).run s = (.error .terminate, s') :=
  Exec.run_handle_error h

end Handlers

/-! ### Values -/

/-- What a Python function returns, as far as the bridge looks at it. -/
inductive PyValue
  | none
  /-- A value `pybind11_json` converts; it is kept as its conversion. -/
  | json (v : Json)
  /-- A value whose conversion to JSON raises. -/
  | unconvertible

/-- The conversion of `pybind11_json`; `none` when it raises. -/
def PyValue.toJson? : PyValue → Option Json
  | .none => some .null
  | .json v => some v
  | .unconvertible => Option.none

/-- How a call of user code ends. -/
inductive Outcome
  | returned (v : PyValue)
  | raised (e : PyExc)

/-- Let the outcome of a call happen here. -/
def Outcome.toExec {σ : Type} : Outcome → Exec σ Fault PyValue
  | .returned v => pure v
  | .raised e => Exec.fail (.raised e)

@[simp] theorem Outcome.run_toExec_returned {σ : Type} (v : PyValue) (s : σ) :
    (Outcome.toExec (.returned v)).run s = (.ok v, s) := rfl

@[simp] theorem Outcome.run_toExec_raised {σ : Type} (e : PyExc) (s : σ) :
    (Outcome.toExec (.raised e)).run s = (.error (.raised e), s) := rfl

/-- The call returned, and what it returned has a JSON conversion. -/
def Outcome.sendable : Outcome → Bool
  | .returned .unconvertible => false
  | .returned _ => true
  | .raised _ => false

/-! ### `str.splitlines` -/

/-- The line boundaries of `str.splitlines`, except for the pair `\r\n`. -/
def isLineBoundary (c : Char) : Bool :=
  c.toNat ∈ [0x0a, 0x0b, 0x0c, 0x0d, 0x1c, 0x1d, 0x1e, 0x85, 0x2028, 0x2029]

/-- `splitlines` with the characters of the current line, last one first. -/
def splitlinesFrom : List Char → List Char → List String
  | [], [] => []
  | [], line => [String.ofList line.reverse]
  | '\r' :: '\n' :: cs, line => String.ofList line.reverse :: splitlinesFrom cs []
  | c :: cs, line =>
      if isLineBoundary c then String.ofList line.reverse :: splitlinesFrom cs []
      else splitlinesFrom cs (c :: line)

/-- `str.splitlines()`. -/
def splitlines (text : String) : List String := splitlinesFrom text.toList []

/-! ### Code outside the repository -/

/-- What the bridge calls in xeus, pybind11 and Python's `traceback` module. -/
structure Libraries where
  /-- `xeus::create_error_reply`. -/
  createErrorReply : (ename evalue : String) → (traceBack : Json) → Json
  /-- `xeus::create_successful_reply`. -/
  createSuccessfulReply : (payload userExpressions : Json) → Json
  /-- `xeus::create_shutdown_reply`. -/
  createShutdownReply : (restart : Bool) → Json
  /-- `xeus::create_interrupt_reply`. -/
  createInterruptReply : Json
  /-- `what()` of the `std::exception` pybind11 makes of a Python exception. -/
  what : PyExc → String
  /-- `traceback.format_exc()` in the handler of an exception. -/
  formatExc : PyExc → String
  /-- The traceback has a UTF-8 encoding. A text with a lone surrogate has none, and
  pybind11 raises a `TypeError` instead of handing it to C++. -/
  encodes : PyExc → Bool
  /-- The class and the text of the `Exception` that `str(e)` raises as an argument of
  `create_error_reply`, if it does: `__str__` is user code, and its text is converted. -/
  evalueRaises : PyExc → Option (String × String)
  /-- `str` of the `TypeError` pybind11 raises for arguments it cannot convert. -/
  incompatibleArguments : String
  /-- `what()` of the `std::runtime_error` of a conversion to JSON that fails. -/
  notSerializable : String

namespace Libraries

variable (lib : Libraries)

/-- The Python function `create_successful_reply`, called without arguments. -/
def pyCreateSuccessfulReply : Json := lib.createSuccessfulReply (.arr []) (.obj [])

/-- `create_error_reply(ename=type(e).__name__, evalue=str(e), trace_back=tb.splitlines())`,
as the two `_execute_request` handlers call it. -/
def pyErrorReply (e : PyExc) (tb : String) : Json :=
  lib.createErrorReply e.name e.str (.arr ((splitlines tb).map .str))

/-- The `TypeError` of a call pybind11 cannot convert the arguments of. -/
def typeError : PyExc := ⟨.exception, "TypeError", lib.incompatibleArguments⟩

theorem typeError_isException : lib.typeError.isException = true := rfl

/-- What reporting an exception raises in its turn: the traceback goes to
`publish_stderr` first, then `str(e)` into the error reply. -/
def reportFault (e : PyExc) : Option PyExc :=
  if lib.encodes e then
    (lib.evalueRaises e).map fun (name, str) => ⟨.exception, name, str⟩
  else some lib.typeError

/-- The `std::runtime_error` of a returned value that has no JSON conversion. -/
def conversionError : PyExc := ⟨.exception, "RuntimeError", lib.notSerializable⟩

/-- An error reply, whatever its fields. -/
def IsErrorReply (reply : Json) : Prop :=
  ∃ ename evalue traceBack, reply = lib.createErrorReply ename evalue traceBack

/-- The libraries as they are documented; the texts of tracebacks are cut short. -/
def documented : Libraries where
  createErrorReply ename evalue traceBack :=
    .obj [("status", .str "error"), ("ename", .str ename), ("evalue", .str evalue),
      ("traceback", traceBack)]
  createSuccessfulReply payload userExpressions :=
    .obj [("status", .str "ok"), ("payload", payload), ("user_expressions", userExpressions)]
  createShutdownReply restart := .obj [("status", .str "ok"), ("restart", .bool restart)]
  createInterruptReply := .obj [("status", .str "ok")]
  what e := e.name ++ ": " ++ e.str
  formatExc e := "Traceback (most recent call last):\n" ++ e.name ++ ": " ++ e.str ++ "\n"
  encodes _ := true
  evalueRaises _ := none
  incompatibleArguments := "__call__(): incompatible function arguments."
  notSerializable := "to_json not implemented for this type of object"

end Libraries

end XeusPywrap
