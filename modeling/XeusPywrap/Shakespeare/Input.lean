import XeusPywrap.Text

/-!
# XeusPywrap.Shakespeare.Input

`shakespearelang/_input.py`: the input of a play, as the kernel rewired it from
standard input to `blocking_input_request`.

`BasicInputManager` keeps a buffer and refills it with a line of the user when it
is empty. The front end delivers a line without its terminator, and the manager
puts none back.
-/

namespace XeusPywrap

/-! ### The input manager -/

/-- Why the code of a play stops before its end: an exception, or a request for input
the user has not answered. -/
inductive Halt
  | raised (e : PyExc)
  | waiting
  deriving DecidableEq, Repr

/-- A `ShakespeareRuntimeError` with its `message`. -/
def shakespeareRuntimeError (message : String) : PyExc :=
  ⟨.exception, "ShakespeareRuntimeError", message⟩

def eofError : PyExc := ⟨.exception, "EOFError", ""⟩

/-- The input manager and the user in front of it. -/
structure Stdin where
  /-- `BasicInputManager._input_buffer`. -/
  buffer : List Char
  /-- The lines the user will enter, each without its terminator. -/
  pending : List (List Char)
  deriving DecidableEq, Repr

/-- `BasicInputManager.__init__`. -/
def Stdin.initial (lines : List (List Char)) : Stdin := ⟨[], lines⟩

/-- Code that reads input. -/
abbrev Reading := Exec Stdin Halt

/-- `blocking_input_request`: the next line of the user. -/
def blockingInputRequest : Reading (List Char) := do
  let s ← Exec.get
  match s.pending with
  | [] => Exec.fail .waiting
  | line :: rest => do
      Exec.update fun s => { s with pending := rest }
      pure line

/-- `try: body except EOFError: handler`. -/
def exceptEOFError {α : Type} (body : Reading α) (handler : Reading α) : Reading α :=
  body.handle fun halt => if halt = .raised eofError then handler else Exec.fail halt

/-- `_ensure_input_buffer`. -/
def ensureInputBuffer : Reading Unit := do
  let s ← Exec.get
  if s.buffer.isEmpty then do
    let line ← blockingInputRequest
    Exec.update fun s => { s with buffer := line }
    if line.isEmpty then Exec.fail (.raised eofError) else pure ()
  else pure ()

/-- The loop of `_consume_digits`: `number_input` and the buffer after it. -/
def digitsLoop (u : Unicode) (numberInput : List Char) : List Char → List Char × List Char
  | [] => (numberInput, [])
  | c :: buffer =>
      if u.isdigit c then digitsLoop u (numberInput ++ [c]) buffer else (numberInput, c :: buffer)

/-- `_consume_digits`. -/
def consumeDigits (u : Unicode) : Reading Int := do
  let s ← Exec.get
  let (numberInput, buffer) := digitsLoop u [] s.buffer
  Exec.update fun s => { s with buffer }
  if numberInput.isEmpty then
    Exec.fail (.raised (shakespeareRuntimeError "No numeric input was given."))
  else
    match u.int numberInput with
    | .ok n => pure n
    | .error e => Exec.fail (.raised e)

/-- A buffer without the newline at its front, if there is one. -/
def withoutNewline : List Char → List Char
  | [] => []
  | c :: buffer => if c = '\n' then buffer else c :: buffer

/-- `_consume_newline_if_present`. -/
def consumeNewlineIfPresent : Reading Unit :=
  Exec.update fun s => { s with buffer := withoutNewline s.buffer }

/-- `BasicInputManager.consume_numeric_input`. -/
def consumeNumericInput (u : Unicode) : Reading Int := do
  exceptEOFError ensureInputBuffer
    (Exec.fail (.raised (shakespeareRuntimeError "End of file encountered.")))
  let number ← consumeDigits u
  consumeNewlineIfPresent
  pure number

/-- `BasicInputManager.consume_character_input`. -/
def consumeCharacterInput : Reading Int := do
  let endOfFile ← exceptEOFError (do ensureInputBuffer; pure false) (pure true)
  if endOfFile then pure (-1)
  else do
    let s ← Exec.get
    match s.buffer with
    | [] => Exec.fail (.raised ⟨.exception, "IndexError", "string index out of range"⟩)
    | c :: buffer => do
        Exec.update fun s => { s with buffer }
        pure c.toNat

end XeusPywrap
