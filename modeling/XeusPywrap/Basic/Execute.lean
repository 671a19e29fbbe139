import XeusPywrap.Basic.Program
import XeusPywrap.Common.Loop

/-!
# XeusPywrap.Basic.Execute

`Program.execute`: the loop that runs the statements of a program. What a statement
does is up to `BASICParser.parse`, which is a parameter here; it answers with a
`FlowSignal`, and the loop decides by it which line is next.

`Program` objects are made for one cell, so the stacks of an execution start empty.
-/

namespace XeusPywrap.Basic

/-! ### Flow signals -/

/-- The value of an expression behind `GOTO`, `GOSUB` or `RESTORE`. -/
inductive Target
  /-- A value with the text `str`. A number need not be an `int` to be equal to a line
  number, or to 0; `line` is the `int` it is equal to, if there is one. -/
  | printed (line : Option Int) (str : String)
  /-- An `int` of more than 4300 digits. `str` fails for it, and it is no line number,
  since `int` reads no more digits than `str` writes. -/
  | unprintable

/-- `FlowSignal`. -/
inductive FlowSignal
  | simpleJump (ftarget : Target)
  | gosub (ftarget : Target)
  | loopBegin (floopVar : List Char)
  | loopRepeat (floopVar : List Char)
  | loopSkip (ftarget : List Char)
  | return
  | stop
  | execute
  | whileBegin
  | whileRepeat
  | whileSkip

/-- A line number as the program counter holds it: after a jump it is the value of the
target. -/
structure LineRef where
  number : Int
  str : String

/-- `BASICParser`, whose state is `σ`; it shares the data with the program. The line
number is for its error messages. A `RuntimeError` is the one `__execute` raises anew,
with the same text. -/
structure Parser (σ : Type) where
  initial : σ
  parse : (lastFlowsignal : Option FlowSignal) → List Token → LineRef →
    Exec (BasicData × σ) PyExc (Option FlowSignal)

/-! ### What `execute` complains about -/

/-- What is raised for a target that no line has: `RuntimeError(message + str(ftarget))`,
or the error that `str` raises in its place. -/
def invalidTarget (message : String) : Target → PyExc
  | .printed _ str => runtimeError (message ++ str)
  | .unprintable => strLimitExceeded

def invalidBranch : Target → PyExc :=
  invalidTarget "Invalid line number supplied in GOTO or conditional branch: "

def invalidCall : Target → PyExc :=
  invalidTarget "Invalid line number supplied in subroutine call: "

def nowhereToReturn : PyExc := runtimeError "GOSUB at end of program, nowhere to return"

def returnWithoutCall (line : LineRef) : PyExc :=
  runtimeError
    ("RETURN encountered without corresponding subroutine call in line " ++ line.str)

def endWithinLoop : PyExc := runtimeError "Program terminated within a loop"

def nextWithoutFor (line : LineRef) : PyExc :=
  runtimeError ("NEXT encountered without corresponding FOR loop in line " ++ line.str)

def endWithinWhile : PyExc := runtimeError "Program terminated within a WHILE loop"

def wendWithoutWhile (line : LineRef) : PyExc :=
  runtimeError ("WEND encountered without corresponding WHILE loop in line " ++ line.str)

/-! ### The state of `execute` -/

/-- The attributes of a `Program` that `execute` works with, its variable `index`, and
whether the loop has been left. -/
structure Execution (σ : Type) where
  index : Nat
  nextStmt : LineRef
  returnStack : List Int
  returnLoop : List Char → Option Int
  whileStack : List Int
  lastFlowsignal : Option FlowSignal
  ended : Bool
  data : BasicData
  parser : σ

abbrev Executing (σ α : Type) := Exec (Execution σ) PyExc α

def lineRef (number : Int) : LineRef := ⟨number, String.ofList (numeral number)⟩

/-- A line of a program. -/
abbrev Line := Int × List Token

/-- `BASICData.restore(0)`. -/
def BasicData.restoreStart (d : BasicData) : BasicData := { d with nextData := 0 }

section Execute

variable {σ : Type}

/-- `__execute`. -/
def executeStatement (P : Parser σ) (p : Program) : Executing σ (Option FlowSignal) := do
  let s ← Exec.get
  match p.program.lookup s.nextStmt.number with
  | none => Exec.fail ⟨.exception, "TypeError", "can only concatenate str (not \"int\") to str"⟩
  | some statement =>
      Exec.zoom (fun s => (s.data, s.parser)) (fun r s => { s with data := r.1, parser := r.2 })
        (P.parse s.lastFlowsignal statement s.nextStmt)

/-- Go on with the line at `index`, or, past the last one, with `otherwise`. -/
def continueAt (p : Program) (index : Nat) (otherwise : Executing σ Unit) : Executing σ Unit := do
  Exec.update fun s => { s with index := index }
  match p.lineNumbers[index]? with
  | some number => Exec.update fun s => { s with nextStmt := lineRef number }
  | none => otherwise

/-- `break`. -/
def leave : Executing σ Unit := Exec.update fun s => { s with ended := true }

/-- `index = line_numbers.index(number)`, and on to this line. -/
def resume (p : Program) (number : Int) (invalid : PyExc) : Executing σ Unit :=
  if number ∈ p.lineNumbers then
    Exec.update fun s =>
      { s with index := p.lineNumbers.idxOf number, nextStmt := lineRef number }
  else Exec.fail invalid

/-- The same for the target of a jump. -/
def jumpTo (p : Program) (target : Target) (invalid : PyExc) : Executing σ Unit :=
  match target with
  | .unprintable | .printed none _ => Exec.fail invalid
  | .printed (some number) str =>
      if number ∈ p.lineNumbers then
        Exec.update fun s =>
          { s with index := p.lineNumbers.idxOf number, nextStmt := ⟨number, str⟩ }
      else Exec.fail invalid

/-- The statement is a `NEXT` of the variable. -/
def isNext (loopVar : List Char) : List Token → Bool
  | [] => false
  | token :: tokens =>
      token.category = some .next && tokens.head?.map Token.lexeme = some loopVar

/-- The loop of `LOOP_SKIP` over the lines from `index` on: the index behind the `NEXT`
of the variable. -/
def skipNext (loopVar : List Char) : List Line → Nat → Except PyExc (Option Nat)
  | [], _ => .ok none
  | (_, []) :: _, _ => .error indexError
  | (_, token :: tokens) :: lines, index =>
      if isNext loopVar (token :: tokens) then .ok (some (index + 1))
      else skipNext loopVar lines (index + 1)

/-- The loop of `WHILE_SKIP`: the index behind the matching `WEND`. -/
def skipWend : (wendCount : Nat) → List Line → Nat → Except PyExc (Option Nat)
  | _, [], _ => .ok none
  | _, (_, []) :: _, _ => .error indexError
  | wendCount, (_, token :: _) :: lines, index =>
      if token.category = some .while then skipWend (wendCount + 1) lines (index + 1)
      else if token.category = some .wend then
        if wendCount = 0 then .ok (some (index + 1))
        else skipWend (wendCount - 1) lines (index + 1)
      else skipWend wendCount lines (index + 1)

/-- On to where a skip has led; past the last line the program ends. -/
def skipTo (p : Program) : Except PyExc (Option Nat) → Executing σ Unit
  | .error e => Exec.fail e
  | .ok none => leave
  | .ok (some index) => continueAt p index leave

/-- What the loop does on a flow signal. -/
def follow (p : Program) : Option FlowSignal → Executing σ Unit
  | none => do
      let s ← Exec.get
      continueAt p (s.index + 1) leave
  | some (.simpleJump ftarget) => do
      Exec.update fun s => { s with whileStack := [] }
      jumpTo p ftarget (invalidBranch ftarget)
  | some (.gosub ftarget) => do
      let s ← Exec.get
      match p.lineNumbers[s.index + 1]? with
      | some number =>
          Exec.update fun s => { s with returnStack := number :: s.returnStack }
          jumpTo p ftarget (invalidCall ftarget)
      | none => Exec.fail nowhereToReturn
  | some .return => do
      let s ← Exec.get
      match s.returnStack with
      | [] => Exec.fail (returnWithoutCall s.nextStmt)
      | number :: returnStack =>
          Exec.update fun s => { s with returnStack := returnStack }
          resume p number (runtimeError ("Invalid subroutine return in line " ++ s.nextStmt.str))
  | some .stop => leave
  | some (.loopBegin floopVar) => do
      let s ← Exec.get
      match p.lineNumbers[s.index]? with
      | none => Exec.fail indexError
      | some number =>
          Exec.update fun s =>
            { s with returnLoop := Function.update s.returnLoop floopVar (some number) }
          continueAt p (s.index + 1) (Exec.fail endWithinLoop)
  | some (.loopSkip ftarget) => do
      let s ← Exec.get
      skipTo p (skipNext ftarget (p.program.entries.drop (s.index + 1)) (s.index + 1))
  | some (.loopRepeat floopVar) => do
      let s ← Exec.get
      match s.returnLoop floopVar with
      | none => Exec.fail (nextWithoutFor s.nextStmt)
      | some number =>
          Exec.update fun s => { s with returnLoop := Function.update s.returnLoop floopVar none }
          resume p number (runtimeError ("Invalid loop exit in line " ++ s.nextStmt.str))
  | some .whileBegin => do
      let s ← Exec.get
      match p.lineNumbers[s.index]? with
      | none => Exec.fail indexError
      | some number =>
          Exec.update fun s => { s with whileStack := number :: s.whileStack }
          continueAt p (s.index + 1) (Exec.fail endWithinWhile)
  | some .whileSkip => do
      let s ← Exec.get
      skipTo p (skipWend 0 (p.program.entries.drop (s.index + 1)) (s.index + 1))
  | some .whileRepeat => do
      let s ← Exec.get
      match s.whileStack with
      | [] => Exec.fail (wendWithoutWhile s.nextStmt)
      | number :: whileStack =>
          Exec.update fun s => { s with whileStack := whileStack }
          resume p number (runtimeError ("Invalid WHILE loop exit in line " ++ s.nextStmt.str))
  | some .execute => pure ()

/-- The body of the loop of `execute`. -/
def executeBody (P : Parser σ) (p : Program) : Executing σ Unit := do
  let flowsignal ← executeStatement P p
  Exec.update fun s => { s with lastFlowsignal := flowsignal }
  follow p flowsignal

def executeLoop (P : Parser σ) (p : Program) : WhileLoop (Execution σ) PyExc :=
  ⟨Execution.ended, executeBody P p⟩

end Execute

/-! ### `execute` -/

def unmatchedWhile (number : Int) : PyExc :=
  runtimeError ("WHILE without matching WEND at line " ++ String.ofList (numeral number))

def unmatchedWend (number : Int) : PyExc :=
  runtimeError ("WEND without matching WHILE at line " ++ String.ofList (numeral number))

/-- The loop of `__validate_while_wend`, with the lines of the open loops, innermost
first. -/
def validateFrom (whileStack : List Int) : List Line → Except PyExc Unit
  | [] =>
      match whileStack.getLast? with
      | none => .ok ()
      | some number => .error (unmatchedWhile number)
  | (_, []) :: lines => validateFrom whileStack lines
  | (number, token :: _) :: lines =>
      if token.category = some .while then validateFrom (number :: whileStack) lines
      else if token.category = some .wend then
        if whileStack.isEmpty then .error (unmatchedWend number)
        else validateFrom whileStack.tail lines
      else validateFrom whileStack lines

/-- `__validate_while_wend`. -/
def validateWhileWend (p : Program) : Except PyExc Unit := validateFrom [] p.program.entries

section Execute

variable {σ : Type}

/-- The execution in front of the first line. -/
def Execution.start (P : Parser σ) (p : Program) (number : Int) : Execution σ where
  index := 0
  nextStmt := lineRef number
  returnStack := []
  returnLoop _ := none
  whileStack := []
  lastFlowsignal := none
  ended := false
  data := p.data.restoreStart
  parser := P.initial

/-- `execute`, cut off after `n` statements: how it ended, if it did, and the execution
if its loop was reached. -/
def execute (P : Parser σ) (p : Program) (n : Nat) :
    Option (Except PyExc Unit) × Option (Execution σ) :=
  match validateWhileWend p with
  | .error e => (some (.error e), none)
  | .ok () =>
      match p.lineNumbers with
      | [] => (some (.error (runtimeError "No statements to execute")), none)
      | number :: _ =>
          let (ended, s) := (executeLoop P p).runFor n (Execution.start P p number)
          (ended, some s)

end Execute

end XeusPywrap.Basic
