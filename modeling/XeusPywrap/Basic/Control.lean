import XeusPywrap.Basic.Execute
import XeusPywrap.Common.Brackets

/-!
# XeusPywrap.Basic.Control

What running a BASIC program means: a machine that holds the lines still to come. A
jump goes on with the lines from its target; `GOSUB`, `FOR` and `WHILE` keep the lines
to come back to. There is no index, no line number to look up, and so nothing to miss:
the errors of the machine are those a program can make.
-/

namespace XeusPywrap.Basic

/-- The machine: the lines from the one it is at, and those it may come back to. -/
structure Control (σ : Type) where
  code : List Line
  here : LineRef
  returns : List (List Line)
  loops : List Char → Option (List Line)
  whiles : List (List Line)
  lastFlowsignal : Option FlowSignal
  data : BasicData
  parser : σ

namespace Program

/-- The lines from a line number on. -/
def linesFrom (p : Program) (number : Int) : List Line :=
  p.program.entries.dropWhile fun line => line.1 ≠ number

end Program

/-- What a line is to the `WHILE` loops of its program. -/
def bracketOf (line : Line) : BracketKind :=
  match line.2 with
  | [] => .plain
  | token :: _ =>
      if token.category = some .while then .opening
      else if token.category = some .wend then .closing
      else .plain

namespace Control

variable {σ : Type}

abbrev Controlling (σ α : Type) := Exec (Control σ) PyExc α

/-- Go on with these lines. -/
def proceed (code : List Line) (otherwise : Controlling σ Unit) : Controlling σ Unit :=
  match code with
  | [] => otherwise
  | line :: lines => Exec.update fun c => { c with code := line :: lines, here := lineRef line.1 }

/-- The end of the program. -/
def finish : Controlling σ Unit := Exec.update fun c => { c with code := [] }

def jump (p : Program) (target : Target) (invalid : PyExc) : Controlling σ Unit :=
  match target with
  | .unprintable | .printed none _ => Exec.fail invalid
  | .printed (some number) str =>
      match p.linesFrom number with
      | [] => Exec.fail invalid
      | line :: lines =>
          Exec.update fun c => { c with code := line :: lines, here := ⟨number, str⟩ }

/-- What a flow signal does. -/
def transfer (p : Program) : Option FlowSignal → Controlling σ Unit
  | none => do
      let c ← Exec.get
      proceed c.code.tail finish
  | some (.simpleJump ftarget) => do
      Exec.update fun c => { c with whiles := [] }
      jump p ftarget (invalidBranch ftarget)
  | some (.gosub ftarget) => do
      let c ← Exec.get
      match c.code.tail with
      | [] => Exec.fail nowhereToReturn
      | line :: lines =>
          Exec.update fun c => { c with returns := (line :: lines) :: c.returns }
          jump p ftarget (invalidCall ftarget)
  | some .return => do
      let c ← Exec.get
      match c.returns with
      | [] => Exec.fail (returnWithoutCall c.here)
      | code :: returns =>
          Exec.update fun c => { c with returns := returns }
          proceed code finish
  | some .stop => finish
  | some (.loopBegin floopVar) => do
      let c ← Exec.get
      Exec.update fun c => { c with loops := Function.update c.loops floopVar (some c.code) }
      proceed c.code.tail (Exec.fail endWithinLoop)
  | some (.loopSkip ftarget) => do
      let c ← Exec.get
      proceed ((c.code.tail.dropWhile fun line => !isNext ftarget line.2).drop 1) finish
  | some (.loopRepeat floopVar) => do
      let c ← Exec.get
      match c.loops floopVar with
      | none => Exec.fail (nextWithoutFor c.here)
      | some code =>
          Exec.update fun c => { c with loops := Function.update c.loops floopVar none }
          proceed code finish
  | some .whileBegin => do
      let c ← Exec.get
      Exec.update fun c => { c with whiles := c.code :: c.whiles }
      proceed c.code.tail (Exec.fail endWithinWhile)
  | some .whileSkip => do
      let c ← Exec.get
      proceed ((skipFrom bracketOf 0 c.code.tail).getD []) finish
  | some .whileRepeat => do
      let c ← Exec.get
      match c.whiles with
      | [] => Exec.fail (wendWithoutWhile c.here)
      | code :: whiles =>
          Exec.update fun c => { c with whiles := whiles }
          proceed code finish
  | some .execute => pure ()

/-- Run the statement of a line. -/
def statement (P : Parser σ) (tokens : List Token) : Controlling σ (Option FlowSignal) := do
  let c ← Exec.get
  Exec.zoom (fun c => (c.data, c.parser)) (fun r c => { c with data := r.1, parser := r.2 })
    (P.parse c.lastFlowsignal tokens c.here)

/-- Run the line the machine is at. -/
def body (P : Parser σ) (p : Program) : Controlling σ Unit := do
  let c ← Exec.get
  match c.code with
  | [] => pure ()
  | line :: _ =>
      let flowsignal ← statement P line.2
      Exec.update fun c => { c with lastFlowsignal := flowsignal }
      transfer p flowsignal

def loop (P : Parser σ) (p : Program) : WhileLoop (Control σ) PyExc :=
  ⟨fun c => c.code.isEmpty, body P p⟩

/-- The machine in front of a program that starts with the line number. -/
def start (P : Parser σ) (p : Program) (number : Int) : Control σ where
  code := p.program.entries
  here := lineRef number
  returns := []
  loops _ := none
  whiles := []
  lastFlowsignal := none
  data := p.data.restoreStart
  parser := P.initial

end Control

end XeusPywrap.Basic
