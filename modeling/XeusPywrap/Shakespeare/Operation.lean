import XeusPywrap.Common.Loop
import XeusPywrap.Shakespeare.Stage

/-!
# XeusPywrap.Shakespeare.Operation

`_expression.py`, `_operation.py`, `_output.py` and `shakespeare.py`: the run of a
play with the styles the kernel leaves at their defaults, `basic` input and `basic`
output.

`Performance` is what changes during a run, together with the texts published on
stdout so far. Exceptions carry their message; the source positions and the
interpreter that are attached to them on their way out are left away.
-/

namespace XeusPywrap

/-! ### Expressions -/

/-- `_UNARY_OPERATION_HANDLERS`. -/
def UnaryOperation.handler : UnaryOperation → Int → Except PyExc Int
  | .theCubeOf, x => .ok (x ^ 3)
  | .theFactorialOf, operand =>
      if operand < 0 then do
        let text ← pyStr operand
        .error (shakespeareRuntimeError
          ("Cannot take the factorial of a negative number: " ++ text))
      else pyFactorial operand
  | .theSquareOf, x => .ok (x ^ 2)
  | .theSquareRootOf, operand =>
      if operand < 0 then do
        let text ← pyStr operand
        .error (shakespeareRuntimeError
          ("Cannot take the square root of a negative number: " ++ text))
      else intOfSqrt operand
  | .twice, x => .ok (x * 2)

/-- `_BINARY_OPERATION_HANDLERS`. -/
def BinaryOperation.handler : BinaryOperation → Int → Int → Except PyExc Int
  | .theDifferenceBetween, a, b => .ok (a - b)
  | .theProductOf, a, b => .ok (a * b)
  | .theQuotientBetween, a, b =>
      if b = 0 then .error (shakespeareRuntimeError "Cannot divide by zero")
      else intOfTrueDivision a b
  | .theRemainderOfTheQuotientBetween, a, b =>
      if b = 0 then .error (shakespeareRuntimeError "Cannot divide by zero")
      else intOfFmod a b
  | .theSumOf, a, b => .ok (a + b)

namespace Expression

/-- `Expression.cacheable`. -/
def cacheable : Expression → Bool
  | .constant _ => true
  | .unaryOperation _ operand => operand.cacheable
  | .binaryOperation _ firstOperand secondOperand =>
      firstOperand.cacheable && secondOperand.cacheable
  | _ => false

/-- `_evaluate_logic`, with the `evaluate` of the operands. -/
def evaluateLogic (s : State) (character : String) : Expression → Except PyExc Int
  | .firstPersonValue => do
      let c ← s.characterByName character
      pure c.value
  | .secondPersonValue => do
      let opposite ← s.characterOpposite character
      let c ← s.characterByName opposite
      pure c.value
  | .characterName name => do
      let c ← s.characterByName name
      pure c.value
  | .constant cachedValue => pure cachedValue
  | .unaryOperation operation operand => do
      s.assertCharacterOnStage character
      let x ← operand.evaluateLogic s character
      operation.handler x
  | .binaryOperation operation firstOperand secondOperand => do
      s.assertCharacterOnStage character
      let a ← firstOperand.evaluateLogic s character
      s.assertCharacterOnStage character
      let b ← secondOperand.evaluateLogic s character
      operation.handler a b

/-- `Expression.evaluate`. Values are not cached here: `evaluateLogic_cacheable`. -/
def evaluate (s : State) (character : String) (e : Expression) : Except PyExc Int := do
  s.assertCharacterOnStage character
  e.evaluateLogic s character

/-- A cacheable expression has its value whatever the state, as long as its speaker
is on stage. So the value its first evaluation puts into the cache is the value
every later evaluation would have. -/
theorem evaluateLogic_cacheable {e : Expression} {character : String} {s s' : State}
    (h : s.assertCharacterOnStage character = .ok ())
    (h' : s'.assertCharacterOnStage character = .ok ()) (hc : e.cacheable = true) :
    e.evaluateLogic s character = e.evaluateLogic s' character := by
  induction e with
  | constant cachedValue => rfl
  | unaryOperation operation operand ih =>
      simp only [evaluateLogic, h, h', ih hc]
  | binaryOperation operation firstOperand secondOperand ih₁ ih₂ =>
      rw [cacheable, Bool.and_eq_true] at hc
      simp only [evaluateLogic, h, h', ih₁ hc.1, ih₂ hc.2]
  | firstPersonValue => simp [cacheable] at hc
  | secondPersonValue => simp [cacheable] at hc
  | characterName name => simp [cacheable] at hc

end Expression

/-! ### The run of a play -/

/-- What changes while a play runs: the `Shakespeare` object with its settings and
the user in front of it, and the texts published on stdout so far. -/
structure Performance where
  stdin : Stdin
  state : State
  currentPosition : Nat
  published : List Text

/-- The code of a run. -/
abbrev Playing := Exec Performance Halt

/-- Code that works on the state of the play. -/
def onState {α : Type} (m : Staging α) : Playing α :=
  m.zoom Performance.state fun state p => { p with state }

/-- Code that reads input. -/
def onStdin {α : Type} (m : Reading α) : Playing α :=
  m.zoom Performance.stdin fun stdin p => { p with stdin }

/-- A query of the state. -/
def query {α : Type} (q : State → Except PyExc α) : Playing α := do
  let p ← Exec.get
  ofExcept (q p.state)

/-! ### Output -/

/-- `get_interpreter().publish_stdout(text)`. On its way to C++ the text is encoded
as UTF-8; pybind11 rejects the call if that is impossible. -/
def publishStdout (lib : Libraries) (text : Text) : Playing Unit :=
  if text.any CodePoint.isSurrogate then Exec.fail (.raised lib.typeError)
  else Exec.update fun p => { p with published := p.published ++ [text] }

/-- `_code_to_character`. -/
def codeToCharacter (characterCode : Int) : Except PyExc Text :=
  match pyChr characterCode with
  | .ok c => .ok [c]
  | .error _ => do
      let text ← pyStr characterCode
      .error (shakespeareRuntimeError ("Invalid character code: " ++ text))

/-- `BasicOutputManager.output_number`. -/
def outputNumber (lib : Libraries) (number : Int) : Playing Unit := do
  let text ← ofExcept (codeToCharacter number)
  publishStdout lib text

/-- `BasicOutputManager.output_character`. -/
def outputCharacter (lib : Libraries) (characterCode : Int) : Playing Unit := do
  let text ← ofExcept (codeToCharacter characterCode)
  publishStdout lib text

/-! ### Operations -/

/-- `_COMPARATIVE_TYPE_HANDLERS`. -/
def Comparative.handler : Comparative → Int → Int → Bool
  | .positiveComparative, a, b => b < a
  | .negativeComparative, a, b => a < b
  | .neutralComparative, a, b => a = b

section Run

variable (lib : Libraries) (u : Unicode) (play : Play)

/-- `Goto.run`, after its condition. -/
def runGoto (destination : String) : Playing Unit := do
  let p ← Exec.get
  let act ← ofExcept (play.getAct p.currentPosition)
  match play.sceneIndices.lookup act with
  | none => Exec.fail (.raised (keyError act))
  | some scenes =>
      match scenes.lookup destination with
      | none =>
          Exec.fail (.raised (shakespeareRuntimeError
            ("Scene " ++ destination ++ " does not exist.")))
      | some newPosition => Exec.update fun p => { p with currentPosition := newPosition }

/-- `settings.input_manager`'s two methods. -/
def consumeInput : ValueType → Reading Int
  | .number => consumeNumericInput u
  | .char => consumeCharacterInput

/-- `settings.output_manager`'s two methods. -/
def outputValue : ValueType → Int → Playing Unit
  | .number, value => outputNumber lib value
  | .char, value => outputCharacter lib value

/-- `_run_logic` of the sentence operations. -/
def Logic.run (character : String) : Logic Expression → Playing Unit
  | .question firstValue comparative secondValue => do
      let a ← query fun s => firstValue.evaluate s character
      let b ← query fun s => secondValue.evaluate s character
      onState (State.setGlobalBoolean (comparative.handler a b))
  | .assignment value => do
      let opposite ← query fun s => s.characterOpposite character
      let v ← query fun s => value.evaluate s character
      onState (State.changeCharacter opposite fun c => .ok { c with value := v })
  | .input inputType => do
      let opposite ← query fun s => s.characterOpposite character
      let v ← onStdin (consumeInput u inputType)
      onState (State.changeCharacter opposite fun c => .ok { c with value := v })
  | .output outputType => do
      let opposite ← query fun s => s.characterOpposite character
      let c ← query fun s => s.characterByName opposite
      outputValue lib outputType c.value
  | .push value => do
      let opposite ← query fun s => s.characterOpposite character
      let v ← query fun s => value.evaluate s character
      onState (State.changeCharacter opposite fun c => .ok (c.push v))
  | .pop => do
      let opposite ← query fun s => s.characterOpposite character
      onState (State.changeCharacter opposite Character.pop)
  | .goto destination => runGoto play destination

/-- `SentenceOperation.run` and `Goto.run`. -/
def runSentence (character : String) (condition : Option Bool) (logic : Logic Expression) :
    Playing Unit := do
  query fun s => s.assertCharacterOnStage character
  let p ← Exec.get
  match condition with
  | some positive =>
      if positive ≠ p.state.globalBoolean then pure ()
      else logic.run lib u play character
  | none => logic.run lib u play character

/-- `Operation.run`. -/
def Operation.run : Operation → Playing Unit
  | .entrance characters => onState (State.enterCharacters characters)
  | .exit character => onState (State.exitCharacter character)
  | .exeunt (some characters) => onState (State.exeuntCharacters characters)
  | .exeunt none => onState State.exeuntAll
  | .breakpoint => pure ()
  | .sentence character condition logic => runSentence lib u play character condition logic

/-! ### `shakespeare.py` -/

/-- `play_over`. -/
def playOver (p : Performance) : Bool := play.operations.length ≤ p.currentPosition

/-- `_advance_position`. -/
def advancePosition : Playing Unit :=
  Exec.update fun p => { p with currentPosition := p.currentPosition + 1 }

/-- The end of `step_forward`: advance, unless the operation moved the position. -/
def advanceFrom (positionBeforeOperation : Nat) : Playing Unit := do
  let p ← Exec.get
  if p.currentPosition = positionBeforeOperation then advancePosition else pure ()

/-- `step_forward`. -/
def stepForward : Playing Unit := do
  let p ← Exec.get
  match play.operations[p.currentPosition]? with
  | none => Exec.fail (.raised ⟨.exception, "IndexError", "list index out of range"⟩)
  | some .breakpoint => advancePosition
  | some operation => do
      operation.run lib u play
      advanceFrom p.currentPosition

/-- The body of the loop of `run`; the callback of a breakpoint does nothing. -/
def runBody : Playing Unit := do
  let p ← Exec.get
  match play.operations[p.currentPosition]? with
  | some .breakpoint => advancePosition
  | _ => stepForward lib u play

/-- The loop of `Shakespeare.run`. -/
def runLoop : WhileLoop Performance Halt := ⟨playOver play, runBody lib u play⟩

end Run

/-- `Shakespeare.__init__` on a parsed play, with a user who will enter the lines. -/
def Shakespeare.new (ast : PlayAst) (lines : List (List Char)) :
    Except PyExc (Play × Performance) := do
  let play ← Play.new ast
  let state ← State.new ast.dramatisPersonae
  pure (play, ⟨Stdin.initial lines, state, 0, []⟩)

end XeusPywrap
