import XeusPywrap.Shakespeare.Numbers

/-!
# XeusPywrap.Shakespeare.Play

From the syntax tree of a play to its list of operations: `_preprocess.py`, with
the constructors of `_operation.py` and `_expression.py`.

The parser is generated code over a third-party library; a syntax tree is whatever
it returns. Operations get the names of characters in their normal form, and the
acts and scenes become indices into the list.
-/

namespace XeusPywrap

/-! ### Names -/

/-- A name of the grammar, word by word. -/
abbrev NameAst := List String

/-- `str.title()` of ASCII text; the grammar has no other names. -/
def titleFrom (afterLetter : Bool) : List Char → List Char
  | [] => []
  | c :: cs => (if afterLetter then c.toLower else c.toUpper) :: titleFrom c.isAlpha cs

/-- `s.replace(" Of ", " of ")`. -/
def replaceOf : List Char → List Char
  | ' ' :: 'O' :: 'f' :: ' ' :: cs => ' ' :: 'o' :: 'f' :: ' ' :: replaceOf cs
  | c :: cs => c :: replaceOf cs
  | [] => []

/-- `normalize_name`. -/
def normalizeName (name : NameAst) : String :=
  String.ofList (replaceOf (titleFrom false (" ".intercalate name).toList))

/-! ### The syntax tree -/

inductive UnaryOperation
  | theCubeOf
  | theFactorialOf
  | theSquareOf
  | theSquareRootOf
  | twice
  deriving DecidableEq, Repr

inductive BinaryOperation
  | theDifferenceBetween
  | theProductOf
  | theQuotientBetween
  | theRemainderOfTheQuotientBetween
  | theSumOf
  deriving DecidableEq, Repr

inductive ValueAst
  | firstPersonValue
  | secondPersonValue
  | characterName (name : NameAst)
  | negativeNounPhrase (adjectives : List String)
  | positiveNounPhrase (adjectives : List String)
  | nothing
  | unaryExpression (operation : UnaryOperation) (value : ValueAst)
  | binaryExpression (operation : BinaryOperation) (firstValue secondValue : ValueAst)

inductive Comparative
  | positiveComparative
  | negativeComparative
  | neutralComparative
  deriving DecidableEq, Repr

/-- What is read or written: a number or a character. -/
inductive ValueType
  | number
  | char
  deriving DecidableEq, Repr

/-- The operation of a sentence; `V` is the type of the values in it. -/
inductive Logic (V : Type)
  | question (firstValue : V) (comparative : Comparative) (secondValue : V)
  | assignment (value : V)
  | input (inputType : ValueType)
  | output (outputType : ValueType)
  | push (value : V)
  | pop
  | goto (destination : String)
  deriving Repr

inductive ConditionAst
  | positiveIf
  | negativeIf

structure SentenceAst where
  condition : Option ConditionAst
  operation : Logic ValueAst

inductive EventAst
  | line (character : NameAst) (contents : List SentenceAst)
  | breakpoint
  | entrance (characters : List NameAst)
  | exit (character : NameAst)
  | exeunt (characters : Option (List NameAst))

structure SceneAst where
  number : String
  events : List EventAst

structure ActAst where
  number : String
  scenes : List SceneAst

structure PlayAst where
  dramatisPersonae : List NameAst
  acts : List ActAst

/-! ### Operations -/

/-- An `Expression` object, without the character who speaks it: that is the same
for all of its parts. -/
inductive Expression
  | firstPersonValue
  | secondPersonValue
  | characterName (name : String)
  /-- `NegativeNounPhrase`, `PositiveNounPhrase` and `Nothing`, whose `_setup` fixes
  `cached_value`. -/
  | constant (cachedValue : Int)
  | unaryOperation (operation : UnaryOperation) (operand : Expression)
  | binaryOperation (operation : BinaryOperation) (firstOperand secondOperand : Expression)
  deriving DecidableEq, Repr

/-- `expression_from_ast`. -/
def expressionFromAst : ValueAst → Expression
  | .firstPersonValue => .firstPersonValue
  | .secondPersonValue => .secondPersonValue
  | .characterName name => .characterName (normalizeName name)
  | .negativeNounPhrase adjectives => .constant (-2 ^ adjectives.length)
  | .positiveNounPhrase adjectives => .constant (2 ^ adjectives.length)
  | .nothing => .constant 0
  | .unaryExpression operation value => .unaryOperation operation (expressionFromAst value)
  | .binaryExpression operation firstValue secondValue =>
      .binaryOperation operation (expressionFromAst firstValue) (expressionFromAst secondValue)

/-- An `Operation` object. -/
inductive Operation
  | entrance (characters : List String)
  | exit (character : String)
  | exeunt (characters : Option (List String))
  | breakpoint
  /-- A `SentenceOperation`. `condition` is `condition_type_positive`, if the sentence
  has a condition. -/
  | sentence (character : String) (condition : Option Bool) (logic : Logic Expression)
  deriving Repr

/-- The `_setup` of the sentence operations. -/
def Logic.setup : Logic ValueAst → Logic Expression
  | .question firstValue comparative secondValue =>
      .question (expressionFromAst firstValue) comparative (expressionFromAst secondValue)
  | .assignment value => .assignment (expressionFromAst value)
  | .input inputType => .input inputType
  | .output outputType => .output outputType
  | .push value => .push (expressionFromAst value)
  | .pop => .pop
  | .goto destination => .goto destination

def ConditionAst.typePositive : ConditionAst → Bool
  | .positiveIf => true
  | .negativeIf => false

/-- `operation_from_sentence`. -/
def operationFromSentence (character : NameAst) (sentence : SentenceAst) : Operation :=
  .sentence (normalizeName character) (sentence.condition.map ConditionAst.typePositive)
    sentence.operation.setup

/-- `operations_from_event`. -/
def operationsFromEvent : EventAst → List Operation
  | .line character contents => contents.map (operationFromSentence character)
  | .breakpoint => [.breakpoint]
  | .entrance characters => [.entrance (characters.map normalizeName)]
  | .exit character => [.exit (normalizeName character)]
  | .exeunt characters =>
      match characters with
      | none | some [] => [.exeunt none]
      | some characters => [.exeunt (some (characters.map normalizeName))]

/-! ### Preprocessing -/

/-- The dictionary of a scene's or an act's numerals. -/
abbrev Numerals (α : Type) := List (String × α)

/-- `_preprocess.Play`. -/
structure Play where
  operations : List Operation
  actIndices : List (String × Nat)
  sceneIndices : Numerals (Numerals Nat)

/-- The loop over the scenes of an act: `scene_indices[act_number]` and the operations. -/
def preprocessScenes (actNumber : String) :
    List SceneAst → Numerals Nat → List Operation →
      Except PyExc (Numerals Nat × List Operation)
  | [], indices, operations => .ok (indices, operations)
  | scene :: scenes, indices, operations =>
      if (indices.lookup scene.number).isSome then
        .error (shakespeareRuntimeError
          ("Scene numeral " ++ scene.number ++ " is not unique in " ++ actNumber))
      else
        preprocessScenes actNumber scenes (indices ++ [(scene.number, operations.length)])
          (operations ++ scene.events.flatMap operationsFromEvent)

/-- `Play._preprocess`, the loop over the acts. -/
def Play.preprocess : List ActAst → Play → Except PyExc Play
  | [], play => .ok play
  | act :: acts, play =>
      if (play.sceneIndices.lookup act.number).isSome then
        .error (shakespeareRuntimeError ("Act numeral " ++ act.number ++ " is not unique"))
      else do
        let (indices, operations) ← preprocessScenes act.number act.scenes [] play.operations
        Play.preprocess acts
          { operations
            actIndices := play.actIndices ++ [(act.number, play.operations.length)]
            sceneIndices := play.sceneIndices ++ [(act.number, indices)] }

/-- `Play.__init__`. -/
def Play.new (ast : PlayAst) : Except PyExc Play := Play.preprocess ast.acts ⟨[], [], []⟩

/-- The loop of `get_act`, after the act `number`. -/
def getActFrom (position : Nat) (number : String) : List (String × Nat) → String
  | [] => number
  | (next, index) :: rest =>
      if index ≤ position then getActFrom position next rest else number

/-- `Play.get_act`. -/
def Play.getAct (play : Play) (position : Nat) : Except PyExc String :=
  match play.actIndices with
  | [] => .error ⟨.exception, "IndexError", "list index out of range"⟩
  | (number, _) :: rest => .ok (getActFrom position number rest)

end XeusPywrap
