import XeusPywrap.Basic.Lexer
import XeusPywrap.Common.OrderedDict

/-!
# XeusPywrap.Basic.Program

`PyBasic/program.py`: the program as it is stored, and its listing. A statement with
`DATA` is stored twice: `__program` has the token `DATA` under its line number, and
`__data` has the tokens behind it.

Both dictionaries are only ever read in the order of the line numbers.
-/

namespace XeusPywrap.Basic

def runtimeError (message : String) : PyExc := ⟨.exception, "RuntimeError", message⟩

def indexError : PyExc := ⟨.exception, "IndexError", "list index out of range"⟩

/-! ### The text of a statement -/

/-- The tokens behind which a minus sign in front of a number is written without a
space. -/
def operatorsAndContexts : List Category :=
  [.plus, .minus, .times, .divide, .modulo, .assignop, .equal, .notequal, .greater, .lesser,
   .lessequal, .greatequal, .leftparen, .comma, .and, .or]

/-- A minus sign that the listing takes for the sign of the number behind it. -/
def isUnaryMinus (before : Option Token) (token : Token) (after : List Token) : Bool :=
  token.category = some .minus &&
    (match after with
      | [] => false
      | next :: _ => next.category = some .unsignedint || next.category = some .unsignedfloat) &&
    (match before with
      | none => true
      | some previous => operatorsAndContexts.any fun c => previous.category = some c)

/-- A token as it stands in the listing. -/
def tokenText (token : Token) : List Char :=
  if token.category = some .string then '"' :: (token.lexeme ++ ['"']) else token.lexeme

/-- The loop of `str_statement`, behind the token `before`. -/
def statementText : Option Token → List Token → List Char
  | _, [] => []
  | before, token :: after =>
      tokenText token ++ (if isUnaryMinus before token after then [] else [' ']) ++
        statementText (some token) after

/-! ### The stores -/

/-- `BASICData`. -/
structure BasicData where
  datastmts : OrderedDict Int (List Token)
  nextData : Int

namespace BasicData

def new : BasicData := ⟨.empty, 0⟩

def addData (d : BasicData) (lineNumber : Int) (tokenlist : List Token) : BasicData :=
  { d with datastmts := d.datastmts.insert lineNumber tokenlist }

def getTokens (d : BasicData) (lineNumber : Int) : Option (List Token) :=
  d.datastmts.lookup lineNumber

end BasicData

/-- The two stores of a `Program`. -/
structure Program where
  program : OrderedDict Int (List Token)
  data : BasicData

namespace Program

def new : Program := ⟨.empty, .new⟩

/-- `line_numbers`. -/
def lineNumbers (p : Program) : List Int := p.program.keys

/-- There is a statement on every line. -/
def NoBlanks (p : Program) : Prop := ∀ line ∈ p.program.entries, line.2 ≠ []

/-- `add_stmt`. -/
def addStmt (A : Letters) (p : Program) : List Token → Except PyExc Program
  | [] => .ok p
  | number :: tokens =>
      match A.pyInt number.lexeme with
      | .error e => .error e
      | .ok lineNumber =>
          match tokens with
          | [] => .error indexError
          | token :: _ =>
              if token.lexeme = "DATA".toList then
                .ok ⟨p.program.insert lineNumber [token], p.data.addData lineNumber tokens⟩
              else .ok { p with program := p.program.insert lineNumber tokens }

/-- A line of text as `execute_request` and `load` hand it to the lexer. -/
def cleanLine (A : Letters) (line : List Char) : List Char :=
  A.strip ((line.filter (· ≠ '\r')).filter (· ≠ '\n'))

/-- The loop over the lines of a program text. -/
def addLines (A : Letters) : Program → List (List Char) → Except PyExc Program
  | p, [] => .ok p
  | p, line :: lines => do
      let tokenlist ← tokenize A (cleanLine A line)
      let p ← p.addStmt A tokenlist
      p.addLines A lines

/-- The program of a cell. -/
def ofCode (A : Letters) (code : String) : Except PyExc Program :=
  new.addLines A ((splitlines code).map String.toList)

/-! ### Listing -/

/-- The statement `str_statement` writes: `DATA` statements come from the other store. -/
def storedStatement (p : Program) (lineNumber : Int) (statement : List Token) :
    Except PyExc (List Token) :=
  match statement with
  | [] => .error indexError
  | token :: _ =>
      if token.category = some .data then
        match p.data.getTokens lineNumber with
        | some tokens => .ok tokens
        | none => .error ⟨.exception, "TypeError", "'NoneType' object is not iterable"⟩
      else .ok statement

/-- `str_statement`. -/
def strStatement (p : Program) (lineNumber : Int) (statement : List Token) :
    Except PyExc (List Char) := do
  let number ← pyStr lineNumber
  let tokens ← p.storedStatement lineNumber statement
  pure (number.toList ++ ' ' :: (statementText none tokens ++ ['\n']))

/-- The lines of a listing, in the order of the line numbers. -/
def strLines (p : Program) : List (Int × List Token) → Except PyExc (List Char)
  | [] => .ok []
  | (lineNumber, statement) :: entries => do
      let line ← p.strStatement lineNumber statement
      let lines ← p.strLines entries
      pure (line ++ lines)

/-- `str(program)`. -/
def str (p : Program) : Except PyExc String := (p.strLines p.program.entries).map String.ofList

end Program

end XeusPywrap.Basic
