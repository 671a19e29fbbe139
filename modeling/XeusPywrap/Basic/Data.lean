import Mathlib.Data.List.Infix
import XeusPywrap.Basic.Expression

/-!
# XeusPywrap.Basic.Data

`READ` and `RESTORE`. `BASICData` keeps the number of the line that was read last, or 0 at
the beginning; the parser keeps the values of that line that are still unread. A `READ`
takes the next one for each of its targets, converts it to what the target holds, and
assigns it.

Where the values come from is a parameter of `readstmt`: the code takes them from the two
(`fetch`).
-/

namespace XeusPywrap.Basic

section Model

variable {V W : Type} (P : Values V W) (u : Unicode) (eval : List Char → Except PyExc V)

/-- The loop of `readData` over the tokens of a line, behind the sign `sign`. -/
def dataValues (sign : Int) : List Token → Except PyExc (List V)
  | [] => .ok []
  | token :: tokens =>
      match token.category with
      | some .comma => dataValues 1 tokens
      | some .string => do
          let values ← dataValues sign tokens
          .ok (P.str token.lexeme :: values)
      | some .unsignedint => do
          let n ← u.int token.lexeme
          let values ← dataValues sign tokens
          .ok (P.int (sign * n) :: values)
      | some .unsignedfloat => do
          let x ← eval token.lexeme
          let v ← P.operate .mul (P.int sign) x
          let values ← dataValues sign tokens
          .ok (v :: values)
      | some .minus => dataValues (-1) tokens
      | _ => dataValues sign tokens

def noDataStatements : String := "No DATA statements available"

def noData (line : LineRef) : PyExc :=
  runtimeError (noDataStatements ++ " to READ in line " ++ line.str)

/-- The lookup of the line behind the one read last. -/
def BasicData.following (d : BasicData) (line : LineRef) : Except PyExc Int :=
  if d.datastmts.keys = [] then .error (noData line)
  else if d.nextData = 0 then d.datastmts.keys.head?.elim (.error (noData line)) .ok
  else if d.nextData ∈ d.datastmts.keys then
    d.datastmts.keys[d.datastmts.keys.idxOf d.nextData + 1]?.elim (.error (noData line)) .ok
  else .error ⟨.exception, "ValueError", String.ofList (numeral d.nextData) ++ " is not in list"⟩

/-- `readData`. -/
def BasicData.readData (line : LineRef) : Exec BasicData PyExc (List V) := do
  let d ← Exec.get
  let next ← lift (d.following line)
  Exec.update fun d => { d with nextData := next }
  match d.datastmts.lookup next with
  | none => Exec.fail ⟨.exception, "KeyError", String.ofList (numeral next)⟩
  | some tokenlist => lift (dataValues P u eval 1 tokenlist.tail)

def noDataAt : Target → PyExc :=
  invalidTarget "Attempt to RESTORE but no DATA statement at line "

/-- `restore`. -/
def BasicData.restore (target : Target) : Exec BasicData PyExc Unit := do
  let d ← Exec.get
  match target with
  | .unprintable | .printed none _ => Exec.fail (noDataAt target)
  | .printed (some number) _ =>
      if number = 0 then Exec.update fun d => { d with nextData := 0 }
      else if number ∈ d.datastmts.keys then
        match d.datastmts.keys.idxOf number with
        | 0 => Exec.update fun d => { d with nextData := 0 }
        | i + 1 => Exec.update fun d => { d with nextData := d.datastmts.keys[i]?.getD 0 }
      else Exec.fail (noDataAt target)

/-- Where the values for `READ` come from. -/
structure Reader (V : Type) where
  dataValues : List V
  data : BasicData

def outOfData (line : LineRef) : PyExc := runtimeError ("? OUT OF DATA in line " ++ line.str)

/-- What `__readstmt` makes of an exception of `readData`. -/
def withinRead (line : LineRef) (e : PyExc) : PyExc :=
  if isRuntimeError e ∧ noDataStatements.toList <:+: e.str.toList then outOfData line else e

/-- Values to read: those that are left of a line, or the next line's. -/
def ensureDataValues (line : LineRef) : Exec (Reader V) PyExc Unit := do
  let s ← Exec.get
  if s.dataValues.isEmpty then do
    let values ← Exec.handle
      (Exec.zoom (fun s => s.data) (fun d s => { s with data := d })
        (BasicData.readData P u eval line))
      fun e => Exec.fail (withinRead line e)
    Exec.update fun s => { s with dataValues := values }
  else pure ()

def popDataValue (line : LineRef) : Exec (Reader V) PyExc V := do
  let s ← Exec.get
  match s.dataValues with
  | [] => Exec.fail (outOfData line)
  | right :: values => do
      Exec.update fun s => { s with dataValues := values }
      pure right

/-- How `__readstmt` gets the value for one of its targets. -/
def fetch (line : LineRef) : Exec (Reader V) PyExc V := do
  ensureDataValues P u eval line
  popDataValue line

/-- `__restorestmt`, behind its expression. -/
def restorestmt (target : Target) : Exec (Reader V) PyExc Unit := do
  Exec.update fun s => { s with dataValues := [] }
  Exec.zoom (fun s => s.data) (fun d s => { s with data := d }) (BasicData.restore target)

end Model

/-! ### Targets -/

/-- Python's conversions between numbers and strings. -/
structure Conversions (V W : Type) extends Values V W where
  /-- `isinstance(v, (int, float))`. -/
  isNumber : V → Bool
  /-- `'.' in v`. -/
  hasPoint : V → Bool
  /-- `str(v)`. -/
  text : V → Except PyExc V
  /-- `float(v)`. -/
  toFloat : V → Except PyExc V
  /-- `int(v)`. -/
  toInt : V → Except PyExc V

/-- Integers as the only values. -/
def integerConversions : Conversions Int Unit where
  toValues := integers
  isNumber _ := true
  hasPoint _ := false
  text := .ok
  toFloat := .ok
  toInt := .ok

/-- The `__symbol_table` of the parser. -/
structure Variables (V : Type) where
  symbolTable : List Char → Option V
  arrays : List Char → Option (BasicArray V)

/-- A target of `READ`. All targets of a statement are parsed, and their indices
evaluated, before the first value is read. -/
inductive VariableTarget (V : Type)
  | simple (name : List Char)
  | array (name : List Char) (indices : List V)

def VariableTarget.name {V : Type} : VariableTarget V → List Char
  | .simple name => name
  | .array name _ => name

def VariableTarget.isString {V : Type} (target : VariableTarget V) : Bool :=
  target.name.getLast? = some '$'

def nonNumericInput (line : LineRef) : PyExc :=
  valueError (inLine "Non-numeric input provided to a numeric variable" line)

def nonStringInput (line : LineRef) : PyExc :=
  valueError (inLine "Non-string input provided to a string variable" line)

def isValueError (e : PyExc) : Bool := e.kind == .exception && e.name == "ValueError"

section Targets

variable {V W S : Type} (P : Conversions V W) (line : LineRef)

/-- The number that a numeric target makes of a value. -/
def Conversions.numeric (right : V) : Except PyExc V :=
  if P.isStr right then
    if P.hasPoint right then P.toFloat right else P.toInt right
  else do
    let numeric ← P.toFloat right
    let whole ← P.toInt numeric
    let equal ← P.operate .eq whole numeric
    .ok (if P.truth equal then whole else numeric)

/-- The value `__readstmt` assigns for one that it has read. -/
def convert (isString : Bool) (right : V) : Except PyExc V :=
  if isString then
    if P.isNumber right then P.text right else .ok right
  else
    match P.numeric right with
    | .ok value => .ok value
    | .error e => .error (if isValueError e then nonNumericInput line else e)

/-- `self.__symbol_table[array_name]`. -/
def lookupArray (name : List Char) : Exec (Variables V) PyExc (BasicArray V) := do
  let s ← Exec.get
  match s.arrays name with
  | some array => pure array
  | none => Exec.fail ⟨.exception, "KeyError", "'" ++ String.ofList name ++ "_array'"⟩

/-- The check of `__readstmt` in front of reading. -/
def validateTarget : VariableTarget V → Exec (Variables V) PyExc Unit
  | .simple _ => pure ()
  | .array name indices => do
      let array ← lookupArray name
      let _ ← lift (validateArrayIndices P.toValues line array indices)
      pure ()

/-- `__assign_array_val`. -/
def assignArrayVal (name : List Char) (array : BasicArray V) (indexvars : List V) (value : V) :
    Exec (Variables V) PyExc Unit := do
  let indices ← lift (validateArrayIndices P.toValues line array indexvars)
  Exec.update fun s =>
    { s with
      arrays := Function.update s.arrays name
        (some { array with data := Function.update array.data indices value }) }

/-- `__assign_to_target`. -/
def assignToTarget (target : VariableTarget V) (value : V) : Exec (Variables V) PyExc Unit :=
  if target.isString && !P.isStr value then Exec.fail (nonStringInput line)
  else if !target.isString && P.isStr value then Exec.fail (nonNumericInput line)
  else
    match target with
    | .simple name =>
        Exec.update fun s =>
          { s with symbolTable := Function.update s.symbolTable name (some value) }
    | .array name indices => do
        let array ← lookupArray name
        assignArrayVal P line name array indices value

/-! ### Statements -/

/-- The variables, and a source of values. -/
structure Reading (V S : Type) where
  table : Variables V
  source : S

def onVariables {α : Type} (m : Exec (Variables V) PyExc α) : Exec (Reading V S) PyExc α :=
  Exec.zoom Reading.table (fun v s => { s with table := v }) m

def onSource {α : Type} (m : Exec S PyExc α) : Exec (Reading V S) PyExc α :=
  Exec.zoom Reading.source (fun source s => { s with source := source }) m

/-- `__readstmt` for one of its targets. -/
def readTarget (next : LineRef → Exec S PyExc V) (target : VariableTarget V) :
    Exec (Reading V S) PyExc Unit := do
  onVariables (validateTarget P line target)
  let right ← onSource (next line)
  let value ← lift (convert P line target.isString right)
  onVariables (assignToTarget P line target value)

/-- `__readstmt`, behind its targets. -/
def readstmt (next : LineRef → Exec S PyExc V) (targets : List (VariableTarget V)) :
    Exec (Reading V S) PyExc Unit :=
  Exec.each (readTarget P line next) targets

end Targets

/-- A statement of a run: `READ`, `RESTORE`, or another one, for what it does to the
variables. -/
inductive DataStep (V : Type)
  | read (line : LineRef) (targets : List (VariableTarget V))
  | restore (target : Target)
  | other (f : Variables V → Variables V)

section Steps

variable {V W S : Type} (P : Conversions V W) (next : LineRef → Exec S PyExc V)
  (restore : Target → Exec S PyExc Unit)

def performStep : DataStep V → Exec (Reading V S) PyExc Unit
  | .read line targets => readstmt P line next targets
  | .restore target => onSource (restore target)
  | .other f => onVariables (Exec.update f)

/-- The statements of a run, in order. -/
def perform (steps : List (DataStep V)) : Exec (Reading V S) PyExc Unit :=
  Exec.each (performStep P next restore) steps

end Steps

end XeusPywrap.Basic

