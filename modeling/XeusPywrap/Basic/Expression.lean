import XeusPywrap.Basic.Execute

/-!
# XeusPywrap.Basic.Expression

The expressions of `PyBasic/basicparser.py`. The parser evaluates while it reads: the
values of what it has read lie on a stack, and there is no tree.

What Python's operators and functions do with the values of BASIC is a parameter
(`Values`): numbers, strings and truth values all reach every operator.
-/

namespace XeusPywrap.Basic

/-! ### Values -/

/-- The operators of Python that expressions use. -/
inductive Operator
  | add | sub | mul | div | mod | eq | ne | lt | gt | le | ge
  deriving DecidableEq, Repr

/-- Python's values, and what Python does with them. `W` is what functions and
statements see and change besides: random numbers, files, the standard streams. -/
structure Values (V W : Type) where
  int : Int → V
  str : List Char → V
  bool : Bool → V
  /-- `float(lexeme)`. -/
  float : List Char → Except PyExc V
  operate : Operator → V → V → Except PyExc V
  negate : V → Except PyExc V
  truth : V → Bool
  isStr : V → Bool
  /-- A number as an index: `int` of a `float`, and the `TypeError` of comparing anything
  else with a number. -/
  index : V → Except PyExc Int
  /-- What a function does with the values of its arguments. -/
  apply : Category → LineRef → List V → Exec W PyExc V

/-- Integers as the only values. -/
def integers : Values Int Unit where
  int n := n
  str _ := 0
  bool b := b.toInt
  float _ := .ok 0
  operate
    | .add, v, w => .ok (v + w)
    | .sub, v, w => .ok (v - w)
    | .mul, v, w => .ok (v * w)
    | .div, v, w => .ok (v / w)
    | .mod, v, w => .ok (v % w)
    | .eq, v, w => .ok (decide (v = w)).toInt
    | .ne, v, w => .ok (decide (v ≠ w)).toInt
    | .lt, v, w => .ok (decide (v < w)).toInt
    | .gt, v, w => .ok (decide (w < v)).toInt
    | .le, v, w => .ok (decide (v ≤ w)).toInt
    | .ge, v, w => .ok (decide (w ≤ v)).toInt
  negate v := .ok (-v)
  truth v := v ≠ 0
  isStr _ := false
  index v := .ok v
  apply _ _ vs := pure (vs.headD 0)

/-- `BASICArray`. The lists of `data` have an element for every index in bounds. -/
structure BasicArray (V : Type) where
  originalDims : List Int
  data : List Int → V

/-! ### The parser -/

/-- `BASICParser`. Its `__symbol_table` has the arrays too; `_array` behind their names
keeps them apart. -/
structure BasicParser (V W : Type) where
  symbolTable : List Char → Option V
  arrays : List Char → Option (BasicArray V)
  /-- The top comes first. -/
  operandStack : List V
  dataValues : List V
  lineNumber : LineRef
  tokenlist : List Token
  tokenindex : Nat
  token : Token
  sign : Int
  world : W

abbrev Evaluating (V W α : Type) := Exec (BasicParser V W) PyExc α

/-- `RecursionError` is a `RuntimeError`. -/
def recursionError : PyExc := ⟨.exception, "RecursionError", "maximum recursion depth exceeded"⟩

def isRuntimeError (e : PyExc) : Bool :=
  e.kind == .exception && (e.name == "RuntimeError" || e.name == "RecursionError")

def inLine (message : String) (line : LineRef) : String := message ++ " in line " ++ line.str

/-- `Token.functions`. -/
def functions : List Category :=
  [.abs, .atn, .cos, .exp, .int, .log, .pow, .rnd, .sin, .sqr, .tan, .chr, .asc, .mid, .ternary,
   .str, .val, .len, .upper, .lower, .round, .max, .min, .instr, .pi, .rndint, .tab, .left, .right]

/-- `Token.catnames`, as far as the parser insists on a category. -/
def catname : Category → String
  | .assignop => "ASSIGNOP"
  | .leftparen => "LEFTPAREN"
  | .rightparen => "RIGHTPAREN"
  | .comma => "COMMA"
  | .then => "THEN"
  | .to => "TO"
  | .step => "STEP"
  | .gosub => "GOSUB"
  | _ => ""

section Primitives

variable {V W : Type}

/-- An operation of Python that may raise. -/
def lift {σ α : Type} : Except PyExc α → Exec σ PyExc α
  | .ok a => pure a
  | .error e => Exec.fail e

/-- `__advance`. Behind the last token the parser keeps looking at it. -/
def advance : Evaluating V W Unit :=
  Exec.update fun s =>
    { s with
      tokenindex := s.tokenindex + 1
      token := s.tokenlist[s.tokenindex + 1]?.getD s.token }

/-- `__consume`. -/
def consume (expected : Category) : Evaluating V W Unit := do
  let s ← Exec.get
  if s.token.category = some expected then advance
  else Exec.fail (runtimeError (inLine ("Expecting " ++ catname expected) s.lineNumber))

def push (v : V) : Evaluating V W Unit :=
  Exec.update fun s => { s with operandStack := v :: s.operandStack }

/-- `self.__operand_stack.pop()`. -/
def pop : Evaluating V W V := do
  let s ← Exec.get
  match s.operandStack with
  | [] => Exec.fail ⟨.exception, "IndexError", "pop from empty list"⟩
  | v :: operandStack => do
      Exec.update fun s => { s with operandStack := operandStack }
      pure v

def subscriptError (line : LineRef) : PyExc := runtimeError (inLine "SUBSCRIPT ERROR" line)

variable (P : Values V W)

/-- The loop of `__validate_array_indices`. -/
def validateIndices (line : LineRef) : List Int → List V → Except PyExc (List Int)
  | [], [] => .ok []
  | dim :: dims, v :: indexvars => do
      let index ← P.index v
      if index < 0 ∨ dim < index then .error (subscriptError line)
      else do
        let indices ← validateIndices line dims indexvars
        .ok (index :: indices)
  | _, _ => .error (subscriptError line)

/-- `__validate_array_indices`. -/
def validateArrayIndices (line : LineRef) (array : BasicArray V) (indexvars : List V) :
    Except PyExc (List Int) :=
  if array.originalDims.length = indexvars.length then
    validateIndices P line array.originalDims indexvars
  else .error (subscriptError line)

/-- `__get_array_val`. -/
def getArrayVal (line : LineRef) (array : BasicArray V) (indexvars : List V) : Except PyExc V :=
  (validateArrayIndices P line array indexvars).map array.data

end Primitives

/-! ### Chains of operators -/

section Chains

variable {V W : Type}

/-- The loops of `__expr`, `__term` and `__logexpr`: as long as an operator of the chain
follows, take its right operand. -/
def chain (operators : List Category) (operand : Evaluating V W Unit)
    (combine : Category → V → V → Except PyExc V) : Nat → Evaluating V W Unit
  | 0 => Exec.fail recursionError
  | n + 1 => do
      let s ← Exec.get
      match s.token.category with
      | none => pure ()
      | some category =>
          if category ∈ operators then do
            advance
            operand
            let right ← pop
            let left ← pop
            push (← lift (combine category left right))
            chain operators operand combine n
          else pure ()

/-- The loops over expressions with commas in between, behind the first one. -/
def commas (operand : Evaluating V W Unit) : Nat → Evaluating V W (List V)
  | 0 => Exec.fail recursionError
  | n + 1 => do
      let s ← Exec.get
      if s.token.category = some .comma then do
        advance
        operand
        let v ← pop
        let vs ← commas operand n
        pure (v :: vs)
      else pure []

variable (P : Values V W)

/-- The operators of `__term`. -/
def multiplicative : Category → Operator
  | .times => .mul
  | .divide => .div
  | _ => .mod

/-- The operators of `__expr`. -/
def additive : Category → Operator
  | .plus => .add
  | _ => .sub

/-- The operators of `__relexpr`. -/
def comparison : Category → Option Operator
  | .equal => some .eq
  | .notequal => some .ne
  | .lesser => some .lt
  | .greater => some .gt
  | .lessequal => some .le
  | .greatequal => some .ge
  | _ => none

/-- Python's `or` and `and` on values. -/
def logical : Category → V → V → V
  | .or, left, right => if P.truth left then left else right
  | _, left, right => if P.truth left then right else left

/-! Everything above factors, for a given way to read a factor. Chains have at most `n`
operators. -/

variable (n : Nat) (factor : Evaluating V W Unit)

def signedFactor : Evaluating V W Unit := do
  Exec.update fun s => { s with sign := 1 }
  factor

/-- `__term`. -/
def term : Evaluating V W Unit := do
  signedFactor factor
  chain [.times, .divide, .modulo] (signedFactor factor) (fun c => P.operate (multiplicative c)) n

/-- `__expr`. -/
def expr : Evaluating V W Unit := do
  term P n factor
  chain [.plus, .minus] (term P n factor) (fun c => P.operate (additive c)) n

/-- `__relexpr`. The lexer reads `=` as an assignment. -/
def relexpr : Evaluating V W Unit := do
  expr P n factor
  Exec.update fun s =>
    if s.token.category = some .assignop then
      { s with token := { s.token with category := some .equal } }
    else s
  let s ← Exec.get
  match s.token.category.bind comparison with
  | none => pure ()
  | some operator => do
      advance
      expr P n factor
      let right ← pop
      let left ← pop
      push (← lift (P.operate operator left right))

/-- `__notexpr`. -/
def notexpr : Evaluating V W Unit := do
  let s ← Exec.get
  if s.token.category = some .not then do
    advance
    relexpr P n factor
    let right ← pop
    push (P.bool (!P.truth right))
  else relexpr P n factor

/-- `__logexpr`. -/
def logexpr : Evaluating V W Unit := do
  notexpr P n factor
  chain [.or, .and] (notexpr P n factor) (fun c left right => .ok (logical P c left right)) n

/-! ### Functions and arrays -/

/-- How many arguments a function takes; `none` is any number. -/
def arity : Category → Nat × Option Nat
  | .rndint | .pow | .left | .right => (2, some 2)
  | .max | .min => (1, none)
  | .ternary => (3, some 3)
  | .mid => (2, some 3)
  | .instr => (2, some 4)
  | _ => (1, some 1)

/-- What a function does with an argument before it reads the next one. -/
def received (category : Category) (line : LineRef) (i : Nat) (v : V) : Except PyExc V :=
  match category, i with
  | .instr, 0 =>
      if P.isStr v then .ok v
      else .error ⟨.exception, "TypeError", inLine "Invalid type supplied to INSTR" line⟩
  | .mid, 1 | .instr, 2 | .instr, 3 => P.operate .sub v (P.int 1)
  | _, _ => .ok v

/-- The arguments of a function from the `i`th one on. -/
def arguments (category : Category) : Nat → Nat → Evaluating V W (List V)
  | _, 0 => Exec.fail recursionError
  | i, m + 1 => do
      if category = .ternary ∧ i = 0 then logexpr P n factor else expr P n factor
      let value ← pop
      let s ← Exec.get
      let v ← lift (received P category s.lineNumber i value)
      if i + 1 < (arity category).1 then do
        consume .comma
        let vs ← arguments category (i + 1) m
        pure (v :: vs)
      else if s.token.category = some .comma ∧ (∀ k ∈ (arity category).2, i + 1 < k) then do
        advance
        let vs ← arguments category (i + 1) m
        pure (v :: vs)
      else pure [v]

/-- The arguments in parentheses; `PI` has none. -/
def argumentList (category : Category) : Evaluating V W (List V) :=
  if category = .pi then pure []
  else do
    consume .leftparen
    let vs ← arguments P n factor category 0 n
    consume .rightparen
    pure vs

/-- `__evaluate_function`. -/
def evaluateFunction (category : Category) : Evaluating V W V := do
  advance
  let vs ← argumentList P n factor category
  let s ← Exec.get
  Exec.zoom (fun s => s.world) (fun w s => { s with world := w }) (P.apply category s.lineNumber vs)

/-- Expressions with commas in between, unless the statement is at its end. -/
def indexVars : Evaluating V W (List V) := do
  let s ← Exec.get
  if s.tokenindex < s.tokenlist.length then do
    expr P n factor
    let v ← pop
    let vs ← commas (expr P n factor) n
    pure (v :: vs)
  else pure []

/-- The element of an array, behind its name. What stands behind the indices is passed
over by the caller. -/
def element (array : BasicArray V) : Evaluating V W Unit := do
  let s ← Exec.get
  Exec.handle
    (do
      consume .leftparen
      let indexvars ← indexVars P n factor
      let s ← Exec.get
      let arrayval ← lift (getArrayVal P s.lineNumber array indexvars)
      push (← lift (P.operate .mul (P.int s.sign) arrayval)))
    fun e =>
      if isRuntimeError e then
        Exec.fail (runtimeError (inLine "Array used without index" s.lineNumber))
      else Exec.fail e

/-- A variable; without a value it is 0 or the empty string. -/
def variableValue (lexeme : List Char) : Evaluating V W Unit := do
  let s ← Exec.get
  match s.symbolTable lexeme with
  | some v => do push (← lift (P.operate .mul (P.int s.sign) v))
  | none => push (if lexeme.getLast? = some '$' then P.str [] else P.int 0)

variable (u : Unicode)

/-- `__factor`, which calls itself and reads expressions in parentheses with `factor`. -/
def factorBody : Evaluating V W Unit := do
  let s ← Exec.get
  match s.token.category with
  | some .plus => do
      advance
      factor
  | some .minus => do
      Exec.update fun s => { s with sign := -s.sign }
      advance
      factor
  | some .unsignedint => do
      let value ← lift (u.int s.token.lexeme)
      push (← lift (P.operate .mul (P.int s.sign) (P.int value)))
      advance
  | some .unsignedfloat => do
      let value ← lift (P.float s.token.lexeme)
      push (← lift (P.operate .mul (P.int s.sign) value))
      advance
  | some .string => do
      push (P.str s.token.lexeme)
      advance
  | some .name => do
      match s.arrays s.token.lexeme with
      | none => variableValue P s.token.lexeme
      | some array =>
          if s.tokenlist[s.tokenindex + 1]?.any fun next => next.category = some .leftparen then do
            advance
            element P n factor array
          else variableValue P s.token.lexeme
      advance
  | some .leftparen => do
      advance
      logexpr P n factor
      if s.sign = -1 then do
        let v ← pop
        push (← lift (P.negate v))
      consume .rightparen
  | category => do
      match category.filter (· ∈ functions) with
      | some category => do push (← evaluateFunction P n factor category)
      | none =>
          Exec.fail (runtimeError (inLine "Expecting factor in numeric expression" s.lineNumber ++
            String.ofList s.token.lexeme))

end Chains

section Depth

variable {V W : Type} (P : Values V W) (u : Unicode)

/-- `__factor`, at most `depth` calls of it deep. -/
def factor (n : Nat) : Nat → Evaluating V W Unit
  | 0 => Exec.fail recursionError
  | depth + 1 => factorBody P n (factor n depth) u

/-- `__logexpr`. -/
def evaluate (depth : Nat) : Evaluating V W Unit := logexpr P depth (factor P u depth depth)

end Depth

end XeusPywrap.Basic
