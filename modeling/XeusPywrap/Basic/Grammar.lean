import XeusPywrap.Basic.Expression

/-!
# XeusPywrap.Basic.Grammar

Expressions as trees with the precedence of operators in their types, the tokens they are
written with, and their values.

The parser has no negation of its own. It keeps a sign, `__sign`, which every operand of
`*`, `+` and the like starts with as 1 and a minus sign in front of it flips, and the
values here keep it too (`Tree.value` begins with it, `Tree.lastSign` is what it leaves):
numbers and variables with a value are multiplied by it, parentheses are negated if it is
-1, and strings, `PI`, functions and variables without a value do not look at it. What an
element of an array is multiplied by is not the sign in front of it but the one that its
last index has left.
-/

namespace XeusPywrap.Basic

/-! ### Trees -/

inductive Level
  | factor | term | expr | relation | negation | logical

/-- The token is one of these. -/
def Token.Among (t : Token) (categories : List Category) : Prop :=
  ∃ c ∈ categories, t.category = some c

def multiplications : List Category := [.times, .divide, .modulo]

def additions : List Category := [.plus, .minus]

def comparisons : List Category :=
  [.equal, .assignop, .notequal, .lesser, .greater, .lessequal, .greatequal]

def connectives : List Category := [.or, .and]

/-- The operator of a comparison; `=` is read as an assignment. -/
def compared : Category → Operator
  | .assignop => .eq
  | c => (comparison c).getD .eq

/-- The category of a token that has one. -/
def Token.kind (t : Token) : Category := t.category.getD .eof

/-- The function takes so many arguments. -/
def takes (category : Category) (k : Nat) : Prop :=
  (arity category).1 ≤ k ∧ ∀ m ∈ (arity category).2, k ≤ m

mutual
inductive Tree : Level → Type
  | unsignedint (lexeme : List Char) : Tree .factor
  | unsignedfloat (lexeme : List Char) : Tree .factor
  | string (lexeme : List Char) : Tree .factor
  | name (lexeme : List Char) : Tree .factor
  | pi : Tree .factor
  | plus (f : Tree .factor) : Tree .factor
  | minus (f : Tree .factor) : Tree .factor
  | paren (e : Tree .logical) : Tree .factor
  | element {k : Nat} (lexeme : List Char) (indices : Arguments k) : Tree .factor
  | call {k : Nat} (function : Token) (isFunction : function.Among functions)
      (plain : function.kind ≠ .pi ∧ function.kind ≠ .ternary) (args : Arguments k)
      (takes : takes function.kind k) : Tree .factor
  | ternary (function : Token) (isTernary : function.category = some .ternary)
      (condition : Tree .logical) (args : Arguments 2) : Tree .factor
  | factor (f : Tree .factor) : Tree .term
  | multiply (t : Tree .term) (operator : Token) (among : operator.Among multiplications)
      (f : Tree .factor) : Tree .term
  | term (t : Tree .term) : Tree .expr
  | add (e : Tree .expr) (operator : Token) (among : operator.Among additions)
      (t : Tree .term) : Tree .expr
  | expr (e : Tree .expr) : Tree .relation
  | compare (left : Tree .expr) (operator : Token) (among : operator.Among comparisons)
      (right : Tree .expr) : Tree .relation
  | relation (r : Tree .relation) : Tree .negation
  | not (r : Tree .relation) : Tree .negation
  | negation (e : Tree .negation) : Tree .logical
  | connect (left : Tree .logical) (operator : Token) (among : operator.Among connectives)
      (right : Tree .negation) : Tree .logical

/-- Expressions with commas in between. -/
inductive Arguments : Nat → Type
  | last (e : Tree .expr) : Arguments 1
  | cons {k : Nat} (e : Tree .expr) (es : Arguments k) : Arguments (k + 1)
end

/-! ### Tokens -/

def leftparen : Token := ⟨some .leftparen, ['(']⟩

def rightparen : Token := ⟨some .rightparen, [')']⟩

def comma : Token := ⟨some .comma, [',']⟩

mutual
def Tree.tokens {l : Level} : Tree l → List Token
  | .unsignedint lexeme => [⟨some .unsignedint, lexeme⟩]
  | .unsignedfloat lexeme => [⟨some .unsignedfloat, lexeme⟩]
  | .string lexeme => [⟨some .string, lexeme⟩]
  | .name lexeme => [⟨some .name, lexeme⟩]
  | .pi => [⟨some .pi, "PI".toList⟩]
  | .plus f => ⟨some .plus, ['+']⟩ :: f.tokens
  | .minus f => ⟨some .minus, ['-']⟩ :: f.tokens
  | .paren e => leftparen :: (e.tokens ++ [rightparen])
  | .element lexeme indices => ⟨some .name, lexeme⟩ :: leftparen :: (indices.tokens ++ [rightparen])
  | .call function _ _ args _ => function :: leftparen :: (args.tokens ++ [rightparen])
  | .ternary function _ condition args =>
      function :: leftparen :: (condition.tokens ++ comma :: (args.tokens ++ [rightparen]))
  | .factor f => f.tokens
  | .multiply t operator _ f => t.tokens ++ operator :: f.tokens
  | .term t => t.tokens
  | .add e operator _ t => e.tokens ++ operator :: t.tokens
  | .expr e => e.tokens
  | .compare left operator _ right => left.tokens ++ operator :: right.tokens
  | .relation r => r.tokens
  | .not r => ⟨some .not, "NOT".toList⟩ :: r.tokens
  | .negation e => e.tokens
  | .connect left operator _ right => left.tokens ++ operator :: right.tokens

def Arguments.tokens {k : Nat} : Arguments k → List Token
  | .last e => e.tokens
  | .cons e es => e.tokens ++ comma :: es.tokens
end

/-! ### Meaning -/

mutual
/-- The sign that an expression which begins with `sign` leaves. -/
def Tree.lastSign {l : Level} : Tree l → Int → Int
  | .unsignedint _, sign => sign
  | .unsignedfloat _, sign => sign
  | .string _, sign => sign
  | .name _, sign => sign
  | .pi, sign => sign
  | .plus f, sign => f.lastSign sign
  | .minus f, sign => f.lastSign (-sign)
  | .paren e, _ => e.lastSign 1
  | .element _ indices, _ => indices.lastSign
  | .call _ _ _ args _, _ => args.lastSign
  | .ternary _ _ _ args, _ => args.lastSign
  | .factor f, _ => f.lastSign 1
  | .multiply _ _ _ f, _ => f.lastSign 1
  | .term t, _ => t.lastSign 1
  | .add _ _ _ t, _ => t.lastSign 1
  | .expr e, _ => e.lastSign 1
  | .compare _ _ _ right, _ => right.lastSign 1
  | .relation r, _ => r.lastSign 1
  | .not r, _ => r.lastSign 1
  | .negation e, _ => e.lastSign 1
  | .connect _ _ _ right, _ => right.lastSign 1

def Arguments.lastSign {k : Nat} : Arguments k → Int
  | .last e => e.lastSign 1
  | .cons _ es => es.lastSign
end

/-- What expressions are evaluated in. -/
structure Scope (V : Type) where
  symbolTable : List Char → Option V
  arrays : List Char → Option (BasicArray V)
  lineNumber : LineRef

mutual
/-- Every element belongs to an array that exists. Without the array the parser would take
its name for a variable and leave the indices unread. -/
def Tree.Declared {V : Type} {l : Level} (scope : Scope V) : Tree l → Prop
  | .unsignedint _ => True
  | .unsignedfloat _ => True
  | .string _ => True
  | .name _ => True
  | .pi => True
  | .plus f => f.Declared scope
  | .minus f => f.Declared scope
  | .paren e => e.Declared scope
  | .element lexeme indices => (scope.arrays lexeme).isSome = true ∧ indices.Declared scope
  | .call _ _ _ args _ => args.Declared scope
  | .ternary _ _ condition args => condition.Declared scope ∧ args.Declared scope
  | .factor f => f.Declared scope
  | .multiply t _ _ f => t.Declared scope ∧ f.Declared scope
  | .term t => t.Declared scope
  | .add e _ _ t => e.Declared scope ∧ t.Declared scope
  | .expr e => e.Declared scope
  | .compare left _ _ right => left.Declared scope ∧ right.Declared scope
  | .relation r => r.Declared scope
  | .not r => r.Declared scope
  | .negation e => e.Declared scope
  | .connect left _ _ right => left.Declared scope ∧ right.Declared scope

def Arguments.Declared {V : Type} {k : Nat} (scope : Scope V) : Arguments k → Prop
  | .last e => e.Declared scope
  | .cons e es => e.Declared scope ∧ es.Declared scope
end

section Meaning

variable {V W : Type} (P : Values V W) (u : Unicode) (scope : Scope V)

/-- The operand, with the sign in front of it. -/
def signed (sign : Int) (v : V) : Exec W PyExc V := lift (P.operate .mul (P.int sign) v)

/-- Failures within an element of an array. -/
def withinElement (e : PyExc) : PyExc :=
  if isRuntimeError e then runtimeError (inLine "Array used without index" scope.lineNumber) else e

mutual
/-- The value of an expression that begins with `sign`; all but factors start anew. -/
def Tree.value {l : Level} : Tree l → Int → Exec W PyExc V
  | .unsignedint lexeme, sign => do
      let n ← lift (u.int lexeme)
      signed P sign (P.int n)
  | .unsignedfloat lexeme, sign => do
      let x ← lift (P.float lexeme)
      signed P sign x
  | .string lexeme, _ => pure (P.str lexeme)
  | .name lexeme, sign =>
      match scope.symbolTable lexeme with
      | some v => signed P sign v
      | none => pure (if lexeme.getLast? = some '$' then P.str [] else P.int 0)
  | .pi, _ => P.apply .pi scope.lineNumber []
  | .plus f, sign => f.value sign
  | .minus f, sign => f.value (-sign)
  | .paren e, sign => do
      let v ← e.value 1
      if sign = -1 then lift (P.negate v) else pure v
  | .element lexeme indices, _ =>
      match scope.arrays lexeme with
      | none => Exec.fail (withinElement scope (subscriptError scope.lineNumber))
      | some array =>
          Exec.handle
            (do
              let indexvars ← indices.values (fun _ v => .ok v) 0
              let arrayval ← lift (getArrayVal P scope.lineNumber array indexvars)
              signed P indices.lastSign arrayval)
            fun e => Exec.fail (withinElement scope e)
  | .call function _ _ args _, _ => do
      let vs ← args.values (received P function.kind scope.lineNumber) 0
      P.apply function.kind scope.lineNumber vs
  | .ternary _ _ condition args, _ => do
      let v ← condition.value 1
      let vs ← args.values (received P .ternary scope.lineNumber) 1
      P.apply .ternary scope.lineNumber (v :: vs)
  | .factor f, _ => f.value 1
  | .multiply t operator _ f, _ => do
      let left ← t.value 1
      let right ← f.value 1
      lift (P.operate (multiplicative operator.kind) left right)
  | .term t, _ => t.value 1
  | .add e operator _ t, _ => do
      let left ← e.value 1
      let right ← t.value 1
      lift (P.operate (additive operator.kind) left right)
  | .expr e, _ => e.value 1
  | .compare left operator _ right, _ => do
      let v ← left.value 1
      let w ← right.value 1
      lift (P.operate (compared operator.kind) v w)
  | .relation r, _ => r.value 1
  | .not r, _ => do
      let v ← r.value 1
      pure (P.bool (!P.truth v))
  | .negation e, _ => e.value 1
  | .connect left operator _ right, _ => do
      let v ← left.value 1
      let w ← right.value 1
      pure (logical P operator.kind v w)

/-- The values of arguments, each of which is checked with its number. -/
def Arguments.values {k : Nat} :
    Arguments k → (Nat → V → Except PyExc V) → Nat → Exec W PyExc (List V)
  | .last e, check, i => do
      let v ← e.value 1
      let v ← lift (check i v)
      pure [v]
  | .cons e es, check, i => do
      let v ← e.value 1
      let v ← lift (check i v)
      let vs ← es.values check (i + 1)
      pure (v :: vs)
end

end Meaning

end XeusPywrap.Basic
