import XeusPywrap.Python

/-!
# XeusPywrap.Text

Characters and texts of Python: what its Unicode database says about digits, `int`
and `str` of whole numbers, `chr`, and the texts that reach C++.
-/

namespace XeusPywrap

/-! ### Python's digits and `int` -/

/-- The properties of characters in Python's Unicode database that reading numbers
depends on. The laws fix them for ASCII. -/
structure Unicode where
  /-- `str.isdigit` of a single character. -/
  isdigit : Char → Bool
  /-- The value of a character of category `Nd`, the ones `int` accepts. -/
  decimal : Char → Option Nat
  isdigit_ascii : ∀ c : Char, c.toNat < 128 → isdigit c = c.isDigit
  decimal_ascii : ∀ c : Char, c.toNat < 128 →
    decimal c = if c.isDigit then some (c.toNat - 48) else none

/-- Python with the digits of ASCII only. -/
def Unicode.ascii : Unicode where
  isdigit c := c.isDigit
  decimal c := if c.isDigit then some (c.toNat - 48) else none
  isdigit_ascii _ _ := rfl
  decimal_ascii _ _ := rfl

def valueError (message : String) : PyExc := ⟨.exception, "ValueError", message⟩

/-- `sys.int_info.default_max_str_digits`. -/
def maxStrDigits : Nat := 4300

/-- The number a sequence of decimal digits denotes. -/
def decimalValue (digits : List Nat) : Nat := digits.foldl (fun n d => 10 * n + d) 0

/-- What `int` raises for a text it does not read; 200 characters of its `repr` are shown. -/
def invalidLiteral (repr : List Char) : PyExc :=
  valueError ("invalid literal for int() with base 10: " ++ String.ofList (repr.take 200))

/-- What `int` raises for a literal of so many digits. -/
def tooManyDigits (n : Nat) : PyExc :=
  valueError
    ("Exceeds the limit (4300 digits) for integer string conversion: value has " ++ toString n ++
      " digits; use sys.set_int_max_str_digits() to increase the limit")

/-- The quotation mark `repr` uses where it can. -/
def apostrophe : Char := Char.ofNat 0x27

/-- `int(number_input)`, for a text of characters that are `isdigit`. The limit is for
literals: a text that is none is refused as such, however long it is. (This is so from
Python 3.12 on; before, the digits in front were counted first.) -/
def Unicode.int (u : Unicode) (numberInput : List Char) : Except PyExc Int :=
  let digits := (numberInput.map u.decimal).takeWhile Option.isSome
  if digits.length < numberInput.length then
    .error (invalidLiteral (apostrophe :: (numberInput ++ [apostrophe])))
  else if maxStrDigits < digits.length then .error (tooManyDigits digits.length)
  else .ok (decimalValue (digits.map fun d => d.getD 0))

/-! ### Texts and numerals -/

/-- A character of a Python string. Unlike a `Char` it may be a surrogate. -/
structure CodePoint where
  code : Nat
  valid : code < 0x110000
  deriving DecidableEq, Repr

/-- A Python string. -/
abbrev Text := List CodePoint

theorem code_lt (c : Char) : c.toNat < 0x110000 := by
  rcases c.valid with h | ⟨-, h⟩ <;> simp only [Char.toNat] at * <;> omega

def CodePoint.ofChar (c : Char) : CodePoint := ⟨c.toNat, code_lt c⟩

/-- The character with a code, if the code is valid. -/
def codePoint? (n : Int) : Option CodePoint :=
  if h : 0 ≤ n ∧ n < 0x110000 then some ⟨n.toNat, by omega⟩ else none

/-- The decimal numeral of a number. -/
def numeral (n : Int) : List Char :=
  if n < 0 then '-' :: Nat.toDigits 10 n.natAbs else Nat.toDigits 10 n.natAbs

/-- `str(n)` accepts numbers up to a limit. -/
def printable (n : Int) : Bool := (Nat.toDigits 10 n.natAbs).length ≤ maxStrDigits

/-- What `str` raises for the others. -/
def strLimitExceeded : PyExc :=
  valueError
    ("Exceeds the limit (4300 digits) for integer string conversion; " ++
      "use sys.set_int_max_str_digits() to increase the limit")

/-- `str(n)`. -/
def pyStr (n : Int) : Except PyExc String :=
  if printable n then .ok (String.ofList (numeral n)) else .error strLimitExceeded

/-- `chr(n)`, as documented; before Python 3.13 the interpreter itself raises an
`OverflowError` where `n` is no C `int`. -/
def pyChr (n : Int) : Except PyExc CodePoint :=
  match codePoint? n with
  | some c => .ok c
  | none => .error (valueError "chr() arg not in range(0x110000)")

/-- Surrogates have no UTF-8 encoding. -/
def CodePoint.isSurrogate (c : CodePoint) : Bool := 0xd800 ≤ c.code && c.code < 0xe000

/-- The UTF-8 encoding pybind11 hands to C++; only texts without surrogates get there. -/
def CodePoint.toChar (c : CodePoint) : Char := Char.ofNat c.code

end XeusPywrap
