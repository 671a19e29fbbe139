import Mathlib.Data.List.DropRight
import XeusPywrap.Text

/-!
# XeusPywrap.Basic.Lexer

`PyBasic/basictoken.py` and `PyBasic/lexer.py`: the tokens of a BASIC statement.

The lexer reads a statement character by character; what it has still to read is a
list here. The column of a token is left out: nothing but `pretty_print` looks at it.
-/

namespace XeusPywrap.Basic

/-! ### Python's characters -/

/-- What Python's Unicode database says about single characters, as far as the lexer
asks. The laws fix it for ASCII and say which classes have no character in common. -/
structure Letters extends Unicode where
  /-- `str.isspace`. -/
  isspace : Char → Bool
  /-- `str.isalpha`. -/
  isalpha : Char → Bool
  /-- `str.isprintable`. -/
  isprintable : Char → Bool
  /-- `str.upper`; some characters become several. -/
  upper : Char → List Char
  isspace_ascii : ∀ c : Char, c.toNat < 128 →
    isspace c = (c.toNat = 0x20 || (0x09 ≤ c.toNat && c.toNat ≤ 0x0d) ||
      (0x1c ≤ c.toNat && c.toNat ≤ 0x1f))
  isalpha_ascii : ∀ c : Char, c.toNat < 128 → isalpha c = c.isAlpha
  upper_ascii : ∀ c : Char, c.toNat < 128 → upper c = [c.toUpper]
  isspace_of_boundary : ∀ c : Char, isLineBoundary c = true → isspace c = true
  digit_not_space : ∀ c : Char, isdigit c = true → isspace c = false
  alpha_not_space : ∀ c : Char, isalpha c = true → isspace c = false
  alpha_not_digit : ∀ c : Char, isalpha c = true → isdigit c = false
  decimal_lt : ∀ c d, decimal c = some d → d < 10

theorem toNat_of_isDigit {c : Char} (h : c.isDigit = true) : 48 ≤ c.toNat ∧ c.toNat ≤ 57 := by
  simp only [Char.isDigit, Bool.and_eq_true, decide_eq_true_eq, UInt32.le_iff_toNat_le] at h
  exact h

theorem toNat_of_isAlpha {c : Char} (h : c.isAlpha = true) :
    (65 ≤ c.toNat ∧ c.toNat ≤ 90) ∨ (97 ≤ c.toNat ∧ c.toNat ≤ 122) := by
  have hval : (decide (65 ≤ c.val ∧ c.val ≤ 90) ||
      (decide (97 ≤ c.val) && decide (c.val ≤ 122))) = true := h
  simp only [Bool.or_eq_true, Bool.and_eq_true, decide_eq_true_eq,
    UInt32.le_iff_toNat_le] at hval
  exact hval

namespace Letters

/-- The ASCII characters Python takes for spaces, and all line boundaries. -/
def isAsciiSpace (c : Char) : Bool :=
  c.toNat = 0x20 || (0x09 ≤ c.toNat && c.toNat ≤ 0x0d) || (0x1c ≤ c.toNat && c.toNat ≤ 0x1f) ||
    (128 ≤ c.toNat && isLineBoundary c)

theorem isAsciiSpace_eq_false {c : Char} (h : 48 ≤ c.toNat) (h' : c.toNat < 128) :
    isAsciiSpace c = false := by
  simp only [isAsciiSpace, Bool.or_eq_false_iff, Bool.and_eq_false_iff, decide_eq_false_iff_not]
  omega

/-- Python with the letters and digits of ASCII only. -/
def ascii : Letters where
  toUnicode := Unicode.ascii
  isspace := isAsciiSpace
  isalpha c := c.isAlpha
  isprintable _ := false
  upper c := [c.toUpper]
  isspace_ascii c hc := by simp [isAsciiSpace, Nat.not_le.mpr hc]
  isalpha_ascii _ _ := rfl
  upper_ascii _ _ := rfl
  isspace_of_boundary c hc := by
    simp only [isLineBoundary, decide_eq_true_eq, List.mem_cons, List.not_mem_nil, or_false] at hc
    simp only [isAsciiSpace, isLineBoundary, Bool.or_eq_true, Bool.and_eq_true,
      decide_eq_true_eq, List.mem_cons, List.not_mem_nil, or_false]
    omega
  digit_not_space c hc := by
    have h := toNat_of_isDigit hc
    exact isAsciiSpace_eq_false h.1 (by omega)
  alpha_not_space c hc := by
    have h := toNat_of_isAlpha hc
    exact isAsciiSpace_eq_false (by omega) (by omega)
  alpha_not_digit c hc := by
    have h := toNat_of_isAlpha hc
    refine Bool.eq_false_iff.mpr fun hdigit => ?_
    have h' := toNat_of_isDigit hdigit
    omega
  decimal_lt c d hd := by
    simp only [Unicode.ascii, Option.ite_none_right_eq_some, Option.some.injEq] at hd
    have h := toNat_of_isDigit hd.1
    omega

variable (A : Letters)

/-- A text without the spaces around it. -/
def stripBy (space : Char → Bool) (text : List Char) : List Char :=
  (text.dropWhile space).rdropWhile space

/-- `str.strip()`. -/
def strip (text : List Char) : List Char := stripBy A.isspace text

/-- The spaces that `int` drops. The separators 0x1c to 0x1f are not among them. -/
def isIntSpace (c : Char) : Bool := A.isspace c && !(0x1c ≤ c.toNat && c.toNat ≤ 0x1f)

/-- A character by its code, in at least `width` hexadecimal digits. -/
def hexEscape (letter : Char) (width : Nat) (c : Char) : List Char :=
  let digits := Nat.toDigits 16 c.toNat
  '\\' :: letter :: (List.replicate (width - digits.length) '0' ++ digits)

/-- `repr` of a character in quotation marks: other than ASCII, it is written as it is if
it is printable. -/
def escape (quote c : Char) : List Char :=
  if c = quote ∨ c = '\\' then ['\\', c]
  else if c = '\t' then ['\\', 't']
  else if c = '\n' then ['\\', 'n']
  else if c = '\r' then ['\\', 'r']
  else if c.toNat < 0x20 ∨ c.toNat = 0x7f then hexEscape 'x' 2 c
  else if c.toNat < 0x7f ∨ A.isprintable c then [c]
  else if c.toNat ≤ 0xff then hexEscape 'x' 2 c
  else if c.toNat ≤ 0xffff then hexEscape 'u' 4 c
  else hexEscape 'U' 8 c

/-- `repr(text)`. -/
def repr (text : List Char) : List Char :=
  let quote := if apostrophe ∈ text ∧ '"' ∉ text then '"' else apostrophe
  quote :: (text.flatMap (A.escape quote) ++ [quote])

/-- The digits of a literal, with single underscores between them. -/
def readDigits : Bool → List Char → Option (List Nat)
  | afterDigit, [] => if afterDigit then some [] else none
  | afterDigit, c :: cs =>
      match A.decimal c with
      | some d => (readDigits true cs).map (d :: ·)
      | none => if c = '_' && afterDigit then readDigits false cs else none

/-- `int(text)`: spaces around, a sign and digits. As in `Unicode.int`, these are only
counted if the literal is valid. -/
def pyInt (text : List Char) : Except PyExc Int :=
  let (sign, digits) : Int × List Char :=
    match stripBy A.isIntSpace text with
    | '-' :: digits => (-1, digits)
    | '+' :: digits => (1, digits)
    | digits => (1, digits)
  match A.readDigits false digits with
  | none => .error (invalidLiteral (A.repr text))
  | some ds =>
      if maxStrDigits < ds.length then .error (tooManyDigits ds.length)
      else .ok (sign * decimalValue ds)

end Letters

/-! ### Tokens -/

/-- The categories of `BASICToken`. -/
inductive Category
  | eof | «let» | list | print | run | «for» | next | «if» | «then» | «else» | assignop
  | leftparen | rightparen | plus | minus | times | divide | newline | unsignedint | name | exit
  | dim | greater | lesser | step | goto | gosub | input | rem | «return» | save | load
  | notequal | lessequal | greatequal | unsignedfloat | string | to | new | equal | comma
  | stop | colon | on | pow | sqr | abs | randomize | rnd | atn | cos | exp | log | sin | tan
  | data | read | int | chr | asc | str | mid | modulo | ternary | val | len | upper | lower
  | round | max | min | instr | and | or | not | pi | rndint | «open» | hash | close | fseek
  | restore | append | output | tab | semicolon | left | right | «while» | wend | renumber
  deriving DecidableEq, Repr

/-- A token. The category is missing from the token the lexer makes of spaces at the
end of a statement. -/
structure Token where
  category : Option Category
  lexeme : List Char
  deriving DecidableEq, Repr

/-- `BASICToken.smalltokens`. -/
def smalltokens : List (List Char × Category) :=
  [(['='], .assignop), (['('], .leftparen), ([')'], .rightparen), (['+'], .plus), (['-'], .minus),
   (['*'], .times), (['/'], .divide), (['\n'], .newline), (['<'], .lesser), (['>'], .greater),
   (['<', '>'], .notequal), (['<', '='], .lessequal), (['>', '='], .greatequal), ([','], .comma),
   ([':'], .colon), (['%'], .modulo), (['!', '='], .notequal), (['#'], .hash),
   ([';'], .semicolon)]

/-- `BASICToken.keywords`. -/
def keywords : List (List Char × Category) :=
  [("LET".toList, .let), ("LIST".toList, .list), ("PRINT".toList, .print), ("FOR".toList, .for),
   ("RUN".toList, .run), ("NEXT".toList, .next), ("IF".toList, .if), ("THEN".toList, .then),
   ("ELSE".toList, .else), ("EXIT".toList, .exit), ("DIM".toList, .dim), ("STEP".toList, .step),
   ("GOTO".toList, .goto), ("GOSUB".toList, .gosub), ("INPUT".toList, .input),
   ("REM".toList, .rem), ("RETURN".toList, .return), ("SAVE".toList, .save),
   ("LOAD".toList, .load), ("NEW".toList, .new), ("STOP".toList, .stop), ("TO".toList, .to),
   ("ON".toList, .on), ("POW".toList, .pow), ("SQR".toList, .sqr), ("ABS".toList, .abs),
   ("RANDOMIZE".toList, .randomize), ("RND".toList, .rnd), ("ATN".toList, .atn),
   ("COS".toList, .cos), ("EXP".toList, .exp), ("LOG".toList, .log), ("SIN".toList, .sin),
   ("TAN".toList, .tan), ("DATA".toList, .data), ("READ".toList, .read), ("INT".toList, .int),
   ("CHR$".toList, .chr), ("ASC".toList, .asc), ("STR$".toList, .str), ("MID$".toList, .mid),
   ("MOD".toList, .modulo), ("IF$".toList, .ternary), ("IFF".toList, .ternary),
   ("VAL".toList, .val), ("LEN".toList, .len), ("UPPER$".toList, .upper),
   ("LOWER$".toList, .lower), ("ROUND".toList, .round), ("MAX".toList, .max),
   ("MIN".toList, .min), ("INSTR".toList, .instr), ("END".toList, .stop), ("AND".toList, .and),
   ("OR".toList, .or), ("NOT".toList, .not), ("PI".toList, .pi), ("RNDINT".toList, .rndint),
   ("OPEN".toList, .open), ("CLOSE".toList, .close), ("FSEEK".toList, .fseek),
   ("APPEND".toList, .append), ("OUTPUT".toList, .output), ("RESTORE".toList, .restore),
   ("TAB".toList, .tab), ("LEFT$".toList, .left), ("RIGHT$".toList, .right),
   ("RENUMBER".toList, .renumber), ("WHILE".toList, .while), ("WEND".toList, .wend)]

/-! ### The lexer -/

def syntaxError (message : String) : PyExc := ⟨.exception, "SyntaxError", message⟩

/-- What follows an opening quote: the lexeme up to the terminating quote, and the rest. -/
def readString : List Char → Except PyExc (List Char × List Char)
  | [] => .error (syntaxError "Mismatched quotes")
  | c :: cs =>
      if c = '"' then .ok ([], cs)
      else (readString cs).map fun (lexeme, rest) => (c :: lexeme, rest)

section Lexer

variable (A : Letters)

/-- The rest of a number, of which a decimal point has been found or not. -/
def readNumber : Bool → List Char → List Char × Bool × List Char
  | foundPoint, [] => ([], foundPoint, [])
  | foundPoint, c :: cs =>
      if A.isdigit c then
        let (lexeme, found, rest) := readNumber foundPoint cs
        (c :: lexeme, found, rest)
      else if c = '.' && !foundPoint then
        let (lexeme, found, rest) := readNumber true cs
        (c :: lexeme, found, rest)
      else ([], foundPoint, c :: cs)

/-- The characters a keyword or a name goes on with. -/
def isNameChar (c : Char) : Bool := A.isalpha c || A.isdigit c || c = '_' || c = '$'

/-- The token that starts with the letter `c`, and the rest of the statement. -/
def lexName (c : Char) (cs : List Char) : Token × List Char :=
  let lexeme := (c :: cs.takeWhile (isNameChar A)).flatMap A.upper
  let rest := cs.dropWhile (isNameChar A)
  let category := (keywords.lookup lexeme).getD .name
  if lexeme = "REM".toList then (⟨some category, lexeme ++ rest⟩, [])
  else (⟨some category, lexeme⟩, rest)

/-- The token that starts with the operator symbol `c`, whose category is known. -/
def lexSymbol (c : Char) (category : Category) : List Char → Token × List Char
  | [] => (⟨some category, [c]⟩, [])
  | c' :: cs =>
      match smalltokens.lookup [c, c'] with
      | some category' => (⟨some category', [c, c']⟩, cs)
      | none => (⟨some category, [c]⟩, c' :: cs)

/-- The token that starts with a character that is not a space, and the rest. -/
def lexToken (c : Char) (cs : List Char) : Except PyExc (Token × List Char) :=
  if c = '"' then
    (readString cs).map fun (lexeme, rest) => (⟨some .string, lexeme⟩, rest)
  else if A.isdigit c || c = '.' then
    let (lexeme, found, rest) := readNumber A (c = '.') cs
    .ok (⟨some (if found then .unsignedfloat else .unsignedint), c :: lexeme⟩, rest)
  else if A.isalpha c then .ok (lexName A c cs)
  else
    match smalltokens.lookup [c] with
    | some category => .ok (lexSymbol c category cs)
    | none => .error (syntaxError "Syntax error")

/-- One round of the loop of `tokenize`, after the spaces; `next` reads the rest. -/
def lexRound (next : List Char → Except PyExc (List Token)) :
    List Char → Except PyExc (List Token)
  | [] => .ok [⟨none, []⟩]
  | c :: cs => do
      let (token, rest) ← lexToken A c cs
      let tokenlist ← next rest
      pure (token :: tokenlist)

/-- The loop of `tokenize`; every round reads a character, so the length of what is to
be read bounds the number of rounds. -/
def tokenizeFor : Nat → List Char → Except PyExc (List Token)
  | 0, _ => .ok []
  | _ + 1, [] => .ok []
  | n + 1, c :: cs => lexRound A (tokenizeFor n) ((c :: cs).dropWhile A.isspace)

/-- `tokenize`. -/
def tokenize (stmt : List Char) : Except PyExc (List Token) := tokenizeFor A stmt.length stmt

/-! ### The loop, token by token -/

theorem readString_eq_ok_iff {cs lexeme rest : List Char} :
    readString cs = .ok (lexeme, rest) ↔ cs = lexeme ++ '"' :: rest ∧ '"' ∉ lexeme := by
  induction cs generalizing lexeme with
  | nil => simp [readString]
  | cons c cs ih =>
      rw [readString]
      split_ifs with hc
      · subst hc
        cases lexeme with
        | nil => simp [eq_comm]
        | cons c lexeme => simp; grind
      · have hmap : (readString cs).map (fun (lexeme, rest) => (c :: lexeme, rest)) =
            .ok (lexeme, rest) ↔ ∃ l, lexeme = c :: l ∧ readString cs = .ok (l, rest) := by
          cases readString cs with
          | error e => simp [Except.map]
          | ok r => simp [Except.map, Prod.ext_iff, eq_comm]
        rw [hmap]
        simp only [ih]
        constructor
        · rintro ⟨l, rfl, rfl, hnot⟩
          exact ⟨rfl, by simp [hnot, Ne.symm hc]⟩
        · rintro ⟨hcs, hnot⟩
          cases lexeme with
          | nil => simp [hc] at hcs
          | cons c' l =>
              simp only [List.cons_append, List.cons.injEq] at hcs
              simp only [List.mem_cons, not_or] at hnot
              exact ⟨l, by rw [hcs.1], hcs.2, hnot.2⟩

theorem readNumber_append (found : Bool) (cs : List Char) :
    (readNumber A found cs).1 ++ (readNumber A found cs).2.2 = cs := by
  induction cs generalizing found with
  | nil => rfl
  | cons c cs ih =>
      rw [readNumber]
      split_ifs
      · simp [ih found]
      · simp [ih true]
      · rfl

variable {A} {c : Char} {cs rest : List Char} {token : Token}

theorem lexName_suffix : (lexName A c cs).2 <:+ cs := by
  unfold lexName
  dsimp only
  split_ifs
  · exact List.nil_suffix
  · exact List.dropWhile_suffix _

theorem lexSymbol_suffix {category : Category} : (lexSymbol c category cs).2 <:+ cs := by
  cases cs with
  | nil => exact List.suffix_rfl
  | cons c' cs =>
      rw [lexSymbol]
      split
      · exact List.suffix_cons c' cs
      · exact List.suffix_rfl

/-- A token takes at least the character it starts with. -/
theorem lexToken_suffix (h : lexToken A c cs = .ok (token, rest)) : rest <:+ cs := by
  unfold lexToken at h
  split_ifs at h
  · cases hread : readString cs with
    | error e => simp [hread, Except.map] at h
    | ok r =>
        simp only [hread, Except.map, Except.ok.injEq, Prod.mk.injEq] at h
        obtain ⟨-, rfl⟩ := h
        obtain ⟨lexeme, rest⟩ := r
        rw [(readString_eq_ok_iff.mp hread).1]
        exact (List.suffix_cons _ _).trans (List.suffix_append _ _)
  · simp only [Except.ok.injEq, Prod.mk.injEq] at h
    exact h.2 ▸ ⟨_, readNumber_append A (c = '.') cs⟩
  · rw [Except.ok.injEq] at h
    rw [show rest = (lexName A c cs).2 from (congrArg Prod.snd h).symm]
    exact lexName_suffix
  · split at h
    next category hlookup =>
      rw [Except.ok.injEq] at h
      rw [show rest = (lexSymbol c category cs).2 from (congrArg Prod.snd h).symm]
      exact lexSymbol_suffix
    next => simp at h

theorem lexRound_congr {f g : List Char → Except PyExc (List Token)}
    (h : ∀ rest, rest.length < cs.length → f rest = g rest) :
    lexRound A f cs = lexRound A g cs := by
  cases cs with
  | nil => rfl
  | cons c cs =>
      rw [lexRound, lexRound]
      cases hlex : lexToken A c cs with
      | error e => rfl
      | ok r =>
          obtain ⟨token, rest⟩ := r
          simp only [bind, Except.bind]
          rw [h rest (Nat.lt_succ_of_le (lexToken_suffix hlex).length_le)]

/-- As many rounds as there are characters are enough. -/
theorem tokenizeFor_eq_of_le {m n : Nat} (hm : cs.length ≤ m) (hn : cs.length ≤ n) :
    tokenizeFor A m cs = tokenizeFor A n cs := by
  induction m generalizing n cs with
  | zero =>
      obtain rfl := List.length_eq_zero_iff.mp (Nat.le_zero.mp hm)
      cases n <;> rfl
  | succ m ih =>
      cases cs with
      | nil => cases n <;> rfl
      | cons c cs =>
          cases n with
          | zero => simp at hn
          | succ n =>
              have hdrop := List.length_dropWhile_le A.isspace (c :: cs)
              rw [tokenizeFor, tokenizeFor]
              refine lexRound_congr fun rest hrest => ih ?_ ?_ <;> omega

/-- `tokenize` is its loop, without a bound. -/
theorem tokenize_eq (h : cs ≠ []) :
    tokenize A cs = lexRound A (tokenize A) (cs.dropWhile A.isspace) := by
  cases cs with
  | nil => exact absurd rfl h
  | cons c cs =>
      have hdrop := List.length_dropWhile_le A.isspace (c :: cs)
      rw [tokenize, List.length_cons, tokenizeFor]
      refine lexRound_congr fun rest hrest => tokenizeFor_eq_of_le ?_ (Nat.le_refl _)
      rw [List.length_cons] at hdrop
      omega

@[simp] theorem tokenize_nil : tokenize A [] = .ok [] := rfl

/-- A token, then the tokens of the rest. -/
theorem tokenize_cons (hc : A.isspace c = false) :
    tokenize A (c :: cs) =
      (lexToken A c cs).bind fun r => (tokenize A r.2).map (r.1 :: ·) := by
  rw [tokenize_eq (List.cons_ne_nil c cs), List.dropWhile_cons, hc]
  rfl

theorem tokenize_of_lexToken (hc : A.isspace c = false)
    (h : lexToken A c cs = .ok (token, rest)) :
    tokenize A (c :: cs) = (tokenize A rest).map (token :: ·) := by
  rw [tokenize_cons hc, h]
  rfl

/-- Spaces in front of a token are skipped. -/
theorem tokenize_space (hc : A.isspace c = true) (h : cs ≠ []) :
    tokenize A (c :: cs) = tokenize A cs := by
  rw [tokenize_eq (List.cons_ne_nil c cs), tokenize_eq h, List.dropWhile_cons, hc, if_pos rfl]

end Lexer

end XeusPywrap.Basic
