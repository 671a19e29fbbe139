import Mathlib.Algebra.Ring.Nat
import XeusPywrap.Basic.Program

/-!
# XeusPywrap.Basic.Listing

Listing a program and reading the listing gives back the program: `ofCode_str`.

`Readable` is what the lexer guarantees about a token it has made: written as the
listing writes it, and followed by nothing or by a space, it is read as itself. The
lexer turns names into upper case, and only for names that upper case leaves alone
can this be repeated, hence the condition on names.
-/

namespace XeusPywrap.Basic

variable {A : Letters}

/-! ### Characters -/

theorem isspace_blank (A : Letters) : A.isspace ' ' = true := by
  rw [A.isspace_ascii ' ' (by decide)]
  decide

theorem isdigit_eq_false_of_space {c : Char} (h : A.isspace c = true) : A.isdigit c = false := by
  refine Bool.eq_false_iff.mpr fun hdigit => ?_
  simp [A.digit_not_space c hdigit] at h

theorem isalpha_eq_false_of_space {c : Char} (h : A.isspace c = true) : A.isalpha c = false := by
  refine Bool.eq_false_iff.mpr fun halpha => ?_
  simp [A.alpha_not_space c halpha] at h

theorem not_boundary_of_not_space {c : Char} (h : A.isspace c = false) :
    isLineBoundary c = false := by
  refine Bool.eq_false_iff.mpr fun hboundary => ?_
  simp [A.isspace_of_boundary c hboundary] at h

theorem not_isNameChar_blank (A : Letters) : isNameChar A ' ' = false := by
  simp [isNameChar, isalpha_eq_false_of_space (isspace_blank A),
    isdigit_eq_false_of_space (isspace_blank A)]

theorem not_space_of_isNameChar {c : Char} (h : isNameChar A c = true) : A.isspace c = false := by
  simp only [isNameChar, Bool.or_eq_true, decide_eq_true_eq] at h
  rcases h with ((halpha | hdigit) | rfl) | rfl
  · exact A.alpha_not_space c halpha
  · exact A.digit_not_space c hdigit
  · rw [A.isspace_ascii '_' (by decide)]
    decide
  · rw [A.isspace_ascii '$' (by decide)]
    decide

/-- Where a token ends: at the end of the line, or in front of a space. -/
def Stops (rest : List Char) : Prop := rest = [] ∨ ∃ cs, rest = ' ' :: cs

theorem takeWhile_isNameChar_append {cs rest : List Char} (h : ∀ c ∈ cs, isNameChar A c = true)
    (hrest : ∀ c ∈ rest.head?, isNameChar A c = false) :
    (cs ++ rest).takeWhile (isNameChar A) = cs ∧ (cs ++ rest).dropWhile (isNameChar A) = rest := by
  cases rest with
  | nil => simpa using h
  | cons c rest =>
      have hc := hrest c rfl
      rw [List.takeWhile_append_of_pos h, List.dropWhile_append_of_pos h]
      simp [hc]

theorem Stops.head? {rest : List Char} (h : Stops rest) :
    ∀ c ∈ rest.head?, isNameChar A c = false := by
  rcases h with rfl | ⟨cs, rfl⟩
  · simp
  · simpa using not_isNameChar_blank A

/-! ### Tokens that are read as themselves -/

/-- A name that upper case leaves alone. -/
structure Stable (A : Letters) (lexeme : List Char) : Prop where
  nonempty : lexeme ≠ []
  upper : lexeme.flatMap A.upper = lexeme
  head : ∀ c ∈ lexeme.head?, A.isalpha c = true
  nameChars : ∀ c ∈ lexeme, isNameChar A c = true

instance (A : Letters) (lexeme : List Char) : Decidable (Stable A lexeme) :=
  decidable_of_iff
    (lexeme ≠ [] ∧ lexeme.flatMap A.upper = lexeme ∧ lexeme.head?.all A.isalpha = true ∧
      lexeme.all (isNameChar A) = true)
    (by
      rw [Option.all_eq_true, List.all_eq_true]
      exact ⟨fun ⟨h₁, h₂, h₃, h₄⟩ => ⟨h₁, h₂, h₃, h₄⟩, fun ⟨h₁, h₂, h₃, h₄⟩ => ⟨h₁, h₂, h₃, h₄⟩⟩)

/-- A text within a line that does not end with a space. -/
structure Clean (A : Letters) (cs : List Char) : Prop where
  last : ∀ c ∈ cs.getLast?, A.isspace c = false
  inLine : ∀ c ∈ cs, isLineBoundary c = false

/-- The token, as the listing writes it, is read as itself. -/
structure Readable (A : Letters) (token : Token) : Prop where
  head : ∃ c cs, tokenText token = c :: cs ∧ A.isspace c = false ∧
    ∀ rest, (if token.category = some .rem then rest = [] else Stops rest) →
      lexToken A c (cs ++ rest) = .ok (token, rest)
  clean : Clean A (tokenText token)
  minus : token.category = some .minus → token.lexeme = ['-']
  data : token.category = some .data → token.lexeme = "DATA".toList

theorem readNumber_prefix {found found' : Bool} {cs lexeme rest rest' : List Char}
    (h : readNumber A found cs = (lexeme, found', rest')) (hrest : Stops rest) :
    readNumber A found (lexeme ++ rest) = (lexeme, found', rest) := by
  have hstop : ∀ found, readNumber A found rest = ([], found, rest) := by
    rcases hrest with rfl | ⟨cs, rfl⟩
    · exact fun _ => rfl
    · intro found
      rw [readNumber, isdigit_eq_false_of_space (isspace_blank A)]
      simp
  induction cs generalizing found lexeme with
  | nil =>
      simp only [readNumber, Prod.mk.injEq] at h
      obtain ⟨rfl, rfl, rfl⟩ := h
      exact hstop found
  | cons c cs ih =>
      rw [readNumber] at h
      split_ifs at h with hdigit hpoint
      · simp only [Prod.mk.injEq] at h
        obtain ⟨rfl, rfl, rfl⟩ := h
        rw [List.cons_append, readNumber, if_pos hdigit, ih rfl]
      · simp only [Prod.mk.injEq] at h
        obtain ⟨rfl, rfl, rfl⟩ := h
        rw [List.cons_append, readNumber, if_neg hdigit, if_pos hpoint, ih rfl]
      · simp only [Prod.mk.injEq] at h
        obtain ⟨rfl, rfl, rfl⟩ := h
        exact hstop found

theorem not_space_of_readNumber {found : Bool} {cs : List Char} :
    ∀ c ∈ (readNumber A found cs).1, A.isspace c = false := by
  induction cs generalizing found with
  | nil => simp [readNumber]
  | cons c cs ih =>
      rw [readNumber]
      split_ifs with hdigit hpoint
      · exact List.forall_mem_cons.mpr ⟨A.digit_not_space c hdigit, ih⟩
      · refine List.forall_mem_cons.mpr ⟨?_, ih⟩
        obtain ⟨rfl, -⟩ := by simpa using hpoint
        rw [A.isspace_ascii '.' (by decide)]
        decide
      · simp

/-- A text without spaces is clean. -/
theorem Clean.of_not_space {cs : List Char} (h : ∀ c ∈ cs, A.isspace c = false) : Clean A cs :=
  ⟨fun c hc => h c (List.mem_of_getLast? hc), fun c hc => not_boundary_of_not_space (h c hc)⟩

theorem Clean.suffix {cs rest : List Char} (h : Clean A cs) (hrest : rest <:+ cs) :
    Clean A rest := by
  obtain ⟨t, rfl⟩ := hrest
  refine ⟨fun c hc => h.last c ?_, fun c hc => h.inLine c (List.mem_append_right t hc)⟩
  rw [List.getLast?_append, hc]
  rfl

/-! ### The tables -/

theorem mem_of_lookup {α β : Type} [BEq α] [LawfulBEq α] {l : List (α × β)} {k : α} {v : β}
    (h : l.lookup k = some v) : (k, v) ∈ l := by
  obtain ⟨l₁, l₂, rfl, -⟩ := List.lookup_eq_some_iff.mp h
  simp

/-- The keywords are names that upper case leaves alone. -/
theorem stable_of_mem_keywords {e : List Char × Category} (h : e ∈ keywords) : Stable A e.1 := by
  have hascii : ∀ e ∈ keywords, e.1 ≠ [] ∧ (∀ c ∈ e.1.head?, c.isAlpha = true) ∧
      ∀ c ∈ e.1, c.toNat < 128 ∧ c.toUpper = c ∧ (c.isAlpha = true ∨ c = '$') := by
    have hall : ∀ e ∈ keywords, e.1 ≠ [] ∧ e.1.head?.all Char.isAlpha = true ∧
        e.1.all (fun c => c.toNat < 128 ∧ c.toUpper = c ∧ (c.isAlpha = true ∨ c = '$')) := by
      decide
    simpa only [Option.mem_def, Option.all_eq_true, List.all_eq_true, decide_eq_true_eq] using hall
  obtain ⟨hne, hhead, hall⟩ := hascii e h
  refine ⟨hne, ?_, fun c hc => ?_, fun c hc => ?_⟩
  · have hupper : ∀ c ∈ e.1, A.upper c = [c] := fun c hc => by
      rw [A.upper_ascii c (hall c hc).1, (hall c hc).2.1]
    rw [List.flatMap_congr hupper, List.flatMap_singleton']
  · rw [A.isalpha_ascii c (hall c (List.mem_of_head? hc)).1, hhead c hc]
  · obtain ⟨hlt, -, halpha | rfl⟩ := hall c hc
    · simp [isNameChar, A.isalpha_ascii c hlt, halpha]
    · simp [isNameChar]

/-! ### The four kinds of tokens -/

theorem readable_string {lexeme : List Char} (h : '"' ∉ lexeme)
    (hline : ∀ c ∈ lexeme, isLineBoundary c = false) : Readable A ⟨some .string, lexeme⟩ where
  head := by
    refine ⟨'"', lexeme ++ ['"'], rfl, ?_, fun rest _ => ?_⟩
    · rw [A.isspace_ascii '"' (by decide)]
      decide
    · have hread : readString (lexeme ++ ['"'] ++ rest) = .ok (lexeme, rest) :=
        readString_eq_ok_iff.mpr ⟨by simp, h⟩
      rw [lexToken, if_pos rfl, hread]
      rfl
  clean := by
    refine ⟨fun c hc => ?_, fun c hc => ?_⟩
    · have hlast : c ∈ (('"' :: lexeme) ++ ['"']).getLast? := hc
      rw [List.getLast?_concat] at hlast
      obtain rfl : '"' = c := Option.some.inj hlast
      rw [A.isspace_ascii '"' (by decide)]
      decide
    · have hmem : c = '"' ∨ c ∈ lexeme := by simpa [tokenText, or_comm] using hc
      rcases hmem with rfl | hmem
      · decide
      · exact hline c hmem
  minus h := by simp at h
  data h := by simp at h

theorem not_quote_of_isdigit {c : Char} (h : (A.isdigit c || c = '.') = true) : c ≠ '"' := by
  rintro rfl
  rw [A.isdigit_ascii '"' (by decide)] at h
  simp at h

theorem readable_number {c : Char} {cs lexeme rest : List Char} {found : Bool}
    (hc : (A.isdigit c || c = '.') = true) (h : readNumber A (c = '.') cs = (lexeme, found, rest)) :
    Readable A ⟨some (if found then .unsignedfloat else .unsignedint), c :: lexeme⟩ := by
  have htext : tokenText ⟨some (if found then .unsignedfloat else .unsignedint), c :: lexeme⟩ =
      c :: lexeme := by cases found <;> rfl
  have hspace : ∀ x ∈ c :: lexeme, A.isspace x = false := by
    refine List.forall_mem_cons.mpr ⟨?_, fun x hx => ?_⟩
    · rcases Bool.or_eq_true_iff.mp hc with hdigit | hpoint
      · exact A.digit_not_space c hdigit
      · obtain rfl := of_decide_eq_true hpoint
        rw [A.isspace_ascii '.' (by decide)]
        decide
    · have hmem : x ∈ (readNumber A (c = '.') cs).1 := by rw [h]; exact hx
      exact not_space_of_readNumber x hmem
  have hclean := Clean.of_not_space hspace
  refine ⟨⟨c, lexeme, htext, hspace c (List.mem_cons_self ..), fun rest hrest => ?_⟩,
    by rw [htext]; exact hclean, ?_, ?_⟩
  · have hstops : Stops rest := by cases found <;> simpa using hrest
    rw [lexToken, if_neg (not_quote_of_isdigit hc), if_pos hc, readNumber_prefix h hstops]
  · cases found <;> simp
  · cases found <;> simp

theorem lexToken_of_isalpha {c : Char} (h : A.isalpha c = true) (cs : List Char) :
    lexToken A c cs = .ok (lexName A c cs) := by
  have hquote : c ≠ '"' := by
    rintro rfl
    rw [A.isalpha_ascii '"' (by decide)] at h
    simp at h
  have hpoint : c ≠ '.' := by
    rintro rfl
    rw [A.isalpha_ascii '.' (by decide)] at h
    simp at h
  rw [lexToken, if_neg hquote, if_neg (by simp [A.alpha_not_digit c h, hpoint]), if_pos h]

theorem category_of_mem_keywords {e : List Char × Category} (h : e ∈ keywords) :
    e.2 ≠ .string ∧ e.2 ≠ .minus ∧ (e.2 = .rem → e.1 = "REM".toList) ∧
      (e.2 = .data → e.1 = "DATA".toList) := by
  have hall : ∀ e ∈ keywords, e.2 ≠ .string ∧ e.2 ≠ .minus ∧
    (e.2 = .rem → e.1 = "REM".toList) ∧ (e.2 = .data → e.1 = "DATA".toList) := by decide
  exact hall e h

/-- The same for the category of any name. -/
theorem category_of_name (lexeme : List Char) :
    (keywords.lookup lexeme).getD .name ≠ .string ∧ (keywords.lookup lexeme).getD .name ≠ .minus ∧
      ((keywords.lookup lexeme).getD .name = .rem → lexeme = "REM".toList) ∧
      ((keywords.lookup lexeme).getD .name = .data → lexeme = "DATA".toList) := by
  cases hlookup : keywords.lookup lexeme with
  | none => simp
  | some category => exact category_of_mem_keywords (mem_of_lookup hlookup)

theorem readable_name {lexeme : List Char} (h : Stable A lexeme) (hrem : lexeme ≠ "REM".toList) :
    Readable A ⟨some ((keywords.lookup lexeme).getD .name), lexeme⟩ := by
  obtain ⟨hstring, hminus, hcomment, hdata⟩ := category_of_name lexeme
  have htext : tokenText ⟨some ((keywords.lookup lexeme).getD .name), lexeme⟩ = lexeme := by
    simp [tokenText, hstring]
  have hclean := Clean.of_not_space fun c hc => not_space_of_isNameChar (h.nameChars c hc)
  refine ⟨?_, by rw [htext]; exact hclean, by simp [hminus], ?_⟩
  · cases lexeme with
    | nil => exact absurd rfl h.nonempty
    | cons c cs =>
        refine ⟨c, cs, htext, not_space_of_isNameChar (h.nameChars c (List.mem_cons_self ..)),
          fun rest hrest => ?_⟩
        have hstops : Stops rest := by
          have hne : (keywords.lookup (c :: cs)).getD .name ≠ .rem := fun heq => hrem (hcomment heq)
          simpa [hne] using hrest
        obtain ⟨htake, hdrop⟩ := takeWhile_isNameChar_append
          (fun x hx => h.nameChars x (List.mem_cons_of_mem c hx)) (hstops.head? (A := A))
        rw [lexToken_of_isalpha (h.head c rfl), lexName, htake, hdrop, h.upper, if_neg hrem]
  · intro hcategory
    exact hdata (Option.some.inj hcategory)

theorem readable_rem {rest : List Char} (hrest : Clean A rest)
    (hhead : ∀ c ∈ rest.head?, isNameChar A c = false) :
    Readable A ⟨some .rem, "REM".toList ++ rest⟩ := by
  have hstable : Stable A "REM".toList :=
    stable_of_mem_keywords (e := ("REM".toList, .rem)) (by decide)
  have hclean := Clean.of_not_space fun c hc => not_space_of_isNameChar (hstable.nameChars c hc)
  refine ⟨⟨'R', ['E', 'M'] ++ rest, rfl, ?_, ?_⟩, ⟨fun c hc => ?_, fun c hc => ?_⟩, ?_, ?_⟩
  · exact not_space_of_isNameChar (hstable.nameChars 'R' (by decide))
  · intro rest' hrest'
    obtain rfl : rest' = [] := by simpa using hrest'
    have htail : ∀ x ∈ ['E', 'M'], isNameChar A x = true :=
      fun x hx => hstable.nameChars x (List.mem_cons_of_mem 'R' hx)
    obtain ⟨htake, hdrop⟩ := takeWhile_isNameChar_append htail hhead
    rw [List.append_nil, lexToken_of_isalpha (hstable.head 'R' rfl), lexName, htake, hdrop]
    rw [show ['R', 'E', 'M'].flatMap A.upper = "REM".toList from hstable.upper]
    rfl
  · have hlast : c ∈ ("REM".toList ++ rest).getLast? := hc
    rw [List.getLast?_append, Option.mem_def, Option.or_eq_some_iff] at hlast
    rcases hlast with hlast | ⟨-, hlast⟩
    · exact hrest.last c hlast
    · exact hclean.last c hlast
  · exact (List.mem_append.mp hc).elim (hclean.inLine c) (hrest.inLine c)
  · simp
  · simp

/-- The characters with which the lexer starts a symbol. -/
structure IsSymbol (A : Letters) (c : Char) : Prop where
  quote : c ≠ '"'
  number : ¬(A.isdigit c || c = '.') = true
  name : ¬A.isalpha c = true
  space : A.isspace c = false

theorem IsSymbol.lexToken {c : Char} (h : IsSymbol A c) {category : Category}
    (hlookup : smalltokens.lookup [c] = some category) (cs : List Char) :
    lexToken A c cs = .ok (lexSymbol c category cs) := by
  rw [Basic.lexToken, if_neg h.quote, if_neg h.number, if_neg h.name, hlookup]

theorem category_of_mem_smalltokens {e : List Char × Category} (h : e ∈ smalltokens) :
    e.2 ≠ .string ∧ e.2 ≠ .rem ∧ e.2 ≠ .data ∧ (e.2 = .minus → e.1 = ['-']) ∧
      ∀ c ∈ e.1[1]?, c = '>' ∨ c = '=' := by
  have hall : ∀ e ∈ smalltokens, e.2 ≠ .string ∧ e.2 ≠ .rem ∧ e.2 ≠ .data ∧
    (e.2 = .minus → e.1 = ['-']) ∧ e.1[1]?.all (fun c => c = '>' ∨ c = '=') = true := by decide
  simpa only [Option.mem_def, Option.all_eq_true, decide_eq_true_eq] using hall e h

theorem lookup_smalltokens_blank (c : Char) : smalltokens.lookup [c, ' '] = none := by
  cases hlookup : smalltokens.lookup [c, ' '] with
  | none => rfl
  | some category =>
      have hsecond := (category_of_mem_smalltokens (mem_of_lookup hlookup)).2.2.2.2 ' ' rfl
      simp at hsecond

theorem readable_symbol {c : Char} (h : IsSymbol A c) {category : Category}
    (hlookup : smalltokens.lookup [c] = some category) (cs : List Char) :
    Readable A (lexSymbol c category cs).1 := by
  have htext : ∀ {lexeme : List Char} {category : Category},
      smalltokens.lookup lexeme = some category → tokenText ⟨some category, lexeme⟩ = lexeme :=
    fun hlookup => by
      simp [tokenText, (category_of_mem_smalltokens (mem_of_lookup hlookup)).1]
  have hsingle : Readable A ⟨some category, [c]⟩ := by
    obtain ⟨-, hrem, hdata, hminus, -⟩ := category_of_mem_smalltokens (mem_of_lookup hlookup)
    have hclean : Clean A [c] := .of_not_space (by simpa using h.space)
    refine ⟨⟨c, [], htext hlookup, h.space, fun rest hrest => ?_⟩,
      by rw [htext hlookup]; exact hclean, fun heq => hminus (Option.some.inj heq),
      by simp [hdata]⟩
    rw [List.nil_append, h.lexToken hlookup]
    have hstops : Stops rest := by simpa [hrem] using hrest
    rcases hstops with rfl | ⟨cs, rfl⟩
    · rfl
    · rw [lexSymbol, lookup_smalltokens_blank]
  cases cs with
  | nil => exact hsingle
  | cons c' cs =>
      rw [lexSymbol]
      split
      next category' hlookup' =>
        obtain ⟨-, hrem, hdata, hminus, hsecond⟩ :=
          category_of_mem_smalltokens (mem_of_lookup hlookup')
        have hspace' : A.isspace c' = false := by
          rcases hsecond c' rfl with rfl | rfl
          · rw [A.isspace_ascii '>' (by decide)]
            decide
          · rw [A.isspace_ascii '=' (by decide)]
            decide
        have hclean : Clean A [c, c'] := .of_not_space (by simp [h.space, hspace'])
        refine ⟨⟨c, [c'], htext hlookup', h.space, fun rest _ => ?_⟩,
          by rw [htext hlookup']; exact hclean, fun heq => ?_, by simp [hdata]⟩
        · rw [h.lexToken hlookup, List.singleton_append, lexSymbol, hlookup']
        · simpa using hminus (Option.some.inj heq)
      next => exact hsingle

theorem lexSymbol_ne_rem {c : Char} {category : Category}
    (hlookup : smalltokens.lookup [c] = some category) (cs : List Char) :
    (lexSymbol c category cs).1.category ≠ some .rem := by
  have hrem : ∀ {lexeme : List Char} {category : Category},
      smalltokens.lookup lexeme = some category → some category ≠ some Category.rem :=
    fun hlookup heq => (category_of_mem_smalltokens (mem_of_lookup hlookup)).2.1
      (Option.some.inj heq)
  cases cs with
  | nil => exact hrem hlookup
  | cons c' cs =>
      rw [lexSymbol]
      split
      next category' hlookup' => exact hrem hlookup'
      next => exact hrem hlookup

/-- Behind a comment nothing is left to read. -/
theorem rest_of_rem {c : Char} {cs rest : List Char} {token : Token}
    (h : lexToken A c cs = .ok (token, rest)) (hrem : token.category = some .rem) : rest = [] := by
  unfold lexToken at h
  split_ifs at h
  · obtain ⟨⟨lexeme, rest⟩, -, heq⟩ := Except.map_eq_ok_iff.mp h
    obtain ⟨rfl, -⟩ := Prod.mk.inj heq
    simp at hrem
  · obtain ⟨rfl, -⟩ := Prod.mk.inj (Except.ok.inj h)
    cases hfound : (readNumber A (decide (c = '.')) cs).2.1 <;> simp [hfound] at hrem
  · rw [Except.ok.injEq, lexName] at h
    split_ifs at h with hname
    · exact (Prod.mk.inj h).2.symm
    · obtain ⟨rfl, -⟩ := Prod.mk.inj h
      exact absurd ((category_of_name _).2.2.1 (Option.some.inj hrem)) hname
  · split at h
    next category hlookup =>
      rw [show token = (lexSymbol c category cs).1 from
        (congrArg Prod.fst (Except.ok.inj h)).symm] at hrem
      exact absurd hrem (lexSymbol_ne_rem hlookup cs)
    next => simp at h

/-- **Every token the lexer makes of a clean line is read as itself.** -/
theorem lexToken_readable {c : Char} {cs rest : List Char} {token : Token}
    (hspace : A.isspace c = false) (hclean : Clean A (c :: cs))
    (h : lexToken A c cs = .ok (token, rest))
    (hname : token.category = some .name → Stable A token.lexeme) : Readable A token := by
  unfold lexToken at h
  split_ifs at h with hquote hnumber halpha
  · obtain ⟨⟨lexeme, rest⟩, hread, heq⟩ := Except.map_eq_ok_iff.mp h
    obtain ⟨rfl, -⟩ := Prod.mk.inj heq
    obtain ⟨rfl, hnot⟩ := readString_eq_ok_iff.mp hread
    refine readable_string hnot fun x hx => hclean.inLine x ?_
    exact List.mem_cons_of_mem c (List.mem_append_left _ hx)
  · obtain ⟨rfl, -⟩ := Prod.mk.inj (Except.ok.inj h)
    exact readable_number hnumber rfl
  · rw [Except.ok.injEq, lexName] at h
    split_ifs at h with hrem
    · obtain ⟨rfl, -⟩ := Prod.mk.inj h
      rw [hrem]
      have hsuffix : cs.dropWhile (isNameChar A) <:+ c :: cs :=
        (List.dropWhile_suffix _).trans (List.suffix_cons c cs)
      refine readable_rem (hclean.suffix hsuffix) fun x hx => ?_
      have hhead := List.head?_dropWhile_not (isNameChar A) cs
      rw [Option.mem_def.mp hx] at hhead
      simpa using hhead
    · obtain ⟨rfl, -⟩ := Prod.mk.inj h
      refine readable_name ?_ hrem
      cases hlookup : keywords.lookup ((c :: cs.takeWhile (isNameChar A)).flatMap A.upper) with
      | none => exact hname (by rw [hlookup]; rfl)
      | some category => exact stable_of_mem_keywords (mem_of_lookup hlookup)
  · split at h
    next category hlookup =>
      rw [show token = (lexSymbol c category cs).1 from
        (congrArg Prod.fst (Except.ok.inj h)).symm]
      exact readable_symbol ⟨hquote, hnumber, halpha, hspace⟩ hlookup cs
    next => simp at h

/-! ### Statements -/

/-- The condition on names. -/
def StableName (A : Letters) (token : Token) : Prop :=
  token.category = some .name → Stable A token.lexeme

instance (A : Letters) (token : Token) : Decidable (StableName A token) :=
  inferInstanceAs (Decidable (token.category = some .name → Stable A token.lexeme))

/-- Tokens the listing can write, but for the condition on names; a comment is the last
of them. -/
def Listable (A : Letters) : List Token → Prop
  | [] => True
  | token :: tokens =>
      (StableName A token → Readable A token) ∧ (token.category = some .rem → tokens = []) ∧
        Listable A tokens

/-- **The tokens of a clean line can be listed.** -/
theorem listable_of_tokenize {cs : List Char} {tokens : List Token} (hclean : Clean A cs)
    (h : tokenize A cs = .ok tokens) : Listable A tokens := by
  induction hn : cs.length using Nat.strongRecOn generalizing cs tokens with
  | ind n ih =>
      cases cs with
      | nil =>
          obtain rfl : [] = tokens := Except.ok.inj h
          trivial
      | cons c cs =>
          subst hn
          cases hspace : A.isspace c with
          | true =>
              have hne : cs ≠ [] := by
                rintro rfl
                simpa [hspace] using hclean.last c rfl
              rw [tokenize_space hspace hne] at h
              exact ih _ (Nat.lt_succ_self _) (hclean.suffix (List.suffix_cons c cs)) h rfl
          | false =>
              rw [tokenize_cons hspace] at h
              obtain ⟨⟨token, rest⟩, hlex, htokens⟩ := Except.bind_eq_ok_iff.mp h
              obtain ⟨tokens, hrest, rfl⟩ := Except.map_eq_ok_iff.mp htokens
              have hsuffix := lexToken_suffix hlex
              have hnext := ih _ (Nat.lt_succ_of_le hsuffix.length_le)
                (hclean.suffix (hsuffix.trans (List.suffix_cons c cs))) hrest rfl
              refine ⟨lexToken_readable hspace hclean hlex, fun heq => ?_, hnext⟩
              rw [rest_of_rem hlex heq, tokenize_nil] at hrest
              exact (Except.ok.inj hrest).symm

theorem lexToken_minus (A : Letters) (cs : List Char) :
    lexToken A '-' cs = .ok (⟨some .minus, ['-']⟩, cs) := by
  have hsymbol : IsSymbol A '-' := by
    refine ⟨by decide, ?_, ?_, ?_⟩
    · rw [A.isdigit_ascii '-' (by decide)]
      decide
    · rw [A.isalpha_ascii '-' (by decide)]
      decide
    · rw [A.isspace_ascii '-' (by decide)]
      decide
  have hlookup : smalltokens.lookup ['-'] = some .minus := rfl
  rw [hsymbol.lexToken hlookup]
  cases cs with
  | nil => rfl
  | cons c cs =>
      have hall : ∀ e ∈ smalltokens, e.1.head? = some '-' → e.1.length = 1 := by decide
      cases hlookup : smalltokens.lookup ['-', c] with
      | none => rw [lexSymbol, hlookup]
      | some category => simpa using hall _ (mem_of_lookup hlookup) rfl

theorem Clean.append {cs rest : List Char} (h : ∀ c ∈ cs, isLineBoundary c = false)
    (hrest : Clean A rest) (hne : rest ≠ []) : Clean A (cs ++ rest) := by
  refine ⟨fun c hc => hrest.last c ?_, fun c hc => ?_⟩
  · rwa [List.getLast?_append_of_ne_nil _ hne] at hc
  · exact (List.mem_append.mp hc).elim (h c) (hrest.inLine c)

theorem not_boundary_blank : isLineBoundary ' ' = false := by decide

/-- **What the listing writes for a statement is read as the statement**, up to the
space behind the last token. -/
theorem statementText_spec (before : Option Token) {tokens : List Token} (h : Listable A tokens)
    (hnames : ∀ t ∈ tokens, StableName A t) (hne : tokens ≠ []) :
    ∃ text, statementText before tokens = text ++ [' '] ∧ text ≠ [] ∧ Clean A text ∧
      tokenize A text = .ok tokens := by
  induction tokens generalizing before with
  | nil => exact absurd rfl hne
  | cons token tokens ih =>
      obtain ⟨hreadable, hrem, hrest⟩ := h
      obtain ⟨hname, hnames⟩ := List.forall_mem_cons.mp hnames
      have hreadable := hreadable hname
      obtain ⟨c, cs, htext, hspace, hlex⟩ := hreadable.head
      cases tokens with
      | nil =>
          have hunary : isUnaryMinus before token [] = false := by simp [isUnaryMinus]
          refine ⟨tokenText token, by simp [statementText, hunary], by simp [htext],
            hreadable.clean, ?_⟩
          have hlex' := hlex [] (by split_ifs <;> simp [Stops])
          rw [List.append_nil] at hlex'
          rw [htext, tokenize_of_lexToken hspace hlex']
          rfl
      | cons next tokens =>
          have hne' : token.category ≠ some .rem := fun heq => absurd (hrem heq) (by simp)
          obtain ⟨text, hstatement, htext', hclean, htokens⟩ :=
            ih (some token) hrest hnames (by simp)
          have happend {l : List Char} (hl : ∀ c ∈ l, isLineBoundary c = false) :
              Clean A (l ++ text) := hclean.append hl htext'
          cases hunary : isUnaryMinus before token (next :: tokens) with
          | true =>
              -- The sign is written in front of its number, without a space.
              have hcategory : token.category = some .minus := by
                simp only [isUnaryMinus, Bool.and_eq_true, decide_eq_true_eq] at hunary
                exact hunary.1.1
              have hminus : tokenText token = ['-'] := by
                simp [tokenText, hcategory, hreadable.minus hcategory]
              have htoken : token = ⟨some .minus, ['-']⟩ := by
                rw [← hcategory, ← hreadable.minus hcategory]
              refine ⟨['-'] ++ text, ?_, by simp, happend (by simp; decide), ?_⟩
              · rw [statementText, hunary, hminus, hstatement]
                simp
              · have hdash : A.isspace '-' = false := by
                  rw [A.isspace_ascii '-' (by decide)]
                  decide
                rw [List.singleton_append, tokenize_of_lexToken hdash (lexToken_minus A text),
                  htokens, htoken]
                rfl
          | false =>
              refine ⟨(tokenText token ++ [' ']) ++ text, ?_, by simp, happend fun x hx => ?_, ?_⟩
              · rw [statementText, hunary, hstatement]
                simp
              · rcases List.mem_append.mp hx with hx | hx
                · exact hreadable.clean.inLine x hx
                · exact List.mem_singleton.mp hx ▸ not_boundary_blank
              · have hlex' := hlex (' ' :: text) (by rw [if_neg hne']; exact .inr ⟨text, rfl⟩)
                rw [htext, List.append_assoc, List.cons_append, List.singleton_append,
                  tokenize_of_lexToken hspace hlex',
                  tokenize_space (isspace_blank A) htext', htokens]
                rfl

/-! ### Line numbers -/

section LineNumbers

variable {ds rest : List Char}

theorem isdigit_of_isDigit {c : Char} (h : c.isDigit = true) : A.isdigit c = true := by
  have hrange := toNat_of_isDigit h
  rw [A.isdigit_ascii c (by omega), h]

theorem readNumber_digits (h : ∀ c ∈ ds, c.isDigit = true) (hrest : Stops rest) :
    readNumber A false (ds ++ rest) = (ds, false, rest) := by
  have hdigits : ∀ ds : List Char, (∀ c ∈ ds, c.isDigit = true) →
      readNumber A false ds = (ds, false, []) := fun ds h => by
    induction ds with
    | nil => rfl
    | cons c ds ih =>
        obtain ⟨hc, hds⟩ := List.forall_mem_cons.mp h
        rw [readNumber, if_pos (isdigit_of_isDigit hc), ih hds]
  exact readNumber_prefix (hdigits ds h) hrest

theorem readDigits_digits (h : ∀ c ∈ ds, c.isDigit = true) :
    A.readDigits true ds = some (ds.map fun c => c.toNat - 48) := by
  induction ds with
  | nil => rfl
  | cons c ds ih =>
      obtain ⟨hc, hds⟩ := List.forall_mem_cons.mp h
      have hrange := toNat_of_isDigit hc
      rw [Letters.readDigits, A.decimal_ascii c (by omega), if_pos hc]
      simp only [ih hds]
      rfl

theorem decimalValue_digits (ds : List Char) :
    decimalValue (ds.map fun c => c.toNat - 48) = Nat.ofDigitChars 10 ds 0 := by
  rw [decimalValue, Nat.ofDigitChars_eq_foldl, List.foldl_map]
  rfl

/-- A number that fits its digits. -/
theorem decimalValue_lt {values : List Nat} (h : ∀ d ∈ values, d < 10) :
    decimalValue values < 10 ^ values.length := by
  have hfold : ∀ n : Nat,
      values.foldl (fun n d => 10 * n + d) n < (n + 1) * 10 ^ values.length := by
    induction values with
    | nil => simp
    | cons d values ih =>
        intro n
        obtain ⟨hd, hvalues⟩ := List.forall_mem_cons.mp h
        calc values.foldl (fun n d => 10 * n + d) (10 * n + d)
            < (10 * n + d + 1) * 10 ^ values.length := ih hvalues _
          _ ≤ ((n + 1) * 10) * 10 ^ values.length := Nat.mul_le_mul_right _ (by omega)
          _ = (n + 1) * 10 ^ (d :: values).length := by
              rw [List.length_cons, Nat.pow_succ, Nat.mul_assoc, Nat.mul_comm 10]
  simpa [decimalValue] using hfold 0

theorem lt_ten_of_readDigits {afterDigit : Bool} {text : List Char} {values : List Nat}
    (h : A.readDigits afterDigit text = some values) : ∀ d ∈ values, d < 10 := by
  induction text generalizing afterDigit values with
  | nil =>
      rw [Letters.readDigits] at h
      split_ifs at h
      obtain rfl := Option.some.inj h
      simp
  | cons c cs ih =>
      rw [Letters.readDigits] at h
      split at h
      next d hdecimal =>
        obtain ⟨values, hvalues, rfl⟩ := Option.map_eq_some_iff.mp h
        exact List.forall_mem_cons.mpr ⟨A.decimal_lt c d hdecimal, ih hvalues⟩
      next =>
        split_ifs at h
        exact ih h

/-- What `int` has read, `str` can write. -/
theorem printable_of_pyInt {text : List Char} {n : Int} (h : A.pyInt text = .ok n) :
    printable n = true := by
  unfold Letters.pyInt at h
  split at h
  next sign digits hsign =>
    split at h
    next => simp at h
    next values hvalues =>
      split_ifs at h with hlimit
      obtain rfl := Except.ok.inj h
      have habs : (sign * decimalValue values).natAbs = decimalValue values := by
        have hunit : sign.natAbs = 1 := by
          split at hsign <;> obtain ⟨rfl, -⟩ := Prod.mk.inj hsign <;> rfl
        rw [Int.natAbs_mul, Int.natAbs_natCast, hunit, Nat.one_mul]
      have hlt := decimalValue_lt (lt_ten_of_readDigits hvalues)
      rw [printable, habs, decide_eq_true_eq,
        Nat.length_toDigits_le_iff (by decide) (by decide)]
      exact hlt.trans_le (Nat.pow_le_pow_right (by decide) (Nat.not_lt.mp hlimit))

theorem not_space_of_isDigit {c : Char} (h : c.isDigit = true) : A.isspace c = false :=
  A.digit_not_space c (isdigit_of_isDigit h)

/-- A text that neither starts nor ends with a space is left alone by `strip`. -/
theorem stripBy_eq_self {space : Char → Bool} {text : List Char}
    (hhead : ∀ c ∈ text.head?, space c = false) (hlast : ∀ c ∈ text.getLast?, space c = false) :
    Letters.stripBy space text = text := by
  have hdrop : text.dropWhile space = text := by
    cases text with
    | nil => rfl
    | cons c cs => simp [hhead c rfl]
  rw [Letters.stripBy, hdrop, List.rdropWhile_eq_self_iff]
  intro hne
  simp [hlast _ (List.getLast?_eq_some_getLast hne)]

theorem numeral_of_nonneg {n : Int} (h : 0 ≤ n) :
    numeral n = Nat.toDigits 10 n.natAbs ∧ numeral n ≠ [] ∧ ∀ c ∈ numeral n, c.isDigit = true := by
  have heq : numeral n = Nat.toDigits 10 n.natAbs := if_neg (Int.not_lt.mpr h)
  rw [heq]
  exact ⟨rfl, Nat.toDigits_ne_nil,
    fun c hc => Nat.isDigit_of_mem_toDigits (by decide) (by decide) hc⟩

/-- **`int(str(n))`.** -/
theorem pyInt_numeral {n : Int} (h : 0 ≤ n) (hprint : printable n = true) :
    A.pyInt (numeral n) = .ok n := by
  obtain ⟨heq, hne, hdigits⟩ := numeral_of_nonneg h
  have hspace : ∀ c ∈ numeral n, A.isIntSpace c = false := fun c hc => by
    rw [Letters.isIntSpace, not_space_of_isDigit (hdigits c hc), Bool.false_and]
  have hstrip : Letters.stripBy A.isIntSpace (numeral n) = numeral n :=
    stripBy_eq_self (fun c hc => hspace c (List.mem_of_head? hc))
      (fun c hc => hspace c (List.mem_of_getLast? hc))
  have hvalues : A.readDigits false (numeral n) = some ((numeral n).map fun c => c.toNat - 48) := by
    have hread := readDigits_digits (A := A) hdigits
    cases hds : numeral n with
    | nil => exact absurd hds hne
    | cons c ds =>
        have hc := hdigits c (by simp [hds])
        have hrange := toNat_of_isDigit hc
        rw [hds, Letters.readDigits, A.decimal_ascii c (by omega), if_pos hc] at hread
        rw [Letters.readDigits, A.decimal_ascii c (by omega), if_pos hc, hread]
  have hvalue : (decimalValue ((numeral n).map fun c => c.toNat - 48) : Int) = n := by
    rw [decimalValue_digits, heq, Nat.ofDigitChars_toDigits (by decide) (by decide)]
    exact Int.natAbs_of_nonneg h
  have hlength : (numeral n).length ≤ maxStrDigits := heq ▸ of_decide_eq_true hprint
  unfold Letters.pyInt
  rw [hstrip]
  split
  next sign digits hsign =>
    have hminus : ∀ ds, numeral n ≠ '-' :: ds := fun ds hds => by
      simpa using hdigits '-' (by simp [hds])
    have hplus : ∀ ds, numeral n ≠ '+' :: ds := fun ds hds => by
      simpa using hdigits '+' (by simp [hds])
    obtain ⟨rfl, rfl⟩ : 1 = sign ∧ numeral n = digits := by
      split at hsign
      next ds hds => exact absurd hds (hminus ds)
      next ds hds => exact absurd hds (hplus ds)
      next => exact Prod.mk.inj hsign
    rw [hvalues]
    simp only [List.length_map, if_neg (Nat.not_lt.mpr hlength), Int.one_mul, hvalue]

/-- The token of a line number. -/
def numberToken (n : Int) : Token := ⟨some .unsignedint, numeral n⟩

theorem lexToken_numeral {n : Int} (h : 0 ≤ n) (hrest : Stops rest) :
    ∃ c cs, numeral n = c :: cs ∧ c.isDigit = true ∧
      lexToken A c (cs ++ rest) = .ok (numberToken n, rest) := by
  obtain ⟨-, hne, hdigits⟩ := numeral_of_nonneg h
  rw [numberToken]
  cases hds : numeral n with
  | nil => exact absurd hds hne
  | cons c cs =>
      rw [hds] at hdigits
      obtain ⟨hc, hcs⟩ := List.forall_mem_cons.mp hdigits
      have hnumber : (A.isdigit c || c = '.') = true := by simp [isdigit_of_isDigit hc]
      have hpoint : decide (c = '.') = false := by
        rw [decide_eq_false_iff_not]
        rintro rfl
        simp at hc
      refine ⟨c, cs, rfl, hc, ?_⟩
      rw [lexToken, if_neg (not_quote_of_isdigit hnumber), if_pos hnumber, hpoint,
        readNumber_digits hcs hrest]
      rfl

end LineNumbers

/-! ### Lines -/

theorem splitlinesFrom_line {cs rest line : List Char} (h : ∀ c ∈ cs, isLineBoundary c = false) :
    splitlinesFrom (cs ++ '\n' :: rest) line =
      String.ofList (line.reverse ++ cs) :: splitlinesFrom rest [] := by
  induction cs generalizing line with
  | nil => simp [splitlinesFrom, isLineBoundary]
  | cons c cs ih =>
      obtain ⟨hc, hcs⟩ := List.forall_mem_cons.mp h
      rw [List.cons_append, splitlinesFrom, if_neg (by simp [hc]), ih hcs]
      · simp
      · rintro cs' rfl
        simp [isLineBoundary] at hc

/-- Texts within lines, each ended, are the lines of the whole. -/
theorem splitlines_flatMap {lines : List (List Char)}
    (h : ∀ line ∈ lines, ∀ c ∈ line, isLineBoundary c = false) :
    (splitlines (String.ofList (lines.flatMap (· ++ ['\n'])))).map String.toList = lines := by
  rw [splitlines, String.toList_ofList]
  induction lines with
  | nil => rfl
  | cons line lines ih =>
      obtain ⟨hline, hlines⟩ := List.forall_mem_cons.mp h
      rw [List.flatMap_cons, List.append_assoc, List.singleton_append, splitlinesFrom_line hline,
        List.map_cons, ih hlines]
      simp

theorem not_boundary_of_mem_splitlinesFrom {cs line : List Char}
    (hline : ∀ c ∈ line, isLineBoundary c = false) {l : String} (hl : l ∈ splitlinesFrom cs line) :
    ∀ c ∈ l.toList, isLineBoundary c = false := by
  fun_induction splitlinesFrom cs line with
  | case1 => simp at hl
  | case2 line hne =>
      obtain rfl := List.mem_singleton.mp hl
      simpa using hline
  | case3 cs line ih =>
      rcases List.mem_cons.mp hl with rfl | hl
      · simpa using hline
      · exact ih (by simp) hl
  | case4 c cs line hne hboundary ih =>
      rcases List.mem_cons.mp hl with rfl | hl
      · simpa using hline
      · exact ih (by simp) hl
  | case5 c cs line hne hboundary ih =>
      exact ih (List.forall_mem_cons.mpr ⟨by simpa using hboundary, hline⟩) hl

theorem clean_strip {text : List Char} (h : ∀ c ∈ text, isLineBoundary c = false) :
    Clean A (A.strip text) := by
  refine ⟨fun c hc => ?_, fun c hc => h c ?_⟩
  · have hne : A.strip text ≠ [] := by
      rintro heq
      simp [heq] at hc
    have hlast := List.rdropWhile_last_not A.isspace (text.dropWhile A.isspace) hne
    rw [Option.mem_def, List.getLast?_eq_some_getLast hne, Option.some.injEq] at hc
    exact hc ▸ Bool.eq_false_iff.mpr hlast
  · have hc' := (List.rdropWhile_prefix A.isspace _).subset hc
    exact (List.dropWhile_suffix A.isspace).subset hc'

namespace Program

theorem cleanLine_eq_strip {line : List Char} (h : ∀ c ∈ line, isLineBoundary c = false) :
    cleanLine A line = A.strip line := by
  have hcr : line.filter (· ≠ '\r') = line := by
    refine List.filter_eq_self.mpr fun c hc => decide_eq_true ?_
    rintro rfl
    simpa [isLineBoundary] using h _ hc
  have hlf : line.filter (· ≠ '\n') = line := by
    refine List.filter_eq_self.mpr fun c hc => decide_eq_true ?_
    rintro rfl
    simpa [isLineBoundary] using h _ hc
  rw [cleanLine, hcr, hlf]

/-- **A line of the listing is read as the number and the statement.** -/
theorem tokenize_line {n : Int} (hn : 0 ≤ n) {tokens : List Token} (h : Listable A tokens)
    (hnames : ∀ t ∈ tokens, StableName A t) (hne : tokens ≠ []) :
    (∀ c ∈ numeral n ++ ' ' :: statementText none tokens, isLineBoundary c = false) ∧
      tokenize A (cleanLine A (numeral n ++ ' ' :: statementText none tokens)) =
        .ok (numberToken n :: tokens) := by
  obtain ⟨text, hstatement, htext, hclean, htokens⟩ := statementText_spec none h hnames hne
  obtain ⟨-, -, hdigits⟩ := numeral_of_nonneg hn
  have hblanks : ∀ c ∈ text ++ [' '], isLineBoundary c = false := fun c hc => by
    rcases List.mem_append.mp hc with hc | hc
    · exact hclean.inLine c hc
    · exact List.mem_singleton.mp hc ▸ not_boundary_blank
  have hline : ∀ c ∈ numeral n ++ ' ' :: (text ++ [' ']), isLineBoundary c = false := fun c hc => by
    rcases List.mem_append.mp hc with hc | hc
    · exact not_boundary_of_not_space (A := A) (not_space_of_isDigit (hdigits c hc))
    · rcases List.mem_cons.mp hc with rfl | hc
      · exact not_boundary_blank
      · exact hblanks c hc
  rw [hstatement]
  refine ⟨hline, ?_⟩
  have hstops : Stops (' ' :: text) := .inr ⟨text, rfl⟩
  obtain ⟨c, cs, hnumeral, hc, hlex⟩ := lexToken_numeral (A := A) hn hstops
  have hspace := not_space_of_isDigit (A := A) hc
  have hstrip : A.strip (numeral n ++ ' ' :: (text ++ [' '])) = c :: (cs ++ ' ' :: text) := by
    have hself : A.strip (c :: (cs ++ ' ' :: text)) = c :: (cs ++ ' ' :: text) := by
      refine stripBy_eq_self (by simpa using hspace) fun x hx => hclean.last x ?_
      rwa [← List.cons_append, List.getLast?_append_of_ne_nil _ (by simp),
        List.getLast?_cons, List.getLast?_eq_some_getLast htext, Option.getD_some,
        ← List.getLast?_eq_some_getLast htext] at hx
    have hdrop : ((c :: (cs ++ ' ' :: text)) ++ [' ']).dropWhile A.isspace =
        (c :: (cs ++ ' ' :: text)) ++ [' '] := by simp [hspace]
    rw [Letters.strip, Letters.stripBy, List.dropWhile_cons, hspace, if_neg (by simp)] at hself
    rw [show numeral n ++ ' ' :: (text ++ [' ']) = (c :: (cs ++ ' ' :: text)) ++ [' '] by
      simp [hnumeral], Letters.strip, Letters.stripBy, hdrop, List.rdropWhile_concat_pos _ _ _ (isspace_blank A),
      hself]
  rw [cleanLine_eq_strip hline, hstrip, tokenize_of_lexToken hspace hlex,
    tokenize_space (isspace_blank A) htext, htokens]
  rfl

end Program

end XeusPywrap.Basic
