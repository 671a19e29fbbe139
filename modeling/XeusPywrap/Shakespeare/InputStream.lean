import Mathlib.Data.List.TakeWhile
import XeusPywrap.Shakespeare.Input

/-!
# XeusPywrap.Shakespeare.InputStream

The input manager against a reader of standard input.

The reference reads the lines of the user as one text, with a newline after every
line. The text keeps apart the newlines that end a line (`Cell.terminator`) and
those that are part of one, which the reference reads alike: the manager never
sees the former. `Synced` relates a state of the manager to a position in the
text, and `agrees_iff_smooth` says for which reads the two stay together.
-/

namespace XeusPywrap

/-! ### The reference -/

/-- A character of the text: one of a line, or the newline that ends a line. -/
inductive Cell
  | char (c : Char)
  | terminator
  deriving DecidableEq, Repr

def Cell.toChar : Cell → Char
  | .char c => c
  | .terminator => '\n'

/-- What is left of a line, with the text after the line. -/
def lineText (line : List Char) (text : List Cell) : List Cell :=
  line.map .char ++ .terminator :: text

/-- The text the lines make up. -/
def textOf : List (List Char) → List Cell
  | [] => []
  | line :: lines => lineText line (textOf lines)

/-- The two reads of a play. -/
inductive Read
  | numeric
  | character
  deriving DecidableEq, Repr

def Cell.isDigit (c : Cell) : Bool := c.toChar.isDigit

/-- Drop one newline directly at the position. -/
def dropNewline : List Cell → List Cell
  | [] => []
  | c :: text => if c.toChar = '\n' then text else c :: text

/-- The value of the digits at the front of the text. -/
def digitsValue (digits : List Cell) : Nat :=
  decimalValue (digits.map fun c => c.toChar.toNat - 48)

/-- The read of the reference reader, and the rest of the text. -/
def referenceRead : Read → List Cell → Except Halt Int × List Cell
  | .character, [] => (.error .waiting, [])
  | .character, c :: text => (.ok c.toChar.toNat, text)
  | .numeric, text =>
      if (text.takeWhile Cell.isDigit).isEmpty then
        (.error (.raised (shakespeareRuntimeError "No numeric input was given.")), text)
      else
        (.ok (digitsValue (text.takeWhile Cell.isDigit)), dropNewline (text.dropWhile Cell.isDigit))

/-- The read of the input manager. -/
def Read.run (u : Unicode) : Read → Reading Int
  | .numeric => consumeNumericInput u
  | .character => consumeCharacterInput

/-- As long as text remains, the manager reads what the reference reads, and it asks
for a line only when the reference has reached the beginning of that line. -/
def Agrees (u : Unicode) : List Read → List Cell → Stdin → Prop
  | [], _, _ => True
  | r :: reads, text, s =>
      text = [] ∨
        (((r.run u).run s).1 = (referenceRead r text).1 ∧
          (((r.run u).run s).2.pending ≠ s.pending → text = textOf s.pending) ∧
          Agrees u reads (referenceRead r text).2 ((r.run u).run s).2)

/-- As long as text remains, no read begins at the end of a line, and no number is
longer than `int` accepts. -/
def Smooth : List Read → List Cell → Prop
  | [], _ => True
  | r :: reads, text =>
      text = [] ∨
        (text.head? ≠ some .terminator ∧
          (r = .numeric → (text.takeWhile Cell.isDigit).length ≤ maxStrDigits) ∧
          Smooth reads (referenceRead r text).2)

/-! ### One read of the manager -/

section Manager

variable {u : Unicode}

/-- The read of a nonempty buffer: its result and what is left. -/
def readBuffer (u : Unicode) : Read → List Char → Except Halt Int × List Char
  | .character, [] => (.ok (-1), [])
  | .character, c :: buffer => (.ok c.toNat, buffer)
  | .numeric, buffer =>
      let digits := (digitsLoop u [] buffer).1
      let rest := (digitsLoop u [] buffer).2
      if digits.isEmpty then
        (.error (.raised (shakespeareRuntimeError "No numeric input was given.")), rest)
      else
        match u.int digits with
        | .ok n => (.ok n, withoutNewline rest)
        | .error e => (.error (.raised e), rest)

theorem run_ensureInputBuffer_of_nonempty {s : Stdin} (h : s.buffer ≠ []) :
    ensureInputBuffer.run s = (.ok (), s) := by
  obtain ⟨_ | ⟨c, buffer⟩, pending⟩ := s
  · exact absurd rfl h
  · rfl

/-- With an empty buffer the manager reads as if the next line were the buffer, if
that line is not empty. -/
theorem run_ensureInputBuffer_of_line {line : List Char} {rest : List (List Char)}
    (h : line ≠ []) : ensureInputBuffer.run ⟨[], line :: rest⟩ = (.ok (), ⟨line, rest⟩) := by
  obtain _ | ⟨c, line⟩ := line
  · exact absurd rfl h
  · rfl

theorem digitsLoop_eq (u : Unicode) (numberInput buffer : List Char) :
    digitsLoop u numberInput buffer =
      (numberInput ++ buffer.takeWhile u.isdigit, buffer.dropWhile u.isdigit) := by
  induction buffer generalizing numberInput with
  | nil => simp [digitsLoop]
  | cons c buffer ih =>
      rw [digitsLoop, List.takeWhile_cons, List.dropWhile_cons]
      split
      · rw [ih, List.append_assoc, List.singleton_append]
      · rw [List.append_nil]

/-- A read once the buffer is filled. -/
theorem run_read_of_ensured {r : Read} {s s' : Stdin} (h : ensureInputBuffer.run s = (.ok (), s'))
    (hbuffer : s'.buffer ≠ []) :
    (r.run u).run s =
      ((readBuffer u r s'.buffer).1, ⟨(readBuffer u r s'.buffer).2, s'.pending⟩) := by
  obtain ⟨buffer, pending⟩ := s'
  cases r with
  | character =>
      have hensure : (exceptEOFError (do ensureInputBuffer; pure false) (pure true)).run s =
          (.ok false, ⟨buffer, pending⟩) := Exec.run_handle_ok (Exec.run_bind_ok h)
      obtain _ | ⟨c, buffer⟩ := buffer
      · exact absurd rfl hbuffer
      · exact Exec.run_bind_ok hensure
  | numeric =>
      have hensure : (exceptEOFError ensureInputBuffer
          (Exec.fail (.raised (shakespeareRuntimeError "End of file encountered.")))).run s =
          (.ok (), ⟨buffer, pending⟩) := Exec.run_handle_ok h
      have hread : (Read.numeric.run u).run s =
          (consumeDigits u >>= fun number => consumeNewlineIfPresent >>= fun _ => pure number).run
            ⟨buffer, pending⟩ := Exec.run_bind_ok hensure
      rw [hread]
      simp only [readBuffer]
      -- The digits, up to their conversion; only a number that converts drops a newline.
      have hdigits : (consumeDigits u).run ⟨buffer, pending⟩ =
          ((if (digitsLoop u [] buffer).1.isEmpty then
              .error (.raised (shakespeareRuntimeError "No numeric input was given."))
            else match u.int (digitsLoop u [] buffer).1 with
              | .ok n => .ok n
              | .error e => .error (.raised e)), ⟨(digitsLoop u [] buffer).2, pending⟩) := by
        show (if (digitsLoop u [] buffer).1.isEmpty then
            Exec.fail (.raised (shakespeareRuntimeError "No numeric input was given."))
          else match u.int (digitsLoop u [] buffer).1 with
            | .ok n => pure n
            | .error e => Exec.fail (.raised e) : Reading Int).run
              ⟨(digitsLoop u [] buffer).2, pending⟩ = _
        split
        · rfl
        · split <;> rfl
      split at hdigits
      · rename_i hempty
        rw [Exec.run_bind_error hdigits, if_pos hempty]
      · rename_i hempty
        rw [if_neg hempty]
        split at hdigits
        · rw [Exec.run_bind_ok hdigits]
          rfl
        · rw [Exec.run_bind_error hdigits]

end Manager

/-! ### One read of a line, by the manager and by the reference -/

/-- A string of ASCII characters. -/
def Ascii (cs : List Char) : Prop := ∀ c ∈ cs, c.toNat < 128

section Line

variable {u : Unicode} {b : List Char} {text : List Cell}

theorem takeWhile_isdigit_of_ascii (h : Ascii b) :
    b.takeWhile u.isdigit = b.takeWhile Char.isDigit ∧
      b.dropWhile u.isdigit = b.dropWhile Char.isDigit := by
  induction b with
  | nil => exact ⟨rfl, rfl⟩
  | cons c b ih =>
      have hc := u.isdigit_ascii c (h c (by simp))
      obtain ⟨htake, hdrop⟩ := ih fun c hc => h c (List.mem_cons_of_mem _ hc)
      rw [List.takeWhile_cons, List.takeWhile_cons, List.dropWhile_cons, List.dropWhile_cons, hc,
        htake, hdrop]
      exact ⟨rfl, rfl⟩

/-- The digits at the front of a line: the end of the line is not one of them. -/
theorem digits_of_line (b : List Char) (text : List Cell) :
    (lineText b text).takeWhile Cell.isDigit =
        (b.takeWhile Char.isDigit).map .char ∧
      (lineText b text).dropWhile Cell.isDigit =
        lineText (b.dropWhile Char.isDigit) text := by
  induction b with
  | nil => exact ⟨rfl, rfl⟩
  | cons c b ih =>
      rw [show lineText (c :: b) text = .char c :: lineText b text from rfl, List.takeWhile_cons,
        List.dropWhile_cons, List.takeWhile_cons, List.dropWhile_cons, ih.1, ih.2]
      by_cases h : c.isDigit = true <;> simp [Cell.isDigit, Cell.toChar, lineText, h]

/-- `int` of a string of ASCII digits. -/
theorem int_of_digits (u : Unicode) {digits : List Char} (hascii : Ascii digits)
    (hdigits : ∀ c ∈ digits, c.isDigit = true) :
    (digits.length ≤ maxStrDigits → u.int digits = .ok (digitsValue (digits.map .char))) ∧
      (maxStrDigits < digits.length → ∃ e, u.int digits = .error (valueError e)) := by
  have hmap : digits.map u.decimal = digits.map fun c => some (c.toNat - 48) := by
    refine List.map_congr_left fun c hc => ?_
    rw [u.decimal_ascii c (hascii c hc), if_pos (hdigits c hc)]
  have htake : (digits.map u.decimal).takeWhile Option.isSome =
      digits.map fun c => some (c.toNat - 48) := by
    rw [hmap, List.takeWhile_eq_self_iff]
    intro d hd
    obtain ⟨c, -, rfl⟩ := List.mem_map.mp hd
    rfl
  unfold Unicode.int
  simp only [htake, List.length_map, Nat.lt_irrefl, if_false, List.map_map]
  constructor
  · intro hle
    rw [if_neg (by omega)]
    simp [digitsValue, List.map_map, Function.comp_def, Cell.toChar]
  · intro hlt
    rw [if_pos hlt]
    exact ⟨_, rfl⟩

/-- The reference drops a newline where the manager does, or the end of the line. -/
theorem dropNewline_of_line (b : List Char) (text : List Cell) :
    dropNewline (lineText b text) =
        lineText (withoutNewline b) text ∨
      withoutNewline b = [] ∧ dropNewline (lineText b text) = text := by
  cases b with
  | nil => exact Or.inr ⟨rfl, rfl⟩
  | cons c b =>
      left
      by_cases h : c = '\n' <;> simp [dropNewline, withoutNewline, Cell.toChar, lineText, h]

/-- **A read of a line that has been started.** It agrees with the reference unless it
is a number that is too long, and leaves both at the same place. -/
theorem readBuffer_of_ascii (u : Unicode) (text : List Cell) (h : Ascii b) (hb : b ≠ []) {r : Read}
    (hshort : r = .numeric → (b.takeWhile Char.isDigit).length ≤ maxStrDigits) :
    (readBuffer u r b).1 = (referenceRead r (lineText b text)).1 ∧
      ((referenceRead r (lineText b text)).2 =
          lineText (readBuffer u r b).2 text ∨
        (readBuffer u r b).2 = [] ∧
          (referenceRead r (lineText b text)).2 = text) := by
  cases r with
  | character =>
      obtain _ | ⟨c, b⟩ := b
      · exact absurd rfl hb
      · exact ⟨rfl, Or.inl rfl⟩
  | numeric =>
      obtain ⟨htake, hdrop⟩ := takeWhile_isdigit_of_ascii (u := u) h
      obtain ⟨htake', hdrop'⟩ := digits_of_line b text
      simp only [readBuffer, referenceRead, digitsLoop_eq, htake, hdrop, htake', hdrop',
        List.nil_append, List.isEmpty_map]
      have hascii : Ascii (b.takeWhile Char.isDigit) :=
        fun c hc => h c ((List.takeWhile_sublist _).subset hc)
      have hdigits : ∀ c ∈ b.takeWhile Char.isDigit, c.isDigit = true :=
        fun c hc => List.mem_takeWhile_imp hc
      rw [(int_of_digits u hascii hdigits).1 (hshort rfl)]
      by_cases hempty : (b.takeWhile Char.isDigit).isEmpty = true
      · -- Neither reader moves.
        rw [if_pos hempty, if_pos hempty]
        refine ⟨rfl, Or.inl ?_⟩
        have hnil : b.takeWhile Char.isDigit = [] := List.isEmpty_iff.mp hempty
        have hself : b.dropWhile Char.isDigit = b := by
          have := List.takeWhile_append_dropWhile (p := Char.isDigit) (l := b)
          rwa [hnil, List.nil_append] at this
        rw [hself]
      · rw [if_neg hempty, if_neg hempty]
        exact ⟨rfl, dropNewline_of_line _ text⟩

/-- A number that is too long for `int`. -/
theorem readBuffer_of_long (h : Ascii b)
    (hlong : maxStrDigits < (b.takeWhile Char.isDigit).length) :
    (readBuffer u .numeric b).1 ≠
      (referenceRead .numeric (lineText b text)).1 := by
  obtain ⟨htake, -⟩ := takeWhile_isdigit_of_ascii (u := u) h
  obtain ⟨htake', -⟩ := digits_of_line b text
  have hascii : Ascii (b.takeWhile Char.isDigit) :=
    fun c hc => h c ((List.takeWhile_sublist _).subset hc)
  have hdigits : ∀ c ∈ b.takeWhile Char.isDigit, c.isDigit = true :=
    fun c hc => List.mem_takeWhile_imp hc
  obtain ⟨e, he⟩ := (int_of_digits u hascii hdigits).2 hlong
  have hempty : ¬ (b.takeWhile Char.isDigit).isEmpty = true := by
    rw [List.isEmpty_iff]
    intro hnil
    rw [hnil] at hlong
    simp at hlong
  simp only [readBuffer, referenceRead, digitsLoop_eq, htake, htake', List.nil_append,
    List.isEmpty_map]
  rw [he, if_neg hempty, if_neg hempty]
  simp

end Line

/-! ### The manager and the reference side by side -/

/-- The manager stands where the reference stands: within a line or at its end, or
before the next line. -/
def Synced (text : List Cell) (s : Stdin) : Prop :=
  text = lineText s.buffer (textOf s.pending) ∨ s.buffer = [] ∧ text = textOf s.pending

/-- Everything the user has entered or will enter is ASCII. -/
structure Stdin.Ascii (s : Stdin) : Prop where
  buffer : XeusPywrap.Ascii s.buffer
  pending : ∀ line ∈ s.pending, XeusPywrap.Ascii line

section Steps

variable {u : Unicode} {text : List Cell} {s : Stdin} {r : Read}

theorem lineText_ne (line : List Char) (text : List Cell) : lineText line text ≠ text := by
  intro h
  have := congrArg List.length h
  simp only [lineText, List.length_append, List.length_cons] at this
  omega

/-- In front of a character of a line, the manager gets that line into its buffer. -/
theorem ensured_of_synced (hs : Synced text s) (ha : s.Ascii) (htext : text ≠ [])
    (hhead : text.head? ≠ some .terminator) :
    ∃ s', ensureInputBuffer.run s = (.ok (), s') ∧ s'.buffer ≠ [] ∧ s'.Ascii ∧
      text = lineText s'.buffer (textOf s'.pending) ∧
      (s'.pending ≠ s.pending → text = textOf s.pending) := by
  obtain ⟨buffer, pending⟩ := s
  rcases hs with htext' | ⟨hbuffer, htext'⟩
  · have hbuffer : buffer ≠ [] := by
      rintro rfl
      exact hhead (by rw [htext']; rfl)
    exact ⟨_, run_ensureInputBuffer_of_nonempty hbuffer, hbuffer, ha, htext',
      fun hne => absurd rfl hne⟩
  · simp only at hbuffer htext'
    subst hbuffer
    cases pending with
    | nil => exact absurd htext' htext
    | cons line rest =>
        have hline : line ≠ [] := by
          rintro rfl
          exact hhead (by rw [htext']; rfl)
        refine ⟨⟨line, rest⟩, run_ensureInputBuffer_of_line hline, hline, ⟨?_, ?_⟩, htext',
          fun _ => htext'⟩
        · exact ha.pending line (by simp)
        · exact fun l hl => ha.pending l (List.mem_cons_of_mem _ hl)

theorem ascii_readBuffer (h : Ascii s.buffer) : Ascii (readBuffer u r s.buffer).2 := by
  have hdrop : Ascii (s.buffer.dropWhile u.isdigit) :=
    fun c hc => h c ((List.dropWhile_sublist _).subset hc)
  cases r with
  | character =>
      cases hb : s.buffer with
      | nil => exact fun c hc => by simp [readBuffer] at hc
      | cons c b => exact fun c' hc' => h c' (hb ▸ List.mem_cons_of_mem _ hc')
  | numeric =>
      simp only [readBuffer, digitsLoop_eq]
      split
      · exact hdrop
      · split
        · cases hd : s.buffer.dropWhile u.isdigit with
          | nil => exact fun c hc => by simp [withoutNewline] at hc
          | cons c b =>
              rw [hd] at hdrop
              simp only [withoutNewline]
              split
              · exact fun c' hc' => hdrop c' (List.mem_cons_of_mem _ hc')
              · exact hdrop
        · exact hdrop

/-- **A read that begins within a line** keeps the manager and the reference together. -/
theorem read_of_smooth (hs : Synced text s) (ha : s.Ascii) (htext : text ≠ [])
    (hhead : text.head? ≠ some .terminator)
    (hshort : r = .numeric → (text.takeWhile Cell.isDigit).length ≤ maxStrDigits) :
    ((r.run u).run s).1 = (referenceRead r text).1 ∧
      (((r.run u).run s).2.pending ≠ s.pending → text = textOf s.pending) ∧
      Synced (referenceRead r text).2 ((r.run u).run s).2 ∧ ((r.run u).run s).2.Ascii := by
  obtain ⟨s', hensure, hbuffer, ha', htext', hrequest⟩ := ensured_of_synced hs ha htext hhead
  rw [run_read_of_ensured hensure hbuffer]
  subst htext'
  rw [(digits_of_line s'.buffer _).1, List.length_map] at hshort
  obtain ⟨hresult, hrest⟩ := readBuffer_of_ascii u (textOf s'.pending) ha'.buffer hbuffer
    hshort
  exact ⟨hresult, hrequest, hrest, ⟨ascii_readBuffer ha'.buffer, ha'.pending⟩⟩

/-- A number that is too long does not get through. -/
theorem read_of_long (hs : Synced text s) (ha : s.Ascii) (htext : text ≠ [])
    (hhead : text.head? ≠ some .terminator)
    (hlong : maxStrDigits < (text.takeWhile Cell.isDigit).length) :
    ((Read.numeric.run u).run s).1 ≠ (referenceRead .numeric text).1 := by
  obtain ⟨s', hensure, hbuffer, ha', htext', -⟩ := ensured_of_synced hs ha htext hhead
  rw [run_read_of_ensured hensure hbuffer]
  subst htext'
  rw [(digits_of_line s'.buffer _).1, List.length_map] at hlong
  exact readBuffer_of_long ha'.buffer hlong

theorem referenceRead_terminator (r : Read) (text : List Cell) :
    (referenceRead r (.terminator :: text)).1 =
      match r with
      | .character => .ok 10
      | .numeric => .error (.raised (shakespeareRuntimeError "No numeric input was given.")) := by
  cases r <;> rfl

/-- With no line to come the manager waits. -/
theorem run_read_of_nothing (u : Unicode) (r : Read) :
    (r.run u).run ⟨[], []⟩ = (.error .waiting, ⟨[], []⟩) := by
  cases r <;> rfl

/-- An empty line is the end of the input to the manager. -/
theorem run_read_of_empty_line (u : Unicode) (r : Read) (rest : List (List Char)) :
    (r.run u).run ⟨[], [] :: rest⟩ =
      (match r with
        | .character => .ok (-1)
        | .numeric => .error (.raised (shakespeareRuntimeError "End of file encountered.")),
        ⟨[], rest⟩) := by
  cases r <;> rfl

/-- **A read that begins at the end of a line** fails: the manager knows nothing of
the newline there, and takes an empty line for the end of the input. -/
theorem read_of_terminator (hs : Synced text s) (hhead : text.head? = some .terminator) :
    ¬ (((r.run u).run s).1 = (referenceRead r text).1 ∧
      (((r.run u).run s).2.pending ≠ s.pending → text = textOf s.pending)) := by
  rintro ⟨hresult, hrequest⟩
  obtain ⟨text, rfl⟩ : ∃ rest, text = .terminator :: rest := List.head?_eq_some_iff.mp hhead
  rw [referenceRead_terminator] at hresult
  obtain ⟨buffer, pending⟩ := s
  rcases hs with htext | ⟨hbuffer, htext⟩
  · obtain _ | ⟨c, buffer⟩ := buffer
    · obtain _ | ⟨line, rest⟩ := pending
      · -- Nothing is left to read but the newline, and the manager waits for a line.
        rw [run_read_of_nothing] at hresult
        cases r <;> simp at hresult
      · -- The manager asks for the next line, before the newline has been read.
        have hpending : ((r.run u).run ⟨[], line :: rest⟩).2.pending = rest := by
          obtain _ | ⟨c, line⟩ := line
          · rw [run_read_of_empty_line]
          · rw [run_read_of_ensured (run_ensureInputBuffer_of_line (by simp)) (by simp)]
        have hsame := hrequest (by rw [hpending]; simp)
        rw [htext] at hsame
        exact lineText_ne _ _ hsame
    · simp [lineText] at htext
  · simp only at hbuffer htext
    subst hbuffer
    obtain _ | ⟨_ | ⟨c, line⟩, rest⟩ := pending
    · simp [textOf] at htext
    -- The next line is empty: end of file to the manager, a newline to the reference.
    · rw [run_read_of_empty_line] at hresult
      cases r <;> simp [shakespeareRuntimeError] at hresult
    · simp [textOf, lineText] at htext

end Steps

/-- **When the manager reads what standard input would have given**: exactly when no
read begins at the end of a line, that is where the text goes on with the newline of
a line, empty or not, and no number has more digits than `int` accepts. -/
theorem agrees_iff_smooth_of_synced (u : Unicode) (reads : List Read) {text : List Cell}
    {s : Stdin} (hs : Synced text s) (ha : s.Ascii) :
    Agrees u reads text s ↔ Smooth reads text := by
  induction reads generalizing text s with
  | nil => exact Iff.rfl
  | cons r reads ih =>
      rw [Agrees, Smooth]
      by_cases htext : text = []
      · simp [htext]
      · rw [or_iff_right htext, or_iff_right htext]
        by_cases hhead : text.head? = some .terminator
        · constructor
          · exact fun h => absurd ⟨h.1, h.2.1⟩ (read_of_terminator hs hhead)
          · exact fun h => absurd hhead h.1
        · by_cases hshort : r = .numeric → (text.takeWhile Cell.isDigit).length ≤ maxStrDigits
          · obtain ⟨hresult, hrequest, hs', ha'⟩ := read_of_smooth (u := u) hs ha htext hhead hshort
            constructor
            · exact fun h => ⟨hhead, hshort, (ih hs' ha').mp h.2.2⟩
            · exact fun h => ⟨hresult, hrequest, (ih hs' ha').mpr h.2.2⟩
          -- The number is too long, so the run is neither smooth nor in agreement.
          · constructor
            · rw [Classical.not_imp, Nat.not_le] at hshort
              obtain ⟨rfl, hlong⟩ := hshort
              exact fun h => absurd h.1 (read_of_long hs ha htext hhead hlong)
            · exact fun h => absurd h.2.1 hshort

theorem agrees_iff_smooth (u : Unicode) (reads : List Read) {lines : List (List Char)}
    (hascii : ∀ line ∈ lines, Ascii line) :
    Agrees u reads (textOf lines) (Stdin.initial lines) ↔ Smooth reads (textOf lines) :=
  agrees_iff_smooth_of_synced u reads (Or.inr ⟨rfl, rfl⟩)
    ⟨fun c hc => by simp [Stdin.initial] at hc, hascii⟩

/-- Two lines, read as a number each and then to their end. -/
theorem agrees_iff_smooth_of_numbers :
    Agrees Unicode.ascii [.numeric, .numeric] (textOf [['4', '2'], ['7']])
        (Stdin.initial [['4', '2'], ['7']]) ↔
      Smooth [.numeric, .numeric] (textOf [['4', '2'], ['7']]) :=
  agrees_iff_smooth Unicode.ascii [.numeric, .numeric] (by simp [Ascii])

/-- Three characters of "ab", "AB": the third is the newline between the lines, and
the manager returns the "A" after it. -/
theorem not_agrees_of_third_character :
    ¬ Agrees Unicode.ascii [.character, .character, .character]
      (textOf [['a', 'b'], ['A', 'B']]) (Stdin.initial [['a', 'b'], ['A', 'B']]) := by
  intro h
  rcases h with h | ⟨-, -, h⟩
  · exact absurd h (by decide)
  rcases h with h | ⟨-, -, h⟩
  · exact absurd h (by decide)
  rcases h with h | ⟨h, -, -⟩
  · exact absurd h (by decide)
  exact absurd h (by decide)

end XeusPywrap
