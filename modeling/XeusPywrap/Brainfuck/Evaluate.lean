import Mathlib.Logic.Function.Basic
import XeusPywrap.Common.Brackets
import XeusPywrap.Common.Loop
import XeusPywrap.Text

/-!
# XeusPywrap.Brainfuck.Evaluate

`xeus_brainfuck/brainfuck/brainfuck.py`: a program is cleaned of everything that is
not a command, its brackets are matched in advance (`buildbracemap`), and then one
loop executes the command at `codeptr` until it has run off the end.

`bracemap_spec` says what the map contains: position `j` for position `i` exactly
when the two hold a bracket and its partner.
-/

namespace XeusPywrap.Brainfuck

/-- `cleanup`. -/
def cleanup (code : List Char) : List Char :=
  code.filter fun x => x ∈ ['.', ',', '[', ']', '<', '>', '+', '-']

def popFromEmptyList : PyExc := ⟨.exception, "IndexError", "pop from empty list"⟩

def listIndexError : PyExc := ⟨.exception, "IndexError", "list index out of range"⟩

def stringIndexError : PyExc := ⟨.exception, "IndexError", "string index out of range"⟩

/-- `bracemap[position]` without an entry. -/
def keyError (position : Nat) : PyExc := ⟨.exception, "KeyError", toString position⟩

/-! ### The map of brackets -/

/-- The loop of `buildbracemap` from a position on. -/
def buildFrom : List Char → Nat → List Nat → (Nat → Option Nat) → Except PyExc (Nat → Option Nat)
  | [], _, _, bracemap => .ok bracemap
  | command :: code, position, tempBracestack, bracemap =>
      let tempBracestack :=
        if command = '[' then position :: tempBracestack else tempBracestack
      if command = ']' then
        match tempBracestack with
        | [] => .error popFromEmptyList
        | start :: tempBracestack =>
            buildFrom code (position + 1) tempBracestack
              (Function.update (Function.update bracemap start (some position))
                position (some start))
      else buildFrom code (position + 1) tempBracestack bracemap

/-- `buildbracemap`. -/
def buildbracemap (code : List Char) : Except PyExc (Nat → Option Nat) :=
  buildFrom code 0 [] fun _ => none

/-! ### The loop -/

/-- What the loop of `evaluate` changes, and the texts written to `sys.stdout`. -/
structure Evaluation where
  cells : List Nat
  codeptr : Nat
  cellptr : Nat
  published : List Text

def Evaluation.initial : Evaluation := ⟨[0], 0, 0, []⟩

/-- The code of a run. -/
abbrev Evaluating := Exec Evaluation PyExc

/-- `sys.stdout.write(text)`: `configure` made it call `publish_stdout`, which encodes
the text as UTF-8. -/
def write (lib : Libraries) (text : Text) : Evaluating Unit :=
  if text.any CodePoint.isSurrogate then Exec.fail lib.typeError
  else Exec.update fun s => { s with published := s.published ++ [text] }

/-- `cells[cellptr]`. -/
def readCell : Evaluating Nat := do
  let s ← Exec.get
  match s.cells[s.cellptr]? with
  | some cell => pure cell
  | none => Exec.fail listIndexError

/-- `cells[cellptr] = cell`, after the cell has been read. -/
def writeCell (cell : Nat) : Evaluating Unit :=
  Exec.update fun s => { s with cells := s.cells.set s.cellptr cell }

/-- `codeptr = bracemap[codeptr]`. -/
def jump (bracemap : Nat → Option Nat) : Evaluating Unit := do
  let s ← Exec.get
  match bracemap s.codeptr with
  | some position => Exec.update fun s => { s with codeptr := position }
  | none => Exec.fail (keyError s.codeptr)

/-- `sys.stdout.write(chr(cell))`. -/
def writeChr (lib : Libraries) (cell : Int) : Evaluating Unit :=
  match pyChr cell with
  | .ok c => write lib [c]
  | .error e => Exec.fail e

/-- The commands of the loop; `,` and everything else does nothing. -/
def perform (lib : Libraries) (bracemap : Nat → Option Nat) : Char → Evaluating Unit
  | '>' => Exec.update fun s =>
      { s with
        cellptr := s.cellptr + 1
        cells := if s.cellptr + 1 = s.cells.length then s.cells ++ [0] else s.cells }
  | '<' => Exec.update fun s =>
      { s with cellptr := if s.cellptr ≤ 0 then 0 else s.cellptr - 1 }
  | '+' => do
      let cell ← readCell
      writeCell (if cell < 255 then cell + 1 else 0)
  | '-' => do
      let cell ← readCell
      writeCell (if 0 < cell then cell - 1 else 255)
  | '[' => do
      let cell ← readCell
      if cell = 0 then jump bracemap else pure ()
  | ']' => do
      let cell ← readCell
      if cell ≠ 0 then jump bracemap else pure ()
  | '.' => do
      let cell ← readCell
      writeChr lib cell
  | _ => pure ()

/-- `codeptr += 1`. -/
def advance : Evaluating Unit := Exec.update fun s => { s with codeptr := s.codeptr + 1 }

/-- The body of the loop of `evaluate`. -/
def evaluateBody (lib : Libraries) (code : List Char) (bracemap : Nat → Option Nat) :
    Evaluating Unit := do
  let s ← Exec.get
  match code[s.codeptr]? with
  | some command => do
      perform lib bracemap command
      advance
  | none => Exec.fail stringIndexError

/-- The loop of `evaluate`. -/
def evaluateLoop (lib : Libraries) (code : List Char) (bracemap : Nat → Option Nat) :
    WhileLoop Evaluation PyExc :=
  ⟨fun s => code.length ≤ s.codeptr, evaluateBody lib code bracemap⟩

/-- `evaluate`, cut off after `n` commands. -/
def evaluate (lib : Libraries) (text : String) (n : Nat) :
    Option (Except PyExc Unit) × Evaluation :=
  let code := cleanup text.toList
  match buildbracemap code with
  | .error e => (some (.error e), .initial)
  | .ok bracemap => (evaluateLoop lib code bracemap).runFor n .initial

/-! ### What the map contains -/

/-- The brackets of Brainfuck, on commands with their positions. -/
def kind (symbol : Char × Nat) : BracketKind :=
  match symbol.1 with
  | '[' => .opening
  | ']' => .closing
  | _ => .plain

theorem kind_eq_opening {symbol : Char × Nat} : kind symbol = .opening ↔ symbol.1 = '[' := by
  unfold kind
  split <;> simp_all

theorem kind_eq_closing {symbol : Char × Nat} : kind symbol = .closing ↔ symbol.1 = ']' := by
  unfold kind
  split <;> simp_all

theorem kind_eq_plain {symbol : Char × Nat} :
    kind symbol = .plain ↔ symbol.1 ≠ '[' ∧ symbol.1 ≠ ']' := by
  unfold kind
  split <;> simp_all

/-- The map after the partners in a list have been entered. -/
def record (bracemap : Nat → Option Nat) :
    List ((Char × Nat) × (Char × Nat)) → Nat → Option Nat
  | [] => bracemap
  | (o, c) :: ps =>
      record (Function.update (Function.update bracemap o.2 (some c.2)) c.2 (some o.2)) ps

/-- `buildbracemap` is one pass with a stack, on positions. -/
theorem buildFrom_eq (code : List Char) (position : Nat) (stack : List (Char × Nat))
    (bracemap : Nat → Option Nat) :
    buildFrom code position (stack.map Prod.snd) bracemap =
      match matchFrom kind stack (code.zipIdx position) with
      | .ok (ps, _) => .ok (record bracemap ps)
      | .error _ => .error popFromEmptyList := by
  induction code generalizing position stack bracemap with
  | nil => rfl
  | cons command code ih =>
      rw [List.zipIdx_cons, buildFrom]
      by_cases ho : command = '['
      · have hk : kind (command, position) = .opening := kind_eq_opening.mpr ho
        have hne : command ≠ ']' := by simp [ho]
        rw [matchFrom_opening hk]
        simp only [if_pos ho, if_neg hne]
        exact ih (position + 1) ((command, position) :: stack) bracemap
      by_cases hc : command = ']'
      · have hk : kind (command, position) = .closing := kind_eq_closing.mpr hc
        simp only [if_neg ho, if_pos hc]
        cases stack with
        | nil => rw [matchFrom_unopened hk]; rfl
        | cons o stack =>
            rw [matchFrom_closing hk]
            simp only [List.map_cons]
            rw [ih (position + 1) stack]
            cases matchFrom kind stack (code.zipIdx (position + 1)) <;> rfl
      · have hk : kind (command, position) = .plain := kind_eq_plain.mpr ⟨ho, hc⟩
        rw [matchFrom_plain hk]
        simp only [if_neg ho, if_neg hc]
        exact ih (position + 1) stack bracemap

theorem buildbracemap_eq (code : List Char) :
    buildbracemap code =
      match matchFrom kind [] code.zipIdx with
      | .ok (ps, _) => .ok (record (fun _ => none) ps)
      | .error _ => .error popFromEmptyList :=
  buildFrom_eq code 0 [] fun _ => none

section Record

variable {bracemap : Nat → Option Nat} {ps : List ((Char × Nat) × (Char × Nat))}

/-- The positions of the brackets in a list of pairs. -/
abbrev positions (ps : List ((Char × Nat) × (Char × Nat))) : List Nat :=
  (Forest.symbols ps).map Prod.snd

theorem record_of_notMem {i : Nat} (h : i ∉ positions ps) : record bracemap ps i = bracemap i := by
  induction ps generalizing bracemap with
  | nil => rfl
  | cons p ps ih =>
      simp only [positions, Forest.symbols_cons, List.map_cons, List.mem_cons, not_or] at h
      rw [record, ih h.2.2, Function.update_of_ne h.2.1, Function.update_of_ne h.1]

/-- No position is entered twice, so every pair can be looked up afterwards. -/
theorem record_of_mem {o c : Char × Nat} (hnodup : (positions ps).Nodup) (h : (o, c) ∈ ps) :
    record bracemap ps o.2 = some c.2 ∧ record bracemap ps c.2 = some o.2 := by
  induction ps generalizing bracemap with
  | nil => simp at h
  | cons p ps ih =>
      simp only [positions, Forest.symbols_cons, List.map_cons, List.nodup_cons, List.mem_cons,
        not_or] at hnodup
      obtain ⟨⟨hne, ho⟩, hc, hrest⟩ := hnodup
      rcases List.mem_cons.mp h with rfl | h
      · rw [record, record_of_notMem ho, record_of_notMem hc]
        simp [Function.update_of_ne hne]
      · exact ih hrest h

/-- The entries of the map are the pairs, looked up from either side. -/
theorem record_eq_some_iff (hnodup : (positions ps).Nodup) (i j : Nat) :
    record (fun _ => none) ps i = some j ↔
      ∃ p ∈ ps, (p.1.2 = i ∧ p.2.2 = j) ∨ (p.2.2 = i ∧ p.1.2 = j) := by
  constructor
  · intro h
    have hmem : i ∈ positions ps := by
      by_contra hnot
      rw [record_of_notMem hnot] at h
      exact absurd h (by simp)
    simp only [positions, Forest.symbols, List.map_flatMap, List.map_cons, List.map_nil,
      List.mem_flatMap, List.mem_cons, List.not_mem_nil, or_false] at hmem
    obtain ⟨p, hp, rfl | rfl⟩ := hmem
    · exact ⟨p, hp, .inl ⟨rfl, by simpa [(record_of_mem hnodup hp).1] using h⟩⟩
    · exact ⟨p, hp, .inr ⟨rfl, by simpa [(record_of_mem hnodup hp).2] using h⟩⟩
  · rintro ⟨p, hp, ⟨rfl, rfl⟩ | ⟨rfl, rfl⟩⟩
    · exact (record_of_mem hnodup hp).1
    · exact (record_of_mem hnodup hp).2

end Record

/-- A list of symbols that occur in a text only once has different positions. -/
theorem nodup_positions {code : List Char} {symbols : List (Char × Nat)}
    (h : symbols.Subperm code.zipIdx) : (symbols.map Prod.snd).Nodup := by
  have hall : (code.zipIdx.map Prod.snd).Nodup := by
    rw [List.zipIdx_map_snd]
    exact List.nodup_range'
  obtain ⟨l, hperm, hsub⟩ := h
  exact ((hperm.map Prod.snd).nodup_iff).mp (hall.sublist (hsub.map Prod.snd))

/-- The pairs of a text, when every closing bracket has a partner. -/
theorem buildbracemap_ok_iff {code : List Char} {bracemap : Nat → Option Nat} :
    buildbracemap code = .ok bracemap ↔
      (decompose kind code.zipIdx).unopened = [] ∧
        bracemap = record (fun _ => none) (decompose kind code.zipIdx).pairs := by
  rw [buildbracemap_eq, matchFrom_decompose]
  cases (decompose kind code.zipIdx).unopened with
  | nil => simp [eq_comm]
  | cons s rest => simp

/-- The brackets at two positions of a program are partners: what stands between them
is well bracketed. -/
def Partners (code : List Char) (i j : Nat) : Prop :=
  Forest.Enclose kind code.zipIdx ('[', i) (']', j)

theorem mem_pairs_decompose_iff {code : List Char} {o c : Char × Nat}
    (h : (decompose kind code.zipIdx).unopened = []) :
    (o, c) ∈ (decompose kind code.zipIdx).pairs ↔ Forest.Enclose kind code.zipIdx o c := by
  have hmatch := matchFrom_decompose kind code.zipIdx
  rw [h] at hmatch
  exact mem_pairs_iff hmatch

theorem buildbracemap_fails_iff (code : List Char) :
    (∃ e, buildbracemap code = .error e) ↔
      ∃ n, (code.take n).count '[' < (code.take n).count ']' := by
  have hcount : ∀ (n : Nat) (b : BracketKind) (c : Char), (∀ s, kind s = b ↔ s.1 = c) →
      (code.zipIdx.take n).countP (kind · = b) = (code.take n).count c := by
    intro n b c hb
    have hmap : (code.zipIdx.take n).map Prod.fst = code.take n := by
      rw [List.map_take, List.zipIdx_map_fst]
    rw [← hmap, List.count, List.countP_map]
    exact List.countP_congr fun s _ => by simp [hb s]
  have hmatch := matchFrom_error_iff kind [] code.zipIdx
  simp only [List.length_nil, Nat.zero_add, hcount _ _ _ fun _ => kind_eq_opening,
    hcount _ _ _ fun _ => kind_eq_closing] at hmatch
  rw [← hmatch, buildbracemap_eq]
  cases matchFrom kind [] code.zipIdx <;> simp

theorem buildbracemap_error {code : List Char} {e : PyExc} (h : buildbracemap code = .error e) :
    e = popFromEmptyList := by
  rw [buildbracemap_eq] at h
  cases hmatch : matchFrom kind [] code.zipIdx with
  | ok r => simp [hmatch] at h
  | error a => simpa [hmatch, eq_comm] using h

/-- **What `buildbracemap` computes.** It fails exactly when at some point more
brackets have been closed than opened; otherwise its entries lead from every bracket
that has a partner to this partner, and there are no others. -/
theorem buildbracemap_spec (code : List Char) :
    match buildbracemap code with
    | .ok bracemap =>
        (∀ n, (code.take n).count ']' ≤ (code.take n).count '[') ∧
          ∀ i j, bracemap i = some j ↔ Partners code i j ∨ Partners code j i
    | .error e =>
        e = popFromEmptyList ∧ ∃ n, (code.take n).count '[' < (code.take n).count ']' := by
  have hfails := buildbracemap_fails_iff code
  cases hbuild : buildbracemap code with
  | error e => exact ⟨buildbracemap_error hbuild, hfails.mp ⟨e, hbuild⟩⟩
  | ok bracemap =>
      obtain ⟨hopen, rfl⟩ := buildbracemap_ok_iff.mp hbuild
      refine ⟨fun n => ?_, fun i j => ?_⟩
      · by_contra hlt
        obtain ⟨e, he⟩ := hfails.mpr ⟨n, Nat.lt_of_not_le hlt⟩
        simp [hbuild] at he
      · have hsub := (Decomposition.symbols_append_opened_subperm hopen)
        rw [flatten_decompose] at hsub
        have hnodup := nodup_positions ((List.sublist_append_left _ _).subperm.trans hsub)
        rw [record_eq_some_iff hnodup]
        constructor
        · rintro ⟨⟨⟨a, i⟩, ⟨b, j⟩⟩, hp, hij⟩
          have henc := (mem_pairs_decompose_iff hopen).mp hp
          obtain rfl : a = '[' := kind_eq_opening.mp henc.1
          obtain rfl : b = ']' := kind_eq_closing.mp henc.2.1
          rcases hij with ⟨rfl, rfl⟩ | ⟨rfl, rfl⟩
          · exact .inl henc
          · exact .inr henc
        · rintro (h | h)
          · exact ⟨_, (mem_pairs_decompose_iff hopen).mpr h, .inl ⟨rfl, rfl⟩⟩
          · exact ⟨_, (mem_pairs_decompose_iff hopen).mpr h, .inr ⟨rfl, rfl⟩⟩

end XeusPywrap.Brainfuck
