import XeusPywrap.Brainfuck.Evaluate
import XeusPywrap.Brainfuck.Tape

/-!
# XeusPywrap.Brainfuck.Refinement

`evaluate` with its program counter, its table of brackets and its growing list of
cells computes the meaning of the program on an unbounded tape: `evaluate_means`.

An evaluation `Represents` a tape when its cells are the beginning of the tape and
the rest of the tape is zero. One command keeps this (`step_leaf`), and at the two
brackets of a block the loop does the same (`run_closing_eq`), so a whole block can be
followed from its opening, as often as it is repeated.
-/

namespace XeusPywrap.Brainfuck

/-- `chr` of a byte. -/
def characterOf (b : BitVec 8) : CodePoint := ⟨b.toNat, Nat.lt_trans b.isLt (by decide)⟩

/-- The text that writing a byte publishes. -/
def textOf (b : BitVec 8) : Text := [characterOf b]

theorem not_isSurrogate_characterOf (b : BitVec 8) : (characterOf b).isSurrogate = false := by
  have hlt : b.toNat < 0xd800 := Nat.lt_trans b.isLt (by decide)
  simp [characterOf, CodePoint.isSurrogate, Nat.not_le.mpr hlt]

/-- The evaluation holds this tape. -/
structure Represents (s : Evaluation) (t : Tape) : Prop where
  cells : ∀ i, s.cells.getD i 0 = (t.cells i).toNat
  head : s.cellptr = t.head
  inside : s.cellptr < s.cells.length
  output : s.published = t.output.map textOf

namespace Represents

variable {s : Evaluation} {t t' : Tape}

theorem initial : Represents .initial .initial where
  cells i := by cases i <;> rfl
  head := rfl
  inside := Nat.zero_lt_one
  output := rfl

theorem atCodeptr (h : Represents s t) (p : Nat) : Represents { s with codeptr := p } t :=
  ⟨h.cells, h.head, h.inside, h.output⟩

theorem getElem?_cellptr (h : Represents s t) :
    s.cells[s.cellptr]? = some t.current.toNat := by
  have hcell := h.cells s.cellptr
  rw [List.getD_eq_getElem?_getD, List.getElem?_eq_getElem h.inside] at hcell
  rw [List.getElem?_eq_getElem h.inside, Tape.current, ← h.head]
  exact congrArg some hcell

theorem set (h : Represents s t) {f : BitVec 8 → BitVec 8} {cell : Nat}
    (hcell : cell = (f t.current).toNat) :
    Represents { s with cells := s.cells.set s.cellptr cell } (t.change f) where
  cells i := by
    rw [List.getD_eq_getElem?_getD, List.getElem?_set, Tape.change]
    by_cases hi : s.cellptr = i
    · subst hi
      simp [h.inside, hcell, ← h.head]
    · have hne : i ≠ t.head := h.head ▸ Ne.symm hi
      simpa [hi, Function.update_of_ne hne] using h.cells i
  head := h.head
  inside := by rw [List.length_set]; exact h.inside
  output := h.output

/-- Moving right past the last cell appends a zero, which the tape has there. -/
theorem right (h : Represents s t) :
    Represents
      { s with
        cellptr := s.cellptr + 1
        cells := if s.cellptr + 1 = s.cells.length then s.cells ++ [0] else s.cells }
      (t.command '>') := by
  have hinside := h.inside
  refine ⟨fun i => ?_, congrArg (· + 1) h.head, ?_, h.output⟩
  · have hcell := h.cells i
    simp only [Tape.command]
    split
    · rw [← hcell]
      simp only [List.getD_eq_getElem?_getD, List.getElem?_append]
      split
      · rfl
      · rename_i hge
        rw [List.getElem?_eq_none (Nat.le_of_not_lt hge)]
        cases i - s.cells.length <;> rfl
    · exact hcell
  · dsimp only
    split
    · simp only [List.length_append, List.length_singleton]
      omega
    · omega

theorem left (h : Represents s t) :
    Represents { s with cellptr := if s.cellptr ≤ 0 then 0 else s.cellptr - 1 }
      (t.command '<') := by
  have hinside := h.inside
  refine ⟨h.cells, ?_, ?_, h.output⟩
  · simp only [Tape.command, ← h.head]
    split <;> omega
  · dsimp only
    split <;> omega

end Represents

section Commands

variable (lib : Libraries) (bracemap : Nat → Option Nat) {s : Evaluation} {t : Tape}

theorem run_readCell (h : Represents s t) : readCell.run s = (.ok t.current.toNat, s) := by
  rw [readCell, Exec.run_bind_ok (Exec.run_get s), h.getElem?_cellptr]
  rfl

theorem pyChr_toNat (b : BitVec 8) : pyChr (b.toNat : Int) = .ok (characterOf b) := by
  have hvalid : (0 : Int) ≤ b.toNat ∧ (b.toNat : Int) < 0x110000 := by
    have hlt := b.isLt
    omega
  rw [pyChr, codePoint?, dif_pos hvalid]
  rfl

/-- A byte is written as the character with its code. -/
theorem run_writeChr (b : BitVec 8) (s : Evaluation) :
    (writeChr lib b.toNat).run s =
      (.ok (), { s with published := s.published ++ [textOf b] }) := by
  rw [writeChr, pyChr_toNat]
  dsimp only
  rw [write, if_neg (by simp [not_isSurrogate_characterOf])]
  rfl

/-- **The commands compute on the tape**, one case for each. -/
theorem run_perform (h : Represents s t) {command : Char} (ho : command ≠ '[')
    (hc : command ≠ ']') :
    ∃ s', (perform lib bracemap command).run s = (.ok (), s') ∧
      Represents s' (t.command command) ∧ s'.codeptr = s.codeptr := by
  unfold perform
  split
  next => exact ⟨_, rfl, h.right, rfl⟩
  next => exact ⟨_, rfl, h.left, rfl⟩
  next =>
    refine ⟨_, Exec.run_bind_ok (run_readCell h), h.set (f := (· + 1)) ?_, rfl⟩
    have hlt := t.current.isLt
    rw [BitVec.toNat_add]
    split <;> simp <;> omega
  next =>
    refine ⟨_, Exec.run_bind_ok (run_readCell h), h.set (f := (· - 1)) ?_, rfl⟩
    have hlt := t.current.isLt
    rw [BitVec.toNat_sub]
    split <;> simp <;> omega
  next => exact absurd rfl ho
  next => exact absurd rfl hc
  next =>
    refine ⟨_, (Exec.run_bind_ok (run_readCell h)).trans (run_writeChr lib t.current s), ?_, rfl⟩
    exact ⟨h.cells, h.head, h.inside, by simp [Tape.command, h.output]⟩
  next hright hleft hplus hminus _ _ hdot =>
    refine ⟨s, rfl, ?_, rfl⟩
    unfold Tape.command
    split <;> simp_all

end Commands

/-! ### Programs in code -/

section Code

variable {code : List Char} {bracemap : Nat → Option Nat} {p : Nat}

/-- The symbol at the front of the rest of the code is the one at this position. -/
theorem drop_zipIdx_cons {a : Char × Nat} {l : List (Char × Nat)}
    (h : code.zipIdx.drop p = a :: l) :
    a.2 = p ∧ code[p]? = some a.1 ∧ code.zipIdx.drop (p + 1) = l := by
  have hget : code.zipIdx[p]? = some a := by
    have hhead := congrArg (fun l => l[0]?) h
    simpa using hhead
  rw [List.getElem?_zipIdx, Option.map_eq_some_iff] at hget
  obtain ⟨command, hcommand, rfl⟩ := hget
  refine ⟨Nat.zero_add p, hcommand, ?_⟩
  rw [← List.drop_drop, h, List.drop_one, List.tail_cons]

theorem drop_zipIdx_append {l l' : List (Char × Nat)} (h : code.zipIdx.drop p = l ++ l') :
    code.zipIdx.drop (p + l.length) = l' := by
  rw [← List.drop_drop, h, List.drop_left]

/-- The program stands in the code at position `p`, and its brackets are in the map. -/
structure Loaded (code : List Char) (bracemap : Nat → Option Nat) (p : Nat) (f : Program)
    (after : List (Char × Nat)) : Prop where
  fits : f.Fits kind
  drop : code.zipIdx.drop p = f.flatten ++ after
  linked : ∀ pair ∈ f.pairs,
    bracemap pair.1.2 = some pair.2.2 ∧ bracemap pair.2.2 = some pair.1.2

/-- Two partners in the code. -/
structure Block (code : List Char) (bracemap : Nat → Option Nat) (o c : Nat) : Prop where
  opening : code[o]? = some '['
  closing : code[c]? = some ']'
  forth : bracemap o = some c
  back : bracemap c = some o

theorem Loaded.leaf {a : Char × Nat} {rest : Program} {after : List (Char × Nat)}
    (h : Loaded code bracemap p (.leaf a rest) after) :
    code[p]? = some a.1 ∧ a.1 ≠ '[' ∧ a.1 ≠ ']' ∧ Loaded code bracemap (p + 1) rest after := by
  obtain ⟨-, hget, hdrop⟩ := drop_zipIdx_cons h.drop
  obtain ⟨hplain, hrest⟩ := h.fits
  obtain ⟨ho, hc⟩ := kind_eq_plain.mp hplain
  exact ⟨hget, ho, hc, hrest, hdrop, h.linked⟩

theorem Loaded.block {o c : Char × Nat} {body rest : Program} {after : List (Char × Nat)}
    (h : Loaded code bracemap p (.block o body c rest) after) :
    o.2 = p ∧ c.2 = p + 1 + body.flatten.length ∧ Block code bracemap o.2 c.2 ∧
      Loaded code bracemap (p + 1) body (c :: (rest.flatten ++ after)) ∧
      Loaded code bracemap (c.2 + 1) rest after := by
  obtain ⟨ho, hbody, hc, hrest⟩ := h.fits
  have hlinked := h.linked
  rw [Forest.pairs, List.forall_mem_append, List.forall_mem_cons] at hlinked
  obtain ⟨hlinkedBody, ⟨hforth, hback⟩, hlinkedRest⟩ := hlinked
  have hdrop := h.drop
  rw [Forest.flatten, List.cons_append, List.append_assoc, List.cons_append] at hdrop
  obtain ⟨hop, hgeto, hinner⟩ := drop_zipIdx_cons hdrop
  obtain ⟨hcp, hgetc, houter⟩ := drop_zipIdx_cons (drop_zipIdx_append hinner)
  rw [← hop] at hgeto
  rw [← hcp] at hgetc houter
  exact ⟨hop, hcp, ⟨kind_eq_opening.mp ho ▸ hgeto, kind_eq_closing.mp hc ▸ hgetc, hforth, hback⟩,
    ⟨hbody, hinner, hlinkedBody⟩, ⟨hrest, houter, hlinkedRest⟩⟩

theorem length_flatten_block (o c : Char × Nat) (body rest : Program) :
    (Forest.block o body c rest).flatten.length =
      body.flatten.length + rest.flatten.length + 2 := by
  simp only [Forest.flatten, List.length_cons, List.length_append]
  omega

end Code

/-! ### One iteration -/

section Steps

variable (lib : Libraries) {code : List Char} (bracemap : Nat → Option Nat) {s : Evaluation}
  {t : Tape}

theorem not_done {command : Char} (h : code[s.codeptr]? = some command) :
    (evaluateLoop lib code bracemap).done s = false := by
  obtain ⟨hlt, -⟩ := List.getElem?_eq_some_iff.mp h
  exact decide_eq_false (Nat.not_le.mpr hlt)

theorem run_evaluateBody {command : Char} (h : code[s.codeptr]? = some command) :
    (evaluateBody lib code bracemap).run s =
      (perform lib bracemap command >>= fun _ => advance).run s := by
  rw [evaluateBody, Exec.run_bind_ok (Exec.run_get s), h]

/-- An iteration at a command that is not a bracket. -/
theorem step_leaf (hs : Represents s t) {command : Char} (h : code[s.codeptr]? = some command)
    (ho : command ≠ '[') (hc : command ≠ ']') :
    ∃ s', (evaluateBody lib code bracemap).run s = (.ok (), s') ∧
      Represents s' (t.command command) ∧ s'.codeptr = s.codeptr + 1 := by
  obtain ⟨s', hrun, hs', hcodeptr⟩ := run_perform lib bracemap hs ho hc
  refine ⟨_, ?_, hs'.atCodeptr (s'.codeptr + 1), congrArg (· + 1) hcodeptr⟩
  rw [run_evaluateBody lib bracemap h, Exec.run_bind_ok hrun]
  rfl

theorem run_readCell_bind (hs : Represents s t) (f : Nat → Evaluating Unit) :
    (readCell >>= f).run s = (f t.current.toNat).run s :=
  Exec.run_bind_ok (run_readCell hs)

theorem toNat_eq_zero_iff {b : BitVec 8} : b.toNat = 0 ↔ b = 0 := by
  rw [← BitVec.toNat_inj]
  rfl

theorem run_perform_opening (hs : Represents s t) :
    (perform lib bracemap '[').run s =
      (if t.current = 0 then jump bracemap else pure ()).run s := by
  rw [perform, run_readCell_bind hs]
  simp only [toNat_eq_zero_iff]

theorem run_perform_closing (hs : Represents s t) :
    (perform lib bracemap ']').run s =
      (if t.current = 0 then pure () else jump bracemap).run s := by
  rw [perform, run_readCell_bind hs]
  simp only [ne_eq, toNat_eq_zero_iff, ite_not]

variable {bracemap}

theorem run_jump {position : Nat} (h : bracemap s.codeptr = some position) :
    (jump bracemap).run s = (.ok (), { s with codeptr := position }) := by
  rw [jump, Exec.run_bind_ok (Exec.run_get s), h]
  rfl

theorem run_jump_of_none (h : bracemap s.codeptr = none) :
    (jump bracemap).run s = (.error (keyError s.codeptr), s) := by
  rw [jump, Exec.run_bind_ok (Exec.run_get s), h]
  rfl

/-- An iteration at an opening leads into its block, or behind it. -/
theorem run_opening {o c : Nat} (hs : Represents s t) (h : Block code bracemap o c)
    (hp : s.codeptr = o) :
    (evaluateBody lib code bracemap).run s =
      (.ok (), { s with codeptr := if t.current = 0 then c + 1 else o + 1 }) := by
  subst hp
  have hperform := run_perform_opening lib bracemap hs
  rw [run_evaluateBody lib bracemap h.opening]
  by_cases hzero : t.current = 0
  · rw [if_pos hzero, run_jump h.forth] at hperform
    rw [Exec.run_bind_ok hperform, if_pos hzero]
    rfl
  · rw [if_neg hzero] at hperform
    rw [Exec.run_bind_ok hperform, if_neg hzero]
    rfl

/-- So does an iteration at the closing. -/
theorem run_closing {o c : Nat} (hs : Represents s t) (h : Block code bracemap o c)
    (hp : s.codeptr = c) :
    (evaluateBody lib code bracemap).run s =
      (.ok (), { s with codeptr := if t.current = 0 then c + 1 else o + 1 }) := by
  subst hp
  have hperform := run_perform_closing lib bracemap hs
  rw [run_evaluateBody lib bracemap h.closing]
  by_cases hzero : t.current = 0
  · rw [if_pos hzero] at hperform
    rw [Exec.run_bind_ok hperform, if_pos hzero]
    rfl
  · rw [if_neg hzero, run_jump h.back] at hperform
    rw [Exec.run_bind_ok hperform, if_neg hzero]
    rfl

/-- An opening without partner is passed with a nonzero byte only. -/
theorem run_unclosed (hs : Represents s t) (hget : code[s.codeptr]? = some '[')
    (h : bracemap s.codeptr = none) :
    (evaluateBody lib code bracemap).run s =
      if t.current = 0 then (.error (keyError s.codeptr), s)
      else (.ok (), { s with codeptr := s.codeptr + 1 }) := by
  have hperform := run_perform_opening lib bracemap hs
  rw [run_evaluateBody lib bracemap hget]
  by_cases hzero : t.current = 0
  · rw [if_pos hzero, run_jump_of_none h] at hperform
    rw [Exec.run_bind_error hperform, if_pos hzero]
  · rw [if_neg hzero] at hperform
    rw [Exec.run_bind_ok hperform, if_neg hzero]
    rfl

/-- **The two brackets of a block do the same**: what the loop does from the closing
is what it does from the opening. -/
theorem run_closing_eq {o c : Nat} (hs : Represents s t) (h : Block code bracemap o c)
    (hp : s.codeptr = c) :
    (evaluateBody lib code bracemap).run s =
      (evaluateBody lib code bracemap).run { s with codeptr := o } := by
  rw [run_closing lib hs h hp, run_opening lib (hs.atCodeptr o) h rfl]

end Steps

/-! ### Whole programs -/

section Programs

variable (lib : Libraries) {code : List Char} {bracemap : Nat → Option Nat}

/-- **The loop does what the program means**: it gets to the end of the program. -/
theorem reaches_of_runs {f : Program} {t t' : Tape} (h : Runs f t t') {p : Nat}
    {after : List (Char × Nat)} {s : Evaluation} (hf : Loaded code bracemap p f after)
    (hp : s.codeptr = p) (hs : Represents s t) :
    ∃ n s', (evaluateLoop lib code bracemap).Steps n s s' ∧ Represents s' t' ∧
      s'.codeptr = p + f.flatten.length := by
  induction h generalizing p after s with
  | nil t => exact ⟨0, s, .zero s, hs, hp⟩
  | command _ ih =>
      obtain ⟨hget, ho, hc, hrest⟩ := hf.leaf
      subst hp
      obtain ⟨s₁, hrun, hs₁, hp₁⟩ := step_leaf lib bracemap hs hget ho hc
      obtain ⟨n, s', hsteps, hs', hp'⟩ := ih hrest hp₁ hs₁
      refine ⟨n + 1, s', .succ (not_done lib bracemap hget) hrun hsteps, hs', ?_⟩
      rw [hp', Forest.flatten, List.length_cons]
      omega
  | skip hzero _ ih =>
      obtain ⟨hop, hcp, hblock, -, hrest⟩ := hf.block
      have hrun := run_opening lib hs hblock (hp.trans hop.symm)
      rw [if_pos hzero] at hrun
      obtain ⟨n, s', hsteps, hs', hp'⟩ := ih hrest rfl (hs.atCodeptr _)
      have hdone := not_done lib bracemap (hp.trans hop.symm ▸ hblock.opening)
      refine ⟨n + 1, s', .succ hdone hrun hsteps, hs', ?_⟩
      rw [hp', hcp, length_flatten_block]
      omega
  | @again o c body rest t t₁ t' hne _ _ ihb ihl =>
      obtain ⟨hop, hcp, hblock, hbody, hrest⟩ := hf.block
      have hrun := run_opening lib hs hblock (hp.trans hop.symm)
      rw [if_neg hne] at hrun
      obtain ⟨n, s₁, hsteps₁, hs₁, hp₁⟩ :=
        ihb hbody (congrArg (· + 1) hop) (hs.atCodeptr (o.2 + 1))
      -- The loop is at the closing; it goes on as if it were at the opening again.
      have heq := run_closing_eq lib hs₁ hblock (hp₁.trans hcp.symm)
      obtain ⟨m, s', hsteps', hs', hp'⟩ := ihl hf hop (hs₁.atCodeptr o.2)
      cases hsteps' with
      | zero =>
          rw [length_flatten_block] at hp'
          simp only at hp'
          omega
      | succ hdone hrun' hsteps' =>
          have hdone₁ := not_done lib bracemap
            (hp₁.trans hcp.symm ▸ hblock.closing)
          have hsteps := (WhileLoop.Steps.succ
            (not_done lib bracemap (hp.trans hop.symm ▸ hblock.opening)) hrun hsteps₁).trans
              (.succ hdone₁ (heq.trans hrun') hsteps')
          exact ⟨_, s', hsteps, hs', hp'⟩

/-- **The loop does nothing else**: a run that ends gets to the end of the program as
the program means. The induction is on the number of iterations left. -/
theorem runs_of_ended {n : Nat} : ∀ {f : Program} {t : Tape} {p : Nat}
    {after : List (Char × Nat)} {s s' : Evaluation} {r : Except PyExc Unit},
    Loaded code bracemap p f after → s.codeptr = p → Represents s t →
    (evaluateLoop lib code bracemap).runFor n s = (some r, s') →
    ∃ m s₁ t₁, m ≤ n ∧ Runs f t t₁ ∧ Represents s₁ t₁ ∧ s₁.codeptr = p + f.flatten.length ∧
      (evaluateLoop lib code bracemap).runFor m s₁ = (some r, s') := by
  induction n using Nat.strongRecOn with
  | ind n ih =>
      intro f t p after s s' r hf hp hs hended
      cases f with
      | nil => exact ⟨n, s, t, Nat.le_refl n, .nil t, hs, hp, hended⟩
      | leaf a rest =>
          obtain ⟨hget, ho, hc, hrest⟩ := hf.leaf
          subst hp
          obtain ⟨s₁, hrun, hs₁, hp₁⟩ := step_leaf lib bracemap hs hget ho hc
          obtain ⟨m, rfl, hnext⟩ :=
            WhileLoop.runFor_of_step (not_done lib bracemap hget) hrun hended
          obtain ⟨k, s₂, t₂, hk, hruns, hs₂, hp₂, hlast⟩ :=
            ih m (Nat.lt_succ_self m) hrest hp₁ hs₁ hnext
          refine ⟨k, s₂, t₂, by omega, .command hruns, hs₂, ?_, hlast⟩
          rw [hp₂, Forest.flatten, List.length_cons]
          omega
      | block o body c rest =>
          obtain ⟨hop, hcp, hblock, hbody, hrest⟩ := hf.block
          have hpo : s.codeptr = o.2 := hp.trans hop.symm
          have hrun := run_opening lib hs hblock hpo
          obtain ⟨m, rfl, hnext⟩ :=
            WhileLoop.runFor_of_step (not_done lib bracemap (hpo ▸ hblock.opening)) hrun hended
          by_cases hzero : t.current = 0
          · rw [if_pos hzero] at hnext
            obtain ⟨k, s₂, t₂, hk, hruns, hs₂, hp₂, hlast⟩ :=
              ih m (Nat.lt_succ_self m) hrest rfl (hs.atCodeptr _) hnext
            refine ⟨k, s₂, t₂, by omega, .skip hzero hruns, hs₂, ?_, hlast⟩
            rw [hp₂, hcp, length_flatten_block]
            omega
          · rw [if_neg hzero] at hnext
            obtain ⟨k, s₁, t₁, hk, hruns, hs₁, hp₁, hclosing⟩ :=
              ih m (Nat.lt_succ_self m) hbody (congrArg (· + 1) hop) (hs.atCodeptr _) hnext
            -- From the closing the loop goes on as it would from the opening.
            have hpc : s₁.codeptr = c.2 := hp₁.trans hcp.symm
            have hopening : (evaluateLoop lib code bracemap).runFor k
                { s₁ with codeptr := o.2 } = (some r, s') := by
              have heq := run_closing_eq lib hs₁ hblock hpc
              have hrun₁ := run_closing lib hs₁ hblock hpc
              obtain ⟨j, rfl, hj⟩ :=
                WhileLoop.runFor_of_step (not_done lib bracemap (hpc ▸ hblock.closing)) hrun₁
                  hclosing
              have hdone := not_done lib bracemap
                (s := { s₁ with codeptr := o.2 }) hblock.opening
              rw [Nat.add_comm,
                (WhileLoop.Steps.one hdone (heq.symm.trans hrun₁)).runFor_add j]
              exact hj
            obtain ⟨j, s₂, t₂, hj, hagain, hs₂, hp₂, hlast⟩ :=
              ih k (by omega) hf hop (hs₁.atCodeptr _) hopening
            exact ⟨j, s₂, t₂, by omega, .again hzero hruns hagain, hs₂, hp₂, hlast⟩

end Programs

/-! ### Programs with unclosed openings -/

/-- How the loop ends. -/
def resultOf : Option Nat → Except PyExc Unit
  | none => .ok ()
  | some position => .error (keyError position)

/-- The rest of the code is a program and openings without entry in the map, each with
a program behind it. -/
def LoadedAll (code : List Char) (bracemap : Nat → Option Nat) :
    Nat → Program → List ((Char × Nat) × Program) → Prop
  | p, f, [] => Loaded code bracemap p f []
  | p, f, (o, g) :: rest =>
      Loaded code bracemap p f (o :: (g.flatten ++ Decomposition.flattenAll rest)) ∧
        kind o = .opening ∧ bracemap o.2 = none ∧
        LoadedAll code bracemap (p + f.flatten.length + 1) g rest

section Unclosed

variable (lib : Libraries) {code : List Char} {bracemap : Nat → Option Nat} {f : Program}
  {segments : List ((Char × Nat) × Program)} {p : Nat} {s : Evaluation} {t : Tape}

/-- At the end of the last program the loop is done. -/
theorem done_of_loaded (h : Loaded code bracemap p f [])
    (hp : s.codeptr = p + f.flatten.length) :
    (evaluateLoop lib code bracemap).done s = true := by
  have hlen := congrArg List.length h.drop
  simp only [List.length_drop, List.length_zipIdx, List.append_nil] at hlen
  refine decide_eq_true ?_
  omega

theorem runFor_of_done {n : Nat} (h : (evaluateLoop lib code bracemap).done s = true) :
    (evaluateLoop lib code bracemap).runFor n s = (some (.ok ()), s) := by
  cases n <;> simp [WhileLoop.runFor, h]

/-- The iteration at an opening without partner. -/
theorem step_unclosed {o : Char × Nat} {g : Program} (ho : kind o = .opening)
    (hmap : bracemap o.2 = none)
    (hf : Loaded code bracemap p f (o :: (g.flatten ++ Decomposition.flattenAll segments)))
    (hp : s.codeptr = p + f.flatten.length) (hs : Represents s t) :
    (evaluateLoop lib code bracemap).done s = false ∧
      (evaluateBody lib code bracemap).run s =
        if t.current = 0 then (.error (keyError o.2), s)
        else (.ok (), { s with codeptr := p + f.flatten.length + 1 }) := by
  obtain ⟨hop, hget, -⟩ := drop_zipIdx_cons (drop_zipIdx_append hf.drop)
  rw [← hp] at hop hget
  rw [kind_eq_opening.mp ho] at hget
  rw [hop] at hmap
  rw [hop, ← hp]
  exact ⟨not_done lib bracemap hget, run_unclosed lib hs hget hmap⟩

theorem ended_of_ends {stuckAt : Option Nat} {t' : Tape} (h : Ends f segments stuckAt t t')
    (hf : LoadedAll code bracemap p f segments) (hp : s.codeptr = p) (hs : Represents s t) :
    ∃ n s', (evaluateLoop lib code bracemap).runFor n s = (some (resultOf stuckAt), s') ∧
      Represents s' t' := by
  induction h generalizing p s with
  | done hruns =>
      obtain ⟨n, s', hsteps, hs', hp'⟩ := reaches_of_runs lib hruns hf hp hs
      refine ⟨n + 0, s', ?_, hs'⟩
      rw [hsteps.runFor_add, runFor_of_done lib (done_of_loaded lib hf hp')]
      rfl
  | stuck hruns hzero =>
      obtain ⟨hloaded, ho, hmap, -⟩ := hf
      obtain ⟨n, s', hsteps, hs', hp'⟩ := reaches_of_runs lib hruns hloaded hp hs
      obtain ⟨hdone, hrun⟩ := step_unclosed lib ho hmap hloaded hp' hs'
      rw [if_pos hzero] at hrun
      refine ⟨n + 1, s', ?_, hs'⟩
      rw [hsteps.runFor_add, WhileLoop.runFor, hdone]
      simp only [evaluateLoop, hrun, resultOf, Bool.false_eq_true, if_false]
  | enter hruns hne _ ih =>
      obtain ⟨hloaded, ho, hmap, hrest⟩ := hf
      obtain ⟨n, s₁, hsteps, hs₁, hp₁⟩ := reaches_of_runs lib hruns hloaded hp hs
      obtain ⟨hdone, hrun⟩ := step_unclosed lib ho hmap hloaded hp₁ hs₁
      rw [if_neg hne] at hrun
      obtain ⟨m, s', hended, hs'⟩ := ih hrest rfl (hs₁.atCodeptr _)
      refine ⟨n + 1 + m, s', ?_, hs'⟩
      rw [(hsteps.trans (.one hdone hrun)).runFor_add, hended]

theorem ends_of_ended {n : Nat} {r : Except PyExc Unit} {s' : Evaluation}
    (h : (evaluateLoop lib code bracemap).runFor n s = (some r, s'))
    (hf : LoadedAll code bracemap p f segments) (hp : s.codeptr = p) (hs : Represents s t) :
    ∃ stuckAt t', Ends f segments stuckAt t t' ∧ Represents s' t' ∧ r = resultOf stuckAt := by
  induction segments generalizing p f s t n with
  | nil =>
      obtain ⟨m, s₁, t₁, -, hruns, hs₁, hp₁, hlast⟩ := runs_of_ended lib hf hp hs h
      rw [runFor_of_done lib (done_of_loaded lib hf hp₁)] at hlast
      simp only [Prod.mk.injEq, Option.some.injEq] at hlast
      exact ⟨none, t₁, .done hruns, hlast.2 ▸ hs₁, hlast.1.symm⟩
  | cons segment rest ih =>
      obtain ⟨hloaded, ho, hmap, hrest⟩ := hf
      obtain ⟨m, s₁, t₁, -, hruns, hs₁, hp₁, hlast⟩ := runs_of_ended lib hloaded hp hs h
      obtain ⟨hdone, hrun⟩ := step_unclosed lib ho hmap hloaded hp₁ hs₁
      by_cases hzero : t₁.current = 0
      · rw [if_pos hzero] at hrun
        obtain ⟨rfl, rfl⟩ := WhileLoop.runFor_of_failure hdone hrun hlast
        exact ⟨_, t₁, .stuck hruns hzero, hs₁, rfl⟩
      · rw [if_neg hzero] at hrun
        obtain ⟨k, rfl, hnext⟩ := WhileLoop.runFor_of_step hdone hrun hlast
        obtain ⟨stuckAt, t', hends, hs', hr⟩ := ih hnext hrest rfl (hs₁.atCodeptr _)
        exact ⟨stuckAt, t', .enter hruns hzero hends, hs', hr⟩

end Unclosed

/-! ### The meaning of a text -/

/-- What running a text comes to: the result, and the tape at the end. -/
def Means (text : String) (r : Except PyExc Unit) (t : Tape) : Prop :=
  let d := decompose kind (cleanup text.toList).zipIdx
  match d.unopened with
  | [] => ∃ stuckAt, Ends d.head d.unclosed stuckAt .initial t ∧ r = resultOf stuckAt
  | _ :: _ => r = .error popFromEmptyList ∧ t = .initial

/-- What follows a position is loaded, if the pairs have been entered in the map and
the openings without partner have not. -/
theorem loadedAll_of {code : List Char} {bracemap : Nat → Option Nat} {f : Program}
    {segments : List ((Char × Nat) × Program)} {p : Nat} (hf : f.Fits kind)
    (hsegments : ∀ s ∈ segments, kind s.1 = .opening ∧ s.2.Fits kind)
    (hdrop : code.zipIdx.drop p = f.flatten ++ Decomposition.flattenAll segments)
    (hlinked : ∀ pair ∈ f.pairs ++ segments.flatMap (fun s => s.2.pairs),
      bracemap pair.1.2 = some pair.2.2 ∧ bracemap pair.2.2 = some pair.1.2)
    (hunclosed : ∀ s ∈ segments, bracemap s.1.2 = none) :
    LoadedAll code bracemap p f segments := by
  induction segments generalizing p f with
  | nil => exact ⟨hf, hdrop, fun pair hpair => hlinked pair (List.mem_append_left _ hpair)⟩
  | cons segment rest ih =>
      obtain ⟨⟨ho, hg⟩, hrest⟩ := List.forall_mem_cons.mp hsegments
      obtain ⟨hnone, hunclosed'⟩ := List.forall_mem_cons.mp hunclosed
      rw [List.flatMap_cons, List.forall_mem_append] at hlinked
      obtain ⟨-, -, hnext⟩ := drop_zipIdx_cons (drop_zipIdx_append hdrop)
      exact ⟨⟨hf, hdrop, hlinked.1⟩, ho, hnone, ih hg hrest hnext hlinked.2 hunclosed'⟩

/-- After `buildbracemap` the whole program is loaded. -/
theorem loadedAll_of_buildbracemap {code : List Char} {bracemap : Nat → Option Nat}
    (h : buildbracemap code = .ok bracemap) :
    LoadedAll code bracemap 0 (decompose kind code.zipIdx).head
      (decompose kind code.zipIdx).unclosed := by
  obtain ⟨hopen, rfl⟩ := buildbracemap_ok_iff.mp h
  have hfits := fits_decompose kind code.zipIdx
  have hflat := flatten_decompose kind code.zipIdx
  have hsub := Decomposition.symbols_append_opened_subperm hopen
  rw [hflat] at hsub
  have hnodup := nodup_positions hsub
  rw [List.map_append, List.nodup_append] at hnodup
  obtain ⟨hpairs, -, hdisjoint⟩ := hnodup
  refine loadedAll_of hfits.head hfits.unclosed ?_ (fun pair hpair => ?_) (fun s hs => ?_)
  · rw [List.drop_zero]
    conv_lhs => rw [← hflat]
    rw [Decomposition.flatten, hopen, Decomposition.flattenAll_nil, List.nil_append]
  · exact record_of_mem hpairs hpair
  · refine record_of_notMem fun hmem => ?_
    exact hdisjoint _ hmem _ (List.mem_map_of_mem (List.mem_map_of_mem hs)) rfl

section Evaluate

variable {lib : Libraries} {text : String} {r : Except PyExc Unit}

theorem means_of_buildbracemap_error {e : PyExc} {t : Tape}
    (h : buildbracemap (cleanup text.toList) = .error e) :
    Means text r t ↔ r = .error e ∧ t = .initial := by
  have hspec := buildbracemap_error h
  cases hopen : (decompose kind (cleanup text.toList).zipIdx).unopened with
  | nil => exact absurd (h.symm.trans (buildbracemap_ok_iff.mpr ⟨hopen, rfl⟩)) (by simp)
  | cons s rest => simp only [Means, hopen, hspec]

theorem means_of_buildbracemap_ok {bracemap : Nat → Option Nat} {t : Tape}
    (h : buildbracemap (cleanup text.toList) = .ok bracemap) :
    Means text r t ↔ ∃ stuckAt, Ends (decompose kind (cleanup text.toList).zipIdx).head
      (decompose kind (cleanup text.toList).zipIdx).unclosed stuckAt .initial t ∧
        r = resultOf stuckAt := by
  simp only [Means, (buildbracemap_ok_iff.mp h).1]

/-- A run that ends ends as the text means. -/
theorem means_of_evaluate {n : Nat} {s : Evaluation} (h : evaluate lib text n = (some r, s)) :
    ∃ t, Means text r t ∧ Represents s t := by
  unfold evaluate at h
  dsimp only at h
  cases hbuild : buildbracemap (cleanup text.toList) with
  | error e =>
      simp only [hbuild, Prod.mk.injEq, Option.some.injEq] at h
      obtain ⟨rfl, rfl⟩ := h
      exact ⟨.initial, (means_of_buildbracemap_error hbuild).mpr ⟨rfl, rfl⟩, .initial⟩
  | ok bracemap =>
      rw [hbuild] at h
      obtain ⟨stuckAt, t, hends, hs, hr⟩ :=
        ends_of_ended lib h (loadedAll_of_buildbracemap hbuild) rfl .initial
      exact ⟨t, (means_of_buildbracemap_ok hbuild).mpr ⟨stuckAt, hends, hr⟩, hs⟩

/-- If the text has a meaning, the run ends. -/
theorem evaluate_of_means {t : Tape} (h : Means text r t) :
    ∃ n s, evaluate lib text n = (some r, s) ∧ Represents s t := by
  unfold evaluate
  dsimp only
  cases hbuild : buildbracemap (cleanup text.toList) with
  | error e =>
      obtain ⟨rfl, rfl⟩ := (means_of_buildbracemap_error hbuild).mp h
      exact ⟨0, .initial, rfl, .initial⟩
  | ok bracemap =>
      obtain ⟨stuckAt, hends, rfl⟩ := (means_of_buildbracemap_ok hbuild).mp h
      exact ended_of_ends lib hends (loadedAll_of_buildbracemap hbuild) rfl .initial

/-- However many commands are allowed, a run that ends ends the same way. -/
theorem evaluate_unique {m n : Nat} {r' : Except PyExc Unit} {s s' : Evaluation}
    (h : evaluate lib text m = (some r, s)) (h' : evaluate lib text n = (some r', s')) :
    r = r' ∧ s = s' := by
  unfold evaluate at h h'
  dsimp only at h h'
  cases hbuild : buildbracemap (cleanup text.toList) with
  | error e =>
      simp only [hbuild, Prod.mk.injEq, Option.some.injEq] at h h'
      exact ⟨h.1.symm.trans h'.1, h.2.symm.trans h'.2⟩
  | ok bracemap =>
      rw [hbuild] at h h'
      exact (evaluateLoop lib (cleanup text.toList) bracemap).ended_unique h h'

end Evaluate

/-- **`evaluate` computes the meaning of its text.** A run that ends ends as the text
means, with the cells, the head and the published texts of its tape; and if the text
has a meaning, the run ends. -/
theorem evaluate_means (lib : Libraries) (text : String) :
    (∀ n r s, evaluate lib text n = (some r, s) → ∃ t, Means text r t ∧ Represents s t) ∧
      ∀ r t, Means text r t → ∃ n s, evaluate lib text n = (some r, s) ∧ Represents s t :=
  ⟨fun _ _ _ => means_of_evaluate, fun _ _ => evaluate_of_means⟩

end XeusPywrap.Brainfuck
