import XeusPywrap.Basic.Control
import XeusPywrap.Common.Simulation

/-!
# XeusPywrap.Basic.ExecuteRefinement

`execute`, with its index and its stacks of line numbers, does what the control machine
does: `executeLoop_refines`. In particular every line number it looks up is there, so
that "Invalid subroutine return" and its like are never reported.
-/

namespace XeusPywrap.Basic

variable {σ : Type} {p : Program}

/-! ### Lines and indices -/

theorem lineNumbers_getElem? (p : Program) (i : Nat) :
    p.lineNumbers[i]? = (p.program.entries[i]?).map Prod.fst :=
  List.getElem?_map ..

/-- Going on behind the line at an index. -/
theorem drop_succ (p : Program) (i : Nat) :
    p.program.entries.drop (i + 1) = (p.program.entries.drop i).tail := by
  rw [List.tail_drop]

theorem head_drop {i : Nat} {number : Int} (h : p.lineNumbers[i]? = some number) :
    ∃ statement, p.program.lookup number = some statement ∧
      p.program.entries.drop i = (number, statement) :: p.program.entries.drop (i + 1) := by
  rw [lineNumbers_getElem?, Option.map_eq_some_iff] at h
  obtain ⟨⟨n, statement⟩, hget, rfl⟩ := h
  obtain ⟨hlt, heq⟩ := List.getElem?_eq_some_iff.mp hget
  refine ⟨statement, OrderedDict.lookup_eq_some_iff.mpr (List.mem_of_getElem? hget), ?_⟩
  rw [List.drop_eq_getElem_cons hlt, heq]

theorem drop_eq_nil {i : Nat} (h : p.lineNumbers[i]? = none) : p.program.entries.drop i = [] := by
  rw [lineNumbers_getElem?, Option.map_eq_none_iff, List.getElem?_eq_none_iff] at h
  exact List.drop_eq_nil_of_le h

/-- The lines from a number on are those from its index on. -/
theorem linesFrom_eq_drop {number : Int} (h : number ∈ p.lineNumbers) :
    p.linesFrom number = p.program.entries.drop (p.lineNumbers.idxOf number) ∧
      p.lineNumbers[p.lineNumbers.idxOf number]? = some number := by
  refine ⟨?_, List.getElem?_idxOf h⟩
  rw [Program.linesFrom, Program.lineNumbers, OrderedDict.keys] at *
  generalize p.program.entries = entries at h ⊢
  induction entries with
  | nil => simp at h
  | cons line entries ih =>
      rw [List.map_cons, List.idxOf_cons]
      by_cases hline : line.1 = number
      · simp [hline]
      · have hmem : number ∈ entries.map Prod.fst := by
          simpa [Ne.symm hline] using h
        rw [List.dropWhile_cons_of_pos (by simpa using hline), ih hmem]
        rw [beq_false_of_ne hline, cond_false, List.drop_succ_cons]

/-- The same for a number whose index is known. -/
theorem linesFrom_of_getElem? {i : Nat} {number : Int} (h : p.lineNumbers[i]? = some number) :
    p.linesFrom number = p.program.entries.drop i := by
  obtain ⟨hlt, rfl⟩ := List.getElem?_eq_some_iff.mp h
  rw [(linesFrom_eq_drop (List.getElem_mem hlt)).1]
  exact congrArg (p.program.entries.drop ·) (p.program.nodup_keys.idxOf_getElem i hlt)

theorem linesFrom_eq_nil {number : Int} (h : number ∉ p.lineNumbers) : p.linesFrom number = [] := by
  rw [Program.linesFrom, List.dropWhile_eq_nil_iff]
  intro line hline
  refine decide_eq_true fun heq => h ?_
  exact heq ▸ List.mem_map_of_mem hline

/-! ### Skips -/

theorem skipNext_spec {loopVar : List Char} {lines : List Line}
    (hlines : ∀ line ∈ lines, line.2 ≠ []) {i : Nat} (h : p.program.entries.drop i = lines) :
    match skipNext loopVar lines i with
    | .ok none => (lines.dropWhile fun line => !isNext loopVar line.2).drop 1 = []
    | .ok (some j) => (lines.dropWhile fun line => !isNext loopVar line.2).drop 1 =
        p.program.entries.drop j
    | .error _ => False := by
  induction lines generalizing i with
  | nil => rfl
  | cons line lines ih =>
      obtain ⟨hne, hlines'⟩ := List.forall_mem_cons.mp hlines
      have hnext : p.program.entries.drop (i + 1) = lines := by rw [drop_succ, h]; rfl
      obtain ⟨number, tokens⟩ := line
      cases tokens with
      | nil => exact absurd rfl hne
      | cons token tokens =>
          rw [skipNext]
          by_cases hnextToken : isNext loopVar (token :: tokens) = true
          · rw [if_pos hnextToken, List.dropWhile_cons_of_neg (by simp [hnextToken])]
            simpa using hnext.symm
          · rw [if_neg hnextToken, List.dropWhile_cons_of_pos (by simp [hnextToken])]
            exact ih hlines' hnext

theorem skipWend_spec {lines : List Line} (hlines : ∀ line ∈ lines, line.2 ≠ []) {i : Nat}
    (h : p.program.entries.drop i = lines) (wendCount : Nat) :
    match skipWend wendCount lines i with
    | .ok none => skipFrom bracketOf wendCount lines = none
    | .ok (some j) => skipFrom bracketOf wendCount lines = some (p.program.entries.drop j) ∧
        j ≤ p.program.entries.length
    | .error _ => False := by
  induction lines generalizing i wendCount with
  | nil => rfl
  | cons line lines ih =>
      obtain ⟨hne, hlines'⟩ := List.forall_mem_cons.mp hlines
      have hnext : p.program.entries.drop (i + 1) = lines := by rw [drop_succ, h]; rfl
      obtain ⟨number, tokens⟩ := line
      cases tokens with
      | nil => exact absurd rfl hne
      | cons token tokens =>
          rw [skipWend]
          split_ifs with hwhile hwend hcount
          · rw [skipFrom_opening (by simp [bracketOf, hwhile])]
            exact ih hlines' hnext (wendCount + 1)
          · subst hcount
            rw [skipFrom_partner (by simp [bracketOf, hwend])]
            have hlt := congrArg List.length h
            rw [List.length_drop, List.length_cons] at hlt
            exact ⟨congrArg some hnext.symm, by omega⟩
          · obtain ⟨wendCount, rfl⟩ := Nat.exists_eq_succ_of_ne_zero hcount
            rw [skipFrom_closing (by simp [bracketOf, hwend])]
            exact ih hlines' hnext wendCount
          · rw [skipFrom_plain (by simp [bracketOf, hwhile, hwend])]
            exact ih hlines' hnext wendCount

/-! ### The relation -/

/-- What the two have in common even after a failure: what the program has done. -/
structure Agree (s : Execution σ) (c : Control σ) : Prop where
  lastFlowsignal : s.lastFlowsignal = c.lastFlowsignal
  data : s.data = c.data
  parser : s.parser = c.parser

/-- The execution holds the stacks of the machine, as line numbers. -/
structure Stacks (p : Program) (s : Execution σ) (c : Control σ) : Prop extends Agree s c where
  returns : c.returns = s.returnStack.map p.linesFrom
  returnLines : ∀ number ∈ s.returnStack, number ∈ p.lineNumbers
  loops : ∀ loopVar, c.loops loopVar = (s.returnLoop loopVar).map p.linesFrom
  loopLines : ∀ loopVar, ∀ number ∈ s.returnLoop loopVar, number ∈ p.lineNumbers
  whiles : c.whiles = s.whileStack.map p.linesFrom
  whileLines : ∀ number ∈ s.whileStack, number ∈ p.lineNumbers

section Stacks

variable {s : Execution σ} {c : Control σ}

theorem Stacks.setReturns (h : Stacks p s c) {numbers : List Int}
    (hnumbers : ∀ number ∈ numbers, number ∈ p.lineNumbers) :
    Stacks p { s with returnStack := numbers } { c with returns := numbers.map p.linesFrom } :=
  { h with returns := rfl, returnLines := hnumbers }

theorem Stacks.setWhiles (h : Stacks p s c) {numbers : List Int}
    (hnumbers : ∀ number ∈ numbers, number ∈ p.lineNumbers) :
    Stacks p { s with whileStack := numbers } { c with whiles := numbers.map p.linesFrom } :=
  { h with whiles := rfl, whileLines := hnumbers }

theorem Stacks.setLoop (h : Stacks p s c) (loopVar : List Char) {number : Option Int}
    (hnumber : ∀ n ∈ number, n ∈ p.lineNumbers) :
    Stacks p { s with returnLoop := Function.update s.returnLoop loopVar number }
      { c with loops := Function.update c.loops loopVar (number.map p.linesFrom) } := by
  refine { h with loops := fun v => ?_, loopLines := fun v n hn => ?_ }
  · by_cases hv : v = loopVar
    · subst hv
      simp
    · simp [hv, h.loops v]
  · by_cases hv : v = loopVar
    · subst hv
      exact hnumber n (by simpa using hn)
    · exact h.loopLines v n (by simpa [hv] using hn)

end Stacks

/-- The execution is at the line the machine is at. -/
structure At (p : Program) (s : Execution σ) (c : Control σ) : Prop extends Stacks p s c where
  code : c.code = p.program.entries.drop s.index
  here : c.here = s.nextStmt
  line : p.lineNumbers[s.index]? = some s.nextStmt.number

/-- The execution goes on like the machine. -/
def Represents (p : Program) (s : Execution σ) (c : Control σ) : Prop :=
  if s.ended then Agree s c ∧ c.code = [] else At p s c

theorem At.represents {s : Execution σ} {c : Control σ} (h : At p s c) (hended : s.ended = false) :
    Represents p s c := by
  rwa [Represents, if_neg (by simp [hended])]

/-- How a line of the two ends. -/
abbrev Ends (p : Program) (r : Except PyExc Unit × Execution σ)
    (r' : Except PyExc Unit × Control σ) : Prop :=
  Exec.Alike (fun _ _ => Represents p) Agree r r'

section Moves

variable {s : Execution σ} {c : Control σ}

/-- Going on at an index is going on with the lines from there. -/
theorem continueAt_proceed (h : Stacks p s c) (hended : s.ended = false) (i : Nat)
    {otherwise : Executing σ Unit} {otherwise' : Control.Controlling σ Unit}
    (hotherwise : ∀ s, Stacks p s c → s.ended = false →
      Ends p (otherwise.run s) (otherwise'.run c)) :
    Ends p ((continueAt p i otherwise).run s)
      ((Control.proceed (p.program.entries.drop i) otherwise').run c) := by
  rw [continueAt, Exec.run_update_bind]
  cases hnumber : p.lineNumbers[i]? with
  | none =>
      rw [drop_eq_nil hnumber]
      exact hotherwise { s with index := i } { h with } hended
  | some number =>
      obtain ⟨statement, -, hdrop⟩ := head_drop hnumber
      rw [hdrop]
      refine .ok (At.represents { h with code := ?_, here := rfl, line := hnumber } hended)
      exact hdrop.symm

theorem leave_finish (h : Agree s c) :
    Ends p ((leave : Executing σ Unit).run s) (Control.finish.run c) :=
  .ok (by rw [Represents, if_pos rfl]; exact ⟨{ h with }, rfl⟩)

theorem fail_fail (h : Agree s c) (e : PyExc) :
    Ends p ((Exec.fail e : Executing σ Unit).run s)
      ((Exec.fail e : Control.Controlling σ Unit).run c) :=
  .error h

/-- Coming back to a line is going on with the lines that were kept. -/
theorem resume_proceed (h : Stacks p s c) (hended : s.ended = false) {number : Int}
    (hnumber : number ∈ p.lineNumbers) (invalid : PyExc) :
    Ends p ((resume p number invalid).run s)
      ((Control.proceed (p.linesFrom number) Control.finish).run c) := by
  obtain ⟨hlines, hline⟩ := linesFrom_eq_drop hnumber
  obtain ⟨statement, -, hdrop⟩ := head_drop hline
  rw [resume, if_pos hnumber, hlines, hdrop]
  refine .ok (At.represents { h with code := ?_, here := rfl, line := hline } hended)
  exact hdrop.symm

theorem jumpTo_jump (h : Stacks p s c) (hended : s.ended = false) (target : Target)
    (invalid : PyExc) :
    Ends p ((jumpTo p target invalid).run s) ((Control.jump p target invalid).run c) := by
  match target with
  | .unprintable | .printed none _ => exact fail_fail h.toAgree invalid
  | .printed (some number) str =>
      simp only [jumpTo, Control.jump]
      by_cases hnumber : number ∈ p.lineNumbers
      · obtain ⟨hlines, hline⟩ := linesFrom_eq_drop hnumber
        obtain ⟨statement, -, hdrop⟩ := head_drop hline
        rw [if_pos hnumber, hlines, hdrop]
        refine .ok (At.represents { h with code := ?_, here := rfl, line := hline } hended)
        exact hdrop.symm
      · rw [if_neg hnumber, linesFrom_eq_nil hnumber]
        exact fail_fail h.toAgree invalid

/-- Going on where a skip has led. -/
theorem skipTo_proceed (h : Stacks p s c) (hended : s.ended = false)
    {skipped : Except PyExc (Option Nat)} {lines : List Line}
    (hskip : match skipped with
      | .ok none => lines = []
      | .ok (some j) => lines = p.program.entries.drop j
      | .error _ => False) :
    Ends p ((skipTo p skipped).run s) ((Control.proceed lines Control.finish).run c) := by
  match skipped with
  | .ok none =>
      obtain rfl : lines = [] := hskip
      exact leave_finish h.toAgree
  | .ok (some j) =>
      obtain rfl : lines = p.program.entries.drop j := hskip
      exact continueAt_proceed h hended j fun s hs _ => leave_finish hs.toAgree

end Moves

/-! ### One statement -/

section Body

variable {s : Execution σ} {c : Control σ}

/-- The statement of the line is run in the same way. -/
theorem executeStatement_statement (P : Parser σ) (h : At p s c) (hended : s.ended = false) :
    ∃ line lines, c.code = line :: lines ∧
      Exec.Alike (fun signal signal' s c => signal = signal' ∧ At p s c ∧ s.ended = false) Agree
        ((executeStatement P p).run s) ((Control.statement P line.2).run c) := by
  obtain ⟨statement, hlookup, hdrop⟩ := head_drop h.line
  refine ⟨_, _, h.code.trans hdrop, ?_⟩
  rw [executeStatement, Control.statement, Exec.run_get_bind, Exec.run_get_bind, hlookup, h.here,
    h.lastFlowsignal]
  refine Exec.Alike.zoom (Prod.ext h.data h.parser) (fun _ r => ?_) fun r => ?_
  · exact ⟨rfl, { h with data := rfl, parser := rfl }, hended⟩
  · exact { h with data := rfl, parser := rfl }

/-- **Every flow signal is followed in the same way**, one case for each. -/
theorem follow_transfer (hblanks : p.NoBlanks) (h : At p s c) (hended : s.ended = false)
    (flowsignal : Option FlowSignal) :
    Ends p ((follow p flowsignal).run s) ((Control.transfer p flowsignal).run c) := by
  have hstacks := h.toStacks
  have htail : c.code.tail = p.program.entries.drop (s.index + 1) := by rw [h.code, drop_succ]
  have hlines : ∀ line ∈ p.program.entries.drop (s.index + 1), line.2 ≠ [] := fun line hline =>
    hblanks line (List.mem_of_mem_drop hline)
  have hmem := List.mem_of_getElem? h.line
  have hcode : c.code = p.linesFrom s.nextStmt.number := by
    rw [h.code, linesFrom_of_getElem? h.line]
  cases flowsignal with
  | none =>
      simp only [follow, Control.transfer, Exec.run_get_bind, htail]
      exact continueAt_proceed hstacks hended _ fun s hs _ => leave_finish hs.toAgree
  | some signal =>
      cases signal with
      | simpleJump ftarget =>
          simp only [follow, Control.transfer, Exec.run_update_bind]
          exact jumpTo_jump (hstacks.setWhiles (List.forall_mem_nil _)) hended _ _
      | gosub ftarget =>
          simp only [follow, Control.transfer, Exec.run_get_bind, htail]
          cases hnext : p.lineNumbers[s.index + 1]? with
          | none =>
              rw [drop_eq_nil hnext]
              exact fail_fail h.toAgree _
          | some number =>
              obtain ⟨statement, -, hdrop⟩ := head_drop hnext
              have hreturn : (number, statement) :: p.program.entries.drop (s.index + 1 + 1) =
                  p.linesFrom number := by rw [linesFrom_of_getElem? hnext, hdrop]
              rw [hdrop]
              simp only [Exec.run_update_bind, hreturn, hstacks.returns, ← List.map_cons]
              have hnumbers : ∀ n ∈ number :: s.returnStack, n ∈ p.lineNumbers :=
                List.forall_mem_cons.mpr ⟨List.mem_of_getElem? hnext, h.returnLines⟩
              exact jumpTo_jump (hstacks.setReturns hnumbers) hended _ _
      | «return» =>
          simp only [follow, Control.transfer, Exec.run_get_bind, hstacks.returns, h.here]
          cases hstack : s.returnStack with
          | nil => exact fail_fail h.toAgree _
          | cons number numbers =>
              have hnumbers := h.returnLines
              rw [hstack] at hnumbers
              obtain ⟨hnumber, hnumbers⟩ := List.forall_mem_cons.mp hnumbers
              exact resume_proceed (hstacks.setReturns hnumbers) hended hnumber _
      | stop => exact leave_finish h.toAgree
      | loopBegin floopVar =>
          simp only [follow, Control.transfer, Exec.run_get_bind, htail, h.line]
          have hnumber : ∀ n ∈ some s.nextStmt.number, n ∈ p.lineNumbers := by simpa using hmem
          have hset := hstacks.setLoop floopVar hnumber
          rw [Option.map_some, ← hcode] at hset
          exact continueAt_proceed hset hended _ fun s hs _ => fail_fail hs.toAgree _
      | loopSkip ftarget =>
          simp only [follow, Control.transfer, Exec.run_get_bind, htail]
          exact skipTo_proceed hstacks hended (skipNext_spec hlines rfl)
      | loopRepeat floopVar =>
          simp only [follow, Control.transfer, Exec.run_get_bind, hstacks.loops, h.here]
          cases hloop : s.returnLoop floopVar with
          | none => exact fail_fail h.toAgree _
          | some number =>
              have hnumber := h.loopLines floopVar number hloop
              have hnone : ∀ n ∈ (none : Option Int), n ∈ p.lineNumbers := by simp
              exact resume_proceed (hstacks.setLoop _ hnone) hended hnumber _
      | whileBegin =>
          simp only [follow, Control.transfer, Exec.run_get_bind, htail, h.line]
          have hnumbers : ∀ n ∈ s.nextStmt.number :: s.whileStack, n ∈ p.lineNumbers :=
            List.forall_mem_cons.mpr ⟨hmem, h.whileLines⟩
          have hset := hstacks.setWhiles hnumbers
          rw [List.map_cons, ← hcode, ← hstacks.whiles] at hset
          exact continueAt_proceed hset hended _ fun s hs _ => fail_fail hs.toAgree _
      | whileSkip =>
          simp only [follow, Control.transfer, Exec.run_get_bind, htail]
          refine skipTo_proceed hstacks hended ?_
          have hspec := skipWend_spec hlines rfl 0
          generalize skipWend 0 _ _ = skipped at hspec
          cases skipped with
          | error e => exact hspec.elim
          | ok found =>
              cases found with
              | none => simp [hspec]
              | some j => simp [hspec.1]
      | whileRepeat =>
          simp only [follow, Control.transfer, Exec.run_get_bind, hstacks.whiles, h.here]
          cases hstack : s.whileStack with
          | nil => exact fail_fail h.toAgree _
          | cons number numbers =>
              have hnumbers := h.whileLines
              rw [hstack] at hnumbers
              obtain ⟨hnumber, hnumbers⟩ := List.forall_mem_cons.mp hnumbers
              exact resume_proceed (hstacks.setWhiles hnumbers) hended hnumber _
      | execute => exact .ok (h.represents hended)

/-- **One line is run in the same way.** -/
theorem executeBody_body (P : Parser σ) (hblanks : p.NoBlanks) (h : Represents p s c)
    (hended : s.ended = false) :
    Ends p ((executeBody P p).run s) ((Control.body P p).run c) := by
  rw [Represents, if_neg (by simp [hended])] at h
  obtain ⟨line, lines, hcode, hstatement⟩ := executeStatement_statement P h hended
  rw [executeBody, Control.body, Exec.run_get_bind, hcode]
  refine hstatement.bind fun flowsignal _ s' c' hat => ?_
  obtain ⟨rfl, hat, hended'⟩ := hat
  rw [Exec.run_update_bind, Exec.run_update_bind]
  have hnext : At p { s' with lastFlowsignal := flowsignal }
      { c' with lastFlowsignal := flowsignal } := { hat with lastFlowsignal := rfl }
  exact follow_transfer hblanks hnext hended' flowsignal

end Body

/-! ### Runs -/

/-- What the statements have done: the data pointer and the state of the parser. -/
def Execution.store (s : Execution σ) : BasicData × σ := (s.data, s.parser)

def Control.store (c : Control σ) : BasicData × σ := (c.data, c.parser)

theorem Agree.store {s : Execution σ} {c : Control σ} (h : Agree s c) : s.store = c.store :=
  Prod.ext h.data h.parser

/-- **The loop of `execute` is the machine**: cut off after any number of lines, it has
ended in the same way or not at all, and the statements have done the same. -/
theorem executeLoop_refines (P : Parser σ) (hblanks : p.NoBlanks) {s : Execution σ} {c : Control σ}
    (h : Represents p s c) (n : Nat) :
    ((executeLoop P p).runFor n s).1 = ((Control.loop P p).runFor n c).1 ∧
      ((executeLoop P p).runFor n s).2.store = ((Control.loop P p).runFor n c).2.store := by
  have hdone : ∀ s c, Represents p s c → (executeLoop P p).done s = (Control.loop P p).done c :=
    fun s c h => by
      change s.ended = c.code.isEmpty
      cases hended : s.ended with
      | true =>
          rw [Represents, if_pos hended] at h
          rw [h.2]
          rfl
      | false =>
          rw [Represents, if_neg (by simp [hended])] at h
          obtain ⟨statement, -, hdrop⟩ := head_drop h.line
          rw [h.code, hdrop]
          rfl
  have hagree : ∀ (s : Execution σ) (c : Control σ), Represents p s c → Agree s c :=
    fun s c h => by
      rw [Represents] at h
      split_ifs at h
      · exact h.1
      · exact h.toAgree
  have hbody : ∀ (s : Execution σ) (c : Control σ), Represents p s c → s.ended = false →
      Ends p ((executeBody P p).run s) ((Control.body P p).run c) :=
    fun s c h hended => executeBody_body P hblanks h hended
  obtain ⟨hresult, hstore, -⟩ := WhileLoop.runFor_alike hdone hagree hbody n h
  exact ⟨hresult, hstore.store⟩

theorem represents_start (P : Parser σ) {number : Int} (h : p.lineNumbers[0]? = some number) :
    Represents p (Execution.start P p number) (Control.start P p number) := by
  rw [Represents, if_neg (by simp [Execution.start])]
  exact {
    lastFlowsignal := rfl
    data := rfl
    parser := rfl
    returns := rfl
    returnLines := by simp [Execution.start]
    loops := fun _ => rfl
    loopLines := by simp [Execution.start]
    whiles := rfl
    whileLines := by simp [Execution.start]
    code := rfl
    here := rfl
    line := h }

/-! ### `execute` -/

/-- What the machine makes of a program. -/
def Control.execute (P : Parser σ) (p : Program) (n : Nat) :
    Option (Except PyExc Unit) × Option (Control σ) :=
  match validateWhileWend p with
  | .error e => (some (.error e), none)
  | .ok () =>
      match p.program.entries with
      | [] => (some (.error (runtimeError "No statements to execute")), none)
      | line :: _ =>
          let (ended, c) := (Control.loop P p).runFor n (Control.start P p line.1)
          (ended, some c)

theorem execute_eq (P : Parser σ) (hblanks : p.NoBlanks) (n : Nat) :
    (execute P p n).1 = (Control.execute P p n).1 ∧
      (execute P p n).2.map Execution.store = (Control.execute P p n).2.map Control.store := by
  rw [execute, Control.execute]
  cases validateWhileWend p with
  | error e => exact ⟨rfl, rfl⟩
  | ok u =>
      have hnumbers : p.lineNumbers = p.program.entries.map Prod.fst := rfl
      cases hentries : p.program.entries with
      | nil =>
          rw [hentries] at hnumbers
          simp [hnumbers]
      | cons line lines =>
          rw [hentries, List.map_cons] at hnumbers
          simp only [hnumbers]
          have hstart : p.lineNumbers[0]? = some line.1 := by rw [hnumbers]; rfl
          obtain ⟨hresult, hstore⟩ := executeLoop_refines P hblanks (represents_start P hstart) n
          exact ⟨hresult, congrArg some hstore⟩

end XeusPywrap.Basic
