import XeusPywrap.Brainfuck.Refinement
import XeusPywrap.Kernel.Publications

/-!
# XeusPywrap.Brainfuck.Interpreter

`xeus_brainfuck/__init__.py`: a cell is a Brainfuck program. Its class derives from
`BlockingInterpreterBase`, so what the kernel does for a cell is what the blocking
kernel does for the call: `served_cell` joins it to the meaning of the program.
-/

namespace XeusPywrap.Brainfuck

variable {V : Type}

/-- The call for a cell whose program ended: a failing one raises its exception. -/
def callOf (lib : Libraries) (result : Except PyExc Unit) (s : Evaluation) : UserCall V :=
  ⟨s.published.map fun text => .publish (stdoutPublication text),
    match result with
    | .ok () => .returned (.json lib.pyCreateSuccessfulReply)
    | .error e => .raised e⟩

/-- `Interpreter.execute_request`, for a program that ends within `n` commands. -/
def executeRequest (lib : Libraries) (n : Nat) (code : String) : Option (UserCall V) :=
  let (ended, s) := evaluate lib code n
  ended.map fun result => callOf lib result s

/-- The publication of a byte that is written. -/
def bytePublication (b : BitVec 8) : Publication :=
  .stream "stdout" (String.ofList [Char.ofNat b.toNat])

theorem executeRequest_eq_some_iff {lib : Libraries} {n : Nat} {code : String}
    {call : UserCall V} :
    executeRequest lib n code = some call ↔
      ∃ r s, evaluate lib code n = (some r, s) ∧ call = callOf lib r s := by
  rw [executeRequest]
  rcases evaluate lib code n with ⟨ended, s⟩
  cases ended with
  | none => simp
  | some r => simp [eq_comm]

/-- **A cell of the Brainfuck kernel.** If the program of the cell means a result and a
tape, the call for the cell ends, and the kernel publishes what is on the tape's output,
byte by byte, and nothing else on the user's account. The cell is answered if and only
if the result is not an exception. -/
theorem served_cell {env : Env} (hbase : env.base = .blocking) (k : Kernel V) (c : V)
    (args : ExecuteArgs) {r : Except PyExc Unit} {t : Tape} (hmeans : Means args.code r t) :
    (∃ n call, executeRequest (V := V) env.lib n args.code = some call) ∧
      ∀ n call, executeRequest env.lib n args.code = some call →
        userPublications (k.served env (.execute c args) call).log =
          t.output.map bytePublication ∧
        deliveries (k.served env (.execute c args) call).log =
          match r with
          | .ok () => [(k.requests.length, env.lib.pyCreateSuccessfulReply)]
          | .error _ => [] := by
  obtain ⟨m, s, hevaluate, hs⟩ : ∃ m s, evaluate env.lib args.code m = (some r, s) ∧
      Represents s t := evaluate_of_means hmeans
  refine ⟨⟨m, _, executeRequest_eq_some_iff.mpr ⟨r, s, hevaluate, rfl⟩⟩, ?_⟩
  intro n call hcall
  -- a call that ends has run the program to an end, and there is only one
  obtain ⟨r', s', hended, rfl⟩ := executeRequest_eq_some_iff.mp hcall
  obtain ⟨rfl, rfl⟩ := evaluate_unique hevaluate hended
  rw [userPublications_served hbase, deliveries_served hbase]
  constructor
  · rw [callOf.eq_def, List.filterMap_map, hs.output, List.filterMap_map]
    exact congrFun List.filterMap_eq_map' _
  · cases r <;> rfl

/-- The arguments of the first cell of a session, with the program `+.`. -/
def incrementCell : ExecuteArgs := ⟨1, "+.", false, true, .obj [], true⟩

theorem served_cell_increment :
    ∃ t, Means "+." (.ok ()) t ∧
      (∃ n call, executeRequest (V := Nat) Libraries.documented n "+." = some call) ∧
      ∀ n call, executeRequest Libraries.documented n "+." = some call →
        userPublications ((Kernel.initial : Kernel Nat).served (plainKernel .blocking)
          (.execute 0 incrementCell) call).log = t.output.map bytePublication ∧
        deliveries ((Kernel.initial : Kernel Nat).served (plainKernel .blocking)
          (.execute 0 incrementCell) call).log =
          [(0, Libraries.documented.pyCreateSuccessfulReply)] := by
  obtain ⟨s, hevaluate⟩ :
      ∃ s, evaluate Libraries.documented "+." 2 = (some (.ok ()), s) := ⟨_, rfl⟩
  obtain ⟨t, hmeans, -⟩ := means_of_evaluate hevaluate
  have hbase : (plainKernel .blocking).base = .blocking := rfl
  exact ⟨t, hmeans, served_cell hbase Kernel.initial 0 incrementCell hmeans⟩

end XeusPywrap.Brainfuck
