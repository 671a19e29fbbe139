import XeusPywrap.Kernel.Publications
import XeusPywrap.Shakespeare.Published

/-!
# XeusPywrap.Shakespeare.Interpreter

`xeus_shakespearelang/__init__.py`: the kernel runs a cell as a play. Its class
derives from `BlockingInterpreterBase`, so a cell is a call of user code in the
sense of the kernel model, and `userPublications_of_play` carries what a play
publishes to what the kernel publishes for the cell; `served_play` adds how the cell
is answered.
-/

namespace XeusPywrap

variable {V : Type}

/-- How `execute_request` ends when the run of the play ended; nothing, while the play
waits for input. -/
def outcomeOf (lib : Libraries) : Except Halt Unit → Option Outcome
  | .ok () => some (.returned (.json lib.pyCreateSuccessfulReply))
  | .error (.raised e) => some (.raised e)
  | .error .waiting => none

/-- `Interpreter.execute_request`: parse the cell, run the play for at most `n`
operations with a user who will enter the lines. The styles are the defaults, under
which nothing is printed, so `buf` stays empty and is not published. -/
def executeRequest (lib : Libraries) (u : Unicode) (parse : String → Except PyExc PlayAst)
    (lines : List (List Char)) (n : Nat) (code : String) : Option (UserCall V) :=
  match parse code with
  | .error e => some ⟨[], .raised e⟩
  | .ok ast =>
      match Shakespeare.new ast lines with
      | .error e => some ⟨[], .raised e⟩
      | .ok (play, p) =>
          let (ended, p') := (runLoop lib u play).runFor n p
          (ended.bind (outcomeOf lib)).map fun outcome =>
            ⟨p'.published.map fun text => .publish (stdoutPublication text), outcome⟩

/-- **A cell publishes what its play publishes**, text by text and in order, and
nothing else on the user's account. -/
theorem userPublications_of_play {env : Env} (hbase : env.base = .blocking) (k : Kernel V) (c : V)
    (args : ExecuteArgs) {u : Unicode} {parse : String → Except PyExc PlayAst}
    {lines : List (List Char)} {n : Nat} {call : UserCall V} {ast : PlayAst} {play : Play}
    {p : Performance} (hparse : parse args.code = .ok ast)
    (hnew : Shakespeare.new ast lines = .ok (play, p))
    (hcall : executeRequest env.lib u parse lines n args.code = some call) :
    userPublications (k.served env (.execute c args) call).log =
      ((runLoop env.lib u play).runFor n p).2.published.map stdoutPublication := by
  rw [userPublications_served hbase]
  simp only [executeRequest, hparse, hnew] at hcall
  obtain ⟨outcome, -, rfl⟩ := Option.map_eq_some_iff.mp hcall
  rw [List.filterMap_map]
  exact congrFun List.filterMap_eq_map' _

/-- The calls of a cell whose play begins: one for every cut at which the run has ended,
if it does not wait for input there. -/
theorem executeRequest_eq_some_iff {lib : Libraries} {u : Unicode}
    {parse : String → Except PyExc PlayAst} {lines : List (List Char)} {n : Nat} {code : String}
    {call : UserCall V} {ast : PlayAst} {play : Play} {p : Performance}
    (hparse : parse code = .ok ast) (hnew : Shakespeare.new ast lines = .ok (play, p)) :
    executeRequest lib u parse lines n code = some call ↔
      ∃ r p' outcome, (runLoop lib u play).runFor n p = (some r, p') ∧
        outcomeOf lib r = some outcome ∧
        call = ⟨p'.published.map fun text => .publish (stdoutPublication text), outcome⟩ := by
  simp only [executeRequest, hparse, hnew]
  rcases (runLoop lib u play).runFor n p with ⟨ended, p'⟩
  cases ended with
  | none => simp
  | some r => simp [eq_comm]

/-- **A cell of the Shakespeare kernel.** If the loop of its play ends and does not wait
for input, the call for the cell ends, and the kernel publishes what the play publishes,
text by text, and nothing else on the user's account. The cell is answered if and only
if the play ends without an exception. -/
theorem served_play {env : Env} (hbase : env.base = .blocking) (k : Kernel V) (c : V)
    (args : ExecuteArgs) {u : Unicode} {parse : String → Except PyExc PlayAst}
    {lines : List (List Char)} {n : Nat} {ast : PlayAst} {play : Play} {p p' : Performance}
    {r : Except Halt Unit} (hparse : parse args.code = .ok ast)
    (hnew : Shakespeare.new ast lines = .ok (play, p))
    (hrun : (runLoop env.lib u play).runFor n p = (some r, p')) (hr : r ≠ .error .waiting) :
    (∃ call, executeRequest (V := V) env.lib u parse lines n args.code = some call) ∧
      ∀ m call, executeRequest env.lib u parse lines m args.code = some call →
        userPublications (k.served env (.execute c args) call).log =
          p'.published.map stdoutPublication ∧
        deliveries (k.served env (.execute c args) call).log =
          match r with
          | .ok () => [(k.requests.length, env.lib.pyCreateSuccessfulReply)]
          | .error _ => [] := by
  constructor
  · obtain ⟨outcome, houtcome⟩ : ∃ outcome, outcomeOf env.lib r = some outcome := by
      cases r with
      | ok => exact ⟨_, rfl⟩
      | error halt =>
          cases halt with
          | waiting => exact absurd rfl hr
          | raised e => exact ⟨_, rfl⟩
    exact ⟨_, (executeRequest_eq_some_iff hparse hnew).mpr
      ⟨r, p', outcome, hrun, houtcome, rfl⟩⟩
  · intro m call hcall
    have hpublications := userPublications_of_play hbase k c args hparse hnew hcall
    obtain ⟨r', p'', outcome, hrun', houtcome, rfl⟩ :=
      (executeRequest_eq_some_iff hparse hnew).mp hcall
    obtain ⟨rfl, rfl⟩ := WhileLoop.ended_unique _ hrun hrun'
    rw [hrun'] at hpublications
    refine ⟨hpublications, ?_⟩
    rw [deliveries_served hbase]
    cases r with
    | ok =>
        obtain rfl := Option.some.inj houtcome
        rfl
    | error halt =>
        cases halt with
        | waiting => exact absurd rfl hr
        | raised e =>
            obtain rfl := Option.some.inj houtcome
            rfl

/-- A cell with Romeo's mind, a null character. -/
def silentMind : ExecuteArgs := ⟨1, "Speak your mind!", false, true, .obj [], true⟩

/-- The play in it, as the parser reads it. -/
def parseSilentMind (_ : String) : Except PyExc PlayAst :=
  .ok (julietSays [⟨none, .output .char⟩])

theorem served_play_of_silentMind :
    ∃ play p p',
      Shakespeare.new (julietSays [⟨none, .output .char⟩]) [] = .ok (play, p) ∧
      (runLoop Libraries.documented Unicode.ascii play).runFor 4 p = (some (.ok ()), p') ∧
      (∃ call, executeRequest (V := Nat) Libraries.documented Unicode.ascii parseSilentMind [] 4
        silentMind.code = some call) ∧
      ∀ m call, executeRequest Libraries.documented Unicode.ascii parseSilentMind [] m
          silentMind.code = some call →
        userPublications ((Kernel.initial : Kernel Nat).served (plainKernel .blocking)
          (.execute 7 silentMind) call).log = p'.published.map stdoutPublication ∧
        deliveries ((Kernel.initial : Kernel Nat).served (plainKernel .blocking)
          (.execute 7 silentMind) call).log =
          [(0, Libraries.documented.pyCreateSuccessfulReply)] := by
  have hbase : (plainKernel .blocking).base = .blocking := rfl
  have hparse : parseSilentMind silentMind.code = .ok (julietSays [⟨none, .output .char⟩]) := rfl
  obtain ⟨⟨play, p⟩, hnew⟩ :
      ∃ new, Shakespeare.new (julietSays [⟨none, .output .char⟩]) [] = .ok new := ⟨_, rfl⟩
  obtain ⟨p', hrun⟩ : ∃ p', (runLoop Libraries.documented Unicode.ascii play).runFor 4 p =
      (some (.ok ()), p') := by
    obtain ⟨rfl, rfl⟩ := Prod.mk.inj (Except.ok.inj hnew)
    exact ⟨_, rfl⟩
  exact ⟨play, p, p', hnew, hrun,
    served_play hbase Kernel.initial 7 silentMind hparse hnew hrun (by simp)⟩

end XeusPywrap
