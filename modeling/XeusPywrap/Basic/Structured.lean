import XeusPywrap.Basic.WhileLoops

/-!
# XeusPywrap.Basic.Structured

Programs whose only control flow is loops, one inside the other: `Block`. Running them
is what one expects (`Runs`): a line after the other, and a loop again and again, as
long as its first line says so. `execute_structured` says that this is what `execute`
does with its stack of `WHILE` lines and its table of `FOR` lines.
-/

namespace XeusPywrap.Basic

variable {σ : Type}

/-- A `WHILE` loop, or a `FOR` loop with its variable. -/
inductive LoopKind
  | «while»
  | «for» (loopVar : List Char)

/-- The lines of a program as nested loops. -/
inductive Block
  | nil
  | line (l : Line) (rest : Block)
  | loop (kind : LoopKind) (head : Line) (body : Block) (last : Line) (rest : Block)

namespace Block

def flatten : Block → List Line
  | nil => []
  | line l rest => l :: rest.flatten
  | loop _ head body last rest => head :: (body.flatten ++ last :: rest.flatten)

/-- No line is a `NEXT` of the variable. -/
def Avoids (loopVar : List Char) (b : Block) : Prop :=
  ∀ line ∈ b.flatten, isNext loopVar line.2 = false

/-- The lines delimit a loop. No `NEXT` within a `FOR` loop has its variable: the search
for the end of the loop would stop there. -/
def Delimits : LoopKind → Line → Block → Line → Prop
  | .while, head, _, last => bracketOf head = .opening ∧ bracketOf last = .closing
  | .for loopVar, head, body, last =>
      bracketOf head = .plain ∧ body.Avoids loopVar ∧ bracketOf last = .plain ∧
        isNext loopVar last.2 = true

def WellFormed : Block → Prop
  | nil => True
  | line l rest => bracketOf l = .plain ∧ rest.WellFormed
  | loop kind head body last rest =>
      Delimits kind head body last ∧ body.WellFormed ∧ rest.WellFormed

/-- In particular the `WHILE` loops match. -/
theorem WellFormed.exists_forest {b : Block} (h : b.WellFormed) :
    ∃ f : Forest Line, f.Fits bracketOf ∧ f.flatten = b.flatten := by
  induction b with
  | nil => exact ⟨.nil, trivial, rfl⟩
  | line l rest ih =>
      obtain ⟨f, hf, hflat⟩ := ih h.2
      exact ⟨.leaf l f, ⟨h.1, hf⟩, by rw [Forest.flatten, hflat, flatten]⟩
  | loop kind head body last rest ihb ihr =>
      obtain ⟨hdelimits, hbody, hrest⟩ := h
      obtain ⟨f, hf, hflat⟩ := ihb hbody
      obtain ⟨g, hg, hflat'⟩ := ihr hrest
      cases kind with
      | «while» =>
          refine ⟨.block head f last g, ⟨hdelimits.1, hf, hdelimits.2, hg⟩, ?_⟩
          rw [Forest.flatten, hflat, hflat', flatten]
      | «for» loopVar =>
          obtain ⟨hhead, -, hlast, -⟩ := hdelimits
          refine ⟨.leaf head (f.append (.leaf last g)), ⟨hhead, hf.append ⟨hlast, hg⟩⟩, ?_⟩
          rw [Forest.flatten, Forest.flatten_append, Forest.flatten, hflat, hflat', flatten]

end Block

/-! ### What structured programs mean -/

/-- What statements work on. -/
structure Progress (σ : Type) where
  lastFlowsignal : Option FlowSignal
  data : BasicData
  parser : σ

/-- Run the statement of a line. -/
def runLine (P : Parser σ) (line : Line) (st : Progress σ) :
    Except PyExc (Option FlowSignal) × Progress σ :=
  match (P.parse st.lastFlowsignal line.2 (lineRef line.1)).run (st.data, st.parser) with
  | (.ok flowsignal, data, parser) => (.ok flowsignal, ⟨flowsignal, data, parser⟩)
  | (.error e, data, parser) => (.error e, ⟨st.lastFlowsignal, data, parser⟩)

namespace LoopKind

/-- The signal with which the first line of a loop begins the body. -/
def beginning : LoopKind → FlowSignal
  | .while => .whileBegin
  | .for loopVar => .loopBegin loopVar

/-- The signal with which it goes on behind the loop. -/
def skipping : LoopKind → FlowSignal
  | .while => .whileSkip
  | .for loopVar => .loopSkip loopVar

/-- The signal with which the last line goes back to the first. -/
def repeating : LoopKind → FlowSignal
  | .while => .whileRepeat
  | .for loopVar => .loopRepeat loopVar

end LoopKind

/-- How a program can end. -/
inductive Ending
  | completed
  | stopped
  | failed (e : PyExc)

def Ending.result : Ending → Except PyExc Unit
  | completed => .ok ()
  | stopped => .ok ()
  | failed e => .error e

/-- Running a block. -/
inductive Runs (P : Parser σ) : Block → Progress σ → Ending → Progress σ → Prop
  | nil (st : Progress σ) : Runs P .nil st .completed st
  | line {l : Line} {rest : Block} {st st₁ st' : Progress σ} {ending : Ending} :
      runLine P l st = (.ok none, st₁) → Runs P rest st₁ ending st' →
      Runs P (.line l rest) st ending st'
  | stop {l : Line} {rest : Block} {st st' : Progress σ} :
      runLine P l st = (.ok (some .stop), st') → Runs P (.line l rest) st .stopped st'
  | lineFails {l : Line} {rest : Block} {st st' : Progress σ} {e : PyExc} :
      runLine P l st = (.error e, st') → Runs P (.line l rest) st (.failed e) st'
  | headFails {kind : LoopKind} {head last : Line} {body rest : Block} {st st' : Progress σ}
      {e : PyExc} :
      runLine P head st = (.error e, st') →
      Runs P (.loop kind head body last rest) st (.failed e) st'
  | skip {kind : LoopKind} {head last : Line} {body rest : Block} {st st₁ st' : Progress σ}
      {ending : Ending} :
      runLine P head st = (.ok (some kind.skipping), st₁) → Runs P rest st₁ ending st' →
      Runs P (.loop kind head body last rest) st ending st'
  | leave {kind : LoopKind} {head last : Line} {body rest : Block} {st st₁ st' : Progress σ}
      {ending : Ending} :
      runLine P head st = (.ok (some kind.beginning), st₁) → Runs P body st₁ ending st' →
      ending ≠ .completed → Runs P (.loop kind head body last rest) st ending st'
  | lastFails {kind : LoopKind} {head last : Line} {body rest : Block}
      {st st₁ st₂ st' : Progress σ} {e : PyExc} :
      runLine P head st = (.ok (some kind.beginning), st₁) → Runs P body st₁ .completed st₂ →
      runLine P last st₂ = (.error e, st') →
      Runs P (.loop kind head body last rest) st (.failed e) st'
  | again {kind : LoopKind} {head last : Line} {body rest : Block}
      {st st₁ st₂ st₃ st' : Progress σ} {ending : Ending} :
      runLine P head st = (.ok (some kind.beginning), st₁) → Runs P body st₁ .completed st₂ →
      runLine P last st₂ = (.ok (some kind.repeating), st₃) →
      Runs P (.loop kind head body last rest) st₃ ending st' →
      Runs P (.loop kind head body last rest) st ending st'

/-! ### One line of the machine -/

namespace Control

variable {P : Parser σ} {p : Program} {c : Control σ}

def progress (c : Control σ) : Progress σ := ⟨c.lastFlowsignal, c.data, c.parser⟩

def withProgress (c : Control σ) (st : Progress σ) : Control σ :=
  { c with lastFlowsignal := st.lastFlowsignal, data := st.data, parser := st.parser }

/-- The machine at these lines. -/
def moveTo (c : Control σ) (code : List Line) : Control σ :=
  match code with
  | [] => { c with code := [] }
  | line :: lines => { c with code := line :: lines, here := lineRef line.1 }

section MoveTo

variable (c) (code : List Line)

@[simp] theorem code_moveTo : (c.moveTo code).code = code := by cases code <;> rfl

@[simp] theorem whiles_moveTo : (c.moveTo code).whiles = c.whiles := by cases code <;> rfl

@[simp] theorem loops_moveTo : (c.moveTo code).loops = c.loops := by cases code <;> rfl

@[simp] theorem progress_moveTo : (c.moveTo code).progress = c.progress := by cases code <;> rfl

theorem run_proceed : (proceed code finish).run c = (.ok (), c.moveTo code) := by
  cases code <;> rfl

theorem run_proceed_of_ne_nil {code : List Line} (h : code ≠ []) (otherwise : Controlling σ Unit) :
    (proceed code otherwise).run c = (.ok (), c.moveTo code) := by
  cases code with
  | nil => exact absurd rfl h
  | cons line lines => rfl

end MoveTo

/-- The machine is at a line it has come to without a jump. -/
def Reached (c : Control σ) : Prop := ∀ line ∈ c.code.head?, c.here = lineRef line.1

theorem reached_moveTo (c : Control σ) (code : List Line) : (c.moveTo code).Reached := by
  cases code <;> simp [Reached, moveTo]

/-- What one iteration does. -/
theorem run_body {line : Line} {lines : List Line} (hcode : c.code = line :: lines)
    (hhere : c.Reached) :
    (body P p).run c =
      match runLine P line c.progress with
      | (.ok flowsignal, st) => (transfer p flowsignal).run (c.withProgress st)
      | (.error e, st) => (.error e, c.withProgress st) := by
  have hline : c.here = lineRef line.1 := hhere line (by simp [hcode])
  rw [body, Exec.run_get_bind, hcode, runLine, progress, ← hline]
  dsimp only
  rcases hparse : (P.parse c.lastFlowsignal line.2 c.here).run (c.data, c.parser) with
    ⟨r, data, parser⟩
  have hstatement :
      (statement P line.2).run c = (r, { c with data := data, parser := parser }) := by
    rw [statement, Exec.run_get_bind, Exec.run_zoom, hparse]
  cases r with
  | ok flowsignal => exact Exec.run_bind_ok hstatement
  | error e => exact Exec.run_bind_error hstatement

/-! ### Loops of the machine -/

/-- The machine with a loop entered that starts at these lines. -/
def enter (c : Control σ) (code : List Line) : LoopKind → Control σ
  | .while => { c with whiles := code :: c.whiles }
  | .for loopVar => { c with loops := Function.update c.loops loopVar (some code) }

/-- The machine with the loop left. -/
def exit (c : Control σ) : LoopKind → Control σ
  | .while => { c with whiles := c.whiles.tail }
  | .for loopVar => { c with loops := Function.update c.loops loopVar none }

/-- The loop the machine comes back to from the last line of a loop. -/
def loopOf (c : Control σ) : LoopKind → Option (List Line)
  | .while => c.whiles.head?
  | .for loopVar => c.loops loopVar

theorem run_beginning (kind : LoopKind) {line : Line} {lines : List Line}
    (hcode : c.code = line :: lines) (hlines : lines ≠ []) :
    (transfer p (some kind.beginning)).run c =
      (.ok (), (c.enter c.code kind).moveTo lines) := by
  have htail : c.code.tail = lines := by rw [hcode, List.tail_cons]
  cases kind with
  | «while» =>
      simp only [transfer, LoopKind.beginning, Exec.run_get_bind, Exec.run_update_bind, htail]
      rw [run_proceed_of_ne_nil _ hlines, enter]
  | «for» loopVar =>
      simp only [transfer, LoopKind.beginning, Exec.run_get_bind, Exec.run_update_bind, htail]
      rw [run_proceed_of_ne_nil _ hlines, enter]

theorem run_repeating (kind : LoopKind) {code : List Line} (h : c.loopOf kind = some code) :
    (transfer p (some kind.repeating)).run c = (.ok (), (c.exit kind).moveTo code) := by
  cases kind with
  | «while» =>
      obtain ⟨whiles, hwhiles⟩ := List.head?_eq_some_iff.mp h
      simp only [transfer, LoopKind.repeating, Exec.run_get_bind, hwhiles, Exec.run_update_bind]
      rw [run_proceed, exit, hwhiles]
      rfl
  | «for» loopVar =>
      rw [loopOf] at h
      simp only [transfer, LoopKind.repeating, Exec.run_get_bind, h, Exec.run_update_bind]
      rw [run_proceed, exit]

/-- A loop is skipped to what is behind it. -/
theorem run_skipping {kind : LoopKind} {head last : Line} {b : Block} {after : List Line}
    (hdelimits : Block.Delimits kind head b last) (hb : b.WellFormed)
    (hcode : c.code = head :: (b.flatten ++ last :: after)) :
    (transfer p (some kind.skipping)).run c = (.ok (), c.moveTo after) := by
  cases kind with
  | «while» =>
      obtain ⟨f, hf, hflat⟩ := hb.exists_forest
      have hskip : skipFrom bracketOf 0 (b.flatten ++ last :: after) = some after := by
        rw [← hflat, skipFrom_flatten hf, skipFrom_partner hdelimits.2]
      simp only [transfer, LoopKind.skipping, Exec.run_get_bind, hcode, List.tail_cons, hskip,
        Option.getD_some]
      exact run_proceed c after
  | «for» loopVar =>
      obtain ⟨-, havoids, -, hnext⟩ := hdelimits
      have hskip : ((b.flatten ++ last :: after).dropWhile fun line =>
          !isNext loopVar line.2).drop 1 = after := by
        rw [List.dropWhile_append_of_pos fun line hline => by simp [havoids line hline],
          List.dropWhile_cons_of_neg (by simp [hnext])]
        rfl
      simp only [transfer, LoopKind.skipping, Exec.run_get_bind, hcode, List.tail_cons, hskip]
      exact run_proceed c after

/-! ### Following a block -/

theorem step_ok {line : Line} {lines : List Line} {c₁ : Control σ} {flowsignal : Option FlowSignal}
    {st : Progress σ} (hcode : c.code = line :: lines) (hreached : c.Reached)
    (hline : runLine P line c.progress = (.ok flowsignal, st))
    (htransfer : (transfer p flowsignal).run (c.withProgress st) = (.ok (), c₁)) :
    (loop P p).Steps 1 c c₁ := by
  refine .one ?_ ?_
  · simp [loop, hcode]
  · rw [loop, run_body hcode hreached, hline]
    exact htransfer

theorem step_error {line : Line} {lines : List Line} {e : PyExc} {st : Progress σ}
    (hcode : c.code = line :: lines) (hreached : c.Reached)
    (hline : runLine P line c.progress = (.error e, st)) :
    (loop P p).runFor 1 c = (some (.error e), c.withProgress st) := by
  have hrun := run_body (P := P) (p := p) hcode hreached
  rw [hline] at hrun
  simp [WhileLoop.runFor, loop, hcode, hrun]

/-- A block leaves the loops around it as they were. -/
structure Keeps (b : Block) (c c' : Control σ) : Prop where
  whiles : c'.whiles = c.whiles
  loops : ∀ loopVar, b.Avoids loopVar → c'.loops loopVar = c.loops loopVar

/-- The machine behind a block. -/
structure Behind (b : Block) (after : List Line) (st : Progress σ) (c c' : Control σ) : Prop
    extends Keeps b c c' where
  code : c'.code = after
  reached : c'.Reached
  progress : c'.progress = st

/-- The machine ends as the block does, or gets behind it. -/
def Follows (P : Parser σ) (p : Program) (b : Block) (after : List Line) (c : Control σ)
    (ending : Ending) (st : Progress σ) : Prop :=
  match ending with
  | .completed => ∃ n c', (loop P p).Steps n c c' ∧ Behind b after st c c'
  | ending => ∃ n c', (loop P p).runFor n c = (some ending.result, c') ∧ c'.progress = st

/-- Some iterations before. -/
theorem Follows.prepend {b b' : Block} {after after' : List Line} {c c₁ : Control σ}
    {ending : Ending} {st : Progress σ} {n : Nat} (hsteps : (loop P p).Steps n c c₁)
    (h : Follows P p b' after' c₁ ending st)
    (hbehind : ending = .completed → ∀ c', Behind b' after' st c₁ c' → Behind b after st c c') :
    Follows P p b after c ending st := by
  cases ending with
  | completed =>
      obtain ⟨m, c', hsteps', hc'⟩ := h
      exact ⟨n + m, c', hsteps.trans hsteps', hbehind rfl c' hc'⟩
  | stopped =>
      obtain ⟨m, c', hrun, hc'⟩ := h
      exact ⟨n + m, c', (hsteps.runFor_add m).trans hrun, hc'⟩
  | failed e =>
      obtain ⟨m, c', hrun, hc'⟩ := h
      exact ⟨n + m, c', (hsteps.runFor_add m).trans hrun, hc'⟩

/-- From the last line of a loop the machine comes back to the first, with everything
around the loop as it was. -/
theorem keeps_loop {kind : LoopKind} {head last : Line} {b : Block} {lines : List Line}
    {st : Progress σ} {c c₂ : Control σ} (rest : Block) (st' : Progress σ)
    (hdelimits : Block.Delimits kind head b last)
    (h : Keeps b (((c.withProgress st).enter c.code kind).moveTo lines) c₂) :
    c₂.loopOf kind = some c.code ∧
      Keeps (.loop kind head b last rest) c
        (((c₂.withProgress st').exit kind).moveTo c.code) := by
  have havoids : ∀ loopVar, Block.Avoids loopVar (.loop kind head b last rest) →
      b.Avoids loopVar ∧ isNext loopVar last.2 = false := fun loopVar h =>
    ⟨fun line hline => h line (by simp [Block.flatten, hline]), h last (by simp [Block.flatten])⟩
  have hwhiles := h.whiles
  rw [whiles_moveTo] at hwhiles
  cases kind with
  | «while» =>
      have hloops : ∀ loopVar, b.Avoids loopVar → c₂.loops loopVar = c.loops loopVar :=
        fun loopVar hb => (h.loops loopVar hb).trans (by rw [loops_moveTo]; rfl)
      refine ⟨by rw [loopOf, hwhiles]; rfl, ?_, fun loopVar hb => ?_⟩
      · rw [whiles_moveTo]
        exact congrArg List.tail hwhiles
      · rw [loops_moveTo]
        exact hloops loopVar (havoids loopVar hb).1
  | «for» loopVar =>
      have hloops : ∀ v, b.Avoids v → c₂.loops v =
          Function.update c.loops loopVar (some c.code) v :=
        fun v hb => (h.loops v hb).trans (by rw [loops_moveTo]; rfl)
      refine ⟨?_, ?_, fun v hb => ?_⟩
      · rw [loopOf, hloops loopVar hdelimits.2.1, Function.update_self]
      · rw [whiles_moveTo]
        exact hwhiles
      · have hne : v ≠ loopVar := by
          rintro rfl
          exact absurd hdelimits.2.2.2 (by simp [(havoids v hb).2])
        rw [loops_moveTo]
        show Function.update c₂.loops loopVar none v = c.loops v
        rw [Function.update_of_ne hne, hloops v (havoids v hb).1, Function.update_of_ne hne]

theorem flatten_loop (kind : LoopKind) (head : Line) (body : Block) (last : Line) (rest : Block)
    (after : List Line) :
    (Block.loop kind head body last rest).flatten ++ after =
      head :: (body.flatten ++ last :: (rest.flatten ++ after)) := by
  simp [Block.flatten]

theorem progress_exit (c : Control σ) (st : Progress σ) (code : List Line) (kind : LoopKind) :
    (((c.withProgress st).exit kind).moveTo code).progress = st := by
  rw [progress_moveTo]
  cases kind <;> rfl

/-- From its first line the machine gets into the body of a loop. -/
theorem step_beginning {kind : LoopKind} {head last : Line} {body rest : Block}
    {after : List Line} {c : Control σ} {st : Progress σ}
    (hcode : c.code = (Block.loop kind head body last rest).flatten ++ after)
    (hreached : c.Reached) (hline : runLine P head c.progress = (.ok (some kind.beginning), st)) :
    ∃ c₁, (loop P p).Steps 1 c c₁ ∧ c₁.code = body.flatten ++ last :: (rest.flatten ++ after) ∧
      c₁.Reached ∧ c₁.progress = st ∧
      c₁ = ((c.withProgress st).enter c.code kind).moveTo
        (body.flatten ++ last :: (rest.flatten ++ after)) := by
  have hlines := hcode.trans (flatten_loop kind head body last rest after)
  have htransfer := run_beginning (p := p) (c := c.withProgress st) kind hlines (by simp)
  refine ⟨_, step_ok hlines hreached hline htransfer, code_moveTo _ _, reached_moveTo _ _, ?_, rfl⟩
  rw [progress_moveTo]
  cases kind <;> rfl

/-- **The machine runs a block as it is meant.** -/
theorem follows_of_runs {b : Block} {st st' : Progress σ} {ending : Ending}
    (h : Runs P b st ending st') (hb : b.WellFormed) {after : List Line} {c : Control σ}
    (hcode : c.code = b.flatten ++ after) (hreached : c.Reached) (hst : c.progress = st) :
    Follows P p b after c ending st' := by
  induction h generalizing after c with
  | nil st => exact ⟨0, c, .zero c, ⟨rfl, fun _ _ => rfl⟩, hcode, hreached, hst⟩
  | @line l rest st st₁ st' ending hline _ ih =>
      subst hst
      have htransfer : (transfer p none).run (c.withProgress st₁) =
          (.ok (), (c.withProgress st₁).moveTo (rest.flatten ++ after)) := by
        have htail : (c.withProgress st₁).code.tail = rest.flatten ++ after := by
          show c.code.tail = _
          rw [hcode]
          rfl
        rw [transfer, Exec.run_get_bind, htail, run_proceed]
      have hnext := ih hb.2 (code_moveTo (c.withProgress st₁) (rest.flatten ++ after))
        (reached_moveTo _ _) (progress_moveTo (c.withProgress st₁) _)
      refine hnext.prepend (step_ok hcode hreached hline htransfer) fun _ c' hc' => ?_
      refine { hc' with whiles := ?_, loops := fun v hv => ?_ }
      · rw [hc'.whiles, whiles_moveTo]
        rfl
      · rw [hc'.loops v fun line hmem => hv line (List.mem_cons_of_mem l hmem), loops_moveTo]
        rfl
  | @stop l rest st st' hline =>
      subst hst
      have hfinish : (transfer p (some .stop)).run (c.withProgress st') =
          (.ok (), (c.withProgress st').moveTo []) := rfl
      have hstep := step_ok hcode hreached hline hfinish
      exact ⟨1, _, hstep.runFor_add 0, progress_moveTo (c.withProgress st') []⟩
  | @lineFails l rest st st' e hline =>
      subst hst
      exact ⟨1, _, step_error hcode hreached hline, rfl⟩
  | @headFails kind head last body rest st st' e hline =>
      subst hst
      exact ⟨1, _, step_error hcode hreached hline, rfl⟩
  | @skip kind head last body rest st st₁ st' ending hline _ ih =>
      subst hst
      obtain ⟨hdelimits, hbody, hrest⟩ := hb
      have hlines := hcode.trans (flatten_loop kind head body last rest after)
      have htransfer := run_skipping (p := p) (c := c.withProgress st₁) hdelimits hbody hlines
      have hnext := ih hrest (code_moveTo (c.withProgress st₁) (rest.flatten ++ after))
        (reached_moveTo _ _) (progress_moveTo (c.withProgress st₁) _)
      refine hnext.prepend (step_ok hlines hreached hline htransfer) fun _ c' hc' => ?_
      refine { hc' with whiles := ?_, loops := fun v hv => ?_ }
      · rw [hc'.whiles, whiles_moveTo]
        rfl
      · have hrestAvoids : rest.Avoids v := fun line hmem =>
          hv line (by simp [Block.flatten, hmem])
        rw [hc'.loops v hrestAvoids, loops_moveTo]
        rfl
  | @leave kind head last body rest st st₁ st' ending hline _ hne ih =>
      subst hst
      obtain ⟨c₁, hstep, hcode₁, hreached₁, hst₁, -⟩ := step_beginning (p := p) hcode hreached hline
      have hnext := ih hb.2.1 hcode₁ hreached₁ hst₁
      exact hnext.prepend hstep fun heq => absurd heq hne
  | @lastFails kind head last body rest st st₁ st₂ st' e hline _ hlast ih =>
      subst hst
      obtain ⟨c₁, hstep, hcode₁, hreached₁, hst₁, -⟩ := step_beginning (p := p) hcode hreached hline
      obtain ⟨n, c₂, hsteps, hc₂⟩ := ih hb.2.1 hcode₁ hreached₁ hst₁
      obtain rfl := hc₂.progress
      have hfail := step_error (p := p) hc₂.code hc₂.reached hlast
      exact ⟨1 + n + 1, _, ((hstep.trans hsteps).runFor_add 1).trans hfail, rfl⟩
  | @again kind head last body rest st st₁ st₂ st₃ st' ending hline _ hlast _ ihb ihl =>
      subst hst
      obtain ⟨c₁, hstep, hcode₁, hreached₁, hst₁, rfl⟩ :=
        step_beginning (p := p) hcode hreached hline
      obtain ⟨n, c₂, hsteps, hc₂⟩ := ihb hb.2.1 hcode₁ hreached₁ hst₁
      obtain rfl := hc₂.progress
      obtain ⟨hloop, hkeeps⟩ := keeps_loop rest st₃ hb.1 hc₂.toKeeps
      have hback : (transfer p (some kind.repeating)).run (c₂.withProgress st₃) =
          (.ok (), ((c₂.withProgress st₃).exit kind).moveTo c.code) :=
        run_repeating kind (by rw [← hloop]; cases kind <;> rfl)
      -- The machine is at the head of the loop again, and the rest of the run follows.
      have hcode₃ := (code_moveTo ((c₂.withProgress st₃).exit kind) c.code).trans hcode
      have hnext := ihl hb hcode₃ (reached_moveTo _ _) (progress_exit c₂ st₃ c.code kind)
      have hsteps' := (hstep.trans hsteps).trans (step_ok hc₂.code hc₂.reached hlast hback)
      refine hnext.prepend hsteps'
        fun _ c' hc' => { hc' with whiles := ?_, loops := fun v hv => ?_ }
      · exact hc'.whiles.trans hkeeps.whiles
      · exact (hc'.loops v hv).trans (hkeeps.loops v hv)

end Control

/-! ### `execute` -/

theorem ended_of_follows {P : Parser σ} {p : Program} {b : Block} {c : Control σ}
    {ending : Ending} {st : Progress σ} (h : Control.Follows P p b [] c ending st) :
    ∃ n c', (Control.loop P p).runFor n c = (some ending.result, c') ∧ c'.progress = st := by
  cases ending with
  | completed =>
      obtain ⟨n, c', hsteps, hc'⟩ := h
      refine ⟨n, c', (hsteps.runFor_add 0).trans ?_, hc'.progress⟩
      simp [WhileLoop.runFor, Control.loop, hc'.code, Ending.result]
  | stopped => exact h
  | failed e => exact h

/-- **Structured programs run as they are meant**: if the lines of the program are a
block, in which no `NEXT` has the variable of a `FOR` loop further out, and running the
block comes to an end, then `execute` comes to the same end, and its statements have done
the same. -/
theorem execute_structured {P : Parser σ} {p : Program} {b : Block} {ending : Ending}
    {st : Progress σ} (hblanks : p.NoBlanks) (hb : b.WellFormed) (hne : b.flatten ≠ [])
    (hlines : p.program.entries = b.flatten)
    (hruns : Runs P b ⟨none, p.data.restoreStart, P.initial⟩ ending st) :
    ∃ n s, execute P p n = (some ending.result, some s) ∧ s.store = (st.data, st.parser) := by
  obtain ⟨f, hf, hflat⟩ := hb.exists_forest
  have hvalidate := validateWhileWend_of_forest hf (hflat.trans hlines.symm)
  obtain ⟨line, lines, hcons⟩ := List.exists_cons_of_ne_nil hne
  have hnumbers : p.lineNumbers = line.1 :: lines.map Prod.fst := by
    rw [Program.lineNumbers, OrderedDict.keys, hlines, hcons, List.map_cons]
  have hcode : (Control.start P p line.1).code = b.flatten ++ [] := by
    rw [List.append_nil, ← hlines]
    rfl
  have hreached : (Control.start P p line.1).Reached := by
    intro l hl
    rw [hcode, List.append_nil, hcons, List.head?_cons, Option.mem_def, Option.some.injEq] at hl
    exact hl ▸ rfl
  obtain ⟨n, c, hrun, rfl⟩ :=
    ended_of_follows (Control.follows_of_runs (p := p) hruns hb hcode hreached rfl)
  have hstart : p.lineNumbers[0]? = some line.1 := by rw [hnumbers]; rfl
  obtain ⟨hresult, hstore⟩ := executeLoop_refines P hblanks (represents_start P hstart) n
  rw [hrun] at hresult hstore
  refine ⟨n, ((executeLoop P p).runFor n (Execution.start P p line.1)).2, ?_, hstore⟩
  rw [execute, hvalidate, hnumbers]
  simp only [hresult]

/-- A parser for which `WHILE` asks for one repetition, which any other line makes. -/
def oneRepetition : Parser Nat where
  initial := 0
  parse _ tokens _ :=
    match tokens.head?.bind Token.category with
    | some .while => do
        let s ← Exec.get
        pure (some (if s.2 = 0 then .whileBegin else .whileSkip))
    | some .wend => pure (some .whileRepeat)
    | _ => do
        Exec.update fun s => (s.1, s.2 + 1)
        pure none

theorem execute_structured_whileLines :
    ∃ n s, execute oneRepetition whileLines n = (some (.ok ()), some s) ∧
      s.store = (whileLines.data.restoreStart, 1) := by
  have hblanks : whileLines.NoBlanks := by simp [Program.NoBlanks, whileLines]
  let head : Line := (10, [⟨some .while, "WHILE".toList⟩])
  let line : Line := (20, [⟨some .print, "PRINT".toList⟩])
  let wend : Line := (30, [⟨some .wend, "WEND".toList⟩])
  let b : Block := .loop .while head (.line line .nil) wend .nil
  have hb : b.WellFormed := ⟨⟨rfl, rfl⟩, ⟨rfl, trivial⟩, trivial⟩
  have hruns : Runs oneRepetition b ⟨none, whileLines.data.restoreStart, 0⟩ .completed
      ⟨some .whileSkip, whileLines.data.restoreStart, 1⟩ :=
    .again rfl (.line rfl (.nil _)) rfl (.skip rfl (.nil _))
  exact execute_structured hblanks hb (List.cons_ne_nil _ _) rfl hruns

end XeusPywrap.Basic
