import XeusPywrap.Kernel.PublishContext
import XeusPywrap.Runner.MessageTrace

/-!
# XeusPywrap.Runner.Kernel

The kernel as the guest of the runner.

A shell message is a request, a task step is a step of a kernel task, so a run of
the runner contains a run of the kernel (`kernel_run`), and everything that holds
of all kernel runs holds of the kernel inside the runner. What the runner needs to
know in return is how a callback ends: serving a request never raises, because
every handler catches what the user's code raises (`serve_fault`); a task step may.
-/

namespace XeusPywrap

variable {V L : Type}

/-- The kernel, with a request and what the user's method does for it as a shell
message, and a step of the task with a number as a task step. -/
def kernelGuest (env : Env) :
    Guest (Kernel V) (Request V × UserCall V) (Nat × CoroutineStep V) where
  notifyShellListener msg k := k.serve env msg.1 msg.2
  resume t k := k.resume env t.1 t.2

/-- The runner with a kernel in it. -/
abbrev KernelRunner (V L : Type) := Runner (Kernel V) (Request V × UserCall V) L

abbrev KernelRunnerAction (V : Type) :=
  RunnerAction (Request V × UserCall V) (Nat × CoroutineStep V)

/-- The runner of a kernel that has just been constructed. -/
def kernelRunner (env : Env) (notifyInternalListener : L → String → String × L) (listener : L) :
    Machine (KernelRunner V L) (KernelRunnerAction V) :=
  runnerMachine (kernelGuest env) notifyInternalListener Kernel.initial listener

/-! ### How callbacks end -/

/-- The phase of the loop after a callback that ended like this. -/
def phaseAfter : Option Fault → Phase
  | none => .running
  | some .terminate => .terminated
  | some (.raised e) => if e.exitsLoop then .raised (runMain e) else .running

theorem phase_afterCallback {K M : Type} {r : Runner K M L} (h : r.phase = .running)
    (fault : Option Fault) : (r.afterCallback fault).phase = phaseAfter fault := by
  rcases fault with _ | e | _
  · exact h
  · simp only [Runner.afterCallback, phaseAfter]
    split
    · rfl
    · exact h
  · rfl

theorem guest_afterCallback {K M : Type} (r : Runner K M L) (fault : Option Fault) :
    (r.afterCallback fault).guest = r.guest := by
  rcases fault with _ | e | _
  · rfl
  · simp only [Runner.afterCallback]
    split <;> rfl
  · rfl

/-- **What a step of the runner does to the loop and the guest**: nothing; or the loop
is left because it was told to stop; or the guest handles a message; or a task
takes a step. -/
theorem step_cases {K M T : Type} {g : Guest K M T}
    {notifyInternalListener : L → String → String × L} {r r' : Runner K M L}
    {a : RunnerAction M T} (h : Runner.Step g notifyInternalListener r a r') :
    (r'.guest = r.guest ∧ r'.phase = r.phase ∧ ∀ t bySend, a ≠ .task t bySend) ∨
      (a = .leave ∧ r.stopping = true ∧ r'.guest = r.guest ∧ r'.phase = .returned) ∨
      (∃ msg byRead bySend, a = .readShell byRead bySend ∧ r.phase = .running ∧
        r'.guest = (g.notifyShellListener msg r.guest).state ∧
        r'.phase = phaseAfter (g.notifyShellListener msg r.guest).fault) ∨
      ∃ t bySend re, a = .task t bySend ∧ r.phase = .running ∧ g.resume t r.guest = some re ∧
        r'.guest = re.state ∧ r'.phase = phaseAfter re.fault := by
  cases h with
  | shellRead byRead bySend msg shell hrunning =>
      exact Or.inr (Or.inr (Or.inl ⟨msg, byRead, bySend, rfl, hrunning, guest_afterCallback _ _,
        phase_afterCallback (by exact hrunning) _⟩))
  | task t bySend re hrunning _ hre =>
      exact Or.inr (Or.inr (Or.inr ⟨t, bySend, re, rfl, hrunning, hre, guest_afterCallback _ _,
        phase_afterCallback (by exact hrunning) _⟩))
  | leave hstopping => exact Or.inr (Or.inl ⟨rfl, hstopping, rfl, rfl⟩)
  -- Arrivals, the bookkeeping of the loop and the controller leave the guest alone; `stop`
  -- asks the loop to leave, and the phase changes when it does.
  | _ => exact Or.inl ⟨rfl, rfl, by simp⟩

theorem shell_afterCallback {K M : Type} (r : Runner K M L) (fault : Option Fault) :
    (r.afterCallback fault).shell = r.shell := by
  rcases fault with _ | e | _
  · rfl
  · simp only [Runner.afterCallback]
    split <;> rfl
  · rfl

theorem active_afterCallback {K M : Type} {r : Runner K M L} (h : r.active = none)
    (fault : Option Fault) : (r.afterCallback fault).active = none := by
  rcases fault with _ | e | _
  · exact h
  · simp only [Runner.afterCallback]
    split <;> rfl
  · rfl

/-- What a task step does: the guest's task takes the step, the replies it sends touch
the shell socket, and nothing is read. -/
structure TaskStep {K M T : Type} (g : Guest K M T) (t : T) (bySend : Bool)
    (r r' : Runner K M L) (re : Reaction K) : Prop where
  resumed : g.resume t r.guest = some re
  trace : SameTrace r r'
  shell : r'.shell = r.shell.touch (bySend && decide (0 < re.sends))
  phase : r'.phase = phaseAfter re.fault
  active : r'.active = none

theorem taskStep_resumed {K M T : Type} {g : Guest K M T} {r : Runner K M L} {t : T}
    {re : Reaction K} (hrunning : r.phase = .running) (hactive : r.active = none)
    (hre : g.resume t r.guest = some re) (bySend : Bool) :
    TaskStep g t bySend r (r.resumed re bySend) re :=
  ⟨hre, sameTrace_resumed r re bySend, shell_afterCallback _ _,
    phase_afterCallback (by exact hrunning) _, active_afterCallback (by exact hactive) _⟩

theorem taskStep_of_step {K M T : Type} {g : Guest K M T}
    {notifyInternalListener : L → String → String × L} {r r' : Runner K M L} {t : T}
    {bySend : Bool} (h : Runner.Step g notifyInternalListener r (.task t bySend) r') :
    ∃ re, TaskStep g t bySend r r' re := by
  cases h with
  | task t bySend re hrunning hactive hre =>
      exact ⟨re, taskStep_resumed hrunning hactive hre bySend⟩

/-- Serving a request raises nothing: it returns, or the process dies. -/
theorem serve_fault (env : Env) (k : Kernel V) (r : Request V) (call : UserCall V) :
    (k.serve env r call).fault = none ∨ (k.serve env r call).fault = some .terminate := by
  show faultOf ((handleRequest env call k.requests.length r).run
    (World.start k.shellContext)).1 = none ∨ faultOf ((handleRequest env call k.requests.length
      r).run (World.start k.shellContext)).1 = some .terminate
  cases r with
  | execute c args =>
      obtain ⟨w, hrun, -⟩ :=
        run_handleRequest_execute env call k.requests.length c args k.shellContext
      rw [hrun]
      exact Or.inl rfl
  | query q =>
      rcases hr : (q.attempt env call).run (World.start k.shellContext) with ⟨r, w₁⟩
      rw [run_handleRequest_query env call _ q hr]
      rcases r with (e | _) | reply
      · cases requestContextIn w₁.context with
        | none => exact Or.inr rfl
        | some c => exact Or.inl rfl
      · exact Or.inr rfl
      · exact Or.inl rfl

/-- The process is alive unless the callback terminated it. -/
theorem alive_of_running {α : Type} {result : Except Fault α}
    (h : phaseAfter (faultOf result) = .running) : survives result = true := by
  rcases result with (e | _) | a
  · rfl
  · simp [faultOf, phaseAfter] at h
  · rfl

/-! ### The run of the kernel inside a run of the runner -/

variable {env : Env} {notifyInternalListener : L → String → String × L} {listener : L}

/-- The kernel inside the runner goes through a run of its own. -/
theorem kernel_run {as : List (KernelRunnerAction V)} {r : KernelRunner V L}
    (h : (kernelRunner env notifyInternalListener listener).run as = some r) :
    (∃ ks, (kernelMachine V env).run ks = some r.guest) ∧
      (r.phase = .running → r.guest.alive = true) := by
  refine Machine.run_invariant (I := fun r : KernelRunner V L =>
    (∃ ks, (kernelMachine V env).run ks = some r.guest) ∧
      (r.phase = .running → r.guest.alive = true)) ⟨⟨[], rfl⟩, fun _ => rfl⟩ ?_ h
  rintro r a r' ⟨⟨ks, hks⟩, halive⟩ hstep
  -- The first two kinds of step extend the run of the kernel by nothing, the last two by
  -- the request that was read and by the step of the task.
  rcases step_cases (runnerMachine_sound hstep) with ⟨hguest, hphase, -⟩ |
    ⟨-, -, hguest, hphase⟩ | ⟨msg, byRead, bySend, rfl, hrunning, hguest, hphase⟩ |
    ⟨t, bySend, re, rfl, hrunning, hre, hguest, hphase⟩
  · rw [hguest, hphase]
    exact ⟨⟨ks, hks⟩, halive⟩
  · rw [hguest, hphase]
    exact ⟨⟨ks, hks⟩, by simp⟩
  · refine ⟨⟨ks ++ [.serve msg.1 msg.2], ?_⟩, fun hrun => ?_⟩
    · rw [Machine.run_snoc, hks, hguest]
      simp [kernelMachine, halive hrunning, kernelGuest]
    · rw [hguest]
      exact alive_of_running (hphase.symm.trans hrun)
  · have hre' : r.guest.resume env t.1 t.2 = some re := hre
    refine ⟨⟨ks ++ [.resume t.1 t.2], ?_⟩, fun hrun => ?_⟩
    · rw [Machine.run_snoc, hks, hguest]
      simp [kernelMachine, halive hrunning, hre']
    · obtain ⟨t', -, -, hstate, -, hfault⟩ := Kernel.resume_cases hre'
      rw [hguest, hstate]
      exact alive_of_running (by rw [← hfault]; exact hphase.symm.trans hrun)

/-- So the kernel inside the runner keeps contexts apart. -/
theorem isolated_of_runnerRun {as : List (KernelRunnerAction V)} {r : KernelRunner V L}
    (h : (kernelRunner env notifyInternalListener listener).run as = some r) :
    Isolated r.guest := by
  obtain ⟨⟨ks, hks⟩, -⟩ := kernel_run h
  exact isolated_of_run hks

end XeusPywrap
