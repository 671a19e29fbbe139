import XeusPywrap.Runner.Kernel

/-!
# XeusPywrap.Runner.StrandedMessages

Messages that wait for a wake-up that never comes.

The shell descriptor is edge-triggered: an arrival raises it, and any use of the
socket may clear it while messages are queued. The shell doorbell is safe, because
it reads until the queue is empty, and so is a blocking kernel, which replies
inside the doorbell. A task of an async kernel replies between two doorbells, and
its send can consume the edge of a message that has just arrived. `Ready` is what
the loop keeps up otherwise, and `nothingStranded_iff` says when it does.
-/

namespace XeusPywrap

variable {V L : Type}

/-- In every state of the run before `stop` in which no callback is running, a queued
shell message is signalled. -/
def NothingStranded (env : Env) (notifyInternalListener : L → String → String × L) (listener : L)
    (as : List (KernelRunnerAction V)) : Prop :=
  ∀ n r, (kernelRunner env notifyInternalListener listener).run (as.take n) = some r →
    r.phase = .running → ¬ r.Stopped → r.active = none → r.shell.Awake

/-- The step of the task with this number sends a reply. -/
def Kernel.stepReplies (lib : Libraries) (k : Kernel V) (n : Nat) (step : CoroutineStep V) :
    Bool :=
  k.tasks[n]?.any fun t => !(t.kind.delivers lib step.ends).isEmpty

/-! ### The replies of a task step -/

/-- A task step sends its replies and nothing else. -/
theorem sends_iff_stepReplies {env : Env} {k : Kernel V} (hiso : Isolated k) {n : Nat}
    {step : CoroutineStep V} {re : Reaction (Kernel V)} (hre : k.resume env n step = some re) :
    0 < re.sends ↔ k.stepReplies env.lib n step = true := by
  obtain ⟨t, ht, -, -, hsends, -⟩ := Kernel.resume_cases hre
  rw [hsends, (hiso.task_step env (List.mem_of_getElem? ht) step).1, Kernel.stepReplies, ht,
    Option.any_some, List.length_pos_iff, Bool.not_eq_true', List.isEmpty_eq_false_iff]

/-- A task step that replies raises nothing. -/
theorem phase_of_stepReplies {env : Env} {k : Kernel V} (hiso : Isolated k) {n : Nat}
    {step : CoroutineStep V} {re : Reaction (Kernel V)} (hre : k.resume env n step = some re)
    (hreplies : k.stepReplies env.lib n step = true) : phaseAfter re.fault = .running := by
  obtain ⟨t, ht, -, -, -, hfault⟩ := Kernel.resume_cases hre
  have hmem : t ∈ k.tasks := List.mem_of_getElem? ht
  rw [Kernel.stepReplies, ht, Option.any_some] at hreplies
  cases hkind : t.kind with
  | user => simp [hkind] at hreplies
  | wrapped cb args =>
      obtain ⟨howner, c, hc⟩ := hiso.wrappedOwner t hmem cb args hkind
      obtain ⟨r, w, hrun, -, hout⟩ :=
        t.run_code env step (hiso.task t hmem c (howner ▸ hc))
      rw [hfault, hrun, hout, hkind]
      rw [hkind] at hreplies
      cases hends : step.ends with
      | none => rfl
      | some outcome =>
          have hreply : (env.lib.asyncReply outcome).isSome := by
            rw [hends] at hreplies
            cases hout : env.lib.asyncReply outcome with
            | none => simp [TaskKind.delivers, hout] at hreplies
            | some reply => rfl
          rw [TaskKind.letsOut, Libraries.asyncFault_of_asyncReply hreply]
          rfl

/-! ### The invariant of the loop -/

/-- A queued shell message is signalled, unless the doorbell is about to read it. -/
def Ready {K M : Type} (r : Runner K M L) : Prop :=
  r.phase = .running → r.active ≠ some .shell → r.shell.Awake

section Runs

variable {env : Env} {notifyInternalListener : L → String → String × L} {listener : L}

/-- **One step.** Whatever happens, the loop stays ready, except that a task step may
clear the signal of a queued message. -/
theorem ready_step {r r' : KernelRunner V L} {a : KernelRunnerAction V} (h : Ready r)
    (hstep : Runner.Step (kernelGuest env) notifyInternalListener r a r') :
    Ready r' ∨ ∃ t bySend re, a = .task t bySend ∧
      TaskStep (kernelGuest env) t bySend r r' re ∧
      bySend = true ∧ 0 < re.sends ∧ r.shell.queue ≠ [] := by
  cases hstep with
  | arriveShell msg => exact Or.inl fun _ _ => EdgeChannel.arrive_awake r.shell msg
  | arriveController msg => exact Or.inl h
  | select ready => exact Or.inl h
  | dispatch d rest hrunning hactive =>
      exact Or.inl fun _ _ => h hrunning (by simp [hactive])
  -- The shell doorbell gives up the socket only when nothing is queued.
  | shellDrained byRead bySend hactive hdrained =>
      exact Or.inl fun _ _ => EdgeChannel.awake_of_drained hdrained
  | shellRead byRead bySend msg shell hrunning hactive hread =>
      left
      intro hphase hno
      rcases serve_fault env r.guest msg.1 msg.2 with hfault | hfault
      · simp only [Runner.handled, kernelGuest, hfault] at hno
        exact absurd hactive hno
      · simp [Runner.handled, kernelGuest, hfault, Runner.afterCallback] at hphase
  -- The controller's doorbell does not touch the shell socket.
  | controllerDrained hactive =>
      exact Or.inl fun hphase _ => h hphase (by simp [hactive])
  | controllerRead val controller hrunning hactive =>
      exact Or.inl fun _ _ => h hrunning (by simp [hactive])
  | stop controller hrunning hactive =>
      exact Or.inl fun _ _ => h hrunning (by simp [hactive])
  | task t bySend re hrunning hactive hre =>
      have htask := taskStep_resumed hrunning hactive hre bySend
      have hawake : r.shell.Awake := h hrunning (by simp [hactive])
      have hiff := EdgeChannel.touch_awake_iff hawake (bySend && decide (0 < re.sends))
      by_cases hclear : (bySend && decide (0 < re.sends)) = true → r.shell.queue = []
      · refine Or.inl fun _ _ => ?_
        rw [htask.shell]
        exact hiff.mpr hclear
      -- The send consumed the edge while a message was queued.
      · rw [Classical.not_imp, Bool.and_eq_true, decide_eq_true_eq] at hclear
        exact Or.inr ⟨t, bySend, re, rfl, htask, hclear.1.1, hclear.1.2, hclear.2⟩
  | leave => exact Or.inl fun hphase => by simp at hphase

/-- **When no shell message is stranded**: exactly when, before `stop`, no task step
clears the shell descriptor with a reply while a shell message is queued. -/
theorem nothingStranded_iff {as : List (KernelRunnerAction V)} {r : KernelRunner V L}
    (h : (kernelRunner env notifyInternalListener listener).run as = some r) :
    NothingStranded env notifyInternalListener listener as ↔
      ∀ before t after r, as = before ++ .task t true :: after →
        (kernelRunner env notifyInternalListener listener).run before = some r →
        ¬ r.Stopped → r.guest.stepReplies env.lib t.1 t.2 = true → r.shell.queue = [] := by
  refine Iff.trans (Machine.holds_along_iff
    (fun r : KernelRunner V L =>
      r.phase = .running → ¬ r.Stopped → r.active = none → r.shell.Awake)
    (fun r => ¬ r.Stopped → Ready r)
    (fun r a => ∃ t, a = .task t true ∧ ¬ r.Stopped ∧
      r.guest.stepReplies env.lib t.1 t.2 = true ∧ r.shell.queue ≠ []) ?_ ?_ ?_ ?_ h) ?_
  · exact fun _ _ _ => EdgeChannel.awake_empty
  · exact fun r hready hphase hstop hactive => hready hstop hphase (by simp [hactive])
  · intro bs r₁ a r₂ hrun hstep hready hgood hstop
    have hstop₁ : ¬ r₁.Stopped := fun h => hstop (stopped_step (traced_of_run hrun) h hstep)
    rcases ready_step (hready hstop₁) (runnerMachine_sound hstep) with
      hready | ⟨t, bySend, re, rfl, htask, rfl, hsends, hqueue⟩
    · exact hready
    · have hre : r₁.guest.resume env t.1 t.2 = some re := htask.resumed
      have hreplies := (sends_iff_stepReplies (isolated_of_runnerRun hrun) hre).mp hsends
      exact absurd ⟨t, rfl, hstop₁, hreplies, hqueue⟩ hgood
  · rintro bs r₁ a r₂ hrun hstep ⟨t, rfl, hstop, hreplies, hqueue⟩ hsafe
    obtain ⟨re, htask⟩ := taskStep_of_step (runnerMachine_sound hstep)
    have hre : r₁.guest.resume env t.1 t.2 = some re := htask.resumed
    have hiso := isolated_of_runnerRun hrun
    have hphase : r₂.phase = .running := htask.phase.trans (phase_of_stepReplies hiso hre hreplies)
    have hnotStopped : ¬ r₂.Stopped := by
      rw [Runner.Stopped, htask.trace.controllerTaken]
      exact hstop
    have hawake := hsafe hphase hnotStopped htask.active
    -- The reply has cleared the signal.
    rw [htask.shell, decide_eq_true ((sends_iff_stepReplies hiso hre).mpr hreplies)] at hawake
    exact absurd (hawake hqueue) (by simp [EdgeChannel.touch])
  · constructor
    · intro hgood before t after r₁ has hrun hstop hreplies
      by_contra hqueue
      exact hgood before _ after r₁ has hrun ⟨t, rfl, hstop, hreplies, hqueue⟩
    · rintro hquiet before a after r₁ has hrun ⟨t, rfl, hstop, hreplies, hqueue⟩
      exact hqueue (hquiet before t after r₁ has hrun hstop hreplies)

end Runs

/-- A second cell arrives while the first one is at work, just before the first one
replies. -/
def replyAfterArrival : List (KernelRunnerAction Nat) :=
  [.arriveShell (.execute 7 ⟨1, "first", false, true, .obj [], true⟩, ⟨[], .returned .none⟩),
   .select [.shell], .dispatch, .readShell true false, .readShell true false,
   .arriveShell (.execute 8 ⟨2, "second", false, true, .obj [], true⟩, ⟨[], .returned .none⟩),
   .task (0, ⟨[], some (.returned .none)⟩) true]

theorem nothingStranded_iff_of_replyAfterArrival :
    ∃ r, (kernelRunner asyncioKernel acknowledge 0).run replyAfterArrival = some r ∧
      (NothingStranded asyncioKernel acknowledge 0 replyAfterArrival ↔
        ∀ before t after r, replyAfterArrival = before ++ .task t true :: after →
          (kernelRunner asyncioKernel acknowledge 0).run before = some r →
          ¬ r.Stopped → r.guest.stepReplies asyncioKernel.lib t.1 t.2 = true →
          r.shell.queue = []) := by
  obtain ⟨r, hr⟩ : ∃ r, (kernelRunner asyncioKernel acknowledge 0).run replyAfterArrival = some r :=
    ⟨_, rfl⟩
  exact ⟨r, hr, nothingStranded_iff hr⟩

/-- The second cell is queued, and nothing tells the loop. -/
theorem stranded_by_replyAfterArrival :
    ¬ NothingStranded asyncioKernel acknowledge 0 replyAfterArrival := by
  intro hsafe
  obtain ⟨r, hr⟩ : ∃ r, (kernelRunner asyncioKernel acknowledge 0).run replyAfterArrival = some r :=
    ⟨_, rfl⟩
  have hphase : r.phase = .running := Machine.read_run Runner.phase hr rfl
  have hactive : r.active = none := Machine.read_run Runner.active hr rfl
  have htaken : r.controller.taken = [] :=
    Machine.read_run (fun r : KernelRunner Nat Nat => r.controller.taken) hr rfl
  have hqueue : r.shell.queue.length = 1 :=
    Machine.read_run (fun r : KernelRunner Nat Nat => r.shell.queue.length) hr rfl
  have hsignal : r.shell.signalled = false :=
    Machine.read_run (fun r : KernelRunner Nat Nat => r.shell.signalled) hr rfl
  have hawake := hsafe 7 r hr hphase (by simp [Runner.Stopped, htaken]) hactive
  have hsignalled := hawake fun hnil => by simp [hnil] at hqueue
  rw [hsignal] at hsignalled
  exact absurd hsignalled (by decide)

section Blocking

variable {env : Env} {notifyInternalListener : L → String → String × L} {listener : L}

/-! ### Blocking kernels -/

/-- A blocking kernel has tasks of its user only. -/
theorem tasks_of_blocking (hbase : env.base = .blocking) {ks : List (KernelAction V)}
    {k : Kernel V} (h : (kernelMachine V env).run ks = some k) :
    ∀ cb args, ∀ t ∈ k.tasks, t.kind ≠ .wrapped cb args := by
  -- What code spawns contains no coroutine that answers a request.
  have hspawned : ∀ {spawned : List (NewTask V)}, coroutines spawned = [] →
      ∀ owner cb args, ∀ t ∈ spawned.map (NewTask.toTask owner), t.kind ≠ .wrapped cb args := by
    intro spawned hnone owner cb args t ht hkind
    obtain ⟨t', ht', rfl⟩ := List.mem_map.mp ht
    have hmem : cb ∈ coroutines spawned :=
      List.mem_filterMap.mpr ⟨t', ht', by simp only [NewTask.toTask] at hkind; simp [hkind]⟩
    rw [hnone] at hmem
    simp at hmem
  refine (Machine.run_invariant (I := fun k : Kernel V => Isolated k ∧
    ∀ cb args, ∀ t ∈ k.tasks, t.kind ≠ .wrapped cb args)
      ⟨Isolated.initial, fun _ _ t ht => by simp [kernelMachine, Kernel.initial] at ht⟩ ?_ h).2
  rintro k a k' ⟨hiso, hk⟩ hstep
  refine ⟨hiso.step hstep, fun cb args t ht => ?_⟩
  obtain ⟨-, ⟨r, call, rfl, rfl⟩ | ⟨n, step, re, rfl, hre, rfl⟩⟩ := kernelMachine_step_cases hstep
  · have hnone : coroutines (k.served env r call).spawned = [] := by
      cases r with
      | execute c args =>
          obtain ⟨w, hrun, hext⟩ :=
            run_handleRequest_execute env call k.requests.length c args k.shellContext
          rw [Kernel.served, hrun, hext.coroutines_eq, createdCoroutines, hbase]
      | query q => exact (handleRequest_query_effects env call _ q _).1
    rcases List.mem_append.mp ht with ht | ht
    · exact hk cb args t ht
    · exact hspawned hnone _ cb args t ht
  · obtain ⟨t', ht', -, hstate, -, -⟩ := Kernel.resume_cases hre
    rw [hstate] at ht
    rcases List.mem_append.mp ht with ht | ht
    · rcases List.mem_or_eq_of_mem_set ht with ht | rfl
      · exact hk cb args t ht
      · exact hk cb args t' (List.mem_of_getElem? ht')
    · exact hspawned (hiso.task_step env (List.mem_of_getElem? ht') step).2.1 _ cb args t ht

/-- Before `stop` and between callbacks, a blocking kernel never strands a message. -/
theorem ready_of_blocking (hbase : env.base = .blocking) {as : List (KernelRunnerAction V)}
    {r : KernelRunner V L}
    (h : (kernelRunner env notifyInternalListener listener).run as = some r) : Ready r := by
  refine Machine.run_induction (motive := fun _ (r : KernelRunner V L) => Ready r)
    (fun _ _ => EdgeChannel.awake_empty) ?_ h
  intro bs r₁ a r₂ hrun hready hstep
  rcases ready_step hready (runnerMachine_sound hstep) with
    hready | ⟨t, bySend, re, rfl, htask, rfl, hsends, -⟩
  · exact hready
  · have hre : r₁.guest.resume env t.1 t.2 = some re := htask.resumed
    have hreplies := (sends_iff_stepReplies (isolated_of_runnerRun hrun) hre).mp hsends
    obtain ⟨t', ht', -⟩ := Kernel.resume_cases hre
    obtain ⟨⟨ks, hks⟩, -⟩ := kernel_run hrun
    rw [Kernel.stepReplies, ht', Option.any_some] at hreplies
    cases hkind : t'.kind with
    | user => simp [hkind] at hreplies
    | wrapped cb args =>
        exact absurd hkind (tasks_of_blocking hbase hks cb args t' (List.mem_of_getElem? ht'))

end Blocking

end XeusPywrap
