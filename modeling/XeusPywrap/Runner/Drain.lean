import XeusPywrap.Runner.StrandedMessages

/-!
# XeusPywrap.Runner.Drain

Blocking kernels handle every message that arrives: while the loop waits, a queued
message is signalled, so that the selector reports its doorbell, and the doorbell then
runs until nothing is queued, whatever its reads and the replies do to the descriptor and
whatever arrives meanwhile.
-/

namespace XeusPywrap

variable {V L : Type}

/-- The loop waits for its selector, and `stop` has not been processed. -/
structure Runner.Waiting {K M : Type} (r : Runner K M L) : Prop where
  idle : r.idle = true
  scheduled : r.scheduled = []
  notStopped : ¬ r.Stopped

/-- The doorbell has returned and handled these messages, and none is left. -/
structure Emptied {K M : Type} (msgs : List M) (r r' : Runner K M L) : Prop where
  idle : r'.idle = true
  queue : r'.shell.queue = []
  notified : r'.notified = r.notified ++ msgs

/-- The same, and the loop waits again. -/
structure Drained {K M : Type} (msgs : List M) (r r' : Runner K M L) : Prop
    extends Emptied msgs r r' where
  waiting : r'.Waiting

/-- The rounds of the shell doorbell: whether the read and the replies clear the
descriptor in each of them. -/
def rounds {M T : Type} (clears : List (Bool × Bool)) : List (RunnerAction M T) :=
  clears.map fun c => .readShell c.1 c.2

/-- The shell messages that arrive. -/
def shellArrivals {M T : Type} (as : List (RunnerAction M T)) : List M :=
  as.filterMap fun
    | .arriveShell msg => some msg
    | _ => none

/-- A call of the shell doorbell, from some point of it to its end: `active` is the
doorbell until the last step. -/
inductive Runner.ShellCall {K M T : Type} (g : Guest K M T)
    (notifyInternalListener : L → String → String × L) :
    Runner K M L → List (RunnerAction M T) → Runner K M L → Prop
  | last {r r' : Runner K M L} {a : RunnerAction M T} (active : r.active = some .shell)
      (step : r.step g notifyInternalListener a = some r') (left : r'.active ≠ some .shell) :
      ShellCall g notifyInternalListener r [a] r'
  | next {r r₁ r' : Runner K M L} {a : RunnerAction M T} {as : List (RunnerAction M T)}
      (active : r.active = some .shell) (step : r.step g notifyInternalListener a = some r₁)
      (rest : ShellCall g notifyInternalListener r₁ as r') :
      ShellCall g notifyInternalListener r (a :: as) r'

section Drain

variable {env : Env} {notifyInternalListener : L → String → String × L} {listener : L}

/-- Both readers are registered until `stop` is processed. -/
theorem readers_of_run {K M T : Type} {g : Guest K M T} {guest : K}
    {as : List (RunnerAction M T)} {r : Runner K M L}
    (h : (runnerMachine g notifyInternalListener guest listener).run as = some r) :
    r.readers = [.shell, .controller] ∨ r.Stopped := by
  refine Machine.run_invariant (I := fun r : Runner K M L =>
    r.readers = [.shell, .controller] ∨ r.Stopped) (Or.inl rfl) ?_ h
  intro r a r' hr hstep
  rcases step_trace (runnerMachine_sound hstep) with hsame | ⟨-, msg, hread⟩ | ⟨-, val, hread⟩
  · rw [Runner.Stopped, hsame.readers, hsame.controllerTaken]
    exact hr
  · rw [Runner.Stopped, hread.readers, hread.controllerTaken]
    exact hr
  · rw [Runner.Stopped, hread.controllerTaken, List.mem_append, List.mem_singleton]
    by_cases hval : val = "stop"
    · exact .inr (.inr hval.symm)
    · rw [hread.readers hval]
      exact hr.imp_right Or.inl

variable (env) in
/-- One round reads the message at the front of the queue, and the process survives it
or dies. -/
theorem readShell_step (notifyInternalListener : L → String → String × L)
    (r : KernelRunner V L) (hrunning : r.phase = .running)
    (hactive : r.active = some .shell) {msg : Request V × UserCall V}
    {msgs : List (Request V × UserCall V)} (hqueue : r.shell.queue = msg :: msgs)
    (byRead bySend : Bool) :
    ∃ r', r.step (kernelGuest env) notifyInternalListener (.readShell byRead bySend) = some r' ∧
      (r'.phase = .terminated ∨
        r'.phase = .running ∧ r'.active = some .shell ∧ r'.shell.queue = msgs ∧
          r'.scheduled = r.scheduled ∧ r'.controller = r.controller ∧
          r'.notified = r.notified ++ [msg]) := by
  obtain ⟨⟨front, shell⟩, hread⟩ : ∃ p, r.shell.take? byRead = some p :=
    Option.ne_none_iff_exists'.mp fun hnone => by
      simp [EdgeChannel.take?_eq_none_iff.mp hnone] at hqueue
  obtain ⟨hcons, -, -⟩ := Channel.take?_eq_some (EdgeChannel.take?_toChannel hread)
  obtain ⟨rfl, hrest⟩ := List.cons.inj (hqueue.symm.trans hcons)
  have hstep : r.step (kernelGuest env) notifyInternalListener (.readShell byRead bySend) =
      some (r.handled (kernelGuest env) msg shell bySend) := by
    rw [Runner.step, if_pos ⟨hrunning, hactive⟩, Runner.onMessageDoorbellShell, hread]
    rfl
  refine ⟨_, hstep, ?_⟩
  rcases serve_fault env r.guest msg.1 msg.2 with hfault | hfault
  · right
    simp only [Runner.handled, kernelGuest, hfault, Runner.afterCallback]
    exact ⟨hrunning, hactive, hrest.symm, trivial, trivial, trivial⟩
  · left
    simp only [Runner.handled, kernelGuest, hfault, Runner.afterCallback]

/-- The round that finds nothing queued ends the callback. -/
theorem readShell_drained (notifyInternalListener : L → String → String × L)
    (r : KernelRunner V L) (hrunning : r.phase = .running)
    (hactive : r.active = some .shell) (hqueue : r.shell.queue = []) (byRead bySend : Bool) :
    r.step (kernelGuest env) notifyInternalListener (.readShell byRead bySend) =
      some { r with shell := r.shell.touch byRead, active := none } := by
  simp only [Runner.step, hrunning, hactive, and_self, if_true, Runner.onMessageDoorbellShell,
    EdgeChannel.take?_eq_none_iff.mpr hqueue]

/-- The doorbell runs until nothing is queued, or the process dies. -/
theorem rounds_drain {msgs : List (Request V × UserCall V)} {clears : List (Bool × Bool)}
    (hlength : clears.length = msgs.length + 1) (as : List (KernelRunnerAction V))
    (r : KernelRunner V L)
    (hrun : (kernelRunner env notifyInternalListener listener).run as = some r)
    (hrunning : r.phase = .running) (hactive : r.active = some .shell)
    (hqueue : r.shell.queue = msgs) (hscheduled : r.scheduled = [])
    (hstopped : ¬ r.Stopped) :
    ∃ n r', (kernelRunner env notifyInternalListener listener).run
        (as ++ rounds (clears.take n)) = some r' ∧
      (r'.phase = .terminated ∨ Drained msgs r r') := by
  induction msgs generalizing clears as r with
  | nil =>
      obtain ⟨c, rfl⟩ := List.length_eq_one_iff.mp hlength
      refine ⟨1, { r with shell := r.shell.touch c.1, active := none }, ?_, .inr ?_⟩
      · rw [rounds, List.take_one, List.head?_cons, Option.toList_some, List.map_singleton,
          Machine.run_snoc, hrun]
        exact readShell_drained notifyInternalListener r hrunning hactive hqueue c.1 c.2
      · exact ⟨⟨Runner.idle_iff.mpr ⟨hrunning, rfl⟩, hqueue, (List.append_nil _).symm⟩,
          ⟨Runner.idle_iff.mpr ⟨hrunning, rfl⟩, hscheduled, hstopped⟩⟩
  | cons msg msgs ih =>
      obtain ⟨c, clears, rfl⟩ := List.exists_cons_of_length_eq_add_one hlength
      obtain ⟨r₁, hstep, hr₁⟩ := readShell_step env notifyInternalListener r hrunning
        hactive hqueue c.1 c.2
      have hrun₁ : (kernelRunner env notifyInternalListener listener).run
          (as ++ [.readShell c.1 c.2]) = some r₁ := by
        rw [Machine.run_snoc, hrun]
        exact hstep
      rcases hr₁ with hdead | ⟨hrunning₁, hactive₁, hqueue₁, hscheduled₁, hcontroller₁, hnotified₁⟩
      · exact ⟨1, r₁, hrun₁, .inl hdead⟩
      · obtain ⟨n, r₂, hrun₂, hr₂⟩ := ih (by simpa using hlength) _ r₁ hrun₁ hrunning₁ hactive₁
          hqueue₁ (hscheduled₁.trans hscheduled) (by rwa [Runner.Stopped, hcontroller₁])
        refine ⟨n + 1, r₂, ?_, hr₂.imp_right fun hdrained => ?_⟩
        · rw [List.append_assoc] at hrun₂
          exact hrun₂
        · exact { hdrained with
            notified := by
              rw [hdrained.notified, hnotified₁, List.append_assoc, List.singleton_append] }

/-- What a step within a call of the doorbell does: messages go from the queue to the
listener, behind which new ones arrive, until the queue is found empty or the process
dies. -/
theorem shellCall_step {r r' : KernelRunner V L} {a : KernelRunnerAction V}
    (hactive : r.active = some .shell)
    (hstep : r.step (kernelGuest env) notifyInternalListener a = some r') :
    r'.phase = .terminated ∧ r'.active = none ∨
      ∃ msgs, r'.notified = r.notified ++ msgs ∧
        msgs ++ r'.shell.queue = r.shell.queue ++ shellArrivals [a] ∧
        (r'.active = some .shell ∨ r'.idle = true ∧ r'.shell.queue = []) := by
  cases Runner.step_sound hstep with
  | arriveShell msg => exact .inr ⟨[], (List.append_nil _).symm, rfl, .inl hactive⟩
  | arriveController msg =>
      exact .inr ⟨[], (List.append_nil _).symm, (List.append_nil _).symm, .inl hactive⟩
  | select ready => simp [Runner.step, Runner.idle, hactive] at hstep
  | dispatch d rest running active => simp [hactive] at active
  | shellDrained byRead bySend active drained =>
      have hrunning : r.phase = .running := by
        by_contra hphase
        simp [Runner.step, hphase] at hstep
      refine .inr ⟨[], (List.append_nil _).symm, (List.append_nil _).symm, .inr ?_⟩
      exact ⟨Runner.idle_iff.mpr ⟨hrunning, rfl⟩, drained⟩
  | shellRead byRead bySend msg shell running active read =>
      obtain ⟨hcons, -, -⟩ := Channel.take?_eq_some (EdgeChannel.take?_toChannel read)
      rcases serve_fault env r.guest msg.1 msg.2 with hfault | hfault
      · refine .inr ⟨[msg], ?_⟩
        simp only [Runner.handled, kernelGuest, hfault, Runner.afterCallback]
        exact ⟨trivial, by rw [hcons]; exact (List.append_nil _).symm, .inl active⟩
      · left
        simp only [Runner.handled, kernelGuest, hfault, Runner.afterCallback]
        exact ⟨trivial, trivial⟩
  | controllerDrained active => simp [hactive] at active
  | controllerRead val controller running active => simp [hactive] at active
  | stop controller running active => simp [hactive] at active
  | task t bySend re running active => simp [hactive] at active
  | leave stopping => simp [Runner.step, Runner.idle, hactive] at hstep

/-- **A call of the doorbell handles what is queued and what arrives during it**, in
order, unless a message kills the process. -/
theorem shellCall_emptied {r r' : KernelRunner V L} {as : List (KernelRunnerAction V)}
    (h : Runner.ShellCall (kernelGuest env) notifyInternalListener r as r') :
    r'.phase = .terminated ∨ Emptied (r.shell.queue ++ shellArrivals as) r r' := by
  induction h with
  | last active step left =>
      rcases shellCall_step active step with ⟨hdead, -⟩ | ⟨msgs, hnotified, hqueue, hnext⟩
      · exact .inl hdead
      · obtain ⟨hidle, hempty⟩ := hnext.resolve_left left
        rw [hempty, List.append_nil] at hqueue
        exact .inr ⟨hidle, hempty, by rw [hnotified, hqueue]⟩
  | @next r r₁ r' a as active step rest ih =>
      have hactive₁ : r₁.active = some .shell := by cases rest <;> assumption
      rcases shellCall_step active step with ⟨-, hnone⟩ | ⟨msgs, hnotified, hqueue, -⟩
      · simp [hactive₁] at hnone
      · refine ih.imp_right fun hemptied => ⟨hemptied.idle, hemptied.queue, ?_⟩
        have harrivals : shellArrivals (a :: as) = shellArrivals [a] ++ shellArrivals as := by
          rw [← List.singleton_append, shellArrivals, List.filterMap_append]
          rfl
        rw [hemptied.notified, hnotified, harrivals, ← List.append_assoc r.shell.queue, ← hqueue]
        simp only [List.append_assoc]

/-- **A blocking kernel handles what arrives.** Whenever the loop waits, a queued message
is signalled, and once the selector reports the doorbell every message of the queue is
handled, in order, unless one of them kills the process. The same is true of every later
call of the doorbell, whatever has happened before and whatever arrives during it. -/
theorem drains_of_blocking (hbase : env.base = .blocking) {as : List (KernelRunnerAction V)}
    {r : KernelRunner V L}
    (h : (kernelRunner env notifyInternalListener listener).run as = some r) (hr : r.Waiting)
    {clears : List (Bool × Bool)} (hlength : clears.length = r.shell.queue.length + 1) :
    r.shell.Awake ∧
      (∃ n r', (kernelRunner env notifyInternalListener listener).run
          (as ++ (.select [.shell] :: .dispatch :: rounds (clears.take n))) = some r' ∧
        (r'.phase = .terminated ∨ Drained r.shell.queue r r')) ∧
      ∀ bs r₁ cs r', (kernelRunner env notifyInternalListener listener).run (as ++ bs) = some r₁ →
        Runner.ShellCall (kernelGuest env) notifyInternalListener r₁ cs r' →
          r'.phase = .terminated ∨ Emptied (r₁.shell.queue ++ shellArrivals cs) r₁ r' := by
  obtain ⟨hrunning, hactive⟩ := Runner.idle_iff.mp hr.idle
  have hreaders := (readers_of_run h).resolve_right hr.notStopped
  have hstopping : r.stopping = false := by
    have hstopping := (traced_of_run h).stopping
    by_contra htrue
    exact hr.notStopped (hstopping (by simpa using htrue))
  refine ⟨ready_of_blocking hbase h hrunning (by simp [hactive]), ?_,
    fun bs r₁ cs r' _ hcall => shellCall_emptied hcall⟩
  have hselect : (kernelRunner env notifyInternalListener listener).run (as ++ [.select [.shell]]) =
      some { r with scheduled := [.shell] } := by
    rw [Machine.run_snoc, h]
    simp [kernelRunner, runnerMachine, Runner.step, hr.idle, hr.scheduled, hstopping, hreaders]
  have hdispatch : (kernelRunner env notifyInternalListener listener).run
      (as ++ [.select [.shell]] ++ [.dispatch]) =
        some { r with scheduled := [], active := some .shell } := by
    rw [Machine.run_snoc, hselect]
    simp [kernelRunner, runnerMachine, Runner.step, Runner.idle, hrunning, hactive, hreaders]
  obtain ⟨n, r', hrun, hr'⟩ :=
    rounds_drain hlength _ _ hdispatch hrunning rfl rfl rfl hr.notStopped
  refine ⟨n, r', ?_, hr'.imp_right fun hdrained => { hdrained with }⟩
  rw [List.append_assoc, List.append_assoc] at hrun
  exact hrun

end Drain

/-- Two cells arrive before the loop gets to the first one. -/
def twoArrivals : List (KernelRunnerAction Nat) :=
  [.arriveShell (.execute 7 ⟨1, "first", false, true, .obj [], true⟩, ⟨[], .returned .none⟩),
   .arriveShell (.execute 8 ⟨2, "second", false, true, .obj [], true⟩, ⟨[], .returned .none⟩)]

theorem drains_of_twoArrivals :
    ∃ r, (kernelRunner (plainKernel .blocking) acknowledge 0).run twoArrivals = some r ∧
      r.Waiting ∧ r.shell.queue.length = 2 ∧ r.shell.Awake ∧
      (∃ n r', (kernelRunner (plainKernel .blocking) acknowledge 0).run (twoArrivals ++
          (.select [.shell] :: .dispatch ::
            rounds ([(true, true), (false, true), (true, false)].take n))) = some r' ∧
        (r'.phase = .terminated ∨ Drained r.shell.queue r r')) ∧
      ∀ bs r₁ cs r', (kernelRunner (plainKernel .blocking) acknowledge 0).run
          (twoArrivals ++ bs) = some r₁ →
        Runner.ShellCall (kernelGuest (plainKernel .blocking)) acknowledge r₁ cs r' →
          r'.phase = .terminated ∨ Emptied (r₁.shell.queue ++ shellArrivals cs) r₁ r' := by
  obtain ⟨r, hr⟩ : ∃ r,
      (kernelRunner (plainKernel .blocking) acknowledge 0).run twoArrivals = some r := ⟨_, rfl⟩
  have hidle : r.idle = true := Machine.read_run Runner.idle hr rfl
  have hscheduled : r.scheduled = [] := Machine.read_run Runner.scheduled hr rfl
  have htaken : r.controller.taken = [] :=
    Machine.read_run (fun r : KernelRunner Nat Nat => r.controller.taken) hr rfl
  have hqueue : r.shell.queue.length = 2 :=
    Machine.read_run (fun r : KernelRunner Nat Nat => r.shell.queue.length) hr rfl
  have hwaiting : r.Waiting := ⟨hidle, hscheduled, by simp [Runner.Stopped, htaken]⟩
  exact ⟨r, hr, hwaiting, hqueue, drains_of_blocking rfl hr hwaiting (by simp [hqueue])⟩

end XeusPywrap
