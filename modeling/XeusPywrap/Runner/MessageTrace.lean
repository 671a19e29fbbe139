import XeusPywrap.Runner.Loop

/-!
# XeusPywrap.Runner.MessageTrace

What goes in and out of the runner, over whole runs and for any guest.

The shell listener gets the shell messages in the order of their arrival, each
once. Every controller message that is read is answered by exactly one send, and
`stop` is the end: after it nothing is read or sent, whatever is queued and
whatever is still scheduled. `Traced` is the invariant behind it. Its last fields
say why `stop` cuts both drains off: the doorbell that read it has ended, and no
reader is left that could start another.
-/

namespace XeusPywrap

variable {K M T L : Type}

section Replies

variable (notifyInternalListener : L → String → String × L)

/-- What is sent for a sequence of controller messages: the reply of the internal
listener to each, up to the first `stop`, which is sent back. -/
def controllerReplies (listener : L) : List String → List String
  | [] => []
  | val :: vals =>
      if val = "stop" then ["stop"]
      else (notifyInternalListener listener val).1 ::
        controllerReplies (notifyInternalListener listener val).2 vals

/-- The internal listener after a sequence of messages. -/
def listenerAfter (listener : L) (vals : List String) : L :=
  vals.foldl (fun l val => (notifyInternalListener l val).2) listener

/-- One more message after messages without a `stop`. -/
theorem controllerReplies_snoc {listener : L} {vals : List String} (h : "stop" ∉ vals)
    (val : String) :
    controllerReplies notifyInternalListener listener (vals ++ [val]) =
      controllerReplies notifyInternalListener listener vals ++
        [if val = "stop" then val
          else (notifyInternalListener
            (listenerAfter notifyInternalListener listener vals) val).1] := by
  induction vals generalizing listener with
  | nil =>
      by_cases hval : val = "stop" <;> simp [controllerReplies, listenerAfter, hval]
  | cons v vals ih =>
      have hv : v ≠ "stop" := fun hv => h (by simp [hv])
      have hvals : "stop" ∉ vals := fun hmem => h (List.mem_cons_of_mem _ hmem)
      rw [List.cons_append, controllerReplies, if_neg hv, ih hvals, controllerReplies, if_neg hv]
      rfl

end Replies

/-- The first `stop` has been processed. -/
def Runner.Stopped (r : Runner K M L) : Prop := "stop" ∈ r.controller.taken

instance (r : Runner K M L) : Decidable r.Stopped :=
  inferInstanceAs (Decidable ("stop" ∈ r.controller.taken))

/-- The messages so far, and what `stop` has left behind. -/
structure Traced (notifyInternalListener : L → String → String × L) (listener : L)
    (r : Runner K M L) : Prop where
  notified : r.notified = r.shell.taken
  sent : r.sent = controllerReplies notifyInternalListener listener r.controller.taken
  oneEach : r.sent.length = r.controller.taken.length
  listener : ¬ r.Stopped →
    r.listener = listenerAfter notifyInternalListener listener r.controller.taken
  readers : r.readers = [.shell, .controller] ∨ r.readers = []
  stopping : r.stopping = true → r.Stopped
  stopped : r.Stopped → r.readers = [] ∧ r.active = none

/-! ### What the steps leave alone -/

/-- `r'` differs from `r` at most in what messages do not depend on; a doorbell that
runs in `r'` ran in `r`, or its reader is registered. -/
structure SameTrace (r r' : Runner K M L) : Prop where
  notified : r'.notified = r.notified
  taken : r'.shell.taken = r.shell.taken
  controllerTaken : r'.controller.taken = r.controller.taken
  sent : r'.sent = r.sent
  listener : r'.listener = r.listener
  readers : r'.readers = r.readers
  stopping : r'.stopping = r.stopping
  active : r.readers = [] → r.active = none → r'.active = none

theorem Traced.of_sameTrace {notifyInternalListener : L → String → String × L} {listener : L}
    {r r' : Runner K M L} (h : Traced notifyInternalListener listener r) (hs : SameTrace r r') :
    Traced notifyInternalListener listener r' := by
  have hstopped : r'.Stopped ↔ r.Stopped := by rw [Runner.Stopped, hs.controllerTaken]; rfl
  refine ⟨?_, ?_, ?_, ?_, ?_, ?_, ?_⟩
  · rw [hs.notified, hs.taken, h.notified]
  · rw [hs.sent, hs.controllerTaken, h.sent]
  · rw [hs.sent, hs.controllerTaken, h.oneEach]
  · rw [hstopped, hs.listener, hs.controllerTaken]
    exact h.listener
  · rw [hs.readers]
    exact h.readers
  · rw [hstopped, hs.stopping]
    exact h.stopping
  · rw [hstopped, hs.readers]
    exact fun hstop => ⟨(h.stopped hstop).1, hs.active (h.stopped hstop).1 (h.stopped hstop).2⟩

/-- How a callback ends does not touch the trace. -/
theorem sameTrace_afterCallback (r : Runner K M L) (fault : Option Fault) :
    SameTrace r (r.afterCallback fault) := by
  unfold Runner.afterCallback
  split
  · exact ⟨rfl, rfl, rfl, rfl, rfl, rfl, rfl, fun _ h => h⟩
  · exact ⟨rfl, rfl, rfl, rfl, rfl, rfl, rfl, fun _ _ => rfl⟩
  · split
    · exact ⟨rfl, rfl, rfl, rfl, rfl, rfl, rfl, fun _ _ => rfl⟩
    · exact ⟨rfl, rfl, rfl, rfl, rfl, rfl, rfl, fun _ _ => rfl⟩

/-- A message has been read from the shell socket and handed to the listener. -/
structure ReadShell (msg : M) (r r' : Runner K M L) : Prop where
  notified : r'.notified = r.notified ++ [msg]
  taken : r'.shell.taken = r.shell.taken ++ [msg]
  controllerTaken : r'.controller.taken = r.controller.taken
  sent : r'.sent = r.sent
  listener : r'.listener = r.listener
  readers : r'.readers = r.readers
  stopping : r'.stopping = r.stopping

/-- A message has been read from the controller socket and answered. -/
structure ReadController (notifyInternalListener : L → String → String × L) (val : String)
    (r r' : Runner K M L) : Prop where
  notified : r'.notified = r.notified
  taken : r'.shell.taken = r.shell.taken
  controllerTaken : r'.controller.taken = r.controller.taken ++ [val]
  sent : r'.sent = r.sent ++
    [if val = "stop" then val else (notifyInternalListener r.listener val).1]
  listener : val ≠ "stop" → r'.listener = (notifyInternalListener r.listener val).2
  readers : val ≠ "stop" → r'.readers = r.readers
  stopping : val ≠ "stop" → r'.stopping = r.stopping
  stop : val = "stop" →
    r'.readers = (r.readers.erase .shell).erase .controller ∧ r'.active = none

/-- A message that is handed to the listener has been read. -/
theorem readShell_handled (g : Guest K M T) {r : Runner K M L} {msg : M} {shell : EdgeChannel M}
    {byRead : Bool} (hread : r.shell.take? byRead = some (msg, shell)) (bySend : Bool) :
    ReadShell msg r (r.handled g msg shell bySend) := by
  obtain ⟨-, htaken, -⟩ := Channel.take?_eq_some (EdgeChannel.take?_toChannel hread)
  have hs := sameTrace_afterCallback
    { r with
      shell := shell.touch (bySend && decide (0 < (g.notifyShellListener msg r.guest).sends))
      guest := (g.notifyShellListener msg r.guest).state
      notified := r.notified ++ [msg] } (g.notifyShellListener msg r.guest).fault
  exact ⟨hs.notified, hs.taken.trans htaken, hs.controllerTaken, hs.sent, hs.listener, hs.readers,
    hs.stopping⟩

theorem sameTrace_resumed (r : Runner K M L) (re : Reaction K) (bySend : Bool) :
    SameTrace r (r.resumed re bySend) := by
  have hs := sameTrace_afterCallback
    { r with shell := r.shell.touch (bySend && decide (0 < re.sends)), guest := re.state } re.fault
  exact ⟨hs.notified, hs.taken, hs.controllerTaken, hs.sent, hs.listener, hs.readers, hs.stopping,
    hs.active⟩

/-- **What a step does to the trace**: nothing, or one message is read by the
doorbell whose turn it is. -/
theorem step_trace {g : Guest K M T} {notifyInternalListener : L → String → String × L}
    {r r' : Runner K M L} {a : RunnerAction M T}
    (h : Runner.Step g notifyInternalListener r a r') :
    SameTrace r r' ∨
      (r.active = some .shell ∧ ∃ msg, ReadShell msg r r') ∨
      (r.active = some .controller ∧ ∃ val, ReadController notifyInternalListener val r r') := by
  cases h with
  | arriveShell msg => exact Or.inl ⟨rfl, rfl, rfl, rfl, rfl, rfl, rfl, fun _ h => h⟩
  | arriveController msg => exact Or.inl ⟨rfl, rfl, rfl, rfl, rfl, rfl, rfl, fun _ h => h⟩
  | select ready => exact Or.inl ⟨rfl, rfl, rfl, rfl, rfl, rfl, rfl, fun _ h => h⟩
  | dispatch d rest =>
      -- A doorbell without a reader is skipped.
      refine Or.inl ⟨rfl, rfl, rfl, rfl, rfl, rfl, rfl, fun hreaders _ => ?_⟩
      simp [hreaders]
  | shellDrained => exact Or.inl ⟨rfl, rfl, rfl, rfl, rfl, rfl, rfl, fun _ _ => rfl⟩
  | shellRead byRead bySend msg shell _ hactive hread =>
      exact Or.inr (Or.inl ⟨hactive, msg, readShell_handled g hread bySend⟩)
  | controllerDrained => exact Or.inl ⟨rfl, rfl, rfl, rfl, rfl, rfl, rfl, fun _ _ => rfl⟩
  | controllerRead val controller _ hactive hread hval =>
      obtain ⟨-, htaken, -⟩ := Channel.take?_eq_some hread
      exact Or.inr (Or.inr ⟨hactive, val, rfl, rfl, htaken, by simp [hval], fun _ => rfl,
        fun _ => rfl, fun _ => rfl, fun h => absurd h hval⟩)
  | stop controller _ hactive hread =>
      obtain ⟨-, htaken, -⟩ := Channel.take?_eq_some hread
      exact Or.inr (Or.inr ⟨hactive, "stop", rfl, rfl, htaken, rfl, by simp, by simp, by simp,
        fun _ => ⟨rfl, rfl⟩⟩)
  | task t bySend re => exact Or.inl (sameTrace_resumed r re bySend)
  | leave => exact Or.inl ⟨rfl, rfl, rfl, rfl, rfl, rfl, rfl, fun _ h => h⟩

/-! ### The invariant -/

section Runs

variable {g : Guest K M T} {notifyInternalListener : L → String → String × L}
  {guest : K} {listener : L}

theorem Traced.initial :
    Traced notifyInternalListener listener (Runner.initial guest listener : Runner K M L) :=
  ⟨rfl, rfl, rfl, fun _ => rfl, Or.inl rfl, fun h => by simp [Runner.initial] at h,
    fun h => by simp [Runner.Stopped, Runner.initial, Channel.empty] at h⟩

theorem Traced.readShell {r r' : Runner K M L} {msg : M}
    (h : Traced notifyInternalListener listener r) (hactive : r.active = some .shell)
    (hr : ReadShell msg r r') : Traced notifyInternalListener listener r' := by
  have hstopped : r'.Stopped ↔ r.Stopped := by rw [Runner.Stopped, hr.controllerTaken]; rfl
  refine ⟨?_, ?_, ?_, ?_, ?_, ?_, ?_⟩
  · rw [hr.notified, hr.taken, h.notified]
  · rw [hr.sent, hr.controllerTaken, h.sent]
  · rw [hr.sent, hr.controllerTaken, h.oneEach]
  · rw [hstopped, hr.listener, hr.controllerTaken]
    exact h.listener
  · rw [hr.readers]
    exact h.readers
  · rw [hstopped, hr.stopping]
    exact h.stopping
  · intro hstop
    rw [(h.stopped (hstopped.mp hstop)).2] at hactive
    exact absurd hactive (by simp)

theorem Traced.readController {r r' : Runner K M L} {val : String}
    (h : Traced notifyInternalListener listener r) (hactive : r.active = some .controller)
    (hr : ReadController notifyInternalListener val r r') :
    Traced notifyInternalListener listener r' := by
  -- The controller's doorbell would have ended with the first `stop`.
  have hnot : ¬ r.Stopped := fun hstop => by
    rw [(h.stopped hstop).2] at hactive
    exact absurd hactive (by simp)
  have hstopped : r'.Stopped ↔ val = "stop" := by
    rw [Runner.Stopped, hr.controllerTaken, List.mem_append, List.mem_singleton,
      eq_comm (b := val)]
    exact or_iff_right hnot
  have hlistener := h.listener hnot
  refine ⟨?_, ?_, ?_, ?_, ?_, ?_, ?_⟩
  · rw [hr.notified, hr.taken, h.notified]
  · rw [hr.sent, hr.controllerTaken, controllerReplies_snoc _ hnot, h.sent, hlistener]
  · rw [hr.sent, hr.controllerTaken, List.length_append, List.length_append, h.oneEach]
    rfl
  · intro hns
    have hval : val ≠ "stop" := fun hval => hns (hstopped.mpr hval)
    rw [hr.listener hval, hr.controllerTaken, hlistener, listenerAfter, listenerAfter,
      List.foldl_append]
    rfl
  · by_cases hval : val = "stop"
    · rw [(hr.stop hval).1]
      rcases h.readers with hreaders | hreaders <;> rw [hreaders] <;> right <;> rfl
    · rw [hr.readers hval]
      exact h.readers
  · intro hstopping
    by_contra hns
    have hval : val ≠ "stop" := fun hval => hns (hstopped.mpr hval)
    rw [hr.stopping hval] at hstopping
    exact hnot (h.stopping hstopping)
  · intro hstop
    obtain ⟨hreaders, hnone⟩ := hr.stop (hstopped.mp hstop)
    refine ⟨?_, hnone⟩
    rw [hreaders]
    rcases h.readers with h' | h' <;> rw [h'] <;> rfl

theorem Traced.step {r r' : Runner K M L} {a : RunnerAction M T}
    (h : Traced notifyInternalListener listener r)
    (hstep : r.step g notifyInternalListener a = some r') :
    Traced notifyInternalListener listener r' := by
  rcases step_trace (Runner.step_sound hstep) with hs | ⟨hactive, msg, hr⟩ | ⟨hactive, val, hr⟩
  · exact h.of_sameTrace hs
  · exact h.readShell hactive hr
  · exact h.readController hactive hr

theorem traced_of_run {as : List (RunnerAction M T)} {r : Runner K M L}
    (h : (runnerMachine g notifyInternalListener guest listener).run as = some r) :
    Traced notifyInternalListener listener r :=
  Machine.run_invariant Traced.initial (fun _ _ _ hr hstep => hr.step hstep) h

/-! ### After `stop` -/

/-- Nothing has been read or sent between the two states. -/
structure Silent (r r' : Runner K M L) : Prop where
  shell : r'.shell.taken = r.shell.taken
  notified : r'.notified = r.notified
  controller : r'.controller.taken = r.controller.taken
  sent : r'.sent = r.sent

/-- One step after `stop`. -/
theorem silent_step {r r' : Runner K M L} {a : RunnerAction M T}
    (h : Traced notifyInternalListener listener r) (hstop : r.Stopped)
    (hstep : r.step g notifyInternalListener a = some r') : Silent r r' := by
  have hnone := (h.stopped hstop).2
  rcases step_trace (Runner.step_sound hstep) with hs | ⟨hactive, -⟩ | ⟨hactive, -⟩
  · exact ⟨hs.taken, hs.notified, hs.controllerTaken, hs.sent⟩
  · exact absurd (hnone.symm.trans hactive) (by simp)
  · exact absurd (hnone.symm.trans hactive) (by simp)

/-- Nothing undoes a `stop`. -/
theorem stopped_step {r r' : Runner K M L} {a : RunnerAction M T}
    (h : Traced notifyInternalListener listener r) (hstop : r.Stopped)
    (hstep : r.step g notifyInternalListener a = some r') : r'.Stopped := by
  rw [Runner.Stopped, (silent_step h hstop hstep).controller]
  exact hstop

theorem silent_of_stopped {r : Runner K M L} (h : Traced notifyInternalListener listener r)
    (hstop : r.Stopped) {bs : List (RunnerAction M T)} {r' : Runner K M L}
    (hrun : (runnerMachine g notifyInternalListener guest listener).runFrom r bs = some r') :
    Silent r r' := by
  induction bs generalizing r with
  | nil =>
      obtain rfl := Option.some.inj hrun
      exact ⟨rfl, rfl, rfl, rfl⟩
  | cons b bs ih =>
      rw [Machine.runFrom_cons] at hrun
      obtain ⟨r₁, hstep, hrest⟩ := Option.bind_eq_some_iff.mp hrun
      have hs := silent_step h hstop hstep
      have hs' := ih (h.step hstep) (stopped_step h hstop hstep) hrest
      exact ⟨hs'.shell.trans hs.shell, hs'.notified.trans hs.notified,
        hs'.controller.trans hs.controller, hs'.sent.trans hs.sent⟩

/-- **The message trace of the runner.** In every run, however arrivals are grouped
into doorbells: the shell listener is called with the messages that have arrived,
in order and from the first one on, each once; every controller message that was
read, in order and from the first one on, was answered by one send; and once
`stop` has been processed, nothing more is read from either socket or sent,
however the run goes on. -/
theorem messageTrace {as bs : List (RunnerAction M T)} {r r' : Runner K M L}
    (h : (runnerMachine g notifyInternalListener guest listener).run as = some r)
    (h' : (runnerMachine g notifyInternalListener guest listener).runFrom r bs = some r') :
    r.notified <+: r.shell.arrived ∧
      (r.controller.taken <+: r.controller.arrived ∧
        r.sent = controllerReplies notifyInternalListener listener r.controller.taken ∧
        r.sent.length = r.controller.taken.length) ∧
      (r.Stopped → Silent r r') := by
  have htraced := traced_of_run h
  refine ⟨?_, ⟨r.controller.taken_isPrefix, htraced.sent, htraced.oneEach⟩,
    fun hstop => silent_of_stopped htraced hstop h'⟩
  rw [htraced.notified]
  exact r.shell.taken_isPrefix

end Runs

/-- A batch with messages after `stop`, and a shell doorbell scheduled behind it. -/
def batchWithStop : List (RunnerAction Nat Unit) :=
  [.arriveShell 1, .arriveController "ping", .arriveController "stop", .arriveController "late",
   .select [.controller, .shell], .dispatch, .readController, .readController]

/-- A shell listener that only counts. -/
def countingGuest : Guest Nat Nat Unit := ⟨fun _ n => ⟨n + 1, 0, none⟩, fun _ _ => none⟩

/-- An internal listener that answers with the message. -/
def acknowledge (n : Nat) (val : String) : String × Nat := (val, n + 1)

theorem messageTrace_of_batchWithStop :
    ∃ r r', (runnerMachine countingGuest acknowledge 0 0).run batchWithStop = some r ∧
      (runnerMachine countingGuest acknowledge 0 0).runFrom r
        [.dispatch, .arriveShell 2, .leave] = some r' ∧
      r.notified <+: r.shell.arrived ∧
      (r.controller.taken <+: r.controller.arrived ∧
        r.sent = controllerReplies acknowledge 0 r.controller.taken ∧
        r.sent.length = r.controller.taken.length) ∧
      (r.Stopped → Silent r r') := by
  obtain ⟨r', hr'⟩ : ∃ r', (runnerMachine countingGuest acknowledge 0 0).run
      (batchWithStop ++ [.dispatch, .arriveShell 2, .leave]) = some r' := ⟨_, rfl⟩
  obtain ⟨r, hr, hrest⟩ := Machine.run_split hr'
  exact ⟨r, r', hr, hrest, messageTrace hr hrest⟩

end XeusPywrap
