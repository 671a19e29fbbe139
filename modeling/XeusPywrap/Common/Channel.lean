import Mathlib.Data.List.Basic

/-!
# Common.Channel

First-in first-out channels that remember their history, and the edge-triggered
signal a poller waits on.

A `Channel` carries the law of a FIFO as a field, so that no operation can lose,
repeat or reorder a message: what has been taken, followed by what is queued, is
what has arrived.

An `EdgeChannel` adds a signal that an arrival raises and that any use of the
endpoint may clear. `Awake` is what a poller needs of it: a message in the queue
is signalled. Taking until the queue is empty restores it (`awake_of_drained`);
a use of the endpoint between two drains may break it (`touch_awake_iff`).
-/

/-- A FIFO channel with its history. -/
structure Channel (M : Type) where
  arrived : List M
  taken : List M
  queue : List M
  fifo : taken ++ queue = arrived

namespace Channel

variable {M : Type}

/-- The channel on which nothing has happened. -/
def empty : Channel M := ⟨[], [], [], rfl⟩

/-- A message arrives at the back of the queue. -/
def arrive (c : Channel M) (m : M) : Channel M where
  arrived := c.arrived ++ [m]
  taken := c.taken
  queue := c.queue ++ [m]
  fifo := by rw [← List.append_assoc, c.fifo]

/-- Take the message at the front of the queue, if there is one. -/
def take? (c : Channel M) : Option (M × Channel M) :=
  match h : c.queue with
  | [] => none
  | m :: rest =>
      some (m, { arrived := c.arrived, taken := c.taken ++ [m], queue := rest,
                 fifo := by rw [← c.fifo, h, List.append_assoc, List.singleton_append] })

/-- What has been taken is the beginning of what has arrived. -/
theorem taken_isPrefix (c : Channel M) : c.taken <+: c.arrived := ⟨c.queue, c.fifo⟩

theorem take?_eq_none_iff {c : Channel M} : c.take? = none ↔ c.queue = [] := by
  unfold take?
  split <;> simp_all

/-- What taking a message does to the channel. -/
theorem take?_eq_some {c c' : Channel M} {m : M} (h : c.take? = some (m, c')) :
    c.queue = m :: c'.queue ∧ c'.taken = c.taken ++ [m] ∧ c'.arrived = c.arrived := by
  unfold take? at h
  split at h
  · exact absurd h (by simp)
  · rename_i rest hq
    simp only [Option.some.injEq, Prod.mk.injEq] at h
    obtain ⟨rfl, rfl⟩ := h
    exact ⟨hq, rfl, rfl⟩

end Channel

/-- A channel whose endpoint has an edge-triggered readiness signal. -/
structure EdgeChannel (M : Type) extends Channel M where
  signalled : Bool

namespace EdgeChannel

variable {M : Type}

/-- The channel on which nothing has happened; its signal is down. -/
def empty : EdgeChannel M := { Channel.empty with signalled := false }

/-- An arrival raises the signal. -/
def arrive (c : EdgeChannel M) (m : M) : EdgeChannel M :=
  { c.toChannel.arrive m with signalled := true }

/-- A use of the endpoint (a send or a receive); `clears` says whether it cleared
the signal. -/
def touch (c : EdgeChannel M) (clears : Bool) : EdgeChannel M :=
  { c with signalled := c.signalled && !clears }

/-- Take a message from the endpoint. -/
def take? (c : EdgeChannel M) (clears : Bool) : Option (M × EdgeChannel M) :=
  c.toChannel.take?.map fun (m, c') => (m, { c' with signalled := c.signalled && !clears })

/-- A message in the queue is signalled. -/
def Awake (c : EdgeChannel M) : Prop := c.queue ≠ [] → c.signalled = true

@[simp] theorem touch_false (c : EdgeChannel M) : c.touch false = c := by
  simp [touch]

theorem take?_eq_none_iff {c : EdgeChannel M} {b : Bool} : c.take? b = none ↔ c.queue = [] := by
  simp [take?, Channel.take?_eq_none_iff]

/-- Taking from the endpoint takes from the channel underneath. -/
theorem take?_toChannel {c c' : EdgeChannel M} {b : Bool} {m : M}
    (h : c.take? b = some (m, c')) : c.toChannel.take? = some (m, c'.toChannel) := by
  simp only [take?, Option.map_eq_some_iff, Prod.mk.injEq, Prod.exists] at h
  obtain ⟨m', ch, hch, rfl, rfl⟩ := h
  exact hch

theorem awake_empty : (empty : EdgeChannel M).Awake := fun h => absurd rfl h

theorem arrive_awake (c : EdgeChannel M) (m : M) : (c.arrive m).Awake := fun _ => rfl

/-- An endpoint with nothing queued owes its poller no signal. -/
theorem awake_of_drained {c : EdgeChannel M} (h : c.queue = []) : c.Awake := fun hne => absurd h hne

/-- **When a use of the endpoint loses a wake-up**: exactly when it clears the
signal while a message is queued. -/
theorem touch_awake_iff {c : EdgeChannel M} (hc : c.Awake) (b : Bool) :
    (c.touch b).Awake ↔ (b = true → c.queue = []) := by
  cases b with
  | false => simpa using hc
  | true => simp [Awake, touch]

end EdgeChannel
