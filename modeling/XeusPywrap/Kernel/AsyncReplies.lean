import XeusPywrap.Kernel.Replies

/-!
# XeusPywrap.Kernel.AsyncReplies

Replies of an async kernel.

`_execute_request` of `AsyncInterpreterBase` returns at once and leaves the reply
to a coroutine, so a request is answered at some later step of some later task.
`Accounted` ties every execute request to the one coroutine that can answer it:
where that coroutine stands decides which replies the request has had. The
invariant has two forms. If the module binds the name `asyncio`, every execute
request has exactly one coroutine (`repliesRight_iff_of_bound`); if it does not,
as is the case for the module's text, no execute request ever has one.
-/

namespace XeusPywrap

variable {V : Type}

/-- What the front end may rely on in a state: an execute request has at most one
reply, a reply is decided by how the coroutine of that same request ended, and a
request no coroutine is still working on has its reply. -/
structure RepliesRight (lib : Libraries) (k : Kernel V) : Prop where
  atMostOne : ∀ i c args, k.requests[i]? = some (.execute c args) → (k.repliesTo i).length ≤ 1
  own : ∀ i c args, k.requests[i]? = some (.execute c args) → ∀ reply ∈ k.repliesTo i,
    ∃ outcome, .ended outcome ∈ k.coroutinesOf i ∧ lib.Answers outcome reply
  settled : ∀ i c args, k.requests[i]? = some (.execute c args) →
    (∀ status ∈ k.coroutinesOf i, ∃ outcome, status = .ended outcome) →
    (k.repliesTo i).length = 1

/-- The states of a run all have their replies right. -/
def RepliesRightThroughout (env : Env) (as : List (KernelAction V)) : Prop :=
  ∀ n k, (kernelMachine V env).run (as.take n) = some k → RepliesRight env.lib k

theorem Libraries.reportedReply_eq_some {lib : Libraries} {e : PyExc} {reply : Json}
    (h : lib.reportedReply e = some reply) :
    lib.reportFault e = none ∧ reply = lib.pyErrorReply e (lib.formatExc e) := by
  unfold reportedReply at h
  split at h
  · rename_i hnone
    exact ⟨hnone, (Option.some.inj h).symm⟩
  · exact absurd h (by simp)

theorem Libraries.answers_of_asyncReply {lib : Libraries} {o : Outcome} {reply : Json}
    (h : lib.asyncReply o = some reply) : lib.Answers o reply := by
  rcases o with ⟨_ | v | _⟩ | e
  · simpa [asyncReply, replyOf, PyValue.toJson?, Answers, eq_comm] using h
  · simpa [asyncReply, replyOf, PyValue.toJson?, Answers, eq_comm] using h
  · simp only [asyncReply, replyOf, PyValue.toJson?] at h
    obtain ⟨-, rfl⟩ := reportedReply_eq_some h
    exact ⟨_, _, _, rfl⟩
  · simp only [asyncReply] at h
    split at h
    · rename_i he
      obtain ⟨-, rfl⟩ := reportedReply_eq_some h
      simp only [Answers, he, if_true]
      exact ⟨_, rfl⟩
    · exact absurd h (by simp)

/-! ### The invariant -/

/-- The replies a coroutine has handed out when it stands there. -/
def TaskStatus.replies (lib : Libraries) : TaskStatus → List Json
  | .ended outcome => (lib.asyncReply outcome).toList
  | _ => []

/-- What an execute request and its coroutines look like: one coroutine and its
reply if the name `asyncio` is bound, nothing at all otherwise. -/
def ReplyAccount (env : Env) (statuses : List TaskStatus) (replies : List Json) : Prop :=
  if "asyncio" ∈ env.globals then
    ∃ status, statuses = [status] ∧ replies = status.replies env.lib
  else statuses = [] ∧ replies = []

/-- The account of every execute request; nothing is known of later requests. -/
structure Accounted (env : Env) (k : Kernel V) : Prop where
  execute : ∀ i c args, k.requests[i]? = some (.execute c args) →
    ReplyAccount env (k.coroutinesOf i) (k.repliesTo i)
  later : ∀ i, k.requests.length ≤ i → k.coroutinesOf i = [] ∧ k.repliesTo i = []

/-- What a request has gained between two states: coroutines just created, and
replies. -/
structure Gained (i : Nat) (created : List Nat) (new : List (Nat × Json)) (k k' : Kernel V) :
    Prop where
  coroutines : k'.coroutinesOf i = k.coroutinesOf i ++
    (created.filter fun cb => cb = i).map fun _ => .created
  replies : k'.repliesTo i = k.repliesTo i ++
    new.filterMap fun p => if p.1 = i then some p.2 else none

/-- Recording what code did for a request. -/
theorem gained_record (k : Kernel V) (owner i : Nat) (w : World V) :
    Gained i (coroutines w.spawned) (deliveries w.log) k (k.record owner w) := by
  refine ⟨k.record_coroutinesOf owner i w, ?_⟩
  rw [Kernel.repliesTo, Kernel.record_delivered, List.filterMap_append]
  rfl

theorem gained_serve (env : Env) (k : Kernel V) (r : Request V) (call : UserCall V) (i : Nat) :
    Gained i (coroutines (k.served env r call).spawned) (deliveries (k.served env r call).log)
      k (k.serve env r call).state := by
  have h := gained_record k k.requests.length i (k.served env r call)
  exact ⟨h.coroutines, h.replies⟩

/-- What is done for one request does not show in the account of another. -/
theorem Gained.of_other {i j : Nat} {created : List Nat} {new : List (Nat × Json)}
    {k k' : Kernel V} (h : Gained i created new k k') (hcreated : ∀ cb ∈ created, cb = j)
    (hnew : ∀ p ∈ new, p.1 = j) (hij : j ≠ i) :
    k'.coroutinesOf i = k.coroutinesOf i ∧ k'.repliesTo i = k.repliesTo i := by
  have hfilter : (created.filter fun cb => cb = i) = [] := by
    rw [List.filter_eq_nil_iff]
    intro cb hcb
    simpa [hcreated cb hcb] using hij
  have hmap : (new.filterMap fun p => if p.1 = i then some p.2 else none) = [] := by
    rw [List.filterMap_eq_nil_iff]
    intro p hp
    rw [if_neg (hnew p hp ▸ hij)]
  rw [h.coroutines, h.replies, hfilter, hmap]
  simp

/-- An execute request an async kernel serves gains the coroutine of its account. -/
theorem account_serve {env : Env} (hbase : env.base = .async) (k : Kernel V) (c : V)
    (args : ExecuteArgs) (call : UserCall V) :
    (∀ cb ∈ coroutines (k.served env (.execute c args) call).spawned, cb = k.requests.length) ∧
      deliveries (k.served env (.execute c args) call).log = [] ∧
      ReplyAccount env
        (((coroutines (k.served env (.execute c args) call).spawned).filter
          fun cb => cb = k.requests.length).map fun _ => .created) [] := by
  obtain ⟨w, hrun, hext⟩ :=
    run_handleRequest_execute env call k.requests.length c args k.shellContext
  have hw : k.served env (.execute c args) call = w := by rw [Kernel.served, hrun]
  have hcreated : coroutines w.spawned =
      if "asyncio" ∈ env.globals then [k.requests.length] else [] := by
    rw [hext.coroutines_eq, createdCoroutines, hbase]
  have hreplies : deliveries w.log = [] := by
    rw [hext.deliveries_eq, servedReplies, hbase]
  rw [hw, hcreated, hreplies]
  by_cases hbound : "asyncio" ∈ env.globals
  · simp [ReplyAccount, hbound, TaskStatus.replies]
  · simp [ReplyAccount, hbound]

theorem Accounted.serve {env : Env} (hbase : env.base = .async) {k : Kernel V}
    (h : Accounted env k) (r : Request V) (call : UserCall V) :
    Accounted env (k.serve env r call).state := by
  have hgained := gained_serve env k r call
  have hnew : (∀ cb ∈ coroutines (k.served env r call).spawned, cb = k.requests.length) ∧
      ∀ p ∈ deliveries (k.served env r call).log, p.1 = k.requests.length := by
    cases r with
    | execute c args =>
        obtain ⟨hcreated, hreplies, -⟩ := account_serve hbase k c args call
        exact ⟨hcreated, by rw [hreplies]; simp⟩
    | query q =>
        obtain ⟨hcreated, hreplies⟩ :=
          handleRequest_query_effects env call k.requests.length q k.shellContext
        exact ⟨by rw [Kernel.served, hcreated]; simp, hreplies⟩
  have hother : ∀ i, k.requests.length ≠ i →
      (k.serve env r call).state.coroutinesOf i = k.coroutinesOf i ∧
        (k.serve env r call).state.repliesTo i = k.repliesTo i :=
    fun i hi => (hgained i).of_other hnew.1 hnew.2 hi
  constructor
  · intro i c args hi
    rw [Kernel.serve_requests] at hi
    by_cases hlast : k.requests.length = i
    · -- The request just served: it had no account before.
      subst hlast
      obtain rfl : r = .execute c args := by simpa using hi
      obtain ⟨hcoroutines, hreplies⟩ := h.later k.requests.length (Nat.le_refl _)
      obtain ⟨-, hnone, haccount⟩ := account_serve hbase k c args call
      rw [(hgained _).coroutines, (hgained _).replies, hcoroutines, hreplies, hnone]
      exact haccount
    · have hlt : i < k.requests.length := by
        have := (List.getElem?_eq_some_iff.mp hi).1
        rw [List.length_append, List.length_singleton] at this
        omega
      rw [List.getElem?_append_left hlt] at hi
      rw [(hother i hlast).1, (hother i hlast).2]
      exact h.execute i c args hi
  · intro i hi
    rw [Kernel.serve_requests, List.length_append, List.length_singleton] at hi
    rw [(hother i (by omega)).1, (hother i (by omega)).2]
    exact h.later i (by omega)

/-! ### Task steps -/

/-- Replacing one element of a list, seen through the split at its place. -/
theorem exists_split_set {α : Type} {l : List α} {n : Nat} {a : α} (h : l[n]? = some a) :
    ∃ l₁ l₂, l = l₁ ++ a :: l₂ ∧ ∀ b, l.set n b = l₁ ++ b :: l₂ := by
  obtain ⟨hn, rfl⟩ := List.getElem?_eq_some_iff.mp h
  refine ⟨l.take n, l.drop (n + 1), ?_,
    fun b => List.set_eq_take_append_cons_drop.trans (if_pos hn)⟩
  rw [List.getElem_cons_drop, List.take_append_drop]

theorem Task.statusFor_eq_some {i : Nat} {t : Task V} {s : TaskStatus} :
    t.statusFor i = some s ↔ t.status = s ∧ ∃ args, t.kind = .wrapped i args := by
  unfold Task.statusFor
  cases t.kind with
  | user => simp
  | wrapped cb args => by_cases h : cb = i <;> simp [h]

theorem Task.statusFor_afterStep (i : Nat) (t : Task V) (context : Context String V)
    (step : CoroutineStep V) :
    (t.afterStep context step).statusFor i =
      (t.statusFor i).map fun _ => (t.afterStep context step).status := by
  unfold Task.statusFor
  rw [show (t.afterStep context step).kind = t.kind from rfl]
  cases t.kind with
  | user => rfl
  | wrapped cb args => by_cases h : cb = i <;> simp [h]

/-- A step of a task moves the coroutine it is, if it is one, and no other. -/
theorem coroutinesOf_setTask {k : Kernel V} {n : Nat} {t : Task V} (ht : k.tasks[n]? = some t)
    (context : Context String V) (step : CoroutineStep V) (i : Nat) :
    (t.statusFor i = none ∧
      (k.setTask n (t.afterStep context step)).coroutinesOf i = k.coroutinesOf i) ∨
    ∃ l₁ l₂ args, t.kind = .wrapped i args ∧ k.coroutinesOf i = l₁ ++ t.status :: l₂ ∧
      (k.setTask n (t.afterStep context step)).coroutinesOf i =
        l₁ ++ (t.afterStep context step).status :: l₂ := by
  obtain ⟨tasks₁, tasks₂, hsplit, hset⟩ := exists_split_set ht
  rw [Kernel.coroutinesOf, Kernel.coroutinesOf, Kernel.setTask, hset, hsplit]
  simp only [List.filterMap_append, List.filterMap_cons, Task.statusFor_afterStep]
  cases hs : t.statusFor i with
  | none => exact Or.inl ⟨rfl, by simp⟩
  | some s =>
      obtain ⟨rfl, args, hkind⟩ := Task.statusFor_eq_some.mp hs
      exact Or.inr ⟨_, _, args, hkind, rfl, rfl⟩

/-- The replies of a task that answers another request, or none. -/
theorem delivers_of_statusFor_none (lib : Libraries) {t : Task V} {i : Nat}
    (h : t.statusFor i = none) (ends : Option Outcome) :
    ((t.kind.delivers lib ends).filterMap fun p => if p.1 = i then some p.2 else none) = [] := by
  unfold Task.statusFor at h
  cases hkind : t.kind with
  | user => rw [TaskKind.delivers_user, List.filterMap_nil]
  | wrapped cb args =>
      have hne : cb ≠ i := by
        rintro rfl
        simp [hkind] at h
      cases ends with
      | none => rfl
      | some outcome => simp [TaskKind.delivers, List.filterMap_map, hne]

/-- The replies of the coroutine that answers the request: those of its new status. -/
theorem delivers_of_wrapped (lib : Libraries) {t : Task V} {i : Nat} {args : ExecuteArgs}
    (h : t.kind = .wrapped i args) (context : Context String V) (step : CoroutineStep V) :
    ((t.kind.delivers lib step.ends).filterMap fun p => if p.1 = i then some p.2 else none) =
      (t.afterStep context step).status.replies lib := by
  rw [h]
  unfold Task.afterStep
  cases step.ends with
  | none => rfl
  | some outcome =>
      cases hreply : lib.asyncReply outcome <;>
        simp [TaskKind.delivers, TaskStatus.replies, hreply]

theorem Accounted.resume {env : Env} {k : Kernel V} (h : Accounted env k) (hiso : Isolated k)
    {n : Nat} {step : CoroutineStep V} {re : Reaction (Kernel V)}
    (hre : k.resume env n step = some re) : Accounted env re.state := by
  obtain ⟨t, ht, hlive, hstate, -, -⟩ := Kernel.resume_cases hre
  obtain ⟨hdeliveries, hcreated, -⟩ := hiso.task_step env (List.mem_of_getElem? ht) step
  have hrequests : re.state.requests = k.requests := by rw [hstate]; rfl
  have hgained : ∀ i, Gained i [] (t.kind.delivers env.lib step.ends)
      (k.setTask n (t.afterStep (t.world env step).context step)) re.state := by
    intro i
    have h := gained_record (k.setTask n (t.afterStep (t.world env step).context step)) t.owner i
      (t.world env step)
    rw [hcreated, hdeliveries] at h
    rw [hstate]
    exact ⟨h.coroutines, h.replies⟩
  have hcoroutines : ∀ i, re.state.coroutinesOf i =
      (k.setTask n (t.afterStep (t.world env step).context step)).coroutinesOf i :=
    fun i => by simpa using (hgained i).coroutines
  have hreplies : ∀ i, re.state.repliesTo i = k.repliesTo i ++
      ((t.kind.delivers env.lib step.ends).filterMap
        fun p => if p.1 = i then some p.2 else none) := fun i => (hgained i).replies
  constructor
  · intro i c args hi
    rw [hrequests] at hi
    have haccount := h.execute i c args hi
    rw [hcoroutines, hreplies]
    rcases coroutinesOf_setTask ht (t.world env step).context step i with
      ⟨hnone, hsame⟩ | ⟨l₁, l₂, args', hkind, hbefore, hafter⟩
    · rw [hsame, delivers_of_statusFor_none env.lib hnone, List.append_nil]
      exact haccount
    · -- The step is one of the coroutine of the request, so the request has one.
      rw [hafter, delivers_of_wrapped env.lib hkind]
      rw [hbefore] at haccount
      unfold ReplyAccount at haccount ⊢
      split at haccount
      · rename_i hbound
        obtain ⟨status, hstatus, hreplied⟩ := haccount
        obtain ⟨rfl, rfl, rfl⟩ : l₁ = [] ∧ l₂ = [] ∧ t.status = status := by
          cases l₁ <;> simp_all
        rw [if_pos hbound]
        refine ⟨_, rfl, ?_⟩
        -- A task that takes a step has not ended, so it has not replied.
        have hpending : t.status.replies env.lib = [] := by
          unfold Task.live at hlive
          cases hs : t.status <;> simp_all [TaskStatus.replies]
        rw [hreplied, hpending, List.nil_append]
      · exact absurd haccount.1 (by simp)
  · intro i hi
    rw [hrequests] at hi
    obtain ⟨hnoCoroutine, hnoReply⟩ := h.later i hi
    rw [hcoroutines, hreplies, hnoReply]
    rcases coroutinesOf_setTask ht (t.world env step).context step i with
      ⟨hnone, hsame⟩ | ⟨l₁, l₂, args', -, hbefore, -⟩
    · rw [hsame, hnoCoroutine, delivers_of_statusFor_none env.lib hnone]
      exact ⟨rfl, rfl⟩
    · rw [hbefore] at hnoCoroutine
      exact absurd hnoCoroutine (by simp)

/-- The accounts are in order in every state of every run of an async kernel. -/
theorem accounted_of_run {env : Env} (hbase : env.base = .async) {as : List (KernelAction V)}
    {k : Kernel V} (h : (kernelMachine V env).run as = some k) : Accounted env k := by
  have hinit : Accounted env (kernelMachine V env).init :=
    ⟨fun i c args hi => by simp [kernelMachine, Kernel.initial] at hi, fun i _ => ⟨rfl, rfl⟩⟩
  refine (Machine.run_invariant (I := fun k => Isolated k ∧ Accounted env k)
    ⟨Isolated.initial, hinit⟩ ?_ h).2
  rintro k a k' ⟨hiso, hacc⟩ hstep
  refine ⟨hiso.step hstep, ?_⟩
  obtain ⟨-, ⟨r, call, rfl, rfl⟩ | ⟨n, step, re, rfl, hre, rfl⟩⟩ := kernelMachine_step_cases hstep
  · exact hacc.serve hbase r call
  · exact hacc.resume hiso hre

/-! ### When the replies are right -/

/-- An outcome of the user's coroutine that leads to a reply. The `except` block of
`wrapped` catches every `Exception`, and nothing catches what the block itself raises:
a traceback without a UTF-8 encoding, a `__str__` that raises. -/
def Libraries.Reportable (lib : Libraries) : Outcome → Prop
  | .returned .unconvertible => lib.reportFault lib.typeError = none
  | .returned _ => True
  | .raised e => e.isException = true ∧ lib.reportFault e = none

theorem Libraries.asyncReply_isSome (lib : Libraries) (o : Outcome) :
    (lib.asyncReply o).isSome ↔ lib.Reportable o := by
  rcases o with ⟨_ | v | _⟩ | e
  · simp [asyncReply, replyOf, PyValue.toJson?, Reportable]
  · simp [asyncReply, replyOf, PyValue.toJson?, Reportable]
  · simp only [asyncReply, replyOf, PyValue.toJson?, Reportable]
    exact lib.reportedReply_isSome lib.typeError
  · simp only [asyncReply, Reportable]
    split
    · rename_i he
      rw [lib.reportedReply_isSome]
      simp [he]
    · simp_all

/-- **When the replies are right, where `asyncio` is bound.** An account with one coroutine
is right unless the coroutine ended in a way that leads to no reply. -/
theorem repliesRight_iff_of_bound {env : Env} (hbase : env.base = .async)
    (hbound : "asyncio" ∈ env.globals) {as : List (KernelAction V)} {k : Kernel V}
    (h : (kernelMachine V env).run as = some k) :
    RepliesRight env.lib k ↔
      ∀ i c args, k.requests[i]? = some (.execute c args) →
        ∀ o, .ended o ∈ k.coroutinesOf i → env.lib.Reportable o := by
  have hacc : ∀ i c args, k.requests[i]? = some (.execute c args) →
      ∃ status, k.coroutinesOf i = [status] ∧ k.repliesTo i = status.replies env.lib := by
    intro i c args hi
    simpa only [ReplyAccount, if_pos hbound] using
      (accounted_of_run hbase h).execute i c args hi
  constructor
  · intro hright i c args hi o ho
    obtain ⟨status, hstatus, hreplies⟩ := hacc i c args hi
    rw [hstatus, List.mem_singleton] at ho
    subst ho
    have hone := hright.settled i c args hi fun s hs => by
      rw [hstatus, List.mem_singleton] at hs
      exact ⟨_, hs⟩
    rw [hreplies, TaskStatus.replies] at hone
    -- Exactly one reply has been delivered, so the outcome led to one.
    have hsome : (env.lib.asyncReply o).isSome := by
      cases hreply : env.lib.asyncReply o with
      | none => rw [hreply] at hone; exact absurd hone (by decide)
      | some reply => rfl
    exact (env.lib.asyncReply_isSome o).mp hsome
  · intro hall
    refine ⟨?_, ?_, ?_⟩
    · intro i c args hi
      obtain ⟨status, -, hreplies⟩ := hacc i c args hi
      rw [hreplies]
      cases status with
      | ended o => simp only [TaskStatus.replies]; cases env.lib.asyncReply o <;> simp
      | _ => exact Nat.zero_le 1
    · intro i c args hi reply hreply
      obtain ⟨status, hstatus, hreplies⟩ := hacc i c args hi
      rw [hreplies] at hreply
      cases status with
      | ended o =>
          exact ⟨o, by simp [hstatus],
            Libraries.answers_of_asyncReply (by simpa [TaskStatus.replies] using hreply)⟩
      | _ => simp [TaskStatus.replies] at hreply
    · intro i c args hi hended
      obtain ⟨status, hstatus, hreplies⟩ := hacc i c args hi
      obtain ⟨o, rfl⟩ := hended status (by simp [hstatus])
      have hsome : (env.lib.asyncReply o).isSome :=
        (env.lib.asyncReply_isSome o).mpr (hall i c args hi o (by simp [hstatus]))
      obtain ⟨reply, hreply⟩ := Option.isSome_iff_exists.mp hsome
      rw [hreplies, TaskStatus.replies, hreply]
      rfl

/-- Two cells at work at the same time; the second one ends first. -/
def overtakingCells : List (KernelAction Nat) :=
  [.serve (.execute 7 ⟨1, "first", false, true, .obj [], true⟩) ⟨[], .returned .none⟩,
   .serve (.execute 8 ⟨2, "second", false, true, .obj [], true⟩) ⟨[], .returned .none⟩,
   .resume 0 ⟨[], none⟩, .resume 1 ⟨[], some (.returned .none)⟩,
   .resume 0 ⟨[], some (.raised ⟨.exception, "ValueError", "first"⟩)⟩]

theorem repliesRight_iff_of_overtakingCells :
    ∃ k, (kernelMachine Nat asyncioKernel).run overtakingCells = some k ∧
      (RepliesRight asyncioKernel.lib k ↔
        ∀ i c args, k.requests[i]? = some (.execute c args) →
          ∀ o, .ended o ∈ k.coroutinesOf i → asyncioKernel.lib.Reportable o) := by
  obtain ⟨k, hk⟩ : ∃ k, (kernelMachine Nat asyncioKernel).run overtakingCells = some k := ⟨_, rfl⟩
  exact ⟨k, hk, repliesRight_iff_of_bound rfl (by decide) hk⟩

/-- Without the name `asyncio` no execute request is ever answered. -/
theorem repliesRight_iff_of_unbound {env : Env} (hbase : env.base = .async)
    (hbound : "asyncio" ∉ env.globals) {as : List (KernelAction V)} {k : Kernel V}
    (h : (kernelMachine V env).run as = some k) :
    RepliesRight env.lib k ↔ ∀ c args, Request.execute c args ∉ k.requests := by
  have hacc : ∀ i c args, k.requests[i]? = some (.execute c args) →
      k.coroutinesOf i = [] ∧ k.repliesTo i = [] := by
    intro i c args hi
    simpa only [ReplyAccount, if_neg hbound] using
      (accounted_of_run hbase h).execute i c args hi
  constructor
  · intro hright c args hmem
    obtain ⟨i, hi⟩ := List.mem_iff_getElem?.mp hmem
    obtain ⟨hnone, hreplies⟩ := hacc i c args hi
    have hone := hright.settled i c args hi fun s hs => by rw [hnone] at hs; simp at hs
    rw [hreplies] at hone
    exact absurd hone (by decide)
  · intro hno
    have habsurd : ∀ (i : Nat) c args, k.requests[i]? ≠ some (.execute c args) :=
      fun i c args hi => hno c args (List.mem_of_getElem? hi)
    exact ⟨fun i c args hi => absurd hi (habsurd i c args),
      fun i c args hi => absurd hi (habsurd i c args),
      fun i c args hi => absurd hi (habsurd i c args)⟩

/-- The requests a run has served. -/
def servedRequests (as : List (KernelAction V)) : List (Request V) :=
  as.filterMap fun
    | .serve r _ => some r
    | .resume _ _ => none

theorem requests_of_run {env : Env} {as : List (KernelAction V)} {k : Kernel V}
    (h : (kernelMachine V env).run as = some k) : k.requests = servedRequests as := by
  refine Machine.run_induction (motive := fun as k => k.requests = servedRequests as) rfl ?_ h
  intro as k a k' _ hk hstep
  rw [servedRequests, List.filterMap_append]
  obtain ⟨-, ⟨r, call, rfl, rfl⟩ | ⟨n, step, re, rfl, hre, rfl⟩⟩ := kernelMachine_step_cases hstep
  · rw [Kernel.serve_requests, hk]
    rfl
  · obtain ⟨t, -, -, hstate, -, -⟩ := Kernel.resume_cases hre
    rw [hstate]
    exact hk.trans (List.append_nil _).symm

/-- **When the replies of an async kernel are right**: in the runs that serve no
execute request. The module `interpreter_base.py` does not bind `asyncio`, so
`_execute_request` raises a `NameError` before it creates the coroutine that would
reply, and the handler in C++ replies nothing. -/
theorem repliesRightThroughout_iff_no_execute (lib : Libraries) (overrides : Overrides)
    {as : List (KernelAction V)} {k : Kernel V}
    (h : (kernelMachine V ⟨lib, .async, interpreterBaseGlobals, overrides⟩).run as = some k) :
    RepliesRightThroughout ⟨lib, .async, interpreterBaseGlobals, overrides⟩ as ↔
      ∀ c args, Request.execute c args ∉ servedRequests as := by
  have hunbound : "asyncio" ∉ interpreterBaseGlobals := by decide
  constructor
  · intro hright c args
    have hk := hright as.length k (by rwa [List.take_length])
    rw [← requests_of_run h]
    exact (repliesRight_iff_of_unbound rfl hunbound h).mp hk c args
  · intro hno n k' hk'
    refine (repliesRight_iff_of_unbound rfl hunbound hk').mpr fun c args hmem => ?_
    rw [requests_of_run hk'] at hmem
    exact hno c args (((List.take_sublist n as).filterMap _).subset hmem)

/-- A completion request, then a cell. -/
def completionThenCell : List (KernelAction Nat) :=
  [.serve (.query (.complete "pri" 3)) ⟨[], .returned .none⟩,
   .serve (.execute 7 ⟨1, "print(1)", false, true, .obj [], true⟩) ⟨[], .returned .none⟩]

theorem repliesRightThroughout_iff_of_cell :
    ∃ k, (kernelMachine Nat (plainKernel .async)).run completionThenCell = some k ∧
      (RepliesRightThroughout (plainKernel .async) completionThenCell ↔
        ∀ c args, Request.execute c args ∉ servedRequests completionThenCell) := by
  obtain ⟨k, hk⟩ : ∃ k, (kernelMachine Nat (plainKernel .async)).run completionThenCell = some k :=
    ⟨_, rfl⟩
  exact ⟨k, hk, repliesRightThroughout_iff_no_execute _ _ hk⟩

/-- A cell of an async kernel is never answered, and no coroutine works on it. -/
theorem unanswered_of_cell :
    ¬ RepliesRightThroughout (plainKernel .async) completionThenCell := by
  intro hright
  obtain ⟨k, hk⟩ : ∃ k, (kernelMachine Nat (plainKernel .async)).run completionThenCell = some k :=
    ⟨_, rfl⟩
  have hrequest : k.requests[1]? =
      some (.execute 7 ⟨1, "print(1)", false, true, .obj [], true⟩) :=
    Machine.read_run (fun k : Kernel Nat => k.requests[1]?) hk rfl
  have hnone : k.coroutinesOf 1 = [] :=
    Machine.read_run (fun k : Kernel Nat => k.coroutinesOf 1) hk rfl
  have hreplies : k.repliesTo 1 = [] :=
    Machine.read_run (fun k : Kernel Nat => k.repliesTo 1) hk rfl
  have hone := (hright 2 k hk).settled 1 7 _ hrequest (by simp [hnone])
  rw [hreplies] at hone
  exact absurd hone (by decide)

end XeusPywrap
