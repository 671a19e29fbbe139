import XeusPywrap.Kernel.System

/-!
# XeusPywrap.Kernel.Isolation

Request contexts do not leak between requests.

The value `set_request_context` writes once per execute request is read at
arbitrarily later moments: by the coroutine of the request after any number of
awaits, by tasks it created, by tasks those created, while later requests
overwrite the variable in the context of the shell doorbell. `Isolated` is the
invariant that makes the reads come out right: the context of every task of an
execute request gives the request context the value of *that* request. It holds
of a new task because `create_task` copies the context current at that moment,
and nothing but `set_request_context` writes the variable afterwards.
-/

namespace XeusPywrap

variable {V : Type}

/-- The context xeus handed over with the request `i`, if it is an execute request. -/
def Kernel.contextOf (k : Kernel V) (i : Nat) : Option V :=
  match k.requests[i]? with
  | some (.execute c _) => some c
  | _ => none

theorem Kernel.contextOf_eq_some {k : Kernel V} {i : Nat} {c : V} :
    k.contextOf i = some c ↔ ∃ args, k.requests[i]? = some (.execute c args) := by
  unfold contextOf
  split
  · rename_i c' args h
    simp [h]
  · rename_i h
    simp only [reduceCtorEq, false_iff, not_exists]
    exact fun args hargs => h c args hargs

/-- Code run for a request that has a context saw nothing else and left nothing
else behind. -/
structure World.Sees (c : V) (w : World V) : Prop where
  log : ∀ e ∈ w.log, e.Sees c
  spawned : ∀ t ∈ w.spawned, requestContextIn t.context = some c

theorem Extends.sees {c : V} {r : List (Nat × Json)} {n : List Nat} {context : Context String V}
    {w : World V} (h : Extends c r n (World.start context) w) : w.Sees c := by
  obtain ⟨new, hlog, hsees, -⟩ := h.log
  obtain ⟨new', hspawned, hset, -⟩ := h.spawned
  constructor
  · rw [hlog]; simpa [World.start] using hsees
  · rw [hspawned]; simpa [World.start] using hset

theorem Extends.deliveries_eq {c : V} {r : List (Nat × Json)} {n : List Nat}
    {context : Context String V} {w : World V} (h : Extends c r n (World.start context) w) :
    deliveries w.log = r := by
  obtain ⟨new, hlog, -, hr⟩ := h.log
  rw [hlog, ← hr]
  simp [World.start]

theorem Extends.coroutines_eq {c : V} {r : List (Nat × Json)} {n : List Nat}
    {context : Context String V} {w : World V} (h : Extends c r n (World.start context) w) :
    coroutines w.spawned = n := by
  obtain ⟨new, hspawned, -, hn⟩ := h.spawned
  rw [hspawned, ← hn]
  simp [World.start]

/-! ### Serving an execute request -/

/-- The replies delivered while an execute request is served. -/
def servedReplies (env : Env) (i : Nat) (call : UserCall V) : List (Nat × Json) :=
  match env.base with
  | .blocking => (env.lib.blockingReply call.outcome).toList.map fun reply => (i, reply)
  | .async => []

/-- The coroutines created while an execute request is served. -/
def createdCoroutines (env : Env) (i : Nat) : List Nat :=
  match env.base with
  | .blocking => []
  | .async => if "asyncio" ∈ env.globals then [i] else []

/-- **Serving an execute request** always returns, and whatever it does it does
with the context of that request. -/
theorem run_handleRequest_execute (env : Env) (call : UserCall V) (i : Nat) (c : V)
    (args : ExecuteArgs) (context : Context String V) :
    ∃ w, (handleRequest env call i (.execute c args)).run (World.start context) = (.ok (), w) ∧
      Extends c (servedReplies env i call) (createdCoroutines env i)
        (World.start (context.set requestContext c)) w := by
  have hset : requestContextIn (World.start (context.set requestContext c)).context = some c :=
    Context.lookup_set_same context requestContext c
  have hrun : (handleRequest env call i (.execute c args)).run (World.start context) =
      (executeRequestImpl env call i args).run (World.start (context.set requestContext c)) := rfl
  rw [hrun]
  cases hbase : env.base with
  | blocking =>
      obtain ⟨w₁, w', hext, hrun', hreply⟩ :=
        run_executeRequestImpl_blocking hbase hset call i args
      refine ⟨w', hrun', ?_⟩
      simp only [servedReplies, createdCoroutines, hbase]
      cases hout : env.lib.blockingReply call.outcome with
      | none =>
          rw [hout] at hreply
          exact hext.trans hreply
      | some reply =>
          rw [hout] at hreply
          subst hreply
          exact hext.trans (extends_delivered hext.stillSet i reply)
  | async =>
      obtain ⟨w', hrun', hext⟩ := run_executeRequestImpl_async hbase hset call i args
      refine ⟨w', hrun', ?_⟩
      simpa only [servedReplies, createdCoroutines, hbase] using hext

/-! ### The invariant -/

/-- Every task and every entry of the log belongs to a request that has been
served; the coroutine that answers a request belongs to that request; and what
belongs to an execute request knows only the context of that request. -/
structure Isolated (k : Kernel V) : Prop where
  taskOwner : ∀ t ∈ k.tasks, t.owner < k.requests.length
  logOwner : ∀ p ∈ k.log, p.1 < k.requests.length
  wrappedOwner : ∀ t ∈ k.tasks, ∀ cb args, t.kind = .wrapped cb args →
    t.owner = cb ∧ ∃ c, k.contextOf cb = some c
  task : ∀ t ∈ k.tasks, ∀ c, k.contextOf t.owner = some c → requestContextIn t.context = some c
  log : ∀ p ∈ k.log, ∀ c, k.contextOf p.1 = some c → p.2.Sees c

namespace Isolated

theorem initial : Isolated (Kernel.initial : Kernel V) := by
  constructor <;> simp [Kernel.initial]

/-- Serving one more request does not change what the requests before it are. -/
theorem contextOf_append {k : Kernel V} {r : Request V} {i : Nat} (h : i < k.requests.length) :
    ({ k with requests := k.requests ++ [r] } : Kernel V).contextOf i = k.contextOf i := by
  simp only [Kernel.contextOf, List.getElem?_append_left h]

theorem addRequest {k : Kernel V} (h : Isolated k) (r : Request V) :
    Isolated { k with requests := k.requests ++ [r] } := by
  refine ⟨?_, ?_, ?_, ?_, ?_⟩
  · intro t ht
    have := h.taskOwner t ht
    simp only [List.length_append, List.length_singleton]
    omega
  · intro p hp
    have := h.logOwner p hp
    simp only [List.length_append, List.length_singleton]
    omega
  · intro t ht cb args hkind
    obtain ⟨howner, c, hc⟩ := h.wrappedOwner t ht cb args hkind
    refine ⟨howner, c, ?_⟩
    rw [contextOf_append (howner ▸ h.taskOwner t ht)]
    exact hc
  · intro t ht c hc
    rw [contextOf_append (h.taskOwner t ht)] at hc
    exact h.task t ht c hc
  · intro p hp c hc
    rw [contextOf_append (h.logOwner p hp)] at hc
    exact h.log p hp c hc

/-- Recording what code did for a request keeps the invariant, if the code saw the
context of that request and created coroutines for that request only. -/
theorem record {k : Kernel V} (h : Isolated k) {owner : Nat} {w : World V}
    (howner : owner < k.requests.length)
    (hcreated : ∀ cb ∈ coroutines w.spawned, owner = cb ∧ ∃ c, k.contextOf cb = some c)
    (hsees : ∀ c, k.contextOf owner = some c → w.Sees c) : Isolated (k.record owner w) := by
  have hcontext : ∀ i, (k.record owner w).contextOf i = k.contextOf i := fun _ => rfl
  refine ⟨?_, ?_, ?_, ?_, ?_⟩
  · intro t ht
    rcases List.mem_append.mp ht with ht | ht
    · exact h.taskOwner t ht
    · obtain ⟨t', -, rfl⟩ := List.mem_map.mp ht
      exact howner
  · intro p hp
    rcases List.mem_append.mp hp with hp | hp
    · exact h.logOwner p hp
    · obtain ⟨e, -, rfl⟩ := List.mem_map.mp hp
      exact howner
  · intro t ht cb args hkind
    rcases List.mem_append.mp ht with ht | ht
    · exact h.wrappedOwner t ht cb args hkind
    · obtain ⟨t', ht', rfl⟩ := List.mem_map.mp ht
      refine hcreated cb (List.mem_filterMap.mpr ⟨t', ht', ?_⟩)
      simp only [NewTask.toTask] at hkind
      simp [hkind]
  · intro t ht c hc
    rw [hcontext] at hc
    rcases List.mem_append.mp ht with ht | ht
    · exact h.task t ht c hc
    · obtain ⟨t', ht', rfl⟩ := List.mem_map.mp ht
      exact (hsees c hc).spawned t' ht'
  · intro p hp c hc
    rw [hcontext] at hc
    rcases List.mem_append.mp hp with hp | hp
    · exact h.log p hp c hc
    · obtain ⟨e, he, rfl⟩ := List.mem_map.mp hp
      exact (hsees c hc).log e he

/-- Giving a task the state it has after a step keeps the invariant, if the step
left the context of its request in place. -/
theorem setTask {k : Kernel V} (h : Isolated k) {n : Nat} {t : Task V} (ht : k.tasks[n]? = some t)
    {context : Context String V} (step : CoroutineStep V)
    (hcontext : ∀ c, k.contextOf t.owner = some c → requestContextIn context = some c) :
    Isolated (k.setTask n (t.afterStep context step)) := by
  have hmem : t ∈ k.tasks := List.mem_of_getElem? ht
  have hcases : ∀ t' ∈ k.tasks.set n (t.afterStep context step),
      t' ∈ k.tasks ∨ t' = t.afterStep context step := fun t' ht' => List.mem_or_eq_of_mem_set ht'
  refine ⟨?_, h.logOwner, ?_, ?_, h.log⟩
  · intro t' ht'
    rcases hcases t' ht' with ht' | rfl
    · exact h.taskOwner t' ht'
    · exact h.taskOwner t hmem
  · intro t' ht' cb args hkind
    rcases hcases t' ht' with ht' | rfl
    · exact h.wrappedOwner t' ht' cb args hkind
    · exact h.wrappedOwner t hmem cb args hkind
  · intro t' ht' c hc
    rcases hcases t' ht' with ht' | rfl
    · exact h.task t' ht' c hc
    · exact hcontext c hc

end Isolated

/-! ### Every step keeps it -/

/-- What the `try` block of the handler of a query cannot do: create a coroutine
that answers a request, or deliver a reply. -/
theorem Query.attempt_effects (env : Env) (call : UserCall V) (q : Query)
    (context : Context String V) :
    coroutines ((q.attempt env call).run (World.start context)).2.spawned = [] ∧
      deliveries ((q.attempt env call).run (World.start context)).2.log = [] := by
  by_cases hq : q.reachesHook
  · have h := (Query.attempt_of_reachesHook env call (w := World.start context) hq rfl).1
    exact ⟨h.created, h.deliveries_eq⟩
  · rw [Query.attempt_of_not_reachesHook hq]
    exact ⟨rfl, rfl⟩

/-- Serving a query creates no coroutine that answers a request, and replies to no
other request. -/
theorem handleRequest_query_effects (env : Env) (call : UserCall V) (i : Nat) (q : Query)
    (context : Context String V) :
    coroutines ((handleRequest env call i (.query q)).run (World.start context)).2.spawned = [] ∧
      ∀ p ∈ deliveries ((handleRequest env call i (.query q)).run (World.start context)).2.log,
        p.1 = i := by
  obtain ⟨hspawned, hlog⟩ := Query.attempt_effects env call q context
  rcases h : (q.attempt env call).run (World.start context) with ⟨r, w₁⟩
  rw [h] at hspawned hlog
  rw [run_handleRequest_query env call i q h]
  refine ⟨hspawned, ?_⟩
  simp only [deliveries_append, hlog, List.nil_append]
  rcases r with fault | reply
  · cases fault with
    | terminate => simp [queryTail]
    | raised e => cases requestContextIn w₁.context <;> simp [queryTail, deliveries]
  · simp [queryTail, deliveries]

theorem Isolated.serve {k : Kernel V} (h : Isolated k) (env : Env) (r : Request V)
    (call : UserCall V) : Isolated (k.serve env r call).state := by
  have hlen : k.requests.length < (k.requests ++ [r]).length := by simp
  have hget : (k.requests ++ [r])[k.requests.length]? = some r := by simp
  -- The record of the new request is made in the kernel that knows the request.
  have key : ∀ w : World V,
      (∀ cb ∈ coroutines w.spawned, k.requests.length = cb ∧ ∃ c args, r = .execute c args) →
      (∀ c args, r = .execute c args → w.Sees c) →
      Isolated
        (({ k with requests := k.requests ++ [r] } : Kernel V).record k.requests.length w) := by
    intro w hcreated hsees
    refine (h.addRequest r).record hlen ?_ ?_
    · intro cb hcb
      obtain ⟨rfl, c, args, rfl⟩ := hcreated cb hcb
      exact ⟨rfl, c, Kernel.contextOf_eq_some.mpr ⟨args, hget⟩⟩
    · intro c hc
      obtain ⟨args, hargs⟩ := Kernel.contextOf_eq_some.mp hc
      exact hsees c args (by simpa using hargs)
  have hrecord : Isolated (({ k with requests := k.requests ++ [r] } : Kernel V).record
      k.requests.length
        ((handleRequest env call k.requests.length r).run (World.start k.shellContext)).2) := by
    cases r with
    | execute c args =>
        obtain ⟨w, hrun, hext⟩ :=
          run_handleRequest_execute env call k.requests.length c args k.shellContext
        rw [hrun]
        refine key w (fun cb hcb => ⟨?_, c, args, rfl⟩) fun c' args' hr => ?_
        · rw [hext.coroutines_eq, createdCoroutines] at hcb
          split at hcb
          · simp at hcb
          · split at hcb
            · exact (List.mem_singleton.mp hcb).symm
            · simp at hcb
        · simp only [Request.execute.injEq] at hr
          exact hr.1 ▸ hext.sees
    | query q =>
        refine key _ (fun cb hcb => ?_) (fun c args hr => by simp at hr)
        rw [(handleRequest_query_effects env call _ q _).1] at hcb
        simp at hcb
  exact ⟨hrecord.taskOwner, hrecord.logOwner, hrecord.wrappedOwner, hrecord.task, hrecord.log⟩

/-- **A step of a task in an isolated kernel.** It delivers what its kind delivers and
creates no coroutine that answers a request; if it was made for an execute
request it saw and left the context of that request. -/
theorem Isolated.task_step {k : Kernel V} (h : Isolated k) (env : Env) {t : Task V}
    (ht : t ∈ k.tasks) (step : CoroutineStep V) :
    deliveries (t.world env step).log = t.kind.delivers env.lib step.ends ∧
      coroutines (t.world env step).spawned = [] ∧
      ∀ c, k.contextOf t.owner = some c → (t.world env step).Sees c ∧
        requestContextIn (t.world env step).context = some c := by
  have hrun : ∀ c, k.contextOf t.owner = some c →
      Extends c (t.kind.delivers env.lib step.ends) [] (World.start t.context)
        (t.world env step) := by
    intro c hc
    obtain ⟨r, w, hcode, hext, -⟩ := t.run_code env step (h.task t ht c hc)
    rwa [Task.world, hcode]
  -- The context part is `hrun`; a task of a query has no `c`, so its kind decides the rest.
  suffices hkind : deliveries (t.world env step).log = t.kind.delivers env.lib step.ends ∧
      coroutines (t.world env step).spawned = [] from
    ⟨hkind.1, hkind.2, fun c hc => ⟨(hrun c hc).sees, (hrun c hc).stillSet⟩⟩
  cases hkind : t.kind with
  | wrapped cb args =>
      obtain ⟨howner, c, hc⟩ := h.wrappedOwner t ht cb args hkind
      have hext := hrun c (howner ▸ hc)
      exact ⟨hkind ▸ hext.deliveries_eq, hext.coroutines_eq⟩
  | user =>
      have hext := run_userCoroutine_log step t.context
      rw [Task.world, Task.code, hkind]
      exact ⟨hext.deliveries_eq, hext.created⟩

theorem Isolated.resume {k : Kernel V} (h : Isolated k) (env : Env) {n : Nat}
    {step : CoroutineStep V} {re : Reaction (Kernel V)} (hre : k.resume env n step = some re) :
    Isolated re.state := by
  obtain ⟨t, ht, -, hstate, -, -⟩ := Kernel.resume_cases hre
  have hmem : t ∈ k.tasks := List.mem_of_getElem? ht
  obtain ⟨-, hcreated, hrun⟩ := h.task_step env hmem step
  have hset := h.setTask ht step fun c hc => (hrun c hc).2
  have hrecord := hset.record (h.taskOwner t hmem) (by rw [hcreated]; simp)
    fun c hc => (hrun c hc).1
  rw [hstate]
  exact ⟨hrecord.taskOwner, hrecord.logOwner, hrecord.wrappedOwner, hrecord.task, hrecord.log⟩

theorem Isolated.step {env : Env} {k k' : Kernel V} {a : KernelAction V} (h : Isolated k)
    (hstep : (kernelMachine V env).step k a = some k') : Isolated k' := by
  obtain ⟨-, ⟨r, call, rfl, rfl⟩ | ⟨n, step, re, rfl, hre, rfl⟩⟩ := kernelMachine_step_cases hstep
  · exact h.serve env r call
  · exact h.resume env hre

/-- The invariant holds in every state of every run. -/
theorem isolated_of_run {env : Env} {as : List (KernelAction V)} {k : Kernel V}
    (h : (kernelMachine V env).run as = some k) : Isolated k :=
  Machine.run_invariant Isolated.initial (fun _ _ _ hs hstep => hs.step hstep) h

/-- **Request contexts do not leak.** In every run, whatever the interleaving of
requests and task steps, a lookup of the request context that was made for the
execute request `i` found the context xeus had set for `i`: by the coroutine of
the request and by every task that descends from it, before and after any await,
by the bridge's error reports, and by a blocking interpreter. The same context is
visible when the callback of the request is called. -/
theorem requestContext_of_own_request {env : Env} {as : List (KernelAction V)} {k : Kernel V}
    (h : (kernelMachine V env).run as = some k) {i : Nat} {c : V} {args : ExecuteArgs}
    (hi : k.requests[i]? = some (.execute c args)) :
    (∀ src found, (i, Event.contextRead src found) ∈ k.log → found = some c) ∧
      ∀ j seen reply, (i, Event.delivered j seen reply) ∈ k.log → seen = some c := by
  have hk := isolated_of_run h
  have hc : k.contextOf i = some c := Kernel.contextOf_eq_some.mpr ⟨args, hi⟩
  exact ⟨fun _ _ he => hk.log _ he c hc, fun _ _ _ he => hk.log _ he c hc⟩

/-- Two cells of an async kernel overlap: the first one spawns a task, the second
one arrives, then the spawned task and both cells go on. -/
def overlappingCells : List (KernelAction Nat) :=
  [.serve (.execute 10 ⟨1, "a", false, true, .obj [], true⟩) ⟨[], .returned .none⟩,
   .resume 0 ⟨[.createTask], none⟩,
   .serve (.execute 20 ⟨2, "b", false, true, .obj [], true⟩) ⟨[], .returned .none⟩,
   .resume 1 ⟨[.publish (.stream "stdout" "child")], some (.returned .none)⟩,
   .resume 2 ⟨[.publish (.stream "stdout" "second")], none⟩,
   .resume 0 ⟨[.publish (.stream "stdout" "first")], some (.returned .none)⟩]

theorem requestContext_of_overlappingCells :
    ∃ k, (kernelMachine Nat asyncioKernel).run overlappingCells = some k ∧
      (∀ src found, (0, Event.contextRead src found) ∈ k.log → found = some 10) ∧
      ∀ j seen reply, (0, Event.delivered j seen reply) ∈ k.log → seen = some 10 := by
  obtain ⟨k, hk⟩ : ∃ k, (kernelMachine Nat asyncioKernel).run overlappingCells = some k := ⟨_, rfl⟩
  have hfirst : k.requests[0]? = some (.execute 10 ⟨1, "a", false, true, .obj [], true⟩) :=
    Machine.read_run (fun k : Kernel Nat => k.requests[0]?) hk rfl
  exact ⟨k, hk, requestContext_of_own_request hk hfirst⟩

end XeusPywrap
