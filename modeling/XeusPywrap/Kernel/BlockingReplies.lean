import Mathlib.Data.List.Forall2
import XeusPywrap.Kernel.Replies

/-!
# XeusPywrap.Kernel.BlockingReplies

Replies of a blocking kernel.

A front end waits for the reply to every execute request, so a request whose
callback never delivers is a cell that runs for ever. `Answered` says what a run
over a list of requests should leave behind: one reply per request, in request
order, decided by the outcome of the user's call, after everything published for
the request. `run_blocking` says what it does leave behind: the replies of those
requests whose outcome can be sent, and nothing for the others, because the
handler in `_execute_request` builds an error reply without sending it.
-/

namespace XeusPywrap

variable {V : Type}

/-- An execute request, with what the user's `execute_request` does for it. -/
structure ExecuteRequest (V : Type) where
  context : V
  args : ExecuteArgs
  call : UserCall V

def ExecuteRequest.toAction (r : ExecuteRequest V) : KernelAction V :=
  .serve (.execute r.context r.args) r.call

/-- Each of the requests has been answered exactly once, in request order, and
its reply came after everything that was published for it. -/
structure Answered (lib : Libraries) (reqs : List (ExecuteRequest V)) (k : Kernel V) : Prop where
  replies : ∃ replies : List Json,
    List.Forall₂ (fun r reply => lib.Answers r.call.outcome reply) reqs replies ∧
      k.delivered = (List.range reqs.length).zip replies
  last : ∀ i < reqs.length, ∃ before seen reply,
    k.eventsOf i = before ++ [.delivered i seen reply] ∧ deliveries before = []

/-- After each request of the list all requests up to it are answered. -/
def AnsweredThroughout (env : Env) (reqs : List (ExecuteRequest V)) : Prop :=
  ∀ n ≤ reqs.length, ∃ k,
    (kernelMachine V env).run ((reqs.take n).map ExecuteRequest.toAction) = some k ∧
      Answered env.lib (reqs.take n) k

/-! ### One request -/

theorem Libraries.blockingReply_isSome (lib : Libraries) (o : Outcome) :
    (lib.blockingReply o).isSome = o.sendable := by
  rcases o with ⟨_ | v | _⟩ | e <;> rfl

theorem Libraries.answers_of_blockingReply {lib : Libraries} {o : Outcome} {reply : Json}
    (h : lib.blockingReply o = some reply) : lib.Answers o reply := by
  rcases o with ⟨_ | v | _⟩ | e <;>
    simp only [blockingReply, replyOf, PyValue.toJson?, Option.some.injEq, reduceCtorEq] at h <;>
    exact h.symm

/-- The entry a reply leaves in the log. -/
def deliveredEvents (i : Nat) (c : V) (reply : Option Json) : List (Event V) :=
  reply.toList.map fun reply => .delivered i (some c) reply

theorem deliveries_deliveredEvents (i : Nat) (c : V) (reply : Option Json) :
    deliveries (deliveredEvents i c reply) = reply.toList.map fun reply => (i, reply) := by
  cases reply <;> rfl

/-- **What serving one execute request adds** in a blocking kernel: some events
without a reply, then the reply if the outcome of the user's call can be sent. -/
theorem serve_blocking {env : Env} (hbase : env.base = .blocking) (k : Kernel V)
    (r : ExecuteRequest V) :
    ∃ before, deliveries before = [] ∧
      (k.serve env (.execute r.context r.args) r.call).state.log =
        k.log ++ (before ++ deliveredEvents k.requests.length r.context
          (env.lib.blockingReply r.call.outcome)).map (fun e => (k.requests.length, e)) ∧
      (k.serve env (.execute r.context r.args) r.call).state.requests =
        k.requests ++ [.execute r.context r.args] ∧
      (k.serve env (.execute r.context r.args) r.call).state.alive = true := by
  have hset : requestContextIn
      (World.start (k.shellContext.set requestContext r.context)).context = some r.context :=
    Context.lookup_set_same k.shellContext requestContext r.context
  obtain ⟨w₁, w', hext, hrun, hreply⟩ :=
    run_executeRequestImpl_blocking hbase hset r.call k.requests.length r.args
  have hserve : (handleRequest env r.call k.requests.length (.execute r.context r.args)).run
      (World.start k.shellContext) = (.ok (), w') := hrun
  -- The log of the handler is what came before the reply, and the reply.
  have hlog : ∃ before, deliveries before = [] ∧ w'.log = before ++
      deliveredEvents k.requests.length r.context (env.lib.blockingReply r.call.outcome) := by
    cases hout : env.lib.blockingReply r.call.outcome with
    | some reply =>
        rw [hout] at hreply
        subst hreply
        exact ⟨w₁.log, hext.deliveries_eq, by rw [hext.stillSet]; rfl⟩
    | none =>
        rw [hout] at hreply
        exact ⟨w'.log, (hext.trans hreply).deliveries_eq, by simp [deliveredEvents]⟩
  obtain ⟨before, hbefore, hlog⟩ := hlog
  refine ⟨before, hbefore, ?_, rfl, ?_⟩
  · simp only [Kernel.serve, hserve, Kernel.record, hlog]
  · simp only [Kernel.serve, hserve, survives, faultOf]
    rfl

/-! ### Runs -/

/-- The replies a blocking kernel delivers to a list of requests. -/
def blockingReplies (lib : Libraries) (reqs : List (ExecuteRequest V)) : List (Nat × Json) :=
  reqs.zipIdx.filterMap fun p =>
    (lib.blockingReply p.1.call.outcome).map fun reply => (p.2, reply)

theorem blockingReplies_snoc (lib : Libraries) (reqs : List (ExecuteRequest V))
    (r : ExecuteRequest V) :
    blockingReplies lib (reqs ++ [r]) = blockingReplies lib reqs ++
      (lib.blockingReply r.call.outcome).toList.map fun reply => (reqs.length, reply) := by
  simp only [blockingReplies, List.zipIdx_append, List.filterMap_append, List.zipIdx_singleton,
    List.filterMap_cons, List.filterMap_nil, Nat.zero_add]
  cases lib.blockingReply r.call.outcome <;> rfl

/-- **A run of a blocking kernel.** It serves every request, and it delivers exactly
the replies of the outcomes that can be sent; what it did for a request ends with
the reply, if there is one. -/
theorem run_blocking (env : Env) (hbase : env.base = .blocking) (reqs : List (ExecuteRequest V)) :
    ∃ k, (kernelMachine V env).run (reqs.map ExecuteRequest.toAction) = some k ∧
      k.alive = true ∧ k.requests.length = reqs.length ∧
      k.delivered = blockingReplies env.lib reqs ∧
      ∀ i (hi : i < reqs.length), ∃ before, deliveries before = [] ∧
        k.eventsOf i = before ++
          deliveredEvents i reqs[i].context (env.lib.blockingReply reqs[i].call.outcome) := by
  induction reqs using List.reverseRecOn with
  | nil => exact ⟨Kernel.initial, rfl, rfl, rfl, rfl, fun i hi => absurd hi (Nat.not_lt_zero i)⟩
  | append_singleton reqs r ih =>
      obtain ⟨k, hrun, halive, hlen, hdelivered, hevents⟩ := ih
      have hiso := isolated_of_run hrun
      obtain ⟨before, hbefore, hlog, hrequests, halive'⟩ := serve_blocking hbase k r
      refine ⟨(k.serve env (.execute r.context r.args) r.call).state, ?_, halive', ?_, ?_, ?_⟩
      · rw [List.map_append, List.map_singleton, Machine.run_snoc, hrun]
        simp [kernelMachine, halive, ExecuteRequest.toAction]
      · simp [hrequests, hlen]
      · rw [Kernel.delivered, hlog, List.map_append, deliveries_append, deliveries_map_snd,
          deliveries_append, hbefore, List.nil_append, deliveries_deliveredEvents,
          blockingReplies_snoc, ← hdelivered, hlen]
        rfl
      · intro i hi
        rw [Kernel.eventsOf, hlog, List.filterMap_append, List.filterMap_map, hlen]
        rcases Nat.lt_succ_iff_lt_or_eq.mp (by simpa using hi) with hlt | rfl
        · -- An earlier request: nothing new was done for it.
          obtain ⟨before', hbefore', hevents'⟩ := hevents i hlt
          refine ⟨before', hbefore', ?_⟩
          rw [List.getElem_append_left hlt, ← hevents', Kernel.eventsOf]
          have hne : reqs.length ≠ i := fun h => absurd (h ▸ hlt) (Nat.lt_irrefl _)
          simp [hne]
        · -- The new request: nothing had been done for it before.
          refine ⟨before, hbefore, ?_⟩
          have hold : k.log.filterMap
              (fun p => if p.1 = reqs.length then some p.2 else none) = [] := by
            rw [List.filterMap_eq_nil_iff]
            intro p hp
            have := hiso.logOwner p hp
            rw [if_neg (by omega)]
          rw [hold]
          simp

/-! ### When every request is answered -/

/-- The reply of an outcome that can be sent. -/
def Libraries.sentReply (lib : Libraries) (o : Outcome) : Json := (lib.blockingReply o).getD .null

theorem Libraries.blockingReply_of_sendable (lib : Libraries) {o : Outcome} (h : o.sendable) :
    lib.blockingReply o = some (lib.sentReply o) := by
  rw [← lib.blockingReply_isSome] at h
  obtain ⟨reply, hreply⟩ := Option.isSome_iff_exists.mp h
  rw [Libraries.sentReply, hreply]
  rfl

/-- If every outcome can be sent, the replies are one for each request, in order. -/
theorem blockingReplies_of_sendable (lib : Libraries) {reqs : List (ExecuteRequest V)}
    (hall : ∀ r ∈ reqs, r.call.outcome.sendable) :
    blockingReplies lib reqs =
      (List.range reqs.length).zip (reqs.map fun r => lib.sentReply r.call.outcome) := by
  induction reqs using List.reverseRecOn with
  | nil => rfl
  | append_singleton reqs r ih =>
      have hr : r.call.outcome.sendable := hall r (by simp)
      rw [blockingReplies_snoc, ih fun r hr => hall r (List.mem_append_left _ hr),
        lib.blockingReply_of_sendable hr, List.length_append, List.length_singleton,
        List.range_succ, List.map_append, List.zip_append (by simp)]
      rfl

/-- One reply per request means that every outcome could be sent. -/
theorem sendable_of_length_eq (lib : Libraries) {reqs : List (ExecuteRequest V)}
    (h : (blockingReplies lib reqs).length = reqs.length) :
    ∀ r ∈ reqs, r.call.outcome.sendable := by
  intro r hr
  obtain ⟨i, hi, rfl⟩ := List.mem_iff_getElem.mp hr
  rw [← List.length_zipIdx (l := reqs) (i := 0), blockingReplies,
    List.filterMap_length_eq_length] at h
  have := h (reqs[i], i) (by simp [List.mk_mem_zipIdx_iff_getElem?, hi])
  rwa [Option.isSome_map, lib.blockingReply_isSome] at this

/-- The run over a list of requests answers them if every outcome can be sent. -/
theorem answered_of_sendable {env : Env} {reqs : List (ExecuteRequest V)} {k : Kernel V}
    (hdelivered : k.delivered = blockingReplies env.lib reqs)
    (hevents : ∀ i (hi : i < reqs.length), ∃ before, deliveries before = [] ∧
      k.eventsOf i = before ++
        deliveredEvents i reqs[i].context (env.lib.blockingReply reqs[i].call.outcome))
    (hall : ∀ r ∈ reqs, r.call.outcome.sendable) : Answered env.lib reqs k := by
  constructor
  · refine ⟨reqs.map fun r => env.lib.sentReply r.call.outcome, ?_, ?_⟩
    · rw [List.forall₂_map_right_iff, List.forall₂_same]
      exact fun r hr =>
        Libraries.answers_of_blockingReply (env.lib.blockingReply_of_sendable (hall r hr))
    · rw [hdelivered, blockingReplies_of_sendable env.lib hall]
  · intro i hi
    obtain ⟨before, hbefore, heq⟩ := hevents i hi
    rw [env.lib.blockingReply_of_sendable (hall _ (List.getElem_mem hi))] at heq
    exact ⟨before, _, _, heq, hbefore⟩

/-- **When a blocking kernel answers every request**: exactly when every call of
the user's `execute_request` returns `None` or a value with a JSON conversion. An
exception, or a value without a conversion, leaves the request without a reply. -/
theorem answeredThroughout_iff_sendable (lib : Libraries) (globals : List String)
    (overrides : Overrides) (reqs : List (ExecuteRequest V)) :
    AnsweredThroughout ⟨lib, .blocking, globals, overrides⟩ reqs ↔
      ∀ r ∈ reqs, r.call.outcome.sendable := by
  constructor
  · intro h
    obtain ⟨k, hrun, hanswered⟩ := h reqs.length (Nat.le_refl _)
    obtain ⟨k', hrun', -, -, hdelivered, -⟩ :=
      run_blocking ⟨lib, .blocking, globals, overrides⟩ rfl reqs
    rw [List.take_length] at hrun hanswered
    obtain rfl : k' = k := Option.some.inj (hrun'.symm.trans hrun)
    obtain ⟨replies, hforall, hreplies⟩ := hanswered.replies
    refine sendable_of_length_eq lib ?_
    rw [← hdelivered, hreplies, List.length_zip, List.length_range, ← hforall.length_eq,
      Nat.min_self]
  · intro hall n _
    obtain ⟨k, hrun, -, -, hdelivered, hevents⟩ :=
      run_blocking ⟨lib, .blocking, globals, overrides⟩ rfl (reqs.take n)
    exact ⟨k, hrun, answered_of_sendable hdelivered hevents fun r hr =>
      hall r (List.mem_of_mem_take hr)⟩

/-- A cell that raises a `ValueError` is never answered. -/
theorem unanswered_of_valueError :
    ¬ AnsweredThroughout (plainKernel .blocking)
      [(⟨0, ⟨1, "1/0", false, true, .obj [], true⟩,
        ⟨[], .raised ⟨.exception, "ValueError", "no"⟩⟩⟩ : ExecuteRequest Nat)] := by
  intro h
  obtain ⟨k, hrun, hanswered⟩ := h 1 (Nat.le_refl 1)
  obtain ⟨replies, hforall, hreplies⟩ := hanswered.replies
  -- The kernel has delivered nothing, yet one reply is due.
  have hnone : k.delivered = [] := Machine.read_run Kernel.delivered hrun rfl
  rw [hnone] at hreplies
  have hlen := congrArg List.length hreplies
  rw [List.length_zip, List.length_range, ← hforall.length_eq] at hlen
  exact absurd hlen (by decide)

end XeusPywrap
