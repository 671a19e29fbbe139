import XeusPywrap.Kernel.BlockingReplies
import XeusPywrap.Text

/-!
# XeusPywrap.Kernel.Publications

What a cell of a blocking kernel publishes on the user's account: exactly what the
user's `execute_request` publishes, in order, however the call ends. The bridge
adds the tracebacks and error messages it publishes itself, and takes nothing away.

`deliveries_served` says beside it which reply the cell gets, if any.
-/

namespace XeusPywrap

variable {V : Type}

/-- The publications made by user code in a stretch of log. -/
def userPublications (log : List (Event V)) : List Publication :=
  log.filterMap fun
    | .published .user p => some p
    | _ => none

theorem userPublications_append (l l' : List (Event V)) :
    userPublications (l ++ l') = userPublications l ++ userPublications l' :=
  List.filterMap_append

/-- `publish_stream("stdout", text)`. -/
def stdoutPublication (text : Text) : Publication :=
  .stream "stdout" (String.ofList (text.map CodePoint.toChar))

/-- The publication an act of user code makes, if it makes one. -/
def UserAct.publication : UserAct V → Option Publication
  | .publish p => some p
  | _ => none

/-- User code has published these, and nothing else so far. -/
def HasPublished (ps : List Publication) (w : World V) : Prop := userPublications w.log = ps

section Bridge

variable {ps : List Publication} {env : Env}

/-- Events that are not publications of user code. -/
theorem keeps_emit {e : Event V} (he : userPublications [e] = []) :
    Exec.Maintains (HasPublished ps) (fun _ => True) (emit e) := by
  refine Exec.Maintains.update fun w hw => ?_
  rw [HasPublished, userPublications_append, he, List.append_nil]
  exact hw

theorem keeps_publish (p : Publication) :
    Exec.Maintains (HasPublished ps) (fun _ => True) (publish .bridge p : Bridge V Unit) := by
  refine Exec.Maintains.bind (Exec.Maintains.get.bind fun w => ?_) fun _ => keeps_emit rfl
  refine (keeps_emit rfl).bind fun _ => ?_
  split
  · exact Exec.Maintains.pure _
  · exact Exec.Maintains.fail trivial

theorem keeps_sendReplyCallback (cb : Nat) (ret : PyValue) :
    Exec.Maintains (HasPublished ps) (fun _ => True)
      (sendReplyCallback env.lib cb ret : Bridge V Unit) := by
  unfold sendReplyCallback
  split
  · exact Exec.Maintains.get.bind fun w => keeps_emit rfl
  · exact Exec.Maintains.fail trivial

theorem keeps_reportException (e : PyExc) :
    Exec.Maintains (HasPublished ps) (fun _ => True)
      (reportException env.lib e : Bridge V Json) := by
  unfold reportException publishStderr createErrorReply
  refine Exec.Maintains.bind ?_ fun _ => ?_
  · split
    · exact keeps_publish _
    · exact Exec.Maintains.fail trivial
  · split
    · exact Exec.Maintains.pure _
    · exact Exec.Maintains.fail trivial

theorem keeps_onException (e : PyExc) :
    Exec.Maintains (HasPublished ps) (fun _ => True)
      (BlockingInterpreterBase.onException env e : Bridge V Unit) :=
  (keeps_reportException e).bind fun _ => Exec.Maintains.pure ()

end Bridge

section Set

variable {c : V} {w : World V}

/-- One act of user code publishes what it says. -/
theorem run_toBridge_publishes (h : requestContextIn w.context = some c) (a : UserAct V) :
    ∃ w', a.toBridge.run w = (.ok (), w') ∧ requestContextIn w'.context = some c ∧
      userPublications w'.log = userPublications w.log ++ a.publication.toList := by
  obtain ⟨w', hrun, hext⟩ := run_toBridge_of_set h a
  refine ⟨w', hrun, hext.stillSet, ?_⟩
  cases a with
  | publish p =>
      have hworld : _ = w' :=
        congrArg Prod.snd ((run_publish_of_set h .user p).symm.trans hrun)
      rw [← hworld]
      exact userPublications_append _ _
  | setVariable x v =>
      obtain rfl : _ = w' := congrArg Prod.snd hrun
      exact (List.append_nil _).symm
  | createTask =>
      obtain rfl : _ = w' := congrArg Prod.snd hrun
      exact (List.append_nil _).symm

theorem run_runActs_publishes (h : requestContextIn w.context = some c)
    (acts : List (UserAct V)) :
    ∃ w', (runActs acts).run w = (.ok (), w') ∧
      userPublications w'.log =
        userPublications w.log ++ acts.filterMap UserAct.publication := by
  induction acts generalizing w with
  | nil => exact ⟨w, rfl, (List.append_nil _).symm⟩
  | cons a acts ih =>
      obtain ⟨w₁, hrun₁, hset, hpub₁⟩ := run_toBridge_publishes h a
      obtain ⟨w₂, hrun₂, hpub₂⟩ := ih hset
      refine ⟨w₂, ?_, ?_⟩
      · rw [runActs, Exec.each_cons, Exec.run_bind_ok hrun₁]
        exact hrun₂
      · rw [hpub₂, hpub₁, List.append_assoc, List.filterMap_cons]
        cases a.publication <;> rfl

/-- The user's `execute_request` publishes what its acts publish. -/
theorem run_callHook_publishes (h : requestContextIn w.context = some c) (o : Overrides)
    (call : UserCall V) (args : ExecuteArgs) :
    userPublications ((callHook o call (.execute args)).run w).2.log =
      userPublications w.log ++ call.acts.filterMap UserAct.publication := by
  have hcalled : requestContextIn
      ({ w with log := w.log ++ [.called (.execute args)] } : World V).context = some c := h
  obtain ⟨w', hrun, hpub⟩ := run_runActs_publishes hcalled call.acts
  have hcall : ((callHook o call (.execute args)).run w).2 = w' := by
    rw [callHook, emit, Exec.run_bind_ok (Exec.run_update _ w)]
    show ((call.run).run _).2 = w'
    rw [UserCall.run, Exec.run_bind_ok hrun]
    cases call.outcome <;> rfl
  rw [hcall, hpub, userPublications_append]
  exact congrArg (· ++ _) (List.append_nil _)

end Set

/-- **What a cell publishes.** A blocking kernel publishes for an execute request, on
the user's account, what the acts of the user's call publish. -/
theorem userPublications_served {env : Env} (hbase : env.base = .blocking) (k : Kernel V) (c : V)
    (args : ExecuteArgs) (call : UserCall V) :
    userPublications (k.served env (.execute c args) call).log =
      call.acts.filterMap UserAct.publication := by
  have hset : requestContextIn (k.shellContext.set requestContext c) = some c :=
    Context.lookup_set_same k.shellContext requestContext c
  have hhook := run_callHook_publishes (w := World.start (k.shellContext.set requestContext c))
    hset env.overrides call args
  -- What follows the hook publishes on the bridge's account only.
  have hbody : HasPublished (call.acts.filterMap UserAct.publication)
      ((BlockingInterpreterBase.executeRequest env call k.requests.length args).run
        (World.start (k.shellContext.set requestContext c))).2 := by
    refine Exec.after_handle (Exec.after_bind hhook fun ret => keeps_sendReplyCallback _ _)
      fun fault => ?_
    cases fault with
    | terminate => exact Exec.Maintains.fail trivial
    | raised e =>
        dsimp only
        split
        · exact keeps_onException e
        · exact Exec.Maintains.fail trivial
  show HasPublished _ ((executeRequestImpl env call k.requests.length args).run
    (World.start (k.shellContext.set requestContext c))).2
  rw [executeRequestImpl, callMethod_executeRequest, executeRequestOf, hbase]
  refine Exec.after_handle
    (Exec.after_bind (Exec.after_bind hbody fun _ => Exec.Maintains.pure _)
      fun _ => Exec.Maintains.pure ()) fun fault => ?_
  cases fault with
  | terminate => exact Exec.Maintains.fail trivial
  | raised e => exact (keeps_publish _).bind fun _ => Exec.Maintains.pure ()

/-- **The reply a cell gets** is decided by the outcome of the user's call. -/
theorem deliveries_served {env : Env} (hbase : env.base = .blocking) (k : Kernel V) (c : V)
    (args : ExecuteArgs) (call : UserCall V) :
    deliveries (k.served env (.execute c args) call).log =
      (env.lib.blockingReply call.outcome).toList.map fun reply => (k.requests.length, reply) := by
  obtain ⟨before, hbefore, hlog, -, -⟩ := serve_blocking hbase k ⟨c, args, call⟩
  rw [Kernel.serve_log] at hlog
  have hmap := List.append_cancel_left hlog
  rw [← deliveries_map_snd k.requests.length, hmap, deliveries_map_snd, deliveries_append, hbefore,
    List.nil_append, deliveries_deliveredEvents]

end XeusPywrap
