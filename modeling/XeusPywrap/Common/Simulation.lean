import XeusPywrap.Common.Loop

/-!
# Common.Simulation

Computations on different states that end alike: both return, with related values, or
both fail with the same failure, and the states they end in are related, as it may be
less closely after a failure.

* `Alike`, and how it goes through `bind`, `handle` and `zoom`;
* `WhileLoop.runFor_alike`: loops whose bodies end alike run alike.
-/

variable {σ τ ε α α' β β' : Type}

namespace Exec

/-- The two ends of a pair of computations: `Q` relates the values and the states after
a return, `E` the states after a failure. -/
inductive Alike (Q : α → α' → σ → τ → Prop) (E : σ → τ → Prop) :
    Except ε α × σ → Except ε α' × τ → Prop
  | ok {a : α} {a' : α'} {s : σ} {t : τ} : Q a a' s t → Alike Q E (.ok a, s) (.ok a', t)
  | error {e : ε} {s : σ} {t : τ} : E s t → Alike Q E (.error e, s) (.error e, t)

variable {Q : α → α' → σ → τ → Prop} {E : σ → τ → Prop}

theorem run_get_bind (f : σ → Exec σ ε α) (s : σ) : (get >>= f).run s = (f s).run s := rfl

theorem run_update_bind (g : σ → σ) (f : Unit → Exec σ ε α) (s : σ) :
    (update g >>= f).run s = (f ()).run (g s) := rfl

theorem Alike.bind {Q' : β → β' → σ → τ → Prop} {m : Exec σ ε α} {m' : Exec τ ε α'}
    {f : α → Exec σ ε β} {f' : α' → Exec τ ε β'} {s : σ} {t : τ}
    (h : Alike Q E (m.run s) (m'.run t))
    (hf : ∀ a a' s' t', Q a a' s' t' → Alike Q' E ((f a).run s') ((f' a').run t')) :
    Alike Q' E ((m >>= f).run s) ((m' >>= f').run t) := by
  generalize hm : m.run s = r at h
  generalize hm' : m'.run t = r' at h
  cases h with
  | ok hq =>
      rw [run_bind_ok hm, run_bind_ok hm']
      exact hf _ _ _ _ hq
  | error he =>
      rw [run_bind_error hm, run_bind_error hm']
      exact .error he

/-- What follows on the left only. -/
theorem Alike.bind_left {Q' : β → α' → σ → τ → Prop} {m : Exec σ ε α} {f : α → Exec σ ε β}
    {s : σ} {r : Except ε α' × τ} (h : Alike Q E (m.run s) r)
    (hf : ∀ a a' s' t', Q a a' s' t' → Alike Q' E ((f a).run s') (.ok a', t')) :
    Alike Q' E ((m >>= f).run s) r := by
  generalize hm : m.run s = r' at h
  cases h with
  | ok hq =>
      rw [run_bind_ok hm]
      exact hf _ _ _ _ hq
  | error he =>
      rw [run_bind_error hm]
      exact .error he

theorem Alike.handle {E' : σ → τ → Prop} {m : Exec σ ε α} {m' : Exec τ ε α'} {h : ε → Exec σ ε α}
    {h' : ε → Exec τ ε α'} {s : σ} {t : τ} (hm : Alike Q E (m.run s) (m'.run t))
    (hh : ∀ e s' t', E s' t' → Alike Q E' ((h e).run s') ((h' e).run t')) :
    Alike Q E' ((Exec.handle m h).run s) ((Exec.handle m' h').run t) := by
  generalize hr : m.run s = r at hm
  generalize hr' : m'.run t = r' at hm
  cases hm with
  | ok hq =>
      rw [run_handle_ok hr, run_handle_ok hr']
      exact .ok hq
  | error he =>
      rw [run_handle_error hr, run_handle_error hr']
      exact hh _ _ _ he

theorem Alike.mono {Q' : α → α' → σ → τ → Prop} {E' : σ → τ → Prop} {r : Except ε α × σ}
    {r' : Except ε α' × τ} (h : Alike Q E r r') (hQ : ∀ a a' s t, Q a a' s t → Q' a a' s t)
    (hE : ∀ s t, E s t → E' s t) : Alike Q' E' r r' := by
  cases h with
  | ok hq => exact .ok (hQ _ _ _ _ hq)
  | error he => exact .error (hE _ _ he)

/-- The same computation on the part of the states in which they agree. -/
theorem Alike.zoom {ρ : Type} {Q : α → α → σ → τ → Prop} {get : σ → ρ} {set : ρ → σ → σ}
    {get' : τ → ρ} {set' : ρ → τ → τ}
    {m : Exec ρ ε α} {s : σ} {t : τ} (hget : get s = get' t)
    (hq : ∀ a r, Q a a (set r s) (set' r t)) (he : ∀ r, E (set r s) (set' r t)) :
    Alike Q E ((Exec.zoom get set m).run s) ((Exec.zoom get' set' m).run t) := by
  rw [run_zoom, run_zoom, hget]
  rcases m.run (get' t) with ⟨r, x⟩
  cases r with
  | ok a => exact .ok (hq a x)
  | error e => exact .error (he x)

end Exec

namespace WhileLoop

variable {L : WhileLoop σ ε} {L' : WhileLoop τ ε} {R E : σ → τ → Prop}

/-- **Loops run alike** if their bodies do, from states that are related. -/
theorem runFor_alike (hdone : ∀ s t, R s t → L.done s = L'.done t) (hE : ∀ s t, R s t → E s t)
    (hbody : ∀ s t, R s t → L.done s = false →
      Exec.Alike (fun _ _ => R) E (L.body.run s) (L'.body.run t))
    (n : Nat) {s : σ} {t : τ} (h : R s t) :
    (L.runFor n s).1 = (L'.runFor n t).1 ∧ E (L.runFor n s).2 (L'.runFor n t).2 ∧
      ((∀ e, (L.runFor n s).1 ≠ some (.error e)) → R (L.runFor n s).2 (L'.runFor n t).2) := by
  induction n generalizing s t with
  | zero =>
      rw [runFor, runFor, hdone s t h]
      exact ⟨rfl, hE s t h, fun _ => h⟩
  | succ n ih =>
      rw [runFor, runFor]
      cases hd : L.done s with
      | true =>
          rw [← hdone s t h, hd]
          exact ⟨rfl, hE s t h, fun _ => h⟩
      | false =>
          rw [← hdone s t h, hd]
          have halike := hbody s t h hd
          generalize L.body.run s = r at halike
          generalize L'.body.run t = r' at halike
          cases halike with
          | ok hr => simpa using ih hr
          | error he => simpa using he

end WhileLoop
