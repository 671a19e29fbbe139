import Mathlib.Order.Basic
import Mathlib.Tactic.Common

/-!
# Common.Exec

Computations with a state and failures, where **the state survives a failure**:
what was written, logged or sent before a failure stays written, logged or sent
when a handler further out catches it. This is how `try` blocks behave in C++ and
in Python, and it is what tells `Exec` from a state monad over `Except`, whose
failures roll the state back.

* `Exec σ ε α`, its monad structure, `fail`, `handle`, `get`, `update`, `zoom`;
* the equations `run_*`, which evaluate a computation on a state;
* `Maintains`, the rule system for invariants: a computation that starts in the
  invariant ends in it, whether it returns or fails, and fails only in the ways
  the rule allows;
* `after_bind`, `after_handle`: what one computation established stays true under
  code that maintains it.
-/

/-- A computation on states `σ` that returns an `α` or fails with an `ε`. The
state after a failure is the one the failure left behind. -/
def Exec (σ ε α : Type) := σ → Except ε α × σ

namespace Exec

variable {σ ε α β : Type}

/-- Run a computation on a state. -/
def run (m : Exec σ ε α) (s : σ) : Except ε α × σ := m s

/-- The computation that fails with `e`. -/
def fail (e : ε) : Exec σ ε α := fun s => (.error e, s)

/-- Run `m`; if it fails with `e`, go on with `h e` in the state `m` left. -/
def handle (m : Exec σ ε α) (h : ε → Exec σ ε α) : Exec σ ε α := fun s =>
  match m s with
  | (.ok a, s') => (.ok a, s')
  | (.error e, s') => h e s'

/-- Read the state. -/
def get : Exec σ ε σ := fun s => (.ok s, s)

/-- Replace the state by its image under `f`. -/
def update (f : σ → σ) : Exec σ ε Unit := fun s => (.ok (), f s)

instance : Monad (Exec σ ε) where
  pure a := fun s => (.ok a, s)
  bind m f := fun s =>
    match m s with
    | (.ok a, s') => f a s'
    | (.error e, s') => (.error e, s')

instance : LawfulMonad (Exec σ ε) := LawfulMonad.mk' _
  (fun m => by
    funext s
    rcases h : m s with ⟨r, s'⟩
    cases r with
    | ok a =>
        simp only [Functor.map, h]
        rfl
    | error e => simp only [Functor.map, h])
  (fun _ _ => rfl)
  (fun m f g => by
    funext s
    rcases h : m s with ⟨r, s'⟩
    cases r <;> simp [bind, h])

/-- Run a computation on a part of the state, which `get` reads and `set` replaces. -/
def zoom {τ : Type} (get : σ → τ) (set : τ → σ → σ) (m : Exec τ ε α) : Exec σ ε α := fun s =>
  match m (get s) with
  | (r, t) => (r, set t s)

/-- Run `f` on every element of a list, in order. -/
def each (f : α → Exec σ ε Unit) : List α → Exec σ ε Unit
  | [] => pure ()
  | a :: as => do f a; each f as

/-! ### Evaluation -/

@[simp] theorem run_pure (a : α) (s : σ) : (pure a : Exec σ ε α).run s = (.ok a, s) := rfl

@[simp] theorem run_fail (e : ε) (s : σ) : (fail e : Exec σ ε α).run s = (.error e, s) := rfl

@[simp] theorem run_get (s : σ) : (get : Exec σ ε σ).run s = (.ok s, s) := rfl

@[simp] theorem run_update (f : σ → σ) (s : σ) :
    (update f : Exec σ ε Unit).run s = (.ok (), f s) := rfl

theorem run_zoom {τ : Type} (get : σ → τ) (set : τ → σ → σ) (m : Exec τ ε α) (s : σ) :
    (zoom get set m).run s = ((m.run (get s)).1, set (m.run (get s)).2 s) := rfl

/-- A computation that returned hands its value and its state on. -/
theorem run_bind_ok {m : Exec σ ε α} {f : α → Exec σ ε β} {s s' : σ} {a : α}
    (h : m.run s = (.ok a, s')) : (m >>= f).run s = (f a).run s' := by
  simp only [run] at h
  simp only [run, bind, h]

/-- A computation that failed ends the sequence. -/
theorem run_bind_error {m : Exec σ ε α} {f : α → Exec σ ε β} {s s' : σ} {e : ε}
    (h : m.run s = (.error e, s')) : (m >>= f).run s = (.error e, s') := by
  simp only [run] at h
  simp only [run, bind, h]

theorem run_bind_congr {m m' : Exec σ ε α} {s s' : σ} (h : m.run s = m'.run s')
    (f : α → Exec σ ε β) : (m >>= f).run s = (m' >>= f).run s' := by
  simp only [run] at h
  simp only [run, bind, h]

theorem run_handle_ok {m : Exec σ ε α} {h : ε → Exec σ ε α} {s s' : σ} {a : α}
    (hm : m.run s = (.ok a, s')) : (handle m h).run s = (.ok a, s') := by
  simp only [run] at hm
  simp only [run, handle, hm]

theorem run_handle_error {m : Exec σ ε α} {h : ε → Exec σ ε α} {s s' : σ} {e : ε}
    (hm : m.run s = (.error e, s')) : (handle m h).run s = (h e).run s' := by
  simp only [run] at hm
  simp only [run, handle, hm]

theorem each_cons (f : α → Exec σ ε Unit) (a : α) (as : List α) :
    each f (a :: as) = (f a >>= fun _ => each f as) := rfl

/-! ### Invariants -/

/-- From every state in `I`, `m` ends in a state in `I`, and if it fails there,
its failure is in `F`. -/
def Maintains (I : σ → Prop) (F : ε → Prop) (m : Exec σ ε α) : Prop :=
  ∀ s, I s → I (m.run s).2 ∧ ∀ e, (m.run s).1 = .error e → F e

variable {I : σ → Prop} {F : ε → Prop}

theorem Maintains.pure (a : α) : Maintains I F (Pure.pure a : Exec σ ε α) :=
  fun _ hs => ⟨hs, by simp⟩

theorem Maintains.fail {e : ε} (he : F e) : Maintains I F (fail e : Exec σ ε α) := by
  intro s hs
  refine ⟨hs, fun e' h => ?_⟩
  simp only [run_fail, Except.error.injEq] at h
  exact h ▸ he

theorem Maintains.get : Maintains I F (get : Exec σ ε σ) := fun _ hs => ⟨hs, by simp⟩

theorem Maintains.update {f : σ → σ} (hf : ∀ s, I s → I (f s)) :
    Maintains I F (update f : Exec σ ε Unit) :=
  fun s hs => ⟨hf s hs, by simp⟩

theorem Maintains.bind {m : Exec σ ε α} {f : α → Exec σ ε β}
    (hm : Maintains I F m) (hf : ∀ a, Maintains I F (f a)) : Maintains I F (m >>= f) := by
  intro s hs
  obtain ⟨hI, hF⟩ := hm s hs
  rcases h : m.run s with ⟨r, s'⟩
  rw [h] at hI hF
  cases r with
  | ok a => rw [run_bind_ok h]; exact hf a s' hI
  | error e =>
      rw [run_bind_error h]
      refine ⟨hI, fun e' he' => ?_⟩
      simp only [Except.error.injEq] at he'
      exact he' ▸ hF e rfl

theorem Maintains.each {f : α → Exec σ ε Unit} (hf : ∀ a, Maintains I F (f a)) :
    ∀ as : List α, Maintains I F (each f as)
  | [] => Maintains.pure ()
  | a :: as => (hf a).bind fun _ => Maintains.each hf as

/-- What holds after the first computation holds after the sequence, if the rest
keeps it. -/
theorem after_bind {m : Exec σ ε α} {f : α → Exec σ ε β} {s : σ} (h : I (m.run s).2)
    (hf : ∀ a, Maintains I (fun _ => True) (f a)) : I ((m >>= f).run s).2 := by
  rcases hm : m.run s with ⟨r, s'⟩
  rw [hm] at h
  cases r with
  | ok a => rw [run_bind_ok hm]; exact (hf a s' h).1
  | error e => rw [run_bind_error hm]; exact h

/-- What holds after the body holds after the handler, if the handler keeps it. -/
theorem after_handle {m : Exec σ ε α} {handler : ε → Exec σ ε α} {s : σ} (h : I (m.run s).2)
    (hh : ∀ e, Maintains I (fun _ => True) (handler e)) : I ((handle m handler).run s).2 := by
  rcases hm : m.run s with ⟨r, s'⟩
  rw [hm] at h
  cases r with
  | ok a => rw [run_handle_ok hm]; exact h
  | error e => rw [run_handle_error hm]; exact (hh e s' h).1

end Exec

/-! ### Results -/

namespace Except

variable {ε α β : Type} {x : Except ε α}

theorem bind_eq_ok_iff {f : α → Except ε β} {b : β} :
    x.bind f = .ok b ↔ ∃ a, x = .ok a ∧ f a = .ok b := by
  cases x <;> simp [Except.bind]

theorem map_eq_ok_iff {f : α → β} {b : β} : x.map f = .ok b ↔ ∃ a, x = .ok a ∧ f a = b := by
  cases x <;> simp [Except.map]

end Except
