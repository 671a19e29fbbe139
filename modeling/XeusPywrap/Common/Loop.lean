import XeusPywrap.Common.Exec

/-!
# Common.Loop

The loop `while not done: body` over computations with failures, cut off after a
number of iterations. What a loop does is the list of its iterations, each with
the state before it, how it ended and the state after it.

* `iterations_take`: cutting off earlier gives a beginning of the same list;
* `mem_iterations_of_ended`: the iterations of a loop that has ended are all there are;
* `ended_unique`: two cuts at which a loop has ended see the same end;
* `iterations_invariant`: an invariant of the body holds before every iteration;
* `eq_of_outputs_eq`: two outputs that agree at every cut agree on every iteration;
* `collected`: output that every iteration appends to is the concatenation of what
  the iterations append.
-/

/-- The loop `while not done: body`. -/
structure WhileLoop (σ ε : Type) where
  done : σ → Bool
  body : Exec σ ε Unit

/-- An iteration of a loop. -/
structure Iteration (σ ε : Type) where
  before : σ
  result : Except ε Unit
  after : σ

namespace WhileLoop

variable {σ ε : Type} (L : WhileLoop σ ε)

/-- The iteration from a state. -/
def iterate (s : σ) : Iteration σ ε := ⟨s, (L.body.run s).1, (L.body.run s).2⟩

/-- The first iterations from a state: fewer than `n` if the loop ends before. -/
def iterations : Nat → σ → List (Iteration σ ε)
  | 0, _ => []
  | n + 1, s =>
      if L.done s then []
      else
        match L.body.run s with
        | (.ok _, s') => L.iterate s :: iterations n s'
        | (.error _, _) => [L.iterate s]

/-- The loop, cut off after `n` iterations: how it ended, if it did, and the state. -/
def runFor : Nat → σ → Option (Except ε Unit) × σ
  | 0, s => (if L.done s then some (.ok ()) else none, s)
  | n + 1, s =>
      if L.done s then (some (.ok ()), s)
      else
        match L.body.run s with
        | (.ok _, s') => runFor n s'
        | (.error e, s') => (some (.error e), s')

theorem iterations_take (m n : Nat) (s : σ) :
    (L.iterations n s).take m = L.iterations (min m n) s := by
  induction n generalizing m s with
  | zero => simp [iterations]
  | succ n ih =>
      cases m with
      | zero => simp [iterations]
      | succ m =>
          rw [Nat.add_min_add_right, iterations, iterations]
          cases L.done s with
          | true => rfl
          | false =>
              rcases L.body.run s with ⟨r, s'⟩
              cases r with
              | ok u => simp [ih m s']
              | error e => simp

/-- A loop that has ended goes through no further iterations. -/
theorem iterations_of_ended {k : Nat} {s : σ} (h : (L.runFor k s).1.isSome) (m : Nat) :
    L.iterations (k + m) s = L.iterations k s := by
  induction k generalizing s with
  | zero =>
      have hdone : L.done s = true := by
        by_contra hdone
        simp [runFor, hdone] at h
      cases m with
      | zero => rfl
      | succ m => simp [iterations, hdone]
  | succ k ih =>
      rw [Nat.add_right_comm, iterations, iterations]
      rw [runFor] at h
      cases hdone : L.done s with
      | true => rfl
      | false =>
          rw [hdone] at h
          rcases hrun : L.body.run s with ⟨r, s'⟩
          rw [hrun] at h
          cases r with
          | ok u => simp only [Bool.false_eq_true, if_false, ih h]
          | error e => rfl

/-- The iterations of a loop that has ended are all there are. -/
theorem mem_iterations_of_ended {k n : Nat} {s : σ} (h : (L.runFor k s).1.isSome)
    {i : Iteration σ ε} (hi : i ∈ L.iterations n s) : i ∈ L.iterations k s := by
  rcases Nat.le_total n k with hle | hle
  · rw [← Nat.min_eq_left hle, ← iterations_take] at hi
    exact List.mem_of_mem_take hi
  · obtain ⟨m, rfl⟩ := Nat.exists_eq_add_of_le hle
    rwa [L.iterations_of_ended h m] at hi

/-- A loop that has ended is not changed by a later cut. -/
theorem runFor_add_of_ended {k : Nat} {s s' : σ} {r : Except ε Unit}
    (h : L.runFor k s = (some r, s')) (m : Nat) : L.runFor (k + m) s = (some r, s') := by
  induction k generalizing s with
  | zero =>
      have hdone : L.done s = true := by
        by_contra hdone
        simp [runFor, hdone] at h
      cases m with
      | zero => exact h
      | succ m => simpa [runFor, hdone] using h
  | succ k ih =>
      rw [Nat.add_right_comm, runFor]
      rw [runFor] at h
      cases hdone : L.done s with
      | true => simpa [hdone] using h
      | false =>
          rw [hdone] at h
          rcases hrun : L.body.run s with ⟨r', s₁⟩
          rw [hrun] at h
          cases r' with
          | ok u => exact ih h
          | error e => exact h

/-- Two cuts at which a loop has ended see the same end. -/
theorem ended_unique {m n : Nat} {s s₁ s₂ : σ} {r₁ r₂ : Except ε Unit}
    (h₁ : L.runFor m s = (some r₁, s₁)) (h₂ : L.runFor n s = (some r₂, s₂)) :
    r₁ = r₂ ∧ s₁ = s₂ := by
  wlog hle : m ≤ n generalizing m n s₁ s₂ r₁ r₂ with hflip
  · obtain ⟨hr, hs⟩ := hflip h₂ h₁ (Nat.le_of_not_le hle)
    exact ⟨hr.symm, hs.symm⟩
  obtain ⟨d, rfl⟩ := Nat.exists_eq_add_of_le hle
  rw [runFor_add_of_ended L h₁ d, Prod.mk.injEq, Option.some.injEq] at h₂
  exact h₂

variable {L} {I : σ → Prop} {n : Nat} {s : σ}

/-- Every iteration is one of the body, from a state in the invariant. -/
theorem iterations_invariant (hbody : Exec.Maintains I (fun _ => True) L.body) (hs : I s) :
    ∀ i ∈ L.iterations n s, I i.before ∧ L.done i.before = false ∧ i = L.iterate i.before := by
  induction n generalizing s with
  | zero => simp [iterations]
  | succ n ih =>
      have hnext := (hbody s hs).1
      rw [iterations]
      cases hdone : L.done s with
      | true => simp
      | false =>
          rcases hrun : L.body.run s with ⟨r, s'⟩
          rw [hrun] at hnext
          cases r with
          | ok u =>
              simp only [Bool.false_eq_true, if_false, List.forall_mem_cons]
              exact ⟨⟨hs, hdone, rfl⟩, ih hnext⟩
          | error e => simp [hs, hdone, iterate]

/-- What the body maintains, the loop maintains. -/
theorem runFor_maintains {F : ε → Prop} (hbody : Exec.Maintains I F L.body) (n : Nat) (hs : I s) :
    I (L.runFor n s).2 ∧ ∀ e, (L.runFor n s).1 = some (.error e) → F e := by
  induction n generalizing s with
  | zero =>
      refine ⟨hs, fun e he => ?_⟩
      rw [runFor] at he
      split_ifs at he
      simp at he
  | succ n ih =>
      obtain ⟨hnext, hfail⟩ := hbody s hs
      rw [runFor]
      cases L.done s with
      | true => exact ⟨hs, by simp⟩
      | false =>
          rcases hrun : L.body.run s with ⟨r, s'⟩
          rw [hrun] at hnext hfail
          cases r with
          | ok u => simpa using ih hnext
          | error e => exact ⟨hnext, fun e' he' => by simpa using hfail e' (by simpa using he')⟩

/-- Two outputs of a loop that agree however early it is cut off agree on every
iteration. -/
theorem eq_of_outputs_eq {β : Type} {f g : Iteration σ ε → List β}
    (h : ∀ n, (L.iterations n s).flatMap f = (L.iterations n s).flatMap g) :
    ∀ i ∈ L.iterations n s, f i = g i := by
  intro i hi
  obtain ⟨l₁, l₂, hl⟩ := List.append_of_mem hi
  have hbefore := h (min l₁.length n)
  have hafter := h (min (l₁ ++ [i]).length n)
  rw [← iterations_take, hl, List.take_left] at hbefore
  rw [← iterations_take, hl, List.append_cons l₁ i l₂, List.take_left, List.flatMap_append,
    List.flatMap_append, hbefore] at hafter
  simpa using List.append_cancel_left hafter

/-- Output that every iteration appends to. -/
theorem collected {β : Type} {out emitted : σ → List β}
    (hbody : Exec.Maintains I (fun _ => True) L.body)
    (hout : ∀ s, I s → L.done s = false → out (L.body.run s).2 = out s ++ emitted s)
    (hs : I s) :
    out (L.runFor n s).2 =
      out s ++ (L.iterations n s).flatMap fun i => emitted i.before := by
  induction n generalizing s with
  | zero => simp [runFor, iterations]
  | succ n ih =>
      have hnext := (hbody s hs).1
      rw [runFor, iterations]
      cases hdone : L.done s with
      | true => simp
      | false =>
          have hstep := hout s hs hdone
          rcases hrun : L.body.run s with ⟨r, s'⟩
          rw [hrun] at hnext hstep
          cases r with
          | ok u =>
              simp only [Bool.false_eq_true, if_false, List.flatMap_cons, iterate]
              rw [ih hnext, hstep, List.append_assoc]
          | error e => simpa [iterate] using hstep

/-! ### Runs of several iterations -/

variable (L)

/-- `n` iterations, none of which fails, lead from `s` to `s'`. -/
inductive Steps : Nat → σ → σ → Prop
  | zero (s : σ) : Steps 0 s s
  | succ {n : Nat} {s s₁ s' : σ} : L.done s = false → L.body.run s = (.ok (), s₁) →
      Steps n s₁ s' → Steps (n + 1) s s'

variable {L}

theorem Steps.one {s s' : σ} (hdone : L.done s = false) (hrun : L.body.run s = (.ok (), s')) :
    L.Steps 1 s s' :=
  .succ hdone hrun (.zero s')

theorem Steps.trans {m n : Nat} {s s' s'' : σ} (h : L.Steps m s s') (h' : L.Steps n s' s'') :
    L.Steps (m + n) s s'' := by
  induction h with
  | zero s => rwa [Nat.zero_add]
  | succ hdone hrun _ ih =>
      rw [Nat.add_right_comm]
      exact .succ hdone hrun (ih h')

/-- A run goes on from the state its first iterations lead to. -/
theorem Steps.runFor_add {m : Nat} {s s' : σ} (h : L.Steps m s s') (n : Nat) :
    L.runFor (m + n) s = L.runFor n s' := by
  induction h with
  | zero s => rw [Nat.zero_add]
  | succ hdone hrun _ ih => rw [Nat.add_right_comm, runFor, hdone, hrun]; exact ih

/-- A run that ends, but not yet, takes the next iteration. -/
theorem runFor_of_step {s s₁ s' : σ} {r : Except ε Unit} {n : Nat} (hdone : L.done s = false)
    (hrun : L.body.run s = (.ok (), s₁)) (h : L.runFor n s = (some r, s')) :
    ∃ m, n = m + 1 ∧ L.runFor m s₁ = (some r, s') := by
  cases n with
  | zero => simp [runFor, hdone] at h
  | succ m => exact ⟨m, rfl, by simpa [runFor, hdone, hrun] using h⟩

/-- A failing iteration ends the run. -/
theorem runFor_of_failure {s s₁ s' : σ} {r : Except ε Unit} {e : ε} {n : Nat}
    (hdone : L.done s = false) (hrun : L.body.run s = (.error e, s₁))
    (h : L.runFor n s = (some r, s')) : r = .error e ∧ s' = s₁ := by
  cases n with
  | zero => simp [runFor, hdone] at h
  | succ m =>
      simp only [runFor, hdone, hrun, Bool.false_eq_true, if_false, Prod.mk.injEq,
        Option.some.injEq] at h
      exact ⟨h.1.symm, h.2.symm⟩

end WhileLoop
