import Mathlib.Data.List.Induction
import Mathlib.Data.Option.Basic

/-!
# Common.Machine

Labelled machines: an initial state and an executable, guarded step function.
`step s a` is `none` when the action `a` is disabled in `s`. Everything a user of
a machine wants to know about *all runs* is derived from facts about one step:

* `run_induction`: a property of the history and the state it led to;
* `run_invariant`: a property of states;
* `holds_along_iff`: the steps of one run that break a property of states.

`read_run` evaluates a run on fixed actions, one reading of its last state at a time.
-/

/-- A machine with states `σ` and actions `α`. -/
structure Machine (σ α : Type) where
  init : σ
  step : σ → α → Option σ

namespace Machine

variable {σ α : Type} (M : Machine σ α)

/-- The state a sequence of actions leads to from `s`; `none` if one of them is
disabled when its turn comes. -/
def runFrom (s : σ) : List α → Option σ
  | [] => some s
  | a :: as => (M.step s a).bind fun s' => runFrom s' as

/-- The state a sequence of actions leads to from the initial state. -/
def run (as : List α) : Option σ := M.runFrom M.init as

theorem runFrom_cons (s : σ) (a : α) (as : List α) :
    M.runFrom s (a :: as) = (M.step s a).bind fun s' => M.runFrom s' as := rfl

theorem runFrom_append (s : σ) (as bs : List α) :
    M.runFrom s (as ++ bs) = (M.runFrom s as).bind fun s' => M.runFrom s' bs := by
  induction as generalizing s with
  | nil => rfl
  | cons a as ih =>
      rw [List.cons_append, runFrom_cons, runFrom_cons]
      cases M.step s a with
      | none => rfl
      | some s' => exact ih s'

theorem run_append (as bs : List α) :
    M.run (as ++ bs) = (M.run as).bind fun s' => M.runFrom s' bs :=
  M.runFrom_append M.init as bs

theorem run_snoc (as : List α) (a : α) :
    M.run (as ++ [a]) = (M.run as).bind fun s => M.step s a := by
  rw [run_append]
  congr 1
  funext s
  rw [runFrom_cons]
  exact Option.bind_fun_some _

variable {M}

/-- A reading of the state a run led to is that reading of the run. -/
theorem read_run {β : Type} (read : σ → β) {as : List α} {s : σ} {b : β}
    (h : M.run as = some s) (hread : (M.run as).map read = some b) : read s = b := by
  rw [h] at hread
  exact Option.some.inj hread

/-- A run passes through the state each of its beginnings leads to. -/
theorem run_split {as bs : List α} {s : σ} (h : M.run (as ++ bs) = some s) :
    ∃ s', M.run as = some s' ∧ M.runFrom s' bs = some s := by
  rw [run_append] at h
  exact Option.bind_eq_some_iff.mp h

/-- The step a run takes after its beginning `as`. -/
theorem run_step {as bs : List α} {a : α} {s : σ} (h : M.run (as ++ a :: bs) = some s) :
    ∃ s₁ s₂, M.run as = some s₁ ∧ M.step s₁ a = some s₂ ∧ M.run (as ++ [a]) = some s₂ := by
  obtain ⟨s₁, h₁, hrest⟩ := run_split h
  rw [runFrom_cons] at hrest
  obtain ⟨s₂, h₂, -⟩ := Option.bind_eq_some_iff.mp hrest
  refine ⟨s₁, s₂, h₁, h₂, ?_⟩
  rw [run_snoc, h₁]
  exact h₂

/-- **Induction over runs.** A property of a history and the state it leads to
holds of every run if it holds at the start and every enabled action extends it. -/
theorem run_induction {motive : List α → σ → Prop} (init : motive [] M.init)
    (step : ∀ as s a s', M.run as = some s → motive as s → M.step s a = some s' →
      motive (as ++ [a]) s') :
    ∀ {as : List α} {s : σ}, M.run as = some s → motive as s := by
  intro as
  induction as using List.reverseRecOn with
  | nil =>
      intro s h
      obtain rfl : M.init = s := Option.some.inj h
      exact init
  | append_singleton as a ih =>
      intro s h
      rw [run_snoc] at h
      obtain ⟨s₁, h₁, hs⟩ := Option.bind_eq_some_iff.mp h
      exact step as s₁ a s h₁ (ih h₁) hs

/-- An invariant of every step is an invariant of every run. -/
theorem run_invariant {I : σ → Prop} (init : I M.init)
    (step : ∀ s a s', I s → M.step s a = some s' → I s') {as : List α} {s : σ}
    (h : M.run as = some s) : I s :=
  run_induction (motive := fun _ s => I s) init (fun _ s a s' _ hs ha => step s a s' hs ha) h

/-- **When a property holds along a run**: exactly when no step of the run is bad, if
an invariant that implies the property survives every step but the bad ones, and a
bad step breaks the property. -/
theorem holds_along_iff (P J : σ → Prop) (Bad : σ → α → Prop) (init : J M.init)
    (holds : ∀ s, J s → P s)
    (good : ∀ as s a s', M.run as = some s → M.step s a = some s' → J s → ¬ Bad s a → J s')
    (bad : ∀ as s a s', M.run as = some s → M.step s a = some s' → Bad s a → ¬ P s')
    {as : List α} {s : σ} (h : M.run as = some s) :
    (∀ n s, M.run (as.take n) = some s → P s) ↔
      ∀ before a after s, as = before ++ a :: after → M.run before = some s → ¬ Bad s a := by
  constructor
  · rintro hP before a after s₁ rfl hrun hbad
    obtain ⟨s₁', s₂, hrun', hstep, hsnoc⟩ := run_step h
    obtain rfl : s₁' = s₁ := Option.some.inj (hrun'.symm.trans hrun)
    have htake : (before ++ a :: after).take (before.length + 1) = before ++ [a] := by
      rw [List.take_append, List.take_of_length_le (by simp)]
      simp
    exact bad before s₁' a s₂ hrun hstep hbad (hP (before.length + 1) s₂ (htake ▸ hsnoc))
  · intro hgood n s' hrun'
    refine holds s' (run_induction (motive := fun bs s => bs <+: as → J s) ?_ ?_ hrun'
      (List.take_prefix n as))
    · exact fun _ => init
    · rintro bs s₁ a s₂ hrun ih hstep ⟨after, hafter⟩
      rw [List.append_assoc] at hafter
      exact good bs s₁ a s₂ hrun hstep (ih ⟨_, hafter⟩) (hgood bs a after s₁ hafter.symm hrun)

end Machine
