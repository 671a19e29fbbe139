import XeusPywrap.Basic.ExecuteRefinement

/-!
# XeusPywrap.Basic.WhileLoops

`WHILE` and `WEND` before and during an execution: `__validate_while_wend` accepts the
programs in which they are brackets that match, and in these a `WHILE` whose condition
is false is left at its own `WEND` (`validateWhileWend_spec`).
-/

namespace XeusPywrap.Basic

variable {p : Program}

/-- The check is one pass with a stack of open loops. -/
theorem validateFrom_eq (stack lines : List Line) :
    validateFrom (stack.map Prod.fst) lines =
      match matchFrom bracketOf stack lines with
      | .error line => .error (unmatchedWend line.1)
      | .ok (_, left) =>
          match left.getLast? with
          | none => .ok ()
          | some line => .error (unmatchedWhile line.1) := by
  induction lines generalizing stack with
  | nil =>
      rw [validateFrom, matchFrom, List.getLast?_map]
      dsimp only
      cases stack.getLast? <;> rfl
  | cons line lines ih =>
      obtain ⟨number, tokens⟩ := line
      cases tokens with
      | nil => rw [validateFrom, ih stack, matchFrom_plain rfl]
      | cons token tokens =>
          rw [validateFrom]
          split_ifs with hwhile hwend hempty
          · rw [matchFrom_opening (by simp [bracketOf, hwhile])]
            exact ih ((number, token :: tokens) :: stack)
          · obtain rfl : stack = [] := by simpa using hempty
            rw [matchFrom_unopened (by simp [bracketOf, hwend])]
          · cases stack with
            | nil => simp at hempty
            | cons line stack =>
                rw [matchFrom_closing (by simp [bracketOf, hwend])]
                refine (ih stack).trans ?_
                cases matchFrom bracketOf stack lines <;> rfl
          · rw [matchFrom_plain (by simp [bracketOf, hwhile, hwend])]
            exact ih stack

/-- The line at index `i` has its own `WEND`, and skipping from it goes on behind this. -/
def SkipsToWend (p : Program) (i : Nat) : Prop :=
  ∃ (j : Nat) (wend : Line) (body : Forest Line), p.program.entries[j]? = some wend ∧
    bracketOf wend = .closing ∧ body.Fits bracketOf ∧
    p.program.entries.drop (i + 1) = body.flatten ++ wend :: p.program.entries.drop (j + 1) ∧
    skipWend 0 (p.program.entries.drop (i + 1)) (i + 1) = .ok (some (j + 1))

/-- In a program whose loops match, a `WHILE` is skipped up to its own `WEND`. -/
theorem skipsToWend_of_matchFrom (hblanks : p.NoBlanks) {pairs : List (Line × Line)}
    (hmatch : matchFrom bracketOf [] p.program.entries = .ok (pairs, [])) {i : Nat} {line : Line}
    (hline : p.program.entries[i]? = some line) (hopening : bracketOf line = .opening) :
    SkipsToWend p i := by
  obtain ⟨hlt, rfl⟩ := List.getElem?_eq_some_iff.mp hline
  rw [← List.take_append_drop i p.program.entries, List.drop_eq_getElem_cons hlt,
    matchFrom_append] at hmatch
  obtain ⟨⟨ps, stack⟩, -, hrest⟩ := Except.bind_eq_ok_iff.mp hmatch
  obtain ⟨⟨ps', left⟩, hrest, heq⟩ := Except.map_eq_ok_iff.mp hrest
  obtain rfl : left = [] := (Prod.mk.inj heq).2
  obtain ⟨body, wend, post, hbody, hwend, hpost⟩ := exists_block_of_matchFrom hopening hrest
  have hlength := congrArg List.length hpost
  rw [List.length_drop, List.length_append, List.length_cons] at hlength
  have hget : p.program.entries[i + 1 + body.flatten.length]? = some wend := by
    rw [← List.getElem?_drop, hpost, List.getElem?_append_right (Nat.le_refl _), Nat.sub_self]
    rfl
  have hdrop : p.program.entries.drop (i + 1 + body.flatten.length + 1) = post := by
    rw [← List.drop_drop, ← List.drop_drop, hpost, List.drop_left]
    rfl
  refine ⟨_, wend, body, hget, hwend, hbody, hpost.trans (by rw [hdrop]), ?_⟩
  have hskip : skipFrom bracketOf 0 (p.program.entries.drop (i + 1)) = some post := by
    rw [hpost, skipFrom_flatten hbody, skipFrom_partner hwend]
  have hlines : ∀ line ∈ p.program.entries.drop (i + 1), line.2 ≠ [] := fun line hline =>
    hblanks line (List.mem_of_mem_drop hline)
  have hspec := skipWend_spec hlines rfl 0
  rw [hskip] at hspec
  generalize skipWend 0 _ _ = skipped at hspec ⊢
  match skipped, hspec with
  | .ok none, hspec => simp at hspec
  | .ok (some j), ⟨hj, hle⟩ =>
      have hj' := congrArg List.length (Option.some.inj hj)
      rw [List.length_drop] at hj'
      simp only [Except.ok.injEq, Option.some.injEq]
      omega

/-- The error reports the first line, behind a well-bracketed beginning, that has no
partner. -/
def ReportsFirst (p : Program) (e : PyExc) : Prop :=
  ∃ (before : Forest Line) (line : Line) (after : List Line),
    before.Fits bracketOf ∧ p.program.entries = before.flatten ++ line :: after ∧
      (bracketOf line = .closing ∧ e = unmatchedWend line.1 ∨
        bracketOf line = .opening ∧ skipFrom bracketOf 0 after = none ∧
          e = unmatchedWhile line.1)

theorem validateWhileWend_of_forest {f : Forest Line} (hf : f.Fits bracketOf)
    (h : f.flatten = p.program.entries) : validateWhileWend p = .ok () := by
  have hvalidate : validateWhileWend p = _ := validateFrom_eq [] p.program.entries
  rw [hvalidate, ← h, matchFrom_flatten hf]
  rfl

/-- **What `__validate_while_wend` accepts**, and what it reports. A program it accepts
is well bracketed: no `WEND` is without partner, every `WHILE` has its own one, and
leaving the loop goes on behind it. Otherwise it reports the first line without
partner. -/
theorem validateWhileWend_spec (hblanks : p.NoBlanks) :
    match validateWhileWend p with
    | .ok () =>
        (∃ f : Forest Line, f.Fits bracketOf ∧ f.flatten = p.program.entries) ∧
          ∀ i line, p.program.entries[i]? = some line → bracketOf line = .opening →
            SkipsToWend p i
    | .error e => ReportsFirst p e := by
  have hvalidate : validateWhileWend p = _ := validateFrom_eq [] p.program.entries
  have hmatch := matchFrom_decompose bracketOf p.program.entries
  have hfits := fits_decompose bracketOf p.program.entries
  have hflat := flatten_decompose bracketOf p.program.entries
  rw [hvalidate, hmatch]
  generalize decompose bracketOf p.program.entries = d at hmatch hfits hflat
  rw [Decomposition.flatten] at hflat
  cases hopen : d.unopened with
  | cons s rest =>
      rw [hopen, Decomposition.flattenAll_cons, List.cons_append] at hflat
      have hs := (hfits.unopened s (by simp [hopen])).1
      exact ⟨d.head, s.1, _, hfits.head, hflat.symm, .inl ⟨hs, rfl⟩⟩
  | nil =>
      rw [hopen, Decomposition.flattenAll_nil, List.nil_append] at hflat
      cases hclosed : d.unclosed with
      | cons s rest =>
          rw [hclosed, Decomposition.flattenAll_cons] at hflat
          have hunclosed := hfits.unclosed
          rw [hclosed] at hunclosed
          obtain ⟨⟨ho, hs⟩, hrest⟩ := List.forall_mem_cons.mp hunclosed
          simp only [List.getLast?_reverse, List.map_cons, List.head?_cons]
          refine ⟨d.head, s.1, _, hfits.head, hflat.symm, .inr ⟨ho, ?_, rfl⟩⟩
          rw [skipFrom_flatten hs, skipFrom_flattenAll hrest]
      | nil =>
          simp only [List.map_nil, List.reverse_nil, List.getLast?_nil]
          rw [hopen, hclosed] at hmatch
          rw [hclosed, Decomposition.flattenAll_nil, List.append_nil] at hflat
          refine ⟨⟨d.head, hfits.head, hflat⟩, ?_⟩
          intro i line hline hopening
          exact skipsToWend_of_matchFrom hblanks hmatch hline hopening

/-- `10 WHILE`, `20 PRINT`, `30 WEND`. -/
def whileLines : Program where
  program :=
    ⟨[(10, [⟨some .while, "WHILE".toList⟩]), (20, [⟨some .print, "PRINT".toList⟩]),
      (30, [⟨some .wend, "WEND".toList⟩])], by decide⟩
  data := .new

theorem validateWhileWend_spec_whileLines :
    validateWhileWend whileLines = .ok () ∧
      (∃ f : Forest Line, f.Fits bracketOf ∧ f.flatten = whileLines.program.entries) ∧
      ∀ i line, whileLines.program.entries[i]? = some line → bracketOf line = .opening →
        SkipsToWend whileLines i := by
  have hblanks : whileLines.NoBlanks := by simp [Program.NoBlanks, whileLines]
  exact ⟨rfl, validateWhileWend_spec hblanks⟩

end XeusPywrap.Basic
