import Mathlib.Data.List.Basic
import Mathlib.Data.List.Perm.Subperm

/-!
# Common.Brackets

Bracket structure of a list of symbols, where `kind` says which symbols open a
block and which close one.

A `Forest` is a well-bracketed text as a tree. Every text is, read from the left, a
forest, then closings that nothing opened, then openings that nothing closes:
`decompose`. The two ways in which programs look for partners are correct with
respect to it:

* `matchFrom`, one pass with a stack of open brackets: it fails at the first closing
  that nothing opened (`matchFrom_error_iff`), and the pairs it finds are those of
  the forests (`matchFrom_decompose`);
* `skipFrom`, which walks from an opening to its partner and counts what is nested
  in between (`skipFrom_flatten`).
-/

/-- What a symbol is to the bracket structure. -/
inductive BracketKind
  | opening
  | closing
  | plain
  deriving DecidableEq, Repr

/-- A well-bracketed text. -/
inductive Forest (α : Type)
  | nil
  | leaf (a : α) (rest : Forest α)
  | block (o : α) (body : Forest α) (c : α) (rest : Forest α)

namespace Forest

variable {α : Type}

/-- The text. -/
def flatten : Forest α → List α
  | nil => []
  | leaf a rest => a :: rest.flatten
  | block o body c rest => o :: (body.flatten ++ c :: rest.flatten)

/-- Every opening with its closing, in the order of the closings. -/
def pairs : Forest α → List (α × α)
  | nil => []
  | leaf _ rest => rest.pairs
  | block o body c rest => body.pairs ++ (o, c) :: rest.pairs

/-- The symbols stand where their kinds allow them. -/
def Fits (kind : α → BracketKind) : Forest α → Prop
  | nil => True
  | leaf a rest => kind a = .plain ∧ rest.Fits kind
  | block o body c rest =>
      kind o = .opening ∧ body.Fits kind ∧ kind c = .closing ∧ rest.Fits kind

/-- One text behind the other. -/
def append : Forest α → Forest α → Forest α
  | nil, g => g
  | leaf a rest, g => leaf a (rest.append g)
  | block o body c rest, g => block o body c (rest.append g)

theorem flatten_append (f g : Forest α) : (f.append g).flatten = f.flatten ++ g.flatten := by
  induction f with
  | nil => rfl
  | leaf a rest ih => simp [append, flatten, ih]
  | block o body c rest _ ihr => simp [append, flatten, ihr]

theorem Fits.append {kind : α → BracketKind} {f g : Forest α} (hf : f.Fits kind)
    (hg : g.Fits kind) :
    (f.append g).Fits kind := by
  induction f with
  | nil => exact hg
  | leaf a rest ih => exact ⟨hf.1, ih hf.2⟩
  | block o body c rest _ ihr => exact ⟨hf.1, hf.2.1, hf.2.2.1, ihr hf.2.2.2⟩

/-- The symbols that occur in a list of pairs. -/
def symbols (ps : List (α × α)) : List α := ps.flatMap fun p => [p.1, p.2]

@[simp] theorem symbols_cons (p : α × α) (ps : List (α × α)) :
    symbols (p :: ps) = p.1 :: p.2 :: symbols ps := rfl

@[simp] theorem symbols_append (ps qs : List (α × α)) :
    symbols (ps ++ qs) = symbols ps ++ symbols qs :=
  List.flatMap_append

/-- Pairs are made of symbols of the text, and of each one only once. -/
theorem symbols_pairs_subperm (f : Forest α) : (symbols f.pairs).Subperm f.flatten := by
  induction f with
  | nil => exact List.Subperm.refl _
  | leaf a rest ih => exact ih.trans (List.sublist_cons_self a _).subperm
  | block o body c rest ihb ihr =>
      have hperm : (symbols (body.pairs ++ (o, c) :: rest.pairs)).Perm
          (o :: (symbols body.pairs ++ c :: symbols rest.pairs)) := by
        rw [symbols_append, symbols_cons]
        exact List.perm_middle
      refine hperm.subperm.trans ((List.subperm_cons o).mpr ?_)
      exact ihb.append ((List.subperm_cons c).mpr ihr)

/-- In the text, `o` opens a block that `c` closes. -/
def Enclose (kind : α → BracketKind) (l : List α) (o c : α) : Prop :=
  kind o = .opening ∧ kind c = .closing ∧
    ∃ (pre : List α) (body : Forest α) (post : List α),
      body.Fits kind ∧ l = pre ++ o :: (body.flatten ++ c :: post)

section Enclose

variable {kind : α → BracketKind} {l : List α} {o c : α}

theorem Enclose.append (h : Enclose kind l o c) (before after : List α) :
    Enclose kind (before ++ (l ++ after)) o c := by
  obtain ⟨ho, hc, pre, body, post, hbody, rfl⟩ := h
  exact ⟨ho, hc, before ++ pre, body, post ++ after, hbody, by simp⟩

theorem enclose_of_mem_pairs {f : Forest α} (hf : f.Fits kind) (h : (o, c) ∈ f.pairs) :
    Enclose kind f.flatten o c := by
  induction f with
  | nil => simp [pairs] at h
  | leaf a rest ih => simpa [flatten] using (ih hf.2 h).append [a] []
  | block o' body c' rest ihb ihr =>
      obtain ⟨ho, hbody, hc, hrest⟩ := hf
      rw [pairs, List.mem_append, List.mem_cons, Prod.mk.injEq] at h
      rcases h with h | ⟨rfl, rfl⟩ | h
      · exact (ihb hbody h).append [o'] (c' :: rest.flatten)
      · exact ⟨ho, hc, [], body, rest.flatten, hbody, rfl⟩
      · simpa [flatten] using (ihr hrest h).append (o' :: (body.flatten ++ [c'])) []

end Enclose

end Forest

open Forest

/-- A text without gaps: a forest, then a forest behind every closing that nothing
opened, then one behind every opening that nothing closes. -/
structure Decomposition (α : Type) where
  head : Forest α
  unopened : List (α × Forest α)
  unclosed : List (α × Forest α)

namespace Decomposition

variable {α : Type} (kind : α → BracketKind)

/-- Symbols, each with the forest behind it, as a text. -/
def flattenAll (segments : List (α × Forest α)) : List α :=
  segments.flatMap fun s => s.1 :: s.2.flatten

@[simp] theorem flattenAll_nil : flattenAll ([] : List (α × Forest α)) = [] := rfl

@[simp] theorem flattenAll_cons (s : α × Forest α) (segments : List (α × Forest α)) :
    flattenAll (s :: segments) = s.1 :: (s.2.flatten ++ flattenAll segments) := rfl

def flatten (d : Decomposition α) : List α :=
  d.head.flatten ++ (flattenAll d.unopened ++ flattenAll d.unclosed)

/-- The pairs of the text, if no closing is without partner. -/
def pairs (d : Decomposition α) : List (α × α) :=
  d.head.pairs ++ d.unclosed.flatMap fun s => s.2.pairs

structure Fits (d : Decomposition α) : Prop where
  head : d.head.Fits kind
  unopened : ∀ s ∈ d.unopened, kind s.1 = .closing ∧ s.2.Fits kind
  unclosed : ∀ s ∈ d.unclosed, kind s.1 = .opening ∧ s.2.Fits kind

/-- Put a symbol in front. An opening takes the first closing without partner. -/
def cons (a : α) (d : Decomposition α) : Decomposition α :=
  match kind a, d.unopened with
  | .plain, _ => { d with head := .leaf a d.head }
  | .closing, _ => { d with head := .nil, unopened := (a, d.head) :: d.unopened }
  | .opening, (c, f) :: rest => { d with head := .block a d.head c f, unopened := rest }
  | .opening, [] => ⟨.nil, [], (a, d.head) :: d.unclosed⟩

theorem flatten_cons (a : α) (d : Decomposition α) : (d.cons kind a).flatten = a :: d.flatten := by
  unfold cons
  split
  next => rfl
  next => simp [flatten, Forest.flatten]
  next hopen => simp [flatten, Forest.flatten, hopen]
  next hopen => simp [flatten, Forest.flatten, hopen]

theorem fits_cons (a : α) {d : Decomposition α} (h : d.Fits kind) : (d.cons kind a).Fits kind := by
  unfold cons
  split
  next hk => exact ⟨⟨hk, h.head⟩, h.unopened, h.unclosed⟩
  next hk => exact ⟨trivial, List.forall_mem_cons.mpr ⟨⟨hk, h.head⟩, h.unopened⟩, h.unclosed⟩
  next hk hopen =>
    have hall := h.unopened
    rw [hopen] at hall
    obtain ⟨⟨hc, hf⟩, hrest⟩ := List.forall_mem_cons.mp hall
    exact ⟨⟨hk, h.head, hc, hf⟩, hrest, h.unclosed⟩
  next hk hopen =>
    exact ⟨trivial, by simp, List.forall_mem_cons.mpr ⟨⟨hk, h.head⟩, h.unclosed⟩⟩

theorem enclose_of_mem_flattenAll {kind : α → BracketKind} {o c : α}
    {segments : List (α × Forest α)} (h : ∀ s ∈ segments, s.2.Fits kind)
    (hmem : (o, c) ∈ segments.flatMap fun s => s.2.pairs) :
    Enclose kind (flattenAll segments) o c := by
  induction segments with
  | nil => simp at hmem
  | cons s segments ih =>
      obtain ⟨hs, hrest⟩ := List.forall_mem_cons.mp h
      rw [List.flatMap_cons, List.mem_append] at hmem
      rcases hmem with hmem | hmem
      · exact (enclose_of_mem_pairs hs hmem).append [s.1] (flattenAll segments)
      · simpa using (ih hrest hmem).append (s.1 :: s.2.flatten) []

theorem enclose_of_mem_pairs {kind : α → BracketKind} {o c : α} {d : Decomposition α}
    (hd : d.Fits kind) (h : (o, c) ∈ d.pairs) : Enclose kind d.flatten o c := by
  rw [pairs, List.mem_append] at h
  rcases h with h | h
  · exact (Forest.enclose_of_mem_pairs hd.head h).append [] _
  · have hfits := fun s hs => (hd.unclosed s hs).2
    simpa [flatten] using
      (enclose_of_mem_flattenAll hfits h).append (d.head.flatten ++ flattenAll d.unopened) []

/-- Without unopened closings, pairs and openings left open use every symbol only once. -/
theorem symbols_append_opened_subperm {d : Decomposition α} (h : d.unopened = []) :
    (symbols d.pairs ++ d.unclosed.map Prod.fst).Subperm d.flatten := by
  have hsegments : ∀ segments : List (α × Forest α),
      (symbols (segments.flatMap fun s => s.2.pairs) ++ segments.map Prod.fst).Subperm
        (flattenAll segments) := by
    intro segments
    induction segments with
    | nil => exact List.Subperm.refl _
    | cons s segments ih =>
        rw [List.flatMap_cons, symbols_append, List.map_cons, flattenAll_cons]
        have hperm : (symbols s.2.pairs ++ symbols (segments.flatMap fun s => s.2.pairs) ++
            s.1 :: segments.map Prod.fst).Perm (s.1 :: (symbols s.2.pairs ++
            symbols (segments.flatMap fun s => s.2.pairs) ++ segments.map Prod.fst)) :=
          List.perm_middle
        refine hperm.subperm.trans ((List.subperm_cons s.1).mpr ?_)
        rw [List.append_assoc]
        exact s.2.symbols_pairs_subperm.append ih
  rw [pairs, symbols_append, List.append_assoc, flatten, h, flattenAll_nil, List.nil_append]
  exact d.head.symbols_pairs_subperm.append (hsegments d.unclosed)

end Decomposition

section Decompose

variable {α : Type} (kind : α → BracketKind)

/-- The bracket structure of a text. -/
def decompose : List α → Decomposition α
  | [] => ⟨.nil, [], []⟩
  | a :: l => (decompose l).cons kind a

theorem flatten_decompose (l : List α) : (decompose kind l).flatten = l := by
  induction l with
  | nil => rfl
  | cons a l ih => rw [decompose, Decomposition.flatten_cons, ih]

theorem fits_decompose (l : List α) : (decompose kind l).Fits kind := by
  induction l with
  | nil => exact ⟨trivial, by simp [decompose], by simp [decompose]⟩
  | cons a l ih => exact Decomposition.fits_cons kind a ih

end Decompose

/-! ### Partners with a stack -/

section Match

variable {α : Type} (kind : α → BracketKind)

/-- One pass with a stack of open brackets: the pairs found and the brackets left
open, the last one first, or the closing that nothing opened. -/
def matchFrom : List α → List α → Except α (List (α × α) × List α)
  | stack, [] => .ok ([], stack)
  | stack, a :: l =>
      match kind a, stack with
      | .plain, stack => matchFrom stack l
      | .opening, stack => matchFrom (a :: stack) l
      | .closing, [] => .error a
      | .closing, o :: stack => (matchFrom stack l).map fun (ps, left) => ((o, a) :: ps, left)

variable {kind} {a o : α} {stack l : List α}

theorem matchFrom_plain (h : kind a = .plain) :
    matchFrom kind stack (a :: l) = matchFrom kind stack l := by
  simp [matchFrom, h]

theorem matchFrom_opening (h : kind a = .opening) :
    matchFrom kind stack (a :: l) = matchFrom kind (a :: stack) l := by
  simp [matchFrom, h]

theorem matchFrom_closing (h : kind a = .closing) :
    matchFrom kind (o :: stack) (a :: l) =
      (matchFrom kind stack l).map fun (ps, left) => ((o, a) :: ps, left) := by
  simp [matchFrom, h]

theorem matchFrom_unopened (h : kind a = .closing) : matchFrom kind [] (a :: l) = .error a := by
  simp [matchFrom, h]

theorem matchFrom_append (stack l l' : List α) :
    matchFrom kind stack (l ++ l') =
      (matchFrom kind stack l).bind fun (ps, left) =>
        (matchFrom kind left l').map fun (ps', left') => (ps ++ ps', left') := by
  induction l generalizing stack with
  | nil =>
      simp only [List.nil_append, matchFrom, Except.bind]
      cases matchFrom kind stack l' <;> rfl
  | cons a l ih =>
      rw [List.cons_append]
      cases ha : kind a with
      | plain => rw [matchFrom_plain ha, matchFrom_plain ha, ih]
      | opening => rw [matchFrom_opening ha, matchFrom_opening ha, ih]
      | closing =>
          cases stack with
          | nil => rw [matchFrom_unopened ha, matchFrom_unopened ha]; rfl
          | cons o stack =>
              rw [matchFrom_closing ha, matchFrom_closing ha, ih]
              cases matchFrom kind stack l with
              | error e => rfl
              | ok r =>
                  simp only [Except.bind, Except.map]
                  cases matchFrom kind r.2 l' <;> rfl

/-- A forest leaves the stack as it was. -/
theorem matchFrom_flatten {f : Forest α} (hf : f.Fits kind) (stack : List α) :
    matchFrom kind stack f.flatten = .ok (f.pairs, stack) := by
  induction f generalizing stack with
  | nil => rfl
  | leaf a rest ih =>
      rw [Forest.flatten, matchFrom_plain hf.1]
      exact ih hf.2 stack
  | block o body c rest ihb ihr =>
      obtain ⟨ho, hbody, hc, hrest⟩ := hf
      rw [Forest.flatten, matchFrom_opening ho, matchFrom_append, ihb hbody]
      simp only [Except.bind]
      rw [matchFrom_closing hc, ihr hrest]
      rfl

/-- Openings that nothing closes are left on the stack. -/
theorem matchFrom_flattenAll {segments : List (α × Forest α)}
    (h : ∀ s ∈ segments, kind s.1 = .opening ∧ s.2.Fits kind) (stack : List α) :
    matchFrom kind stack (Decomposition.flattenAll segments) =
      .ok (segments.flatMap fun s => s.2.pairs,
        (segments.map Prod.fst).reverse ++ stack) := by
  induction segments generalizing stack with
  | nil => rfl
  | cons s segments ih =>
      obtain ⟨⟨ho, hf⟩, hrest⟩ := List.forall_mem_cons.mp h
      rw [Decomposition.flattenAll_cons, matchFrom_opening ho, matchFrom_append,
        matchFrom_flatten hf]
      simp only [Except.bind]
      rw [ih hrest]
      simp [Except.map]

variable (kind) in
/-- **What one pass finds**: the pairs of the forests, unless a closing has no partner. -/
theorem matchFrom_decompose (l : List α) :
    matchFrom kind [] l =
      match (decompose kind l).unopened with
      | [] => .ok ((decompose kind l).pairs, ((decompose kind l).unclosed.map Prod.fst).reverse)
      | s :: _ => .error s.1 := by
  have hfits := fits_decompose kind l
  conv_lhs => rw [← flatten_decompose kind l]
  generalize decompose kind l = d at hfits ⊢
  rw [Decomposition.flatten, matchFrom_append, matchFrom_flatten hfits.head]
  simp only [Except.bind]
  cases hd : d.unopened with
  | nil =>
      rw [Decomposition.flattenAll_nil, List.nil_append, matchFrom_flattenAll hfits.unclosed]
      simp [Except.map, Decomposition.pairs]
  | cons s rest =>
      have hs := (hfits.unopened s (by simp [hd])).1
      rw [Decomposition.flattenAll_cons, List.cons_append, matchFrom_unopened hs]
      rfl

variable (kind stack l) in
/-- **When one pass fails**: at some point more was closed than was open. -/
theorem matchFrom_error_iff :
    (∃ a, matchFrom kind stack l = .error a) ↔
      ∃ n, stack.length + (l.take n).countP (kind · = .opening) <
        (l.take n).countP (kind · = .closing) := by
  induction l generalizing stack with
  | nil => simp [matchFrom]
  | cons a l ih =>
      -- The empty beginning closes nothing; a longer one starts with `a`.
      have hcons : (∃ n, stack.length + ((a :: l).take n).countP (kind · = .opening) <
            ((a :: l).take n).countP (kind · = .closing)) ↔
          ∃ n, stack.length + (a :: l.take n).countP (kind · = .opening) <
            (a :: l.take n).countP (kind · = .closing) := by
        constructor
        · rintro ⟨n, hn⟩
          cases n with
          | zero => simp at hn
          | succ n => exact ⟨n, hn⟩
        · rintro ⟨n, hn⟩
          exact ⟨n + 1, hn⟩
      rw [hcons]
      cases ha : kind a with
      | plain =>
          rw [matchFrom_plain ha, ih]
          simp [ha]
      | opening =>
          rw [matchFrom_opening ha, ih]
          simp [ha, Nat.add_assoc, Nat.add_comm 1]
      | closing =>
          cases stack with
          | nil =>
              rw [matchFrom_unopened ha]
              refine iff_of_true ⟨a, rfl⟩ ⟨0, ?_⟩
              simp [ha]
          | cons o stack =>
              have hmap : (∃ e, matchFrom kind (o :: stack) (a :: l) = .error e) ↔
                  ∃ e, matchFrom kind stack l = .error e := by
                rw [matchFrom_closing ha]
                cases matchFrom kind stack l <;> simp [Except.map]
              rw [hmap, ih]
              refine exists_congr fun n => ?_
              simp only [List.countP_cons, ha, List.length_cons]
              simp only [decide_true, if_true, reduceCtorEq, decide_false]
              grind

/-- **The pairs one pass finds** are the openings and closings with a well-bracketed
text in between. -/
theorem mem_pairs_iff {ps : List (α × α)} {left : List α} {c : α}
    (h : matchFrom kind [] l = .ok (ps, left)) :
    (o, c) ∈ ps ↔ Enclose kind l o c := by
  constructor
  · intro hmem
    rw [matchFrom_decompose] at h
    have hfits := fits_decompose kind l
    have hflat := flatten_decompose kind l
    generalize decompose kind l = d at h hfits hflat
    cases hd : d.unopened with
    | cons s rest => simp [hd] at h
    | nil =>
        simp only [hd, Except.ok.injEq, Prod.mk.injEq] at h
        obtain ⟨rfl, -⟩ := h
        rw [← hflat]
        exact Decomposition.enclose_of_mem_pairs hfits hmem
  · rintro ⟨ho, hc, pre, body, post, hbody, rfl⟩
    rw [matchFrom_append] at h
    cases hpre : matchFrom kind [] pre with
    | error e => simp [hpre, Except.bind] at h
    | ok r =>
        simp only [hpre, Except.bind] at h
        rw [matchFrom_opening ho, matchFrom_append, matchFrom_flatten hbody] at h
        simp only [Except.bind] at h
        rw [matchFrom_closing hc] at h
        cases hpost : matchFrom kind r.2 post with
        | error e => simp [hpost, Except.map] at h
        | ok r' =>
            simp only [hpost, Except.map, Except.ok.injEq, Prod.mk.injEq] at h
            rw [← h.1]
            simp

/-- If everything is closed in the end, every opening has its block. -/
theorem exists_block_of_matchFrom (ho : kind o = .opening) {ps : List (α × α)}
    (h : matchFrom kind stack (o :: l) = .ok (ps, [])) :
    ∃ (body : Forest α) (c : α) (post : List α),
      body.Fits kind ∧ kind c = .closing ∧ l = body.flatten ++ c :: post := by
  have hfits := fits_decompose kind l
  have hflat := flatten_decompose kind l
  generalize decompose kind l = d at hfits hflat
  cases hopen : d.unopened with
  | cons s rest =>
      rw [Decomposition.flatten, hopen, Decomposition.flattenAll_cons] at hflat
      have hs := (hfits.unopened s (by simp [hopen])).1
      rw [List.cons_append] at hflat
      exact ⟨d.head, s.1, _, hfits.head, hs, hflat.symm⟩
  | nil =>
      -- Otherwise the opening is still on the stack in the end.
      rw [matchFrom_opening ho, ← hflat, Decomposition.flatten, hopen,
        Decomposition.flattenAll_nil, List.nil_append, matchFrom_append,
        matchFrom_flatten hfits.head] at h
      simp only [Except.bind] at h
      rw [matchFrom_flattenAll hfits.unclosed] at h
      simp [Except.map] at h

end Match

/-! ### Partners with a counter -/

section Skip

variable {α : Type} (kind : α → BracketKind)

/-- Walk to the closing that `depth` nested blocks stand in front of: what is behind
it, or nothing if there is no such closing. -/
def skipFrom : Nat → List α → Option (List α)
  | _, [] => none
  | depth, a :: l =>
      match kind a, depth with
      | .plain, depth => skipFrom depth l
      | .opening, depth => skipFrom (depth + 1) l
      | .closing, 0 => some l
      | .closing, depth + 1 => skipFrom depth l

variable {kind} {a : α} {depth : Nat} {l : List α}

theorem skipFrom_plain (h : kind a = .plain) :
    skipFrom kind depth (a :: l) = skipFrom kind depth l := by
  simp [skipFrom, h]

theorem skipFrom_opening (h : kind a = .opening) :
    skipFrom kind depth (a :: l) = skipFrom kind (depth + 1) l := by
  simp [skipFrom, h]

theorem skipFrom_closing (h : kind a = .closing) :
    skipFrom kind (depth + 1) (a :: l) = skipFrom kind depth l := by
  simp [skipFrom, h]

theorem skipFrom_partner (h : kind a = .closing) : skipFrom kind 0 (a :: l) = some l := by
  simp [skipFrom, h]

/-- A forest is walked over at any depth. -/
theorem skipFrom_flatten {f : Forest α} (hf : f.Fits kind) (depth : Nat) (l : List α) :
    skipFrom kind depth (f.flatten ++ l) = skipFrom kind depth l := by
  induction f generalizing depth l with
  | nil => rfl
  | leaf a rest ih =>
      rw [Forest.flatten, List.cons_append, skipFrom_plain hf.1]
      exact ih hf.2 depth l
  | block o body c rest ihb ihr =>
      obtain ⟨ho, hbody, hc, hrest⟩ := hf
      rw [Forest.flatten, List.cons_append, skipFrom_opening ho, List.append_assoc,
        List.cons_append, ihb hbody, skipFrom_closing hc]
      exact ihr hrest depth l

/-- Behind openings that nothing closes there is no partner. -/
theorem skipFrom_flattenAll {segments : List (α × Forest α)}
    (h : ∀ s ∈ segments, kind s.1 = .opening ∧ s.2.Fits kind) (depth : Nat) :
    skipFrom kind depth (Decomposition.flattenAll segments) = none := by
  induction segments generalizing depth with
  | nil => rfl
  | cons s segments ih =>
      obtain ⟨⟨ho, hf⟩, hrest⟩ := List.forall_mem_cons.mp h
      rw [Decomposition.flattenAll_cons, skipFrom_opening ho, skipFrom_flatten hf]
      exact ih hrest (depth + 1)

end Skip
