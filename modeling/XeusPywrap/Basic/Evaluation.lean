import XeusPywrap.Basic.Grammar
import XeusPywrap.Common.Simulation

/-!
# XeusPywrap.Basic.Evaluation

The parser evaluates expressions to their values: `evaluate_value`.
-/

namespace XeusPywrap.Basic

variable {V W : Type}

/-! ### Positions -/

/-- The last tokens of expressions. -/
def endings : List Category := [.unsignedint, .unsignedfloat, .string, .name, .pi, .rightparen]

/-- The parser has these tokens ahead of it. Behind the last token it still looks at the
end of an expression. -/
structure Facing (s : BasicParser V W) (tokens : List Token) : Prop where
  ahead : s.tokenlist.drop s.tokenindex = tokens
  current : ∀ t ∈ tokens.head?, s.token = t
  behind : tokens = [] → s.token.Among endings

/-- What may follow operands of a level only as a part of them. -/
def Level.continues : Level → List Category
  | .factor => [.leftparen]
  | .term => .leftparen :: multiplications
  | .expr => .leftparen :: (multiplications ++ additions)
  | .relation | .negation => .leftparen :: (multiplications ++ additions ++ comparisons)
  | .logical => .leftparen :: (multiplications ++ additions ++ comparisons ++ connectives)

/-- An operand of the level ends here. -/
def EndsAt (l : Level) (tokens : List Token) : Prop :=
  ∀ t ∈ tokens.head?, ¬ t.Among l.continues

/-- What evaluating does not change. -/
def BasicParser.kept (s : BasicParser V W) : Scope V × List V :=
  (⟨s.symbolTable, s.arrays, s.lineNumber⟩, s.dataValues)

def BasicParser.scope (s : BasicParser V W) : Scope V := s.kept.1

/-- The state behind `__advance`. -/
def BasicParser.advanced (s : BasicParser V W) : BasicParser V W :=
  { s with
    tokenindex := s.tokenindex + 1
    token := s.tokenlist[s.tokenindex + 1]?.getD s.token }

/-! ### The primitives -/

section Primitives

variable {α : Type} {s : BasicParser V W} {tokens : List Token} {t : Token}

theorem run_advance_bind (f : Unit → Evaluating V W α) (s : BasicParser V W) :
    (advance >>= f).run s = (f ()).run s.advanced := rfl

theorem run_consume_bind {expected : Category} (h : s.token.category = some expected)
    (f : Unit → Evaluating V W α) : (consume expected >>= f).run s = (f ()).run s.advanced := by
  have hrun : (consume expected : Evaluating V W Unit).run s = (.ok (), s.advanced) := by
    rw [consume, Exec.run_get_bind, if_pos h]
    rfl
  rw [Exec.run_bind_ok hrun]

theorem run_push_bind (v : V) (f : Unit → Evaluating V W α) (s : BasicParser V W) :
    (push v >>= f).run s = (f ()).run { s with operandStack := v :: s.operandStack } := rfl

theorem run_pop_bind {v : V} {operandStack : List V} (h : s.operandStack = v :: operandStack)
    (f : V → Evaluating V W α) :
    (pop >>= f).run s = (f v).run { s with operandStack := operandStack } := by
  have hrun : (pop : Evaluating V W V).run s =
      (.ok v, { s with operandStack := operandStack }) := by
    rw [pop, Exec.run_get_bind, h]
    rfl
  rw [Exec.run_bind_ok hrun]

/-- The next token is the one at the next index. -/
theorem Facing.next (h : Facing s (t :: tokens)) :
    s.tokenlist[s.tokenindex + 1]? = tokens.head? := by
  have hdrop : s.tokenlist.drop (s.tokenindex + 1) = tokens := by
    rw [← List.drop_drop, h.ahead, List.drop_one, List.tail_cons]
  rw [← hdrop, List.head?_drop]

theorem Facing.token (h : Facing s (t :: tokens)) : s.token = t := h.current t rfl

theorem Facing.advance (h : Facing s (t :: tokens)) (hend : tokens = [] → t.Among endings) :
    Facing s.advanced tokens where
  ahead := by
    rw [BasicParser.advanced, ← List.drop_drop, h.ahead, List.drop_one, List.tail_cons]
  current t' ht' := by
    rw [BasicParser.advanced, h.next, ht', Option.getD_some]
  behind htokens := by
    rw [BasicParser.advanced, h.next, htokens, List.head?_nil, Option.getD_none, h.token]
    exact hend htokens

/-- Where an operand stops, no operator follows that would continue it. -/
theorem Facing.not_among {l : Level} (h : Facing s tokens) (hends : EndsAt l tokens) :
    ¬ s.token.Among l.continues := by
  cases tokens with
  | cons t tokens =>
      rw [h.token]
      exact hends t rfl
  | nil =>
      rintro ⟨c, hc, hcategory⟩
      obtain ⟨c', hc', hcategory'⟩ := h.behind rfl
      obtain rfl := Option.some.inj (hcategory.symm.trans hcategory')
      have hdisjoint : ∀ c ∈ endings, c ∉ l.continues := by cases l <;> decide
      exact hdisjoint c hc' hc

end Primitives

/-! ### Results -/

/-- The parser has evaluated: it has the tokens `rest` ahead of it and the values `vs` on
its stack. -/
structure Evaluated (s : BasicParser V W) (rest : List Token) (vs : List V) (sign : Int)
    (s' : BasicParser V W) (w : W) : Prop where
  here : Facing s' rest
  operandStack : s'.operandStack = vs ++ s.operandStack
  sign : s'.sign = sign
  world : s'.world = w
  kept : s'.kept = s.kept

/-- The parser has failed. -/
def Failed (s s' : BasicParser V W) (w : W) : Prop := s'.world = w ∧ s'.kept = s.kept

/-- The parser ends as the value does, with the value on the stack. -/
abbrev Computes (s : BasicParser V W) (rest : List Token) (sign : Int) :
    Except PyExc Unit × BasicParser V W → Except PyExc V × W → Prop :=
  Exec.Alike (fun _ v s' w => Evaluated s rest [v] sign s' w) (Failed s)

/-- Behind an expression of the level the parser goes on at its end. -/
def Reads (l : Level) (s : BasicParser V W) (m : Evaluating V W Unit) (tokens : List Token)
    (value : Exec W PyExc V) (sign : Int) : Prop :=
  ∀ rest, Facing s (tokens ++ rest) → EndsAt l rest →
    Computes s rest sign (m.run s) (value.run s.world)

theorem Evaluated.scope {s s' : BasicParser V W} {rest : List Token} {vs : List V} {sign : Int}
    {w : W} (h : Evaluated s rest vs sign s' w) : s'.scope = s.scope :=
  congrArg Prod.fst h.kept

theorem Failed.of_kept {s s₁ s' : BasicParser V W} {w : W} (h : Failed s₁ s' w)
    (hkept : s₁.kept = s.kept) : Failed s s' w := ⟨h.1, h.2.trans hkept⟩

/-- The values on the stack have been replaced. -/
theorem Evaluated.replace {s s₁ : BasicParser V W} {rest : List Token} {vs vs' : List V}
    {sign : Int} {w : W} (h : Evaluated s rest vs sign s₁ w) {operandStack : List V}
    (hstack : operandStack = vs' ++ s.operandStack) :
    Evaluated s rest vs' sign { s₁ with operandStack := operandStack } w :=
  ⟨⟨h.here.ahead, h.here.current, h.here.behind⟩, hstack, h.sign, h.world, h.kept⟩

/-- What is evaluated behind the next token lies on top of what was there before. -/
theorem Evaluated.trans {s s₁ s₂ : BasicParser V W} {rest rest' : List Token} {vs vs' : List V}
    {sign sign' : Int} {w w' : W} (h : Evaluated s rest vs sign s₁ w)
    (h' : Evaluated s₁.advanced rest' vs' sign' s₂ w') :
    Evaluated s rest' (vs' ++ vs) sign' s₂ w' where
  here := h'.here
  operandStack := by
    have hadvanced : s₁.advanced.operandStack = vs ++ s.operandStack := h.operandStack
    rw [h'.operandStack, hadvanced, List.append_assoc]
  sign := h'.sign
  world := h'.world
  kept := h'.kept.trans h.kept

/-- It does not matter whether the token in front is counted. -/
theorem Evaluated.of_advanced {s s₁ : BasicParser V W} {rest : List Token} {vs : List V}
    {sign : Int} {w : W} (h : Evaluated s.advanced rest vs sign s₁ w) :
    Evaluated s rest vs sign s₁ w :=
  ⟨h.here, h.operandStack, h.sign, h.world, h.kept⟩

/-- A failure behind a first step is one of the whole. -/
theorem alike_of_kept {α α' : Type} {Q : α → α' → BasicParser V W → W → Prop}
    {s s₁ : BasicParser V W} {r : Except PyExc α × BasicParser V W} {r' : Except PyExc α' × W}
    (h : Exec.Alike Q (Failed s₁) r r') (hkept : s₁.kept = s.kept) :
    Exec.Alike Q (Failed s) r r' :=
  h.mono (fun _ _ _ _ h => h) fun _ _ hfailed => hfailed.of_kept hkept

/-- It does not matter at which token the parser began. -/
theorem computes_of_same {s s₁ : BasicParser V W} {rest : List Token} {sign : Int}
    {r : Except PyExc Unit × BasicParser V W} {r' : Except PyExc V × W}
    (h : Computes s₁ rest sign r r') (hstack : s₁.operandStack = s.operandStack)
    (hkept : s₁.kept = s.kept) : Computes s rest sign r r' :=
  h.mono (fun _ _ _ _ h =>
    ⟨h.here, hstack ▸ h.operandStack, h.sign, h.world, h.kept.trans hkept⟩)
    fun _ _ hfailed => hfailed.of_kept hkept

/-- What Python's operators and functions do is done on both sides. -/
theorem alike_lift_bind {σ τ α β γ : Type} {Q : β → γ → σ → τ → Prop} {E : σ → τ → Prop}
    {x : Except PyExc α} {f : α → Exec σ PyExc β} {g : α → Exec τ PyExc γ} {s : σ} {t : τ}
    (hok : ∀ a, x = .ok a → Exec.Alike Q E ((f a).run s) ((g a).run t)) (herror : E s t) :
    Exec.Alike Q E ((lift x >>= f).run s) ((lift x >>= g).run t) := by
  cases x with
  | ok a => exact hok a rfl
  | error e => exact .error herror

theorem alike_lift {σ τ α β : Type} {Q : β → α → σ → τ → Prop} {E : σ → τ → Prop}
    {x : Except PyExc α} {f : α → Exec σ PyExc β} {s : σ} {t : τ}
    (hok : ∀ a, x = .ok a → Exec.Alike Q E ((f a).run s) (.ok a, t)) (herror : E s t) :
    Exec.Alike Q E ((lift x >>= f).run s) ((lift x).run t) := by
  cases x with
  | ok a => exact hok a rfl
  | error e => exact .error herror

/-! ### Chains of operators -/

section Chains

variable {operators : List Category} {operand : Evaluating V W Unit}
  {combine : Category → V → V → Except PyExc V}

/-- Operands with operators in between, taken from the left: the tokens, the value, the
sign flag behind it and the number of operators. -/
inductive Chain (operators : List Category) (combine : Category → V → V → Except PyExc V)
    (Operand : List Token → Exec W PyExc V → Int → Prop) :
    List Token → Exec W PyExc V → Int → Nat → Prop
  | operand {tokens : List Token} {value : Exec W PyExc V} {sign : Int}
      (operand : Operand tokens value sign) : Chain operators combine Operand tokens value sign 0
  | operator {tokens tokens' : List Token} {value value' : Exec W PyExc V} {sign sign' : Int}
      {k : Nat} (left : Chain operators combine Operand tokens value sign k) (operator : Token)
      (among : operator.Among operators) (right : Operand tokens' value' sign') :
      Chain operators combine Operand (tokens ++ operator :: tokens')
        (do
          let left ← value
          let right ← value'
          lift (combine operator.kind left right)) sign' (k + 1)

/-- In the scope the operand is read as its value. -/
structure IsOperand (l : Level) (scope : Scope V) (operand : Evaluating V W Unit)
    (tokens : List Token) (value : Exec W PyExc V) (sign : Int) : Prop where
  nonempty : tokens ≠ []
  reads : ∀ s : BasicParser V W, s.scope = scope → Reads l s operand tokens value sign

variable {l : Level} {scope : Scope V} {tokens : List Token} {value : Exec W PyExc V} {sign : Int}
  {k : Nat}

/-- The loop has taken all operators of a chain when it has its value on the stack. -/
theorem chain_rounds
    (h : Chain operators combine (IsOperand l scope operand) tokens value sign k)
    (hoperators : ∀ t : Token, t.Among operators → ¬ t.Among l.continues)
    {s : BasicParser V W} (hscope : s.scope = scope) {rest : List Token}
    (hat : Facing s (tokens ++ rest)) (hends : EndsAt l rest) {n : Nat} (hn : k ≤ n) {β : Type}
    {Q : Unit → β → BasicParser V W → W → Prop} {f : V → Exec W PyExc β}
    (hrest : ∀ v s₁ w, Evaluated s rest [v] sign s₁ w →
      Exec.Alike Q (Failed s) ((chain operators operand combine (n - k)).run s₁) ((f v).run w)) :
    Exec.Alike Q (Failed s) ((operand >>= fun _ => chain operators operand combine n).run s)
      ((value >>= f).run s.world) := by
  induction h generalizing rest β with
  | operand hoperand =>
      exact (hoperand.reads s hscope rest hat hends).bind fun _ v s₁ w h => hrest v s₁ w h
  | @operator tokens tokens' value value' sign sign' k left operator among right ih =>
      rw [List.append_assoc, List.cons_append] at hat
      rw [bind_assoc]
      refine ih hat ?_ (Nat.le_of_succ_le hn) fun v s₁ w h => ?_
      · intro t ht
        obtain rfl : operator = t := by simpa using ht
        exact hoperators operator among
      obtain ⟨c, hc, hcategory⟩ := among
      have htoken : s₁.token.category = some c := by rw [h.here.token, hcategory]
      have hkind : operator.kind = c := by rw [Token.kind, hcategory, Option.getD_some]
      obtain ⟨m, hm⟩ := Nat.exists_eq_add_of_lt hn
      rw [show n - k = (n - (k + 1)) + 1 by omega, chain, Exec.run_get_bind, htoken]
      dsimp only
      rw [if_pos hc, run_advance_bind]
      have hnext : Facing s₁.advanced (tokens' ++ rest) :=
        h.here.advance fun hnil => absurd (List.append_eq_nil_iff.mp hnil).1 right.nonempty
      have hright := right.reads s₁.advanced (h.scope.trans hscope) rest hnext hends
      rw [show s₁.advanced.world = w from h.world] at hright
      rw [bind_assoc]
      refine (alike_of_kept hright h.kept).bind fun _ v' s₂ w' h' => ?_
      have hboth := h.trans h'
      have hstack : s₂.operandStack = v' :: v :: s.operandStack := hboth.operandStack
      rw [run_pop_bind hstack, run_pop_bind rfl, hkind]
      refine alike_lift_bind (fun a _ => ?_) ⟨hboth.world, hboth.kept⟩
      rw [run_push_bind]
      exact hrest a _ w' (hboth.replace rfl)

/-- **A chain is read as its value.** -/
theorem reads_of_chain {l' : Level}
    (h : Chain operators combine (IsOperand l scope operand) tokens value sign k)
    (hoperators : ∀ t : Token, t.Among operators → ¬ t.Among l.continues)
    (hcontinues : ∀ c ∈ l.continues ++ operators, c ∈ l'.continues) {n : Nat} (hn : k < n)
    {s : BasicParser V W} (hscope : s.scope = scope) :
    Reads l' s (operand >>= fun _ => chain operators operand combine n) tokens value sign := by
  intro rest hat hends
  have hrest : ∀ {t : Token}, t.Among (l.continues ++ operators) → t.Among l'.continues :=
    fun ⟨c, hc, hcategory⟩ => ⟨c, hcontinues c hc, hcategory⟩
  have hends' : EndsAt l rest := fun t ht ⟨c, hc, hcategory⟩ =>
    hends t ht (hrest ⟨c, List.mem_append_left _ hc, hcategory⟩)
  rw [show value = value >>= pure from (bind_pure value).symm]
  refine chain_rounds h hoperators hscope hat hends' hn.le fun v s₁ w h => ?_
  -- No operator of the chain follows.
  obtain ⟨m, hm⟩ : ∃ m, n - k = m + 1 := ⟨n - k - 1, by omega⟩
  rw [hm, chain, Exec.run_get_bind]
  have hnot := h.here.not_among hends
  cases hcategory : s₁.token.category with
  | none => exact .ok h
  | some c =>
      dsimp only
      rw [if_neg fun hc => hnot (hrest ⟨c, List.mem_append_right _ hc, hcategory⟩)]
      exact .ok h

end Chains

/-! ### Above factors -/

theorem Tree.tokens_ne_nil {l : Level} (t : Tree l) : t.tokens ≠ [] := by
  cases t with
  | factor f => exact f.tokens_ne_nil
  | term t => exact t.tokens_ne_nil
  | expr e => exact e.tokens_ne_nil
  | relation r => exact r.tokens_ne_nil
  | negation e => exact e.tokens_ne_nil
  | _ => simp [tokens]

section Levels

variable (P : Values V W) (u : Unicode) (scope : Scope V) (n : Nat) (factor : Evaluating V W Unit)

/-- Factors of at most `d` tokens are read as their values. -/
def ReadsFactors (d : Nat) : Prop :=
  ∀ f : Tree .factor, f.Declared scope → f.tokens.length ≤ d → ∀ s : BasicParser V W,
    s.scope = scope →
      Reads .factor s factor f.tokens (f.value P u scope s.sign) (f.lastSign s.sign)

variable {P u scope n factor} {d : Nat}

theorem isOperand_signedFactor (h : ReadsFactors P u scope factor d) {f : Tree .factor}
    (hf : f.Declared scope) (hlength : f.tokens.length ≤ d) :
    IsOperand .factor scope (signedFactor factor) f.tokens (f.value P u scope 1)
      (f.lastSign 1) where
  nonempty := f.tokens_ne_nil
  reads s hscope rest hat hends := by
    have hread := h f hf hlength { s with sign := 1 } hscope rest
      ⟨hat.ahead, hat.current, hat.behind⟩ hends
    exact hread.mono (fun _ _ _ _ h => ⟨h.here, h.operandStack, h.sign, h.world, h.kept⟩)
      fun _ _ h => h

theorem not_among_of_disjoint {operators continues : List Category}
    (h : ∀ c ∈ operators, c ∉ continues) (t : Token) (hamong : t.Among operators) :
    ¬ t.Among continues := by
  rintro ⟨c, hc, hcategory⟩
  obtain ⟨c', hc', hcategory'⟩ := hamong
  obtain rfl := Option.some.inj (hcategory.symm.trans hcategory')
  exact h c hc' hc

theorem chain_term (h : ReadsFactors P u scope factor d) :
    ∀ t : Tree .term, t.Declared scope → t.tokens.length ≤ d →
      ∃ k, k < t.tokens.length ∧
        Chain multiplications (fun c => P.operate (multiplicative c))
          (IsOperand .factor scope (signedFactor factor)) t.tokens (t.value P u scope 1)
          (t.lastSign 1) k
  | .factor f, hd, hlength =>
      ⟨0, List.length_pos_iff.mpr f.tokens_ne_nil, .operand (isOperand_signedFactor h hd hlength)⟩
  | .multiply t operator among f, hd, hlength => by
      simp only [Tree.tokens, List.length_append, List.length_cons] at hlength
      obtain ⟨k, hk, hchain⟩ := chain_term h t hd.1 (by omega)
      refine ⟨k + 1, by simp only [Tree.tokens, List.length_append, List.length_cons]; omega, ?_⟩
      exact .operator hchain operator among (isOperand_signedFactor h hd.2 (by omega))

theorem isOperand_term (h : ReadsFactors P u scope factor d) (hn : d ≤ n) {t : Tree .term}
    (ht : t.Declared scope) (hlength : t.tokens.length ≤ d) :
    IsOperand .term scope (term P n factor) t.tokens (t.value P u scope 1) (t.lastSign 1) where
  nonempty := t.tokens_ne_nil
  reads s hscope := by
    obtain ⟨k, hk, hchain⟩ := chain_term h t ht hlength
    exact reads_of_chain hchain (not_among_of_disjoint (by decide)) (by decide) (by omega) hscope

theorem chain_expr (h : ReadsFactors P u scope factor d) (hn : d ≤ n) :
    ∀ e : Tree .expr, e.Declared scope → e.tokens.length ≤ d →
      ∃ k, k < e.tokens.length ∧
        Chain additions (fun c => P.operate (additive c))
          (IsOperand .term scope (term P n factor)) e.tokens (e.value P u scope 1)
          (e.lastSign 1) k
  | .term t, hd, hlength =>
      ⟨0, List.length_pos_iff.mpr t.tokens_ne_nil, .operand (isOperand_term h hn hd hlength)⟩
  | .add e operator among t, hd, hlength => by
      simp only [Tree.tokens, List.length_append, List.length_cons] at hlength
      obtain ⟨k, hk, hchain⟩ := chain_expr h hn e hd.1 (by omega)
      refine ⟨k + 1, by simp only [Tree.tokens, List.length_append, List.length_cons]; omega, ?_⟩
      exact .operator hchain operator among (isOperand_term h hn hd.2 (by omega))

theorem isOperand_expr (h : ReadsFactors P u scope factor d) (hn : d ≤ n) {e : Tree .expr}
    (he : e.Declared scope) (hlength : e.tokens.length ≤ d) :
    IsOperand .expr scope (expr P n factor) e.tokens (e.value P u scope 1) (e.lastSign 1) where
  nonempty := e.tokens_ne_nil
  reads s hscope := by
    obtain ⟨k, hk, hchain⟩ := chain_expr h hn e he hlength
    exact reads_of_chain hchain (not_among_of_disjoint (by decide)) (by decide) (by omega) hscope

/-- What stands below a negation does not begin with `NOT`. -/
theorem Tree.head_ne_not {l : Level} (t : Tree l) (hnegation : l ≠ .negation)
    (hlogical : l ≠ .logical) : ∀ token ∈ t.tokens.head?, token.category ≠ some .not := by
  cases t with
  | call function among =>
      rintro token ⟨⟩ hnot
      exact not_among_of_disjoint (by decide) function among
        ⟨.not, List.mem_singleton_self _, hnot⟩
  | ternary function isTernary =>
      rintro token ⟨⟩ hnot
      exact absurd (isTernary.symm.trans hnot) (by simp)
  | factor f => exact f.head_ne_not (by simp) (by simp)
  | multiply t =>
      rw [tokens, List.head?_append_of_ne_nil _ t.tokens_ne_nil]
      exact t.head_ne_not (by simp) (by simp)
  | term t => exact t.head_ne_not (by simp) (by simp)
  | add e =>
      rw [tokens, List.head?_append_of_ne_nil _ e.tokens_ne_nil]
      exact e.head_ne_not (by simp) (by simp)
  | expr e => exact e.head_ne_not (by simp) (by simp)
  | compare left =>
      rw [tokens, List.head?_append_of_ne_nil _ left.tokens_ne_nil]
      exact left.head_ne_not (by simp) (by simp)
  | relation r => exact absurd rfl hnegation
  | not r => exact absurd rfl hnegation
  | negation e => exact absurd rfl hlogical
  | connect left => exact absurd rfl hlogical
  | _ => simp [tokens, leftparen]

/-- A token that has been changed is not seen again behind `__advance`. -/
theorem advanced_retag {s : BasicParser V W} {t t' : Token} {tokens : List Token}
    (h : Facing s (t :: tokens)) (hne : tokens ≠ []) :
    ({ s with token := t' } : BasicParser V W).advanced = s.advanced := by
  obtain ⟨next, rest, rfl⟩ := List.exists_cons_of_ne_nil hne
  simp [BasicParser.advanced, h.next]

theorem EndsAt.mono {l l' : Level} {tokens : List Token} (h : EndsAt l tokens)
    (hcontinues : ∀ c ∈ l'.continues, c ∈ l.continues) : EndsAt l' tokens :=
  fun t ht ⟨c, hc, hcategory⟩ => h t ht ⟨c, hcontinues c hc, hcategory⟩

/-- `relexpr` behind its left operand, if it ends there. -/
theorem comparison_of_not_among {s : BasicParser V W}
    (h : ¬ s.token.Among Level.relation.continues) :
    s.token.category ≠ some .assignop ∧ s.token.category.bind comparison = none := by
  refine ⟨fun hcategory => h ⟨.assignop, by decide, hcategory⟩, ?_⟩
  cases hcategory : s.token.category with
  | none => rfl
  | some c =>
      rw [Option.bind_some]
      by_contra hsome
      have hmem : ∀ c, comparison c ≠ none → c ∈ Level.relation.continues := by
        intro c hc
        cases c <;> first | decide | exact absurd rfl hc
      exact h ⟨c, hmem c hsome, hcategory⟩

theorem isOperand_relation (h : ReadsFactors P u scope factor d) (hn : d ≤ n)
    {r : Tree .relation} (hr : r.Declared scope) (hlength : r.tokens.length ≤ d) :
    IsOperand .relation scope (relexpr P n factor) r.tokens (r.value P u scope 1)
      (r.lastSign 1) where
  nonempty := r.tokens_ne_nil
  reads s hscope rest hat hends := by
    cases r with
    | expr e =>
        have hexpr := (isOperand_expr h hn hr hlength).reads s hscope rest hat
          (hends.mono (by decide))
        rw [relexpr, Tree.value]
        refine hexpr.bind_left fun _ v s₁ w h => ?_
        obtain ⟨hassign, hnone⟩ := comparison_of_not_among (h.here.not_among hends)
        rw [Exec.run_update_bind, if_neg hassign, Exec.run_get_bind, hnone]
        exact .ok h
    | compare left operator among right =>
        simp only [Tree.tokens, List.length_append, List.length_cons] at hlength
        rw [Tree.tokens, List.append_assoc, List.cons_append] at hat
        have hleft := (isOperand_expr h hn hr.1 (by omega)).reads s hscope _ hat (by
          intro t ht
          obtain rfl : operator = t := by simpa using ht
          exact not_among_of_disjoint (by decide) operator among)
        rw [relexpr, Tree.value]
        refine hleft.bind fun _ v s₁ w h₁ => ?_
        obtain ⟨c, hc, hcategory⟩ := among
        have htoken : s₁.token.category = some c := by rw [h₁.here.token, hcategory]
        have hkind : operator.kind = c := by rw [Token.kind, hcategory, Option.getD_some]
        have hne : right.tokens ++ rest ≠ [] := fun hnil =>
          right.tokens_ne_nil (List.append_eq_nil_iff.mp hnil).1
        -- Only `=` is changed, into the comparison it is.
        obtain ⟨t', hupdate, hcompared⟩ : ∃ t' : Token,
            (if s₁.token.category = some .assignop then
              { s₁ with token := { s₁.token with category := some .equal } }
              else s₁) = { s₁ with token := t' } ∧
            t'.category.bind comparison = some (compared c) := by
          by_cases hassign : c = .assignop
          · subst hassign
            exact ⟨_, if_pos htoken, rfl⟩
          · refine ⟨s₁.token, if_neg (by simp [htoken, hassign]), ?_⟩
            rw [htoken, Option.bind_some]
            have hall : ∀ c ∈ comparisons, c ≠ .assignop → comparison c = some (compared c) := by
              decide
            exact hall c hc hassign
        rw [Exec.run_update_bind, hupdate, Exec.run_get_bind]
        dsimp only
        rw [hcompared]
        dsimp only
        rw [run_advance_bind, advanced_retag h₁.here hne]
        have hright := (isOperand_expr h hn hr.2 (by omega)).reads s₁.advanced
          (h₁.scope.trans hscope) rest
          (h₁.here.advance fun hnil => absurd hnil hne) (hends.mono (by decide))
        rw [show s₁.advanced.world = w from h₁.world] at hright
        refine (alike_of_kept hright h₁.kept).bind fun _ v' s₂ w' h₂ => ?_
        have hboth := h₁.trans h₂
        have hstack : s₂.operandStack = v' :: v :: s.operandStack := hboth.operandStack
        rw [run_pop_bind hstack, run_pop_bind rfl, hkind]
        refine alike_lift (fun a _ => ?_) ⟨hboth.world, hboth.kept⟩
        exact .ok (hboth.replace rfl)

theorem isOperand_negation (h : ReadsFactors P u scope factor d) (hn : d ≤ n)
    {e : Tree .negation} (he : e.Declared scope) (hlength : e.tokens.length ≤ d) :
    IsOperand .negation scope (notexpr P n factor) e.tokens (e.value P u scope 1)
      (e.lastSign 1) where
  nonempty := e.tokens_ne_nil
  reads s hscope rest hat hends := by
    cases e with
    | relation r =>
        have hnot : s.token.category ≠ some .not := by
          obtain ⟨t, ts, hcons⟩ := List.exists_cons_of_ne_nil r.tokens_ne_nil
          rw [Tree.tokens, hcons, List.cons_append] at hat
          rw [hat.token]
          exact r.head_ne_not (by simp) (by simp) t (by simp [hcons])
        rw [notexpr, Exec.run_get_bind, if_neg hnot]
        exact (isOperand_relation h hn he hlength).reads s hscope rest hat hends
    | not r =>
        rw [Tree.tokens, List.cons_append] at hat
        simp only [Tree.tokens, List.length_cons] at hlength
        have hne : r.tokens ++ rest ≠ [] := fun hnil =>
          r.tokens_ne_nil (List.append_eq_nil_iff.mp hnil).1
        have hread := (isOperand_relation h hn he (by omega)).reads s.advanced hscope rest
          (hat.advance fun hnil => absurd hnil hne) hends
        rw [notexpr, Exec.run_get_bind, if_pos (by rw [hat.token]), run_advance_bind, Tree.value]
        refine hread.bind fun _ v s₁ w h₁ => ?_
        rw [run_pop_bind h₁.operandStack]
        exact .ok (h₁.replace rfl).of_advanced

theorem chain_logical (h : ReadsFactors P u scope factor d) (hn : d ≤ n) :
    ∀ e : Tree .logical, e.Declared scope → e.tokens.length ≤ d →
      ∃ k, k < e.tokens.length ∧
        Chain connectives (fun c left right => .ok (logical P c left right))
          (IsOperand .negation scope (notexpr P n factor)) e.tokens (e.value P u scope 1)
          (e.lastSign 1) k
  | .negation e, hd, hlength =>
      ⟨0, List.length_pos_iff.mpr e.tokens_ne_nil, .operand (isOperand_negation h hn hd hlength)⟩
  | .connect left operator among right, hd, hlength => by
      simp only [Tree.tokens, List.length_append, List.length_cons] at hlength
      obtain ⟨k, hk, hchain⟩ := chain_logical h hn left hd.1 (by omega)
      refine ⟨k + 1, by simp only [Tree.tokens, List.length_append, List.length_cons]; omega, ?_⟩
      exact .operator hchain operator among (isOperand_negation h hn hd.2 (by omega))

theorem isOperand_logical (h : ReadsFactors P u scope factor d) (hn : d ≤ n)
    {e : Tree .logical} (he : e.Declared scope) (hlength : e.tokens.length ≤ d) :
    IsOperand .logical scope (logexpr P n factor) e.tokens (e.value P u scope 1)
      (e.lastSign 1) where
  nonempty := e.tokens_ne_nil
  reads s hscope := by
    obtain ⟨k, hk, hchain⟩ := chain_logical h hn e he hlength
    exact reads_of_chain hchain (not_among_of_disjoint (by decide)) (by decide) (by omega) hscope

/-! ### Arguments -/

theorem Arguments.pos {k : Nat} (args : Arguments k) : 0 < k := by
  cases args <;> exact Nat.succ_pos _

/-- The parser has read values, which it has taken from its stack again. -/
abbrev ComputesList (s : BasicParser V W) (rest : List Token) (sign : Int) :
    Except PyExc (List V) × BasicParser V W → Except PyExc (List V) × W → Prop :=
  Exec.Alike (fun vs vs' s' w => vs = vs' ∧ Evaluated s rest [] sign s' w) (Failed s)

/-- An expression in front of a comma or a closing parenthesis, taken from the stack. -/
theorem expr_pop (h : ReadsFactors P u scope factor d) (hn : d ≤ n) {e : Tree .expr}
    (he : e.Declared scope) (hlength : e.tokens.length ≤ d) {s : BasicParser V W}
    (hscope : s.scope = scope) {rest : List Token} (hat : Facing s (e.tokens ++ rest))
    (hends : EndsAt .expr rest) {α β : Type} {Q : α → β → BasicParser V W → W → Prop}
    {f : V → Evaluating V W α} {g : V → Exec W PyExc β}
    (hrest : ∀ v s₁ w, Evaluated s rest [] (e.lastSign 1) s₁ w →
      Exec.Alike Q (Failed s) ((f v).run s₁) ((g v).run w)) :
    Exec.Alike Q (Failed s) ((expr P n factor >>= fun _ => pop >>= f).run s)
      ((e.value P u scope 1 >>= g).run s.world) := by
  have hread := (isOperand_expr h hn he hlength).reads s hscope rest hat hends
  refine hread.bind fun _ v s₁ w h₁ => ?_
  rw [run_pop_bind h₁.operandStack]
  exact hrest v _ w (h₁.replace rfl)

theorem endsAt_comma (tokens : List Token) : EndsAt .expr (comma :: tokens) := by
  rintro t ⟨⟩
  exact not_among_of_disjoint (by decide) _ ⟨.comma, List.mem_singleton_self _, rfl⟩

theorem endsAt_rightparen (l : Level) (tokens : List Token) : EndsAt l (rightparen :: tokens) := by
  rintro t ⟨⟩
  exact not_among_of_disjoint (by cases l <;> decide) _
    ⟨.rightparen, List.mem_singleton_self _, rfl⟩

theorem run_commas {operand : Evaluating V W Unit} {s : BasicParser V W}
    (h : s.token.category = some .comma) (m : Nat) :
    (commas operand (m + 1)).run s =
      (do
        operand
        let v ← pop
        let vs ← commas operand m
        pure (v :: vs)).run s.advanced := by
  rw [commas, Exec.run_get_bind, if_pos h]
  rfl

theorem run_commas_nil {operand : Evaluating V W Unit} {s : BasicParser V W}
    (h : s.token.category ≠ some .comma) (m : Nat) :
    (commas operand (m + 1)).run s = (.ok [], s) := by
  rw [commas, Exec.run_get_bind, if_neg h]
  rfl

/-- The indices of an element. -/
theorem indices_computes (h : ReadsFactors P u scope factor d) (hn : d ≤ n) {rest : List Token} :
    ∀ {k : Nat} (args : Arguments k) (i m : Nat), args.Declared scope →
      args.tokens.length ≤ d → k ≤ m → ∀ s : BasicParser V W, s.scope = scope →
      Facing s (args.tokens ++ rightparen :: rest) →
      ComputesList s (rightparen :: rest) args.lastSign
        ((do
          expr P n factor
          let v ← pop
          let vs ← commas (expr P n factor) m
          pure (v :: vs)).run s)
        ((args.values P u scope (fun _ v => .ok v) i).run s.world)
  | _, .last e, i, m, hd, hlength, hm, s, hscope, hat => by
      obtain ⟨m, rfl⟩ := Nat.exists_eq_add_of_le' hm
      refine expr_pop h hn hd hlength hscope hat (endsAt_rightparen _ _) fun v s₁ w h₁ => ?_
      have hcomma : s₁.token.category ≠ some .comma := by simp [h₁.here.token, rightparen]
      rw [Exec.run_bind_ok (run_commas_nil hcomma m)]
      exact .ok ⟨rfl, h₁⟩
  | _, .cons e es, i, m, hd, hlength, hm, s, hscope, hat => by
      obtain ⟨m, rfl⟩ := Nat.exists_eq_add_of_lt (Nat.lt_of_lt_of_le (Nat.succ_pos _) hm)
      rw [Nat.zero_add]
      simp only [Arguments.tokens, List.length_append, List.length_cons] at hlength
      rw [Arguments.tokens, List.append_assoc, List.cons_append] at hat
      refine expr_pop h hn hd.1 (by omega) hscope hat (endsAt_comma _) fun v s₁ w h₁ => ?_
      have hne : es.tokens ++ rightparen :: rest ≠ [] := by simp
      have hnext : Facing s₁.advanced (es.tokens ++ rightparen :: rest) :=
        h₁.here.advance fun hnil => absurd hnil hne
      have hes := indices_computes h hn es (i + 1) m hd.2 (by omega) (by omega) s₁.advanced
        (h₁.scope.trans hscope) hnext
      rw [show s₁.advanced.world = w from h₁.world] at hes
      rw [Exec.run_bind_congr (run_commas (by rw [h₁.here.token]; rfl) m)]
      refine (alike_of_kept hes h₁.kept).bind fun vs _ s₂ w₂ h₂ => ?_
      obtain ⟨rfl, h₂⟩ := h₂
      exact .ok ⟨rfl, h₁.trans h₂⟩

/-- The arguments of a function from the `i`th one on, but not the condition of a
`TERNARY`. -/
theorem arguments_computes (h : ReadsFactors P u scope factor d) (hn : d ≤ n)
    {category : Category} {rest : List Token} :
    ∀ {k : Nat} (args : Arguments k) (i m : Nat), args.Declared scope →
      args.tokens.length ≤ d → (category = .ternary → i ≠ 0) → takes category (i + k) → k ≤ m →
      ∀ s : BasicParser V W, s.scope = scope → Facing s (args.tokens ++ rightparen :: rest) →
      ComputesList s (rightparen :: rest) args.lastSign
        ((arguments P n factor category i m).run s)
        ((args.values P u scope (received P category scope.lineNumber) i).run s.world)
  | _, .last e, i, m, hd, hlength, hcategory, htakes, hm, s, hscope, hat => by
      obtain ⟨m, rfl⟩ := Nat.exists_eq_add_of_le' hm
      rw [arguments, if_neg fun hi => hcategory hi.1 hi.2]
      refine expr_pop h hn hd hlength hscope hat (endsAt_rightparen _ _) fun v s₁ w h₁ => ?_
      have hline : s₁.lineNumber = scope.lineNumber :=
        congrArg Scope.lineNumber (h₁.scope.trans hscope)
      rw [Exec.run_get_bind, hline]
      refine alike_lift_bind (fun v' _ => ?_) ⟨h₁.world, h₁.kept⟩
      have hcomma : s₁.token.category ≠ some .comma := by simp [h₁.here.token, rightparen]
      rw [if_neg (Nat.not_lt.mpr htakes.1), if_neg fun hc => hcomma hc.1]
      exact .ok ⟨rfl, h₁⟩
  | k + 1, .cons e es, i, m, hd, hlength, hcategory, htakes, hm, s, hscope, hat => by
      obtain ⟨m, rfl⟩ := Nat.exists_eq_add_of_lt (Nat.lt_of_lt_of_le (Nat.succ_pos _) hm)
      rw [Nat.zero_add]
      simp only [Arguments.tokens, List.length_append, List.length_cons] at hlength
      rw [Arguments.tokens, List.append_assoc, List.cons_append] at hat
      rw [arguments, if_neg fun hi => hcategory hi.1 hi.2]
      refine expr_pop h hn hd.1 (by omega) hscope hat (endsAt_comma _) fun v s₁ w h₁ => ?_
      have hline : s₁.lineNumber = scope.lineNumber :=
        congrArg Scope.lineNumber (h₁.scope.trans hscope)
      rw [Exec.run_get_bind, hline]
      refine alike_lift_bind (fun v' _ => ?_) ⟨h₁.world, h₁.kept⟩
      have hcomma : s₁.token.category = some .comma := by rw [h₁.here.token]; rfl
      have hne : es.tokens ++ rightparen :: rest ≠ [] := by simp
      have hes := arguments_computes h hn es (i + 1) m hd.2 (by omega)
        (fun _ => Nat.succ_ne_zero i) (by rwa [Nat.add_assoc, Nat.add_comm 1 k]) (by omega)
        s₁.advanced (h₁.scope.trans hscope) (h₁.here.advance fun hnil => absurd hnil hne)
      rw [show s₁.advanced.world = w from h₁.world] at hes
      have hrest : ComputesList s (rightparen :: rest) es.lastSign
          ((arguments P n factor category (i + 1) m >>= fun vs => pure (v' :: vs)).run s₁.advanced)
          ((es.values P u scope (received P category scope.lineNumber) (i + 1) >>=
            fun vs => pure (v' :: vs)).run w) := by
        refine (alike_of_kept hes h₁.kept).bind fun vs _ s₂ w₂ h₂ => ?_
        obtain ⟨rfl, h₂⟩ := h₂
        exact .ok ⟨rfl, h₁.trans h₂⟩
      by_cases hmin : i + 1 < (arity category).1
      · rw [if_pos hmin, run_consume_bind hcomma]
        exact hrest
      · have hmax : ∀ x ∈ (arity category).2, i + 1 < x := fun x hx => by
          have := htakes.2 x hx
          have := es.pos
          omega
        rw [if_neg hmin, if_pos ⟨hcomma, hmax⟩, run_advance_bind]
        exact hrest

/-! ### Factors -/

/-- The operand with its sign goes on the stack, and the parser past its last token. -/
theorem reads_signed {s : BasicParser V W} {t : Token} {rest : List Token}
    (hat : Facing s (t :: rest)) (hend : t.Among endings) (v : V) :
    Computes s rest s.sign
      ((do
        let v ← lift (P.operate .mul (P.int s.sign) v)
        push v
        advance).run s)
      ((signed P s.sign v).run s.world) := by
  refine alike_lift (fun a _ => ?_) ⟨rfl, rfl⟩
  have hnext := hat.advance fun _ => hend
  exact .ok ⟨⟨hnext.ahead, hnext.current, hnext.behind⟩, rfl, rfl, rfl, rfl⟩

/-- A variable, or a value for one that has none. -/
theorem reads_variable {s : BasicParser V W} {lexeme : List Char} {rest : List Token}
    (hscope : s.scope = scope) (hat : Facing s (⟨some .name, lexeme⟩ :: rest)) :
    Computes s rest s.sign ((variableValue P lexeme >>= fun _ => advance).run s)
      (((Tree.name lexeme).value P u scope s.sign).run s.world) := by
  have hend : (⟨some .name, lexeme⟩ : Token).Among endings := ⟨.name, by decide, rfl⟩
  have htable : scope.symbolTable = s.symbolTable := congrArg Scope.symbolTable hscope.symm
  rw [variableValue, bind_assoc, Exec.run_get_bind, Tree.value, htable]
  cases s.symbolTable lexeme with
  | some v =>
      dsimp only
      rw [bind_assoc]
      exact reads_signed hat hend v
  | none =>
      have hnext := hat.advance fun _ => hend
      exact .ok ⟨⟨hnext.ahead, hnext.current, hnext.behind⟩, rfl, rfl, rfl, rfl⟩

theorem Arguments.le_length {k : Nat} (args : Arguments k) : k ≤ args.tokens.length := by
  cases args with
  | last e => exact List.length_pos_iff.mpr e.tokens_ne_nil
  | cons e es =>
      have := es.le_length
      simp only [tokens, List.length_append, List.length_cons]
      omega

/-- An element, behind its name and up to the closing parenthesis. -/
theorem element_computes (h : ReadsFactors P u scope factor d) (hn : d ≤ n)
    (array : BasicArray V) {rest : List Token} {k : Nat} {indices : Arguments k}
    (hindices : indices.Declared scope) (hlength : indices.tokens.length ≤ d)
    {s : BasicParser V W} (hscope : s.scope = scope)
    (hat : Facing s (leftparen :: (indices.tokens ++ rightparen :: rest))) :
    Computes s (rightparen :: rest) indices.lastSign ((element P n factor array).run s)
      ((Exec.handle
        (do
          let indexvars ← indices.values P u scope (fun _ v => .ok v) 0
          let arrayval ← lift (getArrayVal P scope.lineNumber array indexvars)
          signed P indices.lastSign arrayval)
        fun e => Exec.fail (withinElement scope e)).run s.world) := by
  have hline : s.lineNumber = scope.lineNumber := congrArg Scope.lineNumber hscope
  rw [element, Exec.run_get_bind]
  refine Exec.Alike.handle (E := Failed s) ?_ fun e s' w hfailed => ?_
  · have hne : indices.tokens ++ rightparen :: rest ≠ [] := by simp
    have hnext := hat.advance fun hnil => absurd hnil hne
    have hlt : s.advanced.tokenindex < s.advanced.tokenlist.length := by
      by_contra hge
      rw [Nat.not_lt, ← List.drop_eq_nil_iff, hnext.ahead] at hge
      exact hne hge
    have hread := indices_computes h hn indices 0 n hindices hlength
      (indices.le_length.trans (hlength.trans hn)) s.advanced hscope hnext
    have hvars : (indexVars P n factor).run s.advanced =
        (do
          expr P n factor
          let v ← pop
          let vs ← commas (expr P n factor) n
          pure (v :: vs)).run s.advanced := by
      rw [indexVars, Exec.run_get_bind, if_pos hlt]
    rw [run_consume_bind (by rw [hat.token]; rfl), Exec.run_bind_congr hvars]
    refine hread.bind fun vs _ s₁ w h₁ => ?_
    obtain ⟨rfl, h₁⟩ := h₁
    have hline₁ : s₁.lineNumber = scope.lineNumber :=
      congrArg Scope.lineNumber (h₁.scope.trans hscope)
    rw [Exec.run_get_bind, hline₁]
    refine alike_lift_bind (fun arrayval _ => ?_) ⟨h₁.world, h₁.kept⟩
    rw [h₁.sign]
    refine alike_lift (fun a _ => ?_) ⟨h₁.world, h₁.kept⟩
    exact .ok (h₁.replace (congrArg (a :: ·) h₁.operandStack)).of_advanced
  · rw [withinElement, hline]
    split_ifs <;> exact .error hfailed

/-- What is left to do when the values of the arguments are there. -/
theorem reads_apply {s s₁ : BasicParser V W} {rest : List Token} {sign : Int} {w : W}
    (hscope : s.scope = scope) (h : Evaluated s rest [] sign s₁ w) (category : Category)
    (vs : List V) :
    Computes s rest sign
      (((do
        let s ← Exec.get
        Exec.zoom (fun s => s.world) (fun w s => { s with world := w })
          (P.apply category s.lineNumber vs)) >>= push).run s₁)
      ((P.apply category scope.lineNumber vs).run w) := by
  have hline : s₁.lineNumber = scope.lineNumber :=
    congrArg Scope.lineNumber (h.scope.trans hscope)
  have hzoom : Exec.Alike (fun v v' s' w' => v = v' ∧ Evaluated s rest [] sign s' w') (Failed s)
      ((Exec.zoom (fun s : BasicParser V W => s.world) (fun w s => { s with world := w })
        (P.apply category s₁.lineNumber vs)).run s₁)
      ((P.apply category scope.lineNumber vs).run w) := by
    rw [hline, Exec.run_zoom, h.world]
    rcases (P.apply category scope.lineNumber vs).run w with ⟨r, w'⟩
    cases r with
    | ok v =>
        exact .ok ⟨rfl, ⟨h.here.ahead, h.here.current, h.here.behind⟩, h.operandStack, h.sign, rfl,
          h.kept⟩
    | error e => exact .error ⟨rfl, h.kept⟩
  rw [bind_assoc, Exec.run_get_bind]
  refine hzoom.bind_left fun v _ s₂ w₂ h₂ => ?_
  obtain ⟨rfl, h₂⟩ := h₂
  exact .ok (h₂.replace (congrArg (v :: ·) h₂.operandStack))

/-- A call, once its arguments in parentheses are known to be read. -/
theorem reads_call (category : Category) {s : BasicParser V W} (hscope : s.scope = scope)
    {rest : List Token} {sign : Int} {values : Exec W PyExc (List V)}
    (hargs : ComputesList s.advanced rest sign ((argumentList P n factor category).run s.advanced)
      (values.run s.world)) :
    Computes s rest sign ((evaluateFunction P n factor category >>= push).run s)
      ((values >>= fun vs => P.apply category scope.lineNumber vs).run s.world) := by
  rw [evaluateFunction, bind_assoc, run_advance_bind, bind_assoc]
  refine hargs.bind fun vs _ s₁ w h₁ => ?_
  obtain ⟨rfl, h₁⟩ := h₁
  exact reads_apply hscope h₁.of_advanced category vs

/-- Arguments in parentheses, once the arguments are known to be read. -/
theorem argumentList_computes {category : Category} (hpi : category ≠ .pi) {s : BasicParser V W}
    {tokens rest : List Token} {sign : Int} {values : Exec W PyExc (List V)}
    (hat : Facing s (leftparen :: tokens))
    (hargs : ComputesList s.advanced (rightparen :: rest) sign
      ((arguments P n factor category 0 n).run s.advanced) (values.run s.world)) :
    ComputesList s rest sign ((argumentList P n factor category).run s) (values.run s.world) := by
  rw [argumentList, if_neg hpi, run_consume_bind (by rw [hat.token]; rfl)]
  refine hargs.bind_left fun vs _ s₁ w h₁ => ?_
  obtain ⟨rfl, h₁⟩ := h₁
  rw [run_consume_bind (by rw [h₁.here.token]; rfl)]
  have hnext := h₁.here.advance fun _ => ⟨.rightparen, by decide, rfl⟩
  exact .ok ⟨rfl, hnext, h₁.operandStack, h₁.sign, h₁.world, h₁.kept⟩

theorem factorBody_function {s : BasicParser V W} {category : Category}
    (hcategory : s.token.category = some category) (hmem : category ∈ functions) :
    (factorBody P n factor u).run s = (evaluateFunction P n factor category >>= push).run s := by
  rw [factorBody, Exec.run_get_bind, hcategory]
  cases category <;> first | exact absurd hmem (by decide) | rfl

/-- The condition of a `TERNARY` and the two values to choose from. -/
theorem ternary_computes (h : ReadsFactors P u scope factor d) (hn : d ≤ n)
    {condition : Tree .logical} (hcondition : condition.Declared scope)
    (hlength : condition.tokens.length ≤ d) {args : Arguments 2} (hargs : args.Declared scope)
    (hlength' : args.tokens.length < d) {rest : List Token} {s : BasicParser V W}
    (hscope : s.scope = scope)
    (hat : Facing s (condition.tokens ++ comma :: (args.tokens ++ rightparen :: rest))) :
    ComputesList s (rightparen :: rest) args.lastSign ((arguments P n factor .ternary 0 n).run s)
      ((condition.value P u scope 1 >>= fun v =>
        args.values P u scope (received P .ternary scope.lineNumber) 1 >>= fun vs =>
          pure (v :: vs)).run s.world) := by
  have htwo := args.le_length
  obtain ⟨m, rfl⟩ : ∃ m, n = m + 1 := ⟨n - 1, by omega⟩
  have hends : EndsAt .logical (comma :: (args.tokens ++ rightparen :: rest)) := by
    rintro t ⟨⟩
    exact not_among_of_disjoint (by decide) _ ⟨.comma, List.mem_singleton_self _, rfl⟩
  have hread := (isOperand_logical h hn hcondition hlength).reads s hscope _ hat hends
  rw [arguments, if_pos ⟨rfl, rfl⟩]
  refine hread.bind fun _ v s₁ w h₁ => ?_
  have hcomma : s₁.token.category = some .comma := by rw [h₁.here.token]; rfl
  have hnext : Facing s₁.advanced (args.tokens ++ rightparen :: rest) :=
    h₁.here.advance fun hnil => by simp at hnil
  have htakes : takes .ternary (1 + 2) := ⟨by decide, by decide⟩
  have hargs' := arguments_computes h hn args 1 m hargs hlength'.le (fun _ => Nat.one_ne_zero)
    htakes (by omega) { s₁.advanced with operandStack := s.operandStack }
    (h₁.scope.trans hscope) ⟨hnext.ahead, hnext.current, hnext.behind⟩
  have hreceived : ∀ line, (lift (received P .ternary line 0 v) : Evaluating V W V) = pure v :=
    fun _ => rfl
  have hstack : s₁.operandStack = v :: s.operandStack := h₁.operandStack
  have hworld : s₁.advanced.world = w := h₁.world
  rw [run_pop_bind hstack, Exec.run_get_bind, hreceived, pure_bind, if_pos (by decide),
    run_consume_bind (s := { s₁ with operandStack := s.operandStack }) hcomma]
  rw [← hworld]
  refine (alike_of_kept hargs' h₁.kept).bind fun vs _ s₂ w₂ h₂ => ?_
  obtain ⟨rfl, h₂⟩ := h₂
  exact .ok ⟨rfl, h₂.here, h₂.operandStack, h₂.sign, h₂.world, h₂.kept.trans h₁.kept⟩

/-- The parser leaves the parentheses. -/
theorem computes_rightparen {s s₁ : BasicParser V W} {rest : List Token} {v : V} {sign : Int}
    {w : W} (h : Evaluated s (rightparen :: rest) [v] sign s₁ w) :
    Computes s rest sign ((consume .rightparen).run s₁) ((pure v : Exec W PyExc V).run w) := by
  have hnext := h.here.advance fun _ => ⟨.rightparen, by decide, rfl⟩
  rw [consume, Exec.run_get_bind, if_pos (by rw [h.here.token]; rfl)]
  exact .ok ⟨hnext, h.operandStack, h.sign, h.world, h.kept⟩

/-- **One level of factors.** -/
theorem reads_factorBody (h : ReadsFactors P u scope factor d) (hn : d ≤ n) :
    ReadsFactors P u scope (factorBody P n factor u) (d + 1) := by
  intro f hf hlength s hscope rest hat hends
  cases f with
  | unsignedint lexeme =>
      rw [factorBody, Exec.run_get_bind, hat.token, Tree.value]
      exact alike_lift_bind (fun k _ => reads_signed hat ⟨.unsignedint, by decide, rfl⟩ _)
        ⟨rfl, rfl⟩
  | unsignedfloat lexeme =>
      rw [factorBody, Exec.run_get_bind, hat.token, Tree.value]
      exact alike_lift_bind (fun x _ => reads_signed hat ⟨.unsignedfloat, by decide, rfl⟩ _)
        ⟨rfl, rfl⟩
  | string lexeme =>
      rw [factorBody, Exec.run_get_bind, hat.token, Tree.value]
      have hnext := hat.advance fun _ => ⟨.string, by decide, rfl⟩
      exact .ok ⟨⟨hnext.ahead, hnext.current, hnext.behind⟩, rfl, rfl, rfl, rfl⟩
  | name lexeme =>
      have hat : Facing s (⟨some .name, lexeme⟩ :: rest) := hat
      rw [factorBody, Exec.run_get_bind, hat.token]
      dsimp only
      have hparen : (s.tokenlist[s.tokenindex + 1]?.any
          fun next => next.category = some .leftparen) = false := by
        rw [hat.next]
        cases hhead : rest.head? with
        | none => rfl
        | some next =>
            have hnot := hends next hhead
            rw [Option.any_some]
            simpa [Token.Among, Level.continues] using hnot
      cases s.arrays lexeme with
      | none => exact reads_variable hscope hat
      | some array =>
          dsimp only
          rw [hparen]
          exact reads_variable hscope hat
  | pi =>
      have hcategory : s.token.category = some .pi := by rw [hat.token]
      have hnext := hat.advance fun _ => ⟨.pi, by decide, rfl⟩
      rw [factorBody_function hcategory (by decide), Tree.value,
        show P.apply .pi scope.lineNumber [] =
          (pure [] >>= fun vs => P.apply .pi scope.lineNumber vs) from rfl]
      refine reads_call .pi hscope ?_
      rw [argumentList, if_pos rfl]
      exact .ok ⟨rfl, hnext, rfl, rfl, rfl, rfl⟩
  | plus f =>
      simp only [Tree.tokens, List.length_cons] at hlength
      have hnext := hat.advance fun hnil =>
        absurd (List.append_eq_nil_iff.mp hnil).1 f.tokens_ne_nil
      rw [factorBody, Exec.run_get_bind, hat.token]
      exact computes_of_same (h f hf (by omega) s.advanced hscope rest hnext hends) rfl rfl
  | minus f =>
      simp only [Tree.tokens, List.length_cons] at hlength
      have hnext := hat.advance fun hnil =>
        absurd (List.append_eq_nil_iff.mp hnil).1 f.tokens_ne_nil
      have hread := h f hf (by omega) { s with sign := -s.sign }.advanced hscope rest
        ⟨hnext.ahead, hnext.current, hnext.behind⟩ hends
      rw [factorBody, Exec.run_get_bind, hat.token, Tree.value, Tree.lastSign]
      dsimp only
      rw [Exec.run_update_bind, run_advance_bind]
      exact computes_of_same hread rfl rfl
  | paren e =>
      have hat : Facing s (leftparen :: (e.tokens ++ rightparen :: rest)) := by
        simpa [Tree.tokens] using hat
      simp only [Tree.tokens, List.length_append, List.length_cons, List.length_nil] at hlength
      have hread := (isOperand_logical h hn hf (by omega)).reads s.advanced hscope
        (rightparen :: rest) (hat.advance (by simp)) (endsAt_rightparen _ _)
      rw [factorBody, Exec.run_get_bind, hat.token, Tree.value]
      dsimp only [leftparen]
      rw [run_advance_bind]
      refine (computes_of_same (s := s) hread rfl rfl).bind fun _ v s₁ w h₁ => ?_
      by_cases hsign : s.sign = -1
      · rw [if_pos hsign, if_pos hsign, run_pop_bind h₁.operandStack]
        refine alike_lift (fun a _ => ?_) ⟨h₁.world, h₁.kept⟩
        exact computes_rightparen (h₁.replace rfl)
      · rw [if_neg hsign, if_neg hsign]
        exact computes_rightparen h₁
  | element lexeme indices =>
      have hat : Facing s (⟨some .name, lexeme⟩ ::
          leftparen :: (indices.tokens ++ rightparen :: rest)) := by
        simpa [Tree.tokens] using hat
      simp only [Tree.tokens, List.length_append, List.length_cons, List.length_nil] at hlength
      obtain ⟨array, harray⟩ := Option.isSome_iff_exists.mp hf.1
      have hsame : s.arrays lexeme = some array := by
        rw [← harray, ← hscope]
        rfl
      have hread := element_computes h hn array hf.2 (by omega) (s := s.advanced) hscope
        (hat.advance (by simp))
      rw [factorBody, Exec.run_get_bind, hat.token, Tree.value, harray]
      dsimp only
      rw [hsame]
      dsimp only
      rw [if_pos (by rw [hat.next]; rfl), run_advance_bind]
      refine (computes_of_same (s := s) hread rfl rfl).bind_left fun _ v s₁ w h₁ => ?_
      have hnext := h₁.here.advance fun _ => ⟨.rightparen, by decide, rfl⟩
      exact .ok ⟨hnext, h₁.operandStack, h₁.sign, h₁.world, h₁.kept⟩
  | call function isFunction plain args htakes =>
      have hat : Facing s (function :: leftparen :: (args.tokens ++ rightparen :: rest)) := by
        simpa [Tree.tokens] using hat
      simp only [Tree.tokens, List.length_append, List.length_cons, List.length_nil] at hlength
      have hparen := hat.advance (by simp)
      have hargs := hparen.advance (by simp)
      have hread := arguments_computes h hn args 0 n hf (by omega)
        (fun hternary => absurd hternary plain.2) (by rwa [Nat.zero_add])
        (args.le_length.trans (by omega)) s.advanced.advanced hscope hargs
      obtain ⟨category, hmem, hcategory⟩ := id isFunction
      have hkind : function.kind = category := by
        rw [Token.kind, hcategory, Option.getD_some]
      rw [factorBody_function (by rw [hat.token, hcategory]) hmem, Tree.value, ← hkind]
      exact reads_call function.kind hscope (argumentList_computes plain.1 hparen hread)
  | ternary function isTernary condition args =>
      have hat : Facing s (function :: leftparen ::
          (condition.tokens ++ comma :: (args.tokens ++ rightparen :: rest))) := by
        simpa [Tree.tokens] using hat
      simp only [Tree.tokens, List.length_append, List.length_cons, List.length_nil] at hlength
      have hparen := hat.advance (by simp)
      have hcategory : s.token.category = some .ternary := by rw [hat.token, isTernary]
      have hread := ternary_computes h hn hf.1 (by omega) hf.2 (by omega) (s := s.advanced.advanced)
        hscope (hparen.advance (by simp))
      have hvalue : (Tree.ternary function isTernary condition args).value P u scope s.sign =
          ((condition.value P u scope 1 >>= fun v =>
            args.values P u scope (received P .ternary scope.lineNumber) 1 >>= fun vs =>
              pure (v :: vs)) >>= fun vs => P.apply .ternary scope.lineNumber vs) := by
        rw [Tree.value]
        simp only [bind_assoc, pure_bind]
      rw [factorBody_function hcategory (by decide), hvalue]
      exact reads_call .ternary hscope (argumentList_computes (by decide) hparen hread)

theorem readsFactors_factor : ∀ d, d ≤ n → ReadsFactors P u scope (Basic.factor P u n d) d
  | 0, _, f, _, hlength => absurd (List.length_eq_zero_iff.mp (Nat.le_zero.mp hlength))
      f.tokens_ne_nil
  | d + 1, hd, f, hf, hlength =>
      reads_factorBody (readsFactors_factor d (by omega)) (by omega) f hf hlength

end Levels

/-- **Expressions are evaluated to their values**, wherever they stand, if the arrays of
their elements exist: the parser reads the tokens of the expression and no more, and
leaves its value on the stack and its sign in `__sign`, or fails as the value does. -/
theorem evaluate_value (P : Values V W) (u : Unicode) (e : Tree .logical) (s : BasicParser V W)
    (rest : List Token) (hdeclared : e.Declared s.scope) (hat : Facing s (e.tokens ++ rest))
    (hends : EndsAt .logical rest) (depth : Nat) (hdepth : e.tokens.length ≤ depth) :
    Computes s rest (e.lastSign 1) ((evaluate P u depth).run s)
      ((e.value P u s.scope 1).run s.world) :=
  (isOperand_logical (readsFactors_factor depth le_rfl) le_rfl hdeclared hdepth).reads s rfl rest
    hat hends

/-- `10 - 3 * A(2)`. -/
def difference : Tree .logical :=
  .negation (.relation (.expr (.add (.term (.factor (.unsignedint ['1', '0'])))
    ⟨some .minus, ['-']⟩ ⟨.minus, by decide, rfl⟩
    (.multiply (.factor (.unsignedint ['3'])) ⟨some .times, ['*']⟩ ⟨.times, by decide, rfl⟩
      (.element ['A'] (.last (.term (.factor (.unsignedint ['2'])))))))))

/-- The parser at the beginning of `10 - 3 * A(2)`, with the indices of `A` as elements. -/
def beforeDifference : BasicParser Int Unit where
  symbolTable _ := none
  arrays := fun | ['A'] => some ⟨[5], fun indices => indices.headD 0⟩ | _ => none
  operandStack := []
  dataValues := []
  lineNumber := ⟨10, "10"⟩
  tokenlist := difference.tokens
  tokenindex := 0
  token := ⟨some .unsignedint, ['1', '0']⟩
  sign := 1
  world := ()

theorem evaluate_value_difference :
    ((evaluate integers Unicode.ascii 10).run beforeDifference).2.operandStack = [4] := by
  have hvalue : (difference.value integers Unicode.ascii beforeDifference.scope 1).run () =
      (.ok 4, ()) := rfl
  have h := evaluate_value integers Unicode.ascii difference beforeDifference []
    ⟨trivial, trivial, rfl, trivial⟩ ⟨rfl, by rintro t ⟨⟩; rfl, nofun⟩ nofun 10 (by decide)
  rw [show beforeDifference.world = () from rfl, hvalue] at h
  generalize (evaluate integers Unicode.ascii 10).run beforeDifference = r at h ⊢
  cases h with
  | ok h => exact h.operandStack

end XeusPywrap.Basic
