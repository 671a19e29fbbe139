import XeusPywrap.Shakespeare.Operation

/-!
# XeusPywrap.Shakespeare.Cache

The cache of `Expression`: an operation on constants keeps the value of its first
evaluation. Nobody can tell, in whatever states the expression is evaluated one after the
other: `evaluateAll_caching`.
-/

namespace XeusPywrap

/-- An expression as an object, with the `cached_value` of its operations. -/
inductive CachingExpression
  | firstPersonValue
  | secondPersonValue
  | characterName (name : String)
  | constant (cachedValue : Int)
  | unaryOperation (operation : UnaryOperation) (operand : CachingExpression)
      (cachedValue : Option Int)
  | binaryOperation (operation : BinaryOperation)
      (firstOperand secondOperand : CachingExpression) (cachedValue : Option Int)

/-- The object of an expression before its first evaluation. -/
def Expression.caching : Expression → CachingExpression
  | .firstPersonValue => .firstPersonValue
  | .secondPersonValue => .secondPersonValue
  | .characterName name => .characterName name
  | .constant cachedValue => .constant cachedValue
  | .unaryOperation operation operand => .unaryOperation operation operand.caching none
  | .binaryOperation operation firstOperand secondOperand =>
      .binaryOperation operation firstOperand.caching secondOperand.caching none

namespace CachingExpression

/-- The expression without its cache. -/
def plain : CachingExpression → Expression
  | .firstPersonValue => .firstPersonValue
  | .secondPersonValue => .secondPersonValue
  | .characterName name => .characterName name
  | .constant cachedValue => .constant cachedValue
  | .unaryOperation operation operand _ => .unaryOperation operation operand.plain
  | .binaryOperation operation firstOperand secondOperand _ =>
      .binaryOperation operation firstOperand.plain secondOperand.plain

/-- `evaluate`, given what `_evaluate_logic_cached` does. -/
def onStage (s : State) (character : String) (e : CachingExpression)
    (evaluated : Except PyExc Int × CachingExpression) : Except PyExc Int × CachingExpression :=
  match s.assertCharacterOnStage character with
  | .ok () => evaluated
  | .error exc => (.error exc, e)

/-- What is returned without an evaluation. -/
def kept (e : CachingExpression) (cachedValue : Option Int) : Option Int :=
  if e.plain.cacheable then cachedValue else none

/-- What is cached behind an evaluation; an exception leaves the cache as it was. -/
def caches (e : CachingExpression) (cachedValue : Option Int) (result : Except PyExc Int) :
    Option Int :=
  match result with
  | .ok v => if e.plain.cacheable then some v else cachedValue
  | .error _ => cachedValue

/-- `_evaluate_logic_cached`: the result, and the object behind it. -/
def evaluateLogicCached (s : State) (character : String) :
    CachingExpression → Except PyExc Int × CachingExpression
  | .unaryOperation operation operand cachedValue =>
      let e := unaryOperation operation operand cachedValue
      match e.kept cachedValue with
      | some v => (.ok v, e)
      | none =>
          let x := onStage s character operand (operand.evaluateLogicCached s character)
          let result := x.1.bind operation.handler
          (result, .unaryOperation operation x.2 (e.caches cachedValue result))
  | .binaryOperation operation firstOperand secondOperand cachedValue =>
      let e := binaryOperation operation firstOperand secondOperand cachedValue
      match e.kept cachedValue with
      | some v => (.ok v, e)
      | none =>
          let a := onStage s character firstOperand (firstOperand.evaluateLogicCached s character)
          match a.1 with
          | .error exc => (.error exc, .binaryOperation operation a.2 secondOperand cachedValue)
          | .ok x =>
              let b :=
                onStage s character secondOperand (secondOperand.evaluateLogicCached s character)
              let result := b.1.bind (operation.handler x)
              (result, .binaryOperation operation a.2 b.2 (e.caches cachedValue result))
  | e => (e.plain.evaluateLogic s character, e)

/-- `Expression.evaluate`. -/
def evaluate (s : State) (character : String) (e : CachingExpression) :
    Except PyExc Int × CachingExpression :=
  onStage s character e (e.evaluateLogicCached s character)

/-- One evaluation after the other, each in its own state. -/
def evaluateAll (character : String) : CachingExpression → List State → List (Except PyExc Int)
  | _, [] => []
  | e, s :: states =>
      let evaluated := e.evaluate s character
      evaluated.1 :: evaluateAll character evaluated.2 states

/-! ### The cache is right -/

/-- A cached value is the value of the expression wherever its speaker is on stage. -/
def Right (character : String) (e : Expression) (cachedValue : Option Int) : Prop :=
  ∀ v ∈ cachedValue, ∀ s : State, s.assertCharacterOnStage character = .ok () →
    e.evaluateLogic s character = .ok v

/-- The caches of the expression and of its operands are right. -/
def Valid (character : String) : CachingExpression → Prop
  | .unaryOperation operation operand cachedValue =>
      operand.Valid character ∧
        Right character (unaryOperation operation operand cachedValue).plain cachedValue
  | .binaryOperation operation firstOperand secondOperand cachedValue =>
      firstOperand.Valid character ∧ secondOperand.Valid character ∧
        Right character
          (binaryOperation operation firstOperand secondOperand cachedValue).plain cachedValue
  | _ => True

theorem plain_caching (e : Expression) : e.caching.plain = e := by
  induction e with
  | unaryOperation operation operand ih => rw [Expression.caching, plain, ih]
  | binaryOperation operation firstOperand secondOperand ih₁ ih₂ =>
      rw [Expression.caching, plain, ih₁, ih₂]
  | _ => rfl

theorem valid_caching (character : String) (e : Expression) : e.caching.Valid character := by
  induction e with
  | unaryOperation operation operand ih => exact ⟨ih, nofun⟩
  | binaryOperation operation firstOperand secondOperand ih₁ ih₂ => exact ⟨ih₁, ih₂, nofun⟩
  | _ => trivial

/-- What an evaluation leaves behind: the plain result, and the same expression with a
cache that is still right. -/
structure Agrees (character : String) (e : CachingExpression) (plainResult : Except PyExc Int)
    (evaluated : Except PyExc Int × CachingExpression) : Prop where
  result : evaluated.1 = plainResult
  plain : evaluated.2.plain = e.plain
  valid : evaluated.2.Valid character

variable {s : State} {character : String}

theorem onStage_ok (hs : s.assertCharacterOnStage character = .ok ()) (e : CachingExpression)
    (evaluated : Except PyExc Int × CachingExpression) :
    onStage s character e evaluated = evaluated := by
  rw [onStage, hs]

/-- The value of an evaluation may be kept. -/
theorem right_caches {e : CachingExpression} {cachedValue : Option Int} {result : Except PyExc Int}
    (hs : s.assertCharacterOnStage character = .ok ())
    (hright : Right character e.plain cachedValue)
    (hresult : result = e.plain.evaluateLogic s character) :
    Right character e.plain (e.caches cachedValue result) := by
  cases result with
  | error exc => exact hright
  | ok v =>
      rw [caches]
      split_ifs with hcacheable
      · intro v' hv' s' hs'
        obtain rfl : v = v' := Option.some.inj hv'
        rw [Expression.evaluateLogic_cacheable hs' hs hcacheable, ← hresult]
      · exact hright

theorem right_of_kept {e : CachingExpression} {cachedValue : Option Int} {v : Int}
    (hright : Right character e.plain cachedValue) (h : e.kept cachedValue = some v)
    (hs : s.assertCharacterOnStage character = .ok ()) :
    e.plain.evaluateLogic s character = .ok v := by
  rw [kept] at h
  split_ifs at h with hcacheable
  exact hright v h s hs

/-- **An evaluation with the cache agrees with one without**, and keeps the cache right. -/
theorem evaluateLogicCached_agrees (hs : s.assertCharacterOnStage character = .ok ())
    (e : CachingExpression) (h : e.Valid character) :
    Agrees character e (e.plain.evaluateLogic s character) (e.evaluateLogicCached s character) := by
  induction e with
  | unaryOperation operation operand cachedValue ih =>
      obtain ⟨hoperand, hright⟩ := h
      rw [evaluateLogicCached]
      dsimp only
      cases hkept : (unaryOperation operation operand cachedValue).kept cachedValue with
      | some v => exact ⟨(right_of_kept hright hkept hs).symm, rfl, hoperand, hright⟩
      | none =>
          have hlogic : (unaryOperation operation operand cachedValue).plain.evaluateLogic s
              character = (operand.plain.evaluateLogic s character).bind operation.handler := by
            rw [plain, Expression.evaluateLogic, hs]
            rfl
          obtain ⟨hresult, hplain, hvalid⟩ := ih hoperand
          dsimp only
          rw [onStage_ok hs, hresult, ← hlogic]
          refine ⟨rfl, ?_, hvalid, ?_⟩
          · rw [plain, plain, hplain]
          · rw [plain, hplain]
            exact right_caches hs hright rfl
  | binaryOperation operation firstOperand secondOperand cachedValue ih₁ ih₂ =>
      obtain ⟨hfirst, hsecond, hright⟩ := h
      rw [evaluateLogicCached]
      dsimp only
      cases hkept :
          (binaryOperation operation firstOperand secondOperand cachedValue).kept cachedValue with
      | some v => exact ⟨(right_of_kept hright hkept hs).symm, rfl, hfirst, hsecond, hright⟩
      | none =>
          have hlogic : (binaryOperation operation firstOperand secondOperand
              cachedValue).plain.evaluateLogic s character =
                (firstOperand.plain.evaluateLogic s character).bind fun a =>
                  (secondOperand.plain.evaluateLogic s character).bind (operation.handler a) := by
            rw [plain, Expression.evaluateLogic, hs]
            rfl
          obtain ⟨hresult₁, hplain₁, hvalid₁⟩ := ih₁ hfirst
          obtain ⟨hresult₂, hplain₂, hvalid₂⟩ := ih₂ hsecond
          dsimp only
          rw [onStage_ok hs, onStage_ok hs, hresult₁]
          cases ha : firstOperand.plain.evaluateLogic s character with
          | error exc =>
              -- The second operand is not looked at.
              rw [ha] at hlogic
              refine ⟨hlogic.symm, ?_, hvalid₁, hsecond, ?_⟩
              · rw [plain, plain, hplain₁]
              · rw [plain, hplain₁]
                exact hright
          | ok a =>
              have hlogic : (binaryOperation operation firstOperand secondOperand
                  cachedValue).plain.evaluateLogic s character =
                    (secondOperand.plain.evaluateLogic s character).bind (operation.handler a) := by
                rw [hlogic, ha]
                rfl
              dsimp only
              rw [hresult₂, ← hlogic]
              refine ⟨rfl, ?_, hvalid₁, hvalid₂, ?_⟩
              · rw [plain, plain, hplain₁, hplain₂]
              · rw [plain, hplain₁, hplain₂]
                exact right_caches hs hright rfl
  | _ => exact ⟨rfl, rfl, h⟩

/-- A step: `evaluate` on an object whose cache is right. -/
theorem evaluate_agrees (s : State) (e : CachingExpression) (h : e.Valid character) :
    Agrees character e (e.plain.evaluate s character) (e.evaluate s character) := by
  cases hs : s.assertCharacterOnStage character with
  | ok _ =>
      have hagrees := evaluateLogicCached_agrees hs e h
      rw [evaluate, onStage, hs, Expression.evaluate, hs]
      exact hagrees
  | error exc =>
      rw [evaluate, onStage, hs, Expression.evaluate, hs]
      exact ⟨rfl, rfl, h⟩

theorem evaluateAll_of_valid (e : CachingExpression) (h : e.Valid character)
    (states : List State) :
    e.evaluateAll character states = states.map fun s => e.plain.evaluate s character := by
  induction states generalizing e with
  | nil => rfl
  | cons s states ih =>
      have hagrees := evaluate_agrees s e h
      rw [evaluateAll, List.map_cons, hagrees.result, ih _ hagrees.valid, hagrees.plain]

end CachingExpression

/-- **The cache cannot be seen**: an expression that is evaluated in one state after the
other has the results it would have without a cache. -/
theorem evaluateAll_caching (e : Expression) (character : String) (states : List State) :
    e.caching.evaluateAll character states = states.map fun s => e.evaluate s character := by
  rw [CachingExpression.evaluateAll_of_valid _ (CachingExpression.valid_caching character e),
    CachingExpression.plain_caching]

end XeusPywrap
