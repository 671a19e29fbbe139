import Mathlib.Data.List.Basic
import XeusPywrap.Shakespeare.Operation

/-!
# XeusPywrap.Shakespeare.Published

What a play publishes on stdout, against the pieces its Output operations owe.

`Performance.outputDue` is the output the next operation owes, read off the state
before it: the operation is an Output, its speaker is on stage with exactly one
other character, and its condition is met. A number output owes the numeral of
that character's value, a character output the character with that code.

`runBody_of_due` and `runBody_of_not_due` say what one iteration publishes, and
`published_runFor` what a run does. `publishesOutput_iff` compares the two: the
output manager publishes every number as the character with that code.
-/

namespace XeusPywrap

/-! ### The pieces -/

/-- An executed Output operation: its type, and the value it outputs. -/
structure OutputCall where
  outputType : ValueType
  value : Int
  deriving DecidableEq, Repr

/-- Everything published on stdout so far. -/
def Performance.stdout (p : Performance) : Text := p.published.flatten

abbrev Performance.Coherent (p : Performance) : Prop := p.state.Coherent

/-- The output an operation owes in a state. -/
def Operation.outputDue (s : State) : Operation → Option OutputCall
  | .sentence character condition (.output outputType) =>
      if character ∈ s.charactersOnStage ∧ condition.all (· == s.globalBoolean) then
        (s.partner character).bind fun opposite =>
          (s.characters opposite).map fun c => ⟨outputType, c.value⟩
      else none
  | _ => none

/-- The output the next operation of a play owes. -/
def Performance.outputDue (play : Play) (p : Performance) : Option OutputCall :=
  play.operations[p.currentPosition]?.bind (Operation.outputDue p.state)

namespace OutputCall

/-- The text an output owes; an invalid code owes none. -/
def piece (call : OutputCall) : Text :=
  match call.outputType with
  | .number => (numeral call.value).map CodePoint.ofChar
  | .char => (codePoint? call.value).toList

/-- The text the output manager publishes, or the exception it raises. -/
def emitted (lib : Libraries) (call : OutputCall) : Except PyExc Text := do
  let text ← codeToCharacter call.value
  if text.any CodePoint.isSurrogate then .error lib.typeError else .ok text

/-- The outputs the code gets right: characters that can be published, and invalid
codes that can be printed. -/
def faithful (call : OutputCall) : Bool :=
  match call.outputType, codePoint? call.value with
  | .number, _ => false
  | .char, some c => !c.isSurrogate
  | .char, none => printable call.value

/-- The texts an output publishes. -/
def texts (lib : Libraries) (call : OutputCall) : List Text :=
  match call.emitted lib with
  | .ok text => [text]
  | .error _ => []

/-- An output publishes its piece; a number output does not fail, and an invalid
code raises a `ShakespeareRuntimeError`. -/
structure Right (lib : Libraries) (call : OutputCall) : Prop where
  published : (call.texts lib).flatten = call.piece
  number : call.outputType = .number → ∃ text, call.emitted lib = .ok text
  invalid : call.outputType = .char → codePoint? call.value = none →
    ∃ message, call.emitted lib = .error (shakespeareRuntimeError message)

variable {lib : Libraries} {call : OutputCall}

theorem emitted_of_codePoint {c : CodePoint} (h : codePoint? call.value = some c) :
    call.emitted lib = if c.isSurrogate then .error lib.typeError else .ok [c] := by
  simp [emitted, codeToCharacter, pyChr, h, bind, Except.bind]

theorem emitted_of_invalid (lib : Libraries) (h : codePoint? call.value = none) :
    call.emitted lib = (pyStr call.value).bind fun text =>
      .error (shakespeareRuntimeError ("Invalid character code: " ++ text)) := by
  simp only [emitted, codeToCharacter, pyChr, h, bind]
  cases pyStr call.value <;> rfl

/-- No number is the code of its own numeral. -/
theorem numeral_ne_singleton {v : Int} {c : CodePoint} (h : codePoint? v = some c) :
    (numeral v).map CodePoint.ofChar ≠ [c] := by
  unfold codePoint? at h
  split_ifs at h with hv
  simp only [Option.some.injEq] at h
  intro heq
  have hlen : (numeral v).length ≤ 1 := by
    rw [← List.length_map, heq]
    rfl
  -- A numeral of one character is a digit, whose code is 48 more than its value.
  rw [numeral, if_neg (by omega)] at heq hlen
  have hlt := (Nat.length_toDigits_le_iff (by omega) (by omega)).mp hlen
  rw [Nat.toDigits_of_lt_base (by omega), List.map_singleton, List.singleton_inj, ← h,
    CodePoint.ofChar, CodePoint.mk.injEq,
    Nat.toNat_digitChar_of_lt_ten (by omega)] at heq
  omega

theorem not_right_of_number (h : call.outputType = .number) : ¬ call.Right lib := by
  intro hright
  obtain ⟨text, htext⟩ := hright.number h
  have hpub := hright.published
  simp only [texts, htext, piece, h, List.flatten_cons, List.flatten_nil, List.append_nil] at hpub
  cases hc : codePoint? call.value with
  | none =>
      rw [emitted_of_invalid lib hc] at htext
      cases hs : pyStr call.value <;> simp [hs, Except.bind] at htext
  | some c =>
      rw [emitted_of_codePoint hc] at htext
      split_ifs at htext
      simp only [Except.ok.injEq] at htext
      exact numeral_ne_singleton hc (hpub.symm.trans htext.symm)

theorem right_iff_of_character {c : CodePoint} (h : call.outputType = .char)
    (hc : codePoint? call.value = some c) : call.Right lib ↔ c.isSurrogate = false := by
  constructor
  · intro hright
    have hpub := hright.published
    rw [texts, emitted_of_codePoint hc, piece, h, hc] at hpub
    cases hsurrogate : c.isSurrogate with
    | true => simp [hsurrogate] at hpub
    | false => rfl
  · intro hsurrogate
    refine ⟨?_, ?_, ?_⟩
    · simp [texts, emitted_of_codePoint hc, hsurrogate, piece, h, hc]
    · simp [h]
    · simp [hc]

theorem right_iff_of_invalid (h : call.outputType = .char) (hc : codePoint? call.value = none) :
    call.Right lib ↔ printable call.value = true := by
  constructor
  · intro hright
    obtain ⟨message, hmessage⟩ := hright.invalid h hc
    rw [emitted_of_invalid lib hc, pyStr] at hmessage
    by_contra hprint
    simp [hprint, Except.bind, strLimitExceeded, valueError, shakespeareRuntimeError] at hmessage
  · intro hprint
    have hemitted := emitted_of_invalid lib hc
    rw [pyStr, if_pos hprint] at hemitted
    refine ⟨?_, ?_, fun _ _ => ⟨_, hemitted⟩⟩
    · simp [texts, hemitted, Except.bind, piece, h, hc]
    · simp [h]

theorem right_iff_faithful : call.Right lib ↔ call.faithful = true := by
  cases ht : call.outputType with
  | number => simp [faithful, ht, not_right_of_number ht]
  | char =>
      cases hc : codePoint? call.value with
      | some c => simp [faithful, ht, hc, right_iff_of_character ht hc]
      | none => simp [faithful, ht, hc, right_iff_of_invalid ht hc]

end OutputCall

/-! ### What operations leave alone -/

/-- A property of performances that neither reading input nor moving the position
nor a change of the state can break, as long as the state stays coherent. -/
structure Framed (I : Performance → Prop) : Prop where
  state : ∀ {p : Performance} {state : State}, I p →
    (p.state.Coherent → state.Coherent) → I { p with state }
  stdin : ∀ {p : Performance} {stdin : Stdin}, I p → I { p with stdin }
  position : ∀ {p : Performance} {currentPosition : Nat}, I p → I { p with currentPosition }

theorem framed_published (texts : List Text) : Framed fun p => p.published = texts :=
  ⟨fun h _ => h, fun h => h, fun h => h⟩

theorem framed_coherent : Framed Performance.Coherent :=
  ⟨fun h hstate => hstate h, fun h => h, fun h => h⟩

section Frame

variable {lib : Libraries} {u : Unicode} {play : Play} {I : Performance → Prop}

/-- Code that fails in any way. -/
abbrev Keeps {α : Type} (I : Performance → Prop) (m : Playing α) : Prop :=
  Exec.Maintains I (fun _ => True) m

theorem keeps_query {α : Type} (q : State → Except PyExc α) : Keeps I (query q) :=
  Exec.Maintains.get.bind fun p => maintains_ofExcept (q p.state)

theorem Framed.onState {α : Type} (hI : Framed I) {m : Staging α}
    (hm : Exec.Maintains State.Coherent (fun _ => True) m) : Keeps I (onState m) :=
  fun p hp => ⟨hI.state hp fun h => (hm p.state h).1, fun _ _ => trivial⟩

theorem Framed.onStdin {α : Type} (hI : Framed I) (m : Reading α) : Keeps I (onStdin m) :=
  fun _ hp => ⟨hI.stdin hp, fun _ _ => trivial⟩

theorem Framed.runGoto (hI : Framed I) (destination : String) :
    Keeps I (runGoto play destination) := by
  refine Exec.Maintains.get.bind fun p => (maintains_ofExcept _).bind fun act => ?_
  split
  next => exact Exec.Maintains.fail trivial
  next scenes =>
    split
    next => exact Exec.Maintains.fail trivial
    next newPosition => exact Exec.Maintains.update fun _ hp => hI.position hp

/-- A sentence keeps what its output keeps, if it is an output. -/
theorem Framed.logic (hI : Framed I) (character : String) (logic : Logic Expression)
    (hout : ∀ outputType value, logic = .output outputType →
      Keeps I (outputValue lib outputType value)) :
    Keeps I (logic.run lib u play character) := by
  have hchange := fun name f => hI.onState (State.changeCharacter_coherent name f)
  cases logic with
  | question firstValue comparative secondValue =>
      exact (keeps_query _).bind fun a => (keeps_query _).bind fun b =>
        hI.onState (State.setGlobalBoolean_coherent _)
  | assignment value =>
      exact (keeps_query _).bind fun opposite => (keeps_query _).bind fun v => hchange _ _
  | input inputType =>
      exact (keeps_query _).bind fun opposite => (hI.onStdin _).bind fun v => hchange _ _
  | output outputType =>
      exact (keeps_query _).bind fun opposite => (keeps_query _).bind fun c =>
        hout outputType c.value rfl
  | push value =>
      exact (keeps_query _).bind fun opposite => (keeps_query _).bind fun v => hchange _ _
  | pop => exact (keeps_query _).bind fun opposite => hchange _ _
  | goto destination => exact hI.runGoto destination

theorem Framed.runSentence (hI : Framed I) (character : String) (condition : Option Bool)
    (logic : Logic Expression)
    (hout : ∀ outputType value, logic = .output outputType →
      Keeps I (outputValue lib outputType value)) :
    Keeps I (runSentence lib u play character condition logic) := by
  refine (keeps_query _).bind fun _ => Exec.Maintains.get.bind fun p => ?_
  cases condition with
  | none => exact hI.logic character logic hout
  | some positive =>
      dsimp only
      split
      · exact Exec.Maintains.pure ()
      · exact hI.logic character logic hout

theorem Framed.operation (hI : Framed I) (operation : Operation)
    (hout : ∀ character condition outputType value,
      operation = .sentence character condition (.output outputType) →
        Keeps I (outputValue lib outputType value)) :
    Keeps I (operation.run lib u play) := by
  cases operation with
  | entrance characters => exact hI.onState (State.enterCharacters_coherent characters)
  | exit character => exact hI.onState (State.exitCharacter_coherent character)
  | exeunt characters =>
      cases characters with
      | none => exact hI.onState State.exeuntAll_coherent
      | some characters => exact hI.onState (State.exeuntCharacters_coherent characters)
  | breakpoint => exact Exec.Maintains.pure ()
  | sentence character condition logic =>
      refine hI.runSentence character condition logic fun outputType value h => ?_
      exact hout character condition outputType value (by rw [h])

theorem Framed.advanceFrom (hI : Framed I) (position : Nat) : Keeps I (advanceFrom position) := by
  refine Exec.Maintains.get.bind fun p => ?_
  split
  · exact Exec.Maintains.update fun _ hp => hI.position hp
  · exact Exec.Maintains.pure ()

end Frame

/-! ### One iteration -/

section Iteration

variable {lib : Libraries} {u : Unicode} {play : Play} {p : Performance}

/-- A breakpoint runs as an operation that does nothing. -/
theorem run_runBody {operation : Operation}
    (h : play.operations[p.currentPosition]? = some operation) :
    (runBody lib u play).run p =
      (operation.run lib u play >>= fun _ => advanceFrom p.currentPosition).run p := by
  rw [runBody, Exec.run_bind_ok (Exec.run_get p), h]
  cases operation with
  | breakpoint =>
      rw [Operation.run, Exec.run_bind_ok (Exec.run_pure () p), advanceFrom,
        Exec.run_bind_ok (Exec.run_get p), if_pos rfl]
  | _ => rw [stepForward, Exec.run_bind_ok (Exec.run_get p), h]

theorem exists_operation (h : playOver play p = false) :
    ∃ operation, play.operations[p.currentPosition]? = some operation := by
  simp only [playOver, decide_eq_false_iff_not, Nat.not_le] at h
  exact ⟨_, List.getElem?_eq_getElem h⟩

theorem run_outputValue (outputType : ValueType) (value : Int) :
    (outputValue lib outputType value).run p =
      match OutputCall.emitted lib ⟨outputType, value⟩ with
      | .ok text => (.ok (), { p with published := p.published ++ [text] })
      | .error e => (.error (.raised e), p) := by
  cases outputType <;>
    · simp only [outputValue, outputNumber, outputCharacter, OutputCall.emitted]
      cases h : codeToCharacter value with
      | error e => rw [Exec.run_bind_error (run_ofExcept_error e p)]; rfl
      | ok text =>
          rw [Exec.run_bind_ok (run_ofExcept_ok text p), publishStdout]
          by_cases hs : text.any CodePoint.isSurrogate <;>
            simp [hs, bind, Except.bind]

theorem keeps_coherent_outputValue (outputType : ValueType) (value : Int) :
    Keeps (Performance.Coherent) (outputValue lib outputType value) := by
  intro p hp
  rw [run_outputValue]
  refine ⟨?_, fun _ _ => trivial⟩
  split <;> exact hp

theorem run_query_ok {α : Type} {q : State → Except PyExc α} {a : α} (h : q p.state = .ok a) :
    (query q).run p = (.ok a, p) := by
  rw [query, Exec.run_bind_ok (Exec.run_get p), h]
  exact run_ofExcept_ok a p

theorem run_query_error {α : Type} {q : State → Except PyExc α} {e : PyExc}
    (h : q p.state = .error e) : (query q).run p = (.error (.raised e), p) := by
  rw [query, Exec.run_bind_ok (Exec.run_get p), h]
  exact run_ofExcept_error e p

/-- An output that is due calls the output manager. -/
theorem run_output_of_due (hp : p.Coherent) {character : String} {condition : Option Bool}
    {outputType : ValueType} {call : OutputCall}
    (h : Operation.outputDue p.state (.sentence character condition (.output outputType)) =
      some call) :
    (runSentence lib u play character condition (.output outputType)).run p =
      (outputValue lib call.outputType call.value).run p := by
  simp only [Operation.outputDue] at h
  split_ifs at h with hguard
  obtain ⟨hstage, hcondition⟩ := hguard
  obtain ⟨opposite, hopposite, hvalue⟩ := Option.bind_eq_some_iff.mp h
  obtain ⟨c, hc, rfl⟩ := Option.map_eq_some_iff.mp hvalue
  have hlogic : (Logic.run lib u play character (.output outputType)).run p =
      (outputValue lib outputType c.value).run p := by
    rw [Logic.run, Exec.run_bind_ok (run_query_ok (hp.characterOpposite_ok hopposite)),
      Exec.run_bind_ok (run_query_ok (State.characterByName_ok hc))]
  rw [runSentence, Exec.run_bind_ok (run_query_ok (State.assertCharacterOnStage_ok hstage)),
    Exec.run_bind_ok (Exec.run_get p)]
  cases condition with
  | none => exact hlogic
  | some positive =>
      simp only [Option.all_some, beq_iff_eq] at hcondition
      simp only [hcondition, ne_eq, not_true_eq_false, if_false]
      exact hlogic

/-- An output that is not due does nothing: its speaker is not on stage, or its
condition is not met, or its speaker has no opposite. -/
theorem run_output_of_not_due (lib : Libraries) (u : Unicode) (play : Play)
    (hp : p.Coherent) {character : String} {condition : Option Bool} {outputType : ValueType}
    (h : Operation.outputDue p.state (.sentence character condition (.output outputType)) =
      none) :
    ∃ r, (runSentence lib u play character condition (.output outputType)).run p = (r, p) := by
  by_cases hstage : character ∈ p.state.charactersOnStage
  case neg =>
    -- `assert_character_on_stage` raises.
    obtain ⟨e, he⟩ := State.assertCharacterOnStage_error hstage
    exact ⟨_, by rw [runSentence, Exec.run_bind_error (run_query_error he)]⟩
  rw [runSentence, Exec.run_bind_ok (run_query_ok (State.assertCharacterOnStage_ok hstage)),
    Exec.run_bind_ok (Exec.run_get p)]
  simp only [Operation.outputDue, hstage, true_and] at h
  have hlogic (hcondition : condition.all (· == p.state.globalBoolean) = true) :
      ∃ r, (Logic.run lib u play character (.output outputType)).run p = (r, p) := by
    rw [if_pos hcondition] at h
    cases hopposite : p.state.partner character with
    | none =>
        -- `character_opposite` raises.
        obtain ⟨e, he⟩ := hp.characterOpposite_error hopposite
        exact ⟨_, by rw [Logic.run, Exec.run_bind_error (run_query_error he)]⟩
    | some opposite =>
        rw [hopposite, Option.bind_some, Option.map_eq_none_iff] at h
        rw [Logic.run, Exec.run_bind_ok (run_query_ok (hp.characterOpposite_ok hopposite)),
          Exec.run_bind_error (run_query_error (State.characterByName_error h))]
        exact ⟨_, rfl⟩
  cases condition with
  | none => exact hlogic rfl
  | some positive =>
      by_cases hpositive : positive = p.state.globalBoolean
      · simp only [hpositive, ne_eq, not_true_eq_false, if_false]
        exact hlogic (by simp [hpositive])
      · simp only [hpositive, ne_eq, not_false_eq_true, if_true]
        exact ⟨_, rfl⟩

theorem run_advanceFrom {position : Nat} (h : p.currentPosition = position) :
    (advanceFrom position).run p =
      (.ok (), { p with currentPosition := p.currentPosition + 1 }) := by
  rw [advanceFrom, Exec.run_bind_ok (Exec.run_get p), if_pos h]
  rfl

/-- What an iteration does that owes an output. -/
theorem runBody_of_due (hp : p.Coherent) {call : OutputCall}
    (h : p.outputDue play = some call) :
    (runBody lib u play).run p =
      match call.emitted lib with
      | .ok text =>
          (.ok (), { p with
            currentPosition := p.currentPosition + 1
            published := p.published ++ [text] })
      | .error e => (.error (.raised e), p) := by
  obtain ⟨operation, hoperation, hdue⟩ := Option.bind_eq_some_iff.mp h
  rw [run_runBody hoperation]
  cases operation with
  | sentence character condition logic =>
      cases logic with
      | output outputType =>
          have hrun : (runSentence lib u play character condition (.output outputType)).run p = _ :=
            run_output_of_due hp hdue
          rw [run_outputValue] at hrun
          cases hemitted : call.emitted lib with
          | ok text =>
              rw [hemitted] at hrun
              rw [Operation.run, Exec.run_bind_ok hrun]
              exact run_advanceFrom rfl
          | error e =>
              rw [hemitted] at hrun
              rw [Operation.run, Exec.run_bind_error hrun]
      | _ => simp [Operation.outputDue] at hdue
  | _ => simp [Operation.outputDue] at hdue

/-- An iteration that owes no output publishes nothing. -/
theorem runBody_of_not_due (hp : p.Coherent) (hover : playOver play p = false)
    (h : p.outputDue play = none) : ((runBody lib u play).run p).2.published = p.published := by
  obtain ⟨operation, hoperation⟩ := exists_operation hover
  rw [Performance.outputDue, hoperation, Option.bind_some] at h
  rw [run_runBody hoperation]
  have hframed := framed_published p.published
  by_cases hout : ∃ character condition outputType,
      operation = .sentence character condition (.output outputType)
  · obtain ⟨character, condition, outputType, rfl⟩ := hout
    obtain ⟨r, hrun⟩ := run_output_of_not_due lib u play hp h
    cases r with
    | ok a =>
        rw [Operation.run, Exec.run_bind_ok hrun]
        exact (hframed.advanceFrom _ p rfl).1
    | error e => rw [Operation.run, Exec.run_bind_error hrun]
  -- No output at all: the frame rules cover every other operation.
  · refine (((hframed.operation operation fun character condition outputType _ heq => ?_).bind
      fun _ => hframed.advanceFrom _) p rfl).1
    exact absurd ⟨character, condition, outputType, heq⟩ hout

/-- Every iteration keeps the state coherent. -/
theorem runBody_coherent : Keeps (Performance.Coherent) (runBody lib u play) := by
  intro p hp
  cases h : play.operations[p.currentPosition]? with
  | none =>
      refine ⟨?_, fun _ _ => trivial⟩
      rw [runBody, Exec.run_bind_ok (Exec.run_get p), h]
      rw [stepForward, Exec.run_bind_ok (Exec.run_get p), h]
      exact hp
  | some operation =>
      rw [run_runBody h]
      refine ((framed_coherent.operation operation fun _ _ outputType value _ => ?_).bind
        fun _ => framed_coherent.advanceFrom _) p hp
      exact keeps_coherent_outputValue outputType value

end Iteration

/-! ### A run -/

/-- The texts published so far equal the pieces of the outputs due so far, no number
output failed, every invalid code raised a `ShakespeareRuntimeError` and published
nothing, and nothing else published anything. -/
structure PublishesOutput (lib : Libraries) (u : Unicode) (play : Play) (p : Performance)
    (n : Nat) : Prop where
  published : ((runLoop lib u play).runFor n p).2.stdout =
    ((runLoop lib u play).iterations n p).flatMap fun i =>
      (i.before.outputDue play).elim [] OutputCall.piece
  number : ∀ i ∈ (runLoop lib u play).iterations n p, ∀ value,
    i.before.outputDue play = some ⟨.number, value⟩ → i.result = .ok ()
  invalid : ∀ i ∈ (runLoop lib u play).iterations n p, ∀ value,
    i.before.outputDue play = some ⟨.char, value⟩ → codePoint? value = none →
      (∃ message, i.result = .error (.raised (shakespeareRuntimeError message))) ∧
        i.after.published = i.before.published
  silent : ∀ i ∈ (runLoop lib u play).iterations n p,
    i.before.outputDue play = none → i.after.published = i.before.published

section Play

variable {lib : Libraries} {u : Unicode} {play : Play} {p : Performance}

/-- The text the next operation publishes. -/
def Performance.nextText (lib : Libraries) (play : Play) (p : Performance) : Text :=
  (p.outputDue play).elim [] fun call => (call.texts lib).flatten

theorem stdout_runBody (hp : p.Coherent) (hover : playOver play p = false) :
    ((runBody lib u play).run p).2.stdout = p.stdout ++ p.nextText lib play := by
  unfold Performance.stdout
  cases h : p.outputDue play with
  | none => simp [runBody_of_not_due hp hover h, Performance.nextText, h]
  | some call =>
      rw [runBody_of_due hp h, Performance.nextText, h, Option.elim_some, OutputCall.texts]
      cases call.emitted lib <;> simp

/-- What a run publishes. -/
theorem stdout_runFor (hp : p.Coherent) (n : Nat) :
    ((runLoop lib u play).runFor n p).2.stdout = p.stdout ++
      ((runLoop lib u play).iterations n p).flatMap fun i => i.before.nextText lib play :=
  WhileLoop.collected runBody_coherent (fun _ hs hover => stdout_runBody hs hover) hp

/-- How an iteration ends that owes an output. -/
theorem iteration_of_due (hp : p.Coherent) {n : Nat} {i : Iteration Performance Halt}
    (hi : i ∈ (runLoop lib u play).iterations n p) {call : OutputCall}
    (hdue : i.before.outputDue play = some call) :
    match call.emitted lib with
    | .ok _ => i.result = .ok ()
    | .error e =>
        i.result = .error (.raised e) ∧ i.after.published = i.before.published := by
  obtain ⟨hcoherent, -, heq⟩ := WhileLoop.iterations_invariant runBody_coherent hp i hi
  have hrun : (runBody lib u play).run i.before = _ := runBody_of_due hcoherent hdue
  have hresult : i.result = ((runBody lib u play).run i.before).1 := congrArg Iteration.result heq
  have hafter : i.after = ((runBody lib u play).run i.before).2 := congrArg Iteration.after heq
  rw [hresult, hafter, hrun]
  cases call.emitted lib with
  | ok text => rfl
  | error e => exact ⟨rfl, rfl⟩

/-- If a play publishes its outputs, however long it runs, every output of it is right. -/
theorem right_of_publishesOutput (hp : p.Coherent) (hpublished : p.published = [])
    (h : ∀ n, PublishesOutput lib u play p n) {n : Nat} {i : Iteration Performance Halt}
    (hi : i ∈ (runLoop lib u play).iterations n p) {call : OutputCall}
    (hdue : i.before.outputDue play = some call) : call.Right lib := by
  have hdone := iteration_of_due hp hi hdue
  have htexts (m : Nat) :
      ((runLoop lib u play).iterations m p).flatMap (fun i => i.before.nextText lib play) =
        ((runLoop lib u play).iterations m p).flatMap
          fun i => (i.before.outputDue play).elim [] OutputCall.piece := by
    have hm := (h m).published
    rwa [stdout_runFor hp, Performance.stdout, hpublished] at hm
  refine ⟨?_, fun htype => ?_, fun htype hinvalid => ?_⟩
  -- The two outputs agree after every number of iterations, so they agree piece by piece.
  · have hi' := WhileLoop.eq_of_outputs_eq htexts i hi
    simpa only [Performance.nextText, hdue, Option.elim_some] using hi'
  · have hok := (h n).number i hi call.value (by rw [hdue, ← htype])
    cases hemitted : call.emitted lib with
    | ok text => exact ⟨text, rfl⟩
    | error e => simp [hemitted, hok] at hdone
  · obtain ⟨⟨message, hmessage⟩, -⟩ :=
      (h n).invalid i hi call.value (by rw [hdue, ← htype]) hinvalid
    refine ⟨message, ?_⟩
    cases hemitted : call.emitted lib with
    | ok text => simp [hemitted, hmessage] at hdone
    | error e =>
        rw [hemitted, hmessage] at hdone
        simpa using hdone.1.symm

/-- A play whose outputs are right publishes them. -/
theorem publishesOutput_of_right (hp : p.Coherent) (hpublished : p.published = []) {n : Nat}
    (h : ∀ i ∈ (runLoop lib u play).iterations n p, ∀ call,
      i.before.outputDue play = some call → call.Right lib) :
    PublishesOutput lib u play p n := by
  refine ⟨?_, fun i hi value hdue => ?_, fun i hi value hdue hinvalid => ?_, fun i hi hdue => ?_⟩
  · rw [stdout_runFor hp, Performance.stdout, hpublished, List.flatten_nil, List.nil_append]
    refine List.flatMap_congr fun i hi => ?_
    unfold Performance.nextText
    cases hdue : i.before.outputDue play with
    | none => rfl
    | some call => exact (h i hi call hdue).published
  · obtain ⟨text, htext⟩ := (h i hi _ hdue).number rfl
    have hdone := iteration_of_due hp hi hdue
    rwa [htext] at hdone
  · obtain ⟨message, hmessage⟩ := (h i hi _ hdue).invalid rfl hinvalid
    have hdone := iteration_of_due hp hi hdue
    rw [hmessage] at hdone
    exact ⟨⟨message, hdone.1⟩, hdone.2⟩
  · obtain ⟨hcoherent, hover, heq⟩ := WhileLoop.iterations_invariant runBody_coherent hp i hi
    have hafter : i.after = ((runBody lib u play).run i.before).2 := congrArg Iteration.after heq
    rw [hafter]
    exact runBody_of_not_due hcoherent hover hdue

end Play

/-- A new play has published nothing, and its state is coherent. -/
theorem Shakespeare.new_coherent {ast : PlayAst} {lines : List (List Char)} {play : Play}
    {p : Performance} (h : Shakespeare.new ast lines = .ok (play, p)) :
    p.Coherent ∧ p.published = [] := by
  unfold Shakespeare.new at h
  cases hplay : Play.new ast with
  | error e => simp [hplay, bind, Except.bind] at h
  | ok play' =>
      cases hstate : State.new ast.dramatisPersonae with
      | error e => simp [hplay, hstate, bind, Except.bind] at h
      | ok state =>
          simp only [hplay, hstate, bind, Except.bind, pure, Except.pure, Except.ok.injEq,
            Prod.mk.injEq] at h
          obtain ⟨-, rfl⟩ := h
          exact ⟨(State.new_coherent hstate).1, rfl⟩

/-- **`you` is the other one of two.** Whatever a play has done, and also where it has
failed, a character has an opposite exactly if it is on stage with one other, who is the
opposite; nobody is on stage twice or their own opposite, and everybody on stage has been
initialized. -/
theorem characterOpposite_of_play (lib : Libraries) (u : Unicode) {ast : PlayAst}
    {lines : List (List Char)} {play : Play} {p : Performance}
    (h : Shakespeare.new ast lines = .ok (play, p)) (n : Nat) :
    (∀ name opposite,
      ((runLoop lib u play).runFor n p).2.state.characterOpposite name = .ok opposite ↔
        ((runLoop lib u play).runFor n p).2.state.charactersOnStage = [name, opposite] ∨
        ((runLoop lib u play).runFor n p).2.state.charactersOnStage = [opposite, name]) ∧
    (∀ name opposite,
      ((runLoop lib u play).runFor n p).2.state.characterOpposite name = .ok opposite →
        name ≠ opposite) ∧
    ((runLoop lib u play).runFor n p).2.state.charactersOnStage.Nodup ∧
    ∀ name ∈ ((runLoop lib u play).runFor n p).2.state.charactersOnStage,
      (((runLoop lib u play).runFor n p).2.state.characters name).isSome := by
  obtain ⟨hp, -⟩ := Shakespeare.new_coherent h
  have hcoherent : ((runLoop lib u play).runFor n p).2.Coherent :=
    (WhileLoop.runFor_maintains runBody_coherent n hp).1
  have hpartner : ∀ name opposite,
      ((runLoop lib u play).runFor n p).2.state.characterOpposite name = .ok opposite ↔
        State.partner ((runLoop lib u play).runFor n p).2.state name = some opposite :=
    fun _ _ => hcoherent.characterOpposite_eq_ok_iff
  refine ⟨fun name opposite => (hpartner name opposite).trans State.partner_eq_some_iff,
    fun name opposite h => hcoherent.ne_of_partner ((hpartner name opposite).mp h),
    hcoherent.nodup, hcoherent.initialized⟩

/-- **Output.** A play publishes its outputs, however long it runs, if and only if no
number output is ever executed, every character output has a character that can be
encoded or an invalid code that can be printed. -/
theorem publishesOutput_iff (lib : Libraries) (u : Unicode) {ast : PlayAst}
    {lines : List (List Char)} {play : Play} {p : Performance}
    (h : Shakespeare.new ast lines = .ok (play, p)) :
    (∀ n, PublishesOutput lib u play p n) ↔
      ∀ n, ∀ i ∈ (runLoop lib u play).iterations n p, ∀ call,
        i.before.outputDue play = some call → call.faithful = true := by
  obtain ⟨hp, hpublished⟩ := Shakespeare.new_coherent h
  constructor
  · intro hall n i hi call hdue
    exact OutputCall.right_iff_faithful.mp (right_of_publishesOutput hp hpublished hall hi hdue)
  · intro hall n
    refine publishesOutput_of_right hp hpublished fun i hi call hdue => ?_
    exact OutputCall.right_iff_faithful.mpr (hall n i hi call hdue)

/-- The outputs of a play that ends can be checked. -/
theorem faithful_of_ended {lib : Libraries} {u : Unicode} {play : Play} {p : Performance} {k : Nat}
    (hended : ((runLoop lib u play).runFor k p).1.isSome)
    (hall : ∀ i ∈ (runLoop lib u play).iterations k p,
      (i.before.outputDue play).all OutputCall.faithful = true) (n : Nat) :
    ∀ i ∈ (runLoop lib u play).iterations n p, ∀ call,
      i.before.outputDue play = some call → call.faithful = true := by
  intro i hi call hdue
  have hi' := hall i (WhileLoop.mem_iterations_of_ended _ hended hi)
  rwa [hdue, Option.all_some] at hi'

/-- Romeo and Juliet enter, Juliet says the sentences, and both leave. -/
def julietSays (sentences : List SentenceAst) : PlayAst :=
  ⟨[["Romeo"], ["Juliet"]], [⟨"I", [⟨"I",
    [.entrance [["Romeo"], ["Juliet"]], .line ["Juliet"] sentences, .exeunt none]⟩]⟩]⟩

/-- Juliet makes Romeo a number, 65, and lets him speak his mind: an `A`. -/
def spokenMind : PlayAst :=
  julietSays [⟨none, .assignment (.binaryExpression .theSumOf
    (.positiveNounPhrase ["big", "big", "big", "big", "big", "big"]) (.positiveNounPhrase []))⟩,
    ⟨none, .output .char⟩]

theorem publishesOutput_iff_of_spokenMind :
    ∃ play p, Shakespeare.new spokenMind [] = .ok (play, p) ∧
      ∀ n, PublishesOutput Libraries.documented Unicode.ascii play p n := by
  refine ⟨_, _, rfl, (@publishesOutput_iff _ _ spokenMind [] _ _ rfl).mpr ?_⟩
  exact faithful_of_ended (k := 4) (by decide +kernel) (by decide +kernel)

theorem characterOpposite_of_spokenMind :
    ∃ play p, Shakespeare.new spokenMind [] = .ok (play, p) ∧
      ((runLoop Libraries.documented Unicode.ascii play).runFor 1 p).2.state.characterOpposite
        "Juliet" = .ok "Romeo" := by
  refine ⟨_, _, rfl, ((@characterOpposite_of_play Libraries.documented Unicode.ascii spokenMind []
    _ _ rfl 1).1 "Juliet" "Romeo").mpr (.inr ?_)⟩
  decide +kernel

/-- Juliet lets Romeo open his heart. -/
def openedHeart : PlayAst := julietSays [⟨none, .output .number⟩]

/-- The value 0 of Romeo's goes out as the character with the code 0. -/
theorem not_publishesOutput_of_openedHeart :
    ∃ play p, Shakespeare.new openedHeart [] = .ok (play, p) ∧
      ¬ PublishesOutput Libraries.documented Unicode.ascii play p 2 := by
  refine ⟨_, _, rfl, fun h => ?_⟩
  have hstdout := h.published
  revert hstdout
  decide +kernel

end XeusPywrap
