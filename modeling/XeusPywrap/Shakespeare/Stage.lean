import Mathlib.Logic.Function.Basic
import XeusPywrap.Shakespeare.Play

/-!
# XeusPywrap.Shakespeare.Stage

`_state.py` and `_character.py`: the characters with their values and stacks, and
who is on stage.

The state keeps a second dictionary beside the stage, `_characters_opposite`, and
updates it whenever somebody enters or leaves. `State.Coherent` says that it is
right: the opposite of a character is the other one of the two on stage.
-/

namespace XeusPywrap

/-! ### Raising -/

/-- Return the value, or raise the exception. -/
def ofExcept {σ α : Type} : Except PyExc α → Exec σ Halt α
  | .ok a => pure a
  | .error e => Exec.fail (.raised e)

@[simp] theorem run_ofExcept_ok {σ α : Type} (a : α) (s : σ) :
    (ofExcept (.ok a) : Exec σ Halt α).run s = (.ok a, s) := rfl

@[simp] theorem run_ofExcept_error {σ α : Type} (e : PyExc) (s : σ) :
    (ofExcept (.error e) : Exec σ Halt α).run s = (.error (.raised e), s) := rfl

theorem maintains_ofExcept {σ α : Type} {I : σ → Prop} (r : Except PyExc α) :
    Exec.Maintains I (fun _ => True) (ofExcept r : Exec σ Halt α) := by
  cases r with
  | ok a => exact Exec.Maintains.pure a
  | error e => exact Exec.Maintains.fail trivial

def keyError (key : String) : PyExc := ⟨.exception, "KeyError", "'" ++ key ++ "'"⟩

/-! ### Characters -/

/-- `_character.Character`. -/
structure Character where
  value : Int
  /-- The stack, what was pushed last first. -/
  stack : List Int
  deriving DecidableEq, Repr

namespace Character

/-- `Character.__init__`. -/
def initial : Character := ⟨0, []⟩

def push (newValue : Int) (c : Character) : Character := { c with stack := newValue :: c.stack }

def pop (c : Character) : Except PyExc Character :=
  match c.stack with
  | [] => .error (shakespeareRuntimeError "Tried to pop from an empty stack.")
  | value :: stack => .ok ⟨value, stack⟩

end Character

/-! ### The state -/

/-- `_state.State`. A dictionary whose order nothing looks at is a function. -/
structure State where
  globalBoolean : Bool
  characters : String → Option Character
  /-- The keys of `_characters_on_stage`, in the order of their entrances. -/
  charactersOnStage : List String
  charactersOpposite : String → Option String

/-- Code that works on the state of a play. -/
abbrev Staging := Exec State Halt

/-- The loop of `State.__init__`. -/
def initialCharacters :
    List NameAst → (String → Option Character) → Except PyExc (String → Option Character)
  | [], characters => .ok characters
  | persona :: personae, characters =>
      let name := normalizeName persona
      if (characters name).isSome then
        .error (shakespeareRuntimeError (name ++ " already initialized"))
      else
        initialCharacters personae (Function.update characters name (some Character.initial))

namespace State

/-- `State.__init__`. -/
def new (personae : List NameAst) : Except PyExc State := do
  let characters ← initialCharacters personae fun _ => none
  pure ⟨false, characters, [], fun _ => none⟩

/-- `_update_opposites`. -/
def updateOpposites (s : State) : State :=
  match s.charactersOnStage with
  | [first, second] =>
      { s with
        charactersOpposite := Function.update
          (Function.update s.charactersOpposite first (some second)) second (some first) }
  | _ => { s with charactersOpposite := fun _ => none }

def notInitialized (name : String) : PyExc :=
  shakespeareRuntimeError (name ++ " was not initialized!")

def notOnStage (name : String) : PyExc := shakespeareRuntimeError (name ++ " is not on stage!")

def characterOpposite (s : State) (name : String) : Except PyExc String :=
  match s.charactersOpposite name with
  | some opposite => .ok opposite
  | none =>
      if name ∉ s.charactersOnStage then .error (notOnStage name)
      else if 2 < s.charactersOnStage.length then
        .error (shakespeareRuntimeError "Ambiguous second-person pronoun")
      else .error (shakespeareRuntimeError (name ++ " is talking to nobody!"))

def characterByName (s : State) (name : String) : Except PyExc Character :=
  match s.characters name with
  | some c => .ok c
  | none => .error (notInitialized name)

def assertCharacterOnStage (s : State) (name : String) : Except PyExc Unit :=
  if name ∉ s.charactersOnStage then
    if (s.characters name).isNone then .error (notInitialized name)
    else .error (notOnStage name)
  else .ok ()

def assertCharacterOffStage (s : State) (name : String) : Except PyExc Unit :=
  if name ∈ s.charactersOnStage then
    .error (shakespeareRuntimeError (name ++ " is already on stage!"))
  else if (s.characters name).isNone then .error (notInitialized name)
  else .ok ()

/-- `_enter_character`. -/
def enterCharacter (name : String) : Staging Unit := do
  let s ← Exec.get
  match s.characters name with
  | none => Exec.fail (.raised (keyError name))
  | some _ => do
      Exec.update fun s =>
        { s with charactersOnStage :=
            if name ∈ s.charactersOnStage then s.charactersOnStage
            else s.charactersOnStage ++ [name] }
      Exec.update updateOpposites

/-- `_exit_character`. -/
def leaveCharacter (name : String) : Staging Unit := do
  let s ← Exec.get
  match s.characters name with
  | none => Exec.fail (.raised (keyError name))
  | some _ =>
      if name ∈ s.charactersOnStage then do
        Exec.update fun s => { s with charactersOnStage := s.charactersOnStage.erase name }
        Exec.update updateOpposites
      else Exec.fail (.raised (keyError name))

/-- One of the two assertions, on the current state. -/
def check (assertion : State → String → Except PyExc Unit) (name : String) : Staging Unit := do
  let s ← Exec.get
  ofExcept (assertion s name)

def enterCharacters (characters : List String) : Staging Unit := do
  Exec.each (check assertCharacterOffStage) characters
  Exec.each enterCharacter characters

def exeuntCharacters (characters : List String) : Staging Unit := do
  Exec.each (check assertCharacterOnStage) characters
  Exec.each leaveCharacter characters

def exeuntAll : Staging Unit := do
  let s ← Exec.get
  Exec.each leaveCharacter s.charactersOnStage

def exitCharacter (name : String) : Staging Unit := do
  check assertCharacterOnStage name
  leaveCharacter name

/-- `state.character_by_name(name)`, replaced by its image under `f`. -/
def changeCharacter (name : String) (f : Character → Except PyExc Character) : Staging Unit := do
  let s ← Exec.get
  let c ← ofExcept (s.characterByName name)
  let c ← ofExcept (f c)
  Exec.update fun s => { s with characters := Function.update s.characters name (some c) }

/-- `state.global_boolean = result`. -/
def setGlobalBoolean (result : Bool) : Staging Unit :=
  Exec.update fun s => { s with globalBoolean := result }

section Queries

variable {s : State} {name : String}

theorem assertCharacterOnStage_ok (h : name ∈ s.charactersOnStage) :
    s.assertCharacterOnStage name = .ok () := by
  simp [assertCharacterOnStage, h]

theorem assertCharacterOnStage_error (h : name ∉ s.charactersOnStage) :
    ∃ e, s.assertCharacterOnStage name = .error e := by
  rw [assertCharacterOnStage, if_pos h]
  split
  · exact ⟨_, rfl⟩
  · exact ⟨_, rfl⟩

theorem characterByName_ok {c : Character} (h : s.characters name = some c) :
    s.characterByName name = .ok c := by
  simp [characterByName, h]

theorem characterByName_error (h : s.characters name = none) :
    s.characterByName name = .error (notInitialized name) := by
  simp [characterByName, h]

end Queries

/-! ### Opposites -/

/-- Of two on stage, the other one. -/
def partner (s : State) (name : String) : Option String :=
  match s.charactersOnStage with
  | [first, second] =>
      if name = second then some first else if name = first then some second else none
  | _ => none

theorem partner_eq_some_iff {s : State} {name other : String} :
    s.partner name = some other ↔
      s.charactersOnStage = [name, other] ∨ s.charactersOnStage = [other, name] := by
  rw [partner]
  constructor
  · intro h
    split at h
    next first second hstage =>
      split_ifs at h with hsecond hfirst
      · exact .inr (by rw [hstage, hsecond, Option.some.inj h])
      · exact .inl (by rw [hstage, hfirst, Option.some.inj h])
    next => cases h
  · rintro (hstage | hstage)
    · rw [hstage]
      by_cases hsame : name = other <;> simp [hsame]
    · simp [hstage]

/-- The dictionary of opposites agrees with the stage, where nobody is twice and only
initialized characters are. -/
structure Coherent (s : State) : Prop where
  opposite : ∀ name, s.charactersOpposite name = s.partner name
  nodup : s.charactersOnStage.Nodup
  initialized : ∀ name ∈ s.charactersOnStage, (s.characters name).isSome

/-- Where fewer or more than two were on stage before, the update starts from an
empty dictionary; where it were these two, it writes the same entries again. -/
theorem updateOpposites_opposite {s : State}
    (h : ∀ first second, s.charactersOnStage = [first, second] →
      ∀ name, s.charactersOpposite name = none ∨ s.charactersOpposite name = s.partner name)
    (name : String) : s.updateOpposites.charactersOpposite name = s.partner name := by
  unfold updateOpposites partner
  split
  next first second hstage =>
    have hname := h first second hstage name
    simp only [partner, hstage] at hname
    simp only [Function.update_apply]
    split_ifs with h₁ h₂
    · rfl
    · rfl
    · simpa [h₁, h₂] using hname
  next => rfl

theorem updateOpposites_characters (s : State) : s.updateOpposites.characters = s.characters := by
  unfold updateOpposites
  split <;> rfl

theorem updateOpposites_onStage (s : State) :
    s.updateOpposites.charactersOnStage = s.charactersOnStage := by
  unfold updateOpposites
  split <;> rfl

theorem updateOpposites_coherent {s : State}
    (h : ∀ first second, s.charactersOnStage = [first, second] →
      ∀ name, s.charactersOpposite name = none ∨ s.charactersOpposite name = s.partner name)
    (hnodup : s.charactersOnStage.Nodup)
    (hinit : ∀ name ∈ s.charactersOnStage, (s.characters name).isSome) :
    s.updateOpposites.Coherent := by
  refine ⟨?_, ?_, ?_⟩
  · intro name
    rw [updateOpposites_opposite h, partner, partner, updateOpposites_onStage]
  · rwa [updateOpposites_onStage]
  · rwa [updateOpposites_onStage, updateOpposites_characters]

/-- Nobody is their own opposite. -/
theorem Coherent.ne_of_partner {s : State} (h : s.Coherent) {name other : String}
    (hpartner : s.partner name = some other) : name ≠ other := by
  rintro rfl
  have hnodup := h.nodup
  rcases partner_eq_some_iff.mp hpartner with hstage | hstage <;> simp [hstage] at hnodup

/-- A stage that is not of two has no opposites. -/
theorem Coherent.opposite_eq_none {s : State} (h : s.Coherent)
    (hlen : s.charactersOnStage.length ≠ 2) (name : String) :
    s.charactersOpposite name = none := by
  rw [h.opposite, partner]
  split
  next hstage => simp [hstage] at hlen
  next => rfl

theorem Coherent.characterOpposite_ok {s : State} (h : s.Coherent) {name opposite : String}
    (hpartner : s.partner name = some opposite) : s.characterOpposite name = .ok opposite := by
  simp [characterOpposite, h.opposite, hpartner]

theorem Coherent.characterOpposite_error {s : State} (h : s.Coherent) {name : String}
    (hpartner : s.partner name = none) : ∃ e, s.characterOpposite name = .error e := by
  rw [characterOpposite, h.opposite, hpartner]
  dsimp only
  split_ifs <;> exact ⟨_, rfl⟩

theorem Coherent.characterOpposite_eq_ok_iff {s : State} (h : s.Coherent) {name opposite : String} :
    s.characterOpposite name = .ok opposite ↔ s.partner name = some opposite := by
  refine ⟨?_, h.characterOpposite_ok⟩
  intro hopposite
  cases hpartner : s.partner name with
  | none =>
      obtain ⟨e, he⟩ := h.characterOpposite_error hpartner
      rw [he] at hopposite
      cases hopposite
  | some other =>
      rw [h.characterOpposite_ok hpartner] at hopposite
      rw [Except.ok.inj hopposite]

theorem enterCharacter_coherent (name : String) :
    Exec.Maintains Coherent (fun _ => True) (enterCharacter name) := by
  intro s hs
  refine ⟨?_, fun _ _ => trivial⟩
  cases hc : s.characters name with
  | none =>
      rw [enterCharacter, Exec.run_bind_ok (Exec.run_get s), hc]
      exact hs
  | some c =>
      rw [enterCharacter, Exec.run_bind_ok (Exec.run_get s), hc,
        Exec.run_bind_ok (Exec.run_update _ s), Exec.run_update]
      refine updateOpposites_coherent (fun first second hstage n => ?_) ?_ (fun n hn => ?_)
      · by_cases hmem : name ∈ s.charactersOnStage
        · simp only [hmem, if_true, partner] at hstage ⊢
          exact .inr (hs.opposite n)
        · simp only [hmem, if_false] at hstage
          have hlen := congrArg List.length hstage
          simp only [List.length_append, List.length_cons, List.length_nil] at hlen
          exact .inl (hs.opposite_eq_none (by omega) n)
      · by_cases hmem : name ∈ s.charactersOnStage
        · simpa only [hmem, if_true] using hs.nodup
        · simp only [hmem, if_false]
          exact List.nodup_append.mpr ⟨hs.nodup, by simp, fun n hn m hm heq => by
            obtain rfl := List.mem_singleton.mp hm
            exact hmem (heq ▸ hn)⟩
      · by_cases hmem : name ∈ s.charactersOnStage
        · simp only [hmem, if_true] at hn
          exact hs.initialized n hn
        · simp only [hmem, if_false, List.mem_append, List.mem_singleton] at hn
          rcases hn with hn | rfl
          · exact hs.initialized n hn
          · simp [hc]

theorem leaveCharacter_coherent (name : String) :
    Exec.Maintains Coherent (fun _ => True) (leaveCharacter name) := by
  intro s hs
  refine ⟨?_, fun _ _ => trivial⟩
  cases hc : s.characters name with
  | none =>
      rw [leaveCharacter, Exec.run_bind_ok (Exec.run_get s), hc]
      exact hs
  | some c =>
      rw [leaveCharacter, Exec.run_bind_ok (Exec.run_get s), hc]
      by_cases hmem : name ∈ s.charactersOnStage
      · simp only [hmem, if_true]
        rw [Exec.run_bind_ok (Exec.run_update _ s), Exec.run_update]
        refine updateOpposites_coherent (fun first second hstage n => .inl ?_)
          (hs.nodup.erase name) (fun n hn => ?_)
        · have hlen := congrArg List.length hstage
          simp only [List.length_erase_of_mem hmem, List.length_cons, List.length_nil] at hlen
          exact hs.opposite_eq_none (by omega) n
        · exact hs.initialized n (List.mem_of_mem_erase hn)
      · simp only [hmem, if_false]
        exact hs

theorem check_coherent (assertion : State → String → Except PyExc Unit) (name : String) :
    Exec.Maintains Coherent (fun _ => True) (check assertion name) :=
  Exec.Maintains.get.bind fun s => maintains_ofExcept (assertion s name)

theorem enterCharacters_coherent (characters : List String) :
    Exec.Maintains Coherent (fun _ => True) (enterCharacters characters) :=
  (Exec.Maintains.each (check_coherent assertCharacterOffStage) characters).bind fun _ =>
    Exec.Maintains.each enterCharacter_coherent characters

theorem exeuntCharacters_coherent (characters : List String) :
    Exec.Maintains Coherent (fun _ => True) (exeuntCharacters characters) :=
  (Exec.Maintains.each (check_coherent assertCharacterOnStage) characters).bind fun _ =>
    Exec.Maintains.each leaveCharacter_coherent characters

theorem exeuntAll_coherent : Exec.Maintains Coherent (fun _ => True) exeuntAll :=
  Exec.Maintains.get.bind fun s =>
    Exec.Maintains.each leaveCharacter_coherent s.charactersOnStage

theorem exitCharacter_coherent (name : String) :
    Exec.Maintains Coherent (fun _ => True) (exitCharacter name) :=
  (check_coherent assertCharacterOnStage name).bind fun _ => leaveCharacter_coherent name

theorem changeCharacter_coherent (name : String) (f : Character → Except PyExc Character) :
    Exec.Maintains Coherent (fun _ => True) (changeCharacter name f) := by
  refine Exec.Maintains.get.bind fun s => (maintains_ofExcept _).bind fun c =>
    (maintains_ofExcept _).bind fun c' => Exec.Maintains.update fun s' hs' => ?_
  refine ⟨hs'.opposite, hs'.nodup, ?_⟩
  intro n hn
  simp only [Function.update_apply]
  split_ifs
  · rfl
  · exact hs'.initialized n hn

theorem setGlobalBoolean_coherent (result : Bool) :
    Exec.Maintains Coherent (fun _ => True) (setGlobalBoolean result) :=
  Exec.Maintains.update fun _ hs => ⟨hs.opposite, hs.nodup, hs.initialized⟩

/-- A new state has an empty stage. -/
theorem new_coherent {personae : List NameAst} {s : State} (h : new personae = .ok s) :
    s.Coherent ∧ s.charactersOnStage = [] := by
  unfold new at h
  cases hc : initialCharacters personae fun _ => none with
  | error e => simp [hc, bind, Except.bind] at h
  | ok characters =>
      simp only [hc, bind, Except.bind, pure, Except.pure, Except.ok.injEq] at h
      subst h
      exact ⟨⟨fun _ => rfl, List.nodup_nil, by simp⟩, rfl⟩

end State

end XeusPywrap
