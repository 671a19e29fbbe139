import XeusPywrap.Basic.Data
import XeusPywrap.Common.Simulation

/-!
# XeusPywrap.Basic.DataStream

The values for `READ` are one stream (`items`): those of all `DATA` lines in the order of
their numbers, which `RESTORE` goes back in. What the line number in `BASICData` and the
unread values in the parser come to is a place in this stream (`Ahead`), so that every
statement does the same on either (`read_stream`).
-/

namespace XeusPywrap.Basic

/-! ### The stream -/

/-- What the stream has for a `READ` in a line: a value, or an error. -/
abbrev Item (V : Type) := LineRef → Except PyExc V

section Stream

variable {V W : Type} (P : Values V W) (u : Unicode) (eval : List Char → Except PyExc V)

/-- The values of a `DATA` line. A line that has none, or that cannot be read, is passed
over with one error. -/
def lineItems (tokens : List Token) : List (Item V) :=
  match dataValues P u eval 1 tokens.tail with
  | .ok [] => [fun line => .error (outOfData line)]
  | .ok values => values.map fun v _ => .ok v
  | .error e => [fun line => .error (withinRead line e)]

def items (lines : List Line) : List (Item V) := lines.flatMap fun l => lineItems P u eval l.2

/-- Read from the stream. -/
def takeItem (line : LineRef) : Exec (List (Item V)) PyExc V := do
  let stream ← Exec.get
  match stream with
  | [] => Exec.fail (outOfData line)
  | item :: stream => do
      Exec.update fun _ => stream
      lift (item line)

/-- Go back in the stream: to its beginning, or to the beginning of a line. -/
def rewind (lines : List Line) (target : Target) : Exec (List (Item V)) PyExc Unit :=
  match target with
  | .unprintable | .printed none _ => Exec.fail (noDataAt target)
  | .printed (some number) _ =>
      if number = 0 then Exec.update fun _ => items P u eval lines
      else if number ∈ lines.map Prod.fst then
        Exec.update fun _ => items P u eval (lines.dropWhile fun l => l.1 ≠ number)
      else Exec.fail (noDataAt target)

/-! ### What is ahead of a reader -/

/-- The number `BASICData` keeps when these lines have been read. -/
def lastRead (before : List Line) : Int := (before.getLast?.map Prod.fst).getD 0

/-- The stream ahead of the reader: what is left of the line it is in, and the lines
behind it. -/
structure AheadFrom (d : BasicData) (r : Reader V) (stream : List (Item V))
    (before after : List Line) : Prop where
  entries : d.datastmts.entries = before ++ after
  data : r.data = { d with nextData := lastRead before }
  stream : stream = r.dataValues.map (fun v _ => .ok v) ++ items P u eval after

def Ahead (d : BasicData) (r : Reader V) (stream : List (Item V)) : Prop :=
  ∃ before after, AheadFrom P u eval d r stream before after

variable {P u eval} {d : BasicData} {before after : List Line}

theorem lastRead_append (before : List Line) (l : Line) : lastRead (before ++ [l]) = l.1 := by
  simp [lastRead]

theorem lastRead_eq_zero_iff (hzero : 0 ∉ before.map Prod.fst) :
    lastRead before = 0 ↔ before = [] := by
  cases before using List.reverseRecOn with
  | nil => simp [lastRead]
  | append_singleton before l =>
      rw [lastRead_append]
      simp only [List.append_eq_nil_iff, List.cons_ne_self, and_false, iff_false]
      intro hl
      exact hzero (by simp [hl])

theorem keys_eq {l : Line} (h : d.datastmts.entries = before ++ l :: after) :
    d.datastmts.keys = before.map Prod.fst ++ l.1 :: after.map Prod.fst := by
  rw [OrderedDict.keys, h, List.map_append, List.map_cons]

theorem notMem_before {l : Line} (h : d.datastmts.entries = before ++ l :: after) :
    l.1 ∉ before.map Prod.fst := by
  have hnodup := d.datastmts.nodup_keys
  rw [keys_eq h, List.nodup_append] at hnodup
  exact fun hmem => hnodup.2.2 _ hmem _ List.mem_cons_self rfl

/-- The number of a line is found at its place. -/
theorem idxOf_keys {l : Line} (h : d.datastmts.entries = before ++ l :: after) :
    d.datastmts.keys.idxOf l.1 = before.length := by
  rw [keys_eq h, List.idxOf_append, if_neg (notMem_before h), List.idxOf_cons_self,
    List.length_map, Nat.zero_add]

/-- The line that is read next is the first one of those behind. -/
theorem following_eq (hzero : 0 ∉ d.datastmts.keys) (h : d.datastmts.entries = before ++ after)
    (line : LineRef) :
    BasicData.following { d with nextData := lastRead before } line =
      (after.head?.map Prod.fst).elim (.error (noData line)) .ok := by
  have hkeys : d.datastmts.keys = before.map Prod.fst ++ after.map Prod.fst := by
    rw [OrderedDict.keys, h, List.map_append]
  have hbefore : 0 ∉ before.map Prod.fst := fun hmem =>
    hzero (hkeys ▸ List.mem_append_left _ hmem)
  cases before using List.reverseRecOn with
  | nil =>
      rw [BasicData.following, if_pos ((lastRead_eq_zero_iff hbefore).mpr rfl)]
      cases after <;> simp [hkeys]
  | append_singleton before l =>
      have hne : l.1 ≠ 0 := fun hl => hbefore (by simp [hl])
      have hmem : l.1 ∈ d.datastmts.keys := by simp [hkeys]
      have hnil : d.datastmts.keys ≠ [] := List.ne_nil_of_mem hmem
      have hsplit : d.datastmts.entries = before ++ l :: after := by simpa using h
      simp only [BasicData.following, lastRead_append, if_neg hnil, if_neg hne, if_pos hmem,
        idxOf_keys hsplit]
      have hnext : d.datastmts.keys[before.length + 1]? = after.head?.map Prod.fst := by
        rw [hkeys, List.getElem?_append_right (by simp)]
        simp [List.head?_eq_getElem?]
      rw [hnext]

theorem withinRead_noData (line : LineRef) : withinRead line (noData line) = outOfData line := by
  have hinfix : noDataStatements.toList <:+: (noData line).str.toList := by
    refine ⟨[], (" to READ in line " ++ line.str).toList, ?_⟩
    simp [noData, runtimeError, String.toList_append]
  rw [withinRead, if_pos ⟨rfl, hinfix⟩]

/-! ### Steps -/

/-- A value read, with the stream still ahead of the reader. -/
abbrev StepsAlike {α : Type} (P : Values V W) (u : Unicode) (eval : List Char → Except PyExc V)
    (d : BasicData) : Except PyExc α × Reader V → Except PyExc α × List (Item V) → Prop :=
  Exec.Alike (fun a a' r stream => a = a' ∧ Ahead P u eval d r stream) fun _ _ => True

section ReadData

variable (P u eval) (line : LineRef)

/-- The next line, read at a place between lines. -/
theorem readData_eq (hzero : 0 ∉ d.datastmts.keys) {l : Line}
    (h : d.datastmts.entries = before ++ l :: after) :
    (BasicData.readData P u eval line).run { d with nextData := lastRead before } =
      (dataValues P u eval 1 l.2.tail, { d with nextData := l.1 }) := by
  have hlookup : d.datastmts.lookup l.1 = some l.2 :=
    OrderedDict.lookup_eq_some_iff.mpr (by rw [h]; simp)
  have hlift : (lift (dataValues P u eval 1 l.2.tail) : Exec BasicData PyExc (List V)).run
      { d with nextData := l.1 } =
        (dataValues P u eval 1 l.2.tail, { d with nextData := l.1 }) := by
    cases dataValues P u eval 1 l.2.tail <;> rfl
  have hlift' : (lift (Except.ok l.1) : Exec BasicData PyExc Int) = pure l.1 := rfl
  rw [BasicData.readData, Exec.run_get_bind, following_eq hzero h line, ← hlift]
  show (lift (Except.ok l.1) >>= _ : Exec BasicData PyExc (List V)).run _ = _
  rw [hlift', pure_bind, Exec.run_update_bind]
  dsimp only
  rw [hlookup]

theorem readData_end (hzero : 0 ∉ d.datastmts.keys) (h : d.datastmts.entries = before) :
    (BasicData.readData P u eval line).run { d with nextData := lastRead before } =
      (.error (noData line), { d with nextData := lastRead before }) := by
  rw [BasicData.readData, Exec.run_get_bind,
    following_eq hzero (h.trans (List.append_nil before).symm) line]
  rfl

variable {P u eval line} {d' : BasicData}

theorem fetch_of_error {e : PyExc}
    (h : (BasicData.readData P u eval line).run d = (.error e, d')) :
    (fetch P u eval line).run ⟨[], d⟩ = (.error (withinRead line e), ⟨[], d'⟩) := by
  have hzoom : (Exec.zoom (fun s : Reader V => s.data) (fun d s => { s with data := d })
      (BasicData.readData P u eval line)).run ⟨[], d⟩ = (.error e, ⟨[], d'⟩) := by
    rw [Exec.run_zoom, h]
  have hensure : (ensureDataValues P u eval line).run ⟨[], d⟩ =
      (.error (withinRead line e), ⟨[], d'⟩) := by
    rw [ensureDataValues, Exec.run_get_bind, if_pos List.isEmpty_nil]
    exact Exec.run_bind_error (Exec.run_handle_error hzoom)
  exact Exec.run_bind_error hensure

theorem fetch_of_ok {values : List V}
    (h : (BasicData.readData P u eval line).run d = (.ok values, d')) :
    (fetch P u eval line).run ⟨[], d⟩ = (popDataValue line).run ⟨values, d'⟩ := by
  have hzoom : (Exec.zoom (fun s : Reader V => s.data) (fun d s => { s with data := d })
      (BasicData.readData P u eval line)).run ⟨[], d⟩ = (.ok values, ⟨[], d'⟩) := by
    rw [Exec.run_zoom, h]
  have hensure : (ensureDataValues P u eval line).run ⟨[], d⟩ = (.ok (), ⟨values, d'⟩) := by
    rw [ensureDataValues, Exec.run_get_bind, if_pos List.isEmpty_nil,
      Exec.run_bind_ok (Exec.run_handle_ok hzoom)]
    rfl
  exact Exec.run_bind_ok hensure

end ReadData

/-- A `READ` gets what is next in the stream. -/
theorem fetch_alike (hzero : 0 ∉ d.datastmts.keys) {r : Reader V} {stream : List (Item V)}
    (h : Ahead P u eval d r stream) (line : LineRef) :
    StepsAlike P u eval d ((fetch P u eval line).run r) ((takeItem line).run stream) := by
  obtain ⟨before, after, hentries, hdata, rfl⟩ := h
  obtain ⟨values, data⟩ := r
  obtain rfl : data = { d with nextData := lastRead before } := hdata
  cases values with
  | cons v values => exact .ok ⟨rfl, before, after, hentries, rfl, rfl⟩
  | nil =>
      cases after with
      | nil =>
          have hread := readData_end P u eval line hzero
            (hentries.trans (List.append_nil before))
          rw [fetch_of_error hread, withinRead_noData]
          exact Exec.Alike.error trivial
      | cons l after =>
          have hread := readData_eq P u eval line hzero hentries
          rw [List.map_nil, List.nil_append, items, List.flatMap_cons, lineItems]
          cases hvalues : dataValues P u eval 1 l.2.tail with
          | error e =>
              rw [hvalues] at hread
              rw [fetch_of_error hread]
              exact Exec.Alike.error trivial
          | ok values =>
              rw [hvalues] at hread
              rw [fetch_of_ok hread]
              cases values with
              | nil => exact Exec.Alike.error trivial
              | cons v values =>
                  refine .ok ⟨rfl, before ++ [l], after, ?_, ?_, rfl⟩
                  · rw [hentries, List.append_assoc, List.singleton_append]
                  · rw [lastRead_append]

/-- The lines from the one with this number on. -/
theorem dropWhile_eq {l : Line} (hnotMem : l.1 ∉ before.map Prod.fst) :
    (before ++ l :: after).dropWhile (fun l' => l'.1 ≠ l.1) = l :: after := by
  rw [List.dropWhile_append_of_pos fun l' hl' => ?_]
  · simp
  · simpa using fun heq => hnotMem (List.mem_map.mpr ⟨l', hl', heq⟩)

/-- The line in front of the one with this number becomes the last one read. -/
theorem restore_eq (hzero : 0 ∉ d.datastmts.keys) {l : Line}
    (h : d.datastmts.entries = before ++ l :: after) (str : String) (n : Int) :
    (BasicData.restore (.printed (some l.1) str)).run { d with nextData := n } =
      (.ok (), { d with nextData := lastRead before }) := by
  have hmem : l.1 ∈ d.datastmts.keys := by simp [OrderedDict.keys, h]
  have hne : l.1 ≠ 0 := fun hl => hzero (hl ▸ hmem)
  rw [BasicData.restore, Exec.run_get_bind]
  simp only [if_neg hne, if_pos hmem, idxOf_keys h]
  cases before using List.reverseRecOn with
  | nil => rfl
  | append_singleton before l' =>
      have hprevious : d.datastmts.keys[before.length]? = some l'.1 := by
        simp [OrderedDict.keys, h]
      rw [List.length_append, List.length_singleton, lastRead_append]
      dsimp only
      rw [Exec.run_update]
      dsimp only
      rw [hprevious, Option.getD_some]

theorem run_restorestmt {target : Target} {values : List V} {r : Except PyExc Unit}
    {data data' : BasicData} (h : (BasicData.restore target).run data = (r, data')) :
    (restorestmt target).run ⟨values, data⟩ = (r, ⟨[], data'⟩) := by
  rw [restorestmt, Exec.run_update_bind, Exec.run_zoom]
  dsimp only
  rw [h]

/-- A `RESTORE` goes back in the stream. -/
theorem restorestmt_alike (hzero : 0 ∉ d.datastmts.keys) {r : Reader V}
    {stream : List (Item V)} (h : Ahead P u eval d r stream) (target : Target) :
    StepsAlike P u eval d ((restorestmt target).run r)
      ((rewind P u eval d.datastmts.entries target).run stream) := by
  obtain ⟨before, after, hentries, hdata, rfl⟩ := h
  obtain ⟨values, data⟩ := r
  obtain rfl : data = { d with nextData := lastRead before } := hdata
  match target with
  | .unprintable | .printed none _ => exact .error trivial
  | .printed (some number) str =>
      by_cases hfirst : number = 0
      · subst hfirst
        exact .ok ⟨rfl, [], d.datastmts.entries, rfl, rfl, rfl⟩
      simp only [rewind, if_neg hfirst]
      by_cases hmem : number ∈ d.datastmts.entries.map Prod.fst
      · obtain ⟨l, hl, rfl⟩ := List.mem_map.mp hmem
        obtain ⟨before', after', hsplit⟩ := List.append_of_mem hl
        rw [if_pos hmem, run_restorestmt (restore_eq hzero hsplit str _)]
        refine .ok ⟨rfl, before', l :: after', hsplit, rfl, ?_⟩
        rw [hsplit, dropWhile_eq (notMem_before hsplit)]
        rfl
      · have hfail : (BasicData.restore (.printed (some number) str)).run
            { d with nextData := lastRead before } =
              (.error (noDataAt (.printed (some number) str)),
                { d with nextData := lastRead before }) := by
          have hkeys : number ∉ d.datastmts.keys := hmem
          rw [BasicData.restore, Exec.run_get_bind]
          simp only [if_neg hfirst, if_neg hkeys]
          rfl
        rw [if_neg hmem, run_restorestmt hfail]
        exact .error trivial

end Stream

/-! ### Statements -/

section Statements

variable {V W S S' : Type} (P : Conversions V W) {R : S → S' → Prop}

/-- The variables are the same, and so is what is ahead; after a failure only the
variables are. -/
abbrev ReadsAlike {α : Type} (R : S → S' → Prop) :
    Except PyExc α × Reading V S → Except PyExc α × Reading V S' → Prop :=
  Exec.Alike (fun a a' s s' => a = a' ∧ s.table = s'.table ∧ R s.source s'.source)
    fun s s' => s.table = s'.table

variable {s : Reading V S} {s' : Reading V S'}

theorem onVariables_alike (htable : s.table = s'.table) (hsource : R s.source s'.source)
    {α : Type} (m : Exec (Variables V) PyExc α) :
    ReadsAlike R ((onVariables m).run s) ((onVariables m).run s') :=
  Exec.Alike.zoom htable (fun _ _ => ⟨rfl, rfl, hsource⟩) fun _ => rfl

theorem onSource_alike (htable : s.table = s'.table) {α : Type} {m : Exec S PyExc α}
    {m' : Exec S' PyExc α}
    (h : Exec.Alike (fun a a' t t' => a = a' ∧ R t t') (fun _ _ => True)
      (m.run s.source) (m'.run s'.source)) :
    ReadsAlike R ((onSource m).run s) ((onSource m').run s') := by
  rw [onSource, onSource, Exec.run_zoom, Exec.run_zoom]
  generalize m.run s.source = r at h
  generalize m'.run s'.source = r' at h
  cases h with
  | ok h => exact .ok ⟨h.1, htable, h.2⟩
  | error _ => exact .error htable

theorem lift_alike (htable : s.table = s'.table) (hsource : R s.source s'.source) {α : Type}
    (x : Except PyExc α) : ReadsAlike R ((lift x).run s) ((lift x).run s') := by
  cases x with
  | ok a => exact .ok ⟨rfl, htable, hsource⟩
  | error e => exact .error htable

section Sources

variable {next : LineRef → Exec S PyExc V} {next' : LineRef → Exec S' PyExc V}
  {restore : Target → Exec S PyExc Unit} {restore' : Target → Exec S' PyExc Unit}
  (hnext : ∀ line t t', R t t' → Exec.Alike (fun a a' t t' => a = a' ∧ R t t')
  (fun _ _ => True) ((next line).run t) ((next' line).run t'))

include hnext

theorem readTarget_alike (htable : s.table = s'.table) (hsource : R s.source s'.source)
    (line : LineRef) (target : VariableTarget V) :
    ReadsAlike R ((readTarget P line next target).run s)
      ((readTarget P line next' target).run s') := by
  refine (onVariables_alike htable hsource _).bind ?_
  rintro _ _ t t' ⟨-, htable, hsource⟩
  refine (onSource_alike htable (hnext line _ _ hsource)).bind ?_
  rintro right _ t t' ⟨rfl, htable, hsource⟩
  refine (lift_alike htable hsource _).bind ?_
  rintro value _ t t' ⟨rfl, htable, hsource⟩
  exact onVariables_alike htable hsource _

theorem readstmt_alike (line : LineRef) (targets : List (VariableTarget V))
    (htable : s.table = s'.table) (hsource : R s.source s'.source) :
    ReadsAlike R ((readstmt P line next targets).run s)
      ((readstmt P line next' targets).run s') := by
  induction targets generalizing s s' with
  | nil => exact .ok ⟨rfl, htable, hsource⟩
  | cons target targets ih =>
      exact (readTarget_alike P hnext htable hsource line target).bind fun _ _ t t' h =>
        ih h.2.1 h.2.2

/-- Sources of values that cannot be told apart by reading and restoring serve all
statements of a run alike. -/
theorem perform_alike
    (hrestore : ∀ target t t', R t t' → Exec.Alike (fun a a' t t' => a = a' ∧ R t t')
      (fun _ _ => True) ((restore target).run t) ((restore' target).run t'))
    (steps : List (DataStep V)) (htable : s.table = s'.table) (hsource : R s.source s'.source) :
    ReadsAlike R ((perform P next restore steps).run s)
      ((perform P next' restore' steps).run s') := by
  induction steps generalizing s s' with
  | nil => exact .ok ⟨rfl, htable, hsource⟩
  | cons step steps ih =>
      have hstep : ReadsAlike R ((performStep P next restore step).run s)
          ((performStep P next' restore' step).run s') := by
        cases step with
        | read line targets => exact readstmt_alike P hnext line targets htable hsource
        | restore target => exact onSource_alike htable (hrestore target _ _ hsource)
        | other f => exact onVariables_alike htable hsource _
      exact hstep.bind fun _ _ t t' h => ih h.2.1 h.2.2

end Sources

variable (u : Unicode) (eval : List Char → Except PyExc V) (p : Program)

/-- The statements of a run, with the parser and the `BASICData` it starts with. -/
def runStatements (steps : List (DataStep V)) (table : Variables V) :
    Except PyExc Unit × Reading V (Reader V) :=
  (perform P (fetch P.toValues u eval) restorestmt steps).run ⟨table, ⟨[], p.data.restoreStart⟩⟩

/-- The same statements, with the stream. -/
def runOnStream (steps : List (DataStep V)) (table : Variables V) :
    Except PyExc Unit × Reading V (List (Item V)) :=
  (perform P takeItem (rewind P.toValues u eval p.data.datastmts.entries) steps).run
    ⟨table, items P.toValues u eval p.data.datastmts.entries⟩

/-- **`READ` reads the `DATA` lines in order**, from the start of a program on: whatever
statements it runs, they leave the variables they leave with the stream, and fail as they
fail with it. A `DATA` line with the number 0 would be read over and over, since 0 stands
for the beginning. -/
theorem read_stream (hzero : 0 ∉ p.data.datastmts.keys) (steps : List (DataStep V))
    (table : Variables V) :
    (runStatements P u eval p steps table).1 = (runOnStream P u eval p steps table).1 ∧
      (runStatements P u eval p steps table).2.table =
        (runOnStream P u eval p steps table).2.table := by
  have hstart : Ahead P.toValues u eval p.data ⟨[], p.data.restoreStart⟩
      (items P.toValues u eval p.data.datastmts.entries) :=
    ⟨[], p.data.datastmts.entries, rfl, rfl, rfl⟩
  have halike : ReadsAlike (Ahead P.toValues u eval p.data)
      (runStatements P u eval p steps table) (runOnStream P u eval p steps table) :=
    perform_alike P (fun line _ _ h => fetch_alike hzero h line)
      (fun target _ _ h => restorestmt_alike hzero h target) steps rfl hstart
  generalize runStatements P u eval p steps table = r at halike ⊢
  generalize runOnStream P u eval p steps table = r' at halike ⊢
  cases halike with
  | ok h => exact ⟨congrArg _ h.1, h.2.1⟩
  | error h => exact ⟨rfl, h⟩

/-- `10 DATA 1, -2` and `20 DATA 3`. -/
def threeValues : Program where
  program := .empty
  data := {
    datastmts := {
      entries :=
        [(10, [⟨some .data, "DATA".toList⟩, ⟨some .unsignedint, ['1']⟩, ⟨some .comma, [',']⟩,
          ⟨some .minus, ['-']⟩, ⟨some .unsignedint, ['2']⟩]),
         (20, [⟨some .data, "DATA".toList⟩, ⟨some .unsignedint, ['3']⟩])]
      sorted := by decide }
    nextData := 20 }

/-- `30 READ A, B, C`, `40 RESTORE 20` and `50 READ A`. -/
def threeReads : List (DataStep Int) :=
  [.read (lineRef 30) [.simple ['A'], .simple ['B'], .simple ['C']],
   .restore (.printed (some 20) "20"), .read (lineRef 50) [.simple ['A']]]

/-- No variable has a value. -/
def noVariables : Variables Int := ⟨fun _ => none, fun _ => none⟩

theorem read_stream_threeReads :
    (runStatements integerConversions Unicode.ascii (fun _ => .ok 0) threeValues threeReads
      noVariables).1 = .ok () ∧
    ['A', 'B', 'C'].map (fun c => (runStatements integerConversions Unicode.ascii
      (fun _ => .ok 0) threeValues threeReads noVariables).2.table.symbolTable [c]) =
        [some 3, some (-2), some 3] := by
  obtain ⟨hresult, htable⟩ := read_stream integerConversions Unicode.ascii (fun _ => .ok 0)
    threeValues (by decide) threeReads noVariables
  rw [hresult, htable]
  exact ⟨rfl, rfl⟩

end Statements

end XeusPywrap.Basic
