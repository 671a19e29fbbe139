import XeusPywrap.Basic.Listing

/-!
# XeusPywrap.Basic.RoundTrip

A program that has been read from a text can be listed, and reading the listing gives
the same statements again: `ofCode_str`.

The data is a different matter. A line with `DATA` that is overwritten by another
statement stays in `__data`, where `READ` finds it, but the listing does not show it.
What comes back is the data of the lines that still have it.
-/

namespace XeusPywrap.Basic

variable {A : Letters}

/-! ### Storing a statement -/

/-- The statements `add_stmt` stores twice. A string can be one of them. -/
def isData : List Token → Bool
  | [] => false
  | token :: _ => token.lexeme = "DATA".toList

/-- What `__program` keeps of a statement. -/
def kept (tokens : List Token) : List Token := if isData tokens then tokens.take 1 else tokens

namespace Program

/-- The program with a statement stored. -/
def store (p : Program) (lineNumber : Int) (tokens : List Token) : Program :=
  ⟨p.program.insert lineNumber (kept tokens),
    if isData tokens then p.data.addData lineNumber tokens else p.data⟩

variable {p p' : Program} {n : Int} {number : Token} {tokens : List Token}

theorem addStmt_cons (hn : A.pyInt number.lexeme = .ok n) (hne : tokens ≠ []) :
    p.addStmt A (number :: tokens) = .ok (p.store n tokens) := by
  cases tokens with
  | nil => exact absurd rfl hne
  | cons token tokens =>
      rw [addStmt, hn, store, kept]
      dsimp only
      by_cases hdata : token.lexeme = "DATA".toList
      · rw [if_pos hdata, show isData (token :: tokens) = true from decide_eq_true hdata]
        rfl
      · rw [if_neg hdata, show isData (token :: tokens) = false from decide_eq_false hdata]
        rfl

/-- A statement is stored, unless its line is empty. -/
theorem addStmt_eq_ok (h : p.addStmt A tokens = .ok p') :
    p' = p ∨ ∃ number statement n, tokens = number :: statement ∧
      A.pyInt number.lexeme = .ok n ∧ statement ≠ [] ∧ p' = p.store n statement := by
  cases tokens with
  | nil => exact .inl (Except.ok.inj h).symm
  | cons number statement =>
      cases hn : A.pyInt number.lexeme with
      | error e =>
          rw [addStmt, hn] at h
          cases h
      | ok n =>
          cases statement with
          | nil =>
              rw [addStmt, hn] at h
              cases h
          | cons token tokens =>
              have hne : token :: tokens ≠ [] := List.cons_ne_nil token tokens
              rw [addStmt_cons hn hne] at h
              exact .inr ⟨number, _, n, rfl, hn, hne, (Except.ok.inj h).symm⟩

/-! ### What reading a text maintains -/

/-- A statement that stands in the program, with the tokens its listing writes. -/
structure Stands (A : Letters) (p : Program) (n : Int) (statement tokens : List Token) : Prop where
  printable : printable n = true
  stored : p.storedStatement n statement = .ok tokens
  nonempty : tokens ≠ []
  kept : statement = kept tokens
  listable : Listable A tokens

/-- Every statement of the program can be listed. -/
def Listed (A : Letters) (p : Program) : Prop :=
  ∀ n statement, p.program.lookup n = some statement → ∃ tokens, p.Stands A n statement tokens

theorem category_of_listable {token : Token} (h : Listable A (token :: tokens))
    (hdata : token.category = some .data) : token.lexeme = "DATA".toList :=
  (h.1 fun hname => by simp [hdata] at hname).data hdata

/-- The statement that has just been stored is the one the listing writes, unless it is
data by accident: a string `"DATA"` in front of a statement hides the rest of it. -/
theorem stored_store (p : Program) (h : Listable A tokens) (hne : tokens ≠ []) :
    ∃ tokens', (p.store n tokens).storedStatement n (kept tokens) = .ok tokens' ∧
      tokens' ≠ [] ∧ kept tokens = kept tokens' ∧ Listable A tokens' := by
  cases tokens with
  | nil => exact absurd rfl hne
  | cons token tokens =>
      by_cases hlexeme : token.lexeme = "DATA".toList
      · have hdata : isData (token :: tokens) = true := decide_eq_true hlexeme
        have hkept : kept (token :: tokens) = [token] := by rw [kept, hdata]; rfl
        rw [hkept, storedStatement]
        by_cases hcategory : token.category = some .data
        · refine ⟨token :: tokens, ?_, List.cons_ne_nil _ _, hkept.symm, h⟩
          simp [hcategory, store, hdata, BasicData.addData, BasicData.getTokens]
        · refine ⟨[token], by rw [if_neg hcategory], by simp, ?_, h.1, fun _ => rfl, trivial⟩
          simp [kept]
      · have hdata : isData (token :: tokens) = false := decide_eq_false hlexeme
        have hkept : kept (token :: tokens) = token :: tokens := by rw [kept, hdata]; rfl
        have hcategory : token.category ≠ some .data :=
          fun heq => hlexeme (category_of_listable h heq)
        refine ⟨token :: tokens, ?_, List.cons_ne_nil _ _, rfl, h⟩
        rw [hkept, storedStatement, if_neg hcategory]

/-- Storing a statement leaves the others alone, data included. -/
theorem storedStatement_store_of_ne {m : Int} (hm : m ≠ n) (statement : List Token) :
    (p.store n tokens).storedStatement m statement = p.storedStatement m statement := by
  have hdata : (p.store n tokens).data.getTokens m = p.data.getTokens m := by
    unfold store
    cases isData tokens with
    | false => rfl
    | true => exact p.data.datastmts.lookup_insert_of_ne tokens hm
  cases statement with
  | nil => rfl
  | cons token tokens => simp only [storedStatement, hdata]

theorem Listed.store (h : p.Listed A) (hprint : printable n = true)
    (htokens : Listable A tokens) (hne : tokens ≠ []) : (p.store n tokens).Listed A := by
  intro m statement hlookup
  by_cases hm : m = n
  · subst hm
    obtain ⟨tokens', hstored, hne', hkept, hlistable⟩ := stored_store p htokens hne
    have hstatement : statement = Basic.kept tokens := by
      simpa [Program.store] using hlookup.symm
    exact hstatement ▸ ⟨tokens', hprint, hstored, hne', hkept, hlistable⟩
  · rw [Program.store, p.program.lookup_insert_of_ne _ hm] at hlookup
    obtain ⟨tokens', hstands⟩ := h m statement hlookup
    exact ⟨tokens', { hstands with
      stored := (storedStatement_store_of_ne hm statement).trans hstands.stored }⟩

/-- **Whatever has been read can be listed.** -/
theorem Listed.addLines {lines : List (List Char)} (h : p.Listed A)
    (hlines : ∀ line ∈ lines, ∀ c ∈ line, isLineBoundary c = false)
    (hadd : p.addLines A lines = .ok p') : p'.Listed A := by
  induction lines generalizing p with
  | nil => exact Except.ok.inj hadd ▸ h
  | cons line lines ih =>
      obtain ⟨hline, hlines⟩ := List.forall_mem_cons.mp hlines
      obtain ⟨tokens, htokenize, hadd⟩ := Except.bind_eq_ok_iff.mp hadd
      obtain ⟨q, hstmt, hadd⟩ := Except.bind_eq_ok_iff.mp hadd
      refine ih ?_ hlines hadd
      rcases addStmt_eq_ok hstmt with rfl | ⟨number, statement, n, rfl, hn, hne, rfl⟩
      · exact h
      · have hclean : Clean A (cleanLine A line) := by
          rw [cleanLine_eq_strip hline]
          exact clean_strip hline
        exact h.store (printable_of_pyInt hn) (listable_of_tokenize hclean htokenize).2.2 hne

theorem listed_of_ofCode {code : String} (h : ofCode A code = .ok p) : p.Listed A := by
  have hnew : new.Listed A := fun n statement hlookup => by
    simp [new, OrderedDict.empty, OrderedDict.lookup] at hlookup
  refine hnew.addLines (fun line hline => ?_) h
  obtain ⟨l, hl, rfl⟩ := List.mem_map.mp hline
  exact not_boundary_of_mem_splitlinesFrom (by simp) hl

/-- No line is stored without a statement. -/
theorem Listed.noBlanks (h : p.Listed A) : p.NoBlanks := by
  rintro ⟨n, statement⟩ hline
  obtain ⟨tokens, hstands⟩ := h n statement (OrderedDict.lookup_eq_some_iff.mpr hline)
  rw [hstands.kept, Basic.kept]
  cases tokens with
  | nil => exact absurd rfl hstands.nonempty
  | cons token tokens => split_ifs <;> simp

/-! ### Reading the listing -/

/-- The statements the listing writes. -/
def written (p : Program) : List (Int × List Token) :=
  p.program.entries.map fun e =>
    (e.1, match p.storedStatement e.1 e.2 with | .ok tokens => tokens | .error _ => [])

/-- A line of the listing, without its end. -/
def lineText (e : Int × List Token) : List Char := numeral e.1 ++ ' ' :: statementText none e.2

/-- The stores after a list of statements. -/
def storeAll (p : Program) : List (Int × List Token) → Program
  | [] => p
  | e :: es => (p.store e.1 e.2).storeAll es

theorem program_storeAll (p : Program) (es : List (Int × List Token)) :
    (p.storeAll es).program = p.program.insertAll (es.map fun e => (e.1, Basic.kept e.2)) := by
  induction es generalizing p with
  | nil => rfl
  | cons e es ih =>
      rw [storeAll, ih]
      rfl

theorem data_storeAll (p : Program) (es : List (Int × List Token)) :
    (p.storeAll es).data =
      { p.data with datastmts := p.data.datastmts.insertAll (es.filter fun e => isData e.2) } := by
  induction es generalizing p with
  | nil => rfl
  | cons e es ih =>
      rw [storeAll, ih, store, List.filter_cons]
      cases isData e.2 <;> rfl

/-- The line of a statement, once its tokens are known. -/
theorem strStatement_of_stands {statement : List Token} (h : p.Stands A n statement tokens) :
    p.strStatement n statement = .ok (lineText (n, tokens) ++ ['\n']) := by
  rw [strStatement, pyStr, if_pos h.printable, h.stored]
  simp [lineText, bind, Except.bind, pure, Except.pure]

/-- The statements of a program that can be listed. -/
theorem stands_of_mem_written (h : p.Listed A) {e : Int × List Token} (he : e ∈ p.written) :
    ∃ statement, p.program.lookup e.1 = some statement ∧ p.Stands A e.1 statement e.2 := by
  obtain ⟨⟨n, statement⟩, hentry, rfl⟩ := List.mem_map.mp he
  have hlookup := OrderedDict.lookup_eq_some_iff.mpr hentry
  obtain ⟨tokens, hstands⟩ := h n statement hlookup
  refine ⟨statement, hlookup, ?_⟩
  rw [hstands.stored]
  exact hstands

theorem strLines_congr {entries : List (Int × List Token)}
    (h : ∀ e ∈ entries, p.storedStatement e.1 e.2 = p'.storedStatement e.1 e.2) :
    p.strLines entries = p'.strLines entries := by
  induction entries with
  | nil => rfl
  | cons e entries ih =>
      obtain ⟨he, hentries⟩ := List.forall_mem_cons.mp h
      rw [strLines, strLines, ih hentries, strStatement, strStatement, he]

/-- **A program that has been read can be listed.** -/
theorem str_of_listed (h : p.Listed A) :
    p.str = .ok (String.ofList ((p.written.map lineText).flatMap (· ++ ['\n']))) := by
  have hlines : ∀ entries : List (Int × List Token),
      (∀ e ∈ entries, ∃ tokens, p.Stands A e.1 e.2 tokens) →
      p.strLines entries = .ok (((entries.map fun e => (e.1,
        match p.storedStatement e.1 e.2 with | .ok tokens => tokens | .error _ => [])).map
          lineText).flatMap (· ++ ['\n'])) := by
    intro entries hentries
    induction entries with
    | nil => rfl
    | cons e entries ih =>
        obtain ⟨⟨tokens, hstands⟩, hentries⟩ := List.forall_mem_cons.mp hentries
        rw [strLines, strStatement_of_stands hstands, ih hentries]
        simp only [List.map_cons, hstands.stored]
        rfl
  rw [str, hlines _ fun e he => h e.1 e.2 (OrderedDict.lookup_eq_some_iff.mpr he)]
  rfl

/-- **Reading the lines of a listing** stores their statements. -/
theorem addLines_listing {es : List (Int × List Token)}
    (h : ∀ e ∈ es, 0 ≤ e.1 ∧ printable e.1 = true ∧ Listable A e.2 ∧ e.2 ≠ [] ∧
      ∀ t ∈ e.2, StableName A t) (q : Program) :
    q.addLines A (es.map lineText) = .ok (q.storeAll es) := by
  induction es generalizing q with
  | nil => rfl
  | cons e es ih =>
      obtain ⟨⟨hn, hprint, hlistable, hne, hnames⟩, hes⟩ := List.forall_mem_cons.mp h
      have htokenize := (tokenize_line hn hlistable hnames hne).2
      rw [List.map_cons, addLines, lineText, htokenize]
      simp only [bind, Except.bind]
      rw [addStmt_cons (pyInt_numeral hn hprint) hne]
      exact ih hes _

/-! ### The stores come back -/

section Reload

variable (h : p.Listed A)

include h

/-- The statements are the ones that were there. -/
theorem program_storeAll_written : (new.storeAll p.written).program = p.program := by
  have hkept : p.written.map (fun e => (e.1, Basic.kept e.2)) = p.program.entries := by
    conv_rhs => rw [← List.map_id p.program.entries]
    rw [written, List.map_map]
    refine List.map_congr_left fun e he => ?_
    obtain ⟨tokens, hstands⟩ := h e.1 e.2 (OrderedDict.lookup_eq_some_iff.mpr he)
    simp only [Function.comp_apply, hstands.stored, ← hstands.kept, id]
  rw [program_storeAll, hkept]
  exact p.program.insertAll_entries

omit h in
/-- The data is that of the lines that are written with it. -/
theorem data_storeAll_written :
    (new.storeAll p.written).data.datastmts.entries = p.written.filter fun e => isData e.2 := by
  have hwritten : p.written.Pairwise fun e e' => e.1 < e'.1 :=
    List.pairwise_map.mpr p.program.sorted
  have hsorted : (p.written.filter fun e => isData e.2).Pairwise fun e e' => e.1 < e'.1 :=
    hwritten.filter _
  rw [data_storeAll]
  exact congrArg OrderedDict.entries (OrderedDict.insertAll_entries ⟨_, hsorted⟩)

/-- Hence the listing writes what it wrote before. -/
theorem str_storeAll_written : (new.storeAll p.written).str = p.str := by
  rw [str, str, program_storeAll_written h]
  refine congrArg _ (strLines_congr fun e he => ?_)
  obtain ⟨tokens, hstands⟩ := h e.1 e.2 (OrderedDict.lookup_eq_some_iff.mpr he)
  have hwritten : (e.1, tokens) ∈ p.written :=
    List.mem_map.mpr ⟨e, he, by rw [hstands.stored]⟩
  rw [hstands.stored]
  obtain ⟨n, statement⟩ := e
  cases statement with
  | nil => simpa [storedStatement] using hstands.stored
  | cons token rest =>
      have hstored := hstands.stored
      rw [storedStatement] at hstored ⊢
      split_ifs at hstored ⊢ with hcategory
      · obtain ⟨tail, rfl⟩ : ∃ tail, tokens = token :: tail := by
          have hkept := hstands.kept
          cases tokens with
          | nil => exact absurd rfl hstands.nonempty
          | cons token' tail =>
              refine ⟨tail, ?_⟩
              rw [Basic.kept] at hkept
              split_ifs at hkept <;> simp_all
        have hdata : isData (token :: tail) = true :=
          decide_eq_true (category_of_listable hstands.listable hcategory)
        have hlookup : (new.storeAll p.written).data.getTokens n = some (token :: tail) := by
          rw [BasicData.getTokens, OrderedDict.lookup_eq_some_iff, data_storeAll_written]
          exact List.mem_filter.mpr ⟨hwritten, hdata⟩
        rw [hlookup]
      · exact hstored

end Reload

/-- **Listing a program and reading the listing** gives the same statements, and the
listing again. Of the data, what stands on lines with `DATA` comes back. -/
theorem ofCode_str {code : String} (h : ofCode A code = .ok p)
    (hpos : ∀ n ∈ p.lineNumbers, 0 ≤ n)
    (hnames : ∀ e ∈ p.written, ∀ t ∈ e.2, StableName A t) :
    ∃ listing p', p.str = .ok listing ∧ ofCode A listing = .ok p' ∧ p'.program = p.program ∧
      p'.str = p.str ∧
      p'.data.datastmts.entries = p.written.filter (fun e => isData e.2) := by
  have hlisted := listed_of_ofCode h
  have hlines : ∀ e ∈ p.written, 0 ≤ e.1 ∧ printable e.1 = true ∧ Listable A e.2 ∧ e.2 ≠ [] ∧
      ∀ t ∈ e.2, StableName A t := fun e he => by
    obtain ⟨statement, hlookup, hstands⟩ := stands_of_mem_written hlisted he
    have hn := hpos e.1 (OrderedDict.mem_keys_iff.mpr ⟨statement, hlookup⟩)
    exact ⟨hn, hstands.printable, hstands.listable, hstands.nonempty, hnames e he⟩
  have hboundaries : ∀ line ∈ p.written.map lineText, ∀ c ∈ line, isLineBoundary c = false := by
    intro line hline
    obtain ⟨e, he, rfl⟩ := List.mem_map.mp hline
    obtain ⟨hn, -, hlistable, hne, hstable⟩ := hlines e he
    exact (tokenize_line hn hlistable hstable hne).1
  have hread : ofCode A (String.ofList ((p.written.map lineText).flatMap (· ++ ['\n']))) =
      .ok (new.storeAll p.written) := by
    rw [ofCode, splitlines_flatMap hboundaries, addLines_listing hlines]
  exact ⟨_, _, str_of_listed hlisted, hread, program_storeAll_written hlisted,
    str_storeAll_written hlisted, data_storeAll_written⟩

/-- A program whose data is overwritten. -/
def overwritten : String := "20 data 5\n10 let x = -1\n20 print x: rem y"

/-- The stores after reading it. -/
def overwrittenStores : Program where
  program :=
    ⟨[(10, [⟨some .let, "LET".toList⟩, ⟨some .name, "X".toList⟩, ⟨some .assignop, "=".toList⟩,
        ⟨some .minus, "-".toList⟩, ⟨some .unsignedint, "1".toList⟩]),
      (20, [⟨some .print, "PRINT".toList⟩, ⟨some .name, "X".toList⟩, ⟨some .colon, ":".toList⟩,
        ⟨some .rem, "REM y".toList⟩])], by decide⟩
  data := ⟨⟨[(20, [⟨some .data, "DATA".toList⟩, ⟨some .unsignedint, "5".toList⟩])], by decide⟩, 0⟩

theorem ofCode_str_overwritten :
    ofCode Letters.ascii overwritten = .ok overwrittenStores ∧
      ∃ listing p', overwrittenStores.str = .ok listing ∧
        ofCode Letters.ascii listing = .ok p' ∧ p'.program = overwrittenStores.program ∧
        p'.str = overwrittenStores.str ∧
        p'.data.datastmts.entries = overwrittenStores.written.filter (fun e => isData e.2) := by
  have hread : ofCode Letters.ascii overwritten = .ok overwrittenStores := rfl
  exact ⟨hread, ofCode_str hread (by decide) (by decide)⟩

end Program

end XeusPywrap.Basic
