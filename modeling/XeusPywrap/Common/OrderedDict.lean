import Mathlib.Data.List.Sort
import Mathlib.Order.Defs.LinearOrder

/-!
# Common.OrderedDict

Dictionaries that are only ever read in the order of their keys. The entries are kept
in that order, as a field, so that two dictionaries with the same lookups are the same
dictionary (`ext_lookup`).

* `lookup`, `insert`, `keys`, and what each does to a lookup;
* `insertAll`, the dictionary after a list of insertions: for different keys its
  lookups are the entries of the list (`lookup_insertAll_of_mem`).
-/

/-- A dictionary whose entries stand in the order of their keys. -/
structure OrderedDict (κ ν : Type) [LinearOrder κ] where
  entries : List (κ × ν)
  sorted : entries.Pairwise fun e e' => e.1 < e'.1

namespace OrderedDict

variable {κ ν : Type} [LinearOrder κ]

def empty : OrderedDict κ ν := ⟨[], List.Pairwise.nil⟩

/-- The keys, in order. -/
def keys (d : OrderedDict κ ν) : List κ := d.entries.map Prod.fst

def lookup (d : OrderedDict κ ν) (k : κ) : Option ν :=
  (d.entries.find? fun e => e.1 = k).map Prod.snd

/-- Insertion into entries; the value of a key that is there is replaced. -/
def insertEntry (k : κ) (v : ν) : List (κ × ν) → List (κ × ν)
  | [] => [(k, v)]
  | e :: es =>
      if k < e.1 then (k, v) :: e :: es
      else if k = e.1 then (k, v) :: es
      else e :: insertEntry k v es

theorem mem_insertEntry {k : κ} {v : ν} {es : List (κ × ν)} {e : κ × ν}
    (h : e ∈ insertEntry k v es) : e = (k, v) ∨ e ∈ es := by
  induction es with
  | nil => exact .inl (List.mem_singleton.mp h)
  | cons e' es ih =>
      rw [insertEntry] at h
      split_ifs at h
      · exact List.mem_cons.mp h
      · exact (List.mem_cons.mp h).imp_right (List.mem_cons_of_mem e')
      · rcases List.mem_cons.mp h with rfl | h
        · exact .inr (List.mem_cons_self ..)
        · exact (ih h).imp_right (List.mem_cons_of_mem e')

theorem sorted_insertEntry (k : κ) (v : ν) {es : List (κ × ν)}
    (h : es.Pairwise fun e e' => e.1 < e'.1) :
    (insertEntry k v es).Pairwise fun e e' => e.1 < e'.1 := by
  induction es with
  | nil => exact List.pairwise_singleton _ _
  | cons e es ih =>
      obtain ⟨hhead, htail⟩ := List.pairwise_cons.mp h
      rw [insertEntry]
      split_ifs with hlt heq
      · exact h.cons fun e' he' => by
          rcases List.mem_cons.mp he' with rfl | he'
          · exact hlt
          · exact hlt.trans (hhead e' he')
      · exact htail.cons fun e' he' => heq ▸ hhead e' he'
      · refine (ih htail).cons fun e' he' => ?_
        rcases mem_insertEntry he' with rfl | he'
        · exact lt_of_le_of_ne (not_lt.mp hlt) (Ne.symm heq)
        · exact hhead e' he'

def insert (d : OrderedDict κ ν) (k : κ) (v : ν) : OrderedDict κ ν :=
  ⟨insertEntry k v d.entries, sorted_insertEntry k v d.sorted⟩

/-! ### Lookups -/

theorem sorted_keys (d : OrderedDict κ ν) : d.keys.Pairwise (· < ·) :=
  List.pairwise_map.mpr d.sorted

theorem nodup_keys (d : OrderedDict κ ν) : d.keys.Nodup := d.sorted_keys.imp ne_of_lt

/-- Keys occur once, so a lookup finds exactly the entries. -/
theorem lookup_eq_some_iff {d : OrderedDict κ ν} {k : κ} {v : ν} :
    d.lookup k = some v ↔ (k, v) ∈ d.entries := by
  rw [lookup, Option.map_eq_some_iff]
  constructor
  · rintro ⟨e, hfind, rfl⟩
    have hkey := List.find?_some hfind
    rw [decide_eq_true_eq] at hkey
    exact hkey ▸ List.mem_of_find?_eq_some hfind
  · intro hmem
    cases hfind : d.entries.find? fun e => e.1 = k with
    | none => simpa using List.find?_eq_none.mp hfind _ hmem
    | some e =>
        have hkey := List.find?_some hfind
        rw [decide_eq_true_eq] at hkey
        have heq :=
          List.inj_on_of_nodup_map d.nodup_keys (List.mem_of_find?_eq_some hfind) hmem hkey
        exact ⟨e, rfl, congrArg Prod.snd heq⟩

theorem mem_keys_iff {d : OrderedDict κ ν} {k : κ} : k ∈ d.keys ↔ ∃ v, d.lookup k = some v := by
  simp only [lookup_eq_some_iff, keys, List.mem_map, Prod.exists, exists_and_right,
    exists_eq_right]

/-- Dictionaries with the same lookups are the same. -/
theorem ext_lookup {d d' : OrderedDict κ ν} (h : ∀ k, d.lookup k = d'.lookup k) : d = d' := by
  have hmem : ∀ e, e ∈ d.entries ↔ e ∈ d'.entries := fun e => by
    rw [← lookup_eq_some_iff (d := d) (k := e.1), h, lookup_eq_some_iff]
  have hirrefl : Std.Irrefl fun e e' : κ × ν => e.1 < e'.1 := ⟨fun e => lt_irrefl e.1⟩
  have hantisymm : Std.Antisymm fun e e' : κ × ν => e.1 < e'.1 :=
    ⟨fun e e' hlt hlt' => absurd hlt' (lt_asymm hlt)⟩
  have heq : d.entries = d'.entries := d.sorted.eq_of_mem_iff d'.sorted hmem
  cases d
  cases d'
  simp_all

theorem mem_insertEntry_self (k : κ) (v : ν) (es : List (κ × ν)) :
    (k, v) ∈ insertEntry k v es := by
  induction es with
  | nil => simp [insertEntry]
  | cons e es ih =>
      rw [insertEntry]
      split_ifs
      · exact List.mem_cons_self ..
      · exact List.mem_cons_self ..
      · exact List.mem_cons_of_mem e ih

theorem mem_insertEntry_of_ne {k : κ} {v : ν} {es : List (κ × ν)} {e : κ × ν} (hmem : e ∈ es)
    (hne : e.1 ≠ k) : e ∈ insertEntry k v es := by
  induction es with
  | nil => simp at hmem
  | cons e' es ih =>
      rw [insertEntry]
      split_ifs with hlt heq
      · exact List.mem_cons_of_mem _ hmem
      · rcases List.mem_cons.mp hmem with rfl | hmem
        · exact absurd heq.symm hne
        · exact List.mem_cons_of_mem _ hmem
      · rcases List.mem_cons.mp hmem with rfl | hmem
        · exact List.mem_cons_self ..
        · exact List.mem_cons_of_mem _ (ih hmem)

@[simp] theorem lookup_insert_self (d : OrderedDict κ ν) (k : κ) (v : ν) :
    (d.insert k v).lookup k = some v :=
  lookup_eq_some_iff.mpr (mem_insertEntry_self k v d.entries)

theorem lookup_insert_of_ne (d : OrderedDict κ ν) {k k' : κ} (v : ν) (h : k' ≠ k) :
    (d.insert k v).lookup k' = d.lookup k' := by
  refine Option.ext fun v' => ?_
  rw [lookup_eq_some_iff, lookup_eq_some_iff]
  constructor
  · intro hmem
    rcases mem_insertEntry hmem with heq | hmem
    · exact absurd (congrArg Prod.fst heq) h
    · exact hmem
  · exact fun hmem => mem_insertEntry_of_ne hmem h

/-! ### Many insertions -/

/-- The dictionary after a list of insertions. -/
def insertAll (d : OrderedDict κ ν) : List (κ × ν) → OrderedDict κ ν
  | [] => d
  | e :: es => (d.insert e.1 e.2).insertAll es

theorem lookup_insertAll_of_notMem {d : OrderedDict κ ν} {es : List (κ × ν)} {k : κ}
    (h : k ∉ es.map Prod.fst) : (d.insertAll es).lookup k = d.lookup k := by
  induction es generalizing d with
  | nil => rfl
  | cons e es ih =>
      rw [List.map_cons, List.mem_cons, not_or] at h
      rw [insertAll, ih h.2, lookup_insert_of_ne d e.2 h.1]

/-- Of insertions at different keys every one can be looked up. -/
theorem lookup_insertAll_of_mem {d : OrderedDict κ ν} {es : List (κ × ν)}
    (h : (es.map Prod.fst).Nodup) {k : κ} {v : ν} (hmem : (k, v) ∈ es) :
    (d.insertAll es).lookup k = some v := by
  induction es generalizing d with
  | nil => simp at hmem
  | cons e es ih =>
      rw [List.map_cons, List.nodup_cons] at h
      rcases List.mem_cons.mp hmem with rfl | hmem
      · rw [insertAll, lookup_insertAll_of_notMem h.1, lookup_insert_self]
      · exact ih h.2 hmem

/-- Different keys make a lookup after insertions one in the list of insertions. -/
theorem lookup_insertAll_empty {es : List (κ × ν)} (h : (es.map Prod.fst).Nodup) {k : κ} {v : ν} :
    (empty.insertAll es).lookup k = some v ↔ (k, v) ∈ es := by
  constructor
  · intro hlookup
    by_cases hk : k ∈ es.map Prod.fst
    · obtain ⟨⟨k, v'⟩, hmem, rfl⟩ := List.mem_map.mp hk
      rw [lookup_insertAll_of_mem h hmem, Option.some.injEq] at hlookup
      exact hlookup ▸ hmem
    · rw [lookup_insertAll_of_notMem hk] at hlookup
      simp [lookup, empty] at hlookup
  · exact lookup_insertAll_of_mem h

/-- A dictionary is what inserting its entries makes. -/
theorem insertAll_entries (d : OrderedDict κ ν) : empty.insertAll d.entries = d := by
  refine ext_lookup fun k => Option.ext fun v => ?_
  rw [lookup_insertAll_empty d.nodup_keys, lookup_eq_some_iff]

end OrderedDict
