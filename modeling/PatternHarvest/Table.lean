/-!
# Sorted tables

A `Table α` is a finite map from texts to values. It is stored as the list of its entries in
strictly increasing order of their keys, so that the list *is* the map: two tables that answer
every look-up alike are equal (`Table.ext_find?`), and printing the entries in order needs no
sorting. Writing and erasing are described by one equation each, through look-up
(`Table.find?_insert`, `Table.find?_erase`).
-/

namespace PatternHarvest

/-- A finite map from texts to values, its entries listed by increasing key. -/
structure Table (α : Type) where
  entries : List (String × α)
  sorted : entries.Pairwise (fun a b => a.1 < b.1)
  deriving DecidableEq

namespace Table

variable {α β : Type}

/-- The table without entries. -/
def empty : Table α := ⟨[], .nil⟩

instance : Inhabited (Table α) := ⟨empty⟩

/-! ## Look-up -/

/-- The value that a list of entries gives `key`. -/
def findIn? (key : String) : List (String × α) → Option α
  | [] => none
  | e :: es => if key = e.1 then some e.2 else findIn? key es

/-- The value written under `key`. -/
def find? (t : Table α) (key : String) : Option α :=
  findIn? key t.entries

/-- Whether anything is written under `key`. -/
def contains (t : Table α) (key : String) : Bool :=
  (t.find? key).isSome

/-- The keys in increasing order. -/
def keys (t : Table α) : List String :=
  t.entries.map (·.1)

/-- The number of entries. -/
def size (t : Table α) : Nat :=
  t.entries.length

/-! ## Writing -/

/-- Put `(key, value)` at its place in a sorted list, over an entry of the same key. -/
def insertEntry (key : String) (value : α) : List (String × α) → List (String × α)
  | [] => [(key, value)]
  | e :: es =>
    if key < e.1 then (key, value) :: e :: es
    else if key = e.1 then (key, value) :: es
    else e :: insertEntry key value es

theorem mem_insertEntry {key : String} {value : α} {e : String × α} {es : List (String × α)}
    (h : e ∈ insertEntry key value es) : e = (key, value) ∨ e ∈ es := by
  induction es with
  | nil => simpa [insertEntry] using h
  | cons d ds ih =>
    simp only [insertEntry] at h
    split at h
    · simpa using h
    · split at h
      · rcases List.mem_cons.1 h with h | h
        · exact .inl h
        · exact .inr (List.mem_cons_of_mem _ h)
      · rcases List.mem_cons.1 h with h | h
        · exact .inr (h ▸ List.mem_cons_self)
        · exact (ih h).imp_right (List.mem_cons_of_mem _)

theorem sorted_insertEntry (key : String) (value : α) {es : List (String × α)}
    (h : es.Pairwise (fun a b => a.1 < b.1)) :
    (insertEntry key value es).Pairwise (fun a b => a.1 < b.1) := by
  induction es with
  | nil => simp [insertEntry]
  | cons d ds ih =>
    obtain ⟨hd, hds⟩ := List.pairwise_cons.1 h
    simp only [insertEntry]
    split
    next hlt =>
      refine List.pairwise_cons.2 ⟨fun e he => ?_, h⟩
      rcases List.mem_cons.1 he with rfl | he
      · exact hlt
      · exact String.lt_trans hlt (hd e he)
    next hlt =>
      split
      next heq =>
        exact List.pairwise_cons.2 ⟨fun e he => heq ▸ hd e he, hds⟩
      next hne =>
        refine List.pairwise_cons.2 ⟨fun e he => ?_, ih hds⟩
        rcases mem_insertEntry he with rfl | he
        · exact Std.lt_of_le_of_ne (Std.not_lt.1 hlt) (Ne.symm hne)
        · exact hd e he

/-- Write `value` under `key`, over what was there. -/
def insert (t : Table α) (key : String) (value : α) : Table α :=
  ⟨insertEntry key value t.entries, sorted_insertEntry key value t.sorted⟩

/-- Remove what is written under `key`. -/
def erase (t : Table α) (key : String) : Table α :=
  ⟨t.entries.filter (·.1 ≠ key), t.sorted.filter _⟩

/-- The table that results from writing the pairs in order: of a repeated key the last wins. -/
def ofList (pairs : List (String × α)) : Table α :=
  pairs.foldl (fun t e => t.insert e.1 e.2) empty

/-- Apply `f` to every value; the keys stay. -/
def map (f : α → β) (t : Table α) : Table β :=
  ⟨t.entries.map fun e => (e.1, f e.2), List.pairwise_map.2 t.sorted⟩

/-! ## What writing does to look-up -/

@[simp] theorem find?_empty (key : String) : (empty : Table α).find? key = none := rfl

theorem findIn?_insertEntry (key : String) (value : α) (k : String) (es : List (String × α)) :
    findIn? k (insertEntry key value es) = if k = key then some value else findIn? k es := by
  induction es with
  | nil => rfl
  | cons d ds ih =>
    simp only [insertEntry]
    split
    next => rfl
    next =>
      split
      next heq => by_cases h : k = key <;> simp_all [findIn?]
      next hne => by_cases h : k = d.1 <;> by_cases h' : k = key <;> simp_all [findIn?]

/-- After writing, the key shows the new value and every other key what it showed before. -/
@[simp] theorem find?_insert (t : Table α) (key : String) (value : α) (k : String) :
    (t.insert key value).find? k = if k = key then some value else t.find? k :=
  findIn?_insertEntry key value k t.entries

/-- After erasing, the key shows nothing and every other key what it showed before. -/
@[simp] theorem find?_erase (t : Table α) (key k : String) :
    (t.erase key).find? k = if k = key then none else t.find? k := by
  obtain ⟨es, hs⟩ := t
  simp only [find?, erase]
  clear hs
  induction es with
  | nil => simp [findIn?]
  | cons d ds ih =>
    by_cases hd : d.1 = key <;> by_cases hk : k = d.1 <;> simp_all [findIn?]

@[simp] theorem find?_map (f : α → β) (t : Table α) (key : String) :
    (t.map f).find? key = (t.find? key).map f := by
  obtain ⟨es, hs⟩ := t
  simp only [find?, map]
  clear hs
  induction es with
  | nil => rfl
  | cons d ds ih => by_cases h : key = d.1 <;> simp_all [findIn?]

theorem find?_eq_some_iff_mem (t : Table α) (key : String) (value : α) :
    t.find? key = some value ↔ (key, value) ∈ t.entries := by
  obtain ⟨es, hs⟩ := t
  simp only [find?]
  induction es with
  | nil => simp [findIn?]
  | cons d ds ih =>
    obtain ⟨hd, hds⟩ := List.pairwise_cons.1 hs
    obtain ⟨dk, dv⟩ := d
    by_cases h : key = dk
    · subst h
      have hnot : (key, value) ∉ ds := fun hm => String.lt_irrefl key (hd (key, value) hm)
      simp [findIn?, hnot, eq_comm]
    · simp [findIn?, h, ih hds]

/-- The keys are what look-up answers. -/
theorem mem_keys_iff {t : Table α} {key : String} : key ∈ t.keys ↔ (t.find? key).isSome := by
  simp only [keys, List.mem_map, Option.isSome_iff_exists, find?_eq_some_iff_mem]
  constructor
  · rintro ⟨⟨k, value⟩, hmem, rfl⟩
    exact ⟨value, hmem⟩
  · rintro ⟨value, hmem⟩
    exact ⟨(key, value), hmem, rfl⟩

/-- No key occurs twice. -/
theorem nodup_keys (t : Table α) : t.keys.Nodup := by
  have hsorted : t.keys.Pairwise (· < ·) := List.pairwise_map.2 t.sorted
  refine hsorted.imp ?_
  rintro key _ hlt rfl
  exact String.lt_irrefl key hlt

/-! ## The entries are determined by look-up -/

theorem entries_eq_of_mem_iff {es ds : List (String × α)}
    (hes : es.Pairwise (fun a b => a.1 < b.1)) (hds : ds.Pairwise (fun a b => a.1 < b.1))
    (h : ∀ e, e ∈ es ↔ e ∈ ds) : es = ds := by
  induction es generalizing ds with
  | nil =>
    cases ds with
    | nil => rfl
    | cons d ds => exact absurd ((h d).2 List.mem_cons_self) (by simp)
  | cons e es ih =>
    cases ds with
    | nil => exact absurd ((h e).1 List.mem_cons_self) (by simp)
    | cons d ds =>
      obtain ⟨he, hes'⟩ := List.pairwise_cons.1 hes
      obtain ⟨hd, hds'⟩ := List.pairwise_cons.1 hds
      have hed : e = d := by
        rcases List.mem_cons.1 ((h e).1 List.mem_cons_self) with hed | hmem
        · exact hed
        · rcases List.mem_cons.1 ((h d).2 List.mem_cons_self) with hde | hmem'
          · exact hde.symm
          · exact absurd (hd e hmem) (String.lt_asymm (he d hmem'))
      subst hed
      refine congrArg _ (ih hes' hds' fun x => ⟨fun hx => ?_, fun hx => ?_⟩)
      · rcases List.mem_cons.1 ((h x).1 (List.mem_cons_of_mem _ hx)) with rfl | hx'
        · exact absurd (he x hx) (String.lt_irrefl _)
        · exact hx'
      · rcases List.mem_cons.1 ((h x).2 (List.mem_cons_of_mem _ hx)) with rfl | hx'
        · exact absurd (hd x hx) (String.lt_irrefl _)
        · exact hx'

/-- Two tables that answer every look-up alike are equal. -/
theorem ext_find? {s t : Table α} (h : ∀ key, s.find? key = t.find? key) : s = t := by
  have hentries : s.entries = t.entries :=
    entries_eq_of_mem_iff s.sorted t.sorted fun e => by
      rw [← s.find?_eq_some_iff_mem, ← t.find?_eq_some_iff_mem, h]
  obtain ⟨es, hs⟩ := s
  obtain ⟨ds, ht⟩ := t
  cases hentries
  rfl

/-! ## Writing entries in their order -/

/-- An entry whose key is greater than all others goes to the end. -/
theorem insertEntry_of_forall_lt {key : String} {value : α} {es : List (String × α)}
    (h : ∀ e ∈ es, e.1 < key) : insertEntry key value es = es ++ [(key, value)] := by
  induction es with
  | nil => rfl
  | cons d ds ih =>
    have hd : d.1 < key := h d List.mem_cons_self
    have hne : key ≠ d.1 := fun heq => String.lt_irrefl key (heq ▸ hd)
    rw [insertEntry, if_neg (String.lt_asymm hd), if_neg hne,
      ih fun e he => h e (List.mem_cons_of_mem _ he), List.cons_append]

theorem entries_foldl_insert (t : Table α) (es : List (String × α))
    (h : (t.entries ++ es).Pairwise (fun a b => a.1 < b.1)) :
    (es.foldl (fun t e => t.insert e.1 e.2) t).entries = t.entries ++ es := by
  induction es generalizing t with
  | nil => simp
  | cons e es ih =>
    have hlast : ∀ d ∈ t.entries, d.1 < e.1 := fun d hd =>
      (List.pairwise_append.1 h).2.2 d hd e List.mem_cons_self
    have hinsert : (t.insert e.1 e.2).entries = t.entries ++ [e] :=
      insertEntry_of_forall_lt hlast
    rw [List.foldl_cons, ih, hinsert, List.append_assoc, List.singleton_append]
    rw [hinsert, List.append_assoc, List.singleton_append]
    exact h

/-- Writing the entries of a table one after the other gives the table. -/
theorem ofList_entries (t : Table α) : ofList t.entries = t := by
  have hentries : (ofList t.entries).entries = t.entries := by
    rw [ofList, entries_foldl_insert]
    · rfl
    · exact t.sorted
  refine ext_find? fun key => ?_
  rw [find?, find?, hentries]

end Table

end PatternHarvest
