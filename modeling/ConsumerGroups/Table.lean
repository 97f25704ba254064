-- Finite maps and finite sets in key order. Two tables with the same lookups are
-- the same table, so "the state is unchanged" can be said with plain equality.

set_option autoImplicit false

namespace ConsumerGroups

/-- A finite map, kept as its entries in strictly ascending key order. -/
structure Table (κ υ : Type) [Ord κ] where
  entries : List (κ × υ)
  ascending : entries.Pairwise (fun a b => compare a.1 b.1 = .lt)
deriving DecidableEq

namespace Table

variable {κ υ : Type} [Ord κ]

def empty : Table κ υ := ⟨[], .nil⟩

instance : Inhabited (Table κ υ) := ⟨empty⟩

def keys (t : Table κ υ) : List κ := t.entries.map (·.1)

/-- The values, in the order of their keys. -/
def values (t : Table κ υ) : List υ := t.entries.map (·.2)

def size (t : Table κ υ) : Nat := t.entries.length

def isEmpty (t : Table κ υ) : Bool := t.entries.isEmpty

/-- The value of the first entry whose key compares equal to `k`. -/
def findEntry (k : κ) : List (κ × υ) → Option υ
  | [] => none
  | (k', v) :: rest => if compare k k' = .eq then some v else findEntry k rest

def find? (t : Table κ υ) (k : κ) : Option υ := findEntry k t.entries

def contains (t : Table κ υ) (k : κ) : Bool := (t.find? k).isSome

/-- Puts an entry in its place, over any older one with the same key. -/
def insertEntry (k : κ) (v : υ) : List (κ × υ) → List (κ × υ)
  | [] => [(k, v)]
  | (k', v') :: rest =>
    match compare k k' with
    | .lt => (k, v) :: (k', v') :: rest
    | .eq => (k, v) :: rest
    | .gt => (k', v') :: insertEntry k v rest

theorem mem_insertEntry {k : κ} {v : υ} {es : List (κ × υ)} {e : κ × υ}
    (h : e ∈ insertEntry k v es) : e = (k, v) ∨ e ∈ es := by
  induction es with
  | nil => simpa [insertEntry] using h
  | cons x rest ih =>
    obtain ⟨k', v'⟩ := x
    simp only [insertEntry] at h
    split at h <;> grind

theorem insertEntry_ascending [Std.TransOrd κ] {k : κ} {v : υ} {es : List (κ × υ)}
    (h : es.Pairwise (fun a b => compare a.1 b.1 = .lt)) :
    (insertEntry k v es).Pairwise (fun a b => compare a.1 b.1 = .lt) := by
  induction es with
  | nil => simp [insertEntry]
  | cons x rest ih =>
    obtain ⟨k', v'⟩ := x
    rw [List.pairwise_cons] at h
    simp only [insertEntry]
    split
    · rename_i hlt
      refine List.pairwise_cons.mpr ⟨?_, List.pairwise_cons.mpr h⟩
      intro e he
      rcases List.mem_cons.mp he with rfl | he
      · exact hlt
      · exact Std.TransCmp.lt_trans hlt (h.1 e he)
    · rename_i heq
      refine List.pairwise_cons.mpr ⟨fun e he => ?_, h.2⟩
      exact Std.TransCmp.lt_of_eq_of_lt heq (h.1 e he)
    · rename_i hgt
      refine List.pairwise_cons.mpr ⟨fun e he => ?_, ih h.2⟩
      rcases mem_insertEntry he with rfl | he
      · exact Std.OrientedCmp.gt_iff_lt.mp hgt
      · exact h.1 e he

def insert [Std.TransOrd κ] (t : Table κ υ) (k : κ) (v : υ) : Table κ υ :=
  ⟨insertEntry k v t.entries, insertEntry_ascending t.ascending⟩

def filter (t : Table κ υ) (p : κ → υ → Bool) : Table κ υ :=
  ⟨t.entries.filter (fun e => p e.1 e.2), t.ascending.filter _⟩

def erase (t : Table κ υ) (k : κ) : Table κ υ :=
  t.filter (fun k' _ => compare k k' != .eq)

def mapValues {υ' : Type} (t : Table κ υ) (f : υ → υ') : Table κ υ' :=
  ⟨t.entries.map (fun e => (e.1, f e.2)), List.pairwise_map.mpr t.ascending⟩

/-- The table of a list of entries; of two entries with one key the later counts. -/
def ofList [Std.TransOrd κ] (es : List (κ × υ)) : Table κ υ :=
  es.foldl (fun t e => t.insert e.1 e.2) empty

/-! ## The laws of lookup -/

/-- A key below every entry has no value. -/
theorem findEntry_of_below {k : κ} {es : List (κ × υ)} (h : ∀ e ∈ es, compare k e.1 = .lt) :
    findEntry k es = none := by
  induction es with
  | nil => rfl
  | cons y rest ih =>
    have hy := h y (by simp)
    simp only [findEntry, hy]
    simpa using ih (fun e he => h e (by simp [he]))

@[simp] theorem find?_empty (k : κ) : (empty : Table κ υ).find? k = none := rfl

theorem find?_insert_self [Std.TransOrd κ] (t : Table κ υ) (k : κ) (v : υ) :
    (t.insert k v).find? k = some v := by
  obtain ⟨es, hes⟩ := t
  simp only [insert, find?]
  clear hes
  induction es with
  | nil => simp [insertEntry, findEntry]
  | cons x rest ih =>
    obtain ⟨k', v'⟩ := x
    simp only [insertEntry]
    split
    · simp [findEntry]
    · simp [findEntry]
    · rename_i h
      simp [findEntry, h, ih]

theorem find?_insert_of_ne [Std.TransOrd κ] [Std.LawfulEqOrd κ] (t : Table κ υ) {k k' : κ} (v : υ)
    (h : k' ≠ k) : (t.insert k v).find? k' = t.find? k' := by
  obtain ⟨es, hes⟩ := t
  simp only [insert, find?]
  clear hes
  induction es with
  | nil => simp [insertEntry, findEntry, h]
  | cons x rest ih =>
    obtain ⟨j, v'⟩ := x
    simp only [insertEntry]
    split
    · simp [findEntry, h]
    · rename_i heq
      simp only [Std.LawfulEqCmp.compare_eq_iff_eq] at heq
      subst heq
      simp [findEntry, h]
    · simp [findEntry, ih]

theorem find?_filter [Std.TransOrd κ] [Std.LawfulEqOrd κ] (t : Table κ υ) (p : κ → υ → Bool)
    (k : κ) : (t.filter p).find? k = (t.find? k).filter (p k) := by
  obtain ⟨es, hes⟩ := t
  simp only [filter, find?]
  induction es with
  | nil => rfl
  | cons x rest ih =>
    obtain ⟨j, v⟩ := x
    rw [List.pairwise_cons] at hes
    have ih := ih hes.2
    have hno : compare k j = .eq → findEntry k rest = none := by
      intro hk
      have := Std.LawfulEqCmp.eq_of_compare hk
      subst this
      exact findEntry_of_below hes.1
    rw [List.filter_cons]
    by_cases hk : compare k j = .eq
    · have := Std.LawfulEqCmp.eq_of_compare hk
      subst this
      by_cases hp : p k v = true
      · simp [findEntry, hp, Option.filter]
      · simp [findEntry, hp, Option.filter, ih, hno hk]
    · by_cases hp : p j v = true
      · simp [findEntry, hp, hk, ih]
      · simp [findEntry, hp, hk, ih]

theorem find?_mapValues {υ' : Type} (t : Table κ υ) (f : υ → υ') (k : κ) :
    (t.mapValues f).find? k = (t.find? k).map f := by
  obtain ⟨es, hes⟩ := t
  simp only [mapValues, find?]
  clear hes
  induction es with
  | nil => rfl
  | cons e rest ih =>
    simp only [List.map_cons, findEntry]
    split
    · rfl
    · exact ih

theorem keys_mapValues {υ' : Type} (t : Table κ υ) (f : υ → υ') :
    (t.mapValues f).keys = t.keys := by
  simp [keys, mapValues]

theorem mapValues_mapValues {υ' υ'' : Type} (t : Table κ υ) (f : υ → υ') (f' : υ' → υ'') :
    (t.mapValues f).mapValues f' = t.mapValues (f' ∘ f) := by
  simp [mapValues]

/-- It is all the same whether values are changed before some of them are picked, or after. -/
theorem filter_mapValues {υ' : Type} (t : Table κ υ) (f : υ → υ') (p : κ → υ' → Bool) :
    (t.mapValues f).filter p = (t.filter (fun k v => p k (f v))).mapValues f := by
  simp only [filter, mapValues, List.filter_map]
  rfl

theorem isEmpty_mapValues {υ' : Type} (t : Table κ υ) (f : υ → υ') :
    (t.mapValues f).isEmpty = t.isEmpty := by
  simp [isEmpty, mapValues]

theorem find?_erase_self [Std.TransOrd κ] [Std.LawfulEqOrd κ] (t : Table κ υ) (k : κ) :
    (t.erase k).find? k = none := by
  rw [erase, find?_filter]
  cases t.find? k <;> simp [Option.filter]

theorem find?_erase_of_ne [Std.TransOrd κ] [Std.LawfulEqOrd κ] (t : Table κ υ) {k k' : κ}
    (h : k' ≠ k) : (t.erase k).find? k' = t.find? k' := by
  rw [erase, find?_filter]
  have hc : (compare k k' != .eq) = true := by
    simp only [bne_iff_ne, ne_eq, Std.LawfulEqCmp.compare_eq_iff_eq]
    exact fun e => h e.symm
  cases t.find? k' <;> simp [Option.filter, hc]

/-- A table is known by its lookups. -/
theorem ext_find? [Std.TransOrd κ] [Std.LawfulEqOrd κ] {t u : Table κ υ}
    (h : ∀ k, t.find? k = u.find? k) : t = u := by
  obtain ⟨es, hes⟩ := t
  obtain ⟨fs, hfs⟩ := u
  congr
  simp only [find?] at h
  induction es generalizing fs with
  | nil =>
    cases fs with
    | nil => rfl
    | cons y rest => have := h y.1; simp [findEntry] at this
  | cons x es ih =>
    rw [List.pairwise_cons] at hes
    cases fs with
    | nil => have := h x.1; simp [findEntry] at this
    | cons y fs =>
      rw [List.pairwise_cons] at hfs
      obtain ⟨i, v⟩ := x
      obtain ⟨j, w⟩ := y
      have hij : i = j := by
        cases hc : compare i j with
        | eq => exact Std.LawfulEqCmp.eq_of_compare hc
        | lt =>
          have hi := h i
          have below : ∀ e ∈ (j, w) :: fs, compare i e.1 = .lt := by
            intro e he
            rcases List.mem_cons.mp he with rfl | he
            · exact hc
            · exact Std.TransCmp.lt_trans hc (hfs.1 e he)
          rw [findEntry_of_below below] at hi
          simp [findEntry] at hi
        | gt =>
          have hc' := Std.OrientedCmp.gt_iff_lt.mp hc
          have hj := h j
          have below : ∀ e ∈ (i, v) :: es, compare j e.1 = .lt := by
            intro e he
            rcases List.mem_cons.mp he with rfl | he
            · exact hc'
            · exact Std.TransCmp.lt_trans hc' (hes.1 e he)
          rw [findEntry_of_below below] at hj
          simp [findEntry] at hj
      subst hij
      have hv : v = w := by simpa [findEntry] using h i
      subst hv
      rw [ih hes.2 fs hfs.2]
      intro k
      by_cases hk : compare k i = .eq
      · have := Std.LawfulEqCmp.eq_of_compare hk
        subst this
        rw [findEntry_of_below hes.1, findEntry_of_below hfs.1]
      · simpa [findEntry, hk] using h k

theorem insert_insert_self [Std.TransOrd κ] [Std.LawfulEqOrd κ] (t : Table κ υ) (k : κ) (v w : υ) :
    (t.insert k v).insert k w = t.insert k w := by
  apply ext_find?
  intro j
  by_cases h : j = k
  · subst h; simp [find?_insert_self]
  · simp [find?_insert_of_ne _ _ h]

theorem insert_eq_self_iff [Std.TransOrd κ] [Std.LawfulEqOrd κ] {t : Table κ υ} {k : κ} {v : υ} :
    t.insert k v = t ↔ t.find? k = some v := by
  constructor
  · intro h
    rw [← h, find?_insert_self]
  · intro h
    apply ext_find?
    intro j
    by_cases hj : j = k
    · rw [hj, find?_insert_self, h]
    · rw [find?_insert_of_ne _ _ hj]

theorem mapValues_insert [Std.TransOrd κ] [Std.LawfulEqOrd κ] {υ' : Type} (t : Table κ υ) (k : κ)
    (v : υ) (f : υ → υ') : (t.insert k v).mapValues f = (t.mapValues f).insert k (f v) := by
  apply ext_find?
  intro j
  by_cases hj : j = k
  · rw [hj, find?_mapValues, find?_insert_self, find?_insert_self, Option.map_some]
  · rw [find?_mapValues, find?_insert_of_ne _ _ hj, find?_insert_of_ne _ _ hj, find?_mapValues]

theorem insert_comm [Std.TransOrd κ] [Std.LawfulEqOrd κ] (t : Table κ υ) {j k : κ} (v w : υ)
    (h : j ≠ k) : (t.insert j v).insert k w = (t.insert k w).insert j v := by
  apply ext_find?
  intro i
  by_cases hj : i = j
  · subst hj; rw [find?_insert_of_ne _ _ h, find?_insert_self, find?_insert_self]
  · by_cases hk : i = k
    · subst hk; rw [find?_insert_self, find?_insert_of_ne _ _ hj, find?_insert_self]
    · rw [find?_insert_of_ne _ _ hk, find?_insert_of_ne _ _ hj, find?_insert_of_ne _ _ hj,
        find?_insert_of_ne _ _ hk]

/-! ## Entries and lookups -/

/-- The entries are what lookups find. -/
theorem mem_entries_iff [Std.TransOrd κ] [Std.LawfulEqOrd κ] {t : Table κ υ} {k : κ} {v : υ} :
    (k, v) ∈ t.entries ↔ t.find? k = some v := by
  obtain ⟨es, hes⟩ := t
  simp only [find?]
  induction es with
  | nil => simp [findEntry]
  | cons x rest ih =>
    obtain ⟨j, w⟩ := x
    rw [List.pairwise_cons] at hes
    have ih := ih hes.2
    by_cases hk : compare k j = .eq
    · have := Std.LawfulEqCmp.eq_of_compare hk
      subst this
      have hno : (k, v) ∉ rest := by
        rw [ih, findEntry_of_below hes.1]
        simp
      simp [findEntry, hno, eq_comm]
    · have hne : k ≠ j := fun e => hk (by simp [e])
      simp [findEntry, hk, hne, ih]

theorem mem_keys_iff [Std.TransOrd κ] [Std.LawfulEqOrd κ] {t : Table κ υ} {k : κ} :
    k ∈ t.keys ↔ ∃ v, t.find? k = some v := by
  simp only [keys, List.mem_map, Prod.exists, exists_and_right, exists_eq_right, mem_entries_iff]

theorem mem_values_iff [Std.TransOrd κ] [Std.LawfulEqOrd κ] {t : Table κ υ} {v : υ} :
    v ∈ t.values ↔ ∃ k, t.find? k = some v := by
  simp only [values, List.mem_map, Prod.exists, exists_eq_right, mem_entries_iff]

theorem isEmpty_iff [Std.TransOrd κ] [Std.LawfulEqOrd κ] {t : Table κ υ} :
    t.isEmpty = true ↔ ∀ k, t.find? k = none := by
  constructor
  · intro h k
    rw [isEmpty, List.isEmpty_iff] at h
    rw [find?, h]
    rfl
  · intro h
    rw [isEmpty, List.isEmpty_iff, List.eq_nil_iff_forall_not_mem]
    rintro ⟨k, v⟩ hm
    rw [mem_entries_iff, h k] at hm
    cases hm

theorem nodup_keys [Std.TransOrd κ] [Std.LawfulEqOrd κ] (t : Table κ υ) : t.keys.Nodup := by
  rw [keys, List.Nodup, List.pairwise_map]
  refine t.ascending.imp ?_
  intro a b hlt heq
  rw [heq] at hlt
  simp at hlt

/-- Values that are stored under one key each do not come twice. -/
theorem nodup_values [Std.TransOrd κ] [Std.LawfulEqOrd κ] {t : Table κ υ}
    (h : ∀ j k v, t.find? j = some v → t.find? k = some v → j = k) : t.values.Nodup := by
  rw [values, List.Nodup, List.pairwise_map]
  refine t.ascending.imp_of_mem ?_
  rintro ⟨j, v⟩ ⟨k, w⟩ hj hk hlt heq
  simp only at hlt heq
  subst heq
  rw [h j k v (mem_entries_iff.mp hj) (mem_entries_iff.mp hk)] at hlt
  simp at hlt

end Table

/-! ## Sets -/

/-- A finite set, kept in ascending order. -/
abbrev SortedSet (α : Type) [Ord α] := Table α Unit

namespace SortedSet

variable {α : Type} [Ord α]

def toList (s : SortedSet α) : List α := s.keys

def add [Std.TransOrd α] (s : SortedSet α) (a : α) : SortedSet α := Table.insert s a ()

def ofList [Std.TransOrd α] (as : List α) : SortedSet α := as.foldl add Table.empty

def has (s : SortedSet α) (a : α) : Bool := Table.contains s a

theorem mem_toList_iff [Std.TransOrd α] [Std.LawfulEqOrd α] {s : SortedSet α} {a : α} :
    a ∈ s.toList ↔ s.find? a = some () := by
  rw [toList, Table.mem_keys_iff]
  exact ⟨fun ⟨_, h⟩ => h, fun h => ⟨(), h⟩⟩

theorem mem_toList_add [Std.TransOrd α] [Std.LawfulEqOrd α] {s : SortedSet α} {a b : α} :
    b ∈ (s.add a).toList ↔ b = a ∨ b ∈ s.toList := by
  rw [mem_toList_iff, mem_toList_iff, add]
  by_cases h : b = a
  · subst h
    simp [Table.find?_insert_self]
  · simp [Table.find?_insert_of_ne _ _ h, h]

theorem mem_toList_foldl_add [Std.TransOrd α] [Std.LawfulEqOrd α] {as : List α} {s : SortedSet α}
    {b : α} : b ∈ (as.foldl add s).toList ↔ b ∈ as ∨ b ∈ s.toList := by
  induction as generalizing s with
  | nil => simp
  | cons a as ih =>
    rw [List.foldl_cons, ih, mem_toList_add, List.mem_cons, or_left_comm, or_assoc]

/-- The set of a list has the items of the list, whatever their order and their number. -/
theorem mem_toList_ofList [Std.TransOrd α] [Std.LawfulEqOrd α] {as : List α} {b : α} :
    b ∈ (ofList as).toList ↔ b ∈ as := by
  rw [ofList, mem_toList_foldl_add]
  simp [toList, Table.keys, Table.empty]

/-- A set is known by its items. -/
theorem ext_toList [Std.TransOrd α] [Std.LawfulEqOrd α] {s t : SortedSet α}
    (h : ∀ a, a ∈ s.toList ↔ a ∈ t.toList) : s = t := by
  apply Table.ext_find?
  intro a
  have ha := h a
  rw [mem_toList_iff, mem_toList_iff] at ha
  cases hs : s.find? a <;> cases ht : t.find? a <;> simp_all

end SortedSet

end ConsumerGroups
