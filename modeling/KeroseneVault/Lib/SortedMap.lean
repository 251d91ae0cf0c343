import Mathlib.Data.List.Basic
import Mathlib.Data.List.Perm.Subperm
import Mathlib.Order.Lattice

/-!
# Maps in the order of their keys

A map as the list of its entries, in strictly increasing order of the keys.

* `insert` — replaces the value of a key, or puts the new entry in its place;
* `ofList` — the map after inserting the entries one by one;
* `lookup`, `keys`, `size` — what the map says of a key, and how many it has;
* `SortedSet` — a map that has keys only.

Main results:

* `insertEntry_last` — a key above all others comes last;
* `ofList_entries` — inserting a map's own entries gives the map back;
* `lookup_insert_self`, `lookup_insert_ne` — an insert changes one key;
* `mem_entries_iff` — the entries are what `lookup` finds.
-/

/-- The entries of a map, in the order of the keys. -/
@[ext] structure SortedMap (κ ν : Type*) [LinearOrder κ] where
  entries : List (κ × ν)
  sorted : (entries.map Prod.fst).Pairwise (· < ·)

namespace SortedMap

variable {κ ν : Type*} [LinearOrder κ]

instance decidableEq [DecidableEq ν] : DecidableEq (SortedMap κ ν) :=
  fun _ _ => decidable_of_iff _ SortedMap.ext_iff.symm

def empty : SortedMap κ ν := ⟨[], List.Pairwise.nil⟩

/-- The entries with the value of `k` replaced, or a new entry for it. -/
def insertEntry (k : κ) (v : ν) : List (κ × ν) → List (κ × ν)
  | [] => [(k, v)]
  | e :: rest =>
    if k < e.1 then (k, v) :: e :: rest
    else if k = e.1 then (k, v) :: rest
    else e :: insertEntry k v rest

theorem mem_keys_insertEntry {k : κ} {v : ν} {entries : List (κ × ν)} {j : κ}
    (h : j ∈ (insertEntry k v entries).map Prod.fst) : j = k ∨ j ∈ entries.map Prod.fst := by
  induction entries with
  | nil => exact .inl (by simpa [insertEntry] using h)
  | cons e rest ih =>
    unfold insertEntry at h
    split at h
    · simpa using h
    · split at h
      · rcases List.mem_cons.mp h with rfl | hRest
        · exact .inl rfl
        · exact .inr (List.mem_cons_of_mem _ hRest)
      · rcases List.mem_cons.mp h with rfl | hRest
        · exact .inr (List.mem_cons_self ..)
        · exact (ih hRest).imp_right (List.mem_cons_of_mem _)

/-- An insert keeps the order of the keys. -/
theorem sorted_insertEntry (k : κ) (v : ν) {entries : List (κ × ν)}
    (h : (entries.map Prod.fst).Pairwise (· < ·)) :
    ((insertEntry k v entries).map Prod.fst).Pairwise (· < ·) := by
  induction entries with
  | nil => exact List.pairwise_singleton _ _
  | cons e rest ih =>
    obtain ⟨hFirst, hRest⟩ := List.pairwise_cons.mp h
    unfold insertEntry
    -- before the head, in place of it, or further on
    by_cases hLt : k < e.1
    · rw [if_pos hLt]
      refine List.pairwise_cons.mpr ⟨fun j hj => ?_, h⟩
      rcases List.mem_cons.mp hj with rfl | hj
      · exact hLt
      · exact lt_trans hLt (hFirst j hj)
    rw [if_neg hLt]
    by_cases hEq : k = e.1
    · rw [if_pos hEq]
      subst hEq
      exact List.pairwise_cons.mpr ⟨hFirst, hRest⟩
    · rw [if_neg hEq]
      refine List.pairwise_cons.mpr ⟨fun j hj => ?_, ih hRest⟩
      rcases mem_keys_insertEntry hj with rfl | hj
      · exact lt_of_le_of_ne (not_lt.mp hLt) (Ne.symm hEq)
      · exact hFirst j hj

def insert (m : SortedMap κ ν) (k : κ) (v : ν) : SortedMap κ ν :=
  ⟨insertEntry k v m.entries, sorted_insertEntry k v m.sorted⟩

/-- A key above all others comes last. -/
theorem insertEntry_last {k : κ} {entries : List (κ × ν)}
    (h : ∀ j ∈ entries.map Prod.fst, j < k) (v : ν) :
    insertEntry k v entries = entries ++ [(k, v)] := by
  induction entries with
  | nil => rfl
  | cons e rest ih =>
    have hLt : e.1 < k := h e.1 (List.mem_cons_self ..)
    rw [insertEntry, if_neg (not_lt_of_gt hLt), if_neg (ne_of_gt hLt), List.cons_append,
      ih fun j hj => h j (List.mem_cons_of_mem _ hj)]

/-- Inserting the entries one by one. -/
def ofList (entries : List (κ × ν)) : SortedMap κ ν :=
  entries.foldl (fun m e => m.insert e.1 e.2) empty

/-- Inserting entries above all others, in order, appends them. -/
theorem entries_foldl_insert {m : SortedMap κ ν} {entries : List (κ × ν)}
    (h : ((m.entries ++ entries).map Prod.fst).Pairwise (· < ·)) :
    (entries.foldl (fun m e => m.insert e.1 e.2) m).entries = m.entries ++ entries := by
  induction entries generalizing m with
  | nil => exact (List.append_nil _).symm
  | cons e rest ih =>
    have hLast : (m.insert e.1 e.2).entries = m.entries ++ [e] := by
      refine insertEntry_last (fun j hj => ?_) e.2
      rw [List.map_append, List.pairwise_append] at h
      exact h.2.2 j hj e.1 (List.mem_cons_self ..)
    rw [List.foldl_cons, ih (by rwa [hLast, List.append_assoc]), hLast, List.append_assoc]
    rfl

theorem mem_of_mem_insertEntry {k : κ} {v : ν} {entries : List (κ × ν)} {e : κ × ν}
    (h : e ∈ insertEntry k v entries) : e = (k, v) ∨ e ∈ entries := by
  induction entries with
  | nil => exact .inl (List.mem_singleton.mp h)
  | cons d rest ih =>
    unfold insertEntry at h
    split at h
    · exact List.mem_cons.mp h
    · split at h
      · exact (List.mem_cons.mp h).imp_right (List.mem_cons_of_mem _)
      · rcases List.mem_cons.mp h with rfl | hRest
        · exact .inr (List.mem_cons_self ..)
        · exact (ih hRest).imp_right (List.mem_cons_of_mem _)

theorem mem_of_mem_foldl_insert {m : SortedMap κ ν} {entries : List (κ × ν)} {e : κ × ν}
    (h : e ∈ (entries.foldl (fun m e => m.insert e.1 e.2) m).entries) :
    e ∈ m.entries ∨ e ∈ entries := by
  induction entries generalizing m with
  | nil => exact .inl h
  | cons d rest ih =>
    rcases ih h with hEarlier | hLater
    · rcases mem_of_mem_insertEntry hEarlier with rfl | hOld
      · exact .inr (List.mem_cons_self ..)
      · exact .inl hOld
    · exact .inr (List.mem_cons_of_mem _ hLater)

/-- The map of a list has entries of the list only. -/
theorem mem_of_mem_ofList {entries : List (κ × ν)} {e : κ × ν}
    (h : e ∈ (ofList entries).entries) : e ∈ entries := by
  rcases mem_of_mem_foldl_insert h with hNone | hMem
  · cases hNone
  · exact hMem

theorem ofList_entries (m : SortedMap κ ν) : ofList m.entries = m :=
  SortedMap.ext (entries_foldl_insert (m := empty) m.sorted)

/-- A new key is one more entry. -/
theorem perm_insertEntry {k : κ} {entries : List (κ × ν)} (h : k ∉ entries.map Prod.fst) (v : ν) :
    (insertEntry k v entries).Perm ((k, v) :: entries) := by
  induction entries with
  | nil => exact .refl _
  | cons e rest ih =>
    rw [List.map_cons, List.mem_cons, not_or] at h
    unfold insertEntry
    split
    · exact .refl _
    · rw [if_neg h.1]
      exact ((ih h.2).cons e).trans (.swap _ _ _)

/-- The map of a list with distinct keys has the entries of the list. -/
theorem perm_ofList {entries : List (κ × ν)} (h : (entries.map Prod.fst).Nodup) :
    (ofList entries).entries.Perm entries := by
  suffices hFold : ∀ m : SortedMap κ ν, ((m.entries ++ entries).map Prod.fst).Nodup →
      (entries.foldl (fun m e => m.insert e.1 e.2) m).entries.Perm (m.entries ++ entries) from
    hFold empty h
  clear h
  induction entries with
  | nil =>
    intro m _
    rw [List.append_nil]
    exact .refl _
  | cons e rest ih =>
    intro m hNodup
    -- the first entry goes in, and stands before the others
    have hMiddle : (m.entries ++ e :: rest).Perm (e :: m.entries ++ rest) := List.perm_middle
    have hNodup' := ((hMiddle.map Prod.fst).nodup_iff.mp hNodup)
    have hNew : e.1 ∉ m.entries.map Prod.fst := by
      rw [List.cons_append, List.map_cons, List.nodup_cons, List.map_append, List.mem_append,
        not_or] at hNodup'
      exact hNodup'.1.1
    have hInsert : (m.insert e.1 e.2).entries.Perm (e :: m.entries) := perm_insertEntry hNew e.2
    have hNext := ih (m.insert e.1 e.2)
      (((hInsert.append_right rest).map Prod.fst).nodup_iff.mpr hNodup')
    exact hNext.trans ((hInsert.append_right rest).trans hMiddle.symm)

/-! ## Lookup -/

def lookupEntry (k : κ) : List (κ × ν) → Option ν
  | [] => none
  | e :: rest => if k = e.1 then some e.2 else lookupEntry k rest

def lookup (m : SortedMap κ ν) (k : κ) : Option ν := lookupEntry k m.entries

def keys (m : SortedMap κ ν) : List κ := m.entries.map Prod.fst

def size (m : SortedMap κ ν) : Nat := m.entries.length

@[simp] theorem lookup_empty (k : κ) : (empty : SortedMap κ ν).lookup k = none := rfl

@[simp] theorem size_empty : (empty : SortedMap κ ν).size = 0 := rfl

theorem lookupEntry_insertEntry_self (k : κ) (v : ν) (entries : List (κ × ν)) :
    lookupEntry k (insertEntry k v entries) = some v := by
  induction entries with
  | nil => exact if_pos rfl
  | cons e rest ih =>
    unfold insertEntry
    split
    · exact if_pos rfl
    · split
      · exact if_pos rfl
      · rw [lookupEntry, if_neg ‹_›, ih]

theorem lookupEntry_insertEntry_ne {j k : κ} (h : j ≠ k) (v : ν) (entries : List (κ × ν)) :
    lookupEntry j (insertEntry k v entries) = lookupEntry j entries := by
  induction entries with
  | nil => exact if_neg h
  | cons e rest ih =>
    unfold insertEntry
    split
    · exact if_neg h
    · split
      · rename_i hEq
        rw [lookupEntry, lookupEntry, if_neg h, if_neg (hEq ▸ h)]
      · rw [lookupEntry, lookupEntry, ih]

@[simp] theorem lookup_insert_self (m : SortedMap κ ν) (k : κ) (v : ν) :
    (m.insert k v).lookup k = some v := lookupEntry_insertEntry_self k v m.entries

theorem lookup_insert_ne {j k : κ} (h : j ≠ k) (m : SortedMap κ ν) (v : ν) :
    (m.insert k v).lookup j = m.lookup j := lookupEntry_insertEntry_ne h v m.entries

theorem lookup_insert (m : SortedMap κ ν) (j k : κ) (v : ν) :
    (m.insert k v).lookup j = if j = k then some v else m.lookup j := by
  by_cases h : j = k
  · subst h
    rw [if_pos rfl, lookup_insert_self]
  · rw [if_neg h, lookup_insert_ne h]

theorem lookupEntry_eq_none_iff {k : κ} {entries : List (κ × ν)} :
    lookupEntry k entries = none ↔ k ∉ entries.map Prod.fst := by
  induction entries with
  | nil => simp [lookupEntry]
  | cons e rest ih =>
    unfold lookupEntry
    by_cases hEq : k = e.1
    · simp [hEq]
    · rw [if_neg hEq, ih]
      simp [hEq]

theorem lookup_eq_none_iff {m : SortedMap κ ν} {k : κ} : m.lookup k = none ↔ k ∉ m.keys :=
  lookupEntry_eq_none_iff

/-- The entries are what `lookup` finds. -/
theorem mem_entries_iff {m : SortedMap κ ν} {k : κ} {v : ν} :
    (k, v) ∈ m.entries ↔ m.lookup k = some v := by
  obtain ⟨entries, hSorted⟩ := m
  show (k, v) ∈ entries ↔ lookupEntry k entries = some v
  induction entries with
  | nil => simp [lookupEntry]
  | cons e rest ih =>
    obtain ⟨hFirst, hRest⟩ := List.pairwise_cons.mp hSorted
    unfold lookupEntry
    by_cases hEq : k = e.1
    · -- the key is the first, so it is none of the others
      have hNot : (k, v) ∉ rest := fun hMem =>
        lt_irrefl k (hEq ▸ hFirst k (List.mem_map_of_mem hMem))
      rw [if_pos hEq, List.mem_cons, or_iff_left hNot, Option.some.injEq]
      subst hEq
      exact ⟨fun h => (congrArg Prod.snd h).symm, fun h => Prod.ext rfl h.symm⟩
    · rw [if_neg hEq, List.mem_cons, or_iff_right fun h => hEq (congrArg Prod.fst h)]
      exact ih hRest

theorem mem_keys_iff {m : SortedMap κ ν} {k : κ} : k ∈ m.keys ↔ ∃ v, m.lookup k = some v := by
  rw [keys, List.mem_map]
  constructor
  · rintro ⟨⟨k, v⟩, hMem, rfl⟩
    exact ⟨v, mem_entries_iff.mp hMem⟩
  · rintro ⟨v, hv⟩
    exact ⟨(k, v), mem_entries_iff.mpr hv, rfl⟩

theorem nodup_keys (m : SortedMap κ ν) : m.keys.Nodup := m.sorted.imp fun h => ne_of_lt h

theorem mem_keys_insert {m : SortedMap κ ν} {j k : κ} {v : ν} :
    j ∈ (m.insert k v).keys ↔ j = k ∨ j ∈ m.keys := by
  rw [mem_keys_iff, mem_keys_iff, lookup_insert]
  by_cases h : j = k
  · simp [h]
  · simp [h]

/-- The map of a list with distinct keys finds what the list has. -/
theorem lookup_ofList {entries : List (κ × ν)} (h : (entries.map Prod.fst).Nodup) (k : κ) :
    (ofList entries).lookup k = lookupEntry k entries := by
  suffices hFold : ∀ m : SortedMap κ ν, (entries.foldl (fun m e => m.insert e.1 e.2) m).lookup k =
      (lookupEntry k entries).or (m.lookup k) by
    rw [ofList, hFold, lookup_empty, Option.or_none]
  induction entries with
  | nil => exact fun _ => rfl
  | cons e rest ih =>
    intro m
    obtain ⟨hFirst, hRest⟩ := List.nodup_cons.mp h
    rw [List.foldl_cons, ih hRest, lookup_insert, lookupEntry]
    by_cases hEq : k = e.1
    · subst hEq
      rw [if_pos rfl, if_pos rfl, lookupEntry_eq_none_iff.mpr hFirst]
      rfl
    · rw [if_neg hEq, if_neg hEq]

theorem length_keys (m : SortedMap κ ν) : m.keys.length = m.size := List.length_map _

/-- A map with more keys has more entries. -/
theorem size_le_of_keys {m m' : SortedMap κ ν} (h : ∀ k ∈ m.keys, k ∈ m'.keys) :
    m.size ≤ m'.size := by
  rw [← length_keys, ← length_keys]
  exact (List.subperm_of_subset m.nodup_keys h).length_le

end SortedMap

/-- A set, as the map of its members to nothing. -/
abbrev SortedSet (κ : Type*) [LinearOrder κ] := SortedMap κ Unit

namespace SortedSet

variable {κ : Type*} [LinearOrder κ]

def add (s : SortedSet κ) (k : κ) : SortedSet κ := s.insert k ()

def ofKeys (ks : List κ) : SortedSet κ := ks.foldl add .empty

theorem mem_add {s : SortedSet κ} {j k : κ} : j ∈ (s.add k).keys ↔ j = k ∨ j ∈ s.keys :=
  SortedMap.mem_keys_insert

end SortedSet
