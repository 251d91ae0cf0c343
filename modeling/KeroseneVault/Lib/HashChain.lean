import Mathlib.Data.List.Chain

/-!
# Hash chains

Records that are numbered by their positions, each with the hash of the one
before it. Nothing is asked of the hashes.

* `Linked index prev hash` — the records are numbered and linked.

Main results:

* `Linked.concat` — a record with the next number and the last hash goes on it;
* `Linked.index_eq`, `Linked.prev_eq` — the numbers and the links, by position.
-/

namespace HashChain

variable {α η : Type*} {index : α → Nat} {prev hash : α → η}

structure Linked (index : α → Nat) (prev hash : α → η) (l : List α) : Prop where
  numbered : l.map index = List.range l.length
  linked : l.IsChain fun a b => prev b = hash a

namespace Linked

theorem nil : Linked index prev hash [] := ⟨rfl, .nil⟩

theorem concat {l : List α} (h : Linked index prev hash l) {a : α} (hIndex : index a = l.length)
    (hPrev : ∀ last ∈ l.getLast?, prev a = hash last) : Linked index prev hash (l ++ [a]) := by
  constructor
  · rw [List.map_append, h.numbered, List.map_singleton, hIndex, List.length_append,
      List.length_singleton, List.range_succ]
  · rw [List.isChain_append]
    refine ⟨h.linked, .singleton a, fun last hLast b hb => ?_⟩
    obtain rfl := Option.some.inj hb
    exact hPrev last hLast

theorem index_eq {l : List α} (h : Linked index prev hash l) {i : Nat} {a : α}
    (ha : l[i]? = some a) : index a = i := by
  have hi : i < l.length := (List.getElem?_eq_some_iff.mp ha).1
  have hMap : (l.map index)[i]? = some (index a) := by rw [List.getElem?_map, ha]; rfl
  rw [h.numbered, List.getElem?_range hi] at hMap
  exact (Option.some.inj hMap).symm

theorem prev_eq {l : List α} (h : Linked index prev hash l) {i : Nat} {a b : α}
    (ha : l[i]? = some a) (hb : l[i + 1]? = some b) : prev b = hash a := by
  obtain ⟨hi, rfl⟩ := List.getElem?_eq_some_iff.mp ha
  obtain ⟨hi', rfl⟩ := List.getElem?_eq_some_iff.mp hb
  exact List.isChain_iff_getElem.mp h.linked i hi'

/-- The last record has the last number. -/
theorem index_last {l : List α} (h : Linked index prev hash l) {a : α} (ha : a ∈ l.getLast?) :
    l.length = index a + 1 := by
  have hLast : l[l.length - 1]? = some a := by
    rw [← List.getLast?_eq_getElem?]
    exact ha
  have hNe : l ≠ [] := by
    rintro rfl
    cases ha
  have hPos := List.length_pos_iff.mpr hNe
  rw [h.index_eq hLast]
  omega

end Linked

end HashChain
