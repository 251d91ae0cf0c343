import Mathlib.Data.List.Sort
import Mathlib.Data.List.Nodup
import Mathlib.Data.List.Perm.Lattice

/-!
# The best of a ranked list

Elements are put in order by a total relation and the first `n` are taken; among
several elements of one key only the first counts.

* `best` — the first `n` in the order;
* `firsts` — the first element of each key, in the order of the list.

Main results:

* `rel_of_mem_best` — whoever is taken ranks no lower than whoever is left;
* `best_eq_of_perm` — where the order tells the elements apart, the choice does not
  depend on the order they come in;
* `firsts_perm` — nor do the first elements, where a key determines its element;
* `firsts_append_perm` — nor what is kept after them.
-/

namespace Ranking

-- ---------------------------------------------------------------------------
-- The first n in an order
-- ---------------------------------------------------------------------------

section Best

variable {α : Type*} (r : α → α → Prop) [DecidableRel r]

/-- The first `n` of the elements put in order. -/
def best (n : ℕ) (l : List α) : List α := (l.insertionSort r).take n

variable {r}

theorem mem_of_mem_best {n : ℕ} {l : List α} {a : α} (h : a ∈ best r n l) : a ∈ l :=
  (List.mem_insertionSort r).mp (List.mem_of_mem_take h)

theorem best_length (n : ℕ) (l : List α) : (best r n l).length = min n l.length := by
  unfold best
  rw [List.length_take, List.length_insertionSort]

/-- What tells the elements apart tells apart those that are taken. -/
theorem best_map_nodup {β : Type*} {f : α → β} {l : List α} (h : (l.map f).Nodup) (n : ℕ) :
    ((best r n l).map f).Nodup := by
  have hSorted : ((l.insertionSort r).map f).Nodup :=
    ((List.perm_insertionSort r l).map f).nodup_iff.mpr h
  exact ((List.take_sublist n _).map f).nodup hSorted

/-- Whoever is taken ranks no lower than whoever is left. -/
theorem rel_of_mem_best [Std.Total r] [IsTrans α r] {n : ℕ} {l : List α} {a b : α}
    (ha : a ∈ best r n l) (hb : b ∈ l) (hLeft : b ∉ best r n l) : r a b := by
  have hSorted : ((l.insertionSort r).take n ++ (l.insertionSort r).drop n).Pairwise r := by
    rw [List.take_append_drop]
    exact List.pairwise_insertionSort r l
  -- what is not in the part taken is in the part dropped
  have hDropped : b ∈ (l.insertionSort r).drop n := by
    have hAll : b ∈ (l.insertionSort r).take n ++ (l.insertionSort r).drop n := by
      rw [List.take_append_drop]
      exact (List.mem_insertionSort r).mpr hb
    exact (List.mem_append.mp hAll).resolve_left hLeft
  exact (List.pairwise_append.mp hSorted).2.2 a ha b hDropped

/-- Where no two elements tie, the choice does not depend on the order they come in. -/
theorem best_eq_of_perm [Std.Total r] [IsTrans α r] {l l' : List α} (hPerm : l.Perm l')
    (hTies : ∀ a ∈ l, ∀ b ∈ l, r a b → r b a → a = b) (n : ℕ) : best r n l = best r n l' := by
  have hSame : (l.insertionSort r).Perm (l'.insertionSort r) :=
    ((List.perm_insertionSort r l).trans hPerm).trans (List.perm_insertionSort r l').symm
  have hEq : l.insertionSort r = l'.insertionSort r := by
    refine hSame.eq_of_pairwise ?_ (List.pairwise_insertionSort r l)
      (List.pairwise_insertionSort r l')
    intro a b ha hb hab hba
    have hb' : b ∈ l := hPerm.mem_iff.mpr ((List.mem_insertionSort r).mp hb)
    exact hTies a ((List.mem_insertionSort r).mp ha) b hb' hab hba
  unfold best
  rw [hEq]

end Best

-- ---------------------------------------------------------------------------
-- The first element of each key
-- ---------------------------------------------------------------------------

section Firsts

variable {α κ : Type*} [DecidableEq κ] (key : α → κ)

/-- The first element of each key that was not `seen` before. -/
def firsts : List κ → List α → List α
  | _, [] => []
  | seen, a :: rest =>
    if key a ∈ seen then firsts seen rest else a :: firsts (key a :: seen) rest

variable {key}

theorem mem_of_mem_firsts {seen : List κ} {l : List α} {a : α} (h : a ∈ firsts key seen l) :
    a ∈ l ∧ key a ∉ seen := by
  induction l generalizing seen with
  | nil => cases h
  | cons b rest ih =>
    unfold firsts at h
    split at h
    · -- the key came before: the element is one of the rest
      have hRest := ih h
      exact ⟨List.mem_cons_of_mem _ hRest.1, hRest.2⟩
    · rename_i hNew
      rcases List.mem_cons.mp h with rfl | hRest
      · exact ⟨List.mem_cons_self, hNew⟩
      · have hLater := ih hRest
        exact ⟨List.mem_cons_of_mem _ hLater.1, fun hSeen =>
          hLater.2 (List.mem_cons_of_mem _ hSeen)⟩

/-- No key is kept twice. -/
theorem firsts_keys_nodup (seen : List κ) (l : List α) : ((firsts key seen l).map key).Nodup := by
  induction l generalizing seen with
  | nil => exact List.nodup_nil
  | cons b rest ih =>
    unfold firsts
    split
    · exact ih seen
    · rw [List.map_cons, List.nodup_cons]
      refine ⟨?_, ih _⟩
      intro hAgain
      obtain ⟨c, hc, hKey⟩ := List.mem_map.mp hAgain
      exact (mem_of_mem_firsts hc).2 (hKey ▸ List.mem_cons_self)

/-- Every key that was not seen is kept. -/
theorem exists_mem_firsts {seen : List κ} {l : List α} {a : α} (ha : a ∈ l)
    (hNew : key a ∉ seen) : ∃ b ∈ firsts key seen l, key b = key a := by
  induction l generalizing seen with
  | nil => cases ha
  | cons c rest ih =>
    unfold firsts
    -- the head has a key seen already, so that it is passed over, or it comes first
    split
    · rename_i hSeen
      rcases List.mem_cons.mp ha with rfl | hRest
      · exact absurd hSeen hNew
      · exact ih hRest hNew
    · by_cases hSame : key a = key c
      · exact ⟨c, List.mem_cons_self, hSame.symm⟩
      · -- a later key is kept among the rest, with one more key seen
        have hRest : a ∈ rest :=
          (List.mem_cons.mp ha).resolve_left fun hEq => hSame (congrArg key hEq)
        have hNew' : key a ∉ key c :: seen := by
          intro hMem
          rcases List.mem_cons.mp hMem with hEq | hOld
          · exact hSame hEq
          · exact hNew hOld
        obtain ⟨b, hb, hKey⟩ := ih hRest hNew'
        exact ⟨b, List.mem_cons_of_mem _ hb, hKey⟩

/-- A list without a repeated key is kept whole. -/
theorem firsts_eq_self {seen : List κ} {l : List α} (hKeys : (l.map key).Nodup)
    (hNew : ∀ a ∈ l, key a ∉ seen) : firsts key seen l = l := by
  induction l generalizing seen with
  | nil => rfl
  | cons b rest ih =>
    rw [List.map_cons, List.nodup_cons] at hKeys
    unfold firsts
    rw [if_neg (hNew b List.mem_cons_self), ih hKeys.2 ?_]
    intro a ha hMem
    rcases List.mem_cons.mp hMem with hEq | hOld
    · exact hKeys.1 (List.mem_map.mpr ⟨a, ha, hEq⟩)
    · exact hNew a (List.mem_cons_of_mem _ ha) hOld

/-- Of the keys seen before, only which they are counts. -/
theorem firsts_congr {seen seen' : List κ} (h : ∀ k, k ∈ seen ↔ k ∈ seen') (l : List α) :
    firsts key seen l = firsts key seen' l := by
  induction l generalizing seen seen' with
  | nil => rfl
  | cons a rest ih =>
    have hCons : ∀ k, k ∈ key a :: seen ↔ k ∈ key a :: seen' := by
      intro k
      rw [List.mem_cons, List.mem_cons, h k]
    unfold firsts
    simp only [h (key a), ih h, ih hCons]

theorem firsts_cons_of_mem {seen : List κ} {a : α} (h : key a ∈ seen) (l : List α) :
    firsts key seen (a :: l) = firsts key seen l := if_pos h

theorem firsts_cons_of_notMem {seen : List κ} {a : α} (h : key a ∉ seen) (l : List α) :
    firsts key seen (a :: l) = a :: firsts key (key a :: seen) l := if_neg h

/-- Of a list that comes after another, the keys that are new are kept. -/
theorem firsts_append (seen : List κ) (l m : List α) :
    firsts key seen (l ++ m) = firsts key seen l ++ firsts key (l.map key ++ seen) m := by
  induction l generalizing seen with
  | nil => rfl
  | cons a rest ih =>
    rw [List.cons_append, List.map_cons, List.cons_append]
    by_cases hSeen : key a ∈ seen
    · -- a key that was seen is not news to the second list either
      have hSame : ∀ k, k ∈ rest.map key ++ seen ↔ k ∈ key a :: (rest.map key ++ seen) := by
        intro k
        rw [List.mem_cons, or_iff_right_of_imp]
        rintro rfl
        exact List.mem_append_right _ hSeen
      rw [firsts_cons_of_mem hSeen, firsts_cons_of_mem hSeen, ih, firsts_congr hSame]
    · have hSame : ∀ k, k ∈ rest.map key ++ key a :: seen ↔
          k ∈ key a :: (rest.map key ++ seen) := by
        intro k
        simp only [List.mem_cons, List.mem_append]
        tauto
      rw [firsts_cons_of_notMem hSeen, firsts_cons_of_notMem hSeen, ih, firsts_congr hSame,
        List.cons_append]

/-- Where the keys of a list are those of another, and each is there once, what comes after
both is kept alike. -/
theorem firsts_append_perm {l l' : List α} (hPerm : l.Perm l') (hKeys : (l.map key).Nodup)
    (m : List α) : (firsts key [] (l ++ m)).Perm (firsts key [] (l' ++ m)) := by
  have hKeys' : (l'.map key).Nodup := (hPerm.map key).nodup_iff.mp hKeys
  have hSame : ∀ k, k ∈ l.map key ++ [] ↔ k ∈ l'.map key ++ [] := by
    intro k
    rw [List.append_nil, List.append_nil, (hPerm.map key).mem_iff]
  rw [firsts_append, firsts_append, firsts_congr hSame,
    firsts_eq_self hKeys fun _ _ => List.not_mem_nil,
    firsts_eq_self hKeys' fun _ _ => List.not_mem_nil]
  exact hPerm.append_right _

/-- Where a key determines its element, the elements kept do not depend on the order they
come in. -/
theorem firsts_perm {l l' : List α} (hPerm : l.Perm l')
    (hKeys : ∀ a ∈ l, ∀ b ∈ l, key a = key b → a = b) :
    (firsts key [] l).Perm (firsts key [] l') := by
  -- both hold the members of the list, each once
  have hMem : ∀ m : List α, (∀ a ∈ m, ∀ b ∈ m, key a = key b → a = b) →
      ∀ a, a ∈ firsts key [] m ↔ a ∈ m := by
    intro m hOne a
    constructor
    · exact fun h => (mem_of_mem_firsts h).1
    · intro ha
      have hKept : ∃ b ∈ firsts key [] m, key b = key a :=
        exists_mem_firsts ha List.not_mem_nil
      obtain ⟨b, hb, hKey⟩ := hKept
      rwa [hOne a ha b (mem_of_mem_firsts hb).1 hKey.symm]
  have hKeys' : ∀ a ∈ l', ∀ b ∈ l', key a = key b → a = b := fun a ha b hb =>
    hKeys a (hPerm.mem_iff.mpr ha) b (hPerm.mem_iff.mpr hb)
  refine (List.perm_ext_iff_of_nodup (List.Nodup.of_map key (firsts_keys_nodup [] l))
    (List.Nodup.of_map key (firsts_keys_nodup [] l'))).mpr ?_
  intro a
  rw [hMem l hKeys, hMem l' hKeys']
  exact hPerm.mem_iff

end Firsts

end Ranking
