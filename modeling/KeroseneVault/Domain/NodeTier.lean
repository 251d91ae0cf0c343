import KeroseneVault.Domain.Basic
import KeroseneVault.Lib.Ranking

/-!
# Seating the genesis nodes

`node_tier.rs`. Every node seats the genesis roster on its own, from the candidates in the
order it happens to have them: higher tiers first, then by node id. The rosters must be
the same on all of them.

* `seatGenesisByTier` — the seating, as the code computes it;
* `Outranks` — what the tiers are for: who is seated before whom.
-/

namespace KeroseneVault

-- ---------------------------------------------------------------------------
-- Tiers and candidates
-- ---------------------------------------------------------------------------

/-- `VaultNodeTier`. -/
inductive VaultNodeTier where
  | domestic
  | sgx
  | sev
  deriving DecidableEq, Repr

/-- `seating_priority`: higher fills genesis seats first. -/
def VaultNodeTier.seatingPriority : VaultNodeTier → ℕ
  | .sev => 3
  | .sgx => 2
  | .domestic => 1

/-- `SeatingCandidate`. -/
structure SeatingCandidate where
  id : NodeId
  tier : VaultNodeTier
  deriving DecidableEq

namespace SeatingCandidate

/-- The comparison the candidates are sorted by: priority descending, then id. -/
def seatingOrder (a b : SeatingCandidate) : Ordering :=
  (compare b.tier.seatingPriority a.tier.seatingPriority).then (compare a.id.text b.id.text)

/-- `a` comes no later than `b`. -/
def NotAfter (a b : SeatingCandidate) : Prop := a.seatingOrder b ≠ .gt

instance decidableNotAfter : DecidableRel NotAfter := fun _ _ => instDecidableNot

/-- `a` is of a higher tier, or of the same one with the smaller id. -/
def Outranks (a b : SeatingCandidate) : Prop :=
  b.tier.seatingPriority < a.tier.seatingPriority ∨
    a.tier.seatingPriority = b.tier.seatingPriority ∧ a.id.text < b.id.text

end SeatingCandidate

/-- `seat_genesis_by_tier`: one candidate for each id, the first; in the order of tiers and
ids; of these the first `n`. -/
def seatGenesisByTier (candidates : List SeatingCandidate) (n : ℕ) : List NodeId :=
  let unique := Ranking.firsts (fun c : SeatingCandidate => c.id.text) [] candidates
  ((unique.insertionSort SeatingCandidate.NotAfter).map (·.id)).take n

-- ---------------------------------------------------------------------------
-- The comparison is an order
-- ---------------------------------------------------------------------------

namespace SeatingCandidate

/-- The comparison says nothing but who outranks whom. -/
theorem notAfter_iff {a b : SeatingCandidate} : NotAfter a b ↔ ¬ b.Outranks a := by
  unfold NotAfter seatingOrder Outranks
  rw [ne_eq, Ordering.then_eq_gt, compare_gt_iff_gt, compare_gt_iff_gt, compare_eq_iff_eq]

/-- Two candidates neither of which outranks the other have one id. -/
theorem id_eq_of_notAfter {a b : SeatingCandidate} (hab : NotAfter a b) (hba : NotAfter b a) :
    a.id.text = b.id.text := by
  rw [notAfter_iff] at hab hba
  unfold Outranks at hab hba
  push Not at hab hba
  have hTier : a.tier.seatingPriority = b.tier.seatingPriority := by omega
  exact le_antisymm (hab.2 hTier.symm) (hba.2 hTier)

instance total_notAfter : Std.Total NotAfter where
  total a b := by
    rw [notAfter_iff, notAfter_iff]
    unfold Outranks
    push Not
    -- the tiers decide, and where they are equal the ids do
    rcases Nat.lt_trichotomy a.tier.seatingPriority b.tier.seatingPriority with hT | hT | hT
    · exact .inr ⟨by omega, by omega⟩
    · rcases le_total a.id.text b.id.text with hId | hId
      · exact .inl ⟨by omega, fun _ => hId⟩
      · exact .inr ⟨by omega, fun _ => hId⟩
    · exact .inl ⟨by omega, by omega⟩

instance trans_notAfter : IsTrans SeatingCandidate NotAfter where
  trans a b c hab hbc := by
    rw [notAfter_iff] at hab hbc ⊢
    unfold Outranks at hab hbc ⊢
    push Not at hab hbc ⊢
    refine ⟨by omega, ?_⟩
    intro hTier
    -- equal tiers at both ends leave `b` no other tier
    have hLeft : b.tier.seatingPriority = a.tier.seatingPriority := by omega
    have hRight : c.tier.seatingPriority = b.tier.seatingPriority := by omega
    exact le_trans (hab.2 hLeft) (hbc.2 hRight)

end SeatingCandidate

-- ---------------------------------------------------------------------------
-- What the seating guarantees
-- ---------------------------------------------------------------------------

/-- A roster of `n` seats filled from the candidates as the tiers want it. -/
structure FairlySeated (candidates : List SeatingCandidate) (n : ℕ) (seats : List NodeId) :
    Prop where
  distinct : seats.Nodup
  members : ∀ id ∈ seats, ∃ c ∈ candidates, c.id = id
  filled : seats.length = min n candidates.length
  fair : ∀ c ∈ candidates, c.id ∉ seats → ∀ d ∈ candidates, d.id ∈ seats → ¬ c.Outranks d

/-- The seats are the ids of the best `n` candidates. -/
theorem seatGenesisByTier_eq (candidates : List SeatingCandidate) (n : ℕ) :
    seatGenesisByTier candidates n =
      (Ranking.best SeatingCandidate.NotAfter n
        (Ranking.firsts (fun c : SeatingCandidate => c.id.text) [] candidates)).map (·.id) := by
  unfold seatGenesisByTier Ranking.best
  exact (List.map_take ..).symm

/-- The seating does not depend on the order of the candidates, as long as no id is listed
with two tiers. -/
theorem seatGenesisByTier_perm {candidates other : List SeatingCandidate}
    (hPerm : other.Perm candidates)
    (hOneTier : ∀ c ∈ candidates, ∀ d ∈ candidates, c.id = d.id → c = d) (n : ℕ) :
    seatGenesisByTier other n = seatGenesisByTier candidates n := by
  have hKeys : ∀ c ∈ candidates, ∀ d ∈ candidates, c.id.text = d.id.text → c = d :=
    fun c hc d hd hText => hOneTier c hc d hd (congrArg NodeId.mk hText)
  have hFirsts := Ranking.firsts_perm hPerm.symm hKeys
  rw [seatGenesisByTier_eq, seatGenesisByTier_eq]
  refine congrArg _ (Ranking.best_eq_of_perm hFirsts ?_ n).symm
  intro a ha b hb hab hba
  exact hKeys a (Ranking.mem_of_mem_firsts ha).1 b (Ranking.mem_of_mem_firsts hb).1
    (SeatingCandidate.id_eq_of_notAfter hab hba)

section Distinct

variable {candidates : List SeatingCandidate} (hDistinct : (candidates.map (·.id)).Nodup)
include hDistinct

/-- An id names one candidate. -/
theorem candidate_eq_of_id_eq {c d : SeatingCandidate} (hc : c ∈ candidates)
    (hd : d ∈ candidates) (h : c.id = d.id) : c = d :=
  List.inj_on_of_nodup_map hDistinct hc hd h

/-- Without a repeated id every candidate takes part. -/
theorem seatGenesisByTier_eq_best (n : ℕ) :
    seatGenesisByTier candidates n =
      (Ranking.best SeatingCandidate.NotAfter n candidates).map (·.id) := by
  have hTexts : (candidates.map fun c => c.id.text).Nodup := by
    have hMap : candidates.map (fun c => c.id.text) = (candidates.map (·.id)).map (·.text) := by
      rw [List.map_map]
      rfl
    rw [hMap]
    exact hDistinct.map fun _ _ hText => congrArg NodeId.mk hText
  rw [seatGenesisByTier_eq, Ranking.firsts_eq_self hTexts fun _ _ => List.not_mem_nil]

/-- A seated id is that of one of the best. -/
theorem mem_best_of_seated {n : ℕ} {d : SeatingCandidate} (hd : d ∈ candidates)
    (h : d.id ∈ seatGenesisByTier candidates n) :
    d ∈ Ranking.best SeatingCandidate.NotAfter n candidates := by
  rw [seatGenesisByTier_eq_best hDistinct] at h
  obtain ⟨e, he, hId⟩ := List.mem_map.mp h
  rwa [← candidate_eq_of_id_eq hDistinct (Ranking.mem_of_mem_best he) hd hId]

theorem seated_fairly (n : ℕ) : FairlySeated candidates n (seatGenesisByTier candidates n) where
  distinct := by
    rw [seatGenesisByTier_eq_best hDistinct]
    exact Ranking.best_map_nodup hDistinct n
  members id hId := by
    rw [seatGenesisByTier_eq_best hDistinct] at hId
    obtain ⟨c, hc, hEq⟩ := List.mem_map.mp hId
    exact ⟨c, Ranking.mem_of_mem_best hc, hEq⟩
  filled := by
    rw [seatGenesisByTier_eq_best hDistinct, List.length_map, Ranking.best_length]
  fair c hc hUnseated d hd hSeated := by
    -- ids are distinct, so a seated id is the seat of one candidate
    have hBest := mem_best_of_seated hDistinct hd hSeated
    have hLeft : c ∉ Ranking.best SeatingCandidate.NotAfter n candidates := by
      intro hTaken
      rw [seatGenesisByTier_eq_best hDistinct] at hUnseated
      exact hUnseated (List.mem_map.mpr ⟨c, hTaken, rfl⟩)
    exact SeatingCandidate.notAfter_iff.mp (Ranking.rel_of_mem_best hBest hc hLeft)

end Distinct

/-- Genesis seating is fair, and the same for every order of the candidates. -/
theorem seat_genesis_by_tier_agreed_and_fair {candidates : List SeatingCandidate}
    (hDistinct : (candidates.map (·.id)).Nodup) (n : ℕ) :
    FairlySeated candidates n (seatGenesisByTier candidates n) ∧
      ∀ other : List SeatingCandidate, other.Perm candidates →
        seatGenesisByTier other n = seatGenesisByTier candidates n := by
  refine ⟨seated_fairly hDistinct n, ?_⟩
  intro other hPerm
  exact seatGenesisByTier_perm hPerm
    (fun c hc d hd hId => candidate_eq_of_id_eq hDistinct hc hd hId) n

/-- A mixed roster, in the order in which one node lists it. -/
def mixedRoster : List SeatingCandidate :=
  [⟨⟨"vault-d2"⟩, .domestic⟩, ⟨⟨"vault-s1"⟩, .sgx⟩, ⟨⟨"vault-e1"⟩, .sev⟩, ⟨⟨"vault-d1"⟩, .domestic⟩]

theorem seat_genesis_mixed_roster :
    FairlySeated mixedRoster 3 (seatGenesisByTier mixedRoster 3) ∧
      ∀ other : List SeatingCandidate, other.Perm mixedRoster →
        seatGenesisByTier other 3 = seatGenesisByTier mixedRoster 3 :=
  seat_genesis_by_tier_agreed_and_fair (by decide) 3

example : seatGenesisByTier mixedRoster 3 = [⟨"vault-e1"⟩, ⟨"vault-s1"⟩, ⟨"vault-d1"⟩] := by
  decide +kernel

end KeroseneVault
