import Mathlib.Data.Fintype.Card
import KeroseneVault.Domain.Basic

/-!
# Membership of a mesh

Who is in the mesh and how many acknowledgements a quorum takes. Every node's
transport is configured with all the other nodes as peers.
-/

namespace KeroseneVault

/-- `quorum_t` of `QuorumBucketLedger::from_local` and of
`QuorumAntiNonce::from_local`: `n = 1 + peer_count`, `t = ⌈2n/3⌉`, and 1 for a
node on its own. -/
def quorumT (peerCount : Nat) : Nat :=
  if peerCount = 0 then 1 else max (quorumTwoThirds (peerCount + 1)) 1

/-- Two quorums of one mesh overlap. -/
theorem lt_two_mul_quorumT (peerCount : Nat) : peerCount + 1 < 2 * quorumT peerCount := by
  unfold quorumT
  split
  · omega
  · have := lt_two_mul_quorumTwoThirds (n := peerCount + 1) (by omega)
    omega

/-- Each node's peers are all the other nodes, in some order. -/
structure Membership (Node : Type) where
  peers : Node → List Node
  nodup : ∀ a, (peers a).Nodup
  mem_peers : ∀ a b, b ∈ peers a ↔ b ≠ a

namespace Membership

variable {Node : Type}

/-- `quorum_t` of the node's ledger. -/
def quorum (M : Membership Node) (a : Node) : Nat := quorumT (M.peers a).length

variable [Fintype Node] [DecidableEq Node]

/-- A node counts itself and its peers: the whole mesh. -/
theorem card_eq (M : Membership Node) (a : Node) :
    Fintype.card Node = (M.peers a).length + 1 := by
  have hFinset : (M.peers a).toFinset = Finset.univ.erase a := by
    ext b
    simp [M.mem_peers a b]
  have hCard := congrArg Finset.card hFinset
  rw [List.toFinset_card_of_nodup (M.nodup a), Finset.card_erase_of_mem (Finset.mem_univ a),
    Finset.card_univ] at hCard
  have hPos : 0 < Fintype.card Node := Fintype.card_pos_iff.mpr ⟨a⟩
  omega

/-- Two quorums of the mesh overlap. -/
theorem card_lt_two_mul_quorum (M : Membership Node) (a : Node) :
    Fintype.card Node < 2 * M.quorum a := by
  rw [M.card_eq a]
  exact lt_two_mul_quorumT _

/-- Every node works with the same quorum. -/
theorem quorum_eq (M : Membership Node) (a b : Node) : M.quorum a = M.quorum b := by
  have hEq : (M.peers a).length = (M.peers b).length := by
    have := M.card_eq a
    have := M.card_eq b
    omega
  rw [quorum, quorum, hEq]

end Membership

/-! ## A mesh of three -/

/-- The nodes of a mesh of three. -/
inductive Trio where
  | alpha
  | beta
  | gamma
  deriving DecidableEq

instance : Fintype Trio := ⟨{.alpha, .beta, .gamma}, by rintro ⟨⟩ <;> simp⟩

/-- Three nodes, each with the other two as peers. -/
def trio : Membership Trio where
  peers
    | .alpha => [.beta, .gamma]
    | .beta => [.gamma, .alpha]
    | .gamma => [.alpha, .beta]
  nodup := by decide
  mem_peers := by decide

end KeroseneVault
