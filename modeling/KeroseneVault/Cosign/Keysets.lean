import KeroseneVault.Cosign.Availability

/-!
# The two keysets

A node in `distributed_wire` mode has a Taproot share for USERS and another
for CHANNELS, and an orchestrator over each. Both orchestrators use one
co-sign transport, and the co-sign peer of a node is wired to the USERS slot
alone: the requests do not say which keyset is meant.

* `TrKeysets`, `TrKeyset` — the two keysets and which of them is meant;
* `wireNode` — the share slots of a node's orchestrators and of its peer;
* `CosignComplete` — every peer contributes with its share of the keyset the
  coordinator signs with, and the signature verifies under its key.

Main results:

* `commitCall_key`, `signCall_key` — a peer uses what its slot holds;
* `cosignComplete_iff` — co-signing is complete exactly for USERS, or where
  the shares of the two keysets are the same;
* `channels_not_cosignComplete` — two nodes whose shares differ.
-/

namespace KeroseneVault

open Coordinator

/-! ## Wiring -/

/-- The two Taproot keysets of a mesh. -/
structure TrKeysets (F : FrostTr) (W : FrostTrCoordinator F) where
  users : Keyset F W
  channels : Keyset F W

inductive TrKeyset where
  | users
  | channels
  deriving DecidableEq

def TrKeysets.of {F : FrostTr} {W : FrostTrCoordinator F} (M : TrKeysets F W) :
    TrKeyset → Keyset F W
  | .users => M.users
  | .channels => M.channels

/-- The share slots of a node: `frost_tr`, `frost_tr_channels` and
`tr_cosign_peer`. -/
structure NodeWiring (F : FrostTr) (W : FrostTrCoordinator F) where
  frostTr : FrostTrShareState F W
  frostTrChannels : FrostTrShareState F W
  trCosignPeer : FrostTrShareState F W

/-- The wiring of the node with share `i`: there is one co-sign peer, over
`frost_tr_shares`. -/
def wireNode {F : FrostTr} {W : FrostTrCoordinator F} (M : TrKeysets F W) (i : F.Identifier) :
    NodeWiring F W :=
  let frostTrShares := M.users.state i
  let frostTrChannelsShares := M.channels.state i
  ⟨frostTrShares, frostTrChannelsShares, frostTrShares⟩

/-- The slot of the orchestrator that signs with a keyset. -/
def NodeWiring.orchestrator {F : FrostTr} {W : FrostTrCoordinator F} (N : NodeWiring F W) :
    TrKeyset → FrostTrShareState F W
  | .users => N.frostTr
  | .channels => N.frostTrChannels

theorem wireNode_orchestrator {F : FrostTr} {W : FrostTrCoordinator F} (M : TrKeysets F W)
    (i : F.Identifier) (which : TrKeyset) :
    (wireNode M i).orchestrator which = (M.of which).state i := by
  rcases which with _ | _ <;> rfl

/-! ## What a peer contributes with -/

section Contribution

variable {F : FrostTr} {W : FrostTrCoordinator F}

/-- The surroundings of a request at the co-sign peer of a node. -/
def NodeWiring.peerEnv (N : NodeWiring F W) (randomness : Nat) : CosignEnv F :=
  ⟨.ok N.trCosignPeer.keyPackages, randomness, none⟩

/-- A commitment is made with the tweaked share of the slot. -/
theorem commitCall_key {env : CosignEnv F} (id : F.Identifier) {key : F.KeyPackage}
    (hKey : env.keyPackages = .ok [(id, key)]) {req : TrCommitRequest}
    {c : TrCosignPeerState.CommitCall F} (h : TrCosignPeerState.commitCall env req = .ok c) :
    c.key = F.tweak key := by
  unfold TrCosignPeerState.commitCall TrCosignPeerState.localKeyPackage at h
  rw [hKey] at h
  split at h
  · cases h
  · cases h
    rfl

/-- And so is a signature share. -/
theorem signCall_key {env : CosignEnv F} (id : F.Identifier) {key : F.KeyPackage}
    (hKey : env.keyPackages = .ok [(id, key)]) {req : TrSignShareRequest}
    {peer : TrCosignPeerState F} {round : PendingTrRound F} {c : TrCosignPeerState.SignCall F}
    (h : TrCosignPeerState.signCall env req peer = some (round, c)) : c.key = F.tweak key := by
  unfold TrCosignPeerState.signCall TrCosignPeerState.prepareSign
    TrCosignPeerState.localKeyPackage at h
  rw [hKey] at h
  split at h
  · cases h
  · split at h
    · cases h
    · split at h
      · rename_i round' hRound c' hCall
        obtain ⟨-, rfl⟩ := Prod.mk.inj (Option.some.inj h)
        -- one refusal after the other does not apply
        split at hCall
        · cases hCall
        · split at hCall
          · cases hCall
          · split at hCall
            · cases hCall
            · split at hCall
              · cases hCall
              · dsimp only at hCall
                split at hCall
                · cases hCall
                · cases hCall
                  rfl
      · cases h

/-! ## Completeness -/

/-- What a run asks of the mesh: each peer commits and signs with its share of
the keyset the coordinator signs with, and the run returns a signature that
verifies under the coordinator's tweaked key of that keyset. -/
structure CosignComplete (M : TrKeysets F W) (which : TrKeyset) (G : CosignGroup F)
    (r : F.Identifier → Nat) (sha2First16 : List UInt8 → List UInt8) (message : List UInt8)
    (T : TrCosignTransport) : Prop where
  commits : ∀ i ∈ G.peers, ∀ req c,
    TrCosignPeerState.commitCall ((wireNode M i).peerEnv (r i)) req = .ok c →
      c.key = F.tweak ((M.of which).key i)
  signs : ∀ i ∈ G.peers, ∀ req peer round c,
    TrCosignPeerState.signCall ((wireNode M i).peerEnv (r i)) req peer = some (round, c) →
      c.key = F.tweak ((M.of which).key i)
  verifies : ∃ signature, signRawQuorum W sha2First16
      (.ok ((wireNode M G.localId).orchestrator which)) (some T) (G.name G.localId) message
      (r G.localId) = .ok signature ∧
    W.verify (W.tweakPubkey ((wireNode M G.localId).orchestrator which).pubkeyPackage) message
      signature = .ok ()

variable {net : CosignNet} {G : CosignGroup F} {r : F.Identifier → Nat}
  {pending : F.Identifier → Table String (PendingTrRound F)} {round1 round2 : F.Identifier → Reach}
  {sha2First16 : List UInt8 → List UInt8} {message : List UInt8} {maxRetries : Nat}

/--
**Completeness, exactly.** With all peers honest and up, co-signing with a
keyset is complete exactly when the USERS share of each peer is its share of
that keyset: always for USERS, and for CHANNELS only where the two shares of
each peer are the same.
-/
theorem cosignComplete_iff (hLaws : FrostLaws W) (M : TrKeysets F W) (which : TrKeyset)
    (hK : (M.of which).Correct (G.localId :: G.peers))
    (ht : (M.of which).threshold ≤ G.peers.length + 1)
    (hNet : Serves net G (fun i => M.users.key i) r pending round1 round2
      ⟨trWireSession F sha2First16 message, F.hexEncode message, G.name G.localId⟩)
    (hUp : ∀ i ∈ G.peers, (round1 i).Up maxRetries ∧ (round2 i).Up maxRetries) :
    CosignComplete M which G r sha2First16 message ((G.transport maxRetries).toTransport net) ↔
      ∀ i ∈ G.peers, F.tweak (M.users.key i) = F.tweak ((M.of which).key i) := by
  constructor
  · intro h i hi
    -- the commit request of the run is answered with the USERS share
    have hCall : TrCosignPeerState.commitCall ((wireNode M i).peerEnv (r i))
        ⟨trWireSession F sha2First16 message, F.hexEncode message, G.name G.localId⟩ =
          .ok ⟨i, F.tweak (M.users.key i), message⟩ := by
      unfold TrCosignPeerState.commitCall
      simp only [hLaws.hex]
      rfl
    exact h.commits i hi _ _ hCall
  · intro hKey
    refine ⟨fun i hi req c hCall => ?_, fun i hi req peer round c hCall => ?_, ?_⟩
    · exact (commitCall_key i rfl hCall).trans (hKey i hi)
    · exact (signCall_key i rfl hCall).trans (hKey i hi)
    · obtain ⟨signature, hSigned⟩ := signRawWire_up hLaws hK ht hNet hKey
        (fun i hi => (hUp i hi).1) fun i hi => (hUp i (G.lowest_subset _ hi)).2
      obtain ⟨_, _, _, attributed, -, -, -, hDone, hSignature⟩ :=
        (signRawWire_ok_iff W G.localId ((M.of which).key G.localId) rfl).mp hSigned
      rw [wireNode_orchestrator]
      exact ⟨signature, hSigned, hSignature ▸ aggregateShares_verified W hDone⟩

end Contribution

/-! ## Two nodes with different shares -/

/-- Two nodes; the first coordinates. -/
def twoNodes : CosignGroup plainFrost where
  localId := (1 : UInt8)
  peers := [(2 : UInt8)]
  name (i : UInt8) := if i = 1 then "vault-1" else "vault-2"
  base _ := "https://vault-2"
  nodup := by decide
  name_inj := by decide

/-- Two keysets of threshold two. -/
def twoKeysets : TrKeysets plainFrost plainCoordinator :=
  ⟨plainKeyset (fun i => 10 * i) 2, plainKeyset (fun i => 20 * i) 2⟩

/-- The mesh of the two nodes. -/
def twoNodesNet : CosignNet :=
  twoNodes.network twoKeysets.users.key (fun _ => 5) (fun _ => ∅) (fun _ => .up 0) (fun _ => .up 0)
    ⟨trWireSession plainFrost (List.take 16) [7], hexText [7], "vault-1"⟩

theorem cosignComplete_iff_twoNodes :
    CosignComplete twoKeysets .users twoNodes (fun _ => 5) (List.take 16) [7]
        ((twoNodes.transport 3).toTransport twoNodesNet) ↔
      ∀ i ∈ twoNodes.peers, plainFrost.tweak (twoKeysets.users.key i) =
        plainFrost.tweak ((twoKeysets.of .users).key i) :=
  cosignComplete_iff plainFrost_laws twoKeysets .users (plainKeyset_correct (by decide) _)
    (by decide) (twoNodes.serves_network _ _ _ _ _ _)
    (fun _ _ => ⟨(by decide : (Reach.up 0).Up 3), (by decide : (Reach.up 0).Up 3)⟩)

/-- A coordinator that signs with CHANNELS gets a USERS contribution. -/
theorem channels_not_cosignComplete :
    ¬ CosignComplete twoKeysets .channels twoNodes (fun _ => 5) (List.take 16) [7]
      ((twoNodes.transport 3).toTransport twoNodesNet) := by
  rintro ⟨-, -, signature, hSigned, -⟩
  have hFails : (signRawQuorum plainCoordinator (List.take 16)
      (.ok ((wireNode twoKeysets (1 : UInt8)).orchestrator .channels))
      (some ((twoNodes.transport 3).toTransport twoNodesNet)) "vault-1" [7] 5).isOk = false := by
    decide +kernel
  have hSigned : signRawQuorum plainCoordinator (List.take 16)
      (.ok ((wireNode twoKeysets (1 : UInt8)).orchestrator .channels))
      (some ((twoNodes.transport 3).toTransport twoNodesNet)) "vault-1" [7] 5 = .ok signature :=
    hSigned
  rw [hSigned] at hFails
  cases hFails

end KeroseneVault
