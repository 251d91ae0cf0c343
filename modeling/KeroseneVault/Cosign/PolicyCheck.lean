import KeroseneVault.Cosign.Peer
import KeroseneVault.Domain.PsbtPolicy
import KeroseneVault.Lib.Runs
import KeroseneVault.Domain.Hex

/-!
# Shares and the PSBT policy

`validate_independent` is meant to run on each vault before it releases a FROST
sign share. The co-sign handlers never call it: they see a message as bytes and
check only that the signing package carries the message of the commit. Here
every node has a record of what it accepted with `validate_independent` and of
the messages it released shares for, under any sequence of commit and
sign-share requests to any nodes of the mesh.

* `Acceptance` — a PSBT with the policy and the intent it passed for;
* `PolicyChecked` — shares are for accepted PSBTs only, so no group signature
  is for one that `min_signers - 1` peers refuse;
* `NoShare` — the condition: the request gets no share.

Main results:

* `policyChecked_iff_noShare` — a run keeps the law exactly when none of its
  requests gets a share;
* `not_policyChecked_of_commit` — a commit over any message breaks it;
* `anyMessage_not_policyChecked` — a coordinator that picks its own message.
-/

namespace KeroseneVault

/-! ## Nodes -/

/-- A PSBT that passed `validate_independent` for an intent. -/
structure Acceptance where
  policy : PsbtPolicy
  psbt : Psbt
  intentId : String
  paymentScript : Script
  amountSats : Nat
  changeScript : Script
  passed : policy.validateIndependent psbt paymentScript amountSats (some changeScript) = .ok ()

/-- What an acceptance is worth. -/
theorem Acceptance.payout_le (a : Acceptance) :
    payout a.changeScript (a.psbt.outputs.map fun o => (o.scriptPubkey, o.value)) ≤ a.amountSats :=
  (PsbtPolicy.validateIndependent_ok a.passed).2

/-- A co-sign peer, what its node accepted for the intents it had reserved, and
the messages it released shares for. -/
structure CosignNode (F : FrostTr) where
  peer : TrCosignPeerState F
  accepted : List Acceptance
  released : List (List UInt8)

inductive CosignOp where
  | commit (req : TrCommitRequest)
  | signShare (req : TrSignShareRequest)

/-- A request to one node of the mesh, from whichever peer. -/
structure CosignCall (F : FrostTr) where
  node : String
  env : CosignEnv F
  op : CosignOp

/-- The nodes of the mesh by their ids. -/
abbrev CosignMesh (F : FrostTr) := String → CosignNode F

section Steps

variable {F : FrostTr}

namespace CosignNode

/-- `v1_frost_tr_commit`. -/
def commit (env : CosignEnv F) (req : TrCommitRequest) (n : CosignNode F) : CosignNode F :=
  { n with peer := (n.peer.handleCommit env req).2 }

/-- `v1_frost_tr_sign_share`: a share is for the message the session waited with. -/
def signShare (env : CosignEnv F) (req : TrSignShareRequest) (n : CosignNode F) : CosignNode F :=
  let r := n.peer.handleSignShare env req
  { n with
    peer := r.2
    released :=
      match n.peer.pending.lookup req.sessionId, r.1 with
      | some round, .ok (some _) => round.message :: n.released
      | _, _ => n.released }

def step (env : CosignEnv F) (n : CosignNode F) : CosignOp → CosignNode F
  | .commit req => n.commit env req
  | .signShare req => n.signShare env req

end CosignNode

namespace CosignMesh

def step (mesh : CosignMesh F) (c : CosignCall F) : CosignMesh F :=
  Function.update mesh c.node ((mesh c.node).step c.env c.op)

/-- Nodes that just started. -/
def start : CosignMesh F := fun id => ⟨⟨id, ∅⟩, [], []⟩

end CosignMesh

end Steps

/-! ## The law -/

section Law

variable {F : FrostTr} (sighash : Psbt → Nat → Option (List UInt8)) (minSigners : Nat)

/-- The message is the taproot sighash of an input of a PSBT the node accepted. -/
def CosignNode.Accepted (n : CosignNode F) (message : List UInt8) : Prop :=
  ∃ a ∈ n.accepted, ∃ input, sighash a.psbt input = some message

/-- Shares are for accepted messages, and a coordinator with the shares of
`min_signers - 1` peers for one message has one of them that accepted it. -/
structure PolicyChecked (mesh : CosignMesh F) : Prop where
  shares : ∀ id, ∀ message ∈ (mesh id).released, (mesh id).Accepted sighash message
  signature : 2 ≤ minSigners → ∀ (message : List UInt8) (peers : Finset String),
    peers.card + 1 = minSigners → (∀ id ∈ peers, message ∈ (mesh id).released) →
      ∃ id ∈ peers, (mesh id).Accepted sighash message

/-- The request gets no share. -/
def NoShare (mesh : CosignMesh F) (c : CosignCall F) : Prop :=
  match c.op with
  | .commit _ => True
  | .signShare req => ∀ message, ¬ (mesh c.node).peer.Answers c.env req message

/-- Where nothing was accepted the law allows no share at all. -/
theorem policyChecked_iff_released {mesh : CosignMesh F} (h : ∀ id, (mesh id).accepted = []) :
    PolicyChecked sighash minSigners mesh ↔ ∀ id, (mesh id).released = [] := by
  have hRefuses : ∀ id message, ¬ (mesh id).Accepted sighash message := by
    rintro id message ⟨a, ha, -⟩
    rw [h id] at ha
    cases ha
  constructor
  · intro hLaw id
    rw [List.eq_nil_iff_forall_not_mem]
    intro message hMessage
    exact hRefuses id message (hLaw.shares id message hMessage)
  · intro hNone
    constructor
    · intro id message hMessage
      rw [hNone id] at hMessage
      cases hMessage
    · intro hTwo message peers hCard hAll
      -- one peer at least, and it released nothing
      obtain ⟨id, hId⟩ := Finset.card_pos.mp (show 0 < peers.card by omega)
      have hMessage := hAll id hId
      rw [hNone id] at hMessage
      cases hMessage

/-- No request makes a node accept anything. -/
theorem CosignMesh.step_accepted {mesh : CosignMesh F} (h : ∀ id, (mesh id).accepted = [])
    (c : CosignCall F) (id : String) : (mesh.step c id).accepted = [] := by
  by_cases hNode : id = c.node
  · subst hNode
    simp only [CosignMesh.step, Function.update_self]
    cases c.op with
    | commit req => exact h _
    | signShare req => exact h _
  · rw [CosignMesh.step, Function.update_of_ne hNode]
    exact h id

/-- What a sign-share request adds to the released messages. -/
theorem CosignNode.signShare_released (env : CosignEnv F) (req : TrSignShareRequest)
    (n : CosignNode F) :
    (∃ message, n.peer.Answers env req message ∧
      (n.signShare env req).released = message :: n.released) ∨
    ((∀ message, ¬ n.peer.Answers env req message) ∧
      (n.signShare env req).released = n.released) := by
  simp only [CosignNode.signShare, TrCosignPeerState.answers_iff]
  generalize (n.peer.handleSignShare env req).1 = answer
  cases n.peer.pending.lookup req.sessionId with
  | none => exact Or.inr ⟨by simp, rfl⟩
  | some round =>
    match answer with
    | .error e => exact Or.inr ⟨by simp, rfl⟩
    | .ok none => exact Or.inr ⟨by simp, rfl⟩
    | .ok (some response) => exact Or.inl ⟨round.message, by simp, rfl⟩

/-- A step from a mesh without shares leaves it without exactly when the
request gets none. -/
theorem CosignMesh.step_released {mesh : CosignMesh F} (h : ∀ id, (mesh id).released = [])
    (c : CosignCall F) : (∀ id, (mesh.step c id).released = []) ↔ NoShare mesh c := by
  have hOthers : (∀ id, (mesh.step c id).released = []) ↔
      ((mesh c.node).step c.env c.op).released = [] := by
    constructor
    · intro hAll
      have hNode := hAll c.node
      rwa [CosignMesh.step, Function.update_self] at hNode
    · intro hNode id
      by_cases hId : id = c.node
      · subst hId
        rwa [CosignMesh.step, Function.update_self]
      · rw [CosignMesh.step, Function.update_of_ne hId]
        exact h id
  -- only the node that was asked can have released one, and only for a sign-share
  rw [hOthers, NoShare]
  cases c.op with
  | commit req => exact iff_true_intro (h c.node)
  | signShare req =>
    show ((mesh c.node).signShare c.env req).released = [] ↔ _
    rcases (mesh c.node).signShare_released c.env req with ⟨message, hAnswers, hReleased⟩ |
        ⟨hNone, hReleased⟩
    · rw [hReleased]
      exact iff_of_false (List.cons_ne_nil _ _) fun hNo => hNo message hAnswers
    · rw [hReleased]
      exact iff_of_true (h c.node) hNone

/--
**Shares and the policy.** A run of commit and sign-share requests keeps the
law in all its states exactly when none of its requests gets a share: whatever
the message is, nothing was accepted for it.
-/
theorem policyChecked_iff_noShare (calls : List (CosignCall F)) :
    Runs.EveryState CosignMesh.step (PolicyChecked sighash minSigners) (CosignMesh.start (F := F))
        calls ↔
      Runs.EveryStep CosignMesh.step NoShare (CosignMesh.start (F := F)) calls := by
  have hFresh : ∀ id, (CosignMesh.start (F := F) id).accepted = [] := fun _ => rfl
  refine Runs.everyState_iff_everyStep (J := fun mesh => ∀ id, (mesh id).accepted = []) ?_ ?_ hFresh
    ?_ calls
  · exact fun mesh c h => CosignMesh.step_accepted h c
  · intro mesh c h hLaw
    rw [policyChecked_iff_released sighash minSigners (CosignMesh.step_accepted h c)]
    rw [policyChecked_iff_released sighash minSigners h] at hLaw
    exact CosignMesh.step_released hLaw c
  · rw [policyChecked_iff_released sighash minSigners hFresh]
    exact fun _ => rfl

/-- Whatever the message, an accepted commit for it and a request with a good
package break the law. -/
theorem not_policyChecked_of_commit {id : String} {env env' : CosignEnv F}
    {commit : TrCommitRequest} {req : TrSignShareRequest} {response : TrCommitResponse}
    (hCommit : (TrCosignPeerState.handleCommit env commit ⟨id, ∅⟩).1 = .ok response)
    (hSession : req.sessionId = commit.sessionId)
    (hNamed : req.participantNodeIds = [] ∨ id ∈ req.participantNodeIds)
    (hSigns : ∀ round, (TrCosignPeerState.handleCommit env commit ⟨id, ∅⟩).2.pending.lookup
      commit.sessionId = some round → TrCosignPeerState.Signs env' req round) :
    ¬ Runs.EveryState CosignMesh.step (PolicyChecked sighash minSigners) (CosignMesh.start (F := F))
      [⟨id, env, .commit commit⟩, ⟨id, env', .signShare req⟩] := by
  rw [policyChecked_iff_noShare]
  rintro ⟨-, hNone, -⟩
  obtain ⟨message, -, hAnswers⟩ :=
    TrCosignPeerState.answers_after_commit hCommit hSession hNamed hSigns
  refine hNone message ?_
  have hPeer : (CosignMesh.step (CosignMesh.start (F := F)) ⟨id, env, .commit commit⟩ id).peer =
      (TrCosignPeerState.handleCommit env commit ⟨id, ∅⟩).2 := by
    rw [CosignMesh.step, Function.update_self]
    rfl
  rw [hPeer]
  exact hAnswers

end Law

/-! ## A coordinator that picks its own message -/

/-- Numbers in place of curve points: a package is one signer, its commitment
and the message; a share is the sum of nonce and key. -/
def sumFrost : FrostTr where
  Identifier := Nat
  KeyPackage := Nat
  Nonces := Nat
  Commitments := Nat
  Share := Nat
  decIdentifier := inferInstance
  tweak key := key
  commit _ randomness := (randomness, randomness)
  serializeCommitments c := .ok [UInt8.ofNat c]
  deserializePackage
    | id :: c :: message => .ok ⟨message, [(id.toNat, c.toNat)]⟩
    | _ => .error "unexpected end of input"
  sign _ nonces key := .ok (nonces + key)
  identifierBytes id := [UInt8.ofNat id]
  shareBytes share := [UInt8.ofNat share]
  hexDecode s := hexPairs s.toList
  hexEncode bytes := String.ofList (bytes.flatMap fun b =>
    [Nat.digitChar (b.toNat / 16), Nat.digitChar (b.toNat % 16)])

/-- `vault-1` asks `vault-2` to commit to 32 bytes of its own choice and then
for its share. -/
def anyMessage : List (CosignCall sumFrost) :=
  let message := "0707070707070707070707070707070707070707070707070707070707070707"
  let env : CosignEnv sumFrost := ⟨.ok [((2 : Nat), (11 : Nat))], 5, none⟩
  [⟨"vault-2", env, .commit ⟨"session-1", message, "vault-1"⟩⟩,
    ⟨"vault-2", env, .signShare ⟨"session-1", "0205" ++ message, ["vault-2"]⟩⟩]

/-- It gets the share although `vault-2` accepted nothing, were the message the
sighash of every PSBT there is. -/
theorem anyMessage_not_policyChecked :
    ¬ Runs.EveryState CosignMesh.step (PolicyChecked (fun _ _ => some (List.replicate 32 7)) 2)
      CosignMesh.start anyMessage := by
  intro h
  have hReleased : List.replicate 32 7 ∈
      (Runs.run CosignMesh.step CosignMesh.start anyMessage "vault-2").released := by decide +kernel
  obtain ⟨a, hAccepted, -⟩ := h.last.shares "vault-2" _ hReleased
  have hNothing :
      (Runs.run CosignMesh.step CosignMesh.start anyMessage "vault-2").accepted = [] := rfl
  rw [hNothing] at hAccepted
  cases hAccepted

end KeroseneVault
