import KeroseneVault.Cosign.Keysets
import KeroseneVault.Cosign.SignPsbt

/-!
# The signers of a node

The Intent signer and the Taproot signers of the USERS and CHANNELS keys share one
anti-nonce store and one rotation. A session id is claimed by the first call that
names it, whichever signer the call is for, and is spent also where the call fails.

* `SignNode.step` — one call of a signer, another use of the store, or a restart on
  the same log;
* `claims`, `signatures` — the sessions that a life claims, and those it signs.

Main result: `sessions_sign_once` — over a whole life, restarts included, a session
id that its log line gives back is claimed at most once, and so is answered with one
signature at most.
-/

namespace KeroseneVault

open PersistedAntiNonce
open FrostTrBitcoinOrchestrator (TrSignWorld)

/-- The signers of a node. -/
structure SignNode (S : FrostSigning) where
  antiNonce : SigningAntiNonce
  rotation : DayNode
  intent : FrostSignOrchestrator S
  users : FrostTrBitcoinOrchestrator
  channels : FrostTrBitcoinOrchestrator

/-- A call of a signer, a use of the store by others, or a restart. -/
inductive SignNodeCall (S : FrostSigning) (F : FrostTr) (W : FrostTrCoordinator F) where
  | signLabQuorum (w : SignWorld S) (sessionId : String) (message : List UInt8)
  | signPsbt (key : TrKeyset) (w : TrSignWorld F W) (sessionId psbtB64 destination : String)
      (amountSats : Nat)
  | signSighash (key : TrKeyset) (w : TrSignWorld F W) (sessionId : String)
      (sighash32 : List UInt8)
  | prepare (disk : Disk) (sessionId : String)
  | prepareSoft (now : Nat) (sessionId : String)
  | isConsumed (now : Nat) (sessionId : String)
  | rotate (calls : List DayCall)
  | restart (rotation : DayNode) (quorumT : Option Nat)

namespace SignNode

variable {S : FrostSigning} {F : FrostTr} {W : FrostTrCoordinator F} (B : BitcoinTr F W)

/-- The Intent signer over the store and the rotation of the node. -/
def intentSigner (s : SignNode S) : FrostSignOrchestrator S :=
  { s.intent with antiNonce := s.antiNonce, rotation := s.rotation }

/-- A Taproot signer over the store and the rotation of the node. -/
def trSigner (s : SignNode S) (key : TrKeyset) : FrostTrBitcoinOrchestrator :=
  let o := match key with
    | .users => s.users
    | .channels => s.channels
  { o with antiNonce := s.antiNonce, rotation := s.rotation }

def setStore (s : SignNode S) (store : PersistedAntiNonce) : SignNode S :=
  { s with antiNonce := { s.antiNonce with store := store } }

def step (s : SignNode S) : SignNodeCall S F W → SignNode S
  | .signLabQuorum w sessionId message =>
    let o := (s.intentSigner.signLabQuorum w sessionId message).2
    { s with antiNonce := o.antiNonce, rotation := o.rotation }
  | .signPsbt key w sessionId psbtB64 destination amountSats =>
    let o := ((s.trSigner key).signPsbt B w sessionId psbtB64 destination amountSats).2
    { s with antiNonce := o.antiNonce, rotation := o.rotation }
  | .signSighash key w sessionId sighash32 =>
    let o := ((s.trSigner key).signSighash B w sessionId sighash32).2
    { s with antiNonce := o.antiNonce, rotation := o.rotation }
  | .prepare disk sessionId => s.setStore (s.antiNonce.store.prepare disk sessionId).2
  | .prepareSoft now sessionId => s.setStore (s.antiNonce.store.prepareSoft now sessionId).2
  | .isConsumed now sessionId => s.setStore (s.antiNonce.store.isConsumed now sessionId).2
  | .rotate calls => { s with rotation := Runs.run DayNode.step s.rotation calls }
  | .restart rotation quorumT => { s with
      antiNonce := ⟨openStore s.antiNonce.store.log, quorumT⟩
      rotation := rotation }

/-- The session of a call whose claim goes through. -/
def claimed (s : SignNode S) : SignNodeCall S F W → Option String
  | .signLabQuorum w sessionId _ =>
    if returnedOk (s.antiNonce.claimSession w.disk w.acks sessionId).1 then some sessionId
    else none
  | .signPsbt _ w sessionId _ _ _ =>
    if returnedOk (s.antiNonce.claimSession w.disk w.acks sessionId).1 then some sessionId
    else none
  | .signSighash _ w sessionId sighash32 =>
    if sighash32.length = 32 ∧ returnedOk (s.antiNonce.claimSession w.disk w.acks sessionId).1 then
      some sessionId
    else none
  | _ => none

/-- The session of a call that answers with a signature. -/
def signed (s : SignNode S) : SignNodeCall S F W → Option String
  | .signLabQuorum w sessionId message =>
    if (s.intentSigner.signLabQuorum w sessionId message).1.isOk then some sessionId else none
  | .signPsbt key w sessionId psbtB64 destination amountSats =>
    if ((s.trSigner key).signPsbt B w sessionId psbtB64 destination amountSats).1.isOk then
      some sessionId
    else none
  | .signSighash key w sessionId sighash32 =>
    if ((s.trSigner key).signSighash B w sessionId sighash32).1.isOk then some sessionId else none
  | _ => none

/-- The sessions that the calls of a life have claimed, in order. -/
def claims (s : SignNode S) (calls : List (SignNodeCall S F W)) : List String :=
  Runs.emits (step B) claimed s calls

/-- The sessions that they have answered with a signature. -/
def signatures (s : SignNode S) (calls : List (SignNodeCall S F W)) : List String :=
  Runs.emits (step B) (signed B) s calls

/-! ## The claim -/

/-- A claim grows the store, with a quorum or without one. -/
theorem claimSession_store_grows (disk : Disk) (acks : Except DomainError (List PrepareAck))
    (sessionId : String) (a : SigningAntiNonce) :
    a.store.Grows (a.claimSession disk acks sessionId).2.store := by
  have hLocal := claimSession_grows disk sessionId a.store
  obtain ⟨store, quorumT⟩ := a
  unfold SigningAntiNonce.claimSession
  cases quorumT with
  | none => exact hLocal
  | some t =>
    dsimp only at hLocal ⊢
    unfold QuorumAntiNonce.claimSession
    split
    · rename_i hRefused
      rwa [hRefused] at hLocal
    · rename_i hClaimed
      rw [hClaimed] at hLocal
      split
      · exact hLocal
      · exact hLocal

/-- A claim that goes through finds its id free, and leaves it burned and recorded. -/
theorem claimSession_store_ok {disk : Disk} {acks : Except DomainError (List PrepareAck)}
    {sessionId : String} {a : SigningAntiNonce}
    (h : (a.claimSession disk acks sessionId).1 = .ok ()) :
    sessionId ∉ a.store.inner ∧
      sessionId ∈ (a.claimSession disk acks sessionId).2.store.inner ∧
      (a.claimSession disk acks sessionId).2.store.log.Recorded sessionId.toList := by
  have hGranted (l' : PersistedAntiNonce)
      (hOk : a.store.claimSession disk sessionId = (.ok (), l')) :
      sessionId ∉ a.store.inner ∧ sessionId ∈ l'.inner ∧ l'.log.Recorded sessionId.toList :=
    prepare_granted (PersistedAntiNonce.claimSession_ok hOk)
  obtain ⟨store, quorumT⟩ := a
  unfold SigningAntiNonce.claimSession at h ⊢
  cases quorumT with
  | none => exact hGranted _ (Prod.ext h rfl)
  | some t =>
    dsimp only at h hGranted ⊢
    unfold QuorumAntiNonce.claimSession at h ⊢
    split at h
    · cases h
    · rename_i l' hClaimed
      split
      · exact hGranted l' hClaimed
      · exact hGranted l' hClaimed

/-! ## One step -/

/-- The id is burned, and its line is in the log. -/
def Spent (s : SignNode S) (sessionId : String) : Prop :=
  sessionId ∈ s.antiNonce.store.inner ∧
    s.antiNonce.store.log.Recorded sessionId.toList ∧ SurvivesLog sessionId

theorem signLabQuorum_antiNonce (w : SignWorld S) (sessionId : String) (message : List UInt8)
    (o : FrostSignOrchestrator S) :
    (o.signLabQuorum w sessionId message).2.antiNonce =
      (o.antiNonce.claimSession w.disk w.acks sessionId).2 := by
  unfold FrostSignOrchestrator.signLabQuorum
  dsimp only
  split
  · rfl
  · rfl

/-- What a call leaves of the store: it grows, unless the node restarts on its log. -/
theorem step_store (s : SignNode S) (call : SignNodeCall S F W) :
    s.antiNonce.store.Grows (s.step B call).antiNonce.store ∨
      (s.step B call).antiNonce.store = openStore s.antiNonce.store.log := by
  -- a signer moves the store by its claim, which only grows it; a restart opens it on its log
  match call with
  | .signLabQuorum w sessionId message =>
    left
    rw [step]
    dsimp only
    rw [signLabQuorum_antiNonce]
    exact claimSession_store_grows w.disk w.acks sessionId s.antiNonce
  | .signPsbt key w sessionId psbtB64 destination amountSats =>
    left
    rw [step]
    dsimp only [FrostTrBitcoinOrchestrator.signPsbt]
    rw [FrostTrBitcoinOrchestrator.withClaim_antiNonce]
    exact claimSession_store_grows w.disk w.acks sessionId s.antiNonce
  | .signSighash key w sessionId sighash32 =>
    left
    rw [step]
    dsimp only [FrostTrBitcoinOrchestrator.signSighash]
    split
    · exact Grows.refl _
    · rw [FrostTrBitcoinOrchestrator.withClaim_antiNonce]
      exact claimSession_store_grows w.disk w.acks sessionId s.antiNonce
  | .prepare disk sessionId => exact .inl (prepare_grows disk sessionId s.antiNonce.store)
  | .prepareSoft now sessionId =>
    exact .inl (prepareSoft_grows now sessionId s.antiNonce.store)
  | .isConsumed now sessionId => exact .inl (isConsumed_grows now sessionId s.antiNonce.store)
  | .rotate calls => exact .inl (Grows.refl _)
  | .restart rotation quorumT => exact .inr rfl

/-- What is spent stays spent, also over a restart. -/
theorem Spent.step {s : SignNode S} {sessionId : String} (h : s.Spent sessionId)
    (call : SignNodeCall S F W) : (s.step B call).Spent sessionId := by
  obtain ⟨hBurned, hRecorded, hSurvives⟩ := h
  unfold Spent
  rcases step_store B s call with hGrows | hReopened
  · exact ⟨hGrows.inner hBurned, hGrows.recorded _ hRecorded, hSurvives⟩
  · rw [hReopened]
    exact ⟨mem_openStore_inner hSurvives hRecorded, hRecorded, hSurvives⟩

/-- A call that claims its session finds the id free, and burns and records it. -/
theorem claimed_spends {s : SignNode S} {call : SignNodeCall S F W} {sessionId : String}
    (h : s.claimed call = some sessionId) :
    sessionId ∉ s.antiNonce.store.inner ∧ sessionId ∈ (s.step B call).antiNonce.store.inner ∧
      (s.step B call).antiNonce.store.log.Recorded sessionId.toList := by
  have hClaim {claim : Outcome} (hOk : returnedOk claim = true) : claim = .ok () := by
    cases claim with
    | ok u => rfl
    | error e => cases hOk
  match call with
  | .signLabQuorum w sessionId' message =>
    rw [claimed] at h
    split at h
    · rename_i hOk
      obtain rfl := Option.some.inj h
      rw [step]
      dsimp only
      rw [signLabQuorum_antiNonce]
      exact claimSession_store_ok (hClaim hOk)
    · cases h
  | .signPsbt key w sessionId' psbtB64 destination amountSats =>
    rw [claimed] at h
    split at h
    · rename_i hOk
      obtain rfl := Option.some.inj h
      rw [step]
      dsimp only [FrostTrBitcoinOrchestrator.signPsbt]
      rw [FrostTrBitcoinOrchestrator.withClaim_antiNonce]
      exact claimSession_store_ok (hClaim hOk)
    · cases h
  | .signSighash key w sessionId' sighash32 =>
    rw [claimed] at h
    split at h
    · rename_i hOk
      obtain rfl := Option.some.inj h
      rw [step]
      dsimp only [FrostTrBitcoinOrchestrator.signSighash]
      rw [if_neg (not_not_intro hOk.1), FrostTrBitcoinOrchestrator.withClaim_antiNonce]
      exact claimSession_store_ok (hClaim hOk.2)
    · cases h

/-- A call that signs has claimed its session. -/
theorem claimed_of_signed {s : SignNode S} {call : SignNodeCall S F W} {sessionId : String}
    (h : s.signed B call = some sessionId) : s.claimed call = some sessionId := by
  have hOk {R : Type} {answer : Except DomainError R} (hSigned : answer.isOk = true) :
      ∃ r, answer = .ok r := by
    cases answer with
    | ok r => exact ⟨r, rfl⟩
    | error e => cases hSigned
  -- a signature was answered after the claim returned Ok
  match call with
  | .signLabQuorum w sessionId' message =>
    rw [signed] at h
    split at h
    · rename_i hSigned
      obtain ⟨r, hr⟩ := hOk hSigned
      have hClaim := (FrostSignOrchestrator.signLabQuorum_ok_iff.mp hr).1
      rw [← h]
      exact if_pos (congrArg returnedOk hClaim)
    · cases h
  | .signPsbt key w sessionId' psbtB64 destination amountSats =>
    rw [signed] at h
    split at h
    · rename_i hSigned
      obtain ⟨r, hr⟩ := hOk hSigned
      have hClaim := (FrostTrBitcoinOrchestrator.withClaim_ok_iff.mp hr).1
      rw [← h]
      exact if_pos (congrArg returnedOk hClaim)
    · cases h
  | .signSighash key w sessionId' sighash32 =>
    rw [signed] at h
    split at h
    · rename_i hSigned
      obtain ⟨r, hr⟩ := hOk hSigned
      unfold FrostTrBitcoinOrchestrator.signSighash at hr
      split at hr
      · cases hr
      · rename_i hLength
        have hClaim := (FrostTrBitcoinOrchestrator.withClaim_ok_iff.mp hr).1
        rw [← h]
        exact if_pos ⟨not_not.mp hLength, congrArg returnedOk hClaim⟩
    · cases h

/-! ## A life -/

/--
**One signature for a session.** Over a whole life of a node, whatever its log holds at
first and however often it restarts, a session id that its log line gives back is claimed
at most once, for whichever signer, and never where it is spent already. Every signature
stands for such a claim, so that a call that failed after its claim is not made good.
-/
theorem sessions_sign_once (s : SignNode S) (calls : List (SignNodeCall S F W)) :
    ((s.claims B calls).filter fun id => decide (SurvivesLog id)).Nodup ∧
      (s.signatures B calls).Sublist (s.claims B calls) ∧
      ∀ id ∈ s.claims B calls, ¬ s.Spent id := by
  have hKeeps (s : SignNode S) (call : SignNodeCall S F W) (k : String) (h : s.Spent k) :
      (s.step B call).Spent k := h.step B call
  have hSpends (s : SignNode S) (call : SignNodeCall S F W) (k : String)
      (h : s.claimed call = some k) (hSurvives : decide (SurvivesLog k) = true) :
      ¬ s.Spent (id k) ∧ (s.step B call).Spent (id k) := by
    obtain ⟨hFree, hBurned, hRecorded⟩ := claimed_spends B h
    exact ⟨fun hSpent => hFree hSpent.1, hBurned, hRecorded, of_decide_eq_true hSurvives⟩
  have hOnce := Runs.nodup_emits hKeeps hSpends s calls
  refine ⟨?_, Runs.emits_sublist (fun _ _ _ => claimed_of_signed B) s calls, ?_⟩
  · have hNodup := hOnce.1
    rwa [List.map_id] at hNodup
  · intro id hId hSpent
    exact hOnce.2 id hId (decide_eq_true hSpent.2.2) hSpent

end SignNode

end KeroseneVault
