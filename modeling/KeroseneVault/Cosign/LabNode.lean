import KeroseneVault.Cosign.PolySigning
import Mathlib.Tactic.NormNum.Prime

/-!
# A lab node

A node that has run all participants of its key generation: the reshare hook refreshes the
Intent keyset in the slot that the Intent signer takes its keys from.

* `LabNode`, `LabNode.step` — the hook, the signer, and what they share;
* `LabNode.Answers` — which calls of the signer go through, and what they answer with.

Main results:

* `lab_signs` — after any refreshes, a call goes through exactly where its session is free
  and its day holds, and its signature is one of the key that was generated at the boot;
* `lab_one_secret` — any threshold of the shares of one time makes one secret, at all times.
-/

namespace KeroseneVault

open DistributedDkgAdapter FrostSignOrchestrator PersistedAntiNonce

/-! ## The node -/

structure LabNode (F : FrostSuite) (T : FrostRefresh) where
  keys : ReshareNode F.toFrostRefresh T
  antiNonce : SigningAntiNonce
  rotation : DayNode

/-- A call of the hook or of the signer, or a use of what they share. -/
inductive LabCall (F : FrostSuite) (T : FrostRefresh) where
  | reshare (call : ReshareCall) (w : ReshareWorld F.toFrostRefresh T)
  | signLabQuorum (w : SignWorld F.toFrostSigning) (sessionId : String) (message : List UInt8)
  | prepare (disk : Disk) (sessionId : String)
  | isConsumed (now : Nat) (sessionId : String)
  | rotate (calls : List DayCall)

namespace LabNode

variable {F : FrostSuite} {T : FrostRefresh}

/-- The Intent signer, over the slot of the hook. -/
def signer (s : LabNode F T) : FrostSignOrchestrator F.toFrostSigning where
  shares := s.keys.shares
  antiNonce := s.antiNonce
  rotation := s.rotation

def setStore (s : LabNode F T) (store : PersistedAntiNonce) : LabNode F T :=
  { s with antiNonce := { s.antiNonce with store := store } }

def step (measure : String → String) (hook : PolicyReshareHook) (s : LabNode F T) :
    LabCall F T → LabNode F T
  | .reshare call w => { s with keys := s.keys.step measure hook (call, w) }
  | .signLabQuorum w sessionId message =>
    let o := (s.signer.signLabQuorum w sessionId message).2
    { s with antiNonce := o.antiNonce, rotation := o.rotation }
  | .prepare disk sessionId => s.setStore (s.antiNonce.store.prepare disk sessionId).2
  | .isConsumed now sessionId => s.setStore (s.antiNonce.store.isConsumed now sessionId).2
  | .rotate calls => { s with rotation := Runs.run DayNode.step s.rotation calls }

/-! ## The calls that go through -/

variable {K V K' V' : Type} [CommRing K] [AddCommGroup V] [Module K V] [CommRing K']
  [AddCommGroup V'] [Module K' V']

/-- The session of the call can be claimed. -/
def Claims (s : LabNode F T) (w : SignWorld F.toFrostSigning) (sessionId : String) : Prop :=
  (s.antiNonce.claimSession w.disk w.acks sessionId).1 = .ok ()

/-- The day that the call reads is still the node's when it is required. -/
def SameDay (s : LabNode F T) (w : SignWorld F.toFrostSigning) : Prop :=
  ∃ day, s.rotation.rotation.currentDayEpoch w.now = .ok day ∧
    (Runs.run DayNode.step s.rotation w.meanwhile).rotation.requireEpoch w.nowRequired day = .ok ()

/-- The package of the call has no identity among its points. -/
def Usable {S : RefreshSpec F.toFrostRefresh K V} (G : SigningSpec F S) (s : LabNode F T)
    (w : SignWorld F.toFrostSigning) (sessionId : String) (message : List UInt8) : Prop :=
  ∀ snap day, s.keys.shares = some snap → s.rotation.rotation.currentDayEpoch w.now = .ok day →
    G.usable (F.verifyingKey snap.pubkeyPackage) (F.toFrostSigning.signingPackage
      (snap.keyPackages.entries.take snap.minSigners.toNat) w.rand
      (bindMessage message sessionId (String.ofList day.text)))

/-- What the signer of a keyset of threshold `t` under `key` answers. -/
structure Answers {S : RefreshSpec F.toFrostRefresh K V} (G : SigningSpec F S)
    (key : F.VerifyingKey) (t : Nat) (s : LabNode F T) : Prop where
  verified : ∀ w sessionId message r, (s.signer.signLabQuorum w sessionId message).1 = .ok r →
    r.participants = t ∧ ∃ signature bytes,
      F.verify key (bindMessage message sessionId r.dayEpoch) signature = .ok () ∧
        F.signatureBytes signature = .ok bytes ∧ r.signatureHex = F.hexEncode bytes
  answered : ∀ w sessionId message, s.Usable G w sessionId message →
    ((∃ r, (s.signer.signLabQuorum w sessionId message).1 = .ok r) ↔
      s.Claims w sessionId ∧ s.SameDay w)

end LabNode

/-! ## The signer -/

section Signer

variable {F : FrostSuite} {K V : Type} [CommRing K] [AddCommGroup V] [Module K V]
  {S : RefreshSpec F.toFrostRefresh K V} {rand : F.Identifier → F.Randomness}
  {message : List UInt8} {snap : FrostShareState F.toFrostDkg}

/-- A signature of the signer verifies under the group key of its keys. -/
theorem signQuorum_verified {signed : String × Nat}
    (h : signQuorum (S := F.toFrostSigning) rand message snap = .ok signed) :
    signed.2 = snap.minSigners.toNat ∧ ∃ signature bytes,
      F.verify (F.verifyingKey snap.pubkeyPackage) message signature = .ok () ∧
        F.signatureBytes signature = .ok bytes ∧ signed.1 = F.hexEncode bytes := by
  unfold signQuorum at h
  dsimp only at h
  split at h
  · cases h
  rename_i hEnough
  obtain ⟨shares, hShares, h⟩ := Results.bind_eq_ok.mp h
  obtain ⟨signature, -, h⟩ := Results.bind_eq_ok.mp h
  obtain ⟨_, hVerify, h⟩ := Results.bind_eq_ok.mp h
  obtain ⟨bytes, hBytes, h⟩ := Results.bind_eq_ok.mp h
  obtain rfl := Except.ok.inj h
  refine ⟨?_, signature, bytes, mapErr_ok.mp hVerify, mapErr_ok.mp hBytes, rfl⟩
  -- one share for each of the signers
  have hLength := (Results.mapM_eq_ok.mp hShares).length_eq
  rw [List.length_take] at hLength
  show shares.length = _
  omega

/-- The first `t` keys of a keyset make a signature. -/
theorem signQuorum_signs (G : SigningSpec F S) {t : Nat} {f : Polynomial K}
    (hShared : SharedBy S f t snap.keyPackages snap.pubkeyPackage)
    (hMin : snap.minSigners.toNat = t) (hEnough : t ≤ snap.keyPackages.entries.length)
    (hUsable : G.usable (F.verifyingKey snap.pubkeyPackage) (F.toFrostSigning.signingPackage
      (snap.keyPackages.entries.take t) rand message)) :
    ∃ signed, signQuorum (S := F.toFrostSigning) rand message snap = .ok signed := by
  obtain ⟨share, signature, bytes, hSign, hAggregate, hVerify, hBytes⟩ :=
    G.signs hShared (List.take_sublist t _) (by rw [List.length_take]; omega) rand message hUsable
  subst hMin
  unfold signQuorum
  dsimp only
  rw [if_neg (by omega)]
  -- each signer signs its own share of the package; then the shares aggregate
  have hShares := Results.mapM_map_ok (g := fun e => e)
    (l := snap.keyPackages.entries.take snap.minSigners.toNat)
    (f := fun e => (mapErr "frost round2" (F.sign (F.toFrostSigning.signingPackage
      (snap.keyPackages.entries.take snap.minSigners.toNat) rand message)
        (F.commit e.2 (rand e.1)).1 e.2)).map fun share => (e.1, share))
    (r := fun e => (e.1, share e)) fun e he => by
      rw [hSign e he]
      rfl
  rw [List.map_id'] at hShares
  exact ⟨_, Results.bind_eq_ok.mpr ⟨_, hShares, Results.bind_eq_ok.mpr ⟨signature,
    mapErr_ok.mpr hAggregate, Results.bind_eq_ok.mpr ⟨(), mapErr_ok.mpr hVerify,
      Results.bind_eq_ok.mpr ⟨bytes, mapErr_ok.mpr hBytes, rfl⟩⟩⟩⟩⟩

end Signer

/-! ## Lives -/

section Lives

variable {F : FrostSuite} {T : FrostRefresh} {K V K' V' : Type} [CommRing K] [AddCommGroup V]
  [Module K V] [CommRing K'] [AddCommGroup V'] [Module K' V']

open LabNode

/-- The slots keep what was installed in them. -/
theorem keysKept_lab (S : RefreshSpec F.toFrostRefresh K V) (S' : RefreshSpec T K' V')
    (measure : String → String) (hook : PolicyReshareHook) (node : LabNode F T)
    (calls : List (LabCall F T)) :
    Runs.EveryState (LabNode.step measure hook) (fun s => KeysKept S S' node.keys s.keys) node
      calls := by
  refine Runs.EveryState.of_preserved (P := fun s : LabNode F T => KeysKept S S' node.keys s.keys)
    (fun s call h => ?_) (KeysKept.refl S S' node.keys) calls
  match call with
  | .reshare call w => exact step_kept h (call, w)
  | .signLabQuorum .. => exact h
  | .prepare .. => exact h
  | .isConsumed .. => exact h
  | .rotate _ => exact h

/-- What is in the slot of a node that was booted with a keyset. -/
theorem booted_kept {S : RefreshSpec F.toFrostRefresh K V} {S' : RefreshSpec T K' V'}
    {st : TrShareState F.toFrostDkg} {node s : LabNode F T} (hInstalled : node.keys.shares = some st)
    (h : KeysKept S S' node.keys s.keys) :
    ∃ snap, s.keys.shares = some snap ∧ Kept S st snap := by
  have hIntent := h.intent
  rw [hInstalled] at hIntent
  cases hSlot : s.keys.shares with
  | none =>
    rw [hSlot] at hIntent
    cases hIntent
  | some snap =>
    rw [hSlot] at hIntent
    cases hIntent with
    | some hKept => exact ⟨snap, rfl, hKept⟩

/--
**A lab node signs for its key.** A node is booted with the keyset that it has generated.
Whatever refreshes come, failed ones between them, whatever else uses the anti-nonce store,
and however the days turn: a call of the Intent signer goes through exactly where its
session can be claimed and its day holds, and what it answers with is a signature by the
threshold that was configured, which verifies under the group key of the boot.
-/
theorem lab_signs (hLaws : F.Laws) (S : KeygenSpec F.toFrostRefresh K V) (S' : RefreshSpec T K' V')
    (G : SigningSpec F S.toRefreshSpec) {rand : F.Identifier → F.Randomness} {disk : ShareDisk}
    {n t : Nat} {store : ShareStore} {st : TrShareState F.toFrostDkg}
    (hBoot : (wireDistributedDkg F.toFrostRefresh rand disk n t store).1 = .ok st)
    (node : LabNode F T) (hInstalled : node.keys.shares = some st) (measure : String → String)
    (hook : PolicyReshareHook) (calls : List (LabCall F T)) :
    Runs.EveryState (LabNode.step measure hook)
      (Answers G (F.verifyingKey st.pubkeyPackage) (threshold n t).toNat) node calls := by
  obtain ⟨hComplete, hSize, hMin⟩ := wireDistributedDkg_complete hLaws S hBoot
  refine (keysKept_lab S.toRefreshSpec S' measure hook node calls).mono fun s hKeys => ?_
  obtain ⟨snap, hSnap, hKept⟩ := booted_kept hInstalled hKeys
  have hThreshold : snap.minSigners.toNat = (threshold n t).toNat := by
    rw [hKept.minSigners, hMin]
  have hEnough : (threshold n t).toNat ≤ snap.keyPackages.entries.length := by
    have hLength := congrArg List.length hKept.identifiers
    rw [List.length_map, List.length_map] at hLength
    have hLe := threshold_le n t
    omega
  -- what a call answers is checked against the key before it is returned, so that the first
  -- half needs no law of the scheme
  constructor
  · intro w sessionId message r hAnswer
    obtain ⟨-, hSigned⟩ := signLabQuorum_ok_iff.mp hAnswer
    obtain ⟨day, snap', signed, -, -, hShares, hSigned, rfl⟩ := signClaimed_ok_iff.mp hSigned
    obtain rfl := Option.some.inj (hSnap.symm.trans hShares)
    obtain ⟨hCount, signature, bytes, hVerify, hBytes, hHex⟩ := signQuorum_verified hSigned
    refine ⟨hCount.trans hThreshold, signature, bytes, ?_, hBytes, hHex⟩
    rw [← hKept.verifyingKey]
    exact hVerify
  · intro w sessionId message hUsable
    constructor
    · rintro ⟨r, hAnswer⟩
      obtain ⟨hClaimed, hSigned⟩ := signLabQuorum_ok_iff.mp hAnswer
      obtain ⟨day, -, -, hDay, hRequired, -, -, -⟩ := signClaimed_ok_iff.mp hSigned
      exact ⟨hClaimed, day, hDay, hRequired⟩
    · rintro ⟨hClaimed, day, hDay, hRequired⟩
      obtain ⟨-, -, f, hShared⟩ := hKept.complete _ hComplete
      have hPackage := hUsable snap day hSnap hDay
      rw [hThreshold] at hPackage
      obtain ⟨signed, hSigned⟩ := signQuorum_signs G hShared hThreshold hEnough hPackage
      exact ⟨_, signLabQuorum_ok_iff.mpr ⟨hClaimed, signClaimed_ok_iff.mpr
        ⟨day, snap, signed, hDay, hRequired, hSnap, hSigned, rfl⟩⟩⟩

/-- Any `t` of the shares in the slot make the secret. -/
def LabNode.Makes {K V : Type} [Field K] [DecidableEq K] [AddCommGroup V] [Module K V]
    (S : RefreshSpec F.toFrostRefresh K V) (t : Nat) (secret : K) (s : LabNode F T) : Prop :=
  ∃ snap, s.keys.shares = some snap ∧
    ∀ quorum : List (F.Identifier × F.KeyPackage), quorum.Sublist snap.keyPackages.entries →
      t ≤ quorum.length →
      Interpolation.atZero (quorum.map fun e => (S.scalar e.1, S.signingShare e.2)) = secret

/--
**One secret for all times.** Any threshold of the shares that a lab node has at one time
make the same secret, by interpolation at zero: that of the group key of the boot.
-/
theorem lab_one_secret {K V : Type} [Field K] [DecidableEq K] [AddCommGroup V] [Module K V]
    (hLaws : F.Laws) (S : KeygenSpec F.toFrostRefresh K V) (S' : RefreshSpec T K' V')
    (hScalar : Function.Injective S.scalar)
    (hGenerator : Function.Injective fun k : K => k • S.generator)
    {rand : F.Identifier → F.Randomness} {disk : ShareDisk} {n t : Nat} {store : ShareStore}
    {st : TrShareState F.toFrostDkg}
    (hBoot : (wireDistributedDkg F.toFrostRefresh rand disk n t store).1 = .ok st)
    (node : LabNode F T) (hInstalled : node.keys.shares = some st) (measure : String → String)
    (hook : PolicyReshareHook) (calls : List (LabCall F T)) :
    ∃ secret : K, secret • S.generator = S.point (F.verifyingKey st.pubkeyPackage) ∧
      Runs.EveryState (LabNode.step measure hook)
        (Makes S.toRefreshSpec (threshold n t).toNat secret) node calls := by
  obtain ⟨hComplete, -, -⟩ := wireDistributedDkg_complete hLaws S hBoot
  obtain ⟨drawn, hDrawn⟩ := hComplete.shared
  refine ⟨drawn.eval 0, hDrawn.secret, ?_⟩
  refine (keysKept_lab S.toRefreshSpec S' measure hook node calls).mono fun s hKeys => ?_
  obtain ⟨snap, hSnap, hKept⟩ := booted_kept hInstalled hKeys
  obtain ⟨-, -, f, hShared⟩ := hKept.complete _ hComplete
  refine ⟨snap, hSnap, fun quorum hSublist hEnough => ?_⟩
  -- the polynomial of the time has the value at zero of the one that was drawn
  have hSecret : f.eval 0 = drawn.eval 0 := by
    refine hGenerator ?_
    show f.eval 0 • S.generator = drawn.eval 0 • S.generator
    rw [hShared.secret, hDrawn.secret, hKept.verifyingKey]
  rw [← hSecret]
  refine Interpolation.atZero_eq ?_ ?_ ?_
  · have hIds : (quorum.map Prod.fst).Nodup :=
      (hSublist.map Prod.fst).nodup (snap.keyPackages.sorted.imp ne_of_lt)
    rw [List.map_map]
    have hPlaces := hIds.map hScalar
    rwa [List.map_map] at hPlaces
  · rw [List.length_map]
    exact (Polynomial.mem_degreeLT.mp hShared.degree).trans_le (by exact_mod_cast hEnough)
  · intro p hp
    obtain ⟨e, he, rfl⟩ := List.mem_map.mp hp
    exact (hShared.key e (hSublist.subset he)).2.2.2.symm

end Lives

/-! ## A small node -/

instance Small.prime : Fact (Nat.Prime 65537) := ⟨by norm_num⟩

/-- Sums, for hashes. -/
def smallHashes : PolyHashes Small Small where
  bindingFactor key _ _ i := key + i
  challenge nonce key message := nonce + key + (message.length : Small)
  nonces rand share := (rand.2 + share, rand.1 0 + 1)
  signatureBytes nonce z := scalarBytes nonce ++ scalarBytes z

def smallSuite : FrostSuite := smallFrost.toFrostSuite smallHashes

/-- A node with the keyset of its boot, that has claimed no session. -/
def smallLabNode (st : TrShareState smallSuite.toFrostDkg) : LabNode smallSuite smallRefresh where
  keys := { smallReshareNode [⟨"vault-1"⟩] with shares := some st }
  antiNonce := ⟨PersistedAntiNonce.openStore .empty, none⟩
  rotation := DayNode.boot DayNode.soloBoot

/-- What a call of the signer finds: a free session, and the day of the boot. -/
def smallSignCall : SignWorld smallSuite.toFrostSigning :=
  ⟨.ok, .ok [], 1704067200, [], 1704067200, smallDraws⟩

/-- A refresh, a call of the signer, and another refresh. -/
def smallLabCalls : List (LabCall smallSuite smallRefresh) :=
  [.reshare (.triggerManual "ops") smallWorld,
    .signLabQuorum smallSignCall "sess-1" [0x68, 0x69],
    .reshare (.triggerManual "again") smallWorld]

/-- The nonces of the first two participants add up, in that call on the keyset of the boot. -/
def smallGroupNonce (st : TrShareState smallSuite.toFrostDkg) : Except String Small :=
  PolyFrost.groupNonce smallHashes (smallSuite.verifyingKey st.pubkeyPackage)
    (smallSuite.toFrostSigning.signingPackage
      (st.keyPackages.entries.take st.minSigners.toNat) smallDraws
      (bindMessage [0x68, 0x69] "sess-1" "2024-01-01"))

/-- A boot of three participants with a threshold of two, whose nonces do not cancel. -/
theorem exists_usableBoot : ∃ st nonce,
    (wireDistributedDkg smallSuite.toFrostRefresh smallDraws (fun _ _ => .stored) 3 2 ∅).1 =
        .ok st ∧ smallGroupNonce st = .ok nonce ∧ nonce ≠ 0 := by
  have hUsable : ((wireDistributedDkg smallSuite.toFrostRefresh smallDraws
      (fun _ _ => .stored) 3 2 ∅).1.toOption.any fun st =>
        (smallGroupNonce st).toOption.any fun nonce => decide (nonce ≠ 0)) = true := by
    -- the group nonce of one boot, computed
    decide +kernel
  cases hBoot : (wireDistributedDkg smallSuite.toFrostRefresh smallDraws
      (fun _ _ => .stored) 3 2 ∅).1 with
  | error e =>
    rw [hBoot] at hUsable
    cases hUsable
  | ok st =>
    rw [hBoot] at hUsable
    cases hNonce : smallGroupNonce st with
    | error e =>
      simp only [Except.toOption, Option.any_some, hNonce] at hUsable
      cases hUsable
    | ok nonce =>
      simp only [Except.toOption, Option.any_some, hNonce] at hUsable
      exact ⟨st, nonce, rfl, hNonce, of_decide_eq_true hUsable⟩

/-- On that keyset the package of the call is usable, and the call goes through. -/
theorem lab_signs_small : ∃ st,
    (wireDistributedDkg smallSuite.toFrostRefresh smallDraws (fun _ _ => .stored) 3 2 ∅).1 =
        .ok st ∧
      Runs.EveryState (LabNode.step id smallHook)
        (LabNode.Answers (smallFrost.signingSpec smallHashes)
          (smallSuite.verifyingKey st.pubkeyPackage) (threshold 3 2).toNat)
        (smallLabNode st) smallLabCalls ∧
      (smallLabNode st).Usable (smallFrost.signingSpec smallHashes) smallSignCall "sess-1"
        [0x68, 0x69] ∧
      ∃ r, ((smallLabNode st).signer.signLabQuorum smallSignCall "sess-1" [0x68, 0x69]).1 =
        .ok r := by
  obtain ⟨st, nonce, hBoot, hNonce, hNe⟩ := exists_usableBoot
  have hLife := lab_signs (F := smallSuite) (T := smallRefresh) smallFrost.laws
    (smallFrost.keygenSpec smallFrost_plain) smallFrost.refreshSpec
    (smallFrost.signingSpec smallHashes) hBoot (smallLabNode st) rfl id smallHook smallLabCalls
  have hUsable : (smallLabNode st).Usable (smallFrost.signingSpec smallHashes) smallSignCall
      "sess-1" [0x68, 0x69] := by
    intro snap day hSnap hDay
    obtain rfl := Option.some.inj hSnap
    have hFirst : (DayNode.boot DayNode.soloBoot).rotation.currentDayEpoch 1704067200 =
        .ok ⟨"2024-01-01".toList⟩ := by decide +kernel
    obtain rfl := Except.ok.inj (hFirst.symm.trans hDay)
    exact ⟨nonce, hNonce, hNe⟩
  have hClaims : (smallLabNode st).Claims smallSignCall "sess-1" := by rfl
  exact ⟨st, hBoot, hLife, hUsable,
    (((Runs.everyState_cons ..).mp hLife).1.answered smallSignCall "sess-1" [0x68, 0x69] hUsable).mpr
      ⟨hClaims, _, rfl, rfl⟩⟩

theorem lab_one_secret_small : ∃ st secret,
    (wireDistributedDkg smallSuite.toFrostRefresh smallDraws (fun _ _ => .stored) 3 2 ∅).1 =
        .ok st ∧
      Runs.EveryState (LabNode.step id smallHook)
        (LabNode.Makes smallFrost.refreshSpec (threshold 3 2).toNat secret) (smallLabNode st)
        smallLabCalls := by
  obtain ⟨st, hBoot⟩ := exists_smallBoot 3 2
  have hGenerator : Function.Injective fun k : Small => k • smallFrost.refreshSpec.generator := by
    intro k l hEq
    have hOne : k * 1 = l * 1 := hEq
    rwa [mul_one, mul_one] at hOne
  obtain ⟨secret, -, hLife⟩ := lab_one_secret (F := smallSuite) (T := smallRefresh)
    smallFrost.laws (smallFrost.keygenSpec smallFrost_plain) smallFrost.refreshSpec
    Function.injective_id hGenerator hBoot (smallLabNode st) rfl id smallHook smallLabCalls
  exact ⟨st, secret, hBoot, hLife⟩

end KeroseneVault
