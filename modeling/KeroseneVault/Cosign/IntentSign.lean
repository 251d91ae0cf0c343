import KeroseneVault.Cosign.Peer
import KeroseneVault.Identity.BoundMessage
import KeroseneVault.Rotation.Lifetime
import KeroseneVault.Rotation.Reshare
import KeroseneVault.Session.AntiNonce

/-!
# The Intent signer

`FrostSignOrchestrator`: a node claims a session, reads its day epoch, and has
`min_signers` of its Intent key packages sign a message. What they sign are the day,
the session id and the message with bars between them, and the session id is any text.

* `FrostSigning` — what the signer uses of `frost-secp256k1`;
* `bindMessage`, `signLabQuorum` — the bytes that are signed, and the call;
* `AcceptedCall` — a call that went through, on a day that a node can get to;
* `AcceptedCall.Binds` — what else goes through as the same bytes says the same;
* `AcceptedCall.Unambiguous` — the session id and the message read back.

Main results:

* `bar_notMem_current` — no day has a bar in it, so the day always reads back;
* `exists_accepted` — what has the bytes of an accepted call is accepted somewhere;
* `bindMessage_binds_iff` — a call is bound exactly where its fields read back.
-/

namespace KeroseneVault

/-! ## The day -/

theorem bar_notMem_pad (w n : Nat) : '|' ∉ DayEpoch.pad w n := by
  unfold DayEpoch.pad
  rw [List.mem_append, not_or]
  refine ⟨fun hZero => ?_, Framing.notMem_toDigits rfl n⟩
  exact absurd (List.eq_of_mem_replicate hZero) (by decide)

/-- The text of a clock reading has digits and dashes. -/
theorem bar_notMem_fromUnixSecs (secs : Nat) : '|' ∉ (DayEpoch.fromUnixSecs secs).text := by
  have hYear (y : Int) : '|' ∉ DayEpoch.padYear y := by
    unfold DayEpoch.padYear
    split
    · rw [List.mem_cons, not_or]
      exact ⟨by decide, bar_notMem_pad 3 _⟩
    · exact bar_notMem_pad 4 _
  unfold DayEpoch.fromUnixSecs
  dsimp only
  rw [List.mem_append, List.mem_append, List.mem_cons, List.mem_cons]
  -- the year, a dash, the month, a dash, the day
  rintro ((h | h | h) | h | h)
  · exact hYear _ h
  · cases h
  · exact bar_notMem_pad 2 _ h
  · cases h
  · exact bar_notMem_pad 2 _ h

/-- So has a text that parses. -/
theorem bar_notMem_parse {raw : String} {day : DayEpoch} (h : DayEpoch.parse raw = .ok day) :
    '|' ∉ day.text := by
  unfold DayEpoch.parse at h
  dsimp only at h
  split at h
  · rename_i hOk
    obtain rfl := Except.ok.inj h
    -- every letter is a digit or a dash, by its place
    rw [Bool.and_eq_true, List.all_eq_true] at hOk
    intro hMem
    obtain ⟨i, hi⟩ := List.mem_iff_getElem?.mp hMem
    have hLetter := hOk.2 ('|', i) (List.mem_zipIdx_iff_getElem?.mpr hi)
    dsimp only at hLetter
    split at hLetter
    · exact absurd hLetter (by decide)
    · exact absurd hLetter (by decide)
  · cases h

namespace DayNode

/-- Where a step takes the current day from. -/
theorem step_current (s : DayNode) (call : DayCall) :
    (s.step call).rotation.current = s.rotation.current ∨
      (∃ secs, (s.step call).rotation.current = DayEpoch.fromUnixSecs secs) ∨
      ∃ raw, DayEpoch.parse raw = .ok (s.step call).rotation.current := by
  match call with
  | .recordVote voter target w => exact .inl (polled_recordVote voter target w s).current
  | .advance c =>
    have hRotation : (s.advance c).2.rotation = (s.rotation.advance (s.dawn c)).2 :=
      congrArg Prod.snd (advance_rotation c s)
    rw [step, hRotation]
    rcases QuorumDailyRotation.advance_cases (DayEpoch.fromUnixSecs c.now) (s.dawn c) s.rotation
      with hStays | ⟨hLive, -⟩
    · exact .inl hStays
    · exact .inr (.inl ⟨c.now, hLive⟩)
  | .restart b =>
    show (s.dayOnFile b).getD _ = _ ∨ (∃ secs, (s.dayOnFile b).getD _ = _) ∨
      ∃ raw, _ = Except.ok ((s.dayOnFile b).getD _)
    cases hFile : s.dayOnFile b with
    | none => exact .inr (.inl ⟨b.now, rfl⟩)
    | some day =>
      -- the file is there, and its text is a day
      unfold dayOnFile loadDayEpoch at hFile
      split at hFile
      · obtain ⟨raw, -, hDay⟩ := Option.bind_eq_some_iff.mp hFile
        refine .inr (.inr ⟨strTrim raw, ?_⟩)
        cases hParse : DayEpoch.parse (strTrim raw) with
        | error e =>
          rw [hParse] at hDay
          cases hDay
        | ok day' =>
          rw [hParse] at hDay
          cases hDay
          rfl
      · cases hFile

/-- No day that a node gets to has a bar in it. -/
theorem bar_notMem_current (b : DayBoot) (calls : List DayCall) :
    '|' ∉ (Runs.run step (boot b) calls).rotation.current.text := by
  have hStep (s : DayNode) (call : DayCall) (h : '|' ∉ s.rotation.current.text) :
      '|' ∉ (s.step call).rotation.current.text := by
    rcases step_current s call with hSame | ⟨secs, hClock⟩ | ⟨raw, hFile⟩
    · rw [hSame]
      exact h
    · rw [hClock]
      exact bar_notMem_fromUnixSecs secs
    · exact bar_notMem_parse hFile
  -- the first boot is a restart of a node without files
  exact Runs.run_preserves hStep (hStep _ (.restart b) (bar_notMem_fromUnixSecs b.now)) calls

end DayNode

/-! ## The signer -/

/-- What the Intent signer uses of `frost-secp256k1`. An error is its text. -/
structure FrostSigning extends FrostDkg where
  Nonces : Type
  Commitments : Type
  SignatureShare : Type
  Signature : Type
  /-- `round1::commit` with the randomness it draws -/
  commit : KeyPackage → Randomness → Nonces × Commitments
  /-- `round2::sign` -/
  sign : SigningPackage Identifier Commitments → Nonces → KeyPackage →
    Except String SignatureShare
  aggregate : SigningPackage Identifier Commitments → List (Identifier × SignatureShare) →
    PublicKeyPackage → Except String Signature
  /-- `VerifyingKey::verify` -/
  verify : VerifyingKey → List UInt8 → Signature → Except String Unit
  signatureBytes : Signature → Except String (List UInt8)

/-- `bind_message`. -/
def bindMessage (message : List UInt8) (sessionId dayEpoch : String) : List UInt8 :=
  textBytes "kerosene-frost-v1|" ++
    (textBytes dayEpoch ++ bar :: (textBytes sessionId ++ bar :: message))

structure FrostAggregateResult where
  sessionId : String
  dayEpoch : String
  signatureHex : String
  participants : Nat
  deriving DecidableEq

/-- What stands behind the anti-nonce port: a node's own store, which asks a quorum of
the peers if it has a threshold for one. -/
structure SigningAntiNonce where
  store : PersistedAntiNonce
  quorumT : Option Nat

structure FrostSignOrchestrator (S : FrostSigning) where
  shares : Option (FrostShareState S.toFrostDkg)
  antiNonce : SigningAntiNonce
  rotation : DayNode

/-- What surrounds one call: the write of the session id and what the peers answer, the
two readings of the clock, what others do to the rotation between them, and the
randomness of each signer. -/
structure SignWorld (S : FrostSigning) where
  disk : Disk
  acks : Except DomainError (List PrepareAck)
  now : Nat
  meanwhile : List DayCall
  nowRequired : Nat
  rand : S.Identifier → S.Randomness

/-- `AntiNoncePort::claim_session`. -/
def SigningAntiNonce.claimSession (disk : Disk) (acks : Except DomainError (List PrepareAck))
    (sessionId : String) (a : SigningAntiNonce) : Outcome × SigningAntiNonce :=
  let claimed := match a.quorumT with
    | none => a.store.claimSession disk sessionId
    | some t => QuorumAntiNonce.claimSession t disk acks sessionId a.store
  (claimed.1, { a with store := claimed.2 })

namespace FrostSignOrchestrator

variable {S : FrostSigning}

/-- Round 1, round 2 and the aggregation, over the first `min_signers` key packages: the
text of the signature and the number of its shares. -/
def signQuorum (rand : S.Identifier → S.Randomness) (boundMessage : List UInt8)
    (snap : FrostShareState S.toFrostDkg) : Except DomainError (String × Nat) := do
  let identifiers := snap.keyPackages.entries
  if identifiers.length < snap.minSigners.toNat then
    .error (.failStop identifiers.length snap.minSigners.toNat)
  else
    let signers := identifiers.take snap.minSigners.toNat
    let round1 := fun (e : S.Identifier × S.KeyPackage) => S.commit e.2 (rand e.1)
    let package : SigningPackage S.Identifier S.Commitments :=
      ⟨boundMessage, signers.map fun e => (e.1, (round1 e).2)⟩
    let shares ← signers.mapM fun e =>
      (mapErr "frost round2" (S.sign package (round1 e).1 e.2)).map fun share => (e.1, share)
    let signature ← mapErr "frost aggregate" (S.aggregate package shares snap.pubkeyPackage)
    mapErr "frost verify" (S.verify (S.verifyingKey snap.pubkeyPackage) boundMessage signature)
    let sigBytes ← mapErr "sig serialize" (S.signatureBytes signature)
    .ok (S.hexEncode sigBytes, shares.length)

/-- `sign_lab_quorum`, once the session is claimed. -/
def signClaimed (w : SignWorld S) (sessionId : String) (message : List UInt8)
    (o : FrostSignOrchestrator S) : Except DomainError FrostAggregateResult := do
  let dayEpoch ← o.rotation.rotation.currentDayEpoch w.now
  (Runs.run DayNode.step o.rotation w.meanwhile).rotation.requireEpoch w.nowRequired dayEpoch
  let day := String.ofList dayEpoch.text
  match o.shares with
  | none => .error (.thresholdError "FROST material not installed")
  | some snap =>
    let signed ← signQuorum w.rand (bindMessage message sessionId day) snap
    .ok ⟨sessionId, day, signed.1, signed.2⟩

def signLabQuorum (w : SignWorld S) (sessionId : String) (message : List UInt8)
    (o : FrostSignOrchestrator S) :
    Except DomainError FrostAggregateResult × FrostSignOrchestrator S :=
  let claimed := o.antiNonce.claimSession w.disk w.acks sessionId
  let next := { o with
    antiNonce := claimed.2
    rotation := Runs.run DayNode.step o.rotation w.meanwhile }
  match claimed.1 with
  | .error e => (.error e, { o with antiNonce := claimed.2 })
  | .ok () => (o.signClaimed w sessionId message, next)

/-! ## What an accepted call does -/

theorem signLabQuorum_ok_iff {w : SignWorld S} {sessionId : String} {message : List UInt8}
    {o : FrostSignOrchestrator S} {r : FrostAggregateResult} :
    (o.signLabQuorum w sessionId message).1 = .ok r ↔
      (o.antiNonce.claimSession w.disk w.acks sessionId).1 = .ok () ∧
        o.signClaimed w sessionId message = .ok r := by
  unfold signLabQuorum
  dsimp only
  cases (o.antiNonce.claimSession w.disk w.acks sessionId).1 with
  | error e => simp
  | ok => simp

/-- The session and the message are in what is signed, and nowhere else but in the answer. -/
theorem signClaimed_ok_iff {w : SignWorld S} {sessionId : String} {message : List UInt8}
    {o : FrostSignOrchestrator S} {r : FrostAggregateResult} :
    o.signClaimed w sessionId message = .ok r ↔
      ∃ dayEpoch snap signed, o.rotation.rotation.currentDayEpoch w.now = .ok dayEpoch ∧
        (Runs.run DayNode.step o.rotation w.meanwhile).rotation.requireEpoch w.nowRequired
          dayEpoch = .ok () ∧
        o.shares = some snap ∧
        signQuorum w.rand (bindMessage message sessionId (String.ofList dayEpoch.text)) snap =
          .ok signed ∧
        r = ⟨sessionId, String.ofList dayEpoch.text, signed.1, signed.2⟩ := by
  unfold signClaimed
  constructor
  · -- the steps one after another, each of which may end the call
    intro h
    obtain ⟨dayEpoch, hDay, h⟩ := Results.bind_eq_ok.mp h
    obtain ⟨_, hRequired, h⟩ := Results.bind_eq_ok.mp h
    dsimp only at h
    split at h
    · cases h
    · rename_i snap hShares
      obtain ⟨signed, hSigned, h⟩ := Results.bind_eq_ok.mp h
      exact ⟨dayEpoch, snap, signed, hDay, hRequired, hShares, hSigned, (Except.ok.inj h).symm⟩
  · rintro ⟨dayEpoch, snap, signed, hDay, hRequired, hShares, hSigned, rfl⟩
    refine Results.bind_eq_ok.mpr ⟨dayEpoch, hDay, Results.bind_eq_ok.mpr ⟨(), hRequired, ?_⟩⟩
    rw [hShares]
    exact Results.bind_eq_ok.mpr ⟨signed, hSigned, rfl⟩

/-- A node that has claimed no session claims this one. -/
theorem claimSession_open (acks : Except DomainError (List PrepareAck)) (sessionId : String) :
    (SigningAntiNonce.claimSession .ok acks sessionId
      ⟨PersistedAntiNonce.openStore .empty, none⟩).1 = .ok () := rfl

end FrostSignOrchestrator

open FrostSignOrchestrator

/-! ## Accepted calls -/

/-- A call that went through, of a node whose rotation has come to where it is from its
first boot. -/
structure AcceptedCall (S : FrostSigning) where
  orchestrator : FrostSignOrchestrator S
  boot : DayBoot
  days : List DayCall
  reached : orchestrator.rotation = Runs.run DayNode.step (DayNode.boot boot) days
  world : SignWorld S
  sessionId : String
  message : List UInt8
  result : FrostAggregateResult
  accepted : (orchestrator.signLabQuorum world sessionId message).1 = .ok result

namespace AcceptedCall

variable {S : FrostSigning}

/-- What was signed, for the day of the answer. -/
def boundMessage (a : AcceptedCall S) : List UInt8 :=
  bindMessage a.message a.sessionId a.result.dayEpoch

/-- Two calls say the same. -/
structure SameFields (a b : AcceptedCall S) : Prop where
  dayEpoch : a.result.dayEpoch = b.result.dayEpoch
  sessionId : a.sessionId = b.sessionId
  message : a.message = b.message

/-- Whatever else goes through as the same bytes says the same. -/
def Binds (a : AcceptedCall S) : Prop :=
  ∀ b : AcceptedCall S, b.boundMessage = a.boundMessage → SameFields b a

/-- The session id has no bar, and what stands before a bar of the message is no text. -/
structure Unambiguous (a : AcceptedCall S) : Prop where
  sessionId : '|' ∉ a.sessionId.toList
  message : ∀ text rest, a.message = text ++ bar :: rest → ¬ IsText text

/-- The day of the answer is the node's. -/
theorem dayEpoch_eq (a : AcceptedCall S) :
    a.result.dayEpoch = String.ofList a.orchestrator.rotation.rotation.current.text := by
  obtain ⟨-, hSigned⟩ := signLabQuorum_ok_iff.mp a.accepted
  obtain ⟨dayEpoch, snap, signed, hDay, -, -, -, hResult⟩ := signClaimed_ok_iff.mp hSigned
  rw [hResult, QuorumDailyRotation.currentDayEpoch_ok hDay]

theorem bar_notMem_dayEpoch (a : AcceptedCall S) : bar ∉ textBytes a.result.dayEpoch := by
  rw [bar_mem_textBytes, dayEpoch_eq, String.toList_ofList, a.reached]
  exact DayNode.bar_notMem_current a.boot a.days

/-- The day always reads back. -/
theorem boundMessage_eq_iff {a b : AcceptedCall S} :
    a.boundMessage = b.boundMessage ↔ a.result.dayEpoch = b.result.dayEpoch ∧
      textBytes a.sessionId ++ bar :: a.message = textBytes b.sessionId ++ bar :: b.message := by
  unfold boundMessage bindMessage
  rw [List.append_cancel_left_eq,
    Framing.append_sep_inj a.bar_notMem_dayEpoch b.bar_notMem_dayEpoch, textBytes_inj]

/-- What has the bytes of an accepted call is accepted somewhere: by a node with the same
keys and the same day that has claimed no session. -/
theorem exists_accepted (a : AcceptedCall S) {sessionId : String} {message : List UInt8}
    (h : textBytes sessionId ++ bar :: message = textBytes a.sessionId ++ bar :: a.message) :
    ∃ b : AcceptedCall S,
      b.boundMessage = a.boundMessage ∧ b.sessionId = sessionId ∧ b.message = message := by
  obtain ⟨-, hSigned⟩ := signLabQuorum_ok_iff.mp a.accepted
  obtain ⟨dayEpoch, snap, signed, hDay, hRequired, hShares, hSigned, hResult⟩ :=
    signClaimed_ok_iff.mp hSigned
  -- after the claim only the bytes count
  have hBytes (day : String) : bindMessage message sessionId day =
      bindMessage a.message a.sessionId day := by
    unfold bindMessage
    rw [h]
  refine ⟨{ a with
    orchestrator := { a.orchestrator with
      antiNonce := ⟨PersistedAntiNonce.openStore .empty, none⟩ }
    world := { a.world with disk := .ok }
    sessionId
    message
    result := { a.result with sessionId }
    accepted := ?_ }, ?_, rfl, rfl⟩
  · refine signLabQuorum_ok_iff.mpr ⟨claimSession_open _ _, signClaimed_ok_iff.mpr
      ⟨dayEpoch, snap, signed, hDay, hRequired, hShares, ?_, ?_⟩⟩
    · rw [hBytes]
      exact hSigned
    · rw [hResult]
  · exact hBytes _

end AcceptedCall

/-! ## A small signer -/

/-- `round2::sign` without secrecy, with its checks. -/
def smallSign (package : SigningPackage Small Small) (nonces : Small) (key : PolyKey Small Small) :
    Except String Small :=
  if package.commitments.length < key.minSigners.toNat then
    .error "Incorrect number of commitments."
  else
    match package.commitments.lookup key.identifier with
    | none => .error "The participant's commitment is missing from the Signing Package"
    | some c =>
      if c = nonces then .ok (nonces + key.signingShare)
      else .error "The participant's commitment is incorrect"

/-- Does a share fit its signer's commitment and verifying share? -/
def smallShareFits (package : SigningPackage Small Small) (pubkey : PolyPubkey Small Small)
    (e : Small × Small) : Bool :=
  match package.commitments.lookup e.1, pubkey.verifyingShares.lookup e.1 with
  | some c, some v => decide (c + v = e.2)
  | _, _ => false

/-- A FROST over the small keys; a signature is the message it is for. -/
def smallSigning : FrostSigning where
  toFrostDkg := smallRefresh.toFrostDkg
  Nonces := Small
  Commitments := Small
  SignatureShare := Small
  Signature := List UInt8
  commit _ := fun rand : (Nat → Small) × Small => (rand.2, rand.2)
  sign := smallSign
  aggregate package shares pubkey :=
    if shares.length = package.commitments.length ∧ shares.all (smallShareFits package pubkey) then
      .ok package.message
    else .error "Invalid signature share."
  verify _ message signature :=
    if (signature : List UInt8) = message then .ok () else .error "Invalid signature."
  signatureBytes signature := .ok signature

/-- A node with the small keys, which has claimed no session, on its first day. -/
def smallSigner : FrostSignOrchestrator smallSigning where
  shares := some smallKeys
  antiNonce := ⟨PersistedAntiNonce.openStore .empty, none⟩
  rotation := DayNode.boot DayNode.soloBoot

/-- The hour of the boot, with nobody else about. -/
def smallSignWorld : SignWorld smallSigning where
  disk := .ok
  acks := .ok []
  now := 1704067200
  meanwhile := []
  nowRequired := 1704067200
  rand := fun i : Small => (fun _ => i, i)

/-- What the small signer answers. -/
def smallResult (sessionId : String) (message : List UInt8) : FrostAggregateResult where
  sessionId
  dayEpoch := "2024-01-01"
  signatureHex := hexText (bindMessage message sessionId "2024-01-01")
  participants := 2

/-- The small keys sign anything. -/
theorem signQuorum_smallKeys (boundMessage : List UInt8) :
    @signQuorum smallSigning smallSignWorld.rand boundMessage smallKeys =
      .ok (hexText boundMessage, 2) := by
  have hVerify : smallSigning.verify (smallSigning.verifyingKey smallKeys.pubkeyPackage)
      boundMessage boundMessage = .ok () := if_pos rfl
  -- each share is its signer's nonce and share of the key
  refine Results.bind_eq_ok.mpr ⟨[((1 : Small), (9 : Small)), ((2 : Small), (13 : Small))], rfl,
    Results.bind_eq_ok.mpr ⟨boundMessage, rfl, ?_⟩⟩
  exact Results.bind_eq_ok.mpr ⟨(), mapErr_ok.mpr hVerify, rfl⟩

theorem accepted_smallSigner (sessionId : String) (message : List UInt8) :
    (smallSigner.signLabQuorum smallSignWorld sessionId message).1 =
      .ok (smallResult sessionId message) := by
  have hDay : smallSigner.rotation.rotation.currentDayEpoch smallSignWorld.now =
      .ok ⟨"2024-01-01".toList⟩ := by decide +kernel
  have hRequired : smallSigner.rotation.rotation.requireEpoch smallSignWorld.nowRequired
      ⟨"2024-01-01".toList⟩ = .ok () := by decide +kernel
  exact signLabQuorum_ok_iff.mpr ⟨claimSession_open _ _, signClaimed_ok_iff.mpr
    ⟨_, smallKeys, _, hDay, hRequired, rfl, signQuorum_smallKeys _, rfl⟩⟩

/-- A call of the small signer. -/
def smallCall (sessionId : String) (message : List UInt8) : AcceptedCall smallSigning where
  orchestrator := smallSigner
  boot := DayNode.soloBoot
  days := []
  reached := rfl
  world := smallSignWorld
  sessionId
  message
  result := smallResult sessionId message
  accepted := accepted_smallSigner sessionId message

/-! ## Binding -/

namespace AcceptedCall

/--
**Binding.** What is signed for a session binds the day, the session and the message
exactly where the session id has no bar and no text stands before a bar of the message.
-/
theorem bindMessage_binds_iff (S : FrostSigning) (a : AcceptedCall S) :
    a.Binds ↔ a.Unambiguous := by
  constructor
  · intro hBinds
    constructor
    · intro hBar
      -- the bar in the session id is taken for the one after it
      obtain ⟨x, y, hId⟩ := List.append_of_mem (bar_mem_textBytes.mpr hBar)
      obtain ⟨⟨s, rfl⟩, -⟩ := (isText_append_bar x y).mp ⟨a.sessionId, hId⟩
      have hBytes : textBytes s ++ bar :: (y ++ bar :: a.message) =
          textBytes a.sessionId ++ bar :: a.message := by
        rw [hId, List.append_assoc, List.cons_append]
      obtain ⟨b, hBound, hSession, -⟩ := a.exists_accepted hBytes
      have hSame := (hBinds b hBound).sessionId
      rw [hSession] at hSame
      rw [hSame] at hId
      have hLength := congrArg List.length hId
      rw [List.length_append, List.length_cons] at hLength
      omega
    · rintro text rest hMessage ⟨u, rfl⟩
      -- the session id is taken to go on up to the bar of the message
      obtain ⟨s, hs⟩ := (isText_append_bar (textBytes a.sessionId) (textBytes u)).mpr
        ⟨⟨a.sessionId, rfl⟩, ⟨u, rfl⟩⟩
      have hBytes : textBytes s ++ bar :: rest = textBytes a.sessionId ++ bar :: a.message := by
        rw [hs, hMessage, List.append_assoc, List.cons_append]
      obtain ⟨b, hBound, hSession, -⟩ := a.exists_accepted hBytes
      have hSame := (hBinds b hBound).sessionId
      rw [hSession] at hSame
      rw [hSame] at hs
      have hLength := congrArg List.length hs
      rw [List.length_append, List.length_cons] at hLength
      omega
  · intro hClear b hBound
    obtain ⟨hDay, hRest⟩ := boundMessage_eq_iff.mp hBound
    rcases Framing.append_sep_eq_iff.mp hRest with
      ⟨hId, hMessage⟩ | ⟨u, hId, -⟩ | ⟨u, hId, hMessage⟩
    · exact ⟨hDay, textBytes_inj.mp hId, hMessage⟩
    · -- the other session id ends within this one
      refine absurd (bar_mem_textBytes.mp ?_) hClear.sessionId
      rw [hId]
      exact List.mem_append_right _ List.mem_cons_self
    · -- the other session id goes on into the message
      have hTexts := (isText_append_bar (textBytes a.sessionId) u).mp ⟨b.sessionId, hId⟩
      exact absurd hTexts.2 (hClear.message _ _ hMessage)

/-- A plain session id and a message without bars are bound. -/
theorem binds_smallCall : (smallCall "sess-a" [0x68, 0x69]).Binds := by
  refine (bindMessage_binds_iff smallSigning _).mpr ⟨by decide, fun text rest h => ?_⟩
  have hMem : bar ∈ (smallCall "sess-a" [0x68, 0x69]).message := by
    rw [h]
    exact List.mem_append_right _ List.mem_cons_self
  exact absurd hMem (by decide)

/-- A bar goes from the session id to the message: one signature is for both sessions. -/
theorem bindMessage_binds_fails : ¬ ∀ a b : AcceptedCall smallSigning,
    a.boundMessage = b.boundMessage → SameFields a b := by
  intro h
  have hSame := h (smallCall "a|b" [0x63]) (smallCall "a" [0x62, 0x7c, 0x63]) (by decide +kernel)
  exact absurd hSame.sessionId (by decide)

end AcceptedCall

end KeroseneVault
