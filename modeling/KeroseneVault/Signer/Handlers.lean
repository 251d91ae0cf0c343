import KeroseneVault.Domain.Intake
import KeroseneVault.Lib.Json
import KeroseneVault.Signer.Session

/-!
# Requests to the signer

`vault-signer`, `main.rs`: the daemon reads a request and answers it. What `serde_json`, `hex`
and the FROST library make of the data is a parameter.

* `SignerPorts` — the parameters;
* `SignerDaemon` — the sessions, and the public key package;
* `participants` — identifiers read from the first bytes of byte strings;
* `handleRequest` — the answer, unless the daemon panics, and what it leaves.

Main results:

* `participants_panicked_iff` — byte strings whose identifiers cannot be read at all;
* `handleCommitments_cases` — what a batch of commitments comes to;
* `signer_requests_atomic_and_total_iff` — batches that fail without a trace, and requests for
  a session that are answered.
-/

namespace KeroseneVault

/-- What the daemon uses of its libraries. -/
structure SignerPorts where
  Commitments : Type
  Share : Type
  PubkeyPackage : Type
  Signature : Type
  hexDecode : String → Except String (List UInt8)
  /-- The text of the error for an identifier that is zero. -/
  zeroIdentifier : String
  readCommitments : Json → Except String (SortedMap ℕ Commitments)
  readShare : Json → Except String (ℕ × Share)
  readPubkeyPackage : Json → Except String PubkeyPackage
  aggregate : Table SignerIdentifier Commitments → Table SignerIdentifier Share → PubkeyPackage →
    List UInt8 → Except SignerError Signature
  signatureBytes : Signature → Except String (List UInt8)

/-- `SignerRequest`. -/
inductive SignerRequest where
  | createSession (message : String) (participants : List (List UInt8)) (minSigners : ℕ)
  | installKeyPackages (pubkeyPackage : Json)
  | submitCommitments (sessionId : String) (commitments : Json)
  | submitSignatureShare (sessionId : String) (share : Json)
  | getSignature (sessionId : String)
  | sessionStatus (sessionId : String)
  | health

/-- `SignerResponse`. -/
inductive SignerResponse where
  | sessionCreated (sessionId : String)
  | commitmentsAccepted
  | keyPackagesInstalled
  | signatureShareAccepted
  | signature (signature : List UInt8)
  | sessionStatus (state : String) (commitmentsCount sharesCount minSigners : ℕ)
  | health (status : String) (activeSessions : ℕ)
  | error (message : String)

/-- The session manager and the key store. -/
structure SignerDaemon (P : SignerPorts) where
  sessions : Table String (SignerSession P.Commitments P.Share)
  maxSessions : ℕ
  pubkeyPackage : Option P.PubkeyPackage

namespace SignerDaemon

variable {P : SignerPorts}

/-- The daemon after its start, with the package that it found on disk. -/
def start (pubkeyPackage : Option P.PubkeyPackage) : SignerDaemon P := ⟨∅, 64, pubkeyPackage⟩

/-- `create_session`; `SessionId::new` makes the id. -/
def createSession (d : SignerDaemon P) (newId : String) (message : List UInt8)
    (expectedParticipants : List SignerIdentifier) (minSigners : ℕ) :
    Except SignerError (String × SignerDaemon P) :=
  if d.sessions.size ≥ d.maxSessions then .error (.internal "max concurrent sessions reached")
  else
    let session := SignerSession.new newId message expectedParticipants minSigners
    .ok (newId, { d with sessions := d.sessions.insert newId session })

/-- `get_session`. -/
def getSession (d : SignerDaemon P) (id : String) :
    Except SignerError (SignerSession P.Commitments P.Share) :=
  match d.sessions.lookup id with
  | some session => .ok session
  | none => .error .sessionNotFound

/-- What was done to a session got by `get_session_mut`. -/
def putSession (d : SignerDaemon P) (id : String)
    (session : SignerSession P.Commitments P.Share) : SignerDaemon P :=
  { d with sessions := d.sessions.insert id session }

end SignerDaemon

-- ---------------------------------------------------------------------------
-- Requests
-- ---------------------------------------------------------------------------

/-- The identifier in the first two bytes, or in the only one. -/
def participant (zero : String) (b : List UInt8) : Intake String SignerIdentifier :=
  if b.length ≥ 2 then
    (byteAt b 0).andThen fun b0 => (byteAt b 1).andThen fun b1 =>
      .ofExcept (SignerSession.identifierOf zero (beNat [b0, b1]))
  -- an empty byte string has no byte at 0
  else (byteAt b 0).andThen fun b0 => .ofExcept (SignerSession.identifierOf zero b0.toNat)

/-- The identifiers of all participants; the first error ends it. -/
def participants (zero : String) : List (List UInt8) → Intake String (List SignerIdentifier)
  | [] => .ok []
  | b :: rest => (participant zero b).andThen fun identifier =>
    (participants zero rest).andThen fun identifiers => .ok (identifier :: identifiers)

/-- An identifier that is there and is zero. -/
def ReadsZero (b : List UInt8) : Prop := b ≠ [] ∧ beNat (b.take 2) = 0

theorem participant_of_ne (zero : String) {b : List UInt8} (h : b ≠ []) :
    participant zero b = .ofExcept (SignerSession.identifierOf zero (beNat (b.take 2))) := by
  match b, h with
  | [b0], _ =>
    have hOne : beNat [b0] = b0.toNat := Nat.add_zero _
    rw [show [b0].take 2 = [b0] from rfl, hOne]
    rfl
  | b0 :: b1 :: rest, _ =>
    unfold participant
    rw [if_pos (by simp)]
    rfl

/-- Whether a list of identifiers ends in a panic: no zero comes before an empty one. -/
theorem participants_panicked_iff (zero : String) (parts : List (List UInt8)) :
    participants zero parts = .panicked ↔
      ∃ before after, parts = before ++ [] :: after ∧ ∀ b ∈ before, ¬ ReadsZero b := by
  induction parts with
  | nil =>
    refine ⟨nofun, ?_⟩
    rintro ⟨before, after, hParts, -⟩
    exact absurd hParts.symm (List.append_ne_nil_of_right_ne_nil _ (List.cons_ne_nil _ _))
  | cons b rest ih =>
    unfold participants
    by_cases hEmpty : b = []
    · subst hEmpty
      exact ⟨fun _ => ⟨[], rest, rfl, nofun⟩, fun _ => rfl⟩
    rw [participant_of_ne zero hEmpty]
    -- the empty identifier is not the first
    have hLater : (∃ before after, b :: rest = before ++ [] :: after ∧
        ∀ c ∈ before, ¬ ReadsZero c) ↔ ¬ ReadsZero b ∧
          ∃ before after, rest = before ++ [] :: after ∧ ∀ c ∈ before, ¬ ReadsZero c := by
      constructor
      · rintro ⟨before, after, hParts, hBefore⟩
        cases before with
        | nil => exact absurd (List.cons.inj hParts).1 hEmpty
        | cons c before =>
          obtain ⟨rfl, hRest⟩ := List.cons.inj hParts
          rw [List.forall_mem_cons] at hBefore
          exact ⟨hBefore.1, before, after, hRest, hBefore.2⟩
      · rintro ⟨hFirst, before, after, rfl, hBefore⟩
        exact ⟨b :: before, after, rfl, List.forall_mem_cons.mpr ⟨hFirst, hBefore⟩⟩
    rw [hLater, ← ih]
    by_cases hZero : beNat (b.take 2) = 0
    · rw [SignerSession.identifierOf, dif_pos hZero]
      constructor
      · intro hPanicked
        cases hPanicked
      · exact fun h => absurd ⟨hEmpty, hZero⟩ h.1
    · rw [SignerSession.identifierOf, dif_neg hZero,
        and_iff_right (fun hReads : ReadsZero b => hZero hReads.2)]
      show (participants zero rest).andThen _ = .panicked ↔ _
      cases participants zero rest with
      | panicked => exact Iff.rfl
      | error e =>
        constructor
        · intro hPanicked
          cases hPanicked
        · intro hPanicked
          cases hPanicked
      | ok identifiers =>
        constructor
        · intro hPanicked
          cases hPanicked
        · intro hPanicked
          cases hPanicked

namespace SignerDaemon

variable {P : SignerPorts}

/-- `CreateSession`. There is no answer where it panics. -/
def handleCreateSession (newId message : String) (parts : List (List UInt8)) (minSigners : ℕ)
    (d : SignerDaemon P) : Option SignerResponse × SignerDaemon P :=
  match P.hexDecode message with
  | .error e => (some (.error s!"invalid hex: {e}"), d)
  | .ok msgBytes =>
    match participants P.zeroIdentifier parts with
    | .panicked => (none, d)
    | .error e => (some (.error s!"invalid identifier: {e}"), d)
    | .ok identifiers =>
      match d.createSession newId msgBytes identifiers minSigners with
      | .error e => (some (.error e.text), d)
      | .ok (id, d) => (some (.sessionCreated id), d)

/-- `InstallKeyPackages`. A package that cannot be saved is installed all the same. -/
def handleInstall (pubkeyPackage : Json) (d : SignerDaemon P) : SignerResponse × SignerDaemon P :=
  match P.readPubkeyPackage pubkeyPackage with
  | .error e => (.error s!"invalid pubkey package: {e}", d)
  | .ok pk => (.keyPackagesInstalled, { d with pubkeyPackage := some pk })

/-- `SubmitCommitments`. -/
def handleCommitments (sessionId : String) (commitments : Json) (d : SignerDaemon P) :
    SignerResponse × SignerDaemon P :=
  match d.getSession sessionId with
  | .error e => (.error e.text, d)
  | .ok session =>
    match P.readCommitments commitments with
    | .error e => (.error s!"invalid commitments format: {e}", d)
    | .ok parsed =>
      if parsed.entries = [] then (.error "no commitments provided", d)
      else
        match SignerSession.addBatch P.zeroIdentifier parsed.entries session with
        | (.error e, session) => (.error e, d.putSession sessionId session)
        | (.ok (), session) => (.commitmentsAccepted, d.putSession sessionId session)

/-- `SubmitSignatureShare`. -/
def handleShare (sessionId : String) (share : Json) (d : SignerDaemon P) :
    SignerResponse × SignerDaemon P :=
  match d.getSession sessionId with
  | .error e => (.error e.text, d)
  | .ok session =>
    match P.readShare share with
    | .error e => (.error s!"invalid share format: {e}", d)
    | .ok (n, share) =>
      match SignerSession.identifierOf P.zeroIdentifier n with
      | .error e => (.error s!"invalid identifier {n}: {e}", d)
      | .ok identifier =>
        match session.addSignatureShare identifier share with
        | .error e => (.error s!"add signature share: {e.text}", d)
        | .ok session => (.signatureShareAccepted, d.putSession sessionId session)

/-- `GetSignature`. -/
def handleGetSignature (sessionId : String) (d : SignerDaemon P) : SignerResponse :=
  match d.getSession sessionId with
  | .error e => .error e.text
  | .ok session =>
    if session.state ≠ .complete then .error "session not yet complete"
    else
      match d.pubkeyPackage with
      | none => .error "key packages not installed"
      | some pubkeyPackage =>
        let minSigners := session.minSigners
        let commitments := session.commitments.size
        let shares := session.signatureShares.size
        if commitments < minSigners then
          .error s!"insufficient commitments: have {commitments}, need {minSigners}"
        else if shares < minSigners then
          .error s!"insufficient signature shares: have {shares}, need {minSigners}"
        else
          match P.aggregate session.commitments session.signatureShares pubkeyPackage
              session.message with
          | .error e => .error s!"aggregation failed: {e.text}"
          | .ok signature =>
            match P.signatureBytes signature with
            | .error e => .error s!"signature serialization failed: {e}"
            | .ok bytes => .signature bytes

/-- The name of a state. -/
def stateName : SignerState → String
  | .awaitingCommitments => "awaiting_commitments"
  | .awaitingSignatureShares => "awaiting_signature_shares"
  | .complete => "complete"
  | .failed _ => "failed"

/-- `SessionStatus`. -/
def handleStatus (sessionId : String) (d : SignerDaemon P) : SignerResponse :=
  match d.getSession sessionId with
  | .error e => .error e.text
  | .ok session =>
    .sessionStatus (stateName session.state) session.commitments.size
      session.signatureShares.size session.minSigners

/-- The answer as it is given by the handlers that always give one. -/
def answered (r : SignerResponse × SignerDaemon P) : Option SignerResponse × SignerDaemon P :=
  (some r.1, r.2)

/-- `handle_request`; `newId` is the id that a new session gets. -/
def handleRequest (newId : String) (d : SignerDaemon P) :
    SignerRequest → Option SignerResponse × SignerDaemon P
  | .health => (some (.health "ok" d.sessions.size), d)
  | .installKeyPackages pubkeyPackage => answered (d.handleInstall pubkeyPackage)
  | .createSession message parts minSigners => d.handleCreateSession newId message parts minSigners
  | .submitCommitments sessionId commitments => answered (d.handleCommitments sessionId commitments)
  | .submitSignatureShare sessionId share => answered (d.handleShare sessionId share)
  | .getSignature sessionId => (some (d.handleGetSignature sessionId), d)
  | .sessionStatus sessionId => (some (d.handleStatus sessionId), d)

-- ---------------------------------------------------------------------------
-- A batch of commitments
-- ---------------------------------------------------------------------------

section Commitments

variable {d : SignerDaemon P} {sessionId : String} {commitments : Json}

theorem getSession_eq_ok {id : String} {session : SignerSession P.Commitments P.Share} :
    d.getSession id = .ok session ↔ d.sessions.lookup id = some session := by
  unfold getSession
  cases d.sessions.lookup id with
  | none => exact ⟨nofun, nofun⟩
  | some found => rw [Except.ok.injEq, Option.some.injEq]

/-- Nothing was read; or it was added to its session, as far as that went. -/
theorem handleCommitments_cases (d : SignerDaemon P) (sessionId : String) (commitments : Json) :
    (∃ message, d.handleCommitments sessionId commitments = (.error message, d) ∧
      ∀ session batch, d.sessions.lookup sessionId = some session →
        P.readCommitments commitments = .ok batch → batch.entries = []) ∨
    (∃ session batch, d.sessions.lookup sessionId = some session ∧
      P.readCommitments commitments = .ok batch ∧ batch.entries ≠ [] ∧
      (d.handleCommitments sessionId commitments).2 = d.putSession sessionId
        (SignerSession.addBatch P.zeroIdentifier batch.entries session).2 ∧
      ((∀ message, (d.handleCommitments sessionId commitments).1 ≠ .error message) ↔
        (SignerSession.addBatch P.zeroIdentifier batch.entries session).1 = .ok ())) := by
  unfold handleCommitments
  cases hFound : d.getSession sessionId with
  | error e =>
    -- there is no such session
    refine .inl ⟨_, rfl, ?_⟩
    intro session batch hLookup
    rw [getSession_eq_ok.mpr hLookup] at hFound
    cases hFound
  | ok session =>
    have hLookup := getSession_eq_ok.mp hFound
    dsimp only
    cases hRead : P.readCommitments commitments with
    | error e => exact .inl ⟨_, rfl, fun _ _ _ => nofun⟩
    | ok batch =>
      dsimp only
      split
      · rename_i hEmpty
        refine .inl ⟨_, rfl, ?_⟩
        intro _ _ _ hSame
        cases hSame
        exact hEmpty
      · rename_i hEntries
        -- the session is put back on either answer of the loop
        refine .inr ⟨session, batch, hLookup, rfl, hEntries, ?_⟩
        split
        · rename_i hAdded
          rw [hAdded]
          exact ⟨rfl, fun h => absurd rfl (h _), nofun⟩
        · rename_i hAdded
          rw [hAdded]
          exact ⟨rfl, fun _ => rfl, fun _ _ => nofun⟩

end Commitments

-- ---------------------------------------------------------------------------
-- Errors and panics
-- ---------------------------------------------------------------------------

/-- If the batch is answered with an error, all sessions are as they were. -/
def FailsClean (d : SignerDaemon P) (newId sessionId : String) (commitments : Json) : Prop :=
  let answer := d.handleRequest newId (.submitCommitments sessionId commitments)
  ∀ message, answer.1 = some (.error message) →
    ∀ id, answer.2.sessions.lookup id = d.sessions.lookup id

/-- The request is answered. -/
def Answers (d : SignerDaemon P) (newId : String) (request : SignerRequest) : Prop :=
  (d.handleRequest newId request).1 ≠ none

/-- When a batch that is refused leaves no trace. -/
theorem failsClean_iff (d : SignerDaemon P) (newId sessionId : String) (commitments : Json) :
    d.FailsClean newId sessionId commitments ↔
      ∀ session batch, d.sessions.lookup sessionId = some session →
        P.readCommitments commitments = .ok batch → batch.entries ≠ [] →
          session.AllOrNothing batch.entries := by
  show (∀ message, some (d.handleCommitments sessionId commitments).1 = some (.error message) →
    ∀ id, (d.handleCommitments sessionId commitments).2.sessions.lookup id =
      d.sessions.lookup id) ↔ _
  rcases handleCommitments_cases d sessionId commitments with
    ⟨message, hSame, hEmpty⟩ | ⟨session, batch, hLookup, hRead, hEntries, hAfter, hAccepted⟩
  · rw [hSame]
    refine ⟨fun _ session batch hLookup hRead hEntries => ?_, fun _ _ _ _ => rfl⟩
    exact absurd (hEmpty session batch hLookup hRead) hEntries
  · have hOnly : (∀ session batch, d.sessions.lookup sessionId = some session →
        P.readCommitments commitments = .ok batch → batch.entries ≠ [] →
          session.AllOrNothing batch.entries) ↔ session.AllOrNothing batch.entries := by
      refine ⟨fun h => h session batch hLookup hRead hEntries, ?_⟩
      intro h session' batch' hLookup' hRead' _
      obtain rfl := Option.some.inj (hLookup'.symm.trans hLookup)
      obtain rfl := Except.ok.inj (hRead'.symm.trans hRead)
      exact h
    rw [hOnly, SignerSession.takes_allOrNothing_iff hEntries, hAfter]
    rw [SignerSession.addBatch_accepted_iff batch.nodup_keys] at hAccepted
    constructor
    · intro hClean
      by_contra hPart
      obtain ⟨hSome, hNotAll⟩ := not_or.mp hPart
      -- the batch was refused, and its first entry is in the session
      obtain ⟨message, hMessage⟩ := not_forall_not.mp (mt hAccepted.mp hNotAll)
      have hSession := hClean message (congrArg some hMessage) sessionId
      rw [putSession, AList.lookup_insert, hLookup] at hSession
      exact SignerSession.addBatch_ne batch.nodup_keys hSome (Option.some.inj hSession)
    · rintro (hNone | hAll) message hMessage id
      · rw [SignerSession.addBatch_of_taken_nil hNone]
        by_cases hId : id = sessionId
        · subst hId
          rw [putSession, AList.lookup_insert, hLookup]
        · rw [putSession, AList.lookup_insert_ne hId]
      · exact absurd (Option.some.inj hMessage) (hAccepted.mpr hAll message)

/-- When a request for a session is answered at all. -/
theorem answers_createSession_iff (d : SignerDaemon P) (newId message : String)
    (parts : List (List UInt8)) (minSigners : ℕ) :
    d.Answers newId (.createSession message parts minSigners) ↔
      ∀ bytes, P.hexDecode message = .ok bytes →
        ∀ before after, parts = before ++ [] :: after → ∃ b ∈ before, ReadsZero b := by
  show (d.handleCreateSession newId message parts minSigners).1 ≠ none ↔ _
  unfold handleCreateSession
  cases P.hexDecode message with
  | error e => exact ⟨fun _ _ => nofun, fun _ => nofun⟩
  | ok msgBytes =>
    have hPanic := participants_panicked_iff P.zeroIdentifier parts
    have hReads : (∀ bytes, Except.ok msgBytes = (Except.ok bytes : Except String _) →
        ∀ before after, parts = before ++ [] :: after → ∃ b ∈ before, ReadsZero b) ↔
          participants P.zeroIdentifier parts ≠ .panicked := by
      rw [ne_eq, hPanic]
      push Not
      exact ⟨fun h => h msgBytes rfl, fun h _ _ => h⟩
    rw [hReads]
    dsimp only
    -- past the identifiers every branch answers
    cases participants P.zeroIdentifier parts with
    | panicked => exact ⟨fun h => absurd rfl h, fun h => absurd rfl h⟩
    | error e => exact ⟨fun _ => nofun, fun _ => nofun⟩
    | ok identifiers =>
      refine ⟨fun _ => nofun, fun _ => ?_⟩
      dsimp only
      split
      · nofun
      · nofun

/-- **Atomic and total**: a refused batch leaves no trace exactly if the session would take
nothing or all of it, and `CreateSession` is answered exactly if each empty identifier has a
zero before it. -/
theorem signer_requests_atomic_and_total_iff (d : SignerDaemon P) :
    (∀ newId sessionId commitments, d.FailsClean newId sessionId commitments ↔
      ∀ session batch, d.sessions.lookup sessionId = some session →
        P.readCommitments commitments = .ok batch → batch.entries ≠ [] →
          session.AllOrNothing batch.entries) ∧
    (∀ newId message parts minSigners,
      d.Answers newId (.createSession message parts minSigners) ↔
        ∀ bytes, P.hexDecode message = .ok bytes →
          ∀ before after, parts = before ++ [] :: after → ∃ b ∈ before, ReadsZero b) :=
  ⟨failsClean_iff d, answers_createSession_iff d⟩

end SignerDaemon

/-- The value of `SigningCommitments`, under the number of each signer. -/
def commitmentsJson (signers : List ℕ) : Json :=
  .obj (signers.map fun id => (toString id, .obj [("hiding", .str "02"), ("binding", .str "03")]))

/-- The share of a signer. -/
def shareJson (signer : UInt64) : Json := .obj [("identifier", .num signer), ("share", .str "04")]

/-- Ports that read the commitments of these signers and the share of this one, and refuse
any other value. -/
def fixedPorts (signers : List ℕ) (signer : UInt64) : SignerPorts where
  Commitments := Unit
  Share := Unit
  PubkeyPackage := Unit
  Signature := Unit
  hexDecode text := hexPairs text.toList
  zeroIdentifier := "zero"
  readCommitments v :=
    if v.chars = (commitmentsJson signers).chars then
      .ok (SortedMap.ofList (signers.map fun id => (id, ())))
    else .error "invalid type, expected a map"
  readShare v :=
    if v.chars = (shareJson signer).chars then .ok (signer.toNat, ())
    else .error "invalid type, expected struct SharePayload"
  readPubkeyPackage _ := .ok ()
  aggregate _ _ _ _ := .ok ()
  signatureBytes _ := .ok []

namespace SignerDaemon

/-- A session of two signers takes the first two of three commitments, and refuses the third;
and an empty identifier is no identifier. -/
theorem signer_requests_leave_traces_and_panic :
    ¬ (∀ (P : SignerPorts) (d : SignerDaemon P) newId sessionId commitments,
      d.FailsClean newId sessionId commitments) ∧
    ¬ ∀ (P : SignerPorts) (d : SignerDaemon P) newId message parts minSigners,
      d.Answers newId (.createSession message parts minSigners) := by
  let P := fixedPorts [1, 2, 3] 1
  constructor
  · -- the second commitment ends the wait for commitments, so the third is refused
    intro h
    let d : SignerDaemon P :=
      ((start none).handleRequest "session" (.createSession "" [[1], [2]] 2)).2
    have hClean := h P d "" "session" (commitmentsJson [1, 2, 3])
      "add commitment: session already completed" (by rfl) "session"
    have hState := congrArg (Option.map SignerSession.state) hClean
    exact absurd hState (by decide)
  · intro h
    exact h P (start none) "session" "" [[]] 2 rfl

end SignerDaemon

end KeroseneVault
