import KeroseneVault.Dkg.Completion

/-!
# The Taproot hub and the Intent hub

`dkg_tr_wire` is a copy of `dkg_wire` with another crate, other texts, another
transcript domain, no envelope check, and other records at the end. Over one
abstract crate the sessions of the one hub determine those of the other.

* `SessionInner.twin` — the Taproot session an Intent session goes with;
* `Twins` — hubs whose sessions go with each other;
* `CallAlike` — the same call, with transcripts of the one domain or the other;
* `HubAnswer.shape` — an answer up to transcripts and the key's bytes.

Main results:

* `ingestRound1_twin`, `ingestRound2_twin`, `round3Keys_twin` — the methods of
  a session commute with `twin`;
* `Twins.perform` — one call;
* `dkgHubs_refine` — every sequence of calls.
-/

namespace KeroseneVault

open Results (Alike)

variable {F : FrostDkg}

/-! ## Up to the transcript -/

/-- The two texts are transcripts of the same constitutions, each in its
domain. -/
def SameTranscript (F : FrostDkg) (text text' : String) : Prop :=
  ∀ sessionId max min (roster : Roster F),
    text = sessionTranscript .plain sessionId max min roster ↔
      text' = sessionTranscript .taproot sessionId max min roster

/-- Where texts are hashed apart, the two hubs' transcripts of one constitution
are the same. -/
theorem SameTranscript.of_injective
    (hInj : ∀ a b, F.hexEncode (F.sha256 a) = F.hexEncode (F.sha256 b) → a = b)
    (sessionId : String) (max min : Nat) (roster : Roster F) :
    SameTranscript F (sessionTranscript .plain sessionId max min roster)
      (sessionTranscript .taproot sessionId max min roster) := by
  intro sessionId' most least roster'
  -- under either domain the rest of the text decides
  have hRest : ∀ k : WireDkg, sessionTranscript k sessionId max min roster =
      sessionTranscript k sessionId' most least roster' ↔
        sessionId ++ s!"|max={max}|min={min}" ++ "|roster=" ++
            String.intercalate "," (roster.map Prod.fst) =
          sessionId' ++ s!"|max={most}|min={least}" ++ "|roster=" ++
            String.intercalate "," (roster'.map Prod.fst) := by
    intro k
    have hText : ∀ sid max min (roster : Roster F), sessionTranscript k sid max min roster =
        F.hexEncode (F.sha256 (k.transcriptDomain ++ (sid ++ s!"|max={max}|min={min}" ++ "|roster=" ++
          String.intercalate "," (roster.map Prod.fst)))) := by
      intro sid max min roster
      simp only [sessionTranscript, String.append_assoc]
    rw [hText, hText]
    constructor
    · intro h
      have hLists := (congrArg String.toList (hInj _ _ h))
      rw [String.toList_append (s := k.transcriptDomain),
        String.toList_append (s := k.transcriptDomain)] at hLists
      exact String.toList_inj.mp (List.append_cancel_left hLists)
    · exact congrArg fun rest => F.hexEncode (F.sha256 (k.transcriptDomain ++ rest))
  rw [hRest, hRest]

/-- A status up to transcript and key. -/
def WireDkgStatus.shape (status : WireDkgStatus) : WireDkgStatus :=
  { status with transcriptHex := "", verifyingKeyHex := status.verifyingKeyHex.map fun _ => "" }

def Round1WireMessage.shape (msg : Round1WireMessage) : Round1WireMessage :=
  { msg with transcriptHex := "" }

def Round2WireMessage.shape (msg : Round2WireMessage) : Round2WireMessage :=
  { msg with transcriptHex := "" }

/-! ## Sessions -/

namespace SessionInner

/-- The Taproot session an Intent session goes with. -/
def twin (s : SessionInner .plain F) : SessionInner .taproot F where
  sessionId := s.sessionId
  localNodeId := s.localNodeId
  localIdentifier := s.localIdentifier
  maxSigners := s.maxSigners
  minSigners := s.minSigners
  roster := s.roster
  transcriptHex := sessionTranscript .taproot s.sessionId s.maxSigners s.minSigners s.roster
  rosterClosed := s.rosterClosed
  phase := s.phase
  round1Secret := s.round1Secret
  round1Packages := s.round1Packages
  round2Secret := s.round2Secret
  round2Inbox := s.round2Inbox
  round2Outbound := s.round2Outbound
  keyPackage := s.keyPackage.map F.evenKey
  pubkeyPackage := s.pubkeyPackage.map F.evenPubkey

/-- The session's transcript is that of its constitution. -/
def Bound (s : SessionInner .plain F) : Prop :=
  s.transcriptHex = sessionTranscript .plain s.sessionId s.maxSigners s.minSigners s.roster

variable {s : SessionInner .plain F}

@[simp] theorem twin_status (s : SessionInner .plain F) : s.twin.status.shape = s.status.shape := by
  unfold status WireDkgStatus.shape twin
  cases s.pubkeyPackage with
  | none => rfl
  | some pk => rfl

/-- No call moves a transcript away from its constitution. -/
theorem Bound.extends {k : WireDkg} {s t : SessionInner k F} (h : s.Extends t)
    (hBound : s.transcriptHex = sessionTranscript k s.sessionId s.maxSigners s.minSigners s.roster) :
    t.transcriptHex = sessionTranscript k t.sessionId t.maxSigners t.minSigners t.roster := by
  have hFrozen := h.constitution
  simp only [constitution, Prod.mk.injEq] at hFrozen
  obtain ⟨hSid, -, -, hMax, hMin, hRoster, hTranscript⟩ := hFrozen
  rw [hTranscript, hSid, hMax, hMin, hRoster]
  exact hBound

/-- The domains do not matter to whether a message is of the session. -/
theorem Bound.transcript (h : s.Bound) {text text' : String} (hSame : SameTranscript F text text') :
    text = s.transcriptHex ↔ text' = s.twin.transcriptHex := by
  rw [h]
  exact hSame ..

theorem advanceToRound2_twin (s : SessionInner .plain F) :
    Alike (fun _ _ => True) s.advanceToRound2.1 s.twin.advanceToRound2.1 ∧
      s.twin.advanceToRound2.2 = s.advanceToRound2.2.twin := by
  unfold advanceToRound2
  rw [show s.twin.round1Secret = s.round1Secret from rfl]
  cases s.round1Secret with
  | none => exact ⟨trivial, rfl⟩
  | some secret =>
    dsimp only [twin]
    cases F.part2 secret (s.round1Packages.erase s.localIdentifier) with
    | error e => exact ⟨trivial, rfl⟩
    | ok drawn => exact ⟨trivial, rfl⟩

theorem acceptRound1_twin (s : SessionInner .plain F) (id : F.Identifier)
    (package : F.Round1Package) :
    Alike (fun _ _ => True) (s.acceptRound1 id package).1 (s.twin.acceptRound1 id package).1 ∧
      (s.twin.acceptRound1 id package).2 = (s.acceptRound1 id package).2.twin := by
  let next : SessionInner .plain F :=
    { s with round1Packages := s.round1Packages.insert id package }
  let moves : Prop := next.round1Packages.size % 2 ^ 16 = next.maxSigners ∧
    next.round1Secret.isSome ∧ next.phase = .round1
  have hPlain : s.acceptRound1 id package =
      if moves then next.advanceToRound2 else (.ok (), next) := rfl
  have hTwin : s.twin.acceptRound1 id package =
      if moves then next.twin.advanceToRound2 else (.ok (), next.twin) := rfl
  rw [hPlain, hTwin]
  split
  · exact advanceToRound2_twin next
  · exact ⟨trivial, rfl⟩

theorem decodeRound1_alike (packageHex : String) :
    Alike Eq (decodeRound1 .plain F packageHex) (decodeRound1 .taproot F packageHex) := by
  unfold decodeRound1
  cases F.hexDecode packageHex with
  | error e => trivial
  | ok bytes =>
    dsimp only [mapErr]
    cases F.readRound1 bytes with
    | error e => trivial
    | ok package => rfl

theorem decodeRound2_alike (packageHex : String) :
    Alike Eq (decodeRound2 .plain F packageHex) (decodeRound2 .taproot F packageHex) := by
  unfold decodeRound2
  cases F.hexDecode packageHex with
  | error e => trivial
  | ok bytes =>
    dsimp only [mapErr]
    cases F.readRound2 bytes with
    | error e => trivial
    | ok package => rfl

/-- A round 1 message makes of both sessions the same. -/
theorem ingestRound1_twin (hBound : s.Bound) {msg : Round1WireMessage} {text : String}
    (hSame : SameTranscript F msg.transcriptHex text) :
    Alike (fun _ _ => True) (s.ingestRound1 msg).1
        (s.twin.ingestRound1 { msg with transcriptHex := text }).1 ∧
      (s.twin.ingestRound1 { msg with transcriptHex := text }).2 = (s.ingestRound1 msg).2.twin := by
  have hTranscript := hBound.transcript hSame
  -- the checks one after another: both sessions pass each or refuse alike
  unfold ingestRound1
  rw [show s.twin.phase = s.phase from rfl, show s.twin.maxSigners = s.maxSigners from rfl,
    show s.twin.minSigners = s.minSigners from rfl, show s.twin.roster = s.roster from rfl,
    show s.twin.localIdentifier = s.localIdentifier from rfl,
    show s.twin.rosterClosed = s.rosterClosed from rfl,
    show s.twin.round1Packages = s.round1Packages from rfl]
  dsimp only
  by_cases hPhase : s.phase = .complete
  · rw [if_pos hPhase, if_pos hPhase]
    exact ⟨trivial, rfl⟩
  rw [if_neg hPhase, if_neg hPhase]
  by_cases hDrift : msg.maxSigners ≠ s.maxSigners ∨ msg.minSigners ≠ s.minSigners
  · rw [if_pos hDrift, if_pos hDrift]
    exact ⟨trivial, rfl⟩
  rw [if_neg hDrift, if_neg hDrift]
  by_cases hText : msg.transcriptHex = s.transcriptHex
  swap
  · rw [if_pos hText, if_pos (fun h => hText (hTranscript.mpr h))]
    exact ⟨trivial, rfl⟩
  rw [if_neg (not_not.mpr hText), if_neg (not_not.mpr (hTranscript.mp hText))]
  unfold identifierFromU16
  cases F.ofU16 msg.senderIdentifier with
  | error e => exact ⟨trivial, rfl⟩
  | ok senderId =>
    dsimp only [mapErr]
    cases s.roster.lookup msg.senderNodeId with
    | none => exact ⟨trivial, rfl⟩
    | some expected =>
      dsimp only
      split
      · exact ⟨trivial, rfl⟩
      split
      · exact ⟨trivial, rfl⟩
      split
      · split
        · exact ⟨trivial, rfl⟩
        · exact ⟨trivial, rfl⟩
      rcases (decodeRound1_alike (F := F) msg.packageHex).cases with
        ⟨e, e', hPlain, hTwin⟩ | ⟨package, _, hPlain, hTwin, rfl⟩
      · rw [hPlain, hTwin]
        exact ⟨trivial, rfl⟩
      · rw [hPlain, hTwin]
        exact acceptRound1_twin s senderId package

/-- So does a round 2 message. -/
theorem ingestRound2_twin (hBound : s.Bound) {msg : Round2WireMessage} {text : String}
    (hSame : SameTranscript F msg.transcriptHex text) :
    Alike (fun _ _ => True) (s.ingestRound2 msg).1
        (s.twin.ingestRound2 { msg with transcriptHex := text }).1 ∧
      (s.twin.ingestRound2 { msg with transcriptHex := text }).2 = (s.ingestRound2 msg).2.twin := by
  have hTranscript := hBound.transcript hSame
  -- as in round 1, check by check
  unfold ingestRound2
  rw [show s.twin.phase = s.phase from rfl, show s.twin.localNodeId = s.localNodeId from rfl,
    show s.twin.roster = s.roster from rfl, show s.twin.round2Inbox = s.round2Inbox from rfl]
  dsimp only
  by_cases hPhase : s.phase = .complete
  · rw [if_pos hPhase, if_pos hPhase]
    exact ⟨trivial, rfl⟩
  rw [if_neg hPhase, if_neg hPhase]
  by_cases hText : msg.transcriptHex = s.transcriptHex
  swap
  · rw [if_pos hText, if_pos (fun h => hText (hTranscript.mpr h))]
    exact ⟨trivial, rfl⟩
  rw [if_neg (not_not.mpr hText), if_neg (not_not.mpr (hTranscript.mp hText))]
  split
  · exact ⟨trivial, rfl⟩
  unfold identifierFromU16
  cases F.ofU16 msg.senderIdentifier with
  | error e => exact ⟨trivial, rfl⟩
  | ok senderId =>
    dsimp only [mapErr]
    cases s.roster.lookup msg.senderNodeId with
    | none => exact ⟨trivial, rfl⟩
    | some expected =>
      dsimp only
      split
      · exact ⟨trivial, rfl⟩
      rcases (decodeRound2_alike (F := F) msg.packageHex).cases with
        ⟨e, e', hPlain, hTwin⟩ | ⟨package, _, hPlain, hTwin, rfl⟩
      · rw [hPlain, hTwin]
        exact ⟨trivial, rfl⟩
      · rw [hPlain, hTwin]
        exact ⟨trivial, rfl⟩

/-- What a session hands out is addressed alike. -/
theorem round2Message_twin (s : SessionInner .plain F) (sessionId : String)
    (entry : F.Identifier × F.Round2Package) :
    Alike (fun msg msg' => msg.shape = msg'.shape) (s.round2Message sessionId entry)
      (s.twin.round2Message sessionId entry) := by
  unfold round2Message
  rw [show s.twin.roster = s.roster from rfl]
  cases s.roster.find? fun e => e.2 = entry.1 with
  | none => trivial
  | some recipient =>
    dsimp only
    cases F.round2Bytes entry.2 with
    | error e => trivial
    | ok bytes => rfl

/-- A second start sends the package of both alike. -/
theorem restart_twin (s : SessionInner .plain F) :
    Alike (fun answer answer' =>
        answer.1.shape = answer'.1.shape ∧ answer.2.shape = answer'.2.shape)
      s.restart s.twin.restart := by
  unfold restart
  rw [show s.twin.round1Packages = s.round1Packages from rfl,
    show s.twin.localIdentifier = s.localIdentifier from rfl]
  cases s.round1Packages.lookup s.localIdentifier with
  | none => trivial
  | some package =>
    dsimp only
    cases F.round1Bytes package with
    | error e => trivial
    | ok bytes => exact ⟨s.twin_status.symm, rfl⟩

/-- The threshold check takes the keys of both or of neither. -/
theorem assertThreshold_alike (kp : F.KeyPackage) (pk : F.PublicKeyPackage) (min max : Nat) :
    Alike (fun _ _ => True) (assertThreshold .plain kp pk min max)
      (assertThreshold .taproot kp pk min max) := by
  unfold assertThreshold
  split
  · trivial
  split
  · trivial
  split
  · trivial
  · trivial

/-- The keys are the same but for the parity. -/
theorem round3Keys_twin (s : SessionInner .plain F) :
    Alike (fun keys keys' => keys' = (F.evenKey keys.1, F.evenPubkey keys.2)) s.round3Keys
      s.twin.round3Keys := by
  unfold round3Keys
  rw [show s.twin.maxSigners = s.maxSigners from rfl,
    show s.twin.minSigners = s.minSigners from rfl,
    show s.twin.round1Packages = s.round1Packages from rfl,
    show s.twin.localIdentifier = s.localIdentifier from rfl,
    show s.twin.round2Secret = s.round2Secret from rfl,
    show s.twin.round2Inbox = s.round2Inbox from rfl]
  -- each step reads the same fields of both
  dsimp only
  split
  · trivial
  cases s.round2Secret with
  | none => trivial
  | some secret =>
    dsimp only
    cases F.part3 secret (s.round1Packages.erase s.localIdentifier) s.round2Inbox with
    | error e => trivial
    | ok keys =>
      obtain ⟨kp, pk⟩ := keys
      dsimp only [mapErr]
      rcases (assertThreshold_alike kp pk s.minSigners s.maxSigners).cases with
        ⟨e, e', hPlain, hTwin⟩ | ⟨_, _, hPlain, hTwin, -⟩
      · rw [hPlain, hTwin]
        trivial
      · rw [hPlain, hTwin]
        rfl

end SessionInner

/-! ## Rosters -/

theorem assignIdentifiers_alike (i : Nat) (nodes : List String) :
    Alike Eq (assignIdentifiers .plain F i nodes) (assignIdentifiers .taproot F i nodes) := by
  induction nodes generalizing i with
  | nil => rfl
  | cons node rest ih =>
    unfold assignIdentifiers identifierFromU16
    cases F.ofU16 ((i + 1) % 2 ^ 16) with
    | error e => trivial
    | ok id =>
      dsimp only [mapErr]
      rcases (ih (i + 1)).cases with ⟨e, e', hPlain, hTwin⟩ | ⟨map, _, hPlain, hTwin, rfl⟩
      · rw [hPlain, hTwin]
        trivial
      · rw [hPlain, hTwin]
        rfl

/-- Both number a roster alike. -/
theorem buildRoster_alike (nodes : List String) :
    Alike Eq (buildRoster .plain F nodes) (buildRoster .taproot F nodes) := by
  unfold buildRoster
  dsimp only
  split
  · trivial
  · exact assignIdentifiers_alike 0 _

/-! ## Calls and answers -/

/-- The share stores take the records of the one session exactly when they take
those of the other. -/
def DisksAgree (F : FrostDkg) (disk disk' : ShareDisk) : Prop :=
  ∀ (s : SessionInner .plain F) (keys : F.KeyPackage × F.PublicKeyPackage),
    Alike (fun _ _ => True) (putAll disk ∅ (s.round3Records keys)).1
      (putAll disk' ∅ (s.twin.round3Records (F.evenKey keys.1, F.evenPubkey keys.2))).1

/-- Disks that take all puts agree on keys that serialize. -/
theorem disksAgree_stored (hKeys : ∀ kp, ∃ bytes, F.keyBytes kp = .ok bytes)
    (hPubkeys : ∀ pk, ∃ bytes, F.pubkeyBytes pk = .ok bytes) :
    DisksAgree F (fun _ _ => .stored) (fun _ _ => .stored) := by
  intro s keys
  obtain ⟨kpBytes, hKp⟩ := hKeys keys.1
  obtain ⟨pkBytes, hPk⟩ := hPubkeys keys.2
  obtain ⟨evenKp, hEvenKp⟩ := hKeys (F.evenKey keys.1)
  obtain ⟨evenPk, hEvenPk⟩ := hPubkeys (F.evenPubkey keys.2)
  have hTwin : (putAll (fun _ _ => .stored) ∅
      (s.twin.round3Records (F.evenKey keys.1, F.evenPubkey keys.2))).1 = .ok () :=
    putAll_round3Records (fun _ _ => rfl) hEvenKp hEvenPk ∅
  rw [putAll_round3Records (fun _ _ => rfl) hKp hPk, hTwin]
  trivial

/-- The same call on the Intent hub and on the Taproot hub, without an
envelope. -/
inductive CallAlike : HubCall F → HubCall F → Prop where
  | start (req : DkgStartRequest) (rand : F.Randomness) : CallAlike (.start req rand) (.start req rand)
  | ingestRound1 {msg : Round1WireMessage} {text : String} (hEnvelope : msg.envelope = none)
      (hSame : SameTranscript F msg.transcriptHex text) :
      CallAlike (.ingestRound1 msg) (.ingestRound1 { msg with transcriptHex := text })
  | takeRound2Outbound (sessionId : String) :
      CallAlike (.takeRound2Outbound sessionId) (.takeRound2Outbound sessionId)
  | ingestRound2 {msg : Round2WireMessage} {text : String} (hEnvelope : msg.envelope = none)
      (hSame : SameTranscript F msg.transcriptHex text) :
      CallAlike (.ingestRound2 msg) (.ingestRound2 { msg with transcriptHex := text })
  | finalizeRound3 (sessionId : String) {disk disk' : ShareDisk} (hDisks : DisksAgree F disk disk') :
      CallAlike (.finalizeRound3 sessionId disk) (.finalizeRound3 sessionId disk')

/-- What a call that is accepted returns. -/
inductive HubAnswer where
  | started (status : WireDkgStatus) (wire : Round1WireMessage)
  | updated (status : WireDkgStatus)
  | handedOut (messages : List Round2WireMessage)

/-- An answer up to transcripts and the key. -/
def HubAnswer.shape : HubAnswer → HubAnswer
  | .started status wire => .started status.shape wire.shape
  | .updated status => .updated status.shape
  | .handedOut messages => .handedOut (messages.map Round2WireMessage.shape)

namespace DkgHub

variable {k : WireDkg}

def answer (hub : DkgHub k F) (store : ShareStore) : HubCall F → Except DomainError HubAnswer
  | .start req rand => (hub.start req rand).1.map fun a => .started a.1 a.2
  | .ingestRound1 msg => (hub.ingestRound1 msg).1.map .updated
  | .takeRound2Outbound sessionId => (hub.takeRound2Outbound sessionId).1.map .handedOut
  | .ingestRound2 msg => (hub.ingestRound2 msg).1.map .updated
  | .finalizeRound3 sessionId disk => (hub.finalizeRound3 sessionId disk store).1.map .updated

/-- The answers to a sequence of calls, and the hub after them. -/
def performAll (hub : DkgHub k F) (store : ShareStore) :
    List (HubCall F) → List (Except DomainError HubAnswer) × DkgHub k F
  | [] => ([], hub)
  | call :: rest =>
    let next := hub.perform store call
    let later := next.1.performAll next.2 rest
    (hub.answer store call :: later.1, later.2)

end DkgHub

/-! ## Hubs -/

/-- Each session of the one hub goes with that of the other. -/
structure Twins (hub : DkgHub .plain F) (hub' : DkgHub .taproot F) : Prop where
  localNodeId : hub'.localNodeId = hub.localNodeId
  sessions : ∀ sid, hub'.sessions.lookup sid = (hub.sessions.lookup sid).map SessionInner.twin
  bound : ∀ sid s, hub.sessions.lookup sid = some s → s.sessionId = sid ∧ s.Bound
  completed : hub'.completed =
    hub.completed.map fun done => (F.evenKey done.1, F.evenPubkey done.2.1, done.2.2)

namespace Twins

variable {hub : DkgHub .plain F} {hub' : DkgHub .taproot F}

theorem new (localNodeId : String) :
    Twins (DkgHub.new localNodeId : DkgHub .plain F) (DkgHub.new localNodeId) where
  localNodeId := rfl
  sessions sid := by rw [DkgHub.lookup_new, DkgHub.lookup_new]; rfl
  bound sid s hs := absurd ((DkgHub.lookup_new localNodeId sid).symm.trans hs) (by simp)
  completed := rfl

theorem insert (h : Twins hub hub') {sid : String} {s : SessionInner .plain F}
    (hBound : s.sessionId = sid ∧ s.Bound) :
    Twins { hub with sessions := hub.sessions.insert sid s }
      { hub' with sessions := hub'.sessions.insert sid s.twin } where
  localNodeId := h.localNodeId
  sessions j := by
    dsimp only
    by_cases hj : j = sid
    · subst hj
      rw [AList.lookup_insert, AList.lookup_insert]
      rfl
    · rw [AList.lookup_insert_ne hj, AList.lookup_insert_ne hj]
      exact h.sessions j
  bound j t ht := by
    dsimp only at ht
    rcases Table.lookup_insert_eq_some.mp ht with ⟨rfl, rfl⟩ | ⟨-, hOld⟩
    · exact hBound
    · exact h.bound j t hOld
  completed := h.completed

/-- A method that makes the same of both sessions keeps the hubs together. -/
theorem onSession (h : Twins hub hub') (sid missing missing' : String)
    {f : SessionInner .plain F → Outcome × SessionInner .plain F}
    {f' : SessionInner .taproot F → Outcome × SessionInner .taproot F}
    (hMethod : ∀ s, s.Bound → Alike (fun _ _ => True) (f s).1 (f' s.twin).1 ∧
      (f' s.twin).2 = (f s).2.twin ∧ s.Extends (f s).2) :
    Alike (fun status status' => status.shape = status'.shape) (hub.onSession sid missing f).1
        (hub'.onSession sid missing' f').1 ∧
      Twins (hub.onSession sid missing f).2 (hub'.onSession sid missing' f').2 := by
  unfold DkgHub.onSession
  rw [h.sessions sid]
  cases hs : hub.sessions.lookup sid with
  | none => exact ⟨trivial, h⟩
  | some s =>
    obtain ⟨hOutcome, hNext, hExtends⟩ := hMethod s (h.bound sid s hs).2
    have hSid : (f s).2.sessionId = s.sessionId := congrArg Prod.fst hExtends.constitution
    have hBound : (f s).2.sessionId = sid ∧ (f s).2.Bound :=
      ⟨hSid.trans (h.bound sid s hs).1, .extends hExtends (h.bound sid s hs).2⟩
    dsimp only [Option.map_some]
    rw [hNext]
    rcases hOutcome.cases with ⟨e, e', hPlain, hTwin⟩ | ⟨_, _, hPlain, hTwin, -⟩
    · rw [hPlain, hTwin]
      exact ⟨trivial, h.insert hBound⟩
    · rw [hPlain, hTwin]
      exact ⟨(f s).2.twin_status.symm, h.insert hBound⟩

/-- Sessions opened for one request go with each other. -/
theorem openSession (h : Twins hub hub') (req : DkgStartRequest) (roster : Roster F)
    (rand : F.Randomness) :
    Alike (fun opened opened' => opened'.1 = opened.1.twin ∧ opened.1.Bound ∧
        opened.2.shape = opened'.2.shape)
      (hub.openSession req roster rand) (hub'.openSession req roster rand) := by
  unfold DkgHub.openSession
  rw [h.localNodeId]
  cases roster.lookup hub.localNodeId with
  | none => trivial
  | some id =>
    dsimp only
    cases F.part1 id req.maxSigners req.minSigners rand with
    | error e => trivial
    | ok drawn =>
      dsimp only [mapErr]
      cases F.round1Bytes drawn.2 with
      | error e => trivial
      | ok bytes =>
        -- both draw by the same part 1, and what they open are twins
        have hFresh : hub'.freshSession req roster id drawn.1 drawn.2 =
            (hub.freshSession req roster id drawn.1 drawn.2).twin := by
          unfold DkgHub.freshSession
          rw [h.localNodeId]
          rfl
        show _ = _ ∧ _ ∧ _
        rw [hFresh]
        exact ⟨rfl, rfl, rfl⟩

/-- Both find the session there, in the same constitution, or open one. -/
theorem startCheck (h : Twins hub hub') (req : DkgStartRequest) (rand : F.Randomness) :
    Alike (fun found found' =>
        (∃ answer answer', found = .inl answer ∧ found' = .inl answer' ∧
          answer.1.shape = answer'.1.shape ∧ answer.2.shape = answer'.2.shape) ∨
        ∃ inner wire wire', found = .inr (inner, wire) ∧ found' = .inr (inner.twin, wire') ∧
          inner.Bound ∧ wire.shape = wire'.shape)
      (hub.startCheck req rand) (hub'.startCheck req rand) := by
  unfold DkgHub.startCheck
  split
  · trivial
  rcases (buildRoster_alike (F := F) req.roster).cases with
    ⟨e, e', hPlain, hTwin⟩ | ⟨roster, _, hPlain, hTwin, rfl⟩
  · rw [hPlain, hTwin]
    trivial
  rw [hPlain, hTwin]
  dsimp only
  split
  · trivial
  rw [h.sessions req.sessionId]
  cases hs : hub.sessions.lookup req.sessionId with
  | none =>
    dsimp only [Option.map_none]
    rcases (h.openSession req roster rand).cases with
      ⟨e, e', hOpen, hOpen'⟩ | ⟨opened, opened', hOpen, hOpen', hInner, hBound, hWire⟩
    · rw [hOpen, hOpen']
      trivial
    · rw [hOpen, hOpen']
      exact .inr ⟨opened.1, opened.2, opened'.2, rfl, by rw [← hInner], hBound, hWire⟩
  | some s =>
    dsimp only [Option.map_some]
    obtain ⟨hSid, hBound⟩ := h.bound req.sessionId s hs
    -- a session of the request's name and constitution has its transcript in either domain
    have hDrift : ∀ k (transcriptHex : String),
        transcriptHex = sessionTranscript k s.sessionId s.maxSigners s.minSigners s.roster →
        ((transcriptHex ≠ sessionTranscript k req.sessionId req.maxSigners req.minSigners roster ∨
          s.maxSigners ≠ req.maxSigners ∨ s.minSigners ≠ req.minSigners ∨ s.roster ≠ roster) ↔
        (s.maxSigners ≠ req.maxSigners ∨ s.minSigners ≠ req.minSigners ∨ s.roster ≠ roster)) := by
      rintro k transcriptHex rfl
      refine ⟨fun hEither => hEither.elim (fun hText => ?_) id, .inr⟩
      by_contra hSame
      rw [not_or, not_or, not_not, not_not, not_not] at hSame
      exact hText (by rw [hSid, hSame.1, hSame.2.1, hSame.2.2])
    rw [show s.twin.maxSigners = s.maxSigners from rfl,
      show s.twin.minSigners = s.minSigners from rfl, show s.twin.roster = s.roster from rfl]
    by_cases hOther : s.maxSigners ≠ req.maxSigners ∨ s.minSigners ≠ req.minSigners ∨
        s.roster ≠ roster
    · rw [if_pos ((hDrift .plain _ hBound).mpr hOther),
        if_pos ((hDrift .taproot s.twin.transcriptHex rfl).mpr hOther)]
      trivial
    rw [if_neg (fun hEither => hOther ((hDrift .plain _ hBound).mp hEither)),
      if_neg (fun hEither => hOther ((hDrift .taproot s.twin.transcriptHex rfl).mp hEither))]
    rcases s.restart_twin.cases with
      ⟨e, e', hPlain, hTwin⟩ | ⟨answer, answer', hPlain, hTwin, hAnswer⟩
    · rw [hPlain, hTwin]
      trivial
    · rw [hPlain, hTwin]
      exact .inl ⟨answer, answer', rfl, rfl, hAnswer⟩

/-! ### The calls -/

theorem start (h : Twins hub hub') (req : DkgStartRequest) (rand : F.Randomness) :
    Alike (fun answer answer' =>
        answer.1.shape = answer'.1.shape ∧ answer.2.shape = answer'.2.shape)
        (hub.start req rand).1 (hub'.start req rand).1 ∧
      Twins (hub.start req rand).2 (hub'.start req rand).2 := by
  unfold DkgHub.start
  rcases (h.startCheck req rand).cases with ⟨e, e', hPlain, hTwin⟩ |
    ⟨_, _, hPlain, hTwin, ⟨answer, answer', rfl, rfl, hShapes⟩ |
      ⟨inner, wire, wire', rfl, rfl, hBound, hWire⟩⟩
  · rw [hPlain, hTwin]
    exact ⟨trivial, h⟩
  · rw [hPlain, hTwin]
    exact ⟨hShapes, h⟩
  · rw [hPlain, hTwin]
    exact ⟨⟨inner.twin_status.symm, hWire⟩, h.insert ⟨rfl, hBound⟩⟩

theorem ingestRound1 (h : Twins hub hub') {msg : Round1WireMessage} {text : String}
    (hEnvelope : msg.envelope = none) (hSame : SameTranscript F msg.transcriptHex text) :
    Alike (fun status status' => status.shape = status'.shape) (hub.ingestRound1 msg).1
        (hub'.ingestRound1 { msg with transcriptHex := text }).1 ∧
      Twins (hub.ingestRound1 msg).2 (hub'.ingestRound1 { msg with transcriptHex := text }).2 := by
  unfold DkgHub.ingestRound1
  dsimp only
  rw [hEnvelope, checkEnvelope_none, checkEnvelope_none]
  refine h.onSession msg.sessionId _ _ fun s hBound => ?_
  obtain ⟨hOutcome, hNext⟩ := SessionInner.ingestRound1_twin hBound hSame
  exact ⟨hOutcome, hNext, s.ingestRound1_extends msg⟩

theorem ingestRound2 (h : Twins hub hub') {msg : Round2WireMessage} {text : String}
    (hEnvelope : msg.envelope = none) (hSame : SameTranscript F msg.transcriptHex text) :
    Alike (fun status status' => status.shape = status'.shape) (hub.ingestRound2 msg).1
        (hub'.ingestRound2 { msg with transcriptHex := text }).1 ∧
      Twins (hub.ingestRound2 msg).2 (hub'.ingestRound2 { msg with transcriptHex := text }).2 := by
  unfold DkgHub.ingestRound2
  dsimp only
  rw [hEnvelope, checkEnvelope_none, checkEnvelope_none]
  refine h.onSession msg.sessionId _ _ fun s hBound => ?_
  obtain ⟨hOutcome, hNext⟩ := SessionInner.ingestRound2_twin hBound hSame
  refine ⟨hOutcome, hNext, ?_⟩
  rcases s.ingestRound2_cases msg with hStays | ⟨id, package, -, hEq⟩
  · rw [hStays]
    exact .refl s
  · rw [hEq]
    exact ⟨rfl, rfl, fun _ hj => hj, fun j hj => (AList.mem_insert _).mpr (.inr hj), fun hDone => hDone⟩

theorem takeRound2Outbound (h : Twins hub hub') (sessionId : String) :
    Alike (fun out out' => out.map Round2WireMessage.shape = out'.map Round2WireMessage.shape)
        (hub.takeRound2Outbound sessionId).1 (hub'.takeRound2Outbound sessionId).1 ∧
      Twins (hub.takeRound2Outbound sessionId).2 (hub'.takeRound2Outbound sessionId).2 := by
  unfold DkgHub.takeRound2Outbound
  rw [h.sessions sessionId]
  cases hs : hub.sessions.lookup sessionId with
  | none => exact ⟨trivial, h⟩
  | some s =>
    refine ⟨?_, h.insert (s := s.drained) (h.bound sessionId s hs)⟩
    -- one message for each package of the queue, of one shape
    have hLoop := Results.mapM_alike (l := s.round2Outbound.toPairs) fun entry _ =>
      s.drained.round2Message_twin sessionId entry
    rcases hLoop.cases with ⟨e, e', hPlain, hTwin⟩ | ⟨out, out', hPlain, hTwin, hShapes⟩
    · show Alike _ (s.round2Outbound.toPairs.mapM (s.drained.round2Message sessionId))
        (s.round2Outbound.toPairs.mapM (s.drained.twin.round2Message sessionId))
      rw [hPlain, hTwin]
      trivial
    · show Alike _ (s.round2Outbound.toPairs.mapM (s.drained.round2Message sessionId))
        (s.round2Outbound.toPairs.mapM (s.drained.twin.round2Message sessionId))
      rw [hPlain, hTwin]
      show out.map _ = out'.map _
      rw [← List.forall₂_eq_eq_eq, List.forall₂_map_left_iff, List.forall₂_map_right_iff]
      exact hShapes

/-- Twins finalize alike, on disks that agree where the records of both are put. -/
theorem finalizeRound3 (h : Twins hub hub') (sessionId : String) {disk disk' : ShareDisk}
    (hDisks : DisksAgree F disk disk') (store store' : ShareStore) :
    Alike (fun status status' => status.shape = status'.shape)
        (hub.finalizeRound3 sessionId disk store).1 (hub'.finalizeRound3 sessionId disk' store').1 ∧
      Twins (hub.finalizeRound3 sessionId disk store).2.1
        (hub'.finalizeRound3 sessionId disk' store').2.1 := by
  unfold DkgHub.finalizeRound3
  rw [h.sessions sessionId]
  cases hs : hub.sessions.lookup sessionId with
  | none => exact ⟨trivial, h⟩
  | some s =>
    dsimp only [Option.map_some]
    rw [show s.twin.phase = s.phase from rfl]
    by_cases hDone : s.phase = .complete
    · rw [if_pos hDone, if_pos hDone]
      exact ⟨s.twin_status.symm, h⟩
    rw [if_neg hDone, if_neg hDone]
    rcases s.round3Keys_twin.cases with ⟨e, e', hPlain, hTwin⟩ | ⟨keys, _, hPlain, hTwin, rfl⟩
    · rw [hPlain, hTwin]
      exact ⟨trivial, h⟩
    rw [hPlain, hTwin]
    dsimp only
    -- what the puts answer does not depend on the stores' records
    have hOutcome := hDisks s keys
    rw [putAll_outcome disk ∅ store, putAll_outcome disk' ∅ store'] at hOutcome
    rcases hPuts : putAll disk store (s.round3Records keys) with ⟨outcome, after⟩
    rcases hPuts' : putAll disk' store'
      (s.twin.round3Records (F.evenKey keys.1, F.evenPubkey keys.2)) with ⟨outcome', after'⟩
    rw [hPuts, hPuts'] at hOutcome
    rcases hOutcome.cases with ⟨e, e', hPut, hPut'⟩ | ⟨_, _, hPut, hPut', -⟩
    · dsimp only at hPut hPut'
      rw [hPut, hPut']
      exact ⟨trivial, h⟩
    · dsimp only at hPut hPut'
      rw [hPut, hPut']
      have hNext := h.insert (s := s.completeWith keys) (h.bound sessionId s hs)
      exact ⟨(s.completeWith keys).twin_status.symm,
        ⟨hNext.localNodeId, hNext.sessions, hNext.bound, rfl⟩⟩

/-- **One call.** -/
theorem perform (h : Twins hub hub') {call call' : HubCall F} (hCall : CallAlike call call')
    (store store' : ShareStore) :
    Alike (fun answer answer' => answer.shape = answer'.shape) (hub.answer store call)
        (hub'.answer store' call') ∧
      Twins (hub.perform store call).1 (hub'.perform store' call').1 := by
  cases hCall with
  | start req rand =>
    obtain ⟨hAnswers, hNext⟩ := h.start req rand
    exact ⟨hAnswers.map fun a b hShapes => by
      show HubAnswer.started _ _ = HubAnswer.started _ _
      rw [hShapes.1, hShapes.2], hNext⟩
  | ingestRound1 hEnvelope hSame =>
    obtain ⟨hAnswers, hNext⟩ := h.ingestRound1 hEnvelope hSame
    exact ⟨hAnswers.map fun a b hShapes => congrArg HubAnswer.updated hShapes, hNext⟩
  | takeRound2Outbound sessionId =>
    obtain ⟨hAnswers, hNext⟩ := h.takeRound2Outbound sessionId
    exact ⟨hAnswers.map fun a b hShapes => congrArg HubAnswer.handedOut hShapes, hNext⟩
  | ingestRound2 hEnvelope hSame =>
    obtain ⟨hAnswers, hNext⟩ := h.ingestRound2 hEnvelope hSame
    exact ⟨hAnswers.map fun a b hShapes => congrArg HubAnswer.updated hShapes, hNext⟩
  | finalizeRound3 sessionId hDisks =>
    obtain ⟨hAnswers, hNext⟩ := h.finalizeRound3 sessionId hDisks store store'
    exact ⟨hAnswers.map fun a b hShapes => congrArg HubAnswer.updated hShapes, hNext⟩

/-- **A sequence of calls.** -/
theorem performAll (h : Twins hub hub') {calls calls' : List (HubCall F)}
    (hCalls : List.Forall₂ CallAlike calls calls') (store store' : ShareStore) :
    List.Forall₂ (Alike fun answer answer' => answer.shape = answer'.shape)
        (hub.performAll store calls).1 (hub'.performAll store' calls').1 ∧
      Twins (hub.performAll store calls).2 (hub'.performAll store' calls').2 := by
  induction hCalls generalizing hub hub' store store' with
  | nil => exact ⟨.nil, h⟩
  | cons hCall _ ih =>
    obtain ⟨hAnswer, hNext⟩ := h.perform hCall store store'
    obtain ⟨hLater, hEnd⟩ := ih hNext _ _
    exact ⟨.cons hAnswer hLater, hEnd⟩

end Twins

/--
**The Taproot hub refines the Intent hub.** Whatever the calls, without
envelopes and over one crate, the hubs accept and refuse the same ones; what
they return has the same shape and addressing, and their sessions are in the
same phase with the same packages.
-/
theorem dkgHubs_refine (localNodeId : String) (store store' : ShareStore)
    {calls calls' : List (HubCall F)} (hCalls : List.Forall₂ CallAlike calls calls') :
    List.Forall₂ (Alike fun answer answer' => answer.shape = answer'.shape)
        ((DkgHub.new localNodeId : DkgHub .plain F).performAll store calls).1
        ((DkgHub.new localNodeId : DkgHub .taproot F).performAll store' calls').1 ∧
      Twins ((DkgHub.new localNodeId : DkgHub .plain F).performAll store calls).2
        ((DkgHub.new localNodeId : DkgHub .taproot F).performAll store' calls').2 :=
  (Twins.new localNodeId).performAll hCalls store store'

/-! ### A run of `a` -/

/-- What `b` sends `a` for round 1, in either domain. -/
def twinRound1 (k : WireDkg) : Round1WireMessage where
  sessionId := "s1"
  senderNodeId := "b"
  senderIdentifier := 2
  maxSigners := 2
  minSigners := 2
  transcriptHex := @sessionTranscript smallFrost.toFrostDkg k "s1" 2 2
    ([("a", 1), ("b", 2)] : List (String × Small))
  packageHex :=
    match smallFrost.part1 2 2 2 (pairRand "b") with
    | .ok (_, package) => smallFrost.hexEncode (smallFrost.round1.bytes package)
    | .error _ => ""
  envelope := none

/-- What `b` sends `a` for round 2. -/
def twinRound2 (k : WireDkg) : Round2WireMessage where
  sessionId := "s1"
  senderNodeId := "b"
  senderIdentifier := 2
  recipientNodeId := "a"
  recipientIdentifier := 1
  transcriptHex := @sessionTranscript smallFrost.toFrostDkg k "s1" 2 2
    ([("a", 1), ("b", 2)] : List (String × Small))
  packageHex := smallFrost.hexEncode (smallFrost.round2.bytes (PolyCommit.eval [11, 13] 1))
  envelope := none

def twinCalls (k : WireDkg) : List (HubCall smallFrost.toFrostDkg) :=
  [.start pairRequest (pairRand "a"), .ingestRound1 (twinRound1 k), .takeRound2Outbound "s1",
    .ingestRound2 (twinRound2 k), .finalizeRound3 "s1" fun _ _ => .stored]

theorem smallFrost_hash_injective (a b : String)
    (h : smallFrost.toFrostDkg.hexEncode (smallFrost.toFrostDkg.sha256 a) =
      smallFrost.toFrostDkg.hexEncode (smallFrost.toFrostDkg.sha256 b)) : a = b := by
  have hBytes : textBytes a = textBytes b := by
    have hA := hexPairs_hexText (textBytes a)
    rw [show hexText (textBytes a) = hexText (textBytes b) from h, hexPairs_hexText] at hA
    exact (Except.ok.inj hA).symm
  have hText := congrArg readText hBytes
  rw [readText_textBytes, readText_textBytes] at hText
  exact Option.some.inj hText

/-- Both hubs take all five calls of a run. -/
example : ∀ k : WireDkg, (((DkgHub.new "a" : DkgHub k smallFrost.toFrostDkg).performAll ∅
    (twinCalls k)).1.all fun answer => answer.toBool) = true := by
  intro k
  cases k with
  | plain => decide +kernel
  | taproot => decide +kernel

theorem dkgHubs_refine_pair :
    List.Forall₂ (Alike fun answer answer' => answer.shape = answer'.shape)
        ((DkgHub.new "a" : DkgHub .plain smallFrost.toFrostDkg).performAll ∅ (twinCalls .plain)).1
        ((DkgHub.new "a" : DkgHub .taproot smallFrost.toFrostDkg).performAll ∅
          (twinCalls .taproot)).1 ∧
      Twins ((DkgHub.new "a" : DkgHub .plain smallFrost.toFrostDkg).performAll ∅
          (twinCalls .plain)).2
        ((DkgHub.new "a" : DkgHub .taproot smallFrost.toFrostDkg).performAll ∅
          (twinCalls .taproot)).2 := by
  have hSame := SameTranscript.of_injective smallFrost_hash_injective "s1" 2 2
    ([("a", 1), ("b", 2)] : List (String × Small))
  have hDisks := disksAgree_stored (F := smallFrost.toFrostDkg) (fun _ => ⟨_, rfl⟩)
    (fun _ => ⟨_, rfl⟩)
  have hRound1 : CallAlike (F := smallFrost.toFrostDkg) (.ingestRound1 (twinRound1 .plain))
      (.ingestRound1 (twinRound1 .taproot)) := .ingestRound1 rfl hSame
  have hRound2 : CallAlike (F := smallFrost.toFrostDkg) (.ingestRound2 (twinRound2 .plain))
      (.ingestRound2 (twinRound2 .taproot)) := .ingestRound2 rfl hSame
  exact dkgHubs_refine "a" ∅ ∅ (.cons (.start ..) (.cons hRound1 (.cons (.takeRound2Outbound ..)
    (.cons hRound2 (.cons (.finalizeRound3 "s1" hDisks) .nil)))))

end KeroseneVault
