import KeroseneVault.Dkg.Hub

/-!
# What the steps of a DKG session can do

One lemma for each method of a session that says all it can do, guards
included, and what a roster's identifiers are.

* `openSession_ok`, `round3Keys_ok` — when the fallible steps succeed;
* `ingestRound1_cases`, `acceptRound1_cases`, `ingestRound2_cases` — what a
  message leaves;
* `ingestRound1_admitted`, `ingestRound2_admitted` — what the messages that
  pass the checks come to;
* `RosterOk` — the roster `buildRoster` makes (`buildRoster_ok`).
-/

namespace KeroseneVault

variable {k : WireDkg} {F : FrostDkg}

/-- The hubs' own messages have no envelope to check. -/
theorem checkEnvelope_none (k : WireDkg) (round : String) : checkEnvelope k round none = .ok () := by
  cases k with
  | plain => rfl
  | taproot => rfl

/-! ## Rosters -/

/-- The names of a roster are distinct, and the identifier at each position is
that of its number, counted from one. -/
structure RosterOk (roster : Roster F) : Prop where
  names : (roster.map Prod.fst).Nodup
  identifiers : ∀ n entry, roster[n]? = some entry → F.ofU16 ((n + 1) % 2 ^ 16) = .ok entry.2

/-- Members are numbered from one on, in the order of their names, in sixteen bits. -/
theorem assignIdentifiers_ok {i : Nat} {nodes : List String} {roster : Roster F}
    (h : assignIdentifiers k F i nodes = .ok roster) :
    roster.map Prod.fst = nodes ∧
      ∀ n entry, roster[n]? = some entry → F.ofU16 ((i + n + 1) % 2 ^ 16) = .ok entry.2 := by
  induction nodes generalizing i roster with
  | nil =>
    cases Except.ok.inj h
    exact ⟨rfl, by simp⟩
  | cons node rest ih =>
    rw [assignIdentifiers] at h
    cases hId : identifierFromU16 k F ((i + 1) % 2 ^ 16) with
    | error e =>
      rw [hId] at h
      cases h
    | ok id =>
      rw [hId] at h
      cases hRest : assignIdentifiers k F (i + 1) rest with
      | error e =>
        rw [hRest] at h
        cases h
      | ok map =>
        rw [hRest] at h
        cases Except.ok.inj h
        obtain ⟨hNames, hIds⟩ := ih hRest
        refine ⟨by rw [List.map_cons, hNames], fun n entry hEntry => ?_⟩
        cases n with
        | zero =>
          cases Option.some.inj hEntry
          exact mapErr_ok.mp hId
        | succ n =>
          -- the tail was numbered from one further on
          have hNext := hIds n entry hEntry
          rwa [show i + 1 + n + 1 = i + (n + 1) + 1 by omega] at hNext

theorem buildRoster_ok {nodes : List String} {roster : Roster F}
    (h : buildRoster k F nodes = .ok roster) :
    RosterOk roster ∧ roster.map Prod.fst = sortDedup (nodes.map strTrim) ∧ 2 ≤ roster.length := by
  unfold buildRoster at h
  by_cases hTwo : (sortDedup (nodes.map strTrim)).length < 2
  · rw [if_pos hTwo] at h
    cases h
  rw [if_neg hTwo] at h
  obtain ⟨hNames, hIds⟩ := assignIdentifiers_ok h
  refine ⟨⟨hNames ▸ sortDedup_nodup _, fun n entry hEntry => ?_⟩, hNames, ?_⟩
  · have hId := hIds n entry hEntry
    rwa [Nat.zero_add] at hId
  · have hLength := congrArg List.length hNames
    rw [List.length_map] at hLength
    omega

namespace RosterOk

variable {roster : Roster F}

theorem lookup (h : RosterOk roster) {entry : String × F.Identifier} (he : entry ∈ roster) :
    roster.lookup entry.1 = some entry.2 := by
  obtain ⟨before, rest, rfl⟩ := List.append_of_mem he
  rw [List.lookup_eq_some_iff]
  refine ⟨before, rest, rfl, fun e hEarlier => ?_⟩
  -- an earlier entry of the same name would be a second one
  have hNames := h.names
  rw [List.map_append, List.nodup_append] at hNames
  have hNe := hNames.2.2 e.1 (List.mem_map_of_mem hEarlier) entry.1
    (List.mem_map_of_mem (List.mem_cons_self ..))
  exact bne_iff_ne.mpr hNe.symm

/-- Names are enough to tell entries apart. -/
theorem eq_of_name (h : RosterOk roster) {e d : String × F.Identifier} (he : e ∈ roster)
    (hd : d ∈ roster) (hName : e.1 = d.1) : e = d := by
  have hId := h.lookup he
  rw [hName, h.lookup hd] at hId
  exact Prod.ext hName (Option.some.inj hId).symm

/-- The number a roster gives an identifier names that identifier. -/
theorem identifierFromU16 (h : RosterOk roster) {entry : String × F.Identifier}
    (he : entry ∈ roster) :
    identifierFromU16 k F (identifierToU16 roster entry.2) = .ok entry.2 := by
  refine mapErr_ok.mpr ?_
  unfold identifierToU16
  cases hFound : roster.findIdx? (fun e => e.2 = entry.2) with
  | none =>
    have hNone := List.findIdx?_eq_none_iff.mp hFound entry he
    simp at hNone
  | some n =>
    obtain ⟨hn, hEq, -⟩ := List.findIdx?_eq_some_iff_getElem.mp hFound
    have hId := h.identifiers n roster[n] (List.getElem?_eq_getElem hn)
    rwa [of_decide_eq_true hEq] at hId

end RosterOk

theorem mem_of_lookup {roster : Roster F} {name : String} {id : F.Identifier}
    (h : roster.lookup name = some id) : (name, id) ∈ roster := by
  obtain ⟨before, rest, hSplit, -⟩ := List.lookup_eq_some_iff.mp h
  rw [hSplit]
  exact List.mem_append_right _ (List.mem_cons_self ..)

/-! ## Starts -/

theorem openSession_ok {hub : DkgHub k F} {req : DkgStartRequest} {roster : Roster F}
    {rand : F.Randomness} {inner : SessionInner k F} {wire : Round1WireMessage} :
    hub.openSession req roster rand = .ok (inner, wire) ↔
      ∃ id secret package bytes, roster.lookup hub.localNodeId = some id ∧
        F.part1 id req.maxSigners req.minSigners rand = .ok (secret, package) ∧
        F.round1Bytes package = .ok bytes ∧
        inner = hub.freshSession req roster id secret package ∧
        wire = inner.round1Message (F.hexEncode bytes) := by
  unfold DkgHub.openSession
  cases roster.lookup hub.localNodeId with
  | none => simp
  | some id =>
    dsimp only
    cases hPart : F.part1 id req.maxSigners req.minSigners rand with
    | error e => simp [mapErr, hPart]
    | ok drawn =>
      obtain ⟨secret, package⟩ := drawn
      dsimp only [mapErr]
      cases hBytes : F.round1Bytes package with
      | error e => simp [hPart, hBytes]
      | ok bytes =>
        simp only [Except.ok.injEq, Prod.mk.injEq, Option.some.injEq, exists_and_left]
        -- the session and its message are those of what part 1 drew
        constructor
        · rintro ⟨rfl, rfl⟩
          exact ⟨id, rfl, secret, package, hPart, bytes, hBytes, rfl, rfl⟩
        · rintro ⟨_, rfl, _, _, hPart', _, hBytes', rfl, rfl⟩
          obtain ⟨rfl, rfl⟩ := Prod.mk.inj (Except.ok.inj (hPart.symm.trans hPart'))
          cases Except.ok.inj (hBytes.symm.trans hBytes')
          exact ⟨rfl, rfl⟩

/-- The first section of a start refuses, or answers with the package of a
session of the same constitution, or finds no session and opens one. -/
theorem startCheck_cases (hub : DkgHub k F) (req : DkgStartRequest) (rand : F.Randomness) :
    (∃ e, hub.startCheck req rand = .error e) ∨
    (∃ s roster answer, hub.sessions.lookup req.sessionId = some s ∧
      buildRoster k F req.roster = .ok roster ∧ s.roster = roster ∧
      s.transcriptHex = sessionTranscript k req.sessionId req.maxSigners req.minSigners roster ∧
      s.maxSigners = req.maxSigners ∧ s.minSigners = req.minSigners ∧
      s.restart = .ok answer ∧ hub.startCheck req rand = .ok (.inl answer)) ∨
    ∃ roster inner wire, hub.sessions.lookup req.sessionId = none ∧
      2 ≤ req.maxSigners ∧ 2 ≤ req.minSigners ∧ req.minSigners ≤ req.maxSigners ∧
      buildRoster k F req.roster = .ok roster ∧ roster.length % 2 ^ 16 = req.maxSigners ∧
      hub.openSession req roster rand = .ok (inner, wire) ∧
      hub.startCheck req rand = .ok (.inr (inner, wire)) := by
  unfold DkgHub.startCheck
  by_cases hParams : req.maxSigners < 2 ∨ req.minSigners < 2 ∨ req.minSigners > req.maxSigners
  · rw [if_pos hParams]
    exact .inl ⟨_, rfl⟩
  rw [if_neg hParams]
  cases hRoster : buildRoster k F req.roster with
  | error e => exact .inl ⟨e, rfl⟩
  | ok roster =>
    dsimp only
    by_cases hLength : roster.length % 2 ^ 16 ≠ req.maxSigners
    · rw [if_pos hLength]
      exact .inl ⟨_, rfl⟩
    rw [if_neg hLength]
    cases hFound : hub.sessions.lookup req.sessionId with
    -- the session is open: the request must agree with it in everything
    | some existing =>
      dsimp only
      by_cases hDrift : existing.transcriptHex ≠
          sessionTranscript k req.sessionId req.maxSigners req.minSigners roster ∨
          existing.maxSigners ≠ req.maxSigners ∨ existing.minSigners ≠ req.minSigners ∨
          existing.roster ≠ roster
      · rw [if_pos hDrift]
        exact .inl ⟨_, rfl⟩
      rw [if_neg hDrift]
      rw [not_or, not_or, not_or, not_not, not_not, not_not, not_not] at hDrift
      obtain ⟨hTranscript, hMax, hMin, hSame⟩ := hDrift
      cases hRestart : existing.restart with
      | error e => exact .inl ⟨e, rfl⟩
      | ok answer =>
        exact .inr (.inl ⟨existing, roster, answer, rfl, rfl, hSame, hTranscript, hMax, hMin,
          hRestart, rfl⟩)
    | none =>
      dsimp only
      cases hOpen : hub.openSession req roster rand with
      | error e => exact .inl ⟨e, rfl⟩
      | ok opened =>
        obtain ⟨inner, wire⟩ := opened
        exact .inr (.inr ⟨roster, inner, wire, rfl, by omega, by omega, by omega, rfl,
          not_not.mp hLength, hOpen, rfl⟩)

/-- A session opened for a request bears its name. -/
theorem openSession_sessionId {hub : DkgHub k F} {req : DkgStartRequest} {roster : Roster F}
    {rand : F.Randomness} {inner : SessionInner k F} {wire : Round1WireMessage}
    (h : hub.openSession req roster rand = .ok (inner, wire)) :
    inner.sessionId = req.sessionId := by
  obtain ⟨_, _, _, _, -, -, -, rfl, -⟩ := openSession_ok.mp h
  rfl

/-- A start that is not refused opens a session, or finds one and sends its
package again. -/
theorem start_cases (hub : DkgHub k F) (req : DkgStartRequest) (rand : F.Randomness) :
    (∃ e, hub.start req rand = (.error e, hub)) ∨
    (∃ s answer, hub.sessions.lookup req.sessionId = some s ∧ s.restart = .ok answer ∧
      hub.start req rand = (.ok answer, hub)) ∨
    ∃ roster inner wire, hub.sessions.lookup req.sessionId = none ∧
      2 ≤ req.maxSigners ∧ 2 ≤ req.minSigners ∧ req.minSigners ≤ req.maxSigners ∧
      buildRoster k F req.roster = .ok roster ∧ roster.length % 2 ^ 16 = req.maxSigners ∧
      hub.openSession req roster rand = .ok (inner, wire) ∧
      hub.start req rand = (.ok (inner.status, wire),
        { hub with sessions := hub.sessions.insert req.sessionId inner }) := by
  unfold DkgHub.start
  rcases startCheck_cases hub req rand with ⟨e, hEq⟩ |
    ⟨s, _, answer, hFound, -, -, -, -, -, hRestart, hEq⟩ |
    ⟨roster, inner, wire, hNone, hMax, hMin, hLe, hRoster, hLength, hOpen, hEq⟩
  · exact .inl ⟨e, by rw [hEq]⟩
  · exact .inr (.inl ⟨s, answer, hFound, hRestart, by rw [hEq]⟩)
  · refine .inr (.inr ⟨roster, inner, wire, hNone, hMax, hMin, hLe, hRoster, hLength, hOpen, ?_⟩)
    rw [hEq]
    dsimp only [DkgHub.startInsert]
    rw [openSession_sessionId hOpen]

namespace SessionInner

/-! ## Round 1 -/

/-- What an admitted package leaves: it waits for more, moves on, or loses the
secret to a part 2 that fails. -/
theorem acceptRound1_cases (s : SessionInner k F) (sender : F.Identifier)
    (package : F.Round1Package) (hPhase : s.phase = .round1) :
    let packages : Table F.Identifier F.Round1Package := s.round1Packages.insert sender package
    (s.acceptRound1 sender package = (.ok (), { s with round1Packages := packages }) ∧
      ¬ (packages.size % 2 ^ 16 = s.maxSigners ∧ s.round1Secret.isSome)) ∨
    (packages.size % 2 ^ 16 = s.maxSigners ∧ ∃ secret, s.round1Secret = some secret ∧
      ((∃ r2Secret outbound,
          F.part2 secret (packages.erase s.localIdentifier) = .ok (r2Secret, outbound) ∧
          s.acceptRound1 sender package = (.ok (), { s with
            round1Packages := packages
            round1Secret := none
            round2Secret := some r2Secret
            round2Outbound := outbound
            rosterClosed := true
            phase := .round2 })) ∨
        (∃ e, F.part2 secret (packages.erase s.localIdentifier) = .error e ∧
          (s.acceptRound1 sender package).2 =
            { s with round1Packages := packages, round1Secret := none }))) := by
  intro packages
  unfold acceptRound1
  dsimp only
  by_cases hFull : packages.size % 2 ^ 16 = s.maxSigners ∧ s.round1Secret.isSome
  · rw [if_pos ⟨hFull.1, hFull.2, hPhase⟩]
    obtain ⟨secret, hSecret⟩ := Option.isSome_iff_exists.mp hFull.2
    refine .inr ⟨hFull.1, secret, hSecret, ?_⟩
    unfold advanceToRound2
    rw [hSecret]
    dsimp only
    cases hPart : F.part2 secret (packages.erase s.localIdentifier) with
    | error e => exact .inr ⟨e, rfl, rfl⟩
    | ok drawn => exact .inl ⟨drawn.1, drawn.2, rfl, rfl⟩
  · rw [if_neg fun h => hFull ⟨h.1, h.2.1⟩]
    exact .inl ⟨rfl, hFull⟩

/-- A round 1 message from a frozen member, with the constitution of the
session, comes to one of three things. -/
theorem ingestRound1_admitted {s : SessionInner k F} {msg : Round1WireMessage}
    {id : F.Identifier} (hPhase : s.phase ≠ .complete) (hMax : msg.maxSigners = s.maxSigners)
    (hMin : msg.minSigners = s.minSigners) (hTranscript : msg.transcriptHex = s.transcriptHex)
    (hId : identifierFromU16 k F msg.senderIdentifier = .ok id)
    (hSender : s.roster.lookup msg.senderNodeId = some id) :
    s.ingestRound1 msg =
      if id = s.localIdentifier then (.ok (), s)
      else if s.rosterClosed ∨ s.phase ≠ .round1 then
        if (s.round1Packages.lookup id).isSome then (.ok (), s)
        else
          (.error (.thresholdError
            s!"{k.tag}late join rejected: participant set frozen after round1"), s)
      else
        match decodeRound1 k F msg.packageHex with
        | .error e => (.error e, s)
        | .ok package => s.acceptRound1 id package := by
  unfold ingestRound1
  rw [if_neg hPhase, if_neg (by simp [hMax, hMin]), if_neg (by simp [hTranscript]), hId]
  dsimp only
  rw [hSender]
  dsimp only
  refine (if_neg (by simp)).trans ?_
  rfl

/-- The message passes the checks of a session in round 1, and brings `package`
of the frozen member `id`, who is another. -/
structure Admits (s : SessionInner k F) (msg : Round1WireMessage) (id : F.Identifier)
    (package : F.Round1Package) : Prop where
  phase : s.phase = .round1
  rosterOpen : s.rosterClosed = false
  maxSigners : msg.maxSigners = s.maxSigners
  minSigners : msg.minSigners = s.minSigners
  transcriptHex : msg.transcriptHex = s.transcriptHex
  sender : identifierFromU16 k F msg.senderIdentifier = .ok id
  member : s.roster.lookup msg.senderNodeId = some id
  other : id ≠ s.localIdentifier
  decodes : decodeRound1 k F msg.packageHex = .ok package

theorem Admits.ingestRound1 {s : SessionInner k F} {msg : Round1WireMessage} {id : F.Identifier}
    {package : F.Round1Package} (h : s.Admits msg id package) :
    s.ingestRound1 msg = s.acceptRound1 id package := by
  have hOpen : ¬ (s.rosterClosed = true ∨ s.phase ≠ .round1) := by
    rw [h.rosterOpen, h.phase]
    simp
  rw [ingestRound1_admitted (by rw [h.phase]; simp) h.maxSigners h.minSigners h.transcriptHex
    h.sender h.member, if_neg h.other, if_neg hOpen, h.decodes]

/-- A round 1 message leaves the session as it is, or is admitted. -/
theorem ingestRound1_admits (s : SessionInner k F) (msg : Round1WireMessage) :
    (s.ingestRound1 msg).2 = s ∨ ∃ id package, s.Admits msg id package := by
  by_cases hPhase : s.phase = .complete
  · exact .inl (by rw [ingestRound1, if_pos hPhase])
  by_cases hDrift : msg.maxSigners ≠ s.maxSigners ∨ msg.minSigners ≠ s.minSigners
  · exact .inl (by rw [ingestRound1, if_neg hPhase, if_pos hDrift])
  by_cases hTranscript : msg.transcriptHex = s.transcriptHex
  swap
  · exact .inl (by rw [ingestRound1, if_neg hPhase, if_neg hDrift, if_pos hTranscript])
  cases hId : identifierFromU16 k F msg.senderIdentifier with
  | error e =>
    exact .inl (by
      rw [ingestRound1, if_neg hPhase, if_neg hDrift, if_neg (not_not.mpr hTranscript), hId])
  | ok id =>
    cases hSender : s.roster.lookup msg.senderNodeId with
    | none =>
      exact .inl (by
        rw [ingestRound1, if_neg hPhase, if_neg hDrift, if_neg (not_not.mpr hTranscript), hId]
        dsimp only
        rw [hSender])
    | some expected =>
      by_cases hExpected : expected = id
      swap
      · exact .inl (by
          rw [ingestRound1, if_neg hPhase, if_neg hDrift, if_neg (not_not.mpr hTranscript), hId]
          dsimp only
          rw [hSender]
          dsimp only
          rw [if_pos hExpected])
      subst hExpected
      rw [not_or, not_not, not_not] at hDrift
      -- past the checks on the message, only the session's own state decides
      rw [ingestRound1_admitted hPhase hDrift.1 hDrift.2 hTranscript hId hSender]
      by_cases hOwn : expected = s.localIdentifier
      · exact .inl (by rw [if_pos hOwn])
      rw [if_neg hOwn]
      by_cases hClosed : s.rosterClosed = true ∨ s.phase ≠ .round1
      · rw [if_pos hClosed]
        split
        · exact .inl rfl
        · exact .inl rfl
      rw [if_neg hClosed]
      rw [not_or, not_not, Bool.not_eq_true] at hClosed
      cases hDecode : decodeRound1 k F msg.packageHex with
      | error e => exact .inl rfl
      | ok package =>
        exact .inr ⟨expected, package, hClosed.2, hClosed.1, hDrift.1, hDrift.2, hTranscript, hId,
          hSender, hOwn, hDecode⟩

/-- A round 1 message leaves the session as it is, or brings a package of
another frozen member. -/
theorem ingestRound1_cases (s : SessionInner k F) (msg : Round1WireMessage) :
    (s.ingestRound1 msg).2 = s ∨
      ∃ id package, s.phase = .round1 ∧ s.rosterClosed = false ∧
        msg.transcriptHex = s.transcriptHex ∧
        s.roster.lookup msg.senderNodeId = some id ∧ id ≠ s.localIdentifier ∧
        decodeRound1 k F msg.packageHex = .ok package ∧
        s.ingestRound1 msg = s.acceptRound1 id package := by
  rcases s.ingestRound1_admits msg with hSame | ⟨id, package, h⟩
  · exact .inl hSame
  · exact .inr ⟨id, package, h.phase, h.rosterOpen, h.transcriptHex, h.member, h.other, h.decodes,
      h.ingestRound1⟩

/-! ## Round 2 -/

theorem ingestRound2_admitted {s : SessionInner k F} {msg : Round2WireMessage}
    {id : F.Identifier} {package : F.Round2Package} (hPhase : s.phase ≠ .complete)
    (hTranscript : msg.transcriptHex = s.transcriptHex)
    (hRecipient : msg.recipientNodeId = s.localNodeId)
    (hId : identifierFromU16 k F msg.senderIdentifier = .ok id)
    (hSender : s.roster.lookup msg.senderNodeId = some id)
    (hDecode : decodeRound2 k F msg.packageHex = .ok package) :
    s.ingestRound2 msg = (.ok (), { s with round2Inbox := s.round2Inbox.insert id package }) := by
  unfold ingestRound2
  rw [if_neg hPhase, if_neg (by simp [hTranscript]), if_neg (by simp [hRecipient]), hId]
  dsimp only
  rw [hSender]
  dsimp only
  rw [if_neg (by simp), hDecode]

/-- A round 2 message changes nothing but the inbox, and that only before the
session is complete. -/
theorem ingestRound2_cases (s : SessionInner k F) (msg : Round2WireMessage) :
    (s.ingestRound2 msg).2 = s ∨
      ∃ id package, s.phase ≠ .complete ∧
        (s.ingestRound2 msg).2 = { s with round2Inbox := s.round2Inbox.insert id package } := by
  unfold ingestRound2
  split
  · exact .inl rfl
  rename_i hPhase
  split
  · exact .inl rfl
  split
  · exact .inl rfl
  split
  · exact .inl rfl
  split
  · exact .inl rfl
  split
  · exact .inl rfl
  split
  · exact .inl rfl
  · exact .inr ⟨_, _, hPhase, rfl⟩

/-! ## Round 3 -/

/-- The keys a session ends with are those of part 3, with the frozen
threshold. -/
theorem round3Keys_ok {s : SessionInner k F} {keys : F.KeyPackage × F.PublicKeyPackage} :
    s.round3Keys = .ok keys ↔
      ∃ r2Secret kp pk, s.maxSigners - 1 ≤ s.round2Inbox.size ∧ s.round2Secret = some r2Secret ∧
        F.part3 r2Secret (s.round1Packages.erase s.localIdentifier) s.round2Inbox =
          .ok (kp, pk) ∧
        assertThreshold k kp pk s.minSigners s.maxSigners = .ok () ∧
        keys = finishKeys k (kp, pk) := by
  unfold round3Keys
  dsimp only
  by_cases hNeed : s.round2Inbox.size < s.maxSigners - 1
  · rw [if_pos hNeed]
    constructor
    · intro h
      cases h
    · rintro ⟨_, _, _, hLe, _⟩
      omega
  rw [if_neg hNeed]
  cases s.round2Secret with
  | none => simp
  | some r2Secret =>
    dsimp only
    cases hPart : F.part3 r2Secret (s.round1Packages.erase s.localIdentifier) s.round2Inbox with
    | error e => simp [mapErr, hPart]
    | ok made =>
      obtain ⟨kp, pk⟩ := made
      simp only [mapErr]
      -- of what part 3 makes only the thresholds are checked
      constructor
      · intro h
        cases hThreshold : assertThreshold k kp pk s.minSigners s.maxSigners with
        | error e => simp [hThreshold] at h
        | ok u =>
          simp only [hThreshold, Except.ok.injEq] at h
          exact ⟨r2Secret, kp, pk, by omega, rfl, hPart, hThreshold, h.symm⟩
      · rintro ⟨r2', kp', pk', -, hSecret, hPart', hThreshold, rfl⟩
        cases Option.some.inj hSecret
        obtain ⟨rfl, rfl⟩ := Prod.mk.inj (Except.ok.inj (hPart.symm.trans hPart'))
        rw [hThreshold]

end SessionInner

end KeroseneVault
