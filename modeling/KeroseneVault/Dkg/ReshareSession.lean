import KeroseneVault.Dkg.ReshareHub
import KeroseneVault.Lib.Runs

/-!
# What the calls on a reshare hub can do

One lemma for each method of a session and of the hub, guards included, what
`build_reshare_roster` makes, and runs of calls on a hub with its share store.

* `Numbers` — what the hub relies on about identifiers and part 1;
* `Admits` — a round 1 message that passes the checks of a session;
* `ReshareHubCall`, `perform`, `step` — one call on a hub;
* `ReshareSessionInner.after` — what a call makes of the session it names.

Main results:

* `buildReshareRoster_ok` — names and identifiers of a roster are distinct;
* `acceptRound1_cases`, `ingestRound1_cases`, `ingestRound2_cases`,
  `reshareKeys_ok`, `start_cases` — what the methods do;
* `lookup_perform`, `lookup_perform_ne`, `perform_cases` — a call moves its own
  session, as `after` says, and only a start makes a new one.
-/

namespace KeroseneVault

variable {F : FrostRefresh}

/-! ## Rosters -/

/-- What the documentation of the crate says of `Identifier::try_from` of a
`u16`, and of the numbers part 1 takes. -/
structure FrostRefresh.Numbers (F : FrostRefresh) : Prop where
  zero : ∃ e, F.ofU16 0 = .error e
  injective : ∀ u v id, u < 2 ^ 16 → v < 2 ^ 16 → F.ofU16 u = .ok id → F.ofU16 v = .ok id → u = v
  signers : ∀ id maxSigners minSigners rand drawn,
    F.refreshPart1 id maxSigners minSigners rand = .ok drawn → 2 ≤ maxSigners

/-- The loop numbers the names in their order. -/
theorem reshareEntries_ok {i : Nat} {nodes : List String}
    {entries : List (String × F.Identifier)} (h : reshareEntries F i nodes = .ok entries) :
    entries.map Prod.fst = nodes ∧
      ∀ n entry, entries[n]? = some entry → F.ofU16 ((i + n + 1) % 2 ^ 16) = .ok entry.2 := by
  induction nodes generalizing i entries with
  | nil =>
    cases Except.ok.inj h
    exact ⟨rfl, by simp⟩
  | cons node rest ih =>
    unfold reshareEntries at h
    split at h
    · cases h
    rename_i id hId
    split at h
    · cases h
    rename_i later hRest
    cases Except.ok.inj h
    obtain ⟨hNames, hIds⟩ := ih hRest
    refine ⟨by rw [List.map_cons, hNames], fun n entry hEntry => ?_⟩
    rcases n with _ | n
    · cases Option.some.inj hEntry
      exact mapErr_ok.mp hId
    · have hNext := hIds n entry hEntry
      rwa [show i + 1 + n + 1 = i + (n + 1) + 1 by omega] at hNext

/-- A loop that goes through gives no identifier twice: the first number to
come again would be zero. -/
theorem reshareEntries_nodup (hF : F.Numbers) {nodes : List String}
    {entries : List (String × F.Identifier)} (h : reshareEntries F 0 nodes = .ok entries) :
    entries.length < 2 ^ 16 ∧ (entries.map Prod.snd).Nodup := by
  obtain ⟨-, hIds⟩ := reshareEntries_ok h
  have hShort : entries.length < 2 ^ 16 := by
    by_contra hLong
    have hLast : 2 ^ 16 - 1 < entries.length := by omega
    have hWrapped := hIds _ _ (List.getElem?_eq_getElem hLast)
    obtain ⟨e, hZero⟩ := hF.zero
    rw [show (0 + (2 ^ 16 - 1) + 1) % 2 ^ 16 = 0 by norm_num, hZero] at hWrapped
    cases hWrapped
  refine ⟨hShort, ?_⟩
  -- numbers are counted in sixteen bits, and zero is no identifier: so the list ends before
  -- they come round
  rw [List.nodup_iff_injective_get]
  rintro ⟨m, hm⟩ ⟨n, hn⟩ hEq
  rw [List.length_map] at hm hn
  simp only [List.get_eq_getElem, List.getElem_map] at hEq
  have hM := hIds m _ (List.getElem?_eq_getElem hm)
  have hN := hIds n _ (List.getElem?_eq_getElem hn)
  rw [← hEq] at hN
  have hNumber := hF.injective _ _ _ (Nat.mod_lt _ (by omega)) (Nat.mod_lt _ (by omega)) hM hN
  rw [Nat.mod_eq_of_lt (by omega), Nat.mod_eq_of_lt (by omega)] at hNumber
  rw [Fin.mk.injEq]
  omega

/-- No name and no identifier stands on the roster twice, and each identifier
is that of a number. -/
structure ReshareRosterOk (roster : Roster F.toFrostDkg) : Prop where
  names : (roster.map Prod.fst).Nodup
  identifiers : (roster.map Prod.snd).Nodup
  numbered : ∀ e ∈ roster, ∃ v, 0 < v ∧ v < 2 ^ 16 ∧ F.ofU16 v = .ok e.2
  short : roster.length < 2 ^ 16

theorem buildReshareRoster_ok (hF : F.Numbers) {nodes : List String}
    {roster : Roster F.toFrostDkg} (h : buildReshareRoster F nodes = .ok roster) :
    ReshareRosterOk roster := by
  unfold buildReshareRoster at h
  cases hEntries : reshareEntries F 0 (nodes.insertionSort (· ≤ ·)) with
  | error e =>
    rw [hEntries] at h
    cases h
  | ok entries =>
    rw [hEntries] at h
    cases Except.ok.inj h
    obtain ⟨-, hIds⟩ := reshareEntries_ok hEntries
    obtain ⟨hShort, hNodup⟩ := reshareEntries_nodup hF hEntries
    have hNames : ((SortedMap.ofList entries).entries.map Prod.fst).Nodup :=
      (SortedMap.ofList entries).sorted.imp ne_of_lt
    have hSub : (SortedMap.ofList entries).entries ⊆ entries := fun e => SortedMap.mem_of_mem_ofList
    have hEntriesNodup : (SortedMap.ofList entries).entries.Nodup := hNames.of_map _
    -- to keep one entry for each name can only take entries away
    refine ⟨hNames, ?_, fun e he => ?_, ?_⟩
    · exact hEntriesNodup.map_on fun a ha b hb hEq =>
        List.inj_on_of_nodup_map hNodup (hSub ha) (hSub hb) hEq
    · obtain ⟨n, hn, rfl⟩ := List.getElem_of_mem (hSub he)
      have hId := hIds n _ (List.getElem?_eq_getElem hn)
      exact ⟨(0 + n + 1) % 2 ^ 16, by omega, Nat.mod_lt _ (by omega), hId⟩
    · exact lt_of_le_of_lt (hEntriesNodup.subperm hSub).length_le hShort

/-- The names are those that were given. -/
theorem buildReshareRoster_names {nodes : List String} {roster : Roster F.toFrostDkg}
    (h : buildReshareRoster F nodes = .ok roster) : ∀ name ∈ roster.map Prod.fst, name ∈ nodes := by
  intro name hName
  unfold buildReshareRoster at h
  rcases hEntries : reshareEntries F 0 (nodes.insertionSort (· ≤ ·)) with e | entries
  · rw [hEntries] at h
    cases h
  · rw [hEntries] at h
    cases Except.ok.inj h
    obtain ⟨e, he, rfl⟩ := List.mem_map.mp hName
    have hMem := List.mem_map_of_mem (f := Prod.fst) (SortedMap.mem_of_mem_ofList he)
    rw [(reshareEntries_ok hEntries).1] at hMem
    exact (List.mem_insertionSort (· ≤ ·)).mp hMem

/-! ## Sessions -/

namespace WireReshareHub

/-- Part 1 of a session that a start opens. -/
theorem openSession_ok {hub : WireReshareHub F} {req : ReshareStartRequest} {dayEpoch : DayEpoch}
    {roster : Roster F.toFrostDkg} {oldPubkey : F.PublicKeyPackage} {oldKey : Option F.KeyPackage}
    {rand : F.Randomness} {inner : ReshareSessionInner F} {wire : ReshareRound1WireMessage} :
    hub.openSession req dayEpoch roster oldPubkey oldKey rand = .ok (inner, wire) ↔
      ∃ id secret package bytes, roster.lookup hub.localNodeId = some id ∧
        F.refreshPart1 id req.maxSigners req.minSigners rand = .ok (secret, package) ∧
        F.round1Bytes package = .ok bytes ∧
        inner = hub.freshSession req dayEpoch roster id secret package oldPubkey oldKey ∧
        wire = inner.round1Message req.dayEpoch (F.hexEncode bytes) := by
  unfold openSession
  cases roster.lookup hub.localNodeId with
  | none => simp
  | some id =>
    dsimp only
    cases hPart : F.refreshPart1 id req.maxSigners req.minSigners rand with
    | error e => simp [mapErr, hPart]
    | ok drawn =>
      obtain ⟨secret, package⟩ := drawn
      dsimp only [mapErr]
      cases hBytes : F.round1Bytes package with
      | error e => simp [hPart, hBytes]
      | ok bytes =>
        simp only [Except.ok.injEq, Prod.mk.injEq, Option.some.injEq, exists_and_left]
        -- the session and its message are those of what part 1 drew
        constructor
        · rintro ⟨rfl, rfl⟩
          exact ⟨id, rfl, secret, package, hPart, bytes, hBytes, rfl, rfl⟩
        · rintro ⟨_, rfl, _, _, hPart', _, hBytes', rfl, rfl⟩
          obtain ⟨rfl, rfl⟩ := Prod.mk.inj (Except.ok.inj (hPart.symm.trans hPart'))
          cases Except.ok.inj (hBytes.symm.trans hBytes')
          exact ⟨rfl, rfl⟩

/-- A start is refused, or answers for the session there is, or opens one. -/
theorem start_cases (hub : WireReshareHub F) (req : ReshareStartRequest)
    (oldPubkey : F.PublicKeyPackage) (oldKey : Option F.KeyPackage) (rand : F.Randomness) :
    (∃ e, hub.start req oldPubkey oldKey rand = (.error e, hub)) ∨
    (∃ s answer, hub.sessions.lookup req.sessionId = some s ∧ s.restart = .ok answer ∧
      hub.start req oldPubkey oldKey rand = (.ok answer, hub)) ∨
    ∃ dayEpoch roster inner wire, hub.sessions.lookup req.sessionId = none ∧
      DayEpoch.parse req.dayEpoch = .ok dayEpoch ∧ buildReshareRoster F req.roster = .ok roster ∧
      roster.length % 2 ^ 16 = req.maxSigners ∧
      hub.openSession req dayEpoch roster oldPubkey oldKey rand = .ok (inner, wire) ∧
      hub.start req oldPubkey oldKey rand = (.ok (inner.status, wire),
        { hub with sessions := hub.sessions.insert req.sessionId inner }) := by
  unfold start
  cases hDay : DayEpoch.parse req.dayEpoch with
  | error e => exact .inl ⟨_, rfl⟩
  | ok dayEpoch =>
    dsimp only
    cases hRoster : buildReshareRoster F req.roster with
    | error e => exact .inl ⟨e, rfl⟩
    | ok roster =>
      dsimp only
      by_cases hLength : roster.length % 2 ^ 16 ≠ req.maxSigners
      · rw [if_pos hLength]
        exact .inl ⟨_, rfl⟩
      rw [if_neg hLength]
      cases hFound : hub.sessions.lookup req.sessionId with
      | some existing =>
        -- a session of the same id answers only what it was started with
        dsimp only
        split
        · exact .inl ⟨_, rfl⟩
        · cases hRestart : existing.restart with
          | error e => exact .inl ⟨e, rfl⟩
          | ok answer => exact .inr (.inl ⟨existing, answer, rfl, hRestart, rfl⟩)
      | none =>
        dsimp only
        cases hOpen : hub.openSession req dayEpoch roster oldPubkey oldKey rand with
        | error e => exact .inl ⟨e, rfl⟩
        | ok opened =>
          obtain ⟨inner, wire⟩ := opened
          exact .inr (.inr ⟨dayEpoch, roster, inner, wire, rfl, rfl, rfl, not_not.mp hLength,
            hOpen, rfl⟩)

end WireReshareHub

namespace ReshareSessionInner

/-! ### Round 1 -/

/-- The message passes the checks of the session, comes from `id` and brings
`package`. -/
structure Admits (s : ReshareSessionInner F) (msg : ReshareRound1WireMessage) (id : F.Identifier)
    (package : F.Round1Package) : Prop where
  phase : s.phase ≠ .complete
  maxSigners : msg.maxSigners = s.maxSigners
  minSigners : msg.minSigners = s.minSigners
  transcriptHex : msg.transcriptHex = s.transcriptHex
  sender : reshareIdentifierFromU16 F msg.senderIdentifier = .ok id
  member : s.roster.lookup msg.senderNodeId = some id
  decodes : decodeRound1 F msg.packageHex = .ok package

theorem Admits.unique {s : ReshareSessionInner F} {msg : ReshareRound1WireMessage}
    {id id' : F.Identifier} {package package' : F.Round1Package} (h : s.Admits msg id package)
    (h' : s.Admits msg id' package') : id = id' ∧ package = package' :=
  ⟨Except.ok.inj (h.sender.symm.trans h'.sender), Except.ok.inj (h.decodes.symm.trans h'.decodes)⟩

theorem Admits.ingestRound1 {s : ReshareSessionInner F} {msg : ReshareRound1WireMessage}
    {id : F.Identifier} {package : F.Round1Package} (h : s.Admits msg id package) :
    s.ingestRound1 msg = s.acceptRound1 id package := by
  unfold ReshareSessionInner.ingestRound1
  rw [if_neg h.phase, if_neg (by simp [h.maxSigners, h.minSigners]),
    if_neg (by simp [h.transcriptHex]), h.sender]
  dsimp only
  rw [h.member]
  dsimp only
  rw [if_neg (by simp), h.decodes]

/-- A round 1 message leaves the session as it is, or is admitted. -/
theorem ingestRound1_cases (s : ReshareSessionInner F) (msg : ReshareRound1WireMessage) :
    (s.ingestRound1 msg).2 = s ∨ ∃ id package, s.Admits msg id package := by
  -- one check after the other; each refusal leaves the session
  unfold ingestRound1
  split
  · exact .inl rfl
  rename_i hPhase
  split
  · exact .inl rfl
  rename_i hDrift
  split
  · exact .inl rfl
  rename_i hTranscript
  split
  · exact .inl rfl
  rename_i id hId
  split
  · exact .inl rfl
  rename_i expected hMember
  split
  · exact .inl rfl
  rename_i hExpected
  split
  · exact .inl rfl
  rename_i package hDecodes
  rw [not_or, not_not, not_not] at hDrift
  obtain rfl := not_not.mp hExpected
  exact .inr ⟨expected, package, hPhase, hDrift.1, hDrift.2, not_not.mp hTranscript, hId, hMember,
    hDecodes⟩

/-- What an admitted package leaves: it is stored, whatever the phase, and the
session moves on or loses the secret to a part 2 that fails. -/
theorem acceptRound1_cases (s : ReshareSessionInner F) (sender : F.Identifier)
    (package : F.Round1Package) :
    let packages : Table F.Identifier F.Round1Package := s.round1Packages.insert sender package
    (s.acceptRound1 sender package = (.ok (), { s with round1Packages := packages }) ∧
      ¬ (packages.size % 2 ^ 16 = s.maxSigners ∧ s.round1Secret.isSome ∧ s.phase = .round1)) ∨
    (packages.size % 2 ^ 16 = s.maxSigners ∧ s.phase = .round1 ∧
      ∃ secret, s.round1Secret = some secret ∧
      ((∃ r2Secret outbound,
          F.refreshPart2 secret (packages.erase s.localIdentifier) = .ok (r2Secret, outbound) ∧
          s.acceptRound1 sender package = (.ok (), { s with
            round1Packages := packages
            round1Secret := none
            round2Secret := some r2Secret
            round2Outbound := outbound
            phase := .round2 })) ∨
        (∃ e, F.refreshPart2 secret (packages.erase s.localIdentifier) = .error e ∧
          s.acceptRound1 sender package = (.error (.thresholdError s!"frost refresh part2: {e}"),
            { s with round1Packages := packages, round1Secret := none })))) := by
  intro packages
  unfold acceptRound1
  dsimp only
  by_cases hFull : packages.size % 2 ^ 16 = s.maxSigners ∧ s.round1Secret.isSome ∧ s.phase = .round1
  · rw [if_pos hFull]
    obtain ⟨secret, hSecret⟩ := Option.isSome_iff_exists.mp hFull.2.1
    refine .inr ⟨hFull.1, hFull.2.2, secret, hSecret, ?_⟩
    unfold advanceToRound2
    rw [hSecret]
    dsimp only
    cases hPart : F.refreshPart2 secret (packages.erase s.localIdentifier) with
    | error e => exact .inr ⟨e, rfl, rfl⟩
    | ok drawn => exact .inl ⟨drawn.1, drawn.2, rfl, rfl⟩
  · rw [if_neg hFull]
    exact .inl ⟨rfl, hFull⟩

/-- Whatever becomes of it, the package is stored. -/
theorem acceptRound1_round1Packages (s : ReshareSessionInner F) (sender : F.Identifier)
    (package : F.Round1Package) :
    (s.acceptRound1 sender package).2.round1Packages = s.round1Packages.insert sender package := by
  rcases s.acceptRound1_cases sender package with
    ⟨hEq, -⟩ | ⟨-, -, _, -, ⟨_, _, -, hEq⟩ | ⟨_, -, hEq⟩⟩
  all_goals rw [hEq]

/-! ### Round 2 and the new shares -/

/-- A round 2 message changes nothing but the inbox, and that only before the
session is complete. -/
theorem ingestRound2_cases (s : ReshareSessionInner F) (msg : ReshareRound2WireMessage) :
    (s.ingestRound2 msg).2 = s ∨
      ∃ id package, s.phase ≠ .complete ∧
        (s.ingestRound2 msg).2 = { s with round2Inbox := s.round2Inbox.insert id package } := by
  unfold ingestRound2
  split
  · exact .inl rfl
  rename_i hPhase
  split
  · exact .inl rfl
  split
  · exact .inl rfl
  split
  · exact .inl rfl
  split
  · exact .inl rfl
  split
  · exact .inl rfl
  split
  · exact .inl rfl
  · exact .inr ⟨_, _, hPhase, rfl⟩

/-- The keys a session ends with are those of part 3. -/
theorem reshareKeys_ok {s : ReshareSessionInner F} {keys : F.KeyPackage × F.PublicKeyPackage} :
    s.reshareKeys = .ok keys ↔
      ∃ r2Secret oldKp, s.maxSigners - 1 ≤ s.round2Inbox.size ∧ s.round2Secret = some r2Secret ∧
        s.oldKeyPackage = some oldKp ∧
        F.refreshShares r2Secret (s.round1Packages.erase s.localIdentifier) s.round2Inbox
          s.oldPubkeyPackage oldKp = .ok keys ∧
        F.keyMinSigners keys.1 = s.minSigners ∧
        F.verifyingKey s.oldPubkeyPackage = F.verifyingKey keys.2 := by
  unfold reshareKeys
  dsimp only
  by_cases hNeed : s.round2Inbox.size < s.maxSigners - 1
  · rw [if_pos hNeed]
    constructor
    · intro h
      cases h
    · rintro ⟨_, _, hLe, -⟩
      omega
  rw [if_neg hNeed]
  cases s.round2Secret with
  | none => simp
  | some r2Secret =>
    dsimp only
    cases s.oldKeyPackage with
    | none => simp
    | some oldKp =>
      dsimp only
      cases hShares : F.refreshShares r2Secret (s.round1Packages.erase s.localIdentifier)
          s.round2Inbox s.oldPubkeyPackage oldKp with
      | error e => simp [mapErr, hShares]
      | ok made =>
        -- the two checks on what was made: the threshold, and the key of the group
        obtain ⟨kp, pk⟩ := made
        simp only [mapErr]
        constructor
        · intro h
          split at h
          · cases h
          rename_i hMin
          unfold assertVkPreserved at h
          by_cases hKey : F.verifyingKey s.oldPubkeyPackage = F.verifyingKey pk
          · rw [if_neg (not_not.mpr hKey)] at h
            cases Except.ok.inj h
            exact ⟨r2Secret, oldKp, not_lt.mp hNeed, rfl, rfl, hShares, not_not.mp hMin, hKey⟩
          · rw [if_pos hKey] at h
            cases h
        · rintro ⟨r2', oldKp', -, hSecret, hOld, hShares', hMin, hKey⟩
          cases Option.some.inj hSecret
          cases Option.some.inj hOld
          obtain rfl := Except.ok.inj (hShares.symm.trans hShares')
          rw [if_neg (not_not.mpr hMin), assertVkPreserved, if_neg (not_not.mpr hKey)]

end ReshareSessionInner

/-! ## Calls -/

/-- A call on a hub. -/
inductive ReshareHubCall (F : FrostRefresh) where
  | start (req : ReshareStartRequest) (oldPubkey : F.PublicKeyPackage)
      (oldKey : Option F.KeyPackage) (rand : F.Randomness)
  | ingestRound1 (msg : ReshareRound1WireMessage)
  | takeRound2Outbound (sessionId : String)
  | ingestRound2 (msg : ReshareRound2WireMessage)
  | finalize (sessionId : String) (disk : ShareDisk)

/-- The session a call names. -/
def ReshareHubCall.sessionId : ReshareHubCall F → String
  | .start req _ _ _ => req.sessionId
  | .ingestRound1 msg => msg.sessionId
  | .takeRound2Outbound sessionId => sessionId
  | .ingestRound2 msg => msg.sessionId
  | .finalize sessionId _ => sessionId

namespace WireReshareHub

/-- The hub and its share store after a call. -/
def perform (hub : WireReshareHub F) (store : ShareStore) :
    ReshareHubCall F → WireReshareHub F × ShareStore
  | .start req oldPubkey oldKey rand => ((hub.start req oldPubkey oldKey rand).2, store)
  | .ingestRound1 msg => ((hub.ingestRound1 msg).2, store)
  | .takeRound2Outbound sessionId => ((hub.takeRound2Outbound sessionId).2, store)
  | .ingestRound2 msg => ((hub.ingestRound2 msg).2, store)
  | .finalize sessionId disk => (hub.finalize sessionId disk store).2

/-- A call on a hub with its share store. -/
def step (c : WireReshareHub F × ShareStore) (call : ReshareHubCall F) :
    WireReshareHub F × ShareStore := c.1.perform c.2 call

end WireReshareHub

namespace ReshareSessionInner

/-- The session after a call that names it. -/
def after (s : ReshareSessionInner F) : ReshareHubCall F → ReshareSessionInner F
  | .start _ _ _ _ => s
  | .ingestRound1 msg =>
    match checkReshareEnvelope "r1" msg.envelope with
    | .error _ => s
    | .ok () => (s.ingestRound1 msg).2
  | .takeRound2Outbound _ => s.drained
  | .ingestRound2 msg =>
    match checkReshareEnvelope "r2" msg.envelope with
    | .error _ => s
    | .ok () => (s.ingestRound2 msg).2
  | .finalize _ disk =>
    if s.phase = .complete then s
    else
      match s.reshareKeys with
      | .error _ => s
      | .ok keys =>
        match (putAll disk ∅ (s.reshareRecords keys)).1 with
        | .error _ => s
        | .ok () => s.completeWith keys

end ReshareSessionInner

namespace WireReshareHub

@[simp] theorem onSession_lookup_self (hub : WireReshareHub F) (sid missing : String)
    (f : ReshareSessionInner F → Outcome × ReshareSessionInner F) :
    (hub.onSession sid missing f).2.sessions.lookup sid =
      (hub.sessions.lookup sid).map fun s => (f s).2 := by
  unfold onSession
  cases hs : hub.sessions.lookup sid with
  | none => simp [hs]
  | some s =>
    dsimp only
    cases (f s).1 with
    | error e => simp
    | ok u => simp

@[simp] theorem onSession_lookup_ne (hub : WireReshareHub F) {sid sid' : String} (h : sid' ≠ sid)
    (missing : String) (f : ReshareSessionInner F → Outcome × ReshareSessionInner F) :
    (hub.onSession sid missing f).2.sessions.lookup sid' = hub.sessions.lookup sid' := by
  unfold onSession
  cases hs : hub.sessions.lookup sid with
  | none => rfl
  | some s =>
    dsimp only
    cases (f s).1 with
    | error e => simp [AList.lookup_insert_ne h]
    | ok u => simp [AList.lookup_insert_ne h]

/-- A call moves no session but its own. -/
theorem lookup_perform_ne (hub : WireReshareHub F) (store : ShareStore) {call : ReshareHubCall F}
    {sid : String} (h : sid ≠ call.sessionId) :
    (hub.perform store call).1.sessions.lookup sid = hub.sessions.lookup sid := by
  -- each call inserts under its own session's name, if at all
  cases call with
  | start req oldPubkey oldKey rand =>
    rcases start_cases hub req oldPubkey oldKey rand with
      ⟨_, hEq⟩ | ⟨_, _, _, _, hEq⟩ | ⟨_, _, _, _, _, _, _, _, _, hEq⟩
    · rw [perform, hEq]
    · rw [perform, hEq]
    · rw [perform, hEq]
      exact AList.lookup_insert_ne h
  | ingestRound1 msg =>
    simp only [perform, ingestRound1]
    split
    · rfl
    · exact onSession_lookup_ne hub h _ _
  | takeRound2Outbound sessionId =>
    simp only [perform, takeRound2Outbound]
    split
    · rfl
    · exact AList.lookup_insert_ne h
  | ingestRound2 msg =>
    simp only [perform, ingestRound2]
    split
    · rfl
    · exact onSession_lookup_ne hub h _ _
  | finalize sessionId disk =>
    simp only [perform, finalize]
    split
    · rfl
    · split
      · rfl
      · split
        · rfl
        · split
          · rfl
          · exact AList.lookup_insert_ne h

/-- A call moves the session it names as `after` says. -/
theorem lookup_perform (hub : WireReshareHub F) (store : ShareStore) (call : ReshareHubCall F)
    {s : ReshareSessionInner F} (h : hub.sessions.lookup call.sessionId = some s) :
    (hub.perform store call).1.sessions.lookup call.sessionId = some (s.after call) := by
  cases call with
  | start req oldPubkey oldKey rand =>
    rcases start_cases hub req oldPubkey oldKey rand with
      ⟨_, hEq⟩ | ⟨_, _, _, _, hEq⟩ | ⟨_, _, _, _, hNone, _⟩
    · rw [perform, hEq]
      exact h
    · rw [perform, hEq]
      exact h
    · exact absurd (h.symm.trans hNone) (by simp)
  | ingestRound1 msg =>
    simp only [perform, ingestRound1, ReshareSessionInner.after, ReshareHubCall.sessionId] at h ⊢
    rcases checkReshareEnvelope "r1" msg.envelope with e | u
    · exact h
    · simp [h]
  | takeRound2Outbound sessionId =>
    simp only [perform, takeRound2Outbound, ReshareSessionInner.after, ReshareHubCall.sessionId] at h ⊢
    rw [h]
    exact AList.lookup_insert _
  | ingestRound2 msg =>
    simp only [perform, ingestRound2, ReshareSessionInner.after, ReshareHubCall.sessionId] at h ⊢
    rcases checkReshareEnvelope "r2" msg.envelope with e | u
    · exact h
    · simp [h]
  | finalize sessionId disk =>
    simp only [perform, finalize, ReshareSessionInner.after, ReshareHubCall.sessionId] at h ⊢
    rw [h]
    dsimp only
    by_cases hComplete : s.phase = .complete
    · rw [if_pos hComplete, if_pos hComplete]
      exact h
    · rw [if_neg hComplete, if_neg hComplete]
      rcases s.reshareKeys with e | keys
      · exact h
      · dsimp only
        -- the answer of the disk does not depend on what the store has
        rw [putAll_outcome disk ∅ store (s.reshareRecords keys)]
        rcases putAll disk store (s.reshareRecords keys) with ⟨e | u, after⟩
        · exact h
        · exact AList.lookup_insert _

/-- A hub has a new session only from a start. -/
theorem perform_cases (hub : WireReshareHub F) (store : ShareStore) {call : ReshareHubCall F}
    (h : hub.sessions.lookup call.sessionId = none) :
    (hub.perform store call).1.sessions.lookup call.sessionId = none ∨
      ∃ req oldPubkey oldKey rand dayEpoch roster inner wire,
        call = .start req oldPubkey oldKey rand ∧
        buildReshareRoster F req.roster = .ok roster ∧ roster.length % 2 ^ 16 = req.maxSigners ∧
        hub.openSession req dayEpoch roster oldPubkey oldKey rand = .ok (inner, wire) ∧
        (hub.perform store call).1.sessions.lookup call.sessionId = some inner := by
  cases call with
  | start req oldPubkey oldKey rand =>
    rcases start_cases hub req oldPubkey oldKey rand with ⟨_, hEq⟩ | ⟨_, _, hSome, -, hEq⟩ |
      ⟨dayEpoch, roster, inner, wire, -, -, hR, hL, hOpen, hEq⟩
    -- a start is refused, finds a session of its own, or opens one
    · exact .inl (by rw [perform, hEq]; exact h)
    · exact absurd (h.symm.trans hSome) (by simp)
    · refine .inr ⟨req, oldPubkey, oldKey, rand, dayEpoch, roster, inner, wire, rfl, hR, hL,
        hOpen, ?_⟩
      rw [perform, hEq]
      exact AList.lookup_insert _
  | ingestRound1 msg =>
    refine .inl ?_
    simp only [perform, ingestRound1, ReshareHubCall.sessionId] at h ⊢
    split
    · exact h
    · simp [h]
  | takeRound2Outbound sessionId =>
    refine .inl ?_
    simp only [perform, takeRound2Outbound, ReshareHubCall.sessionId] at h ⊢
    rw [h]
    exact h
  | ingestRound2 msg =>
    refine .inl ?_
    simp only [perform, ingestRound2, ReshareHubCall.sessionId] at h ⊢
    split
    · exact h
    · simp [h]
  | finalize sessionId disk =>
    refine .inl ?_
    simp only [perform, finalize, ReshareHubCall.sessionId] at h ⊢
    rw [h]
    exact h

theorem perform_localNodeId (hub : WireReshareHub F) (store : ShareStore)
    (call : ReshareHubCall F) : (hub.perform store call).1.localNodeId = hub.localNodeId := by
  cases call with
  | start req oldPubkey oldKey rand =>
    rcases start_cases hub req oldPubkey oldKey rand with
      ⟨_, hEq⟩ | ⟨_, _, _, _, hEq⟩ | ⟨_, _, _, _, _, _, _, _, _, hEq⟩
    all_goals rw [perform, hEq]
  | ingestRound1 msg =>
    simp only [perform, ingestRound1, onSession]
    repeat' split
    all_goals rfl
  | takeRound2Outbound sessionId =>
    simp only [perform, takeRound2Outbound]
    split
    all_goals rfl
  | ingestRound2 msg =>
    simp only [perform, ingestRound2, onSession]
    repeat' split
    all_goals rfl
  | finalize sessionId disk =>
    simp only [perform, finalize]
    repeat' split
    all_goals rfl

end WireReshareHub

namespace ReshareSessionInner

/-- What a session freezes at its start. -/
def constitution (s : ReshareSessionInner F) :
    String × F.Identifier × Nat × Nat × Roster F.toFrostDkg × String :=
  (s.localNodeId, s.localIdentifier, s.maxSigners, s.minSigners, s.roster, s.transcriptHex)

theorem acceptRound1_constitution (s : ReshareSessionInner F) (sender : F.Identifier)
    (package : F.Round1Package) :
    (s.acceptRound1 sender package).2.constitution = s.constitution := by
  rcases s.acceptRound1_cases sender package with
    ⟨hEq, -⟩ | ⟨-, -, _, -, ⟨_, _, -, hEq⟩ | ⟨_, -, hEq⟩⟩
  all_goals
    rw [hEq]
    rfl

/-- No call changes the constitution. -/
theorem after_constitution (s : ReshareSessionInner F) (call : ReshareHubCall F) :
    (s.after call).constitution = s.constitution := by
  -- no method writes the roster, the thresholds or the transcript
  cases call with
  | start req oldPubkey oldKey rand => rfl
  | ingestRound1 msg =>
    rw [after]
    split
    · rfl
    rcases s.ingestRound1_cases msg with hSame | ⟨id, package, hAdmits⟩
    · rw [hSame]
    · rw [hAdmits.ingestRound1]
      exact s.acceptRound1_constitution id package
  | takeRound2Outbound sessionId => rfl
  | ingestRound2 msg =>
    rw [after]
    split
    · rfl
    rcases s.ingestRound2_cases msg with hSame | ⟨id, package, -, hEq⟩
    · rw [hSame]
    · rw [hEq]
      rfl
  | finalize sessionId disk =>
    rw [after]
    split
    · rfl
    split
    · rfl
    split
    · rfl
    · rfl

end ReshareSessionInner

end KeroseneVault
