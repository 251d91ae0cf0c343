import KeroseneVault.Dkg.Completion
import KeroseneVault.Dkg.WellFormed

/-!
# The round 2 inbox

`finalize_round3` counts the inbox of a session to see whether every peer's
package is there. A round 2 message is taken from any roster member, the local
node included, and replaces what that member sent before.

* `AdmitsRound2` — the checks a round 2 message passes;
* `PeersOnly`, `Counts` — what the inbox is to hold, and what its size is to say;
* `FrostDkg.ChecksShares` — what part 3 asks of the inbox.

Main results:

* `peersOnly_step` — an admitted message keeps the inbox to peers exactly when
  its sender is one;
* `finalizable_ingest` — it leaves a session able to finalize exactly when it
  brings a peer's valid package;
* `round2Inbox_iff` — both, along every run;
* `round2Inbox_fails` — one message in the local node's name.
-/

namespace KeroseneVault

variable {k : WireDkg} {F : FrostDkg}

namespace SessionInner

/-! ## Admitted messages -/

/-- The message passes the checks of `ingest_round2`, and brings the package
of the member with this identifier. -/
structure AdmitsRound2 (s : SessionInner k F) (msg : Round2WireMessage) (id : F.Identifier)
    (package : F.Round2Package) : Prop where
  envelope : checkEnvelope k "round2" msg.envelope = .ok ()
  phase : s.phase ≠ .complete
  transcriptHex : msg.transcriptHex = s.transcriptHex
  recipient : msg.recipientNodeId = s.localNodeId
  identifier : identifierFromU16 k F msg.senderIdentifier = .ok id
  sender : s.roster.lookup msg.senderNodeId = some id
  package : decodeRound2 k F msg.packageHex = .ok package

variable {s : SessionInner k F} {msg : Round2WireMessage} {id : F.Identifier}
  {package : F.Round2Package}

theorem AdmitsRound2.after (h : s.AdmitsRound2 msg id package) :
    s.after (.ingestRound2 msg) = { s with round2Inbox := s.round2Inbox.insert id package } := by
  simp only [SessionInner.after, h.envelope]
  rw [ingestRound2_admitted h.phase h.transcriptHex h.recipient h.identifier h.sender h.package]

/-- A message that is not admitted leaves the session as it is. -/
theorem after_ingestRound2_cases (s : SessionInner k F) (msg : Round2WireMessage) :
    (∃ id package, s.AdmitsRound2 msg id package) ∨
      (∀ id package, ¬ s.AdmitsRound2 msg id package) ∧ s.after (.ingestRound2 msg) = s := by
  by_cases hAdmits : ∃ id package, s.AdmitsRound2 msg id package
  · exact .inl hAdmits
  refine .inr ⟨fun id package h => hAdmits ⟨id, package, h⟩, ?_⟩
  -- past the last check the message would be one that is admitted
  simp only [SessionInner.after]
  split
  · rfl
  rename_i hEnvelope
  unfold ingestRound2
  split
  · rfl
  rename_i hPhase
  split
  · rfl
  rename_i hTranscript
  split
  · rfl
  rename_i hRecipient
  split
  · rfl
  rename_i senderId hId
  split
  · rfl
  rename_i expected hSender
  split
  · rfl
  rename_i hExpected
  split
  · rfl
  rename_i package hDecode
  obtain rfl := not_not.mp hExpected
  exact absurd ⟨_, package, hEnvelope, hPhase, not_not.mp hTranscript, not_not.mp hRecipient, hId,
    hSender, hDecode⟩ hAdmits

/-! ## What the inbox holds -/

/-- The inbox has packages of roster members other than the local node only. -/
def PeersOnly (s : SessionInner k F) : Prop :=
  ∀ j ∈ s.round2Inbox, j ∈ s.ids ∧ j ≠ s.localIdentifier

/-- The inbox has the size `finalize_round3` waits for exactly when it has
every peer's package. -/
def Counts (s : SessionInner k F) : Prop :=
  s.round2Inbox.size = s.maxSigners - 1 ↔
    ∀ j ∈ s.ids, j ≠ s.localIdentifier → j ∈ s.round2Inbox

/-- The peers' identifiers. -/
def peers (s : SessionInner k F) : List F.Identifier := s.ids.erase s.localIdentifier

namespace WellFormed

variable {i : String}

theorem ids_nodup (hLaws : F.Laws) (h : s.WellFormed i) : s.ids.Nodup :=
  h.rosterOk.ids_nodup hLaws

theorem mem_peers (hLaws : F.Laws) (h : s.WellFormed i) {j : F.Identifier} :
    j ∈ s.peers ↔ j ∈ s.ids ∧ j ≠ s.localIdentifier := by
  rw [peers, (h.ids_nodup hLaws).mem_erase_iff]
  exact and_comm

theorem length_peers (hLaws : F.Laws) (h : s.WellFormed i) :
    s.peers.length = s.maxSigners - 1 := by
  have hShort := h.rosterOk.length_lt hLaws
  have hSize := h.size
  rw [Nat.mod_eq_of_lt (by omega)] at hSize
  have hOwn : s.localIdentifier ∈ s.ids := List.mem_map_of_mem h.own
  rw [peers, List.length_erase_of_mem hOwn, ids, List.length_map, hSize]

/-- An inbox of peers' packages alone is counted rightly. -/
theorem counts (hLaws : F.Laws) (h : s.WellFormed i) (hPeers : s.PeersOnly) : s.Counts := by
  have hSub : ∀ j ∈ s.round2Inbox, j ∈ s.peers := fun j hj => (h.mem_peers hLaws).mpr (hPeers j hj)
  have hLe := Table.size_le_of_subset hSub
  have hLength := h.length_peers hLaws
  constructor
  · intro hSize j hj hOther
    exact Table.mem_of_le_size hSub (by omega) ((h.mem_peers hLaws).mpr ⟨hj, hOther⟩)
  · intro hAll
    have hGe : s.peers.length ≤ s.round2Inbox.size :=
      Table.length_le_size ((h.ids_nodup hLaws).erase s.localIdentifier)
        (fun j hj => hAll j ((h.mem_peers hLaws).mp hj).1 ((h.mem_peers hLaws).mp hj).2)
    omega

/-- A roster member has the local identifier exactly when it is the local node. -/
theorem sender_eq_local (hLaws : F.Laws) (h : s.WellFormed i)
    (hAdmits : s.AdmitsRound2 msg id package) :
    id = s.localIdentifier ↔ msg.senderNodeId = s.localNodeId := by
  have hSender := mem_of_lookup hAdmits.sender
  rw [h.localNodeId]
  constructor
  · intro hId
    exact congrArg Prod.fst
      (List.inj_on_of_nodup_map (h.ids_nodup hLaws) hSender h.own hId)
  · intro hName
    exact congrArg Prod.snd (h.rosterOk.eq_of_name hSender h.own hName)

end WellFormed

/-- The local node is not the sender of a message the session admits. -/
def FromPeer (s : SessionInner k F) (msg : Round2WireMessage) : Prop :=
  ∀ id package, s.AdmitsRound2 msg id package → msg.senderNodeId ≠ s.localNodeId

/-- **One message.** -/
theorem peersOnly_ingest (hLaws : F.Laws) {i : String} (h : s.WellFormed i)
    (hPeers : s.PeersOnly) (msg : Round2WireMessage) :
    (s.after (.ingestRound2 msg)).PeersOnly ↔ s.FromPeer msg := by
  rcases s.after_ingestRound2_cases msg with ⟨id, package, hAdmits⟩ | ⟨hNone, hSame⟩
  swap
  · rw [hSame]
    exact iff_of_true hPeers fun id package hAdmits => absurd hAdmits (hNone id package)
  have hLocal := h.sender_eq_local hLaws hAdmits
  rw [hAdmits.after]
  constructor
  · intro hAfter _ _ _ hSelf
    exact (hAfter id ((AList.mem_insert _).mpr (.inl rfl))).2 (hLocal.mpr hSelf)
  · intro hFrom j hj
    rcases (AList.mem_insert _).mp hj with rfl | hOld
    · exact ⟨List.mem_map_of_mem (mem_of_lookup hAdmits.sender),
        fun hSelf => hFrom _ _ hAdmits (hLocal.mp hSelf)⟩
    · exact hPeers j hOld

/-- No other call brings a package to the inbox. -/
theorem after_round2Inbox (s : SessionInner k F) {call : HubCall F}
    (h : ∀ msg, call ≠ .ingestRound2 msg) : (s.after call).round2Inbox = s.round2Inbox := by
  -- only a round 2 message touches the inbox
  cases call with
  | start req rand => rfl
  | takeRound2Outbound sessionId => rfl
  | ingestRound1 msg =>
    rw [SessionInner.after]
    split
    · rfl
    · rcases s.ingestRound1_cases msg with hSame | ⟨id, package, hPhase, -, -, -, -, -, hEq⟩
      · rw [hSame]
      · rw [hEq]
        rcases s.acceptRound1_cases id package hPhase with
          ⟨hAccept, -⟩ | ⟨-, _, -, ⟨_, _, -, hAccept⟩ | ⟨_, -, hAccept⟩⟩
        all_goals rw [hAccept]
  | ingestRound2 msg => exact absurd rfl (h msg)
  | finalizeRound3 sessionId disk =>
    rw [SessionInner.after]
    split
    · rfl
    · split
      · rfl
      · split
        · rfl
        · rfl

/-- A call that is no round 2 message leaves the inbox to peers. -/
theorem PeersOnly.after (h : s.PeersOnly) {call : HubCall F}
    (hCall : ∀ msg, call ≠ .ingestRound2 msg) : (s.after call).PeersOnly := by
  have hFrozen := (s.after_extends call).constitution
  simp only [constitution, Prod.mk.injEq] at hFrozen
  obtain ⟨-, -, hLocal, -, -, hRoster, -⟩ := hFrozen
  unfold PeersOnly
  rw [s.after_round2Inbox hCall, ids, hRoster, hLocal]
  exact h

end SessionInner

/-! ## Along a run of the hubs -/

namespace DkgMesh

/-- All inboxes are of peers, and their sizes say whose packages are there. -/
def InboxesHold (m : DkgMesh k F) : Prop :=
  ∀ i sid s, m.session i sid = some s → s.PeersOnly ∧ s.Counts

/-- A round 2 message that the hub admits is not sent in its own node's name. -/
def GivesFromPeer (m : DkgMesh k F) : String × HubCall F → Prop
  | (i, .ingestRound2 msg) => ∀ s, m.session i msg.sessionId = some s → s.FromPeer msg
  | _ => True

theorem inboxesHold_init (stores : String → ShareStore) :
    (init .new stores : DkgMesh k F).InboxesHold :=
  fun i sid s hs => absurd ((DkgHub.lookup_new i sid).symm.trans hs) (by simp)

/-- **One call.** -/
theorem inboxesHold_step (hLaws : F.Laws) {m : DkgMesh k F} (hFormed : m.WellFormed)
    (h : m.InboxesHold) (a : String × HubCall F) :
    (m.step a).InboxesHold ↔ m.GivesFromPeer a := by
  obtain ⟨i, call⟩ := a
  constructor
  · intro hNext
    cases call with
    | ingestRound2 msg =>
      intro s hs
      have hAfter := hNext i msg.sessionId (s.after (.ingestRound2 msg)) (m.session_step_self hs)
      exact (SessionInner.peersOnly_ingest hLaws (hFormed.sessions i _ s hs) (h i _ s hs).1 msg).mp
        hAfter.1
    | _ => trivial
  · intro hGives j sid s hs
    have hNext := (hFormed.step hLaws (i, call)).sessions j sid s hs
    -- an inbox of peers only has a size that says what it is to say
    suffices hPeers : s.PeersOnly from ⟨hPeers, hNext.counts hLaws hPeers⟩
    rcases m.session_step_cases hs with ⟨t, ht, rfl | ⟨rfl, rfl, rfl⟩⟩ |
      ⟨req, rand, roster, wire, -, -, -, -, -, hOpen⟩
    · exact (h j sid s ht).1
    · by_cases hMsg : ∃ msg, call = .ingestRound2 msg
      · obtain ⟨msg, rfl⟩ := hMsg
        exact (SessionInner.peersOnly_ingest hLaws (hFormed.sessions j _ t ht) (h j _ t ht).1
          msg).mpr (hGives t ht)
      · exact (h j _ t ht).1.after fun msg hCall => hMsg ⟨msg, hCall⟩
    · -- a new session has an empty inbox
      obtain ⟨_, _, _, _, -, -, -, rfl, -⟩ := openSession_ok.mp hOpen
      exact fun j hj => absurd hj (AList.notMem_empty j)

end DkgMesh

/-! ## Sessions that can finalize -/

/-! ### Part 3 -/

/-- What part 3 asks of the inbox: packages of exactly the members whose round 1
packages it is given, each `valid`. What the keys say of the thresholds comes
from the secret and the round 1 packages. -/
structure FrostDkg.ChecksShares (F : FrostDkg)
    (valid : F.Round2Secret → Table F.Identifier F.Round1Package → F.Identifier →
      F.Round2Package → Bool) : Prop where
  part3 : ∀ secret received inbox inbox' keys, F.part3 secret received inbox = .ok keys →
    ((∃ keys', F.part3 secret received inbox' = .ok keys') ↔
      (∀ j, j ∈ inbox' ↔ j ∈ received) ∧
        ∀ j package, inbox'.lookup j = some package → valid secret received j package)
  thresholds : ∀ secret received inbox inbox' keys keys', F.part3 secret received inbox = .ok keys →
    F.part3 secret received inbox' = .ok keys' →
    F.keyMinSigners keys'.1 = F.keyMinSigners keys.1 ∧
    F.pubkeyMinSigners keys'.2 = F.pubkeyMinSigners keys.2 ∧
    F.pubkeyMaxSigners keys'.2 = F.pubkeyMaxSigners keys.2

namespace PolyFrost

variable {K V : Type} [LinearOrder K] [CommRing K] [DecidableEq V] [AddCommGroup V] [Module K V]
variable {P : PolyFrost K V} {secret : PolySecret2 K V} {received : Table K (PolyRound1 K V)}
  {inbox : Table K K}

/-- Part 3 succeeds on the right number of packages, with one valid share for
each. -/
theorem part3_isOk :
    (∃ keys, P.part3 secret received inbox = .ok keys) ↔
      received.size = secret.maxSigners - 1 ∧ (∀ j, j ∈ inbox ↔ j ∈ received) ∧
        ∀ j share, inbox.lookup j = some share →
          P.verifiesShare secret.identifier received (j, share) = true := by
  have hAll : inbox.toPairs.all (P.verifiesShare secret.identifier received) = true ↔
      ∀ j share, inbox.lookup j = some share →
        P.verifiesShare secret.identifier received (j, share) = true := by
    rw [List.all_eq_true]
    exact ⟨fun h j share hLookup => h _ (Table.mem_toPairs.mpr hLookup),
      fun h e he => h e.1 e.2 (Table.mem_toPairs.mp he)⟩
  rw [← hAll, ← Table.keys_perm_iff]
  unfold part3
  constructor
  · rintro ⟨keys, h⟩
    split at h
    · cases h
    rename_i hCount
    rw [not_or, not_not, not_not] at hCount
    split at h
    · cases h
    rename_i hAny
    split at h
    · rename_i hVerified
      refine ⟨hCount.1, ?_, hVerified⟩
      -- all the packages' keys, and as many
      have hSub : ∀ j ∈ received.keys, j ∈ inbox.keys := by simpa using hAny
      have hLength := hCount.2
      rw [Table.size_eq_keys, Table.size_eq_keys] at hLength
      exact ((List.subperm_of_subset received.keys_nodup hSub).perm_of_length_le
        hLength.ge).symm
    · cases h
  · rintro ⟨hSize, hPerm, hVerified⟩
    have hSizes : received.size = inbox.size := by
      rw [Table.size_eq_keys, Table.size_eq_keys, hPerm.length_eq]
    have hAny : ¬ received.keys.any fun j => j ∉ inbox.keys := by
      simpa using fun j hj => hPerm.mem_iff.mpr hj
    rw [if_neg (by rw [not_or, not_not, not_not]; exact ⟨hSize, hSizes⟩), if_neg hAny,
      if_pos hVerified]
    exact ⟨_, rfl⟩

/-- The keys' thresholds come from the secret and the round 1 packages. -/
theorem part3_thresholds {keys : PolyKey K V × PolyPubkey K V}
    (h : P.part3 secret received inbox = .ok keys) :
    keys.1.minSigners = UInt16.ofNat secret.minSigners ∧
    keys.2.minSigners = UInt16.ofNat secret.minSigners ∧
    keys.2.verifyingShares.length = received.keys.length + 1 := by
  unfold part3 at h
  split at h
  · cases h
  split at h
  · cases h
  split at h
  · cases Except.ok.inj h
    exact ⟨rfl, rfl, by simp⟩
  · cases h

/-- So part 3 does with committed polynomials, where a share is valid that
agrees with its sender's commitment. -/
theorem checksShares (P : PolyFrost K V) :
    P.toFrostDkg.ChecksShares fun secret received j share =>
      P.verifiesShare (PolySecret2.identifier secret) received (j, share) where
  part3 secret received inbox inbox' keys h := by
    have hCount := (part3_isOk.mp ⟨keys, h⟩).1
    exact part3_isOk.trans (and_iff_right hCount)
  thresholds secret received inbox inbox' keys keys' h h' := by
    obtain ⟨hKey, hPub, hMax⟩ := part3_thresholds h
    obtain ⟨hKey', hPub', hMax'⟩ := part3_thresholds h'
    refine ⟨?_, ?_, hMax'.trans hMax.symm⟩
    · exact congrArg UInt16.toNat (hKey'.trans hKey.symm)
    · exact congrArg (fun n : UInt16 => some n.toNat) (hPub'.trans hPub.symm)

end PolyFrost

namespace SessionInner

variable {s : SessionInner k F} {msg : Round2WireMessage} {id : F.Identifier}
  {package : F.Round2Package} {valid : F.Round2Secret → Table F.Identifier F.Round1Package →
    F.Identifier → F.Round2Package → Bool}

/-- `finalize_round3` gets as far as the share store. -/
def Finalizable (s : SessionInner k F) : Prop := ∃ keys, s.round3Keys = .ok keys

/-- The message, if the session admits it, brings a peer's valid package. -/
def BringsValid (valid : F.Round2Secret → Table F.Identifier F.Round1Package → F.Identifier →
    F.Round2Package → Bool) (s : SessionInner k F) (msg : Round2WireMessage) : Prop :=
  ∀ id package, s.AdmitsRound2 msg id package → msg.senderNodeId ≠ s.localNodeId ∧
    ∀ secret, s.round2Secret = some secret →
      valid secret (s.round1Packages.erase s.localIdentifier) id package

/-- A session that can finalize can do so with another inbox exactly when part 3
takes that inbox too. -/
theorem finalizable_inbox (hChecks : F.ChecksShares valid) (h : s.Finalizable)
    {secret : F.Round2Secret} (hSecret : s.round2Secret = some secret)
    (inbox : Table F.Identifier F.Round2Package) (hSize : s.round2Inbox.size ≤ inbox.size) :
    ({ s with round2Inbox := inbox } : SessionInner k F).Finalizable ↔
      (∀ j, j ∈ inbox ↔ j ∈ s.round1Packages.erase s.localIdentifier) ∧
        ∀ j package, inbox.lookup j = some package →
          valid secret (s.round1Packages.erase s.localIdentifier) j package := by
  obtain ⟨keys, hKeys⟩ := h
  obtain ⟨secret', kp, pk, hNeed, hSecret', hPart, hThreshold, -⟩ := round3Keys_ok.mp hKeys
  cases Option.some.inj (hSecret.symm.trans hSecret')
  rw [← hChecks.part3 secret _ _ inbox _ hPart]
  -- thresholds do not depend on what the inbox holds, so that part 3 alone decides
  constructor
  · rintro ⟨keys', hKeys'⟩
    obtain ⟨secret', kp', pk', -, hSome, hPart', -, -⟩ := round3Keys_ok.mp hKeys'
    cases Option.some.inj (hSecret.symm.trans hSome)
    exact ⟨_, hPart'⟩
  · rintro ⟨⟨kp', pk'⟩, hPart'⟩
    obtain ⟨hKeyMin, hMin, hMax⟩ := hChecks.thresholds _ _ _ _ _ _ hPart hPart'
    have hSame : assertThreshold k kp' pk' s.minSigners s.maxSigners = .ok () := by
      dsimp only at hKeyMin hMin hMax
      rw [assertThreshold, hKeyMin, hMin, hMax]
      exact hThreshold
    exact ⟨_, round3Keys_ok.mpr ⟨secret, kp', pk', hNeed.trans hSize, hSecret, hPart', hSame, rfl⟩⟩

/-- **One message.** -/
theorem finalizable_ingest (hLaws : F.Laws) (hChecks : F.ChecksShares valid) {i : String}
    (hFormed : s.WellFormed i) (h : s.Finalizable) (msg : Round2WireMessage) :
    (s.after (.ingestRound2 msg)).Finalizable ↔ s.BringsValid valid msg := by
  rcases s.after_ingestRound2_cases msg with ⟨id, package, hAdmits⟩ | ⟨hNone, hSame⟩
  swap
  · rw [hSame]
    exact iff_of_true h fun id package hAdmits => absurd hAdmits (hNone id package)
  have hOk := h
  obtain ⟨keys, hKeys⟩ := hOk
  obtain ⟨secret, kp, pk, -, hSecret, hPart, -, -⟩ := round3Keys_ok.mp hKeys
  -- the inbox there is has the peers' valid packages and no others
  have hNow := (finalizable_inbox hChecks h hSecret s.round2Inbox le_rfl).mp h
  have hPast : s.phase ≠ .round1 := fun hPhase =>
    absurd ((hFormed.waits hPhase).symm.trans hSecret) (by simp)
  have hMember : id ∈ s.ids := List.mem_map_of_mem (mem_of_lookup hAdmits.sender)
  have hReceived : id ∈ s.round1Packages.erase s.localIdentifier ↔
      msg.senderNodeId ≠ s.localNodeId := by
    rw [AList.mem_erase, ne_eq, hFormed.sender_eq_local hLaws hAdmits]
    exact and_iff_left (hFormed.full hPast id hMember)
  have hSize : s.round2Inbox.size ≤ Table.size (s.round2Inbox.insert id package) := by
    by_cases hThere : id ∈ s.round2Inbox
    · rw [Table.size_insert_of_mem hThere]
    · rw [Table.size_insert_of_notMem hThere]
      omega
  rw [hAdmits.after, finalizable_inbox hChecks h hSecret _ hSize]
  constructor
  · rintro ⟨hKeysSame, hValid⟩ id' package' hAdmits'
    have hId := Except.ok.inj (hAdmits.identifier.symm.trans hAdmits'.identifier)
    have hPackage := Except.ok.inj (hAdmits.package.symm.trans hAdmits'.package)
    subst hId hPackage
    refine ⟨hReceived.mp ((hKeysSame id).mp ((AList.mem_insert _).mpr (.inl rfl))), ?_⟩
    intro secret' hSecret'
    cases Option.some.inj (hSecret.symm.trans hSecret')
    exact hValid id package (AList.lookup_insert _)
  · intro hBrings
    obtain ⟨hPeer, hValid⟩ := hBrings id package hAdmits
    refine ⟨fun j => ?_, fun j package' hLookup => ?_⟩
    · rw [AList.mem_insert, hNow.1 j]
      refine ⟨?_, .inr⟩
      rintro (rfl | hOld)
      · exact hReceived.mpr hPeer
      · exact hOld
    · rcases Table.lookup_insert_eq_some.mp hLookup with ⟨rfl, rfl⟩ | ⟨-, hOld⟩
      · exact hValid secret hSecret
      · exact hNow.2 j package' hOld

end SessionInner

/--
**The round 2 inbox.** Along a run of the hubs all inboxes are of peers, with
sizes that say whose packages are there, exactly when no message in a node's
own name is admitted by its hub. And a session that can finalize stays so, for
a run of round 2 messages, exactly when each it admits brings a peer's valid
package.
-/
theorem round2Inbox_iff (hLaws : F.Laws) {valid : F.Round2Secret →
      Table F.Identifier F.Round1Package → F.Identifier → F.Round2Package → Bool}
    (hChecks : F.ChecksShares valid) (stores : String → ShareStore)
    (as : List (String × HubCall F)) :
    (Runs.EveryState DkgMesh.step DkgMesh.InboxesHold (.init .new stores : DkgMesh k F) as ↔
      Runs.EveryStep DkgMesh.step DkgMesh.GivesFromPeer (.init .new stores : DkgMesh k F) as) ∧
    ∀ i sid s, (Runs.run DkgMesh.step (.init .new stores : DkgMesh k F) as).session i sid = some s →
      s.Finalizable → ∀ msgs : List Round2WireMessage,
        (Runs.EveryState (fun s msg => s.after (.ingestRound2 msg)) SessionInner.Finalizable s msgs ↔
          Runs.EveryStep (fun s msg => s.after (.ingestRound2 msg))
            (SessionInner.BringsValid valid) s msgs) := by
  constructor
  · exact Runs.everyState_iff_everyStep (J := DkgMesh.WellFormed)
      (fun m a hFormed => hFormed.step hLaws a)
      (fun m a hFormed h => DkgMesh.inboxesHold_step hLaws hFormed h a)
      (DkgMesh.wellFormed_init stores) (DkgMesh.inboxesHold_init stores) as
  · intro i sid s hs hFinalizable msgs
    have hFormed : (Runs.run DkgMesh.step (.init .new stores : DkgMesh k F) as).WellFormed :=
      Runs.run_preserves (fun m a h => h.step hLaws a) (DkgMesh.wellFormed_init stores) as
    exact Runs.everyState_iff_everyStep (J := SessionInner.WellFormed i)
      (fun s msg h => h.after hLaws (.ingestRound2 msg))
      (fun s msg h hF => SessionInner.finalizable_ingest hLaws hChecks h hF msg)
      (hFormed.sessions i sid s hs) hFinalizable msgs

/-- The theorem on a delivered run of two members. -/
theorem round2Inbox_iff_pair :
    (Runs.EveryState DkgMesh.step DkgMesh.InboxesHold
        (.init .new fun _ => ∅ : DkgMesh .taproot smallFrost.toFrostDkg) pairCalls ↔
      Runs.EveryStep DkgMesh.step DkgMesh.GivesFromPeer
        (.init .new fun _ => ∅ : DkgMesh .taproot smallFrost.toFrostDkg) pairCalls) ∧
    ∀ i sid s, (Runs.run DkgMesh.step
        (.init .new fun _ => ∅ : DkgMesh .taproot smallFrost.toFrostDkg) pairCalls).session i sid =
          some s →
      s.Finalizable → ∀ msgs : List Round2WireMessage,
        (Runs.EveryState (fun s msg => s.after (.ingestRound2 msg)) SessionInner.Finalizable s msgs ↔
          Runs.EveryStep (fun s msg => s.after (.ingestRound2 msg))
            (SessionInner.BringsValid fun secret received j share =>
              smallFrost.verifiesShare (PolySecret2.identifier secret) received (j, share)) s msgs) :=
  round2Inbox_iff smallFrost.laws smallFrost.checksShares (fun _ => ∅) pairCalls

/-! ### One message in the local node's name -/

/-- `a` is told that it sent itself a package. -/
def ownMessage : Round2WireMessage where
  sessionId := "s1"
  senderNodeId := "a"
  senderIdentifier := 1
  recipientNodeId := "a"
  recipientIdentifier := 1
  transcriptHex := @sessionTranscript smallFrost.toFrostDkg .taproot "s1" 2 2
    ([("a", 1), ("b", 2)] : List (String × Small))
  packageHex := smallFrost.hexEncode (smallFrost.round2.bytes 9)
  envelope := none

instance SessionInner.decidableFinalizable (s : SessionInner k F) : Decidable s.Finalizable :=
  match h : s.round3Keys with
  | .ok keys => isTrue ⟨keys, h⟩
  | .error _ => isFalse fun ⟨_, hOk⟩ => by rw [h] at hOk; cases hOk

/-- Every message was delivered and `a` can finalize; then its inbox has a
package of its own, is of the wrong size, and `a` can finalize no more. -/
theorem round2Inbox_fails :
    ∃ s s', pairDelivered.session "a" "s1" = some s ∧ s.Finalizable ∧
      (pairDelivered.step ("a", .ingestRound2 ownMessage)).session "a" "s1" = some s' ∧
      ¬ s'.PeersOnly ∧ s'.round2Inbox.size ≠ s'.maxSigners - 1 ∧ ¬ s'.Finalizable := by
  have hBefore : (pairDelivered.session "a" "s1").isSome := by decide +kernel
  have hAfter : ((pairDelivered.step ("a", .ingestRound2 ownMessage)).session "a" "s1").isSome := by
    decide +kernel
  have hOwn : (((pairDelivered.step ("a", .ingestRound2 ownMessage)).session "a" "s1").get
      hAfter).localIdentifier ∈
      (((pairDelivered.step ("a", .ingestRound2 ownMessage)).session "a" "s1").get
        hAfter).round2Inbox := by
    decide +kernel +revert
  exact ⟨_, _, (Option.some_get hBefore).symm, by decide +kernel +revert,
    (Option.some_get hAfter).symm, fun hPeers => (hPeers _ hOwn).2 rfl,
    by decide +kernel +revert, by decide +kernel +revert⟩

end KeroseneVault
