import KeroseneVault.Dkg.Mesh

/-!
# Honest DKG sessions

What is assumed of FROST, and what holds of a session whose members all run
the hub: the packages it has are the members' own, and it is in the phase its
packages put it in.

* `KeyGeneration` — one correct run of the three parts over given members;
* `FrostDkg.Laws` — what honest members draw is such a run, encodings decode,
  and identifiers are distinct;
* `Ceremony` — a session all its members start with the same constitution;
* `Ceremony.Live` — the invariant of a member's session.

Main results:

* `Live.after` — every honest call keeps it;
* `Live.finalizes` — with every package there, part 3 succeeds.
-/

namespace KeroseneVault

open Table (Others)

variable {k : WireDkg} {F : FrostDkg}

/-! ## FROST -/

/-- A correct run of the three parts: what each member draws and sends, and
the one key they end with. `share i j` is what `i` sends to `j`. -/
structure KeyGeneration (F : FrostDkg) (ids : List F.Identifier) (max min : Nat) where
  secret : F.Identifier → F.Round1Secret
  package : F.Identifier → F.Round1Package
  secret2 : F.Identifier → F.Round2Secret
  share : F.Identifier → F.Identifier → F.Round2Package
  shareBytes : F.Identifier → F.Identifier → List UInt8
  key : F.VerifyingKey
  encodes : ∀ i ∈ ids, ∀ j ∈ ids, F.round2Bytes (share i j) = .ok (shareBytes i j)
  part2 : ∀ i ∈ ids, ∀ received, Others ids i package received →
    ∃ outbound, F.part2 (secret i) received = .ok (secret2 i, outbound) ∧
      Others ids i (share i) outbound
  part3 : ∀ i ∈ ids, ∀ received inbox, Others ids i package received →
    Others ids i (fun j => share j i) inbox →
    ∃ kp pk kpBytes pkBytes, F.part3 (secret2 i) received inbox = .ok (kp, pk) ∧
      F.keyMinSigners kp = min ∧ (F.pubkeyMinSigners pk).getD min = min ∧
      F.pubkeyMaxSigners pk = max ∧ F.verifyingKey pk = key ∧
      F.keyBytes kp = .ok kpBytes ∧ F.pubkeyBytes pk = .ok pkBytes

/-- What the hubs rely on: encodings decode, numbers name distinct
identifiers and zero none, the parts fit together, and making a key even
depends on the key alone. -/
structure FrostDkg.Laws (F : FrostDkg) : Prop where
  hex : ∀ bytes, F.hexDecode (F.hexEncode bytes) = .ok bytes
  identifier_zero : ∀ id, F.ofU16 0 ≠ .ok id
  identifier_injective : ∀ u v id, u < 2 ^ 16 → v < 2 ^ 16 → F.ofU16 u = .ok id →
    F.ofU16 v = .ok id → u = v
  round1 : ∀ package bytes, F.round1Bytes package = .ok bytes → F.readRound1 bytes = .ok package
  round2 : ∀ package bytes, F.round2Bytes package = .ok bytes → F.readRound2 bytes = .ok package
  generates : ∀ (ids : List F.Identifier) (max min : Nat) (secret : F.Identifier → F.Round1Secret)
    (package : F.Identifier → F.Round1Package), ids.Nodup → ids.length = max → 2 ≤ min →
    min ≤ max → (∀ i ∈ ids, ∃ rand, F.part1 i max min rand = .ok (secret i, package i)) →
    ∃ G : KeyGeneration F ids max min, G.secret = secret ∧ G.package = package
  evenKeyBytes : ∀ kp bytes, F.keyBytes kp = .ok bytes → ∃ bytes', F.keyBytes (F.evenKey kp) = .ok bytes'
  evenPubkeyBytes : ∀ pk bytes, F.pubkeyBytes pk = .ok bytes →
    ∃ bytes', F.pubkeyBytes (F.evenPubkey pk) = .ok bytes'
  evenVerifyingKey : ∀ key, ∃ even, ∀ pk, F.verifyingKey pk = key →
    F.verifyingKey (F.evenPubkey pk) = even

namespace RosterOk

variable {roster : Roster F}

/-- Past `u16` the numbers would start over at zero. -/
theorem length_lt (hLaws : F.Laws) (h : RosterOk roster) : roster.length < 2 ^ 16 := by
  by_contra hLong
  have hAt : 2 ^ 16 - 1 < roster.length := by omega
  exact hLaws.identifier_zero _
    (h.identifiers (2 ^ 16 - 1) roster[2 ^ 16 - 1] (List.getElem?_eq_getElem hAt))

theorem ids_nodup (hLaws : F.Laws) (h : RosterOk roster) : (roster.map Prod.snd).Nodup := by
  have hLength := h.length_lt hLaws
  rw [List.Nodup, List.pairwise_iff_getElem]
  intro i j hi hj hLt hEq
  rw [List.length_map] at hi hj
  rw [List.getElem_map, List.getElem_map] at hEq
  have hI := h.identifiers i roster[i] (List.getElem?_eq_getElem hi)
  have hJ := h.identifiers j roster[j] (List.getElem?_eq_getElem hj)
  rw [hEq] at hI
  have hSame := hLaws.identifier_injective _ _ _ (Nat.mod_lt _ (by omega))
    (Nat.mod_lt _ (by omega)) hI hJ
  rw [Nat.mod_eq_of_lt (by omega), Nat.mod_eq_of_lt (by omega)] at hSame
  omega

end RosterOk

/-- Keys that serialize are records a disk that takes all puts takes. -/
theorem putAll_round3Records {disk : ShareDisk}
    (hDisk : ∀ shareId bytes, disk shareId bytes = .stored) {s : SessionInner k F}
    {keys : F.KeyPackage × F.PublicKeyPackage} {kpBytes pkBytes : List UInt8}
    (hKey : F.keyBytes keys.1 = .ok kpBytes) (hPubkey : F.pubkeyBytes keys.2 = .ok pkBytes)
    (store : ShareStore) : (putAll disk store (s.round3Records keys)).1 = .ok () := by
  have hSerialize : ∀ record ∈ s.round3Records keys, ∃ bytes, record.2 = .ok bytes := by
    cases k with
    | plain => simp [SessionInner.round3Records, mapErr, hKey, hPubkey]
    | taproot =>
      simp [SessionInner.round3Records, trRecords, SortedMap.insert, SortedMap.empty,
        SortedMap.insertEntry, mapErr, hKey, hPubkey]
  obtain ⟨entries, hEntries⟩ := exists_serialized hSerialize
  rw [hEntries, putAll_ok hDisk]

/-! ## Ceremonies -/

/-- The nodes of a request's roster. -/
def DkgStartRequest.members (req : DkgStartRequest) : List String :=
  sortDedup (req.roster.map strTrim)

/-- A session that all members of a roster start with the same constitution,
and the key generation they run in it. -/
structure Ceremony (k : WireDkg) (F : FrostDkg) where
  req : DkgStartRequest
  roster : Roster F
  names : roster.map Prod.fst = req.members
  rosterOk : RosterOk roster
  distinct : (roster.map Prod.snd).Nodup
  size : roster.length = req.maxSigners
  size_lt : roster.length < 2 ^ 16
  two_le : 2 ≤ req.maxSigners
  generation : KeyGeneration F (roster.map Prod.snd) req.maxSigners req.minSigners
  packageBytes : F.Identifier → List UInt8
  encodes : ∀ i ∈ roster.map Prod.snd, F.round1Bytes (generation.package i) = .ok (packageBytes i)
  key : F.VerifyingKey
  finished : ∀ kp pk, F.verifyingKey pk = generation.key →
    F.verifyingKey (SessionInner.finishKeys k (kp, pk)).2 = key

namespace Ceremony

variable (C : Ceremony k F)

def ids : List F.Identifier := C.roster.map Prod.snd

def transcript : String :=
  sessionTranscript k C.req.sessionId C.req.maxSigners C.req.minSigners C.roster

/-- The round 1 message of a member. -/
def wire1 (e : String × F.Identifier) : Round1WireMessage where
  sessionId := C.req.sessionId
  senderNodeId := e.1
  senderIdentifier := identifierToU16 C.roster e.2
  maxSigners := C.req.maxSigners
  minSigners := C.req.minSigners
  transcriptHex := C.transcript
  packageHex := F.hexEncode (C.packageBytes e.2)
  envelope := none

/-- The round 2 message from member `e` to member `d`. -/
def wire2 (e d : String × F.Identifier) : Round2WireMessage where
  sessionId := C.req.sessionId
  senderNodeId := e.1
  senderIdentifier := identifierToU16 C.roster e.2
  recipientNodeId := d.1
  recipientIdentifier := identifierToU16 C.roster d.2
  transcriptHex := C.transcript
  packageHex := F.hexEncode (C.generation.shareBytes e.2 d.2)
  envelope := none

/-- A call on a member's hub that delivers, if anything, what members sent. -/
def Admits : HubCall F → Prop
  | .ingestRound1 msg => ∃ d ∈ C.roster, msg = C.wire1 d
  | .ingestRound2 msg => ∃ e ∈ C.roster, ∃ d ∈ C.roster, d ≠ e ∧ msg = C.wire2 e d
  | _ => True

/-- The session of member `e`: the constitution is frozen, and all it has is
the members' own. -/
structure Held (e : String × F.Identifier) (s : SessionInner k F) : Prop where
  sessionId : s.sessionId = C.req.sessionId
  localNodeId : s.localNodeId = e.1
  localIdentifier : s.localIdentifier = e.2
  maxSigners : s.maxSigners = C.req.maxSigners
  minSigners : s.minSigners = C.req.minSigners
  roster : s.roster = C.roster
  transcriptHex : s.transcriptHex = C.transcript
  packages : ∀ j x, s.round1Packages.lookup j = some x → j ∈ C.ids ∧ x = C.generation.package j
  own : e.2 ∈ s.round1Packages
  inbox : ∀ j x, s.round2Inbox.lookup j = some x →
    j ∈ C.ids ∧ j ≠ e.2 ∧ x = C.generation.share j e.2
  outbound : ∀ j x, s.round2Outbound.lookup j = some x →
    j ∈ C.ids ∧ j ≠ e.2 ∧ x = C.generation.share e.2 j

/-- The phase of a member's session fits what it has. -/
structure Live (e : String × F.Identifier) (s : SessionInner k F) : Prop extends C.Held e s where
  round1 : s.phase = .round1 → s.rosterClosed = false ∧ s.round2Secret = none ∧
    s.round1Secret = some (C.generation.secret e.2) ∧ s.round1Packages.size < C.req.maxSigners
  full : s.phase ≠ .round1 → ∀ j ∈ C.ids, j ∈ s.round1Packages
  round2 : s.phase = .round2 → s.round2Secret = some (C.generation.secret2 e.2)
  complete : s.phase = .complete → ∃ pk, s.pubkeyPackage = some pk ∧ F.verifyingKey pk = C.key

variable {C} {e d : String × F.Identifier} {s : SessionInner k F}

theorem mem_ids (he : e ∈ C.roster) : e.2 ∈ C.ids := List.mem_map_of_mem he

theorem length_ids : C.ids.length = C.req.maxSigners := by
  rw [ids, List.length_map, C.size]

theorem ids_nodup : C.ids.Nodup := C.distinct

/-- Identifiers are enough to tell members apart. -/
theorem eq_of_id (he : e ∈ C.roster) (hd : d ∈ C.roster) (hId : e.2 = d.2) : e = d :=
  List.inj_on_of_nodup_map C.distinct he hd hId

theorem decode_wire1 (hLaws : F.Laws) (hd : d ∈ C.roster) :
    SessionInner.decodeRound1 k F (C.wire1 d).packageHex = .ok (C.generation.package d.2) := by
  unfold SessionInner.decodeRound1
  simp only [wire1, hLaws.hex, mapErr]
  rw [hLaws.round1 _ _ (C.encodes d.2 (mem_ids hd))]

theorem decode_wire2 (hLaws : F.Laws) (he : e ∈ C.roster) (hd : d ∈ C.roster) :
    SessionInner.decodeRound2 k F (C.wire2 e d).packageHex = .ok (C.generation.share e.2 d.2) := by
  unfold SessionInner.decodeRound2
  simp only [wire2, hLaws.hex, mapErr]
  rw [hLaws.round2 _ _ (C.generation.encodes e.2 (mem_ids he) d.2 (mem_ids hd))]

namespace Held

/-- A member's package is one more of the members' own. -/
theorem insert (h : C.Held e s) (hd : d ∈ C.roster) :
    C.Held e { s with
      round1Packages := s.round1Packages.insert d.2 (C.generation.package d.2) } :=
  { h with
    packages := fun j x hx => by
      rcases Table.lookup_insert_eq_some.mp hx with ⟨rfl, rfl⟩ | ⟨-, hOld⟩
      · exact ⟨mem_ids hd, rfl⟩
      · exact h.packages j x hOld
    own := (AList.mem_insert _).mpr (.inr h.own) }

theorem mem_ids_of_mem (h : C.Held e s) {j : F.Identifier} (hj : j ∈ s.round1Packages) :
    j ∈ C.ids := by
  obtain ⟨x, hx⟩ := Option.isSome_iff_exists.mp (AList.lookup_isSome.mpr hj)
  exact (h.packages j x hx).1

theorem size_le (h : C.Held e s) : s.round1Packages.size ≤ C.req.maxSigners := by
  have hSize := Table.size_le_of_subset (m := s.round1Packages) fun j => h.mem_ids_of_mem
  rwa [length_ids] at hSize

/-- With every member's package there, the others' are exactly those of the
key generation. -/
theorem others_packages (h : C.Held e s) (hAll : ∀ j ∈ C.ids, j ∈ s.round1Packages) :
    Others C.ids e.2 C.generation.package (s.round1Packages.erase s.localIdentifier) := by
  intro j x
  rw [h.localIdentifier]
  by_cases hj : j = e.2
  · subst hj
    rw [AList.lookup_erase]
    simp
  rw [AList.lookup_erase_ne hj]
  constructor
  · intro hx
    obtain ⟨hId, rfl⟩ := h.packages j x hx
    exact ⟨hId, hj, rfl⟩
  · rintro ⟨hId, -, rfl⟩
    obtain ⟨y, hy⟩ := Option.isSome_iff_exists.mp (AList.lookup_isSome.mpr (hAll j hId))
    rw [hy, (h.packages j y hy).2]

/-- As many round 2 packages as there are others are all of theirs. -/
theorem others_inbox (h : C.Held e s) (he : e ∈ C.roster)
    (hSize : C.req.maxSigners - 1 ≤ s.round2Inbox.size) :
    Others C.ids e.2 (fun j => C.generation.share j e.2) s.round2Inbox := by
  have hSub : ∀ j ∈ s.round2Inbox, j ∈ C.ids.erase e.2 := by
    intro j hj
    obtain ⟨x, hx⟩ := Option.isSome_iff_exists.mp (AList.lookup_isSome.mpr hj)
    obtain ⟨hId, hNe, -⟩ := h.inbox j x hx
    exact (List.mem_erase_of_ne hNe).mpr hId
  have hLength : (C.ids.erase e.2).length ≤ s.round2Inbox.size := by
    rw [List.length_erase_of_mem (mem_ids he), length_ids]
    exact hSize
  intro j x
  constructor
  · exact h.inbox j x
  · rintro ⟨hId, hNe, rfl⟩
    have hIn := Table.mem_of_le_size hSub hLength ((List.mem_erase_of_ne hNe).mpr hId)
    obtain ⟨y, hy⟩ := Option.isSome_iff_exists.mp (AList.lookup_isSome.mpr hIn)
    rw [hy, (h.inbox j y hy).2.2]

end Held

/-- A member that has just run part 1. -/
theorem live_fresh {hub : DkgHub k F} (hHub : hub.localNodeId = e.1) (he : e ∈ C.roster) :
    C.Live e (hub.freshSession C.req C.roster e.2 (C.generation.secret e.2)
      (C.generation.package e.2)) where
  sessionId := rfl
  localNodeId := hHub
  localIdentifier := rfl
  maxSigners := rfl
  minSigners := rfl
  roster := rfl
  transcriptHex := rfl
  -- the one package that is there is the session's own
  packages j x hx := by
    by_cases hj : j = e.2
    · subst hj
      exact ⟨mem_ids he, (Option.some.inj ((AList.lookup_insert _).symm.trans hx)).symm⟩
    · have hNone : (AList.insert e.2 (C.generation.package e.2) (∅ : Table _ _)).lookup j = none :=
        (AList.lookup_insert_ne hj).trans (AList.lookup_empty _)
      exact absurd (hNone.symm.trans hx) (by simp)
  own := (AList.mem_insert _).mpr (.inl rfl)
  inbox j x hx := absurd ((AList.lookup_empty j).symm.trans hx) (by simp)
  outbound j x hx := absurd ((AList.lookup_empty j).symm.trans hx) (by simp)
  round1 _ := ⟨rfl, rfl, rfl, C.two_le⟩
  full h := absurd rfl h
  round2 h := by cases h
  complete h := by cases h

namespace Live

/-! ### Round 1 -/

/-- A member's package leaves the session waiting for more, or all are there
and part 2 gives what the key generation says. -/
theorem acceptRound1 (h : C.Live e s) (he : e ∈ C.roster) (hd : d ∈ C.roster)
    (hPhase : s.phase = .round1) :
    C.Live e (s.acceptRound1 d.2 (C.generation.package d.2)).2 ∧
      d.2 ∈ (s.acceptRound1 d.2 (C.generation.package d.2)).2.round1Packages := by
  obtain ⟨hOpen, hNone, hSecret, -⟩ := h.round1 hPhase
  have hHeld := h.toHeld.insert hd
  have hIn : d.2 ∈ s.round1Packages.insert d.2 (C.generation.package d.2) :=
    (AList.mem_insert _).mpr (.inl rfl)
  have hLe := hHeld.size_le
  have hLt : C.req.maxSigners < 2 ^ 16 := C.size ▸ C.size_lt
  dsimp only at hLe
  rcases s.acceptRound1_cases d.2 (C.generation.package d.2) hPhase with
    ⟨hEq, hNot⟩ | ⟨hFull, secret, hSome, hPart⟩
  · -- a package is missing still
    rw [hEq]
    refine ⟨{ hHeld with
      round1 := fun _ => ⟨hOpen, hNone, hSecret, ?_⟩
      full := fun hNot1 => absurd hPhase hNot1
      round2 := fun h2 => absurd (hPhase.symm.trans h2) (by simp)
      complete := fun h3 => absurd (hPhase.symm.trans h3) (by simp) }, hIn⟩
    refine Nat.lt_of_le_of_ne hLe fun hSize => hNot ⟨?_, by rw [hSecret]; rfl⟩
    rw [hSize, h.maxSigners, Nat.mod_eq_of_lt hLt]
  · -- all are there
    cases Option.some.inj (hSecret.symm.trans hSome)
    rw [h.maxSigners, Nat.mod_eq_of_lt (by omega)] at hFull
    have hSize : C.ids.length ≤
        Table.size (s.round1Packages.insert d.2 (C.generation.package d.2)) := by
      rw [length_ids]
      omega
    -- as many packages as members, each of a member
    have hAll : ∀ j ∈ C.ids, j ∈ s.round1Packages.insert d.2 (C.generation.package d.2) :=
      fun j hj => Table.mem_of_le_size (fun i hi => hHeld.mem_ids_of_mem hi) hSize hj
    obtain ⟨outbound, hOk, hOutbound⟩ := C.generation.part2 e.2 (mem_ids he) _
      (hHeld.others_packages hAll)
    rcases hPart with ⟨r2Secret, outbound', hOk', hEq⟩ | ⟨error, hError, -⟩
    · obtain ⟨rfl, rfl⟩ := Prod.mk.inj (Except.ok.inj (hOk.symm.trans hOk'))
      rw [hEq]
      exact ⟨{ hHeld with
        outbound := fun j x hx => (hOutbound j x).mp hx
        round1 := fun h1 => by cases h1
        full := fun _ => hAll
        round2 := fun _ => rfl
        complete := fun h3 => by cases h3 }, hIn⟩
    · exact absurd (hOk.symm.trans hError) (by simp)

/-- A member's round 1 message is there after its delivery, whenever that is. -/
theorem ingestRound1 (hLaws : F.Laws) (h : C.Live e s) (he : e ∈ C.roster) (hd : d ∈ C.roster) :
    C.Live e (s.ingestRound1 (C.wire1 d)).2 ∧
      d.2 ∈ (s.ingestRound1 (C.wire1 d)).2.round1Packages := by
  by_cases hComplete : s.phase = .complete
  · have hSame : s.ingestRound1 (C.wire1 d) = (.ok (), s) := by
      rw [SessionInner.ingestRound1, if_pos hComplete]
    rw [hSame]
    exact ⟨h, h.full (by rw [hComplete]; simp) d.2 (mem_ids hd)⟩
  have hSender : s.roster.lookup (C.wire1 d).senderNodeId = some d.2 := by
    rw [h.roster]
    exact C.rosterOk.lookup hd
  have hId : identifierFromU16 k F (C.wire1 d).senderIdentifier = .ok d.2 :=
    C.rosterOk.identifierFromU16 hd
  rw [SessionInner.ingestRound1_admitted hComplete h.maxSigners.symm h.minSigners.symm
    h.transcriptHex.symm hId hSender]
  by_cases hEcho : d.2 = s.localIdentifier
  · -- the echo of its own package
    rw [if_pos hEcho, hEcho, h.localIdentifier]
    exact ⟨h, h.own⟩
  rw [if_neg hEcho]
  by_cases hPhase : s.phase = .round1
  · rw [if_neg (by simp [(h.round1 hPhase).1, hPhase]), decode_wire1 hLaws hd]
    exact h.acceptRound1 he hd hPhase
  · -- a duplicate that comes late
    have hIn := h.full hPhase d.2 (mem_ids hd)
    rw [if_pos (.inr hPhase), if_pos (AList.lookup_isSome.mpr hIn)]
    exact ⟨h, hIn⟩

/-! ### Round 2 -/

/-- A member's round 2 message reaches the inbox in round 1 as in round 2. -/
theorem ingestRound2 (hLaws : F.Laws) (h : C.Live e s) {c : String × F.Identifier}
    (he : e ∈ C.roster) (hc : c ∈ C.roster) (hd : d ∈ C.roster) (hNe : d ≠ c) :
    C.Live e (s.ingestRound2 (C.wire2 c d)).2 ∧
      (d = e → s.phase ≠ .complete → c.2 ∈ (s.ingestRound2 (C.wire2 c d)).2.round2Inbox) := by
  by_cases hComplete : s.phase = .complete
  · have hSame : s.ingestRound2 (C.wire2 c d) = (.ok (), s) := by
      rw [SessionInner.ingestRound2, if_pos hComplete]
    rw [hSame]
    exact ⟨h, fun _ hNot => absurd hComplete hNot⟩
  -- the share is for this member or for another one
  by_cases hTo : d = e
  · subst hTo
    have hSender : s.roster.lookup (C.wire2 c d).senderNodeId = some c.2 := by
      rw [h.roster]
      exact C.rosterOk.lookup hc
    have hId : identifierFromU16 k F (C.wire2 c d).senderIdentifier = .ok c.2 :=
      C.rosterOk.identifierFromU16 hc
    rw [SessionInner.ingestRound2_admitted hComplete h.transcriptHex.symm h.localNodeId.symm hId
      hSender (decode_wire2 hLaws hc hd)]
    refine ⟨{ h with inbox := fun j x hx => ?_ }, fun _ _ => (AList.mem_insert _).mpr (.inl rfl)⟩
    rcases Table.lookup_insert_eq_some.mp hx with ⟨rfl, rfl⟩ | ⟨-, hOld⟩
    · exact ⟨mem_ids hc, fun hId => hNe (eq_of_id hc hd hId).symm, rfl⟩
    · exact h.inbox j x hOld
  · -- it is someone else's
    have hNot : (C.wire2 c d).recipientNodeId ≠ s.localNodeId := by
      rw [h.localNodeId]
      exact fun hName => hTo (C.rosterOk.eq_of_name hd he hName)
    have hTranscript : (C.wire2 c d).transcriptHex = s.transcriptHex := h.transcriptHex.symm
    have hSame : (s.ingestRound2 (C.wire2 c d)).2 = s := by
      rw [SessionInner.ingestRound2, if_neg hComplete, if_neg (not_not.mpr hTranscript),
        if_pos hNot]
    rw [hSame]
    exact ⟨h, fun hEq => absurd hEq hTo⟩

/-! ### Round 3 -/

theorem part3 (h : C.Live e s) (he : e ∈ C.roster) (hPhase : s.phase = .round2)
    (hSize : C.req.maxSigners - 1 ≤ s.round2Inbox.size) :
    ∃ kp pk kpBytes pkBytes,
      F.part3 (C.generation.secret2 e.2) (s.round1Packages.erase s.localIdentifier)
        s.round2Inbox = .ok (kp, pk) ∧
      F.keyMinSigners kp = C.req.minSigners ∧
      (F.pubkeyMinSigners pk).getD C.req.minSigners = C.req.minSigners ∧
      F.pubkeyMaxSigners pk = C.req.maxSigners ∧ F.verifyingKey pk = C.generation.key ∧
      F.keyBytes kp = .ok kpBytes ∧ F.pubkeyBytes pk = .ok pkBytes :=
  C.generation.part3 e.2 (mem_ids he) _ _
    (h.others_packages (h.full (by rw [hPhase]; simp))) (h.others_inbox he hSize)

/-- The keys a session ends with have the key of the ceremony. -/
theorem completeWith (h : C.Live e s) (he : e ∈ C.roster) (hPhase : s.phase ≠ .complete)
    {keys : F.KeyPackage × F.PublicKeyPackage}
    (hKeys : s.round3Keys = .ok keys) : C.Live e (s.completeWith keys) := by
  obtain ⟨r2Secret, kp, pk, hSize, hSecret, hPart, -, rfl⟩ :=
    SessionInner.round3Keys_ok.mp hKeys
  have hRound2 : s.phase = .round2 := by
    cases hp : s.phase with
    | round1 => exact absurd (hSecret.symm.trans (h.round1 hp).2.1) (by simp)
    | round2 => rfl
    | complete => exact absurd hp hPhase
  rw [h.maxSigners] at hSize
  obtain ⟨kp', pk', -, -, hPart', -, -, -, hKey, -⟩ := h.part3 he hRound2 hSize
  cases Option.some.inj (hSecret.symm.trans (h.round2 hRound2))
  obtain ⟨rfl, rfl⟩ := Prod.mk.inj (Except.ok.inj (hPart.symm.trans hPart'))
  exact { h with
    round1 := fun h1 => by cases h1
    full := fun _ => h.full (by rw [hRound2]; simp)
    round2 := fun h2 => by cases h2
    complete := fun _ => ⟨_, rfl, C.finished kp pk hKey⟩ }

/-- With every package there, part 3 succeeds, and its keys can be stored. -/
theorem finalizes (hLaws : F.Laws) (h : C.Live e s) (he : e ∈ C.roster)
    (hPhase : s.phase ≠ .complete) (hPackages : ∀ j ∈ C.ids, j ∈ s.round1Packages)
    (hInbox : ∀ j ∈ C.ids, j ≠ e.2 → j ∈ s.round2Inbox) :
    ∃ keys, s.round3Keys = .ok keys ∧
      ∀ disk store, (∀ shareId bytes, disk shareId bytes = .stored) →
        (putAll disk store (s.round3Records keys)).1 = .ok () := by
  -- in round 1 a package would be missing
  have hRound2 : s.phase = .round2 := by
    cases hp : s.phase with
    | round1 =>
      have hLe := Table.length_le_size ids_nodup hPackages
      have hLt := (h.round1 hp).2.2.2
      rw [length_ids] at hLe
      omega
    | round2 => rfl
    | complete => exact absurd hp hPhase
  -- one share of every other member
  have hSize : C.req.maxSigners - 1 ≤ s.round2Inbox.size := by
    have hLe := Table.length_le_size (m := s.round2Inbox) (ids_nodup.erase e.2) fun j hj => by
      obtain ⟨hNe, hId⟩ := ids_nodup.mem_erase_iff.mp hj
      exact hInbox j hId hNe
    rwa [List.length_erase_of_mem (mem_ids he), length_ids] at hLe
  obtain ⟨kp, pk, kpBytes, pkBytes, hPart, hMin, hPkMin, hMax, -, hKp, hPk⟩ :=
    h.part3 he hRound2 hSize
  have hThreshold : assertThreshold k kp pk s.minSigners s.maxSigners = .ok () := by
    rw [assertThreshold, h.minSigners, h.maxSigners, if_neg (by simp [hMin]),
      if_neg (by simp [hPkMin]), if_neg (by simp [hMax])]
  -- the taproot hub stores the keys of even parity
  have hBytes : ∃ kpBytes' pkBytes',
      F.keyBytes (SessionInner.finishKeys k (kp, pk)).1 = .ok kpBytes' ∧
      F.pubkeyBytes (SessionInner.finishKeys k (kp, pk)).2 = .ok pkBytes' := by
    cases k with
    | plain => exact ⟨kpBytes, pkBytes, hKp, hPk⟩
    | taproot =>
      obtain ⟨kpBytes', hEvenKp⟩ := hLaws.evenKeyBytes kp kpBytes hKp
      obtain ⟨pkBytes', hEvenPk⟩ := hLaws.evenPubkeyBytes pk pkBytes hPk
      exact ⟨kpBytes', pkBytes', hEvenKp, hEvenPk⟩
  obtain ⟨_, _, hKp', hPk'⟩ := hBytes
  rw [← h.maxSigners] at hSize
  exact ⟨_, SessionInner.round3Keys_ok.mpr
    ⟨_, kp, pk, hSize, h.round2 hRound2, hPart, hThreshold, rfl⟩,
    fun _ store hDisk => putAll_round3Records hDisk hKp' hPk' store⟩

/-- Every honest call keeps the invariant. -/
theorem after (hLaws : F.Laws) (h : C.Live e s) (he : e ∈ C.roster) {call : HubCall F}
    (hCall : C.Admits call) : C.Live e (s.after call) := by
  -- a message keeps the session live by the lemma of its round; the others move no package
  cases call with
  | start req rand => exact h
  | ingestRound1 msg =>
    obtain ⟨d, hd, rfl⟩ := hCall
    rw [SessionInner.after, show (C.wire1 d).envelope = none from rfl, checkEnvelope_none]
    exact (h.ingestRound1 hLaws he hd).1
  | takeRound2Outbound sessionId =>
    exact { h with outbound := fun j x hx => absurd ((AList.lookup_empty j).symm.trans hx) (by simp) }
  | ingestRound2 msg =>
    obtain ⟨c, hc, d, hd, hNe, rfl⟩ := hCall
    rw [SessionInner.after, show (C.wire2 c d).envelope = none from rfl, checkEnvelope_none]
    exact (h.ingestRound2 hLaws he hc hd hNe).1
  | finalizeRound3 sessionId disk =>
    unfold SessionInner.after
    dsimp only
    by_cases hPhase : s.phase = .complete
    · rw [if_pos hPhase]
      exact h
    rw [if_neg hPhase]
    cases hKeys : s.round3Keys with
    | error error => exact h
    | ok keys =>
      dsimp only
      cases (putAll disk ∅ (s.round3Records keys)).1 with
      | error error => exact h
      | ok u => exact h.completeWith he hPhase hKeys

end Live

end Ceremony

end KeroseneVault
