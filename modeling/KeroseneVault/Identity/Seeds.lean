import KeroseneVault.Dkg.SealedShares
import KeroseneVault.Domain.Intake

/-!
# The seeds of a hybrid identity

`identity_hybrid.rs` keeps the keys of a vault node as shares of the share store, one for
each component, and builds the identity of them again at boot.

* `persistSeeds` — the six shares put, in their order;
* `loadSeeds` — the identity that the shares come to, at a clock reading;
* `LongSecrets` — the lattice secrets have the lengths that loading asks for;
* `restored` — what is left of an identity.

Main results:

* `getShare_of_persisted` — each share is read back;
* `loadSeeds_of_long`, `loadSeeds_of_short` — what is loaded after seeds were persisted, for
  any epoch.
-/

namespace KeroseneVault

/-- `HybridIdentity`. -/
structure HybridIdentity where
  nodeId : NodeId
  ed25519Public : ByteBlock 32
  ed25519Secret : ByteBlock 32
  mlDsa65Public : List UInt8
  mlDsa65Secret : List UInt8
  x25519Public : ByteBlock 32
  x25519Secret : ByteBlock 32
  mlKem768Public : List UInt8
  mlKem768Secret : List UInt8
  createdAt : U64
  expiresAt : U64

-- ---------------------------------------------------------------------------
-- Putting and loading
-- ---------------------------------------------------------------------------

/-- `seed_share_id`. -/
def seedShareId (nodeId label : String) : String := s!"identity/{label}/{nodeId}"

/-- The first bytes of a share in an array, `v[..32].try_into()`. -/
def firstBytes (n : ℕ) (bytes : List UInt8) (e : DomainError) : Intake DomainError (ByteBlock n) :=
  (slice bytes 0 n).andThen fun part => if h : part.length = n then .ok ⟨part, h⟩ else .error e

section Store

variable (store : DiskShareStore)

/-- Shares put one after the other, the `n`-th put first; the first error ends it. -/
def putSeeds (envs : ℕ → PutEnv) (nodeId : String) :
    ℕ → List (String × List UInt8) → SealedDisk → Outcome × SealedDisk
  | _, [], s => (.ok (), s)
  | n, (label, data) :: rest, s =>
    match s.putShare store (envs n) (seedShareId nodeId label) data with
    | (.error e, s) => (.error e, s)
    | (.ok (), s) => putSeeds envs nodeId (n + 1) rest s

/-- The labels and the bytes that `persist_seeds` puts: the secrets, then two of the public
keys. -/
def HybridIdentity.seeds (id : HybridIdentity) : List (String × List UInt8) :=
  [("ed25519", id.ed25519Secret.1), ("ml-dsa65", id.mlDsa65Secret), ("x25519", id.x25519Secret.1),
    ("ml-kem768", id.mlKem768Secret), ("ed25519-pub", id.ed25519Public.1),
    ("x25519-pub", id.x25519Public.1)]

/-- `persist_seeds`. Its epoch goes into nothing. -/
def persistSeeds (envs : ℕ → PutEnv) (id : HybridIdentity) (_keyEpoch : U64) (s : SealedDisk) :
    Outcome × SealedDisk :=
  putSeeds store envs id.nodeId.text 0 id.seeds s

/-- The least length of a share. -/
def seedMinLen (label : String) : ℕ :=
  if label = "ed25519" ∨ label = "x25519" then 32
  else if label = "ml-dsa65" then 4032
  else if label = "ml-kem768" then 2400
  else 1

def seedTooShort (label : String) (length minLen : ℕ) : DomainError :=
  .shareStoreForbidden s!"loaded seed {label} is too short: {length} < {minLen}"

/-- `load_seed`, with what the attestation of the read answers. -/
def loadSeed (attested : Outcome) (nodeId label : String) (_keyEpoch : U64) (s : SealedDisk) :
    Except DomainError (Option (List UInt8)) :=
  match s.getShare store attested (seedShareId nodeId label) with
  | .ok data =>
    if data.length < seedMinLen label then
      .error (seedTooShort label data.length (seedMinLen label))
    else .ok (some data)
  | .error e =>
    let msg := e.display
    if strContains msg "TeeRequired" || strContains msg "TpmRequired" then .error e else .ok none

/-- A share that is there, or the return of what is not. -/
def withSeed {α : Type} (seed : Except DomainError (Option (List UInt8)))
    (f : List UInt8 → Intake DomainError (Option α)) : Intake DomainError (Option α) :=
  match seed with
  | .ok (some v) => f v
  | .ok none => .ok none
  | .error e => .error e

/-- `load_seeds` at a clock reading. -/
def loadSeeds (attested : ℕ → Outcome) (now : U64) (nodeId : NodeId) (keyEpoch : U64)
    (s : SealedDisk) : Intake DomainError (Option HybridIdentity) :=
  let nid := nodeId.text
  withSeed (loadSeed store (attested 0) nid "ed25519" keyEpoch s) fun ed25519Secret =>
  withSeed (loadSeed store (attested 1) nid "ml-dsa65" keyEpoch s) fun mlDsa65Secret =>
  withSeed (loadSeed store (attested 2) nid "x25519" keyEpoch s) fun x25519Secret =>
  withSeed (loadSeed store (attested 3) nid "ml-kem768" keyEpoch s) fun mlKem768Secret =>
  withSeed (loadSeed store (attested 4) nid "ed25519-pub" keyEpoch s) fun edPub =>
  (firstBytes 32 edPub (.shareStoreForbidden "ed25519 pub wrong length")).andThen
    fun ed25519Public =>
  withSeed (loadSeed store (attested 5) nid "x25519-pub" keyEpoch s) fun xPub =>
  (firstBytes 32 xPub (.shareStoreForbidden "x25519 pub wrong length")).andThen fun x25519Public =>
  (firstBytes 32 ed25519Secret (.shareStoreForbidden "ed25519 seed wrong length")).andThen
    fun ed25519SecretArr =>
  (firstBytes 32 x25519Secret (.shareStoreForbidden "x25519 seed wrong length")).andThen
    fun x25519SecretArr =>
  .ok (some
    { nodeId
      ed25519Public
      ed25519Secret := ed25519SecretArr
      mlDsa65Public := []
      mlDsa65Secret
      x25519Public
      x25519Secret := x25519SecretArr
      mlKem768Public := []
      mlKem768Secret
      createdAt := now
      expiresAt := toU64 0 })

end Store

-- ---------------------------------------------------------------------------
-- What is read back
-- ---------------------------------------------------------------------------

theorem seedShareId_injective (nodeId : String) : Function.Injective (seedShareId nodeId) := by
  intro a b h
  refine affix_injective "identity/" ("/" ++ nodeId) ?_
  unfold seedShareId at h
  simpa only [toString_text, String.append_assoc] using h

section Persisted

variable {store : DiskShareStore} (hLawful : store.Lawful)
include hLawful

/-- A put under one id leaves what is read under another. -/
theorem getShare_put_of_ne {env : PutEnv} {shareId other : String} {plaintext : List UInt8}
    {s : SealedDisk} {attested : Outcome} (h : other ≠ shareId) :
    (s.putShare store env shareId plaintext).2.getShare store attested other =
      s.getShare store attested other := by
  have hPath : store.pathFor other ≠ store.pathFor shareId := fun hEq =>
    h (hLawful.path_injective hEq)
  unfold SealedDisk.getShare
  rcases (SealedDisk.putShare_cases store env shareId plaintext s).2 with hSame | ⟨blob, -, hNew⟩
  · rw [hSame]
  · rw [hNew, Function.update_of_ne hPath]

/-- Puts under other labels leave what is read under one. -/
theorem getShare_putSeeds_of_notMem {envs : ℕ → PutEnv} {nodeId label : String} {attested : Outcome}
    {seeds : List (String × List UInt8)} {n : ℕ} {s : SealedDisk}
    (h : label ∉ seeds.map Prod.fst) :
    (putSeeds store envs nodeId n seeds s).2.getShare store attested (seedShareId nodeId label) =
      s.getShare store attested (seedShareId nodeId label) := by
  induction seeds generalizing n s with
  | nil => rfl
  | cons seed rest ih =>
    obtain ⟨label', data⟩ := seed
    rw [List.map_cons, List.mem_cons, not_or] at h
    have hOther : seedShareId nodeId label ≠ seedShareId nodeId label' := fun hEq =>
      h.1 (seedShareId_injective nodeId hEq)
    have hPut : (s.putShare store (envs n) (seedShareId nodeId label') data).2.getShare store
        attested (seedShareId nodeId label) =
          s.getShare store attested (seedShareId nodeId label) :=
      getShare_put_of_ne hLawful hOther
    unfold putSeeds
    -- a put that fails ends the list, and may have written all the same
    split
    · rename_i hAnswer
      rw [hAnswer] at hPut
      exact hPut
    · rename_i hAnswer
      rw [hAnswer] at hPut
      rw [ih h.2]
      exact hPut

/-- Where all puts are Ok and no label comes twice, each share is read back. -/
theorem getShare_putSeeds {envs : ℕ → PutEnv} {nodeId : String} {attested : Outcome}
    {seeds : List (String × List UInt8)} {n : ℕ} {s : SealedDisk}
    (hNodup : (seeds.map Prod.fst).Nodup) (hOk : (putSeeds store envs nodeId n seeds s).1 = .ok ())
    (hGet : store.mayGet attested = .ok ()) {label : String} {data : List UInt8}
    (hMem : (label, data) ∈ seeds) :
    (putSeeds store envs nodeId n seeds s).2.getShare store attested (seedShareId nodeId label) =
      .ok data := by
  induction seeds generalizing n s with
  | nil => cases hMem
  | cons seed rest ih =>
    obtain ⟨label', data'⟩ := seed
    rw [List.map_cons, List.nodup_cons] at hNodup
    unfold putSeeds at hOk ⊢
    split at hOk
    · cases hOk
    · rename_i s' hAnswer
      rcases List.mem_cons.mp hMem with hFirst | hRest
      · -- the later puts go under other labels
        obtain ⟨rfl, rfl⟩ := Prod.mk.inj hFirst
        rw [getShare_putSeeds_of_notMem hLawful hNodup.1]
        have hAnswerOk :
            (s.putShare store (envs n) (seedShareId nodeId label) data).1 = .ok () := by
          rw [hAnswer]
        have hRead := SealedDisk.get_put hLawful hAnswerOk hGet
        rwa [hAnswer] at hRead
      · exact ih hNodup.2 hOk hRest

end Persisted

-- ---------------------------------------------------------------------------
-- What is loaded
-- ---------------------------------------------------------------------------

namespace HybridIdentity

/-- The lattice secrets have the lengths that loading asks for. -/
def LongSecrets (id : HybridIdentity) : Prop :=
  4032 ≤ id.mlDsa65Secret.length ∧ 2400 ≤ id.mlKem768Secret.length

/-- What is left of an identity: without the lattice public keys, and stamped anew. -/
def restored (id : HybridIdentity) (now : U64) : HybridIdentity :=
  { id with mlDsa65Public := [], mlKem768Public := [], createdAt := now, expiresAt := toU64 0 }

def SameSecrets (a b : HybridIdentity) : Prop :=
  a.ed25519Secret = b.ed25519Secret ∧ a.mlDsa65Secret = b.mlDsa65Secret ∧
    a.x25519Secret = b.x25519Secret ∧ a.mlKem768Secret = b.mlKem768Secret

def SamePublics (a b : HybridIdentity) : Prop :=
  a.ed25519Public = b.ed25519Public ∧ a.mlDsa65Public = b.mlDsa65Public ∧
    a.x25519Public = b.x25519Public ∧ a.mlKem768Public = b.mlKem768Public

end HybridIdentity

theorem firstBytes_block {n : ℕ} (block : ByteBlock n) (e : DomainError) :
    firstBytes n block.1 e = .ok block := by
  have hSlice : (slice block.1 0 n : Intake DomainError (List UInt8)) = .ok block.1 := by
    rw [slice_eq block.2.ge (Nat.zero_add n), List.drop_zero, List.take_of_length_le block.2.le]
  unfold firstBytes
  rw [hSlice, Intake.ok_andThen, dif_pos block.2]

section Loading

variable {store : DiskShareStore} {envs : ℕ → PutEnv} {attested : ℕ → Outcome} {now : U64}
  {id : HybridIdentity} {keyEpoch : U64} {s : SealedDisk}
  (hLawful : store.Lawful) (hOk : (persistSeeds store envs id keyEpoch s).1 = .ok ())
  (hReads : ∀ n, store.mayGet (attested n) = .ok ())
include hLawful hOk hReads

/-- A share that was persisted is loaded, whatever the epoch, if it is long enough. -/
theorem loadSeed_persisted {label : String} {data : List UInt8} (hMem : (label, data) ∈ id.seeds)
    (n : ℕ) (epoch : U64) :
    loadSeed store (attested n) id.nodeId.text label epoch
        (persistSeeds store envs id keyEpoch s).2 =
      if data.length < seedMinLen label then
        .error (seedTooShort label data.length (seedMinLen label))
      else .ok (some data) := by
  have hNodup : (id.seeds.map Prod.fst).Nodup := by
    show ["ed25519", "ml-dsa65", "x25519", "ml-kem768", "ed25519-pub", "x25519-pub"].Nodup
    decide
  have hRead := getShare_putSeeds hLawful hNodup hOk (hReads n) hMem
  unfold loadSeed
  rw [show (persistSeeds store envs id keyEpoch s).2.getShare store (attested n)
    (seedShareId id.nodeId.text label) = .ok data from hRead]

/-- A block of 32 bytes is always long enough. -/
theorem loadSeed_block {label : String} {block : ByteBlock 32} (hMem : (label, block.1) ∈ id.seeds)
    (hLabel : seedMinLen label ≤ 32) (n : ℕ) (epoch : U64) :
    loadSeed store (attested n) id.nodeId.text label epoch
      (persistSeeds store envs id keyEpoch s).2 = .ok (some block.1) := by
  rw [loadSeed_persisted hLawful hOk hReads hMem, block.2, if_neg (Nat.not_lt.mpr hLabel)]

/-- The shares of the four secrets and the two public keys, in the order of `load_seeds`. -/
theorem loadSeed_all (epoch : U64) :
    let load (n : ℕ) (label : String) := loadSeed store (attested n) id.nodeId.text label epoch
      (persistSeeds store envs id keyEpoch s).2
    load 0 "ed25519" = .ok (some id.ed25519Secret.1) ∧
    load 2 "x25519" = .ok (some id.x25519Secret.1) ∧
    load 4 "ed25519-pub" = .ok (some id.ed25519Public.1) ∧
    load 5 "x25519-pub" = .ok (some id.x25519Public.1) ∧
    (load 1 "ml-dsa65" = if id.mlDsa65Secret.length < 4032 then
      .error (seedTooShort "ml-dsa65" id.mlDsa65Secret.length 4032)
      else .ok (some id.mlDsa65Secret)) ∧
    (load 3 "ml-kem768" = if id.mlKem768Secret.length < 2400 then
      .error (seedTooShort "ml-kem768" id.mlKem768Secret.length 2400)
      else .ok (some id.mlKem768Secret)) := by
  intro load
  -- blocks of 32 bytes are always loaded; the two lattice secrets have a minimum of their own
  refine ⟨?_, ?_, ?_, ?_, ?_, ?_⟩
  · exact loadSeed_block hLawful hOk hReads (.head _) (by decide) 0 epoch
  · exact loadSeed_block hLawful hOk hReads (.tail _ (.tail _ (.head _))) (by decide) 2 epoch
  · exact loadSeed_block hLawful hOk hReads
      (.tail _ (.tail _ (.tail _ (.tail _ (.head _))))) (by decide) 4 epoch
  · exact loadSeed_block hLawful hOk hReads
      (.tail _ (.tail _ (.tail _ (.tail _ (.tail _ (.head _)))))) (by decide) 5 epoch
  · exact loadSeed_persisted hLawful hOk hReads (.tail _ (.head _)) 1 epoch
  · exact loadSeed_persisted hLawful hOk hReads (.tail _ (.tail _ (.tail _ (.head _)))) 3 epoch

/-- For any epoch the same identity is loaded, without the lattice public keys. -/
theorem loadSeeds_of_long (hLong : id.LongSecrets) (epoch : U64) :
    loadSeeds store attested now id.nodeId epoch (persistSeeds store envs id keyEpoch s).2 =
      .ok (some (id.restored now)) := by
  obtain ⟨hEd, hX, hEdPub, hXPub, hMlDsa, hMlKem⟩ := loadSeed_all hLawful hOk hReads epoch
  dsimp only at hEd hX hEdPub hXPub hMlDsa hMlKem
  rw [if_neg (Nat.not_lt.mpr hLong.1)] at hMlDsa
  rw [if_neg (Nat.not_lt.mpr hLong.2)] at hMlKem
  unfold loadSeeds withSeed
  dsimp only
  simp only [hEd, hX, hEdPub, hXPub, hMlDsa, hMlKem, firstBytes_block, Intake.ok_andThen]
  rfl

/-- Secrets that are too short are refused. -/
theorem loadSeeds_of_short (hShort : ¬ id.LongSecrets) (epoch : U64) :
    ∃ e, loadSeeds store attested now id.nodeId epoch (persistSeeds store envs id keyEpoch s).2 =
      .error e := by
  obtain ⟨hEd, hX, -, -, hMlDsa, hMlKem⟩ := loadSeed_all hLawful hOk hReads epoch
  dsimp only at hEd hX hMlDsa hMlKem
  unfold loadSeeds withSeed
  dsimp only
  -- the signing key is loaded first, and its error ends the load
  by_cases hFirst : id.mlDsa65Secret.length < 4032
  · rw [if_pos hFirst] at hMlDsa
    simp only [hEd, hMlDsa]
    exact ⟨_, rfl⟩
  · have hSecond : id.mlKem768Secret.length < 2400 := by
      unfold HybridIdentity.LongSecrets at hShort
      omega
    rw [if_neg hFirst] at hMlDsa
    rw [if_pos hSecond] at hMlKem
    simp only [hEd, hX, hMlDsa, hMlKem]
    exact ⟨_, rfl⟩

end Loading

-- ---------------------------------------------------------------------------
-- What loading should give
-- ---------------------------------------------------------------------------

section Kept

variable (store : DiskShareStore) (attested : ℕ → Outcome) (now : U64) (id : HybridIdentity)
  (keyEpoch : U64) (s : SealedDisk)

/-- Loading gives an identity of the same keys. -/
def SeedsRoundTrip : Prop :=
  ∃ loaded, loadSeeds store attested now id.nodeId keyEpoch s = .ok (some loaded) ∧
    loaded.SamePublics id ∧ loaded.SameSecrets id

/-- Loading for another epoch does not give the secrets. -/
def EpochsApart : Prop :=
  ∀ other, other ≠ keyEpoch → ∀ loaded,
    loadSeeds store attested now id.nodeId other s = .ok (some loaded) → ¬ loaded.SameSecrets id

end Kept

/-- There is always another epoch. -/
theorem exists_ne_epoch (keyEpoch : U64) : ∃ other, other ≠ keyEpoch := by
  by_cases hZero : keyEpoch = toU64 0
  · exact ⟨toU64 1, fun hEq => absurd (hEq.trans hZero) (by decide)⟩
  · exact ⟨toU64 0, fun hEq => hZero hEq.symm⟩

section Verdict

variable {store : DiskShareStore} {envs : ℕ → PutEnv} {attested : ℕ → Outcome} (now : U64)
  {id : HybridIdentity} {keyEpoch : U64} {s : SealedDisk}
  (hLawful : store.Lawful) (hOk : (persistSeeds store envs id keyEpoch s).1 = .ok ())
  (hReads : ∀ n, store.mayGet (attested n) = .ok ())
include hLawful hOk hReads

/-- The keys come back exactly if there were no lattice public keys to lose. -/
theorem seedsRoundTrip_iff :
    SeedsRoundTrip store attested now id keyEpoch (persistSeeds store envs id keyEpoch s).2 ↔
      id.mlDsa65Public = [] ∧ id.mlKem768Public = [] ∧ id.LongSecrets := by
  unfold SeedsRoundTrip
  by_cases hLong : id.LongSecrets
  · rw [loadSeeds_of_long hLawful hOk hReads hLong]
    -- what is loaded has empty lattice public keys
    constructor
    · rintro ⟨loaded, hLoaded, hPublics, -⟩
      cases hLoaded
      exact ⟨hPublics.2.1.symm, hPublics.2.2.2.symm, hLong⟩
    · rintro ⟨hMlDsa, hMlKem, -⟩
      exact ⟨id.restored now, rfl, ⟨rfl, hMlDsa.symm, rfl, hMlKem.symm⟩, rfl, rfl, rfl, rfl⟩
  · obtain ⟨e, hRefused⟩ := loadSeeds_of_short hLawful hOk hReads hLong keyEpoch
    rw [hRefused]
    constructor
    · rintro ⟨loaded, hLoaded, -⟩
      cases hLoaded
    · intro hAll
      exact absurd hAll.2.2 hLong

/-- The epoch keeps nothing apart: another epoch gives the secrets, unless they are too short
to be loaded at all. -/
theorem epochsApart_iff :
    EpochsApart store attested now id keyEpoch (persistSeeds store envs id keyEpoch s).2 ↔
      ¬ id.LongSecrets := by
  unfold EpochsApart
  constructor
  · intro hApart hLong
    obtain ⟨other, hOther⟩ := exists_ne_epoch keyEpoch
    exact hApart other hOther (id.restored now)
      (loadSeeds_of_long hLawful hOk hReads hLong other) ⟨rfl, rfl, rfl, rfl⟩
  · intro hShort other _ loaded hLoaded
    obtain ⟨e, hRefused⟩ := loadSeeds_of_short hLawful hOk hReads hShort other
    rw [hRefused] at hLoaded
    cases hLoaded

end Verdict

/-- **Seeds are never kept as they should be.** Of whatever identity is persisted in either
store, the lattice public keys are lost, and every epoch is given what was persisted for
one; only secrets that are too short to be loaded are given to none. -/
theorem hybrid_seeds_never_kept {C : SealCrypto} {kind : ShareStoreKind} {envs : ℕ → PutEnv}
    {attested : ℕ → Outcome} {now : U64} {id : HybridIdentity} {keyEpoch : U64} {s : SealedDisk}
    (hOk : (persistSeeds (kind.store C) envs id keyEpoch s).1 = .ok ())
    (hReads : ∀ n, (kind.store C).mayGet (attested n) = .ok ()) :
    let s' := (persistSeeds (kind.store C) envs id keyEpoch s).2
    (SeedsRoundTrip (kind.store C) attested now id keyEpoch s' ↔
      id.mlDsa65Public = [] ∧ id.mlKem768Public = [] ∧ id.LongSecrets) ∧
    (EpochsApart (kind.store C) attested now id keyEpoch s' ↔ ¬ id.LongSecrets) ∧
    ¬ (SeedsRoundTrip (kind.store C) attested now id keyEpoch s' ∧
      EpochsApart (kind.store C) attested now id keyEpoch s') := by
  intro s'
  have hRound := seedsRoundTrip_iff now (kind.lawful C) hOk hReads
  have hApart := epochsApart_iff now (kind.lawful C) hOk hReads
  refine ⟨hRound, hApart, ?_⟩
  rintro ⟨hKept, hSeparate⟩
  exact hApart.mp hSeparate (hRound.mp hKept).2.2

/-- An identity with keys of the lengths that are made at genesis. -/
def genesisIdentity : HybridIdentity where
  nodeId := ⟨"vault-1"⟩
  ed25519Public := ⟨List.replicate 32 1, List.length_replicate⟩
  ed25519Secret := ⟨List.replicate 32 2, List.length_replicate⟩
  mlDsa65Public := List.replicate 1952 3
  mlDsa65Secret := List.replicate 4032 4
  x25519Public := ⟨List.replicate 32 5, List.length_replicate⟩
  x25519Secret := ⟨List.replicate 32 6, List.length_replicate⟩
  mlKem768Public := List.replicate 1184 7
  mlKem768Secret := List.replicate 2400 8
  createdAt := toU64 1704067200
  expiresAt := toU64 0

/-- A store that hides nothing, on a disk that takes everything. -/
theorem putSeeds_calm (nodeId : String) (seeds : List (String × List UInt8)) (n : ℕ)
    (s : SealedDisk) :
    (putSeeds (ShareStoreKind.store SealedDisk.clearCrypto (.aeadDisk []))
      (fun _ => SealedDisk.calmPut) nodeId n seeds s).1 = .ok () := by
  induction seeds generalizing n s with
  | nil => rfl
  | cons seed rest ih => exact ih (n + 1) _

theorem seeds_of_genesis_identity :
    ¬ (SeedsRoundTrip (ShareStoreKind.store SealedDisk.clearCrypto (.aeadDisk [])) (fun _ => .ok ())
        (toU64 1704153600) genesisIdentity (toU64 0)
        (persistSeeds (ShareStoreKind.store SealedDisk.clearCrypto (.aeadDisk []))
          (fun _ => SealedDisk.calmPut) genesisIdentity (toU64 0) SealedDisk.empty).2 ∧
      EpochsApart (ShareStoreKind.store SealedDisk.clearCrypto (.aeadDisk [])) (fun _ => .ok ())
        (toU64 1704153600) genesisIdentity (toU64 0)
        (persistSeeds (ShareStoreKind.store SealedDisk.clearCrypto (.aeadDisk []))
          (fun _ => SealedDisk.calmPut) genesisIdentity (toU64 0) SealedDisk.empty).2) :=
  (hybrid_seeds_never_kept (putSeeds_calm _ _ _ _) fun _ => rfl).2.2

/-- What is loaded of that identity has no lattice public keys, and every epoch gets it. -/
theorem seeds_lose_public_keys :
    ¬ ∀ (C : SealCrypto) (kind : ShareStoreKind) (envs : ℕ → PutEnv) (attested : ℕ → Outcome)
        (now : U64) (id : HybridIdentity) (keyEpoch : U64) (s : SealedDisk),
      (persistSeeds (kind.store C) envs id keyEpoch s).1 = .ok () →
      (∀ n, (kind.store C).mayGet (attested n) = .ok ()) →
      SeedsRoundTrip (kind.store C) attested now id keyEpoch
          (persistSeeds (kind.store C) envs id keyEpoch s).2 ∧
        EpochsApart (kind.store C) attested now id keyEpoch
          (persistSeeds (kind.store C) envs id keyEpoch s).2 := by
  intro hClaim
  have hKept := hClaim SealedDisk.clearCrypto (.aeadDisk []) (fun _ => SealedDisk.calmPut)
    (fun _ => .ok ()) (toU64 1704153600) genesisIdentity (toU64 0) SealedDisk.empty
    (putSeeds_calm _ _ _ _) fun _ => rfl
  have hRound := (seedsRoundTrip_iff _ (ShareStoreKind.lawful SealedDisk.clearCrypto (.aeadDisk []))
    (putSeeds_calm _ _ _ _) fun _ => rfl).mp hKept.1
  exact absurd hRound.1 (List.cons_ne_nil _ _)

end KeroseneVault
