import KeroseneVault.Ledger.Persisted

/-!
# The anti-nonce store

`PersistedAntiNonce`: the session ids this node has burned, an append-only
log of them, and the soft prepares with their expiry. A durable prepare
writes and syncs its line before the id counts as burned; soft prepares live
in memory only and never stand in the way of a durable one.
`QuorumAntiNonce.claimSession` burns locally, then asks the peers.

Main results:

* `prepare_cases` — all a durable prepare can do;
* `mem_openStore_inner` — an id that survives the log is burned again after
  every restart.
-/

namespace KeroseneVault

open LineLog

/-- `PREPARE_TTL`, in seconds. -/
def prepareTtl : Nat := 120

/-- The lines a restart keeps: every line that is not blank. -/
def keepSessionLine (line : List Char) : Bool := !line.isEmpty

structure PersistedAntiNonce where
  inner : Finset String
  soft : Table String Nat
  log : Log

namespace PersistedAntiNonce

/-- The ids a restart reads back, `load_ids_into`. -/
def loadIds (log : Log) : Finset String :=
  ((log.load keepSessionLine).map String.ofList).toFinset

theorem mem_loadIds {log : Log} {sessionId : String} :
    sessionId ∈ loadIds log ↔ sessionId.toList ∈ log.load keepSessionLine :=
  mem_toFinset_ofList

/-- `PersistedAntiNonce::open`. -/
def openStore (log : Log) : PersistedAntiNonce := ⟨loadIds log, ∅, log⟩

def appendId (disk : Disk) (sessionId : String) (log : Log) : Outcome × Log :=
  match disk with
  | .openFails e => (.error (.thresholdError s!"anti-nonce append: {e}"), log)
  | .writeFails e => (.error (.thresholdError s!"anti-nonce write: {e}"), log)
  | .syncFails e =>
    (.error (.thresholdError s!"anti-nonce sync: {e}"), log.append sessionId.toList)
  | .ok => (.ok (), log.append sessionId.toList)

def sweepSoft (now : Nat) (soft : Table String Nat) : Table String Nat :=
  soft.eraseAll (soft.keysWhere fun exp => decide (exp ≤ now))

/-- Durable check-and-insert; `true` if the id was already present. -/
def prepare (disk : Disk) (sessionId : String) (l : PersistedAntiNonce) :
    Except DomainError Bool × PersistedAntiNonce :=
  if sessionId ∈ l.inner then (.ok true, l)
  else
    match appendId disk sessionId l.log with
    | (.error e, log) => (.error e, { l with log := log })
    | (.ok (), log) => (.ok false, ⟨insert sessionId l.inner, l.soft.erase sessionId, log⟩)

/-- Soft TTL reservation; `true` if blocked. -/
def prepareSoft (now : Nat) (sessionId : String) (l : PersistedAntiNonce) :
    Except DomainError Bool × PersistedAntiNonce :=
  if sessionId ∈ l.inner then (.ok true, l)
  else
    let soft := sweepSoft now l.soft
    if (soft.lookup sessionId).isSome then (.ok true, { l with soft := soft })
    else (.ok false, { l with soft := soft.insert sessionId (now + prepareTtl) })

def isConsumed (now : Nat) (sessionId : String) (l : PersistedAntiNonce) :
    Bool × PersistedAntiNonce :=
  if sessionId ∈ l.inner then (true, l)
  else
    let soft := sweepSoft now l.soft
    ((soft.lookup sessionId).isSome, { l with soft := soft })

/-- The claim of a node on its own. -/
def claimSession (disk : Disk) (sessionId : String) (l : PersistedAntiNonce) :
    Outcome × PersistedAntiNonce :=
  match l.prepare disk sessionId with
  | (.error e, l) => (.error e, l)
  | (.ok true, l) => (.error (.nonceReuse s!"session_id already used: {sessionId}"), l)
  | (.ok false, l) => (.ok (), l)

/-! ## What the operations do -/

theorem appendId_cases (disk : Disk) (sessionId : String) (log : Log) :
    appendId disk sessionId log = (.ok (), log.append sessionId.toList) ∨
    ∃ e log', (log' = log ∨ log' = log.append sessionId.toList) ∧
      appendId disk sessionId log = (.error e, log') := by
  cases disk with
  | ok => exact Or.inl rfl
  | openFails e => exact Or.inr ⟨_, _, Or.inl rfl, rfl⟩
  | writeFails e => exact Or.inr ⟨_, _, Or.inl rfl, rfl⟩
  | syncFails e => exact Or.inr ⟨_, _, Or.inr rfl, rfl⟩

/-- All a durable prepare can do: the id is there already, the append failed
and memory is untouched, or the id was written and burned. -/
theorem prepare_cases (disk : Disk) (sessionId : String) (l : PersistedAntiNonce) :
    (sessionId ∈ l.inner ∧ l.prepare disk sessionId = (.ok true, l)) ∨
    (sessionId ∉ l.inner ∧ ∃ e log, (log = l.log ∨ log = l.log.append sessionId.toList) ∧
      l.prepare disk sessionId = (.error e, { l with log := log })) ∨
    (sessionId ∉ l.inner ∧ l.prepare disk sessionId =
      (.ok false, ⟨insert sessionId l.inner, l.soft.erase sessionId,
        l.log.append sessionId.toList⟩)) := by
  by_cases hSeen : sessionId ∈ l.inner
  · exact Or.inl ⟨hSeen, by simp [prepare, hSeen]⟩
  · refine Or.inr ?_
    rcases appendId_cases disk sessionId l.log with h | ⟨e, log, hLog, h⟩
    · exact Or.inr ⟨hSeen, by simp [prepare, hSeen, h]⟩
    · exact Or.inl ⟨hSeen, e, log, hLog, by simp [prepare, hSeen, h]⟩

/-- What was burned stays burned, what was recorded stays recorded. -/
structure Grows (l l' : PersistedAntiNonce) : Prop where
  inner : l.inner ⊆ l'.inner
  recorded : ∀ x, l.log.Recorded x → l'.log.Recorded x

theorem Grows.refl (l : PersistedAntiNonce) : l.Grows l := ⟨subset_rfl, fun _ => id⟩

theorem prepare_grows (disk : Disk) (sessionId : String) (l : PersistedAntiNonce) :
    l.Grows (l.prepare disk sessionId).2 := by
  rcases prepare_cases disk sessionId l with ⟨-, h⟩ | ⟨-, e, log, hLog, h⟩ | ⟨-, h⟩
  · rw [h]
    exact Grows.refl l
  · rw [h]
    refine ⟨subset_rfl, fun x hx => ?_⟩
    rcases hLog with rfl | rfl
    · exact hx
    · exact Recorded.append hx _
  · rw [h]
    exact ⟨Finset.subset_insert .., fun x hx => Recorded.append hx _⟩

/-- A prepare that answers `false` left the id burned and recorded, and this
node had not burned it before. -/
theorem prepare_granted {disk : Disk} {sessionId : String} {l l' : PersistedAntiNonce}
    (h : l.prepare disk sessionId = (.ok false, l')) :
    sessionId ∉ l.inner ∧ sessionId ∈ l'.inner ∧ l'.log.Recorded sessionId.toList := by
  rcases prepare_cases disk sessionId l with ⟨-, h'⟩ | ⟨-, e, log, -, h'⟩ | ⟨hFree, h'⟩
  · rw [h'] at h
    cases h
  · rw [h'] at h
    cases h
  · rw [h'] at h
    cases h
    exact ⟨hFree, Finset.mem_insert_self .., recorded_append ..⟩

theorem claimSession_grows (disk : Disk) (sessionId : String) (l : PersistedAntiNonce) :
    l.Grows (l.claimSession disk sessionId).2 := by
  have h := prepare_grows disk sessionId l
  unfold claimSession
  split <;> rename_i hPrepare <;> rwa [hPrepare] at h

/-- A local claim that returns Ok is a prepare that granted. -/
theorem claimSession_ok {disk : Disk} {sessionId : String} {l l' : PersistedAntiNonce}
    (h : l.claimSession disk sessionId = (.ok (), l')) :
    l.prepare disk sessionId = (.ok false, l') := by
  unfold claimSession at h
  split at h
  · cases h
  · cases h
  · rename_i hPrepare
    cases h
    exact hPrepare

theorem prepareSoft_grows (now : Nat) (sessionId : String) (l : PersistedAntiNonce) :
    l.Grows (l.prepareSoft now sessionId).2 := by
  unfold prepareSoft
  split
  · exact Grows.refl l
  · dsimp only
    split <;> exact ⟨subset_rfl, fun _ => id⟩

theorem isConsumed_grows (now : Nat) (sessionId : String) (l : PersistedAntiNonce) :
    l.Grows (l.isConsumed now sessionId).2 := by
  unfold isConsumed
  split
  · exact Grows.refl l
  · exact ⟨subset_rfl, fun _ => id⟩

/-! ## Restarts -/

/-- `SurvivesLog id` — the id comes back from the log unchanged: one line, no
blank at either end, not empty. -/
def SurvivesLog (sessionId : String) : Prop := Survives keepSessionLine sessionId.toList

instance (sessionId : String) : Decidable (SurvivesLog sessionId) :=
  inferInstanceAs (Decidable (Survives keepSessionLine sessionId.toList))

/-- An id that survives the log is burned again after every restart. -/
theorem mem_openStore_inner {log : Log} {sessionId : String} (hId : SurvivesLog sessionId)
    (h : log.Recorded sessionId.toList) : sessionId ∈ (openStore log).inner := by
  exact mem_loadIds.mpr (Recorded.mem_load h hId)

end PersistedAntiNonce

/-! ## The quorum claim -/

/-- `PrepareAck`. -/
structure PrepareAck where
  alreadySeen : Bool
  deriving DecidableEq

namespace QuorumAntiNonce

/-- A peer that has seen the id refuses the claim; otherwise self and the
acknowledging peers must reach `t`. -/
def checkAcks (t : Nat) (sessionId : String) (acks : List PrepareAck) : Outcome :=
  if acks.any PrepareAck.alreadySeen then
    .error (.nonceReuse s!"session_id seen on ≥1 peer: {sessionId}")
  else if 1 + acks.length < t then .error (.quorumNotMet (1 + acks.length) t)
  else .ok ()

/-- A round passes when no peer refuses and the quorum is reached. -/
theorem checkAcks_ok {t : Nat} {sessionId : String} {acks : List PrepareAck} :
    checkAcks t sessionId acks = .ok () ↔
      true ∉ acks.map PrepareAck.alreadySeen ∧ t ≤ acks.length + 1 :=
  acks_ok_iff

/-- `QuorumAntiNonce::claim_session`: local durable burn, then the round over
the peers. -/
def claimSession (t : Nat) (disk : Disk) (acks : Except DomainError (List PrepareAck))
    (sessionId : String) (l : PersistedAntiNonce) : Outcome × PersistedAntiNonce :=
  match l.claimSession disk sessionId with
  | (.error e, l) => (.error e, l)
  | (.ok (), l) =>
    match acks with
    | .error e => (.error e, l)
    | .ok acks => (checkAcks t sessionId acks, l)

end QuorumAntiNonce

end KeroseneVault
