import KeroseneVault.Rotation.Reshare

/-!
# Reshares that fail half way

`run_reshare` replaces the INTENT keyset before it enters that in the ledger,
and both before it begins the Taproot keysets, so a failure in any of the later
stages leaves a node between two generations of its keys.

* `AllOrNothing` — a reshare that fails leaves slots, store and ledger alone;
* `Completes` — the stages after the INTENT keyset go through.

Main results:

* `refreshTaproot_succeeds_iff`, `accrue_succeeds_iff` — when a stage goes
  through;
* `allOrNothing_iff` — **when a reshare is all or nothing**;
* `allOrNothing_fails` — a node whose writer left the active set.
-/

namespace KeroseneVault

open Steps ReshareNode

section Abort

variable {F T : FrostRefresh} {measure : String → String} {hook : PolicyReshareHook}
  {w : ReshareWorld F T} {why : ReshareReason}

/-! ## What a failed reshare must leave alone -/

/-- The slots, the stored shares and the ledger. -/
def ReshareNode.custody (s : ReshareNode F T) :=
  (s.shares, s.trShares, s.trChannelsShares, s.store, s.ledger)

/-- A reshare that fails leaves the slots, the stored shares and the ledger. -/
def AllOrNothing (measure : String → String) (hook : PolicyReshareHook) (w : ReshareWorld F T)
    (why : ReshareReason) (participants : List NodeId) (s : ReshareNode F T) : Prop :=
  AtomicAt custody (runReshare measure hook w why participants) s

/-! ## When the stages go through -/

/-- The records are put, where there is a store. -/
def Stores (hook : PolicyReshareHook) (w : ReshareWorld F T) (records : List ShareRecord) : Prop :=
  hook.hasShareStore = true →
    ∀ record ∈ records, ∃ bytes, record.2 = .ok bytes ∧ w.disk record.1 bytes = .stored

/-- The USERS keyset is refreshed and stored. -/
def UsersGo (hook : PolicyReshareHook) (w : ReshareWorld F T)
    (snap : TrShareState T.toFrostDkg) : Prop :=
  ∃ new vk, refreshedTaproot T w.trRand snap = .ok (new, vk) ∧ Stores hook w (trRecords new)

/-- The CHANNELS keyset is refreshed and stored. -/
def ChannelsGo (hook : PolicyReshareHook) (w : ReshareWorld F T)
    (snap : TrShareState T.toFrostDkg) : Prop :=
  ∃ new vk, refreshedChannels T w.channelsRand snap = .ok (new, vk) ∧
    Stores hook w (trChannelsRecords new)

/-- The bounty is written and entered, where there is one. -/
def AccrualGoes (hook : PolicyReshareHook) (w : ReshareWorld F T) (job : GovernanceJobKind)
    (economy : EconomyPools) (activeSet : List NodeId) : Prop :=
  ∀ gov ∈ hook.governance, gov.config.isEnabled = true → w.economyWrite job = .ok () ∧
    (gov.config.bountySats economy.minerPoolSats = 0 ∨ gov.writer ∈ activeSet)

/-- The stages after the INTENT keyset go through. CHANNELS is refreshed only
where USERS is installed. -/
structure Completes (hook : PolicyReshareHook) (w : ReshareWorld F T) (s : ReshareNode F T) :
    Prop where
  users : ∀ snap ∈ s.trShares, UsersGo hook w snap
  channels : s.trShares.isSome → ∀ snap ∈ s.trChannelsShares, ChannelsGo hook w snap
  accrual : AccrualGoes hook w .reshareCompleted s.economy s.ledger.epoch.activeSet

/-! ## A ledger that has been written -/

/-- The ledger has grown since `base`, is still open to the hook's writer, and
nothing else that a later stage reads has changed. -/
structure Grown (hook : PolicyReshareHook) (base s : ReshareNode F T) : Prop where
  admits : s.ledger.Admits hook.writer
  epoch : s.ledger.epoch = base.ledger.epoch
  entries : base.ledger.entries.length < s.ledger.entries.length
  economy : s.economy = base.economy

theorem logEvent_cases (measure : String → String) (hook : PolicyReshareHook)
    (kind : LedgerEventKind) (payload : String) (s : ReshareNode F T) :
    (s.ledger.Admits hook.writer ∧ s.logEvent measure hook kind payload = (.ok (), { s with
      ledger := { s.ledger with
        entries := s.ledger.entries ++ [s.ledger.nextEntry measure kind payload hook.writer] } })) ∨
    (¬ s.ledger.Admits hook.writer ∧ ∃ e, s.logEvent measure hook kind payload = (.error e, s)) := by
  rcases s.ledger.appendLedgerEvent_cases measure hook.writer kind payload with
    ⟨hAdmits, hEq⟩ | ⟨hNot, e, hEq⟩
  · refine .inl ⟨hAdmits, ?_⟩
    rw [logEvent, hEq]
  · refine .inr ⟨hNot, e, ?_⟩
    rw [logEvent, hEq]

/-- Where the ledger is open an event is entered, and it stays open. -/
theorem logEvent_admits (measure : String → String) (kind : LedgerEventKind) (payload : String)
    {s : ReshareNode F T}
    (h : s.ledger.Admits hook.writer) :
    Succeeds (logEvent measure hook kind payload) s ∧
      Grown hook s (s.logEvent measure hook kind payload).2 := by
  rcases logEvent_cases measure hook kind payload s with ⟨-, hEq⟩ | ⟨hNot, -⟩
  · rw [Succeeds, hEq]
    refine ⟨rfl, GovernanceLedger.admits_entered h.1, rfl, ?_, rfl⟩
    rw [List.length_append]
    exact Nat.lt_succ_self _
  · exact absurd h hNot

theorem Grown.trans {base s s' : ReshareNode F T} (h : Grown hook base s)
    (h' : Grown hook s s') : Grown hook base s' :=
  ⟨h'.admits, h'.epoch.trans h.epoch, h.entries.trans h'.entries, h'.economy.trans h.economy⟩

theorem persist_succeeds_iff {records : List ShareRecord} {s : ReshareNode F T} :
    Succeeds (persist hook w records) s ↔ Stores hook w records := by
  unfold Succeeds persist Stores
  split
  · rename_i hStore
    dsimp only
    rw [putAll_ok_iff]
    simp [hStore]
  · rename_i hNone
    simp [hNone]

/-- Storing writes no ledger. -/
theorem persist_grown {base s : ReshareNode F T} {records : List ShareRecord}
    (h : Grown hook base s) : Grown hook base (persist hook w records s).2 := by
  unfold persist
  split
  · exact ⟨h.admits, h.epoch, h.entries, h.economy⟩
  · exact h

/-! ## The Taproot stages -/

variable (measure w why)

/-- A keyset is stored, replaced in its slot and entered: under an open ledger
only the store can refuse. -/
theorem store_replace_log (replace : ReshareNode F T → ReshareNode F T)
    (hReplace : ∀ s, (replace s).ledger = s.ledger ∧ (replace s).economy = s.economy)
    (records : List ShareRecord) (suite : String) (participants : Nat) (minSigners : UInt64)
    (vk : String) {base s : ReshareNode F T} (h : Grown hook base s) :
    (Succeeds (andThen (persist hook w records) fun s =>
        logReshare measure hook why suite participants minSigners vk (replace s)) s ↔
      Stores hook w records) ∧
    Grown hook base (andThen (persist hook w records) (fun s =>
      logReshare measure hook why suite participants minSigners vk (replace s)) s).2 := by
  have hPersisted : Grown hook base (persist hook w records s).2 := persist_grown h
  obtain ⟨hLedger, hEconomy⟩ := hReplace (persist hook w records s).2
  have hReplaced : Grown hook base (replace (persist hook w records s).2) :=
    ⟨hLedger ▸ hPersisted.admits, hLedger ▸ hPersisted.epoch, hLedger ▸ hPersisted.entries,
      hEconomy.trans hPersisted.economy⟩
  obtain ⟨hLogs, hGrown⟩ := logEvent_admits measure .reshareCompleted
    (resharePayload why.reason suite participants minSigners.toNat vk
      (replace (persist hook w records s).2).ledger.constitution.hash why.fromDay why.toDay)
    hReplaced.admits
  refine ⟨?_, ?_⟩
  · rw [succeeds_andThen, persist_succeeds_iff]
    exact and_iff_left hLogs
  · rcases andThen_cases (persist hook w records) (fun s => logReshare measure hook why suite
      participants minSigners vk (replace s)) s with ⟨-, hEq⟩ | ⟨-, hEq⟩
    · rw [hEq]
      exact hReplaced.trans hGrown
    · rw [hEq]
      exact hPersisted

theorem refreshUsersTaproot_spec {base s : ReshareNode F T} (h : Grown hook base s)
    (snap : TrShareState T.toFrostDkg) :
    (Succeeds (refreshUsersTaproot measure hook w why snap) s ↔ UsersGo hook w snap) ∧
    Grown hook base (refreshUsersTaproot measure hook w why snap s).2 := by
  unfold Succeeds refreshUsersTaproot UsersGo
  split
  · rename_i e hFailed
    exact ⟨⟨nofun, fun ⟨new, vk, hNew, _⟩ => by rw [hFailed] at hNew; cases hNew⟩, h⟩
  · rename_i new vk hNew
    obtain ⟨hIff, hGrown⟩ := store_replace_log measure w why
      (fun s => { s with trShares := some new }) (fun _ => ⟨rfl, rfl⟩) (trRecords new)
      "frost-secp256k1-tr" snap.keyPackages.entries.length new.minSigners vk h
    refine ⟨hIff.trans ⟨fun hStores => ⟨new, vk, hNew, hStores⟩, ?_⟩, hGrown⟩
    rintro ⟨new', vk', hNew', hStores⟩
    cases Except.ok.inj (hNew.symm.trans hNew')
    exact hStores

/-- The USERS keyset is refreshed without CHANNELS. -/
theorem refreshUsersTaproot_channels (hook : PolicyReshareHook) (snap : TrShareState T.toFrostDkg)
    (s : ReshareNode F T) :
    (refreshUsersTaproot measure hook w why snap s).2.trChannelsShares = s.trChannelsShares := by
  have hPersist : ∀ records, (persist hook w records s).2.trChannelsShares = s.trChannelsShares := by
    intro records
    unfold persist
    split <;> rfl
  unfold refreshUsersTaproot
  split
  · rfl
  · rename_i new vk _
    rcases andThen_cases (persist hook w (trRecords new)) (fun s => logReshare measure hook why
      "frost-secp256k1-tr" snap.keyPackages.entries.length new.minSigners vk
      { s with trShares := some new }) s with ⟨-, hEq⟩ | ⟨-, hEq⟩
    · rw [hEq]
      exact hPersist _
    · rw [hEq]
      exact hPersist _

theorem refreshChannelsTaproot_spec {base s : ReshareNode F T} (h : Grown hook base s) :
    (Succeeds (refreshChannelsTaproot measure hook w why) s ↔
      ∀ snap ∈ s.trChannelsShares, ChannelsGo hook w snap) ∧
    Grown hook base (refreshChannelsTaproot measure hook w why s).2 := by
  unfold Succeeds refreshChannelsTaproot
  split
  · rename_i hNone
    exact ⟨by simp [hNone], h⟩
  rename_i snap hSnap
  have hOnly : (∀ snap ∈ s.trChannelsShares, ChannelsGo hook w snap) ↔ ChannelsGo hook w snap := by
    simp [hSnap]
  -- with a keyset: the refresh, the store and the ledger, one after the other
  rw [hOnly, ChannelsGo]
  split
  · rename_i e hFailed
    exact ⟨⟨nofun, fun ⟨new, vk, hNew, _⟩ => by rw [hFailed] at hNew; cases hNew⟩, h⟩
  · rename_i new vk hNew
    obtain ⟨hIff, hGrown⟩ := store_replace_log measure w why
      (fun s => { s with trChannelsShares := some new }) (fun _ => ⟨rfl, rfl⟩)
      (trChannelsRecords new) "frost-secp256k1-tr-channels" snap.keyPackages.entries.length
      new.minSigners vk h
    refine ⟨hIff.trans ⟨fun hStores => ⟨new, vk, hNew, hStores⟩, ?_⟩, hGrown⟩
    rintro ⟨new', vk', hNew', hStores⟩
    cases Except.ok.inj (hNew.symm.trans hNew')
    exact hStores

/-- Under an open ledger the Taproot stages go through where both keysets do. -/
theorem refreshTaproot_spec {base s : ReshareNode F T} (h : Grown hook base s) :
    (Succeeds (refreshTaproot measure hook w why) s ↔
      (∀ snap ∈ s.trShares, UsersGo hook w snap) ∧
        (s.trShares.isSome → ∀ snap ∈ s.trChannelsShares, ChannelsGo hook w snap)) ∧
    Grown hook base (refreshTaproot measure hook w why s).2 := by
  unfold Succeeds refreshTaproot
  split
  · rename_i hNone
    exact ⟨by simp [hNone], h⟩
  rename_i snap hSnap
  -- the USERS keyset first, and the CHANNELS keyset on what it leaves
  obtain ⟨hUsers, hUsersGrown⟩ := refreshUsersTaproot_spec measure w why h snap
  obtain ⟨hChannels, hChannelsGrown⟩ := refreshChannelsTaproot_spec measure w why hUsersGrown
  rw [refreshUsersTaproot_channels] at hChannels
  refine ⟨?_, ?_⟩
  · have hBoth := succeeds_andThen (f := refreshUsersTaproot measure hook w why snap)
      (g := refreshChannelsTaproot measure hook w why) (s := s)
    rw [hUsers, hChannels] at hBoth
    rw [hSnap]
    simpa [Succeeds] using hBoth
  · rcases andThen_cases (refreshUsersTaproot measure hook w why snap)
      (refreshChannelsTaproot measure hook w why) s with ⟨-, hEq⟩ | ⟨-, hEq⟩
    · rw [hEq]
      exact hChannelsGrown
    · rw [hEq]
      exact hUsersGrown

/-! ## The accrual -/

theorem accrue_spec {base s : ReshareNode F T} (h : Grown hook base s) (job : GovernanceJobKind)
    (participants : List NodeId) (context : String) :
    (Succeeds (accrue measure hook w job participants context) s ↔
      AccrualGoes hook w job s.economy s.ledger.epoch.activeSet) ∧
    base.ledger.entries.length <
      (accrue measure hook w job participants context s).2.ledger.entries.length := by
  unfold Succeeds accrue AccrualGoes
  split
  · rename_i hNone
    exact ⟨by simp [hNone], h.entries⟩
  rename_i gov hGov
  have hAdmits : s.ledger.Admits gov.writer ↔ gov.writer ∈ s.ledger.epoch.activeSet :=
    and_iff_left h.admits.2
  have hOk := AccrueGovernanceWork.execute_ok_iff measure gov (w.economyWrite job) job
    participants context s.economy s.ledger
  refine ⟨?_, h.entries.trans_le (AccrueGovernanceWork.length_le_execute ..)⟩
  rw [hAdmits] at hOk
  rw [hGov]
  simp only [Option.mem_some_iff, forall_eq']
  rw [← hOk]
  cases (gov.execute measure (w.economyWrite job) job participants context s.economy s.ledger).1 with
  | error e => simp [Except.map]
  | ok accrual => simp [Except.map]

/-! ## The reshare -/

/-- What the INTENT stage leaves: nothing changed, the keyset replaced and
entered, or replaced only. -/
theorem refreshIntent_cases (s : ReshareNode F T) :
    ((∀ new vk, refreshedIntent F w.intentRand s.shares ≠ .ok (new, vk)) ∧
      ∃ e, refreshIntent measure hook w why s = (.error e, s)) ∨
    ∃ new vk, refreshedIntent F w.intentRand s.shares = .ok (new, vk) ∧
      ((s.ledger.Admits hook.writer ∧ Succeeds (refreshIntent measure hook w why) s ∧
          Grown hook s (refreshIntent measure hook w why s).2 ∧
          (refreshIntent measure hook w why s).2.trShares = s.trShares ∧
          (refreshIntent measure hook w why s).2.trChannelsShares = s.trChannelsShares) ∨
        (¬ s.ledger.Admits hook.writer ∧
          ∃ e, refreshIntent measure hook w why s = (.error e, { s with shares := some new }))) := by
  unfold Succeeds refreshIntent
  split
  · rename_i e hFailed
    exact .inl ⟨fun new vk hNew => (by rw [hFailed] at hNew; cases hNew), e, rfl⟩
  · rename_i new vk hNew
    refine .inr ⟨new, vk, hNew, ?_⟩
    -- the new shares are in place before the ledger is asked to enter them
    by_cases hAdmits : s.ledger.Admits hook.writer
    · obtain ⟨hLogs, hGrown⟩ := logEvent_admits measure .reshareCompleted
        (resharePayload why.reason "frost-secp256k1" (count s.shares) new.minSigners.toNat vk
          s.ledger.constitution.hash why.fromDay why.toDay)
        (s := { s with shares := some new }) hAdmits
      exact .inl ⟨hAdmits, hLogs, ⟨hGrown.admits, hGrown.epoch, hGrown.entries, hGrown.economy⟩,
        rfl, rfl⟩
    · rcases logEvent_cases measure hook .reshareCompleted
        (resharePayload why.reason "frost-secp256k1" (count s.shares) new.minSigners.toNat vk
          s.ledger.constitution.hash why.fromDay why.toDay) { s with shares := some new } with
        ⟨hBad, -⟩ | ⟨-, e, hEq⟩
      · exact absurd hBad hAdmits
      · exact .inr ⟨hAdmits, e, hEq⟩

/-- The hook refuses before it begins. -/
def Refuses (hook : PolicyReshareHook) (s : ReshareNode F T) : Prop :=
  hook.allowInProcessNshareReshare = false ∨ (count s.shares ≤ 1 ∧ count s.trShares ≤ 1)

/-- What follows the INTENT stage, under an open ledger. -/
theorem rest_spec {base s : ReshareNode F T} (h : Grown hook base s) (participants : List NodeId)
    (hUsers : s.trShares = base.trShares) (hChannels : s.trChannelsShares = base.trChannelsShares) :
    (Succeeds (andThen (refreshTaproot measure hook w why) fun s => s.accrue measure hook w
        .reshareCompleted (s.rewardParticipants participants) why.reason) s ↔
      Completes hook w base) ∧
    base.ledger.entries.length < (andThen (refreshTaproot measure hook w why) (fun s =>
      s.accrue measure hook w .reshareCompleted (s.rewardParticipants participants) why.reason)
      s).2.ledger.entries.length := by
  obtain ⟨hTaproot, hGrown⟩ := refreshTaproot_spec measure w why h
  rw [hUsers, hChannels] at hTaproot
  obtain ⟨hAccrue, hEntries⟩ := accrue_spec measure w hGrown .reshareCompleted
    (rewardParticipants participants (refreshTaproot measure hook w why s).2) why.reason
  rw [hGrown.economy, hGrown.epoch] at hAccrue
  refine ⟨?_, ?_⟩
  · rw [succeeds_andThen, hTaproot]
    exact ⟨fun hGo => ⟨hGo.1.1, hGo.1.2, hAccrue.mp hGo.2⟩,
      fun hGo => ⟨⟨hGo.users, hGo.channels⟩, hAccrue.mpr hGo.accrual⟩⟩
  · rcases andThen_cases (refreshTaproot measure hook w why) (fun s => s.accrue measure hook w
      .reshareCompleted (s.rewardParticipants participants) why.reason) s with ⟨-, hEq⟩ | ⟨-, hEq⟩
    · rw [hEq]
      exact hEntries
    · rw [hEq]
      exact hGrown.entries

/-- **A reshare is all or nothing** exactly where the hook refuses it or the
INTENT refresh fails, where the ledger is open and every later stage goes
through, and where the ledger is closed and the refresh drew the same shares. -/
theorem allOrNothing_iff (participants : List NodeId) (s : ReshareNode F T) :
    AllOrNothing measure hook w why participants s ↔
      Refuses hook s ∨ ∀ new vk, refreshedIntent F w.intentRand s.shares = .ok (new, vk) →
        (s.ledger.Admits hook.writer → Completes hook w s) ∧
        (¬ s.ledger.Admits hook.writer → s.shares = some new) := by
  unfold AllOrNothing
  -- a reshare that is refused at once leaves everything
  by_cases hRefuses : Refuses hook s
  · refine iff_of_true (.inr ?_) (.inl hRefuses)
    unfold runReshare
    rcases hRefuses with hDenied | hCounts
    · rw [if_pos (by rw [hDenied]; rfl)]
    · rw [if_pos hCounts]
      split <;> rfl
  have hBegins : runReshare measure hook w why participants s =
      andThen (refreshIntent measure hook w why) (andThen (refreshTaproot measure hook w why)
        fun s => s.accrue measure hook w .reshareCompleted (s.rewardParticipants participants)
          why.reason) s := by
    rw [Refuses, not_or, Bool.not_eq_false] at hRefuses
    rw [runReshare, if_neg (by simp [hRefuses.1]), if_neg hRefuses.2]
  rw [or_iff_right hRefuses, AtomicAt, Succeeds, hBegins]
  show AtomicAt custody (andThen (refreshIntent measure hook w why) _) s ↔ _
  rcases refreshIntent_cases measure w why s with ⟨hNone, e, hEq⟩ | ⟨new, vk, hNew, hRest⟩
  · -- the refresh fails before anything is replaced
    refine iff_of_true (.inr ?_) fun new vk hNew => absurd hNew (hNone new vk)
    rcases andThen_cases (refreshIntent measure hook w why) _ s with ⟨hOk, -⟩ | ⟨-, hRun⟩
    · rw [Succeeds, hEq] at hOk
      cases hOk
    · rw [hRun, hEq]
  have hOnly : (∀ new' vk', refreshedIntent F w.intentRand s.shares = .ok (new', vk') →
      (s.ledger.Admits hook.writer → Completes hook w s) ∧
      (¬ s.ledger.Admits hook.writer → s.shares = some new')) ↔
      (s.ledger.Admits hook.writer → Completes hook w s) ∧
      (¬ s.ledger.Admits hook.writer → s.shares = some new) := by
    refine ⟨fun h => h new vk hNew, fun h new' vk' hNew' => ?_⟩
    cases Except.ok.inj (hNew.symm.trans hNew')
    exact h
  rw [hOnly]
  rcases hRest with ⟨hAdmits, hOk, hGrown, hUsers, hChannels⟩ | ⟨hNot, e, hEq⟩
  · -- the ledger has an entry more, which no later stage takes away
    obtain ⟨hSucceeds, hEntries⟩ := rest_spec measure w why hGrown participants hUsers hChannels
    rw [atomicAt_andThen_iff]
    · simp [AtomicAt, hOk, hSucceeds, hAdmits]
    · intro _ hSame
      have hLength := congrArg (fun c => c.2.2.2.2.entries.length) hSame
      exact absurd hLength hEntries.ne'
  · -- the keyset is replaced, and nothing is entered
    rw [AtomicAt, succeeds_andThen]
    rcases andThen_cases (refreshIntent measure hook w why) (andThen (refreshTaproot measure hook w
      why) fun s => s.accrue measure hook w .reshareCompleted (s.rewardParticipants participants)
        why.reason) s with ⟨hOk, -⟩ | ⟨hFails, hRun⟩
    · rw [Succeeds, hEq] at hOk
      cases hOk
    · rw [hRun, hEq]
      simp only [hFails, false_and, false_or, custody, Prod.mk.injEq, and_true, hNot,
        false_implies, not_false_eq_true, true_implies, true_and]
      exact eq_comm

end Abort

/-! ## A node whose writer left the active set -/

/-- The shares of a keyset of the small instance. -/
def smallShares (slot : Option (TrShareState smallRefresh.toFrostDkg)) : List Small :=
  (slot.map fun keys =>
    keys.keyPackages.entries.map fun e => PolyKey.signingShare (K := Small) (V := Small) e.2).getD []

/-- A writer that left the active set: the reshare fails, and the INTENT shares
are of the next generation. -/
theorem allOrNothing_fails : ¬ AllOrNothing id smallHook smallWorld ⟨"ops", none, none⟩ []
    (smallReshareNode [⟨"vault-2"⟩]) := by
  rintro (hOk | hSame)
  · have hFailed : returnedOk (runReshare id smallHook smallWorld ⟨"ops", none, none⟩ []
        (smallReshareNode [⟨"vault-2"⟩])).1 = false := by decide +kernel
    rw [show (runReshare id smallHook smallWorld ⟨"ops", none, none⟩ []
        (smallReshareNode [⟨"vault-2"⟩])).1 = .ok () from hOk] at hFailed
    cases hFailed
  · have hShares : smallShares (runReshare id smallHook smallWorld ⟨"ops", none, none⟩ []
        (smallReshareNode [⟨"vault-2"⟩])).2.shares ≠ smallShares (some smallKeys) := by decide +kernel
    exact hShares (congrArg (fun c => smallShares c.1) hSame)

end KeroseneVault
