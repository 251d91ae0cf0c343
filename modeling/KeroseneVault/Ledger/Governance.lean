import KeroseneVault.Application.GateIntent

/-!
# The governance ledger

`InMemoryLedger`, a chain of entries that the nodes of the epoch's active set
extend, and `AccrueGovernanceWork`, which credits the operators that took part
in a governance job and enters that in the ledger. `measure` is
`Measurement::from_bytes`, the hexadecimal SHA-256 of a text.

* `append`, `appendLedgerEvent` — the port's method, and the hook's use of it;
* `accrueGovernanceJob` — the bounty of a job, split among the eligible;
* `AccrueGovernanceWork.execute` — both.

Main results:

* `appendLedgerEvent_cases` — an event is entered exactly where the ledger
  admits the writer (`Admits`), and is refused without a change elsewhere;
* `admits_entered` — a ledger that entered an event admits its active set;
* `execute_ok_iff` — when an accrual goes through.
-/

namespace KeroseneVault

/-! ## Entries -/

inductive LedgerEventKind where
  | genesis
  | epochAdvanced
  | voteRecorded
  | dayAdvanced
  | reshareCompleted
  | governanceRewardAccrued
  | profitAllocated
  deriving DecidableEq

/-- `fmt::Debug`, which the entries' hashes cover. -/
def LedgerEventKind.debug : LedgerEventKind → String
  | .genesis => "Genesis"
  | .epochAdvanced => "EpochAdvanced"
  | .voteRecorded => "VoteRecorded"
  | .dayAdvanced => "DayAdvanced"
  | .reshareCompleted => "ReshareCompleted"
  | .governanceRewardAccrued => "GovernanceRewardAccrued"
  | .profitAllocated => "ProfitAllocated"

structure LedgerEntry where
  index : Nat
  epoch : Nat
  kind : LedgerEventKind
  payloadHash : String
  writer : NodeId
  prevHash : String
  entryHash : String
  deriving DecidableEq

def LedgerEntry.chain (measure : String → String) (index epoch : Nat) (kind : LedgerEventKind)
    (payload : String) (writer : NodeId) (prevHash : String) : LedgerEntry :=
  let payloadHash := measure payload
  let material := s!"{index}|{epoch}|{kind.debug}|{payloadHash}|{writer.text}|{prevHash}"
  { index, epoch, kind, payloadHash, writer, prevHash, entryHash := measure material }

/-- `Epoch`, as far as the events read it. -/
structure Epoch where
  number : Nat
  activeSet : List NodeId
  deriving DecidableEq

/-- The state of an `InMemoryLedger`, without its proposals. -/
structure GovernanceLedger where
  constitution : Constitution
  epoch : Epoch
  entries : List LedgerEntry
  deriving DecidableEq

namespace GovernanceLedger

/-- The last check of `append`, and its push. -/
def push (l : GovernanceLedger) (entry : LedgerEntry) : Outcome × GovernanceLedger :=
  if l.epoch.activeSet.contains entry.writer then
    (.ok (), { l with entries := l.entries ++ [entry] })
  else (.error (.unauthorizedWriter entry.writer.text), l)

/-- `LedgerPort::append`. -/
def append (l : GovernanceLedger) (entry : LedgerEntry) : Outcome × GovernanceLedger :=
  match l.entries.getLast? with
  | some prev =>
    if entry.index ≠ prev.index + 1 then
      (.error (.ledgerConflict s!"expected index {prev.index + 1}, got {entry.index}"), l)
    else if entry.prevHash ≠ prev.entryHash then
      (.error (.ledgerConflict "prev_hash does not match head"), l)
    else l.push entry
  | none =>
    if entry.index ≠ 0 then (.error (.ledgerConflict "first entry must be index 0"), l)
    else l.push entry

/-- The hash the next entry links to. -/
def headHash (l : GovernanceLedger) : String :=
  (l.entries.getLast?.map LedgerEntry.entryHash).getD "genesis-prev"

/-- The next entry, under an epoch. -/
def entryAt (measure : String → String) (l : GovernanceLedger) (epoch : Nat)
    (kind : LedgerEventKind) (payload : String) (writer : NodeId) : LedgerEntry :=
  .chain measure l.entries.length epoch kind payload writer l.headHash

/-- The entry an event comes as. -/
def nextEntry (measure : String → String) (l : GovernanceLedger) (kind : LedgerEventKind)
    (payload : String) (writer : NodeId) : LedgerEntry :=
  .chain measure l.entries.length l.epoch.number kind payload writer l.headHash

def appendLedgerEvent (measure : String → String) (writer : NodeId) (kind : LedgerEventKind)
    (payload : String) (l : GovernanceLedger) : Outcome × GovernanceLedger :=
  l.append (l.nextEntry measure kind payload writer)

/-! ### When an entry is appended -/

theorem push_of_mem {l : GovernanceLedger} {entry : LedgerEntry}
    (h : entry.writer ∈ l.epoch.activeSet) :
    l.push entry = (.ok (), { l with entries := l.entries ++ [entry] }) :=
  if_pos (List.contains_iff_mem.mpr h)

theorem push_of_notMem {l : GovernanceLedger} {entry : LedgerEntry}
    (h : entry.writer ∉ l.epoch.activeSet) :
    l.push entry = (.error (.unauthorizedWriter entry.writer.text), l) :=
  if_neg fun hContains => h (List.contains_iff_mem.mp hContains)

/-- The entry follows the last one, and its writer may write. -/
structure Accepts (l : GovernanceLedger) (entry : LedgerEntry) : Prop where
  first : l.entries.getLast? = none → entry.index = 0
  follows : ∀ prev ∈ l.entries.getLast?,
    entry.index = prev.index + 1 ∧ entry.prevHash = prev.entryHash
  writer : entry.writer ∈ l.epoch.activeSet

/-- An entry is appended exactly where the ledger accepts it. -/
theorem append_cases (l : GovernanceLedger) (entry : LedgerEntry) :
    (l.Accepts entry ∧ l.append entry = (.ok (), { l with entries := l.entries ++ [entry] })) ∨
    (¬ l.Accepts entry ∧ ∃ e, l.append entry = (.error e, l)) := by
  unfold append
  -- the first entry has number zero, and any other follows the last one
  cases hLast : l.entries.getLast? with
  | none =>
    dsimp only
    by_cases hIndex : entry.index = 0
    · rw [if_neg (not_not.mpr hIndex)]
      by_cases hWriter : entry.writer ∈ l.epoch.activeSet
      · refine .inl ⟨⟨fun _ => hIndex, fun prev hPrev => ?_, hWriter⟩, push_of_mem hWriter⟩
        rw [hLast] at hPrev
        cases hPrev
      · exact .inr ⟨fun h => hWriter h.writer, _, push_of_notMem hWriter⟩
    · exact .inr ⟨fun h => hIndex (h.first hLast), _, if_pos hIndex⟩
  | some prev =>
    dsimp only
    by_cases hIndex : entry.index = prev.index + 1
    · rw [if_neg (not_not.mpr hIndex)]
      by_cases hHash : entry.prevHash = prev.entryHash
      · rw [if_neg (not_not.mpr hHash)]
        by_cases hWriter : entry.writer ∈ l.epoch.activeSet
        · refine .inl ⟨⟨fun hNone => ?_, fun last hPrev => ?_, hWriter⟩, push_of_mem hWriter⟩
          · rw [hLast] at hNone
            cases hNone
          · obtain rfl := Option.some.inj (hLast.symm.trans hPrev)
            exact ⟨hIndex, hHash⟩
        · exact .inr ⟨fun h => hWriter h.writer, _, push_of_notMem hWriter⟩
      · exact .inr ⟨fun h => hHash (h.follows prev hLast).2, _, if_pos hHash⟩
    · exact .inr ⟨fun h => hIndex (h.follows prev hLast).1, _, if_pos hIndex⟩

/-! ### When an event is entered -/

/-- The writer may write, and the entries are numbered. -/
def Admits (l : GovernanceLedger) (writer : NodeId) : Prop :=
  writer ∈ l.epoch.activeSet ∧ ∀ prev ∈ l.entries.getLast?, l.entries.length = prev.index + 1

instance decidableAdmits (l : GovernanceLedger) (writer : NodeId) : Decidable (l.Admits writer) :=
  inferInstanceAs (Decidable (_ ∧ _))

variable {measure : String → String} {l : GovernanceLedger} {writer : NodeId}
  {kind : LedgerEventKind} {payload : String}

/-- The next entry is accepted exactly where the ledger admits its writer. -/
theorem accepts_entryAt_iff {epoch : Nat} :
    l.Accepts (l.entryAt measure epoch kind payload writer) ↔ l.Admits writer := by
  constructor
  · intro h
    exact ⟨h.writer, fun prev hPrev => (h.follows prev hPrev).1⟩
  · rintro ⟨hWriter, hNumbered⟩
    refine ⟨fun hNone => ?_, fun prev hPrev => ⟨hNumbered prev hPrev, ?_⟩, hWriter⟩
    · show l.entries.length = 0
      rw [List.getLast?_eq_none_iff.mp hNone]
      rfl
    · show l.headHash = prev.entryHash
      rw [headHash, hPrev]
      rfl

/-- An event is entered exactly where the ledger admits the writer. -/
theorem appendLedgerEvent_cases (measure : String → String) (writer : NodeId)
    (kind : LedgerEventKind) (payload : String) (l : GovernanceLedger) :
    (l.Admits writer ∧ appendLedgerEvent measure writer kind payload l =
      (.ok (), { l with entries := l.entries ++ [l.nextEntry measure kind payload writer] })) ∨
    (¬ l.Admits writer ∧ ∃ e, appendLedgerEvent measure writer kind payload l = (.error e, l)) := by
  have hAdmits : l.Accepts (l.nextEntry measure kind payload writer) ↔ l.Admits writer :=
    accepts_entryAt_iff
  rw [← hAdmits]
  exact l.append_cases (l.nextEntry measure kind payload writer)

/-- A ledger that entered an event admits every writer of the active set. -/
theorem admits_entered {other : NodeId} (hOther : other ∈ l.epoch.activeSet) :
    Admits { l with entries := l.entries ++ [l.nextEntry measure kind payload writer] } other := by
  refine ⟨hOther, fun prev hLast => ?_⟩
  rw [List.getLast?_concat] at hLast
  obtain rfl := Option.some.inj hLast
  rw [List.length_append]
  rfl

end GovernanceLedger

/-! ## Governance work -/

inductive GovernanceJobKind where
  | dayAdvanced
  | reshareCompleted
  | releaseCosign
  | releaseActivate
  deriving DecidableEq

def GovernanceJobKind.asStr : GovernanceJobKind → String
  | .dayAdvanced => "day_advanced"
  | .reshareCompleted => "reshare_completed"
  | .releaseCosign => "release_cosign"
  | .releaseActivate => "release_activate"

structure GovernanceRewardConfig where
  rewardSats : Nat
  rewardBpsOfPool : Nat

namespace GovernanceRewardConfig

def isEnabled (config : GovernanceRewardConfig) : Bool :=
  decide (0 < config.rewardSats) || decide (0 < config.rewardBpsOfPool)

def bountySats (config : GovernanceRewardConfig) (currentPoolSats : Nat) : Nat :=
  -- `saturating_mul`
  satAdd config.rewardSats (min (currentPoolSats * config.rewardBpsOfPool) u64Max / 10000)

end GovernanceRewardConfig

/-- `EconomyState`, as far as the accrual of a job reads and writes it. -/
structure EconomyPools where
  policy : RewardPolicy
  operators : Table String MinerOperator
  minerPoolSats : Nat
  pendingGovernanceRewardSats : Nat
  governanceCredits : Table String Nat

structure GovernanceAccrual where
  job : GovernanceJobKind
  bountySats : Nat
  accruedToPoolSats : Nat
  credited : List (NodeId × Nat)
  participants : List NodeId
  eligibleCredited : Nat

/-- Equal shares, and one more each for the first `rem`. -/
def creditShares (each : Nat) : Nat → List NodeId → List (NodeId × Nat)
  | _, [] => []
  | 0, id :: rest => (id, each) :: creditShares each 0 rest
  | rem + 1, id :: rest => (id, each + 1) :: creditShares each rem rest

namespace EconomyPools

/-- `*entry(id).or_insert(0) += share`, on a `u64`. -/
def credit (economy : EconomyPools) (share : NodeId × Nat) : EconomyPools :=
  let before := (economy.governanceCredits.lookup share.1.text).getD 0
  { economy with governanceCredits :=
      economy.governanceCredits.insert share.1.text ((before + share.2) % 2 ^ 64) }

def accrueGovernanceJob (economy : EconomyPools) (job : GovernanceJobKind)
    (participants : List NodeId) (config : GovernanceRewardConfig) :
    GovernanceAccrual × EconomyPools :=
  let participants := participants.eraseDups
  let bounty := config.bountySats economy.minerPoolSats
  if bounty = 0 then
    ({ job, bountySats := 0, accruedToPoolSats := 0, credited := [], participants,
       eligibleCredited := 0 }, economy)
  else
    let eligible := participants.filter fun id =>
      ((economy.operators.lookup id.text).map (·.isEligible economy.policy)).getD false
    let credited := if eligible = [] then [] else
      creditShares (bounty / eligible.length) (bounty % eligible.length) eligible
    ({ job, bountySats := bounty, accruedToPoolSats := bounty, credited, participants,
       eligibleCredited := credited.length },
      { credited.foldl credit economy with
        minerPoolSats := satAdd economy.minerPoolSats bounty
        pendingGovernanceRewardSats := satAdd economy.pendingGovernanceRewardSats bounty })

end EconomyPools

/-- `escape_json`. -/
def escapeJson (s : String) : String :=
  String.ofList (s.toList.flatMap fun c =>
    if c = '\\' then ['\\', '\\'] else if c = '"' then ['\\', '"'] else [c])

/-- `AccrueGovernanceWork`, over the economy and the ledger it is given. -/
structure AccrueGovernanceWork where
  writer : NodeId
  config : GovernanceRewardConfig

namespace AccrueGovernanceWork

/-- The payload of a `GovernanceRewardAccrued` event. -/
def payload (accrual : GovernanceAccrual) (context : String) : String :=
  let credited := ",".intercalate (accrual.credited.map fun e =>
    s!"\x7b\"node_id\":\"{e.1.text}\",\"sats\":{e.2}\x7d")
  let parts := ",".intercalate (accrual.participants.map fun id => s!"\"{id.text}\"")
  s!"\x7b\"job\":\"{accrual.job.asStr}\",\"context\":\"{escapeJson context}\"," ++
  s!"\"bounty_sats\":{accrual.bountySats}," ++
  s!"\"accrued_to_pool_sats\":{accrual.accruedToPoolSats}," ++
  s!"\"eligible_credited\":{accrual.eligibleCredited}," ++
  s!"\"participants\":[{parts}],\"credited\":[{credited}]\x7d"

/-- `execute`. The economy changes before its file is written, and stays
changed where the write fails. -/
def execute (measure : String → String) (g : AccrueGovernanceWork) (economyWrite : Outcome)
    (job : GovernanceJobKind) (participants : List NodeId) (context : String)
    (economy : EconomyPools) (ledger : GovernanceLedger) :
    Except DomainError GovernanceAccrual × EconomyPools × GovernanceLedger :=
  if !g.config.isEnabled then
    (.ok { job, bountySats := 0, accruedToPoolSats := 0, credited := [], participants,
           eligibleCredited := 0 }, economy, ledger)
  else
    let (accrual, economy) := economy.accrueGovernanceJob job participants g.config
    match economyWrite with
    | .error e => (.error (.thresholdError s!"economy persist: {e.display}"), economy, ledger)
    | .ok () =>
      if accrual.accruedToPoolSats = 0 ∧ accrual.bountySats = 0 then (.ok accrual, economy, ledger)
      else
        match ledger.appendLedgerEvent measure g.writer .governanceRewardAccrued
          (payload accrual context) with
        | (.error e, ledger) => (.error e, economy, ledger)
        | (.ok (), ledger) => (.ok accrual, economy, ledger)

variable (measure : String → String) (g : AccrueGovernanceWork) (economyWrite : Outcome)
  (job : GovernanceJobKind) (participants : List NodeId) (context : String)
  (economy : EconomyPools) (ledger : GovernanceLedger)

/-- The bounty of a job is that of the pool before it. -/
theorem accrueGovernanceJob_bounty (economy : EconomyPools) (job : GovernanceJobKind)
    (participants : List NodeId) (config : GovernanceRewardConfig) :
    let accrual := (economy.accrueGovernanceJob job participants config).1
    accrual.bountySats = config.bountySats economy.minerPoolSats ∧
      accrual.accruedToPoolSats = accrual.bountySats := by
  dsimp only
  unfold EconomyPools.accrueGovernanceJob
  by_cases hBounty : config.bountySats economy.minerPoolSats = 0
  · rw [if_pos hBounty]
    exact ⟨hBounty.symm, rfl⟩
  · rw [if_neg hBounty]
    exact ⟨rfl, rfl⟩

/-- An accrual answers Ok where it is disabled, and where the economy is written
and its bounty is nothing or can be entered. -/
theorem execute_ok_iff :
    (∃ accrual, (g.execute measure economyWrite job participants context economy ledger).1 =
      .ok accrual) ↔
    (g.config.isEnabled = true → economyWrite = .ok () ∧
      (g.config.bountySats economy.minerPoolSats = 0 ∨ ledger.Admits g.writer)) := by
  obtain ⟨hBounty, hPool⟩ := accrueGovernanceJob_bounty economy job participants g.config
  unfold execute
  -- disabled, not written, or accrued and entered
  cases hEnabled : g.config.isEnabled with
  | false => simp
  | true =>
    cases economyWrite with
    | error e => simp
    | ok u =>
      simp only [Bool.not_true, Bool.false_eq_true, if_false, hPool, and_self, hBounty,
        true_and, forall_const]
      by_cases hZero : g.config.bountySats economy.minerPoolSats = 0
      · rw [if_pos hZero]
        exact ⟨fun _ => .inl hZero, fun _ => ⟨_, rfl⟩⟩
      · rw [if_neg hZero]
        rcases ledger.appendLedgerEvent_cases measure g.writer .governanceRewardAccrued
          (payload (economy.accrueGovernanceJob job participants g.config).1 context) with
          ⟨hAdmits, hEq⟩ | ⟨hNot, e, hEq⟩
        · rw [hEq]
          exact ⟨fun _ => .inr hAdmits, fun _ => ⟨_, rfl⟩⟩
        · rw [hEq]
          exact ⟨nofun, fun hGoes => absurd (hGoes.resolve_left hZero) hNot⟩

/-- An accrual changes the economy where it is enabled, and stays where it then fails. -/
theorem execute_economy :
    (g.execute measure economyWrite job participants context economy ledger).2.1 =
      if g.config.isEnabled then (economy.accrueGovernanceJob job participants g.config).2
      else economy := by
  unfold execute
  cases g.config.isEnabled with
  | false => rfl
  | true =>
    cases economyWrite with
    | error e => rfl
    | ok u =>
      rw [if_neg (by simp), if_pos rfl]
      dsimp only
      split
      · rfl
      · rcases ledger.appendLedgerEvent_cases measure g.writer .governanceRewardAccrued
          (payload (economy.accrueGovernanceJob job participants g.config).1 context) with
          ⟨-, hEq⟩ | ⟨-, e, hEq⟩
        · rw [hEq]
        · rw [hEq]

/-- An accrual enters one event, or leaves the ledger as it was. -/
theorem execute_ledger :
    (g.execute measure economyWrite job participants context economy ledger).2.2 = ledger ∨
    ledger.Admits g.writer ∧
    (g.execute measure economyWrite job participants context economy ledger).2.2 =
      { ledger with entries := ledger.entries ++ [ledger.nextEntry measure .governanceRewardAccrued
          (payload (economy.accrueGovernanceJob job participants g.config).1 context) g.writer] } := by
  unfold execute
  split
  · exact .inl rfl
  cases economyWrite with
  | error e => exact .inl rfl
  | ok u =>
    dsimp only
    split
    · exact .inl rfl
    · rcases ledger.appendLedgerEvent_cases measure g.writer .governanceRewardAccrued
        (payload (economy.accrueGovernanceJob job participants g.config).1 context) with
        ⟨hAdmits, hEq⟩ | ⟨-, e, hEq⟩
      · rw [hEq]
        exact .inr ⟨hAdmits, rfl⟩
      · rw [hEq]
        exact .inl rfl

/-- An accrual takes no entry away. -/
theorem length_le_execute :
    ledger.entries.length ≤
      (g.execute measure economyWrite job participants context economy ledger).2.2.entries.length := by
  rcases execute_ledger measure g economyWrite job participants context economy ledger with
    hEq | ⟨-, hEq⟩
  · rw [hEq]
  · rw [hEq]
    exact List.length_append ▸ Nat.le_add_right _ _

end AccrueGovernanceWork

end KeroseneVault
