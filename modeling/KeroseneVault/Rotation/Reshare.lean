import KeroseneVault.Dkg.PolyRefresh
import KeroseneVault.Ledger.Governance
import KeroseneVault.Lib.Steps
import KeroseneVault.Rotation.Daily

/-!
# The reshare hook

`PolicyReshareHook`: after a day advance, or on demand, the INTENT keyset and
the USERS and CHANNELS Taproot keysets of a node are refreshed one after the
other, each replaced in its slot and entered in the governance ledger before
the next one is begun.

* `ReshareNode` — the slots, the share store, the ledger and the economy;
* `refreshIntent`, `refreshTaproot`, `refreshChannelsTaproot` — the refreshes;
* `runReshare`, `onDayAdvance`, `triggerManual` — the hook's methods.

Main results:

* `step_kept` — one call keeps the key, threshold and members of every slot;
* `groupKeys_kept` — **so does every run of calls**.
-/

namespace KeroseneVault

open Steps

/-! ## State -/

inductive ResharePolicy where
  | daily
  | manual
  deriving DecidableEq

def ResharePolicy.asStr : ResharePolicy → String
  | .daily => "daily"
  | .manual => "manual"

/-- `PolicyReshareHook`, without what it shares with the node. -/
structure PolicyReshareHook where
  policy : ResharePolicy
  writer : NodeId
  /-- is there a `share_store`? -/
  hasShareStore : Bool
  governance : Option AccrueGovernanceWork
  allowInProcessNshareReshare : Bool

/-- `FrostShareState`, which has the fields of `FrostTrShareState`. -/
abbrev FrostShareState := TrShareState

/-- What the hook reads and writes: the slots, the records of the share store,
the ledger and the economy. A slot for CHANNELS that is not there is one with
nothing installed. -/
structure ReshareNode (F T : FrostRefresh) where
  shares : Option (FrostShareState F.toFrostDkg)
  trShares : Option (TrShareState T.toFrostDkg)
  trChannelsShares : Option (TrShareState T.toFrostDkg)
  store : ShareStore
  ledger : GovernanceLedger
  economy : EconomyPools

/-- What surrounds one call: the randomness of each refresh, and the writes to
disk. -/
structure ReshareWorld (F T : FrostRefresh) where
  intentRand : F.Identifier → F.Randomness
  trRand : T.Identifier → T.Randomness
  channelsRand : T.Identifier → T.Randomness
  disk : ShareDisk
  economyWrite : GovernanceJobKind → Outcome

/-! ## Refreshed keysets -/

section Refreshes

variable (F : FrostRefresh)

/-- The hexadecimal text of a keyset's verifying key. -/
def vkHex (what : String) (key : F.VerifyingKey) : Except DomainError String :=
  (mapErr what (F.verifyingKeyBytes key)).map F.hexEncode

/-- The fields of a keyset that a refresh replaces. -/
def TrShareState.withKeys {F : FrostDkg} (snap : TrShareState F)
    (refreshed : SortedMap F.Identifier F.KeyPackage × F.PublicKeyPackage) : TrShareState F :=
  { snap with keyPackages := refreshed.1, pubkeyPackage := refreshed.2 }

/-- `refresh_intent` up to its `replace`: the new keyset, and the text of its key. -/
def refreshedIntent (rand : F.Identifier → F.Randomness)
    (shares : Option (FrostShareState F.toFrostDkg)) :
    Except DomainError (FrostShareState F.toFrostDkg × String) :=
  match shares with
  | none => .error (.thresholdError "FROST material not installed")
  | some snap => do
    let oldVkHex ← vkHex F "vk serialize" (F.verifyingKey snap.pubkeyPackage)
    let refreshed ← refreshInProcess F intentTexts rand snap.keyPackages snap.pubkeyPackage
    let newVkHex ← vkHex F "vk serialize" (F.verifyingKey refreshed.2)
    if oldVkHex ≠ newVkHex then
      .error (.thresholdError "intent reshare verifying key mismatch")
    else .ok (snap.withKeys refreshed, newVkHex)

/-- `refresh_taproot` up to its writes. The texts it then asserts to be equal are
those of equal keys. -/
def refreshedTaproot (rand : F.Identifier → F.Randomness) (snap : TrShareState F.toFrostDkg) :
    Except DomainError (TrShareState F.toFrostDkg × String) := do
  let _oldVkHex ← vkHex F "tr vk serialize" (F.verifyingKey snap.pubkeyPackage)
  let refreshed ← refreshInProcess F taprootTexts rand snap.keyPackages snap.pubkeyPackage
  if F.verifyingKey refreshed.2 ≠ F.verifyingKey snap.pubkeyPackage then
    .error (.thresholdError "tr reshare verifying key mismatch (deposit would change)")
  else
    let newVkHex ← vkHex F "tr vk serialize" (F.verifyingKey refreshed.2)
    .ok (snap.withKeys refreshed, newVkHex)

/-- `refresh_channels_taproot` up to its writes. -/
def refreshedChannels (rand : F.Identifier → F.Randomness) (snap : TrShareState F.toFrostDkg) :
    Except DomainError (TrShareState F.toFrostDkg × String) := do
  let refreshed ← refreshInProcess F taprootTexts rand snap.keyPackages snap.pubkeyPackage
  if F.verifyingKey refreshed.2 ≠ F.verifyingKey snap.pubkeyPackage then
    .error (.thresholdError "CHANNELS tr reshare verifying key mismatch (deposit would change)")
  else
    let newVkHex ← vkHex F "tr-ch vk serialize" (F.verifyingKey refreshed.2)
    .ok (snap.withKeys refreshed, newVkHex)

end Refreshes

/-! ## The hook -/

/-- The payload of a `ReshareCompleted` event. -/
def resharePayload (reason suite : String) (participants minSigners : Nat)
    (newVkHex constitutionHash : String) (fromDay toDay : Option DayEpoch) : String :=
  let day := fun (d : Option DayEpoch) => (d.map fun d => String.ofList d.text).getD ""
  s!"\x7b\"reason\":\"{reason}\",\"suite\":\"{suite}\",\"participants\":{participants}," ++
  s!"\"min_signers\":{minSigners},\"verifying_key\":\"{newVkHex}\"," ++
  s!"\"constitution_hash\":\"{constitutionHash}\"," ++
  s!"\"from_day\":\"{day fromDay}\",\"to_day\":\"{day toDay}\"\x7d"

/-- What a reshare is done for. -/
structure ReshareReason where
  reason : String
  fromDay : Option DayEpoch
  toDay : Option DayEpoch

section Hook

variable {F T : FrostRefresh} (measure : String → String) (hook : PolicyReshareHook)
  (w : ReshareWorld F T) (why : ReshareReason)

namespace ReshareNode

/-- `append_ledger_event`. -/
def logEvent (kind : LedgerEventKind) (payload : String) (s : ReshareNode F T) :
    Outcome × ReshareNode F T :=
  let entered := s.ledger.appendLedgerEvent measure hook.writer kind payload
  (entered.1, { s with ledger := entered.2 })

/-- A refresh is entered in the ledger. -/
def logReshare (suite : String) (participants : Nat) (minSigners : UInt64) (newVkHex : String)
    (s : ReshareNode F T) : Outcome × ReshareNode F T :=
  s.logEvent measure hook .reshareCompleted (resharePayload why.reason suite participants
    minSigners.toNat newVkHex s.ledger.constitution.hash why.fromDay why.toDay)

/-- `persist_tr_shares` or `persist_tr_channels_shares`, where there is a store. -/
def persist (records : List ShareRecord) (s : ReshareNode F T) : Outcome × ReshareNode F T :=
  if hook.hasShareStore then
    let put := putAll w.disk s.store records
    (put.1, { s with store := put.2 })
  else (.ok (), s)

/-- The number of key packages of a slot. -/
def count {F : FrostDkg} (slot : Option (TrShareState F)) : Nat :=
  (slot.map (·.keyPackages.entries.length)).getD 0

def refreshIntent (s : ReshareNode F T) : Outcome × ReshareNode F T :=
  match refreshedIntent F w.intentRand s.shares with
  | .error e => (.error e, s)
  | .ok (new, newVkHex) => logReshare measure hook why "frost-secp256k1" (count s.shares)
      new.minSigners newVkHex { s with shares := some new }

def refreshChannelsTaproot (s : ReshareNode F T) : Outcome × ReshareNode F T :=
  match s.trChannelsShares with
  | none => (.ok (), s)
  | some snap =>
    match refreshedChannels T w.channelsRand snap with
    | .error e => (.error e, s)
    | .ok (new, newVkHex) =>
      andThen (persist hook w (trChannelsRecords new))
        (fun s => logReshare measure hook why "frost-secp256k1-tr-channels"
          snap.keyPackages.entries.length new.minSigners newVkHex
          { s with trChannelsShares := some new }) s

/-- `refresh_taproot` up to the CHANNELS keyset. -/
def refreshUsersTaproot (snap : TrShareState T.toFrostDkg) (s : ReshareNode F T) :
    Outcome × ReshareNode F T :=
  match refreshedTaproot T w.trRand snap with
  | .error e => (.error e, s)
  | .ok (new, newVkHex) =>
    andThen (persist hook w (trRecords new))
      (fun s => logReshare measure hook why "frost-secp256k1-tr" snap.keyPackages.entries.length
        new.minSigners newVkHex { s with trShares := some new }) s

def refreshTaproot (s : ReshareNode F T) : Outcome × ReshareNode F T :=
  match s.trShares with
  | none => (.ok (), s)
  | some snap => andThen (refreshUsersTaproot measure hook w why snap)
      (refreshChannelsTaproot measure hook w why) s

/-- `accrue`. -/
def accrue (job : GovernanceJobKind) (participants : List NodeId) (context : String)
    (s : ReshareNode F T) : Outcome × ReshareNode F T :=
  match hook.governance with
  | none => (.ok (), s)
  | some gov =>
    let (accrued, economy, ledger) :=
      gov.execute measure (w.economyWrite job) job participants context s.economy s.ledger
    (accrued.map fun _ => (), { s with economy, ledger })

/-- `reward_participants`. -/
def rewardParticipants (participants : List NodeId) (s : ReshareNode F T) : List NodeId :=
  if participants.isEmpty then s.ledger.epoch.activeSet else participants

def runReshare (participants : List NodeId) (s : ReshareNode F T) : Outcome × ReshareNode F T :=
  if !hook.allowInProcessNshareReshare then
    (.error (.thresholdError ("in-process N-share FROST reshare refused outside dealer_lab; " ++
      "use multi-party wire reshare (or VAULT_DKG_MODE=dealer_lab in lab only)")), s)
  else if count s.shares ≤ 1 ∧ count s.trShares ≤ 1 then
    (.error (.thresholdError ("in-process reshare requires N local shares (dealer_lab); " ++
      "single-share mesh must reshare over wire")), s)
  else
    andThen (refreshIntent measure hook w why)
      (andThen (refreshTaproot measure hook w why) fun s =>
        s.accrue measure hook w .reshareCompleted (s.rewardParticipants participants) why.reason) s

/-- The payload of a `DayAdvanced` event. -/
def dayPayload (source target : DayEpoch) (s : ReshareNode F T) : String :=
  s!"\x7b\"from\":\"{String.ofList source.text}\",\"to\":\"{String.ofList target.text}\"," ++
  s!"\"constitution_hash\":\"{s.ledger.constitution.hash}\"," ++
  s!"\"reshare_policy\":\"{hook.policy.asStr}\"\x7d"

/-- `ReshareHookPort::on_day_advance`. -/
def onDayAdvance (source target : DayEpoch) (participants : List NodeId) (s : ReshareNode F T) :
    Outcome × ReshareNode F T :=
  andThen (fun s => s.logEvent measure hook .dayAdvanced (s.dayPayload hook source target))
    (fun s =>
      let rewarded := s.rewardParticipants participants
      andThen (accrue measure hook w .dayAdvanced rewarded
          (String.ofList source.text ++ "->" ++ String.ofList target.text))
        (match hook.policy with
          | .daily => runReshare measure hook w ⟨"day_advance", some source, some target⟩ rewarded
          | .manual => fun s => (.ok (), s)) s) s

/-- `ReshareHookPort::trigger_manual`. -/
def triggerManual (reason : String) (s : ReshareNode F T) : Outcome × ReshareNode F T :=
  runReshare measure hook w ⟨reason, none, none⟩ [] s

end ReshareNode

end Hook

/-! ## The group keys -/

section Keys

variable {F T : FrostRefresh} {K V K' V' : Type} [CommRing K] [AddCommGroup V] [Module K V]
  [CommRing K'] [AddCommGroup V'] [Module K' V']

/-- A complete set of key packages of threshold `t`, which belongs to the slot's
verifying key. -/
def Complete (S : RefreshSpec F K V) (t : Nat) (keys : TrShareState F.toFrostDkg) : Prop :=
  SharedKeyset S (keys.keyPackages.entries.map Prod.fst) t (F.verifyingKey keys.pubkeyPackage)
    keys.keyPackages keys.pubkeyPackage

/-- What a slot has kept of the keyset that was installed in it. -/
structure Kept (S : RefreshSpec F K V) (installed current : TrShareState F.toFrostDkg) : Prop where
  verifyingKey : F.verifyingKey current.pubkeyPackage = F.verifyingKey installed.pubkeyPackage
  minSigners : current.minSigners = installed.minSigners
  identifiers : current.keyPackages.entries.map Prod.fst =
    installed.keyPackages.entries.map Prod.fst
  complete : ∀ t, Complete S t installed → Complete S t current

theorem Kept.refl (S : RefreshSpec F K V) (keys : TrShareState F.toFrostDkg) : Kept S keys keys :=
  ⟨rfl, rfl, rfl, fun _ h => h⟩

theorem Kept.trans {S : RefreshSpec F K V} {a b c : TrShareState F.toFrostDkg} (h : Kept S a b)
    (h' : Kept S b c) : Kept S a c :=
  ⟨h'.verifyingKey.trans h.verifyingKey, h'.minSigners.trans h.minSigners,
    h'.identifiers.trans h.identifiers, fun t hComplete => h'.complete t (h.complete t hComplete)⟩

/-- A refreshed keyset. -/
theorem kept_withKeys (S : RefreshSpec F K V) {texts : RefreshTexts}
    {rand : F.Identifier → F.Randomness} {snap : TrShareState F.toFrostDkg}
    {refreshed : SortedMap F.Identifier F.KeyPackage × F.PublicKeyPackage}
    (h : refreshInProcess F texts rand snap.keyPackages snap.pubkeyPackage = .ok refreshed) :
    Kept S snap (snap.withKeys refreshed) := by
  have hKey : F.verifyingKey refreshed.2 = F.verifyingKey snap.pubkeyPackage :=
    refreshInProcess_key h
  have hIds : refreshed.1.entries.map Prod.fst = snap.keyPackages.entries.map Prod.fst :=
    refreshInProcess_ids h
  refine ⟨hKey, rfl, hIds, fun t hComplete => ?_⟩
  have hRefreshed := hComplete.refresh h
  rw [← hKey, ← hIds] at hRefreshed
  exact hRefreshed

theorem refreshedIntent_kept (S : RefreshSpec F K V) {rand : F.Identifier → F.Randomness}
    {shares : Option (FrostShareState F.toFrostDkg)} {new : FrostShareState F.toFrostDkg}
    {newVkHex : String} (h : refreshedIntent F rand shares = .ok (new, newVkHex)) :
    ∃ snap, shares = some snap ∧ Kept S snap new := by
  unfold refreshedIntent at h
  split at h
  · cases h
  rename_i snap
  obtain ⟨oldVkHex, -, h⟩ := Results.bind_eq_ok.mp h
  obtain ⟨refreshed, hRefreshed, h⟩ := Results.bind_eq_ok.mp h
  obtain ⟨vk, -, h⟩ := Results.bind_eq_ok.mp h
  split at h
  · cases h
  · cases Except.ok.inj h
    exact ⟨snap, rfl, kept_withKeys S hRefreshed⟩

theorem refreshedTaproot_kept (S : RefreshSpec F K V) {rand : F.Identifier → F.Randomness}
    {snap new : TrShareState F.toFrostDkg} {newVkHex : String}
    (h : refreshedTaproot F rand snap = .ok (new, newVkHex)) : Kept S snap new := by
  obtain ⟨oldVkHex, -, h⟩ := Results.bind_eq_ok.mp h
  obtain ⟨refreshed, hRefreshed, h⟩ := Results.bind_eq_ok.mp h
  split at h
  · cases h
  · obtain ⟨vk, -, h⟩ := Results.bind_eq_ok.mp h
    cases Except.ok.inj h
    exact kept_withKeys S hRefreshed

theorem refreshedChannels_kept (S : RefreshSpec F K V) {rand : F.Identifier → F.Randomness}
    {snap new : TrShareState F.toFrostDkg} {newVkHex : String}
    (h : refreshedChannels F rand snap = .ok (new, newVkHex)) : Kept S snap new := by
  obtain ⟨refreshed, hRefreshed, h⟩ := Results.bind_eq_ok.mp h
  split at h
  · cases h
  · obtain ⟨vk, -, h⟩ := Results.bind_eq_ok.mp h
    cases Except.ok.inj h
    exact kept_withKeys S hRefreshed

/-- What the slots of a node have kept. -/
structure KeysKept (S : RefreshSpec F K V) (S' : RefreshSpec T K' V')
    (installed current : ReshareNode F T) : Prop where
  intent : Option.Rel (Kept S) installed.shares current.shares
  users : Option.Rel (Kept S') installed.trShares current.trShares
  channels : Option.Rel (Kept S') installed.trChannelsShares current.trChannelsShares

theorem rel_kept_refl (S : RefreshSpec F K V) (slot : Option (TrShareState F.toFrostDkg)) :
    Option.Rel (Kept S) slot slot := by
  cases slot with
  | none => exact .none
  | some keys => exact .some (Kept.refl S keys)

/-- A slot whose keyset is refreshed. -/
theorem rel_kept_replace {S : RefreshSpec F K V} {slot : Option (TrShareState F.toFrostDkg)}
    {snap new : TrShareState F.toFrostDkg} (h : Option.Rel (Kept S) slot (some snap))
    (hNew : Kept S snap new) : Option.Rel (Kept S) slot (some new) := by
  cases h with
  | some hKept => exact .some (hKept.trans hNew)

theorem KeysKept.refl (S : RefreshSpec F K V) (S' : RefreshSpec T K' V') (s : ReshareNode F T) :
    KeysKept S S' s s := ⟨rel_kept_refl S _, rel_kept_refl S' _, rel_kept_refl S' _⟩

section Steps

variable {S : RefreshSpec F K V} {S' : RefreshSpec T K' V'} {installed : ReshareNode F T}
  {measure : String → String} {hook : PolicyReshareHook} {w : ReshareWorld F T}
  {why : ReshareReason}

open ReshareNode

theorem logEvent_kept {kind : LedgerEventKind} {payload : ReshareNode F T → String} :
    Preserves (KeysKept S S' installed) fun s => s.logEvent measure hook kind (payload s) :=
  fun _ h => ⟨h.intent, h.users, h.channels⟩

theorem persist_kept {records : List ShareRecord} :
    Preserves (KeysKept S S' installed) (persist hook w records) := by
  intro s h
  unfold persist
  split
  · exact ⟨h.intent, h.users, h.channels⟩
  · exact h

theorem accrue_kept {job : GovernanceJobKind} {participants : ReshareNode F T → List NodeId}
    {context : String} : Preserves (KeysKept S S' installed)
      fun s => s.accrue measure hook w job (participants s) context := by
  intro s h
  dsimp only
  unfold accrue
  split
  · exact h
  · exact ⟨h.intent, h.users, h.channels⟩

theorem refreshIntent_kept :
    Preserves (KeysKept S S' installed) (refreshIntent measure hook w why) := by
  intro s h
  unfold refreshIntent
  split
  · exact h
  · rename_i new newVkHex hNew
    obtain ⟨snap, hSnap, hKept⟩ := refreshedIntent_kept S hNew
    exact ⟨rel_kept_replace (hSnap ▸ h.intent) hKept, h.users, h.channels⟩

/-- The Taproot slot that is being refreshed still has the keyset it had. -/
theorem refreshUsersTaproot_kept {snap : TrShareState T.toFrostDkg} {s : ReshareNode F T}
    (hSnap : s.trShares = some snap) (h : KeysKept S S' installed s) :
    KeysKept S S' installed (refreshUsersTaproot measure hook w why snap s).2 := by
  unfold refreshUsersTaproot
  split
  · exact h
  rename_i new newVkHex hNew
  have hPersisted : KeysKept S S' installed (persist hook w (trRecords new) s).2 :=
    persist_kept s h
  rcases andThen_cases (persist hook w (trRecords new)) (fun s => logReshare measure hook why
    "frost-secp256k1-tr" snap.keyPackages.entries.length new.minSigners newVkHex
    { s with trShares := some new }) s with ⟨-, hEq⟩ | ⟨-, hEq⟩
  · rw [hEq]
    have hReplaced := rel_kept_replace (hSnap ▸ h.users) (refreshedTaproot_kept S' hNew)
    exact ⟨hPersisted.intent, hReplaced, hPersisted.channels⟩
  · rw [hEq]
    exact hPersisted

/-- The stage for channels keeps the slots. -/
theorem refreshChannelsTaproot_kept :
    Preserves (KeysKept S S' installed) (refreshChannelsTaproot measure hook w why) := by
  intro s h
  unfold refreshChannelsTaproot
  split
  · exact h
  rename_i snap hSnap
  split
  · exact h
  rename_i new newVkHex hNew
  have hPersisted : KeysKept S S' installed (persist hook w (trChannelsRecords new) s).2 :=
    persist_kept s h
  rcases andThen_cases (persist hook w (trChannelsRecords new)) (fun s => logReshare measure hook
    why "frost-secp256k1-tr-channels" snap.keyPackages.entries.length new.minSigners newVkHex
    { s with trChannelsShares := some new }) s with ⟨-, hEq⟩ | ⟨-, hEq⟩
  · rw [hEq]
    have hReplaced := rel_kept_replace (hSnap ▸ h.channels) (refreshedChannels_kept S' hNew)
    exact ⟨hPersisted.intent, hPersisted.users, hReplaced⟩
  · rw [hEq]
    exact hPersisted

theorem refreshTaproot_kept :
    Preserves (KeysKept S S' installed) (refreshTaproot measure hook w why) := by
  intro s h
  unfold refreshTaproot
  split
  · exact h
  rename_i snap hSnap
  have hUsers : KeysKept S S' installed (refreshUsersTaproot measure hook w why snap s).2 :=
    refreshUsersTaproot_kept hSnap h
  rcases andThen_cases (refreshUsersTaproot measure hook w why snap)
    (refreshChannelsTaproot measure hook w why) s with ⟨-, hEq⟩ | ⟨-, hEq⟩
  · rw [hEq]
    exact refreshChannelsTaproot_kept _ hUsers
  · rw [hEq]
    exact hUsers

theorem runReshare_kept {participants : List NodeId} :
    Preserves (KeysKept S S' installed) (runReshare measure hook w why participants) := by
  intro s h
  unfold runReshare
  split
  · exact h
  split
  · exact h
  · exact refreshIntent_kept.andThen (refreshTaproot_kept.andThen accrue_kept) s h

theorem onDayAdvance_kept {source target : DayEpoch} {participants : List NodeId} :
    Preserves (KeysKept S S' installed) (onDayAdvance measure hook w source target participants) := by
  refine Preserves.andThen logEvent_kept fun s h => Preserves.andThen accrue_kept ?_ s h
  split
  · exact runReshare_kept
  · exact fun s h => h

end Steps

/-! ## Runs -/

/-- A call of the hook's port. -/
inductive ReshareCall where
  | onDayAdvance (source target : DayEpoch) (participants : List NodeId)
  | triggerManual (reason : String)

/-- One call, with what surrounds it; the node goes on whatever it answers. -/
def ReshareNode.step (measure : String → String) (hook : PolicyReshareHook) (s : ReshareNode F T) :
    ReshareCall × ReshareWorld F T → ReshareNode F T
  | (.onDayAdvance source target participants, w) =>
    (s.onDayAdvance measure hook w source target participants).2
  | (.triggerManual reason, w) => (s.triggerManual measure hook w reason).2

/-- One call keeps the key, threshold and members of every slot. -/
theorem step_kept {S : RefreshSpec F K V} {S' : RefreshSpec T K' V'} {measure : String → String}
    {hook : PolicyReshareHook} {installed s : ReshareNode F T} (h : KeysKept S S' installed s)
    (call : ReshareCall × ReshareWorld F T) : KeysKept S S' installed (s.step measure hook call) := by
  obtain ⟨_ | _, w⟩ := call
  · exact onDayAdvance_kept s h
  · exact runReshare_kept s h

/-- **Refresh preserves the group keys.** Over every run of calls, whatever they
answer, each slot keeps its verifying key and threshold, and a complete set of
key packages for the members it was installed with. -/
theorem groupKeys_kept (S : RefreshSpec F K V) (S' : RefreshSpec T K' V')
    (measure : String → String) (hook : PolicyReshareHook) (installed : ReshareNode F T)
    (calls : List (ReshareCall × ReshareWorld F T)) :
    Runs.EveryState (ReshareNode.step measure hook) (KeysKept S S' installed) installed calls := by
  have hStep : ∀ s call, KeysKept S S' installed s →
      KeysKept S S' installed (ReshareNode.step measure hook s call) :=
    fun s call h => step_kept h call
  exact Runs.EveryState.of_preserved hStep (KeysKept.refl S S' installed) calls

end Keys

/-! ## A small node -/

/-- The key of the member `i` of a sharing of 5 by `5 + 3 * X`. -/
def smallKey (i : Small) : PolyKey Small Small where
  identifier := i
  signingShare := 5 + 3 * i
  verifyingShare := 5 + 3 * i
  verifyingKey := 5
  minSigners := 2

/-- Two members' keys. -/
def smallKeys : TrShareState smallRefresh.toFrostDkg where
  keyPackages := ⟨[((1 : Small), smallKey 1), ((2 : Small), smallKey 2)], by decide⟩
  pubkeyPackage :=
    ({ verifyingShares := [(1, 8), (2, 11)], verifyingKey := 5, minSigners := 2 } :
      PolyPubkey Small Small)
  minSigners := 2

theorem smallKeys_complete : Complete smallFrost.refreshSpec 2 smallKeys := by
  refine ⟨rfl, rfl, PolyCommit.toPolynomial [5, 3], ?_, ?_, ?_, ?_⟩
  · exact PolyCommit.toPolynomial_mem_degreeLT [5, 3]
  · rw [PolyCommit.eval_toPolynomial]
    rfl
  · intro e he
    have hValue : smallFrost.refreshSpec.signingShare e.2 =
        (PolyCommit.toPolynomial [5, 3]).eval (smallFrost.refreshSpec.scalar e.1) := by
      rw [PolyCommit.eval_toPolynomial]
      rcases List.mem_pair.mp he with rfl | rfl <;> decide
    rcases List.mem_pair.mp he with rfl | rfl
    · exact ⟨rfl, rfl, rfl, hValue⟩
    · exact ⟨rfl, rfl, rfl, hValue⟩
  · intro e he
    rw [PolyCommit.eval_toPolynomial]
    rcases List.mem_pair.mp he with rfl | rfl <;> decide

/-- A node with both keysets, under a ledger that `active` may write. -/
def smallReshareNode (active : List NodeId) : ReshareNode smallRefresh smallRefresh where
  shares := some smallKeys
  trShares := some smallKeys
  trChannelsShares := none
  store := ∅
  ledger := {
    constitution := ⟨"constitution", ⟨10000, 0, 0⟩⟩
    epoch := ⟨0, active⟩
    entries := [.chain id 0 0 .genesis "genesis" ⟨"vault-1"⟩ "genesis-prev"] }
  economy := ⟨⟨0, 0, 0⟩, ∅, 0, 0, ∅⟩

/-- A hook in a dealer lab. -/
def smallHook : PolicyReshareHook where
  policy := .daily
  writer := ⟨"vault-1"⟩
  hasShareStore := true
  governance := none
  allowInProcessNshareReshare := true

/-- A disk that takes every record, and members who draw `X` and `2 * X`. -/
def smallWorld : ReshareWorld smallRefresh smallRefresh where
  intentRand := fun i : Small => (fun _ => i, (1 : Small))
  trRand := fun i : Small => (fun _ => i, (1 : Small))
  channelsRand := fun i : Small => (fun _ => i, (1 : Small))
  disk _ _ := .stored
  economyWrite _ := .ok ()

theorem groupKeys_kept_small :
    Runs.EveryState (ReshareNode.step id smallHook)
      (fun s => ∃ keys ∈ s.shares, keys.minSigners = 2 ∧ Complete smallFrost.refreshSpec 2 keys)
      (smallReshareNode [⟨"vault-1"⟩])
      [(.triggerManual "ops", smallWorld), (.triggerManual "again", smallWorld)] := by
  refine Runs.EveryState.mono (fun s h => ?_) (groupKeys_kept smallFrost.refreshSpec
    smallFrost.refreshSpec id smallHook (smallReshareNode [⟨"vault-1"⟩]) _)
  obtain ⟨keys, hKeys, hKept⟩ : ∃ keys, s.shares = some keys ∧
      Kept smallFrost.refreshSpec smallKeys keys := by
    have hIntent := h.intent
    rcases hSlot : s.shares with _ | keys
    · rw [hSlot] at hIntent
      cases hIntent
    · rw [hSlot] at hIntent
      cases hIntent with
      | some hKept => exact ⟨keys, rfl, hKept⟩
  exact ⟨keys, hKeys, hKept.minSigners, hKept.complete 2 smallKeys_complete⟩

end KeroseneVault
