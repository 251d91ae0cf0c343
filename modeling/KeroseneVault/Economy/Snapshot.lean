import KeroseneVault.Economy.State
import KeroseneVault.Release.Snapshot

/-!
# The file of the economy

`economy.json`: the text that `serialize_economy` formats, and the state that
`load_economy` makes of it, with its defaults and its casts. As in the file of the
release mesh, only backslashes and quotes are escaped.

* `serializeEconomy` — the text;
* `MinerEconomy.value` — the value that it is the text of;
* `loadEconomy` — the state of a text;
* `MinerEconomy.Printable` — no operator has a control character.

Main results:

* `serializeEconomy_eq` — the text is that of the value;
* `loadEconomy_printable`, `loadEconomy_control` — a state that the calls keep is
  loaded back where it is printable, and refused elsewhere;
* `economy_roundTrip_iff` — so it is after any calls on an open economy.
-/

namespace KeroseneVault

/-! ## The text -/

/-- An operator in `serialize_economy`, with the escapes of `escape`. -/
def RegisteredOperator.json (o : RegisteredOperator) : String :=
  s!"\x7b\"node_id\":\"{escapeJson o.nodeId.text}\"," ++
  s!"\"payout_destination\":\"{escapeJson o.payoutDestination}\"," ++
  s!"\"uptime_bps_30d\":{o.uptimeBps30d.1}," ++
  s!"\"attestation_streak_days\":{o.attestationStreakDays.1}," ++
  s!"\"bond_sats\":{o.bondSats.1},\"waiting\":{o.waiting}\x7d"

def creditJson (e : String × U64) : String :=
  s!"\x7b\"node_id\":\"{escapeJson e.1}\",\"sats\":{e.2.1}\x7d"

def lastJson : Option U64 → String
  | some n => s!"{n.1}"
  | none => "null"

/-- `serialize_economy`. -/
def serializeEconomy (state : MinerEconomy) : String :=
  let ops := ",".intercalate (state.operators.entries.map fun e => e.2.json)
  let credits := ",".intercalate (state.governanceCredits.entries.map creditJson)
  let lastAt := lastJson state.lastMinerPayoutAtSecs
  let lastEp := lastJson state.lastMinerPayoutEpoch
  s!"\x7b\"version\":1,\"miner_pool_sats\":{state.minerPoolSats.1}," ++
  s!"\"channels_pool_sats\":{state.channelsPoolSats.1}," ++
  s!"\"infra_pool_sats\":{state.infraPoolSats.1}," ++
  s!"\"accrued_profit_sats\":{state.accruedProfitSats.1}," ++
  s!"\"pending_governance_reward_sats\":{state.pendingGovernanceRewardSats.1}," ++
  s!"\"crypto_suite_id_pq\":\"{escapeJson state.cryptoSuiteIdPq}\"," ++
  s!"\"last_miner_payout_at_secs\":{lastAt},\"last_miner_payout_epoch\":{lastEp}," ++
  s!"\"policy\":\x7b\"min_uptime_bps_30d\":{state.policy.minUptimeBps30d.1}," ++
  s!"\"min_attestation_streak_days\":{state.policy.minAttestationStreakDays.1}," ++
  s!"\"min_bond_sats\":{state.policy.minBondSats.1}," ++
  s!"\"waiting_pool_share_bps\":{state.policy.waitingPoolShareBps.1}\x7d," ++
  s!"\"operators\":[{ops}],\"governance_credits\":[{credits}]\x7d"

/-! ### Its value -/

def U32.toUInt64 (n : U32) : UInt64 := UInt64.ofNat n.1

theorem U32.toNat_toUInt64 (n : U32) : (U32.toUInt64 n).toNat = n.1 :=
  UInt64.toNat_ofNat_of_lt (lt_trans n.2 (by decide))

def RegisteredOperator.value (o : RegisteredOperator) : Json := .obj
  [("node_id", .str o.nodeId.text), ("payout_destination", .str o.payoutDestination),
    ("uptime_bps_30d", .num (U32.toUInt64 o.uptimeBps30d)),
    ("attestation_streak_days", .num (U32.toUInt64 o.attestationStreakDays)),
    ("bond_sats", .num o.bondSats.toUInt64), ("waiting", .bool o.waiting)]

def creditValue (e : String × U64) : Json :=
  .obj [("node_id", .str e.1), ("sats", .num e.2.toUInt64)]

def lastValue : Option U64 → Json
  | some n => .num n.toUInt64
  | none => .null

def FullRewardPolicy.value (p : FullRewardPolicy) : Json := .obj
  [("min_uptime_bps_30d", .num (U32.toUInt64 p.minUptimeBps30d)),
    ("min_attestation_streak_days", .num (U32.toUInt64 p.minAttestationStreakDays)),
    ("min_bond_sats", .num p.minBondSats.toUInt64),
    ("waiting_pool_share_bps", .num (U32.toUInt64 p.waitingPoolShareBps))]

def MinerEconomy.value (state : MinerEconomy) : Json := .obj
  [("version", .num 1), ("miner_pool_sats", .num state.minerPoolSats.toUInt64),
    ("channels_pool_sats", .num state.channelsPoolSats.toUInt64),
    ("infra_pool_sats", .num state.infraPoolSats.toUInt64),
    ("accrued_profit_sats", .num state.accruedProfitSats.toUInt64),
    ("pending_governance_reward_sats", .num state.pendingGovernanceRewardSats.toUInt64),
    ("crypto_suite_id_pq", .str state.cryptoSuiteIdPq),
    ("last_miner_payout_at_secs", lastValue state.lastMinerPayoutAtSecs),
    ("last_miner_payout_epoch", lastValue state.lastMinerPayoutEpoch),
    ("policy", state.policy.value),
    ("operators", .arr (state.operators.entries.map fun e => e.2.value)),
    ("governance_credits", .arr (state.governanceCredits.entries.map creditValue))]

section Texts

theorem RegisteredOperator.toList_json (o : RegisteredOperator) : o.json.toList = o.value.chars := by
  have hBool (b : Bool) : (toString b).toList = (if b then "true" else "false").toList := by
    cases b <;> rfl
  unfold json value
  simp [Json.chars, Json.fieldChars, Json.quote, Json.escapeChars_cons, Json.escapeChars_nil,
    escapeJson_toList, toString_text, U64.toNat_toUInt64, U32.toNat_toUInt64, hBool]

theorem toList_creditJson (e : String × U64) : (creditJson e).toList = (creditValue e).chars := by
  unfold creditJson creditValue
  simp [Json.chars, Json.fieldChars, Json.quote, Json.escapeChars_cons, Json.escapeChars_nil,
    escapeJson_toList, toString_text, U64.toNat_toUInt64]

theorem toList_lastJson (n : Option U64) : (lastJson n).toList = (lastValue n).chars := by
  cases n with
  | none => rfl
  | some n => simp [lastJson, lastValue, Json.chars, U64.toNat_toUInt64]

set_option maxRecDepth 4000 in
/-- The text of a state is that of its value. -/
theorem serializeEconomy_eq (state : MinerEconomy) :
    serializeEconomy state = state.value.render := by
  have hVersion : Nat.toDigits 10 1 = ['1'] := by decide
  rw [Json.render, ← String.toList_inj, String.toList_ofList]
  unfold serializeEconomy MinerEconomy.value FullRewardPolicy.value
  simp [hVersion, Json.chars, Json.fieldChars, Json.quote, Json.itemChars_eq, Json.escapeChars_cons,
    Json.escapeChars_nil, escapeJson_toList, toString_text, String.toList_intercalate,
    U64.toNat_toUInt64, U32.toNat_toUInt64, Function.comp_def, RegisteredOperator.toList_json,
    toList_creditJson, toList_lastJson]

end Texts

/-! ## Loading -/

/-- `as_u64().unwrap_or(default)`. -/
def u64Or (v : Json) (default : U64) : U64 := (v.asU64.map U64.ofUInt64).getD default

/-- An operator of `load_economy`. One without a node, or that is refused, is left out. -/
def loadOperator (state : MinerEconomy) (o : Json) : MinerEconomy :=
  match h : NodeId.new ((o.field "node_id").asStr.getD "") with
  | .error _ => state
  | .ok nodeId =>
    (state.upsertOperator
      { nodeId
        made := NodeId.new_text h
        payoutDestination := (o.field "payout_destination").asStr.getD ""
        uptimeBps30d := castU32 (u64Or (o.field "uptime_bps_30d") (toU64 0)).1
        attestationStreakDays := castU32 (u64Or (o.field "attestation_streak_days") (toU64 0)).1
        bondSats := u64Or (o.field "bond_sats") (toU64 0)
        waiting := (o.field "waiting").asBool.getD false }).2

def loadCredit (credits : SortedMap String U64) (c : Json) : SortedMap String U64 :=
  match (c.field "node_id").asStr, (c.field "sats").asU64 with
  | some id, some sats => credits.insert id (U64.ofUInt64 sats)
  | _, _ => credits

def loadPolicy (p : Json) : FullRewardPolicy :=
  { minUptimeBps30d := castU32 (u64Or (p.field "min_uptime_bps_30d") (toU64 9500)).1
    minAttestationStreakDays :=
      castU32 (u64Or (p.field "min_attestation_streak_days") (toU64 1)).1
    minBondSats := u64Or (p.field "min_bond_sats") (toU64 0)
    waitingPoolShareBps := castU32 (u64Or (p.field "waiting_pool_share_bps") (toU64 0)).1 }

/-- The numbers, the suite and the policy of `load_economy`. -/
def loadNumbers (v : Json) : MinerEconomy :=
  { MinerEconomy.newOpen with
    minerPoolSats := u64Or (v.field "miner_pool_sats") (toU64 0)
    channelsPoolSats := u64Or (v.field "channels_pool_sats") (toU64 0)
    infraPoolSats := u64Or (v.field "infra_pool_sats") (toU64 0)
    accruedProfitSats := u64Or (v.field "accrued_profit_sats") (toU64 0)
    pendingGovernanceRewardSats := u64Or (v.field "pending_governance_reward_sats") (toU64 0)
    cryptoSuiteIdPq := (v.field "crypto_suite_id_pq").asStr.getD MinerEconomy.newOpen.cryptoSuiteIdPq
    lastMinerPayoutAtSecs := (v.field "last_miner_payout_at_secs").asU64.map U64.ofUInt64
    lastMinerPayoutEpoch := (v.field "last_miner_payout_epoch").asU64.map U64.ofUInt64
    policy :=
      match v.get "policy" with
      | some p => loadPolicy p
      | none => MinerEconomy.newOpen.policy }

/-- `load_economy`, with the text of the file. -/
def loadEconomy (serde : SerdeJson) (raw : String) : Except DomainError MinerEconomy :=
  match serde.fromStr raw with
  | .error e => .error (.thresholdError s!"economy json: {e}")
  | .ok v =>
    let state := ((v.field "operators").asArray.getD []).foldl loadOperator (loadNumbers v)
    let governanceCredits :=
      ((v.field "governance_credits").asArray.getD []).foldl loadCredit .empty
    .ok { state with governanceCredits }

section Loading

theorem u64Or_num (n : U64) (default : U64) : u64Or (.num n.toUInt64) default = n :=
  U64.ofUInt64_toUInt64 n

theorem castU32_u64Or (n : U32) (default : U64) :
    castU32 (u64Or (.num (U32.toUInt64 n)) default).1 = n := by
  have hValue : (u64Or (.num (U32.toUInt64 n)) default).1 = n.1 := U32.toNat_toUInt64 n
  rw [hValue, castU32_val]

theorem u64Or_normal (v : Json) (default : U64) : u64Or v.normal default = u64Or v default := by
  rw [u64Or, Json.asU64_normal, u64Or]

theorem asU64_lastValue (n : Option U64) :
    (lastValue n).asU64.map U64.ofUInt64 = n := by
  cases n with
  | none => rfl
  | some n => exact congrArg some (U64.ofUInt64_toUInt64 n)

/-- An operator whose destination is legal is loaded back. -/
theorem loadOperator_value (state : MinerEconomy) {o : RegisteredOperator}
    (hLegal : ¬ MinerEconomy.IllegalDestination o.payoutDestination) :
    loadOperator state o.value.normal =
      { state with operators := state.operators.insert o.nodeId.text o } := by
  have hField (k : String) : o.value.normal.field k = (o.value.field k).normal :=
    Json.field_normal (by simp) k
  -- member by member: what is read is what was printed
  have hNode : (o.value.normal.field "node_id").asStr.getD "" = o.nodeId.text := by
    rw [hField, Json.asStr_normal]
    rfl
  have hDestination : (o.value.normal.field "payout_destination").asStr.getD "" =
      o.payoutDestination := by
    rw [hField, Json.asStr_normal]
    rfl
  have hUptime : castU32 (u64Or (o.value.normal.field "uptime_bps_30d") (toU64 0)).1 =
      o.uptimeBps30d := by
    rw [hField, u64Or_normal]
    exact castU32_u64Or _ _
  have hStreak : castU32 (u64Or (o.value.normal.field "attestation_streak_days") (toU64 0)).1 =
      o.attestationStreakDays := by
    rw [hField, u64Or_normal]
    exact castU32_u64Or _ _
  have hBond : u64Or (o.value.normal.field "bond_sats") (toU64 0) = o.bondSats := by
    rw [hField, u64Or_normal]
    exact u64Or_num _ _
  have hWaiting : (o.value.normal.field "waiting").asBool.getD false = o.waiting := by
    rw [hField, Json.asBool_normal]
    rfl
  -- the node id was made by `NodeId::new`, so that it is made again
  unfold loadOperator
  split
  · rename_i e h
    rw [hNode, o.made] at h
    cases h
  · rename_i nodeId h
    rw [hNode, o.made] at h
    cases h
    simp only [hDestination, hUptime, hStreak, hBond, hWaiting]
    unfold MinerEconomy.upsertOperator
    rw [if_neg hLegal]

/-- The operators, one after the other. -/
theorem foldl_loadOperator {entries : List (String × RegisteredOperator)} {state : MinerEconomy}
    (hKeyed : ∀ e ∈ entries, e.2.nodeId.text = e.1)
    (hLegal : ∀ e ∈ entries, ¬ MinerEconomy.IllegalDestination e.2.payoutDestination) :
    (entries.map fun e => e.2.value.normal).foldl loadOperator state =
      { state with
        operators := entries.foldl (fun m e => m.insert e.1 e.2) state.operators } := by
  induction entries generalizing state with
  | nil => rfl
  | cons e rest ih =>
    obtain ⟨hKey, hKeys⟩ := List.forall_mem_cons.mp hKeyed
    obtain ⟨hFirst, hRest⟩ := List.forall_mem_cons.mp hLegal
    rw [List.map_cons, List.foldl_cons, loadOperator_value state hFirst, ih hKeys hRest,
      List.foldl_cons, hKey]

theorem loadCredit_value (credits : SortedMap String U64) (e : String × U64) :
    loadCredit credits (creditValue e).normal = credits.insert e.1 e.2 := by
  have hField (k : String) : (creditValue e).normal.field k = ((creditValue e).field k).normal :=
    Json.field_normal (by simp) k
  have hNode : ((creditValue e).field "node_id").asStr = some e.1 := rfl
  have hSats : ((creditValue e).field "sats").asU64 = some e.2.toUInt64 := rfl
  unfold loadCredit
  rw [hField, hField, Json.asStr_normal, Json.asU64_normal, hNode, hSats]
  dsimp only
  rw [U64.ofUInt64_toUInt64]

theorem loadPolicy_value (p : FullRewardPolicy) : loadPolicy p.value.normal = p := by
  have hField (k : String) : p.value.normal.field k = (p.value.field k).normal :=
    Json.field_normal (by simp) k
  unfold loadPolicy
  simp only [hField, u64Or_normal]
  show FullRewardPolicy.mk (castU32 (u64Or (.num (U32.toUInt64 _)) _).1)
    (castU32 (u64Or (.num (U32.toUInt64 _)) _).1) (u64Or (.num (U64.toUInt64 _)) _)
    (castU32 (u64Or (.num (U32.toUInt64 _)) _).1) = p
  rw [castU32_u64Or, castU32_u64Or, castU32_u64Or, u64Or_num]

/-- The numbers of a state are loaded back. -/
theorem loadNumbers_value (state : MinerEconomy) :
    loadNumbers state.value.normal =
      { state with operators := .empty, governanceCredits := .empty } := by
  have hField (k : String) : state.value.normal.field k = (state.value.field k).normal :=
    Json.field_normal (by simp) k
  have hPolicy : state.value.normal.get "policy" = some state.policy.value.normal :=
    Json.get_normal (by simp) "policy"
  unfold loadNumbers
  simp only [hField, u64Or_normal, Json.asStr_normal, Json.asU64_normal, hPolicy, loadPolicy_value]
  have hLast : ((state.value.field "last_miner_payout_at_secs").asU64.map U64.ofUInt64 =
      state.lastMinerPayoutAtSecs) ∧
      ((state.value.field "last_miner_payout_epoch").asU64.map U64.ofUInt64 =
        state.lastMinerPayoutEpoch) := ⟨asU64_lastValue _, asU64_lastValue _⟩
  -- a pool is read by its name, with zero where it is missing
  have hPools (name : String) (n : U64) (h : state.value.field name = .num n.toUInt64) :
      u64Or (state.value.field name) (toU64 0) = n := by
    rw [h, u64Or_num]
  rw [hLast.1, hLast.2, hPools "miner_pool_sats" state.minerPoolSats rfl,
    hPools "channels_pool_sats" state.channelsPoolSats rfl,
    hPools "infra_pool_sats" state.infraPoolSats rfl,
    hPools "accrued_profit_sats" state.accruedProfitSats rfl,
    hPools "pending_governance_reward_sats" state.pendingGovernanceRewardSats rfl]
  rfl

end Loading

/-! ## Control characters -/

namespace MinerEconomy

/-- No node id and no destination of an operator has a control character. -/
def Printable (state : MinerEconomy) : Prop :=
  ∀ e ∈ state.operators.entries,
    Json.Clear e.2.nodeId.text ∧ Json.Clear e.2.payoutDestination

theorem clean_operator (o : RegisteredOperator) :
    o.value.Clean ↔ Json.Clear o.nodeId.text ∧ Json.Clear o.payoutDestination := by
  have hNames : Json.Clear "node_id" ∧ Json.Clear "payout_destination" ∧
      Json.Clear "uptime_bps_30d" ∧ Json.Clear "attestation_streak_days" ∧
      Json.Clear "bond_sats" ∧ Json.Clear "waiting" := by
    decide
  unfold RegisteredOperator.value
  simp [Json.Clean, Json.CleanFields, hNames]

/-- Only the operators can have one. -/
theorem Kept.clean_value {state : MinerEconomy} (h : state.Kept) :
    state.value.Clean ↔ state.Printable := by
  have hNames : Json.Clear "version" ∧ Json.Clear "miner_pool_sats" ∧
      Json.Clear "channels_pool_sats" ∧ Json.Clear "infra_pool_sats" ∧
      Json.Clear "accrued_profit_sats" ∧ Json.Clear "pending_governance_reward_sats" ∧
      Json.Clear "crypto_suite_id_pq" ∧ Json.Clear "last_miner_payout_at_secs" ∧
      Json.Clear "last_miner_payout_epoch" ∧ Json.Clear "policy" ∧ Json.Clear "operators" ∧
      Json.Clear "governance_credits" ∧ Json.Clear "ml-dsa-65-placeholder" := by
    decide
  have hPolicyNames : Json.Clear "min_uptime_bps_30d" ∧ Json.Clear "min_attestation_streak_days" ∧
      Json.Clear "min_bond_sats" ∧ Json.Clear "waiting_pool_share_bps" := by
    decide
  have hCreditNames : Json.Clear "node_id" ∧ Json.Clear "sats" := by
    decide
  have hPolicy : state.policy.value.Clean := by
    unfold FullRewardPolicy.value
    simp [Json.Clean, Json.CleanFields, hPolicyNames]
  have hLast (n : Option U64) : (lastValue n).Clean := by
    cases n <;> trivial
  have hOperators : Json.CleanItems (state.operators.entries.map fun e => e.2.value) ↔
      state.Printable := by
    rw [Json.cleanItems_iff, List.forall_mem_map]
    exact forall₂_congr fun e _ => clean_operator e.2
  have hCredits : state.Printable →
      Json.CleanItems (state.governanceCredits.entries.map creditValue) := by
    intro hPrintable
    rw [Json.cleanItems_iff, List.forall_mem_map]
    intro e he
    -- a credit is under the id of an operator
    obtain ⟨op, hOp⟩ := SortedMap.mem_keys_iff.mp (h.credited e.1 (List.mem_map_of_mem he))
    have hMem := SortedMap.mem_entries_iff.mpr hOp
    have hId : op.nodeId.text = e.1 := h.keyed _ hMem
    have hClear : Json.Clear e.1 := hId ▸ (hPrintable _ hMem).1
    unfold creditValue
    simp [Json.Clean, Json.CleanFields, hCreditNames, hClear]
  unfold value
  simp only [Json.Clean, Json.CleanFields, hNames, hPolicy, hLast, h.suite, hOperators, true_and,
    and_true]
  exact and_iff_left_of_imp hCredits

theorem depth_value (state : MinerEconomy) : state.value.depth < 128 := by
  have hOperators : Json.itemsDepth (state.operators.entries.map fun e => e.2.value) ≤ 1 :=
    Json.itemsDepth_le (List.forall_mem_map.mpr fun _ _ => le_refl 1)
  have hCredits : Json.itemsDepth (state.governanceCredits.entries.map creditValue) ≤ 1 :=
    Json.itemsDepth_le (List.forall_mem_map.mpr fun _ _ => le_refl 1)
  have hPolicy : state.policy.value.depth = 1 := rfl
  have hLast (n : Option U64) : (lastValue n).depth = 0 := by
    cases n <;> rfl
  unfold value
  simp only [Json.depth, Json.fieldsDepth, hPolicy, hLast]
  omega

end MinerEconomy

/-! ## The round trip -/

section RoundTrip

variable (serde : SerdeJson) {state : MinerEconomy}

/-- A printable state is loaded back. -/
theorem loadEconomy_printable (h : state.Kept) (hPrintable : state.Printable) :
    loadEconomy serde (serializeEconomy state) = .ok state := by
  have hReads := serde.reads _ (h.clean_value.mpr hPrintable) state.depth_value
  have hField (k : String) : state.value.normal.field k = (state.value.field k).normal :=
    Json.field_normal (by simp) k
  have hArrays : (state.value.field "operators").asArray =
        some (state.operators.entries.map fun e => e.2.value) ∧
      (state.value.field "governance_credits").asArray =
        some (state.governanceCredits.entries.map creditValue) := ⟨rfl, rfl⟩
  have hOperators : (state.operators.entries.map fun e => e.2.value.normal).foldl loadOperator
      (loadNumbers state.value.normal) = _ := foldl_loadOperator h.keyed h.legal
  have hCredits : (state.governanceCredits.entries.map fun e => (creditValue e).normal).foldl
      loadCredit .empty = state.governanceCredits := by
    rw [List.foldl_map]
    simp only [loadCredit_value]
    exact state.governanceCredits.ofList_entries
  have hAll : state.operators.entries.foldl (fun m e => m.insert e.1 e.2) .empty =
      state.operators := state.operators.ofList_entries
  -- the text reads back as the value, and each part of the value as it was
  unfold loadEconomy
  rw [serializeEconomy_eq, hReads]
  simp only [hField, Json.asArray_normal, hArrays.1, hArrays.2, Option.map_some, Option.getD_some,
    List.map_map, Function.comp_def, hCredits]
  rw [hOperators, loadNumbers_value, hAll]

/-- A state with a control character is refused. -/
theorem loadEconomy_control (h : state.Kept) (hControl : ¬ state.Printable) :
    ∃ e, loadEconomy serde (serializeEconomy state) = .error e := by
  obtain ⟨e, hRefuses⟩ := serde.refuses _ (mt h.clean_value.mp hControl)
  unfold loadEconomy
  rw [serializeEconomy_eq, hRefuses]
  exact ⟨_, rfl⟩

theorem loadEconomy_iff (h : state.Kept) :
    loadEconomy serde (serializeEconomy state) = .ok state ↔ state.Printable := by
  constructor
  · intro hLoad
    by_contra hControl
    obtain ⟨e, hRefused⟩ := loadEconomy_control serde h hControl
    rw [hRefused] at hLoad
    cases hLoad
  · exact loadEconomy_printable serde h

/-- After any calls on an open economy, its text is loaded back exactly where no operator has
a control character. -/
theorem economy_roundTrip_iff (calls : List EconomyCall) :
    let state := Runs.run EconomyCall.step .newOpen calls
    loadEconomy serde (serializeEconomy state) = .ok state ↔ state.Printable :=
  loadEconomy_iff serde (MinerEconomy.kept_of_calls calls)

end RoundTrip

/-- An operator with a control character in its destination. -/
def controlOperator : RegisteredOperator :=
  { nodeId := ⟨"m1"⟩
    made := NodeId.new_m1
    payoutDestination := "bc1q\x01"
    uptimeBps30d := castU32 9900
    attestationStreakDays := castU32 1
    bondSats := toU64 0
    waiting := false }

/-- It is registered, and the file is not loaded again. -/
theorem economy_roundTrip_fails :
    (EconomyCall.run .newOpen (.upsertOperator controlOperator)).1 = .ok () ∧
      let state := Runs.run EconomyCall.step .newOpen [.upsertOperator controlOperator]
      loadEconomy compactJson (serializeEconomy state) ≠ .ok state := by
  refine ⟨by decide, fun hLoad => ?_⟩
  have hEntries : (Runs.run EconomyCall.step MinerEconomy.newOpen
      [.upsertOperator controlOperator]).operators.entries = [("m1", controlOperator)] := by decide
  obtain ⟨e, hRefused⟩ := loadEconomy_control compactJson
    (MinerEconomy.kept_of_calls [.upsertOperator controlOperator]) fun hPrintable => by
      have hClear := (hPrintable ("m1", controlOperator) (hEntries ▸ List.mem_singleton_self _)).2
      exact absurd (hClear '\x01' (by decide)) (by decide)
  rw [hRefused] at hLoad
  cases hLoad

end KeroseneVault
