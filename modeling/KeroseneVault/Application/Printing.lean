import KeroseneVault.Domain.Constitution
import KeroseneVault.Lib.JsonText
import KeroseneVault.Release.Candidate

/-!
# What is printed as JSON

The texts that `format!` makes of a ledger snapshot, a constitution, a gate's
receipt and a release candidate, and the values that they are to be. Strings
stand between quotes as they are; the constitution, and with it the snapshot,
lacks the brace that closes it.

* `FullConstitution.toJson`, `LedgerSnapshot.toJson`, `GateReceipt.toJson`,
  `ReleaseCandidate.toJson` — the texts;
* `Printed` — what is printed, with its text and the value it is to be;
* `Printed.Plain` — nothing in it is to be escaped, and its braces are closed.

Main results:

* `compact_constitutionValue` — the constitution's text lacks one brace;
* `printed_readable_iff` — a printed text is readable exactly where it is plain.
-/

namespace KeroseneVault

open JsonText (Value)

/-! ## Values -/

def textValue (s : String) : Value := .str s.toList

def natValue (n : Nat) : Value := .num (Nat.toDigits 10 n)

/-- The members of an object. -/
def objectOf (members : List (String × Value)) : Value :=
  .obj (members.map fun m => (m.1.toList, m.2))

/-- Nothing in the text is to be escaped. -/
def PlainText (s : String) : Prop := ∀ c ∈ s.toList, JsonText.needsEscape c = false

instance decidablePlainText (s : String) : Decidable (PlainText s) :=
  List.decidableBAll _ s.toList

theorem escapes_textValue {s : String} : JsonText.escapes (textValue s) = 0 ↔ PlainText s := by
  rw [textValue, JsonText.escapes, List.countP_eq_zero]
  unfold PlainText
  simp

theorem escapes_natValue (n : Nat) : JsonText.escapes (natValue n) = 0 := by
  rw [natValue, JsonText.escapes]

theorem wf_textValue (s : String) : JsonText.Wf (textValue s) := by
  rw [textValue, JsonText.Wf]
  trivial

theorem wf_natValue (n : Nat) : JsonText.Wf (natValue n) := by
  rw [natValue, JsonText.Wf]
  exact JsonText.isNumber_toDigits n

theorem wf_boolValue (b : Bool) : JsonText.Wf (.bool b) := by
  rw [JsonText.Wf]
  trivial

/-- An object whose names differ. -/
theorem wf_objectOf {members : List (String × Value)} (hNames : (members.map Prod.fst).Nodup)
    (hValues : ∀ m ∈ members, JsonText.Wf m.2) : JsonText.Wf (objectOf members) := by
  rw [objectOf, JsonText.Wf]
  constructor
  · have hMap : (members.map fun m => (m.1.toList, m.2)).map Prod.fst =
        (members.map Prod.fst).map String.toList := by
      rw [List.map_map, List.map_map]
      rfl
    rw [hMap]
    exact hNames.map fun _ _ => String.toList_inj.mp
  · rw [JsonText.wfMembers_iff]
    intro m hm
    obtain ⟨m', hm', rfl⟩ := List.mem_map.mp hm
    exact hValues m' hm'

/-- An object without escapes in its names has those of its values. -/
theorem escapes_objectOf {members : List (String × Value)}
    (hNames : ∀ name ∈ members.map Prod.fst, PlainText name) :
    JsonText.escapes (objectOf members) = 0 ↔ ∀ m ∈ members, JsonText.escapes m.2 = 0 := by
  rw [objectOf, JsonText.escapes, JsonText.membersEscapes_eq_zero_iff]
  constructor
  · intro h m hm
    exact (h _ (List.mem_map_of_mem hm)).2
  · intro h m hm
    obtain ⟨m', hm', rfl⟩ := List.mem_map.mp hm
    have hPlain := hNames m'.1 (List.mem_map_of_mem hm')
    exact ⟨List.countP_eq_zero.mpr (by simpa [PlainText] using hPlain), h m' hm'⟩

/-- A list of values. -/
theorem wf_arr {items : List Value} (h : ∀ v ∈ items, JsonText.Wf v) :
    JsonText.Wf (.arr items) := by
  rw [JsonText.Wf, JsonText.wfItems_iff]
  exact h

theorem escapes_arr {items : List Value} :
    JsonText.escapes (.arr items) = 0 ↔ ∀ v ∈ items, JsonText.escapes v = 0 := by
  rw [JsonText.escapes, JsonText.itemsEscapes_eq_zero_iff]

/-- Texts with commas between them. -/
theorem toList_joined {α : Type} {print : α → String} {read : α → Value}
    (h : ∀ a, (print a).toList = JsonText.compact (read a)) (items : List α) :
    (String.intercalate "," (items.map print)).toList =
      JsonText.compactItems (items.map read) := by
  have hItems : (items.map print).map String.toList = (items.map read).map JsonText.compact := by
    rw [List.map_map, List.map_map]
    exact List.map_congr_left fun a _ => h a
  rw [String.toList_intercalate, hItems, JsonText.compactItems_eq]
  rfl

/-- Texts between quotes, with commas between them. -/
def quotedList (texts : List String) : String :=
  String.intercalate "," (texts.map fun s => s!"\"{s}\"")

theorem toList_quotedList (texts : List String) :
    (quotedList texts).toList = JsonText.compactItems (texts.map textValue) := by
  refine toList_joined (fun s => ?_) texts
  simp only [textValue, JsonText.compact, String.toList_append, toString_text]
  simp

/-! ## The receipt -/

namespace GateReceipt

def toJson (r : GateReceipt) : String :=
  s!"\x7b\"intent_id\":\"{r.intentId}\",\"bucket\":\"{r.bucket.asStr}\"," ++
    s!"\"amount_sats\":{r.amountSats},\"status\":\"{r.status}\"\x7d"

def value (r : GateReceipt) : Value :=
  objectOf [("intent_id", textValue r.intentId), ("bucket", textValue r.bucket.asStr),
    ("amount_sats", natValue r.amountSats), ("status", textValue r.status)]

/-- Its intent's id, and its status, have nothing to escape. -/
def Plain (r : GateReceipt) : Prop := PlainText r.intentId ∧ PlainText r.status

theorem toList_toJson (r : GateReceipt) : r.toJson.toList = JsonText.compact r.value := by
  unfold toJson value
  simp only [String.toList_append, toString_text, objectOf, JsonText.compact, List.map_cons,
    List.map_nil, JsonText.compactMembers, textValue, natValue]
  simp

theorem wf_value (r : GateReceipt) : JsonText.Wf r.value := by
  refine wf_objectOf (by simp) ?_
  simp only [List.forall_mem_cons, List.not_mem_nil, false_imp_iff, implies_true, and_true]
  exact ⟨wf_textValue _, wf_textValue _, wf_natValue _, wf_textValue _⟩

theorem plainText_bucket (b : BucketKind) : PlainText b.asStr := by
  cases b <;> decide

theorem escapes_value (r : GateReceipt) : JsonText.escapes r.value = 0 ↔ r.Plain := by
  have hNames : ∀ name ∈ ["intent_id", "bucket", "amount_sats", "status"], PlainText name := by
    decide
  rw [value, escapes_objectOf]
  swap
  · exact hNames
  simp only [List.forall_mem_cons, List.not_mem_nil, false_imp_iff, implies_true, and_true,
    escapes_textValue, escapes_natValue, plainText_bucket, true_and]
  exact Iff.rfl

/-- What the gate says of it is plain in either phase. -/
theorem plain_receipt (phase : GateIntent.Phase) (intent : SettlementIntent) :
    (GateIntent.receipt phase intent).Plain ↔ PlainText intent.intentId := by
  cases phase with
  | reserve => exact and_iff_left (by decide : PlainText "RESERVED")
  | consume => exact and_iff_left (by decide : PlainText "ACCEPTED")

end GateReceipt

/-! ## The candidate -/

namespace ReleaseCandidate

/-- The rebuild of a vault. -/
def rebuildJson (rebuild : String × ContentHash) : String :=
  s!"\x7b\"vault\":\"{rebuild.1}\",\"hb\":\"{rebuild.2.text}\"\x7d"

def rebuildValue (rebuild : String × ContentHash) : Value :=
  objectOf [("vault", textValue rebuild.1), ("hb", textValue rebuild.2.text)]

def reasonJson : Option String → String
  | some r => s!"\"{r}\""
  | none => "null"

def reasonValue : Option String → Value
  | some r => textValue r
  | none => .null

def toJson (c : ReleaseCandidate) : String :=
  s!"\x7b\"id\":\"{c.id}\",\"hs\":\"{c.hs.text}\",\"hb\":\"{c.hb.text}\"," ++
    s!"\"constitution_hash\":\"{c.constitutionHash}\"," ++
    s!"\"council_sigs\":[{quotedList c.councilSigs.keys}]," ++
    "\"rebuilds\":[" ++ String.intercalate "," (c.rebuilds.entries.map rebuildJson) ++
    s!"],\"cosigns\":[{quotedList c.cosigns.keys}],\"created_at_secs\":{c.createdAtSecs.1}," ++
    s!"\"phase\":\"{c.phase.asStr}\",\"reject_reason\":{reasonJson c.rejectReason}\x7d"

def printedValue (c : ReleaseCandidate) : Value :=
  objectOf [("id", textValue c.id), ("hs", textValue c.hs.text), ("hb", textValue c.hb.text),
    ("constitution_hash", textValue c.constitutionHash),
    ("council_sigs", .arr (c.councilSigs.keys.map textValue)),
    ("rebuilds", .arr (c.rebuilds.entries.map rebuildValue)),
    ("cosigns", .arr (c.cosigns.keys.map textValue)),
    ("created_at_secs", natValue c.createdAtSecs.1), ("phase", textValue c.phase.asStr),
    ("reject_reason", reasonValue c.rejectReason)]

/-- The texts that it was given have nothing to escape. -/
structure Plain (c : ReleaseCandidate) : Prop where
  id : PlainText c.id
  constitutionHash : PlainText c.constitutionHash
  councilSigs : ∀ s ∈ c.councilSigs.keys, PlainText s
  rebuilds : ∀ e ∈ c.rebuilds.entries, PlainText e.1
  cosigns : ∀ s ∈ c.cosigns.keys, PlainText s
  rejectReason : ∀ r ∈ c.rejectReason, PlainText r

theorem toList_rebuilds (rebuilds : List (String × ContentHash)) :
    (String.intercalate "," (rebuilds.map rebuildJson)).toList =
      JsonText.compactItems (rebuilds.map rebuildValue) := by
  refine toList_joined (fun rebuild => ?_) rebuilds
  simp only [rebuildJson, rebuildValue, objectOf, textValue, List.map_cons, List.map_nil,
    JsonText.compact, JsonText.compactMembers, String.toList_append, toString_text]
  simp

theorem compact_reason (reason : Option String) :
    (reasonJson reason).toList = JsonText.compact (reasonValue reason) := by
  cases reason with
  | none => rfl
  | some r =>
    simp only [reasonJson, reasonValue, textValue, JsonText.compact, String.toList_append,
      toString_text]
    simp

theorem toList_toJson (c : ReleaseCandidate) :
    c.toJson.toList = JsonText.compact c.printedValue := by
  unfold toJson printedValue
  simp only [String.toList_append, toString_text, toList_quotedList, toList_rebuilds,
    compact_reason, objectOf, List.map_cons, List.map_nil, JsonText.compact,
    JsonText.compactMembers, textValue, natValue]
  simp

/-- A candidate is a value: its names differ, and so does each rebuild's. -/
theorem wf_value (c : ReleaseCandidate) : JsonText.Wf c.printedValue := by
  -- first the members that are no plain texts
  have hTexts (texts : List String) : JsonText.Wf (.arr (texts.map textValue)) := by
    refine wf_arr fun v hv => ?_
    obtain ⟨s, -, rfl⟩ := List.mem_map.mp hv
    exact wf_textValue s
  have hRebuilds : JsonText.Wf (.arr (c.rebuilds.entries.map rebuildValue)) := by
    refine wf_arr fun v hv => ?_
    obtain ⟨e, -, rfl⟩ := List.mem_map.mp hv
    refine wf_objectOf (by simp) ?_
    simp only [List.forall_mem_cons, List.not_mem_nil, false_imp_iff, implies_true, and_true]
    exact ⟨wf_textValue _, wf_textValue _⟩
  have hReason : JsonText.Wf (reasonValue c.rejectReason) := by
    cases c.rejectReason with
    | none => rw [reasonValue, JsonText.Wf]; trivial
    | some r => exact wf_textValue r
  refine wf_objectOf (by simp) ?_
  simp only [List.forall_mem_cons, List.not_mem_nil, false_imp_iff, implies_true, and_true]
  exact ⟨wf_textValue _, wf_textValue _, wf_textValue _, wf_textValue _, hTexts _, hRebuilds,
    hTexts _, wf_natValue _, wf_textValue _, hReason⟩

theorem plainText_phase (phase : ReleasePhase) : PlainText phase.asStr := by
  cases phase <;> decide

/-- The digits of a hash are plain. -/
theorem plainText_hash (hash : ContentHash) : PlainText hash.text := by
  intro c hc
  have hDigit := (isAsciiHexdigit_of_hexDigit (hash.hex.2 c hc)).1
  have hAll : PlainText "0123456789abcdefABCDEF" := by
    decide
  exact hAll c (List.contains_iff_mem.mp hDigit)

/-- It has nothing to escape just where every text that came from outside is plain. -/
theorem escapes_value (c : ReleaseCandidate) : JsonText.escapes c.printedValue = 0 ↔ c.Plain := by
  -- the lists of node ids, and the rebuilds, which are objects
  have hTexts (texts : List String) :
      JsonText.escapes (.arr (texts.map textValue)) = 0 ↔ ∀ s ∈ texts, PlainText s := by
    rw [escapes_arr, List.forall_mem_map]
    exact forall₂_congr fun s _ => escapes_textValue
  have hRebuild (e : String × ContentHash) :
      JsonText.escapes (rebuildValue e) = 0 ↔ PlainText e.1 := by
    have hNames : ∀ name ∈ ["vault", "hb"], PlainText name := by
      decide
    rw [rebuildValue, escapes_objectOf]
    swap
    · exact hNames
    simp [escapes_textValue, plainText_hash]
  have hRebuilds : JsonText.escapes (.arr (c.rebuilds.entries.map rebuildValue)) = 0 ↔
      ∀ e ∈ c.rebuilds.entries, PlainText e.1 := by
    rw [escapes_arr, List.forall_mem_map]
    exact forall₂_congr fun e _ => hRebuild e
  have hReason : JsonText.escapes (reasonValue c.rejectReason) = 0 ↔
      ∀ r ∈ c.rejectReason, PlainText r := by
    cases c.rejectReason with
    | none => simp [reasonValue, JsonText.escapes]
    | some r => simp [reasonValue, escapes_textValue]
  have hNames : ∀ name ∈ ["id", "hs", "hb", "constitution_hash", "council_sigs", "rebuilds",
      "cosigns", "created_at_secs", "phase", "reject_reason"], PlainText name := by
    decide
  -- the names of the members are plain, and so are hashes and phases
  rw [printedValue, escapes_objectOf]
  swap
  · exact hNames
  simp only [List.forall_mem_cons, List.not_mem_nil, false_imp_iff, implies_true, and_true,
    escapes_textValue, escapes_natValue, hTexts, hRebuilds, hReason, plainText_hash,
    plainText_phase, true_and]
  constructor
  · rintro ⟨hId, hConstitution, hSigs, hRebuilt, hCosigns, hRejected⟩
    exact ⟨hId, hConstitution, hSigs, hRebuilt, hCosigns, hRejected⟩
  · rintro ⟨hId, hConstitution, hSigs, hRebuilt, hCosigns, hRejected⟩
    exact ⟨hId, hConstitution, hSigs, hRebuilt, hCosigns, hRejected⟩

end ReleaseCandidate

/-! ## The constitution -/

namespace FullConstitution

/-- `Constitution::to_json`. The braces of the inner objects are closed, and its own is not. -/
def toJson (c : FullConstitution) : String :=
  let pin := c.measurementPin.getD ""
  s!"\x7b\"version\":{c.version},\"max_withdraw_per_day_sats\":{c.maxWithdrawPerDaySats}," ++
    s!"\"max_withdraw_per_tx_sats\":{c.maxWithdrawPerTxSats},\"signing_n\":{c.signingN}," ++
    s!"\"signing_t\":{c.signingT},\"governance_t\":{c.governanceT}," ++
    s!"\"p_reward_bps\":{c.pRewardBps},\"p_reward_max_bps\":{c.pRewardMaxBps}," ++
    s!"\"profit_splits\":\x7b\"miners_bps\":{c.profitSplits.minersBps}," ++
    s!"\"channels_bps\":{c.profitSplits.channelsBps}," ++
    s!"\"infra_bps\":{c.profitSplits.infraBps}\x7d," ++
    s!"\"crypto_suite_id\":\"{c.cryptoSuiteId}\",\"hash\":\"{c.hash}\"," ++
    s!"\"measurement_pin\":\"{pin}\"," ++
    s!"\"downgrade_policy\":\x7b\"pq_kem_cat\":{c.downgradePolicy.pqKemSecurityCategory}," ++
    s!"\"pq_sig_cat\":{c.downgradePolicy.pqSignatureSecurityCategory}," ++
    s!"\"sym_bits\":{c.downgradePolicy.symmetricSecurityBits}," ++
    s!"\"hybrid_kem\":{c.downgradePolicy.hybridKemRequired}," ++
    s!"\"hybrid_sig\":{c.downgradePolicy.hybridSignatureRequired}," ++
    s!"\"req_pq_sig\":{c.downgradePolicy.requirePqSignatures}," ++
    s!"\"req_pq_kem\":{c.downgradePolicy.requirePqKem}\x7d," ++
    s!"\"format_versions\":\x7b\"intent\":{c.formatVersions.intent}," ++
    s!"\"receipt\":{c.formatVersions.receipt}," ++
    s!"\"share_envelope\":{c.formatVersions.shareEnvelope}," ++
    s!"\"dkg_transcript\":{c.formatVersions.dkgTranscript}," ++
    s!"\"reshare_transcript\":{c.formatVersions.reshareTranscript}," ++
    s!"\"certificate\":{c.formatVersions.certificate}," ++
    s!"\"audit_record\":{c.formatVersions.auditRecord}," ++
    s!"\"min_proto\":{c.formatVersions.minProtocolVersion}," ++
    s!"\"current_proto\":{c.formatVersions.currentProtocolVersion}\x7d"

def splitsValue (c : FullConstitution) : Value :=
  objectOf [("miners_bps", natValue c.profitSplits.minersBps),
    ("channels_bps", natValue c.profitSplits.channelsBps),
    ("infra_bps", natValue c.profitSplits.infraBps)]

def policyValue (p : FullDowngradePolicy) : Value :=
  objectOf [("pq_kem_cat", natValue p.pqKemSecurityCategory),
    ("pq_sig_cat", natValue p.pqSignatureSecurityCategory),
    ("sym_bits", natValue p.symmetricSecurityBits), ("hybrid_kem", .bool p.hybridKemRequired),
    ("hybrid_sig", .bool p.hybridSignatureRequired), ("req_pq_sig", .bool p.requirePqSignatures),
    ("req_pq_kem", .bool p.requirePqKem)]

def versionsValue (v : FormatVersions) : Value :=
  objectOf [("intent", natValue v.intent), ("receipt", natValue v.receipt),
    ("share_envelope", natValue v.shareEnvelope), ("dkg_transcript", natValue v.dkgTranscript),
    ("reshare_transcript", natValue v.reshareTranscript), ("certificate", natValue v.certificate),
    ("audit_record", natValue v.auditRecord), ("min_proto", natValue v.minProtocolVersion),
    ("current_proto", natValue v.currentProtocolVersion)]

def value (c : FullConstitution) : Value :=
  objectOf [("version", natValue c.version),
    ("max_withdraw_per_day_sats", natValue c.maxWithdrawPerDaySats),
    ("max_withdraw_per_tx_sats", natValue c.maxWithdrawPerTxSats),
    ("signing_n", natValue c.signingN), ("signing_t", natValue c.signingT),
    ("governance_t", natValue c.governanceT), ("p_reward_bps", natValue c.pRewardBps),
    ("p_reward_max_bps", natValue c.pRewardMaxBps), ("profit_splits", c.splitsValue),
    ("crypto_suite_id", textValue c.cryptoSuiteId), ("hash", textValue c.hash),
    ("measurement_pin", textValue (c.measurementPin.getD "")),
    ("downgrade_policy", policyValue c.downgradePolicy),
    ("format_versions", versionsValue c.formatVersions)]

theorem toList_toString_bool (b : Bool) :
    (toString b).toList = (if b then "true" else "false").toList := by
  cases b <;> rfl

set_option maxRecDepth 4000 in
/-- The text lacks the brace that closes it. -/
theorem toList_toJson (c : FullConstitution) :
    c.toJson.toList ++ ['}'] = JsonText.compact c.value := by
  unfold toJson value splitsValue policyValue versionsValue
  simp only [String.toList_append, toString_text, objectOf, List.map_cons, List.map_nil,
    JsonText.compact, JsonText.compactMembers, textValue, natValue, toList_toString_bool]
  simp

/-- A constitution is a value, the brace that its text lacks apart. -/
theorem wf_value (c : FullConstitution) : JsonText.Wf c.value := by
  have hSplits : JsonText.Wf c.splitsValue := by
    refine wf_objectOf (by simp) ?_
    simp only [List.forall_mem_cons, List.not_mem_nil, false_imp_iff, implies_true, and_true]
    exact ⟨wf_natValue _, wf_natValue _, wf_natValue _⟩
  have hPolicy : JsonText.Wf (policyValue c.downgradePolicy) := by
    refine wf_objectOf (by simp) ?_
    simp only [List.forall_mem_cons, List.not_mem_nil, false_imp_iff, implies_true, and_true]
    exact ⟨wf_natValue _, wf_natValue _, wf_natValue _, wf_boolValue _, wf_boolValue _,
      wf_boolValue _, wf_boolValue _⟩
  have hVersions : JsonText.Wf (versionsValue c.formatVersions) := by
    refine wf_objectOf (by simp) ?_
    simp [wf_natValue]
  refine wf_objectOf (by simp) ?_
  simp only [List.forall_mem_cons, List.not_mem_nil, false_imp_iff, implies_true, and_true]
  exact ⟨wf_natValue _, wf_natValue _, wf_natValue _, wf_natValue _, wf_natValue _, wf_natValue _,
    wf_natValue _, wf_natValue _, hSplits, wf_textValue _, wf_textValue _, wf_textValue _, hPolicy,
    hVersions⟩

theorem length_toJson (c : FullConstitution) :
    c.toJson.toList.length + 1 = (JsonText.compact c.value).length := by
  rw [← c.toList_toJson, List.length_append]
  rfl

/-- One character is missing, whatever the constitution is. -/
theorem not_readable (c : FullConstitution) : ¬JsonText.Readable c.toJson.toList c.value := by
  refine JsonText.not_readable_of_short c.wf_value ?_
  rw [← c.length_toJson]
  exact Nat.lt_succ_self _

end FullConstitution

/-! ## The snapshot -/

/-- `Epoch`, with the hash of its constitution. -/
structure FullEpoch extends Epoch where
  constitutionHash : String
  deriving DecidableEq

def FullEpoch.toJson (e : FullEpoch) : String :=
  s!"\x7b\"number\":{e.number},\"constitution_hash\":\"{e.constitutionHash}\"," ++
    s!"\"active_set\":[{quotedList (e.activeSet.map NodeId.text)}]\x7d"

def FullEpoch.value (e : FullEpoch) : Value :=
  objectOf [("number", natValue e.number), ("constitution_hash", textValue e.constitutionHash),
    ("active_set", .arr ((e.activeSet.map NodeId.text).map textValue))]

/-- `kind_str`. -/
def LedgerEventKind.kindStr : LedgerEventKind → String
  | .genesis => "genesis"
  | .epochAdvanced => "epoch_advanced"
  | .voteRecorded => "vote_recorded"
  | .dayAdvanced => "day_advanced"
  | .reshareCompleted => "reshare_completed"
  | .governanceRewardAccrued => "governance_reward_accrued"
  | .profitAllocated => "profit_allocated"

def LedgerEntry.toJson (e : LedgerEntry) : String :=
  s!"\x7b\"index\":{e.index},\"epoch\":{e.epoch},\"kind\":\"{e.kind.kindStr}\"," ++
    s!"\"payload_hash\":\"{e.payloadHash}\",\"writer\":\"{e.writer.text}\"," ++
    s!"\"prev_hash\":\"{e.prevHash}\",\"entry_hash\":\"{e.entryHash}\"\x7d"

def LedgerEntry.value (e : LedgerEntry) : Value :=
  objectOf [("index", natValue e.index), ("epoch", natValue e.epoch),
    ("kind", textValue e.kind.kindStr), ("payload_hash", textValue e.payloadHash),
    ("writer", textValue e.writer.text), ("prev_hash", textValue e.prevHash),
    ("entry_hash", textValue e.entryHash)]

/-- `LedgerSnapshot`. -/
structure LedgerSnapshot where
  constitutionJson : String
  epochJson : String
  entries : List LedgerEntry

def LedgerSnapshot.toJson (s : LedgerSnapshot) : String :=
  let entries := String.intercalate "," (s.entries.map LedgerEntry.toJson)
  s!"\x7b\"constitution\":{s.constitutionJson},\"epoch\":{s.epochJson},\"entries\":[{entries}]\x7d"

/-- What a ledger port returns. -/
structure LedgerContents where
  constitution : FullConstitution
  epoch : FullEpoch
  entries : List LedgerEntry

namespace LedgerContents

/-- `GetLedgerSnapshot::execute`. -/
def snapshot (l : LedgerContents) : LedgerSnapshot :=
  { constitutionJson := l.constitution.toJson, epochJson := l.epoch.toJson, entries := l.entries }

def value (l : LedgerContents) : Value :=
  objectOf [("constitution", l.constitution.value), ("epoch", l.epoch.value),
    ("entries", .arr (l.entries.map LedgerEntry.value))]

theorem toList_epoch (e : FullEpoch) : e.toJson.toList = JsonText.compact e.value := by
  unfold FullEpoch.toJson FullEpoch.value
  simp only [String.toList_append, toString_text, toList_quotedList, objectOf, List.map_cons,
    List.map_nil, JsonText.compact, JsonText.compactMembers, textValue, natValue]
  simp

theorem toList_entry (e : LedgerEntry) : e.toJson.toList = JsonText.compact e.value := by
  unfold LedgerEntry.toJson LedgerEntry.value
  simp only [String.toList_append, toString_text, objectOf, List.map_cons, List.map_nil,
    JsonText.compact, JsonText.compactMembers, textValue, natValue]
  simp

theorem toList_entries (entries : List LedgerEntry) :
    (String.intercalate "," (entries.map LedgerEntry.toJson)).toList =
      JsonText.compactItems (entries.map LedgerEntry.value) :=
  toList_joined toList_entry entries

/-- The constitution in it lacks its brace, and everything around it is in place. -/
theorem length_toJson (l : LedgerContents) :
    l.snapshot.toJson.toList.length + 1 = (JsonText.compact l.value).length := by
  have hConstitution := l.constitution.length_toJson.symm
  unfold snapshot value LedgerSnapshot.toJson
  simp only [String.toList_append, toString_text, toList_epoch, toList_entries, objectOf,
    List.map_cons, List.map_nil, JsonText.compact, JsonText.compactMembers]
  simp only [List.length_append, List.length_cons, List.length_nil, hConstitution]
  simp
  omega

theorem wf_value (l : LedgerContents) : JsonText.Wf l.value := by
  have hEpoch : JsonText.Wf l.epoch.value := by
    refine wf_objectOf (by simp) ?_
    simp only [List.forall_mem_cons, List.not_mem_nil, false_imp_iff, implies_true, and_true]
    refine ⟨wf_natValue _, wf_textValue _, wf_arr fun v hv => ?_⟩
    obtain ⟨s, -, rfl⟩ := List.mem_map.mp hv
    exact wf_textValue s
  have hEntries : JsonText.Wf (.arr (l.entries.map LedgerEntry.value)) := by
    refine wf_arr fun v hv => ?_
    obtain ⟨e, -, rfl⟩ := List.mem_map.mp hv
    refine wf_objectOf (by simp) ?_
    simp only [List.forall_mem_cons, List.not_mem_nil, false_imp_iff, implies_true, and_true]
    exact ⟨wf_natValue _, wf_natValue _, wf_textValue _, wf_textValue _, wf_textValue _,
      wf_textValue _, wf_textValue _⟩
  refine wf_objectOf (by simp) ?_
  simp only [List.forall_mem_cons, List.not_mem_nil, false_imp_iff, implies_true, and_true]
  exact ⟨l.constitution.wf_value, hEpoch, hEntries⟩

/-- A snapshot is as short of a character as its constitution is. -/
theorem not_readable (l : LedgerContents) :
    ¬JsonText.Readable l.snapshot.toJson.toList l.value := by
  refine JsonText.not_readable_of_short l.wf_value ?_
  rw [← l.length_toJson]
  exact Nat.lt_succ_self _

end LedgerContents

/-! ## What is printed -/

inductive Printed where
  | snapshot (l : LedgerContents)
  | constitution (c : FullConstitution)
  | receipt (phase : GateIntent.Phase) (intent : SettlementIntent)
  | candidate (c : ReleaseCandidate)

namespace Printed

/-- What `to_json` returns. -/
def text : Printed → String
  | snapshot l => l.snapshot.toJson
  | constitution c => c.toJson
  | receipt phase intent => (GateIntent.receipt phase intent).toJson
  | candidate c => c.toJson

/-- What is to be read of it. -/
def value : Printed → Value
  | snapshot l => l.value
  | constitution c => c.value
  | receipt phase intent => (GateIntent.receipt phase intent).value
  | candidate c => c.printedValue

/-- Nothing is to be escaped, and no brace is missing. -/
def Plain : Printed → Prop
  | snapshot _ => False
  | constitution _ => False
  | receipt _ intent => PlainText intent.intentId
  | candidate c => c.Plain

end Printed

/-- What is printed is read as it was where it is plain, and nowhere else. -/
theorem printed_readable_iff (p : Printed) :
    JsonText.Readable p.text.toList p.value ↔ p.Plain := by
  cases p with
  | snapshot l => exact iff_of_false l.not_readable id
  | constitution c => exact iff_of_false c.not_readable id
  | receipt phase intent =>
    rw [Printed.text, GateReceipt.toList_toJson]
    have hRead := JsonText.readable_compact_iff (GateIntent.receipt phase intent).wf_value
    exact (hRead.trans (GateReceipt.escapes_value _)).trans (GateReceipt.plain_receipt phase intent)
  | candidate c =>
    rw [Printed.text, c.toList_toJson]
    exact (JsonText.readable_compact_iff c.wf_value).trans c.escapes_value

/-- The open constitution of three vaults is valid, and its text is not readable. -/
theorem printed_readable_fails :
    ∃ c : FullConstitution, c.validate id = .ok () ∧
      ¬JsonText.Readable (Printed.constitution c).text.toList (Printed.constitution c).value := by
  exact ⟨FullConstitution.openOf .daily, by decide +kernel, FullConstitution.not_readable _⟩

end KeroseneVault
