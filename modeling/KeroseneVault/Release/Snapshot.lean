import KeroseneVault.Lib.Json
import KeroseneVault.Lib.Results
import KeroseneVault.Release.Evidence

/-!
# Snapshots of the release mesh

`release_meta.json`: the texts that `persist_meta` writes with hand-made escapes,
and what `hydrate_meta` makes of them. The escapes cover backslashes and quotes;
a control character in an id or a council name goes into the text as it is, and
the parser refuses it.

* `SerdeJson` — `serde_json::from_str`, with what its documentation says of it;
* `ReleaseCandidate.json`, `AllowlistEntry.json`, `releaseMetaJson` — the texts;
* `ReleaseCandidate.value`, `AllowlistEntry.value`, `releaseMetaValue` — the
  values that they are the texts of;
* `hydrateMeta` — the mesh of a text.

Main results:

* `releaseMetaJson_eq` — the text is that of the value;
* `hydrateCandidate_value` — a candidate reads back;
* `hydrateMeta_clean`, `hydrateMeta_control` — a snapshot reads back exactly where
  no string in it has a control character.
-/

namespace KeroseneVault

/-- `serde_json::from_str` to a `Value`, whose objects keep their fields in the
order of the keys: it reads what is nested at most 127 deep, and refuses a string
with a control character. -/
structure SerdeJson where
  fromStr : String → Except String Json
  reads : ∀ v : Json, v.Clean → v.depth < 128 → fromStr v.render = .ok v.normal
  refuses : ∀ v : Json, ¬ v.Clean → ∃ e, fromStr v.render = .error e

/-- A reader of compact texts, for runs on given inputs. -/
def compactJson : SerdeJson where
  fromStr text :=
    match Json.read text with
    | some v => .ok v.normal
    | none => .error "syntax error"
  reads v hClean _ := by rw [(Json.read_render v).1 hClean]
  refuses v hControl := ⟨"syntax error", by rw [(Json.read_render v).2 hControl]⟩

/-! ## The texts -/

/-- `candidate_json`. -/
def ReleaseCandidate.json (c : ReleaseCandidate) : String :=
  let council := ",".intercalate (c.councilSigs.keys.map fun s => s!"\"{escapeJson s}\"")
  let cosigns := ",".intercalate (c.cosigns.keys.map fun s => s!"\"{escapeJson s}\"")
  let rebuilds := ",".intercalate (c.rebuilds.entries.map fun e =>
    s!"\x7b\"node\":\"{escapeJson e.1}\",\"hb\":\"{escapeJson e.2.text}\"\x7d")
  let reject := (c.rejectReason.map fun s => s!"\"{escapeJson s}\"").getD "null"
  s!"\x7b\"id\":\"{escapeJson c.id}\",\"hs\":\"{escapeJson c.hs.text}\"," ++
  s!"\"hb\":\"{escapeJson c.hb.text}\",\"constitution_hash\":\"{escapeJson c.constitutionHash}\"," ++
  s!"\"created_at_secs\":{c.createdAtSecs.1},\"phase\":\"{c.phase.asStr}\"," ++
  s!"\"reject_reason\":{reject},\"council_sigs\":[{council}]," ++
  s!"\"cosigns\":[{cosigns}],\"rebuilds\":[{rebuilds}]\x7d"

/-- An entry in `persist_meta`. -/
def AllowlistEntry.json (e : AllowlistEntry) : String :=
  s!"\x7b\"release_id\":\"{escapeJson e.releaseId}\",\"hs\":\"{escapeJson e.hs.text}\"," ++
  s!"\"hb\":\"{escapeJson e.hb.text}\",\"activated_at_secs\":{e.activatedAtSecs.1}," ++
  s!"\"constitution_hash\":\"{escapeJson e.constitutionHash}\"\x7d"

/-- The text that `persist_meta` writes. -/
def releaseMetaJson (m : ReleaseMeshState) : String :=
  let candidates := ",".intercalate (m.candidates.entries.map fun e => e.2.json)
  let allowlist := ",".intercalate (m.allowlist.map AllowlistEntry.json)
  s!"\x7b\"version\":1,\"policy\":\x7b\"council_n\":{m.policy.councilN.1}," ++
  s!"\"min_rebuilds\":{m.policy.minRebuilds.1},\"vault_n\":{m.policy.vaultN.1}," ++
  s!"\"timelock_secs\":{m.policy.timelockSecs.1}," ++
  s!"\"lab_timelock_scale\":{m.policy.labTimelockScale.1}\x7d," ++
  s!"\"candidates\":[{candidates}]," ++
  s!"\"allowlist\":[{allowlist}]\x7d"

/-! ### Their values -/

def U64.toUInt64 (n : U64) : UInt64 := UInt64.ofNat n.1

/-- What `as_u64` returns. -/
def U64.ofUInt64 (n : UInt64) : U64 := ⟨n.toNat, Nat.le_of_lt_succ n.toNat_lt⟩

theorem U64.toNat_toUInt64 (n : U64) : n.toUInt64.toNat = n.1 :=
  UInt64.toNat_ofNat_of_lt (Nat.lt_succ_of_le n.2)

theorem U64.ofUInt64_toUInt64 (n : U64) : U64.ofUInt64 n.toUInt64 = n :=
  Subtype.ext n.toNat_toUInt64

def ReleaseCandidate.value (c : ReleaseCandidate) : Json := .obj
  [("id", .str c.id), ("hs", .str c.hs.text), ("hb", .str c.hb.text),
    ("constitution_hash", .str c.constitutionHash),
    ("created_at_secs", .num c.createdAtSecs.toUInt64), ("phase", .str c.phase.asStr),
    ("reject_reason", (c.rejectReason.map Json.str).getD .null),
    ("council_sigs", .arr (c.councilSigs.keys.map .str)),
    ("cosigns", .arr (c.cosigns.keys.map .str)),
    ("rebuilds", .arr (c.rebuilds.entries.map fun e =>
      .obj [("node", .str e.1), ("hb", .str e.2.text)]))]

def AllowlistEntry.value (e : AllowlistEntry) : Json := .obj
  [("release_id", .str e.releaseId), ("hs", .str e.hs.text), ("hb", .str e.hb.text),
    ("activated_at_secs", .num e.activatedAtSecs.toUInt64),
    ("constitution_hash", .str e.constitutionHash)]

def releaseMetaValue (m : ReleaseMeshState) : Json := .obj
  [("version", .num 1),
    ("policy", .obj [("council_n", .num m.policy.councilN.toUInt64),
      ("min_rebuilds", .num m.policy.minRebuilds.toUInt64),
      ("vault_n", .num m.policy.vaultN.toUInt64),
      ("timelock_secs", .num m.policy.timelockSecs.toUInt64),
      ("lab_timelock_scale", .num m.policy.labTimelockScale.toUInt64)]),
    ("candidates", .arr (m.candidates.entries.map fun e => e.2.value)),
    ("allowlist", .arr (m.allowlist.map AllowlistEntry.value))]

section Texts

theorem escapeJson_toList (s : String) : (escapeJson s).toList = Json.escapeChars s.toList := by
  unfold escapeJson
  rw [String.toList_ofList]
  rfl

theorem escapeChars_phase (phase : ReleasePhase) :
    Json.escapeChars phase.asStr.toList = phase.asStr.toList := by
  cases phase <;> decide

theorem toList_quoted (s : String) : (s!"\"{escapeJson s}\"").toList = Json.chars (.str s) := by
  simp [toString_text, Json.chars, Json.quote, escapeJson_toList]

theorem toList_reason (reason : Option String) :
    ((reason.map fun s => s!"\"{escapeJson s}\"").getD "null").toList =
      Json.chars ((reason.map Json.str).getD .null) := by
  cases reason with
  | none => rfl
  | some s => exact toList_quoted s

theorem ReleaseCandidate.toList_json (c : ReleaseCandidate) : c.json.toList = c.value.chars := by
  unfold json value
  simp [Json.chars, Json.fieldChars, Json.quote, Json.itemChars_eq, Json.escapeChars_cons,
    Json.escapeChars_nil, escapeJson_toList, toString_text, escapeChars_phase,
    String.toList_intercalate, U64.toNat_toUInt64, Function.comp_def]
  exact toList_reason c.rejectReason

theorem AllowlistEntry.toList_json (e : AllowlistEntry) : e.json.toList = e.value.chars := by
  unfold json value
  simp [Json.chars, Json.fieldChars, Json.quote, Json.escapeChars_cons, Json.escapeChars_nil,
    escapeJson_toList, toString_text, U64.toNat_toUInt64]

/-- The text of a snapshot is that of its value. -/
theorem releaseMetaJson_eq (m : ReleaseMeshState) :
    releaseMetaJson m = (releaseMetaValue m).render := by
  have hVersion : Nat.toDigits 10 1 = ['1'] := by decide
  rw [Json.render, ← String.toList_inj, String.toList_ofList]
  unfold releaseMetaJson releaseMetaValue
  simp [hVersion, Json.chars, Json.fieldChars, Json.quote, Json.itemChars_eq, Json.escapeChars_cons,
    Json.escapeChars_nil, toString_text, String.toList_intercalate, U64.toNat_toUInt64,
    Function.comp_def, ReleaseCandidate.toList_json, AllowlistEntry.toList_json]

end Texts

/-! ## Reading a snapshot -/

/-- A candidate of `hydrate_meta`. -/
def hydrateCandidate (c : Json) : Except DomainError ReleaseCandidate :=
  let id := (c.field "id").asStr.getD ""
  match ContentHash.parse ((c.field "hs").asStr.getD "") with
  | .error e => .error e
  | .ok hs =>
    match ContentHash.parse ((c.field "hb").asStr.getD "") with
    | .error e => .error e
    | .ok hb =>
      let council := SortedSet.ofKeys
        (((c.field "council_sigs").asArray.getD []).filterMap Json.asStr)
      match ReleaseCandidate.new id hs hb ((c.field "constitution_hash").asStr.getD "") council
          (((c.field "created_at_secs").asU64.map U64.ofUInt64).getD (toU64 0)) with
      | .error e => .error e
      | .ok cand =>
        let phase : ReleasePhase :=
          match (c.field "phase").asStr.getD "proposed" with
          | "cosigning" => .cosigning
          | "allowlisted" => .allowlisted
          | "rejected" => .rejected
          | _ => .proposed
        let rejectReason := (c.field "reject_reason").asStr
        let cosigns := (((c.field "cosigns").asArray.getD []).filterMap Json.asStr).foldl
          SortedSet.add cand.cosigns
        match ((c.field "rebuilds").asArray.getD []).foldlM (fun rebuilds r =>
          match (r.field "node").asStr, (r.field "hb").asStr with
          | some node, some h => (ContentHash.parse h).map (SortedMap.insert rebuilds node)
          | _, _ => .ok rebuilds) cand.rebuilds with
        | .error e => .error e
        | .ok rebuilds => .ok { cand with phase, rejectReason, cosigns, rebuilds }

/-- An entry of `hydrate_meta`. -/
def hydrateEntry (e : Json) : Except DomainError AllowlistEntry :=
  match ContentHash.parse ((e.field "hs").asStr.getD "") with
  | .error e => .error e
  | .ok hs =>
    match ContentHash.parse ((e.field "hb").asStr.getD "") with
    | .error e => .error e
    | .ok hb =>
      .ok { releaseId := (e.field "release_id").asStr.getD ""
            hs
            hb
            activatedAtSecs :=
              ((e.field "activated_at_secs").asU64.map U64.ofUInt64).getD (toU64 0)
            constitutionHash := (e.field "constitution_hash").asStr.getD "" }

/-- `hydrate_meta`, with the text of the file. -/
def hydrateMeta (serde : SerdeJson) (raw : String) (mesh : ReleaseMeshState) :
    Except DomainError ReleaseMeshState :=
  match serde.fromStr raw with
  | .error e => .error (.thresholdError s!"release meta json: {e}")
  | .ok v =>
    match ((v.field "candidates").asArray.getD []).foldlM (fun mesh c =>
      -- a second candidate under an id is dropped
      (hydrateCandidate c).map fun cand => (ReleaseMeshState.putCandidate mesh cand).2) mesh with
    | .error e => .error e
    | .ok mesh => ((v.field "allowlist").asArray.getD []).foldlM (fun mesh e =>
        (hydrateEntry e).map (ReleaseMeshState.putAllowlist mesh)) mesh

section Reading

theorem asStr_reason (reason : Option String) :
    ((reason.map Json.str).getD .null).asStr = reason := by
  cases reason <;> rfl

theorem filterMap_asStr (texts : List String) :
    ((texts.map Json.str).map Json.normal).filterMap Json.asStr = texts := by
  induction texts with
  | nil => rfl
  | cons s rest ih => exact congrArg (s :: ·) ih

/-- The rebuilds of a snapshot, entry by entry. -/
theorem foldlM_rebuilds (entries : List (String × ContentHash))
    (rebuilds : SortedMap String ContentHash) :
    ((entries.map fun e => Json.obj [("node", .str e.1), ("hb", .str e.2.text)]).map
      Json.normal).foldlM (fun rebuilds (r : Json) =>
        match (r.field "node").asStr, (r.field "hb").asStr with
        | some node, some h => (ContentHash.parse h).map (SortedMap.insert rebuilds node)
        | _, _ => .ok rebuilds) rebuilds =
      (.ok (entries.foldl (fun m e => m.insert e.1 e.2) rebuilds) :
        Except DomainError (SortedMap String ContentHash)) := by
  induction entries generalizing rebuilds with
  | nil => rfl
  | cons e rest ih =>
    have hField (k : String) :=
      @Json.field_normal [("node", .str e.1), ("hb", .str e.2.text)] (by simp) k
    have hNode : (Json.obj [("node", .str e.1), ("hb", .str e.2.text)]).field "node" = .str e.1 :=
      rfl
    have hHash : (Json.obj [("node", .str e.1), ("hb", .str e.2.text)]).field "hb" =
        .str e.2.text := rfl
    rw [List.map_cons, List.map_cons, List.foldlM_cons, hField, hField, hNode, hHash,
      Json.asStr_normal, Json.asStr_normal]
    dsimp only [Json.asStr]
    rw [ContentHash.parse_text]
    exact ih (rebuilds.insert e.1 e.2)

/-- The phase of a snapshot. -/
theorem phase_asStr (phase : ReleasePhase) :
    (match phase.asStr with
      | "cosigning" => ReleasePhase.cosigning
      | "allowlisted" => .allowlisted
      | "rejected" => .rejected
      | _ => .proposed) = phase := by
  cases phase <;> rfl

theorem ofKeys_keys (s : SortedSet String) : SortedSet.ofKeys s.keys = s := by
  have hFold : SortedSet.ofKeys s.keys = SortedMap.ofList s.entries := List.foldl_map
  rw [hFold, SortedMap.ofList_entries]

/-- A candidate with an id and a signature reads back. -/
theorem hydrateCandidate_value {c : ReleaseCandidate} (hId : strTrim c.id ≠ "")
    (hSigs : c.councilSigs.size ≠ 0) : hydrateCandidate c.value.normal = .ok c := by
  have hField (k : String) : c.value.normal.field k = (c.value.field k).normal :=
    Json.field_normal (by simp) k
  -- a candidate is made as a proposal first, and its fields are set after that
  have hNew : ReleaseCandidate.new c.id c.hs c.hb c.constitutionHash c.councilSigs
      c.createdAtSecs = .ok (.proposed c.id c.hs c.hb c.constitutionHash c.councilSigs
        c.createdAtSecs) := by
    unfold ReleaseCandidate.new
    rw [if_neg hId, if_neg hSigs]
  have hCosigns : c.cosigns.keys.foldl SortedSet.add .empty = c.cosigns := ofKeys_keys c.cosigns
  have hRebuilds := (foldlM_rebuilds c.rebuilds.entries .empty).trans
    (congrArg Except.ok c.rebuilds.ofList_entries)
  have hStr : (c.value.field "id").asStr = some c.id ∧ (c.value.field "hs").asStr = some c.hs.text ∧
      (c.value.field "hb").asStr = some c.hb.text ∧
      (c.value.field "constitution_hash").asStr = some c.constitutionHash ∧
      (c.value.field "phase").asStr = some c.phase.asStr := ⟨rfl, rfl, rfl, rfl, rfl⟩
  have hRead : (c.value.field "created_at_secs").asU64 = some c.createdAtSecs.toUInt64 ∧
      (c.value.field "reject_reason").asStr = c.rejectReason := ⟨rfl, asStr_reason c.rejectReason⟩
  have hArrays : (c.value.field "council_sigs").asArray = some (c.councilSigs.keys.map .str) ∧
      (c.value.field "cosigns").asArray = some (c.cosigns.keys.map .str) ∧
      (c.value.field "rebuilds").asArray = some (c.rebuilds.entries.map fun e =>
        .obj [("node", .str e.1), ("hb", .str e.2.text)]) := ⟨rfl, rfl, rfl⟩
  obtain ⟨hIdText, hHs, hHb, hConstitution, hPhase⟩ := hStr
  -- every field is there, so that no default is taken
  unfold hydrateCandidate
  simp only [hField, Json.asStr_normal, Json.asU64_normal, Json.asArray_normal, hIdText, hHs, hHb,
    hConstitution, hPhase, hRead.1, hRead.2, hArrays.1, hArrays.2.1, hArrays.2.2,
    Option.map_some, Option.getD_some, filterMap_asStr, ofKeys_keys, ContentHash.parse_text,
    U64.ofUInt64_toUInt64, hNew, ReleaseCandidate.proposed, hRebuilds, hCosigns, phase_asStr]

theorem hydrateEntry_value (e : AllowlistEntry) : hydrateEntry e.value.normal = .ok e := by
  have hField (k : String) : e.value.normal.field k = (e.value.field k).normal :=
    Json.field_normal (by simp) k
  have hStr : (e.value.field "release_id").asStr = some e.releaseId ∧
      (e.value.field "hs").asStr = some e.hs.text ∧ (e.value.field "hb").asStr = some e.hb.text ∧
      (e.value.field "constitution_hash").asStr = some e.constitutionHash := ⟨rfl, rfl, rfl, rfl⟩
  have hTime : (e.value.field "activated_at_secs").asU64 = some e.activatedAtSecs.toUInt64 := rfl
  obtain ⟨hId, hHs, hHb, hConstitution⟩ := hStr
  unfold hydrateEntry
  simp only [hField, Json.asStr_normal, Json.asU64_normal, hId, hHs, hHb, hConstitution, hTime,
    Option.map_some, Option.getD_some, ContentHash.parse_text, U64.ofUInt64_toUInt64]

/-- What an open mesh has of every candidate and of its allowlist. -/
structure ReleaseMeshState.Recorded (m : ReleaseMeshState) : Prop where
  keyed : m.Keyed
  named : ∀ id c, m.candidates.lookup id = some c → strTrim c.id ≠ "" ∧ c.councilSigs.size ≠ 0
  listed : (m.allowlist.map AllowlistEntry.releaseId).Nodup

/-- New candidates in the order of their ids. -/
theorem foldl_putCandidate {entries : List (String × ReleaseCandidate)} {m : ReleaseMeshState}
    (hSorted : ((m.candidates.entries ++ entries).map Prod.fst).Pairwise (· < ·))
    (hKeyed : ∀ e ∈ entries, e.2.id = e.1) :
    (entries.map Prod.snd).foldl (fun m c => (ReleaseMeshState.putCandidate m c).2) m =
      { m with candidates := entries.foldl (fun m e => m.insert e.1 e.2) m.candidates } := by
  -- on the candidates, whose ids ascend: each comes last, and is new
  induction entries generalizing m with
  | nil => rfl
  | cons e rest ih =>
    obtain ⟨hId, hRest⟩ := List.forall_mem_cons.mp hKeyed
    have hBelow : ∀ k ∈ m.candidates.keys, k < e.1 := by
      rw [List.map_append, List.pairwise_append] at hSorted
      exact fun k hk => hSorted.2.2 k hk e.1 (List.mem_cons_self ..)
    have hNew : m.candidates.lookup e.2.id = none :=
      SortedMap.lookup_eq_none_iff.mpr fun hMem => lt_irrefl e.1 (hBelow e.1 (hId ▸ hMem))
    have hPut : (ReleaseMeshState.putCandidate m e.2).2 = m.setCandidate e.1 e.2 := by
      unfold ReleaseMeshState.putCandidate
      rw [hNew, hId]
      rfl
    have hEntries : (m.candidates.insert e.1 e.2).entries = m.candidates.entries ++ [e] :=
      SortedMap.insertEntry_last hBelow e.2
    rw [List.map_cons, List.foldl_cons, hPut, List.foldl_cons]
    refine ih (m := m.setCandidate e.1 e.2) ?_ hRest
    show (((m.candidates.insert e.1 e.2).entries ++ rest).map Prod.fst).Pairwise (· < ·)
    rwa [hEntries, List.append_assoc, List.singleton_append]

/-- New entries one after the other. -/
theorem foldl_putAllowlist {entries : List AllowlistEntry} {m : ReleaseMeshState}
    (h : ((m.allowlist ++ entries).map AllowlistEntry.releaseId).Nodup) :
    entries.foldl ReleaseMeshState.putAllowlist m =
      { m with allowlist := m.allowlist ++ entries } := by
  induction entries generalizing m with
  | nil => rw [List.append_nil, List.foldl_nil]
  | cons e rest ih =>
    have hOther : ∀ d ∈ m.allowlist, d.releaseId ≠ e.releaseId := by
      rw [List.map_append, List.map_cons] at h
      exact fun d hd hEq => List.disjoint_of_nodup_append h (List.mem_map_of_mem hd)
        (hEq ▸ List.mem_cons_self ..)
    have hFilter : m.allowlist.filter (fun d => d.releaseId ≠ e.releaseId) = m.allowlist :=
      List.filter_eq_self.mpr fun d hd => decide_eq_true (hOther d hd)
    have hPut : ReleaseMeshState.putAllowlist m e = { m with allowlist := m.allowlist ++ [e] } := by
      unfold ReleaseMeshState.putAllowlist
      rw [hFilter]
    rw [List.foldl_cons, hPut, ih (m := { m with allowlist := m.allowlist ++ [e] }) (by simpa using h)]
    simp

/-! ### Control characters -/

def ReleaseCandidate.Clear (c : ReleaseCandidate) : Prop :=
  Json.Clear c.id ∧ Json.Clear c.constitutionHash ∧ (∀ reason ∈ c.rejectReason, Json.Clear reason) ∧
    (∀ member ∈ c.councilSigs.keys, Json.Clear member) ∧
    (∀ vault ∈ c.cosigns.keys, Json.Clear vault) ∧ ∀ vault ∈ c.rebuilds.keys, Json.Clear vault

/-- No text of the mesh has a control character. -/
def ReleaseMeshState.Clear (m : ReleaseMeshState) : Prop :=
  (∀ id c, m.candidates.lookup id = some c → c.Clear) ∧
    ∀ e ∈ m.allowlist, Json.Clear e.releaseId ∧ Json.Clear e.constitutionHash

theorem clear_hash (hash : ContentHash) : Json.Clear hash.text := by
  intro c hc
  have hDigit := hash.hex.2 c hc
  have hRange : 0x20 ≤ c.toNat := by
    unfold hexDigit at hDigit
    split at hDigit
    · rename_i hDecimal
      exact le_trans (by decide) hDecimal.1
    · split at hDigit
      · rename_i hLetter
        exact le_trans (by decide) hLetter.1
      · cases hDigit
  exact decide_eq_false (not_lt.mpr hRange)

theorem clear_phase (phase : ReleasePhase) : Json.Clear phase.asStr := by
  cases phase <;> decide

theorem cleanItems_str {texts : List String} :
    Json.CleanItems (texts.map .str) ↔ ∀ s ∈ texts, Json.Clear s := by
  rw [Json.cleanItems_iff, List.forall_mem_map]
  rfl

/-- A candidate is printed cleanly where its own texts are clear. -/
theorem ReleaseCandidate.clean_value (c : ReleaseCandidate) : c.value.Clean ↔ c.Clear := by
  have hNames : Json.Clear "id" ∧ Json.Clear "hs" ∧ Json.Clear "hb" ∧
      Json.Clear "constitution_hash" ∧ Json.Clear "created_at_secs" ∧ Json.Clear "phase" ∧
      Json.Clear "reject_reason" ∧ Json.Clear "council_sigs" ∧ Json.Clear "cosigns" ∧
      Json.Clear "rebuilds" ∧ Json.Clear "node" := by
    decide
  have hReason : ((c.rejectReason.map Json.str).getD .null).Clean ↔
      ∀ reason ∈ c.rejectReason, Json.Clear reason := by
    cases c.rejectReason with
    | none => simp [Json.Clean]
    | some s => simp [Json.Clean]
  have hRebuilds : Json.CleanItems (c.rebuilds.entries.map fun e =>
      .obj [("node", .str e.1), ("hb", .str e.2.text)]) ↔
        ∀ vault ∈ c.rebuilds.keys, Json.Clear vault := by
    rw [Json.cleanItems_iff, List.forall_mem_map, SortedMap.keys, List.forall_mem_map]
    refine forall₂_congr fun e _ => ?_
    simp [Json.Clean, Json.CleanFields, hNames, clear_hash]
  unfold value Clear
  simp [Json.Clean, Json.CleanFields, hNames, clear_hash, clear_phase, hReason, hRebuilds,
    cleanItems_str]

theorem AllowlistEntry.clean_value (e : AllowlistEntry) :
    e.value.Clean ↔ Json.Clear e.releaseId ∧ Json.Clear e.constitutionHash := by
  have hNames : Json.Clear "release_id" ∧ Json.Clear "hs" ∧ Json.Clear "hb" ∧
      Json.Clear "activated_at_secs" ∧ Json.Clear "constitution_hash" := by
    decide
  unfold value
  simp [Json.Clean, Json.CleanFields, hNames, clear_hash]

/-- A snapshot is printed cleanly where the texts of its mesh are clear. -/
theorem clean_releaseMetaValue (m : ReleaseMeshState) : (releaseMetaValue m).Clean ↔ m.Clear := by
  have hNames : Json.Clear "version" ∧ Json.Clear "policy" ∧ Json.Clear "candidates" ∧
      Json.Clear "allowlist" ∧ Json.Clear "council_n" ∧ Json.Clear "min_rebuilds" ∧
      Json.Clear "vault_n" ∧ Json.Clear "timelock_secs" ∧ Json.Clear "lab_timelock_scale" := by
    decide
  have hCandidates : Json.CleanItems (m.candidates.entries.map fun e => e.2.value) ↔
      ∀ id c, m.candidates.lookup id = some c → c.Clear := by
    rw [Json.cleanItems_iff, List.forall_mem_map]
    constructor
    · intro h id c hLookup
      exact (c.clean_value).mp (h (id, c) (SortedMap.mem_entries_iff.mpr hLookup))
    · intro h e he
      exact (e.2.clean_value).mpr (h e.1 e.2 (SortedMap.mem_entries_iff.mp he))
  have hAllowlist : Json.CleanItems (m.allowlist.map AllowlistEntry.value) ↔
      ∀ e ∈ m.allowlist, Json.Clear e.releaseId ∧ Json.Clear e.constitutionHash := by
    rw [Json.cleanItems_iff, List.forall_mem_map]
    exact forall₂_congr fun e _ => e.clean_value
  unfold releaseMetaValue ReleaseMeshState.Clear
  simp [Json.Clean, Json.CleanFields, hNames, hCandidates, hAllowlist]

theorem itemsDepth_str (texts : List String) : Json.itemsDepth (texts.map .str) = 0 :=
  Nat.le_zero.mp (Json.itemsDepth_le (List.forall_mem_map.mpr fun _ _ => le_refl 0))

theorem ReleaseCandidate.depth_value (c : ReleaseCandidate) : c.value.depth ≤ 3 := by
  have hReason : ((c.rejectReason.map Json.str).getD .null).depth = 0 := by
    cases c.rejectReason <;> rfl
  have hRebuilds : Json.itemsDepth (c.rebuilds.entries.map fun e =>
      .obj [("node", .str e.1), ("hb", .str e.2.text)]) ≤ 1 :=
    Json.itemsDepth_le (List.forall_mem_map.mpr fun _ _ => le_refl 1)
  unfold value
  simp only [Json.depth, Json.fieldsDepth, hReason, itemsDepth_str]
  omega

theorem depth_releaseMetaValue (m : ReleaseMeshState) : (releaseMetaValue m).depth < 128 := by
  have hCandidates : Json.itemsDepth (m.candidates.entries.map fun e => e.2.value) ≤ 3 :=
    Json.itemsDepth_le (List.forall_mem_map.mpr fun e _ => e.2.depth_value)
  have hAllowlist : Json.itemsDepth (m.allowlist.map AllowlistEntry.value) ≤ 1 :=
    Json.itemsDepth_le (List.forall_mem_map.mpr fun _ _ => le_refl 1)
  unfold releaseMetaValue
  simp only [Json.depth, Json.fieldsDepth]
  omega

/-! ### The round trip -/

/-- A snapshot without control characters reads back. -/
theorem hydrateMeta_clear (serde : SerdeJson) {m : ReleaseMeshState} (hm : m.Recorded)
    (hClear : m.Clear) (policy : ReleasePolicy) :
    hydrateMeta serde (releaseMetaJson m) (.new policy) =
      .ok { ReleaseMeshState.new policy with
            candidates := m.candidates, allowlist := m.allowlist } := by
  have hReads := serde.reads _ ((clean_releaseMetaValue m).mpr hClear) (depth_releaseMetaValue m)
  have hField (k : String) :
      (releaseMetaValue m).normal.field k = ((releaseMetaValue m).field k).normal :=
    Json.field_normal (by simp) k
  have hArrays : ((releaseMetaValue m).field "candidates").asArray =
        some (m.candidates.entries.map fun e => e.2.value) ∧
      ((releaseMetaValue m).field "allowlist").asArray =
        some (m.allowlist.map AllowlistEntry.value) := ⟨rfl, rfl⟩
  -- an id that is not blank and a council that is not empty are what `new` asks for
  have hEntry : ∀ e ∈ m.candidates.entries,
      e.2.id = e.1 ∧ hydrateCandidate e.2.value.normal = .ok e.2 := by
    intro e he
    have hLookup := SortedMap.mem_entries_iff.mp he
    obtain ⟨hId, hSigs⟩ := hm.named e.1 e.2 hLookup
    exact ⟨hm.keyed e.1 e.2 hLookup, hydrateCandidate_value hId hSigs⟩
  have hCandidates : (m.candidates.entries.map fun e => e.2.value.normal).foldlM (fun mesh c =>
        (hydrateCandidate c).map fun cand => (ReleaseMeshState.putCandidate mesh cand).2)
        (ReleaseMeshState.new policy) =
      .ok { ReleaseMeshState.new policy with candidates := m.candidates } := by
    rw [List.foldlM_map, Results.foldlM_ok Prod.snd
      (fun m c => (ReleaseMeshState.putCandidate m c).2)
      fun e he mesh => by rw [(hEntry e he).2]; rfl]
    rw [foldl_putCandidate (m := .new policy) m.candidates.sorted fun e he => (hEntry e he).1]
    exact congrArg (fun candidates => Except.ok { ReleaseMeshState.new policy with candidates })
      m.candidates.ofList_entries
  have hAllowlist (mesh : ReleaseMeshState) (hEmpty : mesh.allowlist = []) :
      (m.allowlist.map fun e => e.value.normal).foldlM (fun mesh e =>
        (hydrateEntry e).map (ReleaseMeshState.putAllowlist mesh)) mesh =
      .ok { mesh with allowlist := m.allowlist } := by
    rw [List.foldlM_map, Results.foldlM_ok id ReleaseMeshState.putAllowlist
      fun e _ mesh => by rw [hydrateEntry_value]; rfl]
    rw [List.map_id, foldl_putAllowlist (by rw [hEmpty]; exact hm.listed), hEmpty, List.nil_append]
  -- candidates first, and then the allowlist
  unfold hydrateMeta
  rw [releaseMetaJson_eq, hReads]
  simp only [hField, Json.asArray_normal, hArrays.1, hArrays.2, Option.map_some, Option.getD_some,
    List.map_map, Function.comp_def, hCandidates]
  exact hAllowlist { ReleaseMeshState.new policy with candidates := m.candidates } rfl

/-- A snapshot with one is refused. -/
theorem hydrateMeta_control (serde : SerdeJson) {m : ReleaseMeshState} (hControl : ¬ m.Clear)
    (mesh : ReleaseMeshState) : ∃ e, hydrateMeta serde (releaseMetaJson m) mesh = .error e := by
  obtain ⟨e, hRefuses⟩ := serde.refuses _ (mt (clean_releaseMetaValue m).mp hControl)
  unfold hydrateMeta
  rw [releaseMetaJson_eq, hRefuses]
  exact ⟨_, rfl⟩

end Reading

end KeroseneVault
