import KeroseneVault.Dkg.PolyRefresh
import KeroseneVault.Dkg.ReshareSession
import KeroseneVault.Lib.Framing

/-!
# What a transcript binds

A session's transcript is a hash of its id, its thresholds and its roster, and for
a reshare of the day and the constitution besides. The DKG writes the node ids with
commas between them and the session id before the first bar; the reshare writes
everything one after another.

* `DkgStartRequest.Accepted`, `ReshareStartRequest.Accepted` — what the starts let
  through;
* `DkgSession`, `ReshareSession` — what the transcripts are of, with their texts;
* `DkgSession.Same`, `ReshareSession.Same` — what equal transcripts are to mean;
* `DkgSession.Confused`, `ReshareSession.Confused` — two sessions with one text.

Main results:

* `accepted_of_startCheck`, `accepted_of_start` — the starts check so much;
* `DkgSession.text_binds_of_plain` — node ids without commas and session ids without
  bars are bound;
* `transcripts_bind_iff` — transcripts bind exactly where no text is confused.
-/

namespace KeroseneVault

/-! ## What is accepted -/

/-- The checks of `start` on a request, and the roster that they come to. -/
structure DkgStartRequest.Accepted (k : WireDkg) (F : FrostDkg) (req : DkgStartRequest)
    (roster : Roster F) : Prop where
  params : 2 ≤ req.maxSigners ∧ 2 ≤ req.minSigners ∧ req.minSigners ≤ req.maxSigners
  built : buildRoster k F req.roster = .ok roster
  length : roster.length % 2 ^ 16 = req.maxSigners

theorem accepted_of_startCheck {k : WireDkg} {F : FrostDkg} {hub : DkgHub k F}
    {req : DkgStartRequest} {rand : F.Randomness} {answer}
    (h : hub.startCheck req rand = .ok answer) : ∃ roster, req.Accepted k F roster := by
  unfold DkgHub.startCheck at h
  by_cases hParams : req.maxSigners < 2 ∨ req.minSigners < 2 ∨ req.minSigners > req.maxSigners
  · rw [if_pos hParams] at h
    cases h
  rw [if_neg hParams] at h
  cases hRoster : buildRoster k F req.roster with
  | error e => rw [hRoster] at h; cases h
  | ok roster =>
    rw [hRoster] at h
    dsimp only at h
    by_cases hLength : roster.length % 2 ^ 16 ≠ req.maxSigners
    · rw [if_pos hLength] at h
      cases h
    exact ⟨roster, by omega, hRoster, not_not.mp hLength⟩

/-- The checks of the reshare's `start`, and the day and the roster that they come to. -/
structure ReshareStartRequest.Accepted (F : FrostRefresh) (req : ReshareStartRequest)
    (dayEpoch : DayEpoch) (roster : Roster F.toFrostDkg) : Prop where
  dayEpoch : DayEpoch.parse req.dayEpoch = .ok dayEpoch
  built : buildReshareRoster F req.roster = .ok roster
  length : roster.length % 2 ^ 16 = req.maxSigners
  /-- A threshold is a `u16`. -/
  minSigners : req.minSigners < 2 ^ 16

theorem accepted_of_start {F : FrostRefresh} {hub : WireReshareHub F} {req : ReshareStartRequest}
    {oldPubkey : F.PublicKeyPackage} {oldKey : Option F.KeyPackage} {rand : F.Randomness} {answer}
    (hMin : req.minSigners < 2 ^ 16)
    (h : (hub.start req oldPubkey oldKey rand).1 = .ok answer) :
    ∃ dayEpoch roster, req.Accepted F dayEpoch roster := by
  unfold WireReshareHub.start at h
  cases hDay : DayEpoch.parse req.dayEpoch with
  | error e => rw [hDay] at h; cases h
  | ok dayEpoch =>
    rw [hDay] at h
    dsimp only at h
    cases hRoster : buildReshareRoster F req.roster with
    | error e => rw [hRoster] at h; cases h
    | ok roster =>
      rw [hRoster] at h
      dsimp only at h
      -- the length is compared as a `u16`
      by_cases hLength : roster.length % 2 ^ 16 ≠ req.maxSigners
      · rw [if_pos hLength] at h
        cases h
      exact ⟨dayEpoch, roster, hDay, hRoster, not_not.mp hLength, hMin⟩

/-! ## The DKG -/

/-- What `session_transcript` is of. -/
structure DkgSession where
  sessionId : String
  maxSigners : Nat
  minSigners : Nat
  nodes : List String

namespace DkgSession

/-- The session of a request that was accepted. -/
def of {F : FrostDkg} (req : DkgStartRequest) (roster : Roster F) : DkgSession :=
  ⟨req.sessionId, req.maxSigners, req.minSigners, roster.map Prod.fst⟩

/-- The node ids, with commas between them. -/
def joined (s : DkgSession) : String := String.intercalate "," s.nodes

/-- The thresholds as tagged fields. -/
def thresholds (s : DkgSession) : List (List Char × List Char) :=
  [("max=".toList, Nat.toDigits 10 s.maxSigners), ("min=".toList, Nat.toDigits 10 s.minSigners)]

/-- What follows the session id. -/
def rest (s : DkgSession) : List Char :=
  '|' :: Framing.frame '|' s.thresholds ("roster=".toList ++ s.joined.toList)

/-- Two sessions agree in all that their transcripts are of, the roster as a set. -/
structure Same (a b : DkgSession) : Prop where
  sessionId : a.sessionId = b.sessionId
  maxSigners : a.maxSigners = b.maxSigners
  minSigners : a.minSigners = b.minSigners
  nodes : ∀ node, node ∈ a.nodes ↔ node ∈ b.nodes

/-- A comma in a node id: other rosters joined to the same text. -/
def JoinedAlike (a b : DkgSession) : Prop :=
  a.sessionId = b.sessionId ∧ a.maxSigners = b.maxSigners ∧ a.minSigners = b.minSigners ∧
    a.joined = b.joined ∧ ¬ ∀ node, node ∈ a.nodes ↔ node ∈ b.nodes

/-- A bar in a session id: it goes on into what follows the other. -/
def Overruns (a b : DkgSession) : Prop :=
  Framing.Overruns a.sessionId.toList a.rest b.sessionId.toList b.rest

/-- Two sessions have one text. -/
def Confused (a b : DkgSession) : Prop := JoinedAlike a b ∨ Overruns a b ∨ Overruns b a

theorem notMem_thresholds (s : DkgSession) : ∀ f ∈ s.thresholds, '|' ∉ f.2 := by
  intro f hf
  rcases List.mem_pair.mp hf with rfl | rfl
  · exact Framing.notMem_toDigits (by decide) s.maxSigners
  · exact Framing.notMem_toDigits (by decide) s.minSigners

theorem rest_eq_iff {a b : DkgSession} : a.rest = b.rest ↔
    a.maxSigners = b.maxSigners ∧ a.minSigners = b.minSigners ∧ a.joined = b.joined := by
  have hTags : a.thresholds.map Prod.fst = b.thresholds.map Prod.fst := rfl
  have hThresholds : a.thresholds = b.thresholds ↔
      a.maxSigners = b.maxSigners ∧ a.minSigners = b.minSigners := by
    simp [thresholds, Framing.toDigits_inj]
  unfold rest
  rw [List.cons.injEq, Framing.frame_inj hTags a.notMem_thresholds b.notMem_thresholds, hThresholds,
    List.append_cancel_left_eq, String.toList_inj, and_assoc]
  exact and_iff_right rfl

/-- The text that is hashed, after its domain. -/
theorem text_binds_iff (a b : DkgSession) :
    (a.sessionId.toList ++ a.rest = b.sessionId.toList ++ b.rest → Same a b) ↔ ¬ Confused a b := by
  rw [Framing.append_binds_iff (fun s : DkgSession => s.sessionId.toList) rest Same
    (fun s t h => congrArg String.toList h.sessionId)]
  have hJoined : (a.sessionId.toList = b.sessionId.toList → a.rest = b.rest → Same a b) ↔
      ¬ JoinedAlike a b := by
    rw [String.toList_inj, rest_eq_iff]
    constructor
    · rintro h ⟨hId, hMax, hMin, hJoined, hNodes⟩
      exact hNodes (h hId ⟨hMax, hMin, hJoined⟩).nodes
    · rintro h hId ⟨hMax, hMin, hJoined⟩
      refine ⟨hId, hMax, hMin, ?_⟩
      by_contra hNodes
      exact h ⟨hId, hMax, hMin, hJoined, hNodes⟩
  rw [hJoined]
  unfold Confused Overruns
  tauto

theorem toList_joined (s : DkgSession) :
    s.joined.toList = List.intercalate [','] (s.nodes.map String.toList) := by
  rw [joined, String.toList_intercalate]
  rfl

/-- Without commas in the node ids and bars in the session ids, the text binds. -/
theorem text_binds_of_plain {a b : DkgSession} (ha : '|' ∉ a.sessionId.toList)
    (hb : '|' ∉ b.sessionId.toList) (haNodes : ∀ node ∈ a.nodes, ',' ∉ node.toList)
    (hbNodes : ∀ node ∈ b.nodes, ',' ∉ node.toList) (haNe : a.nodes ≠ []) (hbNe : b.nodes ≠ []) :
    a.sessionId.toList ++ a.rest = b.sessionId.toList ++ b.rest → Same a b := by
  refine (text_binds_iff a b).mpr ?_
  rintro (⟨-, -, -, hJoined, hNodes⟩ | hOver | hOver)
  · have hText := congrArg String.toList hJoined
    rw [toList_joined, toList_joined] at hText
    have hLists := Framing.intercalate_inj (by simpa using haNe) (by simpa using hbNe)
      (by simpa using haNodes) (by simpa using hbNodes) hText
    have hSame : a.nodes = b.nodes :=
      List.map_injective_iff.mpr (fun _ _ => String.toList_inj.mp) hLists
    exact hNodes fun node => by rw [hSame]
  · exact Framing.not_overruns_of_notMem hb ⟨_, rfl⟩ hOver
  · exact Framing.not_overruns_of_notMem ha ⟨_, rfl⟩ hOver

/-- The transcript hashes the domain, then the text. -/
theorem sessionTranscript_eq {F : FrostDkg} (k : WireDkg) (req : DkgStartRequest)
    (roster : Roster F) :
    sessionTranscript k req.sessionId req.maxSigners req.minSigners roster =
      F.hexEncode (F.sha256 (String.ofList (k.transcriptDomain.toList ++
        ((of req roster).sessionId.toList ++ (of req roster).rest)))) := by
  unfold sessionTranscript
  congr 2
  rw [← String.toList_inj]
  simp [of, rest, thresholds, joined, Framing.frame, toString_text]

/-- Equal transcripts are of equal texts. -/
theorem sessionTranscript_eq_iff {F : FrostDkg} (hHex : Function.Injective F.hexEncode)
    (hSha256 : Function.Injective F.sha256) (k : WireDkg) {a b : DkgStartRequest}
    {rosterA rosterB : Roster F} :
    sessionTranscript k a.sessionId a.maxSigners a.minSigners rosterA =
        sessionTranscript k b.sessionId b.maxSigners b.minSigners rosterB ↔
      (of a rosterA).sessionId.toList ++ (of a rosterA).rest =
        (of b rosterB).sessionId.toList ++ (of b rosterB).rest := by
  rw [sessionTranscript_eq, sessionTranscript_eq, hHex.eq_iff, hSha256.eq_iff, String.ofList_inj,
    List.append_cancel_left_eq]

end DkgSession

/-! ## The reshare -/

theorem u16Bytes_inj {m n : Nat} (hm : m < 2 ^ 16) (hn : n < 2 ^ 16) :
    u16Bytes m = u16Bytes n ↔ m = n := by
  constructor
  · intro h
    simp only [u16Bytes, List.cons.injEq, and_true, ← UInt8.toNat_inj, UInt8.toNat_ofNat'] at h
    omega
  · rintro rfl
    rfl

/-- What `reshare_transcript` is of. -/
structure ReshareSession where
  sessionId : String
  dayEpoch : DayEpoch
  maxSigners : Nat
  minSigners : Nat
  nodes : List String
  constitutionHash : String

namespace ReshareSession

/-- The session of a request that was accepted. -/
def of {F : FrostRefresh} (req : ReshareStartRequest) (dayEpoch : DayEpoch)
    (roster : Roster F.toFrostDkg) : ReshareSession :=
  ⟨req.sessionId, dayEpoch, req.maxSigners, req.minSigners, roster.map Prod.fst,
    req.constitutionHash⟩

/-- The node ids and the constitution hash, one after another. -/
def names (s : ReshareSession) : List UInt8 :=
  s.nodes.flatMap textBytes ++ textBytes s.constitutionHash

/-- What follows the session id. -/
def rest (s : ReshareSession) : List UInt8 :=
  textBytes (String.ofList s.dayEpoch.text) ++
    (u16Bytes s.maxSigners ++ (u16Bytes s.minSigners ++ s.names))

/-- The day takes ten bytes, and the thresholds two each. -/
structure Fits (s : ReshareSession) : Prop where
  dayEpoch : (textBytes (String.ofList s.dayEpoch.text)).length = 10
  maxSigners : s.maxSigners < 2 ^ 16
  minSigners : s.minSigners < 2 ^ 16

/-- What a reshare accepts fits the widths of its fields. -/
theorem fits_of_accepted {F : FrostRefresh} {req : ReshareStartRequest} {dayEpoch : DayEpoch}
    {roster : Roster F.toFrostDkg} (h : req.Accepted F dayEpoch roster) :
    Fits (of req dayEpoch roster) where
  dayEpoch := by
    -- a day that parses has ten characters, so that its field has one width
    have hText := DayEpoch.text_of_parse h.dayEpoch
    have hParse := h.dayEpoch
    show (textBytes (String.ofList dayEpoch.text)).length = 10
    rw [hText, String.ofList_toList, length_textBytes]
    unfold DayEpoch.parse at hParse
    dsimp only at hParse
    split at hParse
    · rename_i hOk
      simp only [Bool.and_eq_true, beq_iff_eq] at hOk
      exact hOk.1.1
    · cases hParse
  maxSigners := by
    show req.maxSigners < 2 ^ 16
    rw [← h.length]
    exact Nat.mod_lt _ (by decide)
  minSigners := h.minSigners

/-- Two sessions agree in all that their transcripts are of, the roster as a set. -/
structure Same (a b : ReshareSession) : Prop where
  sessionId : a.sessionId = b.sessionId
  dayEpoch : a.dayEpoch = b.dayEpoch
  maxSigners : a.maxSigners = b.maxSigners
  minSigners : a.minSigners = b.minSigners
  nodes : ∀ node, node ∈ a.nodes ↔ node ∈ b.nodes
  constitutionHash : a.constitutionHash = b.constitutionHash

/-- Other node ids, or another constitution hash, run together to the same bytes. -/
def RunTogether (a b : ReshareSession) : Prop :=
  a.sessionId = b.sessionId ∧ a.dayEpoch = b.dayEpoch ∧ a.maxSigners = b.maxSigners ∧
    a.minSigners = b.minSigners ∧ a.names = b.names ∧
      ¬ ((∀ node, node ∈ a.nodes ↔ node ∈ b.nodes) ∧ a.constitutionHash = b.constitutionHash)

/-- A session id goes on into what follows the other. -/
def Overruns (a b : ReshareSession) : Prop :=
  Framing.Overruns (textBytes a.sessionId) a.rest (textBytes b.sessionId) b.rest

/-- Two sessions have one text. -/
def Confused (a b : ReshareSession) : Prop := RunTogether a b ∨ Overruns a b ∨ Overruns b a

theorem rest_eq_iff {a b : ReshareSession} (ha : a.Fits) (hb : b.Fits) : a.rest = b.rest ↔
    a.dayEpoch = b.dayEpoch ∧ a.maxSigners = b.maxSigners ∧ a.minSigners = b.minSigners ∧
      a.names = b.names := by
  constructor
  · intro h
    obtain ⟨hDay, h⟩ := List.append_inj h (ha.dayEpoch.trans hb.dayEpoch.symm)
    obtain ⟨hMax, h⟩ := List.append_inj h rfl
    obtain ⟨hMin, hNames⟩ := List.append_inj h rfl
    refine ⟨?_, (u16Bytes_inj ha.maxSigners hb.maxSigners).mp hMax,
      (u16Bytes_inj ha.minSigners hb.minSigners).mp hMin, hNames⟩
    rw [textBytes_inj, String.ofList_inj] at hDay
    exact congrArg DayEpoch.mk hDay
  · rintro ⟨hDay, hMax, hMin, hNames⟩
    unfold rest
    rw [hDay, hMax, hMin, hNames]

/-- The text that is hashed. -/
theorem text_binds_iff {a b : ReshareSession} (ha : a.Fits) (hb : b.Fits) :
    (textBytes a.sessionId ++ a.rest = textBytes b.sessionId ++ b.rest → Same a b) ↔
      ¬ Confused a b := by
  rw [Framing.append_binds_iff (fun s : ReshareSession => textBytes s.sessionId) rest Same
    (fun s t h => congrArg textBytes h.sessionId)]
  -- after the session id the widths are fixed, and only the names can run together
  have hNames : (textBytes a.sessionId = textBytes b.sessionId → a.rest = b.rest → Same a b) ↔
      ¬ RunTogether a b := by
    rw [textBytes_inj, rest_eq_iff ha hb]
    constructor
    · rintro h ⟨hId, hDay, hMax, hMin, hNames, hApart⟩
      have hSame := h hId ⟨hDay, hMax, hMin, hNames⟩
      exact hApart ⟨hSame.nodes, hSame.constitutionHash⟩
    · rintro h hId ⟨hDay, hMax, hMin, hNames⟩
      by_contra hApart
      refine h ⟨hId, hDay, hMax, hMin, hNames, fun hBoth => hApart ?_⟩
      exact ⟨hId, hDay, hMax, hMin, hBoth.1, hBoth.2⟩
  rw [hNames]
  unfold Confused Overruns
  tauto

/-- Equal transcripts are of equal texts. -/
theorem reshareTranscript_eq_iff {F : FrostRefresh} (hHex : Function.Injective F.hexEncode)
    (hSha384 : Function.Injective F.sha384) {a b : ReshareStartRequest} {dayA dayB : DayEpoch}
    {rosterA rosterB : Roster F.toFrostDkg} :
    reshareTranscript a.sessionId dayA a.maxSigners a.minSigners rosterA a.constitutionHash =
        reshareTranscript b.sessionId dayB b.maxSigners b.minSigners rosterB b.constitutionHash ↔
      textBytes (of a dayA rosterA).sessionId ++ (of a dayA rosterA).rest =
        textBytes (of b dayB rosterB).sessionId ++ (of b dayB rosterB).rest := by
  have hText (req : ReshareStartRequest) (day : DayEpoch) (roster : Roster F.toFrostDkg) :
      reshareTranscript req.sessionId day req.maxSigners req.minSigners roster
          req.constitutionHash =
        F.hexEncode (F.sha384 (textBytes (of req day roster).sessionId ++
          (of req day roster).rest)) := by
    unfold reshareTranscript
    congr 2
    simp [of, rest, names, List.flatMap_map]
  rw [hText, hText, hHex.eq_iff, hSha384.eq_iff]

end ReshareSession

/--
**What transcripts bind.** Under hashes without collisions, two sessions of the
DKG, plain or Taproot, with one transcript agree in all that it is of exactly
where their texts are not confused, and so do two reshares.
-/
theorem transcripts_bind_iff (F : FrostRefresh) (hHex : Function.Injective F.hexEncode)
    (hSha256 : Function.Injective F.sha256) (hSha384 : Function.Injective F.sha384)
    (k : WireDkg) (a b : DkgStartRequest) (rosterA rosterB : Roster F.toFrostDkg)
    (_ha : a.Accepted k F.toFrostDkg rosterA) (_hb : b.Accepted k F.toFrostDkg rosterB)
    (c d : ReshareStartRequest) (dayC dayD : DayEpoch) (rosterC rosterD : Roster F.toFrostDkg)
    (hc : c.Accepted F dayC rosterC) (hd : d.Accepted F dayD rosterD) :
    ((sessionTranscript k a.sessionId a.maxSigners a.minSigners rosterA =
        sessionTranscript k b.sessionId b.maxSigners b.minSigners rosterB →
          DkgSession.Same (.of a rosterA) (.of b rosterB)) ↔
        ¬ DkgSession.Confused (.of a rosterA) (.of b rosterB)) ∧
    ((reshareTranscript c.sessionId dayC c.maxSigners c.minSigners rosterC c.constitutionHash =
        reshareTranscript d.sessionId dayD d.maxSigners d.minSigners rosterD d.constitutionHash →
          ReshareSession.Same (.of c dayC rosterC) (.of d dayD rosterD)) ↔
        ¬ ReshareSession.Confused (.of c dayC rosterC) (.of d dayD rosterD)) := by
  rw [DkgSession.sessionTranscript_eq_iff hHex hSha256 k, DkgSession.text_binds_iff,
    ReshareSession.reshareTranscript_eq_iff hHex hSha384,
    ReshareSession.text_binds_iff (ReshareSession.fits_of_accepted hc)
      (ReshareSession.fits_of_accepted hd)]
  exact ⟨Iff.rfl, Iff.rfl⟩

/-! ## Sessions on given names -/

theorem smallRefresh_hashes : Function.Injective smallRefresh.hexEncode ∧
    Function.Injective smallRefresh.sha256 ∧ Function.Injective smallRefresh.sha384 := by
  refine ⟨fun s t h => ?_, fun s t h => textBytes_inj.mp h, fun s t h => h⟩
  have hRead := congrArg (fun text : String => hexPairs text.toList) h
  exact Except.ok.inj ((hexPairs_hexText s).symm.trans (hRead.trans (hexPairs_hexText t)))

/-- A DKG of two nodes. -/
def dkgOf (nodes : List String) : DkgStartRequest := ⟨"s1", 2, 2, nodes⟩

/-- Their roster, with the identifiers one and two. -/
def rosterOfTwo (first second : String) : Roster smallFrost.toFrostDkg :=
  [(first, smallOfU16 1), (second, smallOfU16 2)]

theorem accepted_dkgOf (k : WireDkg) (nodes : List String) (first second : String)
    (hNodes : sortDedup (nodes.map strTrim) = [first, second]) :
    (dkgOf nodes).Accepted k smallFrost.toFrostDkg (rosterOfTwo first second) where
  params := by
    show 2 ≤ 2 ∧ 2 ≤ 2 ∧ 2 ≤ 2
    decide
  built := by
    unfold buildRoster dkgOf
    dsimp only
    rw [hNodes]
    rfl
  length := rfl

/-- A reshare of two nodes. -/
def reshareOf (nodes : List String) : ReshareStartRequest :=
  ⟨"s1", 2, 2, nodes, "2026-01-01", "c0"⟩

theorem accepted_reshareOf : (reshareOf ["a", "b"]).Accepted smallRefresh ⟨"2026-01-01".toList⟩
    (rosterOfTwo "a" "b") where
  dayEpoch := by decide +kernel
  built := by decide +kernel
  length := rfl
  minSigners := by
    show 2 < 2 ^ 16
    decide

/-- Its session, as its transcript has it. -/
def reshareSession : ReshareSession :=
  .of (F := smallRefresh) (reshareOf ["a", "b"]) ⟨"2026-01-01".toList⟩ (rosterOfTwo "a" "b")

theorem transcripts_bind_same :
    ((sessionTranscript .plain "s1" 2 2 (rosterOfTwo "a" "b") =
        sessionTranscript .plain "s1" 2 2 (rosterOfTwo "a" "c") →
          DkgSession.Same (.of (dkgOf ["a", "b"]) (rosterOfTwo "a" "b"))
            (.of (dkgOf ["a", "c"]) (rosterOfTwo "a" "c"))) ↔
        ¬ DkgSession.Confused (.of (dkgOf ["a", "b"]) (rosterOfTwo "a" "b"))
          (.of (dkgOf ["a", "c"]) (rosterOfTwo "a" "c"))) ∧
    ((reshareTranscript (F := smallRefresh) "s1" ⟨"2026-01-01".toList⟩ 2 2
          (rosterOfTwo "a" "b") "c0" =
        reshareTranscript (F := smallRefresh) "s1" ⟨"2026-01-01".toList⟩ 2 2
          (rosterOfTwo "a" "b") "c0" → reshareSession.Same reshareSession) ↔
        ¬ reshareSession.Confused reshareSession) :=
  transcripts_bind_iff smallRefresh smallRefresh_hashes.1 smallRefresh_hashes.2.1
    smallRefresh_hashes.2.2 .plain (dkgOf ["a", "b"]) (dkgOf ["a", "c"]) (rosterOfTwo "a" "b")
    (rosterOfTwo "a" "c") (accepted_dkgOf .plain _ _ _ (by decide +kernel))
    (accepted_dkgOf .plain _ _ _ (by decide +kernel)) (reshareOf ["a", "b"])
    (reshareOf ["a", "b"]) ⟨"2026-01-01".toList⟩ ⟨"2026-01-01".toList⟩ (rosterOfTwo "a" "b")
    (rosterOfTwo "a" "b") accepted_reshareOf accepted_reshareOf

/-- A comma in a name: two rosters with one transcript. -/
theorem transcripts_bind_fails :
    (dkgOf ["a,b", "c"]).Accepted .plain smallFrost.toFrostDkg (rosterOfTwo "a,b" "c") ∧
    (dkgOf ["a", "b,c"]).Accepted .plain smallFrost.toFrostDkg (rosterOfTwo "a" "b,c") ∧
    ¬ (sessionTranscript .plain "s1" 2 2 (rosterOfTwo "a,b" "c") =
        sessionTranscript .plain "s1" 2 2 (rosterOfTwo "a" "b,c") →
      DkgSession.Same (.of (dkgOf ["a,b", "c"]) (rosterOfTwo "a,b" "c"))
        (.of (dkgOf ["a", "b,c"]) (rosterOfTwo "a" "b,c"))) := by
  refine ⟨accepted_dkgOf .plain _ _ _ (by decide +kernel),
    accepted_dkgOf .plain _ _ _ (by decide +kernel), fun h => ?_⟩
  have hSame := h (congrArg (fun text => hexText (textBytes text)) (by decide +kernel))
  exact absurd ((hSame.nodes "c").mp (by decide +kernel)) (by decide +kernel)

end KeroseneVault
