import KeroseneVault.Identity.Sign
import KeroseneVault.Lib.Framing

/-!
# What a signature of the identity daemon binds

The bytes that are signed are the fields of the request with bars between them. Two
of the fields are texts of any letters, the nonce and the instant are bytes of any
value, and the message ends the bytes, so that the bars do not say where a field ends.

* `BoundFields.bytes` — what is signed after the operation;
* `BoundFields.Unambiguous` — fields that read back;
* `SameFields` — two requests say the same, an absent field being its default;
* `Binds` — whatever else the server signs as the same bytes says the same.

Main results:

* `Unambiguous.eq_of_bytes`, `unambiguous_of_unique` — unambiguous fields are those
  that no others have the bytes of;
* `boundMessage_binds_iff` — a request is bound exactly where its fields read back.
-/

namespace KeroseneVault

/-- The byte of `|`. -/
def bar : UInt8 := 0x7c

/-! ## Bytes -/

/-- The bytes of a text. -/
def IsText (bytes : List UInt8) : Prop := ∃ s, textBytes s = bytes

theorem eq_bar_of_mem {c : Char} (h : bar ∈ String.utf8EncodeChar c) : c = '|' := by
  have hByte (m : Nat) (hm : m < 256) (hEq : bar = UInt8.ofNat m) : m = 124 := by
    have hNat := congrArg UInt8.toNat hEq
    rw [UInt8.toNat_ofNat', Nat.mod_eq_of_lt hm] at hNat
    exact hNat.symm
  unfold String.utf8EncodeChar at h
  dsimp only at h
  -- a letter of two bytes or more has none below 0x80
  split_ifs at h <;> simp only [List.mem_cons, List.not_mem_nil, or_false] at h
  · have hVal := hByte _ (by omega) h
    exact Char.ext (UInt32.toNat_inj.mp hVal)
  · rcases h with h | h <;> have hVal := hByte _ (by omega) h <;> omega
  · rcases h with h | h | h <;> have hVal := hByte _ (by omega) h <;> omega
  · rcases h with h | h | h | h <;> have hVal := hByte _ (by omega) h <;> omega

theorem isText_append_bar (a b : List UInt8) :
    IsText (a ++ bar :: b) ↔ IsText a ∧ IsText b := by
  have hCoded (bytes : List UInt8) :
      IsText bytes ↔ Framing.Coded String.utf8EncodeChar bytes := by
    constructor
    · rintro ⟨s, rfl⟩
      exact ⟨s.toList, (textBytes_eq_flatMap s).symm⟩
    · rintro ⟨text, rfl⟩
      exact ⟨String.ofList text, by rw [textBytes_eq_flatMap, String.toList_ofList]⟩
  have hBar : String.utf8EncodeChar '|' = [bar] := by decide
  rw [hCoded, hCoded, hCoded]
  exact Framing.coded_append_sep_iff hBar (fun c => eq_bar_of_mem) a b

theorem bar_mem_textBytes {s : String} : bar ∈ textBytes s ↔ '|' ∈ s.toList := by
  rw [textBytes_eq_flatMap, List.mem_flatMap]
  constructor
  · rintro ⟨c, hc, hBar⟩
    exact eq_bar_of_mem hBar ▸ hc
  · intro h
    exact ⟨'|', h, by decide⟩

theorem length_toLeBytes (n : U64) : (toLeBytes n).length = 8 := by
  rw [toLeBytes, List.length_map, List.length_range]

theorem toLeBytes_inj {m n : U64} : toLeBytes m = toLeBytes n ↔ m = n := by
  constructor
  · intro h
    have hm := m.2
    have hn := n.2
    unfold u64Max at hm hn
    exact Subtype.ext (leBytes_inj (k := 8) (by omega) (by omega) h)
  · rintro rfl
    rfl

/-- Any eight bytes are of a number. -/
theorem exists_toLeBytes {bytes : List UInt8} (h : bytes.length = 8) :
    ∃ n, toLeBytes n = bytes := by
  obtain ⟨n, hn, hBytes⟩ := exists_leBytes bytes
  rw [h] at hn hBytes
  exact ⟨⟨n, by unfold u64Max; omega⟩, hBytes⟩

/-! ## Fields -/

/-- A message has half as many bytes as its hexadecimal text. -/
def maxMessageBytes : Nat := maxSignMessageBytes / 2

/-- What is signed after the operation, field by field. -/
@[ext]
structure BoundFields where
  nonce : List UInt8
  stamp : List UInt8
  policy : List UInt8
  caller : List UInt8
  message : List UInt8

namespace BoundFields

/-- The fields with bars between them. -/
def bytes (f : BoundFields) : List UInt8 :=
  f.nonce ++ bar :: (f.stamp ++ bar :: Framing.twoParts bar f.policy f.caller f.message)

/-- The fields that a request can have. -/
structure Admitted (f : BoundFields) : Prop where
  nonce : 8 ≤ f.nonce.length ∧ f.nonce.length ≤ 64
  stamp : f.stamp.length = 8
  policy : IsText f.policy
  caller : IsText f.caller
  message : f.message.length ≤ maxMessageBytes

/-- The bytes of the fields are not those of other fields. -/
structure Unambiguous (f : BoundFields) : Prop where
  policy : bar ∉ f.policy
  caller : bar ∉ f.caller
  /-- What stands before a bar of the message is no text. -/
  message : ∀ text rest, f.message = text ++ bar :: rest → ¬ IsText text
  /-- If the nonce ended at a bar in it, what is left of the nonce and the instant after
  eight bytes and a bar would be no text, and no two texts with a rest that fits. -/
  shorter : ∀ nonce stamp gap, 8 ≤ nonce.length → stamp.length = 8 →
    f.nonce ++ bar :: f.stamp = nonce ++ bar :: (stamp ++ bar :: gap) →
      ¬ IsText gap ∧ ∀ policy caller rest, IsText policy → IsText caller →
        gap = Framing.twoParts bar policy caller rest →
          maxMessageBytes <
            (rest ++ bar :: Framing.twoParts bar f.policy f.caller f.message).length
  /-- If the nonce went on to a bar in the message, with two texts after that bar, the
  eight bytes before it would not stand after a bar, or the nonce would be too long. -/
  longer : ∀ gap policy caller rest more stamp, IsText policy → IsText caller →
    f.message = gap ++ bar :: Framing.twoParts bar policy caller rest → stamp.length = 8 →
      f.stamp ++ bar :: Framing.twoParts bar f.policy f.caller gap = more ++ bar :: stamp →
        64 < f.nonce.length + 1 + more.length

theorem lead_of_shorter {a b x y : List UInt8} (hLength : a.length < b.length)
    (h : a ++ bar :: x = b ++ bar :: y) : ∃ u, b = a ++ bar :: u ∧ x = u ++ bar :: y := by
  rcases Framing.append_sep_eq_iff.mp h with ⟨rfl, -⟩ | hLonger | ⟨u, rfl, -⟩
  · omega
  · exact hLonger
  · rw [List.length_append, List.length_cons] at hLength
    omega

variable {f g : BoundFields}

/-- Two writings of the bytes, cut after the instant. -/
theorem bytes_eq (f : BoundFields) : f.bytes = (f.nonce ++ bar :: f.stamp) ++
    bar :: Framing.twoParts bar f.policy f.caller f.message := by
  rw [bytes, List.append_assoc, List.cons_append]

/-- Unambiguous fields read back. -/
theorem Unambiguous.eq_of_bytes (h : f.Unambiguous) (hf : f.Admitted) (hg : g.Admitted)
    (hBytes : g.bytes = f.bytes) : g = f := by
  have hStamps : g.stamp.length = f.stamp.length := hg.stamp.trans hf.stamp.symm
  -- by which of the two nonces is the shorter one
  rcases Nat.lt_trichotomy g.nonce.length f.nonce.length with hLength | hLength | hLength
  · -- the nonce of `f` is read further than that of `g`
    rw [bytes_eq, bytes_eq] at hBytes
    obtain ⟨gap, hGap, hRest⟩ := lead_of_shorter (by
      simp only [List.length_append, List.length_cons]; omega) hBytes
    rw [List.append_assoc, List.cons_append] at hGap
    obtain ⟨hNoText, hLong⟩ := h.shorter g.nonce g.stamp gap hg.nonce.1 hg.stamp hGap
    rcases Framing.lead_of_twoParts isText_append_bar hg.policy hg.caller hRest.symm with
      hText | ⟨rest, hParts, hMessage⟩
    · exact absurd hText hNoText
    · have hFits := hg.message
      rw [hMessage] at hFits
      have hOver := hLong g.policy g.caller rest hg.policy hg.caller hParts
      omega
  · -- the nonces end together, and so do the instants
    obtain ⟨hNonce, hRest⟩ := List.append_inj hBytes hLength
    obtain ⟨hStamp, hRest⟩ := List.append_inj (List.cons.inj hRest).2 hStamps
    obtain ⟨hPolicy, hCaller, hMessage⟩ := Framing.twoParts_inj isText_append_bar h.policy h.caller
      h.message hg.policy hg.caller (List.cons.inj hRest).2.symm
    exact BoundFields.ext hNonce hStamp hPolicy.symm hCaller.symm hMessage.symm
  · rw [bytes_eq, bytes_eq] at hBytes
    obtain ⟨gap, hGap, hRest⟩ := lead_of_shorter (by
      simp only [List.length_append, List.length_cons]; omega) hBytes.symm
    rw [List.append_assoc, List.cons_append] at hGap
    obtain ⟨more, hNonce, hMore⟩ := lead_of_shorter hLength hGap.symm
    obtain ⟨u, hu, hMessage⟩ := Framing.twoParts_of_lead isText_append_bar h.policy h.caller
      h.message hg.policy hg.caller hRest
    have hOver := h.longer u g.policy g.caller g.message more g.stamp hg.policy hg.caller hMessage
      hg.stamp (hu ▸ hMore)
    have hFits := hg.nonce.2
    rw [hNonce, List.length_append, List.length_cons] at hFits
    omega

/-- Fields without bars read back, whatever the bytes of the instant. -/
theorem unambiguous_of_no_bar (hStamp : f.stamp.length = 8) (hNonce : bar ∉ f.nonce)
    (hPolicy : bar ∉ f.policy) (hCaller : bar ∉ f.caller) (hMessage : bar ∉ f.message) :
    f.Unambiguous where
  policy := hPolicy
  caller := hCaller
  message := by
    intro text rest hCut
    exact absurd (hCut ▸ List.mem_append_right _ List.mem_cons_self) hMessage
  shorter := by
    intro nonce stamp gap _ hLength hCut
    -- the instant is too short for another one and a bar
    have hShort (u : List UInt8) : f.stamp ≠ u ++ (stamp ++ bar :: gap) := by
      intro hStampEq
      rw [hStampEq, List.length_append, List.length_append, List.length_cons] at hStamp
      omega
    rcases Framing.append_sep_eq_iff.mp hCut with ⟨-, hRest⟩ | ⟨u, -, hRest⟩ | ⟨u, hEq, -⟩
    · exact absurd hRest (hShort [])
    · exact absurd (hRest.trans (List.append_cons u bar _)) (hShort (u ++ [bar]))
    · exact absurd (hEq ▸ List.mem_append_right _ List.mem_cons_self) hNonce
  longer := by
    intro gap policy caller rest more stamp _ _ hCut
    exact absurd (hCut ▸ List.mem_append_right _ List.mem_cons_self) hMessage

/-- A part that goes on after a bar is another part. -/
theorem ne_append_bar (a u : List UInt8) : a ++ bar :: u ≠ a := by
  intro h
  have hLength := congrArg List.length h
  rw [List.length_append, List.length_cons] at hLength
  omega

/-- Fields that no others have the bytes of are unambiguous. -/
theorem unambiguous_of_unique (hf : f.Admitted)
    (hUnique : ∀ g : BoundFields, g.Admitted → g.bytes = f.bytes → g = f) : f.Unambiguous where
  policy := by
    intro hBar
    obtain ⟨x, y, hPolicy⟩ := List.append_of_mem hBar
    have hTexts := (isText_append_bar x y).mp (hPolicy ▸ hf.policy)
    -- what stands after the bar goes to the caller
    have hSame := hUnique { f with policy := x, caller := y ++ bar :: f.caller }
      { hf with
        policy := hTexts.1
        caller := (isText_append_bar _ _).mpr ⟨hTexts.2, hf.caller⟩ }
      (by simp [bytes, Framing.twoParts, hPolicy])
    exact ne_append_bar x y (hPolicy.symm.trans (congrArg policy hSame).symm)
  caller := by
    intro hBar
    obtain ⟨x, y, hCaller⟩ := List.append_of_mem hBar
    have hTexts := (isText_append_bar x y).mp (hCaller ▸ hf.caller)
    -- what stands before the bar goes to the policy
    have hSame := hUnique { f with policy := f.policy ++ bar :: x, caller := y }
      { hf with
        policy := (isText_append_bar _ _).mpr ⟨hf.policy, hTexts.1⟩
        caller := hTexts.2 }
      (by simp [bytes, Framing.twoParts, hCaller])
    exact ne_append_bar _ _ (congrArg policy hSame)
  message := by
    intro text rest hMessage hText
    have hFits := hf.message
    rw [hMessage, List.length_append, List.length_cons] at hFits
    have hSame := hUnique { f with caller := f.caller ++ bar :: text, message := rest }
      { hf with
        caller := (isText_append_bar _ _).mpr ⟨hf.caller, hText⟩
        message := by dsimp only; omega }
      (by simp [bytes, Framing.twoParts, hMessage])
    exact ne_append_bar _ _ (congrArg caller hSame)
  shorter := by
    intro nonce stamp gap hNonce hStamp hCut
    have hLengths := congrArg List.length hCut
    simp only [List.length_append, List.length_cons, hf.stamp, hStamp] at hLengths
    have hBytes (g : BoundFields) (hgNonce : g.nonce = nonce) (hgStamp : g.stamp = stamp)
        (hRest : Framing.twoParts bar g.policy g.caller g.message =
          gap ++ bar :: Framing.twoParts bar f.policy f.caller f.message) :
        g.bytes = f.bytes := by
      rw [bytes_eq f, hCut, bytes, hgNonce, hgStamp, hRest]
      simp only [List.append_assoc, List.cons_append]
    -- other fields with the shorter nonce would not be `f`
    have hNoOther (g : BoundFields) (hgNonce : g.nonce = nonce) (hg : g = f) : False := by
      rw [← hg, hgNonce] at hLengths
      omega
    have hRange : 8 ≤ nonce.length ∧ nonce.length ≤ 64 := ⟨hNonce, by have := hf.nonce.2; omega⟩
    refine ⟨fun hText => ?_, fun policy caller rest hPolicy hCaller hParts => ?_⟩
    · have hSame := hUnique ⟨nonce, stamp, gap ++ bar :: f.policy, f.caller, f.message⟩
        ⟨hRange, hStamp, (isText_append_bar _ _).mpr ⟨hText, hf.policy⟩, hf.caller, hf.message⟩
        (hBytes _ rfl rfl (by simp [Framing.twoParts]))
      exact hNoOther _ rfl hSame
    · by_contra hFits
      have hSame := hUnique ⟨nonce, stamp, policy, caller,
          rest ++ bar :: Framing.twoParts bar f.policy f.caller f.message⟩
        ⟨hRange, hStamp, hPolicy, hCaller, Nat.le_of_not_lt hFits⟩
        (hBytes _ rfl rfl (by simp [Framing.twoParts, hParts]))
      exact hNoOther _ rfl hSame
  longer := by
    intro gap policy caller rest more stamp hPolicy hCaller hMessage hStamp hCut
    by_contra hLong
    have hFits := hf.message
    rw [hMessage] at hFits
    simp only [Framing.twoParts, List.length_append, List.length_cons] at hFits
    have hBytes : (⟨f.nonce ++ bar :: more, stamp, policy, caller, rest⟩ : BoundFields).bytes =
        f.bytes := by
      calc f.nonce ++ bar :: more ++
            bar :: (stamp ++ bar :: Framing.twoParts bar policy caller rest)
          = f.nonce ++ bar :: ((more ++ bar :: stamp) ++
              bar :: Framing.twoParts bar policy caller rest) := by simp
        _ = f.nonce ++ bar :: ((f.stamp ++ bar :: Framing.twoParts bar f.policy f.caller gap) ++
              bar :: Framing.twoParts bar policy caller rest) := by rw [hCut]
        _ = f.bytes := by simp [bytes, hMessage, Framing.twoParts]
    have hSame := hUnique ⟨f.nonce ++ bar :: more, stamp, policy, caller, rest⟩
      { nonce := by
          have := hf.nonce.1
          simp only [List.length_append, List.length_cons]
          omega
        stamp := hStamp
        policy := hPolicy
        caller := hCaller
        message := by dsimp only; omega }
      hBytes
    exact ne_append_bar _ _ (congrArg nonce hSame)

end BoundFields

/-! ## Requests -/

namespace SignEndpointBody

variable (req : SignEndpointBody)

/-- The policy hash, or its default. -/
def policy : String := req.policyHash.getD "none"

/-- The caller, or the default of one. -/
def caller : String := req.callerId.getD "unknown"

/-- The fields of a request with its nonce and its message as bytes. -/
def boundFields (nonce message : List UInt8) : BoundFields :=
  ⟨nonce, toLeBytes req.timestampSecs, textBytes req.policy, textBytes req.caller, message⟩

theorem boundMessage_eq (op : SignOp) (nonce message : List UInt8) :
    req.boundMessage op nonce message =
      op.domainSep ++ bar :: (textBytes req.opType ++
        bar :: (req.boundFields nonce message).bytes) := by
  have hBar : textBytes "|" = [bar] := rfl
  unfold boundMessage boundFields BoundFields.bytes Framing.twoParts policy caller
  simp only [hBar, List.append_assoc, List.cons_append, List.nil_append]

/-- The fields of a request read back: no other fields have their bytes. -/
def Unambiguous : Prop := ∃ nonce message, req.nonceBytes = some nonce ∧
  hexBytes req.message = .ok message ∧ (req.boundFields nonce message).Unambiguous

end SignEndpointBody

theorem bar_notMem_domainSep (op : SignOp) : bar ∉ op.domainSep := by
  cases op <;> decide +kernel

/-- An operation that is known has no bar in its name, in any case of letters. -/
theorem bar_notMem_opType {req : SignEndpointBody} {op : SignOp} (h : req.op = some op) :
    bar ∉ textBytes req.opType := by
  rw [bar_mem_textBytes]
  intro hMem
  have hLower : '|' ∈ (toAsciiLowercase req.opType).toList := by
    rw [toAsciiLowercase, String.toList_ofList]
    exact List.mem_map.mpr ⟨'|', hMem, rfl⟩
  unfold SignEndpointBody.op SignOp.fromLabel at h
  split at h
  · rename_i hLabel
    rw [hLabel] at hLower
    exact absurd hLower (by decide)
  · rename_i hLabel
    rw [hLabel] at hLower
    exact absurd hLower (by decide)
  · cases h

namespace IdentityServer

variable {κ σ : Type} {server : IdentityServer κ σ} {call : SignCall κ}

/-- Two requests say the same, an absent field being its default. -/
structure SameFields (a b : SignEndpointBody) : Prop where
  opType : a.opType = b.opType
  nonce : a.nonceBytes = b.nonceBytes
  timestampSecs : a.timestampSecs = b.timestampSecs
  policy : a.policy = b.policy
  caller : a.caller = b.caller
  message : hexBytes a.message = hexBytes b.message

/-- Whatever else the server signs as the same bytes says the same. -/
def Binds (server : IdentityServer κ σ) (call : SignCall κ) : Prop :=
  ∀ other, server.Signed other → signedText other.body = signedText call.body →
    SameFields other.body call.body

/-- The fields of a request that is signed. -/
theorem fields_of_signed (h : server.Signed call) : ∃ op nonce message,
    call.body.op = some op ∧ call.body.nonceBytes = some nonce ∧
      hexBytes call.body.message = .ok message ∧
      signedText call.body = some (call.body.boundMessage op nonce message) ∧
      (call.body.boundFields nonce message).Admitted := by
  obtain ⟨-, hSize, -, text, hText, -⟩ := signed_iff.mp h
  obtain ⟨op, nonce, message, hOp, hNonce, hMessage, rfl⟩ := signedText_eq_some.mp hText
  refine ⟨op, nonce, message, hOp, hNonce, hMessage, hText, ⟨?_, length_toLeBytes _, ⟨_, rfl⟩,
    ⟨_, rfl⟩, ?_⟩⟩
  · unfold SignEndpointBody.nonceBytes at hNonce
    cases hBytes : hexBytes (strTrim call.body.nonce) with
    | error e => rw [hBytes] at hNonce; cases hNonce
    | ok n =>
      rw [hBytes] at hNonce
      dsimp only at hNonce
      split_ifs at hNonce with hRange
      exact Option.some.inj hNonce ▸ hRange
  · have hLength := length_hexBytes hMessage
    show message.length ≤ maxMessageBytes
    unfold maxMessageBytes
    omega

theorem nonceBytes_of_hexText {req : SignEndpointBody} {nonce : List UInt8}
    (h : req.nonce = hexText nonce) (hRange : 8 ≤ nonce.length ∧ nonce.length ≤ 64) :
    req.nonceBytes = some nonce := by
  unfold SignEndpointBody.nonceBytes
  rw [h, strTrim_hexText, hexBytes_hexText]
  exact if_pos hRange

/-- Fields that a request can have are those of one that is signed, where their bytes
are those of one that is. -/
theorem exists_signed {op : SignOp} {nonce message : List UInt8} {g : BoundFields}
    (h : server.Signed call) (hOp : call.body.op = some op)
    (hText : signedText call.body = some (call.body.boundMessage op nonce message))
    (hg : g.Admitted) (hBytes : g.bytes = (call.body.boundFields nonce message).bytes) :
    ∃ other, server.Signed other ∧ signedText other.body = signedText call.body ∧
      other.body.nonceBytes = some g.nonce ∧ hexBytes other.body.message = .ok g.message ∧
      other.body.boundFields g.nonce g.message = g := by
  obtain ⟨stamp, hStamp⟩ := exists_toLeBytes hg.stamp
  obtain ⟨policy, hPolicy⟩ := hg.policy
  obtain ⟨caller, hCaller⟩ := hg.caller
  -- the request that names these fields, at the clock of its own instant
  let body : SignEndpointBody :=
    { call.body with
      message := hexText g.message
      policyHash := some policy
      callerId := some caller
      nonce := hexText g.nonce
      timestampSecs := stamp }
  have hFields : body.boundFields g.nonce g.message = g :=
    BoundFields.ext rfl hStamp hPolicy hCaller rfl
  have hNonce : body.nonceBytes = some g.nonce := nonceBytes_of_hexText rfl hg.nonce
  have hMessage : hexBytes body.message = .ok g.message := hexBytes_hexText g.message
  have hBound : body.boundMessage op g.nonce g.message =
      call.body.boundMessage op nonce message := by
    rw [body.boundMessage_eq, call.body.boundMessage_eq, hFields, hBytes]
  have hSame : signedText body = signedText call.body := by
    rw [hText, ← hBound]
    exact signedText_eq_some.mpr ⟨op, g.nonce, g.message, hOp, hNonce, hMessage, rfl⟩
  obtain ⟨hAuth, -, -, text, hSigned, hSig⟩ := signed_iff.mp h
  refine ⟨{ call with nowSecs := stamp, body }, signed_iff.mpr ⟨hAuth, ?_, ?_, text, ?_, hSig⟩,
    hSame, hNonce, hMessage, hFields⟩
  · show strLen (hexText g.message) ≤ maxSignMessageBytes
    have hFits := hg.message
    unfold maxMessageBytes at hFits
    rw [strLen_hexText]
    omega
  · have hMax := stamp.2
    unfold KeroseneVault.fresh satAdd
    rw [Bool.and_eq_true, decide_eq_true_eq, decide_eq_true_eq]
    show stamp.1 - skewSecs ≤ stamp.1 ∧ stamp.1 ≤ min (stamp.1 + skewSecs) u64Max
    omega
  · rw [hSame]
    exact hSigned

/--
**Binding.** What is signed for a request binds its fields exactly where they read
back from the bytes.
-/
theorem boundMessage_binds_iff (server : IdentityServer κ σ) (call : SignCall κ)
    (h : server.Signed call) : Binds server call ↔ call.body.Unambiguous := by
  obtain ⟨op, nonce, message, hOp, hNonce, hMessage, hText, hAdmitted⟩ := fields_of_signed h
  constructor
  · intro hBinds
    refine ⟨nonce, message, hNonce, hMessage, BoundFields.unambiguous_of_unique hAdmitted ?_⟩
    intro g hg hBytes
    obtain ⟨other, hOther, hSame, hNonce', hMessage', hFields⟩ :=
      exists_signed h hOp hText hg hBytes
    obtain ⟨-, hSameNonce, hStamp, hPolicy, hCaller, hSameMessage⟩ := hBinds other hOther hSame
    rw [hNonce', hNonce] at hSameNonce
    rw [hMessage', hMessage] at hSameMessage
    rw [← hFields]
    exact BoundFields.ext (Option.some.inj hSameNonce) (congrArg toLeBytes hStamp)
      (congrArg textBytes hPolicy) (congrArg textBytes hCaller) (Except.ok.inj hSameMessage)
  · rintro ⟨nonce', message', hNonce', hMessage', hUnambiguous⟩ other hOther hSame
    obtain rfl := Option.some.inj (hNonce.symm.trans hNonce')
    obtain rfl := Except.ok.inj (hMessage.symm.trans hMessage')
    obtain ⟨op', nonce', message', hOp', hNonce', hMessage', hText', hAdmitted'⟩ :=
      fields_of_signed hOther
    -- the operations are told apart before the fields are read
    rw [hText, hText', Option.some.injEq, other.body.boundMessage_eq, call.body.boundMessage_eq,
      Framing.append_sep_inj (bar_notMem_domainSep op') (bar_notMem_domainSep op)] at hSame
    obtain ⟨-, hRest⟩ := hSame
    rw [Framing.append_sep_inj (bar_notMem_opType hOp') (bar_notMem_opType hOp)] at hRest
    have hFields := hUnambiguous.eq_of_bytes hAdmitted hAdmitted' hRest.2
    rw [BoundFields.ext_iff] at hFields
    obtain ⟨hSameNonce, hStamp, hPolicy, hCaller, hSameMessage⟩ := hFields
    exact ⟨textBytes_inj.mp hRest.1, by rw [hNonce', hNonce]; exact congrArg some hSameNonce,
      toLeBytes_inj.mp hStamp, textBytes_inj.mp hPolicy, textBytes_inj.mp hCaller,
      by rw [hMessage', hMessage]; exact congrArg Except.ok hSameMessage⟩

/-- A request for an audit, under a policy and by a caller. -/
def namedCall (policy caller : String) : SignCall Unit :=
  { auditCall "0011223344556677" with
    body := { (auditCall "0011223344556677").body with
      policyHash := some policy
      callerId := some caller } }

theorem signed_namedCall (policy caller : String) :
    echoServer.Signed (namedCall policy caller) := by
  have hSize : strLen "00" ≤ maxSignMessageBytes := by decide +kernel
  have hFresh : fresh ⟨600, by decide⟩ ⟨600, by decide⟩ = true := by decide
  have hHex : "0011223344556677" = hexText [0x00, 0x11, 0x22, 0x33, 0x44, 0x55, 0x66, 0x77] := by
    decide +kernel
  have hNonce := @nonceBytes_of_hexText (namedCall policy caller).body _ hHex (by decide)
  have hBytes : hexBytes "00" = .ok [0x00] := by decide +kernel
  have hMessage : hexBytes (namedCall policy caller).body.message = .ok [0x00] := hBytes
  have hLabel : SignOp.fromLabel (toAsciiLowercase "audit") = some .audit := by decide
  have hOp : (namedCall policy caller).body.op = some .audit := hLabel
  have hText := signedText_eq_some.mpr ⟨.audit, _, _, hOp, hNonce, hMessage, rfl⟩
  exact signed_iff.mpr ⟨rfl, hSize, hFresh, _, hText, _, rfl⟩

/-- A policy and a caller without bars are bound. -/
theorem binds_namedCall : Binds echoServer (namedCall "p" "q") := by
  refine (boundMessage_binds_iff echoServer (namedCall "p" "q") (signed_namedCall "p" "q")).mpr
    ⟨[0x00, 0x11, 0x22, 0x33, 0x44, 0x55, 0x66, 0x77], [0x00], by decide +kernel,
      by decide +kernel, BoundFields.unambiguous_of_no_bar (length_toLeBytes _) ?_ ?_ ?_ ?_⟩
  · decide
  · exact bar_mem_textBytes.not.mpr (by decide)
  · exact bar_mem_textBytes.not.mpr (by decide)
  · decide

/-- A bar goes from the policy to the caller: one signature is for both. -/
theorem boundMessage_binds_fails : ¬ ∀ call, echoServer.Signed call → Binds echoServer call := by
  intro h
  have hSame := h (namedCall "p|q" "r") (signed_namedCall _ _) (namedCall "p" "q|r")
    (signed_namedCall _ _) (by decide +kernel)
  exact absurd hSame.caller (by decide)

end IdentityServer

end KeroseneVault
