import KeroseneVault.Dkg.ShareStore
import KeroseneVault.Domain.Intake
import KeroseneVault.Release.Candidate

/-!
# The envelope of a hardware quote

`attestation_tee/quote.rs`. A report of the hardware travels with the platform it comes from
and the measurement it is about: a magic, a version, the platform, 64 hexadecimal digits, the
length of the report and the report.

* `HwQuoteEnvelope.encode`, `HwQuoteEnvelope.decode` — the envelope and its bytes;
* `lowerMeasurement` — the bytes with the digits in lower case, as a `Measurement` keeps them.

Main results:

* `decode_ne_panicked` — no bytes make the decoder panic;
* `decode_eq_ok_iff` — what is accepted is an envelope's bytes, but for the case of digits.
-/

namespace KeroseneVault

-- ---------------------------------------------------------------------------
-- The envelope
-- ---------------------------------------------------------------------------

/-- `Measurement`, whose digits a `ContentHash` takes over. -/
abbrev Measurement := ContentHash

/-- `Measurement::from_hex`. -/
def Measurement.fromHex (hexStr : String) : Except DomainError Measurement :=
  ContentHash.parse hexStr

/-- `QUOTE_MAGIC`. -/
def quoteMagic : List UInt8 := textBytes "KVAQTEE1"

/-- `QUOTE_VERSION`. -/
def quoteVersion : UInt8 := 1

/-- `PLATFORM_SEV`. -/
def platformSev : UInt8 := 1

/-- `PLATFORM_SGX`. -/
def platformSgx : UInt8 := 2

/-- `HwQuoteEnvelope`. -/
structure HwQuoteEnvelope where
  platform : UInt8
  measurement : Measurement
  report : List UInt8
  deriving DecidableEq

namespace HwQuoteEnvelope

/-- `encode`. -/
def encode (e : HwQuoteEnvelope) : List UInt8 :=
  quoteMagic ++ [quoteVersion] ++ [e.platform] ++ textBytes e.measurement.text ++
    beBytes 4 (e.report.length % 2 ^ 32) ++ e.report

/-- `decode`. -/
def decode (blob : List UInt8) : Intake DomainError HwQuoteEnvelope :=
  if blob.length < 8 + 1 + 1 + 64 + 4 then
    .error (.attestationRejected "HW quote envelope too short")
  else (slice blob 0 8).andThen fun magic =>
    if magic ≠ quoteMagic then .error (.attestationRejected "HW quote magic mismatch")
    else (byteAt blob 8).andThen fun version =>
      if version ≠ quoteVersion then
        .error (.attestationRejected s!"unsupported HW quote version {version}")
      else (byteAt blob 9).andThen fun platform =>
        if platform ≠ platformSev ∧ platform ≠ platformSgx then
          .error (.attestationRejected s!"unknown HW quote platform {platform}")
        else (slice blob 10 74).andThen fun hex =>
          match readText hex with
          | none => .error (.attestationRejected "HW quote measurement not ascii hex")
          | some measHex =>
            match Measurement.fromHex measHex with
            | .error e => .error e
            | .ok measurement =>
              (byteAt blob 74).andThen fun b0 => (byteAt blob 75).andThen fun b1 =>
              (byteAt blob 76).andThen fun b2 => (byteAt blob 77).andThen fun b3 =>
              (usizeAdd 78 (beNat [b0, b1, b2, b3])).andThen fun length =>
                if blob.length ≠ length then
                  .error (.attestationRejected "HW quote report length mismatch")
                else (sliceFrom blob 78).andThen fun report =>
                  .ok ⟨platform, measurement, report⟩

/-- A platform the decoder knows. -/
def KnownPlatform (e : HwQuoteEnvelope) : Prop :=
  e.platform = platformSev ∨ e.platform = platformSgx

end HwQuoteEnvelope

-- ---------------------------------------------------------------------------
-- Digits in either case
-- ---------------------------------------------------------------------------

/-- `u8::to_ascii_lowercase`. -/
def byteToLower (b : UInt8) : UInt8 := if 65 ≤ b ∧ b ≤ 90 then b + 32 else b

/-- The bytes of an envelope with the digits of the measurement in lower case. -/
def lowerMeasurement (blob : List UInt8) : List UInt8 :=
  blob.take 10 ++ (((blob.drop 10).take 64).map byteToLower ++ blob.drop 74)

/-- A hexadecimal digit of either case is one byte, and so is its lower case. -/
theorem utf8Encode_hexdigit {c : Char} (h : isAsciiHexdigit c = true) :
    String.utf8EncodeChar c = [UInt8.ofNat c.toNat] ∧
      String.utf8EncodeChar c.toLower = [byteToLower (UInt8.ofNat c.toNat)] := by
  have hAll : "0123456789abcdefABCDEF".toList.all (fun d =>
      decide (String.utf8EncodeChar d = [UInt8.ofNat d.toNat] ∧
        String.utf8EncodeChar d.toLower = [byteToLower (UInt8.ofNat d.toNat)])) = true := by
    decide
  exact of_decide_eq_true (List.all_eq_true.mp hAll c (List.contains_iff_mem.mp h))

/-- A hexadecimal digit is the character of its byte. -/
theorem char_of_hexdigit {c : Char} (h : isAsciiHexdigit c = true) :
    Char.ofNat (UInt8.ofNat c.toNat).toNat = c := by
  have hAll : "0123456789abcdefABCDEF".toList.all (fun d =>
      decide (Char.ofNat (UInt8.ofNat d.toNat).toNat = d)) = true := by
    decide
  exact of_decide_eq_true (List.all_eq_true.mp hAll c (List.contains_iff_mem.mp h))

/-- A text of such digits has a byte for each, and lower case goes byte by byte. -/
theorem textBytes_hexdigits {cs : List Char} (h : ∀ c ∈ cs, isAsciiHexdigit c = true) :
    textBytes (String.ofList cs) = cs.map (fun c => UInt8.ofNat c.toNat) ∧
      textBytes (String.ofList (cs.map Char.toLower)) =
        (textBytes (String.ofList cs)).map byteToLower := by
  rw [textBytes_eq_flatMap, textBytes_eq_flatMap, String.toList_ofList, String.toList_ofList]
  induction cs with
  | nil => exact ⟨rfl, rfl⟩
  | cons c cs ih =>
    obtain ⟨hByte, hLower⟩ := utf8Encode_hexdigit (h c List.mem_cons_self)
    obtain ⟨hBytes, hLowers⟩ := ih fun d hd => h d (List.mem_cons_of_mem _ hd)
    constructor
    · rw [List.flatMap_cons, hByte, hBytes]
      rfl
    · rw [List.map_cons, List.flatMap_cons, hLower, hLowers, List.flatMap_cons, hByte]
      rfl

/-- A byte whose lower case is a digit is a digit of either case. -/
theorem hexdigit_of_byteToLower {b : UInt8}
    (h : (hexDigit (Char.ofNat (byteToLower b).toNat)).isSome = true) :
    isAsciiHexdigit (Char.ofNat b.toNat) = true ∧ UInt8.ofNat (Char.ofNat b.toNat).toNat = b := by
  have hAll : ∀ n < 256, (hexDigit (Char.ofNat (byteToLower (UInt8.ofNat n)).toNat)).isSome = true →
      isAsciiHexdigit (Char.ofNat n) = true ∧ (Char.ofNat n).toNat = n := by
    decide +kernel
  have hb := hAll b.toNat b.toNat_lt (by rwa [UInt8.ofNat_toNat])
  exact ⟨hb.1, by rw [hb.2, UInt8.ofNat_toNat]⟩

/-- The digits of a measurement, each one byte. -/
theorem textBytes_measurement (m : Measurement) :
    textBytes m.text = m.text.toList.map (fun c => UInt8.ofNat c.toNat) ∧
      (textBytes m.text).length = 64 := by
  have hDigits : ∀ c ∈ m.text.toList, isAsciiHexdigit c = true := fun c hc =>
    (isAsciiHexdigit_of_hexDigit (m.hex.2 c hc)).1
  have hBytes := (textBytes_hexdigits hDigits).1
  rw [String.ofList_toList] at hBytes
  exact ⟨hBytes, by rw [hBytes, List.length_map, m.hex.1]⟩

/-- 64 bytes are read as a measurement exactly if their lower case is its digits. -/
theorem fromHex_readText_iff {hex : List UInt8} (hLength : hex.length = 64) {m : Measurement} :
    (∃ s, readText hex = some s ∧ Measurement.fromHex s = .ok m) ↔
      hex.map byteToLower = textBytes m.text := by
  unfold Measurement.fromHex
  constructor
  · rintro ⟨s, hRead, hParse⟩
    unfold ContentHash.parse at hParse
    split at hParse
    · rename_i hDigits
      obtain rfl := Except.ok.inj hParse
      have hLower := (textBytes_hexdigits (List.all_eq_true.mp hDigits.2)).2
      rw [String.ofList_toList, textBytes_of_readText hRead] at hLower
      exact hLower.symm
    · cases hParse
  · intro hLower
    -- every byte is a digit, since its lower case is one of the measurement
    have hDigits : ∀ b ∈ hex, isAsciiHexdigit (Char.ofNat b.toNat) = true ∧
        UInt8.ofNat (Char.ofNat b.toNat).toNat = b := by
      intro b hb
      have hMem : byteToLower b ∈ textBytes m.text := hLower ▸ List.mem_map_of_mem hb
      rw [(textBytes_measurement m).1] at hMem
      obtain ⟨c, hc, hByte⟩ := List.mem_map.mp hMem
      have hDigit := m.hex.2 c hc
      rw [← char_of_hexdigit (isAsciiHexdigit_of_hexDigit hDigit).1, hByte] at hDigit
      exact hexdigit_of_byteToLower hDigit
    let cs := hex.map fun b => Char.ofNat b.toNat
    have hCs : ∀ c ∈ cs, isAsciiHexdigit c = true := by
      intro c hc
      obtain ⟨b, hb, rfl⟩ := List.mem_map.mp hc
      exact (hDigits b hb).1
    have hBytes : textBytes (String.ofList cs) = hex := by
      rw [(textBytes_hexdigits hCs).1, List.map_map]
      exact (List.map_congr_left fun b hb => (hDigits b hb).2).trans (List.map_id hex)
    refine ⟨String.ofList cs, ?_, ?_⟩
    · have hRead := readText_textBytes (String.ofList cs)
      rwa [hBytes] at hRead
    · have hAccepted : (String.ofList cs).toList.length = 64 ∧
          (String.ofList cs).toList.all isAsciiHexdigit = true := by
        rw [String.toList_ofList]
        exact ⟨(List.length_map _).trans hLength, List.all_eq_true.mpr hCs⟩
      unfold ContentHash.parse
      rw [dif_pos hAccepted]
      refine congrArg Except.ok (ContentHash.ext_text (textBytes_inj.mp ?_))
      dsimp only
      rw [String.toList_ofList, (textBytes_hexdigits hCs).2, hBytes, hLower]

-- ---------------------------------------------------------------------------
-- What is decoded
-- ---------------------------------------------------------------------------

namespace HwQuoteEnvelope

/-- The parts of bytes that are long enough. -/
theorem exists_quote_parts {blob : List UInt8} (h : 78 ≤ blob.length) :
    ∃ magic version platform hex b0 b1 b2 b3 report,
      blob = magic ++ version :: platform :: (hex ++ b0 :: b1 :: b2 :: b3 :: report) ∧
        magic.length = 8 ∧ hex.length = 64 := by
  obtain ⟨magic, rest, rfl, hMagic⟩ := exists_parts (show 8 ≤ blob.length by omega)
  rw [List.length_append] at h
  match rest, h with
  | [], h | [_], h => simp at h; omega
  | version :: platform :: rest, h =>
    rw [List.length_cons, List.length_cons] at h
    obtain ⟨hex, rest, rfl, hHex⟩ := exists_parts (show 64 ≤ rest.length by omega)
    rw [List.length_append] at h
    match rest, h with
    | [], h | [_], h | [_, _], h | [_, _, _], h => simp at h; omega
    | b0 :: b1 :: b2 :: b3 :: report, _ =>
      exact ⟨magic, version, platform, hex, b0, b1, b2, b3, report, rfl, hMagic, hHex⟩

section Parts

variable {magic hex report : List UInt8} {version platform b0 b1 b2 b3 : UInt8}
  (hMagic : magic.length = 8) (hHex : hex.length = 64)
include hMagic hHex

/-- The decoder looks at one part after the other, and no slice is out of bounds. -/
theorem decode_parts :
    decode (magic ++ version :: platform :: (hex ++ b0 :: b1 :: b2 :: b3 :: report)) =
      if magic ≠ quoteMagic then .error (.attestationRejected "HW quote magic mismatch")
      else if version ≠ quoteVersion then
        .error (.attestationRejected s!"unsupported HW quote version {version}")
      else if platform ≠ platformSev ∧ platform ≠ platformSgx then
        .error (.attestationRejected s!"unknown HW quote platform {platform}")
      else match readText hex with
        | none => .error (.attestationRejected "HW quote measurement not ascii hex")
        | some measHex =>
          match Measurement.fromHex measHex with
          | .error e => .error e
          | .ok measurement =>
            if report.length ≠ beNat [b0, b1, b2, b3] then
              .error (.attestationRejected "HW quote report length mismatch")
            else .ok ⟨platform, measurement, report⟩ := by
  generalize hBlob :
    magic ++ version :: platform :: (hex ++ b0 :: b1 :: b2 :: b3 :: report) = blob
  -- the bytes before the length of the report, and those before the report
  have hFront : (magic ++ version :: platform :: hex).length = 74 := by
    rw [List.length_append, List.length_cons, List.length_cons, hMagic, hHex]
  have hLength : blob.length = 78 + report.length := by
    rw [← hBlob]
    simp only [List.length_append, List.length_cons, hMagic, hHex]
    omega
  have hLong : ¬ blob.length < 8 + 1 + 1 + 64 + 4 := by omega
  have hParts (part : List UInt8) : magic ++ version :: platform :: (hex ++ part) =
      (magic ++ version :: platform :: hex) ++ part := by
    rw [List.append_assoc, List.cons_append, List.cons_append]
  have hMagicAt : (slice blob 0 8 : Intake DomainError _) = .ok magic := by
    rw [← hBlob]
    exact slice_parts (a := []) rfl (by omega)
  have hVersionAt : (byteAt blob 8 : Intake DomainError _) = .ok version := by
    rw [← hBlob]
    exact byteAt_parts hMagic
  have hPlatformAt : (byteAt blob 9 : Intake DomainError _) = .ok platform := by
    rw [← hBlob, ← List.singleton_append, ← List.append_assoc]
    exact byteAt_parts (by rw [List.length_append, hMagic]; rfl)
  have hHexAt : (slice blob 10 74 : Intake DomainError _) = .ok hex := by
    rw [← hBlob]
    show slice (magic ++ ([version, platform] ++ (hex ++ _))) 10 74 = _
    rw [← List.append_assoc]
    exact slice_parts (by rw [List.length_append, hMagic]; rfl) (by omega)
  have hByteAt (front : List UInt8) {b : UInt8} {back : List UInt8} {i : ℕ}
      (hBytes : b0 :: b1 :: b2 :: b3 :: report = front ++ b :: back)
      (hi : 74 + front.length = i) : (byteAt blob i : Intake DomainError _) = .ok b := by
    rw [← hBlob, hParts, hBytes, ← List.append_assoc]
    exact byteAt_parts (by rw [List.length_append, hFront, hi])
  have hByte0 : (byteAt blob 74 : Intake DomainError _) = .ok b0 := hByteAt [] rfl rfl
  have hByte1 : (byteAt blob 75 : Intake DomainError _) = .ok b1 := hByteAt [b0] rfl rfl
  have hByte2 : (byteAt blob 76 : Intake DomainError _) = .ok b2 := hByteAt [b0, b1] rfl rfl
  have hByte3 : (byteAt blob 77 : Intake DomainError _) = .ok b3 := hByteAt [b0, b1, b2] rfl rfl
  have hReportAt : (sliceFrom blob 78 : Intake DomainError _) = .ok report := by
    rw [← hBlob, hParts]
    show sliceFrom (_ ++ ([b0, b1, b2, b3] ++ report)) 78 = _
    rw [← List.append_assoc]
    exact sliceFrom_parts (by rw [List.length_append, hFront]; rfl)
  have hSum : (usizeAdd 78 (beNat [b0, b1, b2, b3]) : Intake DomainError _) =
      .ok (78 + beNat [b0, b1, b2, b3]) := by
    have hLess := beNat_lt_of_four b0 b1 b2 b3
    exact usizeAdd_eq (by omega)
  unfold decode
  rw [if_neg hLong]
  simp only [hMagicAt, hVersionAt, hPlatformAt, hHexAt, hByte0, hByte1, hByte2, hByte3, hReportAt,
    hSum, Intake.ok_andThen, hLength, ne_eq, Nat.add_left_cancel_iff]

end Parts

/-- No bytes make the decoder panic. -/
theorem decode_ne_panicked (blob : List UInt8) : decode blob ≠ .panicked := by
  intro hPanics
  by_cases hShort : blob.length < 8 + 1 + 1 + 64 + 4
  · unfold decode at hPanics
    rw [if_pos hShort] at hPanics
    cases hPanics
  · obtain ⟨magic, version, platform, hex, b0, b1, b2, b3, report, rfl, hMagic, hHex⟩ :=
      exists_quote_parts (show 78 ≤ blob.length by omega)
    rw [decode_parts hMagic hHex] at hPanics
    -- on the parts there is nothing left but refusals and the envelope
    repeat' split at hPanics
    all_goals cases hPanics

/-- The bytes of an envelope, part by part. -/
theorem encode_parts (e : HwQuoteEnvelope) :
    ∃ b0 b1 b2 b3, beBytes 4 (e.report.length % 2 ^ 32) = [b0, b1, b2, b3] ∧
      e.encode = quoteMagic ++ quoteVersion :: e.platform ::
        (textBytes e.measurement.text ++ b0 :: b1 :: b2 :: b3 :: e.report) := by
  have hLength : (beBytes 4 (e.report.length % 2 ^ 32)).length = 4 := length_beBytes 4 _
  match hBytes : beBytes 4 (e.report.length % 2 ^ 32), hLength with
  | [b0, b1, b2, b3], _ =>
    refine ⟨b0, b1, b2, b3, rfl, ?_⟩
    unfold encode
    rw [hBytes]
    simp only [List.append_assoc, List.cons_append, List.nil_append]

/-- The lower case of bytes, part by part. -/
theorem lowerMeasurement_parts {magic hex rest : List UInt8} {version platform : UInt8}
    (hMagic : magic.length = 8) (hHex : hex.length = 64) :
    lowerMeasurement (magic ++ version :: platform :: (hex ++ rest)) =
      magic ++ version :: platform :: (hex.map byteToLower ++ rest) := by
  have hFront : (magic ++ [version, platform]).length = 10 := by
    rw [List.length_append, hMagic]
    rfl
  have hParts (part : List UInt8) : magic ++ version :: platform :: part =
      (magic ++ [version, platform]) ++ part := by
    rw [List.append_assoc]
    rfl
  unfold lowerMeasurement
  rw [hParts, List.take_left' hFront, List.drop_left' hFront, List.take_left' hHex,
    show 74 = 10 + 64 from rfl, ← List.drop_drop, List.drop_left' hFront, List.drop_left' hHex,
    ← hParts]

/-- What is accepted is, but for the case of digits, the bytes of the envelope. -/
theorem decode_eq_ok_iff {blob : List UInt8} {e : HwQuoteEnvelope} :
    decode blob = .ok e ↔
      e.KnownPlatform ∧ e.report.length < 2 ^ 32 ∧ e.encode = lowerMeasurement blob := by
  constructor
  · intro hOk
    by_cases hShort : blob.length < 8 + 1 + 1 + 64 + 4
    · unfold decode at hOk
      rw [if_pos hShort] at hOk
      cases hOk
    obtain ⟨magic, version, platform, hex, b0, b1, b2, b3, report, rfl, hMagic, hHex⟩ :=
      exists_quote_parts (show 78 ≤ blob.length by omega)
    rw [decode_parts hMagic hHex] at hOk
    split at hOk
    · cases hOk
    rename_i hMagicEq
    split at hOk
    · cases hOk
    rename_i hVersion
    split at hOk
    · cases hOk
    rename_i hPlatform
    split at hOk
    · cases hOk
    rename_i measHex hRead
    split at hOk
    · cases hOk
    rename_i measurement hParse
    split at hOk
    · cases hOk
    rename_i hReport
    cases hOk
    rw [not_not] at hMagicEq hVersion hReport
    have hLess : report.length < 2 ^ 32 := by
      rw [hReport]
      exact beNat_lt_of_four b0 b1 b2 b3
    refine ⟨or_iff_not_and_not.mpr hPlatform, hLess, ?_⟩
    have hBytes : beBytes 4 (report.length % 2 ^ 32) = [b0, b1, b2, b3] := by
      rw [Nat.mod_eq_of_lt hLess, hReport]
      exact beBytes_beNat [b0, b1, b2, b3]
    rw [lowerMeasurement_parts hMagic hHex, (fromHex_readText_iff hHex).mp ⟨_, hRead, hParse⟩]
    unfold encode
    rw [hBytes, hMagicEq, hVersion]
    simp only [List.append_assoc, List.cons_append, List.nil_append]
  · rintro ⟨hKnown, hLess, hLower⟩
    obtain ⟨c0, c1, c2, c3, hBytes, hEncode⟩ := encode_parts e
    -- lower case changes no length, so the bytes are long enough and have the parts
    have hLong : 78 ≤ blob.length := by
      have hLengths := congrArg List.length hLower
      rw [hEncode, lowerMeasurement] at hLengths
      simp only [List.length_append, List.length_cons, List.length_map, List.length_take,
        List.length_drop, (textBytes_measurement e.measurement).2] at hLengths
      have hMagic : quoteMagic.length = 8 := by decide
      omega
    obtain ⟨magic, version, platform, hex, b0, b1, b2, b3, report, rfl, hMagic, hHex⟩ :=
      exists_quote_parts hLong
    rw [hEncode, lowerMeasurement_parts hMagic hHex] at hLower
    -- equal bytes have equal parts, one after the other
    obtain ⟨hMagicEq, hRest⟩ := List.append_inj hLower (by rw [hMagic]; decide)
    obtain ⟨hVersion, hRest⟩ := List.cons.inj hRest
    obtain ⟨hPlatform, hRest⟩ := List.cons.inj hRest
    obtain ⟨hHexEq, hRest⟩ := List.append_inj hRest
      (by rw [List.length_map, hHex, (textBytes_measurement e.measurement).2])
    rw [List.cons.injEq, List.cons.injEq, List.cons.injEq, List.cons.injEq] at hRest
    obtain ⟨rfl, rfl, rfl, rfl, rfl⟩ := hRest
    obtain ⟨s, hRead, hParse⟩ := (fromHex_readText_iff hHex).mpr hHexEq.symm
    have hNumber : e.report.length = beNat [c0, c1, c2, c3] := by
      rw [← hBytes, beNat_beBytes (lt_of_lt_of_le (Nat.mod_lt _ (by decide)) (by decide)),
        Nat.mod_eq_of_lt hLess]
    have hKnown' : ¬ (platform ≠ platformSev ∧ platform ≠ platformSgx) := by
      rw [← hPlatform]
      exact or_iff_not_and_not.mp hKnown
    rw [decode_parts hMagic hHex, if_neg (not_not.mpr hMagicEq.symm),
      if_neg (not_not.mpr hVersion.symm), if_neg hKnown', hRead]
    dsimp only
    rw [hParse]
    dsimp only
    rw [if_neg (not_not.mpr hNumber), ← hPlatform]

/-- Lower case changes nothing exactly where no digit is upper case. -/
theorem lowerMeasurement_eq_self_iff {blob : List UInt8} :
    lowerMeasurement blob = blob ↔ ∀ b ∈ (blob.drop 10).take 64, ¬ (65 ≤ b ∧ b ≤ 90) := by
  have hByte (b : UInt8) : byteToLower b = b ↔ ¬ (65 ≤ b ∧ b ≤ 90) := by
    have hAll : ∀ n < 256, (byteToLower (UInt8.ofNat n) = UInt8.ofNat n ↔
        ¬ (65 ≤ UInt8.ofNat n ∧ UInt8.ofNat n ≤ 90)) := by
      decide +kernel
    have hb := hAll b.toNat b.toNat_lt
    rwa [UInt8.ofNat_toNat] at hb
  have hBlob : blob.take 10 ++ ((blob.drop 10).take 64 ++ blob.drop 74) = blob := by
    rw [show 74 = 10 + 64 from rfl, ← List.drop_drop, List.take_append_drop,
      List.take_append_drop]
  -- what stands before and after the digits is the same, so they decide
  have hDigits : lowerMeasurement blob = blob ↔
      ((blob.drop 10).take 64).map byteToLower = (blob.drop 10).take 64 := by
    unfold lowerMeasurement
    nth_rewrite 4 [← hBlob]
    rw [List.append_cancel_left_eq, List.append_cancel_right_eq]
  rw [hDigits]
  constructor
  · intro hSame b hb
    have hEach := List.map_inj_left.mp (hSame.trans (List.map_id _).symm)
    exact (hByte b).mp (hEach b hb)
  · intro hNone
    exact (List.map_congr_left fun b hb => (hByte b).mpr (hNone b hb)).trans (List.map_id _)

/-- **The envelope is canonical up to the case of the digits.** What is encoded is decoded, the
decoder returns on all bytes, and bytes that it accepts are those of the envelope with the
digits of the measurement in either case. -/
theorem hw_quote_canonical_up_to_case :
    (∀ e : HwQuoteEnvelope, e.KnownPlatform → e.report.length < 2 ^ 32 →
      decode e.encode = .ok e) ∧
    (∀ blob e, decode blob = .ok e → e.encode = lowerMeasurement blob ∧
      (e.encode = blob ↔ ∀ b ∈ (blob.drop 10).take 64, ¬ (65 ≤ b ∧ b ≤ 90))) ∧
    ∀ blob, decode blob ≠ .panicked := by
  refine ⟨?_, ?_, decode_ne_panicked⟩
  · -- a measurement is written in lower case
    intro e hKnown hLess
    refine decode_eq_ok_iff.mpr ⟨hKnown, hLess, ?_⟩
    obtain ⟨b0, b1, b2, b3, -, hEncode⟩ := encode_parts e
    have hDigits : (textBytes e.measurement.text).map byteToLower =
        textBytes e.measurement.text :=
      (fromHex_readText_iff (textBytes_measurement e.measurement).2).mp
        ⟨_, readText_textBytes _, ContentHash.parse_text e.measurement⟩
    rw [hEncode, lowerMeasurement_parts (by decide) (textBytes_measurement e.measurement).2,
      hDigits]
  · intro blob e hOk
    have hLower := (decode_eq_ok_iff.mp hOk).2.2
    refine ⟨hLower, ?_⟩
    rw [hLower, lowerMeasurement_eq_self_iff]

/-- 64 digits `a`. -/
theorem measurementHex_a : MeasurementHex (String.ofList (List.replicate 64 'a')) := by
  rw [MeasurementHex, String.toList_ofList]
  exact ⟨List.length_replicate, fun c hc => List.eq_of_mem_replicate hc ▸ rfl⟩

/-- An envelope of a short report. -/
def shortQuote : HwQuoteEnvelope :=
  ⟨platformSev, ⟨String.ofList (List.replicate 64 'a'), measurementHex_a⟩, [1, 2, 3, 4]⟩

theorem hw_quote_short_report :
    decode shortQuote.encode = .ok shortQuote :=
  hw_quote_canonical_up_to_case.1 shortQuote (.inl rfl) (by decide)

/-- The bytes of that envelope with the first digit in upper case. -/
def upperQuote : List UInt8 := shortQuote.encode.set 10 65

/-- Upper-case digits are accepted, and encoded in lower case. -/
theorem hw_quote_two_encodings :
    ¬ ∀ blob e, decode blob = .ok e → e.encode = blob := by
  intro hCanonical
  have hLower : shortQuote.encode = lowerMeasurement upperQuote := by decide +kernel
  have hDecoded : decode upperQuote = .ok shortQuote :=
    decode_eq_ok_iff.mpr ⟨.inl rfl, by decide, hLower⟩
  have hDiffers : shortQuote.encode ≠ upperQuote := by decide +kernel
  exact hDiffers (hCanonical upperQuote shortQuote hDecoded)

end HwQuoteEnvelope

end KeroseneVault
