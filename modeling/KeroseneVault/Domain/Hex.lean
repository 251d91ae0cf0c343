import KeroseneVault.Domain.Basic
import Mathlib.Tactic.IntervalCases

/-!
# Hexadecimal text

`hex::encode`, and `hex::decode` of lower-case digits.

* `hexPairs_hexText` — what is encoded decodes;
* `mem_hexText` — the text has hexadecimal digits in it and nothing else;
* `leNat_leBytes` — what `to_le_bytes` makes of a number, `from_le_bytes` takes back.
-/

namespace KeroseneVault

/-- `str::as_bytes`. -/
def textBytes (s : String) : List UInt8 := s.toUTF8.data.toList

theorem textBytes_append (s t : String) : textBytes (s ++ t) = textBytes s ++ textBytes t := by
  simp [textBytes]

theorem textBytes_inj {s t : String} : textBytes s = textBytes t ↔ s = t := by
  constructor
  · intro h
    exact String.toByteArray_inj.mp (ByteArray.ext (Array.toList_inj.mp h))
  · rintro rfl
    rfl

theorem textBytes_eq_flatMap (s : String) :
    textBytes s = s.toList.flatMap String.utf8EncodeChar := by
  show s.toByteArray.data.toList = _
  rw [← String.utf8Encode_toList, List.utf8Encode, List.data_toByteArray]

theorem length_textBytes (s : String) : (textBytes s).length = strLen s := by
  rw [textBytes_eq_flatMap, List.length_flatMap, strLen]
  simp only [String.length_utf8EncodeChar]

/-- A lower-case hex digit. -/
def hexDigit (c : Char) : Option Nat :=
  if '0' ≤ c ∧ c ≤ '9' then some (c.toNat - 48)
  else if 'a' ≤ c ∧ c ≤ 'f' then some (c.toNat - 87)
  else none

def hexPairs : List Char → Except String (List UInt8)
  | [] => .ok []
  | [_] => .error "Odd number of digits"
  | hi :: lo :: rest =>
    match hexDigit hi, hexDigit lo, hexPairs rest with
    | some h, some l, .ok bytes => .ok (UInt8.ofNat (16 * h + l) :: bytes)
    | _, _, .error e => .error e
    | _, _, _ => .error "Invalid character"

/-- `hex::encode`. -/
def hexText (bytes : List UInt8) : String :=
  String.ofList (bytes.flatMap fun b =>
    [Nat.digitChar (b.toNat / 16), Nat.digitChar (b.toNat % 16)])

theorem hexDigit_digitChar {n : Nat} (h : n < 16) : hexDigit (Nat.digitChar n) = some n := by
  interval_cases n <;> rfl

theorem isWhitespace_digitChar {n : Nat} (h : n < 16) :
    LineLog.isWhitespace (Nat.digitChar n) = false := by
  interval_cases n <;> rfl

theorem hexPairs_digits (bytes : List UInt8) :
    hexPairs (bytes.flatMap fun b =>
      [Nat.digitChar (b.toNat / 16), Nat.digitChar (b.toNat % 16)]) = .ok bytes := by
  induction bytes with
  | nil => rfl
  | cons b bytes ih =>
    have hHi : b.toNat / 16 < 16 := Nat.div_lt_of_lt_mul b.toNat_lt
    have hLo : b.toNat % 16 < 16 := Nat.mod_lt _ (by omega)
    rw [List.flatMap_cons, List.cons_append, List.cons_append, List.nil_append, hexPairs,
      hexDigit_digitChar hHi, hexDigit_digitChar hLo, ih]
    dsimp only
    rw [Nat.div_add_mod, UInt8.ofNat_toNat]

theorem hexPairs_hexText (bytes : List UInt8) : hexPairs (hexText bytes).toList = .ok bytes := by
  rw [hexText, String.toList_ofList]
  exact hexPairs_digits bytes

theorem mem_hexText {bytes : List UInt8} {c : Char} (h : c ∈ (hexText bytes).toList) :
    ∃ n < 16, Nat.digitChar n = c := by
  rw [hexText, String.toList_ofList, List.mem_flatMap] at h
  obtain ⟨b, -, hc⟩ := h
  rcases List.mem_cons.mp hc with rfl | hc
  · exact ⟨_, Nat.div_lt_of_lt_mul b.toNat_lt, rfl⟩
  · exact ⟨_, Nat.mod_lt _ (by omega), (List.mem_singleton.mp hc).symm⟩

/-- Hexadecimal text has no blanks to trim. -/
theorem strTrim_hexText (bytes : List UInt8) : strTrim (hexText bytes) = hexText bytes := by
  have hPlain : ∀ c ∈ (hexText bytes).toList, LineLog.isWhitespace c = false := by
    intro c hc
    obtain ⟨n, hn, rfl⟩ := mem_hexText hc
    exact isWhitespace_digitChar hn
  rw [strTrim, LineLog.trim_eq_self hPlain, String.ofList_toList]

theorem strLen_hexText (bytes : List UInt8) : strLen (hexText bytes) = 2 * bytes.length := by
  have hSize (n : Nat) (hn : n < 16) : (Nat.digitChar n).utf8Size = 1 := by
    interval_cases n <;> rfl
  rw [strLen, hexText, String.toList_ofList]
  induction bytes with
  | nil => rfl
  | cons b bytes ih =>
    rw [List.flatMap_cons, List.cons_append, List.cons_append, List.nil_append, List.map_cons,
      List.map_cons, List.sum_cons, List.sum_cons, ih,
      hSize _ (Nat.div_lt_of_lt_mul b.toNat_lt), hSize _ (Nat.mod_lt _ (by omega)),
      List.length_cons]
    omega

theorem comma_notMem_hexText (bytes : List UInt8) : ',' ∉ (hexText bytes).toList := by
  intro h
  obtain ⟨n, hn, hEq⟩ := mem_hexText h
  have hNe : Nat.digitChar n ≠ ',' := by interval_cases n <;> decide
  exact hNe hEq

theorem hexText_ne_empty {bytes : List UInt8} (h : bytes ≠ []) : hexText bytes ≠ "" := by
  intro hEmpty
  have hBytes := hexPairs_hexText bytes
  rw [hEmpty] at hBytes
  exact h (Except.ok.inj hBytes).symm

/-! ## Numbers in bytes -/

/-- The digits of a number to the base 256, `k` of them. -/
def leBytes (k n : Nat) : List UInt8 := (List.range k).map fun i => UInt8.ofNat (n / 256 ^ i % 256)

theorem leBytes_succ (k n : Nat) :
    leBytes (k + 1) n = UInt8.ofNat (n % 256) :: leBytes k (n / 256) := by
  unfold leBytes
  rw [List.range_succ_eq_map, List.map_cons, List.map_map, pow_zero, Nat.div_one]
  congr 1
  refine List.map_congr_left fun i _ => ?_
  rw [Function.comp_apply, Nat.succ_eq_add_one, Nat.pow_succ', Nat.div_div_eq_div_mul]

/-- A number below `256 ^ k` has its `k` digits for itself. -/
theorem leBytes_inj {k m n : Nat} (hm : m < 256 ^ k) (hn : n < 256 ^ k)
    (h : leBytes k m = leBytes k n) : m = n := by
  induction k generalizing m n with
  | zero => omega
  | succ k ih =>
    rw [leBytes_succ, leBytes_succ] at h
    obtain ⟨hDigit, hRest⟩ := List.cons.inj h
    have hQuotient := ih (by omega) (by omega) hRest
    have hByte := congrArg UInt8.toNat hDigit
    rw [UInt8.toNat_ofNat', UInt8.toNat_ofNat'] at hByte
    omega

/-- Any `k` bytes are the digits of a number. -/
theorem exists_leBytes (bytes : List UInt8) :
    ∃ n < 256 ^ bytes.length, leBytes bytes.length n = bytes := by
  induction bytes with
  | nil => exact ⟨0, by simp, rfl⟩
  | cons b bytes ih =>
    obtain ⟨n, hn, hBytes⟩ := ih
    have hb := b.toNat_lt
    refine ⟨b.toNat + 256 * n, ?_, ?_⟩
    · rw [List.length_cons, Nat.pow_succ]
      omega
    · rw [List.length_cons, leBytes_succ, Nat.add_mul_mod_self_left, Nat.mod_eq_of_lt hb,
        UInt8.ofNat_toNat, Nat.add_mul_div_left _ _ (by omega), Nat.div_eq_of_lt hb, Nat.zero_add,
        hBytes]

@[simp] theorem length_leBytes (k n : Nat) : (leBytes k n).length = k := by
  rw [leBytes, List.length_map, List.length_range]

/-- `from_le_bytes`. -/
def leNat : List UInt8 → Nat
  | [] => 0
  | b :: bytes => b.toNat + 256 * leNat bytes

theorem leNat_leBytes {k n : Nat} (h : n < 256 ^ k) : leNat (leBytes k n) = n := by
  induction k generalizing n with
  | zero =>
    rw [Nat.pow_zero, Nat.lt_one_iff] at h
    rw [h]
    rfl
  | succ k ih =>
    rw [leBytes_succ, leNat, ih (by omega), UInt8.toNat_ofNat']
    omega

end KeroseneVault
