import KeroseneVault.Dkg.PolyFrost
import Mathlib.Algebra.Field.ZMod
import Mathlib.Data.ZMod.Basic

/-!
# A small instance of the crate

Scalars and points are the integers modulo `65537`, so that every `u16` other
than zero is an identifier; they are encoded in three bytes each.

* `readScalars_scalarBytes` — lists of scalars read back;
* `smallFrost` — the instance, and `smallFrost_codec`.
-/

namespace KeroseneVault

/-! ## Scalars -/

/-- The integers modulo a prime above `u16::MAX`. -/
abbrev Small := ZMod 65537

instance Small.linearOrder : LinearOrder Small := inferInstanceAs (LinearOrder (Fin 65537))

/-- A numeral is the class of its number. -/
instance Small.ofNat (n : Nat) : OfNat Small (n + 2) := ⟨((n + 2 : Nat) : ZMod 65537)⟩

def scalarBytes (a : Small) : List UInt8 :=
  [UInt8.ofNat (a.val / 65536), UInt8.ofNat (a.val / 256 % 256), UInt8.ofNat (a.val % 256)]

def readScalars : List UInt8 → Except String (List Small)
  | [] => .ok []
  | x :: y :: z :: rest =>
    (readScalars rest).map (((x.toNat * 65536 + y.toNat * 256 + z.toNat : Nat) : Small) :: ·)
  | _ => .error "truncated scalar"

theorem readScalars_scalarBytes (as : List Small) :
    readScalars (as.flatMap scalarBytes) = .ok as := by
  induction as with
  | nil => rfl
  | cons a rest ih =>
    have hVal : a.val < 65537 := a.val_lt
    rw [List.flatMap_cons, scalarBytes, List.cons_append, List.cons_append, List.cons_append,
      List.nil_append, readScalars, ih]
    dsimp only [Except.map]
    rw [UInt8.toNat_ofNat', UInt8.toNat_ofNat', UInt8.toNat_ofNat',
      show a.val / 65536 % 2 ^ 8 * 65536 + a.val / 256 % 256 % 2 ^ 8 * 256 + a.val % 256 % 2 ^ 8 =
        a.val by omega, ZMod.natCast_zmod_val]

/-- An encoding through a list of scalars. -/
def Codec.ofScalars {α : Type} (scalars : α → List Small) (read : List Small → Except String α)
    (h : ∀ a, read (scalars a) = .ok a) : Codec α where
  bytes a := (scalars a).flatMap scalarBytes
  read bytes := (readScalars bytes).bind read
  read_bytes a := by
    rw [readScalars_scalarBytes]
    exact h a

/-- A `u16` as a scalar. -/
def smallOfU16 (n : UInt16) : Small := (n.toNat : Small)

theorem ofNat_smallOfU16 (n : UInt16) : UInt16.ofNat (smallOfU16 n).val = n := by
  have hLt := n.toNat_lt
  rw [smallOfU16, ZMod.val_natCast_of_lt (by omega), UInt16.ofNat_toNat]

def readPairs : List Small → Except String (List (Small × Small))
  | [] => .ok []
  | a :: b :: rest => (readPairs rest).map ((a, b) :: ·)
  | _ => .error "truncated pair"

theorem readPairs_flatMap (pairs : List (Small × Small)) :
    readPairs (pairs.flatMap fun e => [e.1, e.2]) = .ok pairs := by
  induction pairs with
  | nil => rfl
  | cons e rest ih =>
    rw [List.flatMap_cons, List.cons_append, List.cons_append, List.nil_append, readPairs, ih]
    rfl

def readOne : List Small → Except String Small
  | [a] => .ok a
  | _ => .error "one scalar expected"

def readSmallRound1 : List Small → Except String (PolyRound1 Small Small)
  | nonce :: response :: commitment => .ok { commitment, nonce, response }
  | _ => .error "truncated package"

def readSmallKey : List Small → Except String (PolyKey Small Small)
  | [identifier, signingShare, verifyingShare, verifyingKey, minSigners] => .ok {
      identifier, signingShare, verifyingShare, verifyingKey
      minSigners := UInt16.ofNat minSigners.val }
  | _ => .error "five scalars expected"

def readSmallPubkey : List Small → Except String (PolyPubkey Small Small)
  | verifyingKey :: minSigners :: rest => (readPairs rest).map fun verifyingShares =>
    { verifyingShares, verifyingKey, minSigners := UInt16.ofNat minSigners.val }
  | _ => .error "truncated package"

/-! ## The instance -/

/-- Which of a key and its negative counts as even. -/
def isEven (key : Small) : Bool := key.val ≤ 32768

/-- The crate over `Small`. -/
def smallFrost : PolyFrost Small Small where
  generator := 1
  challenge identifier φ nonce := identifier + 3 * φ + 7 * nonce
  scalarOfU16 v := (v : Small)
  scalarOfU16_injective u v hu hv h := by
    have hVal := congrArg ZMod.val h
    rwa [ZMod.val_natCast_of_lt (by omega), ZMod.val_natCast_of_lt (by omega)] at hVal
  identifier := .ofScalars (fun a => [a]) readOne fun _ => rfl
  round1 := .ofScalars (fun p => p.nonce :: p.response :: p.commitment) readSmallRound1 fun _ => rfl
  round2 := .ofScalars (fun a => [a]) readOne fun _ => rfl
  key := .ofScalars (fun kp => [kp.identifier, kp.signingShare, kp.verifyingShare, kp.verifyingKey,
    smallOfU16 kp.minSigners]) readSmallKey fun kp => by
      rw [readSmallKey, ofNat_smallOfU16]
  pubkey := .ofScalars (fun pk => pk.verifyingKey :: smallOfU16 pk.minSigners ::
    pk.verifyingShares.flatMap fun e => [e.1, e.2]) readSmallPubkey fun pk => by
      rw [readSmallPubkey, readPairs_flatMap, ofNat_smallOfU16]
      rfl
  pointBytes := scalarBytes
  identifierDebug a := s!"Identifier({a.val})"
  postKey key := key
  postShare _ share := share
  evenKey key := if isEven key then key else -key
  evenShare key share := if isEven key then share else -share
  hexEncode := hexText
  hexDecode s := hexPairs s.toList
  hexDecode_hexEncode := hexPairs_hexText
  sha256 := textBytes

theorem smallFrost_codec : smallFrost.toFrostDkg.Codec where
  hex := hexPairs_hexText
  hexComma := comma_notMem_hexText
  hexEmpty id := hexText_ne_empty (List.cons_ne_nil _ _)
  identifier id := smallFrost.identifier.read_bytes id
  key kp bytes h := by
    cases Except.ok.inj h
    exact smallFrost.key.read_bytes kp
  pubkey pk bytes h := by
    cases Except.ok.inj h
    exact smallFrost.pubkey.read_bytes pk

end KeroseneVault
