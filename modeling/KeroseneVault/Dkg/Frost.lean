import KeroseneVault.Domain.Basic
import KeroseneVault.Lib.Table
import Mathlib.Order.Defs.LinearOrder

/-!
# FROST key generation

What the DKG hubs, the reshare hub and the share records use of their `frost`
crates, of `hex` and of `sha2`, which are outside the repository: `FrostDkg`.
-/

namespace KeroseneVault

/-! ## FROST -/

/-- What the hubs and the share records use of a `frost` crate, of `hex` and of
`sha2`. An error is its text. -/
structure FrostDkg where
  Identifier : Type
  Randomness : Type
  Round1Secret : Type
  Round1Package : Type
  Round2Secret : Type
  Round2Package : Type
  KeyPackage : Type
  PublicKeyPackage : Type
  VerifyingKey : Type
  identifierOrder : LinearOrder Identifier
  /-- `Identifier::try_from` of a `u16` -/
  ofU16 : Nat → Except String Identifier
  identifierBytes : Identifier → List UInt8
  readIdentifier : List UInt8 → Except String Identifier
  /-- `fmt::Debug` of an identifier -/
  identifierDebug : Identifier → String
  part1 : Identifier → Nat → Nat → Randomness → Except String (Round1Secret × Round1Package)
  part2 : Round1Secret → Table Identifier Round1Package →
    Except String (Round2Secret × Table Identifier Round2Package)
  part3 : Round2Secret → Table Identifier Round1Package → Table Identifier Round2Package →
    Except String (KeyPackage × PublicKeyPackage)
  round1Bytes : Round1Package → Except String (List UInt8)
  readRound1 : List UInt8 → Except String Round1Package
  round2Bytes : Round2Package → Except String (List UInt8)
  readRound2 : List UInt8 → Except String Round2Package
  keyBytes : KeyPackage → Except String (List UInt8)
  readKey : List UInt8 → Except String KeyPackage
  pubkeyBytes : PublicKeyPackage → Except String (List UInt8)
  readPubkey : List UInt8 → Except String PublicKeyPackage
  keyMinSigners : KeyPackage → Nat
  pubkeyMinSigners : PublicKeyPackage → Option Nat
  pubkeyMaxSigners : PublicKeyPackage → Nat
  verifyingKey : PublicKeyPackage → VerifyingKey
  verifyingKeyBytes : VerifyingKey → Except String (List UInt8)
  /-- `into_even_y(None)` -/
  evenKey : KeyPackage → KeyPackage
  evenPubkey : PublicKeyPackage → PublicKeyPackage
  hexDecode : String → Except String (List UInt8)
  hexEncode : List UInt8 → String
  /-- `Sha256` of a text's bytes -/
  sha256 : String → List UInt8

instance FrostDkg.linearOrderIdentifier (F : FrostDkg) : LinearOrder F.Identifier :=
  F.identifierOrder

instance FrostDkg.decidableEqIdentifier (F : FrostDkg) : DecidableEq F.Identifier := inferInstance

instance FrostDkg.lawfulBEqIdentifier (F : FrostDkg) : LawfulBEq F.Identifier := inferInstance

/-! ## Errors -/

/-- `map_err` into a `ThresholdError`. -/
def mapErr {α : Type} (what : String) : Except String α → Except DomainError α
  | .ok a => .ok a
  | .error e => .error (.thresholdError s!"{what}: {e}")

theorem mapErr_ok {α : Type} {what : String} {r : Except String α} {a : α} :
    mapErr what r = .ok a ↔ r = .ok a := by
  cases r with
  | error e => simp [mapErr]
  | ok b => simp [mapErr]

end KeroseneVault
