import Mathlib.Algebra.Order.Ring.Int
import Mathlib.Data.Fintype.Defs
import Mathlib.Data.List.Basic

/-!
# Bytes, identifiers, integers and SHA-256

`sha256` stands everywhere for `format!("{:x}", Sha256::digest(bytes))`: the
lowercase hexadecimal text of the digest.  `CollisionFree` is the idealization
the security statements assume of it.
-/

set_option autoImplicit false

namespace ZedRegistry

abbrev Bytes := List UInt8

/-- A UUID, identified by its hyphenated text. -/
structure Uuid where
  hyphenated : String
  deriving DecidableEq

def sampleOrg : Uuid := ⟨"5f0c1a52-9a3e-4b6e-8a57-0d8a3c1f2b11"⟩

def asBytes (text : String) : Bytes := text.toByteArray.data.toList

theorem asBytes_injective : Function.Injective asBytes := by
  intro left right same
  apply String.toByteArray_inj.mp
  exact ByteArray.ext (Array.toList_inj.mp same)

/-- Two's complement, as a release build's `i64` arithmetic. -/
@[irreducible] def wrapI64 (value : Int) : Int := Int.bmod value (2 ^ 64)

def FitsI64 (value : Int) : Prop := -2 ^ 63 ≤ value ∧ value < 2 ^ 63

instance (value : Int) : Decidable (FitsI64 value) := inferInstanceAs (Decidable (_ ∧ _))

theorem fitsI64_zero : FitsI64 0 := by decide

theorem fitsI64_one : FitsI64 1 := by decide

theorem fitsI64_two : FitsI64 2 := by decide

theorem wrapI64_fits (value : Int) : FitsI64 (wrapI64 value) := by
  have low : -(((2 ^ 64 : Nat) : Int) / 2) ≤ Int.bmod value (2 ^ 64) :=
    Int.le_bmod (by decide)
  have high : Int.bmod value (2 ^ 64) < (((2 ^ 64 : Nat) : Int) + 1) / 2 :=
    Int.bmod_lt (by decide)
  unfold FitsI64 wrapI64
  omega

theorem wrapI64_of_fits {value : Int} (fits : FitsI64 value) : wrapI64 value = value := by
  obtain ⟨low, high⟩ := fits
  unfold wrapI64
  exact Int.bmod_eq_of_le (by omega) (by omega)

/-- `checked_add` of `u64`, and of `usize` on a 64-bit host. -/
def checkedAdd (left right : Nat) : Option Nat :=
  if left + right < 2 ^ 64 then some (left + right) else none

theorem checkedAdd_some {left right sum : Nat} (added : checkedAdd left right = some sum) :
    sum = left + right := by
  unfold checkedAdd at added
  split at added
  · exact (Option.some.inj added).symm
  · contradiction

structure CollisionFree (sha256 : Bytes → String) : Prop where
  injective : Function.Injective sha256
  nonempty : ∀ bytes, sha256 bytes ≠ ""

/-! ## A digest given by a table -/

/-- The listed digests; any other input gets a text that is no digest. -/
def tabulated (known : List (Bytes × String)) (bytes : Bytes) : String :=
  match known.find? fun entry => entry.1 == bytes with
  | some entry => entry.2
  | none => String.ofList ('#' :: bytes.map fun byte => Char.ofNat byte.toNat)

theorem tabulated_self (bytes : Bytes) (digest : String) (known : List (Bytes × String)) :
    tabulated ((bytes, digest) :: known) bytes = digest := by
  simp [tabulated]

theorem tabulated_other {key bytes : Bytes} (other : key ≠ bytes) (digest : String)
    (known : List (Bytes × String)) :
    tabulated ((key, digest) :: known) bytes = tabulated known bytes := by
  simp [tabulated, other]

theorem byteChar_injective :
    Function.Injective fun byte : UInt8 => Char.ofNat byte.toNat := by
  intro left right same
  have recover : ∀ byte : UInt8, (Char.ofNat byte.toNat).toNat = byte.toNat := by
    intro byte
    have small := byte.toNat_lt
    have valid : byte.toNat.isValidChar := Or.inl (by omega)
    rw [Char.ofNat, dif_pos valid]
    rfl
  have sameNat := congrArg Char.toNat same
  rw [recover, recover] at sameNat
  exact UInt8.toNat_inj.mp sameNat

theorem tabulated_collisionFree {known : List (Bytes × String)}
    (distinct : (known.map Prod.snd).Nodup)
    (digests : ∀ entry ∈ known, entry.2 ≠ "" ∧ entry.2.toList.head? ≠ some '#') :
    CollisionFree (tabulated known) where
  injective := by
    intro left right same
    unfold tabulated at same
    cases leftFound : known.find? (fun entry => entry.1 == left) with
    | none =>
        cases rightFound : known.find? (fun entry => entry.1 == right) with
        | none =>
            simp only [leftFound, rightFound] at same
            have chars := String.ofList_injective same
            exact byteChar_injective.list_map (List.cons.inj chars).2
        | some entry =>
            simp only [leftFound, rightFound] at same
            have notDigest := (digests entry (List.mem_of_find?_eq_some rightFound)).2
            rw [← same] at notDigest
            simp at notDigest
    | some entry =>
        have leftKey : entry.1 = left := by
          simpa using List.find?_some leftFound
        cases rightFound : known.find? (fun entry => entry.1 == right) with
        | none =>
            simp only [leftFound, rightFound] at same
            have notDigest := (digests entry (List.mem_of_find?_eq_some leftFound)).2
            rw [same] at notDigest
            simp at notDigest
        | some other =>
            have rightKey : other.1 = right := by
              simpa using List.find?_some rightFound
            simp only [leftFound, rightFound] at same
            have sameEntry : entry = other :=
              List.inj_on_of_nodup_map distinct (List.mem_of_find?_eq_some leftFound)
                (List.mem_of_find?_eq_some rightFound) same
            rw [← leftKey, ← rightKey, sameEntry]
  nonempty := by
    intro bytes
    unfold tabulated
    cases found : known.find? (fun entry => entry.1 == bytes) with
    | none =>
        intro empty
        have chars := congrArg String.toList empty
        simp at chars
    | some entry => exact (digests entry (List.mem_of_find?_eq_some found)).1

end ZedRegistry
