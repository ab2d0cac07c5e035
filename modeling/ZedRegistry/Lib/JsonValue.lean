import Mathlib.Algebra.Order.Ring.Int
import Mathlib.Data.List.Basic

/-!
# JSON values

Values as a parser keeps them: integers of 64 bits, binary floating-point numbers
by their bits, and objects as a list of members in their order.
-/

set_option autoImplicit false

inductive JsonNumber where
  | posInt (value : Nat) (fits : value < 2 ^ 64)
  | negInt (value : Int) (fits : -2 ^ 63 ≤ value) (negative : value < 0)
  | float (bits : UInt64)
  deriving DecidableEq

inductive JsonValue where
  | null
  | bool (value : Bool)
  | number (value : JsonNumber)
  | string (value : String)
  | array (items : List JsonValue)
  | object (members : List (String × JsonValue))

namespace JsonNumber

/-- The value of an integer; a float has none. -/
def toInt? : JsonNumber → Option Int
  | .posInt value _ => some value
  | .negInt value _ _ => some value
  | .float _ => none

def ofInt (value : Int) : Option JsonNumber :=
  if negative : value < 0 then
    if fits : -2 ^ 63 ≤ value then some (.negInt value fits negative) else none
  else if fits : value.toNat < 2 ^ 64 then some (.posInt value.toNat fits)
  else none

theorem ofInt_toInt {number : JsonNumber} {value : Int} (isInt : number.toInt? = some value) :
    ofInt value = some number := by
  cases number with
  | posInt value fits =>
      obtain rfl := Option.some.inj isInt
      unfold ofInt
      rw [dif_neg (by omega), dif_pos (by simpa only [Int.toNat_natCast] using fits)]
      simp only [Int.toNat_natCast]
  | negInt value fits negative =>
      obtain rfl := Option.some.inj isInt
      unfold ofInt
      rw [dif_pos negative, dif_pos fits]
  | float bits => contradiction

end JsonNumber

namespace JsonValue

/-- Induction over a value, its items and the values of its members. -/
theorem induct {motive : JsonValue → Prop} (null : motive .null)
    (bool : ∀ value, motive (.bool value)) (number : ∀ value, motive (.number value))
    (string : ∀ value, motive (.string value))
    (array : ∀ items, (∀ item ∈ items, motive item) → motive (.array items))
    (object : ∀ members, (∀ member ∈ members, motive member.2) → motive (.object members)) :
    ∀ value, motive value
  | .null => null
  | .bool value => bool value
  | .number value => number value
  | .string value => string value
  | .array items => array items fun item _ =>
      induct null bool number string array object item
  | .object members => object members fun member _ =>
      induct null bool number string array object member.2
termination_by value => sizeOf value
decreasing_by
  · rename_i inside
    have := List.sizeOf_lt_of_mem inside
    simp only [JsonValue.array.sizeOf_spec]
    omega
  · rename_i inside
    have := List.sizeOf_lt_of_mem inside
    obtain ⟨key, value⟩ := member
    simp only [JsonValue.object.sizeOf_spec, Prod.mk.sizeOf_spec] at *
    omega

/-- No number in the value is a float. -/
inductive Integral : JsonValue → Prop where
  | null : Integral .null
  | bool (value : Bool) : Integral (.bool value)
  | number (value : JsonNumber) (isInt : value.toInt?.isSome = true) : Integral (.number value)
  | string (value : String) : Integral (.string value)
  | array (items : List JsonValue) (all : ∀ item ∈ items, Integral item) : Integral (.array items)
  | object (members : List (String × JsonValue)) (all : ∀ member ∈ members, Integral member.2) :
      Integral (.object members)

end JsonValue
