import Ros1Tools.Lib.BinaryFloat

/-!
# JSON values

The value type of JsonCpp, as far as the adapter looks at it.  Integers come in a
signed and an unsigned variant, and reals are doubles that need not be finite.
What counts as an integer is a question about the value and not about the
variant: a real without a fraction in the right range is one.

An object is an association list in key order.  `set` keeps the order and
replaces the value of a key that is already there; `find` returns the first match,
so the laws relating the two do not need the keys to be distinct.
-/

namespace Ros1Tools

open Lib

/-- `Json::Value`. -/
inductive Json where
  | null
  | int (n : Int64)
  | uint (n : UInt64)
  | real (x : Double)
  | string (s : String)
  | boolean (b : Bool)
  | array (items : List Json)
  | object (members : List (String × Json))

namespace Json

/-- The members of an object. -/
abbrev Members := List (String × Json)

/-! ## Numbers -/

/-- `isInt64`: a real is one if it has no fraction and lies in `[-2^63, 2^63)`. -/
def isInt64 : Json → Bool
  | .int _ => true
  | .uint n => decide (n.toNat ≤ 2 ^ 63 - 1)
  | .real x => decide (-(2 ^ 63) * 2 ^ Format.binary64.unit ≤ x.scaled) &&
      decide (x.scaled < 2 ^ 63 * 2 ^ Format.binary64.unit) && x.isIntegral
  | _ => false

/-- `isUInt64`: a real is one if it has no fraction and lies in `[0, 2^64)`. -/
def isUInt64 : Json → Bool
  | .int n => decide (0 ≤ n.toInt)
  | .uint _ => true
  | .real x => decide (0 ≤ x.scaled) && decide (x.scaled < 2 ^ 64 * 2 ^ Format.binary64.unit) &&
      x.isIntegral
  | _ => false

def isIntegral (value : Json) : Bool := value.isInt64 || value.isUInt64

/-- `asUInt64` and `asInt64`, each of a value that passed its own check. -/
def asInteger : Json → Int
  | .int n => n.toInt
  | .uint n => n.toNat
  | .real x => x.toInt
  | _ => 0

def isNumeric : Json → Bool
  | .real _ => true
  | value => value.isIntegral

/-- `asDouble`, of a numeric value. -/
def asDouble : Json → Double
  | .int n => .ofInt _ n.toInt
  | .uint n => .ofInt _ n.toNat
  | .real x => x
  | _ => .ofInt _ 0

/-! ## Objects -/

/-- The value of a member, if there is one: `isMember` and `operator[]`. -/
def find (key : String) : Members → Option Json
  | [] => none
  | (k, v) :: rest => if k = key then some v else find key rest

/-- `result[key] = value`. -/
def set (key : String) (value : Json) : Members → Members
  | [] => [(key, value)]
  | (k, v) :: rest =>
      if k = key then (key, value) :: rest
      else if key < k then (key, value) :: (k, v) :: rest
      else (k, v) :: set key value rest

/-- An object built by a sequence of such assignments. -/
def ofMembers (members : Members) : Json :=
  .object (members.foldl (fun object m => set m.1 m.2 object) [])

/-- The value of a member of an object. -/
def member (key : String) : Json → Option Json
  | .object members => find key members
  | _ => none

@[simp] theorem find_set_self (key : String) (value : Json) (members : Members) :
    find key (set key value members) = some value := by
  induction members with
  | nil => simp [set, find]
  | cons m rest ih =>
      obtain ⟨k, v⟩ := m
      by_cases hk : k = key
      · simp [set, find, hk]
      · by_cases hlt : key < k <;> simp [set, find, hk, hlt, ih]

theorem find_set_of_ne {key other : String} (h : other ≠ key) (value : Json)
    (members : Members) : find other (set key value members) = find other members := by
  induction members with
  | nil => simp [set, find, h.symm]
  | cons m rest ih =>
      obtain ⟨k, v⟩ := m
      by_cases hk : k = key
      · subst hk
        simp [set, find, h.symm]
      · by_cases hlt : key < k <;> simp [set, find, hk, hlt, ih, h.symm]

/-- The names an insertion adds. -/
theorem mem_keys_set {key other : String} {value : Json} {members : Members} :
    other ∈ (set key value members).map Prod.fst ↔ other = key ∨ other ∈ members.map Prod.fst := by
  induction members with
  | nil => simp [set]
  | cons m rest ih =>
      obtain ⟨k, v⟩ := m
      by_cases hk : k = key
      · subst hk
        simp [set]
      · by_cases hlt : key < k
        · simp [set, hk, hlt]
        · simp only [set, hk, hlt, if_false, List.map_cons, List.mem_cons, ih]
          tauto

end Json

end Ros1Tools
