import Mathlib.Data.List.Forall2
import Mathlib.Data.List.GetD
import Ros1Tools.Codec.Denote
import Ros1Tools.Codec.JsonCodec

/-!
# What decoding does

`Reads` relates a JSON value at a depth to the message that it is read as.  It is
defined by recursion on the type and mentions no loop, no index and no path;
`decodeValue_eq_ok` says that decoding into an empty message computes it.
-/

namespace Ros1Tools.Codec

open Lib

/-! ## Arrays -/

section Array

variable {α : Type} {length : Option Nat} {limits : Limits}

/-- An array length that the limits and the type allow. -/
def Limits.AcceptsLength (limits : Limits) (length : Option Nat) (n : Nat) : Prop :=
  n ≤ limits.maximumArrayElements ∧ ∀ k, length = some k → n = k

/-- The items of an array are read one by one. -/
def ReadsItems (limits : Limits) (R : Json → α → Prop) (value : Json)
    (array : ArrayMessage α length) : Prop :=
  ∃ items, value = .array items ∧ limits.AcceptsLength length items.length ∧
    List.Forall₂ R items array.items

/-- Validation against an empty array. -/
theorem validateArrayInput_eq_ok {value : Json} {fresh : α} {path : String} {items : List Json} :
    validateArrayInput value length.isSome (ArrayMessage.empty fresh length).items.length
        limits.maximumArrayElements path = .ok items ↔
      value = .array items ∧ limits.AcceptsLength length items.length := by
  unfold validateArrayInput Limits.AcceptsLength
  split
  · rename_i values
    rw [ite_error_eq_ok, ite_error_eq_ok, ite_error_eq_ok]
    simp only [Nat.not_lt, Except.ok.injEq, Json.array.injEq]
    cases length with
    | none =>
        constructor
        · rintro ⟨hmax, -, -, rfl⟩
          refine ⟨rfl, hmax, ?_⟩
          rintro _ ⟨⟩
        · rintro ⟨rfl, hmax, -⟩
          exact ⟨hmax, fun h => Bool.false_ne_true h.1, fun h => h.2 rfl, rfl⟩
    | some n =>
        have hlength : (ArrayMessage.empty fresh (some n)).items.length = n :=
          (ArrayMessage.empty fresh (some n)).fixed n rfl
        rw [hlength]
        constructor
        · rintro ⟨hmax, hfixed, -, rfl⟩
          refine ⟨rfl, hmax, ?_⟩
          rintro _ ⟨⟩
          by_contra hne
          exact hfixed ⟨rfl, hne⟩
        · rintro ⟨rfl, hmax, hfixed⟩
          exact ⟨hmax, fun h => h.2 (hfixed n rfl), fun h => Bool.false_ne_true h.1.symm, rfl⟩
  · rename_i hvalue
    constructor
    · rintro ⟨⟩
    · exact fun h => absurd h.1 (hvalue items)

/-- How many elements of a fresh array are still to be assigned. -/
def pending (length : Option Nat) (n : Nat) : Nat := if length.isSome then n else 0

variable {decode : Json → α → String → Except Exn α} {fresh : α} {R : Json → α → Prop}

/-- The element that the loop decodes into is a fresh one. -/
theorem getD_pending (done : List α) (n : Nat) :
    (done ++ List.replicate (pending length (n + 1)) fresh).getD done.length fresh = fresh := by
  rw [List.getD_append_right _ _ _ _ (Nat.le_refl _), Nat.sub_self]
  unfold pending
  split <;> rfl

/-- Storing an item behind those that are done. -/
theorem items_store {array : ArrayMessage α length} {done : List α} {n : Nat} (item : α)
    (h : array.items = done ++ List.replicate (pending length (n + 1)) fresh) :
    (array.store done.length item).items =
      (done ++ [item]) ++ List.replicate (pending length n) fresh := by
  cases length with
  | none =>
      simp only [ArrayMessage.store, h]
      simp [pending]
  | some k =>
      simp only [ArrayMessage.store, h]
      simp [pending, List.replicate_succ]

/-- The loop over the items reads each of them in its place. -/
theorem decodeItems_eq_ok (h : ∀ value path item, decode value fresh path = .ok item ↔ R value item)
    (path : String) (values : List Json) (done : List α) (array result : ArrayMessage α length)
    (harray : array.items = done ++ List.replicate (pending length values.length) fresh) :
    decodeItems decode fresh path values done.length array = .ok result ↔
      ∃ items, List.Forall₂ R values items ∧ result.items = done ++ items := by
  induction values generalizing done array with
  | nil =>
      have hdone : array.items = done := by
        rw [harray]
        simp [pending]
      rw [decodeItems, Except.ok.injEq, ArrayMessage.ext_iff, hdone]
      simp [eq_comm]
  | cons value values ih =>
      rw [List.length_cons] at harray
      rw [decodeItems, bind_eq_ok, harray, getD_pending]
      have hstep (item : α) :
          decodeItems decode fresh path values (done.length + 1) (array.store done.length item) =
            .ok result ↔
          ∃ items, List.Forall₂ R values items ∧ result.items = (done ++ [item]) ++ items := by
        rw [← ih (done ++ [item]) (array.store done.length item) (items_store item harray),
          List.length_append, List.length_singleton]
      constructor
      · rintro ⟨item, hitem, hrest⟩
        obtain ⟨items, hitems, hresult⟩ := (hstep item).mp hrest
        refine ⟨item :: items, .cons ((h _ _ _).mp hitem) hitems, ?_⟩
        rw [hresult, List.append_assoc, List.singleton_append]
      · rintro ⟨_, hitems, hresult⟩
        cases hitems with
        | @cons _ item _ items hitem hitems =>
            refine ⟨item, (h _ _ _).mpr hitem, (hstep item).mpr ⟨items, hitems, ?_⟩⟩
            rw [hresult, List.append_assoc, List.singleton_append]

/-- **Decoding an array** into an empty one reads its items. -/
theorem decodeArray_eq_ok
    (h : ∀ value path item, decode value fresh path = .ok item ↔ R value item) {value : Json}
    {path : String} {result : ArrayMessage α length} :
    decodeArray limits decode fresh value (ArrayMessage.empty fresh length) path = .ok result ↔
      ReadsItems limits R value result := by
  rw [decodeArray, bind_eq_ok]
  have hloop {items : List Json} (hlength : limits.AcceptsLength length items.length) :
      decodeItems decode fresh path items 0 (ArrayMessage.empty fresh length) = .ok result ↔
        List.Forall₂ R items result.items := by
    have hempty : (ArrayMessage.empty fresh length).items =
        [] ++ List.replicate (pending length items.length) fresh := by
      cases length with
      | none => rfl
      | some n => rw [hlength.2 n rfl]; rfl
    have := decodeItems_eq_ok h path items [] _ result hempty
    simpa using this
  constructor
  · rintro ⟨items, hvalid, hitems⟩
    obtain ⟨rfl, hlength⟩ := validateArrayInput_eq_ok.mp hvalid
    exact ⟨items, rfl, hlength, (hloop hlength).mp hitems⟩
  · rintro ⟨items, rfl, hlength, hitems⟩
    exact ⟨items, validateArrayInput_eq_ok.mpr ⟨rfl, hlength⟩, (hloop hlength).mpr hitems⟩

end Array

/-! ## All types -/

mutual

/-- The value, found at the depth, is within the limits and read as the message. -/
def Reads (limits : Limits) : (t : RosType) → Nat → Json → Message t → Prop
  | .primitive p, depth, value, message =>
      depth ≤ limits.maximumDepth ∧ p.Denotes value message
  | .compound fields, depth, value, message =>
      depth ≤ limits.maximumDepth ∧ ∃ members, value = .object members ∧
        (∀ k ∈ members.map Prod.fst, k ∈ fields.keys) ∧
        ReadsFields limits fields (depth + 1) members message
  | .array (.primitive p) _, depth, value, array =>
      depth ≤ limits.maximumDepth ∧ ReadsItems limits p.Denotes value array
  | .array (.compound fields) _, depth, value, array =>
      depth ≤ limits.maximumDepth ∧
        ReadsItems limits (Reads limits (.compound fields) (depth + 1)) value array
  | .array .none _, _, _, _ | .array (.array _ _) _, _, _, _ | .none, _, _, _ => False

/-- A field whose member is present is read from it, and an absent one is empty. -/
def ReadsFields (limits : Limits) : (fields : Fields) → Nat → Json.Members →
    FieldMessages fields → Prop
  | .nil, _, _, _ => True
  | .cons name type rest, depth, members, (message, messages) =>
      (∀ value, Json.find name members = some value → Reads limits type depth value message) ∧
        (Json.find name members = none → message = Message.empty type) ∧
        ReadsFields limits rest depth members messages

end

theorem checkDepth_bind_eq_ok {limits : Limits} {depth : Nat} {path : String} {α : Type}
    {x : Except Exn α} {a : α} :
    (checkDepth depth limits.maximumDepth path >>= fun _ => x) = .ok a ↔
      depth ≤ limits.maximumDepth ∧ x = .ok a := by
  rw [bind_eq_ok, checkDepth]
  simp only [ite_error_eq_ok, Nat.not_lt]
  constructor
  · rintro ⟨_, ⟨h, -⟩, hx⟩
    exact ⟨h, hx⟩
  · rintro ⟨h, hx⟩
    exact ⟨(), ⟨h, trivial⟩, hx⟩

theorem compoundMembers_eq_ok {value : Json} {keys : List String} {path : String}
    {members : Json.Members} : compoundMembers value keys path = .ok members ↔
      value = .object members ∧ ∀ k ∈ members.map Prod.fst, k ∈ keys := by
  unfold compoundMembers
  split
  · rename_i found
    rw [bind_eq_ok]
    constructor
    · rintro ⟨_, hkeys, hmembers⟩
      cases hmembers
      exact ⟨rfl, rejectUnknownMembers_eq_ok.mp hkeys⟩
    · rintro ⟨hvalue, hkeys⟩
      cases hvalue
      exact ⟨(), rejectUnknownMembers_eq_ok.mpr hkeys, rfl⟩
  · rename_i hvalue
    exact ⟨nofun, fun h => absurd h.1 (hvalue members)⟩

mutual

/-- **Decoding into an empty message** succeeds with what the value is read as, and
only then. -/
theorem decodeValue_eq_ok {limits : Limits} : (t : RosType) → ∀ {depth : Nat} {value : Json}
    {path : String} {message : Message t},
    decodeValue limits t value (Message.empty t) path depth = .ok message ↔
      Reads limits t depth value message
  | .none => checkDepth_bind_eq_ok.trans ⟨fun h => absurd h.2 nofun, False.elim⟩
  | .primitive _ => checkDepth_bind_eq_ok.trans (and_congr_right fun _ => decodeScalar_eq_ok)
  | .compound fields => by
      refine checkDepth_bind_eq_ok.trans (and_congr_right fun _ => bind_eq_ok.trans ?_)
      refine exists_congr fun members => ?_
      rw [compoundMembers_eq_ok, and_assoc]
      exact and_congr_right fun _ => and_congr_right fun _ => decodeFields_eq_ok fields
  | .array (.primitive p) length => by
      refine checkDepth_bind_eq_ok.trans (and_congr_right fun _ => decodeArray_eq_ok ?_)
      intro value path item
      rw [decodeElement_eq]
      exact decodeScalar_eq_ok
  | .array (.compound fields) length =>
      checkDepth_bind_eq_ok.trans (and_congr_right fun _ =>
        decodeArray_eq_ok fun _ _ _ => decodeValue_eq_ok (.compound fields))
  | .array .none _ => checkDepth_bind_eq_ok.trans ⟨fun h => absurd h.2 nofun, False.elim⟩
  | .array (.array _ _) _ => checkDepth_bind_eq_ok.trans ⟨fun h => absurd h.2 nofun, False.elim⟩

theorem decodeFields_eq_ok {limits : Limits} : (fields : Fields) → ∀ {depth : Nat}
    {members : Json.Members} {path : String} {messages : FieldMessages fields},
    decodeFields limits fields members (FieldMessages.empty fields) path depth = .ok messages ↔
      ReadsFields limits fields (depth + 1) members messages
  | .nil => by
      rw [decodeFields, ReadsFields]
      exact ⟨fun _ => trivial, fun _ => rfl⟩
  | .cons name type rest => by
      rename_i depth members path messages
      obtain ⟨message, messages⟩ := messages
      have hfield : decodeField
          (fun value child =>
            decodeValue limits type value child (path ++ "." ++ name) (depth + 1))
          (Message.empty type) (Json.find name members) = .ok message ↔
            (∀ value, Json.find name members = some value →
              Reads limits type (depth + 1) value message) ∧
              (Json.find name members = none → message = Message.empty type) := by
        cases Json.find name members with
        | none => simp [decodeField, eq_comm]
        | some value =>
            rw [decodeField, decodeValue_eq_ok type]
            simp
      refine bind_eq_ok.trans (Iff.trans ?_ and_assoc)
      rw [← hfield]
      constructor
      · rintro ⟨_, hmessage, h⟩
        obtain ⟨_, hmessages, h⟩ := bind_eq_ok.mp h
        cases h
        exact ⟨hmessage, (decodeFields_eq_ok rest).mp hmessages⟩
      · rintro ⟨hmessage, hmessages⟩
        exact ⟨message, hmessage, bind_eq_ok.mpr
          ⟨messages, (decodeFields_eq_ok rest).mpr hmessages, rfl⟩⟩

end

end Ros1Tools.Codec
