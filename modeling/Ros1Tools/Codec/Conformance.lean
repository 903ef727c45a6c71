import Ros1Tools.Codec.Reads

/-!
# What the decoder accepts

`Conforms` says when a JSON value is acceptable for a type, with rules and without a
word about decoding, and `Message.Denotes` what the message must then be.  The rule
for array lengths is a parameter: the limit on the number of elements applies to
fixed arrays too, so a fixed array longer than the limit has no acceptable value at
all.
-/

namespace Ros1Tools.Codec

open Lib

/-! ## Conforming values -/

/-- An integer in the range of the unsigned type of `w` bits. -/
def InUnsigned (w : Nat) (value : Json) : Prop :=
  ∃ z, DenotesInteger value z ∧ 0 ≤ z ∧ z < 2 ^ w

/-- An integer in the range of the signed type of `w` bits. -/
def InSigned (w : Nat) (value : Json) : Prop :=
  ∃ z, DenotesInteger value z ∧ -2 ^ (w - 1) ≤ z ∧ z < 2 ^ (w - 1)

/-- The values that a scalar field of a kind takes. -/
def Primitive.Conforms : Primitive → Json → Prop
  | .bool, value => ∃ b, value = .boolean b
  | .uint8, value => InUnsigned 8 value
  | .uint16, value => InUnsigned 16 value
  | .uint32, value => InUnsigned 32 value
  | .uint64, value => InUnsigned 64 value
  | .int8, value => InSigned 8 value
  | .int16, value => InSigned 16 value
  | .int32, value => InSigned 32 value
  | .int64, value => InSigned 64 value
  | .float32, value =>
      value.isNumeric = true ∧ value.asDouble.isFinite = true ∧ InFloatRange value.asDouble
  | .float64, value => value.isNumeric = true ∧ value.asDouble.isFinite = true
  | .string, value => ∃ s, value = .string s
  | .time, value => ∃ secs nsecs s n, SecsAndNsecs value secs nsecs ∧ DenotesInteger secs s ∧
      DenotesInteger nsecs n ∧ (0 ≤ s ∧ s < 2 ^ 32) ∧ 0 ≤ n ∧ n < 10 ^ 9
  | .duration, value => ∃ secs nsecs s n, SecsAndNsecs value secs nsecs ∧
      DenotesInteger secs s ∧ DenotesInteger nsecs n ∧ (-2 ^ 31 ≤ s ∧ s < 2 ^ 31) ∧
      (-10 ^ 9 < n ∧ n < 10 ^ 9) ∧ -2 ^ 31 ≤ (s * 10 ^ 9 + n) / 10 ^ 9

/-- The values that a message of a type takes at a depth, given the lengths that its
arrays may have. -/
inductive Conforms (limits : Limits) (accepts : Option Nat → Nat → Prop) :
    Nat → RosType → Json → Prop
  | scalar {depth : Nat} {p : Primitive} {value : Json} (hdepth : depth ≤ limits.maximumDepth)
      (h : p.Conforms value) : Conforms limits accepts depth (.primitive p) value
  | compound {depth : Nat} {fields : Fields} {members : Json.Members}
      (hdepth : depth ≤ limits.maximumDepth)
      (hkeys : ∀ k ∈ members.map Prod.fst, k ∈ fields.keys)
      (h : ∀ name type value, (name, type) ∈ fields.toList →
        Json.find name members = some value → Conforms limits accepts (depth + 1) type value) :
      Conforms limits accepts depth (.compound fields) (.object members)
  | scalars {depth : Nat} {p : Primitive} {length : Option Nat} {items : List Json}
      (hdepth : depth ≤ limits.maximumDepth) (hlength : accepts length items.length)
      (h : ∀ item ∈ items, p.Conforms item) :
      Conforms limits accepts depth (.array (.primitive p) length) (.array items)
  | compounds {depth : Nat} {fields : Fields} {length : Option Nat} {items : List Json}
      (hdepth : depth ≤ limits.maximumDepth) (hlength : accepts length items.length)
      (h : ∀ item ∈ items, Conforms limits accepts (depth + 1) (.compound fields) item) :
      Conforms limits accepts depth (.array (.compound fields) length) (.array items)

/-! ## Denoted messages -/

mutual

/-- The message that a JSON value stands for. -/
def Message.Denotes : (t : RosType) → Json → Message t → Prop
  | .none, _, _ => False
  | .primitive p, value, message => p.Denotes value message
  | .compound fields, value, messages =>
      ∃ members, value = .object members ∧ FieldMessages.Denotes fields members messages
  | .array element _, value, array =>
      ∃ items, value = .array items ∧ List.Forall₂ (Message.Denotes element) items array.items

/-- A present member denotes the value of its field, and an absent one the default. -/
def FieldMessages.Denotes : (fields : Fields) → Json.Members → FieldMessages fields → Prop
  | .nil, _, _ => True
  | .cons name type rest, members, (message, messages) =>
      (∀ value, Json.find name members = some value → Message.Denotes type value message) ∧
        (Json.find name members = none → message = Message.empty type) ∧
        FieldMessages.Denotes rest members messages

end

/-! ## Conforming values are read -/

theorem exists_denotes_unsigned {w : Nat} {value : Json} :
    (∃ v : BitVec w, DenotesInteger value v.toNat) ↔ InUnsigned w value := by
  constructor
  · rintro ⟨v, hv⟩
    exact ⟨_, hv, Int.natCast_nonneg _, by exact_mod_cast v.isLt⟩
  · rintro ⟨z, hz, hlo, hhi⟩
    obtain ⟨n, rfl⟩ := Int.eq_ofNat_of_zero_le hlo
    have hlt : n < 2 ^ w := by exact_mod_cast hhi
    refine ⟨.ofNat w n, ?_⟩
    rwa [BitVec.toNat_ofNat, Nat.mod_eq_of_lt hlt]

theorem exists_denotes_signed {w : Nat} (hw : 0 < w) {value : Json} :
    (∃ v : BitVec w, DenotesInteger value v.toInt) ↔ InSigned w value := by
  constructor
  · rintro ⟨v, hv⟩
    exact ⟨_, hv, v.le_toInt, v.toInt_lt⟩
  · rintro ⟨z, hz, hlo, hhi⟩
    refine ⟨.ofInt w z, ?_⟩
    rwa [BitVec.toInt_ofInt_eq_self hw hlo hhi]

theorem exists_denotes_time {value : Json} :
    (∃ t : Time, Primitive.Denotes .time value t) ↔ Primitive.Conforms .time value := by
  constructor
  · rintro ⟨t, secs, nsecs, hparts, hsecs, hnsecs, hlt⟩
    have hsec := t.sec.isLt
    exact ⟨secs, nsecs, _, _, hparts, hsecs, hnsecs, ⟨by omega, by omega⟩, by omega, by omega⟩
  · rintro ⟨secs, nsecs, s, n, hparts, hsecs, hnsecs, hs, hn⟩
    obtain ⟨s, rfl⟩ := Int.eq_ofNat_of_zero_le hs.1
    obtain ⟨n, rfl⟩ := Int.eq_ofNat_of_zero_le hn.1
    have hs' : (BitVec.ofNat 32 s).toNat = s := by
      rw [BitVec.toNat_ofNat, Nat.mod_eq_of_lt (by omega)]
    have hn' : (BitVec.ofNat 32 n).toNat = n := by
      rw [BitVec.toNat_ofNat, Nat.mod_eq_of_lt (by omega)]
    refine ⟨⟨.ofNat 32 s, .ofNat 32 n⟩, secs, nsecs, hparts, ?_, ?_, ?_⟩
    · rwa [hs']
    · rwa [hn']
    · rw [hn']
      omega

theorem exists_denotes_duration {value : Json} :
    (∃ d : Duration, Primitive.Denotes .duration value d) ↔
      Primitive.Conforms .duration value := by
  constructor
  · rintro ⟨d, secs, nsecs, s, n, hparts, hsecs, hnsecs, hs, hn, hnorm, hsum⟩
    have hsec := d.sec.le_toInt
    exact ⟨secs, nsecs, s, n, hparts, hsecs, hnsecs, hs, hn, by omega⟩
  · rintro ⟨secs, nsecs, s, n, hparts, hsecs, hnsecs, hs, hn, hrep⟩
    have hsec : (BitVec.ofInt 32 ((s * 10 ^ 9 + n) / 10 ^ 9)).toInt = (s * 10 ^ 9 + n) / 10 ^ 9 :=
      BitVec.toInt_ofInt_eq_self (by decide) (by omega) (by omega)
    have hnsec : (BitVec.ofInt 32 ((s * 10 ^ 9 + n) % 10 ^ 9)).toInt = (s * 10 ^ 9 + n) % 10 ^ 9 :=
      BitVec.toInt_ofInt_eq_self (by decide) (by omega) (by omega)
    refine ⟨⟨.ofInt 32 ((s * 10 ^ 9 + n) / 10 ^ 9), .ofInt 32 ((s * 10 ^ 9 + n) % 10 ^ 9)⟩,
      secs, nsecs, s, n, hparts, hsecs, hnsecs, hs, hn, ?_, ?_⟩
    · rw [hnsec]
      omega
    · rw [hsec, hnsec]
      omega

/-- A scalar denotes something if and only if it conforms. -/
theorem exists_denotes_iff {p : Primitive} {value : Json} :
    (∃ v, p.Denotes value v) ↔ p.Conforms value := by
  cases p with
  | bool => exact Iff.rfl
  | string => exact Iff.rfl
  | uint8 => exact exists_denotes_unsigned
  | uint16 => exact exists_denotes_unsigned
  | uint32 => exact exists_denotes_unsigned
  | uint64 => exact exists_denotes_unsigned
  | int8 => exact exists_denotes_signed (by decide)
  | int16 => exact exists_denotes_signed (by decide)
  | int32 => exact exists_denotes_signed (by decide)
  | int64 => exact exists_denotes_signed (by decide)
  | float32 =>
      constructor
      · rintro ⟨_, hnum, hfin, hrange, -⟩
        exact ⟨hnum, hfin, hrange⟩
      · rintro ⟨hnum, hfin, hrange⟩
        exact ⟨_, hnum, hfin, hrange, rfl⟩
  | float64 =>
      constructor
      · rintro ⟨_, hnum, hfin, -⟩
        exact ⟨hnum, hfin⟩
      · rintro ⟨hnum, hfin⟩
        exact ⟨_, hnum, hfin, rfl⟩
  | time => exact exists_denotes_time
  | duration => exact exists_denotes_duration

/-- A list whose members are each related to something is related to a list. -/
theorem exists_forall₂_iff {α β : Type} {R : α → β → Prop} {l : List α} :
    (∃ l', List.Forall₂ R l l') ↔ ∀ a ∈ l, ∃ b, R a b := by
  induction l with
  | nil => exact ⟨fun _ _ h => absurd h List.not_mem_nil, fun _ => ⟨[], .nil⟩⟩
  | cons a l ih =>
      rw [List.forall_mem_cons, ← ih]
      constructor
      · rintro ⟨_, h⟩
        cases h with
        | cons hhead htail => exact ⟨⟨_, hhead⟩, ⟨_, htail⟩⟩
      · rintro ⟨⟨b, hhead⟩, ⟨l', htail⟩⟩
        exact ⟨b :: l', .cons hhead htail⟩

/-- An array can be read if and only if its length is accepted and its items can be. -/
theorem exists_readsItems_iff {α : Type} {length : Option Nat} {limits : Limits}
    {R : Json → α → Prop} {value : Json} :
    (∃ array : ArrayMessage α length, ReadsItems limits R value array) ↔
      ∃ items, value = .array items ∧ limits.AcceptsLength length items.length ∧
        ∀ item ∈ items, ∃ x, R item x := by
  constructor
  · rintro ⟨array, items, hvalue, hlength, hitems⟩
    exact ⟨items, hvalue, hlength, exists_forall₂_iff.mp ⟨_, hitems⟩⟩
  · rintro ⟨items, hvalue, hlength, hitems⟩
    obtain ⟨xs, hxs⟩ := exists_forall₂_iff.mpr hitems
    exact ⟨⟨xs, fun n hn => hxs.length_eq.symm.trans (hlength.2 n hn)⟩, items, hvalue, hlength, hxs⟩

mutual

theorem denotes_of_reads {limits : Limits} : (t : RosType) → ∀ {depth : Nat} {value : Json}
    {message : Message t}, Reads limits t depth value message → Message.Denotes t value message
  | .none, _, _, _, h => h.elim
  | .primitive _, _, _, _, h => h.2
  | .compound fields, _, _, _, h => by
      obtain ⟨-, members, hvalue, -, hfields⟩ := h
      exact ⟨members, hvalue, denotes_of_readsFields fields hfields⟩
  | .array (.primitive _) _, _, _, _, h => by
      obtain ⟨-, items, hvalue, -, hitems⟩ := h
      exact ⟨items, hvalue, hitems⟩
  | .array (.compound fields) _, _, _, _, h => by
      obtain ⟨-, items, hvalue, -, hitems⟩ := h
      exact ⟨items, hvalue, hitems.imp fun _ _ => denotes_of_reads (.compound fields)⟩
  | .array .none _, _, _, _, h => h.elim
  | .array (.array _ _) _, _, _, _, h => h.elim

theorem denotes_of_readsFields {limits : Limits} : (fields : Fields) → ∀ {depth : Nat}
    {members : Json.Members} {messages : FieldMessages fields},
    ReadsFields limits fields depth members messages →
    FieldMessages.Denotes fields members messages
  | .nil, _, _, _, _ => trivial
  | .cons _ type rest, _, _, (_, _), h =>
      ⟨fun value hvalue => denotes_of_reads type (h.1 value hvalue), h.2.1,
        denotes_of_readsFields rest h.2.2⟩

end

mutual

/-- A value can be read at a depth if and only if it conforms there. -/
theorem exists_reads_iff {limits : Limits} : (t : RosType) → ∀ {depth : Nat} {value : Json},
    (∃ message, Reads limits t depth value message) ↔
      Conforms limits limits.AcceptsLength depth t value
  | .none, _, _ => by
      constructor
      · rintro ⟨_, ⟨⟩⟩
      · rintro ⟨⟩
  | .primitive p, _, _ => by
      constructor
      · rintro ⟨_, hdepth, h⟩
        exact .scalar hdepth (exists_denotes_iff.mp ⟨_, h⟩)
      · intro h
        cases h with
        | scalar hdepth h =>
            obtain ⟨message, h⟩ := exists_denotes_iff.mpr h
            exact ⟨message, hdepth, h⟩
  | .compound fields, _, _ => by
      constructor
      · rintro ⟨_, hdepth, members, rfl, hkeys, h⟩
        exact .compound hdepth hkeys ((exists_readsFields_iff fields).mp ⟨_, h⟩)
      · intro h
        cases h with
        | compound hdepth hkeys h =>
            obtain ⟨messages, h⟩ := (exists_readsFields_iff fields).mpr h
            exact ⟨messages, hdepth, _, rfl, hkeys, h⟩
  | .array (.primitive p) length, _, _ => by
      constructor
      · rintro ⟨array, hdepth, h⟩
        obtain ⟨items, rfl, hlength, h⟩ := exists_readsItems_iff.mp ⟨array, h⟩
        exact .scalars hdepth hlength fun item hitem => exists_denotes_iff.mp (h item hitem)
      · intro h
        cases h with
        | scalars hdepth hlength h =>
            obtain ⟨array, h⟩ := exists_readsItems_iff.mpr
              ⟨_, rfl, hlength, fun item hitem => exists_denotes_iff.mpr (h item hitem)⟩
            exact ⟨array, hdepth, h⟩
  | .array (.compound fields) length, _, _ => by
      constructor
      · rintro ⟨array, hdepth, h⟩
        obtain ⟨items, rfl, hlength, h⟩ := exists_readsItems_iff.mp ⟨array, h⟩
        exact .compounds hdepth hlength fun item hitem =>
          (exists_reads_iff (.compound fields)).mp (h item hitem)
      · intro h
        cases h with
        | compounds hdepth hlength h =>
            obtain ⟨array, h⟩ := exists_readsItems_iff.mpr ⟨_, rfl, hlength, fun item hitem =>
              (exists_reads_iff (.compound fields)).mpr (h item hitem)⟩
            exact ⟨array, hdepth, h⟩
  | .array .none _, _, _ => by
      constructor
      · rintro ⟨_, ⟨⟩⟩
      · rintro ⟨⟩
  | .array (.array _ _) _, _, _ => by
      constructor
      · rintro ⟨_, ⟨⟩⟩
      · rintro ⟨⟩

theorem exists_readsFields_iff {limits : Limits} : (fields : Fields) → ∀ {depth : Nat}
    {members : Json.Members},
    (∃ messages, ReadsFields limits fields depth members messages) ↔
      ∀ name type value, (name, type) ∈ fields.toList → Json.find name members = some value →
        Conforms limits limits.AcceptsLength depth type value
  | .nil, _, _ => ⟨fun _ _ _ _ h => absurd h List.not_mem_nil, fun _ => ⟨(), trivial⟩⟩
  | .cons name type rest, depth, members => by
      constructor
      · rintro ⟨⟨message, messages⟩, hpresent, -, hrest⟩ k t value hk hvalue
        rcases List.mem_cons.mp hk with heq | hk
        · cases heq
          exact (exists_reads_iff type).mp ⟨message, hpresent value hvalue⟩
        · exact (exists_readsFields_iff rest).mp ⟨messages, hrest⟩ k t value hk hvalue
      · intro h
        obtain ⟨messages, hrest⟩ := (exists_readsFields_iff rest).mpr fun k t value hk =>
          h k t value (List.mem_cons_of_mem _ hk)
        cases hfind : Json.find name members with
        | none =>
            refine ⟨(Message.empty type, messages), fun value hvalue => ?_, fun _ => rfl, hrest⟩
            cases hfind.symm.trans hvalue
        | some value =>
            obtain ⟨message, hmessage⟩ :=
              (exists_reads_iff type).mpr (h name type value List.mem_cons_self hfind)
            refine ⟨(message, messages), fun found hfound => ?_, fun hnone => ?_, hrest⟩
            · cases hfind.symm.trans hfound
              exact hmessage
            · cases hfind.symm.trans hnone

end

/-- **The decoder accepts exactly the conforming values and loses nothing.**  Decoding a
value into an empty message succeeds if and only if the value conforms to the type,
where an array must have the length of its type, if that is fixed, and must not
exceed the limit in any case; and the message is then the one that the value
denotes. -/
theorem decode_accepts_conforming (codec : JsonCodec) (t : RosType) (value : Json) :
    ((∃ message, codec.decode t value (Message.empty t) = .ok message) ↔
      Conforms codec.limits codec.limits.AcceptsLength 0 t value) ∧
    ∀ message, codec.decode t value (Message.empty t) = .ok message →
      Message.Denotes t value message := by
  constructor
  · rw [← exists_reads_iff t]
    exact exists_congr fun message => decodeValue_eq_ok t
  · intro message h
    exact denotes_of_reads t ((decodeValue_eq_ok t).mp h)

/-- Without the limit on fixed arrays: the exact length for those, and at most the
maximum for the others. -/
def Limits.ExactOrBounded (limits : Limits) (length : Option Nat) (n : Nat) : Prop :=
  match length with
  | some k => n = k
  | none => n ≤ limits.maximumArrayElements

/-- A fixed array of two elements has no acceptable value if the limit is one. -/
theorem fixed_array_over_limit :
    let codec : JsonCodec := ⟨⟨64, 1⟩, by decide⟩
    let t : RosType := .array (.primitive .bool) (some 2)
    let value : Json := .array [.boolean true, .boolean false]
    Conforms codec.limits codec.limits.ExactOrBounded 0 t value ∧
      codec.decode t value (Message.empty t) =
        .error (codecError "$" "maximum array element count exceeded") := by
  refine ⟨.scalars (by decide) rfl fun item hitem => ?_, rfl⟩
  rcases hitem with _ | ⟨_, _ | ⟨_, ⟨⟩⟩⟩
  · exact ⟨true, rfl⟩
  · exact ⟨false, rfl⟩

end Ros1Tools.Codec
