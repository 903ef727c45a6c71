import Ros1Tools.Lib.Pattern
import Ros1Tools.Adapter.Input

/-!
# The published schemas of the input

The contract of an operation's input is written twice: as a JSON schema that is published,
and as the checks of `ToolsAdapter`.  The schemas are transcribed here with their meaning, and
the two descriptions are compared.

They differ in one place, which no schema can express: how long a publication may take is
computed in double precision, so a duration that exceeds the bound by less than half the
distance to the next double is accepted.
-/

namespace Ros1Tools.Adapter

open Lib Lib.Pattern

/-! ## JSON schemas -/

/-- The schema of a property. -/
inductive Property where
  | string (pattern : Language Char) (maxLength : Nat)
  | object
  | integer (minimum maximum : ℚ)
  | number (minimum maximum : ℚ)
  | boolean

/-- What a property accepts.  A number is an integer if it has no fraction. -/
def Property.Accepts : Property → Json → Prop
  | .string pattern maxLength, value =>
      ∃ text, value = .string text ∧ text.length ≤ maxLength ∧ text.toList ∈ pattern
  | .object, value => ∃ members, value = .object members
  | .integer minimum maximum, value =>
      ∃ n : Int, value.number = some (n : ℚ) ∧ minimum ≤ n ∧ n ≤ maximum
  | .number minimum maximum, value =>
      ∃ q, value.number = some q ∧ minimum ≤ q ∧ q ≤ maximum
  | .boolean, value => ∃ b, value = .boolean b

/-- The schema of an object without additional properties. -/
structure ObjectSchema where
  properties : List (String × Property)
  required : List String

structure ObjectSchema.Accepts (schema : ObjectSchema) (members : Json.Members) :
    Prop where
  additional : ∀ member ∈ members, member.1 ∈ schema.properties.map Prod.fst
  required : ∀ name ∈ schema.required, ∃ value, Json.find name members = some value
  properties : ∀ property ∈ schema.properties, ∀ value,
    Json.find property.1 members = some value → property.2.Accepts value

/-- `[A-Za-z]`. -/
def letter (c : Char) : Bool := range 'A' 'Z' c || range 'a' 'z' c

/-- `[A-Za-z0-9_]`. -/
def wordCharacter (c : Char) : Bool :=
  range 'A' 'Z' c || range 'a' 'z' c || range '0' '9' c || c == '_'

/-- `[A-Za-z][A-Za-z0-9_]*`. -/
def identifier : Language Char := cls letter * KStar.kstar (cls wordCharacter)

/-- `^/[A-Za-z][A-Za-z0-9_]*(?:/[A-Za-z][A-Za-z0-9_]*)*$`. -/
def namePattern : Language Char :=
  text ['/'] * (identifier * KStar.kstar (text ['/'] * identifier))

/-- `^[A-Za-z][A-Za-z0-9_]*/[A-Za-z][A-Za-z0-9_]*$`. -/
def typePattern : Language Char := identifier * (text ['/'] * identifier)

/-- `service-call-request.schema.json`. -/
def serviceCallRequestSchema : ObjectSchema where
  properties :=
    [("service", .string namePattern 4096), ("serviceType", .string typePattern 512),
      ("request", .object), ("waitForServiceMs", .integer 0 300000),
      ("callTimeoutMs", .integer 1 300000)]
  required := ["service", "serviceType", "request", "waitForServiceMs", "callTimeoutMs"]

/-- `publish-request.schema.json`. -/
def publishRequestSchema : ObjectSchema where
  properties :=
    [("topic", .string namePattern 4096), ("messageType", .string typePattern 512),
      ("message", .object), ("publishCount", .integer 1 10000),
      ("publishRateHz", .number (1 / 10) 1000), ("latch", .boolean),
      ("queueSize", .integer 1 10000), ("waitForSubscribersMs", .integer 0 300000)]
  required := ["topic", "messageType", "message", "publishCount", "publishRateHz", "latch",
    "queueSize", "waitForSubscribersMs"]

/-- If all properties are required, each one has a value that it accepts. -/
theorem ObjectSchema.accepts_iff {schema : ObjectSchema} {members : Json.Members}
    (h : schema.required = schema.properties.map Prod.fst) :
    schema.Accepts members ↔
      (∀ member ∈ members, member.1 ∈ schema.required) ∧
        ∀ property ∈ schema.properties, ∃ value,
          Json.find property.1 members = some value ∧ property.2.Accepts value := by
  constructor
  · rintro ⟨hadditional, hrequired, hproperties⟩
    refine ⟨h ▸ hadditional, fun property hproperty => ?_⟩
    obtain ⟨value, hvalue⟩ := hrequired property.1 (h ▸ List.mem_map_of_mem hproperty)
    exact ⟨value, hvalue, hproperties property hproperty value hvalue⟩
  · rintro ⟨hadditional, hproperties⟩
    refine ⟨h ▸ hadditional, fun name hname => ?_, fun property hproperty value hvalue => ?_⟩
    · rw [h] at hname
      obtain ⟨property, hproperty, rfl⟩ := List.mem_map.mp hname
      obtain ⟨value, hvalue, -⟩ := hproperties property hproperty
      exact ⟨value, hvalue⟩
    · obtain ⟨found, hfound, haccepts⟩ := hproperties property hproperty
      cases hfound.symm.trans hvalue
      exact haccepts

/-! ## Names -/

section Names

variable {cs front rest : List Char} {c : Char}

theorem letter_eq (c : Char) : letter c = c.isAlpha := by
  rw [letter, range_upper, range_lower]
  rfl

theorem wordCharacter_eq (c : Char) : wordCharacter c = (c.isAlphanum || c == '_') := by
  rw [wordCharacter, range_upper, range_lower, range_digit]
  rfl

theorem mem_identifier : cs ∈ identifier ↔ isIdentifier cs = true := by
  rw [identifier, mem_cls_mul]
  cases cs with
  | nil => exact ⟨nofun, nofun⟩
  | cons c cs =>
      rw [isIdentifier, Bool.and_eq_true, List.all_eq_true]
      simp only [mem_kstar_cls, letter_eq, wordCharacter_eq]
      constructor
      · rintro ⟨c, rest, hc, hrest, ⟨⟩⟩
        exact ⟨hc, hrest⟩
      · rintro ⟨hc, hrest⟩
        exact ⟨c, cs, hc, hrest, rfl⟩

theorem slash_not_mem_identifier (h : isIdentifier cs = true) : '/' ∉ cs := by
  intro hslash
  cases cs with
  | nil => cases hslash
  | cons c cs =>
      rw [isIdentifier, Bool.and_eq_true, List.all_eq_true] at h
      rcases List.mem_cons.mp hslash with rfl | hslash
      · exact absurd h.1 (by decide)
      · exact absurd (h.2 '/' hslash) (by decide)

theorem segments_ne_nil (cs : List Char) : segments cs ≠ [] := by
  fun_cases segments cs <;> simp

/-- The first segment takes a character that is not a slash. -/
theorem segments_cons {segment : List Char} {others : List (List Char)} (hc : c ≠ '/')
    (h : segments cs = segment :: others) : segments (c :: cs) = (c :: segment) :: others := by
  rw [segments, h]
  exact fun hslash => hc hslash

theorem segments_of_slash_not_mem (h : '/' ∉ cs) : segments cs = [cs] := by
  induction cs with
  | nil => rfl
  | cons c cs ih =>
      obtain ⟨hc, hcs⟩ := not_or.mp (List.mem_cons.not.mp h)
      exact segments_cons (Ne.symm hc) (ih hcs)

theorem segments_append (h : '/' ∉ front) :
    segments (front ++ '/' :: rest) = front :: segments rest := by
  induction front with
  | nil => rfl
  | cons c front ih =>
      obtain ⟨hc, hfront⟩ := not_or.mp (List.mem_cons.not.mp h)
      exact segments_cons (Ne.symm hc) (ih hfront)

/-- A name is an identifier, or one in front of a slash and a name. -/
theorem mem_names_iff : cs ∈ identifier * KStar.kstar (text ['/'] * identifier) ↔
    isIdentifier cs = true ∨ ∃ front rest, cs = front ++ '/' :: rest ∧ isIdentifier front = true ∧
      rest ∈ identifier * KStar.kstar (text ['/'] * identifier) := by
  nth_rewrite 1 [← Language.one_add_self_mul_kstar_eq_kstar]
  rw [mul_add, mul_one, Language.mem_add, mem_identifier, Language.mem_mul, mul_assoc]
  refine or_congr_right ?_
  constructor
  · rintro ⟨front, hfront, _, htail, rfl⟩
    obtain ⟨rest, hrest, rfl⟩ := mem_text_mul.mp htail
    exact ⟨front, rest, rfl, mem_identifier.mp hfront, hrest⟩
  · rintro ⟨front, rest, rfl, hfront, hrest⟩
    exact ⟨front, mem_identifier.mpr hfront, '/' :: rest, mem_text_mul.mpr ⟨rest, hrest, rfl⟩, rfl⟩

/-- **Names are texts whose segments are identifiers.** -/
theorem mem_names : cs ∈ identifier * KStar.kstar (text ['/'] * identifier) ↔
    (segments cs).all isIdentifier = true := by
  -- By induction on the length: behind the first slash the text is shorter.
  induction hlength : cs.length using Nat.strongRecOn generalizing cs with
  | ind n ih =>
      have hshorter : ∀ {front rest : List Char}, cs = front ++ '/' :: rest → rest.length < n := by
        rintro front rest rfl
        rw [← hlength, List.length_append, List.length_cons]
        omega
      rw [mem_names_iff]
      constructor
      · rintro (h | ⟨front, rest, hcs, hfront, hrest⟩)
        · rw [segments_of_slash_not_mem (slash_not_mem_identifier h)]
          simpa using h
        · rw [hcs, segments_append (slash_not_mem_identifier hfront), List.all_cons, hfront]
          exact (ih _ (hshorter hcs) rfl).mp hrest
      · intro h
        by_cases hslash : '/' ∈ cs
        · obtain ⟨front, rest, hcs, hfront⟩ := List.eq_append_cons_of_mem hslash
          rw [hcs, segments_append hfront, List.all_cons, Bool.and_eq_true] at h
          exact .inr ⟨front, rest, hcs, h.1, (ih _ (hshorter hcs) rfl).mpr h.2⟩
        · rw [segments_of_slash_not_mem hslash] at h
          exact .inl (by simpa using h)

theorem mem_namePattern {value : String} :
    value.toList ∈ namePattern ↔ absoluteRosNamePattern value = true := by
  rw [namePattern, mem_text_mul, absoluteRosNamePattern]
  split
  · rename_i rest hvalue
    rw [hvalue, ← mem_names]
    constructor
    · rintro ⟨_, hrest, ⟨⟩⟩
      exact hrest
    · exact fun hrest => ⟨rest, hrest, rfl⟩
  · rename_i hvalue
    refine ⟨?_, nofun⟩
    rintro ⟨rest, -, htext⟩
    exact absurd htext (hvalue rest)

theorem mem_typePattern {value : String} :
    value.toList ∈ typePattern ↔ rosTypePattern value = true := by
  rw [typePattern, Language.mem_mul]
  constructor
  · rintro ⟨front, hfront, _, htail, htext⟩
    obtain ⟨name, hname, rfl⟩ := mem_text_mul.mp htail
    rw [mem_identifier] at hfront hname
    rw [rosTypePattern, ← htext, List.singleton_append,
      segments_append (slash_not_mem_identifier hfront),
      segments_of_slash_not_mem (slash_not_mem_identifier hname)]
    simp only [hfront, hname, Bool.and_self]
  · intro h
    unfold rosTypePattern at h
    split at h
    · rename_i package name hsegments
      obtain ⟨hpackage, hname⟩ := Bool.and_eq_true_iff.mp h
      by_cases hslash : '/' ∈ value.toList
      · obtain ⟨front, rest, htext, hfront⟩ := List.eq_append_cons_of_mem hslash
        rw [htext, segments_append hfront] at hsegments
        obtain ⟨rfl, hname'⟩ := List.cons.inj hsegments
        by_cases hslash : '/' ∈ rest
        · obtain ⟨front', rest', rfl, hfront'⟩ := List.eq_append_cons_of_mem hslash
          rw [segments_append hfront'] at hname'
          exact absurd (List.cons.inj hname').2 (segments_ne_nil _)
        · rw [segments_of_slash_not_mem hslash] at hname'
          obtain rfl : rest = name := (List.cons.inj hname').1
          exact ⟨front, mem_identifier.mpr hpackage, '/' :: rest,
            mem_text_mul.mpr ⟨rest, mem_identifier.mpr hname, rfl⟩, htext.symm⟩
      · rw [segments_of_slash_not_mem hslash] at hsegments
        cases hsegments
    · cases h

/-- The characters of identifiers are bytes. -/
theorem lt_of_isIdentifier (h : isIdentifier cs = true) : ∀ c ∈ cs, c.toNat < 256 := by
  have hletter : ∀ c : Char, letter c = true → c.toNat < 256 := by
    intro c hc
    rw [letter, Bool.or_eq_true, range_iff, range_iff] at hc
    have hZ : 'Z'.toNat = 90 := rfl
    have hz : 'z'.toNat = 122 := rfl
    omega
  have hword : ∀ c : Char, wordCharacter c = true → c.toNat < 256 := by
    intro c hc
    simp only [wordCharacter, Bool.or_eq_true, beq_iff_eq] at hc
    rcases hc with (hc | hc) | rfl
    · exact hletter c (Bool.or_eq_true_iff.mpr hc)
    · exact lt_of_le_of_lt (range_iff.mp hc).2 (by decide)
    · decide
  cases cs with
  | nil => nofun
  | cons c cs =>
      rw [isIdentifier, Bool.and_eq_true, List.all_eq_true, ← letter_eq] at h
      refine List.forall_mem_cons.mpr ⟨hletter c h.1, fun d hd => hword d ?_⟩
      rw [wordCharacter_eq]
      exact h.2 d hd

/-- A character is a slash or belongs to a segment. -/
theorem eq_slash_or_mem_segments (h : c ∈ cs) : c = '/' ∨ ∃ segment ∈ segments cs, c ∈ segment := by
  induction cs with
  | nil => cases h
  | cons d cs ih =>
      by_cases hd : d = '/'
      · subst hd
        rcases List.mem_cons.mp h with rfl | h
        · exact .inl rfl
        · refine (ih h).imp_right ?_
          rintro ⟨segment, hsegment, hc⟩
          exact ⟨segment, List.mem_cons_of_mem _ hsegment, hc⟩
      · obtain ⟨segment, others, hsegments⟩ := List.exists_cons_of_ne_nil (segments_ne_nil cs)
        rw [segments_cons hd hsegments]
        rw [hsegments] at ih
        rcases List.mem_cons.mp h with rfl | h
        · exact .inr ⟨c :: segment, List.mem_cons_self, List.mem_cons_self⟩
        · refine (ih h).imp_right ?_
          rintro ⟨found, hfound, hc⟩
          rcases List.mem_cons.mp hfound with rfl | hfound
          · exact ⟨d :: found, List.mem_cons_self, List.mem_cons_of_mem _ hc⟩
          · exact ⟨found, List.mem_cons_of_mem _ hfound, hc⟩

theorem lt_of_segments (h : (segments cs).all isIdentifier = true) : ∀ c ∈ cs, c.toNat < 256 := by
  intro c hc
  rcases eq_slash_or_mem_segments hc with rfl | ⟨segment, hsegment, hc⟩
  · decide
  · exact lt_of_isIdentifier (List.all_eq_true.mp h segment hsegment) c hc

/-- The texts of both patterns are byte strings. -/
theorem lt_of_mem_namePattern {value : String} (h : value.toList ∈ namePattern) :
    ∀ c ∈ value.toList, c.toNat < 256 := by
  obtain ⟨rest, hrest, htext⟩ := mem_text_mul.mp h
  rw [htext, List.forall_mem_append]
  exact ⟨List.forall_mem_singleton.mpr (by decide), lt_of_segments (mem_names.mp hrest)⟩

theorem lt_of_mem_typePattern {value : String} (h : value.toList ∈ typePattern) :
    ∀ c ∈ value.toList, c.toNat < 256 := by
  obtain ⟨front, hfront, _, htail, htext⟩ := Language.mem_mul.mp h
  obtain ⟨name, hname, rfl⟩ := mem_text_mul.mp htail
  rw [← htext, List.forall_mem_append, List.forall_mem_append]
  exact ⟨lt_of_isIdentifier (mem_identifier.mp hfront), List.forall_mem_singleton.mpr (by decide),
    lt_of_isIdentifier (mem_identifier.mp hname)⟩

end Names

/-! ## Fields and properties -/

/-- `ros::names::validate` accepts what matches the pattern of names. -/
def Platform.ValidatesNames (platform : Platform) : Prop :=
  ∀ value : String, value.toList ∈ namePattern →
    platform.namesValidate (Bytes.ofText value) = .ok ()

section Fields

variable {platform : Platform} {members : Json.Members} {field : String}

theorem ne_of_absoluteRosNamePattern {value other : String}
    (h : absoluteRosNamePattern value = true) (hother : absoluteRosNamePattern other = false) :
    value ≠ other := by
  rintro rfl
  exact absurd (h.symm.trans hother) (by decide)

theorem head_of_absoluteRosNamePattern {value : String}
    (h : absoluteRosNamePattern value = true) : value.toList.head? = some '/' := by
  obtain ⟨rest, -, htext⟩ := mem_text_mul.mp (mem_namePattern.mpr h)
  rw [htext]
  rfl

theorem validateAbsoluteRosName_eq_ok_iff (hnames : platform.ValidatesNames) {value : String}
    {u : Unit} :
    platform.validateAbsoluteRosName value field = .ok u ↔
      value.length ≤ 4096 ∧ value.toList ∈ namePattern := by
  unfold Platform.validateAbsoluteRosName
  rw [ite_error_eq_ok]
  simp only [not_or, not_lt, not_not, Bool.not_eq_false]
  constructor
  · rintro ⟨⟨-, hlength, -, -, hpattern⟩, -⟩
    exact ⟨hlength, mem_namePattern.mpr hpattern⟩
  · rintro ⟨hlength, hpattern⟩
    have hmatch := mem_namePattern.mp hpattern
    refine ⟨⟨ne_of_absoluteRosNamePattern hmatch (by decide), hlength,
      ne_of_absoluteRosNamePattern hmatch (by decide), head_of_absoluteRosNamePattern hmatch,
      hmatch⟩, ?_⟩
    rw [hnames value hpattern]

theorem validateRosType_eq_ok_iff {value : String} {u : Unit} :
    validateRosType value field = .ok u ↔ value.length ≤ 512 ∧ value.toList ∈ typePattern := by
  rw [validateRosType, check_eq_ok, Bool.and_eq_true, decide_eq_true_eq, mem_typePattern]
  rfl

theorem ne_empty_of_mem_namePattern {value : String} (h : value.toList ∈ namePattern) :
    value ≠ "" :=
  ne_of_absoluteRosNamePattern (mem_namePattern.mp h) (by decide)

theorem ne_empty_of_mem_typePattern {value : String} (h : value.toList ∈ typePattern) :
    value ≠ "" := by
  rintro rfl
  exact absurd (mem_typePattern.mp h) (by decide)

/-- The integers of a range are read as words. -/
theorem accepts_integer_iff (minimum maximum : Nat) (hmaximum : maximum < 2 ^ 32) {value : Json} :
    (Property.integer minimum maximum).Accepts value ↔
      ∃ n : UInt32, value.number = some (n.toNat : ℚ) ∧ minimum ≤ n.toNat ∧
        n.toNat ≤ maximum := by
  constructor
  · rintro ⟨n, hnumber, hmin, hmax⟩
    have hmin : (minimum : Int) ≤ n := by exact_mod_cast hmin
    have hmax : n ≤ (maximum : Int) := by exact_mod_cast hmax
    have htoNat : (UInt32.ofNat n.toNat).toNat = n.toNat :=
      UInt32.toNat_ofNat_of_lt' (by rw [UInt32.size]; omega)
    refine ⟨.ofNat n.toNat, ?_, by omega, by omega⟩
    rw [hnumber, htoNat, ← Int.cast_natCast, Int.toNat_of_nonneg (by omega)]
  · rintro ⟨n, hnumber, hmin, hmax⟩
    exact ⟨n.toNat, by rw [hnumber, Int.cast_natCast], by exact_mod_cast hmin,
      by exact_mod_cast hmax⟩

/-- The numbers of the rate's range are read as doubles. -/
theorem accepts_rate_iff {value : Json} :
    (Property.number (1 / 10) 1000).Accepts value ↔
      value.number = some value.asDouble.value ∧ 1 / 10 ≤ value.asDouble.value ∧
        value.asDouble.value ≤ 1000 := by
  constructor
  · rintro ⟨q, hnumber, hmin, hmax⟩
    have hvalue := (asDouble_of_number hnumber hmax (le_trans (by norm_num) hmin)).2
    rw [hvalue]
    exact ⟨hnumber, hmin, hmax⟩
  · exact fun h => ⟨_, h⟩

end Fields

/-! ## Requests and members -/

/-- Every field of a request is the value of its member. -/
structure ServiceCallInput.Holds (call : ServiceCallInput) (members : Json.Members) :
    Prop where
  service : Json.find "service" members = some (.string call.service.toText)
  serviceType : Json.find "serviceType" members = some (.string call.serviceType.toText)
  request : Json.find "request" members = some (.object call.request)
  waitForServiceMs : (Json.find "waitForServiceMs" members).bind Json.number =
    some (call.waitForServiceMs.toNat : ℚ)
  callTimeoutMs : (Json.find "callTimeoutMs" members).bind Json.number =
    some (call.callTimeoutMs.toNat : ℚ)

structure PublishRequest.Holds (request : PublishRequest) (members : Json.Members) :
    Prop where
  topic : Json.find "topic" members = some (.string request.topic)
  messageType : Json.find "messageType" members = some (.string request.messageType)
  message : Json.find "message" members = some (.object request.message)
  publishCount : (Json.find "publishCount" members).bind Json.number =
    some (request.publishCount.toNat : ℚ)
  publishRateHz : (Json.find "publishRateHz" members).bind Json.number =
    some request.publishRateHz.value
  latch : Json.find "latch" members = some (.boolean request.latch)
  queueSize : (Json.find "queueSize" members).bind Json.number =
    some (request.queueSize.toNat : ℚ)
  waitForSubscribersMs : (Json.find "waitForSubscribersMs" members).bind Json.number =
    some (request.waitForSubscribersMs.toNat : ℚ)

/-- How long a publication takes, exactly. -/
def exactDuration (members : Json.Members) : Option ℚ := do
  let count ← (Json.find "publishCount" members).bind Json.number
  let rate ← (Json.find "publishRateHz" members).bind Json.number
  return (count - 1) / rate

section Requests

variable {platform : Platform} {members : Json.Members}

/-- What a service call accepted by the code satisfies. -/
theorem accepts_of_readCallInput (hnames : platform.ValidatesNames) {call : ServiceCallInput}
    (h : platform.readCallInput members = .ok call) :
    serviceCallRequestSchema.Accepts members ∧ call.Holds members := by
  unfold Platform.readCallInput at h
  simp only [bind_eq_ok, rejectUnknownFields_eq_ok, requiredString_eq_ok, requiredObject_eq_ok,
    validateAbsoluteRosName_eq_ok_iff hnames, validateRosType_eq_ok_iff,
    requiredUInt_eq_ok_iff (show maximumWaitMilliseconds < 2 ^ 32 by decide)] at h
  obtain ⟨-, hknown, service, ⟨hservice, -⟩, serviceType, ⟨hserviceType, -⟩, -, hname, -, htype,
    inner, hinner, wait, ⟨waitValue, hwait, hwaitNumber, hwaitRange⟩, timeout,
    ⟨timeoutValue, htimeout, htimeoutNumber, htimeoutRange⟩, ⟨⟩⟩ := h
  constructor
  · rw [ObjectSchema.accepts_iff rfl]
    refine ⟨hknown, ?_⟩
    simp only [serviceCallRequestSchema, List.forall_mem_cons]
    refine ⟨⟨_, hservice, service, rfl, hname⟩, ⟨_, hserviceType, serviceType, rfl, htype⟩,
      ⟨_, hinner, inner, rfl⟩, ⟨_, hwait, ?_⟩, ⟨_, htimeout, ?_⟩, nofun⟩
    · exact_mod_cast (accepts_integer_iff _ _ (by decide)).mpr ⟨wait, hwaitNumber, hwaitRange⟩
    · exact_mod_cast (accepts_integer_iff _ _ (by decide)).mpr
        ⟨timeout, htimeoutNumber, htimeoutRange⟩
  · constructor
    · rw [hservice, Bytes.toText_ofText (lt_of_mem_namePattern hname.2)]
    · rw [hserviceType, Bytes.toText_ofText (lt_of_mem_typePattern htype.2)]
    · exact hinner
    · rw [hwait, Option.bind_some, hwaitNumber]
    · rw [htimeout, Option.bind_some, htimeoutNumber]

/-- The code accepts a service call that satisfies the schema. -/
theorem readCallInput_of_accepts (hnames : platform.ValidatesNames)
    (h : serviceCallRequestSchema.Accepts members) :
    ∃ call, platform.readCallInput members = .ok call := by
  obtain ⟨hknown, hproperties⟩ := (ObjectSchema.accepts_iff rfl).mp h
  simp only [serviceCallRequestSchema, List.forall_mem_cons] at hproperties
  obtain ⟨⟨_, hservice, service, rfl, hname⟩, ⟨_, hserviceType, serviceType, rfl, htype⟩,
    ⟨_, hinner, inner, rfl⟩, ⟨waitValue, hwait, hwaitAccepts⟩,
    ⟨timeoutValue, htimeout, htimeoutAccepts⟩, -⟩ := hproperties
  obtain ⟨wait, hwait'⟩ := (accepts_integer_iff 0 300000 (by decide)).mp
    (by exact_mod_cast hwaitAccepts)
  obtain ⟨timeout, htimeout'⟩ := (accepts_integer_iff 1 300000 (by decide)).mp
    (by exact_mod_cast htimeoutAccepts)
  unfold Platform.readCallInput
  simp only [bind_eq_ok, rejectUnknownFields_eq_ok, requiredString_eq_ok, requiredObject_eq_ok,
    validateAbsoluteRosName_eq_ok_iff hnames, validateRosType_eq_ok_iff,
    requiredUInt_eq_ok_iff (show maximumWaitMilliseconds < 2 ^ 32 by decide)]
  exact ⟨_, (), hknown, service, ⟨hservice, ne_empty_of_mem_namePattern hname.2⟩, serviceType,
    ⟨hserviceType, ne_empty_of_mem_typePattern htype.2⟩, (), hname, (), htype, inner, hinner, wait,
    ⟨waitValue, hwait, hwait'⟩, timeout, ⟨timeoutValue, htimeout, htimeout'⟩, rfl⟩

theorem exactDuration_eq {countValue rateValue : Json} {count rate : ℚ}
    (hcount : Json.find "publishCount" members = some countValue)
    (hrate : Json.find "publishRateHz" members = some rateValue)
    (hcountNumber : countValue.number = some count) (hrateNumber : rateValue.number = some rate) :
    exactDuration members = some ((count - 1) / rate) := by
  rw [exactDuration, hcount, hrate, Option.bind_some, Option.bind_some, hcountNumber, hrateNumber]
  rfl

/-- What a publication accepted by the code satisfies. -/
theorem accepts_of_readPublish (hnames : platform.ValidatesNames) {request : PublishRequest}
    (h : platform.readPublish members = .ok request) :
    publishRequestSchema.Accepts members ∧
      (∃ duration, exactDuration members = some duration ∧ duration ≤ 240 + 1 / 2 ^ 46) ∧
      request.Holds members := by
  unfold Platform.readPublish at h
  simp only [bind_eq_ok, rejectUnknownFields_eq_ok, requiredString_eq_ok, requiredObject_eq_ok,
    validateAbsoluteRosName_eq_ok_iff hnames, validateRosType_eq_ok_iff, requiredBool_eq_ok,
    publishRateHz_eq_ok, check_eq_ok,
    requiredUInt_eq_ok_iff (show maximumPublishCount < 2 ^ 32 by decide),
    requiredUInt_eq_ok_iff (show maximumQueueSize < 2 ^ 32 by decide),
    requiredUInt_eq_ok_iff (show maximumWaitMilliseconds < 2 ^ 32 by decide)] at h
  obtain ⟨-, hknown, topic, ⟨htopic, -⟩, messageType, ⟨hmessageType, -⟩, -, hname, -, htype,
    message, hmessage, count, ⟨countValue, hcount, hcountNumber, hcountRange⟩, rate,
    ⟨rateValue, hrate, rfl, hrateNumber, hrateRange⟩, -, hduration, latch, hlatch, queue,
    ⟨queueValue, hqueue, hqueueNumber, hqueueRange⟩, wait,
    ⟨waitValue, hwait, hwaitNumber, hwaitRange⟩, ⟨⟩⟩ := h
  refine ⟨?_, ⟨_, exactDuration_eq hcount hrate hcountNumber hrateNumber, ?_⟩, ?_⟩
  · rw [ObjectSchema.accepts_iff rfl]
    refine ⟨hknown, ?_⟩
    simp only [publishRequestSchema, List.forall_mem_cons]
    refine ⟨⟨_, htopic, topic, rfl, hname⟩, ⟨_, hmessageType, messageType, rfl, htype⟩,
      ⟨_, hmessage, message, rfl⟩, ⟨_, hcount, ?_⟩,
      ⟨_, hrate, accepts_rate_iff.mpr ⟨hrateNumber, hrateRange⟩⟩, ⟨_, hlatch, latch, rfl⟩,
      ⟨_, hqueue, ?_⟩, ⟨_, hwait, ?_⟩, nofun⟩
    · exact_mod_cast (accepts_integer_iff _ _ (by decide)).mpr ⟨count, hcountNumber, hcountRange⟩
    · exact_mod_cast (accepts_integer_iff _ _ (by decide)).mpr ⟨queue, hqueueNumber, hqueueRange⟩
    · exact_mod_cast (accepts_integer_iff _ _ (by decide)).mpr ⟨wait, hwaitNumber, hwaitRange⟩
  · have hpos : 0 < rateValue.asDouble.value := lt_of_lt_of_le (by norm_num) hrateRange.1
    have hfinite := (asDouble_of_number hrateNumber hrateRange.2 hpos.le).1
    rw [Bool.not_eq_true'] at hduration
    exact (publishDuration_le_iff hcountRange.1 hfinite hpos).mp hduration
  · exact ⟨htopic, hmessageType, hmessage, by rw [hcount, Option.bind_some, hcountNumber],
      by rw [hrate, Option.bind_some, hrateNumber], hlatch,
      by rw [hqueue, Option.bind_some, hqueueNumber], by rw [hwait, Option.bind_some, hwaitNumber]⟩

/-- The code accepts a publication that satisfies the schema and is short enough. -/
theorem readPublish_of_accepts (hnames : platform.ValidatesNames)
    (h : publishRequestSchema.Accepts members) {duration : ℚ}
    (hduration : exactDuration members = some duration) (hle : duration ≤ 240 + 1 / 2 ^ 46) :
    ∃ request, platform.readPublish members = .ok request := by
  obtain ⟨hknown, hproperties⟩ := (ObjectSchema.accepts_iff rfl).mp h
  simp only [publishRequestSchema, List.forall_mem_cons] at hproperties
  obtain ⟨⟨_, htopic, topic, rfl, hname⟩, ⟨_, hmessageType, messageType, rfl, htype⟩,
    ⟨_, hmessage, message, rfl⟩, ⟨countValue, hcount, hcountAccepts⟩,
    ⟨rateValue, hrate, hrateAccepts⟩, ⟨_, hlatch, latch, rfl⟩,
    ⟨queueValue, hqueue, hqueueAccepts⟩, ⟨waitValue, hwait, hwaitAccepts⟩, -⟩ := hproperties
  obtain ⟨count, hcount'⟩ := (accepts_integer_iff 1 10000 (by decide)).mp
    (by exact_mod_cast hcountAccepts)
  obtain ⟨queue, hqueue'⟩ := (accepts_integer_iff 1 10000 (by decide)).mp
    (by exact_mod_cast hqueueAccepts)
  obtain ⟨wait, hwait'⟩ := (accepts_integer_iff 0 300000 (by decide)).mp
    (by exact_mod_cast hwaitAccepts)
  obtain ⟨hrateNumber, hrateRange⟩ := accepts_rate_iff.mp hrateAccepts
  have hpos : 0 < rateValue.asDouble.value := lt_of_lt_of_le (by norm_num) hrateRange.1
  have hfinite := (asDouble_of_number hrateNumber hrateRange.2 hpos.le).1
  have hshort : (!maximumPublishDurationSeconds.lt
      (publishDuration count rateValue.asDouble)) = true := by
    rw [exactDuration_eq hcount hrate hcount'.1 hrateNumber, Option.some.injEq] at hduration
    rw [Bool.not_eq_true', publishDuration_le_iff hcount'.2.1 hfinite hpos, hduration]
    exact hle
  unfold Platform.readPublish
  simp only [bind_eq_ok, rejectUnknownFields_eq_ok, requiredString_eq_ok, requiredObject_eq_ok,
    validateAbsoluteRosName_eq_ok_iff hnames, validateRosType_eq_ok_iff, requiredBool_eq_ok,
    publishRateHz_eq_ok, check_eq_ok,
    requiredUInt_eq_ok_iff (show maximumPublishCount < 2 ^ 32 by decide),
    requiredUInt_eq_ok_iff (show maximumQueueSize < 2 ^ 32 by decide),
    requiredUInt_eq_ok_iff (show maximumWaitMilliseconds < 2 ^ 32 by decide)]
  exact ⟨_, (), hknown, topic, ⟨htopic, ne_empty_of_mem_namePattern hname.2⟩, messageType,
    ⟨hmessageType, ne_empty_of_mem_typePattern htype.2⟩, (), hname, (), htype, message, hmessage,
    count, ⟨countValue, hcount, hcount'⟩, rateValue.asDouble,
    ⟨rateValue, hrate, rfl, hrateNumber, hrateRange⟩, (), hshort, latch, hlatch, queue,
    ⟨queueValue, hqueue, hqueue'⟩, wait, ⟨waitValue, hwait, hwait'⟩, rfl⟩

end Requests

/-! ## The two compared -/

/-- **The checks of both operations accept what the published schemas accept**, a publication
if it takes at most 240 seconds, up to half the distance from there to the next double; and
every field of the request, with which the call is made, is the value of its member. -/
theorem operation_input_accepted_iff_schema {platform : Platform}
    (hnames : platform.ValidatesNames) (members : Json.Members) :
    ((∃ call, platform.readCallInput members = .ok call) ↔
        serviceCallRequestSchema.Accepts members) ∧
      ((∃ request, platform.readPublish members = .ok request) ↔
        publishRequestSchema.Accepts members ∧
          ∃ duration, exactDuration members = some duration ∧ duration ≤ 240 + 1 / 2 ^ 46) ∧
      (∀ call, platform.readCallInput members = .ok call → call.Holds members ∧
        platform.readServiceCall members = .ok call.toServiceCallRequest) ∧
      ∀ request, platform.readPublish members = .ok request → request.Holds members := by
  refine ⟨⟨?_, readCallInput_of_accepts hnames⟩, ⟨?_, ?_⟩, ?_, ?_⟩
  · rintro ⟨call, h⟩
    exact (accepts_of_readCallInput hnames h).1
  · rintro ⟨request, h⟩
    obtain ⟨haccepts, hduration, -⟩ := accepts_of_readPublish hnames h
    exact ⟨haccepts, hduration⟩
  · rintro ⟨haccepts, duration, hduration, hle⟩
    exact readPublish_of_accepts hnames haccepts hduration hle
  · intro call h
    refine ⟨(accepts_of_readCallInput hnames h).2, ?_⟩
    rw [Platform.readServiceCall, h]
    rfl
  · exact fun request h => (accepts_of_readPublish hnames h).2.2

/-- A publication with its count and its rate. -/
def publication (count : Int64) (rate : Double) : Json.Members :=
  [("latch", .boolean false), ("message", .object []), ("messageType", .string "std_msgs/Empty"),
    ("publishCount", .int count), ("publishRateHz", .real rate), ("queueSize", .int 1),
    ("topic", .string "/a/b_1"), ("waitForSubscribersMs", .int 0)]

theorem operation_input_accepted_iff_schema_sample :
    ∃ request, ToolsAdapter.labPlatform.readPublish (publication 10000 (.ofInt _ 1000)) =
        .ok request ∧ request.Holds (publication 10000 (.ofInt _ 1000)) := by
  obtain ⟨request, h⟩ : ∃ request, ToolsAdapter.labPlatform.readPublish
      (publication 10000 (.ofInt _ 1000)) = .ok request := exists_eq_ok (by decide +kernel)
  have hnames : ToolsAdapter.labPlatform.ValidatesNames := fun _ _ => rfl
  obtain ⟨-, -, -, hholds⟩ := operation_input_accepted_iff_schema hnames
    (publication 10000 (.ofInt _ 1000))
  exact ⟨request, h, hholds request h⟩

/-- The double nearest to `47 / 240`, which lies below it. -/
def slowRate : Double := .ofRatio _ false (47 * 2 ^ Format.binary64.unit) 240

theorem slowRate_value_lt : slowRate.value < 47 / 240 := by
  have hlt : magnitude Format.binary64.t slowRate.mag * 240 < 47 * 2 ^ Format.binary64.unit := by
    decide +kernel
  rw [Binary.value_of_pos rfl, div_lt_div_iff₀ (by positivity) (by norm_num)]
  exact_mod_cast hlt

theorem slowRate_value_pos : 0 < slowRate.value := by
  have hpos : 0 < magnitude Format.binary64.t slowRate.mag := by decide +kernel
  rw [Binary.value_of_pos rfl]
  exact div_pos (Nat.cast_pos.mpr hpos) (by positivity)

/-- A publication that takes more than 240 seconds is accepted: the quotient is rounded down
to the bound. -/
theorem long_publication_accepted :
    (∃ request, ToolsAdapter.labPlatform.readPublish (publication 48 slowRate) = .ok request) ∧
      ∃ duration, exactDuration (publication 48 slowRate) = some duration ∧ 240 < duration := by
  have hfinite : slowRate.isFinite = true := by decide +kernel
  have hnumber : (Json.real slowRate).number = some slowRate.value := by
    rw [Json.number, hfinite, if_pos rfl]
  refine ⟨exists_eq_ok (by decide +kernel), (48 - 1) / slowRate.value, ?_, ?_⟩
  · exact exactDuration_eq rfl rfl rfl hnumber
  · rw [lt_div_iff₀ slowRate_value_pos]
    calc 240 * slowRate.value < 240 * (47 / 240) :=
          mul_lt_mul_of_pos_left slowRate_value_lt (by norm_num)
      _ = 48 - 1 := by norm_num

end Ros1Tools.Adapter
