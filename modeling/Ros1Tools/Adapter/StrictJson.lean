import Ros1Tools.Adapter.Subject
import Ros1Tools.Json.Tokens

/-!
# Strict JSON

`parseStrictJson` assigns six settings of the reader and leaves the others at their defaults.  The
settings that it assigns rule out every extension of JSON inside the value.  `failIfExtra` is not
among them, so the reader does not look at what follows the value, and `skipBom` is not either.

`strict_json_whole_input` says that exactly the texts that are read with these two settings as
well are JSON as a whole.
-/

namespace Ros1Tools.Adapter

open Lib CharReader

/-- The settings of `parseStrictJson`. -/
def strictSettings : Settings where
  collectComments := false
  allowComments := false
  allowTrailingCommas := false
  strictRoot := true
  rejectDupKeys := true
  stackLimit := 128

/-- The same settings, with the two that are missing. -/
def wholeSettings : Settings := { strictSettings with failIfExtra := true, skipBom := false }

/-- A platform that reads JSON with the settings of `parseStrictJson`. -/
def Platform.reading (platform : Platform) (reader : Reader) : Platform :=
  { platform with parse := fun text => reader.parse strictSettings text.toList }

/-- A text that is one array or object of JSON between whitespace. -/
def WholeJson (tokens : Tokens) (input : List Char) (value : Json) : Prop :=
  ∃ n lead text trail, input = lead ++ (text ++ trail) ∧ IsGap lead ∧ IsGap trail ∧
    Text tokens n text value ∧ isContainer value = true

section

variable {platform : Platform} {reader : Reader} {input description : String} {value : Json}

theorem strictSettings_strict : strictSettings.Strict := by constructor <;> rfl

theorem wholeSettings_strict : wholeSettings.Strict := by constructor <;> rfl

theorem parseStrictJson_eq_ok :
    (platform.reading reader).parseStrictJson input description = .ok value ↔
      strictSettings.Reads reader.tokens input.toList value := by
  rw [← reader.parse_eq_ok strictSettings_strict]
  unfold Platform.parseStrictJson Platform.reading
  dsimp only
  cases reader.parse strictSettings input.toList with
  | ok v => simp only [Except.ok.injEq]
  | error text => exact ⟨nofun, nofun⟩

/-- A byte order mark is no JSON. -/
theorem WholeJson.withoutBom {tokens : Tokens} {input : List Char}
    (h : WholeJson tokens input value) (settings : Settings) :
    settings.withoutBom input = input := by
  refine if_neg fun hbom => ?_
  rw [Bool.and_eq_true, List.isPrefixOf_iff_prefix] at hbom
  obtain ⟨-, rest, hinput⟩ := hbom
  obtain ⟨n, lead, text, trail, rfl, hlead, -, htext, hroot⟩ := h
  obtain ⟨c, front, rfl, hc⟩ := htext.exists_bracket hroot
  cases lead with
  | nil =>
      obtain rfl : 'ï' = c := Option.some.inj (congrArg List.head? hinput)
      exact absurd hc (by decide)
  | cons d lead =>
      obtain rfl : 'ï' = d := Option.some.inj (congrArg List.head? hinput)
      exact absurd (hlead 'ï' List.mem_cons_self) (by decide)

/-- The two settings that are missing leave the texts that are JSON as a whole. -/
theorem reads_whole_iff {tokens : Tokens} {input : List Char} :
    wholeSettings.Reads tokens input value ↔
      strictSettings.Reads tokens input value ∧ WholeJson tokens input value := by
  constructor
  · rintro ⟨lead, text, rest, hinput, hlead, htext, hroot, hrest⟩
    have hwhole : WholeJson tokens input value :=
      ⟨_, lead, text, rest, hinput, hlead, hrest rfl, htext, hroot⟩
    refine ⟨⟨lead, text, rest, ?_, hlead, htext, hroot, nofun⟩, hwhole⟩
    rw [hwhole.withoutBom]
    exact hinput
  · rintro ⟨⟨lead, text, rest, hinput, hlead, htext, hroot, -⟩, hwhole⟩
    rw [hwhole.withoutBom] at hinput
    obtain ⟨n, lead', text', trail, hinput', hlead', htrail, htext', -⟩ := hwhole
    obtain ⟨rfl, -, rfl⟩ :=
      Text.split hlead hlead' htext htext' hroot (hinput.symm.trans hinput')
    exact ⟨lead, text, rest, hinput, hlead, htext, hroot, fun _ => htrail⟩

/-- A text that is accepted has one value, with all settings. -/
theorem wholeJson_iff (h : strictSettings.Reads reader.tokens input.toList value) :
    WholeJson reader.tokens input.toList value ↔
      (reader.parse wholeSettings input.toList).isOk = true := by
  constructor
  · intro hwhole
    rw [(reader.parse_eq_ok wholeSettings_strict).mpr (reads_whole_iff.mpr ⟨h, hwhole⟩)]
    rfl
  · intro hok
    obtain ⟨found, hfound⟩ := exists_eq_ok hok
    obtain ⟨hreads, hwhole⟩ :=
      reads_whole_iff.mp ((reader.parse_eq_ok wholeSettings_strict).mp hfound)
    rwa [h.unique hreads]

/-- Nothing but whitespace can be appended to a text that is JSON as a whole. -/
theorem WholeJson.append {tokens : Tokens} {input more : List Char} {value' : Json}
    (h : WholeJson tokens input value) (h' : WholeJson tokens (input ++ more) value') :
    value' = value ∧ IsGap more := by
  obtain ⟨n, lead, text, trail, rfl, hlead, -, htext, hroot⟩ := h
  obtain ⟨n', lead', text', trail', hinput, hlead', htrail', htext', -⟩ := h'
  rw [List.append_assoc, List.append_assoc] at hinput
  obtain ⟨-, hvalue, rfl⟩ := Text.split hlead hlead' htext htext' hroot hinput
  exact ⟨hvalue.symm, (List.forall_mem_append.mp htrail').2⟩

/-- **Strict JSON is the whole input** of a text that is accepted if and only if it is also
accepted with `failIfExtra` and without `skipBom`: then it is the text of one array or object
between whitespace, and nothing but whitespace can be appended to it. -/
theorem strict_json_whole_input
    (h : (platform.reading reader).parseStrictJson input description = .ok value) :
    (WholeJson reader.tokens input.toList value ↔
        (reader.parse wholeSettings input.toList).isOk = true) ∧
      ((reader.parse wholeSettings input.toList).isOk = true → ∀ (more : String) (value' : Json),
        (platform.reading reader).parseStrictJson (input ++ more) description = .ok value' →
        (reader.parse wholeSettings (input ++ more).toList).isOk = true →
        value' = value ∧ IsGap more.toList) := by
  have hread := parseStrictJson_eq_ok.mp h
  refine ⟨wholeJson_iff hread, fun hok more value' h' hok' => ?_⟩
  have hwhole := (wholeJson_iff (parseStrictJson_eq_ok.mp h')).mpr hok'
  rw [String.toList_append] at hwhole
  exact ((wholeJson_iff hread).mpr hok).append hwhole

end

/-- An object with an array, an escape and whitespace. -/
def sampleText : String := " \x7b\"a\": [1, true],\n\"\\u0062\": null \x7d\n"

def sampleValue : Json :=
  .ofMembers [("a", .array [.int 1, .boolean true]), ("b", .null)]

theorem isGap_nil : IsGap [] := List.forall_mem_nil _

theorem isGap_blank : IsGap [' '] := List.all_eq_true.mp rfl

theorem isGap_newline : IsGap ['\n'] := List.all_eq_true.mp rfl

theorem text_sample : Text standard 128 sampleText.toList.tail.dropLast sampleValue := by
  have hone : Text standard 126 ['1'] (.int 1) := ⟨by decide, by decide, rfl, rfl⟩
  have htrue : Text standard 126 ['t', 'r', 'u', 'e'] (.boolean true) := ⟨rfl, rfl⟩
  have hitems : Items (Text standard 126) ']' "1, true]".toList [.int 1, .boolean true] :=
    .cons hone isGap_nil isGap_blank (.last htrue isGap_nil)
  have harray : Text standard 127 "[1, true]".toList (.array [.int 1, .boolean true]) :=
    ⟨_, ⟨[], _, rfl, isGap_nil, .inr hitems⟩, rfl⟩
  have hnull : Text standard 127 ['n', 'u', 'l', 'l'] .null := ⟨rfl, rfl⟩
  have ha : Member standard (Text standard 127) "\"a\": [1, true]".toList
      ("a", .array [.int 1, .boolean true]) :=
    .mk (show standard.string ['a', '"'] "a" from ⟨['a'], rfl, by decide⟩) isGap_nil isGap_blank
      harray
  have hb : Member standard (Text standard 127) "\"\\u0062\": null".toList ("b", .null) :=
    .mk (show standard.string "\\u0062\"".toList "b" from ⟨"\\u0062".toList, rfl, by decide⟩)
      isGap_nil isGap_blank hnull
  have hmembers : Items (Member standard (Text standard 127)) '}'
      "\"a\": [1, true],\n\"\\u0062\": null \x7d".toList
      [("a", .array [.int 1, .boolean true]), ("b", .null)] :=
    .cons ha isGap_nil isGap_newline (.last hb isGap_blank)
  exact ⟨_, ⟨[], _, rfl, isGap_nil, .inr hmembers⟩, by decide, rfl⟩

theorem reads_sample {settings : Settings} (hlimit : settings.stackLimit = 128) :
    settings.Reads standard sampleText.toList sampleValue := by
  have hbom : settings.withoutBom sampleText.toList = sampleText.toList :=
    if_neg fun h => absurd (Bool.and_eq_true_iff.mp h).2 (by decide)
  refine ⟨[' '], _, ['\n'], ?_, isGap_blank, hlimit ▸ text_sample, rfl, fun _ => isGap_newline⟩
  rw [hbom]
  decide

theorem strict_json_whole_input_sample :
    ∃ reader : Reader, reader.tokens = standard ∧
      (ToolsAdapter.labPlatform.reading reader).parseStrictJson sampleText "input" =
        .ok sampleValue ∧
      WholeJson standard sampleText.toList sampleValue := by
  have hparse : (ToolsAdapter.labPlatform.reading (.ofTokens standard)).parseStrictJson sampleText
      "input" = .ok sampleValue := parseStrictJson_eq_ok.mpr (reads_sample rfl)
  have hwhole : (Reader.ofTokens standard).parse wholeSettings sampleText.toList =
      .ok sampleValue :=
    ((Reader.ofTokens standard).parse_eq_ok wholeSettings_strict).mpr (reads_sample rfl)
  refine ⟨_, rfl, hparse, (strict_json_whole_input hparse).1.mpr ?_⟩
  rw [hwhole]
  rfl

/-- What follows the value is not looked at, by any reader. -/
theorem appended_bytes_ignored :
    Nonempty Reader ∧ ∀ (platform : Platform) (reader : Reader),
      (platform.reading reader).parseStrictJson "\x7b\x7d" "input" = .ok (.object []) ∧
        (platform.reading reader).parseStrictJson "\x7b\x7dx" "input" = .ok (.object []) ∧
        ¬∃ value, WholeJson reader.tokens "\x7b\x7dx".toList value := by
  refine ⟨⟨.ofTokens standard⟩, fun platform reader => ?_⟩
  have htext : Text reader.tokens 128 ['{', '}'] (.object []) :=
    ⟨[], ⟨[], ['}'], rfl, isGap_nil, .inl ⟨rfl, rfl⟩⟩, List.nodup_nil, rfl⟩
  refine ⟨parseStrictJson_eq_ok.mpr ⟨[], _, [], rfl, isGap_nil, htext, rfl, nofun⟩,
    parseStrictJson_eq_ok.mpr ⟨[], _, ['x'], rfl, isGap_nil, htext, rfl, nofun⟩, ?_⟩
  rintro ⟨value, n, lead, text, trail, hinput, hlead, htrail, htext', -⟩
  obtain ⟨-, -, rfl⟩ := Text.split isGap_nil hlead htext htext' rfl
    (show [] ++ (['{', '}'] ++ ['x']) = _ from hinput)
  exact absurd (htrail 'x' List.mem_cons_self) (by decide)

/-- Nor is a byte order mark in front. -/
example (platform : Platform) (reader : Reader) :
    (platform.reading reader).parseStrictJson "ï»¿\x7b\x7d" "input" = .ok (.object []) :=
  parseStrictJson_eq_ok.mpr ⟨[], ['{', '}'], [], rfl, isGap_nil,
    ⟨[], ⟨[], ['}'], rfl, isGap_nil, .inl ⟨rfl, rfl⟩⟩, List.nodup_nil, rfl⟩, rfl, nofun⟩

end Ros1Tools.Adapter
