import Ros1Tools.Lib.Rounding
import Ros1Tools.Json.Reader

/-!
# The tokens of JSON

The strings and numbers of JSON: a string has no control characters, its escapes are the ones of
the standard and its surrogates come in pairs; a number has no leading zeros and digits on both
sides of its point.
-/

namespace Ros1Tools.CharReader

open Lib

/-! ## Strings -/

/-- The characters up to the closing quote, and what follows it; after a backslash a quote does
not close. -/
def stringBody : Bool → List Char → Option (List Char × List Char)
  | _, [] => none
  | true, c :: rest => (stringBody false rest).map fun body => (c :: body.1, body.2)
  | false, c :: rest =>
      if c = '"' then some ([], rest)
      else if c < ' ' then none
      else (stringBody (c == '\\') rest).map fun body => (c :: body.1, body.2)

def hexDigit (c : Char) : Option Nat :=
  if c.isDigit then some (c.toNat - 48)
  else if 'a' ≤ c ∧ c ≤ 'f' then some (c.toNat - 87)
  else if 'A' ≤ c ∧ c ≤ 'F' then some (c.toNat - 55)
  else none

/-- The character that a backslash and a letter stand for. -/
def escapes : List (Char × Char) :=
  [('"', '"'), ('\\', '\\'), ('/', '/'), ('b', '\x08'), ('f', '\x0c'), ('n', '\n'), ('r', '\r'),
    ('t', '\t')]

/-- A code point in UTF-8, one character a byte. -/
def utf8 (n : Nat) : List Char :=
  let bytes :=
    if n < 0x80 then [n]
    else if n < 0x800 then [0xc0 + n / 64, 0x80 + n % 64]
    else if n < 0x10000 then [0xe0 + n / 4096, 0x80 + n / 64 % 64, 0x80 + n % 64]
    else [0xf0 + n / 262144, 0x80 + n / 4096 % 64, 0x80 + n / 64 % 64, 0x80 + n % 64]
  bytes.map Char.ofNat

/-- The text of a string without its escapes; the high surrogate before the next escape, if
there is one, is kept. -/
def unescape : Option Nat → List Char → Option (List Char)
  | none, [] => some []
  | some _, [] => none
  | high, '\\' :: 'u' :: a :: b :: c :: d :: rest => do
      let digits ← [a, b, c, d].mapM hexDigit
      let unit := digits.foldl (fun n digit => 16 * n + digit) 0
      match high with
      | some high =>
          if 0xdc00 ≤ unit ∧ unit < 0xe000 then do
            let text ← unescape none rest
            return utf8 (0x10000 + 1024 * (high - 0xd800) + (unit - 0xdc00)) ++ text
          else none
      | none =>
          if 0xd800 ≤ unit ∧ unit < 0xdc00 then unescape (some unit) rest
          else if 0xdc00 ≤ unit ∧ unit < 0xe000 then none
          else do
            let text ← unescape none rest
            return utf8 unit ++ text
  | none, '\\' :: letter :: rest => do
      let c ← escapes.lookup letter
      let text ← unescape none rest
      return c :: text
  | none, c :: rest => do
      let text ← unescape none rest
      return c :: text
  | some _, _ :: _ => none

/-! ## Numbers -/

/-- An integer, in the first variant that can hold it. -/
def ofInteger (n : Int) : Json :=
  if -2 ^ 63 ≤ n ∧ n < 2 ^ 63 then .int (.ofInt n)
  else if 0 ≤ n ∧ n < 2 ^ 64 then .uint (.ofNat n.toNat)
  else .real (.ofInt _ n)

/-- The double nearest to `digits * 10 ^ exponent`. -/
def ofScientific (negative : Bool) (digits : Nat) (exponent : Int) : Json :=
  if 0 ≤ exponent then
    .real (.ofRatio _ negative (digits * 10 ^ exponent.toNat * 2 ^ Format.binary64.unit) 1)
  else
    .real (.ofRatio _ negative (digits * 2 ^ Format.binary64.unit) (10 ^ exponent.natAbs))

/-- The digits behind a point, and what follows them. -/
def fraction : List Char → Option (List Char × List Char)
  | '.' :: rest =>
      if rest.takeWhile Char.isDigit = [] then none
      else some (rest.takeWhile Char.isDigit, rest.dropWhile Char.isDigit)
  | rest => some ([], rest)

def natural (digits : List Char) : Option Nat :=
  if digits ≠ [] ∧ digits.all Char.isDigit then some (Nat.ofDigitChars 10 digits 0) else none

/-- The exponent behind its letter. -/
def exponentOf : List Char → Option Int
  | '-' :: digits => (natural digits).map fun n => -n
  | '+' :: digits => (natural digits).map fun n => n
  | digits => (natural digits).map fun n => n

/-- The number that a text is. -/
def numeral (text : List Char) : Option Json := do
  let negative := text.head? == some '-'
  let unsigned := if negative then text.tail else text
  let whole := unsigned.takeWhile Char.isDigit
  if whole = [] ∨ 1 < whole.length ∧ whole.head? = some '0' then none
  else do
    let (decimals, rest) ← fraction (unsigned.dropWhile Char.isDigit)
    let digits := Nat.ofDigitChars 10 (whole ++ decimals) 0
    match rest with
    | [] =>
        if decimals = [] then return ofInteger (if negative then -digits else digits)
        else return ofScientific negative digits (0 - decimals.length)
    | e :: rest =>
        if e = 'e' ∨ e = 'E' then do
          let exponent ← exponentOf rest
          return ofScientific negative digits (exponent - decimals.length)
        else none

example : numeral "-12.5e1".toList = some (ofScientific true 125 0) := by rfl

example : (numeral "012".toList).isNone = true := by rfl

/-! ## Where tokens end -/

/-- A string that is closed stays so, whatever follows. -/
theorem stringBody_append {escaped : Bool} {token body : List Char}
    (h : stringBody escaped token = some (body, [])) (rest : List Char) :
    stringBody escaped (token ++ rest) = some (body, rest) := by
  induction token generalizing escaped body with
  | nil => cases escaped <;> cases h
  | cons c token ih =>
      have hstep : ∀ escaped,
          (stringBody escaped token).map (fun found => (c :: found.1, found.2)) = some (body, []) →
          (stringBody escaped (token ++ rest)).map (fun found => (c :: found.1, found.2)) =
            some (body, rest) := by
        intro escaped h
        obtain ⟨⟨front, _⟩, hfront, ⟨⟩⟩ := Option.map_eq_some_iff.mp h
        rw [ih hfront]
        rfl
      cases escaped with
      | true => exact hstep false h
      | false =>
          rw [List.cons_append]
          unfold stringBody at h ⊢
          split
          next hquote =>
            rw [if_pos hquote] at h
            cases h
            rfl
          next hquote =>
            rw [if_neg hquote] at h
            split
            next hcontrol =>
              rw [if_pos hcontrol] at h
              cases h
            next hcontrol =>
              rw [if_neg hcontrol] at h
              exact hstep _ h

/-- The tokens of JSON. -/
def standard : Tokens where
  string token text := ∃ body, stringBody false token = some (body, []) ∧
    (unescape none body).map String.ofList = some text
  number token value := token.all isNumberCharacter = true ∧
    token.head?.any (fun c => c.isDigit || c == '-') = true ∧ isContainer value = false ∧
    numeral token = some value
  string_agree := by
    rintro token token' rest rest' text text' ⟨body, hbody, htext⟩ ⟨body', hbody', htext'⟩ heq
    have hbodies := (stringBody_append hbody rest).symm.trans
      (heq ▸ stringBody_append hbody' rest')
    cases hbodies
    exact ⟨List.append_cancel_right heq, Option.some.inj (htext.symm.trans htext')⟩
  number_unique h h' := Option.some.inj (h.2.2.2.symm.trans h'.2.2.2)
  number_characters h := List.all_eq_true.mp h.1
  number_head h := h.2.1
  number_scalar h := h.2.2.1

end Ros1Tools.CharReader
