import Ros1Tools.Json

/-!
# The JSON reader

`Json::CharReaderBuilder` has settings, of which a caller assigns some.  The reader that it builds
belongs to the library and is left open: a `Reader` is any reader that does what the settings are
documented to do, as far as they allow no extension of JSON.  What the tokens of strings and
numbers are is left open as well.

`Text` is the grammar of JSON.  It is unambiguous, so a text has one first value (`Text.split`).
-/

namespace Ros1Tools.CharReader

/-! ## Settings -/

/-- The settings of `Json::CharReaderBuilder`, with their defaults. -/
structure Settings where
  collectComments : Bool := true
  allowComments : Bool := true
  allowTrailingCommas : Bool := true
  strictRoot : Bool := false
  allowDroppedNullPlaceholders : Bool := false
  allowNumericKeys : Bool := false
  allowSingleQuotes : Bool := false
  stackLimit : Nat := 1000
  failIfExtra : Bool := false
  rejectDupKeys : Bool := false
  allowSpecialFloats : Bool := false
  skipBom : Bool := true

/-- Settings that allow no extension of JSON, for an array or an object. -/
structure Settings.Strict (settings : Settings) : Prop where
  allowComments : settings.allowComments = false
  allowTrailingCommas : settings.allowTrailingCommas = false
  strictRoot : settings.strictRoot = true
  allowDroppedNullPlaceholders : settings.allowDroppedNullPlaceholders = false
  allowNumericKeys : settings.allowNumericKeys = false
  allowSingleQuotes : settings.allowSingleQuotes = false
  rejectDupKeys : settings.rejectDupKeys = true
  allowSpecialFloats : settings.allowSpecialFloats = false

/-! ## Tokens -/

/-- The whitespace of JSON. -/
def isSpace (c : Char) : Bool := c == ' ' || c == '\t' || c == '\n' || c == '\r'

/-- Whitespace. -/
def IsGap (gap : List Char) : Prop := ∀ c ∈ gap, isSpace c = true

def isNumberCharacter (c : Char) : Bool := c.isDigit || ['-', '+', '.', 'e', 'E'].contains c

def isContainer : Json → Bool
  | .array _ | .object _ => true
  | _ => false

/-- The tokens of strings, each behind its opening quote and with its closing one, and of
numbers. -/
structure Tokens where
  string : List Char → String → Prop
  number : List Char → Json → Prop
  string_agree : ∀ {token token' rest rest' : List Char} {text text' : String},
    string token text → string token' text' → token ++ rest = token' ++ rest' →
      token = token' ∧ text = text'
  number_unique : ∀ {token : List Char} {value value' : Json},
    number token value → number token value' → value = value'
  number_characters : ∀ {token : List Char} {value : Json}, number token value →
    ∀ c ∈ token, isNumberCharacter c = true
  number_head : ∀ {token : List Char} {value : Json}, number token value →
    token.head?.any (fun c => c.isDigit || c == '-') = true
  number_scalar : ∀ {token : List Char} {value : Json}, number token value →
    isContainer value = false

/-! ## The grammar -/

section Grammar

variable {α : Type}

/-- Items with commas between them, up to the closing bracket. -/
inductive Items (Item : List Char → α → Prop) (close : Char) : List Char → List α → Prop
  | last {text gap : List Char} {a : α} (hitem : Item text a) (hgap : IsGap gap) :
      Items Item close (text ++ (gap ++ [close])) [a]
  | cons {text gap gap' rest : List Char} {a : α} {as : List α} (hitem : Item text a)
      (hgap : IsGap gap) (hgap' : IsGap gap') (hrest : Items Item close rest as) :
      Items Item close (text ++ (gap ++ ',' :: (gap' ++ rest))) (a :: as)

/-- No or some items in brackets, from the opening one on. -/
def Bracketed (Item : List Char → α → Prop) (close : Char) (text : List Char) (as : List α) :
    Prop :=
  ∃ gap body, text = gap ++ body ∧ IsGap gap ∧
    (body = [close] ∧ as = [] ∨ Items Item close body as)

variable (tokens : Tokens) (Value : List Char → Json → Prop)

/-- A member: a name, a colon and a value. -/
inductive Member : List Char → String × Json → Prop
  | mk {token gap gap' text : List Char} {name : String} {value : Json}
      (hname : tokens.string token name) (hgap : IsGap gap) (hgap' : IsGap gap')
      (hvalue : Value text value) :
      Member ('"' :: (token ++ (gap ++ ':' :: (gap' ++ text)))) (name, value)

/-- A value, told by its first character, given the texts of the values in it.  There are no
comments, a comma stands between two items, and the names of an object are distinct. -/
def Layer : List Char → Json → Prop
  | '"' :: token, value => ∃ text, tokens.string token text ∧ value = .string text
  | '[' :: rest, value => ∃ items, Bracketed Value ']' rest items ∧ value = .array items
  | '{' :: rest, value => ∃ members, Bracketed (Member tokens Value) '}' rest members ∧
      (members.map Prod.fst).Nodup ∧ value = .ofMembers members
  | 'n' :: rest, value => rest = ['u', 'l', 'l'] ∧ value = .null
  | 't' :: rest, value => rest = ['r', 'u', 'e'] ∧ value = .boolean true
  | 'f' :: rest, value => rest = ['a', 'l', 's', 'e'] ∧ value = .boolean false
  | token, value => tokens.number token value

/-- The texts of JSON and the values they denote, with values nested so deep at most. -/
def Text : Nat → List Char → Json → Prop
  | 0 => fun _ _ => False
  | n + 1 => Layer tokens (Text n)

end Grammar

/-- The byte order mark of UTF-8, one character a byte. -/
def bom : List Char := ['ï', '»', '¿']

/-- The text without a byte order mark that is skipped. -/
def Settings.withoutBom (settings : Settings) (input : List Char) : List Char :=
  if settings.skipBom && bom.isPrefixOf input then input.drop 3 else input

/-- What the settings are documented to read: the first value after whitespace, and behind it
anything, or nothing but whitespace if `failIfExtra` is set. -/
def Settings.Reads (settings : Settings) (tokens : Tokens) (input : List Char) (value : Json) :
    Prop :=
  ∃ lead text rest, settings.withoutBom input = lead ++ (text ++ rest) ∧ IsGap lead ∧
    Text tokens settings.stackLimit text value ∧ isContainer value = true ∧
    (settings.failIfExtra = true → IsGap rest)

/-- `Json::CharReader`.  An error comes with its description. -/
structure Reader where
  tokens : Tokens
  parse : Settings → List Char → Except String Json
  parse_eq_ok : ∀ {settings : Settings}, settings.Strict → ∀ {input : List Char} {value : Json},
    parse settings input = .ok value ↔ settings.Reads tokens input value

/-! ## One first value -/

/-- No number goes on. -/
def Ends (rest : List Char) : Prop := ∀ c, rest.head? = some c → isNumberCharacter c = false

/-- Two texts of which one begins the other are the same. -/
def Agree {α : Type} (V V' : List Char → α → Prop) : Prop :=
  ∀ ⦃text text' rest rest' : List Char⦄ ⦃a a' : α⦄, V text a → V' text' a' → Ends rest →
    Ends rest' → text ++ rest = text' ++ rest' → text = text' ∧ a = a'

/-- No text begins with whitespace or closes a bracket. -/
def Starts {α : Type} (V : List Char → α → Prop) : Prop :=
  ∀ ⦃text : List Char⦄ ⦃a : α⦄, V text a →
    ∃ c rest, text = c :: rest ∧ isSpace c = false ∧ c ≠ ']' ∧ c ≠ '}'

section Gaps

variable {gap gap' rest rest' : List Char} {c c' : Char}

theorem gap_cons_inj (h : IsGap gap) (h' : IsGap gap') (hc : isSpace c = false)
    (hc' : isSpace c' = false) (heq : gap ++ c :: rest = gap' ++ c' :: rest') :
    gap = gap' ∧ c = c' ∧ rest = rest' := by
  induction gap generalizing gap' with
  | nil =>
      cases gap' with
      | nil =>
          cases heq
          exact ⟨rfl, rfl, rfl⟩
      | cons d gap' =>
          cases heq
          exact absurd (h' c List.mem_cons_self) (by simp [hc])
  | cons d gap ih =>
      obtain ⟨hd, h⟩ := List.forall_mem_cons.mp h
      cases gap' with
      | nil =>
          cases heq
          exact absurd hd (by simp [hc'])
      | cons d' gap' =>
          rw [List.cons_append, List.cons_append, List.cons.injEq] at heq
          obtain ⟨rfl, heq⟩ := heq
          obtain ⟨rfl, hrest⟩ := ih h (List.forall_mem_cons.mp h').2 heq
          exact ⟨rfl, hrest⟩

theorem isNumberCharacter_of_isSpace (h : isSpace c = true) : isNumberCharacter c = false := by
  simp only [isSpace, Bool.or_eq_true, beq_iff_eq] at h
  rcases h with ((rfl | rfl) | rfl) | rfl <;> decide

theorem ends_gap (h : IsGap gap) (hc : isNumberCharacter c = false) : Ends (gap ++ c :: rest) := by
  intro d hd
  cases gap with
  | nil =>
      cases hd
      exact hc
  | cons e gap =>
      cases hd
      exact isNumberCharacter_of_isSpace (h d List.mem_cons_self)

end Gaps

section Agreement

variable {α : Type} {V V' : List Char → α → Prop} {close : Char}

theorem Starts.items (h : Starts V) : Starts (Items V close) := by
  rintro _ _ (⟨hitem, -⟩ | ⟨hitem, -, -, -⟩)
  all_goals
    obtain ⟨c, rest, rfl, hc⟩ := h hitem
    exact ⟨c, _, rfl, hc⟩

variable {text text' rest rest' : List Char} {as as' : List α}

/-- What follows an item tells whether it is the last one. -/
theorem Items.agree (hV : Agree V V') (hstarts : Starts V) (hstarts' : Starts V')
    (hclose : close = ']' ∨ close = '}') (h : Items V close text as) (h' : Items V' close text' as')
    (heq : text ++ rest = text' ++ rest') : text = text' ∧ as = as' := by
  have hbracket : isSpace close = false ∧ isNumberCharacter close = false ∧ close ≠ ',' := by
    rcases hclose with rfl | rfl <;> decide
  obtain ⟨hspace, hnumber, hcomma⟩ := hbracket
  induction h generalizing text' as' with
  | last hitem hgap =>
      cases h' with
      | last hitem' hgap' =>
          simp only [List.append_assoc, List.singleton_append] at heq
          obtain ⟨rfl, rfl⟩ := hV hitem hitem' (ends_gap hgap hnumber) (ends_gap hgap' hnumber) heq
          obtain ⟨rfl, -, -⟩ := gap_cons_inj hgap hgap' hspace hspace (List.append_cancel_left heq)
          exact ⟨rfl, rfl⟩
      | cons hitem' hgap' =>
          simp only [List.append_assoc, List.cons_append, List.nil_append] at heq
          obtain ⟨rfl, rfl⟩ := hV hitem hitem' (ends_gap hgap hnumber)
            (ends_gap hgap' (by decide)) heq
          exact absurd
            (gap_cons_inj hgap hgap' hspace (by decide) (List.append_cancel_left heq)).2.1
            hcomma
  | cons hitem hgap hnext hrest ih =>
      cases h' with
      | last hitem' hgap' =>
          simp only [List.append_assoc, List.cons_append, List.nil_append] at heq
          obtain ⟨rfl, rfl⟩ := hV hitem hitem' (ends_gap hgap (by decide))
            (ends_gap hgap' hnumber) heq
          exact absurd (gap_cons_inj hgap hgap' (by decide) hspace
            (List.append_cancel_left heq)).2.1.symm hcomma
      | cons hitem' hgap' hnext' hrest' =>
          simp only [List.append_assoc, List.cons_append] at heq
          obtain ⟨rfl, rfl⟩ := hV hitem hitem' (ends_gap hgap (by decide))
            (ends_gap hgap' (by decide)) heq
          obtain ⟨rfl, -, heq⟩ := gap_cons_inj hgap hgap' (by decide) (by decide)
            (List.append_cancel_left heq)
          obtain ⟨c, body, rfl, hc, -⟩ := hstarts.items hrest
          obtain ⟨c', body', rfl, hc', -⟩ := hstarts'.items hrest'
          obtain ⟨rfl, rfl, hbody⟩ := gap_cons_inj hnext hnext' hc hc' heq
          obtain ⟨hbodies, rfl⟩ := ih hrest' (congrArg (c :: ·) hbody)
          rw [hbodies]
          exact ⟨rfl, rfl⟩

theorem Bracketed.agree (hV : Agree V V') (hstarts : Starts V) (hstarts' : Starts V')
    (hclose : close = ']' ∨ close = '}') (h : Bracketed V close text as)
    (h' : Bracketed V' close text' as') (heq : text ++ rest = text' ++ rest') :
    text = text' ∧ as = as' := by
  have hbracket : isSpace close = false := by rcases hclose with rfl | rfl <;> decide
  obtain ⟨gap, body, rfl, hgap, h⟩ := h
  obtain ⟨gap', body', rfl, hgap', h'⟩ := h'
  have hopen : ∀ {W : List Char → α → Prop} {c : Char} {body : List Char} {as : List α},
      Starts W → Items W close (c :: body) as → isSpace c = false ∧ c ≠ close := by
    intro W c body as hW hitems
    obtain ⟨d, _, heq, hd⟩ := hW.items hitems
    cases heq
    rcases hclose with rfl | rfl
    · exact ⟨hd.1, hd.2.1⟩
    · exact ⟨hd.1, hd.2.2⟩
  rw [List.append_assoc, List.append_assoc] at heq
  rcases h with ⟨rfl, rfl⟩ | h
  · rcases h' with ⟨rfl, rfl⟩ | h'
    · obtain ⟨rfl, -, -⟩ := gap_cons_inj hgap hgap' hbracket hbracket heq
      exact ⟨rfl, rfl⟩
    · obtain ⟨c', body', rfl, -⟩ := hstarts'.items h'
      obtain ⟨hspace, hne⟩ := hopen hstarts' h'
      exact absurd (gap_cons_inj hgap hgap' hbracket hspace heq).2.1.symm hne
  · obtain ⟨c, body, rfl, -⟩ := hstarts.items h
    obtain ⟨hspace, hne⟩ := hopen hstarts h
    rcases h' with ⟨rfl, rfl⟩ | h'
    · exact absurd (gap_cons_inj hgap hgap' hspace hbracket heq).2.1 hne
    · obtain ⟨c', body', rfl, -⟩ := hstarts'.items h'
      obtain ⟨rfl, rfl, hbody⟩ := gap_cons_inj hgap hgap' hspace (hopen hstarts' h').1 heq
      obtain ⟨hbodies, rfl⟩ := Items.agree hV hstarts hstarts' hclose h h' (congrArg (c :: ·) hbody)
      rw [hbodies]
      exact ⟨rfl, rfl⟩

end Agreement

section Values

variable {tokens : Tokens} {V V' : List Char → Json → Prop}

theorem starts_member : Starts (Member tokens V) := by
  rintro _ _ ⟨-, -, -, -⟩
  exact ⟨'"', _, rfl, by decide⟩

theorem Agree.member (hV : Agree V V') (hstarts : Starts V) (hstarts' : Starts V') :
    Agree (Member tokens V) (Member tokens V') := by
  rintro _ _ rest rest' _ _ ⟨hname, hgap, hnext, hvalue⟩ ⟨hname', hgap', hnext', hvalue'⟩ hends
    hends' heq
  simp only [List.cons_append, List.append_assoc, List.cons.injEq, true_and] at heq
  obtain ⟨rfl, rfl⟩ := tokens.string_agree hname hname' heq
  obtain ⟨rfl, -, heq⟩ := gap_cons_inj hgap hgap' (by decide) (by decide)
    (List.append_cancel_left heq)
  obtain ⟨c, text, rfl, hc, -⟩ := hstarts hvalue
  obtain ⟨c', text', rfl, hc', -⟩ := hstarts' hvalue'
  obtain ⟨rfl, rfl, htext⟩ := gap_cons_inj hnext hnext' hc hc' heq
  obtain ⟨htexts, rfl⟩ := hV hvalue hvalue' hends hends' (congrArg (c :: ·) htext)
  rw [htexts]
  exact ⟨rfl, rfl⟩

/-- A number ends where no character of a number follows. -/
theorem number_agree {token token' rest rest' : List Char} {value value' : Json}
    (h : tokens.number token value) (h' : tokens.number token' value') (hends : Ends rest)
    (hends' : Ends rest') (heq : token ++ rest = token' ++ rest') :
    token = token' ∧ value = value' := by
  have htake : ∀ {token rest : List Char} {value : Json}, tokens.number token value → Ends rest →
      (token ++ rest).takeWhile isNumberCharacter = token := by
    intro token rest value h hends
    rw [List.takeWhile_append_of_pos (tokens.number_characters h)]
    cases rest with
    | nil => simp
    | cons c rest => rw [List.takeWhile_cons_of_neg (by simp [hends c rfl]), List.append_nil]
  have htoken : token = token' := by rw [← htake h hends, heq, htake h' hends']
  subst htoken
  exact ⟨rfl, tokens.number_unique h h'⟩

theorem starts_layer : Starts (Layer tokens V) := by
  intro text a h
  unfold Layer at h
  split at h
  case h_7 =>
    have hhead := tokens.number_head h
    obtain ⟨c, hc, hstart⟩ := (Option.any_eq_true _ _).mp hhead
    obtain ⟨rest, rfl⟩ := List.head?_eq_some_iff.mp hc
    refine ⟨c, rest, rfl, ?_, ?_, ?_⟩
    · by_contra hspace
      rw [Bool.not_eq_false] at hspace
      simp only [isSpace, Bool.or_eq_true, beq_iff_eq] at hspace
      rcases hspace with ((rfl | rfl) | rfl) | rfl <;> exact absurd hstart (by decide)
    · rintro rfl
      exact absurd hstart (by decide)
    · rintro rfl
      exact absurd hstart (by decide)
  all_goals exact ⟨_, _, rfl, by decide⟩

theorem starts_text : ∀ n, Starts (Text tokens n)
  | 0 => fun _ _ h => h.elim
  | _ + 1 => starts_layer

/-- A digit or a minus sign begins a number. -/
theorem layer_number {c : Char} {rest : List Char} {a : Json}
    (hc : (c.isDigit || c == '-') = true) (h : Layer tokens V (c :: rest) a) :
    tokens.number (c :: rest) a := by
  unfold Layer at h
  split at h
  case h_7 => exact h
  all_goals
    rename_i hfront
    cases hfront
    exact absurd hc (by decide)

/-- The first character tells what is read; a bracket is closed whatever follows. -/
theorem Layer.agree (hV : Agree V V') (hstarts : Starts V) (hstarts' : Starts V')
    {text text' rest rest' : List Char} {a a' : Json} (h : Layer tokens V text a)
    (h' : Layer tokens V' text' a') (hends : isContainer a = true ∨ Ends rest ∧ Ends rest')
    (heq : text ++ rest = text' ++ rest') : text = text' ∧ a = a' := by
  obtain ⟨c, front, rfl, -⟩ := starts_layer h
  obtain ⟨c', front', rfl, -⟩ := starts_layer h'
  have hcons := heq
  rw [List.cons_append, List.cons_append, List.cons.injEq] at hcons
  obtain ⟨rfl, hfronts⟩ := hcons
  unfold Layer at h
  split at h
  case h_1 hfront =>
    cases hfront
    obtain ⟨text, htext, rfl⟩ := h
    obtain ⟨text', htext', rfl⟩ := h'
    obtain ⟨rfl, rfl⟩ := tokens.string_agree htext htext' hfronts
    exact ⟨rfl, rfl⟩
  case h_2 hfront =>
    cases hfront
    obtain ⟨items, hitems, rfl⟩ := h
    obtain ⟨items', hitems', rfl⟩ := h'
    obtain ⟨rfl, rfl⟩ := hitems.agree hV hstarts hstarts' (.inl rfl) hitems' hfronts
    exact ⟨rfl, rfl⟩
  case h_3 hfront =>
    cases hfront
    obtain ⟨members, hmembers, -, rfl⟩ := h
    obtain ⟨members', hmembers', -, rfl⟩ := h'
    obtain ⟨rfl, rfl⟩ := hmembers.agree (hV.member hstarts hstarts') starts_member starts_member
      (.inr rfl) hmembers' hfronts
    exact ⟨rfl, rfl⟩
  case h_7 =>
    obtain ⟨hrest, hrest'⟩ := hends.resolve_left (by simp [tokens.number_scalar h])
    exact number_agree h (layer_number (tokens.number_head h) h') hrest hrest' heq
  all_goals
    rename_i hfront
    cases hfront
    obtain ⟨rfl, rfl⟩ := h
    obtain ⟨rfl, rfl⟩ := h'
    exact ⟨rfl, rfl⟩

/-- **The grammar is unambiguous.** -/
theorem Text.agree : ∀ n m, Agree (Text tokens n) (Text tokens m)
  | 0, _ => fun _ _ _ _ _ _ h => h.elim
  | _ + 1, 0 => fun _ _ _ _ _ _ _ h => h.elim
  | n + 1, m + 1 => fun _ _ _ _ _ _ h h' hrest hrest' =>
      Layer.agree (Text.agree n m) (starts_text n) (starts_text m) h h' (.inr ⟨hrest, hrest'⟩)

/-- A text has one first value. -/
theorem Text.split {n m : Nat} {lead lead' text text' rest rest' : List Char} {a a' : Json}
    (hlead : IsGap lead) (hlead' : IsGap lead') (h : Text tokens n text a)
    (h' : Text tokens m text' a') (ha : isContainer a = true)
    (heq : lead ++ (text ++ rest) = lead' ++ (text' ++ rest')) :
    text = text' ∧ a = a' ∧ rest = rest' := by
  obtain ⟨c, front, rfl, hc, -⟩ := starts_text n h
  obtain ⟨c', front', rfl, hc', -⟩ := starts_text m h'
  obtain ⟨-, rfl, hfront⟩ := gap_cons_inj hlead hlead' hc hc' heq
  cases n with
  | zero => exact h.elim
  | succ n =>
      cases m with
      | zero => exact h'.elim
      | succ m =>
          obtain ⟨htext, hvalue⟩ := Layer.agree (Text.agree n m) (starts_text n) (starts_text m) h
            h' (.inl ha) (congrArg (c :: ·) hfront)
          rw [List.cons.injEq] at htext
          obtain ⟨-, rfl⟩ := htext
          exact ⟨rfl, hvalue, List.append_cancel_left hfront⟩

theorem Settings.Reads.unique {settings : Settings} {input : List Char} {a a' : Json}
    (h : settings.Reads tokens input a) (h' : settings.Reads tokens input a') : a = a' := by
  obtain ⟨lead, text, rest, hinput, hlead, htext, ha, -⟩ := h
  obtain ⟨lead', text', rest', hinput', hlead', htext', -⟩ := h'
  exact (Text.split hlead hlead' htext htext' ha (hinput.symm.trans hinput')).2.1

/-- An array or an object is told by its bracket. -/
theorem Text.exists_bracket {n : Nat} {text : List Char} {a : Json} (h : Text tokens n text a)
    (ha : isContainer a = true) : ∃ c rest, text = c :: rest ∧ (c = '[' ∨ c = '{') := by
  cases n with
  | zero => exact h.elim
  | succ n =>
      change Layer tokens (Text tokens n) text a at h
      unfold Layer at h
      split at h
      case h_1 =>
        obtain ⟨_, -, rfl⟩ := h
        cases ha
      case h_2 => exact ⟨_, _, rfl, .inl rfl⟩
      case h_3 => exact ⟨_, _, rfl, .inr rfl⟩
      case h_7 => exact absurd ha (by simp [tokens.number_scalar h])
      all_goals
        rw [h.2] at ha
        cases ha

end Values

open Classical in
/-- There are such readers. -/
noncomputable def Reader.ofTokens (tokens : Tokens) : Reader where
  tokens := tokens
  parse settings input :=
    if h : ∃ value, settings.Reads tokens input value then .ok h.choose
    else .error "Syntax error"
  parse_eq_ok := by
    intro settings _ input value
    by_cases h : ∃ value, settings.Reads tokens input value
    · rw [dif_pos h, Except.ok.injEq]
      exact ⟨fun heq => heq ▸ h.choose_spec, fun hvalue => h.choose_spec.unique hvalue⟩
    · rw [dif_neg h]
      exact ⟨nofun, fun hvalue => absurd ⟨value, hvalue⟩ h⟩

end Ros1Tools.CharReader
