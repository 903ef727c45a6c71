import Mathlib.Data.List.Basic
import Mathlib.Data.List.Forall2
import Mathlib.Logic.Relation

/-!
# Regular expressions that are assembled as text

`Match` is the meaning of an expression with anchors and negative lookahead, `parse`
reads the text of one, and `escape` is `re.escape`.

Text that a program puts together out of pieces is read piece by piece: `Reads cs items`
says that the characters `cs` append `items` to the branch being read, wherever they
stand.  The rules for `Reads` follow the ways in which text is put together, so that the
expression a text denotes is found without running the parser on it.
-/

namespace Ros1Tools.Lib

/-- Regular expressions.  `any` is `.`, `bos` is `^`, `eos` is `$` and `notAhead` is
`(?!...)`. -/
inductive Regex where
  | fail
  | empty
  | char (c : Char)
  | any
  | bos
  | eos
  | seq (r q : Regex)
  | alt (r q : Regex)
  | star (r : Regex)
  | opt (r : Regex)
  | notAhead (r : Regex)
deriving DecidableEq, Repr

namespace Regex

/-! ## Meaning

A position in a text is the rest of the text from there on. -/

/-- A match that starts at the position `s` of `whole` can end at the position `t`. -/
def Match (whole : List Char) : Regex → List Char → List Char → Prop
  | fail, _, _ => False
  | empty, s, t => s = t
  | char c, s, t => s = c :: t
  | any, s, t => ∃ c, c ≠ '\n' ∧ s = c :: t
  | bos, s, t => s = t ∧ s = whole
  -- without `re.MULTILINE` the dollar also matches before a newline that ends the text
  | eos, s, t => s = t ∧ (s = [] ∨ s = ['\n'])
  | seq r q, s, t => ∃ m, Match whole r s m ∧ Match whole q m t
  | alt r q, s, t => Match whole r s t ∨ Match whole q s t
  | star r, s, t => Relation.ReflTransGen (Match whole r) s t
  | opt r, s, t => s = t ∨ Match whole r s t
  | notAhead r, s, t => s = t ∧ ¬∃ m, Match whole r s m

/-- `re.fullmatch` finds a match. -/
def FullMatch (r : Regex) (text : List Char) : Prop := Match text r text []

def seqOf (rs : List Regex) : Regex := rs.foldr seq empty

def altOf (rs : List Regex) : Regex := rs.foldr alt fail

/-- The expression that only matches the characters themselves. -/
def literal (cs : List Char) : Regex := seqOf (cs.map char)

section Meaning

variable {whole s t : List Char}

theorem match_seqOf_cons {r : Regex} {rs : List Regex} :
    Match whole (seqOf (r :: rs)) s t ↔ ∃ m, Match whole r s m ∧ Match whole (seqOf rs) m t :=
  Iff.rfl

theorem match_seqOf_nil : Match whole (seqOf []) s t ↔ s = t := Iff.rfl

theorem match_seqOf_append {rs qs : List Regex} :
    Match whole (seqOf (rs ++ qs)) s t ↔
      ∃ m, Match whole (seqOf rs) s m ∧ Match whole (seqOf qs) m t := by
  induction rs generalizing s with
  | nil =>
      constructor
      · intro h
        exact ⟨s, rfl, h⟩
      · rintro ⟨_, rfl, h⟩
        exact h
  | cons r rs ih =>
      constructor
      · rintro ⟨m, hr, h⟩
        obtain ⟨m', hrs, hqs⟩ := ih.mp h
        exact ⟨m', ⟨m, hr, hrs⟩, hqs⟩
      · rintro ⟨m', ⟨m, hr, hrs⟩, hqs⟩
        exact ⟨m, hr, ih.mpr ⟨m', hrs, hqs⟩⟩

theorem match_altOf {rs : List Regex} :
    Match whole (altOf rs) s t ↔ ∃ r ∈ rs, Match whole r s t := by
  induction rs with
  | nil => simp [altOf, Match]
  | cons r rs ih =>
      rw [List.exists_mem_cons_iff, ← ih]
      rfl

theorem match_altOf_append {rs qs : List Regex} :
    Match whole (altOf (rs ++ qs)) s t ↔
      Match whole (altOf rs) s t ∨ Match whole (altOf qs) s t := by
  simp only [match_altOf, List.mem_append, or_and_right, exists_or]

theorem match_altOf_singleton {r : Regex} :
    Match whole (altOf [r]) s t ↔ Match whole r s t := by
  simp [match_altOf]

theorem match_literal {cs : List Char} : Match whole (literal cs) s t ↔ s = cs ++ t := by
  induction cs generalizing s with
  | nil => exact Iff.rfl
  | cons c cs ih =>
      constructor
      · rintro ⟨m, rfl, h⟩
        rw [ih.mp h, List.cons_append]
      · rintro rfl
        exact ⟨cs ++ t, rfl, ih.mpr rfl⟩

/-- `.*` runs over any characters but newlines. -/
theorem match_star_any :
    Match whole (star any) s t ↔ ∃ cs : List Char, '\n' ∉ cs ∧ s = cs ++ t := by
  constructor
  · intro h
    induction h using Relation.ReflTransGen.head_induction_on with
    | refl => exact ⟨[], List.not_mem_nil, rfl⟩
    | head hstep _ ih =>
        obtain ⟨c, hc, rfl⟩ := hstep
        obtain ⟨cs, hcs, rfl⟩ := ih
        refine ⟨c :: cs, ?_, rfl⟩
        rw [List.mem_cons, not_or]
        exact ⟨hc.symm, hcs⟩
  · rintro ⟨cs, hcs, rfl⟩
    induction cs with
    | nil => exact Relation.ReflTransGen.refl
    | cons c cs ih =>
        rw [List.mem_cons, not_or] at hcs
        exact Relation.ReflTransGen.head ⟨c, Ne.symm hcs.1, rfl⟩ (ih hcs.2)

end Meaning

/-! ## Reading the text of an expression -/

/-- One piece of a branch.  A piece that ends in `*` or `?` takes no second one: that
would change how the engine searches, or be refused. -/
structure Item where
  regex : Regex
  quantified : Bool
deriving DecidableEq, Repr

/-- What a branch means. -/
def ofItems (items : List Item) : Regex := seqOf (items.map Item.regex)

/-- The pieces that stand for the characters themselves. -/
def literalItems (cs : List Char) : List Item := cs.map fun c => ⟨.char c, false⟩

theorem ofItems_literalItems (cs : List Char) : ofItems (literalItems cs) = literal cs := by
  rw [ofItems, literalItems, List.map_map]
  rfl

inductive Opening where
  | group
  | notAhead
deriving DecidableEq, Repr

/-- An open group.  Branches and pieces are kept with the latest first. -/
structure Level where
  opening : Opening
  branches : List Regex
  items : List Item
deriving DecidableEq, Repr

namespace Level

def branch (level : Level) : Regex := ofItems level.items.reverse

/-- What stands between the parentheses. -/
def body (level : Level) : Regex := altOf (level.branch :: level.branches).reverse

/-- The group as a whole. -/
def close (level : Level) : Regex :=
  match level.opening with
  | .group => level.body
  | .notAhead => notAhead level.body

end Level

/-- What the last characters leave open: a backslash, `(` or `(?`. -/
inductive Mode where
  | plain
  | escaped
  | opened
  | asked
deriving DecidableEq, Repr

structure Reader where
  outer : List Level
  level : Level
  mode : Mode
deriving DecidableEq, Repr

namespace Reader

def push (st : Reader) (r : Regex) : Reader :=
  { st with level := { st.level with items := ⟨r, false⟩ :: st.level.items }, mode := .plain }

def quantify (st : Reader) (f : Regex → Regex) : Option Reader :=
  match st.level.items with
  | ⟨r, false⟩ :: rest => some { st with level := { st.level with items := ⟨f r, true⟩ :: rest } }
  | _ => none

def openLevel (st : Reader) (opening : Opening) : Reader :=
  ⟨st.level :: st.outer, ⟨opening, [], []⟩, .plain⟩

def closeLevel (st : Reader) : Option Reader :=
  match st.outer with
  | level :: outer => some (push ⟨outer, level, .plain⟩ st.level.close)
  | [] => none

def nextBranch (st : Reader) : Reader :=
  { st with
    level := { st.level with branches := st.level.branch :: st.level.branches, items := [] } }

/-- A character that no backslash or parenthesis precedes.  Sets, counted repetition and
`+` are outside of the fragment. -/
def stepPlain (st : Reader) (c : Char) : Option Reader :=
  match c with
  | '\\' => some { st with mode := .escaped }
  | '(' => some { st with mode := .opened }
  | ')' => st.closeLevel
  | '|' => some st.nextBranch
  | '*' => st.quantify star
  | '?' => st.quantify opt
  | '.' => some (st.push any)
  | '^' => some (st.push bos)
  | '$' => some (st.push eos)
  | '[' => none
  | '{' => none
  | '+' => none
  | c => some (st.push (char c))

def step (st : Reader) (c : Char) : Option Reader :=
  match st.mode with
  | .plain => st.stepPlain c
  -- a backslash before a letter or a digit names a class or a group
  | .escaped => if c.isAlphanum then none else some (st.push (char c))
  | .opened => if c = '?' then some { st with mode := .asked } else none
  | .asked =>
      if c = ':' then some (st.openLevel .group)
      else if c = '!' then some (st.openLevel .notAhead)
      else none

def run (st : Reader) (cs : List Char) : Option Reader := cs.foldlM step st

theorem run_cons (st : Reader) (c : Char) (cs : List Char) :
    st.run (c :: cs) = (st.step c).bind fun st' => st'.run cs := List.foldlM_cons

theorem run_append {st st' : Reader} {cs : List Char} (h : st.run cs = some st')
    (ds : List Char) : st.run (cs ++ ds) = st'.run ds := by
  have happend : st.run (cs ++ ds) = (st.run cs).bind fun r => r.run ds := List.foldlM_append
  rw [happend, h]
  rfl

end Reader

/-- `re.compile`, for the expressions of the fragment. -/
def parse (cs : List Char) : Option Regex :=
  match Reader.run ⟨[], ⟨.group, [], []⟩, .plain⟩ cs with
  | some ⟨[], level, .plain⟩ => some level.body
  | _ => none

/-! ## `re.escape` -/

/-- The characters before which `re.escape` puts a backslash. -/
def specialChars : List Char :=
  ['(', ')', '[', ']', '{', '}', '?', '*', '+', '-', '|', '^', '$', '\\', '.', '&', '~', '#', ' ',
    '\t', '\n', '\r', '\x0b', '\x0c']

def escapeChar (c : Char) : List Char := if c ∈ specialChars then ['\\', c] else [c]

def escape (cs : List Char) : List Char := cs.flatMap escapeChar

theorem escape_of_plain {cs : List Char} (h : ∀ c ∈ cs, c ∉ specialChars) : escape cs = cs := by
  induction cs with
  | nil => rfl
  | cons c cs ih =>
      have htail := ih fun d hd => h d (List.mem_cons_of_mem c hd)
      rw [escape, List.flatMap_cons, escapeChar, if_neg (h c List.mem_cons_self)]
      exact congrArg (c :: ·) htail

/-! ## Reading piece by piece -/

/-- The characters append `items` to the branch that is being read. -/
def Reads (cs : List Char) (items : List Item) : Prop :=
  ∀ outer opening branches before,
    Reader.run ⟨outer, ⟨opening, branches, before⟩, .plain⟩ cs =
      some ⟨outer, ⟨opening, branches, items.reverse ++ before⟩, .plain⟩

namespace Reads

variable {cs ds : List Char} {xs ys : List Item}

theorem nil : Reads [] [] := fun _ _ _ _ => rfl

theorem append (h : Reads cs xs) (h' : Reads ds ys) : Reads (cs ++ ds) (xs ++ ys) := by
  intro outer opening branches before
  rw [Reader.run_append (h outer opening branches before), h', List.reverse_append,
    List.append_assoc]

theorem any : Reads ['.'] [⟨.any, false⟩] := fun _ _ _ _ => rfl

theorem bos : Reads ['^'] [⟨.bos, false⟩] := fun _ _ _ _ => rfl

theorem eos : Reads ['$'] [⟨.eos, false⟩] := fun _ _ _ _ => rfl

/-- A character that is not special stands for itself. -/
theorem char_of_not_special {c : Char} (h : c ∉ specialChars) :
    Reads [c] [⟨.char c, false⟩] := by
  intro outer opening branches before
  have hstep : Reader.stepPlain ⟨outer, ⟨opening, branches, before⟩, .plain⟩ c =
      some (Reader.push ⟨outer, ⟨opening, branches, before⟩, .plain⟩ (.char c)) := by
    unfold Reader.stepPlain
    split
    case h_13 => rfl
    all_goals exact absurd (by decide) h
  rw [Reader.run_cons, Reader.step, hstep]
  rfl

/-- A special character stands for itself after a backslash. -/
theorem char_of_special {c : Char} (h : c ∈ specialChars) :
    Reads ['\\', c] [⟨.char c, false⟩] := by
  intro outer opening branches before
  have hall : (specialChars.all fun d => !d.isAlphanum) = true := by decide
  have hc : c.isAlphanum = false := by simpa using List.all_eq_true.mp hall c h
  rw [Reader.run_cons, Reader.step, Reader.stepPlain, Option.bind_some, Reader.run_cons,
    Reader.step, hc]
  rfl

/-- **An escaped text stands for itself**, whatever characters it has. -/
theorem escape (cs : List Char) :
    Reads (Regex.escape cs) (literalItems cs) := by
  induction cs with
  | nil => exact nil
  | cons c cs ih =>
      have hc : Reads (escapeChar c) [⟨.char c, false⟩] := by
        by_cases h : c ∈ specialChars
        · rw [escapeChar, if_pos h]
          exact char_of_special h
        · rw [escapeChar, if_neg h]
          exact char_of_not_special h
      exact hc.append ih

theorem quantify {c : Char} {f : Regex → Regex} {r : Regex}
    (hstep : ∀ st : Reader, st.stepPlain c = st.quantify f)
    (h : Reads cs (xs ++ [⟨r, false⟩])) : Reads (cs ++ [c]) (xs ++ [⟨f r, true⟩]) := by
  intro outer opening branches before
  rw [Reader.run_append (h outer opening branches before), Reader.run_cons, Reader.step, hstep,
    List.reverse_append]
  simp [Reader.quantify, Reader.run]

theorem star {r : Regex} (h : Reads cs (xs ++ [⟨r, false⟩])) :
    Reads (cs ++ ['*']) (xs ++ [⟨.star r, true⟩]) := h.quantify fun _ => rfl

theorem opt {r : Regex} (h : Reads cs (xs ++ [⟨r, false⟩])) :
    Reads (cs ++ ['?']) (xs ++ [⟨.opt r, true⟩]) := h.quantify fun _ => rfl

/-- Branches with bars between them, from the start of a group on. -/
theorem join {css : List (List Char)} {xss : List (List Item)} (h : List.Forall₂ Reads css xss)
    (hne : css ≠ []) (outer : List Level) (opening : Opening) (branches : List Regex) :
    ∃ level, Reader.run ⟨outer, ⟨opening, branches, []⟩, .plain⟩ (['|'].intercalate css) =
        some ⟨outer, level, .plain⟩ ∧ level.opening = opening ∧
      level.body = altOf (branches.reverse ++ xss.map ofItems) := by
  induction h generalizing branches with
  | nil => exact absurd rfl hne
  | @cons cs xs css xss hcs hcss ih =>
      cases hcss with
      | nil =>
          refine ⟨⟨opening, branches, xs.reverse⟩, ?_, rfl, ?_⟩
          · rw [List.intercalate_singleton, hcs, List.append_nil]
          · simp [Level.body, Level.branch]
      | @cons ds ys css' xss' hds hcss' =>
          obtain ⟨level, hrun, hopening, hbody⟩ :=
            ih (List.cons_ne_nil _ _) (ofItems xs :: branches)
          refine ⟨level, ?_, hopening, ?_⟩
          · -- the bar closes the first branch, which is then one of the earlier ones
            rw [List.intercalate_cons_cons, List.append_assoc,
              Reader.run_append (hcs outer opening branches []), List.singleton_append,
              Reader.run_cons, ← hrun]
            simp [Reader.step, Reader.stepPlain, Reader.nextBranch, Level.branch]
          · rw [hbody, List.reverse_cons, List.append_assoc]
            rfl

/-- A group, after the characters that open it. -/
theorem close (opening : Opening) (lead : List Char) {css : List (List Char)}
    {xss : List (List Item)}
    (hlead : ∀ outer level, Reader.run ⟨outer, level, .plain⟩ lead =
      some (Reader.openLevel ⟨outer, level, .plain⟩ opening))
    (h : List.Forall₂ Reads css xss) (hne : css ≠ []) {r : Regex}
    (hr : ∀ level : Level, level.opening = opening →
      level.body = altOf (xss.map ofItems) → level.close = r) :
    Reads (lead ++ ['|'].intercalate css ++ [')']) [⟨r, false⟩] := by
  intro outer opening' branches before
  obtain ⟨level, hrun, hopening, hbody⟩ :=
    join h hne (⟨opening', branches, before⟩ :: outer) opening []
  rw [List.append_assoc, Reader.run_append (hlead _ _)]
  rw [Reader.openLevel, Reader.run_append hrun, Reader.run_cons, Reader.step, Reader.stepPlain,
    Reader.closeLevel, hr level hopening hbody]
  rfl

theorem group {css : List (List Char)} {xss : List (List Item)}
    (h : List.Forall₂ Reads css xss) (hne : css ≠ []) :
    Reads (['(', '?', ':'] ++ ['|'].intercalate css ++ [')'])
      [⟨altOf (xss.map ofItems), false⟩] := by
  refine close .group _ (fun _ _ => rfl) h hne ?_
  intro level hopening hbody
  rw [Level.close, hopening, hbody]

theorem notAhead (h : Reads cs xs) :
    Reads (['(', '?', '!'] ++ cs ++ [')'])
      [⟨.notAhead (altOf [ofItems xs]), false⟩] := by
  have hone : List.Forall₂ Reads [cs] [xs] := .cons h .nil
  have hclose : ∀ level : Level, level.opening = .notAhead →
      level.body = altOf ([xs].map ofItems) →
      level.close = .notAhead (altOf [ofItems xs]) := by
    intro level hopening hbody
    rw [Level.close, hopening, hbody]
    rfl
  have hreads := close .notAhead ['(', '?', '!'] (fun _ _ => rfl) hone (List.cons_ne_nil _ _) hclose
  rwa [List.intercalate_singleton] at hreads

/-- A text all of which is one branch. -/
theorem parse (h : Reads cs xs) :
    Regex.parse cs = some (altOf [ofItems xs]) := by
  rw [Regex.parse, h]
  simp [Level.body, Level.branch]

end Reads

end Regex

end Ros1Tools.Lib
