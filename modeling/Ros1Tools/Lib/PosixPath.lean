import Mathlib.Data.List.Basic
import Mathlib.Data.List.TakeWhile

/-!
# The texts of paths

The functions of `posixpath` that work on the text of a path alone.  A path is a list of
characters, and its parts are what slashes separate.

A path that is absolute and its own `normpath` is spelled out by its parts, each with a slash
in front (`spell`), behind at most one slash more (`Spelled`): two slashes at the start are
kept.  Splitting, `dirname` and `commonpath` are computed on that form.
-/

namespace Ros1Tools.Lib.PosixPath

abbrev Part := List Char

abbrev Path := List Char

/-- `path.split("/")`. -/
def split (path : Path) : List Part := path.splitOn '/'

/-- `"/".join(parts)`. -/
def joinParts (parts : List Part) : Path := ['/'].intercalate parts

def isabs (path : Path) : Bool := path.head? == some '/'

def endsInSlash (path : Path) : Bool := path.getLast? == some '/'

/-- `join(path, other)`. -/
def join (path other : Path) : Path :=
  if isabs other then other
  else if path = [] ∨ endsInSlash path then path ++ other
  else path ++ '/' :: other

/-- One turn of the loop of `normpath`. -/
def normStep (rooted : Bool) (parts : List Part) (part : Part) : List Part :=
  if part = [] ∨ part = ['.'] then parts
  else if part ≠ ['.', '.'] ∨ (!rooted ∧ parts = []) ∨ parts.getLast? = some ['.', '.'] then
    parts ++ [part]
  else parts.dropLast

/-- The slashes that `normpath` keeps at the start: three or more are one. -/
def initialSlashes : Path → Nat
  | '/' :: '/' :: '/' :: _ => 1
  | '/' :: '/' :: _ => 2
  | '/' :: _ => 1
  | _ => 0

def normpath (path : Path) : Path :=
  if path = [] then ['.']
  else
    let slashes := initialSlashes path
    let parts := (split path).foldl (normStep (slashes != 0)) []
    let result := List.replicate slashes '/' ++ joinParts parts
    if result = [] then ['.'] else result

/-- The text up to the last slash. -/
def head (path : Path) : Path := (path.reverse.dropWhile (· != '/')).reverse

def basename (path : Path) : Part := (path.reverse.takeWhile (· != '/')).reverse

def dirname (path : Path) : Path :=
  if (head path).all (· == '/') then head path
  else ((head path).reverse.dropWhile (· == '/')).reverse

/-- The parts that `commonpath` compares. -/
def parts (path : Path) : List Part := (split path).filter fun part => part != [] && part != ['.']

/-- The longest list that both start with. -/
def commonParts : List Part → List Part → List Part
  | a :: as, b :: bs => if a = b then a :: commonParts as bs else []
  | _, _ => []

/-- `commonpath([a, b])`, which refuses to mix absolute and relative paths. -/
def commonpath (a b : Path) : Option Path :=
  if isabs a = isabs b then
    some ((if isabs a then ['/'] else []) ++ joinParts (commonParts (parts a) (parts b)))
  else none

/-! ## Proper parts -/

/-- A part that names an entry of a directory. -/
structure Proper (part : Part) : Prop where
  ne_nil : part ≠ []
  ne_dot : part ≠ ['.']
  ne_dotdot : part ≠ ['.', '.']
  not_mem : '/' ∉ part

/-- Parts, each with a slash in front. -/
def spell (parts : List Part) : Path := parts.flatMap ('/' :: ·)

variable {path : Path} {ps : List Part} {part : Part}

theorem spell_append (ps qs : List Part) : spell (ps ++ qs) = spell ps ++ spell qs :=
  List.flatMap_append

theorem spell_cons (part : Part) (ps : List Part) : spell (part :: ps) = '/' :: part ++ spell ps :=
  rfl

theorem spell_singleton (part : Part) : spell [part] = '/' :: part := List.flatMap_singleton _ _

theorem joinParts_cons (part : Part) (ps : List Part) :
    joinParts (part :: ps) = part ++ spell ps := by
  induction ps generalizing part with
  | nil => rw [joinParts, List.intercalate_singleton, spell, List.flatMap_nil, List.append_nil]
  | cons next ps ih =>
      rw [joinParts, List.intercalate_cons_cons, ← joinParts, ih, spell_cons, List.append_assoc]
      rfl

/-- A slash in front of joined parts is in front of the first of them. -/
theorem cons_joinParts (hne : ps ≠ []) : '/' :: joinParts ps = spell ps := by
  obtain ⟨part, ps, rfl⟩ := List.exists_cons_of_ne_nil hne
  rw [joinParts_cons]
  rfl

/-- The parts of a spelled path are found again. -/
theorem split_spell (h : ∀ part ∈ ps, Proper part) : split (spell ps) = [] :: ps := by
  have hjoined : spell ps = joinParts ([] :: ps) := (joinParts_cons [] ps).symm
  rw [hjoined, split, joinParts, List.splitOn_intercalate]
  · exact List.forall_mem_cons.mpr ⟨List.not_mem_nil, fun part hpart => (h part hpart).not_mem⟩
  · exact List.cons_ne_nil _ _

theorem split_cons_spell (h : ∀ part ∈ ps, Proper part) :
    split ('/' :: spell ps) = [] :: [] :: ps := by
  have hcons : '/' :: spell ps = [] ++ '/' :: spell ps := rfl
  rw [hcons, split, List.splitOn_append_cons_self_of_not_mem List.not_mem_nil, ← split,
    split_spell h]

theorem filter_parts (h : ∀ part ∈ ps, Proper part) :
    (ps.filter fun part => part != [] && part != ['.']) = ps := by
  rw [List.filter_eq_self]
  intro part hpart
  rw [Bool.and_eq_true, bne_iff_ne, bne_iff_ne]
  exact ⟨(h part hpart).ne_nil, (h part hpart).ne_dot⟩

/-- Splitting leaves no slash. -/
theorem not_mem_of_mem_split (h : part ∈ split path) : '/' ∉ part := by
  induction path generalizing part with
  | nil =>
      rw [split, List.splitOn_nil, List.mem_singleton] at h
      rw [h]
      exact List.not_mem_nil
  | cons c path ih =>
      rw [split, List.splitOn_cons_eq_if_modifyHead, ← split] at h
      split at h
      next =>
        rcases List.mem_cons.mp h with rfl | h
        · exact List.not_mem_nil
        · exact ih h
      next hc =>
        cases hsplit : split path with
        | nil => rw [hsplit] at h; cases h
        | cons first rest =>
            rw [hsplit] at h ih
            rcases List.mem_cons.mp h with rfl | h
            · intro hmem
              rcases List.mem_cons.mp hmem with rfl | hmem
              · exact hc (beq_self_eq_true _)
              · exact ih List.mem_cons_self hmem
            · exact ih (List.mem_cons_of_mem _ h)

/-! ## Clean paths -/

/-- One part more keeps the parts proper. -/
theorem normStep_proper (h : ∀ part ∈ ps, Proper part) (hpart : '/' ∉ part) :
    ∀ q ∈ normStep true ps part, Proper q := by
  unfold normStep
  split
  next => exact h
  next hne =>
    obtain ⟨hnil, hdot⟩ := not_or.mp hne
    split
    next hkeep =>
      intro q hq
      rcases List.mem_append.mp hq with hq | hq
      · exact h q hq
      · rw [List.mem_singleton.mp hq]
        refine ⟨hnil, hdot, ?_, hpart⟩
        rcases hkeep with hne | ⟨hrooted, -⟩ | hlast
        · exact hne
        · cases hrooted
        · exact absurd rfl (h _ (List.mem_of_getLast? hlast)).ne_dotdot
    next => exact fun q hq => h q ((List.dropLast_sublist ps).subset hq)

theorem foldl_normStep_proper {qs : List Part} (hqs : ∀ q ∈ qs, '/' ∉ q)
    (h : ∀ part ∈ ps, Proper part) : ∀ part ∈ qs.foldl (normStep true) ps, Proper part := by
  induction qs generalizing ps with
  | nil => exact h
  | cons q qs ih =>
      obtain ⟨hq, hqs⟩ := List.forall_mem_cons.mp hqs
      exact ih hqs (normStep_proper h hq)

/-- An absolute path spelled out by its parts. -/
structure Spelled (path : Path) (slash : Bool) (ps : List Part) : Prop where
  proper : ∀ part ∈ ps, Proper part
  eq : path = (if slash then ['/'] else []) ++ spell ps

theorem initialSlashes_cons (rest : Path) :
    initialSlashes ('/' :: rest) = 1 ∨ initialSlashes ('/' :: rest) = 2 := by
  unfold initialSlashes
  split
  · exact .inl rfl
  · exact .inr rfl
  · exact .inl rfl
  · rename_i hnot
    exact absurd rfl (hnot rest)

theorem normpath_cons (rest : Path) :
    normpath ('/' :: rest) = List.replicate (initialSlashes ('/' :: rest)) '/' ++
      joinParts ((split ('/' :: rest)).foldl (normStep true) []) := by
  obtain ⟨n, hn⟩ : ∃ n, initialSlashes ('/' :: rest) = n + 1 := by
    rcases initialSlashes_cons rest with h | h
    · exact ⟨0, h⟩
    · exact ⟨1, h⟩
  rw [normpath, if_neg (List.cons_ne_nil _ _), hn]
  exact if_neg (List.cons_ne_nil _ _)

/-- **A clean absolute path is spelled out by its parts**, unless it has none. -/
theorem exists_spelled (habs : isabs path = true) (hclean : normpath path = path) :
    path = ['/'] ∨ path = ['/', '/'] ∨ ∃ slash ps, ps ≠ [] ∧ Spelled path slash ps := by
  obtain ⟨rest, rfl⟩ : ∃ rest, path = '/' :: rest := by
    cases path with
    | nil => cases habs
    | cons c rest => exact ⟨rest, by rw [Option.some.inj (beq_iff_eq.mp habs)]⟩
  have hproper : ∀ part ∈ (split ('/' :: rest)).foldl (normStep true) [], Proper part :=
    foldl_normStep_proper (fun _ => not_mem_of_mem_split) (List.forall_mem_nil _)
  rw [normpath_cons] at hclean
  generalize (split ('/' :: rest)).foldl (normStep true) [] = ps at hproper hclean
  by_cases hempty : ps = []
  · subst hempty
    rcases initialSlashes_cons rest with hslashes | hslashes
    · rw [hslashes] at hclean
      exact .inl hclean.symm
    · rw [hslashes] at hclean
      exact .inr (.inl hclean.symm)
  · refine .inr (.inr ?_)
    rcases initialSlashes_cons rest with hslashes | hslashes
    · rw [hslashes] at hclean
      exact ⟨false, ps, hempty, hproper, hclean.symm.trans (cons_joinParts hempty)⟩
    · rw [hslashes] at hclean
      refine ⟨true, ps, hempty, hproper, hclean.symm.trans ?_⟩
      exact congrArg ('/' :: ·) (cons_joinParts hempty)

namespace Spelled

variable {slash : Bool}

theorem isabs (h : Spelled path slash ps) (hne : ps ≠ []) : isabs path = true := by
  obtain ⟨part, ps, rfl⟩ := List.exists_cons_of_ne_nil hne
  rw [h.eq]
  cases slash <;> rfl

/-- The parts are found again, behind one or two empty ones. -/
theorem split_eq (h : Spelled path slash ps) :
    split path = (if slash then [[], []] else [[]]) ++ ps := by
  rw [h.eq]
  cases slash with
  | false => exact split_spell h.proper
  | true => exact split_cons_spell h.proper

theorem parts_eq (h : Spelled path slash ps) : parts path = ps := by
  rw [parts, h.split_eq, List.filter_append, filter_parts h.proper]
  cases slash <;> rfl

/-- What follows the last slash is the last part. -/
theorem basename_concat (h : Spelled path slash (ps ++ [part])) : basename path = part := by
  have hpart := h.proper part (List.mem_append_right _ List.mem_cons_self)
  rw [basename, h.eq, spell_append, spell_singleton, ← List.append_assoc, List.reverse_append,
    List.reverse_cons, List.append_assoc, List.takeWhile_append_of_pos]
  · rw [List.singleton_append, List.takeWhile_cons_of_neg (by decide), List.append_nil,
      List.reverse_reverse]
  · intro c hc
    rw [bne_iff_ne]
    rintro rfl
    exact hpart.not_mem (List.mem_reverse.mp hc)

theorem head_concat (h : Spelled path slash (ps ++ [part])) :
    head path = (if slash then ['/'] else []) ++ spell ps ++ ['/'] := by
  have hpart := h.proper part (List.mem_append_right _ List.mem_cons_self)
  rw [head, h.eq, spell_append, spell_singleton, ← List.append_assoc, List.reverse_append,
    List.reverse_cons, List.append_assoc, List.dropWhile_append_of_pos]
  · rw [List.singleton_append, List.dropWhile_cons_of_neg (by decide), List.reverse_cons,
      List.reverse_reverse]
  · intro c hc
    rw [bne_iff_ne]
    rintro rfl
    exact hpart.not_mem (List.mem_reverse.mp hc)

/-- A spelled path does not end in a slash. -/
theorem exists_concat (h : Spelled path slash ps) (hne : ps ≠ []) :
    ∃ front c, path = front ++ [c] ∧ c ≠ '/' := by
  obtain ⟨qs, part, rfl⟩ := (List.eq_nil_or_concat' ps).resolve_left hne
  have hpart := h.proper part (List.mem_append_right _ List.mem_cons_self)
  obtain ⟨cs, c, rfl⟩ := (List.eq_nil_or_concat' part).resolve_left hpart.ne_nil
  refine ⟨(if slash then ['/'] else []) ++ spell qs ++ '/' :: cs, c, ?_, ?_⟩
  · rw [h.eq, spell_append, spell_singleton]
    simp
  · rintro rfl
    exact hpart.not_mem (List.mem_append_right _ List.mem_cons_self)

theorem endsInSlash_eq (h : Spelled path slash ps) (hne : ps ≠ []) : endsInSlash path = false := by
  obtain ⟨front, c, rfl, hc⟩ := h.exists_concat hne
  rw [endsInSlash, List.getLast?_concat]
  exact beq_eq_false_iff_ne.mpr fun heq => hc (Option.some.inj heq)

/-- The directory part is spelled out by the other parts. -/
theorem dirname_concat (h : Spelled path slash (ps ++ [part])) (hne : ps ≠ []) :
    Spelled (dirname path) slash ps := by
  have hproper : ∀ q ∈ ps, Proper q := fun q hq => h.proper q (List.mem_append_left _ hq)
  have hspelled : Spelled ((if slash then ['/'] else []) ++ spell ps) slash ps := ⟨hproper, rfl⟩
  obtain ⟨front, c, hfront, hc⟩ := hspelled.exists_concat hne
  have hhead : head path = front ++ [c] ++ ['/'] := by rw [h.head_concat, hfront]
  have hother : ¬(head path).all (· == '/') = true := by
    rw [hhead, List.all_eq_true]
    intro hall
    exact hc (beq_iff_eq.mp (hall c (by simp)))
  refine ⟨hproper, ?_⟩
  rw [dirname, if_neg hother, hhead, List.reverse_concat, List.dropWhile_cons_of_pos rfl,
    List.reverse_concat, List.dropWhile_cons_of_neg (by rw [beq_iff_eq]; exact hc),
    ← List.reverse_concat, List.reverse_reverse, hfront]

theorem parts_dirname (h : Spelled path slash (ps ++ [part])) : parts (dirname path) = ps := by
  by_cases hne : ps = []
  · subst hne
    rw [dirname, h.head_concat]
    cases slash <;> rfl
  · exact (h.dirname_concat hne).parts_eq

/-- An entry of the path. -/
theorem join (h : Spelled path slash ps) (hne : ps ≠ []) (hpart : Proper part) :
    Spelled (join path part) slash (ps ++ [part]) := by
  have hrelative : PosixPath.isabs part ≠ true := by
    intro habs
    exact hpart.not_mem (List.mem_of_head? (beq_iff_eq.mp habs))
  obtain ⟨front, c, hpath, -⟩ := h.exists_concat hne
  refine ⟨List.forall_mem_append.mpr ⟨h.proper, List.forall_mem_singleton.mpr hpart⟩, ?_⟩
  have hother : ¬(path = [] ∨ endsInSlash path = true) := by
    rw [h.endsInSlash_eq hne, hpath]
    simp
  rw [PosixPath.join, if_neg hrelative, if_neg hother, h.eq, spell_append, spell_singleton,
    List.append_assoc]

end Spelled

/-! ## Common parts -/

theorem commonParts_isPrefix_left (ps qs : List Part) : commonParts ps qs <+: ps := by
  induction ps generalizing qs with
  | nil => cases qs <;> exact List.nil_prefix
  | cons p ps ih =>
      cases qs with
      | nil => exact List.nil_prefix
      | cons q qs =>
          rw [commonParts]
          split
          · exact List.cons_prefix_cons.mpr ⟨rfl, ih qs⟩
          · exact List.nil_prefix

theorem commonParts_isPrefix_right (ps qs : List Part) : commonParts ps qs <+: qs := by
  induction ps generalizing qs with
  | nil => cases qs <;> exact List.nil_prefix
  | cons p ps ih =>
      cases qs with
      | nil => exact List.nil_prefix
      | cons q qs =>
          rw [commonParts]
          split
          next heq => exact List.cons_prefix_cons.mpr ⟨heq, ih qs⟩
          next => exact List.nil_prefix

/-- **A path is the common path of itself and another only if it leads to the other.** -/
theorem isPrefix_of_commonpath {a b : Path} {slash : Bool} {ps qs : List Part}
    (ha : Spelled a slash ps) (hb : parts b = qs) (hne : ps ≠ [])
    (h : commonpath a b = some a) : slash = false ∧ ps <+: qs := by
  have hproper : ∀ part ∈ commonParts ps qs, Proper part := fun part hpart =>
    ha.proper part ((commonParts_isPrefix_left ps qs).subset hpart)
  rw [commonpath, ha.parts_eq, hb, ha.isabs hne] at h
  split at h
  next =>
    have heq : '/' :: joinParts (commonParts ps qs) = a := Option.some.inj h
    by_cases hempty : commonParts ps qs = []
    · -- the root is not spelled out
      rw [hempty] at heq
      obtain ⟨front, c, hconcat, hc⟩ := ha.exists_concat hne
      have hlast := congrArg List.getLast? (heq.trans hconcat)
      rw [List.getLast?_concat] at hlast
      exact absurd (Option.some.inj hlast).symm hc
    · have hcommon : Spelled a false (commonParts ps qs) :=
        ⟨hproper, heq.symm.trans (cons_joinParts hempty)⟩
      have hsplit := hcommon.split_eq.symm.trans ha.split_eq
      cases slash with
      | false =>
          refine ⟨rfl, ?_⟩
          rw [← List.append_cancel_left hsplit]
          exact commonParts_isPrefix_right ps qs
      | true =>
          have hcons : commonParts ps qs = [] :: ps := List.append_cancel_left hsplit
          exact absurd rfl (hproper [] (hcons ▸ List.mem_cons_self)).ne_nil
  next => cases h

end Ros1Tools.Lib.PosixPath
