import Ros1Tools.Lib.Regex
import Ros1Tools.Lib.Python

/-!
# The exclusion pattern of the bag recorder

With `recordAllTopics` the recorder subscribes to every topic that a pattern does not
match.  The pattern is assembled as text: the excluded topics, escaped, and the display
namespace `/xgc/display` of derived copies, with the copies that are recorded explicitly
taken out by a negative lookahead.

`excludes_iff` says which topics the pattern matches.
-/

namespace Ros1Tools.Recording

open Lib Lib.Python

/-! ## The text -/

/-- `re.escape(text)`. -/
def escape (text : String) : String := String.ofList (Regex.escape text.toList)

/-- The recorded topics that lie under the display namespace. -/
def explicitCopies (topics : List String) : List String :=
  topics.filter fun topic => startsWith topic "/xgc/display/"

/-- `derived_pattern`: the display namespace, without the explicit copies. -/
def derivedPattern (topics : List String) : String :=
  if (explicitCopies topics).isEmpty then "/xgc/display(?:/.*)?"
  else "(?!(?:" ++ "|".intercalate ((explicitCopies topics).map escape) ++ ")$)" ++
    "/xgc/display(?:/.*)?"

def exclusionPattern (topics excluded : List String) : String :=
  "^(?:" ++ "|".intercalate (excluded.map escape ++ [derivedPattern topics]) ++ ")$"

/-- The pattern is a regular expression that matches all of the name. -/
def Excludes (pattern topic : String) : Prop :=
  ∃ r, Regex.parse pattern.toList = some r ∧ r.FullMatch topic.toList

/-- The name is the root of the display namespace or lies under it. -/
def InDisplay (topic : String) : Prop :=
  topic = "/xgc/display" ∨ startsWith topic "/xgc/display/" = true

instance (topic : String) : Decidable (InDisplay topic) := by
  unfold InDisplay
  infer_instance

/-! ## The expression it denotes -/

/-- `/xgc/display(?:/.*)?`. -/
def displayItems : List Regex.Item :=
  Regex.literalItems "/xgc/display".toList ++
    [⟨.opt (Regex.altOf [Regex.seqOf [.char '/', .star .any]]), true⟩]

/-- One of the topics. -/
def literals (topics : List String) : List Regex :=
  topics.map fun topic => Regex.literal topic.toList

/-- The lookahead that spares the explicit copies. -/
def spareItem (copies : List String) : Regex.Item :=
  ⟨.notAhead (Regex.altOf [Regex.seqOf [Regex.altOf (literals copies), .eos]]), false⟩

def derivedItems (topics : List String) : List Regex.Item :=
  if (explicitCopies topics).isEmpty then displayItems
  else spareItem (explicitCopies topics) :: displayItems

/-- The expression the whole pattern denotes. -/
def exclusionRegex (topics excluded : List String) : Regex :=
  Regex.altOf [Regex.seqOf [.bos,
    Regex.altOf (literals excluded ++ [Regex.ofItems (derivedItems topics)]), .eos]]

theorem forall₂_reads_escape (topics : List String) :
    List.Forall₂ Regex.Reads ((topics.map escape).map String.toList)
      (topics.map fun topic => Regex.literalItems topic.toList) := by
  induction topics with
  | nil => exact .nil
  | cons topic topics ih =>
      refine .cons ?_ ih
      rw [escape, String.toList_ofList]
      exact Regex.Reads.escape _

theorem map_ofItems_literalItems (topics : List String) :
    (topics.map fun topic => Regex.literalItems topic.toList).map Regex.ofItems =
      literals topics := by
  rw [List.map_map]
  exact List.map_congr_left fun topic _ => Regex.ofItems_literalItems topic.toList

theorem reads_display : Regex.Reads "/xgc/display(?:/.*)?".toList displayItems := by
  have hroot : Regex.Reads "/xgc/display".toList (Regex.literalItems "/xgc/display".toList) :=
    Regex.Reads.escape "/xgc/display".toList
  have hslash : Regex.Reads ['/'] [⟨.char '/', false⟩] :=
    Regex.Reads.char_of_not_special (by decide)
  have hrest : Regex.Reads ['/', '.', '*'] [⟨.char '/', false⟩, ⟨.star .any, true⟩] :=
    (hslash.append Regex.Reads.any).star
  have hgroup := Regex.Reads.group (.cons hrest .nil) (List.cons_ne_nil _ _)
  exact (hroot.append hgroup).opt

theorem reads_spare {copies : List String} (hne : copies ≠ []) :
    Regex.Reads ("(?!(?:" ++ "|".intercalate (copies.map escape) ++ ")$)").toList
      [spareItem copies] := by
  have hgroup := Regex.Reads.group (forall₂_reads_escape copies) (by simpa using hne)
  rw [map_ofItems_literalItems] at hgroup
  have hspare := (hgroup.append Regex.Reads.eos).notAhead
  simpa [spareItem, Regex.ofItems, String.toList_intercalate] using hspare

theorem reads_derivedPattern (topics : List String) :
    Regex.Reads (derivedPattern topics).toList (derivedItems topics) := by
  rw [derivedPattern, derivedItems]
  split
  · exact reads_display
  · next hne =>
      rw [String.toList_append]
      rw [List.isEmpty_iff] at hne
      exact (reads_spare hne).append reads_display

/-- The pattern is well formed, and its pieces mean what they were put there for. -/
theorem parse_exclusionPattern (topics excluded : List String) :
    Regex.parse (exclusionPattern topics excluded).toList =
      some (exclusionRegex topics excluded) := by
  have hbranches : List.Forall₂ Regex.Reads
      ((excluded.map escape ++ [derivedPattern topics]).map String.toList)
      ((excluded.map fun topic => Regex.literalItems topic.toList) ++ [derivedItems topics]) := by
    rw [List.map_append]
    exact List.rel_append (forall₂_reads_escape excluded)
      (.cons (reads_derivedPattern topics) .nil)
  have hgroup := Regex.Reads.group hbranches (by simp)
  rw [List.map_append (f := Regex.ofItems), map_ofItems_literalItems] at hgroup
  have hparse := ((Regex.Reads.bos.append hgroup).append Regex.Reads.eos).parse
  simpa [exclusionPattern, exclusionRegex, Regex.ofItems, String.toList_intercalate]
    using hparse

/-! ## The topics it matches -/

section Match

variable {whole s t : List Char}

theorem match_displayItems :
    Regex.Match whole (Regex.ofItems displayItems) s [] ↔
      s = "/xgc/display".toList ∨
        ∃ rest, '\n' ∉ rest ∧ s = "/xgc/display/".toList ++ rest := by
  have happend : ∀ rest, "/xgc/display/".toList ++ rest = "/xgc/display".toList ++ '/' :: rest :=
    fun _ => rfl
  rw [Regex.ofItems, displayItems, List.map_append, Regex.match_seqOf_append]
  change (∃ m, Regex.Match whole (Regex.ofItems (Regex.literalItems _)) s m ∧ _) ↔ _
  simp only [Regex.ofItems_literalItems, Regex.match_literal, List.map_cons, List.map_nil,
    Regex.match_seqOf_cons, Regex.match_seqOf_nil]
  constructor
  · rintro ⟨m, rfl, _, rfl | htail, rfl⟩
    · exact Or.inl (List.append_nil _)
    · obtain ⟨_, rfl, _, hstar, rfl⟩ := Regex.match_altOf_singleton.mp htail
      obtain ⟨rest, hrest, rfl⟩ := Regex.match_star_any.mp hstar
      exact Or.inr ⟨rest, hrest, by rw [List.append_nil, happend]⟩
  · rintro (rfl | ⟨rest, hrest, rfl⟩)
    · exact ⟨[], (List.append_nil _).symm, [], Or.inl rfl, rfl⟩
    · refine ⟨'/' :: rest, happend rest, [], Or.inr (Regex.match_altOf_singleton.mpr ?_), rfl⟩
      refine ⟨rest, rfl, [], Regex.match_star_any.mpr ⟨rest, hrest, ?_⟩, rfl⟩
      exact (List.append_nil _).symm

theorem match_literals {topics : List String} :
    Regex.Match whole (Regex.altOf (literals topics)) s t ↔
      ∃ topic ∈ topics, s = topic.toList ++ t := by
  rw [Regex.match_altOf]
  simp [literals, Regex.match_literal]

/-- Where no newline follows, the lookahead fails at the copies themselves. -/
theorem match_spareItem {copies : List String} (hs : '\n' ∉ s) :
    Regex.Match whole (spareItem copies).regex s t ↔
      s = t ∧ ∀ topic ∈ copies, s ≠ topic.toList := by
  refine and_congr_right fun _ => ?_
  constructor
  · intro hnone topic htopic hs'
    refine hnone ⟨[], Regex.match_altOf_singleton.mpr ⟨[], match_literals.mpr ?_, [], ?_, rfl⟩⟩
    · exact ⟨topic, htopic, hs'.trans (List.append_nil _).symm⟩
    · exact ⟨rfl, Or.inl rfl⟩
  · rintro hall ⟨m, hm⟩
    obtain ⟨m, hcopy, _, ⟨rfl, hend⟩, rfl⟩ := Regex.match_altOf_singleton.mp hm
    obtain ⟨topic, htopic, rfl⟩ := match_literals.mp hcopy
    rcases hend with rfl | rfl
    · exact hall topic htopic (List.append_nil _)
    · exact hs (List.mem_append_right _ (List.mem_singleton_self _))

theorem match_derivedItems {topics : List String} :
    Regex.Match whole (Regex.ofItems (derivedItems topics)) s [] ↔
      Regex.Match whole (Regex.ofItems displayItems) s [] ∧
        ∀ topic ∈ explicitCopies topics, s ≠ topic.toList := by
  have hnewline : Regex.Match whole (Regex.ofItems displayItems) s [] → '\n' ∉ s := by
    intro h
    rcases match_displayItems.mp h with rfl | ⟨rest, hrest, rfl⟩
    · decide
    · rw [List.mem_append, not_or]
      exact ⟨by decide, hrest⟩
  rw [derivedItems]
  split
  · next hempty =>
      rw [List.isEmpty_iff] at hempty
      simp [hempty]
  · constructor
    · rintro ⟨m, hspare, hdisplay⟩
      obtain rfl : s = m := hspare.1
      exact ⟨hdisplay, ((match_spareItem (hnewline hdisplay)).mp hspare).2⟩
    · rintro ⟨hdisplay, hcopies⟩
      exact ⟨s, (match_spareItem (hnewline hdisplay)).mpr ⟨rfl, hcopies⟩, hdisplay⟩

end Match

theorem match_display_iff {whole : List Char} {topic : String} :
    Regex.Match whole (Regex.ofItems displayItems) topic.toList [] ↔
      InDisplay topic ∧ '\n' ∉ topic.toList := by
  have hroot : '\n' ∉ "/xgc/display".toList ∧ '\n' ∉ "/xgc/display/".toList := by decide
  rw [match_displayItems, InDisplay, startsWith_iff]
  constructor
  · rintro (h | ⟨rest, hrest, h⟩)
    · exact ⟨Or.inl (String.toList_inj.mp h), h ▸ hroot.1⟩
    · refine ⟨Or.inr ⟨rest, h⟩, ?_⟩
      rw [h, List.mem_append, not_or]
      exact ⟨hroot.2, hrest⟩
  · rintro ⟨h | ⟨rest, h⟩, hnewline⟩
    · exact Or.inl (String.toList_inj.mpr h)
    · rw [h, List.mem_append, not_or] at hnewline
      exact Or.inr ⟨rest, hnewline.2, h⟩

/-- **The topics that the pattern matches.**  Recorded topics are only spared if they lie
under the root of the display namespace; the root itself is not. -/
theorem excludes_iff (topics excluded : List String) (topic : String) :
    Excludes (exclusionPattern topics excluded) topic ↔
      topic ∈ excluded ∨
        (InDisplay topic ∧ '\n' ∉ topic.toList) ∧ topic ∉ explicitCopies topics := by
  have hderived : Regex.Match topic.toList (Regex.ofItems (derivedItems topics)) topic.toList [] ↔
      (InDisplay topic ∧ '\n' ∉ topic.toList) ∧ topic ∉ explicitCopies topics := by
    rw [match_derivedItems, match_display_iff]
    refine and_congr_right fun _ => ?_
    constructor
    · intro hall hmem
      exact hall topic hmem rfl
    · intro hnot copy hcopy heq
      exact hnot (String.toList_inj.mp heq ▸ hcopy)
  have hbranches : Regex.Match topic.toList
      (Regex.altOf (literals excluded ++ [Regex.ofItems (derivedItems topics)])) topic.toList [] ↔
      topic ∈ excluded ∨
        (InDisplay topic ∧ '\n' ∉ topic.toList) ∧ topic ∉ explicitCopies topics := by
    rw [Regex.match_altOf_append, match_literals, Regex.match_altOf_singleton, hderived]
    simp [String.toList_inj]
  rw [← hbranches, Excludes, parse_exclusionPattern]
  constructor
  · rintro ⟨_, ⟨⟩, h⟩
    obtain ⟨_, ⟨rfl, -⟩, _, hmatch, _, ⟨rfl, -⟩, rfl⟩ := Regex.match_altOf_singleton.mp h
    exact hmatch
  · intro h
    refine ⟨_, rfl, Regex.match_altOf_singleton.mpr ⟨_, ⟨rfl, rfl⟩, [], h, [], ?_, rfl⟩⟩
    exact ⟨rfl, Or.inl rfl⟩

/-- The root of the display namespace is excluded even if it is to be recorded. -/
theorem excludes_root (topics excluded : List String) :
    Excludes (exclusionPattern topics excluded) "/xgc/display" := by
  refine (excludes_iff _ _ _).mpr (Or.inr ⟨by decide, ?_⟩)
  intro hcopy
  exact absurd (List.mem_filter.mp hcopy).2 (by decide)

end Ros1Tools.Recording
