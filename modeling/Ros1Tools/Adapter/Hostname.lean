import Mathlib.Data.List.Basic
import Mathlib.Logic.Function.Iterate
import Ros1Tools.Adapter.Context

/-!
# Host names

`validateHostname` scans a host name label by label.  Its bound leaves out one dot at the
end, while its search for the next dot runs over the whole text; and it stops as soon as a
label would start at the bound.  So a dot in front of the bound is taken for the dot at the
end, and a second one is accepted after it.

The scan is modelled a second time with every access to the text checked, and the two agree:
it ends, and never reads outside the text.
-/

namespace Ros1Tools.Adapter

open Lib

/-! ## DNS-style names -/

/-- The characters of a label. -/
def isLabelCharacter (c : Char) : Bool := c.isAlphanum || c == '-' || c == '_'

/-- A label of a host name. -/
structure IsLabel (label : List Char) : Prop where
  pos : 1 ≤ label.length
  le : label.length ≤ 63
  characters : ∀ c ∈ label, isLabelCharacter c = true
  first : ∀ c, label.head? = some c → c.isAlphanum = true
  last : ∀ c, label.getLast? = some c → c.isAlphanum = true

/-- One or more labels, with single dots between them. -/
def IsLabels (value : List Char) : Prop :=
  ∃ labels : List (List Char), labels ≠ [] ∧ (∀ label ∈ labels, IsLabel label) ∧
    value = ['.'].intercalate labels

/-- The same, with at most one dot at the end. -/
def IsHostname (value : List Char) : Prop :=
  IsLabels value ∨ ∃ front, value = front ++ ['.'] ∧ IsLabels front

theorem IsLabel.dot_not_mem {label : List Char} (h : IsLabel label) : '.' ∉ label :=
  fun hdot => absurd (h.characters '.' hdot) (by decide)

theorem isLabels_of_isLabel {label : List Char} (h : IsLabel label) : IsLabels label :=
  ⟨[label], by simp, by simpa using h, by simp⟩

theorem IsLabels.cons {label rest : List Char} (hlabel : IsLabel label) (h : IsLabels rest) :
    IsLabels (label ++ '.' :: rest) := by
  obtain ⟨labels, hne, hlabels, rfl⟩ := h
  refine ⟨label :: labels, by simp, ?_, ?_⟩
  · exact List.forall_mem_cons.mpr ⟨hlabel, hlabels⟩
  · cases labels with
    | nil => exact absurd rfl hne
    | cons next labels => rw [List.intercalate_cons_cons, List.append_assoc, List.singleton_append]

/-- Names are built up from their last label. -/
theorem IsLabels.induction {P : List Char → Prop} {value : List Char} (h : IsLabels value)
    (hlast : ∀ label, IsLabel label → P label)
    (hcons : ∀ label rest, IsLabel label → P rest → P (label ++ '.' :: rest)) : P value := by
  obtain ⟨labels, hne, hlabels, rfl⟩ := h
  induction labels with
  | nil => exact absurd rfl hne
  | cons label labels ih =>
      obtain ⟨hlabel, hlabels⟩ := List.forall_mem_cons.mp hlabels
      cases labels with
      | nil =>
          rw [List.intercalate_singleton]
          exact hlast label hlabel
      | cons next labels =>
          rw [List.intercalate_cons_cons, List.append_assoc, List.singleton_append]
          exact hcons label _ hlabel (ih (by simp) hlabels)

/-- A name ends with a letter or a digit. -/
theorem IsLabels.exists_getLast {value : List Char} (h : IsLabels value) :
    ∃ c, value.getLast? = some c ∧ c.isAlphanum = true := by
  refine h.induction (P := fun value => ∃ c, value.getLast? = some c ∧ c.isAlphanum = true)
    (fun label hlabel => ?_) fun label rest _ hrest => ?_
  · cases hlast : label.getLast? with
    | none =>
        have hpos := hlabel.pos
        rw [List.getLast?_eq_none_iff.mp hlast] at hpos
        exact absurd hpos (by decide)
    | some c => exact ⟨c, rfl, hlabel.last c hlast⟩
  · obtain ⟨c, hlast, hc⟩ := hrest
    refine ⟨c, ?_, hc⟩
    simp [List.getLast?_cons, hlast]

theorem IsLabels.getLast_ne_dot {value : List Char} (h : IsLabels value) :
    value.getLast? ≠ some '.' := by
  obtain ⟨c, hlast, hc⟩ := h.exists_getLast
  rw [hlast]
  rintro ⟨⟩
  exact absurd hc (by decide)

/-! ## What the scan accepts -/

/-- What is accepted from the start of a label on. -/
inductive Scanned : List Char → Prop where
  | done : Scanned []
  | last {label : List Char} (isLabel : IsLabel label) : Scanned label
  | next {label rest : List Char} (isLabel : IsLabel label) (scanned : Scanned rest) :
      Scanned (label ++ '.' :: rest)

/-- There is one first dot. -/
theorem first_dot_inj {label label' rest rest' : List Char} (h : '.' ∉ label) (h' : '.' ∉ label')
    (heq : label ++ '.' :: rest = label' ++ '.' :: rest') : label = label' ∧ rest = rest' := by
  have htake : ∀ {label rest : List Char}, '.' ∉ label →
      (label ++ '.' :: rest).takeWhile (· != '.') = label := by
    intro label rest h
    rw [List.takeWhile_append_of_pos, List.takeWhile_cons_of_neg (by decide), List.append_nil]
    intro c hc
    rw [bne_iff_ne]
    rintro rfl
    exact h hc
  have hlabel := congrArg (List.takeWhile (· != '.')) heq
  rw [htake h, htake h'] at hlabel
  subst hlabel
  exact ⟨rfl, by simpa using heq⟩

/-- A part without a dot is a label. -/
theorem scanned_iff_isLabel {rest : List Char} (hne : rest ≠ []) (hdot : '.' ∉ rest) :
    Scanned rest ↔ IsLabel rest := by
  constructor
  · intro h
    cases h with
    | done => exact absurd rfl hne
    | last isLabel => exact isLabel
    | next isLabel scanned => exact absurd (by simp) hdot
  · exact .last

/-- A part with a dot starts with a label. -/
theorem scanned_append_iff {label rest : List Char} (hdot : '.' ∉ label) :
    Scanned (label ++ '.' :: rest) ↔ IsLabel label ∧ Scanned rest := by
  constructor
  · intro h
    generalize heq : label ++ '.' :: rest = value at h
    cases h with
    | done => simp at heq
    | last isLabel =>
        rw [← heq] at isLabel
        exact absurd (by simp) isLabel.dot_not_mem
    | next isLabel scanned =>
        obtain ⟨rfl, rfl⟩ := first_dot_inj hdot isLabel.dot_not_mem heq
        exact ⟨isLabel, scanned⟩
  · rintro ⟨hlabel, hrest⟩
    exact .next hlabel hrest

/-- **The scan accepts** names, with any or no dot at the end, and the empty text. -/
theorem scanned_iff {value : List Char} : Scanned value ↔ value = [] ∨ IsHostname value := by
  constructor
  · intro h
    induction h with
    | done => exact .inl rfl
    | last isLabel => exact .inr (.inl (isLabels_of_isLabel isLabel))
    | next isLabel scanned ih =>
        rename_i label rest
        right
        rcases ih with rfl | hrest | ⟨front, rfl, hfront⟩
        · exact .inr ⟨label, rfl, isLabels_of_isLabel isLabel⟩
        · exact .inl (hrest.cons isLabel)
        · refine .inr ⟨label ++ '.' :: front, ?_, hfront.cons isLabel⟩
          simp
  · rintro (rfl | h | ⟨front, rfl, h⟩)
    · exact .done
    · exact h.induction (fun _ => .last) fun _ _ hlabel hrest => .next hlabel hrest
    · refine h.induction (P := fun front => Scanned (front ++ ['.'])) (fun _ hlabel => ?_)
        fun label rest hlabel hrest => ?_
      · exact .next hlabel .done
      · rw [List.append_assoc, List.cons_append]
        exact .next hlabel hrest

/-! ## The loop -/

section Loop

variable {value : List Char} {start stop : Nat}

theorem isHostLabel_iff (hstart : start ≤ stop) (hstop : stop ≤ value.length) :
    isHostLabel value start stop = true ↔ IsLabel ((value.drop start).take (stop - start)) := by
  have hlength : ((value.drop start).take (stop - start)).length = stop - start := by
    rw [List.length_take, List.length_drop]
    omega
  have hhead : stop - start ≠ 0 →
      ((value.drop start).take (stop - start)).head? = value[start]? := by
    intro hne
    rw [List.head?_take, if_neg hne, List.head?_drop]
  have hlast : stop - start ≠ 0 →
      ((value.drop start).take (stop - start)).getLast? = value[stop - 1]? := by
    intro hne
    have hindex : start + (stop - start - 1) = stop - 1 := by omega
    have hlt : stop - 1 < value.length := by omega
    rw [List.getLast?_take, if_neg hne, List.getElem?_drop, hindex, List.getElem?_eq_getElem hlt,
      Option.some_or]
  unfold isHostLabel
  simp only [Bool.and_eq_true, bne_iff_ne, decide_eq_true_eq, Option.any_eq_true,
    List.all_eq_true]
  constructor
  · rintro ⟨⟨⟨⟨hne, hle⟩, c, hc, hfirst⟩, d, hd, hfinal⟩, hall⟩
    refine ⟨by omega, by omega, hall, fun c' hc' => ?_, fun d' hd' => ?_⟩
    · rw [hhead hne, hc] at hc'
      cases hc'
      exact hfirst
    · rw [hlast hne, hd] at hd'
      cases hd'
      exact hfinal
  · rintro ⟨hpos, hle, hall, hfirst, hfinal⟩
    have hne : stop - start ≠ 0 := by omega
    have hlt : start < value.length := by omega
    have hlt' : stop - 1 < value.length := by omega
    rw [hhead hne] at hfirst
    rw [hlast hne] at hfinal
    exact ⟨⟨⟨⟨hne, by omega⟩, _, List.getElem?_eq_getElem hlt,
      hfirst _ (List.getElem?_eq_getElem hlt)⟩, _, List.getElem?_eq_getElem hlt',
      hfinal _ (List.getElem?_eq_getElem hlt')⟩, hall⟩

/-- What the search for a dot finds. -/
theorem exists_first_dot {rest : List Char} {offset : Nat}
    (h : rest.findIdx? (· == '.') = some offset) :
    '.' ∉ rest.take offset ∧ rest = rest.take offset ++ '.' :: rest.drop (offset + 1) := by
  obtain ⟨hlt, hdot, hbefore⟩ := List.findIdx?_eq_some_iff_getElem.mp h
  rw [beq_iff_eq] at hdot
  constructor
  · intro hmem
    obtain ⟨j, hj, hget⟩ := List.mem_iff_getElem.mp hmem
    rw [List.length_take] at hj
    rw [List.getElem_take] at hget
    exact hbefore j (by omega) (by rw [hget]; rfl)
  · rw [← hdot, List.cons_getElem_drop_succ, List.take_append_drop]

/-- **The loop.**  A dot is found at the bound at the latest, unless the bound is the end of
the text. -/
theorem validateLabels_iff {bound : Nat} (hbound : bound ≤ value.length)
    (hdot : bound = value.length ∨ value[bound]? = some '.') (hstart : start ≤ bound) :
    validateLabels value bound start = true ↔ Scanned ((value.take bound).drop start) := by
  induction start using validateLabels.induct value bound with
  | case1 start hlt hfind =>
      have hnone : '.' ∉ value.drop start := fun hmem =>
        absurd (List.findIdx?_eq_none_iff.mp hfind '.' hmem) (by decide)
      have hend : bound = value.length := by
        refine hdot.resolve_right fun hget => hnone ?_
        refine List.mem_of_getElem? (i := bound - start) ?_
        rw [List.getElem?_drop, Nat.add_sub_cancel' hstart]
        exact hget
      have hrest : (value.take bound).drop start = value.drop start := by
        rw [hend, List.take_length]
      have hne : value.drop start ≠ [] := by
        rw [Ne, List.drop_eq_nil_iff]
        omega
      rw [validateLabels, dif_pos hlt, hfind]
      dsimp only
      rw [isHostLabel_iff hstart hbound, ← List.drop_take, hrest, scanned_iff_isLabel hne hnone]
  | case2 start hlt offset hfind ih =>
      obtain ⟨hnone, hsplit⟩ := exists_first_dot hfind
      have hoffset : offset < (value.drop start).length :=
        (List.findIdx?_eq_some_iff_findIdx_eq.mp hfind).1
      rw [List.length_drop] at hoffset
      have hlabel : start + offset - start = offset := Nat.add_sub_cancel_left _ _
      rw [validateLabels, dif_pos hlt, hfind]
      dsimp only
      rw [Bool.and_eq_true, isHostLabel_iff (Nat.le_add_right _ _) (by omega), hlabel,
        List.drop_take]
      by_cases hlast : bound ≤ start + offset
      · -- The dot that was found is the one at the bound.
        have hget : value[bound]? = some '.' := hdot.resolve_left (by omega)
        have hle : offset = bound - start := by
          by_contra hne
          refine hnone (List.mem_of_getElem? (i := bound - start) ?_)
          rw [List.getElem?_take, if_pos (by omega), List.getElem?_drop,
            Nat.add_sub_cancel' hstart]
          exact hget
        have hne : (value.drop start).take offset ≠ [] := by
          rw [Ne, List.take_eq_nil_iff, List.drop_eq_nil_iff]
          omega
        rw [← hle, scanned_iff_isLabel hne hnone]
        simp [hlast]
      · have hrest : (value.drop start).take (bound - start) =
            (value.drop start).take offset ++
              '.' :: (value.take bound).drop (start + offset + 1) := by
          have hlength : ((value.drop start).take offset).length = offset := by
            rw [List.length_take, List.length_drop]
            omega
          have hcount : bound - start - offset = bound - (start + offset + 1) + 1 := by omega
          conv_lhs => rw [hsplit]
          rw [List.take_append, hlength, hcount, List.take_succ_cons,
            List.take_of_length_le (by omega), List.drop_drop, List.drop_take, Nat.add_assoc]
        rw [hrest, scanned_append_iff hnone, ← ih (by omega)]
        simp [hlast]
  | case3 start hge =>
      have hnil : (value.take bound).drop start = [] := by
        rw [List.drop_eq_nil_iff, List.length_take]
        omega
      rw [validateLabels, dif_neg hge, hnil]
      exact ⟨fun _ => .done, fun _ => rfl⟩

end Loop

/-! ## The scan, with every access checked -/

/-- Where the scan is: at the start of a label, or at an end.  `outside` is an access outside
the text. -/
inductive Scan where
  | label (start : Nat)
  | accepted
  | rejected
  | outside
deriving DecidableEq, Repr

/-- The condition on a label, in the order of its parts; `none` is an access outside the text. -/
def readLabel (value : List Char) (start stop : Nat) : Option Bool :=
  if stop - start = 0 ∨ 63 < stop - start then some false
  else do
    let first ← value[start]?
    if first.isAlphanum = false then some false
    else do
      let last ← value[stop - 1]?
      if last.isAlphanum = false then some false
      else if value.length < stop then none
      else some (((value.drop start).take (stop - start)).all isLabelCharacter)

/-- What comes after a label has been looked at. -/
def Scan.after (next : Scan) : Option Bool → Scan
  | none => outside
  | some false => rejected
  | some true => next

/-- One round of the loop. -/
def Scan.step (value : List Char) (effectiveSize : Nat) : Scan → Scan
  | label start =>
      if start < effectiveSize then
        match (value.drop start).findIdx? (· == '.') with
        | none => after accepted (readLabel value start effectiveSize)
        | some offset =>
            after (if effectiveSize ≤ start + offset then accepted else label (start + offset + 1))
              (readLabel value start (start + offset))
      else accepted
  | scan => scan

/-- No access is outside the text. -/
theorem readLabel_eq {value : List Char} {start stop : Nat} (hstart : start ≤ stop)
    (hstop : stop ≤ value.length) :
    readLabel value start stop = some (isHostLabel value start stop) := by
  unfold readLabel isHostLabel
  by_cases hsize : stop - start = 0 ∨ 63 < stop - start
  · rw [if_pos hsize]
    rcases hsize with hsize | hsize
    · simp [hsize]
    · have hle : ¬stop - start ≤ 63 := by omega
      simp [hle]
  · rw [not_or] at hsize
    have hlt : start < value.length := by omega
    have hlt' : stop - 1 < value.length := by omega
    have hle : stop - start ≤ 63 := by omega
    rw [if_neg (not_or.mpr hsize), List.getElem?_eq_getElem hlt, List.getElem?_eq_getElem hlt']
    simp only [Option.bind_eq_bind, Option.bind_some, if_neg (Nat.not_lt.mpr hstop)]
    cases hfirst : (value[start]).isAlphanum with
    | false => simp [hfirst]
    | true =>
        cases hlast : (value[stop - 1]).isAlphanum with
        | false => simp [hlast]
        | true =>
            have hne : (stop - start != 0) = true := bne_iff_ne.mpr hsize.1
            simp only [hne, decide_eq_true hle, Option.any_some, hfirst, hlast, Bool.true_and,
              Bool.true_eq_false, if_false]
            rfl

/-- The two ends of the scan that are not `outside`. -/
def Scan.verdict (accepts : Bool) : Scan := if accepts then accepted else rejected

theorem Scan.step_verdict (value : List Char) (effectiveSize : Nat) (accepts : Bool) :
    step value effectiveSize (verdict accepts) = verdict accepts := by
  cases accepts with
  | true => rfl
  | false => rfl

/-- **The scan ends**, with the verdict of the loop. -/
theorem Scan.iterate_step {value : List Char} {bound start : Nat} (hbound : bound ≤ value.length)
    (hstart : start ≤ bound) :
    ∃ n, (step value bound)^[n] (label start) = verdict (validateLabels value bound start) := by
  induction start using validateLabels.induct value bound with
  | case1 start hlt hfind =>
      refine ⟨1, ?_⟩
      rw [validateLabels, dif_pos hlt, hfind, Function.iterate_one, step, if_pos hlt, hfind]
      dsimp only
      rw [readLabel_eq hstart hbound]
      cases isHostLabel value start bound with
      | true => rfl
      | false => rfl
  | case2 start hlt offset hfind ih =>
      have hoffset := (List.findIdx?_eq_some_iff_findIdx_eq.mp hfind).1
      rw [List.length_drop] at hoffset
      have hstep : step value bound (label start) =
          after (if bound ≤ start + offset then accepted else label (start + offset + 1))
            (some (isHostLabel value start (start + offset))) := by
        rw [step, if_pos hlt, hfind]
        dsimp only
        rw [readLabel_eq (Nat.le_add_right _ _) (by omega)]
      rw [validateLabels, dif_pos hlt, hfind]
      dsimp only
      cases hlabel : isHostLabel value start (start + offset) with
      | false =>
          refine ⟨1, ?_⟩
          rw [Function.iterate_one, hstep, hlabel]
          rfl
      | true =>
          by_cases hlast : bound ≤ start + offset
          · refine ⟨1, ?_⟩
            rw [Function.iterate_one, hstep, hlabel, if_pos hlast]
            simp [after, verdict, hlast]
          · obtain ⟨n, hn⟩ := ih (by omega)
            refine ⟨n + 1, ?_⟩
            rw [Function.iterate_succ_apply, hstep, hlabel, if_neg hlast]
            simpa [after, hlast] using hn
  | case3 start hge =>
      refine ⟨1, ?_⟩
      rw [validateLabels, dif_neg hge, Function.iterate_one, step, if_neg hge]
      rfl

/-- What ends well was never outside. -/
theorem Scan.iterate_ne_outside {value : List Char} {bound start : Nat} {accepts : Bool} {n : Nat}
    (h : (step value bound)^[n] (label start) = verdict accepts) (m : Nat) :
    (step value bound)^[m] (label start) ≠ outside := by
  intro hm
  have houtside : (step value bound)^[n + m] (label start) = outside := by
    rw [Function.iterate_add_apply, hm]
    exact Function.iterate_fixed rfl n
  rw [Nat.add_comm, Function.iterate_add_apply, h,
    Function.iterate_fixed (step_verdict value bound accepts)] at houtside
  cases accepts with
  | true => cases houtside
  | false => cases houtside

/-! ## Host names -/

/-- The length without a dot at the end. -/
def effectiveSize (cs : List Char) : Nat :=
  if cs.getLast? = some '.' then cs.length - 1 else cs.length

section Hostname

variable {cs : List Char}

theorem effectiveSize_concat (front : List Char) :
    effectiveSize (front ++ ['.']) = front.length := by
  simp [effectiveSize]

theorem validateHostname_eq_ok {value : String} (hne : value ≠ "") :
    validateHostname value = .ok () ↔
      effectiveSize value.toList ≠ 0 ∧
        validateLabels value.toList (effectiveSize value.toList) 0 = true := by
  unfold validateHostname
  split
  · rename_i hnil
    exact absurd (String.toList_inj.mp (hnil.trans (by decide))) hne
  · exact ite_error_eq_ok.trans (and_congr_right' ite_ok_eq_ok)

theorem effectiveSize_le (cs : List Char) : effectiveSize cs ≤ cs.length := by
  unfold effectiveSize
  split
  · exact Nat.sub_le _ _
  · exact le_rfl

/-- The bound is the end of the text, or there is a dot. -/
theorem effectiveSize_dot (cs : List Char) :
    effectiveSize cs = cs.length ∨ cs[effectiveSize cs]? = some '.' := by
  unfold effectiveSize
  split
  · rename_i hlast
    right
    rw [← hlast, List.getLast?_eq_getElem?]
  · exact .inl rfl

end Hostname

/-- Labels with two dots at the end. -/
def EndsTwice (value : List Char) : Prop := ∃ front, value = front ++ ['.', '.'] ∧ IsLabels front

section Dots

variable {front : List Char}

theorem isHostname_concat : IsHostname (front ++ ['.']) ↔ IsLabels front := by
  constructor
  · rintro (h | ⟨front', heq, h⟩)
    · exact absurd (by simp) h.getLast_ne_dot
    · obtain ⟨rfl, -⟩ := List.append_inj' heq rfl
      exact h
  · exact fun h => .inr ⟨front, rfl, h⟩

theorem endsTwice_concat :
    EndsTwice (front ++ ['.']) ↔ ∃ front', front = front' ++ ['.'] ∧ IsLabels front' := by
  refine exists_congr fun front' => and_congr_left' ⟨fun heq => ?_, ?_⟩
  · have hconcat : front ++ ['.'] = (front' ++ ['.']) ++ ['.'] := by simpa using heq
    exact (List.append_inj' hconcat rfl).1
  · rintro rfl
    simp

end Dots

/-- Two dots are no end of a name. -/
theorem EndsTwice.not_isHostname {value : List Char} (h : EndsTwice value) : ¬IsHostname value := by
  obtain ⟨front, rfl, -⟩ := h
  have hconcat : front ++ ['.', '.'] = (front ++ ['.']) ++ ['.'] := by simp
  rw [hconcat, isHostname_concat]
  exact fun h => h.getLast_ne_dot (by simp)

/-- What is accepted: names, and names with one more dot at the end. -/
theorem validateHostname_iff {value : String} (hne : value ≠ "") :
    validateHostname value = .ok () ↔ IsHostname value.toList ∨ EndsTwice value.toList := by
  have hcs : value.toList ≠ [] := fun hnil => hne (String.toList_inj.mp (hnil.trans (by decide)))
  rw [validateHostname_eq_ok hne,
    validateLabels_iff (effectiveSize_le _) (effectiveSize_dot _) (Nat.zero_le _), List.drop_zero,
    scanned_iff]
  generalize value.toList = cs at hcs
  by_cases hlast : cs.getLast? = some '.'
  · obtain ⟨front, rfl⟩ := List.getLast?_eq_some_iff.mp hlast
    rw [effectiveSize_concat, List.take_left, isHostname_concat, endsTwice_concat, IsHostname]
    have hne : IsLabels front → front.length ≠ 0 := by
      intro h hsize
      obtain ⟨c, hc, -⟩ := h.exists_getLast
      rw [List.length_eq_zero_iff.mp hsize] at hc
      cases hc
    constructor
    · rintro ⟨hsize, hnil | h⟩
      · exact absurd (List.length_eq_zero_iff.mpr hnil) hsize
      · exact h
    · intro h
      refine ⟨?_, .inr h⟩
      rcases h with h | ⟨front', rfl, -⟩
      · exact hne h
      · simp
  · have hsize : effectiveSize cs = cs.length := if_neg hlast
    rw [hsize, List.take_length, or_iff_right hcs,
      and_iff_right fun hzero => hcs (List.length_eq_zero_iff.mp hzero)]
    refine (or_iff_left ?_).symm
    rintro ⟨front, rfl, -⟩
    exact hlast (by simp)

/-- **Host names.**  `validateHostname` tells the DNS-style names and the empty text from other
texts, exactly if the text is not labels with two dots at the end.  Its scan ends with a verdict
for every text, and never reads outside of it. -/
theorem hostname_accepted_iff (value : String) :
    ((validateHostname value = .ok () ↔ value = "" ∨ IsHostname value.toList) ↔
      ¬EndsTwice value.toList) ∧
    (∃ n, (Scan.step value.toList (effectiveSize value.toList))^[n] (.label 0) =
      Scan.verdict (validateLabels value.toList (effectiveSize value.toList) 0)) ∧
    ∀ n, (Scan.step value.toList (effectiveSize value.toList))^[n] (.label 0) ≠ .outside := by
  obtain ⟨n, hn⟩ := Scan.iterate_step (effectiveSize_le value.toList) (Nat.zero_le _)
  refine ⟨?_, ⟨n, hn⟩, Scan.iterate_ne_outside hn⟩
  by_cases hne : value = ""
  · subst hne
    refine ⟨fun _ => ?_, fun _ => ⟨fun _ => .inl rfl, fun _ => rfl⟩⟩
    rintro ⟨front, heq, -⟩
    simp at heq
  · rw [validateHostname_iff hne, or_iff_right hne, or_iff_left_iff_imp]
    exact ⟨fun h htwice => htwice.not_isHostname (h htwice), fun h htwice => absurd htwice h⟩

/-- One letter. -/
theorem isLabel_sample : IsLabel ['a'] where
  pos := le_rfl
  le := by decide
  characters := by simp [isLabelCharacter]
  first := by simp
  last := by simp

theorem hostname_accepted_sample : validateHostname "a.a." = .ok () := by
  have hlabels : IsLabels ['a', '.', 'a'] :=
    (isLabels_of_isLabel isLabel_sample).cons isLabel_sample
  have hname : IsHostname "a.a.".toList := .inr ⟨['a', '.', 'a'], by decide, hlabels⟩
  exact ((hostname_accepted_iff "a.a.").1.mpr fun h => h.not_isHostname hname).mpr (.inr hname)

/-- A second dot at the end is accepted, and is not part of any name. -/
theorem two_dots_accepted : validateHostname "a.." = .ok () ∧ ¬IsHostname "a..".toList := by
  have htwice : EndsTwice "a..".toList := ⟨['a'], by decide, isLabels_of_isLabel isLabel_sample⟩
  exact ⟨(validateHostname_iff (by decide)).mpr (.inr htwice), htwice.not_isHostname⟩

end Ros1Tools.Adapter
