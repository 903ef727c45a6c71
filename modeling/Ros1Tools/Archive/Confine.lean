import Ros1Tools.Lib.Except
import Ros1Tools.Lib.FileTree
import Ros1Tools.Lib.Python

/-!
# The archive is not left

`requireArchivePath` decides whether a recording may write to a path.  It compares texts to
find the path below the operator's archive, and then looks at every part of the path in the
file system to find that none of them is a link.

Neither half is enough.  What the texts say of parts (`Spelled`) and what the walk says of
places (`Real`) meet in the parts of the directory: they lead below the archive, and links
followed or not, they lead to the same place.
-/

namespace Ros1Tools.Archive

open Lib Lib.PosixPath

/-- What ends the recorder. -/
inductive Stop where
  /-- `SystemExit`. -/
  | exit (message : String)
  /-- An exception of `os.lstat` that is not `FileNotFoundError`. -/
  | raised (errno : Errno)
  /-- The exception of `os.path.commonpath`. -/
  | valueError
deriving DecidableEq

/-- The loop over the parts of the inspected path. -/
def inspect (tree : FileTree) (playback : Bool) (path archive : Path) :
    Path → List Part → Except Stop Unit
  | _, [] => .ok ()
  | current, part :: rest =>
      let current := join current part
      match tree.lstat current with
      | .error .noEntry => .ok ()
      | .error errno => .error (.raised errno)
      | .ok kind =>
          if kind = .symlink then .error (.exit "ROS bag path component is a symlink")
          else if ¬(playback ∧ current = path ∧ current ≠ archive) ∧ kind ≠ .dir then
            .error (.exit "ROS bag path component must be a directory")
          else inspect tree playback path archive current rest

def experiments : Part := "Experiments".toList

/-- `os.path.join(user_root, "Experiments")`. -/
def archiveOf (userRoot : String) : Path := join userRoot.toList experiments

/-- Whether the text is an absolute path that `normpath` leaves alone. -/
def isClean (text : String) : Bool := isabs text.toList && normpath text.toList == text.toList

/-- `require_archive_path`, with the value of `XGC_USER_FILES_DIR`. -/
def requireArchivePath (userRoot : String) (tree : FileTree) (path : String) (playback : Bool) :
    Except Stop Unit :=
  if userRoot = "" ∨ !isClean userRoot ∨ userRoot = "/" then
    .error (.exit "XGC_USER_FILES_DIR must select a clean absolute operator archive")
  else if path = "" ∨ Python.strip path ≠ path ∨ !isClean path then
    .error (.exit "ROS bag path must be a clean absolute path")
  else if !playback ∧
      (endsInSlash path.toList ∨ basename path.toList ∈ [[], ['.'], ['.', '.']]) then
    .error (.exit "outputPrefix must end in a file name stem")
  else
    let inspected := if playback then path.toList else dirname path.toList
    match commonpath (archiveOf userRoot) inspected with
    | none => .error .valueError
    | some common =>
        if common ≠ archiveOf userRoot then
          .error (.exit "ROS bag path must be inside the operator Experiments archive")
        else inspect tree playback path.toList (archiveOf userRoot) ['/'] (split inspected).tail

/-! ## Places -/

section Places

variable {tree : FileTree} {place rest : List Part} {part : Part}

/-- On the way to the place there are directories, as far as there is anything. -/
def Real (tree : FileTree) (place : List Part) : Prop :=
  ∀ front, front <+: place → tree.IsDir front ∨ tree.lookup front = none

/-- The text of a place. -/
def textOf (place : List Part) : Path := if place = [] then ['/'] else spell place

theorem proper_experiments : Proper experiments := ⟨by decide, by decide, by decide, by decide⟩

theorem join_textOf (hplace : ∀ q ∈ place, Proper q) (hpart : Proper part) :
    join (textOf place) part = spell (place ++ [part]) := by
  by_cases hne : place = []
  · subst hne
    have hrelative : isabs part ≠ true := fun habs =>
      hpart.not_mem (List.mem_of_head? (beq_iff_eq.mp habs))
    rw [textOf, if_pos rfl, join, if_neg hrelative, if_pos (.inr rfl), List.nil_append,
      spell_singleton, List.singleton_append]
  · have hspelled : Spelled (spell place) false place := ⟨hplace, rfl⟩
    rw [textOf, if_neg hne, (hspelled.join hne hpart).eq]
    rfl

/-- Below directories, `lstat` tells what is there. -/
theorem lstat_spell (hproper : ∀ q ∈ place ++ [part], Proper q)
    (hdirs : ∀ front, front <+: place → tree.IsDir front)
    (hnull : (spell (place ++ [part])).contains '\x00' = false) :
    tree.lstat (spell (place ++ [part])) =
      (tree.lookup (place ++ [part])).elim (.error .noEntry) (.ok ·.kind) := by
  have hspelled : Spelled (spell (place ++ [part])) false (place ++ [part]) := ⟨hproper, rfl⟩
  have hplace : tree.follow true FileTree.maxLinks [] place = .ok place :=
    FileTree.follow_eq _ (fun q hq => hproper q (List.mem_append_left _ hq))
      fun front _ hfront => .inl (hdirs front hfront)
  rw [FileTree.lstat, hnull, hspelled.parts_eq, List.getLast?_concat, List.dropLast_concat, hplace,
    if_neg Bool.false_ne_true]
  dsimp only
  rw [ok_bind]
  cases tree.lookup (place ++ [part]) with
  | none => rfl
  | some node => rfl

/-- One turn of the loop, at a place below directories. -/
theorem inspect_cons {path archive : Path} (hplace : ∀ q ∈ place, Proper q) (hpart : Proper part)
    (hdirs : ∀ front, front <+: place → tree.IsDir front)
    (h : inspect tree false path archive (textOf place) (part :: rest) = .ok ()) :
    tree.lookup (place ++ [part]) = none ∨ tree.IsDir (place ++ [part]) ∧
      inspect tree false path archive (textOf (place ++ [part])) rest = .ok () := by
  have hproper : ∀ q ∈ place ++ [part], Proper q :=
    List.forall_mem_append.mpr ⟨hplace, List.forall_mem_singleton.mpr hpart⟩
  have htext : textOf (place ++ [part]) = spell (place ++ [part]) := if_neg (by simp)
  rw [inspect, join_textOf hplace hpart] at h
  cases hnull : (spell (place ++ [part])).contains '\x00' with
  | true =>
      rw [FileTree.lstat, hnull] at h
      cases h
  | false =>
      rw [lstat_spell hproper hdirs hnull] at h
      cases hnode : tree.lookup (place ++ [part]) with
      | none => exact .inl rfl
      | some node =>
          rw [hnode] at h
          cases node with
          | file => cases h
          | symlink target => cases h
          | dir entries =>
              refine .inr ⟨⟨entries, hnode⟩, ?_⟩
              rw [htext]
              exact h

/-- Nothing is below nothing. -/
theorem lookup_append_eq_none (h : tree.lookup place = none) (rest : List Part) :
    tree.lookup (place ++ rest) = none := by
  rw [FileTree.lookup, Node.lookup_append]
  exact congrArg (Option.bind · _) h

theorem isDir_nil (tree : FileTree) : tree.IsDir [] := ⟨tree.entries, rfl⟩

/-- What the loop says of all the places on the way. -/
theorem real_of_inspect {path archive : Path} (hplace : ∀ q ∈ place, Proper q)
    (hrest : ∀ q ∈ rest, Proper q) (hdirs : ∀ front, front <+: place → tree.IsDir front)
    (h : inspect tree false path archive (textOf place) rest = .ok ()) :
    Real tree (place ++ rest) := by
  induction rest generalizing place with
  | nil =>
      rw [List.append_nil]
      exact fun front hfront => .inl (hdirs front hfront)
  | cons part rest ih =>
      obtain ⟨hpart, hrest⟩ := List.forall_mem_cons.mp hrest
      have happend : place ++ part :: rest = place ++ [part] ++ rest := by simp
      rcases inspect_cons hplace hpart hdirs h with hnone | ⟨hdir, hnext⟩
      · -- the loop ends here, and there is nothing below
        intro front hfront
        rw [happend] at hfront
        rcases List.prefix_or_prefix_of_prefix hfront (List.prefix_append _ _) with
          hbefore | ⟨below, rfl⟩
        · rcases List.prefix_concat_iff.mp hbefore with rfl | hbefore
          · exact .inr hnone
          · exact .inl (hdirs front hbefore)
        · exact .inr (lookup_append_eq_none hnone below)
      · rw [happend]
        refine ih (List.forall_mem_append.mpr ⟨hplace, List.forall_mem_singleton.mpr hpart⟩)
          hrest ?_ hnext
        intro front hfront
        rcases List.prefix_concat_iff.mp hfront with rfl | hfront
        · exact hdir
        · exact hdirs front hfront

theorem inspect_nil_cons {path archive : Path} :
    inspect tree false path archive ['/'] ([] :: rest) =
      inspect tree false path archive ['/'] rest := by
  have hroot : tree.lstat ['/'] = .ok .dir := rfl
  have hjoin : join ['/'] [] = ['/'] := rfl
  rw [inspect, hjoin, hroot]
  exact (if_neg (by decide)).trans (if_neg (by simp))

/-- Links do not matter on the way to such a place. -/
theorem Real.realpath_eq (hreal : Real tree place) {path : Path} {slash : Bool}
    (h : Spelled path slash place) (links : Nat) : tree.realpath links path = .ok place := by
  have hfollow : tree.follow false links [] place = .ok place :=
    FileTree.follow_eq links h.proper fun front _ hfront =>
      (hreal front hfront).imp_right fun hnone => ⟨rfl, hnone⟩
  rw [FileTree.realpath, h.split_eq]
  cases slash with
  | false => exact (FileTree.follow_nil_cons links [] place).trans hfollow
  | true =>
      exact (FileTree.follow_nil_cons links [] ([] :: place)).trans
        ((FileTree.follow_nil_cons links [] place).trans hfollow)

theorem Real.of_isPrefix {front : List Part} (hreal : Real tree place) (h : front <+: place) :
    Real tree front := fun first hfirst => hreal first (hfirst.trans h)

end Places

/-! ## The texts -/

section Texts

variable {userRoot path : String}

/-- The parts of the archive. -/
theorem exists_spelled_archive (hclean : isClean userRoot = true) (hroot : userRoot ≠ "/") :
    ∃ slash ps, Spelled (archiveOf userRoot) slash (ps ++ [experiments]) ∧
      parts userRoot.toList = ps := by
  obtain ⟨habs, hnorm⟩ := Bool.and_eq_true_iff.mp hclean
  rcases exists_spelled habs (beq_iff_eq.mp hnorm) with hone | htwo | ⟨slash, ps, hne, hspelled⟩
  · exact absurd (String.toList_inj.mp hone) hroot
  · refine ⟨true, [], ⟨List.forall_mem_singleton.mpr proper_experiments, ?_⟩, ?_⟩
    · rw [archiveOf, htwo]
      rfl
    · rw [htwo]
      rfl
  · exact ⟨slash, ps, hspelled.join hne proper_experiments, hspelled.parts_eq⟩

/-- The parts of the directory, and the stem. -/
theorem exists_spelled_path (hclean : isClean path = true)
    (hstem : ¬(endsInSlash path.toList = true ∨
      basename path.toList ∈ [[], ['.'], ['.', '.']])) :
    ∃ slash ps stem, Spelled path.toList slash (ps ++ [stem]) := by
  obtain ⟨habs, hnorm⟩ := Bool.and_eq_true_iff.mp hclean
  rcases exists_spelled habs (beq_iff_eq.mp hnorm) with hone | htwo | ⟨slash, ps, hne, hspelled⟩
  · exact absurd (.inl (by rw [hone]; rfl)) hstem
  · exact absurd (.inl (by rw [htwo]; rfl)) hstem
  · obtain ⟨front, stem, rfl⟩ := (List.eq_nil_or_concat' ps).resolve_left hne
    exact ⟨slash, front, stem, hspelled⟩

end Texts

/-- What is checked before the file system is looked at. -/
theorem exists_directory {userRoot path : String} {tree : FileTree}
    (h : requireArchivePath userRoot tree path false = .ok ()) :
    ∃ slash ps stem, Spelled path.toList slash (ps ++ [stem]) ∧
      Spelled (archiveOf userRoot) false (parts userRoot.toList ++ [experiments]) ∧
      parts userRoot.toList ++ [experiments] <+: ps ∧
      inspect tree false path.toList (archiveOf userRoot) ['/'] (split (dirname path.toList)).tail =
        .ok () := by
  rw [requireArchivePath] at h
  split at h
  · cases h
  next hroot =>
    split at h
    · cases h
    next hpath =>
      split at h
      · cases h
      next hstem =>
        simp only [Bool.false_eq_true, if_false] at h
        split at h
        · cases h
        next common hcommon =>
          split at h
          · cases h
          next heq =>
            obtain ⟨-, hroot⟩ := not_or.mp hroot
            obtain ⟨hrootClean, hroot⟩ := not_or.mp hroot
            obtain ⟨-, hpath⟩ := not_or.mp hpath
            obtain ⟨-, hpathClean⟩ := not_or.mp hpath
            rw [Bool.not_eq_true', Bool.not_eq_false] at hrootClean hpathClean
            rw [Bool.not_false] at hstem
            obtain ⟨slash', us, harchive, rfl⟩ := exists_spelled_archive hrootClean hroot
            obtain ⟨slash, ps, stem, hspelled⟩ :=
              exists_spelled_path hpathClean fun hbad => hstem ⟨rfl, hbad⟩
            obtain rfl : common = archiveOf userRoot := not_not.mp heq
            obtain ⟨rfl, hbelow⟩ :=
              isPrefix_of_commonpath harchive hspelled.parts_dirname (by simp) hcommon
            exact ⟨slash, ps, stem, hspelled, harchive, hbelow, h⟩

/-- **A recording stays in the archive.**  The directory of the path is, with or without the
links on the way, a place at or below the archive; as far as it exists it consists of
directories; and creating a file in it changes nothing but what is below the archive, and the
directories that lead there. -/
theorem archive_path_confined {userRoot path : String} {tree : FileTree}
    (h : requireArchivePath userRoot tree path false = .ok ()) :
    ∃ directory : List Part,
      (∀ links, tree.realpath links (dirname path.toList) = .ok directory) ∧
      (∀ links, tree.realpath links (archiveOf userRoot) =
        .ok (parts userRoot.toList ++ [experiments])) ∧
      parts userRoot.toList ++ [experiments] <+: directory ∧
      (∀ front, front <+: directory → tree.IsDir front ∨ tree.lookup front = none) ∧
      Proper (basename path.toList) ∧
      ∀ links (name : Part), Proper name →
        ∃ after, tree.create links (join (dirname path.toList) name) = .ok after ∧
          ∀ place, ¬parts userRoot.toList ++ [experiments] <+: place →
            ¬place <+: parts userRoot.toList ++ [experiments] →
            after.lookup place = tree.lookup place := by
  obtain ⟨slash, ps, stem, hpath, harchive, hbelow, hinspect⟩ := exists_directory h
  have hne : ps ≠ [] := by
    rintro rfl
    exact absurd (List.prefix_nil.mp hbelow) (by simp)
  have hdirectory := hpath.dirname_concat hne
  have hwalk : inspect tree false path.toList (archiveOf userRoot) (textOf []) ps = .ok () := by
    rw [hdirectory.split_eq] at hinspect
    cases slash with
    | false => exact hinspect
    | true => exact inspect_nil_cons.symm.trans hinspect
  have hreal : Real tree ps :=
    real_of_inspect (List.forall_mem_nil _) hdirectory.proper
      (fun front hfront => List.prefix_nil.mp hfront ▸ isDir_nil tree) hwalk
  refine ⟨ps, hreal.realpath_eq hdirectory, (hreal.of_isPrefix hbelow).realpath_eq harchive, hbelow,
    hreal, ?_, fun links name hname => ?_⟩
  · rw [hpath.basename_concat]
    exact hpath.proper stem (List.mem_append_right _ List.mem_cons_self)
  · have hfile := hdirectory.join hne hname
    refine ⟨.insert .file (ps ++ [name]) tree.root, ?_, fun place hplace habove => ?_⟩
    · rw [FileTree.create, hreal.realpath_eq (hfile.dirname_concat hne), hfile.basename_concat]
      rfl
    · have hfar := hbelow.trans (List.prefix_append ps [name])
      refine Node.lookup_insert_of_apart (fun hplace' => hplace (hfar.trans hplace'))
        fun hplace' => ?_
      exact (List.prefix_or_prefix_of_prefix hfar hplace').elim hplace habove

/-- An archive without recordings, and a link that leads out of it. -/
def sampleTree : FileTree :=
  ⟨[("data".toList, .dir [("Experiments".toList, .dir
    [("old".toList, .symlink "/etc".toList)])]), ("etc".toList, .dir [])]⟩

theorem archive_path_confined_new :
    ∃ directory : List Part,
      (∀ links, sampleTree.realpath links (dirname "/data/Experiments/run/trial".toList) =
        .ok directory) ∧
      ["data".toList, "Experiments".toList] <+: directory := by
  have hreturns : requireArchivePath "/data" sampleTree "/data/Experiments/run/trial" false =
      .ok () := by decide +kernel
  obtain ⟨directory, hreal, -, hbelow, -⟩ := archive_path_confined hreturns
  exact ⟨directory, hreal, hbelow⟩

example : requireArchivePath "/data" sampleTree "/data/Experiments/old/trial" false =
    .error (.exit "ROS bag path component is a symlink") := by decide +kernel

end Ros1Tools.Archive
