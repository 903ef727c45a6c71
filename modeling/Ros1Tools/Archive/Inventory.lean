import Mathlib.Data.List.Sort
import Ros1Tools.Archive.Resume

/-!
# The inventory of a finalized record

A manifest that says `finalized` lists exactly the bag files of the directory.  This does not
rest on where the run has started: the document may be new or read back from disk, its segments
may be any, and the directory may hold anything.  What counts is what the run itself has checked:
the first loop leaves every segment under its issued name, later rounds touch other names only,
and the second loop refuses a directory with any other closed bag file.

No manifest issues a finalized file before.
-/

namespace Ros1Tools.Archive

open Lib Lib.Faulty

/-! ## What a manifest issues -/

/-- The identity of an entry.  Only a finalized file has one. -/
def BagFile.id? : BagFile → Option String
  | .partialBag _ _ => none
  | .finalized id _ _ => some id

/-- The entry of a segment. -/
def Recorder.issue (r : Recorder) (seg : Segment) : BagFile :=
  r.finalizedBag seg.index seg.name seg.sizeBytes

/-- The manifest lists the bag files of the directory, each once, and nothing else. -/
structure Inventory (r : Recorder) (pinned : List Segment) (fs : FileSystem)
    (manifest : Manifest) : Prop where
  segments : manifest.archiveSegments = some pinned
  bagFiles : ∃ ordered : List Segment, ordered.Perm pinned ∧
    ordered.Pairwise (fun a b => a.index < b.index) ∧
      manifest.bagFiles = partialBags fs (r.recordedNames fs.directory) ++ ordered.map r.issue
  active : ∀ name ∈ r.recordedNames fs.directory, isActive name = true →
    ∃ info, fs.lstat name = some info ∧ .partialBag name info.sizeBytes ∈ manifest.bagFiles
  names : (manifest.bagFiles.map BagFile.name).Nodup
  ids : (manifest.bagFiles.filterMap BagFile.id?).Nodup
  denotes : ∀ seg ∈ pinned, fs.lstat seg.name = some ⟨true, seg.file, seg.sizeBytes⟩
  native : ∀ index, fs.directory[r.nativeName index]? = none
  others : ∀ name ∈ r.recordedNames fs.directory, name ∈ manifest.bagFiles.map BagFile.name

/-- Only a finalized manifest issues finalized files, and its inventory is exact. -/
structure Issues (r : Recorder) (pinned : List Segment) (fs : FileSystem)
    (manifest : Manifest) : Prop where
  finalized : ∀ id name size, .finalized id name size ∈ manifest.bagFiles →
    manifest.archiveFinalizationState = some .finalized
  exact : manifest.archiveFinalizationState = some .finalized → Inventory r pinned fs manifest

/-- A manifest that issues nothing. -/
structure Unissued (manifest : Manifest) : Prop where
  state : manifest.archiveFinalizationState ≠ some .finalized
  bagFiles : ∀ entry ∈ manifest.bagFiles, entry.id? = none

section

variable {r : Recorder} {pinned : List Segment} {fs fs' before : FileSystem} {manifest : Manifest}
  {s : Session}

theorem Unissued.issues (h : Unissued manifest) : Issues r pinned fs manifest where
  finalized _ _ _ hmem := absurd (h.bagFiles _ hmem) nofun
  exact hstate := absurd hstate h.state

theorem unissued_pending (manifest : Manifest) : Unissued manifest.pending where
  state := by simp [Manifest.pending]
  bagFiles := by simp [Manifest.pending]

theorem id?_of_mem_partialBags {names : List String} {entry : BagFile}
    (h : entry ∈ partialBags fs names) : entry.id? = none := by
  obtain ⟨name, -, hname⟩ := List.mem_filterMap.mp h
  split at hname
  · obtain ⟨info, -, rfl⟩ := Option.map_eq_some_iff.mp hname
    rfl
  · cases hname

/-! ## Moving a volume, from any directory -/

/-- Any system call may raise, and the process may stop anywhere. -/
abbrev anyFate : Fate PyException → Prop := fun _ => True

theorem excused_anyFate : Excused anyFate r before := fun _ => ⟨.osError "", trivial⟩

/-- At most two names have changed, and no file. -/
structure Touched (source destination : String) (fs fs' : FileSystem) : Prop where
  files : fs'.files = fs.files
  others : ∀ name, name ≠ source → name ≠ destination →
    fs'.directory[name]? = fs.directory[name]?

variable {P : Session → Prop} {source destination : String} {id : FileId}

/-- The name is new, or it was a name of this very file. -/
theorem wp_linkOrResume {R : Unit → Session → Prop} (hP : P s) (hne : source ≠ destination)
    (hsource : s.disk.directory[source]? = some id)
    (hR : ∀ fs : FileSystem, Touched source destination s.disk.toFileSystem fs →
      fs.directory[source]? = some id → fs.directory[destination]? = some id →
        R () (s.update fs)) :
    Wp anyFate (tryCatch (r.link source destination) (r.resumeLink (s.disk.info id) destination))
      (ends anyFate r before P R) s := by
  refine Wp.tryCatch (F := fun _ s' => s = s') ?_ ?_
  · refine Wp.atomic (fun _ s' hok => ?_) (fun _ _ => rfl) (fun _ _ => rfl)
      fun hcrash => ⟨hP, hcrash⟩
    rw [hsource] at hok
    simp only at hok
    split at hok
    · cases hok
    · cases hok
      refine hR _ ⟨rfl, fun name _ hname => FileSystem.addName_of_ne hname.symm⟩ ?_
        FileSystem.addName_same
      exact (FileSystem.addName_of_ne hne.symm).trans hsource
  · rintro e _ rfl
    unfold Recorder.resumeLink
    split
    · refine Wp.bind (R := fun info s' => s = s' ∧
        ∃ id', s.disk.directory[destination]? = some id' ∧ info = s.disk.info id')
        (wp_lstat hP (fun id' hid' => ⟨rfl, id', hid', rfl⟩) fun _ => excused_anyFate) ?_
      rintro _ _ ⟨rfl, id', hid', rfl⟩
      refine wp_require hP (fun hsame => ?_) fun _ => excused_anyFate
      refine hR s.disk.toFileSystem ⟨rfl, fun _ _ _ => rfl⟩ hsource ?_
      rw [hid', show id' = id from hsame.2.symm]
    · exact Wp.throw ⟨hP, excused_anyFate⟩

variable (hP : ∀ fs, P (s.update fs))
include hP

theorem wp_moveClosed {R : Unit → Session → Prop} (hne : source ≠ destination)
    (hR : ∀ fs, Touched source destination s.disk.toFileSystem fs → R () (s.update fs)) :
    Wp anyFate (r.moveClosedWithoutReplacement source destination)
      (ends anyFate r before P R) s := by
  have hs : P s := hP s.disk.toFileSystem
  unfold Recorder.moveClosedWithoutReplacement
  refine Wp.bind (R := fun info s' => s = s' ∧
    ∃ id, s.disk.directory[source]? = some id ∧ info = s.disk.info id)
    (wp_lstat hs (fun id hid => ⟨rfl, id, hid, rfl⟩) fun _ => excused_anyFate) ?_
  rintro _ _ ⟨rfl, id, hsource, rfl⟩
  refine Wp.bind_eq (wp_require hs (fun _ => rfl) fun _ => excused_anyFate) fun _ => ?_
  refine Wp.bind_eq (wp_lstat hs (fun _ _ => rfl) fun _ => excused_anyFate) fun _ => ?_
  refine Wp.bind_eq (wp_require hs (fun _ => rfl) fun _ => excused_anyFate) fun _ => ?_
  refine Wp.bind_eq (wp_sync hs rfl) fun _ => ?_
  refine Wp.bind (R := fun _ s' => ∃ fs, s.update fs = s' ∧
    Touched source destination s.disk.toFileSystem fs ∧ fs.directory[source]? = some id ∧
      fs.directory[destination]? = some id)
    (wp_linkOrResume hs hne hsource fun fs htouched hfrom hto => ⟨fs, rfl, htouched, hfrom, hto⟩) ?_
  rintro _ _ ⟨fs, rfl, htouched, hfrom, hto⟩
  refine Wp.bind_eq (wp_sync (hP fs) rfl) fun _ => ?_
  refine Wp.bind_eq (wp_unlink (hP fs) hfrom rfl) fun _ => ?_
  refine wp_sync (hP _) (hR _ ⟨?_, fun name hname hname' => ?_⟩)
  · -- The file has the other name left.
    exact (FileSystem.files_removeName hne hto).trans htouched.files
  · exact (FileSystem.removeName_of_ne hname.symm).trans (htouched.others name hname hname')

theorem wp_moveFound_any {R : Unit → Session → Prop} {seg : Segment} (hne : source ≠ destination)
    (hR : ∀ fs, Touched source destination s.disk.toFileSystem fs → R () (s.update fs)) :
    Wp anyFate (r.moveFound seg source destination) (ends anyFate r before P R) s := by
  have hs : P s := hP s.disk.toFileSystem
  unfold Recorder.moveFound
  refine Wp.bind_eq (wp_lexists hs (fun _ _ => rfl) fun _ => rfl) fun found => ?_
  split
  · refine Wp.bind_eq (wp_lstat hs (fun _ _ => rfl) fun _ => excused_anyFate) fun _ => ?_
    refine Wp.bind_eq (wp_require hs (fun _ => rfl) fun _ => excused_anyFate) fun _ => ?_
    exact wp_moveClosed hP hne hR
  · exact Wp.pure (hR s.disk.toFileSystem ⟨rfl, fun _ _ _ => rfl⟩)

end

/-! ## The loop over the segments -/

/-- The segments that have been treated are found under their issued names. -/
structure Placed (r : Recorder) (count : Nat) (doc : Manifest) (treated : List Segment)
    (entries : ByIndex) (s : Session) : Prop where
  manifest : s.disk.manifest = some doc
  document : s.document = doc
  byIndex : entries = r.byIndex treated
  distinct : treated.Pairwise fun a b => a.index ≠ b.index
  name : ∀ seg ∈ treated, seg.name = r.issuedBagName seg.index count
  denotes : ∀ seg ∈ treated, s.disk.lstat seg.name = some ⟨true, seg.file, seg.sizeBytes⟩

/-- The manifest on disk and the document of a run that has issued nothing. -/
structure Pending (doc : Manifest) (pinned : List Segment) (s : Session) : Prop where
  manifest : s.disk.manifest = some doc
  document : Unissued s.document
  segments : s.document.archiveSegments = some pinned

section Loops

variable {r : Recorder} {before : FileSystem} {doc : Manifest} {pinned treated : List Segment}
  {entries : ByIndex} {s : Session} {seg : Segment} {count : Nat}

theorem Touched.lstat {source destination name : String} {fs fs' : FileSystem}
    (h : Touched source destination fs fs') (hsource : name ≠ source)
    (hdestination : name ≠ destination) : fs'.lstat name = fs.lstat name := by
  have hinfo : fs'.info = fs.info := by
    funext id
    rw [FileSystem.info, FileSystem.info, h.files]
  rw [FileSystem.lstat, FileSystem.lstat, h.others name hsource hdestination, hinfo]

/-- Treating one more segment touches names of its own index only. -/
theorem Placed.concat (h : Placed r count doc treated entries s) {fs : FileSystem}
    (htouched : Touched (r.nativeName seg.index) (r.issuedBagName seg.index count)
      s.disk.toFileSystem fs)
    (hnew : seg.index ∉ entries) (hname : seg.name = r.issuedBagName seg.index count)
    (hdenotes : fs.lstat seg.name = some ⟨true, seg.file, seg.sizeBytes⟩) :
    Placed r count doc (treated ++ [seg]) (entries.insert seg.index (r.issue seg))
      (s.update fs) := by
  have hindex : ∀ seg' ∈ treated, seg'.index ≠ seg.index := by
    intro seg' hmem heq
    refine hnew (Std.ExtTreeMap.mem_iff_isSome_getElem?.mpr ?_)
    rw [h.byIndex, ← heq, Recorder.byIndex_of_mem hmem h.distinct]
    rfl
  refine ⟨h.manifest, h.document, ?_, ?_, ?_, ?_⟩
  · rw [Recorder.byIndex_concat, ← h.byIndex]
    rfl
  · refine List.pairwise_append.mpr ⟨h.distinct, List.pairwise_singleton _ _, ?_⟩
    exact fun seg' hmem _ hlast => List.mem_singleton.mp hlast ▸ hindex seg' hmem
  · exact List.forall_mem_append.mpr ⟨h.name, List.forall_mem_singleton.mpr hname⟩
  · refine List.forall_mem_append.mpr ⟨fun seg' hmem => ?_, List.forall_mem_singleton.mpr hdenotes⟩
    refine (htouched.lstat ?_ ?_).trans (h.denotes seg' hmem)
    · exact h.name seg' hmem ▸ r.issuedBagName_ne_nativeName _ _ _
    · exact fun heq => hindex seg' hmem
        (r.issuedBagName_injective ((h.name seg' hmem).symm.trans heq))

/-- **One round of the first loop**, for any segment. -/
theorem wp_finalizeSegment_any (hdoc : Unissued doc) (hpinned : doc.archiveSegments = some pinned)
    (h : Placed r count doc treated entries s) :
    Wp anyFate (r.finalizeSegment count entries seg)
      (ends anyFate r before (Pending doc pinned) (Placed r count doc (treated ++ [seg]))) s := by
  have hP : ∀ fs, Pending doc pinned (s.update fs) := fun fs =>
    ⟨h.manifest, h.document.symm ▸ hdoc, h.document.symm ▸ hpinned⟩
  have hs : Pending doc pinned s := hP s.disk.toFileSystem
  unfold Recorder.finalizeSegment
  refine Wp.bind (R := fun _ s' => s = s' ∧ seg.name = r.issuedBagName seg.index count ∧
    seg.index ∉ entries) (wp_require hs (fun hvalid => ⟨rfl, hvalid.2⟩) fun _ => excused_anyFate) ?_
  rintro _ _ ⟨rfl, hname, hnew⟩
  refine Wp.bind (wp_moveFound_any (R := fun _ s' => ∃ fs, s.update fs = s' ∧
    Touched (r.nativeName seg.index) (r.issuedBagName seg.index count) s.disk.toFileSystem fs) hP
    (r.issuedBagName_ne_nativeName _ _ _).symm fun fs htouched => ⟨fs, rfl, htouched⟩) ?_
  rintro _ _ ⟨fs, rfl, htouched⟩
  refine Wp.bind (R := fun info s' => s.update fs = s' ∧
      fs.lstat (r.issuedBagName seg.index count) = some info)
    (wp_lstat (hP fs) (fun id hid => ⟨rfl, FileSystem.lstat_of_some hid⟩)
      fun _ => excused_anyFate) ?_
  rintro info _ ⟨rfl, hinfo⟩
  refine Wp.bind (R := fun _ s' => s.update fs = s' ∧ info = ⟨true, seg.file, seg.sizeBytes⟩)
    (wp_require (hP fs) (fun hvalid => ⟨rfl, ?_⟩) fun _ => excused_anyFate) ?_
  · obtain ⟨isRegular, id, sizeBytes⟩ := info
    obtain ⟨hregular, hidentity⟩ := hvalid
    obtain ⟨rfl, rfl⟩ := Prod.mk.inj hidentity
    obtain rfl : isRegular = true := hregular
    rfl
  rintro _ _ ⟨rfl, rfl⟩
  refine Wp.pure ?_
  rw [← hname] at hinfo ⊢
  exact h.concat htouched hnew hname hinfo

/-! ## The loop over the inventory -/

/-- The names that have been inspected are open volumes, which are listed, or expected. -/
structure Listed (r : Recorder) (doc : Manifest) (seen : Disk) (expected names : List String)
    (s : Session) : Prop where
  disk : s.disk = seen
  document : s.document = { doc with bagFiles := partialBags seen.toFileSystem names }
  expected : ∀ name ∈ names, isActive name = false → name ∈ expected

variable {seen : Disk} {expected names : List String}

theorem Listed.pending (h : Listed r doc seen expected names s) (hdoc : Unissued doc)
    (hpinned : doc.archiveSegments = some pinned) (hmanifest : seen.manifest = some doc) :
    Pending doc pinned s where
  manifest := by rw [h.disk, hmanifest]
  document := by
    rw [h.document]
    exact ⟨hdoc.state, fun _ => id?_of_mem_partialBags⟩
  segments := by rw [h.document]; exact hpinned

/-- **One round of the second loop**, for any name that is found. -/
theorem wp_inspect_any (hdoc : Unissued doc) (hpinned : doc.archiveSegments = some pinned)
    (hmanifest : seen.manifest = some doc) (h : Listed r doc seen expected names s)
    {name : String} :
    Wp anyFate (r.inspect expected name) (ends anyFate r before (Pending doc pinned)
      fun _ => Listed r doc seen expected (names ++ [name])) s := by
  have hs := h.pending hdoc hpinned hmanifest
  obtain ⟨hdisk, hdocument, hexpected⟩ := h
  unfold Recorder.inspect
  refine Wp.bind (R := fun info s' => s = s' ∧
      ∃ id, seen.directory[name]? = some id ∧ info = seen.info id)
    (wp_lstat hs (fun id hid => ⟨rfl, id, hdisk ▸ hid, hdisk ▸ rfl⟩) fun _ => excused_anyFate) ?_
  rintro _ _ ⟨rfl, id, hid, rfl⟩
  refine Wp.bind_eq (wp_require hs (fun _ => rfl) fun _ => excused_anyFate) fun _ => ?_
  by_cases hactive : isActive name = true
  · rw [if_pos hactive]
    refine Wp.modify ⟨hdisk, ?_, List.forall_mem_append.mpr ⟨hexpected, ?_⟩⟩
    · rw [partialBags_concat hid, if_pos hactive, hdocument]
    · exact List.forall_mem_singleton.mpr fun hclosed => absurd hactive (by simp [hclosed])
  · rw [if_neg hactive]
    refine wp_require hs (fun hmem => ?_) fun _ => excused_anyFate
    refine ⟨hdisk, ?_, List.forall_mem_append.mpr ⟨hexpected, ?_⟩⟩
    · rw [partialBags_concat hid, if_neg hactive, List.append_nil, hdocument]
    · exact List.forall_mem_singleton.mpr fun _ => hmem

end Loops

/-! ## The entries, in order -/

/-- The segments in the order of their indices. -/
def ordered (segments : List Segment) : List Segment :=
  segments.insertionSort fun a b => a.index ≤ b.index

section Order

variable {r : Recorder} {fs : FileSystem} {pinned : List Segment}

theorem perm_ordered (segments : List Segment) : (ordered segments).Perm segments :=
  List.perm_insertionSort _ _

variable (hdistinct : pinned.Pairwise fun a b => a.index ≠ b.index)
include hdistinct

theorem pairwise_ordered : (ordered pinned).Pairwise fun a b => a.index < b.index := by
  have hle : (ordered pinned).Pairwise fun a b => a.index ≤ b.index :=
    List.pairwise_insertionSort _ _
  have hne : (ordered pinned).Pairwise fun a b => a.index ≠ b.index :=
    (perm_ordered pinned).symm.pairwise hdistinct fun h => h.symm
  exact hle.imp₂ (fun _ _ hle hne => lt_of_le_of_ne hle hne) hne

/-- `by_index[index] for index in sorted(by_index)`. -/
theorem entries_byIndex : (r.byIndex pinned).entries = (ordered pinned).map r.issue := by
  have htoList : (r.byIndex pinned).toList =
      (ordered pinned).map fun seg => (seg.index, r.issue seg) := by
    have hkeys : (r.byIndex pinned).toList.Pairwise fun a b => a.1 < b.1 :=
      Std.ExtTreeMap.ordered_keys_toList.imp Nat.compare_eq_lt.mp
    have hordered : ((ordered pinned).map fun seg => (seg.index, r.issue seg)).Pairwise
        fun a b => a.1 < b.1 := List.pairwise_map.mpr (pairwise_ordered hdistinct)
    refine List.Perm.eq_of_pairwise (fun a b _ _ hab hba => absurd hab (lt_asymm hba)) hkeys
      hordered ((List.perm_ext_iff_of_nodup ?_ ?_).mpr fun entry => ?_)
    · exact hkeys.imp fun hlt heq => absurd (congrArg Prod.fst heq) (ne_of_lt hlt)
    · exact hordered.imp fun hlt heq => absurd (congrArg Prod.fst heq) (ne_of_lt hlt)
    · obtain ⟨index, bag⟩ := entry
      rw [Std.ExtTreeMap.mem_toList_iff_getElem?_eq_some, List.mem_map]
      constructor
      · intro h
        obtain ⟨seg, hseg, rfl, rfl⟩ := Recorder.getElem?_byIndex h
        exact ⟨seg, (perm_ordered pinned).mem_iff.mpr hseg, rfl⟩
      · rintro ⟨seg, hseg, ⟨⟩⟩
        exact Recorder.byIndex_of_mem ((perm_ordered pinned).mem_iff.mp hseg) hdistinct
  rw [ByIndex.entries, htoList, List.map_map]
  rfl

end Order

theorem filterMap_id?_partialBags (fs : FileSystem) (names : List String) :
    (partialBags fs names).filterMap BagFile.id? = [] :=
  List.filterMap_eq_nil_iff.mpr fun _ => id?_of_mem_partialBags

theorem mem_names_partialBags {fs : FileSystem} {names : List String} {name : String}
    (h : name ∈ (partialBags fs names).map BagFile.name) : isActive name = true ∧ name ∈ names := by
  obtain ⟨entry, hentry, rfl⟩ := List.mem_map.mp h
  obtain ⟨name, hname, hbag⟩ := List.mem_filterMap.mp hentry
  split at hbag
  · rename_i hactive
    obtain ⟨info, -, rfl⟩ := Option.map_eq_some_iff.mp hbag
    exact ⟨hactive, hname⟩
  · cases hbag

theorem nodup_names_partialBags {fs : FileSystem} {names : List String} (h : names.Nodup) :
    ((partialBags fs names).map BagFile.name).Nodup := by
  induction names with
  | nil => exact List.nodup_nil
  | cons name names ih =>
      obtain ⟨hname, hnames⟩ := List.nodup_cons.mp h
      rw [partialBags, List.filterMap_cons]
      split
      · exact ih hnames
      · rename_i entry hentry
        refine List.nodup_cons.mpr ⟨fun hmem => hname ?_, ih hnames⟩
        split at hentry
        · obtain ⟨info, -, rfl⟩ := Option.map_eq_some_iff.mp hentry
          exact (mem_names_partialBags hmem).2
        · cases hentry

/-- Distinct numbers make distinct identities. -/
theorem Recorder.id_injective (r : Recorder) {i j : Nat}
    (h : "bag." ++ r.recordingId ++ "." ++ toString i =
      "bag." ++ r.recordingId ++ "." ++ toString j) : i = j := by
  have htext := congrArg String.toList (String.append_right_inj _ |>.mp h)
  rw [toList_toString_nat, toList_toString_nat] at htext
  have hvalue := congrArg (fun digits => Nat.ofDigitChars 10 digits 0) htext
  simpa only [Nat.ofDigitChars_ten_toDigits] using hvalue

/-! ## Finalizing -/

section Finalize

variable {r : Recorder} {before : FileSystem} {doc : Manifest} {pinned : List Segment}
  {seen : Disk} {s : Session} {start : Option Manifest}

/-- **What both loops have accepted is an exact inventory.** -/
theorem inventory_of_loops {entries : ByIndex}
    (hplaced : Placed r pinned.length doc pinned entries ⟨seen, doc⟩)
    (hlisted : Listed r doc seen (entries.entries.map BagFile.name)
      (r.recordedNames seen.directory) s)
    (hpinned : doc.archiveSegments = some pinned) :
    Inventory r pinned seen.toFileSystem (s.document.finalized entries.entries) := by
  have hentries : entries.entries = (ordered pinned).map r.issue := by
    rw [hplaced.byIndex, entries_byIndex hplaced.distinct]
  have hbags : (s.document.finalized entries.entries).bagFiles =
      partialBags seen.toFileSystem (r.recordedNames seen.directory) ++
        (ordered pinned).map r.issue := by
    rw [Manifest.finalized, hlisted.document, hentries]
  have hissued : ((ordered pinned).map r.issue).map BagFile.name =
      (ordered pinned).map Segment.name := by
    rw [List.map_map]
    rfl
  have hname : ∀ seg ∈ ordered pinned, seg.name = r.issuedBagName seg.index pinned.length :=
    fun seg hseg => hplaced.name seg ((perm_ordered pinned).mem_iff.mp hseg)
  have hactive : ∀ name ∈ (ordered pinned).map Segment.name, isActive name = false := by
    refine List.forall_mem_map.mpr fun seg hseg => ?_
    rw [hname seg hseg]
    exact r.isActive_issuedBagName _ _
  -- A closed name that passed the second loop was issued in the first.
  have hclosed : ∀ name ∈ r.recordedNames seen.directory, isActive name = false →
      name ∈ (ordered pinned).map Segment.name := by
    intro name hmem hnot
    have h := hlisted.expected name hmem hnot
    rwa [hentries, hissued] at h
  have hopen : ∀ name ∈ r.recordedNames seen.directory, isActive name = true →
      ∃ info, seen.lstat name = some info ∧ .partialBag name info.sizeBytes ∈
        partialBags seen.toFileSystem (r.recordedNames seen.directory) := by
    intro name hmem hyes
    obtain ⟨⟨id, hid⟩, -⟩ := mem_recordedNames.mp hmem
    refine ⟨_, FileSystem.lstat_of_some hid, List.mem_filterMap.mpr ⟨name, hmem, ?_⟩⟩
    rw [if_pos hyes, FileSystem.lstat_of_some hid]
    rfl
  refine ⟨?_, ⟨ordered pinned, perm_ordered pinned, pairwise_ordered hplaced.distinct, hbags⟩,
    fun name hmem hyes => ?_, ?_, ?_, fun seg hseg => hplaced.denotes seg hseg, fun index => ?_,
    fun name hmem => ?_⟩
  · rw [Manifest.finalized, hlisted.document]
    exact hpinned
  · obtain ⟨info, hinfo, hbag⟩ := hopen name hmem hyes
    exact ⟨info, hinfo, hbags ▸ List.mem_append_left _ hbag⟩
  · rw [hbags, List.map_append, hissued, List.nodup_append]
    refine ⟨nodup_names_partialBags (nodup_recordedNames r seen.directory), ?_, ?_⟩
    · refine (List.pairwise_map.mpr ?_)
      refine (pairwise_ordered hplaced.distinct).imp_of_mem fun ha hb hlt heq => ?_
      rw [hname _ ha, hname _ hb] at heq
      exact absurd (r.issuedBagName_injective heq) (ne_of_lt hlt)
    · rintro name hpartial _ hfinal rfl
      exact absurd (mem_names_partialBags hpartial).1 (by simp [hactive name hfinal])
  · rw [hbags, List.filterMap_append, filterMap_id?_partialBags, List.nil_append,
      List.filterMap_map]
    refine List.pairwise_filterMap.mpr ((pairwise_ordered hplaced.distinct).imp ?_)
    rintro a b hlt _ ⟨⟩ _ ⟨⟩ heq
    exact absurd (r.id_injective heq) (ne_of_lt hlt)
  · cases hid : seen.directory[r.nativeName index]? with
    | none => rfl
    | some id =>
        have hmem := mem_recordedNames.mpr ⟨⟨id, hid⟩, r.isRecorded_nativeName index⟩
        obtain ⟨seg, hseg, heq⟩ := List.mem_map.mp (hclosed _ hmem (r.isActive_nativeName index))
        rw [hname seg hseg] at heq
        exact absurd heq (r.issuedBagName_ne_nativeName _ _ _)
  · rw [hbags, List.map_append, List.mem_append, hissued]
    cases hyes : isActive name with
    | false => exact .inr (hclosed name hmem hyes)
    | true =>
        obtain ⟨info, -, hbag⟩ := hopen name hmem hyes
        exact .inl (List.mem_map.mpr ⟨_, hbag, rfl⟩)

/-- **The body of the finalization** returns with an exact inventory. -/
theorem wp_settle_any (hdoc : Unissued doc) (hpinned : doc.archiveSegments = some pinned)
    (hbagFiles : doc.bagFiles = []) (hmanifest : s.disk.manifest = some doc)
    (hdocument : s.document = doc) :
    Wp anyFate (r.settle pinned) (ends anyFate r before (Pending doc pinned) fun _ s' =>
      s'.disk.manifest = some doc ∧ s'.document.archiveFinalizationState = some .finalized ∧
        Inventory r pinned s'.disk.toFileSystem s'.document) s := by
  unfold Recorder.settle
  refine Wp.bind (Wp.foldlM (I := Placed r pinned.length doc)
    (fun _ _ _ _ _ _ h => wp_finalizeSegment_any hdoc hpinned h)
    ⟨hmanifest, hdocument, rfl, .nil, nofun, nofun⟩) ?_
  rintro entries ⟨seen, document⟩ hplaced
  obtain rfl : document = doc := hplaced.document
  refine Wp.bind (R := fun names s' => ⟨seen, document⟩ = s' ∧
      names = r.recordedNames seen.directory)
    (wp_recordedPaths ⟨hplaced.manifest, hdoc, hpinned⟩ ⟨rfl, rfl⟩) ?_
  rintro _ _ ⟨rfl, rfl⟩
  refine Wp.bind (Wp.foldlM
    (I := fun names (_ : Unit) => Listed r document seen (entries.entries.map BagFile.name) names)
    (fun _ _ _ _ _ _ h => wp_inspect_any hdoc hpinned hplaced.manifest h)
    ⟨rfl, ?_, nofun⟩) ?_
  · change document = { document with bagFiles := [] }
    rw [← hbagFiles]
  intro _ s' hlisted
  refine Wp.modify ⟨?_, rfl, ?_⟩
  · rw [hlisted.disk]
    exact hplaced.manifest
  · rw [hlisted.disk]
    exact inventory_of_loops hplaced hlisted hpinned

/-- What holds at every moment of a run: neither the document nor a manifest that the run has
written issues more than it should. -/
structure Honest (r : Recorder) (pinned : List Segment) (start : Option Manifest)
    (s : Session) : Prop where
  document : Issues r pinned s.disk.toFileSystem s.document
  manifest : s.disk.manifest = start ∨
    ∃ manifest, s.disk.manifest = some manifest ∧
      Issues r pinned s.disk.toFileSystem manifest

theorem Pending.honest (hdoc : Unissued doc) (h : Pending doc pinned s) :
    Honest r pinned start s where
  document := h.document.issues
  manifest := .inr ⟨doc, h.manifest, hdoc.issues⟩

/-- Writing a document that issues no more than it should. -/
theorem honest_written (h : Issues r pinned s.disk.toFileSystem s.document) :
    Honest r pinned start s.written := ⟨h, .inr ⟨_, rfl, h⟩⟩

theorem wp_writeManifest_any {R : Unit → Session → Prop} (h : Honest r pinned start s)
    (hR : R () s.written) :
    Wp anyFate writeManifest (ends anyFate r before (Honest r pinned start) R) s :=
  wp_writeManifest h (honest_written h.document) hR

theorem Unissued.failed (h : Unissued doc) (e : PyException) : Unissued (doc.failed e) where
  state := by simp [Manifest.failed]
  bagFiles := h.bagFiles

/-- The body and its exception handler. -/
theorem wp_settleOrFail_any (hdoc : Unissued doc) (hpinned : doc.archiveSegments = some pinned)
    (hbagFiles : doc.bagFiles = []) (hmanifest : s.disk.manifest = some doc)
    (hdocument : s.document = doc) :
    Wp anyFate (tryCatch (r.settle pinned) fun e => do
      modify fun s => { s with document := s.document.failed e }
      writeManifest
      throw e) (ends anyFate r before (Honest r pinned start) fun _ s' =>
        Honest r pinned start s') s := by
  have hsettle : Wp anyFate (r.settle pinned) (ends anyFate r before (Pending doc pinned)
      fun _ s' => s'.disk.manifest = some doc ∧
        s'.document.archiveFinalizationState = some .finalized ∧
          Inventory r pinned s'.disk.toFileSystem s'.document) s :=
    wp_settle_any hdoc hpinned hbagFiles hmanifest hdocument
  refine Wp.tryCatch (hsettle.mono
    (fun _ s' h => ⟨⟨fun _ _ _ _ => h.2.1, fun _ => h.2.2⟩, .inr ⟨doc, h.1, hdoc.issues⟩⟩)
    (fun _ _ h => h) fun _ h => ⟨h.1.honest hdoc, h.2⟩) ?_
  rintro e s' ⟨hpending, -⟩
  have hfailed : Honest r pinned start ⟨s'.disk, s'.document.failed e⟩ :=
    ⟨(hpending.document.failed e).issues, .inr ⟨doc, hpending.manifest, hdoc.issues⟩⟩
  refine Wp.bind (R := fun _ s'' => ⟨s'.disk, s'.document.failed e⟩ = s'') (Wp.modify rfl) ?_
  rintro _ _ rfl
  refine Wp.bind (wp_writeManifest_any hfailed (R := fun _ s'' => Honest r pinned start s'')
    (honest_written hfailed.document)) fun _ s'' hs'' => ?_
  exact Wp.throw ⟨hs'', excused_anyFate⟩

/-- The segments of the document, or those of the directory. -/
def Recorder.pinnedBy (r : Recorder) (s : Session) : List Segment :=
  s.document.archiveSegments.getD (r.segments s.disk.toFileSystem)

theorem wp_pinSegments_any {P : Session → Prop} {R : List Segment → Session → Prop} (hP : P s)
    (hR : R (r.pinnedBy s) { s with document :=
      { s.document with archiveSegments := some (r.pinnedBy s) } }) :
    Wp anyFate r.pinSegments (ends anyFate r s.disk.toFileSystem P R) s := by
  cases hsegments : s.document.archiveSegments with
  | none =>
      refine wp_pinSegments hP (.inl ⟨hsegments, rfl, rfl⟩) ?_
      rwa [Recorder.pinnedBy, hsegments] at hR
  | some segments =>
      rw [Recorder.pinnedBy, hsegments, Option.getD_some, ← hsegments] at hR
      unfold Recorder.pinSegments
      refine Wp.bind (R := fun found s' => s = s' ∧ found = some segments)
        (Wp.gets ⟨rfl, hsegments⟩) ?_
      rintro _ _ ⟨rfl, rfl⟩
      exact Wp.pure hR

/-- **The finalization** is honest wherever it stops. -/
theorem wp_finalizeArchiveFiles_any :
    Wp anyFate r.finalizeArchiveFiles (ends anyFate r s.disk.toFileSystem
      (Honest r (r.pinnedBy s) s.disk.manifest)
      fun _ => Honest r (r.pinnedBy s) s.disk.manifest) s := by
  have hpending : Honest r (r.pinnedBy s) s.disk.manifest ⟨s.disk, s.document.pending⟩ :=
    ⟨(unissued_pending _).issues, .inl rfl⟩
  unfold Recorder.finalizeArchiveFiles
  refine Wp.bind_eq (Wp.modify rfl) fun _ => ?_
  refine Wp.bind_eq (wp_writeManifest_any hpending rfl) fun _ => ?_
  refine Wp.bind (R := fun segments s' => segments = r.pinnedBy s ∧
      Session.mk (Session.written ⟨s.disk, s.document.pending⟩).disk
        { s.document.pending with archiveSegments := some (r.pinnedBy s) } = s')
    (wp_pinSegments_any (honest_written hpending.document) ⟨rfl, rfl⟩) ?_
  rintro _ _ ⟨rfl, rfl⟩
  let doc : Manifest := { s.document.pending with archiveSegments := some (r.pinnedBy s) }
  refine Wp.bind (R := fun _ s' =>
    Session.mk (Session.written ⟨s.disk, s.document.pending⟩).disk doc.pending = s')
    (Wp.modify rfl) ?_
  rintro _ _ rfl
  refine Wp.bind (R := fun _ s' => Session.written
      ⟨(Session.written ⟨s.disk, s.document.pending⟩).disk, doc.pending⟩ = s')
    (wp_writeManifest_any ⟨(unissued_pending _).issues,
      .inr ⟨_, rfl, (unissued_pending _).issues⟩⟩ rfl) ?_
  rintro _ _ rfl
  refine Wp.bind (wp_settleOrFail_any (unissued_pending _) rfl rfl rfl rfl) ?_
  intro _ s' hhonest
  exact wp_writeManifest_any hhonest (honest_written hhonest.document)

/-- **A restart** leaves the manifest that it has found or an honest one. -/
theorem wp_resume_any :
    Wp anyFate r.resume (ends anyFate r s.disk.toFileSystem
      (fun s' => s'.disk.manifest = s.disk.manifest ∨
        ∃ pinned, Honest r pinned s.disk.manifest s')
      fun _ s' => s'.disk.manifest = s.disk.manifest ∨
        ∃ pinned, Honest r pinned s.disk.manifest s') s := by
  unfold Recorder.resume
  refine Wp.bind_eq
    (wp_step (.inl rfl) (by rintro _ _ ⟨⟩; rfl) (by rintro _ ⟨⟩)) fun manifest => ?_
  split
  · refine Wp.bind_eq (wp_recordedPaths (.inl rfl) rfl) fun _ => ?_
    split
    · exact Wp.pure (.inl rfl)
    · exact Wp.pure (.inl rfl)
  · rename_i existing
    split
    · exact Wp.pure (.inl rfl)
    · split
      · refine Wp.bind_eq (Wp.modify rfl) fun _ => ?_
        refine Wp.bind ((wp_finalizeArchiveFiles_any (s := ⟨s.disk, existing⟩)).mono
          (fun _ _ h => h) (fun _ _ h => ⟨.inr ⟨_, h.1⟩, h.2⟩) fun _ h => ⟨.inr ⟨_, h.1⟩, h.2⟩) ?_
        exact fun _ _ h => Wp.pure (.inr ⟨_, h⟩)
      · exact Wp.pure (.inl rfl)

end Finalize

/-- **The inventory of a finalized record is exact.**  Whatever the document and the directory
at the start of a run, whether it is the first one or a restart, and wherever it stops: neither
the document nor a manifest that the run has written lists a finalized file unless it says
`finalized`, and then it lists exactly the bag files of the directory. -/
theorem finalized_inventory_exact (r : Recorder) (disk : Disk) (document : Manifest)
    (fates : Fates PyException) :
    Honest r (r.pinnedBy ⟨disk, document⟩) disk.manifest
        (r.finalizeArchiveFiles ⟨disk, document⟩ fates).state ∧
      ((r.restart disk fates).manifest = disk.manifest ∨
        ∃ pinned manifest, (r.restart disk fates).manifest = some manifest ∧
          Issues r pinned (r.restart disk fates).toFileSystem manifest) := by
  constructor
  · exact Wp.state (wp_finalizeArchiveFiles_any.mono (fun _ _ h => h) (fun _ _ h => h.1)
      fun _ h => h.1)
  · have hleft : (r.restart disk fates).manifest = disk.manifest ∨
        ∃ pinned, Honest r pinned disk.manifest (r.resume ⟨disk, .blank⟩ fates).state :=
      Wp.state (wp_resume_any.mono (fun _ _ h => h) (fun _ _ h => h.1) fun _ h => h.1)
    rcases hleft with hsame | ⟨pinned, hhonest⟩
    · exact .inl hsame
    · rcases hhonest.manifest with hsame | ⟨manifest, hmanifest, hissues⟩
      · exact .inl hsame
      · exact .inr ⟨pinned, manifest, hmanifest, hissues⟩

/-- The record of two volumes is finalized. -/
example : ((flightRecorder.finalizeArchiveFiles ⟨flightDisk, flightDocument⟩
    []).state.document.archiveFinalizationState) = some .finalized := by decide +kernel

end Ros1Tools.Archive
