import Mathlib.Data.List.Induction
import Ros1Tools.Archive.Finalize

/-!
# The closed volumes of a directory

What the finalization is about, read off a directory without running it: the
segments that are pinned if it is started there, and the entries they get in the end.
A segment of a directory is determined by its index, and the indices are those for
which there is a native name.
-/

namespace Ros1Tools.Archive

open Lib

namespace Recorder

variable (r : Recorder) (fs : FileSystem)

/-- The volume of a native name, before names are issued. -/
def closedVolume (name : String) : Option Segment :=
  (r.nativeIndex name).bind fun index => (fs.lstat name).map fun info =>
    ⟨name, "", index, info.id.device, info.id.inode, info.sizeBytes⟩

def closedVolumes : List Segment :=
  (r.recordedNames fs.directory).filterMap (r.closedVolume fs)

/-- The segments that are pinned by a finalization that finds this directory. -/
def segments : List Segment := r.issueNames (r.closedVolumes fs)

/-- The segment of an index and a file. -/
def segment (index : Nat) (id : FileId) : Segment :=
  ⟨r.nativeName index, r.issuedBagName index (r.segments fs).length, index, id.device, id.inode,
    (fs.files id).bytes.length⟩

/-! ## Segments -/

variable {r fs}

theorem closedVolume_eq_some {name : String} {segment : Segment} :
    r.closedVolume fs name = some segment ↔ ∃ index id, name = r.nativeName index ∧
      fs.directory[name]? = some id ∧
        segment = ⟨name, "", index, id.device, id.inode, (fs.files id).bytes.length⟩ := by
  unfold closedVolume
  constructor
  · intro h
    obtain ⟨index, hindex, h⟩ := Option.bind_eq_some_iff.mp h
    obtain ⟨info, hinfo, rfl⟩ := Option.map_eq_some_iff.mp h
    obtain ⟨id, hid, rfl⟩ := Option.map_eq_some_iff.mp hinfo
    exact ⟨index, id, r.nativeIndex_eq_some.mp hindex, hid, rfl⟩
  · rintro ⟨index, id, hname, hid, rfl⟩
    rw [r.nativeIndex_eq_some.mpr hname, FileSystem.lstat_of_some hid]
    rfl

theorem length_issueNames (segments : List Segment) :
    (r.issueNames segments).length = segments.length := List.length_map _

/-- **The segments of a directory** are its native names, each with its file. -/
theorem mem_segments {seg : Segment} : seg ∈ r.segments fs ↔
    ∃ index id, fs.directory[r.nativeName index]? = some id ∧ seg = r.segment fs index id := by
  have hlength : (r.segments fs).length = (r.closedVolumes fs).length := length_issueNames _
  constructor
  · intro h
    obtain ⟨volume, hvolume, rfl⟩ := List.mem_map.mp h
    obtain ⟨name, -, hname⟩ := List.mem_filterMap.mp hvolume
    obtain ⟨index, id, rfl, hid, rfl⟩ := closedVolume_eq_some.mp hname
    exact ⟨index, id, hid, by rw [Recorder.segment, hlength]⟩
  · rintro ⟨index, id, hid, rfl⟩
    have hname : r.nativeName index ∈ r.recordedNames fs.directory :=
      mem_recordedNames.mpr ⟨⟨id, hid⟩, r.isRecorded_nativeName index⟩
    have hvolume := closedVolume_eq_some.mpr ⟨index, id, rfl, hid, rfl⟩
    refine List.mem_map.mpr ⟨_, List.mem_filterMap.mpr ⟨_, hname, hvolume⟩, ?_⟩
    rw [Recorder.segment, hlength]

section Segment

variable {seg seg' : Segment} (h : seg ∈ r.segments fs) (h' : seg' ∈ r.segments fs)

include h

theorem sourceName_of_mem : seg.sourceName = r.nativeName seg.index := by
  obtain ⟨index, id, -, rfl⟩ := mem_segments.mp h
  rfl

theorem name_of_mem : seg.name = r.issuedBagName seg.index (r.segments fs).length := by
  obtain ⟨index, id, -, rfl⟩ := mem_segments.mp h
  rfl

/-- A segment is found under its native name. -/
theorem directory_of_mem : fs.directory[seg.sourceName]? = some seg.file := by
  obtain ⟨index, id, hid, rfl⟩ := mem_segments.mp h
  exact hid

theorem sizeBytes_of_mem : seg.sizeBytes = (fs.files seg.file).bytes.length := by
  obtain ⟨index, id, -, rfl⟩ := mem_segments.mp h
  rfl

theorem isRecorded_sourceName : r.isRecorded seg.sourceName = true := by
  rw [sourceName_of_mem h]
  exact r.isRecorded_nativeName _

theorem isActive_sourceName : isActive seg.sourceName = false := by
  rw [sourceName_of_mem h]
  exact r.isActive_nativeName _

theorem isRecorded_name : r.isRecorded seg.name = true := by
  rw [name_of_mem h]
  exact r.isRecorded_issuedBagName _ _

theorem isActive_name : isActive seg.name = false := by
  rw [name_of_mem h]
  exact r.isActive_issuedBagName _ _

include h'

/-- No segment is issued a name that a segment was recorded under. -/
theorem name_ne_sourceName : seg.name ≠ seg'.sourceName := by
  rw [name_of_mem h, sourceName_of_mem h']
  exact r.issuedBagName_ne_nativeName _ _ _

/-- A segment is determined by its index. -/
theorem eq_of_index (hindex : seg.index = seg'.index) : seg = seg' := by
  obtain ⟨index, id, hid, rfl⟩ := mem_segments.mp h
  obtain ⟨index', id', hid', rfl⟩ := mem_segments.mp h'
  obtain rfl : index = index' := hindex
  rw [Option.some.inj (hid.symm.trans hid')]

theorem eq_of_sourceName (hname : seg.sourceName = seg'.sourceName) : seg = seg' := by
  rw [sourceName_of_mem h, sourceName_of_mem h'] at hname
  exact eq_of_index h h' (r.nativeName_injective hname)

theorem eq_of_name (hname : seg.name = seg'.name) : seg = seg' := by
  rw [name_of_mem h, name_of_mem h'] at hname
  exact eq_of_index h h' (r.issuedBagName_injective hname)

end Segment

/-- No index occurs twice. -/
theorem pairwise_index : (r.segments fs).Pairwise fun a b => a.index ≠ b.index := by
  refine List.Pairwise.map (R := fun a b => a.index ≠ b.index) _ (fun _ _ hne => hne) ?_
  refine List.pairwise_filterMap.mpr ((nodup_recordedNames r fs.directory).imp ?_)
  intro name name' hne seg hseg seg' hseg' hindex
  obtain ⟨index, id, hname, -, rfl⟩ := closedVolume_eq_some.mp hseg
  obtain ⟨index', id', hname', -, rfl⟩ := closedVolume_eq_some.mp hseg'
  obtain rfl : index = index' := hindex
  exact hne (hname.trans hname'.symm)

/-! ## Entries -/

variable (r)

/-- `by_index` once these segments have been treated. -/
def byIndex (treated : List Segment) : ByIndex :=
  treated.foldl (fun entries seg =>
    entries.insert seg.index (r.finalizedBag seg.index seg.name seg.sizeBytes)) ∅

theorem byIndex_concat (treated : List Segment) (seg : Segment) :
    r.byIndex (treated ++ [seg]) = (r.byIndex treated).insert seg.index
      (r.finalizedBag seg.index seg.name seg.sizeBytes) := by
  rw [byIndex, List.foldl_append]
  rfl

variable {r}

/-- An index stands for the segment that was treated last under it. -/
theorem getElem?_byIndex {treated : List Segment} {index : Nat} {entry : BagFile}
    (h : (r.byIndex treated)[index]? = some entry) : ∃ seg ∈ treated,
      seg.index = index ∧ entry = r.finalizedBag seg.index seg.name seg.sizeBytes := by
  induction treated using List.reverseRecOn with
  | nil => exact absurd h (by simp [byIndex])
  | append_singleton treated seg ih =>
      rw [byIndex_concat, Std.ExtTreeMap.getElem?_insert] at h
      split at h
      · rename_i heq
        exact ⟨seg, by simp, Std.compare_eq_iff_eq.mp heq, (Option.some.inj h).symm⟩
      · obtain ⟨seg', hseg', heq⟩ := ih h
        exact ⟨seg', List.mem_append_left _ hseg', heq⟩

/-- With distinct indices, nothing that was treated is forgotten. -/
theorem byIndex_of_mem {treated : List Segment} {seg : Segment} (h : seg ∈ treated)
    (hdistinct : treated.Pairwise fun a b => a.index ≠ b.index) :
    (r.byIndex treated)[seg.index]? = some (r.finalizedBag seg.index seg.name seg.sizeBytes) := by
  induction treated using List.reverseRecOn with
  | nil => exact absurd h (by simp)
  | append_singleton treated last ih =>
      obtain ⟨hinit, -, hlast⟩ := List.pairwise_append.mp hdistinct
      rw [byIndex_concat, Std.ExtTreeMap.getElem?_insert]
      rcases List.mem_append.mp h with hmem | hmem
      · have hne := hlast seg hmem last (by simp)
        rw [if_neg fun heq => hne (Std.compare_eq_iff_eq.mp heq).symm]
        exact ih hmem hinit
      · obtain rfl := List.mem_singleton.mp hmem
        rw [if_pos (Std.compare_eq_iff_eq.mpr rfl)]

theorem mem_entries {entries : ByIndex} {entry : BagFile} :
    entry ∈ entries.entries ↔ ∃ index : Nat, entries[index]? = some entry := by
  unfold ByIndex.entries
  constructor
  · intro h
    obtain ⟨⟨index, _⟩, hmem, rfl⟩ := List.mem_map.mp h
    exact ⟨index, Std.ExtTreeMap.mem_toList_iff_getElem?_eq_some.mp hmem⟩
  · rintro ⟨index, h⟩
    exact List.mem_map.mpr ⟨_, Std.ExtTreeMap.mem_toList_iff_getElem?_eq_some.mpr h, rfl⟩

/-- `expected_names` holds the names that were issued. -/
theorem mem_expectedNames {name : String} :
    name ∈ (r.byIndex (r.segments fs)).entries.map BagFile.name ↔
      ∃ seg ∈ r.segments fs, seg.name = name := by
  constructor
  · intro h
    obtain ⟨entry, hentry, rfl⟩ := List.mem_map.mp h
    obtain ⟨index, hindex⟩ := mem_entries.mp hentry
    obtain ⟨seg, hseg, -, rfl⟩ := getElem?_byIndex hindex
    exact ⟨seg, hseg, rfl⟩
  · rintro ⟨seg, hseg, rfl⟩
    exact List.mem_map.mpr ⟨_, mem_entries.mpr ⟨_, byIndex_of_mem hseg pairwise_index⟩, rfl⟩

end Recorder

end Ros1Tools.Archive
