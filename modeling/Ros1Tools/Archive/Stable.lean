import Ros1Tools.Archive.Durable

/-!
# What the storage can bring back

A volume is `Stable` if each directory that a power cut may leave is a good one: the parts
share their files with no other name, the manifest can be read and is on the medium, and
a file that has lost one of the names it had is on the medium and still has another.
What a step does to a volume is seen from above in its disk and in the disks that may
come back; a step that only touches parts of the manifest is not seen at all
(`Hides`).
-/

namespace Ros1Tools.Archive.Durable

open Lib Lib.Faulty

variable {host : Host} {d d' : Directory} {files files' : FileId → File} {id : FileId}
  {name part source destination : String}

theorem isPart_of_bag (h : isOwn name = false) : isPart name = false :=
  (Bool.or_eq_false_iff.mp h).2

/-- What an added name adds. -/
theorem getElem?_insert_eq_some {other : FileId} (h : (d.insert part id)[name]? = some other) :
    name = part ∧ other = id ∨ name ≠ part ∧ d[name]? = some other := by
  by_cases hname : name = part
  · subst hname
    rw [Std.ExtTreeMap.getElem?_insert_self] at h
    exact .inl ⟨rfl, (Option.some.inj h).symm⟩
  · rw [getElem?_insert_of_ne hname] at h
    exact .inr ⟨hname, h⟩

theorem getElem?_of_erase {other : FileId} (h : (d.erase part)[name]? = some other) :
    name ≠ part ∧ d[name]? = some other := by
  by_cases hname : name = part
  · subst hname
    rw [Std.ExtTreeMap.getElem?_erase_self] at h
    cases h
  · rw [getElem?_erase_of_ne hname] at h
    exact ⟨hname, h⟩

/-! ## Visible files -/

theorem visible_congr (h : ∀ (name : String) id, d[name]? = some id → files id = files' id) :
    visible d files = visible d files' := by
  funext id
  unfold visible
  split
  · rename_i hnamed
    obtain ⟨name, hname⟩ := isNamed_iff.mp hnamed
    exact h name id hname
  · rfl

/-- A name that is added for a file with a name shows no other file. -/
theorem visible_insert (hid : d[source]? = some id) (hfree : d[destination]? = none) :
    visible (d.insert destination id) files = visible d files := by
  have hnamed : ∀ other, FileSystem.isNamed (d.insert destination id) other =
      FileSystem.isNamed d other := by
    intro other
    refine Bool.eq_iff_iff.mpr (isNamed_iff.trans (Iff.trans ?_ isNamed_iff.symm))
    constructor
    · rintro ⟨name, hname⟩
      rcases getElem?_insert_eq_some hname with ⟨-, rfl⟩ | ⟨-, hname⟩
      · exact ⟨source, hid⟩
      · exact ⟨name, hname⟩
    · rintro ⟨name, hname⟩
      refine ⟨name, (getElem?_insert_of_ne ?_).trans hname⟩
      rintro rfl
      exact absurd (hfree.symm.trans hname) (by simp)
  funext other
  rw [visible, visible, hnamed]

/-- Another file loses no name. -/
theorem isNamed_erase_of_ne {other : FileId} (hid : d[name]? = some id) (hother : other ≠ id) :
    FileSystem.isNamed (d.erase name) other = FileSystem.isNamed d other := by
  refine Bool.eq_iff_iff.mpr (isNamed_iff.trans (Iff.trans ?_ isNamed_iff.symm))
  constructor
  · rintro ⟨name', hname'⟩
    exact ⟨name', (getElem?_of_erase hname').2⟩
  · rintro ⟨name', hname'⟩
    refine ⟨name', (getElem?_erase_of_ne ?_).trans hname'⟩
    rintro rfl
    exact hother (Option.some.inj (hname'.symm.trans hid))

/-- A file that loses its last name is no longer seen. -/
theorem visible_erase (hid : d[name]? = some id) :
    visible (d.erase name) files =
      if FileSystem.isNamed (d.erase name) id then visible d files
      else Function.update (visible d files) id .freed := by
  funext other
  by_cases hother : other = id
  · subst hother
    have hnamed : FileSystem.isNamed d other = true := isNamed_iff.mpr ⟨name, hid⟩
    by_cases hleft : FileSystem.isNamed (d.erase name) other = true
    · rw [if_pos hleft, visible, visible, if_pos hleft, if_pos hnamed]
    · rw [if_neg hleft, visible, if_neg hleft, Function.update_self]
  · have hsame : visible (d.erase name) files other = visible d files other := by
      rw [visible, visible, isNamed_erase_of_ne hid hother]
    split
    · exact hsame
    · rw [Function.update_of_ne hother]
      exact hsame

/-! ## Disks -/

/-- A disk depends on the names that are no parts, and on their files. -/
theorem disk_congr (hbags : bags d = bags d') (hmanifest : d[manifestName]? = d'[manifestName]?)
    (hfiles : ∀ name id, d[name]? = some id → isPart name = false → files id = files' id) :
    host.disk d files = host.disk d' files' := by
  refine Disk.ext hbags ?_ ?_
  · simp only [Host.disk, ← hbags]
    refine visible_congr fun name id hname => ?_
    obtain ⟨hown, hid⟩ := getElem?_of_bags hname
    exact hfiles name id hid (isPart_of_bag hown)
  · simp only [Host.disk, ← hmanifest]
    cases hid : d[manifestName]? with
    | none => rfl
    | some id => rw [Option.bind_some, Option.bind_some, hfiles _ id hid isPart_manifestName]

/-- The contents of a file that only a part has are not seen. -/
theorem disk_write (hpart : isPart part = true) (hid : ∀ name, name ≠ part → d[name]? ≠ some id)
    (contents : File) : host.disk d (Function.update files id contents) = host.disk d files := by
  refine disk_congr rfl rfl fun name other hname hbag => Function.update_of_ne ?_ _ _
  rintro rfl
  exact hid name (ne_of_isPart hbag hpart) hname

theorem disk_insert_part (pid : Nat) (id : FileId) :
    host.disk (d.insert (partName pid) id) files = host.disk d files :=
  disk_congr (bags_insert_own (isOwn_partName pid))
    (getElem?_insert_of_ne (manifestName_ne_partName pid)) fun _ _ _ _ => rfl

theorem disk_erase_part (pid : Nat) : host.disk (d.erase (partName pid)) files =
    host.disk d files :=
  disk_congr (bags_erase_own (isOwn_partName pid))
    (getElem?_erase_of_ne (manifestName_ne_partName pid)) fun _ _ _ _ => rfl

theorem disk_replace (pid : Nat) {document : Manifest}
    (hbytes : (files id).bytes = host.encode document) :
    host.disk ((d.erase (partName pid)).insert manifestName id) files =
      (host.disk d files).replaceManifest document := by
  have hbags : bags ((d.erase (partName pid)).insert manifestName id) = bags d := by
    rw [bags_insert_own isOwn_manifestName, bags_erase_own (isOwn_partName pid)]
  refine Disk.ext hbags ?_ ?_
  · simp only [Host.disk, Disk.replaceManifest, hbags]
  · simp only [Host.disk, Disk.replaceManifest, Std.ExtTreeMap.getElem?_insert_self,
      Option.bind_some, hbytes, host.decode_encode]
    rfl

theorem disk_link (hsource : isOwn source = false) (hdestination : isOwn destination = false)
    (hid : d[source]? = some id) (hfree : d[destination]? = none) :
    host.disk (d.insert destination id) files =
      { host.disk d files with
        toFileSystem := (host.disk d files).addName destination id } := by
  have hbags : bags (d.insert destination id) = _ := bags_insert hdestination
  refine Disk.ext hbags ?_ ?_
  · rw [Host.disk, hbags]
    exact visible_insert ((getElem?_bags_of_bag hsource).trans hid)
      ((getElem?_bags_of_bag hdestination).trans hfree)
  · simp only [Host.disk]
    rw [getElem?_insert_of_ne (ne_of_isOwn hdestination isOwn_manifestName).symm]

theorem disk_unlink (hname : isOwn name = false) (hid : d[name]? = some id) :
    host.disk (d.erase name) files =
      { host.disk d files with toFileSystem := (host.disk d files).removeName name id } := by
  refine Disk.ext bags_erase ?_ ?_
  · rw [Host.disk, bags_erase]
    exact visible_erase ((getElem?_bags_of_bag hname).trans hid)
  · simp only [Host.disk]
    rw [getElem?_erase_of_ne (ne_of_isOwn hname isOwn_manifestName).symm]

/-! ## Volumes that hide a change -/

/-- The disks that may come back, but for the present one. -/
def Host.past (host : Host) (v : Volume) : List Disk :=
  v.directory.earlier.map fun d => host.disk d v.files

/-- The disks that may come back. -/
def Host.views (host : Host) (v : Volume) : List Disk := host.diskOf v :: host.past v

/-- From above, a volume looks as it did, and so does what may come back. -/
structure Hides (host : Host) (v v' : Volume) : Prop where
  disk : host.diskOf v' = host.diskOf v
  views : host.views v' ⊆ host.views v

variable {v v' v'' : Volume}

theorem mem_views (hd : d ∈ v.directory.views) : host.disk d v.files ∈ host.views v :=
  List.mem_map_of_mem (f := fun d => host.disk d v.files) hd

theorem Hides.refl (host : Host) (v : Volume) : Hides host v v := ⟨rfl, List.Subset.refl _⟩

theorem Hides.trans (h : Hides host v v') (h' : Hides host v' v'') : Hides host v v'' :=
  ⟨h'.disk.trans h.disk, List.Subset.trans h'.views h.views⟩

theorem hides_setDirectory (h : host.disk d v.files = host.diskOf v) :
    Hides host v (v.setDirectory d) :=
  ⟨h, List.cons_subset.mpr ⟨List.mem_cons.mpr (.inl h), List.Subset.refl _⟩⟩

theorem hides_syncDirectory : Hides host v v.syncDirectory :=
  ⟨rfl, List.cons_subset.mpr ⟨List.mem_cons_self, List.nil_subset _⟩⟩

theorem hides_syncFile (id : FileId) : Hides host v (v.syncFile id) :=
  ⟨rfl, List.Subset.refl _⟩

/-! ## Stable volumes -/

/-- The files of parts in one directory have no other name in another. -/
def Apart (d d' : Directory) : Prop :=
  ∀ part name id, isPart part = true → d[part]? = some id → name ≠ part → d'[name]? ≠ some id

/-- The manifest of a directory can be read and will stay so. -/
def Readable (host : Host) (v : Volume) (d : Directory) : Prop :=
  ∀ id, d[manifestName]? = some id →
    v.synced id = true ∧ ∃ document, host.decode (v.files id).bytes = .ok document

/-- A file that has lost a name it had before is on the medium, and has another name. -/
def Guarded (before : Directory) (v : Volume) (d : Directory) : Prop :=
  ∀ name id, isOwn name = false → before[name]? = some id →
    d[name]? = some id ∨
      v.synced id = true ∧ ∃ other : String, isOwn other = false ∧ d[other]? = some id

structure Stable (host : Host) (before : Directory) (v : Volume) : Prop where
  apart : ∀ d ∈ v.directory.views, Apart d d
  current : ∀ d ∈ v.directory.views, Apart v.directory.now d
  readable : ∀ d ∈ v.directory.views, Readable host v d
  guarded : ∀ d ∈ v.directory.views, Guarded before v d

variable {before : Directory}

/-- A change of the directory: the new one has to be good, and its parts new to the
earlier ones. -/
theorem Stable.setDirectory (h : Stable host before v) (hapart : Apart d d)
    (hcurrent : ∀ d' ∈ v.directory.views, Apart d d') (hreadable : Readable host v d)
    (hguarded : Guarded before v d) : Stable host before (v.setDirectory d) where
  apart := Cached.forall_views_update.mpr ⟨hapart, h.apart⟩
  current := Cached.forall_views_update.mpr ⟨hapart, hcurrent⟩
  readable := Cached.forall_views_update.mpr ⟨hreadable, h.readable⟩
  guarded := Cached.forall_views_update.mpr ⟨hguarded, h.guarded⟩

theorem Stable.syncDirectory (h : Stable host before v) : Stable host before v.syncDirectory where
  apart := Cached.forall_views_sync h.apart
  current := Cached.forall_views_sync h.current
  readable := Cached.forall_views_sync h.readable
  guarded := Cached.forall_views_sync h.guarded

/-- More files on the medium do no harm. -/
theorem Stable.syncFile (h : Stable host before v) (id : FileId) :
    Stable host before (v.syncFile id) where
  apart := h.apart
  current := h.current
  readable d hd other hother := by
    obtain ⟨hsynced, hdocument⟩ := h.readable d hd other hother
    exact ⟨Storage.synced_syncFile hsynced, hdocument⟩
  guarded d hd name other hname hbefore :=
    (h.guarded d hd name other hname hbefore).imp_right fun hmoved =>
      ⟨Storage.synced_syncFile hmoved.1, hmoved.2⟩

section Part

variable (h : Stable host before v) (hpart : isPart part = true)
  (hid : v.directory.now[part]? = some id)
include h hpart hid

/-- No name but the part's own stands for its file, in any directory that may come back. -/
theorem Stable.ne_part (hd : d ∈ v.directory.views) (hname : name ≠ part) : d[name]? ≠ some id :=
  h.current d hd part name id hpart hid hname

/-- **Writing a part** changes nothing that anyone relies on. -/
theorem Stable.write (contents : File) : Stable host before (v.write id contents) where
  apart := h.apart
  current := h.current
  readable d hd other hother := by
    have hne : other ≠ id := by
      rintro rfl
      exact h.ne_part hpart hid hd (ne_of_isPart isPart_manifestName hpart) hother
    rw [Storage.synced_write_of_ne contents hne, Storage.files_write_of_ne contents hne]
    exact h.readable d hd other hother
  guarded d hd name other hname hbefore := by
    refine (h.guarded d hd name other hname hbefore).imp_right ?_
    rintro ⟨hsynced, name', hbag, hname'⟩
    have hne : other ≠ id := by
      rintro rfl
      exact h.ne_part hpart hid hd (ne_of_isPart (isPart_of_bag hbag) hpart) hname'
    exact ⟨(Storage.synced_write_of_ne contents hne).trans hsynced, name', hbag, hname'⟩

theorem Stable.hides_write (contents : File) : Hides host v (v.write id contents) := by
  have hdisk : ∀ d ∈ v.directory.views,
      host.disk d (v.write id contents).files = host.disk d v.files :=
    fun d hd => disk_write hpart (fun _ hname => h.ne_part hpart hid hd hname) contents
  refine ⟨hdisk _ Cached.now_mem_views, fun disk hmem => ?_⟩
  obtain ⟨d, hd, rfl⟩ := List.mem_map.mp
    (show disk ∈ v.directory.views.map fun d => host.disk d (v.write id contents).files from hmem)
  rw [hdisk d hd]
  exact mem_views hd

end Part

/-- Names that are parts do not count for what is guarded. -/
theorem Guarded.congr (h : Guarded before v d) (hbags : bags d' = bags d) :
    Guarded before v d' := by
  have hsame : ∀ name : String, isOwn name = false → d'[name]? = d[name]? := by
    intro name hname
    rw [← getElem?_bags_of_bag (d := d') hname, hbags, getElem?_bags_of_bag hname]
  intro name id hname hbefore
  rw [hsame name hname]
  refine (h name id hname hbefore).imp_right ?_
  rintro ⟨hsynced, other, hother, hid⟩
  exact ⟨hsynced, other, hother, (hsame other hother).trans hid⟩

theorem Readable.congr (h : Readable host v d) (hmanifest : d'[manifestName]? = d[manifestName]?) :
    Readable host v d' := fun id hid => h id (hmanifest.symm.trans hid)

/-! ### Names that come and go -/

theorem Apart.erase_left (h : Apart d d') (name : String) : Apart (d.erase name) d' :=
  fun part other id hpart hid => h part other id hpart (getElem?_of_erase hid).2

theorem Apart.erase_right (h : Apart d d') (name : String) : Apart d (d'.erase name) :=
  fun part other id hpart hid hne hsame =>
    h part other id hpart hid hne (getElem?_of_erase hsame).2

/-- A new name is no part, or its file has no other name. -/
theorem Apart.insert_left (h : Apart d d')
    (hname : isPart name = true → ∀ other, other ≠ name → d'[other]? ≠ some id) :
    Apart (d.insert name id) d' := by
  intro part other file hpart hfile hne
  rcases getElem?_insert_eq_some hfile with ⟨rfl, rfl⟩ | ⟨-, hold⟩
  · exact hname hpart other hne
  · exact h part other file hpart hold hne

/-- A new name is not one for the file of a part. -/
theorem Apart.insert_right (h : Apart d d')
    (hid : ∀ part, isPart part = true → part ≠ name → d[part]? ≠ some id) :
    Apart d (d'.insert name id) := by
  intro part other file hpart hfile hne hsame
  rcases getElem?_insert_eq_some hsame with ⟨rfl, rfl⟩ | ⟨-, hold⟩
  · exact hid part hpart hne.symm hfile
  · exact h part other file hpart hfile hne hold

/-- **Creating a part** with a file of its own. -/
theorem Stable.createPart (h : Stable host before v) (pid : Nat)
    (hfresh : ∀ d ∈ v.directory.views, ∀ name : String, d[name]? ≠ some id) :
    Stable host before (v.setDirectory (v.directory.now.insert (partName pid) id)) := by
  have hnow := Cached.now_mem_views (c := v.directory)
  have hcurrent : ∀ d ∈ v.directory.views, Apart (v.directory.now.insert (partName pid) id) d :=
    fun d hd => (h.current d hd).insert_left fun _ other _ => hfresh d hd other
  refine h.setDirectory ((hcurrent _ hnow).insert_right fun part _ hne => ?_) hcurrent ?_ ?_
  · rw [getElem?_insert_of_ne hne]
    exact hfresh _ hnow part
  · exact (h.readable _ hnow).congr (getElem?_insert_of_ne (manifestName_ne_partName pid))
  · exact (h.guarded _ hnow).congr (bags_insert_own (isOwn_partName pid))

/-- **Removing a part.** -/
theorem Stable.erasePart (h : Stable host before v) (pid : Nat) :
    Stable host before (v.setDirectory (v.directory.now.erase (partName pid))) := by
  have hnow := Cached.now_mem_views (c := v.directory)
  refine h.setDirectory (((h.apart _ hnow).erase_left _).erase_right _)
    (fun d hd => (h.current d hd).erase_left _) ?_ ?_
  · exact (h.readable _ hnow).congr (getElem?_erase_of_ne (manifestName_ne_partName pid))
  · exact (h.guarded _ hnow).congr (bags_erase_own (isOwn_partName pid))

/-- **Moving a part over the manifest**, when it is a document on the medium. -/
theorem Stable.replacePart (h : Stable host before v) (pid : Nat) {document : Manifest}
    (hid : v.directory.now[partName pid]? = some id) (hsynced : v.synced id = true)
    (hbytes : (v.files id).bytes = host.encode document) :
    Stable host before
      (v.setDirectory ((v.directory.now.erase (partName pid)).insert manifestName id)) := by
  have hnow := Cached.now_mem_views (c := v.directory)
  have hcurrent : ∀ d ∈ v.directory.views,
      Apart ((v.directory.now.erase (partName pid)).insert manifestName id) d :=
    fun d hd => ((h.current d hd).erase_left _).insert_left fun hpart =>
      absurd rfl (ne_of_isPart isPart_manifestName hpart)
  refine h.setDirectory (((hcurrent _ hnow).erase_right _).insert_right ?_) hcurrent ?_ ?_
  · -- The parts that are left are those there were, and the moved file is none of theirs.
    intro part hpart hne hsame
    rw [getElem?_insert_of_ne hne] at hsame
    obtain ⟨hne', hold⟩ := getElem?_of_erase hsame
    exact h.current _ hnow part (partName pid) id hpart hold hne'.symm hid
  · intro other hother
    rw [Std.ExtTreeMap.getElem?_insert_self] at hother
    obtain rfl := Option.some.inj hother
    exact ⟨hsynced, document, by rw [hbytes, host.decode_encode]⟩
  · refine (h.guarded _ hnow).congr ?_
    rw [bags_insert_own isOwn_manifestName, bags_erase_own (isOwn_partName pid)]

/-- **Linking a bag.** -/
theorem Stable.link (h : Stable host before v) (hsource : isOwn source = false)
    (hdestination : isOwn destination = false) (hid : v.directory.now[source]? = some id)
    (hfree : v.directory.now[destination]? = none) :
    Stable host before (v.setDirectory (v.directory.now.insert destination id)) := by
  have hnow := Cached.now_mem_views (c := v.directory)
  have hkeep : ∀ (name : String) other, v.directory.now[name]? = some other →
      (v.directory.now.insert destination id)[name]? = some other := by
    intro name other hother
    refine (getElem?_insert_of_ne ?_).trans hother
    rintro rfl
    exact absurd (hfree.symm.trans hother) (by simp)
  have hcurrent : ∀ d ∈ v.directory.views, Apart (v.directory.now.insert destination id) d :=
    fun d hd => (h.current d hd).insert_left fun hpart =>
      absurd rfl (ne_of_isPart (isPart_of_bag hdestination) hpart)
  refine h.setDirectory ((hcurrent _ hnow).insert_right ?_) hcurrent ?_ ?_
  · intro part hpart hne hsame
    exact hcurrent _ hnow part source id hpart hsame (ne_of_isPart (isPart_of_bag hsource) hpart)
      hid
  · exact (h.readable _ hnow).congr
      (getElem?_insert_of_ne (ne_of_isOwn hdestination isOwn_manifestName).symm)
  · intro name other hname hbefore
    rcases h.guarded _ hnow name other hname hbefore with hold | ⟨hsynced, name', hbag, hother⟩
    · exact .inl (hkeep _ _ hold)
    · exact .inr ⟨hsynced, name', hbag, hkeep _ _ hother⟩

/-- **Unlinking a bag** that is on the medium and has another name. -/
theorem Stable.unlink (h : Stable host before v) (hdestination : isOwn destination = false)
    (hne : destination ≠ name) (hid : v.directory.now[name]? = some id)
    (hother : v.directory.now[destination]? = some id) (hsynced : v.synced id = true)
    (hname : isOwn name = false) :
    Stable host before (v.setDirectory (v.directory.now.erase name)) := by
  have hnow := Cached.now_mem_views (c := v.directory)
  refine h.setDirectory (((h.apart _ hnow).erase_left _).erase_right _)
    (fun d hd => (h.current d hd).erase_left _) ?_ ?_
  · exact (h.readable _ hnow).congr
      (getElem?_erase_of_ne (ne_of_isOwn hname isOwn_manifestName).symm)
  · -- Whatever loses this name is this file, and has the other one.
    have hmoved : ∀ file, v.directory.now[name]? = some file → v.synced file = true ∧
        ∃ other : String, isOwn other = false ∧
          (v.directory.now.erase name)[other]? = some file := by
      intro file hfile
      obtain rfl := Option.some.inj (hid.symm.trans hfile)
      exact ⟨hsynced, destination, hdestination, (getElem?_erase_of_ne hne).trans hother⟩
    intro name' file hbag hbefore
    rcases h.guarded _ hnow name' file hbag hbefore with hold | ⟨hsafe, name'', hbag'', hold⟩
    · by_cases heq : name' = name
      · subst heq
        exact .inr (hmoved file hold)
      · exact .inl ((getElem?_erase_of_ne heq).trans hold)
    · by_cases heq : name'' = name
      · subst heq
        exact .inr (hmoved file hold)
      · exact .inr ⟨hsafe, name'', hbag'', (getElem?_erase_of_ne heq).trans hold⟩

end Ros1Tools.Archive.Durable
