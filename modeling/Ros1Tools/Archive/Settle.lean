import Ros1Tools.Archive.Spec

/-!
# The two loops of the finalization

The first loop moves the volumes one by one; what has been treated stays where it is,
since two volumes never share a name.  The second loop reads the directory once more
and accepts it only if every closed bag file in it has been issued.  A directory that
passes it is settled, whatever the first loop was told by `os.path.lexists`.
-/

namespace Ros1Tools.Archive

open Lib Lib.Faulty

section Loops

variable {allowed : Fate PyException → Prop} {r : Recorder} {before : FileSystem}
  {doc : Manifest} {s : Session} {seg : Segment}

/-! ## Volumes -/

/-- A volume of a closed archive is a regular file. -/
theorem Recorder.Closed.isRegular_segment (hclosed : r.Closed before)
    (hseg : seg ∈ r.segments before) : (before.files seg.file).isRegular = true :=
  hclosed.isRegular (Recorder.directory_of_mem hseg) (Recorder.isRecorded_sourceName hseg)

/-- A volume keeps the identity it was pinned with. -/
theorem Keeps.identity {fs : FileSystem} (h : Keeps r before fs) (hseg : seg ∈ r.segments before) :
    (fs.info seg.file).identity = seg.expected := by
  rw [FileInfo.identity, Segment.expected, FileSystem.info, Recorder.sizeBytes_of_mem hseg, h.files]

theorem wp_moveFound {R : Unit → Session → Prop} (h : Moving r before doc s)
    (hseg : seg ∈ r.segments before)
    (hR : ∀ fs : FileSystem, Keeps r before fs →
      (fs.directory[seg.sourceName]? = none ∨ ∃ e, allowed (.error e)) →
      (∀ name, name ≠ seg.sourceName → name ≠ seg.name →
        fs.directory[name]? = s.disk.directory[name]?) → R () (s.update fs)) :
    Wp allowed (r.moveFound seg seg.sourceName seg.name)
      (ends allowed r before (Moving r before doc) R) s := by
  unfold Recorder.moveFound
  refine Wp.bind (R := fun found s' => s = s' ∧
    (found = true ∧ s.disk.directory[seg.sourceName]? = some seg.file ∨
      found = false ∧ (s.disk.directory[seg.sourceName]? = none ∨ ∃ e, allowed (.error e))))
    (wp_lexists h (fun id hid => ⟨rfl, .inl ⟨rfl, ?_⟩⟩) fun hwhy => ⟨rfl, .inr ⟨rfl, hwhy⟩⟩) ?_
  · rw [hid, h.keeps.sourceName_eq hseg hid]
  rintro _ _ ⟨rfl, ⟨rfl, hsource⟩ | ⟨rfl, hwhy⟩⟩
  · rw [if_pos rfl]
    refine Wp.bind (R := fun info s' => s = s' ∧ info = s.disk.info seg.file)
      (wp_lstat h (fun id hid => ⟨rfl, by rw [h.keeps.sourceName_eq hseg hid]⟩) fun hnone => ?_) ?_
    · exact absurd (hnone.symm.trans hsource) (by simp)
    rintro _ _ ⟨rfl, rfl⟩
    refine Wp.bind (R := fun _ s' => s = s' ∧ (s.disk.files seg.file).isRegular = true)
      (wp_require h (fun hpinned => ⟨rfl, hpinned.1⟩) fun hchanged hclosed => ?_) ?_
    · refine absurd ⟨?_, h.keeps.identity hseg⟩ hchanged
      have hfile := hclosed.isRegular_segment hseg
      rwa [← h.keeps.files] at hfile
    rintro _ _ ⟨rfl, hregular⟩
    exact wp_moveClosedWithoutReplacement h hseg hsource hregular fun fs hkeeps hmoved hframe =>
      hR fs hkeeps (.inl hmoved.1) hframe
  · rw [if_neg (by decide)]
    exact Wp.pure (hR s.disk.toFileSystem h.keeps hwhy fun _ _ _ => rfl)

/-! ## The loop over the segments -/

/-- The segments that have been treated have their issued names.  They have lost their
native ones, unless a system call has raised. -/
structure Treated (allowed : Fate PyException → Prop) (r : Recorder) (before : FileSystem)
    (doc : Manifest) (treated : List Segment) (byIndex : ByIndex) (s : Session) : Prop where
  moving : Moving r before doc s
  document : s.document = doc
  byIndex : byIndex = r.byIndex treated
  named : ∀ seg ∈ treated, s.disk.directory[seg.name]? = some seg.file
  absent : ∀ seg ∈ treated,
    s.disk.directory[seg.sourceName]? = none ∨ ∃ e, allowed (.error e)
  regular : ∀ seg ∈ treated, (before.files seg.file).isRegular = true

section Round

variable {treated todo : List Segment} {entries : ByIndex}
  (hsplit : treated ++ seg :: todo = r.segments before)

include hsplit

theorem mem_of_split : seg ∈ r.segments before := by
  rw [← hsplit]
  simp

theorem index_ne_of_split {seg' : Segment} (hmem : seg' ∈ treated) :
    seg' ∈ r.segments before ∧ seg'.index ≠ seg.index := by
  have hdistinct : (r.segments before).Pairwise fun a b => a.index ≠ b.index :=
    Recorder.pairwise_index
  rw [← hsplit] at hdistinct ⊢
  exact ⟨List.mem_append_left _ hmem,
    (List.pairwise_append.mp hdistinct).2.2 seg' hmem seg List.mem_cons_self⟩

/-- Treating one more segment does not touch those treated before: their names are those
of other indices. -/
theorem Treated.concat (h : Treated allowed r before doc treated entries s) {fs : FileSystem}
    (hkeeps : Keeps r before fs)
    (hframe : ∀ name, name ≠ seg.sourceName → name ≠ seg.name →
      fs.directory[name]? = s.disk.directory[name]?)
    (hnamed : fs.directory[seg.name]? = some seg.file)
    (habsent : fs.directory[seg.sourceName]? = none ∨ ∃ e, allowed (.error e))
    (hregular : (fs.files seg.file).isRegular = true) :
    Treated allowed r before doc (treated ++ [seg])
      (entries.insert seg.index (r.finalizedBag seg.index seg.name seg.sizeBytes))
      (s.update fs) := by
  have hseg := mem_of_split hsplit
  have hkept : ∀ seg' ∈ treated,
      fs.directory[seg'.name]? = s.disk.directory[seg'.name]? ∧
        fs.directory[seg'.sourceName]? = s.disk.directory[seg'.sourceName]? := by
    intro seg' hmem
    obtain ⟨hseg', hindex⟩ := index_ne_of_split hsplit hmem
    have hne : seg' ≠ seg := fun heq => hindex (by rw [heq])
    exact ⟨hframe _ (Recorder.name_ne_sourceName hseg' hseg)
        fun heq => hne (Recorder.eq_of_name hseg' hseg heq),
      hframe _ (fun heq => hne (Recorder.eq_of_sourceName hseg' hseg heq))
        (Recorder.name_ne_sourceName hseg hseg').symm⟩
  refine ⟨h.moving.update hkeeps, h.document, ?_, ?_, ?_, ?_⟩
  · rw [Recorder.byIndex_concat, ← h.byIndex]
  · refine List.forall_mem_append.mpr ⟨fun seg' hmem => ?_, List.forall_mem_singleton.mpr hnamed⟩
    exact (hkept seg' hmem).1.trans (h.named seg' hmem)
  · refine List.forall_mem_append.mpr ⟨fun seg' hmem => ?_, List.forall_mem_singleton.mpr habsent⟩
    exact (h.absent seg' hmem).imp_left (hkept seg' hmem).2.trans
  · rw [hkeeps.files] at hregular
    exact List.forall_mem_append.mpr ⟨h.regular, List.forall_mem_singleton.mpr hregular⟩

/-- **One round of the first loop.** -/
theorem wp_finalizeSegment (h : Treated allowed r before doc treated entries s) :
    Wp allowed (r.finalizeSegment (r.segments before).length entries seg)
      (ends allowed r before (Moving r before doc)
        (Treated allowed r before doc (treated ++ [seg]))) s := by
  have hseg := mem_of_split hsplit
  unfold Recorder.finalizeSegment
  rw [← Recorder.sourceName_of_mem hseg, ← Recorder.name_of_mem hseg]
  refine Wp.bind (R := fun _ s' => s = s')
    (wp_require h.moving (fun _ => rfl) fun hinvalid => ?_) ?_
  · refine absurd ⟨rfl, rfl, fun hmem => ?_⟩ hinvalid
    rw [h.byIndex] at hmem
    obtain ⟨entry, hentry⟩ :=
      Option.isSome_iff_exists.mp (Std.ExtTreeMap.mem_iff_isSome_getElem?.mp hmem)
    obtain ⟨seg', hmem', heq, -⟩ := Recorder.getElem?_byIndex hentry
    exact (index_ne_of_split hsplit hmem').2 heq
  rintro _ _ rfl
  refine Wp.bind (wp_moveFound (R := fun _ s' => ∃ fs, s.update fs = s' ∧ Keeps r before fs ∧
    (fs.directory[seg.sourceName]? = none ∨ ∃ e, allowed (.error e)) ∧
      ∀ name, name ≠ seg.sourceName → name ≠ seg.name →
        fs.directory[name]? = s.disk.directory[name]?) h.moving hseg
    fun fs hkeeps hwhy hframe => ⟨fs, rfl, hkeeps, hwhy, hframe⟩) ?_
  rintro _ _ ⟨fs, rfl, hkeeps, hwhy, hframe⟩
  have hmoving := h.moving.update hkeeps
  refine Wp.bind (R := fun info s' => s.update fs = s' ∧
      ∃ id, fs.directory[seg.name]? = some id ∧ info = fs.info id)
    (wp_lstat hmoving (fun id hid => ⟨rfl, id, hid, rfl⟩) fun hnone _ => ?_) ?_
  · refine hwhy.resolve_left fun habsent => ?_
    exact absurd (hnone.symm.trans (hkeeps.name_of_absent hseg habsent)) (by simp)
  rintro _ _ ⟨rfl, id, hid, rfl⟩
  refine Wp.bind (R := fun _ s' => s.update fs = s' ∧ (fs.files id).isRegular = true ∧
      (fs.info id).identity = seg.expected)
    (wp_require hmoving (fun hpinned => ⟨rfl, hpinned⟩) fun hchanged hclosed => ?_) ?_
  · obtain rfl := hclosed.name_eq hkeeps hseg hid
    refine absurd ⟨?_, hkeeps.identity hseg⟩ hchanged
    have hfile := hclosed.isRegular_segment hseg
    rwa [← hkeeps.files] at hfile
  rintro _ _ ⟨rfl, hregular, hidentity⟩
  obtain ⟨rfl, hsize⟩ := Prod.mk.inj hidentity
  refine Wp.pure ?_
  rw [hsize]
  exact h.concat hsplit hkeeps hframe hid hwhy hregular

end Round

/-! ## The loop over the inventory -/

theorem partialBags_concat {fs : FileSystem} {names : List String} {name : String} {id : FileId}
    (hid : fs.directory[name]? = some id) :
    partialBags fs (names ++ [name]) = partialBags fs names ++
      if isActive name then [.partialBag name (fs.info id).sizeBytes] else [] := by
  by_cases hactive : isActive name = true
  · simp [partialBags, hactive, FileSystem.lstat_of_some hid]
  · simp [partialBags, hactive]

/-- The names that have been inspected are open volumes, which are listed, or issued. -/
structure Inspected (r : Recorder) (before : FileSystem) (doc : Manifest) (seen : Disk)
    (names : List String) (s : Session) : Prop where
  disk : s.disk = seen
  document : s.document = { doc with bagFiles := partialBags seen.toFileSystem names }
  issued : ∀ name ∈ names, isActive name = false → ∃ seg ∈ r.segments before, seg.name = name

section Inventory

variable {seen : Disk} {names : List String}
  (htreated : Treated allowed r before doc (r.segments before) (r.byIndex (r.segments before))
    ⟨seen, doc⟩)

include htreated

/-- Inspecting changes the list of bag files in the document, and nothing else. -/
theorem Inspected.moving (h : Inspected r before doc seen names s) : Moving r before doc s where
  keeps := by rw [h.disk]; exact htreated.moving.keeps
  manifest := by rw [h.disk]; exact htreated.moving.manifest
  recording := by rw [h.document]
  segments := by rw [h.document]; exact htreated.moving.segments

/-- **One round of the second loop.** -/
theorem wp_inspect (h : Inspected r before doc seen names s) {name : String}
    (hname : name ∈ r.recordedNames seen.directory) :
    Wp allowed (r.inspect ((r.byIndex (r.segments before)).entries.map BagFile.name) name)
      (ends allowed r before (Moving r before doc) fun _ =>
        Inspected r before doc seen (names ++ [name])) s := by
  obtain ⟨⟨id, hid⟩, hrecorded⟩ := mem_recordedNames.mp hname
  have hmoving := h.moving htreated
  have hkeeps := htreated.moving.keeps
  obtain ⟨hdisk, hdocument, hissued⟩ := h
  have hfound : s.disk.directory[name]? = some id := by rw [hdisk]; exact hid
  unfold Recorder.inspect
  refine Wp.bind (R := fun info s' => s = s' ∧ info = seen.info id)
    (wp_lstat hmoving (fun id' hid' => ⟨rfl, ?_⟩) fun hnone => ?_) ?_
  · rw [Option.some.inj (hid'.symm.trans hfound), hdisk]
  · exact absurd (hnone.symm.trans hfound) (by simp)
  rintro _ _ ⟨rfl, rfl⟩
  refine Wp.bind (R := fun _ s' => s = s') (wp_require hmoving (fun _ => rfl)
    fun hspecial hclosed => absurd ?_ hspecial) ?_
  · change (seen.files id).isRegular = true
    rw [hkeeps.files]
    rcases hkeeps.added name id hid with hbefore | ⟨seg, hseg, -, rfl⟩
    · exact hclosed.isRegular hbefore hrecorded
    · exact hclosed.isRegular_segment hseg
  rintro _ _ rfl
  by_cases hactive : isActive name = true
  · rw [if_pos hactive]
    refine Wp.modify ⟨hdisk, ?_, List.forall_mem_append.mpr ⟨hissued, ?_⟩⟩
    · rw [partialBags_concat hid, if_pos hactive, hdocument]
    · exact List.forall_mem_singleton.mpr fun hclosedName => absurd hactive (by simp [hclosedName])
  · rw [if_neg hactive]
    refine wp_require hmoving (fun hexpected => ?_) fun hunowned hclosed => ?_
    · refine ⟨hdisk, ?_, List.forall_mem_append.mpr ⟨hissued, ?_⟩⟩
      · rw [partialBags_concat hid, if_neg hactive, List.append_nil, hdocument]
      · exact List.forall_mem_singleton.mpr fun _ => Recorder.mem_expectedNames.mp hexpected
    · -- In a closed archive a closed name is a native one, and those are gone.
      rcases hkeeps.added name id hid with hbefore | ⟨seg, hseg, hseg', -⟩
      · obtain ⟨seg, hseg, rfl⟩ := hclosed.exists_segment hbefore hrecorded
          (Bool.not_eq_true _ ▸ hactive)
        refine (htreated.absent seg hseg).resolve_left fun habsent => ?_
        exact absurd (habsent.symm.trans hid) (by simp)
      · exact absurd (Recorder.mem_expectedNames.mpr ⟨seg, hseg, hseg'⟩) hunowned

/-- A directory that passes the inspection has every volume under its issued name only. -/
theorem Inspected.moved (h : Inspected r before doc seen (r.recordedNames seen.directory) s) :
    ∀ seg ∈ r.segments before, Moved seen.toFileSystem seg := by
  refine fun seg hseg => ⟨?_, htreated.named seg hseg⟩
  cases hid : seen.directory[seg.sourceName]? with
  | none => rfl
  | some id =>
      have hname : seg.sourceName ∈ r.recordedNames seen.directory :=
        mem_recordedNames.mpr ⟨⟨id, hid⟩, Recorder.isRecorded_sourceName hseg⟩
      obtain ⟨seg', hseg', hissued⟩ := h.issued _ hname (Recorder.isActive_sourceName hseg)
      exact absurd hissued (Recorder.name_ne_sourceName hseg' hseg)

end Inventory

/-- **The body of the finalization** returns with everything settled. -/
theorem wp_settle {R : Unit → Session → Prop} (h : Moving r before doc s)
    (hdocument : s.document = doc) (hbagFiles : doc.bagFiles = [])
    (hR : ∀ s', Moving r before doc s' →
      s'.document.archiveFinalizationState = some .finalized →
        Settled r before s'.disk.toFileSystem s'.document → R () s') :
    Wp allowed (r.settle (r.segments before))
      (ends allowed r before (Moving r before doc) R) s := by
  unfold Recorder.settle
  refine Wp.bind (Wp.foldlM (I := Treated allowed r before doc)
    (fun treated seg todo entries s hsplit h => wp_finalizeSegment hsplit h)
    ⟨h, hdocument, rfl, by simp, by simp, by simp⟩) ?_
  rintro _ ⟨seen, document⟩ htreated
  obtain rfl := htreated.byIndex
  obtain rfl : document = doc := htreated.document
  refine Wp.bind (R := fun names s' => ⟨seen, document⟩ = s' ∧
    names = r.recordedNames seen.directory) (wp_recordedPaths htreated.moving ⟨rfl, rfl⟩) ?_
  rintro _ _ ⟨rfl, rfl⟩
  refine Wp.bind (Wp.foldlM
    (I := fun names (_ : Unit) => Inspected r before document seen names)
    (fun names name todo _ s hsplit h => wp_inspect htreated h ?_) ⟨rfl, ?_, by simp⟩) ?_
  · rw [← hsplit]
    simp
  · change document = { document with bagFiles := [] }
    rw [← hbagFiles]
  intro _ s' hinspected
  refine Wp.modify (hR _ ?_ rfl ?_)
  · obtain ⟨hkeeps, hmanifest, hrecording, hsegments⟩ := hinspected.moving htreated
    exact ⟨hkeeps, hmanifest, hrecording, hsegments⟩
  · rw [hinspected.disk]
    refine ⟨hinspected.moved htreated, ?_, rfl, ?_⟩
    · exact (hinspected.moving htreated).segments
    · rw [Manifest.finalized, hinspected.document]

end Loops

end Ros1Tools.Archive
