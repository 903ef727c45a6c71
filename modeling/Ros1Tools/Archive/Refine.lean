import Ros1Tools.Archive.Stable

/-!
# The finalization one level up

On storage behind a cache, a run of the finalization is a run of the finalization one
level up, which knows of no cache (`sim_finalizeArchiveFiles`, `sim_resume`).  What the
cache adds, that a power cut brings back a directory from before, is no more than the
level above has already: every directory that may come back is one at which the process
above could have been stopped.

Writing the manifest takes a handful of system calls and a clean-up.  From above it is one
replacement, with something before it and something behind it that can fail.
-/

namespace Ros1Tools.Archive.Durable

open Lib Lib.Faulty

/-- How the storage is seen from above. -/
def Host.abstraction (host : Host) : Abstraction Machine Session Disk where
  view := host.session
  kept s := s.disk
  past s := host.past s.volume

section Writing

variable {allowed : Fate PyException → Prop} {host : Host} {before : Directory} {r : Recorder}
  {pid : Nat} {s t : Machine} {P : Machine → Prop} {α : Type}

/-! ## Writing the manifest -/

/-- Nothing has happened that is seen from above. -/
structure Quiet (host : Host) (before : Directory) (s s' : Machine) : Prop where
  stable : Stable host before s'.volume
  hides : Hides host s.volume s'.volume
  document : s'.document = s.document

/-- The document has replaced the manifest. -/
structure Written (host : Host) (before : Directory) (s s' : Machine) : Prop where
  stable : Stable host before s'.volume
  disk : host.diskOf s'.volume = (host.diskOf s.volume).replaceManifest s.document
  views : ∀ disk ∈ host.views s'.volume, disk ∈ host.views s.volume ∨
    disk = (host.diskOf s.volume).replaceManifest s.document
  document : s'.document = s.document

theorem Quiet.refl (h : Stable host before s.volume) : Quiet host before s s :=
  ⟨h, .refl host _, rfl⟩

theorem Quiet.trans {s' s'' : Machine} (h : Quiet host before s s')
    (h' : Quiet host before s' s'') : Quiet host before s s'' :=
  ⟨h'.stable, h.hides.trans h'.hides, h'.document.trans h.document⟩

theorem Written.trans {s' s'' : Machine} (h : Written host before s s')
    (h' : Quiet host before s' s'') : Written host before s s'' where
  stable := h'.stable
  disk := h'.hides.disk.trans h.disk
  document := h'.document.trans h.document
  views disk hdisk := h.views disk (h'.hides.views hdisk)

/-- Wherever writing it may have stopped, nothing comes back that could not, but for the
document. -/
theorem views_of_stopped {s' : Machine} (h : Quiet host before s s' ∨ Written host before s s')
    {disk : Disk} (hdisk : disk ∈ host.views s'.volume) :
    disk ∈ host.views s.volume ∨ disk = (host.diskOf s.volume).replaceManifest s.document :=
  h.elim (fun h => .inl (h.hides.views hdisk)) fun h => h.views disk hdisk

/-- A part of the manifest is on its way: it has a file of its own. -/
def HasPart (pid : Nat) (id : FileId) (s : Machine) : Prop :=
  s.volume.directory.now[partName pid]? = some id

/-- A part of the manifest is complete, and on the medium. -/
structure Complete (pid : Nat) (encoded : List UInt8) (id : FileId) (s : Machine) : Prop where
  part : HasPart pid id s
  bytes : (s.volume.files id).bytes = encoded
  synced : s.volume.synced id = true

/-- Returns with `R`, and otherwise stops at an allowed fault, where `P` holds. -/
def faulted (allowed : Fate PyException → Prop) (P : Machine → Prop) (R : α → Machine → Prop) :
    Post PyException Machine α :=
  ⟨R, fun e s => allowed (.error e) ∧ P s, fun s => allowed .crash ∧ P s⟩

theorem wp_change {f : Volume → Volume} {R : Unit → Machine → Prop} (hP : P s)
    (hR : R () (s.on (f s.volume))) : Wp allowed (change f) (faulted allowed P R) s :=
  Wp.atomic (by rintro _ _ ⟨⟩; exact hR) (by rintro _ ⟨⟩) (fun _ he => ⟨he, hP⟩)
    fun hcrash => ⟨hcrash, hP⟩

theorem wp_idle {R : Unit → Machine → Prop} (hP : P s) (hR : R () s) :
    Wp allowed idle (faulted allowed P R) s :=
  wp_change hP hR

theorem wp_openPart (h : Stable host before s.volume) :
    Wp allowed (openPart host pid) (faulted allowed (Quiet host before s)
      fun id s' => Quiet host before s s' ∧ HasPart pid id s') s := by
  have hpart := isPart_partName pid
  refine Wp.atomic (fun id s' hok => ?_) (fun e herror => ?_) (fun _ he => ⟨he, .refl h⟩)
    fun hcrash => ⟨hcrash, .refl h⟩
  · split at hok
    · rename_i id hid
      cases hok
      exact ⟨⟨h.write hpart hid _, h.hides_write hpart hid _, rfl⟩, hid⟩
    · -- A new part is written once it has its name.
      cases hok
      have hcreated := h.createPart pid (host.allocate_fresh s.volume.directory)
      have hid : (s.volume.directory.now.insert (partName pid)
          (host.allocate s.volume.directory))[partName pid]? =
            some (host.allocate s.volume.directory) := Std.ExtTreeMap.getElem?_insert_self
      exact ⟨⟨hcreated.write hpart hid _, (hides_setDirectory (disk_insert_part pid _)).trans
        (hcreated.hides_write hpart hid _), rfl⟩, hid⟩
  · split at herror <;> cases herror

theorem wp_fillPart (h : Stable host before s.volume) (encoded : List UInt8) :
    Wp allowed (fillPart host pid encoded) (faulted allowed (Quiet host before s)
      fun _ s' => Quiet host before s s' ∧ ∃ id, Complete pid encoded id s') s := by
  have hpart := isPart_partName pid
  refine Wp.bind (wp_openPart h) ?_
  rintro id s₁ ⟨hquiet₁, hid⟩
  refine Wp.ensuring (R := fun _ s' => Quiet host before s s' ∧ ∃ id, Complete pid encoded id s')
    (F := fun e s' => allowed (.error e) ∧ Quiet host before s s') ?_
    (fun _ _ hdone => wp_idle hdone.1 hdone) fun _ _ hraised => wp_idle hraised.2 hraised
  have hquiet₂ : Quiet host before s (s₁.on (s₁.volume.write id ⟨true, encoded⟩)) :=
    hquiet₁.trans ⟨hquiet₁.stable.write hpart hid _, hquiet₁.stable.hides_write hpart hid _, rfl⟩
  refine Wp.bind_eq (wp_change hquiet₁ rfl) fun _ => ?_
  refine wp_change hquiet₂ ⟨hquiet₂.trans ⟨hquiet₂.stable.syncFile id, hides_syncFile id, rfl⟩,
    id, hid, ?_, Storage.synced_syncFile_self⟩
  exact congrArg File.bytes (Storage.files_write_self _)

/-- A part that is gone already is not missed. -/
theorem wp_discardPart (h : Stable host before s.volume) :
    Wp allowed (discardPart r pid)
      (faulted allowed (Quiet host before s) fun _ => Quiet host before s) s := by
  refine Wp.tryCatch (F := fun e s' => (e = r.noSuchFile (partName pid) ∨ allowed (.error e)) ∧
    Quiet host before s s') ?_ ?_
  · refine Wp.atomic (fun _ s' hok => ?_) (fun e herror => ⟨.inl ?_, .refl h⟩)
      (fun _ he => ⟨.inr he, .refl h⟩) fun hcrash => ⟨hcrash, .refl h⟩
    · split at hok
      · cases hok
      · cases hok
        exact ⟨h.erasePart pid, hides_setDirectory (disk_erase_part pid), rfl⟩
    · split at herror
      · cases herror
        rfl
      · cases herror
  · rintro e s' ⟨hwhy, hquiet⟩
    split
    · exact Wp.pure hquiet
    · rename_i hother
      exact Wp.throw ⟨hwhy.resolve_left hother, hquiet⟩

theorem wp_replacePart {encoded : List UInt8} {id : FileId} (h : Quiet host before s t)
    (hcomplete : Complete pid encoded id t) (hencoded : encoded = host.encode s.document) :
    Wp allowed (replacePart r pid)
      (faulted allowed (Quiet host before s) fun _ => Written host before s) t := by
  have hid : t.volume.directory.now[partName pid]? = some id := hcomplete.part
  refine Wp.atomic (fun _ s' hok => ?_) (fun e herror => ?_) (fun _ he => ⟨he, h⟩)
    fun hcrash => ⟨hcrash, h⟩
  · rw [hid] at hok
    cases hok
    have hbytes := hcomplete.bytes.trans hencoded
    have hdisk := (disk_replace pid hbytes).trans
      (congrArg (·.replaceManifest s.document) h.hides.disk)
    exact ⟨h.stable.replacePart pid hid hcomplete.synced hbytes, hdisk, List.forall_mem_cons.mpr
      ⟨.inr hdisk, fun disk hpast => .inl (h.hides.views hpast)⟩, h.document⟩
  · rw [hid] at herror
    cases herror

/-- **Writing the manifest.**  Wherever it stops, nothing is seen from above or the
document has replaced the manifest; when it returns, the document has and nothing else
comes back. -/
theorem wp_writeManifest_durable (h : Stable host before s.volume) :
    Wp allowed (writeManifest host r pid)
      (faulted allowed (fun s' => Quiet host before s s' ∨ Written host before s s')
        fun _ s' => Written host before s s' ∧ s'.volume.directory.earlier = []) s := by
  refine Wp.bind (R := fun document s' => s = s' ∧ document = s.document)
    (Wp.gets ⟨rfl, rfl⟩) ?_
  rintro _ _ ⟨rfl, rfl⟩
  refine Wp.bind (R := fun _ => Written host before s) ?_ fun _ s₁ hwritten => ?_
  · refine Wp.ensuring (R := fun _ => Written host before s)
      (F := fun e s' => allowed (.error e) ∧ Quiet host before s s') ?_ (fun _ s₁ hwritten => ?_)
      fun e s₁ hraised => ?_
    · refine Wp.bind ((wp_fillPart h _).mono (fun _ _ hdone => hdone) (fun _ _ hquiet => hquiet)
        fun _ hquiet => hquiet.imp_right .inl) ?_
      rintro _ s₁ ⟨hquiet, id, hcomplete⟩
      exact (wp_replacePart hquiet hcomplete rfl).mono (fun _ _ hwritten => hwritten)
        (fun _ _ hquiet => hquiet) fun _ hquiet => hquiet.imp_right .inl
    · exact (wp_discardPart hwritten.stable).mono (fun _ _ hquiet => hwritten.trans hquiet)
        (fun _ _ hquiet => hquiet.imp_right fun h => .inr (hwritten.trans h))
        fun _ hquiet => hquiet.imp_right fun h => .inr (hwritten.trans h)
    · exact (wp_discardPart hraised.2.stable).mono
        (fun _ _ hquiet => ⟨hraised.1, .inl (hraised.2.trans hquiet)⟩)
        (fun _ _ hquiet => hquiet.imp_right fun h => .inl (hraised.2.trans h))
        fun _ hquiet => hquiet.imp_right fun h => .inl (hraised.2.trans h)
  · refine Wp.bind_eq (wp_idle (.inr hwritten) rfl) fun _ => ?_
    have hsynced : Written host before s (s₁.on s₁.volume.syncDirectory) :=
      hwritten.trans ⟨hwritten.stable.syncDirectory, hides_syncDirectory, rfl⟩
    refine Wp.ensuring (R := fun _ s' => s₁.on s₁.volume.syncDirectory = s')
      (F := fun e s' => allowed (.error e) ∧
        (Quiet host before s s' ∨ Written host before s s'))
      (wp_change (.inr hwritten) rfl) ?_ fun _ _ hraised => wp_idle hraised.2 hraised
    rintro _ _ rfl
    exact wp_idle (.inr hsynced) ⟨hsynced, rfl⟩

end Writing

/-! ## Programs that only look -/

/-- A program one level up that changes no disk, and leaves the faults behind it to be
chosen. -/
def Looks {α : Type} (allowed : Fate PyException → Prop) (m : Finalizer α)
    (R : α → Session → Prop) (s : Session) : Prop :=
  Sim (.id Session) allowed ⟨fun a s' => s'.disk = s.disk ∧ R a s', fun _ s' => s'.disk = s.disk,
    fun s' => s'.disk = s.disk⟩ m m s

namespace Looks

variable {allowed : Fate PyException → Prop} {α β : Type} {m : Finalizer α}
  {k : α → Finalizer β} {s : Session} {R : α → Session → Prop} {S : β → Session → Prop}
  {r : Recorder} {name : String}

theorem bind (h : Looks allowed m R s) (hk : ∀ a s', R a s' → Looks allowed (k a) S s') :
    Looks allowed (m >>= k) S s := by
  refine Sim.bind h fun a s' hR => ?_
  exact (hk a s' hR.2).mono (fun _ _ h => ⟨h.1.trans hR.1, h.2⟩) (fun _ _ h => h.trans hR.1)
    fun _ h => h.trans hR.1

theorem pure {a : α} (h : R a s) : Looks allowed (Pure.pure a) R s := Sim.pure ⟨rfl, h⟩

theorem throw {e : PyException} : Looks allowed (MonadExcept.throw e : Finalizer α) R s :=
  Sim.throw rfl

theorem require {R : Unit → Session → Prop} {c : Prop} [Decidable c] {e : PyException}
    (h : c → R () s) : Looks allowed (Faulty.require c e) R s :=
  Sim.require (fun hc => ⟨rfl, h hc⟩) fun _ => rfl

theorem modify {f : Session → Session} {R : Unit → Session → Prop} (hf : (f s).disk = s.disk)
    (h : R () (f s)) : Looks allowed (Faulty.modify f) R s :=
  Sim.modify rfl rfl ⟨hf, h⟩

theorem gets {f : Session → α} (h : R (f s) s) : Looks allowed (Faulty.gets f) R s :=
  Sim.gets rfl ⟨rfl, h⟩

/-- A step that leaves everything as it is. -/
theorem step {f : Session → Except PyException (α × Session)}
    (h : ∀ a s', f s = .ok (a, s') → s' = s ∧ R a s) : Looks allowed (Faulty.atomic f) R s := by
  refine Sim.atomic_self (fun a s' hf => ?_) (fun _ => rfl) rfl
  obtain ⟨rfl, hR⟩ := h a s' hf
  exact ⟨rfl, hR⟩

theorem foldlM {f : α → β → Finalizer α} {bs : List β} {a : α}
    (hstep : ∀ a b s, Looks allowed (f a b) (fun _ _ => True) s) :
    Looks allowed (bs.foldlM f a) (fun _ _ => True) s := by
  refine Sim.foldlM (I := fun _ _ (s' : Session) => s'.disk = s.disk ∧ True) ?_ ⟨rfl, trivial⟩
  intro treated b todo a s' _ hsame
  exact (hstep a b s').mono (fun _ _ h => ⟨h.1.trans hsame.1, trivial⟩)
    (fun _ _ h => h.trans hsame.1) fun _ h => h.trans hsame.1

theorem tryCatch {handler : PyException → Finalizer α} (h : Looks allowed m R s)
    (hh : ∀ e s', Looks allowed (handler e) R s') :
    Looks allowed (MonadExcept.tryCatch m handler) R s :=
  Sim.tryCatch h fun e s' hsame => (hh e s').mono (fun _ _ h => ⟨h.1.trans hsame, h.2⟩)
    (fun _ _ h => h.trans hsame) fun _ h => h.trans hsame

/-! ### The programs -/

theorem recordedPaths : Looks allowed r.recordedPaths (fun _ _ => True) s :=
  step (by rintro _ _ ⟨⟩; exact ⟨rfl, trivial⟩)

/-- What `lstat` tells is of the file with the name. -/
theorem lstat : Looks allowed (r.lstat name)
    (fun info s' => ∃ id, s'.disk.directory[name]? = some id ∧ info.id = id) s := by
  refine step fun info s' hok => ?_
  cases hid : s.disk.directory[name]? with
  | none => rw [FileSystem.lstat_of_none hid] at hok; cases hok
  | some id =>
      rw [FileSystem.lstat_of_some hid] at hok
      cases hok
      exact ⟨rfl, id, rfl, rfl⟩

theorem lexists : Looks allowed (r.lexists name) (fun _ _ => True) s := by
  refine tryCatch (bind lstat fun _ _ _ => pure trivial) fun e s' => ?_
  split
  · exact pure trivial
  · exact throw

/-- A link that was refused is made up for by the same file under both names. -/
theorem resumeLink {info : FileInfo} {destination : String} {e : PyException} :
    Looks allowed (r.resumeLink info destination e)
      (fun _ s' => s'.disk.directory[destination]? = some info.id) s := by
  unfold Recorder.resumeLink
  split
  · refine bind lstat ?_
    rintro found s' ⟨id, hid, rfl⟩
    refine require fun hsame => ?_
    rw [hsame.2]
    exact hid
  · exact throw

theorem pinSegment {segments : List Segment} :
    Looks allowed (r.pinSegment segments name) (fun _ _ => True) s := by
  unfold Recorder.pinSegment
  split
  · exact pure trivial
  · split
    · exact pure trivial
    · refine bind lstat fun _ _ _ => ?_
      exact bind (R := fun _ _ => True) (require fun _ => trivial) fun _ _ _ => pure trivial

theorem pinSegments : Looks allowed r.pinSegments (fun _ _ => True) s := by
  unfold Recorder.pinSegments
  refine bind (R := fun _ _ => True) (gets trivial) fun found s' _ => ?_
  cases found with
  | some segments => exact pure trivial
  | none =>
      refine bind recordedPaths fun names s' _ => ?_
      refine bind (foldlM fun _ _ _ => pinSegment) fun segments s' _ => ?_
      exact bind (R := fun _ _ => True) (modify rfl trivial) fun _ _ _ => pure trivial

theorem inspect {expected : List String} :
    Looks allowed (r.inspect expected name) (fun _ _ => True) s := by
  unfold Recorder.inspect
  refine bind lstat fun info s' _ => ?_
  refine bind (R := fun _ _ => True) (require fun _ => trivial) fun _ s' _ => ?_
  split
  · exact modify rfl trivial
  · exact require fun _ => trivial

theorem inspectAll {byIndex : ByIndex} :
    Looks allowed (Durable.inspectAll r byIndex) (fun _ _ => True) s := by
  unfold Durable.inspectAll
  refine bind recordedPaths fun names s' _ => ?_
  exact bind (foldlM fun _ _ _ => inspect) fun _ _ _ => modify rfl trivial

end Looks

/-! ## One level up -/

section Simulation

variable {allowed : Fate PyException → Prop} {host : Host} {before : Directory} {r : Recorder}
  {pid : Nat} {s : Machine} {α : Type}

/-- Returns with `R`, and otherwise stops with a stable volume. -/
def stably (host : Host) (before : Directory) (R : α → Machine → Prop) :
    Post PyException Machine α :=
  ⟨R, fun _ s => Stable host before s.volume, fun s => Stable host before s.volume⟩

/-- Ends with a stable volume. -/
abbrev keeping (host : Host) (before : Directory) : Post PyException Machine α :=
  stably host before fun _ s => Stable host before s.volume

theorem sim_look {m : Finalizer α} {R : α → Session → Prop} {R' : α → Machine → Prop}
    (hm : Looks allowed m R (host.session s)) (h : Stable host before s.volume)
    (hR : ∀ a s', s'.volume = s.volume → R a (host.session s') → R' a s') :
    Sim host.abstraction allowed (stably host before R') (look host m) m s := by
  have hput : ∀ s' : Session, s'.disk = (host.session s).disk →
      host.session { s with document := s'.document } = s' := fun s' hsame =>
    congrArg (fun disk => (⟨disk, s'.document⟩ : Session)) hsame.symm
  refine Sim.zoom hm (fun s' hsame => ⟨hput s' hsame, rfl⟩) (fun a s' hsame hdone => ?_)
    (fun _ _ _ => h) fun _ _ => h
  refine hR a _ rfl ?_
  rw [hput s' hsame]
  exact hdone

/-- Looking leaves a stable volume. -/
theorem sim_look_stable {m : Finalizer α} {R : α → Session → Prop}
    (hm : Looks allowed m R (host.session s)) (h : Stable host before s.volume) :
    Sim host.abstraction allowed (keeping host before) (look host m) m s :=
  sim_look hm h fun _ s' hvolume _ => by rw [hvolume]; exact h

/-- A check that is passed changes nothing. -/
theorem sim_require {c : Prop} [Decidable c] {e : PyException} (h : Stable host before s.volume) :
    Sim host.abstraction allowed (stably host before fun _ s' => s = s') (require c e)
      (require c e) s :=
  Sim.require (fun _ => rfl) fun _ => h

/-- The document is the process's own. -/
theorem sim_document (f : Manifest → Manifest) (h : Stable host before s.volume) :
    Sim host.abstraction allowed (keeping host before)
      (modify fun s => { s with document := f s.document })
      (modify fun s => { s with document := f s.document }) s :=
  Sim.modify rfl rfl h

/-- What `lstat` tells of a bag. -/
theorem sim_lstat {name : String} (hname : isOwn name = false)
    (h : Stable host before s.volume) :
    Sim host.abstraction allowed (stably host before fun info s' => s'.volume = s.volume ∧
      ∃ id, s.volume.directory.now[name]? = some id ∧ info.id = id)
      (look host (r.lstat name)) (r.lstat name) s := by
  refine sim_look Looks.lstat h ?_
  rintro info s' hvolume ⟨id, hid, rfl⟩
  refine ⟨hvolume, info.id, ?_, rfl⟩
  rw [← hvolume]
  exact (getElem?_bags_of_bag hname).symm.trans hid

/-- A change that is not seen from above is a step that does nothing there. -/
theorem sim_change {f : Volume → Volume} {R : Unit → Machine → Prop}
    (h : Stable host before s.volume) (hhides : Hides host s.volume (f s.volume))
    (hR : R () (s.on (f s.volume))) :
    Sim host.abstraction allowed (stably host before R) (change f) sync s := by
  refine Sim.atomic (fun _ s' hok => ?_) (by rintro _ ⟨⟩) (fun _ => h) h
  cases hok
  refine ⟨?_, hR, fun disk hdisk => ?_⟩
  · exact congrArg (fun disk => Except.ok ((), (⟨disk, s.document⟩ : Session))) hhides.disk.symm
  · exact (List.mem_cons.mp (hhides.views (List.mem_cons_of_mem _ hdisk))).symm.imp_right Eq.symm

theorem sim_writeManifest (h : Stable host before s.volume) :
    Sim host.abstraction allowed (keeping host before) (writeManifest host r pid)
      Archive.writeManifest s := by
  have hquiet : ∀ s', Quiet host before s s' → host.session s' = host.session s := by
    intro s' h'
    rw [Host.session, Host.session, h'.hides.disk, h'.document]
  have hwritten : ∀ s', Written host before s s' → host.session s' = (host.session s).written := by
    intro s' h'
    rw [Host.session, h'.disk, h'.document]
    rfl
  -- Above, a run can be stopped before and behind the replacement.
  have hpast : ∀ s', Quiet host before s s' ∨ Written host before s s' →
      host.abstraction.Recent Archive.writeManifest s s' := by
    intro s' h' disk hdisk
    rcases views_of_stopped h' (List.mem_cons_of_mem _ hdisk) with hold | rfl
    · refine (List.mem_cons.mp hold).symm.imp_right ?_
      rintro rfl
      exact ⟨[.crash], host.session s, rfl, rfl⟩
    · exact .inr ⟨[.proceed, .proceed, .crash], (host.session s).written, rfl, rfl⟩
  have hwp : Wp allowed (writeManifest host r pid) _ s := wp_writeManifest_durable h
  refine Sim.mono (Sim.of_wp hwp fun o hmeets => ?_) (fun _ _ hdone => hdone.1.stable)
    (fun _ _ hraised => hraised.2.elim (·.stable) (·.stable))
    fun _ hcrash => hcrash.2.elim (·.stable) (·.stable)
  cases o with
  | done u s' left =>
      refine ⟨hpast s' (.inr hmeets.1.1), fun rest =>
        ⟨.proceed :: .proceed :: .proceed :: rest, .proceed (.proceed (.proceed .refl)), ?_⟩⟩
      exact congrArg (Outcome.done () · rest) (hwritten s' hmeets.1.1).symm
  | raised e s' left =>
      obtain ⟨⟨he, h'⟩, -⟩ := hmeets
      refine ⟨hpast s' h', fun rest => ?_⟩
      rcases h' with h' | h'
      · exact ⟨.error e :: rest, .cons he .refl,
          congrArg (Outcome.raised e · rest) (hquiet s' h').symm⟩
      · exact ⟨.proceed :: .proceed :: .error e :: rest, .proceed (.proceed (.cons he .refl)),
          congrArg (Outcome.raised e · rest) (hwritten s' h').symm⟩
  | crashed s' =>
      obtain ⟨hcrash, h'⟩ := hmeets
      refine ⟨hpast s' h', fun rest => ?_⟩
      rcases h' with h' | h'
      · exact ⟨.crash :: rest, .cons hcrash .refl,
          congrArg Outcome.crashed (hquiet s' h').symm⟩
      · exact ⟨.proceed :: .proceed :: .crash :: rest,
          .proceed (.proceed (.cons hcrash .refl)),
          congrArg Outcome.crashed (hwritten s' h').symm⟩

/-! ## Moving a volume -/

variable {source destination : String}

theorem sim_link {id : FileId} (hsource : isOwn source = false)
    (hdestination : isOwn destination = false) (h : Stable host before s.volume)
    (hid : s.volume.directory.now[source]? = some id) :
    Sim host.abstraction allowed ⟨fun _ s' => Stable host before s'.volume ∧
        s'.volume.directory.now[source]? = some id ∧
        s'.volume.directory.now[destination]? = some id ∧ s'.volume.synced = s.volume.synced,
        fun _ s' => s'.volume = s.volume, fun s' => Stable host before s'.volume⟩
      (link r source destination) (r.link source destination) s := by
  have habove : (host.abstraction.view s).disk.directory[source]? = some id :=
    (getElem?_bags_of_bag hsource).trans hid
  have hmem : destination ∈ (host.abstraction.view s).disk.directory ↔
      destination ∈ s.volume.directory.now := by
    rw [Std.ExtTreeMap.mem_iff_isSome_getElem?, Std.ExtTreeMap.mem_iff_isSome_getElem?]
    exact iff_of_eq (congrArg (·.isSome = true) (getElem?_bags_of_bag hdestination))
  refine Sim.atomic (fun _ s' hok => ?_) (fun e herror => ?_) (fun _ => rfl) h
  · rw [hid] at hok
    simp only at hok
    split at hok
    · cases hok
    · rename_i hfree
      have hnone : s.volume.directory.now[destination]? = none := by
        rw [Std.ExtTreeMap.mem_iff_isSome_getElem?, Bool.not_eq_true,
          Option.isSome_eq_false_iff] at hfree
        exact Option.isNone_iff_eq_none.mp hfree
      cases hok
      refine ⟨?_, ⟨h.link hsource hdestination hid hnone, ?_, ?_, rfl⟩, fun disk hdisk => ?_⟩
      · rw [habove]
        dsimp only
        rw [if_neg (fun htaken => hfree (hmem.mp htaken))]
        exact congrArg (fun disk => Except.ok ((), (⟨disk, s.document⟩ : Session)))
          (disk_link hsource hdestination hid hnone).symm
      · refine (getElem?_insert_of_ne ?_).trans hid
        rintro rfl
        exact absurd (hnone.symm.trans hid) (by simp)
      · exact Std.ExtTreeMap.getElem?_insert_self
      · exact (List.mem_cons.mp hdisk).symm.imp_right Eq.symm
  · rw [hid] at herror
    simp only at herror
    split at herror
    · rename_i htaken
      rw [habove]
      dsimp only
      rw [if_pos (hmem.mpr htaken)]
      cases herror
      rfl
    · cases herror

theorem sim_unlink {id : FileId} {R : Unit → Machine → Prop} (hsource : isOwn source = false)
    (h : Stable host before s.volume) (hid : s.volume.directory.now[source]? = some id)
    (hR : R () (s.on (s.volume.setDirectory (s.volume.directory.now.erase source)))) :
    Sim host.abstraction allowed (stably host before R) (unlink r source) (r.unlink source) s := by
  have habove : (host.abstraction.view s).disk.directory[source]? = some id :=
    (getElem?_bags_of_bag hsource).trans hid
  refine Sim.atomic (fun _ s' hok => ?_) (fun e herror => ?_) (fun _ => h) h
  · rw [hid] at hok
    cases hok
    refine ⟨?_, hR, fun disk hdisk => (List.mem_cons.mp hdisk).symm.imp_right Eq.symm⟩
    rw [habove]
    exact congrArg (fun disk => Except.ok ((), (⟨disk, s.document⟩ : Session)))
      (disk_unlink hsource hid).symm
  · rw [hid] at herror
    cases herror

/-- **Moving a volume.**  It is on the medium before it gets its second name, and both
names are before it loses the first. -/
theorem sim_moveClosedWithoutReplacement (hsource : isOwn source = false)
    (hdestination : isOwn destination = false) (hne : destination ≠ source)
    (h : Stable host before s.volume) :
    Sim host.abstraction allowed (keeping host before)
      (moveClosedWithoutReplacement host r source destination)
      (r.moveClosedWithoutReplacement source destination) s := by
  refine Sim.bind (sim_lstat hsource h) ?_
  rintro sourceInfo s₁ ⟨hvolume, id, hid, hsourceInfo⟩
  rw [← hvolume] at h hid
  refine Sim.bind (sim_require h) ?_
  rintro _ _ rfl
  refine Sim.bind (sim_lstat hsource h) ?_
  rintro opened s₂ ⟨hvolume₂, id', hid', hopened⟩
  obtain rfl := Option.some.inj (hid.symm.trans hid')
  rw [← hvolume₂] at h hid
  refine Sim.bind (sim_require h) ?_
  rintro _ _ rfl
  refine Sim.bind (R := fun _ s' => s₂.on (s₂.volume.syncFile opened.id) = s')
    (sim_change h (hides_syncFile _) rfl) ?_
  rintro _ _ rfl
  have hsynced : (s₂.volume.syncFile opened.id).synced id = true := by
    rw [← hopened]
    exact Storage.synced_syncFile_self
  refine Sim.bind (R := fun _ s' => Stable host before s'.volume ∧
    s'.volume.directory.now[source]? = some id ∧ s'.volume.directory.now[destination]? = some id ∧
      s'.volume.synced id = true) ?_ ?_
  · refine Sim.tryCatch (F := fun _ s' => s'.volume = s₂.volume.syncFile opened.id)
      ((sim_link (s := s₂.on (s₂.volume.syncFile opened.id)) hsource hdestination
        (h.syncFile _) hid).mono ?_ (fun _ _ hsame => hsame)
        fun _ hstable => hstable) fun e s₃ hsame => ?_
    · rintro _ s' ⟨hstable, hold, hnew, hsame⟩
      exact ⟨hstable, hold, hnew, by rw [hsame]; exact hsynced⟩
    · have hstable : Stable host before s₃.volume := by
        rw [hsame]
        exact h.syncFile _
      refine sim_look Looks.resumeLink hstable fun _ s' hvolume' hnew => ?_
      rw [hvolume', hsame]
      refine ⟨h.syncFile _, hid, ?_, hsynced⟩
      have hnow : s'.volume.directory.now[destination]? = some sourceInfo.id :=
        (getElem?_bags_of_bag hdestination).symm.trans hnew
      rw [hvolume', hsame, hsourceInfo] at hnow
      exact hnow
  rintro _ s₃ ⟨hstable, hold, hnew, hsafe⟩
  refine Sim.bind (R := fun _ s' => s₃.on s₃.volume.syncDirectory = s')
    (sim_change hstable hides_syncDirectory rfl) ?_
  rintro _ _ rfl
  have hunlinked := hstable.syncDirectory.unlink hdestination hne hold hnew hsafe hsource
  refine Sim.bind (R := fun _ s' => Stable host before s'.volume)
    (sim_unlink hsource hstable.syncDirectory hold hunlinked) fun _ s₄ hstable₄ => ?_
  exact sim_change hstable₄ hides_syncDirectory hstable₄.syncDirectory

/-! ## The finalization -/

theorem sim_moveFound {segment : Segment} (hsource : isOwn source = false)
    (hdestination : isOwn destination = false) (hne : destination ≠ source)
    (h : Stable host before s.volume) :
    Sim host.abstraction allowed (keeping host before)
      (moveFound host r segment source destination) (r.moveFound segment source destination) s := by
  refine Sim.bind (sim_look_stable Looks.lexists h) fun found s₁ h₁ => ?_
  split
  · refine Sim.bind (sim_lstat hsource h₁) ?_
    rintro info s₂ ⟨hvolume, -⟩
    rw [← hvolume] at h₁
    refine Sim.bind (sim_require h₁) ?_
    rintro _ _ rfl
    exact sim_moveClosedWithoutReplacement hsource hdestination hne h₁
  · exact Sim.pure h₁

theorem sim_finalizeSegment {closedCount : Nat} {byIndex : ByIndex} {segment : Segment}
    (h : Stable host before s.volume) :
    Sim host.abstraction allowed (keeping host before)
      (finalizeSegment host r closedCount byIndex segment)
      (r.finalizeSegment closedCount byIndex segment) s := by
  refine Sim.bind (sim_require h) ?_
  rintro _ _ rfl
  refine Sim.bind (sim_moveFound (isOwn_nativeName r _) (isOwn_issuedBagName r _ _)
    (r.issuedBagName_ne_nativeName _ _ _) h) fun _ s₁ h₁ => ?_
  refine Sim.bind (sim_lstat (isOwn_issuedBagName r _ _) h₁) ?_
  rintro info s₂ ⟨hvolume, -⟩
  rw [← hvolume] at h₁
  refine Sim.bind (sim_require h₁) ?_
  rintro _ _ rfl
  exact Sim.pure h₁

theorem sim_settle {segments : List Segment} (h : Stable host before s.volume) :
    Sim host.abstraction allowed (keeping host before)
      (settle host r segments) (r.settle segments) s := by
  refine Sim.bind (R := fun _ s' => Stable host before s'.volume) ?_ fun byIndex s₁ h₁ => ?_
  · exact Sim.foldlM (I := fun _ _ (s' : Machine) => Stable host before s'.volume)
      (fun _ _ _ _ _ _ h' => sim_finalizeSegment h') h
  · exact sim_look_stable Looks.inspectAll h₁

/-- **The finalization is one of the level above**, under some schedule of faults. -/
theorem sim_finalizeArchiveFiles (h : Stable host before s.volume) :
    Sim host.abstraction allowed (keeping host before)
      (finalizeArchiveFiles host r pid) r.finalizeArchiveFiles s := by
  refine Sim.bind (sim_document _ h) fun _ s₁ h₁ => ?_
  refine Sim.bind (sim_writeManifest h₁) fun _ s₂ h₂ => ?_
  refine Sim.bind (sim_look_stable Looks.pinSegments h₂) fun segments s₃ h₃ => ?_
  refine Sim.bind (sim_document _ h₃) fun _ s₄ h₄ => ?_
  refine Sim.bind (sim_writeManifest h₄) fun _ s₅ h₅ => ?_
  refine Sim.bind (Sim.tryCatch (sim_settle h₅) fun e s₆ h₆ => ?_) fun _ s₇ h₇ =>
    sim_writeManifest h₇
  refine Sim.bind (sim_document (·.failed e) h₆) fun _ s₇ h₇ => ?_
  exact Sim.bind (sim_writeManifest h₇) fun _ s₈ h₈ => Sim.throw h₈

/-- The manifest that is read is the one of the level above. -/
theorem sim_readManifest (h : Stable host before s.volume) :
    Sim host.abstraction allowed (stably host before fun _ s' => s' = s) (readManifest host)
      (atomic fun s => .ok (s.disk.manifest, s)) s := by
  have hread : ∀ id, s.volume.directory.now[manifestName]? = some id →
      ∃ document, host.decode (s.volume.files id).bytes = .ok document :=
    fun id hid => (h.readable _ Cached.now_mem_views id hid).2
  refine Sim.atomic (fun found s' hok => ?_) (fun e herror => ?_) (fun _ => h) h
  · refine ⟨?_, ?_, fun _ hdisk => .inl ?_⟩
    all_goals
      split at hok
      · cases hok
        simp_all [Host.abstraction, Host.session, Host.diskOf, Host.disk]
      · rename_i id hid
        obtain ⟨document, hdocument⟩ := hread id hid
        rw [hdocument] at hok
        cases hok
        simp_all [Host.abstraction, Host.session, Host.diskOf, Host.disk, Except.toOption]
  · split at herror
    · cases herror
    · rename_i id hid
      obtain ⟨document, hdocument⟩ := hread id hid
      rw [hdocument] at herror
      cases herror

/-- **A restart is one of the level above.** -/
theorem sim_resume (h : Stable host before s.volume) :
    Sim host.abstraction allowed (keeping host before)
      (resume host r pid) r.resume s := by
  refine Sim.bind (sim_readManifest h) ?_
  rintro found s₁ rfl
  cases found with
  | none =>
      refine Sim.bind (sim_look_stable Looks.recordedPaths h) fun names s₂ h₂ => ?_
      split <;> exact Sim.pure h₂
  | some existing =>
      dsimp only
      split
      · exact Sim.pure h
      · split
        · refine Sim.bind (sim_document (fun _ => existing) h) fun _ s₂ h₂ => ?_
          exact Sim.bind (sim_finalizeArchiveFiles h₂) fun _ s₃ h₃ => Sim.pure h₃
        · exact Sim.pure h

end Simulation

end Ros1Tools.Archive.Durable
