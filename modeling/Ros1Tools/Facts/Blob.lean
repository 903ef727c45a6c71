import Ros1Tools.Facts.Store

/-!
# What is stored stays

The invariant of the blob store, and what `store` does to it.  Two things carry the
argument.  The name of a blob tells its number, so that a blob that is new to the store
never gets the name of an older one; and a file is written to only if it did not exist,
so that a name that is in use keeps its bytes, whatever fails on the way.
-/

namespace Ros1Tools.Facts

open Lib Lib.Faulty Lib.Python

/-! ## The number in a name -/

/-- The characters of a label in a name. -/
def isLabel (c : Char) : Bool := isWord c || c == '-'

theorem isLabel_of_mem_substitute {inRun : Bool} {cs : List Char} {c : Char}
    (h : c ∈ substitute inRun cs) : isLabel c = true := by
  induction cs generalizing inRun with
  | nil => cases h
  | cons d cs ih =>
      unfold substitute at h
      split at h
      · rename_i hword
        rcases List.mem_cons.mp h with rfl | h
        · exact Bool.or_eq_true_iff.mpr (.inl hword)
        · exact ih h
      · split at h
        · exact ih h
        · rcases List.mem_cons.mp h with rfl | h
          · rfl
          · exact ih h

theorem mem_of_mem_stripDashes {cs : List Char} {c : Char} (h : c ∈ stripDashes cs) : c ∈ cs := by
  have h := (List.dropWhile_sublist _).subset (List.mem_reverse.mp h)
  exact (List.dropWhile_sublist _).subset (List.mem_reverse.mp h)

theorem isLabel_of_mem_sanitizeLabel {label : String} {c : Char}
    (h : c ∈ sanitizeLabel label) : isLabel c = true := by
  unfold sanitizeLabel at h
  split at h
  · have hfact : "fact".toList.all isLabel = true := by decide +kernel
    exact List.all_eq_true.mp hfact c h
  · exact isLabel_of_mem_substitute (mem_of_mem_stripDashes (List.mem_of_mem_take h))

/-- The suffix is where the first dot of a name is. -/
theorem exists_sanitizeSuffix (suffix : String) : ∃ cs, sanitizeSuffix suffix = '.' :: cs := by
  unfold sanitizeSuffix
  split
  · split
    · exact ⟨_, rfl⟩
    · exact ⟨_, rfl⟩
  · exact ⟨_, rfl⟩

theorem isDigit_of_mem_zfill {n width : Nat} {c : Char}
    (h : c ∈ (Archive.zfill (toString n) width).toList) : c.isDigit = true := by
  rw [Archive.zfill, String.toList_ofList, Archive.toList_toString_nat, List.leftpad] at h
  rcases List.mem_append.mp h with h | h
  · rw [List.eq_of_mem_replicate h]
    rfl
  · exact (isNumeral_toDigits n).digits c h

/-- Reads the number in front of the first dot. -/
def numberOf (cs : List Char) : Nat :=
  Nat.ofDigitChars 10 ((cs.takeWhile (· != '.')).reverse.takeWhile Char.isDigit).reverse 0

theorem numberOf_append {front digits back : List Char} (hfront : ∀ c ∈ front, c ≠ '.')
    (hdigits : ∀ c ∈ digits, c.isDigit = true) :
    numberOf (front ++ '-' :: (digits ++ '.' :: back)) = Nat.ofDigitChars 10 digits 0 := by
  have hall : ∀ c ∈ front ++ '-' :: digits, (c != '.') = true := by
    intro c hc
    rw [bne_iff_ne]
    rintro rfl
    rcases List.mem_append.mp hc with hc | hc
    · exact hfront '.' hc rfl
    · rcases List.mem_cons.mp hc with hc | hc
      · exact absurd hc (by decide)
      · exact absurd (hdigits '.' hc) (by decide)
  have hsplit : front ++ '-' :: (digits ++ '.' :: back) =
      (front ++ '-' :: digits) ++ '.' :: back := by
    simp
  have hrev : (front ++ '-' :: digits).reverse = digits.reverse ++ '-' :: front.reverse := by simp
  rw [numberOf, hsplit, List.takeWhile_append_of_pos hall, List.takeWhile_cons_of_neg (by decide),
    List.append_nil, hrev,
    List.takeWhile_append_of_pos fun c hc => hdigits c (List.mem_reverse.mp hc),
    List.takeWhile_cons_of_neg (by decide), List.append_nil, List.reverse_reverse]

/-- The parts of a name, cut where the number starts. -/
theorem toList_blobName (label : String) (number : Nat) (suffix : String) :
    (blobName label number suffix).toList =
      ("record-facts/".toList ++ sanitizeLabel label ++ "-revision".toList) ++
        '-' :: ((Archive.zfill (toString number) 6).toList ++ sanitizeSuffix suffix) := by
  have hdash : "-revision-".toList = "-revision".toList ++ ['-'] := by decide
  unfold blobName
  rw [String.toList_ofList, hdash]
  generalize "record-facts/".toList = front
  generalize "-revision".toList = middle
  simp only [List.append_assoc, List.cons_append, List.nil_append]

theorem numberOf_blobName (label : String) (number : Nat) (suffix : String) :
    numberOf (blobName label number suffix).toList = number := by
  obtain ⟨back, hback⟩ := exists_sanitizeSuffix suffix
  have hfront : ∀ c ∈ "record-facts/".toList ++ sanitizeLabel label ++ "-revision".toList,
      c ≠ '.' := by
    rintro c hc rfl
    rcases List.mem_append.mp hc with hc | hc
    · rcases List.mem_append.mp hc with hc | hc
      · exact absurd hc (by decide)
      · exact absurd (isLabel_of_mem_sanitizeLabel hc) (by decide)
    · exact absurd hc (by decide)
  rw [toList_blobName, hback, numberOf_append hfront fun c hc => isDigit_of_mem_zfill hc,
    Archive.ofDigitChars_zfill]

/-! ## The invariant -/

namespace RecordFacts

variable (s : RecordFacts)

/-- The bytes of a regular file. -/
def bytesAt (relative : String) : Option Bytes :=
  match s.folder.files relative with
  | some (.regular bytes) => some bytes
  | _ => none

/-- The size of the blob with a digest. -/
def blobSize (digest : String) : Nat :=
  ((s.storedPaths digest).bind s.bytesAt).elim 0 List.length

end RecordFacts

/-- A reference is to a blob of the store: its file has the size and the digest it says. -/
structure Holds (host : Host) (s : RecordFacts) (content : Content) : Prop where
  stored : s.storedPaths content.sha256 = some content.relativePath
  file : ∃ bytes, s.bytesAt content.relativePath = some bytes ∧
    bytes.length = content.sizeBytes ∧ host.sha256 bytes = content.sha256

/-- **The invariant of the store.** -/
structure StoreSound (host : Host) (s : RecordFacts) : Prop where
  keys : ∀ digest, digest ∈ s.storedHashes ↔ (s.storedPaths digest).isSome
  injective : ∀ digest digest' relative, s.storedPaths digest = some relative →
    s.storedPaths digest' = some relative → digest = digest'
  numbered : ∀ digest relative, s.storedPaths digest = some relative →
    numberOf relative.toList ≤ s.storedHashes.card
  blobs : ∀ digest relative, s.storedPaths digest = some relative →
    ∃ bytes, s.bytesAt relative = some bytes ∧ host.sha256 bytes = digest
  sum : s.storedBytes = ∑ digest ∈ s.storedHashes, s.blobSize digest
  budget : s.storedBytes ≤ maxTotalBytes

/-- What may happen to the recorder while nothing is appended to its log. -/
structure Advance (host : Host) (s s' : RecordFacts) : Prop where
  closed : s'.closed = s.closed
  messages : s'.messages = s.messages
  previous : s'.previous = s.previous
  producers : s'.producers = s.producers
  revision : s'.revision = s.revision
  persisted : s'.persisted = s.persisted
  dropped : s'.dropped = s.dropped
  sealed : s'.sealed = s.sealed
  state : s'.state = s.state
  sound : StoreSound host s → StoreSound host s'
  holds : StoreSound host s → ∀ content, Holds host s content → Holds host s' content

namespace Advance

variable {host : Host} {s s' s'' : RecordFacts}

theorem refl (s : RecordFacts) : Advance host s s :=
  ⟨rfl, rfl, rfl, rfl, rfl, rfl, rfl, rfl, rfl, id, fun _ _ => id⟩

theorem trans (h : Advance host s s') (h' : Advance host s' s'') : Advance host s s'' where
  closed := h'.closed.trans h.closed
  messages := h'.messages.trans h.messages
  previous := h'.previous.trans h.previous
  producers := h'.producers.trans h.producers
  revision := h'.revision.trans h.revision
  persisted := h'.persisted.trans h.persisted
  dropped := h'.dropped.trans h.dropped
  sealed := h'.sealed.trans h.sealed
  state := h'.state.trans h.state
  sound hs := h'.sound (h.sound hs)
  holds hs content hc := h'.holds (h.sound hs) content (h.holds hs content hc)

end Advance

section Frame

/-- Nothing of the store changes. -/
structure SameStore (s s' : RecordFacts) : Prop where
  folder : s'.folder = s.folder
  storedBytes : s'.storedBytes = s.storedBytes
  storedHashes : s'.storedHashes = s.storedHashes
  storedPaths : s'.storedPaths = s.storedPaths

variable {host : Host} {s s' : RecordFacts}

theorem SameStore.bytesAt (h : SameStore s s') : s'.bytesAt = s.bytesAt := by
  funext relative
  simp only [RecordFacts.bytesAt, h.folder]

/-- The invariant speaks of the store only. -/
theorem SameStore.sound (h : SameStore s s') (hs : StoreSound host s) : StoreSound host s' := by
  have hsize : s'.blobSize = s.blobSize := by
    funext digest
    simp only [RecordFacts.blobSize, h.storedPaths, h.bytesAt]
  exact
    { keys := by rw [h.storedHashes, h.storedPaths]; exact hs.keys
      injective := by rw [h.storedPaths]; exact hs.injective
      numbered := by rw [h.storedHashes, h.storedPaths]; exact hs.numbered
      blobs := by rw [h.storedPaths, h.bytesAt]; exact hs.blobs
      sum := by rw [h.storedBytes, h.storedHashes, hsize]; exact hs.sum
      budget := by rw [h.storedBytes]; exact hs.budget }

theorem SameStore.holds (h : SameStore s s') {content : Content} (hc : Holds host s content) :
    Holds host s' content :=
  ⟨by rw [h.storedPaths]; exact hc.stored, by rw [h.bytesAt]; exact hc.file⟩

end Frame

/-! ## Writing a file -/

/-- Only the file with the given name may differ, and it does not if it existed. -/
structure Touches (relative : String) (s s' : RecordFacts) : Prop where
  eq : s' = { s with folder := s'.folder }
  others : ∀ name, name ≠ relative → s'.folder.files name = s.folder.files name
  existing : s.folder.files relative ≠ none →
    s'.folder.files relative = s.folder.files relative

section Writing

variable {host : Host} {allowed : Fate Exception → Prop} {s s' s'' : RecordFacts}
  {relative : String} {data : Bytes}

theorem Touches.refl (s : RecordFacts) : Touches relative s s := ⟨rfl, fun _ _ => rfl, fun _ => rfl⟩

theorem Touches.putFile (h : Touches relative s s') (habsent : s.folder.files relative = none)
    (node : Option Node) : Touches relative s (s'.putFile relative node) where
  eq := by
    rw [h.eq]
    rfl
  others name hname := by
    rw [← h.others name hname]
    exact Function.update_of_ne hname node s'.folder.files
  existing hne := absurd habsent hne

theorem Touches.setRoot (h : Touches relative s s') (root : Root) :
    Touches relative s (s'.setRoot root) where
  eq := by
    rw [h.eq]
    rfl
  others := h.others
  existing := h.existing

theorem Touches.trans (h : Touches relative s s') (h' : Touches relative s' s'')
    (hfiles : s'.folder.files = s.folder.files) : Touches relative s s'' where
  eq := by
    rw [h'.eq, h.eq]
  others name hname := by
    rw [h'.others name hname, hfiles]
  existing hne := by
    rw [← hfiles] at hne ⊢
    exact h'.existing hne

/-- A call that changes nothing keeps what holds. -/
theorem wp_sync {P : RecordFacts → Prop} (h : P s) :
    Wp allowed sync ⟨fun _ => P, fun _ => P, P⟩ s := by
  refine Wp.atomic ?_ ?_ (fun _ _ => h) fun _ => h
  · intro _ s' heq
    cases heq
    exact h
  · intro e heq
    cases heq

theorem wp_writeByte {b : UInt8} {bytes : Bytes}
    (habsent : s.folder.files relative = none) (h : Touches relative s s')
    (hfile : s'.folder.files relative = some (.regular bytes)) :
    Wp allowed (writeByte relative b)
      ⟨fun _ s'' => Touches relative s s'' ∧
          s''.folder.files relative = some (.regular (bytes ++ [b])),
        fun _ => Touches relative s, Touches relative s⟩ s' := by
  refine Wp.atomic ?_ ?_ (fun _ _ => h) fun _ => h
  · intro _ s'' heq
    simp only [hfile] at heq
    cases heq
    exact ⟨h.putFile habsent _, Function.update_self _ _ _⟩
  · intro e heq
    simp only [hfile] at heq
    cases heq

theorem wp_unlink (habsent : s.folder.files relative = none) (h : Touches relative s s') :
    Wp allowed (host.unlink relative)
      ⟨fun _ => Touches relative s, fun _ => Touches relative s, Touches relative s⟩ s' := by
  refine Wp.atomic ?_ (fun _ _ => h) (fun _ _ => h) fun _ => h
  intro _ s'' heq
  split at heq
  · cases heq
  · cases heq
    exact h.putFile habsent none

/-- A file that was just made holds the data afterwards, or may hold anything. -/
theorem wp_writeBlob (habsent : s.folder.files relative = none) (h : Touches relative s s')
    (hfile : s'.folder.files relative = some (.regular [])) :
    Wp allowed (host.writeBlob relative data)
      ⟨fun _ s'' => Touches relative s s'' ∧ s''.folder.files relative = some (.regular data),
        fun _ => Touches relative s, Touches relative s⟩ s' := by
  refine Wp.tryCatch (F := fun _ => Touches relative s) ?_ fun e s'' h'' => ?_
  · -- The bytes written so far are a part of the data, byte by byte.
    refine Wp.bind (Wp.foldlM (I := fun treated _ s'' => Touches relative s s'' ∧
      s''.folder.files relative = some (.regular treated)) ?_ ⟨h, hfile⟩) fun _ s'' h'' => ?_
    · intro treated b todo _ s'' _ h''
      exact wp_writeByte habsent h''.1 h''.2
    · have hsync : ∀ s'',
          Touches relative s s'' ∧ s''.folder.files relative = some (.regular data) →
          Wp allowed sync
            ⟨fun _ s'' => Touches relative s s'' ∧
                s''.folder.files relative = some (.regular data),
              fun _ => Touches relative s, Touches relative s⟩ s'' := fun s'' h =>
        (wp_sync h).mono (fun _ _ h => h) (fun _ _ h => h.1) fun _ h => h.1
      exact Wp.bind (hsync s'' h'') fun _ s'' h'' => hsync s'' h''
  · exact Wp.bind (wp_unlink habsent h'') fun _ s'' h'' => Wp.throw h''

/-- A file that existed is accepted only if it holds the data. -/
theorem wp_compareBlob (hdata : data.length ≤ maxBytes) :
    Wp allowed (host.compareBlob relative data)
      ⟨fun _ s' => Touches relative s s' ∧ s'.folder.files relative = some (.regular data),
        fun _ => Touches relative s, Touches relative s⟩ s := by
  have hopen : Wp allowed (host.openExisting relative)
      ⟨fun existing s' => s = s' ∧
          ∀ bytes, existing = some bytes → s.folder.files relative = some (.regular bytes),
        fun _ => Touches relative s, Touches relative s⟩ s := by
    refine Wp.atomic ?_ (fun _ _ => .refl s) (fun _ _ => .refl s) fun _ => .refl s
    intro existing s' heq
    split at heq
    · cases heq
    · rename_i bytes hbytes
      cases heq
      exact ⟨rfl, fun bytes' h => by cases h; exact hbytes⟩
    · cases heq
      exact ⟨rfl, fun bytes' h => by cases h⟩
    · cases heq
  refine Wp.bind hopen ?_
  rintro existing _ ⟨rfl, hexisting⟩
  cases existing with
  | none => exact Wp.throw (.refl s)
  | some bytes =>
      refine Wp.bind ((wp_sync (P := fun s' => s = s') rfl).mono (fun _ _ h => h)
        (fun _ _ h => h ▸ .refl s) fun _ h => h ▸ .refl s) ?_
      rintro _ _ rfl
      refine Wp.require (fun htake => ⟨.refl s, ?_⟩) fun _ => .refl s
      -- One byte more than is allowed was asked for, so nothing is cut off.
      have hlength := congrArg List.length htake
      rw [List.length_take] at hlength
      rw [hexisting bytes rfl, ← htake, List.take_of_length_le (by omega)]

theorem wp_putBlob (hdata : data.length ≤ maxBytes) :
    Wp allowed (host.putBlob relative data)
      ⟨fun _ s' => Touches relative s s' ∧ s'.folder.files relative = some (.regular data),
        fun _ => Touches relative s, Touches relative s⟩ s := by
  have hopen : Wp allowed (openExclusive relative)
      ⟨fun made s' => (made = true ∧ s.folder.files relative = none ∧ Touches relative s s' ∧
          s'.folder.files relative = some (.regular [])) ∨ made = false ∧ s = s',
        fun _ => Touches relative s, Touches relative s⟩ s := by
    refine Wp.atomic ?_ ?_ (fun _ _ => .refl s) fun _ => .refl s
    · intro made s' heq
      split at heq
      · rename_i habsent
        cases heq
        exact .inl ⟨rfl, habsent, (Touches.refl s).putFile habsent _, Function.update_self _ _ _⟩
      · cases heq
        exact .inr ⟨rfl, rfl⟩
    · intro e heq
      split at heq
      · cases heq
      · cases heq
  refine Wp.bind hopen ?_
  rintro made s' (⟨rfl, habsent, h, hfile⟩ | ⟨rfl, rfl⟩)
  · exact wp_writeBlob habsent h hfile
  · exact wp_compareBlob hdata

end Writing

/-! ## Storing a blob -/

section Storing

variable {host : Host} {allowed : Fate Exception → Prop} {s s' : RecordFacts}
  {relative : String} {data : Bytes}

theorem Touches.bytesAt (h : Touches relative s s') {name : String} {bytes : Bytes}
    (hbytes : s.bytesAt name = some bytes) : s'.bytesAt name = some bytes := by
  have hfiles : s'.folder.files name = s.folder.files name := by
    by_cases hname : name = relative
    · subst hname
      refine h.existing fun hnone => ?_
      rw [RecordFacts.bytesAt, hnone] at hbytes
      cases hbytes
    · exact h.others name hname
  rw [RecordFacts.bytesAt, hfiles]
  exact hbytes

/-- What is stored is not touched. -/
theorem Touches.advance (h : Touches relative s s') : Advance host s s' := by
  have hpaths : s'.storedPaths = s.storedPaths := by rw [h.eq]
  have hhashes : s'.storedHashes = s.storedHashes := by rw [h.eq]
  have hbytes : s'.storedBytes = s.storedBytes := by rw [h.eq]
  refine ⟨?_, ?_, ?_, ?_, ?_, ?_, ?_, ?_, ?_, fun hs => ?_, fun hs content hc => ?_⟩
  · rw [h.eq]
  · rw [h.eq]
  · rw [h.eq]
  · rw [h.eq]
  · rw [h.eq]
  · rw [h.eq]
  · rw [h.eq]
  · rw [h.eq]
  · rw [h.eq]
  · have hsize : ∀ digest ∈ s.storedHashes, s'.blobSize digest = s.blobSize digest := by
      intro digest hdigest
      obtain ⟨path, hpath⟩ := Option.isSome_iff_exists.mp ((hs.keys digest).mp hdigest)
      obtain ⟨bytes, hat, -⟩ := hs.blobs digest path hpath
      simp only [RecordFacts.blobSize, hpaths, hpath, Option.bind_some, hat, h.bytesAt hat]
    exact
      { keys := by rw [hhashes, hpaths]; exact hs.keys
        injective := by rw [hpaths]; exact hs.injective
        numbered := by rw [hhashes, hpaths]; exact hs.numbered
        blobs := by
          intro digest path hpath
          rw [hpaths] at hpath
          obtain ⟨bytes, hat, hsha⟩ := hs.blobs digest path hpath
          exact ⟨bytes, h.bytesAt hat, hsha⟩
        sum := by
          rw [hbytes, hhashes, hs.sum]
          exact (Finset.sum_congr rfl hsize).symm
        budget := by rw [hbytes]; exact hs.budget }
  · obtain ⟨bytes, hat, hfile⟩ := hc.file
    exact ⟨by rw [hpaths]; exact hc.stored, bytes, h.bytesAt hat, hfile⟩

theorem RecordFacts.enroll_storedPaths_self (s : RecordFacts) (digest relative : String)
    (size : Nat) : (s.enroll digest relative size).storedPaths digest = some relative := by
  simp only [enroll, Function.update_self]

/-- A blob that is known is where it is said to be. -/
theorem StoreSound.known {label suffix : String} (hs : StoreSound host s)
    (hknown : host.sha256 data ∈ s.storedHashes) (hfile : s.bytesAt relative = some data)
    (hrelative : relative = s.relativePath (host.sha256 data) label suffix) :
    Holds host s ⟨relative, host.sha256 data, data.length⟩ := by
  obtain ⟨path, hpath⟩ := Option.isSome_iff_exists.mp ((hs.keys _).mp hknown)
  have hpath' : relative = path := by
    rw [hrelative, RecordFacts.relativePath, hpath]
    rfl
  subst hpath'
  exact ⟨hpath, data, hfile, rfl, rfl⟩

section New

variable {label suffix : String} (hs : StoreSound host s)
  (hnew : host.sha256 data ∉ s.storedHashes) (hfile : s.bytesAt relative = some data)
  (hrelative : relative = s.relativePath (host.sha256 data) label suffix)

include hs hnew

theorem StoreSound.storedPaths_new : s.storedPaths (host.sha256 data) = none := by
  rw [← Option.not_isSome_iff_eq_none, ← hs.keys]
  exact hnew

/-- What is held is not the new blob. -/
theorem Holds.enroll {content : Content} (hc : Holds host s content) :
    Holds host (s.enroll (host.sha256 data) relative data.length) content := by
  have hne : content.sha256 ≠ host.sha256 data := by
    intro heq
    have hstored := hc.stored
    rw [heq, hs.storedPaths_new hnew] at hstored
    cases hstored
  exact ⟨(Function.update_of_ne hne _ _).trans hc.stored, hc.file⟩

include hrelative

theorem StoreSound.numberOf_new : numberOf relative.toList = s.storedHashes.card + 1 := by
  rw [hrelative, RecordFacts.relativePath, hs.storedPaths_new hnew]
  exact numberOf_blobName _ _ _

/-- The number of a new blob is larger than those of the others. -/
theorem StoreSound.path_new (digest : String) : s.storedPaths digest ≠ some relative := by
  intro hdigest
  have hle := hs.numbered digest relative hdigest
  rw [hs.numberOf_new hnew hrelative] at hle
  exact Nat.not_succ_le_self _ hle

include hfile

theorem StoreSound.enroll (hafford : s.storedBytes + data.length ≤ maxTotalBytes) :
    StoreSound host (s.enroll (host.sha256 data) relative data.length) where
  keys digest := by
    change digest ∈ insert _ s.storedHashes ↔ (Function.update s.storedPaths _ _ digest).isSome
    by_cases hdigest : digest = host.sha256 data
    · subst hdigest
      simp
    · rw [Function.update_of_ne hdigest, ← hs.keys, Finset.mem_insert, or_iff_right hdigest]
  injective digest digest' path hpath hpath' := by
    simp only [RecordFacts.enroll, Function.update_apply] at hpath hpath'
    split at hpath
    · rename_i hdigest
      cases hpath
      split at hpath'
      · rename_i hdigest'
        rw [hdigest, hdigest']
      · exact absurd hpath' (hs.path_new hnew hrelative digest')
    · split at hpath'
      · cases hpath'
        exact absurd hpath (hs.path_new hnew hrelative digest)
      · exact hs.injective digest digest' path hpath hpath'
  numbered digest path hpath := by
    change _ ≤ (insert _ s.storedHashes).card
    rw [Finset.card_insert_of_notMem hnew]
    simp only [RecordFacts.enroll, Function.update_apply] at hpath
    split at hpath
    · cases hpath
      exact (hs.numberOf_new hnew hrelative).le
    · exact Nat.le_succ_of_le (hs.numbered digest path hpath)
  blobs digest path hpath := by
    simp only [RecordFacts.enroll, Function.update_apply] at hpath
    split at hpath
    · rename_i hdigest
      cases hpath
      exact ⟨data, hfile, hdigest.symm⟩
    · exact hs.blobs digest path hpath
  sum := by
    have hsize : ∀ digest ∈ s.storedHashes,
        (s.enroll (host.sha256 data) relative data.length).blobSize digest =
          s.blobSize digest := by
      rintro digest hdigest
      have hne : digest ≠ host.sha256 data := by
        rintro rfl
        exact hnew hdigest
      unfold RecordFacts.blobSize
      exact congrArg (fun path => (Option.bind path s.bytesAt).elim 0 List.length)
        (Function.update_of_ne hne _ _)
    have hblob : (s.enroll (host.sha256 data) relative data.length).blobSize
        (host.sha256 data) = data.length := by
      have hat : (s.enroll (host.sha256 data) relative data.length).bytesAt relative =
          some data := hfile
      rw [RecordFacts.blobSize, s.enroll_storedPaths_self, Option.bind_some, hat]
      rfl
    change s.storedBytes + data.length = ∑ digest ∈ insert _ s.storedHashes, _
    rw [Finset.sum_insert hnew, hblob, Finset.sum_congr rfl hsize, ← hs.sum, Nat.add_comm]
  budget := hafford

end New

/-- Remembering the blob at hand. -/
theorem StoreSound.register {label suffix : String} (hs : StoreSound host s)
    (hfile : s.bytesAt relative = some data)
    (hrelative : relative = s.relativePath (host.sha256 data) label suffix)
    (hafford : s.affords (host.sha256 data) data.length = true) :
    StoreSound host (s.register (host.sha256 data) relative data.length) ∧
      Holds host (s.register (host.sha256 data) relative data.length)
        ⟨relative, host.sha256 data, data.length⟩ ∧
      ∀ content, Holds host s content →
        Holds host (s.register (host.sha256 data) relative data.length) content := by
  unfold RecordFacts.register
  split
  · rename_i hknown
    exact ⟨hs, hs.known hknown hfile hrelative, fun _ hc => hc⟩
  · rename_i hnew
    have hbudget : s.storedBytes + data.length ≤ maxTotalBytes := by
      rcases Bool.or_eq_true_iff.mp hafford with h | h
      · exact absurd (of_decide_eq_true h) hnew
      · exact of_decide_eq_true h
    exact ⟨hs.enroll hnew hfile hrelative hbudget,
      ⟨s.enroll_storedPaths_self _ _ _, data, hfile, rfl, rfl⟩, fun _ hc => hc.enroll hs hnew⟩

theorem Advance.register {label suffix : String} (hfile : s.bytesAt relative = some data)
    (hrelative : relative = s.relativePath (host.sha256 data) label suffix)
    (hafford : s.affords (host.sha256 data) data.length = true) :
    Advance host s (s.register (host.sha256 data) relative data.length) := by
  refine ⟨?_, ?_, ?_, ?_, ?_, ?_, ?_, ?_, ?_, fun hs => (hs.register hfile hrelative hafford).1,
    fun hs => (hs.register hfile hrelative hafford).2.2⟩
  all_goals
    unfold RecordFacts.register
    split
    · rfl
    · rfl

/-- What `store` does to the recorder: only one file changes while it works, and if nothing
fails, the blob is registered last. -/
theorem wp_store_register {label suffix : String} :
    Wp allowed (host.store data label suffix)
      ⟨fun content s' => ∃ relative s₁, Touches relative s s₁ ∧ s₁.bytesAt relative = some data ∧
          relative = s₁.relativePath (host.sha256 data) label suffix ∧
          s₁.affords (host.sha256 data) data.length = true ∧
          s' = s₁.register (host.sha256 data) relative data.length ∧
          content = ⟨relative, host.sha256 data, data.length⟩,
        fun _ s' => ∃ relative, Touches relative s s', fun s' => ∃ relative, Touches relative s s'⟩
      s := by
  have hrefl : ∃ relative, Touches relative s s := ⟨"", .refl s⟩
  unfold Host.store
  refine Wp.bind (R := fun _ s' => s = s' ∧ data.length ≤ maxBytes)
    (Wp.require (fun h => ⟨rfl, h⟩) fun _ => hrefl) ?_
  rintro _ _ ⟨rfl, hdata⟩
  refine Wp.bind (R := fun affordable s' => s = s' ∧
    affordable = s.affords (host.sha256 data) data.length) (Wp.gets ⟨rfl, rfl⟩) ?_
  rintro affordable _ ⟨rfl, hafford⟩
  refine Wp.bind (R := fun _ s' => s = s' ∧ affordable = true)
    (Wp.require (fun h => ⟨rfl, h⟩) fun _ => hrefl) ?_
  rintro _ _ ⟨rfl, rfl⟩
  refine Wp.bind (R := fun relative s' => s = s' ∧
    relative = s.relativePath (host.sha256 data) label suffix) (Wp.gets ⟨rfl, rfl⟩) ?_
  rintro relative _ ⟨rfl, hrelative⟩
  -- The directory comes into being; the files in it do not change.
  have hmakedirs : Wp allowed host.makedirs
      ⟨fun _ s' => Touches relative s s' ∧ s'.folder.files = s.folder.files,
        fun _ s' => ∃ relative, Touches relative s s', fun s' => ∃ relative, Touches relative s s'⟩
      s := by
    refine Wp.atomic ?_ (fun _ _ => hrefl) (fun _ _ => hrefl) fun _ => hrefl
    intro _ s' heq
    split at heq
    · cases heq
      exact ⟨(Touches.refl s).setRoot _, rfl⟩
    · cases heq
    · cases heq
      exact ⟨.refl s, rfl⟩
  refine Wp.bind hmakedirs ?_
  rintro _ s₁ ⟨h₁, hfiles⟩
  have hlstat : Wp allowed host.lstatRoot
      ⟨fun _ s' => s₁ = s', fun _ s' => ∃ relative, Touches relative s s',
        fun s' => ∃ relative, Touches relative s s'⟩ s₁ := by
    refine Wp.atomic ?_ (fun _ _ => ⟨_, h₁⟩) (fun _ _ => ⟨_, h₁⟩) fun _ => ⟨_, h₁⟩
    intro _ s' heq
    split at heq
    · cases heq
    · cases heq
      rfl
  refine Wp.bind hlstat ?_
  rintro isDirectory _ rfl
  refine Wp.bind_eq (Wp.require (fun _ => rfl) fun _ => ⟨_, h₁⟩) fun _ => ?_
  refine Wp.bind ((wp_putBlob hdata).mono (fun _ _ h => h)
    (fun _ _ h => ⟨_, h₁.trans h hfiles⟩) fun _ h => ⟨_, h₁.trans h hfiles⟩) ?_
  rintro _ s₂ ⟨h₂, hfile⟩
  have htouches := h₁.trans h₂ hfiles
  refine Wp.bind (R := fun _ s' => s' = s₂.register (host.sha256 data) relative data.length)
    (Wp.modify rfl) ?_
  rintro _ _ rfl
  refine Wp.pure ⟨relative, s₂, htouches, ?_, ?_, ?_, rfl, rfl⟩
  · rw [RecordFacts.bytesAt, hfile]
  · rw [hrelative, htouches.eq]
    rfl
  · rw [htouches.eq]
    exact hafford.symm

/-- **Storing.**  Whatever fails, the store stays sound and keeps what it holds; if nothing
does, it holds the data. -/
theorem wp_store {label suffix : String} :
    Wp allowed (host.store data label suffix)
      ⟨fun content s' => Advance host s s' ∧ content.sha256 = host.sha256 data ∧
          (StoreSound host s → Holds host s' content),
        fun _ => Advance host s, Advance host s⟩ s := by
  refine wp_store_register.mono ?_ (fun _ _ ⟨_, h⟩ => h.advance) fun _ ⟨_, h⟩ => h.advance
  rintro content s' ⟨relative, s₁, htouches, hat, hpath, hbudget, rfl, rfl⟩
  have hadvance : Advance host s s₁ := htouches.advance
  exact ⟨hadvance.trans (.register hat hpath hbudget), rfl, fun hs =>
    ((hadvance.sound hs).register hat hpath hbudget).2.1⟩

end Storing

end Ros1Tools.Facts
