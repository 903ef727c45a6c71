import Ros1Tools.Publish.Registry

/-!
# The registry and its holders

An invariant of the registry alone, given a function that says how many holders
every entry has.  Each of the functions that run under the mutex keeps it, with
the holders changed accordingly; who the holders are is not said here.
-/

namespace Ros1Tools.Publish

namespace Registry

/-- An entry is what the topic it is cached under was advertised as. -/
structure Advertised (entry : Entry) (topic : String) : Prop where
  topic : entry.publisher.topic = topic
  messageType : entry.publisher.messageType = entry.messageType
  queueSize : entry.publisher.queueSize = entry.queueSize
  latch : entry.publisher.latch = entry.latch

/-- The invariant of the registry, given the number of holders of every entry. -/
structure Consistent (maximumPublishers : Nat) (holders : EntryId → Nat) (r : Registry) :
    Prop where
  bounded : r.size ≤ maximumPublishers
  counted : ∀ id, (r.heap id).activeCalls = holders id
  made : ∀ t id, r.entries.lookup t = some id → id < r.made
  unmade : ∀ id, r.made ≤ id → holders id = 0
  advertised : ∀ t id, r.entries.lookup t = some id → Advertised (r.heap id) t
  kept : ∀ t id, r.entries.lookup t = some id →
    0 < (r.heap id).activeCalls ∨ (r.heap id).nativeDispatchCommitted = true
  recorded : ∀ t, t ∈ r.dispatched ↔
    ∃ id, r.entries.lookup t = some id ∧ (r.heap id).nativeDispatchCommitted = true

/-- Entries are never forgotten, and never advertised anew. -/
structure Extends (r r' : Registry) : Prop where
  made : r.made ≤ r'.made
  publisher : ∀ id, id < r.made → (r'.heap id).publisher = (r.heap id).publisher

theorem Extends.refl (r : Registry) : r.Extends r := ⟨Nat.le_refl _, fun _ _ => rfl⟩

variable {maximumPublishers : Nat} {holders : EntryId → Nat} {r r' : Registry}
  {request : PublishRequest} {advertise : Except Exn Bool} {lease : Lease}

theorem consistent_init : Consistent maximumPublishers (fun _ => 0) init where
  bounded := Nat.zero_le _
  counted _ := rfl
  made _ _ h := absurd h nofun
  unmade _ _ := rfl
  advertised _ _ h := absurd h nofun
  kept _ _ h := absurd h nofun
  recorded _ := ⟨nofun, fun ⟨_, h, _⟩ => absurd h nofun⟩

/-- Emptying the map keeps the invariant, whatever else changes beside the heap. -/
theorem Consistent.of_empty (h : r.Consistent maximumPublishers holders)
    (hheap : r'.heap = r.heap) (hmade : r'.made = r.made) (hentries : r'.entries = ∅)
    (hdispatched : r'.dispatched = []) : r'.Consistent maximumPublishers holders where
  bounded := by
    rw [size, hentries]
    exact Nat.zero_le _
  counted id := by rw [hheap, h.counted]
  made t id hl := by
    rw [hentries, AList.lookup_empty] at hl
    cases hl
  unmade id hid := h.unmade id (hmade ▸ hid)
  advertised t id hl := by
    rw [hentries, AList.lookup_empty] at hl
    cases hl
  kept t id hl := by
    rw [hentries, AList.lookup_empty] at hl
    cases hl
  recorded t := by
    rw [hdispatched, hentries]
    simp

/-- Only the map, the heap, its size and the committed topics matter. -/
theorem Consistent.of_eq (h : r.Consistent maximumPublishers holders) (hheap : r'.heap = r.heap)
    (hmade : r'.made = r.made) (hentries : r'.entries = r.entries)
    (hdispatched : r'.dispatched = r.dispatched) : r'.Consistent maximumPublishers holders := by
  obtain ⟨heap, made, entries, _, _, dispatched⟩ := r'
  cases hheap
  cases hmade
  cases hentries
  cases hdispatched
  exact ⟨h.bounded, h.counted, h.made, h.unmade, h.advertised, h.kept, h.recorded⟩

theorem Consistent.clear (h : r.Consistent maximumPublishers holders) :
    r.clear.Consistent maximumPublishers holders := h.of_empty rfl rfl rfl rfl

theorem Consistent.refresh (h : r.Consistent maximumPublishers holders) (v : Int) :
    (r.refreshMasterGeneration v).2.Consistent maximumPublishers holders := by
  unfold refreshMasterGeneration
  simp only
  split
  · exact h.of_eq rfl rfl rfl rfl
  · split
    · exact h.of_empty rfl rfl rfl rfl
    · exact h.of_eq rfl rfl rfl rfl

theorem Consistent.probe (h : r.Consistent maximumPublishers holders) (current : Option Int) :
    (r.probeMasterBinding current).2.Consistent maximumPublishers holders := by
  unfold probeMasterBinding
  split
  · exact h
  · split
    · exact h
    · simp only
      split
      · exact h.of_eq rfl rfl rfl rfl
      · split <;> exact h.of_eq rfl rfl rfl rfl

theorem extends_of_heap (hheap : r'.heap = r.heap) (hmade : r'.made = r.made) : r.Extends r' :=
  ⟨Nat.le_of_eq hmade.symm, fun _ _ => by rw [hheap]⟩

theorem extends_refresh (v : Int) : r.Extends (r.refreshMasterGeneration v).2 := by
  unfold refreshMasterGeneration
  simp only
  split
  · exact extends_of_heap rfl rfl
  · split <;> exact extends_of_heap rfl rfl

theorem extends_probe (current : Option Int) : r.Extends (r.probeMasterBinding current).2 := by
  unfold probeMasterBinding
  split
  · exact .refl r
  · split
    · exact .refl r
    · simp only
      split
      · exact extends_of_heap rfl rfl
      · split <;> exact extends_of_heap rfl rfl

theorem extends_release (topic : String) (id : EntryId) (committed : Bool) :
    r.Extends (r.release topic id committed) where
  made := Nat.le_refl _
  publisher id' _ := by
    by_cases h : id' = id
    · subst h
      rw [heap_release_self]
      rfl
    · rw [heap_release_of_ne h]

/-! ### Acquisition -/

/-- An acquisition that succeeds makes an entry for a topic that has none, or adds
a holder to the one it has. -/
theorem acquire_ok (h : r.acquire maximumPublishers request advertise = (.ok lease, r')) :
    (r.entries.lookup request.topic = none ∧ r.size < maximumPublishers ∧
      lease.entry = r.made ∧ lease.publisher.For request ∧
      r' = r.emplace request.topic
        ⟨request.messageType, request.latch, request.queueSize, lease.publisher, 1, false⟩) ∨
    (r.entries.lookup request.topic = some lease.entry ∧
      (r.heap lease.entry).messageType = request.messageType ∧
      (r.heap lease.entry).latch = request.latch ∧
      (r.heap lease.entry).queueSize = request.queueSize ∧
      lease.publisher = (r.heap lease.entry).publisher ∧ r' = r.retain lease.entry) := by
  unfold acquire at h
  split at h
  · rename_i hnone
    split at h
    · cases h
    · rename_i hsize
      split at h
      · cases h
      · cases h
        exact .inl ⟨hnone, Nat.lt_of_not_le hsize, rfl, ⟨rfl, rfl, rfl, rfl⟩, rfl⟩
  · rename_i id hsome
    simp only at h
    split at h
    · cases h
    · rename_i hconfig
      cases h
      simp only [ne_eq, not_or, not_not] at hconfig
      exact .inr ⟨hsome, hconfig.1, hconfig.2.1, hconfig.2.2, rfl, rfl⟩

/-- The lease is on a publisher that was advertised for the request, and is the
entry's own. -/
theorem Consistent.lease_acquire (h : r.Consistent maximumPublishers holders)
    (hr : r.acquire maximumPublishers request advertise = (.ok lease, r')) :
    lease.publisher.For request ∧ lease.entry < r'.made ∧
      (r'.heap lease.entry).publisher = lease.publisher := by
  rcases acquire_ok hr with ⟨-, -, hid, hfor, rfl⟩ | ⟨hsome, htype, hlatch, hqueue, hpub, rfl⟩
  · rw [hid, heap_emplace_self]
    exact ⟨hfor, Nat.lt_succ_self _, rfl⟩
  · have hadv := h.advertised _ _ hsome
    rw [heap_retain_self, hpub]
    exact ⟨⟨hadv.topic, hadv.messageType.trans htype, hadv.queueSize.trans hqueue,
      hadv.latch.trans hlatch⟩, h.made _ _ hsome, rfl⟩

theorem extends_acquire (hr : r.acquire maximumPublishers request advertise = (.ok lease, r')) :
    r.Extends r' := by
  rcases acquire_ok hr with ⟨-, -, -, -, rfl⟩ | ⟨-, -, -, -, -, rfl⟩
  · refine ⟨Nat.le_succ _, fun id hid => ?_⟩
    rw [heap_emplace_of_ne (Nat.ne_of_lt hid)]
  · refine ⟨Nat.le_refl _, fun id _ => ?_⟩
    by_cases h : id = lease.entry
    · rw [h, heap_retain_self]
    · rw [heap_retain_of_ne h]

/-- A lookup in the map of a new entry. -/
theorem Consistent.lookup_emplace (h : r.Consistent maximumPublishers holders)
    {topic t : String} {entry : Entry} {id : EntryId}
    (hl : (r.emplace topic entry).entries.lookup t = some id) :
    (t = topic ∧ id = r.made) ∨ (t ≠ topic ∧ id ≠ r.made ∧ r.entries.lookup t = some id) := by
  by_cases ht : t = topic
  · subst ht
    rw [emplace, AList.lookup_insert] at hl
    cases hl
    exact .inl ⟨rfl, rfl⟩
  · rw [emplace, AList.lookup_insert_ne ht] at hl
    exact .inr ⟨ht, Nat.ne_of_lt (h.made _ _ hl), hl⟩

/-- A new entry has one holder. -/
theorem Consistent.emplace (h : r.Consistent maximumPublishers holders) {topic : String}
    {entry : Entry} (hnone : r.entries.lookup topic = none) (hsize : r.size < maximumPublishers)
    (hadv : Advertised entry topic) (hactive : entry.activeCalls = 1)
    (hcommitted : entry.nativeDispatchCommitted = false) :
    (r.emplace topic entry).Consistent maximumPublishers
      (Function.update holders r.made (holders r.made + 1)) where
  bounded := by
    have hmem : topic ∉ r.entries.keys := by
      rw [← AList.mem_keys]
      exact AList.lookup_eq_none.mp hnone
    rw [size, Registry.emplace, AList.keys_insert, List.erase_of_not_mem hmem, List.length_cons]
    exact hsize
  counted id := by
    by_cases hid : id = r.made
    · rw [hid, heap_emplace_self, Function.update_self, hactive, h.unmade _ (Nat.le_refl _)]
    · rw [heap_emplace_of_ne hid, Function.update_of_ne hid, h.counted]
  made t id hl := by
    rcases h.lookup_emplace hl with ⟨-, rfl⟩ | ⟨-, -, hl⟩
    · exact Nat.lt_succ_self _
    · exact Nat.lt_succ_of_lt (h.made _ _ hl)
  unmade id hid := by
    have hid : r.made + 1 ≤ id := hid
    rw [Function.update_of_ne (Nat.ne_of_gt hid)]
    exact h.unmade _ (Nat.le_of_succ_le hid)
  advertised t id hl := by
    rcases h.lookup_emplace hl with ⟨rfl, rfl⟩ | ⟨-, hne, hl⟩
    · rwa [heap_emplace_self]
    · rw [heap_emplace_of_ne hne]
      exact h.advertised _ _ hl
  kept t id hl := by
    rcases h.lookup_emplace hl with ⟨-, rfl⟩ | ⟨-, hne, hl⟩
    · rw [heap_emplace_self, hactive]
      exact .inl Nat.one_pos
    · rw [heap_emplace_of_ne hne]
      exact h.kept _ _ hl
  recorded t := by
    rw [show (r.emplace topic entry).dispatched = r.dispatched from rfl, h.recorded]
    constructor
    · rintro ⟨id, hl, hc⟩
      have ht : t ≠ topic := by
        rintro rfl
        rw [hnone] at hl
        cases hl
      refine ⟨id, (AList.lookup_insert_ne ht).trans hl, ?_⟩
      rwa [heap_emplace_of_ne (Nat.ne_of_lt (h.made _ _ hl))]
    · rintro ⟨id, hl, hc⟩
      rcases h.lookup_emplace hl with ⟨-, rfl⟩ | ⟨-, hne, hl⟩
      · rw [heap_emplace_self, hcommitted] at hc
        cases hc
      · rw [heap_emplace_of_ne hne] at hc
        exact ⟨id, hl, hc⟩

/-- Nothing about an entry changes under `retain` but its count. -/
theorem heap_retain (id other : EntryId) :
    (r.retain id).heap other =
      { r.heap other with
        activeCalls := (r.heap other).activeCalls + if other = id then 1 else 0 } := by
  by_cases h : other = id
  · subst h
    simp
  · rw [heap_retain_of_ne h, if_neg h]
    rfl

/-- Another call on a cached entry is another holder. -/
theorem Consistent.retain (h : r.Consistent maximumPublishers holders) {topic : String}
    {id : EntryId} (hsome : r.entries.lookup topic = some id) :
    (r.retain id).Consistent maximumPublishers (Function.update holders id (holders id + 1)) where
  bounded := h.bounded
  counted other := by
    rw [heap_retain]
    by_cases hid : other = id
    · simp [hid, h.counted]
    · simp [hid, h.counted]
  made := h.made
  unmade other hother := by
    rw [Function.update_of_ne (Nat.ne_of_gt (Nat.lt_of_lt_of_le (h.made _ _ hsome) hother))]
    exact h.unmade _ hother
  advertised t other hl := by
    have hadv := h.advertised _ _ hl
    rw [heap_retain]
    exact ⟨hadv.topic, hadv.messageType, hadv.queueSize, hadv.latch⟩
  kept t other hl := by
    rw [heap_retain]
    rcases h.kept _ _ hl with hk | hk
    · exact .inl (Nat.lt_of_lt_of_le hk (Nat.le_add_right _ _))
    · exact .inr hk
  recorded t := by
    simp only [heap_retain]
    exact h.recorded t

/-- An acquisition adds a holder to the entry it leases. -/
theorem Consistent.acquire (h : r.Consistent maximumPublishers holders)
    (hr : r.acquire maximumPublishers request advertise = (.ok lease, r')) :
    r'.Consistent maximumPublishers
      (Function.update holders lease.entry (holders lease.entry + 1)) := by
  rcases acquire_ok hr with ⟨hnone, hsize, hid, hfor, rfl⟩ | ⟨hsome, -, -, -, -, rfl⟩
  · rw [hid]
    exact h.emplace hnone hsize ⟨hfor.1, hfor.2.1, hfor.2.2.1, hfor.2.2.2⟩ rfl rfl
  · exact h.retain hsome

/-! ### Release -/

/-- A release drops the entry from the map if it is the topic's current one and
nothing keeps it, and no other. -/
theorem lookup_release {topic t : String} {id other : EntryId} {committed : Bool} :
    (r.release topic id committed).entries.lookup t = some other ↔
      r.entries.lookup t = some other ∧
        ¬(t = topic ∧ other = id ∧ (released (r.heap id) committed).activeCalls = 0 ∧
          (released (r.heap id) committed).nativeDispatchCommitted = false) := by
  rw [release]
  simp only
  by_cases ht : t = topic
  · subst ht
    split
    · rename_i hdrop
      rw [AList.lookup_erase, hdrop.1]
      constructor
      · nofun
      · rintro ⟨hl, hno⟩
        cases hl
        exact absurd ⟨rfl, rfl, hdrop.2⟩ hno
    · rename_i hkeep
      refine ⟨fun hl => ⟨hl, ?_⟩, And.left⟩
      rintro ⟨-, rfl, hrest⟩
      exact hkeep ⟨hl, hrest⟩
  · have hno : ∀ p : Prop, ¬(t = topic ∧ p) := fun _ h => ht h.1
    split
    · rw [AList.lookup_erase_ne ht]
      exact ⟨fun hl => ⟨hl, hno _⟩, And.left⟩
    · exact ⟨fun hl => ⟨hl, hno _⟩, And.left⟩

/-- The topic that a release has committed a dispatch on. -/
theorem mem_dispatched_release {topic t : String} {id : EntryId} {committed : Bool} :
    t ∈ (r.release topic id committed).dispatched ↔
      t ∈ r.dispatched ∨ (t = topic ∧ committed = true ∧ r.entries.lookup topic = some id) := by
  rw [release]
  simp only
  split
  · rename_i h
    simp [h]
  · rename_i h
    simp [h]

/-- A release takes a holder from the entry. -/
theorem Consistent.release (h : r.Consistent maximumPublishers holders) {topic : String}
    {id : EntryId} (hpos : 0 < holders id) (htopic : (r.heap id).publisher.topic = topic)
    (committed : Bool) :
    (r.release topic id committed).Consistent maximumPublishers
      (Function.update holders id (holders id - 1)) := by
  have hactive : (released (r.heap id) committed).activeCalls = holders id - 1 := by
    rw [released, if_pos (h.counted id ▸ hpos), h.counted]
  -- The map refers to an entry under the entry's own topic only.
  have hown {t : String} (hl : r.entries.lookup t = some id) : t = topic :=
    (h.advertised _ _ hl).topic.symm.trans htopic
  constructor
  case bounded =>
    refine Nat.le_trans ?_ h.bounded
    rw [size, size, Registry.release]
    simp only
    split
    · rw [AList.keys_erase]
      exact List.length_erase_le
    · exact Nat.le_refl _
  case counted =>
    intro other
    by_cases hid : other = id
    · rw [hid, heap_release_self, Function.update_self, hactive]
    · rw [heap_release_of_ne hid, Function.update_of_ne hid, h.counted]
  case made => exact fun t other hl => h.made t other (lookup_release.mp hl).1
  case unmade =>
    intro other hother
    have hne : other ≠ id := by
      rintro rfl
      exact absurd (h.unmade _ hother) (Nat.ne_of_gt hpos)
    rw [Function.update_of_ne hne]
    exact h.unmade _ hother
  case advertised =>
    intro t other hl
    have hadv := h.advertised _ _ (lookup_release.mp hl).1
    by_cases hid : other = id
    · subst hid
      rw [heap_release_self]
      exact ⟨hadv.topic, hadv.messageType, hadv.queueSize, hadv.latch⟩
    · rwa [heap_release_of_ne hid]
  case kept =>
    intro t other hl
    obtain ⟨hbefore, hkeep⟩ := lookup_release.mp hl
    by_cases hid : other = id
    · subst hid
      rw [heap_release_self]
      by_cases hzero : (released (r.heap other) committed).activeCalls = 0
      · exact .inr (Bool.eq_true_of_not_eq_false fun hc => hkeep ⟨hown hbefore, rfl, hzero, hc⟩)
      · exact .inl (Nat.pos_of_ne_zero hzero)
    · rw [heap_release_of_ne hid]
      exact h.kept _ _ hbefore
  case recorded =>
    intro t
    rw [mem_dispatched_release, h.recorded]
    constructor
    · rintro (⟨other, hl, hc⟩ | ⟨rfl, rfl, hl⟩)
      · by_cases hid : other = id
        · subst hid
          have hc' : (released (r.heap other) committed).nativeDispatchCommitted = true := by
            rw [released, hc, Bool.true_or]
          refine ⟨other, lookup_release.mpr ⟨hl, fun hdrop => ?_⟩, by rw [heap_release_self, hc']⟩
          exact Bool.false_ne_true (hdrop.2.2.2.symm.trans hc')
        · refine ⟨other, lookup_release.mpr ⟨hl, fun hdrop => hid hdrop.2.1⟩, ?_⟩
          rwa [heap_release_of_ne hid]
      · have hc' : (released (r.heap id) true).nativeDispatchCommitted = true := by
          rw [released, Bool.or_true]
        refine ⟨id, lookup_release.mpr ⟨hl, fun hdrop => ?_⟩, by rw [heap_release_self, hc']⟩
        exact Bool.false_ne_true (hdrop.2.2.2.symm.trans hc')
    · rintro ⟨other, hl, hc⟩
      have hbefore := (lookup_release.mp hl).1
      by_cases hid : other = id
      · subst hid
        rw [heap_release_self, released, Bool.or_eq_true] at hc
        rcases hc with hc | hc
        · exact .inl ⟨other, hbefore, hc⟩
        · exact .inr ⟨hown hbefore, hc, hown hbefore ▸ hbefore⟩
      · rw [heap_release_of_ne hid] at hc
        exact .inl ⟨other, hbefore, hc⟩

end Registry

end Ros1Tools.Publish
