import Ros1Tools.Facts.History

/-!
# Files and parameters

The history of a declared file or parameter is the sequence of what the looks at it came
to, with consecutive equal outcomes collapsed to one.  What carries the argument is that
the two keys under which the recorder remembers a source are never both set: filing a
sample forgets the reason before it, and filing a reason forgets the sample.  Then an outcome
is remembered exactly if it is the latest one.
-/

namespace Ros1Tools.Facts

open Lib Lib.Faulty Lib.Python

/-- A file or a parameter is filed under its own kind, whatever a look at it comes to. -/
def polled (kind source : String) : Watch := ⟨kind, kind, source⟩

/-! ## What a look comes to -/

/-- The reason that is filed when a file cannot be read or stored. -/
def fileReason (e : Exception) : Option String :=
  match e.kind with
  | .valueError => some e.text
  | .osError => some e.name
  | _ => none

/-- What a look comes to, by how it ends.  It comes to nothing if the process is gone, or if
an exception leaves the look. -/
def sightingOf (reason : Exception → Option String) :
    Outcome Exception RecordFacts (Bytes × Option Content) → Option Sighting
  | .done x _ _ => some (.content x.1)
  | .raised e _ _ => (reason e).map .absent
  | .crashed _ => none

namespace Poll

variable (host : Host) (s : RecordFacts) (fates : Fates Exception)

/-- What a look at a file comes to. -/
def fileSighting (declaration : Declaration) (kind : String)
    (opened : Except Exception OpenedFile) : Option Sighting :=
  sightingOf fileReason (host.acquire kind declaration.role (kind ++ "-" ++ declaration.role)
    (splitext declaration.path) (opened >>= OpenedFile.bytes) s fates)

/-- What a look at a parameter comes to: its value is what it is encoded to. -/
def parameterSighting (name : String) (answer : Except Exception (Int × Value)) :
    Option Sighting :=
  match answer with
  | .error e => some (.absent e.name)
  | .ok (code, value) =>
      if code ≠ 1 then some (.absent "parameter-unavailable")
      else sightingOf (fun e => some e.name) (host.acquire "parameter" name
        ("parameter" ++ "-" ++ name) ".json" (host.dumps value) s fates)

def sighting : Poll → Option Sighting
  | file declaration kind opened => fileSighting host s fates declaration kind opened
  | parameter name answer => parameterSighting host s fates name answer

/-- The recorder after a look. -/
def after (poll : Poll) : RecordFacts :=
  match host.poll poll s fates with
  | .done _ facts _ => facts
  | .raised _ facts _ => facts
  | .crashed _ => s

end Poll

/-! ## The invariant -/

/-- The two keys, by the latest outcome. -/
def remembered : Option Entry → Option String × Option String
  | none => (none, none)
  | some (.content sha256) => (some sha256, none)
  | some (.absent reason) => (none, some reason)

/-- The log and the keys are what the outcomes so far make them. -/
structure Recalls (kind source : String) (seen : List Entry) (s : RecordFacts) : Prop where
  history : (polled kind source).history s = seen.destutter (· ≠ ·)
  memory : (polled kind source).memory s = remembered seen.getLast?

section Recalls

variable {host : Host} {kind source : String} {seen : List Entry} {s s₁ : RecordFacts}
  {fates rest : Fates Exception}

theorem Recalls.spares (h : Recalls kind source seen s) (hs : Spares (polled kind source) s s₁) :
    Recalls kind source seen s₁ :=
  ⟨hs.history.trans h.history, hs.memory.trans h.memory⟩

theorem Recalls.content_iff (h : Recalls kind source seen s) (sha256 : String) :
    s.previous (.sample kind source) = some sha256 ↔ seen.getLast? = some (.content sha256) := by
  have hmemory : s.previous (.sample kind source) = (remembered seen.getLast?).1 :=
    congrArg Prod.fst h.memory
  rw [hmemory]
  cases seen.getLast? with
  | none => simp [remembered]
  | some entry =>
      cases entry with
      | content sha256' => simp [remembered]
      | absent reason => simp [remembered]

theorem Recalls.absent_iff (h : Recalls kind source seen s) (reason : String) :
    s.previous (.unavailable kind source) = some reason ↔
      seen.getLast? = some (.absent reason) := by
  have hmemory : s.previous (.unavailable kind source) = (remembered seen.getLast?).2 :=
    congrArg Prod.snd h.memory
  rw [hmemory]
  cases seen.getLast? with
  | none => simp [remembered]
  | some entry =>
      cases entry with
      | content sha256 => simp [remembered]
      | absent reason' => simp [remembered]

/-- An outcome that is remembered. -/
theorem Recalls.repeated (h : Recalls kind source seen s) {entry : Entry}
    (hlast : seen.getLast? = some entry) : Recalls kind source (seen ++ [entry]) s where
  history := by rw [destutter_concat, if_pos hlast, h.history]
  memory := by rw [List.getLast?_concat, ← hlast, h.memory]

/-- An outcome that is filed. -/
theorem Recalls.filed (h : Recalls kind source seen s) {entry : Entry}
    (hlast : seen.getLast? ≠ some entry)
    (hhistory : (polled kind source).history s₁ = (polled kind source).history s ++ [entry])
    (hmemory : (polled kind source).memory s₁ = remembered (some entry)) :
    Recalls kind source (seen ++ [entry]) s₁ where
  history := by rw [destutter_concat, if_neg hlast, hhistory, h.history]
  memory := by rw [List.getLast?_concat, hmemory]

/-- There is a reason why there is no sample. -/
theorem Recalls.unavailable (h : Recalls kind source seen s) (host : Host) (hopen : s.Open)
    (reason : String) (fates : Fates Exception) :
    ∃ effect s', host.unavailable kind source reason s fates = .done effect s' fates ∧
      Recalls kind source (seen ++ [.absent reason]) s' := by
  obtain ⟨effect, s', heq, ⟨hknown, rfl⟩ | ⟨hnew, hhistory, hprevious⟩⟩ :=
    unavailable_files (polled kind source) host hopen reason fates
  · exact ⟨effect, s', heq, h.repeated ((h.absent_iff reason).mp hknown)⟩
  · refine ⟨effect, s', heq, h.filed (fun hlast => hnew ((h.absent_iff reason).mpr hlast))
      hhistory ?_⟩
    simp [Watch.memory, hprevious, remembered, polled, Watch.sampleKey, Watch.missKey]

/-- There is a sample, and the reason before it is forgotten: by `recorded`, or afterwards. -/
theorem Recalls.sample (h : Recalls kind source seen s) {label suffix : String}
    {read : Except Exception Bytes} {x : Bytes × Option Content}
    (hacquire : host.acquire kind source label suffix read s fates = .done x s₁ rest)
    (hopen : s.Open) {clock : Recording Clock} (hclock : Prompt host clock) (validity : String)
    (recorded : Bytes → RecordFacts → RecordFacts)
    (hhistory : ∀ data s, (polled kind source).history (recorded data s) =
      (polled kind source).history s)
    (hsample : ∀ data s, (recorded data s).previous (.sample kind source) =
      some (host.sha256 data)) :
    ∃ effect s', enter kind source validity clock recorded x s₁ rest = .done effect s' rest ∧
      Recalls kind source (seen ++ [Entry.content (host.sha256 x.1)])
        (s'.setPrevious (.unavailable kind source) none) ∧
      ((∀ data s, (recorded data s).previous (.unavailable kind source) = none) →
        Recalls kind source (seen ++ [Entry.content (host.sha256 x.1)]) s') := by
  obtain ⟨effect, s', heq, hcases⟩ :=
    enter_files (polled kind source) hacquire hopen hclock validity recorded hhistory
  refine ⟨effect, s', heq, ?_⟩
  rcases hcases with ⟨hknown, hadvance⟩ | ⟨hnew, hfiled, s₂, -, rfl⟩
  · have hlast := (h.content_iff _).mp hknown
    have hrepeated := (h.spares hadvance.spares).repeated hlast
    refine ⟨⟨hrepeated.history, ?_⟩, fun _ => hrepeated⟩
    -- What is forgotten was not remembered.
    rw [← hrepeated.memory]
    have hmiss : s'.previous (.unavailable kind source) = none := by
      have hmemory := congrArg Prod.snd hrepeated.memory
      rw [List.getLast?_concat] at hmemory
      exact hmemory
    have hupdate : (s'.setPrevious (.unavailable kind source) none).previous = s'.previous := by
      rw [RecordFacts.setPrevious, ← hmiss]
      exact Function.update_eq_self _ _
    rw [Watch.memory, hupdate, Watch.memory]
  · have hlast : seen.getLast? ≠ some (Entry.content (host.sha256 x.1)) :=
      fun hlast => hnew ((h.content_iff _).mpr hlast)
    have hkey : (.sample kind source : PreviousKey) ≠ .unavailable kind source := by simp
    refine ⟨h.filed hlast hfiled ?_, fun hmiss => h.filed hlast hfiled ?_⟩
    · refine Prod.ext ?_ (Function.update_self _ _ _)
      exact (Function.update_of_ne hkey none _).trans (hsample x.1 s₂)
    · exact Prod.ext (hsample x.1 s₂) (hmiss x.1 s₂)

end Recalls

/-! ## The two looks -/

section Looks

variable {host : Host} {kind source : String} {seen : List Entry} {s : RecordFacts}

theorem readFile_eq (declaration : Declaration) (kind : String)
    (opened : Except Exception OpenedFile) :
    host.readFile declaration kind opened =
      host.acquire kind declaration.role (kind ++ "-" ++ declaration.role)
          (splitext declaration.path) (opened >>= OpenedFile.bytes) >>=
        enter kind declaration.role "file-bytes-observed; consumer-load-unknown" host.now
          fun data s =>
            (s.setPrevious (.sample kind declaration.role) (some (host.sha256 data))).setPrevious
              (.unavailable kind declaration.role) none :=
  acquire_bind_enter host kind declaration.role _ _ _ _ host.now _

theorem observation_eq (kind source : String) (value : Value) (observed : Option Clock) :
    host.observation kind source value observed =
      host.acquire kind source (kind ++ "-" ++ source) ".json" (host.dumps value) >>=
        enter kind source "observation-only; between-sample changes are unknown"
          (host.observedOrNow observed)
          fun data s => s.setPrevious (.sample kind source) (some (host.sha256 data)) :=
  acquire_bind_enter host kind source _ _ _ _ (host.observedOrNow observed) _

theorem file_eq (declaration : Declaration) (kind : String)
    (opened : Except Exception OpenedFile) :
    host.file declaration kind opened =
      tryCatch (host.readFile declaration kind opened) fun e =>
        match fileReason e with
        | some reason => host.unavailable kind declaration.role reason
        | none => throw e := by
  unfold Host.file
  congr 1
  funext e
  unfold fileReason
  cases e.kind with
  | valueError => rfl
  | osError => rfl
  | typeError => rfl
  | keyError => rfl
  | recursionError => rfl
  | other => rfl

/-! The recorder after a look, by how the look ends. -/

section After

variable (poll : Poll) {fates rest : Fates Exception} {s' : RecordFacts}

theorem Poll.after_of_done {effect : Effect}
    (h : poll.perform host s fates = .done effect s' rest) : poll.after host s fates = s' := by
  rw [Poll.after, Host.poll, tryCatch_apply, h]

theorem Poll.after_of_crashed (h : poll.perform host s fates = .crashed s') :
    poll.after host s fates = s := by
  rw [Poll.after, Host.poll, tryCatch_apply, h]

theorem Poll.after_of_raised (watch : Watch) {e : Exception}
    (h : poll.perform host s fates = .raised e s' rest) (hspares : Spares watch s s')
    (hobserver : watch.Ignores "observer" "snapshot-poll") :
    Spares watch s (poll.after host s fates) := by
  have hwp : Wp (fun _ => True) (host.unavailable "observer" "snapshot-poll" e.name)
      (Everywhere (Spares watch s)) s' := wp_spares_unavailable hspares hobserver e.name
  have hhandler := hwp rest fun _ _ => trivial
  rw [Poll.after, Host.poll, tryCatch_apply, h]
  dsimp only
  cases hout : host.unavailable "observer" "snapshot-poll" e.name s' rest with
  | done effect s'' rest' =>
      rw [hout] at hhandler
      exact hhandler.1
  | raised e' s'' rest' =>
      rw [hout] at hhandler
      exact hhandler.1
  | crashed s'' => exact .refl s

end After

/-- **One look at a file.** -/
theorem Recalls.file {declaration : Declaration} (h : Recalls kind declaration.role seen s)
    (hopen : s.Open) (hkind : kind ≠ "observer") (opened : Except Exception OpenedFile)
    (fates : Fates Exception) :
    Recalls kind declaration.role
      (seen ++ ((Poll.fileSighting host s fates declaration kind opened).map host.entry).toList)
      ((Poll.file declaration kind opened).after host s fates) := by
  unfold Poll.fileSighting
  cases hacquire : host.acquire kind declaration.role (kind ++ "-" ++ declaration.role)
      (splitext declaration.path) (opened >>= OpenedFile.bytes) s fates with
  | done x s₁ rest =>
      obtain ⟨effect, s', henter, -, hrecalls⟩ := h.sample hacquire hopen (prompt_now host)
        "file-bytes-observed; consumer-load-unknown"
        (fun data s => (s.setPrevious (.sample kind declaration.role)
          (some (host.sha256 data))).setPrevious (.unavailable kind declaration.role) none)
        (fun _ _ => rfl) (fun _ _ => by simp [RecordFacts.setPrevious])
      have hdone : host.file declaration kind opened s fates = .done effect s' rest := by
        rw [file_eq, tryCatch_apply, readFile_eq, bind_apply, hacquire]
        dsimp only
        rw [henter]
      rw [Poll.after_of_done (.file declaration kind opened) hdone]
      exact hrecalls fun _ _ => Function.update_self _ _ _
  | raised e s₁ rest =>
      have hadvance : Advance host s s₁ := wp_acquire.of_raised hacquire
      have hfile : host.file declaration kind opened s fates =
          (match fileReason e with
            | some reason => host.unavailable kind declaration.role reason
            | none => throw e) s₁ rest := by
        rw [file_eq, tryCatch_apply, readFile_eq, bind_apply, hacquire]
      cases hreason : fileReason e with
      | some reason =>
          rw [hreason] at hfile
          obtain ⟨effect, s', heq, hrecalls⟩ :=
            (h.spares hadvance.spares).unavailable host (hadvance.isOpen hopen) reason
              rest
          rw [Poll.after_of_done (.file declaration kind opened) (hfile.trans heq)]
          simp only [sightingOf, hreason]
          exact hrecalls
      | none =>
          rw [hreason] at hfile
          have hspares := Poll.after_of_raised (.file declaration kind opened)
            (polled kind declaration.role) hfile hadvance.spares (.inr ⟨hkind.symm, hkind.symm⟩)
          simpa only [sightingOf, hreason, Option.map_none, Option.toList_none, List.append_nil]
            using h.spares hspares
  | crashed s₁ =>
      have hfile : host.file declaration kind opened s fates = .crashed s₁ := by
        rw [file_eq, tryCatch_apply, readFile_eq, bind_apply, hacquire]
      rw [Poll.after_of_crashed (.file declaration kind opened) hfile]
      simpa only [sightingOf, Option.map_none, Option.toList_none, List.append_nil] using h

/-- **One look at a parameter.** -/
theorem Recalls.parameter {name : String} (h : Recalls "parameter" name seen s)
    (hopen : s.Open) (answer : Except Exception (Int × Value))
    (fates : Fates Exception) :
    Recalls "parameter" name
      (seen ++ ((Poll.parameterSighting host s fates name answer).map host.entry).toList)
      ((Poll.parameter name answer).after host s fates) := by
  -- Whatever the reason is, it is filed.
  have habsent : ∀ reason s₁ rest, Advance host s s₁ →
      (∀ effect s', host.unavailable "parameter" name reason s₁ rest = .done effect s' rest →
        host.parameter name answer s fates = .done effect s' rest) →
      Recalls "parameter" name (seen ++ [.absent reason])
        ((Poll.parameter name answer).after host s fates) := by
    intro reason s₁ rest hadvance hparameter
    obtain ⟨effect, s', hdone, hrecalls⟩ :=
      (h.spares hadvance.spares).unavailable host (hadvance.isOpen hopen) reason rest
    rw [Poll.after_of_done (.parameter name answer) (hparameter effect s' hdone)]
    exact hrecalls
  cases answer with
  | error e => exact habsent e.name s fates (.refl s) fun _ _ heq => heq
  | ok reply =>
      obtain ⟨code, value⟩ := reply
      by_cases hcode : code = 1
      · subst hcode
        have hparameter : host.parameter name (.ok (1, value)) =
            tryCatch (host.observation "parameter" name value none >>= fun effect => do
              modify (·.setPrevious (.unavailable "parameter" name) none)
              pure effect) fun e => host.unavailable "parameter" name e.name := rfl
        simp only [Poll.parameterSighting, ne_eq, not_true_eq_false, if_false]
        cases hacquire : host.acquire "parameter" name ("parameter" ++ "-" ++ name) ".json"
            (host.dumps value) s fates with
        | done x s₁ rest =>
            obtain ⟨effect, s', henter, hrecalls, -⟩ := h.sample hacquire hopen
              (prompt_observedOrNow host none)
              "observation-only; between-sample changes are unknown"
              (fun data s => s.setPrevious (.sample "parameter" name)
                (some (host.sha256 data)))
              (fun _ _ => rfl) (fun _ _ => Function.update_self _ _ _)
            have hdone : host.parameter name (.ok (1, value)) s fates =
                .done effect (s'.setPrevious (.unavailable "parameter" name) none) rest := by
              rw [hparameter, tryCatch_apply, bind_apply, observation_eq, bind_apply, hacquire]
              dsimp only
              rw [henter]
              rfl
            rw [Poll.after_of_done (.parameter name (.ok (1, value))) hdone]
            exact hrecalls
        | raised e s₁ rest =>
            refine habsent e.name s₁ rest (wp_acquire.of_raised hacquire) fun effect s' heq => ?_
            rw [hparameter, tryCatch_apply, bind_apply, observation_eq, bind_apply, hacquire]
            exact heq
        | crashed s₁ =>
            have hcrashed : host.parameter name (.ok (1, value)) s fates = .crashed s₁ := by
              rw [hparameter, tryCatch_apply, bind_apply, observation_eq, bind_apply, hacquire]
            rw [Poll.after_of_crashed (.parameter name (.ok (1, value))) hcrashed]
            simpa only [sightingOf, Option.map_none, Option.toList_none, List.append_nil] using h
      · simp only [Poll.parameterSighting, ne_eq, hcode, not_false_eq_true, if_true]
        refine habsent _ s fates (.refl s) fun effect s' heq => ?_
        have hparameter : host.parameter name (.ok (code, value)) =
            tryCatch (host.unavailable "parameter" name "parameter-unavailable")
              fun e => host.unavailable "parameter" name e.name := by
          unfold Host.parameter
          congr 1
          funext s fates
          simp [bind_apply, lift, Faulty.pure, hcode]
        rw [hparameter, tryCatch_apply, heq]

end Looks

/-! ## Runs -/

namespace System

variable (host : Host) (kind source : String)

/-- What a step of the threads finds out about a source. -/
def sighting (s : System) : Action → Option Sighting
  | .poll poll fates =>
      match s.worker with
      | .polling =>
          if poll.kind = kind ∧ poll.source = source then poll.sighting host s.facts fates
          else none
      | _ => none
  | _ => none

/-- What a run finds out about a source, in order. -/
def sightings : System → List Action → List Sighting
  | _, [] => []
  | s, action :: actions =>
      (s.sighting host kind source action).toList ++ sightings (s.step host action) actions

end System

section Runs

variable {host : Host} {kind source : String} {seen : List Entry} {s : System}

/-- The kind of a message is not one that is polled. -/
theorem Message.kind_of_isSent {message : Message} (h : message.isSent = true) :
    message.kind ∉ polledKinds := by
  simp only [isSent, Bool.or_eq_true, Bool.and_eq_true, beq_iff_eq] at h
  rcases h with (⟨h, -⟩ | ⟨h, -⟩) | ⟨h | h, -⟩
  · rw [h]
    decide
  · rw [h]
    decide
  · rw [h]
    decide
  · rw [h]
    decide

theorem polled_ignores {kind' source' : String} (h : ¬(kind' = kind ∧ source' = source)) :
    (polled kind source).Ignores kind' source' := by
  by_cases hsource : source' = source
  · have hkind : kind' ≠ kind := fun hkind => h ⟨hkind, hsource⟩
    exact .inr ⟨hkind, hkind⟩
  · exact .inl hsource

theorem Recalls.poll {poll : Poll} (h : Recalls poll.kind poll.source seen s.facts)
    (hopen : s.facts.Open) (hkind : poll.kind ≠ "observer")
    (fates : Fates Exception) :
    Recalls poll.kind poll.source
      (seen ++ ((poll.sighting host s.facts fates).map host.entry).toList)
      (poll.after host s.facts fates) := by
  cases poll with
  | file declaration kind opened => exact h.file hopen hkind opened fates
  | parameter name answer => exact h.parameter hopen answer fates

theorem System.facts_poll (hpolling : s.worker = .polling) (poll : Poll)
    (fates : Fates Exception) :
    (s.poll host poll fates).facts = poll.after host s.facts fates := by
  unfold System.poll Poll.after
  rw [hpolling]
  dsimp only
  cases host.poll poll s.facts fates with
  | done effect facts rest => rfl
  | raised e facts rest => rfl
  | crashed facts => rfl

/-- **One step of the threads** adds what it finds out about a source. -/
theorem Recalls.step (h : Recalls kind source seen s.facts) (hkind : kind ∈ polledKinds)
    (hsent : AllSent s) (hopen : s.facts.Open) (action : Action) :
    Recalls kind source (seen ++ ((s.sighting host kind source action).map host.entry).toList)
      (s.step host action).facts := by
  have hobserver : ∀ source', (polled kind source).Ignores "observer" source' := by
    refine fun source' => polled_ignores fun heq => ?_
    rw [← heq.1] at hkind
    exact absurd hkind (by decide)
  have hspared : s.sighting host kind source action = none →
      Spares (polled kind source) s.facts (s.step host action).facts →
      Recalls kind source (seen ++ ((s.sighting host kind source action).map host.entry).toList)
        (s.step host action).facts := by
    intro hnone hspares
    rw [hnone]
    simpa using h.spares hspares
  cases action with
  | poll poll fates =>
      by_cases habout : poll.kind = kind ∧ poll.source = source
      · obtain ⟨rfl, rfl⟩ := habout
        cases hworker : s.worker with
        | polling =>
            have hne : poll.kind ≠ "observer" := by
              intro heq
              rw [heq] at hkind
              exact absurd hkind (by decide)
            simp only [System.sighting, hworker, and_self, if_true]
            change Recalls _ _ _ (s.poll host poll fates).facts
            rw [System.facts_poll hworker]
            exact h.poll hopen hne fates
        | _ =>
            refine hspared (by simp only [System.sighting, hworker]) ?_
            change Spares _ _ (s.poll host poll fates).facts
            simp only [System.poll, hworker]
            exact .refl _
      · refine hspared ?_ (spares_poll fates (polled_ignores habout) (hobserver _))
        cases hworker : s.worker with
        | polling => simp only [System.sighting, hworker, habout, if_false]
        | _ => simp only [System.sighting, hworker]
  | process fates =>
      refine hspared rfl (spares_process fates fun message budget final hworker => ?_)
      refine ⟨polled_ignores fun heq => ?_, hobserver _⟩
      rw [← heq.1] at hkind
      exact Message.kind_of_isSent (hsent.worker message budget final hworker) hkind
  | _ => exact hspared rfl (spares_step nofun nofun)

/-- **A whole run.** -/
theorem Recalls.run (hkind : kind ∈ polledKinds) (h : Recalls kind source seen s.facts)
    (hsent : AllSent s) {actions : List Action}
    (hactions : Along (System.step host) System.Undisturbed s actions) :
    Recalls kind source (seen ++ (s.sightings host kind source actions).map host.entry)
      (run (System.step host) s actions).facts := by
  induction actions generalizing s seen with
  | nil => simpa [System.sightings] using h
  | cons action actions ih =>
      obtain ⟨⟨hopen, haction⟩, hactions⟩ := hactions
      have hstep := ih (h.step hkind hsent hopen action) (hsent.step haction) hactions
      have hentries : ((s.sighting host kind source action).map host.entry).toList =
          (s.sighting host kind source action).toList.map host.entry := by
        cases s.sighting host kind source action with
        | none => rfl
        | some sighting => rfl
      rw [run_cons, System.sightings, List.map_append, ← List.append_assoc, ← hentries]
      exact hstep

end Runs

theorem recalls_fresh (host : Host) (folder : Folder) (kind source : String) :
    Recalls kind source [] (RecordFacts.fresh host folder) :=
  ⟨rfl, rfl⟩

/-- **Files and parameters are recorded without loss or repetition.**  In every schedule of
the threads in which the log always takes a further event, what it says about a declared file
or parameter is the sequence of what the looks at it came to, with consecutive equal outcomes
collapsed.  Bytes are told by their digest, so that it is the collapsed sequence of the bytes
and reasons themselves as far as digests tell these apart. -/
theorem polled_history_recorded (host : Host) (folder : Folder) (actions : List Action)
    (kind source : String) (hkind : kind ∈ polledKinds)
    (hactions : Along (System.step host) System.Undisturbed
      (System.start (RecordFacts.fresh host folder)) actions) :
    let s := run (System.step host) (System.start (RecordFacts.fresh host folder)) actions
    let seen := (System.start (RecordFacts.fresh host folder)).sightings host kind source actions
    (polled kind source).history s.facts = (seen.map host.entry).destutter (· ≠ ·) ∧
      ((∀ a ∈ seen, ∀ b ∈ seen, host.entry a = host.entry b → a = b) →
        (polled kind source).history s.facts = (seen.destutter (· ≠ ·)).map host.entry) := by
  intro s seen
  have hrecalls : Recalls kind source ([] ++ seen.map host.entry) s.facts :=
    Recalls.run hkind (recalls_fresh host folder kind source) (allSent_start _ rfl) hactions
  exact ⟨hrecalls.history, fun hdistinct =>
    hrecalls.history.trans (host.destutter_entry hdistinct).symm⟩

/-- A regular file with one byte. -/
def sampleFile : OpenedFile := ⟨true, ⟨0, 0, 1, 0, 0⟩, [0x31], ⟨0, 0, 1, 0, 0⟩⟩

/-- What is filed of it. -/
def sampleFiled : Entry :=
  .content "6b86b273ff34fce19d6b804eff5a3f5747ada4eaa22f1d49c01e52ddb7875b4b"

/-- A look at a declared file. -/
def sampleLook (opened : Except Exception OpenedFile) : Action :=
  .poll (.file ⟨"lidar", "/calibration/lidar.yaml"⟩ "calibration-file" opened) []

theorem polled_history_recorded_sample :
    let actions := [.enterPass, .take, sampleLook (.ok sampleFile),
      sampleLook (.error (noSuchFile "/calibration/lidar.yaml")), sampleLook (.ok sampleFile)]
    let s := run (System.step sampleHost) (System.start (RecordFacts.fresh sampleHost sampleFolder))
      actions
    (polled "calibration-file" "lidar").history s.facts =
      [sampleFiled, .absent "FileNotFoundError", sampleFiled] :=
  (polled_history_recorded sampleHost sampleFolder _ "calibration-file" "lidar" (by decide)
    (by decide +kernel)).1.trans (by decide +kernel)

end Ros1Tools.Facts
