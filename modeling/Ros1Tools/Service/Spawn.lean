import Mathlib.Logic.Function.Basic
import Ros1Tools.Lib.Calls
import Ros1Tools.Lib.PosixPath

/-!
# Starting and ending a helper

`HelperProcess`: the socket pair, the descriptors that a new process is given, and the
process itself.  The adapter has other threads, which open and close descriptors and
start and reap processes of their own at any time.  So a number that was this object's
may be someone else's as soon as it is given back, and closing it once too often, or
signalling a process that is already reaped, hits a stranger.

What is this object's own is written `Holds`: its descriptors and its processes, exactly.
Other threads do not change it, and every function is specified by what it makes of it.
That no call touches anything else is the guarantee of all of them.
-/

namespace Ros1Tools.Service.Spawn

open Lib Lib.Program

/-! ## Descriptors -/

abbrev Descriptor := Nat

abbrev Errno := Nat

/-- What a descriptor stands for: an end of this object's socket pair, or anything else. -/
inductive File where
  | parentEnd
  | helperEnd
  | foreign (description : Nat)
deriving DecidableEq, Repr

def File.isForeign : File → Bool
  | .foreign _ => true
  | _ => false

structure Entry where
  file : File
  closeOnExec : Bool
deriving DecidableEq, Repr

/-- The open descriptors of a process. -/
abbrev Table := Descriptor → Option Entry

/-- `posix_spawn_file_actions_t`. -/
inductive FileAction where
  | dup2 (descriptor target : Descriptor)
  | close (descriptor : Descriptor)
deriving DecidableEq, Repr

/-- What an action makes of the descriptors of the new process.  A duplicate survives
`exec`. -/
def FileAction.apply : FileAction → Table → Option Table
  | .dup2 descriptor target, table => (table descriptor).map fun entry =>
      Function.update table target (some { entry with closeOnExec := false })
  | .close descriptor, table => some (Function.update table descriptor none)

/-- What `exec` leaves. -/
def exec (table : Table) : Table := fun descriptor =>
  (table descriptor).filter fun entry => !entry.closeOnExec

/-- The descriptors a spawned process starts with. -/
def spawned (actions : List FileAction) (table : Table) : Option Table :=
  (actions.foldlM (fun table action => FileAction.apply action table) table).map exec

/-! ## System calls -/

inductive Call where
  | readlink
  | socketpair
  | dupFd (descriptor least : Descriptor)
  | close (descriptor : Descriptor)
  | actionsInit
  | actionsAdd (action : FileAction)
  | actionsDestroy
  | spawn (path : String) (actions : List FileAction) (arguments : List String)
  | kill (processId : Nat)
  | waitpid (processId : Nat)

/-- The answers.  `kill` and `waitpid` are made again as long as they are interrupted; what
they answer then is not looked at. -/
abbrev Call.Answer : Call → Type
  | .readlink => Except Errno String
  | .socketpair => Except Errno (Descriptor × Descriptor)
  | .dupFd _ _ => Except Errno Descriptor
  | .close _ => Unit
  | .actionsInit => Option Errno
  | .actionsAdd _ => Option Errno
  | .actionsDestroy => Unit
  | .spawn _ _ _ => Except Errno Nat
  | .kill _ => Unit
  | .waitpid _ => Unit

abbrev calls : Signature := ⟨Call, Call.Answer⟩

abbrev Code := Program calls

def call (c : Call) : Code c.Answer := perform (S := calls) c

/-- A process: the helper of this object, with the descriptors it was started with, or any
other. -/
inductive Process where
  | helper (table : Table)
  | other

/-- The descriptors of the adapter, and the processes that are not reaped. -/
structure World where
  table : Table
  processes : Nat → Option Process

namespace World

variable (w : World)

def set (descriptor : Descriptor) (entry : Option Entry) : World :=
  { w with table := Function.update w.table descriptor entry }

def setProcess (processId : Nat) (process : Option Process) : World :=
  { w with processes := Function.update w.processes processId process }

@[simp] theorem table_set_self (a : Descriptor) (entry : Option Entry) :
    (w.set a entry).table a = entry :=
  Function.update_self _ _ _

theorem table_set_of_ne {a b : Descriptor} (entry : Option Entry) (h : b ≠ a) :
    (w.set a entry).table b = w.table b :=
  Function.update_of_ne h _ _

@[simp] theorem processes_setProcess_self (processId : Nat) (process : Option Process) :
    (w.setProcess processId process).processes processId = process :=
  Function.update_self _ _ _

theorem processes_setProcess_of_ne {processId other : Nat} (process : Option Process)
    (h : other ≠ processId) :
    (w.setProcess processId process).processes other = w.processes other :=
  Function.update_of_ne h _ _

end World

/-- A new descriptor gets a number that is not in use. -/
def servesSocketpair (w : World) : Except Errno (Descriptor × Descriptor) → World → Prop
  | .error _, w' => w' = w
  | .ok (a, b), w' => a ≠ b ∧ w.table a = none ∧ w.table b = none ∧
      w' = (w.set a (some ⟨.parentEnd, true⟩)).set b (some ⟨.helperEnd, true⟩)

/-- `fcntl(descriptor, F_DUPFD_CLOEXEC, least)`. -/
def servesDupFd (descriptor least : Descriptor) (w : World) :
    Except Errno Descriptor → World → Prop
  | .error _, w' => w' = w
  | .ok new, w' => ∃ entry, w.table descriptor = some entry ∧ least ≤ new ∧
      w.table new = none ∧ w' = w.set new (some { entry with closeOnExec := true })

/-- A new process gets a number that is not in use, and a copy of the descriptors. -/
def servesSpawn (actions : List FileAction) (w : World) : Except Errno Nat → World → Prop
  | .error _, w' => w' = w
  | .ok processId, w' => w.processes processId = none ∧
      ∃ table, spawned actions w.table = some table ∧
        w' = w.setProcess processId (some (.helper table))

/-- A helper that is killed keeps its number until it is reaped.  Of a process of someone
else nothing is known then. -/
def servesKill (processId : Nat) (w w' : World) : Prop :=
  match w.processes processId with
  | some .other => w' = w.setProcess processId none
  | _ => w' = w

/-- What a call does. -/
def serves : (c : Call) → World → c.Answer → World → Prop
  | .socketpair, w, answer, w' => servesSocketpair w answer w'
  | .dupFd descriptor least, w, answer, w' => servesDupFd descriptor least w answer w'
  | .close descriptor, w, _, w' => w' = w.set descriptor none
  | .spawn _ actions _, w, answer, w' => servesSpawn actions w answer w'
  | .kill processId, w, _, w' => servesKill processId w w'
  | .waitpid processId, w, _, w' => w' = w.setProcess processId none
  | .readlink, w, _, w' => w' = w
  | .actionsInit, w, _, w' => w' = w
  | .actionsAdd _, w, _, w' => w' = w
  | .actionsDestroy, w, _, w' => w' = w

/-- What other threads do: anything but to what is this object's. -/
def rely (w w' : World) : Prop :=
  (∀ descriptor entry, entry.file.isForeign = false →
    (w'.table descriptor = some entry ↔ w.table descriptor = some entry)) ∧
  ∀ processId table, w'.processes processId = some (.helper table) ↔
    w.processes processId = some (.helper table)

/-- Nothing that is not this object's is touched. -/
def sparesOthers (w w' : World) : Prop :=
  (∀ descriptor entry, w.table descriptor = some entry → entry.file.isForeign = true →
    w'.table descriptor = some entry) ∧
  ∀ processId, w.processes processId = some .other → w'.processes processId = some .other

abbrev adapter : Environment calls World := ⟨serves, rely⟩

/-! ## The functions -/

/-- The descriptor that a helper finds its socket under. -/
def kHelperSocketDescriptor : Descriptor := 198

def kServiceHelperExecutable : String := "xgc_ros1_tools_adapter_service_helper"

def PATH_MAX : Nat := 4096

section Functions

variable (strerror : Errno → String)

def currentExecutableSibling (sibling : String) : Code (Except String String) := do
  match ← call .readlink with
  | .error errno => pure (.error ("cannot resolve /proc/self/exe: " ++ strerror errno))
  | .ok current =>
      if current.utf8ByteSize = PATH_MAX then
        pure (.error "resolved executable path exceeds PATH_MAX")
      else if '/' ∉ current.toList then
        pure (.error "resolved executable has no parent directory")
      else pure (.ok (String.ofList (PosixPath.head current.toList) ++ sibling))

/-- One round of the loop that keeps the sockets off the reserved descriptor. -/
def relocate (socket : Descriptor) : Code (Except Errno Descriptor) := do
  if socket ≠ kHelperSocketDescriptor then pure (.ok socket)
  else
    match ← call (.dupFd socket (kHelperSocketDescriptor + 1)) with
    | .error errno => pure (.error errno)
    | .ok replacement => do
        call (.close socket)
        pure (.ok replacement)

/-- Adds actions up to the first that fails. -/
def addActions : List FileAction → Code (Option Errno)
  | [] => pure none
  | action :: rest => do
      match ← call (.actionsAdd action) with
      | none => addActions rest
      | some errno => pure (some errno)

/-- The new process gets its end of the pair under the reserved descriptor, and neither
end under another. -/
def helperActions (sockets : Descriptor × Descriptor) : List FileAction :=
  [.dup2 sockets.2 kHelperSocketDescriptor, .close sockets.1, .close sockets.2]

/-- The actions are added and the process is started. -/
def spawnWith (path : String) (sockets : Descriptor × Descriptor) :
    Code (Except Errno Nat) := do
  match ← addActions (helperActions sockets) with
  | some errno => pure (.error errno)
  | none => call (.spawn path (helperActions sockets) [path, toString kHelperSocketDescriptor])

/-- From `posix_spawn_file_actions_init` to `posix_spawn_file_actions_destroy`. -/
def spawnHelper (path : String) (sockets : Descriptor × Descriptor) :
    Code (Except Errno Nat) := do
  match ← call .actionsInit with
  | some errno => pure (.error errno)
  | none => do
      let child ← spawnWith path sockets
      call .actionsDestroy
      pure child

/-- `process_id_` and `socket_fd_`. -/
structure Helper where
  processId : Option Nat
  socketFd : Option Descriptor
deriving DecidableEq, Repr

/-- A helper that was not started, or has ended. -/
def Helper.none : Helper := ⟨.none, .none⟩

/-- What is left of `start` once the sockets are where they may be. -/
def startWith (path : String) (sockets : Descriptor × Descriptor) :
    Code (Except String Helper) := do
  let child ← spawnHelper path sockets
  call (.close sockets.2)
  match child with
  | .error errno => do
      call (.close sockets.1)
      pure (.error ("cannot start service helper: " ++ strerror errno))
  | .ok processId => pure (.ok ⟨some processId, some sockets.1⟩)

/-- Both sockets are closed because one could not be moved. -/
def abandon (sockets : Descriptor × Descriptor) (errno : Errno) :
    Code (Except String Helper) := do
  call (.close sockets.1)
  call (.close sockets.2)
  pure (.error ("cannot relocate service helper socket: " ++ strerror errno))

/-- `HelperProcess::start`. -/
def start : Code (Except String Helper) := do
  match ← currentExecutableSibling strerror kServiceHelperExecutable with
  | .error error => pure (.error error)
  | .ok path =>
      match ← call .socketpair with
      | .error errno =>
          pure (.error ("cannot create service helper socket: " ++ strerror errno))
      | .ok sockets =>
          match ← relocate sockets.1 with
          | .error errno => abandon strerror sockets errno
          | .ok first =>
              match ← relocate sockets.2 with
              | .error errno => abandon strerror (first, sockets.2) errno
              | .ok second => startWith strerror path (first, second)

end Functions

/-- `HelperProcess::terminateAndReap`. -/
def terminateAndReap (helper : Helper) : Code Helper := do
  match helper.socketFd with
  | some socket => call (.close socket)
  | none => pure ()
  match helper.processId with
  | some processId => do
      call (.kill processId)
      call (.waitpid processId)
  | none => pure ()
  pure .none

/-- Any number of calls of `terminateAndReap`, the one of the destructor included. -/
def terminateTimes : Nat → Helper → Code Helper
  | 0, helper => pure helper
  | n + 1, helper => do terminateTimes n (← terminateAndReap helper)

/-- The life of a `HelperProcess`: it is started once, and ended `n` times. -/
def lifetime (strerror : Errno → String) (n : Nat) : Code (Except String Helper × Helper) := do
  let started ← start strerror
  let left ← terminateTimes n (started.toOption.getD .none)
  pure (started, left)

/-! ## What is this object's -/

/-- This object has exactly these descriptors and these processes. -/
structure Holds (descriptors : List (Descriptor × Entry)) (helpers : List (Nat × Table))
    (w : World) : Prop where
  own : ∀ descriptor entry, (w.table descriptor = some entry ∧ entry.file.isForeign = false) ↔
    (descriptor, entry) ∈ descriptors
  started : ∀ processId table, w.processes processId = some (.helper table) ↔
    (processId, table) ∈ helpers

variable {ds ds' : List (Descriptor × Entry)} {hs : List (Nat × Table)} {w : World}
  {a b : Descriptor} {entry : Entry} {sockets : Descriptor × Descriptor} {processId : Nat}
  {table : Table}

/-- Other threads leave it alone. -/
theorem stable_holds : adapter.Stable (Holds ds hs) := by
  intro w w' hrely h
  refine ⟨fun descriptor entry => ?_, fun processId table => ?_⟩
  · rw [← h.own]
    constructor
    · rintro ⟨hentry, hown⟩
      exact ⟨(hrely.1 descriptor entry hown).mp hentry, hown⟩
    · rintro ⟨hentry, hown⟩
      exact ⟨(hrely.1 descriptor entry hown).mpr hentry, hown⟩
  · rw [← h.started]
    exact hrely.2 processId table

theorem Holds.congr (h : Holds ds hs w) (hds : ∀ held, held ∈ ds ↔ held ∈ ds') :
    Holds ds' hs w where
  own descriptor entry := (h.own descriptor entry).trans (hds _)
  started := h.started

theorem Holds.swap {x y : Descriptor × Entry} (h : Holds [x, y] hs w) : Holds [y, x] hs w :=
  h.congr fun held => by simp [or_comm]

/-- A held descriptor is open. -/
theorem Holds.table_eq (h : Holds ds hs w) (hmem : (a, entry) ∈ ds) :
    w.table a = some entry ∧ entry.file.isForeign = false :=
  (h.own a entry).mpr hmem

/-- A descriptor that is not in use is not held. -/
theorem Holds.not_mem (h : Holds ds hs w) (hfree : w.table a = none) : (a, entry) ∉ ds := by
  intro hmem
  exact absurd (hfree.symm.trans (h.table_eq hmem).1) (by simp)

theorem Holds.open (h : Holds ds hs w) (hfree : w.table a = none)
    (hown : entry.file.isForeign = false) : Holds ((a, entry) :: ds) hs (w.set a (some entry)) where
  own descriptor found := by
    by_cases hd : descriptor = a
    · subst hd
      rw [World.table_set_self]
      constructor
      · rintro ⟨heq, -⟩
        rw [Option.some.inj heq]
        exact List.mem_cons_self
      · intro hmem
        rcases List.mem_cons.mp hmem with heq | hold
        · obtain rfl := (Prod.mk.inj heq).2
          exact ⟨rfl, hown⟩
        · exact absurd hold (h.not_mem hfree)
    · rw [World.table_set_of_ne _ _ hd, h.own, List.mem_cons, Prod.mk.injEq]
      simp [hd]
  started := h.started

theorem Holds.close (h : Holds ((a, entry) :: ds) hs w) (hfresh : ∀ entry, (a, entry) ∉ ds) :
    Holds ds hs (w.set a none) where
  own descriptor found := by
    by_cases hd : descriptor = a
    · subst hd
      rw [World.table_set_self]
      exact ⟨fun hsome => absurd hsome.1 (by simp), fun hmem => absurd hmem (hfresh found)⟩
    · rw [World.table_set_of_ne _ _ hd, h.own, List.mem_cons, Prod.mk.injEq]
      simp [hd]
  started := h.started

/-! ## Specifications -/

/-- What is shown of a piece of code, whatever other threads do. -/
abbrev Does {α : Type} (code : Code α) (Q : α → World → Prop) (w : World) : Prop :=
  Wp adapter sparesOthers Q code w

theorem sparesOthers_refl (w : World) : sparesOthers w w :=
  ⟨fun _ _ h _ => h, fun _ h => h⟩

/-- Taking a descriptor that is not in use. -/
theorem sparesOthers_open (hfree : w.table a = none) (entry : Entry) :
    sparesOthers w (w.set a (some entry)) := by
  refine ⟨fun descriptor found hfound _ => ?_, fun _ h => h⟩
  refine (World.table_set_of_ne _ _ ?_).trans hfound
  · rintro rfl
    exact absurd (hfree.symm.trans hfound) (by simp)

theorem sparesOthers_close (h : w.table a = some entry) (hown : entry.file.isForeign = false) :
    sparesOthers w (w.set a none) := by
  refine ⟨fun descriptor found hfound hforeign => ?_, fun _ h => h⟩
  refine (World.table_set_of_ne _ _ ?_).trans hfound
  · rintro rfl
    obtain rfl := Option.some.inj (h.symm.trans hfound)
    rw [hown] at hforeign
    exact absurd hforeign (by simp)

/-- A process of this object's own may be started or reaped. -/
theorem sparesOthers_setProcess {process : Option Process}
    (h : w.processes processId ≠ some .other) :
    sparesOthers w (w.setProcess processId process) := by
  refine ⟨fun _ _ h _ => h, fun other hother => ?_⟩
  refine (World.processes_setProcess_of_ne _ _ ?_).trans hother
  rintro rfl
  exact h hother

/-- A call that does nothing. -/
theorem does_quiet {c : Call} {P : World → Prop} (hstable : adapter.Stable P)
    (hquiet : ∀ w answer w', serves c w answer w' → w' = w) (h : P w) :
    Does (call c) (fun _ => P) w := by
  refine Wp.perform hstable h fun w₁ answer w₂ h₁ hserves => ?_
  obtain rfl := hquiet w₁ answer w₂ hserves
  exact ⟨sparesOthers_refl _, h₁⟩

theorem does_close (h : Holds ((a, entry) :: ds) hs w) (hfresh : ∀ entry, (a, entry) ∉ ds) :
    Does (call (.close a)) (fun _ => Holds ds hs) w := by
  refine Wp.perform stable_holds h fun w₁ answer w₂ h₁ hserves => ?_
  obtain rfl : w₂ = w₁.set a none := hserves
  obtain ⟨hentry, hown⟩ := h₁.table_eq List.mem_cons_self
  exact ⟨sparesOthers_close hentry hown, h₁.close hfresh⟩

/-- The two ends of the pair. -/
def parent : Entry := ⟨.parentEnd, true⟩

def child : Entry := ⟨.helperEnd, true⟩

/-- The two sockets, off the reserved descriptor or not. -/
def Sockets (hs : List (Nat × Table)) (sockets : Descriptor × Descriptor) (w : World) : Prop :=
  sockets.1 ≠ sockets.2 ∧ Holds [(sockets.1, parent), (sockets.2, child)] hs w

theorem does_socketpair (h : Holds [] hs w) :
    Does (call .socketpair) (Ends (Holds [] hs) (Sockets hs)) w := by
  refine Wp.perform stable_holds h fun w₁ answer w₂ h₁ hserves => ?_
  cases answer with
  | error errno =>
      obtain rfl : w₂ = w₁ := hserves
      exact ⟨sparesOthers_refl _, h₁⟩
  | ok sockets =>
      obtain ⟨a, b⟩ := sockets
      obtain ⟨hne, ha, hb, rfl⟩ := hserves
      have hb' : (w₁.set a (some parent)).table b = none :=
        (World.table_set_of_ne _ _ hne.symm).trans hb
      refine ⟨⟨fun descriptor found hfound hforeign => ?_, fun _ h => h⟩, hne, ?_⟩
      · exact (sparesOthers_open hb' child).1 descriptor found
          ((sparesOthers_open ha parent).1 descriptor found hfound hforeign) hforeign
      · have hfirst : Holds [(a, parent)] hs (w₁.set a (some parent)) := h₁.open ha rfl
        have hboth : Holds [(b, child), (a, parent)] hs _ := hfirst.open hb' rfl
        exact hboth.swap

/-! ### The reserved descriptor -/

/-- A socket is moved off the reserved descriptor, or stays where it is. -/
theorem does_relocate (h : Holds ((a, entry) :: ds) hs w) (hfresh : ∀ entry, (a, entry) ∉ ds)
    (hexec : entry.closeOnExec = true) : Does (relocate a)
      (Ends (Holds ((a, entry) :: ds) hs) fun new w' => new ≠ kHelperSocketDescriptor ∧
        (∀ entry, (new, entry) ∉ ds) ∧ Holds ((new, entry) :: ds) hs w') w := by
  unfold relocate
  by_cases hreserved : a ≠ kHelperSocketDescriptor
  · rw [if_pos hreserved]
    exact Wp.pure ⟨hreserved, hfresh, h⟩
  rw [if_neg hreserved]
  refine Wp.bind (Q := Ends (Holds ((a, entry) :: ds) hs) fun new w' => new ≠ a ∧
    (∀ entry, (new, entry) ∉ ds) ∧ Holds ((new, entry) :: (a, entry) :: ds) hs w') ?_ ?_
  · refine Wp.perform stable_holds h fun w₁ answer w₂ h₁ hserves => ?_
    cases answer with
    | error errno =>
        obtain rfl : w₂ = w₁ := hserves
        exact ⟨sparesOthers_refl _, h₁⟩
    | ok new =>
        obtain ⟨found, hfound, -, hfree, rfl⟩ := hserves
        obtain ⟨hentry, hown⟩ := h₁.table_eq List.mem_cons_self
        obtain rfl := Option.some.inj (hentry.symm.trans hfound)
        have hsame : { entry with closeOnExec := true } = entry := by rw [← hexec]
        rw [hsame]
        refine ⟨sparesOthers_open hfree entry, ?_, fun other hmem => ?_, h₁.open hfree hown⟩
        · rintro rfl
          exact absurd (hfree.symm.trans hentry) (by simp)
        · exact h₁.not_mem hfree (List.mem_cons_of_mem _ hmem)
  · intro answer w₁ h₁
    cases answer with
    | error errno => exact Wp.pure h₁
    | ok new =>
        obtain ⟨hne, hfresh', h₁⟩ := h₁
        have hswapped : Holds ((a, entry) :: (new, entry) :: ds) hs w₁ :=
          h₁.congr fun held => by simp [or_left_comm]
        refine Wp.bind (does_close hswapped fun other hmem => ?_) fun _ w₂ h₂ => ?_
        · rcases List.mem_cons.mp hmem with heq | hmem
          · exact hne (Prod.mk.inj heq).1.symm
          · exact hfresh other hmem
        · refine Wp.pure ⟨fun hnew => ?_, hfresh', h₂⟩
          rw [hnew, not_not.mp hreserved] at hne
          exact hne rfl

/-! ### The new process -/

/-- The descriptors of a helper: its end of the pair under the reserved number, and what the
adapter lets every process have. -/
structure Isolated (table : Table) : Prop where
  socket : table kHelperSocketDescriptor = some ⟨.helperEnd, false⟩
  inherited : ∀ descriptor entry, table descriptor = some entry →
    descriptor = kHelperSocketDescriptor ∨
      entry.file.isForeign = true ∧ entry.closeOnExec = false

theorem exec_eq_some (h : exec table a = some entry) :
    table a = some entry ∧ entry.closeOnExec = false := by
  unfold exec at h
  obtain ⟨hentry, hexec⟩ := Option.filter_eq_some_iff.mp h
  exact ⟨hentry, by simpa using hexec⟩

/-- **The helper has its own end of the pair only**, if the sockets are off the reserved
descriptor. -/
theorem isolated_of_spawned
    (h : Sockets hs sockets w) (hfirst : sockets.1 ≠ kHelperSocketDescriptor)
    (hsecond : sockets.2 ≠ kHelperSocketDescriptor)
    (hspawned : spawned (helperActions sockets) w.table = some table) : Isolated table := by
  obtain ⟨a, b⟩ := sockets
  obtain ⟨hne, hholds⟩ := h
  have hb : w.table b = some child := (hholds.table_eq (by simp)).1
  simp only [spawned, helperActions, List.foldlM_cons, List.foldlM_nil, FileAction.apply, hb,
    Option.map_some, Option.bind_eq_bind, Option.bind_some, Option.pure_def,
    Option.some.injEq] at hspawned
  subst hspawned
  refine ⟨?_, fun descriptor found hfound => ?_⟩
  · simp only [exec]
    rw [Function.update_of_ne (Ne.symm hsecond), Function.update_of_ne (Ne.symm hfirst),
      Function.update_self]
    rfl
  · obtain ⟨hentry, hexec⟩ := exec_eq_some hfound
    by_cases hreserved : descriptor = kHelperSocketDescriptor
    · exact .inl hreserved
    by_cases hsecond' : descriptor = b
    · subst hsecond'
      rw [Function.update_self] at hentry
      exact absurd hentry (by simp)
    rw [Function.update_of_ne hsecond'] at hentry
    by_cases hfirst' : descriptor = a
    · subst hfirst'
      rw [Function.update_self] at hentry
      exact absurd hentry (by simp)
    rw [Function.update_of_ne hfirst', Function.update_of_ne hreserved] at hentry
    refine .inr ⟨?_, hexec⟩
    by_contra hown
    have hmem := (hholds.own descriptor found).mp ⟨hentry, Bool.eq_false_iff.mpr hown⟩
    simp [hfirst', hsecond'] at hmem

/-- Where the sockets are, and that they are off the reserved descriptor. -/
structure Placed (hs : List (Nat × Table)) (sockets : Descriptor × Descriptor) (w : World) :
    Prop where
  held : Sockets hs sockets w
  first : sockets.1 ≠ kHelperSocketDescriptor
  second : sockets.2 ≠ kHelperSocketDescriptor

theorem stable_placed : adapter.Stable (Placed hs sockets) :=
  fun w w' hrely h => ⟨⟨h.held.1, stable_holds w w' hrely h.held.2⟩, h.first, h.second⟩

theorem does_addActions (actions : List FileAction)
    (h : Placed hs sockets w) : Does (addActions actions) (fun _ => Placed hs sockets) w := by
  induction actions generalizing w with
  | nil => exact Wp.pure h
  | cons action rest ih =>
      refine Wp.bind (does_quiet stable_placed (fun _ _ _ hserves => hserves) h)
        fun answer w₁ h₁ => ?_
      cases answer with
      | none => exact ih h₁
      | some errno => exact Wp.pure h₁

/-- What became of an attempt to start a process: none, or an isolated one. -/
abbrev Spawned (sockets : Descriptor × Descriptor) : Except Errno Nat → World → Prop :=
  Ends (Placed [] sockets) fun processId w =>
    ∃ table, Isolated table ∧ Placed [(processId, table)] sockets w

theorem Holds.start (h : Holds ds [] w) :
    Holds ds [(processId, table)] (w.setProcess processId (some (.helper table))) := by
  refine ⟨h.own, fun other found => ?_⟩
  by_cases hother : other = processId
  · subst hother
    rw [World.processes_setProcess_self]
    simp [eq_comm]
  · rw [World.processes_setProcess_of_ne _ _ hother, h.started]
    simp [hother]

theorem does_spawnWith (path : String)
    (h : Placed [] sockets w) : Does (spawnWith path sockets) (Spawned sockets) w := by
  refine Wp.bind (does_addActions _ h) fun answer w₁ h₁ => ?_
  cases answer with
  | some errno => exact Wp.pure h₁
  | none =>
      refine Wp.perform stable_placed h₁ fun w₂ answer w₃ h₂ hserves => ?_
      cases answer with
      | error errno =>
          obtain rfl : w₃ = w₂ := hserves
          exact ⟨sparesOthers_refl _, h₂⟩
      | ok processId =>
          obtain ⟨hfree, table, hspawned, rfl⟩ := hserves
          exact ⟨sparesOthers_setProcess (by rw [hfree]; simp), table,
            isolated_of_spawned h₂.held h₂.first h₂.second hspawned,
            ⟨h₂.held.1, h₂.held.2.start⟩, h₂.first, h₂.second⟩

theorem does_spawnHelper (path : String)
    (h : Placed [] sockets w) : Does (spawnHelper path sockets) (Spawned sockets) w := by
  refine Wp.bind (does_quiet stable_placed (fun _ _ _ hserves => hserves) h)
    fun answer w₁ h₁ => ?_
  cases answer with
  | some errno => exact Wp.pure h₁
  | none =>
      -- Whether a process was started or not, the actions are done with.
      refine Wp.bind (does_spawnWith path h₁) fun started w₂ h₂ => ?_
      cases started with
      | error errno =>
          exact Wp.bind (does_quiet stable_placed (fun _ _ _ hserves => hserves) h₂)
            fun _ w₃ h₃ => Wp.pure h₃
      | ok processId =>
          obtain ⟨table, hisolated, h₂⟩ := h₂
          exact Wp.bind (does_quiet stable_placed (fun _ _ _ hserves => hserves) h₂)
            fun _ w₃ h₃ => Wp.pure ⟨table, hisolated, h₃⟩

/-! ### The object -/

/-- One socket and one process, which has been given nothing else of the adapter's. -/
def Helper.Runs (helper : Helper) (w : World) : Prop :=
  ∃ processId socket table, helper = ⟨some processId, some socket⟩ ∧ Isolated table ∧
    Holds [(socket, parent)] [(processId, table)] w

/-- What a `HelperProcess` has: nothing, or a running helper. -/
def Helper.Has (helper : Helper) (w : World) : Prop :=
  helper = .none ∧ Holds [] [] w ∨ helper.Runs w

/-- What `start` comes to. -/
abbrev Started : Except String Helper → World → Prop := Ends (Holds [] []) Helper.Runs

theorem has_of_started {started : Except String Helper} (h : Started started w) :
    (started.toOption.getD .none).Has w := by
  cases started with
  | error error => exact .inl ⟨rfl, h⟩
  | ok helper => exact .inr h

theorem not_mem_singleton_of_ne (h : a ≠ b) (other : Entry) : (a, other) ∉ [(b, entry)] := by
  intro hmem
  exact h (Prod.mk.inj (List.mem_singleton.mp hmem)).1

/-- Closing the first of the two sockets when it is the last one left. -/
theorem does_close_only (h : Holds [(a, entry)] hs w) :
    Does (call (.close a)) (fun _ => Holds [] hs) w :=
  does_close h fun _ => List.not_mem_nil

theorem does_startWith (strerror : Errno → String)
    (path : String) (h : Placed [] sockets w) :
    Does (startWith strerror path sockets) Started w := by
  obtain ⟨a, b⟩ := sockets
  have hne : b ≠ a := h.held.1.symm
  refine Wp.bind (does_spawnHelper path h) fun started w₁ h₁ => ?_
  cases started with
  | error errno =>
      refine Wp.bind (does_close h₁.held.2.swap (not_mem_singleton_of_ne hne)) fun _ w₂ h₂ => ?_
      exact Wp.bind (does_close_only h₂) fun _ w₃ h₃ => Wp.pure h₃
  | ok processId =>
      obtain ⟨table, hisolated, h₁⟩ := h₁
      refine Wp.bind (does_close h₁.held.2.swap (not_mem_singleton_of_ne hne)) fun _ w₂ h₂ => ?_
      exact Wp.pure ⟨processId, a, table, rfl, hisolated, h₂⟩

theorem does_abandon (strerror : Errno → String)
    (errno : Errno) (h : Sockets [] sockets w) :
    Does (abandon strerror sockets errno) Started w := by
  refine Wp.bind (does_close h.2 (not_mem_singleton_of_ne h.1)) fun _ w₁ h₁ => ?_
  exact Wp.bind (does_close_only h₁) fun _ w₂ h₂ => Wp.pure h₂

theorem does_currentExecutableSibling (strerror : Errno → String) (sibling : String)
    (h : Holds ds hs w) :
    Does (currentExecutableSibling strerror sibling) (fun _ => Holds ds hs) w := by
  refine Wp.bind (does_quiet stable_holds (fun _ _ _ hserves => hserves) h) fun answer w₁ h₁ => ?_
  cases answer with
  | error errno => exact Wp.pure h₁
  | ok current =>
      dsimp only
      split
      · exact Wp.pure h₁
      · split <;> exact Wp.pure h₁

/-- **Starting a helper** ends with one socket and one process, or with nothing. -/
theorem does_start (strerror : Errno → String) (h : Holds [] [] w) :
    Does (start strerror) Started w := by
  refine Wp.bind (does_currentExecutableSibling strerror _ h) fun path w₁ h₁ => ?_
  cases path with
  | error error => exact Wp.pure h₁
  | ok path =>
  refine Wp.bind (does_socketpair h₁) fun answer w₂ h₂ => ?_
  cases answer with
  | error errno => exact Wp.pure h₂
  | ok sockets =>
  obtain ⟨a, b⟩ := sockets
  obtain ⟨hne, h₂⟩ := h₂
  refine Wp.bind (does_relocate h₂ (not_mem_singleton_of_ne hne) rfl) fun answer w₃ h₃ => ?_
  cases answer with
  | error errno => exact does_abandon strerror errno ⟨hne, h₃⟩
  | ok first =>
  obtain ⟨hfirst, hfresh, h₃⟩ := h₃
  have hne' : b ≠ first := by
    rintro rfl
    exact hfresh child (List.mem_singleton.mpr rfl)
  refine Wp.bind (does_relocate h₃.swap (not_mem_singleton_of_ne hne') rfl) fun answer w₄ h₄ => ?_
  cases answer with
  | error errno => exact does_abandon strerror errno ⟨hne'.symm, h₄.swap⟩
  | ok second =>
  obtain ⟨hsecond, hfresh', h₄⟩ := h₄
  have hne'' : first ≠ second := by
    rintro rfl
    exact hfresh' parent (List.mem_singleton.mpr rfl)
  exact does_startWith strerror path ⟨⟨hne'', h₄.swap⟩, hfirst, hsecond⟩

/-- A helper of this object is not taken for someone else's. -/
theorem Holds.reap (h : Holds ds [(processId, table)] w) :
    w.processes processId ≠ some .other ∧ Holds ds [] (w.setProcess processId none) := by
  have hhelper : w.processes processId = some (.helper table) :=
    (h.started processId table).mpr (List.mem_singleton.mpr rfl)
  refine ⟨by rw [hhelper]; simp, h.own, fun other found => ?_⟩
  by_cases hother : other = processId
  · subst hother
    rw [World.processes_setProcess_self]
    simp
  · rw [World.processes_setProcess_of_ne _ _ hother, h.started]
    simp [hother]

/-- The helper is still there to be killed, since only this object reaps it. -/
theorem does_kill (h : Holds ds [(processId, table)] w) :
    Does (call (.kill processId)) (fun _ => Holds ds [(processId, table)]) w := by
  refine Wp.perform stable_holds h fun w₁ answer w₂ h₁ hserves => ?_
  have hhelper : w₁.processes processId = some (.helper table) :=
    (h₁.started processId table).mpr (List.mem_singleton.mpr rfl)
  obtain rfl : w₂ = w₁ := by simpa only [serves, servesKill, hhelper] using hserves
  exact ⟨sparesOthers_refl _, h₁⟩

theorem does_waitpid (h : Holds ds [(processId, table)] w) :
    Does (call (.waitpid processId)) (fun _ => Holds ds []) w := by
  refine Wp.perform stable_holds h fun w₁ answer w₂ h₁ hserves => ?_
  obtain rfl : w₂ = w₁.setProcess processId none := hserves
  exact ⟨sparesOthers_setProcess h₁.reap.1, h₁.reap.2⟩

/-- **Ending a helper** leaves nothing, and does so only once. -/
theorem does_terminateAndReap {helper : Helper} (h : helper.Has w) :
    Does (terminateAndReap helper) (fun left w' => left = .none ∧ Holds [] [] w') w := by
  rcases h with ⟨rfl, h⟩ | ⟨processId, socket, table, rfl, -, h⟩
  · exact Wp.pure ⟨rfl, h⟩
  · refine Wp.bind (does_close_only h) fun _ w₁ h₁ => ?_
    refine Wp.bind (does_kill h₁) fun _ w₂ h₂ => ?_
    exact Wp.bind (does_waitpid h₂) fun _ w₃ h₃ => Wp.pure ⟨rfl, h₃⟩

theorem Helper.Has.eq_none {helper : Helper} (h : helper.Has w) (hnone : helper = .none) :
    Holds [] [] w := by
  rcases h with ⟨-, h⟩ | ⟨processId, socket, table, heq, -, -⟩
  · exact h
  · cases heq.symm.trans hnone

theorem does_terminateTimes (n : Nat) {helper : Helper} (h : helper.Has w) :
    Does (terminateTimes n helper)
      (fun left w' => left.Has w' ∧ (0 < n ∨ helper = .none → left = .none)) w := by
  induction n generalizing helper w with
  | zero => exact Wp.pure ⟨h, fun hnone => hnone.resolve_left (Nat.lt_irrefl 0)⟩
  | succ n ih =>
      refine Wp.bind (does_terminateAndReap h) ?_
      rintro left w₁ ⟨rfl, h₁⟩
      have hleft : Helper.none.Has w₁ := .inl ⟨rfl, h₁⟩
      exact (ih hleft).mono fun left w₂ h₂ => ⟨h₂.1, fun _ => h₂.2 (.inr rfl)⟩

/-- **The life of a helper object**: what `start` came to, and what is left. -/
theorem does_lifetime (strerror : Errno → String) (n : Nat) (h : Holds [] [] w) :
    Does (lifetime strerror n) (fun outcome w' => outcome.2.Has w' ∧
      (0 < n → outcome.2 = .none)) w := by
  refine Wp.bind (does_start strerror h) fun started w₁ h₁ => ?_
  refine Wp.bind (does_terminateTimes n (has_of_started h₁)) fun left w₂ h₂ => ?_
  exact Wp.pure ⟨h₂.1, fun hpos => h₂.2 (.inl hpos)⟩

/-! ## Whole runs -/

section Runs

variable (strerror : Errno → String)

/-- Nothing happens between two calls. -/
theorem rely_refl (w : World) : adapter.rely w w :=
  ⟨fun _ _ _ => Iff.rfl, fun _ _ => Iff.rfl⟩

/-- An adapter with its three standard descriptors, and a file that children inherit and a process
of other threads'. -/
def quietWorld : World where
  table descriptor :=
    if descriptor < 3 ∨ descriptor = 5 then some ⟨.foreign descriptor, false⟩ else none
  processes processId := if processId = 6 then some .other else none

theorem holds_quietWorld : Holds [] [] quietWorld := by
  refine ⟨fun descriptor entry => ?_, fun processId table => ?_⟩
  · refine ⟨fun h => ?_, fun h => absurd h List.not_mem_nil⟩
    obtain ⟨hentry, hown⟩ := h
    unfold quietWorld at hentry
    dsimp only at hentry
    split at hentry
    · rw [← Option.some.inj hentry] at hown
      exact absurd hown (by simp [File.isForeign])
    · exact absurd hentry (by simp)
  · refine ⟨fun h => ?_, fun h => absurd h List.not_mem_nil⟩
    unfold quietWorld at h
    dsimp only at h
    split at h
    · exact absurd (Option.some.inj h) (by simp)
    · exact absurd h (by simp)

/-- The descriptors of the helper that is started there. -/
def quietTable : Table := exec (Function.update (Function.update (Function.update
  ((quietWorld.set 3 (some parent)).set 4 (some child)).table 198 (some ⟨.helperEnd, false⟩))
    3 none) 4 none)

/-- The world once it is started, as process 7. -/
def startedWorld : World :=
  (((quietWorld.set 3 (some parent)).set 4 (some child)).setProcess 7
    (some (.helper quietTable))).set 4 none

theorem runs_call (c : Call) (answer : c.Answer) {w w' : World} (h : serves c w answer w') :
    Runs adapter (call c) w answer w' :=
  .call (rely_refl w) h .ret

theorem runs_sibling (w : World) :
    Runs adapter (currentExecutableSibling strerror kServiceHelperExecutable) w
      (.ok ("/opt/" ++ kServiceHelperExecutable)) w := by
  refine (runs_call .readlink (.ok "/opt/adapter") rfl).bind ?_
  dsimp only
  rw [if_neg (by decide), if_neg (by decide)]
  exact .ret

theorem runs_addActions (actions : List FileAction) (w : World) :
    Runs adapter (addActions actions) w none w := by
  induction actions with
  | nil => exact .ret
  | cons action rest ih => exact (runs_call (.actionsAdd action) none rfl).bind ih

theorem runs_start_quietWorld :
    Runs adapter (start strerror) quietWorld (.ok ⟨some 7, some 3⟩) startedWorld := by
  refine (runs_sibling strerror quietWorld).bind ?_
  refine (runs_call .socketpair (.ok (3, 4)) ⟨by decide, rfl, rfl, rfl⟩).bind ?_
  refine Runs.bind (a := .ok 3) .ret ?_
  refine Runs.bind (a := .ok 4) .ret ?_
  refine Runs.bind (a := .ok 7) ?_ ((runs_call (.close 4) () rfl).bind .ret)
  refine (runs_call .actionsInit none rfl).bind ?_
  refine Runs.bind (a := .ok 7) ?_ ((runs_call .actionsDestroy () rfl).bind .ret)
  refine (runs_addActions (helperActions (3, 4)) _).bind ?_
  exact runs_call (.spawn _ _ _) (.ok 7) ⟨rfl, quietTable, rfl, rfl⟩

/-- **Nobody else is hit.**  Whatever other threads do in between, however often the object
is ended and whichever calls fail, no call of it closes a descriptor or signals or reaps a
process that is not its own. -/
theorem lifetime_spares_others (n : Nat) {w t t' : World} (h : Holds [] [] w)
    (hdoes : Program.Does adapter (lifetime strerror n) w t t') : sparesOthers t t' :=
  (does_lifetime strerror n h).does hdoes

/-- Another thread is given the number of the helper's socket as soon as `start` has closed
it. -/
theorem rely_startedWorld :
    adapter.rely startedWorld (startedWorld.set 4 (some ⟨.foreign 9, false⟩)) := by
  refine ⟨fun descriptor entry hown => ?_, fun _ _ => Iff.rfl⟩
  by_cases hdescriptor : descriptor = 4
  · subst hdescriptor
    rw [World.table_set_self]
    refine ⟨fun h => ?_, fun h => absurd h (by simp [startedWorld])⟩
    rw [← Option.some.inj h] at hown
    exact absurd hown (by simp [File.isForeign])
  · rw [World.table_set_of_ne _ _ hdescriptor]

theorem lifetime_spares_others_reused :
    ((startedWorld.set 4 (some ⟨.foreign 9, false⟩)).set 3 none).table 4 =
      some ⟨.foreign 9, false⟩ := by
  have hdoes : Program.Does adapter (lifetime (fun _ => "error") 1) quietWorld
      (startedWorld.set 4 (some ⟨.foreign 9, false⟩))
      ((startedWorld.set 4 (some ⟨.foreign 9, false⟩)).set 3 none) :=
    .bind (runs_start_quietWorld _) (.here (r := ()) rely_startedWorld rfl)
  exact (lifetime_spares_others (fun _ => "error") 1 holds_quietWorld hdoes).1 4
    ⟨.foreign 9, false⟩ (World.table_set_self _ _ _) rfl

/-- **A start is all or nothing.**  If it fails, the object has no descriptor and no process;
if not, it has one of each, and the process has its own end of the socket pair under the
reserved descriptor and nothing else of the object's. -/
theorem start_all_or_nothing {w w' : World} {started : Except String Helper}
    (h : Holds [] [] w) (hruns : Runs adapter (start strerror) w started w') :
    (∃ error, started = .error error ∧ Holds [] [] w') ∨
      ∃ processId socket table, started = .ok ⟨some processId, some socket⟩ ∧
        Isolated table ∧ Holds [(socket, parent)] [(processId, table)] w' := by
  have hstarted := (does_start strerror h).runs hruns
  cases started with
  | error error => exact .inl ⟨error, rfl, hstarted⟩
  | ok helper =>
      obtain ⟨processId, socket, table, rfl, hrunning⟩ := hstarted
      exact .inr ⟨processId, socket, table, rfl, hrunning⟩

theorem start_all_or_nothing_quietWorld :
    ∃ table, Isolated table ∧ Holds [(3, parent)] [(7, table)] startedWorld := by
  have hruns := runs_start_quietWorld (fun _ => "error")
  rcases start_all_or_nothing (fun _ => "error") holds_quietWorld hruns with
    ⟨error, heq, -⟩ | ⟨processId, socket, table, heq, hisolated, hholds⟩
  · exact absurd heq (by simp)
  · obtain ⟨rfl, rfl⟩ : processId = 7 ∧ socket = 3 := by simpa [eq_comm] using heq
    exact ⟨table, hisolated, hholds⟩

/-- **Nothing is left behind** once a helper object has been ended, be it by its destructor
only. -/
theorem lifetime_releases (n : Nat) {w w' : World} {started : Except String Helper}
    {left : Helper} (hn : 0 < n) (h : Holds [] [] w)
    (hruns : Runs adapter (lifetime strerror n) w (started, left) w') :
    left = .none ∧ Holds [] [] w' := by
  obtain ⟨hhas, hnone⟩ := (does_lifetime strerror n h).runs hruns
  exact ⟨hnone hn, hhas.eq_none (hnone hn)⟩

theorem runs_lifetime_quietWorld :
    Runs adapter (lifetime strerror 1) quietWorld (.ok ⟨some 7, some 3⟩, .none)
      ((startedWorld.set 3 none).setProcess 7 none) := by
  refine (runs_start_quietWorld strerror).bind ?_
  refine Runs.bind (a := .none) ?_ .ret
  refine Runs.bind (a := .none) ?_ .ret
  refine (runs_call (.close 3) () rfl).bind ?_
  have hkill : serves (.kill 7) (startedWorld.set 3 none) () (startedWorld.set 3 none) := rfl
  refine (runs_call (.kill 7) () hkill).bind ?_
  exact (runs_call (.waitpid 7) () rfl).bind .ret

theorem lifetime_releases_quietWorld :
    Holds [] [] ((startedWorld.set 3 none).setProcess 7 none) :=
  (lifetime_releases (fun _ => "error") 1 Nat.one_pos holds_quietWorld
    (runs_lifetime_quietWorld _)).2

end Runs

end Ros1Tools.Service.Spawn
