import Mathlib.Data.List.Perm.Basic
import Ros1Tools.Lib.Decimal
import Ros1Tools.Service.Spawn

/-!
# What a helper does first

`main` of the service helper up to `ros::init`.  A helper must not outlive the adapter that
started it, since nobody would end it then, and it must not keep descriptors open that
other threads of the adapter had open when it was started.

The first is the *fence*: the helper asks the kernel to be killed when its parent dies,
and then looks whether its parent is still the process that made the socket pair.  Looking
before would not do, since the parent may die at any moment, and looking for a parent that
has become process 1 would not do either, since an orphan may go to another process.

The second is a sweep over `/proc/self/fd` that closes what it lists.  All that is asked of the
listing is that it names nothing twice, in whatever order, and ends only when it has named
what is open, though descriptors are closed while it goes on.
-/

namespace Ros1Tools.Service.HelperMain

open Lib Lib.Program
open Service.Spawn (Descriptor Entry File Table)

/-! ## Descriptors in decimal -/

def INT_MAX : Nat := 2147483647

def LONG_MAX : Int := 9223372036854775807

/-- `isspace`. -/
def isSpace (c : Char) : Bool := c == ' ' || (decide ('\t' ≤ c) && decide (c ≤ '\r'))

/-- The sign, the digits behind it and what `end` points at. -/
def signed : List Char → Option (Int × List Char)
  | '-' :: cs => (scanDigits cs).map fun number => (-(number.1 : Int), cs.drop number.2)
  | '+' :: cs => (scanDigits cs).map fun number => ((number.1 : Int), cs.drop number.2)
  | cs => (scanDigits cs).map fun number => ((number.1 : Int), cs.drop number.2)

/-- `strtol` with base ten; `none` if nothing is converted or `errno` is set. -/
def strtol (text : List Char) : Option (Int × List Char) :=
  (signed (text.dropWhile isSpace)).filter fun parsed =>
    decide (-LONG_MAX - 1 ≤ parsed.1 ∧ parsed.1 ≤ LONG_MAX)

/-- `parseFileDescriptor`, and what is asked of the name of a directory entry. -/
def parseFileDescriptor (value : String) : Option Descriptor :=
  match strtol value.toList with
  | some (parsed, []) => if 0 ≤ parsed ∧ parsed ≤ INT_MAX then some parsed.toNat else none
  | _ => none

theorem isSpace_of_isDigit {c : Char} (h : c.isDigit = true) : isSpace c = false := by
  simp only [Char.isDigit, Bool.and_eq_true, decide_eq_true_eq, ge_iff_le] at h
  have hspace : c ≠ ' ' := by
    rintro rfl
    exact absurd h.1 (by decide)
  have hlt : ¬c ≤ '\r' := fun hle => absurd (Nat.le_trans (UInt32.le_iff_toNat_le.mp h.1)
    (UInt32.le_iff_toNat_le.mp hle)) (by decide)
  simp [isSpace, hspace, hlt]

theorem signed_toDigits (n : Nat) : signed (Nat.toDigits 10 n) = some ((n : Int), []) := by
  have hdigits := (isNumeral_toDigits n).digits
  have hscan := scanDigits_toDigits n
  generalize Nat.toDigits 10 n = cs at hdigits hscan
  unfold signed
  split
  · exact absurd (hdigits '-' List.mem_cons_self) (by decide)
  · exact absurd (hdigits '+' List.mem_cons_self) (by decide)
  · rw [hscan, Option.map_some, List.drop_length]

/-- **A descriptor is read back** from its decimal text. -/
theorem parseFileDescriptor_toString {n : Nat} (h : n ≤ INT_MAX) :
    parseFileDescriptor (toString n) = some n := by
  have hspace : (Nat.toDigits 10 n).dropWhile isSpace = Nat.toDigits 10 n := by
    cases hdigits : Nat.toDigits 10 n with
    | nil => rfl
    | cons c cs =>
        have hc : c.isDigit = true :=
          (isNumeral_toDigits n).digits c (by rw [hdigits]; exact List.mem_cons_self)
        rw [List.dropWhile_cons, isSpace_of_isDigit hc]
        rfl
  have hrange : decide (-LONG_MAX - 1 ≤ (n : Int) ∧ (n : Int) ≤ LONG_MAX) = true := by
    have : (INT_MAX : Int) ≤ LONG_MAX := by decide
    have : -LONG_MAX - 1 ≤ 0 := by decide
    exact decide_eq_true (by omega)
  have hstrtol : strtol (toString n).toList = some ((n : Int), []) := by
    rw [Nat.toString_eq_ofList_toDigits, String.toList_ofList, strtol, hspace, signed_toDigits,
      Option.filter_some, if_pos hrange]
  unfold parseFileDescriptor
  rw [hstrtol]
  dsimp only
  rw [if_pos ⟨Int.natCast_nonneg n, Int.ofNat_le.mpr h⟩, Int.toNat_natCast]

/-! ## System calls -/

/-- What `readdir` returns: a name, the end, or the end with `errno` set. -/
inductive Dirent where
  | entry (name : String)
  | done
  | failed
deriving DecidableEq, Repr

inductive Call where
  | socketType (descriptor : Descriptor)
  | peerCredentials (descriptor : Descriptor)
  | getppid
  | setDeathSignal
  | opendir
  | dirfd
  | readdir
  | close (descriptor : Descriptor)
  | closedir
  | work (step : Nat)

/-- The answers; those of `getsockopt` with the size it returns.  `work` is anything that a
helper does once it has been let in. -/
abbrev Call.Answer : Call → Type
  | .socketType _ => Option (Nat × Nat)
  | .peerCredentials _ => Option (Nat × Nat)
  | .getppid => Nat
  | .setDeathSignal => Bool
  | .opendir => Bool
  | .dirfd => Option Descriptor
  | .readdir => Dirent
  | .close _ => Unit
  | .closedir => Bool
  | .work _ => Nat

abbrev calls : Signature := ⟨Call, Call.Answer⟩

abbrev Code := Program calls

def call (c : Call) : Code c.Answer := perform (S := calls) c

/-- A `DIR` on `/proc/self/fd`, and the names it has returned, the last one first. -/
structure Stream where
  descriptor : Descriptor
  returned : List String
deriving DecidableEq, Repr

structure Files where
  table : Table
  stream : Option Stream

/-- The process that made the socket pair, the parent, and what becomes of the helper. -/
structure Family where
  creator : Nat
  parentId : Nat
  alive : Bool
  armed : Bool
  killed : Bool
deriving DecidableEq, Repr

structure World where
  files : Files
  family : Family

/-- How many descriptors there can be, and whether calls fail and anything befalls a helper. -/
structure Kernel where
  limit : Nat
  limit_le : limit ≤ INT_MAX + 1
  mayFail : Bool

/-- What can be listed. -/
def listable (limit : Nat) : List String := "." :: ".." :: (List.range limit).map toString

/-- The answer is yes, unless something may fail. -/
abbrev Kernel.Grants (K : Kernel) (answer : Bool) : Prop := answer = true ∨ K.mayFail = true

def SOCK_STREAM : Nat := 1

def isHelperEnd (table : Table) (descriptor : Descriptor) : Prop :=
  ∃ entry, table descriptor = some entry ∧ entry.file = .helperEnd

section Kernel

variable (K : Kernel)

/-- What a call does to a helper that has not been killed. -/
def servesAlive : (c : Call) → World → c.Answer → World → Prop
  | .socketType descriptor, w, answer, w' => w' = w ∧
      (isHelperEnd w.files.table descriptor →
        answer = some (SOCK_STREAM, 4) ∨ K.mayFail = true ∧ answer = none)
  | .peerCredentials descriptor, w, answer, w' => w' = w ∧
      (isHelperEnd w.files.table descriptor →
        answer = some (w.family.creator, 12) ∨ K.mayFail = true ∧ answer = none)
  | .getppid, w, answer, w' => w' = w ∧ answer = w.family.parentId
  | .setDeathSignal, w, true, w' => w' = { w with family := { w.family with armed := true } }
  | .setDeathSignal, w, false, w' => K.mayFail = true ∧ w' = w
  | .opendir, w, true, w' => ∃ descriptor, descriptor < K.limit ∧
      w.files.table descriptor = none ∧ w' = { w with files := {
        table := Function.update w.files.table descriptor (some ⟨.foreign 0, true⟩)
        stream := some ⟨descriptor, []⟩ } }
  | .opendir, w, false, w' => K.mayFail = true ∧ w' = w
  | .dirfd, w, some descriptor, w' => w' = w ∧
      ∃ stream, w.files.stream = some stream ∧ stream.descriptor = descriptor
  | .dirfd, w, none, w' => w' = w ∧ K.mayFail = true
  | .readdir, w, .entry name, w' => ∃ stream, w.files.stream = some stream ∧
      name ∉ stream.returned ∧ name ∈ listable K.limit ∧ w' = { w with files := { w.files with
        stream := some { stream with returned := name :: stream.returned } } }
  | .readdir, w, .done, w' => w' = w ∧ ∃ stream, w.files.stream = some stream ∧
      ∀ descriptor : Nat, w.files.table descriptor ≠ none → toString descriptor ∈ stream.returned
  | .readdir, w, .failed, w' => w' = w ∧ K.mayFail = true
  | .close descriptor, w, _, w' => w' = { w with files := { w.files with
      table := Function.update w.files.table descriptor none } }
  | .closedir, w, closed, w' => K.Grants closed ∧ ∃ stream, w.files.stream = some stream ∧
      w' = { w with files := ⟨Function.update w.files.table stream.descriptor none, none⟩ }
  | .work _, w, _, w' => w'.family = w.family

/-- A helper that has been killed makes no more calls. -/
def serves (c : Call) (w : World) (answer : c.Answer) (w' : World) : Prop :=
  w.family.killed = false ∧ servesAlive K c w answer w'

/-- What can happen to a helper between two calls: its creator dies, which kills it if it is
armed, or someone else kills it.  An orphan gets another parent. -/
inductive befalls (family : Family) : Family → Prop
  | nothing : befalls family family
  | orphaned (parentId : Nat) (hmay : K.mayFail = true) (hother : parentId ≠ family.creator) :
      befalls family { family with
        parentId := parentId
        alive := false
        killed := family.killed || family.armed }
  | killed (hmay : K.mayFail = true) : befalls family { family with killed := true }

def rely (w w' : World) : Prop :=
  w'.files = w.files ∧ befalls K w.family w'.family

abbrev kernel : Environment calls World := ⟨serves K, rely K⟩

end Kernel

/-! ## The functions -/

def kHelperUsageExit : Nat := 64

def kHelperLifecycleExit : Nat := 70

def validHelperSocket (descriptor : Descriptor) : Code Bool := do
  if descriptor ≤ 2 then pure false
  else
    match ← call (.socketType descriptor) with
    | none => pure false
    | some (socketType, size) => pure (size == 4 && socketType == SOCK_STREAM)

/-- `installParentDeathFence` once the peer is known. -/
def armAndRecheck (peer : Nat) : Code Bool := do
  match ← call .setDeathSignal with
  | false => pure false
  | true => do
      let parentId ← call .getppid
      pure (parentId == peer)

def installParentDeathFence (helperSocket : Descriptor) : Code Bool := do
  match ← call (.peerCredentials helperSocket) with
  | none => pure false
  | some (peer, size) =>
      if size ≠ 12 ∨ peer ≤ 1 then pure false
      else do
        let parentId ← call .getppid
        if parentId ≠ peer then pure false else armAndRecheck peer

/-- Standard descriptors and the socket are kept. -/
def isKept (helperSocket descriptor : Nat) : Bool :=
  descriptor == 0 || descriptor == 1 || descriptor == 2 || descriptor == helperSocket

/-- The loop over the listing; `none` if `fuel` names did not reach its end. -/
def closeListed (helperSocket directoryFd : Descriptor) : Nat → Code (Option Bool)
  | 0 => pure none
  | fuel + 1 => do
      match ← call .readdir with
      | .done => pure (some true)
      | .failed => pure (some false)
      | .entry name =>
          match parseFileDescriptor name with
          | none => closeListed helperSocket directoryFd fuel
          | some descriptor =>
              if isKept helperSocket descriptor ∨ descriptor = directoryFd then
                closeListed helperSocket directoryFd fuel
              else do
                call (.close descriptor)
                closeListed helperSocket directoryFd fuel

def closeInheritedFileDescriptors (fuel : Nat) (helperSocket : Descriptor) :
    Code (Option Bool) := do
  match ← call .opendir with
  | false => pure (some false)
  | true =>
      match ← call .dirfd with
      | none => do
          let _ ← call .closedir
          pure (some false)
      | some directoryFd =>
          match ← closeListed helperSocket directoryFd fuel with
          | none => pure none
          | some complete => do
              let closed ← call .closedir
              pure (some (closed && complete))

/-- `main` up to `ros::init`: the exit status, or the socket that `runHelper` is given. -/
def prepare (fuel : Nat) : List String → Code (Option (Except Nat Descriptor))
  | [_, value] =>
      match parseFileDescriptor value with
      | none => pure (some (.error kHelperUsageExit))
      | some socket => do
          match ← validHelperSocket socket with
          | false => pure (some (.error kHelperUsageExit))
          | true =>
              match ← installParentDeathFence socket with
              | false => pure (some (.error kHelperLifecycleExit))
              | true =>
                  match ← closeInheritedFileDescriptors fuel socket with
                  | none => pure none
                  | some false => pure (some (.error kHelperLifecycleExit))
                  | some true => pure (some (.ok socket))
  | _ => pure (some (.error kHelperUsageExit))

/-! ## The fence -/

section Specifications

/-- What is shown of a piece of code, whatever befalls the helper. -/
abbrev Does {α : Type} (K : Kernel) (code : Code α) (Q : α → World → Prop) (w : World) : Prop :=
  Wp (kernel K) (fun _ _ => True) Q code w

/-- An orphan is no child of the creator. -/
def Family.Born (family : Family) : Prop := family.alive = false → family.parentId ≠ family.creator

/-- The helper dies with its creator. -/
def Family.Fenced (family : Family) : Prop :=
  family.armed = true ∧ (family.alive = true ∨ family.killed = true)

/-- If nothing can befall the helper, its parent is its creator. -/
def Family.Steady (K : Kernel) (family : Family) : Prop :=
  K.mayFail = true ∨ family.parentId = family.creator ∧ 1 < family.creator

variable {K : Kernel} {family family' : Family} {files : Files} {creator : Nat}
  {socket : Descriptor} {w w' : World}

theorem Family.Born.befalls (h : family.Born) (hbefalls : befalls K family family') :
    family'.Born := by
  cases hbefalls with
  | nothing => exact h
  | orphaned parentId _ hother => exact fun _ => hother
  | killed _ => exact h

theorem Family.Fenced.befalls (h : family.Fenced) (hbefalls : befalls K family family') :
    family'.Fenced := by
  cases hbefalls with
  | nothing => exact h
  | orphaned parentId _ _ => exact ⟨h.1, .inr (by simp [h.1])⟩
  | killed _ => exact ⟨h.1, .inr rfl⟩

theorem Family.Steady.befalls (h : family.Steady K) (hbefalls : befalls K family family') :
    family'.Steady K := by
  cases hbefalls with
  | nothing => exact h
  | orphaned _ hmay _ => exact .inl hmay
  | killed hmay => exact .inl hmay

theorem befalls.same (h : befalls K family family') :
    family'.creator = family.creator ∧ family'.armed = family.armed := by
  cases h <;> exact ⟨rfl, rfl⟩

/-- Files are the helper's own, and a fence holds. -/
theorem stable_fenced {F : Files → Prop} :
    (kernel K).Stable fun w => F w.files ∧ w.family.Fenced := by
  rintro w w' ⟨hfiles, hbefalls⟩ ⟨hF, hfenced⟩
  exact ⟨hfiles ▸ hF, hfenced.befalls hbefalls⟩

/-- A call that changes nothing says something about the world it is made in. -/
theorem does_look {c : Call} {P : World → Prop}
    (hlook : ∀ w answer w', servesAlive K c w answer w' → w' = w)
    (hstable : (kernel K).Stable P) (h : P w) :
    Does K (call c) (fun answer w' => P w' ∧ servesAlive K c w' answer w') w := by
  refine Wp.perform hstable h fun w₁ answer w₂ h₁ hserves => ⟨trivial, ?_⟩
  obtain rfl := hlook w₁ answer w₂ hserves.2
  exact ⟨h₁, hserves.2⟩

/-- A helper that has not closed anything yet. -/
structure Fresh (K : Kernel) (files : Files) (creator : Nat) (w : World) : Prop where
  files_eq : w.files = files
  creator_eq : w.family.creator = creator
  born : w.family.Born
  steady : w.family.Steady K

theorem stable_fresh : (kernel K).Stable (Fresh K files creator) := by
  rintro w w' ⟨hfiles, hbefalls⟩ h
  exact ⟨hfiles.trans h.files_eq, hbefalls.same.1.trans h.creator_eq, h.born.befalls hbefalls,
    h.steady.befalls hbefalls⟩

/-- A parent that is not the creator is seen only if something can befall the helper. -/
theorem Fresh.mayFail_of_ne (h : Fresh K files creator w) (hne : w.family.parentId ≠ creator) :
    K.mayFail = true :=
  h.steady.resolve_right fun hsteady => hne (hsteady.1.trans h.creator_eq)

theorem does_validHelperSocket (h : Fresh K files creator w) (hsocket : 2 < socket)
    (hend : isHelperEnd files.table socket) :
    Does K (validHelperSocket socket)
      (fun valid w' => Fresh K files creator w' ∧ K.Grants valid) w := by
  unfold validHelperSocket
  rw [if_neg (Nat.not_le.mpr hsocket)]
  refine Wp.bind (does_look (fun _ _ _ hserves => hserves.1) stable_fresh h) ?_
  rintro answer w₁ ⟨h₁, -, hanswer⟩
  rcases hanswer (h₁.files_eq ▸ hend) with rfl | ⟨hmay, rfl⟩
  · exact Wp.pure ⟨h₁, .inl rfl⟩
  · exact Wp.pure ⟨h₁, .inr hmay⟩

/-- The files are as they were, and the helper is fenced if it goes on. -/
def Passed (K : Kernel) (files : Files) (passed : Bool) (w : World) : Prop :=
  w.files = files ∧ (passed = true → w.family.Fenced) ∧ K.Grants passed

theorem Fresh.refuse (h : Fresh K files creator w) (hmay : K.mayFail = true) :
    Passed K files false w :=
  ⟨h.files_eq, nofun, .inr hmay⟩

/-- **Arming first and looking then** leaves no gap: a creator that is still the parent after
the signal is armed is alive, and will not die without it. -/
theorem does_armAndRecheck (h : Fresh K files creator w) :
    Does K (armAndRecheck creator) (Passed K files) w := by
  refine Wp.bind (Q := fun armed w' => Fresh K files creator w' ∧
    (armed = true → w'.family.armed = true) ∧ K.Grants armed) ?_ ?_
  · refine Wp.perform stable_fresh h fun w₁ armed w₂ h₁ hserves => ⟨trivial, ?_⟩
    cases armed with
    | false =>
        obtain ⟨-, hmay, rfl⟩ := hserves
        exact ⟨h₁, nofun, .inr hmay⟩
    | true =>
        obtain ⟨-, rfl⟩ := hserves
        exact ⟨⟨h₁.files_eq, h₁.creator_eq, h₁.born, h₁.steady⟩, fun _ => rfl, .inl rfl⟩
  · rintro armed w₁ ⟨h₁, harmed, hgrants⟩
    cases armed with
    | false => exact Wp.pure (h₁.refuse (hgrants.resolve_left Bool.false_ne_true))
    | true =>
        have hstable : (kernel K).Stable fun w =>
            Fresh K files creator w ∧ w.family.armed = true :=
          fun w w' hrely h => ⟨stable_fresh w w' hrely h.1, hrely.2.same.2.trans h.2⟩
        refine Wp.bind (does_look (fun _ _ _ hserves => hserves.1) hstable ⟨h₁, harmed rfl⟩) ?_
        rintro parentId w₂ ⟨⟨h₂, harmed⟩, -, rfl⟩
        by_cases hparent : w₂.family.parentId = creator
        · -- An orphan would have another parent.
          refine Wp.pure ⟨h₂.files_eq, fun _ => ⟨harmed, .inl ?_⟩, .inl (beq_iff_eq.mpr hparent)⟩
          by_contra hdead
          exact h₂.born (Bool.eq_false_iff.mpr hdead) (hparent.trans h₂.creator_eq.symm)
        · rw [beq_eq_false_iff_ne.mpr hparent]
          exact Wp.pure (h₂.refuse (h₂.mayFail_of_ne hparent))

theorem does_installParentDeathFence (h : Fresh K files creator w)
    (hend : isHelperEnd files.table socket) :
    Does K (installParentDeathFence socket) (Passed K files) w := by
  refine Wp.bind (does_look (fun _ _ _ hserves => hserves.1) stable_fresh h) ?_
  rintro answer w₁ ⟨h₁, -, hanswer⟩
  rcases hanswer (h₁.files_eq ▸ hend) with rfl | ⟨hmay, rfl⟩
  · dsimp only
    rw [h₁.creator_eq]
    by_cases hrefused : 12 ≠ 12 ∨ creator ≤ 1
    · rw [if_pos hrefused]
      refine Wp.pure (h₁.refuse (h₁.steady.resolve_right fun hsteady => ?_))
      rw [h₁.creator_eq] at hsteady
      omega
    rw [if_neg hrefused]
    refine Wp.bind (does_look (fun _ _ _ hserves => hserves.1) stable_fresh h₁) ?_
    rintro parentId w₂ ⟨h₂, -, rfl⟩
    by_cases hparent : w₂.family.parentId ≠ creator
    · rw [if_pos hparent]
      exact Wp.pure (h₂.refuse (h₂.mayFail_of_ne hparent))
    · rw [if_neg hparent]
      exact does_armAndRecheck h₂
  · exact Wp.pure (h₁.refuse hmay)

/-! ## The sweep -/

/-- A sweep: what was open before, what is kept, and the descriptor of the listing. -/
structure Sweep where
  before : Table
  socket : Descriptor
  directory : Descriptor

/-- The sweep under way.  Some of the names that have been returned are dealt with. -/
structure Sweeping (K : Kernel) (S : Sweep) (handled returned : List String) (files : Files) :
    Prop where
  stream_eq : files.stream = some ⟨S.directory, returned⟩
  nodup : returned.Nodup
  subset : returned ⊆ listable K.limit
  kept : ∀ d, isKept S.socket d = true → d ≠ S.directory → files.table d = S.before d
  closed : ∀ d : Nat, toString d ∈ handled →
    (isKept S.socket d = true ∨ d = S.directory) ∨ files.table d = none
  bounded : ∀ d, K.limit ≤ d → files.table d = none

variable {S : Sweep} {handled returned : List String} {name : String}

theorem Sweeping.length_le (h : Sweeping K S handled returned files) :
    returned.length ≤ K.limit + 2 := by
  have hlength := (List.subperm_of_subset h.nodup h.subset).length_le
  rwa [listable, List.length_cons, List.length_cons, List.length_map, List.length_range]
    at hlength

/-- The name of an open descriptor is its own. -/
theorem Sweeping.parse_eq (h : Sweeping K S handled returned files)
    {d : Nat} (hopen : files.table d ≠ none) :
    parseFileDescriptor (toString d) = some d := by
  refine parseFileDescriptor_toString ?_
  by_contra hlarge
  have hlimit := K.limit_le
  exact hopen (h.bounded d (by omega))

/-- A name that stands for nothing to be closed is passed over. -/
theorem Sweeping.skip (h : Sweeping K S handled returned files)
    (hskip : ∀ d, parseFileDescriptor name = some d →
      isKept S.socket d = true ∨ d = S.directory) :
    Sweeping K S (name :: handled) returned files where
  __ := h
  closed d hd := by
    rcases List.mem_cons.mp hd with rfl | hold
    · by_cases hopen : files.table d = none
      · exact .inr hopen
      · exact .inl (hskip d (h.parse_eq hopen))
    · exact h.closed d hold

/-- Closing a descriptor that is not kept. -/
theorem Sweeping.close (h : Sweeping K S handled returned files) {c : Descriptor}
    (hparse : parseFileDescriptor name = some c)
    (hkept : isKept S.socket c = false) :
    Sweeping K S (name :: handled) returned
      { files with table := Function.update files.table c none } where
  stream_eq := h.stream_eq
  nodup := h.nodup
  subset := h.subset
  kept d hd hdirectory := by
    refine (Function.update_of_ne ?_ _ _).trans (h.kept d hd hdirectory)
    rintro rfl
    exact absurd (hkept.symm.trans hd) Bool.false_ne_true
  closed d hd := by
    by_cases hc : d = c
    · rw [hc]
      exact .inr (Function.update_self _ _ _)
    dsimp only
    rw [Function.update_of_ne hc]
    rcases List.mem_cons.mp hd with rfl | hold
    · refine .inr (not_not.mp fun hopen => hc ?_)
      exact Option.some.inj ((h.parse_eq hopen).symm.trans hparse)
    · exact h.closed d hold
  bounded d hd := (Function.update_apply _ _ _ _).trans (by rw [h.bounded d hd, ite_self])

/-- The sweep under way in a fenced helper. -/
def Sweeps (K : Kernel) (S : Sweep) (handled returned : List String) (w : World) : Prop :=
  Sweeping K S handled returned w.files ∧ w.family.Fenced

/-- Whatever is open is to be kept, or is the listing itself. -/
def Swept (S : Sweep) (table : Table) : Prop :=
  ∀ d, table d ≠ none → isKept S.socket d = true ∨ d = S.directory

theorem does_readdir (h : Sweeps K S returned returned w) :
    Does K (call .readdir) (fun answer w' =>
      (answer = .done ∧ Sweeps K S returned returned w' ∧ Swept S w'.files.table) ∨
        (answer = .failed ∧ K.mayFail = true ∧ Sweeps K S returned returned w') ∨
        ∃ name, answer = .entry name ∧ Sweeps K S returned (name :: returned) w') w := by
  refine Wp.perform stable_fenced h fun w₁ answer w₂ h₁ hserves => ⟨trivial, ?_⟩
  obtain ⟨hsweeping, hfenced⟩ := h₁
  cases answer with
  | done =>
      obtain ⟨-, rfl, stream, hstream, hend⟩ := hserves
      refine .inl ⟨rfl, ⟨hsweeping, hfenced⟩, fun d hopen => ?_⟩
      obtain rfl := Option.some.inj (hsweeping.stream_eq.symm.trans hstream)
      exact (hsweeping.closed d (hend d hopen)).resolve_right hopen
  | failed =>
      obtain ⟨-, rfl, hmay⟩ := hserves
      exact .inr (.inl ⟨rfl, hmay, hsweeping, hfenced⟩)
  | entry name =>
      obtain ⟨-, stream, hstream, hnew, hname, rfl⟩ := hserves
      obtain rfl := Option.some.inj (hsweeping.stream_eq.symm.trans hstream)
      exact .inr (.inr ⟨name, rfl, { hsweeping with
        stream_eq := rfl
        nodup := List.nodup_cons.mpr ⟨hnew, hsweeping.nodup⟩
        subset := List.cons_subset.mpr ⟨hname, hsweeping.subset⟩ }, hfenced⟩)

/-- How the loop over the listing ends. -/
def Ended (K : Kernel) (S : Sweep) (complete : Option Bool) (w : World) : Prop :=
  ∃ done returned, complete = some done ∧ Sweeps K S returned returned w ∧
    (done = true → Swept S w.files.table) ∧ K.Grants done

/-- **The sweep ends**, and only by a failure without having closed everything. -/
theorem does_closeListed (fuel : Nat)
    (h : Sweeps K S returned returned w) (hfuel : K.limit + 2 < returned.length + fuel) :
    Does K (closeListed S.socket S.directory fuel) (Ended K S) w := by
  induction fuel generalizing w returned with
  | zero => exact absurd h.1.length_le (Nat.not_le.mpr hfuel)
  | succ fuel ih =>
      refine Wp.bind (does_readdir h) ?_
      rintro answer w₁ (⟨rfl, h₁, hswept⟩ | ⟨rfl, hmay, h₁⟩ | ⟨name, rfl, hsweeping, hfenced⟩)
      · exact Wp.pure ⟨true, returned, rfl, h₁, fun _ => hswept, .inl rfl⟩
      · exact Wp.pure ⟨false, returned, rfl, h₁, nofun, .inr hmay⟩
      have hfuel' : K.limit + 2 < (name :: returned).length + fuel := by
        rw [List.length_cons]
        omega
      dsimp only
      cases hparse : parseFileDescriptor name with
      | none =>
          refine ih ⟨hsweeping.skip fun d hd => ?_, hfenced⟩ hfuel'
          exact absurd (hparse.symm.trans hd) (by simp)
      | some descriptor =>
          dsimp only
          by_cases hkept : isKept S.socket descriptor = true ∨ descriptor = S.directory
          · rw [if_pos hkept]
            refine ih ⟨hsweeping.skip fun d hd => ?_, hfenced⟩ hfuel'
            rwa [← Option.some.inj (hparse.symm.trans hd)]
          · rw [if_neg hkept]
            have hclosed := Bool.eq_false_iff.mpr (not_or.mp hkept).1
            refine Wp.bind (Q := fun _ => Sweeps K S (name :: returned) (name :: returned)) ?_
              fun _ w₂ h₂ => ih h₂ hfuel'
            refine Wp.perform stable_fenced ⟨hsweeping, hfenced⟩
              fun w₂ answer w₃ h₂ hserves => ⟨trivial, ?_⟩
            obtain ⟨-, rfl⟩ := hserves
            exact ⟨h₂.1.close hparse hclosed, h₂.2⟩

/-- What is to be left of the descriptors. -/
def keepOnly (socket : Descriptor) (table : Table) : Table := fun d =>
  if isKept socket d = true then table d else none

/-- The listing's own descriptor was not in use before, so it may be closed as well. -/
theorem Sweeping.keepOnly_eq (h : Sweeping K S handled returned files)
    (hfree : S.before S.directory = none) (hswept : Swept S files.table) :
    Function.update files.table S.directory none = keepOnly S.socket S.before := by
  funext d
  unfold keepOnly
  by_cases hd : d = S.directory
  · rw [hd, Function.update_self, hfree, ite_self]
  · rw [Function.update_of_ne hd]
    by_cases hkept : isKept S.socket d = true
    · rw [if_pos hkept, h.kept d hkept hd]
    · rw [if_neg hkept]
      by_contra hopen
      exact (hswept d hopen).elim hkept hd

/-- The outcome of the sweep, in a helper that is still fenced. -/
def Closed (K : Kernel) (socket : Descriptor) (before : Table) (complete : Option Bool)
    (w : World) : Prop :=
  ∃ done, complete = some done ∧ w.family.Fenced ∧
    (done = true → w.files.table = keepOnly socket before) ∧ K.Grants done

theorem Closed.refuse {before : Table} (h : w.family.Fenced) (hmay : K.mayFail = true) :
    Closed K socket before (some false) w :=
  ⟨false, rfl, h, nofun, .inr hmay⟩

theorem does_opendir (socket : Descriptor) (hbounded : ∀ d, K.limit ≤ d → files.table d = none)
    (h : w.files = files ∧ w.family.Fenced) :
    Does K (call .opendir) (fun opened w' => w'.family.Fenced ∧ (opened = true →
      ∃ directory, files.table directory = none ∧
        Sweeps K ⟨files.table, socket, directory⟩ [] [] w') ∧ K.Grants opened) w := by
  refine Wp.perform (stable_fenced (F := (· = files))) h
    fun w₁ opened w₂ h₁ hserves => ⟨trivial, ?_⟩
  obtain ⟨rfl, hfenced⟩ := h₁
  cases opened with
  | false =>
      obtain ⟨-, hmay, rfl⟩ := hserves
      exact ⟨hfenced, nofun, .inr hmay⟩
  | true =>
      obtain ⟨-, directory, hlt, hfree, rfl⟩ := hserves
      refine ⟨hfenced, fun _ => ⟨directory, hfree, ⟨rfl, List.nodup_nil, List.nil_subset _,
        fun d _ hd => Function.update_of_ne hd _ _, nofun, fun d hd => ?_⟩, hfenced⟩, .inl rfl⟩
      refine (Function.update_of_ne ?_ _ _).trans (hbounded d hd)
      rintro rfl
      exact absurd hlt (Nat.not_lt.mpr hd)

/-- Closing the listing of a sweep that is given up. -/
theorem does_closedir (h : Sweeps K S handled returned w) :
    Does K (call .closedir) (fun _ w' => w'.family.Fenced) w := by
  refine Wp.perform stable_fenced h fun w₁ closed w₂ h₁ hserves => ⟨trivial, ?_⟩
  obtain ⟨-, -, stream, -, rfl⟩ := hserves
  exact h₁.2

/-- Closing the listing once the sweep is over. -/
theorem does_closedir_swept {done : Bool} (hfree : S.before S.directory = none)
    (h : Sweeps K S handled returned w) (hswept : done = true → Swept S w.files.table)
    (hdone : K.Grants done) :
    Does K (do let closed ← call .closedir; pure (some (closed && done)))
      (Closed K S.socket S.before) w := by
  refine Wp.bind (Q := fun closed => Closed K S.socket S.before (some (closed && done)))
    ?_ fun closed w' h' => Wp.pure h'
  refine Wp.perform (stable_fenced (F := fun files => Sweeping K S handled returned files ∧
    (done = true → Swept S files.table))) ⟨⟨h.1, hswept⟩, h.2⟩
      fun w₁ closed w₂ h₁ hserves => ⟨trivial, ?_⟩
  obtain ⟨-, hclosed, stream, hstream, rfl⟩ := hserves
  obtain ⟨⟨hsweeping, hswept⟩, hfenced⟩ := h₁
  obtain rfl := Option.some.inj (hsweeping.stream_eq.symm.trans hstream)
  refine ⟨closed && done, rfl, hfenced, fun hboth => ?_, ?_⟩
  · exact hsweeping.keepOnly_eq hfree (hswept (Bool.and_eq_true_iff.mp hboth).2)
  · rcases hclosed with rfl | hmay
    · exact hdone
    · exact .inr hmay

theorem does_closeInherited {fuel : Nat} (hfuel : K.limit + 3 ≤ fuel)
    (hbounded : ∀ d, K.limit ≤ d → files.table d = none)
    (h : w.files = files ∧ w.family.Fenced) :
    Does K (closeInheritedFileDescriptors fuel socket) (Closed K socket files.table) w := by
  refine Wp.bind (does_opendir socket hbounded h) ?_
  rintro opened w₁ ⟨hfenced, hlisted, hgrants⟩
  cases opened with
  | false => exact Wp.pure (Closed.refuse hfenced (hgrants.resolve_left Bool.false_ne_true))
  | true =>
      obtain ⟨directory, hfree, h₁⟩ := hlisted rfl
      refine Wp.bind (does_look (fun _ answer _ hserves => ?_) stable_fenced h₁) ?_
      · cases answer <;> exact hserves.1
      rintro answer w₂ ⟨h₂, hdirfd⟩
      cases answer with
      | none => exact Wp.bind (does_closedir h₂) fun _ w₃ h₃ => Wp.pure (Closed.refuse h₃ hdirfd.2)
      | some directoryFd =>
          obtain ⟨-, stream, hstream, rfl⟩ := hdirfd
          obtain rfl := Option.some.inj (h₂.1.stream_eq.symm.trans hstream)
          refine Wp.bind (does_closeListed fuel h₂ (by rw [List.length_nil]; omega)) ?_
          rintro complete w₃ ⟨done, returned, rfl, h₃, hswept, hdone⟩
          exact does_closedir_swept hfree h₃ hswept hdone

/-- How `main` gets to `ros::init`, or does not. -/
def Prepared (K : Kernel) (socket : Descriptor) (before : Table)
    (outcome : Option (Except Nat Descriptor)) (w : World) : Prop :=
  (outcome = some (.ok socket) ∧ w.family.Fenced ∧ w.files.table = keepOnly socket before) ∨
    K.mayFail = true ∧ (outcome = some (.error kHelperUsageExit) ∨
      outcome = some (.error kHelperLifecycleExit))

theorem does_prepare {fuel : Nat} (hfuel : K.limit + 3 ≤ fuel) (path : String)
    {value : String} (hvalue : parseFileDescriptor value = some socket)
    (hsocket : 2 < socket) (hend : isHelperEnd files.table socket)
    (hbounded : ∀ d, K.limit ≤ d → files.table d = none) (h : Fresh K files creator w) :
    Does K (prepare fuel [path, value]) (Prepared K socket files.table) w := by
  simp only [prepare, hvalue]
  refine Wp.bind (does_validHelperSocket h hsocket hend) ?_
  rintro valid w₁ ⟨h₁, hvalid⟩
  cases valid with
  | false => exact Wp.pure (.inr ⟨hvalid.resolve_left Bool.false_ne_true, .inl rfl⟩)
  | true =>
      refine Wp.bind (does_installParentDeathFence h₁ hend) ?_
      rintro passed w₂ ⟨hfiles, hfenced, hpassed⟩
      cases passed with
      | false => exact Wp.pure (.inr ⟨hpassed.resolve_left Bool.false_ne_true, .inr rfl⟩)
      | true =>
          refine Wp.bind (does_closeInherited hfuel hbounded ⟨hfiles, hfenced rfl⟩) ?_
          rintro complete w₃ ⟨done, rfl, hfenced₃, htable, hdone⟩
          cases done with
          | false => exact Wp.pure (.inr ⟨hdone.resolve_left Bool.false_ne_true, .inr rfl⟩)
          | true => exact Wp.pure (.inl ⟨rfl, hfenced₃, htable rfl⟩)

/-- A call changes nothing of the family, but that it may arm the signal. -/
theorem family_of_serves {c : Call} {answer : c.Answer} (h : servesAlive K c w answer w') :
    w'.family = w.family ∨ w'.family = { w.family with armed := true } := by
  cases c with
  | setDeathSignal =>
      cases answer with
      | false => exact .inl (congrArg World.family h.2)
      | true => exact .inr (congrArg World.family h)
  | opendir =>
      cases answer with
      | false => exact .inl (congrArg World.family h.2)
      | true =>
          obtain ⟨descriptor, -, -, rfl⟩ := h
          exact .inl rfl
  | readdir =>
      cases answer with
      | entry name =>
          obtain ⟨stream, -, -, -, rfl⟩ := h
          exact .inl rfl
      | done => exact .inl (congrArg World.family h.1)
      | failed => exact .inl (congrArg World.family h.1)
  | dirfd => cases answer <;> exact .inl (congrArg World.family h.1)
  | closedir =>
      obtain ⟨-, stream, -, rfl⟩ := h
      exact .inl rfl
  | socketType _ => exact .inl (congrArg World.family h.1)
  | peerCredentials _ => exact .inl (congrArg World.family h.1)
  | getppid => exact .inl (congrArg World.family h.1)
  | close _ =>
      obtain rfl := h
      exact .inl rfl
  | work _ => exact .inl h

/-- Whatever a fenced helper does, it does while its creator lives. -/
theorem wp_fenced {α : Type} (code : Code α) (h : w.family.Fenced) :
    Wp (kernel K) (fun t _ => t.family.alive = true) (fun _ _ => True) code w := by
  induction code generalizing w with
  | ret a => exact trivial
  | call c next ih =>
      intro w₁ hrely answer w₂ hserves
      have h₁ : w₁.family.Fenced := h.befalls hrely.2
      have h₂ : w₂.family.Fenced := by
        rcases family_of_serves hserves.2 with hsame | harmed
        · rwa [hsame]
        · rw [harmed]
          exact ⟨rfl, h₁.2⟩
      refine ⟨h₁.2.resolve_right ?_, ih answer h₂⟩
      rw [hserves.1]
      exact Bool.false_ne_true

end Specifications

/-! ## From the adapter to the helper -/

section Started

variable {strerror : Spawn.Errno → String} {table : Table} {K : Kernel} {fuel : Nat}
  {family : Family} {path : String} {outcome : Option (Except Nat Descriptor)} {w : World}

open Spawn (kHelperSocketDescriptor)

/-- Some run of `HelperProcess::start` gives a helper these descriptors. -/
def StartedWith (strerror : Spawn.Errno → String) (table : Table) : Prop :=
  ∃ (w w' : Spawn.World) (helper : Spawn.Helper) (processId : Nat), Spawn.Holds [] [] w ∧
    Runs Spawn.adapter (Spawn.start strerror) w (.ok helper) w' ∧
    w'.processes processId = some (.helper table)

theorem StartedWith.isolated (h : StartedWith strerror table) : Spawn.Isolated table := by
  obtain ⟨w, w', helper, processId, hholds, hruns, hprocess⟩ := h
  obtain ⟨started, socket, found, -, hisolated, hholds'⟩ :=
    (Spawn.does_start strerror hholds).runs hruns
  have hmem := (hholds'.started processId table).mp hprocess
  rwa [(Prod.mk.inj (List.mem_singleton.mp hmem)).2]

/-- A helper that has just been started. -/
structure Newborn (strerror : Spawn.Errno → String) (K : Kernel) (table : Table)
    (family : Family) : Prop where
  started : StartedWith strerror table
  bounded : ∀ d, K.limit ≤ d → table d = none
  born : family.Born

theorem Newborn.fresh (h : Newborn strerror K table family) (hsteady : family.Steady K) :
    Fresh K ⟨table, none⟩ family.creator ⟨⟨table, none⟩, family⟩ :=
  ⟨rfl, rfl, h.born, hsteady⟩

theorem Newborn.isHelperEnd (h : Newborn strerror K table family) :
    isHelperEnd table kHelperSocketDescriptor :=
  ⟨_, h.started.isolated.socket, rfl⟩

/-- What `main` makes of it. -/
theorem Newborn.prepared (h : Newborn strerror K table family) (hsteady : family.Steady K)
    (hfuel : K.limit + 3 ≤ fuel)
    (hruns : Runs (kernel K) (prepare fuel [path, toString kHelperSocketDescriptor])
      ⟨⟨table, none⟩, family⟩ outcome w) :
    Prepared K kHelperSocketDescriptor table outcome w :=
  (does_prepare hfuel path (parseFileDescriptor_toString (by decide)) (by decide) h.isHelperEnd
    h.bounded (h.fresh hsteady)).runs hruns

/-! ### A helper of a quiet adapter -/

def quietKernel (mayFail : Bool) : Kernel := ⟨199, by decide, mayFail⟩

/-- The helper of process 5. -/
def quietFamily : Family := ⟨5, 5, true, false, false⟩

def armedFamily : Family := { quietFamily with armed := true }

/-- The descriptors while they are listed at descriptor 3. -/
def quietListing : Table := Function.update Spawn.quietTable 3 (some ⟨.foreign 0, true⟩)

def quietSwept : Table := Function.update quietListing 5 none

/-- All the names, the last one first. -/
def quietNames : List String := ["198", "5", "3", "2", "1", "0"]

def quietFound : Files := ⟨Function.update quietSwept 3 none, none⟩

theorem quietTable_eq_none {d : Nat} (hd : 199 ≤ d) : Spawn.quietTable d = none := by
  have hne : ∀ k : Nat, k < 199 → d ≠ k := fun k hk => by omega
  unfold Spawn.quietTable Spawn.exec
  rw [Function.update_of_ne (hne 4 (by decide)), Function.update_of_ne (hne 3 (by decide)),
    Function.update_of_ne (hne 198 (by decide)),
    Spawn.World.table_set_of_ne _ _ (hne 4 (by decide)),
    Spawn.World.table_set_of_ne _ _ (hne 3 (by decide)), Spawn.quietWorld]
  dsimp only
  rw [if_neg (not_or.mpr ⟨Nat.not_lt.mpr (Nat.le_trans (by decide) hd), hne 5 (by decide)⟩),
    Option.filter_none]

theorem newborn_quiet (mayFail : Bool) :
    Newborn (fun _ => "error") (quietKernel mayFail) Spawn.quietTable quietFamily where
  started := ⟨_, _, _, 7, Spawn.holds_quietWorld, Spawn.runs_start_quietWorld _, rfl⟩
  bounded _ hd := quietTable_eq_none hd
  born := nofun

theorem runs_call {K : Kernel} (c : Call) (answer : c.Answer) {w w' : World}
    (h : serves K c w answer w') : Runs (kernel K) (call c) w answer w' :=
  .call ⟨rfl, .nothing⟩ h .ret

/-- All that is open is listed. -/
theorem mem_quietNames {d : Nat} (h : quietSwept d ≠ none) : toString d ∈ quietNames := by
  rcases Nat.lt_or_ge d 199 with hd | hd
  · have hall : ∀ d < 199, quietSwept d ≠ none → toString d ∈ quietNames := by
      decide +kernel
    exact hall d hd h
  · have hne : ∀ k : Nat, k < 199 → d ≠ k := fun k hk => by omega
    refine absurd ?_ h
    unfold quietSwept quietListing
    rw [Function.update_of_ne (hne 5 (by decide)), Function.update_of_ne (hne 3 (by decide)),
      quietTable_eq_none hd]

section Listed

variable {mayFail : Bool} {fuel : Nat} (name : String) {returned : List String} {table : Table}
  {w : World} (hnew : name ∉ returned) (hlisted : name ∈ listable 199)
include hnew hlisted

/-- A name that is passed over. -/
theorem runs_skip (hskip : ∀ d, parseFileDescriptor name = some d → isKept 198 d = true ∨ d = 3)
    (hgo : Runs (kernel (quietKernel mayFail)) (closeListed 198 3 fuel)
      ⟨⟨table, some ⟨3, name :: returned⟩⟩, armedFamily⟩ (some true) w) :
    Runs (kernel (quietKernel mayFail)) (closeListed 198 3 (fuel + 1))
      ⟨⟨table, some ⟨3, returned⟩⟩, armedFamily⟩ (some true) w := by
  refine (runs_call .readdir (.entry name) ⟨rfl, _, rfl, hnew, hlisted, rfl⟩).bind ?_
  dsimp only
  cases hparse : parseFileDescriptor name with
  | none => exact hgo
  | some d =>
      dsimp only
      rw [if_pos (hskip d hparse)]
      exact hgo

/-- A name whose descriptor is closed. -/
theorem runs_close {d : Descriptor} (hparse : parseFileDescriptor name = some d)
    (hclosed : ¬(isKept 198 d = true ∨ d = 3))
    (hgo : Runs (kernel (quietKernel mayFail)) (closeListed 198 3 fuel)
      ⟨⟨Function.update table d none, some ⟨3, name :: returned⟩⟩, armedFamily⟩ (some true) w) :
    Runs (kernel (quietKernel mayFail)) (closeListed 198 3 (fuel + 1))
      ⟨⟨table, some ⟨3, returned⟩⟩, armedFamily⟩ (some true) w := by
  refine (runs_call .readdir (.entry name) ⟨rfl, _, rfl, hnew, hlisted, rfl⟩).bind ?_
  dsimp only
  rw [hparse]
  dsimp only
  rw [if_neg hclosed]
  exact (runs_call (.close d) () ⟨rfl, rfl⟩).bind hgo

end Listed

theorem runs_closeListed (mayFail : Bool) :
    Runs (kernel (quietKernel mayFail)) (closeListed 198 3 202)
      ⟨⟨quietListing, some ⟨3, []⟩⟩, armedFamily⟩ (some true)
      ⟨⟨quietSwept, some ⟨3, quietNames⟩⟩, armedFamily⟩ := by
  refine runs_skip "0" (by decide) (by decide +kernel) (by decide +kernel) ?_
  refine runs_skip "1" (by decide) (by decide +kernel) (by decide +kernel) ?_
  refine runs_skip "2" (by decide) (by decide +kernel) (by decide +kernel) ?_
  refine runs_skip "3" (by decide) (by decide +kernel) (by decide +kernel) ?_
  refine runs_close "5" (d := 5) (by decide) (by decide +kernel) (by decide +kernel) (by decide) ?_
  refine runs_skip "198" (by decide) (by decide +kernel) (by decide +kernel) ?_
  exact (runs_call .readdir .done ⟨rfl, rfl, _, rfl, fun _ hopen => mem_quietNames hopen⟩).bind
    .ret

/-- Its world before and behind the fence. -/
def unfencedWorld : World := ⟨⟨Spawn.quietTable, none⟩, quietFamily⟩

def fencedWorld : World := ⟨⟨Spawn.quietTable, none⟩, armedFamily⟩

theorem runs_validHelperSocket_quiet (mayFail : Bool) :
    Runs (kernel (quietKernel mayFail)) (validHelperSocket kHelperSocketDescriptor)
      unfencedWorld true unfencedWorld :=
  (runs_call (.socketType _) (some (1, 4)) ⟨rfl, rfl, fun _ => .inl rfl⟩).bind .ret

theorem runs_fence_quiet (mayFail : Bool) :
    Runs (kernel (quietKernel mayFail)) (installParentDeathFence kHelperSocketDescriptor)
      unfencedWorld true fencedWorld := by
  refine (runs_call (.peerCredentials _) (some (5, 12)) ⟨rfl, rfl, fun _ => .inl rfl⟩).bind ?_
  refine (runs_call .getppid 5 ⟨rfl, rfl, rfl⟩).bind ?_
  have hsignal : serves (quietKernel mayFail) .setDeathSignal unfencedWorld true fencedWorld :=
    ⟨rfl, rfl⟩
  refine (runs_call .setDeathSignal true hsignal).bind ?_
  exact (runs_call .getppid 5 ⟨rfl, rfl, rfl⟩).bind .ret

theorem runs_sweep_quiet (mayFail : Bool) :
    Runs (kernel (quietKernel mayFail)) (closeInheritedFileDescriptors 202 kHelperSocketDescriptor)
      fencedWorld (some true) ⟨quietFound, armedFamily⟩ := by
  have hopendir : serves (quietKernel mayFail) .opendir fencedWorld true
      ⟨⟨quietListing, some ⟨3, []⟩⟩, armedFamily⟩ := ⟨rfl, 3, show 3 < 199 by decide, rfl, rfl⟩
  refine (runs_call .opendir true hopendir).bind ?_
  refine (runs_call .dirfd (some 3) ⟨rfl, rfl, _, rfl, rfl⟩).bind ?_
  have hclosedir : serves (quietKernel mayFail) .closedir
      ⟨⟨quietSwept, some ⟨3, quietNames⟩⟩, armedFamily⟩ true ⟨quietFound, armedFamily⟩ :=
    ⟨rfl, .inl rfl, _, rfl, rfl⟩
  refine Runs.bind (a := some true) ?_ ((runs_call .closedir true hclosedir).bind .ret)
  exact runs_closeListed mayFail

theorem runs_prepare_quiet (mayFail : Bool) :
    Runs (kernel (quietKernel mayFail)) (prepare 202 ["helper", toString kHelperSocketDescriptor])
      unfencedWorld (some (.ok kHelperSocketDescriptor)) ⟨quietFound, armedFamily⟩ := by
  simp only [prepare, parseFileDescriptor_toString (n := kHelperSocketDescriptor) (by decide)]
  exact (runs_validHelperSocket_quiet mayFail).bind
    ((runs_fence_quiet mayFail).bind ((runs_sweep_quiet mayFail).bind .ret))

/-- **From the adapter to the helper, one socket.**  A helper that the adapter has started
exits, or goes on with its end of the socket pair and the standard descriptors only,
whatever else the adapter had open, whichever of its calls fail and in whatever order its
descriptors are listed. -/
theorem helper_keeps_only_its_socket (hmay : K.mayFail = true)
    (h : Newborn strerror K table family) (hfuel : K.limit + 3 ≤ fuel)
    (hruns : Runs (kernel K) (prepare fuel [path, toString kHelperSocketDescriptor])
      ⟨⟨table, none⟩, family⟩ outcome w) :
    (outcome = some (.error kHelperUsageExit) ∨ outcome = some (.error kHelperLifecycleExit)) ∨
      outcome = some (.ok kHelperSocketDescriptor) ∧
        w.files.table kHelperSocketDescriptor = some ⟨.helperEnd, false⟩ ∧
        ∀ d : Nat, d ≠ kHelperSocketDescriptor →
          w.files.table d = if d ≤ 2 then table d else none := by
  rcases h.prepared (.inl hmay) hfuel hruns with ⟨hok, -, htable⟩ | ⟨-, hexit⟩
  · refine .inr ⟨hok, ?_, fun d hd => ?_⟩
    · rw [htable]
      exact h.started.isolated.socket
    · rw [htable]
      refine if_congr ?_ rfl rfl
      simp only [isKept, Bool.or_eq_true, beq_iff_eq, hd, or_false]
      omega
  · exact .inl hexit

theorem helper_keeps_only_its_socket_quiet :
    Spawn.quietTable 5 = some ⟨.foreign 5, false⟩ ∧
      quietFound.table 198 = some ⟨.helperEnd, false⟩ ∧ quietFound.table 5 = none := by
  rcases helper_keeps_only_its_socket rfl (newborn_quiet true) (Nat.le_refl 202)
    (runs_prepare_quiet true) with hexit | ⟨-, hsocket, hothers⟩
  · exact hexit.elim (fun heq => absurd heq (by simp)) fun heq => absurd heq (by simp)
  · exact ⟨rfl, hsocket, hothers 5 (by decide)⟩

/-- **A helper does nothing behind the back of a dead adapter.**  Once the fence is passed,
every call the helper makes, be it in the sweep, which may fail, or behind it, is made while
the process that made its socket pair is alive. -/
theorem helper_acts_only_under_its_adapter {α : Type} {code : Code α} {w' t t' : World}
    (hmay : K.mayFail = true) (h : Newborn strerror K table family)
    (hsocket : Runs (kernel K) (validHelperSocket kHelperSocketDescriptor)
      ⟨⟨table, none⟩, family⟩ true w)
    (hfence : Runs (kernel K) (installParentDeathFence kHelperSocketDescriptor) w true w')
    (hdoes : Program.Does (kernel K) code w' t t') : t.family.alive = true := by
  obtain ⟨hfresh, -⟩ :=
    (does_validHelperSocket (h.fresh (.inl hmay)) (by decide) h.isHelperEnd).runs hsocket
  obtain ⟨-, hfenced, -⟩ := (does_installParentDeathFence hfresh h.isHelperEnd).runs hfence
  exact (wp_fenced code (hfenced rfl)).does hdoes

/-- The sweep fails at once, and the helper is about to exit. -/
theorem helper_acts_only_under_its_adapter_quiet :
    Runs (kernel (quietKernel true))
        (closeInheritedFileDescriptors 202 kHelperSocketDescriptor) fencedWorld (some false)
        fencedWorld ∧
      fencedWorld.family.alive = true := by
  have hopendir : serves (quietKernel true) .opendir fencedWorld false fencedWorld :=
    ⟨rfl, rfl, rfl⟩
  refine ⟨(runs_call .opendir false hopendir).bind .ret, ?_⟩
  have hdoes : Program.Does (kernel (quietKernel true))
      (closeInheritedFileDescriptors 202 kHelperSocketDescriptor) fencedWorld fencedWorld
      fencedWorld := .here (r := false) ⟨rfl, .nothing⟩ hopendir
  exact helper_acts_only_under_its_adapter rfl (newborn_quiet true)
    (runs_validHelperSocket_quiet true) (runs_fence_quiet true) hdoes

/-- **A helper of a living adapter is let in**: if nothing fails and nothing befalls it, `main`
gets to `ros::init`. -/
theorem helper_let_in (hmay : K.mayFail = false) (h : Newborn strerror K table family)
    (hfuel : K.limit + 3 ≤ fuel) (hparent : family.parentId = family.creator)
    (hcreator : 1 < family.creator)
    (hruns : Runs (kernel K) (prepare fuel [path, toString kHelperSocketDescriptor])
      ⟨⟨table, none⟩, family⟩ outcome w) :
    outcome = some (.ok kHelperSocketDescriptor) := by
  rcases h.prepared (.inr ⟨hparent, hcreator⟩) hfuel hruns with ⟨hok, -⟩ | ⟨hfails, -⟩
  · exact hok
  · exact absurd (hmay.symm.trans hfails) Bool.false_ne_true

theorem helper_let_in_quiet :
    some (.ok 198) = (some (.ok kHelperSocketDescriptor) : Option (Except Nat Descriptor)) :=
  helper_let_in rfl (newborn_quiet false) (Nat.le_refl 202) rfl (by decide)
    (runs_prepare_quiet false)

end Started

end Ros1Tools.Service.HelperMain
