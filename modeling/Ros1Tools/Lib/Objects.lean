import Ros1Tools.Lib.Python

/-!
# Python objects with identity

Lists and dictionaries are objects that a program can change, and two places may hold the same
one.  A heap keeps what every object holds, in the order in which they were created, and a
program is a function on heaps that may raise.

`Keeps n` is the frame rule for a program that works on its own objects: none of the first `n`
is changed, and the objects after them do not lead back to them.
-/

namespace Ros1Tools.Lib.Python

/-- The identity of an object. -/
abbrev Ref := Nat

/-- What an object holds.  `atom` is plain data that cannot be changed. -/
inductive Cell where
  | atom (value : Value)
  | list (items : List Ref)
  | dict (members : List (String × Ref))

def Cell.refs : Cell → List Ref
  | .atom _ => []
  | .list items => items
  | .dict members => members.map Prod.snd

abbrev Heap := List Cell

/-- The plain data that an object stands for, if it is nested no deeper than the limit. -/
def load (heap : Heap) : Nat → Ref → Option Value
  | 0, _ => none
  | limit + 1, ref =>
      match heap[ref]? with
      | none => none
      | some (.atom value) => some value
      | some (.list items) => (items.mapM (load heap limit)).map .list
      | some (.dict members) =>
          (members.mapM fun member => (load heap limit member.2).map (member.1, ·)).map .dict

/-! ## Programs -/

def Act (α : Type) : Type := Heap → Except Exception α × Heap

namespace Act

variable {α β : Type}

instance : Monad Act where
  pure a := fun heap => (.ok a, heap)
  bind x f := fun heap =>
    match x heap with
    | (.ok a, heap') => f a heap'
    | (.error exc, heap') => (.error exc, heap')

theorem bind_eq_ok {x : Act α} {f : α → Act β} {heap heap' : Heap} {b : β}
    (h : (x >>= f) heap = (.ok b, heap')) :
    ∃ a heap₁, x heap = (.ok a, heap₁) ∧ f a heap₁ = (.ok b, heap') := by
  change (match x heap with
    | (.ok a, heap') => f a heap'
    | (.error exc, heap') => (.error exc, heap')) = _ at h
  split at h
  · exact ⟨_, _, ‹_›, h⟩
  · cases h

def raise (exc : Exception) : Act α := fun heap => (.error exc, heap)

/-- A computation that looks at no object. -/
def lift (x : Except Exception α) : Act α := fun heap => (x, heap)

theorem lift_eq_ok {x : Except Exception α} {heap heap' : Heap} {a : α}
    (h : lift x heap = (.ok a, heap')) : x = .ok a ∧ heap' = heap := by
  cases h
  exact ⟨rfl, rfl⟩

/-- A new object. -/
def create (cell : Cell) : Act Ref := fun heap => (.ok heap.length, heap ++ [cell])

/-- The plain data of an object. -/
def value (limit : Nat) (ref : Ref) : Act Value := fun heap =>
  match load heap limit ref with
  | some value => (.ok value, heap)
  | none => (.error recursionError, heap)

theorem value_eq_ok {limit : Nat} {ref : Ref} {heap heap' : Heap} {data : Value}
    (h : value limit ref heap = (.ok data, heap')) :
    load heap limit ref = some data ∧ heap' = heap := by
  unfold value at h
  split at h
  · cases h
    exact ⟨‹_›, rfl⟩
  · cases h

mutual

/-- New objects that stand for plain data. -/
def build : Value → Act Ref
  | .list values => do
      let refs ← buildItems values
      create (.list refs)
  | .dict members => do
      let members ← buildMembers members
      create (.dict members)
  | .null => create (.atom .null)
  | .bool b => create (.atom (.bool b))
  | .int n => create (.atom (.int n))
  | .float x => create (.atom (.float x))
  | .str text => create (.atom (.str text))
  | .object name => create (.atom (.object name))

def buildItems : List Value → Act (List Ref)
  | [] => pure []
  | item :: items => do
      let ref ← build item
      let refs ← buildItems items
      return ref :: refs

def buildMembers : List (String × Value) → Act (List (String × Ref))
  | [] => pure []
  | (name, item) :: members => do
      let ref ← build item
      let refs ← buildMembers members
      return (name, ref) :: refs

end

/-- `copy.deepcopy(ref)`. -/
def deepcopy (limit : Nat) (ref : Ref) : Act Ref := do
  let value ← value limit ref
  build value

/-- The members of a dictionary. -/
def members (ref : Ref) : Act (List (String × Ref)) := fun heap =>
  match heap[ref]? with
  | some (.dict members) => (.ok members, heap)
  | _ => (.error (typeError "not a dictionary"), heap)

/-- The items of a list. -/
def items (ref : Ref) : Act (List Ref) := fun heap =>
  match heap[ref]? with
  | some (.list items) => (.ok items, heap)
  | _ => (.error (typeError "not a list"), heap)

/-- `ref[name]`. -/
def getItem (ref : Ref) (name : String) : Act Ref := do
  let members ← members ref
  match members.lookup name with
  | some found => pure found
  | none => raise (keyError name)

/-- The members of a dictionary with one more, or with one replaced. -/
def insert (name : String) (item : Ref) : List (String × Ref) → List (String × Ref)
  | [] => [(name, item)]
  | (key, old) :: rest =>
      if key = name then (key, item) :: rest else (key, old) :: insert name item rest

/-- `ref[name] = item`. -/
def setItem (ref : Ref) (name : String) (item : Ref) : Act Unit := do
  let members ← members ref
  fun heap => (.ok (), heap.set ref (.dict (insert name item members)))

/-- `ref.setdefault(name, [])`. -/
def setDefault (ref : Ref) (name : String) : Act Ref := do
  let members ← members ref
  match members.lookup name with
  | some found => pure found
  | none => do
      let empty ← create (.list [])
      setItem ref name empty
      return empty

/-- `ref[name] = value`, of plain data. -/
def assign (ref : Ref) (name : String) (value : Value) : Act Unit := do
  let item ← build value
  setItem ref name item

end Act

/-! ## Frames -/

/-- The objects from the `n`-th on do not lead to one before it. -/
structure Owned (n : Nat) (heap : Heap) : Prop where
  le : n ≤ heap.length
  refs : ∀ ref cell, n ≤ ref → heap[ref]? = some cell → ∀ child ∈ cell.refs, n ≤ child

/-- The first `n` objects hold what they held. -/
def Frame (n : Nat) (heap heap' : Heap) : Prop := ∀ ref < n, heap'[ref]? = heap[ref]?

/-- A program that owns the objects from the `n`-th on changes no other, and its result
satisfies the postcondition. -/
def Keeps {α : Type} (n : Nat) (act : Act α) (post : α → Prop) : Prop :=
  ∀ heap, Owned n heap →
    Owned n (act heap).2 ∧ Frame n heap (act heap).2 ∧ ∀ a, (act heap).1 = .ok a → post a

namespace Keeps

variable {α β : Type} {n : Nat} {post : α → Prop} {post' : β → Prop}

theorem pure {a : α} (h : post a) : Keeps n (Pure.pure a) post := by
  intro heap howned
  refine ⟨howned, fun _ _ => rfl, ?_⟩
  rintro _ ⟨⟩
  exact h

theorem bind {x : Act α} {f : α → Act β} (hx : Keeps n x post)
    (hf : ∀ a, post a → Keeps n (f a) post') : Keeps n (x >>= f) post' := by
  intro heap howned
  obtain ⟨hown, hframe, hpost⟩ := hx heap howned
  have heq : (x >>= f) heap = match x heap with
      | (.ok a, heap') => f a heap'
      | (.error exc, heap') => (.error exc, heap') := rfl
  rw [heq]
  cases hrun : x heap with
  | mk result heap' =>
    rw [hrun] at hown hframe hpost
    cases result with
    | error exc => exact ⟨hown, hframe, nofun⟩
    | ok a =>
        obtain ⟨hown', hframe', hpost'⟩ := hf a (hpost a rfl) heap' hown
        exact ⟨hown', fun ref href => (hframe' ref href).trans (hframe ref href), hpost'⟩

/-- A program that changes nothing. -/
theorem read {act : Act α} (hsame : ∀ heap, (act heap).2 = heap)
    (hpost : ∀ heap, Owned n heap → ∀ a, (act heap).1 = .ok a → post a) : Keeps n act post := by
  intro heap howned
  rw [hsame heap]
  exact ⟨howned, fun _ _ => rfl, hpost heap howned⟩

theorem raise (exc : Exception) : Keeps n (Act.raise exc) post :=
  read (fun _ => rfl) fun _ _ _ => nofun

theorem lift (x : Except Exception α) : Keeps n (Act.lift x) fun a => x = .ok a :=
  read (fun _ => rfl) fun _ _ _ h => h

theorem value (limit : Nat) (ref : Ref) : Keeps n (Act.value limit ref) fun _ => True := by
  refine read (fun heap => ?_) fun _ _ _ _ => trivial
  unfold Act.value
  split
  · rfl
  · rfl

/-- What a dictionary of its own leads to is its own. -/
theorem members (ref : Ref) :
    Keeps n (Act.members ref) fun found => n ≤ ref → ∀ member ∈ found, n ≤ member.2 := by
  refine read (fun heap => ?_) fun heap howned found hfound href member hmember => ?_
  · unfold Act.members
    split
    · rfl
    · rfl
  · unfold Act.members at hfound
    split at hfound
    · rename_i hcell
      cases hfound
      exact howned.refs ref _ href hcell member.2 (List.mem_map_of_mem hmember)
    · cases hfound

theorem items (ref : Ref) :
    Keeps n (Act.items ref) fun found => n ≤ ref → ∀ item ∈ found, n ≤ item := by
  refine read (fun heap => ?_) fun heap howned found hfound href item hitem => ?_
  · unfold Act.items
    split
    · rfl
    · rfl
  · unfold Act.items at hfound
    split at hfound
    · rename_i hcell
      cases hfound
      exact howned.refs ref _ href hcell item hitem
    · cases hfound

theorem create {cell : Cell} (hcell : ∀ child ∈ cell.refs, n ≤ child) :
    Keeps n (Act.create cell) (n ≤ ·) := by
  intro heap howned
  refine ⟨⟨?_, fun ref found href hfound => ?_⟩, fun ref href => ?_, ?_⟩
  · show n ≤ (heap ++ [cell]).length
    rw [List.length_append]
    exact Nat.le_add_right_of_le howned.le
  · change (heap ++ [cell])[ref]? = some found at hfound
    rw [List.getElem?_append] at hfound
    split at hfound
    · exact howned.refs ref found href hfound
    · obtain rfl : cell = found := List.mem_singleton.mp (List.mem_of_getElem? hfound) |>.symm
      exact hcell
  · exact List.getElem?_append_left (href.trans_le howned.le)
  · rintro _ ⟨⟩
    exact howned.le

mutual

theorem build : ∀ data : Value, Keeps n (Act.build data) (n ≤ ·)
  | .list values => by
      rw [Act.build]
      exact bind (buildItems values) fun refs hrefs => create hrefs
  | .dict members => by
      rw [Act.build]
      refine bind (buildMembers members) fun found hfound => create fun child hchild => ?_
      obtain ⟨member, hmember, rfl⟩ := List.mem_map.mp hchild
      exact hfound member hmember
  | .null => create nofun
  | .bool _ => create nofun
  | .int _ => create nofun
  | .float _ => create nofun
  | .str _ => create nofun
  | .object _ => create nofun

theorem buildItems : ∀ values : List Value,
    Keeps n (Act.buildItems values) fun refs => ∀ ref ∈ refs, n ≤ ref
  | [] => pure nofun
  | item :: items => by
      rw [Act.buildItems]
      exact bind (build item) fun ref href => bind (buildItems items) fun refs hrefs =>
        pure (List.forall_mem_cons.mpr ⟨href, hrefs⟩)

theorem buildMembers : ∀ members : List (String × Value),
    Keeps n (Act.buildMembers members) fun found => ∀ member ∈ found, n ≤ member.2
  | [] => pure nofun
  | (name, item) :: members => by
      rw [Act.buildMembers]
      exact bind (build item) fun ref href => bind (buildMembers members) fun found hfound =>
        pure (List.forall_mem_cons.mpr ⟨href, hfound⟩)

end

/-- A copy is new, whoever owns the original. -/
theorem deepcopy (limit : Nat) (ref : Ref) : Keeps n (Act.deepcopy limit ref) (n ≤ ·) :=
  bind (value limit ref) fun data _ => build data

theorem le_of_lookup {name : String} {item : Ref} {found : List (String × Ref)}
    (hfound : ∀ member ∈ found, n ≤ member.2) (hlookup : found.lookup name = some item) :
    n ≤ item := by
  obtain ⟨front, back, rfl, -⟩ := List.lookup_eq_some_iff.mp hlookup
  exact hfound (name, item) (List.mem_append_right _ List.mem_cons_self)

theorem getItem (ref : Ref) (name : String) :
    Keeps n (Act.getItem ref name) fun item => n ≤ ref → n ≤ item := by
  refine bind (members ref) fun found hfound => ?_
  cases hlookup : found.lookup name with
  | none => exact raise _
  | some item => exact pure fun href => le_of_lookup (hfound href) hlookup

theorem le_of_mem_insert {name : String} {item : Ref} (hitem : n ≤ item)
    {found : List (String × Ref)} (hfound : ∀ member ∈ found, n ≤ member.2) :
    ∀ member ∈ Act.insert name item found, n ≤ member.2 := by
  induction found with
  | nil => exact List.forall_mem_singleton.mpr hitem
  | cons member found ih =>
      obtain ⟨key, old⟩ := member
      obtain ⟨hold, hrest⟩ := List.forall_mem_cons.mp hfound
      rw [Act.insert]
      split
      · exact List.forall_mem_cons.mpr ⟨hitem, hrest⟩
      · exact List.forall_mem_cons.mpr ⟨hold, ih hrest⟩

theorem setItem {ref item : Ref} (href : n ≤ ref) (name : String) (hitem : n ≤ item) :
    Keeps n (Act.setItem ref name item) fun _ => True := by
  refine bind (members ref) fun found hfound heap howned => ?_
  have hcell : ∀ child ∈ (Cell.dict (Act.insert name item found)).refs, n ≤ child := by
    intro child hchild
    obtain ⟨member, hmember, rfl⟩ := List.mem_map.mp hchild
    exact le_of_mem_insert hitem (hfound href) member hmember
  refine ⟨⟨?_, fun ref' cell href' hcell' => ?_⟩, fun ref' href' => ?_, fun _ _ => trivial⟩
  · exact howned.le.trans_eq List.length_set.symm
  · change (heap.set ref _)[ref']? = some cell at hcell'
    rw [List.getElem?_set] at hcell'
    split at hcell'
    · split at hcell'
      · cases hcell'
        exact hcell
      · cases hcell'
    · exact howned.refs ref' cell href' hcell'
  · exact List.getElem?_set_ne (Nat.ne_of_gt (href'.trans_le href))

theorem setDefault {ref : Ref} (href : n ≤ ref) (name : String) :
    Keeps n (Act.setDefault ref name) (n ≤ ·) := by
  refine bind (members ref) fun found hfound => ?_
  cases hlookup : found.lookup name with
  | none =>
      exact bind (create nofun) fun empty hempty => bind (setItem href name hempty) fun _ _ =>
        pure hempty
  | some item => exact pure (le_of_lookup (hfound href) hlookup)

theorem assign {ref : Ref} (href : n ≤ ref) (name : String) (data : Value) :
    Keeps n (Act.assign ref name data) fun _ => True :=
  bind (build data) fun _ hitem => setItem href name hitem

theorem forM {f : α → Act PUnit} {list : List α}
    (hf : ∀ a ∈ list, Keeps n (f a) fun _ => True) : Keeps n (list.forM f) fun _ => True := by
  induction list with
  | nil => exact pure trivial
  | cons a list ih =>
      exact bind (hf a List.mem_cons_self) fun _ _ =>
        ih fun b hb => hf b (List.mem_cons_of_mem _ hb)

end Keeps

/-! ## What is read stays -/

theorem mapM_eq_some_of_imp {α β : Type} {f g : α → Option β} {list : List α} {found : List β}
    (himp : ∀ a b, f a = some b → g a = some b) (h : list.mapM f = some found) :
    list.mapM g = some found := by
  induction list generalizing found with
  | nil => exact h
  | cons a list ih =>
      simp only [List.mapM_cons, Option.bind_eq_bind, Option.bind_eq_some_iff] at h ⊢
      obtain ⟨b, hb, rest, hrest, hfound⟩ := h
      exact ⟨b, himp a b hb, rest, ih hrest, hfound⟩

/-- All that exists belongs to others at first. -/
theorem owned_length (heap : Heap) : Owned heap.length heap where
  le := le_rfl
  refs ref cell href hcell := by
    rw [List.getElem?_eq_none href] at hcell
    cases hcell

/-- Objects that could be read are read as before once others are created. -/
theorem load_of_frame {heap heap' : Heap} (h : Frame heap.length heap heap') (limit : Nat)
    {ref : Ref} {data : Value} (hload : load heap limit ref = some data) :
    load heap' limit ref = some data := by
  induction limit generalizing ref data with
  | zero => cases hload
  | succ limit ih =>
      rw [load] at hload ⊢
      cases hcell : heap[ref]? with
      | none =>
          rw [hcell] at hload
          cases hload
      | some cell =>
          rw [h ref (List.getElem?_eq_some_iff.mp hcell).1, hcell]
          rw [hcell] at hload
          cases cell with
          | atom value => exact hload
          | list items =>
              obtain ⟨values, hvalues, rfl⟩ := Option.map_eq_some_iff.mp hload
              exact Option.map_eq_some_iff.mpr
                ⟨values, mapM_eq_some_of_imp (fun _ _ => ih) hvalues, rfl⟩
          | dict members =>
              obtain ⟨values, hvalues, rfl⟩ := Option.map_eq_some_iff.mp hload
              refine Option.map_eq_some_iff.mpr
                ⟨values, mapM_eq_some_of_imp (fun member value hvalue => ?_) hvalues, rfl⟩
              obtain ⟨item, hitem, rfl⟩ := Option.map_eq_some_iff.mp hvalue
              exact Option.map_eq_some_iff.mpr ⟨item, ih hitem, rfl⟩

end Ros1Tools.Lib.Python
