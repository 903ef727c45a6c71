import Ros1Tools.Lib.PosixPath

/-!
# File trees with symbolic links

A tree of directories, files and symbolic links, and the walk that finds the place of a path
in it.  A place is the list of the names on the way from the root.

`walk` goes down the tree until it comes to a link, and `follow` replaces a link by its target
a bounded number of times, as a kernel does.  A strict walk fails where nothing is; the other
one, that of `realpath`, goes on with the names.  What matters of both is `walk_eq`: a walk
that only meets directories stays where the names lead.
-/

namespace Ros1Tools.Lib

open PosixPath

inductive Node where
  | file
  | symlink (target : Path)
  | dir (entries : List (Part × Node))

/-- The root is a directory. -/
structure FileTree where
  entries : List (Part × Node)

/-- Why a system call fails. -/
inductive Errno where
  | noEntry
  | notDirectory
  | tooManyLinks
  /-- Not a system call: a text that cannot be passed to one. -/
  | nullByte
deriving DecidableEq, Repr

/-- What `stat` tells about a node. -/
inductive FileKind where
  | file
  | symlink
  | dir
deriving DecidableEq, Repr

namespace Node

def kind : Node → FileKind
  | file => .file
  | symlink _ => .symlink
  | dir _ => .dir

/-- The node at a place below this one. -/
def lookup : Node → List Part → Option Node
  | node, [] => some node
  | dir entries, part :: rest => (entries.lookup part).bind (·.lookup rest)
  | _, _ :: _ => none

/-- Puts a node at a place below this one, with the directories that are missing. -/
def insert (new : Node) : List Part → Node → Node
  | [], _ => new
  | part :: rest, dir entries =>
      dir ((part, insert new rest ((entries.lookup part).getD (.dir []))) :: entries)
  | _ :: _, node => node

theorem lookup_append (node : Node) (ps qs : List Part) :
    node.lookup (ps ++ qs) = (node.lookup ps).bind (·.lookup qs) := by
  induction ps generalizing node with
  | nil => rfl
  | cons part ps ih =>
      cases node with
      | dir entries =>
          rw [List.cons_append, lookup, lookup, Option.bind_assoc]
          exact congrArg _ (funext fun child => ih child)
      | _ => rfl

/-- **The frame rule.**  Putting a node at one place leaves the places alone that are neither
on the way to it nor below it. -/
theorem lookup_insert_of_apart {new node : Node} {place other : List Part}
    (hbelow : ¬place <+: other) (habove : ¬other <+: place) :
    (insert new place node).lookup other = node.lookup other := by
  induction place generalizing node other with
  | nil => exact absurd List.nil_prefix hbelow
  | cons part place ih =>
      cases other with
      | nil => exact absurd List.nil_prefix habove
      | cons name other =>
          cases node with
          | dir entries =>
              rw [insert, lookup, lookup]
              by_cases hname : name = part
              · subst hname
                rw [List.lookup_cons, beq_self_eq_true]
                have hbelow : ¬place <+: other := fun h =>
                  hbelow (List.cons_prefix_cons.mpr ⟨rfl, h⟩)
                have habove : ¬other <+: place := fun h =>
                  habove (List.cons_prefix_cons.mpr ⟨rfl, h⟩)
                change (insert new place _).lookup other = _
                rw [ih hbelow habove]
                cases entries.lookup name with
                | some child => rfl
                | none =>
                    cases other with
                    | nil => exact absurd List.nil_prefix habove
                    | cons _ _ => rfl
              · rw [List.lookup_cons, beq_eq_false_iff_ne.mpr hname]
          | _ => rfl

end Node

namespace FileTree

def root (tree : FileTree) : Node := .dir tree.entries

def lookup (tree : FileTree) (place : List Part) : Option Node := tree.root.lookup place

/-- A place where a directory is. -/
def IsDir (tree : FileTree) (place : List Part) : Prop :=
  ∃ entries, tree.lookup place = some (.dir entries)

section Walk

variable (tree : FileTree) (strict : Bool)

/-- The place that parts lead to from a place.  `expand` is asked at a link, with the place to
go on from and the parts to go on with. -/
def walk (expand : List Part → List Part → Except Errno (List Part)) :
    List Part → List Part → Except Errno (List Part)
  | place, [] => .ok place
  | place, part :: rest =>
      if part = [] ∨ part = ['.'] then walk expand place rest
      else if part = ['.', '.'] then walk expand place.dropLast rest
      else
        match tree.lookup (place ++ [part]) with
        | some (.dir _) => walk expand (place ++ [part]) rest
        | some (.symlink target) =>
            expand (if isabs target then [] else place) (split target ++ rest)
        | some .file => if strict then .error .notDirectory else walk expand (place ++ [part]) rest
        | none => if strict then .error .noEntry else walk expand (place ++ [part]) rest

/-- The walk that follows at most so many links. -/
def follow : Nat → List Part → List Part → Except Errno (List Part)
  | 0 => walk tree strict fun _ _ => .error .tooManyLinks
  | links + 1 => walk tree strict (follow links)

variable {tree strict}

/-- **A walk that only meets directories stays where the names lead.** -/
theorem walk_eq {expand : List Part → List Part → Except Errno (List Part)}
    {place rest : List Part} (hproper : ∀ part ∈ rest, Proper part)
    (h : ∀ front, front ≠ [] → front <+: rest → tree.IsDir (place ++ front) ∨
      strict = false ∧ tree.lookup (place ++ front) = none) :
    tree.walk strict expand place rest = .ok (place ++ rest) := by
  induction rest generalizing place with
  | nil => rw [walk, List.append_nil]
  | cons part rest ih =>
      obtain ⟨hpart, hrest⟩ := List.forall_mem_cons.mp hproper
      have hnext := @ih (place ++ [part]) hrest fun front hne hfront => by
        rw [List.append_assoc, List.singleton_append]
        exact h (part :: front) (List.cons_ne_nil _ _) (List.cons_prefix_cons.mpr ⟨rfl, hfront⟩)
      rw [List.append_assoc, List.singleton_append] at hnext
      rw [walk, if_neg (not_or.mpr ⟨hpart.ne_nil, hpart.ne_dot⟩), if_neg hpart.ne_dotdot]
      rcases h [part] (List.cons_ne_nil _ _) (List.cons_prefix_cons.mpr ⟨rfl, List.nil_prefix⟩)
        with ⟨entries, hdir⟩ | ⟨rfl, hnone⟩
      · rw [hdir]
        exact hnext
      · rw [hnone]
        exact hnext

theorem follow_eq (links : Nat) {place rest : List Part} (hproper : ∀ part ∈ rest, Proper part)
    (h : ∀ front, front ≠ [] → front <+: rest → tree.IsDir (place ++ front) ∨
      strict = false ∧ tree.lookup (place ++ front) = none) :
    tree.follow strict links place rest = .ok (place ++ rest) := by
  cases links with
  | zero => exact walk_eq hproper h
  | succ links => exact walk_eq hproper h

/-- An empty part at the start does not matter. -/
theorem follow_nil_cons (links : Nat) (place rest : List Part) :
    tree.follow strict links place ([] :: rest) = tree.follow strict links place rest := by
  cases links with
  | zero => rw [follow, walk, if_pos (.inl rfl)]
  | succ links => rw [follow, walk, if_pos (.inl rfl)]

end Walk

/-- How many links Linux follows. -/
def maxLinks : Nat := 40

/-- `os.lstat`, of an absolute path that ends in a name: the links on the way are followed, and
one at its end is not. -/
def lstat (tree : FileTree) (path : Path) : Except Errno FileKind :=
  if path.contains '\x00' then .error .nullByte
  else
    match (parts path).getLast? with
    | none => .ok .dir
    | some name => do
        let place ← tree.follow true maxLinks [] (parts path).dropLast
        match tree.lookup (place ++ [name]) with
        | some node => .ok node.kind
        | none => .error .noEntry

/-- `os.path.realpath`, of an absolute path. -/
def realpath (tree : FileTree) (links : Nat) (path : Path) : Except Errno (List Part) :=
  tree.follow false links [] (split path)

/-- A file is created, with the directories on the way to it that are missing. -/
def create (tree : FileTree) (links : Nat) (path : Path) : Except Errno Node := do
  let directory ← tree.realpath links (dirname path)
  return .insert .file (directory ++ [basename path]) tree.root

end FileTree

end Ros1Tools.Lib
