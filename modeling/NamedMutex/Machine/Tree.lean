/-
  File trees: nodes, permissions, and where a path leads.

  A tree maps numbers to nodes.  A directory maps names to numbers, so a file
  may have several names, or none while somebody has it open.

  * `FileTree.may` says what the user who runs everything may do with a node;
  * `FileTree.resolve` follows a path, through at most `linkLimit` symbolic
    links, to a `Place`: a node, or a name that is free in a directory.  An `Aim`
    says what the path is followed for.
-/
import NamedMutex.IoError
import NamedMutex.Machine.Table
import NamedMutex.Path

namespace NamedMutex

/-- The number of a node. -/
abbrev Inode := Nat

/-- What a node holds. -/
inductive Content where
  | file (bytes : Bytes)
  | directory (parent : Inode) (entries : Table Bytes Inode)
  | link (target : Path)
  /-- The device that holds nothing and keeps nothing. -/
  | null
  deriving Repr

/-- A node of a file tree.  The user who runs everything is its owner or not. -/
structure Node where
  content : Content
  /-- The permission bits, three for the owner, the group and all others. -/
  mode : Nat
  owned : Bool
  deriving Repr

/-- What one may want to do with a node. -/
inductive Access where
  | read
  | write
  /-- Follow names of a directory. -/
  | search
  deriving DecidableEq, Repr

/-- The permission bit of an access. -/
def Access.bit : Access → Nat
  | read => 4
  | write => 2
  | search => 1

/-- The permission bits that apply to the user. -/
def Node.bits (n : Node) : Nat :=
  if n.owned then n.mode / 64 % 8 else n.mode % 8

def Node.allows (n : Node) (a : Access) : Bool :=
  n.bits / a.bit % 2 = 1

/-- Nodes by their numbers, with the root and the working directory. -/
structure FileTree where
  nodes : Table Inode Node
  root : Inode
  cwd : Inode
  /-- The directory of the devices, which is kept apart from all others. -/
  devices : Inode
  /-- A number above those of all nodes. -/
  next : Inode
  deriving Repr

/-- What a path is followed for. -/
inductive Aim where
  /-- The entry itself, also if it is a symbolic link. -/
  | entry
  /-- The node behind the entry. -/
  | node
  /-- A file, which is made if there is none.  A slash behind its name is
      refused, also in the target of a symbolic link. -/
  | file
  deriving DecidableEq, Repr

/-- What a path leads to. -/
inductive Place where
  /-- A node, with the directory entry that named it, if it was one. -/
  | found (inode : Inode) (entry : Option (Inode × Bytes))
  /-- A name without an entry. -/
  | vacant (dir : Inode) (name : Bytes)
  deriving DecidableEq, Repr

namespace FileTree

/-- How many symbolic links one path may lead through. -/
def linkLimit : Nat := 40

/-- The greatest length of a name. -/
def nameLimit : Nat := 255

/-- The first length that is too great for a path. -/
def pathLimit : Nat := 4096

def node? (t : FileTree) (i : Inode) : Option Node := t.nodes.get? i

/-- Whether the user may access a node in some way. -/
def may (t : FileTree) (i : Inode) (a : Access) : Bool :=
  match t.node? i with
  | some n => n.allows a
  | none => false

/-- The parent and the entries of a directory. -/
def directory? (t : FileTree) (i : Inode) : Option (Inode × Table Bytes Inode) :=
  match t.node? i with
  | some ⟨.directory parent entries, _, _⟩ => some (parent, entries)
  | _ => none

def isDirectory (t : FileTree) (i : Inode) : Bool := (t.directory? i).isSome

/-- Whether a node is kept apart from all others. -/
def isApart (t : FileTree) (i : Inode) : Bool :=
  match t.node? i with
  | some ⟨.null, _, _⟩ => true
  | _ => i = t.devices

/-- The target of a symbolic link. -/
def link? (t : FileTree) (i : Inode) : Option Path :=
  match t.node? i with
  | some ⟨.link target, _, _⟩ => some target
  | _ => none

/-- Where the steps of a path start. -/
def origin (t : FileTree) (at_ : Inode) (p : Path) : Inode :=
  if p.isAbsolute then t.root else at_

/-- Whether a path ends with a slash, which only a directory may. -/
def asksDirectory (p : Path) : Bool := p.bytes.getLast? = some Path.slash

/-- The steps of a path without the slashes at its end. -/
def bareSteps (p : Path) : List Bytes := p.parts.filter (· ≠ [])

/-- The steps of a path.  A slash at the end asks for a directory: this is the
    step without a name. -/
def steps (p : Path) : List Bytes :=
  bareSteps p ++ if asksDirectory p then [[]] else []

/-- Follows steps from the node `at_`, which `entry` names.  A symbolic link at
    the end is followed unless the aim is the entry itself; `jump` goes on from
    the origin of a link's target with its steps and all steps after it. -/
def walkWith (t : FileTree) (aim : Aim) (jump : Inode → List Bytes → Except Errno Place) :
    Inode → Option (Inode × Bytes) → List Bytes → Except Errno Place
  | at_, entry, [] => .ok (.found at_ entry)
  | at_, _, name :: rest =>
    match t.directory? at_ with
    | none => .error .notDirectory
    | some (parent, entries) =>
      if name = [] then walkWith t aim jump at_ none rest
      else if ¬ t.may at_ .search then .error .accessDenied
      else if name = [Path.dot] then walkWith t aim jump at_ none rest
      else if name = [Path.dot, Path.dot] then walkWith t aim jump parent none rest
      else if aim = .file ∧ rest = [[]] then .error .isDirectory
      else if nameLimit < name.length then .error .nameTooLong
      else match entries.get? name with
        | none => if rest = [] then .ok (.vacant at_ name) else .error .noEntry
        | some i =>
          match t.link? i with
          | none => walkWith t aim jump i (some (at_, name)) rest
          | some target =>
            if rest = [] ∧ aim = .entry then .ok (.found i (some (at_, name)))
            else if target.bytes = [] then .error .noEntry
            else jump (t.origin at_ target) (steps target ++ rest)

/-- Follows steps from a node through at most `budget` symbolic links. -/
def walk (t : FileTree) (aim : Aim) : Nat → Inode → List Bytes → Except Errno Place
  | 0, at_, names => t.walkWith aim (fun _ _ => .error .tooManyLinks) at_ none names
  | budget + 1, at_, names => t.walkWith aim (walk t aim budget) at_ none names

/-- Why the system does not look at a path at all. -/
def refusal? (p : Path) : Option IoError :=
  if 0 ∈ p.bytes then some .nulInPath
  else if p.bytes = [] then some (.os .noEntry)
  else if pathLimit ≤ p.bytes.length then some (.os .nameTooLong)
  else none

/-- Where some of a path's steps lead from where the path starts. -/
def follow (t : FileTree) (aim : Aim) (p : Path) (names : List Bytes) : Except IoError Place :=
  match refusal? p with
  | some e => .error e
  | none =>
    match t.walk aim linkLimit (t.origin t.cwd p) names with
    | .ok place => .ok place
    | .error e => .error (.os e)

/-- Where a path leads from the working directory. -/
def resolve (t : FileTree) (aim : Aim) (p : Path) : Except IoError Place :=
  t.follow aim p (steps p)

/-- Where a path leads, to the entry itself and whatever slashes follow it. -/
def resolveBare (t : FileTree) (p : Path) : Except IoError Place :=
  t.follow .entry p (bareSteps p)

/-- The directory in which the last step of a path is taken, before it is, and
    the name that it takes; the root, `.` and `..` are not looked up by name. -/
def lastStep (t : FileTree) (p : Path) : Except IoError (Inode × Option Bytes) :=
  let names := bareSteps p
  match t.follow .node p (names.dropLast ++ [[Path.dot]]) with
  | .error e => .error e
  | .ok (.vacant _ _) => .error (.os .noEntry)
  | .ok (.found dir _) =>
    .ok (dir, names.getLast?.filter fun name => name ∉ [[Path.dot], [Path.dot, Path.dot]])

/-- What a directory has under a name. -/
def lookUp (t : FileTree) (dir : Inode) (name : Bytes) : Except IoError (Option Inode) :=
  if nameLimit < name.length then .error (.os .nameTooLong)
  else .ok ((t.directory? dir).bind fun (_, entries) => entries.get? name)

/-- The node that a path leads to. -/
def find (t : FileTree) (aim : Aim) (p : Path) : Except IoError Inode :=
  match t.resolve aim p with
  | .ok (.found i _) => .ok i
  | .ok (.vacant _ _) => .error (.os .noEntry)
  | .error e => .error e

/-- Whether a path leads to a directory. -/
def leadsToDirectory (t : FileTree) (p : Path) : Bool :=
  match t.find .node p with
  | .ok i => t.isDirectory i
  | .error _ => false

/-- Gives a node a new value. -/
def update (t : FileTree) (i : Inode) (f : Node → Node) : FileTree :=
  match t.node? i with
  | some n => { t with nodes := t.nodes.insert i (f n) }
  | none => t

/-- Gives a node a new content. -/
def setContent (t : FileTree) (i : Inode) (c : Content) : FileTree :=
  t.update i fun n => { n with content := c }

/-- Changes the entries of a directory. -/
def setEntries (t : FileTree) (dir : Inode) (f : Table Bytes Inode → Table Bytes Inode) :
    FileTree :=
  match t.directory? dir with
  | some (parent, entries) => t.setContent dir (.directory parent (f entries))
  | none => t

/-- Enters a node under a name. -/
def enter (t : FileTree) (dir : Inode) (name : Bytes) (i : Inode) : FileTree :=
  t.setEntries dir fun entries => entries.insert name i

/-- Removes the entry of a name. -/
def remove (t : FileTree) (dir : Inode) (name : Bytes) : FileTree :=
  t.setEntries dir fun entries => entries.erase name

/-- Makes a node of the user under a name. -/
def create (t : FileTree) (dir : Inode) (name : Bytes) (content : Content) (mode : Nat) :
    FileTree × Inode :=
  let i := t.next
  ({ t with nodes := t.nodes.insert i ⟨content, mode, true⟩, next := i + 1 }.enter dir name i, i)

/-- Whether the user may add or remove entries of a directory. -/
def mayChange (t : FileTree) (dir : Inode) : Bool :=
  t.may dir .write && t.may dir .search

end FileTree

end NamedMutex
