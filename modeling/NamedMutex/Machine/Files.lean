/-
  What can be done with the entries of a file tree.

  Every operation checks what the system checks, in the system's order, so that
  of two reasons to fail the same one is reported.

  * `makeDirs`, `unlink`, `openPath` and `readPath` are what programs ask for;
  * `rename`, `hardLink`, `symbolicLink`, `chmod`, `removeTree` and `writePath`
    are what happens to lock files from outside.
-/
import NamedMutex.Machine.Tree

namespace NamedMutex

/-- An operation on a file tree: an error, or the tree after it. -/
abbrev Change := Except IoError FileTree

/-- An operation that may fail half-way: the tree after it all the same. -/
abbrev PartialChange := FileTree × Except IoError Unit

namespace FileTree

/-- The permission bits of a new file and of a new directory. -/
def fileMode : Nat := 0o644

def dirMode : Nat := 0o755

/-- An error number as the outcome of an operation. -/
def failure {α : Type} (e : Errno) : Except IoError α := .error (.os e)

/-- The free name that a path leads to, in a directory that may get an entry.
    An entry that is there comes before a missing permission. -/
def freeName (t : FileTree) (p : Path) : Except IoError (Inode × Bytes) :=
  match t.resolveBare p with
  | .error e => .error e
  | .ok (.found _ _) => failure .entryExists
  | .ok (.vacant dir name) =>
    if t.mayChange dir then .ok (dir, name) else failure .accessDenied

/-- The same for an entry that is not a directory, and may be one for the node
    `i`: its path ends without a slash, and devices stay apart from files. -/
def freeLeafName (t : FileTree) (p : Path) (i : Option Inode) : Except IoError (Inode × Bytes) :=
  match t.resolveBare p with
  | .ok (.vacant dir _) =>
    if asksDirectory p then failure .noEntry
    else if i.any fun i => t.isApart i ≠ t.isApart dir then failure .crossesDevices
    else t.freeName p
  | _ => t.freeName p

/-- Makes a directory. -/
def makeDir (t : FileTree) (p : Path) : Change :=
  match t.freeName p with
  | .error e => .error e
  | .ok (dir, name) => .ok (t.create dir name (.directory dir .empty) dirMode).1

/-- Makes the directory at a path, which may be there already. -/
def ensureDir (t : FileTree) (p : Path) : PartialChange :=
  match t.makeDir p with
  | .ok t => (t, .ok ())
  | .error e => if t.leadsToDirectory p then (t, .ok ()) else (t, .error e)

/-- Makes the directory at a path; if the path does not lead so far, `above`
    makes the directory above it first. -/
def ensureDirBelow (t : FileTree) (above : FileTree → PartialChange) (p : Path) : PartialChange :=
  match t.makeDir p with
  | .ok t => (t, .ok ())
  | .error e =>
    if e.kind = .notFound then
      match above t with
      | (t, .error e) => (t, .error e)
      | (t, .ok ()) => t.ensureDir p
    else if t.leadsToDirectory p then (t, .ok ())
    else (t, .error e)

/-- Makes the directory that the first `n` components of a path name, and those
    above it, as far as they are missing. -/
def makeDirsUpTo (p : Path) : (n : Nat) → FileTree → PartialChange
  | 0, t => (t, .ok ())
  | n + 1, t => t.ensureDirBelow (makeDirsUpTo p n) (p.front (n + 1))

/-- Makes a directory and those above it, as far as they are missing. -/
def makeDirs (t : FileTree) (p : Path) : PartialChange :=
  if p.bytes = [] then (t, .ok ())
  else t.ensureDirBelow (makeDirsUpTo p (p.components.length - 1)) p

/-- Opens the file at a path to `access` it, creating it if there is none.  The
    tree after it and the node that was opened. -/
def openPath (t : FileTree) (access : List Access) (p : Path) : Except IoError (FileTree × Inode) :=
  match t.resolve .file p with
  | .error e => .error e
  | .ok (.found i _) =>
    if t.isDirectory i then failure .isDirectory
    else if access.all (t.may i) then .ok (t, i)
    else failure .accessDenied
  | .ok (.vacant dir name) =>
    if t.mayChange dir then .ok (t.create dir name (.file []) fileMode)
    else failure .accessDenied

/-- The bytes that reading a node gives. -/
def bytesOf (t : FileTree) (i : Inode) : Bytes :=
  match t.node? i with
  | some ⟨.file bytes, _, _⟩ => bytes
  | _ => []

/-- Reads the file at a path. -/
def readPath (t : FileTree) (p : Path) : Except IoError Bytes :=
  match t.find .node p with
  | .error e => .error e
  | .ok i =>
    if ¬ t.may i .read then failure .accessDenied
    else if t.isDirectory i then failure .isDirectory
    else .ok (t.bytesOf i)

/-- Gives the file at a path a content, creating it if there is none. -/
def writePath (t : FileTree) (p : Path) (bytes : Bytes) : Change :=
  match t.openPath [.write] p with
  | .error e => .error e
  | .ok (t, i) =>
    match t.node? i with
    | some ⟨.file _, _, _⟩ => .ok (t.setContent i (.file bytes))
    | _ => .ok t

/-- Removes the entry at a path, which must not name a directory. -/
def unlink (t : FileTree) (p : Path) : Change :=
  match t.resolveBare p with
  | .error e => .error e
  | .ok (.vacant _ _) => failure .noEntry
  | .ok (.found _ none) => failure .isDirectory
  | .ok (.found i (some (dir, name))) =>
    if asksDirectory p then
      if t.isDirectory i then failure .isDirectory else failure .notDirectory
    else if ¬ t.mayChange dir then failure .accessDenied
    else if t.isDirectory i then failure .isDirectory
    else .ok (t.remove dir name)

/-- Whether the directory `i` is `j` or lies above it; `n` bounds the depth. -/
def isAbove (t : FileTree) (i : Inode) : Nat → Inode → Bool
  | 0, _ => false
  | n + 1, j =>
    if i = j then true
    else match t.directory? j with
      | some (parent, _) => if parent = j then false else isAbove t i n parent
      | none => false

/-- Whether a directory has no entry. -/
def isEmptyDirectory (t : FileTree) (i : Inode) : Bool :=
  (t.directory? i).any fun (_, entries) => entries.isEmpty

/-- Enters the entry `old` of a node under the name `new`. -/
def moved (t : FileTree) (i : Inode) (old new : Inode × Bytes) : FileTree :=
  let t := ((t.remove old.1 old.2).remove new.1 new.2).enter new.1 new.2 i
  match t.directory? i with
  | some (_, entries) => t.setContent i (.directory new.1 entries)
  | none => t

/-- Moves a node from the entry `old` to `new`, which it takes from the node
    `there`: an empty directory from a directory, another node from another node.
    A directory that changes its parent must itself be writable. -/
def moveEntry (t : FileTree) (i : Inode) (old new : Inode × Bytes) (there : Option Inode) :
    Change :=
  if there = some i then .ok t
  else if t.isAbove i t.next new.1 then failure .invalidArgument
  else if there.any fun j => t.isAbove j t.next old.1 then failure .notEmpty
  else if ¬ (t.mayChange old.1 ∧ t.mayChange new.1) then failure .accessDenied
  else if t.isDirectory i then
    if there.any fun j => ¬ t.isDirectory j then failure .notDirectory
    else if old.1 ≠ new.1 ∧ ¬ t.may i .write then failure .accessDenied
    else if there.any fun j => ¬ t.isEmptyDirectory j then failure .notEmpty
    else .ok (t.moved i old new)
  else if there.any t.isDirectory then failure .isDirectory
  else .ok (t.moved i old new)

/-- Renames an entry.  Both directories are found before a name is looked up in
    them. -/
def rename (t : FileTree) (p q : Path) : Change := do
  if 0 ∈ p.bytes ∨ 0 ∈ q.bytes then throw .nulInPath
  let (fromDir, oldName) ← t.lastStep p
  let (toDir, newName) ← t.lastStep q
  if t.isApart fromDir ≠ t.isApart toDir then failure .crossesDevices
  else match oldName, newName with
    | some oldName, some newName =>
      match ← t.lookUp fromDir oldName with
      | none => failure .noEntry
      | some i =>
        let there ← t.lookUp toDir newName
        if ¬ t.isDirectory i ∧ (asksDirectory p ∨ asksDirectory q) then failure .notDirectory
        else t.moveEntry i (fromDir, oldName) (toDir, newName) there
    | _, _ => failure .busy

/-- Enters the node of a path under another path. -/
def hardLink (t : FileTree) (p existing : Path) : Change := do
  if 0 ∈ existing.bytes ∨ 0 ∈ p.bytes then throw .nulInPath
  let i ← t.find .entry existing
  let (dir, name) ← t.freeLeafName p (some i)
  if t.isDirectory i then failure .operationNotPermitted
  else .ok (t.enter dir name i)

/-- Makes a symbolic link.  Its target is a path, but need not lead anywhere. -/
def symbolicLink (t : FileTree) (p target : Path) : Change := do
  if 0 ∈ target.bytes ∨ 0 ∈ p.bytes then throw .nulInPath
  match refusal? target with
  | some e => .error e
  | none =>
    let (dir, name) ← t.freeLeafName p none
    .ok (t.create dir name (.link target) 0o777).1

/-- Gives a node other permission bits. -/
def chmod (t : FileTree) (p : Path) (mode : Nat) : Change :=
  match t.find .node p with
  | .error e => .error e
  | .ok i =>
    match t.node? i with
    | some n =>
      if n.owned then .ok (t.update i fun n => { n with mode := mode })
      else failure .operationNotPermitted
    | none => failure .noEntry

/-- Removes the entries of a directory, each in the way of `removeEntry`.  The
    first failure ends it.  Nothing is to be done below other nodes. -/
def removeEntries (removeEntry : FileTree → Inode → Bytes → Inode → PartialChange)
    (t : FileTree) (dir : Inode) : PartialChange :=
  match t.directory? dir with
  | none => (t, .ok ())
  | some (_, entries) =>
    if ¬ t.may dir .read then (t, failure .accessDenied)
    else entries.entries.foldl
      (fun state (name, i) =>
        match state with
        | (t, .ok ()) =>
          if t.may dir .search then removeEntry t dir name i else (t, failure .accessDenied)
        | failed => failed)
      (t, .ok ())

/-- Removes an entry of a directory with everything below it; `n` bounds the
    depth. -/
def removeBelow (t : FileTree) (dir : Inode) (name : Bytes) (i : Inode) : Nat → PartialChange
  | 0 => (t, failure .tooManyLinks)
  | n + 1 =>
    match removeEntries (fun t dir name i => removeBelow t dir name i n) t i with
    | (t, .ok ()) =>
      if t.mayChange dir then (t.remove dir name, .ok ()) else (t, failure .accessDenied)
    | failed => failed

/-- Removes the empty directory at a path.  A path that ends in `..` names a
    directory that is not empty; one that ends in `.` names none; and a symbolic
    link is none, whatever slash follows it. -/
def removeDir (t : FileTree) (p : Path) : Change :=
  match t.resolveBare p with
  | .error e => .error e
  | .ok (.vacant _ _) => failure .noEntry
  | .ok (.found _ none) =>
    match (bareSteps p).getLast? with
    | none => failure .busy
    | some name => if name = [Path.dot] then failure .invalidArgument else failure .notEmpty
  | .ok (.found i (some (dir, name))) =>
    if ¬ t.mayChange dir then failure .accessDenied
    else match t.directory? i with
      | none => failure .notDirectory
      | some (_, entries) =>
        if entries.isEmpty then .ok (t.remove dir name) else failure .notEmpty

/-- Removes the directory at a path with everything below it; a symbolic link
    is removed itself.  What is below goes first.  If the path leads nowhere
    after that, because it went through what was below, the directory stays. -/
def removeTree (t : FileTree) (p : Path) : PartialChange :=
  match t.find .entry p with
  | .error e => (t, .error e)
  | .ok i =>
    if (t.link? i).isSome then
      match t.unlink p with
      | .ok t => (t, .ok ())
      | .error e => (t, .error e)
    else if ¬ t.isDirectory i then (t, failure .notDirectory)
    else match removeEntries (fun t dir name i => removeBelow t dir name i t.next) t i with
      | (t, .ok ()) =>
        match t.removeDir p with
        | .ok t => (t, .ok ())
        | .error e => (t, if e.kind = .notFound then .ok () else .error e)
      | failed => failed

/-- What one sees of an entry. -/
inductive Sight where
  | directory
  | link (target : Path)
  | file (bytes : Bytes)
  deriving DecidableEq, Repr

/-- What one sees below a directory, each with its path; `n` bounds the depth.
    What may not be read looks empty. -/
def below (t : FileTree) (dir : Inode) (above : Bytes) : Nat → List (Bytes × Sight)
  | 0 => []
  | n + 1 =>
    match t.directory? dir with
    | none => []
    | some (_, entries) =>
      if t.may dir .read && t.may dir .search then
        entries.entries.flatMap fun (name, i) =>
          let path := above ++ name
          match t.node? i with
          | some ⟨.directory _ _, _, _⟩ =>
            (path, .directory) :: below t i (path ++ [Path.slash]) n
          | some ⟨.link target, _, _⟩ => [(path, .link target)]
          | some ⟨.file bytes, _, _⟩ => [(path, .file (if t.may i .read then bytes else []))]
          | _ => [(path, .file [])]
      else []

/-- What one sees below the working directory. -/
def sights (t : FileTree) : List (Bytes × Sight) :=
  t.below t.cwd [] t.next

end FileTree

end NamedMutex
