/-
  Paths as byte sequences, and their components.

  A path is compared and taken apart by components: repeated and trailing
  slashes and inner `.` parts do not count, a leading `.` and every `..` do.

  * `components` takes a path apart; `front` is the part of a path that names its
    first components, as it was written;
  * `join` appends a path to a directory, `parent?` takes the last component
    away;
  * `lockPath` is where the lock file of a name lies.
-/
import NamedMutex.Text.Utf8

namespace NamedMutex

/-- A path: bytes, parted by slashes. -/
structure Path where
  bytes : Bytes
  deriving DecidableEq, Repr

/-- One part of a path. -/
inductive Component where
  /-- The root of the file tree. -/
  | root
  /-- The current directory, only at the start of a path. -/
  | here
  /-- The directory above. -/
  | up
  /-- An entry of a directory. -/
  | entry (name : Bytes)
  deriving DecidableEq, Repr

namespace Path

def slash : UInt8 := 0x2F

def dot : UInt8 := 0x2E

def ofString (s : String) : Path := ⟨Utf8.encode s⟩

/-- A path for people to read. -/
def display (p : Path) : String := Utf8.decodeLossy p.bytes

def isAbsolute (p : Path) : Bool := p.bytes.head? = some slash

/-- The parts between slashes, also empty ones. -/
def parts (p : Path) : List Bytes := p.bytes.splitOn slash

/-- The component that a part stands for, if it counts. -/
def component? (part : Bytes) : Option Component :=
  if part = [] ∨ part = [dot] then none
  else if part = [dot, dot] then some .up
  else some (.entry part)

/-- The components of a path. -/
def components (p : Path) : List Component :=
  let tail := p.parts.filterMap component?
  if p.isAbsolute then .root :: tail
  else if p.parts.head? = some [dot] then .here :: tail
  else tail

/-- Two paths are the same if they have the same components. -/
def Same (p q : Path) : Prop := p.components = q.components

instance (p q : Path) : Decidable (Same p q) :=
  inferInstanceAs (Decidable (_ = _))

/-- Parts up to the one that names the component number `n` among them. -/
def partsUpTo : (n : Nat) → List Bytes → List Bytes
  | 0, _ | _, [] => []
  | n + 1, part :: rest =>
    part :: partsUpTo (if (component? part).isSome then n else n + 1) rest

/-- The front of a path that names its first `n` components, byte for byte. -/
def front (p : Path) (n : Nat) : Path :=
  match n, p.parts with
  | n + 1, first :: rest =>
    if p.isAbsolute ∨ first = [dot] then
      match partsUpTo n rest with
      | [] => if p.isAbsolute then ⟨[slash]⟩ else ⟨first⟩
      | parts => ⟨[slash].intercalate (first :: parts)⟩
    else ⟨[slash].intercalate (partsUpTo (n + 1) (first :: rest))⟩
  | _, _ => ⟨[]⟩

/-- `p` seen from the directory `dir`. -/
def join (dir p : Path) : Path :=
  if p.isAbsolute then p
  else if dir.bytes = [] ∨ dir.bytes.getLast? = some slash then ⟨dir.bytes ++ p.bytes⟩
  else ⟨dir.bytes ++ [slash] ++ p.bytes⟩

/-- The path without its last component; neither the root nor the empty path
    has one. -/
def parent? (p : Path) : Option Path :=
  match p.components.getLast? with
  | none | some .root => none
  | some _ => some (p.front (p.components.length - 1))

end Path

/-- The name of the lock file of a mutex. -/
def lockFileName (name : String) : String := name ++ ".lock"

/-- Where the lock file of `name` lies in `dir`. -/
def lockPath (dir : Path) (name : String) : Path :=
  dir.join (.ofString (lockFileName name))

end NamedMutex
