import Reactor.Error.Io

/-!
The places of a system that paths lead to. A path is followed name by name from the root or from the
working directory, and every name but the last has to lead to a directory.
-/

namespace Reactor.LocalNet

/-- The names on the way from the root to a place. -/
abbrev Location := List String

/-- What there is at a place. -/
inductive Entry where
  | directory
  /-- A file that is no socket. -/
  | file
  /-- A socket, by its descriptor. -/
  | socket (fd : Nat)
  deriving DecidableEq, Repr

structure FileTree where
  /-- What there is besides the root. -/
  entries : List (Location × Entry)
  /-- Where paths begin that do not begin at the root. -/
  working : Location

namespace FileTree

/-- The tree of a host on which nobody has put anything yet. -/
def initial : FileTree where
  entries :=
    [["bin"], ["boot"], ["dev"], ["dev", "shm"], ["etc"], ["home"], ["lib"], ["media"], ["mnt"],
      ["opt"], ["proc"], ["root"], ["run"], ["sbin"], ["srv"], ["sys"], ["tmp"], ["usr"],
      ["usr", "bin"], ["usr", "lib"], ["usr", "local"], ["var"], ["var", "lib"], ["var", "log"],
      ["var", "run"], ["var", "tmp"], ["work"]].map (·, .directory) ++
    [["dev", "null"], ["dev", "zero"], ["etc", "hostname"], ["etc", "hosts"],
      ["etc", "passwd"]].map (·, .file)
  working := ["work"]

def entry? (t : FileTree) (place : Location) : Option Entry :=
  if place = [] then some .directory else t.entries.lookup place

/-- The place that a name leads to inside a directory. -/
def next (directory : Location) (name : String) : Location :=
  if name = "" ∨ name = "." then directory
  else if name = ".." then directory.dropLast
  else directory ++ [name]

/-- The place that names lead to. Nothing needs to be there. -/
def follow (t : FileTree) (place : Location) : List String → Except IoError Location
  | [] => .ok place
  | name :: rest =>
      match t.entry? place with
      | some .directory => t.follow (next place name) rest
      | some _ => .error (.system .notDirectory)
      | none => .error (.system .noEntry)

def locate (t : FileTree) (path : String) : Except IoError Location :=
  t.follow (if path.startsWith "/" then [] else t.working) (path.splitOn "/")

def find (t : FileTree) (path : String) : Except IoError Entry := do
  match t.entry? (← t.locate path) with
  | some entry => return entry
  | none => throw (.system .noEntry)

/-- Puts something at the end of a path where nothing is yet. -/
def add (t : FileTree) (path : String) (entry : Entry) : Except IoError FileTree := do
  let place ← t.locate path
  match t.entry? place with
  | some _ => throw (.system .addressInUse)
  | none => return { t with entries := (place, entry) :: t.entries }

/-- Removes what is at the end of a path. Directories are not removed. -/
def remove (t : FileTree) (path : String) : Except IoError FileTree := do
  let place ← t.locate path
  match t.entry? place with
  | none => throw (.system .noEntry)
  | some .directory => throw (.system .isDirectory)
  | some _ => return { t with entries := t.entries.filter fun entry => entry.1 ≠ place }

end FileTree

end Reactor.LocalNet
