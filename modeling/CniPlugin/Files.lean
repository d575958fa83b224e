import CniPlugin.Text.Split
import CniPlugin.Text.Utf8
/-!
# Files

The files that a process can reach, and what happens when bytes are appended to one of them.  A path
is walked component by component, from the root if it starts with a slash and from the working
directory otherwise; the file is created if only it is missing.

There may be room for so many more bytes only.  An append that finds too little room has then
created the file if it was missing, and has stored the part that fits.

Left out are permissions, links, and what other processes do to the files.  Of the devices there is
only the full one; the null device and all others are left out, so there is nothing at their paths,
and an append to one creates a file there.

Results: `find?_put_self` and `find?_put_of_ne` (storing a file changes that file and no other), and
`append_fault_of_unlimited` (without a limit the bytes have no part in whether an append fails).
-/

namespace CniPlugin

inductive Node where
  | file (content : Bytes)
  | directory
  /-- A device that can be opened and has room for nothing. -/
  | full
  deriving DecidableEq, Repr

/-- Why a line could not be appended. -/
inductive FileFault where
  | notFound
  | notDirectory
  | isDirectory
  | noSpace
  | nameTooLong
  | nulInPath
  deriving DecidableEq, Repr

def FileFault.message : FileFault → String
  | .notFound => "No such file or directory (os error 2)"
  | .notDirectory => "Not a directory (os error 20)"
  | .isDirectory => "Is a directory (os error 21)"
  | .noSpace => "No space left on device (os error 28)"
  | .nameTooLong => "File name too long (os error 36)"
  | .nulInPath => "file name contained an unexpected NUL byte"

/-- Components from the root on. -/
abbrev Location := List String

/-- What is there from the start: the directory of the devices with the full one. -/
def Files.devices : List (Location × Node) := [(["dev"], .directory), (["dev", "full"], .full)]

/-- The working directory, which is there with all directories above it, and what else is there. -/
structure Files where
  working : Location := []
  entries : List (Location × Node) := Files.devices
  /-- How many more bytes all files take together, if there is a limit. -/
  room : Option Nat := none
  deriving DecidableEq, Repr

namespace Files

/-- The entry of a location. -/
def findEntry (location : Location) : List (Location × Node) → Option Node
  | [] => none
  | (l, n) :: entries => if location = l then some n else findEntry location entries

/-- What is at a location. -/
def find? (files : Files) (location : Location) : Option Node :=
  match findEntry location files.entries with
  | some node => some node
  | none => if location.isPrefixOf files.working then some .directory else none

/-- Replaces the entry of a location, or adds one at the end. -/
def putEntry (location : Location) (node : Node) :
    List (Location × Node) → List (Location × Node)
  | [] => [(location, node)]
  | (l, n) :: entries =>
    if location = l then (location, node) :: entries else (l, n) :: putEntry location node entries

/-- Stores something at a location. -/
def put (files : Files) (location : Location) (node : Node) : Files :=
  { files with entries := putEntry location node files.entries }

theorem findEntry_putEntry_self (location : Location) (node : Node)
    (entries : List (Location × Node)) :
    findEntry location (putEntry location node entries) = some node := by
  induction entries with
  | nil => simp [putEntry, findEntry]
  | cons e es ih =>
    by_cases h : location = e.1
    · simp [putEntry, h, findEntry]
    · simp [putEntry, h, findEntry, ih]

theorem findEntry_putEntry_of_ne {location other : Location} (h : other ≠ location) (node : Node)
    (entries : List (Location × Node)) :
    findEntry other (putEntry location node entries) = findEntry other entries := by
  induction entries with
  | nil => simp [putEntry, findEntry, h]
  | cons e es ih =>
    obtain ⟨l, n⟩ := e
    by_cases hl : location = l
    · subst hl
      simp [putEntry, findEntry, h]
    · simp [putEntry, hl, findEntry, ih]

/-- Storing something changes what is found at its location … -/
theorem find?_put_self (files : Files) (location : Location) (node : Node) :
    (files.put location node).find? location = some node := by
  simp [find?, put, findEntry_putEntry_self]

/-- … and nowhere else. -/
theorem find?_put_of_ne (files : Files) {location other : Location} (h : other ≠ location)
    (node : Node) : (files.put location node).find? other = files.find? other := by
  simp [find?, put, findEntry_putEntry_of_ne h]

/-! ## Paths -/

/-- The longest component, in bytes. -/
def longestName : Nat := 255

/-- The longest path, in bytes. -/
def longestPath : Nat := 4095

/-- Goes from one directory to another.  The root is above itself. -/
def enter (files : Files) (here : Location) (name : String) : Except FileFault Location :=
  if name = "." then .ok here
  else if name = ".." then .ok here.dropLast
  else if longestName < name.utf8ByteSize then .error .nameTooLong
  else
    match files.find? (here ++ [name]) with
    | none => .error .notFound
    | some .directory => .ok (here ++ [name])
    | some (.file _) | some .full => .error .notDirectory

/-- Walks through directories. -/
def walk (files : Files) (here : Location) : List String → Except FileFault Location
  | [] => .ok here
  | name :: names =>
    match files.enter here name with
    | .error e => .error e
    | .ok there => files.walk there names

/-- What can be opened for appending: a file with what it holds so far, or the full device. -/
inductive Target where
  | file (location : Location) (content : Bytes)
  | full
  deriving DecidableEq, Repr

/-- Opens what has a name in a directory; a file that is missing is empty. -/
def openIn (files : Files) (here : Location) (name : String) : Except FileFault Target :=
  if name = "." ∨ name = ".." then .error .isDirectory
  else if longestName < name.utf8ByteSize then .error .nameTooLong
  else
    match files.find? (here ++ [name]) with
    | none => .ok (.file (here ++ [name]) [])
    | some (.file content) => .ok (.file (here ++ [name]) content)
    | some .full => .ok .full
    | some .directory => .error .isDirectory

/-- Opens a path for appending. -/
def openPath (files : Files) (path : String) : Except FileFault Target :=
  let names := (Text.splitString '/' path).filter (· ≠ "")
  let start := if path.toList.head? = some '/' then [] else files.working
  if '\x00' ∈ path.toList then .error .nulInPath
  else if path = "" then .error .notFound
  else if longestPath < path.utf8ByteSize then .error .nameTooLong
  else
    match files.walk start names.dropLast with
    | .error e => .error e
    | .ok here =>
      if path.toList.getLast? = some '/' then .error .isDirectory
      else files.openIn here (names.getLastD ".")

/-! ## Appending -/

/-- How many of so many bytes still fit. -/
def fitting (files : Files) (wanted : Nat) : Nat :=
  match files.room with
  | none => wanted
  | some room => min wanted room

/-- Stores the bytes that fit behind what a file holds. -/
def extend (files : Files) (location : Location) (content bytes : Bytes) : Files :=
  { files.put location (.file (content ++ bytes.take (files.fitting bytes.length))) with
    room := files.room.map (· - bytes.length) }

/-- Appends bytes to the file with a path: why it failed, if it did, and the files afterwards.  What
has been stored before it failed stays there. -/
def append (files : Files) (path : String) (bytes : Bytes) : Option FileFault × Files :=
  match files.openPath path with
  | .error e => (some e, files)
  | .ok .full => (if bytes = [] then none else some .noSpace, files)
  | .ok (.file location content) =>
    let failure := if files.fitting bytes.length < bytes.length then some .noSpace else none
    (failure, files.extend location content bytes)

theorem fitting_of_unlimited {files : Files} (h : files.room = none) (wanted : Nat) :
    files.fitting wanted = wanted := by
  rw [fitting, h]

theorem fitting_of_limited {files : Files} {room : Nat} (h : files.room = some room)
    (wanted : Nat) : files.fitting wanted = min wanted room := by
  rw [fitting, h]

/-- Without a limit the bytes have no part in whether an append fails. -/
theorem append_fault_of_unlimited {files : Files} (h : files.room = none) (path : String)
    {bytes other : Bytes} (hb : bytes ≠ []) (ho : other ≠ []) :
    (files.append path bytes).1 = (files.append path other).1 := by
  unfold append
  split
  · rfl
  · simp only [if_neg hb, if_neg ho]
  · simp only [fitting_of_unlimited h, Nat.lt_irrefl, if_false]

end Files
end CniPlugin
