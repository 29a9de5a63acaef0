import Templating.Path
import Templating.Text.Utf8

/-!
# File trees

A file system as a value: files and directories by the names that lead to them from the root, and a
working directory. Every write carries a new stamp, so a rewritten file can be told from the old one.
Paths are resolved name by name; a file has nothing below it.

A tree has no links, no owners or permissions and no end of its room: an entry has one name, what is there
can be looked at, and what there is a place for can be made or removed. What goes wrong while a file is
written does not show in a tree, so it is told to the write. Nor does a tree know where bare names of
programs are looked for; that is up to the one who starts them.
-/

namespace Templating

inductive FileError
  | notFound
  | permissionDenied
  | exists
  | notADirectory
  | isADirectory
  | nameTooLong
  | zeroInName
  | zeroInArgument
  | notText
  | notAFile
  /-- What the system reports of its own, such as a full disk. -/
  | system (report : String)
deriving DecidableEq, Repr

def FileError.message : FileError → String
  | .notFound => "No such file or directory (os error 2)"
  | .permissionDenied => "Permission denied (os error 13)"
  | .exists => "File exists (os error 17)"
  | .notADirectory => "Not a directory (os error 20)"
  | .isADirectory => "Is a directory (os error 21)"
  | .nameTooLong => "File name too long (os error 36)"
  | .zeroInName => "file name contained an unexpected NUL byte"
  | .zeroInArgument => "nul byte found in provided data"
  | .notText => "stream did not contain valid UTF-8"
  | .notAFile => "the source path is neither a regular file nor a symlink to a regular file"
  | .system report => report

inductive FileTree.Entry
  | file (bytes : ByteArray) (stamp : Nat)
  | directory

/-- The names from the root. The root itself is always a directory. -/
structure FileTree where
  entries : List (List String × FileTree.Entry) := []
  workingDirectory : List String := []
  clock : Nat := 0

/-- What goes wrong with a file that is written. -/
structure WriteFault where
  error : FileError
  /-- How many bytes were down by then. Without a number the file could not even be opened. -/
  written : Option Nat

/-- A write that failed, with what it leaves of the files. -/
structure FailedWrite where
  error : FileError
  files : FileTree

namespace FileTree

/-- Where a path leads: to an entry, or to a free name in an existing directory. -/
inductive Place
  | entry (names : List String) (e : Entry)
  | vacant (names : List String)

def lookup (t : FileTree) (names : List String) : Option Entry :=
  if names.isEmpty then some .directory
  else (t.entries.find? (·.1 == names)).map (·.2)

def walk (t : FileTree) (names : List String) (e : Entry) : List String → Except FileError Place
  | [] => .ok (.entry names e)
  | p :: ps =>
    match e with
    | .file .. => .error .notADirectory
    | .directory =>
      if p = "" ∨ p = "." then walk t names e ps
      else if p = ".." then walk t names.dropLast .directory ps
      else if 255 < p.utf8ByteSize then .error .nameTooLong
      else match t.lookup (names ++ [p]) with
        | some child => walk t (names ++ [p]) child ps
        | none =>
          if ps.all (· = "") then .ok (.vacant (names ++ [p])) else .error .notFound

/-- The names of a path, if it has any that can be looked up. -/
def names (p : Path) : Except FileError (List String) :=
  if p.text.isEmpty then .error .notFound
  else if '\x00' ∈ p.text.toList then .error .zeroInName
  else .ok (Text.split p.text '/')

/-- The names of a path that is short enough to be looked up in one go. -/
def steps (p : Path) : Except FileError (List String) :=
  match names p with
  | .ok names => if 4095 < p.text.utf8ByteSize then .error .nameTooLong else .ok names
  | .error e => .error e

/-- The directory that a path starts from. -/
def origin (t : FileTree) (p : Path) : List String :=
  if p.isAbsolute then [] else t.workingDirectory

def resolve (t : FileTree) (p : Path) : Except FileError Place :=
  match steps p with
  | .ok names => t.walk (t.origin p) .directory names
  | .error e => .error e

/-- The absolute path of an entry. -/
def pathOf (names : List String) : Path :=
  ⟨if names.isEmpty then "/" else String.join (names.map ("/" ++ ·))⟩

def entry? (t : FileTree) (p : Path) : Option Entry :=
  match t.resolve p with
  | .ok (.entry _ e) => some e
  | _ => none

def isFile (t : FileTree) (p : Path) : Bool :=
  match t.entry? p with
  | some (.file ..) => true
  | _ => false

def isDirectory (t : FileTree) (p : Path) : Bool :=
  match t.entry? p with
  | some .directory => true
  | _ => false

def exists? (t : FileTree) (p : Path) : Bool :=
  (t.entry? p).isSome

/-- The path from the root, without dots. It is found name by name, however long the path is. -/
def canonical? (t : FileTree) (p : Path) : Option Path :=
  match names p with
  | .error _ => none
  | .ok names =>
    match t.walk (t.origin p) .directory names with
    | .ok (.entry names _) => some (pathOf names)
    | _ => none

def canonicalOr (t : FileTree) (p : Path) : Path :=
  (t.canonical? p).getD p

def read (t : FileTree) (p : Path) : Except FileError ByteArray :=
  match t.resolve p with
  | .ok (.entry _ (.file bytes _)) => .ok bytes
  | .ok (.entry _ .directory) => .error .isADirectory
  | .ok (.vacant ..) => .error .notFound
  | .error e => .error e

def readText (t : FileTree) (p : Path) : Except FileError String :=
  match t.read p with
  | .ok bytes => match Text.decode? bytes with
    | some text => .ok text
    | none => .error .notText
  | .error e => .error e

/-- A text file without a byte order mark in front. -/
def readTemplate (t : FileTree) (p : Path) : Except FileError String :=
  (t.readText p).map fun text => (Text.dropPrefix? "\ufeff" text).getD text

def putEntry (names : List String) (e : Entry) :
    List (List String × Entry) → List (List String × Entry)
  | [] => [(names, e)]
  | x :: r => if x.1 = names then (names, e) :: r else x :: putEntry names e r

def put (t : FileTree) (names : List String) (e : Entry) : FileTree :=
  { t with entries := putEntry names e t.entries }

def putFile (t : FileTree) (names : List String) (bytes : ByteArray) : FileTree :=
  { t.put names (.file bytes t.clock) with clock := t.clock + 1 }

/-- What keeps a file from being written to a path with a slash at its end: it has to be that of a
directory, whatever is there, so long as there is a directory to look in. -/
def slashError? (t : FileTree) (p : Path) : Option FileError :=
  match steps p with
  | .error e => some e
  | .ok names =>
    if names.getLast? = some "" then
      let named := (names.reverse.dropWhile (· = "")).tail.reverse
      match t.walk (t.origin p) .directory named with
      | .ok (.entry _ .directory) => some .isADirectory
      | .ok (.entry _ (.file ..)) => some .notADirectory
      | .ok (.vacant ..) => some .notFound
      | .error e => some e
    else none

/-- The names of the file that a path opens to be written, there or not. -/
def opens (t : FileTree) (p : Path) : Except FileError (List String) :=
  match t.slashError? p with
  | some e => .error e
  | none =>
    match t.resolve p with
    | .ok (.entry names (.file ..)) => .ok names
    | .ok (.entry _ .directory) => .error .isADirectory
    | .ok (.vacant names) => .ok names
    | .error e => .error e

/-- What a fault leaves of a file that was to hold these bytes. It is empty once it is open. -/
def broken (t : FileTree) (names : List String) (bytes : ByteArray) (f : WriteFault) : FileTree :=
  match f.written with
  | none => t
  | some n => t.putFile names (bytes.extract 0 n)

/-- Makes these bytes the file at a path. A fault breaks the writing off once the path can be opened. -/
def write (t : FileTree) (p : Path) (bytes : ByteArray) (fault : Option WriteFault := none) :
    Except FailedWrite FileTree :=
  match t.opens p with
  | .error e => .error ⟨e, t⟩
  | .ok names =>
    match fault with
    | none => .ok (t.putFile names bytes)
    | some f => .error ⟨f.error, t.broken names bytes f⟩

def makeDirectory (t : FileTree) (p : Path) : Except FileError FileTree :=
  match t.resolve p with
  | .ok (.entry ..) => .error .exists
  | .ok (.vacant names) => .ok (t.put names .directory)
  | .error e => .error e

/-- Makes a directory that is missing; one that is there already is fine. -/
def ensureDirectory (t : FileTree) (p : Path) : Except FileError FileTree :=
  match t.makeDirectory p with
  | .ok t' => .ok t'
  | .error e => if t.isDirectory p then .ok t else .error e

/-- A path and the paths above it, the topmost first. -/
def ancestry (p : Path) : List Path :=
  let names := p.marks
  names.map fun m => p.upTo m.2

/-- Makes a directory with all that is missing above it. Whatever was made before a failure stays. -/
def makeDirectories (t : FileTree) (p : Path) : FileTree × Option FileError :=
  match t.makeDirectory p with
  | .ok t' => (t', none)
  | .error e =>
    if t.isDirectory p then (t, none)
    else if e = .notFound then
      (ancestry p).foldl (fun (acc : FileTree × Option FileError) q =>
        match acc.2 with
        | some _ => acc
        | none => match acc.1.ensureDirectory q with
          | .ok t' => (t', none)
          | .error e => (acc.1, some e)) (t, none)
    else (t, some e)

/-- Writes to a path what another file holds. -/
def copy (t : FileTree) (source target : Path) (fault : Option WriteFault := none) :
    Except FailedWrite FileTree :=
  match t.read source with
  | .ok bytes => t.write target bytes fault
  | .error .isADirectory => .error ⟨.notAFile, t⟩
  | .error e => .error ⟨e, t⟩

/-- Removes a file, or a directory with all below it. -/
def remove (t : FileTree) (p : Path) : Except FileError FileTree :=
  match t.resolve p with
  | .ok (.entry names _) =>
    .ok { t with entries := t.entries.filter fun x => !names.isPrefixOf x.1 }
  | .ok (.vacant ..) => .error .notFound
  | .error e => .error e

/-! ## Processes -/

/-- What keeps a process from starting in a directory. -/
def enterError? (t : FileTree) (dir : Path) : Option FileError :=
  match t.resolve dir with
  | .ok (.entry _ .directory) => none
  | .ok (.entry _ (.file ..)) => some .notADirectory
  | .ok (.vacant _) => some .notFound
  | .error .zeroInName => some .zeroInArgument
  | .error e => some e

/-- The file that a program's path leads to. A bare name is searched for elsewhere. -/
def program (t : FileTree) (p : Path) (search : String → Except FileError (List String)) :
    Except FileError (List String) :=
  match t.resolve p with
  | .error .zeroInName => .error .zeroInArgument
  | place =>
    if '/' ∉ p.text.toList then
      if p.text = "." ∨ p.text = ".." then .error .permissionDenied else search p.text
    else match place with
      | .ok (.entry names (.file ..)) => .ok names
      | .ok (.entry _ .directory) => .error .permissionDenied
      | .ok (.vacant _) => .error .notFound
      | .error e => .error e

/-! ## Searching -/

/-- A file found below a starting point, with what a glance at it shows. -/
structure Found where
  path : Path
  size : Nat
  stamp : Nat

/-- Every file at or below a path, each under the path as given. -/
def filesUnder (t : FileTree) (p : Path) : List Found :=
  match t.resolve p with
  | .ok (.entry _ (.file bytes stamp)) => [⟨p, bytes.size, stamp⟩]
  | .ok (.entry names .directory) =>
    t.entries.filterMap fun x => match x.2 with
      | .file bytes stamp =>
        if names.isPrefixOf x.1 then
          some ⟨(x.1.drop names.length).foldl (fun q n => q.join ⟨n⟩) p, bytes.size, stamp⟩
        else none
      | .directory => none
  | _ => []

/-- The canonical names of all files. -/
def fileNames (t : FileTree) : List String :=
  t.entries.filterMap fun x => match x.2 with
    | .file .. => some (pathOf x.1).text
    | .directory => none

/-! ## Canonical names -/

theorem mem_of_lookup {t : FileTree} {names : List String} {bytes : ByteArray} {stamp : Nat}
    (h : t.lookup names = some (.file bytes stamp)) : (names, .file bytes stamp) ∈ t.entries := by
  unfold lookup at h
  split at h
  · cases h
  · obtain ⟨x, hx, he⟩ := Option.map_eq_some_iff.1 h
    have hn : x.1 = names := by simpa using List.find?_some hx
    have hm := List.mem_of_find?_eq_some hx
    rwa [← hn, ← he]

/-- A way that ends at a file ends at an entry of the tree. -/
theorem mem_of_walk {t : FileTree} {ps names found : List String} {e : Entry} {bytes : ByteArray}
    {stamp : Nat} (he : t.lookup names = some e ∨ e = .directory)
    (h : t.walk names e ps = .ok (.entry found (.file bytes stamp))) :
    (found, .file bytes stamp) ∈ t.entries := by
  induction ps generalizing names e with
  | nil =>
    simp only [walk, Except.ok.injEq, Place.entry.injEq] at h
    obtain ⟨rfl, rfl⟩ := h
    rcases he with he | he
    · exact mem_of_lookup he
    · cases he
  | cons p ps ih =>
    unfold walk at h
    split at h
    · cases h
    · split at h
      · exact ih (.inr rfl) h
      · split at h
        · exact ih (.inr rfl) h
        · split at h
          · cases h
          · split at h
            · next child hc => exact ih (.inl hc) h
            · split at h <;> cases h

theorem mem_of_resolve {t : FileTree} {p : Path} {names : List String} {bytes : ByteArray}
    {stamp : Nat} (h : t.resolve p = .ok (.entry names (.file bytes stamp))) :
    (names, .file bytes stamp) ∈ t.entries := by
  unfold resolve at h
  split at h
  · exact mem_of_walk (.inr rfl) h
  · cases h

theorem canonical?_of_resolve {t : FileTree} {p : Path} {found : List String} {e : Entry}
    (h : t.resolve p = .ok (.entry found e)) : t.canonical? p = some (pathOf found) := by
  unfold resolve steps at h
  split at h
  · next ns hs =>
    split at hs
    · next ms hm =>
      split at hs
      · cases hs
      · cases hs
        simp only [canonical?, hm, h]
    · cases hs
  · cases h

theorem pathOf_mem_fileNames {t : FileTree} {names : List String} {bytes : ByteArray} {stamp : Nat}
    (h : (names, .file bytes stamp) ∈ t.entries) : (pathOf names).text ∈ t.fileNames :=
  List.mem_filterMap.2 ⟨_, h, rfl⟩

/-- The canonical path of a file is among the names of all files. -/
theorem canonicalOr_mem_fileNames (t : FileTree) {p : Path} (h : t.isFile p) :
    (t.canonicalOr p).text ∈ t.fileNames := by
  unfold isFile entry? at h
  split at h
  · next bytes stamp he =>
    split at he
    · next names e hr =>
      cases he
      simp only [canonicalOr, canonical?_of_resolve hr, Option.getD_some]
      exact pathOf_mem_fileNames (mem_of_resolve hr)
    · cases he
  · cases h

end FileTree

end Templating
