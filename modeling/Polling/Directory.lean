import Std.Data.ExtTreeMap

namespace Polling

inductive DirectoryEntry where
  | text (content : String)
  /-- A file whose bytes are not UTF-8. -/
  | binary
  | directory
deriving DecidableEq, Repr

def DirectoryEntry.ofBytes (bytes : List UInt8) : DirectoryEntry :=
  match String.fromUTF8? ⟨bytes.toArray⟩ with
  | some content => .text content
  | none => .binary

/-- A directory at a path, with all that is in it and below. The place of an entry is the list of
the names that lead to it. -/
structure Directory where
  path : String
  entries : Std.ExtTreeMap (List String) DirectoryEntry := ∅

namespace Directory

/-- The path of what a path in the directory names. An absolute path stands for itself. -/
def pathOf (d : Directory) (path : String) : String :=
  if path.startsWith "/" then path else d.path ++ "/" ++ path

def names (d : Directory) : List String :=
  d.entries.keys.filterMap fun
    | [name] => some name
    | _ => none

def IsDirectory (d : Directory) (place : List String) : Prop :=
  place = [] ∨ d.entries[place]? = some .directory

instance (d : Directory) (place : List String) : Decidable (d.IsDirectory place) :=
  inferInstanceAs (Decidable (_ ∨ _))

/-- Goes from a place along the parts of a path. Every part needs a directory to start from: an
empty part and one dot stay in it, two dots lead up from it, but never out of the whole, and a name
leads down, be it taken or not. -/
def walk? (d : Directory) (place : List String) : List String → Option (List String)
  | [] => some place
  | part :: parts =>
    if ¬ d.IsDirectory place then none
    else if part = "" ∨ part = "." then d.walk? place parts
    else if part = ".." then if place = [] then none else d.walk? place.dropLast parts
    else d.walk? (place ++ [part]) parts

def parts? (path : String) : Option (List String) :=
  if path.startsWith "/" then none else some (path.splitOn "/")

def place? (d : Directory) (path : String) : Option (List String) := do
  d.walk? [] (← parts? path)

def read (d : Directory) (path : String) : Except String String :=
  match d.place? path with
  | none => .error "no such file"
  | some place =>
    if d.IsDirectory place then .error "a directory"
    else match d.entries[place]? with
      | some (.text content) => .ok content
      | some _ => .error "not a text"
      | none => .error "no such file"

/-- Puts a file into the directory, unless a directory has its place. -/
def put (d : Directory) (path : String) (entry : DirectoryEntry) : Directory :=
  match d.place? path with
  | none => d
  | some place =>
    if d.IsDirectory place then d else { d with entries := d.entries.insert place entry }

def remove (d : Directory) (path : String) : Directory :=
  match d.place? path with
  | none => d
  | some place =>
    if d.IsDirectory place then d else { d with entries := d.entries.erase place }

def makeAt (d : Directory) (place : List String) : Directory :=
  if d.IsDirectory place then d else { d with entries := d.entries.insertIfNew place .directory }

/-- Makes the directory that a path names and those on the way to it, as far as no file has the
place of one of them. -/
def makeDirectory (d : Directory) (path : String) : Directory :=
  match parts? path with
  | none => d
  | some parts =>
    (List.range parts.length).foldl (fun d n =>
      match d.walk? [] (parts.take (n + 1)) with
      | none => d
      | some place => d.makeAt place) d

def aside (place : List String) : List String :=
  place.dropLast ++ ["." ++ place.getLast?.getD "" ++ ".tmp"]

/-- Replaces the text of a file, which need not be there. It fails if a directory has the place
aside, and then nothing changes, or if one has the place itself, and then nothing is left aside. -/
def replace (d : Directory) (path content : String) : Except String Unit × Directory :=
  match d.place? path with
  | none => (.error "no such place", d)
  | some place =>
    if d.IsDirectory (aside place) then (.error "a directory is in the way", d)
    else
      let written := { d with entries := d.entries.erase (aside place) }
      if d.IsDirectory place then (.error "the place is a directory", written)
      else (.ok (), { written with entries := written.entries.insert place (.text content) })

/-- Where a path leads depends on the directories only. -/
theorem walk?_congr {d e : Directory} (h : ∀ place, d.IsDirectory place ↔ e.IsDirectory place)
    (place parts : List String) : d.walk? place parts = e.walk? place parts := by
  induction parts generalizing place with
  | nil => rfl
  | cons part parts ih => simp only [walk?, h, ih]

/-- The same for a whole path. -/
theorem place?_congr {d e : Directory} (h : ∀ place, d.IsDirectory place ↔ e.IsDirectory place)
    (path : String) : d.place? path = e.place? path := by
  simp only [place?, walk?_congr h]

/-- A file that comes is no directory gained. -/
theorem isDirectory_insert_text {d : Directory} {place : List String} (content : String)
    (h : ¬ d.IsDirectory place) (other : List String) :
    IsDirectory { d with entries := d.entries.insert place (.text content) } other ↔
      d.IsDirectory other := by
  simp only [IsDirectory, not_or] at h ⊢
  rw [Std.ExtTreeMap.getElem?_insert]
  by_cases hp : place = other
  · subst hp
    simp [h]
  · simp [hp]

/-- A file that goes is no directory lost. -/
theorem isDirectory_erase {d : Directory} {place : List String} (h : ¬ d.IsDirectory place)
    (other : List String) :
    IsDirectory { d with entries := d.entries.erase place } other ↔ d.IsDirectory other := by
  simp only [IsDirectory, not_or] at h ⊢
  rw [Std.ExtTreeMap.getElem?_erase]
  by_cases hp : place = other
  · subst hp
    simp [h]
  · simp [hp]

/-- A replaced file reads as its new text. -/
theorem read_replace {d e : Directory} {path content : String}
    (h : d.replace path content = (.ok (), e)) : e.read path = .ok content := by
  unfold replace at h
  split at h
  · simp at h
  · next place hplace =>
    split at h
    · simp at h
    · next ha =>
      split at h
      · simp at h
      · next hp =>
        simp only [Prod.mk.injEq, true_and] at h
        subst h
        -- Neither the file aside nor the new one makes a directory or takes one away.
        have hw := mt (isDirectory_erase ha place).1 hp
        have hd := fun other => (isDirectory_insert_text content hw other).trans
          (isDirectory_erase ha other)
        have hq := (place?_congr hd path).trans hplace
        unfold read
        rw [hq]
        simp [mt (hd place).1 hp]

end Directory

end Polling
