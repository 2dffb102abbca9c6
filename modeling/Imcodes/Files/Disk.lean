import Imcodes.Files.Below

/-!
# Disks

A disk answers requests by its file system, but it refuses some, whatever is there: a process may
have no right to look at a place or to read it.

* `perform_isRead` — what only reads changes nothing.
* `Shows.lstat_answer`, `Shows.readdir_answer`, `Shows.readFile_answer` — what is found below a
  directory where nothing is refused.
-/

namespace Files

open Posix (Name IsName Path)

/-- The answer to a request that fails. -/
def FileRequest.fail (e : Errno) : (request : FileRequest) → request.Answer
  | realpath _ => .error e
  | lstat _ => .error e
  | mkdir _ => .error e
  | mkdirp _ => .error e
  | writeNew _ => .error e
  | readdir _ => .error e
  | readFile _ => .error e

structure Disk where
  files : FileSystem
  /-- What a request fails with, whatever is there. -/
  refused : FileRequest → Option Errno

namespace Disk

/-- A disk answers a request. -/
def perform (request : FileRequest) (disk : Disk) : request.Answer × Disk :=
  match disk.refused request with
  | some e => (request.fail e, disk)
  | none =>
    ((FileSystem.perform request disk.files).1,
      { disk with files := (FileSystem.perform request disk.files).2 })

variable {disk : Disk} {base : Path} {names : List Name}

theorem perform_isRead (request : FileRequest) (disk : Disk) (h : request.IsRead) :
    (perform request disk).2 = disk := by
  unfold perform
  split
  · rfl
  · dsimp only
    rw [FileSystem.perform_isRead request disk.files h]

@[simp] theorem perform_lstat_snd (path : Path) : (perform (.lstat path) disk).2 = disk :=
  perform_isRead _ _ trivial

@[simp] theorem perform_readdir_snd (path : Path) : (perform (.readdir path) disk).2 = disk :=
  perform_isRead _ _ trivial

@[simp] theorem perform_readFile_snd (path : Path) : (perform (.readFile path) disk).2 = disk :=
  perform_isRead _ _ trivial

/-- What is not refused is answered by the file system. -/
theorem perform_answer {request : FileRequest} (h : disk.refused request = none) :
    (perform request disk).1 = (FileSystem.perform request disk.files).1 := by
  unfold perform
  rw [h]

/-- No look at what is at a path or below it is refused, and no reading of it. -/
structure Readable (disk : Disk) (base : Path) : Prop where
  lstat : ∀ names, (∀ name ∈ names, IsName name) →
    disk.refused (.lstat (FileSystem.placeBelow base names)) = none
  readdir : ∀ names, (∀ name ∈ names, IsName name) →
    disk.refused (.readdir (FileSystem.placeBelow base names)) = none
  readFile : ∀ names, (∀ name ∈ names, IsName name) →
    disk.refused (.readFile (FileSystem.placeBelow base names)) = none

/-- A path that leads to a directory, and nothing there or below it is refused. -/
structure Shows (disk : Disk) (base : Path) (here : List Name) : Prop where
  stands : FileSystem.Stands disk.files base here
  readable : disk.Readable base

namespace Shows

variable {here : List Name} {name : Name} {node : Node}

theorem lstat_answer (h : disk.Shows base here)
    (hnode : disk.files.node? (here ++ (names ++ [name])) = some node) :
    (perform (.lstat (base.join (names ++ [name]))) disk).1 = .ok node := by
  have hanswer := h.readable.lstat _ (FileSystem.isName_of_below hnode)
  rw [FileSystem.placeBelow_concat] at hanswer
  rw [perform_answer hanswer]
  exact h.stands.lstat hnode

theorem readFile_answer {bytes : List UInt8} (h : disk.Shows base here)
    (hnode : disk.files.node? (here ++ (names ++ [name])) = some (.file bytes)) :
    (perform (.readFile (base.join (names ++ [name]))) disk).1 = .ok bytes := by
  have hanswer := h.readable.readFile _ (FileSystem.isName_of_below hnode)
  rw [FileSystem.placeBelow_concat] at hanswer
  rw [perform_answer hanswer]
  exact h.stands.readFile hnode

theorem readdir_answer (h : disk.Shows base here)
    (hnode : disk.files.node? (here ++ names) = some .directory) :
    (perform (.readdir (FileSystem.placeBelow base names)) disk).1 =
      .ok (disk.files.children (here ++ names)) := by
  rw [perform_answer (h.readable.readdir _ (FileSystem.isName_of_below hnode))]
  exact h.stands.readdir hnode

end Shows

end Disk

end Files
