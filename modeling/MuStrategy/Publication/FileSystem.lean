import Mathlib
import MuStrategy.Lib.Program

/-!
# The files of an artifact

The publisher of strategy artifacts works on one directory with system calls: this module says what they do. A
directory entry names an inode, two entries may name the same one, and an open file keeps its inode.

* `ArtifactFile` — the names the publisher uses beside each other; `FileSystem` — entries, contents and directories.
* `FsOp`, `perform` — the calls and what they do; `Act` — a call that may also fail; `During` — a call cut short.
-/

namespace MuStrategy.Publication

open Lib

/-- The files of one artifact path. Source: `strategy_artifact_publication.py`
`strategy_artifact_pending_marker_path`, `strategy_artifact_commit_witness_path`, and the names
`.{name}.{uuid}.tmp` of temporary files. -/
inductive ArtifactFile where
  | final
  | pendingMarker
  | commitWitness
  | temporary (uuid : ℕ)
  deriving DecidableEq

/-- The subclasses of `OSError` that the publisher tells apart. -/
inductive OsError where
  | fileNotFound
  | fileExists
  | other
  deriving DecidableEq

/-- `os.stat_result`: the fields that are read. -/
structure FileStatus where
  inode : ℕ
  links : ℕ
  isRegular : Bool

/-- The directory of the artifact, and the directories above it: those of levels up to `depth` exist, and level `0` is
the root. Inodes are numbered in the order of their creation. -/
structure FileSystem where
  entries : List (ArtifactFile × ℕ) := []
  contents : List ByteArray := []
  depth : ℕ := 0

namespace FileSystem

variable (fs : FileSystem)

/-- The inode of a name. -/
def entry (name : ArtifactFile) : Option ℕ := (fs.entries.find? fun e => e.1 = name).map Prod.snd

/-- `st_nlink`. -/
def links (inode : ℕ) : ℕ := fs.entries.countP fun e => e.2 = inode

/-- The bytes of an inode. -/
def content (inode : ℕ) : ByteArray := fs.contents.getD inode ByteArray.empty

/-- The status of an inode. Every file is created by `open`, so it is a regular one. -/
def status (inode : ℕ) : FileStatus := ⟨inode, fs.links inode, true⟩

/-- A name for an inode. -/
def bindName (name : ArtifactFile) (inode : ℕ) : FileSystem := { fs with entries := fs.entries ++ [(name, inode)] }

/-- A name is removed. -/
def unbindName (name : ArtifactFile) : FileSystem := { fs with entries := fs.entries.filter fun e => e.1 ≠ name }

/-- A new empty file. -/
def addFile (name : ArtifactFile) : FileSystem :=
  { (fs.bindName name fs.contents.length) with contents := fs.contents ++ [ByteArray.empty] }

/-- Bytes written at the end of a file. -/
def extend (inode : ℕ) (bytes : ByteArray) : FileSystem :=
  { fs with contents := fs.contents.modify inode (· ++ bytes) }

/-- The bytes of a name. -/
def bytesOf (name : ArtifactFile) : Option ByteArray := (fs.entry name).map fs.content

end FileSystem

namespace FileSystem

variable {fs : FileSystem} {name name' : ArtifactFile} {inode inode' : ℕ} {bytes : ByteArray}

lemma entry_bindName (h : fs.entry name = none) :
    (fs.bindName name inode).entry name' = if name' = name then some inode else fs.entry name' := by
  rw [entry, Option.map_eq_none_iff] at h
  simp only [entry, bindName, List.find?_append, List.find?_cons, List.find?_nil]
  by_cases hname : name' = name
  · subst hname
    simp [h]
  · rw [if_neg hname, decide_eq_false (Ne.symm hname), Option.or_none]

lemma entry_unbindName : (fs.unbindName name).entry name' = if name' = name then none else fs.entry name' := by
  simp only [entry, unbindName, List.find?_filter]
  by_cases hname : name' = name
  · subst hname
    simp
  · rw [if_neg hname]
    congr 2
    funext e
    by_cases he : e.1 = name'
    · simp [he, hname]
    · simp [he]

@[simp] lemma entry_addFile (h : fs.entry name = none) :
    (fs.addFile name).entry name' = if name' = name then some fs.contents.length else fs.entry name' :=
  entry_bindName h

@[simp] lemma entry_extend : (fs.extend inode bytes).entry name = fs.entry name := rfl

lemma length_extend : (fs.extend inode bytes).contents.length = fs.contents.length := List.length_modify _ _ _

lemma content_extend_of_ne (h : inode' ≠ inode) : (fs.extend inode bytes).content inode' = fs.content inode' := by
  simp only [content, extend, List.getD_eq_getElem?_getD, List.getElem?_modify, if_neg (Ne.symm h)]
  cases fs.contents[inode']? <;> rfl

lemma content_extend_self (h : inode < fs.contents.length) :
    (fs.extend inode bytes).content inode = fs.content inode ++ bytes := by
  simp only [content, extend, List.getD_eq_getElem?_getD, List.getElem?_modify, List.getElem?_eq_getElem h]
  rfl

lemma length_addFile : (fs.addFile name).contents.length = fs.contents.length + 1 := List.length_append

lemma content_addFile (h : inode < fs.contents.length) : (fs.addFile name).content inode = fs.content inode := by
  simp only [content, addFile, List.getD_eq_getElem?_getD, List.getElem?_append_left h]

lemma content_addFile_self : (fs.addFile name).content fs.contents.length = ByteArray.empty := by
  simp [content, addFile, List.getD_eq_getElem?_getD]

end FileSystem

/-! ## Calls -/

/-- The calls of the publisher. Directories are given by their level. -/
inductive FsOp where
  | lstat (name : ArtifactFile)
  | openFile (name : ArtifactFile) (update : Bool)
  | create (name : ArtifactFile)
  | fstat (handle : ℕ)
  | read (handle : ℕ)
  | write (handle : ℕ) (bytes : ByteArray)
  | flush (handle : ℕ)
  | fsync (handle : ℕ)
  | close (handle : ℕ)
  | link (source target : ArtifactFile)
  | unlink (name : ArtifactFile)
  | isDir (level : ℕ)
  | mkdir (level : ℕ)
  | resolve (level : ℕ)
  | fsyncDirectory (level : ℕ)

/-- What a call returns. A handle is the inode it opened. -/
abbrev FsOp.Value : FsOp → Type
  | .lstat _ | .fstat _ => FileStatus
  | .openFile _ _ | .create _ | .write _ _ => ℕ
  | .read _ => ByteArray
  | .isDir _ => Bool
  | .flush _ | .fsync _ | .close _ | .link _ _ | .unlink _ | .mkdir _ | .resolve _ | .fsyncDirectory _ => Unit

/-- A call returns or raises `OSError`. -/
abbrev FsOp.Reply (op : FsOp) : Type := Except OsError op.Value

/-- The calls without faults, in a directory of level `parent`. -/
def perform (parent : ℕ) : (op : FsOp) → FileSystem → op.Reply × FileSystem
  | .lstat name, fs =>
      match fs.entry name with
      | some inode => (.ok (fs.status inode), fs)
      | none => (.error .fileNotFound, fs)
  | .openFile name _, fs =>
      match fs.entry name with
      | some inode => (.ok inode, fs)
      | none => (.error .fileNotFound, fs)
  | .create name, fs =>
      match fs.entry name with
      | some _ => (.error .fileExists, fs)
      | none => if fs.depth < parent then (.error .fileNotFound, fs) else (.ok fs.contents.length, fs.addFile name)
  | .fstat handle, fs => (.ok (fs.status handle), fs)
  | .read handle, fs => (.ok (fs.content handle), fs)
  | .write handle bytes, fs => (.ok bytes.size, fs.extend handle bytes)
  | .flush _, fs | .fsync _, fs | .close _, fs => (.ok (), fs)
  | .link source target, fs =>
      match fs.entry source, fs.entry target with
      | none, _ => (.error .fileNotFound, fs)
      | some _, some _ => (.error .fileExists, fs)
      | some inode, none => (.ok (), fs.bindName target inode)
  | .unlink name, fs =>
      match fs.entry name with
      | some _ => (.ok (), fs.unbindName name)
      | none => (.error .fileNotFound, fs)
  | .isDir level, fs => (.ok (decide (level ≤ fs.depth)), fs)
  | .mkdir level, fs =>
      if level ≤ fs.depth then (.error .fileExists, fs)
      else if level = fs.depth + 1 then (.ok (), { fs with depth := level })
      else (.error .fileNotFound, fs)
  | .resolve level, fs | .fsyncDirectory level, fs =>
      if level ≤ fs.depth then (.ok (), fs) else (.error .fileNotFound, fs)

/-- A write that was cut short left a part of its bytes. -/
inductive During : FsOp → FileSystem → FileSystem → Prop where
  | write {handle : ℕ} {bytes : ByteArray} {fs : FileSystem} (count : ℕ) :
      During (.write handle bytes) fs (fs.extend handle (bytes.extract 0 count))

/-- A call is carried out, or it raises an `OSError` without effect, or a write stops early. -/
inductive Act (parent : ℕ) : (op : FsOp) → FileSystem → op.Reply → FileSystem → Prop where
  | done {op : FsOp} {fs : FileSystem} : Act parent op fs (perform parent op fs).1 (perform parent op fs).2
  | fault {op : FsOp} {fs : FileSystem} (error : OsError) : Act parent op fs (.error error) fs
  | short {handle : ℕ} {bytes : ByteArray} {fs : FileSystem} (count : ℕ) (reply : (FsOp.write handle bytes).Reply) :
      Act parent (.write handle bytes) fs reply (fs.extend handle (bytes.extract 0 count))

end MuStrategy.Publication
