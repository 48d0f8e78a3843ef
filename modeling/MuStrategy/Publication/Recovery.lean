import MuStrategy.Publication.Publish

/-!
# Recovery of an interrupted publication

What each part of the publisher does when it runs alone and without faults, and the recovery followed from every stage
of a publication.

* `alone` — a run without faults; `FileSystem.stage` — the names and files of a stage, beside temporary files that were
  left behind.
* `alone_publish`, `Committed.read`, `Committed.publish` — the entry points.
* `recovers_fresh`, `recovers_marked`, `recovers_installed`, `recovers_witnessed`, `Committed.recovers` — recovery from
  each stage.
-/

namespace MuStrategy.Publication

open Lib Prog

/-! ## Runs of the parts -/

section runs

variable {site : Site} {α β : Type} {fs : FileSystem}

/-- A program that runs alone, without faults. -/
abbrev alone (site : Site) {α : Type} (p : Action α) (fs : FileSystem) : Except Raised α × FileSystem :=
  run (perform site.parent) p fs

@[simp] lemma alone_pure (a : α) : alone site (pure a) fs = (.ok a, fs) := rfl

@[simp] lemma alone_raise (error : Raised) : alone site (raise error : Action α) fs = (.error error, fs) := rfl

lemma alone_fstat (handle : ℕ) : alone site (call (.fstat handle)) fs = (.ok (fs.status handle), fs) := rfl

lemma alone_readBytes (handle : ℕ) : alone site (call (.read handle)) fs = (.ok (fs.content handle), fs) := rfl

lemma alone_write (handle : ℕ) (bytes : ByteArray) :
    alone site (call (.write handle bytes)) fs = (.ok bytes.size, fs.extend handle bytes) := rfl

lemma alone_flush (handle : ℕ) : alone site (call (.flush handle)) fs = (.ok (), fs) := rfl

lemma alone_fsync (handle : ℕ) : alone site (call (.fsync handle)) fs = (.ok (), fs) := rfl

lemma alone_close (handle : ℕ) : alone site (call (.close handle)) fs = (.ok (), fs) := rfl

lemma alone_isDir (level : ℕ) : alone site (call (.isDir level)) fs = (.ok (decide (level ≤ fs.depth)), fs) := rfl

lemma alone_lstat {name : ArtifactFile} {inode : ℕ} (h : fs.entry name = some inode) :
    alone site (call (.lstat name)) fs = (.ok (fs.status inode), fs) := by
  simp only [alone, run, call, perform, h]
  rfl

lemma alone_openFile {name : ArtifactFile} {update : Bool} {inode : ℕ} (h : fs.entry name = some inode) :
    alone site (call (.openFile name update)) fs = (.ok inode, fs) := by
  simp only [alone, run, call, perform, h]
  rfl

lemma alone_attempt_lstat {name : ArtifactFile} {inode : ℕ} (h : fs.entry name = some inode) :
    alone site (attempt (.lstat name)) fs = (.ok (.ok (fs.status inode)), fs) := by
  simp only [alone, run, attempt, perform, h]

lemma alone_attempt_lstat_none {name : ArtifactFile} (h : fs.entry name = none) :
    alone site (attempt (.lstat name)) fs = (.ok (.error .fileNotFound), fs) := by
  simp only [alone, run, attempt, perform, h]

lemma alone_attempt_fstat (handle : ℕ) :
    alone site (attempt (.fstat handle)) fs = (.ok (.ok (fs.status handle)), fs) := rfl

lemma alone_create {name : ArtifactFile} (h : fs.entry name = none) (hdepth : site.parent ≤ fs.depth) :
    alone site (call (.create name)) fs = (.ok fs.contents.length, fs.addFile name) := by
  simp only [alone, run, call, perform, h, if_neg (Nat.not_lt.mpr hdepth)]
  rfl

lemma alone_fsyncDirectory {level : ℕ} (h : level ≤ fs.depth) :
    alone site (call (.fsyncDirectory level)) fs = (.ok (), fs) := by
  simp only [alone, run, call, perform, if_pos h]
  rfl

lemma alone_resolve {level : ℕ} (h : level ≤ fs.depth) : alone site (call (.resolve level)) fs = (.ok (), fs) := by
  simp only [alone, run, call, perform, if_pos h]
  rfl

lemma alone_bind_ok {p : Action α} {t : FileSystem} {a : α} (h : alone site p fs = (.ok a, t)) (f : α → Action β) :
    alone site (p >>= f) fs = alone site (f a) t := run_bind_ok h f

lemma alone_catch {p : Action α} {t : FileSystem} {a : α} (h : alone site p fs = (.ok a, t)) (f : OsError → Action α) :
    alone site (catchOsError p f) fs = (.ok a, t) := by
  rw [catchOsError, alone, run_handle, show run (perform site.parent) p fs = (.ok a, t) from h]

@[simp] lemma alone_check (condition : Bool) (error : Raised) :
    alone site (check condition error) fs = (if condition then .ok () else .error error, fs) := by
  unfold check
  cases condition <;> rfl

/-- The file of a name. -/
structure HasFile (fs : FileSystem) (name : ArtifactFile) (inode : ℕ) (bytes : ByteArray) : Prop where
  entry : fs.entry name = some inode
  content : fs.content inode = bytes

lemma alone_read {path : ArtifactFile} {label : String} {expected : Option ByteArray} {fsync single : Bool} {inode : ℕ}
    {bytes : ByteArray} (hfile : HasFile fs path inode bytes) (hsingle : single = true → fs.links inode = 1)
    (hexpected : ∀ wanted, expected = some wanted → bytes = wanted) :
    alone site (readIdentityCheckedRegularBytes path label expected fsync single) fs = (.ok bytes, fs) := by
  have hlinks : (!single || fs.links inode = 1) = true := by
    cases single with
    | false => rfl
    | true => simp [hsingle rfl]
  have hall : (expected.all fun wanted => bytes = wanted) = true := by
    cases expected with
    | none => rfl
    | some wanted => simp [hexpected wanted rfl]
  have hsync : alone site (fsyncIf fsync inode) fs = (.ok (), fs) := by
    cases fsync <;> rfl
  simp [readIdentityCheckedRegularBytes, catchOsError, run_handle, readChecked, run_bind, alone_lstat hfile.entry,
    alone_openFile hfile.entry, requireRegularFile, requireSingleLink, withHandle, run_finally, readHandle, alone_fstat inode,
    alone_readBytes inode, alone_close inode, FileSystem.status, hlinks, hfile.content, hall, hsync]

lemma alone_readRecordBytes {path : ArtifactFile} {label : String} {expected : Option ByteArray} {fsync : Bool} {inode : ℕ}
    {bytes : ByteArray} (hfile : HasFile fs path inode bytes) (hexpected : ∀ wanted, expected = some wanted → bytes = wanted) :
    alone site (readRegularPublicationRecordBytes path label expected fsync) fs = (.ok bytes, fs) := by
  have hread : alone site (readIdentityCheckedRegularBytes path label expected fsync false) fs = (.ok bytes, fs) :=
    alone_read hfile (fun h => by cases h) hexpected
  simp [readRegularPublicationRecordBytes, catchOsError, run_handle, hread]

lemma alone_readArtifactBytes {expected : Option ByteArray} {fsync : Bool} {inode : ℕ} {bytes : ByteArray}
    (hfile : HasFile fs .final inode bytes) (hlinks : fs.links inode = 1)
    (hexpected : ∀ wanted, expected = some wanted → bytes = wanted) :
    alone site (readRegularArtifactBytes expected fsync) fs = (.ok bytes, fs) := alone_read hfile (fun _ => hlinks) hexpected

lemma alone_requireIdentical {inode : ℕ} {bytes : ByteArray} (hfile : HasFile fs .final inode bytes)
    (hlinks : fs.links inode = 1) : alone site (requireIdenticalArtifact bytes) fs = (.ok (), fs) := by
  have hread : alone site (readRegularArtifactBytes (some bytes) true) fs = (.ok bytes, fs) :=
    alone_readArtifactBytes hfile hlinks fun _ => Option.some.inj
  simp [requireIdenticalArtifact, run_bind, hread]

lemma alone_pathEntryExists (path : ArtifactFile) :
    alone site (pathEntryExists path) fs = (.ok (fs.entry path).isSome, fs) := by
  cases h : fs.entry path with
  | none => simp [pathEntryExists, run_bind, alone_attempt_lstat_none h]
  | some inode => simp [pathEntryExists, run_bind, alone_attempt_lstat h]

lemma alone_recordExists (path : ArtifactFile) (label : String) :
    alone site (publicationRecordExists path label) fs = (.ok (fs.entry path).isSome, fs) := by
  cases h : fs.entry path with
  | none => simp [publicationRecordExists, run_bind, alone_attempt_lstat_none h]
  | some inode =>
      simp [publicationRecordExists, run_bind, alone_attempt_lstat h, requireRegularFile, FileSystem.status]

lemma alone_rejectPending (h : fs.entry .pendingMarker = none) : alone site rejectPendingMarker fs = (.ok (), fs) := by
  simp [rejectPendingMarker, run_bind, alone_recordExists, h]

/-! ### Writes and directories -/

lemma alone_withHandle {p : Action α} {result : Except Raised α} {t : FileSystem} (handle : ℕ)
    (h : alone site p fs = (result, t)) : alone site (withHandle handle p) fs = (result, t) := by
  simp [withHandle, run_finally, show run (perform site.parent) p fs = (result, t) from h, alone_close handle]

lemma alone_writeHandle (handle : ℕ) (content : ByteArray) :
    alone site (writeHandle handle content) fs = (.ok (), fs.extend handle content) := by
  simp [writeHandle, run_bind, alone_write handle, alone_flush handle, alone_fsync handle]

lemma alone_writeDurably {path : ArtifactFile} (content : ByteArray) (hnone : fs.entry path = none)
    (hdepth : site.parent ≤ fs.depth) :
    alone site (writeBytesDurably path content) fs =
      (.ok (), (fs.addFile path).extend fs.contents.length content) := by
  simp [writeBytesDurably, run_bind, alone_create hnone hdepth, alone_attempt_fstat fs.contents.length, catchOsError,
    run_handle, alone_withHandle _ (alone_writeHandle fs.contents.length content)]

lemma alone_link {source target : ArtifactFile} {inode : ℕ} (hsource : fs.entry source = some inode)
    (htarget : fs.entry target = none) :
    alone site (attempt (.link source target)) fs = (.ok (.ok ()), fs.bindName target inode) := by
  simp only [alone, run, attempt, perform, hsource, htarget]

lemma alone_unlink {name : ArtifactFile} {inode : ℕ} (h : fs.entry name = some inode) :
    alone site (call (.unlink name)) fs = (.ok (), fs.unbindName name) := by
  simp only [alone, run, call, perform, h]
  rfl

lemma alone_unlinkMissingOk (name : ArtifactFile) :
    alone site (unlinkMissingOk name) fs = (.ok (), if (fs.entry name).isSome then fs.unbindName name else fs) := by
  cases h : fs.entry name with
  | none =>
      have hattempt : alone site (attempt (.unlink name)) fs = (.ok (.error .fileNotFound), fs) := by
        simp only [alone, run, attempt, perform, h]
      simp [unlinkMissingOk, run_bind, hattempt]
  | some inode =>
      have hattempt : alone site (attempt (.unlink name)) fs = (.ok (.ok ()), fs.unbindName name) := by
        simp only [alone, run, attempt, perform, h]
      simp [unlinkMissingOk, run_bind, hattempt]

lemma alone_fsyncParent (hdepth : site.parent ≤ fs.depth) : alone site (fsyncParent site) fs = (.ok (), fs) :=
  alone_fsyncDirectory hdepth

lemma alone_fsyncParents (anchor : ℕ) {level : ℕ} (hdepth : level ≤ fs.depth) :
    alone site (fsyncParents anchor level) fs = (.ok (), fs) := by
  induction level with
  | zero => rfl
  | succ level ih =>
      rw [fsyncParents]
      split
      · rfl
      · exact (run_bind_ok (alone_fsyncDirectory (by omega)) _).trans (ih (by omega))

lemma alone_fsyncToAnchor {anchor : ℕ} (hanchor : anchor ≤ site.parent) (hdepth : site.parent ≤ fs.depth) :
    alone site (fsyncDirectoryEntriesToAnchor site anchor) fs = (.ok (), fs) := by
  simp [fsyncDirectoryEntriesToAnchor, run_bind, catchOsError, run_handle, alone_resolve hdepth, hanchor,
    alone_fsyncParents anchor hdepth]

lemma alone_resolveAnchor {anchor : ℕ} (hanchor : anchor ≤ site.parent) (hdepth : anchor ≤ fs.depth) :
    alone site (resolveDurabilityAnchor site (some anchor)) fs = (.ok anchor, fs) := by
  simp [resolveDurabilityAnchor, run_bind, catchOsError, run_handle, alone_resolve hdepth, alone_isDir anchor, hdepth, hanchor]

lemma alone_missingDirectories (level : ℕ) :
    alone site (missingDirectories level) fs = (.ok (level - fs.depth), fs) := by
  induction level with
  | zero => simp [missingDirectories, run_bind, alone_isDir 0]
  | succ level ih =>
      by_cases hdepth : level + 1 ≤ fs.depth
      · simp [missingDirectories, run_bind, alone_isDir (level + 1), hdepth, Nat.sub_eq_zero_of_le hdepth]
      · simp [missingDirectories, run_bind, alone_isDir (level + 1), hdepth, ih, Nat.succ_sub (show fs.depth ≤ level by omega)]

/-- The directories down to a level. -/
def FileSystem.deepen (fs : FileSystem) (level : ℕ) : FileSystem := { fs with depth := max fs.depth level }

lemma deepen_eq {level : ℕ} (h : level ≤ fs.depth) : fs.deepen level = fs := by
  cases fs
  simp only [FileSystem.deepen, max_eq_left h]

lemma alone_existing {level : ℕ} (h : level ≤ fs.depth) :
    alone site (attempt (.mkdir level)) fs = (.ok (.error .fileExists), fs) := by
  simp only [alone, run, attempt, perform, if_pos h]

lemma alone_mkdir {level : ℕ} (h : level = fs.depth + 1) :
    alone site (attempt (.mkdir level)) fs = (.ok (.ok ()), fs.deepen level) := by
  simp only [alone, run, attempt, perform, if_neg (show ¬level ≤ fs.depth by omega), if_pos h, FileSystem.deepen,
    max_eq_right (show fs.depth ≤ level by omega)]

lemma alone_mkdir_missing {level : ℕ} (h : fs.depth + 1 < level) :
    alone site (attempt (.mkdir level)) fs = (.ok (.error .fileNotFound), fs) := by
  simp only [alone, run, attempt, perform, if_neg (show ¬level ≤ fs.depth by omega),
    if_neg (show ¬level = fs.depth + 1 by omega)]

lemma alone_existOk {level : ℕ} (error : OsError) (h : level ≤ fs.depth) :
    alone site (existOk level error) fs = (.ok (), fs) := by
  simp [existOk, run_bind, alone_isDir level, h]

lemma alone_mkdirParents (level : ℕ) : alone site (mkdirParents level) fs = (.ok (), fs.deepen level) := by
  induction level with
  | zero =>
      simp [mkdirParents, mkdirExistOk, run_bind, alone_existing (Nat.zero_le fs.depth), alone_existOk _ (Nat.zero_le fs.depth),
        deepen_eq (Nat.zero_le fs.depth)]
  | succ level ih =>
      rcases lt_trichotomy level fs.depth with hlt | heq | hgt
      · simp [mkdirParents, run_bind, alone_existing (Nat.succ_le_of_lt hlt), alone_existOk _ (Nat.succ_le_of_lt hlt),
          deepen_eq (Nat.succ_le_of_lt hlt)]
      · simp [mkdirParents, run_bind, alone_mkdir (show level + 1 = fs.depth + 1 by omega)]
      · have hdeep : (fs.deepen level).depth = level := max_eq_right (by omega)
        have hlast : alone site (attempt (.mkdir (level + 1))) (fs.deepen level) = _ :=
          alone_mkdir (show level + 1 = (fs.deepen level).depth + 1 by omega)
        have hsame : (fs.deepen level).deepen (level + 1) = fs.deepen (level + 1) := by
          simp only [FileSystem.deepen, FileSystem.mk.injEq, true_and]
          omega
        simp [mkdirParents, run_bind, alone_mkdir_missing (show fs.depth + 1 < level + 1 by omega), ih, mkdirExistOk, hlast, hsame]

lemma alone_createParents :
    alone site (createParentDirectories site) fs = (.ok (site.parent - fs.depth), fs.deepen site.parent) := by
  simp [createParentDirectories, run_bind, alone_missingDirectories, alone_mkdirParents]

end runs

/-! ## Stages -/

/-- Only temporary files that other calls left behind. -/
structure Stale (uuid : ℕ) (base : FileSystem) : Prop where
  temporary : ∀ e ∈ base.entries, ∃ j, j ≠ uuid ∧ e.1 = .temporary j
  inode : ∀ e ∈ base.entries, e.2 < base.contents.length

/-- Names and files beside those that were left behind; the new files are numbered from `0`. -/
def FileSystem.stage (base : FileSystem) (names : List (ArtifactFile × ℕ)) (files : List ByteArray) : FileSystem where
  entries := base.entries ++ names.map fun e => (e.1, base.contents.length + e.2)
  contents := base.contents ++ files
  depth := base.depth

section stages

variable {uuid : ℕ} {base : FileSystem} {names : List (ArtifactFile × ℕ)} {files : List ByteArray} {name : ArtifactFile}
  {bytes : ByteArray} {k : ℕ}

lemma Stale.ne (h : Stale uuid base) (hname : ∀ j, j ≠ uuid → name ≠ .temporary j) {e : ArtifactFile × ℕ}
    (he : e ∈ base.entries) : e.1 ≠ name := by
  obtain ⟨j, hj, hej⟩ := h.temporary e he
  exact fun hsame => hname j hj (hsame ▸ hej)

lemma entry_stage (h : Stale uuid base) (hname : ∀ j, j ≠ uuid → name ≠ .temporary j) :
    (base.stage names files).entry name = (names.find? fun e => e.1 = name).map fun e => base.contents.length + e.2 := by
  have hbase : base.entries.find? (fun e => e.1 = name) = none := by
    rw [List.find?_eq_none]
    intro e he
    simpa using h.ne hname he
  simp only [FileSystem.entry, FileSystem.stage, List.find?_append, hbase, Option.none_or, List.find?_map, Option.map_map]
  rfl

lemma content_stage : (base.stage names files).content (base.contents.length + k) = files.getD k ByteArray.empty := by
  rw [FileSystem.content, FileSystem.stage, List.getD_eq_getElem?_getD, List.getD_eq_getElem?_getD,
    List.getElem?_append_right (Nat.le_add_right _ _), Nat.add_sub_cancel_left]

lemma links_stage (h : Stale uuid base) :
    (base.stage names files).links (base.contents.length + k) = names.countP fun e => e.2 = k := by
  have hbase : base.entries.countP (fun e => e.2 = base.contents.length + k) = 0 := by
    rw [List.countP_eq_zero]
    intro e he heq
    have hlt := h.inode e he
    have hsame := of_decide_eq_true heq
    omega
  simp only [FileSystem.links, FileSystem.stage, List.countP_append, hbase, List.countP_map, Nat.zero_add]
  exact List.countP_congr fun e _ => by simp

lemma addFile_stage :
    (base.stage names files).addFile name = base.stage (names ++ [(name, files.length)]) (files ++ [ByteArray.empty]) := by
  simp [FileSystem.addFile, FileSystem.bindName, FileSystem.stage]

lemma extend_stage (hk : k < files.length) : (base.stage names files).extend (base.contents.length + k) bytes =
    base.stage names (files.set k (files.getD k ByteArray.empty ++ bytes)) := by
  simp only [FileSystem.extend, FileSystem.stage, FileSystem.mk.injEq, true_and, and_true]
  refine List.ext_getElem? fun j => ?_
  rw [List.getElem?_modify]
  by_cases hjk : base.contents.length + k = j
  · subst hjk
    rw [List.getElem?_append_right (Nat.le_add_right _ _), List.getElem?_append_right (Nat.le_add_right _ _),
      Nat.add_sub_cancel_left, List.getElem?_set_self hk, List.getD_eq_getElem?_getD, List.getElem?_eq_getElem hk]
    simp
  · simp only [if_neg hjk]
    by_cases hj : j < base.contents.length
    · rw [List.getElem?_append_left hj, List.getElem?_append_left hj]
      simp
    · rw [List.getElem?_append_right (by omega), List.getElem?_append_right (by omega), List.getElem?_set_ne (by omega)]
      simp

lemma bindName_stage : (base.stage names files).bindName name (base.contents.length + k) =
    base.stage (names ++ [(name, k)]) files := by
  simp [FileSystem.bindName, FileSystem.stage]

lemma unbindName_stage (h : Stale uuid base) (hname : ∀ j, j ≠ uuid → name ≠ .temporary j) :
    (base.stage names files).unbindName name = base.stage (names.filter fun e => e.1 ≠ name) files := by
  have hbase : base.entries.filter (fun e => e.1 ≠ name) = base.entries := by
    rw [List.filter_eq_self]
    intro e he
    simpa using h.ne hname he
  simp only [FileSystem.unbindName, FileSystem.stage, List.filter_append, hbase, List.filter_map]
  rfl

/-- A file that was left behind is kept apart. -/
lemma stage_stage (more : List (ArtifactFile × ℕ)) (other : List ByteArray) :
    (base.stage names files).stage more other =
      base.stage (names ++ more.map fun e => (e.1, files.length + e.2)) (files ++ other) := by
  simp [FileSystem.stage, Nat.add_assoc]

lemma Stale.stage (h : Stale uuid base) {left : ℕ} (hleft : left ≠ uuid) (content : ByteArray) :
    Stale uuid (base.stage [(.temporary left, 0)] [content]) where
  temporary := by
    intro e he
    simp only [FileSystem.stage, List.map_cons, List.map_nil, List.mem_append, List.mem_singleton] at he
    rcases he with he | rfl
    · exact h.temporary e he
    · exact ⟨left, hleft, rfl⟩
  inode := by
    intro e he
    simp only [FileSystem.stage, List.map_cons, List.map_nil, List.mem_append, List.mem_singleton, List.length_append,
      List.length_singleton] at he ⊢
    rcases he with he | rfl
    · exact Nat.lt_succ_of_lt (h.inode e he)
    · exact Nat.lt_succ_self _

lemma Stale.empty (depth : ℕ) : Stale uuid { depth := depth } := ⟨by simp, by simp⟩

end stages

/-! ## Records -/

lemma fromUTF8_toUTF8 (text : String) : String.fromUTF8? text.toUTF8 = some text := by
  unfold String.fromUTF8?
  rw [dif_pos (show text.toUTF8.IsValidUTF8 from text.isValidUTF8)]
  rfl

section records

variable [ContentDigest] [FloatText PyFloat]

/-- A record is read back from its bytes. -/
lemma decode_publicationRecordBytes (content : ByteArray) (count : ℕ) :
    PublicationRecord.decode (publicationRecordBytes content count) = some ⟨(contentSha256 content).text, count⟩ := by
  have hnodup : publicationRecordFields.Nodup := by decide
  have hplain : (recordPayload content count).Plain := by
    refine ⟨hnodup, ?_⟩
    simp only [PlainFields, Json.Plain, true_and]
  obtain ⟨text, hdumps, hloads⟩ := loads_dumps hplain
  have hget : ∀ key, (recordPayload content count).sortKeys.get? key = (recordPayload content count).get? key :=
    get?_sortKeys_of_flat hnodup rfl
  have hfields : (recordPayload content count).sortKeys.hasFields publicationRecordFields = true := by
    have hperm : (recordPayload content count).sortKeys.keys.Perm publicationRecordFields := keys_sortKeys_perm _
    rw [recordPayload, Json.sortKeys] at hperm ⊢
    simp only [Json.hasFields, Bool.and_eq_true, List.all_eq_true, decide_eq_true_eq]
    exact ⟨fun key hkey => hperm.mem_iff.mp hkey, fun key hkey => hperm.mem_iff.mpr hkey⟩
  rw [publicationRecordBytes, hdumps, Option.getD_some, PublicationRecord.decode, fromUTF8_toUTF8]
  have hread : PublicationRecord.ofJson (recordPayload content count).sortKeys = some ⟨(contentSha256 content).text, count⟩ := by
    rw [PublicationRecord.ofJson, hget, hget, hget, hfields]
    simp [recordPayload, isOne, (contentSha256 content).isHex]
  simp only [Option.bind_eq_bind, Option.bind_some, hloads, hread]

end records

/-! ## From the final file to the end -/

section commits

variable {site : Site} {uuid : ℕ} {base : FileSystem} {names : List (ArtifactFile × ℕ)} {files : List ByteArray}
  {encoded markerBytes : ByteArray} {i j : ℕ}

lemma hasFile_stage (h : Stale uuid base) {name : ArtifactFile} {k : ℕ} (hname : ∀ j, j ≠ uuid → name ≠ .temporary j)
    (hfound : names.find? (fun e => e.1 = name) = some (name, k)) :
    HasFile (base.stage names files) name (base.contents.length + k) (files.getD k ByteArray.empty) where
  entry := by rw [entry_stage h hname, hfound, Option.map_some]
  content := content_stage

lemma alone_fsync_stage (hdepth : site.parent ≤ base.depth) :
    alone site (fsyncParent site) (base.stage names files) = (.ok (), base.stage names files) :=
  alone_fsyncParent (show site.parent ≤ (base.stage names files).depth from hdepth)

lemma entry_stage_none (h : Stale uuid base) {name : ArtifactFile} (hname : ∀ j, j ≠ uuid → name ≠ .temporary j)
    (hfound : names.find? (fun e => e.1 = name) = none) : (base.stage names files).entry name = none := by
  rw [entry_stage h hname, hfound, Option.map_none]

/-- The names after the final file was installed: the marker and the final file. -/
abbrev installedNames (i j : ℕ) : List (ArtifactFile × ℕ) := [(.pendingMarker, i), (.final, j)]

/-- The names after the witness was linked. -/
abbrev witnessedNames (i j : ℕ) : List (ArtifactFile × ℕ) := [(.pendingMarker, i), (.final, j), (.commitWitness, i)]

/-- The names after the marker was removed. -/
abbrev committedNames (i j : ℕ) : List (ArtifactFile × ℕ) := [(.final, j), (.commitWitness, i)]

lemma alone_attempt_linkWitness (h : Stale uuid base) :
    alone site (attempt (.link .pendingMarker .commitWitness)) (base.stage (installedNames i j) files) =
      (.ok (.ok ()), base.stage (witnessedNames i j) files) := by
  have hbind : base.stage (witnessedNames i j) files =
      (base.stage (installedNames i j) files).bindName .commitWitness (base.contents.length + i) := by
    rw [bindName_stage]
    rfl
  rw [hbind]
  exact alone_link (hasFile_stage h (by simp) (by simp)).entry (entry_stage_none h (by simp) (by simp))

lemma alone_linkWitness (h : Stale uuid base) :
    alone site (linkWitness markerBytes) (base.stage (installedNames i j) files) =
      (.ok true, base.stage (witnessedNames i j) files) := by
  simp [linkWitness, run_bind, alone_attempt_linkWitness h]

lemma alone_establishCommitWitness (h : Stale uuid base) (hdepth : site.parent ≤ base.depth)
    (hmarker : files.getD i ByteArray.empty = markerBytes) :
    alone site (establishCommitWitness site markerBytes) (base.stage (installedNames i j) files) =
      (.ok (), base.stage (witnessedNames i j) files) := by
  have hfile : HasFile (base.stage (witnessedNames i j) files) .commitWitness (base.contents.length + i)
      (files.getD i ByteArray.empty) := hasFile_stage h (by simp) (by simp)
  have hread : alone site (readRegularPublicationRecordBytes .commitWitness "commit witness" (some markerBytes) true)
      (base.stage (witnessedNames i j) files) = _ :=
    alone_readRecordBytes hfile fun wanted hwanted => hmarker.trans (Option.some.inj hwanted)
  simp [establishCommitWitness, run_bind, alone_linkWitness h, catchOsError, run_handle, alone_fsync_stage hdepth, hread]

lemma alone_unlinkMarker (h : Stale uuid base) :
    alone site (unlinkMissingOk .pendingMarker) (base.stage (witnessedNames i j) files) =
      (.ok (), base.stage (committedNames i j) files) := by
  have hpending : (base.stage (witnessedNames i j) files).entry .pendingMarker = some (base.contents.length + i) :=
    (hasFile_stage h (by simp) (by simp)).entry
  rw [alone_unlinkMissingOk, hpending, Option.isSome_some, if_pos rfl, unbindName_stage h (by simp)]
  rfl

lemma alone_removePending (h : Stale uuid base) (hdepth : site.parent ≤ base.depth) :
    alone site (removePendingMarkerDurably site) (base.stage (witnessedNames i j) files) =
      (.ok (), base.stage (committedNames i j) files) := by
  have hpending : (base.stage (witnessedNames i j) files).entry .pendingMarker = some (base.contents.length + i) :=
    (hasFile_stage h (by simp) (by simp)).entry
  simp [removePendingMarkerDurably, run_bind, alone_recordExists, hpending, catchOsError, run_handle,
    alone_unlinkMarker h, alone_fsync_stage hdepth]

lemma alone_commit (h : Stale uuid base) (hdepth : site.parent ≤ base.depth) (hij : i ≠ j)
    (hmarker : files.getD i ByteArray.empty = markerBytes) (hartifact : files.getD j ByteArray.empty = encoded) :
    alone site (commit site encoded markerBytes) (base.stage (installedNames i j) files) =
      (.ok (), base.stage (committedNames i j) files) := by
  have hfinal : HasFile (base.stage (installedNames i j) files) .final (base.contents.length + j)
      (files.getD j ByteArray.empty) := hasFile_stage h (by simp) (by simp)
  have hlinks : (base.stage (installedNames i j) files).links (base.contents.length + j) = 1 := by
    rw [links_stage h]
    simp [hij]
  have hidentical : alone site (requireIdenticalArtifact (files.getD j ByteArray.empty)) _ = _ :=
    alone_requireIdentical hfinal hlinks
  rw [hartifact] at hidentical
  simp [commit, run_bind, alone_fsync_stage hdepth, hidentical, alone_establishCommitWitness h hdepth hmarker, alone_removePending h hdepth]

end commits

/-! ## Committed artifacts -/

section committed

variable [ContentDigest] [FloatText PyFloat] {site : Site} {fs : FileSystem} {text : String} {anchor : ℕ}

/-- The final file and its witness are there, and no marker is. -/
structure Committed (site : Site) (fs : FileSystem) (encoded : ByteArray) : Prop where
  final : ∃ inode, HasFile fs .final inode encoded ∧ fs.links inode = 1
  witness : ∃ inode count, HasFile fs .commitWitness inode (publicationRecordBytes encoded count)
  noMarker : fs.entry .pendingMarker = none
  depth : site.parent ≤ fs.depth

lemma alone_readRecord {path : ArtifactFile} {label : String} {inode count : ℕ} {encoded : ByteArray}
    (hfile : HasFile fs path inode (publicationRecordBytes encoded count)) :
    alone site (readPublicationRecord path label) fs = (.ok ⟨(contentSha256 encoded).text, count⟩, fs) := by
  have hread : alone site (readRegularPublicationRecordBytes path label) fs = _ :=
    alone_readRecordBytes hfile fun _ h => by cases h
  simp [readPublicationRecord, run_bind, hread, decode_publicationRecordBytes]

omit [ContentDigest] [FloatText PyFloat] in
lemma alone_fsyncRecord {path : ArtifactFile} {label : String} {inode : ℕ} {bytes : ByteArray}
    (hfile : HasFile fs path inode bytes) : alone site (fsyncPublicationRecord path label) fs = (.ok (), fs) := by
  have hread : alone site (readRegularPublicationRecordBytes path label none true) fs = _ :=
    alone_readRecordBytes hfile fun _ h => by cases h
  simp [fsyncPublicationRecord, run_bind, hread]

/-- A witness, its final file, and perhaps the marker that the witness was linked from. -/
structure Witnessed (fs : FileSystem) (encoded : ByteArray) (count : ℕ) : Prop where
  final : ∃ inode, HasFile fs .final inode encoded ∧ fs.links inode = 1
  witness : ∃ inode, HasFile fs .commitWitness inode (publicationRecordBytes encoded count)
  marker : fs.entry .pendingMarker = none ∨
    ∃ inode, HasFile fs .pendingMarker inode (publicationRecordBytes encoded count)

lemma alone_readCommitted {encoded : ByteArray} {count : ℕ} (h : Witnessed fs encoded count) :
    alone site readCommittedArtifact fs = (.ok (⟨(contentSha256 encoded).text, count⟩, encoded), fs) := by
  obtain ⟨inode, hfinal, hlinks⟩ := h.final
  obtain ⟨witness, hwitness⟩ := h.witness
  have hread : alone site readRegularArtifactBytes fs = _ := alone_readArtifactBytes hfinal hlinks fun _ h => by cases h
  simp [readCommittedArtifact, run_bind, alone_readRecord hwitness, hread, requireRecordContent]

lemma alone_requireCommitted {encoded : ByteArray} {count : ℕ} (full : Bool) (h : Witnessed fs encoded count) :
    alone site (requireCommittedArtifact full encoded) fs = (.ok (), fs) := by
  have hpending : alone site (requireMatchingPending full ⟨(contentSha256 encoded).text, count⟩) fs = (.ok (), fs) := by
    rcases h.marker with hnone | ⟨inode, hmarker⟩
    · simp [requireMatchingPending, run_bind, alone_recordExists, hnone]
    · cases full <;>
        simp [requireMatchingPending, run_bind, alone_recordExists, hmarker.entry, alone_readRecord hmarker]
  simp [requireCommittedArtifact, run_bind, alone_readCommitted h, hpending]

lemma Committed.witnessed {encoded : ByteArray} (h : Committed site fs encoded) : ∃ count, Witnessed fs encoded count := by
  obtain ⟨inode, count, hwitness⟩ := h.witness
  exact ⟨count, h.final, ⟨inode, hwitness⟩, .inl h.noMarker⟩

/-- A committed artifact is read. -/
theorem Committed.read (h : Committed site fs text.toUTF8) :
    alone site readStrategyArtifactText fs = (.ok text, fs) := by
  have hdecode := fromUTF8_toUTF8 text
  generalize hencoded : text.toUTF8 = encoded at h hdecode
  obtain ⟨inode, hfinal, hlinks⟩ := h.final
  obtain ⟨witness, count, hwitness⟩ := h.witness
  have hbytes : alone site readRegularArtifactBytes fs = _ := alone_readArtifactBytes hfinal hlinks fun _ h => by cases h
  have htext : alone site readRegularArtifactText fs = (.ok text, fs) := by
    simp only [readRegularArtifactText, run_bind, hbytes, hdecode]
    rfl
  simp [readStrategyArtifactText, readWitnessed, run_bind, alone_rejectPending h.noMarker, alone_recordExists,
    hwitness.entry, alone_readRecord hwitness, htext, requireRecordContent, -String.toUTF8_eq_toByteArray, hencoded]

/-- A committed artifact is published again. -/
theorem Committed.publish (h : Committed site fs text.toUTF8) (hanchor : anchor ≤ site.parent) (uuid : ℕ) :
    alone site (publishStrategyArtifact site uuid text (some anchor)) fs = (.ok (), fs) := by
  generalize hencoded : text.toUTF8 = encoded at h
  obtain ⟨inode, hfinal, hlinks⟩ := h.final
  obtain ⟨witness, count, hwitness⟩ := h.witness
  obtain ⟨count', hwitnessed⟩ := h.witnessed
  have hparents : alone site (createParentDirectories site) fs = _ := alone_createParents
  rw [deepen_eq h.depth] at hparents
  rw [publishStrategyArtifact, hencoded]
  simp [run_bind, alone_resolveAnchor hanchor (hanchor.trans h.depth), catchOsError, run_handle, publishBody, hparents, alone_recordExists, hwitness.entry, publishCommitted, alone_requireCommitted true hwitnessed,
    alone_rejectPending h.noMarker, alone_fsyncRecord hwitness, alone_requireIdentical hfinal hlinks,
    alone_fsyncParent h.depth, alone_fsyncToAnchor hanchor h.depth]

end committed

/-! ## The run of a publication -/

section publishing

variable {site : Site} {uuid : ℕ} {base : FileSystem} {names : List (ArtifactFile × ℕ)} {files : List ByteArray}

lemma stage_nil : base.stage [] [] = base := by
  simp [FileSystem.stage]

lemma Stale.deepen (h : Stale uuid base) (level : ℕ) : Stale uuid (base.deepen level) := ⟨h.temporary, h.inode⟩

lemma alone_write_stage (h : Stale uuid base) (hdepth : site.parent ≤ base.depth) {name : ArtifactFile}
    (hname : ∀ j, j ≠ uuid → name ≠ .temporary j) (hfound : names.find? (fun e => e.1 = name) = none) (content : ByteArray) :
    alone site (writeBytesDurably name content) (base.stage names files) =
      (.ok (), base.stage (names ++ [(name, files.length)]) (files ++ [content])) := by
  rw [alone_writeDurably content (entry_stage_none h hname hfound) hdepth, addFile_stage]
  have hlength : (base.stage names files).contents.length = base.contents.length + files.length := List.length_append
  rw [hlength, extend_stage (by simp)]
  simp

lemma temporary_ne (j : ℕ) (hj : j ≠ uuid) : ArtifactFile.temporary uuid ≠ .temporary j :=
  fun hsame => hj (ArtifactFile.temporary.inj hsame).symm

/-- The names after the temporary file was linked at the final path and removed. -/
abbrev installing (uuid : ℕ) (names : List (ArtifactFile × ℕ)) (k : ℕ) : List (ArtifactFile × ℕ) :=
  (names ++ [(ArtifactFile.final, k)]).filter fun e => e.1 ≠ .temporary uuid

lemma alone_linkFinal (h : Stale uuid base) {k : ℕ}
    (htemporary : names.find? (fun e => e.1 = .temporary uuid) = some (.temporary uuid, k))
    (hfinal : names.find? (fun e => e.1 = .final) = none) :
    alone site (attempt (.link (.temporary uuid) .final)) (base.stage names files) =
      (.ok (.ok ()), base.stage (names ++ [(.final, k)]) files) := by
  rw [← bindName_stage]
  exact alone_link (hasFile_stage h temporary_ne htemporary).entry (entry_stage_none h (by simp) hfinal)

lemma alone_unlinkTemporary (h : Stale uuid base) {k : ℕ}
    (htemporary : names.find? (fun e => e.1 = .temporary uuid) = some (.temporary uuid, k)) :
    alone site (call (.unlink (.temporary uuid))) (base.stage (names ++ [(.final, k)]) files) =
      (.ok (), base.stage (installing uuid names k) files) := by
  rw [installing, ← unbindName_stage h temporary_ne]
  have hfound : (names ++ [(ArtifactFile.final, k)]).find? (fun e => e.1 = .temporary uuid) = some (.temporary uuid, k) := by
    rw [List.find?_append, htemporary, Option.some_or]
  exact alone_unlink (hasFile_stage h temporary_ne hfound).entry

lemma alone_install (h : Stale uuid base) {encoded : ByteArray} {k : ℕ}
    (htemporary : names.find? (fun e => e.1 = .temporary uuid) = some (.temporary uuid, k))
    (hfinal : names.find? (fun e => e.1 = .final) = none) :
    alone site (installFinalWithoutOverwrite uuid encoded) (base.stage names files) =
      (.ok (), base.stage (installing uuid names k) files) := by
  rw [installFinalWithoutOverwrite, alone_bind_ok (alone_linkFinal h htemporary hfinal)]
  exact alone_unlinkTemporary h htemporary

/-- The names after the marker was written. -/
abbrev markedNames (uuid : ℕ) : List (ArtifactFile × ℕ) := [(.temporary uuid, 0), (.pendingMarker, 1)]

variable {encoded markerBytes : ByteArray} {created anchor : ℕ}

lemma alone_writeTemporary (h : Stale uuid base) (hdepth : site.parent ≤ base.depth) :
    alone site (writeBytesDurably (.temporary uuid) encoded) base = (.ok (), base.stage [(.temporary uuid, 0)] [encoded]) := by
  have hwrite : alone site (writeBytesDurably (.temporary uuid) encoded) (base.stage [] []) = _ :=
    alone_write_stage h hdepth temporary_ne rfl encoded
  rwa [stage_nil] at hwrite

lemma alone_writeMarker (h : Stale uuid base) (hdepth : site.parent ≤ base.depth) :
    alone site (writePendingMarker site markerBytes) (base.stage [(.temporary uuid, 0)] [encoded]) =
      (.ok (), base.stage (markedNames uuid) [encoded, markerBytes]) := by
  have hwrite : alone site (writeBytesDurably .pendingMarker markerBytes) (base.stage [(.temporary uuid, 0)] [encoded]) = _ :=
    alone_write_stage h hdepth (by simp) (by simp) markerBytes
  simp [writePendingMarker, catchOsError, run_handle, hwrite]

lemma alone_installUnlessThere (h : Stale uuid base) :
    alone site (installUnlessThere uuid encoded) (base.stage (markedNames uuid) [encoded, markerBytes]) =
      (.ok (), base.stage (installedNames 1 0) [encoded, markerBytes]) := by
  have hfinal : (base.stage (markedNames uuid) [encoded, markerBytes]).entry .final = none :=
    entry_stage_none h (by simp) (by simp)
  have hinstall : alone site (installFinalWithoutOverwrite uuid encoded)
      (base.stage (markedNames uuid) [encoded, markerBytes]) = _ :=
    alone_install h (k := 0) (by simp) (by simp)
  simp [installUnlessThere, run_bind, alone_pathEntryExists, hfinal, hinstall, installing]

/-- The temporary file is gone. -/
lemma alone_removingTemporary {α : Type} {p : Action α} {fs : FileSystem} {result : Except Raised α}
    (hrun : alone site p fs = (result, base.stage (committedNames 0 1) files) ∨
      alone site p fs = (result, base.stage (committedNames 1 0) files)) (h : Stale uuid base) :
    alone site (removingTemporary uuid p) fs = alone site p fs := by
  have hgone : ∀ i j, (base.stage (committedNames i j) files).entry (.temporary uuid) = none :=
    fun i j => entry_stage_none h temporary_ne (by simp)
  rcases hrun with hrun | hrun <;>
    simp [removingTemporary, run_finally, hrun, catchOsError, run_handle, alone_unlinkMissingOk, hgone]

variable [ContentDigest] [FloatText PyFloat]

lemma alone_publishThroughMarker (h : Stale uuid base) (hdepth : site.parent ≤ base.depth) (hanchor : anchor ≤ site.parent) :
    alone site (publishThroughMarker site uuid encoded created anchor) base =
      (.ok (), base.stage (committedNames 1 0) [encoded, publicationRecordBytes encoded created]) := by
  generalize hbytes : publicationRecordBytes encoded created = markerBytes
  have hmarked : site.parent ≤ (base.stage (markedNames uuid) [encoded, markerBytes]).depth := hdepth
  have hwitness : (base.stage (markedNames uuid) [encoded, markerBytes]).entry .commitWitness = none :=
    entry_stage_none h (by simp) (by simp)
  have hcommit : alone site (commit site encoded markerBytes) (base.stage (installedNames 1 0) [encoded, markerBytes]) =
      (.ok (), base.stage (committedNames 1 0) [encoded, markerBytes]) := alone_commit h hdepth (by simp) rfl rfl
  simp [publishThroughMarker, hbytes, run_bind, alone_writeTemporary h hdepth, alone_writeMarker h hdepth,
    alone_fsyncParent hmarked, alone_fsyncToAnchor hanchor hmarked, alone_recordExists, hwitness,
    alone_installUnlessThere h, hcommit]

omit [ContentDigest] [FloatText PyFloat] in
lemma entry_deepen (h : Stale uuid base) (level : ℕ) {name : ArtifactFile} (hname : ∀ j, j ≠ uuid → name ≠ .temporary j) :
    (base.deepen level).entry name = none := by
  have hentry : ((base.deepen level).stage [] []).entry name = none := entry_stage_none (h.deepen level) hname rfl
  rwa [stage_nil] at hentry

/-- The temporary file of a publication is gone at its end. -/
lemma alone_publishing (h : Stale uuid base) (hanchor : anchor ≤ site.parent) :
    alone site (removingTemporary uuid (publishThroughMarker site uuid encoded created anchor)) (base.deepen site.parent) =
      (.ok (), (base.deepen site.parent).stage (committedNames 1 0) [encoded, publicationRecordBytes encoded created]) := by
  have hrun : alone site (publishThroughMarker site uuid encoded created anchor) (base.deepen site.parent) = _ :=
    alone_publishThroughMarker (h.deepen site.parent) (le_max_right _ _) hanchor
  rw [alone_removingTemporary (.inr hrun) (h.deepen site.parent), hrun]

lemma alone_publishBody (h : Stale uuid base) (hanchor : anchor ≤ site.parent) :
    alone site (publishBody site uuid encoded anchor) base =
      (.ok (), (base.deepen site.parent).stage (committedNames 1 0)
        [encoded, publicationRecordBytes encoded (site.parent - base.depth)]) := by
  have hnone : ∀ name, (∀ j, j ≠ uuid → name ≠ .temporary j) → (base.deepen site.parent).entry name = none :=
    fun name hname => entry_deepen h site.parent hname
  simp [publishBody, run_bind, alone_createParents, alone_recordExists, hnone, alone_rejectPending, alone_pathEntryExists,
    alone_publishing h hanchor]

/-- A publication of a fresh path. -/
lemma alone_publish (h : Stale uuid base) (text : String) (hanchor : anchor ≤ site.parent) (hdepth : anchor ≤ base.depth) :
    alone site (publishStrategyArtifact site uuid text (some anchor)) base =
      (.ok (), (base.deepen site.parent).stage (committedNames 1 0)
        [text.toUTF8, publicationRecordBytes text.toUTF8 (site.parent - base.depth)]) := by
  rw [publishStrategyArtifact, alone_bind_ok (alone_resolveAnchor hanchor hdepth)]
  exact alone_catch (alone_publishBody h hanchor) _

end publishing

/-! ## The run of a recovery -/

section recovering

variable {site : Site} {fs : FileSystem} {anchor created : ℕ}

lemma alone_createdDirectories {level : ℕ} (hcreated : created ≤ level) (hdepth : level ≤ fs.depth) :
    alone site (createdDirectoriesFromCount level created) fs = (.ok (), fs) := by
  induction created generalizing level with
  | zero => rw [createdDirectoriesFromCount, alone_pure]
  | succ created ih =>
      obtain ⟨level, rfl⟩ := Nat.exists_eq_add_one_of_ne_zero (show level ≠ 0 by omega)
      rw [createdDirectoriesFromCount.eq_def]
      simp [run_bind, alone_isDir (level + 1), hdepth, ih (show created ≤ level by omega) (show level ≤ fs.depth by omega)]

lemma alone_anchorCovers (hdepth : site.parent ≤ fs.depth) (hanchor : anchor ≤ site.parent - created) :
    alone site (requireAnchorCoversCreatedDirectories site created anchor) fs = (.ok (), fs) := by
  unfold requireAnchorCoversCreatedDirectories
  split
  · rfl
  · have hresolve : alone site (call (.resolve (site.parent - created))) fs = _ :=
      alone_resolve (show site.parent - created ≤ fs.depth by omega)
    simp [run_bind, catchOsError, run_handle, hresolve, hanchor]

variable [ContentDigest] [FloatText PyFloat]

/-- How far a recovery gets that finds a marker and no witness. -/
structure Pending (site : Site) (fs : FileSystem) (encoded : ByteArray) (created anchor : ℕ) : Prop where
  marker : ∃ inode, HasFile fs .pendingMarker inode (publicationRecordBytes encoded created)
  depth : site.parent ≤ fs.depth
  inside : created ≤ site.parent
  covered : anchor ≤ site.parent - created

variable {encoded : ByteArray}

/-- A recovery that finds a marker verifies it, and looks for the final file. -/
lemma alone_recoverPending (h : Pending site fs encoded created anchor) (uuid : ℕ) :
    alone site (recoverPending site uuid encoded anchor) fs =
      alone site (if (fs.entry .final).isSome then do
        requireIdenticalArtifact encoded
        commit site encoded (publicationRecordBytes encoded created)
      else removingTemporary uuid do
        reinstall uuid encoded
        commit site encoded (publicationRecordBytes encoded created)) fs := by
  obtain ⟨inode, hmarker⟩ := h.marker
  have hread : alone site (readRegularPublicationRecordBytes .pendingMarker "pending marker"
      (some (publicationRecordBytes encoded created)) true) fs = _ := alone_readRecordBytes hmarker fun _ => Option.some.inj
  simp [recoverPending, run_bind, alone_readRecord hmarker, alone_createdDirectories h.inside h.depth,
    alone_anchorCovers h.depth h.covered, hread, alone_fsyncParent h.depth,
    alone_fsyncToAnchor (h.covered.trans (Nat.sub_le _ _)) h.depth, alone_pathEntryExists]

lemma alone_recover (text : String) {uuid : ℕ} (hanchor : anchor ≤ site.parent) (hdepth : anchor ≤ fs.depth) {t : FileSystem}
    (hbody : alone site (recoverBody site uuid text anchor) fs = (.ok (), t)) :
    alone site (recoverStrategyArtifact site uuid text (some anchor)) fs = (.ok (), t) := by
  simp [recoverStrategyArtifact, run_bind, alone_resolveAnchor hanchor hdepth, catchOsError, run_handle, hbody]

variable {base : FileSystem} {uuid : ℕ} {files : List ByteArray} {i j : ℕ} {text : String}

/-- Recovery from a marker alone. -/
lemma alone_recover_marked (h : Stale uuid base)
    (hpending : Pending site (base.stage [(.pendingMarker, 0)] [publicationRecordBytes encoded created]) encoded created anchor) :
    alone site (recoverPending site uuid encoded anchor)
        (base.stage [(.pendingMarker, 0)] [publicationRecordBytes encoded created]) =
      (.ok (), base.stage (committedNames 0 1) [publicationRecordBytes encoded created, encoded]) := by
  have hfinal : (base.stage [(.pendingMarker, 0)] [publicationRecordBytes encoded created]).entry .final = none :=
    entry_stage_none h (by simp) (by simp)
  have hwrite : alone site (writeBytesDurably (.temporary uuid) encoded)
      (base.stage [(.pendingMarker, 0)] [publicationRecordBytes encoded created]) = _ :=
    alone_write_stage h hpending.depth temporary_ne (by simp) encoded
  have hinstall : alone site (installFinalWithoutOverwrite uuid encoded)
      (base.stage [(.pendingMarker, 0), (.temporary uuid, 1)] [publicationRecordBytes encoded created, encoded]) = _ :=
    alone_install h (k := 1) (by simp) (by simp)
  have hcommit : alone site (commit site encoded (publicationRecordBytes encoded created))
      (base.stage (installedNames 0 1) [publicationRecordBytes encoded created, encoded]) = _ :=
    alone_commit h hpending.depth (by simp) rfl rfl
  simp [installing] at hwrite hinstall hcommit
  rw [alone_recoverPending hpending, hfinal, Option.isSome_none, if_neg Bool.false_ne_true]
  have hbody : alone site (do
      reinstall uuid encoded
      commit site encoded (publicationRecordBytes encoded created))
      (base.stage [(.pendingMarker, 0)] [publicationRecordBytes encoded created]) =
      (.ok (), base.stage (committedNames 0 1) [publicationRecordBytes encoded created, encoded]) := by
    simp [reinstall, run_bind, hwrite, hinstall, hcommit]
  rw [alone_removingTemporary (.inl hbody) h, hbody]

/-- A recovery succeeds, and the artifact is committed. -/
def Recovers (site : Site) (uuid : ℕ) (text : String) (anchor : ℕ) (fs : FileSystem) : Prop :=
  ∃ t, alone site (recoverStrategyArtifact site uuid text (some anchor)) fs = (.ok (), t) ∧ Committed site t text.toUTF8

lemma committed_stage (h : Stale uuid base) (hdepth : site.parent ≤ base.depth) (hij : i ≠ j)
    (hmarker : files.getD i ByteArray.empty = publicationRecordBytes encoded created)
    (hartifact : files.getD j ByteArray.empty = encoded) : Committed site (base.stage (committedNames i j) files) encoded where
  final := by
    refine ⟨base.contents.length + j, hartifact ▸ hasFile_stage h (by simp) (by simp), ?_⟩
    rw [links_stage h]
    simp [hij]
  witness := ⟨base.contents.length + i, created, hmarker ▸ hasFile_stage h (by simp) (by simp)⟩
  noMarker := entry_stage_none h (by simp) (by simp)
  depth := hdepth

/-- A recovery that finds no witness goes on from the marker. -/
lemma alone_recoverBody_pending (hwitness : fs.entry .commitWitness = none)
    (hmarker : (fs.entry .pendingMarker).isSome = true) :
    alone site (recoverBody site uuid text anchor) fs = alone site (recoverPending site uuid text.toUTF8 anchor) fs := by
  rw [recoverBody]
  generalize text.toUTF8 = encoded
  simp [run_bind, alone_recordExists, hwitness, hmarker]

/-- Recovery of a path without marker and witness. -/
theorem recovers_fresh (h : Stale uuid base) (hanchor : anchor ≤ site.parent) (hdepth : anchor ≤ base.depth) :
    Recovers site uuid text anchor base := by
  have hnone : ∀ name, (∀ j, j ≠ uuid → name ≠ .temporary j) → base.entry name = none := by
    intro name hname
    rw [← deepen_eq (Nat.zero_le base.depth)]
    exact entry_deepen h 0 hname
  have hbody : alone site (recoverBody site uuid text anchor) base =
      alone site (publishStrategyArtifact site uuid text (some anchor)) base := by
    rw [recoverBody, alone_bind_ok (alone_recordExists _ _), hnone _ (by simp), Option.isSome_none,
      if_neg Bool.false_ne_true, alone_bind_ok (alone_recordExists _ _), hnone _ (by simp), Option.isSome_none,
      if_neg Bool.false_ne_true]
  rw [alone_publish h text hanchor hdepth] at hbody
  exact ⟨_, alone_recover text hanchor hdepth hbody,
    committed_stage (h.deepen site.parent) (le_max_right _ _) (Nat.one_ne_zero) rfl rfl⟩

/-- Recovery from a marker. -/
theorem recovers_marked (h : Stale uuid base)
    (hpending : Pending site (base.stage [(.pendingMarker, 0)] [publicationRecordBytes text.toUTF8 created]) text.toUTF8
      created anchor) :
    Recovers site uuid text anchor (base.stage [(.pendingMarker, 0)] [publicationRecordBytes text.toUTF8 created]) := by
  have hanchor : anchor ≤ site.parent := hpending.covered.trans (Nat.sub_le _ _)
  have hwitness : (base.stage [(.pendingMarker, 0)] [publicationRecordBytes text.toUTF8 created]).entry .commitWitness = none :=
    entry_stage_none h (by simp) (by simp)
  obtain ⟨inode, hmarker⟩ := hpending.marker
  have hbody : alone site (recoverBody site uuid text anchor) _ = _ :=
    alone_recoverBody_pending hwitness (Option.isSome_iff_exists.mpr ⟨inode, hmarker.entry⟩)
  rw [alone_recover_marked h hpending] at hbody
  exact ⟨_, alone_recover text hanchor (hanchor.trans hpending.depth) hbody,
    committed_stage h hpending.depth Nat.zero_ne_one rfl rfl⟩

/-- Recovery from a marker and a final file. -/
theorem recovers_installed (h : Stale uuid base) (hij : i ≠ j)
    (hpending : Pending site (base.stage (installedNames i j) files) text.toUTF8 created anchor)
    (hmarker : files.getD i ByteArray.empty = publicationRecordBytes text.toUTF8 created)
    (hartifact : files.getD j ByteArray.empty = text.toUTF8) :
    Recovers site uuid text anchor (base.stage (installedNames i j) files) := by
  have hanchor : anchor ≤ site.parent := hpending.covered.trans (Nat.sub_le _ _)
  have hwitness : (base.stage (installedNames i j) files).entry .commitWitness = none :=
    entry_stage_none h (by simp) (by simp)
  have hfinal : HasFile (base.stage (installedNames i j) files) .final (base.contents.length + j)
      (files.getD j ByteArray.empty) := hasFile_stage h (by simp) (by simp)
  have hlinks : (base.stage (installedNames i j) files).links (base.contents.length + j) = 1 := by
    rw [links_stage h]
    simp [hij]
  obtain ⟨inode, hpendingFile⟩ := hpending.marker
  have hidentical : alone site (requireIdenticalArtifact (files.getD j ByteArray.empty)) _ = _ :=
    alone_requireIdentical hfinal hlinks
  rw [hartifact] at hidentical
  have hbody : alone site (recoverBody site uuid text anchor) _ = _ :=
    alone_recoverBody_pending hwitness (Option.isSome_iff_exists.mpr ⟨inode, hpendingFile.entry⟩)
  rw [alone_recoverPending hpending, hfinal.entry, Option.isSome_some, if_pos rfl, alone_bind_ok hidentical,
    alone_commit h hpending.depth hij hmarker hartifact] at hbody
  exact ⟨_, alone_recover text hanchor (hanchor.trans hpending.depth) hbody,
    committed_stage h hpending.depth hij hmarker hartifact⟩

/-- A recovery that finds a witness, and perhaps the marker. -/
lemma alone_recoverCommitted (hwitnessed : Witnessed fs encoded created) (hanchor : anchor ≤ site.parent)
    (hdepth : site.parent ≤ fs.depth) :
    alone site (recoverCommitted site encoded anchor) fs = alone site (removePendingMarkerDurably site) fs := by
  obtain ⟨inode, hfinal, hlinks⟩ := hwitnessed.final
  obtain ⟨witness, hwitness⟩ := hwitnessed.witness
  simp [recoverCommitted, run_bind, alone_requireCommitted false hwitnessed, alone_fsyncRecord hwitness,
    alone_requireIdentical hfinal hlinks, alone_fsyncParent hdepth, alone_fsyncToAnchor hanchor hdepth]

lemma alone_recoverBody_witnessed (hwitnessed : Witnessed fs text.toUTF8 created) (hanchor : anchor ≤ site.parent)
    (hdepth : site.parent ≤ fs.depth) :
    alone site (recoverBody site uuid text anchor) fs = alone site (removePendingMarkerDurably site) fs := by
  obtain ⟨witness, hwitness⟩ := hwitnessed.witness
  rw [← alone_recoverCommitted hwitnessed hanchor hdepth, recoverBody]
  generalize text.toUTF8 = encoded
  simp [run_bind, alone_recordExists, hwitness.entry]

/-- Recovery from a witness beside its marker. -/
theorem recovers_witnessed (h : Stale uuid base) (hdepth : site.parent ≤ base.depth) (hanchor : anchor ≤ site.parent)
    (hij : i ≠ j) (hmarker : files.getD i ByteArray.empty = publicationRecordBytes text.toUTF8 created)
    (hartifact : files.getD j ByteArray.empty = text.toUTF8) :
    Recovers site uuid text anchor (base.stage (witnessedNames i j) files) := by
  have hwitnessed : Witnessed (base.stage (witnessedNames i j) files) text.toUTF8 created := by
    refine ⟨⟨base.contents.length + j, hartifact ▸ hasFile_stage h (by simp) (by simp), ?_⟩,
      ⟨base.contents.length + i, hmarker ▸ hasFile_stage h (by simp) (by simp)⟩,
      .inr ⟨base.contents.length + i, hmarker ▸ hasFile_stage h (by simp) (by simp)⟩⟩
    rw [links_stage h]
    simp [hij]
  have hbody : alone site (recoverBody site uuid text anchor) (base.stage (witnessedNames i j) files) = _ :=
    alone_recoverBody_witnessed hwitnessed hanchor hdepth
  rw [alone_removePending h hdepth] at hbody
  have hanchored : anchor ≤ (base.stage (witnessedNames i j) files).depth := hanchor.trans hdepth
  exact ⟨_, alone_recover text hanchor hanchored hbody, committed_stage h hdepth hij hmarker hartifact⟩

/-- Recovery of a committed artifact. -/
theorem Committed.recovers (h : Committed site fs text.toUTF8) (hanchor : anchor ≤ site.parent) :
    Recovers site uuid text anchor fs := by
  obtain ⟨created, hwitnessed⟩ := h.witnessed
  have hbody : alone site (recoverBody site uuid text anchor) fs = _ :=
    alone_recoverBody_witnessed hwitnessed hanchor h.depth
  have hremove : alone site (removePendingMarkerDurably site) fs = (.ok (), fs) := by
    simp [removePendingMarkerDurably, run_bind, alone_recordExists, h.noMarker]
  rw [hremove] at hbody
  exact ⟨_, alone_recover text hanchor (hanchor.trans h.depth) hbody, h⟩

end recovering

end MuStrategy.Publication
