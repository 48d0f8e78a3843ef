import MuStrategy.Canonical
import MuStrategy.Lib.JsonText
import MuStrategy.Publication.FileSystem

/-!
# Publication of strategy artifacts

The publisher as programs of file-system calls: an artifact is written to a temporary file, announced by a pending
marker, linked at its final path, witnessed by a second name of the marker, and the marker is removed.

* `publishStrategyArtifact`, `recoverStrategyArtifact`, `readStrategyArtifactText` — the three entry points.
* `readIdentityCheckedRegularBytes`, `writeBytesDurably` — how files are read and written.
* `PublicationRecord` — the content of markers and witnesses.
-/

namespace MuStrategy.Publication

open Lib Prog

/-! ## Exceptions -/

/-- What the publisher raises. The last three are `StrategyArtifactPublicationError` and its subclasses. -/
inductive Raised where
  | osError (error : OsError)
  | publication (text : String)
  | conflict (text : String)
  | recoveryRequired (text : String)
  deriving DecidableEq

/-- `type(exc).__name__`. -/
def OsError.name : OsError → String
  | .fileNotFound => "FileNotFoundError"
  | .fileExists => "FileExistsError"
  | .other => "OSError"

/-- A program of file-system calls. -/
abbrev Action (α : Type) := Prog FsOp FsOp.Reply Raised α

/-- A call whose `OSError` is raised. -/
def call (op : FsOp) : Action op.Value := .call op fun reply => .done (reply.mapError .osError)

/-- A call whose `OSError` is caught. -/
def attempt (op : FsOp) : Action op.Reply := .call op fun reply => .done (.ok reply)

/-- `if not condition: raise error`. -/
def check (condition : Bool) (error : Raised) : Action Unit := if condition then pure () else raise error

/-- `except StrategyArtifactPublicationError: raise` and `except OSError as exc: raise f(exc)`. -/
def catchOsError {α : Type} (p : Action α) (f : OsError → Action α) : Action α :=
  handle p fun
    | .osError error => f error
    | error => raise error

/-- `with … as handle: p`. -/
def withHandle {α : Type} (handle : ℕ) (p : Action α) : Action α := finally_ p (call (.close handle))

/-! ## Checked reads -/

/-- Source: `strategy_artifact_publication.py` `_require_regular_file`. -/
def requireRegularFile (status : FileStatus) (label : String) : Action Unit :=
  check status.isRegular (.recoveryRequired s!"strategy artifact {label} is not a regular file")

/-- Source: `strategy_artifact_publication.py` `_require_single_link`, if it is called. -/
def requireSingleLink (single : Bool) (status : FileStatus) (label : String) : Action Unit :=
  check (!single || status.links = 1) (.recoveryRequired s!"strategy artifact {label} has multiple hard links")

/-- `os.fsync(handle.fileno())`, if it is called. -/
def fsyncIf (fsync : Bool) (handle : ℕ) : Action Unit := if fsync then call (.fsync handle) else pure ()

/-- The part of a checked read that works on the open file. -/
def readHandle (handle : ℕ) (pathStatus : FileStatus) (label : String) (expected : Option ByteArray)
    (fsync single : Bool) : Action (FileStatus × ByteArray) := do
  let openedStatus ← call (.fstat handle)
  requireRegularFile openedStatus label
  requireSingleLink single openedStatus label
  check (pathStatus.inode = openedStatus.inode)
    (.recoveryRequired s!"strategy artifact {label} changed before read")
  let content ← call (.read handle)
  check (expected.all fun bytes => content = bytes)
    (.conflict s!"strategy artifact {label} does not match the expected bytes")
  fsyncIf fsync handle
  pure (openedStatus, content)

/-- A checked read, before its exceptions are classified. -/
def readChecked (path : ArtifactFile) (label : String) (expected : Option ByteArray) (fsync single : Bool) :
    Action ByteArray := do
  let pathStatus ← call (.lstat path)
  requireRegularFile pathStatus label
  requireSingleLink single pathStatus label
  let handle ← call (.openFile path fsync)
  let opened ← withHandle handle (readHandle handle pathStatus label expected fsync single)
  let currentStatus ← call (.lstat path)
  requireRegularFile currentStatus label
  requireSingleLink single currentStatus label
  check (opened.1.inode = currentStatus.inode) (.recoveryRequired s!"strategy artifact {label} changed during read")
  pure opened.2

/-- Source: `strategy_artifact_publication.py` `_read_identity_checked_regular_bytes`. -/
def readIdentityCheckedRegularBytes (path : ArtifactFile) (label : String) (expected : Option ByteArray)
    (fsync single : Bool) : Action ByteArray :=
  catchOsError (readChecked path label expected fsync single) fun
    | .fileNotFound => raise (.osError .fileNotFound)
    | _ => raise (.recoveryRequired s!"strategy artifact {label} cannot be read safely")

/-- Source: `strategy_artifact_publication.py` `_read_regular_publication_record_bytes`. -/
def readRegularPublicationRecordBytes (path : ArtifactFile) (label : String) (expected : Option ByteArray := none)
    (fsync : Bool := false) : Action ByteArray :=
  catchOsError (readIdentityCheckedRegularBytes path label expected fsync false) fun
    | .fileNotFound => raise (.recoveryRequired s!"strategy artifact {label} cannot be read safely")
    | error => raise (.osError error)

/-- Source: `strategy_artifact_publication.py` `_read_regular_artifact_bytes`. -/
def readRegularArtifactBytes (expected : Option ByteArray := none) (fsync : Bool := false) : Action ByteArray :=
  readIdentityCheckedRegularBytes .final "final artifact" expected fsync true

/-- Source: `strategy_artifact_publication.py` `_require_identical_artifact`, with `fsync=True`. -/
def requireIdenticalArtifact (expected : ByteArray) : Action Unit := do
  let _ ← readRegularArtifactBytes (some expected) true
  pure ()

/-- Source: `strategy_artifact_publication.py` `_read_regular_artifact_text`. -/
def readRegularArtifactText : Action String := do
  let content ← readRegularArtifactBytes
  match String.fromUTF8? content with
  | some text => pure text
  | none => raise (.recoveryRequired "strategy artifact final artifact is not valid UTF-8")

/-- Source: `strategy_artifact_publication.py` `_path_entry_exists`. -/
def pathEntryExists (path : ArtifactFile) : Action Bool := do
  match ← attempt (.lstat path) with
  | .error .fileNotFound => pure false
  | .error _ | .ok _ => pure true

/-- Source: `strategy_artifact_publication.py` `_publication_record_exists`. -/
def publicationRecordExists (path : ArtifactFile) (label : String) : Action Bool := do
  match ← attempt (.lstat path) with
  | .error .fileNotFound => pure false
  | .error _ => raise (.recoveryRequired s!"strategy artifact {label} cannot be inspected")
  | .ok status => do
      requireRegularFile status label
      pure true

/-- Source: `strategy_artifact_publication.py` `_fsync_publication_record`. -/
def fsyncPublicationRecord (path : ArtifactFile) (label : String) : Action Unit := do
  let _ ← readRegularPublicationRecordBytes path label none true
  pure ()

/-! ## Publication records -/

/-- A hash of bytes. -/
class ContentDigest where
  /-- Source: `strategy_artifact_publication.py` `_content_sha256`. -/
  contentSha256 : ByteArray → HexDigest

export ContentDigest (contentSha256)

/-- A hash of bytes with one digest, for concrete runs. -/
@[reducible] def zeroContentDigest : ContentDigest where
  contentSha256 _ := ⟨zeroDigits, zeroDigits_isHex⟩

/-- No float is written or read. -/
@[reducible] def noFloatText : FloatText PyFloat := ⟨fun _ => none, fun _ => .nan⟩

/-- A record whose schema version is `1`. -/
structure PublicationRecord where
  contentSha256 : String
  createdParentCount : ℕ
  deriving DecidableEq

/-- Source: `strategy_artifact_publication.py` `_PUBLICATION_RECORD_FIELDS`. -/
def publicationRecordFields : List String := ["schema_version", "content_sha256", "created_parent_count"]

/-- `value == 1`, also true of `True` and `1.0`. -/
def isOne : JsonValue → Bool
  | .int n => n = 1
  | .bool b => b
  | .float (.finite negative magnitude) => !negative && magnitude = 1
  | _ => false

section records

variable [FloatText PyFloat]

/-- The payload of a record. -/
def recordPayload [ContentDigest] (content : ByteArray) (createdParentCount : ℕ) : JsonValue :=
  .obj [("schema_version", .int 1), ("content_sha256", .str (contentSha256 content).text),
    ("created_parent_count", .int createdParentCount)]

/-- Source: `strategy_artifact_publication.py` `_publication_record_bytes`. -/
def publicationRecordBytes [ContentDigest] (content : ByteArray) (createdParentCount : ℕ) : ByteArray :=
  ((recordPayload content createdParentCount).dumps.getD "").toUTF8

/-- The record of a JSON value. -/
def PublicationRecord.ofJson (payload : JsonValue) : Option PublicationRecord := do
  let schema ← payload.get? "schema_version"
  let digest ← (← payload.get? "content_sha256").str?
  let count ← (← payload.get? "created_parent_count").int?
  if payload.hasFields publicationRecordFields ∧ isOne schema ∧ isLowerHex 64 digest ∧ 0 ≤ count then
    some ⟨digest, count.toNat⟩
  else none

/-- The record of the bytes of a file. -/
def PublicationRecord.decode (bytes : ByteArray) : Option PublicationRecord := do
  let text ← String.fromUTF8? bytes
  let payload ← Json.loads text
  PublicationRecord.ofJson payload

/-- Source: `strategy_artifact_publication.py` `_read_publication_record`. -/
def readPublicationRecord (path : ArtifactFile) (label : String) : Action PublicationRecord := do
  let bytes ← readRegularPublicationRecordBytes path label
  match PublicationRecord.decode bytes with
  | some record => pure record
  | none => raise (.recoveryRequired s!"strategy artifact {label} is invalid")

/-- Source: `strategy_artifact_publication.py` `_require_record_content`. -/
def requireRecordContent [ContentDigest] (record : PublicationRecord) (content : ByteArray) (label : String) :
    Action Unit :=
  check (record.contentSha256 = (contentSha256 content).text)
    (.conflict s!"strategy artifact {label} does not match the requested content")

/-- Source: `strategy_artifact_publication.py` `_require_matching_pending_record` and
`_require_matching_pending_content`: the records match in full, or in their content. -/
def requireMatchingPending (full : Bool) (witness : PublicationRecord) : Action Unit := do
  if ← publicationRecordExists .pendingMarker "pending marker" then do
    let pending ← readPublicationRecord .pendingMarker "pending marker"
    if full then
      check (pending = witness)
        (.recoveryRequired "strategy artifact pending marker does not match the commit witness")
    else
      check (pending.contentSha256 = witness.contentSha256)
        (.recoveryRequired "strategy artifact pending marker content does not match the commit witness")
  else pure ()

/-- Source: `strategy_artifact_publication.py` `_read_committed_artifact`. -/
def readCommittedArtifact [ContentDigest] : Action (PublicationRecord × ByteArray) := do
  let witness ← readPublicationRecord .commitWitness "commit witness"
  let committed ← readRegularArtifactBytes
  requireRecordContent witness committed "commit witness"
  pure (witness, committed)

/-- Source: `strategy_artifact_publication.py` `_require_committed_artifact` and
`_require_recoverable_committed_artifact`. -/
def requireCommittedArtifact [ContentDigest] (full : Bool) (expected : ByteArray) : Action Unit := do
  let committed ← readCommittedArtifact
  check (committed.2 = expected)
    (.conflict "immutable strategy artifact path already contains different content")
  requireMatchingPending full committed.1

end records

/-! ## Writes -/

/-- Source: `strategy_artifact_publication.py` `_unlink_owned_file_best_effort`. -/
def unlinkOwnedFileBestEffort (path : ArtifactFile) (expectedStatus : FileStatus) : Action Unit :=
  catchOsError (do
    let currentStatus ← call (.lstat path)
    if currentStatus.isRegular ∧ expectedStatus.inode = currentStatus.inode then call (.unlink path) else pure ())
    fun _ => pure ()

/-- The part of a write that works on the open file. -/
def writeHandle (handle : ℕ) (content : ByteArray) : Action Unit := do
  let written ← call (.write handle content)
  check (written = content.size) (.osError .other)
  call (.flush handle)
  call (.fsync handle)

/-- Source: `strategy_artifact_publication.py` `_write_bytes_durably`, with `exclusive=True`. -/
def writeBytesDurably (path : ArtifactFile) (content : ByteArray) : Action Unit := do
  let handle ← call (.create path)
  match ← attempt (.fstat handle) with
  | .error error => withHandle handle (raise (.osError error))
  | .ok createdStatus =>
      catchOsError (withHandle handle (writeHandle handle content)) fun error => do
        unlinkOwnedFileBestEffort path createdStatus
        raise (.osError error)

/-- `path.unlink(missing_ok=True)`. -/
def unlinkMissingOk (path : ArtifactFile) : Action Unit := do
  match ← attempt (.unlink path) with
  | .ok () | .error .fileNotFound => pure ()
  | .error error => raise (.osError error)

/-- `finally:` a temporary file is removed, if that works. -/
def removingTemporary {α : Type} (uuid : ℕ) (p : Action α) : Action α :=
  finally_ p (catchOsError (unlinkMissingOk (.temporary uuid)) fun _ => pure ())

/-! ## Directories -/

/-- The directory of the artifact. -/
structure Site where
  /-- Its level below the root. -/
  parent : ℕ

/-- The loop of `_create_parent_directories`: how many directories are missing. -/
def missingDirectories : ℕ → Action ℕ
  | 0 => do
      let exists_ ← call (.isDir 0)
      if exists_ then pure 0 else raise (.osError .other)
  | level + 1 => do
      let exists_ ← call (.isDir (level + 1))
      if exists_ then pure 0
      else do
        let missing ← missingDirectories level
        pure (missing + 1)

/-- `exist_ok=True`: the error of `mkdir` is raised unless the directory is there. -/
def existOk (level : ℕ) (error : OsError) : Action Unit := do
  let isDir ← call (.isDir level)
  check isDir (.osError error)

/-- `directory.mkdir(exist_ok=True)`. -/
def mkdirExistOk (level : ℕ) : Action Unit := do
  match ← attempt (.mkdir level) with
  | .ok () => pure ()
  | .error .fileNotFound => raise (.osError .fileNotFound)
  | .error error => existOk level error

/-- `directory.mkdir(parents=True, exist_ok=True)`. -/
def mkdirParents : ℕ → Action Unit
  | 0 => mkdirExistOk 0
  | level + 1 => do
      match ← attempt (.mkdir (level + 1)) with
      | .ok () => pure ()
      | .error .fileNotFound => do
          mkdirParents level
          mkdirExistOk (level + 1)
      | .error error => existOk (level + 1) error

/-- Source: `strategy_artifact_publication.py` `_create_parent_directories`: how many directories it created. -/
def createParentDirectories (site : Site) : Action ℕ := do
  let created ← missingDirectories site.parent
  mkdirParents site.parent
  pure created

/-- Source: `strategy_artifact_publication.py` `_created_directories_from_count`, from a level on. -/
def createdDirectoriesFromCount : ℕ → ℕ → Action Unit
  | _, 0 => pure ()
  | level, count + 1 => do
      let isDir ← call (.isDir level)
      check isDir (.recoveryRequired "strategy artifact recovery directory chain is missing")
      match level with
      | 0 => raise (.recoveryRequired "strategy artifact recovery directory count escapes the path")
      | level + 1 => createdDirectoriesFromCount level count

/-- Source: `strategy_artifact_publication.py` `_require_anchor_covers_created_directories`. -/
def requireAnchorCoversCreatedDirectories (site : Site) (count anchor : ℕ) : Action Unit :=
  if count = 0 then pure () else do
    catchOsError (call (.resolve (site.parent - count))) fun _ =>
      raise (.recoveryRequired "strategy artifact recorded parent lineage cannot be resolved")
    check (anchor ≤ site.parent - count)
      (.recoveryRequired "strategy artifact durability anchor is inside the recorded parent lineage")

/-- The anchor is a directory above the artifact, of some level, or any other path.
Source: `strategy_artifact_publication.py` `_resolve_durability_anchor`. -/
def resolveDurabilityAnchor (site : Site) (durabilityAnchor : Option ℕ) : Action ℕ :=
  match durabilityAnchor with
  | none => raise (.publication "strategy artifact durability anchor must contain the artifact path")
  | some level => do
      catchOsError (call (.resolve level)) fun _ =>
        raise (.publication "strategy artifact durability anchor cannot be resolved")
      let isDir ← call (.isDir level)
      check isDir (.publication "strategy artifact durability anchor must be an existing directory")
      check (level ≤ site.parent) (.publication "strategy artifact durability anchor must contain the artifact path")
      pure level

/-- The loop of `_fsync_directory_entries_to_anchor`. -/
def fsyncParents (anchor : ℕ) : ℕ → Action Unit
  | 0 => pure ()
  | level + 1 =>
      if level + 1 = anchor then pure ()
      else do
        call (.fsyncDirectory level)
        fsyncParents anchor level

/-- Source: `strategy_artifact_publication.py` `_fsync_directory_entries_to_anchor`. -/
def fsyncDirectoryEntriesToAnchor (site : Site) (anchor : ℕ) : Action Unit := do
  catchOsError (call (.resolve site.parent)) fun _ =>
    raise (.recoveryRequired "strategy artifact parent directory chain cannot be resolved")
  check (anchor ≤ site.parent)
    (.recoveryRequired "strategy artifact parent directory escaped its durability anchor")
  fsyncParents anchor site.parent

/-- `_fsync_directory(artifact_path.parent)`. -/
def fsyncParent (site : Site) : Action Unit := call (.fsyncDirectory site.parent)

/-! ## Installation and commit -/

/-- Source: `strategy_artifact_publication.py` `_install_final_without_overwrite`. -/
def installFinalWithoutOverwrite (uuid : ℕ) (expected : ByteArray) : Action Unit := do
  match ← attempt (.link (.temporary uuid) .final) with
  | .error .fileExists => requireIdenticalArtifact expected
  | .error error => raise (.osError error)
  | .ok () => call (.unlink (.temporary uuid))

/-- The witness that the publisher linked itself is removed when its directory cannot be synced. -/
def removeCreatedWitness (site : Site) (created : Bool) : Action Unit :=
  if created then
    catchOsError (do
      unlinkMissingOk .commitWitness
      fsyncParent site) fun _ => pure ()
  else pure ()

/-- The witness is linked, unless the same one is there; whether it was created. -/
def linkWitness (markerBytes : ByteArray) : Action Bool := do
  match ← attempt (.link .pendingMarker .commitWitness) with
  | .ok () => pure true
  | .error .fileExists => do
      let _ ← readRegularPublicationRecordBytes .commitWitness "commit witness" (some markerBytes) true
      pure false
  | .error error => raise (.osError error)

/-- Source: `strategy_artifact_publication.py` `_establish_commit_witness`. -/
def establishCommitWitness (site : Site) (markerBytes : ByteArray) : Action Unit := do
  let created ← linkWitness markerBytes
  catchOsError (fsyncParent site) fun error => do
    removeCreatedWitness site created
    raise (.osError error)
  let _ ← readRegularPublicationRecordBytes .commitWitness "commit witness" (some markerBytes) true
  pure ()

/-- The copy of the witness when it cannot be linked. -/
def copyWitness : Action Unit :=
  catchOsError (do
    let bytes ← readRegularPublicationRecordBytes .commitWitness "commit witness"
    writeBytesDurably .pendingMarker bytes) fun
    | .fileExists => pure ()
    | error => raise (.osError error)

/-- The marker is linked again, or copied, unless it is there. -/
def relinkMarker : Action Unit := do
  let isThere ← pathEntryExists .pendingMarker
  if isThere then pure ()
  else catchOsError (call (.link .commitWitness .pendingMarker)) fun
    | .fileExists => pure ()
    | _ => copyWitness

/-- Source: `strategy_artifact_publication.py` `_restore_pending_marker_best_effort`. -/
def restorePendingMarkerBestEffort (site : Site) : Action Unit :=
  catchOsError (do
    relinkMarker
    fsyncParent site) fun _ => pure ()

/-- Source: `strategy_artifact_publication.py` `_remove_pending_marker_durably`. -/
def removePendingMarkerDurably (site : Site) : Action Unit := do
  if ← publicationRecordExists .pendingMarker "pending marker" then
    catchOsError (do
      unlinkMissingOk .pendingMarker
      fsyncParent site) fun error => do
        restorePendingMarkerBestEffort site
        if ← publicationRecordExists .pendingMarker "pending marker" then raise (.osError error)
        else
          catchOsError (fsyncParent site) fun error => do
            if ← publicationRecordExists .pendingMarker "pending marker" then raise (.osError error) else pure ()
  else pure ()

/-- `StrategyArtifactRecoveryRequiredError("… unresolved pending publication")`. -/
def unresolved : Raised := .recoveryRequired "strategy artifact has an unresolved pending publication"

/-- Source: `strategy_artifact_publication.py` `_reject_pending_marker`. -/
def rejectPendingMarker : Action Unit := do
  let pending ← publicationRecordExists .pendingMarker "pending marker"
  check (!pending) unresolved

section entryPoints

variable [ContentDigest] [FloatText PyFloat]

/-- Source: `strategy_artifact_publication.py` `_finish_publication_against_concurrent_commit`. -/
def finishPublicationAgainstConcurrentCommit (site : Site) (expected markerBytes : ByteArray) : Action Unit := do
  let _ ← readRegularPublicationRecordBytes .pendingMarker "pending marker" (some markerBytes) true
  let committed ← readCommittedArtifact
  fsyncPublicationRecord .commitWitness "commit witness"
  let _ ← readRegularArtifactBytes (some committed.2) true
  fsyncParent site
  let current ← readCommittedArtifact
  check (current = committed)
    (.recoveryRequired "strategy artifact concurrent commit changed during verification")
  let _ ← readRegularPublicationRecordBytes .pendingMarker "pending marker" (some markerBytes)
  removePendingMarkerDurably site
  check (committed.2 = expected)
    (.conflict "immutable strategy artifact path already contains different content")

/-! ## Publishing -/

/-- A publication that finds a witness. -/
def publishCommitted (site : Site) (encoded : ByteArray) (anchor : ℕ) : Action Unit := do
  requireCommittedArtifact true encoded
  rejectPendingMarker
  fsyncPublicationRecord .commitWitness "commit witness"
  requireIdenticalArtifact encoded
  fsyncParent site
  fsyncDirectoryEntriesToAnchor site anchor
  requireCommittedArtifact true encoded
  rejectPendingMarker

/-- The pending marker is written, unless one is there. -/
def writePendingMarker (site : Site) (markerBytes : ByteArray) : Action Unit :=
  catchOsError (writeBytesDurably .pendingMarker markerBytes) fun
    | .fileExists => raise (.recoveryRequired "strategy artifact publication is already pending")
    | error => do
        fsyncParent site
        raise (.osError error)

/-- The end of a publication and of a recovery: the final file is there. -/
def commit (site : Site) (encoded markerBytes : ByteArray) : Action Unit := do
  fsyncParent site
  requireIdenticalArtifact encoded
  establishCommitWitness site markerBytes
  removePendingMarkerDurably site

/-- The final file is installed, unless the same one is there. -/
def installUnlessThere (uuid : ℕ) (encoded : ByteArray) : Action Unit := do
  let installed ← pathEntryExists .final
  if installed then requireIdenticalArtifact encoded else installFinalWithoutOverwrite uuid encoded

/-- A publication that finds neither witness nor marker nor final file, from its temporary file on. -/
def publishThroughMarker (site : Site) (uuid : ℕ) (encoded : ByteArray) (created anchor : ℕ) : Action Unit := do
  writeBytesDurably (.temporary uuid) encoded
  let markerBytes := publicationRecordBytes encoded created
  writePendingMarker site markerBytes
  fsyncParent site
  fsyncDirectoryEntriesToAnchor site anchor
  let witnessed ← publicationRecordExists .commitWitness "commit witness"
  if witnessed then finishPublicationAgainstConcurrentCommit site encoded markerBytes
  else do
    installUnlessThere uuid encoded
    commit site encoded markerBytes

/-- The body of the outer `try` of `publish_strategy_artifact`. -/
def publishBody (site : Site) (uuid : ℕ) (encoded : ByteArray) (anchor : ℕ) : Action Unit := do
  let created ← createParentDirectories site
  let witnessed ← publicationRecordExists .commitWitness "commit witness"
  if witnessed then publishCommitted site encoded anchor
  else do
    rejectPendingMarker
    let installed ← pathEntryExists .final
    if installed then do
      requireIdenticalArtifact encoded
      fsyncParent site
      fsyncDirectoryEntriesToAnchor site anchor
    else removingTemporary uuid (publishThroughMarker site uuid encoded created anchor)

/-- The `uuid4` of the call is a parameter. Source: `strategy_artifact_publication.py` `publish_strategy_artifact`. -/
def publishStrategyArtifact (site : Site) (uuid : ℕ) (text : String) (durabilityAnchor : Option ℕ) : Action Unit := do
  let anchor ← resolveDurabilityAnchor site durabilityAnchor
  catchOsError (publishBody site uuid text.toUTF8 anchor) fun error =>
    raise (.publication ("strategy artifact publication failed: " ++ error.name))

/-! ## Recovery -/

/-- A recovery that finds a witness. -/
def recoverCommitted (site : Site) (encoded : ByteArray) (anchor : ℕ) : Action Unit := do
  requireCommittedArtifact false encoded
  fsyncPublicationRecord .commitWitness "commit witness"
  requireIdenticalArtifact encoded
  fsyncParent site
  fsyncDirectoryEntriesToAnchor site anchor
  requireCommittedArtifact false encoded
  removePendingMarkerDurably site

/-- The final file is installed again, from a temporary file. -/
def reinstall (uuid : ℕ) (encoded : ByteArray) : Action Unit := do
  writeBytesDurably (.temporary uuid) encoded
  installFinalWithoutOverwrite uuid encoded

/-- A recovery that finds a marker and no witness. -/
def recoverPending (site : Site) (uuid : ℕ) (encoded : ByteArray) (anchor : ℕ) : Action Unit := do
  let marker ← readPublicationRecord .pendingMarker "pending marker"
  check (marker.contentSha256 = (contentSha256 encoded).text)
    (.conflict "pending strategy artifact publication belongs to different content")
  createdDirectoriesFromCount site.parent marker.createdParentCount
  requireAnchorCoversCreatedDirectories site marker.createdParentCount anchor
  let markerBytes := publicationRecordBytes encoded marker.createdParentCount
  let _ ← readRegularPublicationRecordBytes .pendingMarker "pending marker" (some markerBytes) true
  fsyncParent site
  fsyncDirectoryEntriesToAnchor site anchor
  let installed ← pathEntryExists .final
  if installed then do
    requireIdenticalArtifact encoded
    commit site encoded markerBytes
  else removingTemporary uuid do
    reinstall uuid encoded
    commit site encoded markerBytes

/-- The body of the outer `try` of `recover_strategy_artifact`. -/
def recoverBody (site : Site) (uuid : ℕ) (text : String) (anchor : ℕ) : Action Unit := do
  let witnessed ← publicationRecordExists .commitWitness "commit witness"
  if witnessed then recoverCommitted site text.toUTF8 anchor
  else do
    let pending ← publicationRecordExists .pendingMarker "pending marker"
    if pending then recoverPending site uuid text.toUTF8 anchor
    else publishStrategyArtifact site uuid text (some anchor)

/-- Source: `strategy_artifact_publication.py` `recover_strategy_artifact`. -/
def recoverStrategyArtifact (site : Site) (uuid : ℕ) (text : String) (durabilityAnchor : Option ℕ) : Action Unit := do
  let anchor ← resolveDurabilityAnchor site durabilityAnchor
  catchOsError (recoverBody site uuid text anchor) fun error =>
    raise (.publication ("strategy artifact recovery failed: " ++ error.name))

/-! ## Reading -/

/-- A read that finds a witness. -/
def readWitnessed : Action String := do
  let witness ← readPublicationRecord .commitWitness "commit witness"
  let text ← readRegularArtifactText
  requireRecordContent witness text.toUTF8 "commit witness"
  let witnessed ← publicationRecordExists .commitWitness "commit witness"
  check witnessed (.recoveryRequired "strategy artifact commit witness changed during read")
  let current ← readPublicationRecord .commitWitness "commit witness"
  check (current = witness) (.recoveryRequired "strategy artifact commit witness changed during read")
  rejectPendingMarker
  pure text

/-- A read that finds no witness. -/
def readLegacy : Action String := do
  let text ← readRegularArtifactText
  let witnessed ← publicationRecordExists .commitWitness "commit witness"
  check (!witnessed) (.recoveryRequired "strategy artifact publication state changed during read")
  rejectPendingMarker
  pure text

/-- Source: `strategy_artifact_publication.py` `read_strategy_artifact_text`. -/
def readStrategyArtifactText : Action String := do
  rejectPendingMarker
  let witnessed ← publicationRecordExists .commitWitness "commit witness"
  if witnessed then readWitnessed else readLegacy

end entryPoints

end MuStrategy.Publication
