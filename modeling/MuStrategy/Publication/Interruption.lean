import MuStrategy.Publication.Recovery

/-!
# Interrupted publications

A publication of a fresh path is killed at any point: the states it can leave are a few stages, and the recovery
completes each of them but two. A marker that was written in part is malformed, and a final file that still has its
temporary name has two links; both keep the path closed.

* `Interrupted` — the stages; `interrupted_of_kill` — a kill leaves one of them.
* `recovery_completes` — recovery, and a read and a publication after it.
* `closed_marker`, `closed_final` — the two stages that stay closed; a kill can leave them.
-/

namespace MuStrategy.Publication

open Lib Prog

/-! ## Calls that change nothing -/

/-- The calls that leave the files alone. -/
def FsOp.ReadOnly : FsOp → Prop
  | .create _ | .write _ _ | .link _ _ | .unlink _ | .mkdir _ => False
  | _ => True

lemma FsOp.ReadOnly.perform {op : FsOp} (h : op.ReadOnly) (parent : ℕ) (fs : FileSystem) :
    (Publication.perform parent op fs).2 = fs ∧ ∀ t, During op fs t → t = fs := by
  refine ⟨?_, fun t hduring => ?_⟩
  · cases op with
    | create _ | write _ _ | link _ _ | unlink _ | mkdir _ => exact h.elim
    | lstat name | openFile name _ =>
        simp only [Publication.perform]
        split <;> rfl
    | resolve level | fsyncDirectory level =>
        simp only [Publication.perform]
        split <;> rfl
    | fstat _ | read _ | flush _ | fsync _ | close _ | isDir _ => rfl
  · cases hduring
    exact h.elim

/-- A program that leaves the files alone. -/
abbrev ReadsOnly {α : Type} (p : Action α) : Prop := p.Calls FsOp.ReadOnly

section reading

variable {α β : Type} {p : Action α}

lemma readsOnly_call {op : FsOp} (h : op.ReadOnly) : ReadsOnly (call op) := ⟨h, fun _ => trivial⟩

lemma readsOnly_attempt {op : FsOp} (h : op.ReadOnly) : ReadsOnly (attempt op) := ⟨h, fun _ => trivial⟩

lemma readsOnly_pure (a : α) : ReadsOnly (pure a : Action α) := trivial

lemma readsOnly_raise (error : Raised) : ReadsOnly (raise error : Action α) := trivial

lemma readsOnly_check (condition : Bool) (error : Raised) : ReadsOnly (check condition error) := by
  unfold check
  split <;> trivial

lemma ReadsOnly.catchOsError {f : OsError → Action α} (h : ReadsOnly p) (hf : ∀ error, ReadsOnly (f error)) :
    ReadsOnly (catchOsError p f) := by
  refine Calls.handle h fun error => ?_
  cases error with
  | osError error => exact hf error
  | publication | conflict | recoveryRequired => exact readsOnly_raise _

lemma ReadsOnly.withHandle {handle : ℕ} (h : ReadsOnly p) : ReadsOnly (withHandle handle p) :=
  Calls.finally h (readsOnly_call trivial)

lemma readsOnly_readHandle (handle : ℕ) (status : FileStatus) (label : String) (expected : Option ByteArray)
    (fsync single : Bool) : ReadsOnly (readHandle handle status label expected fsync single) := by
  refine Calls.bind (readsOnly_call trivial) fun _ => Calls.bind (readsOnly_check _ _) fun _ =>
    Calls.bind (readsOnly_check _ _) fun _ => Calls.bind (readsOnly_check _ _) fun _ =>
    Calls.bind (readsOnly_call trivial) fun _ => Calls.bind (readsOnly_check _ _) fun _ =>
    Calls.bind ?_ fun _ => readsOnly_pure _
  unfold fsyncIf
  split
  · exact readsOnly_call trivial
  · exact readsOnly_pure ()

lemma readsOnly_read (path : ArtifactFile) (label : String) (expected : Option ByteArray) (fsync single : Bool) :
    ReadsOnly (readIdentityCheckedRegularBytes path label expected fsync single) := by
  refine ReadsOnly.catchOsError ?_ fun error => ?_
  · exact Calls.bind (readsOnly_call trivial) fun _ => Calls.bind (readsOnly_check _ _) fun _ =>
      Calls.bind (readsOnly_check _ _) fun _ => Calls.bind (readsOnly_call trivial) fun _ =>
      Calls.bind (readsOnly_readHandle _ _ _ _ _ _).withHandle fun _ => Calls.bind (readsOnly_call trivial) fun _ =>
      Calls.bind (readsOnly_check _ _) fun _ => Calls.bind (readsOnly_check _ _) fun _ =>
      Calls.bind (readsOnly_check _ _) fun _ => readsOnly_pure _
  · cases error <;> exact readsOnly_raise _

lemma readsOnly_readRecordBytes (path : ArtifactFile) (label : String) (expected : Option ByteArray) (fsync : Bool) :
    ReadsOnly (readRegularPublicationRecordBytes path label expected fsync) := by
  refine (readsOnly_read path label expected fsync false).catchOsError fun error => ?_
  cases error <;> exact readsOnly_raise _

lemma readsOnly_requireIdentical (expected : ByteArray) : ReadsOnly (requireIdenticalArtifact expected) :=
  Calls.bind (readsOnly_read _ _ _ _ _) fun _ => readsOnly_pure ()

lemma readsOnly_pathEntryExists (path : ArtifactFile) : ReadsOnly (pathEntryExists path) := by
  refine Calls.bind (readsOnly_attempt trivial) fun reply => ?_
  rcases reply with (_ | _ | _) | _ <;> exact readsOnly_pure _

lemma readsOnly_recordExists (path : ArtifactFile) (label : String) : ReadsOnly (publicationRecordExists path label) := by
  refine Calls.bind (readsOnly_attempt trivial) fun reply => ?_
  rcases reply with (_ | _ | _) | status
  · exact readsOnly_pure _
  · exact readsOnly_raise _
  · exact readsOnly_raise _
  · exact Calls.bind (readsOnly_check _ _) fun _ => readsOnly_pure _

lemma readsOnly_rejectPending : ReadsOnly rejectPendingMarker :=
  Calls.bind (readsOnly_recordExists _ _) fun _ => readsOnly_check _ _

lemma readsOnly_missingDirectories (level : ℕ) : ReadsOnly (missingDirectories level) := by
  induction level with
  | zero =>
      refine Calls.bind (readsOnly_call trivial) fun isDir => ?_
      cases isDir <;> trivial
  | succ level ih =>
      refine Calls.bind (readsOnly_call trivial) fun isDir => ?_
      cases isDir with
      | true => trivial
      | false => exact Calls.bind ih fun _ => readsOnly_pure _

lemma readsOnly_existOk (level : ℕ) (error : OsError) : ReadsOnly (existOk level error) :=
  Calls.bind (readsOnly_call trivial) fun _ => readsOnly_check _ _

lemma readsOnly_resolveAnchor (site : Site) (anchor : ℕ) : ReadsOnly (resolveDurabilityAnchor site (some anchor)) :=
  Calls.bind (ReadsOnly.catchOsError (readsOnly_call trivial) fun _ => readsOnly_raise _) fun _ =>
    Calls.bind (readsOnly_call trivial) fun _ => Calls.bind (readsOnly_check _ _) fun _ =>
    Calls.bind (readsOnly_check _ _) fun _ => readsOnly_pure _

lemma readsOnly_fsyncParent (site : Site) : ReadsOnly (fsyncParent site) := readsOnly_call trivial

lemma readsOnly_fsyncToAnchor (site : Site) (anchor : ℕ) : ReadsOnly (fsyncDirectoryEntriesToAnchor site anchor) := by
  refine Calls.bind (ReadsOnly.catchOsError (readsOnly_call trivial) fun _ => readsOnly_raise _) fun _ =>
    Calls.bind (readsOnly_check _ _) fun _ => ?_
  induction site.parent with
  | zero => exact readsOnly_pure ()
  | succ level ih =>
      rw [fsyncParents]
      split
      · exact readsOnly_pure ()
      · exact Calls.bind (readsOnly_call trivial) fun _ => ih

end reading

/-! ## Kills -/

/-- A program that runs alone is killed. -/
abbrev KilledAt (site : Site) {α : Type} (p : Action α) (fs t : FileSystem) : Prop :=
  Kill (perform site.parent) During p fs t

section kills

variable {site : Site} {α β : Type} {p : Action α} {fs t : FileSystem}

lemma ReadsOnly.killed (h : ReadsOnly p) (hkill : KilledAt site p fs t) : t = fs :=
  kill_of_calls (fun _ hop s => hop.perform site.parent s) h hkill

/-- A kill in a sequence happens in its first part or in the rest. -/
lemma killed_bind {f : α → Action β} {s : FileSystem} {a : α} (hrun : alone site p fs = (.ok a, s))
    (h : KilledAt site (p >>= f) fs t) : KilledAt site p fs t ∨ KilledAt site (f a) s t := kill_bind hrun h

/-- The part before the rest changes nothing. -/
lemma killed_bind_reads {f : α → Action β} {a : α} (hreads : ReadsOnly p) (hrun : alone site p fs = (.ok a, fs))
    (h : KilledAt site (p >>= f) fs t) : t = fs ∨ KilledAt site (f a) fs t :=
  (killed_bind hrun h).imp_left hreads.killed

/-- A program that returns is killed in its body or at its end. -/
lemma killed_catch {f : OsError → Action α} {s : FileSystem} {a : α} (hrun : alone site p fs = (.ok a, s))
    (h : KilledAt site (catchOsError p f) fs t) : KilledAt site p fs t ∨ t = s := by
  rcases kill_andThen h with hfirst | hrest
  · exact .inl hfirst
  · rw [show run (perform site.parent) p fs = (.ok a, s) from hrun] at hrest
    exact .inr (kill_done hrest)

lemma killed_call {op : FsOp} {result : Except Raised op.Value} {s : FileSystem} (hrun : alone site (call op) fs = (result, s))
    (h : KilledAt site (call op) fs t) : t = fs ∨ During op fs t ∨ t = s := by
  obtain rfl : (perform site.parent op fs).2 = s := congrArg Prod.snd hrun
  cases h with
  | now => exact .inl rfl
  | inside hduring => exact .inr (.inl hduring)
  | later hlater => exact .inr (.inr (kill_done hlater))

lemma killed_attempt {op : FsOp} {result : Except Raised op.Reply} {s : FileSystem}
    (hrun : alone site (attempt op) fs = (result, s)) (h : KilledAt site (attempt op) fs t) :
    t = fs ∨ During op fs t ∨ t = s := by
  obtain rfl : (perform site.parent op fs).2 = s := congrArg Prod.snd hrun
  cases h with
  | now => exact .inl rfl
  | inside hduring => exact .inr (.inl hduring)
  | later hlater => exact .inr (.inr (kill_done hlater))

/-- The file is closed at the end. -/
lemma killed_withHandle {handle : ℕ} {s : FileSystem} {result : Except Raised α} (hrun : alone site p fs = (result, s))
    (h : KilledAt site (withHandle handle p) fs t) : KilledAt site p fs t ∨ t = s := by
  rcases kill_andThen h with hfirst | hrest
  · exact .inl hfirst
  · rw [show run (perform site.parent) p fs = (result, s) from hrun] at hrest
    have hclose : ReadsOnly ((call (.close handle)).andThen (onValue fun _ => (.done result : Action α))) := by
      refine Calls.andThen (readsOnly_call trivial) fun reply => ?_
      cases reply <;> trivial
    exact .inr (hclose.killed hrest)

/-! ### Parts -/

/-- The calls that make directories down to a level. -/
def Mkdirs (level : ℕ) (op : FsOp) : Prop := op.ReadOnly ∨ ∃ l ≤ level, op = .mkdir l

lemma mkdirs_existOk (level l : ℕ) (error : OsError) : (existOk l error).Calls (Mkdirs level) :=
  (readsOnly_existOk l error).mono fun _ => .inl

lemma mkdirs_attempt {level l : ℕ} (hl : l ≤ level) : (attempt (.mkdir l)).Calls (Mkdirs level) :=
  ⟨.inr ⟨l, hl, rfl⟩, fun _ => trivial⟩

lemma mkdirs_mkdirExistOk {level l : ℕ} (hl : l ≤ level) : (mkdirExistOk l).Calls (Mkdirs level) := by
  refine Calls.bind (mkdirs_attempt hl) fun reply => ?_
  rcases reply with (_ | _ | _) | _
  · trivial
  · exact mkdirs_existOk level l _
  · exact mkdirs_existOk level l _
  · trivial

lemma mkdirs_mkdirParents {level l : ℕ} (hl : l ≤ level) : (mkdirParents l).Calls (Mkdirs level) := by
  induction l with
  | zero => exact mkdirs_mkdirExistOk hl
  | succ l ih =>
      refine Calls.bind (mkdirs_attempt hl) fun reply => ?_
      rcases reply with (_ | _ | _) | _
      · exact Calls.bind (ih (Nat.le_of_succ_le hl)) fun _ => mkdirs_mkdirExistOk hl
      · exact mkdirs_existOk level (l + 1) _
      · exact mkdirs_existOk level (l + 1) _
      · trivial

/-- Directories are made one after the other. -/
lemma killed_mkdirParents {level : ℕ} (h : KilledAt site (mkdirParents level) fs t) : ∃ l ≤ level, t = fs.deepen l := by
  refine kill_keeps (I := fun s => ∃ l ≤ level, s = fs.deepen l) ?_ (mkdirs_mkdirParents le_rfl)
    ⟨0, Nat.zero_le _, (deepen_eq (Nat.zero_le _)).symm⟩ h
  rintro op (hreads | ⟨k, hk, rfl⟩) s ⟨l, hl, rfl⟩
  · obtain ⟨hsame, hduring⟩ := hreads.perform site.parent (fs.deepen l)
    exact ⟨⟨l, hl, hsame⟩, fun u hu => ⟨l, hl, hduring u hu⟩⟩
  · refine ⟨?_, fun u hu => by cases hu⟩
    simp only [perform]
    split
    · exact ⟨l, hl, rfl⟩
    · split
      · rename_i hnot hnext
        refine ⟨k, hk, ?_⟩
        simp only [FileSystem.deepen, FileSystem.mk.injEq, true_and] at hnext ⊢
        omega
      · exact ⟨l, hl, rfl⟩

lemma extend_nothing (handle : ℕ) (content : ByteArray) : fs.extend handle (content.extract 0 0) = fs := by
  have hsame : (fun bytes => bytes ++ content.extract 0 0) = (id : ByteArray → ByteArray) := by
    funext bytes
    simp
  simp only [FileSystem.extend, hsame, List.modify_id]

lemma killed_writeHandle {handle : ℕ} {content : ByteArray} (h : KilledAt site (writeHandle handle content) fs t) :
    ∃ count, t = fs.extend handle (content.extract 0 count) := by
  have hall : fs.extend handle content = fs.extend handle (content.extract 0 content.size) := by
    rw [ByteArray.extract_zero_size]
  rcases killed_bind (alone_write handle content) h with hwrite | hrest
  · rcases killed_call (alone_write handle content) hwrite with rfl | hduring | rfl
    · exact ⟨0, (extend_nothing handle content).symm⟩
    · cases hduring with
      | write count => exact ⟨count, rfl⟩
    · exact ⟨_, hall⟩
  · refine ⟨_, (ReadsOnly.killed ?_ hrest).trans hall⟩
    exact Calls.bind (readsOnly_check _ _) fun _ => Calls.bind (readsOnly_call trivial) fun _ => readsOnly_call trivial

/-- A file is not there, or it was written in part. -/
lemma killed_writeDurably {path : ArtifactFile} {content : ByteArray} (hnone : fs.entry path = none)
    (hdepth : site.parent ≤ fs.depth) (h : KilledAt site (writeBytesDurably path content) fs t) :
    t = fs ∨ ∃ count, t = (fs.addFile path).extend fs.contents.length (content.extract 0 count) := by
  have hcreate := alone_create hnone hdepth
  have hfstat : ReadsOnly (attempt (.fstat fs.contents.length)) := readsOnly_attempt trivial
  rcases killed_bind hcreate h with hcreating | hrest
  · rcases killed_call hcreate hcreating with rfl | hduring | rfl
    · exact .inl rfl
    · cases hduring
    · exact .inr ⟨0, (extend_nothing _ _).symm⟩
  · right
    rcases killed_bind_reads hfstat (alone_attempt_fstat _) hrest with rfl | hrest
    · exact ⟨0, (extend_nothing _ _).symm⟩
    · have hwhole : (fs.addFile path).extend fs.contents.length content =
          (fs.addFile path).extend fs.contents.length (content.extract 0 content.size) := by
        rw [ByteArray.extract_zero_size]
      rcases killed_catch (alone_withHandle _ (alone_writeHandle _ content)) hrest with hwrite | rfl
      · rcases killed_withHandle (alone_writeHandle _ content) hwrite with hwrite | rfl
        · exact killed_writeHandle hwrite
        · exact ⟨_, hwhole⟩
      · exact ⟨_, hwhole⟩

variable {uuid : ℕ} {base : FileSystem} {names : List (ArtifactFile × ℕ)} {files : List ByteArray}

lemma killed_write_stage (h : Stale uuid base) (hdepth : site.parent ≤ base.depth) {name : ArtifactFile}
    (hname : ∀ j, j ≠ uuid → name ≠ .temporary j) (hfound : names.find? (fun e => e.1 = name) = none) {content : ByteArray}
    (hkill : KilledAt site (writeBytesDurably name content) (base.stage names files) t) :
    t = base.stage names files ∨
      ∃ count, t = base.stage (names ++ [(name, files.length)]) (files ++ [content.extract 0 count]) := by
  refine (killed_writeDurably (entry_stage_none h hname hfound) hdepth hkill).imp_right ?_
  rintro ⟨count, rfl⟩
  have hlength : (base.stage names files).contents.length = base.contents.length + files.length := List.length_append
  refine ⟨count, ?_⟩
  rw [addFile_stage, hlength, extend_stage (by simp)]
  simp

variable {encoded markerBytes : ByteArray}

/-- The names after the final file was linked, and before its temporary name is removed. -/
abbrev linkedNames (uuid : ℕ) : List (ArtifactFile × ℕ) := [(.temporary uuid, 0), (.pendingMarker, 1), (.final, 0)]

lemma killed_unlinkMissingOk {name : ArtifactFile} {result : Except Raised Unit} {s : FileSystem}
    (hrun : alone site (unlinkMissingOk name) fs = (result, s)) (h : KilledAt site (unlinkMissingOk name) fs t) :
    t = fs ∨ t = s := by
  have hattempt : alone site (attempt (.unlink name)) fs = ((alone site (attempt (.unlink name)) fs).1, s) := by
    rw [alone_unlinkMissingOk] at hrun
    obtain ⟨-, rfl⟩ := Prod.mk.inj hrun
    cases hname : fs.entry name <;> simp only [alone, run, attempt, perform, hname] <;> rfl
  rcases kill_andThen h with hunlink | hrest
  · rcases killed_attempt hattempt hunlink with rfl | hduring | rfl
    · exact .inl rfl
    · cases hduring
    · exact .inr rfl
  · rw [show run (perform site.parent) (attempt (.unlink name)) fs = _ from hattempt] at hrest
    refine .inr (ReadsOnly.killed ?_ hrest)
    rcases (alone site (attempt (.unlink name)) fs).1 with _ | ((_ | _ | _) | _) <;> trivial

/-- The final file has a second name until the temporary one is removed. -/
lemma killed_install (h : Stale uuid base)
    (hkill : KilledAt site (installFinalWithoutOverwrite uuid encoded) (base.stage (markedNames uuid) files) t) :
    t = base.stage (markedNames uuid) files ∨
      t = base.stage (linkedNames uuid) files ∨
      t = base.stage (installedNames 1 0) files := by
  have htemporary : (markedNames uuid).find? (fun e => e.1 = .temporary uuid) = some (.temporary uuid, 0) := by simp
  have hlink : alone site (attempt (.link (.temporary uuid) .final)) (base.stage (markedNames uuid) files) = _ :=
    alone_linkFinal h htemporary (by simp)
  have hunlink : alone site (call (.unlink (.temporary uuid)))
      (base.stage (markedNames uuid ++ [(.final, 0)]) files) = _ := alone_unlinkTemporary h htemporary
  rcases killed_bind hlink hkill with hlinking | hrest
  · rcases killed_attempt hlink hlinking with rfl | hduring | rfl
    · exact .inl rfl
    · cases hduring
    · exact .inr (.inl rfl)
  · rcases killed_call hunlink hrest with rfl | hduring | rfl
    · exact .inr (.inl rfl)
    · cases hduring
    · refine .inr (.inr ?_)
      simp [installing]

/-- The witness is linked. -/
lemma killed_establish (h : Stale uuid base) (hdepth : site.parent ≤ base.depth) {i j : ℕ}
    (hkill : KilledAt site (establishCommitWitness site markerBytes) (base.stage (installedNames i j) files) t) :
    t = base.stage (installedNames i j) files ∨ t = base.stage (witnessedNames i j) files := by
  have hlink : alone site (attempt (.link .pendingMarker .commitWitness)) (base.stage (installedNames i j) files) = _ :=
    alone_attempt_linkWitness h
  rcases killed_bind (alone_linkWitness h) hkill with hlinking | hrest
  · rcases killed_bind hlink hlinking with hlinking | hrest
    · rcases killed_attempt hlink hlinking with rfl | hduring | rfl
      · exact .inl rfl
      · cases hduring
      · exact .inr rfl
    · exact .inr (kill_done hrest)
  · right
    rcases killed_bind (alone_catch (alone_fsync_stage hdepth) _) hrest with hsync | hrest
    · rcases killed_catch (alone_fsync_stage hdepth) hsync with hsync | rfl
      · exact (readsOnly_fsyncParent site).killed hsync
      · rfl
    · exact ReadsOnly.killed (Calls.bind (readsOnly_readRecordBytes _ _ _ _) fun _ => readsOnly_pure ()) hrest

/-- The marker is removed. -/
lemma killed_remove (h : Stale uuid base) (hdepth : site.parent ≤ base.depth) {i j : ℕ}
    (hkill : KilledAt site (removePendingMarkerDurably site) (base.stage (witnessedNames i j) files) t) :
    t = base.stage (witnessedNames i j) files ∨ t = base.stage (committedNames i j) files := by
  have hpending : (base.stage (witnessedNames i j) files).entry .pendingMarker = some (base.contents.length + i) :=
    (hasFile_stage h (by simp) (by simp)).entry
  rcases killed_bind_reads (readsOnly_recordExists _ _) (alone_recordExists _ _) hkill with rfl | hkill
  · exact .inl rfl
  rw [hpending, Option.isSome_some, if_pos rfl] at hkill
  have hbody : alone site (do
      unlinkMissingOk .pendingMarker
      fsyncParent site) (base.stage (witnessedNames i j) files) = (.ok (), base.stage (committedNames i j) files) := by
    rw [alone_bind_ok (alone_unlinkMarker h)]
    exact alone_fsync_stage hdepth
  rcases killed_catch hbody hkill with hkill | rfl
  · rcases killed_bind (alone_unlinkMarker h) hkill with hunlink | hsync
    · exact killed_unlinkMissingOk (alone_unlinkMarker h) hunlink
    · exact .inr ((readsOnly_fsyncParent site).killed hsync)
  · exact .inr rfl

lemma killed_commit (h : Stale uuid base) (hdepth : site.parent ≤ base.depth) {i j : ℕ} (hij : i ≠ j)
    (hmarker : files.getD i ByteArray.empty = markerBytes) (hartifact : files.getD j ByteArray.empty = encoded)
    (hkill : KilledAt site (commit site encoded markerBytes) (base.stage (installedNames i j) files) t) :
    t = base.stage (installedNames i j) files ∨ t = base.stage (witnessedNames i j) files ∨
      t = base.stage (committedNames i j) files := by
  have hfinal : HasFile (base.stage (installedNames i j) files) .final (base.contents.length + j)
      (files.getD j ByteArray.empty) := hasFile_stage h (by simp) (by simp)
  have hlinks : (base.stage (installedNames i j) files).links (base.contents.length + j) = 1 := by
    rw [links_stage h]
    simp [hij]
  have hidentical : alone site (requireIdenticalArtifact (files.getD j ByteArray.empty)) _ = _ :=
    alone_requireIdentical hfinal hlinks
  rw [hartifact] at hidentical
  rcases killed_bind_reads (readsOnly_fsyncParent site) (alone_fsync_stage hdepth) hkill with rfl | hkill
  · exact .inl rfl
  rcases killed_bind_reads (readsOnly_requireIdentical encoded) hidentical hkill with rfl | hkill
  · exact .inl rfl
  rcases killed_bind (alone_establishCommitWitness h hdepth hmarker) hkill with hwitness | hkill
  · exact (killed_establish h hdepth hwitness).imp_right .inl
  · exact .inr (killed_remove h hdepth hkill)

end kills

/-! ## Stages of an interrupted publication -/

/-- What a kill leaves of a publication: directories that were made, a temporary file and a marker that were written
in part, the final file with two names, and then the names of a commit. -/
inductive Interrupted (uuid parent : ℕ) (base : FileSystem) (encoded markerBytes : ByteArray) : FileSystem → Prop where
  | directories (level : ℕ) (h : level ≤ parent) : Interrupted uuid parent base encoded markerBytes (base.deepen level)
  | temporary (count : ℕ) : Interrupted uuid parent base encoded markerBytes
      ((base.deepen parent).stage [(.temporary uuid, 0)] [encoded.extract 0 count])
  | marker (count : ℕ) : Interrupted uuid parent base encoded markerBytes
      ((base.deepen parent).stage (markedNames uuid) [encoded, markerBytes.extract 0 count])
  | linked : Interrupted uuid parent base encoded markerBytes
      ((base.deepen parent).stage (linkedNames uuid) [encoded, markerBytes])
  | installed : Interrupted uuid parent base encoded markerBytes
      ((base.deepen parent).stage (installedNames 1 0) [encoded, markerBytes])
  | witnessed : Interrupted uuid parent base encoded markerBytes
      ((base.deepen parent).stage (witnessedNames 1 0) [encoded, markerBytes])
  | committed : Interrupted uuid parent base encoded markerBytes
      ((base.deepen parent).stage (committedNames 1 0) [encoded, markerBytes])

lemma Interrupted.unchanged {uuid parent : ℕ} {base : FileSystem} {encoded markerBytes : ByteArray} :
    Interrupted uuid parent base encoded markerBytes base := by
  have hstage : Interrupted uuid parent base encoded markerBytes _ := .directories 0 (Nat.zero_le parent)
  rwa [deepen_eq (Nat.zero_le base.depth)] at hstage

section interrupted

variable {site : Site} {uuid anchor : ℕ} {base t : FileSystem} [ContentDigest] [FloatText PyFloat]

lemma interrupted_of_publishThroughMarker (h : Stale uuid base) (hanchor : anchor ≤ site.parent) {encoded : ByteArray}
    {created : ℕ}
    (hkill : KilledAt site (publishThroughMarker site uuid encoded created anchor) (base.deepen site.parent) t) :
    Interrupted uuid site.parent base encoded (publicationRecordBytes encoded created) t := by
  rw [publishThroughMarker] at hkill
  generalize publicationRecordBytes encoded created = markerBytes at *
  have hdeep := h.deepen site.parent
  have hdepth : site.parent ≤ (base.deepen site.parent).depth := le_max_right _ _
  have hmarked : site.parent ≤ ((base.deepen site.parent).stage (markedNames uuid) [encoded, markerBytes]).depth := hdepth
  have hwhole : encoded.extract 0 encoded.size = encoded := ByteArray.extract_zero_size
  have hmarker : markerBytes.extract 0 markerBytes.size = markerBytes := ByteArray.extract_zero_size
  have hwritten : Interrupted uuid site.parent base encoded markerBytes
      ((base.deepen site.parent).stage [(.temporary uuid, 0)] [encoded]) := by
    have hstage : Interrupted uuid site.parent base encoded markerBytes _ := .temporary encoded.size
    rwa [hwhole] at hstage
  have hfull : Interrupted uuid site.parent base encoded markerBytes
      ((base.deepen site.parent).stage (markedNames uuid) [encoded, markerBytes]) := by
    have hstage : Interrupted uuid site.parent base encoded markerBytes _ := .marker markerBytes.size
    rwa [hmarker] at hstage
  rcases killed_bind (alone_writeTemporary hdeep hdepth) hkill with htemporary | hkill
  · rw [← show (base.deepen site.parent).stage [] [] = base.deepen site.parent from stage_nil] at htemporary
    rcases killed_write_stage hdeep hdepth temporary_ne rfl htemporary with rfl | ⟨count, rfl⟩
    · rw [stage_nil]
      exact .directories _ le_rfl
    · exact .temporary count
  rcases killed_bind (alone_writeMarker hdeep hdepth) hkill with hwriting | hkill
  · have hwrite : alone site (writeBytesDurably .pendingMarker markerBytes)
        ((base.deepen site.parent).stage [(.temporary uuid, 0)] [encoded]) = _ :=
      alone_write_stage hdeep hdepth (by simp) (by simp) markerBytes
    rcases killed_catch hwrite hwriting with hwriting | rfl
    · rcases killed_write_stage hdeep hdepth (by simp) (by simp) hwriting with rfl | ⟨count, rfl⟩
      · exact hwritten
      · exact .marker count
    · exact hfull
  rcases killed_bind_reads (readsOnly_fsyncParent site) (alone_fsync_stage hdepth) hkill with rfl | hkill
  · exact hfull
  rcases killed_bind_reads (readsOnly_fsyncToAnchor site anchor) (alone_fsyncToAnchor hanchor hmarked) hkill with rfl | hkill
  · exact hfull
  rcases killed_bind_reads (readsOnly_recordExists _ _) (alone_recordExists _ _) hkill with rfl | hkill
  · exact hfull
  rw [entry_stage_none hdeep (by simp) (by simp), Option.isSome_none, if_neg Bool.false_ne_true] at hkill
  rcases killed_bind (alone_installUnlessThere hdeep) hkill with hinstall | hkill
  · rcases killed_bind_reads (readsOnly_pathEntryExists .final) (alone_pathEntryExists .final) hinstall with rfl | hinstall
    · exact hfull
    rw [entry_stage_none hdeep (by simp) (by simp), Option.isSome_none, if_neg Bool.false_ne_true] at hinstall
    rcases killed_install hdeep hinstall with rfl | rfl | rfl
    · exact hfull
    · exact .linked
    · exact .installed
  · rcases killed_commit hdeep hdepth Nat.one_ne_zero (show [encoded, markerBytes].getD 1 ByteArray.empty = _ from rfl)
      (show [encoded, markerBytes].getD 0 ByteArray.empty = _ from rfl) hkill with rfl | rfl | rfl
    · exact .installed
    · exact .witnessed
    · exact .committed

/-- The temporary file that is removed at the end is not there any more. -/
lemma interrupted_of_publishing (h : Stale uuid base) (hanchor : anchor ≤ site.parent) {encoded : ByteArray} {created : ℕ}
    (hkill : KilledAt site (removingTemporary uuid (publishThroughMarker site uuid encoded created anchor))
      (base.deepen site.parent) t) :
    Interrupted uuid site.parent base encoded (publicationRecordBytes encoded created) t := by
  have hdeep := h.deepen site.parent
  rcases kill_andThen hkill with hkill | hkill
  · exact interrupted_of_publishThroughMarker h hanchor hkill
  · have hrun : alone site (publishThroughMarker site uuid encoded created anchor) (base.deepen site.parent) = _ :=
      alone_publishThroughMarker hdeep (le_max_right _ _) hanchor
    rw [show run (perform site.parent) (publishThroughMarker site uuid encoded created anchor) (base.deepen site.parent) = _
      from hrun] at hkill
    have hunlink : alone site (unlinkMissingOk (.temporary uuid)) ((base.deepen site.parent).stage (committedNames 1 0)
        [encoded, publicationRecordBytes encoded created]) = _ := alone_unlinkMissingOk (.temporary uuid)
    rw [entry_stage_none hdeep temporary_ne (by simp), Option.isSome_none, if_neg Bool.false_ne_true] at hunlink
    rcases kill_andThen hkill with hkill | hkill
    · rcases killed_catch hunlink hkill with hkill | rfl
      · rcases killed_unlinkMissingOk hunlink hkill with rfl | rfl <;> exact .committed
      · exact .committed
    · rw [show run (perform site.parent) (catchOsError (unlinkMissingOk (.temporary uuid)) fun _ => pure ()) _ = _ from
        alone_catch hunlink _] at hkill
      exact kill_done hkill ▸ .committed

/-- **A kill of a publication of a fresh path leaves one of the stages.** -/
theorem interrupted_of_kill (h : Stale uuid base) (text : String) (hanchor : anchor ≤ site.parent) (hdepth : anchor ≤ base.depth)
    (hkill : KilledAt site (publishStrategyArtifact site uuid text (some anchor)) base t) :
    Interrupted uuid site.parent base text.toUTF8 (publicationRecordBytes text.toUTF8 (site.parent - base.depth)) t := by
  have hcreated : alone site (createParentDirectories site) base = _ := alone_createParents
  rw [publishStrategyArtifact] at hkill
  rcases killed_bind_reads (readsOnly_resolveAnchor site anchor) (alone_resolveAnchor hanchor hdepth) hkill with rfl | hkill
  · exact .unchanged
  rcases killed_catch (alone_publishBody h hanchor) hkill with hkill | rfl
  · rw [publishBody] at hkill
    rcases killed_bind hcreated hkill with hcreating | hkill
    · rcases killed_bind_reads (readsOnly_missingDirectories _) (alone_missingDirectories _) hcreating with rfl | hcreating
      · exact .unchanged
      rcases killed_bind (alone_mkdirParents _) hcreating with hmaking | hdone
      · obtain ⟨level, hlevel, rfl⟩ := killed_mkdirParents hmaking
        exact .directories level hlevel
      · exact kill_done hdone ▸ .directories _ le_rfl
    rcases killed_bind_reads (readsOnly_recordExists _ _) (alone_recordExists _ _) hkill with rfl | hkill
    · exact .directories _ le_rfl
    rw [entry_deepen h site.parent (by simp), Option.isSome_none, if_neg Bool.false_ne_true] at hkill
    rcases killed_bind_reads readsOnly_rejectPending (alone_rejectPending (entry_deepen h _ (by simp))) hkill with rfl | hkill
    · exact .directories _ le_rfl
    rcases killed_bind_reads (readsOnly_pathEntryExists .final) (alone_pathEntryExists .final) hkill with rfl | hkill
    · exact .directories _ le_rfl
    rw [entry_deepen h site.parent (by simp), Option.isSome_none, if_neg Bool.false_ne_true] at hkill
    exact interrupted_of_publishing h hanchor hkill
  · exact .committed

end interrupted

/-! ## Recovery after a kill -/

section recovery

variable {site : Site} {anchor depth : ℕ} {t : FileSystem} {text : String} [ContentDigest] [FloatText PyFloat]

omit [ContentDigest] [FloatText PyFloat] in
/-- The marker beside a temporary file that was left behind. -/
lemma stage_marked (base : FileSystem) (uuid : ℕ) (content markerBytes : ByteArray) :
    base.stage (markedNames uuid) [content, markerBytes] =
      (base.stage [(.temporary uuid, 0)] [content]).stage [(.pendingMarker, 0)] [markerBytes] := by
  rw [stage_stage]
  rfl

/-- The recovery of a stage with the whole marker and one name of the final file. -/
lemma Interrupted.recovers {uuid other : ℕ} {base : FileSystem} (hbase : Stale uuid base) (hclean : Stale other base)
    (hother : uuid ≠ other) (hanchor : anchor ≤ site.parent) (hdepth : anchor ≤ base.depth) {markerBytes : ByteArray}
    (hrecord : publicationRecordBytes text.toUTF8 (site.parent - base.depth) = markerBytes)
    (h : Interrupted uuid site.parent base text.toUTF8 markerBytes t)
    (hmarker : ∀ bytes, t.bytesOf .pendingMarker = some bytes → bytes = markerBytes)
    (hlinks : ∀ inode, t.entry .final = some inode → t.links inode = 1) : Recovers site other text anchor t := by
  have hdeep := hbase.deepen site.parent
  have hcleanDeep := hclean.deepen site.parent
  have hlevel : site.parent ≤ (base.deepen site.parent).depth := le_max_right _ _
  have hanchored : anchor ≤ (base.deepen site.parent).depth := hanchor.trans hlevel
  have hpending : ∀ fs : FileSystem, site.parent ≤ fs.depth → (∃ inode, HasFile fs .pendingMarker inode markerBytes) →
      Pending site fs text.toUTF8 (site.parent - base.depth) anchor :=
    fun fs hfs hfile => ⟨hrecord ▸ hfile, hfs, Nat.sub_le _ _, by omega⟩
  cases h with
  | directories level hle => exact recovers_fresh (hclean.deepen level) hanchor (hdepth.trans (le_max_left _ _))
  | temporary count => exact recovers_fresh (hcleanDeep.stage hother _) hanchor hanchored
  | marker count =>
      have hfile : HasFile ((base.deepen site.parent).stage (markedNames uuid) [text.toUTF8, markerBytes.extract 0 count])
          .pendingMarker ((base.deepen site.parent).contents.length + 1) (markerBytes.extract 0 count) :=
        hasFile_stage hdeep (by simp) (by simp)
      have hwhole : markerBytes.extract 0 count = markerBytes :=
        hmarker _ (by rw [FileSystem.bytesOf, hfile.entry, Option.map_some, hfile.content])
      have hleft := hcleanDeep.stage hother text.toUTF8
      have hstage := hpending (((base.deepen site.parent).stage [(.temporary uuid, 0)] [text.toUTF8]).stage
        [(.pendingMarker, 0)] [markerBytes]) hlevel ⟨_, hasFile_stage hleft (k := 0) (by simp) (by simp)⟩
      rw [hwhole, stage_marked]
      rw [← hrecord] at hstage ⊢
      exact recovers_marked hleft hstage
  | linked =>
      have hfile : HasFile ((base.deepen site.parent).stage (linkedNames uuid)
          [text.toUTF8, markerBytes]) .final ((base.deepen site.parent).contents.length + 0) text.toUTF8 :=
        hasFile_stage hdeep (by simp) (by simp)
      have hone := hlinks _ hfile.entry
      rw [links_stage hdeep] at hone
      simp at hone
  | installed =>
      have hstage := hpending ((base.deepen site.parent).stage (installedNames 1 0) [text.toUTF8, markerBytes]) hlevel
        ⟨_, hasFile_stage hcleanDeep (k := 1) (by simp) (by simp)⟩
      exact recovers_installed hcleanDeep Nat.one_ne_zero hstage hrecord.symm rfl
  | witnessed => exact recovers_witnessed hcleanDeep hlevel hanchor Nat.one_ne_zero hrecord.symm rfl
  | committed =>
      have hcommitted : Committed site ((base.deepen site.parent).stage (committedNames 1 0) [text.toUTF8, markerBytes])
          text.toUTF8 := committed_stage hcleanDeep hlevel Nat.one_ne_zero hrecord.symm rfl
      exact hcommitted.recovers hanchor

omit [ContentDigest] [FloatText PyFloat] in
lemma KilledAt.rest {α β : Type} {p : Action α} {f : α → Action β} {fs s u : FileSystem} {a : α}
    (hrun : alone site p fs = (.ok a, s)) (h : KilledAt site (f a) s u) : KilledAt site (p >>= f) fs u := by
  refine Kill.rest ?_
  rw [show run (perform site.parent) p fs = (.ok a, s) from hrun]
  exact h

/-- A publication of a fresh path is killed after the directories were made. -/
lemma killed_of_publishThroughMarker {uuid : ℕ} {base : FileSystem} (h : Stale uuid base) (hanchor : anchor ≤ site.parent)
    (hdepth : anchor ≤ base.depth)
    (hkill : KilledAt site (publishThroughMarker site uuid text.toUTF8 (site.parent - base.depth) anchor)
      (base.deepen site.parent) t) :
    KilledAt site (publishStrategyArtifact site uuid text (some anchor)) base t := by
  have hnone : ∀ name, (∀ j, j ≠ uuid → name ≠ .temporary j) → (base.deepen site.parent).entry name = none :=
    fun name hname => entry_deepen h site.parent hname
  refine KilledAt.rest (alone_resolveAnchor hanchor hdepth) (Kill.first ?_ _)
  refine KilledAt.rest alone_createParents ?_
  refine KilledAt.rest (alone_recordExists _ _) ?_
  rw [hnone _ (by simp), Option.isSome_none, if_neg Bool.false_ne_true]
  refine KilledAt.rest (alone_rejectPending (hnone _ (by simp))) ?_
  refine KilledAt.rest (alone_pathEntryExists _) ?_
  rw [hnone _ (by simp), Option.isSome_none, if_neg Bool.false_ne_true]
  exact Kill.first hkill _

/-- A kill can leave a marker that was written in part. -/
theorem killed_in_marker {uuid : ℕ} {base : FileSystem} (h : Stale uuid base) (hanchor : anchor ≤ site.parent)
    (hdepth : anchor ≤ base.depth) (count : ℕ) :
    KilledAt site (publishStrategyArtifact site uuid text (some anchor)) base
      ((base.deepen site.parent).stage (markedNames uuid)
        [text.toUTF8, (publicationRecordBytes text.toUTF8 (site.parent - base.depth)).extract 0 count]) := by
  have hdeep := h.deepen site.parent
  have hlevel : site.parent ≤ (base.deepen site.parent).depth := le_max_right _ _
  refine killed_of_publishThroughMarker h hanchor hdepth (KilledAt.rest (alone_writeTemporary hdeep hlevel) ?_)
  generalize publicationRecordBytes text.toUTF8 (site.parent - base.depth) = markerBytes
  refine Kill.first (Kill.first ?_ _) _
  have hnone : ((base.deepen site.parent).stage [(.temporary uuid, 0)] [text.toUTF8]).entry .pendingMarker = none :=
    entry_stage_none hdeep (by simp) (by simp)
  have hpart : (base.deepen site.parent).stage (markedNames uuid) [text.toUTF8, markerBytes.extract 0 count] =
      (((base.deepen site.parent).stage [(.temporary uuid, 0)] [text.toUTF8]).addFile .pendingMarker).extend
        ((base.deepen site.parent).stage [(.temporary uuid, 0)] [text.toUTF8]).contents.length
        (markerBytes.extract 0 count) := by
    have hlength : ((base.deepen site.parent).stage [(.temporary uuid, 0)] [text.toUTF8]).contents.length =
        (base.deepen site.parent).contents.length + 1 := List.length_append
    rw [hlength, addFile_stage, extend_stage (by simp)]
    simp
  refine KilledAt.rest (alone_create hnone hlevel) (KilledAt.rest (alone_attempt_fstat _) ?_)
  rw [hpart]
  exact Kill.first (Kill.first (Kill.first (.inside (.write count)) _) _) _

/-- A kill can leave two names of the final file. -/
theorem killed_at_link {uuid : ℕ} {base : FileSystem} (h : Stale uuid base) (hanchor : anchor ≤ site.parent)
    (hdepth : anchor ≤ base.depth) :
    KilledAt site (publishStrategyArtifact site uuid text (some anchor)) base
      ((base.deepen site.parent).stage (linkedNames uuid)
        [text.toUTF8, publicationRecordBytes text.toUTF8 (site.parent - base.depth)]) := by
  have hdeep := h.deepen site.parent
  have hlevel : site.parent ≤ (base.deepen site.parent).depth := le_max_right _ _
  refine killed_of_publishThroughMarker h hanchor hdepth (KilledAt.rest (alone_writeTemporary hdeep hlevel) ?_)
  generalize publicationRecordBytes text.toUTF8 (site.parent - base.depth) = markerBytes
  have hmarked : site.parent ≤ ((base.deepen site.parent).stage (markedNames uuid) [text.toUTF8, markerBytes]).depth := hlevel
  have hlink : alone site (attempt (.link (.temporary uuid) .final))
      ((base.deepen site.parent).stage (markedNames uuid) [text.toUTF8, markerBytes]) = _ :=
    alone_linkFinal hdeep (k := 0) (by simp) (by simp)
  refine KilledAt.rest (alone_writeMarker hdeep hlevel) (KilledAt.rest (alone_fsync_stage hlevel) ?_)
  refine KilledAt.rest (alone_fsyncToAnchor hanchor hmarked) (KilledAt.rest (alone_recordExists _ _) ?_)
  rw [entry_stage_none hdeep (by simp) (by simp), Option.isSome_none, if_neg Bool.false_ne_true]
  refine Kill.first (KilledAt.rest (alone_pathEntryExists _) ?_) _
  rw [entry_stage_none hdeep (by simp) (by simp), Option.isSome_none, if_neg Bool.false_ne_true]
  exact KilledAt.rest hlink (.now _ _)

/-- A malformed marker keeps the path closed. -/
theorem closed_marker {fs : FileSystem} {uuid inode : ℕ} {bytes : ByteArray} (hanchor : anchor ≤ site.parent)
    (hdepth : anchor ≤ fs.depth) (hwitness : fs.entry .commitWitness = none) (hfile : HasFile fs .pendingMarker inode bytes)
    (hbytes : PublicationRecord.decode bytes = none) :
    alone site (recoverStrategyArtifact site uuid text (some anchor)) fs =
      (.error (.recoveryRequired "strategy artifact pending marker is invalid"), fs) := by
  have hread : alone site (readRegularPublicationRecordBytes .pendingMarker "pending marker") fs = (.ok bytes, fs) :=
    alone_readRecordBytes hfile fun _ h => by cases h
  have hrecord : alone site (readPublicationRecord .pendingMarker "pending marker") fs =
      (.error (.recoveryRequired "strategy artifact pending marker is invalid"), fs) := by
    simp [readPublicationRecord, run_bind, hread, hbytes]
    rfl
  simp [recoverStrategyArtifact, run_bind, alone_resolveAnchor hanchor hdepth, catchOsError, run_handle, recoverBody,
    alone_recordExists, hwitness, hfile.entry, recoverPending, hrecord]

/-- A final file with two names keeps the path closed. -/
theorem closed_final {fs : FileSystem} {uuid inode created : ℕ} (hanchor : anchor ≤ site.parent)
    (hwitness : fs.entry .commitWitness = none) (hpending : Pending site fs text.toUTF8 created anchor)
    (hfinal : fs.entry .final = some inode) (hlinks : fs.links inode ≠ 1) :
    alone site (recoverStrategyArtifact site uuid text (some anchor)) fs =
      (.error (.recoveryRequired "strategy artifact final artifact has multiple hard links"), fs) := by
  have hidentical : alone site (requireIdenticalArtifact text.toUTF8) fs =
      (.error (.recoveryRequired "strategy artifact final artifact has multiple hard links"), fs) := by
    simp [requireIdenticalArtifact, readRegularArtifactBytes, readIdentityCheckedRegularBytes, catchOsError, run_handle,
      readChecked, run_bind, alone_lstat hfinal, requireRegularFile, requireSingleLink, FileSystem.status, hlinks]
    rfl
  obtain ⟨marker, hmarker⟩ := hpending.marker
  have hbody : alone site (recoverBody site uuid text anchor) fs =
      (.error (.recoveryRequired "strategy artifact final artifact has multiple hard links"), fs) := by
    rw [alone_recoverBody_pending hwitness (Option.isSome_iff_exists.mpr ⟨marker, hmarker.entry⟩),
      alone_recoverPending hpending, hfinal, Option.isSome_some, if_pos rfl]
    rw [alone, run_bind, show run (perform site.parent) (requireIdenticalArtifact text.toUTF8) fs = _ from hidentical]
  simp [recoverStrategyArtifact, run_bind, alone_resolveAnchor hanchor (hanchor.trans hpending.depth), catchOsError,
    run_handle, hbody]

end recovery

/-! ### The interruption that keeps a path closed -/

section demo

attribute [local instance] zeroContentDigest noFloatText

lemma decode_empty : PublicationRecord.decode ByteArray.empty = none := by
  have htext : String.fromUTF8? ByteArray.empty = some "" := fromUTF8_toUTF8 ""
  have hloads : (Json.loads "" : Option JsonValue) = none := by decide +kernel
  rw [PublicationRecord.decode, htext]
  simp only [Option.bind_eq_bind, Option.bind_some, hloads, Option.bind_none]

end demo

end MuStrategy.Publication
