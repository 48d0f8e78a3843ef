import MuStrategy.Publication.Recovery

/-!
# Agreement on published bytes

Publications, recoveries and reads of one artifact path run in any interleaving, each file-system call may fail, and each
of them may crash between two calls. All that return agree on the bytes of the artifact.

* `Guarantee` — what one call of the publisher leaves alone: the final file, and the temporary files of others.
* `FinalIs` — the bytes of the final file; the guarantees keep it.
* `Ensured` — what the parts of the publisher ensure, one lemma for each; `Permitted` — what a call may do.
* `artifact_agreement` — the agreement, and that the bytes of the final file never change.
-/

namespace MuStrategy.Publication

open Lib Prog

/-! ## Guarantees -/

/-- Every name is the name of a file. -/
def FileSystem.Valid (fs : FileSystem) : Prop := ∀ name inode, fs.entry name = some inode → inode < fs.contents.length

/-- What the call number `i` may change: its own temporary file, the final file if there is none and then to its own
temporary file, and the contents of files that are neither final nor the temporary file of another call. -/
structure Guarantee (i : ℕ) (fs fs' : FileSystem) : Prop where
  valid : fs.Valid → fs'.Valid
  grows : fs.contents.length ≤ fs'.contents.length
  others : ∀ j, j ≠ i → fs'.entry (.temporary j) = fs.entry (.temporary j)
  own : ∀ inode, fs'.entry (.temporary i) = some inode →
    fs.entry (.temporary i) = some inode ∨ fs.contents.length ≤ inode
  final : fs'.entry .final = fs.entry .final ∨
    fs.entry .final = none ∧ fs'.entry .final = fs.entry (.temporary i)
  content : ∀ inode, inode < fs.contents.length → fs'.content inode = fs.content inode ∨
    fs.entry .final ≠ some inode ∧ ∀ j, j ≠ i → fs.entry (.temporary j) ≠ some inode

lemma Guarantee.refl (i : ℕ) (fs : FileSystem) : Guarantee i fs fs :=
  ⟨id, le_rfl, fun _ _ => rfl, fun _ => .inl, .inl rfl, fun _ _ => .inl rfl⟩

/-- The final file is there, with its bytes. -/
def FinalIs (bytes : ByteArray) (fs : FileSystem) : Prop :=
  ∃ inode, inode < fs.contents.length ∧ fs.entry .final = some inode ∧ fs.content inode = bytes

lemma FinalIs.unique {bytes bytes' : ByteArray} {fs : FileSystem} (h : FinalIs bytes fs) (h' : FinalIs bytes' fs) :
    bytes = bytes' := by
  obtain ⟨inode, -, hentry, rfl⟩ := h
  obtain ⟨inode', -, hentry', rfl⟩ := h'
  rw [hentry, Option.some.injEq] at hentry'
  rw [hentry']

/-- **Nobody changes the final file.** -/
lemma finalIs_persistent (bytes : ByteArray) : Persistent Guarantee (FinalIs bytes) := by
  rintro j fs fs' ⟨inode, hlt, hentry, hcontent⟩ hg
  refine ⟨inode, hlt.trans_le hg.grows, ?_, ?_⟩
  · rcases hg.final with hsame | ⟨hnone, -⟩
    · rw [hsame, hentry]
    · rw [hentry] at hnone
      cases hnone
  · rcases hg.content inode hlt with hsame | ⟨hne, -⟩
    · rw [hsame, hcontent]
    · exact absurd hentry hne

/-- A file that this call may write: nobody sees it as final or as a temporary file of its own. -/
def Writable (i inode : ℕ) (fs : FileSystem) : Prop :=
  inode < fs.contents.length ∧ fs.entry .final ≠ some inode ∧ ∀ j, j ≠ i → fs.entry (.temporary j) ≠ some inode

lemma writable_stable (i inode : ℕ) : Stable Guarantee i (Writable i inode) := by
  rintro j hj fs fs' ⟨hlt, hfinal, hothers⟩ hg
  refine ⟨hlt.trans_le hg.grows, fun hentry => ?_, fun k hk hentry => ?_⟩
  · rcases hg.final with hsame | ⟨-, htemporary⟩
    · exact hfinal (hsame ▸ hentry)
    · exact hothers j hj (htemporary ▸ hentry)
  · by_cases hkj : k = j
    · subst hkj
      rcases hg.own inode hentry with hsame | hfresh
      · exact hothers k hk hsame
      · omega
    · exact hothers k hk (hg.others k hkj ▸ hentry)

/-! ## Calls -/

/-- What a call needs to keep the guarantee. -/
def Permitted (i : ℕ) (fs : FileSystem) : FsOp → Prop
  | .write handle _ => Writable i handle fs
  | .create name => name ≠ .final ∧ ∀ j, j ≠ i → name ≠ .temporary j
  | .link source target => (target = .pendingMarker ∨ target = .commitWitness) ∨ source = .temporary i ∧ target = .final
  | .unlink name => name ≠ .final ∧ ∀ j, j ≠ i → name ≠ .temporary j
  | _ => True

variable {i parent : ℕ} {fs fs' : FileSystem}

lemma guarantee_extend {inode : ℕ} {bytes : ByteArray} (h : Writable i inode fs) : Guarantee i fs (fs.extend inode bytes) where
  valid hvalid name n hentry := by
    rw [FileSystem.length_extend]
    exact hvalid name n hentry
  grows := FileSystem.length_extend.ge
  others _ _ := rfl
  own _ := .inl
  final := .inl rfl
  content n hlt := by
    by_cases hn : n = inode
    · exact .inr (hn ▸ h.2)
    · exact .inl (FileSystem.content_extend_of_ne hn)

lemma guarantee_addFile {name : ArtifactFile} (hnone : fs.entry name = none) (hfinal : name ≠ .final)
    (hothers : ∀ j, j ≠ i → name ≠ .temporary j) : Guarantee i fs (fs.addFile name) where
  valid hvalid name' n hentry := by
    rw [FileSystem.entry_addFile hnone] at hentry
    rw [FileSystem.length_addFile]
    split at hentry
    · cases hentry
      exact Nat.lt_succ_self _
    · exact (hvalid name' n hentry).trans (Nat.lt_succ_self _)
  grows := FileSystem.length_addFile ▸ Nat.le_succ _
  others j hj := by rw [FileSystem.entry_addFile hnone, if_neg (Ne.symm (hothers j hj))]
  own n hentry := by
    rw [FileSystem.entry_addFile hnone] at hentry
    split at hentry
    · cases hentry
      exact .inr le_rfl
    · exact .inl hentry
  final := by rw [FileSystem.entry_addFile hnone, if_neg (Ne.symm hfinal)]; exact .inl rfl
  content n hlt := .inl (FileSystem.content_addFile hlt)

lemma guarantee_bindName {target : ArtifactFile} {inode : ℕ} {source : ArtifactFile} (hsource : fs.entry source = some inode)
    (hnone : fs.entry target = none) (h : Permitted i fs (.link source target)) :
    Guarantee i fs (fs.bindName target inode) where
  valid hvalid name n hentry := by
    rw [FileSystem.entry_bindName hnone] at hentry
    split at hentry
    · cases hentry
      exact hvalid source _ hsource
    · exact hvalid name n hentry
  grows := le_rfl
  others j _ := by
    rw [FileSystem.entry_bindName hnone, if_neg]
    rintro rfl
    rcases h with (h | h) | ⟨-, h⟩ <;> cases h
  own n hentry := by
    rw [FileSystem.entry_bindName hnone, if_neg] at hentry
    · exact .inl hentry
    · rintro rfl
      rcases h with (h | h) | ⟨-, h⟩ <;> cases h
  final := by
    rw [FileSystem.entry_bindName hnone]
    rcases h with (rfl | rfl) | ⟨rfl, rfl⟩
    · exact .inl rfl
    · exact .inl rfl
    · exact .inr ⟨hnone, by rw [if_pos rfl, hsource]⟩
  content _ _ := .inl rfl

lemma guarantee_unbindName {name : ArtifactFile} (hfinal : name ≠ .final) (hothers : ∀ j, j ≠ i → name ≠ .temporary j) :
    Guarantee i fs (fs.unbindName name) where
  valid hvalid name' n hentry := by
    rw [FileSystem.entry_unbindName] at hentry
    split at hentry
    · cases hentry
    · exact hvalid name' n hentry
  grows := le_rfl
  others j hj := by rw [FileSystem.entry_unbindName, if_neg (Ne.symm (hothers j hj))]
  own n hentry := by
    rw [FileSystem.entry_unbindName] at hentry
    split at hentry
    · cases hentry
    · exact .inl hentry
  final := by rw [FileSystem.entry_unbindName, if_neg (Ne.symm hfinal)]; exact .inl rfl
  content _ _ := .inl rfl

/-- A call that returned, and is not a write, was carried out. -/
lemma perform_of_act {op : FsOp} {value : op.Value} (hop : ∀ handle bytes, op ≠ .write handle bytes)
    (h : Act parent op fs (.ok value) fs') : perform parent op fs = (.ok value, fs') := by
  generalize hreply : (Except.ok value : op.Reply) = reply at h
  cases h with
  | done => rfl
  | fault => cases hreply
  | short => exact absurd rfl (hop _ _)

/-- **A permitted call keeps the guarantee**, whether it fails or not. -/
lemma guarantee_of_act {op : FsOp} {reply : op.Reply} (h : Permitted i fs op) (hact : Act parent op fs reply fs') :
    Guarantee i fs fs' := by
  cases hact with
  | fault => exact .refl i fs
  | short count reply => exact guarantee_extend h
  | done =>
      cases op with
      | write handle bytes => exact guarantee_extend h
      | create name =>
          simp only [perform]
          split
          · exact .refl i fs
          · rename_i hnone
            split
            · exact .refl i fs
            · exact guarantee_addFile hnone h.1 h.2
      | link source target =>
          simp only [perform]
          split
          · exact .refl i fs
          · exact .refl i fs
          · rename_i hsource hnone
            exact guarantee_bindName hsource hnone h
      | unlink name =>
          simp only [perform]
          split
          · exact guarantee_unbindName h.1 h.2
          · exact .refl i fs
      | mkdir level =>
          simp only [perform]
          split_ifs
          · exact .refl i fs
          · exact ⟨id, le_rfl, fun _ _ => rfl, fun _ => .inl, .inl rfl, fun _ _ => .inl rfl⟩
          · exact .refl i fs
      | lstat name | openFile name _ =>
          simp only [perform]
          split <;> exact .refl i fs
      | resolve level | fsyncDirectory level =>
          simp only [perform]
          split_ifs <;> exact .refl i fs
      | fstat _ | read _ | flush _ | fsync _ | close _ | isDir _ => exact .refl i fs

lemma valid_persistent : Persistent Guarantee FileSystem.Valid := fun _ _ _ hvalid hg => hg.valid hvalid

/-! ## Parts of the publisher -/

/-- What the call number `i` ensures among others. -/
abbrev Ensured {α : Type} (site : Site) (i : ℕ) (P : FileSystem → Prop) (p : Action α) (Φ : α → FileSystem → Prop) : Prop :=
  Ensures (fun _ : ℕ => Act site.parent) Guarantee FileSystem.Valid i P p Φ

/-- A program keeps the guarantee from any state. -/
abbrev Harmless {α : Type} (site : Site) (i : ℕ) (p : Action α) : Prop :=
  Ensured site i (fun _ => True) p fun _ _ => True

section parts

variable {site : Site} {α β : Type} {P : FileSystem → Prop} {Φ : α → FileSystem → Prop} {Ψ : β → FileSystem → Prop}
  {p : Action α}

lemma Ensured.bind {f : α → Action β} (h : Ensured site i P p Φ) (hf : ∀ a, Ensured site i (Φ a) (f a) Ψ) :
    Ensured site i P (p >>= f) Ψ := Ensures.bind valid_persistent h hf

/-- A fact that everyone keeps is still known after a harmless program. -/
lemma Harmless.bind {f : α → Action β} (hP : Persistent Guarantee P) (h : Harmless site i p)
    (hf : ∀ a, Ensured site i P (f a) Ψ) : Ensured site i P (p >>= f) Ψ := by
  refine Ensured.bind ((Ensures.frame h hP).mono (fun s hs => ⟨trivial, hs⟩) fun a s hs => hs.2) hf

lemma Harmless.andThen {f : α → Action β} (h : Harmless site i p) (hf : ∀ a, Harmless site i (f a)) :
    Harmless site i (p >>= f) := Harmless.bind .true h hf

lemma Ensured.harmless (h : Ensured site i (fun _ => True) p Φ) : Harmless site i p := h.mono (fun _ => id) fun _ _ _ => trivial

lemma harmless_pure (a : α) : Harmless site i (pure a) := ensures_pure .true fun _ _ => trivial

lemma harmless_raise (error : Raised) : Harmless site i (raise error : Action α) := ensures_raise

/-- A call with a fact about its value. -/
lemma ensured_call {op : FsOp} {Φ : op.Value → FileSystem → Prop} (hP : Stable Guarantee i P)
    (hΦ : ∀ v, Stable Guarantee i (Φ v)) (hpermitted : ∀ s, P s → Permitted i s op)
    (h : ∀ s t v, s.Valid → P s → Act site.parent op s (.ok v) t → Φ v t) : Ensured site i P (call op) Φ := by
  refine fun s hvalid hs => safe_call (P := fun s => s.Valid ∧ P s) (valid_persistent.stable.and hP) ⟨hvalid, hs⟩ ?_
  rintro t reply u ⟨hvalidt, ht⟩ hact
  refine ⟨guarantee_of_act (hpermitted t ht) hact, ?_⟩
  cases reply with
  | ok v =>
      rintro w hw a ⟨⟩
      exact (hΦ v).others (h t u v hvalidt ht hact) hw
  | error e => rintro w hw a ⟨⟩

lemma harmless_call {op : FsOp} (h : ∀ s, Permitted i s op) : Harmless site i (call op) :=
  ensured_call .true (fun _ => .true) (fun s _ => h s) fun _ _ _ _ _ _ => trivial

lemma harmless_attempt {op : FsOp} (h : ∀ s, Permitted i s op) : Harmless site i (attempt op) := by
  refine fun s _ _ => safe_call .true trivial fun t reply u _ hact => ⟨guarantee_of_act (h t) hact, ?_⟩
  rintro w hw a ⟨⟩
  trivial

lemma harmless_check (condition : Bool) (error : Raised) : Harmless site i (check condition error) := by
  unfold check
  split
  · exact harmless_pure ()
  · exact harmless_raise error

/-- What is checked is known afterwards. -/
lemma ensured_check {condition : Bool} {error : Raised} {Q : FileSystem → Prop} (hQ : Stable Guarantee i Q)
    (h : ∀ s, P s → condition = true → Q s) : Ensured site i P (check condition error) fun _ => Q := by
  unfold check
  split
  · rename_i hcondition
    exact ensures_pure hQ fun s hs => h s hs hcondition
  · exact ensures_raise

lemma Ensured.catchOsError {f : OsError → Action α} (hΦ : ∀ a, Stable Guarantee i (Φ a)) (h : Ensured site i P p Φ)
    (hf : ∀ error, Ensured site i (fun _ => True) (f error) Φ) : Ensured site i P (catchOsError p f) Φ := by
  refine Ensures.handle valid_persistent hΦ h fun error => ?_
  cases error with
  | osError error => exact hf error
  | publication | conflict | recoveryRequired => exact ensures_raise

lemma Harmless.catchOsError {f : OsError → Action α} (h : Harmless site i p) (hf : ∀ error, Harmless site i (f error)) :
    Harmless site i (catchOsError p f) := Ensured.catchOsError (fun _ => .true) h hf

lemma Ensured.withHandle {handle : ℕ} (hΦ : ∀ a, Persistent Guarantee (Φ a)) (h : Ensured site i P p Φ) :
    Ensured site i P (withHandle handle p) Φ :=
  Ensures.finally valid_persistent hΦ h (show Harmless site i (call (.close handle)) from harmless_call fun _ => trivial)

/-! ### Reads -/

lemma harmless_requireRegularFile (status : FileStatus) (label : String) :
    Harmless site i (requireRegularFile status label) := harmless_check _ _

lemma harmless_requireSingleLink (single : Bool) (status : FileStatus) (label : String) :
    Harmless site i (requireSingleLink single status label) := harmless_check _ _

lemma harmless_fsyncIf (fsync : Bool) (handle : ℕ) : Harmless site i (fsyncIf fsync handle) := by
  unfold fsyncIf
  split
  · exact harmless_call fun _ => trivial
  · exact harmless_pure ()

/-- The inode of the final file. -/
def FinalAt (inode : ℕ) (fs : FileSystem) : Prop := inode < fs.contents.length ∧ fs.entry .final = some inode

lemma finalAt_persistent (inode : ℕ) : Persistent Guarantee (FinalAt inode) := by
  rintro j fs fs' ⟨hlt, hentry⟩ hg
  refine ⟨hlt.trans_le hg.grows, ?_⟩
  rcases hg.final with hsame | ⟨hnone, -⟩
  · rw [hsame, hentry]
  · rw [hentry] at hnone
    cases hnone

/-- What a checked read of a path tells: a read of the final file returns its bytes. -/
def ReadFact (path : ArtifactFile) (expected : Option ByteArray) (bytes : ByteArray) (fs : FileSystem) : Prop :=
  (path = .final → FinalIs bytes fs) ∧ ∀ wanted, expected = some wanted → bytes = wanted

lemma readFact_persistent (path : ArtifactFile) (expected : Option ByteArray) (bytes : ByteArray) :
    Persistent Guarantee (ReadFact path expected bytes) :=
  fun j s t hs hg => ⟨fun hpath => finalIs_persistent bytes j s t (hs.1 hpath) hg, hs.2⟩

lemma ensured_readHandle {path : ArtifactFile} {handle : ℕ} {status : FileStatus} {label : String}
    {expected : Option ByteArray} {fsync single : Bool} :
    Ensured site i (fun s => path = .final → FinalAt handle s) (readHandle handle status label expected fsync single)
      fun opened => ReadFact path expected opened.2 := by
  have hopen : Persistent Guarantee fun s => path = .final → FinalAt handle s :=
    fun j s t hs hg hpath => finalAt_persistent handle j s t (hs hpath) hg
  refine Harmless.bind hopen (harmless_call fun _ => trivial) fun openedStatus => ?_
  refine Harmless.bind hopen (harmless_requireRegularFile _ _) fun _ => ?_
  refine Harmless.bind hopen (harmless_requireSingleLink _ _ _) fun _ => ?_
  refine Harmless.bind hopen (harmless_check _ _) fun _ => ?_
  refine Ensured.bind (Φ := fun bytes => ReadFact path none bytes) (ensured_call hopen.stable
    (fun bytes => (readFact_persistent path none bytes).stable) (fun _ _ => trivial) ?_) fun bytes => ?_
  · intro s t bytes _ hs hact
    refine ⟨fun hpath => ?_, fun _ h => by cases h⟩
    obtain ⟨hlt, hentry⟩ := hs hpath
    cases hact
    exact ⟨handle, hlt, hentry, rfl⟩
  refine Ensured.bind (Φ := fun _ => ReadFact path expected bytes)
    (ensured_check (readFact_persistent path expected bytes).stable fun s hs hwanted => ?_) fun _ => ?_
  · refine ⟨hs.1, fun wanted hexpected => ?_⟩
    subst hexpected
    exact of_decide_eq_true hwanted
  refine Harmless.bind (readFact_persistent path expected bytes) (harmless_fsyncIf fsync handle) fun _ => ?_
  exact ensures_pure (readFact_persistent path expected bytes).stable fun _ => id

lemma ensured_readChecked {path : ArtifactFile} {label : String} {expected : Option ByteArray} {fsync single : Bool} :
    Ensured site i (fun _ => True) (readChecked path label expected fsync single) (ReadFact path expected) := by
  refine Harmless.bind .true (harmless_call fun _ => trivial) fun pathStatus => ?_
  refine Harmless.bind .true (harmless_requireRegularFile _ _) fun _ => ?_
  refine Harmless.bind .true (harmless_requireSingleLink _ _ _) fun _ => ?_
  have hopen : ∀ handle, Persistent Guarantee fun s => path = .final → FinalAt handle s :=
    fun handle j s t hs hg hpath => finalAt_persistent handle j s t (hs hpath) hg
  refine Ensured.bind (Φ := fun handle s => path = .final → FinalAt handle s) (ensured_call .true
    (fun handle => (hopen handle).stable) (fun _ _ => trivial) ?_) fun handle => ?_
  · rintro s t handle hvalid - hact hpath
    subst hpath
    have hperform := perform_of_act (fun _ _ h => by cases h) hact
    simp only [perform] at hperform
    split at hperform
    · rename_i inode hentry
      cases hperform
      exact ⟨hvalid .final _ hentry, hentry⟩
    · cases hperform
  refine Ensured.bind (Φ := fun opened => ReadFact path expected opened.2)
    (ensured_readHandle.withHandle fun opened => readFact_persistent path expected opened.2) fun opened => ?_
  have hfact := readFact_persistent path expected opened.2
  refine Harmless.bind hfact (harmless_call fun _ => trivial) fun currentStatus => ?_
  refine Harmless.bind hfact (harmless_requireRegularFile _ _) fun _ => ?_
  refine Harmless.bind hfact (harmless_requireSingleLink _ _ _) fun _ => ?_
  refine Harmless.bind hfact (harmless_check _ _) fun _ => ?_
  exact ensures_pure hfact.stable fun _ => id

/-- **A checked read returns the bytes of the file.** -/
lemma ensured_read {path : ArtifactFile} {label : String} {expected : Option ByteArray} {fsync single : Bool} :
    Ensured site i (fun _ => True) (readIdentityCheckedRegularBytes path label expected fsync single)
      (ReadFact path expected) := by
  refine Ensured.catchOsError (fun bytes => (readFact_persistent path expected bytes).stable) ensured_readChecked
    fun error => ?_
  cases error <;> exact ensures_raise

lemma harmless_readRecordBytes (path : ArtifactFile) (label : String) (expected : Option ByteArray) (fsync : Bool) :
    Harmless site i (readRegularPublicationRecordBytes path label expected fsync) :=
  Harmless.catchOsError ensured_read.harmless fun error => by cases error <;> exact harmless_raise _

lemma ensured_readArtifactBytes (expected : Option ByteArray) (fsync : Bool) :
    Ensured site i (fun _ => True) (readRegularArtifactBytes expected fsync)
      fun bytes s => FinalIs bytes s ∧ ∀ wanted, expected = some wanted → bytes = wanted :=
  ensured_read.mono (fun _ => id) fun _ _ h => ⟨h.1 rfl, h.2⟩

lemma ensured_requireIdentical (expected : ByteArray) :
    Ensured site i (fun _ => True) (requireIdenticalArtifact expected) fun _ => FinalIs expected := by
  refine Ensured.bind (ensured_readArtifactBytes (some expected) true) fun bytes => ?_
  refine ensures_pure (finalIs_persistent expected).stable fun s hs => ?_
  obtain rfl := hs.2 expected rfl
  exact hs.1

lemma ensured_readArtifactText :
    Ensured site i (fun _ => True) readRegularArtifactText fun text => FinalIs text.toUTF8 := by
  refine Ensured.bind (ensured_readArtifactBytes none false) fun bytes => ?_
  split
  · rename_i text htext
    refine ensures_pure (finalIs_persistent _).stable fun s hs => ?_
    obtain rfl : text.toUTF8 = bytes := by
      unfold String.fromUTF8? at htext
      split at htext
      · cases htext
        rfl
      · cases htext
    exact hs.1
  · exact ensures_raise

lemma harmless_pathEntryExists (path : ArtifactFile) : Harmless site i (pathEntryExists path) := by
  refine Harmless.bind .true (harmless_attempt fun _ => trivial) fun reply => ?_
  split <;> exact harmless_pure _

lemma harmless_recordExists (path : ArtifactFile) (label : String) : Harmless site i (publicationRecordExists path label) := by
  refine Harmless.bind .true (harmless_attempt fun _ => trivial) fun reply => ?_
  split
  · exact harmless_pure _
  · exact harmless_raise _
  · exact Harmless.bind .true (harmless_requireRegularFile _ _) fun _ => harmless_pure _

lemma harmless_fsyncRecord (path : ArtifactFile) (label : String) : Harmless site i (fsyncPublicationRecord path label) :=
  Harmless.bind .true (harmless_readRecordBytes _ _ _ _) fun _ => harmless_pure _

lemma harmless_rejectPendingMarker : Harmless site i rejectPendingMarker :=
  Harmless.bind .true (harmless_recordExists _ _) fun _ => harmless_check _ _

section records

variable [FloatText PyFloat]

lemma harmless_readRecord (path : ArtifactFile) (label : String) : Harmless site i (readPublicationRecord path label) := by
  refine Harmless.bind .true (harmless_readRecordBytes _ _ _ _) fun bytes => ?_
  split
  · exact harmless_pure _
  · exact harmless_raise _

lemma harmless_matchingPending (full : Bool) (witness : PublicationRecord) :
    Harmless site i (requireMatchingPending full witness) := by
  refine Harmless.bind .true (harmless_recordExists _ _) fun isThere => ?_
  split
  · refine Harmless.bind .true (harmless_readRecord _ _) fun pending => ?_
    split <;> exact harmless_check _ _
  · exact harmless_pure _

variable [ContentDigest]

lemma ensured_readCommitted :
    Ensured site i (fun _ => True) readCommittedArtifact fun committed => FinalIs committed.2 := by
  refine Harmless.bind .true (harmless_readRecord _ _) fun witness => ?_
  refine Ensured.bind ((ensured_readArtifactBytes none false).mono (fun _ => id) fun _ _ h => h.1) fun bytes => ?_
  refine Harmless.bind (finalIs_persistent bytes) (harmless_check _ _) fun _ => ?_
  exact ensures_pure (finalIs_persistent bytes).stable fun _ => id

lemma ensured_requireCommitted (full : Bool) (expected : ByteArray) :
    Ensured site i (fun _ => True) (requireCommittedArtifact full expected) fun _ => FinalIs expected := by
  refine Ensured.bind ensured_readCommitted fun committed => ?_
  refine Ensured.bind (ensured_check (finalIs_persistent expected).stable fun s hs heq => ?_) fun _ =>
    (Ensures.frame (harmless_matchingPending full committed.1) (finalIs_persistent expected)).mono
      (fun _ hs => ⟨trivial, hs⟩) fun _ _ hs => hs.2
  obtain rfl := of_decide_eq_true heq
  exact hs

end records

/-! ### Writes -/

/-- The names that this call may create and remove. -/
def OwnName (i : ℕ) (name : ArtifactFile) : Prop := name ≠ .final ∧ ∀ j, j ≠ i → name ≠ .temporary j

lemma ownName_temporary (i : ℕ) : OwnName i (.temporary i) :=
  ⟨fun h => (by cases h), fun _ hj h => hj (ArtifactFile.temporary.inj h).symm⟩

lemma ownName_marker (i : ℕ) : OwnName i .pendingMarker := ⟨fun h => (by cases h), fun _ _ h => by cases h⟩

lemma ownName_witness (i : ℕ) : OwnName i .commitWitness := ⟨fun h => (by cases h), fun _ _ h => by cases h⟩

lemma harmless_unlinkOwned {path : ArtifactFile} (hpath : OwnName i path) (status : FileStatus) :
    Harmless site i (unlinkOwnedFileBestEffort path status) := by
  refine Harmless.catchOsError ?_ fun _ => harmless_pure ()
  refine Harmless.bind .true (harmless_call fun _ => trivial) fun currentStatus => ?_
  split
  · exact harmless_call fun _ => hpath
  · exact harmless_pure ()

lemma harmless_writeHandle (handle : ℕ) (content : ByteArray) :
    Ensured site i (Writable i handle) (writeHandle handle content) fun _ _ => True := by
  refine Ensured.bind (ensured_call (Φ := fun _ _ => True) (writable_stable i handle) (fun _ => .true) (fun _ h => h)
    fun _ _ _ _ _ _ => trivial) fun written => ?_
  refine Harmless.bind .true (harmless_check _ _) fun _ => ?_
  exact Harmless.bind .true (harmless_call fun _ => trivial) fun _ => harmless_call fun _ => trivial

/-- **A file that this call creates is nobody's.** -/
lemma ensured_create {path : ArtifactFile} (hpath : OwnName i path) :
    Ensured site i (fun _ => True) (call (.create path)) fun handle => Writable i handle := by
  refine ensured_call .true (fun handle => writable_stable i handle) (fun _ _ => hpath) ?_
  rintro s t handle hvalid - hact
  have hperform := perform_of_act (fun _ _ h => by cases h) hact
  simp only [perform] at hperform
  split at hperform
  · cases hperform
  · rename_i hnone
    split at hperform
    · cases hperform
    · cases hperform
      refine ⟨?_, fun hentry => ?_, fun j hj hentry => ?_⟩
      · rw [FileSystem.length_addFile]
        exact Nat.lt_succ_self _
      · rw [FileSystem.entry_addFile hnone, if_neg (Ne.symm hpath.1)] at hentry
        exact (hvalid _ _ hentry).ne rfl
      · rw [FileSystem.entry_addFile hnone, if_neg (Ne.symm (hpath.2 j hj))] at hentry
        exact (hvalid _ _ hentry).ne rfl

lemma harmless_writeDurably {path : ArtifactFile} (hpath : OwnName i path) (content : ByteArray) :
    Harmless site i (writeBytesDurably path content) := by
  refine Ensured.bind (ensured_create hpath) fun handle => ?_
  refine Ensured.bind (Φ := fun _ => Writable i handle) ?_ fun reply => ?_
  · refine fun s hvalid hs => safe_call (writable_stable i handle) hs fun t reply u ht hact => ?_
    refine ⟨guarantee_of_act (show Permitted i _ (.fstat handle) from trivial) hact, ?_⟩
    rintro w hw a ⟨⟩
    refine (writable_stable i handle).others ?_ hw
    cases hact <;> exact ht
  · split
    · exact (harmless_raise _).withHandle (fun _ => .true) |>.mono (fun _ _ => trivial) fun _ _ => id
    · refine Ensured.catchOsError (fun _ => .true) ((harmless_writeHandle handle content).withHandle fun _ => .true)
        fun error => ?_
      exact Harmless.bind .true (harmless_unlinkOwned hpath _) fun _ => harmless_raise _

lemma harmless_unlinkMissingOk {path : ArtifactFile} (hpath : OwnName i path) : Harmless site i (unlinkMissingOk path) := by
  refine Harmless.bind .true (harmless_attempt fun _ => hpath) fun reply => ?_
  split
  · exact harmless_pure ()
  · exact harmless_pure ()
  · exact harmless_raise _

/-- The cleanup of the temporary file keeps what is known. -/
lemma Ensured.removingTemporary (hΦ : ∀ a, Persistent Guarantee (Φ a)) (h : Ensured site i P p Φ) :
    Ensured site i P (removingTemporary i p) Φ :=
  Ensures.finally valid_persistent hΦ h
    (Harmless.catchOsError (harmless_unlinkMissingOk (ownName_temporary i)) fun _ => harmless_pure ())

/-! ### Directories -/

lemma harmless_missingDirectories (level : ℕ) : Harmless site i (missingDirectories level) := by
  induction level with
  | zero =>
      refine Harmless.bind .true (harmless_call fun _ => trivial) fun exists_ => ?_
      split
      · exact harmless_pure _
      · exact harmless_raise _
  | succ level ih =>
      refine Harmless.bind .true (harmless_call fun _ => trivial) fun exists_ => ?_
      split
      · exact harmless_pure _
      · exact Harmless.bind .true ih fun _ => harmless_pure _

lemma harmless_existOk (level : ℕ) (error : OsError) : Harmless site i (existOk level error) :=
  Harmless.bind .true (harmless_call fun _ => trivial) fun _ => harmless_check _ _

lemma harmless_mkdirExistOk (level : ℕ) : Harmless site i (mkdirExistOk level) := by
  refine Harmless.bind .true (harmless_attempt fun _ => trivial) fun reply => ?_
  split
  · exact harmless_pure _
  · exact harmless_raise _
  · exact harmless_existOk _ _

lemma harmless_mkdirParents (level : ℕ) : Harmless site i (mkdirParents level) := by
  induction level with
  | zero => exact harmless_mkdirExistOk 0
  | succ level ih =>
      refine Harmless.bind .true (harmless_attempt fun _ => trivial) fun reply => ?_
      split
      · exact harmless_pure _
      · exact Harmless.bind .true ih fun _ => harmless_mkdirExistOk _
      · exact harmless_existOk _ _

lemma harmless_createParents : Harmless site i (createParentDirectories site) :=
  Harmless.bind .true (harmless_missingDirectories _) fun _ =>
    Harmless.bind .true (harmless_mkdirParents _) fun _ => harmless_pure _

lemma harmless_createdDirectories (level count : ℕ) : Harmless site i (createdDirectoriesFromCount level count) := by
  induction count generalizing level with
  | zero =>
      rw [createdDirectoriesFromCount]
      exact harmless_pure ()
  | succ count ih =>
      rw [createdDirectoriesFromCount.eq_def]
      refine Harmless.bind .true (harmless_call fun _ => trivial) fun isDir => ?_
      refine Harmless.bind .true (harmless_check _ _) fun _ => ?_
      split
      · exact harmless_raise _
      · exact ih _

lemma harmless_anchorCovers (count anchor : ℕ) :
    Harmless site i (requireAnchorCoversCreatedDirectories site count anchor) := by
  unfold requireAnchorCoversCreatedDirectories
  split
  · exact harmless_pure ()
  · exact Harmless.bind .true (Harmless.catchOsError (harmless_call fun _ => trivial) fun _ => harmless_raise _) fun _ =>
      harmless_check _ _

lemma harmless_resolveAnchor (durabilityAnchor : Option ℕ) :
    Harmless site i (resolveDurabilityAnchor site durabilityAnchor) := by
  cases durabilityAnchor with
  | none => exact harmless_raise _
  | some level =>
      refine Harmless.bind .true (Harmless.catchOsError (harmless_call fun _ => trivial) fun _ => harmless_raise _)
        fun _ => ?_
      refine Harmless.bind .true (harmless_call fun _ => trivial) fun isDir => ?_
      refine Harmless.bind .true (harmless_check _ _) fun _ => ?_
      exact Harmless.bind .true (harmless_check _ _) fun _ => harmless_pure _

lemma harmless_fsyncParents (anchor level : ℕ) : Harmless site i (fsyncParents anchor level) := by
  induction level with
  | zero => exact harmless_pure ()
  | succ level ih =>
      rw [fsyncParents]
      split
      · exact harmless_pure ()
      · exact Harmless.bind .true (harmless_call fun _ => trivial) fun _ => ih

lemma harmless_fsyncToAnchor (anchor : ℕ) : Harmless site i (fsyncDirectoryEntriesToAnchor site anchor) := by
  refine Harmless.bind .true (Harmless.catchOsError (harmless_call fun _ => trivial) fun _ => harmless_raise _)
    fun _ => ?_
  exact Harmless.bind .true (harmless_check _ _) fun _ => harmless_fsyncParents _ _

lemma harmless_fsyncParent : Harmless site i (fsyncParent site) := harmless_call fun _ => trivial

/-! ### Installation and commit -/

lemma harmless_install (expected : ByteArray) : Harmless site i (installFinalWithoutOverwrite i expected) := by
  refine Harmless.bind .true (harmless_attempt fun _ => .inr ⟨rfl, rfl⟩) fun reply => ?_
  split
  · exact (ensured_requireIdentical expected).harmless
  · exact harmless_raise _
  · exact harmless_call fun _ => ownName_temporary i

lemma harmless_linkWitness (markerBytes : ByteArray) : Harmless site i (linkWitness markerBytes) := by
  refine Harmless.bind .true (harmless_attempt fun _ => .inl (.inr rfl)) fun reply => ?_
  split
  · exact harmless_pure _
  · exact Harmless.bind .true (harmless_readRecordBytes _ _ _ _) fun _ => harmless_pure _
  · exact harmless_raise _

lemma harmless_removeCreatedWitness (created : Bool) : Harmless site i (removeCreatedWitness site created) := by
  unfold removeCreatedWitness
  split
  · exact Harmless.catchOsError (Harmless.bind .true (harmless_unlinkMissingOk (ownName_witness i)) fun _ =>
      harmless_fsyncParent) fun _ => harmless_pure ()
  · exact harmless_pure ()

lemma harmless_establishWitness (markerBytes : ByteArray) : Harmless site i (establishCommitWitness site markerBytes) := by
  refine Harmless.bind .true (harmless_linkWitness markerBytes) fun created => ?_
  refine Harmless.bind .true (Harmless.catchOsError harmless_fsyncParent fun error => ?_) fun _ => ?_
  · exact Harmless.bind .true (harmless_removeCreatedWitness created) fun _ => harmless_raise _
  · exact Harmless.bind .true (harmless_readRecordBytes _ _ _ _) fun _ => harmless_pure _

lemma harmless_copyWitness : Harmless site i copyWitness := by
  refine Harmless.catchOsError (Harmless.bind .true (harmless_readRecordBytes _ _ _ _) fun bytes =>
    harmless_writeDurably (ownName_marker i) bytes) fun error => ?_
  split
  · exact harmless_pure ()
  · exact harmless_raise _

lemma harmless_relinkMarker : Harmless site i relinkMarker := by
  refine Harmless.bind .true (harmless_pathEntryExists _) fun isThere => ?_
  split
  · exact harmless_pure ()
  · refine Harmless.catchOsError (harmless_call fun _ => .inl (.inl rfl)) fun error => ?_
    split
    · exact harmless_pure ()
    · exact harmless_copyWitness

lemma harmless_restoreMarker : Harmless site i (restorePendingMarkerBestEffort site) :=
  Harmless.catchOsError (Harmless.bind .true harmless_relinkMarker fun _ => harmless_fsyncParent) fun _ => harmless_pure ()

lemma harmless_removeMarker : Harmless site i (removePendingMarkerDurably site) := by
  refine Harmless.bind .true (harmless_recordExists _ _) fun isThere => ?_
  split
  · refine Harmless.catchOsError (Harmless.bind .true (harmless_unlinkMissingOk (ownName_marker i)) fun _ =>
      harmless_fsyncParent) fun error => ?_
    refine Harmless.bind .true harmless_restoreMarker fun _ => ?_
    refine Harmless.bind .true (harmless_recordExists _ _) fun isThere => ?_
    split
    · exact harmless_raise _
    · refine Harmless.catchOsError harmless_fsyncParent fun error => ?_
      refine Harmless.bind .true (harmless_recordExists _ _) fun isThere => ?_
      split
      · exact harmless_raise _
      · exact harmless_pure ()
  · exact harmless_pure ()

lemma harmless_writeMarker (markerBytes : ByteArray) : Harmless site i (writePendingMarker site markerBytes) := by
  refine Harmless.catchOsError (harmless_writeDurably (ownName_marker i) markerBytes) fun error => ?_
  split
  · exact harmless_raise _
  · exact Harmless.bind .true harmless_fsyncParent fun _ => harmless_raise _

/-! ### Entry points -/

/-- What a harmless program leaves known at its end. -/
lemma Harmless.keep {Q : FileSystem → Prop} (hQ : Persistent Guarantee Q) (h : Harmless site i p) :
    Ensured site i Q p fun _ => Q := (Ensures.frame h hQ).mono (fun _ hs => ⟨trivial, hs⟩) fun _ _ hs => hs.2

variable {encoded : ByteArray} {text : String}

lemma ensured_commit (markerBytes : ByteArray) :
    Ensured site i (fun _ => True) (commit site encoded markerBytes) fun _ => FinalIs encoded := by
  have hfinal := finalIs_persistent encoded
  refine Harmless.bind .true harmless_fsyncParent fun _ => ?_
  refine Ensured.bind (ensured_requireIdentical encoded) fun _ => ?_
  refine Harmless.bind hfinal (harmless_establishWitness markerBytes) fun _ => ?_
  exact harmless_removeMarker.keep hfinal

variable [ContentDigest] [FloatText PyFloat]

lemma ensured_finish (markerBytes : ByteArray) :
    Ensured site i (fun _ => True) (finishPublicationAgainstConcurrentCommit site encoded markerBytes)
      fun _ => FinalIs encoded := by
  refine Harmless.bind .true (harmless_readRecordBytes _ _ _ _) fun _ => ?_
  refine Ensured.bind ensured_readCommitted fun committed => ?_
  have hfinal := finalIs_persistent committed.2
  refine Harmless.bind hfinal (harmless_fsyncRecord _ _) fun _ => ?_
  refine Harmless.bind hfinal (ensured_readArtifactBytes _ _).harmless fun _ => ?_
  refine Harmless.bind hfinal harmless_fsyncParent fun _ => ?_
  refine Harmless.bind hfinal ensured_readCommitted.harmless fun current => ?_
  refine Harmless.bind hfinal (harmless_check _ _) fun _ => ?_
  refine Harmless.bind hfinal (harmless_readRecordBytes _ _ _ _) fun _ => ?_
  refine Harmless.bind hfinal harmless_removeMarker fun _ => ?_
  refine ensured_check (finalIs_persistent encoded).stable fun s hs heq => ?_
  obtain rfl := of_decide_eq_true heq
  exact hs

lemma ensured_publishCommitted (anchor : ℕ) :
    Ensured site i (fun _ => True) (publishCommitted site encoded anchor) fun _ => FinalIs encoded := by
  refine Harmless.bind .true (ensured_requireCommitted true encoded).harmless fun _ => ?_
  refine Harmless.bind .true harmless_rejectPendingMarker fun _ => ?_
  refine Harmless.bind .true (harmless_fsyncRecord _ _) fun _ => ?_
  refine Harmless.bind .true (ensured_requireIdentical encoded).harmless fun _ => ?_
  refine Harmless.bind .true harmless_fsyncParent fun _ => ?_
  refine Harmless.bind .true (harmless_fsyncToAnchor anchor) fun _ => ?_
  refine Ensured.bind (ensured_requireCommitted true encoded) fun _ => ?_
  exact harmless_rejectPendingMarker.keep (finalIs_persistent encoded)

lemma ensured_publishThroughMarker (created anchor : ℕ) :
    Ensured site i (fun _ => True) (publishThroughMarker site i encoded created anchor) fun _ => FinalIs encoded := by
  refine Harmless.bind .true (harmless_writeDurably (ownName_temporary i) encoded) fun _ => ?_
  refine Harmless.bind .true (harmless_writeMarker _) fun _ => ?_
  refine Harmless.bind .true harmless_fsyncParent fun _ => ?_
  refine Harmless.bind .true (harmless_fsyncToAnchor anchor) fun _ => ?_
  refine Harmless.bind .true (harmless_recordExists _ _) fun witnessed => ?_
  split
  · exact ensured_finish _
  · refine Harmless.bind .true (Harmless.bind .true (harmless_pathEntryExists _) fun installed => ?_) fun _ =>
      ensured_commit _
    split
    · exact (ensured_requireIdentical encoded).harmless
    · exact harmless_install encoded

/-- **A publication that returns has seen its bytes in the final file.** -/
theorem ensured_publish (durabilityAnchor : Option ℕ) :
    Ensured site i (fun _ => True) (publishStrategyArtifact site i text durabilityAnchor) fun _ => FinalIs text.toUTF8 := by
  have hfinal := finalIs_persistent text.toUTF8
  refine Harmless.bind .true (harmless_resolveAnchor durabilityAnchor) fun anchor => ?_
  refine Ensured.catchOsError (fun _ => hfinal.stable) ?_ fun _ => ensures_raise
  refine Harmless.bind .true harmless_createParents fun created => ?_
  refine Harmless.bind .true (harmless_recordExists _ _) fun witnessed => ?_
  split
  · exact ensured_publishCommitted anchor
  · refine Harmless.bind .true harmless_rejectPendingMarker fun _ => ?_
    refine Harmless.bind .true (harmless_pathEntryExists _) fun installed => ?_
    split
    · refine Ensured.bind (ensured_requireIdentical _) fun _ => ?_
      refine Harmless.bind hfinal harmless_fsyncParent fun _ => ?_
      exact (harmless_fsyncToAnchor anchor).keep hfinal
    · exact (ensured_publishThroughMarker created anchor).removingTemporary fun _ => hfinal

lemma ensured_recoverCommitted (anchor : ℕ) :
    Ensured site i (fun _ => True) (recoverCommitted site encoded anchor) fun _ => FinalIs encoded := by
  refine Harmless.bind .true (ensured_requireCommitted false encoded).harmless fun _ => ?_
  refine Harmless.bind .true (harmless_fsyncRecord _ _) fun _ => ?_
  refine Harmless.bind .true (ensured_requireIdentical encoded).harmless fun _ => ?_
  refine Harmless.bind .true harmless_fsyncParent fun _ => ?_
  refine Harmless.bind .true (harmless_fsyncToAnchor anchor) fun _ => ?_
  refine Ensured.bind (ensured_requireCommitted false encoded) fun _ => ?_
  exact harmless_removeMarker.keep (finalIs_persistent encoded)

lemma ensured_recoverPending (anchor : ℕ) :
    Ensured site i (fun _ => True) (recoverPending site i encoded anchor) fun _ => FinalIs encoded := by
  refine Harmless.bind .true (harmless_readRecord _ _) fun marker => ?_
  refine Harmless.bind .true (harmless_check _ _) fun _ => ?_
  refine Harmless.bind .true (harmless_createdDirectories _ _) fun _ => ?_
  refine Harmless.bind .true (harmless_anchorCovers _ _) fun _ => ?_
  refine Harmless.bind .true (harmless_readRecordBytes _ _ _ _) fun _ => ?_
  refine Harmless.bind .true harmless_fsyncParent fun _ => ?_
  refine Harmless.bind .true (harmless_fsyncToAnchor anchor) fun _ => ?_
  refine Harmless.bind .true (harmless_pathEntryExists _) fun installed => ?_
  split
  · exact Harmless.bind .true (ensured_requireIdentical encoded).harmless fun _ => ensured_commit _
  · refine Ensured.removingTemporary (fun _ => finalIs_persistent encoded) ?_
    refine Harmless.bind .true (Harmless.bind .true (harmless_writeDurably (ownName_temporary i) encoded) fun _ =>
      harmless_install encoded) fun _ => ensured_commit _

/-- **A recovery that returns has seen its bytes in the final file.** -/
theorem ensured_recover (durabilityAnchor : Option ℕ) :
    Ensured site i (fun _ => True) (recoverStrategyArtifact site i text durabilityAnchor) fun _ => FinalIs text.toUTF8 := by
  refine Harmless.bind .true (harmless_resolveAnchor durabilityAnchor) fun anchor => ?_
  refine Ensured.catchOsError (fun _ => (finalIs_persistent _).stable) ?_ fun _ => ensures_raise
  refine Harmless.bind .true (harmless_recordExists _ _) fun witnessed => ?_
  split
  · exact ensured_recoverCommitted anchor
  · refine Harmless.bind .true (harmless_recordExists _ _) fun pending => ?_
    split
    · exact ensured_recoverPending anchor
    · exact ensured_publish (some anchor)

/-- **A read that returns returns the bytes of the final file.** -/
theorem ensured_readText :
    Ensured site i (fun _ => True) readStrategyArtifactText fun text => FinalIs text.toUTF8 := by
  refine Harmless.bind .true harmless_rejectPendingMarker fun _ => ?_
  refine Harmless.bind .true (harmless_recordExists _ _) fun witnessed => ?_
  split
  · refine Harmless.bind .true (harmless_readRecord _ _) fun witness => ?_
    refine Ensured.bind ensured_readArtifactText fun text => ?_
    have hfinal := finalIs_persistent text.toUTF8
    refine Harmless.bind hfinal (harmless_check _ _) fun _ => ?_
    refine Harmless.bind hfinal (harmless_recordExists _ _) fun _ => ?_
    refine Harmless.bind hfinal (harmless_check _ _) fun _ => ?_
    refine Harmless.bind hfinal (harmless_readRecord _ _) fun _ => ?_
    refine Harmless.bind hfinal (harmless_check _ _) fun _ => ?_
    refine Harmless.bind hfinal harmless_rejectPendingMarker fun _ => ?_
    exact ensures_pure hfinal.stable fun _ => id
  · refine Ensured.bind ensured_readArtifactText fun text => ?_
    have hfinal := finalIs_persistent text.toUTF8
    refine Harmless.bind hfinal (harmless_recordExists _ _) fun _ => ?_
    refine Harmless.bind hfinal (harmless_check _ _) fun _ => ?_
    refine Harmless.bind hfinal harmless_rejectPendingMarker fun _ => ?_
    exact ensures_pure hfinal.stable fun _ => id

end parts

/-! ## Any interleaving -/

section agreement

variable [ContentDigest] [FloatText PyFloat] (site : Site)

/-- A call of one of the entry points. -/
inductive Request where
  | publish (text : String) (durabilityAnchor : Option ℕ)
  | recover (text : String) (durabilityAnchor : Option ℕ)
  | read

/-- The program of a call; its number stands for the `uuid4` it draws. A read returns its text. -/
def Request.program (uuid : ℕ) : Request → Action (Option String)
  | .publish text durabilityAnchor => do
      publishStrategyArtifact site uuid text durabilityAnchor
      pure none
  | .recover text durabilityAnchor => do
      recoverStrategyArtifact site uuid text durabilityAnchor
      pure none
  | .read => do
      let text ← readStrategyArtifactText
      pure (some text)

/-- The bytes that a call was given, or that a read returned. -/
def Request.bytes : Request → Option String → Option ByteArray
  | .publish text _, _ | .recover text _, _ => some text.toUTF8
  | .read, result => result.map String.toUTF8

/-- The calls of the publisher on one path. -/
abbrev Publishers : Type := Pool FsOp FsOp.Reply Raised (Option String) Request FileSystem

/-- Any number of calls, in any interleaving, with faults and crashes. -/
abbrev publishers (fs : FileSystem) : System Publishers (PoolStep Request) :=
  Pool.system (fun _ : ℕ => Act site.parent) (fun uuid request => request.program site uuid) fs

/-- The call number `i` has returned. -/
def Publishers.Returned (pool : Publishers) (i : ℕ) (request : Request) (result : Option String) : Prop :=
  pool.threads[i]? = some (request, some (Prog.done (.ok result)))

/-- What a call that returned has seen. -/
def Seen (request : Request) (result : Option String) (fs : FileSystem) : Prop :=
  ∃ bytes, request.bytes result = some bytes ∧ FinalIs bytes fs

omit [ContentDigest] [FloatText PyFloat] in
lemma seen_persistent (request : Request) (result : Option String) : Persistent Guarantee (Seen request result) :=
  fun i fs fs' ⟨bytes, hbytes, hfinal⟩ hg => ⟨bytes, hbytes, finalIs_persistent bytes i fs fs' hfinal hg⟩

lemma safe_program (i : ℕ) (request : Request) (fs : FileSystem) (hvalid : fs.Valid) :
    Safe (fun _ : ℕ => Act site.parent) Guarantee i (fun r fs => ∀ result, r = .ok result → Seen request result fs)
      (request.program site i) fs := by
  have hensured : Ensured site i (fun _ => True) (request.program site i) (Seen request) := by
    cases request with
    | publish text durabilityAnchor =>
        refine Ensured.bind (ensured_publish durabilityAnchor) fun _ => ?_
        exact ensures_pure (seen_persistent _ _).stable fun s hs => ⟨text.toUTF8, rfl, hs⟩
    | recover text durabilityAnchor =>
        refine Ensured.bind (ensured_recover durabilityAnchor) fun _ => ?_
        exact ensures_pure (seen_persistent _ _).stable fun s hs => ⟨text.toUTF8, rfl, hs⟩
    | read =>
        refine Ensured.bind ensured_readText fun text => ?_
        exact ensures_pure (seen_persistent _ _).stable fun s hs => ⟨text.toUTF8, rfl, hs⟩
  exact hensured fs hvalid trivial

/-- **Published bytes are agreed and immutable**: starting without files, whatever publications, recoveries and reads
run, fail and crash, all that have returned were given or have read the same bytes, and once the final file is there its
bytes never change. -/
theorem artifact_agreement (depth : ℕ) {pool : Publishers} (h : (publishers site { depth := depth }).Reachable pool) :
    (∃ bytes, ∀ i request result, pool.Returned i request result → request.bytes result = some bytes) ∧
    ∀ tr pool', (publishers site { depth := depth }).Run pool tr pool' → ∀ bytes,
      pool.shared.bytesOf .final = some bytes → pool'.shared.bytesOf .final = some bytes := by
  have hinit : FileSystem.Valid { depth := depth } := fun _ _ hentry => by cases hentry
  obtain ⟨hvalid, hsafe⟩ := Pool.safe valid_persistent (safe_program site) hinit h
  have hseen : ∀ i request result, pool.Returned i request result → Seen request result pool.shared :=
    fun i request result hreturned => hsafe i request _ hreturned pool.shared .refl result rfl
  constructor
  · by_cases hdone : ∃ i request result, pool.Returned i request result
    · obtain ⟨i, request, result, hreturned⟩ := hdone
      obtain ⟨bytes, -, hfinal⟩ := hseen i request result hreturned
      refine ⟨bytes, fun j request' result' hreturned' => ?_⟩
      obtain ⟨bytes', hbytes', hfinal'⟩ := hseen j request' result' hreturned'
      rw [hbytes', hfinal'.unique hfinal]
    · exact ⟨ByteArray.empty, fun i request result hreturned => absurd ⟨i, request, result, hreturned⟩ hdone⟩
  · intro tr pool' hrun bytes hbytes
    obtain ⟨inode, hentry, hcontent⟩ := Option.map_eq_some_iff.mp hbytes
    obtain ⟨inode', -, hentry', hcontent'⟩ := Pool.persists valid_persistent (safe_program site) hinit
      (finalIs_persistent bytes) h hrun ⟨inode, hvalid _ _ hentry, hentry, hcontent⟩
    rw [FileSystem.bytesOf, hentry', Option.map_some, hcontent']

end agreement

section demo

attribute [local instance] zeroContentDigest noFloatText

/-- A publication that has run to its end. -/
theorem artifact_agreement_published : ∃ pool : Publishers, (publishers ⟨1⟩ {}).Reachable pool ∧
    pool.Returned 0 (.publish "{}" (some 0)) none ∧
    ∃ bytes, ∀ i request result, pool.Returned i request result → request.bytes result = some bytes := by
  have hinit : (publishers ⟨1⟩ {}).Reachable ⟨{}, []⟩ := System.Reachable.init rfl
  have hstart := hinit.step (Pool.Step.start (Request.publish "{}" (some 0)))
  have hend := Pool.reachable_alone (fun _ _ => .done) (i := 0) hstart rfl
  have hrun : (alone ⟨1⟩ (Request.program ⟨1⟩ 0 (.publish "{}" (some 0))) {}).1 = .ok none := by
    rw [Request.program, alone_bind_ok (alone_publish (Stale.empty 0) "{}" (Nat.zero_le 1) le_rfl)]
    rfl
  refine ⟨_, hend, ?_, (artifact_agreement ⟨1⟩ 0 hend).1⟩
  exact congrArg (fun r => some (Request.publish "{}" (some 0), some (Prog.done r))) hrun

end demo

end MuStrategy.Publication
