import Mathlib.Data.List.Nodup
import PortMate.ContentUploads

namespace PortMate

open List Option

/-- The lock file stays as long as both files that it guards do. -/
def RemovedFiles.GuardsContent (removed : RemovedFiles) : Prop :=
  removed.lockFile = true → removed.payload = true ∨ removed.metadata = true

namespace UploadDir

def declaredSize (dir : UploadDir) : Nat :=
  (dir.metadata.join.map (·.sizeBytes)).getD 0

/-- What a directory can become without an append: the same one with fewer files. -/
structure Kept (now old : UploadDir) : Prop where
  id : now.id = old.id
  metadata : ∀ metadata, now.metadata = some (some metadata) → old.metadata = some (some metadata)
  payload : ∀ payload, now.payload = some payload → old.payload = some payload

theorem Kept.refl (dir : UploadDir) : Kept dir dir :=
  ⟨rfl, fun _ same => same, fun _ same => same⟩

theorem Kept.trans {first second third : UploadDir} (one : Kept first second)
    (two : Kept second third) : Kept first third :=
  ⟨one.id.trans two.id, fun metadata same => two.metadata metadata (one.metadata metadata same),
    fun payload same => two.payload payload (one.payload payload same)⟩

theorem Kept.declaredSize_le {now old : UploadDir} (kept : Kept now old) :
    now.declaredSize ≤ old.declaredSize := by
  unfold declaredSize
  cases found : now.metadata.join with
  | none => exact Nat.zero_le _
  | some metadata =>
    have before := kept.metadata metadata (by simpa using join_eq_some_iff.mp found)
    rw [before]
    exact Nat.le_refl _

theorem kept_lockFile (dir : UploadDir) : Kept { dir with lockFile := true } dir :=
  ⟨rfl, fun _ same => same, fun _ same => same⟩

theorem removeFiles_kept {dir now : UploadDir} {removed : RemovedFiles}
    (left : dir.removeFiles removed = some now) : Kept now dir := by
  obtain ⟨-, same⟩ := ite_none_left_eq_some.mp left
  obtain rfl := Option.some.inj same
  exact ⟨rfl, fun _ found => (ite_none_left_eq_some.mp found).2,
    fun _ found => (ite_none_left_eq_some.mp found).2⟩

theorem cancelFiles_kept {dir now : UploadDir} {removed : RemovedFiles}
    (left : dir.cancelFiles removed = some now) : Kept now dir := by
  unfold cancelFiles at left
  split at left
  · obtain rfl := Option.some.inj left
    exact Kept.refl dir
  · split at left
    · obtain rfl := Option.some.inj left
      exact ⟨rfl, fun _ same => same, fun _ none => absurd none (by simp)⟩
    · exact removeFiles_kept left

end UploadDir

def declaredBytes (dirs : List UploadDir) : Nat := (dirs.map UploadDir.declaredSize).sum

/-- Some of the directories, each with some of its files. -/
abbrev DirsKept (now old : List UploadDir) : Prop := List.SublistForall₂ UploadDir.Kept now old

namespace DirsKept

theorem refl (dirs : List UploadDir) : DirsKept dirs dirs := by
  induction dirs with
  | nil => exact .nil
  | cons dir dirs ih => exact .cons (UploadDir.Kept.refl dir) ih

variable {now old : List UploadDir}

theorem ids (kept : DirsKept now old) : (now.map (·.id)).Sublist (old.map (·.id)) := by
  induction kept with
  | nil => exact nil_sublist _
  | cons one _ ih =>
    rw [map_cons, map_cons, one.id]
    exact ih.cons_cons _
  | cons_right _ ih => exact ih.cons _

theorem length_le (kept : DirsKept now old) : now.length ≤ old.length := by
  simpa using kept.ids.length_le

theorem declaredBytes_le (kept : DirsKept now old) : declaredBytes now ≤ declaredBytes old := by
  induction kept with
  | nil => exact Nat.zero_le _
  | cons one _ ih => exact Nat.add_le_add one.declaredSize_le ih
  | cons_right _ ih => exact Nat.le_trans ih (Nat.le_add_left _ _)

theorem mem (kept : DirsKept now old) {dir : UploadDir} (member : dir ∈ now) :
    ∃ before ∈ old, UploadDir.Kept dir before := by
  induction kept with
  | nil => exact absurd member not_mem_nil
  | cons one _ ih =>
    rcases mem_cons.mp member with rfl | later
    · exact ⟨_, mem_cons_self, one⟩
    · obtain ⟨before, found, same⟩ := ih later
      exact ⟨before, mem_cons_of_mem _ found, same⟩
  | cons_right _ ih =>
    obtain ⟨before, found, same⟩ := ih member
    exact ⟨before, mem_cons_of_mem _ found, same⟩

theorem toList_append {dir : UploadDir} {kept? : Option UploadDir}
    (head : ∀ left, kept? = some left → UploadDir.Kept left dir) (rest : DirsKept now old) :
    DirsKept (kept?.toList ++ now) (dir :: old) := by
  cases kept? with
  | none => exact .cons_right rest
  | some left => exact .cons (head left rfl) rest

end DirsKept

theorem replaceDir_kept {uploadId : String} {change : UploadDir → Option UploadDir}
    (changes : ∀ dir left, change dir = some left → UploadDir.Kept left dir)
    (dirs : List UploadDir) : DirsKept (replaceDir uploadId change dirs) dirs := by
  induction dirs with
  | nil => exact .nil
  | cons dir dirs ih =>
    unfold replaceDir
    split
    · exact DirsKept.toList_append (changes dir) (DirsKept.refl dirs)
    · exact .cons (UploadDir.Kept.refl dir) ih

theorem replaceDir_eq {uploadId : String} {dirs : List UploadDir} {dir : UploadDir}
    (found : (dirs.find? fun dir => dir.id = uploadId) = some dir)
    (change : UploadDir → Option UploadDir) :
    ∃ before after, dirs = before ++ dir :: after ∧
      replaceDir uploadId change dirs = before ++ ((change dir).toList ++ after) := by
  induction dirs with
  | nil => exact absurd found (by simp)
  | cons head dirs ih =>
    unfold replaceDir
    by_cases here : head.id = uploadId
    · rw [find?_cons_of_pos (by simpa using here)] at found
      obtain rfl := Option.some.inj found
      rw [if_pos here]
      exact ⟨[], dirs, rfl, rfl⟩
    · rw [find?_cons_of_neg (by simpa using here)] at found
      obtain ⟨before, after, split, replaced⟩ := ih found
      rw [if_neg here, replaced]
      exact ⟨head :: before, after, by rw [split]; rfl, rfl⟩

theorem cleanupExpiredUploads_kept (now : Nat) (expiry : String → ExpiryFiles)
    (dirs : List UploadDir) : DirsKept (cleanupExpiredUploads now expiry dirs).1 dirs := by
  induction dirs with
  | nil => exact .nil
  | cons dir dirs ih =>
    unfold cleanupExpiredUploads
    dsimp only
    split
    · exact .cons (UploadDir.Kept.refl dir) ih
    · split
      · exact DirsKept.refl _
      · refine DirsKept.toList_append ?_ ih
        intro left same
        split at same
        · exact (UploadDir.removeFiles_kept same).trans dir.kept_lockFile
        · obtain rfl := Option.some.inj same
          exact dir.kept_lockFile

theorem uploadUsage_eq {reads : String → Bool} {dirs : List UploadDir}
    (readable : ∀ dir ∈ dirs, dir.metadata.join.isSome → reads dir.id = true)
    (small : ∀ dir ∈ dirs, dir.declaredSize ≤ maxMcpContentUploadBytes) :
    uploadUsage reads dirs = (dirs.length, min (declaredBytes dirs) (2 ^ 64 - 1)) := by
  have declared : ∀ dir ∈ dirs, min (((dir.readMetadata (reads dir.id)).map (·.sizeBytes)).getD 0)
      maxMcpContentUploadBytes = dir.declaredSize := by
    intro dir member
    have same : dir.readMetadata (reads dir.id) = dir.metadata.join := by
      unfold UploadDir.readMetadata
      cases found : dir.metadata.join with
      | none => exact ite_self _
      | some metadata => rw [readable dir member (by rw [found]; rfl)]; rfl
    rw [same]
    exact Nat.min_eq_left (small dir member)
  have all : ∀ (rest : List UploadDir) (count bytes : Nat), (∀ dir ∈ rest, dir ∈ dirs) →
      rest.foldl
        (fun usage dir =>
          let declared := ((dir.readMetadata (reads dir.id)).map (·.sizeBytes)).getD 0
          (usage.1 + 1, min (usage.2 + min declared maxMcpContentUploadBytes) (2 ^ 64 - 1)))
        (count, min bytes (2 ^ 64 - 1)) =
      (count + rest.length, min (bytes + declaredBytes rest) (2 ^ 64 - 1)) := by
    intro rest
    induction rest with
    | nil =>
      intro count bytes _
      rfl
    | cons dir rest ih =>
      intro count bytes within
      have later := ih (count + 1) (bytes + dir.declaredSize)
        fun other member => within other (mem_cons_of_mem _ member)
      rw [foldl_cons]
      dsimp only
      rw [declared dir (within dir mem_cons_self)]
      have saturated : min (min bytes (2 ^ 64 - 1) + dir.declaredSize) (2 ^ 64 - 1) =
          min (bytes + dir.declaredSize) (2 ^ 64 - 1) := by omega
      rw [saturated, later]
      unfold declaredBytes
      rw [map_cons, sum_cons, length_cons]
      congr 1
      · omega
      · congr 1
        omega
  have total := all dirs 0 0 fun _ member => member
  rwa [Nat.zero_min, Nat.zero_add, Nat.zero_add] at total

namespace UploadSignal

def uploadId : UploadSignal → String
  | began _ uploadId _ _ => uploadId
  | appended _ uploadId _ _ _ => uploadId
  | started _ uploadId _ => uploadId
  | cancelled _ uploadId => uploadId

def acceptedChunk? (uploadId : String) : UploadSignal → Option (List UInt8)
  | appended _ id _ chunk true => if id = uploadId then some chunk else none
  | _ => none

theorem acceptedChunk?_other {uploadId : String} {signal : UploadSignal}
    (other : signal.uploadId ≠ uploadId) : signal.acceptedChunk? uploadId = none := by
  cases signal with
  | appended clientId id offset chunk accepted =>
    cases accepted with
    | true => exact if_neg other
    | false => rfl
  | _ => rfl

end UploadSignal

open UploadSignal

/-- The chunks of an upload whose append succeeded, in the order of the appends. -/
def acceptedChunks (trace : List UploadSignal) (uploadId : String) : List (List UInt8) :=
  trace.filterMap (acceptedChunk? uploadId)

theorem acceptedChunks_concat (trace : List UploadSignal) (signal : UploadSignal)
    (uploadId : String) :
    acceptedChunks (trace ++ [signal]) uploadId =
      acceptedChunks trace uploadId ++ (signal.acceptedChunk? uploadId).toList := by
  unfold acceptedChunks
  rw [filterMap_append]
  cases found : signal.acceptedChunk? uploadId with
  | none => rw [filterMap_cons_none found]; rfl
  | some chunk => rw [filterMap_cons_some found]; rfl

variable {trace : List UploadSignal}

theorem acceptedChunks_fresh {uploadId : String}
    (fresh : ∀ signal ∈ trace, signal.uploadId ≠ uploadId) : acceptedChunks trace uploadId = [] :=
  filterMap_eq_nil_iff.mpr fun signal member =>
    acceptedChunk?_other (fresh signal member)

/-- What a signal says about those before it. An upload is begun once, so the client that another
signal names is the one that began it. -/
def UploadSignal.RightAfter (sha256 : List UInt8 → String) (before : List UploadSignal) :
    UploadSignal → Prop
  | .began _ uploadId sizeBytes _ =>
    sizeBytes ≤ maxMcpContentUploadBytes ∧ ∀ signal ∈ before, signal.uploadId ≠ uploadId
  | .appended clientId uploadId offset chunk _ => ∃ sizeBytes digest,
    .began clientId uploadId sizeBytes digest ∈ before ∧
      offset = (acceptedChunks before uploadId).flatten.length ∧ offset + chunk.length ≤ sizeBytes
  | .started clientId uploadId payload => ∃ sizeBytes digest,
    .began clientId uploadId sizeBytes digest ∈ before ∧
      payload = (acceptedChunks before uploadId).flatten ∧ payload.length = sizeBytes ∧
      sha256 payload = digest
  | .cancelled clientId uploadId => ∃ sizeBytes digest,
    .began clientId uploadId sizeBytes digest ∈ before

/-- The files of a directory hold what the clients were told. -/
structure DirInvariant (trace : List UploadSignal) (dir : UploadDir) : Prop where
  own : ∀ metadata, dir.metadata = some (some metadata) →
    metadata.uploadId = dir.id ∧ metadata.sizeBytes ≤ maxMcpContentUploadBytes
  begun : ∀ metadata payload, dir.metadata = some (some metadata) → dir.payload = some payload →
    .began metadata.clientId dir.id metadata.sizeBytes metadata.sha256 ∈ trace
  content : ∀ payload, dir.payload = some payload →
    payload = (acceptedChunks trace dir.id).flatten

theorem DirInvariant.kept {now old : UploadDir} (inv : DirInvariant trace old)
    (kept : UploadDir.Kept now old) : DirInvariant trace now where
  own metadata found := by
    rw [kept.id]
    exact inv.own metadata (kept.metadata metadata found)
  begun metadata payload found bytes := by
    rw [kept.id]
    exact inv.begun metadata payload (kept.metadata metadata found) (kept.payload payload bytes)
  content payload bytes := by
    rw [kept.id]
    exact inv.content payload (kept.payload payload bytes)

theorem DirInvariant.concat {dir : UploadDir} {signal : UploadSignal} (inv : DirInvariant trace dir)
    (elsewhere : signal.acceptedChunk? dir.id = none) :
    DirInvariant (trace ++ [signal]) dir where
  own := inv.own
  begun metadata payload found bytes :=
    mem_append_left _ (inv.begun metadata payload found bytes)
  content payload bytes := by
    rw [acceptedChunks_concat, elsewhere]
    simpa using inv.content payload bytes

theorem DirInvariant.declaredSize_le {dir : UploadDir} (inv : DirInvariant trace dir) :
    dir.declaredSize ≤ maxMcpContentUploadBytes := by
  unfold UploadDir.declaredSize
  cases found : dir.metadata.join with
  | none => exact Nat.zero_le _
  | some metadata => exact (inv.own metadata (join_eq_some_iff.mp found)).2

structure UploadInvariant (sha256 : List UInt8 → String) (uploads : ContentUploads)
    (trace : List UploadSignal) : Prop where
  distinct : (uploads.dirs.map (·.id)).Nodup
  dirs : ∀ dir ∈ uploads.dirs, DirInvariant trace dir
  known : ∀ dir ∈ uploads.dirs, dir.id ∈ uploads.created
  named : ∀ signal ∈ trace, signal.uploadId ∈ uploads.created
  small : ∀ begun ∈ uploads.beginning, begun.2.sizeBytes ≤ maxMcpContentUploadBytes
  room : uploads.dirs.length + uploads.beginning.toList.length ≤ maxMcpContentUploads
  declared : declaredBytes uploads.dirs + (uploads.beginning.map (·.2.sizeBytes)).getD 0 ≤
    maxMcpContentUploadTotalBytes
  history : EachAfter (UploadSignal.RightAfter sha256) trace

namespace UploadInvariant

variable {sha256 : List UInt8 → String} {uploads : ContentUploads} {trace : List UploadSignal}

variable (inv : UploadInvariant sha256 uploads trace)

include inv

theorem kept {dirs : List UploadDir} (fewer : DirsKept dirs uploads.dirs) :
    UploadInvariant sha256 { uploads with dirs } trace where
  distinct := inv.distinct.sublist fewer.ids
  dirs dir member := by
    obtain ⟨old, before, same⟩ := fewer.mem member
    exact (inv.dirs old before).kept same
  known dir member := by
    obtain ⟨old, before, same⟩ := fewer.mem member
    rw [same.id]
    exact inv.known old before
  named := inv.named
  small := inv.small
  room := Nat.le_trans (Nat.add_le_add_right fewer.length_le _) inv.room
  declared := Nat.le_trans (Nat.add_le_add_right fewer.declaredBytes_le _) inv.declared
  history := inv.history

theorem emit {signal : UploadSignal} (right : signal.RightAfter sha256 trace)
    (known : signal.uploadId ∈ uploads.created)
    (silent : ∀ uploadId, signal.acceptedChunk? uploadId = none) :
    UploadInvariant sha256 uploads (trace ++ [signal]) where
  distinct := inv.distinct
  dirs dir member := (inv.dirs dir member).concat (silent dir.id)
  known := inv.known
  named other member := by
    rcases mem_append.mp member with old | new
    · exact inv.named other old
    · rw [mem_singleton.mp new]
      exact known
  small := inv.small
  room := inv.room
  declared := inv.declared
  history := inv.history.concat right

theorem create (uploadId : String) :
    UploadInvariant sha256 { uploads with created := uploadId :: uploads.created } trace where
  distinct := inv.distinct
  dirs := inv.dirs
  known dir member := mem_cons_of_mem _ (inv.known dir member)
  named signal member := mem_cons_of_mem _ (inv.named signal member)
  small := inv.small
  room := inv.room
  declared := inv.declared
  history := inv.history

theorem made {clientId : String} {request : BeginContentUploadRequest}
    (begun : uploads.beginning = some (clientId, request)) {new : Option UploadDir}
    (fresh : ∀ dir ∈ new, dir.id ∈ uploads.created ∧ ∀ old ∈ uploads.dirs, old.id ≠ dir.id)
    (right : ∀ dir ∈ new, DirInvariant trace dir ∧ dir.declaredSize ≤ request.sizeBytes) :
    UploadInvariant sha256
      { uploads with dirs := uploads.dirs ++ new.toList, beginning := none } trace := by
  have room := inv.room
  have declared := inv.declared
  rw [begun] at room declared
  have total : declaredBytes (uploads.dirs ++ new.toList) =
      declaredBytes uploads.dirs + declaredBytes new.toList := by
    unfold declaredBytes
    rw [map_append, sum_append]
  cases new with
  | none =>
    refine ⟨?_, ?_, ?_, inv.named, fun _ none => absurd none (by simp), ?_, ?_, inv.history⟩
    · simpa using inv.distinct
    · simpa using inv.dirs
    · simpa using inv.known
    · simpa using Nat.le_of_succ_le room
    · simpa using Nat.le_trans (Nat.le_add_right _ _) declared
  | some dir =>
    obtain ⟨known, apart⟩ := fresh dir rfl
    obtain ⟨own, fits⟩ := right dir rfl
    refine ⟨?_, ?_, ?_, inv.named, fun _ none => absurd none (by simp), ?_, ?_, inv.history⟩
    · rw [toList_some, map_append, nodup_append]
      refine ⟨inv.distinct, by simp, ?_⟩
      intro first firstMember second secondMember
      obtain ⟨old, member, rfl⟩ := mem_map.mp firstMember
      obtain rfl : second = dir.id := by simpa using secondMember
      exact apart old member
    · intro other member
      rcases mem_append.mp member with old | new
      · exact inv.dirs other old
      · rw [mem_singleton.mp new]
        exact own
    · intro other member
      rcases mem_append.mp member with old | new
      · exact inv.known other old
      · rw [mem_singleton.mp new]
        exact known
    · simpa using room
    · dsimp only at declared ⊢
      rw [total]
      have one : declaredBytes [dir] = dir.declaredSize := Nat.add_zero _
      simp only [toList_some, one, map_none, getD_none]
      simp only [map_some, getD_some] at declared
      omega

theorem replace (uploadId : String) {change : UploadDir → Option UploadDir}
    (changes : ∀ dir left, change dir = some left → UploadDir.Kept left dir) :
    UploadInvariant sha256 (uploads.replace uploadId change) trace :=
  inv.kept (replaceDir_kept changes uploads.dirs)

theorem openLock (uploadId : String) (files : OwnerFiles) :
    UploadInvariant sha256 (uploads.openLock uploadId files) trace := by
  unfold ContentUploads.openLock
  split
  · exact inv
  · refine inv.replace uploadId ?_
    intro dir left same
    obtain rfl := Option.some.inj same
    exact dir.kept_lockFile

end UploadInvariant

theorem validateBegin_sizeBytes {request : BeginContentUploadRequest} {checks : BeginChecks}
    {destination : String} (valid : validateBegin request checks = .ok destination) :
    request.sizeBytes ≤ maxMcpContentUploadBytes := by
  by_contra large
  have tooLarge : (request.sizeBytes = 0 || request.sizeBytes > maxMcpContentUploadBytes) = true := by
    simp only [Bool.or_eq_true, decide_eq_true_eq]
    omega
  unfold validateBegin at valid
  rw [if_pos tooLarge] at valid
  cases arguments : checks.arguments <;> cases name : validateFileName request.fileName <;>
    cases tftp : checks.tftpFileName <;> by_cases protocol : request.protocol = .tftp <;>
    simp [arguments, name, tftp, protocol, bind, Except.bind, throw, throwThe,
      MonadExceptOf.throw] at valid

namespace ContentUploads

variable {sha256 : List UInt8 → String} {uploads : ContentUploads} {trace : List UploadSignal}

theorem beginCheck_keeps (inv : UploadInvariant sha256 uploads trace) (clientId : String)
    (request : BeginContentUploadRequest) (checks : BeginChecks) {files : BeginFiles}
    (readable : ∀ dir ∈ uploads.dirs, dir.metadata.join.isSome → files.usageReads dir.id = true) :
    UploadInvariant sha256 (uploads.beginCheck clientId request checks files) trace := by
  unfold beginCheck
  split
  next => exact inv
  next idle =>
    split
    next => exact inv
    next destination valid =>
      split
      · exact inv
      · have fewer := cleanupExpiredUploads_kept files.now files.expiry uploads.dirs
        generalize cleanupExpiredUploads files.now files.expiry uploads.dirs = swept at fewer ⊢
        obtain ⟨dirs, cleaned⟩ := swept
        have left := inv.kept fewer
        dsimp only
        split
        · have usage : uploadUsage files.usageReads dirs =
              (dirs.length, min (declaredBytes dirs) (2 ^ 64 - 1)) := by
            refine uploadUsage_eq ?_ fun dir member => (left.dirs dir member).declaredSize_le
            intro dir member parsed
            obtain ⟨old, before, same⟩ := fewer.mem member
            obtain ⟨metadata, found⟩ := isSome_iff_exists.mp parsed
            rw [same.id]
            refine readable old before ?_
            rw [same.metadata metadata (join_eq_some_iff.mp found)]
            rfl
          rw [usage]
          split
          next => exact left
          next count =>
            split
            next => exact left
            next bytes =>
              have size := validateBegin_sizeBytes valid
              refine ⟨left.distinct, left.dirs, left.known, left.named, ?_, ?_, ?_, left.history⟩
              · intro begun same
                obtain rfl := Option.some.inj same
                exact size
              · exact Nat.lt_of_not_le count
              · have total : maxMcpContentUploadTotalBytes = 1024 * 1024 * 1024 := rfl
                simp only [map_some, getD_some]
                omega
        · exact left

theorem createFiles_spec (metadata : StagedUploadMetadata) (uploadId : String) (now : Nat)
    (files : CreateFiles) :
    (createFiles metadata ⟨uploadId, none, none, false, now⟩ files).1.id = uploadId ∧
      (∀ found, (createFiles metadata ⟨uploadId, none, none, false, now⟩ files).1.metadata =
        some (some found) → found = metadata) ∧
      ∀ payload, (createFiles metadata ⟨uploadId, none, none, false, now⟩ files).1.payload =
        some payload → payload = [] ∧
          (createFiles metadata ⟨uploadId, none, none, false, now⟩ files).2 = true := by
  unfold createFiles
  dsimp only
  split
  · exact ⟨rfl, fun _ none => absurd none (by simp), fun _ none => absurd none (by simp)⟩
  · split
    · exact ⟨rfl, fun _ none => absurd none (by simp), fun _ none => absurd none (by simp)⟩
    · split
      · exact ⟨rfl, fun _ same => by simpa using same.symm, fun _ none => absurd none (by simp)⟩
      · exact ⟨rfl, fun _ same => by simpa using same.symm, fun _ same => by simpa using same.symm⟩

theorem made_silently (inv : UploadInvariant sha256 uploads trace) {clientId uploadId : String}
    {request : BeginContentUploadRequest} (begun : uploads.beginning = some (clientId, request))
    (fresh : uploadId ∉ uploads.created) {new : Option UploadDir}
    (right : ∀ dir ∈ new, dir.id = uploadId ∧ dir.payload = none ∧
      ∀ metadata, dir.metadata = some (some metadata) →
        metadata.uploadId = uploadId ∧ metadata.sizeBytes = request.sizeBytes) :
    UploadInvariant sha256
      { dirs := uploads.dirs ++ new.toList, beginning := none
        created := uploadId :: uploads.created } trace := by
  have size : request.sizeBytes ≤ maxMcpContentUploadBytes := inv.small (clientId, request) begun
  refine (inv.create uploadId).made begun ?_ ?_
  · intro dir member
    rw [(right dir member).1]
    refine ⟨mem_cons_self, ?_⟩
    intro old before same
    exact fresh (same ▸ inv.known old before)
  · intro dir member
    obtain ⟨id, noPayload, own⟩ := right dir member
    refine ⟨⟨?_, ?_, ?_⟩, ?_⟩
    · intro metadata found
      rw [id, (own metadata found).2]
      exact ⟨(own metadata found).1, size⟩
    · intro _ payload _ bytes
      exact absurd (noPayload.symm.trans bytes) (by simp)
    · intro payload bytes
      exact absurd (noPayload.symm.trans bytes) (by simp)
    · unfold UploadDir.declaredSize
      cases found : dir.metadata.join with
      | none => exact Nat.zero_le _
      | some metadata => exact Nat.le_of_eq (own metadata (join_eq_some_iff.mp found)).2

theorem beginCreate_keeps (inv : UploadInvariant sha256 uploads trace) {uploadId : String}
    (fresh : uploadId ∉ uploads.created) (now : Nat) (files : CreateFiles) :
    UploadInvariant sha256 (uploads.beginCreate uploadId now files).1
      (trace ++ (uploads.beginCreate uploadId now files).2) := by
  unfold beginCreate
  split
  next => simpa using inv
  next clientId request begun =>
    dsimp only
    split
    · have none : UploadInvariant sha256
          { uploads with
            dirs := uploads.dirs ++ (none : Option UploadDir).toList
            beginning := none } trace :=
        inv.made begun nofun nofun
      simpa using none
    · split
      · rw [append_nil]
        refine made_silently inv begun fresh ?_
        intro dir same
        obtain rfl := Option.some.inj same
        exact ⟨rfl, rfl, fun _ none => absurd none (by simp)⟩
      · have spec := createFiles_spec (beginMetadata clientId uploadId request now) uploadId now files
        generalize createFiles (beginMetadata clientId uploadId request now)
          ⟨uploadId, none, none, false, now⟩ files = made at spec ⊢
        obtain ⟨dir, complete⟩ := made
        obtain ⟨id, own, content⟩ := spec
        dsimp only at id own content ⊢
        split
        next =>
          have size : request.sizeBytes ≤ maxMcpContentUploadBytes :=
            inv.small (clientId, request) begun
          have unused : ∀ signal ∈ trace, signal.uploadId ≠ uploadId :=
            fun signal member same => fresh (same ▸ inv.named signal member)
          have right : (began clientId uploadId request.sizeBytes
              request.sha256).RightAfter sha256 trace := ⟨size, unused⟩
          have begins := (inv.create uploadId).emit right mem_cons_self fun _ => rfl
          refine begins.made begun ?_ ?_
          · intro new same
            obtain rfl := Option.some.inj same
            rw [id]
            refine ⟨mem_cons_self, ?_⟩
            intro old before taken
            exact fresh (taken ▸ inv.known old before)
          · intro new same
            obtain rfl := Option.some.inj same
            refine ⟨⟨?_, ?_, ?_⟩, ?_⟩
            · intro metadata found
              rw [own metadata found, id]
              exact ⟨rfl, size⟩
            · intro metadata payload found _
              rw [own metadata found, id]
              exact mem_append_right _ mem_cons_self
            · intro payload bytes
              rw [(content payload bytes).1, id, acceptedChunks_concat,
                acceptedChunks_fresh unused]
              rfl
            · unfold UploadDir.declaredSize
              cases found : dir.metadata.join with
              | none => exact Nat.zero_le _
              | some metadata =>
                rw [own metadata (join_eq_some_iff.mp found)]
                exact Nat.le_refl _
        next partly =>
          rw [append_nil]
          refine made_silently inv begun fresh ?_
          intro left same
          have kept := UploadDir.removeFiles_kept same
          refine ⟨kept.id.trans id, ?_, ?_⟩
          · cases bytes : left.payload with
            | none => rfl
            | some payload => exact absurd (content payload (kept.payload payload bytes)).2 partly
          · intro metadata found
            rw [own metadata (kept.metadata metadata found)]
            exact ⟨rfl, rfl⟩

variable {dir : UploadDir}

theorem mem_of_dir? {uploadId : String} (stored : uploads.dir? uploadId = some dir) :
    dir ∈ uploads.dirs ∧ dir.id = uploadId :=
  ⟨mem_of_find?_eq_some stored, by simpa using find?_some stored⟩

variable {metadata : StagedUploadMetadata}

theorem ownedUpload_spec {clientId uploadId : String} {files : OwnerFiles}
    (owned : uploads.ownedUpload clientId uploadId files = some (dir, metadata)) :
    uploads.dir? uploadId = some dir ∧ dir.metadata = some (some metadata) ∧
      metadata.clientId = clientId := by
  unfold ownedUpload at owned
  split at owned
  next found _ =>
    split at owned
    next => exact absurd owned (by simp)
    next parsed readable =>
      obtain ⟨own, same⟩ := ite_none_left_eq_some.mp owned
      obtain ⟨rfl, rfl⟩ := Prod.mk.inj (Option.some.inj same)
      have stored := (ite_none_right_eq_some.mp readable).2
      refine ⟨found, join_eq_some_iff.mp stored, ?_⟩
      by_contra foreign
      exact own (by simp [foreign])
  next => exact absurd owned (by simp)

theorem cancelContentUpload_keeps (inv : UploadInvariant sha256 uploads trace)
    (clientId uploadId : String) (files : CancelFiles) :
    UploadInvariant sha256 (uploads.cancelContentUpload clientId uploadId files).1
      (trace ++ (uploads.cancelContentUpload clientId uploadId files).2) := by
  have opened := inv.openLock uploadId files.toOwnerFiles
  unfold cancelContentUpload
  dsimp only
  split
  next => simpa using opened
  next dir metadata owned =>
    obtain ⟨stored, found, client⟩ := ownedUpload_spec owned
    obtain ⟨member, id⟩ := mem_of_dir? stored
    have left := opened.replace uploadId fun dir left =>
      @UploadDir.cancelFiles_kept dir left files.removed
    dsimp only
    split
    next removes =>
      obtain ⟨payload, bytes⟩ := isSome_iff_exists.mp (Bool.and_eq_true_iff.mp removes).1
      have begun := (opened.dirs dir member).begun metadata payload found bytes
      rw [client, id] at begun
      have right : (cancelled clientId uploadId).RightAfter sha256 trace :=
        ⟨_, _, begun⟩
      refine left.emit right ?_ fun _ => rfl
      exact id ▸ opened.known dir member
    next => simpa using left

theorem verifiedPayload_spec {files : StartFiles} {payload : List UInt8}
    (verified : verifiedPayload sha256 metadata dir files = some payload) :
    dir.payload = some payload ∧ payload.length = metadata.sizeBytes ∧
      sha256 payload = metadata.sha256 := by
  unfold verifiedPayload at verified
  split at verified
  next bytes _ =>
    obtain ⟨length, rest⟩ := ite_none_left_eq_some.mp verified
    obtain ⟨digest, same⟩ := ite_none_left_eq_some.mp rest
    obtain rfl := Option.some.inj same
    exact ⟨bytes, not_not.mp length, not_not.mp digest⟩
  next => exact absurd verified (by simp)

theorem startCompletedUploadTransfer_keeps (inv : UploadInvariant sha256 uploads trace)
    (clientId uploadId : String) (files : StartFiles) :
    UploadInvariant sha256 (uploads.startCompletedUploadTransfer sha256 clientId uploadId files).1
      (trace ++ (uploads.startCompletedUploadTransfer sha256 clientId uploadId files).2) := by
  have opened := inv.openLock uploadId files.toOwnerFiles
  unfold startCompletedUploadTransfer
  dsimp only
  split
  next => simpa using opened
  next dir metadata owned =>
    obtain ⟨stored, found, client⟩ := ownedUpload_spec owned
    obtain ⟨member, id⟩ := mem_of_dir? stored
    split
    next payload verified _ =>
      obtain ⟨bytes, length, digest⟩ := verifiedPayload_spec verified
      have own := opened.dirs dir member
      have begun := own.begun metadata payload found bytes
      have content := own.content payload bytes
      rw [id] at content
      rw [client, id] at begun
      have right : (started clientId uploadId payload).RightAfter sha256 trace :=
        ⟨_, _, begun, content, length, digest⟩
      have left := opened.replace uploadId fun dir left =>
        @UploadDir.removeFiles_kept dir left files.removed
      refine left.emit right ?_ fun _ => rfl
      exact id ▸ opened.known dir member
    next => simpa using opened

theorem appendChunk_spec {dir written : UploadDir} {offset : Nat} {chunk : List UInt8}
    {files : AppendFiles} (write : appendChunk metadata dir offset chunk files = some written) :
    ∃ payload, dir.payload = some payload ∧ offset = payload.length ∧
      offset + chunk.length ≤ metadata.sizeBytes ∧ files.written = true ∧
      written = { dir with payload := some (payload ++ chunk) } := by
  unfold appendChunk at write
  split at write
  next payload _ bytes _ =>
    obtain ⟨place, rest⟩ := ite_none_left_eq_some.mp write
    obtain ⟨fits, rest⟩ := ite_none_left_eq_some.mp rest
    obtain ⟨done, same⟩ := ite_none_left_eq_some.mp rest
    have offsetEq : offset = payload.length := not_not.mp place
    simp only [Bool.or_eq_true, decide_eq_true_eq, not_or, Nat.not_lt] at fits
    refine ⟨payload, bytes, offsetEq, ?_, by simpa using done, (Option.some.inj same).symm⟩
    rw [offsetEq]
    exact fits.1
  next => exact absurd write (by simp)

theorem written_keeps (inv : UploadInvariant sha256 uploads trace) {clientId uploadId : String}
    {payload chunk : List UInt8} (stored : uploads.dir? uploadId = some dir)
    (found : dir.metadata = some (some metadata)) (client : metadata.clientId = clientId)
    (bytes : dir.payload = some payload) (fits : payload.length + chunk.length ≤ metadata.sizeBytes) :
    UploadInvariant sha256
      (uploads.replace uploadId fun _ => some { dir with payload := some (payload ++ chunk) })
      (trace ++ [.appended clientId uploadId payload.length chunk true]) := by
  obtain ⟨member, rfl⟩ := mem_of_dir? stored
  have own := inv.dirs dir member
  have content := own.content payload bytes
  have begun := own.begun metadata payload found bytes
  rw [client] at begun
  obtain ⟨before, after, split, replaced⟩ :=
    replaceDir_eq stored fun _ => some { dir with payload := some (payload ++ chunk) }
  have ids := inv.distinct
  have room := inv.room
  have declared := inv.declared
  rw [split] at ids room declared
  have others : ∀ other ∈ before ++ after, other ∈ uploads.dirs ∧ dir.id ≠ other.id := by
    intro other place
    rw [map_append, map_cons, nodup_middle, ← map_append] at ids
    refine ⟨?_, ?_⟩
    · rw [split, mem_append]
      exact (mem_append.mp place).imp_right (mem_cons_of_mem dir)
    · intro same
      exact (nodup_cons.mp ids).1 (mem_map.mpr ⟨other, place, same.symm⟩)
  have right : (appended clientId dir.id payload.length chunk true).RightAfter sha256
      trace := ⟨_, _, begun, by rw [content], fits⟩
  have known : dir.id ∈ uploads.created := inv.known dir member
  have accepted : acceptedChunks (trace ++ [.appended clientId dir.id payload.length chunk true])
      dir.id = acceptedChunks trace dir.id ++ [chunk] := by
    rw [acceptedChunks_concat]
    simp [acceptedChunk?]
  have written : DirInvariant (trace ++ [.appended clientId dir.id payload.length chunk true])
      { dir with payload := some (payload ++ chunk) } := by
    refine ⟨own.own, ?_, ?_⟩
    · intro metadata _ found _
      exact mem_append_left _ (own.begun metadata payload found bytes)
    · intro grown same
      rw [accepted, flatten_append, ← content, ← Option.some.inj same]
      simp
  have cases : ∀ other ∈ before ++ { dir with payload := some (payload ++ chunk) } :: after,
      other = { dir with payload := some (payload ++ chunk) } ∨ other ∈ before ++ after := by
    intro other place
    simp only [mem_append, mem_cons] at place ⊢
    tauto
  unfold replace
  rw [replaced, toList_some, singleton_append]
  refine ⟨?_, ?_, ?_, ?_, inv.small, ?_, ?_, inv.history.concat right⟩
  · simpa using ids
  · intro other place
    rcases cases other place with rfl | old
    · exact written
    · obtain ⟨stays, apart⟩ := others other old
      refine (inv.dirs other stays).concat ?_
      exact acceptedChunk?_other apart
  · intro other place
    rcases cases other place with rfl | old
    · exact known
    · exact inv.known other (others other old).1
  · intro signal place
    rcases mem_append.mp place with old | new
    · exact inv.named signal old
    · rw [mem_singleton.mp new]
      exact known
  · simpa using room
  · simpa [declaredBytes, UploadDir.declaredSize] using declared

theorem append_keeps (inv : UploadInvariant sha256 uploads trace) (clientId uploadId : String)
    (offset : Nat) (chunk : Except String (List UInt8)) {files : AppendFiles}
    (synced : files.written = true → files.synced = true) :
    UploadInvariant sha256 (uploads.append clientId uploadId offset chunk files).1
      (trace ++ (uploads.append clientId uploadId offset chunk files).2) := by
  unfold append
  split
  next => simpa using inv
  next chunk =>
    split
    · simpa using inv
    · have opened := inv.openLock uploadId files.toOwnerFiles
      dsimp only
      split
      next => simpa using opened
      next dir metadata owned =>
        split
        next => simpa using opened
        next written write =>
          obtain ⟨stored, found, client⟩ := ownedUpload_spec owned
          obtain ⟨payload, bytes, rfl, fits, done, rfl⟩ := appendChunk_spec write
          rw [synced done]
          exact written_keeps opened stored found client bytes fits

/-- No file operation of the step leaves the files behind what the clients are told: the metadata of
an upload that counts can be read, a written chunk reaches the disk, and a lock file goes only with
the content that it guards. Identifiers are not used twice. -/
def Orderly (uploads : ContentUploads) : UploadEvent → Prop
  | .beginCheck _ _ _ files =>
    (∀ dir ∈ uploads.dirs, dir.metadata.join.isSome → files.usageReads dir.id = true) ∧
      ∀ uploadId, (files.expiry uploadId).removed.GuardsContent
  | .beginCreate uploadId _ _ => uploadId ∉ uploads.created
  | .append _ _ _ _ files => files.written = true → files.synced = true
  | .start _ _ files => files.removed.GuardsContent
  | .cancel _ _ _ => True

theorem step_keeps (inv : UploadInvariant sha256 uploads trace) {event : UploadEvent}
    (orderly : uploads.Orderly event) :
    UploadInvariant sha256 (uploads.step sha256 event).1
      (trace ++ (uploads.step sha256 event).2) := by
  cases event with
  | beginCheck clientId request checks files =>
    have kept := beginCheck_keeps inv clientId request checks orderly.1
    simpa [step] using kept
  | beginCreate uploadId now files => exact beginCreate_keeps inv orderly now files
  | append clientId uploadId offset chunk files =>
    exact append_keeps inv clientId uploadId offset chunk orderly
  | start clientId uploadId files => exact startCompletedUploadTransfer_keeps inv clientId uploadId files
  | cancel clientId uploadId files => exact cancelContentUpload_keeps inv clientId uploadId files

def empty : ContentUploads := ⟨[], none, []⟩

theorem empty_invariant (sha256 : List UInt8 → String) : UploadInvariant sha256 empty [] where
  distinct := nodup_nil
  dirs _ none := absurd none not_mem_nil
  known _ none := absurd none not_mem_nil
  named _ none := absurd none not_mem_nil
  small _ none := absurd none (by simp [empty])
  room := Nat.zero_le _
  declared := Nat.zero_le _
  history := eachAfter_nil _

/-- What the clients were told is true, and the directories stay within the limits. -/
structure UploadsKept (sha256 : List UInt8 → String) (uploads : ContentUploads)
    (trace : List UploadSignal) : Prop where
  history : EachAfter (UploadSignal.RightAfter sha256) trace
  count : uploads.dirs.length ≤ maxMcpContentUploads
  declared : declaredBytes uploads.dirs ≤ maxMcpContentUploadTotalBytes

theorem content_uploads_kept (sha256 : List UInt8 → String) (events : List UploadEvent)
    (orderly : (contentUploads sha256).StepsMeet Orderly empty events) :
    UploadsKept sha256 ((contentUploads sha256).run empty events).1
      ((contentUploads sha256).run empty events).2 := by
  have step : ∀ uploads trace event, Orderly uploads event → UploadInvariant sha256 uploads trace →
      UploadInvariant sha256 ((contentUploads sha256).step uploads event).1
        (trace ++ ((contentUploads sha256).step uploads event).2) :=
    fun _ _ _ orderly inv => step_keeps inv orderly
  have inv := (contentUploads sha256).run_preserves_trace_of step orderly (empty_invariant sha256)
  exact ⟨inv.history, Nat.le_trans (Nat.le_add_right _ _) inv.room,
    Nat.le_trans (Nat.le_add_right _ _) inv.declared⟩

def letterDigest : String := "ca978112ca1bbdcafac231b39a23dc4da786eff8147c4e72b9807785afee48bb"

def letterSha256 (payload : List UInt8) : String := if payload = [97] then letterDigest else ""

def allRemoved : RemovedFiles := ⟨true, true, true, true⟩

def foundOwner : OwnerFiles := ⟨.ok (), true, .ok ()⟩

/-- A begin whose file operations succeed, but for the metadata that the limits read. -/
def beginEvents (uploadId : String) (sizeBytes : Nat) (usageReads : Bool) : List UploadEvent :=
  [.beginCheck "client" ⟨"s1", .sftp, "a.bin", sizeBytes, letterDigest, "remote:/a.bin"⟩
      ⟨.ok (), .ok (), .ok (), .ok "remote:/a.bin"⟩
      ⟨.ok (), 0, fun _ => ⟨true, true, .ok (), true, allRemoved⟩, .ok (), fun _ => usageReads⟩,
    .beginCreate uploadId 0 ⟨true, true, true, true, true, true, allRemoved⟩]

def letterEvents (synced : Bool) : List UploadEvent :=
  beginEvents "u1" 1 true ++
    [.append "client" "u1" 0 (.ok [97]) ⟨foundOwner, .ok (), true, synced⟩,
      .start "client" "u1" ⟨foundOwner, .ok (), .ok true, allRemoved⟩]

theorem letter_upload_kept :
    UploadsKept letterSha256 ((contentUploads letterSha256).run empty (letterEvents true)).1
        ((contentUploads letterSha256).run empty (letterEvents true)).2 ∧
      ((contentUploads letterSha256).run empty (letterEvents true)).2 =
        [.began "client" "u1" 1 letterDigest, .appended "client" "u1" 0 [97] true,
          .started "client" "u1" [97]] := by
  refine ⟨content_uploads_kept letterSha256 (letterEvents true) ?_, by decide +kernel⟩
  have fresh : "u1" ∉
      ((contentUploads letterSha256).run empty ((letterEvents true).take 1)).1.created := by
    decide +kernel
  exact ⟨⟨fun _ none => absurd none not_mem_nil, fun _ _ => .inl rfl⟩, fresh,
    fun _ => rfl, fun _ => .inl rfl, trivial⟩

/-- A third upload of the maximal size when no metadata can be read, and an upload whose only chunk is
written but not synced: its append fails, and it starts with that chunk. -/
theorem quota_and_content_missed :
    ¬UploadsKept letterSha256
        ((contentUploads letterSha256).run empty
          (beginEvents "u1" maxMcpContentUploadBytes true ++
            (beginEvents "u2" maxMcpContentUploadBytes true ++
              beginEvents "u3" maxMcpContentUploadBytes false))).1
        ((contentUploads letterSha256).run empty
          (beginEvents "u1" maxMcpContentUploadBytes true ++
            (beginEvents "u2" maxMcpContentUploadBytes true ++
              beginEvents "u3" maxMcpContentUploadBytes false))).2 ∧
      ¬UploadsKept letterSha256
        ((contentUploads letterSha256).run empty (letterEvents false)).1
        ((contentUploads letterSha256).run empty (letterEvents false)).2 := by
  refine ⟨fun kept => absurd kept.declared (by decide +kernel), ?_⟩
  intro kept
  have trace : ((contentUploads letterSha256).run empty (letterEvents false)).2 =
      [.began "client" "u1" 1 letterDigest, .appended "client" "u1" 0 [97] false] ++
        .started "client" "u1" [97] :: [] := by decide +kernel
  obtain ⟨_, _, _, content, _⟩ := kept.history _ _ _ trace
  exact absurd content (by decide)

end ContentUploads

end PortMate
