import PortMate.StorePersistence

namespace PortMate

open List WriteOutcome

variable {ι Digest : Type} [DecidableEq ι]

namespace StoreWorld

@[simp] theorem set_instances_self (world : StoreWorld ι Digest) (i : ι) (inst : Instance Digest) :
    (world.set i inst).instances i = inst := by
  simp [set]

theorem set_instances_other (world : StoreWorld ι Digest) {i j : ι} (other : j ≠ i)
    (inst : Instance Digest) : (world.set i inst).instances j = world.instances j := by
  simp [set, Function.update_of_ne other]

end StoreWorld

open StoreWorld

def StoreEvent.author : StoreEvent ι → ι
  | .load i .. | .save i .. | .compareContent i .. | .readContent i .. | .readRevision i .. => i

/-- The content an instance has in hand after the signal, if the signal is about that. -/
def StoreSignal.observed (i : ι) : StoreSignal ι → Option Blob
  | .loaded j content | .saved j _ content | .verified j content =>
    if j = i then some content else none
  | .failed _ _ => none

open StoreSignal

/-- The content the instance last loaded, wrote or verified. -/
def lastKnown (i : ι) (trace : List (StoreSignal ι)) : Option Blob :=
  (trace.filterMap fun signal => signal.observed i).getLast?

theorem lastKnown_append {i : ι} {trace signals : List (StoreSignal ι)}
    (silent : ∀ signal ∈ signals, signal.observed i = none) :
    lastKnown i (trace ++ signals) = lastKnown i trace := by
  have nothing : signals.filterMap (fun signal => signal.observed i) = [] :=
    filterMap_eq_nil_iff.mpr silent
  rw [lastKnown, filterMap_append, nothing, append_nil, lastKnown]

theorem lastKnown_observed {i : ι} {trace : List (StoreSignal ι)} {signal : StoreSignal ι}
    {content : Blob} (seen : signal.observed i = some content) :
    lastKnown i (trace ++ [signal]) = some content := by
  simp [lastKnown, seen]

section Save

variable [DecidableEq Digest] (sha256 : List UInt8 → Digest) (format : StoreFormat)
  (file : Option Snapshot) (image : StoreImage) (revision : Blob)
  (expected current : StoreSnapshotVersion Digest) (write : WriteOutcome) (after : ReadOutcome)

theorem saveStoreCheckedLocked_cases :
    (∃ error, (saveStoreCheckedLocked sha256 format file image revision expected current write
        after).result = .error error ∧
      ((saveStoreCheckedLocked sha256 format file image revision expected current write
          after).expected = expected ∨
        (saveStoreCheckedLocked sha256 format file image revision expected current write
          after).expected = .unknownAfterCommit)) ∨
    expected ≠ .unknownAfterCommit ∧ expected = current ∧
      saveStoreCheckedLocked sha256 format file image revision expected current write after =
        ⟨.ok (), storeSnapshotVersion sha256 format (some (image.snapshot format revision)),
          some (image.snapshot format revision)⟩ := by
  unfold saveStoreCheckedLocked
  split
  next => exact .inl ⟨_, rfl, .inl rfl⟩
  next =>
  split
  next => exact .inl ⟨_, rfl, .inl rfl⟩
  next known =>
  split
  next => exact .inl ⟨_, rfl, .inl rfl⟩
  next fresh =>
  cases write with
  | rolledBack error =>
    refine .inl ⟨error, rfl, ?_⟩
    dsimp only [error?]
    split_ifs
    · exact .inr rfl
    · exact .inl rfl
  | failedAfterCommit error =>
    refine .inl ⟨error, rfl, ?_⟩
    dsimp only [error?]
    split_ifs
    · exact .inr rfl
    · exact .inl rfl
  | written =>
    cases after with
    | failed error => exact .inl ⟨_, rfl, .inr rfl⟩
    | ok => exact .inr ⟨known, not_not.mp fresh, rfl⟩

end Save

section Steps

variable (sha256 : List UInt8 → Digest) (format : StoreFormat)

/-- What one event of an instance does: to the file, to its own record, and what it announces. -/
inductive InstanceStep (i : ι) (world : StoreWorld ι Digest) :
    Option Snapshot → Instance Digest → List (StoreSignal ι) → Prop
  | unchanged {signals : List (StoreSignal ι)}
      (silent : ∀ signal ∈ signals, ∃ error, signal = .failed i error) :
      InstanceStep i world world.file (world.instances i) signals
  | settled (file : Option Snapshot) (error : String) :
      InstanceStep i world file ⟨(world.instances i).expected, .idle⟩ [.failed i error]
  | lost (file : Option Snapshot) (error : String)
      {entry : Option (StoreSnapshotVersion Digest)}
      (distrust : entry = none ∨ entry = some .unknownAfterCommit) :
      InstanceStep i world file ⟨entry, .idle⟩ [.failed i error]
  | loaded (snapshot : Snapshot) :
      InstanceStep i world (some snapshot)
        ⟨some (storeSnapshotVersion sha256 format (some snapshot)), .idle⟩
        [.loaded i snapshot.content]
  | saved (snapshot : Snapshot)
      (current : (world.instances i).expected =
        some (storeSnapshotVersion sha256 format world.file)) :
      InstanceStep i world (some snapshot)
        ⟨some (storeSnapshotVersion sha256 format (some snapshot)), .idle⟩
        [.saved i world.file snapshot.content]
  | compared {snapshot : Snapshot} (file : world.file = some snapshot) :
      InstanceStep i world world.file
        ⟨(world.instances i).expected, .compared snapshot.content⟩ []
  | hashing {content : Blob} {snapshot : Snapshot}
      (before : (world.instances i).verification = .compared content)
      (file : world.file = some snapshot) :
      InstanceStep i world world.file
        ⟨(world.instances i).expected, .hashing content snapshot.content⟩ []
  | verified {content json : Blob} {snapshot : Snapshot}
      (before : (world.instances i).verification = .hashing content json)
      (file : world.file = some snapshot) :
      InstanceStep i world world.file
        ⟨some (storeSnapshotVersion sha256 format (some ⟨snapshot.revision, json⟩)), .idle⟩
        [.verified i content]

/-- A world after one event: the file may have moved, and one record. -/
def StoreWorld.after (world : StoreWorld ι Digest) (i : ι) (file : Option Snapshot)
    (inst : Instance Digest) : StoreWorld ι Digest :=
  ({ world with file := file } : StoreWorld ι Digest).set i inst

theorem after_same (world : StoreWorld ι Digest) (i : ι) :
    world.after i world.file (world.instances i) = world := by
  simp [StoreWorld.after, StoreWorld.set]

/-- The step goes one of the ways an instance can go. -/
def Goes (i : ι) (world : StoreWorld ι Digest)
    (stepped : StoreWorld ι Digest × List (StoreSignal ι)) : Prop :=
  ∃ file inst, stepped.1 = world.after i file inst ∧
    InstanceStep sha256 format i world file inst stepped.2

theorem goes_nowhere (i : ι) (world : StoreWorld ι Digest) {signals : List (StoreSignal ι)}
    (silent : ∀ signal ∈ signals, ∃ error, signal = .failed i error) :
    Goes sha256 format i world (world, signals) :=
  ⟨_, _, (after_same world i).symm, .unchanged silent⟩

theorem load_goes (world : StoreWorld ι Digest) (i : ι) (initial : StoreImage) (revision : Blob)
    (write : WriteOutcome) (read version : ReadOutcome) :
    Goes sha256 format i world
      (world.load sha256 format i initial revision write read version) := by
  unfold StoreWorld.load
  dsimp only
  cases world.file with
  | some snapshot =>
    cases read with
    | failed error => exact ⟨_, _, rfl, .lost _ error (.inl rfl)⟩
    | ok =>
      cases version with
      | failed error => exact ⟨_, _, rfl, .lost _ error (.inl rfl)⟩
      | ok => exact ⟨_, _, rfl, .loaded snapshot⟩
  | none =>
    cases write with
    | rolledBack error => exact ⟨_, _, rfl, .lost _ error (.inl rfl)⟩
    | failedAfterCommit error => exact ⟨_, _, rfl, .lost _ error (.inl rfl)⟩
    | written =>
      cases version with
      | failed error => exact ⟨_, _, rfl, .lost _ error (.inl rfl)⟩
      | ok => exact ⟨_, _, rfl, .loaded _⟩

theorem save_goes [DecidableEq Digest] (world : StoreWorld ι Digest) (i : ι) (image : StoreImage)
    (revision : Blob) (before : ReadOutcome) (write : WriteOutcome) (after : ReadOutcome) :
    Goes sha256 format i world (world.save sha256 format i image revision before write after) := by
  unfold StoreWorld.save
  split
  next entry loaded idle =>
    cases before with
    | failed error => exact goes_nowhere sha256 format i world (by simp)
    | ok =>
      simp only [ReadOutcome.read]
      obtain ⟨error, failed, kept | unknown⟩ | ⟨trusted, current, done⟩ :=
        saveStoreCheckedLocked_cases sha256 format world.file image revision entry
          (storeSnapshotVersion sha256 format world.file) write after
      · rw [failed, kept, ← loaded]
        exact ⟨_, _, rfl, .settled _ error⟩
      · rw [failed, unknown]
        exact ⟨_, _, rfl, .lost _ error (.inr rfl)⟩
      · rw [done]
        have same : (image.snapshot format revision).content = image.json := by
          cases format <;> rfl
        have saved : InstanceStep sha256 format i world (some (image.snapshot format revision))
            ⟨some (storeSnapshotVersion sha256 format (some (image.snapshot format revision))), .idle⟩
            [.saved i world.file (image.snapshot format revision).content] :=
          .saved _ (current ▸ loaded)
        rw [same] at saved
        exact ⟨_, _, rfl, saved⟩
  next => exact goes_nowhere sha256 format i world (by simp)

theorem compareContent_goes {Value : Type} [DecidableEq Value] (decode : Blob → Option Value)
    (world : StoreWorld ι Digest) (i : ι) (image : StoreImage) (read : ReadOutcome) :
    Goes sha256 format i world (world.compareContent decode i image read) := by
  unfold StoreWorld.compareContent
  split
  next entry loaded idle =>
    split
    next => exact goes_nowhere sha256 format i world (by simp)
    next => exact goes_nowhere sha256 format i world (by simp)
    next snapshot file =>
      split
      · exact goes_nowhere sha256 format i world (by simp)
      · split
        · rw [← loaded]
          exact ⟨_, _, rfl, .compared file⟩
        · exact goes_nowhere sha256 format i world (by simp)
  next => exact goes_nowhere sha256 format i world (by simp)

theorem readContent_goes (world : StoreWorld ι Digest) (i : ι) (read : ReadOutcome) :
    Goes sha256 format i world (world.readContent i read) := by
  unfold StoreWorld.readContent
  split
  next error _ => exact ⟨_, _, rfl, .settled _ error⟩
  next => exact ⟨_, _, rfl, .settled _ _⟩
  next content snapshot before file => exact ⟨_, _, rfl, .hashing before file⟩
  next => exact goes_nowhere sha256 format i world (by simp)

theorem readRevision_goes (world : StoreWorld ι Digest) (i : ι) (read : ReadOutcome) :
    Goes sha256 format i world (world.readRevision sha256 format i read) := by
  unfold StoreWorld.readRevision
  split
  next error _ => exact ⟨_, _, rfl, .settled _ error⟩
  next => exact ⟨_, _, rfl, .settled _ _⟩
  next content json snapshot before file => exact ⟨_, _, rfl, .verified before file⟩
  next => exact goes_nowhere sha256 format i world (by simp)

theorem store_step_goes {Value : Type} [DecidableEq Digest] [DecidableEq Value]
    (decode : Blob → Option Value) (world : StoreWorld ι Digest) (event : StoreEvent ι) :
    Goes sha256 format event.author world
      ((storeInstances sha256 format decode).step world event) := by
  cases event with
  | load i initial revision write read version => exact load_goes sha256 format world i ..
  | save i image revision before write after => exact save_goes sha256 format world i ..
  | compareContent i image read => exact compareContent_goes sha256 format decode world i image read
  | readContent i read => exact readContent_goes sha256 format world i read
  | readRevision i read => exact readRevision_goes sha256 format world i read

end Steps

namespace StoreWorld

@[simp] theorem after_file (world : StoreWorld ι Digest) (i : ι) (file : Option Snapshot)
    (inst : Instance Digest) : (world.after i file inst).file = file := rfl

@[simp] theorem after_instances_self (world : StoreWorld ι Digest) (i : ι)
    (file : Option Snapshot) (inst : Instance Digest) :
    (world.after i file inst).instances i = inst := set_instances_self _ i inst

theorem after_instances_other (world : StoreWorld ι Digest) {i j : ι} (other : j ≠ i)
    (file : Option Snapshot) (inst : Instance Digest) :
    (world.after i file inst).instances j = world.instances j := set_instances_other _ other inst

end StoreWorld

theorem version_ne_unknown (sha256 : List UInt8 → Digest) (format : StoreFormat)
    (file : Option Snapshot) : storeSnapshotVersion sha256 format file ≠ .unknownAfterCommit := by
  cases file <;> simp [storeSnapshotVersion]

section Invariant

variable {sha256 : List UInt8 → Digest} {format : StoreFormat} {world : StoreWorld ι Digest}
  {trace signals : List (StoreSignal ι)} {i j : ι} {file : Option Snapshot}
  {inst : Instance Digest}

/-- The entry of an instance is the version of the content it has in hand, or is known to be
worthless; and what a verification has compared is still the content of the file. -/
structure Tracked (sha256 : List UInt8 → Digest) (format : StoreFormat)
    (world : StoreWorld ι Digest) (trace : List (StoreSignal ι)) (i : ι) : Prop where
  entry : ∀ version, (world.instances i).expected = some version →
    version = .unknownAfterCommit ∨ ∃ snapshot,
      version = storeSnapshotVersion sha256 format (some snapshot) ∧
      lastKnown i trace = some snapshot.content
  compared : ∀ content, (world.instances i).verification = .compared content →
    ∃ snapshot, world.file = some snapshot ∧ snapshot.content = content
  hashing : ∀ content json, (world.instances i).verification = .hashing content json →
    json = content

theorem signals_of_others (step : InstanceStep sha256 format i world file inst signals)
    (other : j ≠ i) : ∀ signal ∈ signals, signal.observed j = none := by
  cases step with
  | unchanged silent =>
    intro signal listed
    obtain ⟨error, rfl⟩ := silent signal listed
    rfl
  | settled error => simp [observed]
  | lost error => simp [observed]
  | loaded snapshot => simp [observed, other.symm]
  | saved snapshot => simp [observed, other.symm]
  | compared => simp
  | hashing => simp
  | verified => simp [observed, other.symm]

theorem tracked_own (step : InstanceStep sha256 format i world file inst signals)
    (tracked : Tracked sha256 format world trace i) :
    Tracked sha256 format (world.after i file inst) (trace ++ signals) i := by
  cases step with
  | unchanged silent =>
    rw [after_same]
    refine ⟨fun version entry => ?_, tracked.compared, tracked.hashing⟩
    rw [lastKnown_append fun signal listed => ?_]
    · exact tracked.entry version entry
    · obtain ⟨error, rfl⟩ := silent signal listed
      rfl
  | settled _ error =>
    refine ⟨fun version entry => ?_, by simp, by simp⟩
    rw [lastKnown_append (by simp [observed])]
    exact tracked.entry version (by simpa using entry)
  | lost _ error distrust =>
    refine ⟨fun version entry => .inl ?_, by simp, by simp⟩
    obtain rfl | rfl := distrust
    · simp at entry
    · simpa using entry.symm
  | loaded snapshot =>
    refine ⟨fun version entry => .inr ⟨snapshot, by simpa using entry.symm, ?_⟩, by simp, by simp⟩
    exact lastKnown_observed (by simp [observed])
  | saved snapshot =>
    refine ⟨fun version entry => .inr ⟨snapshot, by simpa using entry.symm, ?_⟩, by simp, by simp⟩
    exact lastKnown_observed (by simp [observed])
  | @compared snapshot present =>
    refine ⟨fun version entry => ?_, fun content compared => ?_, by simp⟩
    · rw [append_nil]
      exact tracked.entry version (by simpa using entry)
    · exact ⟨snapshot, present, by simpa using compared⟩
  | @hashing content snapshot before present =>
    refine ⟨fun version entry => ?_, by simp, fun content' json hashing => ?_⟩
    · rw [append_nil]
      exact tracked.entry version (by simpa using entry)
    · obtain ⟨known, sameFile, sameContent⟩ := tracked.compared content before
      obtain rfl := Option.some.inj (sameFile.symm.trans present)
      simp only [after_instances_self, Verification.hashing.injEq] at hashing
      rw [← hashing.1, ← hashing.2, sameContent]
  | @verified content json snapshot before present =>
    obtain rfl := tracked.hashing content json before
    refine ⟨fun version entry => .inr ⟨⟨snapshot.revision, json⟩, by simpa using entry.symm, ?_⟩,
      by simp, by simp⟩
    exact lastKnown_observed (by simp [observed])

theorem tracked_other (step : InstanceStep sha256 format i world file inst signals)
    (other : j ≠ i)
    (calm : file ≠ world.file → ∀ content, (world.instances j).verification ≠ .compared content)
    (tracked : Tracked sha256 format world trace j) :
    Tracked sha256 format (world.after i file inst) (trace ++ signals) j where
  entry := by
    rw [world.after_instances_other other, lastKnown_append (signals_of_others step other)]
    exact tracked.entry
  compared := by
    rw [world.after_instances_other other]
    intro content compared
    have still : file = world.file := by
      by_contra moved
      exact calm moved content compared
    rw [after_file, still]
    exact tracked.compared content compared
  hashing := by
    rw [world.after_instances_other other]
    exact tracked.hashing

end Invariant

section Runs

variable {Value : Type} [DecidableEq Digest] [DecidableEq Value] (sha256 : List UInt8 → Digest)
  (format : StoreFormat) (decode : Blob → Option Value)

def StoreWorld.start (file : Option Snapshot) : StoreWorld ι Digest :=
  ⟨file, fun _ => ⟨none, .idle⟩⟩

/-- The event does not move the file between the two readings of another instance's verification:
that of the content it compares and that of the content it takes the version of. -/
def Calm (world : StoreWorld ι Digest) (event : StoreEvent ι) : Prop :=
  ((storeInstances sha256 format decode).step world event).1.file ≠ world.file →
    ∀ j, j ≠ event.author → ∀ content, (world.instances j).verification ≠ .compared content

theorem run_tracked {file : Option Snapshot} {events : List (StoreEvent ι)}
    (calm : (storeInstances sha256 format decode).StepsMeet (Calm sha256 format decode)
      (.start file) events) (i : ι) :
    Tracked sha256 format ((storeInstances sha256 format decode).run (.start file) events).1
      ((storeInstances sha256 format decode).run (.start file) events).2 i := by
  have initial : ∀ i, Tracked sha256 format (.start file : StoreWorld ι Digest) [] i := fun i =>
    ⟨fun _ entry => by simp [start] at entry, fun _ compared => by
      simp [start] at compared, fun _ _ hashing => by simp [start] at hashing⟩
  have step : ∀ (world : StoreWorld ι Digest) (trace : List (StoreSignal ι)) event,
      Calm sha256 format decode world event → (∀ i, Tracked sha256 format world trace i) →
      ∀ i, Tracked sha256 format ((storeInstances sha256 format decode).step world event).1
        (trace ++ ((storeInstances sha256 format decode).step world event).2) i := by
    intro world trace event calm tracked j
    obtain ⟨file, inst, next, step⟩ := store_step_goes sha256 format decode world event
    rw [next]
    by_cases own : j = event.author
    · subst own
      exact tracked_own step (tracked _)
    · refine tracked_other step own (fun moved => ?_) (tracked j)
      exact calm (by rwa [next]) j own
  exact (storeInstances sha256 format decode).run_preserves_trace_of step calm initial i

theorem unknown_step {world : StoreWorld ι Digest} {i : ι} {event : StoreEvent ι}
    (distrust : (world.instances i).expected = none ∨
      (world.instances i).expected = some .unknownAfterCommit)
    (unseen : ∀ content,
      .loaded i content ∉ ((storeInstances sha256 format decode).step world event).2 ∧
      .verified i content ∉ ((storeInstances sha256 format decode).step world event).2) :
    ((((storeInstances sha256 format decode).step world event).1.instances i).expected = none ∨
      (((storeInstances sha256 format decode).step world event).1.instances i).expected =
        some .unknownAfterCommit) ∧
    ∀ replaced content,
      .saved i replaced content ∉ ((storeInstances sha256 format decode).step world event).2 := by
  obtain ⟨file, inst, next, step⟩ := store_step_goes sha256 format decode world event
  rw [next]
  by_cases own : i = event.author
  · subst own
    rw [after_instances_self]
    generalize ((storeInstances sha256 format decode).step world event).2 = signals at step unseen
    cases step with
    | unchanged silent =>
      refine ⟨distrust, fun replaced content listed => ?_⟩
      obtain ⟨error, same⟩ := silent _ listed
      exact nomatch same
    | settled _ error => exact ⟨distrust, by simp⟩
    | lost _ error distrust' => exact ⟨distrust', by simp⟩
    | loaded snapshot => exact absurd (mem_singleton_self _) (unseen snapshot.content).1
    | saved snapshot current =>
      have known := version_ne_unknown sha256 format world.file
      rw [current] at distrust
      obtain absent | unknown := distrust
      · exact nomatch absent
      · exact absurd (Option.some.inj unknown) known
    | compared => exact ⟨distrust, by simp⟩
    | hashing => exact ⟨distrust, by simp⟩
    | @verified content => exact absurd (mem_singleton_self _) (unseen content).2
  · rw [world.after_instances_other own]
    refine ⟨distrust, fun replaced content listed => ?_⟩
    have foreign := signals_of_others step own _ listed
    simp [observed] at foreign

theorem unknown_run {world : StoreWorld ι Digest} {i : ι} {events : List (StoreEvent ι)}
    (distrust : (world.instances i).expected = none ∨
      (world.instances i).expected = some .unknownAfterCommit)
    (unseen : ∀ content,
      .loaded i content ∉ ((storeInstances sha256 format decode).run world events).2 ∧
      .verified i content ∉ ((storeInstances sha256 format decode).run world events).2) :
    ∀ replaced content,
      .saved i replaced content ∉ ((storeInstances sha256 format decode).run world events).2 := by
  induction events generalizing world with
  | nil => simp
  | cons event events ih =>
    simp only [Transducer.run_cons, mem_append, not_or] at unseen ⊢
    obtain ⟨distrust', refused⟩ := unknown_step sha256 format decode distrust fun content =>
      ⟨(unseen content).1.1, (unseen content).2.1⟩
    intro replaced content
    exact ⟨refused replaced content,
      ih distrust' (fun content => ⟨(unseen content).1.2, (unseen content).2.2⟩) replaced content⟩

theorem no_update_lost (collisionFree : Function.Injective sha256) (file : Option Snapshot) :
    (∀ before (event : StoreEvent ι),
      (storeInstances sha256 format decode).StepsMeet (Calm sha256 format decode) (.start file)
        before →
      let reached := (storeInstances sha256 format decode).run (.start file) before
      ∀ i replaced content,
        .saved i replaced content ∈
          ((storeInstances sha256 format decode).step reached.1 event).2 →
        ∃ snapshot, replaced = some snapshot ∧ reached.1.file = some snapshot ∧
          lastKnown i reached.2 = some snapshot.content) ∧
    ∀ (world : StoreWorld ι Digest) i events,
      (world.instances i).expected = some .unknownAfterCommit →
      (∀ content, .loaded i content ∉ ((storeInstances sha256 format decode).run world events).2 ∧
        .verified i content ∉ ((storeInstances sha256 format decode).run world events).2) →
      ∀ replaced content,
        .saved i replaced content ∉ ((storeInstances sha256 format decode).run world events).2 := by
  refine ⟨?_, fun world i events unknown unseen =>
    unknown_run sha256 format decode (.inr unknown) unseen⟩
  intro before event calm reached i replaced content succeeded
  have tracked := run_tracked sha256 format decode calm i
  obtain ⟨file, inst, _, step⟩ := store_step_goes sha256 format decode reached.1 event
  have own : i = event.author := by
    by_contra other
    have foreign := signals_of_others step other _ succeeded
    simp [observed] at foreign
  generalize ((storeInstances sha256 format decode).step reached.1 event).2 = signals at *
  subst own
  cases step with
  | unchanged silent =>
    obtain ⟨error, same⟩ := silent _ succeeded
    exact nomatch same
  | settled => simp at succeeded
  | lost => simp at succeeded
  | loaded => simp at succeeded
  | compared => simp at succeeded
  | hashing => simp at succeeded
  | verified => simp at succeeded
  | saved snapshot current =>
    simp only [mem_singleton, StoreSignal.saved.injEq, true_and] at succeeded
    obtain ⟨rfl, rfl⟩ := succeeded
    obtain unknown | ⟨known, version, inHand⟩ := tracked.entry _ current
    · exact absurd unknown (version_ne_unknown sha256 format _)
    · cases present : reached.1.file with
      | none => simp [present, storeSnapshotVersion] at version
      | some replaced =>
        rw [present] at version
        have same := version_content format collisionFree version
        exact ⟨replaced, rfl, rfl, by rw [same]; exact inHand⟩

end Runs

section Schedules

def blobOf (byte : UInt8) : Blob := ⟨[byte], by simp⟩

def imageOf (byte : UInt8) : StoreImage := ⟨0, blobOf byte⟩

/-- Two instances over a store file, with the hashed bytes themselves for the digest. -/
def twoInstances : Transducer (StoreWorld (Fin 2) (List UInt8)) (StoreEvent (Fin 2))
    (StoreSignal (Fin 2)) :=
  storeInstances (fun bytes => bytes) .sqlite3 some

def firstSnapshot : Snapshot := ⟨blobOf 1, blobOf 10⟩

def bothLoad : List (StoreEvent (Fin 2)) :=
  [.load 0 (imageOf 0) (blobOf 0) .written .ok .ok, .load 1 (imageOf 0) (blobOf 0) .written .ok .ok]

/-- The first instance writes and is told of an error, so it does not trust its version. -/
def writtenWithError : List (StoreEvent (Fin 2)) :=
  bothLoad ++ [.save 0 (imageOf 11) (blobOf 2) .ok (.failedAfterCommit "disk I/O error") .ok]

/-- Between the two readings of its verification the second instance loads and saves. -/
def savedBetweenReadings : List (StoreEvent (Fin 2)) :=
  writtenWithError ++
    [.compareContent 0 (imageOf 11) .ok, .load 1 (imageOf 0) (blobOf 0) .written .ok .ok,
      .save 1 (imageOf 12) (blobOf 3) .ok .written .ok, .readContent 0 .ok, .readRevision 0 .ok]

theorem first_save_replaces_the_loaded_snapshot :
    ∃ snapshot, some firstSnapshot = some snapshot ∧
      lastKnown 1 (twoInstances.run (.start (some firstSnapshot)) bothLoad).2 =
        some snapshot.content := by
  have calm : twoInstances.StepsMeet (Calm (fun bytes => bytes) .sqlite3 some)
      (.start (some firstSnapshot)) bothLoad :=
    ⟨fun moved => absurd rfl moved, fun moved => absurd rfl moved, trivial⟩
  obtain ⟨snapshot, same, _, known⟩ := (no_update_lost (fun bytes => bytes) .sqlite3 some
    (fun _ _ same => same) (some firstSnapshot)).1 bothLoad
    (.save 1 (imageOf 12) (blobOf 3) .ok .written .ok) calm 1 (some firstSnapshot) (blobOf 12)
    (by decide)
  exact ⟨snapshot, same, known⟩

theorem commit_between_readings_overwritten :
    (¬ ∀ before event i replaced content,
      .saved i replaced content ∈
        (twoInstances.step (twoInstances.run (.start (some firstSnapshot)) before).1 event).2 →
      ∃ snapshot, replaced = some snapshot ∧
        lastKnown i (twoInstances.run (.start (some firstSnapshot)) before).2 =
          some snapshot.content) ∧
    ¬ ∀ (world : StoreWorld (Fin 2) (List UInt8)) i events,
      (world.instances i).expected = some .unknownAfterCommit →
      ∀ replaced content, .saved i replaced content ∉ (twoInstances.run world events).2 := by
  refine ⟨fun claimed => ?_, fun claimed => ?_⟩
  · obtain ⟨snapshot, same, known⟩ := claimed savedBetweenReadings
      (.save 0 (imageOf 13) (blobOf 4) .ok .written .ok) 0 (some ⟨blobOf 3, blobOf 12⟩) (blobOf 13)
      (by decide)
    obtain rfl := Option.some.inj same
    exact absurd known (by decide)
  · refine claimed (twoInstances.run (.start (some firstSnapshot)) writtenWithError).1 0
      [.compareContent 0 (imageOf 11) .ok, .readContent 0 .ok, .readRevision 0 .ok,
        .save 0 (imageOf 13) (blobOf 4) .ok .written .ok]
      (by decide) (some ⟨blobOf 2, blobOf 11⟩) (blobOf 13) (by decide)

end Schedules

end PortMate
