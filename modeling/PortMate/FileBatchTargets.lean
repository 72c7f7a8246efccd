import PortMate.FileBatchPaths

namespace PortMate

open List

section Steps

variable {destination : BatchDestination} {policy : TransferConflictPolicy}

/-- What a planned directory is at the destination. -/
structure DirectoryPlaced (destination : BatchDestination) (targets : List (List Char))
    (directory : List Char) : Prop where
  plain : PlainPath directory
  placed : (destination.kind (destination.target directory) = .ok .missing ∧
      destination.target directory ∈ targets) ∨
    destination.kind (destination.target directory) = .ok .directory

theorem prepareBatchDirectories_ok {directories targets : List (List Char)}
    (ok : prepareBatchDirectories destination directories = .ok targets) :
    (∀ directory ∈ directories, DirectoryPlaced destination targets directory) ∧
      ∀ target ∈ targets, ∃ directory ∈ directories, target = destination.target directory := by
  induction directories generalizing targets with
  | nil =>
    obtain rfl := Except.ok.inj ok
    exact ⟨nofun, nofun⟩
  | cons relative directories ih =>
    obtain ⟨_, valid, ok⟩ := except_bind_eq_ok ok
    obtain ⟨kind, found, ok⟩ := except_bind_eq_ok ok
    have plain := plainPath_of_valid valid
    split at ok
    · obtain ⟨others, rest, ok⟩ := except_bind_eq_ok ok
      obtain rfl := Except.ok.inj ok
      obtain ⟨placed, origins⟩ := ih rest
      refine ⟨forall_mem_cons.mpr ⟨⟨plain, .inl ⟨found, mem_cons_self⟩⟩, ?_⟩, ?_⟩
      · intro directory mem
        obtain ⟨plain, here | there⟩ := placed directory mem
        · exact ⟨plain, .inl ⟨here.1, mem_cons_of_mem _ here.2⟩⟩
        · exact ⟨plain, .inr there⟩
      · refine forall_mem_cons.mpr ⟨⟨relative, mem_cons_self, rfl⟩, ?_⟩
        intro target mem
        obtain ⟨directory, inside, same⟩ := origins target mem
        exact ⟨directory, mem_cons_of_mem _ inside, same⟩
    · obtain ⟨placed, origins⟩ := ih ok
      refine ⟨forall_mem_cons.mpr ⟨⟨plain, .inr found⟩, placed⟩, ?_⟩
      intro target mem
      obtain ⟨directory, inside, same⟩ := origins target mem
      exact ⟨directory, mem_cons_of_mem _ inside, same⟩
    · cases ok
    · cases ok

/-- A numbered path that is reserved, or where something is. -/
def NumberTaken (destination : BatchDestination) (reserved : List (List Char)) (relative : List Char)
    (suffix : Nat) : Prop :=
  ∃ numbered, numberedBatchRelativePath relative suffix = .ok numbered ∧
    (destination.target numbered ∈ reserved ∨
      ∃ kind, destination.kind (destination.target numbered) = .ok kind ∧ kind ≠ .missing)

/-- The first numbered path, from a number on, that is neither reserved nor there. -/
structure FirstFree (destination : BatchDestination) (reserved : List (List Char))
    (relative : List Char) (start suffix : Nat) (numbered : List Char) : Prop where
  le : start ≤ suffix
  named : numberedBatchRelativePath relative suffix = .ok numbered
  unreserved : destination.target numbered ∉ reserved
  missing : destination.kind (destination.target numbered) = .ok .missing
  taken : ∀ earlier, start ≤ earlier → earlier < suffix →
    NumberTaken destination reserved relative earlier

section Free

variable {reserved : List (List Char)} {relative numbered target : List Char} {suffix : Nat}
  {suffixes : List Nat}

theorem freeNumberedPath_free (named : numberedBatchRelativePath relative suffix = .ok numbered)
    (unreserved : destination.target numbered ∉ reserved)
    (missing : destination.kind (destination.target numbered) = .ok .missing) :
    freeNumberedPath destination reserved relative (suffix :: suffixes) =
      .ok (some (numbered, destination.target numbered)) := by
  rw [freeNumberedPath, named, except_bind_ok]
  dsimp only
  rw [if_neg (by rwa [contains_iff_mem]), missing, except_bind_ok, if_pos rfl]

theorem freeNumberedPath_taken (taken : NumberTaken destination reserved relative suffix) :
    freeNumberedPath destination reserved relative (suffix :: suffixes) =
      freeNumberedPath destination reserved relative suffixes := by
  obtain ⟨numbered, named, taken⟩ := taken
  rw [freeNumberedPath, named, except_bind_ok]
  dsimp only
  split
  next => rfl
  next unreserved =>
    rw [contains_iff_mem] at unreserved
    obtain ⟨kind, known, other⟩ := taken.resolve_left unreserved
    rw [known, except_bind_ok, if_neg other]

theorem freeNumberedPath_cons
    (free : freeNumberedPath destination reserved relative (suffix :: suffixes) =
      .ok (some (numbered, target))) :
    NumberTaken destination reserved relative suffix ∧
        freeNumberedPath destination reserved relative suffixes = .ok (some (numbered, target)) ∨
      numberedBatchRelativePath relative suffix = .ok numbered ∧
        target = destination.target numbered ∧ target ∉ reserved ∧
        destination.kind target = .ok .missing := by
  obtain ⟨candidate, named, free⟩ := except_bind_eq_ok free
  dsimp only at free
  split at free
  next taken => exact .inl ⟨⟨candidate, named, .inl (contains_iff_mem.mp taken)⟩, free⟩
  next unreserved =>
    rw [contains_iff_mem] at unreserved
    obtain ⟨kind, known, free⟩ := except_bind_eq_ok free
    split at free
    next missing =>
      obtain ⟨rfl, rfl⟩ := Prod.mk.inj (Option.some.inj (Except.ok.inj free))
      exact .inr ⟨named, rfl, unreserved, missing ▸ known⟩
    next other => exact .inl ⟨⟨candidate, named, .inr ⟨kind, known, other⟩⟩, free⟩

theorem freeNumberedPath_iff {start count : Nat} :
    freeNumberedPath destination reserved relative (List.range' start count) =
        .ok (some (numbered, target)) ↔
      target = destination.target numbered ∧
        ∃ suffix < start + count, FirstFree destination reserved relative start suffix numbered := by
  induction count generalizing start with
  | zero =>
    refine ⟨nofun, fun ⟨_, suffix, below, first⟩ => ?_⟩
    have := first.le
    omega
  | succ count ih =>
    rw [range'_succ]
    constructor
    · intro free
      rcases freeNumberedPath_cons free with ⟨taken, later⟩ | ⟨named, rfl, unreserved, missing⟩
      · obtain ⟨same, suffix, below, first⟩ := ih.mp later
        have le := first.le
        refine ⟨same, suffix, by omega, by omega, first.named, first.unreserved, first.missing, ?_⟩
        intro earlier from' lt
        obtain rfl | above := Nat.eq_or_lt_of_le from'
        · exact taken
        · exact first.taken earlier above lt
      · exact ⟨rfl, start, by omega, Nat.le_refl _, named, unreserved, missing, by omega⟩
    · rintro ⟨rfl, suffix, below, first⟩
      obtain rfl | above := Nat.eq_or_lt_of_le first.le
      · exact freeNumberedPath_free first.named first.unreserved first.missing
      · rw [freeNumberedPath_taken (first.taken start (Nat.le_refl _) above)]
        refine ih.mpr ⟨rfl, suffix, by omega, above, first.named, first.unreserved, first.missing, ?_⟩
        exact fun earlier from' lt => first.taken earlier (by omega) lt

end Free

theorem prepare_ok {state next : BatchState} {file : FileBatchPlanFile} {relative target : List Char}
    (ok : state.prepare file relative target = .ok next) :
    next.reserved = target :: state.reserved ∧ next.skipped = state.skipped ∧
      next.prepared = state.prepared ++ [{ source := file.source, relative, target }] := by
  unfold BatchState.prepare at ok
  split at ok
  · cases ok
  · obtain rfl := Except.ok.inj ok
    exact ⟨rfl, rfl, rfl⟩

/-- The line that tells of a file that is left out. -/
def skipMessage (destination : BatchDestination) (file : FileBatchPlanFile) : List Char :=
  file.source ++ " (destination exists: ".toList ++ destination.target file.relative ++ [')']

/-- A file cannot go to its own path: something is there, or goes there. -/
def InConflict (destination : BatchDestination) (state : BatchState) (file : FileBatchPlanFile) :
    Prop :=
  destination.kind (destination.target file.relative) ≠ .ok .missing ∨
    destination.target file.relative ∈ state.reserved

/-- What one step of the loop over the files does. -/
inductive FileStep (destination : BatchDestination) (policy : TransferConflictPolicy)
    (state : BatchState) (file : FileBatchPlanFile) (next : BatchState) : Prop
  | own (missing : destination.kind (destination.target file.relative) = .ok .missing)
      (unreserved : destination.target file.relative ∉ state.reserved)
      (ok : state.prepare file file.relative (destination.target file.relative) = .ok next)
  | skipped (skip : policy = .skip)
      (same : next = { state with skipped := state.skipped ++ [skipMessage destination file] })
  | overwritten (overwrite : policy = .overwrite)
      (kind : destination.kind (destination.target file.relative) = .ok .file ∨
        destination.kind (destination.target file.relative) = .ok .missing)
      (ok : state.prepare file file.relative (destination.target file.relative) = .ok next)
  | renamed {relative target : List Char} (rename : policy = .rename)
      (conflict : InConflict destination state file)
      (free : freeNumberedPath destination state.reserved file.relative renameSuffixes =
        .ok (some (relative, target)))
      (ok : state.prepare file relative target = .ok next)

theorem prepareBatchFile_ok {state next : BatchState} {file : FileBatchPlanFile}
    (ok : prepareBatchFile destination policy state file = .ok next) :
    PlainPath file.relative ∧ FileStep destination policy state file next := by
  obtain ⟨_, valid, ok⟩ := except_bind_eq_ok ok
  refine ⟨plainPath_of_valid valid, ?_⟩
  obtain ⟨kind, found, ok⟩ := except_bind_eq_ok ok
  split at ok
  next conflict =>
    rw [Bool.or_eq_true, decide_eq_true_eq, contains_iff_mem] at conflict
    have conflict : InConflict destination state file := by
      refine conflict.imp (fun other same => ?_) id
      exact other (Except.ok.inj (found.symm.trans same))
    split at ok
    · cases ok
    · exact .skipped rfl (Except.ok.inj ok).symm
    · split at ok
      next allowed =>
        refine .overwritten rfl (allowed.imp ?_ ?_) ok
        · rintro rfl
          exact found
        · rintro rfl
          exact found
      next => cases ok
    · obtain ⟨renamed, free, ok⟩ := except_bind_eq_ok ok
      split at ok
      · exact .renamed rfl conflict free ok
      · cases ok
  next free =>
    rw [Bool.or_eq_true, decide_eq_true_eq, contains_iff_mem, not_or, Decidable.not_not] at free
    exact .own (free.1 ▸ found) free.2 ok

end Steps

section Runs

variable {destination : BatchDestination} {policy : TransferConflictPolicy}

/-- A file goes under its own name or, where files are renamed, under a numbered one. -/
def OwnOrNumbered (policy : TransferConflictPolicy) (file : FileBatchPlanFile)
    (prepared : PreparedFile) : Prop :=
  prepared.source = file.source ∧ (prepared.relative = file.relative ∨
    policy = .rename ∧ ∃ suffix, numberedBatchRelativePath file.relative suffix = .ok prepared.relative)

/-- Nothing is at a file's target, or a file that it may overwrite. -/
def TargetFree (destination : BatchDestination) (policy : TransferConflictPolicy)
    (target : List Char) : Prop :=
  destination.kind target = .ok .missing ∨ policy = .overwrite ∧ destination.kind target = .ok .file

/-- Where a prepared file comes from and where it goes. -/
structure PreparedFrom (destination : BatchDestination) (policy : TransferConflictPolicy)
    (file : FileBatchPlanFile) (prepared : PreparedFile) : Prop where
  named : OwnOrNumbered policy file prepared
  plain : PlainPath prepared.relative
  target : prepared.target = destination.target prepared.relative
  free : TargetFree destination policy prepared.target

/-- The loop over the files after those of `passed`. -/
structure BatchInv (destination : BatchDestination) (policy : TransferConflictPolicy)
    (passed : List FileBatchPlanFile) (state : BatchState) : Prop where
  reserved : ∀ target, target ∈ state.reserved ↔ target ∈ state.prepared.map (·.target)
  apart : (state.prepared.map (·.target)).Nodup
  origin : ∀ prepared ∈ state.prepared, ∃ file ∈ passed, PreparedFrom destination policy file prepared
  accounted : ∀ file ∈ passed, (∃ prepared ∈ state.prepared, OwnOrNumbered policy file prepared) ∨
    skipMessage destination file ∈ state.skipped

variable {passed : List FileBatchPlanFile} {file : FileBatchPlanFile} {state next : BatchState}

theorem BatchInv.prepared {relative : List Char} (inv : BatchInv destination policy passed state)
    (ok : state.prepare file relative (destination.target relative) = .ok next)
    (unreserved : destination.target relative ∉ state.reserved)
    (comes : PreparedFrom destination policy file { source := file.source, relative, target := destination.target relative }) :
    BatchInv destination policy (passed ++ [file]) next := by
  obtain ⟨reserved, skipped, files⟩ := prepare_ok ok
  refine ⟨fun target => ?_, ?_, ?_, ?_⟩
  · rw [reserved, files, map_append, mem_append, mem_cons, inv.reserved target,
      map_singleton, mem_singleton, or_comm]
  · rw [files, map_append, map_singleton]
    refine nodup_append.mpr ⟨inv.apart, pairwise_singleton _ _, ?_⟩
    rintro target mem other single rfl
    obtain rfl := mem_singleton.mp single
    exact unreserved ((inv.reserved _).mpr mem)
  · intro prepared mem
    rw [files, mem_append, mem_singleton] at mem
    rcases mem with before | rfl
    · obtain ⟨other, inside, from'⟩ := inv.origin prepared before
      exact ⟨other, mem_append_left _ inside, from'⟩
    · exact ⟨file, by simp, comes⟩
  · intro other mem
    rw [mem_append, mem_singleton] at mem
    rw [files, skipped]
    rcases mem with before | rfl
    · refine (inv.accounted other before).imp_left fun ⟨prepared, inside, named⟩ => ?_
      exact ⟨prepared, mem_append_left _ inside, named⟩
    · exact .inl ⟨_, by simp, comes.named⟩

theorem BatchInv.own (inv : BatchInv destination policy passed state)
    (plain : PlainPath file.relative)
    (ok : state.prepare file file.relative (destination.target file.relative) = .ok next)
    (unreserved : destination.target file.relative ∉ state.reserved)
    (free : TargetFree destination policy (destination.target file.relative)) :
    BatchInv destination policy (passed ++ [file]) next :=
  inv.prepared ok unreserved ⟨⟨rfl, .inl rfl⟩, plain, rfl, free⟩

theorem BatchInv.unreserved {state : BatchState} (inv : BatchInv destination policy passed state)
    (kept : policy ≠ .rename) (plain : PlainPath file.relative)
    (new : file.relative ∉ passed.map (·.relative)) :
    destination.target file.relative ∉ state.reserved := by
  intro taken
  obtain ⟨prepared, mem, same⟩ := mem_map.mp ((inv.reserved _).mp taken)
  obtain ⟨other, inside, comes⟩ := inv.origin prepared mem
  rw [comes.target] at same
  have path := target_inj destination comes.plain plain same
  rcases comes.named.2 with own | ⟨rename, -⟩
  · exact new (mem_map.mpr ⟨other, inside, own.symm.trans path⟩)
  · exact kept rename

theorem BatchInv.step (inv : BatchInv destination policy passed state)
    (new : file.relative ∉ passed.map (·.relative))
    (ok : prepareBatchFile destination policy state file = .ok next) :
    BatchInv destination policy (passed ++ [file]) next := by
  obtain ⟨plain, did⟩ := prepareBatchFile_ok ok
  cases did with
  | own missing unreserved ok => exact inv.own plain ok unreserved (.inl missing)
  | skipped skip same =>
    subst same
    refine ⟨inv.reserved, inv.apart, fun prepared mem => ?_, fun other mem => ?_⟩
    · obtain ⟨other, inside, comes⟩ := inv.origin prepared mem
      exact ⟨other, mem_append_left _ inside, comes⟩
    · rw [mem_append, mem_singleton] at mem
      rcases mem with before | rfl
      · exact (inv.accounted other before).imp_right (mem_append_left _)
      · exact .inr (by simp)
  | overwritten overwrite kind ok =>
    refine inv.own plain ok (inv.unreserved (by rw [overwrite]; decide) plain new) ?_
    exact kind.symm.imp_right fun file => ⟨overwrite, file⟩
  | renamed rename conflict free ok =>
    obtain ⟨rfl, suffix, -, first⟩ := freeNumberedPath_iff.mp free
    exact inv.prepared ok first.unreserved ⟨⟨rfl, .inr ⟨rename, suffix, first.named⟩⟩,
      plainPath_numbered first.named, rfl, .inl first.missing⟩

/-- Where the loop stands after some of the files. -/
def batchStateAfter (destination : BatchDestination) (policy : TransferConflictPolicy)
    (skipped : List (List Char)) (passed : List FileBatchPlanFile) : Except String BatchState :=
  passed.foldlM (prepareBatchFile destination policy)
    { reserved := [], prepared := [], skipped, totalBytes := 0 }

theorem batchStateAfter_append {skipped : List (List Char)} {passed later : List FileBatchPlanFile}
    {state : BatchState}
    (ok : batchStateAfter destination policy skipped (passed ++ later) = .ok state) :
    ∃ between, batchStateAfter destination policy skipped passed = .ok between ∧
      later.foldlM (prepareBatchFile destination policy) between = .ok state := by
  rw [batchStateAfter, foldlM_append] at ok
  exact except_bind_eq_ok ok

theorem batchInv_after {skipped : List (List Char)} {state : BatchState}
    (apart : (passed.map (·.relative)).Nodup)
    (ok : batchStateAfter destination policy skipped passed = .ok state) :
    BatchInv destination policy passed state := by
  induction passed using List.reverseRecOn generalizing state with
  | nil =>
    obtain rfl := Except.ok.inj ok
    exact ⟨fun _ => Iff.rfl, nodup_nil, nofun, nofun⟩
  | append_singleton passed file ih =>
    obtain ⟨between, before, last⟩ := batchStateAfter_append ok
    rw [map_append, nodup_append] at apart
    obtain ⟨next, step, done⟩ := except_bind_eq_ok last
    obtain rfl := Except.ok.inj done
    refine (ih apart.1 before).step (fun mem => ?_) step
    exact apart.2.2 _ mem _ (by simp) rfl

theorem prepared_kept {later : List FileBatchPlanFile} {state final : BatchState}
    (ok : later.foldlM (prepareBatchFile destination policy) state = .ok final)
    {prepared : PreparedFile} (mem : prepared ∈ state.prepared) : prepared ∈ final.prepared := by
  induction later generalizing state with
  | nil =>
    obtain rfl := Except.ok.inj ok
    exact mem
  | cons file later ih =>
    obtain ⟨next, step, ok⟩ := except_bind_eq_ok ok
    refine ih ok ?_
    have grown : ∀ {relative target}, state.prepare file relative target = .ok next →
        prepared ∈ next.prepared := fun ok => by
      rw [(prepare_ok ok).2.2]
      exact mem_append_left _ mem
    cases (prepareBatchFile_ok step).2 with
    | own missing unreserved ok => exact grown ok
    | skipped skip same =>
      subst same
      exact mem
    | overwritten overwrite kind ok => exact grown ok
    | renamed rename conflict free ok => exact grown ok

end Runs

section Targets

/-- A plan of files and directories of trees: the directories above a file are planned too. -/
def OfTree (plan : FileBatchPlan) : Prop :=
  ∀ file ∈ plan.files, ∀ above, above ++ ['/'] <+: file.relative → above ∈ plan.directories

theorem conflictingFile_none {directories seen : List (List Char)} {files : List FileBatchPlanFile}
    (none : conflictingFile directories seen files = none) :
    (files.map (·.relative)).Nodup ∧
      ∀ file ∈ files, file.relative ∉ directories ∧ file.relative ∉ seen := by
  induction files generalizing seen with
  | nil => exact ⟨nodup_nil, nofun⟩
  | cons file files ih =>
    rw [conflictingFile] at none
    split at none
    next => cases none
    next new =>
      rw [Bool.or_eq_true, contains_iff_mem, contains_iff_mem, not_or] at new
      obtain ⟨apart, free⟩ := ih none
      refine ⟨nodup_cons.mpr ⟨fun mem => ?_, apart⟩, forall_mem_cons.mpr ⟨new, ?_⟩⟩
      · obtain ⟨other, inside, same⟩ := mem_map.mp mem
        exact (free other inside).2 (same ▸ mem_cons_self)
      · exact fun other mem => (free other mem).imp_right fun unseen inside =>
          unseen (mem_cons_of_mem _ inside)

structure PlanChecked (plan : FileBatchPlan) : Prop where
  apart : (plan.files.map (·.relative)).Nodup
  files : ∀ file ∈ plan.files, file.relative ∉ plan.directories
  tree : OfTree plan

theorem validateFileBatchPlan_ok {given plan : FileBatchPlan}
    (valid : validateFileBatchPlan given = .ok plan) (tree : OfTree given) : PlanChecked plan := by
  unfold validateFileBatchPlan at valid
  dsimp only at valid
  split at valid
  · cases valid
  · split at valid
    next => cases valid
    next none =>
      obtain rfl := Except.ok.inj valid
      obtain ⟨apart, free⟩ := conflictingFile_none none
      refine ⟨apart, fun file mem => (free file mem).1, fun file mem above inside => ?_⟩
      exact mem_mergeSort.mpr (tree file (mem_mergeSort.mp mem) above inside)

theorem mem_dedupNeighbours {text : List Char} {texts : List (List Char)} :
    text ∈ dedupNeighbours texts ↔ text ∈ texts := by
  fun_induction dedupNeighbours texts with
  | case1 first rest ih => rw [ih, mem_cons (b := first), mem_cons (b := first)]; simp
  | case2 first second rest other ih => rw [mem_cons, ih, ← mem_cons]
  | case3 => rfl

/-- The targets of a batch keep apart, and every file of the plan is accounted for. -/
structure TargetsApart (destination : BatchDestination) (policy : TransferConflictPolicy)
    (plan : FileBatchPlan) (batch : PreparedBatch) : Prop where
  distinct : (batch.files.map (·.target)).Nodup
  free : ∀ prepared ∈ batch.files, TargetFree destination policy prepared.target
  directories : ∀ prepared ∈ batch.files, prepared.target ∉ batch.directoryTargets
  above : ∀ prepared ∈ batch.files, ∀ other ∈ batch.files,
    ¬ prepared.target ++ ['/'] <+: other.target
  accounted : ∀ file ∈ plan.files, (∃ prepared ∈ batch.files, OwnOrNumbered policy file prepared) ∨
    skipMessage destination file ∈ batch.skipped

/-- No file is renamed to the path of a planned directory. -/
def RenamesClear (destination : BatchDestination) (policy : TransferConflictPolicy)
    (plan : FileBatchPlan) : Prop :=
  policy = .rename → ∀ passed file later state, plan.files = passed ++ file :: later →
    batchStateAfter destination policy plan.skipped passed = .ok state →
    InConflict destination state file →
    ∀ suffix ≤ 10000, ∀ numbered,
      FirstFree destination state.reserved file.relative 1 suffix numbered →
      numbered ∉ plan.directories

variable {destination : BatchDestination} {policy : TransferConflictPolicy} {plan : FileBatchPlan}
  {batch : PreparedBatch}

theorem prepareFileBatch_ok (ok : prepareFileBatch destination policy plan = .ok batch) :
    ∃ targets state, prepareBatchDirectories destination plan.directories = .ok targets ∧
      batchStateAfter destination policy plan.skipped plan.files = .ok state ∧
      batch.files = state.prepared ∧ (∀ target, target ∈ batch.directoryTargets ↔ target ∈ targets) ∧
      ∀ line, line ∈ batch.skipped ↔ line ∈ state.skipped := by
  obtain ⟨_, -, ok⟩ := except_bind_eq_ok ok
  obtain ⟨targets, directories, ok⟩ := except_bind_eq_ok ok
  obtain ⟨state, after, ok⟩ := except_bind_eq_ok ok
  obtain rfl := Except.ok.inj ok
  refine ⟨targets, state, directories, after, rfl, fun target => mem_mergeSort, fun line => ?_⟩
  rw [mem_dedupNeighbours, sortTexts, mem_mergeSort]

theorem relative_clear (checked : PlanChecked plan) (clear : RenamesClear destination policy plan)
    {passed later : List FileBatchPlanFile} {state : BatchState}
    (whole : plan.files = passed ++ later)
    (ok : batchStateAfter destination policy plan.skipped passed = .ok state) :
    ∀ prepared ∈ state.prepared, prepared.relative ∉ plan.directories := by
  induction passed using List.reverseRecOn generalizing later state with
  | nil =>
    obtain rfl := Except.ok.inj ok
    exact nofun
  | append_singleton passed file ih =>
    obtain ⟨between, before, last⟩ := batchStateAfter_append ok
    obtain ⟨next, step, done⟩ := except_bind_eq_ok last
    obtain rfl := Except.ok.inj done
    rw [append_assoc, singleton_append] at whole
    have own : file.relative ∉ plan.directories := checked.files file (by rw [whole]; simp)
    have earlier := ih whole before
    have grown : ∀ {relative target}, relative ∉ plan.directories →
        between.prepare file relative target = .ok next →
        ∀ prepared ∈ next.prepared, prepared.relative ∉ plan.directories := by
      intro relative target outside ok prepared mem
      rw [(prepare_ok ok).2.2, mem_append, mem_singleton] at mem
      rcases mem with old | rfl
      · exact earlier prepared old
      · exact outside
    cases (prepareBatchFile_ok step).2 with
    | own missing unreserved ok => exact grown own ok
    | skipped skip same =>
      subst same
      exact earlier
    | overwritten overwrite kind ok => exact grown own ok
    | renamed rename conflict free ok =>
      obtain ⟨-, suffix, below, first⟩ := freeNumberedPath_iff.mp free
      exact grown (clear rename passed file later between whole before conflict suffix (by omega) _
        first) ok

theorem renamed_prepared {passed later : List FileBatchPlanFile} {file : FileBatchPlanFile}
    {state final : BatchState} {suffix : Nat} {numbered : List Char}
    (before : batchStateAfter destination .rename plan.skipped passed = .ok state)
    (ok : batchStateAfter destination .rename plan.skipped (passed ++ file :: later) = .ok final)
    (conflict : InConflict destination state file) (below : suffix ≤ 10000)
    (first : FirstFree destination state.reserved file.relative 1 suffix numbered) :
    { source := file.source, relative := numbered, target := destination.target numbered }
      ∈ final.prepared := by
  obtain ⟨between, before', after⟩ := batchStateAfter_append ok
  obtain rfl := Except.ok.inj (before.symm.trans before')
  obtain ⟨next, step, after⟩ := except_bind_eq_ok after
  refine prepared_kept after ?_
  cases (prepareBatchFile_ok step).2 with
  | own missing unreserved ok => exact absurd conflict (not_or.mpr ⟨not_not.mpr missing, unreserved⟩)
  | skipped skip same => cases skip
  | overwritten overwrite kind ok => cases overwrite
  | renamed rename conflict free ok =>
    have found : freeNumberedPath destination state.reserved file.relative renameSuffixes =
        .ok (some (numbered, destination.target numbered)) :=
      freeNumberedPath_iff.mpr ⟨rfl, suffix, by omega, first⟩
    obtain ⟨rfl, rfl⟩ := Prod.mk.inj (Option.some.inj (Except.ok.inj (free.symm.trans found)))
    rw [(prepare_ok ok).2.2]
    simp

theorem targetsApart_iff {given : FileBatchPlan} (valid : validateFileBatchPlan given = .ok plan)
    (tree : OfTree given) (ok : prepareFileBatch destination policy plan = .ok batch) :
    TargetsApart destination policy plan batch ↔ RenamesClear destination policy plan := by
  have checked := validateFileBatchPlan_ok valid tree
  obtain ⟨targets, state, directories, after, files, created, skipped⟩ := prepareFileBatch_ok ok
  obtain ⟨placed, origins⟩ := prepareBatchDirectories_ok directories
  have inv := batchInv_after checked.apart after
  constructor
  · rintro apart rfl passed file later between whole before conflict suffix below numbered first planned
    rw [whole] at after
    have mem := renamed_prepared before after conflict below first
    refine apart.directories _ (files ▸ mem) ((created _).mpr ?_)
    rcases (placed numbered planned).placed with ⟨-, mem⟩ | there
    · exact mem
    · exact absurd (first.missing.symm.trans there) (by simp)
  · intro clear
    have outside := relative_clear checked clear (append_nil _).symm after
    refine ⟨files ▸ inv.apart, fun prepared mem => ?_, fun prepared mem => ?_, ?_, ?_⟩
    · obtain ⟨file, -, comes⟩ := inv.origin prepared (files ▸ mem)
      exact comes.free
    · intro made
      obtain ⟨file, -, comes⟩ := inv.origin prepared (files ▸ mem)
      obtain ⟨directory, planned, same⟩ := origins _ ((created _).mp made)
      rw [comes.target] at same
      have path := target_inj destination comes.plain (placed directory planned).plain same
      exact outside prepared (files ▸ mem) (path ▸ planned)
    · intro prepared mem other mem' inside
      obtain ⟨file, -, comes⟩ := inv.origin prepared (files ▸ mem)
      obtain ⟨file', planned, comes'⟩ := inv.origin other (files ▸ mem')
      rw [comes.target, comes'.target, target_eq destination comes.plain,
        target_eq destination comes'.plain, append_assoc, prefix_append_right_inj] at inside
      have inside : prepared.relative ++ ['/'] <+: file'.relative := by
        rcases comes'.named.2 with own | ⟨-, suffix, numbered⟩
        · exact own ▸ inside
        · exact ancestor_of_numbered numbered inside
      exact outside prepared (files ▸ mem) (checked.tree file' planned _ inside)
    · intro file mem
      rw [files]
      exact (inv.accounted file mem).imp_right (skipped _).mpr

theorem ofTree_of_flat {plan : FileBatchPlan} (flat : ∀ file ∈ plan.files, '/' ∉ file.relative) :
    OfTree plan := by
  intro file mem above inside
  exact absurd (inside.subset (mem_append_right above mem_cons_self)) (flat file mem)

/-- A remote directory that holds a file `log`. -/
def logDestination : BatchDestination where
  directory := "/d".toList
  remote := true
  kind path := .ok (if path = "/d/log".toList then .file else .missing)

def logPlan : FileBatchPlan where
  directories := ["logs".toList]
  files := [{ source := "/s/log".toList, relative := "log".toList, size := 1 }]
  skipped := []

def renamedLog : PreparedFile where
  source := "/s/log".toList
  relative := "log (1)".toList
  target := "/d/log (1)".toList

/-- The numbered names of `log` are not `logs`. -/
theorem logs_renames_clear : RenamesClear logDestination .rename logPlan := by
  rintro - passed file later state whole - - suffix - numbered first mem
  obtain rfl : file = ⟨"/s/log".toList, "log".toList, 1⟩ :=
    mem_singleton.mp (whole ▸ mem_append_right passed mem_cons_self : file ∈ logPlan.files)
  obtain rfl := mem_singleton.mp mem
  have named : Except.ok ("log (".toList ++ Nat.toDigits 10 suffix ++ [')']) =
    (.ok "logs".toList : Except String _) := first.named
  simp at named

theorem log_targets_apart :
    TargetsApart logDestination .rename logPlan
        { files := [renamedLog], directoryTargets := ["/d/logs".toList], skipped := [],
          totalBytes := 1 } :=
  (@targetsApart_iff _ _ _ _ logPlan (by decide +kernel) (ofTree_of_flat (by decide))
    (by decide +kernel)).mpr logs_renames_clear

/-- A plan of a file `log` and of a directory that has its first numbered name. -/
def numberedDirectoryPlan : FileBatchPlan where
  directories := ["log (1)".toList]
  files := [{ source := "/s/log".toList, relative := "log".toList, size := 1 }]
  skipped := []

theorem renamed_onto_directory :
    validateFileBatchPlan numberedDirectoryPlan = .ok numberedDirectoryPlan ∧
      OfTree numberedDirectoryPlan ∧
      ∃ batch, prepareFileBatch logDestination .rename numberedDirectoryPlan = .ok batch ∧
        ¬ TargetsApart logDestination .rename numberedDirectoryPlan batch := by
  refine ⟨by decide +kernel, ofTree_of_flat (by decide), ⟨[renamedLog], ["/d/log (1)".toList], [], 1⟩,
    by decide +kernel, fun apart => ?_⟩
  exact apart.directories _ mem_cons_self mem_cons_self

end Targets

end PortMate
