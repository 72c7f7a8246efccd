import PortMate.ResumedTransfers

namespace PortMate

open List Function ReadHandle

section Files

theorem localTransferEntry_some {files : Files} {path : FilePlace} {label : String}
    {content : List UInt8} (entry : localTransferEntry files path label = .ok (some content)) :
    files path = some (.file content 1) := by
  unfold localTransferEntry at entry
  split at entry
  next => cases entry
  next => cases entry
  next => cases entry
  next found =>
    split at entry
    next => cases entry
    next single =>
      rw [found, Option.some.inj (Except.ok.inj entry), not_not.mp single]

theorem localTransferEntry_none {files : Files} {path : FilePlace} {label : String}
    (entry : localTransferEntry files path label = .ok none) : files path = none := by
  unfold localTransferEntry at entry
  split at entry
  next found => exact found
  next => cases entry
  next => cases entry
  next => split at entry <;> cases entry

theorem localResumePartPath_ne (target : FilePlace) : target ≠ localResumePartPath target := by
  intro same
  have length := congrArg (fun path => path.name.toList.length) same
  have longer : (target.name ++ ".portmate-part").toList.length = target.name.toList.length + 14 := by
    rw [String.toList_append, length_append]
    rfl
  change target.name.toList.length = (target.name ++ ".portmate-part").toList.length at length
  omega

theorem appendFile_other {files : Files} {path other : FilePlace} (bytes : List UInt8)
    (different : other ≠ path) : appendFile files path bytes other = files other := by
  unfold appendFile
  cases files path with
  | none => rfl
  | some node =>
    cases node with
    | file content links => exact update_of_ne different _ _
    | symbolicLink => rfl
    | other => rfl

theorem appendFile_self {files : Files} {path : FilePlace} {content : List UInt8} {links : Nat}
    (found : files path = some (.file content links)) (bytes : List UInt8) :
    appendFile files path bytes path = some (.file (content ++ bytes) links) := by
  unfold appendFile
  rw [found]
  exact update_self _ _ _

theorem localResumeOffset_ok {files after : Files} {part : FilePlace} {total : Nat}
    {content : List UInt8} (ok : localResumeOffset files part total = .ok (after, content)) :
    (∀ path, path ≠ part → after path = files path) ∧
      (content ≠ [] → after part = some (.file content 1)) := by
  unfold localResumeOffset at ok
  split at ok
  next => cases ok
  next =>
    obtain ⟨rfl, rfl⟩ := Prod.mk.inj (Except.ok.inj ok)
    exact ⟨fun _ _ => rfl, fun some => absurd rfl some⟩
  next found entry =>
    split at ok
    · obtain ⟨rfl, rfl⟩ := Prod.mk.inj (Except.ok.inj ok)
      exact ⟨fun _ _ => rfl, fun _ => localTransferEntry_some entry⟩
    · obtain ⟨rfl, rfl⟩ := Prod.mk.inj (Except.ok.inj ok)
      exact ⟨fun path other => update_of_ne other _ _, fun some => absurd rfl some⟩

theorem openLocalResumeWriter_ok {files after : Files} {part : FilePlace} {content : List UInt8}
    (kept : content ≠ [] → files part = some (.file content 1))
    (ok : openLocalResumeWriter files part content.length = .ok after) :
    (∀ path, path ≠ part → after path = files path) ∧ after part = some (.file content 1) := by
  unfold openLocalResumeWriter at ok
  split at ok
  next => cases ok
  next existing entry =>
    split at ok
    next anew =>
      have empty : content = [] := by
        by_contra some
        rcases anew with zero | missing
        · exact some (length_eq_zero_iff.mp zero)
        · rw [missing] at entry
          rw [localTransferEntry_none entry] at kept
          cases kept some
      rw [← Except.ok.inj ok, empty]
      exact ⟨fun path other => update_of_ne other _ _, update_self _ _ _⟩
    next resumed =>
      rw [← Except.ok.inj ok]
      refine ⟨fun _ _ => rfl, kept fun empty => resumed (Or.inl ?_)⟩
      rw [empty]
      rfl

theorem finalizeLocalResumeFile_ok {files after : Files} {temp target : FilePlace}
    (apart : target ≠ temp) (ok : finalizeLocalResumeFile files temp target = .ok after) :
    after target = files temp ∧ after temp = none ∧
      ∀ path, path ≠ temp → path ≠ target → after path = files path := by
  unfold finalizeLocalResumeFile at ok
  split at ok
  · cases ok
  · cases ok
  · split at ok
    · cases ok
    · rw [← Except.ok.inj ok]
      unfold removeFile
      refine ⟨?_, update_self _ _ _, fun path other another => ?_⟩
      · rw [update_of_ne apart, update_self]
      · rw [update_of_ne other, update_of_ne another]

end Files

section Reading

theorem readExact_some {handle after : ReadHandle} {count : Nat} {bytes : List UInt8}
    (read : handle.readExact count = some (bytes, after)) :
    bytes = (handle.content.drop handle.position).take count ∧ bytes.length = count ∧
      after = handle.advance count := by
  unfold readExact at read
  split at read
  next whole =>
    obtain ⟨rfl, rfl⟩ := Prod.mk.inj (Option.some.inj read)
    exact ⟨rfl, whole, rfl⟩
  next => cases read

theorem take_append_drop_take {α : Type} (content : List α) (position count : Nat) :
    content.take position ++ (content.drop position).take count = content.take (position + count) :=
  take_add.symm

theorem readCapacity_pos (engine : CopyEngine) (copied total : Nat) :
    0 < engine.readCapacity copied total := by
  cases engine with
  | localCopy =>
    change 0 < 64 * 1024
    decide
  | sftpDownload =>
    change 0 < min (256 * 1024) (max (total - copied) 1)
    omega

theorem chunk_nil {engine : CopyEngine} {input : ReadHandle} {copied total count : Nat}
    (nothing : (engine.chunk input copied total count).length = 0) :
    input.content.length ≤ input.position := by
  unfold CopyEngine.chunk ReadHandle.next at nothing
  rw [length_take, length_drop] at nothing
  have capacity := readCapacity_pos engine copied total
  omega

end Reading

section Attempts

variable (source target : FilePlace) (content : List UInt8)

/-- What a phase knows of the source and of the part. -/
def PhaseFits (files : Files) : CopyPhase → Prop
  | .opening => True
  | .sizing input _ => input = ⟨content, 0⟩
  | .comparing input part compared offset _ =>
    input = ⟨content, compared⟩ ∧ compared ≤ offset ∧ ∃ resumed,
      files (localResumePartPath target) = some (.file resumed 1) ∧ part = ⟨resumed, compared⟩ ∧
      resumed.length = offset ∧ resumed.take compared = content.take compared
  | .creating input offset _ =>
    input = ⟨content, offset⟩ ∧ offset ≤ content.length ∧ (offset ≠ 0 →
      files (localResumePartPath target) = some (.file (content.take offset) 1))
  | .copying input copied _ =>
    input = ⟨content, copied⟩ ∧ copied ≤ content.length ∧
      files (localResumePartPath target) = some (.file (content.take copied) 1)
  | .finishing copied =>
    copied = content.length ∧ files (localResumePartPath target) = some (.file content 1)
  | .done _ => True

/-- The files of a run that is under way or that failed, and those of one that succeeded. -/
def RunFits (before : Files) (state : Files × CopyPhase) : Prop :=
  match state with
  | (files, .done (.ok copied)) =>
    copied = content.length ∧ files target = some (.file content 1) ∧
      ∀ path, path ≠ localResumePartPath target → path ≠ target → files path = before path
  | (files, phase) =>
    (∀ path, path ≠ localResumePartPath target → files path = before path) ∧
      PhaseFits target content files phase

variable {source target content} {engine : CopyEngine} {before files : Files} {links : Nat}

theorem openSource_ok {input : ReadHandle} {declared total : Nat}
    (stored : files source = some (.file content links))
    (opened : engine.openSource files source declared = .ok (input, total)) :
    input = ⟨content, 0⟩ := by
  unfold CopyEngine.openSource at opened
  cases engine with
  | localCopy =>
    dsimp only at opened
    split at opened
    next => cases opened
    next => cases opened
    next found entry =>
      cases (localTransferEntry_some entry).symm.trans stored
      exact (Prod.mk.inj (Except.ok.inj opened)).1.symm
  | sftpDownload =>
    dsimp only at opened
    unfold sftpRegularFile at opened
    rw [stored] at opened
    exact (Prod.mk.inj (Except.ok.inj opened)).1.symm

theorem compare_chunk {resumed left right : List UInt8} {input part : ReadHandle}
    {compared take : Nat} (same : resumed.take compared = content.take compared)
    (leftRead : readExact ⟨content, compared⟩ take = some (left, input))
    (rightRead : readExact ⟨resumed, compared⟩ take = some (right, part))
    (equal : left = right) :
    resumed.take (compared + take) = content.take (compared + take) := by
  obtain ⟨leftBytes, -, -⟩ := readExact_some leftRead
  obtain ⟨rightBytes, -, -⟩ := readExact_some rightRead
  rw [← take_append_drop_take, ← take_append_drop_take content, same]
  exact congrArg _ (rightBytes.symm.trans (equal.symm.trans leftBytes))

theorem copyBreaks_other {phase : CopyPhase} {count written : Nat} {path : FilePlace}
    (other : path ≠ localResumePartPath target) :
    copyBreaks engine target files count written phase path = files path := by
  unfold copyBreaks
  split
  · split
    · rfl
    · exact update_of_ne other _ _
  · exact appendFile_other _ other
  · rfl

theorem runFits_failed {error : String}
    (kept : ∀ path, path ≠ localResumePartPath target → files path = before path) :
    RunFits target content before (files, .done (.error error)) := ⟨kept, trivial⟩

section Passes

variable (engine source) (kept : ∀ path, path ≠ localResumePartPath target → files path = before path)
include kept

theorem opening_passes (stored : before source = some (.file content links))
    (apart : source ≠ localResumePartPath target) (count : Nat) :
    RunFits target content before (copyPasses engine source target files count .opening) := by
  unfold copyPasses
  dsimp only
  split
  next => exact runFits_failed kept
  next input total opened =>
    exact ⟨kept, openSource_ok ((kept source apart).trans stored) opened⟩

variable (count total : Nat)

theorem sizing_passes :
    RunFits target content before
      (copyPasses engine source target files count (.sizing ⟨content, 0⟩ total)) := by
  unfold copyPasses
  dsimp only
  split
  next => exact runFits_failed kept
  next after part sized =>
    obtain ⟨elsewhere, whole⟩ := localResumeOffset_ok sized
    have still : ∀ path, path ≠ localResumePartPath target → after path = before path :=
      fun path other => (elsewhere path other).trans (kept path other)
    split
    next => exact ⟨still, rfl, Nat.zero_le _, fun some => absurd rfl some⟩
    next some =>
      have filled : part ≠ [] := fun empty => some (length_eq_zero_iff.mpr empty)
      exact ⟨still, rfl, Nat.zero_le _, part, whole filled, rfl, rfl, rfl⟩

theorem comparing_passes {input part : ReadHandle} {compared offset : Nat}
    (fits : PhaseFits target content files (.comparing input part compared offset total)) :
    RunFits target content before
      (copyPasses engine source target files count (.comparing input part compared offset total)) := by
  obtain ⟨rfl, bound, resumed, stored, rfl, rfl, same⟩ := fits
  unfold copyPasses
  dsimp only
  have restart : RunFits target content before (files, .creating ⟨content, 0⟩ 0 total) :=
    ⟨kept, rfl, Nat.zero_le _, fun some => absurd rfl some⟩
  split
  next more =>
    split
    next left input right part leftRead rightRead =>
      split
      next equal =>
        obtain ⟨-, -, rfl⟩ := readExact_some leftRead
        obtain ⟨-, -, rfl⟩ := readExact_some rightRead
        exact ⟨kept, rfl, by omega, resumed, stored, rfl, rfl,
          compare_chunk same leftRead rightRead equal⟩
      next =>
        obtain ⟨-, -, rfl⟩ := readExact_some leftRead
        exact restart
    next => exact restart
  next finished =>
    have all : compared = resumed.length := by omega
    rw [all, take_length] at same
    have short : resumed.length ≤ content.length := by
      have length := congrArg List.length same
      rw [length_take] at length
      omega
    exact ⟨kept, rfl, short, fun _ => same ▸ stored⟩

theorem creating_passes {input : ReadHandle} {offset : Nat}
    (fits : PhaseFits target content files (.creating input offset total)) :
    RunFits target content before
      (copyPasses engine source target files count (.creating input offset total)) := by
  obtain ⟨rfl, bound, whole⟩ := fits
  unfold copyPasses
  dsimp only
  split
  next => exact runFits_failed kept
  next after opened =>
    have length : offset = (content.take offset).length := by
      rw [length_take]
      omega
    have resumes : content.take offset ≠ [] →
        files (localResumePartPath target) = some (.file (content.take offset) 1) := by
      refine fun some => whole fun zero => some ?_
      rw [zero]
      rfl
    rw [length] at opened
    obtain ⟨elsewhere, part⟩ := openLocalResumeWriter_ok resumes opened
    exact ⟨fun path other => (elsewhere path other).trans (kept path other), rfl, bound, part⟩

theorem copying_passes {input : ReadHandle} {copied : Nat}
    (fits : PhaseFits target content files (.copying input copied total)) :
    RunFits target content before
      (copyPasses engine source target files count (.copying input copied total)) := by
  obtain ⟨rfl, bound, part⟩ := fits
  have elsewhere : ∀ path, path ≠ localResumePartPath target →
      appendFile files (localResumePartPath target)
        (engine.chunk ⟨content, copied⟩ copied total count) path = before path :=
    fun path other => (appendFile_other _ other).trans (kept path other)
  unfold copyPasses
  dsimp only
  split
  next nothing =>
    have finished : content.length ≤ copied := chunk_nil nothing
    have all : copied = content.length := by omega
    split
    · rw [all, take_length] at part
      exact ⟨kept, all, part⟩
    · exact runFits_failed kept
  next =>
    split
    · -- The chunk is what follows in the source, and as long as the cursor moves.
      generalize chunk : engine.chunk ⟨content, copied⟩ copied total count = bytes at elsewhere ⊢
      have given : bytes = (content.drop copied).take bytes.length := by
        rw [← chunk]
        exact prefix_iff_eq_take.mp (List.take_prefix _ _)
      have within : copied + bytes.length ≤ content.length := by
        have length := congrArg List.length given
        rw [length_take, length_drop] at length
        omega
      refine ⟨elsewhere, rfl, within, ?_⟩
      rw [appendFile_self part, ← take_append_drop_take, ← given]
    · exact runFits_failed elsewhere

theorem finishing_passes {copied : Nat} (count : Nat)
    (fits : PhaseFits target content files (.finishing copied)) :
    RunFits target content before
      (copyPasses engine source target files count (.finishing copied)) := by
  obtain ⟨all, part⟩ := fits
  unfold copyPasses
  dsimp only
  split
  next => exact runFits_failed kept
  next after finalized =>
    obtain ⟨replaced, -, others⟩ :=
      finalizeLocalResumeFile_ok (localResumePartPath_ne target) finalized
    exact ⟨all, replaced.trans part, fun path other another =>
      (others path other another).trans (kept path other)⟩

end Passes

theorem runFits_step (stored : before source = some (.file content links))
    (apart : source ≠ localResumePartPath target) (state : Files × CopyPhase) (event : CopyEvent)
    (fits : RunFits target content before state) :
    RunFits target content before (copyStep engine source target state event) := by
  obtain ⟨files, phase⟩ := state
  cases event with
  | passes count =>
    cases phase with
    | opening => exact opening_passes source engine fits.1 stored apart count
    | sizing input total =>
      obtain ⟨kept, rfl⟩ := fits
      exact sizing_passes source engine kept count total
    | comparing input part compared offset total =>
      exact comparing_passes source engine fits.1 count total fits.2
    | creating input offset total => exact creating_passes source engine fits.1 count total fits.2
    | copying input copied total => exact copying_passes source engine fits.1 count total fits.2
    | finishing copied => exact finishing_passes source engine fits.1 count fits.2
    | done result => exact fits
  | breaks count written error =>
    cases phase with
    | done result => exact fits
    | _ =>
      exact runFits_failed fun path other => (copyBreaks_other other).trans (fits.1 path other)

theorem run_fits (stored : files source = some (.file content links))
    (apart : source ≠ localResumePartPath target) (attempt : CopyAttempt) :
    RunFits target content files (attempt.run source target files) :=
  @Transducer.run_preserves _ _ _ (copyMachine attempt.engine source target)
    (RunFits target content files) (runFits_step stored apart) (files, .opening)
    ⟨fun _ _ => rfl, trivial⟩ attempt.events

theorem copyPasses_succeeds {phase : CopyPhase} {after : Files} {count copied : Nat}
    (succeeded : copyPasses engine source target files count phase = (after, .done (.ok copied))) :
    (phase = .done (.ok copied) ∧ after = files) ∨
      finalizeLocalResumeFile files (localResumePartPath target) target = .ok after := by
  unfold copyPasses at succeeded
  cases phase with
  | opening =>
    dsimp only at succeeded
    split at succeeded <;> cases succeeded
  | sizing input total =>
    dsimp only at succeeded
    split at succeeded
    · cases succeeded
    · split at succeeded <;> cases succeeded
  | comparing input part compared offset total =>
    dsimp only at succeeded
    split at succeeded
    · split at succeeded
      · split at succeeded <;> cases succeeded
      · cases succeeded
    · cases succeeded
  | creating input offset total =>
    dsimp only at succeeded
    split at succeeded <;> cases succeeded
  | copying input copied total =>
    dsimp only at succeeded
    split at succeeded
    · split at succeeded <;> cases succeeded
    · split at succeeded <;> cases succeeded
  | finishing copied =>
    dsimp only at succeeded
    split at succeeded
    next => cases succeeded
    next after finalized =>
      cases succeeded
      exact Or.inr finalized
  | done result =>
    obtain ⟨rfl, same⟩ := Prod.mk.inj succeeded
    exact Or.inl ⟨same, rfl⟩

theorem run_part_gone (attempt : CopyAttempt) {copied : Nat}
    (succeeded : (attempt.run source target files).2 = .done (.ok copied)) :
    (attempt.run source target files).1 (localResumePartPath target) = none := by
  have gone : ∀ state event,
      (∀ n, state.2 = .done (.ok n) → state.1 (localResumePartPath target) = none) →
      ∀ n, (copyStep attempt.engine source target state event).2 = .done (.ok n) →
        (copyStep attempt.engine source target state event).1 (localResumePartPath target) = none := by
    rintro ⟨files, phase⟩ event before n finished
    by_cases already : phase = .done (.ok n)
    · subst already
      exact before n rfl
    · cases event with
      | passes count =>
        have passed : copyStep attempt.engine source target (files, phase) (.passes count) =
            copyPasses attempt.engine source target files count phase := by
          cases phase <;> rfl
        rw [passed] at finished ⊢
        rcases copyPasses_succeeds (Prod.ext rfl finished) with ⟨same, -⟩ | finalized
        · exact absurd same already
        · exact (finalizeLocalResumeFile_ok (localResumePartPath_ne target) finalized).2.1
      | breaks count written error =>
        cases phase with
        | done result => exact absurd finished already
        | _ => cases finished
  exact @Transducer.run_preserves _ _ _ (copyMachine attempt.engine source target)
    (fun state => ∀ n, state.2 = .done (.ok n) → state.1 (localResumePartPath target) = none) gone
    (files, .opening) nofun attempt.events copied succeeded

def Failed (state : Files × CopyPhase) : Prop := ∀ copied, state.2 ≠ .done (.ok copied)

theorem run_failed_other (stored : files source = some (.file content links))
    (apart : source ≠ localResumePartPath target) {attempt : CopyAttempt}
    (failed : Failed (attempt.run source target files)) {path : FilePlace}
    (other : path ≠ localResumePartPath target) :
    (attempt.run source target files).1 path = files path := by
  have fits := @run_fits source target content files links stored apart attempt
  generalize attempt.run source target files = state at failed fits ⊢
  obtain ⟨after, phase⟩ := state
  cases phase with
  | done result =>
    cases result with
    | error error => exact fits.1 path other
    | ok copied => exact absurd rfl (failed copied)
  | _ => exact fits.1 path other

/-- Every one of the attempts fails in the files that those before it left. -/
def AllFail (source target : FilePlace) : Files → List CopyAttempt → Prop
  | _, [] => True
  | files, attempt :: attempts =>
    Failed (attempt.run source target files) ∧
      AllFail source target (attempt.run source target files).1 attempts

/-- The attempts leave the path as it is, each of them. -/
def AllKeep (source target path : FilePlace) : Files → List CopyAttempt → Prop
  | _, [] => True
  | files, attempt :: attempts =>
    (attempt.run source target files).1 path = files path ∧
      AllKeep source target path (attempt.run source target files).1 attempts

theorem allFail_keeps (stored : files source = some (.file content links))
    (apart : source ≠ localResumePartPath target) {attempts : List CopyAttempt}
    (fail : AllFail source target files attempts) :
    AllKeep source target target files attempts ∧
      CopyAttempt.after source target files attempts source = some (.file content links) := by
  induction attempts generalizing files with
  | nil => exact ⟨trivial, stored⟩
  | cons attempt attempts ih =>
    obtain ⟨failed, rest⟩ := fail
    have still := (run_failed_other stored apart failed apart).trans stored
    obtain ⟨kept, last⟩ := ih still rest
    exact ⟨⟨run_failed_other stored apart failed (localResumePartPath_ne target), kept⟩, last⟩

/-- Failed attempts and a last one that succeeds leave the target as it was, then as the source is, and
the source as it is, just when the source is not the part file of the target itself. -/
theorem resumed_transfer_exact_iff {attempts : List CopyAttempt} {last : CopyAttempt} {copied : Nat}
    (stored : files source = some (.file content links))
    (fail : AllFail source target files attempts)
    (succeeds : (last.run source target (CopyAttempt.after source target files attempts)).2 =
      .done (.ok copied)) :
    (AllKeep source target target files attempts ∧
        (last.run source target (CopyAttempt.after source target files attempts)).1 target =
          some (.file content 1) ∧
        ∃ links, (last.run source target (CopyAttempt.after source target files attempts)).1 source =
          some (.file content links)) ↔
      source ≠ localResumePartPath target := by
  constructor
  · rintro ⟨-, -, left, there⟩ same
    have gone := run_part_gone last succeeds
    rw [← same, there] at gone
    cases gone
  · intro apart
    obtain ⟨kept, still⟩ := allFail_keeps stored apart fail
    have fits := @run_fits source target content _ links still apart last
    generalize last.run source target (CopyAttempt.after source target files attempts) = state
      at succeeds fits ⊢
    obtain ⟨after, phase⟩ := state
    cases succeeds
    obtain ⟨-, whole, others⟩ := fits
    refine ⟨kept, whole, ?_⟩
    by_cases itself : source = target
    · exact ⟨1, itself ▸ whole⟩
    · exact ⟨links, (others source apart itself).trans still⟩

end Attempts

section Downloads

def download (name : String) : FilePlace := ⟨["home", "user"], name⟩

/-- A file under the name, and a stale part of another one. -/
def withStalePart : Files :=
  update (update (fun _ => none) (download "image.bin")
    (some (.file [1, 2, 3] 1))) (download "copy.bin.portmate-part") (some (.file [1, 9] 1))

def tornAttempt : CopyAttempt :=
  ⟨.localCopy, [.passes 0, .passes 0, .passes 0, .passes 0, .breaks 2 2 "disk"]⟩

def resumingAttempt : CopyAttempt :=
  ⟨.localCopy, [.passes 0, .passes 0, .passes 0, .passes 0, .passes 0, .passes 9, .passes 9,
    .passes 0]⟩

theorem copy_resumed :
    AllKeep (download "image.bin") (download "copy.bin") (download "copy.bin") withStalePart
        [tornAttempt] ∧
      (resumingAttempt.run (download "image.bin") (download "copy.bin")
          (CopyAttempt.after (download "image.bin") (download "copy.bin") withStalePart
            [tornAttempt])).1 (download "copy.bin") = some (.file [1, 2, 3] 1) := by
  have stored : withStalePart (download "image.bin") = some (.file [1, 2, 3] 1) := by rfl
  have torn : AllFail (download "image.bin") (download "copy.bin") withStalePart [tornAttempt] :=
    ⟨nofun, trivial⟩
  have succeeds : (resumingAttempt.run (download "image.bin") (download "copy.bin")
      (CopyAttempt.after (download "image.bin") (download "copy.bin") withStalePart
        [tornAttempt])).2 = .done (.ok 3) := by rfl
  obtain ⟨kept, whole, -⟩ := (resumed_transfer_exact_iff stored torn succeeds).mpr (by decide)
  exact ⟨kept, whole⟩

/-- A part file that is copied to the name that it is the part of is gone afterwards. -/
theorem copied_part_is_gone :
    let files := update (fun _ => none) (download "image.bin.portmate-part")
      (some (.file [1, 2, 3] 1))
    let run := CopyAttempt.run (download "image.bin.portmate-part") (download "image.bin") files
      ⟨.localCopy, List.replicate 7 (.passes 0)⟩
    run.2 = .done (.ok 3) ∧ run.1 (download "image.bin.portmate-part") = none := by
  exact ⟨rfl, rfl⟩

end Downloads

end PortMate
