import Mathlib.Data.List.Pairwise
import PortMate.SessionModels

namespace PortMate.TransferState

open List

/-- A transfer as the window shows it; a time is a text that is not empty. -/
structure TransferTask (τ ν : Type) where
  id : String
  sessionId : String
  protocol : TransferProtocol
  source : String
  destination : String
  bytesTotal : Nat
  bytesDone : Nat
  status : TransferStatus
  message : Option String
  startedAt : Option τ
  finishedAt : Option τ
  averageBytesPerSecond : Option ν
  deriving DecidableEq

/-- `terminalTransferStatuses`. -/
def isTerminal : TransferStatus → Bool
  | .completed | .failed | .cancelled => true
  | .queued | .running => false

def statusRank : TransferStatus → Nat
  | .queued => 0
  | .running => 1
  | .completed | .failed | .cancelled => 2

section Merge

variable {τ ν : Type}

def mergeTerminalTransferSnapshot (current saved : TransferTask τ ν) : TransferTask τ ν :=
  if saved.status ≠ current.status then current
  else
    { current with
      bytesTotal := max current.bytesTotal saved.bytesTotal
      bytesDone := max current.bytesDone saved.bytesDone
      message := current.message.or saved.message
      startedAt := current.startedAt.or saved.startedAt
      finishedAt := current.finishedAt.or saved.finishedAt
      averageBytesPerSecond := current.averageBytesPerSecond.or saved.averageBytesPerSecond }

def newerTransferSnapshot (current saved : TransferTask τ ν) : TransferTask τ ν :=
  if isTerminal current.status then mergeTerminalTransferSnapshot current saved
  else if statusRank saved.status < statusRank current.status then current
  else if statusRank saved.status > statusRank current.status then saved
  else if saved.bytesDone < current.bytesDone then current
  else if saved.bytesDone = current.bytesDone && (current.bytesTotal > 0 && saved.bytesTotal = 0 ||
      current.startedAt.isSome && saved.startedAt.isNone) then current
  else saved

def mergeTransfers (current : List (TransferTask τ ν)) (saved : TransferTask τ ν) :
    List (TransferTask τ ν) :=
  match current.findIdx? fun task => task.id = saved.id with
  | none => current ++ [saved]
  | some index => current.modify index fun task => newerTransferSnapshot task saved

def shownTransfer (id : String) (transfers : List (TransferTask τ ν)) :
    Option (TransferTask τ ν) :=
  transfers.find? fun task => task.id = id

theorem newerTransferSnapshot_id {current saved : TransferTask τ ν} (same : saved.id = current.id) :
    (newerTransferSnapshot current saved).id = current.id := by
  unfold newerTransferSnapshot mergeTerminalTransferSnapshot
  repeat' split
  all_goals first | rfl | exact same

theorem shown_mergeTransfers (id : String) (transfers : List (TransferTask τ ν))
    (saved : TransferTask τ ν) : shownTransfer id (mergeTransfers transfers saved) =
      if saved.id = id then
        some ((shownTransfer id transfers).elim saved fun task => newerTransferSnapshot task saved)
      else shownTransfer id transfers := by
  induction transfers with
  | nil =>
    by_cases same : saved.id = id <;> simp [mergeTransfers, shownTransfer, same]
  | cons task transfers ih =>
    unfold mergeTransfers shownTransfer at ih ⊢
    by_cases here : task.id = saved.id
    · have kept := newerTransferSnapshot_id here.symm
      by_cases same : saved.id = id
      · simp [findIdx?_cons, here, same, kept]
      · simp [findIdx?_cons, here, same, kept]
    · cases found : transfers.findIdx? fun task => decide (task.id = saved.id) with
      | none =>
        rw [found] at ih
        simp only [findIdx?_cons, here, decide_false, Bool.false_eq_true, if_false, found,
          Option.map_none, cons_append, find?_cons]
        by_cases first : task.id = id
        · simp [first, show saved.id ≠ id from fun same => here (first.trans same.symm)]
        · simpa [first] using ih
      | some index =>
        rw [found] at ih
        simp only [findIdx?_cons, here, decide_false, Bool.false_eq_true, if_false, found,
          Option.map_some, modify_succ_cons, find?_cons]
        by_cases first : task.id = id
        · simp [first, show saved.id ≠ id from fun same => here (first.trans same.symm)]
        · simpa [first] using ih

end Merge

section Runs

variable {τ ν : Type}

/-- A later snapshot has nothing less to show than an earlier one. -/
structure NotBehind (earlier later : TransferTask τ ν) : Prop where
  rank : statusRank earlier.status ≤ statusRank later.status
  bytes : earlier.bytesDone ≤ later.bytesDone
  total : earlier.bytesTotal ≠ 0 → later.bytesTotal ≠ 0
  started : earlier.startedAt.isSome = true → later.startedAt.isSome = true

/-- The snapshots of one run in the order in which they were taken. -/
structure TransferRun (id : String) (run : List (TransferTask τ ν)) : Prop where
  ids : ∀ task ∈ run, task.id = id
  forward : run.Pairwise NotBehind
  final : ∀ first ∈ run, ∀ second ∈ run, isTerminal first.status = true →
    isTerminal second.status = true → first.status = second.status

/-- While the status and the bytes done are the same, so are a known total and start time; those
that have ended know one start time. -/
def OneValue (first second : TransferTask τ ν) : Prop :=
  first.status = second.status →
    (isTerminal first.status = true ∨ first.bytesDone = second.bytesDone) →
      (∀ time time', first.startedAt = some time → second.startedAt = some time' → time = time') ∧
        (isTerminal first.status = false → first.bytesTotal ≠ 0 → second.bytesTotal ≠ 0 →
          first.bytesTotal = second.bytesTotal)

def shownView (task : TransferTask τ ν) : TransferStatus × Nat × Nat × Option τ :=
  (task.status, task.bytesDone, task.bytesTotal, task.startedAt)

theorem isTerminal_iff (status : TransferStatus) : isTerminal status = true ↔ statusRank status = 2 := by
  cases status <;> decide

theorem statusRank_le (status : TransferStatus) : statusRank status ≤ 2 := by
  cases status <;> decide

theorem status_of_rank {first second : TransferStatus} (unfinished : isTerminal first = false)
    (same : statusRank first = statusRank second) : first = second := by
  cases first <;> cases second <;>
    first | rfl | exact absurd unfinished (by decide) | exact absurd same (by decide)

variable (task : TransferTask τ ν)

theorem NotBehind.refl : NotBehind task task :=
  ⟨Nat.le_refl _, Nat.le_refl _, id, id⟩

theorem TransferRun.comparable {id : String} {run : List (TransferTask τ ν)}
    (taken : TransferRun id run) {first second : TransferTask τ ν} (mem : first ∈ run)
    (mem' : second ∈ run) : NotBehind first second ∨ NotBehind second first := by
  have eitherWay : run.Pairwise fun task other => NotBehind task other ∨ NotBehind other task :=
    taken.forward.imp fun behind => .inl behind
  exact eitherWay.forall_of_forall_of_flip (fun task _ => .inl (NotBehind.refl task))
    (eitherWay.imp Or.symm) mem mem'

theorem newer_unfinished {current : TransferTask τ ν} (saved : TransferTask τ ν)
    (unfinished : isTerminal current.status = false) :
    newerTransferSnapshot current saved = current ∧
        (statusRank saved.status < statusRank current.status ∨
          saved.status = current.status ∧ (saved.bytesDone < current.bytesDone ∨
            saved.bytesDone = current.bytesDone ∧
              (current.bytesTotal ≠ 0 ∧ saved.bytesTotal = 0 ∨
                current.startedAt.isSome = true ∧ saved.startedAt.isSome = false))) ∨
      newerTransferSnapshot current saved = saved ∧
        (statusRank current.status < statusRank saved.status ∨
          saved.status = current.status ∧ (current.bytesDone < saved.bytesDone ∨
            saved.bytesDone = current.bytesDone ∧
              (current.bytesTotal ≠ 0 → saved.bytesTotal ≠ 0) ∧
              (current.startedAt.isSome = true → saved.startedAt.isSome = true))) := by
  unfold newerTransferSnapshot
  rw [unfinished, if_neg Bool.false_ne_true]
  split
  next lower => exact .inl ⟨rfl, .inl lower⟩
  next notLower =>
    split
    next higher => exact .inr ⟨rfl, .inl higher⟩
    next notHigher =>
      have same : saved.status = current.status :=
        (status_of_rank unfinished (by omega)).symm
      split
      next less => exact .inl ⟨rfl, .inr ⟨same, .inl less⟩⟩
      next notLess =>
        split
        next known =>
          simp only [Bool.and_eq_true, decide_eq_true_eq, Bool.or_eq_true] at known
          refine .inl ⟨rfl, .inr ⟨same, .inr ⟨known.1, ?_⟩⟩⟩
          obtain ⟨total, unknown⟩ | ⟨started, unknown⟩ := known.2
          · exact .inl ⟨by omega, unknown⟩
          · exact .inr ⟨started, by simpa using unknown⟩
        next unknown =>
          simp only [Bool.and_eq_true, decide_eq_true_eq, Bool.or_eq_true, not_and, not_or] at unknown
          refine .inr ⟨rfl, .inr ⟨same, ?_⟩⟩
          by_cases equal : saved.bytesDone = current.bytesDone
          · obtain ⟨total, started⟩ := unknown equal
            refine .inr ⟨equal, fun known zero => total (by omega) zero, fun known => ?_⟩
            have given := started known
            exact Option.isSome_iff_ne_none.mpr fun absent => by simp [absent] at given
          · exact .inl (by omega)

theorem newer_notBehind (current saved : TransferTask τ ν)
    (comparable : isTerminal current.status = false →
      NotBehind current saved ∨ NotBehind saved current) :
    NotBehind current (newerTransferSnapshot current saved) ∧
      (isTerminal current.status = true →
        (newerTransferSnapshot current saved).status = current.status) := by
  cases ended : isTerminal current.status with
  | true =>
    refine ⟨?_, fun _ => ?_⟩
    · unfold newerTransferSnapshot mergeTerminalTransferSnapshot
      rw [ended, if_pos rfl]
      split
      · exact NotBehind.refl current
      · refine ⟨Nat.le_refl _, Nat.le_max_left _ _, fun known => ?_, fun known => ?_⟩
        · exact Nat.ne_of_gt (Nat.lt_of_lt_of_le (Nat.pos_of_ne_zero known) (Nat.le_max_left _ _))
        · cases given : current.startedAt with
          | none => simp [given] at known
          | some time => simp
    · unfold newerTransferSnapshot mergeTerminalTransferSnapshot
      rw [ended, if_pos rfl]
      split <;> rfl
  | false =>
    refine ⟨?_, fun absent => absurd absent Bool.false_ne_true⟩
    obtain ⟨kept, -⟩ | ⟨taken, more⟩ := newer_unfinished saved ended
    · rw [kept]
      exact NotBehind.refl current
    · rw [taken]
      obtain forward | backward := comparable ended
      · exact forward
      · have rank := backward.rank
        have bytes := backward.bytes
        obtain higher | ⟨same, more | ⟨equal, total, started⟩⟩ := more
        · omega
        · omega
        · exact ⟨Nat.le_of_eq (by rw [same]), Nat.le_of_eq equal.symm, total, started⟩

/-- A snapshot that adds nothing to a transfer that has not ended. -/
def AtMost (task shown : TransferTask τ ν) : Prop :=
  statusRank task.status < statusRank shown.status ∨
    task.status = shown.status ∧ (task.bytesDone < shown.bytesDone ∨
      task.bytesDone = shown.bytesDone ∧ (task.bytesTotal ≠ 0 → shown.bytesTotal ≠ 0) ∧
        (task.startedAt.isSome = true → shown.startedAt.isSome = true))

theorem AtMost.refl : AtMost task task :=
  .inr ⟨rfl, .inr ⟨rfl, id, id⟩⟩

theorem AtMost.rank {task shown : TransferTask τ ν} (under : AtMost task shown) :
    statusRank task.status ≤ statusRank shown.status := by
  obtain lower | ⟨same, -⟩ := under
  · exact Nat.le_of_lt lower
  · exact Nat.le_of_eq (congrArg statusRank same)

theorem AtMost.trans {first second third : TransferTask τ ν} (under : AtMost first second)
    (above : AtMost second third) : AtMost first third := by
  obtain lower | ⟨same, rest⟩ := under
  · exact .inl (Nat.lt_of_lt_of_le lower above.rank)
  obtain lower | ⟨same', rest'⟩ := above
  · exact .inl (by rw [same]; exact lower)
  refine .inr ⟨same.trans same', ?_⟩
  obtain less | ⟨equal, total, started⟩ := rest
  · obtain less' | ⟨equal', -⟩ := rest'
    · exact .inl (Nat.lt_trans less less')
    · exact .inl (by omega)
  · obtain less' | ⟨equal', total', started'⟩ := rest'
    · exact .inl (by omega)
    · exact .inr ⟨equal.trans equal', total' ∘ total, started' ∘ started⟩

/-- What is shown of a run after the snapshots that were seen. -/
inductive Shows (seen : List (TransferTask τ ν)) (shown : TransferTask τ ν) : Prop
  | unfinished (status : isTerminal shown.status = false) (mem : shown ∈ seen)
      (most : ∀ task ∈ seen, AtMost task shown)
  | finished (status : isTerminal shown.status = true)
      (most : ∀ task ∈ seen, task.status = shown.status → task.bytesDone ≤ shown.bytesDone ∧
        task.bytesTotal ≤ shown.bytesTotal ∧
          (task.startedAt.isSome = true → shown.startedAt.isSome = true))
      (bytes : ∃ task ∈ seen, task.status = shown.status ∧ task.bytesDone = shown.bytesDone)
      (total : ∃ task ∈ seen, task.status = shown.status ∧ task.bytesTotal = shown.bytesTotal)
      (started : ∀ time, shown.startedAt = some time →
        ∃ task ∈ seen, task.status = shown.status ∧ task.startedAt = some time)

theorem Shows.first (task : TransferTask τ ν) : Shows [task] task := by
  cases ended : isTerminal task.status with
  | false =>
    refine .unfinished ended (mem_singleton_self _) fun other mem => ?_
    rw [mem_singleton.mp mem]
    exact AtMost.refl task
  | true =>
    have mem := mem_singleton_self task
    refine .finished ended (fun other mem _ => ?_) ⟨task, mem, rfl, rfl⟩ ⟨task, mem, rfl, rfl⟩
      fun time known => ⟨task, mem, rfl, known⟩
    rw [mem_singleton.mp mem]
    exact ⟨Nat.le_refl _, Nat.le_refl _, id⟩

theorem shows_after_end {seen : List (TransferTask τ ν)} {shown saved : TransferTask τ ν}
    (ended : isTerminal shown.status = true) (shows : Shows seen shown) :
    Shows (saved :: seen) (newerTransferSnapshot shown saved) := by
  cases shows with
  | unfinished status => exact absurd (status.symm.trans ended) Bool.false_ne_true
  | finished status most bytes total started =>
    unfold newerTransferSnapshot mergeTerminalTransferSnapshot
    rw [ended, if_pos rfl]
    have older {p : TransferTask τ ν → Prop} : (∃ task ∈ seen, p task) → ∃ task ∈ saved :: seen, p task :=
      fun ⟨task, mem, holds⟩ => ⟨task, mem_cons_of_mem _ mem, holds⟩
    have newest : saved ∈ saved :: seen := mem_cons_self
    split
    next other =>
      refine .finished ended (fun task mem same => ?_) (older bytes) (older total)
        fun time known => older (started time known)
      obtain rfl | mem := mem_cons.mp mem
      · exact absurd same other
      · exact most task mem same
    next same =>
      have same := Decidable.not_not.mp same
      refine .finished ended (fun task mem status => ?_) ?_ ?_ fun time known => ?_
      · obtain rfl | mem := mem_cons.mp mem
        · refine ⟨Nat.le_max_right _ _, Nat.le_max_right _ _, fun known => ?_⟩
          cases shown.startedAt with
          | none => exact known
          | some time => rfl
        · obtain ⟨bytes, total, started⟩ := most task mem status
          refine ⟨Nat.le_trans bytes (Nat.le_max_left _ _), Nat.le_trans total (Nat.le_max_left _ _),
            fun known => ?_⟩
          obtain ⟨time, given⟩ := Option.isSome_iff_exists.mp (started known)
          rw [given]
          rfl
      · obtain less | more := Nat.le_total saved.bytesDone shown.bytesDone
        · exact (Nat.max_eq_left less).symm ▸ older bytes
        · exact ⟨saved, newest, same, (Nat.max_eq_right more).symm⟩
      · obtain less | more := Nat.le_total saved.bytesTotal shown.bytesTotal
        · exact (Nat.max_eq_left less).symm ▸ older total
        · exact ⟨saved, newest, same, (Nat.max_eq_right more).symm⟩
      · cases given : shown.startedAt with
        | none =>
          rw [given] at known
          exact ⟨saved, newest, same, known⟩
        | some first =>
          rw [given] at known
          exact older (started time (given.trans known))

theorem unended_seen {seen : List (TransferTask τ ν)} {shown shown' task : TransferTask τ ν}
    (ended : isTerminal shown.status = false) (most : ∀ task ∈ seen, AtMost task shown)
    (final : isTerminal shown'.status = true) (mem : task ∈ seen) :
    task.status ≠ shown'.status := by
  intro status
  have low := (most task mem).rank
  rw [status, (isTerminal_iff _).mp final] at low
  have top := Nat.le_antisymm (statusRank_le shown.status) low
  exact absurd (ended.symm.trans ((isTerminal_iff _).mpr top)) Bool.false_ne_true

theorem shows_newer {id : String} {run seen : List (TransferTask τ ν)}
    {shown saved : TransferTask τ ν} (taken : TransferRun id run) (mem : saved ∈ run)
    (within : ∀ task ∈ seen, task ∈ run) (shows : Shows seen shown) :
    Shows (saved :: seen) (newerTransferSnapshot shown saved) := by
  cases ended : isTerminal shown.status with
  | true => exact shows_after_end ended shows
  | false =>
    cases shows with
    | finished status => exact absurd (ended.symm.trans status) Bool.false_ne_true
    | unfinished _ here most =>
      obtain ⟨kept, less⟩ | ⟨chosen, more⟩ := newer_unfinished saved ended
      · rw [kept]
        refine .unfinished ended (mem_cons_of_mem _ here) fun task mem' => ?_
        obtain rfl | mem' := mem_cons.mp mem'
        · obtain lower | ⟨same, less | ⟨equal, unknown⟩⟩ := less
          · exact .inl lower
          · exact .inr ⟨same, .inl less⟩
          · refine .inr ⟨same, .inr ⟨equal, ?_⟩⟩
            obtain forward | backward := taken.comparable (within shown here) mem
            · obtain ⟨total, zero⟩ | ⟨started, absent⟩ := unknown
              · exact absurd zero (forward.total total)
              · exact absurd (absent.symm.trans (forward.started started)) Bool.false_ne_true
            · exact ⟨backward.total, backward.started⟩
        · exact most task mem'
      · rw [chosen]
        have under : AtMost shown saved := by
          obtain higher | ⟨same, less | ⟨equal, known⟩⟩ := more
          · exact .inl higher
          · exact .inr ⟨same.symm, .inl less⟩
          · exact .inr ⟨same.symm, .inr ⟨equal.symm, known⟩⟩
        cases final : isTerminal saved.status with
        | false =>
          refine .unfinished final mem_cons_self fun task mem' => ?_
          obtain rfl | mem' := mem_cons.mp mem'
          · exact AtMost.refl _
          · exact (most task mem').trans under
        | true =>
          have newest : saved ∈ saved :: seen := mem_cons_self
          refine .finished final (fun task mem' same => ?_) ⟨saved, newest, rfl, rfl⟩
            ⟨saved, newest, rfl, rfl⟩ fun time known => ⟨saved, newest, rfl, known⟩
          obtain rfl | mem' := mem_cons.mp mem'
          · exact ⟨Nat.le_refl _, Nat.le_refl _, fun known => known⟩
          · exact absurd same (unended_seen ended most final mem')

theorem option_eq_of_known {first second : Option τ}
    (known : first.isSome = true ↔ second.isSome = true)
    (one : ∀ time time', first = some time → second = some time' → time = time') :
    first = second := by
  cases first with
  | none => cases second with
    | none => rfl
    | some time => exact absurd (known.mpr rfl) Bool.false_ne_true
  | some time => cases second with
    | none => exact absurd (known.mp rfl) Bool.false_ne_true
    | some time' => rw [one time time' rfl rfl]

theorem shownView_unique {id : String} {run seen seen' : List (TransferTask τ ν)}
    {shown shown' : TransferTask τ ν} (taken : TransferRun id run)
    (values : ∀ first ∈ run, ∀ second ∈ run, OneValue first second)
    (within : ∀ task ∈ seen, task ∈ run) (same : ∀ task, task ∈ seen ↔ task ∈ seen')
    (shows : Shows seen shown) (shows' : Shows seen' shown') : shownView shown = shownView shown' := by
  have within' : ∀ task ∈ seen', task ∈ run := fun task mem => within task ((same task).mpr mem)
  cases shows with
  | unfinished ended here most =>
    cases shows' with
    | finished final _ bytes' =>
      obtain ⟨task, mem, status, -⟩ := bytes'
      exact absurd status (unended_seen ended most final ((same task).mpr mem))
    | unfinished ended' here' most' =>
      have under := most' shown ((same shown).mp here)
      have above := most shown' ((same shown').mpr here')
      obtain lower | ⟨status, rest⟩ := under
      · exact absurd above.rank (Nat.not_le_of_lt lower)
      obtain lower' | ⟨-, rest'⟩ := above
      · rw [status] at lower'
        exact absurd lower' (Nat.lt_irrefl _)
      obtain less | ⟨bytes, total, started⟩ := rest
      · obtain less' | ⟨equal', -⟩ := rest' <;> omega
      obtain less' | ⟨-, total', started'⟩ := rest'
      · omega
      obtain ⟨time, amount⟩ := values shown (within shown here) shown' (within' shown' here') status
        (.inr bytes)
      have totals : shown.bytesTotal = shown'.bytesTotal := by
        by_cases zero : shown.bytesTotal = 0
        · by_cases zero' : shown'.bytesTotal = 0
          · rw [zero, zero']
          · exact absurd zero (total' zero')
        · exact amount ended zero (total zero)
      have times := option_eq_of_known ⟨started, started'⟩ time
      unfold shownView
      rw [status, bytes, totals, times]
  | finished final most bytes total started =>
    cases shows' with
    | unfinished ended' _ most' =>
      obtain ⟨task, mem, status, -⟩ := bytes
      exact absurd status (unended_seen ended' most' final ((same task).mp mem))
    | finished final' most' bytes' total' started' =>
      obtain ⟨task, mem, status, done⟩ := bytes
      obtain ⟨task', mem', status', done'⟩ := bytes'
      have statuses : shown.status = shown'.status := by
        rw [← status, ← status']
        refine taken.final task (within task mem) task' (within' task' mem') ?_ ?_
        · rw [status]
          exact final
        · rw [status']
          exact final'
      obtain ⟨sized, memSized, statusSized, amount⟩ := total
      obtain ⟨sized', memSized', statusSized', amount'⟩ := total'
      have doneLe := (most' task ((same task).mp mem) (status.trans statuses)).1
      have doneLe' := (most task' ((same task').mpr mem') (status'.trans statuses.symm)).1
      have sizeLe := (most' sized ((same sized).mp memSized) (statusSized.trans statuses)).2.1
      have sizeLe' := (most sized' ((same sized').mpr memSized') (statusSized'.trans statuses.symm)).2.1
      have known : shown.startedAt.isSome = true → shown'.startedAt.isSome = true := by
        intro known
        obtain ⟨time, given⟩ := Option.isSome_iff_exists.mp known
        obtain ⟨dated, memDated, statusDated, at'⟩ := started time given
        refine (most' dated ((same dated).mp memDated) (statusDated.trans statuses)).2.2 ?_
        rw [at']
        rfl
      have known' : shown'.startedAt.isSome = true → shown.startedAt.isSome = true := by
        intro known
        obtain ⟨time, given⟩ := Option.isSome_iff_exists.mp known
        obtain ⟨dated, memDated, statusDated, at'⟩ := started' time given
        refine (most dated ((same dated).mpr memDated) (statusDated.trans statuses.symm)).2.2 ?_
        rw [at']
        rfl
      have times := option_eq_of_known ⟨known, known'⟩ fun time time' given given' => by
        obtain ⟨dated, memDated, statusDated, at'⟩ := started time given
        obtain ⟨dated', memDated', statusDated', at''⟩ := started' time' given'
        refine (values dated (within dated memDated) dated' (within' dated' memDated') ?_ ?_).1
          time time' at' at''
        · rw [statusDated, statusDated', statuses]
        · rw [statusDated]
          exact .inl final
      unfold shownView
      rw [statuses, times, show shown.bytesDone = shown'.bytesDone by omega,
        show shown.bytesTotal = shown'.bytesTotal by omega]

theorem shown_after {id : String} {run : List (TransferTask τ ν)} (taken : TransferRun id run) :
    ∀ (deliveries : List (TransferTask τ ν)) (transfers seen : List (TransferTask τ ν)),
      (∀ task ∈ deliveries, task.id = id → task ∈ run) → (∀ task ∈ seen, task ∈ run) →
        (match shownTransfer id transfers with
          | none => seen = []
          | some shown => Shows seen shown) →
          ∃ seen', (∀ task, task ∈ seen' ↔ task ∈ seen ∨ task ∈ deliveries ∧ task.id = id) ∧
            match shownTransfer id (deliveries.foldl mergeTransfers transfers) with
            | none => seen' = []
            | some shown => Shows seen' shown := by
  intro deliveries
  induction deliveries with
  | nil => exact fun transfers seen _ _ shows => ⟨seen, by simp, shows⟩
  | cons saved deliveries ih =>
    intro transfers seen delivered within shows
    have rest : ∀ task ∈ deliveries, task.id = id → task ∈ run :=
      fun task mem => delivered task (mem_cons_of_mem _ mem)
    have merged := shown_mergeTransfers id transfers saved
    by_cases same : saved.id = id
    · have mem := delivered saved mem_cons_self same
      have within' : ∀ task ∈ saved :: seen, task ∈ run := by
        intro task mem'
        obtain rfl | mem' := mem_cons.mp mem'
        · exact mem
        · exact within task mem'
      obtain ⟨seen', members, after⟩ := ih (mergeTransfers transfers saved) (saved :: seen) rest
        within' (by
          rw [merged, if_pos same]
          cases before : shownTransfer id transfers with
          | none =>
            rw [before] at shows
            rw [shows]
            exact Shows.first saved
          | some shown =>
            rw [before] at shows
            exact shows_newer taken mem within shows)
      refine ⟨seen', fun task => ?_, after⟩
      rw [members, mem_cons, mem_cons]
      constructor
      · rintro ((rfl | mem') | mem')
        · exact .inr ⟨.inl rfl, same⟩
        · exact .inl mem'
        · exact .inr ⟨.inr mem'.1, mem'.2⟩
      · rintro (mem' | ⟨rfl | mem', own⟩)
        · exact .inl (.inr mem')
        · exact .inl (.inl rfl)
        · exact .inr ⟨mem', own⟩
    · obtain ⟨seen', members, after⟩ := ih (mergeTransfers transfers saved) seen rest within (by
          rw [merged, if_neg same]
          exact shows)
      refine ⟨seen', fun task => ?_, after⟩
      rw [members, mem_cons]
      constructor
      · rintro (mem' | mem')
        · exact .inl mem'
        · exact .inr ⟨.inr mem'.1, mem'.2⟩
      · rintro (mem' | ⟨rfl | mem', own⟩)
        · exact .inl mem'
        · exact absurd own same
        · exact .inr ⟨mem', own⟩

theorem NotBehind.trans {first second third : TransferTask τ ν} (behind : NotBehind first second)
    (behind' : NotBehind second third) : NotBehind first third :=
  ⟨Nat.le_trans behind.rank behind'.rank, Nat.le_trans behind.bytes behind'.bytes,
    behind'.total ∘ behind.total, behind'.started ∘ behind.started⟩

theorem shown_forward {id : String} {run : List (TransferTask τ ν)} (taken : TransferRun id run) :
    ∀ (later transfers : List (TransferTask τ ν)) (shown : TransferTask τ ν),
      (∀ task ∈ later, task.id = id → task ∈ run) → shownTransfer id transfers = some shown →
        (isTerminal shown.status = true ∨ shown ∈ run) →
          ∃ shown', shownTransfer id (later.foldl mergeTransfers transfers) = some shown' ∧
            NotBehind shown shown' ∧
              (isTerminal shown.status = true → shown'.status = shown.status) := by
  intro later
  induction later with
  | nil => exact fun transfers shown _ here _ => ⟨shown, here, NotBehind.refl shown, fun _ => rfl⟩
  | cons saved later ih =>
    intro transfers shown delivered here own
    have rest : ∀ task ∈ later, task.id = id → task ∈ run :=
      fun task mem => delivered task (mem_cons_of_mem _ mem)
    have merged := shown_mergeTransfers id transfers saved
    rw [here] at merged
    by_cases same : saved.id = id
    · replace merged : shownTransfer id (mergeTransfers transfers saved) =
          some (newerTransferSnapshot shown saved) := by
        rw [merged, if_pos same]
        rfl
      have mem := delivered saved mem_cons_self same
      obtain ⟨behind, kept⟩ := newer_notBehind shown saved fun unfinished =>
        taken.comparable (own.resolve_left (by rw [unfinished]; exact Bool.false_ne_true)) mem
      have own' : isTerminal (newerTransferSnapshot shown saved).status = true ∨
          newerTransferSnapshot shown saved ∈ run := by
        cases ended : isTerminal shown.status with
        | true => exact .inl (by rw [kept ended]; exact ended)
        | false =>
          have here := own.resolve_left (by rw [ended]; exact Bool.false_ne_true)
          obtain ⟨unchanged, -⟩ | ⟨chosen, -⟩ := newer_unfinished saved ended
          · exact .inr (by rw [unchanged]; exact here)
          · exact .inr (by rw [chosen]; exact mem)
      obtain ⟨shown', after, behind', kept'⟩ := ih _ _ rest merged own'
      refine ⟨shown', after, behind.trans behind', fun ended => ?_⟩
      rw [kept' (by rw [kept ended]; exact ended), kept ended]
    · rw [if_neg same] at merged
      exact ih _ _ rest merged own

theorem Shows.nonempty {seen : List (TransferTask τ ν)} {shown : TransferTask τ ν}
    (shows : Shows seen shown) (empty : seen = []) : False := by
  subst empty
  cases shows with
  | unfinished _ mem => exact absurd mem not_mem_nil
  | finished _ _ bytes =>
    obtain ⟨task, mem, -⟩ := bytes
    exact absurd mem not_mem_nil

theorem Shows.own {run seen : List (TransferTask τ ν)} {shown : TransferTask τ ν}
    (within : ∀ task ∈ seen, task ∈ run) (shows : Shows seen shown) :
    isTerminal shown.status = true ∨ shown ∈ run := by
  cases shows with
  | unfinished _ mem => exact .inr (within shown mem)
  | finished ended => exact .inl ended

/-- Merged one by one, the snapshots of a run never take back what is shown of it; and which of
them came, not in which order or how often, decides what is shown in the end. -/
theorem merged_run_shown {id : String} {run transfers : List (TransferTask τ ν)}
    (taken : TransferRun id run)
    (initial : ∀ task, shownTransfer id transfers = some task → task ∈ run) :
    (∀ (earlier later : List (TransferTask τ ν)) (shown : TransferTask τ ν),
      (∀ task ∈ earlier ++ later, task.id = id → task ∈ run) →
        shownTransfer id (earlier.foldl mergeTransfers transfers) = some shown →
          ∃ shown', shownTransfer id ((earlier ++ later).foldl mergeTransfers transfers) =
            some shown' ∧ NotBehind shown shown' ∧
            (isTerminal shown.status = true → shown'.status = shown.status)) ∧
      ((∀ first ∈ run, ∀ second ∈ run, OneValue first second) →
        ∀ deliveries deliveries' : List (TransferTask τ ν),
          (∀ task ∈ deliveries, task.id = id → task ∈ run) →
          (∀ task, task.id = id → (task ∈ deliveries ↔ task ∈ deliveries')) →
            (shownTransfer id (deliveries.foldl mergeTransfers transfers)).map shownView =
              (shownTransfer id (deliveries'.foldl mergeTransfers transfers)).map shownView) := by
  have known : ∀ task ∈ (shownTransfer id transfers).toList, task ∈ run :=
    fun task mem => initial task (Option.mem_toList.mp mem)
  have start : match shownTransfer id transfers with
      | none => (shownTransfer id transfers).toList = []
      | some shown => Shows (shownTransfer id transfers).toList shown := by
    cases shownTransfer id transfers with
    | none => rfl
    | some task => exact Shows.first task
  have within {deliveries seen : List (TransferTask τ ν)}
      (delivered : ∀ task ∈ deliveries, task.id = id → task ∈ run)
      (members : ∀ task, task ∈ seen ↔
        task ∈ (shownTransfer id transfers).toList ∨ task ∈ deliveries ∧ task.id = id) :
      ∀ task ∈ seen, task ∈ run := by
    intro task mem
    obtain shown | ⟨mem, own⟩ := (members task).mp mem
    · exact known task shown
    · exact delivered task mem own
  constructor
  · intro earlier later shown delivered here
    have earlierDelivered : ∀ task ∈ earlier, task.id = id → task ∈ run :=
      fun task mem => delivered task (mem_append_left _ mem)
    obtain ⟨seen, members, after⟩ := shown_after taken earlier transfers _ earlierDelivered
      known start
    rw [here] at after
    rw [foldl_append]
    exact shown_forward taken later _ shown
      (fun task mem => delivered task (mem_append_right _ mem)) here
      (after.own (within earlierDelivered members))
  · intro values deliveries deliveries' delivered same
    have delivered' : ∀ task ∈ deliveries', task.id = id → task ∈ run :=
      fun task mem own => delivered task ((same task own).mpr mem) own
    obtain ⟨seen, members, after⟩ := shown_after taken deliveries transfers _ delivered
      known start
    obtain ⟨seen', members', after'⟩ := shown_after taken deliveries' transfers _ delivered'
      known start
    have agree : ∀ task, task ∈ seen ↔ task ∈ seen' := by
      intro task
      rw [members, members']
      exact or_congr_right (and_congr_left fun own => same task own)
    cases here : shownTransfer id (deliveries.foldl mergeTransfers transfers) with
    | none =>
      cases here' : shownTransfer id (deliveries'.foldl mergeTransfers transfers) with
      | none => rfl
      | some shown' =>
        rw [here] at after
        rw [here'] at after'
        have empty : seen' = [] := eq_nil_iff_forall_not_mem.mpr fun task mem => by
          have mem := (agree task).mpr mem
          rw [after] at mem
          exact absurd mem not_mem_nil
        exact (after'.nonempty empty).elim
    | some shown =>
      cases here' : shownTransfer id (deliveries'.foldl mergeTransfers transfers) with
      | none =>
        rw [here] at after
        rw [here'] at after'
        have empty : seen = [] := eq_nil_iff_forall_not_mem.mpr fun task mem => by
          have mem := (agree task).mp mem
          rw [after'] at mem
          exact absurd mem not_mem_nil
        exact (after.nonempty empty).elim
      | some shown' =>
        rw [here] at after
        rw [here'] at after'
        exact congrArg some
          (shownView_unique taken values (within delivered members) agree after after')

/-- A run of two snapshots that says another total at the same bytes done. -/
def sampleSnapshot (bytesTotal : Nat) : TransferTask Unit Unit :=
  { id := "transfer", sessionId := "session", protocol := .scp, source := "a", destination := "b",
    bytesTotal := bytesTotal, bytesDone := 5, status := .running, message := none,
    startedAt := some (), finishedAt := none, averageBytesPerSecond := none }

theorem sample_run : TransferRun "transfer" [sampleSnapshot 100, sampleSnapshot 120] := by
  refine ⟨?_, ?_, ?_⟩
  · decide
  · refine pairwise_pair.mpr ⟨Nat.le_refl _, Nat.le_refl _, fun _ => by decide, fun known => known⟩
  · decide

/-- A total that is known may take another value, and the order decides which one is shown. -/
theorem changed_total_shown_last :
    TransferRun "transfer" [sampleSnapshot 100, sampleSnapshot 120] ∧
      (shownTransfer "transfer"
        ([sampleSnapshot 100, sampleSnapshot 120].foldl mergeTransfers [])).map shownView ≠
        (shownTransfer "transfer"
          ([sampleSnapshot 120, sampleSnapshot 100].foldl mergeTransfers [])).map shownView :=
  ⟨sample_run, by decide⟩

instance (earlier later : TransferTask τ ν) : Decidable (NotBehind earlier later) :=
  decidable_of_iff (statusRank earlier.status ≤ statusRank later.status ∧
      earlier.bytesDone ≤ later.bytesDone ∧ (earlier.bytesTotal ≠ 0 → later.bytesTotal ≠ 0) ∧
      (earlier.startedAt.isSome = true → later.startedAt.isSome = true))
    ⟨fun ⟨rank, bytes, total, started⟩ => ⟨rank, bytes, total, started⟩,
      fun ⟨rank, bytes, total, started⟩ => ⟨rank, bytes, total, started⟩⟩

def stageOf (id : String) (status : TransferStatus) (bytesDone bytesTotal : Nat)
    (startedAt : Option Nat) : TransferTask Nat Unit :=
  { id, sessionId := "session", protocol := .scp, source := "a", destination := "b", bytesTotal,
    bytesDone, status, message := none, startedAt, finishedAt := none,
    averageBytesPerSecond := none }

/-- A transfer is queued, runs, runs on and ends. -/
def stagedRun : List (TransferTask Nat Unit) :=
  [stageOf "transfer" .queued 0 0 none, stageOf "transfer" .running 5 100 (some 7),
    stageOf "transfer" .running 60 100 (some 7), stageOf "transfer" .completed 100 100 (some 7)]

theorem staged_run : TransferRun "transfer" stagedRun where
  ids := by decide
  forward := by decide
  final := by decide

/-- The end comes first, the start last, a stage comes twice and another transfer in between. -/
theorem merged_sample_run :
    let shuffled := [stageOf "transfer" .completed 100 100 (some 7),
      stageOf "transfer" .running 60 100 (some 7), stageOf "other" .failed 3 9 (some 2),
      stageOf "transfer" .running 5 100 (some 7), stageOf "transfer" .running 60 100 (some 7),
      stageOf "transfer" .queued 0 0 none]
    (shownTransfer "transfer" (shuffled.foldl mergeTransfers [])).map shownView =
        (shownTransfer "transfer" (stagedRun.foldl mergeTransfers [])).map shownView ∧
      ∃ shown', shownTransfer "transfer" (shuffled.foldl mergeTransfers []) = some shown' ∧
        NotBehind (stageOf "transfer" .completed 100 100 (some 7)) shown' := by
  intro shuffled
  obtain ⟨forward, same⟩ := @merged_run_shown Nat Unit _ _ [] staged_run fun _ absent =>
    absurd absent.symm (Option.some_ne_none _)
  refine ⟨same ?_ _ _ (by decide) ?_, ?_⟩
  · intro first mem second mem'
    simp only [stagedRun, mem_cons, not_mem_nil, or_false] at mem mem'
    rcases mem with rfl | rfl | rfl | rfl <;> rcases mem' with rfl | rfl | rfl | rfl <;>
      simp [OneValue, stageOf, isTerminal]
  · intro task own
    simp only [shuffled, stagedRun, mem_cons, not_mem_nil, or_false]
    constructor
    · rintro (rfl | rfl | rfl | rfl | rfl | rfl) <;> first | simp | exact absurd own (by decide)
    · rintro (rfl | rfl | rfl | rfl) <;> simp
  · obtain ⟨shown', after, kept, -⟩ := forward [stageOf "transfer" .completed 100 100 (some 7)]
      (shuffled.drop 1) _ (by decide) rfl
    exact ⟨shown', after, kept⟩

end Runs

end PortMate.TransferState
