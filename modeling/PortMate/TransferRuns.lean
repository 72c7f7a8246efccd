import Mathlib.Data.List.Nodup
import PortMate.TransferStates

namespace PortMate

open List MutateClosure

namespace SessionStore

variable (store : SessionStore)

theorem trimEventsIfNeeded_transfers (sessionId : String) :
    (store.trimEventsIfNeeded sessionId).transfers = store.transfers := by
  unfold trimEventsIfNeeded
  dsimp only
  split <;> split <;> rfl

theorem mem_editTransfer {id : String} {edit : TransferTask → TransferTask}
    {transfers : List TransferTask} {task : TransferTask}
    (inside : task ∈ editTransfer id edit transfers) :
    task ∈ transfers ∨ ∃ before ∈ transfers, before.id = id ∧ task = edit before ∧
      transfers.find? (fun other => other.id = id) = some before := by
  induction transfers with
  | nil => exact nomatch inside
  | cons first rest ih =>
    rw [editTransfer] at inside
    split at inside
    next same =>
      obtain rfl | kept := mem_cons.mp inside
      · exact .inr ⟨first, mem_cons_self, same, rfl, by simp [same]⟩
      · exact .inl (mem_cons_of_mem _ kept)
    next other =>
      obtain rfl | later := mem_cons.mp inside
      · exact .inl mem_cons_self
      · obtain kept | ⟨before, present, same, edited, found⟩ := ih later
        · exact .inl (mem_cons_of_mem _ kept)
        · refine .inr ⟨before, mem_cons_of_mem _ present, same, edited, ?_⟩
          simpa [other] using found

theorem editTransfer_forall₂ {id : String} {edit : TransferTask → TransferTask}
    (transfers : List TransferTask) :
    List.Forall₂ (fun before after => after = before ∨
        (before.id = id ∧ after = edit before ∧
          transfers.find? (fun other => other.id = id) = some before))
      transfers (editTransfer id edit transfers) := by
  induction transfers with
  | nil => exact .nil
  | cons first rest ih =>
    rw [editTransfer]
    split
    next same =>
      refine .cons (.inr ⟨same, rfl, by simp [same]⟩) ?_
      exact forall₂_same.mpr fun _ _ => .inl rfl
    next other =>
      refine .cons (.inl rfl) (ih.imp ?_)
      intro before after changed
      simpa [other] using changed

theorem mem_editTransfer_of_mem (id : String) (edit : TransferTask → TransferTask)
    {transfers : List TransferTask} {task : TransferTask} (inside : task ∈ transfers) :
    task ∈ editTransfer id edit transfers ∨
      (edit task ∈ editTransfer id edit transfers ∧
        transfers.find? (fun other => other.id = id) = some task) := by
  induction transfers with
  | nil => exact nomatch inside
  | cons first rest ih =>
    rw [editTransfer]
    split
    next same =>
      obtain rfl | later := mem_cons.mp inside
      · exact .inr ⟨mem_cons_self, by simp [same]⟩
      · exact .inl (mem_cons_of_mem _ later)
    next other =>
      obtain rfl | later := mem_cons.mp inside
      · exact .inl mem_cons_self
      · obtain kept | ⟨edited, found⟩ := ih later
        · exact .inl (mem_cons_of_mem _ kept)
        · exact .inr ⟨mem_cons_of_mem _ edited, by simpa [other] using found⟩

theorem mem_trimTransferHistory (sessionId : String) {task : TransferTask}
    (inside : task ∈ store.transfers) :
    task ∈ (store.trimTransferHistory sessionId).transfers ∨
      (task.sessionId = sessionId ∧ task.pending = false) := by
  unfold trimTransferHistory
  dsimp only
  split
  · exact .inl inside
  · obtain ⟨index, here⟩ := mem_iff_getElem?.mp inside
    have indexed : (task, index) ∈ store.transfers.zipIdx := mem_zipIdx_iff_getElem?.mpr here
    generalize (store.terminalTransfers sessionId).length - _ = toDrop
    by_cases removed : index ∈
        (((store.terminalTransfers sessionId).mergeSort finishedBefore).take toDrop).map (·.1)
    · right
      obtain ⟨pair, taken, rfl⟩ := mem_map.mp removed
      have listed := mem_mergeSort.mp (mem_of_mem_take taken)
      obtain ⟨entry, chosen, rfl⟩ := mem_map.mp listed
      obtain ⟨place, finished⟩ := mem_filter.mp chosen
      have same : store.transfers[entry.2]? = some entry.1 :=
        mem_zipIdx_iff_getElem?.mp place
      have same : task = entry.1 := Option.some.inj (here.symm.trans same)
      subst same
      simpa using finished
    · left
      refine mem_map.mpr ⟨(task, index), mem_filter.mpr ⟨indexed, ?_⟩, rfl⟩
      simpa using removed

theorem trimTransferHistory_sublist (sessionId : String) :
    (store.trimTransferHistory sessionId).transfers.Sublist store.transfers := by
  unfold trimTransferHistory
  dsimp only
  split
  · exact List.Sublist.refl _
  · have whole : store.transfers.zipIdx.map (·.1) = store.transfers := zipIdx_map_fst 0 _
    refine (filter_sublist.map _).trans ?_
    rw [whole]

end SessionStore

open SessionStore

theorem pushSystemEvent_transfers (eventId : String) (now : DateTime) (answer : TrySend)
    (sessionId text : String) (store : SessionStore) (sink : SystemEventSinkState) :
    ((pushSystemEvent eventId now answer sessionId text).run store sink).store.transfers =
      store.transfers := by
  cases known : store.profile sessionId with
  | none => simp [pushSystemEvent, run, known]
  | some profile =>
    simp only [pushSystemEvent, run, known]
    rw [trimEventsIfNeeded_transfers]

theorem recorded_transfers {α : Type} (value : α) (eventId : String) (now : DateTime)
    (answer : TrySend) (sessionId text : String) (store : SessionStore)
    (sink : SystemEventSinkState) :
    (((pushSystemEvent eventId now answer sessionId text).bind fun reported =>
        .done (.ok (value, reported.toList))).run store sink).store.transfers = store.transfers := by
  obtain ⟨reported, finished, _⟩ :=
    pushSystemEvent_reports eventId now answer sessionId text store sink
  rw [run_bind finished]
  exact pushSystemEvent_transfers eventId now answer sessionId text store sink

variable (world : TransferWorld)

theorem TransferWorld.commit_store {α : Type} (mutate : MutateClosure (α × List String))
    (outside : TransferSurroundings) :
    (world.commit mutate outside).2.store = (mutate.run world.store world.sink).store ∨
      (world.commit mutate outside).2.store = world.store := by
  unfold TransferWorld.commit commitTrackedStoreMutationWith
  dsimp only
  split
  · exact .inl rfl
  · split
    · exact .inl rfl
    · split
      · exact .inl rfl
      · exact .inr rfl
      · exact .inr rfl

open TransferWorld

theorem queueTransferClosure_transfers (task : TransferTask) (updating : Except String Unit)
    (outside : TransferSurroundings) (store : SessionStore) (sink : SystemEventSinkState) :
    ((queueTransferClosure task updating outside).run store sink).store.transfers =
        store.transfers ∨
      ((queueTransferClosure task updating outside).run store sink).store.transfers =
        (store.recordTransfer task).transfers := by
  simp only [queueTransferClosure, run]
  split
  · exact .inl rfl
  · split
    · exact .inl rfl
    · split
      · exact .inl rfl
      · exact .inr (recorded_transfers _ _ _ _ _ _ _ _)

variable (taskId : String)

variable (request : StartTransferRequest)

variable (outside : TransferSurroundings)

theorem markTransferRunningClosure_transfers (store : SessionStore) (sink : SystemEventSinkState) :
    ((markTransferRunningClosure taskId request outside).run store sink).store.transfers =
        store.transfers ∨
      ∃ task, store.transferById taskId = some task ∧ task.status ≠ .cancelled ∧
        ((markTransferRunningClosure taskId request outside).run store sink).store.transfers =
          editTransfer taskId (markRunning outside.now) store.transfers := by
  simp only [markTransferRunningClosure, run]
  split
  · exact .inl rfl
  next task found =>
    split
    · exact .inl rfl
    next live => exact .inr ⟨task, found, live, recorded_transfers _ _ _ _ _ _ _ _⟩

theorem recordTransferProgress_transfers (store : SessionStore) (taskId : String)
    (bytesDone bytesTotal : Nat) :
    (store.recordTransferProgress taskId bytesDone bytesTotal).2.transfers = store.transfers ∨
      ∃ task, store.transferById taskId = some task ∧ task.pending = true ∧
        (store.recordTransferProgress taskId bytesDone bytesTotal).2.transfers =
          editTransfer taskId (progressTask bytesDone bytesTotal) store.transfers := by
  unfold recordTransferProgress
  split
  · exact .inl rfl
  next task found =>
    split
    · exact .inl rfl
    · split
      · exact .inl rfl
      next active => exact .inr ⟨task, found, by simpa using active, rfl⟩

/-- What an event may do to a task that is there. -/
def TransferChange : TransferEvent → TransferTask → TransferTask → Prop
  | .queue .., _, _ => False
  | .markRunning taskId .., before, after =>
    before.id = taskId ∧ after.id = before.id ∧ before.status ≠ .cancelled ∧
      after.status = .running
  | .progress taskId .., before, after =>
    before.id = taskId ∧ after.id = before.id ∧ before.pending = true ∧
      after.status = before.status
  | .cancel transferId .., before, after =>
    before.id = transferId ∧ after.id = before.id ∧
      if before.pending then after.status = .cancelled else after = before
  | .finish taskId .., before, after =>
    before.id = taskId ∧ after.id = before.id ∧
      (before.status = .cancelled → after.status = .cancelled)

def QueuesTask : TransferEvent → TransferTask → Prop
  | .queue taskId .., task => task.id = taskId ∧ task.status = .queued
  | _, _ => False

theorem cancelTask_change (now : DateTime) (task : TransferTask) :
    (cancelTask now task).id = task.id ∧
      if task.pending then (cancelTask now task).status = .cancelled
      else cancelTask now task = task := by
  unfold cancelTask
  split
  · exact ⟨rfl, rfl⟩
  · exact ⟨rfl, rfl⟩

theorem finishTask_cancelled (status : TransferStatus) (message : String) (bytes : Option Nat)
    (now : DateTime) {task : TransferTask} (cancelled : task.status = .cancelled) :
    (finishTask status message bytes now task).status = .cancelled := by
  simp [finishTask, cancelled]

theorem queue_store (updating : Except String Unit) (outside : TransferSurroundings) :
    (transferRuntime.step world (.queue taskId request updating outside)).1.store =
      (world.commit (queueTransferClosure (queuedTask taskId request) updating outside)
        outside).2.store := by
  show (world.queueTransfer taskId request updating outside).2.1.store = _
  unfold queueTransfer
  split <;> next same => rw [same]

theorem markRunning_store :
    (transferRuntime.step world (.markRunning taskId request outside)).1.store =
      (world.commit (markTransferRunningClosure taskId request outside) outside).2.store := by
  show (world.markTransferRunning taskId request outside).2.1.store = _
  unfold markTransferRunning
  split <;> next same => rw [same]

theorem progress_store (bytesDone bytesTotal : Nat) :
    (transferRuntime.step world (.progress taskId bytesDone bytesTotal)).1.store =
      (world.store.recordTransferProgress taskId bytesDone bytesTotal).2 := by
  show (world.progress taskId bytesDone bytesTotal).2.1.store = _
  unfold TransferWorld.progress
  split <;> next same => rw [same]

theorem finishTask_id (status : TransferStatus) (message : String) (bytes : Option Nat)
    (now : DateTime) (task : TransferTask) :
    (finishTask status message bytes now task).id = task.id := rfl

variable (event : TransferEvent)

/-- Every task after an event was there before, or is the one it queues, or is one it changed. -/
theorem step_origin {task : TransferTask}
    (inside : task ∈ (transferRuntime.step world event).1.store.transfers) :
    task ∈ world.store.transfers ∨ QueuesTask event task ∨
      ∃ before ∈ world.store.transfers, TransferChange event before task := by
  cases event with
  | queue taskId request updating outside =>
    rw [queue_store] at inside
    obtain ran | kept := world.commit_store
      (queueTransferClosure (queuedTask taskId request) updating outside) outside
    · rw [ran] at inside
      obtain same | recorded := queueTransferClosure_transfers _ updating outside world.store world.sink
      · rw [same] at inside
        exact .inl inside
      · rw [recorded] at inside
        have pushed := (trimTransferHistory_sublist _ _).subset inside
        obtain old | new := mem_append.mp pushed
        · exact .inl old
        · obtain rfl := mem_singleton.mp new
          exact .inr (.inl ⟨rfl, rfl⟩)
    · rw [kept] at inside
      exact .inl inside
  | markRunning taskId request outside =>
    rw [markRunning_store] at inside
    obtain ran | kept := world.commit_store (markTransferRunningClosure taskId request outside) outside
    · rw [ran] at inside
      obtain same | ⟨found, isFound, live, edited⟩ :=
        markTransferRunningClosure_transfers taskId request outside world.store world.sink
      · rw [same] at inside
        exact .inl inside
      · rw [edited] at inside
        obtain old | ⟨before, present, named, rfl, first⟩ := mem_editTransfer inside
        · exact .inl old
        · obtain rfl := Option.some.inj (isFound.symm.trans first)
          exact .inr (.inr ⟨_, present, named, rfl, live, rfl⟩)
    · rw [kept] at inside
      exact .inl inside
  | progress taskId bytesDone bytesTotal =>
    rw [progress_store] at inside
    obtain same | ⟨found, isFound, active, edited⟩ :=
      recordTransferProgress_transfers world.store taskId bytesDone bytesTotal
    · rw [same] at inside
      exact .inl inside
    · rw [edited] at inside
      obtain old | ⟨before, present, named, rfl, first⟩ := mem_editTransfer inside
      · exact .inl old
      · obtain rfl := Option.some.inj (isFound.symm.trans first)
        exact .inr (.inr ⟨_, present, named, rfl, active, rfl⟩)
  | cancel transferId validation outside =>
    have inside : task ∈ (world.cancelTransferInner transferId validation outside).2.1.store.transfers :=
      inside
    unfold cancelTransferInner at inside
    split at inside
    · exact .inl inside
    · split at inside
      · exact .inl inside
      · have edited := (trimTransferHistory_sublist _ _).subset inside
        obtain old | ⟨before, present, named, rfl, _⟩ := mem_editTransfer edited
        · exact .inl old
        · exact .inr (.inr ⟨before, present, named, cancelTask_change outside.now before⟩)
  | finish taskId sessionId status message bytes expectations outside =>
    have inside : task ∈ (world.finishTransferTaskForGenerations taskId sessionId status message
        bytes expectations outside).2.1.store.transfers := inside
    unfold finishTransferTaskForGenerations at inside
    dsimp only at inside
    split at inside
    · exact .inl inside
    · rw [pushSystemEvent_transfers] at inside
      have edited := (trimTransferHistory_sublist _ _).subset inside
      obtain old | ⟨before, present, named, rfl, _⟩ := mem_editTransfer edited
      · exact .inl old
      · exact .inr (.inr ⟨before, present, named, rfl, finishTask_cancelled _ _ _ _⟩)

/-- An active task is still there and active after an event, or the event told its end. -/
theorem step_active {task : TransferTask} (inside : task ∈ world.store.transfers)
    (active : task.pending = true) :
    (∃ after ∈ (transferRuntime.step world event).1.store.transfers,
        after.id = task.id ∧ after.pending = true) ∨
      ∃ told ∈ (transferRuntime.step world event).2,
        told.id = task.id ∧ told.pending = false := by
  have trimmed : ∀ (store : SessionStore) sessionId (kept : TransferTask), kept ∈ store.transfers →
      kept.pending = true → kept ∈ (store.trimTransferHistory sessionId).transfers := by
    intro store sessionId kept present pending
    obtain stays | ⟨_, ended⟩ := store.mem_trimTransferHistory sessionId present
    · exact stays
    · rw [pending] at ended
      exact nomatch ended
  cases event with
  | queue taskId request updating outside =>
    left
    refine ⟨task, ?_, rfl, active⟩
    rw [queue_store]
    obtain ran | kept := world.commit_store
      (queueTransferClosure (queuedTask taskId request) updating outside) outside
    · rw [ran]
      obtain same | recorded := queueTransferClosure_transfers (queuedTask taskId request) updating
        outside world.store world.sink
      · rw [same]
        exact inside
      · rw [recorded]
        exact trimmed _ _ task (mem_append_left _ inside) active
    · rw [kept]
      exact inside
  | markRunning taskId request outside =>
    left
    rw [markRunning_store]
    obtain ran | kept := world.commit_store (markTransferRunningClosure taskId request outside) outside
    · rw [ran]
      obtain same | ⟨_, _, _, edited⟩ :=
        markTransferRunningClosure_transfers taskId request outside world.store world.sink
      · rw [same]
        exact ⟨task, inside, rfl, active⟩
      · rw [edited]
        obtain stays | ⟨changed, _⟩ := mem_editTransfer_of_mem taskId
          (markRunning outside.now) inside
        · exact ⟨task, stays, rfl, active⟩
        · exact ⟨_, changed, rfl, rfl⟩
    · rw [kept]
      exact ⟨task, inside, rfl, active⟩
  | progress taskId bytesDone bytesTotal =>
    left
    rw [progress_store]
    obtain same | ⟨_, _, _, edited⟩ :=
      recordTransferProgress_transfers world.store taskId bytesDone bytesTotal
    · rw [same]
      exact ⟨task, inside, rfl, active⟩
    · rw [edited]
      obtain stays | ⟨changed, _⟩ := mem_editTransfer_of_mem taskId
          (progressTask bytesDone bytesTotal) inside
      · exact ⟨task, stays, rfl, active⟩
      · exact ⟨_, changed, rfl, active⟩
  | cancel transferId validation outside =>
    show (∃ after ∈ (world.cancelTransferInner transferId validation outside).2.1.store.transfers,
        after.id = task.id ∧ after.pending = true) ∨
      ∃ told ∈ (world.cancelTransferInner transferId validation outside).2.2,
        told.id = task.id ∧ told.pending = false
    unfold cancelTransferInner
    split
    · exact .inl ⟨task, inside, rfl, active⟩
    · split
      · exact .inl ⟨task, inside, rfl, active⟩
      next found isFound =>
        obtain stays | ⟨_, first⟩ := mem_editTransfer_of_mem transferId
          (cancelTask outside.now) inside
        · exact .inl ⟨task, trimmed _ _ task stays active, rfl, active⟩
        · obtain rfl := Option.some.inj (isFound.symm.trans first)
          refine .inr ⟨_, mem_singleton.mpr rfl, ?_, ?_⟩
          · exact (cancelTask_change outside.now found).1
          · unfold cancelTask
            rw [if_pos active]
            rfl
  | finish taskId sessionId status message bytes expectations outside =>
    show (∃ after ∈ (world.finishTransferTaskForGenerations taskId sessionId status message bytes
          expectations outside).2.1.store.transfers, after.id = task.id ∧ after.pending = true) ∨
      ∃ told ∈ (world.finishTransferTaskForGenerations taskId sessionId status message bytes
          expectations outside).2.2, told.id = task.id ∧ told.pending = false
    unfold finishTransferTaskForGenerations
    dsimp only
    split
    · exact .inl ⟨task, inside, rfl, active⟩
    next found isFound =>
      rw [pushSystemEvent_transfers]
      generalize checkedCompletion world.store sessionId status (truncateForLog message 2000) bytes
        expectations = checked
      obtain ⟨ended, said, counted⟩ := checked
      dsimp only
      obtain stays | ⟨changed, first⟩ := mem_editTransfer_of_mem taskId
          (finishTask ended said counted outside.now) inside
      · exact .inl ⟨task, trimmed _ _ task stays active, rfl, active⟩
      · obtain rfl := Option.some.inj (isFound.symm.trans first)
        cases still : (finishTask ended said counted outside.now found).pending with
        | true => exact .inl ⟨_, trimmed _ _ _ changed still, rfl, still⟩
        | false => exact .inr ⟨_, mem_singleton.mpr rfl, rfl, still⟩

def TransferEvent.queuedId : TransferEvent → Option String
  | .queue taskId .. => some taskId
  | _ => none

def TransferEvent.workerId : TransferEvent → Option String
  | .markRunning taskId .. | .finish taskId .. => some taskId
  | _ => none

def TransferEvent.finishedId : TransferEvent → Option String
  | .finish taskId .. => some taskId
  | _ => none

namespace SessionStore

theorem editTransfer_ids (id : String) (edit : TransferTask → TransferTask)
    (keeps : ∀ task, (edit task).id = task.id) (transfers : List TransferTask) :
    (editTransfer id edit transfers).map (·.id) = transfers.map (·.id) := by
  induction transfers with
  | nil => rfl
  | cons first rest ih =>
    rw [editTransfer]
    split
    · simp [keeps]
    · simp [ih]

end SessionStore

/-- No id comes back: the ids after an event are among those before it and the one it queues. -/
theorem step_ids :
    ((transferRuntime.step world event).1.store.transfers.map (·.id)).Sublist
      (world.store.transfers.map (·.id) ++ event.queuedId.toList) := by
  have same : ∀ {ids : List String}, ids.Sublist (world.store.transfers.map (·.id)) →
      ids.Sublist (world.store.transfers.map (·.id) ++ event.queuedId.toList) :=
    fun sublist => sublist.trans (sublist_append_left _ _)
  cases event with
  | queue taskId request updating outside =>
    rw [queue_store]
    obtain ran | kept := world.commit_store
      (queueTransferClosure (queuedTask taskId request) updating outside) outside
    · rw [ran]
      obtain same' | recorded := queueTransferClosure_transfers (queuedTask taskId request) updating
        outside world.store world.sink
      · rw [same']
        exact same (List.Sublist.refl _)
      · rw [recorded]
        have trimmed := trimTransferHistory_sublist
          { world.store with transfers := world.store.transfers ++ [queuedTask taskId request] }
          request.sessionId
        have ids := trimmed.map (·.id)
        rw [map_append] at ids
        exact ids
    · rw [kept]
      exact same (List.Sublist.refl _)
  | markRunning taskId request outside =>
    apply same
    rw [markRunning_store]
    obtain ran | kept := world.commit_store (markTransferRunningClosure taskId request outside) outside
    · rw [ran]
      obtain same' | ⟨_, _, _, edited⟩ :=
        markTransferRunningClosure_transfers taskId request outside world.store world.sink
      · rw [same']
      · rw [edited, editTransfer_ids taskId (markRunning outside.now) fun _ => rfl]
    · rw [kept]
  | progress taskId bytesDone bytesTotal =>
    apply same
    rw [progress_store]
    obtain same' | ⟨_, _, _, edited⟩ :=
      recordTransferProgress_transfers world.store taskId bytesDone bytesTotal
    · rw [same']
    · rw [edited, editTransfer_ids taskId (progressTask bytesDone bytesTotal) fun _ => rfl]
  | cancel transferId validation outside =>
    apply same
    show ((world.cancelTransferInner transferId validation outside).2.1.store.transfers.map
      (·.id)).Sublist _
    unfold cancelTransferInner
    split
    · exact List.Sublist.refl _
    · split
      · exact List.Sublist.refl _
      · refine ((trimTransferHistory_sublist _ _).map _).trans ?_
        rw [editTransfer_ids transferId _ fun task => (cancelTask_change _ task).1]
  | finish taskId sessionId status message bytes expectations outside =>
    apply same
    show ((world.finishTransferTaskForGenerations taskId sessionId status message bytes
      expectations outside).2.1.store.transfers.map (·.id)).Sublist _
    unfold finishTransferTaskForGenerations
    dsimp only
    split
    · exact List.Sublist.refl _
    · rw [pushSystemEvent_transfers]
      refine ((trimTransferHistory_sublist _ _).map _).trans ?_
      rw [editTransfer_ids taskId _ fun task => finishTask_id _ _ _ _ task]

variable (events : List TransferEvent)

theorem run_ids :
    ((transferRuntime.run world events).1.store.transfers.map (·.id)).Sublist
      (world.store.transfers.map (·.id) ++ events.filterMap (·.queuedId)) := by
  induction events generalizing world with
  | nil => simp
  | cons event events ih =>
    have split : (event :: events).filterMap (·.queuedId) =
        event.queuedId.toList ++ events.filterMap (·.queuedId) := by
      cases queued : event.queuedId <;> simp [queued]
    have first := (step_ids world event).append_right (events.filterMap (·.queuedId))
    rw [append_assoc, ← split] at first
    exact (ih (transferRuntime.step world event).1).trans first

/-- The worker of a task does nothing for it once it has finished it. -/
def WorkerOrder : List String → List TransferEvent → Prop
  | _, [] => True
  | finished, event :: events =>
    (∀ id ∈ event.workerId, id ∉ finished) ∧ WorkerOrder (event.finishedId.toList ++ finished) events

theorem workerOrder_append {finished : List String} {events more : List TransferEvent}
    (order : WorkerOrder finished (events ++ more)) :
    WorkerOrder finished events ∧ ∃ later, (∀ id ∈ finished, id ∈ later) ∧
      (∀ event ∈ events, ∀ id ∈ event.finishedId, id ∈ later) ∧ WorkerOrder later more := by
  induction events generalizing finished with
  | nil =>
    exact ⟨trivial, finished, fun _ known => known, fun _ none => absurd none not_mem_nil, order⟩
  | cons event events ih =>
    obtain ⟨first, rest⟩ := order
    obtain ⟨kept, later, before, ended, after⟩ := ih rest
    refine ⟨⟨first, kept⟩, later, ?_, ?_, after⟩
    · exact fun id known => before id (mem_append_right _ known)
    · intro other inside id finishes
      obtain rfl | inside := mem_cons.mp inside
      · exact before id (mem_append_left _ (Option.mem_toList.mpr finishes))
      · exact ended other inside id finishes

def TransferTask.ended (task : TransferTask) : Bool :=
  match task.status with
  | .completed | .failed => true
  | _ => false

theorem run_ended :
    ∀ task ∈ (transferRuntime.run world events).1.store.transfers, task.ended = true →
      (∃ first ∈ world.store.transfers, first.id = task.id ∧ first.ended = true) ∨
        ∃ event ∈ events, event.finishedId = some task.id := by
  induction events generalizing world with
  | nil => exact fun task inside ended => .inl ⟨task, inside, rfl, ended⟩
  | cons event events ih =>
    intro task inside ended
    obtain ⟨first, present, same, firstEnded⟩ | ⟨finish, later, finishes⟩ :=
      ih (transferRuntime.step world event).1 task inside ended
    · obtain old | queued | ⟨before, there, change⟩ := step_origin world event present
      · exact .inl ⟨first, old, same, firstEnded⟩
      · cases event with
        | queue taskId request updating outside => simp [TransferTask.ended, queued.2] at firstEnded
        | markRunning => exact queued.elim
        | progress => exact queued.elim
        | cancel => exact queued.elim
        | finish => exact queued.elim
      · cases event with
        | queue => exact change.elim
        | markRunning taskId request outside =>
          simp [TransferTask.ended, change.2.2.2] at firstEnded
        | progress taskId bytesDone bytesTotal =>
          obtain ⟨_, named, _, status⟩ := change
          refine .inl ⟨before, there, named.symm.trans same, ?_⟩
          rw [← firstEnded]
          simp [TransferTask.ended, status]
        | cancel transferId validation outside =>
          obtain ⟨_, named, outcome⟩ := change
          split at outcome
          · simp [TransferTask.ended, outcome] at firstEnded
          · rw [outcome] at firstEnded same
            exact .inl ⟨before, there, same, firstEnded⟩
        | finish taskId sessionId status message bytes expectations outside =>
          obtain ⟨isTask, named, _⟩ := change
          have finishes : some taskId = some task.id := by rw [← isTask, ← named, same]
          exact .inr ⟨.finish taskId sessionId status message bytes expectations outside,
            mem_cons_self, finishes⟩
    · exact .inr ⟨finish, mem_cons_of_mem _ later, finishes⟩

theorem run_absorbs {id : String} {status : TransferStatus}
    (inactive : status ≠ .queued ∧ status ≠ .running)
    (all : ∀ task ∈ world.store.transfers, task.id = id → task.status = status)
    (fresh : ∀ event ∈ events, event.queuedId ≠ some id)
    (calm : status = .cancelled ∨ ∀ event ∈ events, event.workerId ≠ some id) :
    ∀ task ∈ (transferRuntime.run world events).1.store.transfers, task.id = id →
      task.status = status := by
  induction events generalizing world with
  | nil => exact all
  | cons event events ih =>
    obtain ⟨notQueued, fresh⟩ := forall_mem_cons.mp fresh
    refine ih (transferRuntime.step world event).1 ?_ fresh
      (calm.imp_right fun calm => (forall_mem_cons.mp calm).2)
    intro task inside same
    obtain old | queued | ⟨before, present, change⟩ := step_origin world event inside
    · exact all task old same
    · cases event with
      | queue taskId request updating outside =>
        exact absurd (congrArg some (queued.1.symm.trans same)) notQueued
      | markRunning => exact queued.elim
      | progress => exact queued.elim
      | cancel => exact queued.elim
      | finish => exact queued.elim
    · cases event with
      | queue => exact change.elim
      | markRunning taskId request outside =>
        obtain ⟨isTask, named, live, _⟩ := change
        have beforeStatus := all before present (named.symm.trans same)
        obtain cancelled | calm := calm
        · exact absurd (beforeStatus.trans cancelled) live
        · have other := calm _ mem_cons_self
          exact absurd (congrArg some ((isTask.symm.trans named.symm).trans same)) other
      | progress taskId bytesDone bytesTotal =>
        obtain ⟨_, named, _, status⟩ := change
        exact status.trans (all before present (named.symm.trans same))
      | cancel transferId validation outside =>
        obtain ⟨_, named, outcome⟩ := change
        have beforeStatus := all before present (named.symm.trans same)
        split at outcome
        next active =>
          unfold TransferTask.pending at active
          rw [beforeStatus] at active
          cases status <;> simp_all
        next => rw [outcome, beforeStatus]
      | finish taskId sessionId ended message bytes expectations outside =>
        obtain ⟨isTask, named, keeps⟩ := change
        have beforeStatus := all before present (named.symm.trans same)
        obtain cancelled | calm := calm
        · rw [cancelled]
          exact keeps (beforeStatus.trans cancelled)
        · have other := calm _ mem_cons_self
          exact absurd (congrArg some ((isTask.symm.trans named.symm).trans same)) other

theorem WorkerOrder.leaves {finished : List String} {events : List TransferEvent}
    (order : WorkerOrder finished events) {id : String} (done : id ∈ finished) :
    ∀ event ∈ events, event.workerId ≠ some id := by
  induction events generalizing finished with
  | nil => exact fun event none => absurd none not_mem_nil
  | cons event events ih =>
    obtain ⟨first, rest⟩ := order
    refine forall_mem_cons.mpr ⟨fun works => first id works done, ?_⟩
    exact ih rest (mem_append_right _ done)

theorem unique_of_fresh {world : TransferWorld} {before after : List TransferEvent}
    (fresh : (world.store.transfers.map (·.id) ++
      (before ++ after).filterMap (·.queuedId)).Nodup) :
    ((transferRuntime.run world before).1.store.transfers.map (·.id) ++
      after.filterMap (·.queuedId)).Nodup := by
  rw [filterMap_append, ← append_assoc] at fresh
  exact ((run_ids world before).append_right _).nodup fresh

theorem same_status_of_nodup {transfers : List TransferTask}
    (unique : (transfers.map (·.id)).Nodup) {task : TransferTask} (inside : task ∈ transfers) :
    ∀ other ∈ transfers, other.id = task.id → other.status = task.status := by
  intro other present same
  have one := inj_on_of_nodup_map unique present inside same
  rw [one]

/-- A cancelled task stays cancelled, and a task that its worker has completed or failed stays so as
long as the worker leaves it alone; progress reports touch only active tasks under their own id; and
the last that is told of a task which leaves the active ones is that it has ended. -/
theorem transfer_states_absorb (start : TransferWorld) (before after : List TransferEvent)
    (fresh : (start.store.transfers.map (·.id) ++
      (before ++ after).filterMap (·.queuedId)).Nodup) :
    let reached := (transferRuntime.run start before).1
    let final := (transferRuntime.run reached after).1
    (∀ task ∈ reached.store.transfers, task.status = .cancelled →
        ∀ later ∈ final.store.transfers, later.id = task.id → later.status = .cancelled) ∧
      (WorkerOrder ((start.store.transfers.filter (·.ended)).map (·.id)) (before ++ after) →
        ∀ task ∈ reached.store.transfers, task.pending = false →
          ∀ later ∈ final.store.transfers, later.id = task.id → later.status = task.status) ∧
      (∀ taskId bytesDone bytesTotal,
        List.Forall₂
          (fun old new => new = old ∨ (old.id = taskId ∧ old.pending = true ∧
            new = progressTask bytesDone bytesTotal old))
          reached.store.transfers
          (transferRuntime.step reached (.progress taskId bytesDone bytesTotal)).1.store.transfers) ∧
      ∀ event, ∀ task ∈ reached.store.transfers, task.pending = true →
        (∃ later ∈ (transferRuntime.step reached event).1.store.transfers,
            later.id = task.id ∧ later.pending = true) ∨
          ∃ told ∈ (transferRuntime.step reached event).2,
            told.id = task.id ∧ told.pending = false := by
  intro reached final
  have unique := unique_of_fresh fresh
  have distinct := nodup_append.mp unique
  have notQueued : ∀ task ∈ reached.store.transfers, ∀ event ∈ after,
      event.queuedId ≠ some task.id := by
    intro task inside event listed queues
    have known : task.id ∈ reached.store.transfers.map (·.id) := mem_map_of_mem inside
    exact distinct.2.2 _ known _ (mem_filterMap.mpr ⟨event, listed, queues⟩) rfl
  refine ⟨?_, ?_, ?_, ?_⟩
  · intro task inside cancelled
    have all := same_status_of_nodup distinct.1 inside
    rw [cancelled] at all
    exact run_absorbs reached after ⟨nofun, nofun⟩ all (notQueued task inside) (.inl rfl)
  · intro order task inside inactive
    have all := same_status_of_nodup distinct.1 inside
    have inactiveStatus : task.status ≠ .queued ∧ task.status ≠ .running := by
      constructor <;> intro status <;> simp [TransferTask.pending, status] at inactive
    refine run_absorbs reached after inactiveStatus all (notQueued task inside) ?_
    by_cases cancelled : task.status = .cancelled
    · exact .inl cancelled
    · have ended : task.ended = true := by
        cases status : task.status <;> simp_all [TransferTask.ended]
      obtain ⟨_, later, kept, finished, rest⟩ := workerOrder_append order
      right
      obtain ⟨first, present, same, firstEnded⟩ | ⟨finish, listed, finishes⟩ :=
        run_ended start before task inside ended
      · have known : first.id ∈ (start.store.transfers.filter (·.ended)).map (·.id) :=
          mem_map_of_mem (mem_filter.mpr ⟨present, firstEnded⟩)
        rw [same] at known
        exact rest.leaves (kept _ known)
      · exact rest.leaves (finished finish listed _ finishes)
  · intro taskId bytesDone bytesTotal
    rw [progress_store]
    obtain same | ⟨found, isFound, active, edited⟩ :=
      recordTransferProgress_transfers reached.store taskId bytesDone bytesTotal
    · rw [same]
      exact forall₂_same.mpr fun _ _ => .inl rfl
    · rw [edited]
      refine (editTransfer_forall₂ reached.store.transfers).imp ?_
      rintro old new (same | ⟨named, changed, first⟩)
      · exact .inl same
      · obtain rfl := Option.some.inj (isFound.symm.trans first)
        exact .inr ⟨named, active, changed⟩
  · intro event task inside active
    exact step_active reached event inside active

def uploadRequest : StartTransferRequest := ⟨"ssh-session-1", .sftp, "/tmp/a.bin", "remote:/a.bin"⟩

def quietSurroundings : TransferSurroundings :=
  ⟨"event-1", 1, .sent, fun _ => .ok (), fun _ => .ok true⟩

def uploadFinished : TransferEvent :=
  .finish "task-1" "ssh-session-1" .completed "completed" (some 4) {} quietSurroundings

def uploadStarted : TransferEvent := .markRunning "task-1" uploadRequest quietSurroundings

def uploadCancelled : TransferEvent := .cancel "task-1" (.ok ()) quietSurroundings

def queuedUpload : TransferWorld :=
  ⟨{ benchStore with transfers := [queuedTask "task-1" uploadRequest] }, ⟨.active, []⟩⟩

/-- Cancelled between its start and the report of its worker: the report does not complete it. -/
theorem cancelled_upload_stays_cancelled :
    ∃ later ∈ (transferRuntime.run (transferRuntime.run queuedUpload
        [uploadStarted, uploadCancelled]).1
        [.progress "task-1" 4 4, uploadFinished]).1.store.transfers,
      later.id = "task-1" ∧ later.status = .cancelled := by
  have absorbs := transfer_states_absorb queuedUpload [uploadStarted, uploadCancelled]
    [.progress "task-1" 4 4, uploadFinished] (by decide)
  have cancelled : cancelTask 1 (markRunning 1 (queuedTask "task-1" uploadRequest)) ∈
      (transferRuntime.run queuedUpload [uploadStarted, uploadCancelled]).1.store.transfers := by
    decide
  have kept : ∃ later ∈ (transferRuntime.run (transferRuntime.run queuedUpload
      [uploadStarted, uploadCancelled]).1
      [.progress "task-1" 4 4, uploadFinished]).1.store.transfers, later.id = "task-1" := by
    decide
  obtain ⟨later, inside, named⟩ := kept
  exact ⟨later, inside, named, absorbs.1 _ cancelled rfl later inside named⟩

/-- A task marked as running once more after its worker finished it is active again. -/
theorem completed_upload_marked_running :
    let finished := (transferRuntime.run queuedUpload [uploadStarted, uploadFinished]).1
    (∃ task ∈ finished.store.transfers, task.id = "task-1" ∧ task.status = .completed) ∧
      ∃ later ∈ (transferRuntime.run finished [uploadStarted]).1.store.transfers,
        later.id = "task-1" ∧ later.status = .running := by
  decide

end PortMate
