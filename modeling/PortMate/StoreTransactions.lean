import PortMate.StoreClosures

namespace PortMate

open List

inductive StoreCommitState
  | notCommitted | unknown
  deriving DecidableEq

structure StoreCommitError where
  state : StoreCommitState
  message : String
  deriving DecidableEq

def StoreCommitError.notCommitted (message : String) : StoreCommitError := ⟨.notCommitted, message⟩

def StoreCommitError.unknown (message : String) : StoreCommitError := ⟨.unknown, message⟩

/-- What a commit returns, with the store behind the `&mut` and the shared sink. -/
structure Committed (ε α : Type) where
  result : Except ε α
  store : SessionStore
  sink : SystemEventSinkState

section Commit

variable {α : Type}

def undecidedCommit (saveError verifyError : String) : String :=
  s!"{saveError}; 无法判定 Store 提交是否生效，请重启应用: {verifyError}"

def commitStoreMutationWithState (store : SessionStore) (sink : SystemEventSinkState)
    (mutate : MutateClosure α) (persist : SessionStore → Except String Unit)
    (verifyAfterError : SessionStore → Except String Bool) : Committed StoreCommitError α :=
  -- `store.clone()` copies the fields and shares the sink.
  let attempt := mutate.run store sink
  match attempt.result with
  | .error error => ⟨.error (.notCommitted error), store, attempt.sink⟩
  | .ok result =>
    match persist attempt.store with
    | .ok () => ⟨.ok result, attempt.store, attempt.sink⟩
    | .error saveError =>
      match verifyAfterError attempt.store with
      | .ok true => ⟨.ok result, attempt.store, attempt.sink⟩
      | .ok false => ⟨.error (.notCommitted saveError), store, attempt.sink⟩
      | .error verifyError =>
        ⟨.error (.unknown (undecidedCommit saveError verifyError)), store, attempt.sink⟩

def commitTrackedStoreMutationWith (store : SessionStore) (sink : SystemEventSinkState)
    (mutate : MutateClosure (α × List String)) (persist : SessionStore → Except String Unit)
    (verifyAfterError : SessionStore → Except String Bool) : Committed String α :=
  let before := store
  let attempt := mutate.run store sink
  match attempt.result with
  | .error error => ⟨.error error, attempt.store, attempt.sink⟩
  | .ok (result, eventIds) =>
    match persist attempt.store with
    | .ok () => ⟨.ok result, attempt.store, attempt.sink⟩
    | .error saveError =>
      match verifyAfterError attempt.store with
      | .ok true => ⟨.ok result, attempt.store, attempt.sink⟩
      | .ok false => ⟨.error saveError, before, attempt.sink.discardEvents eventIds⟩
      | .error verifyError =>
        ⟨.error (undecidedCommit saveError verifyError), before,
          attempt.sink.discardEvents eventIds⟩

/-- A failed commit leaves the store of the caller and none of the attempt's events. -/
def RollsBack {ε β : Type} (store : SessionStore) (attempt : MutateOutcome β)
    (committed : Committed ε α) : Prop :=
  ∀ error, committed.result = .error error →
    committed.store = store ∧ ∀ envelope ∈ attempt.enqueued, envelope ∉ committed.sink.outbox

/-- A commit that succeeds is the attempt itself: its store, and its events behind the others. -/
def Publishes {ε β : Type} (sink : SystemEventSinkState) (attempt : MutateOutcome β)
    (committed : Committed ε α) : Prop :=
  ∀ value, committed.result = .ok value →
    committed.store = attempt.store ∧ committed.sink.outbox = sink.outbox ++ attempt.enqueued

section Paths

variable (store : SessionStore) (sink : SystemEventSinkState)
  (persist : SessionStore → Except String Unit) (verifyAfterError : SessionStore → Except String Bool)

variable (mutate : MutateClosure α)

theorem commitStoreMutationWithState_cases :
    (∃ value, commitStoreMutationWithState store sink mutate persist verifyAfterError =
      ⟨.ok value, (mutate.run store sink).store, (mutate.run store sink).sink⟩) ∨
    ∃ error, commitStoreMutationWithState store sink mutate persist verifyAfterError =
      ⟨.error error, store, (mutate.run store sink).sink⟩ := by
  unfold commitStoreMutationWithState
  dsimp only
  split
  next error _ => exact .inr ⟨_, rfl⟩
  next value _ =>
    split
    next => exact .inl ⟨_, rfl⟩
    next saveError _ =>
      split
      · exact .inl ⟨_, rfl⟩
      · exact .inr ⟨_, rfl⟩
      · exact .inr ⟨_, rfl⟩

theorem commitTrackedStoreMutationWith_cases (mutate : MutateClosure (α × List String)) :
    (∃ value, commitTrackedStoreMutationWith store sink mutate persist verifyAfterError =
      ⟨.ok value, (mutate.run store sink).store, (mutate.run store sink).sink⟩) ∨
    (∃ value eventIds error, (mutate.run store sink).result = .ok (value, eventIds) ∧
      commitTrackedStoreMutationWith store sink mutate persist verifyAfterError =
        ⟨.error error, store, (mutate.run store sink).sink.discardEvents eventIds⟩) ∨
    ∃ error, (mutate.run store sink).result = .error error ∧
      commitTrackedStoreMutationWith store sink mutate persist verifyAfterError =
        ⟨.error error, (mutate.run store sink).store, (mutate.run store sink).sink⟩ := by
  unfold commitTrackedStoreMutationWith
  dsimp only
  split
  next error failed => exact .inr (.inr ⟨error, failed, rfl⟩)
  next value eventIds finished =>
    split
    next => exact .inl ⟨_, rfl⟩
    next saveError _ =>
      split
      · exact .inl ⟨_, rfl⟩
      · exact .inr (.inl ⟨value, eventIds, _, finished, rfl⟩)
      · exact .inr (.inl ⟨value, eventIds, _, finished, rfl⟩)

theorem commitStoreMutationWithState_publishes :
    Publishes sink (mutate.run store sink)
      (commitStoreMutationWithState store sink mutate persist verifyAfterError) := by
  intro value succeeded
  obtain ⟨kept, same⟩ | ⟨error, same⟩ :=
    commitStoreMutationWithState_cases store sink persist verifyAfterError mutate
  · rw [same]
    exact ⟨rfl, mutate.run_outbox store sink⟩
  · simp [same] at succeeded

theorem commitStoreMutationWithState_failed {mutate : MutateClosure α} {error : StoreCommitError}
    (failed : (commitStoreMutationWithState store sink mutate persist verifyAfterError).result =
      .error error) :
    (commitStoreMutationWithState store sink mutate persist verifyAfterError).store = store ∧
      (commitStoreMutationWithState store sink mutate persist verifyAfterError).sink.outbox =
        sink.outbox ++ (mutate.run store sink).enqueued := by
  obtain ⟨kept, same⟩ | ⟨kept, same⟩ :=
    commitStoreMutationWithState_cases store sink persist verifyAfterError mutate
  · simp [same] at failed
  · rw [same]
    exact ⟨rfl, mutate.run_outbox store sink⟩

theorem commitTrackedStoreMutationWith_publishes (mutate : MutateClosure (α × List String)) :
    Publishes sink (mutate.run store sink)
      (commitTrackedStoreMutationWith store sink mutate persist verifyAfterError) := by
  intro value succeeded
  obtain ⟨kept, same⟩ | ⟨_, _, error, _, same⟩ | ⟨error, _, same⟩ :=
    commitTrackedStoreMutationWith_cases store sink persist verifyAfterError mutate
  · rw [same]
    exact ⟨rfl, mutate.run_outbox store sink⟩
  · simp [same] at succeeded
  · simp [same] at succeeded

theorem commitTrackedStoreMutationWith_failed {mutate : MutateClosure (α × List String)}
    {value : α} {eventIds : List String} {error : String}
    (finished : (mutate.run store sink).result = .ok (value, eventIds))
    (failed : (commitTrackedStoreMutationWith store sink mutate persist verifyAfterError).result =
      .error error) :
    (commitTrackedStoreMutationWith store sink mutate persist verifyAfterError).store = store ∧
      (commitTrackedStoreMutationWith store sink mutate persist verifyAfterError).sink.outbox =
        (sink.outbox ++ (mutate.run store sink).enqueued).filter
          fun envelope => envelope.1.id ∉ eventIds := by
  obtain ⟨kept, same⟩ | ⟨_, reported, _, finished', same⟩ | ⟨_, failed', _⟩ :=
    commitTrackedStoreMutationWith_cases store sink persist verifyAfterError mutate
  · simp [same] at failed
  · obtain ⟨rfl, rfl⟩ := Prod.mk.inj (Except.ok.inj (finished'.symm.trans finished))
    rw [same]
    refine ⟨rfl, ?_⟩
    rw [SystemEventSinkState.discardEvents_outbox, mutate.run_outbox]
  · simp [failed'] at finished

theorem filter_reported {attempt : MutateOutcome (α × List String)} {eventIds : List String}
    (reports : attempt.Reports eventIds) (pending : List SystemEventEnvelope) :
    (pending ++ attempt.enqueued).filter (fun envelope => envelope.1.id ∉ eventIds) =
      pending.filter fun envelope => envelope.1.id ∉ eventIds := by
  have gone : attempt.enqueued.filter (fun envelope => decide (envelope.1.id ∉ eventIds)) = [] := by
    rw [filter_eq_nil_iff]
    intro envelope taken
    simpa using reports envelope taken
  rw [List.filter_append, gone, append_nil]

end Paths

theorem store_commits_atomic (store : SessionStore) (sink : SystemEventSinkState)
    (persist : SessionStore → Except String Unit)
    (verifyAfterError : SessionStore → Except String Bool) :
    (∀ mutate : MutateClosure α,
      let attempt := mutate.run store sink
      let committed := commitStoreMutationWithState store sink mutate persist verifyAfterError
      Publishes sink attempt committed ∧
      ∀ error, committed.result = .error error →
        committed.store = store ∧ (attempt.enqueued = [] → committed.sink.outbox = sink.outbox)) ∧
    ∀ mutate : MutateClosure (α × List String),
      let attempt := mutate.run store sink
      let committed := commitTrackedStoreMutationWith store sink mutate persist verifyAfterError
      Publishes sink attempt committed ∧
      ∀ value eventIds, attempt.result = .ok (value, eventIds) → attempt.Reports eventIds →
        RollsBack store attempt committed ∧
        ∀ error, committed.result = .error error → committed.sink.outbox =
          sink.outbox.filter fun envelope => envelope.1.id ∉ eventIds := by
  refine ⟨fun mutate => ⟨?_, ?_⟩, fun mutate => ⟨?_, ?_⟩⟩
  · exact commitStoreMutationWithState_publishes store sink persist verifyAfterError mutate
  · intro error failed
    obtain ⟨restored, outbox⟩ :=
      commitStoreMutationWithState_failed store sink persist verifyAfterError failed
    refine ⟨restored, fun quiet => ?_⟩
    rw [outbox, quiet, append_nil]
  · exact commitTrackedStoreMutationWith_publishes store sink persist verifyAfterError mutate
  · intro value eventIds finished reports
    have rolledBack : ∀ error,
        (commitTrackedStoreMutationWith store sink mutate persist verifyAfterError).result =
          .error error →
        (commitTrackedStoreMutationWith store sink mutate persist verifyAfterError).store = store ∧
        (commitTrackedStoreMutationWith store sink mutate persist verifyAfterError).sink.outbox =
          sink.outbox.filter fun envelope => envelope.1.id ∉ eventIds := by
      intro error failed
      obtain ⟨restored, outbox⟩ := commitTrackedStoreMutationWith_failed store sink persist
        verifyAfterError finished failed
      exact ⟨restored, outbox.trans (filter_reported reports sink.outbox)⟩
    refine ⟨fun error failed => ⟨(rolledBack error failed).1, ?_⟩,
      fun error failed => (rolledBack error failed).2⟩
    intro envelope taken pending
    rw [(rolledBack error failed).2] at pending
    have unreported := of_mem_filter pending
    simp [reports envelope taken] at unreported

end Commit

/-- A store with one profile, and a sink that still holds an event of an earlier commit. -/
def benchStore : SessionStore :=
  { SessionStore.default with
    profiles := [⟨"ssh-session-1", "bench", .ssh, "lab", []⟩] }

def retainedEvent : SystemEventEnvelope :=
  (systemEvent "event-0" "ssh-session-1" "retained before transaction" 0, none)

def benchSink : SystemEventSinkState := ⟨.active, [retainedEvent]⟩

def connectedClosure : MutateClosure (Unit × List String) :=
  (pushSystemEvent "event-1" 1 .sent "ssh-session-1" "PortMate: connected").bind fun eventId =>
    .done (.ok ((), eventId.toList))

theorem full_disk_takes_the_event_back :
    let committed := commitTrackedStoreMutationWith benchStore benchSink connectedClosure
      (fun _ => .error "disk full") fun _ => .ok false
    (connectedClosure.run benchStore benchSink).enqueued ≠ [] ∧
      committed.store = benchStore ∧ committed.sink.outbox = [retainedEvent] := by
  have closed : (connectedClosure.run benchStore benchSink).result = .ok ((), ["event-1"]) := by
    rfl
  have failed : (commitTrackedStoreMutationWith benchStore benchSink connectedClosure
      (fun _ => .error "disk full") fun _ => .ok false).result = .error "disk full" := by
    rfl
  have atomic := ((store_commits_atomic benchStore benchSink (fun _ => .error "disk full")
    fun _ => .ok false).2 connectedClosure).2 () ["event-1"] closed
    (by unfold MutateOutcome.Reports; decide)
  exact ⟨by decide, (atomic.1 _ failed).1, (atomic.2 _ failed).trans (by decide)⟩

/-- The clones share the sink: an event enqueued on the clone outlives the failed commit. -/
theorem clone_commit_keeps_the_event :
    ¬ ∀ (store : SessionStore) (sink : SystemEventSinkState)
        (mutate : MutateClosure (Unit × List String)) (persist : SessionStore → Except String Unit)
        (verifyAfterError : SessionStore → Except String Bool),
      RollsBack store (mutate.run store sink)
        (commitStoreMutationWithState store sink mutate persist verifyAfterError) := by
  intro claimed
  have rolledBack := claimed benchStore benchSink connectedClosure (fun _ => .error "disk full")
    (fun _ => .ok false) (.notCommitted "disk full") rfl
  exact absurd rolledBack.2 (by decide)

end PortMate
