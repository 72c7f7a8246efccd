import Mathlib.Data.List.Nodup
import PortMate.SessionModels
import PortMate.Transducer

namespace PortMate

open List Bool Nat
namespace SyncInput

inductive SyncNewlineMode
  | protocol
  | preserve
  | lf
  | crlf
  deriving DecidableEq

structure SyncInputSettings where
  protocols : List SessionKind
  newlineMode : SyncNewlineMode
  delayMs : Nat
  prefixText : List Char
  suffixText : List Char

structure SyncInputCandidate where
  id : String
  kind : SessionKind
  connected : Bool

structure SyncInputBatch where
  sourceId : String
  text : List Char
  broadcastEnabled : Bool
  applyAffixes : Bool
  settings : SyncInputSettings
  candidates : List SyncInputCandidate
  /-- The epochs that were captured, `null` for some. -/
  targetEpochs : List (String × Option Nat)

structure SyncInputDispatchResult where
  succeeded : List String := []
  failed : List String := []
  skipped : List String := []

section Targets

def addTarget (sourceId : String) (settings : SyncInputSettings) (targets : List String)
    (candidate : SyncInputCandidate) : List String :=
  if candidate.id ≠ sourceId && candidate.connected && settings.protocols.contains candidate.kind &&
      !targets.contains candidate.id then
    targets ++ [candidate.id]
  else targets

def resolveSyncInputTargets (sourceId : String) (candidates : List SyncInputCandidate)
    (settings : SyncInputSettings) : List String :=
  if sourceId = "" then []
  else
    match candidates.find? fun candidate => candidate.id = sourceId with
    | none => [sourceId]
    | some source => candidates.foldl (addTarget sourceId settings) [source.id]

def SyncInputBatch.targets (batch : SyncInputBatch) : List String :=
  if batch.broadcastEnabled then
    resolveSyncInputTargets batch.sourceId batch.candidates batch.settings
  else [batch.sourceId]

/-- `replace(/\r\n|\r|\n/g, newline)`. -/
def replaceNewlines (newline : List Char) : List Char → List Char
  | [] => []
  | '\r' :: '\n' :: rest => newline ++ replaceNewlines newline rest
  | c :: rest =>
    if c = '\r' ∨ c = '\n' then newline ++ replaceNewlines newline rest
    else c :: replaceNewlines newline rest

def formatDirectInput (text : List Char) (targetKind : Option SessionKind) : List Char :=
  if targetKind = some .telnet then replaceNewlines ['\r', '\n'] text else text

def formatSyncInput (text : List Char) (settings : SyncInputSettings)
    (targetKind : Option SessionKind) (applyAffixes : Bool) : List Char :=
  let payload :=
    if applyAffixes then settings.prefixText ++ text ++ settings.suffixText else text
  match settings.newlineMode with
  | .protocol =>
    if targetKind = some .telnet then formatDirectInput payload targetKind else payload
  | .lf => replaceNewlines ['\n'] payload
  | .crlf => replaceNewlines ['\r', '\n'] payload
  | .preserve => payload

def SyncInputBatch.payload (batch : SyncInputBatch) (sessionId : String) : List Char :=
  let kind := (batch.candidates.find? fun item => item.id = sessionId).map fun item => item.kind
  if batch.broadcastEnabled then formatSyncInput batch.text batch.settings kind batch.applyAffixes
  else formatDirectInput batch.text kind

end Targets

/-- What waits in the queue; a batch with the generation of its time, and whether its caller can
tell which targets are current. -/
inductive SyncTask
  | batch (batch : SyncInputBatch) (generation : Nat) (checksTargets : Bool)
  | operation

/-- Where a batch waits for a promise, or that it has been settled. -/
inductive SyncPhase
  | sending
  | settled (ok : Bool)
  | delaying
  | awake
  deriving DecidableEq

structure SyncDispatch where
  batch : SyncInputBatch
  generation : Nat
  checksTargets : Bool
  sessionId : String
  later : List String
  result : SyncInputDispatchResult
  phase : SyncPhase

inductive RunningTask
  | dispatch (dispatch : SyncDispatch)
  | operation

/-- The dispatcher with every task that it was given; `finished` of them are done. The last two
fields are what the callbacks of its callers would answer now. -/
structure SyncInputDispatcher where
  broadcastGeneration : Nat
  tasks : List SyncTask
  finished : Nat
  running : Option RunningTask
  isBroadcastEnabled : Nat → Bool
  isTargetCurrent : String → Option Nat → Bool

inductive SyncEvent
  | enqueue (batch : SyncInputBatch) (checksTargets : Bool)
  | enqueueOperation
  | cancelBroadcasts
  | reported (isBroadcastEnabled : Nat → Bool)
  | reconnected (isTargetCurrent : String → Option Nat → Bool)
  /-- The promise of the task before has been settled. -/
  | start
  | sent (ok : Bool)
  | delayElapsed
  /-- What awaited a promise goes on. -/
  | resume
  | operationDone

inductive SyncSignal
  | started (number : Nat)
  | sends (number : Nat) (sessionId : String) (payload : List Char)
  | finished (number : Nat) (result : Option SyncInputDispatchResult)

inductive SyncTurn
  | finished (result : SyncInputDispatchResult)
  | sends (sessionId : String) (later : List String) (result : SyncInputDispatchResult)

namespace SyncInputDispatcher

def isStale (state : SyncInputDispatcher) (batch : SyncInputBatch) (checksTargets : Bool)
    (sessionId : String) : Bool :=
  match batch.targetEpochs.lookup sessionId with
  | none => false
  | some epoch => checksTargets && !state.isTargetCurrent sessionId epoch

/-- The loop from a target on, up to the next `send`. -/
def turns (state : SyncInputDispatcher) (batch : SyncInputBatch) (generation : Nat)
    (checksTargets : Bool) (first : Bool) (result : SyncInputDispatchResult) :
    List String → SyncTurn
  | [] => .finished result
  | sessionId :: later =>
    if !first && (!state.isBroadcastEnabled state.finished ||
        generation ≠ state.broadcastGeneration) then
      .finished { result with skipped := result.skipped ++ sessionId :: later }
    else if state.isStale batch checksTargets sessionId then
      turns state batch generation checksTargets false
        { result with skipped := result.skipped ++ [sessionId] } later
    else .sends sessionId later result

def advance (state : SyncInputDispatcher) (batch : SyncInputBatch) (generation : Nat)
    (checksTargets : Bool) (first : Bool) (result : SyncInputDispatchResult)
    (targets : List String) : SyncInputDispatcher × List SyncSignal :=
  match state.turns batch generation checksTargets first result targets with
  | .finished result =>
    ({ state with running := none, finished := state.finished + 1 },
      [.finished state.finished (some result)])
  | .sends sessionId later result =>
    ({ state with
        running := some (.dispatch
          { batch := batch
            generation := generation
            checksTargets := checksTargets
            sessionId := sessionId
            later := later
            result := result
            phase := .sending }) },
      [.sends state.finished sessionId (batch.payload sessionId)])

def start (state : SyncInputDispatcher) : SyncInputDispatcher × List SyncSignal :=
  match state.running, state.tasks[state.finished]? with
  | none, some .operation =>
    ({ state with running := some .operation }, [.started state.finished])
  | none, some (.batch batch generation checksTargets) =>
    let (next, signals) := state.advance batch generation checksTargets true {} batch.targets
    (next, .started state.finished :: signals)
  | _, _ => (state, [])

def recordSent (dispatch : SyncDispatch) (ok : Bool) : SyncInputDispatchResult :=
  if ok then { dispatch.result with succeeded := dispatch.result.succeeded ++ [dispatch.sessionId] }
  else { dispatch.result with failed := dispatch.result.failed ++ [dispatch.sessionId] }

def resume (state : SyncInputDispatcher) : SyncInputDispatcher × List SyncSignal :=
  match state.running with
  | some (.dispatch dispatch) =>
    match dispatch.phase with
    | .settled ok =>
      let result := recordSent dispatch ok
      if !dispatch.later.isEmpty && 0 < dispatch.batch.settings.delayMs &&
          state.isBroadcastEnabled state.finished &&
          dispatch.generation = state.broadcastGeneration then
        ({ state with
            running := some (.dispatch { dispatch with result := result, phase := .delaying }) }, [])
      else
        state.advance dispatch.batch dispatch.generation dispatch.checksTargets false result
          dispatch.later
    | .awake =>
      state.advance dispatch.batch dispatch.generation dispatch.checksTargets false dispatch.result
        dispatch.later
    | _ => (state, [])
  | _ => (state, [])

/-- A dispatch that waits for `before` goes on to `after`. -/
def settle (state : SyncInputDispatcher) (before after : SyncPhase) : SyncInputDispatcher :=
  match state.running with
  | some (.dispatch dispatch) =>
    if dispatch.phase = before then
      { state with running := some (.dispatch { dispatch with phase := after }) }
    else state
  | _ => state

/-- Who waits for the delay between two targets is woken. -/
def cancelBroadcasts (state : SyncInputDispatcher) : SyncInputDispatcher :=
  { state with broadcastGeneration := state.broadcastGeneration + 1 }.settle .delaying .awake

def step (state : SyncInputDispatcher) : SyncEvent → SyncInputDispatcher × List SyncSignal
  | .enqueue batch checksTargets =>
    ({ state with
        tasks := state.tasks ++ [.batch batch state.broadcastGeneration checksTargets] }, [])
  | .enqueueOperation => ({ state with tasks := state.tasks ++ [.operation] }, [])
  | .cancelBroadcasts => (state.cancelBroadcasts, [])
  | .reported isBroadcastEnabled => ({ state with isBroadcastEnabled := isBroadcastEnabled }, [])
  | .reconnected isTargetCurrent => ({ state with isTargetCurrent := isTargetCurrent }, [])
  | .start => state.start
  | .sent ok => (state.settle .sending (.settled ok), [])
  | .delayElapsed => (state.settle .delaying .awake, [])
  | .resume => state.resume
  | .operationDone =>
    match state.running with
    | some .operation =>
      ({ state with running := none, finished := state.finished + 1 },
        [.finished state.finished none])
    | _ => (state, [])

def transducer : Transducer SyncInputDispatcher SyncEvent SyncSignal := ⟨step⟩

/-- A dispatcher that has been given nothing yet. -/
def fresh (isBroadcastEnabled : Nat → Bool) (isTargetCurrent : String → Option Nat → Bool) :
    SyncInputDispatcher where
  broadcastGeneration := 0
  tasks := []
  finished := 0
  running := none
  isBroadcastEnabled := isBroadcastEnabled
  isTargetCurrent := isTargetCurrent

end SyncInputDispatcher

open SyncInputDispatcher

/-- One task after the other: the number of those that are done, and whether the next one runs. -/
def followSignal : Option (Nat × Bool) → SyncSignal → Option (Nat × Bool)
  | some (n, false), .started m => if m = n then some (n, true) else none
  | some (n, true), .sends m _ _ => if m = n then some (n, true) else none
  | some (n, true), .finished m _ => if m = n then some (n + 1, false) else none
  | _, _ => none

/-- The sessions that a batch was sent to, in order. -/
def sentTo (number : Nat) (signals : List SyncSignal) : List String :=
  signals.filterMap fun signal =>
    match signal with
    | .sends m sessionId _ => if m = number then some sessionId else none
    | _ => none

/-- What a batch waits for, target by target; `ok` says how the send to each comes out. -/
def rounds (ok : String → Bool) (targets : List String) : List SyncEvent :=
  targets.flatMap fun target => [.sent (ok target), .resume, .delayElapsed, .resume]

/-- The others than the source get the text of a batch while it is on and not cancelled. -/
def SyncInputDispatcher.reaches (state : SyncInputDispatcher) (batch : SyncInputBatch)
    (generation : Nat) (checksTargets : Bool) (sessionId : String) : Bool :=
  !state.isStale batch checksTargets sessionId &&
    (sessionId = batch.sourceId ||
      state.isBroadcastEnabled state.finished && generation = state.broadcastGeneration)

/-- The text has gone to those of the targets that it reaches, and the others were skipped. -/
def SyncInputDispatcher.carriedOut (state : SyncInputDispatcher) (batch : SyncInputBatch)
    (result : SyncInputDispatchResult) (ok reaches : String → Bool) (targets : List String) :
    SyncInputDispatcher × List SyncSignal :=
  let sent := targets.filter reaches
  ({ state with running := none, finished := state.finished + 1 },
    sent.map (fun target => .sends state.finished target (batch.payload target)) ++
      [.finished state.finished (some {
        succeeded := result.succeeded ++ sent.filter ok
        failed := result.failed ++ sent.filter fun target => !ok target
        skipped := result.skipped ++ targets.filter fun target => !reaches target })])

section Targets

theorem addTarget_nodup {sourceId : String} {settings : SyncInputSettings}
    (candidates : List SyncInputCandidate) {targets : List String} (once : targets.Nodup) :
    (candidates.foldl (addTarget sourceId settings) targets).Nodup ∧
      targets <+: candidates.foldl (addTarget sourceId settings) targets := by
  induction candidates generalizing targets with
  | nil => exact ⟨once, prefix_rfl⟩
  | cons candidate candidates ih =>
    rw [foldl_cons]
    have added : (addTarget sourceId settings targets candidate).Nodup ∧
        targets <+: addTarget sourceId settings targets candidate := by
      unfold addTarget
      split
      next admitted =>
        simp only [and_eq_true, not_eq_true', contains_eq_mem,
          decide_eq_false_iff_not] at admitted
        exact ⟨nodup_append.mpr ⟨once, nodup_singleton _, by
          rintro target mem _ (_ | ⟨_, _ | _⟩) rfl
          exact admitted.2 mem⟩, prefix_append _ _⟩
      next => exact ⟨once, prefix_rfl⟩
    obtain ⟨distinct, begins⟩ := ih added.1
    exact ⟨distinct, added.2.trans begins⟩

theorem SyncInputBatch.targets_spec (batch : SyncInputBatch) :
    batch.targets.Nodup ∧ ∀ first later, batch.targets = first :: later → first = batch.sourceId := by
  unfold SyncInputBatch.targets
  split
  · unfold resolveSyncInputTargets
    split
    · exact ⟨.nil, nofun⟩
    · split
      next => exact ⟨nodup_singleton _, fun _ _ whole => (List.cons.inj whole).1.symm⟩
      next source found =>
        have same : source.id = batch.sourceId := by simpa using find?_some found
        obtain ⟨distinct, rest, whole⟩ := @addTarget_nodup batch.sourceId batch.settings
          batch.candidates [source.id] (nodup_singleton _)
        refine ⟨distinct, fun first later split => ?_⟩
        rw [← whole] at split
        rw [← (List.cons.inj split).1, same]
  · exact ⟨nodup_singleton _, fun _ _ whole => (List.cons.inj whole).1.symm⟩

end Targets

section Turns

variable {state : SyncInputDispatcher} {batch : SyncInputBatch} {generation : Nat}
  {checksTargets first : Bool} {result after : SyncInputDispatchResult}

theorem turns_finished {targets : List String}
    (turn : state.turns batch generation checksTargets first result targets = .finished after) :
    after = { result with skipped := result.skipped ++ targets } := by
  induction targets generalizing first result with
  | nil =>
    cases turn
    rw [append_nil]
  | cons sessionId later ih =>
    unfold turns at turn
    split at turn
    · cases turn
      rfl
    · split at turn
      · rw [ih turn, append_assoc]
        rfl
      · cases turn

theorem turns_sends {targets later : List String} {sessionId : String}
    (turn : state.turns batch generation checksTargets first result targets =
      .sends sessionId later after) :
    ∃ stale, targets = stale ++ sessionId :: later ∧
      after = { result with skipped := result.skipped ++ stale } ∧
      (first = false ∨ stale ≠ [] → state.isBroadcastEnabled state.finished = true ∧
        generation = state.broadcastGeneration) ∧
      state.isStale batch checksTargets sessionId = false := by
  induction targets generalizing first result with
  | nil => cases turn
  | cons target rest ih =>
    unfold turns at turn
    split at turn
    next => cases turn
    next admitted =>
      have looked : first = false → state.isBroadcastEnabled state.finished = true ∧
          generation = state.broadcastGeneration := by
        rintro rfl
        simpa using admitted
      split at turn
      next =>
        obtain ⟨stale, rfl, rfl, broadcast, current⟩ := ih turn
        exact ⟨target :: stale, rfl, by simp, fun _ => broadcast (.inl rfl), current⟩
      next current =>
        cases turn
        refine ⟨[], rfl, by simp, fun later => ?_, by simpa using current⟩
        exact looked (later.resolve_right fun some => some rfl)

end Turns

def SyncInputDispatchResult.all (result : SyncInputDispatchResult) : List String :=
  result.succeeded ++ result.failed ++ result.skipped

/-- The target of a dispatch whose outcome its lists do not show yet. -/
def SyncDispatch.inFlight (dispatch : SyncDispatch) : List String :=
  match dispatch.phase with
  | .sending => [dispatch.sessionId]
  | .settled _ => [dispatch.sessionId]
  | .delaying => []
  | .awake => []

/-- What the signals say about the tasks, whether or not one is running. -/
structure Ledger (state : SyncInputDispatcher) (signals : List SyncSignal) : Prop where
  fits : state.finished ≤ state.tasks.length
  generations : ∀ (n : Nat) batch generation checksTargets,
    state.tasks[n]? = some (.batch batch generation checksTargets) →
      generation ≤ state.broadcastGeneration
  unsent : ∀ n, state.finished < n → sentTo n signals = []
  sent : ∀ (n : Nat) batch generation checksTargets,
    state.tasks[n]? = some (.batch batch generation checksTargets) →
      List.Sublist (sentTo n signals) batch.targets
  results : ∀ (n : Nat) result, .finished n (some result) ∈ signals →
    ∃ batch generation checksTargets,
      state.tasks[n]? = some (.batch batch generation checksTargets) ∧
        result.all.Perm batch.targets

/-- How the signals stand with the task that is running. -/
def Follows (state : SyncInputDispatcher) (signals : List SyncSignal) : Prop :=
  match state.running with
  | none =>
    signals.foldl followSignal (some (0, false)) = some (state.finished, false) ∧
      sentTo state.finished signals = []
  | some .operation =>
    signals.foldl followSignal (some (0, false)) = some (state.finished, true) ∧
      state.tasks[state.finished]? = some .operation
  | some (.dispatch dispatch) =>
    signals.foldl followSignal (some (0, false)) = some (state.finished, true) ∧
      state.tasks[state.finished]? =
        some (.batch dispatch.batch dispatch.generation dispatch.checksTargets) ∧
      ∃ passed, passed ≠ [] ∧ dispatch.batch.targets = passed ++ dispatch.later ∧
        (dispatch.result.all ++ dispatch.inFlight).Perm passed ∧
        List.Sublist (sentTo state.finished signals) passed

section Steps

variable {state : SyncInputDispatcher} {signals : List SyncSignal}

theorem sentTo_append (n : Nat) (signals more : List SyncSignal) :
    sentTo n (signals ++ more) = sentTo n signals ++ sentTo n more := filterMap_append

theorem sentTo_other {n : Nat} {signal : SyncSignal}
    (other : ∀ sessionId payload, signal ≠ .sends n sessionId payload) : sentTo n [signal] = [] := by
  cases signal with
  | sends m sessionId payload =>
    have apart : m ≠ n := by
      rintro rfl
      exact other _ _ rfl
    simp [sentTo, apart]
  | started m => rfl
  | finished m result => rfl

/-- From a target of the running batch on, the dispatcher comes to the next `send` or to the end. -/
theorem advance_follows (ledger : Ledger state signals) {batch : SyncInputBatch}
    {generation : Nat} {checksTargets first : Bool} {result : SyncInputDispatchResult}
    {passed targets : List String}
    (order : signals.foldl followSignal (some (0, false)) = some (state.finished, true))
    (task : state.tasks[state.finished]? = some (.batch batch generation checksTargets))
    (whole : batch.targets = passed ++ targets) (accounted : result.all.Perm passed)
    (sent : List.Sublist (sentTo state.finished signals) passed) :
    let next := state.advance batch generation checksTargets first result targets
    Ledger next.1 (signals ++ next.2) ∧ Follows next.1 (signals ++ next.2) := by
  unfold advance
  cases turn : state.turns batch generation checksTargets first result targets with
  | finished after =>
    obtain rfl := turns_finished turn
    have quiet : ∀ n, sentTo n [.finished state.finished
        (some { result with skipped := result.skipped ++ targets })] = [] := fun _ => rfl
    obtain ⟨inside, -⟩ := List.getElem?_eq_some_iff.mp task
    refine ⟨⟨inside, ledger.generations, ?_, ?_, ?_⟩, ?_, ?_⟩
    · intro n later
      rw [sentTo_append, quiet, append_nil]
      exact ledger.unsent n (lt_of_succ_lt later)
    · intro n _ _ _ known
      rw [sentTo_append, quiet, append_nil]
      exact ledger.sent n _ _ _ known
    · intro n outcome mem
      rcases mem_append.mp mem with old | new
      · exact ledger.results n outcome old
      · obtain ⟨rfl, rfl⟩ : n = state.finished ∧
            outcome = { result with skipped := result.skipped ++ targets } := by simpa using new
        refine ⟨batch, generation, checksTargets, task, ?_⟩
        rw [whole, SyncInputDispatchResult.all, ← append_assoc]
        exact accounted.append_right targets
    · dsimp only
      rw [foldl_append, order]
      simp [followSignal]
    · dsimp only
      rw [sentTo_append, quiet, append_nil]
      exact ledger.unsent _ (lt_succ_self _)
  | sends sessionId later after =>
    obtain ⟨stale, rfl, rfl, -, -⟩ := turns_sends turn
    have here : sentTo state.finished (signals ++
        [.sends state.finished sessionId (batch.payload sessionId)]) =
          sentTo state.finished signals ++ [sessionId] := by
      rw [sentTo_append]
      simp [sentTo]
    have elsewhere : ∀ n, n ≠ state.finished → sentTo n (signals ++
        [.sends state.finished sessionId (batch.payload sessionId)]) = sentTo n signals := by
      intro n apart
      rw [sentTo_append, sentTo_other, append_nil]
      rintro _ _ ⟨⟩
      exact apart rfl
    have grown : List.Sublist (sentTo state.finished signals ++ [sessionId])
        (passed ++ stale ++ [sessionId]) :=
      (sent.trans (sublist_append_left _ _)).append (List.Sublist.refl _)
    have split : batch.targets = (passed ++ stale ++ [sessionId]) ++ later := by
      rw [whole]
      simp
    refine ⟨⟨ledger.fits, ledger.generations, ?_, ?_, ?_⟩, ?_, task,
      passed ++ stale ++ [sessionId], by simp, split, ?_, ?_⟩
    · intro n after
      rw [elsewhere n (Nat.ne_of_gt after)]
      exact ledger.unsent n after
    · intro n other _ _ known
      by_cases same : n = state.finished
      · subst same
        rw [task] at known
        cases known
        rw [here, split]
        exact grown.trans (sublist_append_left _ _)
      · rw [elsewhere n same]
        exact ledger.sent n _ _ _ known
    · intro n outcome mem
      rcases mem_append.mp mem with old | new
      · exact ledger.results n outcome old
      · simp at new
    · rw [foldl_append, order]
      simp [followSignal]
    · refine List.Perm.append_right [sessionId] ?_
      rw [SyncInputDispatchResult.all, ← append_assoc]
      exact accounted.append_right stale
    · rw [here]
      exact grown

theorem started_ledger (ledger : Ledger state signals)
    (order : signals.foldl followSignal (some (0, false)) = some (state.finished, false)) :
    Ledger state (signals ++ [.started state.finished]) ∧
      (signals ++ [SyncSignal.started state.finished]).foldl followSignal (some (0, false)) =
        some (state.finished, true) ∧
      sentTo state.finished (signals ++ [.started state.finished]) =
        sentTo state.finished signals := by
  have quiet : ∀ n, sentTo n (signals ++ [.started state.finished]) = sentTo n signals := by
    intro n
    rw [sentTo_append, sentTo_other, append_nil]
    rintro _ _ ⟨⟩
  refine ⟨⟨ledger.fits, ledger.generations, fun n after => ?_, fun n _ _ _ known => ?_, fun n result mem => ?_⟩,
    ?_, quiet _⟩
  · rw [quiet]
    exact ledger.unsent n after
  · rw [quiet]
    exact ledger.sent n _ _ _ known
  · rcases mem_append.mp mem with old | new
    · exact ledger.results n result old
    · simp at new
  · rw [foldl_append, order]
    simp [followSignal]

theorem start_follows (ledger : Ledger state signals) (follows : Follows state signals) :
    Ledger state.start.1 (signals ++ state.start.2) ∧
      Follows state.start.1 (signals ++ state.start.2) := by
  unfold start
  split
  next idle task =>
    rw [Follows, idle] at follows
    obtain ⟨ledger, order, -⟩ := started_ledger ledger follows.1
    exact ⟨⟨ledger.fits, ledger.generations, ledger.unsent, ledger.sent, ledger.results⟩, order, task⟩
  next batch generation checksTargets idle task =>
    rw [Follows, idle] at follows
    obtain ⟨ledger, order, same⟩ := started_ledger ledger follows.1
    have next := @advance_follows state (signals ++ [.started state.finished]) ledger batch generation
      checksTargets true {} [] batch.targets order task rfl .nil (by rw [same, follows.2])
    dsimp only at next ⊢
    rwa [append_assoc] at next
  next =>
    rw [append_nil]
    exact ⟨ledger, follows⟩

theorem resume_follows (ledger : Ledger state signals) (follows : Follows state signals) :
    Ledger state.resume.1 (signals ++ state.resume.2) ∧
      Follows state.resume.1 (signals ++ state.resume.2) := by
  unfold resume
  split
  next dispatch running =>
    have known := follows
    rw [Follows, running] at known
    obtain ⟨order, task, passed, some, whole, accounted, sent⟩ := known
    split
    next ok phase =>
      have recorded : (recordSent dispatch ok).all.Perm passed := by
        refine List.Perm.trans ?_ accounted
        unfold recordSent SyncDispatch.inFlight SyncInputDispatchResult.all
        rw [phase]
        dsimp only
        split
        · rw [append_assoc, append_assoc, append_assoc, append_assoc,
            ← append_assoc dispatch.result.failed]
          exact List.Perm.append_left _ perm_append_comm
        · rw [append_assoc, append_assoc, append_assoc, append_assoc]
          exact List.Perm.append_left _ (List.Perm.append_left _ perm_append_comm)
      extract_lets result
      split
      · rw [append_nil]
        refine ⟨⟨ledger.fits, ledger.generations, ledger.unsent, ledger.sent, ledger.results⟩, order, task,
          passed, some, whole, ?_, sent⟩
        exact (append_nil result.all).symm ▸ recorded
      · exact advance_follows ledger order task whole recorded sent
    next phase =>
      have recorded : dispatch.result.all.Perm passed := by
        unfold SyncDispatch.inFlight at accounted
        rw [phase] at accounted
        simpa using accounted
      exact advance_follows ledger order task whole recorded sent
    next =>
      rw [append_nil]
      exact ⟨ledger, follows⟩
  next =>
    rw [append_nil]
    exact ⟨ledger, follows⟩

theorem settle_follows (ledger : Ledger state signals) (follows : Follows state signals)
    {before after : SyncPhase}
    (same : ∀ dispatch : SyncDispatch, dispatch.phase = before →
      SyncDispatch.inFlight { dispatch with phase := after } = dispatch.inFlight) :
    Ledger (state.settle before after) signals ∧ Follows (state.settle before after) signals := by
  unfold settle
  split
  next dispatch running =>
    split
    next phase =>
      rw [Follows, running] at follows
      obtain ⟨order, task, passed, some, whole, accounted, sent⟩ := follows
      refine ⟨⟨ledger.fits, ledger.generations, ledger.unsent, ledger.sent, ledger.results⟩, order, task, passed,
        some, whole, ?_, sent⟩
      rw [same dispatch phase]
      exact accounted
    next => exact ⟨ledger, follows⟩
  next => exact ⟨ledger, follows⟩

theorem enqueue_follows (ledger : Ledger state signals) (follows : Follows state signals)
    (task : SyncTask)
    (current : ∀ batch generation checksTargets, task = .batch batch generation checksTargets →
      generation ≤ state.broadcastGeneration) :
    Ledger { state with tasks := state.tasks ++ [task] } signals ∧
      Follows { state with tasks := state.tasks ++ [task] } signals := by
  have older : ∀ (n : Nat) known, state.tasks[n]? = some known →
      (state.tasks ++ [task])[n]? = some known := by
    intro n known old
    obtain ⟨inside, -⟩ := List.getElem?_eq_some_iff.mp old
    rw [getElem?_append_left inside, old]
  have newer : ∀ (n : Nat) known, (state.tasks ++ [task])[n]? = some known →
      state.tasks[n]? = some known ∨ n = state.tasks.length ∧ known = task := by
    intro n known found
    rw [getElem?_append] at found
    split at found
    next => exact .inl found
    next outside =>
      obtain ⟨inside, rfl⟩ := List.getElem?_eq_some_iff.mp found
      rw [length_singleton] at inside
      exact .inr ⟨by omega, by simp⟩
  have quiet : sentTo state.tasks.length signals = [] := by
    rcases Nat.lt_or_eq_of_le ledger.fits with inside | last
    · exact ledger.unsent _ inside
    · unfold Follows at follows
      split at follows
      · rw [← last, follows.2]
      · obtain ⟨inside, -⟩ := List.getElem?_eq_some_iff.mp follows.2
        omega
      · obtain ⟨inside, -⟩ := List.getElem?_eq_some_iff.mp follows.2.1
        omega
  refine ⟨⟨?_, fun n _ _ _ found => ?_, ledger.unsent, fun n _ _ _ found => ?_, fun n result mem => ?_⟩, ?_⟩
  · rw [length_append]
    exact le_add_right_of_le ledger.fits
  · rcases newer n _ found with old | ⟨-, new⟩
    · exact ledger.generations n _ _ _ old
    · exact current _ _ _ new.symm
  · rcases newer n _ found with old | ⟨rfl, -⟩
    · exact ledger.sent n _ _ _ old
    · rw [quiet]
      exact nil_sublist _
  · obtain ⟨batch, generation, checksTargets, known, complete⟩ := ledger.results n result mem
    exact ⟨batch, generation, checksTargets, older n _ known, complete⟩
  · unfold Follows at follows ⊢
    dsimp only
    split
    next idle =>
      rw [idle] at follows
      exact follows
    next running =>
      rw [running] at follows
      exact ⟨follows.1, older _ _ follows.2⟩
    next running =>
      rw [running] at follows
      exact ⟨follows.1, older _ _ follows.2.1, follows.2.2⟩

theorem operationDone_follows (ledger : Ledger state signals) (follows : Follows state signals) :
    Ledger (state.step .operationDone).1 (signals ++ (state.step .operationDone).2) ∧
      Follows (state.step .operationDone).1 (signals ++ (state.step .operationDone).2) := by
  unfold step
  dsimp only
  split
  next running =>
    rw [Follows, running] at follows
    obtain ⟨inside, -⟩ := List.getElem?_eq_some_iff.mp follows.2
    have quiet : ∀ n, sentTo n (signals ++ [.finished state.finished none]) = sentTo n signals := by
      intro n
      rw [sentTo_append, sentTo_other, append_nil]
      rintro _ _ ⟨⟩
    refine ⟨⟨inside, ledger.generations, fun n after => ?_, fun n _ _ _ known => ?_,
      fun n result mem => ?_⟩, ?_, ?_⟩
    · rw [quiet]
      exact ledger.unsent n (lt_of_succ_lt after)
    · rw [quiet]
      exact ledger.sent n _ _ _ known
    · rcases mem_append.mp mem with old | new
      · exact ledger.results n result old
      · simp at new
    · dsimp only
      rw [foldl_append, follows.1]
      simp [followSignal]
    · dsimp only
      rw [quiet]
      exact ledger.unsent _ (lt_succ_self _)
  next =>
    rw [append_nil]
    exact ⟨ledger, follows⟩

theorem step_follows (event : SyncEvent) (ledger : Ledger state signals)
    (follows : Follows state signals) :
    Ledger (state.step event).1 (signals ++ (state.step event).2) ∧
      Follows (state.step event).1 (signals ++ (state.step event).2) := by
  cases event with
  | enqueue batch checksTargets =>
    rw [step, append_nil]
    refine enqueue_follows ledger follows _ ?_
    rintro _ _ _ ⟨⟩
    exact Nat.le_refl _
  | enqueueOperation =>
    rw [step, append_nil]
    exact enqueue_follows ledger follows .operation nofun
  | cancelBroadcasts =>
    rw [step, append_nil]
    have raised : Ledger { state with broadcastGeneration := state.broadcastGeneration + 1 }
        signals := ⟨ledger.fits, fun n _ _ _ known => le_succ_of_le
          (ledger.generations n _ _ _ known), ledger.unsent, ledger.sent, ledger.results⟩
    refine settle_follows raised follows fun dispatch phase => ?_
    unfold SyncDispatch.inFlight
    rw [phase]
  | reported isBroadcastEnabled =>
    rw [step, append_nil]
    exact ⟨⟨ledger.fits, ledger.generations, ledger.unsent, ledger.sent, ledger.results⟩, follows⟩
  | reconnected isTargetCurrent =>
    rw [step, append_nil]
    exact ⟨⟨ledger.fits, ledger.generations, ledger.unsent, ledger.sent, ledger.results⟩, follows⟩
  | start => exact start_follows ledger follows
  | sent ok =>
    rw [step, append_nil]
    refine settle_follows ledger follows fun dispatch phase => ?_
    unfold SyncDispatch.inFlight
    rw [phase]
  | delayElapsed =>
    rw [step, append_nil]
    refine settle_follows ledger follows fun dispatch phase => ?_
    unfold SyncDispatch.inFlight
    rw [phase]
  | resume => exact resume_follows ledger follows
  | operationDone => exact operationDone_follows ledger follows

end Steps

section Sends

variable {state : SyncInputDispatcher} {n : Nat} {sessionId : String} {payload : List Char}

/-- What was looked at before a `send` to a session. -/
def Checked (state : SyncInputDispatcher) (n : Nat) (sessionId : String) : Prop :=
  ∃ batch generation checksTargets,
    state.tasks[n]? = some (.batch batch generation checksTargets) ∧
      (sessionId ≠ batch.sourceId → state.isBroadcastEnabled n = true ∧
        generation = state.broadcastGeneration) ∧
      state.isStale batch checksTargets sessionId = false

theorem advance_sends {batch : SyncInputBatch} {generation : Nat} {checksTargets first : Bool}
    {result : SyncInputDispatchResult} {targets : List String}
    (task : state.tasks[state.finished]? = some (.batch batch generation checksTargets))
    (begins : first = true → batch.targets = targets)
    (mem : .sends n sessionId payload ∈
      (state.advance batch generation checksTargets first result targets).2) :
    Checked state n sessionId := by
  unfold advance at mem
  cases turn : state.turns batch generation checksTargets first result targets with
  | finished after =>
    rw [turn] at mem
    simp at mem
  | sends target later after =>
    rw [turn] at mem
    obtain ⟨stale, rfl, -, broadcast, current⟩ := turns_sends turn
    obtain ⟨rfl, rfl, -⟩ : n = state.finished ∧ sessionId = target ∧ payload = batch.payload target := by
      simpa using mem
    refine ⟨batch, generation, checksTargets, task, fun other => broadcast ?_, current⟩
    by_contra early
    obtain ⟨atFirst, rfl⟩ : first = true ∧ stale = [] := by simpa using early
    exact other (batch.targets_spec.2 _ _ (begins atFirst))

theorem step_sends {signals : List SyncSignal} (follows : Follows state signals) {event : SyncEvent}
    (mem : .sends n sessionId payload ∈ (state.step event).2) : Checked state n sessionId := by
  cases event with
  | start =>
    unfold step start at mem
    dsimp only at mem
    split at mem
    next => simp at mem
    next batch generation checksTargets _ task =>
      rcases mem_cons.mp mem with other | sent
      · cases other
      · exact advance_sends task (fun _ => rfl) sent
    next => cases mem
  | resume =>
    unfold step resume at mem
    dsimp only at mem
    split at mem
    next dispatch running =>
      rw [Follows, running] at follows
      have task := follows.2.1
      split at mem
      · split at mem
        · cases mem
        · exact advance_sends task (by intro early; cases early) mem
      · exact advance_sends task (by intro early; cases early) mem
      · cases mem
    next => cases mem
  | operationDone =>
    unfold step at mem
    dsimp only at mem
    split at mem
    · simp at mem
    · cases mem
  | enqueue => cases mem
  | enqueueOperation => cases mem
  | cancelBroadcasts => cases mem
  | reported => cases mem
  | reconnected => cases mem
  | sent => cases mem
  | delayElapsed => cases mem

/-- The first tasks are older than the last cancellation. -/
def CancelledBefore (count : Nat) (state : SyncInputDispatcher) : Prop :=
  count ≤ state.tasks.length ∧
    ∀ n < count, ∀ batch generation checksTargets,
      state.tasks[n]? = some (.batch batch generation checksTargets) →
        generation < state.broadcastGeneration

theorem advance_frame (state : SyncInputDispatcher) (batch : SyncInputBatch) (generation : Nat)
    (checksTargets first : Bool) (result : SyncInputDispatchResult) (targets : List String) :
    let next := (state.advance batch generation checksTargets first result targets).1
    next.tasks = state.tasks ∧ next.broadcastGeneration = state.broadcastGeneration := by
  unfold advance
  split
  · exact ⟨rfl, rfl⟩
  · exact ⟨rfl, rfl⟩

theorem settle_frame (state : SyncInputDispatcher) (before after : SyncPhase) :
    (state.settle before after).tasks = state.tasks ∧
      (state.settle before after).broadcastGeneration = state.broadcastGeneration := by
  unfold settle
  split
  · split
    · exact ⟨rfl, rfl⟩
    · exact ⟨rfl, rfl⟩
  · exact ⟨rfl, rfl⟩

theorem step_frame (state : SyncInputDispatcher) (event : SyncEvent) :
    state.tasks <+: (state.step event).1.tasks ∧
      state.broadcastGeneration ≤ (state.step event).1.broadcastGeneration := by
  cases event with
  | enqueue => exact ⟨prefix_append _ _, Nat.le_refl _⟩
  | enqueueOperation => exact ⟨prefix_append _ _, Nat.le_refl _⟩
  | cancelBroadcasts =>
    obtain ⟨tasks, generation⟩ := settle_frame
      { state with broadcastGeneration := state.broadcastGeneration + 1 } .delaying .awake
    unfold step cancelBroadcasts
    rw [tasks, generation]
    exact ⟨prefix_rfl, le_succ _⟩
  | reported => exact ⟨prefix_rfl, Nat.le_refl _⟩
  | reconnected => exact ⟨prefix_rfl, Nat.le_refl _⟩
  | start =>
    unfold step start
    dsimp only
    split
    next => exact ⟨prefix_rfl, Nat.le_refl _⟩
    next batch generation checksTargets _ _ =>
      obtain ⟨tasks, same⟩ := advance_frame state batch generation checksTargets true {} batch.targets
      dsimp only
      rw [tasks, same]
      exact ⟨prefix_rfl, Nat.le_refl _⟩
    next => exact ⟨prefix_rfl, Nat.le_refl _⟩
  | sent ok =>
    obtain ⟨tasks, generation⟩ := settle_frame state .sending (.settled ok)
    unfold step
    rw [tasks, generation]
    exact ⟨prefix_rfl, Nat.le_refl _⟩
  | delayElapsed =>
    obtain ⟨tasks, generation⟩ := settle_frame state .delaying .awake
    unfold step
    rw [tasks, generation]
    exact ⟨prefix_rfl, Nat.le_refl _⟩
  | resume =>
    unfold step resume
    dsimp only
    split
    next dispatch _ =>
      split
      next ok _ =>
        split
        · exact ⟨prefix_rfl, Nat.le_refl _⟩
        · obtain ⟨tasks, same⟩ := advance_frame state dispatch.batch dispatch.generation
            dispatch.checksTargets false (recordSent dispatch ok) dispatch.later
          rw [tasks, same]
          exact ⟨prefix_rfl, Nat.le_refl _⟩
      next =>
        obtain ⟨tasks, same⟩ := advance_frame state dispatch.batch dispatch.generation
          dispatch.checksTargets false dispatch.result dispatch.later
        rw [tasks, same]
        exact ⟨prefix_rfl, Nat.le_refl _⟩
      next => exact ⟨prefix_rfl, Nat.le_refl _⟩
    next => exact ⟨prefix_rfl, Nat.le_refl _⟩
  | operationDone =>
    unfold step
    dsimp only
    split
    · exact ⟨prefix_rfl, Nat.le_refl _⟩
    · exact ⟨prefix_rfl, Nat.le_refl _⟩

theorem CancelledBefore.step {count : Nat} (cancelled : CancelledBefore count state)
    (event : SyncEvent) : CancelledBefore count (state.step event).1 := by
  obtain ⟨⟨added, whole⟩, grows⟩ := step_frame state event
  refine ⟨?_, fun n old batch generation checksTargets known => ?_⟩
  · rw [← whole, length_append]
    exact le_add_right_of_le cancelled.1
  · rw [← whole, getElem?_append_left (Nat.lt_of_lt_of_le old cancelled.1)] at known
    exact Nat.lt_of_lt_of_le (cancelled.2 n old _ _ _ known) grows

end Sends

section Rounds

variable {state : SyncInputDispatcher} {batch : SyncInputBatch} {generation : Nat}
  {checksTargets : Bool}

variable (running : Option RunningTask)

theorem turns_running (first : Bool) (result : SyncInputDispatchResult) (targets : List String) :
    turns { state with running := running } batch generation checksTargets first
      result targets = state.turns batch generation checksTargets first result targets := by
  induction targets generalizing first result with
  | nil => rfl
  | cons target later ih =>
    unfold turns
    rw [ih]
    rfl

theorem advance_running (first : Bool) (result : SyncInputDispatchResult) (targets : List String) :
    advance { state with running := running } batch generation checksTargets
      first result targets = state.advance batch generation checksTargets first result targets := by
  unfold advance
  rw [turns_running]

/-- After a turn a batch waits for its send, or is done. -/
theorem advance_waits (first : Bool) (result : SyncInputDispatchResult) (targets : List String) :
    let next := (state.advance batch generation checksTargets first result targets).1
    transducer.run next [.delayElapsed, .resume] = (next, []) := by
  unfold advance
  split
  · rfl
  · rfl

theorem run_stepped {next : SyncInputDispatcher × List SyncSignal} {event : SyncEvent}
    (stepped : state.step event = next) (events : List SyncEvent) :
    transducer.run state (event :: events) =
      ((transducer.run next.1 events).1,
        next.2 ++ (transducer.run next.1 events).2) := by
  have same : transducer.step state event = next := stepped
  rw [Transducer.run_cons, same]

theorem advance_round (first : Bool) (result : SyncInputDispatchResult) (targets : List String)
    (goes : state.resume = state.advance batch generation checksTargets first result targets) :
    transducer.run state [.resume, .delayElapsed, .resume] =
      state.advance batch generation checksTargets first result targets := by
  have stepped : state.step .resume =
      state.advance batch generation checksTargets first result targets := goes
  rw [run_stepped stepped, advance_waits, append_nil]

theorem settle_to {dispatch : SyncDispatch} {before : SyncPhase} (after : SyncPhase)
    (running : state.running = some (.dispatch dispatch)) (phase : dispatch.phase = before) :
    state.settle before after =
      { state with running := some (.dispatch { dispatch with phase := after }) } := by
  unfold settle
  rw [running]
  exact if_pos phase

theorem settle_other {dispatch : SyncDispatch} {before : SyncPhase} (after : SyncPhase)
    (running : state.running = some (.dispatch dispatch)) (phase : dispatch.phase ≠ before) :
    state.settle before after = state := by
  unfold settle
  rw [running]
  exact if_neg phase

theorem awake_resumes {dispatch : SyncDispatch}
    (running : state.running = some (.dispatch dispatch)) (phase : dispatch.phase = .awake) :
    state.resume = state.advance dispatch.batch dispatch.generation dispatch.checksTargets false
      dispatch.result dispatch.later := by
  unfold resume
  rw [running]
  dsimp only
  rw [phase]

theorem delaying_round {dispatch : SyncDispatch}
    (running : state.running = some (.dispatch dispatch)) (phase : dispatch.phase = .delaying) :
    transducer.run state [.delayElapsed, .resume] =
      state.advance dispatch.batch dispatch.generation dispatch.checksTargets false dispatch.result
        dispatch.later := by
  have woken := settle_to .awake running phase
  have stepped : state.step .delayElapsed = (state.settle .delaying .awake, []) := rfl
  have goes : (state.settle .delaying .awake).step .resume =
      state.advance dispatch.batch dispatch.generation dispatch.checksTargets false dispatch.result
        dispatch.later := by
    rw [woken]
    let awake := { dispatch with phase := .awake }
    exact (@awake_resumes { state with running := some (.dispatch awake) } awake rfl rfl).trans
      (advance_running _ _ _ _)
  rw [run_stepped stepped, run_stepped goes, Transducer.run_nil, append_nil]
  rfl

theorem settled_round {dispatch : SyncDispatch} {ok : Bool}
    (running : state.running = some (.dispatch dispatch)) (phase : dispatch.phase = .settled ok) :
    transducer.run state [.resume, .delayElapsed, .resume] =
      state.advance dispatch.batch dispatch.generation dispatch.checksTargets false
        (recordSent dispatch ok) dispatch.later := by
  let recorded := { dispatch with
    result := recordSent dispatch ok, phase := .delaying }
  let delaying := { state with running := some (.dispatch recorded) }
  have resumed : state.resume = (delaying, []) ∨
      state.resume = state.advance dispatch.batch dispatch.generation dispatch.checksTargets false
        (recordSent dispatch ok) dispatch.later := by
    unfold resume
    rw [running]
    dsimp only
    rw [phase]
    dsimp only
    split
    · exact .inl rfl
    · exact .inr rfl
  rcases resumed with waits | goes
  · have round := @delaying_round delaying recorded rfl rfl
    have stepped : state.step .resume = (delaying, []) := waits
    rw [run_stepped stepped]
    exact round.trans (advance_running _ _ _ _)
  · exact advance_round _ _ _ goes

/-- Wherever a batch waits, a round takes it to its next turn. -/
theorem round_spec {dispatch : SyncDispatch} (running : state.running = some (.dispatch dispatch))
    (ok : Bool) :
    ∃ result, (dispatch.phase = .sending →
        result = recordSent dispatch ok) ∧
      transducer.run state [.sent ok, .resume, .delayElapsed, .resume] =
        state.advance dispatch.batch dispatch.generation dispatch.checksTargets false result
          dispatch.later := by
  have round : transducer.run state [.sent ok, .resume, .delayElapsed, .resume] =
      transducer.run (state.settle .sending (.settled ok))
        [.resume, .delayElapsed, .resume] := rfl
  rw [round]
  cases phase : dispatch.phase with
  | sending =>
    rw [settle_to (.settled ok) running phase]
    refine ⟨recordSent dispatch ok, fun _ => rfl, ?_⟩
    let settled := { dispatch with phase := .settled ok }
    exact (@settled_round { state with running := some (.dispatch settled) } settled ok rfl rfl).trans
      (advance_running _ _ _ _)
  | settled before =>
    rw [settle_other (.settled ok) running (by rw [phase]; nofun)]
    exact ⟨_, nofun, settled_round running phase⟩
  | delaying =>
    rw [settle_other (.settled ok) running (by rw [phase]; nofun)]
    have still : state.step .resume = (state, []) := by
      unfold step resume
      dsimp only
      rw [running]
      dsimp only
      rw [phase]
    rw [run_stepped still]
    exact ⟨_, nofun, delaying_round running phase⟩
  | awake =>
    rw [settle_other (.settled ok) running (by rw [phase]; nofun)]
    exact ⟨_, nofun, advance_round _ _ _ (awake_resumes running phase)⟩

/-- The broadcast is on, and was not cancelled since the batch came. -/
def SyncInputDispatcher.Open (state : SyncInputDispatcher) (generation : Nat) : Prop :=
  state.isBroadcastEnabled state.finished = true ∧ generation = state.broadcastGeneration

theorem turns_cons {first : Bool} (goesOn : first = true ∨ state.Open generation)
    (result : SyncInputDispatchResult) (target : String) (later : List String) :
    state.turns batch generation checksTargets first result (target :: later) =
      if state.isStale batch checksTargets target then
        state.turns batch generation checksTargets false
          { result with skipped := result.skipped ++ [target] } later
      else .sends target later result := by
  have passes : (!first && (!state.isBroadcastEnabled state.finished ||
      decide (generation ≠ state.broadcastGeneration))) = false := by
    rcases goesOn with rfl | ⟨on, current⟩
    · rfl
    · simp [on, current]
  rw [turns, passes]
  rfl

/-- The turns of a batch from a target on, when each of its sends comes out. -/
def SyncInputDispatcher.drive (state : SyncInputDispatcher) (batch : SyncInputBatch)
    (generation : Nat) (checksTargets first : Bool) (result : SyncInputDispatchResult)
    (ok : String → Bool) (targets : List String) : SyncInputDispatcher × List SyncSignal :=
  let next := state.advance batch generation checksTargets first result targets
  let rest := transducer.run next.1
    (rounds ok (targets.filter (state.reaches batch generation checksTargets)))
  (rest.1, next.2 ++ rest.2)

/-- The lists of a batch after a send. -/
def SyncInputDispatchResult.record (result : SyncInputDispatchResult) (ok : String → Bool)
    (target : String) : SyncInputDispatchResult :=
  { result with
    succeeded := result.succeeded ++ [target].filter ok
    failed := result.failed ++ [target].filter fun target => !ok target }

theorem recordSent_eq (dispatch : SyncDispatch) (ok : String → Bool) :
    recordSent dispatch (ok dispatch.sessionId) =
      dispatch.result.record ok dispatch.sessionId := by
  unfold recordSent SyncInputDispatchResult.record
  cases came : ok dispatch.sessionId with
  | true => simp [came]
  | false => simp [came]

theorem drive_sends {first : Bool} (goesOn : first = true ∨ state.Open generation)
    (result : SyncInputDispatchResult) (ok : String → Bool) {target : String}
    (reached : state.reaches batch generation checksTargets target = true) (later : List String) :
    state.drive batch generation checksTargets first result ok (target :: later) =
      let rest := state.drive batch generation checksTargets false (result.record ok target) ok later
      (rest.1, .sends state.finished target (batch.payload target) :: rest.2) := by
  have current : ¬state.isStale batch checksTargets target = true := by
    rw [reaches, and_eq_true, not_eq_true'] at reached
    rw [reached.1]
    decide
  let dispatch : SyncDispatch :=
    { batch := batch
      generation := generation
      checksTargets := checksTargets
      sessionId := target
      later := later
      result := result
      phase := .sending }
  let sending := { state with running := some (.dispatch dispatch) }
  have begins : state.advance batch generation checksTargets first result (target :: later) =
      (sending, [.sends state.finished target (batch.payload target)]) := by
    rw [advance, turns_cons goesOn, if_neg current]
  obtain ⟨next, recorded, round⟩ := @round_spec sending dispatch rfl (ok target)
  obtain rfl := (recorded rfl).trans (recordSent_eq dispatch ok)
  have turn : transducer.run sending
      [.sent (ok target), .resume, .delayElapsed, .resume] =
        state.advance batch generation checksTargets false (result.record ok target) later :=
    round.trans (advance_running _ _ _ _)
  unfold drive
  rw [begins, filter_cons_of_pos reached, rounds, flatMap_cons]
  dsimp only
  rw [Transducer.run_append, turn]
  rfl

theorem carriedOut_sends (result : SyncInputDispatchResult) (ok : String → Bool)
    {reaches : String → Bool} {target : String} (reached : reaches target = true)
    (later : List String) :
    state.carriedOut batch result ok reaches (target :: later) =
      let rest := state.carriedOut batch (result.record ok target) ok reaches later
      (rest.1, .sends state.finished target (batch.payload target) :: rest.2) := by
  have missed : (target :: later).filter (fun target => !reaches target) =
      later.filter fun target => !reaches target := filter_cons_of_neg (by simp [reached])
  have split (p : String → Bool) : (target :: later.filter reaches).filter p =
      [target].filter p ++ (later.filter reaches).filter p := filter_append [target] _
  unfold carriedOut SyncInputDispatchResult.record
  rw [filter_cons_of_pos reached, missed]
  dsimp only
  rw [split ok, split fun target => !ok target, append_assoc, append_assoc]
  rfl

theorem carriedOut_misses (result : SyncInputDispatchResult) (ok : String → Bool)
    {reaches : String → Bool} {target : String} (missed : ¬reaches target = true)
    (later : List String) :
    state.carriedOut batch result ok reaches (target :: later) =
      state.carriedOut batch { result with skipped := result.skipped ++ [target] } ok reaches
        later := by
  have skipped : (target :: later).filter (fun target => !reaches target) =
      target :: later.filter fun target => !reaches target := filter_cons_of_pos (by simp [missed])
  unfold carriedOut
  rw [filter_cons_of_neg missed, skipped]
  dsimp only
  rw [append_assoc]
  rfl

theorem drive_stale {first : Bool} (goesOn : first = true ∨ state.Open generation)
    (result : SyncInputDispatchResult) (ok : String → Bool) {target : String}
    (stale : state.isStale batch checksTargets target = true) (later : List String) :
    state.drive batch generation checksTargets first result ok (target :: later) =
      state.drive batch generation checksTargets false
        { result with skipped := result.skipped ++ [target] } ok later := by
  have missed : ¬state.reaches batch generation checksTargets target = true := by
    simp [reaches, stale]
  unfold drive advance
  rw [filter_cons_of_neg missed, turns_cons goesOn, if_pos stale]

/-- A batch that goes on beyond its source sends to whom it reaches, and then is done. -/
theorem drive_others (ok : String → Bool) {targets : List String}
    (others : batch.sourceId ∉ targets) (result : SyncInputDispatchResult) :
    state.drive batch generation checksTargets false result ok targets =
      state.carriedOut batch result ok (state.reaches batch generation checksTargets) targets := by
  induction targets generalizing result with
  | nil =>
    simp [drive, advance, turns,
      carriedOut, rounds]
  | cons target later ih =>
    have outside := (not_or.mp (mem_cons.not.mp others)).2
    by_cases opened : state.Open generation
    · by_cases reached : state.reaches batch generation checksTargets target = true
      · rw [drive_sends (.inr opened) result ok reached, carriedOut_sends result ok reached, ih outside]
      · have stale : state.isStale batch checksTargets target = true := by
          by_contra current
          refine reached ?_
          rw [reaches, eq_false_iff.mpr current]
          simp [opened.1, opened.2]
        rw [drive_stale (.inr opened) result ok stale, carriedOut_misses result ok reached, ih outside]
    · have missed : ∀ each ∈ target :: later,
          state.reaches batch generation checksTargets each = false := by
        intro each mem
        have apart : each ≠ batch.sourceId := by
          rintro rfl
          exact others mem
        rw [← not_eq_true]
        intro reached
        simp [reaches, apart] at reached
        exact opened reached.2
      have stops : (!state.isBroadcastEnabled state.finished ||
          decide (generation ≠ state.broadcastGeneration)) = true := by
        simpa [SyncInputDispatcher.Open, or_iff_not_imp_left] using opened
      have skipped : (target :: later).filter (fun target =>
          !state.reaches batch generation checksTargets target) = target :: later :=
        filter_eq_self.mpr fun each mem => by simp [missed each mem]
      have nothing : (target :: later).filter (state.reaches batch generation checksTargets) = [] :=
        filter_eq_nil_iff.mpr fun each mem => by simp [missed each mem]
      unfold drive advance carriedOut
      rw [nothing, turns, stops, skipped]
      simp [rounds]

/-- A batch whose turn has come goes to all that it reaches, and is done. -/
theorem batch_driven (idle : state.running = none)
    (task : state.tasks[state.finished]? = some (.batch batch generation checksTargets))
    (ok : String → Bool) :
    let reaches := state.reaches batch generation checksTargets
    let done := state.carriedOut batch {} ok reaches batch.targets
    transducer.run state (.start :: rounds ok (batch.targets.filter reaches)) =
      (done.1, .started state.finished :: done.2) := by
  intro reaches done
  have stepped : state.step .start =
      ((state.advance batch generation checksTargets true {} batch.targets).1,
        .started state.finished ::
          (state.advance batch generation checksTargets true {} batch.targets).2) := by
    unfold step start
    dsimp only
    rw [idle, task]
  have driven : state.drive batch generation checksTargets true {} ok batch.targets = done := by
    dsimp only [done, reaches]
    obtain ⟨once, source⟩ := batch.targets_spec
    cases targets : batch.targets with
    | nil =>
      simp [drive, advance, turns,
        carriedOut, rounds]
    | cons first later =>
      have begins := source first later targets
      rw [targets, begins] at once
      have others := (nodup_cons.mp once).1
      cases stale : state.isStale batch checksTargets first with
      | true =>
        have missed : ¬state.reaches batch generation checksTargets first = true := by
          simp [SyncInputDispatcher.reaches, stale]
        rw [drive_stale (.inl rfl) {} ok stale, carriedOut_misses {} ok missed, drive_others ok others]
      | false =>
        have reached : state.reaches batch generation checksTargets first = true := by
          rw [SyncInputDispatcher.reaches, stale]
          simp [begins]
        rw [drive_sends (.inl rfl) {} ok reached, carriedOut_sends {} ok reached,
          drive_others ok others]
  rw [run_stepped stepped, ← driven]
  rfl

/-- Wherever a batch waits, its sends that come out bring it to its end. -/
theorem dispatch_driven {dispatch : SyncDispatch}
    (running : state.running = some (.dispatch dispatch))
    (others : dispatch.batch.sourceId ∉ dispatch.later) (now : Bool) (ok : String → Bool) :
    let reaches := state.reaches dispatch.batch dispatch.generation dispatch.checksTargets
    ∃ result, (dispatch.phase = .sending →
        result = recordSent dispatch now) ∧
      transducer.run state
          ([.sent now, .resume, .delayElapsed, .resume] ++
            rounds ok (dispatch.later.filter reaches)) =
        state.carriedOut dispatch.batch result ok reaches dispatch.later := by
  intro reaches
  obtain ⟨result, recorded, round⟩ := round_spec running now
  refine ⟨result, recorded, ?_⟩
  rw [Transducer.run_append, round]
  exact drive_others ok others result

end Rounds

section Runs

variable (isBroadcastEnabled : Nat → Bool) (isTargetCurrent : String → Option Nat → Bool)

theorem run_follows (events : List SyncEvent) :
    let run := transducer.run
      (.fresh isBroadcastEnabled isTargetCurrent) events
    Ledger run.1 run.2 ∧ Follows run.1 run.2 := by
  have fresh : Ledger (.fresh isBroadcastEnabled isTargetCurrent) [] :=
    ⟨Nat.le_refl 0, nofun, fun _ _ => rfl, nofun, nofun⟩
  exact @Transducer.run_preserves_trace _ _ _ transducer
    (fun state signals => Ledger state signals ∧ Follows state signals)
    (fun _ _ event holds => step_follows event holds.1 holds.2) _ [] ⟨fresh, rfl, rfl⟩ events

theorem cancelled_sends {state : SyncInputDispatcher} {signals : List SyncSignal} {count : Nat}
    (ledger : Ledger state signals) (follows : Follows state signals)
    (cancelled : CancelledBefore count state) (events : List SyncEvent) :
    ∀ (n : Nat) sessionId payload, n < count →
      .sends n sessionId payload ∈ (transducer.run state events).2 →
        ∃ batch generation checksTargets,
          state.tasks[n]? = some (.batch batch generation checksTargets) ∧
            sessionId = batch.sourceId := by
  have whole := @Transducer.run_preserves_trace _ _ _ transducer
    (fun next emitted =>
      (Ledger next (signals ++ emitted) ∧ Follows next (signals ++ emitted)) ∧
        CancelledBefore count next ∧ state.tasks <+: next.tasks ∧
        ∀ (n : Nat) sessionId payload, n < count → .sends n sessionId payload ∈ emitted →
          ∃ batch generation checksTargets,
            state.tasks[n]? = some (.batch batch generation checksTargets) ∧
              sessionId = batch.sourceId) ?_ state [] ?_ events
  · exact whole.2.2.2
  · rintro next emitted event ⟨⟨ledger, follows⟩, older, added, sent⟩
    have after := step_follows event ledger follows
    rw [append_assoc] at after
    refine ⟨after, older.step event, added.trans (step_frame next event).1, ?_⟩
    intro n sessionId payload old mem
    rcases mem_append.mp mem with earlier | now
    · exact sent n sessionId payload old earlier
    · obtain ⟨batch, generation, checksTargets, task, broadcast, -⟩ := step_sends follows now
      have before := Nat.ne_of_lt (older.2 n old _ _ _ task)
      obtain ⟨rest, whole⟩ := added
      rw [← whole, getElem?_append_left (Nat.lt_of_lt_of_le old cancelled.1)] at task
      refine ⟨batch, generation, checksTargets, task, ?_⟩
      by_contra other
      exact before (broadcast other).2
  · refine ⟨?_, cancelled, prefix_rfl, nofun⟩
    rw [append_nil]
    exact ⟨ledger, follows⟩

/-- Tasks run one at a time in the order of the queue. A batch is sent to each of its targets at
most once, to its source first, and its lists share out its targets. Nothing is sent to a stale
target, and to others than the source neither while the broadcast is off nor once it was cancelled.
A batch whose turn has come goes in order to all that it reaches and gets its lists as the sends
come out, also when it is taken up in the middle. -/
theorem broadcasts_dispatched (events : List SyncEvent) :
    let run := transducer.run
      (.fresh isBroadcastEnabled isTargetCurrent) events
    run.2.foldl followSignal (some (0, false)) = some (run.1.finished, run.1.running.isSome) ∧
      (∀ (n : Nat) batch generation checksTargets,
        run.1.tasks[n]? = some (.batch batch generation checksTargets) →
          batch.targets.Nodup ∧
            (∀ first later, batch.targets = first :: later → first = batch.sourceId) ∧
            List.Sublist (sentTo n run.2) batch.targets) ∧
      (∀ (n : Nat) result, .finished n (some result) ∈ run.2 →
        ∃ batch generation checksTargets,
          run.1.tasks[n]? = some (.batch batch generation checksTargets) ∧
            (result.succeeded ++ result.failed ++ result.skipped).Perm batch.targets) ∧
      (∀ event (n : Nat) sessionId payload, .sends n sessionId payload ∈ (run.1.step event).2 →
        ∃ batch generation checksTargets,
          run.1.tasks[n]? = some (.batch batch generation checksTargets) ∧
            (sessionId ≠ batch.sourceId → run.1.isBroadcastEnabled n = true) ∧
            (checksTargets = true → ∀ epoch, batch.targetEpochs.lookup sessionId = some epoch →
              run.1.isTargetCurrent sessionId epoch = true)) ∧
      (∀ later (n : Nat) sessionId payload, n < run.1.tasks.length →
        .sends n sessionId payload ∈
          (transducer.run (run.1.step .cancelBroadcasts).1 later).2 →
        ∃ batch generation checksTargets,
          run.1.tasks[n]? = some (.batch batch generation checksTargets) ∧
            sessionId = batch.sourceId) ∧
      (∀ batch generation checksTargets ok, run.1.running = none →
        run.1.tasks[run.1.finished]? = some (.batch batch generation checksTargets) →
          let reaches := run.1.reaches batch generation checksTargets
          let done := run.1.carriedOut batch {} ok reaches batch.targets
          transducer.run run.1
              (.start :: rounds ok (batch.targets.filter reaches)) =
            (done.1, .started run.1.finished :: done.2)) ∧
      ∀ dispatch now ok, run.1.running = some (.dispatch dispatch) →
        let reaches := run.1.reaches dispatch.batch dispatch.generation dispatch.checksTargets
        ∃ result, (dispatch.phase = .sending →
            result = recordSent dispatch now) ∧
          transducer.run run.1
              ([.sent now, .resume, .delayElapsed, .resume] ++
                rounds ok (dispatch.later.filter reaches)) =
            run.1.carriedOut dispatch.batch result ok reaches dispatch.later := by
  intro run
  obtain ⟨ledger, follows⟩ := run_follows isBroadcastEnabled isTargetCurrent events
  refine ⟨?_, fun n batch _ _ known => ?_, ledger.results, ?_, ?_,
    fun _ _ _ ok idle task => batch_driven idle task ok, fun dispatch now ok running => ?_⟩
  · unfold Follows at follows
    split at follows
    next idle => exact follows.1.trans (by rw [idle]; rfl)
    next running => exact follows.1.trans (by rw [running]; rfl)
    next running => exact follows.1.trans (by rw [running]; rfl)
  · exact ⟨batch.targets_spec.1, batch.targets_spec.2, ledger.sent n _ _ _ known⟩
  · intro event n sessionId payload mem
    obtain ⟨batch, generation, checksTargets, task, broadcast, current⟩ := step_sends follows mem
    refine ⟨batch, generation, checksTargets, task, fun other => (broadcast other).1, ?_⟩
    intro checks epoch captured
    unfold isStale at current
    rw [captured, checks] at current
    simpa using current
  · intro later n sessionId payload old mem
    have next := step_follows .cancelBroadcasts ledger follows
    have same := settle_frame
      { run.1 with broadcastGeneration := run.1.broadcastGeneration + 1 } .delaying .awake
    have cancelled : CancelledBefore run.1.tasks.length (run.1.step .cancelBroadcasts).1 := by
      unfold step cancelBroadcasts CancelledBefore
      rw [same.1, same.2]
      exact ⟨Nat.le_refl _, fun n _ _ _ _ known =>
        lt_succ_of_le (ledger.generations n _ _ _ known)⟩
    obtain ⟨batch, generation, checksTargets, task, source⟩ :=
      cancelled_sends next.1 next.2 cancelled later n sessionId payload old mem
    exact ⟨batch, generation, checksTargets, by rw [← same.1]; exact task, source⟩
  · rw [Follows, running] at follows
    obtain ⟨-, -, passed, some, whole, -, -⟩ := follows
    obtain ⟨once, source⟩ := dispatch.batch.targets_spec
    obtain ⟨first, rest, rfl⟩ := exists_cons_of_ne_nil some
    refine dispatch_driven running (fun mem => ?_) now ok
    rw [whole] at once
    exact (nodup_cons.mp once).1 (source first _ whole ▸ mem_append_right rest mem)

/-- Three sessions, the second of which is another than the one that the batch was made for. -/
def reconnectedBatch : SyncInputBatch where
  sourceId := "a"
  text := ['l', 's']
  broadcastEnabled := true
  applyAffixes := false
  settings :=
    { protocols := [.ssh], newlineMode := .preserve, delayMs := 0, prefixText := [], suffixText := [] }
  candidates := ["a", "b", "c"].map fun id => { id, kind := .ssh, connected := true }
  targetEpochs := [("b", some 1)]

/-- The second is passed over, and the send to the third fails. -/
theorem reconnected_batch_dispatched :
    (transducer.run (.fresh (fun _ => true) fun _ _ => false)
      ([.enqueue reconnectedBatch true, .start] ++ rounds (· = "a") ["a", "c"])).2 =
      [.started 0, .sends 0 "a" ['l', 's'], .sends 0 "c" ['l', 's'],
        .finished 0 (some { succeeded := ["a"], failed := ["c"], skipped := ["b"] })] :=
  congrArg Prod.snd ((broadcasts_dispatched (fun _ => true) (fun _ _ => false)
    [.enqueue reconnectedBatch true]).2.2.2.2.2.1 reconnectedBatch 0 true (· = "a") rfl rfl)

end Runs

end SyncInput
end PortMate
