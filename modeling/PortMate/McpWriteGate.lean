import PortMate.McpAuthorization
import PortMate.McpWriteTargets

namespace PortMate

open List SessionStore

section Begin

variable {request : IpcRequest} {app : AppState} {now : DateTime} {io : StepIo}
  {scope : McpScope} {sessionId : Option String} {context : McpWriteExecutionContext}
  {task : WriteTask}

theorem mcpScopeAllowed_grant {store : SessionStore} {clientId : String}
    (allowed : mcpScopeAllowed store clientId scope sessionId now) :
    ∃ grant ∈ store.grants, grant.clientId = rustTrim clientId ∧
      grant.allows scope sessionId now := by
  unfold mcpScopeAllowed normalizeMcpClientId at allowed
  split at allowed
  next known normal =>
    split at normal
    · exact mcpCan_iff.mp (Except.ok.inj normal ▸ allowed)
    · exact nomatch normal
  next => exact nomatch allowed

theorem confirmation_required {store : SessionStore} {clientId : String} {grant : McpGrant}
    (nonempty : (rustTrim clientId).isEmpty = false) (listed : grant ∈ store.grants)
    (client : grant.clientId = rustTrim clientId) (confirm : grant.confirmWrites)
    (allows : grant.allows scope sessionId now) :
    mcpWriteConfirmationRequired store clientId scope sessionId now := by
  simp only [mcpWriteConfirmationRequired, nonempty, Bool.not_false, Bool.true_and,
    any_eq_true]
  exact ⟨grant, listed, by simp [client, confirm, allows]⟩

theorem allowed_client_nonempty {store : SessionStore} {clientId : String}
    (allowed : mcpScopeAllowed store clientId scope sessionId now) :
    (rustTrim clientId).isEmpty = false := by
  unfold mcpScopeAllowed normalizeMcpClientId at allowed
  split at allowed
  next normal =>
    split at normal
    next printable =>
      simp only [printableId, Bool.not_or, Bool.and_eq_true, Bool.not_eq_true'] at printable
      exact printable.1.1
    next => exact nomatch normal
  next => exact nomatch allowed

theorem commit_ok {edit : SessionStore → Except String SessionStore} {next : AppState}
    (done : app.commit io edit = (.ok (), next)) :
    (io.persist = .ok () ∨ io.verifyAfterError = .ok true) ∧
      edit app.store = .ok next.store := by
  unfold AppState.commit commitStoreMutationWithState at done
  simp only [MutateClosure.run] at done
  cases edited : edit app.store with
  | error error => simp [edited, MutateClosure.run, Except.mapError] at done
  | ok store =>
    simp only [edited, MutateClosure.run] at done
    cases persist : io.persist with
    | ok value =>
      simp only [persist, Prod.mk.injEq] at done
      exact ⟨.inl rfl, by rw [← done.2]⟩
    | error error =>
      cases verify : io.verifyAfterError with
      | error error' => simp [persist, verify, Except.mapError] at done
      | ok found =>
        cases found with
        | false => simp [persist, verify, Except.mapError] at done
        | true =>
          simp only [persist, verify, Prod.mk.injEq] at done
          exact ⟨.inr rfl, by rw [← done.2]⟩

theorem appendAndSaveMcpAudit_ok {record : AuditRecord} {next : AppState}
    (saved : appendAndSaveMcpAudit app io record = (.ok (), next)) :
    (io.persist = .ok () ∨ io.verifyAfterError = .ok true) ∧ record ∈ next.store.audit := by
  obtain ⟨persisted, stored⟩ := commit_ok saved
  refine ⟨persisted, ?_⟩
  rw [← Except.ok.inj stored]
  exact mem_recordAudit _ _

end Begin

section Gate

variable (checks : RequestChecks) (request : IpcRequest)

/-- What the begin step has seen and done when it lets a write pass. -/
structure Begun (app : AppState) (now : DateTime) (io : StepIo) (task : WriteTask) : Prop where
  scope : ipcWriteScope request.command = some task.scope
  captured : ∃ earlier, captureMcpWriteExecutionContext checks earlier request = .ok task.context
  allowed : ∃ grant ∈ app.store.grants, grant.clientId = rustTrim request.clientId ∧
    grant.allows task.scope task.sessionId now
  persisted : io.persist = .ok () ∨ io.verifyAfterError = .ok true
  recorded : ∃ record ∈ (beginMcpWriteAudit request app now io task.scope task.sessionId
      task.context).2.store.audit, record.id = task.auditId ∧ record.action = request.command ∧
    record.sessionId = task.sessionId
  confirmation : (∃ grant ∈ app.store.grants, grant.clientId = rustTrim request.clientId ∧
    grant.confirmWrites ∧ grant.allows task.scope task.sessionId io.confirmAt) →
    task.approvalRequired

theorem begin_ok {app next : AppState} {now : DateTime} {io : StepIo} {scope : McpScope}
    {sessionId : Option String} {context : McpWriteExecutionContext} {task : WriteTask}
    (known : ipcWriteScope request.command = some scope) {earlier : AppState}
    (captured : captureMcpWriteExecutionContext checks earlier request = .ok context)
    (done : beginMcpWriteAudit request app now io scope sessionId context = (.ok task, next)) :
    Begun checks request app now io task := by
  have whole := done
  unfold beginMcpWriteAudit at done
  dsimp only at done
  split at done
  next => exact nomatch (Prod.mk.inj done).1
  next saved committed =>
    split at done
    next allowed =>
      obtain ⟨rfl, rfl⟩ : _ = task ∧ saved = next :=
        ⟨Except.ok.inj (Prod.mk.inj done).1, (Prod.mk.inj done).2⟩
      obtain ⟨persisted, listed⟩ := appendAndSaveMcpAudit_ok committed
      refine ⟨known, ⟨earlier, captured⟩, mcpScopeAllowed_grant allowed, persisted,
        ⟨_, by rw [whole]; exact listed, rfl, rfl, rfl⟩, ?_⟩
      rintro ⟨grant, known, client, confirm, allows⟩
      dsimp only
      rw [allowed, Bool.true_and]
      exact confirmation_required (allowed_client_nonempty allowed) known client confirm allows
    next => exact nomatch (Prod.mk.inj done).1

/-- How a write got past the user: nobody had to be asked, or the answer was yes. -/
inductive Clearance : List WriteSignal → WriteTask → Prop
  | unasked {app : AppState} {now : DateTime} {io : StepIo} {task : WriteTask}
      (begun : Begun checks request app now io task) (free : task.approvalRequired = false) :
      Clearance [.begun app now io task] task
  | asked {app : AppState} {now : DateTime} {io : StepIo} {task : WriteTask}
      (begun : Begun checks request app now io task) (answer : StepIo) :
      Clearance [.begun app now io task, .approved answer] { task with approval := some "approved" }

/-- The four readings of the revalidation, each at its own moment. -/
structure Revalidated (task : WriteTask) (targetAt grantAt : AppState) (grantNow : DateTime)
    (argsAt contextAt : AppState) : Prop where
  target : ipcWriteSessionId checks targetAt request = .ok task.sessionId
  grant : grantAt.store.mcpCan request.clientId task.scope task.sessionId grantNow
  args : checks.writeArgs argsAt request = .ok ()
  context : task.context.revalidate checks contextAt request = .ok ()

/-- What has been established when the handler stands at a phase, with what it has announced. -/
inductive Progress : WritePhase → List WriteSignal → Prop
  | received : Progress .received []
  | invalid {scope : McpScope} {sessionId : Option String} {error : String} :
      Progress (.invalid scope sessionId error) []
  | resolved {scope : McpScope} {sessionId : Option String}
      (known : ipcWriteScope request.command = some scope) : Progress (.resolved scope sessionId) []
  | validated {scope : McpScope} {sessionId : Option String}
      (known : ipcWriteScope request.command = some scope) : Progress (.validated scope sessionId) []
  | captured {scope : McpScope} {sessionId : Option String} {context : McpWriteExecutionContext}
      (known : ipcWriteScope request.command = some scope) {earlier : AppState}
      (captured : captureMcpWriteExecutionContext checks earlier request = .ok context) :
      Progress (.captured scope sessionId context) []
  | authorized {app : AppState} {now : DateTime} {io : StepIo} {task : WriteTask}
      (begun : Begun checks request app now io task) :
      Progress (.authorized task) [.begun app now io task]
  | answered {app : AppState} {now : DateTime} {io : StepIo} {task : WriteTask}
      {answer : Except String McpApprovalOutcome} (begun : Begun checks request app now io task) :
      Progress (.answered task answer) [.begun app now io task]
  | cleared {trace : List WriteSignal} {task : WriteTask}
      (clearance : Clearance checks request trace task) : Progress (.cleared task) trace
  | retargeted {trace : List WriteSignal} {task : WriteTask} {targetAt : AppState}
      (clearance : Clearance checks request trace task)
      (target : ipcWriteSessionId checks targetAt request = .ok task.sessionId) :
      Progress (.retargeted task) (trace ++ [.retargeted targetAt])
  | regranted {trace : List WriteSignal} {task : WriteTask} {targetAt grantAt : AppState}
      {grantNow : DateTime} (clearance : Clearance checks request trace task)
      (target : ipcWriteSessionId checks targetAt request = .ok task.sessionId)
      (grant : grantAt.store.mcpCan request.clientId task.scope task.sessionId grantNow) :
      Progress (.regranted task) (trace ++ [.retargeted targetAt, .regranted grantAt grantNow])
  | rechecked {trace : List WriteSignal} {task : WriteTask} {targetAt grantAt argsAt : AppState}
      {grantNow : DateTime} (clearance : Clearance checks request trace task)
      (target : ipcWriteSessionId checks targetAt request = .ok task.sessionId)
      (grant : grantAt.store.mcpCan request.clientId task.scope task.sessionId grantNow)
      (args : checks.writeArgs argsAt request = .ok ()) :
      Progress (.rechecked task)
        (trace ++ [.retargeted targetAt, .regranted grantAt grantNow, .rechecked argsAt])
  | confirmed {trace : List WriteSignal} {task : WriteTask}
      {targetAt grantAt argsAt contextAt : AppState} {grantNow : DateTime}
      (clearance : Clearance checks request trace task)
      (revalidated : Revalidated checks request task targetAt grantAt grantNow argsAt contextAt) :
      Progress (.confirmed task)
        (trace ++ [.retargeted targetAt, .regranted grantAt grantNow, .rechecked argsAt,
          .confirmed contextAt])
  | concluding {task : WriteTask} {trace : List WriteSignal} {result : Except String Bool}
      (quiet : ∀ task, .executed task ∉ trace) : Progress (.concluding task result) trace
  | finished {trace : List WriteSignal} {result : Except String Bool}
      (quiet : ∀ task, .executed task ∉ trace) : Progress (.finished result) trace
  | executed {phase : WritePhase} {trace : List WriteSignal} {task : WriteTask}
      {targetAt grantAt argsAt contextAt : AppState} {grantNow : DateTime}
      (ran : (∃ task result, phase = .concluding task result) ∨ ∃ result, phase = .finished result)
      (clearance : Clearance checks request trace task)
      (revalidated : Revalidated checks request task targetAt grantAt grantNow argsAt contextAt) :
      Progress phase
        (trace ++ [.retargeted targetAt, .regranted grantAt grantNow, .rechecked argsAt,
          .confirmed contextAt, .executed task])

variable {checks request}

theorem Clearance.quiet {trace : List WriteSignal} {task : WriteTask}
    (clearance : Clearance checks request trace task) : ∀ other, .executed other ∉ trace := by
  cases clearance with
  | unasked => simp
  | asked => simp

theorem advance_progress {run : WriteRun} {trace : List WriteSignal}
    (progress : Progress checks request run.phase trace) (io : StepIo) :
    Progress checks request (run.advance checks request io).1.phase
      (trace ++ (run.advance checks request io).2) := by
  obtain ⟨app, now, phase⟩ := run
  dsimp only at progress
  cases progress with
  | received =>
    simp only [WriteRun.advance]
    split
    next =>
      split
      · exact .finished (by simp)
      · exact .finished (by simp)
    next scope known =>
      split
      · exact .invalid
      · exact .resolved known
      · split
        · exact .invalid
        · exact .resolved known
  | invalid =>
    simp only [WriteRun.advance]
    split
    · exact .finished (by simp)
    · exact .finished (by simp)
  | resolved known =>
    simp only [WriteRun.advance]
    split
    · exact .invalid
    · exact .validated known
  | validated known =>
    simp only [WriteRun.advance]
    split
    next => exact .invalid
    next context captured => exact .captured known captured
  | captured known captured =>
    simp only [WriteRun.advance]
    split
    next => exact .finished (by simp)
    next task next done =>
      have begun := begin_ok checks request known captured done
      dsimp only
      split
      next => exact .authorized begun
      next free => exact .cleared (.unasked begun (by simpa using free))
  | authorized begun =>
    simp only [WriteRun.advance, append_nil]
    exact .answered begun
  | answered begun =>
    rename_i answer
    cases answer with
    | error error =>
      simp only [WriteRun.advance]
      split
      · exact .finished (by simp)
      · exact .finished (by simp)
    | ok outcome =>
      cases outcome with
      | approved =>
        simp only [WriteRun.advance]
        split
        · exact .finished (by simp)
        · exact .cleared (.asked begun io)
      | denied =>
        simp only [WriteRun.advance]
        split
        · exact .finished (by simp)
        · exact .finished (by simp)
      | timedOut =>
        simp only [WriteRun.advance]
        split
        · exact .finished (by simp)
        · exact .finished (by simp)
  | cleared clearance =>
    simp only [WriteRun.advance]
    split
    next => exact .concluding (by simpa using clearance.quiet)
    next sessionId resolved =>
      split
      next same => exact .retargeted clearance (same ▸ resolved)
      next => exact .concluding (by simpa using clearance.quiet)
  | retargeted clearance target =>
    simp only [WriteRun.advance]
    split
    next grant => simpa using Progress.regranted clearance target grant
    next => exact .concluding (by simpa using clearance.quiet)
  | regranted clearance target grant =>
    simp only [WriteRun.advance]
    split
    next => exact .concluding (by simpa using clearance.quiet)
    next args => simpa using Progress.rechecked clearance target grant args
  | rechecked clearance target grant args =>
    simp only [WriteRun.advance]
    split
    next => exact .concluding (by simpa using clearance.quiet)
    next context => simpa using Progress.confirmed clearance ⟨target, grant, args, context⟩
  | confirmed clearance revalidated =>
    simp only [WriteRun.advance]
    simpa using Progress.executed (.inl ⟨_, io.executed, rfl⟩) clearance revalidated
  | concluding quiet =>
    simp only [WriteRun.advance, append_nil]
    exact .finished quiet
  | finished quiet =>
    simp only [WriteRun.advance, append_nil]
    exact .finished quiet
  | executed ran clearance revalidated =>
    obtain ⟨task, result, rfl⟩ | ⟨result, rfl⟩ := ran
    · simp only [WriteRun.advance, append_nil]
      exact .executed (.inr ⟨result, rfl⟩) clearance revalidated
    · simp only [WriteRun.advance, append_nil]
      exact .executed (.inr ⟨result, rfl⟩) clearance revalidated

theorem run_progress {app : AppState} {now : DateTime} (events : List WriteEvent) :
    Progress checks request
      ((handleIpcRequest checks request).run ⟨app, now, .received⟩ events).1.phase
      ((handleIpcRequest checks request).run ⟨app, now, .received⟩ events).2 := by
  have step : ∀ (run : WriteRun) (trace : List WriteSignal) (event : WriteEvent),
      Progress checks request run.phase trace →
      Progress checks request ((handleIpcRequest checks request).step run event).1.phase
        (trace ++ ((handleIpcRequest checks request).step run event).2) := by
    intro run trace event progress
    cases event with
    | advance io => exact advance_progress progress io
    | elsewhere app now => simpa [handleIpcRequest] using progress
  have start : Progress checks request (WriteRun.mk app now .received).phase [] := .received
  simpa using (handleIpcRequest checks request).run_preserves_trace step start events

theorem advance_answered {run : WriteRun} {io : StepIo} {task : WriteTask}
    (answered : (run.advance checks request io).1.phase = .answered task (.ok .approved)) :
    run.phase = .authorized task ∧ io.approval = .ok .approved := by
  obtain ⟨app, now, phase⟩ := run
  unfold WriteRun.advance at answered
  dsimp only at answered
  repeat' split at answered
  all_goals try cases answered
  case h_6 =>
    obtain ⟨rfl, yes⟩ := WritePhase.answered.inj answered
    exact ⟨rfl, yes⟩

theorem advance_approved {run : WriteRun} {io answer : StepIo}
    (approved : .approved answer ∈ (run.advance checks request io).2) :
    ∃ task, run.phase = .answered task (.ok .approved) := by
  obtain ⟨app, now, phase⟩ := run
  unfold WriteRun.advance at approved
  dsimp only at approved
  repeat' split at approved
  all_goals first | exact ⟨_, rfl⟩ | simp at approved

variable (checks request)

/-- The user was asked for the write, and the answer was yes. -/
def UserApproved (app : AppState) (now : DateTime) (events : List WriteEvent) (task : WriteTask) :
    Prop :=
  ∃ before io after, events = before ++ .advance io :: after ∧ io.approval = .ok .approved ∧
    ((handleIpcRequest checks request).run ⟨app, now, .received⟩ before).1.phase = .authorized task

/-- An approval that is announced or under way is the user's. -/
structure Consent (app : AppState) (now : DateTime) (events : List WriteEvent)
    (phase : WritePhase) (trace : List WriteSignal) : Prop where
  answered : ∀ task, phase = .answered task (.ok .approved) →
    UserApproved checks request app now events task
  approved : ∀ answer, .approved answer ∈ trace → ∃ begunAt begunNow io task,
    trace.head? = some (.begun begunAt begunNow io task) ∧
      UserApproved checks request app now events task

theorem UserApproved.more {app : AppState} {now : DateTime} {events : List WriteEvent}
    {task : WriteTask} (approved : UserApproved checks request app now events task)
    (event : WriteEvent) : UserApproved checks request app now (events ++ [event]) task := by
  obtain ⟨before, io, after, rfl, yes, asked⟩ := approved
  exact ⟨before, io, after ++ [event], by simp, yes, asked⟩

theorem run_consent (app : AppState) (now : DateTime) (events : List WriteEvent) :
    Consent checks request app now events
      ((handleIpcRequest checks request).run ⟨app, now, .received⟩ events).1.phase
      ((handleIpcRequest checks request).run ⟨app, now, .received⟩ events).2 := by
  induction events using List.reverseRecOn with
  | nil => exact ⟨fun _ received => (nomatch received), fun _ mem => absurd mem not_mem_nil⟩
  | append_singleton events event ih =>
    have progress := @run_progress checks request app now events
    rw [Transducer.run_append, Transducer.run_cons, Transducer.run_nil, append_nil]
    dsimp only
    generalize reached : (handleIpcRequest checks request).run ⟨app, now, .received⟩ events = run
      at ih progress ⊢
    obtain ⟨run, trace⟩ := run
    dsimp only at ih progress ⊢
    cases event with
    | elsewhere later time =>
      refine ⟨fun task at' => (ih.answered task at').more checks request _, fun answer mem => ?_⟩
      obtain ⟨begunAt, begunNow, io, task, first, yes⟩ :=
        ih.approved answer (by simpa [handleIpcRequest] using mem)
      exact ⟨begunAt, begunNow, io, task, by simp [first], yes.more checks request _⟩
    | advance io =>
      refine ⟨fun task at' => ?_, fun answer mem => ?_⟩
      · obtain ⟨asked, yes⟩ := advance_answered at'
        exact ⟨events, io, [], rfl, yes, by rw [reached]; exact asked⟩
      · rcases mem_append.mp mem with old | new
        · obtain ⟨begunAt, begunNow, io', task, first, yes⟩ := ih.approved answer old
          exact ⟨begunAt, begunNow, io', task, by simp [first], yes.more checks request _⟩
        · obtain ⟨task, at'⟩ := advance_approved new
          have yes := (ih.answered task at').more checks request (.advance io)
          rw [at'] at progress
          cases progress with
          | answered begun => exact ⟨_, _, _, task, rfl, yes⟩
          | executed ran =>
            obtain ⟨_, _, other⟩ | ⟨_, other⟩ := ran <;> cases other

/-- Where the command names an object of the program, the object is there at the revalidation: the
transfer and the tunnel that give the session, the captured host route, the captured script. -/
structure TargetStands (task : WriteTask) (targetAt contextAt : AppState) : Prop where
  transfer : request.command = "cancel_transfer" ∨ request.command = "retry_transfer" →
    ∃ transfer ∈ targetAt.store.transfers,
      ipcStringArg request.args "transferId" = .ok transfer.id ∧
      task.sessionId = some transfer.sessionId
  tunnel : request.command = "stop_tunnel" →
    ∃ tunnelId runtime, ipcStringArg request.args "tunnelId" = .ok tunnelId ∧
      targetAt.openTunnel? tunnelId = some runtime ∧
      task.sessionId =
        if runtime.spec.egress = .portmateHost then none else some runtime.sessionId
  exchange : request.command = "tunnel_request" ∨ request.command = "udp_request" →
    ∃ tunnelId ownerId runtimeId runtime,
      task.context = .tunnelExchange tunnelId ownerId runtimeId ∧
      contextAt.openTunnel? tunnelId = some runtime ∧ runtime.sessionId = ownerId ∧
      runtime.sshRuntimeId = runtimeId ∧ runtime.spec.egress = .portmateHost
  script : request.command = "run_custom_script" →
    ∃ script ∈ contextAt.store.customScripts,
      task.context = .customScript script.id script.updatedAt

variable {checks request}

theorem target_stands {task : WriteTask} {targetAt grantAt argsAt contextAt earlier : AppState}
    {grantNow : DateTime}
    (captured : captureMcpWriteExecutionContext checks earlier request = .ok task.context)
    (revalidated : Revalidated checks request task targetAt grantAt grantNow argsAt contextAt) :
    TargetStands request task targetAt contextAt where
  transfer command := transfer_target command revalidated.target
  tunnel command := stop_tunnel_target command revalidated.target
  exchange command := by
    obtain ⟨tunnelId, ownerId, runtimeId, context⟩ := exchange_captured command captured
    have confirmed := revalidated.context
    rw [context] at confirmed
    obtain ⟨runtime, found⟩ := exchange_revalidated confirmed
    exact ⟨tunnelId, ownerId, runtimeId, runtime, context, found⟩
  script command := by
    obtain ⟨scriptId, updatedAt, context⟩ := script_captured command captured
    have confirmed := revalidated.context
    rw [context] at confirmed
    obtain ⟨script, listed, rfl, rfl⟩ := script_revalidated confirmed
    exact ⟨script, listed, context⟩

variable (checks request)

theorem executed_write_passed_the_gate (app : AppState) (now : DateTime)
    (events : List WriteEvent) (task : WriteTask)
    (executed : .executed task ∈
      ((handleIpcRequest checks request).run ⟨app, now, .received⟩ events).2) :
    ∃ begunAt begunNow io begun approvals targetAt grantAt grantNow argsAt contextAt,
      ((handleIpcRequest checks request).run ⟨app, now, .received⟩ events).2 =
        .begun begunAt begunNow io begun :: approvals ++
          [.retargeted targetAt, .regranted grantAt grantNow, .rechecked argsAt,
            .confirmed contextAt, .executed task] ∧
      task = { begun with approval := task.approval } ∧
      Begun checks request begunAt begunNow io begun ∧
      (begun.approvalRequired → (∃ answer, approvals = [.approved answer]) ∧
        UserApproved checks request app now events begun) ∧
      ipcWriteSessionId checks targetAt request = .ok task.sessionId ∧
      TargetStands request task targetAt contextAt ∧
      (∃ grant ∈ grantAt.store.grants, grant.clientId = request.clientId ∧
        grant.allows task.scope task.sessionId grantNow) ∧
      checks.writeArgs argsAt request = .ok () := by
  have consent := (run_consent checks request app now events).approved
  have progress : Progress checks request
      ((handleIpcRequest checks request).run ⟨app, now, .received⟩ events).1.phase
      ((handleIpcRequest checks request).run ⟨app, now, .received⟩ events).2 := run_progress events
  generalize ((handleIpcRequest checks request).run ⟨app, now, .received⟩ events).1.phase = phase
    at progress
  generalize ((handleIpcRequest checks request).run ⟨app, now, .received⟩ events).2 = trace
    at progress executed consent ⊢
  cases progress with
  | executed ran clearance revalidated =>
    rename_i trace done targetAt grantAt argsAt contextAt grantNow
    have same : task = done := by
      have quiet := clearance.quiet task
      simpa [quiet] using executed
    subst same
    have grant := mcpCan_iff.mp revalidated.grant
    cases clearance with
    | @unasked begunAt begunNow io _ begun free =>
      obtain ⟨earlier, captured⟩ := begun.captured
      exact ⟨begunAt, begunNow, io, task, [], targetAt, grantAt, grantNow, argsAt, contextAt,
        rfl, rfl, begun, fun required => by simp [free] at required, revalidated.target,
        target_stands captured revalidated, grant, revalidated.args⟩
    | @asked begunAt begunNow io asked begun answer =>
      obtain ⟨earlier, captured⟩ := begun.captured
      obtain ⟨_, _, _, task, first, yes⟩ := consent answer (by simp)
      obtain ⟨-, -, -, rfl⟩ := WriteSignal.begun.inj (Option.some.inj first)
      exact ⟨begunAt, begunNow, io, asked, [.approved answer], targetAt, grantAt, grantNow, argsAt,
        contextAt, rfl, rfl, begun, fun _ => ⟨⟨answer, rfl⟩, yes⟩, revalidated.target,
        target_stands captured revalidated, grant, revalidated.args⟩
  | concluding quiet => exact absurd executed (quiet task)
  | finished quiet => exact absurd executed (quiet task)
  | cleared clearance => exact absurd executed (clearance.quiet task)
  | retargeted clearance => simp [clearance.quiet task] at executed
  | regranted clearance => simp [clearance.quiet task] at executed
  | rechecked clearance => simp [clearance.quiet task] at executed
  | confirmed clearance => simp [clearance.quiet task] at executed
  | _ => simp at executed

end Gate

section Schedules

/-- The checks on a text to send that is in order. -/
def plainChecks : RequestChecks where
  tunnelRequest := fun _ => .error "invalid tunnel request"
  startTransfer := fun _ => .error "start_transfer requires protocol"
  tunnelExchange := fun _ => .error "invalid MCP tunnel request"
  udpExchange := fun _ => .error "invalid UDP tunnel request"
  customScript := fun _ => .ok ()
  described := fun _ _ => .ok ()
  writeArgs := fun _ _ => .ok ()

def sendText : IpcRequest :=
  ⟨"agent", false, "send_text", .obj [("sessionId", .str "bench"), ("text", .str "ls")]⟩

def writeGrant (sessions : List String) (confirmWrites : Bool) : McpGrant :=
  ⟨"agent", "agent", [.writeInput], sessions, confirmWrites, none, none⟩

def grantedApp (profiles : List SessionProfile) (grants : List McpGrant) : AppState where
  store := { default with profiles := profiles, grants := grants }
  sink := ⟨.inactive, []⟩
  tunnels := []
  uploads := fun _ _ => .error "unknown or unavailable MCP content upload"

def benchProfile : SessionProfile := ⟨"bench", "bench", .shell, "lab", []⟩

def smoothIo : StepIo := ⟨"audit-1", 0, .ok (), .ok true, .ok .approved, .ok true⟩

def sendTextTask (approvalRequired : Bool) (approval : Option String) : WriteTask :=
  ⟨.writeInput, some "bench", .described, "audit-1", approvalRequired, approval⟩

/-- The write is let in, then `between` happens, and then the handler goes on. -/
def sendTextRun (grant : McpGrant) (between : List WriteEvent) : List WriteSignal :=
  ((handleIpcRequest plainChecks sendText).run ⟨grantedApp [benchProfile] [grant], 0, .received⟩
    (List.replicate 4 (.advance smoothIo) ++ between ++
      List.replicate 7 (.advance smoothIo))).2

def WriteSignal.executedTask? : WriteSignal → Option WriteTask
  | .executed task => some task
  | _ => none

def WriteSignal.retargetedStore? : WriteSignal → Option SessionStore
  | .retargeted app => some app.store
  | _ => none

def WriteSignal.begunStore? : WriteSignal → Option (SessionStore × DateTime × WriteTask)
  | .begun app now _ task => some (app.store, now, task)
  | _ => none

def WriteSignal.regrantedStore? : WriteSignal → Option SessionStore
  | .regranted app _ => some app.store
  | _ => none

theorem executed_mem {trace : List WriteSignal} {task : WriteTask}
    (found : trace.filterMap WriteSignal.executedTask? = [task]) : .executed task ∈ trace := by
  obtain ⟨signal, listed, named⟩ := mem_filterMap.mp (found ▸ mem_singleton_self task)
  cases signal with
  | executed known =>
    obtain rfl := Option.some.inj named
    exact listed
  | _ => exact nomatch named

theorem confirmed_text_was_approved :
    (∃ answer, .approved answer ∈ sendTextRun (writeGrant ["bench"] true) []) ∧
      ∃ events task, UserApproved plainChecks sendText
        (grantedApp [benchProfile] [writeGrant ["bench"] true]) 0 events task := by
  have executed : (sendTextRun (writeGrant ["bench"] true) []).filterMap
      WriteSignal.executedTask? = [sendTextTask true (some "approved")] := by decide
  have member := executed_mem executed
  unfold sendTextRun at member
  obtain ⟨_, _, _, begun, approvals, _, _, _, _, _, trace, same, _, approved, _⟩ :=
    executed_write_passed_the_gate plainChecks sendText _ _ _ _ member
  have required : begun.approvalRequired = true :=
    (congrArg WriteTask.approvalRequired same).symm
  obtain ⟨⟨answer, rfl⟩, yes⟩ := approved required
  refine ⟨⟨answer, ?_⟩, _, _, yes⟩
  rw [sendTextRun, trace]
  simp

/-- The profile is deleted, and the grant revoked, while another grant of the client stands. -/
def deletedAndRevoked : AppState :=
  grantedApp [] [{ writeGrant [] false with revokedAt := some 1 }, writeGrant [] false]

theorem executed_without_profile_or_first_grant :
    (¬ ∀ events task targetAt sessionId,
      .executed task ∈ sendTextRun (writeGrant [] false) events →
      .retargeted targetAt ∈ sendTextRun (writeGrant [] false) events →
      task.sessionId = some sessionId →
      ∃ profile ∈ targetAt.store.profiles, profile.id = sessionId) ∧
    ¬ ∀ events task begunAt begunNow io begun grantAt grantNow,
      .executed task ∈ sendTextRun (writeGrant [] false) events →
      .begun begunAt begunNow io begun ∈ sendTextRun (writeGrant [] false) events →
      .regranted grantAt grantNow ∈ sendTextRun (writeGrant [] false) events →
      ∀ grant ∈ begunAt.store.grants, grant.allows begun.scope begun.sessionId begunNow →
        ∀ revokedAt, { grant with revokedAt := some revokedAt } ∉ grantAt.store.grants := by
  let trace := sendTextRun (writeGrant [] false) [.elsewhere deletedAndRevoked 2]
  have executed : trace.filterMap WriteSignal.executedTask? = [sendTextTask false none] := by
    decide
  have retargeted : trace.filterMap WriteSignal.retargetedStore? =
      [deletedAndRevoked.store] := by decide
  have begun : trace.filterMap WriteSignal.begunStore? =
      [((grantedApp [benchProfile] [writeGrant [] false]).store, 0, sendTextTask false none)] := by
    decide
  have regranted : trace.filterMap WriteSignal.regrantedStore? =
      [deletedAndRevoked.store] := by decide
  refine ⟨fun claimed => ?_, fun claimed => ?_⟩
  · obtain ⟨signal, listed, named⟩ :=
      mem_filterMap.mp (retargeted ▸ mem_singleton_self deletedAndRevoked.store)
    cases signal with
    | retargeted targetAt =>
      have present := claimed _ _ targetAt "bench" (executed_mem executed) listed rfl
      rw [Option.some.inj named] at present
      exact absurd present (by decide)
    | _ => exact nomatch named
  · obtain ⟨signal, listed, named⟩ :=
      mem_filterMap.mp (regranted ▸ mem_singleton_self deletedAndRevoked.store)
    obtain ⟨first, firstListed, firstNamed⟩ := mem_filterMap.mp (begun ▸
      mem_singleton_self
        ((grantedApp [benchProfile] [writeGrant [] false]).store, 0, sendTextTask false none))
    cases signal with
    | regranted grantAt grantNow =>
      cases first with
      | begun begunAt begunNow io task =>
        simp only [WriteSignal.begunStore?, Option.some.injEq, Prod.mk.injEq] at firstNamed
        obtain ⟨sameStore, rfl, rfl⟩ := firstNamed
        have gone := claimed _ _ begunAt _ io _ grantAt grantNow (executed_mem executed)
          firstListed listed (writeGrant [] false) (by rw [sameStore]; decide) (by decide) 1
        rw [Option.some.inj named] at gone
        exact absurd gone (by decide)
      | _ => exact nomatch firstNamed
    | _ => exact nomatch named

end Schedules

end PortMate
