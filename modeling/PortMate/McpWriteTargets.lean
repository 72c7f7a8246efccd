import PortMate.McpRequests

namespace PortMate

open List Except McpWriteExecutionContext

variable {checks : RequestChecks} {request : IpcRequest} {app : AppState}
  {sessionId : Option String} {context : McpWriteExecutionContext}

theorem transfer_target
    (command : request.command = "cancel_transfer" ∨ request.command = "retry_transfer")
    (target : ipcWriteSessionId checks app request = .ok sessionId) :
    ∃ transfer ∈ app.store.transfers,
      ipcStringArg request.args "transferId" = .ok transfer.id ∧
      sessionId = some transfer.sessionId := by
  have others : request.command ∉ ["tunnel_request", "udp_request", "restart_mcp_http",
      "run_custom_script", "create_tunnel", "start_transfer"] := by
    obtain same | same := command <;> simp [same]
  simp only [mem_cons, not_mem_nil, or_false, not_or] at others
  obtain ⟨tunnel, udp, restart, script, create, start⟩ := others
  simp only [ipcWriteSessionId, tunnel, udp, restart, script, create, start, command, or_self,
    if_false, if_true] at target
  obtain ⟨transferId, named, target⟩ := except_bind_eq_ok target
  obtain ⟨_, _, target⟩ := except_bind_eq_ok target
  split at target
  next transfer found =>
    have id : transfer.id = transferId := by simpa using find?_some found
    exact ⟨transfer, mem_of_find?_eq_some found, id ▸ named, (ok.inj target).symm⟩
  next => exact nomatch target

theorem stop_tunnel_target (command : request.command = "stop_tunnel")
    (target : ipcWriteSessionId checks app request = .ok sessionId) :
    ∃ tunnelId runtime, ipcStringArg request.args "tunnelId" = .ok tunnelId ∧
      app.openTunnel? tunnelId = some runtime ∧
      sessionId = if runtime.spec.egress = .portmateHost then none else some runtime.sessionId := by
  simp only [ipcWriteSessionId, command, String.reduceEq, or_self, if_false, if_true] at target
  obtain ⟨tunnelId, named, target⟩ := except_bind_eq_ok target
  obtain ⟨_, _, target⟩ := except_bind_eq_ok target
  split at target
  next => exact nomatch target
  next runtime found =>
    refine ⟨tunnelId, runtime, named, found, ?_⟩
    split at target
    next host =>
      obtain ⟨owner, _, target⟩ := except_bind_eq_ok target
      split at target
      · exact nomatch target
      · rw [if_pos host]
        exact (ok.inj target).symm
    next ssh =>
      rw [if_neg ssh]
      exact (ok.inj target).symm

theorem exchange_captured
    (command : request.command = "tunnel_request" ∨ request.command = "udp_request")
    (captured : captureMcpWriteExecutionContext checks app request = .ok context) :
    ∃ tunnelId ownerId runtimeId, context = .tunnelExchange tunnelId ownerId runtimeId := by
  unfold captureMcpWriteExecutionContext at captured
  rw [if_pos command] at captured
  obtain ⟨exchange, _, captured⟩ := except_bind_eq_ok captured
  obtain ⟨ownerId, _, captured⟩ := except_bind_eq_ok captured
  split at captured
  next => exact nomatch captured
  next runtime _ => exact ⟨_, _, _, (ok.inj captured).symm⟩

theorem script_captured (command : request.command = "run_custom_script")
    (captured : captureMcpWriteExecutionContext checks app request = .ok context) :
    ∃ scriptId updatedAt, context = .customScript scriptId updatedAt := by
  simp only [captureMcpWriteExecutionContext, command, String.reduceEq, or_self, if_false,
    describedCommands, mem_cons, not_mem_nil, ne_eq, not_true_eq_false] at captured
  obtain ⟨scriptId, _, captured⟩ := except_bind_eq_ok captured
  obtain ⟨script, _, captured⟩ := except_bind_eq_ok captured
  exact ⟨_, _, (ok.inj captured).symm⟩

theorem exchange_revalidated {tunnelId ownerId runtimeId : String}
    (confirmed : revalidate checks app request
      (.tunnelExchange tunnelId ownerId runtimeId) = .ok ()) :
    ∃ runtime, app.openTunnel? tunnelId = some runtime ∧ runtime.sessionId = ownerId ∧
      runtime.sshRuntimeId = runtimeId ∧ runtime.spec.egress = .portmateHost := by
  simp only [revalidate] at confirmed
  obtain ⟨changed, _, confirmed⟩ := except_bind_eq_ok confirmed
  split at confirmed
  · exact nomatch confirmed
  · split at confirmed
    next => exact nomatch confirmed
    next runtime found =>
      obtain ⟨opened, same⟩ := Option.filter_eq_some_iff.mp found
      exact ⟨runtime, opened, by simpa using same⟩

theorem hostScriptForClient_found {store : SessionStore} {id : String} {client : Option String}
    {script : CustomScript} (found : hostScriptForClient checks store id client = .ok script) :
    script ∈ store.customScripts ∧ script.id = id := by
  unfold hostScriptForClient at found
  split at found
  next => exact nomatch found
  next known listed =>
    obtain ⟨_, _, found⟩ := except_bind_eq_ok found
    split at found
    · exact nomatch found
    · obtain rfl := ok.inj found
      exact ⟨mem_of_find?_eq_some listed, by simpa using find?_some listed⟩

theorem script_revalidated {scriptId : String} {updatedAt : DateTime}
    (confirmed : revalidate checks app request
      (.customScript scriptId updatedAt) = .ok ()) :
    ∃ script ∈ app.store.customScripts, script.id = scriptId ∧ script.updatedAt = updatedAt := by
  simp only [revalidate] at confirmed
  obtain ⟨current, _, confirmed⟩ := except_bind_eq_ok confirmed
  split at confirmed
  · exact nomatch confirmed
  · obtain ⟨script, found, confirmed⟩ := except_bind_eq_ok confirmed
    split at confirmed
    next => exact nomatch confirmed
    next same =>
      obtain ⟨listed, id⟩ := hostScriptForClient_found found
      exact ⟨script, listed, id, by simpa using same⟩

end PortMate
