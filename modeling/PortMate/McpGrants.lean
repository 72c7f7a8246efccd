import PortMate.SessionModels

namespace PortMate

/-- The reserved entry of a grant that authorizes no session; an empty list means all sessions. -/
def mcpNoSessionsSentinel : String := "__portmate_no_sessions__"

def isCollectionReadScope : McpScope → Bool
  | .readSessions | .readLogs | .readTransfers | .readTunnels | .readMcp => true
  | _ => false

def isHostLevelScope : McpScope → Bool
  | .tunnel | .manageMcp | .runScripts | .readScripts => true
  | _ => false

namespace McpGrant

def deniesAllSessions (grant : McpGrant) : Bool :=
  grant.allowedSessions = [mcpNoSessionsSentinel]

def active (grant : McpGrant) (now : DateTime) : Bool :=
  grant.revokedAt.isNone && !grant.expiresAt.any fun expires => expires ≤ now

def implies (grant : McpGrant) : McpScope → Bool
  | .readTransfers => grant.scopes.contains .transfer
  | .readTunnels => grant.scopes.contains .tunnel
  | .readScripts => grant.scopes.contains .runScripts
  | _ => false

def reaches (grant : McpGrant) (scope : McpScope) : Option String → Bool
  | some id =>
    !grant.deniesAllSessions &&
      (grant.allowedSessions.isEmpty || grant.allowedSessions.any fun session => session = id)
  | none =>
    if isCollectionReadScope scope || isHostLevelScope scope then true
    else grant.allowedSessions.isEmpty

def allows (grant : McpGrant) (scope : McpScope) (sessionId : Option String) (now : DateTime) :
    Bool :=
  if !grant.active now then false
  else if !grant.scopes.contains scope && !grant.implies scope then false
  else grant.reaches scope sessionId

theorem allows_iff {grant : McpGrant} {scope : McpScope} {sessionId : Option String}
    {now : DateTime} :
    grant.allows scope sessionId now ↔
      grant.active now ∧ (scope ∈ grant.scopes ∨ grant.implies scope) ∧
        grant.reaches scope sessionId := by
  unfold allows
  by_cases active : grant.active now
  · by_cases inScope : scope ∈ grant.scopes <;> by_cases implied : grant.implies scope <;>
      simp [active, inScope, implied]
  · simp [active]

/-- One grant gives nothing to its client that another does not give to the same client. -/
structure Narrows (narrow wide : McpGrant) : Prop where
  clientId : narrow.clientId = wide.clientId
  allows : ∀ scope sessionId now, narrow.allows scope sessionId now → wide.allows scope sessionId now

theorem Narrows.refl (grant : McpGrant) : grant.Narrows grant :=
  ⟨rfl, fun _ _ _ allowed => allowed⟩

theorem narrows_of_revoked {grant wide : McpGrant} (clientId : grant.clientId = wide.clientId)
    (revoked : grant.revokedAt.isSome) : grant.Narrows wide := by
  refine ⟨clientId, fun scope sessionId now allowed => ?_⟩
  have active := (allows_iff.mp allowed).1
  simp [McpGrant.active, Option.isSome_iff_ne_none.mp revoked] at active

theorem narrows_of_sessions {grant wide : McpGrant} {sessions : List String}
    (same : grant = { wide with allowedSessions := sessions }) (fewer : sessions ⊆ wide.allowedSessions)
    (some_left : sessions ≠ []) (allowing : wide.deniesAllSessions = false) :
    grant.Narrows wide := by
  subst same
  refine ⟨rfl, fun scope sessionId now allowed => ?_⟩
  obtain ⟨active, inScope, reached⟩ := allows_iff.mp allowed
  refine allows_iff.mpr ⟨active, inScope, ?_⟩
  cases sessionId with
  | none =>
    simp only [reaches] at reached ⊢
    split at reached
    next level => rw [if_pos level]
    next =>
      rw [List.isEmpty_iff] at reached
      exact absurd reached some_left
  | some id =>
    simp only [reaches, Bool.and_eq_true, Bool.or_eq_true, List.isEmpty_iff, List.any_eq_true,
      decide_eq_true_eq] at reached
    obtain ⟨_, none_left | ⟨session, listed, rfl⟩⟩ := reached
    · exact absurd none_left some_left
    · simp [reaches, allowing, fewer listed]

end McpGrant

namespace SessionStore

def mcpCan (store : SessionStore) (clientId : String) (scope : McpScope)
    (sessionId : Option String) (now : DateTime) : Bool :=
  (store.grants.filter fun grant => grant.clientId = clientId).any fun grant =>
    grant.allows scope sessionId now

theorem mcpCan_iff {store : SessionStore} {clientId : String} {scope : McpScope}
    {sessionId : Option String} {now : DateTime} :
    store.mcpCan clientId scope sessionId now ↔
      ∃ grant ∈ store.grants, grant.clientId = clientId ∧ grant.allows scope sessionId now := by
  simp [mcpCan]

theorem mcpCan_of_narrows {before after : SessionStore}
    (narrowed : ∀ grant ∈ after.grants, ∃ wide ∈ before.grants, grant.Narrows wide)
    {clientId : String} {scope : McpScope} {sessionId : Option String} {now : DateTime}
    (allowed : after.mcpCan clientId scope sessionId now) :
    before.mcpCan clientId scope sessionId now := by
  obtain ⟨grant, listed, rfl, allows⟩ := mcpCan_iff.mp allowed
  obtain ⟨wide, known, narrows⟩ := narrowed grant listed
  exact mcpCan_iff.mpr ⟨wide, known, narrows.clientId.symm, narrows.allows _ _ _ allows⟩

end SessionStore

end PortMate
