import Mathlib.Data.List.Forall2
import PortMate.McpGrants
import PortMate.SystemEvents

namespace PortMate

open List

def SessionRuntime.live (runtime : SessionRuntime) : Bool :=
  match runtime.status with
  | .disconnected | .blocked | .error => false
  | _ => true

def TransferTask.pending (transfer : TransferTask) : Bool :=
  match transfer.status with
  | .queued | .running => true
  | _ => false

/-- A key of the profile itself goes; a wider key only forgets where it came from. -/
def HostKeyStore.forgetProfile (hostKeys : HostKeyStore) (sessionId : String) : HostKeyStore where
  keys :=
    (hostKeys.keys.filter fun key => !(key.scope = .profile && key.profileId = some sessionId)).map
      fun key => if key.profileId = some sessionId then { key with profileId := none } else key

def OneKeyCredential.unbind (oneKey : OneKeyCredential) (sessionId : String) (now : DateTime) :
    OneKeyCredential :=
  let remaining := oneKey.sessionIds.filter fun bound => bound ≠ sessionId
  let removedIdentity := oneKey.identity.any fun identity => identity.sourceProfileId = sessionId
  { oneKey with
    sessionIds := remaining
    identity := if removedIdentity then none else oneKey.identity
    updatedAt :=
      if oneKey.sessionIds.length ≠ remaining.length || removedIdentity then now
      else oneKey.updatedAt }

open OneKeyCredential

/-- A grant that loses its last session is revoked, since an empty list would mean all sessions. -/
def McpGrant.removeSession (grant : McpGrant) (sessionId : String) (now : DateTime) : McpGrant :=
  if grant.allowedSessions.isEmpty || grant.deniesAllSessions then grant
  else
    let remaining := grant.allowedSessions.filter fun allowed => allowed ≠ sessionId
    { grant with
      allowedSessions := remaining
      revokedAt :=
        if grant.allowedSessions.length ≠ remaining.length && remaining.isEmpty &&
            grant.revokedAt.isNone then some now
        else grant.revokedAt }

open McpGrant

namespace SessionStore

/-- Everything after the checks: the first profile with the id and all that belongs to it go. -/
def eraseProfile (store : SessionStore) (sessionId : String) (now : DateTime) : SessionStore :=
  { store with
    profiles := store.profiles.eraseP fun profile => profile.id = sessionId
    runtimes := store.runtimes.filter fun runtime => runtime.sessionId ≠ sessionId
    events := store.events.filter fun event => event.sessionId ≠ sessionId
    eventCounts := store.eventCounts.filter fun entry => entry.1 ≠ sessionId
    terminalScreens := store.terminalScreens.filter fun entry => entry.1 ≠ sessionId
    transfers := store.transfers.filter fun transfer => transfer.sessionId ≠ sessionId
    timeline := store.timeline.filter fun mark => mark.sessionId ≠ sessionId
    sysmon := store.sysmon.filter fun snapshot => snapshot.sessionId ≠ sessionId
    hostKeys := store.hostKeys.forgetProfile sessionId
    oneKeys := store.oneKeys.map fun oneKey => oneKey.unbind sessionId now
    grants := store.grants.map fun grant => grant.removeSession sessionId now }

def deleteProfileDeferredSystemEventCleanup (store : SessionStore) (sessionId : String)
    (now : DateTime) : Except String SessionProfile × SessionStore :=
  match store.profiles.find? fun profile => profile.id = sessionId with
  | none => (.error s!"unknown session: {sessionId}", store)
  | some profile =>
    if store.runtimes.any fun runtime => runtime.sessionId = sessionId && runtime.live then
      (.error "session must be disconnected before deleting its profile", store)
    else if store.transfers.any fun transfer =>
        transfer.sessionId = sessionId && transfer.pending then
      (.error "session has an active transfer and cannot be deleted", store)
    else (.ok profile, store.eraseProfile sessionId now)

def deleteProfile (store : SessionStore) (sink : SystemEventSinkState) (sessionId : String)
    (now : DateTime) : Except String SessionProfile × SessionStore × SystemEventSinkState :=
  match store.deleteProfileDeferredSystemEventCleanup sessionId now with
  | (.error error, next) => (.error error, next, sink)
  | (.ok profile, next) => (.ok profile, next, sink.discardSession sessionId)

theorem deleteProfile_cases (store : SessionStore) (sink : SystemEventSinkState)
    (sessionId : String) (now : DateTime) :
    (∃ error, store.deleteProfile sink sessionId now = (.error error, store, sink)) ∨
    ∃ profile ∈ store.profiles, profile.id = sessionId ∧
      store.deleteProfile sink sessionId now =
        (.ok profile, store.eraseProfile sessionId now, sink.discardSession sessionId) := by
  unfold deleteProfile deleteProfileDeferredSystemEventCleanup
  cases found : store.profiles.find? fun profile => profile.id = sessionId with
  | none => exact .inl ⟨_, rfl⟩
  | some profile =>
    dsimp only
    split_ifs
    · exact .inl ⟨_, rfl⟩
    · exact .inl ⟨_, rfl⟩
    · exact .inr ⟨profile, mem_of_find?_eq_some found,
        by simpa using find?_some found, rfl⟩

end SessionStore

open SessionStore

def OneKeyCredential.Mentions (oneKey : OneKeyCredential) (sessionId : String) : Prop :=
  sessionId ∈ oneKey.sessionIds ∨
    ∃ identity, oneKey.identity = some identity ∧ identity.sourceProfileId = sessionId

theorem filter_length_eq_of_not_mem {sessionIds : List String} {sessionId : String}
    (absent : sessionId ∉ sessionIds) :
    sessionIds.filter (fun bound => bound ≠ sessionId) = sessionIds := by
  rw [filter_eq_self]
  intro bound listed
  have other : bound ≠ sessionId := fun same => absent (same ▸ listed)
  simpa using other

theorem unbind_of_not_mentions {oneKey : OneKeyCredential} {sessionId : String}
    (free : ¬ oneKey.Mentions sessionId) (now : DateTime) :
    oneKey.unbind sessionId now = oneKey := by
  have unbound : sessionId ∉ oneKey.sessionIds := fun listed => free (.inl listed)
  have kept : (oneKey.identity.any fun identity => identity.sourceProfileId = sessionId) = false := by
    cases identity : oneKey.identity with
    | none => rfl
    | some identity' =>
      have other : identity'.sourceProfileId ≠ sessionId := fun same =>
        free (.inr ⟨identity', identity, same⟩)
      simpa using other
  unfold unbind
  simp only [filter_length_eq_of_not_mem unbound, kept]
  simp

variable (oneKey : OneKeyCredential)

theorem unbind_not_mentions (sessionId : String) (now : DateTime) :
    ¬ (oneKey.unbind sessionId now).Mentions sessionId := by
  rintro (listed | ⟨identity, kept, same⟩)
  · simp [unbind] at listed
  · simp only [unbind] at kept
    split at kept
    next => simp at kept
    next other => simp [kept, same] at other

section Grants

variable (grant : McpGrant) (sessionId : String) (now : DateTime)

theorem removeSession_of_not_mem (absent : sessionId ∉ grant.allowedSessions) :
    grant.removeSession sessionId now = grant := by
  unfold removeSession
  split
  · rfl
  · simp only [filter_length_eq_of_not_mem absent]; simp

theorem removeSession_mem (listed : sessionId ∈ (grant.removeSession sessionId now).allowedSessions) :
    (grant.removeSession sessionId now).deniesAllSessions := by
  unfold removeSession at listed ⊢
  split at listed
  next skipped =>
    rw [if_pos skipped]
    rw [Bool.or_eq_true, List.isEmpty_iff] at skipped
    obtain none_listed | denies := skipped
    · simp [none_listed] at listed
    · exact denies
  next => simp at listed

theorem removeSession_narrows : (grant.removeSession sessionId now).Narrows grant := by
  by_cases listed : sessionId ∈ grant.allowedSessions
  · by_cases skipped : grant.allowedSessions.isEmpty || grant.deniesAllSessions
    · rw [removeSession, if_pos skipped]
      exact .refl grant
    · have allowing : grant.deniesAllSessions = false := by
        cases denies : grant.deniesAllSessions with
        | false => rfl
        | true => simp [denies] at skipped
      rw [removeSession, if_neg skipped]
      have shorter : grant.allowedSessions.length ≠
          (grant.allowedSessions.filter fun allowed => allowed ≠ sessionId).length := by
        have gone : (grant.allowedSessions.filter fun allowed => allowed ≠ sessionId).length <
            grant.allowedSessions.length :=
          length_filter_lt_length_iff_exists.mpr ⟨sessionId, listed, by simp⟩
        omega
      cases remaining : grant.allowedSessions.filter fun allowed => allowed ≠ sessionId with
      | nil =>
        refine narrows_of_revoked rfl ?_
        cases revoked : grant.revokedAt with
        | none => simp [ne_nil_of_mem listed]
        | some at_ => simp
      | cons first rest =>
        refine @McpGrant.narrows_of_sessions _ _ (first :: rest) ?_ ?_ (by simp) allowing
        · simp
        · rw [← remaining]
          exact filter_subset_self _
  · rw [removeSession_of_not_mem grant sessionId now listed]
    exact .refl grant

end Grants

/-- No record of the id is left, but for the sentinel in a grant that denies all sessions. -/
structure ProfileErased (sessionId : String) (store : SessionStore) : Prop where
  runtimes : ∀ runtime ∈ store.runtimes, runtime.sessionId ≠ sessionId
  events : ∀ event ∈ store.events, event.sessionId ≠ sessionId
  eventCounts : ∀ entry ∈ store.eventCounts, entry.1 ≠ sessionId
  terminalScreens : ∀ entry ∈ store.terminalScreens, entry.1 ≠ sessionId
  transfers : ∀ transfer ∈ store.transfers, transfer.sessionId ≠ sessionId
  timeline : ∀ mark ∈ store.timeline, mark.sessionId ≠ sessionId
  sysmon : ∀ snapshot ∈ store.sysmon, snapshot.sessionId ≠ sessionId
  hostKeys : ∀ key ∈ store.hostKeys.keys, key.profileId ≠ some sessionId
  oneKeys : ∀ oneKey ∈ store.oneKeys, ¬ oneKey.Mentions sessionId
  grants : ∀ grant ∈ store.grants, sessionId ∈ grant.allowedSessions → grant.deniesAllSessions

/-- A credential shared with other sessions only loses the id, and the identity taken from it. -/
structure OneKeyCredential.Unbound (sessionId : String) (old new : OneKeyCredential) : Prop where
  sessionIds : new.sessionIds = old.sessionIds.filter fun bound => bound ≠ sessionId
  identity : new.identity =
    old.identity.filter fun identity => identity.sourceProfileId ≠ sessionId
  rest : { new with
    sessionIds := old.sessionIds, identity := old.identity, updatedAt := old.updatedAt } = old

/-- A grant for other sessions too only loses the id, and is revoked when none is left. -/
structure McpGrant.Shortened (sessionId : String) (old new : McpGrant) : Prop where
  listed : sessionId ∈ old.allowedSessions
  sessions : new.allowedSessions = old.allowedSessions.filter fun allowed => allowed ≠ sessionId
  revoked : new.revokedAt = old.revokedAt ∨ new.allowedSessions = []
  rest : { new with allowedSessions := old.allowedSessions, revokedAt := old.revokedAt } = old

/-- What does not belong to the id is as it was, and in the same order; what belongs to other
sessions too only forgets the id. -/
structure OthersKept (sessionId : String) (before after : SessionStore) : Prop where
  profiles : after.profiles.filter (fun profile => profile.id ≠ sessionId) =
    before.profiles.filter fun profile => profile.id ≠ sessionId
  runtimes : after.runtimes = before.runtimes.filter fun runtime => runtime.sessionId ≠ sessionId
  events : after.events = before.events.filter fun event => event.sessionId ≠ sessionId
  eventCounts : after.eventCounts = before.eventCounts.filter fun entry => entry.1 ≠ sessionId
  terminalScreens : after.terminalScreens =
    before.terminalScreens.filter fun entry => entry.1 ≠ sessionId
  transfers : after.transfers =
    before.transfers.filter fun transfer => transfer.sessionId ≠ sessionId
  timeline : after.timeline = before.timeline.filter fun mark => mark.sessionId ≠ sessionId
  sysmon : after.sysmon = before.sysmon.filter fun snapshot => snapshot.sessionId ≠ sessionId
  hostKeys : List.Forall₂
    (fun old new => new = if old.profileId = some sessionId then { old with profileId := none } else old)
    (before.hostKeys.keys.filter fun key =>
      !(key.scope = .profile && key.profileId = some sessionId)) after.hostKeys.keys
  oneKeys : List.Forall₂
    (fun old new => OneKeyCredential.Unbound sessionId old new ∧ (old.Mentions sessionId ∨ new = old))
    before.oneKeys after.oneKeys
  grants : List.Forall₂ (fun old new => McpGrant.Shortened sessionId old new ∨ new = old)
    before.grants after.grants
  audit : after.audit = before.audit
  customScripts : after.customScripts = before.customScripts

theorem filter_eraseP_same {α : Type} (p : α → Bool) (items : List α) :
    (items.eraseP p).filter (fun item => !p item) = items.filter fun item => !p item := by
  induction items with
  | nil => rfl
  | cons item items ih =>
    by_cases hit : p item
    · simp [eraseP_cons_of_pos hit, hit]
    · rw [eraseP_cons_of_neg hit, filter_cons, filter_cons, ih]

theorem eraseP_single {α : Type} {p : α → Bool} {items : List α} (single : items.countP p ≤ 1) :
    ∀ item ∈ items.eraseP p, ¬ p item := by
  induction items with
  | nil => simp
  | cons first items ih =>
    by_cases hit : p first
    · rw [countP_cons_of_pos hit] at single
      rw [eraseP_cons_of_pos hit]
      exact countP_eq_zero.mp (by omega)
    · rw [countP_cons_of_neg hit] at single
      rw [eraseP_cons_of_neg hit]
      intro item listed
      obtain rfl | later := mem_cons.mp listed
      · exact hit
      · exact ih single item later

theorem forgetProfile_keys {hostKeys : HostKeyStore} {sessionId : String} {key : TrustedHostKey}
    (listed : key ∈ (hostKeys.forgetProfile sessionId).keys) : key.profileId ≠ some sessionId := by
  simp only [HostKeyStore.forgetProfile, mem_map] at listed
  obtain ⟨old, _, rfl⟩ := listed
  split
  next => simp
  next other => exact other

theorem unbind_unbound (sessionId : String) (now : DateTime) :
    OneKeyCredential.Unbound sessionId oneKey (oneKey.unbind sessionId now) where
  sessionIds := rfl
  identity := by
    unfold unbind
    cases oneKey.identity with
    | none => rfl
    | some identity =>
      by_cases own : identity.sourceProfileId = sessionId <;> simp [Option.filter, own]
  rest := rfl

theorem removeSession_shortened (grant : McpGrant) (sessionId : String) (now : DateTime) :
    McpGrant.Shortened sessionId grant (grant.removeSession sessionId now) ∨
      grant.removeSession sessionId now = grant := by
  by_cases listed : sessionId ∈ grant.allowedSessions
  · unfold removeSession
    split
    next => exact .inr rfl
    next =>
      refine .inl ⟨listed, rfl, ?_, rfl⟩
      dsimp only
      split
      next emptied =>
        simp only [Bool.and_eq_true, List.isEmpty_iff] at emptied
        exact .inr emptied.1.2
      next => exact .inl rfl
  · exact .inr (removeSession_of_not_mem grant sessionId now listed)

section Erase

variable (store : SessionStore) (sessionId : String) (now : DateTime)

theorem eraseProfile_erased : ProfileErased sessionId (store.eraseProfile sessionId now) where
  runtimes := by simp [eraseProfile]
  events := by simp [eraseProfile]
  eventCounts := by simp [eraseProfile]
  terminalScreens := by simp [eraseProfile]
  transfers := by simp [eraseProfile]
  timeline := by simp [eraseProfile]
  sysmon := by simp [eraseProfile]
  hostKeys := fun _ listed => forgetProfile_keys listed
  oneKeys := by
    intro oneKey listed
    obtain ⟨old, _, rfl⟩ := mem_map.mp listed
    exact unbind_not_mentions old sessionId now
  grants := by
    intro grant listed mentioned
    obtain ⟨old, _, rfl⟩ := mem_map.mp listed
    exact removeSession_mem old sessionId now mentioned

theorem eraseProfile_kept : OthersKept sessionId store (store.eraseProfile sessionId now) where
  profiles := by
    simpa [eraseProfile] using
      filter_eraseP_same (fun profile => decide (profile.id = sessionId)) store.profiles
  runtimes := rfl
  events := rfl
  eventCounts := rfl
  terminalScreens := rfl
  transfers := rfl
  timeline := rfl
  sysmon := rfl
  hostKeys := forall₂_map_right_iff.mpr (forall₂_same.mpr fun _ _ => rfl)
  oneKeys := by
    refine forall₂_map_right_iff.mpr (forall₂_same.mpr fun oneKey _ => ⟨unbind_unbound .., ?_⟩)
    by_cases mentioned : oneKey.Mentions sessionId
    · exact .inl mentioned
    · exact .inr (unbind_of_not_mentions mentioned now)
  grants := forall₂_map_right_iff.mpr (forall₂_same.mpr fun _ _ => removeSession_shortened ..)
  audit := rfl
  customScripts := rfl

theorem eraseProfile_narrows {clientId : String} {scope : McpScope} {session : Option String}
    {time : DateTime}
    (allowed : (store.eraseProfile sessionId now).mcpCan clientId scope session time) :
    store.mcpCan clientId scope session time := by
  refine mcpCan_of_narrows (fun grant listed => ?_) allowed
  obtain ⟨old, known, rfl⟩ := mem_map.mp listed
  exact ⟨old, known, removeSession_narrows old sessionId now⟩

end Erase

theorem profile_deletion_erases (store : SessionStore) (sink : SystemEventSinkState)
    (sessionId : String) (now : DateTime) :
    let deleted := store.deleteProfile sink sessionId now
    (∀ error, deleted.1 = .error error → deleted.2 = (store, sink)) ∧
    ∀ profile, deleted.1 = .ok profile →
      (∀ clientId scope session time, deleted.2.1.mcpCan clientId scope session time →
        store.mcpCan clientId scope session time) ∧
      ProfileErased sessionId deleted.2.1 ∧
      (store.profiles.countP (fun known => known.id = sessionId) ≤ 1 →
        ∀ known ∈ deleted.2.1.profiles, known.id ≠ sessionId) ∧
      deleted.2.2 = { sink with
        outbox := sink.outbox.filter fun envelope => envelope.1.sessionId ≠ sessionId } ∧
      OthersKept sessionId store deleted.2.1 := by
  dsimp only
  obtain ⟨error, same⟩ | ⟨profile, _, _, same⟩ := store.deleteProfile_cases sink sessionId now
  · rw [same]
    exact ⟨fun _ _ => rfl, fun _ finished => nomatch finished⟩
  · rw [same]
    refine ⟨fun _ failed => (nomatch failed), fun _ _ => ⟨?_, ?_, ?_, ?_, ?_⟩⟩
    · exact fun _ _ _ _ allowed => eraseProfile_narrows store sessionId now allowed
    · exact eraseProfile_erased store sessionId now
    · intro single known listed
      simpa using eraseP_single single known listed
    · rfl
    · exact eraseProfile_kept store sessionId now

/-- Two profiles under one id, and a grant that was already closed by the sentinel. -/
def sharedIdStore : SessionStore :=
  { default with
    profiles := [⟨"bench", "first", .ssh, "lab", []⟩, ⟨"bench", "second", .serial, "lab", []⟩] }

def sentinelStore : SessionStore :=
  { default with
    profiles := [⟨mcpNoSessionsSentinel, "sentinel", .ssh, "lab", []⟩]
    grants := [⟨"agent", "agent", [.writeInput], [mcpNoSessionsSentinel], false, none, none⟩] }

theorem second_profile_and_sentinel_survive :
    (¬ ∀ (store : SessionStore) (sink : SystemEventSinkState) (sessionId : String) (now : DateTime)
        (profile : SessionProfile), (store.deleteProfile sink sessionId now).1 = .ok profile →
      ∀ known ∈ (store.deleteProfile sink sessionId now).2.1.profiles, known.id ≠ sessionId) ∧
    ¬ ∀ (store : SessionStore) (sink : SystemEventSinkState) (sessionId : String) (now : DateTime)
        (profile : SessionProfile), (store.deleteProfile sink sessionId now).1 = .ok profile →
      ∀ grant ∈ (store.deleteProfile sink sessionId now).2.1.grants,
        sessionId ∉ grant.allowedSessions := by
  refine ⟨fun claimed => ?_, fun claimed => ?_⟩
  · have gone := claimed sharedIdStore ⟨.inactive, []⟩ "bench" 0 _ rfl
    exact absurd gone (by decide)
  · have gone := claimed sentinelStore ⟨.inactive, []⟩ mcpNoSessionsSentinel 0 _ rfl
    exact absurd gone (by decide)

/-- A restricted grant that loses its only session is closed, not opened. -/
theorem deleting_the_last_session_revokes :
    let store : SessionStore :=
      { default with
        profiles := [⟨"bench", "bench", .ssh, "lab", []⟩]
        grants := [⟨"agent", "agent", [.writeInput], ["bench"], false, none, none⟩] }
    (store.deleteProfile ⟨.inactive, []⟩ "bench" 5).2.1.mcpCan "agent" .writeInput none 9 = false ∧
      ProfileErased "bench" (store.deleteProfile ⟨.inactive, []⟩ "bench" 5).2.1 ∧
      ∀ known ∈ (store.deleteProfile ⟨.inactive, []⟩ "bench" 5).2.1.profiles, known.id ≠ "bench" := by
  intro store
  obtain ⟨narrower, erased, profiles, _⟩ :=
    (profile_deletion_erases store ⟨.inactive, []⟩ "bench" 5).2 _ rfl
  have never : store.mcpCan "agent" .writeInput none 9 = false := by decide
  refine ⟨?_, erased, profiles (by decide)⟩
  cases allowed : (store.deleteProfile ⟨.inactive, []⟩ "bench" 5).2.1.mcpCan "agent" .writeInput
      none 9 with
  | false => rfl
  | true => exact absurd (narrower _ _ _ _ allowed) (by simp [never])

end PortMate
