import Mathlib.Data.List.Nodup
import PortMate.RuntimeStatus

namespace PortMate

section KeyedLists

variable {α κ : Type} (key : α → κ) {edit : α → α}

theorem map_editFirst (same : ∀ item, key (edit item) = key item) (hits : α → Bool)
    (items : List α) : (editFirst hits edit items).map key = items.map key := by
  induction items with
  | nil => rfl
  | cons item items ih =>
    rw [editFirst]
    split
    · rw [List.map_cons, List.map_cons, same]
    · rw [List.map_cons, List.map_cons, ih]

variable [DecidableEq κ]

theorem find?_editFirst (k other : κ) (same : ∀ item, key item = k → key (edit item) = k)
    (items : List α) :
    (editFirst (fun item => key item = k) edit items).find? (fun item => key item = other) =
      if other = k then (items.find? fun item => key item = k).map edit
      else items.find? fun item => key item = other := by
  induction items with
  | nil => simp [editFirst]
  | cons item items ih =>
    by_cases hit : key item = k
    · have first : editFirst (fun item => key item = k) edit (item :: items) =
          edit item :: items := by simp [editFirst, hit]
      rw [first, List.find?_cons, List.find?_cons, List.find?_cons]
      by_cases here : other = k
      · simp [here, hit, same item hit]
      · simp [hit, same item hit, here, Ne.symm here]
    · have later : editFirst (fun item => key item = k) edit (item :: items) =
          item :: editFirst (fun item => key item = k) edit items := by simp [editFirst, hit]
      rw [later, List.find?_cons, ih, List.find?_cons, List.find?_cons]
      by_cases here : other = k
      · simp [here, hit]
      · simp [here]

theorem find?_of_nodup {items : List α} (keys : (items.map key).Nodup) {item : α}
    (listed : item ∈ items) : (items.find? fun other => key other = key item) = some item := by
  induction items with
  | nil => exact absurd listed List.not_mem_nil
  | cons first items ih =>
    rw [List.map_cons, List.nodup_cons] at keys
    rw [List.find?_cons]
    by_cases same : key first = key item
    · obtain rfl | later := List.mem_cons.mp listed
      · simp
      · exact absurd (same ▸ List.mem_map_of_mem later) keys.1
    · have later : item ∈ items :=
        (List.mem_cons.mp listed).resolve_left fun here => same (here ▸ rfl)
      simpa [same] using ih keys.2 later

end KeyedLists

/-- What one operation can do to the runtime of a session. -/
inductive RuntimeChange (now : DateTime) : Option SessionRuntime → Option SessionRuntime → Prop
  | kept (runtime : Option SessionRuntime) : RuntimeChange now runtime runtime
  | deleted (runtime : Option SessionRuntime) : RuntimeChange now runtime none
  | added (profile : SessionProfile) : RuntimeChange now none (some (newRuntime profile now))
  | retitled (profile : SessionProfile) (runtime : SessionRuntime) :
    RuntimeChange now (some runtime) (some (retitleRuntime profile now runtime))
  | moved (profile : SessionProfile) (status : SessionStatus) (reason : Option String)
      (runtime : SessionRuntime) :
    RuntimeChange now (some runtime) (some (moveRuntime profile status reason now runtime))
  | made (profile : SessionProfile) (sessionId : String) (status : SessionStatus)
      (reason : Option String) :
    RuntimeChange now none (some (statusRuntime profile sessionId status reason now))
  | closed (runtime : SessionRuntime) :
    RuntimeChange now (some runtime) (some (closeRuntime now runtime))

namespace SessionStore

def runtimeOf (store : SessionStore) (sessionId : String) : Option SessionRuntime :=
  store.runtimes.find? fun runtime => runtime.sessionId = sessionId

/-- The ids of the profiles are unique, and the runtimes are for the same ids. -/
structure Paired (store : SessionStore) : Prop where
  unique : (store.profiles.map (·.id)).Nodup
  runtimes : (store.runtimes.map (·.sessionId)).Perm (store.profiles.map (·.id))

variable {store : SessionStore}

theorem hasProfile_iff {sessionId : String} :
    store.hasProfile sessionId ↔ sessionId ∈ store.profiles.map (·.id) := by
  simp [hasProfile]

theorem hasRuntime_iff {sessionId : String} :
    store.hasRuntime sessionId ↔ sessionId ∈ store.runtimes.map (·.sessionId) := by
  simp [hasRuntime]

theorem Paired.found (paired : store.Paired) {runtime : SessionRuntime}
    (listed : runtime ∈ store.runtimes) : store.runtimeOf runtime.sessionId = some runtime :=
  find?_of_nodup SessionRuntime.sessionId (paired.runtimes.nodup_iff.mpr paired.unique) listed

theorem Paired.one (paired : store.Paired) {profile : SessionProfile}
    (listed : profile ∈ store.profiles) :
    (store.runtimes.countP fun runtime => runtime.sessionId = profile.id) = 1 := by
  have counted : (store.runtimes.countP fun runtime => runtime.sessionId = profile.id) =
      (store.runtimes.map (·.sessionId)).count profile.id := by
    rw [List.count, List.countP_map]
    rfl
  rw [counted, paired.runtimes.count_eq]
  exact List.count_eq_one_of_mem paired.unique (List.mem_map_of_mem listed)

theorem Paired.owned (paired : store.Paired) {runtime : SessionRuntime}
    (listed : runtime ∈ store.runtimes) : store.hasProfile runtime.sessionId :=
  hasProfile_iff.mpr (paired.runtimes.subset (List.mem_map_of_mem listed))

theorem runtimeOf_editRuntime (sessionId other : String) {edit : SessionRuntime → SessionRuntime}
    (same : ∀ runtime, (edit runtime).sessionId = runtime.sessionId) :
    (store.editRuntime sessionId edit).runtimeOf other =
      if other = sessionId then (store.runtimeOf sessionId).map edit else store.runtimeOf other :=
  find?_editFirst SessionRuntime.sessionId sessionId other (fun runtime here => (same runtime).trans here)
    store.runtimes

theorem runtimeOf_append (added : SessionRuntime) (other : String)
    (fresh : ¬ store.hasRuntime added.sessionId) :
    ({ store with runtimes := store.runtimes ++ [added] } : SessionStore).runtimeOf other =
      if other = added.sessionId then some added else store.runtimeOf other := by
  have none : store.runtimeOf added.sessionId = none := by
    simpa [runtimeOf, hasRuntime] using fresh
  unfold runtimeOf at none ⊢
  rw [List.find?_append]
  by_cases here : other = added.sessionId
  · subst here
    simp [none]
  · simp [here, Ne.symm here]

theorem applyRuntimeHealth_sessionId (runtime : SessionRuntime) (previous : Option SessionStatus)
    (status : SessionStatus) (reason : Option String) :
    (applyRuntimeHealth runtime previous status reason).sessionId = runtime.sessionId := by
  unfold applyRuntimeHealth
  split <;> rfl

theorem moveRuntime_sessionId (profile : SessionProfile) (status : SessionStatus)
    (reason : Option String) (now : DateTime) (runtime : SessionRuntime) :
    (moveRuntime profile status reason now runtime).sessionId = runtime.sessionId :=
  applyRuntimeHealth_sessionId _ _ _ _

theorem closeRuntime_sessionId (now : DateTime) (runtime : SessionRuntime) :
    (closeRuntime now runtime).sessionId = runtime.sessionId :=
  applyRuntimeHealth_sessionId _ _ _ _

theorem Paired.editRuntime (paired : store.Paired) (sessionId : String)
    {edit : SessionRuntime → SessionRuntime}
    (same : ∀ runtime, (edit runtime).sessionId = runtime.sessionId) :
    (store.editRuntime sessionId edit).Paired where
  unique := paired.unique
  runtimes := by
    rw [SessionStore.editRuntime, map_editFirst SessionRuntime.sessionId same]
    exact paired.runtimes

theorem replaceProfile_ids (profiles : List SessionProfile) (profile : SessionProfile) :
    (replaceProfile profiles profile).map (·.id) =
      if profile.id ∈ profiles.map (·.id) then profiles.map (·.id)
      else profiles.map (·.id) ++ [profile.id] := by
  unfold replaceProfile
  by_cases known : profile.id ∈ profiles.map (·.id)
  · have any : (profiles.any fun existing => existing.id = profile.id) = true := by
      simpa using known
    rw [if_pos any, if_pos known]
    clear any
    induction profiles with
    | nil => rfl
    | cons first profiles ih =>
      rw [editFirst]
      split
      next here => simpa using (of_decide_eq_true here).symm
      next other =>
        rw [List.map_cons, List.map_cons, ih]
        have later := List.mem_cons.mp (List.map_cons ▸ known)
        exact later.resolve_left fun here => other (decide_eq_true here.symm)
  · have any : ¬ (profiles.any fun existing => existing.id = profile.id) = true := by
      simpa using known
    rw [if_neg any, if_neg known, List.map_append, List.map_singleton]

/-- A step after which the runtimes still belong to the profiles, each changed in one of the ways
there are. -/
def StatusStep (now : DateTime) (store next : SessionStore) : Prop :=
  next.Paired ∧ ∀ sessionId, RuntimeChange now (store.runtimeOf sessionId) (next.runtimeOf sessionId)

theorem Paired.unchanged (paired : store.Paired) (now : DateTime) : StatusStep now store store :=
  ⟨paired, fun sessionId => .kept (store.runtimeOf sessionId)⟩

theorem Paired.edited (paired : store.Paired) {now : DateTime} (sessionId : String)
    {edit : SessionRuntime → SessionRuntime}
    (same : ∀ runtime, (edit runtime).sessionId = runtime.sessionId)
    (change : ∀ runtime, RuntimeChange now (some runtime) (some (edit runtime))) :
    StatusStep now store (store.editRuntime sessionId edit) := by
  refine ⟨paired.editRuntime sessionId same, fun other => ?_⟩
  rw [runtimeOf_editRuntime sessionId other same]
  split
  next here =>
    subst here
    cases store.runtimeOf other with
    | none => exact .kept none
    | some runtime => exact change runtime
  next => exact .kept _

theorem Paired.upserted (paired : store.Paired) (profile : SessionProfile) (now : DateTime) :
    StatusStep now store (store.upsertProfile profile now) := by
  have known : store.hasRuntime profile.id ↔ profile.id ∈ store.profiles.map (·.id) :=
    hasRuntime_iff.trans paired.runtimes.mem_iff
  have ids := replaceProfile_ids store.profiles profile
  unfold upsertProfile
  dsimp only
  split
  next has =>
    rw [if_pos (known.mp has)] at ids
    have replaced : ({ store with profiles := replaceProfile store.profiles profile } :
        SessionStore).Paired := ⟨ids ▸ paired.unique, ids ▸ paired.runtimes⟩
    exact replaced.edited profile.id (fun _ => rfl) fun runtime => .retitled profile runtime
  next lacks =>
    have fresh : profile.id ∉ store.profiles.map (·.id) := fun listed => lacks (known.mpr listed)
    rw [if_neg fresh] at ids
    refine ⟨⟨?_, ?_⟩, fun other => ?_⟩
    · rw [ids, List.nodup_append]
      exact ⟨paired.unique, List.nodup_singleton _, fun a listed b added =>
        List.mem_singleton.mp added ▸ fun same => fresh (same ▸ listed)⟩
    · rw [ids, List.map_append, List.map_singleton]
      exact paired.runtimes.append_right _
    · have found := @runtimeOf_append store (newRuntime profile now) other lacks
      have here : ({ store with
          profiles := replaceProfile store.profiles profile
          runtimes := store.runtimes ++ [newRuntime profile now] } : SessionStore).runtimeOf other =
          if other = profile.id then some (newRuntime profile now) else store.runtimeOf other := found
      rw [here]
      split
      next same =>
        have none : store.runtimeOf other = none := by
          rw [same]
          simpa [runtimeOf, hasRuntime] using lacks
        rw [none]
        exact .added profile
      next => exact .kept _

theorem Paired.moved (paired : store.Paired) (sessionId : String) (status : SessionStatus)
    (reason : Option String) (now : DateTime) :
    StatusStep now store (store.setRuntimeStatusWithReason sessionId status reason now).2 := by
  unfold setRuntimeStatusWithReason
  cases found : store.profile sessionId with
  | none => exact paired.unchanged now
  | some profile =>
    have listed : sessionId ∈ store.profiles.map (·.id) := by
      have same : profile.id = sessionId := by simpa using List.find?_some found
      exact same ▸ List.mem_map_of_mem (List.mem_of_find?_eq_some found)
    have has : store.hasRuntime sessionId := hasRuntime_iff.mpr (paired.runtimes.mem_iff.mpr listed)
    dsimp only
    rw [if_pos has]
    exact paired.edited sessionId (moveRuntime_sessionId profile status reason now) fun runtime =>
      .moved profile status reason runtime

theorem Paired.closed (paired : store.Paired) (sessionId : String) (now : DateTime) :
    StatusStep now store (store.editRuntime sessionId (closeRuntime now)) :=
  paired.edited sessionId (closeRuntime_sessionId now) .closed

theorem Paired.erased (paired : store.Paired) (sessionId : String) (now : DateTime) :
    StatusStep now store (store.eraseProfile sessionId now) := by
  have left : (store.profiles.eraseP fun profile => profile.id = sessionId).map (·.id) =
      (store.profiles.map (·.id)).erase sessionId := by
    have hits : (fun profile : SessionProfile => decide (profile.id = sessionId)) =
        (sessionId == ·) ∘ fun profile => profile.id := by
      funext profile
      exact (decide_eq_decide.mpr eq_comm).trans (beq_eq_decide sessionId profile.id).symm
    rw [List.erase_eq_eraseP, List.eraseP_map, hits]
  have kept : (store.runtimes.filter fun runtime => runtime.sessionId ≠ sessionId).map
      (·.sessionId) = (store.runtimes.map (·.sessionId)).filter (· != sessionId) := by
    rw [List.filter_map]
    exact congrArg (List.map _) (List.filter_congr fun runtime _ => by simp [bne, beq_eq_decide])
  refine ⟨⟨?_, ?_⟩, fun other => ?_⟩
  · exact left ▸ paired.unique.erase sessionId
  · show ((store.runtimes.filter fun runtime => runtime.sessionId ≠ sessionId).map
      (·.sessionId)).Perm ((store.profiles.eraseP fun profile => profile.id = sessionId).map (·.id))
    rw [kept, left, paired.unique.erase_eq_filter]
    exact paired.runtimes.filter _
  · have found : (store.eraseProfile sessionId now).runtimeOf other =
        if other = sessionId then none else store.runtimeOf other := by
      show (store.runtimes.filter fun runtime => runtime.sessionId ≠ sessionId).find? _ = _
      rw [List.find?_filter]
      split
      next here =>
        subst here
        simp
      next apart =>
        refine congrArg (fun hits => store.runtimes.find? hits) (funext fun runtime => ?_)
        by_cases here : runtime.sessionId = other
        · simp [here, apart]
        · simp [here]
    rw [found]
    split
    · exact .deleted _
    · exact .kept _

end SessionStore

theorem pushSystemEvent_sessions (store : SessionStore) (sink : SystemEventSinkState)
    (eventId sessionId text : String) (answer : TrySend) (now : DateTime) :
    ((pushSystemEvent eventId now answer sessionId text).run store sink).store.profiles =
        store.profiles ∧
      ((pushSystemEvent eventId now answer sessionId text).run store sink).store.runtimes =
        store.runtimes := by
  have trimmed : ∀ (other : SessionStore) (sessionId : String),
      (other.trimEventsIfNeeded sessionId).profiles = other.profiles ∧
        (other.trimEventsIfNeeded sessionId).runtimes = other.runtimes := by
    intro other sessionId
    unfold SessionStore.trimEventsIfNeeded
    dsimp only
    split <;> split <;> exact ⟨rfl, rfl⟩
  cases known : store.profile sessionId with
  | none => simp [pushSystemEvent, MutateClosure.run, known]
  | some profile =>
    simp only [pushSystemEvent, MutateClosure.run, known]
    exact trimmed _ sessionId

section RuntimeChanges

variable {now : DateTime} {before after : Option SessionRuntime}

variable (runtime : SessionRuntime)

variable (previous : Option SessionStatus)

variable (status : SessionStatus)

@[simp]
theorem applyRuntimeHealth_status (reason : Option String) :
    (applyRuntimeHealth runtime previous status reason).status = runtime.status := by
  unfold applyRuntimeHealth
  split <;> rfl

@[simp]
theorem applyRuntimeHealth_connectedSince (reason : Option String) :
    (applyRuntimeHealth runtime previous status reason).connectedSince =
      runtime.connectedSince := by
  unfold applyRuntimeHealth
  split <;> rfl

theorem applyRuntimeHealth_lastDisconnect (reason : Option String) :
    (applyRuntimeHealth runtime previous status reason).lastDisconnect =
      if runtimeOutageStatus status ∧
          ¬ (previous.any runtimeOutageStatus ∧ runtime.lastDisconnect.isSome)
      then some runtime.lastActivity else runtime.lastDisconnect := by
  unfold applyRuntimeHealth
  by_cases outage : runtimeOutageStatus status
  · cases previous.any runtimeOutageStatus <;> cases runtime.lastDisconnect <;> simp [outage]
  · simp [outage]

/-- `connected_since` is there exactly when the status is `Connected`. -/
def ConnectedSinceFits (runtime : Option SessionRuntime) : Prop :=
  ∀ found ∈ runtime, (found.connectedSince.isSome ↔ found.status = .connected)

def Connected (runtime : Option SessionRuntime) : Prop :=
  ∃ found ∈ runtime, found.status = .connected

/-- An outage that `last_disconnect` is known of. -/
def KnownOutage (runtime : Option SessionRuntime) : Prop :=
  ∃ found ∈ runtime, runtimeOutageStatus found.status ∧ found.lastDisconnect.isSome

theorem RuntimeChange.connectedSince_fits (change : RuntimeChange now before after)
    (fits : ConnectedSinceFits before) : ConnectedSinceFits after := by
  cases change with
  | kept => exact fits
  | deleted => exact fun found none => absurd none (by simp)
  | added profile => simp [ConnectedSinceFits, newRuntime]
  | retitled profile runtime => simpa [ConnectedSinceFits, retitleRuntime] using fits
  | moved profile status reason runtime =>
    by_cases connected : status = .connected <;> simp [ConnectedSinceFits, moveRuntime, connected]
  | made profile sessionId status reason =>
    by_cases connected : status = .connected <;> simp [ConnectedSinceFits, statusRuntime, connected]
  | closed runtime => simp [ConnectedSinceFits, closeRuntime]

theorem RuntimeChange.connectedSince_marks (change : RuntimeChange now before after)
    (fits : ConnectedSinceFits before) (connected : Connected after) :
    Connected before ∧ after.bind (·.connectedSince) = before.bind (·.connectedSince) ∨
      ¬ Connected before ∧ after.bind (·.connectedSince) = some now := by
  cases change with
  | kept => exact .inl ⟨connected, rfl⟩
  | deleted => simp [Connected] at connected
  | added profile => simp [Connected, newRuntime] at connected
  | retitled profile runtime => exact .inl ⟨by simpa [Connected, retitleRuntime] using connected, rfl⟩
  | moved profile status reason runtime =>
    have now_connected : status = .connected := by simpa [Connected, moveRuntime] using connected
    subst now_connected
    have known : runtime.connectedSince.isSome ↔ runtime.status = .connected := fits runtime rfl
    by_cases was : runtime.status = .connected
    · obtain ⟨since, marked⟩ := Option.isSome_iff_exists.mp (known.mpr was)
      exact .inl ⟨⟨runtime, rfl, was⟩, by simp [moveRuntime, marked]⟩
    · have unmarked : runtime.connectedSince = none := by
        simpa using mt known.mp was
      exact .inr ⟨by simpa [Connected] using was, by simp [moveRuntime, unmarked]⟩
  | made profile sessionId status reason =>
    have now_connected : status = .connected := by simpa [Connected, statusRuntime] using connected
    exact .inr ⟨by simp [Connected], by simp [statusRuntime, now_connected]⟩
  | closed runtime => simp [Connected, closeRuntime] at connected

theorem applyRuntimeHealth_marks {runtime next : SessionRuntime} {status : SessionStatus}
    (reason : Option String) (stamped : next.lastActivity = now)
    (same : next.lastDisconnect = runtime.lastDisconnect) (out : runtimeOutageStatus status) :
    KnownOutage (some runtime) ∧
        (applyRuntimeHealth next (some runtime.status) status reason).lastDisconnect =
          runtime.lastDisconnect ∨
      ¬ KnownOutage (some runtime) ∧
        (applyRuntimeHealth next (some runtime.status) status reason).lastDisconnect = some now := by
  rw [applyRuntimeHealth_lastDisconnect, same, stamped]
  by_cases was : runtimeOutageStatus runtime.status ∧ runtime.lastDisconnect.isSome
  · exact .inl ⟨⟨runtime, rfl, was⟩, if_neg fun starts => starts.2 was⟩
  · exact .inr ⟨by simpa [KnownOutage] using was, if_pos ⟨out, was⟩⟩

theorem RuntimeChange.lastDisconnect_marks (change : RuntimeChange now before after)
    (outage : KnownOutage after) :
    KnownOutage before ∧ after.bind (·.lastDisconnect) = before.bind (·.lastDisconnect) ∨
      ¬ KnownOutage before ∧ after.bind (·.lastDisconnect) = some now := by
  cases change with
  | kept => exact .inl ⟨outage, rfl⟩
  | deleted => simp [KnownOutage] at outage
  | added profile => simp [KnownOutage, newRuntime] at outage
  | retitled profile runtime =>
    exact .inl ⟨by simpa [KnownOutage, retitleRuntime] using outage, rfl⟩
  | moved profile status reason runtime =>
    obtain ⟨_, same, out, _⟩ := outage
    cases same
    rw [moveRuntime, applyRuntimeHealth_status] at out
    exact applyRuntimeHealth_marks reason rfl rfl out
  | made profile sessionId status reason =>
    obtain ⟨_, same, out, _⟩ := outage
    cases same
    rw [statusRuntime, applyRuntimeHealth_status] at out
    refine .inr ⟨by simp [KnownOutage], ?_⟩
    rw [Option.bind_some, statusRuntime, applyRuntimeHealth_lastDisconnect]
    exact if_pos ⟨out, by simp⟩
  | closed runtime => exact applyRuntimeHealth_marks _ rfl rfl rfl

theorem applyRuntimeHealth_moves {runtime next : SessionRuntime} (reason : Option String)
    (stamped : next.lastActivity = now) (same : next.lastDisconnect = runtime.lastDisconnect) :
    (applyRuntimeHealth next (some runtime.status) next.status reason).lastDisconnect =
        runtime.lastDisconnect ∨
      ¬ KnownOutage (some runtime) ∧
        KnownOutage (some (applyRuntimeHealth next (some runtime.status) next.status reason)) ∧
        (applyRuntimeHealth next (some runtime.status) next.status reason).lastDisconnect =
          some now := by
  by_cases out : runtimeOutageStatus next.status
  · obtain ⟨_, kept⟩ | ⟨calm, moved⟩ := applyRuntimeHealth_marks reason stamped same out
    · exact .inl kept
    · exact .inr ⟨calm, ⟨_, rfl, by simpa using out, by simp [moved]⟩, moved⟩
  · left
    rw [applyRuntimeHealth_lastDisconnect, if_neg fun starts => out starts.1, same]

theorem RuntimeChange.lastDisconnect_moves {earlier later : SessionRuntime}
    (change : RuntimeChange now (some earlier) (some later)) :
    later.lastDisconnect = earlier.lastDisconnect ∨
      ¬ KnownOutage (some earlier) ∧ KnownOutage (some later) ∧
        later.lastDisconnect = some now := by
  cases change with
  | kept => exact .inl rfl
  | retitled => exact .inl rfl
  | moved profile status reason runtime => exact applyRuntimeHealth_moves reason rfl rfl
  | closed runtime => exact applyRuntimeHealth_moves _ rfl rfl

end RuntimeChanges

namespace RuntimeWorld

theorem pushSystemEvent_step (world : RuntimeWorld) (delivery : EventDelivery)
    (sessionId text : String) {now : DateTime} {store : SessionStore}
    (step : store.StatusStep now world.store) :
    store.StatusStep now (world.pushSystemEvent delivery sessionId text now).store := by
  obtain ⟨profiles, runtimes⟩ := pushSystemEvent_sessions world.store world.sink delivery.eventId
    sessionId text delivery.answer now
  obtain ⟨⟨unique, paired⟩, changes⟩ := step
  refine ⟨⟨?_, ?_⟩, fun other => ?_⟩
  · exact profiles ▸ unique
  · exact profiles ▸ runtimes ▸ paired
  · have found : (world.pushSystemEvent delivery sessionId text now).store.runtimeOf other =
        world.store.runtimeOf other := congrArg (List.find? _) runtimes
    exact found ▸ changes other

theorem apply_step (world : RuntimeWorld) (input : DateTime × RuntimeOperation)
    (paired : world.store.Paired) : world.store.StatusStep input.1 (world.apply input).store := by
  obtain ⟨now, operation⟩ := input
  cases operation with
  | upsertProfile profile => exact paired.upserted profile now
  | deleteProfile sessionId =>
    obtain ⟨error, refused⟩ | ⟨profile, _, _, erased⟩ :=
      world.store.deleteProfile_cases world.sink sessionId now
    · simp only [apply, refused]
      exact paired.unchanged now
    · simp only [apply, erased]
      exact paired.erased sessionId now
  | setRuntimeStatusWithReason sessionId status reason => exact paired.moved sessionId status reason now
  | openSession sessionId endpoint delivery =>
    have moved := paired.moved sessionId .connected none now
    unfold apply openSession
    dsimp only
    split
    next error store same =>
      rw [same] at moved
      exact moved
    next summary store same =>
      rw [same] at moved
      exact pushSystemEvent_step { world with store } delivery sessionId _ moved
  | closeSession sessionId delivery =>
    unfold apply closeSession
    dsimp only
    split
    · exact paired.unchanged now
    · exact pushSystemEvent_step
        { world with store := world.store.editRuntime sessionId (closeRuntime now) } delivery
        sessionId _ (paired.closed sessionId now)

/-- A condition on a session's runtime has held since the operation that read this time. -/
def RuntimeHeldSince (holds : Option SessionRuntime → Prop) (sessionId : String)
    (inputs : List (DateTime × RuntimeOperation)) (since : DateTime) : Prop :=
  HeldSince apply Prod.fst (fun world => holds (world.runtime sessionId)) fresh inputs since

variable (inputs : List (DateTime × RuntimeOperation))

theorem after_concat (input : DateTime × RuntimeOperation) :
    after (inputs ++ [input]) = (after inputs).apply input := by
  rw [after, after, List.foldl_append]
  rfl

theorem fresh_paired : fresh.store.Paired := ⟨List.nodup_nil, .nil⟩

theorem connectedSince_held (sessionId : String) :
    ((after inputs).store.Paired ∧ ConnectedSinceFits ((after inputs).runtime sessionId)) ∧
      (Connected ((after inputs).runtime sessionId) →
        ∃ since, ((after inputs).runtime sessionId).bind (·.connectedSince) = some since ∧
          RuntimeHeldSince Connected sessionId inputs since) := by
  refine marked_since apply Prod.fst (fun world => Connected (world.runtime sessionId))
    (fun world => world.store.Paired ∧ ConnectedSinceFits (world.runtime sessionId))
    (fun world => (world.runtime sessionId).bind (·.connectedSince)) ?_ ⟨fresh_paired, ?_⟩ ?_ ?_ inputs
  · simp [Connected, runtime, fresh, SessionStore.default]
  · simp [ConnectedSinceFits, runtime, fresh, SessionStore.default]
  · rintro world input ⟨paired, fits⟩
    obtain ⟨next, changes⟩ := world.apply_step input paired
    exact ⟨next, (changes sessionId).connectedSince_fits fits⟩
  · rintro world input ⟨paired, fits⟩ connected
    exact ((world.apply_step input paired).2 sessionId).connectedSince_marks fits connected

theorem lastDisconnect_held (sessionId : String) :
    (after inputs).store.Paired ∧ (KnownOutage ((after inputs).runtime sessionId) →
      ∃ since, ((after inputs).runtime sessionId).bind (·.lastDisconnect) = some since ∧
        RuntimeHeldSince KnownOutage sessionId inputs since) := by
  refine marked_since apply Prod.fst (fun world => KnownOutage (world.runtime sessionId))
    (fun world => world.store.Paired) (fun world => (world.runtime sessionId).bind (·.lastDisconnect)) ?_ fresh_paired ?_ ?_ inputs
  · simp [KnownOutage, runtime, fresh, SessionStore.default]
  · exact fun world input paired => (world.apply_step input paired).1
  · exact fun world input paired outage =>
      ((world.apply_step input paired).2 sessionId).lastDisconnect_marks outage

end RuntimeWorld

open RuntimeWorld in
/-- In every run each profile has its one runtime, `connected_since` is the time since when the
session has been connected, and `last_disconnect` the time since when it has been in the outage it
is in, which no further operation moves. -/
theorem runtime_times_kept (inputs : List (DateTime × RuntimeOperation)) :
    let store := (after inputs).store
    ((∀ profile ∈ store.profiles,
        (store.runtimes.countP fun runtime => runtime.sessionId = profile.id) = 1) ∧
      ∀ runtime ∈ store.runtimes, store.hasProfile runtime.sessionId) ∧
    (∀ runtime ∈ store.runtimes, (runtime.connectedSince.isSome ↔ runtime.status = .connected) ∧
      ∀ since, runtime.connectedSince = some since →
        RuntimeHeldSince Connected runtime.sessionId inputs since) ∧
    (∀ runtime ∈ store.runtimes, runtimeOutageStatus runtime.status →
      ∀ since, runtime.lastDisconnect = some since →
        RuntimeHeldSince KnownOutage runtime.sessionId inputs since) ∧
    ∀ runtime ∈ store.runtimes, ∀ input, ∀ later ∈ (after (inputs ++ [input])).store.runtimes,
      later.sessionId = runtime.sessionId →
        later.lastDisconnect = runtime.lastDisconnect ∨
          ¬ KnownOutage (some runtime) ∧ KnownOutage (some later) ∧
            later.lastDisconnect = some input.1 := by
  have paired : (after inputs).store.Paired := (connectedSince_held inputs "").1.1
  have found : ∀ runtime ∈ (after inputs).store.runtimes,
      (after inputs).runtime runtime.sessionId = some runtime := fun runtime listed =>
    paired.found listed
  refine ⟨⟨fun profile => paired.one, fun runtime => paired.owned⟩, ?_, ?_, ?_⟩
  · intro runtime listed
    obtain ⟨⟨_, fits⟩, held⟩ := connectedSince_held inputs runtime.sessionId
    rw [found runtime listed] at fits held
    refine ⟨fits runtime rfl, fun since marked => ?_⟩
    have connected := (fits runtime rfl).mp (by simp [marked])
    obtain ⟨time, same, since_time⟩ := held ⟨runtime, rfl, connected⟩
    cases marked.symm.trans same
    exact since_time
  · intro runtime listed out since marked
    obtain ⟨_, held⟩ := lastDisconnect_held inputs runtime.sessionId
    rw [found runtime listed] at held
    obtain ⟨time, same, since_time⟩ := held ⟨runtime, rfl, out, by simp [marked]⟩
    cases marked.symm.trans same
    exact since_time
  · intro runtime listed input later kept same
    obtain ⟨next, changes⟩ := (after inputs).apply_step input paired
    rw [after_concat] at kept
    have change := changes runtime.sessionId
    have after_found := next.found kept
    rw [same] at after_found
    have before_found : (after inputs).store.runtimeOf runtime.sessionId = some runtime :=
      paired.found listed
    rw [after_found, before_found] at change
    exact change.lastDisconnect_moves

/-- An attempt that passes through `Connecting` ends the outage: its failure begins a new one,
without a connection in between. -/
theorem connecting_failure_moves :
    let profile : SessionProfile := ⟨"bench", "bench", .ssh, "lab", []⟩
    let failed : List (DateTime × RuntimeOperation) :=
      [(1, .upsertProfile profile), (10, .setRuntimeStatusWithReason "bench" .error none)]
    let again : List (DateTime × RuntimeOperation) :=
      [(20, .setRuntimeStatusWithReason "bench" .connecting none),
        (30, .setRuntimeStatusWithReason "bench" .error none)]
    ((RuntimeWorld.after failed).runtime "bench").bind (·.lastDisconnect) = some 10 ∧
      ((RuntimeWorld.after (failed ++ again)).runtime "bench").bind (·.lastDisconnect) =
        some 30 := by
  decide

end PortMate
