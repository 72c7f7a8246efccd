import Mathlib.Data.List.Dedup
import Mathlib.Order.WithBot
import PortMate.EventLogRuns
import PortMate.KeepNewest

namespace PortMate

open List

section KeepsNewest

variable {α κ ρ : Type} [DecidableEq κ] [LinearOrder ρ]

/-- Of every trimmed scope exactly the newest `max` counted items stay, the rest stays as it is,
and so does a scope within its limit; nothing changes its place relative to the others. -/
structure KeepsNewest (counted : α → Bool) (scope : α → κ) (rank : α → ρ) (max : Nat)
    (trimmed : κ → Bool) (items kept : List α) : Prop where
  newest : kept = keepNewestBy counted scope rank max trimmed items
  order : kept.Sublist items
  counts : ∀ key, trimmed key → (kept.countP fun item => counted item && scope item = key) =
    min max (items.countP fun item => counted item && scope item = key)
  stays : ∀ hits : α → Bool, (∀ item ∈ items, hits item → counted item → trimmed (scope item) →
    (items.countP fun other => counted other && scope other = scope item) ≤ max) →
      kept.filter hits = items.filter hits

variable {counted : α → Bool} {scope : α → κ} {rank : α → ρ} {max : Nat} {trimmed : κ → Bool}
  {items kept : List α}

theorem keepsNewest (newest : kept = keepNewestBy counted scope rank max trimmed items) :
    KeepsNewest counted scope rank max trimmed items kept where
  newest := newest
  order := newest ▸ keepNewestBy_sublist items
  counts := fun _ trims => newest ▸ keepNewestBy_count trims items
  stays := fun _ free => newest ▸ keepNewestBy_filter free

theorem keepLast_newest (scope : α → κ) (max : Nat) (items : List α) :
    keepLast scope max items =
      keepNewestBy (fun _ => true) scope (fun _ => ()) max (fun _ => true) items := by
  induction items with
  | nil => rfl
  | cons item items ih =>
    rw [keepLast_cons, keepNewestBy_cons, ih]
    by_cases many : max ≤ items.countP fun other => scope other = scope item
    · rw [if_neg (Nat.not_lt.mpr many), if_pos (by simpa using many)]
    · rw [if_pos (Nat.lt_of_not_le many), if_neg (by simpa using many)]

theorem dropOldest_newest (hits : α → Bool) {n : Nat} {items : List α}
    (enough : n ≤ items.countP hits) :
    dropOldest hits n items =
      keepNewestBy hits (fun _ => ()) (fun _ => ()) (items.countP hits - n) (fun _ => true)
        items := by
  have counts : ∀ list : List α, (list.countP fun other => hits other && (() = () : Bool)) =
      list.countP hits := fun list => countP_congr fun item _ => by simp
  induction items generalizing n with
  | nil =>
    cases n with
    | zero => rfl
    | succ n => simp at enough
  | cons item items ih =>
    cases n with
    | zero =>
      rw [dropOldest, keepNewestBy_within fun other _ _ _ => ?_]
      exact (counts _).le
    | succ n =>
      rw [dropOldest, keepNewestBy_cons, counts]
      by_cases hit : hits item
      · rw [countP_cons_of_pos hit] at enough ⊢
        rw [if_pos hit, if_pos (by simp [hit]), ih (by omega)]
        congr 1
        omega
      · rw [countP_cons_of_neg hit] at enough ⊢
        rw [if_neg hit, if_neg (by simp [hit]), ih enough]

theorem trimOldestMatching_newest (items : List α) (max slack : Nat) (hits : α → Bool) :
    trimOldestMatching items max slack hits =
      if items.countP hits ≤ max + slack then items
      else keepNewestBy hits (fun _ => ()) (fun _ => ()) max (fun _ => true) items := by
  unfold trimOldestMatching
  split
  · rfl
  next many =>
    rw [dropOldest_newest hits (Nat.sub_le _ _), Nat.sub_sub_self (by omega)]

theorem trimOldestMatching_scope (items : List α) (max : Nat) (scope : α → κ) (key : κ) :
    trimOldestMatching items max 0 (fun item => scope item = key) =
      keepNewestBy (fun _ => true) scope (fun _ => ()) max (fun other => other = key) items := by
  rw [trimOldestMatching_newest, keepNewestBy_scope]
  split
  next fits =>
    refine (keepNewestBy_within fun item listed _ _ => ?_).symm
    simpa using fits
  next =>
    have same : (fun item => decide (scope item = key)) =
        fun item => true && decide (scope item = key) := by
      funext item
      rfl
    rw [same]

theorem foldl_trimOldestMatching (max : Nat) (scope : α → κ) {scopes : List κ} {items : List α}
    (all : ∀ item ∈ items, scope item ∈ scopes) :
    scopes.foldl (fun kept key => trimOldestMatching kept max 0 fun item => scope item = key) items =
      keepNewestBy (fun _ => true) scope (fun _ => ()) max (fun _ => true) items := by
  simp only [trimOldestMatching_scope, foldl_keepNewestBy]
  exact keepNewestBy_congr fun item listed _ => by simp [all item listed]

theorem trimEveryScope_newest (scope : α → κ) (max : Nat) (items : List α) :
    SessionStore.trimEveryScope scope max items =
      keepNewestBy (fun _ => true) scope (fun _ => ()) max (fun _ => true) items :=
  foldl_trimOldestMatching max scope fun _ listed =>
    mem_dedup.mpr (mem_map_of_mem listed)

end KeepsNewest

/-- A task without a time is older than every task with one. -/
def finishedRank (task : TransferTask) : WithBot DateTime :=
  match task.finishedAt with
  | none => ⊥
  | some time => time

namespace SessionStore

theorem finishedBefore_iff (left right : TransferTask × Nat) :
    finishedBefore (left.2, left.1.finishedAt) (right.2, right.1.finishedAt) =
      !newerBy finishedRank left right := by
  obtain ⟨left, i⟩ := left
  obtain ⟨right, j⟩ := right
  unfold finishedBefore newerBy finishedRank
  cases left.finishedAt <;> cases right.finishedAt
  · rw [Bool.eq_iff_iff]
    simp
  · simp
  · simp
  next a b =>
    have below : ((b : WithBot DateTime) < a) ↔ b < a := WithBot.coe_lt_coe
    have same : ((b : WithBot DateTime) = a) ↔ b = a := WithBot.coe_inj
    have order : ∀ a b : Int, a < b ∨ a = b ∧ i ≤ j ↔ ¬ b < a ∧ (¬ b = a ∨ ¬ j < i) := by omega
    rw [Bool.eq_iff_iff]
    simp only [below, same, Bool.or_eq_true, Bool.and_eq_true, decide_eq_true_eq,
      Bool.not_eq_true', Bool.or_eq_false_iff, Bool.and_eq_false_iff, decide_eq_false_iff_not]
    exact order a b

variable (store : SessionStore)

theorem trimTransferHistory_newest (sessionId : String) :
    (store.trimTransferHistory sessionId).transfers =
      keepNewestBy (fun task => !task.pending) (·.sessionId) finishedRank
        maxTerminalTransfersPerSession (fun other => other = sessionId) store.transfers := by
  let own := store.transfers.zipIdx.filter fun entry =>
    entry.1.sessionId = sessionId && !entry.1.pending
  have listed : store.terminalTransfers sessionId =
      own.map fun entry => (entry.2, entry.1.finishedAt) := rfl
  have size : (store.terminalTransfers sessionId).length = own.length := by
    rw [listed, length_map]
  have sorted : (store.terminalTransfers sessionId).mergeSort finishedBefore =
      (own.mergeSort fun left right => !newerBy finishedRank left right).map
        fun entry => (entry.2, entry.1.finishedAt) := by
    rw [listed]
    exact (map_mergeSort fun left _ right _ => (finishedBefore_iff left right).symm).symm
  have counts : ∀ entry : TransferTask × Nat, entry.1.sessionId = sessionId →
      own.countP (fun other => newerBy finishedRank other entry) =
        newerCount (fun entry => !entry.1.pending) (fun entry => entry.1.sessionId)
          (newerBy finishedRank) store.transfers.zipIdx entry := by
    intro entry same
    rw [countP_filter, newerCount]
    refine countP_congr fun other _ => ?_
    rw [same, Bool.and_comm, Bool.and_comm (decide _)]
  have total : own.Pairwise fun a b => newerBy finishedRank a b ∨ newerBy finishedRank b a :=
    ((zipIdx_increasing store.transfers 0).imp fun before =>
      newerBy_total _ _ before.ne).sublist filter_sublist
  unfold trimTransferHistory
  dsimp only
  rw [size]
  split
  next few =>
    refine (keepNewestBy_within fun task _ _ same => ?_).symm
    have same : task.sessionId = sessionId := by simpa using same
    have whole : store.transfers.zipIdx.map Prod.fst = store.transfers := zipIdx_map_fst 0 _
    rw [same, ← whole, countP_map]
    refine le_of_eq_of_le ?_ few
    rw [← countP_eq_length_filter]
    exact countP_congr fun entry _ => by simp [Bool.and_comm]
  next many =>
    rw [sorted, ← map_take, map_map]
    refine congrArg (List.map Prod.fst) (filter_congr fun entry place => ?_)
    let oldest := (own.mergeSort fun left right => !newerBy finishedRank left right).take
      (own.length - maxTerminalTransfersPerSession)
    have own_oldest : ∀ other ∈ oldest, other ∈ own := fun other inside =>
      mem_mergeSort.mp (mem_of_mem_take inside)
    have removed : entry.2 ∈ oldest.map (fun other => other.2) ↔ entry ∈ oldest := by
      refine ⟨fun inside => ?_, mem_map_of_mem⟩
      obtain ⟨other, taken, same⟩ := mem_map.mp inside
      have other_place := (mem_filter.mp (own_oldest other taken)).1
      have there := mem_zipIdx_iff_getElem?.mp other_place
      rw [same, mem_zipIdx_iff_getElem?.mp place] at there
      exact (Prod.ext (Option.some.inj there) same.symm : entry = other) ▸ taken
    have contains : (oldest.map fun other => other.2).contains entry.2 = decide (entry ∈ oldest) := by
      rw [Bool.eq_iff_iff, contains_iff_mem, removed, decide_eq_true_eq]
    refine (congrArg (!·) contains).trans ?_
    by_cases finished : entry.1.sessionId = sessionId ∧ entry.1.pending = false
    · have mine : entry ∈ own := mem_filter.mpr ⟨place, by simp [finished]⟩
      have oldest_iff : entry ∈ oldest ↔ _ :=
        mem_take_oldest newerBy_asymm newerBy_comparable total mine
      rw [counts entry finished.1] at oldest_iff
      rw [Bool.eq_iff_iff]
      simp [oldest_iff, finished]
    · have other : entry ∉ oldest := fun inside =>
        finished (by simpa using (mem_filter.mp (own_oldest entry inside)).2)
      rw [not_and] at finished
      by_cases same : entry.1.sessionId = sessionId
      · simp [other, finished same]
      · simp [other, same]

theorem foldl_trimTransferHistory {sessions : List String} {store : SessionStore}
    (all : ∀ task ∈ store.transfers, task.sessionId ∈ sessions) :
    (sessions.foldl trimTransferHistory store).transfers =
      keepNewestBy (fun task => !task.pending) (·.sessionId) finishedRank
        maxTerminalTransfersPerSession (fun _ => true) store.transfers := by
  have fold : ∀ (sessions : List String) (store : SessionStore),
      (sessions.foldl trimTransferHistory store).transfers =
        sessions.foldl (fun kept key => keepNewestBy (fun task => !task.pending) (·.sessionId)
          finishedRank maxTerminalTransfersPerSession (fun other => other = key) kept)
          store.transfers := by
    intro sessions
    induction sessions with
    | nil => exact fun _ => rfl
    | cons sessionId sessions ih =>
      intro store
      rw [foldl_cons, foldl_cons, ih, trimTransferHistory_newest]
  rw [fold, foldl_keepNewestBy]
  exact keepNewestBy_congr fun task listed _ => by simp [all task listed]

theorem trimTransferHistory_frame (sessionId : String) :
    store.trimTransferHistory sessionId =
      { store with transfers := (store.trimTransferHistory sessionId).transfers } := by
  unfold trimTransferHistory
  dsimp only
  split <;> rfl

theorem foldl_trimTransferHistory_frame (sessions : List String) (store : SessionStore) :
    sessions.foldl trimTransferHistory store =
      { store with transfers := (sessions.foldl trimTransferHistory store).transfers } := by
  induction sessions generalizing store with
  | nil => rfl
  | cons sessionId sessions ih =>
    rw [foldl_cons, ih, trimTransferHistory_frame]

theorem normalizeBoundedHistories_eq :
    store.normalizeBoundedHistories =
      let events := keepNewestBy (fun _ => true) (·.sessionId) (fun _ => ()) maxEventsPerSession
        (fun _ => true) store.events
      { store with
        events
        eventCounts := countEvents events
        audit := keepNewestBy (fun _ => true) (·.sessionId) (fun _ => ()) maxAuditRecordsPerScope
          (fun _ => true) store.audit
        timeline := keepNewestBy (fun _ => true) (·.sessionId) (fun _ => ())
          maxTimelineMarksPerSession (fun _ => true) store.timeline
        sysmon := keepNewestBy (fun _ => true) (·.sessionId) (fun _ => ())
          maxSysmonSnapshotsPerSession (fun _ => true) store.sysmon
        transfers := keepNewestBy (fun task => !task.pending) (·.sessionId) finishedRank
          maxTerminalTransfersPerSession (fun _ => true) store.transfers } := by
  unfold normalizeBoundedHistories
  dsimp only
  rw [foldl_trimTransferHistory_frame, foldl_trimTransferHistory fun task listed => ?_,
    keepLast_newest, trimEveryScope_newest, trimEveryScope_newest, trimEveryScope_newest]
  exact mem_dedup.mpr (mem_map_of_mem listed)

theorem normalizeBoundedHistories_idem :
    store.normalizeBoundedHistories.normalizeBoundedHistories = store.normalizeBoundedHistories := by
  rw [normalizeBoundedHistories_eq store.normalizeBoundedHistories, normalizeBoundedHistories_eq]
  simp only [keepNewestBy_keepNewestBy, Bool.or_self]

end SessionStore

open SessionStore

/-- What recording the last of the items keeps: a scope within its limit and the slack as it is, and of
a larger one the newest. -/
structure SlackKept {α : Type} (hits : α → Bool) (max : Nat) (items kept : List α) : Prop where
  within : items.countP hits ≤ max + auxHistoryTrimBatch → kept = items
  beyond : max + auxHistoryTrimBatch < items.countP hits →
    KeepsNewest hits (fun _ => ()) (fun _ => ()) max (fun _ => true) items kept

theorem trimmed_newest {α : Type} {items : List α} {max slack : Nat} {hits : α → Bool}
    (many : max + slack < items.countP hits) :
    KeepsNewest hits (fun _ => ()) (fun _ => ()) max (fun _ => true) items
      (trimOldestMatching items max slack hits) :=
  keepsNewest (by rw [trimOldestMatching_newest, if_neg (Nat.not_le.mpr many)])

theorem trimOldestMatching_slack {α : Type} (items : List α) (max : Nat) (hits : α → Bool) :
    SlackKept hits max items (trimOldestMatching items max auxHistoryTrimBatch hits) where
  within fits := by rw [trimOldestMatching_newest, if_pos fits]
  beyond := trimmed_newest

/-- Recording lets a scope grow past its limit by the slack before it is cut to the newest; without
slack, and for finished transfers, it is cut at once. Normalizing cuts every scope of every history,
in whatever order, and does nothing the second time. -/
theorem bounded_histories_kept :
    (∀ (α : Type) (items : List α) (max slack : Nat) (hits : α → Bool),
      (items.countP hits ≤ max + slack → trimOldestMatching items max slack hits = items) ∧
      (max + slack < items.countP hits → KeepsNewest hits (fun _ => ()) (fun _ => ()) max
        (fun _ => true) items (trimOldestMatching items max slack hits))) ∧
    (∀ (α κ : Type) [DecidableEq κ] (items : List α) (max : Nat) (scope : α → κ) (scopes : List κ),
      (∀ item ∈ items, scope item ∈ scopes) →
        KeepsNewest (fun _ => true) scope (fun _ => ()) max (fun _ => true) items
          (scopes.foldl (fun kept key => trimOldestMatching kept max 0 fun item => scope item = key)
            items)) ∧
    (∀ store : SessionStore,
      (∀ record, SlackKept (fun known => known.sessionId = record.sessionId)
        maxAuditRecordsPerScope (store.audit ++ [record]) (store.recordAudit record).audit) ∧
      (∀ mark, SlackKept (fun known => known.sessionId = mark.sessionId)
        maxTimelineMarksPerSession (store.timeline ++ [mark])
        (store.recordTimelineMark mark).timeline) ∧
      ∀ snapshot, SlackKept (fun known => known.sessionId = snapshot.sessionId)
        maxSysmonSnapshotsPerSession (store.sysmon ++ [snapshot])
        (store.recordSysmonSnapshot snapshot).sysmon) ∧
    ∀ store : SessionStore,
      (∀ sessionId, KeepsNewest (fun task => !task.pending) (·.sessionId) finishedRank
        maxTerminalTransfersPerSession (fun other => other = sessionId) store.transfers
        (store.trimTransferHistory sessionId).transfers) ∧
      (∀ sessions : List String, (∀ task ∈ store.transfers, task.sessionId ∈ sessions) →
        (sessions.foldl trimTransferHistory store).transfers =
          store.normalizeBoundedHistories.transfers) ∧
      KeepsNewest (fun _ => true) (·.sessionId) (fun _ => ()) maxEventsPerSession (fun _ => true)
        store.events store.normalizeBoundedHistories.events ∧
      KeepsNewest (fun _ => true) (·.sessionId) (fun _ => ()) maxAuditRecordsPerScope
        (fun _ => true) store.audit store.normalizeBoundedHistories.audit ∧
      KeepsNewest (fun _ => true) (·.sessionId) (fun _ => ()) maxTimelineMarksPerSession
        (fun _ => true) store.timeline store.normalizeBoundedHistories.timeline ∧
      KeepsNewest (fun _ => true) (·.sessionId) (fun _ => ()) maxSysmonSnapshotsPerSession
        (fun _ => true) store.sysmon store.normalizeBoundedHistories.sysmon ∧
      KeepsNewest (fun task => !task.pending) (·.sessionId) finishedRank
        maxTerminalTransfersPerSession (fun _ => true) store.transfers
        store.normalizeBoundedHistories.transfers ∧
      store.normalizeBoundedHistories.normalizeBoundedHistories =
        store.normalizeBoundedHistories := by
  refine ⟨fun α items max slack hits => ⟨?_, trimmed_newest⟩, ?_, fun store => ?_, fun store => ?_⟩
  · intro fits
    rw [trimOldestMatching_newest, if_pos fits]
  · intro α κ _ items max scope scopes all
    exact keepsNewest (foldl_trimOldestMatching max scope all)
  · exact ⟨fun _ => trimOldestMatching_slack _ _ _, fun _ => trimOldestMatching_slack _ _ _,
      fun _ => trimOldestMatching_slack _ _ _⟩
  · have normalized := store.normalizeBoundedHistories_eq
    refine ⟨fun sessionId => keepsNewest (store.trimTransferHistory_newest sessionId), ?_,
      keepsNewest (congrArg (·.events) normalized), keepsNewest (congrArg (·.audit) normalized),
      keepsNewest (congrArg (·.timeline) normalized), keepsNewest (congrArg (·.sysmon) normalized),
      keepsNewest (congrArg (·.transfers) normalized), store.normalizeBoundedHistories_idem⟩
    intro sessions all
    rw [foldl_trimTransferHistory all]
    exact (congrArg (·.transfers) normalized).symm

/-- A scope at its limit keeps one record more after the next is recorded. -/
theorem audit_within_slack :
    let record : AuditRecord := ⟨"a", 0, "agent", "read", none, "allowed", []⟩
    let store : SessionStore := { default with
      audit := List.replicate maxAuditRecordsPerScope record }
    (store.audit.countP fun known => known.sessionId = none) = maxAuditRecordsPerScope ∧
      ((store.recordAudit record).audit.countP fun known => known.sessionId = none) =
        maxAuditRecordsPerScope + 1 := by
  intro record store
  have before : (store.audit.countP fun known => known.sessionId = none) =
      maxAuditRecordsPerScope := by
    show (List.replicate maxAuditRecordsPerScope record).countP _ = _
    rw [countP_replicate]
    exact if_pos rfl
  have count : ((store.audit ++ [record]).countP fun known => known.sessionId = none) =
      maxAuditRecordsPerScope + 1 := by
    rw [countP_append, before]
    rfl
  refine ⟨before, ?_⟩
  rw [recordAudit, trimOldestMatching_newest, if_pos (count.trans_le (by decide)), count]

end PortMate
