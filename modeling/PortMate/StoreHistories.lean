import PortMate.SessionModels

namespace PortMate

open List

def maxAuditRecordsPerScope : Nat := 5000

def auxHistoryTrimBatch : Nat := 128

/-- `retain` with a countdown: the first `n` items that match go. -/
def dropOldest {α : Type} (hits : α → Bool) : Nat → List α → List α
  | 0, items => items
  | _ + 1, [] => []
  | n + 1, item :: items =>
    if hits item then dropOldest hits n items else item :: dropOldest hits (n + 1) items

theorem mem_dropOldest_last {α : Type} {hits : α → Bool} {items : List α} {last : α} {n : Nat}
    (fewer : n < (items ++ [last]).countP hits) : last ∈ dropOldest hits n (items ++ [last]) := by
  induction items generalizing n with
  | nil =>
    cases n with
    | zero => simp [dropOldest]
    | succ n =>
      have one := countP_le_length (p := hits) (l := [last])
      simp only [nil_append, length_singleton] at fewer one
      omega
  | cons item items ih =>
    cases n with
    | zero => simp [dropOldest]
    | succ n =>
      rw [cons_append] at fewer ⊢
      by_cases hit : hits item
      · rw [countP_cons_of_pos hit] at fewer
        rw [dropOldest, if_pos hit]
        exact ih (by omega)
      · rw [countP_cons_of_neg hit] at fewer
        rw [dropOldest, if_neg hit]
        exact mem_cons_of_mem _ (ih fewer)

def trimOldestMatching {α : Type} (items : List α) (max slack : Nat) (hits : α → Bool) : List α :=
  if items.countP hits ≤ max + slack then items
  else dropOldest hits (items.countP hits - max) items

theorem mem_trimOldestMatching_last {α : Type} {items : List α} {last : α} {max slack : Nat}
    {hits : α → Bool} (positive : 0 < max) :
    last ∈ trimOldestMatching (items ++ [last]) max slack hits := by
  unfold trimOldestMatching
  split
  next => simp
  next many => exact mem_dropOldest_last (by omega)

namespace SessionStore

def transferById (store : SessionStore) (id : String) : Option TransferTask :=
  store.transfers.find? fun transfer => transfer.id = id

def recordAudit (store : SessionStore) (record : AuditRecord) : SessionStore :=
  { store with
    audit := trimOldestMatching (store.audit ++ [record]) maxAuditRecordsPerScope
      auxHistoryTrimBatch fun known => known.sessionId = record.sessionId }

theorem mem_recordAudit (store : SessionStore) (record : AuditRecord) :
    record ∈ (store.recordAudit record).audit :=
  mem_trimOldestMatching_last (by decide)

end SessionStore

end PortMate
