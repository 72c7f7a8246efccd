import Mathlib.Data.List.Basic
import Mathlib.Logic.Relation

namespace PortMate

open List

/-- Blocks that travel under numbers which come back, but not within a window. -/
structure NumberedBlocks (ν β : Type) where
  number : Nat → ν
  window : Nat
  distinct : ∀ {i j}, number i = number j → i ≤ j → j < i + window → i = j
  block : Nat → β

/-- The block that the sender offers, the one that the receiver wants, what it has, and the indices
of the blocks and acknowledgements in flight. Nothing is taken out of the network: a packet may
be lost, arrive late or arrive more than once. -/
structure NumberedExchange (β : Type) where
  sending : Nat
  wanted : Nat
  received : List β
  offered : List Nat
  acknowledged : List Nat

namespace NumberedExchange

variable {ν β : Type} (n : NumberedBlocks ν β)

/-- The parties see numbers only. A packet reaches a party at the latest when the party is fewer
blocks ahead than the window. -/
inductive Step : NumberedExchange β → NumberedExchange β → Prop
  | offer (s : NumberedExchange β) : Step s { s with offered := s.sending :: s.offered }
  | take (s : NumberedExchange β) (i : Nat) (offered : i ∈ s.offered) (recent : s.wanted < i + n.window)
      (named : n.number i = n.number s.wanted) :
      Step s { s with
        wanted := s.wanted + 1
        received := s.received ++ [n.block i]
        acknowledged := i :: s.acknowledged }
  | again (s : NumberedExchange β) (i : Nat) (offered : i ∈ s.offered)
      (named : n.number i ≠ n.number s.wanted) :
      Step s { s with acknowledged := i :: s.acknowledged }
  | remind (s : NumberedExchange β) (i : Nat) (last : i + 1 = s.wanted) :
      Step s { s with acknowledged := i :: s.acknowledged }
  | advance (s : NumberedExchange β) (i : Nat) (acknowledged : i ∈ s.acknowledged)
      (recent : s.sending < i + n.window) (named : n.number i = n.number s.sending) :
      Step s { s with sending := s.sending + 1 }

structure Inv (first : Nat) (s : NumberedExchange β) : Prop where
  started : first ≤ s.wanted
  behind : s.sending ≤ s.wanted
  ahead : s.wanted ≤ s.sending + 1
  offers : ∀ i ∈ s.offered, i ≤ s.sending
  acks : ∀ i ∈ s.acknowledged, i < s.wanted
  received : s.received = (List.range' first (s.wanted - first)).map n.block

variable {n} {first : Nat} {s : NumberedExchange β}

theorem Inv.acknowledges_sending (inv : Inv n first s) {i : Nat} (acknowledged : i ∈ s.acknowledged)
    (recent : s.sending < i + n.window) (named : n.number i = n.number s.sending) :
    i = s.sending ∧ s.wanted = s.sending + 1 := by
  have before := inv.acks i acknowledged
  have ahead := inv.ahead
  have same : i = s.sending := n.distinct named (by omega) recent
  exact ⟨same, by omega⟩

theorem Inv.takes_wanted (inv : Inv n first s) {i : Nat} (offered : i ∈ s.offered)
    (recent : s.wanted < i + n.window) (named : n.number i = n.number s.wanted) :
    i = s.wanted ∧ s.wanted = s.sending := by
  have sent := inv.offers i offered
  have behind := inv.behind
  have same : i = s.wanted := n.distinct named (by omega) recent
  exact ⟨same, by omega⟩

theorem Inv.step {s' : NumberedExchange β} (inv : Inv n first s) (step : Step n s s') :
    Inv n first s' := by
  have started := inv.started
  have behind := inv.behind
  have ahead := inv.ahead
  cases step with
  | offer =>
    exact { inv with offers := forall_mem_cons.mpr ⟨Nat.le_refl _, inv.offers⟩ }
  | take i offered recent named =>
    obtain ⟨rfl, current⟩ := inv.takes_wanted offered recent named
    refine ⟨by dsimp only; omega, by dsimp only; omega, by dsimp only; omega, inv.offers, ?_, ?_⟩
    · refine forall_mem_cons.mpr ⟨Nat.lt_succ_self _, fun i known => ?_⟩
      exact Nat.lt_succ_of_lt (inv.acks i known)
    · have counted : s.wanted + 1 - first = (s.wanted - first) + 1 := by omega
      have place : first + (s.wanted - first) = s.wanted := by omega
      dsimp only
      rw [counted, range'_concat, map_append, ← inv.received]
      simp [place]
  | again i offered named =>
    have other : i ≠ s.wanted := fun same => named (same ▸ rfl)
    have sent := inv.offers i offered
    have earlier : i < s.wanted := by omega
    exact { inv with acks := forall_mem_cons.mpr ⟨earlier, inv.acks⟩ }
  | remind i last =>
    have earlier : i < s.wanted := by omega
    exact { inv with acks := forall_mem_cons.mpr ⟨earlier, inv.acks⟩ }
  | advance i acknowledged recent named =>
    obtain ⟨_, taken⟩ := inv.acknowledges_sending acknowledged recent named
    refine ⟨started, by dsimp only; omega, by dsimp only; omega, fun i known => ?_, inv.acks,
      inv.received⟩
    exact Nat.le_succ_of_le (inv.offers i known)

theorem Inv.reachable {s' : NumberedExchange β} (inv : Inv n first s)
    (reached : Relation.ReflTransGen (Step n) s s') : Inv n first s' := by
  induction reached with
  | refl => exact inv
  | tail _ step ih => exact ih.step step

end NumberedExchange

end PortMate
