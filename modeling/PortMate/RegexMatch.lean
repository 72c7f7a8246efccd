import Mathlib.Data.List.Infix

namespace PortMate

open List Function

/-- Patterns over an alphabet; only single classes are repeated. -/
inductive Regex (α : Type)
  | empty
  | set (accepts : α → Bool)
  | many (greedy : Bool) (accepts : α → Bool)
  | seq (first second : Regex α)
  | alt (first second : Regex α)
  | capture (inner : Regex α)

structure Found (α : Type) where
  taken : List α
  captures : List (List α)
  rest : List α
  deriving DecidableEq

open Found

variable {α : Type}

theorem suffix_append_cases {s left right : List α} (suffix : s <:+ left ++ right) :
    s <:+ right ∨ ∃ part, part ≠ [] ∧ part <:+ left ∧ s = part ++ right := by
  obtain ⟨front, whole⟩ := suffix
  obtain ⟨part, rfl, rfl⟩ | ⟨part, rfl, rfl⟩ := append_eq_append_iff.mp whole
  · by_cases empty : part = []
    · subst empty
      exact .inl (suffix_refl _)
    · exact .inr ⟨part, empty, ⟨front, rfl⟩, rfl⟩
  · exact .inl ⟨part, rfl⟩

namespace Found

def nothing (text : List α) : Found α := ⟨[], [], text⟩

def followedBy (m n : Found α) : Found α :=
  ⟨m.taken ++ n.taken, m.captures ++ n.captures, n.rest⟩

def before (tail : List α) (m : Found α) : Found α := { m with rest := m.rest ++ tail }

def beyond (skipped : List α) (m : Found α) : Found α := { m with taken := skipped ++ m.taken }

@[simp] theorem nothing_rest (text : List α) : (nothing text).rest = text := rfl

@[simp] theorem nothing_taken (text : List α) : (nothing text).taken = [] := rfl

@[simp] theorem nothing_captures (text : List α) : (nothing text).captures = [] := rfl

@[simp] theorem nothing_before (text tail : List α) :
    (nothing text).before tail = nothing (text ++ tail) := rfl

@[simp] theorem followedBy_rest (m n : Found α) : (m.followedBy n).rest = n.rest := rfl

@[simp] theorem followedBy_taken (m n : Found α) :
    (m.followedBy n).taken = m.taken ++ n.taken := rfl

@[simp] theorem followedBy_captures (m n : Found α) :
    (m.followedBy n).captures = m.captures ++ n.captures := rfl

@[simp] theorem before_rest (m : Found α) (tail : List α) :
    (m.before tail).rest = m.rest ++ tail := rfl

@[simp] theorem before_taken (m : Found α) (tail : List α) : (m.before tail).taken = m.taken := rfl

@[simp] theorem before_captures (m : Found α) (tail : List α) :
    (m.before tail).captures = m.captures := rfl

@[simp] theorem beyond_rest (m : Found α) (skipped : List α) : (m.beyond skipped).rest = m.rest := rfl

@[simp] theorem beyond_taken (m : Found α) (skipped : List α) :
    (m.beyond skipped).taken = skipped ++ m.taken := rfl

@[simp] theorem beyond_captures (m : Found α) (skipped : List α) :
    (m.beyond skipped).captures = m.captures := rfl

theorem followedBy_before (m n : Found α) (head tail : List α) :
    (m.before head).followedBy (n.before tail) = (m.followedBy n).before tail := rfl

theorem beyond_before (m : Found α) (skipped tail : List α) :
    (m.beyond skipped).before tail = (m.before tail).beyond skipped := rfl

@[simp] theorem nothing_followedBy (text : List α) : (nothing text).followedBy = id := rfl

theorem beyond_followedBy (m : Found α) (skipped : List α) :
    (m.beyond skipped).followedBy = fun n => (m.followedBy n).beyond skipped := by
  funext n
  simp [followedBy, beyond]

@[simp] theorem beyond_nil : beyond ([] : List α) = id := rfl

theorem beyond_cons (c : α) (skipped : List α) :
    beyond (c :: skipped) = fun m => (m.beyond skipped).beyond [c] := rfl

end Found

namespace Regex

@[grind =] def manyAt (greedy : Bool) (accepts : α → Bool) : List α → List (Found α)
  | [] => [.nothing []]
  | c :: text =>
    if accepts c then
      let longer := (manyAt greedy accepts text).map (beyond [c])
      if greedy then longer ++ [.nothing (c :: text)] else .nothing (c :: text) :: longer
    else [.nothing (c :: text)]

/-- What the pattern can take at the start of a text, in the order of preference:
the earlier alternative first, the longer repetition first where it is greedy. -/
@[grind =] def matchesAt : Regex α → List α → List (Found α)
  | .empty, text => [.nothing text]
  | .set _, [] => []
  | .set accepts, c :: text => if accepts c then [⟨[c], [], text⟩] else []
  | .many greedy accepts, text => manyAt greedy accepts text
  | .seq first second, text =>
    (first.matchesAt text).flatMap fun m => (second.matchesAt m.rest).map m.followedBy
  | .alt first second, text => first.matchesAt text ++ second.matchesAt text
  | .capture inner, text =>
    (inner.matchesAt text).map fun m => { m with captures := m.taken :: m.captures }

def first (r : Regex α) (text : List α) : Option (Found α) := (r.matchesAt text).head?

def opt (r : Regex α) : Regex α := .alt r .empty

def plus (accepts : α → Bool) : Regex α := .seq (.set accepts) (.many true accepts)

def word : List (α → Bool) → Regex α
  | [] => .empty
  | accepts :: rest => .seq (.set accepts) (word rest)

/-- `[\s\S]*?` before the pattern. -/
def upTo (r : Regex α) : Regex α := .seq (.many false fun _ => true) r

/-- The pattern has a match somewhere in the text. -/
def occursIn (r : Regex α) (text : List α) : Bool := (r.upTo.first text).isSome

variable {text : List α} {m : Found α} {a b : Regex α}

theorem mem_seq :
    m ∈ (Regex.seq a b).matchesAt text ↔
      ∃ x ∈ a.matchesAt text, ∃ y ∈ b.matchesAt x.rest, x.followedBy y = m := by
  simp [matchesAt]

variable {accepts : α → Bool}

theorem mem_manyAt_cons {greedy : Bool} {c : α} :
    m ∈ manyAt greedy accepts (c :: text) ↔ m = .nothing (c :: text) ∨
      accepts c = true ∧ ∃ n ∈ manyAt greedy accepts text, n.beyond [c] = m := by
  rw [manyAt]
  split
  next accepted =>
    split
    · simp [accepted, or_comm]
    · simp [accepted]
  next rejected => simp [rejected]

theorem mem_manyAt {greedy : Bool} (mem : m ∈ manyAt greedy accepts text) :
    m.taken ++ m.rest = text ∧ m.captures = [] ∧ ∀ c ∈ m.taken, accepts c = true := by
  induction text generalizing m with
  | nil =>
    obtain rfl := mem_singleton.mp mem
    simp
  | cons c text ih =>
    obtain rfl | ⟨accepted, n, inside, rfl⟩ := mem_manyAt_cons.mp mem
    · simp
    · obtain ⟨split, captures, all⟩ := ih inside
      simpa [split, captures, accepted] using all

theorem manyAt_append {greedy : Bool} (tail : List α) (mem : m ∈ manyAt greedy accepts text) :
    m.before tail ∈ manyAt greedy accepts (text ++ tail) := by
  induction text generalizing m with
  | nil =>
    obtain rfl := mem_singleton.mp mem
    cases tail with
    | nil => exact mem
    | cons d tail => exact mem_manyAt_cons.mpr (.inl rfl)
  | cons c text ih =>
    obtain rfl | ⟨accepted, n, inside, rfl⟩ := mem_manyAt_cons.mp mem
    · exact mem_manyAt_cons.mpr (.inl rfl)
    · exact mem_manyAt_cons.mpr (.inr ⟨accepted, n.before tail, ih inside, rfl⟩)

variable {r : Regex α}

theorem taken_append_rest (mem : m ∈ r.matchesAt text) : m.taken ++ m.rest = text := by
  induction r generalizing text m with
  | empty =>
    obtain rfl := mem_singleton.mp mem
    rfl
  | set accepts =>
    cases text with
    | nil => exact absurd mem not_mem_nil
    | cons c text =>
      rw [matchesAt] at mem
      split at mem
      · obtain rfl := mem_singleton.mp mem
        rfl
      · exact absurd mem not_mem_nil
  | many greedy accepts => exact (mem_manyAt mem).1
  | seq a b ihA ihB =>
    obtain ⟨x, xMem, y, yMem, rfl⟩ := mem_seq.mp mem
    have first := ihA xMem
    have second := ihB yMem
    rw [followedBy_taken, followedBy_rest, append_assoc, second, first]
  | alt a b ihA ihB =>
    obtain mem | mem := mem_append.mp mem
    · exact ihA mem
    · exact ihB mem
  | capture inner ih =>
    obtain ⟨n, inside, rfl⟩ := mem_map.mp mem
    have split : n.taken ++ n.rest = text := ih inside
    exact split

theorem matchesAt_append (tail : List α) (mem : m ∈ r.matchesAt text) :
    m.before tail ∈ r.matchesAt (text ++ tail) := by
  induction r generalizing text m with
  | empty =>
    obtain rfl := mem_singleton.mp mem
    simp [matchesAt]
  | set accepts =>
    cases text with
    | nil => exact absurd mem not_mem_nil
    | cons c text =>
      simp only [matchesAt, cons_append] at mem ⊢
      split at mem
      next accepted =>
        obtain rfl := mem_singleton.mp mem
        simp [accepted, before]
      next => exact absurd mem not_mem_nil
  | many greedy accepts => exact manyAt_append tail mem
  | seq a b ihA ihB =>
    obtain ⟨x, xMem, y, yMem, rfl⟩ := mem_seq.mp mem
    exact mem_seq.mpr ⟨x.before tail, ihA xMem, y.before tail, ihB yMem, rfl⟩
  | alt a b ihA ihB =>
    obtain mem | mem := mem_append.mp mem
    · exact mem_append_left _ (ihA mem)
    · exact mem_append_right _ (ihB mem)
  | capture inner ih =>
    obtain ⟨n, inside, rfl⟩ := mem_map.mp mem
    exact mem_map.mpr ⟨n.before tail, ih inside, rfl⟩

/-- The pattern takes the same pieces of the text with and without what follows it. -/
def SettledAt (r : Regex α) (text tail : List α) : Prop :=
  r.matchesAt (text ++ tail) = (r.matchesAt text).map (before tail)

def rejects (d : α) : Regex α → Bool
  | .empty => true
  | .set accepts => !accepts d
  | .many _ accepts => !accepts d
  | .seq a b => rejects d a && rejects d b
  | .alt a b => rejects d a && rejects d b
  | .capture inner => rejects d inner

theorem SettledAt.first {r : Regex α} {text tail : List α} (settled : r.SettledAt text tail) :
    r.first (text ++ tail) = (r.first text).map (before tail) := by
  rw [Regex.first, settled, head?_map, Regex.first]

theorem settledAt_seq {text tail : List α} (settled : a.SettledAt text tail)
    (behind : ∀ m ∈ a.matchesAt text, b.SettledAt m.rest tail) :
    (Regex.seq a b).SettledAt text tail := by
  simp only [SettledAt, matchesAt] at settled ⊢
  rw [settled, flatMap_map, map_flatMap]
  apply flatMap_congr
  intro m mem
  have second := behind m mem
  rw [SettledAt] at second
  simp [second, comp_def, followedBy_before]

theorem settledAt_alt {text tail : List α} (first : a.SettledAt text tail)
    (second : b.SettledAt text tail) : (Regex.alt a b).SettledAt text tail := by
  simp only [SettledAt, matchesAt] at first second ⊢
  rw [first, second, map_append]

theorem settledAt_capture {text tail : List α} (settled : r.SettledAt text tail) :
    (Regex.capture r).SettledAt text tail := by
  simp only [SettledAt, matchesAt] at settled ⊢
  simp [settled, comp_def, before]

theorem manyAt_rejected {greedy : Bool} {d : α} (rejected : accepts d = false) (text tail : List α) :
    manyAt greedy accepts (text ++ d :: tail) =
      (manyAt greedy accepts text).map (before (d :: tail)) := by
  induction text with
  | nil => simp [manyAt, rejected]
  | cons c text ih =>
    rw [cons_append, manyAt, manyAt, ih]
    split
    · split <;> simp [comp_def, beyond_before]
    · simp

theorem settledAt_of_rejects {d : α} (rejected : r.rejects d = true) (text tail : List α) :
    r.SettledAt text (d :: tail) := by
  induction r generalizing text with
  | empty => simp [SettledAt, matchesAt]
  | set accepts =>
    have no : accepts d = false := by simpa [rejects] using rejected
    cases text with
    | nil => simp [SettledAt, matchesAt, no]
    | cons c text =>
      simp only [SettledAt, cons_append, matchesAt]
      split <;> simp [before]
  | many greedy accepts => exact manyAt_rejected (by simpa [rejects] using rejected) text tail
  | seq a b ihA ihB =>
    obtain ⟨first, second⟩ := Bool.and_eq_true_iff.mp rejected
    exact settledAt_seq (ihA first text) fun m _ => ihB second m.rest
  | alt a b ihA ihB =>
    obtain ⟨first, second⟩ := Bool.and_eq_true_iff.mp rejected
    exact settledAt_alt (ihA first text) (ihB second text)
  | capture inner ih => exact settledAt_capture (ih rejected text)

def TakesText (r : Regex α) : Prop := ∀ text, ∀ m ∈ r.matchesAt text, m.taken ≠ []

theorem settledAt_last {d : α} (rejected : r.rejects d = true) (text tail : List α) :
    r.SettledAt (text ++ [d]) tail := by
  rw [SettledAt, settledAt_of_rejects rejected text [], append_assoc, singleton_append,
    settledAt_of_rejects rejected text tail]
  simp [comp_def, before]

theorem unmatched_part {d : α} (closed : List α) (rejected : r.rejects d = true)
    (unmatched : ∀ part ∈ closed.tails, r.matchesAt part = []) {part : List α}
    (nonempty : part ≠ []) (suffix : part <:+ closed ++ [d]) (tail : List α) :
    r.matchesAt (part ++ tail) = [] := by
  obtain ⟨front, whole⟩ := suffix
  obtain ⟨inner, last, rfl⟩ : ∃ inner last, part = inner ++ [last] :=
    ⟨_, _, (dropLast_append_getLast nonempty).symm⟩
  rw [← append_assoc] at whole
  obtain ⟨rfl, rfl⟩ := append_singleton_inj.mp whole
  have inside : inner ∈ (front ++ inner).tails := (mem_tails _ _).mpr ⟨front, rfl⟩
  rw [append_assoc, singleton_append, settledAt_of_rejects rejected, unmatched _ inside]
  rfl

theorem word_cons (accepts : α → Bool) (rest : List (α → Bool)) (c : α) (text : List α) :
    (word (accepts :: rest)).matchesAt (c :: text) =
      if accepts c then ((word rest).matchesAt text).map (beyond [c]) else [] := by
  rw [word, matchesAt, matchesAt]
  split
  · rw [flatMap_singleton]
    rfl
  · rfl

theorem word_length {classes : List (α → Bool)} (mem : m ∈ (word classes).matchesAt text) :
    m.taken.length = classes.length := by
  induction classes generalizing text m with
  | nil =>
    obtain rfl := mem_singleton.mp mem
    rfl
  | cons accepts classes ih =>
    cases text with
    | nil => simp [word, matchesAt] at mem
    | cons c text =>
      rw [word_cons] at mem
      split at mem
      · obtain ⟨n, inside, rfl⟩ := mem_map.mp mem
        simp [ih inside]
      · exact absurd mem not_mem_nil

theorem word_captures {classes : List (α → Bool)} (mem : m ∈ (word classes).matchesAt text) :
    m.captures = [] := by
  induction classes generalizing text m with
  | nil =>
    obtain rfl := mem_singleton.mp mem
    rfl
  | cons accepts classes ih =>
    cases text with
    | nil => simp [word, matchesAt] at mem
    | cons c text =>
      rw [word_cons] at mem
      split at mem
      · obtain ⟨n, inside, rfl⟩ := mem_map.mp mem
        have empty : n.captures = [] := ih inside
        exact empty
      · exact absurd mem not_mem_nil

theorem plus_shape (mem : m ∈ (plus accepts).matchesAt text) :
    m.captures = [] ∧ ∃ c more, m.taken = c :: more ∧ ∀ d ∈ m.taken, accepts d = true := by
  obtain ⟨x, xMem, y, yMem, rfl⟩ := mem_seq.mp mem
  cases text with
  | nil => exact absurd xMem not_mem_nil
  | cons c text =>
    rw [matchesAt] at xMem
    split at xMem
    next accepted =>
      obtain rfl := mem_singleton.mp xMem
      obtain ⟨-, captures, all⟩ := mem_manyAt yMem
      exact ⟨captures, c, y.taken, rfl, forall_mem_cons.mpr ⟨accepted, all⟩⟩
    next => exact absurd xMem not_mem_nil

theorem word_once (classes : List (α → Bool)) (text : List α) :
    ((word classes).matchesAt text).length ≤ 1 := by
  induction classes generalizing text with
  | nil => exact le_refl 1
  | cons accepts classes ih =>
    cases text with
    | nil => simp [word, matchesAt]
    | cons c text =>
      rw [word_cons]
      split
      · simpa using ih text
      · simp

/-- Every match of the pattern takes a letter of the kind. -/
def Needs (r : Regex α) (kind : α → Bool) : Prop :=
  ∀ text, ∀ m ∈ r.matchesAt text, ∃ c ∈ m.taken, kind c = true

variable {kind : α → Bool}

theorem Needs.takesText (needs : r.Needs kind) : r.TakesText := by
  intro text m mem empty
  obtain ⟨c, inside, -⟩ := needs text m mem
  simp [empty] at inside

theorem needs_set (accepts : α → Bool) : (Regex.set accepts).Needs accepts := by
  intro text m mem
  cases text with
  | nil => exact absurd mem not_mem_nil
  | cons c text =>
    rw [matchesAt] at mem
    split at mem
    next accepted =>
      obtain rfl := mem_singleton.mp mem
      exact ⟨c, by simp, accepted⟩
    next => exact absurd mem not_mem_nil

theorem needs_seq_left (needs : a.Needs kind) : (Regex.seq a b).Needs kind := by
  intro text m mem
  obtain ⟨x, xMem, y, yMem, rfl⟩ := mem_seq.mp mem
  obtain ⟨c, inside, kindOf⟩ := needs text x xMem
  exact ⟨c, mem_append_left _ inside, kindOf⟩

theorem needs_seq_right (needs : b.Needs kind) : (Regex.seq a b).Needs kind := by
  intro text m mem
  obtain ⟨x, xMem, y, yMem, rfl⟩ := mem_seq.mp mem
  obtain ⟨c, inside, kindOf⟩ := needs x.rest y yMem
  exact ⟨c, mem_append_right _ inside, kindOf⟩

theorem needs_capture (needs : r.Needs kind) : (Regex.capture r).Needs kind := by
  intro text m mem
  obtain ⟨n, inside, rfl⟩ := mem_map.mp mem
  exact needs text n inside

theorem first_mem (found : r.first text = some m) :
    m ∈ r.matchesAt text := mem_of_head? found

theorem first_eq_none :
    r.first text = none ↔ r.matchesAt text = [] := head?_eq_none_iff

theorem upTo_cons (r : Regex α) (c : α) (text : List α) :
    r.upTo.first (c :: text) =
      (r.first (c :: text)).or ((r.upTo.first text).map (beyond [c])) := by
  simp only [first, upTo, matchesAt, manyAt, if_true, Bool.false_eq_true, if_false,
    flatMap_cons, flatMap_map, head?_append, ← head?_map, map_flatMap]
  congr 1
  · simp
  · simp [comp_def, beyond_followedBy]

theorem upTo_nil (nothing : r.first [] = none) : r.upTo.first [] = none := by
  simp [first, upTo, matchesAt, manyAt, first_eq_none.mp nothing]

theorem upTo_append {text tail : List α} (nothing : r.first [] = none)
    (settled : ∀ s, s ≠ [] → s <:+ text → r.first (s ++ tail) = (r.first s).map (before tail)) :
    r.upTo.first (text ++ tail) = ((r.upTo.first text).map (before tail)).or
      ((r.upTo.first tail).map (beyond text)) := by
  induction text with
  | nil => simp [upTo_nil nothing]
  | cons c text ih =>
    have here := settled (c :: text) (by simp) (suffix_refl _)
    have later := ih fun s nonempty inside =>
      settled s nonempty (inside.trans (suffix_cons c text))
    rw [cons_append] at here ⊢
    rw [upTo_cons, upTo_cons, here, later]
    cases r.first (c :: text) <;> cases r.upTo.first text <;>
      simp [beyond_cons c text, comp_def, beyond_before]

theorem upTo_matches : r.upTo.matchesAt text ≠ [] ↔ ∃ s, s <:+ text ∧ r.matchesAt s ≠ [] := by
  simp only [ne_eq, ← first_eq_none]
  induction text with
  | nil => simp [first, upTo, matchesAt, manyAt]
  | cons c text ih =>
    rw [upTo_cons]
    constructor
    · intro found
      cases here : r.first (c :: text) with
      | some m => exact ⟨c :: text, suffix_refl _, by simp [here]⟩
      | none =>
        have later : ¬r.upTo.first text = none := by simpa [here] using found
        obtain ⟨s, suffix, found⟩ := ih.mp later
        exact ⟨s, suffix.trans (suffix_cons c text), found⟩
    · rintro ⟨s, suffix, found⟩
      obtain rfl | suffix := suffix_cons_iff.mp suffix
      · simp [found]
      · simp [ih.mpr ⟨s, suffix, found⟩]

/-- The places where a search without overlaps tries the pattern. After a match it goes
on behind it; a pattern that takes nothing is not tried. -/
def attemptsFrom (r : Regex α) : Nat → List α → List (α × List α)
  | _, [] => []
  | skip + 1, _ :: text => r.attemptsFrom skip text
  | 0, c :: text =>
    match r.first (c :: text) with
    | some m => (c, text) :: r.attemptsFrom (m.taken.length - 1) text
    | none => (c, text) :: r.attemptsFrom 0 text

def attempts (r : Regex α) (text : List α) : List (α × List α) := r.attemptsFrom 0 text

theorem attemptsFrom_eq (r : Regex α) (skip : Nat) (text : List α) :
    r.attemptsFrom skip text = r.attempts (text.drop skip) := by
  induction text generalizing skip with
  | nil => simp [attemptsFrom, attempts]
  | cons c text ih =>
    cases skip with
    | zero => rfl
    | succ skip => exact ih skip

@[simp] theorem attempts_nil (r : Regex α) : r.attempts [] = [] := rfl

theorem attempts_none {c : α} (none : r.first (c :: text) = none) :
    r.attempts (c :: text) = (c, text) :: r.attempts text := by
  rw [attempts, attemptsFrom, none]
  rfl

theorem attempts_some (takes : r.TakesText) {c : α} (found : r.first (c :: text) = some m) :
    r.attempts (c :: text) = (c, text) :: r.attempts m.rest := by
  have split := taken_append_rest (first_mem found)
  have behind : text.drop (m.taken.length - 1) = m.rest := by
    cases taken : m.taken with
    | nil => exact absurd taken (takes _ m (first_mem found))
    | cons d taken' =>
      rw [taken, cons_append, List.cons.injEq] at split
      rw [← split.2]
      exact drop_left
  rw [attempts, attemptsFrom, found]
  simp only [attemptsFrom_eq, behind]

theorem search_induction (takes : r.TakesText) {motive : List α → Prop} (nil : motive [])
    (pass : ∀ c text, r.first (c :: text) = none → motive text → motive (c :: text))
    (found : ∀ c text m, r.first (c :: text) = some m → motive m.rest → motive (c :: text))
    (text : List α) : motive text := by
  induction length : text.length using Nat.strong_induction_on generalizing text with
  | _ n ih =>
    subst length
    cases text with
    | nil => exact nil
    | cons c text =>
      cases here : r.first (c :: text) with
      | none => exact pass c text here (ih text.length (by simp) text rfl)
      | some m =>
        apply found c text m here
        apply ih m.rest.length _ m.rest rfl
        rw [← taken_append_rest (first_mem here), length_append]
        have positive := length_pos_iff.mpr (takes _ m (first_mem here))
        omega

end Regex

/-- A text as a search reads it: matches, and the letters outside them. -/
inductive Piece (α : Type)
  | text (c : α)
  | found (taken : List α) (captures : List (List α))
  deriving DecidableEq

def Piece.letters : Piece α → List α
  | .text c => [c]
  | .found taken _ => taken

namespace Regex

def pieceAt (r : Regex α) (place : α × List α) : Piece α :=
  match r.first (place.1 :: place.2) with
  | some m => .found m.taken m.captures
  | none => .text place.1

def pieces (r : Regex α) (text : List α) : List (Piece α) := (r.attempts text).map r.pieceAt

@[simp] theorem pieces_nil (r : Regex α) : r.pieces [] = [] := rfl

variable {r : Regex α}

theorem pieces_none {c : α} {text : List α} (none : r.first (c :: text) = none) :
    r.pieces (c :: text) = .text c :: r.pieces text := by
  rw [pieces, attempts_none none, map_cons, pieceAt, none]
  rfl

theorem pieces_some (takes : r.TakesText) {c : α} {text : List α} {m : Found α}
    (found : r.first (c :: text) = some m) :
    r.pieces (c :: text) = .found m.taken m.captures :: r.pieces m.rest := by
  rw [pieces, attempts_some takes found, map_cons, pieceAt, found]
  rfl

theorem pieces_letters (takes : r.TakesText) (text : List α) :
    (r.pieces text).flatMap Piece.letters = text := by
  induction text using search_induction takes with
  | nil => rfl
  | pass c text none ih =>
    rw [pieces_none none, flatMap_cons, ih]
    rfl
  | found c text m found ih =>
    rw [pieces_some takes found, flatMap_cons, ih]
    exact taken_append_rest (first_mem found)

theorem pieces_append (takes : r.TakesText) {text tail : List α}
    (settled : ∀ s, s ≠ [] → s <:+ text → r.first (s ++ tail) = (r.first s).map (before tail)) :
    r.pieces (text ++ tail) = r.pieces text ++ r.pieces tail := by
  induction text using search_induction takes with
  | nil => rfl
  | pass c text none ih =>
    have here := settled (c :: text) (by simp) (suffix_refl _)
    rw [none] at here
    rw [cons_append] at here ⊢
    rw [pieces_none here, pieces_none none, cons_append,
      ih fun s nonempty inside => settled s nonempty (inside.trans (suffix_cons c text))]
  | found c text m found ih =>
    have here := settled (c :: text) (by simp) (suffix_refl _)
    rw [found] at here
    have behind : m.rest <:+ c :: text := ⟨m.taken, taken_append_rest (first_mem found)⟩
    rw [cons_append] at here ⊢
    rw [pieces_some takes here, pieces_some takes found, cons_append]
    simp only [before_taken, before_captures, before_rest]
    rw [ih fun s nonempty inside => settled s nonempty (inside.trans behind)]

theorem pieces_unmatched {text : List α} (unmatched : ∀ s, s ≠ [] → s <:+ text → r.first s = none) :
    r.pieces text = text.map .text := by
  induction text with
  | nil => rfl
  | cons c text ih =>
    rw [pieces_none (unmatched _ (by simp) (suffix_refl _)), map_cons,
      ih fun s nonempty inside => unmatched s nonempty (inside.trans (suffix_cons c text))]

end Regex

/-- Every match of a search replaced by what it is given for it. -/
def replacePieces (replacement : List α → List (List α) → List α) : List (Piece α) → List α
  | [] => []
  | .text c :: pieces => c :: replacePieces replacement pieces
  | .found taken captures :: pieces =>
    replacement taken captures ++ replacePieces replacement pieces

variable {replacement : List α → List (List α) → List α}

theorem replacePieces_append (left right : List (Piece α)) :
    replacePieces replacement (left ++ right) =
      replacePieces replacement left ++ replacePieces replacement right := by
  induction left with
  | nil => rfl
  | cons piece left ih => cases piece <;> simp [replacePieces, ih]

@[simp] theorem replacePieces_text (text : List α) :
    replacePieces replacement (text.map .text) = text := by
  induction text with
  | nil => rfl
  | cons c text ih => rw [map_cons, replacePieces, ih]

end PortMate
