import Mathlib.Data.List.Perm.Subperm
import Mathlib.Data.String.Basic

namespace PortMate

open List Or Prod

/-- A value of JSON, its numbers up to their equality. An object keeps its fields in order. -/
inductive JsonValue (ν : Type)
  | null
  | bool (value : Bool)
  | number (value : ν)
  | string (text : String)
  | array (items : List (JsonValue ν))
  | object (fields : List (String × JsonValue ν))

namespace JsonValue

variable {ν : Type} [DecidableEq ν]

mutual

/-- `PartialEq`. -/
def same : JsonValue ν → JsonValue ν → Bool
  | null, null => true
  | bool a, bool b => a = b
  | number a, number b => a = b
  | string a, string b => a = b
  | array a, array b => sameItems a b
  | object a, object b => sameFields a b
  | _, _ => false

def sameItems : List (JsonValue ν) → List (JsonValue ν) → Bool
  | [], [] => true
  | a :: as, b :: bs => same a b && sameItems as bs
  | _, _ => false

def sameFields : List (String × JsonValue ν) → List (String × JsonValue ν) → Bool
  | [], [] => true
  | (key, a) :: as, (other, b) :: bs => key = other && same a b && sameFields as bs
  | _, _ => false

end

mutual

theorem same_iff (a b : JsonValue ν) : same a b = true ↔ a = b := by
  cases a with
  | null => cases b <;> simp [same]
  | bool a => cases b <;> simp [same]
  | number a => cases b <;> simp [same]
  | string a => cases b <;> simp [same]
  | array a =>
    cases b with
    | array b => rw [same, sameItems_iff, array.injEq]
    | _ => simp [same]
  | object a =>
    cases b with
    | object b => rw [same, sameFields_iff, object.injEq]
    | _ => simp [same]

theorem sameItems_iff (as bs : List (JsonValue ν)) : sameItems as bs = true ↔ as = bs := by
  cases as with
  | nil => cases bs <;> simp [sameItems]
  | cons a as =>
    cases bs with
    | nil => simp [sameItems]
    | cons b bs => rw [sameItems, Bool.and_eq_true, same_iff, sameItems_iff, List.cons.injEq]

theorem sameFields_iff (as bs : List (String × JsonValue ν)) :
    sameFields as bs = true ↔ as = bs := by
  cases as with
  | nil => cases bs <;> simp [sameFields]
  | cons a as =>
    obtain ⟨key, a⟩ := a
    cases bs with
    | nil => simp [sameFields]
    | cons b bs =>
      obtain ⟨other, b⟩ := b
      rw [sameFields, Bool.and_eq_true, Bool.and_eq_true, same_iff, sameFields_iff, List.cons.injEq,
        mk.injEq, decide_eq_true_eq]

end

instance : DecidableEq (JsonValue ν) := fun a b => decidable_of_iff _ (same_iff a b)

end JsonValue

section Merge

variable {ν : Type} [DecidableEq ν]

/-- The three objects have as many fields, and the first one's names. -/
def sameStructure (expected current incoming : List (String × JsonValue ν)) : Bool :=
  expected.length = current.length && expected.length = incoming.length &&
    expected.all fun field =>
      (current.lookup field.1).isSome && (incoming.lookup field.1).isSome

mutual

def mergeExpectedJsonValue (entity path : String) (expected current incoming : JsonValue ν) :
    Except String (JsonValue ν) :=
  if incoming = expected then .ok current
  else if current = expected ∨ incoming = current then .ok incoming
  else
    match expected, current, incoming with
    | .object expected, .object current, .object incoming =>
      if sameStructure expected current incoming then
        match mergeExpectedFields entity path expected current incoming with
        | .error error => .error error
        | .ok merged => .ok (.object merged)
      else .error s!"{entity} 结构已被其他操作修改，请刷新后重试: {path}"
    | _, _, _ => .error s!"{entity} 字段已被其他操作修改，请刷新后重试: {path}"

/-- The loop over the fields of the object that was expected. -/
def mergeExpectedFields (entity path : String) :
    List (String × JsonValue ν) → List (String × JsonValue ν) → List (String × JsonValue ν) →
      Except String (List (String × JsonValue ν))
  | [], _, _ => .ok []
  | (key, expectedValue) :: rest, current, incoming =>
    match current.lookup key, incoming.lookup key with
    | some currentValue, some incomingValue =>
      match mergeExpectedJsonValue entity (path ++ "." ++ key) expectedValue currentValue
          incomingValue with
      | .error error => .error error
      | .ok merged =>
        match mergeExpectedFields entity path rest current incoming with
        | .error error => .error error
        | .ok fields => .ok ((key, merged) :: fields)
    | _, _ => .error "merged JSON key sets were checked above"

end

theorem mergeExpectedJsonValue_ok {entity path : String} {expected current incoming merged :
    JsonValue ν} (ok : mergeExpectedJsonValue entity path expected current incoming = .ok merged) :
    (incoming = expected ∧ merged = current) ∨ (current = expected ∧ merged = incoming) ∨
      (incoming = current ∧ merged = incoming) ∨
      ∃ expectedFields currentFields incomingFields fields,
        expected = .object expectedFields ∧ current = .object currentFields ∧
        incoming = .object incomingFields ∧ merged = .object fields ∧ incoming ≠ expected ∧
        sameStructure expectedFields currentFields incomingFields = true ∧
        mergeExpectedFields entity path expectedFields currentFields incomingFields = .ok fields := by
  unfold mergeExpectedJsonValue at ok
  split at ok
  next same => exact inl ⟨same, (Except.ok.inj ok).symm⟩
  next changed =>
    split at ok
    next shortcut =>
      rcases shortcut with same | same
      · exact inr (inl ⟨same, (Except.ok.inj ok).symm⟩)
      · exact inr (inr (inl ⟨same, (Except.ok.inj ok).symm⟩))
    next =>
      split at ok
      next expectedFields currentFields incomingFields _ =>
        split at ok
        next structured =>
          split at ok
          next => cases ok
          next fields given =>
            exact inr (inr (inr ⟨expectedFields, currentFields, incomingFields, fields, rfl,
              rfl, rfl, (Except.ok.inj ok).symm, changed, structured, given⟩))
        next => cases ok
      next => cases ok

theorem mergeExpectedFields_names {entity path : String} {expected current incoming merged :
    List (String × JsonValue ν)}
    (ok : mergeExpectedFields entity path expected current incoming = .ok merged) :
    merged.map fst = expected.map fst := by
  induction expected generalizing merged with
  | nil =>
    rw [mergeExpectedFields] at ok
    rw [← Except.ok.inj ok]
  | cons field rest ih =>
    obtain ⟨key, expectedValue⟩ := field
    rw [mergeExpectedFields] at ok
    split at ok
    · split at ok
      · cases ok
      · split at ok
        next => cases ok
        next fields given =>
          rw [← Except.ok.inj ok, map_cons, map_cons, ih given]
    · cases ok

theorem mergeExpectedFields_lookup {entity path : String} {expected current incoming merged :
    List (String × JsonValue ν)}
    (ok : mergeExpectedFields entity path expected current incoming = .ok merged) (key : String) :
    (expected.lookup key = none ∧ merged.lookup key = none) ∨
      ∃ expectedValue currentValue incomingValue value, expected.lookup key = some expectedValue ∧
        current.lookup key = some currentValue ∧ incoming.lookup key = some incomingValue ∧
        merged.lookup key = some value ∧
        mergeExpectedJsonValue entity (path ++ "." ++ key) expectedValue currentValue incomingValue =
          .ok value := by
  induction expected generalizing merged with
  | nil =>
    rw [mergeExpectedFields] at ok
    rw [← Except.ok.inj ok]
    exact inl ⟨rfl, rfl⟩
  | cons field rest ih =>
    obtain ⟨name, expectedValue⟩ := field
    rw [mergeExpectedFields] at ok
    split at ok
    next currentValue incomingValue currentGiven incomingGiven =>
      split at ok
      next => cases ok
      next value mergedValue =>
        split at ok
        next => cases ok
        next fields given =>
          rw [← Except.ok.inj ok, lookup_cons, lookup_cons]
          by_cases here : key = name
          · subst here
            rw [beq_self_eq_true]
            exact inr ⟨_, _, _, _, rfl, currentGiven, incomingGiven, rfl, mergedValue⟩
          · rw [beq_false_of_ne here]
            exact ih given
    next => cases ok

end Merge

section Places

variable {ν : Type}

inductive JsonStep
  | key (name : String)
  | index (position : Nat)

namespace JsonValue

def child : JsonValue ν → JsonStep → Option (JsonValue ν)
  | object fields, .key name => fields.lookup name
  | array items, .index position => items[position]?
  | _, _ => none

def place : JsonValue ν → List JsonStep → Option (JsonValue ν)
  | value, [] => some value
  | value, step :: path => (value.child step).bind fun inner => inner.place path

theorem place_key (fields : List (String × JsonValue ν)) (name : String) (path : List JsonStep) :
    (object fields).place (.key name :: path) =
      (fields.lookup name).bind fun inner => inner.place path :=
  rfl

/-- Every object has its names in ascending order. -/
def AscendingNames (value : JsonValue ν) : Prop :=
  ∀ path fields, value.place path = some (.object fields) →
    (fields.map fst).Pairwise (· < ·)

theorem AscendingNames.child {value inner : JsonValue ν} (ascending : value.AscendingNames)
    {step : JsonStep} (found : value.child step = some inner) : inner.AscendingNames := by
  intro path fields there
  refine ascending (step :: path) fields ?_
  unfold place
  rw [found]
  exact there

theorem AscendingNames.nodup {fields : List (String × JsonValue ν)}
    (ascending : (object fields).AscendingNames) : (fields.map fst).Nodup :=
  (ascending [] fields rfl).imp fun less => ne_of_lt less

end JsonValue

/-- `serde_json::Value`: its maps are ordered, with every name once. -/
structure JsonDocument (ν : Type) where
  value : JsonValue ν
  ascending : value.AscendingNames

end Places

end PortMate
