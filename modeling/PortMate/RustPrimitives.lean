import Mathlib.Algebra.Group.Nat.Defs
import Mathlib.Data.List.Basic

namespace PortMate

/-- The two bytes of a `u16` in network order. -/
def u16ToBeBytes (value : UInt16) : List UInt8 :=
  [(value >>> 8).toUInt8, value.toUInt8]

def u16FromBeBytes (high low : UInt8) : UInt16 :=
  UInt16.ofNat (high.toNat * 256 + low.toNat)

@[simp] theorem u16ToBeBytes_length (value : UInt16) : (u16ToBeBytes value).length = 2 := rfl

theorem u16FromBeBytes_toBeBytes (value : UInt16) :
    u16FromBeBytes (value >>> 8).toUInt8 value.toUInt8 = value := by
  apply UInt16.toNat_inj.mp
  have bound := value.toNat_lt
  simp only [u16FromBeBytes, UInt16.toNat_ofNat', UInt16.toNat_toUInt8, UInt16.toNat_shiftRight,
    Nat.shiftRight_eq_div_pow]
  have shift : (8 : UInt16).toNat % 16 = 8 := rfl
  rw [shift]
  omega

theorem except_bind_eq_ok {ε α β : Type} {x : Except ε α} {f : α → Except ε β} {b : β}
    (h : x >>= f = .ok b) : ∃ a, x = .ok a ∧ f a = .ok b := by
  cases x with
  | error e => exact nomatch h
  | ok a => exact ⟨a, rfl, h⟩

theorem except_bind_ok {ε α β : Type} (a : α) (f : α → Except ε β) : (.ok a >>= f) = f a := rfl

/-- `checked_add` on `u64`. -/
def checkedAddU64 (a b : Nat) (overflow : String) : Except String Nat :=
  if a + b < 2 ^ 64 then .ok (a + b) else .error overflow

theorem checkedAddU64_ok {a b c : Nat} {overflow : String}
    (h : checkedAddU64 a b overflow = .ok c) : c = a + b := by
  unfold checkedAddU64 at h
  split at h
  · exact (Except.ok.inj h).symm
  · simp at h

def saturatingAdd (a b : Nat) : Nat := min (a + b) (2 ^ 64 - 1)

theorem saturatingAdd_small {a b : Nat} (small : a + b < 2 ^ 64) : saturatingAdd a b = a + b := by
  rw [saturatingAdd]
  omega

end PortMate
