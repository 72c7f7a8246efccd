import PortMate.RustText

namespace PortMate

open List

/-- A string or file as its bytes; its length is a `usize`. -/
abbrev Blob := { bytes : List UInt8 // bytes.length < 2 ^ 64 }

/-- `to_le_bytes` of an integer of `width` bytes. -/
def toLeBytes : Nat → Nat → List UInt8
  | 0, _ => []
  | width + 1, n => UInt8.ofNat n :: toLeBytes width (n / 256)

@[simp] theorem length_toLeBytes (width n : Nat) : (toLeBytes width n).length = width := by
  induction width generalizing n with
  | zero => rfl
  | succ width ih => simp [toLeBytes, ih]

theorem toLeBytes_mod {width n m : Nat} (same : toLeBytes width n = toLeBytes width m) :
    n % 256 ^ width = m % 256 ^ width := by
  induction width generalizing n m with
  | zero => simp [Nat.mod_one]
  | succ width ih =>
    simp only [toLeBytes, List.cons.injEq] at same
    have low := congrArg UInt8.toNat same.1
    simp only [UInt8.toNat_ofNat'] at low
    have high := ih same.2
    rw [Nat.pow_succ', Nat.mod_mul, Nat.mod_mul, high]
    omega

theorem toLeBytes_inj {n m : Nat} (nBound : n < 2 ^ 64) (mBound : m < 2 ^ 64)
    (same : toLeBytes 8 n = toLeBytes 8 m) : n = m := by
  have mod := toLeBytes_mod same
  rwa [Nat.mod_eq_of_lt (by omega), Nat.mod_eq_of_lt (by omega)] at mod

/-- Length and bytes, so that nothing that follows can be taken for part of the value. -/
def framed (blob : Blob) : List UInt8 := toLeBytes 8 blob.1.length ++ blob.1

theorem framed_append_inj {first second : Blob} {rest rest' : List UInt8}
    (same : framed first ++ rest = framed second ++ rest') : first = second ∧ rest = rest' := by
  simp only [framed, append_assoc] at same
  obtain ⟨lengths, tails⟩ := append_inj same (by simp)
  have length := toLeBytes_inj first.2 second.2 lengths
  obtain ⟨bytes, rests⟩ := append_inj tails length
  exact ⟨Subtype.ext bytes, rests⟩

/-- What is in the store file. A JSON store and a database without the metadata row have an empty
revision, which is hashed like no revision. -/
structure Snapshot where
  revision : Blob
  content : Blob
  deriving DecidableEq

inductive StoreFormat
  | sqlite3 | json
  deriving DecidableEq

inductive StoreSnapshotVersion (Digest : Type)
  | missing
  | sha256 (digest : Digest)
  | unknownAfterCommit
  deriving DecidableEq

def snapshotDomain : List UInt8 := utf8Bytes "portmate-store-snapshot-v1\x00"

/-- The bytes `store_snapshot_version` feeds to the digest. -/
def Snapshot.hashed (format : StoreFormat) (snapshot : Snapshot) : List UInt8 :=
  match format with
  | .sqlite3 => snapshotDomain ++ (framed snapshot.revision ++ framed snapshot.content)
  | .json => snapshot.content.1

theorem hashed_content {format : StoreFormat} {first second : Snapshot}
    (same : first.hashed format = second.hashed format) : first.content = second.content := by
  cases format with
  | sqlite3 =>
    have framedSame := append_cancel_left same
    obtain ⟨_, contents⟩ := framed_append_inj framedSame
    exact (@framed_append_inj _ _ [] [] (by simpa using contents)).1
  | json => exact Subtype.ext same

section Version

variable {Digest : Type} (sha256 : List UInt8 → Digest) (format : StoreFormat)

def storeSnapshotVersion : Option Snapshot → StoreSnapshotVersion Digest
  | none => .missing
  | some snapshot => .sha256 (sha256 (snapshot.hashed format))

variable {sha256}

theorem version_content (collisionFree : Function.Injective sha256) {first second : Snapshot}
    (same : storeSnapshotVersion sha256 format (some first) =
      storeSnapshotVersion sha256 format (some second)) : first.content = second.content := by
  simp only [storeSnapshotVersion, StoreSnapshotVersion.sha256.injEq] at same
  exact hashed_content (collisionFree same)

end Version

end PortMate
