import PortMate.FileBatchPlans

namespace PortMate

open List

section Paths

/-- Relative paths that start and end with a name. -/
structure PlainPath (path : List Char) : Prop where
  filled : path ≠ []
  head : path.head? ≠ some '/'
  last : path.getLast? ≠ some '/'

theorem validPath_parts {path : List Char} (valid : validateBatchRelativePath path = .ok ()) :
    path ≠ [] ∧ ∀ part ∈ path.splitOn '/', part ≠ [] := by
  unfold validateBatchRelativePath at valid
  split at valid
  next => cases valid
  next good =>
    simp only [Bool.or_eq_true, not_or, List.isEmpty_iff, any_eq_true, not_exists, not_and]
      at good
    exact ⟨good.1.1.1, fun part mem empty => (good.2 part mem).1.1 empty⟩

theorem plainPath_of_valid {path : List Char} (valid : validateBatchRelativePath path = .ok ()) :
    PlainPath path := by
  obtain ⟨filled, parts⟩ := validPath_parts valid
  refine ⟨filled, fun head => ?_, fun last => ?_⟩
  · obtain ⟨rest, rfl⟩ := head?_eq_some_iff.mp head
    have split := splitOn_append_cons_self ([] : List Char) rest (a := '/')
    exact parts [] (by rw [nil_append] at split; rw [split]; simp) rfl
  · obtain ⟨front, rfl⟩ := getLast?_eq_some_iff.mp last
    have split := splitOn_append_cons_self front ([] : List Char) (a := '/')
    exact parts [] (by rw [split]; simp) rfl

theorem trimSlashes_plain {path : List Char} (plain : PlainPath path) : trimSlashes path = path := by
  obtain ⟨c, rest, rfl⟩ := exists_cons_of_ne_nil plain.filled
  have head : c ≠ '/' := fun same => plain.head (same ▸ rfl)
  have last : (c :: rest).getLast (by simp) ≠ '/' := fun same =>
    plain.last (by rw [getLast?_eq_some_getLast (by simp), same])
  rw [trimSlashes, dropWhile_cons_of_neg (by simpa using head),
    rdropWhile_eq_self_iff.mpr fun _ => by simpa using last]

/-- What stands before every relative path of a batch. -/
def BatchDestination.front (destination : BatchDestination) : List Char :=
  if destination.remote then
    if destination.directory.isEmpty || destination.directory = ['.'] then []
    else if destination.directory = ['/'] then ['/']
    else destination.directory.rdropWhile (· = '/') ++ ['/']
  else if destination.directory.isEmpty || destination.directory.getLast? = some '/' then
    destination.directory
  else destination.directory ++ ['/']

variable (destination : BatchDestination)

theorem target_eq {relative : List Char} (plain : PlainPath relative) :
    destination.target relative = destination.front ++ relative := by
  unfold BatchDestination.target batchDestinationPath BatchDestination.front
  split
  · unfold remoteJoinPath
    rw [trimSlashes_plain plain]
    dsimp only
    split
    · rfl
    · split
      · rfl
      · rw [append_assoc, singleton_append]
  · unfold localJoinPath
    split
    · rfl
    · rw [append_assoc, singleton_append]

theorem target_inj {first second : List Char} (plain : PlainPath first) (plain' : PlainPath second)
    (same : destination.target first = destination.target second) : first = second := by
  rw [target_eq destination plain, target_eq destination plain'] at same
  exact append_cancel_left same

theorem splitExtension_mem {name : List Char} {c : Char}
    (mem : c ∈ (splitExtension name).1 ∨ c ∈ (splitExtension name).2) : c ∈ name := by
  unfold splitExtension at mem
  split at mem
  next stem extension found =>
    have whole := rsplitOnce_some found
    split at mem
    · rw [whole, mem_append, mem_cons]
      exact mem.elim .inl fun back => .inr (.inr back)
    · exact mem.elim id fun back => absurd back not_mem_nil
  next => exact mem.elim id fun back => absurd back not_mem_nil

theorem numberedName_plain {name : List Char} (plain : '/' ∉ name) (suffix : Nat) :
    '/' ∉ numberedName name suffix ∧ numberedName name suffix ≠ [] := by
  have digits : '/' ∉ Nat.toDigits 10 suffix := fun mem =>
    absurd (toDigits_isDigit mem) (by decide)
  have stem : '/' ∉ (splitExtension name).1 := fun mem => plain (splitExtension_mem (.inl mem))
  have extension : '/' ∉ (splitExtension name).2 := fun mem => plain (splitExtension_mem (.inr mem))
  unfold numberedName
  dsimp only
  split
  · simp [stem, digits]
  · simp [stem, digits, extension]

theorem numberedBatchRelativePath_ok {path numbered : List Char} {suffix : Nat}
    (ok : numberedBatchRelativePath path suffix = .ok numbered) :
    ∃ parent name renamed, path = parent ++ name ∧ numbered = parent ++ renamed ∧ '/' ∉ name ∧
      '/' ∉ renamed ∧ renamed ≠ [] ∧ (parent = [] ∨ ∃ directory, parent = directory ++ ['/'] ∧
        directory ≠ []) := by
  obtain ⟨_, valid, ok⟩ := except_bind_eq_ok ok
  have plain := plainPath_of_valid valid
  cases split : rsplitOnce '/' path with
  | none =>
    rw [split] at ok
    have bare := rsplitOnce_none split
    obtain ⟨renamed, filled⟩ := numberedName_plain bare suffix
    exact ⟨[], path, numberedName path suffix, rfl, (Except.ok.inj ok).symm, bare, renamed, filled,
      .inl rfl⟩
  | some parts =>
    obtain ⟨directory, name⟩ := parts
    rw [split] at ok
    have whole := rsplitOnce_some split
    have bare := rsplitOnce_plain split
    obtain ⟨renamed, filled⟩ := numberedName_plain bare suffix
    have named : directory ≠ [] := by
      rintro rfl
      exact plain.head (by rw [whole]; rfl)
    refine ⟨directory ++ ['/'], name, numberedName name suffix, ?_, ?_, bare, renamed, filled,
      .inr ⟨directory, rfl, named⟩⟩
    · rw [whole, append_assoc, singleton_append]
    · have same := Except.ok.inj ok
      rw [← same, if_neg (by simpa using named), append_assoc, singleton_append]

theorem plainPath_numbered {path numbered : List Char} {suffix : Nat}
    (ok : numberedBatchRelativePath path suffix = .ok numbered) : PlainPath numbered := by
  have valid := ok
  obtain ⟨_, valid, -⟩ := except_bind_eq_ok valid
  have plain := plainPath_of_valid valid
  obtain ⟨parent, name, renamed, rfl, rfl, -, bare, filled, place⟩ := numberedBatchRelativePath_ok ok
  have last : (parent ++ renamed).getLast? ≠ some '/' := by
    obtain ⟨front, c, rfl⟩ := eq_nil_or_concat renamed |>.resolve_left filled
    rw [concat_eq_append, ← append_assoc, getLast?_concat]
    exact fun same => bare (by simp [Option.some.inj same])
  refine ⟨fun none => filled (append_eq_nil_iff.mp none).2, ?_, last⟩
  rcases place with rfl | ⟨directory, rfl, named⟩
  · obtain ⟨c, rest, rfl⟩ := exists_cons_of_ne_nil filled
    exact fun same => bare (by rw [Option.some.inj same]; exact mem_cons_self)
  · obtain ⟨c, rest, rfl⟩ := exists_cons_of_ne_nil named
    exact plain.head

theorem ancestor_of_numbered {path numbered above : List Char} {suffix : Nat}
    (ok : numberedBatchRelativePath path suffix = .ok numbered)
    (inside : above ++ ['/'] <+: numbered) : above ++ ['/'] <+: path := by
  obtain ⟨parent, name, renamed, rfl, rfl, -, bare, -, -⟩ := numberedBatchRelativePath_ok ok
  obtain ⟨rest, whole⟩ := inside
  rcases append_eq_append_iff.mp whole with ⟨middle, rfl, -⟩ | ⟨middle, upper, tail⟩
  · exact ⟨middle ++ name, by simp⟩
  · cases middle using List.reverseRecOn with
    | nil =>
      rw [append_nil] at upper
      exact ⟨name, by rw [upper]⟩
    | append_singleton middle c =>
      rw [← append_assoc] at upper
      have same := (append_inj' upper rfl).2
      obtain rfl := head_eq_of_cons_eq same
      exact absurd (by rw [tail]; simp) bare

end Paths

end PortMate
