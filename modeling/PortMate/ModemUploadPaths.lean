import PortMate.ModemCommands

namespace PortMate

open List Bool Option

/-- A path as POSIX reads it: the names between its slashes, from the root or not. -/
structure PosixPath where
  absolute : Bool
  names : List (List Char)
  deriving DecidableEq

def posixPath (path : List Char) : PosixPath where
  absolute := path.head? = some '/'
  names := (path.splitOnP (· = '/')).filter fun name => !name.isEmpty

/-- The path of a name in a directory, which is the current one where it is empty. -/
def joinPosix (dir name : List Char) : List Char :=
  if dir.isEmpty then name else dir ++ '/' :: name

/-- `local_file_name`. -/
def localFileName (path : List Char) : List Char :=
  (portableFileName path).getD "portmate-transfer.bin".toList

/-- The name that `ymodem_send_file` and `zmodem_send_file` announce. -/
def announcedName (localSource remoteDestination : List Char) : List Char :=
  let remoteName := (remoteParentAndFileName remoteDestination).2
  if remoteName.isEmpty then localFileName localSource else remoteName

/-- The file that the receiver creates, which is started in the directory of the part. -/
def receivedFile (localSource target : List Char) : List Char :=
  let part := remoteResumePartPath target
  joinPosix (remoteParentAndFileName part).1 (announcedName localSource part)

/-- The receiver's file is the part, which the last command renames to the target: the part has a
name and a directory that make it up again. -/
structure ReceivesPart (target : List Char) : Prop where
  named : (remoteParentAndFileName (remoteResumePartPath target)).2 ≠ []
  joined : posixPath (joinPosix (remoteParentAndFileName (remoteResumePartPath target)).1
      (remoteParentAndFileName (remoteResumePartPath target)).2) =
    posixPath (remoteResumePartPath target)
  received : ∀ localSource,
    posixPath (receivedFile localSource target) = posixPath (remoteResumePartPath target)

def lastName (target : List Char) : List Char := (rsplitOnce '/' target).elim target Prod.snd

/-- A last name that all three splitters read alike. -/
def PlainLastName (target : List Char) : Prop :=
  '\\' ∉ lastName target ∧ (∀ c ∈ lastName target, isRustControl c = false) ∧
    hasDrivePrefix (lastName target) = false

section Names

theorem posixPath_name {name : List Char} (filled : name ≠ []) (plain : '/' ∉ name) :
    posixPath name = ⟨false, [name]⟩ := by
  have other : ∀ c ∈ name, decide (c = '/') = false := by
    intro c mem
    exact decide_eq_false fun same => plain (same ▸ mem)
  have relative : (name.head? = some '/') = False := by
    apply eq_false
    intro first
    exact plain (mem_of_mem_head? first)
  simp [posixPath, splitOnP_eq_singleton other, filled, relative]

theorem posixPath_join (dir : List Char) {name : List Char} (filled : name ≠ [])
    (plain : '/' ∉ name) : posixPath (dir ++ '/' :: name) =
      ⟨(posixPath (dir ++ ['/'])).absolute, (posixPath dir).names ++ [name]⟩ := by
  have alone := congrArg PosixPath.names (posixPath_name filled plain)
  simp only [posixPath] at alone ⊢
  rw [splitOnP_append_cons dir name (by simp), List.filter_append, alone]
  cases dir <;> rfl

theorem posixPath_join_last {dir name : List Char} (filled : name ≠ []) (plain : '/' ∉ name) :
    (posixPath (joinPosix dir name)).names.getLast? = some name := by
  unfold joinPosix
  split
  · rw [posixPath_name filled plain]
    rfl
  · rw [posixPath_join dir filled plain, getLast?_concat]

theorem lastName_split (target : List Char) : '/' ∉ lastName target ∧
    (target = lastName target ∨ ∃ dir, target = dir ++ '/' :: lastName target) := by
  unfold lastName
  cases split : rsplitOnce '/' target with
  | none => exact ⟨rsplitOnce_none split, .inl rfl⟩
  | some parts =>
    obtain ⟨dir, name⟩ := parts
    exact ⟨rsplitOnce_plain split, .inr ⟨dir, rsplitOnce_some split⟩⟩

theorem splitLastSeparator_none {path : List Char}
    (plain : ∀ c ∈ path, isAnySeparator c = false) : splitLastSeparator path = none := by
  induction path with
  | nil => rfl
  | cons c rest ih =>
    rw [splitLastSeparator, ih fun d mem => plain d (mem_cons_of_mem c mem),
      plain c mem_cons_self]
    rfl

theorem splitLastSeparator_append (before : List Char) {separator : Char} {after : List Char}
    (separates : isAnySeparator separator = true)
    (plain : ∀ c ∈ after, isAnySeparator c = false) :
    splitLastSeparator (before ++ separator :: after) = some (before, after) := by
  induction before with
  | nil =>
    rw [nil_append, splitLastSeparator, splitLastSeparator_none plain]
    simp only [separates, if_true]
  | cons c before ih => rw [cons_append, splitLastSeparator, ih]

theorem trimSeparators_last {path : List Char} {last : Char} (plain : isAnySeparator last = false) :
    trimSeparators (path ++ [last]) = path ++ [last] := by
  unfold trimSeparators
  rw [reverse_append, reverse_singleton, singleton_append,
    dropWhile_cons_of_neg (by simp [plain])]
  simp

end Names

section PortableNames

theorem trimSeparators_subset (path : List Char) : ∀ c ∈ trimSeparators path, c ∈ path := by
  intro c mem
  have inner := (dropWhile_sublist _).subset (mem_reverse.mp mem)
  exact mem_reverse.mp inner

theorem portableFileName_subset {path name : List Char}
    (found : portableFileName path = some name) : ∀ c ∈ name, c ∈ path := by
  intro c mem
  simp only [portableFileName, ite_none_left_eq_some, Option.some.injEq] at found
  obtain ⟨-, -, rfl⟩ := found
  have inner : c ∈ (if hasDrivePrefix (trimSeparators path) then (trimSeparators path).drop 2
      else trimSeparators path) := by
    revert mem
    generalize (if hasDrivePrefix (trimSeparators path) then (trimSeparators path).drop 2
      else trimSeparators path) = text
    cases split : splitLastSeparator text with
    | none => exact id
    | some parts =>
      obtain ⟨before, after⟩ := parts
      obtain ⟨separator, rfl⟩ := splitLastSeparator_some split
      exact fun mem => mem_append_right before (mem_cons_of_mem separator mem)
  split at inner
  · exact trimSeparators_subset path c (drop_subset 2 _ inner)
  · exact trimSeparators_subset path c inner

theorem portableFileName_single {name : List Char} (trimmed : trimSeparators name = name)
    (filled : name ≠ []) (plain : ∀ c ∈ name, isAnySeparator c = false) :
    portableFileName name =
      let base := if hasDrivePrefix name then name.drop 2 else name
      if base.isEmpty || isDotName base || base.any isRustControl then none else some base := by
  have base : splitLastSeparator (if hasDrivePrefix name then name.drop 2 else name) = none := by
    apply splitLastSeparator_none
    intro c mem
    split at mem
    · exact plain c (drop_subset 2 name mem)
    · exact plain c mem
  unfold portableFileName
  simp only [trimmed, base, elim_none, List.isEmpty_iff, filled, if_false]

end PortableNames

section Parts

variable (target : List Char)

def partName : List Char := lastName target ++ ".portmate-part".toList

theorem partName_filled : partName target ≠ [] := by
  intro empty
  exact absurd (congrArg List.length empty) (by simp [partName])

theorem partName_plain : '/' ∉ partName target := by
  intro mem
  obtain inside | suffix := mem_append.mp mem
  · exact (lastName_split target).1 inside
  · exact absurd suffix (by decide)

theorem part_split : remoteResumePartPath target = partName target ∨
    ∃ dir, remoteResumePartPath target = dir ++ '/' :: partName target := by
  rw [resumePart_eq, partName]
  obtain alone | ⟨dir, inside⟩ := (lastName_split target).2
  · exact .inl (congrArg (· ++ ".portmate-part".toList) alone)
  · refine .inr ⟨dir, ?_⟩
    rw [← cons_append, ← append_assoc, ← inside]

theorem part_trimmed : trimSeparators (remoteResumePartPath target) =
    remoteResumePartPath target := by
  have last : ".portmate-part".toList = ".portmate-par".toList ++ ['t'] := rfl
  rw [resumePart_eq, last, ← append_assoc]
  exact trimSeparators_last (by decide)

theorem partName_trimmed : trimSeparators (partName target) = partName target := by
  have last : ".portmate-part".toList = ".portmate-par".toList ++ ['t'] := rfl
  rw [partName, last, ← append_assoc]
  exact trimSeparators_last (by decide)

theorem part_last : (posixPath (remoteResumePartPath target)).names.getLast? =
    some (partName target) := by
  obtain alone | ⟨dir, inside⟩ := part_split target
  · rw [alone, posixPath_name (partName_filled target) (partName_plain target)]
    rfl
  · rw [inside, posixPath_join dir (partName_filled target) (partName_plain target),
      getLast?_concat]

variable {target}

theorem backslash_not_received (backslash : '\\' ∈ lastName target) : ¬ ReceivesPart target := by
  intro receives
  have mem : '\\' ∈ partName target := mem_append_left _ backslash
  obtain ⟨front, after, split, plain⟩ : ∃ front after,
      partName target = front ++ '\\' :: after ∧ '\\' ∉ after := by
    cases split : rsplitOnce '\\' (partName target) with
    | none => exact absurd mem (rsplitOnce_none split)
    | some parts => exact ⟨parts.1, parts.2, rsplitOnce_some split, rsplitOnce_plain split⟩
  have slashless : '/' ∉ after := by
    intro inside
    apply partName_plain target
    rw [split]
    exact mem_append_right front (mem_cons_of_mem _ inside)
  have single : ∀ c ∈ after, isAnySeparator c = false := by
    intro c inside
    simp only [isAnySeparator, or_eq_false_iff, decide_eq_false_iff_not]
    exact ⟨fun same => slashless (same ▸ inside), fun same => plain (same ▸ inside)⟩
  obtain ⟨before, cut⟩ : ∃ before,
      splitLastSeparator (remoteResumePartPath target) = some (before, after) := by
    obtain alone | ⟨dir, inside⟩ := part_split target
    · exact ⟨front, by rw [alone, split]; exact splitLastSeparator_append front rfl single⟩
    · refine ⟨dir ++ '/' :: front, ?_⟩
      rw [inside, split, ← cons_append, ← append_assoc]
      exact splitLastSeparator_append _ rfl single
  have name : (remoteParentAndFileName (remoteResumePartPath target)).2 =
      (portableFileName after).getD [] := by
    simp only [remoteParentAndFileName, part_trimmed, cut]
  have joined := receives.joined
  have named := receives.named
  rw [name] at joined named
  cases portable : portableFileName after with
  | none => exact named (by rw [portable]; rfl)
  | some text =>
    rw [portable] at joined named
    have inside := portableFileName_subset portable
    have last := congrArg (fun path => path.names.getLast?) joined
    rw [posixPath_join_last named fun there => slashless (inside _ there), part_last] at last
    have same : text = partName target := Option.some.inj last
    exact plain (inside _ (same ▸ mem))

theorem remoteParent_part (plain : '\\' ∉ lastName target) :
    (remoteParentAndFileName (remoteResumePartPath target)).2 =
        (portableFileName (partName target)).getD [] ∧
      ∀ name, name ≠ [] → '/' ∉ name → name = partName target →
        posixPath (joinPosix (remoteParentAndFileName (remoteResumePartPath target)).1 name) =
          posixPath (remoteResumePartPath target) := by
  have single : ∀ c ∈ partName target, isAnySeparator c = false := by
    intro c inside
    simp only [isAnySeparator, or_eq_false_iff, decide_eq_false_iff_not]
    refine ⟨fun same => partName_plain target (same ▸ inside), fun same => ?_⟩
    obtain early | late := mem_append.mp (same ▸ inside)
    · exact plain early
    · exact absurd late (by decide)
  obtain alone | ⟨dir, inside⟩ := part_split target
  · have whole := splitLastSeparator_none single
    rw [← alone] at whole
    have parts : remoteParentAndFileName (remoteResumePartPath target) =
        ([], (portableFileName (remoteResumePartPath target)).getD []) := by
      simp only [remoteParentAndFileName, part_trimmed, whole]
    rw [parts]
    exact ⟨by rw [alone], fun name _ _ same => by rw [same, ← alone]; rfl⟩
  · have cut := @splitLastSeparator_append dir '/' _ rfl single
    rw [← inside] at cut
    have parts : remoteParentAndFileName (remoteResumePartPath target) =
        (if dir.isEmpty then ['/'] else dir, (portableFileName (partName target)).getD []) := by
      simp only [remoteParentAndFileName, part_trimmed, cut]
    rw [parts]
    refine ⟨rfl, fun name filled slashless same => ?_⟩
    rw [inside, ← same, posixPath_join dir filled slashless]
    cases dir with
    | nil => exact posixPath_join ['/'] filled slashless
    | cons c rest => exact posixPath_join (c :: rest) filled slashless

theorem hasDrivePrefix_cons (first second : Char) (rest : List Char) :
    hasDrivePrefix (first :: second :: rest) = (decide (second = ':') && first.isAlpha) := by
  by_cases colon : second = ':'
  · subst colon
    rfl
  · unfold hasDrivePrefix
    split
    next same => exact absurd (List.cons.inj (List.cons.inj same).2).1 colon
    next => simp [colon]

theorem hasDrivePrefix_part :
    hasDrivePrefix (partName target) = hasDrivePrefix (lastName target) := by
  unfold partName
  obtain _ | ⟨first, _ | ⟨second, rest⟩⟩ := lastName target
  · rfl
  · rfl
  · rw [cons_append, cons_append, hasDrivePrefix_cons, hasDrivePrefix_cons]

theorem control_part :
    (partName target).any isRustControl = (lastName target).any isRustControl := by
  have suffix : (".portmate-part".toList).any isRustControl = false := by decide
  rw [partName, any_append, suffix, Bool.or_false]

theorem partName_single (plain : '\\' ∉ lastName target) :
    ∀ c ∈ partName target, isAnySeparator c = false := by
  intro c inside
  simp only [isAnySeparator, or_eq_false_iff, decide_eq_false_iff_not]
  refine ⟨fun same => partName_plain target (same ▸ inside), fun same => ?_⟩
  obtain early | late := mem_append.mp (same ▸ inside)
  · exact plain early
  · exact absurd late (by decide)

theorem not_dot_of_long {name : List Char} (long : 3 ≤ name.length) :
    name.isEmpty = false ∧ isDotName name = false := by
  constructor
  · rw [isEmpty_eq_false_iff]
    rintro rfl
    exact absurd long (by decide)
  · rw [isDotName, or_eq_false_iff, decide_eq_false_iff_not, decide_eq_false_iff_not]
    constructor
    · rintro rfl
      exact absurd long (by decide)
    · rintro rfl
      exact absurd long (by decide)

theorem portable_partName (plain : '\\' ∉ lastName target) :
    portableFileName (partName target) =
      if (if hasDrivePrefix (lastName target) then (partName target).drop 2
        else partName target).any isRustControl then none
      else some (if hasDrivePrefix (lastName target) then (partName target).drop 2
        else partName target) := by
  have long : 14 ≤ (partName target).length := by simp [partName]
  rw [portableFileName_single (partName_trimmed target) (partName_filled target)
    (partName_single plain), hasDrivePrefix_part]
  have base : 3 ≤ (if hasDrivePrefix (lastName target) then (partName target).drop 2
      else partName target).length := by
    split
    · rw [length_drop]
      omega
    · omega
  obtain ⟨filled, named⟩ := not_dot_of_long base
  simp only [filled, named, Bool.false_or]

/-- The receiver writes the part, and no other file, just where its last name has no backslash, no
control character and no drive. -/
theorem receivesPart_iff (target : List Char) : ReceivesPart target ↔ PlainLastName target := by
  constructor
  · intro receives
    have plain : '\\' ∉ lastName target := fun mem => backslash_not_received mem receives
    obtain ⟨name, -⟩ := remoteParent_part plain
    have joined := receives.joined
    have named := receives.named
    rw [name, portable_partName plain] at joined named
    by_cases printable : (if hasDrivePrefix (lastName target) then (partName target).drop 2
        else partName target).any isRustControl = true
    · rw [if_pos printable] at named
      exact absurd rfl named
    · rw [if_neg printable, getD_some] at joined named
      have undriven : hasDrivePrefix (lastName target) = false := by
        by_contra drive
        rw [not_eq_false] at drive
        rw [if_pos drive] at joined named
        have slashless : '/' ∉ (partName target).drop 2 :=
          fun mem => partName_plain target (drop_subset 2 _ mem)
        have last := congrArg (fun path => path.names.getLast?) joined
        simp only [posixPath_join_last named slashless, part_last, Option.some.injEq] at last
        have lengths := congrArg List.length last
        have filled := length_pos_iff.mpr (partName_filled target)
        rw [length_drop] at lengths
        omega
      refine ⟨plain, ?_, undriven⟩
      rw [undriven, if_neg Bool.false_ne_true, control_part] at printable
      intro c mem
      by_contra control
      exact printable (any_eq_true.mpr ⟨c, mem, not_eq_false _ ▸ control⟩)
  · rintro ⟨plain, printable, undriven⟩
    obtain ⟨name, same⟩ := remoteParent_part plain
    have uncontrolled : ¬ (partName target).any isRustControl = true := by
      rw [control_part]
      intro control
      obtain ⟨c, mem, is_control⟩ := any_eq_true.mp control
      rw [printable c mem] at is_control
      exact Bool.false_ne_true is_control
    rw [portable_partName plain, undriven, if_neg Bool.false_ne_true, if_neg uncontrolled,
      getD_some] at name
    have filled := partName_filled target
    have joined := same _ filled (partName_plain target) rfl
    refine ⟨name ▸ filled, name.symm ▸ joined, fun localSource => ?_⟩
    have announced : announcedName localSource (remoteResumePartPath target) = partName target := by
      simp only [announcedName, name, List.isEmpty_iff, filled, if_false]
    rw [receivedFile, announced]
    exact joined

end Parts

/-- An accepted destination for which the receiver writes a file beside the part. -/
theorem backslash_part_not_received :
    (modemDirection (fun _ _ => .ok true)
        ⟨"router", .ymodem, "/home/fw.bin", "remote:/tmp/a\\b"⟩).2 =
      .ok (.upload "/home/fw.bin" "/tmp/a\\b") ∧
    receivedFile "/home/fw.bin".toList "/tmp/a\\b".toList = "/tmp/a/b.portmate-part".toList ∧
    ¬ ReceivesPart "/tmp/a\\b".toList :=
  ⟨by decide +kernel, by decide, backslash_not_received (by decide)⟩

end PortMate
