import Mathlib.Tactic.Ring
import PortMate.TftpReceivers

namespace PortMate

open List Nat Option

section Groups

theorem hexDigits_checked : ((List.range 16).all fun digit =>
    hexDigit? digit.digitChar == some digit && digit.digitChar != ':' && digit.digitChar != '.' &&
      !isRustWhitespace digit.digitChar && !isRustControl digit.digitChar &&
      digit.digitChar != '[' && digit.digitChar != ']' && digit.digitChar != ',' &&
      digit.digitChar.utf8Size == 1) = true := by
  decide

theorem hexDigit?_digitChar {digit : Nat} (small : digit < 16) :
    hexDigit? digit.digitChar = some digit := by
  have checked := all_eq_true.mp hexDigits_checked digit (mem_range.mpr small)
  simp only [Bool.and_eq_true, beq_iff_eq] at checked
  exact checked.1.1.1.1.1.1.1.1

theorem mapM_concat {α β : Type} {f : α → Option β} {xs : List α} {x : α} {ys : List β} {y : β}
    (front : xs.mapM f = some ys) (last : f x = some y) : (xs ++ [x]).mapM f = some (ys ++ [y]) := by
  rw [mapM_append, front, mapM_cons, last]
  rfl

theorem mapM_toDigits (n : Nat) : ∃ digits, (toDigits 16 n).mapM hexDigit? = some digits ∧
    digits.foldl (fun value digit => value * 16 + digit) 0 = n := by
  induction n using Nat.strongRecOn with
  | ind n ih =>
    rw [toDigits_eq_if (by decide)]
    split
    next small =>
      refine ⟨[n], ?_, by simp⟩
      rw [mapM_cons, hexDigit?_digitChar small]
      rfl
    next large =>
      obtain ⟨digits, read, value⟩ := ih (n / 16) (by omega)
      have last := hexDigit?_digitChar (Nat.mod_lt n (by decide : 0 < 16))
      refine ⟨digits ++ [n % 16], mapM_concat read last, ?_⟩
      rw [foldl_append, value, foldl_cons, foldl_nil]
      omega

theorem length_toDigits (n width : Nat) (positive : 0 < width) (small : n < 16 ^ width) :
    (toDigits 16 n).length ≤ width := by
  induction width generalizing n with
  | zero => omega
  | succ width ih =>
    rw [toDigits_eq_if (by decide)]
    split
    next => simp
    next large =>
      have wide : 0 < width := by
        cases width with
        | zero => omega
        | succ width => omega
      have less : n / 16 < 16 ^ width := by
        rw [Nat.pow_succ] at small
        omega
      have shorter := ih (n / 16) wide less
      rw [length_append, length_singleton]
      omega

theorem length_of_mapM {α β : Type} {f : α → Option β} {xs : List α} {ys : List β}
    (mapped : xs.mapM f = some ys) : ys.length = xs.length := by
  induction xs generalizing ys with
  | nil =>
    obtain rfl := Option.some.inj mapped
    rfl
  | cons x xs ih =>
    rw [mapM_cons] at mapped
    obtain ⟨first, found, mapped⟩ := bind_eq_some_iff.mp mapped
    obtain ⟨rest, later, mapped⟩ := bind_eq_some_iff.mp mapped
    obtain rfl := Option.some.inj mapped
    rw [length_cons, length_cons, ih later]

theorem readGroup_toDigits {group : Nat} (small : group < 65536) :
    readGroup (toDigits 16 group) = some group := by
  obtain ⟨digits, read, value⟩ := mapM_toDigits group
  have length := length_of_mapM read
  have short := length_toDigits group 4 (by decide) small
  have filled : digits ≠ [] := by
    rintro rfl
    exact toDigits_ne_nil (eq_nil_of_length_eq_zero length.symm)
  rw [readGroup, read]
  show (if _ then none else some _) = _
  rw [if_neg, value]
  simp only [Bool.or_eq_true, List.isEmpty_iff, decide_eq_true_eq, not_or]
  exact ⟨filled, by omega⟩

variable {c : Char}

theorem mem_toDigits {n : Nat} (mem : c ∈ toDigits 16 n) :
    ∃ digit < 16, c = digit.digitChar := by
  induction n using Nat.strongRecOn with
  | ind n ih =>
    rw [toDigits_eq_if (by decide)] at mem
    split at mem
    next small => exact ⟨n, small, mem_singleton.mp mem⟩
    next large =>
      rcases mem_append.mp mem with front | last
      · exact ih (n / 16) (by omega) front
      · exact ⟨n % 16, Nat.mod_lt n (by decide), mem_singleton.mp last⟩

/-- Characters that may stand in the text of an address. -/
structure AddressChar (c : Char) : Prop where
  whitespace : isRustWhitespace c = false
  control : isRustControl c = false
  opening : c ≠ '['
  closing : c ≠ ']'
  comma : c ≠ ','
  size : c.utf8Size = 1

theorem hexDigit_char {digit : Nat} (small : digit < 16) (same : c = digit.digitChar) :
    AddressChar c ∧ c ≠ ':' ∧ c ≠ '.' := by
  have checked := all_eq_true.mp hexDigits_checked digit (mem_range.mpr small)
  simp only [Bool.and_eq_true, bne_iff_ne, beq_iff_eq, ne_eq, Bool.not_eq_true'] at checked
  obtain ⟨⟨⟨⟨⟨⟨⟨⟨-, colon⟩, dot⟩, whitespace⟩, control⟩, opening⟩, closing⟩, comma⟩, size⟩ := checked
  subst same
  exact ⟨⟨whitespace, control, opening, closing, comma, size⟩, colon, dot⟩

theorem toDigits_char {n : Nat} (mem : c ∈ toDigits 16 n) :
    AddressChar c ∧ c ≠ ':' ∧ c ≠ '.' := by
  obtain ⟨digit, small, same⟩ := mem_toDigits mem
  exact hexDigit_char small same

theorem addressChar_separator (separator : c = ':' ∨ c = '.') : AddressChar c := by
  rcases separator with rfl | rfl
  · exact ⟨by decide, by decide, by decide, by decide, by decide, by decide⟩
  · exact ⟨by decide, by decide, by decide, by decide, by decide, by decide⟩

variable {groups : List Nat}

theorem groupsText_char (mem : c ∈ groupsText groups) : AddressChar c ∧ c ≠ '.' := by
  rcases mem_intercalate mem with rfl | ⟨part, inside, here⟩
  · exact ⟨addressChar_separator (.inl rfl), by decide⟩
  · obtain ⟨group, -, rfl⟩ := mem_map.mp inside
    have plain := toDigits_char here
    exact ⟨plain.1, plain.2.2⟩

theorem groupsIn_groupsText (groups : List Nat) :
    groupsIn (groupsText groups) = groups.map (toDigits 16) := by
  cases groups with
  | nil => rfl
  | cons group groups =>
    have apart : ∀ text ∈ (group :: groups).map (toDigits 16), ':' ∉ text := by
      intro text mem colon
      obtain ⟨other, -, rfl⟩ := mem_map.mp mem
      exact (toDigits_char colon).2.1 rfl
    have filled : groupsText (group :: groups) ≠ [] := by
      intro empty
      have whole := splitOn_intercalate ':' apart (by simp)
      unfold groupsText at empty
      rw [empty] at whole
      exact toDigits_ne_nil (List.cons.inj whole).1.symm
    rw [groupsIn, if_neg (by simpa using filled), groupsText,
      splitOn_intercalate ':' apart (by simp)]

theorem splitOn_groupsText (filled : groups ≠ []) :
    (groupsText groups).splitOn ':' = groups.map (toDigits 16) := by
  have apart : ∀ text ∈ groups.map (toDigits 16), ':' ∉ text := by
    intro text mem colon
    obtain ⟨other, -, rfl⟩ := mem_map.mp mem
    exact (toDigits_char colon).2.1 rfl
  rw [groupsText, splitOn_intercalate ':' apart (by simpa using filled)]

theorem readGroups_toDigits (small : ∀ group ∈ groups, group < 65536) :
    readGroups (groups.map (toDigits 16)) = some groups := by
  induction groups with
  | nil => rfl
  | cons group groups ih =>
    obtain ⟨first, others⟩ := forall_mem_cons.mp small
    cases groups with
    | nil =>
      rw [map_cons, map_nil, readGroups, readGroup_toDigits first]
    | cons next groups =>
      have rest := ih others
      rw [map_cons] at rest
      rw [map_cons, map_cons, readGroups, readGroup_toDigits first, rest]
      rfl
      exact cons_ne_nil _ _

theorem splitDoubleColon_plain {part : List Char} (plain : ':' ∉ part) (rest : List Char) :
    splitDoubleColon (part ++ rest) =
      (splitDoubleColon rest).map fun (front, back) => (part ++ front, back) := by
  induction part with
  | nil => simp
  | cons c part ih =>
    have other : c ≠ ':' := fun same => plain (same ▸ mem_cons_self)
    rw [cons_append, splitDoubleColon, ih fun mem => plain (mem_cons_of_mem _ mem),
      Option.map_map]
    · rfl
    · intro rest' same
      exact absurd same other

theorem splitDoubleColon_single (other : c ≠ ':') (rest : List Char) :
    splitDoubleColon (':' :: c :: rest) =
      (splitDoubleColon (c :: rest)).map fun (front, back) => (':' :: front, back) := by
  rw [splitDoubleColon]
  intro rest' _ same
  exact absurd (List.cons.inj same).1 other

theorem groupsText_cons (group next : Nat) (groups : List Nat) :
    groupsText (group :: next :: groups) =
      toDigits 16 group ++ ':' :: groupsText (next :: groups) := by
  rw [groupsText, map_cons, map_cons, intercalate_cons_cons, append_assoc]
  rfl

theorem groupsText_head (group : Nat) (groups : List Nat) :
    ∃ c rest, groupsText (group :: groups) = c :: rest ∧ c ≠ ':' := by
  obtain ⟨c, digits, same⟩ := exists_cons_of_ne_nil (toDigits_ne_nil : toDigits 16 group ≠ [])
  have other : c ≠ ':' := (toDigits_char (same ▸ mem_cons_self)).2.1
  cases groups with
  | nil =>
    refine ⟨c, digits, ?_, other⟩
    rw [groupsText, map_cons, map_nil, same]
    simp [List.intercalate]
  | cons next groups =>
    exact ⟨c, digits ++ ':' :: groupsText (next :: groups), by
      rw [groupsText_cons, same, cons_append], other⟩

theorem splitDoubleColon_groups (groups : List Nat) (rest : List Char) :
    splitDoubleColon (groupsText groups ++ rest) =
      (splitDoubleColon rest).map fun (front, back) => (groupsText groups ++ front, back) := by
  induction groups with
  | nil => simp [groupsText, List.intercalate]
  | cons group groups ih =>
    have plain : ':' ∉ toDigits 16 group := fun mem => (toDigits_char mem).2.1 rfl
    cases groups with
    | nil =>
      have alone : groupsText [group] = toDigits 16 group := by
        simp [groupsText, List.intercalate]
      rw [alone, splitDoubleColon_plain plain]
    | cons next groups =>
      obtain ⟨c, text, whole, other⟩ := groupsText_head next groups
      rw [groupsText_cons, append_assoc, splitDoubleColon_plain plain, cons_append, whole,
        cons_append, splitDoubleColon_single other, ← cons_append, ← whole, ih,
        Option.map_map, Option.map_map]
      congr 1
      funext pair
      simp

theorem groupsValue_ipv6Groups {bits : Nat} (small : bits < 2 ^ 128) :
    groupsValue (ipv6Groups bits) = bits := by
  simp only [groupsValue, ipv6Groups, range_succ, range_zero, nil_append,
    map_append, map_cons, map_nil, foldl_append, foldl_cons, foldl_nil]
  omega

theorem ipv6Groups_small {bits group : Nat} (mem : group ∈ ipv6Groups bits) : group < 65536 := by
  obtain ⟨index, -, rfl⟩ := mem_map.mp mem
  exact Nat.mod_lt _ (by decide)

theorem foldl_max_mem (values : List Nat) (first : Nat) :
    values.foldl max first = first ∨ values.foldl max first ∈ values := by
  induction values generalizing first with
  | nil => exact .inl rfl
  | cons value values ih =>
    rw [foldl_cons]
    rcases ih (max first value) with same | mem
    · rw [same]
      rcases Nat.le_total first value with le | le
      · rw [Nat.max_eq_right le]
        exact .inr mem_cons_self
      · rw [Nat.max_eq_left le]
        exact .inl rfl
    · exact .inr (mem_cons_of_mem _ mem)

theorem zeroRun_split {length start : Nat} (longest : length = (zeroRuns groups).foldl max 0)
    (filled : 0 < length) (first : start = (zeroRuns groups).findIdx (· = length)) :
    groups = groups.take start ++ (List.replicate length 0 ++ groups.drop (start + length)) := by
  have mem : length ∈ zeroRuns groups := by
    rcases foldl_max_mem (zeroRuns groups) 0 with zero | mem
    · omega
    · exact longest ▸ mem
  have found : start < (zeroRuns groups).length := by
    rw [first]
    exact findIdx_lt_length_of_exists ⟨length, mem, by simp⟩
  have run : (zeroRuns groups)[start] = length := by
    have holds := @findIdx_getElem _ (fun run => decide (run = length)) (zeroRuns groups)
      (first ▸ found)
    simpa [← first] using holds
  have zeros : ((groups.drop start).takeWhile (· = 0)).length = length := by
    simpa [zeroRuns] using run
  have whole : (groups.drop start).takeWhile (· = 0) = List.replicate length 0 :=
    eq_replicate_iff.mpr ⟨zeros, fun group mem => by simpa using mem_takeWhile_imp mem⟩
  have back : (groups.drop start).dropWhile (· = 0) = groups.drop (start + length) := by
    have parts := @takeWhile_append_dropWhile _ (fun group => decide (group = 0)) (groups.drop start)
    rw [whole] at parts
    have behind := congrArg (List.drop length) parts
    rwa [drop_left' (by simp), drop_drop] at behind
  rw [← back, ← whole, takeWhile_append_dropWhile, take_append_drop]

/-- The text of an address in the form that leaves out the longest run of zeros. -/
def compressedText (bits : Nat) : List Char :=
  let groups := ipv6Groups bits
  let runs := zeroRuns groups
  let length := runs.foldl max 0
  let start := runs.findIdx (· = length)
  if 1 < length then
    groupsText (groups.take start) ++ "::".toList ++ groupsText (groups.drop (start + length))
  else groupsText groups

theorem parseIpv6_compressedText {bits : Nat} (small : bits < 2 ^ 128) :
    parseIpv6 (compressedText bits) = some bits := by
  have groupsSmall : ∀ group ∈ ipv6Groups bits, group < 65536 := fun _ mem => ipv6Groups_small mem
  have eight : (ipv6Groups bits).length = 8 := by simp [ipv6Groups]
  have value := groupsValue_ipv6Groups small
  unfold compressedText
  dsimp only
  generalize lengthIs : (zeroRuns (ipv6Groups bits)).foldl max 0 = length
  generalize startIs : (zeroRuns (ipv6Groups bits)).findIdx (· = length) = start
  split
  next long =>
    have parts := zeroRun_split lengthIs.symm (by omega) startIs.symm
    generalize frontIs : (ipv6Groups bits).take start = front at parts ⊢
    generalize backIs : (ipv6Groups bits).drop (start + length) = back at parts ⊢
    have counted : front.length + (length + back.length) = 8 := by
      rw [← eight, parts]
      simp
    have frontRead : (front.map (toDigits 16)).mapM readGroup = some front :=
      mapM_of_read fun group mem =>
        readGroup_toDigits (groupsSmall group (by rw [parts]; simp [mem]))
    have backRead : readGroups (back.map (toDigits 16)) = some back :=
      readGroups_toDigits fun group mem => groupsSmall group (by rw [parts]; simp [mem])
    have split : splitDoubleColon (groupsText front ++ "::".toList ++ groupsText back) =
        some (groupsText front, groupsText back) := by
      rw [append_assoc, splitDoubleColon_groups]
      simp [splitDoubleColon]
    rw [parseIpv6, split]
    dsimp only
    rw [groupsIn_groupsText, groupsIn_groupsText, frontRead, backRead]
    show (if _ then some _ else none) = _
    have middle : 8 - front.length - back.length = length := by omega
    rw [if_pos (by omega), middle, ← parts, value]
  next =>
    have none : splitDoubleColon (groupsText (ipv6Groups bits)) = none := by
      have whole := splitDoubleColon_groups (ipv6Groups bits) []
      rwa [append_nil] at whole
    have filled : ipv6Groups bits ≠ [] := by
      intro empty
      rw [empty] at eight
      cases eight
    rw [parseIpv6, none]
    dsimp only
    rw [splitOn_groupsText filled, readGroups_toDigits groupsSmall]
    show (if (ipv6Groups bits).length = 8 then some (groupsValue (ipv6Groups bits)) else Option.none) = _
    rw [if_pos eight, value]

end Groups

section Texts

/-- An address of `::ffff:0:0/96`. -/
def isIpv4Mapped (bits : Nat) : Prop := bits / 2 ^ 32 = 0xffff

instance (bits : Nat) : Decidable (isIpv4Mapped bits) := inferInstanceAs (Decidable (_ = _))

variable {bits : Nat}

theorem ipv6Text_mapped (mapped : isIpv4Mapped bits) :
    ipv6Text bits = "::ffff:".toList ++ ipv4Text (bits % 2 ^ 32) :=
  if_pos mapped

theorem ipv6Text_unmapped (unmapped : ¬isIpv4Mapped bits) : ipv6Text bits = compressedText bits :=
  if_neg unmapped

theorem mapM_none {α β : Type} {f : α → Option β} {xs : List α} {x : α} (mem : x ∈ xs)
    (none : f x = none) : xs.mapM f = Option.none := by
  cases mapped : xs.mapM f with
  | none => rfl
  | some ys =>
    have found : ∀ {xs : List α} {ys : List β}, xs.mapM f = some ys → ∀ x ∈ xs, ∃ y, f x = some y := by
      intro xs
      induction xs with
      | nil => intro _ _ _ mem; cases mem
      | cons first xs ih =>
        intro ys mapped x mem
        rw [mapM_cons] at mapped
        obtain ⟨y, here, mapped⟩ := bind_eq_some_iff.mp mapped
        obtain ⟨rest, later, -⟩ := bind_eq_some_iff.mp mapped
        rcases mem_cons.mp mem with rfl | mem
        · exact ⟨y, here⟩
        · exact ih later x mem
    obtain ⟨y, same⟩ := found mapped x mem
    rw [none] at same
    cases same

theorem dot_mem_ipv4Text (bits : Nat) : '.' ∈ ipv4Text bits := by
  rw [ipv4Text, map_cons, map_cons, intercalate_cons_cons]
  simp

variable {text : List Char}

theorem readGroup_dot (dot : '.' ∈ text) : readGroup text = none := by
  rw [readGroup, mapM_none dot (by decide)]
  rfl

theorem parseIpv4_colon (colon : ':' ∈ text) : parseIpv4 text = none := by
  have whole := @intercalate_splitOn _ text _ _ '.'
  rw [← whole] at colon
  obtain same | ⟨part, inside, here⟩ := mem_intercalate colon
  · exact absurd same (by decide)
  · have none : readOctet part = none := by
      rw [readOctet, mapM_none here (by decide)]
      rfl
    rw [parseIpv4, mapM_none inside none]

theorem colon_mem_ipv6Text (bits : Nat) : ':' ∈ ipv6Text bits := by
  by_cases mapped : isIpv4Mapped bits
  · rw [ipv6Text_mapped mapped]
    exact mem_append_left _ (by decide)
  · rw [ipv6Text_unmapped mapped, compressedText]
    split
    · exact mem_append_left _ (mem_append_right _ (by decide))
    · show ':' ∈ groupsText (_ :: _ :: _)
      rw [groupsText_cons]
      simp

variable {c : Char}

theorem compressedText_char (mem : c ∈ compressedText bits) : AddressChar c ∧ c ≠ '.' := by
  rw [compressedText] at mem
  split at mem
  · rcases mem_append.mp mem with front | back
    · rcases mem_append.mp front with front | colons
      · exact groupsText_char front
      · have same : c = ':' := by simpa using colons
        exact ⟨addressChar_separator (.inl same), same ▸ by decide⟩
    · exact groupsText_char back
  · exact groupsText_char mem

theorem isDigit_addressChar (digit : c.isDigit = true) : AddressChar c := by
  obtain ⟨low, high⟩ : 48 ≤ c.toNat ∧ c.toNat ≤ 57 := by
    rw [Char.isDigit, Bool.and_eq_true, decide_eq_true_eq, decide_eq_true_eq] at digit
    exact digit
  have same : c = (c.toNat - 48).digitChar := by
    have checked : ((List.range 10).all fun digit =>
        digit.digitChar == Char.ofNat (digit + 48)) = true := by decide
    have holds := all_eq_true.mp checked (c.toNat - 48) (mem_range.mpr (by omega))
    rw [beq_iff_eq] at holds
    rw [holds, Nat.sub_add_cancel low, Char.ofNat_toNat]
  exact (hexDigit_char (by omega) same).1

theorem ipv4Text_addressChar (mem : c ∈ ipv4Text bits) : AddressChar c := by
  rcases ipv4Text_chars mem with dot | digit
  · exact addressChar_separator (.inr dot)
  · exact isDigit_addressChar digit

theorem ipv6Text_addressChar (mem : c ∈ ipv6Text bits) : AddressChar c := by
  by_cases mapped : isIpv4Mapped bits
  · rw [ipv6Text_mapped mapped] at mem
    rcases mem_append.mp mem with front | back
    · have checked : ("::ffff:".toList.all fun c => c == ':' || c == (15).digitChar) = true := by decide
      have holds := all_eq_true.mp checked c front
      rw [Bool.or_eq_true, beq_iff_eq, beq_iff_eq] at holds
      rcases holds with colon | digit
      · exact addressChar_separator (.inl colon)
      · exact (hexDigit_char (by decide) digit).1
    · exact ipv4Text_addressChar back
  · rw [ipv6Text_unmapped mapped] at mem
    exact (compressedText_char mem).1

theorem ipv6Text_eq_compressed_iff (bits : Nat) :
    ipv6Text bits = compressedText bits ↔ ¬isIpv4Mapped bits := by
  constructor
  · intro same mapped
    have dot : '.' ∈ ipv6Text bits := by
      rw [ipv6Text_mapped mapped]
      exact mem_append_right _ (dot_mem_ipv4Text _)
    rw [same] at dot
    exact (compressedText_char dot).2 rfl
  · exact ipv6Text_unmapped

theorem parseIpv6_ipv6Text (small : bits < 2 ^ 128) : parseIpv6 (ipv6Text bits) = some bits := by
  by_cases mapped : isIpv4Mapped bits
  · rw [ipv6Text_mapped mapped]
    have colon : ':' ∉ ipv4Text (bits % 2 ^ 32) := by
      intro mem
      rcases ipv4Text_chars mem with dot | digit
      · exact absurd dot (by decide)
      · exact absurd digit (by decide)
    have groups : groupsIn ("ffff:".toList ++ ipv4Text (bits % 2 ^ 32)) =
        ["ffff".toList, ipv4Text (bits % 2 ^ 32)] := by
      have apart : ∀ text ∈ ["ffff".toList, ipv4Text (bits % 2 ^ 32)], ':' ∉ text := by
        intro text mem
        rcases mem_cons.mp mem with rfl | mem
        · decide
        · exact mem_singleton.mp mem ▸ colon
      have split := splitOn_intercalate ':' apart (by simp)
      have joined : [':'].intercalate ["ffff".toList, ipv4Text (bits % 2 ^ 32)] =
          "ffff:".toList ++ ipv4Text (bits % 2 ^ 32) := by
        rw [intercalate_cons_cons, append_assoc]
        simp [List.intercalate]
      rw [joined] at split
      rw [groupsIn, if_neg (by simp), split]
    have last : readGroups [ipv4Text (bits % 2 ^ 32)] =
        some [bits % 2 ^ 32 / 65536, bits % 2 ^ 32 % 65536] := by
      rw [readGroups, readGroup_dot (dot_mem_ipv4Text _),
        parseIpv4_ipv4Text (Nat.mod_lt _ (by decide))]
      rfl
    have read : readGroups ["ffff".toList, ipv4Text (bits % 2 ^ 32)] =
        some [65535, bits % 2 ^ 32 / 65536, bits % 2 ^ 32 % 65536] := by
      rw [readGroups, last]
      · rfl
      · exact nofun
    have split : splitDoubleColon ("::ffff:".toList ++ ipv4Text (bits % 2 ^ 32)) =
        some ([], "ffff:".toList ++ ipv4Text (bits % 2 ^ 32)) := rfl
    rw [parseIpv6, split]
    dsimp only
    rw [groups, read]
    show some (groupsValue [0, 0, 0, 0, 0, 65535, bits % 2 ^ 32 / 65536, bits % 2 ^ 32 % 65536]) = _
    simp only [groupsValue, foldl_cons, foldl_nil]
    unfold isIpv4Mapped at mapped
    congr 1
    omega
  · rw [ipv6Text_unmapped mapped]
    exact parseIpv6_compressedText small

def IpAddr.Valid : IpAddr → Prop
  | v4 bits => bits < 2 ^ 32
  | v6 bits => bits < 2 ^ 128

theorem parseIpAddr_text {address : IpAddr} (valid : address.Valid) :
    parseIpAddr address.text = some address := by
  cases address with
  | v4 bits =>
    rw [parseIpAddr, IpAddr.text, parseIpv4_ipv4Text valid]
  | v6 bits =>
    rw [parseIpAddr, IpAddr.text, parseIpv4_colon (colon_mem_ipv6Text bits), parseIpv6_ipv6Text valid]
    rfl

theorem foldl_digits_lt {base : Nat} {digits : List Nat} (small : ∀ digit ∈ digits, digit < base) :
    digits.foldl (fun value digit => value * base + digit) 0 < base ^ digits.length := by
  induction digits using List.reverseRecOn with
  | nil => simp
  | append_singleton digits digit ih =>
    rw [foldl_append, foldl_cons, foldl_nil, length_append,
      length_singleton, Nat.pow_succ]
    have front := ih fun digit mem => small digit (mem_append_left _ mem)
    have last := small digit (by simp)
    calc _ < digits.foldl (fun value digit => value * base + digit) 0 * base + base := by omega
      _ = (digits.foldl (fun value digit => value * base + digit) 0 + 1) * base := by ring
      _ ≤ base ^ digits.length * base := Nat.mul_le_mul_right _ front

theorem hexDigit?_lt {digit : Nat} (read : hexDigit? c = some digit) : digit < 16 := by
  unfold hexDigit? at read
  simp only [Bool.and_eq_true, decide_eq_true_eq, Char.le_def, UInt32.le_iff_toNat_le] at read
  have digits : ('0' : Char).val.toNat = 48 ∧ ('9' : Char).val.toNat = 57 ∧ ('a' : Char).val.toNat = 97 ∧
      ('f' : Char).val.toNat = 102 ∧ ('A' : Char).val.toNat = 65 ∧ ('F' : Char).val.toNat = 70 := by decide
  simp only [Char.toNat] at read
  split at read
  · have := Option.some.inj read; omega
  · split at read
    · have := Option.some.inj read; omega
    · split at read
      · have := Option.some.inj read; omega
      · cases read

theorem readGroup_lt {group : Nat} (read : readGroup text = some group) : group < 65536 := by
  unfold readGroup at read
  obtain ⟨digits, mapped, read⟩ := bind_eq_some_iff.mp read
  split at read
  next => cases read
  next bounded =>
    rw [Bool.or_eq_true, decide_eq_true_eq, not_or] at bounded
    have small := @foldl_digits_lt 16 digits fun digit mem =>
      let ⟨_, _, read⟩ := mem_of_mapM_some mapped mem
      hexDigit?_lt read
    have wide : 16 ^ digits.length ≤ 16 ^ 4 := Nat.pow_le_pow_right (by decide) (by omega)
    have := Option.some.inj read
    omega

theorem readGroups_lt {texts : List (List Char)} {groups : List Nat}
    (read : readGroups texts = some groups) : ∀ group ∈ groups, group < 65536 := by
  fun_induction readGroups texts generalizing groups with
  | case1 =>
    obtain rfl := Option.some.inj read
    exact nofun
  | case2 text group found =>
    obtain rfl := Option.some.inj read
    intro other mem
    exact mem_singleton.mp mem ▸ readGroup_lt found
  | case3 text none =>
    obtain ⟨bits, found, rfl⟩ := map_eq_some_iff.mp read
    have small := parseIpv4_lt found
    intro other mem
    rcases mem_cons.mp mem with rfl | mem
    · omega
    · have := mem_singleton.mp mem
      omega
  | case4 text rest more ih =>
    obtain ⟨first, found, read⟩ := bind_eq_some_iff.mp read
    obtain ⟨others, later, read⟩ := bind_eq_some_iff.mp read
    obtain rfl := Option.some.inj read
    intro other mem
    rcases mem_cons.mp mem with rfl | mem
    · exact readGroup_lt found
    · exact ih later other mem

theorem parseIpv6_lt (read : parseIpv6 text = some bits) : bits < 2 ^ 128 := by
  have bounded : ∀ {groups : List Nat}, groups.length = 8 → (∀ group ∈ groups, group < 65536) →
      groupsValue groups < 2 ^ 128 := by
    intro groups eight small
    have less := foldl_digits_lt small
    rw [eight] at less
    exact less
  unfold parseIpv6 at read
  split at read
  · obtain ⟨groups, found, read⟩ := bind_eq_some_iff.mp read
    split at read
    next eight => exact Option.some.inj read ▸ bounded eight (readGroups_lt found)
    next => cases read
  · obtain ⟨head, headRead, read⟩ := bind_eq_some_iff.mp read
    obtain ⟨tail, tailRead, read⟩ := bind_eq_some_iff.mp read
    split at read
    next few =>
      refine Option.some.inj read ▸ bounded ?_ ?_
      · simp only [length_append, length_replicate]
        omega
      · intro group mem
        rcases mem_append.mp mem with front | mem
        · obtain ⟨_, _, found⟩ := mem_of_mapM_some headRead front
          exact readGroup_lt found
        · rcases mem_append.mp mem with zero | back
          · have := eq_of_mem_replicate zero
            omega
          · exact readGroups_lt tailRead group back
    next => cases read

theorem parseIpAddr_valid {address : IpAddr} (read : parseIpAddr text = some address) :
    address.Valid := by
  unfold parseIpAddr at read
  split at read
  next bits found =>
    obtain rfl := Option.some.inj read
    exact parseIpv4_lt found
  next =>
    obtain ⟨bits, found, rfl⟩ := map_eq_some_iff.mp read
    exact parseIpv6_lt found

theorem IpAddr.text_addressChar {address : IpAddr} (mem : c ∈ address.text) : AddressChar c := by
  cases address with
  | v4 bits => exact ipv4Text_addressChar mem
  | v6 bits => exact ipv6Text_addressChar mem

end Texts

end PortMate
