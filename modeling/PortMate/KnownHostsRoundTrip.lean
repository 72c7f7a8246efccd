import Mathlib.Algebra.Order.BigOperators.Group.List
import Mathlib.Algebra.Order.Ring.Nat
import PortMate.HostKeyDecisions

namespace PortMate

open List

def formatKnownHost (hostAlias : List Char) (port : Nat) : List Char :=
  if port = 22 then hostAlias else '[' :: (hostAlias ++ ']' :: ':' :: Nat.toDigits 10 port)

namespace TrustedHostKey

def knownHostsHost (key : TrustedHostKey) : List Char :=
  formatKnownHost key.hostAlias.toList key.port

def knownHostsLine (key : TrustedHostKey) : List Char :=
  key.knownHostsHost ++ ' ' :: (key.algorithm.toList ++ ' ' :: key.publicKeyBase64.toList)

/-- What a line of a known_hosts file says about a host. -/
def knownHostsEntry (key : TrustedHostKey) : String × Nat × String × String :=
  (key.hostAlias, key.port, key.algorithm, key.publicKeyBase64)

end TrustedHostKey

open TrustedHostKey

def HostKeyStore.exportKnownHosts (store : HostKeyStore) : List Char :=
  ['\n'].intercalate (store.keys.map knownHostsLine)

open HostKeyStore

theorem mem_of_mem_splitOnP {p : Char → Bool} {text part : List Char} {c : Char}
    (listed : part ∈ text.splitOnP p) (mem : c ∈ part) : c ∈ text ∧ p c = false := by
  induction text generalizing part with
  | nil =>
    rw [splitOnP_nil, mem_singleton] at listed
    exact absurd (listed ▸ mem) not_mem_nil
  | cons first text ih =>
    rw [splitOnP_cons_eq_if_modifyHead] at listed
    split at listed
    · obtain rfl | listed := mem_cons.mp listed
      · exact absurd mem not_mem_nil
      · obtain ⟨inside, plain⟩ := ih listed mem
        exact ⟨mem_cons_of_mem _ inside, plain⟩
    · next plain =>
      obtain ⟨front, parts, split⟩ := exists_cons_of_ne_nil (splitOnP_ne_nil p text)
      rw [split, modifyHead_cons] at listed
      obtain rfl | listed := mem_cons.mp listed
      · obtain rfl | mem := mem_cons.mp mem
        · exact ⟨mem_cons_self, by simpa using plain⟩
        · obtain ⟨inside, clean⟩ := ih (split ▸ mem_cons_self) mem
          exact ⟨mem_cons_of_mem _ inside, clean⟩
      · obtain ⟨inside, clean⟩ := ih (split ▸ mem_cons_of_mem _ listed) mem
        exact ⟨mem_cons_of_mem _ inside, clean⟩

/-- A text that `split_whitespace` gives as one part. -/
structure IsWord (text : List Char) : Prop where
  filled : text ≠ []
  solid : ∀ c ∈ text, isRustWhitespace c = false

theorem splitWhitespace_isWord {text word : List Char} (listed : word ∈ splitWhitespace text) :
    IsWord word := by
  obtain ⟨part, filled⟩ := mem_filter.mp listed
  exact ⟨by simpa using filled, fun _ mem => (mem_of_mem_splitOnP part mem).2⟩

theorem splitWhitespace_cons {word : List Char} (isWord : IsWord word) (rest : List Char) :
    splitWhitespace (word ++ ' ' :: rest) = word :: splitWhitespace rest := by
  rw [splitWhitespace, splitOnP_append_cons_of_forall_mem isWord.solid ' ' rfl,
    filter_cons, if_pos (by simpa using isWord.filled)]
  rfl

theorem splitWhitespace_word {word : List Char} (isWord : IsWord word) :
    splitWhitespace word = [word] := by
  rw [splitWhitespace, splitOnP_eq_singleton isWord.solid, filter_cons,
    if_pos (by simpa using isWord.filled), filter_nil]

theorem KnownHostsLine.parse_some {line : List Char} {known : KnownHostsLine}
    (read : parse line = some known) :
    IsWord known.algorithm ∧ IsWord known.publicKeyBase64 ∧
      ∀ host ∈ known.hosts, ∀ c ∈ host, isRustWhitespace c = false ∧ c ≠ ',' := by
  unfold parse at read
  split at read
  next hosts algorithm publicKey _ words =>
    split at read
    · cases read
    · obtain rfl := Option.some.inj read
      have word : ∀ text ∈ [hosts, algorithm, publicKey], IsWord text := by
        intro text mem
        have listed : text ∈ splitWhitespace line := by
          rw [words]
          exact mem_append_left _ mem
        exact splitWhitespace_isWord listed
      refine ⟨word _ (by simp), word _ (by simp), fun host listed c mem => ?_⟩
      rw [splitOn_eq_splitOnP] at listed
      obtain ⟨inside, comma⟩ := mem_of_mem_splitOnP listed mem
      exact ⟨(word hosts (by simp)).solid c inside, by simpa using comma⟩
  next => cases read

theorem KnownHostsLine.parse_words {host algorithm publicKey : List Char} (isHost : IsWord host)
    (comma : ',' ∉ host) (isAlgorithm : IsWord algorithm) (isKey : IsWord publicKey) :
    parse (host ++ ' ' :: (algorithm ++ ' ' :: publicKey)) =
      if host.head? = some '#' ∨ host.head? = some '|' then none
      else some ⟨[host], algorithm, publicKey⟩ := by
  rw [parse, splitWhitespace_cons isHost, splitWhitespace_cons isAlgorithm,
    splitWhitespace_word isKey]
  dsimp only
  rw [splitOn_eq_singleton comma]
  simp

theorem splitBracketPort_some {text name port : List Char}
    (split : splitBracketPort text = some (name, port)) :
    splitBracketPort name = none ∧ text = name ++ ']' :: ':' :: port := by
  induction text using splitBracketPort.induct generalizing name with
  | case1 rest =>
    rw [splitBracketPort] at split
    obtain ⟨rfl, rfl⟩ := Prod.mk.inj (Option.some.inj split)
    exact ⟨rfl, rfl⟩
  | case2 c rest further ih =>
    rw [splitBracketPort.eq_2 c rest further] at split
    obtain ⟨⟨front, rest⟩, found, same⟩ := Option.map_eq_some_iff.mp split
    obtain ⟨rfl, rfl⟩ := Prod.mk.inj same
    obtain ⟨none, rfl⟩ := ih found
    refine ⟨?_, rfl⟩
    rw [splitBracketPort.eq_2 c front, none, Option.map_none]
    rintro rest rfl rfl
    exact further _ rfl rfl
  | case3 => cases split

theorem splitBracketPort_append {name : List Char} (none : splitBracketPort name = none)
    (port : List Char) :
    splitBracketPort (name ++ ']' :: ':' :: port) = some (name, port) := by
  induction name using splitBracketPort.induct with
  | case1 rest => cases none
  | case2 c rest further ih =>
    rw [splitBracketPort.eq_2 c rest further, Option.map_eq_none_iff] at none
    rw [cons_append, splitBracketPort.eq_2, ih none]
    · rfl
    · intro port' same tail
      cases rest with
      | nil => exact absurd (List.cons.inj tail).1 (by decide)
      | cons c' rest =>
        obtain ⟨colon, -⟩ := List.cons.inj tail
        exact further rest same (by rw [colon])
  | case3 => rfl

theorem splitBracketPort_eq_none_iff {text : List Char} :
    splitBracketPort text = none ↔ ¬ [']', ':'] <:+: text := by
  constructor
  · rintro none ⟨front, back, rfl⟩
    induction front with
    | nil => cases none
    | cons c front ih =>
      change splitBracketPort (c :: (front ++ [']', ':'] ++ back)) = .none at none
      unfold splitBracketPort at none
      split at none
      · cases none
      next same =>
        rw [← (List.cons.inj same).2, Option.map_eq_none_iff] at none
        exact ih none
      next empty => cases empty
  · intro free
    by_contra some
    obtain ⟨⟨name, port⟩, split⟩ := Option.ne_none_iff_exists'.mp some
    obtain ⟨-, rfl⟩ := splitBracketPort_some split
    exact free ⟨name, port, by simp⟩

theorem splitKnownHost_some {host name : List Char} {port : Nat}
    (split : splitKnownHost host = some (name, port)) :
    name ≠ [] ∧ (0 < port ∧ port < 65536) ∧
      (port = 22 ∧ host = name ∧ name.head? ≠ some '[' ∨
        splitBracketPort name = none ∧ ∃ text, host = '[' :: (name ++ ']' :: ':' :: text)) := by
  unfold splitKnownHost at split
  split at split
  next rest =>
    split at split
    next name' text found =>
      split at split
      next port' valid =>
        split at split
        · cases split
        next filled =>
          obtain ⟨rfl, rfl⟩ := Prod.mk.inj (Option.some.inj split)
          obtain ⟨none, rfl⟩ := splitBracketPort_some found
          obtain ⟨read, positive⟩ := Option.filter_eq_some_iff.mp valid
          obtain ⟨-, small⟩ := Option.filter_eq_some_iff.mp read
          rw [decide_eq_true_eq] at positive small
          exact ⟨by simpa using filled, ⟨Nat.pos_of_ne_zero positive, small⟩,
            .inr ⟨none, text, rfl⟩⟩
      next => cases split
    next => cases split
  next => cases split
  next bare filled =>
    obtain ⟨rfl, rfl⟩ := Prod.mk.inj (Option.some.inj split)
    refine ⟨filled, by decide, .inl ⟨rfl, rfl, fun bracket => ?_⟩⟩
    obtain ⟨rest, rfl⟩ := head?_eq_some_iff.mp bracket
    exact bare rest rfl

theorem parseU16_toDigits {port : Nat} (small : port < 65536) :
    parseU16 (Nat.toDigits 10 port) = some port := by
  rw [parseU16, parseUsize_toDigits (by omega), Option.filter_some, if_pos (by simpa using small)]

theorem splitKnownHost_format {name : List Char} {port : Nat} (filled : name ≠ [])
    (positive : 0 < port) (small : port < 65536) (plain : port = 22 → name.head? ≠ some '[')
    (bracketed : port ≠ 22 → splitBracketPort name = none) :
    splitKnownHost (formatKnownHost name port) = some (name, port) := by
  unfold formatKnownHost
  split
  next standard =>
    unfold splitKnownHost
    split
    next rest => exact absurd rfl (plain standard)
    next => exact absurd rfl filled
    next => rw [standard]
  next other =>
    rw [splitKnownHost.eq_1, splitBracketPort_append (bracketed other)]
    dsimp only
    rw [parseU16_toDigits small, Option.filter_some, if_pos (by simpa using Nat.ne_of_gt positive)]
    dsimp only
    rw [if_neg (by simpa using filled)]

section RoundTrip

variable (fingerprintOf : String → Option String)

/-- Keys whose line in the file is three words, the first of them one host. -/
structure KnownHostsWords (key : TrustedHostKey) : Prop where
  hostAlias : IsWord key.hostAlias.toList
  comma : ',' ∉ key.hostAlias.toList
  algorithm : IsWord key.algorithm.toList
  publicKey : IsWord key.publicKeyBase64.toList
  readable : fingerprintOf key.publicKeyBase64 ≠ none
  port : 0 < key.port ∧ key.port < 65536

structure KnownHostsExact (key : TrustedHostKey) : Prop extends
    KnownHostsWords fingerprintOf key where
  plain : key.port = 22 → ∀ c ∈ ['[', '#', '|'], key.hostAlias.toList.head? ≠ some c
  bracketed : key.port ≠ 22 → ¬ [']', ':'] <:+: key.hostAlias.toList

variable {fingerprintOf}

variable {newIds : Nat → String}

theorem mem_imported_entries {profileId : String} {contents : List Char} {now : DateTime}
    {entry : String × Nat × String × String} :
    entry ∈ ((⟨[]⟩ : HostKeyStore).importKnownHosts fingerprintOf profileId contents newIds
        now).keys.map knownHostsEntry ↔
      ∃ line ∈ contents.splitOn '\n', ∃ known, KnownHostsLine.parse line = some known ∧
        fingerprintOf (String.ofList known.publicKeyBase64) ≠ none ∧
        ∃ host ∈ known.hosts, ∃ name port, splitKnownHost host = some (name, port) ∧
          entry = (String.ofList name, port, String.ofList known.algorithm,
            String.ofList known.publicKeyBase64) := by
  have entries : ((⟨[]⟩ : HostKeyStore).importKnownHosts fingerprintOf profileId contents newIds
      now).keys.map knownHostsEntry =
        (importedHosts fingerprintOf contents).map fun added =>
          (String.ofList added.2.2.1, added.2.2.2, String.ofList added.1.algorithm,
            String.ofList added.1.publicKeyBase64) := by
    refine ext_getElem (by simp [importKnownHosts]) fun index _ _ => ?_
    simp [importKnownHosts, importedKey, knownHostsEntry]
  rw [entries, mem_map]
  constructor
  · rintro ⟨⟨known, fingerprint, name, port⟩, listed, rfl⟩
    obtain ⟨known', read, listed⟩ := mem_flatMap.mp listed
    obtain ⟨line, inside, parsed⟩ := mem_filterMap.mp read
    split at listed
    · exact absurd listed not_mem_nil
    next readable =>
      obtain ⟨⟨name', port'⟩, split, same⟩ := mem_map.mp listed
      obtain ⟨host, named, found⟩ := mem_filterMap.mp split
      cases same
      exact ⟨line, inside, known, parsed, by rw [readable]; exact nofun, host, named, _, _, found,
        rfl⟩
  · rintro ⟨line, inside, known, parsed, readable, host, named, name, port, found, rfl⟩
    obtain ⟨fingerprint, readable⟩ := Option.ne_none_iff_exists'.mp readable
    refine ⟨(known, fingerprint, name, port), mem_flatMap.mpr ⟨known,
      mem_filterMap.mpr ⟨line, inside, parsed⟩, ?_⟩, rfl⟩
    rw [readable]
    exact mem_map.mpr ⟨(name, port), mem_filterMap.mpr ⟨host, named, found⟩, rfl⟩

variable {key : TrustedHostKey}

theorem imported_words {profileId : String} {contents : List Char} {now : DateTime}
    (imported : key.knownHostsEntry ∈ ((⟨[]⟩ : HostKeyStore).importKnownHosts fingerprintOf profileId contents newIds now).keys.map knownHostsEntry) :
    KnownHostsWords fingerprintOf key := by
  obtain ⟨line, -, known, parsed, readable, host, named, name, port, split, same⟩ :=
    mem_imported_entries.mp imported
  obtain ⟨isAlgorithm, isKey, clean⟩ := KnownHostsLine.parse_some parsed
  obtain ⟨filled, bounds, form⟩ := splitKnownHost_some split
  have inside : ∀ c ∈ name, c ∈ host := by
    intro c mem
    obtain ⟨-, rfl, -⟩ | ⟨-, text, rfl⟩ := form
    · exact mem
    · exact mem_cons_of_mem _ (mem_append_left _ mem)
  obtain ⟨hostAlias, rfl, algorithm, publicKey⟩ :
      key.hostAlias = String.ofList name ∧ key.port = port ∧
        key.algorithm = String.ofList known.algorithm ∧
        key.publicKeyBase64 = String.ofList known.publicKeyBase64 := by
    simpa only [knownHostsEntry, Prod.mk.injEq] using same
  rw [← publicKey] at readable
  refine ⟨?_, ?_, ?_, ?_, readable, bounds⟩
  · rw [hostAlias, String.toList_ofList]
    exact ⟨filled, fun c mem => (clean host named c (inside c mem)).1⟩
  · rw [hostAlias, String.toList_ofList]
    exact fun mem => (clean host named ',' (inside ',' mem)).2 rfl
  · rwa [algorithm, String.toList_ofList]
  · rwa [publicKey, String.toList_ofList]

theorem digit_ne_comma {n : Nat} : ',' ∉ Nat.toDigits 10 n :=
  fun mem => absurd (toDigits_isDigit mem) (by decide)

theorem KnownHostsWords.host (words : KnownHostsWords fingerprintOf key) :
    IsWord key.knownHostsHost ∧ ',' ∉ key.knownHostsHost := by
  unfold knownHostsHost formatKnownHost
  split
  · exact ⟨words.hostAlias, words.comma⟩
  · refine ⟨⟨cons_ne_nil _ _, fun c mem => ?_⟩, fun mem => ?_⟩
    · simp only [mem_cons, mem_append] at mem
      obtain rfl | mem | rfl | rfl | mem := mem
      · rfl
      · exact words.hostAlias.solid c mem
      · rfl
      · rfl
      · exact digit_not_whitespace (toDigits_isDigit mem)
    · simp only [mem_cons, mem_append] at mem
      obtain comma | mem | comma | comma | mem := mem
      · cases comma
      · exact words.comma mem
      · cases comma
      · cases comma
      · exact digit_ne_comma mem

theorem KnownHostsWords.parse (words : KnownHostsWords fingerprintOf key) :
    KnownHostsLine.parse key.knownHostsLine =
      if key.knownHostsHost.head? = some '#' ∨ key.knownHostsHost.head? = some '|' then none
      else some ⟨[key.knownHostsHost], key.algorithm.toList, key.publicKeyBase64.toList⟩ :=
  KnownHostsLine.parse_words words.host.1 words.host.2 words.algorithm words.publicKey

theorem KnownHostsWords.line_free (words : KnownHostsWords fingerprintOf key) :
    '\n' ∉ key.knownHostsLine := by
  have apart : ∀ {text : List Char}, IsWord text → '\n' ∉ text :=
    fun word mem => absurd (word.solid _ mem) (by decide)
  unfold knownHostsLine
  simp only [mem_append, mem_cons, not_or]
  exact ⟨apart words.host.1, by decide, apart words.algorithm, by decide, apart words.publicKey⟩

theorem mem_reimported {store : HostKeyStore} {profileId : String} {now : DateTime}
    {entry : String × Nat × String × String}
    (words : ∀ key ∈ store.keys, KnownHostsWords fingerprintOf key) :
    entry ∈ ((⟨[]⟩ : HostKeyStore).importKnownHosts fingerprintOf profileId store.exportKnownHosts
        newIds now).keys.map knownHostsEntry ↔
      ∃ key ∈ store.keys, key.knownHostsHost.head? ≠ some '#' ∧
        key.knownHostsHost.head? ≠ some '|' ∧
        ∃ name port, splitKnownHost key.knownHostsHost = some (name, port) ∧
          entry = (String.ofList name, port, key.algorithm, key.publicKeyBase64) := by
  rw [mem_imported_entries]
  by_cases empty : store.keys = []
  · rw [exportKnownHosts, empty]
    simp [KnownHostsLine.parse, splitWhitespace]
  have lines : store.exportKnownHosts.splitOn '\n' =
      store.keys.map knownHostsLine := by
    refine splitOn_intercalate '\n' ?_ (by simpa using empty)
    intro line mem
    obtain ⟨key, listed, rfl⟩ := mem_map.mp mem
    exact (words key listed).line_free
  rw [lines]
  constructor
  · rintro ⟨line, inside, known, parsed, -, host, named, name, port, split, rfl⟩
    obtain ⟨key, listed, rfl⟩ := mem_map.mp inside
    rw [(words key listed).parse] at parsed
    split at parsed
    · cases parsed
    next comment =>
      obtain rfl := Option.some.inj parsed
      obtain rfl := mem_singleton.mp named
      obtain ⟨hash, bar⟩ := not_or.mp comment
      refine ⟨key, listed, hash, bar, name, port, split, ?_⟩
      simp only [String.ofList_toList]
  · rintro ⟨key, listed, hash, bar, name, port, split, rfl⟩
    refine ⟨key.knownHostsLine, mem_map_of_mem listed, ⟨[key.knownHostsHost],
      key.algorithm.toList, key.publicKeyBase64.toList⟩, ?_, ?_, key.knownHostsHost,
      mem_singleton_self _, name, port, split, ?_⟩
    · rw [(words key listed).parse, if_neg (not_or.mpr ⟨hash, bar⟩)]
    · rw [String.ofList_toList]
      exact (words key listed).readable
    · simp only [String.ofList_toList]

theorem KnownHostsExact.split (exactly : KnownHostsExact fingerprintOf key) :
    splitKnownHost key.knownHostsHost = some (key.hostAlias.toList, key.port) :=
  splitKnownHost_format exactly.hostAlias.filled exactly.port.1 exactly.port.2
    (fun standard => exactly.plain standard '[' (by simp))
    fun other => splitBracketPort_eq_none_iff.mpr (exactly.bracketed other)

theorem KnownHostsExact.uncommented (exactly : KnownHostsExact fingerprintOf key) (c : Char)
    (mark : c ∈ ['#', '|']) : key.knownHostsHost.head? ≠ some c := by
  unfold knownHostsHost formatKnownHost
  split
  next standard => exact exactly.plain standard c (mem_cons_of_mem _ mark)
  · rintro ⟨⟩
    exact absurd mark (by decide)

theorem no_bracketed_alias {store : HostKeyStore}
    (origin : ∀ key ∈ store.keys, key.port = 22 → key.hostAlias.toList.head? = some '[' →
      ∃ longer ∈ store.keys, longer.port = 22 ∧ longer.hostAlias.toList.head? = some '[' ∧
        key.hostAlias.toList.length < longer.hostAlias.toList.length) :
    ∀ key ∈ store.keys, key.port = 22 → key.hostAlias.toList.head? ≠ some '[' := by
  intro key listed standard bracket
  have grows : ∀ n, ∃ longer ∈ store.keys, longer.port = 22 ∧
      longer.hostAlias.toList.head? = some '[' ∧ n ≤ longer.hostAlias.toList.length := by
    intro n
    induction n with
    | zero => exact ⟨key, listed, standard, bracket, Nat.zero_le _⟩
    | succ n ih =>
      obtain ⟨long, listed, standard, bracket, bound⟩ := ih
      obtain ⟨longer, listed, standard, bracket, more⟩ := origin long listed standard bracket
      exact ⟨longer, listed, standard, bracket, by omega⟩
  obtain ⟨long, listed, -, -, bound⟩ :=
    grows ((store.keys.map fun key => key.hostAlias.toList.length).sum + 1)
  have below := single_le_sum (fun _ _ => Nat.zero_le _) _
    (mem_map_of_mem (f := fun key : TrustedHostKey => key.hostAlias.toList.length) listed)
  omega

variable (fingerprintOf)

/-- The export of a store is imported as what it says exactly if the line of every key is three
words that are read as they were written. -/
theorem known_hosts_round_trip_iff (store : HostKeyStore) (profileId : String)
    (newIds : Nat → String) (now : DateTime) :
    (∀ entry, entry ∈ ((⟨[]⟩ : HostKeyStore).importKnownHosts fingerprintOf profileId
          store.exportKnownHosts newIds now).keys.map knownHostsEntry ↔
        entry ∈ store.keys.map knownHostsEntry) ↔
      ∀ key ∈ store.keys, KnownHostsExact fingerprintOf key := by
  constructor
  · intro same
    have words : ∀ key ∈ store.keys, KnownHostsWords fingerprintOf key := fun key listed =>
      imported_words ((same key.knownHostsEntry).mpr (mem_map_of_mem listed))
    -- every key is read from the line of a key of the store
    have origin : ∀ key ∈ store.keys, ∃ source ∈ store.keys,
        source.knownHostsHost.head? ≠ some '#' ∧ source.knownHostsHost.head? ≠ some '|' ∧
          splitKnownHost source.knownHostsHost = some (key.hostAlias.toList, key.port) := by
      intro key listed
      obtain ⟨source, inside, hash, bar, name, port, split, equal⟩ :=
        (mem_reimported words).mp ((same key.knownHostsEntry).mpr (mem_map_of_mem listed))
      obtain ⟨hostAlias, rfl, -⟩ : key.hostAlias = String.ofList name ∧ key.port = port ∧ _ := by
        simpa only [knownHostsEntry, Prod.mk.injEq] using equal
      refine ⟨source, inside, hash, bar, ?_⟩
      rw [hostAlias, String.toList_ofList, split]
    have bracketed : ∀ key ∈ store.keys, key.port ≠ 22 →
        splitBracketPort key.hostAlias.toList = none := by
      intro key listed other
      obtain ⟨source, -, -, -, split⟩ := origin key listed
      obtain ⟨-, -, ⟨standard, -⟩ | ⟨none, -⟩⟩ := splitKnownHost_some split
      · exact absurd standard other
      · exact none
    have standard : ∀ key ∈ store.keys, key.port = 22 → ∃ source ∈ store.keys,
        source.port = 22 ∧ source.hostAlias.toList.head? ≠ some '#' ∧
          source.hostAlias.toList.head? ≠ some '|' ∧
          (source.hostAlias = key.hostAlias ∧ key.hostAlias.toList.head? ≠ some '[' ∨
            source.hostAlias.toList.head? = some '[' ∧
              key.hostAlias.toList.length < source.hostAlias.toList.length) := by
      intro key listed standard
      obtain ⟨source, inside, hash, bar, split⟩ := origin key listed
      have default : source.port = 22 := by
        by_contra other
        have exactly := splitKnownHost_format (words source inside).hostAlias.filled
          (words source inside).port.1 (words source inside).port.2 (fun port => absurd port other)
          fun _ => bracketed source inside other
        rw [knownHostsHost, exactly] at split
        exact other ((Prod.mk.inj (Option.some.inj split)).2.trans standard)
      have host : source.knownHostsHost = source.hostAlias.toList := if_pos default
      rw [host] at hash bar split
      refine ⟨source, inside, default, hash, bar, ?_⟩
      obtain ⟨-, -, ⟨-, named, plain⟩ | ⟨-, text, named⟩⟩ := splitKnownHost_some split
      · exact .inl ⟨String.toList_inj.mp named, plain⟩
      · refine .inr ⟨by rw [named, head?_cons], ?_⟩
        rw [named]
        simp only [length_cons, length_append]
        omega
    have plain := no_bracketed_alias fun key listed port bracket => by
      obtain ⟨source, inside, default, -, -, ⟨-, plain⟩ | longer⟩ := standard key listed port
      · exact absurd bracket plain
      · exact ⟨source, inside, default, longer⟩
    intro key listed
    refine ⟨words key listed, fun port c mem => ?_, fun other =>
      splitBracketPort_eq_none_iff.mp (bracketed key listed other)⟩
    obtain ⟨source, inside, default, hash, bar, ⟨named, -⟩ | ⟨bracket, -⟩⟩ :=
      standard key listed port
    · rw [named] at hash bar
      simp only [mem_cons, not_mem_nil, or_false] at mem
      obtain rfl | rfl | rfl := mem
      · exact plain key listed port
      · exact hash
      · exact bar
    · exact absurd bracket (plain source inside default)
  · intro exactly entry
    rw [mem_reimported fun key listed => (exactly key listed).toKnownHostsWords, mem_map]
    constructor
    · rintro ⟨key, listed, -, -, name, port, split, rfl⟩
      rw [(exactly key listed).split] at split
      obtain ⟨rfl, rfl⟩ := Prod.mk.inj (Option.some.inj split)
      refine ⟨key, listed, ?_⟩
      rw [String.ofList_toList, knownHostsEntry]
    · rintro ⟨key, listed, rfl⟩
      refine ⟨key, listed, (exactly key listed).uncommented '#' (by simp),
        (exactly key listed).uncommented '|' (by simp), key.hostAlias.toList, key.port,
        (exactly key listed).split, ?_⟩
      rw [String.ofList_toList, knownHostsEntry]

end RoundTrip

def labSwitchKey : TrustedHostKey :=
  ⟨"k1", some "lab", "lab switch", "10.0.0.2", 22, "ssh-ed25519",
    "SHA256:ungWv48Bz+pBQUDeXa4iI7ADYaOWF3qctBD/YfIAFa0", "YWJj", .profile, none, 1, 1⟩

/-- An alias of two words passes as one and makes a line of four. -/
theorem alias_of_two_words_lost :
    rustTrim labSwitchKey.hostAlias = labSwitchKey.hostAlias ∧
      (⟨[labSwitchKey]⟩ : HostKeyStore).exportKnownHosts = "lab switch ssh-ed25519 YWJj".toList ∧
      ((⟨[]⟩ : HostKeyStore).importKnownHosts oneFingerprint "lab"
        (⟨[labSwitchKey]⟩ : HostKeyStore).exportKnownHosts (fun _ => "k2") 2).keys = [] := by
  decide

end PortMate
