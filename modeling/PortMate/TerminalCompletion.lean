import Mathlib.Data.List.Nodup
import Mathlib.Data.List.Range
import PortMate.KeyedLists
import PortMate.Utf16

namespace PortMate

open List

inductive TerminalCompletionSource
  | command
  | subcommand
  | option
  | argument
  | history
  | quick
  deriving DecidableEq

structure TerminalCompletionSuggestion where
  id : List Char
  source : TerminalCompletionSource
  label : List Char
  detail : List Char
  target : List Char
  /-- Cut out of the target by units, not by characters. -/
  appendText : List UInt16
  deriving DecidableEq

structure TerminalCompletionInputState where
  line : List Char
  synchronized : Bool

structure TerminalCompletionPreferences where
  enabled : Bool
  commandNames : Bool
  commandOptions : Bool
  commandArgs : Bool
  history : Bool
  quickCommands : Bool
  triggerCharacters : Nat

structure TerminalCompletionQuickCommand where
  id : List Char
  label : List Char
  command : List Char

structure TerminalCompletionHistoryEntry where
  index : Nat
  target : List Char
  deriving DecidableEq

structure TerminalCompletionHistoryIndex where
  entries : List TerminalCompletionHistoryEntry
  prefixes : List (List Char × List TerminalCompletionHistoryEntry)

structure TerminalCommandCatalogEntry where
  value : List Char
  detail : List Char
  takesValue : Bool
  deriving DecidableEq

inductive TerminalCommandSchema
  | schema (entry : TerminalCommandCatalogEntry)
      (options arguments : List TerminalCommandCatalogEntry)
      (subcommands : List TerminalCommandSchema)

namespace TerminalCommandSchema

def entry : TerminalCommandSchema → TerminalCommandCatalogEntry
  | schema entry _ _ _ => entry

def options : TerminalCommandSchema → List TerminalCommandCatalogEntry
  | schema _ options _ _ => options

def arguments : TerminalCommandSchema → List TerminalCommandCatalogEntry
  | schema _ _ arguments _ => arguments

def subcommands : TerminalCommandSchema → List TerminalCommandSchema
  | schema _ _ _ subcommands => subcommands

end TerminalCommandSchema

/-- The catalog, the texts of the interface, and what the runtime knows of languages. -/
structure CompletionSurroundings where
  terminalCommandCatalog : List TerminalCommandSchema
  t : List Char → List Char
  toLowerCase : List Char → List Char
  localeCompare : List Char → List Char → Int

def historyIndexPrefixCharacters : Nat := 2
def maxCompletionLineCharacters : Nat := 512
def maxCompletionCandidates : Nat := 40

section Texts

def startsWithText (text start : List Char) : Bool :=
  (encodeUtf16 start).isPrefixOf (encodeUtf16 text)

/-- `slice` from a unit on. -/
def sliceFrom (text : List Char) (start : Nat) : List UInt16 := (encodeUtf16 text).drop start

def endsWithBlank (units : List UInt16) : Bool := units.getLast? = some 0x20

/-- `split(/\s+/).filter(Boolean)`. -/
def spacedWords (text : List Char) : List (List Char) :=
  (text.splitOnP isJsSpace).filter fun word => !word.isEmpty

def isUnsafeCharacter (c : Char) : Bool :=
  c.toNat ≤ 0x1f || c.toNat = 0x7f || "'\"\x60\\$()\x7b\x7d[];|&<>".toList.contains c

def completionLineIsSafe (line : List Char) : Bool :=
  !(jsTrim line).isEmpty && jsLength line ≤ maxCompletionLineCharacters &&
    !line.any isUnsafeCharacter

def normalizeCandidateLine (value : List Char) : List Char :=
  let target := jsTrim value
  if completionLineIsSafe target then target else []

def historyPrefix (line : List Char) : List Char := line.take historyIndexPrefixCharacters

end Texts

section HistoryIndex

def indexEntry (index : TerminalCompletionHistoryIndex) (value : List Char × Nat) :
    TerminalCompletionHistoryIndex :=
  let target := normalizeCandidateLine value.1
  if target.isEmpty then index
  else
    let entry := { index := value.2, target := target }
    let lengths := List.range' 1 (min historyIndexPrefixCharacters target.length)
    { entries := index.entries ++ [entry]
      prefixes := lengths.foldl
        (fun prefixes length => upsertEntry (target.take length) [] (· ++ [entry]) prefixes)
        index.prefixes }

def indexTerminalCompletionHistory (history : List (List Char)) : TerminalCompletionHistoryIndex :=
  history.zipIdx.foldl indexEntry { entries := [], prefixes := [] }

/-- The entries of a history that was not indexed. -/
def plainHistoryEntries (history : List (List Char)) : List TerminalCompletionHistoryEntry :=
  (history.zipIdx.map fun value =>
    { index := value.2, target := normalizeCandidateLine value.1 }).filter
      fun entry => !entry.target.isEmpty

end HistoryIndex

section Commands

def terminalCommandDetailMessage (toLowerCase : List Char → List Char) (detail : List Char) :
    List Char :=
  let parts := (toLowerCase detail).splitOnP fun c => !(('a' ≤ c && c ≤ 'z') || c.isDigit)
  "command-help-".toList ++ ['-'].intercalate (parts.filter fun part => !part.isEmpty)

def terminalCommandSchema (catalog : List TerminalCommandSchema) (value : List Char) :
    Option TerminalCommandSchema :=
  catalog.find? fun command => command.entry.value = value

def terminalCommandSubcommand (command : TerminalCommandSchema) (value : List Char) :
    Option TerminalCommandSchema :=
  command.subcommands.find? fun subcommand => subcommand.entry.value = value

def terminalCommandSchemaForToken (surroundings : CompletionSurroundings) (token : List Char) :
    Option TerminalCommandSchema :=
  let basename := token.rtakeWhile (· ≠ '/')
  let executable :=
    if ".exe".toList.isSuffixOf (surroundings.toLowerCase basename) then
      surroundings.toLowerCase (basename.take (basename.length - 4))
    else basename
  terminalCommandSchema surroundings.terminalCommandCatalog executable

def firstValues (seen : List (List Char)) :
    List TerminalCommandCatalogEntry → List TerminalCommandCatalogEntry
  | [] => []
  | entry :: rest =>
    if seen.contains entry.value then firstValues seen rest
    else entry :: firstValues (entry.value :: seen) rest

/-- The options of a command, with those of its root when it is not the root itself. -/
def commandOptions (root context : TerminalCommandSchema) (isRoot : Bool) :
    List TerminalCommandCatalogEntry :=
  firstValues [] (context.options ++ if isRoot then [] else root.options)

def terminalOptionName (token : List Char) (available : List TerminalCommandCatalogEntry) :
    Option (List Char) :=
  if token.head? = some '-' then some (token.takeWhile (· ≠ '='))
  else if token.head? ≠ some '/' then none
  else (available.find? fun entry => entry.value = token).map fun entry => entry.value

structure TerminalCommandContext where
  schema : TerminalCommandSchema
  isRoot : Bool
  unknownSubcommandPath : Option (List (List Char))

def resolveCommandTokens (root : TerminalCommandSchema) (trailingTokenComplete : Bool)
    (context : TerminalCommandSchema) (optionValuePending : Bool)
    (commandPath : List (List Char)) : List (List Char) → TerminalCommandContext
  | [] => { schema := context, isRoot := commandPath.isEmpty, unknownSubcommandPath := none }
  | token :: rest =>
    if token.isEmpty then
      resolveCommandTokens root trailingTokenComplete context optionValuePending commandPath rest
    else if optionValuePending then
      resolveCommandTokens root trailingTokenComplete context false commandPath rest
    else
      let availableOptions := commandOptions root context commandPath.isEmpty
      let optionName := terminalOptionName token availableOptions
      if token.head? = some '-' || optionName.any (fun name => !name.isEmpty) then
        let option := optionName.bind fun name =>
          if name.isEmpty then none else availableOptions.find? fun entry => entry.value = name
        let pending := option.any (fun entry => entry.takesValue) && !token.contains '='
        resolveCommandTokens root trailingTokenComplete context pending commandPath rest
      else
        match terminalCommandSubcommand context token with
        | some subcommand =>
          resolveCommandTokens root trailingTokenComplete subcommand false
            (commandPath ++ [subcommand.entry.value]) rest
        | none =>
          if context.subcommands.isEmpty then
            resolveCommandTokens root trailingTokenComplete context false commandPath rest
          else if !trailingTokenComplete && rest.isEmpty then
            { schema := context, isRoot := commandPath.isEmpty, unknownSubcommandPath := none }
          else
            { schema := context
              isRoot := commandPath.isEmpty
              unknownSubcommandPath := some (commandPath ++ [token]) }

def resolveCommandContext (root : TerminalCommandSchema) (tokens : List (List Char)) :
    TerminalCommandContext :=
  resolveCommandTokens root true root false [] tokens

end Commands

section Suggestions

variable (surroundings : CompletionSurroundings)

def suggestion (id : List Char) (source : TerminalCompletionSource) (label detail target line : List Char)
    (completeWithSpace : Bool) : TerminalCompletionSuggestion :=
  let trailingSpace := if completeWithSpace && !endsWithBlank (encodeUtf16 target) then [0x20] else []
  { id := id
    source := source
    label := label
    detail := detail
    target := target
    appendText := sliceFrom target (jsLength line) ++ trailingSpace }

def sourcePriority : TerminalCompletionSource → Nat
  | .quick => 0
  | .history => 1
  | .subcommand => 2
  | .argument => 3
  | .option => 4
  | .command => 5

def sourceName : TerminalCompletionSource → List Char
  | .command => "command".toList
  | .subcommand => "subcommand".toList
  | .option => "option".toList
  | .argument => "argument".toList
  | .history => "history".toList
  | .quick => "quick".toList

def extendsLine (line target : List Char) : Bool :=
  !target.isEmpty && startsWithText target line && target ≠ line

def quickCandidates (line : List Char) (quickCommands : List TerminalCompletionQuickCommand) :
    List TerminalCompletionSuggestion :=
  quickCommands.filterMap fun quick =>
    let target := normalizeCandidateLine quick.command
    if extendsLine line target then
      some (suggestion ("quick:".toList ++ quick.id) .quick quick.label
        (surroundings.t "quick-commands".toList) target line false)
    else none

def enteredCandidates (line : List Char) (entries : List TerminalCompletionHistoryEntry) :
    List TerminalCompletionSuggestion :=
  entries.filterMap fun entry =>
    if extendsLine line entry.target then
      some (suggestion
        ("history:".toList ++ (toString entry.index).toList ++ [':'] ++ entry.target) .history
        entry.target (surroundings.t "command-history".toList) entry.target line false)
    else none

def commandCandidates (line : List Char) : List TerminalCompletionSuggestion :=
  let indentation := line.takeWhile isJsSpace
  surroundings.terminalCommandCatalog.filterMap fun command =>
    let entry := command.entry
    let target := indentation ++ entry.value
    if startsWithText target line then
      some (suggestion ("command:".toList ++ entry.value) .command entry.value
        (surroundings.t (terminalCommandDetailMessage surroundings.toLowerCase entry.detail))
        target line true)
    else none

def pushCatalogSuggestion (source : TerminalCompletionSource) (command beforeToken line : List Char)
    (entry : TerminalCommandCatalogEntry) : Option TerminalCompletionSuggestion :=
  let target := beforeToken ++ entry.value
  if startsWithText target line then
    some (suggestion (sourceName source ++ [':'] ++ command ++ [':'] ++ entry.value) source
      entry.value (surroundings.t (terminalCommandDetailMessage surroundings.toLowerCase entry.detail))
      target line true)
  else none

def catalogCandidates (preferences : TerminalCompletionPreferences)
    (command beforeToken token line : List Char) : List TerminalCompletionSuggestion :=
  match terminalCommandSchemaForToken surroundings command with
  | none => []
  | some root =>
    let context := resolveCommandContext root ((spacedWords (jsTrim beforeToken)).drop 1)
    if context.unknownSubcommandPath.isSome then []
    else
      let pushed := fun source entries =>
        entries.filterMap (pushCatalogSuggestion surroundings source command beforeToken line)
      let dashed := token.head? = some '-'
      (if preferences.commandOptions && (token.isEmpty || dashed || token.head? = some '/') then
        pushed .option (commandOptions root context.schema context.isRoot) else []) ++
      (if preferences.commandArgs && !dashed then
        pushed .subcommand (context.schema.subcommands.map fun schema => schema.entry) else []) ++
      (if preferences.commandArgs && !dashed then pushed .argument context.schema.arguments else [])

def candidateOrder (left right : TerminalCompletionSuggestion) : Int :=
  let sources := (sourcePriority left.source : Int) - sourcePriority right.source
  let lengths := (jsLength left.target : Int) - jsLength right.target
  if sources ≠ 0 then sources
  else if lengths ≠ 0 then lengths
  else surroundings.localeCompare left.label right.label

/-- The first candidate for every target, if it adds anything. -/
def distinctTargets (seen : List (List Char)) :
    List TerminalCompletionSuggestion → List TerminalCompletionSuggestion
  | [] => []
  | candidate :: rest =>
    if candidate.appendText.isEmpty || seen.contains candidate.target then distinctTargets seen rest
    else candidate :: distinctTargets (candidate.target :: seen) rest

/-- The word that is being typed, or after a blank the command. -/
def typedCharacters (line : List Char) : Nat :=
  let token := line.rtakeWhile fun c => !isJsSpace c
  let command := (spacedWords (line.dropWhile isJsSpace)).headD []
  if token.isEmpty then jsLength command else jsLength token

def completionCandidates (line : List Char) (preferences : TerminalCompletionPreferences)
    (historyEntries : List TerminalCompletionHistoryEntry)
    (quickCommands : List TerminalCompletionQuickCommand) : List TerminalCompletionSuggestion :=
  let token := line.rtakeWhile fun c => !isJsSpace c
  let beforeToken := line.rdropWhile fun c => !isJsSpace c
  let tokens := spacedWords (line.dropWhile isJsSpace)
  let command := tokens.headD []
  let blank := (jsTrim beforeToken).isEmpty
  (if preferences.quickCommands then quickCandidates surroundings line quickCommands else []) ++
  (if preferences.history then enteredCandidates surroundings line historyEntries else []) ++
  (if tokens.length ≤ 1 && blank && preferences.commandNames then
    commandCandidates surroundings line else []) ++
  (if !command.isEmpty && !blank then
    catalogCandidates surroundings preferences command beforeToken token line else [])

def terminalCompletionSuggestions (line : List Char) (preferences : TerminalCompletionPreferences)
    (history : List (List Char)) (historyIndex : Option TerminalCompletionHistoryIndex)
    (quickCommands : List TerminalCompletionQuickCommand) : List TerminalCompletionSuggestion :=
  if !preferences.enabled || !completionLineIsSafe line then []
  else if typedCharacters line < preferences.triggerCharacters then []
  else
    let historyEntries := match historyIndex with
      | some index => itemsUnder index.prefixes (historyPrefix line)
      | none => plainHistoryEntries history
    let candidates := completionCandidates surroundings line preferences historyEntries quickCommands
    let sorted := candidates.mergeSort fun left right => candidateOrder surroundings left right ≤ 0
    (distinctTargets [] sorted).take maxCompletionCandidates

end Suggestions

def terminalCompletionAppendText (current : TerminalCompletionInputState)
    (candidate : TerminalCompletionSuggestion) : Option (List UInt16) :=
  if !current.synchronized || !completionLineIsSafe current.line ||
      !startsWithText candidate.target current.line then none
  else
    let trailingSpace :=
      if endsWithBlank candidate.appendText && !endsWithBlank (encodeUtf16 candidate.target) then
        [0x20] else []
    let text := sliceFrom candidate.target (jsLength current.line) ++ trailingSpace
    if text.isEmpty then none else some text

section Index

theorem indexEntry_lookup (index : TerminalCompletionHistoryIndex) (value : List Char × Nat)
    {key : List Char} (some : key ≠ []) (short : key.length ≤ historyIndexPrefixCharacters) :
    itemsUnder (indexEntry index value).prefixes key =
      itemsUnder index.prefixes key ++
        ([{ index := value.2, target := normalizeCandidateLine value.1 }] :
            List TerminalCompletionHistoryEntry).filter
          fun entry => !entry.target.isEmpty && key.isPrefixOf entry.target := by
  unfold indexEntry
  dsimp only
  generalize normalizeCandidateLine value.1 = target
  by_cases empty : target.isEmpty = true
  · rw [if_pos empty, filter_cons_of_neg (by simp [empty]), filter_nil, append_nil]
  · rw [if_neg empty]
    dsimp only
    have keys := @foldl_map Nat (List Char) _ target.take
      (fun prefixes key => upsertEntry key []
        (· ++ [({ index := value.2, target := target } : TerminalCompletionHistoryEntry)]) prefixes)
      (List.range' 1 (min historyIndexPrefixCharacters target.length)) index.prefixes
    rw [← keys, itemsUnder_upsertEach]
    · refine congrArg _ ?_
      have among : key ∈ (List.range' 1 (min historyIndexPrefixCharacters target.length)).map
          target.take ↔ key <+: target := by
        rw [mem_map]
        constructor
        · rintro ⟨length, -, rfl⟩
          exact List.take_prefix length target
        · intro begins
          have fits := begins.length_le
          have filled := length_pos_iff.mpr some
          exact ⟨key.length, by rw [mem_range'_1]; omega,
            (prefix_iff_eq_take.mp begins).symm⟩
      by_cases begins : key <+: target
      · rw [if_pos (among.mpr begins), filter_cons_of_pos (by simp [empty, begins]),
          filter_nil]
      · rw [if_neg (fun mem => begins (among.mp mem)), filter_cons_of_neg (by simp [begins]),
          filter_nil]
    · refine List.Nodup.map_on ?_ nodup_range'
      intro left leftIn right rightIn same
      have lengths := congrArg List.length same
      rw [mem_range'_1] at leftIn rightIn
      rw [length_take, length_take] at lengths
      omega

theorem indexEntry_foldl (values : List (List Char × Nat)) (index : TerminalCompletionHistoryIndex)
    {key : List Char} (some : key ≠ []) (short : key.length ≤ historyIndexPrefixCharacters) :
    itemsUnder (values.foldl indexEntry index).prefixes key =
      itemsUnder index.prefixes key ++
        (values.map fun value =>
          ({ index := value.2, target := normalizeCandidateLine value.1 } :
            TerminalCompletionHistoryEntry)).filter
          fun entry => !entry.target.isEmpty && key.isPrefixOf entry.target := by
  induction values generalizing index with
  | nil => rw [foldl_nil, map_nil, filter_nil, append_nil]
  | cons value values ih =>
    rw [foldl_cons, ih, indexEntry_lookup index value some short, append_assoc,
      ← List.filter_append]
    rfl

theorem indexed_entries (history : List (List Char)) {key : List Char} (some : key ≠ [])
    (short : key.length ≤ historyIndexPrefixCharacters) :
    itemsUnder (indexTerminalCompletionHistory history).prefixes key =
      (plainHistoryEntries history).filter fun entry => key.isPrefixOf entry.target := by
  unfold indexTerminalCompletionHistory plainHistoryEntries
  rw [indexEntry_foldl _ _ some short, filter_filter]
  refine congrArg (fun keep => List.filter keep _) (funext fun entry => Bool.and_comm _ _)

end Index

section Candidates

variable (surroundings : CompletionSurroundings) {line : List Char}

theorem startsWithText_iff {text start : List Char} : startsWithText text start = true ↔ start <+: text := by
  rw [startsWithText, List.isPrefixOf_iff_prefix, encodeUtf16_prefix]

theorem enteredCandidates_filtered (entries : List TerminalCompletionHistoryEntry) :
    enteredCandidates surroundings line
        (entries.filter fun entry => (historyPrefix line).isPrefixOf entry.target) =
      enteredCandidates surroundings line entries := by
  unfold enteredCandidates
  rw [filterMap_filter]
  refine congrArg (fun pick => List.filterMap pick entries) (funext fun entry => ?_)
  by_cases extends_line : extendsLine line entry.target = true
  · have begins : (historyPrefix line).isPrefixOf entry.target = true := by
      unfold extendsLine at extends_line
      simp only [Bool.and_eq_true] at extends_line
      rw [List.isPrefixOf_iff_prefix]
      exact (List.take_prefix _ _).trans (startsWithText_iff.mp extends_line.1.2)
    rw [if_pos begins]
  · rw [if_neg extends_line, ite_self]

theorem extendsLine_prefix {target : List Char} (extends_line : extendsLine line target = true) :
    line <+: target := by
  unfold extendsLine at extends_line
  simp only [Bool.and_eq_true] at extends_line
  exact startsWithText_iff.mp extends_line.1.2

variable {candidate : TerminalCompletionSuggestion}
  {quickCommands : List TerminalCompletionQuickCommand}

theorem quickCandidates_prefix (mem : candidate ∈ quickCandidates surroundings line quickCommands) :
    line <+: candidate.target := by
  obtain ⟨quick, -, found⟩ := mem_filterMap.mp mem
  dsimp only at found
  split at found
  next begins =>
    cases Option.some.inj found
    exact extendsLine_prefix begins
  next => cases found

theorem enteredCandidates_prefix {entries : List TerminalCompletionHistoryEntry}
    (mem : candidate ∈ enteredCandidates surroundings line entries) :
    line <+: candidate.target := by
  obtain ⟨entry, -, found⟩ := mem_filterMap.mp mem
  split at found
  next begins =>
    cases Option.some.inj found
    exact extendsLine_prefix begins
  next => cases found

theorem commandCandidates_prefix (mem : candidate ∈ commandCandidates surroundings line) :
    line <+: candidate.target := by
  obtain ⟨command, -, found⟩ := mem_filterMap.mp mem
  dsimp only at found
  split at found
  next begins =>
    cases Option.some.inj found
    exact startsWithText_iff.mp begins
  next => cases found

theorem pushCatalogSuggestion_prefix {source : TerminalCompletionSource}
    {command beforeToken : List Char} {entries : List TerminalCommandCatalogEntry}
    (mem : candidate ∈ entries.filterMap (pushCatalogSuggestion surroundings source command beforeToken line)) :
    line <+: candidate.target := by
  obtain ⟨entry, -, found⟩ := mem_filterMap.mp mem
  unfold pushCatalogSuggestion at found
  dsimp only at found
  split at found
  next begins =>
    cases Option.some.inj found
    exact startsWithText_iff.mp begins
  next => cases found

variable {preferences : TerminalCompletionPreferences}

theorem catalogCandidates_prefix {command beforeToken token : List Char}
    (mem : candidate ∈ catalogCandidates surroundings preferences command beforeToken token line) :
    line <+: candidate.target := by
  unfold catalogCandidates at mem
  split at mem
  next => cases mem
  next root _ =>
    dsimp only at mem
    split at mem
    · cases mem
    · rcases mem_append.mp mem with front | argument
      · rcases mem_append.mp front with option | subcommand
        · split at option
          · exact pushCatalogSuggestion_prefix surroundings option
          · cases option
        · split at subcommand
          · exact pushCatalogSuggestion_prefix surroundings subcommand
          · cases subcommand
      · split at argument
        · exact pushCatalogSuggestion_prefix surroundings argument
        · cases argument

theorem distinctTargets_sublist (seen : List (List Char))
    (candidates : List TerminalCompletionSuggestion) :
    List.Sublist (distinctTargets seen candidates) candidates := by
  induction candidates generalizing seen with
  | nil => exact .slnil
  | cons candidate candidates ih =>
    unfold distinctTargets
    split
    · exact .cons _ (ih seen)
    · exact .cons_cons _ (ih _)

theorem distinctTargets_nodup (seen : List (List Char))
    (candidates : List TerminalCompletionSuggestion) :
    ((distinctTargets seen candidates).map fun candidate => candidate.target).Nodup ∧
      ∀ candidate ∈ distinctTargets seen candidates, candidate.target ∉ seen := by
  induction candidates generalizing seen with
  | nil => exact ⟨.nil, nofun⟩
  | cons candidate candidates ih =>
    unfold distinctTargets
    split
    next => exact ih seen
    next new =>
      obtain ⟨once, apart⟩ := ih (candidate.target :: seen)
      have unseen : candidate.target ∉ seen := by
        simp only [Bool.or_eq_true, not_or, contains_iff_mem] at new
        exact new.2
      refine ⟨nodup_cons.mpr ⟨?_, once⟩, fun other mem => ?_⟩
      · intro again
        obtain ⟨other, mem, same⟩ := mem_map.mp again
        exact apart other mem (same ▸ mem_cons_self)
      · rcases mem_cons.mp mem with rfl | later
        · exact unseen
        · exact fun old => apart other later (mem_cons_of_mem _ old)

theorem completionCandidates_prefix {historyEntries : List TerminalCompletionHistoryEntry}
    (mem : candidate ∈ completionCandidates surroundings line preferences historyEntries quickCommands) :
    line <+: candidate.target := by
  unfold completionCandidates at mem
  dsimp only at mem
  rcases mem_append.mp mem with front | catalog
  · rcases mem_append.mp front with front | command
    · rcases mem_append.mp front with quick | history
      · split at quick
        · exact quickCandidates_prefix surroundings quick
        · cases quick
      · split at history
        · exact enteredCandidates_prefix surroundings history
        · cases history
    · split at command
      · exact commandCandidates_prefix surroundings command
      · cases command
  · split at catalog
    · exact catalogCandidates_prefix surroundings catalog
    · cases catalog

theorem suggestions_distinct (preferences : TerminalCompletionPreferences)
    (history : List (List Char)) (historyIndex : Option TerminalCompletionHistoryIndex)
    (quickCommands : List TerminalCompletionQuickCommand) :
    ((terminalCompletionSuggestions surroundings line preferences history historyIndex
      quickCommands).map fun candidate => candidate.target).Nodup := by
  unfold terminalCompletionSuggestions
  split
  · exact .nil
  · split
    · exact .nil
    · exact (distinctTargets_nodup _ _).1.sublist ((take_sublist _ _).map _)

theorem suggestions_start {history : List (List Char)}
    {historyIndex : Option TerminalCompletionHistoryIndex}
    (mem : candidate ∈ terminalCompletionSuggestions surroundings line preferences history historyIndex quickCommands) :
    line <+: candidate.target := by
  unfold terminalCompletionSuggestions at mem
  split at mem
  · cases mem
  · split at mem
    · cases mem
    · have sorted := (distinctTargets_sublist _ _).mem (mem_of_mem_take mem)
      exact completionCandidates_prefix surroundings (mem_mergeSort.mp sorted)

theorem suggestions_indexed (preferences : TerminalCompletionPreferences)
    (history other : List (List Char)) (quickCommands : List TerminalCompletionQuickCommand) :
    terminalCompletionSuggestions surroundings line preferences other
        (some (indexTerminalCompletionHistory history)) quickCommands =
      terminalCompletionSuggestions surroundings line preferences history none quickCommands := by
  unfold terminalCompletionSuggestions
  by_cases refused : (!preferences.enabled || !completionLineIsSafe line) = true
  · rw [if_pos refused, if_pos refused]
  · rw [if_neg refused, if_neg refused]
    have key : historyPrefix line ≠ [] := by
      intro none
      have empty : line = [] := by
        rcases take_eq_nil_iff.mp none with zero | empty
        · cases zero
        · exact empty
      subst empty
      simp [completionLineIsSafe, jsTrim] at refused
    dsimp only
    rw [indexed_entries history key (length_take_le _ _)]
    unfold completionCandidates
    rw [enteredCandidates_filtered]

end Candidates

theorem sliceFrom_prefix {line target : List Char} (begins : line <+: target) :
    encodeUtf16 line ++ sliceFrom target (jsLength line) = encodeUtf16 target := by
  obtain ⟨rest, rfl⟩ := begins
  have length : (encodeUtf16 line).length = jsLength line := by
    rw [encodeUtf16, length_flatMap, jsLength]
    refine congrArg List.sum (map_congr_left fun c _ => ?_)
    unfold utf16Units
    split
    · rfl
    · rfl
  rw [sliceFrom, ← length, encodeUtf16, encodeUtf16, flatMap_append, drop_left]

theorem terminalCompletionAppendText_target {current : TerminalCompletionInputState}
    {candidate : TerminalCompletionSuggestion} {text : List UInt16}
    (appended : terminalCompletionAppendText current candidate = some text) :
    encodeUtf16 current.line ++ text = encodeUtf16 candidate.target ∨
      encodeUtf16 current.line ++ text = encodeUtf16 candidate.target ++ [0x20] := by
  unfold terminalCompletionAppendText at appended
  split at appended
  next => cases appended
  next live =>
    simp only [Bool.or_eq_true, not_or, Bool.not_eq_true, Bool.not_eq_false'] at live
    have whole := sliceFrom_prefix (startsWithText_iff.mp live.2)
    extract_lets trailingSpace added at appended
    have blank : trailingSpace = [0x20] ∨ trailingSpace = [] := by
      unfold trailingSpace
      split
      · exact .inl rfl
      · exact .inr rfl
    split at appended
    · cases appended
    · obtain rfl := Option.some.inj appended
      unfold added
      rw [← append_assoc, whole]
      rcases blank with blank | none
      · exact .inr (by rw [blank])
      · exact .inl (by rw [none, append_nil])

/-- An index of the history changes no suggestion. Every suggestion begins with the line, none has
the target of another, and what is appended to a live line makes it the target. -/
theorem indexed_completion_plain (surroundings : CompletionSurroundings) (line : List Char)
    (preferences : TerminalCompletionPreferences) (history : List (List Char))
    (quickCommands : List TerminalCompletionQuickCommand) :
    let suggestions :=
      terminalCompletionSuggestions surroundings line preferences history none quickCommands
    terminalCompletionSuggestions surroundings line preferences []
        (some (indexTerminalCompletionHistory history)) quickCommands = suggestions ∧
      (∀ candidate ∈ suggestions, startsWithText candidate.target line = true) ∧
      (suggestions.map fun candidate => candidate.target).Nodup ∧
      ∀ candidate ∈ suggestions, ∀ (current : TerminalCompletionInputState) (text : List UInt16),
        terminalCompletionAppendText current candidate = some text →
          encodeUtf16 current.line ++ text = encodeUtf16 candidate.target ∨
            encodeUtf16 current.line ++ text = encodeUtf16 candidate.target ++ [0x20] :=
  ⟨suggestions_indexed surroundings preferences history [] quickCommands,
    fun _ mem => startsWithText_iff.mpr (suggestions_start surroundings mem),
    suggestions_distinct surroundings preferences history none quickCommands,
    fun _ _ _ _ appended => terminalCompletionAppendText_target appended⟩

end PortMate
