import PortMate.RustText
import PortMate.SplitPattern

namespace PortMate

open List

abbrev PathName := List Char

abbrev LogPath := List PathName

inductive LogExtension
  | raw | txt | jsonl
  deriving DecidableEq

def LogExtension.text : LogExtension → List Char
  | raw => "raw".toList
  | txt => "txt".toList
  | jsonl => "jsonl".toList

/-- The fields of a profile that its log files go by. -/
structure LogProfile where
  id : String
  name : String
  group : String
  pathTemplate : String
  retentionDays : Nat
  deriving DecidableEq

section Names

/-- `rsplit_once`. -/
def rsplitOnce (separator : Char) : List Char → Option (List Char × List Char)
  | [] => none
  | c :: rest =>
    match rsplitOnce separator rest with
    | some (before, after) => some (c :: before, after)
    | none => if c = separator then some ([], rest) else none

theorem rsplitOnce_eq_none {separator : Char} {text : List Char} (plain : separator ∉ text) :
    rsplitOnce separator text = none := by
  induction text with
  | nil => rfl
  | cons c rest ih =>
    rw [mem_cons, not_or] at plain
    rw [rsplitOnce, ih plain.2]
    exact if_neg (Ne.symm plain.1)

theorem rsplitOnce_append {separator : Char} (before : List Char) {after : List Char}
    (plain : separator ∉ after) :
    rsplitOnce separator (before ++ separator :: after) = some (before, after) := by
  induction before with
  | nil =>
    rw [nil_append, rsplitOnce, rsplitOnce_eq_none plain]
    exact if_pos rfl
  | cons c before ih => rw [cons_append, rsplitOnce, ih]

theorem rsplitOnce_some {separator : Char} {text before after : List Char}
    (found : rsplitOnce separator text = some (before, after)) :
    text = before ++ separator :: after := by
  induction text generalizing before with
  | nil => cases found
  | cons c rest ih =>
    rw [rsplitOnce] at found
    split at found
    next split =>
      cases found
      rw [ih split, cons_append]
    next =>
      split at found
      next same =>
        cases found
        rw [same, nil_append]
      next => cases found

theorem rsplitOnce_none {separator : Char} {text : List Char}
    (none : rsplitOnce separator text = Option.none) : separator ∉ text := by
  induction text with
  | nil => exact not_mem_nil
  | cons c rest ih =>
    rw [rsplitOnce] at none
    split at none
    next => cases none
    next later =>
      split at none
      next => cases none
      next other =>
        rw [mem_cons, not_or]
        exact ⟨Ne.symm other, ih later⟩

theorem rsplitOnce_plain {separator : Char} {text before after : List Char}
    (found : rsplitOnce separator text = some (before, after)) : separator ∉ after := by
  induction text generalizing before with
  | nil => cases found
  | cons c rest ih =>
    rw [rsplitOnce] at found
    split at found
    next split =>
      cases found
      exact ih split
    next later =>
      split at found
      · cases found
        exact rsplitOnce_none later
      · cases found

/-- `Path::file_stem`: a leading dot belongs to the stem. -/
def fileStem (name : PathName) : PathName :=
  match rsplitOnce '.' name with
  | none => name
  | some (before, _) => if before.isEmpty then name else before

/-- `Path::extension`. -/
def fileExtension (name : PathName) : Option PathName :=
  match rsplitOnce '.' name with
  | none => none
  | some (before, after) => if before.isEmpty then none else some after

def isDotName (name : PathName) : Bool := name = ['.'] || name = ['.', '.']

/-- `PathBuf::set_extension`. -/
def setExtension (path : LogPath) (extension : List Char) : LogPath :=
  match path.getLast? with
  | none => path
  | some name =>
    if isDotName name then path else path.dropLast ++ [fileStem name ++ '.' :: extension]

end Names

/-- `str::replace`. -/
def replaceAll (pattern replacement text : List Char) : List Char :=
  replacement.intercalate (splitPattern pattern 0 text)

def sanitizeLogPathSegment (segment : List Char) : PathName :=
  let cleaned := segment.map fun c =>
    if c.isAlphanum || c = '-' || c = '_' || c = '.' then c else '_'
  ((cleaned.dropWhile (· = '_')).reverse.dropWhile (· = '_')).reverse

namespace LogProfile

/-- The template with the names put in, one after the other. -/
def renderTemplate (profile : LogProfile) (date : List Char) : List Char :=
  let template := ((rustTrim profile.pathTemplate).toList.dropWhile (· = '/')).dropWhile (· = '\\')
  let template := if template.isEmpty then
    "\x7bprofile\x7d/\x7bdate\x7d/\x7bsession\x7d.jsonl".toList else template
  replaceAll "\x7bdate\x7d".toList date
    (replaceAll "\x7bsession\x7d".toList profile.id.toList
      (replaceAll "\x7bgroup\x7d".toList profile.group.toList
        (replaceAll "\x7bprofile\x7d".toList profile.name.toList template)))

def logSegments (rendered : List Char) : LogPath :=
  ((rendered.splitOnP fun c => c = '/' || c = '\\').map sanitizeLogPathSegment).filter fun clean =>
    !clean.isEmpty && !isDotName clean

def logShardRelativePath (profile : LogProfile) (date extension : List Char) : LogPath :=
  let path := logSegments (profile.renderTemplate date)
  let path := if path.isEmpty then
    [sanitizeLogPathSegment profile.id.toList].filter fun clean => !clean.isEmpty else path
  setExtension path extension

end LogProfile

def asciiLower (c : Char) : Char := if 'A' ≤ c && c ≤ 'Z' then Char.ofNat (c.toNat + 32) else c

def isLogShardName (name : PathName) : Bool :=
  match fileExtension name with
  | none => false
  | some extension =>
    let lower := extension.map asciiLower
    lower = "raw".toList || lower = "txt".toList || lower = "jsonl".toList

def isLogShardPath (path : LogPath) : Bool := path.getLast?.any isLogShardName

/-- `relative_log_path`: the names with slashes between them. -/
def relativeLogPath (path : LogPath) : List Char := ['/'].intercalate path

/-- The components of a relative path of normal names only. -/
def normalComponents (text : List Char) : Option LogPath :=
  let parts := text.splitOn '/'
  if text.head? = some '/' || parts.head? = some ['.'] || parts.contains ['.', '.'] then none
  else some (parts.filter fun part => !part.isEmpty && part ≠ ['.'])

/-- A path as the shards have it: names of letters, digits, dashes, underscores and dots. -/
structure ShardPath (path : LogPath) : Prop where
  clean : ∀ name ∈ path, ∀ c ∈ name, (c.isAlphanum || c = '-' || c = '_' || c = '.') = true
  named : ∀ name ∈ path, name ≠ [] ∧ isDotName name = false
  shard : isLogShardPath path = true

section ShardPaths

theorem sanitized_clean {segment : List Char} {c : Char} (mem : c ∈ sanitizeLogPathSegment segment) :
    (c.isAlphanum || c = '-' || c = '_' || c = '.') = true := by
  unfold sanitizeLogPathSegment at mem
  have mapped : c ∈ segment.map fun c =>
      if c.isAlphanum || c = '-' || c = '_' || c = '.' then c else '_' := by
    have inner := (dropWhile_sublist _).subset (mem_reverse.mp mem)
    exact (dropWhile_sublist _).subset (mem_reverse.mp inner)
  obtain ⟨original, _, rfl⟩ := mem_map.mp mapped
  split
  next kept => exact kept
  next => decide

theorem fileStem_subset {name : PathName} {c : Char} (mem : c ∈ fileStem name) : c ∈ name := by
  unfold fileStem at mem
  split at mem
  next => exact mem
  next found =>
    split at mem
    · exact mem
    · rw [rsplitOnce_some found]; exact mem_append_left _ mem

theorem fileStem_ne_nil {name : PathName} (named : name ≠ []) : fileStem name ≠ [] := by
  unfold fileStem
  split
  · exact named
  · split
    next => exact named
    next filled => simpa using filled

theorem extension_plain (extension : LogExtension) : '.' ∉ extension.text := by
  cases extension <;> decide

theorem fileExtension_setName {stem : PathName} (named : stem ≠ []) (extension : LogExtension) :
    fileExtension (stem ++ '.' :: extension.text) = some extension.text := by
  unfold fileExtension
  rw [rsplitOnce_append stem (extension_plain extension)]
  simp [named]

theorem isLogShardName_setName {stem : PathName} (named : stem ≠ []) (extension : LogExtension) :
    isLogShardName (stem ++ '.' :: extension.text) = true := by
  unfold isLogShardName
  rw [fileExtension_setName named]
  cases extension <;> decide

theorem not_dotName_setName (stem : PathName) (extension : LogExtension) :
    isDotName (stem ++ '.' :: extension.text) = false := by
  have long : 3 < (stem ++ '.' :: extension.text).length := by
    rw [length_append, length_cons]
    have : 3 ≤ extension.text.length := by cases extension <;> decide
    omega
  unfold isDotName
  rw [Bool.or_eq_false_iff, decide_eq_false_iff_not, decide_eq_false_iff_not]
  constructor <;>
  · intro same
    rw [same] at long
    exact absurd long (by decide)

theorem setExtension_shard {path : LogPath} {name : PathName} {extension : LogExtension}
    (clean : ∀ other ∈ path ++ [name], ∀ c ∈ other,
      (c.isAlphanum || c = '-' || c = '_' || c = '.') = true)
    (named : ∀ other ∈ path ++ [name], other ≠ [] ∧ isDotName other = false) :
    setExtension (path ++ [name]) extension.text =
        path ++ [fileStem name ++ '.' :: extension.text] ∧
      ShardPath (path ++ [fileStem name ++ '.' :: extension.text]) := by
  have last : name ∈ path ++ [name] := by simp
  have stem : fileStem name ≠ [] := fileStem_ne_nil (named name last).1
  constructor
  · unfold setExtension
    rw [getLast?_concat]
    simp [(named name last).2]
  · refine ⟨?_, ?_, ?_⟩
    · refine forall_mem_append.mpr
        ⟨fun other mem => clean other (mem_append_left _ mem), ?_⟩
      intro other mem c inside
      rw [mem_singleton.mp mem, mem_append] at inside
      obtain inside | inside := inside
      · exact clean name last c (fileStem_subset inside)
      · have all : ('.' :: extension.text).all (fun c =>
            c.isAlphanum || c = '-' || c = '_' || c = '.') = true := by
          cases extension <;> decide
        exact all_eq_true.mp all c inside
    · refine forall_mem_append.mpr
        ⟨fun other mem => named other (mem_append_left _ mem), ?_⟩
      intro other mem
      rw [mem_singleton.mp mem]
      exact ⟨by simp, not_dotName_setName _ _⟩
    · unfold isLogShardPath
      rw [getLast?_concat]
      exact isLogShardName_setName stem extension

theorem logSegments_names {rendered : List Char} {name : PathName}
    (mem : name ∈ LogProfile.logSegments rendered) :
    (∀ c ∈ name, (c.isAlphanum || c = '-' || c = '_' || c = '.') = true) ∧
      name ≠ [] ∧ isDotName name = false := by
  obtain ⟨mapped, kept⟩ := mem_filter.mp mem
  obtain ⟨segment, _, rfl⟩ := mem_map.mp mapped
  exact ⟨fun c => sanitized_clean, by simpa using kept⟩

/-- The paths that no file can be at: the log directory, the one above it. -/
def unusableLogPath (path : LogPath) : Bool := path = [] || path = [['.']] || path = [['.', '.']]

theorem logShardRelativePath_shard {profile : LogProfile} {date : List Char}
    {extension : LogExtension}
    (usable : unusableLogPath (profile.logShardRelativePath date extension.text) = false) :
    ShardPath (profile.logShardRelativePath date extension.text) := by
  unfold LogProfile.logShardRelativePath at usable ⊢
  have cleaned : ∀ names : LogPath, (∀ name ∈ names,
      (∀ c ∈ name, (c.isAlphanum || c = '-' || c = '_' || c = '.') = true) ∧
        name ≠ [] ∧ isDotName name = false) → names ≠ [] →
      ShardPath (setExtension names extension.text) := by
    intro names good filled
    obtain ⟨path, name, rfl⟩ := (eq_nil_or_concat names).resolve_left filled
    rw [concat_eq_append] at good ⊢
    have clean : ∀ other ∈ path ++ [name], ∀ c ∈ other,
        (c.isAlphanum || c = '-' || c = '_' || c = '.') = true :=
      fun other mem => (good other mem).1
    have named : ∀ other ∈ path ++ [name], other ≠ [] ∧ isDotName other = false :=
      fun other mem => (good other mem).2
    obtain ⟨same, shard⟩ := @setExtension_shard path name extension clean named
    rw [same]
    exact shard
  simp only at usable ⊢
  split
  next =>
    rename_i empty
    rw [if_pos empty] at usable
    cases clean : sanitizeLogPathSegment profile.id.toList with
    | nil =>
      rw [clean] at usable
      exact absurd usable (by simp [setExtension, unusableLogPath])
    | cons c rest =>
      rw [clean] at usable
      have kept : [c :: rest].filter (fun clean => !clean.isEmpty) = [c :: rest] := rfl
      rw [kept] at usable ⊢
      refine cleaned _ (fun name mem => ?_) (by simp)
      rw [mem_singleton.mp mem]
      refine ⟨fun c mem => ?_, by simp, ?_⟩
      · rw [← clean] at mem
        exact sanitized_clean mem
      · rw [← Bool.not_eq_true]
        intro dots
        have stays : setExtension [c :: rest] extension.text = [c :: rest] := by
          simp [setExtension, dots]
        rw [stays] at usable
        simp only [isDotName, Bool.or_eq_true, decide_eq_true_eq] at dots
        obtain same | same := dots <;> rw [same] at usable <;> exact absurd usable (by decide)
  next filled => exact cleaned _ (fun name mem => logSegments_names mem) (by simpa using filled)

theorem ShardPath.slash_free {path : LogPath} (shard : ShardPath path) :
    ∀ name ∈ path, '/' ∉ name :=
  fun name mem inside => absurd (shard.clean name mem '/' inside) (by decide)

theorem normalComponents_relative {path : LogPath} (shard : ShardPath path) :
    normalComponents (relativeLogPath path) = some path := by
  have filled : path ≠ [] := by
    rintro rfl
    exact absurd shard.shard (by decide)
  have parts : (relativeLogPath path).splitOn '/' = path :=
    splitOn_intercalate '/' shard.slash_free filled
  have anchored : (relativeLogPath path).head? ≠ some '/' := by
    obtain ⟨name, rest, rfl⟩ := exists_cons_of_ne_nil filled
    obtain ⟨c, name, rfl⟩ := exists_cons_of_ne_nil (shard.named name (by simp)).1
    have first : (relativeLogPath ((c :: name) :: rest)).head? = some c := by
      cases rest <;> rfl
    rw [first]
    rintro ⟨⟩
    exact shard.slash_free ('/' :: name) (by simp) (by simp)
  have first : path.head? ≠ some ['.'] := by
    obtain ⟨name, rest, rfl⟩ := exists_cons_of_ne_nil filled
    rintro ⟨⟩
    exact absurd (shard.named ['.'] (by simp)).2 (by decide)
  have parents : path.contains ['.', '.'] = false := by
    rw [← Bool.not_eq_true, contains_iff_mem]
    exact fun mem => absurd (shard.named _ mem).2 (by decide)
  have kept : (path.filter fun part => !part.isEmpty && part ≠ ['.']) = path := by
    refine filter_eq_self.mpr fun name mem => ?_
    obtain ⟨nonempty, plain⟩ := shard.named name mem
    simp only [isDotName, Bool.or_eq_false_iff, decide_eq_false_iff_not] at plain
    simpa [nonempty] using plain.1
  unfold normalComponents
  simp only [parts, parents, kept]
  rw [if_neg]
  simp [anchored, first]

end ShardPaths

end PortMate
