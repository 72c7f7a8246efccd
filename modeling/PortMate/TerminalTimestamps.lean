import Mathlib.Data.List.TakeWhile
import Mathlib.Data.Rat.Defs
import PortMate.Transducer

namespace PortMate

open List Prod Bool Int

section Bisection

variable {α : Type}

/-- The index from which on `below` fails, between two others; `fuel` is their distance. -/
def bisect (below : α → Bool) (items : List α) : Nat → Nat → Nat → Nat
  | 0, low, _ => low
  | fuel + 1, low, high =>
    if low < high then
      let middle := low + (high - low) / 2
      if (items[middle]?).any below then bisect below items fuel (middle + 1) high
      else bisect below items fuel low middle
    else low

theorem bisect_spec {below : α → Bool} {items : List α} {cut : Nat} (fuel : Nat) {low high : Nat}
    (after : low ≤ cut) (upTo : cut ≤ high) (enough : high - low ≤ fuel)
    (before : ∀ i item, low ≤ i → i < cut → items[i]? = some item → below item = true)
    (behind : ∀ i item, cut ≤ i → items[i]? = some item → below item = false)
    (inside : high ≤ items.length) : bisect below items fuel low high = cut := by
  induction fuel generalizing low high with
  | zero =>
    rw [bisect]
    omega
  | succ fuel ih =>
    rw [bisect]
    dsimp only
    split
    · have middle : low + (high - low) / 2 < items.length := by omega
      have found := getElem?_eq_getElem middle
      rw [found, Option.any_some]
      by_cases left : low + (high - low) / 2 < cut
      · rw [if_pos (before _ _ (by omega) left found)]
        exact ih left upTo (by omega) (fun i item later => before i item (by omega)) inside
      · have fails := behind _ _ (by omega) found
        rw [if_neg (by simp [fails])]
        exact ih after (by omega) (by omega) before (by omega)
    · omega

theorem filter_split {keep : α → Bool} {items : List α}
    (sorted : items.Pairwise fun a b => keep b = true → keep a = true) :
    items.filter keep ++ items.filter (fun item => !keep item) = items := by
  induction items with
  | nil => rfl
  | cons item rest ih =>
    obtain ⟨first, sorted⟩ := pairwise_cons.mp sorted
    by_cases kept : keep item = true
    · rw [filter_cons_of_pos kept, filter_cons_of_neg (by simp [kept]), cons_append,
        ih sorted]
    · have none : rest.filter keep = [] :=
        filter_eq_nil_iff.mpr fun other mem meets => kept (first other mem meets)
      have all : rest.filter (fun item => !keep item) = rest := by
        refine filter_eq_self.mpr fun other mem => ?_
        simpa using filter_eq_nil_iff.mp none other mem
      rw [filter_cons_of_neg kept, filter_cons_of_pos (by simpa using kept), none, all]
      rfl

theorem bisect_filter {keep : α → Bool} {items : List α} {start : Nat}
    (inside : start ≤ items.length)
    (sorted : (items.drop start).Pairwise fun a b => keep b = true → keep a = true) :
    bisect keep items (items.length - start) start items.length =
      start + ((items.drop start).filter keep).length := by
  have whole : (items.drop start).length = items.length - start := length_drop
  have split := filter_split sorted
  have fits : ((items.drop start).filter keep).length ≤ (items.drop start).length :=
    filter_sublist.length_le
  refine bisect_spec _ (Nat.le_add_right _ _) (by omega) (Nat.le_refl _) ?_ ?_ (Nat.le_refl _)
  · intro i item after before found
    obtain ⟨j, rfl⟩ := Nat.exists_eq_add_of_le after
    rw [← getElem?_drop, ← split, getElem?_append_left (by omega)] at found
    exact (mem_filter.mp (mem_of_getElem? found)).2
  · intro i item after found
    obtain ⟨j, rfl⟩ := Nat.exists_eq_add_of_le (Nat.le_of_add_right_le after)
    rw [← getElem?_drop, ← split, getElem?_append_right (by omega)] at found
    simpa using (mem_filter.mp (mem_of_getElem? found)).2

theorem split_at_bound {keep : α → Bool} {items : List α} {start : Nat}
    (sorted : (items.drop start).Pairwise fun a b => keep b = true → keep a = true) :
    let bound := start + ((items.drop start).filter keep).length
    (if start < bound then items[bound - 1]? else none) =
        ((items.drop start).filter keep).getLast? ∧
      items.drop bound = (items.drop start).filter fun item => !keep item := by
  intro bound
  have split := filter_split sorted
  constructor
  · rcases eq_nil_or_concat' ((items.drop start).filter keep) with none | ⟨front, last, whole⟩
    · have place : bound = start := by
        show start + _ = _
        rw [none]
        rfl
      rw [none, place, if_neg (Nat.lt_irrefl _)]
      rfl
    · have place : bound = start + (front.length + 1) := by
        show start + _ = _
        rw [whole, length_append, length_singleton]
      rw [whole] at split ⊢
      rw [getLast?_concat, if_pos (by omega), place, ← Nat.add_assoc, Nat.add_sub_cancel,
        ← getElem?_drop, ← split, append_assoc,
        getElem?_append_right (Nat.le_refl _), Nat.sub_self]
      rfl
  · have cut := @drop_left _ ((items.drop start).filter keep)
      ((items.drop start).filter fun item => !keep item)
    rw [split, drop_drop] at cut
    exact cut

end Bisection

namespace Timestamps

/-- A marker of the terminal is known by a number. -/
structure Entry where
  marker : Nat
  ts : String
  deriving DecidableEq

/-- The lines of the markers; a disposed one has none. -/
abbrev Markers := Nat → Option Int

def Markers.line (markers : Markers) (marker : Nat) : Int := (markers marker).getD (-1)

def Markers.isDisposed (markers : Markers) (marker : Nat) : Bool := (markers marker).isNone

/-- `entry.marker.isDisposed`. -/
def Markers.gone (markers : Markers) (entry : Entry) : Bool := markers.isDisposed entry.marker

def Markers.without (markers : Markers) (marker : Nat) : Markers :=
  fun other => if other = marker then none else markers other

structure VisibleTerminalTimestamp where
  line : Int
  row : Int
  ts : String
  deriving DecidableEq

section Visible

variable {α : Type} (lineOf : α → Int) (timestampOf : α → String)

/-- `Math.max(0, Math.trunc(value) || 0)`. -/
def wholeNumber (value : ℚ) : Int := max 0 (value.num.tdiv value.den)

/-- The rows below the first one, where another timestamp begins. -/
def laterTimestamps (firstLine count : Int) (ts : Option String) :
    List α → List VisibleTerminalTimestamp
  | [] => []
  | entry :: rest =>
    if firstLine + count ≤ lineOf entry then []
    else if some (timestampOf entry) = ts then laterTimestamps firstLine count ts rest
    else
      { line := lineOf entry, row := lineOf entry - firstLine, ts := timestampOf entry } ::
        laterTimestamps firstLine count (some (timestampOf entry)) rest

def firstTimestamp (firstLine : Int) : Option String → List VisibleTerminalTimestamp
  | none => []
  | some ts => if ts = "" then [] else [{ line := firstLine, row := 0, ts := ts }]

def visibleSortedTerminalTimestamps (entries : List α) (viewportY rows : ℚ)
    (anchor : Option String) : List VisibleTerminalTimestamp :=
  let firstLine := wholeNumber viewportY
  let rowCount := wholeNumber rows
  if rowCount = 0 then []
  else
    let low := bisect (fun entry => lineOf entry ≤ firstLine) entries entries.length 0 entries.length
    let timestamp := if 0 < low then (entries[low - 1]?).map timestampOf else anchor
    firstTimestamp firstLine timestamp ++
      laterTimestamps lineOf timestampOf firstLine rowCount timestamp (entries.drop low)

end Visible

structure TerminalTimestampIndex where
  entries : List Entry := []
  head : Nat := 0
  disposed : Int := 0
  anchor : Option String := none

namespace TerminalTimestampIndex

def tail (index : TerminalTimestampIndex) : List Entry := index.entries.drop index.head

def releasePrefix (index : TerminalTimestampIndex) : TerminalTimestampIndex :=
  if 256 ≤ index.head && index.entries.length ≤ index.head * 2 then
    { index with entries := index.tail, head := 0 }
  else index

/-- The loop over the disposed entries at the front. -/
def passDisposed (markers : Markers) (index : TerminalTimestampIndex) :
    List Entry → TerminalTimestampIndex
  | [] => index
  | entry :: rest =>
    if markers.gone entry then
      passDisposed markers
        { index with
          head := index.head + 1
          anchor := if markers.line entry.marker < 0 then some entry.ts else index.anchor
          disposed := index.disposed - 1 } rest
    else index

/-- The loop from the last entry on, which ends when nothing is left to remove. -/
def scanTail (markers : Markers) (disposed : Int) : List Entry → List Entry × Int
  | [] => ([], disposed)
  | entry :: rest =>
    let (kept, left) := scanTail markers disposed rest
    if left = 0 || !markers.gone entry then (entry :: kept, left) else (kept, left - 1)

def compact (markers : Markers) (index : TerminalTimestampIndex) : TerminalTimestampIndex :=
  if index.disposed = 0 then index
  else
    let passed := index.passDisposed markers index.tail
    if passed.disposed = 0 then passed.releasePrefix
    else if 64 < passed.disposed then
      releasePrefix
        { passed with
          entries := passed.tail.filter fun entry => !markers.gone entry
          head := 0
          disposed := 0 }
    else
      let (kept, left) := scanTail markers passed.disposed passed.tail
      releasePrefix
        { passed with entries := passed.entries.take passed.head ++ kept, disposed := left }

def lowerBound (markers : Markers) (index : TerminalTimestampIndex) (line : Int) : Nat :=
  let high := index.entries.length
  if index.head < high && (index.entries[high - 1]?).any fun entry => markers.line entry.marker < line
  then high
  else
    bisect (fun entry => markers.line entry.marker < line) index.entries (high - index.head)
      index.head high

def upperBound (markers : Markers) (index : TerminalTimestampIndex) (line : Int) : Nat :=
  let high := index.entries.length
  bisect (fun entry => markers.line entry.marker ≤ line) index.entries (high - index.head)
    index.head high

def size (index : TerminalTimestampIndex) : Nat := index.entries.length - index.head

def has (markers : Markers) (index : TerminalTimestampIndex) (line : Int) : Bool :=
  (index.entries[index.lowerBound markers line]?).any fun entry => markers.line entry.marker = line

def timestampAt (markers : Markers) (index : TerminalTimestampIndex) (line : Int) : Option String :=
  let bound := index.upperBound markers line
  if index.head < bound then (index.entries[bound - 1]?).map Entry.ts else index.anchor

def visible (markers : Markers) (index : TerminalTimestampIndex) (viewportY rows : ℚ) :
    List VisibleTerminalTimestamp :=
  let firstLine := wholeNumber viewportY
  let count := wholeNumber rows
  if count = 0 then []
  else
    let start := index.upperBound markers firstLine
    let ts := if index.head < start then (index.entries[start - 1]?).map Entry.ts else index.anchor
    firstTimestamp firstLine ts ++
      laterTimestamps (fun entry => markers.line entry.marker) Entry.ts firstLine count ts
        (index.entries.drop start)

def snapshot (markers : Markers) (index : TerminalTimestampIndex) : List (Int × String) :=
  index.tail.map fun entry => (markers.line entry.marker, entry.ts)

end TerminalTimestampIndex

/-- The index and the markers that it shares with the terminal. -/
structure IndexedTerminal where
  markers : Markers
  index : TerminalTimestampIndex

inductive TimestampEvent
  | add (marker : Nat) (ts : String)
  | removeRange (firstLine lastLine : Int)
  /-- The terminal moves its markers; a disposed one stays so. -/
  | moved (line : Nat → Int)
  /-- The terminal disposes a marker. -/
  | disposed (marker : Nat)
  | size
  | has (line : Int)
  | timestampAt (line : Int)
  | visible (viewportY rows : ℚ)
  | snapshot

inductive TimestampAnswer
  | flag (value : Bool)
  | count (value : Nat)
  | timestamp (value : Option String)
  | rows (value : List VisibleTerminalTimestamp)
  | entries (value : List (Int × String))
  deriving DecidableEq

namespace IndexedTerminal

def compact (terminal : IndexedTerminal) : IndexedTerminal :=
  { terminal with index := terminal.index.compact terminal.markers }

/-- `dispose` of a marker, which tells the index once for every entry that listens to it. -/
def dispose (terminal : IndexedTerminal) (marker : Nat) : IndexedTerminal :=
  if terminal.markers.isDisposed marker then terminal
  else
    { markers := terminal.markers.without marker
      index := { terminal.index with
        disposed := terminal.index.disposed +
          terminal.index.tail.countP fun entry => entry.marker = marker } }

def trim (limit : Nat) (terminal : IndexedTerminal) : List Entry → IndexedTerminal
  | [] => terminal
  | removed :: rest =>
    if max 1 limit < rest.length + 1 then
      trim limit
        (dispose { terminal with
          index := { terminal.index with
            head := terminal.index.head + 1
            anchor := some removed.ts } } removed.marker) rest
    else terminal

def add (limit : Nat) (terminal : IndexedTerminal) (marker : Nat) (ts : String) :
    Bool × IndexedTerminal :=
  let terminal := terminal.compact
  let markers := terminal.markers
  if markers.isDisposed marker || markers.line marker < 0 then (false, terminal.dispose marker)
  else
    let index := terminal.index
    let place := index.lowerBound markers (markers.line marker)
    if (index.entries[place]?).any fun entry => markers.line entry.marker = markers.line marker then
      (false, terminal.dispose marker)
    else
      let entry := { marker := marker, ts := ts }
      let index := { index with
        entries := index.entries.take place ++ entry :: index.entries.drop place }
      let trimmed := trim limit { terminal with index := index } index.tail
      (true, { trimmed with index := trimmed.index.releasePrefix })

def removeRange (terminal : IndexedTerminal) (firstLine lastLine : Int) : IndexedTerminal :=
  let terminal := terminal.compact
  let index := terminal.index
  let first := index.lowerBound terminal.markers firstLine
  let past := index.upperBound terminal.markers lastLine
  if past ≤ first then terminal
  else
    let removed := (index.entries.drop first).take (past - first)
    removed.foldl (fun terminal entry => terminal.dispose entry.marker)
      { terminal with
        index := { index with entries := index.entries.take first ++ index.entries.drop past } }

def move (terminal : IndexedTerminal) (line : Nat → Int) : IndexedTerminal :=
  { terminal with markers := fun marker => (terminal.markers marker).map fun _ => line marker }

def step (limit : Nat) (terminal : IndexedTerminal) :
    TimestampEvent → IndexedTerminal × List TimestampAnswer
  | .add marker ts =>
    let (added, terminal) := terminal.add limit marker ts
    (terminal, [.flag added])
  | .removeRange firstLine lastLine => (terminal.removeRange firstLine lastLine, [])
  | .moved line => (terminal.move line, [])
  | .disposed marker => (terminal.dispose marker, [])
  | .size => (terminal.compact, [.count terminal.compact.index.size])
  | .has line => (terminal.compact, [.flag (terminal.compact.index.has terminal.markers line)])
  | .timestampAt line =>
    (terminal.compact, [.timestamp (terminal.compact.index.timestampAt terminal.markers line)])
  | .visible viewportY rows =>
    (terminal.compact, [.rows (terminal.compact.index.visible terminal.markers viewportY rows)])
  | .snapshot => (terminal.compact, [.entries (terminal.compact.index.snapshot terminal.markers)])

def transducer (limit : Nat) : Transducer IndexedTerminal TimestampEvent TimestampAnswer :=
  ⟨step limit⟩

end IndexedTerminal

/-- The same as a plain list: an entry leaves it at the moment its marker is disposed. -/
structure PlainTimestamps where
  markers : Markers
  entries : List Entry
  anchor : Option String

namespace PlainTimestamps

/-- The first entry leaves its timestamp behind. -/
def dispose (plain : PlainTimestamps) (marker : Nat) : PlainTimestamps where
  markers := plain.markers.without marker
  entries := plain.entries.filter fun entry => entry.marker ≠ marker
  anchor := match plain.entries with
    | [] => plain.anchor
    | entry :: _ => if entry.marker = marker then some entry.ts else plain.anchor

def trim (limit : Nat) (plain : PlainTimestamps) : List Entry → PlainTimestamps
  | [] => plain
  | entry :: rest =>
    if max 1 limit < rest.length + 1 then trim limit (plain.dispose entry.marker) rest else plain

def add (limit : Nat) (plain : PlainTimestamps) (marker : Nat) (ts : String) :
    Bool × PlainTimestamps :=
  let line := plain.markers.line
  if plain.markers.isDisposed marker || line marker < 0 ||
      plain.entries.any fun entry => line entry.marker = line marker then
    (false, plain.dispose marker)
  else
    let entries := (plain.entries.filter fun entry => line entry.marker < line marker) ++
      { marker := marker, ts := ts } ::
        plain.entries.filter fun entry => line marker < line entry.marker
    (true, trim limit { plain with entries := entries } entries)

def removeRange (plain : PlainTimestamps) (firstLine lastLine : Int) : PlainTimestamps :=
  let inside := fun entry : Entry =>
    firstLine ≤ plain.markers.line entry.marker && plain.markers.line entry.marker ≤ lastLine
  { plain with
    markers := fun marker =>
      if plain.entries.any fun entry => inside entry && entry.marker = marker then none
      else plain.markers marker
    entries := plain.entries.filter fun entry => !inside entry }

def timestampAt (plain : PlainTimestamps) (line : Int) : Option String :=
  match (plain.entries.filter fun entry => plain.markers.line entry.marker ≤ line).getLast? with
  | some entry => some entry.ts
  | none => plain.anchor

def visible (plain : PlainTimestamps) (viewportY rows : ℚ) : List VisibleTerminalTimestamp :=
  let firstLine := wholeNumber viewportY
  let count := wholeNumber rows
  if count = 0 then []
  else
    let ts := plain.timestampAt firstLine
    firstTimestamp firstLine ts ++
      laterTimestamps (fun entry => plain.markers.line entry.marker) Entry.ts firstLine count ts
        (plain.entries.filter fun entry => firstLine < plain.markers.line entry.marker)

def snapshot (plain : PlainTimestamps) : List (Int × String) :=
  plain.entries.map fun entry => (plain.markers.line entry.marker, entry.ts)

def step (limit : Nat) (plain : PlainTimestamps) :
    TimestampEvent → PlainTimestamps × List TimestampAnswer
  | .add marker ts =>
    let (added, plain) := plain.add limit marker ts
    (plain, [.flag added])
  | .removeRange firstLine lastLine => (plain.removeRange firstLine lastLine, [])
  | .moved line =>
    ({ plain with markers := fun marker => (plain.markers marker).map fun _ => line marker }, [])
  | .disposed marker => (plain.dispose marker, [])
  | .size => (plain, [.count plain.entries.length])
  | .has line => (plain, [.flag (plain.entries.any fun entry => plain.markers.line entry.marker = line)])
  | .timestampAt line => (plain, [.timestamp (plain.timestampAt line)])
  | .visible viewportY rows => (plain, [.rows (plain.visible viewportY rows)])
  | .snapshot => (plain, [.entries plain.snapshot])

def transducer (limit : Nat) : Transducer PlainTimestamps TimestampEvent TimestampAnswer :=
  ⟨step limit⟩

end PlainTimestamps

section Compaction

variable {markers : Markers} {index : TerminalTimestampIndex}

theorem releasePrefix_spec (inside : index.head ≤ index.entries.length) :
    index.releasePrefix.tail = index.tail ∧ index.releasePrefix.disposed = index.disposed ∧
      index.releasePrefix.anchor = index.anchor ∧
      index.releasePrefix.head ≤ index.releasePrefix.entries.length := by
  unfold TerminalTimestampIndex.releasePrefix
  split
  · exact ⟨rfl, rfl, rfl, Nat.zero_le _⟩
  · exact ⟨rfl, rfl, rfl, inside⟩

theorem passDisposed_spec (index : TerminalTimestampIndex) (items : List Entry) :
    index.passDisposed markers items =
      { entries := index.entries
        head := index.head + (items.takeWhile markers.gone).length
        disposed := index.disposed - (items.takeWhile markers.gone).length
        anchor := ((items.takeWhile markers.gone).getLast?.map Entry.ts).or index.anchor } := by
  induction items generalizing index with
  | nil => simp [TerminalTimestampIndex.passDisposed]
  | cons entry rest ih =>
    unfold TerminalTimestampIndex.passDisposed
    by_cases gone : markers.gone entry = true
    · have line : markers.line entry.marker < 0 := by
        unfold Markers.gone Markers.isDisposed at gone
        unfold Markers.line
        rw [Option.isNone_iff_eq_none.mp gone]
        decide
      rw [if_pos gone, if_pos line, ih, takeWhile_cons_of_pos gone, getLast?_cons]
      dsimp only
      rw [length_cons, natCast_succ]
      cases (rest.takeWhile markers.gone).getLast? with
      | none => simp [Int.sub_sub, Int.add_comm, Nat.add_assoc, Nat.add_comm]
      | some last => simp [Int.sub_sub, Int.add_comm, Nat.add_assoc, Nat.add_comm]
    · rw [if_neg gone, takeWhile_cons_of_neg gone]
      simp

variable (items : List Entry)

theorem scanTail_spec {disposed : Int} (enough : (items.countP markers.gone : Int) ≤ disposed) :
    TerminalTimestampIndex.scanTail markers disposed items =
      (items.filter fun entry => !markers.gone entry, disposed - items.countP markers.gone) := by
  induction items with
  | nil => simp [TerminalTimestampIndex.scanTail]
  | cons entry rest ih =>
    unfold TerminalTimestampIndex.scanTail
    by_cases gone : markers.gone entry = true
    · rw [countP_cons_of_pos gone, natCast_succ] at enough
      rw [ih (by omega), filter_cons_of_neg (by simp [gone]), countP_cons_of_pos gone]
      dsimp only
      rw [if_neg (by simp only [gone]; simp; omega), natCast_succ, Int.sub_sub]
    · rw [countP_cons_of_neg gone] at enough ⊢
      rw [ih enough, filter_cons_of_pos (by simp [gone])]
      dsimp only
      rw [if_pos (by simp [gone])]

theorem countP_dropWhile :
    items.countP markers.gone =
      (items.takeWhile markers.gone).length + (items.dropWhile markers.gone).countP markers.gone := by
  have all : (items.takeWhile markers.gone).countP markers.gone =
      (items.takeWhile markers.gone).length :=
    countP_eq_length.mpr fun _ => mem_takeWhile_imp
  rw [← all, ← countP_append, takeWhile_append_dropWhile]

theorem filter_dropWhile :
    (items.dropWhile markers.gone).filter (fun entry => !markers.gone entry) =
      items.filter fun entry => !markers.gone entry := by
  have none : (items.takeWhile markers.gone).filter (fun entry => !markers.gone entry) = [] :=
    filter_eq_nil_iff.mpr fun entry mem => by simp [mem_takeWhile_imp mem]
  have whole := @List.filter_append _ (fun entry => !markers.gone entry)
    (items.takeWhile markers.gone) (items.dropWhile markers.gone)
  rwa [takeWhile_append_dropWhile, none, nil_append, eq_comm] at whole

theorem drop_takeWhile :
    items.drop (items.takeWhile markers.gone).length = items.dropWhile markers.gone := by
  have cut := @drop_left _ (items.takeWhile markers.gone) (items.dropWhile markers.gone)
  rwa [takeWhile_append_dropWhile] at cut

theorem passDisposed_tail (inside : index.head ≤ index.entries.length)
    (counted : index.disposed = index.tail.countP markers.gone) :
    let passed := index.passDisposed markers index.tail
    passed.tail = index.tail.dropWhile markers.gone ∧
      passed.disposed = passed.tail.countP markers.gone ∧
      passed.anchor = ((index.tail.takeWhile markers.gone).getLast?.map Entry.ts).or index.anchor ∧
      passed.head ≤ passed.entries.length := by
  have gone : (index.tail.takeWhile markers.gone).length ≤ index.tail.length :=
    (List.takeWhile_prefix markers.gone).length_le
  have whole : index.tail.length = index.entries.length - index.head := length_drop
  have rest : index.entries.drop (index.head + (index.tail.takeWhile markers.gone).length) =
      index.tail.dropWhile markers.gone := by
    rw [← drop_drop]
    exact drop_takeWhile index.tail
  rw [passDisposed_spec]
  refine ⟨rest, ?_, rfl, ?_⟩
  · change index.disposed - _ = ((index.entries.drop _).countP markers.gone : Int)
    rw [rest, counted, countP_dropWhile]
    omega
  · dsimp only
    omega

theorem compact_spec (inside : index.head ≤ index.entries.length)
    (counted : index.disposed = index.tail.countP markers.gone) :
    (index.compact markers).tail = (index.tail.filter fun entry => !markers.gone entry) ∧
      (index.compact markers).disposed = 0 ∧
      (index.compact markers).anchor =
        ((index.tail.takeWhile markers.gone).getLast?.map Entry.ts).or index.anchor ∧
      (index.compact markers).head ≤ (index.compact markers).entries.length := by
  have untouched : ∀ items : List Entry, (items.countP markers.gone : Int) = 0 →
      items.takeWhile markers.gone = [] ∧ items.filter (fun entry => !markers.gone entry) = items := by
    intro items none
    have live := countP_eq_zero.mp (natCast_eq_zero.mp none)
    refine ⟨?_, filter_eq_self.mpr fun entry mem => by simpa using live entry mem⟩
    cases items with
    | nil => rfl
    | cons entry rest => exact takeWhile_cons_of_neg (live entry (.head _))
  unfold TerminalTimestampIndex.compact
  split
  next none =>
    obtain ⟨kept, all⟩ := untouched index.tail (by rw [← counted, none])
    rw [all, kept]
    exact ⟨rfl, none, rfl, inside⟩
  next =>
    obtain ⟨rest, left, anchor, bound⟩ := passDisposed_tail inside counted
    generalize index.passDisposed markers index.tail = passed at *
    rw [← filter_dropWhile, ← rest, ← anchor]
    dsimp only
    split
    next none =>
      obtain ⟨tail, disposed, same, fits⟩ := releasePrefix_spec bound
      refine ⟨tail.trans ?_, disposed.trans none, same, fits⟩
      exact (untouched passed.tail (by rw [← left, none])).2.symm
    next =>
      split
      · exact releasePrefix_spec (Nat.zero_le _)
      · rw [scanTail_spec passed.tail (Int.le_of_eq left.symm)]
        obtain ⟨tail, disposed, same, fits⟩ := @releasePrefix_spec
          { passed with
            entries := passed.entries.take passed.head ++
              passed.tail.filter fun entry => !markers.gone entry
            disposed := passed.disposed - passed.tail.countP markers.gone } (by
          rw [length_append, length_take_of_le bound]
          exact Nat.le_add_right _ _)
        refine ⟨tail.trans ?_, disposed.trans (by rw [left, Int.sub_self]), same, fits⟩
        exact drop_left' (length_take_of_le bound)

end Compaction

section Queries

variable {markers : Markers} {index : TerminalTimestampIndex}

/-- The entries of an index in the order of their lines. -/
def Sorted (markers : Markers) (entries : List Entry) : Prop :=
  entries.Pairwise fun a b => markers.line a.marker < markers.line b.marker

theorem Sorted.closed {entries : List Entry} (sorted : Sorted markers entries) (line : Int) :
    (entries.Pairwise fun a b => decide (markers.line b.marker < line) = true →
        decide (markers.line a.marker < line) = true) ∧
      entries.Pairwise fun a b => decide (markers.line b.marker ≤ line) = true →
        decide (markers.line a.marker ≤ line) = true := by
  constructor
  · refine sorted.imp fun {a b} order => ?_
    rw [decide_eq_true_iff, decide_eq_true_iff]
    omega
  · refine sorted.imp fun {a b} order => ?_
    rw [decide_eq_true_iff, decide_eq_true_iff]
    omega

theorem lowerBound_spec (inside : index.head ≤ index.entries.length)
    (sorted : Sorted markers index.tail) (line : Int) :
    index.lowerBound markers line =
      index.head + (index.tail.filter fun entry => markers.line entry.marker < line).length := by
  unfold TerminalTimestampIndex.lowerBound
  dsimp only
  split
  next last =>
    simp only [and_eq_true, decide_eq_true_eq, Option.any_eq_true] at last
    obtain ⟨some, entry, found, below⟩ := last
    have ends : index.tail.getLast? = .some entry := by
      rw [TerminalTimestampIndex.tail, getLast?_drop, if_neg (Nat.not_le_of_lt some),
        getLast?_eq_getElem?, found]
    obtain ⟨before, whole⟩ := getLast?_eq_some_iff.mp ends
    have all : index.tail.filter (fun entry => markers.line entry.marker < line) = index.tail := by
      refine filter_eq_self.mpr fun other mem => decide_eq_true ?_
      rw [whole] at mem sorted
      rcases mem_append.mp mem with earlier | same
      · exact Int.lt_trans ((pairwise_append.mp sorted).2.2 other earlier entry (by simp)) below
      · rwa [mem_singleton.mp same]
    rw [all, TerminalTimestampIndex.tail, length_drop]
    omega
  next => exact bisect_filter inside (sorted.closed line).1

theorem upperBound_spec (inside : index.head ≤ index.entries.length)
    (sorted : Sorted markers index.tail) (line : Int) :
    index.upperBound markers line =
      index.head + (index.tail.filter fun entry => markers.line entry.marker ≤ line).length :=
  bisect_filter inside (sorted.closed line).2

theorem filter_below {α : Type} (lineOf : α → Int) (entries : List α) (line : Int) :
    (entries.filter fun entry => !decide (lineOf entry ≤ line)) =
      entries.filter fun entry => line < lineOf entry := by
  refine congrArg (fun keep => List.filter keep entries) (funext fun entry => ?_)
  rw [← decide_not]
  exact decide_eq_decide.mpr Int.not_le

theorem filter_from (entries : List Entry) (line : Int) :
    (entries.filter fun entry => !decide (markers.line entry.marker < line)) =
      entries.filter fun entry => line ≤ markers.line entry.marker := by
  refine congrArg (fun keep => List.filter keep entries) (funext fun entry => ?_)
  rw [← decide_not]
  exact decide_eq_decide.mpr Int.not_lt

theorem lowerBound_entry (inside : index.head ≤ index.entries.length)
    (sorted : Sorted markers index.tail) (line : Int) :
    index.entries[index.lowerBound markers line]? =
      (index.tail.filter fun entry => line ≤ markers.line entry.marker).head? := by
  rw [lowerBound_spec inside sorted, ← getElem?_drop]
  change index.tail[_]? = _
  nth_rewrite 1 [← filter_split (sorted.closed line).1]
  rw [getElem?_append_right (Nat.le_refl _), Nat.sub_self, filter_from, head?_eq_getElem?]

theorem has_spec (inside : index.head ≤ index.entries.length) (sorted : Sorted markers index.tail)
    (line : Int) :
    index.has markers line = index.tail.any fun entry => markers.line entry.marker = line := by
  rw [TerminalTimestampIndex.has, lowerBound_entry inside sorted]
  have same : (index.tail.any fun entry => decide (markers.line entry.marker = line)) =
      (index.tail.filter fun entry => line ≤ markers.line entry.marker).any
        fun entry => decide (markers.line entry.marker = line) := by
    rw [any_filter]
    refine congrArg (fun test => List.any index.tail test) (funext fun entry => ?_)
    by_cases here : markers.line entry.marker = line
    · simp [here]
    · simp [here]
  have rising := sorted.filter fun entry => line ≤ markers.line entry.marker
  have least : ∀ entry ∈ index.tail.filter fun entry => line ≤ markers.line entry.marker,
      line ≤ markers.line entry.marker := fun entry mem => by simpa using (mem_filter.mp mem).2
  rw [same]
  generalize (index.tail.filter fun entry => line ≤ markers.line entry.marker) = rest at *
  cases rest with
  | nil => rfl
  | cons first rest =>
    have later : (rest.any fun entry => decide (markers.line entry.marker = line)) = false := by
      refine any_eq_false.mpr fun entry mem => ?_
      have order := (pairwise_cons.mp rising).1 entry mem
      have bound := least first (.head _)
      rw [decide_eq_true_iff]
      omega
    rw [head?_cons, Option.any_some, any_cons, later, Bool.or_false]

theorem upperBound_entry (inside : index.head ≤ index.entries.length)
    (sorted : Sorted markers index.tail) (line : Int) :
    let bound := index.upperBound markers line
    (if index.head < bound then (index.entries[bound - 1]?).map Entry.ts else index.anchor) =
        (PlainTimestamps.mk markers index.tail index.anchor).timestampAt line ∧
      index.entries.drop bound =
        index.tail.filter fun entry => line < markers.line entry.marker := by
  dsimp only
  rw [upperBound_spec inside sorted line]
  obtain ⟨last, rest⟩ := @split_at_bound _ _ index.entries index.head (sorted.closed line).2
  refine ⟨?_, rest.trans (filter_below _ index.tail line)⟩
  unfold PlainTimestamps.timestampAt
  change _ = match (index.tail.filter _).getLast? with | some entry => _ | none => _
  rw [TerminalTimestampIndex.tail, ← last]
  have fits : ((index.entries.drop index.head).filter fun entry =>
      decide (markers.line entry.marker ≤ line)).length ≤ (index.entries.drop index.head).length :=
    filter_sublist.length_le
  rw [length_drop] at fits
  generalize ((index.entries.drop index.head).filter fun entry =>
    decide (markers.line entry.marker ≤ line)).length = count at fits
  split
  next below =>
    rw [getElem?_eq_getElem (by omega)]
    rfl
  next => rfl

theorem visible_spec (inside : index.head ≤ index.entries.length)
    (sorted : Sorted markers index.tail) (viewportY rows : ℚ) :
    index.visible markers viewportY rows =
      (PlainTimestamps.mk markers index.tail index.anchor).visible viewportY rows := by
  unfold TerminalTimestampIndex.visible PlainTimestamps.visible
  dsimp only
  obtain ⟨first, later⟩ := upperBound_entry inside sorted (wholeNumber viewportY)
  rw [first, later]

theorem laterTimestamps_map {α β : Type} (f : α → β) (lineOf : β → Int) (timestampOf : β → String)
    (firstLine count : Int) (ts : Option String) (entries : List α) :
    laterTimestamps lineOf timestampOf firstLine count ts (entries.map f) =
      laterTimestamps (lineOf ∘ f) (timestampOf ∘ f) firstLine count ts entries := by
  induction entries generalizing ts with
  | nil => rfl
  | cons entry rest ih =>
    rw [map_cons, laterTimestamps, laterTimestamps, ih, ih]
    rfl

theorem visibleSorted_eq {α : Type} (lineOf : α → Int) (timestampOf : α → String) {entries : List α}
    (sorted : entries.Pairwise fun a b => lineOf a < lineOf b) (viewportY rows : ℚ)
    (anchor : Option String) :
    let firstLine := wholeNumber viewportY
    let count := wholeNumber rows
    let ts := match (entries.filter fun entry => lineOf entry ≤ firstLine).getLast? with
      | some entry => some (timestampOf entry)
      | none => anchor
    visibleSortedTerminalTimestamps lineOf timestampOf entries viewportY rows anchor =
      if count = 0 then []
      else
        firstTimestamp firstLine ts ++ laterTimestamps lineOf timestampOf firstLine count ts
          (entries.filter fun entry => firstLine < lineOf entry) := by
  unfold visibleSortedTerminalTimestamps
  dsimp only
  have closed : (entries.drop 0).Pairwise fun a b =>
      decide (lineOf b ≤ wholeNumber viewportY) = true →
        decide (lineOf a ≤ wholeNumber viewportY) = true := by
    refine sorted.imp fun {a b} order => ?_
    rw [decide_eq_true_iff, decide_eq_true_iff]
    omega
  have place := bisect_filter (Nat.zero_le _) closed
  obtain ⟨last, rest⟩ := split_at_bound closed
  rw [Nat.sub_zero, Nat.zero_add, drop_zero] at place
  rw [Nat.zero_add, drop_zero] at last rest
  rw [place, rest, filter_below, ← last]
  have fits : (entries.filter fun entry => decide (lineOf entry ≤ wholeNumber viewportY)).length ≤
      entries.length := filter_sublist.length_le
  generalize (entries.filter fun entry =>
    decide (lineOf entry ≤ wholeNumber viewportY)).length = count at fits
  split
  · rfl
  · split
    · rw [getElem?_eq_getElem (by omega)]
      rfl
    · rfl

theorem visibleSorted_spec {plain : PlainTimestamps} (sorted : Sorted plain.markers plain.entries)
    (viewportY rows : ℚ) :
    visibleSortedTerminalTimestamps fst snd plain.snapshot viewportY rows plain.anchor =
      plain.visible viewportY rows := by
  have rising : plain.snapshot.Pairwise fun a b => a.1 < b.1 := pairwise_map.mpr sorted
  rw [visibleSorted_eq fst snd rising]
  unfold PlainTimestamps.visible PlainTimestamps.timestampAt PlainTimestamps.snapshot
  rw [filter_map, filter_map, getLast?_map, laterTimestamps_map]
  dsimp only [Function.comp_def]
  cases (plain.entries.filter fun entry =>
    decide (plain.markers.line entry.marker ≤ wholeNumber viewportY)).getLast? with
  | none => rfl
  | some entry => rfl

end Queries

/-- The index and the plain list describe the same timestamps. What the index has not cleaned up yet
is among the entries from its head on. -/
structure Refines (terminal : IndexedTerminal) (plain : PlainTimestamps) : Prop where
  markers : plain.markers = terminal.markers
  inside : terminal.index.head ≤ terminal.index.entries.length
  entries : plain.entries =
    terminal.index.tail.filter fun entry => !terminal.markers.gone entry
  counted : terminal.index.disposed = terminal.index.tail.countP terminal.markers.gone
  apart : (terminal.index.tail.map Entry.marker).Nodup
  sorted : Sorted terminal.markers plain.entries
  anchor : plain.anchor =
    ((terminal.index.tail.takeWhile terminal.markers.gone).getLast?.map Entry.ts).or
      terminal.index.anchor

structure Settled (terminal : IndexedTerminal) (plain : PlainTimestamps) : Prop where
  markers : plain.markers = terminal.markers
  inside : terminal.index.head ≤ terminal.index.entries.length
  entries : plain.entries = terminal.index.tail
  live : ∀ entry ∈ terminal.index.tail, terminal.markers.gone entry = false
  disposed : terminal.index.disposed = 0
  apart : (terminal.index.tail.map Entry.marker).Nodup
  sorted : Sorted terminal.markers terminal.index.tail
  anchor : plain.anchor = terminal.index.anchor

section Steps

variable {terminal : IndexedTerminal} {plain : PlainTimestamps}

variable {markers : Markers} {entries : List Entry}

theorem takeWhile_live (live : ∀ entry ∈ entries, markers.gone entry = false) :
    entries.takeWhile markers.gone = [] := by
  cases entries with
  | nil => rfl
  | cons entry rest => exact takeWhile_cons_of_neg (by simp [live entry (.head _)])

theorem Settled.refines (settled : Settled terminal plain) : Refines terminal plain where
  markers := settled.markers
  inside := settled.inside
  entries := by
    rw [settled.entries, eq_comm, filter_eq_self]
    intro entry mem
    rw [settled.live entry mem]
    rfl
  counted := by
    have none : terminal.index.tail.countP terminal.markers.gone = 0 :=
      countP_eq_zero.mpr fun entry mem => by simp [settled.live entry mem]
    rw [settled.disposed, none]
    rfl
  apart := settled.apart
  sorted := by
    rw [settled.entries]
    exact settled.sorted
  anchor := by
    rw [settled.anchor, takeWhile_live settled.live]
    rfl

theorem Refines.compact (refines : Refines terminal plain) : Settled terminal.compact plain := by
  obtain ⟨tail, disposed, anchor, inside⟩ := compact_spec refines.inside refines.counted
  have entries : plain.entries = terminal.compact.index.tail := refines.entries.trans tail.symm
  refine ⟨refines.markers, inside, entries, ?_, disposed, ?_, ?_, refines.anchor.trans anchor.symm⟩
  · intro entry mem
    change entry ∈ (terminal.index.compact terminal.markers).tail at mem
    rw [tail] at mem
    exact (not_eq_true' _).mp (mem_filter.mp mem).2
  · change ((terminal.index.compact terminal.markers).tail.map Entry.marker).Nodup
    rw [tail]
    exact refines.apart.sublist (filter_sublist.map _)
  · rw [← entries]
    exact refines.sorted

theorem gone_without (markers : Markers) (marker : Nat) (entry : Entry) :
    (markers.without marker).gone entry = (markers.gone entry || decide (entry.marker = marker)) := by
  unfold Markers.gone Markers.isDisposed Markers.without
  split
  next same => simp [same]
  next other => simp [other]

theorem line_without {marker other : Nat} (apart : other ≠ marker) :
    (markers.without marker).line other = markers.line other := by
  unfold Markers.line Markers.without
  rw [if_neg apart]

theorem Sorted.without (sorted : Sorted markers entries) (marker : Nat) :
    Sorted (markers.without marker) (entries.filter fun entry => entry.marker ≠ marker) := by
  refine (List.Pairwise.filter _ sorted).imp_of_mem fun {a b} left right order => ?_
  have other : ∀ {entry : Entry}, entry ∈ entries.filter (fun entry => entry.marker ≠ marker) →
      entry.marker ≠ marker := fun mem => by simpa using (mem_filter.mp mem).2
  rwa [line_without (other left), line_without (other right)]

variable {marker : Nat}

theorem without_disposed (gone : markers.isDisposed marker = true) :
    markers.without marker = markers := by
  funext other
  unfold Markers.without
  split
  next same =>
    subst same
    exact (Option.isNone_iff_eq_none.mp gone).symm
  next => rfl

/-- No entry that is disposed already stands right behind the first live one; or the last of those
has its timestamp. -/
def Untangled (terminal : IndexedTerminal) (marker : Nat) : Prop :=
  ∀ entry rest, terminal.index.tail.dropWhile terminal.markers.gone = entry :: rest →
    entry.marker = marker →
      ∀ last ∈ (rest.takeWhile terminal.markers.gone).getLast?, last.ts = entry.ts

theorem takeWhile_without (absent : ∀ entry ∈ entries, entry.marker ≠ marker) :
    entries.takeWhile (markers.without marker).gone = entries.takeWhile markers.gone := by
  induction entries with
  | nil => rfl
  | cons entry rest ih =>
    have same : (markers.without marker).gone entry = markers.gone entry := by
      rw [gone_without, decide_eq_false (absent entry (.head _)), Bool.or_false]
    rw [takeWhile_cons, takeWhile_cons, same,
      ih fun other mem => absent other (.tail _ mem)]

theorem countP_without (live : markers.isDisposed marker = false) (entries : List Entry) :
    entries.countP (markers.without marker).gone =
      entries.countP markers.gone + entries.countP fun entry => entry.marker = marker := by
  induction entries with
  | nil => rfl
  | cons entry rest ih =>
    rw [countP_cons, countP_cons, countP_cons, ih, gone_without]
    by_cases same : entry.marker = marker
    · have stays : markers.gone entry = false := by rw [Markers.gone, same, live]
      simp [stays, same]
      omega
    · simp [same]
      omega

theorem Refines.dispose (refines : Refines terminal plain) (untangled : Untangled terminal marker) :
    Refines (terminal.dispose marker) (plain.dispose marker) := by
  have live : ∀ entry ∈ plain.entries, terminal.markers.gone entry = false := by
    intro entry mem
    rw [refines.entries] at mem
    exact (not_eq_true' _).mp (mem_filter.mp mem).2
  unfold IndexedTerminal.dispose
  split
  next gone =>
    have absent : ∀ entry ∈ plain.entries, entry.marker ≠ marker := by
      rintro entry mem rfl
      have stays := live entry mem
      rw [Markers.gone, gone] at stays
      cases stays
    have same : plain.dispose marker = plain := by
      obtain ⟨markers, entries, anchor⟩ := plain
      unfold PlainTimestamps.dispose
      have old : markers.without marker = markers := by
        obtain rfl : markers = _ := refines.markers
        exact without_disposed gone
      have kept : entries.filter (fun entry => entry.marker ≠ marker) = entries :=
        filter_eq_self.mpr fun entry mem => decide_eq_true (absent entry mem)
      dsimp only
      rw [old, kept]
      cases entries with
      | nil => rfl
      | cons entry rest =>
        dsimp only
        rw [if_neg (absent entry (.head _))]
    rw [same]
    exact refines
  next stays =>
    have known : terminal.markers.isDisposed marker = false := by simpa using stays
    refine ⟨?_, refines.inside, ?_, ?_, refines.apart, ?_, ?_⟩
    · exact congrArg (fun markers => Markers.without markers marker) refines.markers
    · change plain.entries.filter _ = terminal.index.tail.filter _
      rw [refines.entries, filter_filter]
      refine congrArg (fun keep => List.filter keep _) (funext fun entry => ?_)
      rw [gone_without, Bool.not_or, Bool.and_comm, ← decide_not]
    · change terminal.index.disposed + _ = ((terminal.index.tail.countP _ : Nat) : Int)
      rw [refines.counted, countP_without known]
      omega
    · exact refines.sorted.without marker
    · change (match plain.entries with
          | [] => plain.anchor
          | entry :: _ => if entry.marker = marker then some entry.ts else plain.anchor) =
        ((terminal.index.tail.takeWhile (terminal.markers.without marker).gone).getLast?.map
          Entry.ts).or terminal.index.anchor
      have front : ∀ entry ∈ terminal.index.tail.takeWhile terminal.markers.gone,
          (terminal.markers.without marker).gone entry = true := by
        intro entry mem
        rw [gone_without, mem_takeWhile_imp mem, Bool.true_or]
      have split := @takeWhile_append_of_pos _ (terminal.markers.without marker).gone _
        (terminal.index.tail.dropWhile terminal.markers.gone) front
      rw [takeWhile_append_dropWhile] at split
      rw [split, refines.entries, ← filter_dropWhile, refines.anchor]
      cases behind : terminal.index.tail.dropWhile terminal.markers.gone with
      | nil =>
        rw [takeWhile_nil, append_nil]
        rfl
      | cons entry rest =>
        have stays : terminal.markers.gone entry = false := by
          have head := head?_dropWhile_not terminal.markers.gone terminal.index.tail
          rw [behind] at head
          simpa using head
        rw [filter_cons_of_pos (by simp [stays])]
        dsimp only
        by_cases same : entry.marker = marker
        · have absent : ∀ other ∈ rest, other.marker ≠ marker := by
            intro other mem again
            have distinct := refines.apart
            rw [← takeWhile_append_dropWhile (p := terminal.markers.gone)
              (l := terminal.index.tail), behind, map_append] at distinct
            have later := (nodup_append.mp distinct).2.1
            refine (nodup_cons.mp later).1 (mem_map.mpr ⟨other, mem, ?_⟩)
            rw [again, same]
          rw [if_pos same, takeWhile_cons_of_pos (by rw [gone_without, same]; simp),
            takeWhile_without absent,
            getLast?_append, getLast?_cons]
          have ts := untangled entry rest behind same
          cases last : (rest.takeWhile terminal.markers.gone).getLast? with
          | none => rfl
          | some last_ =>
            have equal := ts last_ last
            simp [equal]
        · rw [if_neg same, takeWhile_cons_of_neg (by rw [gone_without, stays]; simp [same]),
            append_nil]

theorem Settled.dispose (settled : Settled terminal plain) (marker : Nat) :
    Refines (terminal.dispose marker) (plain.dispose marker) := by
  refine settled.refines.dispose fun entry rest behind _ last mem => ?_
  have live : ∀ other ∈ rest, terminal.markers.gone other = false := by
    intro other inside
    have kept : List.Sublist (entry :: rest) terminal.index.tail :=
      behind ▸ (dropWhile_suffix _).sublist
    exact settled.live other (kept.subset (.tail _ inside))
  rw [takeWhile_live live] at mem
  cases mem

theorem Settled.trim (limit : Nat) {items : List Entry} (settled : Settled terminal plain)
    (tail : terminal.index.tail = items) :
    Settled (IndexedTerminal.trim limit terminal items) (plain.trim limit items) := by
  induction items generalizing terminal plain with
  | nil => exact settled
  | cons removed rest ih =>
    unfold IndexedTerminal.trim PlainTimestamps.trim
    split
    · have rest_eq : terminal.index.entries.drop (terminal.index.head + 1) = rest := by
        rw [← drop_drop]
        change terminal.index.tail.drop 1 = rest
        rw [tail]
        rfl
      have inside : terminal.index.head + 1 ≤ terminal.index.entries.length := by
        have length : terminal.index.tail.length = _ := length_drop
        rw [tail, length_cons] at length
        omega
      have known : terminal.markers.isDisposed removed.marker = false :=
        settled.live removed (by rw [tail]; exact .head _)
      have distinct := settled.apart
      rw [tail, map_cons, nodup_cons] at distinct
      have absent : ∀ entry ∈ rest, entry.marker ≠ removed.marker := fun entry mem same =>
        distinct.1 (mem_map.mpr ⟨entry, mem, same⟩)
      have kept : rest.filter (fun entry => entry.marker ≠ removed.marker) = rest :=
        filter_eq_self.mpr fun entry mem => decide_eq_true (absent entry mem)
      have none : rest.countP (fun entry => entry.marker = removed.marker) = 0 :=
        countP_eq_zero.mpr fun entry mem => by simpa using absent entry mem
      unfold IndexedTerminal.dispose
      rw [if_neg (by simp [known])]
      refine ih ⟨?_, inside, ?_, ?_, ?_, ?_, ?_, ?_⟩ rest_eq
      · exact congrArg (fun markers => Markers.without markers removed.marker) settled.markers
      · change plain.entries.filter _ = _
        rw [settled.entries, tail, filter_cons_of_neg (by simp), kept]
        exact rest_eq.symm
      · intro entry mem
        change entry ∈ terminal.index.entries.drop (terminal.index.head + 1) at mem
        rw [rest_eq] at mem
        have live := settled.live entry (by rw [tail]; exact .tail _ mem)
        rw [gone_without, live, decide_eq_false (absent entry mem)]
        rfl
      · change terminal.index.disposed + (((terminal.index.entries.drop
          (terminal.index.head + 1)).countP _ : Nat) : Int) = 0
        rw [rest_eq, none, settled.disposed]
        rfl
      · change ((terminal.index.entries.drop (terminal.index.head + 1)).map _).Nodup
        rw [rest_eq]
        exact distinct.2
      · change Sorted _ (terminal.index.entries.drop (terminal.index.head + 1))
        rw [rest_eq, ← kept]
        refine Sorted.without ?_ _
        have sorted := settled.sorted
        rw [tail] at sorted
        exact (pairwise_cons.mp sorted).2
      · change (match plain.entries with
            | [] => plain.anchor
            | entry :: _ => if entry.marker = removed.marker then some entry.ts else plain.anchor) =
          some removed.ts
        rw [settled.entries, tail]
        exact if_pos rfl
    · exact settled

theorem Settled.trimmed (limit : Nat) (settled : Settled terminal plain) :
    Settled (IndexedTerminal.trim limit terminal terminal.index.tail)
      (plain.trim limit plain.entries) := by
  rw [settled.entries]
  exact settled.trim limit rfl

theorem Settled.released (settled : Settled terminal plain) :
    Settled { terminal with index := terminal.index.releasePrefix } plain := by
  obtain ⟨tail, disposed, anchor, inside⟩ := releasePrefix_spec settled.inside
  refine ⟨settled.markers, inside, settled.entries.trans tail.symm, ?_,
    disposed.trans settled.disposed, ?_, ?_, settled.anchor.trans anchor.symm⟩
  · dsimp only
    rw [tail]
    exact settled.live
  · dsimp only
    rw [tail]
    exact settled.apart
  · dsimp only
    rw [tail]
    exact settled.sorted

theorem Settled.insert (settled : Settled terminal plain) (ts : String)
    (live : terminal.markers.isDisposed marker = false)
    (fresh : ∀ entry ∈ terminal.index.tail, terminal.markers.line entry.marker ≠ terminal.markers.line marker) :
    let place := terminal.index.lowerBound terminal.markers (terminal.markers.line marker)
    let entry : Entry := { marker := marker, ts := ts }
    Settled
      { terminal with index := { terminal.index with
          entries := terminal.index.entries.take place ++ entry ::
            terminal.index.entries.drop place } }
      { plain with
        entries := (plain.entries.filter fun entry =>
            plain.markers.line entry.marker < plain.markers.line marker) ++ entry ::
          plain.entries.filter fun entry =>
            plain.markers.line marker < plain.markers.line entry.marker } := by
  intro place entry
  have split := filter_split (settled.sorted.closed (terminal.markers.line marker)).1
  have spot : place = _ := lowerBound_spec settled.inside settled.sorted (terminal.markers.line marker)
  have fits : (terminal.index.tail.filter fun entry =>
      terminal.markers.line entry.marker < terminal.markers.line marker).length ≤
        terminal.index.tail.length := filter_sublist.length_le
  have whole : terminal.index.tail.length = _ := length_drop
  have inside := settled.inside
  have bound : place ≤ terminal.index.entries.length := by omega
  have front : (terminal.index.entries.take place).drop terminal.index.head =
      terminal.index.tail.filter fun entry =>
        terminal.markers.line entry.marker < terminal.markers.line marker := by
    rw [drop_take, spot, Nat.add_sub_cancel_left]
    change terminal.index.tail.take _ = _
    nth_rewrite 2 [← split]
    exact take_left
  have back : terminal.index.entries.drop place =
      terminal.index.tail.filter fun entry =>
        terminal.markers.line marker < terminal.markers.line entry.marker := by
    have rest := (split_at_bound (settled.sorted.closed (terminal.markers.line marker)).1).2
    rw [spot]
    refine rest.trans (filter_congr fun other mem => ?_)
    have apart := fresh other mem
    rw [← decide_not]
    exact decide_eq_decide.mpr (by omega)
  have tail : (terminal.index.entries.take place ++ entry ::
      terminal.index.entries.drop place).drop terminal.index.head =
        (terminal.index.tail.filter fun entry =>
          terminal.markers.line entry.marker < terminal.markers.line marker) ++ entry ::
            terminal.index.tail.filter fun entry =>
              terminal.markers.line marker < terminal.markers.line entry.marker := by
    rw [drop_append_of_le_length (by rw [length_take_of_le bound]; omega), front, back]
  have members : ∀ other, other ∈ (terminal.index.tail.filter fun entry =>
      terminal.markers.line entry.marker < terminal.markers.line marker) ++ entry ::
        terminal.index.tail.filter (fun entry =>
          terminal.markers.line marker < terminal.markers.line entry.marker) →
      other = entry ∨ other ∈ terminal.index.tail := by
    intro other mem
    rcases mem_append.mp mem with below | mem
    · exact .inr (mem_filter.mp below).1
    · rcases mem_cons.mp mem with same | above
      · exact .inl same
      · exact .inr (mem_filter.mp above).1
  have rising : Sorted terminal.markers ((terminal.index.tail.filter fun entry =>
      terminal.markers.line entry.marker < terminal.markers.line marker) ++ entry ::
        terminal.index.tail.filter fun entry =>
          terminal.markers.line marker < terminal.markers.line entry.marker) := by
    refine pairwise_append.mpr ⟨List.Pairwise.filter _ settled.sorted,
      pairwise_cons.mpr ⟨fun other mem => ?_, List.Pairwise.filter _ settled.sorted⟩,
      fun other mem next later => ?_⟩
    · simpa using (mem_filter.mp mem).2
    · have below : terminal.markers.line other.marker < terminal.markers.line marker := by
        simpa using (mem_filter.mp mem).2
      rcases mem_cons.mp later with rfl | above
      · exact below
      · have above : terminal.markers.line marker < terminal.markers.line next.marker := by
          simpa using (mem_filter.mp above).2
        exact Int.lt_trans below above
  refine ⟨settled.markers, ?_, ?_, ?_, settled.disposed, ?_, ?_, settled.anchor⟩
  · dsimp only
    rw [length_append, length_take_of_le bound]
    omega
  · dsimp only
    rw [settled.markers, settled.entries]
    exact tail.symm
  · intro other mem
    change other ∈ List.drop _ _ at mem
    rw [tail] at mem
    rcases members other mem with rfl | old
    · exact live
    · exact settled.live other old
  · change ((List.drop _ _).map Entry.marker).Nodup
    rw [tail]
    refine pairwise_map.mpr (rising.imp fun {a b} order same => ?_)
    rw [same] at order
    exact Int.lt_irrefl _ order
  · change Sorted _ (List.drop _ _)
    rw [tail]
    exact rising

theorem Refines.add (refines : Refines terminal plain) (limit marker : Nat) (ts : String) :
    (terminal.add limit marker ts).1 = (plain.add limit marker ts).1 ∧
      Refines (terminal.add limit marker ts).2 (plain.add limit marker ts).2 := by
  have settled := refines.compact
  unfold IndexedTerminal.add PlainTimestamps.add
  generalize terminal.compact = terminal at *
  dsimp only
  rw [settled.markers]
  split
  next refused =>
    rw [refused, Bool.true_or, if_pos rfl]
    exact ⟨rfl, settled.dispose marker⟩
  next admitted =>
    have known : (terminal.markers.isDisposed marker || decide (terminal.markers.line marker < 0)) =
        false := by simpa using admitted
    have taken := has_spec settled.inside settled.sorted (terminal.markers.line marker)
    unfold TerminalTimestampIndex.has at taken
    rw [known, Bool.false_or, taken, settled.entries]
    split
    next => exact ⟨rfl, settled.dispose marker⟩
    next free =>
      have fresh : ∀ entry ∈ terminal.index.tail,
          terminal.markers.line entry.marker ≠ terminal.markers.line marker := by
        simpa using free
      have live : terminal.markers.isDisposed marker = false := by
        rw [or_eq_false_iff] at known
        exact known.1
      have inserted := settled.insert ts live fresh
      have trimmed := inserted.trimmed limit
      rw [settled.markers, settled.entries] at trimmed
      exact ⟨rfl, trimmed.released.refines⟩

theorem dispose_removed (removed : List Entry) {terminal : IndexedTerminal}
    (absent : ∀ gone ∈ removed, ∀ entry ∈ terminal.index.tail, entry.marker ≠ gone.marker) :
    removed.foldl (fun terminal entry => terminal.dispose entry.marker) terminal =
      { markers := fun marker =>
          if removed.any fun entry => entry.marker = marker then none else terminal.markers marker
        index := terminal.index } := by
  induction removed generalizing terminal with
  | nil => rfl
  | cons gone rest ih =>
    have none : terminal.index.tail.countP (fun entry => entry.marker = gone.marker) = 0 :=
      countP_eq_zero.mpr fun entry mem => by simpa using absent gone (.head _) entry mem
    have disposed : terminal.dispose gone.marker =
        { terminal with markers := terminal.markers.without gone.marker } := by
      unfold IndexedTerminal.dispose
      split
      next already => rw [without_disposed already]
      next => rw [none, Int.natCast_zero, Int.add_zero]
    have later := @ih { terminal with markers := terminal.markers.without gone.marker }
      fun other mem => absent other (.tail _ mem)
    rw [foldl_cons, disposed, later]
    refine congrArg (fun markers => IndexedTerminal.mk markers terminal.index) (funext fun marker => ?_)
    rw [any_cons]
    unfold Markers.without
    by_cases same : gone.marker = marker
    · simp [same]
    · have other : ¬ marker = gone.marker := fun again => same again.symm
      simp [same, other]

theorem filter_range (sorted : Sorted markers entries) {firstLine lastLine : Int}
    (order : firstLine ≤ lastLine) :
    (entries.filter fun entry => markers.line entry.marker ≤ lastLine) =
      (entries.filter fun entry => markers.line entry.marker < firstLine) ++
        entries.filter fun entry =>
          firstLine ≤ markers.line entry.marker && markers.line entry.marker ≤ lastLine := by
  have low := filter_split (sorted.closed firstLine).1
  rw [filter_from] at low
  nth_rewrite 1 [← low]
  rw [List.filter_append, filter_filter, filter_filter]
  refine congr (congrArg _ ?_) ?_
  · refine filter_congr fun entry _ => ?_
    rw [and_eq_decide]
    refine decide_eq_decide.mpr ?_
    rw [decide_eq_true_iff, decide_eq_true_iff]
    omega
  · exact filter_congr fun entry _ => Bool.and_comm _ _

theorem filter_outside (sorted : Sorted markers entries) {firstLine lastLine : Int}
    (order : firstLine ≤ lastLine) :
    (entries.filter fun entry => !(decide (firstLine ≤ markers.line entry.marker) &&
        decide (markers.line entry.marker ≤ lastLine))) =
      (entries.filter fun entry => markers.line entry.marker < firstLine) ++
        entries.filter fun entry => lastLine < markers.line entry.marker := by
  have high := filter_split (sorted.closed lastLine).2
  rw [filter_below, filter_range sorted order, append_assoc] at high
  have low : ∀ entry ∈ entries.filter (fun entry =>
      markers.line entry.marker < firstLine),
      (!(decide (firstLine ≤ markers.line entry.marker) &&
        decide (markers.line entry.marker ≤ lastLine))) = true := by
    intro entry mem
    have below : markers.line entry.marker < firstLine := by
      simpa using (mem_filter.mp mem).2
    simp [below]
  have none : ∀ entry ∈ entries.filter (fun entry =>
      decide (firstLine ≤ markers.line entry.marker) &&
        decide (markers.line entry.marker ≤ lastLine)),
      ¬ (!(decide (firstLine ≤ markers.line entry.marker) &&
        decide (markers.line entry.marker ≤ lastLine))) = true := by
    intro entry mem
    rw [(mem_filter.mp mem).2]
    exact Bool.false_ne_true
  have above : ∀ entry ∈ entries.filter (fun entry =>
      lastLine < markers.line entry.marker),
      (!(decide (firstLine ≤ markers.line entry.marker) &&
        decide (markers.line entry.marker ≤ lastLine))) = true := by
    intro entry mem
    have above : lastLine < markers.line entry.marker := by
      simpa using (mem_filter.mp mem).2
    simp [above]
  nth_rewrite 1 [← high]
  rw [List.filter_append, List.filter_append, filter_eq_self.mpr low,
    filter_eq_nil_iff.mpr none, filter_eq_self.mpr above, nil_append]

theorem Settled.cut (settled : Settled terminal plain) {before middle behind : List Entry}
    (whole : terminal.index.tail = before ++ (middle ++ behind)) :
    let first := terminal.index.head + before.length
    let past := terminal.index.head + (before.length + middle.length)
    (terminal.index.entries.drop first).take (past - first) = middle ∧
      Settled
        (middle.foldl (fun terminal entry => terminal.dispose entry.marker)
          { terminal with
            index := { terminal.index with
              entries := terminal.index.entries.take first ++ terminal.index.entries.drop past } })
        { plain with
          markers := fun marker =>
            if middle.any fun entry => entry.marker = marker then none else plain.markers marker
          entries := before ++ behind } := by
  intro first past
  have length : terminal.index.tail.length = _ := length_drop
  rw [whole, length_append, length_append] at length
  have inside := settled.inside
  have bound : first ≤ terminal.index.entries.length := by omega
  have drops : terminal.index.entries.drop first = middle ++ behind := by
    have cut := @drop_left _ before (middle ++ behind)
    rw [← whole, TerminalTimestampIndex.tail, drop_drop] at cut
    exact cut
  have rest : terminal.index.entries.drop past = behind := by
    have cut := @drop_left _ middle behind
    rw [← drops, drop_drop, Nat.add_assoc] at cut
    exact cut
  have front : (terminal.index.entries.take first).drop terminal.index.head = before := by
    rw [drop_take, Nat.add_sub_cancel_left]
    change terminal.index.tail.take _ = _
    rw [whole, take_left]
  have tail : (terminal.index.entries.take first ++ terminal.index.entries.drop past).drop
      terminal.index.head = before ++ behind := by
    rw [drop_append_of_le_length (by rw [length_take_of_le bound]; omega), front, rest]
  have kept : List.Sublist (before ++ behind) terminal.index.tail := by
    rw [whole]
    exact List.Sublist.append_left (sublist_append_right _ _) before
  have distinct := settled.apart
  rw [whole] at distinct
  have absent : ∀ gone ∈ middle, ∀ entry ∈ before ++ behind, entry.marker ≠ gone.marker := by
    rw [map_append, map_append, nodup_append, nodup_append] at distinct
    intro gone mem entry other same
    rcases mem_append.mp other with early | late
    · refine distinct.2.2 _ (mem_map_of_mem early) _ (mem_append_left _ ?_) same
      exact mem_map_of_mem mem
    · exact distinct.2.1.2.2 _ (mem_map_of_mem mem) _ (mem_map_of_mem late) same.symm
  have alive : ∀ entry ∈ before ++ behind,
      (middle.any fun gone => gone.marker = entry.marker) = false := by
    intro entry mem
    refine any_eq_false.mpr fun gone removed => ?_
    rw [decide_eq_true_iff]
    exact fun same => absent gone removed entry mem same.symm
  refine ⟨?_, ?_⟩
  · rw [drops, Nat.add_sub_add_left, Nat.add_sub_cancel_left]
    exact take_left
  · rw [dispose_removed middle (by
      change ∀ gone ∈ middle, ∀ entry ∈ List.drop _ _, _
      rw [tail]
      exact absent)]
    refine ⟨?_, ?_, tail.symm, ?_, settled.disposed, ?_, ?_, settled.anchor⟩
    · dsimp only
      rw [settled.markers]
    · dsimp only
      rw [length_append, length_take_of_le bound]
      omega
    · intro entry mem
      change entry ∈ List.drop _ _ at mem
      rw [tail] at mem
      unfold Markers.gone Markers.isDisposed
      dsimp only
      rw [if_neg (by rw [alive entry mem]; exact Bool.false_ne_true)]
      exact settled.live entry (kept.subset mem)
    · change ((List.drop _ _).map _).Nodup
      rw [tail]
      exact settled.apart.sublist (kept.map _)
    · change Sorted _ (List.drop _ _)
      rw [tail]
      refine (settled.sorted.sublist kept).imp_of_mem fun {a b} left right order => ?_
      unfold Markers.line at order ⊢
      dsimp only
      rw [if_neg (by rw [alive a left]; exact Bool.false_ne_true),
        if_neg (by rw [alive b right]; exact Bool.false_ne_true)]
      exact order

theorem Refines.removeRange (refines : Refines terminal plain) (firstLine lastLine : Int) :
    Refines (terminal.removeRange firstLine lastLine) (plain.removeRange firstLine lastLine) := by
  have settled := refines.compact
  unfold IndexedTerminal.removeRange PlainTimestamps.removeRange
  generalize terminal.compact = terminal at *
  dsimp only
  have front := lowerBound_spec settled.inside settled.sorted firstLine
  have back := upperBound_spec settled.inside settled.sorted lastLine
  -- Without a range there is nothing to remove.
  have empty : terminal.index.upperBound terminal.markers lastLine ≤
      terminal.index.lowerBound terminal.markers firstLine →
        (terminal.index.tail.filter fun entry => firstLine ≤ terminal.markers.line entry.marker &&
          terminal.markers.line entry.marker ≤ lastLine) = [] := by
    intro short
    by_cases order : firstLine ≤ lastLine
    · have whole := congrArg List.length (filter_range settled.sorted order)
      rw [length_append] at whole
      exact length_eq_zero_iff.mp (by omega)
    · refine filter_eq_nil_iff.mpr fun entry _ => ?_
      rw [and_eq_true, decide_eq_true_iff, decide_eq_true_iff]
      omega
  split
  next short =>
    have none := empty short
    have outside : ∀ entry ∈ plain.entries, (decide (firstLine ≤ plain.markers.line entry.marker) &&
        decide (plain.markers.line entry.marker ≤ lastLine)) = false := by
      intro entry mem
      rw [settled.entries] at mem
      rw [settled.markers]
      simpa using filter_eq_nil_iff.mp none entry mem
    have kept : plain.entries.filter (fun entry => !(decide (firstLine ≤ plain.markers.line
        entry.marker) && decide (plain.markers.line entry.marker ≤ lastLine))) = plain.entries :=
      filter_eq_self.mpr fun entry mem => by rw [outside entry mem]; rfl
    have same : (fun marker => if plain.entries.any (fun entry =>
        (decide (firstLine ≤ plain.markers.line entry.marker) &&
          decide (plain.markers.line entry.marker ≤ lastLine)) && decide (entry.marker = marker))
        then Option.none else plain.markers marker) = plain.markers := by
      funext marker
      rw [if_neg]
      rw [not_eq_true]
      refine any_eq_false.mpr fun entry mem => ?_
      rw [outside entry mem]
      exact Bool.false_ne_true
    rw [kept, same]
    exact settled.refines
  next long =>
    have order : firstLine ≤ lastLine := by
      by_contra crossed
      refine long ?_
      rw [front, back, ← countP_eq_length_filter, ← countP_eq_length_filter]
      refine Nat.add_le_add_left (countP_mono_left fun entry _ below => ?_) _
      rw [decide_eq_true_iff] at below ⊢
      omega
    have upTo := filter_range settled.sorted order
    have high := filter_split (settled.sorted.closed lastLine).2
    rw [filter_below, upTo, append_assoc] at high
    rw [upTo, length_append] at back
    obtain ⟨removed, cut⟩ := settled.cut high.symm
    have inside : (fun marker => if plain.entries.any (fun entry =>
        (decide (firstLine ≤ plain.markers.line entry.marker) &&
          decide (plain.markers.line entry.marker ≤ lastLine)) && decide (entry.marker = marker))
        then none else plain.markers marker) = fun marker =>
          if (terminal.index.tail.filter fun entry =>
            firstLine ≤ terminal.markers.line entry.marker &&
              terminal.markers.line entry.marker ≤ lastLine).any fun entry => entry.marker = marker
          then none else plain.markers marker := by
      funext marker
      rw [any_filter, settled.entries, settled.markers]
    have outside : (plain.entries.filter fun entry =>
        !(decide (firstLine ≤ plain.markers.line entry.marker) &&
          decide (plain.markers.line entry.marker ≤ lastLine))) =
        (terminal.index.tail.filter fun entry => terminal.markers.line entry.marker < firstLine) ++
          terminal.index.tail.filter fun entry => lastLine < terminal.markers.line entry.marker := by
      rw [settled.entries, settled.markers]
      exact filter_outside settled.sorted order
    rw [inside, outside, front, back, removed]
    exact cut.refines

/-- What the terminal may do: markers keep their order, and what it disposes is not tangled. -/
def Orderly (terminal : IndexedTerminal) : TimestampEvent → Prop
  | .moved line =>
    (terminal.index.tail.filter fun entry => !terminal.markers.gone entry).Pairwise
      fun a b => line a.marker < line b.marker
  | _ => True

/-- Entries that are not cleaned up yet do not stand right behind one that leaves at the front. -/
def CleanedUp (terminal : IndexedTerminal) : TimestampEvent → Prop
  | .disposed marker => Untangled terminal marker
  | _ => True

theorem Refines.move (refines : Refines terminal plain) {line : Nat → Int}
    (order : Orderly terminal (.moved line)) :
    Refines (terminal.move line)
      { plain with markers := fun marker => (plain.markers marker).map fun _ => line marker } := by
  have same : (terminal.move line).markers.gone = terminal.markers.gone := by
    funext entry
    unfold Markers.gone Markers.isDisposed
    exact Option.isNone_map
  refine ⟨?_, refines.inside, ?_, ?_, refines.apart, ?_, ?_⟩
  · rw [refines.markers]
    rfl
  · rw [same]
    exact refines.entries
  · rw [same]
    exact refines.counted
  · unfold Orderly at order
    rw [← refines.entries] at order
    refine order.imp_of_mem fun {a b} left right rising => ?_
    have moved : ∀ entry ∈ plain.entries, (terminal.move line).markers.line entry.marker =
        line entry.marker := by
      intro entry mem
      rw [refines.entries] at mem
      have live : terminal.markers.isDisposed entry.marker = false :=
        (not_eq_true' _).mp (mem_filter.mp mem).2
      obtain ⟨old, known⟩ := Option.isSome_iff_exists.mp (Option.isNone_eq_false_iff.mp live)
      unfold IndexedTerminal.move Markers.line
      dsimp only
      rw [known]
      rfl
    rwa [moved a left, moved b right]
  · rw [same]
    exact refines.anchor

theorem Refines.step (refines : Refines terminal plain) (limit : Nat) {event : TimestampEvent}
    (order : Orderly terminal event) (cleaned : CleanedUp terminal event) :
    (terminal.step limit event).2 = (plain.step limit event).2 ∧
      Refines (terminal.step limit event).1 (plain.step limit event).1 := by
  have settled := refines.compact
  have whole : PlainTimestamps.mk terminal.markers terminal.compact.index.tail
      terminal.compact.index.anchor = plain := by
    rw [← settled.entries, ← settled.anchor]
    obtain ⟨markers, entries, anchor⟩ := plain
    obtain rfl : markers = _ := settled.markers
    rfl
  have markers := settled.markers
  cases event with
  | add marker ts =>
    obtain ⟨same, next⟩ := refines.add limit marker ts
    exact ⟨congrArg (fun added => [TimestampAnswer.flag added]) same, next⟩
  | removeRange firstLine lastLine => exact ⟨rfl, refines.removeRange firstLine lastLine⟩
  | moved line => exact ⟨rfl, refines.move order⟩
  | disposed marker => exact ⟨rfl, refines.dispose cleaned⟩
  | size =>
    refine ⟨?_, settled.refines⟩
    unfold IndexedTerminal.step PlainTimestamps.step TerminalTimestampIndex.size
    rw [settled.entries, TerminalTimestampIndex.tail, length_drop]
  | has line =>
    refine ⟨?_, settled.refines⟩
    unfold IndexedTerminal.step PlainTimestamps.step
    rw [settled.entries, markers]
    exact congrArg (fun found => [TimestampAnswer.flag found])
      (has_spec settled.inside settled.sorted line)
  | timestampAt line =>
    refine ⟨?_, settled.refines⟩
    unfold IndexedTerminal.step PlainTimestamps.step
    have found := (upperBound_entry settled.inside settled.sorted line).1
    rw [← whole]
    exact congrArg (fun found => [TimestampAnswer.timestamp found]) found
  | visible viewportY rows =>
    refine ⟨?_, settled.refines⟩
    unfold IndexedTerminal.step PlainTimestamps.step
    have shown := visible_spec settled.inside settled.sorted viewportY rows
    rw [← whole]
    exact congrArg (fun shown => [TimestampAnswer.rows shown]) shown
  | snapshot =>
    refine ⟨?_, settled.refines⟩
    unfold IndexedTerminal.step PlainTimestamps.step PlainTimestamps.snapshot
    rw [settled.entries, markers]
    rfl

end Steps

/-- As long as nothing disposed stands right behind an entry that leaves at the front, the index
answers as the plain list; and it shows what the search in its snapshot shows. -/
theorem timestamp_index_plain (limit : Nat) (markers : Markers) (events : List TimestampEvent)
    (meets : (IndexedTerminal.transducer limit).StepsMeet
      (fun terminal event => Orderly terminal event ∧ CleanedUp terminal event)
      { markers := markers, index := {} } events) :
    let run := (IndexedTerminal.transducer limit).run { markers := markers, index := {} } events
    let plain := (PlainTimestamps.transducer limit).run
      { markers := markers, entries := [], anchor := none } events
    run.2 = plain.2 ∧
      ∀ viewportY rows : ℚ,
        let index := run.1.compact.index
        index.visible run.1.markers viewportY rows =
          visibleSortedTerminalTimestamps fst snd (index.snapshot run.1.markers) viewportY
            rows index.anchor := by
  have fresh : Refines { markers := markers, index := {} }
      { markers := markers, entries := [], anchor := none } :=
    ⟨rfl, Nat.le_refl 0, rfl, rfl, .nil, .nil, rfl⟩
  obtain ⟨same, refines⟩ := (IndexedTerminal.transducer limit).run_simulates
    (PlainTimestamps.transducer limit)
    (fun _ _ _ meets refines => Refines.step refines limit meets.1 meets.2) meets fresh
  refine ⟨same, fun viewportY rows => ?_⟩
  have settled := refines.compact
  exact (visible_spec settled.inside settled.sorted viewportY rows).trans
    (@visibleSorted_spec ⟨_, _, _⟩ settled.sorted viewportY rows).symm

/-- The entry of line 1 is erased, then the one of line 0 leaves at the front. -/
def erasedThenScrolled : List TimestampEvent :=
  [.add 0 "first", .add 1 "second", .add 2 "third", .disposed 1, .disposed 0, .timestampAt 0]

theorem erased_entry_becomes_anchor :
    ¬ ∀ (limit : Nat) (markers : Markers) (events : List TimestampEvent),
      (IndexedTerminal.transducer limit).StepsMeet Orderly { markers := markers, index := {} } events →
        ((IndexedTerminal.transducer limit).run { markers := markers, index := {} } events).2 =
          ((PlainTimestamps.transducer limit).run
            { markers := markers, entries := [], anchor := none } events).2 := by
  intro plain
  have differs := plain 8 (fun marker => some marker) erasedThenScrolled
    ⟨trivial, trivial, trivial, trivial, trivial, trivial, trivial⟩
  revert differs
  decide

/-- The same lines in the other order. -/
theorem scrolled_entry_becomes_anchor :
    ((IndexedTerminal.transducer 8).run { markers := fun marker => some marker, index := {} }
      [.add 0 "first", .add 1 "second", .disposed 0, .timestampAt 0]).2 =
        [.flag true, .flag true, .timestamp (some "first")] := by
  refine (timestamp_index_plain 8 (fun marker => some marker)
    [.add 0 "first", .add 1 "second", .disposed 0, .timestampAt 0]
    ⟨⟨trivial, trivial⟩, ⟨trivial, trivial⟩, ⟨trivial, ?_⟩, ⟨trivial, trivial⟩, trivial⟩).1.trans
      (by decide)
  intro entry rest behind _ last mem
  cases behind
  cases mem

end Timestamps
end PortMate
