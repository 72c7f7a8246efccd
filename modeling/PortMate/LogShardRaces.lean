import PortMate.LogShardLocks

namespace PortMate

open List Option

def LogOperation.offset : LogOperation → Nat
  | read offset _ => offset
  | preview offset _ => offset
  | _ => 0

/-- The bytes of whole appends, and no others. -/
def WholeAppends (race : LogRace) (content : List UInt8) : Prop :=
  ∃ parts : List (List UInt8), content = parts.flatten ∧
    ∀ part ∈ parts, ∃ task ∈ race.tasks, task.operation = .append part

/-- Two operations are not in one file at once, and what a reader has is of a file that no append
is writing to and that holds whole appends. -/
structure LogRace.Exclusive (places : LogPlaces) (race : LogRace) : Prop where
  serial : ∀ (i j : Nat) (first second : LogTask), race.tasks[i]? = some first →
    race.tasks[j]? = some second → first.stage.isWorking = true → second.stage.isWorking = true →
    places.file first.path = places.file second.path → i = j
  whole : ∀ reader ∈ race.tasks, ∀ lock node seen, reader.stage = .working lock (.reading node seen) →
    (∃ file, race.nodes[node]? = some file ∧ seen <+: file.content.drop reader.operation.offset ∧
      WholeAppends race file.content) ∧
    ∀ writer ∈ race.tasks, ∀ lock written, writer.stage ≠ .working lock (.writing node written)

open LogRace

/-- Bytes of an append that has returned since a retention was decided. -/
def AppendedSince (trace : List LogRaceSignal) (index node : Nat) : Prop :=
  ∃ before after task bytes, trace = before ++ .decided index :: after ∧
    .appended task node bytes ∈ after ∧ bytes ≠ []

/-- An append that returns has its file still in place, and no retention that was decided before
takes it away. -/
def AppendKept (before : List LogRaceSignal) : LogRaceSignal → Prop
  | .appended _ node _ => ∀ remover, .removed remover node ∉ before
  | .removed remover node => ¬ AppendedSince before remover node
  | _ => True

/-- The paths of the appends are those that they lead to, the reads take the lock, and an append
returns within a day of its last write and does not fail between its first byte and its last. -/
def LogRaceEvent.Orderly (places : LogPlaces) (race : LogRace) : LogRaceEvent → Prop
  | .start (.append _) path => places.canonical (places.spelled path) = places.spelled path
  | .start (.preview _ _) _ => False
  | .run index _ fault => ∀ task bytes lock node written, race.tasks[index]? = some task →
      task.operation = .append bytes → task.stage = .working lock (.writing node written) →
      (fault = true → written = 0 ∨ bytes.length ≤ written) ∧
      ∀ file, bytes ≠ [] → bytes.length ≤ written → race.nodes[node]? = some file →
        race.clock ≤ file.modified + microsPerDay
  | _ => True

/-- What a task knows of the files at a point of its work. -/
def PointSound (places : LogPlaces) (race : LogRace) (task : LogTask) : LogPoint → Prop
  | .writing node _ => ∃ file, race.node? (places.file task.path) = some (node, file)
  | .reading node seen => ∃ file, race.node? (places.file task.path) = some (node, file) ∧
      seen <+: file.content.drop task.operation.offset
  | .removing => ∃ node file, race.node? (places.file task.path) = some (node, file) ∧
      ∀ days, task.operation = .prune days → file.modified < task.cutoff days
  | _ => True

structure TaskSound (places : LogPlaces) (race : LogRace) (task : LogTask) : Prop where
  keyed : task.key? places = some (places.file task.path)
  locked : ∀ lock, task.stage.lock? = some lock →
    entryAt race.locks (places.file task.path) = some lock
  guarded : task.stage.isWorking = true → task.stage.guard? ≠ none
  point : ∀ lock point, task.stage = .working lock point → PointSound places race task point
  begun : task.started ≤ race.clock
  days : ∀ days, task.operation = .prune days → days ≠ 0

/-- The files under their paths, each under one. -/
structure FilesSound (race : LogRace) : Prop where
  present : ∀ file node, entryAt race.entries file = some node → node < race.nodes.length
  apart : ∀ first second node, entryAt race.entries first = some node →
    entryAt race.entries second = some node → first = second
  dated : ∀ node ∈ race.nodes, node.modified ≤ race.clock

structure TraceSound (race : LogRace) (trace : List LogRaceSignal) : Prop where
  kept : EachAfter AppendKept trace
  decided : ∀ index, .decided index ∈ trace →
    ∃ task days, race.tasks[index]? = some task ∧ task.operation = .prune days
  gone : ∀ remover node, .removed remover node ∈ trace →
    node < race.nodes.length ∧ ∀ file, entryAt race.entries file ≠ some node
  recent : ∀ (index : Nat) (task : LogTask) (days node : Nat), race.tasks[index]? = some task →
    task.operation = .prune days → AppendedSince trace index node →
    ∃ file, race.nodes[node]? = some file ∧ task.cutoff days ≤ file.modified

structure RaceSound (places : LogPlaces) (race : LogRace) (trace : List LogRaceSignal) : Prop where
  tasks : ∀ task ∈ race.tasks, TaskSound places race task
  alone : ∀ (i j : Nat) (first second : LogTask) (lock : Nat), race.tasks[i]? = some first →
    race.tasks[j]? = some second → first.stage.guard? = some lock →
    second.stage.guard? = some lock → i = j
  files : FilesSound race
  trace : TraceSound race trace

/-- A file holds whole appends, and what its writer has written so far. -/
structure ContentSound (race : LogRace) : Prop where
  settled : ∀ (node : Nat) (file : LogNode), race.nodes[node]? = some file →
    (∀ task ∈ race.tasks, ∀ lock written, task.stage ≠ .working lock (.writing node written)) →
    WholeAppends race file.content
  writing : ∀ task ∈ race.tasks, ∀ lock node written,
    task.stage = .working lock (.writing node written) →
    ∃ bytes file content, task.operation = .append bytes ∧ race.nodes[node]? = some file ∧
      WholeAppends race content ∧ file.content = content ++ bytes.take written

section Exclusion

variable {places : LogPlaces} {race : LogRace} {trace : List LogRaceSignal}

theorem LogStage.guard_lock {stage : LogStage} {lock : Nat} (guard : stage.guard? = some lock) :
    stage.lock? = some lock := by
  cases stage <;> first | exact guard | cases guard

theorem RaceSound.serial (sound : RaceSound places race trace) {i j : Nat} {first second : LogTask}
    (one : race.tasks[i]? = some first) (two : race.tasks[j]? = some second)
    (working : first.stage.isWorking = true) (also : second.stage.isWorking = true)
    (same : places.file first.path = places.file second.path) : i = j := by
  have first_sound := sound.tasks first (mem_of_getElem? one)
  have second_sound := sound.tasks second (mem_of_getElem? two)
  obtain ⟨lock, guard⟩ := ne_none_iff_exists'.mp (first_sound.guarded working)
  obtain ⟨other, other_guard⟩ := ne_none_iff_exists'.mp (second_sound.guarded also)
  have here := first_sound.locked lock (LogStage.guard_lock guard)
  rw [same, second_sound.locked other (LogStage.guard_lock other_guard)] at here
  cases here
  exact sound.alone i j first second lock one two guard other_guard

theorem node?_some {file : SpelledPath} {node : Nat} {found : LogNode} :
    race.node? file = some (node, found) ↔
      entryAt race.entries file = some node ∧ race.nodes[node]? = some found := by
  unfold node?
  constructor
  · intro here
    obtain ⟨other, entry, here⟩ := bind_eq_some_iff.mp here
    obtain ⟨also, content, same⟩ := map_eq_some_iff.mp here
    cases same
    exact ⟨entry, content⟩
  · rintro ⟨entry, content⟩
    rw [entry, bind_some, content, map_some]

/-- A file that a task works on has no other writer. -/
theorem RaceSound.writer_alone (sound : RaceSound places race trace) {i j : Nat}
    {task writer : LogTask} (one : race.tasks[i]? = some task) (two : race.tasks[j]? = some writer)
    (working : task.stage.isWorking = true) {node written : Nat} {file : LogNode}
    (here : race.node? (places.file task.path) = some (node, file)) {lock : Option Nat}
    (writing : writer.stage = .working lock (.writing node written)) : i = j := by
  obtain ⟨other, there⟩ := (sound.tasks writer (mem_of_getElem? two)).point lock _ writing
  have same := sound.files.apart _ _ _ (node?_some.mp here).1 (node?_some.mp there).1
  exact sound.serial one two working (by rw [writing]; rfl) same

theorem RaceSound.exclusive (sound : RaceSound places race trace) (whole : ContentSound race) :
    race.Exclusive places := by
  refine ⟨fun i j first second => sound.serial, ?_⟩
  intro reader mem lock node seen stage
  obtain ⟨file, here, seen_here⟩ := (sound.tasks reader mem).point lock _ stage
  have alone : ∀ writer ∈ race.tasks, ∀ lock written,
      writer.stage ≠ .working lock (.writing node written) := by
    intro writer writes lock' written writing
    obtain ⟨i, one⟩ := mem_iff_getElem?.mp mem
    obtain ⟨j, two⟩ := mem_iff_getElem?.mp writes
    have equal := sound.writer_alone one two (by rw [stage]; rfl) here writing
    rw [equal, two] at one
    cases one
    rw [stage] at writing
    cases writing
  obtain ⟨_, content⟩ := node?_some.mp here
  exact ⟨⟨file, content, seen_here, whole.settled node file content alone⟩, alone⟩

def FileChange.Legal (race : LogRace) (file : SpelledPath) : FileChange → Prop
  | .create => entryAt race.entries file = Option.none
  | .write node _ => entryAt race.entries file = some node
  | _ => True

theorem node?_none {file : SpelledPath} (files : FilesSound race)
    (missing : race.node? file = none) : entryAt race.entries file = none := by
  rw [eq_none_iff_forall_ne_some]
  intro node entry
  have found := getElem?_eq_getElem (files.present file node entry)
  rw [node?_some.mpr ⟨entry, found⟩] at missing
  cases missing

theorem change_tasks (race : LogRace) (file : SpelledPath) (change : FileChange) :
    (race.change file change).tasks = race.tasks ∧ (race.change file change).locks = race.locks ∧
      (race.change file change).clock = race.clock := by
  cases change <;> exact ⟨rfl, rfl, rfl⟩

theorem change_elsewhere {file other : SpelledPath} {change : FileChange} {node : Nat}
    {found : LogNode} (files : FilesSound race) (legal : change.Legal race file)
    (elsewhere : other ≠ file) (here : race.node? other = some (node, found)) :
    (race.change file change).node? other = some (node, found) := by
  obtain ⟨entry, content⟩ := node?_some.mp here
  rw [node?_some]
  cases change with
  | none => exact ⟨entry, content⟩
  | create =>
    have inside := files.present other node entry
    refine ⟨?_, ?_⟩
    · exact (entryAt_cons _ _ _ _).trans ((if_neg elsewhere).trans entry)
    · exact (getElem?_append_left inside).trans content
  | write target piece =>
    refine ⟨entry, ?_⟩
    have apart : target ≠ node := by
      rintro rfl
      exact elsewhere (files.apart other file target entry legal)
    exact (getElem?_modify_ne _ _ apart).trans content
  | remove =>
    refine ⟨?_, content⟩
    exact (entryAt_filter_ne _ _ _).trans ((if_neg elsewhere).trans entry)

theorem change_files {file : SpelledPath} {change : FileChange} (files : FilesSound race)
    (legal : change.Legal race file) : FilesSound (race.change file change) := by
  cases change with
  | none => exact files
  | create =>
    have known : ∀ other node,
        entryAt ((file, race.nodes.length) :: race.entries) other = some node →
        other = file ∧ node = race.nodes.length ∨
          node < race.nodes.length ∧ entryAt race.entries other = some node := by
      intro other node entry
      rw [entryAt_cons] at entry
      split at entry
      next same => exact .inl ⟨same, (Option.some.inj entry).symm⟩
      next => exact .inr ⟨files.present other node entry, entry⟩
    refine ⟨?_, ?_, ?_⟩
    · intro other node entry
      have length : (race.change file .create).nodes.length = race.nodes.length + 1 :=
        length_append
      obtain ⟨_, rfl⟩ | ⟨inside, _⟩ := known other node entry <;> omega
    · intro first second node one two
      obtain ⟨rfl, rfl⟩ | ⟨inside, one⟩ := known first node one <;>
        obtain ⟨rfl, same⟩ | ⟨also, two⟩ := known second _ two
      · rfl
      · exact absurd also (lt_irrefl _)
      · exact absurd inside (same ▸ lt_irrefl _)
      · exact files.apart first second node one two
    · intro node mem
      obtain mem | mem := mem_append.mp mem
      · exact files.dated node mem
      · rw [mem_singleton.mp mem]
        exact Int.le_refl race.clock
  | write target piece =>
    refine ⟨?_, files.apart, ?_⟩
    · intro other node entry
      have length : (race.change file (.write target piece)).nodes.length = race.nodes.length :=
        length_modify _ _ _
      rw [length]
      exact files.present other node entry
    · intro node mem
      obtain ⟨index, at_index⟩ := mem_iff_getElem?.mp mem
      have modified : (race.nodes.modify target fun found =>
          ⟨found.content ++ piece, race.clock⟩)[index]? = some node := at_index
      rw [getElem?_modify] at modified
      obtain ⟨old, there, rfl⟩ := map_eq_some_iff.mp modified
      split
      · exact Int.le_refl race.clock
      · exact files.dated old (mem_of_getElem? there)
  | remove =>
    have known : ∀ other node,
        entryAt (race.entries.filter fun entry => entry.1 ≠ file) other = some node →
        entryAt race.entries other = some node := by
      intro other node entry
      rw [entryAt_filter_ne] at entry
      split at entry
      · cases entry
      · exact entry
    exact ⟨fun other node entry => files.present other node (known other node entry),
      fun first second node one two => files.apart first second node (known first node one)
        (known second node two), files.dated⟩

theorem change_younger (file : SpelledPath) (change : FileChange) (files : FilesSound race)
    {node : Nat} {found : LogNode} (here : race.nodes[node]? = some found) :
    ∃ later, (race.change file change).nodes[node]? = some later ∧
      found.modified ≤ later.modified := by
  cases change with
  | create =>
    refine ⟨found, ?_, Int.le_refl _⟩
    exact (getElem?_append_left (List.getElem?_eq_some_iff.mp here).1).trans here
  | write target piece =>
    have modified : (race.change file (.write target piece)).nodes[node]? =
        some (if target = node then ⟨found.content ++ piece, race.clock⟩ else found) := by
      refine (getElem?_modify _ _ _ _).trans ?_
      rw [here]
      rfl
    refine ⟨_, modified, ?_⟩
    split
    · exact files.dated found (mem_of_getElem? here)
    · exact Int.le_refl _
  | none | remove => exact ⟨found, here, Int.le_refl _⟩

theorem change_trace {file : SpelledPath} {change : FileChange} (files : FilesSound race)
    (traced : TraceSound race trace) : TraceSound (race.change file change) trace := by
  refine ⟨traced.kept, ?_, ?_, ?_⟩
  · rw [(change_tasks race file change).1]
    exact traced.decided
  · intro remover node removed
    obtain ⟨inside, unlinked⟩ := traced.gone remover node removed
    obtain ⟨_, later, _⟩ := change_younger file change files
      (getElem?_eq_getElem inside)
    refine ⟨(List.getElem?_eq_some_iff.mp later).1, ?_⟩
    intro other entry
    cases change with
    | create =>
      rw [show (race.change file .create).entries = (file, race.nodes.length) :: race.entries from
        rfl, entryAt_cons] at entry
      split at entry
      · cases entry
        exact lt_irrefl _ inside
      · exact unlinked other entry
    | remove =>
      rw [show (race.change file .remove).entries =
        race.entries.filter fun entry => entry.1 ≠ file from rfl, entryAt_filter_ne] at entry
      split at entry
      · cases entry
      · exact unlinked other entry
    | none | write _ _ => exact unlinked other entry
  · intro index task days node here prune since
    rw [(change_tasks race file change).1] at here
    obtain ⟨found, there, young⟩ := traced.recent index task days node here prune since
    obtain ⟨later, now, younger⟩ := change_younger file change files there
    exact ⟨later, now, Int.le_trans young younger⟩

theorem appendedSince_concat {last : LogRaceSignal} {index node : Nat}
    (since : AppendedSince (trace ++ [last]) index node) :
    AppendedSince trace index node ∨ .decided index ∈ trace ∧
      ∃ task bytes, last = .appended task node bytes ∧ bytes ≠ [] := by
  obtain ⟨before, after, task, bytes, split, mem, filled⟩ := since
  rcases eq_nil_or_concat' after with rfl | ⟨rest, final, rfl⟩
  · cases mem
  · rw [← cons_append, ← append_assoc] at split
    obtain ⟨rfl, same⟩ := append_inj' split rfl
    cases same
    obtain mem | mem := mem_append.mp mem
    · exact .inl ⟨before, rest, task, bytes, rfl, mem, filled⟩
    · exact .inr ⟨by simp, task, bytes, (mem_singleton.mp mem).symm, filled⟩

section Stages

variable {index : Nat} {task : LogTask} {stage : LogStage}

theorem task_setStage (here : race.tasks[index]? = some task) {j : Nat} {other : LogTask}
    (there : (race.setStage index task stage).tasks[j]? = some other) :
    j = index ∧ other = { task with stage } ∨ j ≠ index ∧ race.tasks[j]? = some other := by
  have tasks : (race.tasks.set index { task with stage })[j]? = some other := there
  rw [getElem?_set] at tasks
  split at tasks
  next same =>
    rw [if_pos (List.getElem?_eq_some_iff.mp here).1] at tasks
    exact .inl ⟨same.symm, (Option.some.inj tasks).symm⟩
  next other => exact .inr ⟨Ne.symm other, tasks⟩

theorem TraceSound.setStage (traced : TraceSound race trace)
    (here : race.tasks[index]? = some task) :
    TraceSound (race.setStage index task stage) trace := by
  refine ⟨traced.kept, ?_, traced.gone, ?_⟩
  · intro i decided
    obtain ⟨other, days, there, prune⟩ := traced.decided i decided
    have tasks : (race.setStage index task stage).tasks[i]? =
        if index = i then some { task with stage } else some other := by
      refine getElem?_set.trans ?_
      rw [there, if_pos (List.getElem?_eq_some_iff.mp here).1]
    by_cases same : index = i
    · subst same
      rw [here] at there
      cases there
      exact ⟨{ task with stage }, days, tasks.trans (if_pos rfl), prune⟩
    · exact ⟨other, days, tasks.trans (if_neg same), prune⟩
  · intro i other days node there prune since
    obtain ⟨rfl, rfl⟩ | ⟨_, there⟩ := task_setStage here there
    · exact traced.recent i task days node here prune since
    · exact traced.recent i other days node there prune since

theorem RaceSound.setStage (sound : RaceSound places race trace)
    (here : race.tasks[index]? = some task)
    (locked : ∀ lock, stage.lock? = some lock →
      entryAt race.locks (places.file task.path) = some lock)
    (guarded : stage.isWorking = true → stage.guard? ≠ none)
    (point : ∀ lock point, stage = .working lock point → PointSound places race task point)
    (alone : ∀ lock, stage.guard? = some lock → ∀ (j : Nat) (other : LogTask),
      race.tasks[j]? = some other → other.stage.guard? = some lock → j = index) :
    RaceSound places (race.setStage index task stage) trace := by
  refine ⟨?_, ?_, ⟨sound.files.present, sound.files.apart, sound.files.dated⟩,
    sound.trace.setStage here⟩
  · intro other mem
    obtain ⟨j, there⟩ := mem_iff_getElem?.mp mem
    obtain ⟨rfl, rfl⟩ | ⟨_, there⟩ := task_setStage here there
    · have old := sound.tasks task (mem_of_getElem? here)
      exact ⟨old.keyed, locked, guarded, point, old.begun, old.days⟩
    · have old := sound.tasks other (mem_of_getElem? there)
      exact ⟨old.keyed, old.locked, old.guarded, old.point, old.begun, old.days⟩
  · intro i j first second lock one two guard also
    obtain ⟨rfl, rfl⟩ | ⟨_, first_here⟩ := task_setStage here one <;>
      obtain ⟨rfl, rfl⟩ | ⟨_, second_here⟩ := task_setStage here two
    · rfl
    · exact (alone lock guard j second second_here also).symm
    · exact alone lock also i first first_here guard
    · exact sound.alone i j first second lock first_here second_here guard also

theorem RaceSound.finish (sound : RaceSound places race trace)
    (here : race.tasks[index]? = some task) :
    RaceSound places (race.setStage index task .finished) trace := by
  refine sound.setStage here ?_ ?_ ?_ ?_
  · intro lock none
    cases none
  · intro working
    cases working
  · intro lock point working
    cases working
  · intro lock none
    cases none

theorem RaceSound.goOn (sound : RaceSound places race trace)
    (here : race.tasks[index]? = some task) {lock : Option Nat} {old point : LogPoint}
    (working : task.stage = .working lock old) (right : PointSound places race task point) :
    RaceSound places (race.setStage index task (.working lock point)) trace := by
  have known := sound.tasks task (mem_of_getElem? here)
  have guard : task.stage.guard? = lock := by rw [working]; rfl
  refine sound.setStage here ?_ ?_ ?_ ?_
  · intro other same
    exact known.locked other (LogStage.guard_lock (guard.trans same))
  · intro _
    have filled := known.guarded (by rw [working]; rfl)
    rw [guard] at filled
    exact filled
  · intro _ _ same
    cases same
    exact right
  · intro other same j second there also
    exact sound.alone j index second task other there here also (guard.trans same)

theorem RaceSound.change (sound : RaceSound places race trace) {file : SpelledPath}
    {change : FileChange} (legal : change.Legal race file)
    (quiet : ∀ task ∈ race.tasks, task.stage.isWorking = true → places.file task.path ≠ file) :
    RaceSound places (race.change file change) trace := by
  obtain ⟨tasks, locks, clock⟩ := change_tasks race file change
  refine ⟨?_, ?_, change_files sound.files legal, change_trace sound.files sound.trace⟩
  · intro task mem
    rw [tasks] at mem
    have old := sound.tasks task mem
    refine ⟨old.keyed, ?_, old.guarded, ?_, ?_, old.days⟩
    · rw [locks]
      exact old.locked
    · intro lock point stage
      have elsewhere := quiet task mem (by rw [stage]; rfl)
      have right := old.point lock point stage
      cases point with
      | entered | measured => trivial
      | writing node written =>
        obtain ⟨found, here⟩ := right
        exact ⟨found, change_elsewhere sound.files legal elsewhere here⟩
      | removing =>
        obtain ⟨node, found, here, expired⟩ := right
        exact ⟨node, found, change_elsewhere sound.files legal elsewhere here, expired⟩
      | reading node seen =>
        obtain ⟨found, here, seen_here⟩ := right
        exact ⟨found, change_elsewhere sound.files legal elsewhere here, seen_here⟩
    · rw [clock]
      exact old.begun
  · rw [tasks]
    exact sound.alone

theorem TraceSound.quiet (traced : TraceSound race trace) {signal : LogRaceSignal}
    (kept : AppendKept trace signal)
    (decided : ∀ index, signal = .decided index →
      ∃ task days, race.tasks[index]? = some task ∧ task.operation = .prune days)
    (gone : ∀ remover node, signal = .removed remover node →
      node < race.nodes.length ∧ ∀ file, entryAt race.entries file ≠ some node)
    (recent : ∀ appender node bytes, signal = .appended appender node bytes → bytes ≠ [] →
      ∀ (index : Nat) (task : LogTask) (days : Nat), race.tasks[index]? = some task →
      task.operation = .prune days →
      ∃ file, race.nodes[node]? = some file ∧ task.cutoff days ≤ file.modified) :
    TraceSound race (trace ++ [signal]) := by
  refine ⟨traced.kept.concat kept, ?_, ?_, ?_⟩
  · intro index mem
    obtain mem | mem := mem_append.mp mem
    · exact traced.decided index mem
    · exact decided index (mem_singleton.mp mem).symm
  · intro remover node mem
    obtain mem | mem := mem_append.mp mem
    · exact traced.gone remover node mem
    · exact gone remover node (mem_singleton.mp mem).symm
  · intro index task days node here prune since
    obtain since | ⟨_, appender, bytes, same, filled⟩ := appendedSince_concat since
    · exact traced.recent index task days node here prune since
    · exact recent appender node bytes same filled index task days here prune

theorem cutoff_bound {started clock modified day gap : Int} (begun : started ≤ clock)
    (late : clock ≤ modified + day) (whole : day ≤ gap) : started - gap ≤ modified := by
  omega

theorem cutoff_le {days : Nat} {clock modified : DateTime} (begun : task.started ≤ clock)
    (kept : days ≠ 0) (late : clock ≤ modified + microsPerDay) : task.cutoff days ≤ modified := by
  unfold LogTask.cutoff
  have whole : microsPerDay ≤ days * microsPerDay := by
    have one : (1 : Int) ≤ days := by omega
    calc microsPerDay = 1 * microsPerDay := (Int.one_mul _).symm
      _ ≤ days * microsPerDay := Int.mul_le_mul_of_nonneg_right one (by decide)
  exact cutoff_bound begun late whole

/-- What the work of a task comes to, in a step that a sound point takes. -/
inductive Worked (places : LogPlaces) (race : LogRace) (index : Nat) (task : LogTask)
    (lock : Option Nat) (point : LogPoint) : FileChange × LogStage × List LogRaceSignal → Prop
  | ends : Worked places race index task lock point (.none, .finished, [])
  | goes {next : LogPoint} (right : PointSound places race task next) :
    Worked places race index task lock point (.none, .working lock next, [])
  | opens (missing : entryAt race.entries (places.file task.path) = none) :
    Worked places race index task lock point
      (.create, .working lock (.writing race.nodes.length 0), [])
  | writes {node written : Nat} {piece : List UInt8} {file : LogNode}
    (here : race.node? (places.file task.path) = some (node, file)) :
    Worked places race index task lock point
      (.write node piece, .working lock (.writing node written), [])
  | returns {node written : Nat} {bytes : List UInt8} {file : LogNode}
    (here : race.node? (places.file task.path) = some (node, file))
    (append : task.operation = .append bytes) (whole : bytes.length ≤ written)
    (writing : point = .writing node written) :
    Worked places race index task lock point (.none, .finished, [.appended index node bytes])
  | removes {node : Nat} {file : LogNode}
    (here : race.node? (places.file task.path) = some (node, file))
    (expired : ∀ days, task.operation = .prune days → file.modified < task.cutoff days) :
    Worked places race index task lock point (.remove, .finished, [.removed index node])
  | saw {node : Nat} {seen : List UInt8} :
    Worked places race index task lock point (.none, .finished, [.saw index node seen])

theorem prefix_drop {seen content : List UInt8} {offset : Nat} (here : seen <+: content.drop offset)
    (count : Nat) :
    seen ++ (content.drop (offset + seen.length)).take count <+: content.drop offset := by
  obtain ⟨rest, same⟩ := here
  rw [← drop_drop, ← same, drop_left]
  exact prefix_append_right_inj seen |>.mpr (List.take_prefix count rest)

theorem reading_worked {offset length count : Nat} {lock : Option Nat} {node : Nat}
    {seen : List UInt8} (from_there : task.operation.offset = offset)
    (right : PointSound places race task (.reading node seen)) :
    Worked places race index task lock (.reading node seen)
      (if length ≤ seen.length then (.none, .finished, [.saw index node seen])
      else (.none, .working lock (.reading node (seen ++
        (((race.nodes[node]?.map LogNode.content).getD []).drop (offset + seen.length)).take
          (min (count + 1) (length - seen.length)))), [])) := by
  split
  · exact .saw
  · obtain ⟨file, here, seen_here⟩ := right
    refine .goes ⟨file, here, ?_⟩
    rw [(node?_some.mp here).2, map_some, getD_some, ← from_there]
    exact prefix_drop seen_here _

theorem work_worked (files : FilesSound race) {lock : Option Nat} {point : LogPoint}
    (right : PointSound places race task point) (count : Nat) :
    Worked places race index task lock point (race.work places index task lock point count) := by
  obtain ⟨operation, path, started, stage⟩ := task
  cases point with
  | entered =>
    cases operation with
    | append bytes =>
      unfold work
      cases found : race.node? (places.file path) with
      | none => exact .opens (node?_none files found)
      | some found_here =>
        obtain ⟨node, file⟩ := found_here
        exact .goes ⟨file, found⟩
    | prune days =>
      unfold work
      simp only
      split
      next expired =>
        unfold isExpired at expired
        cases found : race.node? (places.file path) with
        | none => simp [found] at expired
        | some found_here =>
          obtain ⟨node, file⟩ := found_here
          rw [found] at expired
          refine .goes ⟨node, file, found, ?_⟩
          intro other same
          cases same
          exact of_decide_eq_true expired
      next => exact .ends
    | delete =>
      unfold work
      simp only
      split
      next there =>
        obtain ⟨⟨node, file⟩, found⟩ := isSome_iff_exists.mp there
        refine .goes ⟨node, file, found, ?_⟩
        intro days same
        cases same
      next => exact .ends
    | read | preview =>
      unfold work
      simp only
      split
      · exact .goes trivial
      · exact .ends
  | writing node written =>
    cases operation with
    | append bytes =>
      unfold work
      obtain ⟨file, here⟩ := right
      simp only
      split
      next whole => exact .returns here rfl whole rfl
      next => exact .writes here
    | prune | delete | read | preview => exact .goes right
  | removing =>
    obtain ⟨node, file, here, expired⟩ := right
    cases operation with
    | prune days | delete =>
      unfold work
      simp only [here]
      exact .removes here expired
    | append | read | preview => exact .goes ⟨node, file, here, expired⟩
  | measured =>
    cases operation with
    | read | preview =>
      unfold work
      cases found : race.node? (places.file path) with
      | none => exact .ends
      | some found_here =>
        obtain ⟨node, file⟩ := found_here
        exact .goes ⟨file, found, nil_prefix⟩
    | append | prune | delete => exact .goes trivial
  | reading node seen =>
    cases operation with
    | read offset length => exact reading_worked rfl right
    | preview offset length => exact reading_worked rfl right
    | append | prune | delete => exact .goes right

theorem RaceSound.signals (sound : RaceSound places race trace) {signal : LogRaceSignal}
    (traced : TraceSound race (trace ++ [signal])) : RaceSound places race (trace ++ [signal]) :=
  ⟨sound.tasks, sound.alone, sound.files, traced⟩

theorem RaceSound.changeEnd (sound : RaceSound places race trace)
    (here : race.tasks[index]? = some task) (working : task.stage.isWorking = true)
    {change : FileChange} (legal : change.Legal race (places.file task.path)) :
    RaceSound places ((race.change (places.file task.path) change).setStage index task .finished)
      trace := by
  have same : (race.change (places.file task.path) change).setStage index task .finished =
      (race.setStage index task .finished).change (places.file task.path) change := by
    cases change <;> rfl
  rw [same]
  refine (sound.finish here).change ?_ ?_
  · cases change <;> exact legal
  · intro other mem also same
    obtain ⟨j, there⟩ := mem_iff_getElem?.mp mem
    obtain ⟨_, rfl⟩ | ⟨apart, there⟩ := task_setStage here there
    · cases also
    · exact apart (sound.serial there here also working same)

theorem RaceSound.changeOn (sound : RaceSound places race trace)
    (here : race.tasks[index]? = some task) {lock : Option Nat} {old point : LogPoint}
    (working : task.stage = .working lock old) {change : FileChange}
    (legal : change.Legal race (places.file task.path))
    (right : PointSound places (race.change (places.file task.path) change) task point) :
    RaceSound places
      ((race.change (places.file task.path) change).setStage index task (.working lock point))
      trace := by
  have ended := sound.changeEnd here (by rw [working]; rfl) legal
  obtain ⟨tasks, locks, _⟩ := change_tasks race (places.file task.path) change
  have again : ((race.change (places.file task.path) change).setStage index task .finished).setStage
      index { task with stage := .finished } (.working lock point) =
      (race.change (places.file task.path) change).setStage index task (.working lock point) := by
    simp [LogRace.setStage]
  have known := sound.tasks task (mem_of_getElem? here)
  have guard : task.stage.guard? = lock := by rw [working]; rfl
  rw [← again]
  refine ended.setStage ?_ ?_ ?_ ?_ ?_
  · have inside := (List.getElem?_eq_some_iff.mp here).1
    rw [← tasks] at inside
    exact (getElem?_set_self inside)
  · intro other same
    have known_lock := known.locked other (LogStage.guard_lock (guard.trans same))
    rw [← locks] at known_lock
    exact known_lock
  · intro _
    have filled := known.guarded (by rw [working]; rfl)
    rw [guard] at filled
    exact filled
  · intro _ _ same
    cases same
    exact right
  · intro other same j second there also
    obtain ⟨rfl, _⟩ | ⟨_, there⟩ := task_setStage (by rw [tasks]; exact here) there
    · rfl
    · rw [tasks] at there
      exact sound.alone j index second task other there here also (guard.trans same)

theorem worked_sound (sound : RaceSound places race trace) (here : race.tasks[index]? = some task)
    {lock : Option Nat} {point : LogPoint} (working : task.stage = .working lock point)
    (prompt : ∀ bytes node written file, task.operation = .append bytes →
      point = .writing node written → bytes ≠ [] → bytes.length ≤ written →
      race.nodes[node]? = some file → race.clock ≤ file.modified + microsPerDay)
    {done : FileChange × LogStage × List LogRaceSignal}
    (worked : Worked places race index task lock point done) :
    RaceSound places ((race.change (places.file task.path) done.1).setStage index task done.2.1)
      (trace ++ done.2.2) := by
  have active : task.stage.isWorking = true := by rw [working]; rfl
  cases worked with
  | ends =>
    rw [append_nil]
    exact sound.finish here
  | goes right =>
    rw [append_nil]
    exact sound.goOn here working right
  | opens missing =>
    rw [append_nil]
    refine sound.changeOn here working missing ⟨⟨[], race.clock⟩, ?_⟩
    rw [node?_some]
    refine ⟨(entryAt_cons _ _ _ _).trans (if_pos rfl), ?_⟩
    exact getElem?_concat_length
  | @writes node written piece file there =>
    rw [append_nil]
    obtain ⟨entry, content⟩ := node?_some.mp there
    refine sound.changeOn here working entry ⟨⟨file.content ++ piece, race.clock⟩, ?_⟩
    rw [node?_some]
    refine ⟨entry, ?_⟩
    refine (getElem?_modify_eq _ _ _).trans ?_
    rw [content]
    rfl
  | @returns node written bytes file there append whole writing =>
    obtain ⟨entry, content⟩ := node?_some.mp there
    refine (sound.finish here).signals ((sound.finish here).trace.quiet ?_ ?_ ?_ ?_)
    · intro remover removed
      exact (sound.trace.gone remover node removed).2 _ entry
    · intro i same
      cases same
    · intro remover other same
      cases same
    · intro _ _ _ same filled i second days second_here prune
      cases same
      have late := prompt bytes node written file append writing filled whole content
      refine ⟨file, content, ?_⟩
      have kept := (sound.finish here).tasks second (mem_of_getElem? second_here)
      exact cutoff_le kept.begun (kept.days days prune) late
  | @removes node file there expired =>
    obtain ⟨entry, content⟩ := node?_some.mp there
    have ended := @RaceSound.changeEnd places race trace index task sound here active .remove trivial
    refine ended.signals (ended.trace.quiet ?_ ?_ ?_ ?_)
    · intro since
      have decided : .decided index ∈ trace := by
        obtain ⟨start, after, _, _, split, _⟩ := since
        rw [split]
        exact mem_append_right _ mem_cons_self
      obtain ⟨other, days, at_index, prune⟩ := sound.trace.decided index decided
      rw [here] at at_index
      cases at_index
      obtain ⟨found, same, young⟩ := sound.trace.recent index task days node here prune since
      rw [content] at same
      cases same
      exact absurd (expired days prune) (Int.not_lt.mpr young)
    · intro i same
      cases same
    · intro _ _ same
      cases same
      refine ⟨sound.files.present _ node entry, ?_⟩
      intro other linked
      have linked : entryAt (race.entries.filter fun entry => entry.1 ≠ places.file task.path)
          other = some node := linked
      rw [entryAt_filter_ne] at linked
      split at linked
      next => cases linked
      next elsewhere => exact elsewhere (sound.files.apart _ _ node linked entry)
    · intro _ _ _ same
      cases same
  | saw =>
    refine (sound.finish here).signals ((sound.finish here).trace.quiet trivial ?_ ?_ ?_)
    · intro i same
      cases same
    · intro remover other same
      cases same
    · intro _ _ _ same
      cases same

theorem logShardLock_spec (race : LogRace) (key : SpelledPath) :
    entryAt (race.logShardLock key).2.locks key = some (race.logShardLock key).1 ∧
      (∀ task ∈ race.tasks, ∀ other lock, task.stage.lock? = some lock →
        entryAt race.locks other = some lock →
        entryAt (race.logShardLock key).2.locks other = some lock) ∧
      (race.logShardLock key).2.tasks = race.tasks ∧
      (race.logShardLock key).2 = { race with
        locks := (race.logShardLock key).2.locks, made := (race.logShardLock key).2.made } := by
  have live : ∀ task ∈ race.tasks, ∀ other lock, task.stage.lock? = some lock →
      entryAt race.locks other = some lock →
      entryAt (race.locks.filter fun entry =>
        race.tasks.any fun task => task.stage.lock? = some entry.2) other = some lock := by
    intro task mem other lock held here
    refine entryAt_filter_kept (fun lock =>
      race.tasks.any fun task => task.stage.lock? = some lock) here ?_
    exact any_eq_true.mpr ⟨task, mem, decide_eq_true held⟩
  unfold logShardLock
  simp only
  split
  next lock found => exact ⟨found, live, rfl, rfl⟩
  next missing =>
    refine ⟨(entryAt_cons _ _ _ _).trans (if_pos rfl), ?_, rfl, rfl⟩
    intro task mem other lock held here
    have kept := live task mem other lock held here
    refine (entryAt_cons _ _ _ _).trans ((if_neg ?_).trans kept)
    rintro rfl
    rw [missing] at kept
    cases kept

theorem RaceSound.lookUp (sound : RaceSound places race trace) (key : SpelledPath) :
    RaceSound places (race.logShardLock key).2 trace := by
  obtain ⟨_, keeps, tasks, same⟩ := logShardLock_spec race key
  refine ⟨?_, ?_, ?_, ?_⟩
  · intro task mem
    rw [tasks] at mem
    have old := sound.tasks task mem
    have locked := fun lock held => keeps task mem _ lock held (old.locked lock held)
    rw [same] at locked ⊢
    exact ⟨old.keyed, locked, old.guarded, old.point, old.begun, old.days⟩
  · rw [tasks]
    exact sound.alone
  · rw [same]
    exact ⟨sound.files.present, sound.files.apart, sound.files.dated⟩
  · rw [same]
    exact ⟨sound.trace.kept, sound.trace.decided, sound.trace.gone, sound.trace.recent⟩

theorem runTask_sound (sound : RaceSound places race trace)
    (here : race.tasks[index]? = some task) {count : Nat} {fault : Bool}
    (prompt : ∀ bytes lock node written file, task.operation = .append bytes →
      task.stage = .working lock (.writing node written) → bytes ≠ [] → bytes.length ≤ written →
      race.nodes[node]? = some file → race.clock ≤ file.modified + microsPerDay) :
    RaceSound places (race.runTask places index task count fault).1
      (trace ++ (race.runTask places index task count fault).2) := by
  have known := sound.tasks task (mem_of_getElem? here)
  unfold runTask
  split
  · rw [append_nil]
    exact sound.finish here
  · cases stage : task.stage with
    | starting =>
      rw [append_nil]
      simp only
      split
      · refine sound.setStage here ?_ ?_ ?_ ?_
        · intro lock none
          cases none
        · intro working
          cases working
        · intro lock point working
          cases working
        · intro lock none
          cases none
      · exact sound.finish here
    | looking =>
      simp only [known.keyed, append_nil]
      obtain ⟨found, _, tasks, _⟩ := logShardLock_spec race (places.file task.path)
      refine (sound.lookUp (places.file task.path)).setStage (tasks ▸ here) ?_ ?_ ?_ ?_
      · intro lock same
        cases same
        exact found
      · intro working
        cases working
      · intro lock point working
        cases working
      · intro lock none
        cases none
    | waiting lock =>
      simp only
      split
      next =>
        rw [append_nil]
        exact sound
      next free =>
        rw [append_nil]
        refine sound.setStage here ?_ ?_ ?_ ?_
        · intro other same
          cases same
          exact known.locked lock (by rw [stage]; rfl)
        · intro _ none
          cases none
        · intro _ _ same
          cases same
          trivial
        · intro other same j second there also
          cases same
          refine absurd (any_eq_true.mpr ⟨second, mem_of_getElem? there, ?_⟩) free
          exact decide_eq_true also
    | working lock point =>
      refine worked_sound sound here stage ?_
        (work_worked sound.files (known.point lock point stage) count)
      intro bytes node written file append writing filled whole content
      rw [writing] at stage
      exact prompt bytes lock node written file append stage filled whole content
    | finished =>
      rw [append_nil]
      exact sound

theorem tick_sound (sound : RaceSound places race trace) (gap : Nat) :
    RaceSound places { race with clock := race.clock + gap } trace := by
  have later : race.clock ≤ race.clock + gap := Int.le_add_of_nonneg_right (Int.natCast_nonneg gap)
  refine ⟨?_, sound.alone, ⟨sound.files.present, sound.files.apart, ?_⟩,
    ⟨sound.trace.kept, sound.trace.decided, sound.trace.gone, sound.trace.recent⟩⟩
  · intro task mem
    have old := sound.tasks task mem
    exact ⟨old.keyed, old.locked, old.guarded, old.point, Int.le_trans old.begun later, old.days⟩
  · intro node mem
    exact Int.le_trans (sound.files.dated node mem) later

theorem task_started {new other : LogTask} {j : Nat}
    (there : (race.tasks ++ [new])[j]? = some other) :
    race.tasks[j]? = some other ∨ j = race.tasks.length ∧ other = new := by
  by_cases inside : j < race.tasks.length
  · rw [getElem?_append_left inside] at there
    exact .inl there
  · rw [getElem?_append_right (not_lt.mp inside)] at there
    obtain ⟨bound, same⟩ := List.getElem?_eq_some_iff.mp there
    rw [length_singleton] at bound
    rw [getElem_singleton] at same
    exact .inr ⟨by omega, same.symm⟩

theorem start_sound (sound : RaceSound places race trace) {operation : LogOperation}
    {path : LogPath}
    (keyed : LogTask.key? places ⟨operation, path, race.clock, .starting⟩ =
      some (places.file path)) (kept : operation ≠ .prune 0) :
    RaceSound places
      { race with tasks := race.tasks ++ [⟨operation, path, race.clock, .starting⟩] } trace := by
  refine ⟨?_, ?_, ⟨sound.files.present, sound.files.apart, sound.files.dated⟩,
    ⟨sound.trace.kept, ?_, sound.trace.gone, ?_⟩⟩
  · intro task mem
    obtain mem | mem := mem_append.mp mem
    · have old := sound.tasks task mem
      exact ⟨old.keyed, old.locked, old.guarded, old.point, old.begun, old.days⟩
    · rw [mem_singleton.mp mem]
      refine ⟨keyed, ?_, ?_, ?_, Int.le_refl race.clock, ?_⟩
      · intro lock none
        cases none
      · intro working
        cases working
      · intro lock point working
        cases working
      · rintro days same rfl
        exact kept same
  · intro i j first second lock one two guard also
    obtain first_here | ⟨_, rfl⟩ := task_started one
    · obtain second_here | ⟨_, rfl⟩ := task_started two
      · exact sound.alone i j first second lock first_here second_here guard also
      · cases also
    · cases guard
  · intro i decided
    obtain ⟨task, days, there, prune⟩ := sound.trace.decided i decided
    exact ⟨task, days,
      (getElem?_append_left (List.getElem?_eq_some_iff.mp there).1).trans there, prune⟩
  · intro i task days node there prune since
    obtain there | ⟨rfl, _⟩ := task_started there
    · exact sound.trace.recent i task days node there prune since
    · obtain ⟨start, after, _, _, split, _⟩ := since
      obtain ⟨_, _, inside, _⟩ := sound.trace.decided race.tasks.length (by rw [split]; simp)
      exact absurd (List.getElem?_eq_some_iff.mp inside).1 (lt_irrefl _)

theorem WholeAppends.later {next : LogRace} {content : List UInt8}
    (whole : WholeAppends race content)
    (kept : ∀ task ∈ race.tasks, ∃ same ∈ next.tasks, same.operation = task.operation) :
    WholeAppends next content := by
  obtain ⟨parts, joined, appends⟩ := whole
  refine ⟨parts, joined, fun part mem => ?_⟩
  obtain ⟨task, there, append⟩ := appends part mem
  obtain ⟨same, here, operation⟩ := kept task there
  exact ⟨same, here, operation.trans append⟩

theorem WholeAppends.append {content bytes : List UInt8} (whole : WholeAppends race content)
    (mem : task ∈ race.tasks) (append : task.operation = .append bytes) :
    WholeAppends race (content ++ bytes) := by
  obtain ⟨parts, rfl, appends⟩ := whole
  refine ⟨parts ++ [bytes], by simp, fun part mem => ?_⟩
  obtain old | new := mem_append.mp mem
  · exact appends part old
  · exact ⟨task, ‹_›, mem_singleton.mp new ▸ append⟩

def LogStage.Writes (stage : LogStage) (node written : Nat) : Prop :=
  ∃ lock, stage = .working lock (.writing node written)

/-- A task goes on to a stage; its own file and the others hold what they should. -/
theorem ContentSound.moved (whole : ContentSound race) (here : race.tasks[index]? = some task)
    {next : LogRace} (tasks : next.tasks = race.tasks.set index { task with stage })
    (settled : ∀ (node : Nat) file, next.nodes[node]? = some file →
      (∀ written, ¬stage.Writes node written) →
      (∀ written, ¬task.stage.Writes node written) ∧ race.nodes[node]? = some file ∨
        WholeAppends race file.content)
    (writing : ∀ node written, stage.Writes node written →
      ∃ bytes file content, task.operation = .append bytes ∧ next.nodes[node]? = some file ∧
        WholeAppends race content ∧ file.content = content ++ bytes.take written)
    (others : ∀ (j : Nat) other node written, race.tasks[j]? = some other → j ≠ index →
      other.stage.Writes node written → next.nodes[node]? = race.nodes[node]?) :
    ContentSound next := by
  have inside := (List.getElem?_eq_some_iff.mp here).1
  have placed (j : Nat) : next.tasks[j]? =
      if index = j then some { task with stage } else race.tasks[j]? := by
    rw [tasks, getElem?_set, if_pos inside]
  have kept : ∀ old ∈ race.tasks, ∃ same ∈ next.tasks, same.operation = old.operation := by
    intro old mem
    obtain ⟨j, there⟩ := mem_iff_getElem?.mp mem
    by_cases same : index = j
    · subst same
      rw [here] at there
      cases there
      exact ⟨_, mem_of_getElem? ((placed index).trans (if_pos rfl)), rfl⟩
    · exact ⟨old, mem_of_getElem? ((placed j).trans ((if_neg same).trans there)), rfl⟩
  have own := mem_of_getElem? ((placed index).trans (if_pos rfl))
  refine ⟨fun node file found quiet => ?_, fun other mem lock node written writes => ?_⟩
  · refine WholeAppends.later ?_ kept
    rcases settled node file found fun written ⟨lock, same⟩ => quiet _ own lock written same with
      ⟨unwritten, old⟩ | done
    · refine whole.settled node file old fun other mem lock written writes => ?_
      obtain ⟨j, there⟩ := mem_iff_getElem?.mp mem
      by_cases same : index = j
      · subst same
        rw [here] at there
        cases there
        exact unwritten written ⟨lock, writes⟩
      · exact quiet other (mem_of_getElem? ((placed j).trans ((if_neg same).trans there))) lock
          written writes
    · exact done
  · obtain ⟨j, there⟩ := mem_iff_getElem?.mp mem
    rw [placed] at there
    split at there
    · cases there
      obtain ⟨bytes, file, content, append, found, old, has⟩ := writing node written ⟨lock, writes⟩
      exact ⟨bytes, file, content, append, found, old.later kept, has⟩
    next apart =>
      obtain ⟨bytes, file, content, append, found, old, has⟩ :=
        whole.writing other (mem_of_getElem? there) lock node written writes
      rw [← others j other node written there (Ne.symm apart) ⟨lock, writes⟩] at found
      exact ⟨bytes, file, content, append, found, old.later kept, has⟩

/-- A task that does not write, and did not stop within its bytes, leaves whole appends. -/
theorem ContentSound.stops (whole : ContentSound race) (here : race.tasks[index]? = some task)
    {next : LogRace} (tasks : next.tasks = race.tasks.set index { task with stage })
    (nodes : next.nodes = race.nodes) (quiet : ∀ node written, ¬stage.Writes node written)
    (complete : ∀ node written bytes, task.stage.Writes node written →
      task.operation = .append bytes → written = 0 ∨ bytes.length ≤ written) :
    ContentSound next := by
  refine whole.moved here tasks (fun node file found _ => ?_)
    (fun node written writes => (quiet node written writes).elim) fun _ _ _ _ _ _ _ => by rw [nodes]
  rw [nodes] at found
  by_cases wrote : ∃ written, task.stage.Writes node written
  · obtain ⟨written, lock, stage⟩ := wrote
    have mem := mem_of_getElem? here
    obtain ⟨bytes, other, content, append, same, old, has⟩ :=
      whole.writing task mem lock node written stage
    obtain rfl := Option.some.inj (found.symm.trans same)
    rcases complete node written bytes ⟨lock, stage⟩ append with rfl | all
    · rw [has, take_zero, append_nil]
      exact .inr old
    · rw [has, take_of_length_le all]
      exact .inr (old.append mem append)
  · exact .inl ⟨fun written writes => wrote ⟨written, writes⟩, found⟩

/-- Only the writer of a file writes to it. -/
theorem ContentSound.wrote (sound : RaceSound places race trace) (whole : ContentSound race)
    (here : race.tasks[index]? = some task) (working : task.stage.isWorking = true)
    {node written : Nat} {file : LogNode} {bytes content : List UInt8} {lock : Option Nat}
    (append : task.operation = .append bytes)
    (there : race.node? (places.file task.path) = some (node, file))
    (old : WholeAppends race content) {next : LogRace}
    (tasks : next.tasks = race.tasks.set index
      { task with stage := .working lock (.writing node written) })
    (own : ∃ changed, next.nodes[node]? = some changed ∧
      changed.content = content ++ bytes.take written)
    (elsewhere : ∀ other, other ≠ node → next.nodes[other]? = race.nodes[other]?) :
    ContentSound next := by
  refine whole.moved here tasks ?_ ?_ ?_
  · intro other found_file found quiet
    have apart : other ≠ node := by
      rintro rfl
      exact quiet written ⟨lock, rfl⟩
    refine .inl ⟨?_, (elsewhere other apart).symm.trans found⟩
    rintro before ⟨_, writes⟩
    obtain ⟨_, here_too⟩ := (sound.tasks task (mem_of_getElem? here)).point _ _ writes
    rw [there] at here_too
    cases here_too
    exact apart rfl
  · rintro _ _ ⟨_, same⟩
    cases same
    obtain ⟨changed, found, has⟩ := own
    exact ⟨bytes, changed, content, append, found, old, has⟩
  · rintro j other target before found apart ⟨_, writes⟩
    refine elsewhere target ?_
    rintro rfl
    exact apart (sound.writer_alone here found working there writes).symm

/-- An append that makes its file starts with nothing in it. -/
theorem ContentSound.created (sound : RaceSound places race trace) (whole : ContentSound race)
    (here : race.tasks[index]? = some task) {lock : Option Nat} {bytes : List UInt8}
    (working : task.stage = .working lock .entered) (append : task.operation = .append bytes) :
    ContentSound ((race.change (places.file task.path) .create).setStage index task
      (.working lock (.writing race.nodes.length 0))) := by
  refine whole.moved here rfl ?_ ?_ ?_
  · intro node file found quiet
    have apart : node ≠ race.nodes.length := by
      rintro rfl
      exact quiet 0 ⟨lock, rfl⟩
    have old : (race.nodes ++ [(⟨[], race.clock⟩ : LogNode)])[node]? = some file := found
    have inside := (List.getElem?_eq_some_iff.mp old).1
    rw [length_append, length_singleton] at inside
    rw [getElem?_append_left (by omega)] at old
    refine .inl ⟨?_, old⟩
    rintro _ ⟨_, writes⟩
    rw [working] at writes
    cases writes
  · rintro _ _ ⟨_, same⟩
    cases same
    exact ⟨bytes, ⟨[], race.clock⟩, [], append, getElem?_concat_length, ⟨[], rfl, nofun⟩, rfl⟩
  · rintro j other node written found _ ⟨_, writes⟩
    obtain ⟨_, there⟩ := (sound.tasks other (mem_of_getElem? found)).point _ _ writes
    exact getElem?_append_left (sound.files.present _ node (node?_some.mp there).1)

/-- What does not write to a file only leaves it as it is or removes it. -/
theorem work_quiet {lock : Option Nat} {point : LogPoint}
    (apart : ∀ node written, point ≠ .writing node written)
    (other : ∀ bytes, task.operation = .append bytes → point ≠ .entered) (count : Nat) :
    let done := race.work places index task lock point count
    (done.1 = .none ∨ done.1 = .remove) ∧ ∀ node written, ¬done.2.1.Writes node written := by
  unfold LogRace.work LogStage.Writes
  dsimp only
  split
  all_goals try split
  all_goals simp_all

theorem work_content (sound : RaceSound places race trace) (whole : ContentSound race)
    (here : race.tasks[index]? = some task) {lock : Option Nat} {point : LogPoint}
    (working : task.stage = .working lock point) (count : Nat) :
    let done := race.work places index task lock point count
    ContentSound ((race.change (places.file task.path) done.1).setStage index task done.2.1) := by
  have active : task.stage.isWorking = true := by rw [working]; rfl
  have mem := mem_of_getElem? here
  by_cases writing : ∃ node written, point = .writing node written
  · obtain ⟨node, written, rfl⟩ := writing
    obtain ⟨bytes, file, content, append, same, old, has⟩ :=
      whole.writing task mem lock node written working
    obtain ⟨other, there⟩ := (sound.tasks task mem).point lock _ working
    simp only [LogRace.work, append]
    split
    next all =>
      refine whole.stops here rfl rfl (by rintro _ _ ⟨_, ⟨⟩⟩) ?_
      rintro _ _ other ⟨_, also⟩ appends
      rw [working] at also
      cases also
      cases append.symm.trans appends
      exact .inr all
    next =>
      let piece := (bytes.drop written).take (count + 1)
      refine whole.wrote sound here active append there old rfl
        ⟨⟨file.content ++ piece, race.clock⟩, ?_, ?_⟩ fun other apart => ?_
      · refine (getElem?_modify_eq _ _ _).trans ?_
        rw [same]
        rfl
      · have more : bytes.take (written + piece.length) = bytes.take written ++ piece := by
          have part : piece = (bytes.drop written).take piece.length :=
            prefix_iff_eq_take.mp (List.take_prefix (count + 1) _)
          rw [take_add, ← part]
        rw [more, ← append_assoc, ← has]
      · exact getElem?_modify_ne _ _ (Ne.symm apart)
  by_cases opening : ∃ bytes, task.operation = .append bytes ∧ point = .entered
  · obtain ⟨bytes, append, rfl⟩ := opening
    simp only [LogRace.work, append]
    cases found : race.node? (places.file task.path) with
    | none => exact whole.created sound here working append
    | some there =>
      obtain ⟨node, file⟩ := there
      have content := (node?_some.mp found).2
      have old : WholeAppends race file.content := by
        refine whole.settled node file content fun other writes lock' written writing => ?_
        obtain ⟨j, two⟩ := mem_iff_getElem?.mp writes
        have same := sound.writer_alone here two active found writing
        rw [← same, here] at two
        cases two
        rw [working] at writing
        cases writing
      exact whole.wrote sound here active append found old rfl
        ⟨file, content, (append_nil _).symm⟩ fun _ _ => rfl
  · have apart : ∀ node written, point ≠ .writing node written :=
      fun node written same => writing ⟨node, written, same⟩
    obtain ⟨plain, quiet⟩ := @work_quiet places race index task lock point apart
      (fun bytes append entered => opening ⟨bytes, append, entered⟩) count
    refine whole.stops here ?_ ?_ quiet ?_
    · change (race.change _ _).tasks.set index _ = _
      rw [(change_tasks race _ _).1]
    · rcases plain with same | same <;> rw [same] <;> rfl
    · rintro node written _ ⟨_, writes⟩
      rw [working] at writes
      cases writes
      exact (apart node written rfl).elim

theorem runTask_content (sound : RaceSound places race trace) (whole : ContentSound race)
    (here : race.tasks[index]? = some task) {count : Nat} {fault : Bool}
    (untorn : fault = true → ∀ node written bytes, task.stage.Writes node written →
      task.operation = .append bytes → written = 0 ∨ bytes.length ≤ written) :
    ContentSound (race.runTask places index task count fault).1 := by
  have ended : ∀ node written, ¬LogStage.finished.Writes node written := by
    rintro _ _ ⟨_, same⟩
    cases same
  have unwritten (other : LogStage) (plain : ∀ node written, ¬other.Writes node written)
      (stage : task.stage = other) : ∀ node written bytes, task.stage.Writes node written →
        task.operation = .append bytes → written = 0 ∨ bytes.length ≤ written :=
    fun node written _ writes _ => (plain node written (stage ▸ writes)).elim
  unfold runTask
  split
  next failed => exact whole.stops here rfl rfl ended (untorn failed)
  · cases stage : task.stage with
    | starting =>
      have plain := unwritten .starting (by rintro _ _ ⟨_, ⟨⟩⟩) stage
      dsimp only
      split
      · exact whole.stops here rfl rfl (by rintro _ _ ⟨_, ⟨⟩⟩) plain
      · exact whole.stops here rfl rfl ended plain
    | looking =>
      have plain := unwritten .looking (by rintro _ _ ⟨_, ⟨⟩⟩) stage
      dsimp only
      split
      · exact whole.stops here rfl rfl (by rintro _ _ ⟨_, ⟨⟩⟩) plain
      next key _ =>
        obtain ⟨_, _, tasks, same⟩ := logShardLock_spec race key
        have waits : ∀ node written,
            ¬(LogStage.waiting (race.logShardLock key).1).Writes node written := by
          rintro _ _ ⟨_, ⟨⟩⟩
        refine whole.stops here (congrArg (fun all => all.set index
          { task with stage := .waiting (race.logShardLock key).1 }) tasks) ?_ waits plain
        change (race.logShardLock key).2.nodes = race.nodes
        rw [same]
    | waiting lock =>
      have plain := unwritten (.waiting lock) (by rintro _ _ ⟨_, ⟨⟩⟩) stage
      dsimp only
      split
      · exact whole
      · exact whole.stops here rfl rfl (by rintro _ _ ⟨_, ⟨⟩⟩) plain
    | working lock point => exact work_content sound whole here stage count
    | finished => exact whole

end Stages

theorem race_step {event : LogRaceEvent} (orderly : event.Orderly places race)
    (sound : RaceSound places race trace) :
    RaceSound places ((logRace places).step race event).1
      (trace ++ ((logRace places).step race event).2) := by
  cases event with
  | start operation path =>
    cases operation with
    | append bytes =>
      rw [show ((logRace places).step race (.start (.append bytes) path)).2 = [] from rfl,
        append_nil]
      exact start_sound sound (congrArg some (Eq.symm orderly)) (by simp)
    | prune days =>
      cases days with
      | zero =>
        rw [show ((logRace places).step race (.start (.prune 0) path)).2 = [] from rfl,
          append_nil]
        exact sound
      | succ days =>
        have started := @start_sound places race trace sound (.prune (days + 1)) path rfl (by simp)
        refine started.signals (started.trace.quiet trivial ?_ ?_ ?_)
        · intro i same
          cases same
          exact ⟨_, days + 1, getElem?_concat_length, rfl⟩
        · intro remover node same
          cases same
        · intro _ _ _ same
          cases same
    | delete =>
      rw [show ((logRace places).step race (.start .delete path)).2 = [] from rfl,
        append_nil]
      exact start_sound sound rfl (by simp)
    | read offset length =>
      rw [show ((logRace places).step race (.start (.read offset length) path)).2 = [] from rfl,
        append_nil]
      exact start_sound sound rfl (by simp)
    | preview offset length => exact orderly.elim
  | run index count fault =>
    cases here : race.tasks[index]? with
    | none =>
      simp only [logRace, here, append_nil]
      exact sound
    | some task =>
      simp only [logRace, here]
      refine runTask_sound sound here ?_
      intro bytes lock node written file append writing filled whole content
      exact (orderly task bytes lock node written here append writing).2 file filled whole content
  | tick gap =>
    rw [show ((logRace places).step race (.tick gap)).2 = [] from rfl, append_nil]
    exact tick_sound sound gap

theorem content_step {event : LogRaceEvent} (orderly : event.Orderly places race)
    (sound : RaceSound places race trace) (whole : ContentSound race) :
    ContentSound ((logRace places).step race event).1 := by
  cases event with
  | start operation path =>
    have started : ContentSound
        { race with tasks := race.tasks ++ [⟨operation, path, race.clock, .starting⟩] } := by
      have kept : ∀ task ∈ race.tasks, ∃ same ∈ race.tasks ++
          [(⟨operation, path, race.clock, .starting⟩ : LogTask)], same.operation = task.operation :=
        fun task mem => ⟨task, mem_append_left _ mem, rfl⟩
      refine ⟨fun node file found quiet => ?_, fun task mem lock node written writes => ?_⟩
      · exact (whole.settled node file found fun task mem =>
          quiet task (mem_append_left _ mem)).later kept
      · obtain mem | new := mem_append.mp mem
        · obtain ⟨bytes, file, content, append, found, old, has⟩ :=
            whole.writing task mem lock node written writes
          exact ⟨bytes, file, content, append, found, old.later kept, has⟩
        · rw [mem_singleton.mp new] at writes
          cases writes
    cases operation with
    | prune days =>
      cases days with
      | zero => exact whole
      | succ days => exact started
    | append | delete | read | preview => exact started
  | run index count fault =>
    cases here : race.tasks[index]? with
    | none =>
      simp only [logRace, here]
      exact whole
    | some task =>
      simp only [logRace, here]
      refine runTask_content sound whole here ?_
      rintro failed node written bytes ⟨lock, stage⟩ append
      exact (orderly task bytes lock node written here append stage).1 failed
  | tick gap => exact ⟨whole.settled, whole.writing⟩

end Exclusion

theorem start_race_sound (places : LogPlaces) (clock : DateTime) :
    RaceSound places (LogRace.start clock) [] := by
  refine ⟨?_, ?_, ⟨?_, ?_, ?_⟩, ⟨eachAfter_nil _, ?_, ?_, ?_⟩⟩
  · intro task mem
    cases mem
  · intro i j first second lock one
    cases one
  · intro file node entry
    cases entry
  · intro first second node entry
    cases entry
  · intro node mem
    cases mem
  · intro index mem
    cases mem
  · intro remover node mem
    cases mem
  · intro index task days node here
    cases here

/-- In every state of a run the operations on one file are one after the other, and what it says
that was appended is kept. -/
def OperationsExclude (places : LogPlaces) (clock : DateTime) (events : List LogRaceEvent) : Prop :=
  (∀ before after, events = before ++ after →
    ((logRace places).run (LogRace.start clock) before).1.Exclusive places) ∧
  EachAfter AppendKept ((logRace places).run (LogRace.start clock) events).2

theorem orderly_operations_exclude (places : LogPlaces) (clock : DateTime)
    (events : List LogRaceEvent)
    (orderly : (logRace places).StepsMeet (LogRaceEvent.Orderly places) (LogRace.start clock)
      events) : OperationsExclude places clock events := by
  have run : ∀ before, (logRace places).StepsMeet (LogRaceEvent.Orderly places)
      (LogRace.start clock) before →
      RaceSound places ((logRace places).run (LogRace.start clock) before).1
          ((logRace places).run (LogRace.start clock) before).2 ∧
        ContentSound ((logRace places).run (LogRace.start clock) before).1 := by
    intro before meets
    refine @Transducer.run_preserves_trace_of _ _ _ (logRace places) (LogRaceEvent.Orderly places)
      (fun race trace => RaceSound places race trace ∧ ContentSound race)
      (fun _ _ _ orderly sound =>
        ⟨race_step orderly sound.1, content_step orderly sound.1 sound.2⟩) _ [] _ meets
      ⟨start_race_sound places clock, fun _ _ found => ?_, fun _ mem => ?_⟩
    · cases found
    · cases mem
  constructor
  · rintro before after rfl
    obtain ⟨sound, whole⟩ := run before ((logRace places).stepsMeet_append.mp orderly).1
    exact sound.exclusive whole
  · exact (run events orderly).1.trace.kept

/-- A store whose directory is reached through a link. -/
def sampleLinkedPlaces : LogPlaces where
  root := "/data/link/logs".toList
  canonical path :=
    if "/data/link/".toList.isPrefixOf path then "/data/disk/".toList ++ path.drop 11 else path

def sampleShard : LogPath := ["s1.raw".toList]

/-- A retention takes a shard for old, and before it removes it an append is made and returns. -/
def sampleRaceUntilBoth : List LogRaceEvent :=
  [.start (.append [65]) sampleShard, .run 0 0 false, .run 0 0 false, .run 0 0 false,
    .run 0 0 false, .run 0 0 false, .run 0 0 false, .tick 172800000001,
    .start (.prune 1) sampleShard, .run 1 0 false, .run 1 0 false, .run 1 0 false, .run 1 0 false,
    .start (.append [66]) sampleShard, .run 2 0 false, .run 2 0 false, .run 2 0 false]

def sampleRace : List LogRaceEvent :=
  sampleRaceUntilBoth ++ [.run 2 0 false, .run 2 0 false, .run 2 0 false, .run 1 0 false]

theorem linked_store_races :
    ¬ ((logRace sampleLinkedPlaces).run (LogRace.start 0) sampleRaceUntilBoth).1.Exclusive
        sampleLinkedPlaces ∧
      ¬ EachAfter AppendKept ((logRace sampleLinkedPlaces).run (LogRace.start 0) sampleRace).2 := by
  constructor
  · intro exclusive
    have tasks : ((logRace sampleLinkedPlaces).run (LogRace.start 0) sampleRaceUntilBoth).1.tasks =
        [⟨.append [65], sampleShard, 0, .finished⟩,
          ⟨.prune 1, sampleShard, 172800000001, .working (some 1) .removing⟩,
          ⟨.append [66], sampleShard, 172800000001, .working (some 2) .entered⟩] := by
      decide
    have both := exclusive.serial 1 2
    rw [tasks] at both
    exact absurd (both _ _ rfl rfl rfl rfl rfl) (by decide)
  · intro kept
    have trace : ((logRace sampleLinkedPlaces).run (LogRace.start 0) sampleRace).2 =
        [.appended 0 0 [65], .decided 1, .appended 2 0 [66], .removed 1 0] := by
      decide
    rw [trace] at kept
    refine kept [.appended 0 0 [65], .decided 1, .appended 2 0 [66]] (.removed 1 0) [] rfl ?_
    exact ⟨[.appended 0 0 [65]], [.appended 2 0 [66]], 2, [66], rfl, by simp, by simp⟩

theorem orderly_fresh {places : LogPlaces} {race : LogRace} {index count : Nat}
    (fresh : ∀ file ∈ race.nodes, race.clock ≤ file.modified + microsPerDay) :
    LogRaceEvent.Orderly places race (.run index count false) := by
  intro task bytes lock node written _ _ _
  refine ⟨fun failed => ?_, fun file _ _ content => fresh file (mem_of_getElem? content)⟩
  cases failed

def samplePlaces : LogPlaces := ⟨"/data/disk/logs".toList, id⟩

theorem sample_operations_exclude :
    OperationsExclude samplePlaces 0
      [.start (.append [65]) sampleShard, .start .delete sampleShard, .run 0 0 false,
        .run 0 0 false, .run 0 0 false, .run 0 0 false, .run 1 0 false, .run 1 0 false,
        .run 1 0 false, .run 0 0 false, .run 0 0 false] := by
  refine orderly_operations_exclude _ _ _ ⟨rfl, trivial, ?_, ?_, ?_, ?_, ?_, ?_, ?_, ?_, ?_, trivial⟩
  all_goals exact orderly_fresh (by decide)

end PortMate
