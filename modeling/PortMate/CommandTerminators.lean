import PortMate.SessionModels
import PortMate.TelnetText

namespace PortMate

open List Bool Except

section Functions

/-- `replace("\r\n", "\n").replace('\r', "\n")` -/
def normalizeLineEnds : List Char → List Char
  | '\r' :: '\n' :: text => '\n' :: normalizeLineEnds text
  | '\r' :: text => '\n' :: normalizeLineEnds text
  | c :: text => c :: normalizeLineEnds text
  | [] => []

def terminateCommandForProtocol (command : List Char) (isTelnet : Bool) : List Char :=
  if isTelnet then
    let command := normalizeLineEnds command
    let command := if command.getLast? = some '\n' then command else command ++ ['\n']
    command.flatMap fun c => if c = '\n' then ['\r', '\n'] else [c]
  else
    let needsTerminator := command.getLast? ≠ some '\n' ∧ command.getLast? ≠ some '\r'
    if needsTerminator then command ++ ['\n'] else command

/-- The sessions known to the store, each with the kind of its connection. -/
abbrev SessionKinds := List (String × SessionKind)

def terminateCommandForSession (command : List Char) (store : SessionKinds) (sessionId : String) :
    Except String (List Char) :=
  match store.lookup sessionId with
  | none => .error s!"unknown session: {sessionId}"
  | some kind =>
    if kind = .serial then
      let wire := (normalizeLineEnds command).map fun c => if c = '\n' then '\r' else c
      .ok (if wire.getLast? = some '\r' then wire else wire ++ ['\r'])
    else .ok (terminateCommandForProtocol command (kind == .telnet))

end Functions

section Lines

def isLineEnd (c : Char) : Bool := c == '\r' || c == '\n'

/-- The lines of a text, whether CR LF, CR or LF ends them. -/
def linesOf : List Char → List (List Char)
  | '\r' :: '\n' :: text => [] :: linesOf text
  | '\r' :: text => [] :: linesOf text
  | '\n' :: text => [] :: linesOf text
  | c :: text => (linesOf text).modifyHead (c :: ·)
  | [] => [[]]

/-- The commands of a text: its lines without the empty one behind the last line end. -/
def commandLines (text : List Char) : List (List Char) :=
  if 1 < (linesOf text).length ∧ (linesOf text).getLast? = some [] then (linesOf text).dropLast
  else linesOf text

def endedBy (ending : List Char) (lines : List (List Char)) : List Char :=
  lines.flatMap (· ++ ending)

theorem linesOf_ne_nil (text : List Char) : linesOf text ≠ [] := by
  fun_induction linesOf text with
  | case1 => exact cons_ne_nil _ _
  | case2 => exact cons_ne_nil _ _
  | case3 => exact cons_ne_nil _ _
  | case4 c text pair bare feed ih => simpa [modifyHead_eq_nil_iff] using ih
  | case5 => exact cons_ne_nil _ _

variable {lines : List (List Char)}

theorem modifyHead_ended (c : Char) {ending : List Char} (some : lines ≠ []) :
    endedBy ending (lines.modifyHead (c :: ·)) = c :: endedBy ending lines := by
  cases lines with
  | nil => exact absurd rfl some
  | cons line lines => rfl

theorem endedBy_append (ending : List Char) (lines more : List (List Char)) :
    endedBy ending (lines ++ more) = endedBy ending lines ++ endedBy ending more :=
  flatMap_append

theorem endedBy_cons (ending line : List Char) (lines : List (List Char)) :
    endedBy ending (line :: lines) = line ++ (ending ++ endedBy ending lines) := by
  simp [endedBy]

theorem normalizeLineEnds_lines (text : List Char) :
    normalizeLineEnds text ++ ['\n'] = endedBy ['\n'] (linesOf text) := by
  fun_induction linesOf text with
  | case1 text ih =>
    rw [normalizeLineEnds, cons_append, ih]
    rfl
  | case2 text further ih =>
    rw [normalizeLineEnds, cons_append, ih]
    · rfl
    · exact further
  | case3 text ih =>
    rw [normalizeLineEnds, cons_append, ih]
    · rfl
    · exact fun _ same => absurd same (by decide)
    · exact fun same => absurd same (by decide)
  | case4 c text pair bare feed ih =>
    rw [modifyHead_ended c (linesOf_ne_nil text), normalizeLineEnds, cons_append, ih]
    · exact pair
    · exact bare
  | case5 => rfl

def PlainLine (line : List Char) : Prop := ∀ c ∈ line, isLineEnd c = false

theorem linesOf_plain (text : List Char) : ∀ line ∈ linesOf text, PlainLine line := by
  fun_induction linesOf text with
  | case1 text ih => exact forall_mem_cons.mpr ⟨nofun, ih⟩
  | case2 text further ih => exact forall_mem_cons.mpr ⟨nofun, ih⟩
  | case3 text ih => exact forall_mem_cons.mpr ⟨nofun, ih⟩
  | case4 c text pair bare feed ih =>
    have here : isLineEnd c = false := by
      rw [isLineEnd, or_eq_false_iff, beq_eq_false_iff_ne, beq_eq_false_iff_ne]
      exact ⟨bare, feed⟩
    cases lines : linesOf text with
    | nil => exact nofun
    | cons line more =>
      rw [lines] at ih
      obtain ⟨first, others⟩ := forall_mem_cons.mp ih
      exact forall_mem_cons.mpr ⟨forall_mem_cons.mpr ⟨here, first⟩, others⟩
  | case5 => exact forall_mem_cons.mpr ⟨nofun, nofun⟩

theorem commandLines_plain (text : List Char) : ∀ line ∈ commandLines text, PlainLine line := by
  intro line mem
  rw [commandLines] at mem
  split at mem
  · exact linesOf_plain text line (dropLast_subset _ mem)
  · exact linesOf_plain text line mem

theorem commandLines_ne_nil (text : List Char) : commandLines text ≠ [] := by
  rw [commandLines]
  split
  next several =>
    rw [ne_eq, ← length_eq_zero_iff, length_dropLast]
    omega
  next => exact linesOf_ne_nil text

theorem terminated_lines (text : List Char) :
    (if (normalizeLineEnds text).getLast? = some '\n' then normalizeLineEnds text
      else normalizeLineEnds text ++ ['\n']) = endedBy ['\n'] (commandLines text) := by
  have whole := normalizeLineEnds_lines text
  obtain ⟨front, last, split⟩ := eq_nil_or_concat' (linesOf text) |>.resolve_left
    (linesOf_ne_nil text)
  have plain : PlainLine last := linesOf_plain text last (by simp [split])
  rw [split, endedBy_append, endedBy_cons, ← append_assoc, ← append_assoc] at whole
  have content : normalizeLineEnds text = endedBy ['\n'] front ++ last :=
    append_cancel_right (by simpa [endedBy] using whole)
  rw [commandLines, content, split]
  cases last using List.reverseRecOn with
  | nil =>
    cases front using List.reverseRecOn with
    | nil => rfl
    | append_singleton front line =>
      have ends : (endedBy ['\n'] (front ++ [line]) ++ []).getLast? = some '\n' := by
        rw [endedBy_append, endedBy_cons]
        simp [endedBy]
      rw [if_pos ends, if_pos (by simp), dropLast_concat, append_nil]
  | append_singleton last c =>
    have differs : c ≠ '\n' := by
      rintro rfl
      have ends := plain '\n' (by simp)
      exact absurd ends (by decide)
    have open' : (endedBy ['\n'] front ++ (last ++ [c])).getLast? ≠ some '\n' := by
      rw [← append_assoc, getLast?_concat]
      simpa using differs
    rw [if_neg open', if_neg (by simp), endedBy_append, endedBy_cons]
    simp [endedBy]

theorem replace_ended {replacement : List Char} (lines : List (List Char))
    (plain : ∀ line ∈ lines, PlainLine line) :
    (endedBy ['\n'] lines).flatMap (fun c => if c = '\n' then replacement else [c]) =
      endedBy replacement lines := by
  have kept : ∀ line, PlainLine line →
      line.flatMap (fun c => if c = '\n' then replacement else [c]) = line := by
    intro line plain
    induction line with
    | nil => rfl
    | cons c line ih =>
      obtain ⟨here, later⟩ := forall_mem_cons.mp plain
      have differs : c ≠ '\n' := by
        rintro rfl
        exact absurd here (by decide)
      rw [flatMap_cons, if_neg differs, ih later]
      rfl
  induction lines with
  | nil => rfl
  | cons line lines ih =>
    obtain ⟨first, others⟩ := forall_mem_cons.mp plain
    rw [endedBy_cons, endedBy_cons, flatMap_append, flatMap_append, kept line first,
      ih others]
    simp

theorem normalizeLineEnds_noReturn (text : List Char) : '\r' ∉ normalizeLineEnds text := by
  intro mem
  have inside : '\r' ∈ endedBy ['\n'] (linesOf text) := by
    rw [← normalizeLineEnds_lines]
    exact mem_append_left _ mem
  obtain ⟨line, lineMem, here⟩ := mem_flatMap.mp inside
  obtain here | here := mem_append.mp here
  · exact absurd (linesOf_plain text line lineMem _ here) (by decide)
  · exact absurd here (by decide)

theorem serial_form (command : List Char) :
    (let wire := (normalizeLineEnds command).map fun c => if c = '\n' then '\r' else c
      if wire.getLast? = some '\r' then wire else wire ++ ['\r']) =
      endedBy ['\r'] (commandLines command) := by
  have mapped : ∀ text : List Char, text.map (fun c => if c = '\n' then '\r' else c) =
      text.flatMap fun c => if c = '\n' then ['\r'] else [c] := by
    intro text
    induction text with
    | nil => rfl
    | cons c text ih =>
      rw [map_cons, flatMap_cons, ih]
      split <;> rfl
  have last : ((normalizeLineEnds command).map fun c => if c = '\n' then '\r' else c).getLast? =
      some '\r' ↔ (normalizeLineEnds command).getLast? = some '\n' := by
    rw [getLast?_map, Option.map_eq_some_iff]
    constructor
    · rintro ⟨c, ends, turned⟩
      split at turned
      next same => rw [ends, same]
      next => exact absurd (mem_of_getLast? (turned ▸ ends)) (normalizeLineEnds_noReturn command)
    · exact fun ends => ⟨'\n', ends, rfl⟩
  rw [← replace_ended _ (commandLines_plain command), ← mapped, ← terminated_lines]
  dsimp only
  simp only [last]
  split
  · rfl
  · simp

theorem telnet_form (command : List Char) :
    terminateCommandForProtocol command true = endedBy ['\r', '\n'] (commandLines command) := by
  rw [terminateCommandForProtocol, if_pos rfl]
  dsimp only
  rw [terminated_lines, replace_ended _ (commandLines_plain command)]

def Ends (ending rest : List Char) : Prop :=
  ∀ line, PlainLine line → linesOf (line ++ (ending ++ rest)) = line :: linesOf rest

theorem linesOf_cons {c : Char} (plain : isLineEnd c = false) (text : List Char) :
    linesOf (c :: text) = (linesOf text).modifyHead (c :: ·) := by
  rw [isLineEnd, or_eq_false_iff, beq_eq_false_iff_ne, beq_eq_false_iff_ne] at plain
  rw [linesOf]
  · exact fun _ same => absurd same plain.1
  · exact plain.1
  · exact plain.2

theorem ends_of {ending rest : List Char} (here : linesOf (ending ++ rest) = [] :: linesOf rest) :
    Ends ending rest := by
  intro line plain
  induction line with
  | nil => exact here
  | cons c line ih =>
    obtain ⟨first, later⟩ := forall_mem_cons.mp plain
    rw [cons_append, linesOf_cons first, ih later]
    rfl

theorem linesOf_endedBy {ending : List Char} (plain : ∀ line ∈ lines, PlainLine line)
    (ends : ∀ lines, (∀ line ∈ lines, PlainLine line) → Ends ending (endedBy ending lines)) :
    linesOf (endedBy ending lines) = lines ++ [[]] := by
  induction lines with
  | nil => rfl
  | cons line lines ih =>
    obtain ⟨first, others⟩ := forall_mem_cons.mp plain
    rw [endedBy_cons, ends lines others line first, ih others]
    rfl

theorem commandLines_endedBy {ending : List Char} (some : lines ≠ [])
    (plain : ∀ line ∈ lines, PlainLine line)
    (ends : ∀ lines, (∀ line ∈ lines, PlainLine line) → Ends ending (endedBy ending lines)) :
    commandLines (endedBy ending lines) = lines := by
  have counted := length_pos_iff.mpr some
  rw [commandLines, linesOf_endedBy plain ends, if_pos (by simp [counted]), dropLast_concat]

theorem ends_crLf (rest : List Char) : Ends ['\r', '\n'] rest := ends_of (by simp [linesOf])

theorem ends_cr (plain : ∀ line ∈ lines, PlainLine line) : Ends ['\r'] (endedBy ['\r'] lines) := by
  apply ends_of
  cases lines with
  | nil => rfl
  | cons line lines =>
    rw [endedBy_cons]
    cases line with
    | nil => simp [linesOf]
    | cons c line =>
      have here := (forall_mem_cons.mp ((forall_mem_cons.mp plain).1)).1
      have differs : c ≠ '\n' := by
        rintro rfl
        exact absurd here (by decide)
      rw [singleton_append, cons_append, linesOf]
      rintro text same
      exact differs (List.cons.inj same).1

variable {text : List Char}

theorem getLast?_tail {c : Char} (open' : (c :: text).getLast? ≠ some '\r') :
    text.getLast? ≠ some '\r' := by
  cases text with
  | nil => exact nofun
  | cons d text => rwa [getLast?_cons_cons] at open'

theorem linesOf_lineFeed (open' : text.getLast? ≠ some '\r') :
    linesOf (text ++ ['\n']) = linesOf text ++ [[]] := by
  fun_induction linesOf text with
  | case1 text ih =>
    rw [cons_append, cons_append, linesOf, ih (getLast?_tail (getLast?_tail open'))]
    rfl
  | case2 text further ih =>
    cases text with
    | nil => exact absurd rfl open'
    | cons c text =>
      rw [cons_append, linesOf, ih (getLast?_tail open')]
      · rfl
      · intro rest same
        rw [cons_append] at same
        exact further text (by rw [(List.cons.inj same).1])
  | case3 text ih =>
    rw [cons_append, linesOf, ih (getLast?_tail open')]
    rfl
  | case4 c text pair bare feed ih =>
    have plain : isLineEnd c = false := by
      rw [isLineEnd, or_eq_false_iff, beq_eq_false_iff_ne, beq_eq_false_iff_ne]
      exact ⟨bare, feed⟩
    rw [cons_append, linesOf_cons plain, ih (getLast?_tail open')]
    cases lines : linesOf text with
    | nil => exact absurd lines (linesOf_ne_nil text)
    | cons line more => rfl
  | case5 => rfl

theorem last_of_tail {c d : Char} (last : (d :: text).getLast? = some c)
    (plain : isLineEnd c = false) (ended : isLineEnd d = true) : text.getLast? = some c := by
  cases text with
  | nil =>
    rw [getLast?_singleton, Option.some.injEq] at last
    rw [last, plain] at ended
    exact absurd ended Bool.false_ne_true
  | cons e text => rwa [getLast?_cons_cons] at last

theorem empty_line_last (some : lines ≠ []) : ([] :: lines).getLast? = lines.getLast? := by
  cases lines with
  | nil => exact absurd rfl some
  | cons line lines => exact getLast?_cons_cons

theorem linesOf_open {c : Char} (last : text.getLast? = some c) (plain : isLineEnd c = false) :
    (linesOf text).getLast? ≠ some [] := by
  fun_induction linesOf text with
  | case1 text ih =>
    rw [empty_line_last (linesOf_ne_nil text)]
    exact ih (last_of_tail (last_of_tail last plain rfl) plain rfl)
  | case2 text further ih =>
    rw [empty_line_last (linesOf_ne_nil text)]
    exact ih (last_of_tail last plain rfl)
  | case3 text ih =>
    rw [empty_line_last (linesOf_ne_nil text)]
    exact ih (last_of_tail last plain rfl)
  | case4 d text pair bare feed ih =>
    cases text with
    | nil => exact nofun
    | cons e text =>
      have behind := ih (by rwa [getLast?_cons_cons] at last)
      cases lines : linesOf (e :: text) with
      | nil => exact nofun
      | cons line more =>
        cases more with
        | nil => exact nofun
        | cons other more =>
          rw [lines, getLast?_cons_cons] at behind
          rwa [modifyHead_cons, getLast?_cons_cons]
  | case5 => exact absurd last nofun

theorem commandLines_lineFeed (fed : text.getLast? ≠ some '\n')
    (returned : text.getLast? ≠ some '\r') : commandLines (text ++ ['\n']) = commandLines text := by
  have some := length_pos_iff.mpr (linesOf_ne_nil text)
  rw [commandLines, linesOf_lineFeed returned, if_pos (by simp [some]), dropLast_concat,
    commandLines]
  cases last : text.getLast? with
  | none =>
    rw [getLast?_eq_none_iff.mp last]
    rfl
  | some c =>
    rw [last] at fed returned
    have plain : isLineEnd c = false := by
      rw [isLineEnd, or_eq_false_iff, beq_eq_false_iff_ne, beq_eq_false_iff_ne]
      exact ⟨fun same => returned (congrArg _ same), fun same => fed (congrArg _ same)⟩
    rw [if_neg fun ends => linesOf_open last plain ends.2]

end Lines

section Forms

/-- No carriage return without a line feed behind it, and no line feed without one before it. -/
def pairedLineEnds : List Char → Bool
  | '\r' :: '\n' :: text => pairedLineEnds text
  | c :: text => !isLineEnd c && pairedLineEnds text
  | [] => true

theorem crLf_paired {lines : List (List Char)} (plain : ∀ line ∈ lines, PlainLine line) :
    pairedLineEnds (endedBy ['\r', '\n'] lines) = true := by
  have skip : ∀ line rest, PlainLine line → pairedLineEnds rest = true →
      pairedLineEnds (line ++ '\r' :: '\n' :: rest) = true := by
    intro line rest plain paired
    induction line with
    | nil => exact paired
    | cons c line ih =>
      obtain ⟨here, later⟩ := forall_mem_cons.mp plain
      rw [cons_append, pairedLineEnds, here, ih later]
      · rfl
      · rintro more rfl
        exact absurd here (by decide)
  induction lines with
  | nil => rfl
  | cons line lines ih =>
    obtain ⟨first, others⟩ := forall_mem_cons.mp plain
    rw [endedBy_cons]
    exact skip line _ first (ih others)

theorem encodeNvtText_paired {text : List Char} (paired : pairedLineEnds text = true) :
    encodeNvtText text = text := by
  fun_induction pairedLineEnds text with
  | case1 text ih => rw [encodeNvtText, ih paired]
  | case2 c text further ih =>
    rw [and_eq_true, not_eq_true', isLineEnd, or_eq_false_iff, beq_eq_false_iff_ne,
      beq_eq_false_iff_ne] at paired
    obtain ⟨⟨bare, feed⟩, paired⟩ := paired
    rw [encodeNvtText, ih paired]
    · exact fun _ same => absurd same bare
    · exact bare
    · exact feed
  | case3 => rfl

theorem endedBy_ends (ending : List Char) {lines : List (List Char)} (some : lines ≠ []) :
    ∃ front, endedBy ending lines = front ++ ending := by
  obtain ⟨front, last, rfl⟩ := eq_nil_or_concat' lines |>.resolve_left some
  exact ⟨endedBy ending front ++ last, by rw [endedBy_append, endedBy_cons]; simp [endedBy]⟩

variable (command : List Char)

theorem commandLines_protocol (isTelnet : Bool) :
    commandLines (terminateCommandForProtocol command isTelnet) = commandLines command := by
  cases isTelnet with
  | true =>
    rw [telnet_form, commandLines_endedBy (commandLines_ne_nil command)
      (commandLines_plain command) fun _ _ => ends_crLf _]
  | false =>
    rw [terminateCommandForProtocol, if_neg Bool.false_ne_true]
    dsimp only
    split
    next needs => exact commandLines_lineFeed needs.1 needs.2
    next => rfl

theorem commandLines_serial :
    commandLines (endedBy ['\r'] (commandLines command)) = commandLines command :=
  commandLines_endedBy (commandLines_ne_nil command) (commandLines_plain command)
    fun _ plain => ends_cr plain

theorem terminateCommandForProtocol_idempotent (isTelnet : Bool) :
    terminateCommandForProtocol (terminateCommandForProtocol command isTelnet) isTelnet =
      terminateCommandForProtocol command isTelnet := by
  cases isTelnet with
  | true =>
    have same := commandLines_protocol command true
    rw [telnet_form, same, ← telnet_form]
  | false =>
    rw [terminateCommandForProtocol, if_neg Bool.false_ne_true]
    dsimp only
    rw [if_neg]
    rw [terminateCommandForProtocol, if_neg Bool.false_ne_true]
    dsimp only
    split
    next => simp
    next ended => exact ended

/-- What is sent for a command ends every line as the session's connection takes it. -/
structure TerminatedFor (kind : SessionKind) (command text : List Char) : Prop where
  telnet : kind = .telnet → (∃ front, text = front ++ ['\r', '\n']) ∧ pairedLineEnds text = true ∧
    ∀ localBinary, encodeTelnetOutboundText text localBinary = text
  serial : kind = .serial → (∃ front, text = front ++ ['\r']) ∧ '\n' ∉ text
  lines : commandLines text = commandLines command

/-- A command is terminated once, and its lines stay the same. -/
theorem terminateCommandForSession_terminates {store : SessionKinds} {sessionId : String}
    {kind : SessionKind} (found : store.lookup sessionId = some kind) (command : List Char) :
    ∃ text, terminateCommandForSession command store sessionId = .ok text ∧
      TerminatedFor kind command text ∧
      terminateCommandForSession text store sessionId = .ok text := by
  have ends := fun ending => endedBy_ends ending (commandLines_ne_nil command)
  have plain := commandLines_plain command
  simp only [terminateCommandForSession, found]
  by_cases serial : kind = .serial
  · have form := serial_form command
    have again := serial_form (endedBy ['\r'] (commandLines command))
    rw [commandLines_serial] at again
    simp only [if_pos serial]
    refine ⟨_, congrArg ok form, ⟨fun telnet => ?_, fun _ => ⟨ends _, ?_⟩,
      commandLines_serial command⟩, congrArg ok again⟩
    · rw [serial] at telnet
      cases telnet
    · intro mem
      obtain ⟨line, lineMem, here⟩ := mem_flatMap.mp mem
      obtain here | here := mem_append.mp here
      · exact absurd (plain line lineMem _ here) (by decide)
      · exact absurd here (by decide)
  · simp only [if_neg serial]
    refine ⟨_, rfl, ⟨fun telnet => ?_, fun same => absurd same serial, commandLines_protocol command _⟩,
      congrArg ok (terminateCommandForProtocol_idempotent command _)⟩
    rw [telnet, beq_self_eq_true, telnet_form]
    have paired := crLf_paired plain
    refine ⟨ends _, paired, fun localBinary => ?_⟩
    rw [encodeTelnetOutboundText, encodeNvtText_paired paired, ite_self]

theorem sample_terminateCommand :
    ∃ text, terminateCommandForSession "a\nb\rc\r\nd".toList [("lab", .telnet)] "lab" = .ok text ∧
      TerminatedFor .telnet "a\nb\rc\r\nd".toList text ∧
      terminateCommandForSession text [("lab", .telnet)] "lab" = .ok text :=
  terminateCommandForSession_terminates rfl _

end Forms

section Shown

theorem withCrLf_paired {text : List Char} (paired : pairedLineEnds text = true) :
    withCrLf text = text := by
  fun_induction pairedLineEnds text with
  | case1 text ih => rw [withCrLf, ih paired]
  | case2 c text further ih =>
    rw [and_eq_true, not_eq_true', isLineEnd, or_eq_false_iff, beq_eq_false_iff_ne,
      beq_eq_false_iff_ne] at paired
    obtain ⟨⟨bare, feed⟩, paired⟩ := paired
    rw [withCrLf, ih paired]
    · exact fun _ same => absurd same bare
    · exact feed
  | case3 => rfl

/-- A peer between two bytes of data reads text with paired line ends as it is, in either mode. -/
theorem filter_paired {peer : TelnetNegotiator} (data : peer.state = .data)
    (settled : peer.afterCr = false) {text : List Char} (paired : pairedLineEnds text = true) :
    (peer.filter (textBytes text)).2 = (textBytes text, []) := by
  rw [← encodeTelnetOutboundBytes_text, filter_encoded data, settled]
  split
  · rw [encodeTelnetOutboundBytes_text]
  · have stripped := stripCrNul_encodeNvtText text
    rw [encodeNvtText_paired paired, withCrLf_paired paired] at stripped
    rw [stripped, encodeTelnetOutboundBytes_text]

theorem telnet_wire {store : SessionKinds} {sessionId : String}
    (telnet : store.lookup sessionId = some .telnet) (localBinary : Bool)
    {commands texts : List (List Char)}
    (sent : commands.map (terminateCommandForSession · store sessionId) = texts.map .ok) :
    (texts.flatMap fun text =>
        encodeTelnetOutboundBytes (textBytes (encodeTelnetOutboundText text localBinary))) =
      textBytes (endedBy ['\r', '\n'] (commands.flatMap commandLines)) := by
  induction commands generalizing texts with
  | nil =>
    rw [map_eq_nil_iff.mp sent.symm]
    rfl
  | cons command commands ih =>
    obtain ⟨text, rest, rfl, here, later⟩ := map_eq_cons_iff.mp sent.symm
    have form : terminateCommandForSession command store sessionId =
        .ok (terminateCommandForProtocol command true) := by
      unfold terminateCommandForSession
      rw [telnet]
      rfl
    have same : text = endedBy ['\r', '\n'] (commandLines command) :=
      (ok.inj (here.trans form)).trans (telnet_form command)
    have plain := crLf_paired (commandLines_plain command)
    rw [flatMap_cons, ih later.symm, encodeTelnetOutboundBytes_text, same,
      encodeTelnetOutboundText, encodeNvtText_paired plain, ite_self, flatMap_cons,
      endedBy_append]
    exact flatMap_append.symm

/-- Whatever commands go to a Telnet session, the peer shows their lines, each ended by CR LF, in
either mode of either side and however the connection cuts the bytes, and answers nothing. -/
theorem telnet_commands_shown {store : SessionKinds} {sessionId : String}
    (telnet : store.lookup sessionId = some .telnet) {peer : TelnetNegotiator}
    (data : peer.state = .data) (settled : peer.afterCr = false) (localBinary : Bool)
    {commands texts : List (List Char)}
    (sent : commands.map (terminateCommandForSession · store sessionId) = texts.map .ok)
    {chunks : List (List UInt8)}
    (cut : chunks.flatten = texts.flatMap fun text =>
      encodeTelnetOutboundBytes (textBytes (encodeTelnetOutboundText text localBinary))) :
    (peer.filterChunks chunks).2 =
      (textBytes (endedBy ['\r', '\n'] (commands.flatMap commandLines)), []) := by
  have plain : ∀ line ∈ commands.flatMap commandLines, PlainLine line := by
    intro line mem
    obtain ⟨command, -, own⟩ := mem_flatMap.mp mem
    exact commandLines_plain command line own
  have whole : peer.filterChunks chunks = peer.filter chunks.flatten := by
    rw [filterChunks_eq_runChunks, Transducer.runChunks_eq_run_flatten, filter_eq_run]
  rw [whole, cut, telnet_wire telnet localBinary sent]
  exact filter_paired data settled (crLf_paired plain)

/-- Two commands that arrive in two pieces, the first cut inside its line end. -/
theorem two_commands_shown :
    (nvtPeer.filterChunks [[108, 115, 13], [10, 108, 115, 13, 10]]).2 =
      (textBytes (endedBy ['\r', '\n'] (["ls".toList, "ls\n".toList].flatMap commandLines)), []) :=
  @telnet_commands_shown [("lab", .telnet)] "lab" rfl nvtPeer rfl rfl false
    ["ls".toList, "ls\n".toList] ["ls\r\n".toList, "ls\r\n".toList] (by decide) _ (by decide)

end Shown

end PortMate
