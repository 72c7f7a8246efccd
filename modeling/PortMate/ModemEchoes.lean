import PortMate.MarkerWaits
import PortMate.ModemCommands

namespace PortMate

open List Nat

/-- A start of a modem program that has been typed. -/
structure RemoteModemStart where
  token : List Char
  readyMarker : List Char

def RemoteModemStart.successMarker (start : RemoteModemStart) : List Char :=
  "__PORTMATE_MODEM_".toList ++ start.token ++ "_DONE__".toList

def RemoteModemStart.failureMarker (start : RemoteModemStart) : List Char :=
  "__PORTMATE_MODEM_".toList ++ start.token ++ "_FAIL__".toList

def startedRemoteModem (readinessToken : List Char) : RemoteModemStart where
  token := readinessToken
  readyMarker := "__PORTMATE_MODEM_".toList ++ readinessToken ++ "_READY__".toList

def remoteModemMarkers (start : RemoteModemStart) : CompletionMarkers where
  success := textBytes start.successMarker
  failure := textBytes start.failureMarker
  failed := "remote modem command failed: ".toList

def remoteModemFinalizeMarkers (completionToken : List Char) : CompletionMarkers where
  success := textBytes ("__PORTMATE_MODEM_FINALIZE_".toList ++ completionToken ++ "_DONE__".toList)
  failure := textBytes ("__PORTMATE_MODEM_FINALIZE_".toList ++ completionToken ++ "_FAIL__".toList)
  failed := "remote modem finalize failed: ".toList

def xmodemRemoteMarkers (completionToken : List Char) : CompletionMarkers where
  success := textBytes ("__PORTMATE_XMODEM_".toList ++ completionToken ++ "_DONE__".toList)
  failure := textBytes ("__PORTMATE_XMODEM_".toList ++ completionToken ++ "_FAIL__".toList)
  failed := "XModem remote finalize failed: ".toList

def modemReaderAfterStart (start : RemoteModemStart) (receiver : List (List UInt8)) :
    Option MarkerReader :=
  afterMarker (textBytes start.readyMarker) receiver

/-- The waits for the end of a command that is typed with a token. -/
def completionWaits (token : List Char) : List CompletionMarkers :=
  [remoteModemMarkers (startedRemoteModem token), remoteModemFinalizeMarkers token,
    xmodemRemoteMarkers token]

def modemMarkers (token : List Char) : List (List Char) :=
  let start := startedRemoteModem token
  [start.readyMarker, start.successMarker, start.failureMarker,
    "__PORTMATE_MODEM_FINALIZE_".toList ++ token ++ "_DONE__".toList,
    "__PORTMATE_MODEM_FINALIZE_".toList ++ token ++ "_FAIL__".toList,
    "__PORTMATE_XMODEM_".toList ++ token ++ "_DONE__".toList,
    "__PORTMATE_XMODEM_".toList ++ token ++ "_FAIL__".toList]

/-- The slot of `printf` for the token. -/
def printfSlot : List Char := ['%', 's']

/-- The ends that the markers share, two bars each, and nothing within that a command line could
have only around a slot. -/
structure BarredMarker (marker : List Char) : Prop where
  barred : ∃ inner, marker = ['_', '_'] ++ inner ++ ['_', '_']
  noQuote : '\'' ∉ marker
  noSlot : ¬ printfSlot <:+: marker

/-- How many pairs of bars there are since the last quote or slot. -/
structure BarScan where
  pairs : Nat
  last : Option Char

open BarScan

namespace BarScan

def start : BarScan := ⟨0, none⟩

def step : BarScan → Char → BarScan
  | ⟨pairs, last⟩, c =>
    if c = '\'' ∨ last = some '%' ∧ c = 's' then ⟨0, none⟩
    else if last = some '_' ∧ c = '_' then ⟨pairs + 1, none⟩
    else if c = '_' ∨ c = '%' then ⟨pairs, some c⟩
    else ⟨pairs, none⟩

def along (scan : BarScan) (text : List Char) : BarScan := text.foldl step scan

variable (scan : BarScan)

@[simp] theorem along_nil : scan.along [] = scan := rfl

@[simp] theorem along_cons (c : Char) (text : List Char) :
    scan.along (c :: text) = (scan.step c).along text := rfl

theorem along_append (text more : List Char) :
    scan.along (text ++ more) = (scan.along text).along more := foldl_append

theorem bars_counted : (scan.along ['_', '_']).pairs = scan.pairs + 1 := by
  obtain ⟨pairs, last⟩ := scan
  by_cases bar : last = some '_' <;> simp [step, bar]

theorem bars_last : (scan.along ['_', '_']).last ≠ some '%' := by
  obtain ⟨pairs, last⟩ := scan
  by_cases bar : last = some '_' <;> simp [step, bar]

theorem along_rises {text : List Char} (noQuote : '\'' ∉ text) (noSlot : ¬ printfSlot <:+: text)
    {scan : BarScan} (apart : scan.last = some '%' → text.head? ≠ some 's') :
    scan.pairs ≤ (scan.along text).pairs := by
  induction text generalizing scan with
  | nil => exact Nat.le_refl _
  | cons c text ih =>
    obtain ⟨notQuote, noQuote⟩ := not_or.mp (mt mem_cons.mpr noQuote)
    have later : ¬ printfSlot <:+: text := fun inside =>
      noSlot (inside.trans (suffix_cons c text).isInfix)
    have goesOn : ¬ (c = '\'' ∨ scan.last = some '%' ∧ c = 's') := by
      rintro (rfl | ⟨percent, rfl⟩)
      · exact notQuote rfl
      · exact apart percent rfl
    have slotApart : c = '%' → text.head? ≠ some 's' := by
      rintro rfl here
      obtain ⟨more, rfl⟩ := head?_eq_some_iff.mp here
      exact noSlot ⟨[], more, rfl⟩
    rw [along_cons]
    refine Nat.le_trans ?_ (ih noQuote later ?_)
    · rw [step, if_neg goesOn]
      split
      · exact le_succ _
      · split <;> exact Nat.le_refl _
    · rw [step, if_neg goesOn]
      split
      · exact nofun
      · intro percent
        split at percent
        · exact slotApart (Option.some.inj percent)
        · cases percent

theorem along_digits {digits : List Char} (all : ∀ c ∈ digits, c.isDigit = true)
    (filled : digits ≠ []) (scan : BarScan) :
    scan.along digits = { scan with last := none } := by
  have digit : ∀ {c : Char} (scan : BarScan), c.isDigit = true →
      scan.step c = { scan with last := none } := by
    intro c scan digit
    have other : ∀ mark ∈ ['\'', 's', '_', '%'], c ≠ mark := by
      rintro mark mem rfl
      simp only [mem_cons, not_mem_nil, or_false] at mem
      obtain rfl | rfl | rfl | rfl := mem <;> exact absurd digit (by decide)
    simp [step, other '\'', other 's', other '_', other '%']
  induction digits generalizing scan with
  | nil => exact absurd rfl filled
  | cons c digits ih =>
    rw [along_cons, digit scan (all c mem_cons_self)]
    cases digits with
    | nil => rfl
    | cons d digits =>
      rw [ih (fun c mem => all c (mem_cons_of_mem _ mem)) (cons_ne_nil _ _)]

/-- Between two quotes or slots that nothing is put in, a template has at most one pair. -/
def calm : BarScan → List ShellSymbol → Bool
  | _, [] => true
  | scan, .char c :: template =>
    match scan.step c with
    | ⟨pairs, last⟩ => decide (pairs ≤ 1) && calm ⟨pairs, last⟩ template
  | _, .quoted _ :: template => calm start template
  | ⟨pairs, _⟩, .number _ :: template => calm ⟨pairs, none⟩ template

end BarScan

section Echoes

variable {marker : List Char}

theorem BarredMarker.long (barred : BarredMarker marker) : 4 ≤ marker.length := by
  obtain ⟨inner, rfl⟩ := barred.barred
  simp

theorem BarredMarker.counted (barred : BarredMarker marker) (scan : BarScan) :
    2 ≤ (scan.along marker).pairs := by
  obtain ⟨inner, rfl⟩ := barred.barred
  have inside : inner <:+: ['_', '_'] ++ inner ++ ['_', '_'] := infix_append _ _ _
  have rises := along_rises (fun mem => barred.noQuote (inside.subset mem))
    (fun slot => barred.noSlot (slot.trans inside))
    (fun percent => absurd percent (scan.bars_last))
  rw [bars_counted] at rises
  rw [along_append, along_append, bars_counted]
  omega

theorem infix_around_char {α : Type} {pattern before after : List α} {c : α}
    (other : c ∉ pattern) (inside : pattern <:+: before ++ c :: after) : pattern <:+: before ∨ pattern <:+: after := by
  obtain here | here | ⟨first, second, rfl, atEnd, ⟨more, same⟩⟩ :=
    infix_append_iff.mp inside
  · exact .inl here
  · obtain ⟨more, same⟩ | here := infix_cons_iff.mp here
    · cases pattern with
      | nil => exact .inl nil_infix
      | cons d pattern =>
        obtain rfl : d = c := (List.cons.inj same).1
        exact absurd mem_cons_self other
    · exact .inr here
  · cases second with
    | nil =>
      rw [append_nil]
      exact .inl atEnd.isInfix
    | cons d second =>
      obtain ⟨rfl, -⟩ := List.cons.inj same
      exact absurd (mem_append_right first mem_cons_self) other

theorem infix_around_quote (noQuote : '\'' ∉ marker) (long : 4 ≤ marker.length)
    {before word after : List Char} (clearBefore : ¬ marker <:+: before)
    (clearWord : ¬ marker <:+: word) (clearAfter : ¬ marker <:+: after) :
    ¬ marker <:+: before ++ (shellQuote word ++ after) := by
  have short : ∀ text : List Char, text.length < 4 → ¬ marker <:+: text := fun text short inside =>
    absurd inside.length_le (by omega)
  have body : ∀ text done : List Char, ¬ marker <:+: done ++ text →
      ¬ marker <:+: done ++ (text.flatMap
        (fun c => if c = '\'' then ['\'', '\\', '\'', '\''] else [c]) ++ '\'' :: after) := by
    intro text
    induction text with
    | nil =>
      intro done clear inside
      rw [append_nil] at clear
      exact (infix_around_char noQuote inside).elim clear clearAfter
    | cons c text ih =>
      intro done clear
      rw [flatMap_cons]
      split
      next quote =>
        have clearDone : ¬ marker <:+: done := fun inside =>
          clear (inside.trans (prefix_append done _).isInfix)
        have clearText : ¬ marker <:+: [] ++ text := fun inside =>
          clear (inside.trans ⟨done ++ [c], [], by simp⟩)
        intro inside
        refine (infix_around_char noQuote inside).elim clearDone fun inside => ?_
        refine (@infix_around_char _ _ ['\\'] _ _ noQuote inside).elim (short _ (by decide))
          fun inside => ?_
        exact (@infix_around_char _ _ [] _ _ noQuote inside).elim (short _ (by decide))
          (ih [] clearText)
      next =>
        rw [append_assoc, ← append_assoc done]
        exact ih (done ++ [c]) (by rwa [append_assoc, singleton_append])
  intro inside
  unfold shellQuote at inside
  rw [append_assoc, cons_append, singleton_append] at inside
  exact (infix_around_char noQuote inside).elim clearBefore (body word [] clearWord)

theorem BarredMarker.clear_snoc (barred : BarredMarker marker) {text : List Char} {c : Char}
    (clear : ¬ marker <:+: text) (few : ((BarScan.start.along text).step c).pairs ≤ 1) :
    ¬ marker <:+: text ++ [c] := by
  intro inside
  obtain ⟨before, same⟩ | inside := infix_concat_iff.mp inside
  · have counted := barred.counted (BarScan.start.along before)
    rw [← along_append, same, along_append] at counted
    exact absurd (Nat.le_trans counted few) (by decide)
  · exact clear inside

theorem BarredMarker.clear_digits (barred : BarredMarker marker) {digits : List Char}
    (all : ∀ c ∈ digits, c.isDigit = true) {text : List Char} (clear : ¬ marker <:+: text)
    (few : (BarScan.start.along text).pairs ≤ 1) : ¬ marker <:+: text ++ digits := by
  induction digits generalizing text with
  | nil => rwa [append_nil]
  | cons c digits ih =>
    have one : (BarScan.start.along text).step c = { BarScan.start.along text with last := none } :=
      along_digits (fun d mem => all d (mem_singleton.mp mem ▸ mem_cons_self))
        (cons_ne_nil c []) _
    rw [append_cons]
    apply ih (fun d mem => all d (mem_cons_of_mem c mem))
    · exact barred.clear_snoc clear (by rw [one]; exact few)
    · rw [along_append, along_cons, one]
      exact few

theorem BarredMarker.clear_fill (barred : BarredMarker marker) {values : ShellValues}
    (words : ∀ slot, ¬ marker <:+: values.quoted slot) (template : List ShellSymbol)
    {text : List Char} (clear : ¬ marker <:+: text)
    (few : (BarScan.start.along text).pairs ≤ 1)
    (calm : BarScan.calm (BarScan.start.along text) template = true) :
    ¬ marker <:+: text ++ values.fill template := by
  induction template generalizing text with
  | nil => rwa [fill_nil, append_nil]
  | cons symbol template ih =>
    cases symbol with
    | char c =>
      obtain ⟨step, calm⟩ := Bool.and_eq_true_iff.mp calm
      have step := of_decide_eq_true step
      rw [fill_char, append_cons]
      have along : BarScan.start.along (text ++ [c]) = (BarScan.start.along text).step c :=
        along_append _ _ _
      exact ih (barred.clear_snoc clear step) (along ▸ step) (along ▸ calm)
    | quoted slot =>
      rw [fill_quoted]
      refine infix_around_quote barred.noQuote barred.long clear (words slot) ?_
      exact @ih [] (fun inside => absurd inside.length_le (by
        have := barred.long
        rw [length_nil]
        omega)) (Nat.zero_le 1) calm
    | number slot =>
      have all : ∀ c ∈ toDigits 10 (values.number slot), c.isDigit = true :=
        fun c => toDigits_isDigit
      have along : BarScan.start.along (text ++ toDigits 10 (values.number slot)) =
          { BarScan.start.along text with last := none } := by
        rw [along_append, along_digits all toDigits_ne_nil]
      rw [fill_number, ← append_assoc]
      exact ih (barred.clear_digits all clear few) (along ▸ few) (along ▸ calm)

theorem no_slot_append {first second : List Char} (noFirst : ¬ printfSlot <:+: first)
    (noSecond : ¬ printfSlot <:+: second) (apart : '%' ∉ first ∨ second.head? ≠ some 's') :
    ¬ printfSlot <:+: first ++ second := by
  intro inside
  obtain here | here | ⟨front, back, same, front_end, ⟨more, begins⟩⟩ :=
    infix_append_iff.mp inside
  · exact noFirst here
  · exact noSecond here
  · cases front with
    | nil => exact noSecond ⟨[], more, by rw [same]; exact begins⟩
    | cons c front =>
      obtain ⟨rfl, rest⟩ := (List.cons.inj same : '%' = c ∧ ['s'] = front ++ back)
      cases front with
      | nil =>
        obtain plain | plain := apart
        · exact plain (front_end.subset mem_cons_self)
        · obtain rfl : ['s'] = back := rest
          exact plain (by rw [← begins]; rfl)
      | cons d front =>
        obtain rfl : 's' = d := (List.cons.inj rest).1
        obtain ⟨rfl, rfl⟩ := append_eq_nil_iff.mp (List.cons.inj rest).2.symm
        exact noFirst front_end.isInfix

theorem no_slot_plain {text : List Char} (plain : '%' ∉ text) : ¬ printfSlot <:+: text :=
  fun inside => plain (inside.subset mem_cons_self)

/-- What the texts before and behind a token are to be for a barred marker. -/
def isMarkerFrame (head ending : List Char) : Bool :=
  ['_', '_'].isPrefixOf head && ['_', '_'].isSuffixOf ending &&
    (head ++ ending).all (fun c => c != '\'' && c != '%') && ending.head? == some '_'

theorem barred_of_frame {head token ending : List Char} (frame : isMarkerFrame head ending = true)
    (noQuote : '\'' ∉ token) (noSlot : ¬ printfSlot <:+: token) :
    BarredMarker (head ++ token ++ ending) := by
  unfold isMarkerFrame at frame
  simp only [Bool.and_eq_true, List.isPrefixOf_iff_prefix, isSuffixOf_iff_suffix,
    all_eq_true, bne_iff_ne, beq_iff_eq, mem_append] at frame
  obtain ⟨⟨⟨⟨headRest, rfl⟩, ⟨endingRest, rfl⟩⟩, plain⟩, first⟩ := frame
  have slotless := fun c mem => (plain c mem).2
  have headPlain : '%' ∉ ['_', '_'] ++ headRest := fun mem => slotless _ (.inl mem) rfl
  refine ⟨⟨headRest ++ token ++ endingRest, by simp⟩, ?_, ?_⟩
  · intro mem
    obtain mem | mem := mem_append.mp mem
    · obtain mem | mem := mem_append.mp mem
      · exact (plain _ (.inl mem)).1 rfl
      · exact noQuote mem
    · exact (plain _ (.inr mem)).1 rfl
  · apply no_slot_append
    · exact no_slot_append (no_slot_plain headPlain) noSlot (.inl headPlain)
    · exact no_slot_plain fun mem => slotless _ (.inr mem) rfl
    · rw [first]
      exact .inr (by decide)

def markerHeads : List String :=
  ["__PORTMATE_MODEM_", "__PORTMATE_MODEM_FINALIZE_", "__PORTMATE_XMODEM_"]

def markerEndings : List String := ["_READY__", "_DONE__", "_FAIL__"]

theorem markers_framed : ∀ head ∈ markerHeads, ∀ ending ∈ markerEndings,
    isMarkerFrame head.toList ending.toList = true := by
  unfold markerHeads markerEndings
  simp only [-String.reduceToList, forall_mem_cons]
  repeat rw [String.toList_ofList]
  decide

theorem modemMarkers_frame (token : List Char) : ∀ marker ∈ modemMarkers token,
    ∃ head ∈ markerHeads, ∃ ending ∈ markerEndings,
      marker = head.toList ++ token ++ ending.toList := by
  have framed : ∀ head ∈ markerHeads, ∀ ending ∈ markerEndings,
      ∃ before ∈ markerHeads, ∃ behind ∈ markerEndings,
        head.toList ++ token ++ ending.toList = before.toList ++ token ++ behind.toList :=
    fun head known ending knownEnd => ⟨head, known, ending, knownEnd, rfl⟩
  simp only [-String.reduceToList, markerHeads, markerEndings, forall_mem_cons] at framed
  obtain ⟨⟨ready, done, fail, -⟩, ⟨-, doneFinal, failFinal, -⟩, ⟨-, doneXmodem, failXmodem, -⟩, -⟩ :=
    framed
  intro marker mem
  obtain rfl | mem := mem_cons.mp mem
  · exact ready
  obtain rfl | mem := mem_cons.mp mem
  · exact done
  obtain rfl | mem := mem_cons.mp mem
  · exact fail
  obtain rfl | mem := mem_cons.mp mem
  · exact doneFinal
  obtain rfl | mem := mem_cons.mp mem
  · exact failFinal
  obtain rfl | mem := mem_cons.mp mem
  · exact doneXmodem
  obtain rfl | mem := mem_cons.mp mem
  · exact failXmodem
  · cases mem

end Echoes

section Calm

set_option maxRecDepth 20000 in
theorem startTemplate_calm (protocol : TransferProtocol) (upload inDirectory : Bool) :
    BarScan.calm BarScan.start (startTemplate protocol upload inDirectory ++ [.char '\r']) =
      true := by
  cases protocol <;> cases upload <;> cases inDirectory <;>
    simp only [-String.reduceToList, startTemplate, receiveTemplate, sendTemplate, rawTtyTemplate] <;>
    (repeat rw [String.toList_ofList]) <;>
    decide

set_option maxRecDepth 20000 in
theorem finalizeTemplate_calm {protocol : TransferProtocol}
    (either : protocol = .xmodem ∨ protocol = .ymodem) :
    BarScan.calm BarScan.start (finalizeTemplate protocol ++ [.char '\r']) = true := by
  obtain rfl | rfl := either <;>
    unfold finalizeTemplate portablePathText <;>
    (repeat rw [String.toList_ofList]) <;>
    decide

end Calm

/-- A path without the token, or the part of such a target. -/
def TokenFree (token path : List Char) : Prop :=
  ¬ token <:+: path ∨ ∃ target, path = remoteResumePartPath target ∧ ¬ token <:+: target

inductive TypedWith (token : List Char) : List Char → Prop
  | start (protocol : TransferProtocol) (upload : Bool) {path : List Char}
      (free : TokenFree token path) :
    TypedWith token (modemRemoteCommand protocol upload path token)
  | xmodemFinalize {part target : List Char} (size : Nat) (freePart : TokenFree token part)
      (freeTarget : TokenFree token target) :
    TypedWith token (xmodemRemoteFinalizeCommand part target size token)
  | finalize {part target : List Char} (freePart : TokenFree token part)
      (freeTarget : TokenFree token target) :
    TypedWith token (remoteModemFinalizeCommand part target token)

section Paths

variable {token marker : List Char}

section Clear

variable (barred : BarredMarker marker)

include barred

theorem BarredMarker.first : ∃ inner, marker = '_' :: inner := by
  obtain ⟨inner, rfl⟩ := barred.barred
  exact ⟨_, rfl⟩

theorem BarredMarker.clear_append {text more : List Char} (clear : ¬ marker <:+: text)
    (plain : '_' ∉ more) : ¬ marker <:+: text ++ more := by
  obtain ⟨inner, rfl⟩ := barred.barred
  intro inside
  obtain here | here | ⟨front, back, same, atEnd, atStart⟩ := infix_append_iff.mp inside
  · exact clear here
  · exact plain (here.subset (mem_append_right _ mem_cons_self))
  · obtain rfl | ⟨back, last, rfl⟩ := eq_nil_or_concat' back
    · rw [append_nil] at same
      exact clear (same ▸ atEnd.isInfix)
    · have ends : last = '_' := by
        have ends := congrArg List.getLast? same
        rw [← append_assoc front, getLast?_concat,
          getLast?_append_of_ne_nil _ (cons_ne_nil _ _)] at ends
        exact (Option.some.inj ends).symm
      exact plain (ends ▸ atStart.subset (mem_append_right _ mem_cons_self))

theorem BarredMarker.clear_short {text : List Char} (short : text.length < 4) :
    ¬ marker <:+: text := fun inside => by
  have := inside.length_le
  have := barred.long
  omega

theorem BarredMarker.clear_dashed {path : List Char} (clear : ¬ marker <:+: path) :
    ¬ marker <:+: dashedPath path := by
  have cons : ∀ {c : Char} {text : List Char}, c ≠ '_' → ¬ marker <:+: text →
      ¬ marker <:+: c :: text := by
    intro c text other clear inside
    obtain ⟨inner, rfl⟩ := barred.first
    obtain here | here := infix_cons_iff.mp inside
    · exact other (cons_prefix_cons.mp here).1.symm
    · exact clear here
  unfold dashedPath
  split
  · exact cons (by decide) (cons (by decide) clear)
  · exact clear

theorem BarredMarker.clear_parent {path : List Char} (clear : ¬ marker <:+: path) :
    ¬ marker <:+: (remoteParentAndFileName path).1 := by
  have trimmed : trimSeparators path <+: path := by
    have behind := dropWhile_suffix isAnySeparator (l := path.reverse)
    rwa [← reverse_prefix, reverse_reverse] at behind
  unfold remoteParentAndFileName
  dsimp only
  split
  next => exact barred.clear_short (zero_lt_succ 3)
  next before after found =>
    obtain ⟨separator, split⟩ := splitLastSeparator_some found
    dsimp only
    split_ifs
    · exact barred.clear_short (by decide)
    · have inside : before <+: path := (split ▸ prefix_append before _).trans trimmed
      exact fun here => clear (here.trans inside.isInfix)

theorem BarredMarker.clear_path (names : token <:+: marker) {path : List Char}
    (free : TokenFree token path) : ¬ marker <:+: path := by
  obtain free | ⟨target, rfl, free⟩ := free
  · exact fun inside => free (names.trans inside)
  · rw [resumePart_eq]
    refine barred.clear_append (fun inside => free (names.trans inside)) ?_
    rw [String.toList_ofList]
    decide

end Clear

theorem clear_values {first second : List Char} {size : Nat}
    (clearFirst : ¬ marker <:+: first) (clearSecond : ¬ marker <:+: second)
    (longer : token.length < marker.length) (slot : Nat) :
    ¬ marker <:+: (pathValues first second token size).quoted slot := by
  unfold pathValues
  dsimp only
  split_ifs
  · exact clearFirst
  · exact clearSecond
  · exact fun inside => absurd inside.length_le (by omega)

theorem BarredMarker.clear_line (barred : BarredMarker marker) {values : ShellValues}
    (words : ∀ slot, ¬ marker <:+: values.quoted slot) {template : List ShellSymbol}
    (calm : BarScan.calm BarScan.start (template ++ [.char '\r']) = true) :
    ¬ marker <:+: values.fill template ++ ['\r'] := by
  have clear : ¬ marker <:+: [] ++ values.fill (template ++ [.char '\r']) :=
    barred.clear_fill words _ (barred.clear_short (zero_lt_succ 3)) (Nat.zero_le 1) calm
  rwa [nil_append, fill_append, fill_char, fill_nil] at clear

theorem TypedWith.clear {text : List Char} (typed : TypedWith token text)
    (noQuote : '\'' ∉ token) (noSlot : ¬ printfSlot <:+: token)
    (mem : marker ∈ modemMarkers token) : ¬ marker <:+: text := by
  obtain ⟨head, known, ending, knownEnd, rfl⟩ := modemMarkers_frame token marker mem
  have frame := markers_framed head known ending knownEnd
  have barred := barred_of_frame frame noQuote noSlot
  have names : token <:+: head.toList ++ token ++ ending.toList := infix_append _ _ _
  have longer : token.length < (head.toList ++ token ++ ending.toList).length := by
    unfold isMarkerFrame at frame
    simp only [Bool.and_eq_true, List.isPrefixOf_iff_prefix] at frame
    have := frame.1.1.1.length_le
    simp only [length_append, length_cons, length_nil] at this ⊢
    omega
  cases typed with
  | @start protocol upload path free =>
    by_cases modem : protocol ∈ [.xmodem, .ymodem, .zmodem]
    · have clear := barred.clear_path names free
      rw [modemRemoteCommand_text modem]
      exact barred.clear_line (clear_values (barred.clear_dashed clear)
        (barred.clear_parent clear) longer) (startTemplate_calm _ _ _)
    · have nothing : modemRemoteCommand protocol upload path token = [] := by
        cases protocol with
        | sftp | scp | tftp => rfl
        | xmodem | ymodem | zmodem => exact absurd (by decide) modem
      rw [nothing]
      exact barred.clear_short (zero_lt_succ 3)
  | xmodemFinalize size freePart freeTarget =>
    rw [xmodemRemoteFinalizeCommand_text]
    exact barred.clear_line (clear_values (barred.clear_path names freePart)
      (barred.clear_path names freeTarget) longer) (finalizeTemplate_calm (.inl rfl))
  | finalize freePart freeTarget =>
    rw [remoteModemFinalizeCommand_text _ _ 0]
    exact barred.clear_line (clear_values (barred.clear_path names freePart)
      (barred.clear_path names freeTarget) longer) (finalizeTemplate_calm (.inr rfl))

end Paths

section Search

theorem frame_filled {head : List Char} (bars : ['_', '_'] <+: head) (rest : List Char) :
    textBytes (head ++ rest) ≠ [] := by
  obtain ⟨more, rfl⟩ := bars
  rw [append_assoc, cons_append, textBytes, flatMap_cons,
    utf8EncodeChar_ascii (by decide)]
  exact cons_ne_nil _ _

theorem marker_filled {token marker : List Char} (mem : marker ∈ modemMarkers token) :
    textBytes marker ≠ [] := by
  obtain ⟨head, known, ending, knownEnd, rfl⟩ := modemMarkers_frame token marker mem
  have frame := markers_framed head known ending knownEnd
  unfold isMarkerFrame at frame
  simp only [Bool.and_eq_true, List.isPrefixOf_iff_prefix] at frame
  rw [append_assoc]
  exact frame_filled frame.1.1.1 _

theorem completion_markers {token : List Char} : ∀ markers ∈ completionWaits token,
    ∃ success ∈ modemMarkers token, ∃ failure ∈ modemMarkers token,
      markers.success = textBytes success ∧ markers.failure = textBytes failure := by
  intro markers mem
  obtain rfl | mem := mem_cons.mp mem
  · exact ⟨_, .tail _ (.head _), _, .tail _ (.tail _ (.head _)), rfl, rfl⟩
  obtain rfl | mem := mem_cons.mp mem
  · exact ⟨_, .tail _ (.tail _ (.tail _ (.head _))), _,
      .tail _ (.tail _ (.tail _ (.tail _ (.head _)))), rfl, rfl⟩
  obtain rfl | mem := mem_cons.mp mem
  · exact ⟨_, .tail _ (.tail _ (.tail _ (.tail _ (.tail _ (.head _))))), _,
      .tail _ (.tail _ (.tail _ (.tail _ (.tail _ (.tail _ (.head _)))))), rfl, rfl⟩
  · cases mem

theorem completion_answers {token : List Char} {markers : CompletionMarkers}
    (mem : markers ∈ completionWaits token) (receiver : List (List UInt8))
    (oneOnly : ¬ (markers.success <:+: receiver.flatten ∧ markers.failure <:+: receiver.flatten)) :
    markers.Answers receiver.flatten (markers.wait receiver) := by
  obtain ⟨success, isSuccess, failure, isFailure, sameSuccess, sameFailure⟩ :=
    completion_markers markers mem
  apply CompletionMarkers.wait_answers _ _ receiver oneOnly
  · rw [sameSuccess]
    exact marker_filled isSuccess
  · rw [sameFailure]
    exact marker_filled isFailure

theorem marker_bytes_inside {token marker text : List Char} (mem : marker ∈ modemMarkers token)
    (inside : textBytes marker <:+: textBytes text) : marker <:+: text := by
  obtain ⟨head, known, ending, knownEnd, rfl⟩ := modemMarkers_frame token marker mem
  have frame := markers_framed head known ending knownEnd
  unfold isMarkerFrame at frame
  simp only [Bool.and_eq_true, List.isPrefixOf_iff_prefix] at frame
  obtain ⟨more, same⟩ := frame.1.1.1
  rw [← same, cons_append, cons_append, cons_append] at inside ⊢
  exact encoded_infix (by decide) inside

/-- A token that neither ends a quoted word nor is the slot of `printf`. -/
structure PlainToken (token : List Char) : Prop where
  noQuote : '\'' ∉ token
  noSlot : ¬ printfSlot <:+: token

theorem SimpleUuid.plain (token : SimpleUuid) : PlainToken token.text where
  noQuote mem := absurd (token.hex _ mem) (by decide)
  noSlot inside := absurd (token.hex _ (inside.subset mem_cons_self)) (by decide)

theorem echo_unseen {token text : List Char} (plain : PlainToken token)
    (typed : TypedWith token text) {receiver : List (List UInt8)}
    (echo : receiver.flatten = textBytes text) :
    modemReaderAfterStart (startedRemoteModem token) receiver = none ∧
      ∀ markers ∈ completionWaits token, markers.wait receiver = none := by
  have clear : ∀ marker ∈ modemMarkers token, ¬ textBytes marker <:+: receiver.flatten := by
    intro marker mem inside
    rw [echo] at inside
    exact typed.clear plain.noQuote plain.noSlot mem (marker_bytes_inside mem inside)
  constructor
  · have ready : (startedRemoteModem token).readyMarker ∈ modemMarkers token := .head _
    have found := afterMarker_isSome (marker_filled ready) receiver
    exact Option.not_isSome_iff_eq_none.mp (mt found.mp (clear _ ready))
  · intro markers mem
    obtain ⟨success, isSuccess, failure, isFailure, sameSuccess, sameFailure⟩ :=
      completion_markers markers mem
    have noSuccess := sameSuccess ▸ clear success isSuccess
    have noFailure := sameFailure ▸ clear failure isFailure
    have answers := completion_answers mem receiver fun both => noSuccess both.1
    cases result : markers.wait receiver with
    | none => rfl
    | some result' =>
      cases result' with
      | ok => exact absurd (answers.1.mp result) noSuccess
      | error message => exact absurd (answers.2.mp ⟨message, result⟩) noFailure

/-- Where the waits of a transfer find their markers, and that they do not find them in what the
terminal shows of the commands. -/
theorem modem_marker_search_plain (token : List Char) :
    (∀ receiver,
      let marker := textBytes (startedRemoteModem token).readyMarker
      let result := modemReaderAfterStart (startedRemoteModem token) receiver
      (result.isSome ↔ marker <:+: receiver.flatten) ∧
        ∀ reader, result = some reader →
          ∃ before, receiver.flatten = before ++ marker ++ reader.bytes ∧
            ∀ earlier < before.length, ¬ marker <+: receiver.flatten.drop earlier) ∧
      (∀ markers ∈ completionWaits token, ∀ receiver,
        ¬ (markers.success <:+: receiver.flatten ∧ markers.failure <:+: receiver.flatten) →
          (markers.wait receiver = some (.ok ()) ↔ markers.success <:+: receiver.flatten) ∧
            ((∃ message, markers.wait receiver = some (.error message)) ↔
              markers.failure <:+: receiver.flatten)) ∧
      (PlainToken token → ∀ text, TypedWith token text →
        (∀ marker ∈ modemMarkers token, ¬ textBytes marker <:+: textBytes text) ∧
          ∀ receiver, receiver.flatten = textBytes text →
            modemReaderAfterStart (startedRemoteModem token) receiver = none ∧
              ∀ markers ∈ completionWaits token, markers.wait receiver = none) := by
  have filled := @marker_filled token _ (.head _)
  refine ⟨fun receiver => ⟨afterMarker_isSome filled receiver,
      fun reader found => afterMarker_handsOn filled found⟩,
    fun markers mem receiver oneOnly => completion_answers mem receiver oneOnly,
    fun plain text typed => ⟨fun marker mem inside => ?_,
      fun receiver echo => echo_unseen plain typed echo⟩⟩
  exact typed.clear plain.noQuote plain.noSlot mem (marker_bytes_inside mem inside)

theorem modem_marker_search_plain_hex :
    ¬ textBytes (startedRemoteModem ['a', '1']).readyMarker <:+:
        textBytes (modemRemoteCommand .zmodem false ['f'] ['a', '1']) ∧
      (xmodemRemoteMarkers ['a', '1']).wait [(xmodemRemoteMarkers ['a', '1']).success] =
        some (.ok ()) := by
  have plain : PlainToken ['a', '1'] := ⟨by decide, no_slot_plain (by decide)⟩
  have free : TokenFree ['a', '1'] ['f'] := .inl fun inside => absurd inside.length_le (by decide)
  obtain ⟨-, completes, echoes⟩ := modem_marker_search_plain ['a', '1']
  refine ⟨(echoes plain _ (.start .zmodem false free)).1 _ (.head _), ?_⟩
  have mem : xmodemRemoteMarkers ['a', '1'] ∈ completionWaits ['a', '1'] :=
    .tail _ (.tail _ (.head _))
  refine (completes _ mem [_] fun both => ?_).1.mpr (infix_append [] _ [])
  have failure : "__PORTMATE_XMODEM_".toList ++ ['a', '1'] ++ "_FAIL__".toList <:+:
      "__PORTMATE_XMODEM_".toList ++ ['a', '1'] ++ "_DONE__".toList := by
    refine @marker_bytes_inside ['a', '1'] _ _
      (.tail _ (.tail _ (.tail _ (.tail _ (.tail _ (.tail _ (.head _))))))) ?_
    have inside := both.2
    rw [flatten_singleton] at inside
    exact inside
  have same := failure.eq_of_length
  repeat rw [String.toList_ofList] at same
  exact absurd (same (by decide)) (by decide)

/-- The slot itself as a token is in the text as it is typed. -/
theorem slot_token_echoed : ¬ ∀ token text, TypedWith token text →
    ∀ marker ∈ modemMarkers token, ¬ textBytes marker <:+: textBytes text := by
  intro unseen
  have free : TokenFree printfSlot ['a'] := .inl fun inside => absurd inside.length_le (by decide)
  refine unseen printfSlot _ (.start .xmodem false free) _ (.head _) ?_
  have inside : (startedRemoteModem printfSlot).readyMarker <:+:
      modemRemoteCommand .xmodem false ['a'] printfSlot := by
    unfold modemRemoteCommand modemSendCommand modemRawTtyShellCommand
    simp only [-String.reduceToList, append_assoc]
    refine List.IsInfix.trans ?_ (prefix_append _ _).isInfix
    unfold startedRemoteModem
    repeat rw [String.toList_ofList]
    exact ⟨"\x7b portmate_stty=0; if command -v stty >/dev/null 2>&1; then stty raw -echo; portmate_stty=1; fi; printf '".toList,
      ['\'', ' '], by rw [String.toList_ofList]; rfl⟩
  obtain ⟨before, behind, same⟩ := inside
  rw [← same]
  unfold textBytes
  rw [flatMap_append, flatMap_append]
  exact infix_append _ _ _

end Search

end PortMate
