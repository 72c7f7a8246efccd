import PortMate.ModemPacket

namespace PortMate

open List

/-- The receive loop without a declared size, over the blocks it accepts. -/
def appendBlocks (output : ModemOutput) (blocks : List (List UInt8)) : Except String ModemOutput :=
  blocks.foldlM appendModemDataWithoutTrailingPadding output

def appendBlocksWithSizeLimit (limit : Nat) (output : ModemOutput) (blocks : List (List UInt8)) :
    Except String ModemOutput :=
  blocks.foldlM (fun output data => appendModemDataWithSizeLimit output data limit) output

theorem checkedAddU64_fits {a b : Nat} (overflow : String) (fits : a + b < 2 ^ 64) :
    checkedAddU64 a b overflow = .ok (a + b) := if_pos fits

variable {output : ModemOutput}

theorem append_accepted {received data : List UInt8} (trimmed : output.Trimmed received)
    (fits : received.length + data.length < 2 ^ 64) :
    ∃ output', appendModemDataWithoutTrailingPadding output data = .ok output' := by
  have total := congrArg List.length trimmed.padded
  rw [length_append, length_replicate] at total
  have written := trimmed.bytesWritten
  have shorter : (data.rdropWhile (· = modemEof)).length ≤ data.length :=
    (List.rdropWhile_prefix _ (l := data)).length_le
  simp only [appendModemDataWithoutTrailingPadding]
  split
  · rw [checkedAddU64_fits _ (by omega)]
    exact ⟨_, rfl⟩
  · rw [checkedAddU64_fits _ (by omega)]
    change ∃ output', (checkedAddU64 _ _ _ >>= _) = Except.ok output'
    rw [checkedAddU64_fits _ (by omega)]
    exact ⟨_, rfl⟩

variable {received : List UInt8}

theorem limited_accepted {limit : Nat} (data : List UInt8) (limited : output.Limited limit received)
    (fits : limit < 2 ^ 64) :
    ∃ output', appendModemDataWithSizeLimit output data limit = .ok output' := by
  have written := limited.bytesWritten
  have kept := congrArg List.length limited.file
  rw [length_take] at kept
  simp only [appendModemDataWithSizeLimit]
  split
  · exact ⟨_, rfl⟩
  · rw [checkedAddU64_fits _ (by omega)]
    exact ⟨_, rfl⟩

variable {blocks : List (List UInt8)}

theorem blocks_trimmed {output output' : ModemOutput} (trimmed : output.Trimmed received)
    (h : appendBlocks output blocks = .ok output') :
    output'.Trimmed (received ++ blocks.flatten) := by
  induction blocks generalizing output received with
  | nil =>
    cases h
    rwa [flatten_nil, append_nil]
  | cons data blocks ih =>
    obtain ⟨middle, first, rest⟩ := except_bind_eq_ok h
    rw [flatten_cons, ← append_assoc]
    exact ih (append_trimmed trimmed first) rest

theorem blocks_accepted (trimmed : output.Trimmed received)
    (fits : received.length + blocks.flatten.length < 2 ^ 64) :
    ∃ output', appendBlocks output blocks = .ok output' := by
  induction blocks generalizing output received with
  | nil => exact ⟨output, rfl⟩
  | cons data blocks ih =>
    rw [flatten_cons, length_append] at fits
    obtain ⟨middle, first⟩ := append_accepted trimmed (by omega : _ + data.length < 2 ^ 64)
    obtain ⟨output', rest⟩ := ih (append_trimmed trimmed first) (by rw [length_append]; omega)
    refine ⟨output', ?_⟩
    rw [appendBlocks, foldlM_cons, first]
    exact rest

theorem blocks_limited {limit : Nat} (limited : output.Limited limit received)
    (fits : limit < 2 ^ 64) :
    ∃ output', appendBlocksWithSizeLimit limit output blocks = .ok output' ∧
      output'.Limited limit (received ++ blocks.flatten) := by
  induction blocks generalizing output received with
  | nil =>
    refine ⟨output, rfl, ?_⟩
    rwa [flatten_nil, append_nil]
  | cons data blocks ih =>
    obtain ⟨middle, first⟩ := limited_accepted data limited fits
    obtain ⟨output', rest, kept⟩ := ih (append_limited limited first)
    refine ⟨output', ?_, ?_⟩
    · rw [appendBlocksWithSizeLimit, foldlM_cons, first]
      exact rest
    · rwa [flatten_cons, ← append_assoc]

theorem limited_create (limit : Nat) : ModemOutput.create.Limited limit [] :=
  ⟨take_nil.symm, rfl⟩

/-- Whatever blocks come in, the file and the padding held back are what came in. -/
theorem modem_padding_streamed (blocks : List (List UInt8)) :
    (∀ output, appendBlocks .create blocks = .ok output →
      output.file ++ List.replicate output.trailingPadding modemEof = blocks.flatten ∧
      output.file = blocks.flatten.rdropWhile (· = modemEof) ∧
      output.bytesWritten = output.file.length) ∧
    (blocks.flatten.length < 2 ^ 64 → ∃ output, appendBlocks .create blocks = .ok output) ∧
    ∀ limit < 2 ^ 64, ∃ output, appendBlocksWithSizeLimit limit .create blocks = .ok output ∧
      output.file = blocks.flatten.take limit := by
  refine ⟨?_, ?_, ?_⟩
  · intro output h
    have trimmed := blocks_trimmed trimmed_create h
    exact ⟨trimmed.padded, trimmed.file, trimmed.bytesWritten⟩
  · intro fits
    exact blocks_accepted trimmed_create (by rwa [length_nil, Nat.zero_add])
  · intro limit fits
    obtain ⟨output, h, limited⟩ := blocks_limited (limited_create limit) fits
    exact ⟨output, h, limited.file⟩

end PortMate
