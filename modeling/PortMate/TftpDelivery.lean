import PortMate.NumberedExchange
import PortMate.TftpServer

namespace PortMate

open List Nat TftpReceiver

/-- A packet on its way, with the place in the file of the block that it carries or acknowledges. The
place is not in its bytes: neither party sees it. -/
structure TftpPacket where
  block : Nat
  bytes : List UInt8
  deriving DecidableEq

/-- The two parties and every packet that was sent: the network may deliver any of them, in any
order and any number of times, or never. -/
structure TftpSystem where
  server : TftpServer
  receiver : TftpReceiver
  toReceiver : List TftpPacket
  toServer : List TftpPacket

open TftpSystem

def TftpServer.currentBlock (blockSize : Nat) : TftpServer → Nat
  | .sending (.data bytesDone _) _ _ => bytesDone / blockSize + 1
  | _ => 0

def isTftpAck (bytes : List UInt8) : Prop :=
  ∃ rest, bytes = u16ToBeBytes tftpOpcodeAck ++ rest

namespace TftpSystem

def initial (serve : TftpServe) (read : Except String Unit) : TftpSystem :=
  let (server, sent) := serve.start read
  { server := server
    receiver := TftpReceiver.start serve.negotiation.blockSize
    toReceiver := sent.map fun bytes => ⟨server.currentBlock serve.negotiation.blockSize, bytes⟩
    toServer := [] }

def serverSteps (serve : TftpServe) (system : TftpSystem) (event : TftpEvent) : TftpSystem :=
  let (server, sent) := serve.step system.server event
  { system with
    server := server
    toReceiver := (sent.map fun bytes =>
      ⟨server.currentBlock serve.negotiation.blockSize, bytes⟩) ++ system.toReceiver }

def receiverTakes (system : TftpSystem) (packet : TftpPacket) (again : Bool) : TftpSystem :=
  let (receiver, replies) := system.receiver.receive packet.bytes again
  { system with
    receiver := receiver
    toServer := (replies.map fun bytes => ⟨packet.block, bytes⟩) ++ system.toServer }

end TftpSystem

/-- A packet is delivered at the latest when its destination is fewer than 65536 blocks ahead of the
block it is about. -/
inductive TftpStep (serve : TftpServe) : TftpSystem → TftpSystem → Prop
  | server (system : TftpSystem) (event : TftpEvent)
      (own : ∀ bytes progress read, event ≠ .response true bytes progress read) :
      TftpStep serve system (system.serverSteps serve event)
  | answer (system : TftpSystem) (packet : TftpPacket) (sent : packet ∈ system.toServer)
      (recent : system.server.currentBlock serve.negotiation.blockSize < packet.block + 65536)
      (progress read : Except String Unit) :
      TftpStep serve system (system.serverSteps serve (.response true packet.bytes progress read))
  | deliver (system : TftpSystem) (packet : TftpPacket) (sent : packet ∈ system.toReceiver)
      (recent : system.receiver.blocks.length + 1 < packet.block + 65536) (again : Bool) :
      TftpStep serve system (system.receiverTakes packet again)
  | remind (system : TftpSystem) :
      TftpStep serve system
        { system with
          toServer := ⟨system.receiver.blocks.length,
            tftpAckPacket (system.receiver.expected - 1)⟩ :: system.toServer }
  | say (system : TftpSystem) (packet : TftpPacket) (other : ¬ isTftpAck packet.bytes) :
      TftpStep serve system { system with toServer := packet :: system.toServer }

theorem foldlM_blockSize {total : Nat} {requested : List (String × String)} :
    ∀ {before after : TftpAccepted}, requested.foldlM (acceptTftpOption total) before = .ok after →
      0 < before.blockSize → 0 < after.blockSize := by
  induction requested with
  | nil =>
    intro before after folded positive
    cases folded
    exact positive
  | cons option requested ih =>
    intro before after folded positive
    obtain ⟨next, accepted, rest⟩ := except_bind_eq_ok folded
    refine ih rest ?_
    obtain ⟨name, value⟩ := option
    unfold acceptTftpOption at accepted
    dsimp only at accepted
    split at accepted
    · split at accepted
      · exact nomatch accepted
      next size _ =>
        split at accepted
        · exact nomatch accepted
        next atLeast =>
          cases accepted
          have clamped : 0 < min size tftpMaxBlockSize :=
            Nat.lt_min.mpr ⟨by omega, by decide⟩
          exact clamped
    · split at accepted
      · cases accepted
        exact positive
      · split at accepted
        · split at accepted
          · exact nomatch accepted
          · split at accepted
            · exact nomatch accepted
            · cases accepted
              exact positive
        · cases accepted
          exact positive

theorem negotiateTftpOptions_ok {requested : List (String × String)} {total : Nat}
    {negotiation : TftpNegotiation}
    (agreed : negotiateTftpOptions requested total = .ok negotiation) :
    0 < negotiation.blockSize ∧ ∀ packet, negotiation.optionAck = some packet →
      ∃ options, packet = u16ToBeBytes tftpOpcodeOack ++ options := by
  obtain ⟨negotiated, folded, made⟩ := except_bind_eq_ok agreed
  cases made
  refine ⟨foldlM_blockSize folded (by decide), fun packet some => ?_⟩
  dsimp only at some
  split at some
  · exact nomatch some
  · obtain rfl := Option.some.inj some
    exact ⟨_, rfl⟩

section Chunks

variable {α : Type}

/-- The pieces of a list between multiples of a size. -/
def chunk (size : Nat) (list : List α) (k : Nat) : List α := (list.drop (k * size)).take size

theorem flatten_chunks (size : Nat) (list : List α) (count : Nat) :
    ((List.range count).map (chunk size list)).flatten = list.take (count * size) := by
  induction count with
  | zero => simp
  | succ count ih =>
    rw [range_succ, map_append, flatten_append, ih, Nat.succ_mul, take_add]
    simp [chunk]

theorem length_chunk (size : Nat) (list : List α) (k : Nat) :
    (chunk size list k).length = min size (list.length - k * size) := by
  rw [chunk, length_take, length_drop]

theorem chunk_short_iff {size : Nat} (positive : 0 < size) (list : List α) {k : Nat}
    (inside : k ≤ list.length / size) :
    (chunk size list k).length < size ↔ k = list.length / size := by
  have division := div_add_mod list.length size
  have remainder := Nat.mod_lt list.length positive
  rw [length_chunk]
  obtain rfl | before := Nat.eq_or_lt_of_le inside
  · rw [Nat.mul_comm]
    have left : list.length - size * (list.length / size) = list.length % size := by omega
    rw [left]
    constructor
    · exact fun _ => rfl
    · intro _
      omega
  · have whole : (k + 1) * size ≤ list.length :=
      Nat.le_trans (Nat.mul_le_mul_right size before) (div_mul_le_self _ _)
    rw [Nat.succ_mul] at whole
    constructor
    · intro short
      omega
    · intro last
      omega

theorem length_chunks {size : Nat} (positive : 0 < size) (list : List α) :
    ((List.range (list.length / size + 1)).map (chunk size list)).map List.length =
      List.replicate (list.length / size) size ++ [list.length % size] := by
  have division := div_add_mod list.length size
  rw [map_map, range_succ, map_append]
  congr 1
  · rw [eq_replicate_iff]
    refine ⟨by rw [length_map, length_range], fun length among => ?_⟩
    obtain ⟨k, before, rfl⟩ := mem_map.mp among
    have inside := mem_range.mp before
    have full : ¬ (chunk size list k).length < size := by
      rw [chunk_short_iff positive list (Nat.le_of_lt inside)]
      omega
    have most : (chunk size list k).length ≤ size := length_take_le _ _
    exact Nat.le_antisymm most (Nat.not_lt.mp full)
  · have remainder := Nat.mod_lt list.length positive
    have left : list.length - list.length / size * size = list.length % size := by
      rw [Nat.mul_comm]
      omega
    simp only [map_cons, map_nil, Function.comp_apply, length_chunk, left]
    rw [Nat.min_eq_right (Nat.le_of_lt remainder)]

theorem flatten_all_chunks {size : Nat} (positive : 0 < size) (list : List α) :
    ((List.range (list.length / size + 1)).map (chunk size list)).flatten = list := by
  rw [flatten_chunks]
  apply take_of_length_le
  have division := div_add_mod list.length size
  have remainder := Nat.mod_lt list.length positive
  rw [Nat.succ_mul, Nat.mul_comm]
  omega

end Chunks

/-- The number of blocks of the file, the short one at its end included. -/
def TftpServe.lastBlock (serve : TftpServe) : Nat :=
  serve.source.length / serve.negotiation.blockSize + 1

open TftpServe

/-- Block 0 is the option packet, which comes before the first block of the file. -/
def TftpServe.packetOf (serve : TftpServe) : Nat → List UInt8
  | 0 => serve.negotiation.optionAck.getD []
  | k + 1 => tftpDataPacket (UInt16.ofNat (k + 1))
      (chunk serve.negotiation.blockSize serve.source k)

/-- The blocks of a file under their 16-bit numbers. -/
def TftpServe.numbered (serve : TftpServe) : NumberedBlocks UInt16 (List UInt8) where
  number := UInt16.ofNat
  window := 65536
  distinct := by
    intro i j same ordered near
    have values := congrArg UInt16.toNat same
    simp only [UInt16.toNat_ofNat'] at values
    omega
  block k := chunk serve.negotiation.blockSize serve.source (k - 1)

def ServerAgrees (serve : TftpServe) (sending : Nat) : TftpServer → Prop
  | .sending (.optionAck packet) block _ =>
    sending = 0 ∧ block = 0 ∧ serve.negotiation.optionAck = some packet
  | .sending (.data bytesDone data) block _ =>
    ∃ k, sending = k + 1 ∧ k < serve.lastBlock ∧ bytesDone = k * serve.negotiation.blockSize ∧
      block = UInt16.ofNat (k + 1) ∧ data = chunk serve.negotiation.blockSize serve.source k
  | .returned (.ok bytesDone) => sending = serve.lastBlock + 1 ∧ bytesDone = serve.source.length
  | .returned (.error _) => True

/-- The system seen as an exchange of numbered blocks. -/
structure TftpAgrees (serve : TftpServe) (system : TftpSystem)
    (exchange : NumberedExchange (List UInt8)) : Prop where
  server : ServerAgrees serve exchange.sending system.server
  size : system.receiver.blockSize = serve.negotiation.blockSize
  wanted : exchange.wanted = system.receiver.blocks.length + 1
  received : exchange.received = system.receiver.blocks
  expected : system.receiver.expected = UInt16.ofNat exchange.wanted
  finished : system.receiver.finished = decide (serve.lastBlock < exchange.wanted)
  most : exchange.wanted ≤ serve.lastBlock + 1
  toReceiver : ∀ packet ∈ system.toReceiver, packet.block ∈ exchange.offered ∧
    packet.block ≤ serve.lastBlock ∧ packet.bytes = serve.packetOf packet.block
  toServer : ∀ packet ∈ system.toServer, isTftpAck packet.bytes →
    packet.block ∈ exchange.acknowledged ∧ packet.bytes = tftpAckPacket (UInt16.ofNat packet.block)

theorem readBlock_chunk (serve : TftpServe) (k : Nat) :
    serve.readBlock (k * serve.negotiation.blockSize) =
      chunk serve.negotiation.blockSize serve.source k := by
  rw [readBlock, chunk, ← length_drop, Nat.min_comm, ← take_take,
    take_length]

variable {serve : TftpServe} {stage : TftpStage}

theorem currentBlock_sending (positive : 0 < serve.negotiation.blockSize) {block : UInt16}
    {attempts sending : Nat} (agrees : ServerAgrees serve sending (.sending stage block attempts)) :
    (TftpServer.sending stage block attempts).currentBlock serve.negotiation.blockSize = sending ∧
      block = UInt16.ofNat sending ∧ sending ≤ serve.lastBlock ∧
      stage.packet block = serve.packetOf sending := by
  cases stage with
  | optionAck packet =>
    obtain ⟨rfl, rfl, options⟩ := agrees
    exact ⟨rfl, rfl, Nat.zero_le _, by simp [TftpStage.packet, packetOf, options]⟩
  | data bytesDone data =>
    obtain ⟨k, rfl, inside, rfl, rfl, rfl⟩ := agrees
    refine ⟨?_, rfl, inside, rfl⟩
    rw [TftpServer.currentBlock, Nat.mul_div_cancel _ positive]

/-- What the server does leaves it at the block, and what it sends is the packet of the block. -/
def Sends (serve : TftpServe) (sending : Nat) (done : TftpServer × List (List UInt8)) : Prop :=
  ServerAgrees serve sending done.1 ∧ ∀ bytes ∈ done.2, bytes = serve.packetOf sending ∧
    sending ≤ serve.lastBlock ∧ done.1.currentBlock serve.negotiation.blockSize = sending

theorem sends_nothing {sending : Nat} {server : TftpServer}
    (agrees : ServerAgrees serve sending server) : Sends serve sending (server, []) :=
  ⟨agrees, fun _ none => absurd none not_mem_nil⟩

section Sending

variable (positive : 0 < serve.negotiation.blockSize)

include positive

theorem sends_current {block : UInt16} {sending : Nat} (attempts : Nat)
    (agrees : ServerAgrees serve sending (.sending stage block attempts)) :
    Sends serve sending (.sending stage block attempts, [stage.packet block]) := by
  obtain ⟨current, _, inside, packet⟩ := currentBlock_sending positive agrees
  refine ⟨agrees, fun bytes sent => ?_⟩
  obtain rfl := mem_singleton.mp sent
  exact ⟨packet, inside, current⟩

theorem sendBlock_sends {k : Nat} (inside : k < serve.lastBlock) (read : Except String Unit) :
    Sends serve (k + 1)
      (serve.sendBlock (UInt16.ofNat (k + 1)) (k * serve.negotiation.blockSize) read) := by
  cases read with
  | error error => exact sends_nothing trivial
  | ok _ =>
    refine sends_current positive 1 ⟨k, rfl, inside, rfl, rfl, ?_⟩
    exact readBlock_chunk serve k

theorem start_sends (read : Except String Unit) :
    ∃ first ≤ 1, Sends serve first (serve.start read) := by
  unfold TftpServe.start
  split
  next packet options => exact ⟨0, by omega, sends_current positive 1 ⟨rfl, rfl, options⟩⟩
  next =>
    have sends := sendBlock_sends positive (k := 0) (succ_pos _) read
    rw [Nat.zero_mul] at sends
    exact ⟨1, Nat.le_refl _, sends⟩

theorem acknowledged_sends (bounded : serve.source.length < 2 ^ 64) {block : UInt16}
    {attempts sending : Nat} (agrees : ServerAgrees serve sending (.sending stage block attempts))
    (progress read : Except String Unit) :
    Sends serve (sending + 1) (serve.acknowledged stage block progress read) := by
  cases stage with
  | optionAck packet =>
    obtain ⟨rfl, rfl, _⟩ := agrees
    have sends := sendBlock_sends positive (k := 0) (succ_pos _) read
    rw [Nat.zero_mul] at sends
    exact sends
  | data bytesDone data =>
    obtain ⟨k, rfl, inside, rfl, rfl, rfl⟩ := agrees
    unfold TftpServe.acknowledged
    dsimp only
    cases progress with
    | error error => exact sends_nothing trivial
    | ok _ =>
      have within : k ≤ serve.source.length / serve.negotiation.blockSize := Nat.lt_succ_iff.mp inside
      have length := length_chunk serve.negotiation.blockSize serve.source k
      have below := Nat.le_trans (Nat.mul_le_mul_right serve.negotiation.blockSize within)
        (div_mul_le_self _ _)
      dsimp only
      split
      next short =>
        have last := (chunk_short_iff positive serve.source within).mp short
        apply sends_nothing
        refine ⟨congrArg (· + 2) last, ?_⟩
        omega
      next full =>
        have more : k ≠ serve.source.length / serve.negotiation.blockSize :=
          fun last => full ((chunk_short_iff positive serve.source within).mpr last)
        have next : k + 1 < serve.lastBlock := by
          unfold lastBlock
          omega
        have whole : min (k * serve.negotiation.blockSize +
            (chunk serve.negotiation.blockSize serve.source k).length) (2 ^ 64 - 1) =
            (k + 1) * serve.negotiation.blockSize := by
          rw [Nat.succ_mul]
          omega
        have number : UInt16.ofNat (k + 1) + 1 = UInt16.ofNat (k + 1 + 1) :=
          (UInt16.ofNat_add (k + 1) 1).symm
        rw [whole, number]
        exact sendBlock_sends positive next read

end Sending

theorem u16ToBeBytes_fromBeBytes (high low : UInt8) :
    u16ToBeBytes (u16FromBeBytes high low) = [high, low] := by
  have highBound := high.toNat_lt
  have lowBound := low.toNat_lt
  have shift : (8 : UInt16).toNat % 16 = 8 := rfl
  have first : (u16FromBeBytes high low >>> 8).toUInt8 = high := by
    apply UInt8.toNat_inj.mp
    simp only [u16FromBeBytes, UInt16.toNat_toUInt8, UInt16.toNat_shiftRight, UInt16.toNat_ofNat',
      shiftRight_eq_div_pow, shift]
    omega
  have second : (u16FromBeBytes high low).toUInt8 = low := by
    apply UInt8.toNat_inj.mp
    simp only [u16FromBeBytes, UInt16.toNat_toUInt8, UInt16.toNat_ofNat']
    omega
  rw [u16ToBeBytes, first, second]

theorem respond_sends (positive : 0 < serve.negotiation.blockSize)
    (bounded : serve.source.length < 2 ^ 64) {block : UInt16} {attempts sending : Nat}
    (agrees : ServerAgrees serve sending (.sending stage block attempts)) (bytes : List UInt8)
    (progress read : Except String Unit) :
    Sends serve sending (serve.step (.sending stage block attempts)
        (.response true bytes progress read)) ∨
      ((∃ rest, bytes = tftpAckPacket (UInt16.ofNat sending) ++ rest) ∧
        Sends serve (sending + 1) (serve.step (.sending stage block attempts)
          (.response true bytes progress read))) := by
  obtain ⟨_, number, _, _⟩ := currentBlock_sending positive agrees
  show Sends serve sending (serve.respond stage block attempts (bytes.take tftpAckBufferSize)
    progress read) ∨ _ ∧ Sends serve (sending + 1) (serve.respond stage block attempts
      (bytes.take tftpAckBufferSize) progress read)
  generalize response : bytes.take tftpAckBufferSize = taken
  unfold respond
  split
  next opcodeHigh opcodeLow blockHigh blockLow message =>
    dsimp only
    split
    next matching =>
      right
      obtain ⟨opcode, received⟩ := Bool.and_eq_true_iff.mp matching
      have header : tftpAckPacket (UInt16.ofNat sending) =
          [opcodeHigh, opcodeLow, blockHigh, blockLow] := by
        rw [← number, tftpAckPacket, ← of_decide_eq_true opcode, ← of_decide_eq_true received,
          u16ToBeBytes_fromBeBytes, u16ToBeBytes_fromBeBytes]
        rfl
      refine ⟨⟨message ++ bytes.drop tftpAckBufferSize, ?_⟩,
        acknowledged_sends positive bounded agrees progress read⟩
      have whole := take_append_drop tftpAckBufferSize bytes
      rw [response] at whole
      rw [header]
      exact whole.symm
    · left
      split
      · exact sends_nothing trivial
      · exact sends_nothing agrees
  · exact .inl (sends_nothing agrees)

theorem own_sends (positive : 0 < serve.negotiation.blockSize) {server : TftpServer} {sending : Nat}
    (agrees : ServerAgrees serve sending server) (event : TftpEvent)
    (own : ∀ bytes progress read, event ≠ .response true bytes progress read) :
    Sends serve sending (serve.step server event) := by
  cases server with
  | returned result => exact sends_nothing agrees
  | sending stage block attempts =>
    cases event with
    | response fromPeer bytes progress read =>
      cases fromPeer with
      | false => exact sends_nothing agrees
      | true => exact absurd rfl (own bytes progress read)
    | attemptOver =>
      have agrees' : ServerAgrees serve sending
          (.sending stage block (min (attempts + 1) (2 ^ 32 - 1))) := by
        cases stage <;> exact agrees
      exact sends_current positive _ agrees'
    | deadlineOver => exact sends_nothing trivial
    | interrupt error => exact sends_nothing trivial

section Simulation

variable {serve : TftpServe} {system : TftpSystem} {exchange : NumberedExchange (List UInt8)}

theorem TftpAgrees.serverSteps (agrees : TftpAgrees serve system exchange) {sending : Nat}
    {event : TftpEvent} (sends : Sends serve sending (serve.step system.server event)) :
    TftpAgrees serve (system.serverSteps serve event)
      { exchange with sending, offered := sending :: exchange.offered } := by
  refine { agrees with server := sends.1, toReceiver := fun packet known => ?_ }
  obtain new | old := mem_append.mp known
  · obtain ⟨bytes, sent, rfl⟩ := mem_map.mp new
    obtain ⟨contents, inside, current⟩ := sends.2 bytes sent
    refine ⟨?_, ?_, ?_⟩
    · show (serve.step system.server event).1.currentBlock _ ∈ sending :: exchange.offered
      rw [current]
      exact mem_cons_self
    · show (serve.step system.server event).1.currentBlock _ ≤ serve.lastBlock
      rw [current]
      exact inside
    · show bytes = serve.packetOf ((serve.step system.server event).1.currentBlock _)
      rw [current]
      exact contents
  · obtain ⟨offered, rest⟩ := agrees.toReceiver packet old
    exact ⟨mem_cons_of_mem _ offered, rest⟩

theorem TftpAgrees.replies (agrees : TftpAgrees serve system exchange) (block : Nat) :
    TftpAgrees serve
      { system with toServer := ⟨block, tftpAckPacket (UInt16.ofNat block)⟩ :: system.toServer }
      { exchange with acknowledged := block :: exchange.acknowledged } := by
  refine { agrees with toServer := fun packet known ack => ?_ }
  obtain rfl | old := mem_cons.mp known
  · exact ⟨mem_cons_self, rfl⟩
  · obtain ⟨acknowledged, contents⟩ := agrees.toServer packet old ack
    exact ⟨mem_cons_of_mem _ acknowledged, contents⟩

theorem receive_data (receiver : TftpReceiver) (block : UInt16) (data : List UInt8) (again : Bool) :
    receiver.receive (tftpDataPacket block data) again =
      if !receiver.finished && block = receiver.expected then
        ({ receiver with
            expected := receiver.expected + 1
            blocks := receiver.blocks ++ [data]
            finished := decide (data.length < receiver.blockSize) }, [tftpAckPacket block])
      else (receiver, if again then [tftpAckPacket block] else []) := by
  have number := u16FromBeBytes_toBeBytes block
  have opcode : u16FromBeBytes (tftpOpcodeData >>> 8).toUInt8 tftpOpcodeData.toUInt8 =
      tftpOpcodeData := u16FromBeBytes_toBeBytes _
  have other : ¬ tftpOpcodeData = tftpOpcodeOack := by decide
  simp only [receive, tftpDataPacket, u16ToBeBytes, cons_append, nil_append,
    opcode, if_neg other, if_true, number]

theorem receive_options (receiver : TftpReceiver) (options : List UInt8) (again : Bool) :
    receiver.receive (u16ToBeBytes tftpOpcodeOack ++ options) again =
      (receiver, if again then [tftpAckPacket 0] else []) := by
  have opcode : u16FromBeBytes (tftpOpcodeOack >>> 8).toUInt8 tftpOpcodeOack.toUInt8 =
      tftpOpcodeOack := u16FromBeBytes_toBeBytes _
  simp only [receive, u16ToBeBytes, cons_append, nil_append, opcode, if_true]

theorem receiverTakes_of_receive {packet : TftpPacket} {again : Bool}
    {result : TftpReceiver × List (List UInt8)}
    (received : system.receiver.receive packet.bytes again = result) :
    system.receiverTakes packet again =
      { system with
        receiver := result.1
        toServer := (result.2.map fun bytes => ⟨packet.block, bytes⟩) ++ system.toServer } := by
  rw [receiverTakes, received]

theorem TftpAgrees.again (agrees : TftpAgrees serve system exchange) {packet : TftpPacket}
    {again : Bool} (offered : packet.block ∈ exchange.offered)
    (named : serve.numbered.number packet.block ≠ serve.numbered.number exchange.wanted)
    (received : system.receiver.receive packet.bytes again =
      (system.receiver, if again then [tftpAckPacket (UInt16.ofNat packet.block)] else [])) :
    ∃ next, Relation.ReflTransGen (NumberedExchange.Step serve.numbered) exchange next ∧
      TftpAgrees serve (system.receiverTakes packet again) next := by
  rw [receiverTakes_of_receive received]
  cases again with
  | false => exact ⟨exchange, .refl, agrees⟩
  | true => exact ⟨_, .single (.again exchange _ offered named), agrees.replies packet.block⟩

theorem TftpAgrees.deliver (agrees : TftpAgrees serve system exchange)
    (inv : exchange.Inv serve.numbered 1) (positive : 0 < serve.negotiation.blockSize)
    (options : ∀ packet, serve.negotiation.optionAck = some packet →
      ∃ rest, packet = u16ToBeBytes tftpOpcodeOack ++ rest)
    {packet : TftpPacket} (sent : packet ∈ system.toReceiver)
    (recent : system.receiver.blocks.length + 1 < packet.block + 65536) (again : Bool) :
    ∃ next, Relation.ReflTransGen (NumberedExchange.Step serve.numbered) exchange next ∧
      TftpAgrees serve (system.receiverTakes packet again) next := by
  obtain ⟨offered, inside, contents⟩ := agrees.toReceiver packet sent
  rw [← agrees.wanted] at recent
  have started := inv.started
  have notAhead := inv.offers packet.block offered
  have behind := inv.behind
  have other : packet.block ≠ exchange.wanted →
      serve.numbered.number packet.block ≠ serve.numbered.number exchange.wanted :=
    fun differs same => differs (serve.numbered.distinct same (by omega) recent)
  obtain ⟨block, bytes⟩ := packet
  dsimp only at offered inside contents recent other notAhead
  subst contents
  cases block with
  | zero =>
    cases some : serve.negotiation.optionAck with
    | none =>
      have empty : serve.packetOf 0 = [] := by rw [packetOf, some, Option.getD_none]
      rw [empty, receiverTakes_of_receive rfl]
      exact ⟨exchange, .refl, agrees⟩
    | some packet =>
      obtain ⟨rest, rfl⟩ := options packet some
      refine agrees.again offered (other (by omega)) ?_
      show system.receiver.receive (serve.negotiation.optionAck.getD []) again = _
      rw [some]
      exact receive_options system.receiver rest again
  | succ k =>
    have received := receive_data system.receiver (UInt16.ofNat (k + 1))
      (chunk serve.negotiation.blockSize serve.source k) again
    rw [agrees.finished, agrees.expected] at received
    split at received
    next taken =>
      obtain ⟨unfinished, number⟩ := Bool.and_eq_true_iff.mp taken
      have named : serve.numbered.number (k + 1) = serve.numbered.number exchange.wanted :=
        of_decide_eq_true number
      obtain ⟨same, _⟩ := inv.takes_wanted offered recent named
      refine ⟨_, .single (.take exchange (k + 1) offered recent named), ?_⟩
      rw [receiverTakes_of_receive received]
      have counted : exchange.wanted + 1 = (system.receiver.blocks ++
          [chunk serve.negotiation.blockSize serve.source k]).length + 1 := by
        rw [length_append, agrees.wanted]
        rfl
      have ended : decide ((chunk serve.negotiation.blockSize serve.source k).length <
          system.receiver.blockSize) = decide (serve.lastBlock < exchange.wanted + 1) := by
        have within : k ≤ serve.source.length / serve.negotiation.blockSize := by
          unfold lastBlock at inside
          omega
        rw [agrees.size, decide_eq_decide, chunk_short_iff positive serve.source within, ← same]
        unfold lastBlock
        omega
      refine { agrees with
        wanted := counted, received := ?_, expected := ?_, finished := ended, most := ?_
        toServer := ?_ }
      · exact congrArg (· ++ _) agrees.received
      · exact (UInt16.ofNat_add exchange.wanted 1).symm
      · rw [← same]
        exact succ_le_succ inside
      · exact (agrees.replies (k + 1)).toServer
    next left =>
      have named : serve.numbered.number (k + 1) ≠ serve.numbered.number exchange.wanted := by
        intro named
        apply left
        have same := serve.numbered.distinct named (by omega) recent
        have number : UInt16.ofNat (k + 1) = UInt16.ofNat exchange.wanted := named
        rw [number, ← same]
        simp [Nat.not_lt.mpr inside]
      exact agrees.again offered named received

theorem tftpAckPacket_number {block other : UInt16} {rest : List UInt8}
    (same : tftpAckPacket block = tftpAckPacket other ++ rest) : block = other := by
  simp only [tftpAckPacket, u16ToBeBytes, cons_append, nil_append, List.cons.injEq,
    true_and] at same
  rw [← u16FromBeBytes_toBeBytes block, same.1, same.2.1, u16FromBeBytes_toBeBytes]

theorem TftpAgrees.answer (agrees : TftpAgrees serve system exchange)
    (positive : 0 < serve.negotiation.blockSize) (bounded : serve.source.length < 2 ^ 64)
    {packet : TftpPacket} (sent : packet ∈ system.toServer)
    (recent : system.server.currentBlock serve.negotiation.blockSize < packet.block + 65536)
    (progress read : Except String Unit) :
    ∃ next, Relation.ReflTransGen (NumberedExchange.Step serve.numbered) exchange next ∧
      TftpAgrees serve (system.serverSteps serve (.response true packet.bytes progress read)) next := by
  have offers : NumberedExchange.Step serve.numbered exchange
      { exchange with offered := exchange.sending :: exchange.offered } := .offer exchange
  cases current : system.server with
  | returned result =>
    have same : serve.step system.server (.response true packet.bytes progress read) =
        (system.server, []) := by rw [current]; rfl
    have sends := sends_nothing agrees.server
    rw [← same] at sends
    exact ⟨_, .single offers, agrees.serverSteps sends⟩
  | sending stage block attempts =>
    have here := agrees.server
    rw [current] at here recent
    obtain stays | ⟨⟨rest, ack⟩, moves⟩ :=
      respond_sends positive bounded here packet.bytes progress read
    · rw [← current] at stays
      exact ⟨_, .single offers, agrees.serverSteps stays⟩
    · rw [← current] at moves
      have isAck : isTftpAck packet.bytes :=
        ⟨u16ToBeBytes (UInt16.ofNat exchange.sending) ++ rest, by rw [ack]; simp [tftpAckPacket]⟩
      obtain ⟨acknowledged, contents⟩ := agrees.toServer packet sent isAck
      have named : serve.numbered.number packet.block = serve.numbered.number exchange.sending :=
        tftpAckPacket_number (contents.symm.trans ack)
      rw [(currentBlock_sending positive here).1] at recent
      have advances : NumberedExchange.Step serve.numbered exchange
          { exchange with sending := exchange.sending + 1 } :=
        .advance exchange packet.block acknowledged recent named
      refine ⟨_, .tail (.single advances) (.offer _), ?_⟩
      exact agrees.serverSteps moves

theorem TftpAgrees.step (agrees : TftpAgrees serve system exchange)
    (inv : exchange.Inv serve.numbered 1) (positive : 0 < serve.negotiation.blockSize)
    (bounded : serve.source.length < 2 ^ 64)
    (options : ∀ packet, serve.negotiation.optionAck = some packet →
      ∃ rest, packet = u16ToBeBytes tftpOpcodeOack ++ rest)
    {after : TftpSystem} (step : TftpStep serve system after) :
    ∃ next, Relation.ReflTransGen (NumberedExchange.Step serve.numbered) exchange next ∧
      TftpAgrees serve after next := by
  cases step with
  | server event own =>
    have sends := own_sends positive agrees.server event own
    exact ⟨_, .single (.offer exchange), agrees.serverSteps sends⟩
  | answer packet sent recent progress read =>
    exact agrees.answer positive bounded sent recent progress read
  | deliver packet sent recent again =>
    exact agrees.deliver inv positive options sent recent again
  | remind =>
    have last : system.receiver.blocks.length + 1 = exchange.wanted := agrees.wanted.symm
    refine ⟨_, .single (.remind exchange _ last), ?_⟩
    have number : system.receiver.expected - 1 = UInt16.ofNat system.receiver.blocks.length := by
      rw [agrees.expected, ← last, UInt16.ofNat_add]
      exact UInt16.add_sub_cancel _ _
    rw [number]
    exact agrees.replies system.receiver.blocks.length
  | say packet other =>
    refine ⟨exchange, .refl, { agrees with toServer := fun known inside ack => ?_ }⟩
    obtain rfl | old := mem_cons.mp inside
    · exact absurd ack other
    · exact agrees.toServer known old ack

theorem initial_agrees (positive : 0 < serve.negotiation.blockSize) (read : Except String Unit) :
    ∃ exchange, exchange.Inv serve.numbered 1 ∧
      TftpAgrees serve (initial serve read) exchange := by
  obtain ⟨first, atMost, started, sent⟩ := start_sends positive read
  refine ⟨⟨first, 1, [], [first], []⟩, ?_, ?_⟩
  · refine ⟨Nat.le_refl 1, atMost, Nat.le_add_left 1 first, ?_, ?_, rfl⟩
    · exact forall_mem_cons.mpr ⟨Nat.le_refl first, fun _ none => absurd none not_mem_nil⟩
    · exact fun _ none => absurd none not_mem_nil
  · refine ⟨started, rfl, rfl, rfl, rfl, ?_, Nat.le_add_left 1 _, ?_, ?_⟩
    · exact (decide_eq_false (Nat.not_lt.mpr (Nat.le_add_left 1 _))).symm
    · intro packet known
      obtain ⟨bytes, among, rfl⟩ := mem_map.mp known
      obtain ⟨contents, inside, current⟩ := sent bytes among
      show (serve.start read).1.currentBlock _ ∈ [first] ∧
        (serve.start read).1.currentBlock _ ≤ serve.lastBlock ∧
          bytes = serve.packetOf ((serve.start read).1.currentBlock _)
      rw [current]
      exact ⟨mem_cons_self, inside, contents⟩
    · exact fun _ none => absurd none not_mem_nil

theorem reachable_agrees (positive : 0 < serve.negotiation.blockSize)
    (bounded : serve.source.length < 2 ^ 64)
    (options : ∀ packet, serve.negotiation.optionAck = some packet →
      ∃ rest, packet = u16ToBeBytes tftpOpcodeOack ++ rest)
    {read : Except String Unit}
    (reached : Relation.ReflTransGen (TftpStep serve) (initial serve read) system) :
    ∃ exchange, exchange.Inv serve.numbered 1 ∧ TftpAgrees serve system exchange := by
  induction reached with
  | refl => exact initial_agrees positive read
  | tail _ step ih =>
    obtain ⟨exchange, inv, agrees⟩ := ih
    obtain ⟨next, steps, agrees⟩ := agrees.step inv positive bounded options step
    exact ⟨next, inv.reachable steps, agrees⟩

theorem stale_ack_ignored (agrees : TftpAgrees serve system exchange)
    (inv : exchange.Inv serve.numbered 1) (positive : 0 < serve.negotiation.blockSize)
    {packet : TftpPacket} (sent : packet ∈ system.toServer) (isAck : isTftpAck packet.bytes)
    (recent : system.server.currentBlock serve.negotiation.blockSize < packet.block + 65536)
    (stale : packet.block ≠ system.server.currentBlock serve.negotiation.blockSize)
    (progress read : Except String Unit) :
    serve.step system.server (.response true packet.bytes progress read) = (system.server, []) := by
  cases current : system.server with
  | returned result => rfl
  | sending stage block attempts =>
    have here := agrees.server
    rw [current] at here recent stale
    obtain ⟨place, number, _, _⟩ := currentBlock_sending positive here
    rw [place] at recent stale
    obtain ⟨acknowledged, contents⟩ := agrees.toServer packet sent isAck
    have other : UInt16.ofNat packet.block ≠ block := by
      intro same
      have named : serve.numbered.number packet.block = serve.numbered.number exchange.sending :=
        same.trans number
      exact stale (inv.acknowledges_sending acknowledged recent named).1
    have header := u16FromBeBytes_toBeBytes (UInt16.ofNat packet.block)
    have opcode : u16FromBeBytes (tftpOpcodeAck >>> 8).toUInt8 tftpOpcodeAck.toUInt8 =
        tftpOpcodeAck := u16FromBeBytes_toBeBytes _
    have whole : packet.bytes.take tftpAckBufferSize = packet.bytes := by
      rw [contents]
      rfl
    show serve.respond stage block attempts (packet.bytes.take tftpAckBufferSize) progress read = _
    rw [whole, contents]
    simp only [respond, tftpAckPacket, u16ToBeBytes, cons_append, nil_append,
      opcode, header]
    rw [if_neg (by simp [other]), if_neg (by decide)]

end Simulation

/-- When the server reports success, the receiver has the file: all of its blocks in order, full ones
and then a short one, which is empty when the length is a multiple of the block size. Before, an
acknowledgement moves the server on only if it is one for the block on offer. -/
theorem tftp_serves_exactly_the_file (source : List UInt8) (requested : List (String × String))
    (negotiation : TftpNegotiation) (bounded : source.length < 2 ^ 64)
    (agreed : negotiateTftpOptions requested source.length = .ok negotiation)
    (read : Except String Unit) (system : TftpSystem)
    (reached : Relation.ReflTransGen (TftpStep ⟨source, negotiation⟩)
      (initial ⟨source, negotiation⟩ read) system) :
    (∀ bytesDone, system.server = .returned (.ok bytesDone) →
        system.receiver.blocks.flatten = source ∧ bytesDone = source.length ∧
          system.receiver.finished = true ∧
          system.receiver.blocks.map List.length =
            List.replicate (source.length / negotiation.blockSize) negotiation.blockSize ++
              [source.length % negotiation.blockSize]) ∧
      ∀ packet ∈ system.toServer, isTftpAck packet.bytes →
        system.server.currentBlock negotiation.blockSize < packet.block + 65536 →
        packet.block ≠ system.server.currentBlock negotiation.blockSize → ∀ progress read,
          TftpServe.step ⟨source, negotiation⟩ system.server
            (.response true packet.bytes progress read) = (system.server, []) := by
  obtain ⟨positive, options⟩ := negotiateTftpOptions_ok agreed
  obtain ⟨exchange, inv, agrees⟩ :=
    @reachable_agrees ⟨source, negotiation⟩ system positive bounded options read reached
  refine ⟨fun bytesDone success => ?_, fun packet sent isAck recent stale progress read =>
    stale_ack_ignored agrees inv positive sent isAck recent stale progress read⟩
  have here := agrees.server
  rw [success] at here
  obtain ⟨last, total⟩ := here
  have behind := inv.behind
  have most := agrees.most
  have wanted : exchange.wanted = source.length / negotiation.blockSize + 1 + 1 := by
    unfold lastBlock at last most
    dsimp only at last most
    omega
  have blocks : system.receiver.blocks = (List.range (source.length / negotiation.blockSize + 1)).map
      (chunk negotiation.blockSize source) := by
    rw [← agrees.received, inv.received, wanted, range'_eq_map_range, map_map]
    apply map_congr_left
    intro k _
    show chunk negotiation.blockSize source (1 + k - 1) = _
    rw [Nat.add_sub_cancel_left]
  refine ⟨?_, total, ?_, ?_⟩
  · rw [blocks, flatten_all_chunks positive]
  · rw [agrees.finished, wanted]
    exact decide_eq_true (lt_succ_self _)
  · rw [blocks, length_chunks positive]

/-- Eight bytes in blocks of eight: a full block and an empty one. -/
def eightBytes : TftpServe :=
  ⟨[1, 2, 3, 4, 5, 6, 7, 8], ⟨8, tftpRetryTimeout, some (tftpOptionAck [("blksize", "8")])⟩⟩

def answeredWith (system : TftpSystem) (block : UInt16) : TftpSystem :=
  system.serverSteps eightBytes (.response true (tftpAckPacket block) (.ok ()) (.ok ()))

def eightOffered : TftpSystem := initial eightBytes (.ok ())

def eightAccepted : TftpSystem :=
  answeredWith (eightOffered.receiverTakes ⟨0, eightBytes.packetOf 0⟩ true) 0

def eightHalf : TftpSystem :=
  answeredWith (eightAccepted.receiverTakes ⟨1, eightBytes.packetOf 1⟩ true) 1

def eightServed : TftpSystem :=
  answeredWith (eightHalf.receiverTakes ⟨2, eightBytes.packetOf 2⟩ true) 2

theorem eightServed_reached :
    Relation.ReflTransGen (TftpStep eightBytes) eightOffered eightServed := by
  refine .tail (.tail (.tail (.tail (.tail (.tail .refl
    (.deliver _ ⟨0, eightBytes.packetOf 0⟩ ?_ ?_ true))
    (.answer _ ⟨0, tftpAckPacket 0⟩ ?_ ?_ (.ok ()) (.ok ())))
    (.deliver _ ⟨1, eightBytes.packetOf 1⟩ ?_ ?_ true))
    (.answer _ ⟨1, tftpAckPacket 1⟩ ?_ ?_ (.ok ()) (.ok ())))
    (.deliver _ ⟨2, eightBytes.packetOf 2⟩ ?_ ?_ true))
    (.answer _ ⟨2, tftpAckPacket 2⟩ ?_ ?_ (.ok ()) (.ok ()))
  all_goals decide

theorem eight_bytes_served_with_an_empty_block :
    eightServed.receiver.blocks.flatten = [1, 2, 3, 4, 5, 6, 7, 8] ∧
      eightServed.receiver.blocks.map List.length = [8, 0] :=
  have served := (tftp_serves_exactly_the_file eightBytes.source [("blksize", "8")]
    eightBytes.negotiation (by decide) (by rfl) (.ok ()) eightServed eightServed_reached).1 8 (by rfl)
  ⟨served.1, served.2.2.2⟩

end PortMate
