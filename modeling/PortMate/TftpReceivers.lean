import PortMate.LineStream
import PortMate.TransferEndpoints

namespace PortMate

open List Bool Option

section Addresses

theorem octets_checked : ((List.range 256).all fun n => !(toString n).toList.contains '.' &&
    readOctet (toString n).toList == some n && (toString n).toList.all Char.isDigit) = true := by
  decide +kernel

theorem octet_digits (n : Nat) (small : n < 256) : '.' ∉ (toString n).toList ∧
    readOctet (toString n).toList = some n ∧
    ∀ c ∈ (toString n).toList, c.isDigit = true := by
  have checked := all_eq_true.mp octets_checked n (mem_range.mpr small)
  rw [and_eq_true, and_eq_true, not_eq_true', beq_iff_eq] at checked
  obtain ⟨⟨dot, read⟩, digits⟩ := checked
  refine ⟨fun mem => ?_, read, all_eq_true.mp digits⟩
  rw [contains_iff_mem.mpr mem] at dot
  cases dot

theorem readOctet_le {text : List Char} {value : Nat} (read : readOctet text = some value) :
    value ≤ 255 := by
  unfold readOctet at read
  obtain ⟨digits, -, read⟩ := bind_eq_some_iff.mp read
  split at read
  · cases read
  · dsimp only at read
    split at read
    next small => exact Option.some.inj read ▸ small
    next => cases read

theorem mem_of_mapM_some {α β : Type} {f : α → Option β} {xs : List α} {ys : List β}
    (mapped : xs.mapM f = some ys) {y : β} (mem : y ∈ ys) : ∃ x ∈ xs, f x = some y := by
  induction xs generalizing ys with
  | nil =>
    obtain rfl := Option.some.inj mapped
    cases mem
  | cons x xs ih =>
    rw [mapM_cons] at mapped
    obtain ⟨first, found, mapped⟩ := bind_eq_some_iff.mp mapped
    obtain ⟨rest, later, mapped⟩ := bind_eq_some_iff.mp mapped
    obtain rfl := Option.some.inj mapped
    rcases mem_cons.mp mem with rfl | mem
    · exact ⟨x, mem_cons_self, found⟩
    · obtain ⟨x', inside, same⟩ := ih later mem
      exact ⟨x', mem_cons_of_mem _ inside, same⟩

theorem mapM_of_read {α β : Type} {f : α → Option β} {text : β → α} {values : List β}
    (back : ∀ value ∈ values, f (text value) = some value) :
    (values.map text).mapM f = some values := by
  induction values with
  | nil => rfl
  | cons value values ih =>
    obtain ⟨first, others⟩ := forall_mem_cons.mp back
    rw [map_cons, mapM_cons, first, ih others]
    rfl

theorem parseIpv4_lt {text : List Char} {bits : Nat} (read : parseIpv4 text = some bits) :
    bits < 2 ^ 32 := by
  unfold parseIpv4 at read
  split at read
  next a b c d octets =>
    have small : ∀ octet ∈ [a, b, c, d], octet ≤ 255 := fun octet mem =>
      let ⟨_, _, read⟩ := mem_of_mapM_some octets mem
      readOctet_le read
    have := small a (by simp)
    have := small b (by simp)
    have := small c (by simp)
    have := small d (by simp)
    have := Option.some.inj read
    omega
  next => cases read

theorem octets_small {bits : Nat} :
    ∀ octet ∈ [bits / 2 ^ 24 % 256, bits / 2 ^ 16 % 256, bits / 2 ^ 8 % 256, bits % 256],
      octet < 256 := by
  simp only [forall_mem_cons]
  exact ⟨by omega, by omega, by omega, by omega, nofun⟩

theorem parseIpv4_ipv4Text {bits : Nat} (small : bits < 2 ^ 32) :
    parseIpv4 (ipv4Text bits) = some bits := by
  have parts : ∀ text ∈ [bits / 2 ^ 24 % 256, bits / 2 ^ 16 % 256, bits / 2 ^ 8 % 256,
      bits % 256].map fun octet => (toString octet).toList, '.' ∉ text := by
    intro text mem
    obtain ⟨octet, inside, rfl⟩ := mem_map.mp mem
    exact (octet_digits octet (octets_small octet inside)).1
  have octets := mapM_of_read fun octet mem =>
    (octet_digits octet (@octets_small bits octet mem)).2.1
  rw [parseIpv4, ipv4Text, splitOn_intercalate '.' parts (by simp), octets]
  dsimp only
  congr 1
  omega

theorem mem_intercalate {separator c : Char} {parts : List (List Char)}
    (mem : c ∈ [separator].intercalate parts) : c = separator ∨ ∃ part ∈ parts, c ∈ part := by
  induction parts with
  | nil => cases mem
  | cons part parts ih =>
    cases parts with
    | nil => exact .inr ⟨part, mem_cons_self, by simpa [List.intercalate] using mem⟩
    | cons next parts =>
      rw [intercalate_cons_cons, mem_append, mem_append] at mem
      rcases mem with (here | here) | later
      · exact .inr ⟨part, mem_cons_self, here⟩
      · exact .inl (mem_singleton.mp here)
      · rcases ih later with here | ⟨part', inside, here⟩
        · exact .inl here
        · exact .inr ⟨part', mem_cons_of_mem _ inside, here⟩

theorem ipv4Text_chars {bits : Nat} {c : Char} (mem : c ∈ ipv4Text bits) :
    c = '.' ∨ c.isDigit = true := by
  rcases mem_intercalate mem with dot | ⟨part, inside, here⟩
  · exact .inl dot
  · obtain ⟨octet, octets, rfl⟩ := mem_map.mp inside
    exact .inr ((octet_digits octet (octets_small octet octets)).2.2 c here)

end Addresses

/-- `McpStructuredTransferDestination`, which has one kind. -/
structure TftpbootDestination where
  deviceIp : String
  address : Option String := none
  fileName : Option String := none
  serverIp : Option String := none
  bindHost : Option String := none
  bindPort : Option UInt16 := none
  timeoutSeconds : Option UInt64 := none

def ipv4String (bits : Nat) : String := String.ofList (ipv4Text bits)

/-- What is appended to the serializer, in its order. -/
def destinationPairs (destination : TftpbootDestination) (deviceIp : Nat)
    (serverIp bindHost : Option Nat) : List (String × String) :=
  (destination.address.map fun value => ("address", value)).toList ++
    ((destination.fileName.map fun value => ("fileName", value)).toList ++
    ([("deviceIp", ipv4String deviceIp)] ++
    ((serverIp.map fun value => ("serverIp", ipv4String value)).toList ++
    ((bindHost.map fun value => ("bindHost", ipv4String value)).toList ++
    ((destination.bindPort.map fun value => ("bindPort", toString value.toNat)).toList ++
    (destination.timeoutSeconds.map fun value =>
      ("timeoutSeconds", toString value.toNat)).toList)))))

/-- The serializer of the `url` crate, from its pairs to its text. -/
abbrev PairSerializer := List (String × String) → String

/-- The checks of the fields, and the pairs if they pass. -/
def structuredTftpPairs (crates : EndpointCrates) (destination : TftpbootDestination) :
    Except String (List (String × String)) := do
  let deviceIp ← parseTftpIpv4 destination.deviceIp "deviceIp" false
  let address ← destination.address.mapM validateLoadAddress
  let _ ← destination.fileName.mapM validateTftpFileName
  let serverIp ← destination.serverIp.mapM fun value => parseTftpIpv4 value "serverIp" false
  let bindHost ← destination.bindHost.mapM fun value => parseTftpIpv4 value "bindHost" true
  let _ ← destination.timeoutSeconds.mapM fun seconds => validateTftpTimeout crates seconds.toNat
  return destinationPairs { destination with address } deviceIp serverIp bindHost

def tftpbootEndpoint (serialize : PairSerializer) (pairs : List (String × String)) : String :=
  "load:tftpboot?" ++ serialize pairs

def encodeStructuredTftpDestination (crates : EndpointCrates) (serialize : PairSerializer)
    (destination : TftpbootDestination) : Except String String :=
  (structuredTftpPairs crates destination).map (tftpbootEndpoint serialize)

def TftpbootDestination.normalize (crates : EndpointCrates) (serialize : PairSerializer)
    (destination : TftpbootDestination) (protocol : TransferProtocol) : Except String String :=
  if protocol ≠ .tftp then .error "structured tftpboot destination requires protocol `tftp`"
  else encodeStructuredTftpDestination crates serialize destination

theorem optional_mapM_ok {α β : Type} {f : α → Except String β} {field : Option α} {found : Option β}
    (mapped : field.mapM f = .ok found) :
    (field = none ∧ found = none) ∨ ∃ value result, field = some value ∧ found = some result ∧
      f value = .ok result := by
  cases field with
  | none => exact .inl ⟨rfl, (Except.ok.inj mapped).symm⟩
  | some value =>
    obtain ⟨result, done, same⟩ := except_bind_eq_ok mapped
    exact .inr ⟨value, result, rfl, (Except.ok.inj same).symm, done⟩

theorem foldlM_optional {α σ : Type} {f : σ → String × String → Except String σ} {field : Option α}
    {pair : α → String × String} {before after : σ}
    (present : ∀ value, field = some value → f before (pair value) = .ok after)
    (missing : field = none → before = after) :
    (field.map pair).toList.foldlM f before = .ok after := by
  cases field with
  | none => exact congrArg Except.ok (missing rfl)
  | some value =>
    have step := present value rfl
    rw [map_some, toList_some, foldlM_cons, step]
    rfl

theorem foldlM_joined {α σ : Type} {f : σ → α → Except String σ} {front rest : List α}
    {before between : σ} {after : Except String σ} (first : front.foldlM f before = .ok between)
    (second : rest.foldlM f between = after) : (front ++ rest).foldlM f before = after := by
  rw [foldlM_append, first]
  exact second

section Parameters

variable {crates : EndpointCrates} {parameters : TftpParameters}

theorem read_address {value result : String} (fresh : parameters.address = none)
    (valid : validateLoadAddress value = .ok result) :
    parameters.read crates ("address", value) = .ok { parameters with address := some result } := by
  simp [TftpParameters.read, fresh, valid, Except.map]

theorem read_fileName {value : String} (fresh : parameters.fileName = none)
    (valid : validateTftpFileName value = .ok ()) :
    parameters.read crates ("fileName", value) = .ok { parameters with fileName := some value } := by
  simp [TftpParameters.read, fresh, valid, Except.map]

theorem read_deviceIp {value : String} {bits : Nat} (fresh : parameters.deviceIp = none)
    (valid : parseTftpIpv4 value "deviceIp" false = .ok bits) :
    parameters.read crates ("deviceIp", value) = .ok { parameters with deviceIp := some bits } := by
  simp [TftpParameters.read, fresh, valid, Except.map]

theorem read_serverIp {value : String} {bits : Nat} (fresh : parameters.serverIp = none)
    (valid : parseTftpIpv4 value "serverIp" false = .ok bits) :
    parameters.read crates ("serverIp", value) = .ok { parameters with serverIp := some bits } := by
  simp [TftpParameters.read, fresh, valid, Except.map]

theorem read_bindHost {value : String} {bits : Nat} (fresh : parameters.bindHost = none)
    (valid : parseTftpIpv4 value "bindHost" true = .ok bits) :
    parameters.read crates ("bindHost", value) = .ok { parameters with bindHost := some bits } := by
  simp [TftpParameters.read, fresh, valid, Except.map]

theorem read_bindPort {port : UInt16} (fresh : parameters.bindPort = none) :
    parameters.read crates ("bindPort", toString port.toNat) =
      .ok { parameters with bindPort := some port.toNat } := by
  have small : port.toNat < 65536 := port.toNat_lt
  have read : parseUsize (Nat.toDigits 10 port.toNat) = some port.toNat :=
    parseUsize_toDigits (by omega)
  simp [TftpParameters.read, fresh, read, Option.filter, small]

theorem read_timeoutSeconds {seconds : UInt64} (fresh : parameters.timeoutSeconds = none)
    (valid : validateTftpTimeout crates seconds.toNat = .ok ()) :
    parameters.read crates ("timeoutSeconds", toString seconds.toNat) =
      .ok { parameters with timeoutSeconds := some seconds.toNat } := by
  have read : parseUsize (Nat.toDigits 10 seconds.toNat) = some seconds.toNat :=
    parseUsize_toDigits seconds.toNat_lt
  simp [TftpParameters.read, fresh, read, valid, Except.map]

end Parameters

section ReadBack

variable {crates : EndpointCrates} {serialize : PairSerializer} {destination : TftpbootDestination}

theorem validateLoadAddress_ok {value result : String} (valid : validateLoadAddress value = .ok result) :
    result = value := by
  unfold validateLoadAddress at valid
  dsimp only at valid
  split at valid
  · cases valid
  · exact (Except.ok.inj valid).symm

theorem parseTftpIpv4_ok {value name : String} {allowUnspecified : Bool} {bits : Nat}
    (valid : parseTftpIpv4 value name allowUnspecified = .ok bits) :
    parseIpv4 value.toList = some bits ∧
      parseTftpIpv4 (ipv4String bits) name allowUnspecified = .ok bits := by
  unfold parseTftpIpv4 at valid ⊢
  split at valid
  next => cases valid
  next address read =>
    split at valid
    next => cases valid
    next usable =>
      obtain rfl := Except.ok.inj valid
      refine ⟨read, ?_⟩
      rw [ipv4String, String.toList_ofList, parseIpv4_ipv4Text (parseIpv4_lt read)]
      dsimp only
      rw [if_neg usable]

theorem optional_ipv4_ok {field : Option String} {name : String} {allowUnspecified : Bool}
    {found : Option Nat}
    (valid : field.mapM (fun value => parseTftpIpv4 value name allowUnspecified) = .ok found) :
    field.map (fun value => parseIpv4 value.toList) = found.map some ∧
      ∀ bits, found = some bits →
        parseTftpIpv4 (ipv4String bits) name allowUnspecified = .ok bits := by
  rcases optional_mapM_ok valid with ⟨rfl, rfl⟩ | ⟨value, bits, rfl, rfl, usable⟩
  · exact ⟨rfl, nofun⟩
  · obtain ⟨read, back⟩ := parseTftpIpv4_ok usable
    refine ⟨congrArg some read, fun bits' same => ?_⟩
    obtain rfl := Option.some.inj same
    exact back

structure CheckedDestination (crates : EndpointCrates) (destination : TftpbootDestination)
    (deviceIp : Nat) (serverIp bindHost : Option Nat) : Prop where
  device : parseTftpIpv4 destination.deviceIp "deviceIp" false = .ok deviceIp
  address : ∀ value, destination.address = some value → validateLoadAddress value = .ok value
  fileName : ∀ value, destination.fileName = some value → validateTftpFileName value = .ok ()
  server : destination.serverIp.mapM (fun value => parseTftpIpv4 value "serverIp" false) = .ok serverIp
  bind : destination.bindHost.mapM (fun value => parseTftpIpv4 value "bindHost" true) = .ok bindHost
  timeout : ∀ seconds, destination.timeoutSeconds = some seconds →
    validateTftpTimeout crates seconds.toNat = .ok ()

theorem optional_checked {α : Type} {f : α → Except String Unit} {field : Option α}
    {found : Option Unit} (valid : field.mapM f = .ok found) :
    ∀ value, field = some value → f value = .ok () := by
  intro value present
  rcases optional_mapM_ok valid with ⟨missing, -⟩ | ⟨value', _, same, -, passes⟩
  · rw [present] at missing
    cases missing
  · rw [present] at same
    exact Option.some.inj same ▸ passes

theorem structuredTftpPairs_ok {pairs : List (String × String)}
    (accepted : structuredTftpPairs crates destination = .ok pairs) :
    ∃ deviceIp serverIp bindHost, CheckedDestination crates destination deviceIp serverIp bindHost ∧
      pairs = destinationPairs destination deviceIp serverIp bindHost := by
  unfold structuredTftpPairs at accepted
  obtain ⟨deviceIp, device, accepted⟩ := except_bind_eq_ok accepted
  obtain ⟨address, valid, accepted⟩ := except_bind_eq_ok accepted
  obtain ⟨_, fileName, accepted⟩ := except_bind_eq_ok accepted
  obtain ⟨serverIp, server, accepted⟩ := except_bind_eq_ok accepted
  obtain ⟨bindHost, bind, accepted⟩ := except_bind_eq_ok accepted
  obtain ⟨_, timeout, accepted⟩ := except_bind_eq_ok accepted
  have kept : destination.address = address ∧
      ∀ value, destination.address = some value → validateLoadAddress value = .ok value := by
    rcases optional_mapM_ok valid with ⟨missing, rfl⟩ | ⟨value, result, present, rfl, hex⟩
    · exact ⟨missing, fun value present => nomatch missing.symm.trans present⟩
    · obtain rfl := validateLoadAddress_ok hex
      refine ⟨present, fun value same => ?_⟩
      obtain rfl := Option.some.inj (present.symm.trans same)
      exact hex
  refine ⟨deviceIp, serverIp, bindHost, ⟨device, kept.2, optional_checked fileName, server, bind,
    optional_checked timeout⟩, ?_⟩
  rw [← Except.ok.inj accepted, ← kept.1]

/-- The parameters that the pairs of a destination are read as. -/
def destinationParameters (destination : TftpbootDestination) (deviceIp : Nat)
    (serverIp bindHost : Option Nat) : TftpParameters where
  address := destination.address
  fileName := destination.fileName
  deviceIp := some deviceIp
  serverIp := serverIp
  bindHost := bindHost
  bindPort := destination.bindPort.map UInt16.toNat
  timeoutSeconds := destination.timeoutSeconds.map UInt64.toNat

theorem read_destinationPairs {deviceIp : Nat} {serverIp bindHost : Option Nat}
    (checked : CheckedDestination crates destination deviceIp serverIp bindHost) :
    (destinationPairs destination deviceIp serverIp bindHost).foldlM (TftpParameters.read crates) {} =
      .ok (destinationParameters destination deviceIp serverIp bindHost) := by
  have address : (destination.address.map fun value => ("address", value)).toList.foldlM
      (TftpParameters.read crates) {} = .ok { address := destination.address } :=
    foldlM_optional
      (fun value present => present ▸ read_address rfl (checked.address value present))
      fun missing => by rw [missing]
  have fileName : (destination.fileName.map fun value => ("fileName", value)).toList.foldlM
      (TftpParameters.read crates) { address := destination.address } =
      .ok { address := destination.address, fileName := destination.fileName } :=
    foldlM_optional
      (fun value present => present ▸ read_fileName rfl (checked.fileName value present))
      fun missing => by rw [missing]
  have server : (serverIp.map fun value => ("serverIp", ipv4String value)).toList.foldlM
      (TftpParameters.read crates)
      { address := destination.address, fileName := destination.fileName,
        deviceIp := some deviceIp } =
      .ok { address := destination.address, fileName := destination.fileName,
            deviceIp := some deviceIp, serverIp } :=
    foldlM_optional
      (fun value present => present ▸
        read_serverIp rfl ((optional_ipv4_ok checked.server).2 value present))
      fun missing => by rw [missing]
  have bind : (bindHost.map fun value => ("bindHost", ipv4String value)).toList.foldlM
      (TftpParameters.read crates)
      { address := destination.address, fileName := destination.fileName,
        deviceIp := some deviceIp, serverIp } =
      .ok { address := destination.address, fileName := destination.fileName,
            deviceIp := some deviceIp, serverIp, bindHost } :=
    foldlM_optional
      (fun value present => present ▸
        read_bindHost rfl ((optional_ipv4_ok checked.bind).2 value present))
      fun missing => by rw [missing]
  have port : (destination.bindPort.map fun value =>
      ("bindPort", toString value.toNat)).toList.foldlM (TftpParameters.read crates)
      { address := destination.address, fileName := destination.fileName,
        deviceIp := some deviceIp, serverIp, bindHost } =
      .ok { address := destination.address, fileName := destination.fileName,
            deviceIp := some deviceIp, serverIp, bindHost,
            bindPort := destination.bindPort.map UInt16.toNat } :=
    foldlM_optional (fun value present => present ▸ read_bindPort rfl)
      fun missing => by rw [missing]; rfl
  have timeout : (destination.timeoutSeconds.map fun value =>
      ("timeoutSeconds", toString value.toNat)).toList.foldlM (TftpParameters.read crates)
      { address := destination.address, fileName := destination.fileName,
        deviceIp := some deviceIp, serverIp, bindHost,
        bindPort := destination.bindPort.map UInt16.toNat } =
      .ok (destinationParameters destination deviceIp serverIp bindHost) :=
    foldlM_optional
      (fun value present => by
        rw [read_timeoutSeconds rfl (checked.timeout value present), destinationParameters, present]
        rfl)
      fun missing => by rw [destinationParameters, missing]; rfl
  have device : [("deviceIp", ipv4String deviceIp)].foldlM (TftpParameters.read crates)
      { address := destination.address, fileName := destination.fileName } =
      .ok { address := destination.address, fileName := destination.fileName,
            deviceIp := some deviceIp } :=
    (bind_pure _).trans (read_deviceIp rfl (parseTftpIpv4_ok checked.device).2)
  rw [destinationPairs]
  refine foldlM_joined address (foldlM_joined fileName (foldlM_joined device ?_))
  exact foldlM_joined server (foldlM_joined bind (foldlM_joined port timeout))

theorem tftpbootEndpoint_receiver (pairs : List (String × String)) :
    hasLoadReceiverPrefix (tftpbootEndpoint serialize pairs) = true ∧
      "load://".isPrefixOf (tftpbootEndpoint serialize pairs) = false := by
  have text : (tftpbootEndpoint serialize pairs).toList =
      "load:tftpboot?".toList ++ (serialize pairs).toList := String.toList_append
  refine ⟨isPrefixOf_iff.mpr ?_, eq_false_iff.mpr fun host => ?_⟩
  · rw [text]
    exact ⟨"tftpboot?".toList ++ (serialize pairs).toList, rfl⟩
  · obtain ⟨rest, same⟩ := isPrefixOf_iff.mp host
    rw [text] at same
    have sixth := congrArg (·[5]?) same
    exact absurd sixth (by simp)

/-- The receiver that was read has the values of the destination. -/
structure TftpbootDestination.ReadAs (destination : TftpbootDestination) (spec : TftpReceiverSpec) :
    Prop where
  address : spec.address = destination.address
  fileName : spec.fileName = destination.fileName
  deviceIp : parseIpv4 destination.deviceIp.toList = some spec.deviceIp
  serverIp : destination.serverIp.map (fun value => parseIpv4 value.toList) = spec.serverIp.map some
  bindHost : destination.bindHost.map (fun value => parseIpv4 value.toList) = spec.bindHost.map some
  bindPort : spec.bindPort = (destination.bindPort.map UInt16.toNat).getD defaultTftpPort
  timeout : spec.timeout =
    (destination.timeoutSeconds.map UInt64.toNat).getD defaultTftpTimeoutSeconds

/-- The `url` crate reads the pairs that its serializer has written. -/
def EndpointCrates.ReadsPairs (crates : EndpointCrates) (serialize : PairSerializer)
    (pairs : List (String × String)) : Prop :=
  crates.parseUrl (tftpbootEndpoint serialize pairs) = .ok ⟨"load", "tftpboot", none, pairs⟩

theorem parseTftpReceiverEndpoint_pairs {pairs : List (String × String)}
    {parameters : TftpParameters} {deviceIp : Nat} (crate : crates.ReadsPairs serialize pairs)
    (read : pairs.foldlM (TftpParameters.read crates) {} = .ok parameters)
    (device : parameters.deviceIp = some deviceIp) :
    parseTftpReceiverEndpoint crates (tftpbootEndpoint serialize pairs) =
      .ok (some
        { address := parameters.address
          fileName := parameters.fileName
          deviceIp
          serverIp := parameters.serverIp
          bindHost := parameters.bindHost
          bindPort := parameters.bindPort.getD defaultTftpPort
          timeout := parameters.timeoutSeconds.getD defaultTftpTimeoutSeconds }) := by
  obtain ⟨load, host⟩ := @tftpbootEndpoint_receiver serialize pairs
  rw [EndpointCrates.ReadsPairs] at crate
  simp [parseTftpReceiverEndpoint, load, host, crate, read, device]

theorem normalize_read_back {protocol : TransferProtocol} {endpoint : String}
    (accepted : destination.normalize crates serialize protocol = .ok endpoint)
    (crate : ∀ pairs, structuredTftpPairs crates destination = .ok pairs →
      crates.ReadsPairs serialize pairs) :
    ∃ spec, parseTftpReceiverEndpoint crates endpoint = .ok (some spec) ∧
      destination.ReadAs spec := by
  unfold TftpbootDestination.normalize encodeStructuredTftpDestination at accepted
  split at accepted
  · cases accepted
  cases checked : structuredTftpPairs crates destination with
  | error error =>
    rw [checked] at accepted
    cases accepted
  | ok pairs =>
    rw [checked] at accepted
    obtain rfl := Except.ok.inj accepted
    have reads := crate pairs checked
    obtain ⟨deviceIp, serverIp, bindHost, fields, rfl⟩ := structuredTftpPairs_ok checked
    exact ⟨_, parseTftpReceiverEndpoint_pairs reads (read_destinationPairs fields) rfl, rfl, rfl,
      (parseTftpIpv4_ok fields.device).1, (optional_ipv4_ok fields.server).1,
      (optional_ipv4_ok fields.bind).1, rfl, rfl⟩

end ReadBack

end PortMate
