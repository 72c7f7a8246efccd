import PortMate.IpAddresses
import PortMate.TransferStates

namespace PortMate

open Option

def defaultTftpPort : Nat := 69
def defaultTftpTimeoutSeconds : Nat := 60

theorem isPrefixOf_iff {start value : String} :
    start.isPrefixOf value = true ↔ start.toList <+: value.toList := by
  simp [String.isPrefixOf]

/-- `str::strip_prefix`. -/
def stripPrefix? (start value : String) : Option String :=
  if start.isPrefixOf value then some (String.ofList (value.toList.drop start.length)) else none

def hasRemoteTransferPrefix (value : String) : Bool :=
  "remote:".isPrefixOf value || "ssh:".isPrefixOf value

def hasLoadReceiverPrefix (value : String) : Bool := "load:".isPrefixOf value

def remotePath (value : String) : Option String :=
  (stripPrefix? "remote:" value).or (stripPrefix? "ssh:" value)

theorem isNonlocalTransferEndpoint_eq (value : String) :
    isNonlocalTransferEndpoint value = (hasRemoteTransferPrefix value || hasLoadReceiverPrefix value) :=
  rfl

theorem remotePath_isSome (value : String) :
    (remotePath value).isSome = hasRemoteTransferPrefix value := by
  unfold remotePath hasRemoteTransferPrefix stripPrefix?
  cases "remote:".isPrefixOf value <;> cases "ssh:".isPrefixOf value <;> rfl

theorem remotePath_eq_none_iff {value : String} :
    remotePath value = none ↔ hasRemoteTransferPrefix value = false := by
  rw [← remotePath_isSome, isSome_eq_false_iff, isNone_iff_eq_none]

/-- What `url::Url` says of a text. -/
structure ParsedUrl where
  scheme : String
  path : String
  fragment : Option String
  queryPairs : List (String × String)

/-- The `url` crate, and whether the clock can hold the time that many seconds from now. -/
structure EndpointCrates where
  parseUrl : String → Except String ParsedUrl
  instantHolds : Nat → Bool

def transferProtocolLabel : TransferProtocol → String
  | .sftp => "SFTP"
  | .scp => "SCP"
  | .tftp => "TFTP"
  | .xmodem => "XModem"
  | .ymodem => "YModem"
  | .zmodem => "ZModem"

def validateLoadAddress (value : String) : Except String String :=
  let digits := ((stripPrefix? "0x" value).or (stripPrefix? "0X" value)).getD value
  if digits.isEmpty || 16 < byteLength digits ||
      !digits.toList.all fun digit => (hexDigit? digit).isSome then
    .error "load: 加载地址必须是最多 16 位的十六进制数，可带 0x 前缀"
  else .ok value

/-- `is_multicast` and the two addresses that are no unicast address. -/
def parseTftpIpv4 (value name : String) (allowUnspecified : Bool) : Except String Nat :=
  match parseIpv4 value.toList with
  | none => .error s!"load: TFTP {name} 必须是 IPv4 地址"
  | some address =>
    if address / 2 ^ 28 = 14 || address = 2 ^ 32 - 1 || (!allowUnspecified && address = 0) then
      .error s!"load: TFTP {name} 不是可用的单播 IPv4 地址"
    else .ok address

def validateTftpTimeout (crates : EndpointCrates) (seconds : Nat) : Except String Unit :=
  if seconds < 5 then .error "load: TFTP timeoutSeconds 必须至少为 5"
  else if !crates.instantHolds seconds then
    .error "load: TFTP timeoutSeconds 超出当前平台可表示的时间范围"
  else .ok ()

def tftpFileNameChar (c : Char) : Bool :=
  c.isAlphanum || c = '.' || c = '_' || c = '-' || c = '+' || c = '/'

def validateTftpFileName (fileName : String) : Except String Unit :=
  if fileName.isEmpty || 255 < byteLength fileName || fileName.toList.head? = some '/' ||
      ((fileName.toList.splitOn '/').any fun component =>
        component.isEmpty || component = ['.'] || component = ['.', '.']) ||
      !fileName.toList.all tftpFileNameChar then
    .error "TFTP fileName 仅支持安全的相对 ASCII 路径（字母、数字、/、点、下划线、加号或连字符），且不能包含空、. 或 .. 分量"
  else .ok ()

structure LoadReceiverSpec where
  command : String
  address : Option String
  baudRate : Option Nat
  deriving DecidableEq

/-- The parameters of a receiver as they are met. -/
structure LoadParameters where
  address : Option String := none
  baudRate : Option Nat := none

/-- `parse::<u32>()`. -/
def parseU32 (text : String) : Option Nat := (parseUsize text.toList).filter (· < 2 ^ 32)

def LoadParameters.read (parameters : LoadParameters) (pair : String × String) :
    Except String LoadParameters :=
  if pair.1 = "address" ∧ parameters.address.isNone then
    (validateLoadAddress pair.2).map fun address => { parameters with address := some address }
  else if pair.1 = "baud" ∧ parameters.baudRate.isNone then
    match parseU32 pair.2 with
    | none => .error "load: 波特率必须是有效的正整数"
    | some 0 => .error "load: 波特率必须大于 0"
    | some baudRate => .ok { parameters with baudRate := some baudRate }
  else if pair.1 = "address" ∨ pair.1 = "baud" then .error s!"load: 参数 `{pair.1}` 不能重复"
  else .error s!"load: 不支持参数 `{pair.1}`"

/-- The command of the device for a modem protocol. -/
def loadCommand : TransferProtocol → Option String
  | .xmodem => some "loadx"
  | .ymodem => some "loady"
  | .zmodem => some "loadz"
  | .sftp | .scp | .tftp => none

def parseLoadReceiverEndpoint (crates : EndpointCrates) (value : String)
    (protocol : TransferProtocol) : Except String (Option LoadReceiverSpec) :=
  if !hasLoadReceiverPrefix value then .ok none
  else if "load://".isPrefixOf value then .error "load: 设备接收端点不能包含主机部分"
  else
    match crates.parseUrl value with
    | .error error => .error s!"load: 设备接收端点无效: {error}"
    | .ok parsed =>
      if parsed.scheme ≠ "load" || parsed.fragment.isSome then
        .error "load: 设备接收端点格式无效"
      else
        match loadCommand protocol with
        | none => .error "load: 设备接收端点仅支持 X/Y/ZModem"
        | some command =>
          if parsed.path ≠ command then
            .error s!"{transferProtocolLabel protocol} 传输必须使用 load:{command} 设备接收端点"
          else
            match parsed.queryPairs.foldlM LoadParameters.read {} with
            | .error error => .error error
            | .ok parameters =>
              if parameters.baudRate.isSome && parameters.address.isNone then
                .error "load: 指定波特率时必须同时指定加载地址"
              else .ok (some ⟨command, parameters.address, parameters.baudRate⟩)

structure TftpReceiverSpec where
  address : Option String
  fileName : Option String
  deviceIp : Nat
  serverIp : Option Nat
  bindHost : Option Nat
  bindPort : Nat
  timeout : Nat
  deriving DecidableEq

/-- The parameters of a TFTP receiver as they are met. -/
structure TftpParameters where
  address : Option String := none
  fileName : Option String := none
  deviceIp : Option Nat := none
  serverIp : Option Nat := none
  bindHost : Option Nat := none
  bindPort : Option Nat := none
  timeoutSeconds : Option Nat := none

def tftpOptionFields : List String :=
  ["address", "deviceIp", "serverIp", "bindHost", "bindPort", "timeoutSeconds"]

def TftpParameters.read (crates : EndpointCrates) (parameters : TftpParameters)
    (pair : String × String) : Except String TftpParameters :=
  if pair.1 = "address" ∧ parameters.address.isNone then
    (validateLoadAddress pair.2).map fun address => { parameters with address := some address }
  else if pair.1 = "fileName" ∧ parameters.fileName.isNone then
    (validateTftpFileName pair.2).map fun _ => { parameters with fileName := some pair.2 }
  else if pair.1 = "deviceIp" ∧ parameters.deviceIp.isNone then
    (parseTftpIpv4 pair.2 "deviceIp" false).map fun address =>
      { parameters with deviceIp := some address }
  else if pair.1 = "serverIp" ∧ parameters.serverIp.isNone then
    (parseTftpIpv4 pair.2 "serverIp" false).map fun address =>
      { parameters with serverIp := some address }
  else if pair.1 = "bindHost" ∧ parameters.bindHost.isNone then
    (parseTftpIpv4 pair.2 "bindHost" true).map fun address =>
      { parameters with bindHost := some address }
  else if pair.1 = "bindPort" ∧ parameters.bindPort.isNone then
    match (parseUsize pair.2.toList).filter (· < 2 ^ 16) with
    | none => .error "load: TFTP bindPort 必须是 0 到 65535 的整数"
    | some port => .ok { parameters with bindPort := some port }
  else if pair.1 = "timeoutSeconds" ∧ parameters.timeoutSeconds.isNone then
    match parseUsize pair.2.toList with
    | none => .error "load: TFTP timeoutSeconds 必须是有效的正整数"
    | some seconds =>
      (validateTftpTimeout crates seconds).map fun _ =>
        { parameters with timeoutSeconds := some seconds }
  else if pair.1 = "fileName" ∨ pair.1 ∈ tftpOptionFields then
    .error s!"load: TFTP 参数 `{pair.1}` 不能重复"
  else .error s!"load: TFTP 不支持参数 `{pair.1}`"

def parseTftpReceiverEndpoint (crates : EndpointCrates) (value : String) :
    Except String (Option TftpReceiverSpec) :=
  if !hasLoadReceiverPrefix value then .ok none
  else if "load://".isPrefixOf value then .error "load: TFTP 接收端点不能包含主机部分"
  else
    match crates.parseUrl value with
    | .error error => .error s!"load: TFTP 接收端点无效: {error}"
    | .ok parsed =>
      if parsed.scheme ≠ "load" || parsed.path ≠ "tftpboot" || parsed.fragment.isSome then
        .error "TFTP 传输必须使用 load:tftpboot 接收端点"
      else
        match parsed.queryPairs.foldlM (TftpParameters.read crates) {} with
        | .error error => .error error
        | .ok parameters =>
          match parameters.deviceIp with
          | none => .error "load: TFTP 必须指定 deviceIp"
          | some deviceIp =>
            .ok (some
              { address := parameters.address
                fileName := parameters.fileName
                deviceIp
                serverIp := parameters.serverIp
                bindHost := parameters.bindHost
                bindPort := parameters.bindPort.getD defaultTftpPort
                timeout := parameters.timeoutSeconds.getD defaultTftpTimeoutSeconds })

def validateLoadReceiverEndpoint (crates : EndpointCrates) (value : String)
    (protocol : TransferProtocol) : Except String Bool :=
  if !hasLoadReceiverPrefix value then .ok false
  else if protocol = .tftp then (parseTftpReceiverEndpoint crates value).map isSome
  else (parseLoadReceiverEndpoint crates value protocol).map isSome

section Receivers

variable {crates : EndpointCrates} {value : String} {protocol : TransferProtocol}

theorem parseLoadReceiverEndpoint_ok {found : Option LoadReceiverSpec}
    (parsed : parseLoadReceiverEndpoint crates value protocol = .ok found) :
    found.isSome = hasLoadReceiverPrefix value ∧
      (hasLoadReceiverPrefix value = true → (loadCommand protocol).isSome) := by
  unfold parseLoadReceiverEndpoint at parsed
  cases present : hasLoadReceiverPrefix value with
  | false =>
    simp only [present, Bool.not_false, if_true] at parsed
    cases parsed
    exact ⟨rfl, fun load => absurd load Bool.false_ne_true⟩
  | true =>
    simp only [present, Bool.not_true, Bool.false_eq_true, if_false] at parsed
    repeat' split at parsed
    all_goals cases parsed
    next known _ _ _ _ _ => exact ⟨rfl, fun _ => by rw [known]; rfl⟩

theorem parseTftpReceiverEndpoint_ok {found : Option TftpReceiverSpec}
    (parsed : parseTftpReceiverEndpoint crates value = .ok found) :
    found.isSome = hasLoadReceiverPrefix value := by
  unfold parseTftpReceiverEndpoint at parsed
  cases present : hasLoadReceiverPrefix value with
  | false =>
    simp only [present, Bool.not_false, if_true] at parsed
    cases parsed
    rfl
  | true =>
    simp only [present, Bool.not_true, Bool.false_eq_true, if_false] at parsed
    repeat' split at parsed
    all_goals cases parsed
    rfl

theorem validateLoadReceiverEndpoint_ok {receiver : Bool}
    (validated : validateLoadReceiverEndpoint crates value protocol = .ok receiver) :
    receiver = hasLoadReceiverPrefix value ∧
      (hasLoadReceiverPrefix value = true → protocol ≠ .sftp ∧ protocol ≠ .scp) := by
  unfold validateLoadReceiverEndpoint at validated
  split at validated
  next absent =>
    cases validated
    rw [Bool.not_eq_true'] at absent
    exact ⟨absent.symm, fun present => absurd (absent.symm.trans present) Bool.false_ne_true⟩
  next present =>
    split at validated
    next tftp =>
      subst tftp
      cases parsed : parseTftpReceiverEndpoint crates value with
      | error error => rw [parsed] at validated; cases validated
      | ok found =>
        rw [parsed] at validated
        cases validated
        exact ⟨parseTftpReceiverEndpoint_ok parsed, fun _ => ⟨by decide, by decide⟩⟩
    next =>
      cases parsed : parseLoadReceiverEndpoint crates value protocol with
      | error error => rw [parsed] at validated; cases validated
      | ok found =>
        rw [parsed] at validated
        cases validated
        obtain ⟨same, command⟩ := parseLoadReceiverEndpoint_ok parsed
        refine ⟨same, fun load => ⟨?_, ?_⟩⟩
        · rintro rfl
          exact absurd (command load) Bool.false_ne_true
        · rintro rfl
          exact absurd (command load) Bool.false_ne_true

end Receivers

end PortMate
