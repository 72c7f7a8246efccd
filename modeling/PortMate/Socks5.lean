import PortMate.IpAddresses
import PortMate.LogBytesRefs
import PortMate.StreamPrograms
import PortMate.Utf8Reading

namespace PortMate

open List StreamProgram

inductive ProxyKind
  | httpConnect | socks5
  deriving DecidableEq

structure ProxyCredentials where
  username : String
  password : String

def maxHttpProxyCredentialBytes : Nat := 8 * 1024

def validateProxyCredentials (kind : ProxyKind) (username password : String) : Except String Unit :=
  if username.isEmpty then .error "代理用户名不能为空"
  else if password.isEmpty then .error "代理密码不能为空"
  else
    match kind with
    | .httpConnect =>
      if (utf8Bytes username).any fun byte => byte == 58 || byte == 13 || byte == 10 then
        .error "HTTP CONNECT 代理用户名不能包含冒号或换行符"
      else if maxHttpProxyCredentialBytes < byteLength username + byteLength password then
        .error s!"HTTP CONNECT 代理凭据不能超过 {maxHttpProxyCredentialBytes} bytes"
      else .ok ()
    | .socks5 =>
      if 255 < byteLength username then .error "SOCKS5 代理用户名长度必须为 1-255 bytes"
      else if 255 < byteLength password then .error "SOCKS5 代理密码长度必须为 1-255 bytes"
      else .ok ()

def socks5ReplyLabel (reply : UInt8) : String :=
  if reply = 0x01 then "general failure"
  else if reply = 0x02 then "connection not allowed"
  else if reply = 0x03 then "network unreachable"
  else if reply = 0x04 then "host unreachable"
  else if reply = 0x05 then "connection refused"
  else if reply = 0x06 then "TTL expired"
  else if reply = 0x07 then "command not supported"
  else if reply = 0x08 then "address type not supported"
  else "unknown failure"

def hexByteText (byte : UInt8) : String := "0x" ++ String.ofList (lowerHexByte byte)

/-- `index` into an array that has been read. -/
def byteAt (bytes : List UInt8) (index : Nat) : UInt8 := bytes.getD index 0

def offerCredentials (credentials : ProxyCredentials) (label : String) : StreamProgram Unit := do
  let username := utf8Bytes credentials.username
  let password := utf8Bytes credentials.password
  writeAll ([0x01, UInt8.ofNat username.length] ++ username ++ [UInt8.ofNat password.length] ++
    password)
  let response ← readExact 2 s!"{label} SOCKS5 认证响应失败: "
  if byteAt response 0 ≠ 0x01 then fail s!"{label} SOCKS5 认证返回未知版本: {byteAt response 0}"
  else if byteAt response 1 ≠ 0x00 then fail s!"{label} SOCKS5 用户名/密码认证失败"
  else pure ()

/-- How long the address in the proxy's answer is. -/
def boundAddressLen (addressType : UInt8) (label : String) : StreamProgram Nat :=
  if addressType = 0x01 then pure 4
  else if addressType = 0x03 then do
    let len ← readExact 1 s!"{label} SOCKS5 响应域名长度读取失败: "
    if byteAt len 0 = 0 then fail s!"{label} SOCKS5 CONNECT 返回空绑定域名"
    else pure (byteAt len 0).toNat
  else if addressType = 0x04 then pure 16
  else fail s!"{label} SOCKS5 CONNECT 返回未知地址类型: {hexByteText addressType}"

def readConnectAnswer (label : String) : StreamProgram Unit := do
  let header ← readExact 4 s!"{label} SOCKS5 CONNECT 响应失败: "
  if byteAt header 0 ≠ 0x05 then
    fail s!"{label} SOCKS5 CONNECT 返回未知版本: {byteAt header 0}"
  else if byteAt header 2 ≠ 0x00 then
    fail s!"{label} SOCKS5 CONNECT 返回无效保留字段: {hexByteText (byteAt header 2)}"
  else if byteAt header 1 ≠ 0x00 then
    let reply := byteAt header 1
    fail s!"{label} SOCKS5 CONNECT 被拒绝: {socks5ReplyLabel reply} ({hexByteText reply})"
  else
    let addressLen ← boundAddressLen (byteAt header 3) label
    let _ ← readExact (addressLen + 2) s!"{label} SOCKS5 CONNECT 地址读取失败: "
    pure ()

def requestConnect (targetHost : String) (targetPort : UInt16) (label : String) :
    StreamProgram Unit := do
  let host := utf8Bytes targetHost
  if host.isEmpty || 255 < host.length then
    fail s!"{label} SOCKS5 目标主机长度必须为 1-255 bytes"
  else
    writeAll ([0x05, 0x01, 0x00, 0x03, UInt8.ofNat host.length] ++ host ++ u16ToBeBytes targetPort)
    readConnectAnswer label

def performSocks5Connect (targetHost : String) (targetPort : UInt16)
    (credentials : Option ProxyCredentials) (label : String) : StreamProgram Unit :=
  let valid := credentials.elim (.ok ()) fun credentials =>
    validateProxyCredentials .socks5 credentials.username credentials.password
  match valid with
  | .error error => fail error
  | .ok () => do
    let authMethod := if credentials.isSome then 0x02 else 0x00
    writeAll [0x05, 0x01, authMethod]
    let greeting ← readExact 2 s!"{label} SOCKS5 协商响应失败: "
    if byteAt greeting 0 ≠ 0x05 then
      fail s!"{label} SOCKS5 代理返回未知版本: {byteAt greeting 0}"
    else if byteAt greeting 1 = 0xff then fail s!"{label} SOCKS5 代理没有可接受的认证方式"
    else if byteAt greeting 1 ≠ authMethod then
      fail s!"{label} SOCKS5 代理选择了未提供的认证方式: {hexByteText (byteAt greeting 1)}"
    else
      credentials.elim (pure ()) fun credentials => offerCredentials credentials label
      requestConnect targetHost targetPort label

def socks5Reply (code : UInt8) : List UInt8 := [5, code, 0, 1, 0, 0, 0, 0, 0, 0]

def addressBits (bytes : List UInt8) : Nat :=
  bytes.foldl (fun bits byte => bits * 256 + byte.toNat) 0

def readSocks5Domain : StreamProgram (List Char) := do
  let len ← readExact 1 "SOCKS5 domain length read failed: "
  if byteAt len 0 = 0 then
    writeAll (socks5Reply 8)
    fail "SOCKS5 domain name cannot be empty"
  else
    let name ← readExact (byteAt len 0).toNat "SOCKS5 domain read failed: "
    match fromUtf8 name with
    | some name =>
      if name.any fun character => isRustControl character || isRustWhitespace character then
        writeAll (socks5Reply 8)
        fail "SOCKS5 domain name cannot contain control or whitespace characters"
      else pure name
    | none =>
      writeAll (socks5Reply 8)
      fail "SOCKS5 domain name is not valid UTF-8"

/-- The address of a request, of the type that its header names. -/
def readSocks5Host (addressType : UInt8) : StreamProgram (List Char) :=
  if addressType = 1 then do
    let addr ← readExact 4 "SOCKS5 IPv4 read failed: "
    pure (ipv4Text (addressBits addr))
  else if addressType = 3 then readSocks5Domain
  else if addressType = 4 then do
    let addr ← readExact 16 "SOCKS5 IPv6 read failed: "
    pure (ipv6Text (addressBits addr))
  else do
    writeAll (socks5Reply 8)
    fail s!"unsupported SOCKS5 address type: {addressType}"

def readSocks5ConnectRequest : StreamProgram (List Char × UInt16) := do
  let header ← readExact 2 "SOCKS5 handshake read failed: "
  if byteAt header 0 ≠ 5 then
    writeAll [5, 0xff]
    fail "only SOCKS5 is supported for dynamic tunnel"
  else
    let methods ← readExact (byteAt header 1).toNat "SOCKS5 methods read failed: "
    if !methods.contains 0 then
      writeAll [5, 0xff]
      fail "SOCKS5 client did not offer no-authentication method"
    else
      writeAll [5, 0]
      let request ← readExact 4 "SOCKS5 request read failed: "
      if byteAt request 0 ≠ 5 ∨ byteAt request 2 ≠ 0 then
        writeAll (socks5Reply 1)
        fail "invalid SOCKS5 CONNECT request header"
      else if byteAt request 1 ≠ 1 then
        writeAll (socks5Reply 7)
        fail "only SOCKS5 CONNECT is supported"
      else
        let targetHost ← readSocks5Host (byteAt request 3)
        let portBytes ← readExact 2 "SOCKS5 port read failed: "
        let targetPort := u16FromBeBytes (byteAt portBytes 0) (byteAt portBytes 1)
        if targetPort = 0 then
          writeAll (socks5Reply 1)
          fail "SOCKS5 target port cannot be zero"
        else pure (targetHost, targetPort)

/-- What the client writes for a host of a length that it accepts. -/
def connectBytes (host : String) (port : UInt16) : List UInt8 :=
  [0x05, 0x01, 0x00] ++ ([0x05, 0x01, 0x00, 0x03, UInt8.ofNat (byteLength host)] ++
    utf8Bytes host ++ u16ToBeBytes port)

theorem boundAddressLen_silent (addressType : UInt8) (label : String) :
    (boundAddressLen addressType label).WritesNothing := by
  unfold boundAddressLen
  split
  · trivial
  · split
    · refine writesNothing_bind (readExact_silent _ _) fun len => ?_
      split <;> trivial
    · split <;> trivial

theorem readConnectAnswer_silent (label : String) : (readConnectAnswer label).WritesNothing := by
  refine writesNothing_bind (readExact_silent _ _) fun header => ?_
  split
  · trivial
  · split
    · trivial
    · split
      · trivial
      · refine writesNothing_bind (boundAddressLen_silent _ _) fun addressLen => ?_
        exact writesNothing_bind (readExact_silent _ _) fun _ => trivial

theorem performSocks5Connect_written {host : String} (port : UInt16) (label : String)
    (accepted : 1 ≤ byteLength host ∧ byteLength host ≤ 255)
    {incoming : List (List UInt8)} {reply : List UInt8} (answered : incoming.flatten = 5 :: 0 :: reply) :
    ((performSocks5Connect host port none label).runOn incoming).written = connectBytes host port := by
  have filled : ((utf8Bytes host).isEmpty || decide (255 < (utf8Bytes host).length)) = false := by
    unfold byteLength at accepted
    rw [Bool.or_eq_false_iff, isEmpty_eq_false_iff, decide_eq_false_iff_not]
    exact ⟨ne_nil_of_length_pos accepted.1, by omega⟩
  obtain ⟨rest, read, -⟩ := readExactly_eq (show _ = [5, 0] ++ reply from answered)
    (show _ = 2 from rfl)
  have shape : performSocks5Connect host port none label =
      .write [0x05, 0x01, 0x00] (.read 2 s!"{label} SOCKS5 协商响应失败: " fun greeting =>
        if byteAt greeting 0 ≠ 0x05 then
          fail s!"{label} SOCKS5 代理返回未知版本: {byteAt greeting 0}"
        else if byteAt greeting 1 = 0xff then fail s!"{label} SOCKS5 代理没有可接受的认证方式"
        else if byteAt greeting 1 ≠ 0 then
          fail s!"{label} SOCKS5 代理选择了未提供的认证方式: {hexByteText (byteAt greeting 1)}"
        else requestConnect host port label) := rfl
  rw [shape, written_write, runOn_read read, if_neg (by decide), if_neg (by decide), if_neg (by decide), requestConnect, filled, if_neg Bool.false_ne_true, writeAll_bind, written_write,
    written_of_writesNothing (readConnectAnswer_silent label), append_nil, connectBytes,
    byteLength]

def PlainHost (host : String) : Prop :=
  ∀ c ∈ host.toList, isRustControl c = false ∧ isRustWhitespace c = false

theorem plainHost_iff (host : String) : PlainHost host ↔
    (host.toList.any fun c => isRustControl c || isRustWhitespace c) = false := by
  simp [PlainHost, any_eq_false]

theorem lengthByte {host : String} (accepted : 1 ≤ byteLength host ∧ byteLength host ≤ 255) :
    (UInt8.ofNat (byteLength host)).toNat = byteLength host ∧ UInt8.ofNat (byteLength host) ≠ 0 := by
  have small : (UInt8.ofNat (byteLength host)).toNat = byteLength host := uint8_toNat (by omega)
  refine ⟨small, fun zero => ?_⟩
  rw [zero] at small
  change 0 = _ at small
  omega

theorem readSocks5Domain_yields {host : String}
    (accepted : 1 ≤ byteLength host ∧ byteLength host ≤ 255) (more : List UInt8) :
    (PlainHost host → readSocks5Domain.Yields
      ([UInt8.ofNat (byteLength host)] ++ (utf8Bytes host ++ more)) (.ok host.toList) [] more) ∧
    (¬PlainHost host → readSocks5Domain.Yields
      ([UInt8.ofNat (byteLength host)] ++ (utf8Bytes host ++ more))
      (.error "SOCKS5 domain name cannot contain control or whitespace characters")
      (socks5Reply 8) more) := by
  obtain ⟨small, nonzero⟩ := lengthByte accepted
  have name : byteAt [UInt8.ofNat (byteLength host)] 0 = UInt8.ofNat (byteLength host) := rfl
  rw [plainHost_iff]
  constructor
  · intro plain
    unfold readSocks5Domain
    refine Yields.readExact ?_ rfl
    rw [name, if_neg nonzero]
    refine Yields.readExact ?_ small.symm
    rw [fromUtf8_utf8Bytes]
    dsimp only
    rw [plain, if_neg Bool.false_ne_true]
    exact yields_done _ _
  · intro other
    unfold readSocks5Domain
    refine Yields.readExact ?_ rfl
    rw [name, if_neg nonzero]
    refine Yields.readExact ?_ small.symm
    rw [fromUtf8_utf8Bytes]
    dsimp only
    rw [Bool.not_eq_false] at other
    rw [other, if_pos rfl]
    exact (yields_fail _ _).writeAll (socks5Reply 8)

theorem connectBytes_append (host : String) (port : UInt16) (more : List UInt8) :
    connectBytes host port ++ more = [5, 1] ++ ([0] ++ ([5, 1, 0, 3] ++
      ([UInt8.ofNat (byteLength host)] ++ (utf8Bytes host ++ (u16ToBeBytes port ++ more))))) := by
  simp [connectBytes]

theorem readSocks5ConnectRequest_yields {host : String} {port : UInt16}
    (accepted : 1 ≤ byteLength host ∧ byteLength host ≤ 255) (nonzero : port ≠ 0)
    (more : List UInt8) :
    (PlainHost host → readSocks5ConnectRequest.Yields (connectBytes host port ++ more)
      (.ok (host.toList, port)) [5, 0] more) ∧
    (¬PlainHost host → readSocks5ConnectRequest.Yields (connectBytes host port ++ more)
      (.error "SOCKS5 domain name cannot contain control or whitespace characters")
      ([5, 0] ++ socks5Reply 8) (u16ToBeBytes port ++ more)) := by
  obtain ⟨taken, refused⟩ := readSocks5Domain_yields accepted (u16ToBeBytes port ++ more)
  rw [connectBytes_append]
  constructor
  · intro plain
    unfold readSocks5ConnectRequest
    refine Yields.readExact ?_ rfl
    rw [if_neg (by decide)]
    refine Yields.readExact ?_ rfl
    rw [if_neg (by decide)]
    refine Yields.writeAll ?_ [5, 0]
    refine Yields.readExact ?_ rfl
    rw [if_neg (by decide), if_neg (by decide)]
    refine (taken plain).bind ?_
    refine Yields.readExact ?_ rfl
    have back : u16FromBeBytes (byteAt (u16ToBeBytes port) 0) (byteAt (u16ToBeBytes port) 1) = port :=
      u16FromBeBytes_toBeBytes port
    rw [back]
    dsimp only
    rw [if_neg nonzero]
    exact yields_done _ _
  · intro other
    unfold readSocks5ConnectRequest
    refine Yields.readExact ?_ rfl
    rw [if_neg (by decide)]
    refine Yields.readExact ?_ rfl
    rw [if_neg (by decide)]
    refine Yields.writeAll ?_ [5, 0]
    refine Yields.readExact ?_ rfl
    rw [if_neg (by decide), if_neg (by decide)]
    exact (refused other).bind_error _

/-- What the client has written, once the server has taken its greeting, the server reads as a
request for the same host and port; a host with control or white-space characters it refuses. -/
theorem socks5_connect_read {host : String} {port : UInt16}
    (accepted : 1 ≤ byteLength host ∧ byteLength host ≤ 255) (nonzero : port ≠ 0) (label : String)
    {incoming : List (List UInt8)} {reply : List UInt8} (answered : incoming.flatten = 5 :: 0 :: reply)
    (more : List UInt8) :
    let written := ((performSocks5Connect host port none label).runOn incoming).written
    (PlainHost host → readSocks5ConnectRequest.Yields (written ++ more)
      (.ok (host.toList, port)) [5, 0] more) ∧
    (¬PlainHost host → readSocks5ConnectRequest.Yields (written ++ more)
      (.error "SOCKS5 domain name cannot contain control or whitespace characters")
      ([5, 0] ++ socks5Reply 8) (u16ToBeBytes port ++ more)) := by
  intro written
  have same : written = connectBytes host port :=
    performSocks5Connect_written port label accepted answered
  rw [same]
  exact readSocks5ConnectRequest_yields accepted nonzero more

theorem socks5_connect_target_example :
    readSocks5ConnectRequest.Yields
      (((performSocks5Connect "target.example" 443 none "TCP").runOn [[5], [0]]).written ++ [1, 2])
      (.ok ("target.example".toList, 443)) [5, 0] [1, 2] :=
  (socks5_connect_read (by decide) (by decide) "TCP" (show [[5], [0]].flatten = 5 :: 0 :: [] from rfl)
    [1, 2]).1 ((plainHost_iff _).mpr (by decide))

/-- The client sends a host with a space in it, and the server refuses it. -/
theorem bad_host_refused :
    ¬∀ (host : String) (port : UInt16) (label : String) (incoming : List (List UInt8))
        (reply more : List UInt8), 1 ≤ byteLength host ∧ byteLength host ≤ 255 → port ≠ 0 →
      incoming.flatten = 5 :: 0 :: reply →
        readSocks5ConnectRequest.Yields
          (((performSocks5Connect host port none label).runOn incoming).written ++ more)
          (.ok (host.toList, port)) [5, 0] more := by
  intro agree
  have accepted : 1 ≤ byteLength "bad host" ∧ byteLength "bad host" ≤ 255 := by decide
  have taken := agree "bad host" 443 "TCP" [[5, 0]] [] [] accepted (by decide) rfl
  rw [performSocks5Connect_written 443 "TCP" accepted
    (show [[5, 0]].flatten = 5 :: 0 :: [] from rfl)] at taken
  have refused := (@readSocks5ConnectRequest_yields _ 443 accepted (by decide) []).2
    fun plain => absurd ((plainHost_iff _).mp plain) (by decide)
  have ok := (taken [connectBytes "bad host" 443 ++ []] (append_nil _)).1
  have error := (refused [connectBytes "bad host" 443 ++ []] (append_nil _)).1
  rw [error] at ok
  cases ok

end PortMate
