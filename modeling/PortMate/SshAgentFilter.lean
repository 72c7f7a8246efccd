import PortMate.RustText
import PortMate.SessionModels
import PortMate.Transducer

namespace PortMate

open UInt8

def sshAgentFailure : UInt8 := 5
def sshAgentRequestIdentities : UInt8 := 11
def sshAgentIdentitiesAnswer : UInt8 := 12
def sshAgentSignRequest : UInt8 := 13
def maxFilteredAgentFrameBytes : Nat := 256 * 1024
def maxFilteredAgentConnections : Nat := 8

/-- `u32::from_be_bytes`. -/
def u32FromBeBytes (a b c d : UInt8) : Nat :=
  ((a.toNat * 256 + b.toNat) * 256 + c.toNat) * 256 + d.toNat

/-- `u32::to_be_bytes`. -/
def u32ToBeBytes (value : Nat) : List UInt8 :=
  [ofNat (value / 2 ^ 24), ofNat (value / 2 ^ 16), ofNat (value / 2 ^ 8),
    ofNat value]

/-- A value and the bytes after it; what is left stands for the offset. -/
def readU32 : List UInt8 → Option (Nat × List UInt8)
  | a :: b :: c :: d :: rest => some (u32FromBeBytes a b c d, rest)
  | _ => none

def readSshString (bytes : List UInt8) : Option (List UInt8 × List UInt8) :=
  match readU32 bytes with
  | none => none
  | some (length, rest) =>
    if length ≤ rest.length then some (rest.take length, rest.drop length) else none

/-- `u32::try_from` of a length, with its bytes. -/
def u32Length (length : Nat) (message : String) : Except String (List UInt8) :=
  if length < 2 ^ 32 then .ok (u32ToBeBytes length) else .error message

def pushSshString (target value : List UInt8) : Except String (List UInt8) := do
  let length ← u32Length value.length "SSH agent 字符串超出协议边界"
  return target ++ (length ++ value)

def pushIdentities (target : List UInt8) :
    List (List UInt8 × List UInt8) → Except String (List UInt8)
  | [] => .ok target
  | (key, comment) :: identities => do
    let target ← pushSshString target key
    let target ← pushSshString target comment
    pushIdentities target identities

def signRequestKeyBlob (request : List UInt8) : Option (List UInt8) :=
  match request with
  | kind :: rest =>
    if kind = sshAgentSignRequest then (readSshString rest).map (·.1) else none
  | [] => none

section Filter

-- The fingerprint of a public key, or of the key that a certificate is for.
variable (agentIdentityBlobFingerprint : List UInt8 → Option String)

def pinnedFingerprint (identityRef : IdentityRef) : Option String :=
  (identityRef.fingerprintSha256.map rustTrim).filter fun expected => !expected.isEmpty

def identityRefMatches (key comment : List UInt8) (identityRef : IdentityRef) : Bool :=
  match pinnedFingerprint identityRef with
  | some expected => agentIdentityBlobFingerprint key = some expected
  | none =>
    match identityRef.path.filter fun path => !(rustTrim path).isEmpty with
    | some path => utf8Bytes path = comment
    | none => !(rustTrim identityRef.label).isEmpty && utf8Bytes identityRef.label = comment

def agentIdentityBlobMatches (key comment : List UInt8) (identityRefs : List IdentityRef) : Bool :=
  identityRefs.any (identityRefMatches agentIdentityBlobFingerprint key comment)

/-- The identities that match, and the bytes after all of them. -/
def readIdentities (identityRefs : List IdentityRef) :
    Nat → List UInt8 → Except String (List (List UInt8 × List UInt8) × List UInt8)
  | 0, bytes => .ok ([], bytes)
  | count + 1, bytes =>
    match readSshString bytes with
    | none => .error "SSH agent identities 响应包含损坏的公钥"
    | some (key, bytes) =>
      match readSshString bytes with
      | none => .error "SSH agent identities 响应包含损坏的注释"
      | some (comment, bytes) =>
        match readIdentities identityRefs count bytes with
        | .error error => .error error
        | .ok (selected, bytes) =>
          if agentIdentityBlobMatches agentIdentityBlobFingerprint key comment identityRefs then
            .ok ((key, comment) :: selected, bytes)
          else .ok (selected, bytes)

/-- The response for the client, and the keys it may sign with from now on. -/
def filterIdentityResponse (response : List UInt8) (identityRefs : List IdentityRef) :
    Except String (List UInt8 × List (List UInt8)) :=
  match response with
  | [] => .ok ([], [])
  | kind :: rest =>
    if kind ≠ sshAgentIdentitiesAnswer then .ok (response, [])
    else
      match readU32 rest with
      | none => .error "SSH agent identities 响应缺少数量"
      | some (count, bytes) => do
        let (selected, bytes) ←
          readIdentities agentIdentityBlobFingerprint identityRefs count bytes
        if !bytes.isEmpty then throw "SSH agent identities 响应包含尾随数据"
        let length ← u32Length selected.length "SSH agent identity 数量超出协议边界"
        let filtered ← pushIdentities (sshAgentIdentitiesAnswer :: length) selected
        return (filtered, selected.map (·.1))

end Filter

/-- The first frame of what a stream has to offer. -/
def readAgentFrame (stream : List UInt8) : Except String (List UInt8) :=
  match readU32 stream with
  | none => .error "读取 SSH agent 帧长度失败"
  | some (length, rest) =>
    if length = 0 || maxFilteredAgentFrameBytes < length then
      .error s!"SSH agent 帧长度超出边界: {length}"
    else if length ≤ rest.length then .ok (rest.take length)
    else .error "读取 SSH agent 帧失败"

/-- What the task of a connection waits for: a frame of its client, the way of a checked request to
the upstream, the answer of the upstream to it, or the way of a response to the client. -/
inductive AgentConnection
  | reading
  | forwarding (request : List UInt8)
  | awaiting (request : List UInt8)
  | answering (response : List UInt8)
  deriving DecidableEq

/-- The proxy: the connections that are served, and the keys that all of them may sign with. -/
structure FilteredAgentProxy where
  connections : List (Nat × AgentConnection)
  allowedKeyBlobs : List (List UInt8)
  deriving DecidableEq

inductive AgentEvent
  | accept (connection : Nat)
  | request (connection : Nat) (stream : List UInt8)
  | forwarded (connection : Nat)
  | upstreamAnswer (connection : Nat) (stream : List UInt8)
  | answered (connection : Nat)
  /-- An input or output error, or the end of the proxy. -/
  | failed (connection : Nat)
  deriving DecidableEq

/-- `checked` is a sign request that was found to be allowed; `filtered` is an answer to a request for
the identities with the keys that the filter left. -/
inductive AgentSignal
  | checked (connection : Nat) (request : List UInt8)
  | toUpstream (connection : Nat) (request : List UInt8)
  | filtered (connection : Nat) (answer response : List UInt8) (keys : List (List UInt8))
  | toClient (connection : Nat) (response : List UInt8)
  deriving DecidableEq

namespace FilteredAgentProxy

def initial : FilteredAgentProxy := ⟨[], []⟩

def setConnection (proxy : FilteredAgentProxy) (connection : Nat) (state : AgentConnection) :
    FilteredAgentProxy :=
  { proxy with
    connections :=
      (connection, state) :: proxy.connections.filter fun entry => entry.1 ≠ connection }

def closeConnection (proxy : FilteredAgentProxy) (connection : Nat) : FilteredAgentProxy :=
  { proxy with connections := proxy.connections.filter fun entry => entry.1 ≠ connection }

def accept (proxy : FilteredAgentProxy) (connection : Nat) : FilteredAgentProxy :=
  if maxFilteredAgentConnections ≤ proxy.connections.length ||
      (proxy.connections.lookup connection).isSome then proxy
  else { proxy with connections := (connection, .reading) :: proxy.connections }

def handleRequest (proxy : FilteredAgentProxy) (connection : Nat) (request : List UInt8) :
    FilteredAgentProxy × List AgentSignal :=
  if request.head? = some sshAgentRequestIdentities then
    (proxy.setConnection connection (.forwarding request), [])
  else if request.head? = some sshAgentSignRequest &&
      (signRequestKeyBlob request).any fun key => key ∈ proxy.allowedKeyBlobs then
    (proxy.setConnection connection (.forwarding request), [.checked connection request])
  else (proxy.setConnection connection (.answering [sshAgentFailure]), [])

section Steps

variable (agentIdentityBlobFingerprint : List UInt8 → Option String)
  (identityRefs : List IdentityRef)

def handleAnswer (proxy : FilteredAgentProxy) (connection : Nat) (request answer : List UInt8) :
    FilteredAgentProxy × List AgentSignal :=
  if request.head? = some sshAgentRequestIdentities then
    match filterIdentityResponse agentIdentityBlobFingerprint answer identityRefs with
    | .error _ => (proxy.closeConnection connection, [])
    | .ok (response, selected) =>
      ({ proxy with allowedKeyBlobs := selected }.setConnection connection (.answering response),
        [.filtered connection answer response selected])
  else (proxy.setConnection connection (.answering answer), [])

def step (proxy : FilteredAgentProxy) : AgentEvent → FilteredAgentProxy × List AgentSignal
  | .accept connection => (proxy.accept connection, [])
  | .request connection stream =>
    match proxy.connections.lookup connection with
    | some .reading =>
      match readAgentFrame stream with
      | .error _ => (proxy.closeConnection connection, [])
      | .ok request => proxy.handleRequest connection request
    | _ => (proxy, [])
  | .forwarded connection =>
    match proxy.connections.lookup connection with
    | some (.forwarding request) =>
      (proxy.setConnection connection (.awaiting request), [.toUpstream connection request])
    | _ => (proxy, [])
  | .upstreamAnswer connection stream =>
    match proxy.connections.lookup connection with
    | some (.awaiting request) =>
      match readAgentFrame stream with
      | .error _ => (proxy.closeConnection connection, [])
      | .ok answer =>
        proxy.handleAnswer agentIdentityBlobFingerprint identityRefs connection request answer
    | _ => (proxy, [])
  | .answered connection =>
    match proxy.connections.lookup connection with
    | some (.answering response) =>
      (proxy.setConnection connection .reading, [.toClient connection response])
    | _ => (proxy, [])
  | .failed connection => (proxy.closeConnection connection, [])

end Steps

end FilteredAgentProxy

/-- The tasks of all connections, one step of one of them at a time; only references to keys of the
agent are given to the proxy. -/
def filteredAgentProxy (agentIdentityBlobFingerprint : List UInt8 → Option String)
    (identityRefs : List IdentityRef) : Transducer FilteredAgentProxy AgentEvent AgentSignal where
  step proxy event := proxy.step agentIdentityBlobFingerprint
    (identityRefs.filter fun identityRef => identityRef.source = .agent) event

end PortMate
