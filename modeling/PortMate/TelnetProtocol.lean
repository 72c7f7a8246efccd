import PortMate.RustPrimitives
import PortMate.Transducer

namespace PortMate

def telnetIac : UInt8 := 255
def telnetSe : UInt8 := 240
def telnetSb : UInt8 := 250
def telnetWill : UInt8 := 251
def telnetWont : UInt8 := 252
def telnetDo : UInt8 := 253
def telnetDont : UInt8 := 254
def telnetOptBinary : UInt8 := 0
def telnetOptEcho : UInt8 := 1
def telnetOptSuppressGoAhead : UInt8 := 3
def telnetOptTerminalType : UInt8 := 24
def telnetOptNaws : UInt8 := 31
def telnetTtypeIs : UInt8 := 0
def telnetTtypeSend : UInt8 := 1

structure TelnetRuntimeState where
  binaryEnabled : Bool
  nawsEnabled : Bool
  localBinary : Bool
  remoteBinary : Bool
  nawsNegotiated : Bool
  cols : UInt16
  rows : UInt16
  terminalType : String

/-- The settings of a Telnet profile that the runtime state is built from. -/
structure TelnetProfile where
  telnetBinary : Bool
  telnetNaws : Bool
  cols : UInt16
  rows : UInt16
  term : String

def TelnetRuntimeState.fromProfile (profile : TelnetProfile) : TelnetRuntimeState where
  binaryEnabled := profile.telnetBinary
  nawsEnabled := profile.telnetNaws
  localBinary := false
  remoteBinary := false
  nawsNegotiated := false
  cols := profile.cols
  rows := profile.rows
  terminalType := profile.term

inductive TelnetState
  | data
  | iac
  | command (command : UInt8)
  | subnegotiation
  | subnegotiationIac
  deriving DecidableEq

structure TelnetNegotiator where
  state : TelnetState
  subnegotiation : List UInt8
  afterCr : Bool
  localOptions : UInt8 → Bool
  remoteOptions : UInt8 → Bool
  subnegotiationOverflow : Bool
  runtime : TelnetRuntimeState

def TelnetNegotiator.new (runtime : TelnetRuntimeState) : TelnetNegotiator where
  state := .data
  subnegotiation := []
  afterCr := false
  localOptions := fun _ => false
  remoteOptions := fun _ => false
  subnegotiationOverflow := false
  runtime := runtime

def appendTelnetSubnegotiationPayload (output payload : List UInt8) : List UInt8 :=
  payload.foldl
    (fun output byte =>
      if byte = telnetIac then output ++ [byte] ++ [byte] else output ++ [byte])
    output

def telnetNawsMessage (cols rows : UInt16) : List UInt8 :=
  let message := [telnetIac, telnetSb, telnetOptNaws]
  let message := appendTelnetSubnegotiationPayload message (u16ToBeBytes cols)
  let message := appendTelnetSubnegotiationPayload message (u16ToBeBytes rows)
  message ++ [telnetIac, telnetSe]

def telnetSubnegotiationReply (payload : List UInt8) (terminalType : String) :
    Option (List UInt8) :=
  if payload[0]? = some telnetOptTerminalType ∧ payload[1]? = some telnetTtypeSend then
    let reply := [telnetIac, telnetSb, telnetOptTerminalType, telnetTtypeIs]
    let reply := appendTelnetSubnegotiationPayload reply terminalType.toUTF8.toList
    some (reply ++ [telnetIac, telnetSe])
  else none

/-- The answer to one request and the flags stored with it. -/
def telnetOptionResponse (command option : UInt8) (runtime : TelnetRuntimeState) :
    UInt8 × TelnetRuntimeState :=
  if command = telnetDo then
    if option = telnetOptBinary ∧ runtime.binaryEnabled then
      (telnetWill, { runtime with localBinary := true })
    else if option = telnetOptBinary then
      (telnetWont, { runtime with localBinary := false })
    else if option = telnetOptNaws ∧ runtime.nawsEnabled then
      (telnetWill, { runtime with nawsNegotiated := true })
    else if option = telnetOptNaws then
      (telnetWont, { runtime with nawsNegotiated := false })
    else if option = telnetOptSuppressGoAhead ∨ option = telnetOptTerminalType then
      (telnetWill, runtime)
    else (telnetWont, runtime)
  else if command = telnetDont then
    if option = telnetOptBinary then (telnetWont, { runtime with localBinary := false })
    else if option = telnetOptNaws then (telnetWont, { runtime with nawsNegotiated := false })
    else (telnetWont, runtime)
  else if command = telnetWill then
    if option = telnetOptBinary ∧ runtime.binaryEnabled then
      (telnetDo, { runtime with remoteBinary := true })
    else if option = telnetOptBinary then
      (telnetDont, { runtime with remoteBinary := false })
    else if option = telnetOptEcho ∨ option = telnetOptSuppressGoAhead then
      (telnetDo, runtime)
    else (telnetDont, runtime)
  else
    if option = telnetOptBinary then (telnetDont, { runtime with remoteBinary := false })
    else (telnetDont, runtime)

def telnetOptionReplies (command option : UInt8) (n : TelnetNegotiator) :
    TelnetNegotiator × List (List UInt8) :=
  let isLocal := command = telnetDo ∨ command = telnetDont
  if ¬isLocal ∧ ¬(command = telnetWill ∨ command = telnetWont) then (n, [])
  else
    let enabled := if isLocal then n.localOptions option else n.remoteOptions option
    -- A request for the mode already in force gets no answer.
    if decide (command = telnetDo ∨ command = telnetWill) = enabled then (n, [])
    else
      let (response, runtime) := telnetOptionResponse command option n.runtime
      let enabled := decide (response = telnetWill ∨ response = telnetDo)
      let n :=
        if isLocal then
          { n with runtime, localOptions := Function.update n.localOptions option enabled }
        else { n with runtime, remoteOptions := Function.update n.remoteOptions option enabled }
      let replies := [[telnetIac, response, option]]
      if command = telnetDo ∧ option = telnetOptNaws ∧ response = telnetWill then
        (n, replies ++ [telnetNawsMessage runtime.cols runtime.rows])
      else (n, replies)

/-- One display byte: the negotiator afterwards and the extended output. -/
def TelnetNegotiator.pushDataByte (n : TelnetNegotiator) (byte : UInt8) (output : List UInt8)
    (remoteBinary : Bool) : TelnetNegotiator × List UInt8 :=
  if remoteBinary then ({ n with afterCr := false }, output ++ [byte])
  else if n.afterCr ∧ byte = 0 then ({ n with afterCr := false }, output)
  else ({ n with afterCr := decide (byte = 13) }, output ++ [byte])

def TelnetNegotiator.pushSubnegotiation (n : TelnetNegotiator) (byte : UInt8) :
    TelnetNegotiator :=
  if n.subnegotiation.length < 4096 ∧ ¬n.subnegotiationOverflow then
    { n with subnegotiation := n.subnegotiation ++ [byte] }
  else { n with subnegotiation := [], subnegotiationOverflow := true }

/-- The variables of the loop in `filter`. -/
structure FilterLoop where
  negotiator : TelnetNegotiator
  output : List UInt8
  replies : List (List UInt8)
  remoteBinary : Bool

def FilterLoop.pushData (loop : FilterLoop) (byte : UInt8) : FilterLoop :=
  let (negotiator, output) := loop.negotiator.pushDataByte byte loop.output loop.remoteBinary
  { loop with negotiator, output }

def FilterLoop.goto (loop : FilterLoop) (state : TelnetState) : FilterLoop :=
  { loop with negotiator := { loop.negotiator with state } }

def filterByte (loop : FilterLoop) (byte : UInt8) : FilterLoop :=
  match loop.negotiator.state with
  | .data =>
    if byte = telnetIac then loop.goto .iac else loop.pushData byte
  | .iac =>
    if byte = telnetIac then (loop.pushData telnetIac).goto .data
    else if byte = telnetDo ∨ byte = telnetDont ∨ byte = telnetWill ∨ byte = telnetWont then
      loop.goto (.command byte)
    else if byte = telnetSb then
      { loop with
        negotiator := { loop.negotiator with
          subnegotiation := [], subnegotiationOverflow := false, state := .subnegotiation } }
    else loop.goto .data
  | .command command =>
    let (negotiator, replies) := telnetOptionReplies command byte loop.negotiator
    { loop with
      negotiator := { negotiator with state := .data }
      replies := loop.replies ++ replies
      remoteBinary := negotiator.runtime.remoteBinary }
  | .subnegotiation =>
    if byte = telnetIac then loop.goto .subnegotiationIac
    else { loop with negotiator := loop.negotiator.pushSubnegotiation byte }
  | .subnegotiationIac =>
    if byte = telnetSe then
      let reply :=
        if loop.negotiator.subnegotiationOverflow then none
        else telnetSubnegotiationReply loop.negotiator.subnegotiation
          loop.negotiator.runtime.terminalType
      { loop with
        negotiator := { loop.negotiator with subnegotiation := [], state := .data }
        replies := loop.replies ++ reply.toList }
    else if byte = telnetIac then
      { loop with
        negotiator := { loop.negotiator.pushSubnegotiation telnetIac with
          state := .subnegotiation } }
    else
      { loop with
        negotiator := { (loop.negotiator.pushSubnegotiation telnetIac).pushSubnegotiation byte with
          state := .subnegotiation } }

def TelnetNegotiator.filter (n : TelnetNegotiator) (input : List UInt8) :
    TelnetNegotiator × List UInt8 × List (List UInt8) :=
  let loop := input.foldl filterByte ⟨n, [], [], n.runtime.remoteBinary⟩
  (loop.negotiator, loop.output, loop.replies)

def encodeTelnetOutboundBytes (bytes : List UInt8) : List UInt8 :=
  bytes.foldl
    (fun output byte =>
      if byte = telnetIac then output ++ [byte] ++ [byte] else output ++ [byte])
    []

end PortMate
