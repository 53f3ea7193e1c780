import NetServices.Exceptions
import NetServices.PRSAnswers

set_option autoImplicit false

/-!
# The client of the port reservation server

`PRSClient.cs`: the part of each call under `socketLock`, and one client with its
server on a datagram network. The lock lets one call at a time send its request
and take the next message; nothing in the message is compared with the request.
-/
namespace NetServices.PRSClient
open ByteOrder (Endian)
open PRSServer (Server Pass)
open Utf16 (Str lit)

/-- What a call returns. The keep-alive loop only logs a status. -/
inductive Outcome where
  | port (port : UInt16)
  | message (response : PRSMessage)
  | closed
  | alive (error : Option Status)
deriving DecidableEq

/-- The part of a call under the lock: what it sends, and what it makes of what it receives. -/
structure Exchange where
  request : PRSMessage
  outcome : PRSMessage → Except Exn Outcome

def exchange (request : PRSMessage) (value : PRSMessage → Outcome) (failure : Str) : Exchange where
  request := request
  outcome response :=
    if response.status = .success then .ok (value response) else .error ⟨.other, failure⟩

def requestPort (serviceName : Str) : Exchange :=
  exchange ⟨.requestPort, serviceName, 0, .success⟩ (fun response => .port response.port)
    (lit "Failed to get port from PRS.")

def closePort (serviceName : Str) (port : UInt16) : Exchange :=
  exchange ⟨.closePort, serviceName, port, .success⟩ (fun _ => .closed)
    (lit "Failed to close port.")

def lookUpPort (serviceName : Str) : Exchange :=
  exchange ⟨.lookupPort, serviceName, 0, .success⟩ .message (lit "Failed to look up port.")

/-- One pass of the loop of `KeepPortAlive`. -/
def keepPortAlive (serviceName : Str) (port : UInt16) : Exchange where
  request := ⟨.keepAlive, serviceName, port, .success⟩
  outcome response :=
    .ok (.alive (if response.status = .success then none else some response.status))

inductive Call where
  | requestPort (serviceName : Str)
  | lookUpPort (serviceName : Str)
  | closePort (serviceName : Str) (port : UInt16)
  | keepPortAlive (serviceName : Str) (port : UInt16)
deriving DecidableEq

def Call.exchange : Call → Exchange
  | .requestPort serviceName => PRSClient.requestPort serviceName
  | .lookUpPort serviceName => PRSClient.lookUpPort serviceName
  | .closePort serviceName port => PRSClient.closePort serviceName port
  | .keepPortAlive serviceName port => PRSClient.keepPortAlive serviceName port

/-- A datagram on its way to the server, with the number of the call that sent it. -/
structure Request where
  bytes : List UInt8
  call : ℕ

/-- A datagram on its way to the client, with the call whose datagram the server had
    received, none when it had received none. -/
structure Reply where
  bytes : List UInt8
  answers : Option ℕ

/-- The server, to which `none` is the endpoint of the client, the client, and the network.
    The call that holds the lock waits for a message. -/
structure System (ε : Type) where
  server : Server (Option ε)
  made : List Call
  pending : Option (ℕ × Call)
  closing : Bool
  closed : Bool
  requests : List Request
  replies : List Reply

inductive Event (ε : Type) where
  | call (call : Call)
  | receive (i : ℕ)
  | receiveFails
  | closeSocket
  | serve (i : ℕ) (now : DateTime) (responseSent errorSent : Bool)
  | serveOther (bytes : List UInt8) (sender : ε) (now : DateTime) (responseSent errorSent : Bool)
  | serveFails (now : DateTime) (errorSent : Bool)
  | loseRequest (i : ℕ)
  | loseReply (i : ℕ)
  | duplicateRequest (i : ℕ)
  | duplicateReply (i : ℕ)

inductive Record where
  | called (n : ℕ) (call : Call)
  | taken (n : ℕ) (call : Call) (answers : Option ℕ) (message : PRSMessage)
      (outcome : Except Exn Outcome)
  | passed (answers : Option ℕ) (before after : PRS) (now : DateTime) (sent : List (List UInt8))
  | other

variable {ε : Type}

def start (server : Server (Option ε)) : System ε := ⟨server, [], none, false, false, [], []⟩

/-- A pass of the server; what it sends to the client is on its way. -/
def System.pass (e : Endian) (sys : System ε) (answers : Option ℕ) (pass : Pass (Option ε)) :
    Record × System ε :=
  let (entry, server) := PRSServer.step e sys.server pass
  let sent := (entry.sent.filter fun datagram => datagram.2.isNone).map (·.1)
  (.passed answers sys.server.prs server.prs pass.now sent, { sys with
    server := server
    replies := sys.replies ++ sent.map fun bytes => ⟨bytes, answers⟩ })

/-- The client has the byte order `e`, the server `e'`. A call that has to wait for the
    lock, whose message cannot be encoded, or whose socket is closed sends nothing. -/
def step (e e' : Endian) (sys : System ε) : Event ε → Record × System ε
  | .call call =>
    if sys.closed || sys.pending.isSome then (.other, sys)
    else
      match call.exchange.request.getBytes e with
      | none => (.other, sys)
      | some bytes => (.called sys.made.length call, { sys with
          made := sys.made ++ [call]
          pending := some (sys.made.length, call)
          requests := sys.requests ++ [⟨bytes, sys.made.length⟩] })
  | .receive i =>
    match sys.pending, sys.replies[i]? with
    | some (n, call), some reply =>
      let message := PRSMessage.ofBytes e (PRSServer.buffer reply.bytes)
      let outcome := call.exchange.outcome message
      (.taken n call reply.answers message outcome, { sys with
        pending := none
        closing := match outcome with
          | .ok .closed => true
          | _ => sys.closing
        replies := sys.replies.eraseIdx i })
    | _, _ => (.other, sys)
  | .receiveFails => (.other, { sys with pending := none })
  -- `ClosePort` closes the socket after it has given the lock back
  | .closeSocket =>
    (.other, if sys.closing then { sys with closed := true, pending := none } else sys)
  | .serve i now responseSent errorSent =>
    match sys.requests[i]? with
    | some request =>
      { sys with requests := sys.requests.eraseIdx i }.pass e' (some request.call)
        ⟨.delivered request.bytes none, now, responseSent, errorSent⟩
    | none => (.other, sys)
  | .serveOther bytes sender now responseSent errorSent =>
    sys.pass e' none ⟨.delivered bytes (some sender), now, responseSent, errorSent⟩
  | .serveFails now errorSent => sys.pass e' none ⟨.failed, now, true, errorSent⟩
  | .loseRequest i => (.other, { sys with requests := sys.requests.eraseIdx i })
  | .loseReply i => (.other, { sys with replies := sys.replies.eraseIdx i })
  | .duplicateRequest i =>
    (.other, { sys with requests := sys.requests ++ sys.requests[i]?.toList })
  | .duplicateReply i => (.other, { sys with replies := sys.replies ++ sys.replies[i]?.toList })

end NetServices.PRSClient
