import NetServices.PRSMessage
import NetServices.SDClient
import Mathlib.Logic.Function.Basic

set_option autoImplicit false

/-!
# The browser's client of the session document server

`SDProtocolClient.cs`: `GetDocument`, with the dictionary that holds one session
for each server address. What the port reservation server, the network and the
server do during a call is part of the call.
-/
namespace NetServices.SDProtocolClient
open SDClient (Client Platform State exception)
open Utf16 (Str lit isNullOrWhiteSpace)

/-- What a server sends back on one connection when the last of these requests has come. -/
abbrev Peer := List Str → Except Exn Str

def env (platform : Platform) (peer : Peer) : SDClient.Env (List Str) :=
  { platform with
    deliver := fun text sent =>
      (peer (sent ++ [text])).map fun received => (received, sent ++ [text]) }

/-- `SDSession`, with the address and the port of its client. -/
structure SDSession where
  ipAddr : Str
  port : UInt16
  client : State (List Str)
  sessionId : UInt64

def SDSession.new (ipAddr : Str) (port : UInt16) (sessionId : UInt64) : SDSession :=
  ⟨ipAddr, port, ⟨false, 0, ⟨[], []⟩, [], []⟩, sessionId⟩

/-- The sessions, by the address of the server. -/
abbrev Sessions := Str → Option SDSession

/-- The arguments of a call, and what it meets. -/
structure Call where
  serverIP : Option Str
  documentName : Option Str
  lookUpPort : Str → Except Exn (Option PRSMessage)
  /-- Why a connection to an address and a port is refused. -/
  refused : Str → UInt16 → Option Exn
  reads : List ℕ
  server : Peer
  /-- Why the connection cannot be shut down. -/
  disconnectFailed : Option Exn

variable {α : Type}

/-- A call on the client of a session. -/
def onClient (m : Client (List Str) α) : EStateM Exn SDSession α := fun session =>
  match m session.client with
  | .ok a client => .ok a { session with client := client }
  | .error e client => .error e { session with client := client }

/-- A call on `sessions[ipAddr]`. The dictionary refers to the session, so that what the
    call changes stays when it raises. -/
def onSession (ipAddr : Str) (m : EStateM Exn SDSession α) : EStateM Exn Sessions α :=
  fun sessions =>
    match sessions ipAddr with
    | none => .error (exception (lit "The given key '" ++ ipAddr ++
        lit "' was not present in the dictionary.")) sessions
    | some session =>
      match m session with
      | .ok a session => .ok a (Function.update sessions ipAddr (some session))
      | .error e session => .error e (Function.update sessions ipAddr (some session))

/-- `Connect` with the address and the port that the client was made with. -/
def connect (call : Call) : EStateM Exn SDSession Unit := do
  let session ← get
  onClient (SDClient.connect (call.refused session.ipAddr session.port) call.reads [])

def openSession (platform : Platform) (call : Call) : EStateM Exn SDSession Unit :=
  onClient (SDClient.openSession (env platform call.server))

def resumeSession (platform : Platform) (call : Call) : EStateM Exn SDSession Unit := do
  let session ← get
  onClient (SDClient.resumeSession (env platform call.server) session.sessionId)

/-- The session that `OpenOrResumeSession` returns is the one at `ipAddr`. -/
def openOrResumeSession (platform : Platform) (call : Call) (ipAddr : Str) (port : UInt16) :
    EStateM Exn Sessions Unit := do
  if ((← get) ipAddr).isNone then
    modify fun sessions => Function.update sessions ipAddr (some (.new ipAddr port 0))
    onSession ipAddr (connect call)
    onSession ipAddr (openSession platform call)
    onSession ipAddr
      (modify fun session => { session with sessionId := session.client.sessionID })
  else
    onSession ipAddr (connect call)
    onSession ipAddr (resumeSession platform call)

def getDocument (platform : Platform) (call : Call) : EStateM Exn Sessions Str := do
  if isNullOrWhiteSpace call.serverIP || isNullOrWhiteSpace call.documentName then
    throw (exception (lit "Server IP and document name cannot be empty."))
  else
    let serverIP := call.serverIP.getD []
    let documentName := call.documentName.getD []
    match call.lookUpPort (lit "Simple Document (SD) Service") with
    | .error e => throw e
    | .ok none => throw (exception (lit "Failed to retrieve port for SD Server from PRS."))
    | .ok (some message) =>
      if message.port = 0 then
        throw (exception (lit "Failed to retrieve port for SD Server from PRS."))
      else
        openOrResumeSession platform call serverIP message.port
        let output ← onSession serverIP
          (onClient (SDClient.getDocument (env platform call.server) documentName))
        onSession serverIP (onClient (SDClient.disconnect call.disconnectFailed))
        pure output

/-- A call, with its outcome as a value. -/
def step (platform : Platform) (sessions : Sessions) (call : Call) : Except Exn Str × Sessions :=
  match getDocument platform call sessions with
  | .ok content sessions => (.ok content, sessions)
  | .error e sessions => (.error e, sessions)

end NetServices.SDProtocolClient
