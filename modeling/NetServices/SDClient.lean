import NetServices.Exceptions
import NetServices.Numerals

set_option autoImplicit false

/-!
# The client of the session document server

`SDClient.cs`: the five operations with what they send and receive, `Connect`
and `Disconnect`. What is written is held until the flush, which hands it to the
peer; what the peer sends back is then on the stream of the client.
-/
namespace NetServices.SDClient
open Utf16 (Str lit)
open TextReader (Reader)
open Numerals (decimal parseInt parseULong)

structure Platform where
  newLine : Str
  isNewLine : TextReader.IsNewLine newLine
  /-- The message for a line that is not the number expected. -/
  parseError : Str → Str
  overflow : Str

/-- The platform and the other end of the connection. -/
structure Env (π : Type) extends Platform where
  deliver : Str → π → Except Exn (Str × π)

structure State (π : Type) where
  connected : Bool
  sessionID : UInt64
  reader : Reader
  writer : Str
  peer : π

abbrev Client (π : Type) := EStateM Exn (State π)

def exception (message : Str) : Exn := ⟨.other, message⟩

/-- The message of an exception that was given none. -/
def noMessage : Str := lit "Exception of type 'System.Exception' was thrown."

variable {π : Type}

def validateConnected : Client π Unit := do
  if (← get).connected then pure ()
  else throw (exception (lit "Cannot perform action. Not connected to server!"))

def validateDisconnected : Client π Unit := do
  if (← get).connected then
    throw (exception (lit "Cannot perform action. Already connected to server!"))
  else pure ()

/-- A connection that is not refused has a stream of its own, split in its own way. -/
def connect (refused : Option Exn) (reads : List ℕ) (peer : π) : Client π Unit := do
  validateDisconnected
  match refused with
  | some e => throw e
  | none => modify fun σ =>
    { σ with connected := true, reader := ⟨[], reads⟩, writer := [], peer := peer }

def disconnect (failed : Option Exn) : Client π Unit := do
  validateConnected
  match failed with
  | some e => throw e
  | none => modify fun σ => { σ with connected := false }

def readLine : Client π (Option Str) :=
  modifyGet fun σ => (σ.reader.readLine.1, { σ with reader := σ.reader.readLine.2 })

def write (text : Str) : Client π Unit := modify fun σ => { σ with writer := σ.writer ++ text }

/-- The stream writer keeps text that it cannot encode, and has given up text that the
    stream refuses. -/
def flush (env : Env π) : Client π Unit := fun σ =>
  match env.deliver σ.writer σ.peer with
  | .ok (received, peer) =>
    .ok () { σ with reader := σ.reader.receive received, writer := [], peer := peer }
  | .error e =>
    .error e { σ with writer := if e.kind = .encoderFallback then σ.writer else [] }

def sendOpen (env : Env π) : Client π Unit := do
  write (lit "open\n")
  flush env

def sendClose (env : Env π) (sessionId : UInt64) : Client π Unit := do
  write (lit "close\n" ++ decimal sessionId.toNat ++ lit "\n")
  flush env

def sendResume (env : Env π) (sessionId : UInt64) : Client π Unit := do
  write (lit "resume\n" ++ decimal sessionId.toNat ++ lit "\n")
  flush env

def sendPost (env : Env π) (documentName documentContents : Str) : Client π Unit := do
  write (lit "post" ++ lit "\n" ++ documentName ++ lit "\n" ++
    decimal documentContents.length ++ lit "\n" ++ documentContents)
  flush env

def sendGet (env : Env π) (documentName : Str) : Client π Unit := do
  write (lit "get" ++ env.newLine)
  write (documentName ++ env.newLine)
  flush env

def parseSessionId (env : Env π) (line : Str) : Client π UInt64 :=
  match parseULong (some line) with
  | some id => pure id
  | none => throw (exception (env.parseError line))

def receiveSessionResponse (env : Env π) : Client π UInt64 := do
  let line ← readLine
  if line = some (lit "accepted") then
    match ← readLine with
    | none =>
      throw (exception (lit "Expected session ID after 'accepted' response, but got null."))
    | some line => parseSessionId env line
  else if line = some (lit "rejected") then
    throw (exception (lit "Server rejected connection attempt"))
  else if line = some (lit "error") then
    let line ← readLine
    throw (exception (line.getD noMessage))
  else
    throw (exception (lit "Expected to receive a valid session response, instead got... " ++
      line.getD []))

def receiveClose (env : Env π) : Client π UInt64 := do
  let line ← readLine
  if line = some (lit "closed") then
    match ← readLine with
    | none => throw (exception (lit "Expected session ID after 'closed', but got null."))
    | some line => parseSessionId env line
  else if line = some (lit "error") then
    let errorMsg ← readLine
    throw (exception (lit "Server error when closing session: " ++
      errorMsg.getD (lit "unknown error")))
  else throw (exception (lit "Expected 'closed' or 'error', but got: " ++ line.getD []))

/-- The message is built from the line that says `error`, not from the one after it. -/
def receivePostResponse : Client π Unit := do
  let line ← readLine
  if line = some (lit "success") then pure ()
  else if line = some (lit "error") then throw (exception (lit "Error: " ++ line.getD []))
  else
    throw (exception (lit "Expected to receive a valid post response, instead got... " ++
      line.getD []))

def receiveDocumentContent (env : Env π) (length : ℤ) : Client π Str := do
  if length < 0 then throw (exception env.overflow)
  else
    let content ← modifyGet fun σ => ((σ.reader.readBlock length.toNat length.toNat).1,
      { σ with reader := (σ.reader.readBlock length.toNat length.toNat).2 })
    if content.length < length.toNat then
      throw (exception (lit "Unexpected end of stream while reading document content."))
    else pure content

def receiveGetResponse (env : Env π) : Client π Str := do
  let line ← readLine
  if line = some (lit "success") then
    let _documentName ← readLine
    match ← readLine with
    | none =>
      throw (exception (lit "Expected content length after 'success' response, but got null."))
    | some lengthLine =>
      match parseInt (some lengthLine) with
      | none => throw (exception (env.parseError lengthLine))
      | some contentLength => receiveDocumentContent env contentLength
  else if line = some (lit "error") then
    let errorMessage ← readLine
    throw (exception (errorMessage.getD []))
  else
    throw (exception (lit "Expected to receive a valid get response, instead got... " ++
      line.getD []))

def openSession (env : Env π) : Client π Unit := do
  validateConnected
  sendOpen env
  try
    let sessionID ← receiveSessionResponse env
    modify fun σ => { σ with sessionID := sessionID }
  catch ex =>
    throw (exception (lit "Failed to open session with SD server: " ++ ex.message))

def resumeSession (env : Env π) (trySessionID : UInt64) : Client π Unit := do
  if trySessionID = 0 then throw (exception (lit "Cannot resume session with ID 0."))
  else
    validateConnected
    sendResume env trySessionID
    let returnedID ← receiveSessionResponse env
    if returnedID ≠ trySessionID then
      throw (exception (lit "Server returned session ID " ++ decimal returnedID.toNat ++
        lit ", expected " ++ decimal trySessionID.toNat ++ lit "."))
    else modify fun σ => { σ with sessionID := returnedID }

def closeSession (env : Env π) : Client π Unit := do
  validateConnected
  sendClose env (← get).sessionID
  let returnedID ← receiveClose env
  let sessionID := (← get).sessionID
  if returnedID ≠ sessionID then
    throw (exception (lit "Server closed session ID " ++ decimal returnedID.toNat ++
      lit ", expected " ++ decimal sessionID.toNat ++ lit "."))
  else modify fun σ => { σ with sessionID := 0 }

def getDocument (env : Env π) (documentName : Str) : Client π Str := do
  validateConnected
  sendGet env documentName
  receiveGetResponse env

def postDocument (env : Env π) (documentName documentContents : Str) : Client π Unit := do
  validateConnected
  sendPost env documentName documentContents
  receivePostResponse

inductive Operation where
  | open
  | resume (trySessionID : UInt64)
  | close
  | get (documentName : Str)
  | post (documentName documentContents : Str)
deriving DecidableEq

/-- A call of an operation; only `get` returns a value. -/
def Operation.run (env : Env π) : Operation → Client π Str
  | .open => do
    openSession env
    pure []
  | .resume trySessionID => do
    resumeSession env trySessionID
    pure []
  | .close => do
    closeSession env
    pure []
  | .get documentName => getDocument env documentName
  | .post documentName documentContents => do
    postDocument env documentName documentContents
    pure []

end NetServices.SDClient
