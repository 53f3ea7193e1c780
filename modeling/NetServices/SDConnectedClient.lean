import NetServices.SessionTable
import NetServices.Numerals

set_option autoImplicit false

/-!
# One connection of the session document server

`SDConnectedClient.cs`: `Run`, the five handlers and the send methods, as
programs that read lines, take the lock of the session table once, and write.
What lies outside the program is the environment: the response stream, the file
system, and how the platform compares and combines strings.
-/
namespace NetServices.SDServer
open Utf16 (Str lit)
open TextReader (Reader)
open Numerals (decimal parseInt parseULong)

/-- The platform. `writeAllText` says how a call ends after the calls before it,
    `none` being success, and `creates` whether it has created or truncated the file by then:
    a call that raises while it writes has done so too. -/
structure Host where
  newLine : Str
  isNewLine : TextReader.IsNewLine newLine
  currentDirectory : Str
  startsWithSlash : Str → Bool
  isPathRooted : Str → Bool
  endsInSeparator : Str → Bool
  directorySeparator : UInt16
  writeAllText : List (Str × Str) → Str → Str → Option Exn
  creates : List (Str × Str) → Str → Str → Bool
  written_created : ∀ files path content, writeAllText files path content = none →
    creates files path content = true
  negativeCapacity : Str

/-- The platform and the response stream of one connection. -/
structure Env (W : Type) extends Host where
  write : Str → W → Option Exn × W

/-- What the requests of a connection work on. -/
structure Core where
  sessionId : UInt64
  table : SessionTable
  files : List (Str × Str)

structure State (W : Type) extends Core where
  reader : Reader
  writer : W

abbrev Server (W : Type) := EStateM Exn (State W)

variable {W : Type}

def readLine : Server W (Option Str) :=
  modifyGet fun σ => (σ.reader.readLine.1, { σ with reader := σ.reader.readLine.2 })

def write (env : Env W) (text : Str) : Server W Unit := fun σ =>
  match env.write text σ.writer with
  | (none, writer) => .ok () { σ with writer := writer }
  | (some e, writer) => .error e { σ with writer := writer }

def writeLine (env : Env W) (text : Str) : Server W Unit := write env (text ++ env.newLine)

def sendAccepted (env : Env W) (sessionId : UInt64) : Server W Unit := do
  writeLine env (lit "accepted")
  writeLine env (decimal sessionId.toNat)

def sendRejected (env : Env W) (reason : Str) : Server W Unit := do
  writeLine env (lit "rejected")
  writeLine env reason

def sendClosed (env : Env W) (sessionId : UInt64) : Server W Unit := do
  writeLine env (lit "closed")
  writeLine env (decimal sessionId.toNat)

def sendSuccess (env : Env W) : Server W Unit := writeLine env (lit "success")

def sendDocument (env : Env W) (documentName documentContent : Str) : Server W Unit := do
  writeLine env (lit "success")
  writeLine env documentName
  writeLine env (decimal documentContent.length)
  write env documentContent

def sendError (env : Env W) (errorString : Str) : Server W Unit := do
  writeLine env (lit "error")
  writeLine env errorString

/-- A call of the session table that may raise. -/
def sessionTable {α : Type} (call : SessionTable → Except Exn (α × SessionTable)) :
    Server W α := fun σ =>
  match call σ.table with
  | .ok (a, table) => .ok a { σ with table := table }
  | .error e => .error e σ

def pathCombine (host : Host) (path1 path2 : Str) : Str :=
  if path2 = [] then path1
  else if path1 = [] || host.isPathRooted path2 then path2
  else if host.endsInSeparator path1 then path1 ++ path2
  else path1 ++ host.directorySeparator :: path2

def writeAllText (env : Env W) (path content : Str) : Server W Unit := fun σ =>
  match env.writeAllText σ.files path content with
  | none => .ok () { σ with files := σ.files ++ [(path, content)] }
  | some e => .error e { σ with files := σ.files ++ [(path, content)] }

/-- A negative length raises before anything is read. -/
def receiveDocument (env : Env W) (length : ℤ) : Server W Str :=
  if length < 0 then throw ⟨.argumentOutOfRange, env.negativeCapacity⟩
  else modifyGet fun σ =>
    ((σ.reader.readBlock length.toNat length.toNat).1,
      { σ with reader := (σ.reader.readBlock length.toNat length.toNat).2 })

def handleOpen (env : Env W) (now : DateTime) : Server W Unit := do
  if (← get).sessionId = 0 then
    try
      let sessionId ← sessionTable fun table => .ok (table.openSession now)
      modify fun σ => { σ with sessionId := sessionId }
      sendAccepted env sessionId
    catch ex => sendError env ex.message
  else sendError env (lit "Session already open!")

def handleResume (env : Env W) : Server W Unit := do
  match parseULong (← readLine) with
  | none => sendError env (lit "Invalid session ID.")
  | some resumeSessionId =>
    try
      if (← get).sessionId = 0 then
        if (← get).table.resumeSession resumeSessionId then
          modify fun σ => { σ with sessionId := resumeSessionId }
          sendAccepted env resumeSessionId
        else
          sendRejected env (lit "Failed to resume session: " ++ decimal resumeSessionId.toNat)
      else sendError env (lit "Session already open, cannot resume!")
    catch ex =>
      sendError env ex.message
      throw ex

/-- The session that is closed is the one of the connection, not the one named. -/
def handleClose (env : Env W) : Server W Unit := do
  match parseULong (← readLine) with
  | none => sendError env (lit "Invalid session ID.")
  | some _ =>
    try
      let sessionId := (← get).sessionId
      sessionTable fun table => (table.closeSession sessionId).map fun table => ((), table)
      sendClosed env sessionId
    catch ex => sendError env ex.message

def handleGet (env : Env W) (now : DateTime) : Server W Unit := do
  let sessionId := (← get).sessionId
  if sessionId ≠ 0 then
    try
      let documentName := (← readLine).getD []
      if documentName = [] then sendError env (lit "No document name provided.")
      else
        let documentContents ←
          sessionTable fun table => table.getSessionValue now sessionId documentName
        if documentContents.getD [] = [] then
          sendError env (lit "Document was empty or does not exist")
        else sendDocument env documentName (documentContents.getD [])
    catch ex => sendError env ex.message
  else sendError env (lit "No session open. Cannot perform GET.")

/-- Where a posted document goes: to a file, or into the session. -/
def storeDocument (env : Env W) (now : DateTime) (documentName documentContent : Str) :
    Server W Unit := do
  if env.startsWithSlash documentName then
    writeAllText env (pathCombine env.toHost env.currentDirectory
      (documentName.dropWhile (· == 0x2F))) documentContent
  else
    let sessionId := (← get).sessionId
    sessionTable fun table =>
      (table.putSessionValue now sessionId documentName documentContent).map
        fun table => ((), table)

def handlePost (env : Env W) (now : DateTime) : Server W Unit := do
  let documentName := (← readLine).getD []
  if documentName = [] then sendError env (lit "Missing document name.")
  else
    match parseInt (← readLine) with
    | none => sendError env (lit "Invalid document length.")
    | some documentLength =>
      -- outside of the try block
      let documentContent ← receiveDocument env documentLength
      try
        storeDocument env now documentName documentContent
        sendSuccess env
      catch ex => sendError env (lit "Post failed: " ++ ex.message)

/-- One pass of the loop in `Run`; the answer is the flag `done`. -/
def loopBody (env : Env W) (now : DateTime) : Server W Bool := do
  match ← readLine with
  | none => return true
  | some msg =>
    if msg = [] then return true
    else if msg = lit "open" then
      handleOpen env now
      return false
    else if msg = lit "resume" then
      handleResume env
      return false
    else if msg = lit "close" then
      handleClose env
      return false
    else if msg = lit "get" then
      handleGet env now
      return false
    else if msg = lit "post" then
      handlePost env now
      return false
    else
      sendError env (lit "Invalid message: " ++ msg)
      return true

/-- What happens around one pass: the clock, and what other connections and the
    cleanup loop have done to the session table. -/
structure Tick where
  now : DateTime
  others : SessionTable → SessionTable

/-- The loop of `Run`, which answers `false` when the fuel runs out before it ends. -/
def loop (env : Env W) (ticks : ℕ → Tick) : ℕ → ℕ → Server W Bool
  | 0, _ => pure false
  | fuel + 1, k => do
    modify fun σ => { σ with table := (ticks k).others σ.table }
    let done ← loopBody env (ticks k).now
    if done then pure true else loop env ticks fuel (k + 1)

/-- `Run`, with fuel for one pass for each character and a last one. -/
def run (env : Env W) (ticks : ℕ → Tick) : Server W Bool := do
  let fuel := (← get).reader.chars.length + 1
  try loop env ticks fuel 0
  catch ex =>
    match ex.kind with
    | .socket | .io => pure true
    | _ => throw ex

end NetServices.SDServer
