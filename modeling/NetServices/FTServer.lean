import NetServices.BinaryFormat
import NetServices.PRSMessage
import NetServices.TextReader

set_option autoImplicit false

/-!
# One connection of the file transfer server

`FTConnectedClient.cs`: the loop of `Run` with the records and lines it sends.
Files are readable and the connection takes what is sent; how the platform
compares strings is a parameter.
-/
namespace NetServices.FTServer
open BinaryFormat (write7BitEncodedInt writeInt32)
open PRSMessage (utf8GetBytes)
open TextReader (Reader)
open Utf16 (Str lit trim)

def toUpper (u : UInt16) : UInt16 := if 0x61 ≤ u ∧ u ≤ 0x7A then u - 0x20 else u

/-- The ordinal comparison with `exit` that ignores case. -/
def isExit (message : Str) : Bool := message.map toUpper == lit "EXIT"

structure Platform where
  newLine : Str
  isNewLine : TextReader.IsNewLine newLine
  /-- The culture-sensitive `StartsWith("get ")`. -/
  startsWithGet : Str → Bool
  get_length : ∀ message, startsWithGet message = true → 4 ≤ message.length
  get_ne_exit : ∀ message, startsWithGet message = true → isExit message = false

structure File where
  name : Str
  bytes : List UInt8
deriving DecidableEq

/-- The files of every directory that exists, each with its name. -/
abbrev Disk := Str → Option (List File)

/-- The directory that a `get` asks for. -/
def directory (message : Str) : Str := trim (message.drop 4)

/-- `BinaryWriter.Write` of a string. -/
def writeString (s : Str) : List UInt8 :=
  write7BitEncodedInt 5 (utf8GetBytes s).length ++ utf8GetBytes s

def sendFile (file : File) : List UInt8 :=
  writeString file.name ++ writeInt32 file.bytes.length ++ file.bytes

def sendDone (platform : Platform) : List UInt8 := utf8GetBytes (lit "done" ++ platform.newLine)

def sendError (platform : Platform) (errorMessage : Str) : List UInt8 :=
  utf8GetBytes (lit "error " ++ errorMessage ++ platform.newLine)

/-- What a pass sends, and whether it leaves the loop. -/
structure Reply where
  sent : List UInt8
  done : Bool
deriving DecidableEq

/-- The end of a pass. A `get` that was answered comes here too. -/
def endPass (platform : Platform) (message : Str) (sent : List UInt8) : Reply :=
  if isExit message then ⟨sent, true⟩
  else ⟨sent ++ sendError platform (lit "Invalid command."), true⟩

/-- One pass of the loop in `Run` on a line that was read. -/
def loopBody (platform : Platform) (disk : Disk) (message : Str) : Reply :=
  if platform.startsWithGet message then
    match disk (directory message) with
    | none => ⟨sendError platform (lit "Directory does not exist."), false⟩
    | some files => endPass platform message (files.flatMap sendFile ++ sendDone platform)
  else endPass platform message []

/-- The loop of `Run` with the disk at each pass: the lines that are read, each with
    what is sent after it. `none` is the fuel running out. -/
def loop (platform : Platform) (disks : ℕ → Disk) :
    ℕ → ℕ → Reader → Option (List (Str × List UInt8))
  | 0, _, _ => none
  | fuel + 1, k, r =>
    match r.readLine with
    | (none, _) => some []
    | (some message, r) =>
      let reply := loopBody platform (disks k) message
      if reply.done then some [(message, reply.sent)]
      else (loop platform disks fuel (k + 1) r).map ((message, reply.sent) :: ·)

/-- `Run` on a connection, with fuel for one pass for each character and a last one. -/
def run (platform : Platform) (disks : ℕ → Disk) (r : Reader) :
    Option (List (Str × List UInt8)) :=
  loop platform disks (r.chars.length + 1) 0 r

end NetServices.FTServer
