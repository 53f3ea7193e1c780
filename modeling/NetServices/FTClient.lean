import NetServices.BinaryFormat
import NetServices.PRSMessage
import NetServices.TextReader

set_option autoImplicit false

/-!
# The file transfer client

`FTClient.cs`: `GetDirectory` on a connected client, with `ReceiveFile` as a
program that reads. A name is decoded whole, as a name that is cut by the stream
is when its bytes are well-formed.
-/
namespace NetServices.FTClient
open BinaryFormat (Reading Failure raise readExactly read7BitEncodedInt readInt32 readBytes)
open PRSMessage (utf8GetString)
open Utf16 (Str lit)

structure Platform where
  newLine : Str
  isNewLine : TextReader.IsNewLine newLine
  currentDirectory : Str
  isPathRooted : Str → Bool
  endsInSeparator : Str → Bool
  directorySeparator : UInt16

def pathCombine (platform : Platform) (path1 path2 : Str) : Str :=
  if path2 = [] then path1
  else if path1 = [] || platform.isPathRooted path2 then path2
  else if platform.endsInSeparator path1 then path1 ++ path2
  else path1 ++ platform.directorySeparator :: path2

/-- `Encoding.ASCII`, which replaces every other character. -/
def asciiGetBytes (s : Str) : List UInt8 :=
  s.map fun u => if u.toNat < 0x80 then UInt8.ofNat u.toNat else 0x3F

def sendGet (platform : Platform) (directoryName : Str) : List UInt8 :=
  asciiGetBytes (lit "get " ++ directoryName ++ platform.newLine)

def readString : Reading Str := do
  let length ← read7BitEncodedInt
  if length < 0 then raise .io
  else
    let bytes ← readExactly length.toNat
    pure (utf8GetString bytes)

/-- What `ReceiveFile` reads: the name of a file and its contents. -/
def readFile : Reading (Str × List UInt8) := do
  let fileName ← readString
  let fileLength ← readInt32
  let fileContents ← readBytes fileLength
  pure (fileName, fileContents)

/-- Where `ReceiveFile` writes a file. -/
def localFilePath (platform : Platform) (directoryName fileName : Str) : Str :=
  pathCombine platform (pathCombine platform platform.currentDirectory directoryName) fileName

inductive Status where
  | receiving
  | returned
  | raised (e : Failure)
deriving DecidableEq

/-- How `CreateDirectory` and `WriteAllBytes` end for a file. Neither raises the exception that
    `ReceiveFile` catches. If one of them raises, a file can be left all the same, with some of
    the contents or none. -/
inductive Write where
  | written
  | raised (e : Failure) (uncaught : e ≠ .endOfStream) (left : Option (List UInt8))

/-- The contents of the file that is left. -/
def Write.left (fileContents : List UInt8) : Write → Option (List UInt8)
  | .written => some fileContents
  | .raised _ _ left => left

/-- Whether the loop goes on after the write. -/
def Write.status : Write → Status
  | .written => .receiving
  | .raised e _ _ => .raised e

/-- The local file system, by the files that were written before, a path and contents. -/
def LocalDisk := List (Str × List UInt8) → Str → List UInt8 → Write

/-- The file system that takes every file. -/
def LocalDisk.writable : LocalDisk := fun _ _ _ => .written

/-- `GetDirectory` after its request: what has come and is not read, the files
    that were written, and whether the loop has been left. -/
structure Client where
  stream : List UInt8
  written : List (Str × List UInt8)
  status : Status
deriving DecidableEq

/-- One round of the loop; `none` while `ReceiveFile` waits for more. -/
def receiveFile (disk : LocalDisk) (platform : Platform) (directoryName : Str) (closed : Bool)
    (client : Client) : Option Client :=
  match client.status with
  | .receiving =>
    match readFile closed client.stream with
    | .done (fileName, fileContents) rest =>
      let path := localFilePath platform directoryName fileName
      let write := disk client.written path fileContents
      some {
        stream := rest
        written := client.written ++ ((write.left fileContents).map (path, ·)).toList
        status := write.status }
    | .blocked => none
    | .raised .endOfStream => some { client with status := .returned }
    | .raised e => some { client with status := .raised e }
  | .returned | .raised _ => none

/-- The loop of `GetDirectory` on what has come. -/
def receiveFiles (disk : LocalDisk) (platform : Platform) (directoryName : Str) (closed : Bool) :
    ℕ → Client → Client
  | 0, client => client
  | fuel + 1, client =>
    match receiveFile disk platform directoryName closed client with
    | some client => receiveFiles disk platform directoryName closed fuel client
    | none => client

/-- `GetDirectory` on the whole stream of a connection up to its end. A file takes at
    least five bytes, so there is fuel for every file and the end. -/
def getDirectory (disk : LocalDisk) (platform : Platform) (directoryName : Str)
    (stream : List UInt8) : Client :=
  receiveFiles disk platform directoryName true (stream.length + 1) ⟨stream, [], .receiving⟩

section
variable {platform : Platform} {directoryName : Str} {closed : Bool} {client : Client}

theorem receiveFile_written {disk : LocalDisk} {fileName : Str} {fileContents rest : List UInt8}
    (hreceiving : client.status = .receiving)
    (hread : readFile closed client.stream = .done (fileName, fileContents) rest)
    (hwritten : disk client.written (localFilePath platform directoryName fileName) fileContents =
      .written) :
    receiveFile disk platform directoryName closed client = some ⟨rest,
      client.written ++ [(localFilePath platform directoryName fileName, fileContents)],
      .receiving⟩ := by
  rw [receiveFile, hreceiving]
  simp only [hread, hwritten]
  rfl

/-- Whether `ReceiveFile` waits does not depend on the disk. -/
theorem receiveFile_eq_none_iff (disk disk' : LocalDisk) :
    receiveFile disk platform directoryName closed client = none ↔
      receiveFile disk' platform directoryName closed client = none := by
  rw [receiveFile, receiveFile]
  cases client.status with
  | receiving =>
    cases readFile closed client.stream with
    | done file rest => exact iff_of_false (fun h => by cases h) fun h => by cases h
    | blocked => exact Iff.rfl
    | raised e => cases e <;> exact Iff.rfl
  | returned | raised => exact Iff.rfl

theorem Write.status_ne_returned (write : Write) : write.status ≠ .returned := by
  cases write with
  | written => exact fun h => by cases h
  | raised e uncaught left => exact fun h => by cases h

end

end NetServices.FTClient
