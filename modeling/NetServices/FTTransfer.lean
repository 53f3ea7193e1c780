import NetServices.FTClient
import NetServices.FTConversation
import NetServices.PRSMessageCodec

set_option autoImplicit false

/-!
# The transfer of a directory

The client reads every record back. The trailers that follow are text, which it
takes for the start of one more record: their first letter asks for a name
longer than all that is left, so that no file comes of them.
-/
namespace NetServices.FTClient
open BinaryFormat (Reads read7Bits read7BitEncodedInt readExactly bind_run)
open FTServer (File Disk sendFile writeString sendDone sendError directory run)
open PRSMessage (utf8GetBytes utf8GetString utf8GetString_getBytes)
open TextReader (Reader)
open Utf16 (Str lit)

/-- The files of a directory, with names under which a client can write them. -/
structure Listing (platform : Platform) (files : List File) : Prop where
  distinct : (files.map File.name).Nodup
  wellFormed : ∀ file ∈ files, Utf16.WellFormed file.name
  named : ∀ file ∈ files, file.name ≠ []
  relative : ∀ file ∈ files, platform.isPathRooted file.name = false
  shortName : ∀ file ∈ files, (utf8GetBytes file.name).length < 0x80000000
  short : ∀ file ∈ files, file.bytes.length < 0x80000000

/-- The name under which the record of a file is read: what UTF-8 keeps of its name. -/
def recordName (file : File) : Str := utf8GetString (utf8GetBytes file.name)

theorem recordName_eq {file : File} (h : Utf16.WellFormed file.name) :
    recordName file = file.name :=
  utf8GetString_getBytes h

theorem readString_reads {s : Str} (hshort : (utf8GetBytes s).length < 0x80000000) :
    Reads readString (writeString s) (utf8GetString (utf8GetBytes s)) := by
  refine (BinaryFormat.read7BitEncodedInt_reads hshort).bind ?_
  rw [if_neg (Int.not_lt.mpr (Int.natCast_nonneg _)), Int.toNat_natCast]
  exact (BinaryFormat.readExactly_reads (utf8GetBytes s)).map utf8GetString

/-- A record is read back as the file that was sent. -/
theorem readFile_record {file : File} (hname : (utf8GetBytes file.name).length < 0x80000000)
    (hbytes : file.bytes.length < 0x80000000) :
    Reads readFile (sendFile file) (recordName file, file.bytes) := by
  rw [sendFile, List.append_assoc]
  exact (readString_reads hname).bind ((BinaryFormat.readInt32_reads hbytes).bind
    ((BinaryFormat.readBytes_reads file.bytes).map fun fileContents =>
      (recordName file, fileContents)))

theorem readFile_reads {file : File} (h : Utf16.WellFormed file.name)
    (hname : (utf8GetBytes file.name).length < 0x80000000)
    (hbytes : file.bytes.length < 0x80000000) :
    Reads readFile (sendFile file) (file.name, file.bytes) := by
  have hread := readFile_record hname hbytes
  rwa [recordName_eq h] at hread

/-- A first byte that stands for more than what is left of the stream. -/
theorem readFile_short {b : UInt8} {rest : List UInt8} (hb : b.toNat < 0x80)
    (hrest : rest.length < b.toNat) : readFile true (b :: rest) = .raised .endOfStream := by
  have hlength : read7BitEncodedInt true (b :: rest) = .done (b.toNat : ℤ) rest := by
    have hbits : read7Bits 4 true (b :: rest) = .done b.toNat rest := by
      rw [read7Bits, bind_run]
      simp only [BinaryFormat.readByte]
      rw [if_pos hb]
      rfl
    rw [read7BitEncodedInt, bind_run, hbits, ← BinaryFormat.toInt32_of_lt (by omega)]
    rfl
  have hstring : readString true (b :: rest) = .raised .endOfStream := by
    rw [readString, bind_run, hlength]
    simp only
    rw [if_neg (Int.not_lt.mpr (Int.natCast_nonneg _)), Int.toNat_natCast, bind_run, readExactly,
      if_neg (Nat.not_le.mpr hrest)]
    rfl
  rw [readFile, bind_run, hstring]

theorem readFile_trailer (server : FTServer.Platform) :
    readFile true (sendDone server ++ sendError server (lit "Invalid command.")) =
      .raised .endOfStream := by
  rw [sendDone, sendError]
  rcases server.isNewLine with h | h <;> rw [h]
  · exact readFile_short (b := 0x64) (by decide) (by decide)
  · exact readFile_short (b := 0x64) (by decide) (by decide)

variable (platform : Platform) (directoryName : Str)

def localFile (file : File) : Str × List UInt8 :=
  (localFilePath platform directoryName file.name, file.bytes)

theorem receiveFiles_returned (closed : Bool) (fuel : ℕ) (stream : List UInt8)
    (written : List (Str × List UInt8)) :
    receiveFiles .writable platform directoryName closed fuel ⟨stream, written, .returned⟩ =
      ⟨stream, written, .returned⟩ := by
  cases fuel <;> rfl

theorem receiveFiles_done {disk : LocalDisk} {closed : Bool} {fuel : ℕ} {stream : List UInt8}
    {written : List (Str × List UInt8)} {fileName : Str} {fileContents rest : List UInt8}
    (hread : readFile closed stream = .done (fileName, fileContents) rest)
    (hwritten : disk written (localFilePath platform directoryName fileName) fileContents =
      .written) :
    receiveFiles disk platform directoryName closed (fuel + 1) ⟨stream, written, .receiving⟩ =
      receiveFiles disk platform directoryName closed fuel ⟨rest,
        written ++ [(localFilePath platform directoryName fileName, fileContents)],
        .receiving⟩ := by
  rw [receiveFiles, receiveFile_written rfl hread hwritten]

/-- The loop writes the files in order and is left at the trailer. -/
theorem receiveFiles_records {files : List File} (hfiles : Listing platform files)
    {trailer : List UInt8} (htrailer : readFile true trailer = .raised .endOfStream) {fuel : ℕ}
    (hfuel : files.length < fuel) (written : List (Str × List UInt8)) :
    receiveFiles .writable platform directoryName true fuel
      ⟨files.flatMap sendFile ++ trailer, written, .receiving⟩ =
        ⟨trailer, written ++ files.map (localFile platform directoryName), .returned⟩ := by
  obtain ⟨-, hwell, -, -, hname, hbytes⟩ := hfiles
  induction files generalizing fuel written with
  | nil =>
    obtain ⟨fuel, rfl⟩ := Nat.exists_eq_succ_of_ne_zero (Nat.ne_zero_of_lt hfuel)
    rw [Nat.succ_eq_add_one, receiveFiles, receiveFile, List.flatMap_nil, List.nil_append, htrailer,
      List.map_nil, List.append_nil]
    exact receiveFiles_returned platform directoryName true fuel trailer written
  | cons file files ih =>
    obtain ⟨fuel, rfl⟩ := Nat.exists_eq_succ_of_ne_zero (Nat.ne_zero_of_lt hfuel)
    have hread := readFile_reads (hwell file List.mem_cons_self) (hname file List.mem_cons_self)
      (hbytes file List.mem_cons_self) true (files.flatMap sendFile ++ trailer)
    have hrest := ih (Nat.lt_of_succ_lt_succ hfuel)
      (written ++ [localFile platform directoryName file])
      (fun f hf => hwell f (List.mem_cons_of_mem file hf))
      (fun f hf => hname f (List.mem_cons_of_mem file hf))
      (fun f hf => hbytes f (List.mem_cons_of_mem file hf))
    rw [List.append_assoc, List.singleton_append] at hrest
    rw [Nat.succ_eq_add_one, List.flatMap_cons, List.append_assoc,
      receiveFiles_done platform directoryName hread rfl]
    exact hrest

theorem sendFile_ne_nil (file : File) : sendFile file ≠ [] := by
  intro h
  have hlength := congrArg List.length h
  simp only [sendFile, BinaryFormat.writeInt32, List.length_append, List.length_cons,
    List.length_nil] at hlength
  omega

theorem length_le_records (files : List File) : files.length ≤ (files.flatMap sendFile).length := by
  induction files with
  | nil => exact Nat.le_refl _
  | cons file files ih =>
    have hpos := List.length_pos_iff.mpr (sendFile_ne_nil file)
    rw [List.flatMap_cons, List.length_append, List.length_cons]
    omega

theorem pathCombine_injective (path1 : Str) {name name' : Str} (hname : name ≠ [])
    (hname' : name' ≠ []) (hrel : platform.isPathRooted name = false)
    (hrel' : platform.isPathRooted name' = false)
    (h : pathCombine platform path1 name = pathCombine platform path1 name') : name = name' := by
  unfold pathCombine at h
  rw [if_neg hname, if_neg hname', hrel, hrel', Bool.or_false] at h
  split_ifs at h
  · exact h
  · exact List.append_cancel_left h
  · exact (List.cons.inj (List.append_cancel_left h)).2

theorem localFile_nodup {files : List File} (hfiles : Listing platform files) :
    ((files.map (localFile platform directoryName)).map Prod.fst).Nodup := by
  rw [List.map_map]
  have hinjective : ∀ file ∈ files, ∀ file' ∈ files,
      localFilePath platform directoryName file.name =
        localFilePath platform directoryName file'.name → file.name = file'.name :=
    fun file hfile file' hfile' => pathCombine_injective platform _ (hfiles.named file hfile)
      (hfiles.named file' hfile') (hfiles.relative file hfile) (hfiles.relative file' hfile')
  have hpairs := List.pairwise_map.mp hfiles.distinct
  exact List.pairwise_map.mpr (hpairs.imp_of_mem fun hfile hfile' hne heq =>
    hne (hinjective _ hfile _ hfile' heq))

/-- All that `Run` sends for a directory that exists, the first thing that it is asked
    for, is read by `GetDirectory` as the files of the directory: each is written once,
    under its name and with its contents, and nothing else is. The client can write files. -/
theorem transfer_faithful (server : FTServer.Platform) (client : Platform) (disks : ℕ → Disk)
    (r : Reader) {message : Str} {r' : Reader} (hread : r.readLine = (some message, r'))
    (hget : server.startsWithGet message = true) {files : List File}
    (hfound : disks 0 (directory message) = some files) (hfiles : Listing client files)
    (directoryName : Str) :
    ∃ answer, run server disks r = some [(message, answer)] ∧
      (getDirectory .writable client directoryName answer).written =
        files.map (fun file => (localFilePath client directoryName file.name, file.bytes)) ∧
      ((getDirectory .writable client directoryName answer).written.map Prod.fst).Nodup ∧
      (getDirectory .writable client directoryName answer).status = .returned := by
  refine ⟨files.flatMap sendFile ++ sendDone server ++ sendError server (lit "Invalid command."),
    ?_, ?_⟩
  · rw [run, FTServer.loop, hread]
    simp only [FTServer.loopBody_found hget hfound, if_true]
  · have hrecords := length_le_records files
    have hresult : getDirectory .writable client directoryName
        (files.flatMap sendFile ++ sendDone server ++ sendError server (lit "Invalid command.")) =
          ⟨sendDone server ++ sendError server (lit "Invalid command."),
            [] ++ files.map (localFile client directoryName), .returned⟩ := by
      rw [getDirectory, List.append_assoc]
      refine receiveFiles_records client directoryName hfiles (readFile_trailer server) ?_ []
      rw [List.length_append]
      omega
    rw [hresult, List.nil_append]
    exact ⟨rfl, localFile_nodup client directoryName hfiles, rfl⟩

/-- A platform whose paths are separated by slashes. -/
def Platform.slashed : Platform where
  newLine := lit "\n"
  isNewLine := TextReader.isNewLine_lf
  currentDirectory := lit "/home"
  isPathRooted path := path.head? == some 0x2F
  endsInSeparator path := path.getLast? == some 0x2F
  directorySeparator := 0x2F

/-- Two files, of which one is empty, in a request that follows nothing. -/
theorem transfer_faithful_two :
    let disks : ℕ → Disk := fun _ name =>
      if name = lit "d" then some [⟨lit "a", [0x64, 0x00]⟩, ⟨lit "b.txt", []⟩] else none
    ∃ answer, run .ordinal disks ⟨lit "get d\n", []⟩ = some [(lit "get d", answer)] ∧
      (getDirectory .writable .slashed (lit "d") answer).written =
        [(lit "/home/d/a", [0x64, 0x00]), (lit "/home/d/b.txt", [])] ∧
      ((getDirectory .writable .slashed (lit "d") answer).written.map Prod.fst).Nodup ∧
      (getDirectory .writable .slashed (lit "d") answer).status = .returned := by
  intro disks
  have hread : (⟨lit "get d\n", []⟩ : Reader).readLine = (some (lit "get d"), ⟨[], []⟩) := by decide
  have hfiles : Listing .slashed [⟨lit "a", [0x64, 0x00]⟩, ⟨lit "b.txt", []⟩] :=
    ⟨by decide, List.forall_mem_cons.mpr ⟨Utf16.wellFormed_lit "a",
      List.forall_mem_singleton.mpr (Utf16.wellFormed_lit "b.txt")⟩,
      by decide, by decide, by decide, by decide⟩
  exact transfer_faithful .ordinal .slashed disks ⟨lit "get d\n", []⟩ hread rfl
    (show disks 0 (directory (lit "get d")) = some _ from if_pos (by decide)) hfiles (lit "d")

end NetServices.FTClient
