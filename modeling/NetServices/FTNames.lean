import NetServices.FTSystem
import NetServices.FTBroken
import NetServices.Paths

set_option autoImplicit false

/-!
# What becomes of names

The name of a file comes from the server and is followed from the local folder as it
is. The name of a directory goes to the server in ASCII and is read as UTF-8.
-/
namespace NetServices.FTClient
open BinaryFormat (Takes)
open FTServer (Disk directory loopBody endPass sendDone sendError sendFile)
open FTSystem (asciiGetBytes_ascii utf8GetString_append)
open Paths (Rules Child slashed)
open PRSMessage (utf8GetString)
open TextReader (Reader IsLine)
open Utf16 (Str lit trim)

/-- The platform reads paths by the rules, and its current directory is a full path. -/
def Platform.Follows {V ν : Type} (platform : Platform) (rules : Rules UInt16 V ν) : Prop :=
  rules.Describes platform.directorySeparator platform.isPathRooted platform.endsInSeparator
    platform.currentDirectory

theorem pathCombine_eq {V ν : Type} {platform : Platform} {rules : Rules UInt16 V ν}
    (h : platform.Follows rules) (path1 path2 : Str) :
    pathCombine platform path1 path2 = rules.combine path1 path2 :=
  Rules.Describes.combine h path1 path2

/-- The folder for the files of a directory. -/
def localFolder (platform : Platform) (directoryName : Str) : Str :=
  pathCombine platform platform.currentDirectory directoryName

/-- `ReceiveFile` gets to a record with the name, and its write leaves a file. -/
inductive Lands (disk : LocalDisk) (platform : Platform) (directoryName : Str) :
    List (Str × List UInt8) → List UInt8 → Str → Prop where
  | first {written : List (Str × List UInt8)} {stream rest contents : List UInt8} {name : Str}
      (read : readFile true stream = .done (name, contents) rest)
      (left : ((disk written (localFilePath platform directoryName name) contents).left
        contents).isSome = true) :
      Lands disk platform directoryName written stream name
  | later {written : List (Str × List UInt8)} {stream rest contents : List UInt8}
      {name name' : Str} (read : readFile true stream = .done (name, contents) rest)
      (writes : disk written (localFilePath platform directoryName name) contents = .written)
      (later : Lands disk platform directoryName
        (written ++ [(localFilePath platform directoryName name, contents)]) rest name') :
      Lands disk platform directoryName written stream name'

theorem readFile_takes : Takes 1 readFile := by
  have hstring : Takes (1 + 0) readString := by
    refine BinaryFormat.read7BitEncodedInt_takes.bind fun length => ?_
    split_ifs
    · exact .raise 0 _
    · intro closed bytes a rest h
      have htakes := ((BinaryFormat.readExactly_takes length.toNat).bind fun _ => .pure _)
        closed bytes a rest h
      omega
  have hcontents : ∀ (fileName : Str) (fileLength : ℤ), Takes (0 + 0) (do
      let fileContents ← BinaryFormat.readBytes fileLength
      pure (fileName, fileContents)) :=
    fun _ _ => (BinaryFormat.readBytes_takes _).bind fun _ => .pure _
  intro closed bytes a rest h
  have htakes := (hstring.bind fun fileName =>
    BinaryFormat.readInt32_takes.bind (hcontents fileName)) closed bytes a rest h
  omega

section
variable (disk : LocalDisk) (platform : Platform) (directoryName : Str)

theorem lands_iff {written : List (Str × List UInt8)} {stream rest : List UInt8} {name : Str}
    {contents : List UInt8} (read : readFile true stream = .done (name, contents) rest)
    (name' : Str) :
    Lands disk platform directoryName written stream name' ↔
      name' = name ∧ ((disk written (localFilePath platform directoryName name) contents).left
          contents).isSome = true ∨
        disk written (localFilePath platform directoryName name) contents = .written ∧
          Lands disk platform directoryName
            (written ++ [(localFilePath platform directoryName name, contents)]) rest name' := by
  constructor
  · intro h
    cases h with
    | first read' left =>
      rw [read] at read'
      cases read'
      exact .inl ⟨rfl, left⟩
    | later read' writes later =>
      rw [read] at read'
      cases read'
      exact .inr ⟨writes, later⟩
  · rintro (⟨rfl, left⟩ | ⟨writes, later⟩)
    · exact .first read left
    · exact .later read writes later

theorem not_lands {written : List (Str × List UInt8)} {stream : List UInt8}
    (h : ∀ record rest, readFile true stream ≠ .done record rest) (name : Str) :
    ¬ Lands disk platform directoryName written stream name := by
  intro hlands
  cases hlands with
  | first read left => exact h _ _ read
  | later read writes later => exact h _ _ read

theorem receiveFiles_stopped {client : Client} (h : client.status ≠ .receiving) (closed : Bool)
    (fuel : ℕ) : receiveFiles disk platform directoryName closed fuel client = client := by
  cases fuel with
  | zero => rfl
  | succ fuel =>
    rw [receiveFiles, receiveFile]
    cases hstatus : client.status with
    | receiving => exact absurd hstatus h
    | returned | raised => rfl

/-- A write that raises ends the loop. -/
theorem receiveFiles_unwritten {fuel : ℕ} {stream rest : List UInt8}
    {written : List (Str × List UInt8)} {name : Str} {contents : List UInt8}
    (read : readFile true stream = .done (name, contents) rest) {e : BinaryFormat.Failure}
    {uncaught : e ≠ .endOfStream} {left : Option (List UInt8)}
    (raises : disk written (localFilePath platform directoryName name) contents =
      .raised e uncaught left) :
    (receiveFiles disk platform directoryName true (fuel + 1)
      ⟨stream, written, .receiving⟩).written =
        written ++ (left.map (localFilePath platform directoryName name, ·)).toList := by
  rw [receiveFiles, receiveFile]
  simp only [read, raises, Write.left, Write.status]
  rw [receiveFiles_stopped disk platform directoryName fun h => by cases h]

/-- A stream on which there is no record leaves nothing written. -/
theorem receiveFiles_unread {stream : List UInt8}
    (h : ∀ record rest, readFile true stream ≠ .done record rest) (fuel : ℕ)
    (written : List (Str × List UInt8)) :
    (receiveFiles disk platform directoryName true fuel ⟨stream, written, .receiving⟩).written =
      written := by
  cases fuel with
  | zero => rfl
  | succ fuel =>
    rw [receiveFiles, receiveFile]
    cases hread : readFile true stream with
    | done record rest => exact absurd hread (h record rest)
    | blocked => rfl
    | raised e =>
      cases e <;> exact congrArg Client.written
        (receiveFiles_stopped disk platform directoryName (fun h => by cases h) true fuel)

theorem receiveFiles_paths {fuel : ℕ} {stream : List UInt8} (hfuel : stream.length < fuel)
    (written : List (Str × List UInt8)) (path : Str) :
    (∃ contents, (path, contents) ∈ (receiveFiles disk platform directoryName true fuel
      ⟨stream, written, .receiving⟩).written) ↔
      (∃ contents, (path, contents) ∈ written) ∨
        ∃ name, Lands disk platform directoryName written stream name ∧
          path = localFilePath platform directoryName name := by
  induction fuel generalizing stream written with
  | zero => cases hfuel
  | succ fuel ih =>
    by_cases hrecord : ∃ record rest, readFile true stream = .done record rest
    · obtain ⟨⟨name, contents⟩, rest, hread⟩ := hrecord
      have hshorter := readFile_takes true stream _ rest hread
      cases hdisk : disk written (localFilePath platform directoryName name) contents with
      | written =>
        rw [receiveFiles_done platform directoryName hread hdisk, ih (by omega)]
        simp only [lands_iff disk platform directoryName hread, hdisk, Write.left,
          Option.isSome_some, and_true, true_and, List.mem_append, List.mem_singleton,
          Prod.mk.injEq, exists_or, or_and_right, exists_eq_left, exists_and_left, exists_eq,
          or_assoc]
      | raised e uncaught left =>
        have hstays : Write.raised e uncaught left ≠ .written := by intro h; cases h
        rw [receiveFiles_unwritten disk platform directoryName hread hdisk]
        simp only [lands_iff disk platform directoryName hread, hdisk, Write.left, hstays,
          false_and, or_false, List.mem_append, Option.mem_toList, Option.map_eq_some_iff,
          Prod.mk.injEq, exists_or, exists_eq_right_right, and_assoc, exists_eq_left]
        cases left <;> simp [eq_comm]
    · have hnone : ∀ record rest, readFile true stream ≠ .done record rest :=
        fun record rest hread => hrecord ⟨record, rest, hread⟩
      rw [receiveFiles_unread disk platform directoryName hnone]
      simp [not_lands disk platform directoryName hnone]

theorem getDirectory_paths (stream : List UInt8) (path : Str) :
    (∃ contents, (path, contents) ∈
        (getDirectory disk platform directoryName stream).written) ↔
      ∃ name, Lands disk platform directoryName [] stream name ∧
        path = localFilePath platform directoryName name := by
  rw [getDirectory, receiveFiles_paths disk platform directoryName (Nat.lt_succ_self _) [] path]
  simp

variable {platform} {directoryName}

/-- The files that are received, from whatever stream and on whatever disk, lie directly in
    the folder of the directory exactly if every name under which one lands, followed from
    there, enters one name. -/
theorem received_child_iff {V ν : Type} {rules : Rules UInt16 V ν} (h : platform.Follows rules)
    (hfull : platform.isPathRooted directoryName = true → rules.Extends directoryName)
    (stream : List UInt8) :
    (∀ x ∈ (getDirectory disk platform directoryName stream).written,
        Child (rules.locate (localFolder platform directoryName)) (rules.locate x.1)) ↔
      ∀ name, Lands disk platform directoryName [] stream name →
        rules.Enters (rules.locate (localFolder platform directoryName)) name := by
  have hchild : ∀ name, Child (rules.locate (localFolder platform directoryName))
      (rules.locate (localFilePath platform directoryName name)) ↔
        rules.Enters (rules.locate (localFolder platform directoryName)) name := by
    intro name
    rw [h.rooted_eq] at hfull
    rw [localFilePath, ← localFolder, pathCombine_eq h, localFolder, pathCombine_eq h]
    exact Rules.child_combine_iff (Rules.combine_ne_nil h.current_ne_nil)
      (Rules.combine_extends h.current_ne_nil h.current_extends hfull)
  constructor
  · intro hall name hlands
    obtain ⟨contents, hwritten⟩ :=
      (getDirectory_paths disk platform directoryName stream _).mpr ⟨name, hlands, rfl⟩
    exact (hchild name).mp (hall _ hwritten)
  · rintro hall ⟨path, contents⟩ hx
    obtain ⟨name, hlands, rfl⟩ :=
      (getDirectory_paths disk platform directoryName stream path).mp ⟨contents, hx⟩
    exact (hchild name).mpr (hall name hlands)

end

/-- A disk on which the folder above the files is no file. -/
def LocalDisk.folders : LocalDisk := fun _ path _ =>
  if path = lit "/home/d/.." then .raised .unauthorizedAccess (by decide) none else .written

theorem slashed_follows : Platform.slashed.Follows (slashed 0x2F 0x2E) :=
  Paths.slashed_describes _ _ (by decide)

/-- Two records, of which one is in a folder that is left again and one names a folder. -/
theorem received_child_iff_two :
    let stream := [0x06, 0x61, 0x2F, 0x2E, 0x2E, 0x2F, 0x62, 0x00, 0x00, 0x00, 0x00, 0x02, 0x2E,
      0x2E, 0x00, 0x00, 0x00, 0x00]
    (∀ x ∈ (getDirectory .folders .slashed (lit "d") stream).written,
        Child ((slashed 0x2F 0x2E).locate (localFolder .slashed (lit "d")))
          ((slashed 0x2F 0x2E).locate x.1)) ↔
      ∀ name, Lands .folders .slashed (lit "d") [] stream name →
        (slashed 0x2F 0x2E).Enters ((slashed 0x2F 0x2E).locate (localFolder .slashed (lit "d")))
          name :=
  received_child_iff .folders slashed_follows (fun _ => Paths.slashed_extends _ _ _) _

/-- A record whose name leads out of the folder. -/
theorem received_outside :
    let stream := [0x04, 0x2E, 0x2E, 0x2F, 0x78, 0x01, 0x00, 0x00, 0x00, 0x41]
    (getDirectory .writable .slashed (lit "d") stream).written = [(lit "/home/d/../x", [0x41])] ∧
      (slashed 0x2F 0x2E).locate (lit "/home/d/../x") = ((), [lit "home", lit "x"]) ∧
      ¬ ∀ x ∈ (getDirectory .writable .slashed (lit "d") stream).written,
        Child ((slashed 0x2F 0x2E).locate (localFolder .slashed (lit "d")))
          ((slashed 0x2F 0x2E).locate x.1) := by
  intro stream
  have hwritten : (getDirectory .writable .slashed (lit "d") stream).written =
      [(lit "/home/d/../x", [0x41])] := by decide
  have hlocation : (slashed 0x2F 0x2E).locate (lit "/home/d/../x") =
      ((), [lit "home", lit "x"]) := by decide
  refine ⟨hwritten, hlocation, fun h => ?_⟩
  have hmember : (lit "/home/d/../x", [0x41]) ∈
      (getDirectory .writable .slashed (lit "d") stream).written := by
    rw [hwritten]
    exact List.mem_cons_self
  obtain ⟨name, hname⟩ := h _ hmember
  have hfolder : (slashed 0x2F 0x2E).locate (localFolder .slashed (lit "d")) =
      ((), [lit "home", lit "d"]) := by decide
  rw [hlocation, hfolder] at hname
  have hlength : 2 = 3 := congrArg (fun location => location.2.length) hname
  cases hlength

/-- What `Encoding.ASCII` makes of a character, as text. -/
def asciiUnit (u : UInt16) : UInt16 := if u.toNat < 0x80 then u else 0x3F

theorem asciiUnit_lt (u : UInt16) : (asciiUnit u).toNat < 0x80 := by
  rw [asciiUnit]
  split_ifs with hu
  · exact hu
  · decide

theorem asciiUnit_eq_iff (u : UInt16) : asciiUnit u = u ↔ u.toNat < 0x80 :=
  ⟨fun h => h ▸ asciiUnit_lt u, fun h => if_pos h⟩

/-- A byte below 0x80 is read as the character that it was written for. -/
theorem utf8GetString_ascii {u : UInt16} (h : u.toNat < 0x80) :
    utf8GetString [UInt8.ofNat u.toNat] = [u] := by
  have hchar : (Char.ofNat u.toNat).toNat = u.toNat := Utf16.toNat_charOfNat (.inl (by omega))
  have hbyte : String.utf8EncodeChar (Char.ofNat u.toNat) = [UInt8.ofNat u.toNat] := by
    rw [Utf8.encodeChar_one (by omega), hchar]
  have hunit : Utf16.encodeChar (Char.ofNat u.toNat) = [u] := by
    rw [Utf16.encodeChar_small (by omega), hchar, UInt16.ofNat_toNat]
  have hdecode := Utf8.decode_one (c := Char.ofNat u.toNat) [] (by omega)
  rw [hbyte, List.append_nil] at hdecode
  rw [utf8GetString, hdecode, ← hunit]
  exact List.append_nil _

/-- ASCII that is read as UTF-8 has a question mark for every other character. -/
theorem utf8GetString_asciiGetBytes (s : Str) :
    utf8GetString (asciiGetBytes s) = s.map asciiUnit := by
  induction s with
  | nil => rfl
  | cons u s ih =>
    have hbyte : asciiGetBytes [u] = [UInt8.ofNat (asciiUnit u).toNat] := by
      rw [asciiUnit, asciiGetBytes, List.map_singleton]
      split_ifs <;> rfl
    have hsplit : asciiGetBytes (u :: s) = asciiGetBytes [u] ++ asciiGetBytes s := rfl
    rw [hsplit, utf8GetString_append (asciiGetBytes_ascii [u]), hbyte,
      utf8GetString_ascii (asciiUnit_lt u), ih]
    rfl

/-- The directory that `Run` asks `Directory.Exists` for, if the line is a `get`. -/
def askedFor (server : FTServer.Platform) (message : Str) : Option Str :=
  if server.startsWithGet message then some (directory message) else none

theorem loopBody_askedFor (server : FTServer.Platform) (disk : Disk) (message : Str) :
    loopBody server disk message = match askedFor server message with
      | none => endPass server message []
      | some directory =>
        match disk directory with
        | none => ⟨sendError server (lit "Directory does not exist."), false⟩
        | some files => endPass server message (files.flatMap sendFile ++ sendDone server) := by
  rw [loopBody, askedFor]
  split_ifs <;> rfl

theorem asciiUnit_isLine {s : Str} (h : IsLine s) : IsLine (s.map asciiUnit) := by
  have hother : ∀ c ∈ [TextReader.lf, TextReader.cr], c ∉ s → c ∉ s.map asciiUnit := by
    intro c hc hno hmem
    obtain ⟨u, hu, rfl⟩ := List.mem_map.mp hmem
    rw [asciiUnit] at hc hno
    split_ifs at hc hno with hascii
    · exact hno hu
    · exact absurd hc (by decide)
  exact ⟨hother _ List.mem_cons_self h.1,
    hother _ (List.mem_cons_of_mem _ List.mem_cons_self) h.2⟩

theorem readLine_sendGet (client : Platform) {name : Str} (hline : IsLine name) (reads : List ℕ) :
    Reader.readLine ⟨utf8GetString (sendGet client name), reads⟩ =
      (some (lit "get " ++ name.map asciiUnit), ⟨[], reads⟩) := by
  have hrequest : utf8GetString (sendGet client name) =
      lit "get " ++ name.map asciiUnit ++ client.newLine.map asciiUnit := by
    rw [sendGet, utf8GetString_asciiGetBytes, List.map_append, List.map_append]
    rfl
  have hget : IsLine (lit "get " ++ name.map asciiUnit) := by
    obtain ⟨hlf, hcr⟩ := asciiUnit_isLine hline
    refine ⟨fun h => ?_, fun h => ?_⟩
    · exact (List.mem_append.mp h).elim (by decide) hlf
    · exact (List.mem_append.mp h).elim (by decide) hcr
  have hne : lit "get " ++ name.map asciiUnit ++ client.newLine.map asciiUnit ≠ [] :=
    List.append_ne_nil_of_left_ne_nil (List.append_ne_nil_of_left_ne_nil (by decide) _) _
  have hsplit : TextReader.splitLine
      (lit "get " ++ name.map asciiUnit ++ client.newLine.map asciiUnit) =
        (lit "get " ++ name.map asciiUnit, []) := by
    rcases client.isNewLine with h | h <;> rw [h]
    · exact TextReader.splitLine_line hget .lf [] (TextReader.Terminator.lf_apart [])
    · exact TextReader.splitLine_line hget .crlf [] nofun
  rw [hrequest, Reader.readLine, if_neg hne, hsplit]

theorem mem_of_mem_trim {u : UInt16} {s : Str} (h : u ∈ trim s) : u ∈ s :=
  (List.dropWhile_suffix _).subset ((List.rdropWhile_prefix _ _).subset h)

/-- The server looks for the directory that the client has named exactly if the name is
    ASCII. The platform of the server compares ASCII text character by character. -/
theorem asked_for_iff (server : FTServer.Platform) (client : Platform)
    (hget : ∀ text, (∀ u ∈ text, UInt16.toNat u < 0x80) →
      server.startsWithGet (lit "get " ++ text) = true)
    {name : Str} (hline : IsLine name) (htrim : trim name = name) (reads : List ℕ) :
    ∃ message r, Reader.readLine ⟨utf8GetString (sendGet client name), reads⟩ =
        (some message, r) ∧
      (askedFor server message = some name ↔ ∀ u ∈ name, u.toNat < 0x80) := by
  refine ⟨_, _, readLine_sendGet client hline reads, ?_⟩
  have hascii : ∀ u ∈ name.map asciiUnit, u.toNat < 0x80 := by
    intro u hu
    obtain ⟨v, -, rfl⟩ := List.mem_map.mp hu
    exact asciiUnit_lt v
  have hdirectory : directory (lit "get " ++ name.map asciiUnit) = trim (name.map asciiUnit) := rfl
  rw [askedFor, if_pos (hget _ hascii), hdirectory, Option.some.injEq]
  constructor
  · intro hsame u hu
    rw [← hsame] at hu
    exact hascii u (mem_of_mem_trim hu)
  · intro hname
    have hmap : name.map asciiUnit = name :=
      (List.map_congr_left fun u hu => (asciiUnit_eq_iff u).mpr (hname u hu)).trans (List.map_id _)
    rw [hmap, htrim]

theorem asked_for_iff_docs :
    ∃ message r, Reader.readLine ⟨utf8GetString (sendGet .slashed (lit "my docs")), []⟩ =
        (some message, r) ∧
      (askedFor .ordinal message = some (lit "my docs") ↔
        ∀ u ∈ lit "my docs", u.toNat < 0x80) :=
  asked_for_iff .ordinal .slashed (fun _ _ => rfl) (by decide) (by decide) []

/-- A name with an accent is looked up with a question mark. -/
theorem accent_lost :
    Utf16.WellFormed (lit "café") ∧ IsLine (lit "café") ∧ trim (lit "café") = lit "café" ∧
      ∃ message r, Reader.readLine ⟨utf8GetString (sendGet .slashed (lit "café")), []⟩ =
          (some message, r) ∧
        askedFor .ordinal message = some (lit "caf?") ∧
        askedFor .ordinal message ≠ some (lit "café") :=
  ⟨Utf16.wellFormed_lit _, by decide, by decide, lit "get caf?", ⟨[], []⟩, by decide, by decide,
    by decide⟩

end NetServices.FTClient
