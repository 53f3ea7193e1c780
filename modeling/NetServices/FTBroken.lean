import NetServices.FTTransfer
import Mathlib.Data.List.Nodup

set_option autoImplicit false

/-!
# A transfer that breaks off

A record that is cut in its name or its length is dropped. One that is cut in its
contents is written as far as it has come, since `ReadBytes` gives what there is.
-/
namespace NetServices.FTClient
open BinaryFormat (NeedsAll writeInt32 bind_run prefix_append_cases)
open FTServer (File Disk sendFile writeString sendDone sendError directory loopBody)
open PRSMessage (utf8GetBytes)
open Utf16 (Str lit)

/-- What is sent of a file before its contents. -/
def header (file : File) : List UInt8 := writeString file.name ++ writeInt32 file.bytes.length

/-- What is received ends in the contents of a file, after all that comes before them and
    before their last byte. -/
inductive CutsContents : List File → List UInt8 → File → List UInt8 → Prop where
  | here (file : File) (files : List File) (cut : List UInt8) (part : cut <+: file.bytes)
      (missing : cut ≠ file.bytes) : CutsContents (file :: files) (header file ++ cut) file cut
  | later (file : File) (files : List File) (received : List UInt8) (damaged : File)
      (cut : List UInt8) (later : CutsContents files received damaged cut) :
      CutsContents (file :: files) (sendFile file ++ received) damaged cut

/-- A file as it is written for a record with its name. -/
def recordFile (platform : Platform) (directoryName : Str) (file : File) : Str × List UInt8 :=
  (localFilePath platform directoryName (recordName file), file.bytes)

theorem readString_needsAll (s : Str) (hshort : (utf8GetBytes s).length < 0x80000000) :
    NeedsAll readString (writeString s) := by
  refine (BinaryFormat.read7BitEncodedInt_needsAll hshort).bind
    (BinaryFormat.read7BitEncodedInt_reads hshort) ?_
  rw [if_neg (Int.not_lt.mpr (Int.natCast_nonneg _)), Int.toNat_natCast]
  exact (BinaryFormat.readExactly_needsAll _).bind_left _

section
variable {file : File} {cut : List UInt8}

/-- Nothing is written of a file whose name or length is cut. -/
theorem readFile_cutHeader (hname : (utf8GetBytes file.name).length < 0x80000000)
    (hcut : cut <+: header file) (hne : cut ≠ header file) :
    readFile true cut = .raised .endOfStream := by
  have hneeds : NeedsAll readFile (header file) :=
    (readString_needsAll file.name hname).bind (readString_reads hname)
      ((BinaryFormat.readInt32_needsAll file.bytes.length).bind_left _)
  exact hneeds cut hcut hne

/-- A file whose contents are cut is read as far as it has come. -/
theorem readFile_cutContents (hname : (utf8GetBytes file.name).length < 0x80000000)
    (hbytes : file.bytes.length < 0x80000000) (hcut : cut <+: file.bytes) :
    readFile true (header file ++ cut) = .done (recordName file, cut) [] := by
  have hstring := readString_reads hname true (writeInt32 file.bytes.length ++ cut)
  rw [header, List.append_assoc, readFile, bind_run, hstring]
  simp only
  rw [bind_run, BinaryFormat.readInt32_reads hbytes]
  simp only
  rw [bind_run, BinaryFormat.readBytes_cut hcut]
  rfl

end

theorem sendFile_eq (file : File) : sendFile file = header file ++ file.bytes := rfl

section
variable {platform : Platform} {directoryName : Str} {closed : Bool} {fuel : ℕ}
  {stream : List UInt8} {written : List (Str × List UInt8)}

theorem receiveFiles_endOfStream (h : readFile closed stream = .raised .endOfStream) :
    receiveFiles .writable platform directoryName closed (fuel + 1) ⟨stream, written, .receiving⟩ =
      ⟨stream, written, .returned⟩ := by
  rw [receiveFiles, receiveFile, h]
  exact receiveFiles_returned platform directoryName closed fuel stream written

theorem receiveFiles_nil (fuel : ℕ) : (receiveFiles .writable platform directoryName true fuel
    ⟨[], written, .receiving⟩).written = written := by
  cases fuel with
  | zero => rfl
  | succ fuel => rw [receiveFiles_endOfStream rfl]

end

section
variable (platform : Platform) (directoryName : Str) {files : List File}
  {received trailer : List UInt8}

/-- Whole files are written, and what has come of one that is cut. -/
theorem receiveFiles_cut
    (hname : ∀ file ∈ files, (utf8GetBytes file.name).length < 0x80000000)
    (hbytes : ∀ file ∈ files, file.bytes.length < 0x80000000)
    (htrailer : ∀ cut, cut <+: trailer → readFile true cut = .raised .endOfStream)
    (h : received <+: files.flatMap sendFile ++ trailer) (fuel : ℕ)
    (written : List (Str × List UInt8)) :
    ∀ x ∈ (receiveFiles .writable platform directoryName true fuel
        ⟨received, written, .receiving⟩).written,
      x ∈ written ∨ x ∈ files.map (recordFile platform directoryName) ∨
        ∃ file cut, CutsContents files received file cut ∧
          x = (localFilePath platform directoryName (recordName file), cut) := by
  induction files generalizing received fuel written with
  | nil =>
    intro x hx
    cases fuel with
    | zero => exact .inl hx
    | succ fuel =>
      rw [receiveFiles_endOfStream (htrailer received h)] at hx
      exact .inl hx
  | cons file files ih =>
    intro x hx
    have hname' := hname file List.mem_cons_self
    have hbytes' := hbytes file List.mem_cons_self
    cases fuel with
    | zero => exact .inl hx
    | succ fuel =>
      rw [List.flatMap_cons, List.append_assoc] at h
      rcases prefix_append_cases h with ⟨hcut, hne⟩ | ⟨rest, hrest, rfl⟩
      · rw [sendFile_eq] at hcut hne
        rcases prefix_append_cases hcut with ⟨hheader, hne⟩ | ⟨cut, hpart, rfl⟩
        · rw [receiveFiles_endOfStream (readFile_cutHeader hname' hheader hne)] at hx
          exact .inl hx
        · have hread := readFile_cutContents hname' hbytes' hpart
          rw [receiveFiles_done platform directoryName hread rfl, receiveFiles_nil] at hx
          rcases List.mem_append.mp hx with hbefore | hx
          · exact .inl hbefore
          · refine .inr (.inr ⟨file, cut, .here file files cut hpart fun hwhole => ?_,
              List.eq_of_mem_singleton hx⟩)
            exact hne (hwhole ▸ rfl)
      · have hread := readFile_record hname' hbytes' true rest
        rw [receiveFiles_done platform directoryName hread rfl] at hx
        rcases ih (fun f hf => hname f (List.mem_cons_of_mem file hf))
          (fun f hf => hbytes f (List.mem_cons_of_mem file hf)) hrest fuel _ x hx with
          hwritten | hfile | ⟨damaged, cut, hcuts, hx⟩
        · rcases List.mem_append.mp hwritten with hbefore | hx
          · exact .inl hbefore
          · exact .inr (.inl (List.mem_cons.mpr (.inl (List.eq_of_mem_singleton hx))))
        · exact .inr (.inl (List.mem_cons_of_mem _ hfile))
        · exact .inr (.inr ⟨damaged, cut, .later file files rest damaged cut hcuts, hx⟩)

theorem CutsContents.written {file : File} {cut : List UInt8}
    (h : CutsContents files received file cut)
    (hname : ∀ file ∈ files, (utf8GetBytes file.name).length < 0x80000000)
    (hbytes : ∀ file ∈ files, file.bytes.length < 0x80000000) (fuel : ℕ)
    (hfuel : received.length < fuel) (written : List (Str × List UInt8)) :
    (localFilePath platform directoryName (recordName file), cut) ∈
      (receiveFiles .writable platform directoryName true fuel
        ⟨received, written, .receiving⟩).written := by
  induction h generalizing fuel written with
  | here file files cut part missing =>
    obtain ⟨fuel, rfl⟩ := Nat.exists_eq_succ_of_ne_zero (Nat.ne_zero_of_lt hfuel)
    have hread := readFile_cutContents (hname file List.mem_cons_self)
      (hbytes file List.mem_cons_self) part
    rw [Nat.succ_eq_add_one, receiveFiles_done platform directoryName hread rfl, receiveFiles_nil]
    exact List.mem_append_right _ List.mem_cons_self
  | later file files rest damaged cut later ih =>
    obtain ⟨fuel, rfl⟩ := Nat.exists_eq_succ_of_ne_zero (Nat.ne_zero_of_lt hfuel)
    have hread := readFile_record (hname file List.mem_cons_self)
      (hbytes file List.mem_cons_self) true rest
    have hpos := List.length_pos_iff.mpr (sendFile_ne_nil file)
    rw [List.length_append] at hfuel
    rw [Nat.succ_eq_add_one, receiveFiles_done platform directoryName hread rfl]
    exact ih (fun f hf => hname f (List.mem_cons_of_mem file hf))
      (fun f hf => hbytes f (List.mem_cons_of_mem file hf)) fuel (by omega) _

theorem CutsContents.missing {file : File} {cut : List UInt8}
    (h : CutsContents files received file cut) : file ∈ files ∧ cut ≠ file.bytes := by
  induction h with
  | here file files cut part missing => exact ⟨List.mem_cons_self, missing⟩
  | later file files rest damaged cut later ih => exact ⟨List.mem_cons_of_mem file ih.1, ih.2⟩

end

/-- A text whose first byte stands for more than what follows is dropped wherever it is cut. -/
theorem readFile_cutText {b : UInt8} {text cut : List UInt8} (hb : b.toNat < 0x80)
    (htext : text.length < b.toNat) (h : cut <+: b :: text) :
    readFile true cut = .raised .endOfStream := by
  rcases List.prefix_cons_iff.mp h with rfl | ⟨rest, rfl, hrest⟩
  · rfl
  · exact readFile_short hb (Nat.lt_of_le_of_lt hrest.length_le htext)

theorem readFile_cutTrailer (server : FTServer.Platform) {cut : List UInt8}
    (h : cut <+: sendDone server ++ sendError server (lit "Invalid command.")) :
    readFile true cut = .raised .endOfStream := by
  rw [sendDone, sendError] at h
  rcases server.isNewLine with hline | hline <;> rw [hline] at h
  · exact readFile_cutText (b := 0x64) (by decide) (by decide) h
  · exact readFile_cutText (b := 0x64) (by decide) (by decide) h

theorem readFile_cutError (server : FTServer.Platform) {cut : List UInt8}
    (h : cut <+: sendError server (lit "Directory does not exist.")) :
    readFile true cut = .raised .endOfStream := by
  rw [sendError] at h
  rcases server.isNewLine with hline | hline <;> rw [hline] at h
  · exact readFile_cutText (b := 0x65) (by decide) (by decide) h
  · exact readFile_cutText (b := 0x65) (by decide) (by decide) h

/-- The reply to a `get` is the files of the directory, if there are any, and a text. -/
theorem exists_trailer (server : FTServer.Platform) (disk : Disk) {message : Str}
    (hget : server.startsWithGet message = true) : ∃ trailer,
      (loopBody server disk message).sent =
        ((disk (directory message)).getD []).flatMap sendFile ++ trailer ∧
      ∀ cut, cut <+: trailer → readFile true cut = .raised .endOfStream := by
  cases hdisk : disk (directory message) with
  | none =>
    rw [FTServer.loopBody_missing hget hdisk]
    exact ⟨_, rfl, fun _ => readFile_cutError server⟩
  | some files =>
    rw [FTServer.loopBody_found hget hdisk, List.append_assoc]
    exact ⟨_, rfl, fun _ => readFile_cutTrailer server⟩

/-- What is written of records that are cut is whole files, if what has come of the one
    that is cut is one. -/
theorem written_whole_iff (client : Platform) (directoryName : Str) {files : List File}
    {received trailer : List UInt8}
    (hname : ∀ file ∈ files, (utf8GetBytes file.name).length < 0x80000000)
    (hbytes : ∀ file ∈ files, file.bytes.length < 0x80000000)
    (htrailer : ∀ cut, cut <+: trailer → readFile true cut = .raised .endOfStream)
    (hcut : received <+: files.flatMap sendFile ++ trailer) :
    (∀ x ∈ (getDirectory .writable client directoryName received).written,
      ∃ file ∈ files, x = recordFile client directoryName file) ↔
      ∀ file cut, CutsContents files received file cut → ∃ file' ∈ files,
        (localFilePath client directoryName (recordName file), cut) =
          recordFile client directoryName file' := by
  constructor
  · intro hwhole file cut hcuts
    exact hwhole _ (hcuts.written client directoryName hname hbytes (received.length + 1)
      (Nat.lt_succ_self _) [])
  · intro hcuts x hx
    rcases receiveFiles_cut client directoryName hname hbytes htrailer hcut _ [] x hx with
      hnil | hfile | ⟨file, cut, hcut, rfl⟩
    · cases hnil
    · obtain ⟨file, hmem, rfl⟩ := List.mem_map.mp hfile
      exact ⟨file, hmem, rfl⟩
    · exact hcuts file cut hcut

theorem recordFile_ne {client : Platform} {files : List File} (hfiles : Listing client files)
    {received : List UInt8} {file : File} {cut : List UInt8}
    (h : CutsContents files received file cut) (directoryName : Str) :
    ¬ ∃ file' ∈ files, (localFilePath client directoryName (recordName file), cut) =
      recordFile client directoryName file' := by
  rintro ⟨file', hfile', hsame⟩
  obtain ⟨hfile, hmissing⟩ := h.missing
  obtain ⟨hpath, hcontents⟩ := Prod.mk.inj hsame
  rw [recordName_eq (hfiles.wellFormed file hfile),
    recordName_eq (hfiles.wellFormed file' hfile')] at hpath
  have hname : file.name = file'.name := pathCombine_injective client _
    (hfiles.named file hfile) (hfiles.named file' hfile') (hfiles.relative file hfile)
    (hfiles.relative file' hfile') hpath
  obtain rfl := List.inj_on_of_nodup_map hfiles.distinct hfile hfile' hname
  exact hmissing hcontents

section
variable (server : FTServer.Platform) (client : Platform) (disk : Disk) {message : Str}
  (hget : server.startsWithGet message = true) (directoryName : Str) {received : List UInt8}
  (hcut : received <+: (loopBody server disk message).sent)

include hget hcut

/-- Whatever has come of the reply to a `get` when the connection is lost, every file that
    is written is one of the directory, whole, unless the contents of a file were cut and
    what has come of them is not a file of the directory in the same place. -/
theorem broken_transfer_iff
    (hname : ∀ file ∈ (disk (directory message)).getD [],
      (utf8GetBytes file.name).length < 0x80000000)
    (hbytes : ∀ file ∈ (disk (directory message)).getD [], file.bytes.length < 0x80000000) :
    (∀ x ∈ (getDirectory .writable client directoryName received).written,
      ∃ file ∈ (disk (directory message)).getD [], x = recordFile client directoryName file) ↔
      ∀ file cut, CutsContents ((disk (directory message)).getD []) received file cut →
        ∃ file' ∈ (disk (directory message)).getD [],
          (localFilePath client directoryName (recordName file), cut) =
            recordFile client directoryName file' := by
  obtain ⟨trailer, hsent, htrailer⟩ := exists_trailer server disk hget
  rw [hsent] at hcut
  exact written_whole_iff client directoryName hname hbytes htrailer hcut

/-- For files that the client can tell apart it is the contents alone that must not be cut. -/
theorem listing_transfer_iff (hfiles : Listing client ((disk (directory message)).getD [])) :
    (∀ x ∈ (getDirectory .writable client directoryName received).written,
      ∃ file ∈ (disk (directory message)).getD [],
        x = (localFilePath client directoryName file.name, file.bytes)) ↔
      ∀ file cut, ¬ CutsContents ((disk (directory message)).getD []) received file cut := by
  obtain ⟨trailer, hsent, htrailer⟩ := exists_trailer server disk hget
  rw [hsent] at hcut
  have hiff := written_whole_iff client directoryName hfiles.shortName hfiles.short htrailer hcut
  have hsame : ∀ x, (∃ file ∈ (disk (directory message)).getD [],
      x = recordFile client directoryName file) ↔
        ∃ file ∈ (disk (directory message)).getD [],
          x = (localFilePath client directoryName file.name, file.bytes) := by
    intro x
    refine exists_congr fun file => and_congr_right fun hfile => ?_
    rw [recordFile, recordName_eq (hfiles.wellFormed file hfile)]
  simp only [← hsame]
  exact hiff.trans (forall₂_congr fun file cut =>
    ⟨fun h hcuts => recordFile_ne hfiles hcuts directoryName (h hcuts), fun h hcuts =>
      absurd hcuts h⟩)

end

/-- A directory with two files. -/
def twoFiles : Disk := fun _ => some [⟨lit "a", [0x64]⟩, ⟨lit "b", [0x01, 0x02]⟩]

theorem broken_transfer_iff_length :
    let received := [0x01, 0x61, 0x01, 0x00, 0x00, 0x00, 0x64, 0x01, 0x62, 0x02]
    (∀ x ∈ (getDirectory .writable .slashed (lit "d") received).written,
      ∃ file ∈ (twoFiles (directory (lit "get d"))).getD [],
        x = recordFile .slashed (lit "d") file) ↔
      ∀ file cut, CutsContents ((twoFiles (directory (lit "get d"))).getD []) received file cut →
        ∃ file' ∈ (twoFiles (directory (lit "get d"))).getD [],
          (localFilePath .slashed (lit "d") (recordName file), cut) =
            recordFile .slashed (lit "d") file' :=
  broken_transfer_iff .ordinal .slashed twoFiles
    (show FTServer.Platform.ordinal.startsWithGet (lit "get d") = true from rfl) (lit "d")
    (by decide) (by decide) (by decide)

/-- The connection is lost after the first of two bytes. -/
theorem damaged_file_written :
    let received :=
      [0x01, 0x61, 0x01, 0x00, 0x00, 0x00, 0x64, 0x01, 0x62, 0x02, 0x00, 0x00, 0x00, 0x01]
    received <+: (loopBody .ordinal twoFiles (lit "get d")).sent ∧
      (lit "/home/d/b", [0x01]) ∈ (getDirectory .writable .slashed (lit "d") received).written ∧
      ¬ ∀ x ∈ (getDirectory .writable .slashed (lit "d") received).written,
        ∃ file ∈ (twoFiles (directory (lit "get d"))).getD [],
          x = recordFile .slashed (lit "d") file := by
  intro received
  have hwritten : (lit "/home/d/b", [0x01]) ∈
      (getDirectory .writable .slashed (lit "d") received).written := by decide
  refine ⟨by decide, hwritten, fun h => ?_⟩
  obtain ⟨file, hfile, hsame⟩ := h _ hwritten
  have hbytes : ∀ file ∈ (twoFiles (directory (lit "get d"))).getD [], file.bytes ≠ [0x01] := by
    decide
  exact hbytes file hfile (Prod.mk.inj hsame).2.symm

end NetServices.FTClient
