import NetServices.FTTransfer

set_option autoImplicit false

/-!
# A file transfer client and its server on one connection

Bytes travel in order, any number at a time, in both directions. The server
reads a line once it is complete, the client a file once it has come; the end of
the connection comes after all that the server sent. The client has sent its
request. Client and server are left waiting for each other exactly if every line
of the request is a `get` for a directory that does not exist: the server goes on
to the next line after its error, which is too short for the client's name.
-/
namespace NetServices.FTSystem
open BinaryFormat (Keeps)
open FTClient (Client LocalDisk asciiGetBytes sendGet readString readFile receiveFile)
open FTServer (Disk directory loopBody sendError)
open PRSMessage (utf8GetString)
open TextReader (completeLine lines splitLine)
open Utf16 (Str lit)

structure System where
  toServer : List UInt8
  received : Str
  /-- The number of lines that the server has read. -/
  served : ℕ
  ended : Bool
  toClient : List UInt8
  client : Client
deriving DecidableEq

inductive Event where
  | toServer (count : ℕ)
  | serve
  | toClient (count : ℕ)
  | receive (disk : LocalDisk)

/-- The client can see that the connection has ended. -/
def System.closed (sys : System) : Bool := sys.ended && sys.toClient.isEmpty

section
variable (server : FTServer.Platform) (client : FTClient.Platform) (disks : ℕ → Disk)
  (directoryName : Str)

def start : System where
  toServer := sendGet client directoryName
  received := []
  served := 0
  ended := false
  toClient := []
  client := ⟨[], [], .receiving⟩

def step (sys : System) : Event → System
  | .toServer count => { sys with
      toServer := sys.toServer.drop count
      received := sys.received ++ utf8GetString (sys.toServer.take count) }
  | .serve =>
    if sys.ended then sys
    else
      match completeLine sys.received with
      | some (message, rest) =>
        let reply := loopBody server (disks sys.served) message
        { sys with
          received := rest
          served := sys.served + 1
          toClient := sys.toClient ++ reply.sent
          ended := reply.done }
      | none => sys
  | .toClient count => { sys with
      toClient := sys.toClient.drop count
      client := { sys.client with stream := sys.client.stream ++ sys.toClient.take count } }
  | .receive disk => { sys with
      client := (receiveFile disk client directoryName sys.closed sys.client).getD sys.client }

def run (sys : System) (es : List Event) : System :=
  es.foldl (step server client disks directoryName) sys

/-- Nothing is on its way, the server waits for a line and the client for a file. -/
structure Deadlock (sys : System) : Prop where
  quiet : sys.toServer = [] ∧ sys.toClient = []
  serving : sys.ended = false
  serverWaits : completeLine sys.received = none
  receiving : sys.client.status = .receiving
  clientWaits : ∀ disk, receiveFile disk client directoryName sys.closed sys.client = none

/-- The lines of the request. -/
def requestLines : List Str := lines (utf8GetString (sendGet client directoryName))

/-- Every line is a `get` for a directory that does not exist. -/
def AllMissing : ℕ → List Str → Prop
  | _, [] => True
  | k, message :: rest => (server.startsWithGet message = true ∧
      disks k (directory message) = none) ∧ AllMissing (k + 1) rest

end

def Ascii (b : UInt8) : Prop := b.toNat < 0x80

instance (b : UInt8) : Decidable (Ascii b) := inferInstanceAs (Decidable (_ < _))

theorem readString_keeps : Keeps Ascii 1 readString fun _ => True := by
  have hbits : Keeps Ascii 1 (BinaryFormat.read7Bits 4) fun n => n < 0x80 := by
    rw [BinaryFormat.read7Bits]
    refine BinaryFormat.readByte_keeps.bind fun b hb => ?_
    rw [if_pos (show b.toNat < 0x80 from hb)]
    exact .pure hb
  have hlength : Keeps Ascii 1 BinaryFormat.read7BitEncodedInt fun n => 0 ≤ n :=
    hbits.bind fun n hn => .pure (by
      rw [BinaryFormat.toInt32_of_lt (Nat.lt_trans hn (by decide))]
      exact Int.natCast_nonneg n)
  refine hlength.bind fun n hn => ?_
  rw [if_neg (Int.not_lt.mpr hn)]
  exact ((BinaryFormat.readExactly_keeps n.toNat).bind fun _ _ => .pure trivial).mono
    (Nat.zero_le _)

theorem readInt32_keeps : Keeps Ascii 4 BinaryFormat.readInt32 fun n => 0 ≤ n := by
  refine (BinaryFormat.readExactly_keeps 4).bind fun bytes hbytes => .pure ?_
  obtain ⟨hlength, hascii⟩ := hbytes
  obtain ⟨a, b, c, d, rfl⟩ := List.length_eq_four.mp hlength
  have ha : a.toNat < 0x80 := hascii a (by simp)
  have hb : b.toNat < 0x80 := hascii b (by simp)
  have hc : c.toNat < 0x80 := hascii c (by simp)
  have hd : d.toNat < 0x80 := hascii d (by simp)
  rw [BinaryFormat.toInt32_of_lt (by simp only [List.foldr_cons, List.foldr_nil]; omega)]
  exact Int.natCast_nonneg _

/-- While the stream goes on, text makes `ReceiveFile` wait or gives it a file. -/
theorem readFile_keeps : Keeps Ascii 1 readFile fun _ => True := by
  have hcontents : ∀ (fileName : Str) (fileLength : ℤ), 0 ≤ fileLength →
      Keeps Ascii 0 (do
        let fileContents ← BinaryFormat.readBytes fileLength
        pure (fileName, fileContents)) fun _ => True := by
    intro fileName fileLength hlength
    rw [BinaryFormat.readBytes, if_neg (Int.not_lt.mpr hlength)]
    exact (BinaryFormat.readUpTo_keeps _).bind fun _ _ => .pure trivial
  refine readString_keeps.bind fun fileName _ => ?_
  exact (readInt32_keeps.bind (hcontents fileName)).mono (Nat.zero_le _)

section
variable {server : FTServer.Platform} {client : FTClient.Platform} {disks : ℕ → Disk}
  {directoryName : Str}

/-- The text that the server has still to read. -/
def System.remaining (sys : System) : Str := sys.received ++ utf8GetString sys.toServer

/-- What is left of the request: as long as the server goes on, the lines that it has
    read decide nothing. -/
structure Inv (server : FTServer.Platform) (client : FTClient.Platform) (disks : ℕ → Disk)
    (directoryName : Str) (sys : System) : Prop where
  ascii : ∀ b ∈ sys.toServer, Ascii b
  lineEnd : sys.remaining = [] ∨ sys.remaining.getLast? = some TextReader.lf
  lines : sys.ended = true ∨
    (AllMissing server disks 0 (requestLines client directoryName) ↔
      AllMissing server disks sys.served (lines sys.remaining))

theorem asciiGetBytes_ascii (s : Str) : ∀ b ∈ asciiGetBytes s, Ascii b := by
  intro b hb
  obtain ⟨u, -, rfl⟩ := List.mem_map.mp hb
  by_cases hu : u.toNat < 0x80
  · rw [if_pos hu, Ascii, Utf8.toNat_ofNat_of_lt (by omega)]
    exact hu
  · rw [if_neg hu]
    decide

theorem utf8GetString_append {bs : List UInt8} (h : ∀ b ∈ bs, Ascii b) (bs' : List UInt8) :
    utf8GetString (bs ++ bs') = utf8GetString bs ++ utf8GetString bs' := by
  rw [utf8GetString, Utf8.decode_append (Utf8.wellFormed_ascii h), Utf16.encode_append]
  rfl

theorem request_lineEnd (client : FTClient.Platform) (directoryName : Str) :
    (utf8GetString (sendGet client directoryName)).getLast? = some TextReader.lf := by
  have hnewLine : (utf8GetString (asciiGetBytes client.newLine)).getLast? = some TextReader.lf := by
    rcases client.isNewLine with h | h <;> rw [h] <;> decide
  have hsplit : sendGet client directoryName =
      asciiGetBytes (lit "get " ++ directoryName) ++ asciiGetBytes client.newLine :=
    List.map_append
  have hne : utf8GetString (asciiGetBytes client.newLine) ≠ [] := fun h => by
    rw [h] at hnewLine
    cases hnewLine
  rw [hsplit, utf8GetString_append (asciiGetBytes_ascii _), List.getLast?_append_of_ne_nil _ hne,
    hnewLine]

theorem start_inv : Inv server client disks directoryName (start client directoryName) where
  ascii := asciiGetBytes_ascii _
  lineEnd := .inr (request_lineEnd client directoryName)
  lines := .inr Iff.rfl

/-- What one line leaves to read. -/
theorem remaining_of_completeLine {sys : System} {message rest : Str}
    (h : completeLine sys.received = some (message, rest)) :
    sys.remaining ≠ [] ∧
      splitLine sys.remaining = (message, rest ++ utf8GetString sys.toServer) := by
  have hne : sys.received ≠ [] := fun hnil => by
    rw [hnil] at h
    cases h
  exact ⟨fun hnil => hne (List.append_eq_nil_iff.mp hnil).1,
    TextReader.splitLine_of_completeLine h _⟩

theorem suffix_lineEnd {s t : Str} (hs : s <:+ t)
    (ht : t = [] ∨ t.getLast? = some TextReader.lf) :
    s = [] ∨ s.getLast? = some TextReader.lf := by
  obtain ⟨r, rfl⟩ := hs
  by_cases hnil : s = []
  · exact .inl hnil
  · refine .inr (ht.elim (fun h => absurd (List.append_eq_nil_iff.mp h).2 hnil) fun h => ?_)
    rwa [List.getLast?_append_of_ne_nil _ hnil] at h

theorem step_inv {sys : System} (h : Inv server client disks directoryName sys) (e : Event) :
    Inv server client disks directoryName (step server client disks directoryName sys e) := by
  obtain ⟨hascii, hend, hlines⟩ := h
  cases e with
  | toServer count =>
    have hremaining : (step server client disks directoryName sys (.toServer count)).remaining =
        sys.remaining := by
      change (sys.received ++ utf8GetString (sys.toServer.take count)) ++
        utf8GetString (sys.toServer.drop count) = _
      rw [List.append_assoc, ← utf8GetString_append fun b hb => hascii b (List.mem_of_mem_take hb),
        List.take_append_drop]
      rfl
    refine ⟨fun b hb => hascii b (List.mem_of_mem_drop hb), ?_, ?_⟩ <;> rw [hremaining]
    · exact hend
    · exact hlines
  | serve =>
    rw [step]
    cases hended : sys.ended with
    | true => exact ⟨hascii, hend, .inl hended⟩
    | false =>
      cases hline : completeLine sys.received with
      | none => exact ⟨hascii, hend, hlines⟩
      | some next =>
        obtain ⟨message, rest⟩ := next
        obtain ⟨hne, hsplit⟩ := remaining_of_completeLine hline
        have hsuffix := TextReader.splitLine_suffix sys.remaining
        rw [hsplit] at hsuffix
        refine ⟨hascii, suffix_lineEnd hsuffix hend, ?_⟩
        rw [hended, TextReader.lines_cons hne, hsplit, AllMissing,
          ← FTServer.loopBody_done] at hlines
        cases hdone : (loopBody server (disks sys.served) message).done with
        | true => exact .inl hdone
        | false =>
          rw [hdone] at hlines
          exact .inr ((hlines.resolve_left Bool.false_ne_true).trans (and_iff_right rfl))
  | toClient count => exact ⟨hascii, hend, hlines⟩
  | receive disk => exact ⟨hascii, hend, hlines⟩

theorem run_inv (es : List Event) : Inv server client disks directoryName
    (run server client disks directoryName (start client directoryName) es) :=
  List.foldlRecOn es _ start_inv fun _ h e _ => step_inv h e

/-- In a deadlock every line has been read, and the server has gone on after each. -/
theorem Deadlock.allMissing {sys : System} (h : Inv server client disks directoryName sys)
    (hdead : Deadlock client directoryName sys) :
    AllMissing server disks 0 (requestLines client directoryName) := by
  have hremaining : sys.remaining = sys.received := by
    rw [System.remaining, hdead.quiet.1]
    exact List.append_nil _
  have hreceived : sys.received = [] :=
    TextReader.eq_nil_of_completeLine hdead.serverWaits (hremaining ▸ h.lineEnd)
  have hlines := h.lines.resolve_left fun hended => by
    rw [hdead.serving] at hended
    cases hended
  rw [hremaining, hreceived] at hlines
  exact hlines.mpr trivial

/-- The client goes on as long as it has a file, and is left waiting for the next one. -/
theorem drain (sys : System) (hended : sys.ended = false) (hstatus : sys.client.status = .receiving)
    (hascii : ∀ b ∈ sys.client.stream, Ascii b) :
    ∃ es c, run server client disks directoryName sys es = { sys with client := c } ∧
      c.status = .receiving ∧ ∀ disk, receiveFile disk client directoryName false c = none := by
  have hclosed : sys.closed = false := by rw [System.closed, hended, Bool.false_and]
  obtain ⟨n, hn⟩ : ∃ n, sys.client.stream.length = n := ⟨_, rfl⟩
  induction n using Nat.strong_induction_on generalizing sys with
  | _ n ih =>
    rcases readFile_keeps sys.client.stream hascii with
      hblocked | ⟨file, rest, hdone, hsuffix, hle, -⟩
    · refine ⟨[], sys.client, rfl, hstatus, fun disk => ?_⟩
      rw [receiveFile, hstatus, hblocked]
    · have hreceive : receiveFile .writable client directoryName sys.closed sys.client =
          some ⟨rest, sys.client.written ++
            [(FTClient.localFilePath client directoryName file.1, file.2)], .receiving⟩ :=
        FTClient.receiveFile_written hstatus (hclosed ▸ hdone) rfl
      obtain ⟨es, d, hrun, hd⟩ := ih rest.length (by omega) { sys with client := ⟨rest, _, _⟩ }
        hended rfl (fun b hb => hascii b (hsuffix.subset hb)) hclosed rfl
      refine ⟨.receive .writable :: es, d, ?_, hd⟩
      rw [run, List.foldl_cons, step, hreceive]
      exact hrun

theorem error_ascii (server : FTServer.Platform) :
    ∀ b ∈ sendError server (lit "Directory does not exist."), Ascii b := by
  have hall : (sendError server (lit "Directory does not exist.")).all (fun b => decide (Ascii b)) =
      true := by
    rw [sendError]
    rcases server.isNewLine with h | h <;> rw [h] <;> rfl
  exact fun b hb => of_decide_eq_true (List.all_eq_true.mp hall b hb)

/-- The server reads all lines and answers each with an error. -/
theorem serveAll (sys : System) (hended : sys.ended = false)
    (hlineEnd : sys.received = [] ∨ sys.received.getLast? = some TextReader.lf)
    (hmissing : AllMissing server disks sys.served (lines sys.received))
    (hascii : ∀ b ∈ sys.toClient, Ascii b) :
    ∃ es k sent, run server client disks directoryName sys es =
      { sys with received := [], served := k, toClient := sent } ∧ ∀ b ∈ sent, Ascii b := by
  obtain ⟨n, hn⟩ : ∃ n, sys.received.length = n := ⟨_, rfl⟩
  induction n using Nat.strong_induction_on generalizing sys with
  | _ n ih =>
    by_cases hnil : sys.received = []
    · exact ⟨[], sys.served, sys.toClient, by rw [← hnil]; rfl, hascii⟩
    · cases hline : completeLine sys.received with
      | none => exact absurd (TextReader.eq_nil_of_completeLine hline hlineEnd) hnil
      | some next =>
        obtain ⟨message, rest⟩ := next
        have hsplit := TextReader.splitLine_of_completeLine hline []
        rw [List.append_nil, List.append_nil] at hsplit
        have hlt := TextReader.splitLine_shorter hnil
        have hsuffix := TextReader.splitLine_suffix sys.received
        rw [TextReader.lines_cons hnil, hsplit, AllMissing] at hmissing
        rw [hsplit] at hlt hsuffix
        obtain ⟨⟨hget, hdisk⟩, hrest⟩ := hmissing
        have hreply := FTServer.loopBody_missing hget hdisk
        obtain ⟨es, k, sent, hrun, hsent⟩ := ih rest.length (by simpa [← hn] using hlt)
          { sys with
            received := rest
            served := sys.served + 1
            toClient := sys.toClient ++ sendError server (lit "Directory does not exist.") }
          hended (suffix_lineEnd hsuffix hlineEnd) hrest
          (fun b hb => (List.mem_append.mp hb).elim (hascii b) (error_ascii server b)) rfl
        refine ⟨.serve :: es, k, sent, ?_, hsent⟩
        rw [run, List.foldl_cons, step, hended, if_neg Bool.false_ne_true, hline]
        simp only [hreply]
        rw [← hended]
        exact hrun

theorem run_append (sys : System) (es es' : List Event) :
    run server client disks directoryName sys (es ++ es') =
      run server client disks directoryName (run server client disks directoryName sys es) es' :=
  List.foldl_append

/-- When every line is a `get` for a directory that does not exist, some run ends in a
    deadlock. -/
theorem exists_deadlock (h : AllMissing server disks 0 (requestLines client directoryName)) :
    ∃ es, Deadlock client directoryName
      (run server client disks directoryName (start client directoryName) es) := by
  let request := sendGet client directoryName
  let delivered : System := ⟨[], utf8GetString request, 0, false, [], ⟨[], [], .receiving⟩⟩
  have hdelivered : run server client disks directoryName (start client directoryName)
      [.toServer request.length] = delivered := by
    change System.mk (request.drop request.length)
      ([] ++ utf8GetString (request.take request.length)) 0 false [] _ = _
    rw [List.drop_length, List.take_length, List.nil_append]
    rfl
  obtain ⟨es, k, sent, hserved, hsent⟩ := @serveAll server client disks directoryName
    delivered rfl (.inr (request_lineEnd client directoryName)) h (fun b hb => nomatch hb)
  have hanswered : run server client disks directoryName
      { delivered with received := [], served := k, toClient := sent } [.toClient sent.length] =
        ⟨[], [], k, false, [], ⟨sent, [], .receiving⟩⟩ := by
    change System.mk [] [] k false (sent.drop sent.length) ⟨[] ++ sent.take sent.length, _, _⟩ = _
    rw [List.drop_length, List.take_length, List.nil_append]
  obtain ⟨es', c, hwaits, hstatus, hnone⟩ := @drain server client disks directoryName
    ⟨[], [], k, false, [], ⟨sent, [], .receiving⟩⟩ rfl rfl hsent
  refine ⟨[.toServer request.length] ++ (es ++ ([.toClient sent.length] ++ es')), ?_⟩
  rw [run_append, hdelivered, run_append, hserved, run_append, hanswered, hwaits]
  exact ⟨⟨rfl, rfl⟩, rfl, rfl, hstatus, hnone⟩

/-- Client and server can be left waiting for each other exactly if every line of the
    request is a `get` for a directory that does not exist. -/
theorem no_deadlock_iff (server : FTServer.Platform) (client : FTClient.Platform)
    (disks : ℕ → Disk) (directoryName : Str) :
    (∀ es, ¬ Deadlock client directoryName
      (run server client disks directoryName (start client directoryName) es)) ↔
        ¬ AllMissing server disks 0 (requestLines client directoryName) := by
  constructor
  · intro h hmissing
    obtain ⟨es, hdead⟩ := exists_deadlock hmissing
    exact h es hdead
  · exact fun h es hdead => h (hdead.allMissing (run_inv es))

/-- A directory that does not exist. -/
theorem missing_directory_deadlock :
    ¬ ∀ es, ¬ Deadlock .slashed (lit "d")
      (run .ordinal .slashed (fun _ _ => none) (lit "d") (start .slashed (lit "d")) es) := by
  refine fun h => h [.toServer 6, .serve, .toClient 32, .receive .writable] ?_
  exact ⟨by decide, by decide, by decide, by decide,
    fun disk => (FTClient.receiveFile_eq_none_iff disk .writable).mpr (by decide)⟩

end

end NetServices.FTSystem
