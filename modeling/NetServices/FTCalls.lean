import NetServices.FTSystem
import Mathlib.Data.List.Induction

set_option autoImplicit false

/-!
# Any number of calls on one file transfer client

`FTClient.cs`: `Connect`, `GetDirectory` and `Disconnect` on one instance, one at
a time, with the connection and its server between them. `GetDirectory` returns
at the end of the stream only, so the connection on which a call has returned
brings nothing any more; the client stays connected to it.
-/
namespace NetServices.FTCalls
open BinaryFormat (Failure Waits)
open FTClient (LocalDisk asciiGetBytes sendGet readFile receiveFile)
open FTServer (Disk)
open FTSystem (System)
open Utf16 (Str lit)

/-- What `Connect` sends to the PRS. -/
def request (ftClientServiceName : Str) : PRSMessage :=
  ⟨.lookupPort, ftClientServiceName, 0, .success⟩

/-- What `Connect` meets once its look-up has ended, by an answer of the PRS or a failure, and
    why the server refuses a connection. -/
structure Attempt where
  lookUp : Except Failure PRSMessage
  refused : UInt16 → Option Failure

/-- A call of `GetDirectory` that has ended, with the files that it wrote. -/
structure Download where
  connection : ℕ
  directoryName : Str
  written : List (Str × List UInt8)
  status : FTClient.Status
deriving DecidableEq

structure State where
  connected : Bool
  ftServerPort : UInt16
  /-- The number of connections so far. -/
  connection : ℕ
  link : System
  /-- The directory that is being received. -/
  running : Option Str
  downloads : List Download

inductive Event where
  | connect (attempt : Attempt)
  | getDirectory (directoryName : Str) (sent : Bool)
  | disconnect (sent : Bool)
  | toServer (count : ℕ)
  | serve
  | toClient (count : ℕ)
  /-- If it raises, `consumed` bytes more have been taken. -/
  | receive (disk : LocalDisk) (consumed : ℕ)
  /-- The connection is lost under a read. -/
  | lost

/-- A connection that nothing has been sent on. -/
def freshLink : System := ⟨[], [], 0, false, [], ⟨[], [], .returned⟩⟩

def start : State := ⟨false, 0, 0, freshLink, none, []⟩

/-- Whatever `Connect` raises is caught. -/
def State.connect (attempt : Attempt) (s : State) : State :=
  if s.connected then s
  else
    match attempt.lookUp with
    | .error _ => s
    | .ok response =>
      if response.status ≠ .success then s
      else
        match attempt.refused response.port with
        | some _ => { s with ftServerPort := response.port }
        | none => { s with
            ftServerPort := response.port
            connected := true
            connection := s.connection + 1
            link := freshLink }

section
variable (server : FTServer.Platform) (client : FTClient.Platform) (disks : ℕ → ℕ → Disk)

/-- The start of `GetDirectory`; a request that cannot be sent raises. -/
def State.getDirectory (directoryName : Str) (sent : Bool) (s : State) : State :=
  if !s.connected then s
  else if sent then { s with
    link := { s.link with
      toServer := s.link.toServer ++ sendGet client directoryName
      client := ⟨s.link.client.stream, [], .receiving⟩ }
    running := some directoryName }
  else { s with downloads := s.downloads ++ [⟨s.connection, directoryName, [], .raised .io⟩] }

def State.disconnect (sent : Bool) (s : State) : State :=
  if !s.connected then s
  else { s with
    connected := false
    link := { s.link with
      toServer := s.link.toServer ++ if sent then asciiGetBytes (lit "exit" ++ client.newLine)
        else [] } }

/-- One round of the loop in `GetDirectory`. At the end of the stream nothing is left of it. -/
def State.receive (disk : LocalDisk) (consumed : ℕ) (s : State) : State :=
  match s.running with
  | none => s
  | some directoryName =>
    let received := (receiveFile disk client directoryName s.link.closed s.link.client).getD
      s.link.client
    match received.status with
    | .receiving => { s with link := { s.link with client := received } }
    | status => { s with
        link := { s.link with client :=
          ⟨if status = .returned then [] else received.stream.drop consumed, [], .returned⟩ }
        running := none
        downloads := s.downloads ++ [⟨s.connection, directoryName, received.written, status⟩] }

def State.lost (s : State) : State :=
  match s.running with
  | none => s
  | some directoryName => { s with
      link := { s.link with client := ⟨s.link.client.stream, [], .returned⟩ }
      running := none
      downloads := s.downloads ++
        [⟨s.connection, directoryName, s.link.client.written, .raised .io⟩] }

/-- The client does one thing at a time. -/
def step (s : State) : Event → State
  | .connect attempt => if s.running.isSome then s else s.connect attempt
  | .getDirectory directoryName sent =>
    if s.running.isSome then s else s.getDirectory client directoryName sent
  | .disconnect sent => if s.running.isSome then s else s.disconnect client sent
  | .toServer count => { s with
      link := FTSystem.step server client (disks s.connection) [] s.link (.toServer count) }
  | .serve => { s with
      link := FTSystem.step server client (disks s.connection) [] s.link .serve }
  | .toClient count => { s with
      link := FTSystem.step server client (disks s.connection) [] s.link (.toClient count) }
  | .receive disk consumed => s.receive client disk consumed
  | .lost => s.lost

def run (events : List Event) : State := events.foldl (step server client disks) start

end

/-- As long as the stream goes on, nothing ends the loop normally. -/
theorem readFile_waits : Waits readFile := by
  have hname : Waits FTClient.readString := by
    refine BinaryFormat.read7BitEncodedInt_waits.bind fun length => ?_
    split_ifs
    · exact .raise nofun
    · exact (BinaryFormat.readExactly_waits _).bind fun _ => .pure _
  exact hname.bind fun _ => BinaryFormat.readInt32_waits.bind fun length =>
    (BinaryFormat.readBytes_waits length).bind fun _ => .pure _

/-- The server has closed the connection, and all that it sent has been read. -/
structure Drained (link : System) : Prop where
  ended : link.ended = true
  toClient : link.toClient = []
  stream : link.client.stream = []
  written : link.client.written = []

/-- A call has returned on the connection that the client has made last. -/
def Spent (s : State) : Prop :=
  ∃ d ∈ s.downloads, d.connection = s.connection ∧ d.status = .returned

structure Inv (s : State) : Prop where
  receiving : s.running.isSome → s.link.client.status = .receiving
  numbered : ∀ d ∈ s.downloads, d.connection ≤ s.connection
  drained : Spent s → Drained s.link
  once : s.downloads.Pairwise fun d d' =>
    d.connection = d'.connection → d.status = .returned → d'.written = []

theorem closed_iff {link : System} :
    link.closed = true ↔ link.ended = true ∧ link.toClient = [] := by
  rw [System.closed, Bool.and_eq_true, List.isEmpty_iff]

theorem start_inv : Inv start := by
  refine ⟨nofun, fun _ hd => absurd hd List.not_mem_nil, ?_, List.Pairwise.nil⟩
  rintro ⟨_, hd, -⟩
  exact absurd hd List.not_mem_nil

section
variable {server : FTServer.Platform} {client : FTClient.Platform} {disks : ℕ → ℕ → Disk}

/-- The loop is left normally at the end of the stream only. -/
theorem closed_of_returned {disk : LocalDisk} {directoryName : Str} {link : System}
    (h : link.client.status = .receiving)
    (hreturned : ((receiveFile disk client directoryName link.closed link.client).getD
      link.client).status = .returned) : link.closed = true := by
  by_contra hopen
  rw [Bool.not_eq_true] at hopen
  have hwaits := readFile_waits link.client.stream
  rw [receiveFile, h, hopen] at hreturned
  revert hwaits hreturned
  cases readFile false link.client.stream with
  | done file rest =>
    exact fun hreturned => absurd hreturned (FTClient.Write.status_ne_returned _)
  | blocked =>
    intro hreturned
    have hstatus : FTClient.Status.receiving = .returned := h.symm.trans hreturned
    cases hstatus
  | raised e =>
    cases e with
    | endOfStream => exact fun _ hwaits => hwaits rfl
    | format | io | argumentOutOfRange | argument | unauthorizedAccess =>
      intro hreturned
      cases hreturned

/-- A drained connection ends the loop at once. -/
theorem receiveFile_drained {disk : LocalDisk} {directoryName : Str} {link : System}
    (h : Drained link) (hreceiving : link.client.status = .receiving) :
    receiveFile disk client directoryName link.closed link.client = some ⟨[], [], .returned⟩ := by
  have hend : readFile true [] = .raised .endOfStream := rfl
  rw [receiveFile, hreceiving, closed_iff.mpr ⟨h.ended, h.toClient⟩, h.stream, hend]
  simp only [h.written]

/-- A call that has ended is entered, and leaves a connection on which one has returned
    drained. -/
theorem Inv.enter {s : State} (h : Inv s) {link : System} {directoryName : Str}
    {written : List (Str × List UInt8)} {status : FTClient.Status}
    (hwritten : Spent s → written = [])
    (hdrained : Spent s ∨ status = .returned → Drained link) :
    Inv { s with
      link := link
      running := none
      downloads := s.downloads ++ [⟨s.connection, directoryName, written, status⟩] } where
  receiving := nofun
  numbered d hd := by
    rcases List.mem_append.mp hd with hd | hd
    · exact h.numbered d hd
    · rw [List.eq_of_mem_singleton hd]
  drained := by
    rintro ⟨d, hd, hconnection, hreturned⟩
    rcases List.mem_append.mp hd with hd | hd
    · exact hdrained (.inl ⟨d, hd, hconnection, hreturned⟩)
    · rw [List.eq_of_mem_singleton hd] at hreturned
      exact hdrained (.inr hreturned)
  once := by
    refine List.pairwise_append.mpr ⟨h.once, List.pairwise_singleton _ _, ?_⟩
    intro d hd d' hd' hconnection hreturned
    rw [List.eq_of_mem_singleton hd'] at hconnection ⊢
    exact hwritten ⟨d, hd, hconnection, hreturned⟩

theorem Inv.receive {s : State} (h : Inv s) (disk : LocalDisk) (consumed : ℕ) :
    Inv (s.receive client disk consumed) := by
  rw [State.receive]
  cases hrunning : s.running with
  | none => exact h
  | some directoryName =>
    have hreceiving := h.receiving (by rw [hrunning]; rfl)
    simp only
    by_cases hspent : Spent s
    · have hlink := h.drained hspent
      rw [receiveFile_drained hlink hreceiving]
      exact h.enter (fun _ => rfl) fun _ => ⟨hlink.ended, hlink.toClient, rfl, rfl⟩
    · have hreturned := @closed_of_returned client disk directoryName s.link hreceiving
      generalize (receiveFile disk client directoryName s.link.closed s.link.client).getD
        s.link.client = received at hreturned ⊢
      obtain ⟨stream, written, status⟩ := received
      cases status with
      | receiving =>
        exact ⟨fun _ => rfl, h.numbered, fun hspent' => absurd hspent' hspent, h.once⟩
      | returned =>
        obtain ⟨hended, htoClient⟩ := closed_iff.mp (hreturned rfl)
        exact h.enter (fun hspent' => absurd hspent' hspent) fun _ => ⟨hended, htoClient, rfl, rfl⟩
      | raised e =>
        refine h.enter (fun hspent' => absurd hspent' hspent) ?_
        rintro (hspent' | hreturned')
        · exact absurd hspent' hspent
        · cases hreturned'

theorem Inv.lost {s : State} (h : Inv s) : Inv s.lost := by
  rw [State.lost]
  cases s.running with
  | none => exact h
  | some directoryName =>
    refine h.enter (fun hspent => (h.drained hspent).written) ?_
    rintro (hspent | hreturned)
    · have hlink := h.drained hspent
      exact ⟨hlink.ended, hlink.toClient, hlink.stream, rfl⟩
    · cases hreturned

/-- A connection that is made is fresh, and nothing has returned on it. -/
theorem Inv.connect {s : State} (h : Inv s) (hrunning : s.running = none) (attempt : Attempt) :
    Inv (s.connect attempt) := by
  unfold State.connect
  split_ifs
  · exact h
  · cases attempt.lookUp with
    | error e => exact h
    | ok response =>
      simp only
      split_ifs
      · exact h
      · cases attempt.refused response.port with
        | some e => exact ⟨h.receiving, h.numbered, h.drained, h.once⟩
        | none =>
          refine ⟨fun hsome => ?_, fun d hd => Nat.le_succ_of_le (h.numbered d hd), ?_, h.once⟩
          · rw [hrunning] at hsome
            cases hsome
          · rintro ⟨d, hd, hconnection, -⟩
            exact absurd hconnection (Nat.ne_of_lt (Nat.lt_succ_of_le (h.numbered d hd)))

theorem Inv.getDirectory {s : State} (h : Inv s) (hrunning : s.running = none)
    (directoryName : Str) (sent : Bool) : Inv (s.getDirectory client directoryName sent) := by
  unfold State.getDirectory
  split_ifs
  · exact h
  · refine ⟨fun _ => rfl, h.numbered, fun hspent => ?_, h.once⟩
    have hlink := h.drained hspent
    exact ⟨hlink.ended, hlink.toClient, hlink.stream, rfl⟩
  · have hentered := @Inv.enter s h s.link directoryName [] (.raised .io) (fun _ => rfl) <| by
      rintro (hspent | hreturned)
      · exact h.drained hspent
      · cases hreturned
    rwa [← hrunning] at hentered

theorem Inv.disconnect {s : State} (h : Inv s) (sent : Bool) :
    Inv (s.disconnect client sent) := by
  unfold State.disconnect
  rcases Bool.eq_false_or_eq_true s.connected with hconnected | hconnected
  · rw [hconnected]
    refine ⟨h.receiving, h.numbered, fun hspent => ?_, h.once⟩
    have hlink := h.drained hspent
    exact ⟨hlink.ended, hlink.toClient, hlink.stream, hlink.written⟩
  · rw [hconnected]
    exact h

theorem step_inv {s : State} (h : Inv s) (e : Event) : Inv (step server client disks s e) := by
  have idle {t : State} (hnext : s.running = none → Inv t) :
      Inv (if s.running.isSome then s else t) := by
    split_ifs with hrunning
    · exact h
    · exact hnext (Option.not_isSome_iff_eq_none.mp hrunning)
  have carried {link : System} (hclient : link.client.status = s.link.client.status)
      (hdrained : Drained s.link → Drained link) : Inv { s with link := link } :=
    ⟨fun hrunning => hclient.trans (h.receiving hrunning), h.numbered,
      fun hspent => hdrained (h.drained hspent), h.once⟩
  cases e with
  | connect attempt => exact idle fun hrunning => h.connect hrunning attempt
  | getDirectory directoryName sent =>
    exact idle fun hrunning => h.getDirectory hrunning directoryName sent
  | disconnect sent => exact idle fun _ => h.disconnect sent
  | toServer count => exact carried rfl fun hlink => ⟨hlink.1, hlink.2, hlink.3, hlink.4⟩
  | serve =>
    refine carried ?_ fun hlink => ?_
    · rw [FTSystem.step]
      split_ifs
      · rfl
      · cases TextReader.completeLine s.link.received <;> rfl
    · rw [FTSystem.step, if_pos hlink.ended]
      exact hlink
  | toClient count =>
    refine carried rfl fun hlink => ⟨hlink.ended, ?_, ?_, hlink.written⟩
    · change s.link.toClient.drop count = []
      rw [hlink.toClient, List.drop_nil]
    · change s.link.client.stream ++ s.link.toClient.take count = []
      rw [hlink.toClient, hlink.stream, List.take_nil]
      rfl
  | receive disk consumed => exact h.receive disk consumed
  | lost => exact h.lost

end

/-- Whatever is called in any order, however the bytes travel: once `GetDirectory` has returned
    on a connection, no later call on it writes a file. -/
theorem one_directory_a_connection (server : FTServer.Platform) (client : FTClient.Platform)
    (disks : ℕ → ℕ → Disk) (events : List Event) :
    (run server client disks events).downloads.Pairwise fun d d' =>
      d.connection = d'.connection → d.status = .returned → d'.written = [] :=
  (List.foldlRecOn events _ start_inv fun _ h e _ => step_inv h e).once

end NetServices.FTCalls
