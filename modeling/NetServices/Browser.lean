import NetServices.FTCalls
import NetServices.FTConversation
import NetServices.SDFetch

set_option autoImplicit false

/-!
# The page of the first browser

`Index.cshtml.cs`: one file transfer client and one client of the session document
server for all requests, which come one at a time. The page never disconnects and
never opens a session.
-/
namespace NetServices.Browser
open BinaryFormat (Failure)
open FTCalls (Attempt Download)
open FTClient (LocalDisk)
open SDClient (Client Platform exception)
open SDProtocolClient (Peer)
open SDServer (Conn Host System)
open Utf16 (Str lit)

/-- A client with the address and the port that it was made with. -/
structure SDConnection where
  ipAddr : Option Str
  port : UInt16
  client : SDClient.State (List Str)

def SDConnection.new (ipAddr : Option Str) (port : UInt16) : SDConnection :=
  ⟨ipAddr, port, ⟨false, 0, ⟨[], []⟩, [], []⟩⟩

/-- What the clients meet in one request. -/
structure Meets where
  attempt : Option Str → Attempt
  /-- The name of the directory can be sent. -/
  sent : Bool
  refused : Option Str → UInt16 → Option Exn
  reads : List ℕ
  server : Peer

/-- The property `ResultMessage` at the end of a request, which the page does not render, and
    the files that the request has written. -/
structure Result where
  written : List (Str × List UInt8)
  message : Option Str
deriving DecidableEq

structure State where
  ftClient : Option (Option Str × FTCalls.State)
  sdClient : Option SDConnection
  /-- The directory that the request underway has asked for. -/
  pending : Option Str
  results : List Result

inductive Event where
  | onGet
  | onPostSend (protocol address searchName : Option Str) (meets : Meets)
  | toServer (count : ℕ)
  | serve
  | toClient (count : ℕ)
  | receive (disk : LocalDisk) (consumed : ℕ)
  | lost

def start : State := ⟨none, none, none, []⟩

def downloaded (searchName : Str) : Str :=
  lit "Downloaded directory '" ++ searchName ++ lit "' from FT server."

def returned (content : Str) : Str := lit "SD Server returned: " ++ content

def trimSlashes (s : Str) : Str := (s.dropWhile (· == 0x2F)).rdropWhile (· == 0x2F)

def State.show (s : State) (message : Option Str) : State :=
  { s with results := s.results ++ [⟨[], message⟩] }

section
variable (server : FTServer.Platform) (client : FTClient.Platform) (disks : ℕ → ℕ → FTServer.Disk)
  (platform : Platform) (exn : Failure → Exn)

/-- What comes of a call of `GetDirectory` that has ended. -/
def report (searchName : Str) (d : Download) : Result where
  written := d.written
  message :=
    match d.status with
    | .raised e => some (lit "Error: " ++ (exn e).message)
    | .returned => some (downloaded searchName)
    | .receiving => none

/-- The client does something, and the request ends with the call. -/
def State.act (s : State) (searchName : Str) (address : Option Str) (ft ft' : FTCalls.State) :
    State :=
  { s with
    ftClient := some (address, ft')
    pending := if ft'.running.isSome then some searchName else none
    results := s.results ++
      (ft'.downloads.drop ft.downloads.length).map (report exn searchName) }

def State.sendFT (s : State) (address searchName : Option Str) (meets : Meets) : State :=
  let (address, ft) := s.ftClient.getD (address, FTCalls.start)
  let ft := ft.connect (meets.attempt address)
  match searchName with
  | none => { s with ftClient := some (address, ft) }.show
      (some (lit "Error: Object reference not set to an instance of an object."))
  | some searchName =>
    if ft.connected then
      s.act exn searchName address ft
        (ft.getDirectory client (trimSlashes searchName) meets.sent)
    else { s with ftClient := some (address, ft) }.show (some (downloaded searchName))

def sendSD (meets : Meets) (ipAddr : Option Str) (port : UInt16) (searchName : Option Str) :
    Client (List Str) Str := do
  SDClient.connect (meets.refused ipAddr port) meets.reads []
  SDClient.getDocument (SDProtocolClient.env platform meets.server) (searchName.getD [])

def State.sendSD (s : State) (address searchName : Option Str) (meets : Meets) : State :=
  let connection := s.sdClient.getD (.new address 40000)
  match Browser.sendSD platform meets connection.ipAddr connection.port searchName
    connection.client with
  | .ok content client => { s with sdClient := some { connection with client := client } }.show
      (some (returned content))
  | .error e client => { s with sdClient := some { connection with client := client } }.show
      (some (lit "Error: " ++ e.message))

def State.onGet (s : State) : State :=
  { s with
    ftClient := some (s.ftClient.getD (some (lit "127.0.0.1"), FTCalls.start))
    sdClient := some (s.sdClient.getD (.new (some (lit "127.0.0.1")) 23456)) }

/-- The connection of the file transfer client goes on. -/
def State.go (s : State) (e : FTCalls.Event) : State :=
  match s.ftClient with
  | none => s
  | some (address, ft) =>
    s.act exn (s.pending.getD []) address ft (FTCalls.step server client disks ft e)

def step (s : State) : Event → State
  | .onGet => if s.pending.isSome then s else s.onGet
  | .onPostSend protocol address searchName meets =>
    if s.pending.isSome then s
    else if protocol = some (lit "FT") then s.sendFT client exn address searchName meets
    else if protocol = some (lit "SD") then s.sendSD platform address searchName meets
    else s.show none
  | .toServer count => s.go server client disks exn (.toServer count)
  | .serve => s.go server client disks exn .serve
  | .toClient count => s.go server client disks exn (.toClient count)
  | .receive disk consumed => s.go server client disks exn (.receive disk consumed)
  | .lost => s.go server client disks exn .lost

def run (events : List Event) : State :=
  events.foldl (step server client disks platform exn) start

end

/-- The client that the page has, or would make. -/
def State.ft (s : State) : FTCalls.State := (s.ftClient.map Prod.snd).getD FTCalls.start

theorem client_getD (s : State) (address : Option Str) :
    (s.ftClient.getD (address, FTCalls.start)).2 = s.ft := by
  rw [State.ft]
  cases s.ftClient <;> rfl

/-- The request has written files, and says that it has downloaded a directory. -/
def Result.Wrote (r : Result) : Prop :=
  r.written ≠ [] ∧ ∃ searchName, r.message = some (downloaded searchName)

/-- A client that has made one connection at most. -/
structure Single (ft : FTCalls.State) : Prop where
  inv : FTCalls.Inv ft
  online : ft.running.isSome ∨ ft.downloads ≠ [] → ft.connected = true
  one : ∀ d ∈ ft.downloads, d.connection = ft.connection

/-- What goes on with a connection that is neither made nor given up. -/
structure Continues (ft ft' : FTCalls.State) : Prop where
  connected : ft'.connected = ft.connected
  connection : ft'.connection = ft.connection
  running : ft'.running.isSome → ft.running.isSome ∨ ft.connected = true
  downloads : ∃ ended, ft'.downloads = ft.downloads ++ ended ∧
    (∀ d ∈ ended, d.connection = ft.connection) ∧
    (ended ≠ [] → ft.running.isSome ∨ ft.connected = true)

theorem Single.continues {ft ft' : FTCalls.State} (h : Single ft) (hgoes : Continues ft ft')
    (hinv : FTCalls.Inv ft') : Single ft' := by
  obtain ⟨ended, hended, hone, honline⟩ := hgoes.downloads
  have hconnected (hon : ft.running.isSome ∨ ft.connected = true) : ft'.connected = true := by
    rw [hgoes.connected]
    exact hon.elim (fun hrunning => h.online (.inl hrunning)) id
  refine ⟨hinv, ?_, fun d hd => ?_⟩
  · rintro (hrunning | hne)
    · exact hconnected (hgoes.running hrunning)
    · by_cases hold : ft.downloads = []
      · rw [hended, hold, List.nil_append] at hne
        exact hconnected (honline hne)
      · exact hconnected (.inr (h.online (.inr hold)))
  · rw [hended] at hd
    rw [hgoes.connection]
    exact (List.mem_append.mp hd).elim (h.one d) (hone d)

theorem Continues.spent {ft ft' : FTCalls.State} (h : Continues ft ft')
    (hspent : FTCalls.Spent ft) : FTCalls.Spent ft' := by
  obtain ⟨ended, hended, -⟩ := h.downloads
  obtain ⟨d, hd, hconnection, hreturned⟩ := hspent
  refine ⟨d, ?_, hconnection.trans h.connection.symm, hreturned⟩
  rw [hended]
  exact List.mem_append_left ended hd

section
variable {server : FTServer.Platform} {client : FTClient.Platform}
  {disks : ℕ → ℕ → FTServer.Disk}

theorem Single.connect {ft : FTCalls.State} (h : Single ft) (hrunning : ft.running = none)
    (attempt : Attempt) :
    Single (ft.connect attempt) ∧ (ft.connect attempt).running = none ∧
      (FTCalls.Spent ft → FTCalls.Spent (ft.connect attempt)) := by
  have hinv := h.inv.connect hrunning attempt
  have hkeeps : (ft.connect attempt).running = none ∧
      (ft.connect attempt).downloads = ft.downloads ∧
      (ft.connected = true → ft.connect attempt = ft) := by
    unfold FTCalls.State.connect
    split_ifs with hconnected
    · exact ⟨hrunning, rfl, fun _ => rfl⟩
    · cases attempt.lookUp with
      | error e => exact ⟨hrunning, rfl, fun h => absurd h hconnected⟩
      | ok response =>
        simp only
        split_ifs
        · exact ⟨hrunning, rfl, fun h => absurd h hconnected⟩
        · cases attempt.refused response.port <;>
            exact ⟨hrunning, rfl, fun h => absurd h hconnected⟩
  obtain ⟨hidle, hdownloads, hsame⟩ := hkeeps
  by_cases hnone : ft.downloads = []
  · refine ⟨⟨hinv, ?_, ?_⟩, hidle, ?_⟩
    · rintro (hsome | hne)
      · rw [hidle] at hsome
        cases hsome
      · exact absurd (hdownloads.trans hnone) hne
    · rw [hdownloads, hnone]
      exact fun d hd => nomatch hd
    · rintro ⟨d, hd, -⟩
      rw [hnone] at hd
      cases hd
  · rw [hsame (h.online (.inr hnone))]
    exact ⟨h, hrunning, id⟩

theorem getDirectory_continues (ft : FTCalls.State) (directoryName : Str) (sent : Bool) :
    Continues ft (ft.getDirectory client directoryName sent) := by
  unfold FTCalls.State.getDirectory
  split_ifs with hconnected
  · exact ⟨rfl, rfl, .inl, [], (List.append_nil _).symm, fun _ hd => absurd hd List.not_mem_nil,
      fun h => absurd rfl h⟩
  · have honline : ft.connected = true := by simpa using hconnected
    exact ⟨rfl, rfl, fun _ => .inr honline, [], (List.append_nil _).symm,
      fun _ hd => absurd hd List.not_mem_nil, fun h => absurd rfl h⟩
  · have honline : ft.connected = true := by simpa using hconnected
    refine ⟨rfl, rfl, .inl, [_], rfl, fun d hd => ?_, fun _ => .inr honline⟩
    rw [List.eq_of_mem_singleton hd]

/-- A request is underway only on a connection; whatever happens to it, it goes on. -/
theorem go_continues (ft : FTCalls.State) {e : FTCalls.Event}
    (he : ∀ attempt, e ≠ .connect attempt) (he' : ∀ sent, e ≠ .disconnect sent) :
    Continues ft (FTCalls.step server client disks ft e) := by
  have same {ft' : FTCalls.State} (hconnected : ft'.connected = ft.connected)
      (hconnection : ft'.connection = ft.connection) (hrunning : ft'.running = ft.running)
      (hdownloads : ft'.downloads = ft.downloads) : Continues ft ft' :=
    ⟨hconnected, hconnection, fun h => .inl (hrunning ▸ h), [],
      hdownloads.trans (List.append_nil _).symm, fun _ hd => absurd hd List.not_mem_nil,
      fun h => absurd rfl h⟩
  cases e with
  | connect attempt => exact absurd rfl (he attempt)
  | disconnect sent => exact absurd rfl (he' sent)
  | getDirectory directoryName sent =>
    rw [FTCalls.step]
    split_ifs
    · exact same rfl rfl rfl rfl
    · exact getDirectory_continues ft directoryName sent
  | toServer | serve | toClient => exact same rfl rfl rfl rfl
  | receive disk consumed =>
    rw [FTCalls.step, FTCalls.State.receive]
    cases hrunning : ft.running with
    | none => exact same rfl rfl rfl rfl
    | some directoryName =>
      have hsome : ft.running.isSome = true := by rw [hrunning]; rfl
      simp only
      generalize (FTClient.receiveFile disk client directoryName ft.link.closed ft.link.client).getD
        ft.link.client = received
      cases received.status with
      | receiving => exact same rfl rfl hrunning.symm rfl
      | returned | raised =>
        refine ⟨rfl, rfl, fun h => absurd h Bool.false_ne_true, [_], rfl, fun d hd => ?_,
          fun _ => .inl hsome⟩
        rw [List.eq_of_mem_singleton hd]
  | lost =>
    rw [FTCalls.step, FTCalls.State.lost]
    cases hrunning : ft.running with
    | none => exact same rfl rfl rfl rfl
    | some directoryName =>
      have hsome : ft.running.isSome = true := by rw [hrunning]; rfl
      refine ⟨rfl, rfl, fun h => absurd h Bool.false_ne_true, [_], rfl, fun d hd => ?_,
        fun _ => .inl hsome⟩
      rw [List.eq_of_mem_singleton hd]

end

structure Inv (s : State) : Prop where
  single : Single s.ft
  idle : s.pending = none → s.ft.running = none
  spent : ∀ r ∈ s.results, r.Wrote → FTCalls.Spent s.ft
  once : s.results.Pairwise fun r r' => r.Wrote → r'.written = []

theorem start_inv : Inv start :=
  ⟨⟨FTCalls.start_inv, fun h => (by simp [State.ft, start, FTCalls.start] at h),
    fun d hd => nomatch hd⟩, fun _ => rfl, fun r hr => (nomatch hr), List.Pairwise.nil⟩

/-- A request that writes nothing. -/
theorem Inv.show {s : State} (h : Inv s) (message : Option Str) : Inv (s.show message) := by
  have hnew {r : Result} (hr : r ∈ [(⟨[], message⟩ : Result)]) : r.written = [] := by
    rw [List.eq_of_mem_singleton hr]
  refine ⟨h.single, h.idle, fun r hr hwrote => ?_, ?_⟩
  · exact (List.mem_append.mp hr).elim (fun hold => h.spent r hold hwrote)
      fun hlast => absurd (hnew hlast) hwrote.1
  · exact List.pairwise_append.mpr
      ⟨h.once, List.pairwise_singleton _ _, fun _ _ r' hr' _ => hnew hr'⟩

/-- The client is replaced by one that has not lost anything. -/
theorem Inv.client {s : State} (h : Inv s) {address : Option Str} {ft : FTCalls.State}
    (hft : Single ft) (hidle : ft.running = none) (hspent : FTCalls.Spent s.ft → FTCalls.Spent ft) :
    Inv { s with ftClient := some (address, ft) } :=
  ⟨hft, fun _ => hidle, fun r hr hwrote => hspent (h.spent r hr hwrote), h.once⟩

theorem returned_of_report {exn : Failure → Exn} {searchName : Str} {d : Download}
    (h : (report exn searchName d).Wrote) : d.status = .returned := by
  obtain ⟨-, searchName', hmessage⟩ := h
  rw [report] at hmessage
  cases hstatus : d.status with
  | returned => rfl
  | receiving =>
    rw [hstatus] at hmessage
    cases hmessage
  | raised e =>
    rw [hstatus] at hmessage
    cases congrArg List.head? (Option.some.inj hmessage)

/-- The results of the calls that have ended are added: once a directory has been
    downloaded, the later ones have written nothing. -/
theorem Inv.act {s : State} (h : Inv s) {ft ft' : FTCalls.State} (hft : s.ft = ft)
    (hgoes : Continues ft ft') (hinv : FTCalls.Inv ft') (exn : Failure → Exn) (searchName : Str)
    (address : Option Str) : Inv (s.act exn searchName address ft ft') := by
  subst hft
  have hsingle := h.single.continues hgoes hinv
  obtain ⟨ended, hended, hone, -⟩ := hgoes.downloads
  have hdrop : ft'.downloads.drop s.ft.downloads.length = ended := by
    rw [hended, List.drop_left]
  have hreturned {d : Download} (hd : d ∈ ended) (hstatus : d.status = .returned) :
      FTCalls.Spent ft' := by
    refine ⟨d, ?_, (hone d hd).trans hgoes.connection.symm, hstatus⟩
    rw [hended]
    exact List.mem_append_right _ hd
  have honce := hinv.once
  rw [hended, List.pairwise_append] at honce
  obtain ⟨-, hnew, hcross⟩ := honce
  refine ⟨hsingle, fun hpending => ?_, ?_, ?_⟩
  · change (if ft'.running.isSome then some searchName else none) = none at hpending
    split_ifs at hpending with hrunning
    exact Option.not_isSome_iff_eq_none.mp hrunning
  · rintro r hr hwrote
    rw [State.act, hdrop] at hr
    rcases List.mem_append.mp hr with hold | hlast
    · exact hgoes.spent (h.spent r hold hwrote)
    · obtain ⟨d, hd, rfl⟩ := List.mem_map.mp hlast
      exact hreturned hd (returned_of_report hwrote)
  · rw [State.act, hdrop]
    refine List.pairwise_append.mpr ⟨h.once, List.pairwise_map.mpr ?_, ?_⟩
    · refine hnew.imp_of_mem fun hd hd' hwritten hwrote => ?_
      exact hwritten ((hone _ hd).trans (hone _ hd').symm) (returned_of_report hwrote)
    · intro r hr r' hr' hwrote
      obtain ⟨d', hd', rfl⟩ := List.mem_map.mp hr'
      obtain ⟨d, hd, hconnection, hstatus⟩ := h.spent r hr hwrote
      exact hcross d hd d' hd' (hconnection.trans (hone d' hd').symm) hstatus

section
variable {server : FTServer.Platform} {client : FTClient.Platform}
  {disks : ℕ → ℕ → FTServer.Disk} {platform : Platform} {exn : Failure → Exn}

theorem Inv.go {s : State} (h : Inv s) {e : FTCalls.Event} (he : ∀ attempt, e ≠ .connect attempt)
    (he' : ∀ sent, e ≠ .disconnect sent) : Inv (s.go server client disks exn e) := by
  rw [State.go]
  cases hclient : s.ftClient with
  | none => exact h
  | some pair =>
    obtain ⟨address, ft⟩ := pair
    have hft : s.ft = ft := by rw [State.ft, hclient]; rfl
    have hinv := h.single.inv
    rw [hft] at hinv
    exact h.act hft (go_continues ft he he') (FTCalls.step_inv hinv e) exn _ address

theorem Inv.sendFT {s : State} (h : Inv s) (hpending : s.pending = none)
    (address searchName : Option Str) (meets : Meets) :
    Inv (s.sendFT client exn address searchName meets) := by
  have hft := client_getD s address
  rw [State.sendFT]
  generalize s.ftClient.getD (address, FTCalls.start) = pair at hft ⊢
  obtain ⟨address, ft⟩ := pair
  obtain rfl : ft = s.ft := hft
  simp only
  obtain ⟨hsingle, hidle, hspent⟩ :=
    h.single.connect (h.idle hpending) (meets.attempt address)
  have hclient : Inv { s with ftClient := some (address, s.ft.connect (meets.attempt address)) } :=
    h.client hsingle hidle hspent
  cases searchName with
  | none => exact hclient.show _
  | some searchName =>
    simp only
    split_ifs
    · exact hclient.act rfl (getDirectory_continues _ _ _)
        (hsingle.inv.getDirectory hidle _ _) exn searchName address
    · exact hclient.show _

theorem step_inv {s : State} (h : Inv s) (e : Event) :
    Inv (step server client disks platform exn s e) := by
  cases e with
  | onGet =>
    rw [step]
    split_ifs with hpending
    · exact h
    · have hft : s.onGet.ft = s.ft := client_getD s _
      refine ⟨?_, ?_, ?_, h.once⟩
      · rw [hft]
        exact h.single
      · rw [hft]
        exact h.idle
      · rw [hft]
        exact h.spent
  | onPostSend protocol address searchName meets =>
    rw [step]
    split_ifs with hpending
    · exact h
    · exact h.sendFT (Option.not_isSome_iff_eq_none.mp hpending) address searchName meets
    · have hother (connection : SDConnection) : Inv { s with sdClient := some connection } :=
        ⟨h.single, h.idle, h.spent, h.once⟩
      rw [State.sendSD]
      split
      · exact (hother _).show _
      · exact (hother _).show _
    · exact h.show none
  | toServer count => exact h.go nofun nofun
  | serve => exact h.go nofun nofun
  | toClient count => exact h.go nofun nofun
  | receive disk consumed => exact h.go nofun nofun
  | lost => exact h.go nofun nofun

/-- In every run of the page, once a request has downloaded files no later one writes any,
    though the page goes on to say so. -/
theorem one_download (server : FTServer.Platform) (client : FTClient.Platform)
    (disks : ℕ → ℕ → FTServer.Disk) (platform : Platform) (exn : Failure → Exn)
    (events : List Event) :
    (run server client disks platform exn events).results.Pairwise fun r r' =>
      r.Wrote → r'.written = [] :=
  (List.foldlRecOn events _ start_inv fun _ h e _ => step_inv h e).once

end

/-- The peer is the server program on a connection that has just been made. What it sends
    in other passes comes after its answer. -/
def Serves (peer : Peer) : Prop :=
  ∀ text received, peer [text] = .ok received →
    ∃ (host : Host) (sys : System Unit) (now : DateTime) (reads : List ℕ) (more : Str),
      sys.conns () = ⟨0, ⟨text, reads⟩, false⟩ ∧
        received = (sys.step host (.request () now)).1.sent ++ more

/-- A `get` on a new connection is refused. -/
theorem step_get {host : Host} {sys : System Unit} {newLine name : Str} {reads : List ℕ}
    (hnl : TextReader.IsNewLine newLine) (now : DateTime)
    (h : sys.conns () = ⟨0, ⟨(SDClient.Operation.get name).text newLine 0, reads⟩, false⟩) :
    (sys.step host (.request () now)).1.sent =
      (SDServer.Reply.error (lit "No session open. Cannot perform GET.")).text host.newLine := by
  have hread : SDServer.nextCommand 0 ⟨(SDClient.Operation.get name).text newLine 0, reads⟩ =
      (some (.get []), ⟨name ++ newLine, reads⟩) := by
    have hline := @TextReader.readLine_newLine (lit "get") newLine (by decide) hnl
      (name ++ newLine) reads
    rw [SDClient.Operation.text, List.append_assoc, SDServer.nextCommand_get 0 hline, if_pos rfl]
  have hid : (sys.core ()).sessionId = 0 := congrArg Conn.sessionId h
  rw [System.step_request now (congrArg Conn.ended h), h]
  simp only [hread, SDServer.execute, SDServer.Core.get, if_pos hid]

theorem connect_eq_ok {refused : Option Exn} {reads : List ℕ} {σ σ' : SDClient.State (List Str)}
    (h : SDClient.connect refused reads [] σ = .ok () σ') :
    σ' = SDProtocolClient.online σ.sessionID [] reads [] := by
  obtain ⟨connected, sessionID, reader, writer, sent⟩ := σ
  cases connected with
  | true => cases h
  | false =>
    cases refused with
    | some e => cases h
    | none => exact (EStateM.Result.ok.inj h).2.symm

/-- The client has no session, so that no request returns a document. -/
theorem sendSD_fails (platform : Platform) {meets : Meets} (hserves : Serves meets.server)
    (ipAddr : Option Str) (port : UInt16) (searchName : Option Str)
    (σ : SDClient.State (List Str)) :
    ∃ e σ', sendSD platform meets ipAddr port searchName σ = .error e σ' := by
  cases hsend : sendSD platform meets ipAddr port searchName σ with
  | error e σ' => exact ⟨e, σ', rfl⟩
  | ok content σ' =>
    obtain ⟨_, σ₁, hconnect, hget⟩ := Exceptions.bind_eq_ok_iff.mp hsend
    rw [connect_eq_ok hconnect] at hget
    obtain ⟨received, hreceived, hdelivers⟩ :=
      (SDProtocolClient.getDocument_eq_ok_iff platform meets.server σ.sessionID meets.reads
        []).mp ⟨σ', hget⟩
    obtain ⟨host, sys, now, reads, more, hconn, rfl⟩ := hserves _ _ hreceived
    rw [step_get platform.isNewLine now hconn] at hdelivers
    exact absurd hdelivers (SDFetch.not_delivers_error host.isNewLine)

/-- No request has set `ResultMessage` to a document. -/
def Silent (results : List Result) : Prop :=
  ∀ r ∈ results, ∀ content, r.message ≠ some (returned content)

theorem error_silent (message content : Str) :
    some (lit "Error: " ++ message) ≠ some (returned content) := fun h =>
  nomatch congrArg List.head? (Option.some.inj h)

theorem downloaded_silent (searchName content : Str) :
    some (downloaded searchName) ≠ some (returned content) := fun h =>
  nomatch congrArg List.head? (Option.some.inj h)

theorem Silent.show {s : State} (h : Silent s.results) {message : Option Str}
    (hmessage : ∀ content, message ≠ some (returned content)) :
    Silent (s.show message).results := by
  intro r hr
  rcases List.mem_append.mp hr with hold | hlast
  · exact h r hold
  · rw [List.eq_of_mem_singleton hlast]
    exact hmessage

theorem Silent.act {s : State} (h : Silent s.results) (exn : Failure → Exn) (searchName : Str)
    (address : Option Str) (ft ft' : FTCalls.State) :
    Silent (s.act exn searchName address ft ft').results := by
  intro r hr
  rcases List.mem_append.mp hr with hold | hlast
  · exact h r hold
  · obtain ⟨d, -, rfl⟩ := List.mem_map.mp hlast
    intro content
    rw [report]
    cases d.status with
    | receiving => exact nofun
    | returned => exact downloaded_silent searchName content
    | raised e => exact error_silent _ content

section
variable {server : FTServer.Platform} {client : FTClient.Platform}
  {disks : ℕ → ℕ → FTServer.Disk} {platform : Platform} {exn : Failure → Exn}

theorem Silent.go {s : State} (h : Silent s.results) (e : FTCalls.Event) :
    Silent (s.go server client disks exn e).results := by
  rw [State.go]
  cases s.ftClient with
  | none => exact h
  | some pair => exact h.act exn _ pair.1 pair.2 _

theorem Silent.sendFT {s : State} (h : Silent s.results) (address searchName : Option Str)
    (meets : Meets) : Silent (s.sendFT client exn address searchName meets).results := by
  rw [State.sendFT]
  cases searchName with
  | none => exact Silent.show h fun content heq => nomatch congrArg List.head? (Option.some.inj heq)
  | some searchName =>
    simp only
    split_ifs
    · exact h.act exn searchName _ _ _
    · exact Silent.show h (downloaded_silent searchName)

theorem Silent.sendSD {s : State} (h : Silent s.results) (address searchName : Option Str)
    {meets : Meets} (hserves : Serves meets.server) :
    Silent (s.sendSD platform address searchName meets).results := by
  rw [State.sendSD]
  obtain ⟨e, σ', hfails⟩ := sendSD_fails platform hserves
    (s.sdClient.getD (.new address 40000)).ipAddr (s.sdClient.getD (.new address 40000)).port
    searchName (s.sdClient.getD (.new address 40000)).client
  simp only [hfails]
  exact Silent.show h (error_silent e.message)

theorem step_silent {s : State} (h : Silent s.results) {e : Event}
    (hserves : ∀ protocol address searchName meets,
      e = .onPostSend protocol address searchName meets → Serves meets.server) :
    Silent (step server client disks platform exn s e).results := by
  cases e with
  | onGet =>
    rw [step]
    split_ifs <;> exact h
  | onPostSend protocol address searchName meets =>
    rw [step]
    split_ifs
    · exact h
    · exact h.sendFT address searchName meets
    · exact h.sendSD address searchName (hserves protocol address searchName meets rfl)
    · exact Silent.show h nofun
  | toServer | serve | toClient | receive | lost => exact h.go _

end

/-- In every run of the page against the server program, no request gets a document. -/
theorem no_document (server : FTServer.Platform) (client : FTClient.Platform)
    (disks : ℕ → ℕ → FTServer.Disk) (platform : Platform) (exn : Failure → Exn)
    (events : List Event)
    (hserves : ∀ protocol address searchName meets,
      .onPostSend protocol address searchName meets ∈ events → Serves meets.server) :
    Silent (run server client disks platform exn events).results :=
  List.foldlRecOn (motive := fun s : State => Silent s.results) events _
    (fun _ hr => absurd hr List.not_mem_nil) fun _ h _ he =>
      step_silent h fun protocol address searchName meets heq =>
        hserves protocol address searchName meets (heq ▸ he)

/-- A request that meets the server program. -/
def served : Meets where
  attempt _ := ⟨.error .io, fun _ => none⟩
  sent := true
  refused _ _ := none
  reads := []
  server
    | [text] =>
      .ok ((System.fresh 100 fun _ : Unit => ⟨text, []⟩).step .unix (.request () 0)).1.sent
    | _ => .ok []

theorem no_document_served :
    let client := ⟨lit "\n", .inl rfl, lit "/", fun _ => false, fun _ => false, 0x2F⟩
    let results := (run .ordinal client (fun _ _ _ => none) SDProtocolClient.windows
      (fun _ => exception []) [.onGet,
        .onPostSend (some (lit "SD")) none (some (lit "a")) served]).results
    results = [⟨[], some (lit "Error: No session open. Cannot perform GET.")⟩] ∧
      Silent results := by
  intro client results
  refine ⟨by decide, no_document _ _ _ _ _ _ fun protocol address searchName meets hmem => ?_⟩
  obtain rfl : meets = served := by simp at hmem; exact hmem.2.2.2
  intro text received h
  obtain rfl := Except.ok.inj h
  exact ⟨.unix, .fresh 100 fun _ => ⟨text, []⟩, 0, [], [], rfl, (List.append_nil _).symm⟩

end NetServices.Browser
