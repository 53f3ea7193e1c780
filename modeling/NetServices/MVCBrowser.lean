import NetServices.FTCalls
import NetServices.FTTransfer
import NetServices.SDFetch

set_option autoImplicit false

/-!
# The page of the browser

`HomeController.cs`, `ContentFetcher.cs` and `FTProtocolClient.cs`: what a request
to the page shows. The controller and the fetcher live for one request, so that
the clients of the protocols are new in every request. The documents that the
server sends are well-formed text.
-/
namespace NetServices.MVCBrowser
open BinaryFormat (Failure)
open SDClient (Platform exception)
open SDFetch (Meeting Meets)
open SDProtocolClient (Call noSessions)
open SDServer (System)
open Utf16 (Str lit isNullOrWhiteSpace)

/-- The form; a field that is sent empty is bound to null. -/
structure IndexBrowserModel where
  protocol : Option Str := some (lit "SD")
  address : Option Str := some (lit "127.0.0.1")
  searchName : Option Str := some (lit "/foo/bar")
  resultMessage : Option Str := none
deriving DecidableEq

/-- `GetDocument` of a protocol client that has just been made. -/
abbrev ProtocolClient := Option Str → Option Str → Except Exn Str

abbrev Protocols := Str → Option ProtocolClient

def addProtocol (name : Str) (client : ProtocolClient) (protocols : Protocols) : Protocols :=
  Function.update protocols name (some client)

def fetch (protocols : Protocols) (type address resourceName : Option Str) : Except Exn Str :=
  if isNullOrWhiteSpace type || isNullOrWhiteSpace address || isNullOrWhiteSpace resourceName then
    .error (exception (lit "Type, address, and resource name cannot be empty."))
  else
    match protocols (type.getD []) with
    | none => .error (exception (lit "Unknown protocol type: " ++ type.getD []))
    | some protocolClient => protocolClient address resourceName

/-- What `FTProtocolClient` meets in a request. -/
structure FTVisit where
  platform : FTClient.Platform
  disk : FTClient.LocalDisk
  attempt : FTCalls.Attempt
  /-- Why the name of the directory cannot be sent. -/
  unsent : Option Exn
  stream : List UInt8
  exn : Failure → Exn

/-- `FTProtocolClient.GetDocument`, which writes the files of the directory and returns
    nothing of them. `Disconnect` catches what it raises. -/
def ftGetDocument (visit : FTVisit) : ProtocolClient := fun serverIP documentName =>
  let result := lit "todo: return the result string with all files in the directory\n"
  if isNullOrWhiteSpace serverIP || isNullOrWhiteSpace documentName then
    .error (exception (lit "Server IP and document name cannot be empty."))
  else if !(FTCalls.start.connect visit.attempt).connected then .ok result
  else
    match visit.unsent with
    | some e => .error e
    | none =>
      match (FTClient.getDirectory visit.disk visit.platform (documentName.getD [])
          visit.stream).status with
      | .raised e => .error (visit.exn e)
      | .receiving | .returned => .ok result

def sdGetDocument (platform : Platform) (call : Call) : ProtocolClient :=
  fun serverIP documentName =>
    (SDProtocolClient.step platform noSessions { call with serverIP, documentName }).1

/-- What the constructor of the controller adds. -/
def protocols (platform : Platform) (sd : Call) (ft : FTVisit) : Protocols :=
  addProtocol (lit "FT") (ftGetDocument ft)
    (addProtocol (lit "SD") (sdGetDocument platform sd) fun _ => none)

/-- `Index`, when the form is posted. -/
def index (protocols : Protocols) (model : IndexBrowserModel) : IndexBrowserModel :=
  if isNullOrWhiteSpace model.address || isNullOrWhiteSpace model.searchName then
    { model with resultMessage := some (lit "Address and Search Name cannot be empty.") }
  else
    match fetch protocols model.protocol model.address model.searchName with
    | .ok content => { model with resultMessage := some content }
    | .error e => { model with resultMessage := some (lit "Error: " ++ e.message) }

/-- The call of a request for a document. -/
def IndexBrowserModel.call (model : IndexBrowserModel) (sd : Call) : Call :=
  { sd with serverIP := model.address, documentName := model.searchName }

section
variable {platform : Platform} {sd : Call} {model : IndexBrowserModel} {ip : Str} {port : UInt16}

theorem not_blank (h : (model.call sd).target = some (ip, port)) :
    (isNullOrWhiteSpace model.address || isNullOrWhiteSpace model.searchName) = false := by
  rw [Call.target] at h
  by_contra hblank
  rw [if_pos (Bool.not_eq_false _ ▸ hblank)] at h
  cases h

/-- A request that reaches a server shows what its call returns, or the error. -/
theorem index_message (ft : FTVisit) (hsd : model.protocol = some (lit "SD"))
    (h : (model.call sd).target = some (ip, port)) :
    (index (protocols platform sd ft) model).resultMessage =
      match (SDProtocolClient.step platform noSessions (model.call sd)).1 with
      | .ok content => some content
      | .error e => some (lit "Error: " ++ e.message) := by
  have hblank := not_blank h
  have hother : (lit "SD") ≠ lit "FT" := by decide
  have hclient : protocols platform sd ft (lit "SD") = some (sdGetDocument platform sd) := by
    rw [protocols, addProtocol, Function.update_of_ne hother, addProtocol, Function.update_self]
  have hfetch : fetch (protocols platform sd ft) model.protocol model.address model.searchName =
      (SDProtocolClient.step platform noSessions (model.call sd)).1 := by
    rw [fetch, hsd, Bool.or_assoc, hblank]
    simp only [Option.getD_some, hclient]
    rfl
  rw [index, hblank, hfetch]
  cases (SDProtocolClient.step platform noSessions (model.call sd)).1 <;> rfl

end

section
variable {κ : Type} [DecidableEq κ]

/-- A document that a request shows: what is posted into the session of the request between
    its two passes. -/
structure Shows (m : Meeting κ) (call : Call) (ip : Str) (port : UInt16) (content : Str) :
    Prop where
  connects : call.refused ip port = none
  disconnects : call.disconnectFailed = none
  nonempty : content ≠ []
  fits : content.length < 2147483648
  posted : System.Posted m.host m.opened m.between m.asked.table.nextSessionId
    (call.documentName.getD []) content

/-- A request for a document shows nothing but what somebody else posts into the session of
    that request while it lasts, and without it an error. -/
theorem index_shows (platform : Platform) (sd : Call) (ft : FTVisit) (model : IndexBrowserModel)
    (m : Meeting κ) (ip : Str) (port : UInt16) (hsd : model.protocol = some (lit "SD"))
    (htarget : (model.call sd).target = some (ip, port))
    (hmeets : Meets platform (model.call sd) .open m)
    (hid : m.asked.table.nextSessionId ≠ 0) :
    (∃ content, Shows m (model.call sd) ip port content ∧
      (index (protocols platform sd ft) model).resultMessage = some content) ∨
    (∀ content, ¬ Shows m (model.call sd) ip port content) ∧ ∃ message,
      (index (protocols platform sd ft) model).resultMessage =
        some (lit "Error: " ++ message) := by
  have hcall (content : Str) := @SDFetch.first_call_iff κ _ platform (model.call sd) m noSessions
    ip port content hmeets hid htarget rfl
  rw [index_message ft hsd htarget]
  cases hstep : (SDProtocolClient.step platform noSessions (model.call sd)).1 with
  | ok content =>
    obtain ⟨hconnects, hdisconnects, hne, hfits, hposted⟩ := (hcall content).mp hstep
    exact .inl ⟨content, ⟨hconnects, hdisconnects, hne, hfits, hposted⟩, rfl⟩
  | error e =>
    refine .inr ⟨fun content h => ?_, e.message, rfl⟩
    have hok := (hcall content).mpr ⟨h.connects, h.disconnects, h.nonempty, h.fits, h.posted⟩
    cases hstep.symm.trans hok

end

/-- Between the passes of a request another connection resumes its session and posts. -/
def shared : Meeting Bool where
  host := .unix
  system := .fresh 100 fun c => ⟨if c then lit "open\nget\r\na\r\n"
    else lit "resume\n1\npost\na\n2\nxy", []⟩
  connection := true
  before := []
  time := 0
  between := [.request false 1, .request false 2]
  time' := 3

def unusedFT : FTVisit where
  platform := .slashed
  disk := .writable
  attempt := ⟨.error .io, fun _ => none⟩
  unsent := none
  stream := []
  exn _ := exception []

def asking : IndexBrowserModel := { address := some (lit "10.0.0.1"), searchName := some (lit "a") }

theorem index_shows_shared : ∃ content, Shows shared (asking.call SDFetch.reading)
      (lit "10.0.0.1") 40001 content ∧
    (index (protocols SDProtocolClient.windows SDFetch.reading unusedFT) asking).resultMessage =
      some content := by
  have hmeets : Meets SDProtocolClient.windows (asking.call SDFetch.reading) .open shared :=
    ⟨by decide, by decide, ⟨[], rfl⟩, nofun, fun now => by simp [shared], rfl, rfl⟩
  refine (index_shows SDProtocolClient.windows SDFetch.reading unusedFT asking shared
    (lit "10.0.0.1") 40001 rfl rfl hmeets (by decide)).resolve_right fun h => ?_
  obtain ⟨-, message, hmessage⟩ := h
  cases hmessage

end NetServices.MVCBrowser
