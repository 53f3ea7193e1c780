import NetServices.Browser
import NetServices.PRSRuns

set_option autoImplicit false

/-!
# The page and the port reservation server

The page looks for the file transfer server under a name of its own, and the
server program registers under another one. As long as nobody asks for a port
under the name that is looked for, the look-up is refused and the page never
connects; `ResultMessage` says all the same that it has downloaded what it was
asked for.
-/
namespace NetServices

namespace PRS
open Utf16 (Str)

/-- A request for a port under the name. -/
def Registers (serviceName : Str) (x : Input) : Prop :=
  x.2.msgType = .requestPort ∧ x.2.serviceName = serviceName

/-- No reservation has the name, be it held or not. -/
def Unnamed (serviceName : Str) (prs : PRS) : Prop :=
  ∀ r ∈ prs.ports, r.serviceName ≠ serviceName

section
variable {serviceName : Str} {prs : PRS}

theorem Unnamed.update (h : prs.Unnamed serviceName) (i : ℕ)
    {f : PortReservation → PortReservation}
    (hf : ∀ r, r.serviceName ≠ serviceName → (f r).serviceName ≠ serviceName) :
    (prs.update i f).Unnamed serviceName := by
  intro r hr
  obtain ⟨j, hj⟩ := List.getElem?_of_mem hr
  obtain ⟨r₀, hr₀, hchange⟩ := update_entry hj
  have hold := h r₀ (List.mem_of_getElem? hr₀)
  rcases hchange with ⟨-, rfl⟩ | ⟨-, rfl⟩
  · exact hf r₀ hold
  · exact hold

theorem Unnamed.swept (h : prs.Unnamed serviceName) (hs : serviceName ≠ []) (now : DateTime) :
    (prs.checkForExpiredPorts now).Unnamed serviceName := by
  intro r hr
  obtain ⟨i, hi⟩ := List.getElem?_of_mem hr
  obtain ⟨r₀, hr₀, rfl⟩ := swept_entry hi
  by_cases hlive : r₀.Live prs.keepAliveTimeout now
  · rw [sweep_of_live hlive]
    exact h r₀ (List.mem_of_getElem? hr₀)
  · have hfree : (sweep prs.keepAliveTimeout now r₀).available = true := by
      by_contra hheld
      exact hlive (sweep_held (Bool.eq_false_iff.mpr hheld)).2
    rw [((sweep prs.keepAliveTimeout now r₀).free hfree).1]
    exact hs.symm

/-- Only a request for a port under the name gives the name to a reservation. -/
theorem Unnamed.handleMessage (h : prs.Unnamed serviceName) (hs : serviceName ≠ [])
    {x : Input} (hx : ¬ Registers serviceName x) :
    (prs.handleMessage x.1 x.2).2.Unnamed serviceName := by
  have hswept := h.swept hs x.1
  have hchange := handleMessage_change prs x.1 x.2
  generalize (prs.handleMessage x.1 x.2).1 = reply at hchange
  generalize (prs.handleMessage x.1 x.2).2 = prs' at hchange ⊢
  cases hchange with
  | granted i r type =>
    refine hswept.update i fun r hr => ?_
    unfold PortReservation.reserve
    split_ifs
    · exact fun hname => hx ⟨type, hname⟩
    · exact hr
  | refreshed i r =>
    refine hswept.update i fun r hr => ?_
    rw [PortReservation.keepAlive_serviceName]
    exact hr
  | released i r => exact hswept.update i fun r _ => hs.symm
  | inUse | busy | notRefreshed | notReleased | found | notFound | stop | ignored => exact hswept

theorem unnamed_run {fuel : ℕ} {start ending : UInt16} {timeout : ℤ}
    (h : construct fuel start ending timeout = some prs) (hs : serviceName ≠ [])
    {run : List Input} (hrun : ∀ x ∈ run, ¬ Registers serviceName x) :
    (Machine.final step prs run).Unnamed serviceName := by
  have hstart : prs.Unnamed serviceName := by
    intro r hr
    obtain ⟨i, hi⟩ := List.getElem?_of_mem hr
    rw [(construct_spec h).2.2.2.2.2 i r hi]
    exact hs.symm
  clear h
  induction run generalizing prs with
  | nil => exact hstart
  | cons x run ih =>
    refine ih (fun y hy => hrun y (List.mem_cons_of_mem x hy)) ?_
    exact hstart.handleMessage hs (hrun x List.mem_cons_self)

/-- A name that no reservation has is not found. -/
theorem Unnamed.lookup (h : prs.Unnamed serviceName) (hs : serviceName ≠ []) {x : Input}
    (type : x.2.msgType = .lookupPort) (hname : x.2.serviceName = serviceName) :
    (prs.handleMessage x.1 x.2).1 = some (response serviceName 0 .serviceNotFound) := by
  have hswept := h.swept hs x.1
  have hchange := handleMessage_change prs x.1 x.2
  generalize (prs.handleMessage x.1 x.2).1 = reply at hchange ⊢
  generalize (prs.handleMessage x.1 x.2).2 = prs' at hchange
  cases hchange with
  | found i r _ entry name =>
    exact absurd (name.trans hname) (hswept r (List.mem_of_getElem? entry))
  | notFound => rw [hname]
  | granted _ _ other | inUse _ other | busy other | refreshed _ _ other | notRefreshed other
  | released _ _ other | notReleased other | stop other =>
    rw [type] at other
    cases other
  | ignored other =>
    rw [type] at other
    rcases other with other | ⟨value, other⟩ <;> cases other

end
end PRS

namespace Browser
open BinaryFormat (Failure)
open FTCalls (Attempt)
open SDClient (Platform)
open Utf16 (Str lit)

/-- The name that the file transfer client of the page is made with. -/
def ftServiceName : Str := lit "FTClient"

/-- The look-up fails, or it is answered by a PRS that nobody has asked for a port under the
    name. One that is never answered blocks the request, which then has no attempt. -/
def Unregistered (attempt : Attempt) : Prop :=
  ∀ response, attempt.lookUp = .ok response →
    ∃ fuel start ending timeout prs run now,
      PRS.construct fuel start ending timeout = some prs ∧
      (∀ x ∈ run, ¬ PRS.Registers ftServiceName x) ∧
      (PRS.step (Machine.final PRS.step prs run) (now, FTCalls.request ftServiceName)).1 =
        some response

theorem Unregistered.refused {attempt : Attempt} (h : Unregistered attempt)
    (s : FTCalls.State) : s.connect attempt = s := by
  unfold FTCalls.State.connect
  split_ifs
  · rfl
  · cases hlookUp : attempt.lookUp with
    | error e => rfl
    | ok response =>
      obtain ⟨_, _, _, _, prs, run, now, hconstruct, hrun, hanswer⟩ := h response hlookUp
      have hs : ftServiceName ≠ [] := by decide
      have hfound := (PRS.unnamed_run hconstruct hs hrun).lookup hs
        (x := (now, FTCalls.request ftServiceName)) rfl rfl
      obtain rfl := Option.some.inj (hanswer.symm.trans hfound)
      exact if_pos (by decide)

/-- The page has never had a connection to a file transfer server. -/
structure Offline (s : State) : Prop where
  connected : s.ft.connected = false
  running : s.ft.running = none
  downloads : s.ft.downloads = []
  pending : s.pending = none
  written : ∀ r ∈ s.results, r.written = []

theorem Offline.show {s : State} (h : Offline s) (message : Option Str) :
    Offline (s.show message) := by
  refine ⟨h.connected, h.running, h.downloads, h.pending, fun r hr => ?_⟩
  rcases List.mem_append.mp hr with hr | hr
  · exact h.written r hr
  · rw [List.eq_of_mem_singleton hr]

section
variable {server : FTServer.Platform} {client : FTClient.Platform}
  {disks : ℕ → ℕ → FTServer.Disk} {platform : Platform} {exn : Failure → Exn}

/-- Nothing comes of a connection that there is not. -/
theorem Offline.go {s : State} (h : Offline s) {e : FTCalls.Event}
    (he : ∀ attempt, e ≠ .connect attempt) (he' : ∀ sent, e ≠ .disconnect sent) :
    Offline (s.go server client disks exn e) := by
  rw [State.go]
  cases hclient : s.ftClient with
  | none => exact h
  | some pair =>
    obtain ⟨address, ft⟩ := pair
    have hft : s.ft = ft := by rw [State.ft, hclient]; rfl
    obtain ⟨hconnected, hrunning, hdownloads, hpending, hwritten⟩ := h
    rw [hft] at hconnected hrunning hdownloads
    have hgoes := @go_continues server client disks ft e he he'
    simp only
    generalize FTCalls.step server client disks ft e = ft' at hgoes ⊢
    have hidle : ¬ (ft.running.isSome ∨ ft.connected = true) := by
      rw [hrunning, hconnected]
      rintro (hsome | honline)
      · cases hsome
      · cases honline
    obtain ⟨ended, hended, -, hnone⟩ := hgoes.downloads
    obtain rfl : ended = [] := by
      by_contra hne
      exact hidle (hnone hne)
    have hrunning' : ft'.running = none := by
      rw [← Option.not_isSome_iff_eq_none]
      exact fun hsome => hidle (hgoes.running hsome)
    have hdownloads' : ft'.downloads = [] := by
      rw [hended, hdownloads]
      rfl
    refine ⟨hgoes.connected.trans hconnected, hrunning', hdownloads', ?_, fun r hr => ?_⟩
    · rw [State.act, hrunning']
      rfl
    · rw [State.act, hdownloads', List.drop_nil, List.map_nil, List.append_nil] at hr
      exact hwritten r hr

/-- A request for files ends with the message that they have been downloaded. -/
theorem Offline.sendFT {s : State} (h : Offline s) {meets : Meets}
    (hmeets : ∀ address, Unregistered (meets.attempt address)) (address searchName : Option Str) :
    Offline (s.sendFT client exn address searchName meets) ∧
      ∀ name, searchName = some name →
        (s.sendFT client exn address searchName meets).results =
          s.results ++ [⟨[], some (downloaded name)⟩] := by
  have hft := client_getD s address
  rw [State.sendFT]
  generalize s.ftClient.getD (address, FTCalls.start) = pair at hft ⊢
  obtain ⟨address, ft⟩ := pair
  obtain rfl : ft = s.ft := hft
  simp only
  rw [(hmeets address).refused s.ft]
  have hclient : Offline { s with ftClient := some (address, s.ft) } :=
    ⟨h.connected, h.running, h.downloads, h.pending, h.written⟩
  cases searchName with
  | none => exact ⟨hclient.show _, fun _ hname => by cases hname⟩
  | some searchName =>
    simp only
    rw [if_neg (by rw [h.connected]; exact Bool.false_ne_true)]
    refine ⟨hclient.show _, fun name hname => ?_⟩
    rw [← Option.some.inj hname]
    rfl

theorem step_offline {s : State} (h : Offline s) {e : Event}
    (he : ∀ protocol address searchName meets, e = .onPostSend protocol address searchName meets →
      ∀ address, Unregistered (meets.attempt address)) :
    Offline (step server client disks platform exn s e) := by
  cases e with
  | onGet =>
    rw [step]
    split_ifs
    · exact h
    · have hft : s.onGet.ft = s.ft := client_getD s _
      refine ⟨?_, ?_, ?_, h.pending, h.written⟩
      · rw [hft]
        exact h.connected
      · rw [hft]
        exact h.running
      · rw [hft]
        exact h.downloads
  | onPostSend protocol address searchName meets =>
    rw [step]
    split_ifs
    · exact h
    · exact (h.sendFT (he protocol address searchName meets rfl) address searchName).1
    · have hother (connection : SDConnection) :
          Offline { s with sdClient := some connection } :=
        ⟨h.connected, h.running, h.downloads, h.pending, h.written⟩
      rw [State.sendSD]
      split
      · exact (hother _).show _
      · exact (hother _).show _
    · exact h.show none
  | toServer count => exact h.go (by simp) (by simp)
  | serve => exact h.go (by simp) (by simp)
  | toClient count => exact h.go (by simp) (by simp)
  | receive consumed => exact h.go (by simp) (by simp)
  | lost => exact h.go (by simp) (by simp)

theorem run_concat (events : List Event) (e : Event) :
    run server client disks platform exn (events ++ [e]) =
      step server client disks platform exn (run server client disks platform exn events) e :=
  List.foldl_concat ..

theorem run_offline {events : List Event}
    (h : ∀ protocol address searchName meets,
      .onPostSend protocol address searchName meets ∈ events →
      ∀ address, Unregistered (meets.attempt address)) :
    Offline (run server client disks platform exn events) := by
  refine List.foldlRecOn events _ ⟨rfl, rfl, rfl, rfl, fun r hr => nomatch hr⟩
    fun s hs e hmem => step_offline hs ?_
  rintro protocol address searchName meets rfl
  exact h protocol address searchName meets hmem

/-- As long as every look-up fails or is answered, and nobody registers under the name that
    the page looks for, no request writes a file, and every request for files sets
    `ResultMessage` as if it had downloaded them. -/
theorem downloads_nothing (server : FTServer.Platform) (client : FTClient.Platform)
    (disks : ℕ → ℕ → FTServer.Disk) (platform : Platform) (exn : Failure → Exn)
    (events : List Event)
    (hunregistered : ∀ protocol address searchName meets,
      .onPostSend protocol address searchName meets ∈ events →
      ∀ address, Unregistered (meets.attempt address)) :
    (∀ r ∈ (run server client disks platform exn events).results, r.written = []) ∧
    ∀ before address name meets after,
      events = before ++ .onPostSend (some (lit "FT")) address (some name) meets :: after →
      (run server client disks platform exn (before ++
        [.onPostSend (some (lit "FT")) address (some name) meets])).results =
        (run server client disks platform exn before).results ++
          [⟨[], some (downloaded name)⟩] := by
  refine ⟨(run_offline hunregistered).written, ?_⟩
  rintro before address name meets after rfl
  have hbefore : Offline (run server client disks platform exn before) :=
    run_offline fun protocol address' searchName meets' hmem =>
      hunregistered protocol address' searchName meets' (List.mem_append_left _ hmem)
  have hmeets := hunregistered _ _ _ meets (List.mem_append_right before List.mem_cons_self)
  rw [run_concat, step, if_neg (by rw [hbefore.pending]; exact Bool.false_ne_true), if_pos rfl]
  exact (hbefore.sendFT hmeets address (some name)).2 name rfl

end

/-- A request that comes when the server program has registered under its own name. -/
def registered : Meets where
  attempt _ := ⟨.ok (PRS.response ftServiceName 0 .serviceNotFound), fun _ => none⟩
  sent := true
  refused _ _ := none
  reads := []
  server _ := .ok []

theorem downloads_nothing_registered :
    (run .ordinal .slashed (fun _ _ _ => some []) SDProtocolClient.windows
      (fun _ => SDClient.exception []) [.onPostSend (some (lit "FT")) (some (lit "10.0.0.1"))
        (some (lit "docs")) registered]).results = [⟨[], some (downloaded (lit "docs"))⟩] := by
  refine (downloads_nothing .ordinal .slashed (fun _ _ _ => some []) SDProtocolClient.windows
    (fun _ => SDClient.exception []) _ fun protocol address searchName meets hmem => ?_).2 [] _ _
    registered [] rfl
  obtain rfl : meets = registered := by simp at hmem; exact hmem.2.2.2
  rintro address response hresponse
  obtain rfl := Except.ok.inj hresponse
  refine ⟨3, 40000, 40001, 10, ⟨40000, 40001, 10, [.new 40000, .new 40001], false⟩,
    [(0, ⟨.requestPort, lit "FT Server", 0, .success⟩)], 1, by decide, ?_, by decide⟩
  rintro x hx ⟨-, hname⟩
  rw [List.eq_of_mem_singleton hx] at hname
  exact absurd hname (by decide)

end Browser
end NetServices
