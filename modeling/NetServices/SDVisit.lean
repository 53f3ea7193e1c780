import NetServices.SDClientOutcomes
import NetServices.SDProtocolClient

set_option autoImplicit false

/-!
# One call of the browser's client

A call works with one session of the dictionary. On an idle session it returns a
document exactly if it connects, the server accepts the session request and has
the document, and it disconnects; otherwise it raises, and once it has connected
it leaves the client connected.
-/
namespace NetServices.SDProtocolClient
open SDClient (Client Platform State Operation Accepts Delivers
  receiveSessionResponse_eq_ok_iff receiveGetResponse_eq_ok_iff)
open Utf16 (Str lit isNullOrWhiteSpace)
open Exceptions

/-- The server accepts the session request with an id, and answers the `get` after it
    with a document. -/
def Served (platform : Platform) (call : Call) (request : Operation) (id : UInt64)
    (content : Str) : Prop :=
  let first := request.text platform.newLine 0
  let second := (Operation.get (call.documentName.getD [])).text platform.newLine 0
  ∃ received rest received', call.server [first] = .ok received ∧ Accepts received id rest ∧
    call.server [first, second] = .ok received' ∧ Delivers (rest ++ received') content

/-- The server and the port that a call goes to; none if it throws before. -/
def Call.target (call : Call) : Option (Str × UInt16) :=
  if isNullOrWhiteSpace call.serverIP || isNullOrWhiteSpace call.documentName then none
  else
    match call.lookUpPort (lit "Simple Document (SD) Service") with
    | .ok (some message) =>
      if message.port = 0 then none else some (call.serverIP.getD [], message.port)
    | _ => none

/-- The session that a call to the server works with. -/
def held (sessions : Sessions) (ip : Str) (port : UInt16) : SDSession :=
  (sessions ip).getD (.new ip port 0)

/-- The client of the session is not connected, and the session can be resumed. -/
def Resumable (session : SDSession) : Prop :=
  session.client.connected = false ∧ session.sessionId ≠ 0

section
variable (platform : Platform) (peer : Peer) (sessionID : UInt64) (reads : List ℕ)
  (sent : List Str)

/-- A client with an empty buffer on a connection that has carried some requests. -/
def online (sessionID : UInt64) (chars : Str) (reads : List ℕ) (sent : List Str) :
    State (List Str) :=
  ⟨true, sessionID, ⟨chars, reads⟩, [], sent⟩

theorem send_eq_ok_iff (chars text : Str) {σ' : State (List Str)} :
    (SDClient.write text >>= fun _ => SDClient.flush (env platform peer))
        (online sessionID chars reads sent) = .ok () σ' ↔
      ∃ received, peer (sent ++ [text]) = .ok received ∧
        σ' = online sessionID (chars ++ received) reads (sent ++ [text]) := by
  rw [bind_run, SDClient.write, modify_run]
  simp only [SDClient.flush, env, online, List.nil_append]
  cases peer (sent ++ [text]) with
  | ok received =>
    constructor
    · intro h
      obtain ⟨-, rfl⟩ := EStateM.Result.ok.inj h
      exact ⟨received, rfl, rfl⟩
    · rintro ⟨_, h, rfl⟩
      obtain rfl := Except.ok.inj h
      rfl
  | error e =>
    constructor
    · intro h
      cases h
    · rintro ⟨_, h, -⟩
      cases h

theorem openSession_eq_ok_iff {σ' : State (List Str)} :
    SDClient.openSession (env platform peer) (online sessionID [] reads []) = .ok () σ' ↔
      ∃ received id rest, peer [Operation.open.text platform.newLine 0] = .ok received ∧
        Accepts received id rest ∧
        σ' = online id rest reads [Operation.open.text platform.newLine 0] := by
  rw [SDClient.openSession, bind_run, SDClient.validateConnected_run rfl]
  simp only
  rw [bind_eq_ok_iff]
  constructor
  · rintro ⟨_, σ₁, hsend, h⟩
    obtain ⟨received, hreceived, rfl⟩ :=
      (send_eq_ok_iff platform peer sessionID reads [] _ _).mp hsend
    obtain ⟨id, σ₂, hid, h⟩ := bind_eq_ok_iff.mp (rethrow_eq_ok_iff.mp h)
    obtain ⟨rest, haccepts, rfl⟩ :=
      (receiveSessionResponse_eq_ok_iff _ (online sessionID [] reads _)).mp hid
    obtain ⟨-, rfl⟩ := EStateM.Result.ok.inj h
    exact ⟨received, id, rest, hreceived, haccepts, rfl⟩
  · rintro ⟨received, id, rest, hreceived, haccepts, rfl⟩
    have hresponse := (receiveSessionResponse_eq_ok_iff (env platform peer)
      (online sessionID [] reads [Operation.open.text platform.newLine 0])).mpr
      ⟨rest, haccepts, rfl⟩
    exact ⟨(), _, (send_eq_ok_iff platform peer sessionID reads [] _ _).mpr
      ⟨received, hreceived, rfl⟩, rethrow_eq_ok_iff.mpr (bind_eq_ok_iff.mpr
        ⟨id, _, hresponse, rfl⟩)⟩

theorem resumeSession_eq_ok_iff {id : UInt64} (hid : id ≠ 0) {σ' : State (List Str)} :
    SDClient.resumeSession (env platform peer) id (online sessionID [] reads []) = .ok () σ' ↔
      ∃ received rest, peer [(Operation.resume id).text platform.newLine 0] = .ok received ∧
        Accepts received id rest ∧
        σ' = online id rest reads [(Operation.resume id).text platform.newLine 0] := by
  rw [SDClient.resumeSession, if_neg hid, bind_run, SDClient.validateConnected_run rfl]
  simp only
  rw [bind_eq_ok_iff]
  constructor
  · rintro ⟨_, σ₁, hsend, h⟩
    obtain ⟨received, hreceived, rfl⟩ :=
      (send_eq_ok_iff platform peer sessionID reads [] _ _).mp hsend
    obtain ⟨returned, σ₂, hreturned, h⟩ := bind_eq_ok_iff.mp h
    obtain ⟨rest, haccepts, rfl⟩ :=
      (receiveSessionResponse_eq_ok_iff _ (online sessionID [] reads _)).mp hreturned
    split_ifs at h with hdiffer
    · cases h
    · obtain rfl := not_not.mp hdiffer
      obtain ⟨-, rfl⟩ := EStateM.Result.ok.inj h
      exact ⟨received, rest, hreceived, haccepts, rfl⟩
  · rintro ⟨received, rest, hreceived, haccepts, rfl⟩
    have hresponse := (receiveSessionResponse_eq_ok_iff (env platform peer)
      (online sessionID [] reads [(Operation.resume id).text platform.newLine 0])).mpr
      ⟨rest, haccepts, rfl⟩
    refine ⟨(), _, (send_eq_ok_iff platform peer sessionID reads [] _ _).mpr
      ⟨received, hreceived, rfl⟩, bind_eq_ok_iff.mpr ⟨id, _, hresponse, ?_⟩⟩
    rw [if_neg (not_not.mpr rfl)]
    rfl

theorem getDocument_eq_ok_iff {name chars content : Str} :
    (∃ σ', SDClient.getDocument (env platform peer) name (online sessionID chars reads sent) =
        .ok content σ') ↔
      ∃ received, peer (sent ++ [(Operation.get name).text platform.newLine 0]) = .ok received ∧
        Delivers (chars ++ received) content := by
  have hsend : ∀ σ', SDClient.sendGet (env platform peer) name
      (online sessionID chars reads sent) = .ok () σ' ↔ _ := fun σ' =>
    send_eq_ok_iff platform peer sessionID reads sent chars
      ((Operation.get name).text platform.newLine 0)
  rw [SDClient.getDocument, bind_run, SDClient.validateConnected_run rfl]
  simp only [bind_eq_ok_iff, hsend]
  constructor
  · rintro ⟨σ', _, σ₁, ⟨received, hreceived, rfl⟩, h⟩
    exact ⟨received, hreceived, (receiveGetResponse_eq_ok_iff _
      (online sessionID [] reads _)).mp ⟨σ', h⟩⟩
  · rintro ⟨received, hreceived, hdelivers⟩
    obtain ⟨σ', h⟩ := (receiveGetResponse_eq_ok_iff (env platform peer)
      (online sessionID [] reads _)).mpr hdelivers
    exact ⟨σ', (), _, ⟨received, hreceived, rfl⟩, h⟩

end

section
variable {α β : Type}

theorem onClient_eq_ok_iff {m : Client (List Str) α} {session session' : SDSession} {a : α} :
    onClient m session = .ok a session' ↔
      ∃ client, m session.client = .ok a client ∧ session' = { session with client := client } := by
  rw [onClient]
  cases m session.client with
  | ok b client =>
    constructor
    · intro h
      obtain ⟨rfl, rfl⟩ := EStateM.Result.ok.inj h
      exact ⟨client, rfl, rfl⟩
    · rintro ⟨_, h, rfl⟩
      obtain ⟨rfl, rfl⟩ := EStateM.Result.ok.inj h
      rfl
  | error e client =>
    constructor
    · intro h
      cases h
    · rintro ⟨_, h, -⟩
      cases h

theorem onClient_leaves {m : Client (List Str) α} (h : Leaves State.connected m) :
    Leaves (fun session => session.client.connected) (onClient m) := by
  intro session
  have hm := h session.client
  revert hm
  rw [onClient]
  cases m session.client <;> exact id

theorem onSession_bind (ip : Str) (m : EStateM Exn SDSession α)
    (f : α → EStateM Exn SDSession β) :
    (onSession ip m >>= fun a => onSession ip (f a)) = onSession ip (m >>= f) := by
  funext sessions
  rw [bind_run]
  simp only [onSession]
  cases sessions ip with
  | none => rfl
  | some session =>
    simp only [bind_run]
    cases m session with
    | ok a session' => simp only [Function.update_self, Function.update_idem]
    | error e session' => rfl

theorem onSession_pure (ip : Str) (m : EStateM Exn SDSession α) (b : β) :
    (onSession ip m >>= fun _ => pure b) = onSession ip (m >>= fun _ => pure b) := by
  funext sessions
  rw [bind_run]
  simp only [onSession]
  cases sessions ip with
  | none => rfl
  | some session =>
    simp only [bind_run]
    cases m session <;> rfl

end

section
variable (platform : Platform) (call : Call)

/-- What a call does to the session it works with, around the session request. -/
def visit (request : EStateM Exn SDSession Unit) : EStateM Exn SDSession Str := do
  connect call
  request
  let output ←
    onClient (SDClient.getDocument (env platform call.server) (call.documentName.getD []))
  onClient (SDClient.disconnect call.disconnectFailed)
  pure output

def request : Option SDSession → EStateM Exn SDSession Unit
  | none => do
    openSession platform call
    modify fun session => { session with sessionId := session.client.sessionID }
  | some _ => resumeSession platform call

theorem getDocument_none (sessions : Sessions) (h : call.target = none) :
    ∃ e, getDocument platform call sessions = .error e sessions := by
  rw [Call.target] at h
  rw [getDocument]
  split_ifs at h ⊢ with hblank
  · exact ⟨_, rfl⟩
  · simp only
    cases hlookup : call.lookUpPort (lit "Simple Document (SD) Service") with
    | error e => exact ⟨_, rfl⟩
    | ok message =>
      cases message with
      | none => exact ⟨_, rfl⟩
      | some message =>
        simp only [hlookup] at h ⊢
        split_ifs at h ⊢
        exact ⟨_, rfl⟩

theorem getDocument_some {ip : Str} {port : UInt16} (h : call.target = some (ip, port)) :
    getDocument platform call = (do
      openOrResumeSession platform call ip port
      let output ← onSession ip
        (onClient (SDClient.getDocument (env platform call.server) (call.documentName.getD [])))
      onSession ip (onClient (SDClient.disconnect call.disconnectFailed))
      pure output) := by
  rw [Call.target] at h
  rw [getDocument]
  split_ifs at h ⊢ with hblank
  simp only
  cases hlookup : call.lookUpPort (lit "Simple Document (SD) Service") with
  | error e =>
    simp only [hlookup] at h
    cases h
  | ok message =>
    cases message with
    | none =>
      simp only [hlookup] at h
      cases h
    | some message =>
      simp only [hlookup] at h ⊢
      split_ifs at h ⊢
      obtain ⟨rfl, rfl⟩ := Prod.mk.inj (Option.some.inj h)
      rfl

theorem openOrResumeSession_run (ip : Str) (port : UInt16) (sessions : Sessions) :
    openOrResumeSession platform call ip port sessions =
      onSession ip (connect call >>= fun _ => request platform call (sessions ip))
        (Function.update sessions ip (some (held sessions ip port))) := by
  rw [openOrResumeSession, held, bind_run, get_run, ← onSession_bind]
  cases hsession : sessions ip with
  | none =>
    simp only [request, ← onSession_bind, hsession, Option.isNone_none, if_true]
    rfl
  | some session =>
    rw [Option.getD_some, ← hsession, Function.update_eq_self]
    simp only [hsession, Option.isNone_some, Bool.false_eq_true, if_false]
    rfl

/-- A call works with one session, and leaves it in the dictionary however it ends. -/
theorem step_run {ip : Str} {port : UInt16} (h : call.target = some (ip, port))
    (sessions : Sessions) :
    step platform sessions call =
      match visit platform call (request platform call (sessions ip)) (held sessions ip port) with
      | .ok content session => (.ok content, Function.update sessions ip (some session))
      | .error e session => (.error e, Function.update sessions ip (some session)) := by
  have hrun : getDocument platform call sessions =
      onSession ip (visit platform call (request platform call (sessions ip)))
        (Function.update sessions ip (some (held sessions ip port))) := by
    rw [getDocument_some platform call h, bind_run, openOrResumeSession_run, ← bind_run]
    simp only [onSession_pure, onSession_bind, bind_assoc]
    rfl
  rw [step, hrun, onSession, Function.update_self]
  simp only [Function.update_idem]
  cases visit platform call (request platform call (sessions ip)) (held sessions ip port) <;> rfl

theorem connect_run {session : SDSession} (hidle : session.client.connected = false) :
    connect call session =
      match call.refused session.ipAddr session.port with
      | some e => .error e session
      | none =>
        .ok () { session with client := online session.client.sessionID [] call.reads [] } := by
  obtain ⟨ip, port, ⟨connected, sessionID, reader, writer, sent⟩, id⟩ := session
  obtain rfl : connected = false := hidle
  rw [connect, bind_run, get_run]
  cases h : call.refused ip port <;> simp only [h] <;> rfl

theorem connect_twice {session : SDSession} (hconnected : session.client.connected = true) :
    ∃ e, connect call session = .error e session := by
  obtain ⟨ip, port, ⟨connected, sessionID, reader, writer, sent⟩, id⟩ := session
  obtain rfl : connected = true := hconnected
  exact ⟨_, rfl⟩

theorem disconnect_run {session : SDSession} (hconnected : session.client.connected = true) :
    onClient (SDClient.disconnect call.disconnectFailed) session =
      match call.disconnectFailed with
      | some e => .error e session
      | none => .ok () { session with client := { session.client with connected := false } } := by
  obtain ⟨ip, port, ⟨connected, sessionID, reader, writer, sent⟩, id⟩ := session
  obtain rfl : connected = true := hconnected
  cases call.disconnectFailed <;> rfl

theorem request_leaves (stored : Option SDSession) :
    Leaves (fun session => session.client.connected) (request platform call stored) := by
  cases stored with
  | none =>
    refine (onClient_leaves (SDClient.openSession_leaves _)).bind fun _ => ?_
    exact .modifyGet fun _ => rfl
  | some stored =>
    exact Leaves.get.bind fun session => onClient_leaves (SDClient.resumeSession_leaves _ _)

/-- A call that raises after it has connected leaves the client connected. -/
theorem visit_ends {session : SDSession} (hidle : session.client.connected = false)
    (stored : Option SDSession) :
    Ends (fun _ session' => session'.client.connected = false)
      (fun _ session' =>
        session'.client.connected = true ∧ call.refused session.ipAddr session.port = none ∨
          session' = session ∧ call.refused session.ipAddr session.port ≠ none)
      (visit platform call (request platform call stored) session) := by
  rw [visit, bind_run, connect_run call hidle]
  cases hrefused : call.refused session.ipAddr session.port with
  | some e => exact .inr ⟨rfl, Option.some_ne_none e⟩
  | none =>
    have hget := onClient_leaves (SDClient.getDocument_leaves (env platform call.server)
      (call.documentName.getD []))
    have hdisconnect : ∀ session₂ : SDSession, session₂.client.connected = true →
        Ends (fun _ session' => session'.client.connected = false)
          (fun _ session' => session'.client.connected = true)
          (onClient (SDClient.disconnect call.disconnectFailed) session₂) := by
      intro session₂ hconnected
      rw [disconnect_run call hconnected]
      cases call.disconnectFailed with
      | some e => exact hconnected
      | none => rfl
    refine Ends.imp (Ends.bind ((request_leaves platform call stored).ends (v := true) rfl)
      fun _ session₁ h₁ => (hget.ends h₁).bind fun content session₂ h₂ =>
        (hdisconnect session₂ h₂).bind fun _ session₃ h₃ => ?_) (fun _ _ h => h)
      fun _ _ h => .inl ⟨h, rfl⟩
    exact h₃

/-- What follows an accepted session request. -/
theorem fetch_eq_ok_iff (session : SDSession) (sent : List Str) {id : UInt64} {rest content : Str}
    (hclient : session.client = online session.sessionId rest call.reads sent) :
    (∃ session', (onClient (SDClient.getDocument (env platform call.server)
          (call.documentName.getD [])) >>= fun output =>
          onClient (SDClient.disconnect call.disconnectFailed) >>= fun _ => pure output)
        session = .ok content session' ∧ session'.sessionId = id) ↔
      call.disconnectFailed = none ∧ session.sessionId = id ∧ ∃ received, call.server
        (sent ++ [(Operation.get (call.documentName.getD [])).text platform.newLine 0]) =
          .ok received ∧ Delivers (rest ++ received) content := by
  have hconnected := (onClient_leaves (SDClient.getDocument_leaves (env platform call.server)
    (call.documentName.getD []))).ends (s := session) (v := true) (by rw [hclient]; rfl)
  rw [← getDocument_eq_ok_iff platform call.server session.sessionId call.reads sent, ← hclient]
  constructor
  · rintro ⟨session', h, hid⟩
    obtain ⟨output, session₁, hget, h⟩ := bind_eq_ok_iff.mp h
    obtain ⟨_, session₂, hdisconnect, h⟩ := bind_eq_ok_iff.mp h
    obtain ⟨rfl, rfl⟩ := EStateM.Result.ok.inj h
    rw [hget] at hconnected
    rw [disconnect_run call hconnected] at hdisconnect
    obtain ⟨client, hdocument, rfl⟩ := onClient_eq_ok_iff.mp hget
    cases hfailed : call.disconnectFailed with
    | some e =>
      rw [hfailed] at hdisconnect
      cases hdisconnect
    | none =>
      rw [hfailed] at hdisconnect
      obtain ⟨-, rfl⟩ := EStateM.Result.ok.inj hdisconnect
      exact ⟨rfl, hid, client, hdocument⟩
  · rintro ⟨hfailed, hid, client, hdocument⟩
    have hget := onClient_eq_ok_iff.mpr ⟨client, hdocument, rfl⟩
    rw [hget] at hconnected
    have hdisconnect := (disconnect_run call hconnected).trans (by rw [hfailed])
    exact ⟨_, bind_eq_ok_iff.mpr ⟨content, _, hget, bind_eq_ok_iff.mpr
      ⟨(), _, hdisconnect, rfl⟩⟩, hid⟩

/-- A call on an idle session returns a document exactly if it connects, is served, and
    disconnects. -/
theorem visit_eq_ok_iff {session : SDSession} (hidle : session.client.connected = false)
    {request : EStateM Exn SDSession Unit} (op : Operation) {P : UInt64 → Prop}
    (hrequest : ∀ session', request { session with
        client := online session.client.sessionID [] call.reads [] } = .ok () session' ↔
      ∃ received id rest, call.server [op.text platform.newLine 0] = .ok received ∧
        Accepts received id rest ∧ P id ∧ session' = { session with
          client := online id rest call.reads [op.text platform.newLine 0]
          sessionId := id })
    {id : UInt64} {content : Str} :
    (∃ session', visit platform call request session = .ok content session' ∧
        session'.sessionId = id) ↔
      call.refused session.ipAddr session.port = none ∧ call.disconnectFailed = none ∧ P id ∧
        Served platform call op id content := by
  rw [visit, bind_run, connect_run call hidle]
  cases hrefused : call.refused session.ipAddr session.port with
  | some e =>
    constructor
    · rintro ⟨_, h, -⟩
      cases h
    · rintro ⟨h, -⟩
      cases h
  | none =>
    constructor
    · rintro ⟨session', h, hid⟩
      obtain ⟨_, session₁, h₁, hrest⟩ := bind_eq_ok_iff.mp h
      obtain ⟨received, id', rest, hreceived, haccepts, hP, rfl⟩ := (hrequest session₁).mp h₁
      obtain ⟨hfailed, rfl, received', hreceived', hdelivers⟩ :=
        (fetch_eq_ok_iff platform call _ [_] rfl).mp ⟨session', hrest, hid⟩
      exact ⟨rfl, hfailed, hP, received, rest, received', hreceived, haccepts, hreceived',
        hdelivers⟩
    · rintro ⟨-, hfailed, hP, received, rest, received', hreceived, haccepts, hreceived',
        hdelivers⟩
      have h₁ := (hrequest _).mpr ⟨received, id, rest, hreceived, haccepts, hP, rfl⟩
      obtain ⟨session', hrest, hid⟩ := (fetch_eq_ok_iff platform call { session with
        client := online id rest call.reads [op.text platform.newLine 0]
        sessionId := id } _ rfl).mpr ⟨hfailed, rfl, received', hreceived', hdelivers⟩
      exact ⟨session', bind_eq_ok_iff.mpr ⟨(), _, h₁, hrest⟩, hid⟩

/-- A first call returns a document exactly if the server accepts an open. -/
theorem visit_none_eq_ok_iff {session : SDSession} (hidle : session.client.connected = false)
    (id : UInt64) (content : Str) :
    (∃ session', visit platform call (request platform call none) session = .ok content session' ∧
        session'.sessionId = id) ↔
      call.refused session.ipAddr session.port = none ∧ call.disconnectFailed = none ∧
        Served platform call .open id content := by
  rw [visit_eq_ok_iff platform call hidle .open (P := fun _ => True), true_and]
  intro session'
  rw [request, bind_eq_ok_iff]
  constructor
  · rintro ⟨_, session₁, hopen, h⟩
    obtain ⟨client, hclient, rfl⟩ := onClient_eq_ok_iff.mp hopen
    obtain ⟨received, id, rest, hreceived, haccepts, rfl⟩ :=
      (openSession_eq_ok_iff platform call.server _ call.reads).mp hclient
    obtain ⟨-, rfl⟩ := EStateM.Result.ok.inj h
    exact ⟨received, id, rest, hreceived, haccepts, trivial, rfl⟩
  · rintro ⟨received, id, rest, hreceived, haccepts, -, rfl⟩
    have hopen := (openSession_eq_ok_iff platform call.server session.client.sessionID
      call.reads).mpr ⟨received, id, rest, hreceived, haccepts, rfl⟩
    exact ⟨(), _, onClient_eq_ok_iff.mpr ⟨_, hopen, rfl⟩, rfl⟩

/-- A later call returns a document exactly if the server accepts the resume. -/
theorem visit_some_eq_ok_iff {session : SDSession} (h : Resumable session) (stored : SDSession)
    (id : UInt64) (content : Str) :
    (∃ session', visit platform call (request platform call (some stored)) session =
        .ok content session' ∧ session'.sessionId = id) ↔
      call.refused session.ipAddr session.port = none ∧ call.disconnectFailed = none ∧
        id = session.sessionId ∧ Served platform call (.resume session.sessionId) id content := by
  rw [visit_eq_ok_iff platform call h.1 (.resume session.sessionId)
    (P := fun id => id = session.sessionId)]
  intro session'
  rw [request, resumeSession, bind_run, get_run]
  simp only
  rw [onClient_eq_ok_iff]
  simp only [resumeSession_eq_ok_iff platform call.server _ call.reads h.2]
  constructor
  · rintro ⟨_, ⟨received, rest, hreceived, haccepts, rfl⟩, rfl⟩
    exact ⟨received, _, rest, hreceived, haccepts, rfl, rfl⟩
  · rintro ⟨received, _, rest, hreceived, haccepts, rfl, rfl⟩
    exact ⟨_, ⟨received, rest, hreceived, haccepts, rfl⟩, rfl⟩

/-- Nothing restores a session that is not resumable. -/
theorem visit_stuck {session : SDSession} (h : ¬ Resumable session) (stored : SDSession) :
    ∃ e session', visit platform call (request platform call (some stored)) session =
      .error e session' ∧ ¬ Resumable session' := by
  cases hconnected : session.client.connected with
  | true =>
    obtain ⟨e, hconnect⟩ := connect_twice call hconnected
    refine ⟨e, session, ?_, h⟩
    rw [visit, bind_run, hconnect]
  | false =>
    have hid : session.sessionId = 0 := by
      by_contra hid
      exact h ⟨hconnected, hid⟩
    have hends := visit_ends platform call hconnected (some stored)
    cases hvisit : visit platform call (request platform call (some stored)) session with
    | ok content session' =>
      rw [visit, bind_run, connect_run call hconnected] at hvisit
      cases hrefused : call.refused session.ipAddr session.port with
      | some e =>
        rw [hrefused] at hvisit
        cases hvisit
      | none =>
        rw [hrefused] at hvisit
        obtain ⟨_, session₁, hresume, -⟩ := bind_eq_ok_iff.mp hvisit
        rw [request, resumeSession, bind_run, get_run] at hresume
        obtain ⟨client, hclient, -⟩ := onClient_eq_ok_iff.mp hresume
        simp only [hid, SDClient.resumeSession, if_true] at hclient
        cases hclient
    | error e session' =>
      rw [hvisit] at hends
      refine ⟨e, session', rfl, fun hresumable => ?_⟩
      rcases hends with ⟨hbusy, -⟩ | ⟨rfl, -⟩
      · exact Bool.false_ne_true (hresumable.1.symm.trans hbusy)
      · exact h hresumable

end

end NetServices.SDProtocolClient
