import NetServices.SDRecovery

set_option autoImplicit false

/-!
# To which port the browser's client connects

A session is found again by the address of its server alone, and connects with
the client that it was made with. The port that was looked up for a later call
to the server is not used.
-/
namespace NetServices.SDProtocolClient
open SDClient (Platform Operation Accepts exception)
open Utf16 (Str lit)
open Exceptions

/-- The address and the port that a call connects to; none if it throws before. -/
def Call.connection (sessions : Sessions) (call : Call) : Option (Str × UInt16) :=
  call.target.bind fun (ip, port) =>
    let session := held sessions ip port
    if session.client.connected then none else some (session.ipAddr, session.port)

/-- The same call while connections to one address and port are refused. -/
def Call.refusing (call : Call) (ip : Str) (port : UInt16) (e : Exn) : Call :=
  { call with
    refused := fun ip' port' =>
      if (ip', port') = (ip, port) then some e else call.refused ip' port' }

/-- The first request of a call that has connected; none if it throws before. -/
def Call.sessionRequest (sessions : Sessions) (call : Call) : Option Operation :=
  call.target.bind fun (ip, _) =>
    match sessions ip with
    | none => some .open
    | some session => if session.sessionId = 0 then none else some (.resume session.sessionId)

/-- The server of the call accepts an open with this id. -/
def Granted (platform : Platform) (call : Call) (id : UInt64) : Prop :=
  ∃ received rest, call.server [Operation.open.text platform.newLine 0] = .ok received ∧
    Accepts received id rest

/-- The call opens a session at an address and a port, and is given this id. -/
structure Obtains (platform : Platform) (sessions : Sessions) (call : Call) (ip : Str)
    (port : UInt16) (id : UInt64) : Prop where
  connection : call.connection sessions = some (ip, port)
  accepted : call.refused ip port = none
  opens : call.sessionRequest sessions = some .open
  granted : Granted platform call id

/-- A call after some others connects to the server that it is given, at the port that it has
    looked up, and resumes only a session that one of them has obtained there. -/
def ContactsCurrent (platform : Platform) (before : List Call) (call : Call) : Prop :=
  let sessions := Machine.final (step platform) noSessions before
  ∀ ip port, call.connection sessions = some (ip, port) →
    call.target = some (ip, port) ∧
      ∀ id, call.sessionRequest sessions = some (.resume id) →
        ∃ earlier opening since, before = earlier ++ opening :: since ∧
          Obtains platform (Machine.final (step platform) noSessions earlier) opening ip port id

/-- A session that is held for the server has an idle client only with the port that the call
    has looked up. -/
def PortCurrent (sessions : Sessions) (call : Call) : Prop :=
  ∀ ip port session, call.target = some (ip, port) → sessions ip = some session →
    session.client.connected = false → session.port = port

/-- The port that was looked up for the server when it was first called. -/
def firstPort (ip : Str) (calls : List Call) : Option UInt16 :=
  calls.findSome? fun call => call.target.bind fun (ip', port) =>
    if ip' = ip then some port else none

section
variable {τ α : Type} {part : SDSession → τ}

theorem onClient_keeps {m : SDClient.Client (List Str) α}
    (h : ∀ session client, part { session with client := client } = part session) :
    Leaves part (onClient m) := by
  intro session
  rw [onClient]
  cases m session.client with
  | ok a client => exact h session client
  | error e client => exact h session client

theorem connect_keeps (call : Call)
    (h : ∀ session client, part { session with client := client } = part session) :
    Leaves part (connect call) :=
  Leaves.get.bind fun _ => onClient_keeps h

theorem visit_keeps (platform : Platform) (call : Call)
    (h : ∀ session client, part { session with client := client } = part session)
    {request : EStateM Exn SDSession Unit} (hrequest : Leaves part request) :
    Leaves part (visit platform call request) :=
  (connect_keeps call h).bind fun _ => hrequest.bind fun _ => (onClient_keeps h).bind fun _ =>
    (onClient_keeps h).bind fun _ => .pure _

end

section
variable (platform : Platform) {sessions : Sessions} {call : Call} {ip : Str} {port : UInt16}

theorem connection_of_target (h : call.target = some (ip, port)) :
    call.connection sessions =
      if (held sessions ip port).client.connected then none
      else some ((held sessions ip port).ipAddr, (held sessions ip port).port) := by
  rw [Call.connection, h, Option.bind_some]

theorem sessionRequest_of_target (h : call.target = some (ip, port)) :
    call.sessionRequest sessions = match sessions ip with
      | none => some .open
      | some session =>
        if session.sessionId = 0 then none else some (.resume session.sessionId) := by
  rw [Call.sessionRequest, h, Option.bind_some]

theorem target_of_connection {address : Str × UInt16}
    (h : call.connection sessions = some address) :
    ∃ ip port, call.target = some (ip, port) ∧
      (held sessions ip port).client.connected = false ∧
      address = ((held sessions ip port).ipAddr, (held sessions ip port).port) := by
  obtain ⟨⟨ip, port⟩, htarget, h⟩ := Option.bind_eq_some_iff.mp h
  simp only at h
  split_ifs at h with hconnected
  exact ⟨ip, port, htarget, Bool.eq_false_iff.mpr hconnected, (Option.some.inj h).symm⟩

theorem refused_step {e : Exn} (h : call.connection sessions = some (ip, port))
    (hrefused : call.refused ip port = some e) : (step platform sessions call).1 = .error e := by
  obtain ⟨ip', port', htarget, hidle, haddress⟩ := target_of_connection h
  obtain ⟨rfl, rfl⟩ := Prod.mk.inj haddress
  rw [step_run platform call htarget, visit, bind_run, connect_run call hidle, hrefused]

/-- A call asks for no other connection. -/
theorem step_refused_congr {refused : Str → UInt16 → Option Exn}
    (h : ∀ ip port, call.connection sessions = some (ip, port) →
      refused ip port = call.refused ip port) :
    step platform sessions { call with refused := refused } = step platform sessions call := by
  cases htarget : call.target with
  | none =>
    rw [Call.target] at htarget
    rw [step, step, getDocument, getDocument]
    split_ifs at htarget ⊢
    · rfl
    · simp only
      cases hlookup : call.lookUpPort (lit "Simple Document (SD) Service") with
      | error e => rfl
      | ok message =>
        cases message with
        | none => rfl
        | some message =>
          simp only [hlookup] at htarget ⊢
          split_ifs at htarget ⊢
          rfl
  | some target =>
    obtain ⟨ip, port⟩ := target
    have hconnect : connect { call with refused := refused } (held sessions ip port) =
        connect call (held sessions ip port) := by
      cases hconnected : (held sessions ip port).client.connected with
      | true =>
        revert hconnected
        generalize held sessions ip port = session
        obtain ⟨ip, port, ⟨connected, sessionID, reader, writer, sent⟩, id⟩ := session
        rintro rfl
        rfl
      | false =>
        have hat := h (held sessions ip port).ipAddr (held sessions ip port).port (by
          rw [connection_of_target htarget, hconnected, if_neg Bool.false_ne_true])
        rw [connect_run _ hconnected, connect_run _ hconnected]
        simp only [hat]
    rw [step_run platform call htarget,
      step_run platform { call with refused := refused } htarget, visit, visit, bind_run, bind_run,
      hconnect]
    rfl

/-- The connection of a call is the one whose failure the call raises. -/
theorem connection_eq_some_iff :
    call.connection sessions = some (ip, port) ↔
      ∀ e, (step platform sessions (call.refusing ip port e)).1 = .error e := by
  constructor
  · intro h e
    have hconnection : (call.refusing ip port e).connection sessions = some (ip, port) := h
    exact refused_step platform hconnection (if_pos rfl)
  · intro h
    by_contra hother
    have hsame : ∀ e, (step platform sessions call).1 = .error e := by
      intro e
      rw [← h e, Call.refusing, step_refused_congr platform fun ip' port' h' => if_neg ?_]
      intro hhere
      exact hother (hhere ▸ h')
    have habsurd := (hsame ⟨.other, []⟩).symm.trans (hsame ⟨.io, []⟩)
    exact ExnKind.noConfusion (congrArg Exn.kind (Except.error.inj habsurd))

end

section
variable (platform : Platform) {sessions : Sessions} {call : Call} {ip : Str} {port : UInt16}

/-- A call that has connected raises what its first request meets. -/
theorem sessionRequest_fails {op : Operation} {e : Exn}
    (hconnection : call.connection sessions = some (ip, port))
    (haccepted : call.refused ip port = none) (hrequest : call.sessionRequest sessions = some op)
    (hfails : call.server [op.text platform.newLine 0] = .error e) :
    (step platform sessions call).1 = .error e := by
  obtain ⟨ip', port', htarget, hidle, haddress⟩ := target_of_connection hconnection
  obtain ⟨rfl, rfl⟩ := Prod.mk.inj haddress
  rw [sessionRequest_of_target htarget] at hrequest
  have hvisit : ∀ client, request platform call (sessions ip')
      { held sessions ip' port' with
        client := online (held sessions ip' port').client.sessionID [] call.reads [] } =
          .error e { held sessions ip' port' with client := client } →
      (step platform sessions call).1 = .error e := by
    intro client hraised
    rw [step_run platform call htarget, visit, bind_run, connect_run call hidle, haccepted]
    simp only
    rw [bind_error hraised]
  cases hsession : sessions ip' with
  | none =>
    rw [hsession] at hrequest hvisit
    obtain rfl := Option.some.inj hrequest
    have hdeliver : (env platform call.server).deliver (Operation.open.text platform.newLine
        (held sessions ip' port').client.sessionID) [] = .error e := congrArg (Except.map _) hfails
    obtain ⟨client, hopen⟩ := @SDClient.openSession_fails _ (env platform call.server) _
      ⟨[], call.reads⟩ _ _ hdeliver
    refine hvisit client (bind_error ?_)
    rw [openSession, onClient]
    simp only [online, hopen]
  | some session =>
    rw [hsession] at hrequest hvisit
    simp only at hrequest
    split_ifs at hrequest with hid
    obtain rfl := Option.some.inj hrequest
    obtain rfl : held sessions ip' port' = session := by rw [held, hsession, Option.getD_some]
    have hdeliver : (env platform call.server).deliver
        ((Operation.resume (held sessions ip' port').sessionId).text platform.newLine
          (held sessions ip' port').client.sessionID) [] = .error e :=
      congrArg (Except.map _) hfails
    obtain ⟨client, hresume⟩ := @SDClient.resumeSession_fails _ (env platform call.server) _
      ⟨[], call.reads⟩ _ _ _ hid hdeliver
    refine hvisit client ?_
    rw [request, resumeSession, bind_run, get_run]
    simp only [onClient, online, hresume]

end

section
variable (platform : Platform) (call : Call)

/-- A session that is resumed keeps its id. -/
theorem visit_some_keeps (session : SDSession) :
    Leaves SDSession.sessionId (visit platform call (request platform call (some session))) :=
  visit_keeps platform call (fun _ _ => rfl)
    (Leaves.get.bind fun _ => onClient_keeps fun _ _ => rfl)

theorem visit_keeps_address (stored : Option SDSession) :
    Leaves (fun session => (session.ipAddr, session.port))
      (visit platform call (request platform call stored)) := by
  refine visit_keeps platform call (fun _ _ => rfl) ?_
  cases stored with
  | none => exact (onClient_keeps fun _ _ => rfl).bind fun _ => .modifyGet fun _ => rfl
  | some session => exact Leaves.get.bind fun _ => onClient_keeps fun _ _ => rfl

theorem request_new_id {session : SDSession} (hid : session.sessionId = 0) :
    let Known := fun session' : SDSession =>
      session'.sessionId = 0 ∨ Granted platform call session'.sessionId
    Ends (fun _ => Known) (fun _ => Known) (request platform call none
      { session with client := online session.client.sessionID [] call.reads [] }) := by
  intro Known
  have hkeeps : Leaves SDSession.sessionId (openSession platform call) :=
    onClient_keeps fun _ _ => rfl
  have hopen := hkeeps.ends (s := { session with
    client := online session.client.sessionID [] call.reads [] }) hid
  rw [request, bind_run]
  cases h : openSession platform call { session with
      client := online session.client.sessionID [] call.reads [] } with
  | error e session' =>
    rw [h] at hopen
    exact .inl hopen
  | ok _ session' =>
    obtain ⟨client, hclient, rfl⟩ := onClient_eq_ok_iff.mp h
    obtain ⟨received, id, rest, hreceived, haccepts, rfl⟩ :=
      (openSession_eq_ok_iff platform call.server _ call.reads).mp hclient
    exact .inr ⟨received, rest, hreceived, haccepts⟩

/-- A new session has an id other than 0 only if it has connected and the server has accepted
    the open with it. -/
theorem visit_new_id (session : SDSession) (hidle : session.client.connected = false)
    (hid : session.sessionId = 0) :
    let Known := fun session' : SDSession => session'.sessionId = 0 ∨
      call.refused session.ipAddr session.port = none ∧
        Granted platform call session'.sessionId
    Ends (fun _ => Known) (fun _ => Known)
      (visit platform call (request platform call none) session) := by
  intro Known
  rw [visit, bind_run, connect_run call hidle]
  cases hrefused : call.refused session.ipAddr session.port with
  | some e => exact .inl hid
  | none =>
    have hrequest := (request_new_id platform call hid).imp
      (fun _ session₁ h => h.imp_right (And.intro hrefused))
      (fun _ session₁ h => h.imp_right (And.intro hrefused))
    refine hrequest.bind fun _ session₁ hknown => ?_
    have hkeeps : ∀ {β} (m : SDClient.Client (List Str) β),
        Leaves SDSession.sessionId (onClient m) := fun m => onClient_keeps fun _ _ => rfl
    refine (Ends.part_iff (P := fun id => id = 0 ∨
      call.refused session.ipAddr session.port = none ∧ Granted platform call id)
      (Leaves.ends ?_ rfl)).mpr hknown
    exact (hkeeps _).bind fun _ => (hkeeps _).bind fun _ => .pure _

end

section
variable (platform : Platform) {sessions : Sessions} {call : Call} {ip : Str} {port : UInt16}

/-- The session that a call leaves is the one with which its visit ends. -/
theorem session_of_visit (htarget : call.target = some (ip, port)) {Q : SDSession → Prop}
    (h : Ends (fun _ => Q) (fun _ => Q)
      (visit platform call (request platform call (sessions ip)) (held sessions ip port)))
    {session : SDSession} (hsession : (step platform sessions call).2 ip = some session) :
    Q session := by
  rw [step_run platform call htarget] at hsession
  revert h hsession
  cases visit platform call (request platform call (sessions ip)) (held sessions ip port) <;>
  · intro h hsession
    simp only [Function.update_self] at hsession
    exact Option.some.inj hsession ▸ h

/-- A call leaves a session as it was but for its client, or makes one for the server of the
    call, with an id only if the call has obtained it. -/
theorem step_session {session : SDSession}
    (h : (step platform sessions call).2 ip = some session) :
    (∃ old, sessions ip = some old ∧ session.ipAddr = old.ipAddr ∧ session.port = old.port ∧
        session.sessionId = old.sessionId) ∨
      session.ipAddr = ip ∧ (session.sessionId ≠ 0 →
        Obtains platform sessions call ip session.port session.sessionId) := by
  by_cases htarget : ∃ port, call.target = some (ip, port)
  · obtain ⟨port, htarget⟩ := htarget
    have haddress := session_of_visit platform htarget
      (visit_keeps_address platform call (sessions ip) (held sessions ip port)) h
    obtain ⟨hip, hport⟩ := Prod.mk.inj haddress
    cases hstored : sessions ip with
    | some old =>
      obtain rfl : held sessions ip port = old := by rw [held, hstored, Option.getD_some]
      have hid := visit_some_keeps platform call (held sessions ip port) (held sessions ip port)
      rw [← hstored] at hid
      exact .inl ⟨_, rfl, hip, hport, session_of_visit platform htarget hid h⟩
    | none =>
      have hnew : held sessions ip port = .new ip port 0 := by
        rw [held, hstored, Option.getD_none]
      rw [hnew] at hip hport
      have hid := visit_new_id platform call (.new ip port 0) rfl rfl
      rw [← hstored, ← hnew] at hid
      have hid := session_of_visit platform htarget hid h
      have hconnection : call.connection sessions = some (ip, port) := by
        rw [connection_of_target htarget, hnew]
        rfl
      have hopens : call.sessionRequest sessions = some .open := by
        rw [sessionRequest_of_target htarget, hstored]
      refine .inr ⟨hip, fun hne => ?_⟩
      obtain ⟨haccepted, hgranted⟩ := hid.resolve_left hne
      rw [hnew] at haccepted
      rw [hport]
      exact ⟨hconnection, haccepted, hopens, hgranted⟩
  · rw [step_other platform fun port hport => htarget ⟨port, hport⟩] at h
    exact .inl ⟨session, h, rfl, rfl, rfl⟩

theorem firstPort_concat (before : List Call) :
    firstPort ip (before ++ [call]) = (firstPort ip before).or (firstPort ip [call]) :=
  List.findSome?_append

theorem firstPort_target (h : call.target = some (ip, port)) : firstPort ip [call] = some port := by
  rw [firstPort, List.findSome?_singleton, h, Option.bind_some]
  exact if_pos rfl

theorem firstPort_other (h : ∀ port, call.target ≠ some (ip, port)) :
    firstPort ip [call] = none := by
  rw [firstPort, List.findSome?_singleton]
  cases htarget : call.target with
  | none => rfl
  | some target =>
    obtain ⟨ip', port⟩ := target
    refine if_neg fun hip => h port ?_
    rw [htarget, hip]

theorem step_port (h : call.target = some (ip, port)) :
    ((step platform sessions call).2 ip).map SDSession.port =
      ((sessions ip).map SDSession.port).or (some port) := by
  have haddress := visit_keeps_address platform call (sessions ip) (held sessions ip port)
  have hheld : some (held sessions ip port).port =
      ((sessions ip).map SDSession.port).or (some port) := by
    rw [held]
    cases sessions ip <;> rfl
  rw [← hheld, step_run platform call h]
  revert haddress
  cases visit platform call (request platform call (sessions ip)) (held sessions ip port) <;>
  · intro haddress
    simp only [Function.update_self]
    exact congrArg some (Prod.mk.inj haddress).2

/-- The client of a held session has the port of the first call to its server. -/
theorem session_port (before : List Call) :
    (Machine.final (step platform) noSessions before ip).map SDSession.port =
      firstPort ip before := by
  induction before using List.reverseRecOn with
  | nil => rfl
  | append_singleton before call ih =>
    rw [firstPort_concat, ← ih, Machine.final_append]
    by_cases htarget : ∃ port, call.target = some (ip, port)
    · obtain ⟨port, htarget⟩ := htarget
      rw [firstPort_target htarget]
      exact step_port platform htarget
    · have hother : ∀ port, call.target ≠ some (ip, port) := fun port h => htarget ⟨port, h⟩
      rw [firstPort_other hother, Option.or_none]
      exact congrArg (Option.map SDSession.port) (step_other platform hother)

/-- A session is held for the address of its client, and has an id only if a call has
    obtained it at the address and the port of this client. -/
theorem session_obtained (before : List Call) {session : SDSession}
    (h : Machine.final (step platform) noSessions before ip = some session) :
    session.ipAddr = ip ∧ (session.sessionId ≠ 0 →
      ∃ earlier opening since, before = earlier ++ opening :: since ∧
        Obtains platform (Machine.final (step platform) noSessions earlier) opening ip session.port
          session.sessionId) := by
  induction before using List.reverseRecOn generalizing session with
  | nil => cases h
  | append_singleton before call ih =>
    rw [Machine.final_append] at h
    rcases step_session platform h with ⟨old, hold, hip, hport, hid⟩ | ⟨hip, hobtains⟩
    · rw [hip, hport, hid]
      obtain ⟨hip, hobtained⟩ := ih hold
      refine ⟨hip, fun hne => ?_⟩
      obtain ⟨earlier, opening, since, rfl, hobtains⟩ := hobtained hne
      exact ⟨earlier, opening, since ++ [call], by rw [List.append_assoc, List.cons_append],
        hobtains⟩
    · exact ⟨hip, fun hne => ⟨before, call, [], rfl, hobtains hne⟩⟩

theorem contactsCurrent_iff (before : List Call) :
    ContactsCurrent platform before call ↔
      PortCurrent (Machine.final (step platform) noSessions before) call := by
  constructor
  · intro h ip port session htarget hsession hidle
    have hconnection : call.connection (Machine.final (step platform) noSessions before) =
        some (session.ipAddr, session.port) := by
      rw [connection_of_target htarget, held, hsession, Option.getD_some, hidle,
        if_neg Bool.false_ne_true]
    have hcurrent := htarget.symm.trans (h _ _ hconnection).1
    exact (Prod.mk.inj (Option.some.inj hcurrent)).2.symm
  · intro h ip port hconnection
    obtain ⟨ip', port', htarget, hidle, haddress⟩ := target_of_connection hconnection
    obtain ⟨rfl, rfl⟩ := Prod.mk.inj haddress
    cases hsession : Machine.final (step platform) noSessions before ip' with
    | none =>
      rw [held, hsession, Option.getD_none] at hidle ⊢
      refine ⟨htarget, fun id hresume => ?_⟩
      rw [sessionRequest_of_target htarget, hsession] at hresume
      cases hresume
    | some session =>
      rw [held, hsession, Option.getD_some] at hidle ⊢
      obtain ⟨hip, hobtained⟩ := session_obtained platform before hsession
      obtain rfl := h ip' port' session htarget hsession hidle
      rw [hip]
      refine ⟨htarget, fun id hresume => ?_⟩
      rw [sessionRequest_of_target htarget, hsession] at hresume
      simp only at hresume
      split_ifs at hresume with hid
      obtain rfl := Operation.resume.inj (Option.some.inj hresume)
      exact hobtained hid

/-- The port is current if it is the one of the first call to the server, or the client of the
    session is still connected. -/
theorem portCurrent_iff (before : List Call) :
    PortCurrent (Machine.final (step platform) noSessions before) call ↔
      ∀ ip port first, call.target = some (ip, port) → firstPort ip before = some first →
        (held (Machine.final (step platform) noSessions before) ip port).client.connected =
          false → first = port := by
  refine forall₂_congr fun ip port => ?_
  rw [← session_port platform before]
  cases hsession : Machine.final (step platform) noSessions before ip with
  | none =>
    constructor
    · rintro - first - hfirst
      cases hfirst
    · rintro - session - hsession
      cases hsession
  | some session =>
    have hheld : held (Machine.final (step platform) noSessions before) ip port = session := by
      rw [held, hsession, Option.getD_some]
    rw [hheld]
    constructor
    · rintro h first htarget ⟨⟩ hidle
      exact h session htarget rfl hidle
    · rintro h session' htarget ⟨⟩ hidle
      exact h session.port htarget rfl hidle

end

/-- In every run, each call that connects does so at the port that it has looked up, and
    resumes only a session of that server and port, exactly if no call finds an idle session
    with another port. -/
theorem contacts_current_iff (platform : Platform) (calls : List Call) :
    (∀ before call after, calls = before ++ call :: after →
        ContactsCurrent platform before call) ↔
      Machine.Every (step platform) PortCurrent noSessions calls := by
  rw [Machine.every_iff_split]
  simp only [contactsCurrent_iff]

/-- A call while the server listens at one port, which is the one that is looked up. -/
def listening (port : UInt16) : Call :=
  { ready none with
    lookUpPort := fun name => .ok (some ⟨.response, name, port, .success⟩)
    refused := fun _ port' =>
      if port' = port then none else some (exception (lit "Connection refused")) }

/-- The server has moved to another port, and the call connects to the one that it had. -/
theorem moved_server_missed :
    let calls := [listening 40001, listening 40002]
    let sessions := Machine.final (step windows) noSessions [listening 40001]
    (listening 40002).target = some (lit "10.0.0.1", 40002) ∧
      (listening 40002).connection sessions = some (lit "10.0.0.1", 40001) ∧
      (step windows sessions (listening 40002)).1 =
        .error (exception (lit "Connection refused")) ∧
      ¬ ∀ before call after, calls = before ++ call :: after →
        ContactsCurrent windows before call := by
  intro calls sessions
  have htarget : (listening 40002).target = some (lit "10.0.0.1", 40002) := rfl
  have hconnection : (listening 40002).connection sessions = some (lit "10.0.0.1", 40001) := rfl
  refine ⟨htarget, hconnection, rfl, fun h => ?_⟩
  have hcurrent := (h [listening 40001] (listening 40002) [] rfl _ _ hconnection).1
  rw [htarget] at hcurrent
  exact absurd (Prod.mk.inj (Option.some.inj hcurrent)).2 (by decide)

end NetServices.SDProtocolClient
