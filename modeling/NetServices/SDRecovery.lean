import NetServices.Machine
import NetServices.SDVisit

set_option autoImplicit false

/-!
# When the browser's client recovers from a failed call

A call that throws after `Connect` never disconnects its client, and a session
that was never opened stays in the dictionary with the id 0. Every later call to
that server then throws, whatever the server would answer.
-/
namespace NetServices.SDProtocolClient
open SDClient (Platform Operation exception receiveSessionResponse_eq_ok_iff
  receiveGetResponse_eq_ok_iff)
open SDServer (Reply)
open TextReader (IsLine IsNewLine)
open Utf16 (Str lit)
open Exceptions

/-- A port is found, the connection succeeds, and the server accepts an open, or the
    resume of the session that is held, and has the document. -/
structure Favourable (platform : Platform) (sessions : Sessions) (ip : Str) (port : UInt16)
    (call : Call) (content : Str) : Prop where
  target : call.target = some (ip, port)
  connects : call.refused (held sessions ip port).ipAddr (held sessions ip port).port = none
  served : if (held sessions ip port).sessionId = 0 then ∃ id, Served platform call .open id content
    else Served platform call (.resume (held sessions ip port).sessionId)
      (held sessions ip port).sessionId content
  disconnects : call.disconnectFailed = none

/-- A first call that does not get a session with an id, the document and the connection
    closed, or a later one that connects and does not get them. -/
def Spoils (platform : Platform) (ip : Str) (sessions : Sessions) (call : Call) : Prop :=
  ∃ port, call.target = some (ip, port) ∧
    match sessions ip with
    | none => ¬ (call.refused ip port = none ∧ call.disconnectFailed = none ∧
        ∃ id content, id ≠ 0 ∧ Served platform call .open id content)
    | some session => call.refused session.ipAddr session.port = none ∧
        ¬ (call.disconnectFailed = none ∧
          ∃ content, Served platform call (.resume session.sessionId) session.sessionId content)

def noSessions : Sessions := fun _ => none

def Recoverable (ip : Str) (sessions : Sessions) : Prop :=
  ∀ session, sessions ip = some session → Resumable session

section
variable (platform : Platform) {ip : Str} {sessions : Sessions} {call : Call}

theorem recoverable_update {session : SDSession} :
    Recoverable ip (Function.update sessions ip (some session)) ↔ Resumable session := by
  constructor
  · intro h
    exact h session (Function.update_self _ _ _)
  · intro h session' hsession'
    rw [Function.update_self] at hsession'
    exact Option.some.inj hsession' ▸ h

theorem step_other (h : ∀ port, call.target ≠ some (ip, port)) :
    (step platform sessions call).2 ip = sessions ip := by
  cases htarget : call.target with
  | none =>
    obtain ⟨e, hrun⟩ := getDocument_none platform call sessions htarget
    rw [step, hrun]
  | some target =>
    obtain ⟨ip', port⟩ := target
    have hne : ip ≠ ip' := by
      rintro rfl
      exact h port htarget
    rw [step_run platform call htarget]
    cases visit platform call (request platform call (sessions ip')) (held sessions ip' port) <;>
      exact Function.update_of_ne hne _ _

/-- A first call leaves a session that can be resumed exactly if it gets one. -/
theorem recoverable_first (h : sessions ip = none) {port : UInt16}
    (htarget : call.target = some (ip, port)) :
    Recoverable ip (step platform sessions call).2 ↔
      call.refused ip port = none ∧ call.disconnectFailed = none ∧
        ∃ id content, id ≠ 0 ∧ Served platform call .open id content := by
  rw [step_run platform call htarget, held, h, Option.getD_none]
  have hidle : (SDSession.new ip port 0).client.connected = false := rfl
  have hends := visit_ends platform call hidle none
  have hreturns := visit_none_eq_ok_iff platform call hidle
  cases hvisit : visit platform call (request platform call none) (.new ip port 0) with
  | ok content session =>
    rw [hvisit] at hends
    have hserved := (hreturns session.sessionId content).mp ⟨session, hvisit, rfl⟩
    rw [recoverable_update]
    constructor
    · intro hresumable
      exact ⟨hserved.1, hserved.2.1, session.sessionId, content, hresumable.2, hserved.2.2⟩
    · rintro ⟨hrefused, hfailed, id, content', hid, hserved'⟩
      obtain ⟨session', hvisit', rfl⟩ := (hreturns id content').mpr ⟨hrefused, hfailed, hserved'⟩
      obtain ⟨-, rfl⟩ := EStateM.Result.ok.inj (hvisit.symm.trans hvisit')
      exact ⟨hends, hid⟩
  | error e session =>
    rw [hvisit] at hends
    rw [recoverable_update]
    constructor
    · intro hresumable
      rcases hends with ⟨hbusy, -⟩ | ⟨rfl, -⟩
      · exact absurd (hresumable.1.symm.trans hbusy) Bool.false_ne_true
      · exact absurd rfl hresumable.2
    · rintro ⟨hrefused, hfailed, id, content, -, hserved⟩
      obtain ⟨session', hvisit', -⟩ := (hreturns id content).mpr ⟨hrefused, hfailed, hserved⟩
      rw [hvisit] at hvisit'
      cases hvisit'

/-- A later call loses the session exactly if it connects and does not get the document. -/
theorem recoverable_later {session : SDSession} (h : sessions ip = some session)
    (hresumable : Resumable session) {port : UInt16} (htarget : call.target = some (ip, port)) :
    Recoverable ip (step platform sessions call).2 ↔
      ¬ (call.refused session.ipAddr session.port = none ∧ ¬ (call.disconnectFailed = none ∧
        ∃ content,
          Served platform call (.resume session.sessionId) session.sessionId content)) := by
  rw [step_run platform call htarget, held, h, Option.getD_some]
  have hends := visit_ends platform call hresumable.1 (some session)
  have hreturns := visit_some_eq_ok_iff platform call hresumable session
  cases hvisit : visit platform call (request platform call (some session)) session with
  | ok content session' =>
    rw [hvisit] at hends
    have hserved := (hreturns session'.sessionId content).mp ⟨session', hvisit, rfl⟩
    rw [recoverable_update]
    refine iff_of_true ⟨hends, ?_⟩ ?_
    · rw [hserved.2.2.1]
      exact hresumable.2
    · rintro ⟨-, hnot⟩
      have hid := hserved.2.2.1
      rw [hid] at hserved
      exact hnot ⟨hserved.2.1, content, hserved.2.2.2⟩
  | error e session' =>
    rw [hvisit] at hends
    rw [recoverable_update]
    rcases hends with ⟨hbusy, hrefused⟩ | ⟨rfl, hrefused⟩
    · refine iff_of_false (fun h => Bool.false_ne_true (h.1.symm.trans hbusy)) (not_not.mpr ?_)
      refine ⟨hrefused, ?_⟩
      rintro ⟨hfailed, content, hserved⟩
      obtain ⟨_, hvisit', -⟩ := (hreturns _ content).mpr ⟨hrefused, hfailed, rfl, hserved⟩
      rw [hvisit] at hvisit'
      cases hvisit'
    · exact iff_of_true hresumable fun hspoils => hrefused hspoils.1

/-- One call keeps the server within reach exactly if it does not spoil the session. -/
theorem recoverable_step_iff (h : Recoverable ip sessions) :
    Recoverable ip (step platform sessions call).2 ↔ ¬ Spoils platform ip sessions call := by
  rw [Spoils]
  by_cases htarget : ∃ port, call.target = some (ip, port)
  · obtain ⟨port, htarget⟩ := htarget
    have hport : ∀ port', call.target = some (ip, port') → port' = port := by
      intro port' hport'
      rw [htarget] at hport'
      exact (Prod.mk.inj (Option.some.inj hport')).2.symm
    cases hsession : sessions ip with
    | none =>
      rw [recoverable_first platform hsession htarget]
      constructor
      · rintro hserved ⟨port', hport', hnot⟩
        obtain rfl := hport port' hport'
        exact hnot hserved
      · intro hnot
        by_contra hserved
        exact hnot ⟨port, htarget, hserved⟩
    | some session =>
      rw [recoverable_later platform hsession (h session hsession) htarget]
      constructor
      · rintro hkept ⟨port', -, hlost⟩
        exact hkept hlost
      · intro hnot hlost
        exact hnot ⟨port, htarget, hlost⟩
  · rw [not_exists] at htarget
    refine iff_of_true (fun session hsession => ?_) ?_
    · rw [step_other platform htarget] at hsession
      exact h session hsession
    · rintro ⟨port, hport, -⟩
      exact htarget port hport

theorem unrecoverable_step (h : ¬ Recoverable ip sessions) :
    ¬ Recoverable ip (step platform sessions call).2 := by
  obtain ⟨session, hsession, hstuck⟩ : ∃ session, sessions ip = some session ∧
      ¬ Resumable session := by
    by_contra hnone
    exact h fun session hsession => by_contra fun hstuck => hnone ⟨session, hsession, hstuck⟩
  by_cases htarget : ∃ port, call.target = some (ip, port)
  · obtain ⟨port, htarget⟩ := htarget
    obtain ⟨e, session', hvisit, hstuck'⟩ := visit_stuck platform call hstuck session
    rw [step_run platform call htarget, held, hsession, Option.getD_some, hvisit,
      recoverable_update]
    exact hstuck'
  · rw [not_exists] at htarget
    intro hrecoverable
    rw [Recoverable, step_other platform htarget] at hrecoverable
    exact hstuck (hrecoverable session hsession)

theorem favourable_returns_iff {port : UInt16} {content : Str}
    (h : Favourable platform sessions ip port call content) :
    (step platform sessions call).1 = .ok content ↔ Recoverable ip sessions := by
  obtain ⟨htarget, hconnects, hserved, hdisconnects⟩ := h
  rw [step_run platform call htarget]
  cases hsession : sessions ip with
  | none =>
    rw [held, hsession, Option.getD_none] at hconnects hserved ⊢
    obtain ⟨id, hserved⟩ := hserved
    have hidle : (SDSession.new ip port 0).client.connected = false := rfl
    obtain ⟨session', hvisit, -⟩ := (visit_none_eq_ok_iff platform call hidle id content).mpr
      ⟨hconnects, hdisconnects, hserved⟩
    rw [hvisit]
    refine iff_of_true rfl fun session h => ?_
    exact absurd (hsession.symm.trans h) (Option.some_ne_none session).symm
  | some session =>
    rw [held, hsession, Option.getD_some] at hconnects hserved ⊢
    by_cases hresumable : Resumable session
    · rw [if_neg hresumable.2] at hserved
      obtain ⟨session', hvisit, -⟩ :=
        (visit_some_eq_ok_iff platform call hresumable session session.sessionId content).mpr
          ⟨hconnects, hdisconnects, rfl, hserved⟩
      rw [hvisit]
      refine iff_of_true rfl fun session' h => ?_
      exact Option.some.inj (hsession.symm.trans h) ▸ hresumable
    · obtain ⟨e, session', hvisit, -⟩ := visit_stuck platform call hresumable session
      rw [hvisit]
      refine iff_of_false (fun h => ?_) fun h => hresumable (h session hsession)
      cases h

end

/-- What the server program sends as its replies accepts and delivers. -/
theorem served_of_replies (platform : Platform) (call : Call) (request : Operation) {id : UInt64}
    {newLine name content : Str} (hnl : IsNewLine newLine) (hname : IsLine name)
    (hlength : content.length < 2147483648)
    (haccepted : call.server [request.text platform.newLine 0] =
      .ok ((Reply.accepted id).text newLine))
    (hdocument : call.server [request.text platform.newLine 0,
        (Operation.get (call.documentName.getD [])).text platform.newLine 0] =
      .ok ((Reply.document name content).text newLine)) :
    Served platform call request id content := by
  let σ := online 0 [] [] []
  have haccepts := SDClient.receiveSessionResponse_accepted hnl (env platform call.server) σ [] id
  obtain ⟨reads, hdelivers⟩ :=
    SDClient.receiveGetResponse_document hnl (env platform call.server) σ [] hname hlength
  rw [List.append_nil] at haccepts hdelivers
  obtain ⟨rest, haccepts, hrest⟩ := (receiveSessionResponse_eq_ok_iff _ σ).mp haccepts
  have hdelivers := (receiveGetResponse_eq_ok_iff _ σ).mp ⟨_, hdelivers⟩
  obtain rfl : rest = [] := (congrArg (fun σ => σ.reader.chars) hrest).symm
  exact ⟨_, [], _, haccepted, haccepts, hdocument, hdelivers⟩

/-- In every run, a call that finds a server ready returns the document exactly if no
    earlier call has spoilt the session with that server. -/
theorem recovers_iff (platform : Platform) (calls : List Call) (call : Call) (ip : Str)
    (port : UInt16) (content : Str)
    (h : Favourable platform (Machine.final (step platform) noSessions calls) ip port call
      content) :
    (step platform (Machine.final (step platform) noSessions calls) call).1 = .ok content ↔
      Machine.Every (step platform) (fun sessions call => ¬ Spoils platform ip sessions call)
        noSessions calls := by
  rw [favourable_returns_iff platform h]
  have hempty : Recoverable ip noSessions := fun session h =>
    absurd h (Option.some_ne_none session).symm
  exact Machine.final_iff_every (step platform)
    (fun sessions call hrecoverable => recoverable_step_iff platform hrecoverable)
    (fun sessions call hlost => unrecoverable_step platform hlost) hempty calls

def windows : Platform := ⟨lit "\r\n", .inr rfl, id, []⟩

/-- A call for a document that the server has. -/
def ready (refused : Option Exn) : Call where
  serverIP := some (lit "10.0.0.1")
  documentName := some (lit "note")
  lookUpPort name := .ok (some ⟨.response, name, 40001, .success⟩)
  refused _ _ := refused
  reads := []
  server
    | [_] => .ok ((Reply.accepted 5).text (lit "\r\n"))
    | _ => .ok ((Reply.document (lit "note") (lit "text")).text (lit "\r\n"))
  disconnectFailed := none

theorem ready_served (op : Operation) (refused : Option Exn) :
    Served windows (ready refused) op 5 (lit "text") :=
  served_of_replies windows (ready refused) op (.inr rfl) (show IsLine (lit "note") by decide)
    (by decide) rfl rfl

theorem recovers_resumed :
    (step windows (Machine.final (step windows) noSessions [ready none]) (ready none)).1 =
        .ok (lit "text") ↔
      Machine.Every (step windows)
        (fun sessions call => ¬ Spoils windows (lit "10.0.0.1") sessions call) noSessions
        [ready none] :=
  recovers_iff windows [ready none] (ready none) (lit "10.0.0.1") 40001 (lit "text")
    ⟨rfl, rfl, ready_served (.resume 5) none, rfl⟩

/-- The first connection to a server is refused, and the client never opens a session with
    it again. -/
theorem refused_connection_remembered :
    let sessions := Machine.final (step windows) noSessions
      [ready (some (exception (lit "Connection refused")))]
    Favourable windows sessions (lit "10.0.0.1") 40001 (ready none) (lit "text") ∧
      (step windows sessions (ready none)).1 =
        .error (exception (lit "Cannot resume session with ID 0.")) := by
  intro sessions
  have hfavourable : Favourable windows sessions (lit "10.0.0.1") 40001 (ready none)
      (lit "text") := ⟨rfl, rfl, ⟨5, ready_served _ _⟩, rfl⟩
  exact ⟨hfavourable, rfl⟩

end NetServices.SDProtocolClient
