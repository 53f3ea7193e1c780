import NetServices.SDFetch

set_option autoImplicit false

/-!
# A posted document is delivered

Two clients on connections of the running server: what one of them posts is what
the other one fetches, as long as the session lasts and nobody posts the name
again.
-/
namespace NetServices.SDFetch
open SDClient (Platform Operation)
open SDProtocolClient (Call Peer SDSession Sessions Resumable env online step)
open Exceptions (bind_run)
open SDServer (Conn Core Event Host Reply System)
open TextReader (IsLine)
open Utf16 (Str lit)

/-- A call of `PostDocument` on a client that has sent some requests before. -/
structure Posting (κ : Type) where
  platform : Platform
  name : Str
  content : Str
  sessionID : UInt64
  reads : List ℕ
  sent : List Str
  server : Peer
  connection : κ
  time : DateTime

section
variable {κ : Type}

def Posting.text (p : Posting κ) : Str :=
  (Operation.post p.name p.content).text p.platform.newLine 0

def Posting.run (p : Posting κ) : EStateM.Result Exn (SDClient.State (List Str)) Unit :=
  SDClient.postDocument (env p.platform p.server) p.name p.content
    (online p.sessionID [] p.reads p.sent)

/-- The call does not raise. -/
def Posting.Returns (p : Posting κ) : Prop := ∃ σ, p.run = .ok () σ

/-- What the server sends is read as the answer to the call. -/
theorem Posting.received {p : Posting κ} {received : Str}
    (h : p.server (p.sent ++ [p.text]) = .ok received) :
    p.run = SDClient.receivePostResponse
      ((online p.sessionID [] p.reads (p.sent ++ [p.text])).on received) := by
  have hsend : SDClient.sendPost (env p.platform p.server) p.name p.content
      (online p.sessionID [] p.reads p.sent) = .ok () _ :=
    SDClient.flush_run (env p.platform p.server) p.sessionID ⟨[], p.reads⟩ p.sent
      (congrArg (Except.map _) h) rfl
  rw [run, SDClient.postDocument, bind_run, SDClient.validateConnected_run rfl]
  simp only
  rw [bind_run, hsend]
  rfl

variable [DecidableEq κ]

/-- The request of the call is what a connection on session `n` reads next, and the call
    receives what the server sends. -/
structure Posting.Meets (p : Posting κ) (host : Host) (sys : System κ) (n : UInt64) : Prop where
  named : p.name ≠ []
  line : IsLine p.name
  fits : p.content.length < 2147483648
  start : ∃ reads rest, rest.head? ≠ some TextReader.lf ∧
    sys.conns p.connection = ⟨n, ⟨p.text ++ rest, reads⟩, false⟩
  answer : p.server (p.sent ++ [p.text]) =
    .ok (sys.step host (.request p.connection p.time)).1.sent

theorem post_reply (host : Host) (now : DateTime) (core : Core) (name content : Str) :
    (core.post host now name content).1 = .success ∨
      ∃ message, (core.post host now name content).1 = .error message := by
  have heffect := @SDServer.post_executed host now core name content
  generalize (core.post host now name content).1 = reply at *
  generalize (core.post host now name content).2 = core' at heffect
  cases heffect with
  | stored => exact .inl rfl
  | filed name content reply files slash answer => exact answer
  | refused command message => exact .inr ⟨message, rfl⟩

section
variable {p : Posting κ} {host : Host} {sys : System κ} {n : UInt64}

/-- What the pass does that answers the call. -/
theorem Posting.Meets.step (h : p.Meets host sys n) :
    sys.Requests p.connection n (.post p.name p.content) ∧
      (sys.step host (.request p.connection p.time)).1.sent =
        ((sys.core p.connection).post host p.time p.name p.content).1.text host.newLine := by
  obtain ⟨reads, rest, hrest, hconn⟩ := h.start
  have hheld : ∀ name, Operation.post p.name p.content = .get name → n ≠ 0 := nofun
  obtain ⟨reads', hread⟩ := read_operation p.platform reads
    (show Clean (.post p.name p.content) from ⟨h.line, h.fits⟩)
    (show Named (.post p.name p.content) from h.named) hheld hrest
  refine ⟨⟨congrArg Conn.ended hconn, congrArg Conn.sessionId hconn, ?_⟩, ?_⟩
  · rw [hconn]
    exact congrArg Prod.fst hread
  · exact (step_operation hconn ⟨h.line, h.fits⟩ h.named hheld hrest rfl).1

/-- The call returns exactly if the server has stored the document. -/
theorem Posting.Meets.returns_iff (h : p.Meets host sys n) :
    p.Returns ↔ (sys.step host (.request p.connection p.time)).1.sent =
      Reply.success.text host.newLine := by
  have hrun := Posting.received h.answer
  rw [Posting.Returns, hrun, h.step.2]
  generalize ((online p.sessionID [] p.reads (p.sent ++ [p.text])) :
    SDClient.State (List Str)) = σ
  rcases post_reply host p.time (sys.core p.connection) p.name p.content with
    hreply | ⟨message, hreply⟩
  · rw [hreply]
    have hsuccess := SDClient.receivePostResponse_success host.isNewLine σ []
    rw [List.append_nil] at hsuccess
    exact iff_of_true ⟨_, hsuccess⟩ rfl
  · rw [hreply]
    have herror := SDClient.receivePostResponse_error host.isNewLine σ [] message
    rw [List.append_nil] at herror
    refine iff_of_false ?_ fun hsent => nomatch congrArg List.head? hsent
    rintro ⟨σ', hok⟩
    cases herror.symm.trans hok

end

/-- A document that `PostDocument` has posted, when it returned, is what a later call that
    resumes the session fetches, until the session ends or the name is posted again. -/
theorem delivered_iff (platform : Platform) (call : Call) (m : Meeting κ) (sessions : Sessions)
    (session : SDSession) (ip : Str) (port : UInt16) (p : Posting κ) (content : Str)
    (before after : List (Event κ)) (sessionTimeout : ℤ) (inputs : κ → TextReader.Reader)
    (hstart : m.system = System.fresh sessionTimeout inputs)
    (htarget : call.target = some (ip, port)) (hsession : sessions ip = some session)
    (hresumable : Resumable session) (h : Meets platform call (.resume session.sessionId) m)
    (hbefore : m.before = before ++ .request p.connection p.time :: after)
    (hname : call.documentName = some p.name)
    (hposting : p.Meets m.host (Machine.final (System.step m.host) m.system before)
      session.sessionId)
    (hreturns : p.Returns)
    (hkept : Machine.Every (System.step m.host)
      (fun sys e => ¬ sys.Ends m.host e session.sessionId ∧
        ¬ sys.Posts m.host e session.sessionId p.name)
      (Machine.final (System.step m.host) m.system
        (before ++ [.request p.connection p.time]))
      (after ++ .request m.connection m.time :: m.between)) :
    (step platform sessions call).1 = .ok content ↔
      m.host.startsWithSlash p.name = false ∧
      call.refused session.ipAddr session.port = none ∧ call.disconnectFailed = none ∧
      content = p.content ∧ content ≠ [] := by
  have hruns : m.before ++ .request m.connection m.time :: m.between =
      before ++ [.request p.connection p.time] ++
        (after ++ .request m.connection m.time :: m.between) := by
    rw [hbefore]
    simp only [List.append_assoc, List.cons_append, List.nil_append]
  have hasked : m.before = before ++ [.request p.connection p.time] ++ after := by
    rw [hbefore, List.append_assoc]
    rfl
  rw [resumed_call_iff htarget hsession hresumable h, hname, Option.getD_some]
  cases hslash : m.host.startsWithSlash p.name with
  | true =>
    refine iff_of_false (fun hcall => ?_) fun hplain => Bool.false_ne_true hplain.1.symm
    have hnone : m.system.table.value session.sessionId p.name = none := by
      rw [hstart]
      exact System.fresh_value sessionTimeout inputs _ _
    have hvalue := hcall.2.2.2.2.2
    rw [m.found_eq] at hvalue
    exact Bool.false_ne_true ((System.value_plain hnone _ hvalue).symm.trans hslash)
  | false =>
    have hstays (sys : System κ) (e : Event κ)
        (hv : sys.table.value session.sessionId p.name = some p.content)
        (he : ¬ sys.Ends m.host e session.sessionId ∧
          ¬ sys.Posts m.host e session.sessionId p.name) :
        (sys.step m.host e).2.table.value session.sessionId p.name = some p.content :=
      System.step_value hv he.1 he.2
    have hposted : (Machine.final (System.step m.host) m.system
        (before ++ [.request p.connection p.time])).table.value session.sessionId p.name =
        some p.content := by
      rw [Machine.final_append]
      exact System.post_value hslash hposting.step.1 (hposting.returns_iff.mp hreturns)
    have hlive : session.sessionId ∈ m.asked.table.sessions := by
      have hkept' := ((Machine.every_append _).mp hkept).1
      have hvalue := Machine.final_of_every _ hstays hposted hkept'
      rw [← Machine.final_append, ← hasked] at hvalue
      exact SessionTable.mem_of_value hvalue
    have hfound : m.found.table.value session.sessionId p.name = some p.content := by
      rw [m.found_eq, hruns, Machine.final_append]
      exact Machine.final_of_every _ hstays hposted hkept
    rw [hfound, Option.some.injEq]
    constructor
    · rintro ⟨hconnects, hdisconnects, -, hne, -, rfl⟩
      exact ⟨rfl, hconnects, hdisconnects, rfl, hne⟩
    · rintro ⟨-, hconnects, hdisconnects, rfl, hne⟩
      exact ⟨hconnects, hdisconnects, hlive, hne, hposting.fits, rfl⟩

end

/-- The client whose document `resuming` is about. -/
def posting : Posting Bool where
  platform := SDProtocolClient.windows
  name := lit "a"
  content := lit "xy"
  sessionID := 1
  reads := []
  sent := [lit "open\n"]
  server _ := .ok (Reply.success.text (lit "\n"))
  connection := false
  time := 1

theorem delivered_iff_resuming :
    (step SDProtocolClient.windows (fun _ => some heldSession) reading).1 = .ok (lit "xy") := by
  have hposting : posting.Meets resuming.host (Machine.final (System.step resuming.host)
      resuming.system [.request false 0]) 1 :=
    ⟨by decide, by decide, by decide, ⟨[], [], nofun, rfl⟩, rfl⟩
  refine (delivered_iff SDProtocolClient.windows reading resuming (fun _ => some heldSession)
    heldSession (lit "10.0.0.1") 40001 posting (lit "xy") [.request false 0] [] 100 _ rfl rfl rfl
    ⟨rfl, by decide⟩ resuming_meets rfl rfl hposting ⟨_, rfl⟩ ⟨⟨?_, ?_⟩, ⟨?_, ?_⟩, trivial⟩).mpr
    ⟨by decide, rfl, rfl, rfl, by decide⟩
  · rintro ((hclosed | ⟨⟨now, hsweep⟩, -⟩) | ⟨hline, -⟩)
    · exact absurd hclosed (by decide)
    · cases hsweep
    · exact absurd hline (by decide)
  · rintro ⟨c, now, content, -, -, hsent⟩
    exact absurd hsent (by decide)
  · rintro ((hclosed | ⟨-, -, hremoved⟩) | ⟨hline, -⟩)
    · exact absurd hclosed (by decide)
    · exact absurd hremoved (by decide)
    · cases hline
  · rintro ⟨c, now, content, hsweep, -⟩
    cases hsweep

end NetServices.SDFetch
