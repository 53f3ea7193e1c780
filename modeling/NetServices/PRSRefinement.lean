import NetServices.PRSAnswers
import NetServices.PRSProgram
import NetServices.PRSRegistry

set_option autoImplicit false

/-!
# The program as a desk that leases ports

What is left of the program without its table, its sweeps and its host: a desk
keeps the leases, reads and writes messages in network byte order, and reports
what it can neither receive nor answer to whoever it has received from last.
-/
namespace NetServices.PRSProgram
open ByteOrder (Endian)
open PRSServer (Entry Pass Server buffer)
open Utf16 (Str lit)

structure Desk (ε : Type) where
  registry : PRS.Registry
  stopped : Bool
  serverEndPoint : ε

def Options.offer (options : Options) : PRS.Offer :=
  ⟨options.startingClientPort, options.endingClientPort, options.keepAliveTimeout⟩

section
variable {ε : Type} (options : Options)

/-- `UNDEFINED_ERROR`, if it can be sent. -/
def Options.reports (errorSent : Bool) (endpoint : ε) : List (List UInt8 × ε) :=
  match PRSMessage.getBytes .big ⟨.response, [], options.serverPort, .undefinedError⟩ with
  | some bytes => if errorSent then [(bytes, endpoint)] else []
  | none => []

/-- The answer to a message, or the report that it does not fit or cannot be sent. -/
def Options.answers (responseSent errorSent : Bool) (endpoint : ε) :
    Option PRSMessage → List (List UInt8 × ε)
  | none => []
  | some response =>
    match response.getBytes .big with
    | some bytes =>
      if responseSent then [(bytes, endpoint)] else options.reports errorSent endpoint
    | none => options.reports errorSent endpoint

noncomputable def Desk.step (desk : Desk ε) (pass : Pass ε) : Entry ε × Desk ε :=
  if desk.stopped then (⟨none, []⟩, desk)
  else
    match pass.received with
    | .failed => (⟨none, options.reports pass.errorSent desk.serverEndPoint⟩, desk)
    | .oversized sender =>
      (⟨some sender, options.reports pass.errorSent sender⟩, { desk with serverEndPoint := sender })
    | .delivered bytes sender =>
      let message := PRSMessage.ofBytes .big (buffer bytes)
      let (reply, registry) := options.offer.step desk.registry (pass.now, message)
      (⟨some sender, options.answers pass.responseSent pass.errorSent sender reply⟩,
        ⟨registry, message.msgType = .stop, sender⟩)

/-- What the catch block sends. -/
theorem sendError_eq (e : Endian) {srv : Server ε} (h : srv.serverPort = options.serverPort)
    (errorSent : Bool) : srv.sendError e errorSent =
      { srv with sent := srv.sent ++ options.reports errorSent srv.serverEndPoint } := by
  conv_lhs => rw [Server.sendError, h, PRSMessage.getBytes_host e .big]
  rw [Options.reports]
  cases PRSMessage.getBytes .big ⟨.response, [], options.serverPort, .undefinedError⟩ with
  | none => simp only [List.append_nil]
  | some bytes =>
    cases errorSent with
    | true => rfl
    | false => simp only [Bool.false_eq_true, if_false, List.append_nil]

/-- What the end of the try block sends, or the catch block after it. -/
theorem respond_eq (e : Endian) {srv : Server ε} (h : srv.serverPort = options.serverPort)
    (responseSent errorSent : Bool) (response : Option PRSMessage) :
    srv.respond e responseSent errorSent response =
      { srv with sent := srv.sent ++
          options.answers responseSent errorSent srv.serverEndPoint response } := by
  cases response with
  | none => simp only [Server.respond, Options.answers, List.append_nil]
  | some response =>
    rw [Server.respond, Options.answers, PRSMessage.getBytes_host e .big]
    cases response.getBytes .big with
    | none => exact sendError_eq options e h errorSent
    | some bytes =>
      cases responseSent with
      | true => rfl
      | false =>
        simp only [Bool.false_eq_true, if_false]
        exact sendError_eq options e h errorSent

end

/-- Only the message that stops the server does. -/
theorem handleMessage_stopped {prs : PRS} (h : prs.stopped = false) (now : DateTime)
    (msg : PRSMessage) :
    (prs.handleMessage now msg).2.stopped = decide (msg.msgType = .stop) := by
  have hchange := PRS.handleMessage_change prs now msg
  have hswept : (prs.checkForExpiredPorts now).stopped = false := h
  generalize (prs.handleMessage now msg).1 = reply at hchange
  generalize (prs.handleMessage now msg).2 = prs' at hchange ⊢
  cases hchange with
  | stop type => rw [type]; rfl
  | ignored type =>
    rw [hswept]
    rcases type with type | ⟨value, type⟩ <;> rw [type] <;> rfl
  | granted i r type | refreshed i r type | released i r type => rw [type]; exact hswept
  | inUse r type | busy type | notRefreshed type | notReleased type | found i r type
  | notFound type => rw [type]; exact hswept

/-- The program and the desk are at the same point of a run. -/
structure StandsFor {ε : Type} (options : Options) (t : DateTime) (srv : Server ε)
    (desk : Desk ε) : Prop where
  table : PRS.Represents options.offer t srv.prs desk.registry
  stopped : srv.prs.stopped = desk.stopped
  serverEndPoint : srv.serverEndPoint = desk.serverEndPoint
  serverPort : srv.serverPort = options.serverPort

section
variable {ε : Type} {options : Options} {t : DateTime} {srv : Server ε} {desk : Desk ε}

theorem StandsFor.step (e : Endian) (h : StandsFor options t srv desk) {pass : Pass ε}
    (ht : t ≤ pass.now) :
    (PRSServer.step e srv pass).1 = (desk.step options pass).1 ∧ ∃ t' ≤ pass.now,
      StandsFor options t' (PRSServer.step e srv pass).2 (desk.step options pass).2 := by
  unfold PRSServer.step PRSServer.loopBody Desk.step
  cases hstopped : desk.stopped with
  | true =>
    rw [h.stopped, hstopped]
    simp only [if_true, List.drop_length]
    exact ⟨trivial, t, ht, h⟩
  | false =>
    have hrun : srv.prs.stopped = false := h.stopped.trans hstopped
    obtain ⟨received, now, responseSent, errorSent⟩ := pass
    simp only [hrun, Bool.false_eq_true, if_false]
    cases received with
    | failed =>
      simp only [sendError_eq options e h.serverPort, List.drop_left, h.serverEndPoint]
      exact ⟨rfl, t, ht, h.table, h.stopped, rfl, h.serverPort⟩
    | oversized sender =>
      have hreports := @sendError_eq ε options e { srv with serverEndPoint := sender }
        h.serverPort errorSent
      simp only [hreports, List.drop_left]
      exact ⟨rfl, t, ht, h.table, hrun, rfl, h.serverPort⟩
    | delivered bytes sender =>
      let message := PRSMessage.ofBytes .big (buffer bytes)
      let handled : Server ε := { srv with
        prs := (srv.prs.handleMessage now message).2
        serverEndPoint := sender }
      have hresponds := @respond_eq ε options e handled h.serverPort responseSent errorSent
        (srv.prs.handleMessage now message).1
      obtain ⟨hreply, htable⟩ := h.table.handleMessage ht message
      simp only [PRSMessage.ofBytes_host e .big]
      rw [hresponds]
      refine ⟨?_, now, le_rfl, htable, handleMessage_stopped hrun now message, rfl, h.serverPort⟩
      rw [List.drop_left, hreply]
      rfl

/-- What the program sends, and to whom, is what the desk does, whatever its host. -/
theorem refines_desk {bound : UInt16 → Bool} {fuel : ℕ} {args : List Str} {prs : PRS}
    (h : main bound fuel args = some (.ok (options, prs))) (e : Endian) (endpoint : ε)
    {passes : List (Pass ε)} (hclock : Clock.From Pass.now 0 passes) :
    Machine.trace (PRSServer.step e) ⟨options.serverPort, prs, endpoint, []⟩ passes =
      Machine.trace (Desk.step options) ⟨fun _ => none, false, endpoint⟩ passes := by
  obtain ⟨-, -, -, hconstruct⟩ := main_eq_ok_iff.mp h
  obtain ⟨-, -, -, hrun, -⟩ := PRS.construct_spec hconstruct
  refine (Machine.simulation (PRSServer.step e)
    (R := fun passes srv desk => ∃ now, Clock.From Pass.now now passes ∧
      ∃ t ≤ now, StandsFor options t srv desk) ?_ ⟨0, hclock, 0, le_rfl, ?_⟩).1
  · rintro srv desk pass passes ⟨now, hclock, t, ht, hstands⟩
    obtain ⟨hnow, hrest⟩ := Clock.from_cons.mp hclock
    obtain ⟨hentry, hnext⟩ := hstands.step e (ht.trans hnow)
    exact ⟨hentry, pass.now, hrest, hnext⟩
  · exact ⟨PRS.represents_constructed hconstruct, hrun, rfl, rfl⟩

end

/-- Nothing can be received, a datagram is too long, a port is granted to a name that fits no
    answer, the answer to the message that stops the server is lost, and another one comes too
    late. -/
theorem refines_desk_stopped :
    let passes : List (Pass Bool) := [⟨.failed, 0, true, true⟩, ⟨.oversized true, 0, true, true⟩,
      ⟨.delivered PRSServer.illFormedRequest.bytes true, 0, true, true⟩,
      ⟨.delivered [4] true, 5, false, true⟩, ⟨.delivered [1] true, 5, true, true⟩]
    Machine.trace (PRSServer.step .little)
        ⟨30000, ⟨40000, 40000, 10, [.new 40000], false⟩, false, []⟩ passes =
      Machine.trace (Desk.step ⟨30000, 40000, 40000, 10⟩) ⟨fun _ => none, false, false⟩ passes :=
  @refines_desk Bool ⟨30000, 40000, 40000, 10⟩ (fun _ => true) 2 [lit "-e", lit "40000"] _
    (by decide) .little false _ (by simp [Clock.From])

end NetServices.PRSProgram
