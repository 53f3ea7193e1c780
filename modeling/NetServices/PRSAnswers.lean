import NetServices.PRSServer

set_option autoImplicit false

/-!
# Whom the server program answers

A pass answers the endpoint that it has received from, also when the datagram is
too long for the buffer. When nothing could be received, the endpoint variable
still holds an earlier sender, or the address that the program has bound, and the
error response goes there.
-/
namespace NetServices.PRSServer
open ByteOrder (Endian)
open PRSMessage (Datagram)

/-- From whom a pass receives a datagram, and what it sends. -/
structure Entry (ε : Type) where
  received : Option ε
  sent : List (List UInt8 × ε)

variable {ε : Type}

def Receive.sender : Receive ε → Option ε
  | .delivered _ sender | .oversized sender => some sender
  | .failed => none

def step (e : Endian) (srv : Server ε) (pass : Pass ε) : Entry ε × Server ε :=
  (⟨if srv.prs.stopped then none else pass.received.sender,
    (loopBody e srv pass).sent.drop srv.sent.length⟩, loopBody e srv pass)

section
variable [DecidableEq ε]

def receivedFrom (endpoint : ε) (log : List (Pass ε × Entry ε)) : ℕ :=
  log.countP fun x => x.2.received = some endpoint

def sentTo (endpoint : ε) (log : List (Pass ε × Entry ε)) : ℕ :=
  (log.flatMap fun x => x.2.sent).countP fun x => x.2 = endpoint

/-- At no time has an endpoint been sent more than was received from it, and what a pass
    sends goes to the endpoint that it has received from. -/
def AnswersAskers (log : List (Pass ε × Entry ε)) : Prop :=
  (∀ before, before <+: log → ∀ endpoint, sentTo endpoint before ≤ receivedFrom endpoint before) ∧
    ∀ x ∈ log, ∀ datagram ∈ x.2.sent, x.2.received = some datagram.2

end

/-- The program reports that it could receive nothing, and the report is sent. -/
def ReportsFailure (srv : Server ε) (pass : Pass ε) : Prop :=
  srv.prs.stopped = false ∧ pass.received = .failed ∧ pass.errorSent = true

/-- A pass sends nothing, or one datagram to the endpoint. -/
def SendsOne (srv srv' : Server ε) (endpoint : ε) : Prop :=
  srv'.sent = srv.sent ∨ ∃ bytes, srv'.sent = srv.sent ++ [(bytes, endpoint)]

theorem sendError_one (srv : Server ε) (e : Endian) (errorSent : Bool) :
    SendsOne srv (srv.sendError e errorSent) srv.serverEndPoint := by
  unfold Server.sendError
  split
  · split_ifs
    · exact .inr ⟨_, rfl⟩
    · exact .inl rfl
  · exact .inl rfl

theorem respond_one (srv : Server ε) (e : Endian) (responseSent errorSent : Bool)
    (response : Option PRSMessage) :
    SendsOne srv (srv.respond e responseSent errorSent response) srv.serverEndPoint := by
  cases response with
  | none => exact .inl rfl
  | some response =>
    rw [Server.respond]
    split
    · split_ifs
      · exact .inr ⟨_, rfl⟩
      · exact sendError_one srv e errorSent
    · exact sendError_one srv e errorSent

/-- The error response can always be encoded. -/
theorem sendError_sends (srv : Server ε) (e : Endian) :
    ∃ bytes, (srv.sendError e true).sent = srv.sent ++ [(bytes, srv.serverEndPoint)] := by
  unfold Server.sendError
  cases h : PRSMessage.getBytes e ⟨.response, [], srv.serverPort, .undefinedError⟩ with
  | none =>
    have hshort : ¬ 53 < (PRSMessage.utf8GetBytes []).length := by decide
    exact absurd ((PRSMessage.getBytes_eq_none_iff e _).mp h) hshort
  | some bytes => exact ⟨bytes, rfl⟩

/-- A pass on a datagram sends the response to it, or the report that something was raised. -/
theorem respond_sends (e : Endian) (srv : Server ε) (responseSent errorSent : Bool)
    (response : Option PRSMessage) {datagram : List UInt8 × ε}
    (h : datagram ∈ (srv.respond e responseSent errorSent response).sent.drop srv.sent.length) :
    (∃ m, response = some m ∧ m.getBytes e = some datagram.1) ∨
      ∃ port, PRSMessage.getBytes e ⟨.response, [], port, .undefinedError⟩ = some datagram.1 := by
  have herror : datagram ∈ (srv.sendError e errorSent).sent.drop srv.sent.length →
      ∃ port, PRSMessage.getBytes e ⟨.response, [], port, .undefinedError⟩ = some datagram.1 := by
    rw [Server.sendError]
    cases hbytes : PRSMessage.getBytes e ⟨.response, [], srv.serverPort, .undefinedError⟩ with
    | none =>
      intro h
      rw [List.drop_length] at h
      cases h
    | some bytes =>
      cases errorSent with
      | false =>
        intro h
        simp only [Bool.false_eq_true, if_false, List.drop_length] at h
        cases h
      | true =>
        intro h
        simp only [if_true, Server.send, List.drop_left] at h
        obtain rfl := List.eq_of_mem_singleton h
        exact ⟨srv.serverPort, hbytes⟩
  cases response with
  | none =>
    rw [Server.respond, List.drop_length] at h
    cases h
  | some m =>
    rw [Server.respond] at h
    cases hbytes : m.getBytes e with
    | none =>
      rw [hbytes] at h
      exact .inr (herror h)
    | some bytes =>
      rw [hbytes] at h
      cases responseSent with
      | false => exact .inr (herror h)
      | true =>
        simp only [if_true, Server.send, List.drop_left] at h
        obtain rfl := List.eq_of_mem_singleton h
        exact .inl ⟨m, rfl, hbytes⟩

theorem sent_of_one {srv srv' : Server ε} {endpoint : ε} (h : SendsOne srv srv' endpoint) :
    srv'.sent.drop srv.sent.length = [] ∨
      ∃ bytes, srv'.sent.drop srv.sent.length = [(bytes, endpoint)] := by
  rcases h with hsame | ⟨bytes, hsent⟩
  · exact .inl (by rw [hsame, List.drop_length])
  · exact .inr ⟨bytes, by rw [hsent, List.drop_left]⟩

/-- A pass sends nothing or answers the sender, unless it reports a failure. -/
def Answers (x : Entry ε) : Prop :=
  x.sent = [] ∨ ∃ bytes endpoint, x.received = some endpoint ∧ x.sent = [(bytes, endpoint)]

theorem step_answers (e : Endian) (srv : Server ε) (pass : Pass ε) (h : ¬ ReportsFailure srv pass) :
    Answers (step e srv pass).1 := by
  unfold step loopBody
  cases hstopped : srv.prs.stopped with
  | true => exact .inl (List.drop_length)
  | false =>
    obtain ⟨received, now, responseSent, errorSent⟩ := pass
    cases received with
    | failed =>
      cases errorSent with
      | true => exact absurd ⟨hstopped, rfl, rfl⟩ h
      | false =>
        refine .inl ?_
        simp only [Bool.false_eq_true, if_false, Server.sendError]
        split <;> exact List.drop_length
    | oversized sender =>
      simp only [Bool.false_eq_true, if_false]
      rcases sent_of_one (sendError_one { srv with serverEndPoint := sender } e errorSent) with
        hnone | ⟨sent, hone⟩
      · exact .inl hnone
      · exact .inr ⟨sent, sender, rfl, hone⟩
    | delivered bytes sender =>
      let message := PRSMessage.ofBytes e (buffer bytes)
      let handled : Server ε := { srv with
        prs := (srv.prs.handleMessage now message).2
        serverEndPoint := sender }
      simp only [Bool.false_eq_true, if_false]
      rcases sent_of_one (respond_one handled e responseSent errorSent
        (srv.prs.handleMessage now message).1) with hnone | ⟨sent, hone⟩
      · exact .inl hnone
      · exact .inr ⟨sent, sender, rfl, hone⟩

theorem step_reports (e : Endian) {srv : Server ε} {pass : Pass ε} (h : ReportsFailure srv pass) :
    ∃ bytes, (step e srv pass).1 = ⟨none, [(bytes, srv.serverEndPoint)]⟩ := by
  obtain ⟨hstopped, hfailed, hsent⟩ := h
  obtain ⟨bytes, hbytes⟩ := sendError_sends srv e
  refine ⟨bytes, ?_⟩
  unfold step loopBody
  rw [hstopped, hfailed, hsent]
  simp only [Bool.false_eq_true, if_false, hbytes, List.drop_left, Receive.sender]

/-- If every pass sends nothing or answers its sender, nobody is sent more than was received. -/
theorem sentTo_le [DecidableEq ε] {log : List (Pass ε × Entry ε)} (h : ∀ x ∈ log, Answers x.2)
    (endpoint : ε) : sentTo endpoint log ≤ receivedFrom endpoint log := by
  induction log with
  | nil => exact Nat.le_refl 0
  | cons x log ih =>
    have hrest := ih fun y hy => h y (List.mem_cons_of_mem x hy)
    unfold sentTo receivedFrom at hrest ⊢
    rw [List.flatMap_cons, List.countP_append, List.countP_cons]
    rcases h x List.mem_cons_self with hnone | ⟨bytes, sender, hreceived, hone⟩
    · rw [hnone]
      exact le_trans (Nat.zero_add _).le (hrest.trans (Nat.le_add_right _ _))
    · rw [hone, hreceived, List.countP_singleton, Nat.add_comm]
      simp only [decide_eq_true_eq, Option.some.injEq]
      exact Nat.add_le_add_right hrest _

theorem answers_of_every (e : Endian) {srv : Server ε} {passes : List (Pass ε)}
    (h : Machine.Every (step e) (fun srv pass => ¬ ReportsFailure srv pass) srv passes) :
    ∀ x ∈ Machine.trace (step e) srv passes, Answers x.2 := by
  induction passes generalizing srv with
  | nil => exact fun x hx => nomatch hx
  | cons pass passes ih =>
    rintro x (_ | ⟨_, hx⟩)
    · exact step_answers e srv pass h.1
    · exact ih h.2 x hx

theorem every_of_askers (e : Endian) {srv : Server ε} {passes : List (Pass ε)}
    (h : ∀ x ∈ Machine.trace (step e) srv passes, ∀ datagram ∈ x.2.sent,
      x.2.received = some datagram.2) :
    Machine.Every (step e) (fun srv pass => ¬ ReportsFailure srv pass) srv passes := by
  induction passes generalizing srv with
  | nil => trivial
  | cons pass passes ih =>
    refine ⟨fun hreports => ?_, ih fun x hx => h x (List.mem_cons_of_mem _ hx)⟩
    obtain ⟨bytes, hstep⟩ := step_reports e hreports
    have hfirst := h (pass, (step e srv pass).1) List.mem_cons_self (bytes, srv.serverEndPoint)
    rw [hstep] at hfirst
    exact nomatch hfirst List.mem_cons_self

/-- The program answers only those who asked exactly if it never reports that it could
    receive nothing. -/
theorem answers_askers_iff [DecidableEq ε] (e : Endian) (srv : Server ε) (passes : List (Pass ε)) :
    AnswersAskers (Machine.trace (step e) srv passes) ↔
      Machine.Every (step e) (fun srv pass => ¬ ReportsFailure srv pass) srv passes := by
  refine ⟨fun h => every_of_askers e h.2, fun h => ⟨fun before hbefore endpoint => ?_, ?_⟩⟩
  · exact sentTo_le (fun x hx => answers_of_every e h x (hbefore.subset hx)) endpoint
  · intro x hx datagram hsent
    rcases answers_of_every e h x hx with hnone | ⟨bytes, sender, hreceived, hone⟩
    · rw [hnone] at hsent
      exact nomatch hsent
    · rw [hone] at hsent
      rw [List.eq_of_mem_singleton hsent, hreceived]

/-- A client is answered, and then nothing can be received. -/
theorem failure_reported_to_client :
    let lookup : Datagram := ⟨1 :: List.replicate 53 0, rfl⟩
    let srv : Server Bool := ⟨30000, ⟨40000, 40000, 10, [.new 40000], false⟩, false, []⟩
    let log := Machine.trace (step .little) srv
      [⟨.delivered lookup.bytes true, 0, true, true⟩, ⟨.failed, 0, true, true⟩]
    sentTo true log = 2 ∧ receivedFrom true log = 1 ∧ ¬ AnswersAskers log := by
  intro lookup srv log
  have hsent : sentTo true log = 2 := by decide
  have hreceived : receivedFrom true log = 1 := by decide
  refine ⟨hsent, hreceived, fun h => ?_⟩
  have hle := h.1 log List.prefix_rfl true
  omega

end NetServices.PRSServer
