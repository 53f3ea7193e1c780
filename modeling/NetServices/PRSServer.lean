import NetServices.PRSIsolation
import NetServices.PRSMessageCodec

set_option autoImplicit false

/-!
# The main loop of the server program

`Program.cs`: one pass receives a datagram, lets the PRS handle it and sends the
response; whatever raises is answered with `UNDEFINED_ERROR`. Which sends
succeed is part of the input of a pass.
-/
namespace NetServices.PRSServer
open PRSMessage (Datagram)
open ByteOrder (Endian)
open PRS (Reachable)

/-- A datagram longer than the buffer is cut, or raises when its sender is known already,
    as the host has it. -/
inductive Receive (ε : Type) where
  | delivered (bytes : List UInt8) (sender : ε)
  | oversized (sender : ε)
  | failed

structure Pass (ε : Type) where
  received : Receive ε
  now : DateTime
  responseSent : Bool
  errorSent : Bool

structure Server (ε : Type) where
  serverPort : UInt16
  prs : PRS
  serverEndPoint : ε
  sent : List (List UInt8 × ε)

variable {ε : Type}

/-- The receive buffer: what a shorter datagram leaves unwritten is zero. -/
def buffer (bytes : List UInt8) : Datagram where
  bytes := (bytes ++ List.replicate PRSMessage.msgSize 0).take PRSMessage.msgSize
  size := by
    rw [List.length_take, List.length_append, List.length_replicate]
    omega

def Server.send (srv : Server ε) (bytes : List UInt8) : Server ε :=
  { srv with sent := srv.sent ++ [(bytes, srv.serverEndPoint)] }

/-- The catch block. An error response that cannot be sent is only logged. -/
def Server.sendError (srv : Server ε) (e : Endian) (errorSent : Bool) : Server ε :=
  match PRSMessage.getBytes e ⟨.response, [], srv.serverPort, .undefinedError⟩ with
  | some bytes => if errorSent then srv.send bytes else srv
  | none => srv

/-- The end of the try block: a response that cannot be encoded or sent raises. -/
def Server.respond (srv : Server ε) (e : Endian) (responseSent errorSent : Bool) :
    Option PRSMessage → Server ε
  | none => srv
  | some response =>
    match response.getBytes e with
    | some bytes => if responseSent then srv.send bytes else srv.sendError e errorSent
    | none => srv.sendError e errorSent

def loopBody (e : Endian) (srv : Server ε) (pass : Pass ε) : Server ε :=
  if srv.prs.stopped then srv
  else
    match pass.received with
    | .failed => srv.sendError e pass.errorSent
    | .oversized sender => { srv with serverEndPoint := sender }.sendError e pass.errorSent
    | .delivered bytes sender =>
      let message := PRSMessage.ofBytes e (buffer bytes)
      let (response, prs) := srv.prs.handleMessage pass.now message
      { srv with prs := prs, serverEndPoint := sender }.respond e pass.responseSent
        pass.errorSent response

/-- Handling the message or encoding its response raises. -/
def Raises (e : Endian) (prs : PRS) (now : DateTime) (d : Datagram) : Prop :=
  ∃ response, (prs.handleMessage now (PRSMessage.ofBytes e d)).1 = some response ∧
    response.getBytes e = none

/-- A message that would change more of the server than expiry does. -/
def Effective (prs : PRS) (now : DateTime) (msg : PRSMessage) : Prop :=
  match msg.msgType with
  | .requestPort =>
    (∀ r ∈ prs.ports, r.Live prs.keepAliveTimeout now → r.serviceName ≠ msg.serviceName) ∧
      ∃ r ∈ prs.ports, ¬ r.Live prs.keepAliveTimeout now
  | .keepAlive => ∃ r ∈ prs.ports, r.Live prs.keepAliveTimeout now ∧ r.port = msg.port ∧
      r.serviceName = msg.serviceName ∧ r.lastAlive ≠ now
  | .closePort => ∃ r ∈ prs.ports, r.Live prs.keepAliveTimeout now ∧ r.port = msg.port ∧
      msg.port ≠ 0
  | .stop => prs.stopped = false
  | .lookupPort | .response | .unnamed _ => False

@[simp] theorem sendError_prs (srv : Server ε) (e : Endian) (errorSent : Bool) :
    (srv.sendError e errorSent).prs = srv.prs := by
  unfold Server.sendError
  split
  · split_ifs <;> rfl
  · rfl

@[simp] theorem respond_prs (srv : Server ε) (e : Endian) (responseSent errorSent : Bool)
    (response : Option PRSMessage) :
    (srv.respond e responseSent errorSent response).prs = srv.prs := by
  cases response with
  | none => rfl
  | some response =>
    rw [Server.respond]
    split
    · split_ifs
      · rfl
      · rw [sendError_prs]
    · rw [sendError_prs]

theorem loopBody_delivered (e : Endian) {srv : Server ε} (hrun : srv.prs.stopped = false)
    (bytes : List UInt8) (sender : ε) (now : DateTime) (responseSent errorSent : Bool) :
    loopBody e srv ⟨.delivered bytes sender, now, responseSent, errorSent⟩ =
      ({ srv with
        prs := (srv.prs.handleMessage now (PRSMessage.ofBytes e (buffer bytes))).2
        serverEndPoint := sender } : Server ε).respond e responseSent errorSent
      (srv.prs.handleMessage now (PRSMessage.ofBytes e (buffer bytes))).1 := by
  rw [loopBody, if_neg (by rw [hrun]; exact Bool.false_ne_true)]

theorem buffer_datagram (d : Datagram) : buffer d.bytes = d := by
  obtain ⟨bytes, size⟩ := d
  simp only [buffer, ← size, List.take_left]

theorem change_response {prs prs' : PRS} {now : DateTime} {msg : PRSMessage}
    {reply : Option PRSMessage} (hc : PRS.Change prs now msg reply prs') :
    (∀ m, reply = some m → m.serviceName = msg.serviceName) ∧
    (reply = none → msg.msgType = .response ∨ ∃ value, msg.msgType = .unnamed value) := by
  cases hc with
  | ignored type => exact ⟨nofun, fun _ => type⟩
  | _ =>
    refine ⟨fun m hm => ?_, nofun⟩
    obtain rfl := Option.some.inj hm
    rfl

theorem update_ne {prs : PRS} {i : ℕ} {f : PortReservation → PortReservation}
    {r : PortReservation} (hr : prs.ports[i]? = some r) (h : f r ≠ r) : prs.update i f ≠ prs := by
  intro heq
  have hi := PRS.update_entry_eq f hr
  rw [heq, hr] at hi
  exact h (Option.some.inj hi).symm

theorem update_eq {prs : PRS} {i : ℕ} {f : PortReservation → PortReservation}
    {r : PortReservation} (hr : prs.ports[i]? = some r) (h : f r = r) : prs.update i f = prs := by
  have hports : prs.ports.modify i f = prs.ports := by
    refine List.ext_getElem? fun j => ?_
    rw [List.getElem?_modify]
    by_cases hij : i = j
    · subst hij
      rw [hr, Option.map_eq_map, Option.map_some, if_pos rfl, h]
    · cases prs.ports[j]? with
      | none => rfl
      | some r' => rw [Option.map_eq_map, Option.map_some, if_neg hij]
  rw [PRS.update, hports]

theorem keepAlive_eq_iff {r : PortReservation} (now : DateTime) (held : r.available = false) :
    r.keepAlive now = r ↔ r.lastAlive = now := by
  constructor
  · intro h
    rw [← h, PortReservation.keepAlive_lastAlive now held]
  · rintro rfl
    unfold PortReservation.keepAlive
    split_ifs <;> rfl

/-- Beyond expiry a message changes the server exactly when it is effective. -/
theorem handled_eq_iff {prs : PRS} {t now : DateTime} (h : prs.Inv t) (ht : t ≤ now)
    (msg : PRSMessage) :
    (prs.handleMessage now msg).2 = prs.checkForExpiredPorts now ↔ ¬ Effective prs now msg := by
  have hc := PRS.handleMessage_change prs now msg
  revert hc
  generalize (prs.handleMessage now msg).1 = reply
  generalize (prs.handleMessage now msg).2 = prs'
  intro hc
  cases hc with
  | granted i r type fresh entry free lowest =>
    obtain ⟨-, hheld, -, -⟩ := PortReservation.reserve_of_available msg.serviceName now free
    have hne : r.reserve msg.serviceName now ≠ r := fun heq => by
      rw [heq, free] at hheld
      cases hheld
    refine iff_of_false (update_ne entry hne) (not_not.mpr ?_)
    rw [Effective, type]
    exact ⟨PRS.swept_notHeld_iff.mp fresh,
      PRS.swept_free_iff.mp ⟨r, List.mem_of_getElem? entry, free⟩⟩
  | inUse r type mem held name =>
    apply iff_of_true rfl
    rw [Effective, type]
    rintro ⟨hfresh, -⟩
    exact PRS.swept_notHeld_iff.mpr hfresh r mem held name
  | busy type fresh full =>
    apply iff_of_true rfl
    rw [Effective, type]
    rintro ⟨-, hfree⟩
    obtain ⟨r, hr, free⟩ := PRS.swept_free_iff.mpr hfree
    exact Bool.false_ne_true ((full r hr).symm.trans free)
  | refreshed i r type at_port held name =>
    rw [Effective, type]
    by_cases hnow : r.lastAlive = now
    · apply iff_of_true (update_eq at_port.entry ((keepAlive_eq_iff now held).mpr hnow))
      intro heffective
      obtain ⟨j, r', hfirst, -, -, hne⟩ := (h.live_at_iff ht).mp heffective
      obtain ⟨-, rfl⟩ := PRS.firstAt_unique at_port hfirst
      exact hne hnow
    · refine iff_of_false (update_ne at_port.entry ?_) (not_not.mpr ?_)
      · exact fun heq => hnow ((keepAlive_eq_iff now held).mp heq)
      · exact (h.live_at_iff ht).mpr ⟨i, r, at_port, held, name, hnow⟩
  | notRefreshed type other =>
    apply iff_of_true rfl
    rw [Effective, type]
    intro heffective
    obtain ⟨i, r, hfirst, held, hname, -⟩ := (h.live_at_iff ht).mp heffective
    exact other i r hfirst held hname
  | released i r type at_port held nonzero =>
    have hne : r.close ≠ r := fun heq => by
      rw [← heq] at held
      cases held
    refine iff_of_false (update_ne at_port.entry hne) (not_not.mpr ?_)
    rw [Effective, type]
    exact (h.live_at_iff ht).mpr ⟨i, r, at_port, held, nonzero⟩
  | notReleased type idle =>
    apply iff_of_true rfl
    rw [Effective, type]
    intro heffective
    obtain ⟨i, r, hfirst, held, nonzero⟩ := (h.live_at_iff ht).mp heffective
    exact nonzero (idle i r hfirst held)
  | found _ _ type | notFound type =>
    apply iff_of_true rfl
    rw [Effective, type]
    exact not_false
  | stop type =>
    rw [Effective, type]
    change _ ↔ ¬ prs.stopped = false
    rw [Bool.not_eq_false]
    constructor
    · intro heq
      exact (congrArg PRS.stopped heq).symm
    · intro hs
      rw [← hs]
      rfl
  | ignored type =>
    apply iff_of_true rfl
    rw [Effective]
    rcases type with type | ⟨value, type⟩ <;> rw [type] <;> exact not_false

/-- What raises is answered with `UNDEFINED_ERROR`. -/
theorem loopBody_raises (e : Endian) {srv : Server ε} (hrun : srv.prs.stopped = false)
    (d : Datagram) (sender : ε) (now : DateTime) (responseSent errorSent : Bool)
    (h : Raises e srv.prs now d) :
    loopBody e srv ⟨.delivered d.bytes sender, now, responseSent, errorSent⟩ =
      ({ srv with
        prs := (srv.prs.handleMessage now (PRSMessage.ofBytes e d)).2
        serverEndPoint := sender } : Server ε).sendError e errorSent := by
  obtain ⟨response, hresponse, hbytes⟩ := h
  rw [loopBody_delivered e hrun, buffer_datagram, hresponse, Server.respond, hbytes]

/-- A pass that ends in `UNDEFINED_ERROR` leaves the server as the expiry check
    alone would, exactly unless an effective message has a name that cannot be
    encoded again. -/
theorem undefined_error_without_effect_iff (e : Endian) {srv : Server ε} {t now : DateTime}
    (h : Reachable srv.prs t) (ht : t ≤ now) (hrun : srv.prs.stopped = false) (d : Datagram)
    (sender : ε) (responseSent errorSent : Bool) :
    (Raises e srv.prs now d →
      (loopBody e srv ⟨.delivered d.bytes sender, now, responseSent, errorSent⟩).prs =
        srv.prs.checkForExpiredPorts now) ↔
    ¬ (53 < (PRSMessage.utf8GetBytes (PRSMessage.ofBytes e d).serviceName).length ∧
      Effective srv.prs now (PRSMessage.ofBytes e d)) := by
  rw [loopBody_delivered e hrun, respond_prs, buffer_datagram]
  obtain ⟨hname, hnone⟩ :=
    change_response (PRS.handleMessage_change srv.prs now (PRSMessage.ofBytes e d))
  have hiff := handled_eq_iff h.inv ht (PRSMessage.ofBytes e d)
  constructor
  · rintro hsilent ⟨hlong, heffective⟩
    cases hreply : (srv.prs.handleMessage now (PRSMessage.ofBytes e d)).1 with
    | none =>
      rw [Effective] at heffective
      rcases hnone hreply with type | ⟨value, type⟩ <;> rw [type] at heffective <;> exact heffective
    | some m =>
      rw [← hname m hreply] at hlong
      exact hiff.mp (hsilent ⟨m, hreply, PRSMessage.getBytes_of_long e m hlong⟩) heffective
  · rintro hcond ⟨m, hreply, hbytes⟩
    have hlong := (PRSMessage.getBytes_eq_none_iff e m).mp hbytes
    rw [hname m hreply] at hlong
    exact hiff.mpr fun heffective => hcond ⟨hlong, heffective⟩

/-- A request for a port whose name field holds only ill-formed bytes. -/
def illFormedRequest : Datagram where
  bytes := 0 :: (List.replicate 50 0xFF ++ [0, 0, 0])
  size := rfl

/-- A server program with one free port. -/
def oneFree : Server Unit where
  serverPort := 30000
  prs := ⟨40000, 40000, 10, [.new 40000], false⟩
  serverEndPoint := ()
  sent := []

theorem oneFree_reachable : Reachable oneFree.prs 0 :=
  @Reachable.constructed 2 40000 40000 10 _ (by decide)

theorem undefined_error_iff_request :
    (Raises .little oneFree.prs 0 illFormedRequest →
      (loopBody .little oneFree ⟨.delivered illFormedRequest.bytes (), 0, true, true⟩).prs =
        oneFree.prs.checkForExpiredPorts 0) ↔
    ¬ (53 < (PRSMessage.utf8GetBytes
        (PRSMessage.ofBytes .little illFormedRequest).serviceName).length ∧
      Effective oneFree.prs 0 (PRSMessage.ofBytes .little illFormedRequest)) :=
  undefined_error_without_effect_iff .little oneFree_reachable le_rfl rfl illFormedRequest ()
    true true

theorem undefined_error_with_effect : ¬ ∀ (e : Endian) (srv : Server Unit) (t now : DateTime)
    (d : Datagram) (sender : Unit) (responseSent errorSent : Bool), Reachable srv.prs t →
    t ≤ now → srv.prs.stopped = false → Raises e srv.prs now d →
    (loopBody e srv ⟨.delivered d.bytes sender, now, responseSent, errorSent⟩).prs =
      srv.prs.checkForExpiredPorts now := by
  intro h
  have heq := h .little oneFree 0 0 illFormedRequest () true true oneFree_reachable le_rfl rfl
    ⟨_, rfl, by decide +kernel⟩
  exact absurd heq (by decide +kernel)

end NetServices.PRSServer
