import NetServices.PRSClient

set_option autoImplicit false

/-!
# What a message that says success says of the server

A response whose status reads as success was sent by a pass that has done what
the request asks, under the name that the server reads from its field.
-/
namespace NetServices.PRSClient
open ByteOrder (Endian)
open PRSMessage (utf8GetBytes)
open PRSServer (buffer buffer_datagram)
open Utf16 (Str)

variable {ε : Type}

def Granted (before after : PRS) (now : DateTime) (serviceName : Str) (port : UInt16) : Prop :=
  ∃ i r, (before.checkForExpiredPorts now).ports[i]? = some r ∧ r.available = true ∧
    r.port = port ∧
    after = (before.checkForExpiredPorts now).update i (·.reserve serviceName now)

def Released (before after : PRS) (now : DateTime) (port : UInt16) : Prop :=
  ∃ i r, (before.checkForExpiredPorts now).ports[i]? = some r ∧ r.available = false ∧
    r.port = port ∧ after = (before.checkForExpiredPorts now).update i (·.close)

/-- The field of a message carries the name as it is. -/
def Carried (serviceName : Str) : Prop :=
  Utf16.WellFormed serviceName ∧ (utf8GetBytes serviceName).length ≤ 50 ∧
    serviceName.getLast? ≠ some 0

/-- On a datagram of the call, the server has done what the outcome says. -/
def Effected (log : List (Event ε × Record)) (n : ℕ) : Call → Except Exn Outcome → Prop
  | .requestPort serviceName, .ok (.port port) =>
    ∃ event before after now sent name,
      (event, .passed (some n) before after now sent) ∈ log ∧
      Granted before after now name port ∧ (Carried serviceName → name = serviceName)
  | .closePort _ port, .ok _ =>
    ∃ event before after now sent, (event, .passed (some n) before after now sent) ∈ log ∧
      Released before after now port
  | _, _ => True

/-- What a pass on a datagram of the call sends: the response to its request, or the report
    that something was raised. -/
def Answered (e e' : Endian) (call : Call) (before after : PRS) (now : DateTime)
    (bytes : List UInt8) : Prop :=
  ∃ request, call.exchange.request.getBytes e = some request ∧
    after = (before.handleMessage now (PRSMessage.ofBytes e' (buffer request))).2 ∧
    ((∃ response, (before.handleMessage now (PRSMessage.ofBytes e' (buffer request))).1 =
        some response ∧ response.getBytes e' = some bytes) ∨
      ∃ port, PRSMessage.getBytes e' ⟨.response, [], port, .undefinedError⟩ = some bytes)

/-- The type and the status fit a byte. -/
def Named (m : PRSMessage) : Prop :=
  (0 ≤ m.msgType.toInt ∧ m.msgType.toInt < 256) ∧ 0 ≤ m.status.toInt ∧ m.status.toInt < 256

theorem response_named (serviceName : Str) (port : UInt16) {status : Status}
    (h : 0 ≤ status.toInt ∧ status.toInt < 256) : Named (PRS.response serviceName port status) :=
  ⟨show 0 ≤ MessageType.response.toInt ∧ MessageType.response.toInt < 256 by decide, h⟩

theorem request_named (call : Call) : Named call.exchange.request := by
  have htypes : ∀ type ∈ [MessageType.requestPort, .lookupPort, .closePort, .keepAlive],
      0 ≤ type.toInt ∧ type.toInt < 256 := by decide
  have hstatus : 0 ≤ Status.success.toInt ∧ Status.success.toInt < 256 := by decide
  cases call with
  | requestPort => exact ⟨htypes .requestPort (by decide), hstatus⟩
  | lookUpPort => exact ⟨htypes .lookupPort (by decide), hstatus⟩
  | closePort => exact ⟨htypes .closePort (by decide), hstatus⟩
  | keepPortAlive => exact ⟨htypes .keepAlive (by decide), hstatus⟩

/-- A message as it is read from the bytes that were written. -/
theorem read_written (e e' : Endian) {m : PRSMessage} {bytes : List UInt8}
    (h : m.getBytes e = some bytes) (hnamed : Named m) :
    ∃ name, PRSMessage.ofBytes e' (buffer bytes) = { m with serviceName := name } ∧
      (Carried m.serviceName → name = m.serviceName) := by
  obtain ⟨htype, hstatus⟩ := hnamed
  have hfits : (utf8GetBytes m.serviceName).length ≤ 53 := by
    by_contra hlong
    rw [(PRSMessage.getBytes_eq_none_iff e m).mpr (by omega)] at h
    cases h
  refine ⟨(PRSMessage.ofBytes e' (buffer bytes)).serviceName, ?_, fun hcarried => ?_⟩
  · generalize hfield : (utf8GetBytes m.serviceName ++
      List.replicate (53 - (utf8GetBytes m.serviceName).length) 0).take 50 = field
    have hlength : field.length = 50 := by
      rw [← hfield, List.length_take, List.length_append, List.length_replicate]
      omega
    rw [PRSMessage.getBytes_of_fits e m hfits, hfield] at h
    obtain rfl := Option.some.inj h
    have hbuffer : buffer (m.wire field) = ⟨m.wire field, m.wire_length hlength⟩ :=
      buffer_datagram ⟨m.wire field, m.wire_length hlength⟩
    rw [hbuffer, PRSMessage.ofBytes_wire e' m hlength, PRSMessage.toByte_toNat htype,
      PRSMessage.toByte_toNat hstatus, MessageType.ofInt_toInt, Status.ofInt_toInt]
  · obtain ⟨hwell, hlength, hlast⟩ := hcarried
    obtain ⟨d, hbytes, -, -, hread⟩ :=
      (PRSMessage.codec_inverse e e').1 m htype hstatus hwell hlength hlast
    obtain rfl := Option.some.inj (hbytes.symm.trans h)
    rw [buffer_datagram, hread]

theorem change_named {prs after : PRS} {now : DateTime} {msg response : PRSMessage}
    (h : PRS.Change prs now msg (some response) after) : Named response := by
  generalize hreply : some response = reply at h
  cases h with
  | ignored type => cases hreply
  | _ =>
    obtain rfl := Option.some.inj hreply
    exact response_named _ _ (by decide)

theorem granted_of_success {before after : PRS} {now : DateTime} {msg response : PRSMessage}
    (type : msg.msgType = .requestPort)
    (h : PRS.Change (before.checkForExpiredPorts now) now msg (some response) after)
    (hstatus : response.status = .success) :
    Granted before after now msg.serviceName response.port := by
  generalize hreply : some response = reply at h
  cases h with
  | granted i r _ fresh entry free lowest =>
    obtain rfl := Option.some.inj hreply
    exact ⟨i, r, entry, free, rfl, rfl⟩
  | inUse | busy =>
    obtain rfl := Option.some.inj hreply
    cases hstatus
  | refreshed i r other | released i r other | found i r other =>
    rw [type] at other
    cases other
  | notRefreshed other | notReleased other | notFound other | stop other =>
    rw [type] at other
    cases other
  | ignored other => cases hreply

theorem released_of_success {before after : PRS} {now : DateTime} {msg response : PRSMessage}
    (type : msg.msgType = .closePort)
    (h : PRS.Change (before.checkForExpiredPorts now) now msg (some response) after)
    (hstatus : response.status = .success) : Released before after now msg.port := by
  generalize hreply : some response = reply at h
  cases h with
  | released i r _ at_port held nonzero => exact ⟨i, r, at_port.entry, held, at_port.port_eq, rfl⟩
  | notReleased =>
    obtain rfl := Option.some.inj hreply
    cases hstatus
  | granted i r other | refreshed i r other | found i r other | inUse r other =>
    rw [type] at other
    cases other
  | busy other | notRefreshed other | notFound other | stop other =>
    rw [type] at other
    cases other
  | ignored other => cases hreply

/-- A message that says success is the response to the request of the call. -/
theorem change_of_success {e e' : Endian} {call : Call} {before after : PRS} {now : DateTime}
    {bytes : List UInt8} (h : Answered e e' call before after now bytes)
    (hsuccess : (PRSMessage.ofBytes e (buffer bytes)).status = .success) :
    ∃ name response, PRS.Change (before.checkForExpiredPorts now) now
        { call.exchange.request with serviceName := name } (some response) after ∧
      (Carried call.exchange.request.serviceName → name = call.exchange.request.serviceName) ∧
      response.status = .success ∧ response.port = (PRSMessage.ofBytes e (buffer bytes)).port := by
  obtain ⟨request, hrequest, rfl, ⟨response, hresponse, hbytes⟩ | ⟨port, hbytes⟩⟩ := h
  · obtain ⟨name, hread, hname⟩ := read_written e e' hrequest (request_named call)
    have hchange := PRS.handleMessage_change before now (PRSMessage.ofBytes e' (buffer request))
    rw [hresponse] at hchange
    obtain ⟨name', hread', -⟩ := read_written e' e hbytes (change_named hchange)
    rw [hread'] at hsuccess ⊢
    rw [hread] at hchange ⊢
    exact ⟨name, response, hchange, hname, hsuccess, rfl⟩
  · have hnamed := response_named [] port (show _ ∧ Status.undefinedError.toInt < 256 by decide)
    obtain ⟨name', hread', -⟩ := read_written e' e hbytes hnamed
    rw [hread'] at hsuccess
    cases hsuccess

/-- What the client is told has been done on a datagram of its call. -/
theorem effected_of_answered {e e' : Endian} {log : List (Event ε × Record)} {event : Event ε}
    {n : ℕ} {call : Call} {before after : PRS} {now : DateTime} {sent : List (List UInt8)}
    {bytes : List UInt8} (hlog : (event, .passed (some n) before after now sent) ∈ log)
    (h : Answered e e' call before after now bytes) :
    Effected log n call (call.exchange.outcome (PRSMessage.ofBytes e (buffer bytes))) := by
  by_cases hsuccess : (PRSMessage.ofBytes e (buffer bytes)).status = .success
  · obtain ⟨name, response, hchange, hname, hstatus, hport⟩ := change_of_success h hsuccess
    cases call with
    | requestPort serviceName =>
      have hgranted := granted_of_success rfl hchange hstatus
      rw [hport] at hgranted
      simp only [Call.exchange, requestPort, exchange, if_pos hsuccess]
      exact ⟨event, before, after, now, sent, name, hlog, hgranted, hname⟩
    | closePort serviceName port =>
      have hreleased := released_of_success rfl hchange hstatus
      simp only [Call.exchange, closePort, exchange, if_pos hsuccess]
      exact ⟨event, before, after, now, sent, hlog, hreleased⟩
    | lookUpPort serviceName => trivial
    | keepPortAlive serviceName port => trivial
  · cases call with
    | requestPort serviceName =>
      simp only [Call.exchange, requestPort, exchange, if_neg hsuccess, Effected]
    | closePort serviceName port =>
      simp only [Call.exchange, closePort, exchange, if_neg hsuccess, Effected]
    | lookUpPort serviceName => trivial
    | keepPortAlive serviceName port => trivial

end NetServices.PRSClient
