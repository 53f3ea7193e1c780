import NetServices.PRSEffects

set_option autoImplicit false

/-!
# Datagrams that are too short

The server decodes its whole buffer however many bytes have come, and what has not
come reads as zero: no bytes at all are a request for a port under the empty name.
-/
namespace NetServices.PRSServer
open ByteOrder (Endian)
open PRS (Reachable)
open PRSMessage (utf8GetBytes)

/-- A message that is answered `SUCCESS`. -/
def Succeeds (prs : PRS) (now : DateTime) (msg : PRSMessage) : Prop :=
  match msg.msgType with
  | .requestPort =>
    (∀ r ∈ prs.ports, r.Live prs.keepAliveTimeout now → r.serviceName ≠ msg.serviceName) ∧
      ∃ r ∈ prs.ports, ¬ r.Live prs.keepAliveTimeout now
  | .keepAlive => ∃ r ∈ prs.ports, r.Live prs.keepAliveTimeout now ∧ r.port = msg.port ∧
      r.serviceName = msg.serviceName
  | .closePort => ∃ r ∈ prs.ports, r.Live prs.keepAliveTimeout now ∧ r.port = msg.port ∧
      msg.port ≠ 0
  | .lookupPort => ∃ r ∈ (prs.checkForExpiredPorts now).ports, r.serviceName = msg.serviceName
  | .stop => True
  | .response | .unnamed _ => False

section
variable {prs : PRS} {t now : DateTime}

/-- The messages that succeed are those that are answered so. -/
theorem succeeds_iff (h : prs.Inv t) (ht : t ≤ now) (msg : PRSMessage) :
    (∃ response, (prs.handleMessage now msg).1 = some response ∧ response.status = .success) ↔
      Succeeds prs now msg := by
  have hc := PRS.handleMessage_change prs now msg
  revert hc
  generalize (prs.handleMessage now msg).1 = reply
  generalize (prs.handleMessage now msg).2 = prs'
  intro hc
  have refused : ∀ {serviceName port status}, status ≠ .success →
      ¬ ∃ response, some (PRS.response serviceName port status) = some response ∧
        response.status = .success := by
    rintro serviceName port status hne ⟨response, hresponse, hsuccess⟩
    obtain rfl := Option.some.inj hresponse
    exact hne hsuccess
  rw [Succeeds]
  cases hc with
  | granted i r type fresh entry free lowest =>
    rw [type]
    exact iff_of_true ⟨_, rfl, rfl⟩ ⟨PRS.swept_notHeld_iff.mp fresh,
      PRS.swept_free_iff.mp ⟨r, List.mem_of_getElem? entry, free⟩⟩
  | inUse r type mem held name =>
    rw [type]
    refine iff_of_false (refused (by decide)) ?_
    rintro ⟨hfresh, -⟩
    exact PRS.swept_notHeld_iff.mpr hfresh r mem held name
  | busy type fresh full =>
    rw [type]
    refine iff_of_false (refused (by decide)) ?_
    rintro ⟨-, hfree⟩
    obtain ⟨r, hr, free⟩ := PRS.swept_free_iff.mpr hfree
    exact Bool.false_ne_true ((full r hr).symm.trans free)
  | refreshed i r type at_port held name =>
    rw [type]
    exact iff_of_true ⟨_, rfl, rfl⟩ ((h.live_at_iff ht).mpr ⟨i, r, at_port, held, name⟩)
  | notRefreshed type other =>
    rw [type]
    refine iff_of_false (refused (by decide)) fun hsucceeds => ?_
    obtain ⟨i, r, hfirst, held, hname⟩ := (h.live_at_iff ht).mp hsucceeds
    exact other i r hfirst held hname
  | released i r type at_port held nonzero =>
    rw [type]
    exact iff_of_true ⟨_, rfl, rfl⟩ ((h.live_at_iff ht).mpr ⟨i, r, at_port, held, nonzero⟩)
  | notReleased type idle =>
    rw [type]
    refine iff_of_false (refused (by decide)) fun hsucceeds => ?_
    obtain ⟨i, r, hfirst, held, nonzero⟩ := (h.live_at_iff ht).mp hsucceeds
    exact nonzero (idle i r hfirst held)
  | found i r type entry name first =>
    rw [type]
    exact iff_of_true ⟨_, rfl, rfl⟩ ⟨r, List.mem_of_getElem? entry, name⟩
  | notFound type absent =>
    rw [type]
    refine iff_of_false (refused (by decide)) ?_
    rintro ⟨r, hr, hname⟩
    exact absent r hr hname
  | stop type =>
    rw [type]
    exact iff_of_true ⟨_, rfl, rfl⟩ trivial
  | ignored type =>
    refine iff_of_false (fun ⟨_, hnone, _⟩ => nomatch hnone) ?_
    rcases type with type | ⟨value, type⟩ <;> rw [type] <;> exact not_false

/-- A message that is no request for a port keeps the flag and the live reservations
    exactly if it is not effective. -/
theorem kept_iff (h : prs.Inv t) (ht : t ≤ now) (hrun : prs.stopped = false) (msg : PRSMessage) :
    ((prs.handleMessage now msg).2.stopped = prs.stopped ∧
      ∀ (i : ℕ) (r : PortReservation), prs.ports[i]? = some r →
        r.Live prs.keepAliveTimeout now →
        (prs.handleMessage now msg).2.ports[i]? = some r) ↔
      msg.msgType = .requestPort ∨ ¬ Effective prs now msg := by
  have hsame := handled_eq_iff h ht msg
  have hc := PRS.handleMessage_change prs now msg
  revert hc hsame
  generalize (prs.handleMessage now msg).1 = reply
  generalize (prs.handleMessage now msg).2 = prs'
  intro hsame hc
  constructor
  · rintro ⟨hstopped, hkept⟩
    -- an entry that is kept as it was is no change
    have kept : ∀ {i r} {f : PortReservation → PortReservation},
        prs' = (prs.checkForExpiredPorts now).update i f →
        (prs.checkForExpiredPorts now).ports[i]? = some r → r.available = false →
        ¬ Effective prs now msg := by
      rintro i r f rfl hr held
      obtain ⟨hi, hl⟩ := PRS.swept_held_entry hr held
      have hf := (PRS.update_entry_eq f hr).symm.trans (hkept i r hi hl)
      exact hsame.mp (update_eq hr (Option.some.inj hf))
    cases hc with
    | granted _ _ type | inUse _ type | busy type => exact .inl type
    | refreshed i r type at_port held | released i r type at_port held =>
      exact .inr (kept rfl at_port.entry held)
    | stop type => exact Bool.noConfusion (hstopped.trans hrun)
    | _ => exact .inr (hsame.mp rfl)
  · rintro (type | hidle)
    · cases hc with
      | granted i r _ fresh entry free lowest =>
        refine ⟨rfl, fun j r' hr' hl => PRS.update_entry_ne _ (PRS.live_entry hr' hl) ?_⟩
        rintro rfl
        obtain rfl := Option.some.inj ((PRS.live_entry hr' hl).symm.trans entry)
        exact Bool.false_ne_true (hl.1.symm.trans free)
      | inUse | busy => exact ⟨rfl, fun i r hr hl => PRS.live_entry hr hl⟩
      | refreshed _ _ other | released _ _ other | found _ _ other =>
        rw [type] at other
        cases other
      | notRefreshed other | notReleased other | notFound other | stop other =>
        rw [type] at other
        cases other
      | ignored other => exact ⟨rfl, fun i r hr hl => PRS.live_entry hr hl⟩
    · rw [hsame.mpr hidle]
      exact ⟨rfl, fun i r hr hl => PRS.live_entry hr hl⟩

end

section
variable {ε : Type}

/-- The flag and the live reservations are as they were, and nothing that was sent reads
    as `SUCCESS`. -/
structure Unaffected (srv srv' : Server ε) (now : DateTime) : Prop where
  stopped : srv'.prs.stopped = srv.prs.stopped
  reservations : ∀ (i : ℕ) (r : PortReservation), srv.prs.ports[i]? = some r →
    r.Live srv.prs.keepAliveTimeout now → srv'.prs.ports[i]? = some r
  answer : ∀ datagram ∈ srv'.sent.drop srv.sent.length, ∀ reader,
    (PRSMessage.ofBytes reader (buffer datagram.1)).status ≠ .success

theorem status_read (e reader : Endian) {m : PRSMessage} {bytes : List UInt8}
    (h : m.getBytes e = some bytes) (hnamed : PRSClient.Named m) :
    (PRSMessage.ofBytes reader (buffer bytes)).status = m.status := by
  obtain ⟨name, hread, -⟩ := PRSClient.read_written e reader h hnamed
  rw [hread]

/-- A message is not answered `SUCCESS`, whatever can be sent, exactly if it does not succeed
    or its name is too long to be sent back. -/
theorem unanswered_iff (e : Endian) {srv : Server ε} {t now : DateTime} (h : srv.prs.Inv t)
    (ht : t ≤ now) (hrun : srv.prs.stopped = false) (bytes : List UInt8) (sender : ε) :
    (∀ responseSent errorSent, ∀ datagram ∈
        (loopBody e srv ⟨.delivered bytes sender, now, responseSent, errorSent⟩).sent.drop
          srv.sent.length,
        ∀ reader, (PRSMessage.ofBytes reader (buffer datagram.1)).status ≠ .success) ↔
      (Succeeds srv.prs now (PRSMessage.ofBytes e (buffer bytes)) →
        53 < (utf8GetBytes (PRSMessage.ofBytes e (buffer bytes)).serviceName).length) := by
  simp only [loopBody_delivered e hrun]
  generalize PRSMessage.ofBytes e (buffer bytes) = msg
  have hchange := PRS.handleMessage_change srv.prs now msg
  have hname := (change_response hchange).1
  rw [← succeeds_iff h ht msg]
  constructor
  · rintro hsent ⟨response, hresponse, hsuccess⟩
    by_contra hshort
    cases hbytes : response.getBytes e with
    | none =>
      rw [PRSMessage.getBytes_eq_none_iff, hname response hresponse] at hbytes
      exact hshort hbytes
    | some answer =>
      refine hsent true true (answer, sender) ?_ e ?_
      · simp only [hresponse, Server.respond, hbytes, if_true, Server.send, List.drop_left]
        exact List.mem_singleton_self _
      · rw [hresponse] at hchange
        exact (status_read e e hbytes (PRSClient.change_named hchange)).trans hsuccess
  · rintro hlong responseSent errorSent ⟨answer, endpoint⟩ hmem reader hsuccess
    rcases respond_sends e ({ srv with
      prs := (srv.prs.handleMessage now msg).2
      serverEndPoint := sender } : Server ε) responseSent errorSent _ hmem with
      ⟨response, hresponse, hbytes⟩ | ⟨port, hbytes⟩
    · rw [hresponse] at hchange
      rw [status_read e reader hbytes (PRSClient.change_named hchange)] at hsuccess
      have hnone := hlong ⟨response, hresponse, hsuccess⟩
      rw [← hname response hresponse, ← PRSMessage.getBytes_eq_none_iff e, hbytes] at hnone
      cases hnone
    · have hnamed := PRSClient.response_named [] port
        (show _ ∧ Status.undefinedError.toInt < 256 by decide)
      rw [status_read e reader hbytes hnamed] at hsuccess
      cases hsuccess

theorem buffer_getD {bytes : List UInt8} {i : ℕ} (h : bytes.length ≤ i) :
    (buffer bytes).bytes.getD i 0 = 0 := by
  rw [List.getD_eq_getElem?_getD, buffer, List.getElem?_take]
  split_ifs
  · rw [List.getElem?_append_right h, List.getElem?_replicate]
    split_ifs <;> rfl
  · rfl

/-- An incomplete datagram reads as some message, of port 0 unless a byte of the port has
    come. Handling it leaves the server as it was and is not answered `SUCCESS` exactly if it
    is a request for a port or has no effect, and does not succeed or cannot be answered; it
    changes no more than expiry does exactly if it has no effect. -/
theorem incomplete_unaffected_iff (e : Endian) {srv : Server ε} {t now : DateTime}
    (h : Reachable srv.prs t) (ht : t ≤ now) (hrun : srv.prs.stopped = false)
    {bytes : List UInt8} (hshort : bytes.length < PRSMessage.msgSize) (sender : ε) :
    ∃ msg, PRSMessage.ofBytes e (buffer bytes) = msg ∧ msg.status = .success ∧
      (bytes.length ≤ 51 → msg.port = 0) ∧
      ((∀ responseSent errorSent, Unaffected srv
          (loopBody e srv ⟨.delivered bytes sender, now, responseSent, errorSent⟩) now) ↔
        (msg.msgType = .requestPort ∨ ¬ Effective srv.prs now msg) ∧
          (Succeeds srv.prs now msg → 53 < (utf8GetBytes msg.serviceName).length)) ∧
      ((∀ responseSent errorSent,
          (loopBody e srv ⟨.delivered bytes sender, now, responseSent, errorSent⟩).prs =
            srv.prs.checkForExpiredPorts now) ↔ ¬ Effective srv.prs now msg) := by
  have hprs : ∀ responseSent errorSent,
      (loopBody e srv ⟨.delivered bytes sender, now, responseSent, errorSent⟩).prs =
        (srv.prs.handleMessage now (PRSMessage.ofBytes e (buffer bytes))).2 := by
    intro responseSent errorSent
    rw [loopBody_delivered e hrun, respond_prs]
  refine ⟨_, rfl, ?_, fun hlength => ?_, ?_, ?_⟩
  · have hstatus := buffer_getD (i := 53) (Nat.le_of_lt_succ hshort)
    simp only [PRSMessage.ofBytes, hstatus]
    rfl
  · have hhigh := buffer_getD hlength
    have hlow := buffer_getD (Nat.le_succ_of_le hlength)
    simp only [PRSMessage.ofBytes, hhigh, hlow]
    cases e <;> rfl
  · rw [← kept_iff h.inv ht hrun, ← unanswered_iff e h.inv ht hrun bytes sender]
    constructor
    · intro hunaffected
      obtain ⟨hstopped, hkept, -⟩ := hunaffected true true
      rw [hprs] at hstopped hkept
      exact ⟨⟨hstopped, hkept⟩, fun responseSent errorSent =>
        (hunaffected responseSent errorSent).answer⟩
    · rintro ⟨⟨hstopped, hkept⟩, hanswer⟩ responseSent errorSent
      refine ⟨?_, ?_, hanswer responseSent errorSent⟩
      · rw [hprs]
        exact hstopped
      · rw [hprs]
        exact hkept
  · rw [← handled_eq_iff h.inv ht]
    simp only [hprs]
    exact ⟨fun hsame => hsame true true, fun hsame _ _ => hsame⟩

end

/-- The first byte of a keep-alive has come. -/
theorem incomplete_unaffected_iff_type :
    ∃ msg, PRSMessage.ofBytes .big (buffer [2]) = msg ∧ msg.status = .success ∧
      ([(2 : UInt8)].length ≤ 51 → msg.port = 0) ∧
      ((∀ responseSent errorSent, Unaffected oneFree
          (loopBody .big oneFree ⟨.delivered [2] (), 0, responseSent, errorSent⟩) 0) ↔
        (msg.msgType = .requestPort ∨ ¬ Effective oneFree.prs 0 msg) ∧
          (Succeeds oneFree.prs 0 msg → 53 < (utf8GetBytes msg.serviceName).length)) ∧
      ((∀ responseSent errorSent,
          (loopBody .big oneFree ⟨.delivered [2] (), 0, responseSent, errorSent⟩).prs =
            oneFree.prs.checkForExpiredPorts 0) ↔ ¬ Effective oneFree.prs 0 msg) :=
  incomplete_unaffected_iff .big oneFree_reachable le_rfl rfl (by decide) ()

/-- A datagram without any bytes is granted a port, and one byte stops the server. -/
theorem incomplete_obeyed :
    let granted := loopBody .little oneFree ⟨.delivered [] (), 0, true, true⟩
    let stopped := loopBody .little oneFree ⟨.delivered [4] (), 0, true, true⟩
    granted.prs.ports = [(PortReservation.new 40000).reserve [] 0] ∧
      ¬ Unaffected oneFree granted 0 ∧ stopped.prs.stopped = true ∧
      ¬ Unaffected oneFree stopped 0 := by
  intro granted stopped
  have hsent : granted.sent = [(0x05 :: (List.replicate 50 0 ++ [0x9C, 0x40, 0x00]), ())] := by
    decide
  refine ⟨by decide, fun h => ?_, by decide, fun h => ?_⟩
  · exact absurd (h.answer _ (by rw [hsent]; exact List.mem_singleton_self _) .little) (by decide)
  · exact absurd h.stopped (by decide)

end NetServices.PRSServer
