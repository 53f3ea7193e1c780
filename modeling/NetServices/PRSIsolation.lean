import NetServices.PRSRuns

set_option autoImplicit false

/-!
# Isolation between services

A message leaves the live reservations of other services alone, with one
exception: a request to close a port closes it whoever holds it.
-/
namespace NetServices.PRS
open Utf16 (lit)

/-- Every live reservation under a name other than the sender's is still there,
    with the same name, port and `lastAlive`. -/
def Isolates (prs : PRS) (now : DateTime) (msg : PRSMessage) : Prop :=
  ∀ r ∈ prs.ports, r.Live prs.keepAliveTimeout now → r.serviceName ≠ msg.serviceName →
    r ∈ (prs.handleMessage now msg).2.ports

/-- A request to close the port of somebody else's live reservation. -/
def ClosesOther (prs : PRS) (now : DateTime) (msg : PRSMessage) : Prop :=
  msg.msgType = .closePort ∧ msg.port ≠ 0 ∧
    ∃ r ∈ prs.ports, r.Live prs.keepAliveTimeout now ∧ r.port = msg.port ∧
      r.serviceName ≠ msg.serviceName

theorem update_entry_ne {prs : PRS} {i j : ℕ} (f : PortReservation → PortReservation)
    {r : PortReservation} (hr : prs.ports[j]? = some r) (h : j ≠ i) :
    (prs.update i f).ports[j]? = some r := by
  rw [update_ports, List.getElem?_modify, hr, Option.map_eq_map, Option.map_some, if_neg (Ne.symm h)]

theorem update_entry_eq {prs : PRS} {i : ℕ} (f : PortReservation → PortReservation)
    {r : PortReservation} (hr : prs.ports[i]? = some r) :
    (prs.update i f).ports[i]? = some (f r) := by
  rw [update_ports, List.getElem?_modify_eq, hr]
  rfl

/-- What a message can do to a reservation that is held under another name. -/
theorem Change.other_entry {prs prs' : PRS} {now : DateTime} {msg : PRSMessage}
    {reply : Option PRSMessage} (hc : Change prs now msg reply prs') {i : ℕ}
    {r : PortReservation} (hr : prs.ports[i]? = some r) (held : r.available = false)
    (hname : r.serviceName ≠ msg.serviceName) :
    prs'.ports[i]? = some r ∨
      msg.msgType = .closePort ∧ msg.port ≠ 0 ∧ r.port = msg.port := by
  cases hc with
  | granted j r' type fresh entry free lowest =>
    refine .inl (update_entry_ne _ hr ?_)
    rintro rfl
    rw [Option.some.inj (hr.symm.trans entry), free] at held
    cases held
  | refreshed j r' type at_port held' name =>
    refine .inl (update_entry_ne _ hr ?_)
    rintro rfl
    rw [Option.some.inj (hr.symm.trans at_port.entry)] at hname
    exact hname name
  | released j r' type at_port held' nonzero =>
    by_cases hj : i = j
    · subst hj
      rw [Option.some.inj (hr.symm.trans at_port.entry)]
      exact .inr ⟨type, nonzero, at_port.port_eq⟩
    · exact .inl (update_entry_ne _ hr hj)
  | inUse | busy | notRefreshed | notReleased | found | notFound | ignored | stop =>
    exact .inl hr

/-- A live reservation whose port a message asks to close is gone afterwards. -/
theorem closed_entry {prs : PRS} {t now : DateTime} (h : prs.Inv t) (ht : t ≤ now)
    {msg : PRSMessage} (type : msg.msgType = .closePort) (nonzero : msg.port ≠ 0)
    {r : PortReservation} (hr : r ∈ prs.ports) (hl : r.Live prs.keepAliveTimeout now)
    (hport : r.port = msg.port) : r ∉ (prs.handleMessage now msg).2.ports := by
  obtain ⟨i, hi⟩ := List.mem_iff_getElem?.mp hr
  have hswept := live_entry hi hl
  have hfirst := (h.checkForExpiredPorts ht).firstAt hswept
  rw [hport] at hfirst
  have hinv := h.handleMessage ht msg
  have hc := handleMessage_change prs now msg
  revert hinv hc
  generalize (prs.handleMessage now msg).1 = reply
  generalize (prs.handleMessage now msg).2 = prs'
  intro hinv hc hmem
  cases hc with
  | released j r' _ at_port held _ =>
    obtain ⟨rfl, rfl⟩ := firstAt_unique hfirst at_port
    have hclosed := update_entry_eq PortReservation.close hswept
    obtain ⟨k, hk⟩ := List.mem_iff_getElem?.mp hmem
    obtain ⟨-, heq⟩ := hinv.port_injective hk hclosed rfl
    rw [heq] at held
    cases held
  | notReleased _ idle => exact nonzero (idle i r hfirst hl.1)
  | granted _ _ other | inUse _ other | busy other | refreshed _ _ other | notRefreshed other
  | found _ _ other | notFound other | stop other =>
    rw [type] at other
    cases other
  | ignored other =>
    rw [type] at other
    rcases other with other | ⟨value, other⟩ <;> cases other

theorem isolates_iff {prs : PRS} {t now : DateTime} (h : Reachable prs t) (ht : t ≤ now)
    (msg : PRSMessage) : prs.Isolates now msg ↔ ¬ prs.ClosesOther now msg := by
  constructor
  · rintro hiso ⟨type, nonzero, r, hr, hl, hport, hname⟩
    exact closed_entry h.inv ht type nonzero hr hl hport (hiso r hr hl hname)
  · intro hno r hr hl hname
    obtain ⟨i, hi⟩ := List.mem_iff_getElem?.mp hr
    rcases (handleMessage_change prs now msg).other_entry (live_entry hi hl) hl.1 hname with
        hkept | ⟨type, nonzero, hport⟩
    · exact List.mem_of_getElem? hkept
    · exact absurd ⟨type, nonzero, r, hr, hl, hport, hname⟩ hno

/-- A server with one port, which a service has been granted. -/
def oneHeld : PRS where
  startingClientPort := 40000
  endingClientPort := 40000
  keepAliveTimeout := 10
  ports := [(PortReservation.new 40000).reserve (lit "A") 0]
  stopped := false

theorem oneHeld_reachable : Reachable oneHeld 0 := by
  have h : construct 2 40000 40000 10 = some ⟨40000, 40000, 10, [.new 40000], false⟩ := by decide
  exact (Reachable.constructed h).handled le_rfl ⟨.requestPort, lit "A", 0, .success⟩

theorem isolates_iff_close : oneHeld.Isolates 0 ⟨.closePort, lit "B", 40000, .success⟩ ↔
    ¬ oneHeld.ClosesOther 0 ⟨.closePort, lit "B", 40000, .success⟩ :=
  isolates_iff oneHeld_reachable le_rfl _

theorem close_not_isolated : ¬ ∀ (prs : PRS) (t now : DateTime) (msg : PRSMessage),
    Reachable prs t → t ≤ now → prs.Isolates now msg := by
  intro h
  have hiso := h oneHeld 0 0 ⟨.closePort, lit "B", 40000, .success⟩ oneHeld_reachable le_rfl
  exact absurd (hiso ((PortReservation.new 40000).reserve (lit "A") 0)) (by decide)

end NetServices.PRS
