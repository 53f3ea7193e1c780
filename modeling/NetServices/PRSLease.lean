import NetServices.PRSIsolation

set_option autoImplicit false

/-!
# Leases

From the grant of a port until the first message that comes more than the
timeout after the last refresh, the service owns the port in every answer. From
that message on the service is unknown, until it is granted a port again.
-/
namespace NetServices.PRS
open Utf16 (Str lit)

/-- A message and what it was answered. -/
abbrev Exchange := Input × Option PRSMessage

namespace Exchange

def Asks (x : Exchange) (type : MessageType) (serviceName : Str) : Prop :=
  x.1.2.msgType = type ∧ x.1.2.serviceName = serviceName

def Answered (x : Exchange) (status : Status) : Prop := x.2.map (·.status) = some status

def AnsweredPort (x : Exchange) (status : Status) (port : UInt16) : Prop :=
  x.2.map (fun m => (m.status, m.port)) = some (status, port)

def Refreshes (x : Exchange) (serviceName : Str) (port : UInt16) : Prop :=
  x.Asks .keepAlive serviceName ∧ x.1.2.port = port ∧ x.Answered .success

instance (x : Exchange) (serviceName : Str) (port : UInt16) :
    Decidable (x.Refreshes serviceName port) :=
  inferInstanceAs (Decidable ((_ = _ ∧ _ = _) ∧ _ = _ ∧ _ = _))

/-- The exchange treats `port` as held by `serviceName`. -/
structure Honours (x : Exchange) (serviceName : Str) (port : UInt16) : Prop where
  lookup : x.Asks .lookupPort serviceName → x.AnsweredPort .success port
  keepAlive : x.Asks .keepAlive serviceName → x.1.2.port = port → x.Answered .success
  request : x.Asks .requestPort serviceName → x.AnsweredPort .serviceInUse port
  exclusive : x.1.2.msgType = .requestPort → ¬ x.AnsweredPort .success port

theorem honours_request {x : Exchange} {serviceName : Str} {port : UInt16}
    (type : x.1.2.msgType = .requestPort)
    (request : x.1.2.serviceName = serviceName → x.AnsweredPort .serviceInUse port)
    (exclusive : ¬ x.AnsweredPort .success port) : x.Honours serviceName port :=
  ⟨fun h => (nomatch type.symm.trans h.1), fun h => (nomatch type.symm.trans h.1),
    fun h => request h.2, fun _ => exclusive⟩

theorem honours_keepAlive {x : Exchange} {serviceName : Str} {port : UInt16}
    (type : x.1.2.msgType = .keepAlive)
    (keepAlive : x.1.2.serviceName = serviceName → x.1.2.port = port → x.Answered .success) :
    x.Honours serviceName port :=
  ⟨fun h => (nomatch type.symm.trans h.1), fun h => keepAlive h.2,
    fun h => (nomatch type.symm.trans h.1), fun h => (nomatch type.symm.trans h)⟩

theorem honours_lookup {x : Exchange} {serviceName : Str} {port : UInt16}
    (type : x.1.2.msgType = .lookupPort)
    (lookup : x.1.2.serviceName = serviceName → x.AnsweredPort .success port) :
    x.Honours serviceName port :=
  ⟨fun h => lookup h.2, fun h => (nomatch type.symm.trans h.1),
    fun h => (nomatch type.symm.trans h.1), fun h => (nomatch type.symm.trans h)⟩

structure Unknown (x : Exchange) (serviceName : Str) : Prop where
  lookup : x.Asks .lookupPort serviceName → x.Answered .serviceNotFound
  keepAlive : x.Asks .keepAlive serviceName → x.Answered .serviceNotFound

/-- A message that neither asks for a port nor about one. -/
def Silent (x : Exchange) : Prop :=
  x.1.2.msgType ≠ .requestPort ∧ x.1.2.msgType ≠ .keepAlive ∧ x.1.2.msgType ≠ .lookupPort

theorem Silent.honours {x : Exchange} (h : x.Silent) (serviceName : Str) (port : UInt16) :
    x.Honours serviceName port :=
  ⟨fun h' => absurd h'.1 h.2.2, fun h' => absurd h'.1 h.2.1, fun h' => absurd h'.1 h.1,
    fun h' => absurd h' h.1⟩

theorem Silent.unknown {x : Exchange} (h : x.Silent) (serviceName : Str) :
    x.Unknown serviceName :=
  ⟨fun h' => absurd h'.1 h.2.2, fun h' => absurd h'.1 h.2.1⟩

theorem silent_of_ignored {x : Exchange}
    (h : x.1.2.msgType = .response ∨ ∃ value, x.1.2.msgType = .unnamed value) : x.Silent := by
  rcases h with h | ⟨value, h⟩ <;> simp [Silent, h]

end Exchange

/-- The service is unknown until it is granted a port. -/
def Lapsed (serviceName : Str) : List Exchange → Prop
  | [] => True
  | x :: rest => x.Unknown serviceName ∧
      (¬ (x.Asks .requestPort serviceName ∧ x.Answered .success) → Lapsed serviceName rest)

/-- The lease is honoured while it is refreshed in time and has lapsed afterwards. -/
def LeaseKept (timeout : ℤ) (serviceName : Str) (port : UInt16) :
    DateTime → List Exchange → Prop
  | _, [] => True
  | lastRefresh, x :: rest =>
    if timeout * DateTime.ticksPerSecond < (x.1.1 : ℤ) - (lastRefresh : ℤ) then
      Lapsed serviceName (x :: rest)
    else x.Honours serviceName port ∧ LeaseKept timeout serviceName port
      (if x.Refreshes serviceName port then x.1.1 else lastRefresh) rest

/-- `serviceName` holds `port` and was last alive at `lastRefresh`. -/
def HeldBy (prs : PRS) (serviceName : Str) (port : UInt16) (lastRefresh : DateTime) : Prop :=
  ∃ (i : ℕ) (r : PortReservation), prs.ports[i]? = some r ∧ r.available = false ∧
    r.serviceName = serviceName ∧ r.port = port ∧ r.lastAlive = lastRefresh

theorem held_of_name {serviceName : Str} (hs : serviceName ≠ []) {r : PortReservation}
    (hname : r.serviceName = serviceName) : r.available = false := by
  cases ha : r.available with
  | false => rfl
  | true => exact absurd (hname.symm.trans (r.free ha).1) hs

/-- While a port is held, every message is answered accordingly. -/
theorem Change.honours {prs prs' : PRS} {now lastRefresh : DateTime} {msg : PRSMessage}
    {reply : Option PRSMessage} {serviceName : Str} {port : UInt16}
    (hc : Change prs now msg reply prs') (hinv : prs.Inv now) (hs : serviceName ≠ [])
    (held : prs.HeldBy serviceName port lastRefresh) :
    Exchange.Honours ((now, msg), reply) serviceName port := by
  obtain ⟨i, r, hr, ha, hname, hport, -⟩ := held
  have hmem := List.mem_of_getElem? hr
  have hfirst : prs.FirstAt port i r := hport ▸ hinv.firstAt hr
  have same : ∀ r' ∈ prs.ports, r'.available = false → r'.serviceName = serviceName →
      r'.port = port := by
    intro r' hmem' ha' hname'
    obtain ⟨j, hj⟩ := List.mem_iff_getElem?.mp hmem'
    obtain rfl := hinv.unique i j r r' hr hj ha ha' (hname.trans hname'.symm)
    rw [← Option.some.inj (hr.symm.trans hj), hport]
  cases hc with
  | granted j r' type fresh entry free lowest =>
    apply Exchange.honours_request type
    · intro h
      exact absurd (hname.trans h.symm) (fresh r hmem ha)
    · intro h
      simp only [Exchange.AnsweredPort, Option.map_some, Option.some.injEq, response,
        Prod.mk.injEq, true_and] at h
      rw [(hinv.port_injective hr entry (hport.trans h.symm)).2, free] at ha
      cases ha
  | inUse r' type mem held' name =>
    apply Exchange.honours_request type
    · intro h
      rw [← same r' mem held' (name.trans h)]
      rfl
    · intro h
      simp [Exchange.AnsweredPort, response] at h
  | busy type fresh full =>
    apply Exchange.honours_request type
    · intro h
      exact absurd (hname.trans h.symm) (fresh r hmem ha)
    · intro h
      simp [Exchange.AnsweredPort, response] at h
  | refreshed j r' type at_port held' name => exact Exchange.honours_keepAlive type fun _ _ => rfl
  | notRefreshed type other =>
    apply Exchange.honours_keepAlive type
    intro hn hp
    exact absurd (hname.trans hn.symm) (other i r (hp ▸ hfirst) ha)
  | found j r' type entry name first =>
    apply Exchange.honours_lookup type
    intro hn
    have hname' : r'.serviceName = serviceName := name.trans hn
    rw [← same r' (List.mem_of_getElem? entry) (held_of_name hs hname') hname']
    rfl
  | notFound type absent =>
    exact Exchange.honours_lookup type fun hn => absurd (hname.trans hn.symm) (absent r hmem)
  | released _ _ type | notReleased type | stop type =>
    apply Exchange.Silent.honours
    simp [Exchange.Silent, type]
  | ignored type => exact (Exchange.silent_of_ignored type).honours serviceName port

/-- Only the owner's own keep-alive moves the last refresh, and only a request to
    close the port ends the reservation. -/
theorem Change.keeps {prs prs' : PRS} {now lastRefresh : DateTime} {msg : PRSMessage}
    {reply : Option PRSMessage} {serviceName : Str} {port : UInt16}
    (hc : Change prs now msg reply prs') (hinv : prs.Inv now)
    (held : prs.HeldBy serviceName port lastRefresh)
    (hclose : ¬ (msg.msgType = .closePort ∧ msg.port = port)) :
    prs'.HeldBy serviceName port
      (if Exchange.Refreshes ((now, msg), reply) serviceName port then now else lastRefresh) := by
  obtain ⟨i, r, hr, ha, hname, hport, halive⟩ := held
  have hfirst : prs.FirstAt port i r := hport ▸ hinv.firstAt hr
  have keep : ¬ Exchange.Refreshes ((now, msg), reply) serviceName port →
      prs'.ports[i]? = some r → prs'.HeldBy serviceName port
        (if Exchange.Refreshes ((now, msg), reply) serviceName port then now
          else lastRefresh) := by
    intro hno hr'
    rw [if_neg hno]
    exact ⟨i, r, hr', ha, hname, hport, halive⟩
  cases hc with
  | granted j r' type fresh entry free lowest =>
    refine keep (fun h => nomatch type.symm.trans h.1.1) (update_entry_ne _ hr ?_)
    rintro rfl
    rw [Option.some.inj (hr.symm.trans entry), free] at ha
    cases ha
  | refreshed j r' type at_port held' name =>
    by_cases hj : i = j
    · subst hj
      obtain rfl := Option.some.inj (hr.symm.trans at_port.entry)
      rw [if_pos ⟨⟨type, name.symm.trans hname⟩, at_port.port_eq.symm.trans hport, rfl⟩]
      refine ⟨i, r.keepAlive now, update_entry_eq _ hr, ?_, ?_, ?_,
        PortReservation.keepAlive_lastAlive now ha⟩
      · rw [PortReservation.keepAlive_available, ha]
      · rw [PortReservation.keepAlive_serviceName, hname]
      · rw [PortReservation.keepAlive_port, hport]
    · refine keep (fun h => ?_) (update_entry_ne _ hr hj)
      have hp : msg.port = port := h.2.1
      exact hj (firstAt_unique hfirst (hp ▸ at_port)).1
  | released j r' type at_port held' nonzero =>
    refine keep (fun h => nomatch type.symm.trans h.1.1) (update_entry_ne _ hr ?_)
    rintro rfl
    rw [← Option.some.inj (hr.symm.trans at_port.entry)] at at_port
    exact hclose ⟨type, at_port.port_eq.symm.trans hport⟩
  | notRefreshed type other => exact keep (fun h => nomatch h.2.2) hr
  | inUse _ type | busy type | found _ _ type | notFound type | notReleased type | stop type =>
    exact keep (fun h => nomatch type.symm.trans h.1.1) hr
  | ignored type => exact keep (fun h => nomatch h.2.2) hr

/-- Once no reservation is held under the name, nobody finds the service, and only
    a grant changes that. -/
theorem Change.unknown {prs prs' : PRS} {now : DateTime} {msg : PRSMessage}
    {reply : Option PRSMessage} {serviceName : Str} (hc : Change prs now msg reply prs')
    (hs : serviceName ≠ []) (hno : prs.NotHeld serviceName) :
    Exchange.Unknown ((now, msg), reply) serviceName ∧
    (¬ (Exchange.Asks ((now, msg), reply) .requestPort serviceName ∧
      Exchange.Answered ((now, msg), reply) .success) → prs'.NotHeld serviceName) := by
  have changed {i : ℕ} {f : PortReservation → PortReservation}
      (hf : ∀ r, prs.ports[i]? = some r → (f r).available = false →
        (f r).serviceName ≠ serviceName) : (prs.update i f).NotHeld serviceName := by
    intro r hr ha
    obtain ⟨j, hj⟩ := List.mem_iff_getElem?.mp hr
    rcases update_entry hj with ⟨r₀, hr₀, ⟨rfl, rfl⟩ | ⟨-, rfl⟩⟩
    · exact hf r₀ hr₀ ha
    · exact hno r (List.mem_of_getElem? hr₀) ha
  cases hc with
  | granted i r type fresh entry free lowest =>
    refine ⟨⟨fun h => (nomatch type.symm.trans h.1), fun h => (nomatch type.symm.trans h.1)⟩,
      fun h => changed fun r' hr' _ hname => h ⟨⟨type, ?_⟩, rfl⟩⟩
    obtain rfl := Option.some.inj (hr'.symm.trans entry)
    exact (PortReservation.reserve_of_available _ now free).2.2.1.symm.trans hname
  | refreshed i r type at_port held name =>
    refine ⟨⟨fun h => (nomatch type.symm.trans h.1), fun h => ?_⟩,
      fun _ => changed fun r' hr' ha => ?_⟩
    · exact absurd (name.trans h.2) (hno r (List.mem_of_getElem? at_port.entry) held)
    · rw [PortReservation.keepAlive_available] at ha
      rw [PortReservation.keepAlive_serviceName]
      exact hno r' (List.mem_of_getElem? hr') ha
  | notRefreshed type other =>
    exact ⟨⟨fun h => (nomatch type.symm.trans h.1), fun _ => rfl⟩, fun _ => hno⟩
  | released i r type at_port held nonzero =>
    exact ⟨⟨fun h => (nomatch type.symm.trans h.1), fun h => (nomatch type.symm.trans h.1)⟩,
      fun _ => changed fun r' hr' ha => nomatch ha⟩
  | found i r type entry name first =>
    refine ⟨⟨fun h => ?_, fun h => (nomatch type.symm.trans h.1)⟩, fun _ => hno⟩
    have hname : r.serviceName = serviceName := name.trans h.2
    exact absurd hname (hno r (List.mem_of_getElem? entry) (held_of_name hs hname))
  | notFound type absent =>
    exact ⟨⟨fun _ => rfl, fun h => (nomatch type.symm.trans h.1)⟩, fun _ => hno⟩
  | inUse _ type | busy type | notReleased type | stop type =>
    exact ⟨⟨fun h => (nomatch type.symm.trans h.1), fun h => (nomatch type.symm.trans h.1)⟩,
      fun _ => hno⟩
  | ignored type => exact ⟨(Exchange.silent_of_ignored type).unknown serviceName, fun _ => hno⟩

theorem NotHeld.swept {prs : PRS} {serviceName : Str} (h : prs.NotHeld serviceName)
    (now : DateTime) : (prs.checkForExpiredPorts now).NotHeld serviceName :=
  swept_notHeld_iff.mpr fun r hr hl => h r hr hl.1

theorem lapsed_of_not_held {prs : PRS} {serviceName : Str} (hs : serviceName ≠ [])
    (h : prs.NotHeld serviceName) (run : List Input) :
    Lapsed serviceName (Machine.trace step prs run) := by
  induction run generalizing prs with
  | nil => trivial
  | cons x run ih =>
    obtain ⟨hunknown, hnext⟩ :=
      (handleMessage_change prs x.1 x.2).unknown hs (h.swept x.1)
    exact ⟨hunknown, fun hno => ih (hnext hno)⟩

/-- When the lease has run out, the sweep of the next message removes it. -/
theorem not_held_of_expired {prs : PRS} {t now lastRefresh : DateTime} {serviceName : Str}
    {port : UInt16} (hinv : prs.Inv t) (held : prs.HeldBy serviceName port lastRefresh)
    (hlate : prs.keepAliveTimeout * DateTime.ticksPerSecond < (now : ℤ) - (lastRefresh : ℤ)) :
    (prs.checkForExpiredPorts now).NotHeld serviceName := by
  obtain ⟨i, r, hr, ha, hname, -, rfl⟩ := held
  refine swept_notHeld_iff.mpr fun r' hr' hlive hname' => ?_
  obtain ⟨j, hj⟩ := List.mem_iff_getElem?.mp hr'
  obtain rfl := hinv.unique i j r r' hr hj ha hlive.1 (hname.trans hname'.symm)
  obtain rfl := Option.some.inj (hr.symm.trans hj)
  rw [PortReservation.Live, (PortReservation.expired_iff _ _ _).mpr hlate] at hlive
  exact nomatch hlive.2

theorem HeldBy.swept {prs : PRS} {now lastRefresh : DateTime} {serviceName : Str}
    {port : UInt16} (held : prs.HeldBy serviceName port lastRefresh)
    (hlate : ¬ prs.keepAliveTimeout * DateTime.ticksPerSecond < (now : ℤ) - (lastRefresh : ℤ)) :
    (prs.checkForExpiredPorts now).HeldBy serviceName port lastRefresh := by
  obtain ⟨i, r, hr, ha, hname, hport, rfl⟩ := held
  have hlive : r.Live prs.keepAliveTimeout now :=
    ⟨ha, Bool.eq_false_iff.mpr fun h => hlate ((PortReservation.expired_iff _ _ _).mp h)⟩
  exact ⟨i, r, live_entry hr hlive, ha, hname, hport, rfl⟩

theorem Change.timeout {prs prs' : PRS} {now : DateTime} {msg : PRSMessage}
    {reply : Option PRSMessage} (hc : Change prs now msg reply prs') :
    prs'.keepAliveTimeout = prs.keepAliveTimeout := by
  cases hc <;> rfl

theorem leaseKept_of_held {prs : PRS} {t lastRefresh : DateTime} {serviceName : Str}
    {port : UInt16} (hinv : prs.Inv t) (hs : serviceName ≠ [])
    (held : prs.HeldBy serviceName port lastRefresh) {run : List Input}
    (hclock : Clock.From Prod.fst t run)
    (hclose : ∀ y ∈ Machine.trace step prs run,
      ¬ (y.1.2.msgType = .closePort ∧ y.1.2.port = port)) :
    LeaseKept prs.keepAliveTimeout serviceName port lastRefresh
      (Machine.trace step prs run) := by
  induction run generalizing prs t lastRefresh with
  | nil => trivial
  | cons x run ih =>
    obtain ⟨ht, hrest⟩ := Clock.from_cons.mp hclock
    have hc := handleMessage_change prs x.1 x.2
    rw [Machine.trace, LeaseKept]
    by_cases hlate : prs.keepAliveTimeout * DateTime.ticksPerSecond <
        (x.1 : ℤ) - (lastRefresh : ℤ)
    · rw [if_pos hlate]
      obtain ⟨hunknown, hnext⟩ := hc.unknown hs (not_held_of_expired hinv held hlate)
      exact ⟨hunknown, fun hno => lapsed_of_not_held hs (hnext hno) run⟩
    · rw [if_neg hlate]
      have hswept := held.swept hlate
      have hinv' := hinv.checkForExpiredPorts ht
      refine ⟨hc.honours hinv' hs hswept, ?_⟩
      have hkept := hc.keeps hinv' hswept (hclose _ List.mem_cons_self)
      have htail := ih (hinv.handleMessage ht x.2) hkept hrest
        fun y hy => hclose y (List.mem_cons_of_mem _ hy)
      rw [hc.timeout] at htail
      exact htail

theorem Change.granted_held {prs prs' : PRS} {now : DateTime} {msg : PRSMessage}
    {reply : Option PRSMessage} {serviceName : Str} {port : UInt16}
    (hc : Change prs now msg reply prs')
    (hasks : Exchange.Asks ((now, msg), reply) .requestPort serviceName)
    (hanswer : Exchange.AnsweredPort ((now, msg), reply) .success port) :
    prs'.HeldBy serviceName port now := by
  obtain ⟨type, rfl⟩ := hasks
  cases hc with
  | granted i r _ fresh entry free lowest =>
    obtain ⟨hport, ha, hname, halive⟩ :=
      PortReservation.reserve_of_available msg.serviceName now free
    simp only [Exchange.AnsweredPort, Option.map_some, Option.some.injEq, response,
      Prod.mk.injEq, true_and] at hanswer
    exact ⟨i, r.reserve msg.serviceName now, update_entry_eq _ entry, ha, hname,
      hport.trans hanswer, halive⟩
  | inUse | busy => simp [Exchange.AnsweredPort, response] at hanswer
  | refreshed _ _ other | notRefreshed other | released _ _ other | notReleased other
  | found _ _ other | notFound other | stop other => exact nomatch other.symm.trans type
  | ignored => cases hanswer

/-- The lease of every grant is kept, as long as nobody asks to close the port. -/
theorem lease {fuel : ℕ} {start ending : UInt16} {timeout : ℤ} {prs : PRS}
    (h : construct fuel start ending timeout = some prs) {run : List Input}
    (hclock : Clock.From Prod.fst 0 run) {before after : List Exchange} {x : Exchange}
    (hrun : Machine.trace step prs run = before ++ x :: after) {serviceName : Str}
    {port : UInt16} (hs : serviceName ≠ []) (hasks : x.Asks .requestPort serviceName)
    (hgrant : x.AnsweredPort .success port)
    (hclose : ∀ y ∈ after, ¬ (y.1.2.msgType = .closePort ∧ y.1.2.port = port)) :
    LeaseKept timeout serviceName port x.1.1 after := by
  obtain ⟨input, reply⟩ := x
  obtain ⟨js, ks, rfl, -, hreply, rfl⟩ := Machine.trace_split step hrun
  obtain ⟨t, ht, hreach, hrest⟩ := (Reachable.constructed h).final hclock
  generalize hprs : Machine.final step prs js = prs₁ at *
  have htimeout : prs₁.keepAliveTimeout = timeout := by
    rw [← hprs, ← (construct_spec h).2.2.1]
    exact Machine.final_invariant step (I := fun q => q.keepAliveTimeout = prs.keepAliveTimeout)
      (fun q y hq => ((handleMessage_change q y.1 y.2).timeout).trans hq) rfl js
  have hc := handleMessage_change prs₁ input.1 input.2
  obtain rfl : reply = (prs₁.handleMessage input.1 input.2).1 := hreply
  have held := hc.granted_held hasks hgrant
  have hkept := leaseKept_of_held (hreach.inv.handleMessage ht input.2) hs held hrest hclose
  rw [hc.timeout] at hkept
  exact htimeout ▸ hkept

theorem lease_found_then_lapsed : LeaseKept 10 (lit "A") 40000 0
    [((100000000, ⟨.lookupPort, lit "A", 0, .success⟩),
      some ⟨.response, lit "A", 40000, .success⟩),
    ((100000001, ⟨.lookupPort, lit "A", 0, .success⟩),
      some ⟨.response, lit "A", 0, .serviceNotFound⟩)] :=
  @lease 2 40000 40000 10 ⟨40000, 40000, 10, [.new 40000], false⟩ (by decide)
    [(0, ⟨.requestPort, lit "A", 0, .success⟩), (100000000, ⟨.lookupPort, lit "A", 0, .success⟩),
      (100000001, ⟨.lookupPort, lit "A", 0, .success⟩)]
    (by simp [Clock.From]) [] _
    ((0, ⟨.requestPort, lit "A", 0, .success⟩), some ⟨.response, lit "A", 40000, .success⟩)
    (by decide) (lit "A") 40000 (by decide) ⟨rfl, rfl⟩ rfl (by decide)

end NetServices.PRS
