import NetServices.PRSIsolation

set_option autoImplicit false

/-!
# What a request and a lookup are answered

A reservation that is held and has not expired is live; all others are free by the
time a message is answered. A request is answered by the live reservations alone.
A lookup compares names only, and a free entry has the empty name.
-/
namespace NetServices.PRS
open Utf16 (Str lit)

/-- The reservation is live, and held under the name. -/
def LiveUnder (prs : PRS) (now : DateTime) (serviceName : Str) (r : PortReservation) : Prop :=
  r ∈ prs.ports ∧ r.Live prs.keepAliveTimeout now ∧ r.serviceName = serviceName

/-- The answer to `LOOKUP_PORT`: the port that is held under the name, if there is one.
    Nothing but expiry happens to the table. -/
structure LookupExact (prs : PRS) (now : DateTime) (serviceName : Str)
    (result : Option PRSMessage × PRS) : Prop where
  found : ∀ port, result.1 = some (response serviceName port .success) ↔
    ∃ r, prs.LiveUnder now serviceName r ∧ r.port = port
  notFound : (∀ r, ¬ prs.LiveUnder now serviceName r) →
    result.1 = some (response serviceName 0 .serviceNotFound)
  unchanged : result.2 = prs.checkForExpiredPorts now

/-- The answer to `REQUEST_PORT`, and what it leaves: the lowest port that nobody holds
    is held from now on, and every live reservation stays as it is. -/
structure RequestExact (prs : PRS) (now : DateTime) (serviceName : Str)
    (result : Option PRSMessage × PRS) : Prop where
  inUse : ∀ r, prs.LiveUnder now serviceName r →
    result.1 = some (response serviceName r.port .serviceInUse)
  granted : (∀ r, ¬ prs.LiveUnder now serviceName r) →
    (∃ r ∈ prs.ports, ¬ r.Live prs.keepAliveTimeout now) →
    ∃ (i : ℕ) (r r' : PortReservation), prs.ports[i]? = some r ∧
      ¬ r.Live prs.keepAliveTimeout now ∧
      (∀ other ∈ prs.ports, ¬ other.Live prs.keepAliveTimeout now → r.port ≤ other.port) ∧
      result.1 = some (response serviceName r.port .success) ∧ result.2.ports[i]? = some r' ∧
      r'.port = r.port ∧ r'.available = false ∧ r'.serviceName = serviceName ∧ r'.lastAlive = now
  busy : (∀ r, ¬ prs.LiveUnder now serviceName r) →
    (∀ r ∈ prs.ports, r.Live prs.keepAliveTimeout now) →
    result.1 = some (response serviceName 0 .allPortsBusy)
  kept : ∀ (i : ℕ) (r : PortReservation), prs.ports[i]? = some r →
    r.Live prs.keepAliveTimeout now → result.2.ports[i]? = some r

/-- The empty name is looked up only where the first entry that is not live under another
    name is itself live. -/
def FindsHeld (prs : PRS) (now : DateTime) (serviceName : Str) : Prop :=
  serviceName = [] → ∀ (i : ℕ) (r : PortReservation), prs.ports[i]? = some r →
    (r.Live prs.keepAliveTimeout now → r.serviceName = []) →
    (∀ j < i, ∀ r', prs.ports[j]? = some r' →
      r'.Live prs.keepAliveTimeout now ∧ r'.serviceName ≠ []) →
    r.Live prs.keepAliveTimeout now

theorem sweep_not_live {timeout : ℤ} {now : DateTime} {r : PortReservation}
    (h : ¬ r.Live timeout now) :
    (sweep timeout now r).available = true ∧ (sweep timeout now r).serviceName = [] := by
  have hfree : (sweep timeout now r).available = true := by
    by_contra hheld
    exact h (sweep_held (Bool.eq_false_iff.mpr hheld)).2
  exact ⟨hfree, ((sweep timeout now r).free hfree).1⟩

theorem sweep_serviceName_ne {timeout : ℤ} {now : DateTime} {r : PortReservation} {name : Str} :
    (sweep timeout now r).serviceName ≠ name ↔
      if r.Live timeout now then r.serviceName ≠ name else name ≠ [] := by
  split_ifs with h
  · rw [sweep_of_live h]
  · rw [(sweep_not_live h).2, ne_comm]

theorem entry_swept {prs : PRS} {now : DateTime} {i : ℕ} {r : PortReservation}
    (h : prs.ports[i]? = some r) :
    (prs.checkForExpiredPorts now).ports[i]? = some (sweep prs.keepAliveTimeout now r) := by
  rw [checkForExpiredPorts_ports, List.getElem?_map, h]
  rfl

theorem Inv.live_unique {prs : PRS} {t now : DateTime} (h : prs.Inv t) {serviceName : Str}
    {r r' : PortReservation} (hr : prs.LiveUnder now serviceName r)
    (hr' : prs.LiveUnder now serviceName r') : r = r' := by
  obtain ⟨hmem, hl, hname⟩ := hr
  obtain ⟨hmem', hl', hname'⟩ := hr'
  obtain ⟨i, hi⟩ := List.mem_iff_getElem?.mp hmem
  obtain ⟨j, hj⟩ := List.mem_iff_getElem?.mp hmem'
  obtain rfl := h.unique i j r r' hi hj hl.1 hl'.1 (hname.trans hname'.symm)
  exact Option.some.inj (hi.symm.trans hj)

section
variable {prs : PRS} {t now : DateTime} {msg : PRSMessage}

/-- A name that is found first on a live entry is found as it should be. -/
theorem lookup_found_live (hinv : prs.Inv t) {i : ℕ} {r : PortReservation}
    (hr : prs.ports[i]? = some r) (hl : r.Live prs.keepAliveTimeout now) {serviceName : Str}
    (hname : r.serviceName = serviceName) : LookupExact prs now serviceName
      (some (response serviceName r.port .success), prs.checkForExpiredPorts now) where
  found port := by
    have hlive : prs.LiveUnder now serviceName r := ⟨List.mem_of_getElem? hr, hl, hname⟩
    constructor
    · intro h
      exact ⟨r, hlive, (PRSMessage.mk.inj (Option.some.inj h)).2.2.1⟩
    · rintro ⟨r', hr', rfl⟩
      rw [hinv.live_unique hr' hlive]
  notFound hno := absurd ⟨List.mem_of_getElem? hr, hl, hname⟩ (hno r)
  unchanged := rfl

theorem lookup_not_found {serviceName : Str}
    (habsent : ∀ r ∈ (prs.checkForExpiredPorts now).ports, r.serviceName ≠ serviceName) :
    LookupExact prs now serviceName
      (some (response serviceName 0 .serviceNotFound), prs.checkForExpiredPorts now) where
  found port := by
    constructor
    · intro h
      exact nomatch (PRSMessage.mk.inj (Option.some.inj h)).2.2.2
    · rintro ⟨r, ⟨hmem, hl, hname⟩, -⟩
      have hswept := habsent _ (mem_swept hmem)
      rw [sweep_of_live hl] at hswept
      exact absurd hname hswept
  notFound _ := rfl
  unchanged := rfl

/-- A lookup is answered exactly by the live reservations, unless it asks for the empty
    name and comes to a free entry first. -/
theorem lookup_exact_iff (h : Reachable prs t) (type : msg.msgType = .lookupPort) :
    LookupExact prs now msg.serviceName (prs.handleMessage now msg) ↔
      prs.FindsHeld now msg.serviceName := by
  have hc := handleMessage_change prs now msg
  revert hc
  generalize prs.handleMessage now msg = result
  obtain ⟨reply, prs'⟩ := result
  intro hc
  cases hc with
  | found i r _ entry name first =>
    obtain ⟨r₀, hr₀, rfl⟩ := swept_entry entry
    have hbefore : ∀ j < i, ∀ r', prs.ports[j]? = some r' →
        if r'.Live prs.keepAliveTimeout now then r'.serviceName ≠ msg.serviceName
        else msg.serviceName ≠ [] :=
      fun j hj r' hr' => sweep_serviceName_ne.mp (first j hj _ (entry_swept hr'))
    by_cases hl : r₀.Live prs.keepAliveTimeout now
    · rw [sweep_of_live hl] at name ⊢
      refine iff_of_true (lookup_found_live h.inv hr₀ hl name) ?_
      intro hempty k r' hr' hr'name hother
      -- both entries are the first that carries the empty name
      rcases lt_trichotomy k i with hlt | rfl | hlt
      · have hne := hbefore k hlt r' hr'
        by_cases hl' : r'.Live prs.keepAliveTimeout now
        · exact hl'
        · rw [if_neg hl'] at hne
          exact absurd hempty hne
      · rw [Option.some.inj (hr'.symm.trans hr₀)]
        exact hl
      · exact absurd (name.trans hempty) (hother i hlt r₀ hr₀).2
    · have hempty : msg.serviceName = [] := name.symm.trans (sweep_not_live hl).2
      refine iff_of_false (fun hexact => hl ?_) fun hfinds => hl ?_
      · obtain ⟨r, ⟨hmem, hlive, -⟩, hport⟩ := (hexact.found _).mp rfl
        obtain ⟨k, hk⟩ := List.mem_iff_getElem?.mp hmem
        rw [sweep_port] at hport
        obtain ⟨-, rfl⟩ := h.inv.port_injective hk hr₀ hport
        exact hlive
      · refine hfinds hempty i r₀ hr₀ (fun hlive => absurd hlive hl) fun j hj r' hr' => ?_
        have hne := hbefore j hj r' hr'
        rw [hempty] at hne
        by_cases hl' : r'.Live prs.keepAliveTimeout now
        · rw [if_pos hl'] at hne
          exact ⟨hl', hne⟩
        · rw [if_neg hl'] at hne
          exact absurd rfl hne
  | notFound _ absent =>
    refine iff_of_true (lookup_not_found absent) fun hempty i r hr hname _ => ?_
    have hne := sweep_serviceName_ne.mp (absent _ (mem_swept (List.mem_of_getElem? hr)))
    by_cases hl : r.Live prs.keepAliveTimeout now
    · exact hl
    · rw [if_neg hl] at hne
      exact absurd hempty hne
  | granted _ _ other | inUse _ other | busy other | refreshed _ _ other | notRefreshed other
  | released _ _ other | notReleased other | stop other =>
    rw [type] at other
    cases other
  | ignored other =>
    rw [type] at other
    rcases other with other | ⟨value, other⟩ <;> cases other

theorem lookup_exact_iff_held :
    LookupExact oneHeld 0 (lit "A")
        (oneHeld.handleMessage 0 ⟨.lookupPort, lit "A", 0, .success⟩) ↔
      oneHeld.FindsHeld 0 (lit "A") :=
  lookup_exact_iff oneHeld_reachable
    (show PRSMessage.msgType ⟨.lookupPort, lit "A", 0, .success⟩ = .lookupPort from rfl)

/-- The port of a table that nobody has asked for anything is found under the empty name. -/
theorem empty_name_found : ¬ ∀ (prs : PRS) (t now : DateTime) (msg : PRSMessage),
    Reachable prs t → t ≤ now → msg.msgType = .lookupPort →
      LookupExact prs now msg.serviceName (prs.handleMessage now msg) := by
  intro h
  have hnew : construct 2 40000 40000 10 = some ⟨40000, 40000, 10, [.new 40000], false⟩ := by
    decide
  have hexact := h _ 0 0 ⟨.lookupPort, [], 0, .success⟩ (.constructed hnew) le_rfl rfl
  obtain ⟨r, ⟨hmem, hlive, -⟩, -⟩ := (hexact.found 40000).mp (by decide)
  rw [List.eq_of_mem_singleton hmem] at hlive
  exact absurd hlive.1 (by decide)

/-- The lowest of the entries that nobody holds is granted. -/
theorem request_granted (hinv : prs.Inv t) {serviceName : Str}
    (fresh : (prs.checkForExpiredPorts now).NotHeld serviceName) {i : ℕ} {r : PortReservation}
    (hr : prs.ports[i]? = some r)
    (free : (sweep prs.keepAliveTimeout now r).available = true)
    (lowest : ∀ j < i, ∀ r', (prs.checkForExpiredPorts now).ports[j]? = some r' →
      r'.available = false) :
    RequestExact prs now serviceName (some (response serviceName r.port .success),
      (prs.checkForExpiredPorts now).update i (·.reserve serviceName now)) where
  inUse r' h := by
    obtain ⟨hmem, hl, hname⟩ := h
    exact absurd hname (swept_notHeld_iff.mp fresh r' hmem hl)
  granted _ _ := by
    have hfree : ¬ r.Live prs.keepAliveTimeout now := fun hl =>
      Bool.false_ne_true ((sweep_available.mpr hl).symm.trans free)
    obtain ⟨hport, hheld, hname, halive⟩ :=
      PortReservation.reserve_of_available serviceName now free
    rw [sweep_port] at hport
    refine ⟨i, r, _, hr, hfree, fun other hmem hother => ?_, rfl,
      update_entry_eq _ (entry_swept hr), hport, hheld, hname, halive⟩
    obtain ⟨j, hj⟩ := List.mem_iff_getElem?.mp hmem
    have hij : i ≤ j := by
      by_contra hlt
      exact hother (sweep_available.mp (lowest j (Nat.lt_of_not_le hlt) _ (entry_swept hj)))
    rw [UInt16.le_iff_toNat_le, hinv.port_toNat hr, hinv.port_toNat hj]
    exact Nat.add_le_add_left hij _
  busy _ hfull := absurd ((sweep_available.mpr (hfull r (List.mem_of_getElem? hr))).symm.trans free)
    Bool.false_ne_true
  kept j r' hr' hl := by
    refine update_entry_ne _ (live_entry hr' hl) ?_
    rintro rfl
    rw [← Option.some.inj (hr'.symm.trans hr), sweep_of_live hl, hl.1] at free
    cases free

/-- A request is answered by the live reservations, the lowest entry that is not one of
    them, and nothing else. -/
theorem request_exact (h : Reachable prs t) (type : msg.msgType = .requestPort) :
    RequestExact prs now msg.serviceName (prs.handleMessage now msg) := by
  have hc := handleMessage_change prs now msg
  revert hc
  generalize prs.handleMessage now msg = result
  obtain ⟨reply, prs'⟩ := result
  intro hc
  cases hc with
  | granted i r _ fresh entry free lowest =>
    obtain ⟨r₀, hr₀, rfl⟩ := swept_entry entry
    rw [sweep_port]
    exact request_granted h.inv fresh hr₀ free lowest
  | inUse r _ mem held name =>
    obtain ⟨hr, hl⟩ := (swept_mem_iff held).mp mem
    have hlive : prs.LiveUnder now msg.serviceName r := ⟨hr, hl, name⟩
    exact ⟨fun r' hr' => by rw [h.inv.live_unique hr' hlive], fun hno => absurd hlive (hno r),
      fun hno => absurd hlive (hno r), fun j r' hr' hl' => live_entry hr' hl'⟩
  | busy _ fresh full =>
    refine ⟨fun r hr => ?_, fun _ hfree => ?_, fun _ _ => rfl, fun j r hr hl => live_entry hr hl⟩
    · obtain ⟨hmem, hl, hname⟩ := hr
      exact absurd hname (swept_notHeld_iff.mp fresh r hmem hl)
    · obtain ⟨r, hr, free⟩ := swept_free_iff.mpr hfree
      exact absurd ((full r hr).symm.trans free) Bool.false_ne_true
  | found _ _ other | notFound other | refreshed _ _ other | notRefreshed other
  | released _ _ other | notReleased other | stop other =>
    rw [type] at other
    cases other
  | ignored other =>
    rw [type] at other
    rcases other with other | ⟨value, other⟩ <;> cases other

/-- The only port is held, and free again more than ten seconds later. -/
theorem request_exact_expired :
    RequestExact oneHeld 100000001 (lit "B")
      (oneHeld.handleMessage 100000001 ⟨.requestPort, lit "B", 0, .success⟩) :=
  request_exact oneHeld_reachable
    (show PRSMessage.msgType ⟨.requestPort, lit "B", 0, .success⟩ = .requestPort from rfl)

end

end NetServices.PRS
