import NetServices.Leases
import NetServices.PRSLease

set_option autoImplicit false

/-!
# The server as a registry of leases

What the server is for, without its array and its sweeps: ports are leased to
service names for the length of the timeout. Every message is answered from the
leases that are in force at its time, and a successful answer to a request, a
keep-alive or a close is all that changes them.
-/
namespace NetServices.PRS
open Utf16 (Str lit)
open Leases (Effect Lease Term lowest)

abbrev Registry := Leases.Registry UInt16 Str DateTime

/-- The ports that are given out, and how long a lease lasts without a refresh. -/
structure Offer where
  startingClientPort : UInt16
  endingClientPort : UInt16
  keepAliveTimeout : ℤ

def Offer.Has (offer : Offer) (port : UInt16) : Prop :=
  offer.startingClientPort.toNat ≤ port.toNat ∧ port.toNat ≤ offer.endingClientPort.toNat

/-- A lease lasts as long as it is refreshed within the timeout. -/
def Offer.term (offer : Offer) : Term DateTime where
  Over refreshed now :=
    offer.keepAliveTimeout * DateTime.ticksPerSecond < (now : ℤ) - (refreshed : ℤ)
  stays h hover := by
    have hlater := Int.ofNat_le.mpr h
    omega
  earlier h hover := by
    have hbefore := Int.ofNat_le.mpr h
    omega

def rank : UInt16 ↪ ℕ where
  toFun := UInt16.toNat
  inj' _ _ := UInt16.toNat.inj

/-- What the answer to a message makes of the port that it is about. -/
def Exchange.effect (x : Exchange) : Option (Effect UInt16 Str) :=
  match x.1.2.msgType, x.2 with
  | .requestPort, some ⟨_, _, port, .success⟩ => some ⟨port, some x.1.2.serviceName⟩
  | .keepAlive, some ⟨_, _, _, .success⟩ => some ⟨x.1.2.port, some x.1.2.serviceName⟩
  | .closePort, some ⟨_, _, _, .success⟩ => some ⟨x.1.2.port, none⟩
  | _, _ => none

section
variable (offer : Offer) (reg : Registry) (now : DateTime)

/-- The ports that the server offers and nobody has leased. -/
def Offer.free : Set UInt16 := {port | offer.Has port ∧ reg.Free offer.term now port}

/-- The ports that a lookup finds under a name. Whoever looks up the empty name finds those
    that are free as well. -/
def Offer.known (serviceName : Str) : Set UInt16 :=
  {port | reg.OwnedBy offer.term now port serviceName ∨
    serviceName = [] ∧ port ∈ offer.free reg now}

open Classical in
noncomputable def Offer.answer (msg : PRSMessage) : Option PRSMessage :=
  match msg.msgType with
  | .requestPort =>
    match lowest rank {port | reg.OwnedBy offer.term now port msg.serviceName} with
    | some port => some (response msg.serviceName port .serviceInUse)
    | none =>
      match lowest rank (offer.free reg now) with
      | some port => some (response msg.serviceName port .success)
      | none => some (response msg.serviceName 0 .allPortsBusy)
  | .keepAlive => some (response msg.serviceName msg.port
      (if reg.OwnedBy offer.term now msg.port msg.serviceName then .success else .serviceNotFound))
  | .closePort => some (response msg.serviceName msg.port
      (if msg.port ≠ 0 ∧ ¬ reg.Free offer.term now msg.port then .success else .serviceNotFound))
  | .lookupPort =>
    match lowest rank (offer.known reg now msg.serviceName) with
    | some port => some (response msg.serviceName port .success)
    | none => some (response msg.serviceName 0 .serviceNotFound)
  | .stop => some (response msg.serviceName 0 .success)
  | .response | .unnamed _ => none

noncomputable def Offer.step (x : Input) : Option PRSMessage × Registry :=
  let reply := offer.answer reg x.1 x.2
  (reply, reg.apply x.1 (Exchange.effect (x, reply)))

end

/-- The lease that a reservation stands for, in force or not. -/
def leaseOf (r : PortReservation) : Option (Lease Str DateTime) :=
  if r.available then none else some ⟨r.serviceName, r.lastAlive⟩

def leases (prs : PRS) : Registry := fun port =>
  (prs.ports.find? (·.port == port)).bind leaseOf

def offer (prs : PRS) : Offer :=
  ⟨prs.startingClientPort, prs.endingClientPort, prs.keepAliveTimeout⟩

theorem leaseOf_eq_some_iff {r : PortReservation} {l : Lease Str DateTime} :
    leaseOf r = some l ↔ r.available = false ∧ l = ⟨r.serviceName, r.lastAlive⟩ := by
  unfold leaseOf
  cases r.available <;> simp [eq_comm]

theorem live_iff {prs : PRS} {now : DateTime} {r : PortReservation} :
    r.Live prs.keepAliveTimeout now ↔
      r.available = false ∧ ¬ prs.offer.term.Over r.lastAlive now := by
  rw [PortReservation.Live, ← Bool.not_eq_true, ← Bool.not_eq_true,
    PortReservation.expired_iff]
  exact Iff.rfl

section
variable {prs : PRS} {t now : DateTime}

theorem leases_absent {port : UInt16} (h : ∀ r ∈ prs.ports, r.port ≠ port) :
    prs.leases port = none := by
  rw [leases, List.find?_eq_none.mpr fun r hr => ?_]
  · rfl
  · rw [beq_iff_eq]
    exact h r hr

theorem Inv.leases_entry (h : prs.Inv t) {i : ℕ} {r : PortReservation}
    (hr : prs.ports[i]? = some r) : prs.leases r.port = leaseOf r := by
  cases hfind : prs.ports.find? (·.port == r.port) with
  | none =>
    have hno := List.find?_eq_none.mp hfind r (List.mem_of_getElem? hr)
    exact absurd (beq_self_eq_true _) hno
  | some r' =>
    obtain ⟨j, hj⟩ := List.mem_iff_getElem?.mp (List.mem_of_find?_eq_some hfind)
    obtain ⟨-, rfl⟩ := h.port_injective hj hr (beq_iff_eq.mp (List.find?_some hfind :))
    rw [leases, hfind]
    rfl

theorem Inv.leases_eq_some_iff (h : prs.Inv t) {port : UInt16} {l : Lease Str DateTime} :
    prs.leases port = some l ↔ ∃ r ∈ prs.ports, r.port = port ∧ leaseOf r = some l := by
  constructor
  · intro hl
    have hentry : ∃ r ∈ prs.ports, r.port = port := by
      by_contra hno
      rw [leases_absent fun r hr hport => hno ⟨r, hr, hport⟩] at hl
      cases hl
    obtain ⟨r, hr, rfl⟩ := hentry
    obtain ⟨i, hi⟩ := List.mem_iff_getElem?.mp hr
    exact ⟨r, hr, rfl, (h.leases_entry hi).symm.trans hl⟩
  · rintro ⟨r, hr, rfl, hl⟩
    obtain ⟨i, hi⟩ := List.mem_iff_getElem?.mp hr
    exact (h.leases_entry hi).trans hl

/-- The leases in force are the live reservations. -/
theorem Inv.inForce_iff (h : prs.Inv t) {port : UInt16} {l : Lease Str DateTime} :
    prs.leases.InForce prs.offer.term now port l ↔
      ∃ r ∈ prs.ports, r.Live prs.keepAliveTimeout now ∧ r.port = port ∧
        l = ⟨r.serviceName, r.lastAlive⟩ := by
  rw [Leases.Registry.InForce, h.leases_eq_some_iff]
  simp only [leaseOf_eq_some_iff, live_iff]
  constructor
  · rintro ⟨⟨r, hr, hport, held, rfl⟩, hover⟩
    exact ⟨r, hr, ⟨held, hover⟩, hport, rfl⟩
  · rintro ⟨r, hr, ⟨held, hover⟩, hport, rfl⟩
    exact ⟨⟨r, hr, hport, held, rfl⟩, hover⟩

/-- A sweep takes no lease that is in force, now or later. -/
theorem Inv.sameFrom_swept (h : prs.Inv t) (ht : t ≤ now) :
    prs.leases.SameFrom prs.offer.term now (prs.checkForExpiredPorts now).leases := by
  intro later hlater port l
  have hswept : (prs.checkForExpiredPorts now).Inv now := h.checkForExpiredPorts ht
  rw [h.inForce_iff]
  refine Iff.trans ?_ hswept.inForce_iff.symm
  refine exists_congr fun r => ?_
  constructor
  · rintro ⟨hr, hlive, hrest⟩
    obtain ⟨held, hover⟩ := live_iff.mp hlive
    have hnow : r.Live prs.keepAliveTimeout now :=
      live_iff.mpr ⟨held, fun h => hover (prs.offer.term.stays hlater h)⟩
    exact ⟨(swept_mem_iff held).mpr ⟨hr, hnow⟩, hlive, hrest⟩
  · rintro ⟨hr, hlive, hrest⟩
    exact ⟨((swept_mem_iff hlive.1).mp hr).1, hlive, hrest⟩

theorem Inv.has_iff (h : prs.Inv t) {port : UInt16} :
    prs.offer.Has port ↔ ∃ r ∈ prs.ports, r.port = port := by
  constructor
  · rintro ⟨hstart, hend⟩
    have hsize := h.size
    have hlt : port.toNat - prs.startingClientPort.toNat < prs.ports.length := by
      change prs.startingClientPort.toNat ≤ port.toNat at hstart
      change port.toNat ≤ prs.endingClientPort.toNat at hend
      omega
    have hentry := List.getElem?_eq_getElem hlt
    refine ⟨_, List.getElem_mem hlt, UInt16.toNat.inj ?_⟩
    rw [h.port_toNat hentry]
    exact Nat.add_sub_cancel' hstart
  · rintro ⟨r, hr, rfl⟩
    obtain ⟨i, hi⟩ := List.mem_iff_getElem?.mp hr
    obtain ⟨hlt, -⟩ := List.getElem?_eq_some_iff.mp hi
    have hport := h.port_toNat hi
    have hsize := h.size
    constructor
    · change prs.startingClientPort.toNat ≤ _
      omega
    · change _ ≤ prs.endingClientPort.toNat
      omega

/-- The lowest port of a set of offered ports is the first one in the table. -/
theorem Inv.lowest_eq (h : prs.Inv t) {s : Set UInt16} (hs : ∀ port ∈ s, prs.offer.Has port)
    {i : ℕ} {r : PortReservation} (hr : prs.ports[i]? = some r) (hmem : r.port ∈ s)
    (hfirst : ∀ j < i, ∀ r', prs.ports[j]? = some r' → r'.port ∉ s) :
    lowest rank s = some r.port := by
  refine (Leases.lowest_eq_some_iff rank).mpr ⟨hmem, fun port hport => ?_⟩
  obtain ⟨r', hr', rfl⟩ := h.has_iff.mp (hs port hport)
  obtain ⟨j, hj⟩ := List.mem_iff_getElem?.mp hr'
  change r.port.toNat ≤ r'.port.toNat
  rw [h.port_toNat hr, h.port_toNat hj]
  have hle : i ≤ j := not_lt.mp fun hlt => hfirst j hlt r' hj hport
  omega

end

/-- A table from which the sweep at time `now` has nothing to remove. -/
structure Swept (prs : PRS) (now : DateTime) : Prop where
  inv : prs.Inv now
  live : ∀ r ∈ prs.ports, r.available = false → r.Live prs.keepAliveTimeout now

theorem Inv.swept {prs : PRS} {t now : DateTime} (h : prs.Inv t) (ht : t ≤ now) :
    (prs.checkForExpiredPorts now).Swept now where
  inv := h.checkForExpiredPorts ht
  live _ hr held := ((swept_mem_iff held).mp hr).2

namespace Swept

variable {prs prs' : PRS} {now : DateTime} {msg : PRSMessage} {reply : Option PRSMessage}

theorem ownedBy_iff (h : prs.Swept now) {port : UInt16} {serviceName : Str} :
    prs.leases.OwnedBy prs.offer.term now port serviceName ↔
      ∃ r ∈ prs.ports, r.available = false ∧ r.port = port ∧ r.serviceName = serviceName := by
  simp only [Leases.Registry.OwnedBy, h.inv.inForce_iff, Leases.Lease.mk.injEq]
  constructor
  · rintro ⟨refreshed, r, hr, hlive, hport, rfl, rfl⟩
    exact ⟨r, hr, hlive.1, hport, rfl⟩
  · rintro ⟨r, hr, held, hport, rfl⟩
    exact ⟨r.lastAlive, r, hr, h.live r hr held, hport, rfl, rfl⟩

theorem free_iff (h : prs.Swept now) {r : PortReservation} (hr : r ∈ prs.ports) :
    prs.leases.Free prs.offer.term now r.port ↔ r.available = true := by
  obtain ⟨i, hi⟩ := List.mem_iff_getElem?.mp hr
  constructor
  · intro hfree
    by_contra held
    exact hfree r.serviceName
      (h.ownedBy_iff.mpr ⟨r, hr, Bool.eq_false_iff.mpr held, rfl, rfl⟩)
  · intro free serviceName howned
    obtain ⟨r', hr', held, hport, -⟩ := h.ownedBy_iff.mp howned
    obtain ⟨j, hj⟩ := List.mem_iff_getElem?.mp hr'
    obtain ⟨-, rfl⟩ := h.inv.port_injective hj hi hport
    exact Bool.false_ne_true (held.symm.trans free)

theorem owned_has (h : prs.Swept now) {port : UInt16} {serviceName : Str}
    (howned : prs.leases.OwnedBy prs.offer.term now port serviceName) : prs.offer.Has port := by
  obtain ⟨r, hr, -, hport, -⟩ := h.ownedBy_iff.mp howned
  exact h.inv.has_iff.mpr ⟨r, hr, hport⟩

theorem mem_free_iff (h : prs.Swept now) {r : PortReservation} (hr : r ∈ prs.ports) :
    r.port ∈ prs.offer.free prs.leases now ↔ r.available = true := by
  rw [← h.free_iff hr]
  exact and_iff_right (h.inv.has_iff.mpr ⟨r, hr, rfl⟩)

theorem mem_known_iff (h : prs.Swept now) {r : PortReservation} (hr : r ∈ prs.ports)
    {serviceName : Str} : r.port ∈ prs.offer.known prs.leases now serviceName ↔
      r.serviceName = serviceName := by
  obtain ⟨i, hi⟩ := List.mem_iff_getElem?.mp hr
  constructor
  · rintro (howned | ⟨rfl, hfree⟩)
    · obtain ⟨r', hr', -, hport, hname⟩ := h.ownedBy_iff.mp howned
      obtain ⟨j, hj⟩ := List.mem_iff_getElem?.mp hr'
      obtain ⟨-, rfl⟩ := h.inv.port_injective hj hi hport
      exact hname
    · exact (r.free ((h.mem_free_iff hr).mp hfree)).1
  · intro hname
    cases ha : r.available with
    | false => exact .inl (h.ownedBy_iff.mpr ⟨r, hr, ha, rfl, hname⟩)
    | true => exact .inr ⟨hname.symm.trans (r.free ha).1, (h.mem_free_iff hr).mpr ha⟩

theorem known_has (h : prs.Swept now) {port : UInt16} {serviceName : Str}
    (hport : port ∈ prs.offer.known prs.leases now serviceName) : prs.offer.Has port := by
  rcases hport with howned | ⟨-, hfree⟩
  · exact h.owned_has howned
  · exact hfree.1

/-- The reservation at a port, if it is held, is the one that leases it. -/
theorem firstAt_ownedBy_iff (h : prs.Swept now) {port : UInt16} {i : ℕ} {r : PortReservation}
    (hr : prs.FirstAt port i r) {serviceName : Str} :
    prs.leases.OwnedBy prs.offer.term now port serviceName ↔
      r.available = false ∧ r.serviceName = serviceName := by
  rw [h.ownedBy_iff]
  constructor
  · rintro ⟨r', hr', held, hport, hname⟩
    obtain ⟨j, hj⟩ := List.mem_iff_getElem?.mp hr'
    obtain ⟨-, rfl⟩ := h.inv.port_injective hj hr.entry (hport.trans hr.port_eq.symm)
    exact ⟨held, hname⟩
  · rintro ⟨held, hname⟩
    exact ⟨r, List.mem_of_getElem? hr.entry, held, hr.port_eq, hname⟩

theorem firstAt_free_iff (h : prs.Swept now) {port : UInt16} {i : ℕ} {r : PortReservation}
    (hr : prs.FirstAt port i r) :
    prs.leases.Free prs.offer.term now port ↔ r.available = true := by
  rw [← h.free_iff (List.mem_of_getElem? hr.entry), hr.port_eq]

/-- What a swept table answers is what its leases say. -/
theorem answer (h : prs.Swept now) (hc : Change prs now msg reply prs') :
    reply = prs.offer.answer prs.leases now msg := by
  have owned_none (hfresh : prs.NotHeld msg.serviceName) :
      lowest rank {port | prs.leases.OwnedBy prs.offer.term now port msg.serviceName} = none := by
    refine (Leases.lowest_eq_none_iff rank).mpr fun port howned => ?_
    obtain ⟨r, hr, held, -, hname⟩ := h.ownedBy_iff.mp howned
    exact hfresh r hr held hname
  cases hc with
  | granted i r type fresh entry free lowest =>
    have hmem := List.mem_of_getElem? entry
    have hlowest : Leases.lowest rank (prs.offer.free prs.leases now) = some r.port := by
      refine h.inv.lowest_eq (fun _ hport => hport.1) entry ((h.mem_free_iff hmem).mpr free) ?_
      intro j hj r' hr' hfree
      have ha := (h.mem_free_iff (List.mem_of_getElem? hr')).mp hfree
      exact Bool.false_ne_true ((lowest j hj r' hr').symm.trans ha)
    rw [Offer.answer, type, owned_none fresh, hlowest]
  | inUse r type mem held name =>
    obtain ⟨i, hi⟩ := List.mem_iff_getElem?.mp mem
    have hlowest : Leases.lowest rank
        {port | prs.leases.OwnedBy prs.offer.term now port msg.serviceName} = some r.port := by
      refine h.inv.lowest_eq (fun _ hport => h.owned_has hport) hi
        (h.ownedBy_iff.mpr ⟨r, mem, held, rfl, name⟩) fun j hj r' hr' howned => ?_
      obtain ⟨held', hname'⟩ := (h.firstAt_ownedBy_iff (h.inv.firstAt hr')).mp howned
      obtain rfl := h.inv.unique i j r r' hi hr' held held' (name.trans hname'.symm)
      exact absurd hj (lt_irrefl _)
    rw [Offer.answer, type, hlowest]
  | busy type fresh full =>
    have hnone : Leases.lowest rank (prs.offer.free prs.leases now) = none := by
      refine (Leases.lowest_eq_none_iff rank).mpr fun port hfree => ?_
      obtain ⟨r, hr, rfl⟩ := h.inv.has_iff.mp hfree.1
      exact Bool.false_ne_true ((full r hr).symm.trans ((h.mem_free_iff hr).mp hfree))
    rw [Offer.answer, type, owned_none fresh, hnone]
  | refreshed i r type at_port held name =>
    rw [Offer.answer, type]
    simp only [if_pos ((h.firstAt_ownedBy_iff at_port).mpr ⟨held, name⟩)]
  | notRefreshed type other =>
    have hno : ¬ prs.leases.OwnedBy prs.offer.term now msg.port msg.serviceName := by
      intro howned
      obtain ⟨r, hr, held, hport, hname⟩ := h.ownedBy_iff.mp howned
      obtain ⟨i, hi⟩ := List.mem_iff_getElem?.mp hr
      exact other i r (hport ▸ h.inv.firstAt hi) held hname
    rw [Offer.answer, type]
    simp only [if_neg hno]
  | released i r type at_port held nonzero =>
    have hleased : ¬ prs.leases.Free prs.offer.term now msg.port := fun hfree =>
      Bool.false_ne_true (held.symm.trans ((h.firstAt_free_iff at_port).mp hfree))
    rw [Offer.answer, type]
    simp only [if_pos (And.intro nonzero hleased)]
  | notReleased type idle =>
    have hno : ¬ (msg.port ≠ 0 ∧ ¬ prs.leases.Free prs.offer.term now msg.port) := by
      rintro ⟨nonzero, hleased⟩
      refine hleased fun serviceName howned => nonzero ?_
      obtain ⟨r, hr, held, hport, -⟩ := h.ownedBy_iff.mp howned
      obtain ⟨i, hi⟩ := List.mem_iff_getElem?.mp hr
      exact idle i r (hport ▸ h.inv.firstAt hi) held
    rw [Offer.answer, type]
    simp only [if_neg hno]
  | found i r type entry name first =>
    have hlowest : Leases.lowest rank (prs.offer.known prs.leases now msg.serviceName) =
        some r.port := by
      refine h.inv.lowest_eq (fun _ hport => h.known_has hport) entry
        ((h.mem_known_iff (List.mem_of_getElem? entry)).mpr name) fun j hj r' hr' hknown => ?_
      exact first j hj r' hr' ((h.mem_known_iff (List.mem_of_getElem? hr')).mp hknown)
    rw [Offer.answer, type, hlowest]
  | notFound type absent =>
    have hnone : Leases.lowest rank (prs.offer.known prs.leases now msg.serviceName) = none := by
      refine (Leases.lowest_eq_none_iff rank).mpr fun port hknown => ?_
      obtain ⟨r, hr, rfl⟩ := h.inv.has_iff.mp (h.known_has hknown)
      exact absent r hr ((h.mem_known_iff hr).mp hknown)
    rw [Offer.answer, type, hnone]
  | stop type => rw [Offer.answer, type]
  | ignored type =>
    rw [Offer.answer]
    rcases type with type | ⟨value, type⟩ <;> rw [type]

end Swept

/-- One entry of the table changes, and with it the lease of its port. -/
theorem Inv.leases_update {prs : PRS} {t : DateTime} {i : ℕ}
    {f : PortReservation → PortReservation} (h : prs.Inv t) (h' : (prs.update i f).Inv t)
    {r : PortReservation} (hr : prs.ports[i]? = some r) (hport : (f r).port = r.port)
    (now : DateTime) (owner : Option Str) (hf : leaseOf (f r) = owner.map (⟨·, now⟩)) :
    (prs.update i f).leases = prs.leases.apply now (some ⟨r.port, owner⟩) := by
  funext port
  by_cases hp : r.port = port
  · subst hp
    rw [Leases.Registry.apply_same, ← hf, ← h'.leases_entry (update_entry_eq f hr), hport]
  · rw [Leases.Registry.apply_other fun _ heq => hp (Leases.Effect.mk.inj (Option.some.inj heq)).1]
    by_cases hentry : ∃ (j : ℕ) (r' : PortReservation), prs.ports[j]? = some r' ∧ r'.port = port
    · obtain ⟨j, r', hj, rfl⟩ := hentry
      have hji : j ≠ i := by
        rintro rfl
        exact hp (congrArg PortReservation.port (Option.some.inj (hr.symm.trans hj)))
      rw [h'.leases_entry (update_entry_ne f hj hji), h.leases_entry hj]
    · rw [leases_absent, leases_absent]
      · intro r' hr' hport'
        obtain ⟨j, hj⟩ := List.mem_iff_getElem?.mp hr'
        exact hentry ⟨j, r', hj, hport'⟩
      · intro r' hr' hport'
        obtain ⟨j, hj⟩ := List.mem_iff_getElem?.mp hr'
        obtain ⟨r₀, hr₀, ⟨rfl, rfl⟩ | ⟨-, rfl⟩⟩ := update_entry hj
        · obtain rfl := Option.some.inj (hr.symm.trans hr₀)
          exact hp (hport.symm.trans hport')
        · exact hentry ⟨j, _, hr₀, hport'⟩

theorem Change.offer_eq {prs prs' : PRS} {now : DateTime} {msg : PRSMessage}
    {reply : Option PRSMessage} (hc : Change prs now msg reply prs') : prs'.offer = prs.offer := by
  cases hc <;> rfl

/-- What a message does to the leases can be told from its answer. -/
theorem Change.leases {prs prs' : PRS} {now : DateTime} {msg : PRSMessage}
    {reply : Option PRSMessage} (hc : Change prs now msg reply prs') (h : prs.Inv now) :
    prs'.leases = prs.leases.apply now (Exchange.effect ((now, msg), reply)) := by
  have h' := hc.inv h
  cases hc with
  | granted i r type fresh entry free lowest =>
    obtain ⟨hport, ha, hname, halive⟩ :=
      PortReservation.reserve_of_available msg.serviceName now free
    rw [h.leases_update h' entry hport now (some msg.serviceName)
      (by rw [leaseOf, ha, hname, halive]; rfl), Exchange.effect, type]
    rfl
  | refreshed i r type at_port held name =>
    rw [h.leases_update h' at_port.entry (PortReservation.keepAlive_port now r) now
      (some msg.serviceName)
      (by rw [leaseOf, PortReservation.keepAlive_available, held,
        PortReservation.keepAlive_lastAlive now held, PortReservation.keepAlive_serviceName, name]
          rfl), Exchange.effect, type, at_port.port_eq]
    rfl
  | released i r type at_port held nonzero =>
    rw [h.leases_update h' at_port.entry (PortReservation.close_port r) now none rfl,
      Exchange.effect, type, at_port.port_eq]
    rfl
  | stop type | inUse r type mem held name | busy type fresh full | notRefreshed type other
  | notReleased type idle | found i r type entry name first | notFound type absent =>
    rw [Exchange.effect, type]
    rfl
  | ignored type =>
    rw [Exchange.effect]
    rcases type with type | ⟨value, type⟩ <;> rw [type] <;> rfl

/-- The answer depends on the leases that are in force. -/
theorem Offer.answer_congr {offer : Offer} {reg reg' : Registry} {t now : DateTime}
    (h : reg.SameFrom offer.term t reg') (ht : t ≤ now) (msg : PRSMessage) :
    offer.answer reg now msg = offer.answer reg' now msg := by
  have howned : reg.OwnedBy offer.term now = reg'.OwnedBy offer.term now := by
    funext port serviceName
    exact propext (h.ownedBy_iff ht port serviceName)
  have hfree : reg.Free offer.term now = reg'.Free offer.term now := by
    funext port
    rw [Leases.Registry.Free, howned]
    rfl
  unfold Offer.answer Offer.known Offer.free
  rw [howned, hfree]

/-- The table stands for a registry: from time `t` on they have the same leases in force. -/
structure Represents (offer : Offer) (t : DateTime) (prs : PRS) (reg : Registry) : Prop where
  inv : prs.Inv t
  offer_eq : prs.offer = offer
  same : prs.leases.SameFrom offer.term t reg

theorem Represents.handleMessage {offer : Offer} {t now : DateTime} {prs : PRS} {reg : Registry}
    (h : Represents offer t prs reg) (ht : t ≤ now) (msg : PRSMessage) :
    (prs.handleMessage now msg).1 = (offer.step reg (now, msg)).1 ∧
      Represents offer now (prs.handleMessage now msg).2 (offer.step reg (now, msg)).2 := by
  obtain ⟨hinv, rfl, hsame⟩ := h
  have hc := handleMessage_change prs now msg
  have hswept := hinv.swept ht
  have hnow : (prs.checkForExpiredPorts now).leases.SameFrom prs.offer.term now reg := by
    intro later hlater port l
    rw [← hinv.sameFrom_swept ht later hlater port l]
    exact hsame later (ht.trans hlater) port l
  have hanswer : (prs.handleMessage now msg).1 = prs.offer.answer reg now msg :=
    (hswept.answer hc).trans (Offer.answer_congr hnow le_rfl msg)
  refine ⟨hanswer, hinv.handleMessage ht msg, hc.offer_eq, ?_⟩
  rw [hc.leases hswept.inv, Offer.step, ← hanswer]
  exact hnow.apply now _

/-- A new table stands for the registry without a lease. -/
theorem represents_constructed {fuel : ℕ} {start ending : UInt16} {timeout : ℤ} {prs : PRS}
    (h : construct fuel start ending timeout = some prs) :
    Represents ⟨start, ending, timeout⟩ 0 prs fun _ => none := by
  have hinv := construct_inv h 0
  obtain ⟨rfl, rfl, rfl, -, -, hnew⟩ := construct_spec h
  have hempty : prs.leases = fun _ => none := by
    funext port
    by_contra hne
    obtain ⟨l, hl⟩ := Option.ne_none_iff_exists'.mp hne
    obtain ⟨r, hr, -, hlease⟩ := hinv.leases_eq_some_iff.mp hl
    obtain ⟨i, hi⟩ := List.mem_iff_getElem?.mp hr
    rw [hnew i r hi] at hlease
    cases hlease
  exact ⟨hinv, rfl, fun _ _ _ _ => by rw [hempty]⟩

/-- The server answers every run as the registry of leases does, from no lease at all. -/
theorem refines_registry {fuel : ℕ} {start ending : UInt16} {timeout : ℤ} {prs : PRS}
    (h : construct fuel start ending timeout = some prs) {run : List Input}
    (hclock : Clock.From Prod.fst 0 run) : Machine.trace step prs run =
      Machine.trace (Offer.step ⟨start, ending, timeout⟩) (fun _ => none) run := by
  refine (Machine.simulation step
    (R := fun run prs reg => ∃ t, Clock.From Prod.fst t run ∧
      Represents ⟨start, ending, timeout⟩ t prs reg) ?_ ⟨0, hclock, represents_constructed h⟩).1
  rintro prs reg x run ⟨t, hclock, hrep⟩
  obtain ⟨ht, hrest⟩ := Clock.from_cons.mp hclock
  obtain ⟨hanswer, hnext⟩ := hrep.handleMessage ht x.2
  exact ⟨hanswer, x.1, hrest, hnext⟩

/-- A port that is granted, and granted again once its lease has run out. -/
theorem refines_registry_lapsed :
    let run : List Input := [(0, ⟨.requestPort, lit "A", 0, .success⟩),
      (100000001, ⟨.requestPort, lit "B", 0, .success⟩)]
    Machine.trace step ⟨40000, 40000, 10, [.new 40000], false⟩ run =
      Machine.trace (Offer.step ⟨40000, 40000, 10⟩) (fun _ => none) run :=
  @refines_registry 2 40000 40000 10 _ (by decide) _ (by simp [Clock.From])

end NetServices.PRS
