import NetServices.PRS
import Mathlib.Tactic.SplitIfs

set_option autoImplicit false

/-!
# What one message does to the table

`Change` lists everything `HandleMessage` can do once the expired reservations
are gone. The invariant of the table is read off it, and holds of every state
that messages with a nondecreasing clock lead to.
-/
namespace NetServices.PRS
open Utf16 (Str)

/-- Entry `i` is the first one with port `port`. -/
structure FirstAt (prs : PRS) (port : UInt16) (i : ℕ) (r : PortReservation) : Prop where
  entry : prs.ports[i]? = some r
  port_eq : r.port = port
  first : ∀ j < i, ∀ r', prs.ports[j]? = some r' → r'.port ≠ port

def NotHeld (prs : PRS) (serviceName : Str) : Prop :=
  ∀ r ∈ prs.ports, r.available = false → r.serviceName ≠ serviceName

inductive Change (prs : PRS) (now : DateTime) (msg : PRSMessage) :
    Option PRSMessage → PRS → Prop where
  | granted (i : ℕ) (r : PortReservation) (type : msg.msgType = .requestPort)
      (fresh : prs.NotHeld msg.serviceName) (entry : prs.ports[i]? = some r)
      (free : r.available = true)
      (lowest : ∀ j < i, ∀ r', prs.ports[j]? = some r' → r'.available = false) :
      Change prs now msg (some (response msg.serviceName r.port .success))
        (prs.update i (·.reserve msg.serviceName now))
  | inUse (r : PortReservation) (type : msg.msgType = .requestPort) (mem : r ∈ prs.ports)
      (held : r.available = false) (name : r.serviceName = msg.serviceName) :
      Change prs now msg (some (response msg.serviceName r.port .serviceInUse)) prs
  | busy (type : msg.msgType = .requestPort) (fresh : prs.NotHeld msg.serviceName)
      (full : ∀ r ∈ prs.ports, r.available = false) :
      Change prs now msg (some (response msg.serviceName 0 .allPortsBusy)) prs
  | refreshed (i : ℕ) (r : PortReservation) (type : msg.msgType = .keepAlive)
      (at_port : prs.FirstAt msg.port i r) (held : r.available = false)
      (name : r.serviceName = msg.serviceName) :
      Change prs now msg (some (response msg.serviceName msg.port .success))
        (prs.update i (·.keepAlive now))
  | notRefreshed (type : msg.msgType = .keepAlive)
      (other : ∀ i r, prs.FirstAt msg.port i r → r.available = false →
        r.serviceName ≠ msg.serviceName) :
      Change prs now msg (some (response msg.serviceName msg.port .serviceNotFound)) prs
  | released (i : ℕ) (r : PortReservation) (type : msg.msgType = .closePort)
      (at_port : prs.FirstAt msg.port i r) (held : r.available = false) (nonzero : msg.port ≠ 0) :
      Change prs now msg (some (response msg.serviceName msg.port .success))
        (prs.update i (·.close))
  | notReleased (type : msg.msgType = .closePort)
      (idle : ∀ i r, prs.FirstAt msg.port i r → r.available = false → msg.port = 0) :
      Change prs now msg (some (response msg.serviceName msg.port .serviceNotFound)) prs
  | found (i : ℕ) (r : PortReservation) (type : msg.msgType = .lookupPort)
      (entry : prs.ports[i]? = some r) (name : r.serviceName = msg.serviceName)
      (first : ∀ j < i, ∀ r', prs.ports[j]? = some r' → r'.serviceName ≠ msg.serviceName) :
      Change prs now msg (some (response msg.serviceName r.port .success)) prs
  | notFound (type : msg.msgType = .lookupPort)
      (absent : ∀ r ∈ prs.ports, r.serviceName ≠ msg.serviceName) :
      Change prs now msg (some (response msg.serviceName 0 .serviceNotFound)) prs
  | stop (type : msg.msgType = .stop) :
      Change prs now msg (some (response msg.serviceName 0 .success)) { prs with stopped := true }
  | ignored (type : msg.msgType = .response ∨ ∃ value, msg.msgType = .unnamed value) :
      Change prs now msg none prs

theorem findFinIdx_some {α : Type} {l : List α} {p : α → Bool} {i : Fin l.length}
    (h : l.findFinIdx? p = some i) : l[i.val]? = some l[i] ∧ p l[i] = true ∧
      ∀ j < i.val, ∀ a, l[j]? = some a → p a = false := by
  obtain ⟨hp, hfirst⟩ := List.findFinIdx?_eq_some_iff.mp h
  refine ⟨List.getElem?_eq_getElem i.isLt, hp, fun j hj a ha => ?_⟩
  obtain ⟨hlt, rfl⟩ := List.getElem?_eq_some_iff.mp ha
  exact Bool.eq_false_iff.mpr (hfirst ⟨j, hlt⟩ hj)

theorem findFinIdx_none {α : Type} {l : List α} {p : α → Bool} (h : l.findFinIdx? p = none) :
    ∀ a ∈ l, p a = false := by
  intro a ha
  exact Bool.eq_false_iff.mpr (List.findFinIdx?_eq_none_iff.mp h a ha)

theorem firstAt_unique {prs : PRS} {port : UInt16} {i j : ℕ} {r r' : PortReservation}
    (h : prs.FirstAt port i r) (h' : prs.FirstAt port j r') : i = j ∧ r = r' := by
  rcases lt_trichotomy i j with hlt | rfl | hlt
  · exact absurd h.port_eq (h'.first i hlt r h.entry)
  · exact ⟨rfl, Option.some.inj (h.entry.symm.trans h'.entry)⟩
  · exact absurd h'.port_eq (h.first j hlt r' h'.entry)

theorem firstAt_of_find {prs : PRS} {port : UInt16} {i : Fin prs.ports.length}
    (h : prs.ports.findFinIdx? (·.port == port) = some i) :
    prs.FirstAt port i (prs.ports.get i) := by
  obtain ⟨hentry, hp, hfirst⟩ := findFinIdx_some h
  exact ⟨hentry, beq_iff_eq.mp hp, fun j hj r hr => beq_eq_false_iff_ne.mp (hfirst j hj r hr)⟩

theorem not_firstAt_of_find {prs : PRS} {port : UInt16}
    (h : prs.ports.findFinIdx? (·.port == port) = none) (i : ℕ) (r : PortReservation) :
    ¬ prs.FirstAt port i r := by
  intro hr
  exact beq_eq_false_iff_ne.mp (findFinIdx_none h r (List.mem_of_getElem? hr.entry)) hr.port_eq

theorem requestPort_change (prs : PRS) (now : DateTime) (msg : PRSMessage)
    (type : msg.msgType = .requestPort) : Change prs now msg
      (some (prs.requestPort now msg.serviceName).1) (prs.requestPort now msg.serviceName).2 := by
  unfold requestPort
  split
  · next i h =>
    obtain ⟨hentry, hp, -⟩ := findFinIdx_some h
    simp only [Bool.and_eq_true, Bool.not_eq_true', beq_iff_eq] at hp
    exact .inUse _ type (List.mem_of_getElem? hentry) hp.1 hp.2
  · next h =>
    have fresh : prs.NotHeld msg.serviceName := by
      intro r hr held
      have hp := findFinIdx_none h r hr
      simp only [held, Bool.not_false, Bool.true_and, beq_eq_false_iff_ne] at hp
      exact hp
    unfold requestAvaliablePort
    split
    · next i h =>
      obtain ⟨hentry, hp, hfirst⟩ := findFinIdx_some h
      exact .granted i _ type fresh hentry hp hfirst
    · next h => exact .busy type fresh (findFinIdx_none h)

theorem handleKeepAlive_change (prs : PRS) (now : DateTime) (msg : PRSMessage)
    (type : msg.msgType = .keepAlive) : Change prs now msg
      (some (prs.handleKeepAlive now msg).1) (prs.handleKeepAlive now msg).2 := by
  unfold handleKeepAlive
  split
  · next i h =>
    have hi : prs.FirstAt msg.port i prs.ports[i] := firstAt_of_find h
    split_ifs with ha hn
    · refine .notRefreshed type fun j r hr held => ?_
      obtain ⟨-, rfl⟩ := firstAt_unique hi hr
      rw [ha] at held
      cases held
    · exact .refreshed i _ type hi (Bool.eq_false_iff.mpr ha) hn
    · refine .notRefreshed type fun j r hr held => ?_
      obtain ⟨-, rfl⟩ := firstAt_unique hi hr
      exact hn
  · next h => exact .notRefreshed type fun i r hr => absurd hr (not_firstAt_of_find h i r)

theorem handleClosePort_change (prs : PRS) (now : DateTime) (msg : PRSMessage)
    (type : msg.msgType = .closePort) : Change prs now msg
      (some (prs.handleClosePort msg).1) (prs.handleClosePort msg).2 := by
  unfold handleClosePort
  split
  · next h => exact .notReleased type fun i r hr => absurd hr (not_firstAt_of_find h i r)
  · next i h =>
    have hi : prs.FirstAt msg.port i prs.ports[i] := firstAt_of_find h
    split_ifs with hg hn
    · refine .notReleased type fun j r hr held => ?_
      obtain ⟨-, rfl⟩ := firstAt_unique hi hr
      rw [held, Bool.false_or, beq_iff_eq] at hg
      exact hi.port_eq.symm.trans hg
    -- whoever asks, the entry is closed
    all_goals
      simp only [Bool.or_eq_true, beq_iff_eq, not_or] at hg
      exact .released i _ type hi (Bool.eq_false_iff.mpr hg.1) (hi.port_eq ▸ hg.2)

theorem handleLookupPort_change (prs : PRS) (now : DateTime) (msg : PRSMessage)
    (type : msg.msgType = .lookupPort) :
    Change prs now msg (some (prs.handleLookupPort msg)) prs := by
  unfold handleLookupPort
  split
  · next i h =>
    obtain ⟨hentry, hp, hfirst⟩ := findFinIdx_some h
    exact .found i _ type hentry (beq_iff_eq.mp hp)
      fun j hj r hr => beq_eq_false_iff_ne.mp (hfirst j hj r hr)
  · next h => exact .notFound type fun r hr => beq_eq_false_iff_ne.mp (findFinIdx_none h r hr)

theorem sweep_idempotent (timeout : ℤ) (now : DateTime) (r : PortReservation) :
    sweep timeout now (sweep timeout now r) = sweep timeout now r := by
  unfold sweep
  split_ifs <;> rfl

theorem checkForExpiredPorts_idempotent (prs : PRS) (now : DateTime) :
    (prs.checkForExpiredPorts now).checkForExpiredPorts now = prs.checkForExpiredPorts now := by
  simp only [checkForExpiredPorts, List.map_map]
  congr 2
  funext r
  exact sweep_idempotent _ _ r

theorem handleMessage_change (prs : PRS) (now : DateTime) (msg : PRSMessage) :
    Change (prs.checkForExpiredPorts now) now msg
      (prs.handleMessage now msg).1 (prs.handleMessage now msg).2 := by
  unfold handleMessage
  split
  · next h =>
    simp only [checkForExpiredPorts_idempotent]
    exact requestPort_change _ now msg h
  · next h => exact handleKeepAlive_change _ now msg h
  · next h => exact handleClosePort_change _ now msg h
  · next h => exact handleLookupPort_change _ now msg h
  · next h => exact .stop h
  · next h => exact .ignored (.inl h)
  · next value h => exact .ignored (.inr ⟨value, h⟩)

theorem sweep_of_live {timeout : ℤ} {now : DateTime} {r : PortReservation}
    (h : r.Live timeout now) : sweep timeout now r = r := by
  rw [sweep, h.1, h.2]
  rfl

/-- The reservations that are held after the sweep are the live ones. -/
theorem sweep_held {timeout : ℤ} {now : DateTime} {r : PortReservation}
    (h : (sweep timeout now r).available = false) :
    sweep timeout now r = r ∧ r.Live timeout now := by
  unfold sweep at h ⊢
  split_ifs at h ⊢ with hc
  · cases h
  · refine ⟨rfl, h, Bool.eq_false_iff.mpr fun he => hc ?_⟩
    rw [h, he]
    rfl

theorem sweep_available {timeout : ℤ} {now : DateTime} {r : PortReservation} :
    (sweep timeout now r).available = false ↔ r.Live timeout now := by
  refine ⟨fun h => (sweep_held h).2, fun h => ?_⟩
  rw [sweep_of_live h]
  exact h.1

theorem sweep_port (timeout : ℤ) (now : DateTime) (r : PortReservation) :
    (sweep timeout now r).port = r.port := by
  unfold sweep
  split_ifs <;> rfl

@[simp] theorem checkForExpiredPorts_ports (prs : PRS) (now : DateTime) :
    (prs.checkForExpiredPorts now).ports = prs.ports.map (sweep prs.keepAliveTimeout now) := rfl

@[simp] theorem update_ports (prs : PRS) (i : ℕ) (f : PortReservation → PortReservation) :
    (prs.update i f).ports = prs.ports.modify i f := rfl

theorem update_entry {prs : PRS} {i j : ℕ} {f : PortReservation → PortReservation}
    {r : PortReservation} (h : (prs.update i f).ports[j]? = some r) :
    ∃ r₀, prs.ports[j]? = some r₀ ∧ (j = i ∧ r = f r₀ ∨ j ≠ i ∧ r = r₀) := by
  rw [update_ports, List.getElem?_modify, Option.map_eq_map, Option.map_eq_some_iff] at h
  obtain ⟨r₀, hr₀, rfl⟩ := h
  refine ⟨r₀, hr₀, ?_⟩
  by_cases hij : i = j
  · exact .inl ⟨hij.symm, if_pos hij⟩
  · exact .inr ⟨Ne.symm hij, if_neg hij⟩

theorem swept_entry {prs : PRS} {now : DateTime} {i : ℕ} {r : PortReservation}
    (h : (prs.checkForExpiredPorts now).ports[i]? = some r) :
    ∃ r₀, prs.ports[i]? = some r₀ ∧ r = sweep prs.keepAliveTimeout now r₀ := by
  rw [checkForExpiredPorts_ports, List.getElem?_map, Option.map_eq_some_iff] at h
  obtain ⟨r₀, hr₀, rfl⟩ := h
  exact ⟨r₀, hr₀, rfl⟩

theorem live_entry {prs : PRS} {now : DateTime} {i : ℕ} {r : PortReservation}
    (h : prs.ports[i]? = some r) (hl : r.Live prs.keepAliveTimeout now) :
    (prs.checkForExpiredPorts now).ports[i]? = some r := by
  rw [checkForExpiredPorts_ports, List.getElem?_map, h, Option.map_some, sweep_of_live hl]

theorem swept_held_entry {prs : PRS} {now : DateTime} {i : ℕ} {r : PortReservation}
    (h : (prs.checkForExpiredPorts now).ports[i]? = some r) (held : r.available = false) :
    prs.ports[i]? = some r ∧ r.Live prs.keepAliveTimeout now := by
  obtain ⟨r₀, hr₀, rfl⟩ := swept_entry h
  obtain ⟨heq, hl⟩ := sweep_held held
  rw [heq]
  exact ⟨hr₀, hl⟩

theorem swept_mem_iff {prs : PRS} {now : DateTime} {r : PortReservation}
    (held : r.available = false) : r ∈ (prs.checkForExpiredPorts now).ports ↔
      r ∈ prs.ports ∧ r.Live prs.keepAliveTimeout now := by
  constructor
  · intro hr
    obtain ⟨i, hi⟩ := List.mem_iff_getElem?.mp hr
    obtain ⟨hi, hl⟩ := swept_held_entry hi held
    exact ⟨List.mem_of_getElem? hi, hl⟩
  · rintro ⟨hr, hl⟩
    obtain ⟨i, hi⟩ := List.mem_iff_getElem?.mp hr
    exact List.mem_of_getElem? (live_entry hi hl)

theorem mem_swept {prs : PRS} {now : DateTime} {r : PortReservation} (h : r ∈ prs.ports) :
    sweep prs.keepAliveTimeout now r ∈ (prs.checkForExpiredPorts now).ports :=
  List.mem_map_of_mem h

/-- The names that are held after the sweep are those of the live reservations. -/
theorem swept_notHeld_iff {prs : PRS} {now : DateTime} {serviceName : Str} :
    (prs.checkForExpiredPorts now).NotHeld serviceName ↔
      ∀ r ∈ prs.ports, r.Live prs.keepAliveTimeout now → r.serviceName ≠ serviceName := by
  constructor
  · intro h r hr hl
    exact h r ((swept_mem_iff hl.1).mpr ⟨hr, hl⟩) hl.1
  · intro h r hr held
    obtain ⟨hr, hl⟩ := (swept_mem_iff held).mp hr
    exact h r hr hl

/-- The entries that are free after the sweep are those that are not live. -/
theorem swept_free_iff {prs : PRS} {now : DateTime} :
    (∃ r ∈ (prs.checkForExpiredPorts now).ports, r.available = true) ↔
      ∃ r ∈ prs.ports, ¬ r.Live prs.keepAliveTimeout now := by
  constructor
  · rintro ⟨r, hr, free⟩
    obtain ⟨r₀, hr₀, rfl⟩ := List.mem_map.mp hr
    exact ⟨r₀, hr₀, fun hl => Bool.false_ne_true ((sweep_available.mpr hl).symm.trans free)⟩
  · rintro ⟨r, hr, hl⟩
    refine ⟨_, mem_swept hr, ?_⟩
    by_contra held
    exact hl (sweep_available.mp (Bool.eq_false_iff.mpr held))

/-- The table at clock reading `t`: the ports in order, nobody alive in the
    future, and no name held twice. -/
structure Inv (prs : PRS) (t : DateTime) : Prop where
  size : (prs.ports.length : ℤ) =
    prs.endingClientPort.toNat - prs.startingClientPort.toNat + 1
  port : ∀ (i : ℕ) (r : PortReservation), prs.ports[i]? = some r →
    r.port = prs.startingClientPort + UInt16.ofNat i
  alive : ∀ (i : ℕ) (r : PortReservation), prs.ports[i]? = some r → r.available = false →
    r.lastAlive ≤ t
  unique : ∀ (i j : ℕ) (r r' : PortReservation), prs.ports[i]? = some r →
    prs.ports[j]? = some r' → r.available = false → r'.available = false →
    r.serviceName = r'.serviceName → i = j

theorem Inv.port_toNat {prs : PRS} {t : DateTime} (h : prs.Inv t) {i : ℕ} {r : PortReservation}
    (hr : prs.ports[i]? = some r) : r.port.toNat = prs.startingClientPort.toNat + i := by
  obtain ⟨hlt, -⟩ := List.getElem?_eq_some_iff.mp hr
  have hsize := h.size
  have hend := prs.endingClientPort.toNat_lt
  rw [h.port i r hr, UInt16.toNat_add, UInt16.toNat_ofNat']
  omega

theorem Inv.port_injective {prs : PRS} {t : DateTime} (h : prs.Inv t) {i j : ℕ}
    {r r' : PortReservation} (hr : prs.ports[i]? = some r) (hr' : prs.ports[j]? = some r')
    (hport : r.port = r'.port) : i = j ∧ r = r' := by
  have hi := h.port_toNat hr
  have hj := h.port_toNat hr'
  rw [hport, hj] at hi
  obtain rfl : i = j := by omega
  exact ⟨rfl, Option.some.inj (hr.symm.trans hr')⟩

theorem Inv.firstAt {prs : PRS} {t : DateTime} (h : prs.Inv t) {i : ℕ} {r : PortReservation}
    (hr : prs.ports[i]? = some r) : prs.FirstAt r.port i r := by
  refine ⟨hr, rfl, fun j hj r' hr' hport => ?_⟩
  obtain ⟨rfl, -⟩ := h.port_injective hr' hr hport
  exact absurd hj (lt_irrefl _)

theorem Inv.checkForExpiredPorts {prs : PRS} {t now : DateTime} (h : prs.Inv t) (ht : t ≤ now) :
    (prs.checkForExpiredPorts now).Inv now where
  size := by
    rw [checkForExpiredPorts_ports, List.length_map]
    exact h.size
  port i r hr := by
    obtain ⟨r₀, hr₀, rfl⟩ := swept_entry hr
    rw [sweep_port]
    exact h.port i r₀ hr₀
  alive i r hr held := (h.alive i r (swept_held_entry hr held).1 held).trans ht
  unique i j r r' hr hr' held held' :=
    h.unique i j r r' (swept_held_entry hr held).1 (swept_held_entry hr' held').1 held held'

theorem Inv.live_firstAt {prs : PRS} {t now : DateTime} (h : prs.Inv t) (ht : t ≤ now)
    {r : PortReservation} (hr : r ∈ prs.ports) (hl : r.Live prs.keepAliveTimeout now) :
    ∃ i, (prs.checkForExpiredPorts now).FirstAt r.port i r := by
  obtain ⟨i, hi⟩ := List.mem_iff_getElem?.mp hr
  exact ⟨i, (h.checkForExpiredPorts ht).firstAt (live_entry hi hl)⟩

/-- The live reservation of a port is the first entry with it that is held after the sweep. -/
theorem Inv.live_at_iff {prs : PRS} {t now : DateTime} (h : prs.Inv t) (ht : t ≤ now)
    {port : UInt16} {P : PortReservation → Prop} :
    (∃ r ∈ prs.ports, r.Live prs.keepAliveTimeout now ∧ r.port = port ∧ P r) ↔
      ∃ i r, (prs.checkForExpiredPorts now).FirstAt port i r ∧ r.available = false ∧ P r := by
  constructor
  · rintro ⟨r, hr, hl, rfl, hP⟩
    obtain ⟨i, hfirst⟩ := h.live_firstAt ht hr hl
    exact ⟨i, r, hfirst, hl.1, hP⟩
  · rintro ⟨i, r, hfirst, held, hP⟩
    obtain ⟨hi, hl⟩ := swept_held_entry hfirst.entry held
    exact ⟨r, List.mem_of_getElem? hi, hl, hfirst.port_eq, hP⟩

/-- Changing one entry keeps the invariant when the entry keeps its port, is not
    alive in the future, and takes no name that another entry holds. -/
theorem Inv.update {prs : PRS} {t : DateTime} (h : prs.Inv t) (i : ℕ)
    {f : PortReservation → PortReservation} (hport : ∀ r, (f r).port = r.port)
    (halive : ∀ r, prs.ports[i]? = some r → (f r).available = false → (f r).lastAlive ≤ t)
    (hname : ∀ r, prs.ports[i]? = some r → (f r).available = false → ∀ j r', j ≠ i →
      prs.ports[j]? = some r' → r'.available = false → r'.serviceName ≠ (f r).serviceName) :
    (prs.update i f).Inv t where
  size := by
    rw [update_ports, List.length_modify]
    exact h.size
  port j r hr := by
    rcases update_entry hr with ⟨r₀, hr₀, ⟨-, rfl⟩ | ⟨-, rfl⟩⟩
    · rw [hport]
      exact h.port j r₀ hr₀
    · exact h.port j r hr₀
  alive j r hr held := by
    rcases update_entry hr with ⟨r₀, hr₀, ⟨rfl, rfl⟩ | ⟨-, rfl⟩⟩
    · exact halive r₀ hr₀ held
    · exact h.alive j r hr₀ held
  unique j k r r' hr hr' held held' hsame := by
    rcases update_entry hr with ⟨r₀, hr₀, ⟨rfl, rfl⟩ | ⟨hj, rfl⟩⟩
    · rcases update_entry hr' with ⟨r₁, hr₁, ⟨rfl, -⟩ | ⟨hk, rfl⟩⟩
      · rfl
      · exact absurd hsame.symm (hname r₀ hr₀ held k r' hk hr₁ held')
    · rcases update_entry hr' with ⟨r₁, hr₁, ⟨rfl, rfl⟩ | ⟨hk, rfl⟩⟩
      · exact absurd hsame (hname r₁ hr₁ held' j r hj hr₀ held)
      · exact h.unique j k r r' hr₀ hr₁ held held' hsame

theorem Change.inv {prs prs' : PRS} {now : DateTime} {msg : PRSMessage}
    {reply : Option PRSMessage} (hc : Change prs now msg reply prs') (h : prs.Inv now) :
    prs'.Inv now := by
  cases hc with
  | granted i r type fresh entry free lowest =>
    have hres : ∀ r', prs.ports[i]? = some r' → r' = r := fun r' hr' =>
      Option.some.inj (hr'.symm.trans entry)
    obtain ⟨-, -, hname, halive⟩ := PortReservation.reserve_of_available msg.serviceName now free
    apply h.update i (PortReservation.reserve_port _ _)
    · rintro r' hr' -
      rw [hres r' hr', halive]
    · rintro r' hr' - j r'' - hr'' held
      rw [hres r' hr', hname]
      exact fresh r'' (List.mem_of_getElem? hr'') held
  | refreshed i r type at_port held name =>
    apply h.update i (PortReservation.keepAlive_port _)
    · intro r' hr' held'
      rw [PortReservation.keepAlive_available] at held'
      rw [PortReservation.keepAlive_lastAlive now held']
    · intro r' hr' held' j r'' hj hr'' held'' hsame
      rw [PortReservation.keepAlive_available] at held'
      rw [PortReservation.keepAlive_serviceName] at hsame
      exact hj (h.unique j i r'' r' hr'' hr' held'' held' hsame)
  | released i r type at_port held nonzero =>
    apply h.update i PortReservation.close_port
    · exact fun r' hr' held' => nomatch held'
    · exact fun r' hr' held' => nomatch held'
  | stop type => exact ⟨h.size, h.port, h.alive, h.unique⟩
  | inUse | busy | notRefreshed | notReleased | found | notFound | ignored => exact h

theorem Inv.handleMessage {prs : PRS} {t now : DateTime} (h : prs.Inv t) (ht : t ≤ now)
    (msg : PRSMessage) : (prs.handleMessage now msg).2.Inv now :=
  (handleMessage_change prs now msg).inv (h.checkForExpiredPorts ht)

end NetServices.PRS
