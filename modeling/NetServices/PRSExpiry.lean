import NetServices.PRSRuns

set_option autoImplicit false

/-!
# When reservations expire cannot be seen

A purge that comes early changes nothing for a later one, since what has expired
stays expired as long as nobody touches it. Every message purges first, so that
two servers which the next purge makes equal answer it alike.
-/
namespace NetServices.PRS
open Utf16 (lit)

/-- A message, or a purge of its own. -/
inductive Event where
  | message (now : DateTime) (msg : PRSMessage)
  | purge (now : DateTime)

def Event.now : Event → DateTime
  | .message now _ | .purge now => now

def Event.input : Event → Option Input
  | .message now msg => some (now, msg)
  | .purge _ => none

/-- A message is answered with the exchange that it is part of. -/
def purgingStep (prs : PRS) : Event → Option (Input × Option PRSMessage) × PRS
  | .message now msg =>
    (some ((now, msg), (prs.handleMessage now msg).1), (prs.handleMessage now msg).2)
  | .purge now => (none, prs.checkForExpiredPorts now)

theorem sweep_sweep (timeout : ℤ) {earlier now : DateTime} (h : earlier ≤ now)
    (r : PortReservation) : sweep timeout now (sweep timeout earlier r) = sweep timeout now r := by
  by_cases hr : (!r.available && r.expired timeout earlier) = true
  · have hswept : sweep timeout earlier r = r.close := if_pos hr
    obtain ⟨hheld, hexpired⟩ := Bool.and_eq_true_iff.mp hr
    have hstill : r.expired timeout now = true := by
      have hlater : (earlier : ℤ) ≤ now := Int.ofNat_le.mpr h
      rw [PortReservation.expired_iff] at hexpired ⊢
      omega
    rw [hswept, sweep, sweep, hheld, hstill]
    rfl
  · have hkept : sweep timeout earlier r = r := if_neg hr
    rw [hkept]

theorem checkForExpiredPorts_twice (prs : PRS) {earlier now : DateTime} (h : earlier ≤ now) :
    (prs.checkForExpiredPorts earlier).checkForExpiredPorts now = prs.checkForExpiredPorts now := by
  simp only [checkForExpiredPorts, List.map_map]
  congr 2
  funext r
  exact sweep_sweep _ h r

/-- No purge from time `t` on leaves a difference. -/
def SameFrom (t : DateTime) (prs prs' : PRS) : Prop :=
  ∀ now, t ≤ now → prs.checkForExpiredPorts now = prs'.checkForExpiredPorts now

theorem handleMessage_purged (prs : PRS) (now : DateTime) (msg : PRSMessage) :
    (prs.checkForExpiredPorts now).handleMessage now msg = prs.handleMessage now msg := by
  simp only [handleMessage, checkForExpiredPorts_idempotent]

theorem SameFrom.handleMessage {t now : DateTime} {prs prs' : PRS} (h : SameFrom t prs prs')
    (ht : t ≤ now) (msg : PRSMessage) :
    prs.handleMessage now msg = prs'.handleMessage now msg := by
  rw [← handleMessage_purged, h now ht, handleMessage_purged]

theorem SameFrom.purge {t now : DateTime} {prs prs' : PRS} (h : SameFrom t prs prs')
    (ht : t ≤ now) : SameFrom now (prs.checkForExpiredPorts now) prs' := by
  intro later hlater
  rw [checkForExpiredPorts_twice prs hlater]
  exact h later (ht.trans hlater)

theorem SameFrom.trace {t : DateTime} {prs prs' : PRS} (h : SameFrom t prs prs')
    {events : List Event} (hclock : Clock.From Event.now t events) :
    (Machine.trace purgingStep prs events).filterMap Prod.snd =
      Machine.trace step prs' (events.filterMap Event.input) := by
  induction events generalizing t prs prs' with
  | nil => rfl
  | cons e events ih =>
    obtain ⟨ht, hrest⟩ := Clock.from_cons.mp hclock
    cases e with
    | message now msg =>
      have hsame := h.handleMessage ht msg
      have htail := @ih now (prs.handleMessage now msg).2 (prs'.handleMessage now msg).2
        (fun later _ => congrArg (fun result => result.2.checkForExpiredPorts later) hsame) hrest
      exact congrArg₂ List.cons (congrArg (fun result => ((now, msg), result.1)) hsame) htail
    | purge now => exact ih (h.purge ht) hrest

/-- Purges of its own, at any time, change no answer of the server. -/
theorem lazy_expiry (prs : PRS) {t : DateTime} {events : List Event}
    (hclock : Clock.From Event.now t events) :
    (Machine.trace purgingStep prs events).filterMap Prod.snd =
      Machine.trace step prs (events.filterMap Event.input) :=
  SameFrom.trace (fun _ _ => rfl) hclock

/-- A purge frees a port just before somebody asks for one. -/
theorem lazy_expiry_request :
    let prs : PRS := ⟨40000, 40000, 10, [(PortReservation.new 40000).reserve (lit "A") 0], false⟩
    (Machine.trace purgingStep prs
        [.purge 100000001, .message 100000002 ⟨.requestPort, lit "B", 0, .success⟩]).filterMap
        Prod.snd =
      [((100000002, ⟨.requestPort, lit "B", 0, .success⟩),
        some ⟨.response, lit "B", 40000, .success⟩)] := by
  intro prs
  exact (lazy_expiry prs (t := 0) (by simp [Clock.From, Event.now])).trans (by decide)

end NetServices.PRS
