import NetServices.PRSInvariant
import NetServices.Machine

set_option autoImplicit false

/-!
# Runs of the port reservation server

A run starts with a finished construction and handles one message after the
other, the clock never going back. Every state of a run has the invariant.
-/
namespace NetServices.PRS
open Utf16 (lit)

/-- When the loop ends, every entry is filled. The counter may have wrapped, so
    the filled part is what lies below it. -/
theorem initLoop_filled (start : UInt16) {fuel : ℕ} {i : UInt16}
    {ports filled : List (Option PortReservation)} (h : initLoop start fuel i ports = some filled)
    (hbelow : ∀ j < i.toNat, ∀ x, ports[j]? = some x →
      x = some (PortReservation.new (start + UInt16.ofNat j))) :
    filled.length = ports.length ∧
      ∀ j x, filled[j]? = some x → x = some (PortReservation.new (start + UInt16.ofNat j)) := by
  induction fuel generalizing i ports with
  | zero => cases h
  | succ fuel ih =>
    rw [initLoop] at h
    split_ifs at h with hlt
    · obtain ⟨hlen, hfilled⟩ := ih h fun j hj x hx => by
        rw [List.getElem?_set] at hx
        split_ifs at hx with hij
        · subst hij
          rw [UInt16.ofNat_toNat]
          exact (Option.some.inj hx).symm
        · refine hbelow j ?_ x hx
          rw [UInt16.toNat_add] at hj
          change j < (i.toNat + 1) % 65536 at hj
          omega
      rw [List.length_set] at hlen
      exact ⟨hlen, hfilled⟩
    · cases h
      refine ⟨rfl, fun j x hx => hbelow j ?_ x hx⟩
      obtain ⟨hj, -⟩ := List.getElem?_eq_some_iff.mp hx
      omega

theorem mapM_id_entry {α : Type} {l : List (Option α)} {as : List α} (h : l.mapM id = some as) :
    l = as.map some := by
  induction l generalizing as with
  | nil =>
    cases h
    rfl
  | cons x l ih =>
    simp only [List.mapM_cons, id, Option.bind_eq_bind, Option.bind_eq_some_iff,
      Option.pure_def, Option.some.injEq] at h
    obtain ⟨a, rfl, rest, hrest, rfl⟩ := h
    rw [ih hrest]
    rfl

theorem construct_spec {fuel : ℕ} {start ending : UInt16} {timeout : ℤ} {prs : PRS}
    (h : construct fuel start ending timeout = some prs) :
    prs.startingClientPort = start ∧ prs.endingClientPort = ending ∧
    prs.keepAliveTimeout = timeout ∧ prs.stopped = false ∧
    (prs.ports.length : ℤ) = ending.toNat - start.toNat + 1 ∧
    ∀ (i : ℕ) (r : PortReservation), prs.ports[i]? = some r →
      r = .new (start + UInt16.ofNat i) := by
  simp only [construct, guard, Option.bind_eq_bind, Option.bind_eq_some_iff, Option.pure_def,
    Option.some.injEq] at h
  obtain ⟨_, hguard, array, hloop, ports, hports, rfl⟩ := h
  have hnonneg : (0 : ℤ) ≤ ending.toNat - start.toNat + 1 := by
    by_contra hneg
    rw [if_neg hneg] at hguard
    cases hguard
  obtain ⟨hlen, hfilled⟩ := initLoop_filled start hloop fun j hj => nomatch hj
  obtain rfl := mapM_id_entry hports
  rw [List.length_map, List.length_replicate] at hlen
  refine ⟨rfl, rfl, rfl, rfl, ?_, fun i r hr => ?_⟩
  · change (ports.length : ℤ) = _
    omega
  · exact Option.some.inj (hfilled i (some r) (by rw [List.getElem?_map, hr]; rfl))

theorem construct_inv {fuel : ℕ} {start ending : UInt16} {timeout : ℤ} {prs : PRS}
    (h : construct fuel start ending timeout = some prs) (t : DateTime) : prs.Inv t := by
  obtain ⟨rfl, rfl, rfl, -, hsize, hnew⟩ := construct_spec h
  refine ⟨hsize, fun i r hr => ?_, fun i r hr held => ?_, fun i j r r' hr hr' held => ?_⟩
  · rw [hnew i r hr]
    rfl
  · rw [hnew i r hr] at held
    cases held
  · rw [hnew i r hr] at held
    cases held

/-- The states that messages lead to from a finished construction, with the
    latest clock reading. -/
inductive Reachable : PRS → DateTime → Prop where
  | constructed {fuel : ℕ} {start ending : UInt16} {timeout : ℤ} {prs : PRS}
      (h : construct fuel start ending timeout = some prs) : Reachable prs 0
  | handled {prs : PRS} {t now : DateTime} (h : Reachable prs t) (ht : t ≤ now)
      (msg : PRSMessage) : Reachable (prs.handleMessage now msg).2 now

theorem Reachable.inv {prs : PRS} {t : DateTime} (h : Reachable prs t) : prs.Inv t := by
  induction h with
  | constructed h => exact construct_inv h 0
  | handled _ ht msg ih => exact ih.handleMessage ht msg

/-- One message with its clock reading. -/
abbrev Input := DateTime × PRSMessage

def step (prs : PRS) (x : Input) : Option PRSMessage × PRS := prs.handleMessage x.1 x.2

theorem Reachable.final {prs : PRS} {t : DateTime} (h : Reachable prs t) {x : Input}
    {before after : List Input} (hclock : Clock.From Prod.fst t (before ++ x :: after)) :
    ∃ t', t' ≤ x.1 ∧ Reachable (Machine.final step prs before) t' ∧
      Clock.From Prod.fst x.1 after := by
  induction before generalizing prs t with
  | nil =>
    obtain ⟨ht, hrest⟩ := Clock.from_cons.mp hclock
    exact ⟨t, ht, h, hrest⟩
  | cons y before ih =>
    obtain ⟨ht, hrest⟩ := Clock.from_cons.mp hclock
    exact ih (h.handled ht y.2) hrest

/-- The table in every state that is reached: each entry has its own port and is free or
    was alive by now, and no two that are held share a name or a port. -/
theorem reachable_table {prs : PRS} {t : DateTime} (h : Reachable prs t) :
    (∀ (i : ℕ) (r : PortReservation), prs.ports[i]? = some r →
      r.port = prs.startingClientPort + UInt16.ofNat i ∧
      r.port.toNat = prs.startingClientPort.toNat + i ∧
      (r.available = true → r.serviceName = [] ∧ r.lastAlive = DateTime.minValue) ∧
      (r.available = false → r.lastAlive ≤ t)) ∧
    ∀ (i j : ℕ) (r r' : PortReservation), prs.ports[i]? = some r → prs.ports[j]? = some r' →
      r.available = false → r'.available = false →
      r.serviceName = r'.serviceName ∨ r.port = r'.port → i = j := by
  have hinv := h.inv
  refine ⟨fun i r hr => ⟨hinv.port i r hr, hinv.port_toNat hr, r.free, hinv.alive i r hr⟩, ?_⟩
  rintro i j r r' hr hr' held held' (hname | hport)
  · exact hinv.unique i j r r' hr hr' held held' hname
  · exact (hinv.port_injective hr hr' hport).1

/-- Two ports, of which one has been granted. -/
theorem reachable_table_granted :
    let prs : PRS := ⟨40000, 40001, 10, [(PortReservation.new 40000).reserve (lit "A") 5,
      .new 40001], false⟩
    ∀ (i j : ℕ) (r r' : PortReservation), prs.ports[i]? = some r → prs.ports[j]? = some r' →
      r.available = false → r'.available = false →
      r.serviceName = r'.serviceName ∨ r.port = r'.port → i = j := by
  intro prs
  have hnew : construct 3 40000 40001 10 =
      some ⟨40000, 40001, 10, [.new 40000, .new 40001], false⟩ := by decide
  have hreach : Reachable prs 5 :=
    (Reachable.constructed hnew).handled (Nat.zero_le 5) ⟨.requestPort, lit "A", 0, .success⟩
  exact (reachable_table hreach).2

end NetServices.PRS
