import NetServices.PRSRuns

set_option autoImplicit false

/-!
# The start of the port reservation server

The constructor ends for every range of ports but the whole one: a counter of 16
bits is below 65536 forever.
-/
namespace NetServices.PRS

section
variable (startingClientPort : UInt16)

/-- The counter and the array where the loop tests its counter. -/
inductive LoopHead (numPorts : ℕ) : UInt16 → List (Option PortReservation) → Prop where
  | first : LoopHead numPorts 0 (List.replicate numPorts none)
  | next {i : UInt16} {ports : List (Option PortReservation)} (head : LoopHead numPorts i ports)
      (test : i.toNat < numPorts) : LoopHead numPorts (i + 1)
        (ports.set i.toNat (some (.new (startingClientPort + i))))

theorem LoopHead.length {numPorts : ℕ} {i : UInt16} {ports : List (Option PortReservation)}
    (h : LoopHead startingClientPort numPorts i ports) : ports.length = numPorts := by
  induction h with
  | first => exact List.length_replicate
  | next _ _ ih => rw [List.length_set, ih]

/-- The loop ends with the array of a failed test. -/
theorem LoopHead.exit {numPorts fuel : ℕ} {i : UInt16}
    {ports filled : List (Option PortReservation)}
    (h : LoopHead startingClientPort numPorts i ports)
    (hloop : initLoop startingClientPort fuel i ports = some filled) :
    ∃ j, LoopHead startingClientPort numPorts j filled ∧ numPorts ≤ j.toNat := by
  induction fuel generalizing i ports with
  | zero => cases hloop
  | succ fuel ih =>
    rw [initLoop, h.length] at hloop
    split_ifs at hloop with htest
    · exact ih (h.next htest) hloop
    · obtain rfl := Option.some.inj hloop
      exact ⟨i, h, Nat.le_of_not_lt htest⟩

theorem toNat_succ {i : UInt16} (h : i.toNat < 65535) : (i + 1).toNat = i.toNat + 1 := by
  rw [UInt16.toNat_add]
  change (i.toNat + 1) % 65536 = _
  omega

theorem initLoop_mono {fuel fuel' : ℕ} {i : UInt16} {ports filled : List (Option PortReservation)}
    (h : initLoop startingClientPort fuel i ports = some filled) (hle : fuel ≤ fuel') :
    initLoop startingClientPort fuel' i ports = some filled := by
  induction fuel generalizing fuel' i ports with
  | zero => cases h
  | succ fuel ih =>
    obtain ⟨fuel', rfl⟩ := Nat.exists_eq_add_of_le' (Nat.le_trans (Nat.succ_pos fuel) hle)
    rw [initLoop] at h ⊢
    split_ifs at h ⊢ with htest
    · exact ih h (Nat.le_of_succ_le_succ hle)
    · exact h

/-- A turn for each entry that is left, and the last test. -/
theorem initLoop_ends (fuel : ℕ) (i : UInt16) {ports : List (Option PortReservation)}
    (hsize : ports.length ≤ 65535) (hfuel : ports.length - i.toNat < fuel) :
    ∃ filled, initLoop startingClientPort fuel i ports = some filled := by
  induction fuel generalizing i ports with
  | zero => exact absurd hfuel (Nat.not_lt_zero _)
  | succ fuel ih =>
    rw [initLoop]
    split_ifs with htest
    · refine ih (i + 1) (by rwa [List.length_set]) ?_
      rw [List.length_set, toNat_succ (Nat.lt_of_lt_of_le htest hsize)]
      omega
    · exact ⟨ports, rfl⟩

theorem initLoop_stuck (fuel : ℕ) (i : UInt16) {ports : List (Option PortReservation)}
    (hsize : ports.length = 65536) : initLoop startingClientPort fuel i ports = none := by
  induction fuel generalizing i ports with
  | zero => rfl
  | succ fuel ih =>
    rw [initLoop, if_pos (hsize ▸ i.toNat_lt)]
    exact ih (i + 1) (by rwa [List.length_set])

end

theorem exists_mapM_id {α : Type} {l : List (Option α)} (h : none ∉ l) :
    ∃ as, l.mapM id = some as := by
  induction l with
  | nil => exact ⟨[], rfl⟩
  | cons x l ih =>
    rw [List.mem_cons, not_or] at h
    obtain ⟨a, rfl⟩ := Option.ne_none_iff_exists'.mp (Ne.symm h.1)
    obtain ⟨as, has⟩ := ih h.2
    exact ⟨a :: as, by rw [List.mapM_cons, has]; rfl⟩

theorem construct_ends {start ending : UInt16} (timeout : ℤ) (h : start ≤ ending)
    (hsize : ending.toNat - start.toNat < 65535) : ∃ prs, ∀ fuel,
      ending.toNat - start.toNat + 1 < fuel → construct fuel start ending timeout = some prs := by
  have hle := UInt16.le_iff_toNat_le.mp h
  have hnum : ((ending.toNat : ℤ) - start.toNat + 1).toNat = ending.toNat - start.toNat + 1 := by
    omega
  have hlength : (List.replicate (ending.toNat - start.toNat + 1)
      (none : Option PortReservation)).length = ending.toNat - start.toNat + 1 :=
    List.length_replicate
  obtain ⟨filled, hloop⟩ := initLoop_ends start (ending.toNat - start.toNat + 2) 0
    (hlength.trans_le hsize) (by rw [hlength]; exact Nat.lt_succ_self _)
  have hfull : none ∉ filled := by
    intro hnone
    obtain ⟨j, hj⟩ := List.mem_iff_getElem?.mp hnone
    obtain ⟨-, hfilled⟩ := initLoop_filled start hloop fun j hj => nomatch hj
    cases hfilled j none hj
  obtain ⟨ports, hports⟩ := exists_mapM_id hfull
  refine ⟨⟨start, ending, timeout, ports, false⟩, fun fuel hfuel => ?_⟩
  have hloop' := initLoop_mono start hloop hfuel
  simp only [construct, guard, hnum, hloop', Option.bind_eq_bind, Option.pure_def]
  rw [if_pos (by omega), Option.bind_some, Option.bind_some, hports, Option.bind_some]

theorem construct_stuck (fuel : ℕ) (timeout : ℤ) : construct fuel 0 65535 timeout = none := by
  have hsize : (List.replicate 65536 (none : Option PortReservation)).length = 65536 :=
    List.length_replicate
  have hloop := initLoop_stuck 0 fuel 0 hsize
  have hnum : ((65535 : UInt16).toNat - (0 : UInt16).toNat + 1 : ℤ).toNat = 65536 := rfl
  simp only [construct, hnum, hloop, Option.bind_eq_bind, Option.bind_none, Option.bind_fun_none]

/-- For a range that the program accepts, the constructor ends with one entry for each port,
    in order, exactly if the range is not all of the ports. Whether or not it ends, every
    index is within the array. -/
theorem construct_ends_iff {start ending : UInt16} (timeout : ℤ) (h : start ≤ ending) :
    ((∃ prs, (∀ fuel, ending.toNat - start.toNat + 1 < fuel →
        construct fuel start ending timeout = some prs) ∧
        prs.ports.length = ending.toNat - start.toNat + 1 ∧
        ∀ (i : ℕ) (r : PortReservation), prs.ports[i]? = some r →
          r.port.toNat = start.toNat + i) ↔ ¬ (start = 0 ∧ ending = 65535)) ∧
    ∀ (i : UInt16) (ports : List (Option PortReservation)),
      LoopHead start (ending.toNat - start.toNat + 1) i ports →
      i.toNat < ending.toNat - start.toNat + 1 → i.toNat < ports.length := by
  have hle := UInt16.le_iff_toNat_le.mp h
  refine ⟨⟨?_, fun hpart => ?_⟩, fun i ports hhead htest => hhead.length.symm ▸ htest⟩
  · rintro ⟨prs, hends, -⟩ ⟨rfl, rfl⟩
    have hdone := hends 65537 (by decide)
    rw [construct_stuck] at hdone
    cases hdone
  · have hsize : ending.toNat - start.toNat < 65535 := by
      have hend := ending.toNat_lt
      by_contra hall
      refine hpart ⟨UInt16.toNat_inj.mp ?_, UInt16.toNat_inj.mp ?_⟩
      · change start.toNat = 0
        omega
      · change ending.toNat = 65535
        omega
    obtain ⟨prs, hends⟩ := construct_ends timeout h hsize
    have hdone := hends _ (Nat.lt_succ_self _)
    obtain ⟨hstart, hending, -, -, hlength, -⟩ := construct_spec hdone
    refine ⟨prs, hends, by omega, fun i r hr => ?_⟩
    rw [(construct_inv hdone 0).port_toNat hr, hstart]

theorem construct_ends_iff_two :
    ((∃ prs, (∀ fuel, 2 < fuel → construct fuel 65534 65535 10 = some prs) ∧
        prs.ports.length = 2 ∧ ∀ (i : ℕ) (r : PortReservation), prs.ports[i]? = some r →
          r.port.toNat = 65534 + i) ↔ ¬ ((65534 : UInt16) = 0 ∧ (65535 : UInt16) = 65535)) ∧
    ∀ (i : UInt16) (ports : List (Option PortReservation)),
      LoopHead 65534 2 i ports → i.toNat < 2 → i.toNat < ports.length :=
  construct_ends_iff 10 (show (65534 : UInt16) ≤ 65535 by decide)

/-- The program accepts the range of all ports, and the constructor does not end. -/
theorem all_ports_stuck : (0 : UInt16) ≤ 65535 ∧ ∀ fuel, construct fuel 0 65535 10 = none :=
  ⟨by decide, fun fuel => construct_stuck fuel 10⟩

end NetServices.PRS
