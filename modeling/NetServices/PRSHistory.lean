import NetServices.PRSRegistry

set_option autoImplicit false

/-!
# What the exchanges say

The state of the server is not needed to tell its next answer: a service holds a
port if the last exchange that touched the port granted or refreshed it for the
service, no longer ago than the timeout.
-/
namespace NetServices.PRS
open Machine (Since)
open Leases (lowest)
open Utf16 (Str lit)

namespace Exchange

def Grants (serviceName : Str) (port : UInt16) (x : Exchange) : Prop :=
  x.Asks .requestPort serviceName ∧ x.AnsweredPort .success port

def Closes (port : UInt16) (x : Exchange) : Prop :=
  x.1.2.msgType = .closePort ∧ x.1.2.port = port ∧ x.Answered .success

/-- The port is granted or refreshed for the service. -/
def Leases (serviceName : Str) (port : UInt16) (x : Exchange) : Prop :=
  x.Grants serviceName port ∨ x.Refreshes serviceName port

/-- The exchange decides about the port. -/
def Decides (port : UInt16) (x : Exchange) : Prop :=
  (∃ serviceName, x.Leases serviceName port) ∨ x.Closes port

theorem answeredPort_iff {x : Exchange} {name : Str} {port port' : UInt16}
    {status status' : Status} (h : x.2 = some (response name port status)) :
    x.AnsweredPort status' port' ↔ status = status' ∧ port = port' := by
  rw [AnsweredPort, h, Option.map_some, Option.some.injEq, Prod.mk.injEq]
  exact Iff.rfl

theorem answered_iff {x : Exchange} {name : Str} {port : UInt16} {status status' : Status}
    (h : x.2 = some (response name port status)) : x.Answered status' ↔ status = status' := by
  rw [Answered, h, Option.map_some, Option.some.injEq]
  exact Iff.rfl

theorem effect_leases_iff {x : Exchange} {serviceName : Str} {port : UInt16} :
    x.effect = some ⟨port, some serviceName⟩ ↔ x.Leases serviceName port := by
  obtain ⟨⟨now, type, name, p, status⟩, reply⟩ := x
  unfold effect Leases Grants Refreshes Asks AnsweredPort Answered
  cases type <;> rcases reply with _ | ⟨_, _, q, status'⟩ <;> try simp
  all_goals cases status' <;> simp [and_comm]

theorem effect_closes_iff {x : Exchange} {port : UInt16} :
    x.effect = some ⟨port, none⟩ ↔ x.Closes port := by
  obtain ⟨⟨now, type, name, p, status⟩, reply⟩ := x
  unfold effect Closes Answered
  cases type <;> rcases reply with _ | ⟨_, _, q, status'⟩ <;> try simp
  all_goals cases status' <;> simp

theorem touches_iff {x : Exchange} {port : UInt16} :
    Leases.Registry.Touches effect port x ↔ x.Decides port := by
  constructor
  · rintro ⟨owner, h⟩
    cases owner with
    | none => exact .inr (effect_closes_iff.mp h)
    | some serviceName => exact .inl ⟨serviceName, effect_leases_iff.mp h⟩
  · rintro (⟨serviceName, h⟩ | h)
    · exact ⟨_, effect_leases_iff.mpr h⟩
    · exact ⟨_, effect_closes_iff.mpr h⟩

end Exchange

/-- The service holds the port at time `now`. -/
def Holds (offer : Offer) (history : List Exchange) (now : DateTime) (serviceName : Str)
    (port : UInt16) : Prop :=
  Since (fun x => x.Leases serviceName port ∧ ¬ offer.term.Over x.1.1 now)
    (Exchange.Decides port) history

/-- The registry that the exchanges lead to. -/
def registry (history : List Exchange) : Registry :=
  Leases.Registry.after (fun x => x.1.1) Exchange.effect history

theorem holds_iff {offer : Offer} {history : List Exchange} {now : DateTime}
    {serviceName : Str} {port : UInt16} :
    (registry history).OwnedBy offer.term now port serviceName ↔
      Holds offer history now serviceName port := by
  unfold registry Holds
  rw [Leases.Registry.after_ownedBy_iff]
  simp only [Since, Exchange.effect_leases_iff, Exchange.touches_iff]

theorem registry_concat (history : List Exchange) (x : Exchange) :
    registry (history ++ [x]) = (registry history).apply x.1.1 x.effect :=
  Leases.Registry.after_concat _ _ history x

theorem Represents.run {offer : Offer} {t : DateTime} {prs : PRS} {history : List Exchange}
    (h : Represents offer t prs (registry history)) {before after : List Input} {x : Input}
    (hclock : Clock.From Prod.fst t (before ++ x :: after)) :
    ∃ t', t' ≤ x.1 ∧ Represents offer t' (Machine.final step prs before)
      (registry (history ++ Machine.trace step prs before)) := by
  induction before generalizing prs t history with
  | nil =>
    obtain ⟨ht, -⟩ := Clock.from_cons.mp hclock
    refine ⟨t, ht, ?_⟩
    rw [Machine.trace, List.append_nil]
    exact h
  | cons y before ih =>
    obtain ⟨ht, hrest⟩ := Clock.from_cons.mp hclock
    obtain ⟨hanswer, hnext⟩ := h.handleMessage ht y.2
    have hregistry : (offer.step (registry history) y).2 =
        registry (history ++ [(y, (step prs y).1)]) := by
      rw [registry_concat]
      exact congrArg (fun reply => (registry history).apply y.1 (Exchange.effect (y, reply)))
        hanswer.symm
    rw [hregistry] at hnext
    obtain ⟨t', ht', hrep⟩ := ih hnext hrest
    refine ⟨t', ht', ?_⟩
    rw [List.append_assoc] at hrep
    exact hrep

/-- A name holds one port at a time. -/
theorem Represents.unique {offer : Offer} {t now : DateTime} {prs : PRS} {reg : Registry}
    (h : Represents offer t prs reg) (ht : t ≤ now) {serviceName : Str} {port port' : UInt16}
    (howned : reg.OwnedBy offer.term now port serviceName)
    (howned' : reg.OwnedBy offer.term now port' serviceName) : port = port' := by
  obtain ⟨hinv, rfl, hsame⟩ := h
  obtain ⟨refreshed, hl⟩ := (hsame.ownedBy_iff ht port serviceName).mpr howned
  obtain ⟨refreshed', hl'⟩ := (hsame.ownedBy_iff ht port' serviceName).mpr howned'
  obtain ⟨r, hr, hlive, rfl, heq⟩ := hinv.inForce_iff.mp hl
  obtain ⟨r', hr', hlive', rfl, heq'⟩ := hinv.inForce_iff.mp hl'
  obtain ⟨i, hi⟩ := List.mem_iff_getElem?.mp hr
  obtain ⟨j, hj⟩ := List.mem_iff_getElem?.mp hr'
  have hname : r.serviceName = r'.serviceName :=
    (Leases.Lease.mk.inj heq).1.symm.trans (Leases.Lease.mk.inj heq').1
  obtain rfl := hinv.unique i j r r' hi hj hlive.1 hlive'.1 hname
  rw [Option.some.inj (hi.symm.trans hj)]

section
variable {fuel : ℕ} {start ending : UInt16} {timeout : ℤ} {prs : PRS}

/-- The state in which a message is handled stands for the registry of the exchanges before. -/
theorem represents_before (h : construct fuel start ending timeout = some prs)
    {run : List Input} (hclock : Clock.From Prod.fst 0 run) {before after : List Exchange}
    {x : Exchange} (hrun : Machine.trace step prs run = before ++ x :: after) :
    ∃ t prs', t ≤ x.1.1 ∧ Represents ⟨start, ending, timeout⟩ t prs' (registry before) ∧
      x.2 = (prs'.handleMessage x.1.1 x.1.2).1 := by
  obtain ⟨js, ks, rfl, rfl, hreply, -⟩ := Machine.trace_split step hrun
  have hnew : Represents ⟨start, ending, timeout⟩ 0 prs (registry []) := represents_constructed h
  obtain ⟨t, ht, hrep⟩ := hnew.run hclock
  exact ⟨t, _, ht, hrep, hreply⟩

end

section
variable {offer : Offer} {reg : Registry} {x : Exchange}

/-- A request names the port that the service holds, else grants the lowest free one. -/
theorem request_answer (type : x.1.2.msgType = .requestPort)
    (hreply : x.2 = offer.answer reg x.1.1 x.1.2)
    (hunique : ∀ p q, reg.OwnedBy offer.term x.1.1 p x.1.2.serviceName →
      reg.OwnedBy offer.term x.1.1 q x.1.2.serviceName → p = q) :
    (∀ p, x.AnsweredPort .serviceInUse p ↔ reg.OwnedBy offer.term x.1.1 p x.1.2.serviceName) ∧
    (∀ p, x.AnsweredPort .success p ↔
      (∀ q, ¬ reg.OwnedBy offer.term x.1.1 q x.1.2.serviceName) ∧ p ∈ offer.free reg x.1.1 ∧
        ∀ q ∈ offer.free reg x.1.1, p.toNat ≤ q.toNat) ∧
    (x.Answered .allPortsBusy ↔ (∀ q, ¬ reg.OwnedBy offer.term x.1.1 q x.1.2.serviceName) ∧
      ∀ q, q ∉ offer.free reg x.1.1) := by
  rw [Offer.answer, type] at hreply
  cases howned : lowest rank {p | reg.OwnedBy offer.term x.1.1 p x.1.2.serviceName} with
  | some port =>
    simp only [howned] at hreply
    obtain ⟨hport, -⟩ := (Leases.lowest_eq_some_iff rank).mp howned
    simp only [Exchange.answeredPort_iff hreply, Exchange.answered_iff hreply]
    refine ⟨fun p => ⟨?_, fun hp => ⟨trivial, hunique port p hport hp⟩⟩, fun p => ?_, ?_⟩
    · rintro ⟨-, rfl⟩
      exact hport
    · exact iff_of_false (fun hp => by cases hp.1) fun hp => hp.1 port hport
    · exact iff_of_false (by decide) fun hp => hp.1 port hport
  | none =>
    simp only [howned] at hreply
    have hno := (Leases.lowest_eq_none_iff rank).mp howned
    cases hfree : lowest rank (offer.free reg x.1.1) with
    | some port =>
      simp only [hfree] at hreply
      have hport := (Leases.lowest_eq_some_iff rank).mp hfree
      simp only [Exchange.answeredPort_iff hreply, Exchange.answered_iff hreply]
      refine ⟨fun p => iff_of_false (fun hp => by cases hp.1) (hno p), fun p => ⟨?_, ?_⟩, ?_⟩
      · rintro ⟨-, rfl⟩
        exact ⟨hno, hport⟩
      · rintro ⟨-, hp⟩
        have hlowest := (Leases.lowest_eq_some_iff rank).mpr hp
        exact ⟨trivial, Option.some.inj (hfree.symm.trans hlowest)⟩
      · exact iff_of_false (by decide) fun hp => hp.2 port hport.1
    | none =>
      simp only [hfree] at hreply
      have hfull := (Leases.lowest_eq_none_iff rank).mp hfree
      simp only [Exchange.answeredPort_iff hreply, Exchange.answered_iff hreply]
      refine ⟨fun p => iff_of_false (fun hp => by cases hp.1) (hno p), fun p => ?_, ?_⟩
      · exact iff_of_false (fun hp => by cases hp.1) fun hp => hfull p hp.2.1
      · exact iff_of_true trivial ⟨hno, hfull⟩

theorem keepAlive_answer (type : x.1.2.msgType = .keepAlive)
    (hreply : x.2 = offer.answer reg x.1.1 x.1.2) :
    (x.Answered .success ↔ reg.OwnedBy offer.term x.1.1 x.1.2.port x.1.2.serviceName) ∧
    (x.Answered .serviceNotFound ↔
      ¬ reg.OwnedBy offer.term x.1.1 x.1.2.port x.1.2.serviceName) := by
  rw [Offer.answer, type] at hreply
  simp only [Exchange.answered_iff hreply]
  split_ifs with howned <;> simp [howned]

theorem closePort_answer (type : x.1.2.msgType = .closePort)
    (hreply : x.2 = offer.answer reg x.1.1 x.1.2) :
    (x.Answered .success ↔ x.1.2.port ≠ 0 ∧ ¬ reg.Free offer.term x.1.1 x.1.2.port) ∧
    (x.Answered .serviceNotFound ↔
      ¬ (x.1.2.port ≠ 0 ∧ ¬ reg.Free offer.term x.1.1 x.1.2.port)) := by
  rw [Offer.answer, type] at hreply
  simp only [Exchange.answered_iff hreply]
  split_ifs with hleased
  · exact ⟨iff_of_true rfl hleased, iff_of_false (by decide) (not_not.mpr hleased)⟩
  · exact ⟨iff_of_false (by decide) hleased, iff_of_true rfl hleased⟩

theorem lookup_answer (type : x.1.2.msgType = .lookupPort)
    (hreply : x.2 = offer.answer reg x.1.1 x.1.2) (hname : x.1.2.serviceName ≠ [])
    (hunique : ∀ p q, reg.OwnedBy offer.term x.1.1 p x.1.2.serviceName →
      reg.OwnedBy offer.term x.1.1 q x.1.2.serviceName → p = q) :
    (∀ p, x.AnsweredPort .success p ↔ reg.OwnedBy offer.term x.1.1 p x.1.2.serviceName) ∧
    (x.Answered .serviceNotFound ↔
      ∀ p, ¬ reg.OwnedBy offer.term x.1.1 p x.1.2.serviceName) := by
  have hknown : ∀ p, p ∈ offer.known reg x.1.1 x.1.2.serviceName ↔
      reg.OwnedBy offer.term x.1.1 p x.1.2.serviceName := fun p =>
    or_iff_left fun hempty => hname hempty.1
  rw [Offer.answer, type] at hreply
  cases hlowest : lowest rank (offer.known reg x.1.1 x.1.2.serviceName) with
  | some port =>
    simp only [hlowest] at hreply
    have hport := (hknown port).mp ((Leases.lowest_eq_some_iff rank).mp hlowest).1
    simp only [Exchange.answeredPort_iff hreply, Exchange.answered_iff hreply]
    refine ⟨fun p => ⟨?_, fun hp => ⟨trivial, hunique port p hport hp⟩⟩, ?_⟩
    · rintro ⟨-, rfl⟩
      exact hport
    · exact iff_of_false (by decide) fun hno => hno port hport
  | none =>
    simp only [hlowest] at hreply
    have hno : ∀ p, ¬ reg.OwnedBy offer.term x.1.1 p x.1.2.serviceName := fun p hp =>
      (Leases.lowest_eq_none_iff rank).mp hlowest p ((hknown p).mpr hp)
    simp only [Exchange.answeredPort_iff hreply, Exchange.answered_iff hreply]
    exact ⟨fun p => iff_of_false (fun hp => by cases hp.1) (hno p), iff_of_true trivial hno⟩

end

section
variable {fuel : ℕ} {start ending : UInt16} {timeout : ℤ} {prs : PRS}

theorem free_iff {offer : Offer} {history : List Exchange} {now : DateTime} {port : UInt16} :
    (registry history).Free offer.term now port ↔
      ∀ serviceName, ¬ Holds offer history now serviceName port :=
  forall_congr' fun _ => not_congr holds_iff

/-- Every message of a run is answered as the exchanges before it say: who holds which port,
    and which is the lowest port that nobody holds. -/
theorem answered_by_history (h : construct fuel start ending timeout = some prs)
    {run : List Input} (hclock : Clock.From Prod.fst 0 run) {before after : List Exchange}
    {x : Exchange} (hrun : Machine.trace step prs run = before ++ x :: after) :
    let offer : Offer := ⟨start, ending, timeout⟩
    let serviceName := x.1.2.serviceName
    let Held := Holds offer before x.1.1
    (x.1.2.msgType = .requestPort →
      (∀ port, x.AnsweredPort .serviceInUse port ↔ Held serviceName port) ∧
      (∀ port, x.AnsweredPort .success port ↔ (∀ q, ¬ Held serviceName q) ∧ offer.Has port ∧
        (∀ name, ¬ Held name port) ∧
        ∀ q, offer.Has q → (∀ name, ¬ Held name q) → port.toNat ≤ q.toNat) ∧
      (x.Answered .allPortsBusy ↔ (∀ q, ¬ Held serviceName q) ∧
        ∀ q, offer.Has q → ∃ name, Held name q)) ∧
    (x.1.2.msgType = .keepAlive → (x.Answered .success ↔ Held serviceName x.1.2.port) ∧
      (x.Answered .serviceNotFound ↔ ¬ Held serviceName x.1.2.port)) ∧
    (x.1.2.msgType = .closePort →
      (x.Answered .success ↔ x.1.2.port ≠ 0 ∧ ∃ name, Held name x.1.2.port) ∧
      (x.Answered .serviceNotFound ↔ ¬ (x.1.2.port ≠ 0 ∧ ∃ name, Held name x.1.2.port))) ∧
    (x.1.2.msgType = .lookupPort → serviceName ≠ [] →
      (∀ port, x.AnsweredPort .success port ↔ Held serviceName port) ∧
      (x.Answered .serviceNotFound ↔ ∀ port, ¬ Held serviceName port)) := by
  intro offer serviceName Held
  obtain ⟨t, prs', ht, hrep, hreply⟩ := represents_before h hclock hrun
  rw [(hrep.handleMessage ht x.1.2).1] at hreply
  change x.2 = offer.answer (registry before) x.1.1 x.1.2 at hreply
  have hunique := fun p q => @hrep.unique _ _ x.1.1 _ _ ht serviceName p q
  have hheld : ∀ port, ¬ (registry before).Free offer.term x.1.1 port ↔
      ∃ name, Held name port := fun port => by rw [free_iff, not_forall_not]
  have hfree : ∀ port, port ∈ offer.free (registry before) x.1.1 ↔
      offer.Has port ∧ ∀ name, ¬ Held name port := fun port => and_congr_right fun _ => free_iff
  refine ⟨fun type => ?_, fun type => ?_, fun type => ?_, fun type hname => ?_⟩
  · have hanswer := request_answer type hreply hunique
    simpa only [hfree, holds_iff, not_and, not_forall_not, and_assoc, and_imp] using hanswer
  · have hanswer := keepAlive_answer type hreply
    simpa only [holds_iff] using hanswer
  · have hanswer := closePort_answer type hreply
    simpa only [hheld] using hanswer
  · have hanswer := lookup_answer type hreply hname hunique
    simpa only [holds_iff] using hanswer

/-- A service that is looked up within the timeout holds the port that is answered. -/
theorem answered_by_history_lookup :
    Holds ⟨40000, 40000, 10⟩ [((0, ⟨.requestPort, lit "A", 0, .success⟩),
      some ⟨.response, lit "A", 40000, .success⟩)] 100000000 (lit "A") 40000 :=
  (((@answered_by_history 2 40000 40000 10 ⟨40000, 40000, 10, [.new 40000], false⟩ (by decide)
    [(0, ⟨.requestPort, lit "A", 0, .success⟩), (100000000, ⟨.lookupPort, lit "A", 0, .success⟩)]
    (by simp [Clock.From]) _ []
    ((100000000, ⟨.lookupPort, lit "A", 0, .success⟩), some ⟨.response, lit "A", 40000, .success⟩)
    (by decide)).2.2.2 rfl (by decide)).1 40000).mp rfl

/-- Between two grants of one port it is closed, or lies idle for longer than the timeout. -/
theorem granted_exclusively (h : construct fuel start ending timeout = some prs)
    {run : List Input} (hclock : Clock.From Prod.fst 0 run)
    {before between after : List Exchange} {x y : Exchange}
    (hrun : Machine.trace step prs run = before ++ x :: (between ++ y :: after))
    {serviceName serviceName' : Str} {port : UInt16} (hx : x.Grants serviceName port)
    (hy : y.Grants serviceName' port) :
    (∃ z ∈ between, z.Closes port) ∨
      ∀ z ∈ x :: between, (∃ name, z.Leases name port) →
        timeout * DateTime.ticksPerSecond < (y.1.1 : ℤ) - (z.1.1 : ℤ) := by
  have hsplit : Machine.trace step prs run = (before ++ x :: between) ++ y :: after := by
    rw [hrun, List.append_assoc, List.cons_append]
  obtain ⟨t, prs', ht, hrep, hreply⟩ := represents_before h hclock hsplit
  rw [(hrep.handleMessage ht y.1.2).1] at hreply
  have hanswer := request_answer hy.1.1 hreply fun p q => hrep.unique ht
  have hfree := ((hanswer.2.1 port).mp hy.2).2.1.2
  have hchain : (x :: between).Pairwise fun y z => y.1.1 ≤ z.1.1 := by
    have hinputs := congrArg (List.map Prod.fst) hrun
    rw [Machine.trace_inputs] at hinputs
    rw [hinputs, Clock.From, List.isChain_iff_pairwise] at hclock
    have hentries := hclock.of_cons
    rw [List.map_map, List.pairwise_map, ← List.cons_append] at hentries
    exact (List.pairwise_append.mp (List.pairwise_append.mp hentries).2.1).1
  have hcases := Leases.Registry.unleased_of_free (Exchange.effect_leases_iff.mpr (.inl hx)) hchain
    hfree
  simp only [Exchange.effect_closes_iff, Exchange.effect_leases_iff] at hcases
  exact hcases

theorem granted_exclusively_lapsed :
    let x : Exchange := ((0, ⟨.requestPort, lit "A", 0, .success⟩),
      some ⟨.response, lit "A", 40000, .success⟩)
    (∃ z ∈ ([] : List Exchange), z.Closes 40000) ∨
      ∀ z ∈ [x], (∃ name, z.Leases name 40000) →
        (10 : ℤ) * DateTime.ticksPerSecond < ((100000001 : ℕ) : ℤ) - (z.1.1 : ℤ) := by
  intro x
  exact @granted_exclusively 2 40000 40000 10 ⟨40000, 40000, 10, [.new 40000], false⟩ (by decide)
    [(0, ⟨.requestPort, lit "A", 0, .success⟩), (100000001, ⟨.requestPort, lit "B", 0, .success⟩)]
    (by simp [Clock.From]) [] [] [] x
    ((100000001, ⟨.requestPort, lit "B", 0, .success⟩),
      some ⟨.response, lit "B", 40000, .success⟩)
    (by decide) (lit "A") (lit "B") 40000 ⟨⟨rfl, rfl⟩, rfl⟩ ⟨⟨rfl, rfl⟩, rfl⟩

end
end NetServices.PRS
