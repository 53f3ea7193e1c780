import NetServices.SDSessions

set_option autoImplicit false

/-!
# A connection has one session for good

The session of a connection is the first one that it is granted. Nothing that
any connection does later changes it, not even the end of the session.
-/
namespace NetServices.SDServer.System
open Utf16 (Str lit)

variable {κ : Type} {host : Host}

/-- The step grants the connection a session, be it opened or resumed. -/
def Accepts (newLine : Str) (c : κ) (id : UInt64) (x : Event κ × Answer) : Prop :=
  (∃ now, x.1 = .request c now) ∧ x.2.sent = (Reply.accepted id).text newLine

theorem executed_session {now : DateTime} {core core' : Core} {command : Command} {reply : Reply}
    (h : Executed host now core command reply core') :
    (core.sessionId = 0 ∧ reply = .accepted core'.sessionId ∧
      (core'.sessionId = core.table.nextSessionId ∨ core'.sessionId ∈ core.table.sessions)) ∨
    core'.sessionId = core.sessionId ∧ ∀ id, reply ≠ .accepted id := by
  cases h with
  | opened fresh => exact .inl ⟨fresh, rfl, .inl rfl⟩
  | resumed id fresh mem => exact .inl ⟨fresh, rfl, .inr mem⟩
  | read name session entry reply answer =>
    refine .inr ⟨rfl, fun id => ?_⟩
    rintro rfl
    simp at answer
  | filed name content reply files slash answer =>
    refine .inr ⟨rfl, fun id => ?_⟩
    rintro rfl
    simp at answer
  | closed | stored | rejected | refused => exact .inr ⟨rfl, nofun⟩

variable [DecidableEq κ]

/-- A step leaves a session that a connection has, and grants one only to a connection that
    has none. -/
theorem step_session {sys : System κ} {opened : ℕ} (h : sys.Inv opened) (e : Event κ) (c : κ) :
    ((sys.conns c).sessionId ≠ 0 →
      ((sys.step host e).2.conns c).sessionId = (sys.conns c).sessionId ∧
        ∀ id, ¬ Accepts host.newLine c id (e, (sys.step host e).1)) ∧
    ∀ id, Accepts host.newLine c id (e, (sys.step host e).1) →
      ((sys.step host e).2.conns c).sessionId = id ∧ id ≠ 0 := by
  have hs := step_stepped host sys e
  generalize (sys.step host e).1 = answer at hs ⊢
  generalize (sys.step host e).2 = sys' at hs ⊢
  cases hs with
  | ended c' now => exact ⟨fun _ => ⟨rfl, fun id hid => nomatch hid.2⟩, fun id hid => nomatch hid.2⟩
  | swept now => exact ⟨fun _ => ⟨rfl, fun id hid => nomatch hid.2⟩, fun id hid => nomatch hid.2⟩
  | silent c' now r ended =>
    refine ⟨fun _ => ⟨?_, fun id hid => nomatch hid.2⟩, fun id hid => nomatch hid.2⟩
    rw [after_conns]
    split_ifs with hc
    · rw [hc]
      rfl
    · rfl
  | executed c' now command reply core r ended running read effect =>
    rw [after_conns]
    by_cases hc : c = c'
    · subst hc
      rw [if_pos rfl]
      rcases executed_session effect with ⟨hzero, rfl, hid⟩ | ⟨hkept, hno⟩
      · refine ⟨fun hne => absurd hzero hne, fun id hid' => ?_⟩
        obtain rfl := Reply.accepted.inj (accepted_of_text hid'.2)
        refine ⟨rfl, ?_⟩
        rcases hid with hnext | hmem
        · intro hzero'
          have hcount := h.next
          change (sys.core c).table.nextSessionId.toNat = opened + 1 at hcount
          rw [← hnext, hzero'] at hcount
          cases hcount
        · exact (h.ids _ hmem).1
      · exact ⟨fun _ => ⟨hkept, fun id hid => hno id (accepted_of_text hid.2)⟩,
          fun id hid => absurd (accepted_of_text hid.2) (hno id)⟩
    · rw [if_neg hc]
      have hother : ∀ id, ¬ Accepts host.newLine c id
          (.request c' now, ⟨(sys.conns c').reader.readLine.1, reply.text host.newLine⟩) := by
        rintro id ⟨⟨now', hevent⟩, -⟩
        exact hc (Event.request.inj hevent).1.symm
      exact ⟨fun _ => ⟨rfl, hother⟩, fun id hid => absurd hid (hother id)⟩

theorem run_session (host : Host) {sys : System κ} {opened : ℕ} (h : sys.Inv opened)
    (events : List (Event κ))
    (hroom : opened + opens (Machine.trace (step host) sys events) + 1 < UInt64.size) (c : κ) :
    ((sys.conns c).sessionId ≠ 0 →
      ((Machine.final (step host) sys events).conns c).sessionId = (sys.conns c).sessionId ∧
        ∀ x ∈ Machine.trace (step host) sys events, ∀ id, ¬ Accepts host.newLine c id x) ∧
    (∀ x ∈ Machine.trace (step host) sys events, ∀ id, Accepts host.newLine c id x →
      ((Machine.final (step host) sys events).conns c).sessionId = id ∧ id ≠ 0) ∧
    (Machine.trace (step host) sys events).Pairwise fun x y => ∀ id id',
      ¬ (Accepts host.newLine c id x ∧ Accepts host.newLine c id' y) := by
  induction events generalizing sys opened with
  | nil => exact ⟨fun _ => ⟨rfl, fun x hx => nomatch hx⟩, fun x hx => (nomatch hx), .nil⟩
  | cons e events ih =>
    rw [Machine.trace, opens_cons] at hroom
    obtain ⟨opened', hopened, hinv, -⟩ := step_ids host h e fun hisOpen => by
      rw [if_pos hisOpen] at hroom
      omega
    obtain ⟨hbound, hgranted⟩ := @step_session κ host _ sys opened h e c
    obtain ⟨hstays, hlater, honce⟩ := ih hinv (by omega)
    refine ⟨fun hne => ?_, ?_, List.Pairwise.cons ?_ honce⟩
    · obtain ⟨hkept, hno⟩ := hbound hne
      obtain ⟨hfinal, hrest⟩ := hstays (hkept ▸ hne)
      refine ⟨hfinal.trans hkept, ?_⟩
      rintro x (_ | ⟨_, hx⟩)
      · exact hno
      · exact hrest x hx
    · rintro x (_ | ⟨_, hx⟩) id hid
      · obtain ⟨rfl, hne⟩ := hgranted id hid
        exact ⟨(hstays hne).1, hne⟩
      · exact hlater x hx id hid
    · rintro y hy id id' ⟨hid, hid'⟩
      obtain ⟨rfl, hne⟩ := hgranted id hid
      exact (hstays hne).2 y hy id' hid'

/-- In a run with fewer than 2 ^ 64 - 1 opens a connection is accepted at most once, and it
    keeps the session it was accepted for to the end. -/
theorem accepted_once (host : Host) (sessionTimeout : ℤ) (inputs : κ → TextReader.Reader)
    (events : List (Event κ))
    (hopens : opens (Machine.trace (step host) (fresh sessionTimeout inputs) events) <
      UInt64.size - 1) (c : κ) :
    ((Machine.trace (step host) (fresh sessionTimeout inputs) events).Pairwise fun x y =>
      ∀ id id', ¬ (Accepts host.newLine c id x ∧ Accepts host.newLine c id' y)) ∧
    ∀ x ∈ Machine.trace (step host) (fresh sessionTimeout inputs) events, ∀ id,
      Accepts host.newLine c id x → id ≠ 0 ∧
        ((Machine.final (step host) (fresh sessionTimeout inputs) events).conns c).sessionId =
          id := by
  obtain ⟨-, hgranted, honce⟩ := run_session host (fresh_inv sessionTimeout inputs) events
    (by omega) c
  exact ⟨honce, fun x hx id hid => (hgranted x hx id hid).symm⟩

/-- A connection that opens a session and asks to resume another one. -/
theorem accepted_once_resume :
    let inputs : Bool → TextReader.Reader := fun c =>
      if c then ⟨lit "open\nresume\n1\n", []⟩ else ⟨lit "open\n", []⟩
    let events := [Event.request false 0, .request true 0, .request true 1]
    ((Machine.final (step .unix) (fresh 100 inputs) events).conns true).sessionId = 2 := by
  intro inputs events
  have hopens : opens (Machine.trace (step .unix) (fresh 100 inputs) events) = 2 := by decide
  refine ((accepted_once .unix 100 inputs events ?_ true).2
    (.request true 0, ⟨some (lit "open"), (Reply.accepted 2).text Host.unix.newLine⟩) ?_ 2
    ⟨⟨0, rfl⟩, rfl⟩).2
  · rw [hopens]
    decide
  · exact List.mem_cons_of_mem _ List.mem_cons_self

end NetServices.SDServer.System
