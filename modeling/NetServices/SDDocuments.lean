import NetServices.SDSessions

set_option autoImplicit false

/-!
# Posted documents are read back

A document in a session stays as it was posted until the session goes away or
the name is posted again, whatever else happens on the session table.
-/
namespace NetServices.SDServer
open Utf16 (Str lit)

/-- What a command leaves of a document: it is still there, or the command opened
    its session anew, closed it, or stored another document in its place. -/
theorem executed_value {host : Host} {now : DateTime} {core core' : Core} {command : Command}
    {reply : Reply} (h : Executed host now core command reply core') {n : UInt64} {k v : Str}
    (hv : core.table.value n k = some v) :
    core'.table.value n k = some v ∨ (command = .open ∧ reply = .accepted n) ∨
      reply = .closed n ∨
      ∃ content, command = .post k content ∧ reply = .success ∧ core.sessionId = n := by
  cases h with
  | opened fresh =>
    by_cases hn : n = core.table.nextSessionId
    · exact .inr (.inl ⟨rfl, by rw [hn]⟩)
    · refine .inl ?_
      rw [← hv]
      simp only [SessionTable.value, SessionTable.openSession, AList.lookup_insert_ne hn]
  | closed id mem =>
    by_cases hn : n = core.sessionId
    · exact .inr (.inr (.inl (by rw [hn])))
    · refine .inl ?_
      rw [← hv]
      simp only [SessionTable.value, AList.lookup_erase_ne hn]
  | read name session entry reply answer =>
    refine .inl ?_
    rw [← hv]
    by_cases hn : n = core.sessionId
    · subst hn
      simp only [SessionTable.value, AList.lookup_insert, entry]
      rfl
    · simp only [SessionTable.value, AList.lookup_insert_ne hn]
  | stored name content session entry plain =>
    by_cases hn : n = core.sessionId
    · by_cases hk : k = name
      · exact .inr (.inr (.inr ⟨content, by rw [hk], rfl, hn.symm⟩))
      · refine .inl ?_
        subst hn
        rw [← hv]
        simp only [SessionTable.value, AList.lookup_insert, entry]
        exact AList.lookup_insert_ne hk
    · refine .inl ?_
      rw [← hv]
      simp only [SessionTable.value, AList.lookup_insert_ne hn]
  | resumed | filed | rejected | refused => exact .inl hv

/-- A get is answered with a document or with an error. -/
theorem get_reply (now : DateTime) (core : Core) (name : Str) :
    (∃ content, (core.get now name).1 = .document name content) ∨
      ∃ message, (core.get now name).1 = .error message := by
  have heffect := @get_executed .unix now core name
  generalize (core.get now name).1 = reply at *
  generalize (core.get now name).2 = core' at heffect
  cases heffect with
  | read name session entry reply answer =>
    rcases answer with rfl | ⟨message, rfl⟩
    · exact .inl ⟨_, rfl⟩
    · exact .inr ⟨message, rfl⟩
  | refused => exact .inr ⟨_, rfl⟩

/-- An empty document is stored and answered with an error. -/
theorem get_stored {core : Core} (now : DateTime) {k v : Str} (hid : core.sessionId ≠ 0)
    (hk : k ≠ []) (hv : core.table.value core.sessionId k = some v) : (core.get now k).1 =
      if v = [] then .error (lit "Document was empty or does not exist") else .document k v := by
  obtain ⟨entry, hentry, hget⟩ :=
    SessionTable.getSessionValue_live now k (SessionTable.mem_of_value hv)
  simp only [Core.get, if_neg hid, if_neg hk, hget, hv, Option.getD_some]
  split_ifs <;> rfl

/-- A document that a get is answered with is the one that is stored. -/
theorem get_document_iff {core : Core} (now : DateTime) {k v : Str} (hid : core.sessionId ≠ 0)
    (hk : k ≠ []) : (core.get now k).1 = .document k v ↔
      v ≠ [] ∧ core.table.value core.sessionId k = some v := by
  constructor
  · intro h
    by_cases hmem : core.sessionId ∈ core.table.sessions
    · obtain ⟨session, hentry, hget⟩ := SessionTable.getSessionValue_live now k hmem
      simp only [Core.get, if_neg hid, if_neg hk, hget] at h
      split_ifs at h with hv
      obtain rfl := (Reply.document.inj h).2
      refine ⟨hv, ?_⟩
      cases hvalue : core.table.value core.sessionId k with
      | none =>
        rw [hvalue] at hv
        exact absurd rfl hv
      | some w => rfl
    · have hget := SessionTable.getSessionValue_dead now k hmem
      simp only [Core.get, if_neg hid, if_neg hk, hget] at h
      cases h
  · rintro ⟨hv, hvalue⟩
    rw [get_stored now hid hk hvalue, if_neg hv]

namespace System

variable {κ : Type} {host : Host} [DecidableEq κ]

/-- A connection with session `n` is about to read the command. -/
structure Requests (sys : System κ) (c : κ) (n : UInt64) (command : Command) : Prop where
  running : (sys.conns c).ended = false
  session : (sys.conns c).sessionId = n
  read : (nextCommand n (sys.conns c).reader).1 = some command

/-- The step posts a document `k` of session `n` with success. -/
def Posts (host : Host) (sys : System κ) (e : Event κ) (n : UInt64) (k : Str) : Prop :=
  ∃ c now content, e = .request c now ∧ sys.Requests c n (.post k content) ∧
    (sys.step host e).1.sent = Reply.success.text host.newLine

/-- Session `n` ends with the step: it is closed, swept away, or given out anew, which
    takes 2 ^ 64 opens. -/
def Ends (host : Host) (sys : System κ) (e : Event κ) (n : UInt64) : Prop :=
  sys.Kills host e n ∨ (sys.step host e).1.Opens host.newLine n

/-- A step keeps a document unless it ends the session or posts the name again. -/
theorem step_value {sys : System κ} {e : Event κ} {n : UInt64} {k v : Str}
    (hv : sys.table.value n k = some v) (hend : ¬ sys.Ends host e n)
    (hpost : ¬ sys.Posts host e n k) : (sys.step host e).2.table.value n k = some v := by
  have hs := step_stepped host sys e
  unfold Ends Kills at hend
  unfold Posts at hpost
  generalize sys.step host e = result at *
  obtain ⟨answer, sys'⟩ := result
  rw [not_or, not_or] at hend
  cases hs with
  | ended | silent => exact hv
  | swept now =>
    by_cases hmem : n ∈ (sys.table.sweep now).sessions
    · exact (SessionTable.value_sweep k hmem).trans hv
    · exact absurd ⟨⟨now, rfl⟩, SessionTable.mem_of_value hv, hmem⟩ hend.1.2
  | executed c now command reply core r ended running read effect =>
    rcases executed_value effect hv with hkept | ⟨rfl, rfl⟩ | rfl | ⟨content, rfl, rfl, hsession⟩
    · exact hkept
    · exact absurd ⟨line_of_open read, rfl⟩ hend.2
    · exact absurd rfl hend.1.1
    · have hread : (nextCommand n (sys.conns c).reader).1 = some (.post k content) := by
        rw [← hsession]
        exact congrArg Prod.fst read
      exact absurd ⟨c, now, content, rfl, ⟨running, hsession, hread⟩, rfl⟩ hpost

/-- What a request is answered and what it leaves. -/
theorem Requests.step {sys : System κ} {c : κ} {n : UInt64} {command : Command}
    (h : sys.Requests c n command) {now : DateTime} {result : Reply × Core}
    (hexec : execute host now (sys.core c) command = some result) :
    (sys.step host (.request c now)).1.sent = result.1.text host.newLine ∧
      (sys.step host (.request c now)).2.table = result.2.table := by
  obtain ⟨running, rfl, read⟩ := h
  obtain ⟨r, hread⟩ : ∃ r, nextCommand (sys.conns c).sessionId (sys.conns c).reader =
      (some command, r) := ⟨_, Prod.ext read rfl⟩
  rw [step_request now running, hread]
  simp only [hexec, after_table, and_self]

/-- A plain document that is posted with success is in the table. -/
theorem post_value {sys : System κ} {c : κ} {now : DateTime} {n : UInt64} {k v : Str}
    (hplain : host.startsWithSlash k = false) (hrequest : sys.Requests c n (.post k v))
    (hsuccess : (sys.step host (.request c now)).1.sent = Reply.success.text host.newLine) :
    (sys.step host (.request c now)).2.table.value n k = some v := by
  have hid : (sys.core c).sessionId = n := hrequest.session
  by_cases hmem : n ∈ sys.table.sessions
  · obtain ⟨entry, hentry, hput⟩ := SessionTable.putSessionValue_live now k v hmem
    rw [(hrequest.step rfl).2]
    simp only [Core.post, hplain, Bool.false_eq_true, if_false, hid, core_table, hput,
      SessionTable.value, AList.lookup_insert]
    exact AList.lookup_insert _
  · have hput := SessionTable.putSessionValue_dead now k v hmem
    rw [(hrequest.step rfl).1] at hsuccess
    simp only [Core.post, hplain, Bool.false_eq_true, if_false, hid, core_table, hput] at hsuccess
    have hhead := congrArg List.head? hsuccess
    rw [Reply.text_head, Reply.text_head] at hhead
    cases hhead

end System
end NetServices.SDServer
