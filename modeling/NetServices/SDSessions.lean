import NetServices.SDSystem

set_option autoImplicit false

/-!
# Session ids are never reused

Every id in the table and on a connection is below the next one, as long as the
counter has not wrapped around. So an id that has left the table never comes
back, and whoever still holds it is refused.
-/
namespace NetServices.SDServer
open Utf16 (Str lit)
open Numerals (parseInt parseULong)

namespace Answer

/-- The pass was an `open` that was given the session `id`. -/
def Opens (newLine : Str) (x : Answer) (id : UInt64) : Prop :=
  x.line = some (lit "open") ∧ x.sent = (Reply.accepted id).text newLine

def isOpen (x : Answer) : Bool :=
  x.line == some (lit "open") && x.sent.take 8 == lit "accepted"

/-- The pass was answered with an error and left the table alone. -/
def Fails {κ : Type} (newLine : Str) (sys : System κ) (result : Answer × System κ) : Prop :=
  (∃ message, result.1.sent = (Reply.error message).text newLine) ∧
    result.2.table = sys.table

end Answer

namespace System

variable {κ : Type} {host : Host}

/-- After `opened` opens, every id lies below the next one, and none is 0. -/
structure Inv (sys : System κ) (opened : ℕ) : Prop where
  next : sys.table.nextSessionId.toNat = opened + 1
  ids : ∀ id ∈ sys.table.sessions, id ≠ 0 ∧ id.toNat ≤ opened
  held : ∀ c, (sys.conns c).sessionId.toNat ≤ opened

def Dead (sys : System κ) (opened : ℕ) (n : UInt64) : Prop :=
  n ∉ sys.table.sessions ∧ n.toNat ≤ opened

/-- What a command does to the ids: an `open` adds the next one, and nothing else
    adds any. -/
theorem executed_ids {now : DateTime} {core core' : Core} {command : Command} {reply : Reply}
    (h : Executed host now core command reply core') :
    (command = .open ∧ reply = .accepted core.table.nextSessionId ∧
      core'.sessionId = core.table.nextSessionId ∧
      core'.table.nextSessionId = core.table.nextSessionId + 1 ∧
      ∀ id, id ∈ core'.table.sessions → id = core.table.nextSessionId ∨
        id ∈ core.table.sessions) ∨
    (¬ (command = .open ∧ ∃ id, reply = .accepted id) ∧
      core'.table.nextSessionId = core.table.nextSessionId ∧
      (core'.sessionId = core.sessionId ∨ core'.sessionId ∈ core.table.sessions) ∧
      ∀ id, id ∈ core'.table.sessions → id ∈ core.table.sessions) := by
  cases h with
  | opened fresh =>
    exact .inl ⟨rfl, rfl, rfl, rfl, fun id hid => (AList.mem_insert _).mp hid⟩
  | resumed id fresh mem =>
    exact .inr ⟨fun h => (nomatch h.1), rfl, .inr mem, fun _ hid => hid⟩
  | closed id mem =>
    exact .inr ⟨fun h => (nomatch h.1), rfl, .inl rfl, fun _ hid => (AList.mem_erase.mp hid).2⟩
  | read name session entry reply answer =>
    exact .inr ⟨fun h => (nomatch h.1), rfl, .inl rfl,
      fun _ hid => (SessionTable.mem_insert_open entry).mp hid⟩
  | stored name content session entry plain =>
    exact .inr ⟨fun h => (nomatch h.1), rfl, .inl rfl,
      fun _ hid => (SessionTable.mem_insert_open entry).mp hid⟩
  | filed | rejected | refused =>
    exact .inr ⟨by simp, rfl, .inl rfl, fun _ hid => hid⟩

theorem isOpen_executed {c : κ} {sys : System κ} {command : Command} {r : TextReader.Reader}
    (host : Host) (reply : Reply)
    (read : nextCommand (sys.conns c).sessionId (sys.conns c).reader = (some command, r)) :
    Answer.isOpen ⟨(sys.conns c).reader.readLine.1, reply.text host.newLine⟩ = true ↔
      command = .open ∧ ∃ id, reply = .accepted id := by
  rw [Answer.isOpen, Bool.and_eq_true, beq_iff_eq, beq_iff_eq]
  constructor
  · rintro ⟨hline, hsent⟩
    constructor
    · have hread := nextCommand_open (sys.conns c).sessionId (Prod.ext hline rfl)
      rw [read] at hread
      exact Option.some.inj (congrArg Prod.fst hread)
    · have hhead := congrArg List.head? hsent
      rw [List.head?_take, if_neg (by decide), Reply.text_head] at hhead
      have hletter : reply.letter = 0x61 := Option.some.inj hhead
      cases reply with
      | accepted id => exact ⟨id, rfl⟩
      | _ => simp [Reply.letter] at hletter
  · rintro ⟨rfl, id, rfl⟩
    exact ⟨line_of_open read, rfl⟩

theorem isOpen_of_opens {newLine : Str} {x : Answer} {id : UInt64} (h : x.Opens newLine id) :
    x.isOpen = true := by
  rw [Answer.isOpen, h.1, h.2]
  rfl

theorem toNat_succ {id : UInt64} {n : ℕ} (h : id.toNat = n) (hn : n + 1 < UInt64.size) :
    (id + 1).toNat = n + 1 := by
  rw [UInt64.toNat_add, h]
  exact Nat.mod_eq_of_lt hn

theorem fresh_inv (sessionTimeout : ℤ) (inputs : κ → TextReader.Reader) :
    (fresh sessionTimeout inputs).Inv 0 :=
  ⟨rfl, fun _ hid => absurd hid (AList.notMem_empty _), fun _ => Nat.zero_le _⟩

/-- The number of sessions that a run has opened. -/
def opens (run : List (Event κ × Answer)) : ℕ := run.countP fun x => x.2.isOpen

theorem opens_cons (e : Event κ) (x : Answer) (run : List (Event κ × Answer)) :
    opens ((e, x) :: run) = opens run + if x.isOpen then 1 else 0 :=
  List.countP_cons

variable [DecidableEq κ]

/-- One step keeps the ids below the counter, counts the opens, and opens nothing
    that was dead. -/
theorem step_ids (host : Host) {sys : System κ} {opened : ℕ} (h : sys.Inv opened) (e : Event κ)
    (hroom : (sys.step host e).1.isOpen = true → opened + 2 < UInt64.size) :
    ∃ opened', opened' = opened + (if (sys.step host e).1.isOpen then 1 else 0) ∧
      (sys.step host e).2.Inv opened' ∧
      (∀ id, (sys.step host e).1.Opens host.newLine id → id.toNat = opened + 1) ∧
      (∀ n, sys.Dead opened n → (sys.step host e).2.Dead opened' n) := by
  have hs := step_stepped host sys e
  revert hroom hs
  generalize (sys.step host e).1 = answer
  generalize (sys.step host e).2 = sys'
  intro hroom hs
  cases hs with
  | ended c now =>
    exact ⟨opened, rfl, h, fun id hid => (nomatch hid.1), fun n hn => hn⟩
  | swept now =>
    refine ⟨opened, rfl, ⟨h.next, fun id hid => ?_, h.held⟩, fun id hid => (nomatch hid.1),
      fun n hn => ⟨fun hmem => hn.1 (SessionTable.mem_of_sweep hmem), hn.2⟩⟩
    exact h.ids id (SessionTable.mem_of_sweep hid)
  | silent c now r ended =>
    have hsilent : Answer.isOpen ⟨(sys.conns c).reader.readLine.1, []⟩ = false := by
      rw [Answer.isOpen, Bool.and_eq_false_iff]
      exact .inr rfl
    refine ⟨opened, by rw [hsilent]; rfl, ⟨h.next, h.ids, fun d => ?_⟩, fun id hid => ?_,
      fun n hn => hn⟩
    · rw [after_conns]
      split_ifs
      · exact h.held c
      · exact h.held d
    · rw [isOpen_of_opens hid] at hsilent
      cases hsilent
  | executed c now command reply core r ended running read effect =>
    have hopen := isOpen_executed host reply read
    rcases executed_ids effect with ⟨rfl, rfl, hid, hnext, hids⟩ | ⟨hno, hnext, hid, hids⟩
    · have hisOpen := hopen.mpr ⟨rfl, _, rfl⟩
      have hcount : core.table.nextSessionId.toNat = opened + 2 := by
        rw [hnext]
        exact toNat_succ h.next (hroom hisOpen)
      refine ⟨opened + 1, by rw [hisOpen]; rfl, ⟨hcount, fun id hmem => ?_, fun d => ?_⟩,
        fun id hopens => ?_, fun n hn => ⟨fun hmem => ?_, Nat.le_succ_of_le hn.2⟩⟩
      · rcases hids id hmem with rfl | hold
        · refine ⟨fun hzero => ?_, h.next.le⟩
          have hn := h.next
          change (sys.core c).table.nextSessionId.toNat = opened + 1 at hn
          rw [hzero] at hn
          cases hn
        · exact ⟨(h.ids id hold).1, Nat.le_succ_of_le (h.ids id hold).2⟩
      · rw [after_conns]
        split_ifs
        · rw [hid]
          exact h.next.le
        · exact Nat.le_succ_of_le (h.held d)
      · have hsent : (Reply.accepted (sys.core c).table.nextSessionId).text host.newLine =
            (Reply.accepted id).text host.newLine := hopens.2
        rw [← Reply.accepted.inj (accepted_of_text hsent)]
        exact h.next
      · rcases hids n hmem with rfl | hold
        · have hn' : (sys.core c).table.nextSessionId.toNat ≤ opened := hn.2
          have hnext' : (sys.core c).table.nextSessionId.toNat = opened + 1 := h.next
          omega
        · exact hn.1 hold
    · have hnotOpen : Answer.isOpen
          ⟨(sys.conns c).reader.readLine.1, reply.text host.newLine⟩ = false :=
        Bool.eq_false_iff.mpr fun hisOpen => hno (hopen.mp hisOpen)
      refine ⟨opened, by rw [hnotOpen]; rfl, ⟨?_, fun id hmem => h.ids id (hids id hmem),
        fun d => ?_⟩, fun id hopens => ?_, fun n hn => ⟨fun hmem => hn.1 (hids n hmem), hn.2⟩⟩
      · rw [after_table, hnext]
        exact h.next
      · rw [after_conns]
        split_ifs
        · rcases hid with hsame | hmem
          · rw [hsame]
            exact h.held c
          · exact (h.ids _ hmem).2
        · exact h.held d
      · rw [isOpen_of_opens hopens] at hnotOpen
        cases hnotOpen

/-- The step tells a connection that session `n` is closed, or it is a sweep that
    removes session `n`. -/
def Kills (host : Host) (sys : System κ) (e : Event κ) (n : UInt64) : Prop :=
  (sys.step host e).1.sent = (Reply.closed n).text host.newLine ∨
    (∃ now, e = .sweep now) ∧ n ∈ sys.table.sessions ∧ n ∉ (sys.step host e).2.table.sessions

/-- Session `n` is refused to whoever asks for it or still holds it. -/
structure Refuses (host : Host) (sys : System κ) (n : UInt64) : Prop where
  resume : ∀ c now r, (sys.conns c).ended = false → (sys.conns c).sessionId = 0 →
    (sys.conns c).reader.readLine = (some (lit "resume"), r) →
    parseULong r.readLine.1 = some n →
    ∃ reason, (sys.step host (.request c now)).1.sent = (Reply.rejected reason).text host.newLine
  get : ∀ c now r name r', (sys.conns c).ended = false → (sys.conns c).sessionId = n →
    (sys.conns c).reader.readLine = (some (lit "get"), r) → r.readLine = (some name, r') →
    name ≠ [] → Answer.Fails host.newLine sys (sys.step host (.request c now))
  close : ∀ c now r, (sys.conns c).ended = false → (sys.conns c).sessionId = n →
    (sys.conns c).reader.readLine = (some (lit "close"), r) →
    Answer.Fails host.newLine sys (sys.step host (.request c now))
  post : ∀ c now r name r' length, (sys.conns c).ended = false → (sys.conns c).sessionId = n →
    (sys.conns c).reader.readLine = (some (lit "post"), r) → r.readLine = (some name, r') →
    name ≠ [] → host.startsWithSlash name = false → parseInt r'.readLine.1 = some length →
    0 ≤ length → length ≤ r'.readLine.2.chars.length →
    Answer.Fails host.newLine sys (sys.step host (.request c now))

/-- Only a session that is in the table is closed or swept away. -/
theorem kills_removes {sys : System κ} {e : Event κ} {n : UInt64} (h : sys.Kills host e n) :
    n ∈ sys.table.sessions ∧ n ∉ (sys.step host e).2.table.sessions := by
  rcases h with hclosed | ⟨-, hremoved⟩
  · have hs := step_stepped host sys e
    revert hclosed hs
    generalize (sys.step host e).1 = answer
    generalize (sys.step host e).2 = sys'
    intro hclosed hs
    have hhead := congrArg List.head? hclosed
    rw [Reply.text_head] at hhead
    cases hs with
    | ended | silent | swept => cases hhead
    | executed c now command reply core r ended running read effect =>
      obtain rfl := closed_of_text hclosed
      cases effect with
      | closed id mem => exact ⟨mem, fun hid => (AList.mem_erase.mp hid).1 rfl⟩
      | read name session entry reply answer => simp at answer
      | filed name content reply files slash answer => simp at answer
  · exact hremoved

end System
end NetServices.SDServer
