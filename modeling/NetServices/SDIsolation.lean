import NetServices.SDProcess
import NetServices.SessionExpiry

set_option autoImplicit false

/-!
# Sessions are isolated

What a connection does in a session of its own cannot be seen outside that
session: the other connections are answered as if it did nothing, in every
interleaving, sweeps included. Files are common to all, and whoever opens a
session takes the next id, so that opens and posts of files are not private; nor
is an exception that ends the process.
-/
namespace NetServices

namespace SessionTable

/-- The tables differ in the session `m` at most. -/
structure SameBut (m : UInt64) (table table' : SessionTable) : Prop where
  next : table.nextSessionId = table'.nextSessionId
  timeout : table.sessionTimeout = table'.sessionTimeout
  sessions : ∀ n ≠ m, table.sessions.lookup n = table'.sessions.lookup n

variable {m n : UInt64} {table table' : SessionTable}

theorem SameBut.mem_iff (h : SameBut m table table') (hn : n ≠ m) :
    n ∈ table.sessions ↔ n ∈ table'.sessions := by
  rw [← AList.lookup_isSome, ← AList.lookup_isSome, h.sessions n hn]

theorem SameBut.insert (h : SameBut m table table') (n : UInt64) (session : Session) :
    SameBut m { table with sessions := table.sessions.insert n session }
      { table' with sessions := table'.sessions.insert n session } := by
  refine ⟨h.next, h.timeout, fun k hk => ?_⟩
  rw [lookup_insert, lookup_insert]
  split_ifs
  · rfl
  · exact h.sessions k hk

theorem SameBut.insert_left (h : SameBut m table table') (session : Session) :
    SameBut m { table with sessions := table.sessions.insert m session } table' := by
  refine ⟨h.next, h.timeout, fun k hk => ?_⟩
  rw [lookup_insert, if_neg hk]
  exact h.sessions k hk

theorem SameBut.erase (h : SameBut m table table') (n : UInt64) :
    SameBut m { table with sessions := table.sessions.erase n }
      { table' with sessions := table'.sessions.erase n } := by
  refine ⟨h.next, h.timeout, fun k hk => ?_⟩
  change (table.sessions.erase n).lookup k = (table'.sessions.erase n).lookup k
  by_cases hkn : k = n
  · rw [hkn, AList.lookup_erase, AList.lookup_erase]
  · rw [AList.lookup_erase_ne hkn, AList.lookup_erase_ne hkn, h.sessions k hk]

theorem SameBut.erase_left (h : SameBut m table table') :
    SameBut m { table with sessions := table.sessions.erase m } table' :=
  ⟨h.next, h.timeout, fun k hk => (AList.lookup_erase_ne hk).trans (h.sessions k hk)⟩

theorem SameBut.openSession (h : SameBut m table table') (now : DateTime) :
    (table.openSession now).1 = (table'.openSession now).1 ∧
      SameBut m (table.openSession now).2 (table'.openSession now).2 := by
  have hinsert := h.insert table.nextSessionId (.new now)
  refine ⟨h.next, congrArg (· + 1) h.next, h.timeout, fun k hk => ?_⟩
  refine (hinsert.sessions k hk).trans ?_
  rw [h.next]
  rfl

/-- A sweep takes a session by its own age. -/
theorem sweep_lookup (now : DateTime) (table : SessionTable) (id : UInt64) :
    (table.sweep now).sessions.lookup id = (table.sessions.lookup id).filter fun session =>
      !decide (table.sessionTimeout < (now : ℤ) - (session.lastAccessed : ℤ)) := by
  cases hlookup : table.sessions.lookup id with
  | none =>
    rcases lookup_sweep now table id with hnone | hsame
    · exact hnone
    · exact hsame.trans hlookup
  | some session =>
    have hremoves := @sweep_removes_iff table now id session hlookup
    by_cases hidle : table.sessionTimeout < (now : ℤ) - (session.lastAccessed : ℤ)
    · rw [AList.lookup_eq_none.mpr (hremoves.mpr hidle)]
      simp [Option.filter, hidle]
    · rcases lookup_sweep now table id with hnone | hsame
      · exact absurd (hremoves.mp (AList.lookup_eq_none.mp hnone)) hidle
      · rw [hsame, hlookup]
        simp [Option.filter, hidle]

theorem SameBut.sweep (h : SameBut m table table') (now : DateTime) :
    SameBut m (table.sweep now) (table'.sweep now) := by
  refine ⟨h.next, h.timeout, fun k hk => ?_⟩
  rw [sweep_lookup, sweep_lookup, h.sessions k hk, h.timeout]

end SessionTable

namespace SDServer
open Utf16 (Str lit)

/-- The same connection on tables that differ in the session `m` at most. -/
def Core.SameBut (m : UInt64) (core core' : Core) : Prop :=
  ∃ table', SessionTable.SameBut m core.table table' ∧ core' = { core with table := table' }

section
variable {host : Host} {now : DateTime} {m : UInt64} {core core' : Core}

theorem Core.SameBut.open (h : Core.SameBut m core core') :
    (core.open now).1 = (core'.open now).1 ∧
      Core.SameBut m (core.open now).2 (core'.open now).2 := by
  obtain ⟨table', htable, rfl⟩ := h
  have hopen := htable.openSession now
  unfold Core.open
  simp only
  generalize core.table.openSession now = result at *
  generalize table'.openSession now = result' at *
  obtain ⟨id, opened⟩ := result
  obtain ⟨id', opened'⟩ := result'
  obtain ⟨hid, hopened⟩ := hopen
  obtain rfl : id = id' := hid
  split_ifs
  · exact ⟨rfl, opened', hopened, rfl⟩
  · exact ⟨rfl, table', htable, rfl⟩

theorem Core.SameBut.resume (h : Core.SameBut m core core') {id : UInt64} (hid : id ≠ m) :
    (core.resume id).1 = (core'.resume id).1 ∧
      Core.SameBut m (core.resume id).2 (core'.resume id).2 := by
  obtain ⟨table', htable, rfl⟩ := h
  have hlive : table'.resumeSession id = core.table.resumeSession id := by
    rw [SessionTable.resumeSession, SessionTable.resumeSession, htable.sessions id hid]
  unfold Core.resume
  simp only [hlive]
  split_ifs <;> exact ⟨rfl, table', htable, rfl⟩

theorem Core.SameBut.close (h : Core.SameBut m core core') (hheld : core.sessionId ≠ m) :
    core.close.1 = core'.close.1 ∧ Core.SameBut m core.close.2 core'.close.2 := by
  obtain ⟨table', htable, rfl⟩ := h
  have hmem := htable.mem_iff hheld
  unfold Core.close SessionTable.closeSession
  by_cases hlive : core.sessionId ∈ core.table.sessions
  · rw [if_pos hlive, if_pos (hmem.mp hlive)]
    exact ⟨rfl, _, htable.erase core.sessionId, rfl⟩
  · rw [if_neg hlive, if_neg (hlive ∘ hmem.mpr)]
    exact ⟨rfl, table', htable, rfl⟩

theorem Core.SameBut.get (h : Core.SameBut m core core') (hheld : core.sessionId ≠ m)
    (name : Str) : (core.get now name).1 = (core'.get now name).1 ∧
      Core.SameBut m (core.get now name).2 (core'.get now name).2 := by
  obtain ⟨table', htable, rfl⟩ := h
  unfold Core.get SessionTable.getSessionValue
  simp only [← htable.sessions core.sessionId hheld]
  split_ifs
  · exact ⟨rfl, table', htable, rfl⟩
  · exact ⟨rfl, table', htable, rfl⟩
  · cases core.table.sessions.lookup core.sessionId with
    | none => exact ⟨rfl, table', htable, rfl⟩
    | some session =>
      simp only
      split_ifs <;> exact ⟨rfl, _, htable.insert core.sessionId _, rfl⟩

theorem Core.SameBut.post (h : Core.SameBut m core core') (hheld : core.sessionId ≠ m)
    (name content : Str) :
    (core.post host now name content).1 = (core'.post host now name content).1 ∧
      Core.SameBut m (core.post host now name content).2 (core'.post host now name content).2 := by
  obtain ⟨table', htable, rfl⟩ := h
  unfold Core.post SessionTable.putSessionValue
  simp only [← htable.sessions core.sessionId hheld]
  split_ifs
  · cases host.writeAllText core.files _ content <;> exact ⟨rfl, table', htable, rfl⟩
  · cases core.table.sessions.lookup core.sessionId with
    | none => exact ⟨rfl, table', htable, rfl⟩
    | some session => exact ⟨rfl, _, htable.insert core.sessionId _, rfl⟩

/-- Outside the session every command is answered alike. -/
theorem Core.SameBut.execute (h : Core.SameBut m core core') (hheld : core.sessionId ≠ m)
    {command : Command} (hcommand : command ≠ .resume (some m)) :
    Option.Rel (fun result result' => result.1 = result'.1 ∧ Core.SameBut m result.2 result'.2)
      (SDServer.execute host now core command) (SDServer.execute host now core' command) := by
  cases command with
  | «open» => exact .some h.open
  | resume id =>
    cases id with
    | none => exact .some ⟨rfl, h⟩
    | some id => exact .some (h.resume fun hid => hcommand (by rw [hid]))
  | close id =>
    cases id with
    | none => exact .some ⟨rfl, h⟩
    | some id => exact .some (h.close hheld)
  | get name => exact .some (h.get hheld name)
  | post name content => exact .some (h.post hheld name content)
  | postNegative name => exact .none
  | postUnnamed | postUnsized | invalid => exact .some ⟨rfl, h⟩

end

def Event.isOf {κ : Type} [DecidableEq κ] (c : κ) : Event κ → Bool
  | .request d _ => d == c
  | .sweep _ => false

namespace System

variable {κ : Type} [DecidableEq κ]

/-- The connection `c` holds session `m`, and the systems differ in the two at most. -/
structure SameBut (c : κ) (m : UInt64) (sys sys' : System κ) : Prop where
  held : (sys.conns c).sessionId = m
  table : SessionTable.SameBut m sys.table sys'.table
  files : sys.files = sys'.files
  conns : ∀ d ≠ c, sys.conns d = sys'.conns d

variable {host : Host} {c : κ} {m : UInt64} {sys sys' : System κ}

/-- What the connection does stays in its session, unless it posts a file. -/
theorem SameBut.step_mine (h : SameBut c m sys sys') (hm : m ≠ 0) {now : DateTime}
    (hplain : ∀ name content, (nextCommand m (sys.conns c).reader).1 = some (.post name content) →
      host.startsWithSlash name = false) :
    SameBut c m (sys.step host (.request c now)).2 sys' := by
  have hs := step_stepped host sys (.request c now)
  generalize (sys.step host (.request c now)).1 = answer at hs
  generalize (sys.step host (.request c now)).2 = next at hs ⊢
  have hid : (sys.core c).sessionId = m := h.held
  have left {core : Core} {r : TextReader.Reader} {ended : Bool} (hheld : core.sessionId = m)
      (htable : SessionTable.SameBut m core.table sys'.table) (hfiles : core.files = sys.files) :
      SameBut c m (sys.after c core r ended) sys' := by
    refine ⟨?_, htable, hfiles.trans h.files, fun d hd => ?_⟩
    · rw [after_conns, if_pos rfl]
      exact hheld
    · rw [after_conns, if_neg hd]
      exact h.conns d hd
  cases hs with
  | ended => exact h
  | silent => exact left hid h.table rfl
  | executed _ _ command reply core r ended running read effect =>
    cases effect with
    | opened fresh | resumed id fresh => exact absurd (hid.symm.trans fresh) hm
    | closed id mem => exact left hid (by rw [hid]; exact h.table.erase_left) rfl
    | read name session entry => exact left hid (by rw [hid]; exact h.table.insert_left _) rfl
    | stored name content session entry =>
      exact left hid (by rw [hid]; exact h.table.insert_left _) rfl
    | filed name content reply files slash =>
      have hread := hplain name content (by rw [← h.held, read])
      rw [hread] at slash
      cases slash
    | rejected | refused => exact left hid h.table rfl

/-- What another connection does in both systems. -/
theorem SameBut.after (h : SameBut c m sys sys') {d : κ} (hd : d ≠ c) {core core' : Core}
    (hsame : Core.SameBut m core core') (r : TextReader.Reader) (ended : Bool) :
    SameBut c m (sys.after d core r ended) (sys'.after d core' r ended) := by
  obtain ⟨table', htable, rfl⟩ := hsame
  refine ⟨?_, htable, rfl, fun k hk => ?_⟩
  · rw [after_conns, if_neg (Ne.symm hd)]
    exact h.held
  · rw [after_conns, after_conns]
    split_ifs
    · rfl
    · exact h.conns k hk

end System

namespace Process

variable {κ : Type} [DecidableEq κ]

/-- The connection `c` holds session `m`, and the processes differ in the two at most. -/
structure SameBut (c : κ) (m : UInt64) (p p' : Process κ) : Prop where
  system : System.SameBut c m p.toSystem p'.toSystem
  held : ∀ d ≠ c, p.held d = p'.held d
  crashed : p.crashed = p'.crashed

/-- A pass of the connection `c` posts no file and does not end the process, and one of the
    others is outside session `m` and does not ask for it. -/
def Private (host : Host) (c : κ) (m : UInt64) (p : Process κ) : Event κ → Prop
  | .request d now =>
    if d = c then (∀ name content,
        (nextCommand m (p.conns c).reader).1 = some (.post name content) →
          host.startsWithSlash name = false) ∧
      (p.crashed = false → (p.step host (.request c now)).2.crashed = false)
    else (p.conns d).sessionId ≠ m ∧
      (nextCommand (p.conns d).sessionId (p.conns d).reader).1 ≠ some (.resume (some m))
  | .sweep _ => True

variable {host : Host} {c : κ} {m : UInt64} {p p' : Process κ}

/-- A pass changes what is held back on its connection only. -/
theorem step_held {d : κ} (hd : d ≠ c) (now : DateTime) :
    (p.step host (.request c now)).2.held d = p.held d := by
  rw [step]
  split_ifs
  · rfl
  · cases loopBody (host.streaming fun _ => none) now (p.state c) <;>
      exact Function.update_of_ne hd _ _

theorem SameBut.step_mine (h : SameBut c m p p') (hm : m ≠ 0) {now : DateTime}
    (hprivate : p.Private host c m (.request c now)) :
    SameBut c m (p.step host (.request c now)).2 p' := by
  rw [Private, if_pos rfl] at hprivate
  obtain ⟨hplain, hgoing⟩ := hprivate
  cases hp : p.crashed with
  | true =>
    rw [step_crashed host hp]
    exact h
  | false =>
    have hstep := hgoing hp
    refine ⟨?_, fun d hd => (step_held hd now).trans (h.held d hd), ?_⟩
    · rw [(step_toSystem hstep).1]
      exact h.system.step_mine hm hplain
    · rw [hstep, ← h.crashed, hp]

/-- The others are answered alike. -/
theorem SameBut.step_other (h : SameBut c m p p') {e : Event κ}
    (hprivate : p.Private host c m e) (he : e.isOf c = false) :
    (p.step host e).1 = (p'.step host e).1 ∧ SameBut c m (p.step host e).2 (p'.step host e).2 := by
  cases hp : p.crashed with
  | true =>
    rw [step_crashed host hp, step_crashed host (h.crashed ▸ hp)]
    exact ⟨rfl, h⟩
  | false =>
    have hp' : p'.crashed = false := h.crashed ▸ hp
    cases e with
    | sweep now =>
      have hsweep (p : Process κ) (hp : p.crashed = false) : p.step host (.sweep now) =
          (⟨none, []⟩, { p with toSystem := { p.toSystem with table := p.table.sweep now } }) := by
        rw [step, hp]
        rfl
      rw [hsweep p hp, hsweep p' hp']
      exact ⟨rfl, ⟨h.system.held, h.system.table.sweep now, h.system.files, h.system.conns⟩, h.held,
        h.crashed⟩
    | request d now =>
      have hd : d ≠ c := fun heq => by simp [Event.isOf, heq] at he
      rw [Private, if_neg hd] at hprivate
      obtain ⟨houtside, hresume⟩ := hprivate
      have hconn := h.system.conns d hd
      have hcore : Core.SameBut m (p.core d) (p'.core d) :=
        ⟨p'.table, h.system.table, by rw [System.core, System.core, ← hconn, ← h.system.files]⟩
      have hstate : (p.state d).writer = (p'.state d).writer := by
        rw [state, state, h.held d hd]
      have both {core core' : Core} (hsame : Core.SameBut m core core') (r : TextReader.Reader)
          (held : Option UInt16) (ended crashed : Bool) :
          SameBut c m (p.after d core r held ended crashed)
            (p'.after d core' r held ended crashed) := by
        refine ⟨h.system.after hd hsame r ended, fun k hk => ?_, rfl⟩
        simp only [Process.after, Function.update_apply]
        split_ifs
        · rfl
        · exact h.held k hk
      cases hended : (p.conns d).ended with
      | true =>
        rw [step, step, ← hconn, hended, Bool.or_true, Bool.or_true, if_pos rfl, if_pos rfl]
        exact ⟨rfl, h⟩
      | false =>
        rw [step_request now hp hended, step_request now hp' (hconn ▸ hended), ← hconn, ← hstate,
          ← h.held d hd]
        cases hnext : nextCommand (p.conns d).sessionId (p.conns d).reader with
        | mk command r =>
          cases command with
          | none => exact ⟨rfl, both hcore r _ true false⟩
          | some command =>
            have hne : command ≠ .resume (some m) := fun heq => hresume (by rw [hnext, heq])
            have hexec := @Core.SameBut.execute host now m _ _ hcore houtside command hne
            simp only
            generalize execute host now (p.core d) command = result at hexec ⊢
            generalize execute host now (p'.core d) command = result' at hexec ⊢
            cases hexec with
            | none => exact ⟨rfl, both hcore r _ true true⟩
            | some hresult =>
              obtain ⟨hreply, hsame⟩ := hresult
              simp only [hreply]
              cases (p.state d).writer.takes _ with
              | mk all writer =>
                cases all with
                | true => exact ⟨rfl, both hsame r writer.held command.isInvalid false⟩
                | false => exact ⟨rfl, both hsame r writer.held true true⟩

/-- The other connections are answered as if the connection did nothing, and the tables are
    left alike but for its session. -/
theorem private_unseen (host : Host) (p : Process κ) (c : κ) (m : UInt64) (hm : m ≠ 0)
    (hheld : (p.conns c).sessionId = m) (events : List (Event κ))
    (hprivate : Machine.Every (step host) (fun p e => p.Private host c m e) p events) :
    (Machine.trace (step host) p events).filter (fun x => !x.1.isOf c) =
        Machine.trace (step host) p (events.filter fun e => !e.isOf c) ∧
      SameBut c m (Machine.final (step host) p events)
        (Machine.final (step host) p (events.filter fun e => !e.isOf c)) := by
  have hsame : SameBut c m p p :=
    ⟨⟨hheld, ⟨rfl, rfl, fun _ _ => rfl⟩, rfl, fun _ _ => rfl⟩, fun _ _ => rfl, rfl⟩
  refine Machine.purged (step host) (fun s s' e h hp he => ?_)
    (fun s s' e h hp he => h.step_other hp he) hsame hprivate
  cases e with
  | sweep now => cases he
  | request d now =>
    obtain rfl : d = c := beq_iff_eq.mp he
    exact h.step_mine hm hp

/-- One connection works in session 1, the other one opens session 2. -/
theorem private_unseen_two :
    let inputs : Bool → TextReader.Reader := fun c =>
      if c then ⟨lit "open\npost\na\n1\nyget\na\n", []⟩
      else ⟨lit "open\npost\na\n1\nxclose\n1\n", []⟩
    let p := (Process.step .unix (.fresh 100 inputs) (.request false 0)).2
    let events := [Event.request true 1, .request false 2, .request true 3, .request false 4,
      .request true 5]
    (Machine.trace (step .unix) p events).filter (fun x => !x.1.isOf false) =
      Machine.trace (step .unix) p (events.filter fun e => !e.isOf false) := by
  intro inputs p events
  refine (private_unseen .unix p false 1 (by decide) (by decide) events ?_).1
  refine ⟨⟨by decide, by decide⟩, ⟨fun name content h => ?_, fun _ => by decide +kernel⟩,
    ⟨by decide, by decide⟩, ⟨fun name content h => ?_, fun _ => by decide +kernel⟩,
    ⟨by decide, by decide⟩, trivial⟩
  · have hpost := h.symm.trans (show _ = some (Command.post (lit "a") (lit "x")) by decide +kernel)
    obtain ⟨rfl, -⟩ := Command.post.inj (Option.some.inj hpost)
    decide
  · have hclose := h.symm.trans (show _ = some (Command.close (some 1)) by decide +kernel)
    cases hclose

end Process
end SDServer
end NetServices
