import NetServices.SDCommands
import NetServices.Machine
import Mathlib.Logic.Function.Basic

set_option autoImplicit false

/-!
# Connections and sweeps on one session table

Any number of connections share a session table and the files. A handler takes
the lock of the table once, so a step of the system is one pass of the loop of
some connection, or one sweep. A connection whose pass raises or ends the loop
takes no further step, and one that is lost is one that is given none.
-/
namespace NetServices.SDServer
open Utf16 (Str)
open TextReader (Reader)

/-- What a command can do to the connection, the table and the files. -/
inductive Executed (host : Host) (now : DateTime) (core : Core) :
    Command → Reply → Core → Prop where
  | opened (fresh : core.sessionId = 0) :
      Executed host now core .open (.accepted core.table.nextSessionId) { core with
        sessionId := core.table.nextSessionId
        table := (core.table.openSession now).2 }
  | resumed (id : UInt64) (fresh : core.sessionId = 0) (mem : id ∈ core.table.sessions) :
      Executed host now core (.resume (some id)) (.accepted id) { core with sessionId := id }
  | closed (id : UInt64) (mem : core.sessionId ∈ core.table.sessions) :
      Executed host now core (.close (some id)) (.closed core.sessionId) { core with
        table := { core.table with sessions := core.table.sessions.erase core.sessionId } }
  | read (name : Str) (session : Session)
      (entry : core.table.sessions.lookup core.sessionId = some session) (reply : Reply)
      (answer : reply = .document name ((core.table.value core.sessionId name).getD []) ∨
        ∃ message, reply = .error message) :
      Executed host now core (.get name) reply { core with table := { core.table with
        sessions := core.table.sessions.insert core.sessionId (session.touch now) } }
  | stored (name content : Str) (session : Session)
      (entry : core.table.sessions.lookup core.sessionId = some session)
      (plain : host.startsWithSlash name = false) :
      Executed host now core (.post name content) .success { core with table := { core.table with
        sessions := core.table.sessions.insert core.sessionId
          ((session.put name content).touch now) } }
  | filed (name content : Str) (reply : Reply) (files : List (Str × Str))
      (slash : host.startsWithSlash name = true)
      (answer : reply = .success ∨ ∃ message, reply = .error message) :
      Executed host now core (.post name content) reply { core with files := files }
  | rejected (id : UInt64) (reason : Str) :
      Executed host now core (.resume (some id)) (.rejected reason) core
  | refused (command : Command) (message : Str) :
      Executed host now core command (.error message) core

variable {host : Host}

theorem get_executed (now : DateTime) (core : Core) (name : Str) :
    Executed host now core (.get name) (core.get now name).1 (core.get now name).2 := by
  unfold Core.get
  split_ifs with h0 hn
  · exact .refused _ _
  · exact .refused _ _
  · by_cases hmem : core.sessionId ∈ core.table.sessions
    · obtain ⟨session, hs, hget⟩ := SessionTable.getSessionValue_live now name hmem
      rw [hget]
      simp only
      split_ifs
      · exact .read name session hs _ (.inr ⟨_, rfl⟩)
      · exact .read name session hs _ (.inl rfl)
    · rw [SessionTable.getSessionValue_dead now name hmem]
      exact .refused _ _

theorem post_executed (now : DateTime) (core : Core) (name content : Str) :
    Executed host now core (.post name content) (core.post host now name content).1
      (core.post host now name content).2 := by
  unfold Core.post
  split_ifs with hs
  · simp only
    split
    · exact .filed name content _ _ hs (.inl rfl)
    · exact .filed name content _ _ hs (.inr ⟨_, rfl⟩)
  · by_cases hmem : core.sessionId ∈ core.table.sessions
    · obtain ⟨session, hentry, hput⟩ := SessionTable.putSessionValue_live now name content hmem
      rw [hput]
      exact .stored name content session hentry (Bool.eq_false_iff.mpr hs)
    · rw [SessionTable.putSessionValue_dead now name content hmem]
      exact .refused _ _

theorem resume_executed (now : DateTime) (core : Core) (id : UInt64) :
    Executed host now core (.resume (some id)) (core.resume id).1 (core.resume id).2 := by
  unfold Core.resume
  split_ifs with h0 hmem
  · exact .resumed id h0 (AList.lookup_isSome.mp hmem)
  · exact .rejected id _
  · exact .refused _ _

theorem open_executed (now : DateTime) (core : Core) :
    Executed host now core .open (core.open now).1 (core.open now).2 := by
  unfold Core.open
  split_ifs with h0
  · exact .opened h0
  · exact .refused _ _

theorem close_executed (now : DateTime) (core : Core) (id : UInt64) :
    Executed host now core (.close (some id)) core.close.1 core.close.2 := by
  unfold Core.close
  cases hc : core.table.closeSession core.sessionId with
  | ok table =>
    obtain ⟨hmem, rfl⟩ := SessionTable.closeSession_ok hc
    exact .closed id hmem
  | error e => exact .refused _ _

theorem execute_executed {now : DateTime} {core : Core} {command : Command} {result : Reply × Core}
    (h : execute host now core command = some result) :
    Executed host now core command result.1 result.2 := by
  cases command with
  | «open» =>
    obtain rfl := Option.some.inj h
    exact open_executed now core
  | resume id =>
    cases id with
    | none =>
      obtain rfl := Option.some.inj h
      exact .refused _ _
    | some id =>
      obtain rfl := Option.some.inj h
      exact resume_executed now core id
  | close id =>
    cases id with
    | none =>
      obtain rfl := Option.some.inj h
      exact .refused _ _
    | some id =>
      obtain rfl := Option.some.inj h
      exact close_executed now core id
  | get name =>
    obtain rfl := Option.some.inj h
    exact get_executed now core name
  | post name content =>
    obtain rfl := Option.some.inj h
    exact post_executed now core name content
  | postNegative name => cases h
  | postUnnamed | postUnsized | invalid =>
    obtain rfl := Option.some.inj h
    exact .refused _ _

structure Conn where
  sessionId : UInt64
  reader : Reader
  ended : Bool

structure System (κ : Type) where
  table : SessionTable
  files : List (Str × Str)
  conns : κ → Conn

inductive Event (κ : Type) where
  | request (c : κ) (now : DateTime)
  | sweep (now : DateTime)

/-- The line that a pass reads first, and what it sends. -/
structure Answer where
  line : Option Str
  sent : Str
deriving DecidableEq

namespace System

variable {κ : Type} [DecidableEq κ]

/-- Fresh connections on a new table, each with its own input. -/
def fresh (sessionTimeout : ℤ) (inputs : κ → Reader) : System κ where
  table := .new sessionTimeout
  files := []
  conns c := ⟨0, inputs c, false⟩

def core (sys : System κ) (c : κ) : Core where
  sessionId := (sys.conns c).sessionId
  table := sys.table
  files := sys.files

def state (sys : System κ) (c : κ) : State Str where
  toCore := sys.core c
  reader := (sys.conns c).reader
  writer := []

def after (sys : System κ) (c : κ) (core : Core) (reader : Reader) (ended : Bool) : System κ where
  table := core.table
  files := core.files
  conns := Function.update sys.conns c ⟨core.sessionId, reader, ended⟩

def step (host : Host) (sys : System κ) : Event κ → Answer × System κ
  | .request c now =>
    if (sys.conns c).ended then (⟨none, []⟩, sys)
    else
      let line := (sys.conns c).reader.readLine.1
      match loopBody host.reliable now (sys.state c) with
      | .ok done σ => (⟨line, σ.writer⟩, sys.after c σ.toCore σ.reader done)
      | .error _ σ => (⟨line, σ.writer⟩, sys.after c σ.toCore σ.reader true)
  | .sweep now => (⟨none, []⟩, { sys with table := sys.table.sweep now })

/-- A step of a connection, in terms of the command that it reads. -/
theorem step_request (now : DateTime) {sys : System κ} {c : κ} (h : (sys.conns c).ended = false) :
    sys.step host (.request c now) =
      match nextCommand (sys.conns c).sessionId (sys.conns c).reader with
      | (none, r) => (⟨(sys.conns c).reader.readLine.1, []⟩, sys.after c (sys.core c) r true)
      | (some command, r) =>
        match execute host now (sys.core c) command with
        | some result => (⟨(sys.conns c).reader.readLine.1, result.1.text host.newLine⟩,
            sys.after c result.2 r command.isInvalid)
        | none => (⟨(sys.conns c).reader.readLine.1, []⟩, sys.after c (sys.core c) r true) := by
  have hnext : nextCommand (sys.state c).sessionId (sys.state c).reader =
      nextCommand (sys.conns c).sessionId (sys.conns c).reader := rfl
  have hcore : (sys.state c).toCore = sys.core c := rfl
  rw [step, if_neg (by rw [h]; exact Bool.false_ne_true), loopBody_reliable, hnext]
  generalize nextCommand (sys.conns c).sessionId (sys.conns c).reader = next
  obtain ⟨command, r⟩ := next
  cases command with
  | none => rfl
  | some command =>
    simp only [State.passed, hcore]
    cases execute host now (sys.core c) command with
    | none => rfl
    | some result => rfl

/-- Everything a step can be. -/
inductive Stepped (host : Host) (sys : System κ) : Event κ → Answer → System κ → Prop where
  | ended (c : κ) (now : DateTime) : Stepped host sys (.request c now) ⟨none, []⟩ sys
  | silent (c : κ) (now : DateTime) (r : Reader) (ended : Bool) :
      Stepped host sys (.request c now) ⟨(sys.conns c).reader.readLine.1, []⟩
        (sys.after c (sys.core c) r ended)
  | executed (c : κ) (now : DateTime) (command : Command) (reply : Reply) (core : Core)
      (r : Reader) (ended : Bool) (running : (sys.conns c).ended = false)
      (read : nextCommand (sys.conns c).sessionId (sys.conns c).reader = (some command, r))
      (effect : Executed host now (sys.core c) command reply core) :
      Stepped host sys (.request c now)
        ⟨(sys.conns c).reader.readLine.1, reply.text host.newLine⟩ (sys.after c core r ended)
  | swept (now : DateTime) :
      Stepped host sys (.sweep now) ⟨none, []⟩ { sys with table := sys.table.sweep now }

theorem step_stepped (host : Host) (sys : System κ) (e : Event κ) :
    Stepped host sys e (sys.step host e).1 (sys.step host e).2 := by
  cases e with
  | sweep now => exact .swept now
  | request c now =>
    cases h : (sys.conns c).ended with
    | true =>
      rw [step, if_pos h]
      exact .ended c now
    | false =>
      rw [step_request now h]
      cases hnext : nextCommand (sys.conns c).sessionId (sys.conns c).reader with
      | mk command r =>
        cases command with
        | none => exact .silent c now r true
        | some command =>
          simp only
          cases hexec : execute host now (sys.core c) command with
          | none => exact .silent c now r true
          | some result =>
            exact .executed c now command result.1 result.2 r _ h hnext (execute_executed hexec)

omit [DecidableEq κ] in
@[simp] theorem core_table (sys : System κ) (c : κ) : (sys.core c).table = sys.table := rfl

@[simp] theorem after_table (sys : System κ) (c : κ) (core : Core) (r : Reader) (ended : Bool) :
    (sys.after c core r ended).table = core.table := rfl

theorem after_conns (sys : System κ) (c d : κ) (core : Core) (r : Reader) (ended : Bool) :
    (sys.after c core r ended).conns d =
      if d = c then ⟨core.sessionId, r, ended⟩ else sys.conns d :=
  Function.update_apply _ _ _ _

end System
end NetServices.SDServer
