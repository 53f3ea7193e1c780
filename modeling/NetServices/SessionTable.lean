import NetServices.Exceptions
import NetServices.Clock
import Mathlib.Data.List.AList
import Mathlib.Data.Int.Notation

set_option autoImplicit false

/-!
# The session table

`SessionTable.cs`. Every method takes the lock once, so it is one function from
the table to the table. A method that touches a session is given the clock
reading; one that raises leaves the table alone.
-/
namespace NetServices
open Utf16 (Str lit)

structure Session where
  values : AList fun _ : Str => Str
  lastAccessed : DateTime

def Session.new (now : DateTime) : Session := ⟨∅, now⟩

def Session.touch (now : DateTime) (session : Session) : Session :=
  { session with lastAccessed := now }

def Session.put (key value : Str) (session : Session) : Session :=
  { session with values := session.values.insert key value }

structure SessionTable where
  sessions : AList fun _ : UInt64 => Session
  nextSessionId : UInt64
  sessionTimeout : ℤ

namespace SessionTable

def new (sessionTimeout : ℤ) : SessionTable where
  sessions := ∅
  nextSessionId := 1
  sessionTimeout := sessionTimeout

def sessionException : Exn where
  kind := .session
  message := lit "Session not found or already closed."

/-- One round of the cleanup loop. -/
def sweep (now : DateTime) (table : SessionTable) : SessionTable :=
  let expired := table.sessions.keys.filter fun id =>
    match table.sessions.lookup id with
    | some session => table.sessionTimeout < (now : ℤ) - (session.lastAccessed : ℤ)
    | none => false
  { table with sessions := expired.foldl (fun sessions id => sessions.erase id) table.sessions }

def openSession (now : DateTime) (table : SessionTable) : UInt64 × SessionTable :=
  let sessionId := table.nextSessionId
  (sessionId, { table with
    nextSessionId := table.nextSessionId + 1
    sessions := table.sessions.insert sessionId (.new now) })

def resumeSession (sessionId : UInt64) (table : SessionTable) : Bool :=
  (table.sessions.lookup sessionId).isSome

def closeSession (sessionId : UInt64) (table : SessionTable) : Except Exn SessionTable :=
  if sessionId ∈ table.sessions then
    .ok { table with sessions := table.sessions.erase sessionId }
  else .error sessionException

def getSessionValue (now : DateTime) (sessionId : UInt64) (key : Str) (table : SessionTable) :
    Except Exn (Option Str × SessionTable) :=
  match table.sessions.lookup sessionId with
  | none => .error sessionException
  | some session =>
    .ok (session.values.lookup key,
      { table with sessions := table.sessions.insert sessionId (session.touch now) })

def putSessionValue (now : DateTime) (sessionId : UInt64) (key value : Str)
    (table : SessionTable) : Except Exn SessionTable :=
  match table.sessions.lookup sessionId with
  | none => .error sessionException
  | some session =>
    .ok { table with
      sessions := table.sessions.insert sessionId ((session.put key value).touch now) }

/-- The value that is stored under a key of an open session. -/
def value (table : SessionTable) (sessionId : UInt64) (key : Str) : Option Str :=
  (table.sessions.lookup sessionId).bind fun session => session.values.lookup key

theorem mem_of_value {table : SessionTable} {sessionId : UInt64} {key v : Str}
    (h : table.value sessionId key = some v) : sessionId ∈ table.sessions := by
  obtain ⟨session, hs, -⟩ := Option.bind_eq_some_iff.mp h
  rw [← AList.lookup_isSome, hs]
  rfl

theorem lookup_erase_all (ids : List UInt64) (sessions : AList fun _ : UInt64 => Session)
    (id : UInt64) :
    (ids.foldl (fun sessions id => sessions.erase id) sessions).lookup id =
      if id ∈ ids then none else sessions.lookup id := by
  induction ids generalizing sessions with
  | nil => rfl
  | cons i ids ih =>
    rw [List.foldl_cons, ih]
    by_cases hid : id ∈ ids
    · rw [if_pos hid, if_pos (List.mem_cons_of_mem i hid)]
    · by_cases heq : id = i
      · subst heq
        rw [if_neg hid, if_pos List.mem_cons_self, AList.lookup_erase]
      · rw [if_neg hid, if_neg (by simp [heq, hid]), AList.lookup_erase_ne heq]

theorem lookup_sweep (now : DateTime) (table : SessionTable) (id : UInt64) :
    (table.sweep now).sessions.lookup id = none ∨
      (table.sweep now).sessions.lookup id = table.sessions.lookup id := by
  rw [sweep, lookup_erase_all]
  split_ifs
  · exact .inl rfl
  · exact .inr rfl

theorem mem_of_sweep {now : DateTime} {table : SessionTable} {id : UInt64}
    (h : id ∈ (table.sweep now).sessions) : id ∈ table.sessions := by
  rw [← AList.lookup_isSome] at h ⊢
  rcases lookup_sweep now table id with hnone | hsame
  · rw [hnone] at h
    cases h
  · rwa [hsame] at h

theorem value_sweep {now : DateTime} {table : SessionTable} {id : UInt64} (key : Str)
    (h : id ∈ (table.sweep now).sessions) : (table.sweep now).value id key = table.value id key := by
  rcases lookup_sweep now table id with hnone | hsame
  · exact absurd h (AList.lookup_eq_none.mp hnone)
  · rw [value, value, hsame]

theorem closeSession_ok {id : UInt64} {table table' : SessionTable}
    (h : table.closeSession id = .ok table') :
    id ∈ table.sessions ∧ table' = { table with sessions := table.sessions.erase id } := by
  unfold closeSession at h
  split_ifs at h with hmem
  exact ⟨hmem, (Except.ok.inj h).symm⟩

theorem closeSession_dead {id : UInt64} {table : SessionTable} (h : id ∉ table.sessions) :
    table.closeSession id = .error sessionException :=
  if_neg h

theorem getSessionValue_dead {id : UInt64} {table : SessionTable} (now : DateTime) (key : Str)
    (h : id ∉ table.sessions) :
    table.getSessionValue now id key = .error sessionException := by
  rw [getSessionValue, AList.lookup_eq_none.mpr h]

theorem putSessionValue_dead {id : UInt64} {table : SessionTable} (now : DateTime)
    (key value : Str) (h : id ∉ table.sessions) :
    table.putSessionValue now id key value = .error sessionException := by
  rw [putSessionValue, AList.lookup_eq_none.mpr h]

theorem getSessionValue_live {id : UInt64} {table : SessionTable} (now : DateTime) (key : Str)
    (h : id ∈ table.sessions) : ∃ session, table.sessions.lookup id = some session ∧
      table.getSessionValue now id key = .ok (table.value id key,
        { table with sessions := table.sessions.insert id (session.touch now) }) := by
  obtain ⟨session, hs⟩ := Option.isSome_iff_exists.mp (AList.lookup_isSome.mpr h)
  refine ⟨session, hs, ?_⟩
  rw [getSessionValue, hs, value, hs]
  rfl

theorem putSessionValue_live {id : UInt64} {table : SessionTable} (now : DateTime)
    (key value : Str) (h : id ∈ table.sessions) :
    ∃ session, table.sessions.lookup id = some session ∧
      table.putSessionValue now id key value = .ok { table with
        sessions := table.sessions.insert id ((session.put key value).touch now) } := by
  obtain ⟨session, hs⟩ := Option.isSome_iff_exists.mp (AList.lookup_isSome.mpr h)
  refine ⟨session, hs, ?_⟩
  rw [putSessionValue, hs]

/-- Writing a session that is open opens no other. -/
theorem mem_insert_open {table : SessionTable} {id id' : UInt64} {session session' : Session}
    (h : table.sessions.lookup id = some session) :
    id' ∈ table.sessions.insert id session' ↔ id' ∈ table.sessions := by
  rw [AList.mem_insert]
  constructor
  · rintro (rfl | hmem)
    · rw [← AList.lookup_isSome, h]
      rfl
    · exact hmem
  · exact .inr

end SessionTable
end NetServices
