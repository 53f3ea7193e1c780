import NetServices.SessionHistory
import NetServices.Clock

set_option autoImplicit false

/-!
# When a session was last used

The table keeps for each session when it was last opened, read or written.
`ResumeSession` leaves that alone, so a sweep can remove a session that a client
has just been told is open.
-/
namespace NetServices.SessionTable
open Machine (trace final)
open Clock (From Latest)
open Utf16 (Str lit)

/-- A call of the table, or a sweep. -/
inductive Op where
  | openSession
  | resumeSession (id : UInt64)
  | closeSession (id : UInt64)
  | getSessionValue (id : UInt64) (key : Str)
  | putSessionValue (id : UInt64) (key value : Str)
  | sweep
deriving DecidableEq

def Op.call (now : DateTime) : Op → Call
  | .openSession => .openSession now
  | .resumeSession id => .resumeSession id
  | .closeSession id => .closeSession id
  | .getSessionValue id key => .getSessionValue now id key
  | .putSessionValue id key value => .putSessionValue now id key value
  | .sweep => .sweep now

def timedStep (table : SessionTable) (x : DateTime × Op) : Answer × SessionTable :=
  table.step (x.2.call x.1)

/-- A call with its time, and its answer. -/
abbrev Entry := (DateTime × Op) × Answer

def Entry.time (x : Entry) : DateTime := x.1.1

/-- The session has been opened, read or written. -/
def Touches (id : UInt64) (x : Entry) : Prop :=
  x.2 = .opened id ∨ (∃ key v, x.1.2 = .getSessionValue id key ∧ x.2 = .value v) ∨
    ∃ key value, x.1.2 = .putSessionValue id key value ∧ x.2 = .done

/-- `ResumeSession` has found the session. -/
def Resumes (id : UInt64) (x : Entry) : Prop :=
  x.1.2 = .resumeSession id ∧ x.2 = .resumed true

/-- The session has been used with success. -/
def Uses (id : UInt64) (x : Entry) : Prop := Touches id x ∨ Resumes id x

/-- Every open session has the time at which it was last opened, read or written. -/
def Touched (history : List Entry) (table : SessionTable) : Prop :=
  ∀ id session, table.sessions.lookup id = some session →
    Latest Entry.time (Touches id) history session.lastAccessed

/-- A sweep removes the sessions whose last use is more than the timeout ago, no others, and
    leaves those as they are. -/
structure SweepsIdle (sessionTimeout : ℤ) (history : List Entry) (table table' : SessionTable)
    (now : DateTime) : Prop where
  removed : ∀ id ∈ table.sessions, ∃ lastUse, Latest Entry.time (Uses id) history lastUse ∧
    (id ∉ table'.sessions ↔ sessionTimeout < (now : ℤ) - (lastUse : ℤ))
  kept : ∀ id ∈ table'.sessions,
    id ∈ table.sessions ∧ ∀ key, table'.value id key = table.value id key

/-- An open session was resumed within the timeout, and not opened, read or written. -/
def OnlyResumed (sessionTimeout : ℤ) (history : List Entry) (table : SessionTable)
    (now : DateTime) : Prop :=
  ∃ id ∈ table.sessions,
    (∃ x ∈ history, Resumes id x ∧ (now : ℤ) - (x.time : ℤ) ≤ sessionTimeout) ∧
    ∀ x ∈ history, Touches id x → sessionTimeout < (now : ℤ) - (x.time : ℤ)

section
variable {table : SessionTable}

theorem lookup_insert (id id' : UInt64) (session : Session) :
    (table.sessions.insert id session).lookup id' =
      if id' = id then some session else table.sessions.lookup id' := by
  split_ifs with h
  · rw [h]
    exact AList.lookup_insert _
  · exact AList.lookup_insert_ne h

/-- A session that is in the table after a call was touched by the call, or has the time
    that it had before. -/
theorem timedStep_lookup {now : DateTime} {op : Op} {id : UInt64} {session : Session}
    (h : (timedStep table (now, op)).2.sessions.lookup id = some session) :
    (Touches id ((now, op), (timedStep table (now, op)).1) ∧ session.lastAccessed = now) ∨
      ¬ Touches id ((now, op), (timedStep table (now, op)).1) ∧
        ∃ session', table.sessions.lookup id = some session' ∧
          session'.lastAccessed = session.lastAccessed := by
  have hs : Stepped table (op.call now) (timedStep table (now, op)).1
      (timedStep table (now, op)).2 := step_stepped table (op.call now)
  generalize (timedStep table (now, op)).1 = answer at hs ⊢
  generalize (timedStep table (now, op)).2 = table' at hs h
  generalize hcall : op.call now = call at hs
  cases hs with
  | opened =>
    cases op <;> cases hcall
    rw [lookup_insert] at h
    split_ifs at h with hid
    · exact .inl ⟨.inl (by rw [hid]), congrArg Session.lastAccessed (Option.some.inj h).symm⟩
    · exact .inr ⟨by simp [Touches, Ne.symm hid], session, h, rfl⟩
  | resumed =>
    cases op <;> cases hcall
    exact .inr ⟨by simp [Touches], session, h, rfl⟩
  | closed id' mem =>
    cases op <;> cases hcall
    refine .inr ⟨by simp [Touches], session, ?_, rfl⟩
    by_cases hid : id = id'
    · rw [hid] at h
      cases (AList.lookup_erase _ _).symm.trans h
    · exact (AList.lookup_erase_ne hid).symm.trans h
  | read _ id' key old entry =>
    cases op <;> cases hcall
    rw [lookup_insert] at h
    split_ifs at h with hid
    · rw [hid]
      exact .inl ⟨.inr (.inl ⟨key, _, rfl, rfl⟩),
        congrArg Session.lastAccessed (Option.some.inj h).symm⟩
    · exact .inr ⟨by simp [Touches, Ne.symm hid], session, h, rfl⟩
  | stored _ id' key v old entry =>
    cases op <;> cases hcall
    rw [lookup_insert] at h
    split_ifs at h with hid
    · rw [hid]
      exact .inl ⟨.inr (.inr ⟨key, v, rfl, rfl⟩),
        congrArg Session.lastAccessed (Option.some.inj h).symm⟩
    · exact .inr ⟨by simp [Touches, Ne.symm hid], session, h, rfl⟩
  | swept =>
    cases op <;> cases hcall
    refine .inr ⟨by simp [Touches], session, ?_, rfl⟩
    rcases lookup_sweep now table id with hnone | hsame
    · cases hnone.symm.trans h
    · exact hsame.symm.trans h
  | refused => exact .inr ⟨by simp [Touches], session, h, rfl⟩

theorem timedStep_touched {history : List Entry} {now : DateTime} (op : Op)
    (h : Touched history table) (hle : ∀ x ∈ history, x.time ≤ now) :
    Touched (history ++ [((now, op), (timedStep table (now, op)).1)])
      (timedStep table (now, op)).2 := by
  intro id session hlookup
  rcases timedStep_lookup hlookup with ⟨htouches, htime⟩ | ⟨htouches, session', hold, htime⟩
  · rw [htime]
    exact Clock.latest_concat (x := ((now, op), (timedStep table (now, op)).1)) hle htouches
  · rw [← htime]
    exact (h id session' hold).concat htouches

theorem timedStep_timeout (table : SessionTable) (x : DateTime × Op) :
    (table.timedStep x).2.sessionTimeout = table.sessionTimeout := by
  have hs : Stepped table (x.2.call x.1) (table.timedStep x).1 (table.timedStep x).2 :=
    step_stepped table (x.2.call x.1)
  generalize (table.timedStep x).1 = answer at hs
  generalize (table.timedStep x).2 = table' at hs ⊢
  generalize x.2.call x.1 = call at hs
  cases hs <;> rfl

theorem sweep_removes_iff {now : DateTime} {id : UInt64} {session : Session}
    (h : table.sessions.lookup id = some session) :
    id ∉ (table.sweep now).sessions ↔
      table.sessionTimeout < (now : ℤ) - (session.lastAccessed : ℤ) := by
  have hmem : id ∈ table.sessions.keys := by
    rw [← AList.mem_keys, ← AList.lookup_isSome, h]
    rfl
  rw [← AList.lookup_eq_none, sweep, lookup_erase_all]
  split_ifs with hexpired
  · rw [List.mem_filter, h] at hexpired
    exact iff_of_true rfl (of_decide_eq_true hexpired.2)
  · rw [List.mem_filter, h] at hexpired
    exact iff_of_false (by rw [h]; exact Option.some_ne_none session) fun hidle =>
      hexpired ⟨hmem, decide_eq_true hidle⟩

/-- A sweep removes exactly the idle sessions if it comes upon none that was only resumed. -/
theorem sweep_idle_iff {history : List Entry} {now : DateTime} (h : Touched history table)
    (hle : ∀ x ∈ history, x.time ≤ now) :
    SweepsIdle table.sessionTimeout history table (table.sweep now) now ↔
      ¬ OnlyResumed table.sessionTimeout history table now := by
  constructor
  · rintro hidle ⟨id, hmem, ⟨x, hx, hresumes, hwithin⟩, hbefore⟩
    obtain ⟨session, hsession⟩ := Option.isSome_iff_exists.mp (AList.lookup_isSome.mpr hmem)
    obtain ⟨⟨y, hy, htouches, htime⟩, -⟩ := h id session hsession
    have hgone : id ∉ (table.sweep now).sessions := by
      rw [sweep_removes_iff hsession, ← htime]
      exact hbefore y hy htouches
    obtain ⟨lastUse, hlast, hremoved⟩ := hidle.removed id hmem
    have hlater : (x.time : ℤ) ≤ lastUse :=
      Int.ofNat_le.mpr (hlast.2 ⟨x, hx, .inr hresumes, rfl⟩)
    have hidle := hremoved.mp hgone
    omega
  · intro hresumed
    refine ⟨fun id hmem => ?_, fun id hmem => ⟨mem_of_sweep hmem, fun key => value_sweep key hmem⟩⟩
    obtain ⟨session, hsession⟩ := Option.isSome_iff_exists.mp (AList.lookup_isSome.mpr hmem)
    obtain ⟨⟨y, hy, htouches, htime⟩, hgreatest⟩ := h id session hsession
    obtain ⟨lastUse, hlast, hlater, -⟩ := Clock.exists_latest hle hy (P := Uses id) (.inl htouches)
    refine ⟨lastUse, hlast, ?_⟩
    have hlater' : (session.lastAccessed : ℤ) ≤ lastUse := Int.ofNat_le.mpr (htime ▸ hlater)
    rw [sweep_removes_iff hsession]
    constructor
    · intro hold
      by_contra hrecent
      have htouched : ∀ z ∈ history, Touches id z → (z.time : ℤ) ≤ session.lastAccessed :=
        fun z hz htouches => Int.ofNat_le.mpr (hgreatest ⟨z, hz, htouches, rfl⟩)
      obtain ⟨x, hx, huses, rfl⟩ := hlast.1
      rcases huses with htouches | hresumes
      · have hle' := htouched x hx htouches
        omega
      · refine hresumed ⟨id, hmem, ⟨x, hx, hresumes, by omega⟩, fun z hz htouches => ?_⟩
        have hle' := htouched z hz htouches
        omega
    · intro hidle
      omega

end

section
variable (sessionTimeout : ℤ)

theorem run_touched {t : DateTime} {ops : List (DateTime × Op)} (h : From Prod.fst t ops) :
    Touched (trace timedStep (new sessionTimeout) ops) (final timedStep (new sessionTimeout) ops) ∧
      (final timedStep (new sessionTimeout) ops).sessionTimeout = sessionTimeout := by
  induction ops using List.reverseRecOn with
  | nil => exact ⟨fun id session hnone => (by cases hnone), rfl⟩
  | append_singleton ops x ih =>
    obtain ⟨htouched, htimeout⟩ := ih h.left
    rw [Machine.trace_append, Machine.final_append]
    refine ⟨timedStep_touched x.2 htouched ?_, (timedStep_timeout _ x).trans htimeout⟩
    intro y hy
    refine h.le y.1 ?_
    have hinput := List.mem_map_of_mem (f := Prod.fst) hy
    rwa [Machine.trace_inputs] at hinput

/-- In every run of the table the sweeps remove exactly the idle sessions, except for a
    session that a sweep finds resumed within the timeout but not opened, read or written. -/
theorem sweeps_idle_iff {t : DateTime} {ops : List (DateTime × Op)} (h : From Prod.fst t ops) :
    (∀ before now after, ops = before ++ (now, .sweep) :: after →
      SweepsIdle sessionTimeout (trace timedStep (new sessionTimeout) before)
        (final timedStep (new sessionTimeout) before)
        (final timedStep (new sessionTimeout) (before ++ [(now, .sweep)])) now) ↔
      ∀ before now after, ops = before ++ (now, .sweep) :: after →
        ¬ OnlyResumed sessionTimeout (trace timedStep (new sessionTimeout) before)
          (final timedStep (new sessionTimeout) before) now := by
  refine forall₄_congr fun before now after hops => ?_
  subst hops
  obtain ⟨htouched, htimeout⟩ := run_touched sessionTimeout h.left
  have hle : ∀ x ∈ trace timedStep (new sessionTimeout) before, Entry.time x ≤ now := by
    intro x hx
    have hinput := List.mem_map_of_mem (f := Prod.fst) hx
    rw [Machine.trace_inputs] at hinput
    exact h.le x.1 hinput
  have hiff := sweep_idle_iff htouched hle
  rw [htimeout] at hiff
  rw [Machine.final_append]
  exact hiff

end

theorem sweeps_idle_iff_read :
    let ops : List (DateTime × Op) :=
      [(0, .openSession), (8, .getSessionValue 1 (lit "a")), (15, .sweep)]
    (∀ before now after, ops = before ++ (now, .sweep) :: after →
      SweepsIdle 10 (trace timedStep (new 10) before) (final timedStep (new 10) before)
        (final timedStep (new 10) (before ++ [(now, .sweep)])) now) ↔
      ∀ before now after, ops = before ++ (now, .sweep) :: after →
        ¬ OnlyResumed 10 (trace timedStep (new 10) before) (final timedStep (new 10) before) now :=
  sweeps_idle_iff 10 (t := 0) (by simp [From])

/-- A session is swept away that was resumed within the timeout. -/
theorem resumed_session_swept :
    let ops : List (DateTime × Op) := [(0, .openSession), (8, .resumeSession 1)]
    let table := final timedStep (new 10) ops
    (table.timedStep (8, .resumeSession 1)).1 = .resumed true ∧
      (table.timedStep (15, .sweep)).1 = .swept [1] ∧
      ¬ SweepsIdle 10 (trace timedStep (new 10) ops) table (table.timedStep (15, .sweep)).2 15 := by
  intro ops table
  refine ⟨by decide, by decide, fun h => ?_⟩
  obtain ⟨lastUse, hlast, hremoved⟩ := h.removed 1 (by decide)
  have hlater : (8 : ℤ) ≤ lastUse := Int.ofNat_le.mpr
    (hlast.2 ⟨((8, .resumeSession 1), .resumed true), by decide, .inr ⟨rfl, rfl⟩, rfl⟩)
  have hidle := hremoved.mp (by decide)
  omega

end NetServices.SessionTable
