import NetServices.Machine
import NetServices.SessionTable

set_option autoImplicit false

/-!
# What a session table remembers

A history is every call with its answer. A session is open since an
`OpenSession` gave it out, until it is closed or swept away; it holds under a
key what was put there last since then. The table agrees with its history after
every sequence of calls.
-/
namespace NetServices.SessionTable
open Machine (Since trace final)
open Utf16 (Str)

/-- A call takes the lock once; one that touches a session reads the clock. -/
inductive Call where
  | openSession (now : DateTime)
  | resumeSession (id : UInt64)
  | closeSession (id : UInt64)
  | getSessionValue (now : DateTime) (id : UInt64) (key : Str)
  | putSessionValue (now : DateTime) (id : UInt64) (key value : Str)
  | sweep (now : DateTime)
deriving DecidableEq

inductive Answer where
  | opened (id : UInt64)
  | resumed (sessionExists : Bool)
  | done
  | value (v : Option Str)
  | raised (e : Exn)
  /-- The sessions that a sweep has removed. -/
  | swept (expired : List UInt64)
deriving DecidableEq

def step (table : SessionTable) : Call → Answer × SessionTable
  | .openSession now => (.opened (table.openSession now).1, (table.openSession now).2)
  | .resumeSession id => (.resumed (table.resumeSession id), table)
  | .closeSession id =>
    match table.closeSession id with
    | .ok table => (.done, table)
    | .error e => (.raised e, table)
  | .getSessionValue now id key =>
    match table.getSessionValue now id key with
    | .ok (v, table) => (.value v, table)
    | .error e => (.raised e, table)
  | .putSessionValue now id key value =>
    match table.putSessionValue now id key value with
    | .ok table => (.done, table)
    | .error e => (.raised e, table)
  | .sweep now =>
    (.swept (table.sessions.keys.filter (· ∉ (table.sweep now).sessions)), table.sweep now)

section
variable (id : UInt64)

/-- `OpenSession` has returned the session. -/
def Opens (x : Call × Answer) : Prop := x.2 = .opened id

/-- The session has been closed or swept away. -/
def Removes (x : Call × Answer) : Prop :=
  x = (.closeSession id, .done) ∨ ∃ expired, x.2 = .swept expired ∧ id ∈ expired

def Puts (key value : Str) (x : Call × Answer) : Prop :=
  ∃ now, x = (.putSessionValue now id key value, .done)

def IsOpen (history : List (Call × Answer)) : Prop := Since (Opens id) (Removes id) history

/-- The value is the last that was put under the key since the session was opened. -/
def Holds (key value : Str) (history : List (Call × Answer)) : Prop :=
  Since (Puts id key value)
    (fun x => Opens id x ∨ Removes id x ∨ ∃ value, Puts id key value x) history

end

/-- A call that needs an open session. -/
def Call.session : Call → Option UInt64
  | .closeSession id | .getSessionValue _ id _ | .putSessionValue _ id _ _ => some id
  | .openSession _ | .resumeSession _ | .sweep _ => none

/-- The table and its history say the same. -/
structure Agrees (history : List (Call × Answer)) (table : SessionTable) : Prop where
  isOpen : ∀ id, id ∈ table.sessions ↔ IsOpen id history
  holds : ∀ id key v, table.value id key = some v ↔ Holds id key v history

variable {table : SessionTable}

theorem value_insert (id id' : UInt64) (session : Session) (key : Str) :
    ({ table with sessions := table.sessions.insert id session } : SessionTable).value id' key =
      if id' = id then session.values.lookup key else table.value id' key := by
  by_cases h : id' = id
  · subst h
    rw [if_pos rfl, value, AList.lookup_insert]
    rfl
  · rw [if_neg h, value, AList.lookup_insert_ne h, value]

theorem value_erase (id id' : UInt64) (key : Str) :
    ({ table with sessions := table.sessions.erase id } : SessionTable).value id' key =
      if id' = id then none else table.value id' key := by
  by_cases h : id' = id
  · subst h
    rw [if_pos rfl, value, AList.lookup_erase]
    rfl
  · rw [if_neg h, value, AList.lookup_erase_ne h, value]

theorem step_close_live {id : UInt64} (h : id ∈ table.sessions) : step table (.closeSession id) =
    (.done, { table with sessions := table.sessions.erase id }) := by
  rw [step, closeSession, if_pos h]

theorem step_dead {c : Call} {id : UInt64} (hc : c.session = some id) (h : id ∉ table.sessions) :
    step table c = (.raised sessionException, table) := by
  cases c with
  | closeSession id' =>
    obtain rfl := Option.some.inj hc
    rw [step, closeSession_dead h]
  | getSessionValue now id' key =>
    obtain rfl := Option.some.inj hc
    rw [step, getSessionValue_dead now key h]
  | putSessionValue now id' key value =>
    obtain rfl := Option.some.inj hc
    rw [step, putSessionValue_dead now key value h]
  | openSession | resumeSession | sweep => cases hc

/-- Everything a call can be. -/
inductive Stepped (table : SessionTable) : Call → Answer → SessionTable → Prop where
  | opened (now : DateTime) : Stepped table (.openSession now) (.opened table.nextSessionId)
      { table with
        nextSessionId := table.nextSessionId + 1
        sessions := table.sessions.insert table.nextSessionId (.new now) }
  | resumed (id : UInt64) :
      Stepped table (.resumeSession id) (.resumed (table.resumeSession id)) table
  | closed (id : UInt64) (mem : id ∈ table.sessions) : Stepped table (.closeSession id) .done
      { table with sessions := table.sessions.erase id }
  | read (now : DateTime) (id : UInt64) (key : Str) (session : Session)
      (entry : table.sessions.lookup id = some session) :
      Stepped table (.getSessionValue now id key) (.value (table.value id key))
        { table with sessions := table.sessions.insert id (session.touch now) }
  | stored (now : DateTime) (id : UInt64) (key v : Str) (session : Session)
      (entry : table.sessions.lookup id = some session) :
      Stepped table (.putSessionValue now id key v) .done
        { table with sessions := table.sessions.insert id ((session.put key v).touch now) }
  | swept (now : DateTime) : Stepped table (.sweep now)
      (.swept (table.sessions.keys.filter (· ∉ (table.sweep now).sessions))) (table.sweep now)
  | refused (c : Call) (id : UInt64) (session : c.session = some id)
      (dead : id ∉ table.sessions) : Stepped table c (.raised sessionException) table

theorem step_stepped (table : SessionTable) (c : Call) :
    Stepped table c (step table c).1 (step table c).2 := by
  by_cases hdead : ∃ id, c.session = some id ∧ id ∉ table.sessions
  · obtain ⟨id, hc, hid⟩ := hdead
    rw [step_dead hc hid]
    exact .refused c id hc hid
  · cases c with
    | openSession now => exact .opened now
    | resumeSession id => exact .resumed id
    | closeSession id =>
      have hid : id ∈ table.sessions := by_contra fun h => hdead ⟨id, rfl, h⟩
      rw [step_close_live hid]
      exact .closed id hid
    | getSessionValue now id key =>
      have hid : id ∈ table.sessions := by_contra fun h => hdead ⟨id, rfl, h⟩
      obtain ⟨session, hs, hget⟩ := getSessionValue_live now key hid
      rw [step, hget]
      exact .read now id key session hs
    | putSessionValue now id key v =>
      have hid : id ∈ table.sessions := by_contra fun h => hdead ⟨id, rfl, h⟩
      obtain ⟨session, hs, hput⟩ := putSessionValue_live now key v hid
      rw [step, hput]
      exact .stored now id key v session hs
    | sweep now => exact .swept now

/-- The sessions that are open after a call. -/
theorem step_mem (c : Call) (id : UInt64) : id ∈ (step table c).2.sessions ↔
    Opens id (c, (step table c).1) ∨ id ∈ table.sessions ∧ ¬ Removes id (c, (step table c).1) := by
  have hs := step_stepped table c
  generalize (step table c).1 = answer at hs ⊢
  generalize (step table c).2 = table' at hs ⊢
  cases hs with
  | opened now =>
    rw [AList.mem_insert]
    simp [Opens, Removes, eq_comm]
  | resumed id' => simp [Opens, Removes]
  | closed id' mem =>
    rw [AList.mem_erase]
    simp [Opens, Removes, eq_comm, and_comm]
  | read now id' key session entry =>
    rw [mem_insert_open entry]
    simp [Opens, Removes]
  | stored now id' key v session entry =>
    rw [mem_insert_open entry]
    simp [Opens, Removes]
  | swept now =>
    have hswept : id ∈ (table.sweep now).sessions ↔ id ∈ table.sessions ∧
        ¬ (id ∈ table.sessions ∧ id ∉ (table.sweep now).sessions) := by
      constructor
      · exact fun h => ⟨mem_of_sweep h, fun hno => hno.2 h⟩
      · exact fun h => by_contra fun hno => h.2 ⟨h.1, hno⟩
    rw [hswept]
    simp [Opens, Removes, AList.mem_keys]
  | refused => simp [Opens, Removes]

theorem value_touch {id : UInt64} {session : Session} (h : table.sessions.lookup id = some session)
    (now : DateTime) (id' : UInt64) (key : Str) :
    ({ table with sessions := table.sessions.insert id (session.touch now) } : SessionTable).value
      id' key = table.value id' key := by
  rw [value_insert]
  split_ifs with hid
  · subst hid
    rw [value, h]
    rfl
  · rfl

theorem value_put {id : UInt64} {session : Session} (h : table.sessions.lookup id = some session)
    (now : DateTime) (key v : Str) (id' : UInt64) (key' : Str) :
    ({ table with sessions := table.sessions.insert id ((session.put key v).touch now) } :
      SessionTable).value id' key' =
        if id' = id ∧ key' = key then some v else table.value id' key' := by
  rw [value_insert]
  by_cases hid : id' = id
  · subst hid
    rw [if_pos rfl]
    by_cases hkey : key' = key
    · subst hkey
      rw [if_pos ⟨rfl, rfl⟩]
      exact AList.lookup_insert _
    · rw [if_neg fun hboth => hkey hboth.2, value, h]
      exact AList.lookup_insert_ne hkey
  · rw [if_neg hid, if_neg fun hboth => hid hboth.1]

/-- The values that sessions hold after a call. -/
theorem step_value (c : Call) (id : UInt64) (key v : Str) :
    (step table c).2.value id key = some v ↔ Puts id key v (c, (step table c).1) ∨
      table.value id key = some v ∧ ¬ (Opens id (c, (step table c).1) ∨
        Removes id (c, (step table c).1) ∨ ∃ v', Puts id key v' (c, (step table c).1)) := by
  have hs := step_stepped table c
  generalize (step table c).1 = answer at hs ⊢
  generalize (step table c).2 = table' at hs ⊢
  cases hs with
  | opened now =>
    have hinsert : SessionTable.value { table with
        nextSessionId := table.nextSessionId + 1
        sessions := table.sessions.insert table.nextSessionId (.new now) } id key =
          if id = table.nextSessionId then none else table.value id key :=
      value_insert table.nextSessionId id (.new now) key
    rw [hinsert]
    simp [Opens, Removes, Puts, eq_comm, and_comm]
  | resumed id' => simp [Opens, Removes, Puts]
  | closed id' mem =>
    rw [value_erase]
    simp [Opens, Removes, Puts, eq_comm, and_comm]
  | read now id' key' session entry =>
    rw [value_touch entry]
    simp [Opens, Removes, Puts]
  | stored now id' key' v' session entry =>
    rw [value_put entry]
    have hputs : ∀ w, Puts id key w (.putSessionValue now id' key' v', .done) ↔
        (id = id' ∧ key = key') ∧ v' = w := by
      simp [Puts, eq_comm, and_assoc]
    simp only [hputs]
    split_ifs with hboth
    · simp [hboth]
    · simp [hboth, Opens, Removes]
  | swept now =>
    have hkept : (table.sweep now).value id key = some v ↔
        table.value id key = some v ∧ id ∈ (table.sweep now).sessions := by
      constructor
      · exact fun h => ⟨(value_sweep key (mem_of_value h)) ▸ h, mem_of_value h⟩
      · exact fun h => (value_sweep key h.2).trans h.1
    have hmem : table.value id key = some v → id ∈ table.sessions.keys :=
      fun h => AList.mem_keys.mp (mem_of_value h)
    rw [hkept]
    simp +contextual [Opens, Removes, Puts, AList.mem_keys, hmem]
  | refused => simp [Opens, Removes, Puts]

/-- A step keeps the table and its history in agreement. -/
theorem step_agrees {history : List (Call × Answer)} (h : Agrees history table) (c : Call) :
    Agrees (history ++ [(c, (step table c).1)]) (step table c).2 where
  isOpen id := by rw [step_mem, h.isOpen, IsOpen, IsOpen, Machine.since_concat]
  holds id key v := by rw [step_value, h.holds, Holds, Holds, Machine.since_concat]

theorem new_agrees (sessionTimeout : ℤ) : Agrees [] (new sessionTimeout) where
  isOpen id := iff_of_false (AList.notMem_empty id) Machine.not_since_nil
  holds id _ _ := iff_of_false (fun h => AList.notMem_empty id (mem_of_value h))
    Machine.not_since_nil

theorem run_agrees (sessionTimeout : ℤ) (calls : List Call) :
    Agrees (trace step (new sessionTimeout) calls) (final step (new sessionTimeout) calls) :=
  Machine.trace_invariant (I := Agrees) step (fun _ _ c h => step_agrees h c)
    (new_agrees sessionTimeout) calls

theorem step_live {c : Call} {id : UInt64} (hc : c.session = some id) (h : id ∈ table.sessions)
    (e : Exn) : (step table c).1 ≠ .raised e := by
  cases c with
  | closeSession id' =>
    obtain rfl := Option.some.inj hc
    rw [step_close_live h]
    exact fun hraised => nomatch hraised
  | getSessionValue now id' key =>
    obtain rfl := Option.some.inj hc
    obtain ⟨session, -, hget⟩ := getSessionValue_live now key h
    rw [step, hget]
    exact fun hraised => nomatch hraised
  | putSessionValue now id' key v =>
    obtain rfl := Option.some.inj hc
    obtain ⟨session, -, hput⟩ := putSessionValue_live now key v h
    rw [step, hput]
    exact fun hraised => nomatch hraised
  | openSession | resumeSession | sweep => cases hc

/-- After every sequence of calls the table answers as its history says: which sessions
    are open, what `ResumeSession` returns, which calls raise and leave the table as it
    is, and what `GetSessionValue` returns. -/
theorem meets_history (sessionTimeout : ℤ) (calls : List Call) :
    let history := trace step (new sessionTimeout) calls
    let table := final step (new sessionTimeout) calls
    (∀ id, id ∈ table.sessions ↔ IsOpen id history) ∧
    (∀ id, ∃ sessionExists, step table (.resumeSession id) = (.resumed sessionExists, table) ∧
      (sessionExists = true ↔ IsOpen id history)) ∧
    (∀ c id, c.session = some id →
      ((∃ e, (step table c).1 = .raised e) ↔ ¬ IsOpen id history) ∧
      (¬ IsOpen id history → step table c = (.raised sessionException, table))) ∧
    ∀ now id key, IsOpen id history →
      ∃ v, (step table (.getSessionValue now id key)).1 = .value v ∧
        ∀ w, v = some w ↔ Holds id key w history := by
  intro history table
  obtain ⟨hopen, hholds⟩ : Agrees history table := run_agrees sessionTimeout calls
  refine ⟨hopen, fun id => ⟨_, rfl, ?_⟩, fun c id hc => ?_, fun now id key hid => ?_⟩
  · rw [← hopen, resumeSession, AList.lookup_isSome]
  · rw [← hopen]
    refine ⟨⟨?_, fun h => ⟨_, congrArg Prod.fst (step_dead hc h)⟩⟩, step_dead hc⟩
    rintro ⟨e, he⟩ h
    exact step_live hc h e he
  · rw [← hopen] at hid
    obtain ⟨session, -, hget⟩ := getSessionValue_live now key hid
    refine ⟨table.value id key, ?_, hholds id key⟩
    rw [step, hget]

end NetServices.SessionTable
