import NetServices.SDConnectedClient

set_option autoImplicit false

/-!
# What a pass of the loop amounts to

Whatever becomes of the response stream, a pass of the loop reads one command,
executes it on the connection, the session table and the files, and sends one
reply. `nextCommand` and `execute` say so without streams and exceptions, and
`loopBody_passed` connects them to the program. A response stream that takes
everything gets the text of the reply.
-/
namespace NetServices.SDServer
open Utf16 (Str lit)
open TextReader (Reader)
open Numerals (decimal parseInt parseULong)
open Exceptions

inductive Reply where
  | accepted (sessionId : UInt64)
  | rejected (reason : Str)
  | closed (sessionId : UInt64)
  | success
  | document (name content : Str)
  | error (message : Str)
deriving DecidableEq

def Reply.text (newLine : Str) : Reply → Str
  | .accepted sessionId => lit "accepted" ++ newLine ++ (decimal sessionId.toNat ++ newLine)
  | .rejected reason => lit "rejected" ++ newLine ++ (reason ++ newLine)
  | .closed sessionId => lit "closed" ++ newLine ++ (decimal sessionId.toNat ++ newLine)
  | .success => lit "success" ++ newLine
  | .document name content => lit "success" ++ newLine ++ (name ++ newLine ++
      (decimal content.length ++ newLine ++ content))
  | .error message => lit "error" ++ newLine ++ (message ++ newLine)

/-- A command with the arguments its handler reads. `none` is an argument that
    does not parse, and a post without a name reads nothing more. -/
inductive Command where
  | open
  | resume (id : Option UInt64)
  | close (id : Option UInt64)
  | get (name : Str)
  | postUnnamed
  | postUnsized (name : Str)
  | postNegative (name : Str)
  | post (name content : Str)
  | invalid (line : Str)
deriving DecidableEq

/-- The arguments of a post. -/
def readPost (r : Reader) : Command × Reader :=
  let (name, r) := r.readLine
  if name.getD [] = [] then (.postUnnamed, r)
  else
    let (length, r) := r.readLine
    match parseInt length with
    | none => (.postUnsized (name.getD []), r)
    | some length =>
      if length < 0 then (.postNegative (name.getD []), r)
      else
        let (content, r) := r.readBlock length.toNat length.toNat
        (.post (name.getD []) content, r)

/-- The next command on the stream, none at its end or at an empty line. A
    connection without a session does not read the name that follows `get`. -/
def nextCommand (sessionId : UInt64) (r : Reader) : Option Command × Reader :=
  match r.readLine with
  | (none, r) => (none, r)
  | (some msg, r) =>
    if msg = [] then (none, r)
    else if msg = lit "open" then (some .open, r)
    else if msg = lit "resume" then (some (.resume (parseULong r.readLine.1)), r.readLine.2)
    else if msg = lit "close" then (some (.close (parseULong r.readLine.1)), r.readLine.2)
    else if msg = lit "get" then
      if sessionId = 0 then (some (.get []), r)
      else (some (.get (r.readLine.1.getD [])), r.readLine.2)
    else if msg = lit "post" then (some (readPost r).1, (readPost r).2)
    else (some (.invalid msg), r)

def Core.post (host : Host) (now : DateTime) (name content : Str) (core : Core) : Reply × Core :=
  if host.startsWithSlash name then
    let path := pathCombine host host.currentDirectory (name.dropWhile (· == 0x2F))
    let files := core.files ++ [(path, content)]
    match host.writeAllText core.files path content with
    | none => (.success, { core with files := files })
    | some e => (.error (lit "Post failed: " ++ e.message), { core with files := files })
  else
    match core.table.putSessionValue now core.sessionId name content with
    | .ok table => (.success, { core with table := table })
    | .error e => (.error (lit "Post failed: " ++ e.message), core)

def Core.get (now : DateTime) (name : Str) (core : Core) : Reply × Core :=
  if core.sessionId = 0 then (.error (lit "No session open. Cannot perform GET."), core)
  else if name = [] then (.error (lit "No document name provided."), core)
  else
    match core.table.getSessionValue now core.sessionId name with
    | .error e => (.error e.message, core)
    | .ok (value, table) =>
      if value.getD [] = [] then
        (.error (lit "Document was empty or does not exist"), { core with table := table })
      else (.document name (value.getD []), { core with table := table })

def Core.resume (id : UInt64) (core : Core) : Reply × Core :=
  if core.sessionId = 0 then
    if core.table.resumeSession id then (.accepted id, { core with sessionId := id })
    else (.rejected (lit "Failed to resume session: " ++ decimal id.toNat), core)
  else (.error (lit "Session already open, cannot resume!"), core)

def Core.open (now : DateTime) (core : Core) : Reply × Core :=
  if core.sessionId = 0 then
    let (id, table) := core.table.openSession now
    (.accepted id, { core with sessionId := id, table := table })
  else (.error (lit "Session already open!"), core)

def Core.close (core : Core) : Reply × Core :=
  match core.table.closeSession core.sessionId with
  | .ok table => (.closed core.sessionId, { core with table := table })
  | .error e => (.error e.message, core)

/-- The reply to a command and its effect. A post of negative length raises. -/
def execute (host : Host) (now : DateTime) (core : Core) : Command → Option (Reply × Core)
  | .open => some (core.open now)
  | .resume none | .close none => some (.error (lit "Invalid session ID."), core)
  | .resume (some id) => some (core.resume id)
  | .close (some _) => some core.close
  | .get name => some (core.get now name)
  | .postUnnamed => some (.error (lit "Missing document name."), core)
  | .postUnsized _ => some (.error (lit "Invalid document length."), core)
  | .postNegative _ => none
  | .post name content => some (core.post host now name content)
  | .invalid line => some (.error (lit "Invalid message: " ++ line), core)

def Command.isInvalid : Command → Bool
  | .invalid _ => true
  | _ => false

/-- What others do to the session table before a pass. -/
def Core.others (tick : Tick) (core : Core) : Core := { core with table := tick.others core.table }

/-- A platform on which every file can be written. -/
def Host.unix : Host where
  newLine := lit "\n"
  isNewLine := .inl rfl
  currentDirectory := lit "/srv"
  startsWithSlash name := name.head? == some 0x2F
  isPathRooted path := path.head? == some 0x2F
  endsInSeparator path := path.getLast? == some 0x2F
  directorySeparator := 0x2F
  writeAllText _ _ _ := none
  creates _ _ _ := true
  written_created _ _ _ _ := rfl
  negativeCapacity := lit "capacity must be a non-negative value."

theorem nextCommand_open {r r' : Reader} (id : UInt64) (h : r.readLine = (some (lit "open"), r')) :
    nextCommand id r = (some .open, r') := by
  simp only [nextCommand, h]
  rw [if_neg (by decide), if_pos trivial]

theorem nextCommand_resume {r r' : Reader} (id : UInt64)
    (h : r.readLine = (some (lit "resume"), r')) :
    nextCommand id r = (some (.resume (parseULong r'.readLine.1)), r'.readLine.2) := by
  simp only [nextCommand, h]
  rw [if_neg (by decide), if_neg (by decide), if_pos trivial]

theorem nextCommand_close {r r' : Reader} (id : UInt64)
    (h : r.readLine = (some (lit "close"), r')) :
    nextCommand id r = (some (.close (parseULong r'.readLine.1)), r'.readLine.2) := by
  simp only [nextCommand, h]
  rw [if_neg (by decide), if_neg (by decide), if_neg (by decide), if_pos trivial]

theorem nextCommand_get {r r' : Reader} (id : UInt64) (h : r.readLine = (some (lit "get"), r')) :
    nextCommand id r = if id = 0 then (some (.get []), r')
      else (some (.get (r'.readLine.1.getD [])), r'.readLine.2) := by
  simp only [nextCommand, h]
  rw [if_neg (by decide), if_neg (by decide), if_neg (by decide), if_neg (by decide),
    if_pos trivial]

theorem nextCommand_post {r r' : Reader} (id : UInt64)
    (h : r.readLine = (some (lit "post"), r')) :
    nextCommand id r = (some (readPost r').1, (readPost r').2) := by
  simp only [nextCommand, h]
  rw [if_neg (by decide), if_neg (by decide), if_neg (by decide), if_neg (by decide),
    if_neg (by decide), if_pos trivial]

/-- A response stream that takes everything. -/
def Host.reliable (host : Host) : Env Str :=
  { host with write := fun text writer => (none, writer ++ text) }

section

variable {W : Type}

/-- The send method for a reply. -/
def Reply.send (env : Env W) : Reply → Server W Unit
  | .accepted sessionId => sendAccepted env sessionId
  | .rejected reason => sendRejected env reason
  | .closed sessionId => sendClosed env sessionId
  | .success => sendSuccess env
  | .document name content => sendDocument env name content
  | .error message => sendError env message

/-- What a handler does with an exception that sending its reply raises. -/
inductive Guard where
  | unguarded
  | answered (start : String)
  | rethrown

def Guard.run (env : Env W) (m : Server W Unit) : Guard → Server W Unit
  | .unguarded => m
  | .answered start => tryCatch m fun ex => sendError env (lit start ++ ex.message)
  | .rethrown => tryCatch m fun ex => do
      sendError env ex.message
      throw ex

/-- The outcome of a handler that has read a command. It executes the command, whatever
    becomes of the response stream, and sends the reply. Only an error is sent outside of
    a try block. -/
inductive Answers (env : Env W) (now : DateTime) (σ : State W) (command : Command) (r : Reader) :
    EStateM.Result Exn (State W) Unit → Prop where
  | replied (reply : Reply) (core : Core) (guard : Guard)
      (exec : execute env.toHost now σ.toCore command = some (reply, core))
      (guarded : guard = .unguarded → ∃ message, reply = .error message) :
      Answers env now σ command r
        (guard.run env (reply.send env) { σ with toCore := core, reader := r })
  | raised (exec : execute env.toHost now σ.toCore command = none) :
      Answers env now σ command r
        (.error ⟨.argumentOutOfRange, env.negativeCapacity⟩ { σ with reader := r })

theorem readLine_run (σ : State W) : (readLine : Server W (Option Str)) σ =
    .ok σ.reader.readLine.1 { σ with reader := σ.reader.readLine.2 } := rfl

section

variable {env : Env W} {now : DateTime} {σ σ' : State W} {command : Command} {r : Reader}
  {reply : Reply} {core : Core} {m : Server W Unit}

/-- A program that comes down to sending the reply, in a try block. -/
theorem answers_guarded (guard : Guard) (hguard : guard ≠ .unguarded)
    (hexec : execute env.toHost now σ.toCore command = some (reply, core))
    (hm : m σ' = reply.send env { σ with toCore := core, reader := r }) :
    Answers env now σ command r (guard.run env m σ') := by
  have hrun : guard.run env m σ' =
      guard.run env (reply.send env) { σ with toCore := core, reader := r } := by
    cases guard with
    | unguarded => exact hm
    | answered start => simp only [Guard.run, tryCatch_run, hm]
    | rethrown => simp only [Guard.run, tryCatch_run, hm]
  rw [hrun]
  exact .replied reply core guard hexec fun h => absurd h hguard

theorem answers_error {message : Str}
    (hexec : execute env.toHost now σ.toCore command = some (.error message, core)) :
    Answers env now σ command r
      (sendError env message { σ with toCore := core, reader := r }) :=
  .replied (.error message) core .unguarded hexec fun _ => ⟨message, rfl⟩

end

variable (env : Env W) (now : DateTime) (σ : State W)

theorem handleOpen_answers : Answers env now σ .open σ.reader (handleOpen env now σ) := by
  unfold handleOpen
  rw [bind_run, get_run]
  simp only
  by_cases h : σ.sessionId = 0
  · rw [if_pos h]
    exact answers_guarded (.answered "") nofun (congrArg some (if_pos h)) rfl
  · rw [if_neg h]
    exact answers_error (congrArg some (if_neg h))

theorem handleResume_answers : Answers env now σ (.resume (parseULong σ.reader.readLine.1))
    σ.reader.readLine.2 (handleResume env σ) := by
  unfold handleResume
  rw [bind_run, readLine_run]
  simp only
  cases parseULong σ.reader.readLine.1 with
  | none => exact answers_error rfl
  | some id =>
    by_cases h : σ.sessionId = 0
    · by_cases ho : σ.table.resumeSession id = true
      · have hexec : execute env.toHost now σ.toCore (.resume (some id)) =
            some (.accepted id, { σ.toCore with sessionId := id }) := by
          simp only [execute, Core.resume, h, ho, if_true]
        apply answers_guarded .rethrown nofun hexec
        simp only [bind_run, get_run, h, ho, if_true]
        rfl
      · have hexec : execute env.toHost now σ.toCore (.resume (some id)) =
            some (.rejected (lit "Failed to resume session: " ++ decimal id.toNat), σ.toCore) := by
          simp only [execute, Core.resume, h, ho, if_true, if_false, Bool.false_eq_true]
        apply answers_guarded .rethrown nofun hexec
        simp only [bind_run, get_run, h, ho, if_true, if_false, Bool.false_eq_true]
        rfl
    · have hexec : execute env.toHost now σ.toCore (.resume (some id)) =
          some (.error (lit "Session already open, cannot resume!"), σ.toCore) := by
        simp only [execute, Core.resume, h, if_false]
      apply answers_guarded .rethrown nofun hexec
      simp only [bind_run, get_run, h, if_false]
      rfl

theorem handleClose_answers : Answers env now σ (.close (parseULong σ.reader.readLine.1))
    σ.reader.readLine.2 (handleClose env σ) := by
  unfold handleClose
  rw [bind_run, readLine_run]
  simp only
  cases parseULong σ.reader.readLine.1 with
  | none => exact answers_error rfl
  | some id =>
    cases hc : σ.table.closeSession σ.sessionId with
    | ok table =>
      have hexec : execute env.toHost now σ.toCore (.close (some id)) =
          some (.closed σ.sessionId, { σ.toCore with table := table }) := by
        simp only [execute, Core.close, hc]
      apply answers_guarded (.answered "") nofun hexec
      simp only [bind_run, get_run, sessionTable, hc, Except.map]
      rfl
    | error e =>
      have hexec : execute env.toHost now σ.toCore (.close (some id)) =
          some (.error e.message, σ.toCore) := by
        simp only [execute, Core.close, hc]
      simp only [bind_run, get_run, tryCatch_run, sessionTable, hc, Except.map]
      exact answers_error hexec

theorem handleGet_answers : if σ.sessionId = 0
    then Answers env now σ (.get []) σ.reader (handleGet env now σ)
    else Answers env now σ (.get (σ.reader.readLine.1.getD [])) σ.reader.readLine.2
      (handleGet env now σ) := by
  unfold handleGet
  rw [bind_run, get_run]
  simp only
  by_cases h : σ.sessionId = 0
  · rw [if_pos h, if_neg (not_not_intro h)]
    exact answers_error (congrArg some (if_pos h))
  · rw [if_neg h, if_pos h]
    by_cases hn : σ.reader.readLine.1.getD [] = []
    · have hexec : execute env.toHost now σ.toCore (.get (σ.reader.readLine.1.getD [])) =
          some (.error (lit "No document name provided."), σ.toCore) := by
        simp only [execute, Core.get, if_neg h, if_pos hn]
      apply answers_guarded (.answered "") nofun hexec
      simp only [bind_run, readLine_run, hn, if_true]
      rfl
    · cases hg : σ.table.getSessionValue now σ.sessionId (σ.reader.readLine.1.getD []) with
      | error e =>
        have hexec : execute env.toHost now σ.toCore (.get (σ.reader.readLine.1.getD [])) =
            some (.error e.message, σ.toCore) := by
          simp only [execute, Core.get, if_neg h, if_neg hn, hg]
        simp only [bind_run, tryCatch_run, readLine_run, hn, if_false, sessionTable, hg]
        exact answers_error hexec
      | ok result =>
        obtain ⟨value, table⟩ := result
        by_cases hv : value.getD [] = []
        · have hexec : execute env.toHost now σ.toCore (.get (σ.reader.readLine.1.getD [])) =
              some (.error (lit "Document was empty or does not exist"),
                { σ.toCore with table := table }) := by
            simp only [execute, Core.get, if_neg h, if_neg hn, hg, if_pos hv]
          apply answers_guarded (.answered "") nofun hexec
          simp only [bind_run, readLine_run, hn, if_false, sessionTable, hg, hv, if_true]
          rfl
        · have hexec : execute env.toHost now σ.toCore (.get (σ.reader.readLine.1.getD [])) =
              some (.document (σ.reader.readLine.1.getD []) (value.getD []),
                { σ.toCore with table := table }) := by
            simp only [execute, Core.get, if_neg h, if_neg hn, hg, if_neg hv]
          apply answers_guarded (.answered "") nofun hexec
          simp only [bind_run, readLine_run, hn, if_false, sessionTable, hg, hv]
          rfl

/-- The try block of a post, with its handler. -/
theorem storeDocument_answers (r : Reader) (name content : Str) :
    Answers env now σ (.post name content) r
      ((tryCatch (storeDocument env now name content >>= fun _ => sendSuccess env)
        (fun ex => sendError env (lit "Post failed: " ++ ex.message)) : Server W Unit)
        { σ with reader := r }) := by
  by_cases hs : env.startsWithSlash name = true
  · cases hw : env.writeAllText σ.files (pathCombine env.toHost env.currentDirectory
        (name.dropWhile (· == 0x2F))) content with
    | none =>
      have hexec : execute env.toHost now σ.toCore (.post name content) =
          some (.success, { σ.toCore with files := σ.files ++ [(pathCombine env.toHost
            env.currentDirectory (name.dropWhile (· == 0x2F)), content)] }) := by
        simp only [execute, Core.post, if_pos hs, hw]
      apply answers_guarded (.answered "Post failed: ") nofun hexec
      simp only [bind_run, storeDocument, if_pos hs, writeAllText, hw]
      rfl
    | some e =>
      have hexec : execute env.toHost now σ.toCore (.post name content) =
          some (.error (lit "Post failed: " ++ e.message),
            { σ.toCore with files := σ.files ++ [(pathCombine env.toHost
              env.currentDirectory (name.dropWhile (· == 0x2F)), content)] }) := by
        simp only [execute, Core.post, if_pos hs, hw]
      simp only [tryCatch_run, bind_run, storeDocument, if_pos hs, writeAllText, hw]
      exact answers_error hexec
  · cases hp : σ.table.putSessionValue now σ.sessionId name content with
    | ok table =>
      have hexec : execute env.toHost now σ.toCore (.post name content) =
          some (.success, { σ.toCore with table := table }) := by
        simp only [execute, Core.post, if_neg hs, hp]
      apply answers_guarded (.answered "Post failed: ") nofun hexec
      simp only [bind_run, storeDocument, if_neg hs, get_run, sessionTable, hp, Except.map]
      rfl
    | error e =>
      have hexec : execute env.toHost now σ.toCore (.post name content) =
          some (.error (lit "Post failed: " ++ e.message), σ.toCore) := by
        simp only [execute, Core.post, if_neg hs, hp]
      simp only [tryCatch_run, bind_run, storeDocument, if_neg hs, get_run, sessionTable, hp,
        Except.map]
      exact answers_error hexec

theorem handlePost_answers : Answers env now σ (readPost σ.reader).1 (readPost σ.reader).2
    (handlePost env now σ) := by
  unfold handlePost readPost
  rw [bind_run, readLine_run]
  by_cases hn : σ.reader.readLine.1.getD [] = []
  · simp only [hn, if_true]
    exact answers_error rfl
  · simp only [hn, if_false, bind_run, readLine_run]
    cases parseInt σ.reader.readLine.2.readLine.1 with
    | none => exact answers_error rfl
    | some length =>
      by_cases hneg : length < 0
      · simp only [receiveDocument, hneg, if_true, throw_run, bind_run]
        exact .raised rfl
      · simp only [receiveDocument, hneg, if_false, modifyGet_run, bind_run]
        exact storeDocument_answers env now σ _ _ _

theorem readPost_isInvalid (r : Reader) : (readPost r).1.isInvalid = false := by
  unfold readPost
  simp only
  split_ifs
  · rfl
  · split
    · rfl
    · split_ifs <;> rfl

/-- The end of a pass whose handler has this outcome. -/
def flagged (done : Bool) : EStateM.Result Exn (State W) Unit → EStateM.Result Exn (State W) Bool
  | .ok _ σ => .ok done σ
  | .error e σ => .error e σ

theorem flagged_run (m : Server W Unit) (done : Bool) (σ : State W) :
    (m >>= fun _ => pure done) σ = flagged done (m σ) := by
  rw [bind_run]
  cases m σ <;> rfl

/-- What one pass of the loop comes to. -/
inductive Passed (env : Env W) (now : DateTime) (σ : State W) :
    EStateM.Result Exn (State W) Bool → Prop where
  | ended (r : Reader) (read : nextCommand σ.sessionId σ.reader = (none, r)) :
      Passed env now σ (.ok true { σ with reader := r })
  | answered (command : Command) (r : Reader) (outcome : EStateM.Result Exn (State W) Unit)
      (read : nextCommand σ.sessionId σ.reader = (some command, r))
      (answers : Answers env now σ command r outcome) :
      Passed env now σ (flagged command.isInvalid outcome)

theorem passed_handled {m : Server W Unit} {command : Command} {r r' : Reader}
    (hc : command.isInvalid = false) (read : nextCommand σ.sessionId σ.reader = (some command, r))
    (h : Answers env now { σ with reader := r' } command r (m { σ with reader := r' })) :
    Passed env now σ ((m >>= fun _ => pure false) { σ with reader := r' }) := by
  rw [flagged_run, ← hc]
  generalize m { σ with reader := r' } = outcome at h
  refine .answered command r outcome read ?_
  cases h with
  | replied reply core guard exec guarded => exact .replied reply core guard exec guarded
  | raised exec => exact .raised exec

/-- One pass of the loop reads the next command, executes it and replies. -/
theorem loopBody_passed : Passed env now σ (loopBody env now σ) := by
  unfold loopBody
  rw [bind_run, readLine_run]
  cases hline : σ.reader.readLine with
  | mk line r =>
    cases line with
    | none => exact .ended r (by simp only [nextCommand, hline])
    | some msg =>
      have hσ := handleGet_answers env now { σ with reader := r }
      simp only
      split_ifs with h0 h1 h2 h3 h4 h5
      · exact .ended r (by simp only [nextCommand, hline, if_pos h0])
      · subst h1
        exact passed_handled env now σ rfl (nextCommand_open _ hline)
          (handleOpen_answers env now { σ with reader := r })
      · subst h2
        exact passed_handled env now σ rfl (nextCommand_resume _ hline)
          (handleResume_answers env now { σ with reader := r })
      · subst h3
        exact passed_handled env now σ rfl (nextCommand_close _ hline)
          (handleClose_answers env now { σ with reader := r })
      · subst h4
        have hread := nextCommand_get σ.sessionId hline
        by_cases hz : σ.sessionId = 0
        · rw [if_pos hz] at hread hσ
          exact passed_handled env now σ rfl hread hσ
        · rw [if_neg hz] at hread hσ
          exact passed_handled env now σ rfl hread hσ
      · subst h5
        exact passed_handled env now σ (readPost_isInvalid r) (nextCommand_post _ hline)
          (handlePost_answers env now { σ with reader := r })
      · have hread : nextCommand σ.sessionId σ.reader = (some (.invalid msg), r) := by
          simp only [nextCommand, hline, if_neg h0, if_neg h1, if_neg h2, if_neg h3, if_neg h4,
            if_neg h5]
        change Passed env now σ ((sendError env (lit "Invalid message: " ++ msg) >>= fun _ =>
          pure true) { σ with reader := r })
        rw [flagged_run]
        exact .answered (.invalid msg) r _ hread (answers_error rfl)

section

variable {σ} {command : Command} {r : Reader} {reply : Reply} {core : Core}

theorem loopBody_ended (read : nextCommand σ.sessionId σ.reader = (none, r)) :
    loopBody env now σ = .ok true { σ with reader := r } := by
  have h := loopBody_passed env now σ
  generalize loopBody env now σ = outcome at h ⊢
  cases h with
  | ended r' read' =>
    cases read.symm.trans read'
    rfl
  | answered command r' outcome read' => cases read.symm.trans read'

theorem loopBody_answers (read : nextCommand σ.sessionId σ.reader = (some command, r)) :
    ∃ outcome, Answers env now σ command r outcome ∧
      loopBody env now σ = flagged command.isInvalid outcome := by
  have h := loopBody_passed env now σ
  generalize loopBody env now σ = outcome at h ⊢
  cases h with
  | ended r' read' => cases read.symm.trans read'
  | answered command' r' outcome read' answers =>
    cases read.symm.trans read'
    exact ⟨outcome, answers, rfl⟩

theorem loopBody_raised (read : nextCommand σ.sessionId σ.reader = (some command, r))
    (exec : execute env.toHost now σ.toCore command = none) : loopBody env now σ =
      .error ⟨.argumentOutOfRange, env.negativeCapacity⟩ { σ with reader := r } := by
  obtain ⟨outcome, answers, hbody⟩ := loopBody_answers env now read
  rw [hbody]
  cases answers with
  | raised => rfl
  | replied reply core guard exec' => cases exec.symm.trans exec'

theorem loopBody_replied (read : nextCommand σ.sessionId σ.reader = (some command, r))
    (exec : execute env.toHost now σ.toCore command = some (reply, core)) :
    ∃ guard : Guard, (guard = .unguarded → ∃ message, reply = .error message) ∧
      loopBody env now σ = flagged command.isInvalid
        (guard.run env (reply.send env) { σ with toCore := core, reader := r }) := by
  obtain ⟨outcome, answers, hbody⟩ := loopBody_answers env now read
  rw [hbody]
  cases answers with
  | raised exec' => cases exec.symm.trans exec'
  | replied reply' core' guard exec' guarded =>
    cases exec.symm.trans exec'
    exact ⟨guard, guarded, rfl⟩

end

end

theorem loop_succ {W : Type} (env : Env W) {ticks : ℕ → Tick} (fuel k : ℕ) (σ : State W) :
    loop env ticks (fuel + 1) k σ =
      match loopBody env (ticks k).now { σ with table := (ticks k).others σ.table } with
      | .ok true σ' => .ok true σ'
      | .ok false σ' => loop env ticks fuel (k + 1) σ'
      | .error e σ' => .error e σ' := by
  rw [loop, bind_run, modify_run]
  simp only
  rw [bind_run]
  cases loopBody env (ticks k).now { σ with table := (ticks k).others σ.table } with
  | ok done σ' => cases done <;> rfl
  | error e σ' => rfl

variable {host : Host}

def State.say (host : Host) (σ : State Str) (result : Reply × Core) : State Str where
  toCore := result.2
  reader := σ.reader
  writer := σ.writer ++ result.1.text host.newLine

theorem send_reliable (reply : Reply) (σ : State Str) :
    reply.send host.reliable σ = .ok () (σ.say host (reply, σ.toCore)) := by
  cases reply with
  | success => rfl
  | _ =>
    change EStateM.Result.ok () _ = _
    simp only [State.say, Reply.text, List.append_assoc]
    rfl

/-- A pass that has read a command, with its flag `done`. -/
def State.passed (host : Host) (now : DateTime) (σ : State Str) :
    Option Command × Reader → EStateM.Result Exn (State Str) Bool
  | (none, r) => .ok true { σ with reader := r }
  | (some command, r) =>
    match execute host now σ.toCore command with
    | some result => .ok command.isInvalid (State.say host { σ with reader := r } result)
    | none => .error ⟨.argumentOutOfRange, host.negativeCapacity⟩ { σ with reader := r }

theorem passed_command {now : DateTime} {σ : State Str} {command : Command} {r : Reader}
    {result : Reply × Core} (h : execute host now σ.toCore command = some result) :
    σ.passed host now (some command, r) =
      .ok command.isInvalid (State.say host { σ with reader := r } result) := by
  rw [State.passed, h]

theorem loopBody_reliable (now : DateTime) (σ : State Str) :
    loopBody host.reliable now σ = σ.passed host now (nextCommand σ.sessionId σ.reader) := by
  cases read : nextCommand σ.sessionId σ.reader with
  | mk command r =>
    cases command with
    | none => exact loopBody_ended host.reliable now read
    | some command =>
      cases exec : execute host now σ.toCore command with
      | none =>
        rw [State.passed, exec]
        exact loopBody_raised host.reliable now read exec
      | some result =>
        obtain ⟨reply, core⟩ := result
        obtain ⟨guard, -, hbody⟩ := loopBody_replied host.reliable now read exec
        have hsend : reply.send host.reliable { σ with toCore := core, reader := r } = .ok () _ :=
          send_reliable reply _
        rw [hbody, passed_command exec]
        cases guard <;> simp only [Guard.run, tryCatch_run, hsend] <;> rfl

theorem readPost_ne_open (r : Reader) : (readPost r).1 ≠ .open := by
  unfold readPost
  simp only
  split_ifs
  · exact nofun
  · split
    · exact nofun
    · split_ifs <;> exact nofun

/-- Only the line `open` is read as that command. -/
theorem line_of_open {r r' : Reader} {id : UInt64} (h : nextCommand id r = (some .open, r')) :
    r.readLine.1 = some (lit "open") := by
  unfold nextCommand at h
  cases hr : r.readLine with
  | mk line r₁ =>
    rw [hr] at h
    cases line with
    | none => cases h
    | some msg =>
      simp only at h
      split_ifs at h with h0 h1 h2 h3 h4 hz h5
      · cases h
      · exact congrArg some h1
      · cases h
      · cases h
      · cases h
      · cases h
      · exact absurd (Option.some.inj (congrArg Prod.fst h)) (readPost_ne_open r₁)
      · cases h

theorem decimal_injective {n m : ℕ} (h : decimal n = decimal m) : n = m := by
  rw [← Numerals.digitsValue_decimal n, h, Numerals.digitsValue_decimal]

/-- The first letter tells the kinds of replies apart. -/
def Reply.letter : Reply → UInt16
  | .accepted _ => 0x61
  | .rejected _ => 0x72
  | .closed _ => 0x63
  | .success | .document _ _ => 0x73
  | .error _ => 0x65

theorem Reply.text_head (newLine : Str) (reply : Reply) :
    (reply.text newLine).head? = some reply.letter := by
  cases reply <;> rfl

theorem accepted_of_text {newLine : Str} {id : UInt64} {reply : Reply}
    (h : reply.text newLine = (Reply.accepted id).text newLine) : reply = .accepted id := by
  have hhead := congrArg List.head? h
  rw [Reply.text_head, Reply.text_head] at hhead
  cases reply with
  | accepted id' =>
    have hid := List.append_cancel_right (List.append_cancel_left h)
    rw [UInt64.toNat_inj.mp (decimal_injective hid)]
  | _ => simp [Reply.letter] at hhead

theorem closed_of_text {newLine : Str} {id : UInt64} {reply : Reply}
    (h : reply.text newLine = (Reply.closed id).text newLine) : reply = .closed id := by
  have hhead := congrArg List.head? h
  rw [Reply.text_head, Reply.text_head] at hhead
  cases reply with
  | closed id' =>
    have hid := List.append_cancel_right (List.append_cancel_left h)
    rw [UInt64.toNat_inj.mp (decimal_injective hid)]
  | _ => simp [Reply.letter] at hhead

end NetServices.SDServer
