import NetServices.SDDocuments
import NetServices.SessionHistory

set_option autoImplicit false

/-!
# What a request changes

A handler leaves what executing its command leaves, whatever becomes of the reply.
That settles which session a close removes, what an incomplete post stores, and what
a connection without a session can do.
-/
namespace NetServices.SDServer
open Utf16 (Str lit)
open TextReader (Reader InputLine splitLine)
open Numerals (parseInt parseULong)
open Exceptions

/-- No file was created or overwritten by any of the calls. -/
def KeepsFiles (host : Host) (files files' : List (Str × Str)) : Prop :=
  ∃ calls, files' = files ++ calls ∧ ∀ before call after, calls = before ++ call :: after →
    host.creates (files ++ before) call.1 call.2 = false

/-- What a command leaves. -/
def Core.after (host : Host) (now : DateTime) (core : Core) (command : Command) : Core :=
  ((execute host now core command).map Prod.snd).getD core

theorem keepsFiles_refl (host : Host) (files : List (Str × Str)) : KeepsFiles host files files :=
  ⟨[], (List.append_nil files).symm, fun before _ _ h => by cases before <;> cases h⟩

theorem keepsFiles_concat {host : Host} {files : List (Str × Str)} {call : Str × Str} :
    KeepsFiles host files (files ++ [call]) ↔ host.creates files call.1 call.2 = false := by
  constructor
  · rintro ⟨calls, hcalls, hkept⟩
    obtain rfl := List.append_cancel_left hcalls
    have hcall := hkept [] call [] rfl
    rwa [List.append_nil] at hcall
  · intro h
    refine ⟨[call], rfl, fun before call' after hcalls => ?_⟩
    cases before with
    | nil =>
      rw [List.append_nil, ← (List.cons.inj hcalls).1]
      exact h
    | cons c before => exact absurd (List.cons.inj hcalls).2 (by simp)

section
variable {W : Type} (env : Env W)

theorem write_leaves (text : Str) : Leaves State.toCore (write env text) := by
  intro σ
  rw [write]
  cases env.write text σ.writer with
  | mk e writer => cases e <;> rfl

theorem sendError_leaves (message : Str) : Leaves State.toCore (sendError env message) :=
  (write_leaves env _).bind fun _ => write_leaves env _

theorem send_leaves (reply : Reply) : Leaves State.toCore (reply.send env) := by
  cases reply with
  | accepted | rejected | closed => exact (write_leaves env _).bind fun _ => write_leaves env _
  | success => exact write_leaves env _
  | document name content =>
    exact (write_leaves env _).bind fun _ => (write_leaves env _).bind fun _ =>
      (write_leaves env _).bind fun _ => write_leaves env _
  | error message => exact sendError_leaves env message

theorem guard_leaves {m : Server W Unit} (hm : Leaves State.toCore m) (guard : Guard) :
    Leaves State.toCore (guard.run env m) := by
  cases guard with
  | unguarded => exact hm
  | answered start => exact hm.tryCatch fun _ => sendError_leaves env _
  | rethrown =>
    exact hm.tryCatch fun ex => (sendError_leaves env _).bind fun _ => Leaves.throw ex

/-- Whatever becomes of the reply, a handler leaves what its command leaves. -/
theorem Answers.after {env : Env W} {now : DateTime} {σ : State W} {command : Command}
    {r : Reader} {outcome : EStateM.Result Exn (State W) Unit}
    (h : Answers env now σ command r outcome) :
    Ends (fun _ σ' => σ'.toCore = σ.toCore.after env.toHost now command)
      (fun _ σ' => σ'.toCore = σ.toCore.after env.toHost now command) outcome := by
  cases h with
  | replied reply core guard exec guarded =>
    rw [Core.after, exec]
    exact (guard_leaves env (send_leaves env reply) guard).ends rfl
  | raised exec =>
    rw [Core.after, exec]
    rfl

end

theorem Answers.reliable {host : Host} {now : DateTime} {σ : State Str} {command : Command}
    {r : Reader} {outcome : EStateM.Result Exn (State Str) Unit} {result : Reply × Core}
    (h : Answers host.reliable now σ command r outcome)
    (hexec : execute host now σ.toCore command = some result) :
    outcome = .ok () (State.say host { σ with reader := r } result) := by
  cases h with
  | replied reply core guard exec guarded =>
    obtain rfl := Option.some.inj (exec.symm.trans hexec)
    have hsend : reply.send host.reliable { σ with toCore := core, reader := r } = .ok () _ :=
      send_reliable reply _
    cases guard <;> simp only [Guard.run, tryCatch_run, hsend] <;> rfl
  | raised exec => cases exec.symm.trans hexec

/-- Sessions 1 and 2 are open. -/
def twoOpen : SessionTable := (((SessionTable.new 100).openSession 0).2.openSession 0).2

/-- No session value and no file is created or overwritten. -/
structure Unchanged (host : Host) (core core' : Core) : Prop where
  values : ∀ id key, core'.table.value id key = core.table.value id key
  files : KeepsFiles host core.files core'.files

/-- Where a posted file is written. -/
def postedPath (host : Host) (name : Str) : Str :=
  pathCombine host host.currentDirectory (name.dropWhile (· == 0x2F))

/-- A document of that name and content changes something: the call to write it creates or
    truncates the file, or the session of the connection is open and does not hold it
    already. -/
def Core.Stores (host : Host) (core : Core) (name content : Str) : Prop :=
  if host.startsWithSlash name then
    host.creates core.files (postedPath host name) content = true
  else core.sessionId ∈ core.table.sessions ∧
    core.table.value core.sessionId name ≠ some content

/-- What has come of a post, after the line `post`, has a length and can be stored. -/
def Core.StoresReceived (host : Host) (core : Core) (name : InputLine) (received : Str) : Prop :=
  name.text ≠ [] ∧ ∃ tail length, received = name.chars ++ tail ∧
    parseInt (some (splitLine tail).1) = some length ∧ 0 ≤ length ∧
    core.Stores host name.text (splitLine tail).2

section
variable {host : Host} {core : Core}

theorem after_filed (now : DateTime) {name : Str} (content : Str)
    (hslash : host.startsWithSlash name = true) : core.after host now (.post name content) =
      { core with files := core.files ++ [(postedPath host name, content)] } := by
  rw [Core.after, execute, Core.post, if_pos hslash, postedPath]
  dsimp only
  cases host.writeAllText core.files
    (pathCombine host host.currentDirectory (name.dropWhile (· == 0x2F))) content <;> rfl

theorem after_stored (now : DateTime) {name : Str} (content : Str)
    (hplain : ¬ host.startsWithSlash name = true) {session : Session}
    (hentry : core.table.sessions.lookup core.sessionId = some session) :
    core.after host now (.post name content) =
      { core with table := { core.table with
        sessions := core.table.sessions.insert core.sessionId
          ((session.put name content).touch now) } } := by
  rw [Core.after, execute, Core.post, if_neg hplain, SessionTable.putSessionValue, hentry]
  rfl

theorem after_refused (now : DateTime) {name : Str} (content : Str)
    (hplain : ¬ host.startsWithSlash name = true) (hmem : core.sessionId ∉ core.table.sessions) :
    core.after host now (.post name content) = core := by
  rw [Core.after, execute, Core.post, if_neg hplain,
    SessionTable.putSessionValue_dead now name content hmem]
  rfl

theorem unchanged_refl (host : Host) (core : Core) : Unchanged host core core :=
  ⟨fun _ _ => rfl, keepsFiles_refl host core.files⟩

/-- A post leaves everything as it was exactly if it cannot store its document. -/
theorem post_unchanged_iff (now : DateTime) (name content : Str) :
    Unchanged host core (core.after host now (.post name content)) ↔
      ¬ core.Stores host name content := by
  by_cases hslash : host.startsWithSlash name = true
  · rw [after_filed now content hslash, Core.Stores, if_pos hslash]
    constructor
    · exact fun h => Bool.eq_false_iff.mp (keepsFiles_concat.mp h.files)
    · exact fun h => ⟨fun _ _ => rfl, keepsFiles_concat.mpr (Bool.eq_false_iff.mpr h)⟩
  · rw [Core.Stores, if_neg hslash]
    by_cases hmem : core.sessionId ∈ core.table.sessions
    · obtain ⟨session, hentry⟩ := Option.isSome_iff_exists.mp (AList.lookup_isSome.mpr hmem)
      rw [after_stored now content hslash hentry]
      constructor
      · intro h hstores
        have hvalue := h.values core.sessionId name
        rw [SessionTable.value_put hentry, if_pos ⟨rfl, rfl⟩] at hvalue
        exact hstores.2 hvalue.symm
      · intro h
        refine ⟨fun id key => ?_, keepsFiles_refl host core.files⟩
        rw [SessionTable.value_put hentry]
        split_ifs with hkey
        · obtain ⟨rfl, rfl⟩ := hkey
          exact (not_not.mp fun hne => h ⟨hmem, hne⟩).symm
        · rfl
    · rw [after_refused now content hslash hmem]
      exact iff_of_true (unchanged_refl host core) fun h => hmem h.1

end

section
variable {name length : InputLine} {content received : Str}

/-- A post is cut in the line of its name, or something of its length line has come. Then
    no more follows that line than the length says. -/
theorem received_cases (sized : parseInt (some length.text) = some (content.length : ℤ))
    (h : received <+: name.chars ++ (length.chars ++ content)) :
    received <+: name.chars ∨ ∃ tail, received = name.chars ++ tail ∧ tail ≠ [] ∧
      name.ending.Apart tail ∧ ∀ n : ℤ, parseInt (some (splitLine tail).1) = some n → 0 ≤ n →
        ((splitLine tail).2.length : ℤ) ≤ n := by
  rcases List.prefix_or_prefix_of_prefix h (List.prefix_append name.chars _) with hcut | ⟨tail, rfl⟩
  · exact .inl hcut
  have htail := (List.prefix_append_right_inj name.chars).mp h
  cases tail with
  | nil => exact .inl ((List.append_nil name.chars).symm ▸ List.prefix_rfl)
  | cons c tail =>
    refine .inr ⟨c :: tail, rfl, List.cons_ne_nil c tail, fun _ hhead => ?_, fun n hn hnonneg => ?_⟩
    · have hlength : length.text ≠ [] := by
        intro hnil
        have hnone : parseInt (some []) = none := by decide
        rw [hnil, hnone] at sized
        cases sized
      obtain ⟨more, hmore⟩ := htail
      have hne := length.head_ne_lf hlength content
      rw [← hmore] at hne
      exact hne hhead
    · rcases List.prefix_or_prefix_of_prefix htail (List.prefix_append length.chars content) with
        hcut | ⟨rest, hrest⟩
      · rw [TextReader.splitLine_cut length.isLine length.ending hcut]
        exact hnonneg
      · rw [← hrest] at htail hn ⊢
        have hle := ((List.prefix_append_right_inj length.chars).mp htail).length_le
        have hwhole := TextReader.splitLine_whole length.isLine length.ending rest
        rw [← List.append_assoc] at hwhole
        change (splitLine (length.chars ++ rest)).1 = _ ∧
          (splitLine (length.chars ++ rest)).2 <:+ _ at hwhole
        rw [hwhole.1, sized] at hn
        rw [← Option.some.inj hn]
        exact Int.ofNat_le.mpr (hwhole.2.length_le.trans hle)

theorem not_storesReceived_cut {host : Host} {core : Core} (h : received <+: name.chars) :
    ¬ core.StoresReceived host name received := by
  rintro ⟨-, tail, n, rfl, hn, -, -⟩
  have hnil : tail = [] := by
    have hle := h.length_le
    rw [List.length_append] at hle
    exact List.eq_nil_of_length_eq_zero (by omega)
  have hnone : parseInt (some (splitLine []).1) = none := by decide
  rw [hnil, hnone] at hn
  cases hn

theorem readPost_cut {r : Reader} (h : r.chars <+: name.chars) (host : Host) (now : DateTime)
    (core : Core) : core.after host now (readPost r).1 = core := by
  have hrest := TextReader.splitLine_cut name.isLine name.ending h
  have hsecond : ∀ reads, Reader.readLine ⟨[], reads⟩ = (none, ⟨[], reads⟩) := fun _ => rfl
  have hparse : parseInt none = none := rfl
  obtain ⟨chars, reads⟩ := r
  cases chars with
  | nil => rfl
  | cons c chars =>
    have hfirst : Reader.readLine ⟨c :: chars, reads⟩ =
        (some (splitLine (c :: chars)).1, ⟨[], reads⟩) := by
      rw [← hrest]
      rfl
    rw [readPost, hfirst]
    dsimp only
    split_ifs
    · rfl
    · rw [hsecond]
      dsimp only
      rw [hparse]
      rfl

/-- A post whose name has come whole is stored as far as its content has come. -/
theorem readPost_tail {tail : Str} (reads : List ℕ) (htail : tail ≠ [])
    (apart : name.ending.Apart tail)
    (hshort : ∀ n : ℤ, parseInt (some (splitLine tail).1) = some n → 0 ≤ n →
      ((splitLine tail).2.length : ℤ) ≤ n) (host : Host) (now : DateTime) (core : Core) :
    Unchanged host core (core.after host now (readPost ⟨name.chars ++ tail, reads⟩).1) ↔
      ¬ core.StoresReceived host name (name.chars ++ tail) := by
  have hfirst := name.readLine tail reads apart
  have hsecond : Reader.readLine ⟨tail, reads⟩ =
      (some (splitLine tail).1, ⟨(splitLine tail).2, reads⟩) := if_neg htail
  have hstores : core.StoresReceived host name (name.chars ++ tail) ↔ name.text ≠ [] ∧
      ∃ n, parseInt (some (splitLine tail).1) = some n ∧ 0 ≤ n ∧
        core.Stores host name.text (splitLine tail).2 := by
    constructor
    · rintro ⟨hne, tail', n, heq, hrest⟩
      obtain rfl := List.append_cancel_left heq
      exact ⟨hne, n, hrest⟩
    · rintro ⟨hne, n, hrest⟩
      exact ⟨hne, tail, n, rfl, hrest⟩
  rw [hstores, readPost, hfirst]
  simp only [Option.getD_some, hsecond]
  by_cases hne : name.text = []
  · rw [if_pos hne]
    exact iff_of_true (unchanged_refl host core) fun h => h.1 hne
  rw [if_neg hne]
  cases hn : parseInt (some (splitLine tail).1) with
  | none =>
    refine iff_of_true (unchanged_refl host core) ?_
    rintro ⟨-, n, hsome, -⟩
    cases hsome
  | some n =>
    dsimp only
    by_cases hneg : n < 0
    · rw [if_pos hneg]
      refine iff_of_true (unchanged_refl host core) ?_
      rintro ⟨-, n', hsome, hnonneg, -⟩
      obtain rfl := Option.some.inj hsome
      exact absurd hneg (Int.not_lt.mpr hnonneg)
    · have hnonneg := Int.not_lt.mp hneg
      obtain ⟨reads', hblock⟩ :=
        TextReader.readBlock_eq n.toNat n.toNat le_rfl ⟨(splitLine tail).2, reads⟩
      have hall : (splitLine tail).2.take n.toNat = (splitLine tail).2 :=
        List.take_of_length_le (by have := hshort n hn hnonneg; omega)
      rw [if_neg hneg, hblock]
      simp only [hall]
      rw [post_unchanged_iff]
      refine not_congr ⟨fun h => ⟨hne, n, rfl, hnonneg, h⟩, fun h => ?_⟩
      obtain ⟨-, n', -, -, hstored⟩ := h
      exact hstored

/-- What has come of a post, all of it or not, is stored if it can be: a post leaves
    everything as it was exactly if what has come of it changes nothing when it is stored. -/
theorem post_received_iff {W : Type} (env : Env W) (now : DateTime) (σ : State W)
    (name length : InputLine) (content : Str)
    (sized : parseInt (some length.text) = some (content.length : ℤ))
    (received : σ.reader.chars <+: name.chars ++ (length.chars ++ content)) :
    Ends (fun _ σ' => Unchanged env.toHost σ.toCore σ'.toCore)
        (fun _ σ' => Unchanged env.toHost σ.toCore σ'.toCore) (handlePost env now σ) ↔
      ¬ σ.toCore.StoresReceived env.toHost name σ.reader.chars := by
  rw [(handlePost_answers env now σ).after.part_iff (P := Unchanged env.toHost σ.toCore)]
  rcases received_cases sized received with hcut | ⟨tail, hchars, htail, apart, hshort⟩
  · rw [readPost_cut hcut]
    exact iff_of_true (unchanged_refl _ _) (not_storesReceived_cut hcut)
  · obtain ⟨core, ⟨chars, reads⟩, writer⟩ := σ
    obtain rfl : chars = name.chars ++ tail := hchars
    exact readPost_tail reads htail apart hshort env.toHost now core

end

/-- A connection with session 1, which holds a document, when two of four characters have
    come of another one under its name. -/
def cutPost : State Str where
  sessionId := 1
  table := { twoOpen with
    sessions := twoOpen.sessions.insert 1 ((Session.new 0).put (lit "a") (lit "good")) }
  files := []
  reader := ⟨lit "a\n4\nwx", []⟩
  writer := []

theorem post_received_iff_cut :
    Ends (fun _ σ' => Unchanged .unix cutPost.toCore σ'.toCore)
        (fun _ σ' => Unchanged .unix cutPost.toCore σ'.toCore)
        (handlePost Host.unix.reliable 0 cutPost) ↔
      ¬ cutPost.toCore.StoresReceived .unix ⟨lit "a", .lf, by decide⟩ (lit "a\n4\nwx") :=
  post_received_iff Host.unix.reliable 0 cutPost ⟨lit "a", .lf, by decide⟩
    ⟨lit "4", .lf, by decide⟩ (lit "wxyz") (by decide) ⟨lit "yz", by decide⟩

/-- The document is replaced by what has come of the other one. -/
theorem cut_post_stored : cutPost.table.value 1 (lit "a") = some (lit "good") ∧
    ∃ σ', handlePost Host.unix.reliable 0 cutPost = .ok () σ' ∧
      σ'.table.value 1 (lit "a") = some (lit "wx") ∧
      ¬ Unchanged .unix cutPost.toCore σ'.toCore := by
  refine ⟨by decide, _, rfl, by decide, fun h => ?_⟩
  exact absurd (h.values 1 (lit "a")) (by decide)

/-- The table and every file are as before, and the answer is not `success`. -/
structure Ineffective (host : Host) (core core' : Core) (sent : Str) : Prop where
  table : core'.table = core.table
  files : KeepsFiles host core.files core'.files
  sent : ¬ lit "success" <+: sent

/-- The commands that have an effect without a session: a post whose file is created or
    truncated, and what the table grants to session 0, which is not open before 2 ^ 64 opens. -/
def Bypasses (host : Host) (core : Core) : Command → Prop
  | .post name content =>
    if host.startsWithSlash name then
      host.creates core.files (postedPath host name) content = true
    else 0 ∈ core.table.sessions
  | .close (some _) => 0 ∈ core.table.sessions
  | _ => False

theorem not_success {newLine : Str} {reply : Reply} (h : reply.letter ≠ 0x73) :
    ¬ lit "success" <+: reply.text newLine := by
  rintro ⟨rest, hrest⟩
  have hhead := congrArg List.head? hrest
  rw [Reply.text_head] at hhead
  exact h (Option.some.inj hhead).symm

theorem begins_success (newLine : Str) : lit "success" <+: Reply.success.text newLine :=
  List.prefix_append _ _

section
variable {host : Host} {core : Core}

theorem error_ineffective (host : Host) (core : Core) (message : Str) :
    Ineffective host core core ((Reply.error message).text host.newLine) :=
  ⟨rfl, keepsFiles_refl host core.files, not_success (show (0x65 : UInt16) ≠ 0x73 by decide)⟩

theorem close_ineffective_iff (h0 : core.sessionId = 0) :
    Ineffective host core core.close.2 (core.close.1.text host.newLine) ↔
      0 ∉ core.table.sessions := by
  rw [Core.close, h0]
  by_cases hmem : 0 ∈ core.table.sessions
  · rw [SessionTable.closeSession, if_pos hmem]
    refine iff_of_false (fun h => ?_) (not_not_intro hmem)
    have herase : core.table.sessions.erase 0 = core.table.sessions :=
      congrArg SessionTable.sessions h.table
    rw [← herase] at hmem
    exact (AList.mem_erase.mp hmem).1 rfl
  · rw [SessionTable.closeSession_dead hmem]
    exact iff_of_true (error_ineffective host core _) hmem

theorem post_ineffective_iff (h0 : core.sessionId = 0) (now : DateTime) (name content : Str) :
    Ineffective host core (core.post host now name content).2
        ((core.post host now name content).1.text host.newLine) ↔
      ¬ Bypasses host core (.post name content) := by
  rw [Core.post, h0, Bypasses]
  split_ifs with hslash
  · rw [← postedPath]
    dsimp only
    cases hwrite : host.writeAllText core.files (postedPath host name) content with
    | none =>
      exact iff_of_false (fun h => h.sent (begins_success _))
        (not_not_intro (host.written_created _ _ _ hwrite))
    | some e =>
      -- the call has raised, but the file may be there all the same
      have hsent := (error_ineffective host core (lit "Post failed: " ++ e.message)).sent
      rw [Bool.not_eq_true]
      constructor
      · exact fun h => keepsFiles_concat.mp h.files
      · exact fun h => ⟨rfl, keepsFiles_concat.mpr h, hsent⟩
  · by_cases hmem : 0 ∈ core.table.sessions
    · obtain ⟨session, -, hput⟩ := SessionTable.putSessionValue_live now name content hmem
      rw [hput]
      exact iff_of_false (fun h => h.sent (begins_success _)) (not_not_intro hmem)
    · rw [SessionTable.putSessionValue_dead now name content hmem]
      exact iff_of_true (error_ineffective host core _) hmem

/-- A command of a connection without a session has no effect, unless it is accepted or
    bypasses the session. -/
theorem execute_ineffective_iff (h0 : core.sessionId = 0) {now : DateTime} {command : Command}
    {result : Reply × Core} (hexec : execute host now core command = some result)
    (hunaccepted : ∀ id, result.1 ≠ .accepted id) :
    Ineffective host core result.2 (result.1.text host.newLine) ↔
      ¬ Bypasses host core command := by
  cases command with
  | «open» =>
    obtain rfl := Option.some.inj hexec
    rw [Core.open, if_pos h0] at hunaccepted
    exact absurd rfl (hunaccepted _)
  | resume id =>
    refine iff_of_true ?_ not_false
    cases id with
    | none =>
      obtain rfl := Option.some.inj hexec
      exact error_ineffective host core _
    | some id =>
      obtain rfl := Option.some.inj hexec
      rw [Core.resume, if_pos h0] at hunaccepted ⊢
      split_ifs at hunaccepted ⊢
      · exact absurd rfl (hunaccepted id)
      · exact ⟨rfl, keepsFiles_refl host core.files,
          not_success (show (0x72 : UInt16) ≠ 0x73 by decide)⟩
  | close id =>
    cases id with
    | none =>
      obtain rfl := Option.some.inj hexec
      exact iff_of_true (error_ineffective host core _) not_false
    | some id =>
      obtain rfl := Option.some.inj hexec
      exact close_ineffective_iff h0
  | get name =>
    obtain rfl := Option.some.inj hexec
    rw [Core.get, if_pos h0]
    exact iff_of_true (error_ineffective host core _) not_false
  | post name content =>
    obtain rfl := Option.some.inj hexec
    exact post_ineffective_iff h0 now name content
  | postNegative name => cases hexec
  | postUnnamed | postUnsized | invalid =>
    obtain rfl := Option.some.inj hexec
    exact iff_of_true (error_ineffective host core _) not_false

theorem execute_sessionId {now : DateTime} {command : Command} {result : Reply × Core}
    (hexec : execute host now core command = some result)
    (hunaccepted : ∀ id, result.1 ≠ .accepted id) : result.2.sessionId = core.sessionId := by
  have heffect := execute_executed hexec
  obtain ⟨reply, core'⟩ := result
  cases heffect with
  | opened | resumed => exact absurd rfl (hunaccepted _)
  | closed | read | stored | filed | rejected | refused => rfl

end

namespace System

variable {κ : Type} [DecidableEq κ]

/-- The step, if it is one of the connection, is not answered `accepted`. -/
def Unaccepted (host : Host) (c : κ) (sys : System κ) (e : Event κ) : Prop :=
  ∀ now id, e = .request c now → (sys.step host e).1.sent ≠ (Reply.accepted id).text host.newLine

/-- The step, if it is one of the connection, has no effect. -/
def NoEffect (host : Host) (c : κ) (sys : System κ) (e : Event κ) : Prop :=
  ∀ now, e = .request c now →
    Ineffective host (sys.core c) ((sys.step host e).2.core c) (sys.step host e).1.sent

/-- The step, if it is one of the connection, executes no command that bypasses the session. -/
def Guarded (host : Host) (c : κ) (sys : System κ) (e : Event κ) : Prop :=
  ∀ now command, e = .request c now → sys.Requests c 0 command →
    ¬ Bypasses host (sys.core c) command

variable {host : Host} {c : κ} {sys : System κ} {e : Event κ}

theorem unaccepted_of_head (h : (sys.step host e).1.sent.head? ≠ some 0x61) :
    sys.Unaccepted host c e :=
  fun _ id _ hsent => h ((congrArg List.head? hsent).trans (Reply.text_head _ (.accepted id)))

theorem core_after (sys : System κ) (c : κ) (core : Core) (r : Reader) (ended : Bool) :
    (sys.after c core r ended).core c = core := by
  have hconn := (after_conns sys c c core r ended).trans (if_pos rfl)
  rw [System.core, hconn]
  rfl

theorem step_unaccepted (h0 : (sys.conns c).sessionId = 0) (h : sys.Unaccepted host c e) :
    ((sys.step host e).2.conns c).sessionId = 0 := by
  cases e with
  | sweep now => exact h0
  | request d now =>
    by_cases hd : c = d
    · subst hd
      cases hended : (sys.conns c).ended with
      | true =>
        rw [step, if_pos hended]
        exact h0
      | false =>
        have hsent := h now
        rw [step_request now hended] at hsent ⊢
        cases hnext : nextCommand (sys.conns c).sessionId (sys.conns c).reader with
        | mk command r =>
          rw [hnext] at hsent
          cases command with
          | none =>
            rw [after_conns, if_pos rfl]
            exact h0
          | some command =>
            dsimp only at hsent ⊢
            cases hexec : execute host now (sys.core c) command with
            | none =>
              rw [after_conns, if_pos rfl]
              exact h0
            | some result =>
              rw [hexec] at hsent
              rw [after_conns, if_pos rfl]
              refine (execute_sessionId hexec fun id hid => ?_).trans h0
              exact hsent id rfl (congrArg (Reply.text host.newLine) hid)
    · have hother : (sys.step host (.request d now)).2.conns c = sys.conns c := by
        have hs := step_stepped host sys (.request d now)
        generalize sys.step host (.request d now) = result at *
        obtain ⟨answer, sys'⟩ := result
        cases hs with
        | ended => rfl
        | silent | executed => exact (after_conns sys d c _ _ _).trans (if_neg hd)
      rw [hother]
      exact h0

theorem noEffect_request {now : DateTime} : sys.NoEffect host c (.request c now) ↔
    Ineffective host (sys.core c) ((sys.step host (.request c now)).2.core c)
      (sys.step host (.request c now)).1.sent :=
  ⟨fun h => h now rfl, fun h _ he => (Event.request.inj he).2 ▸ h⟩

omit [DecidableEq κ] in
theorem guarded_request {now : DateTime} : sys.Guarded host c (.request c now) ↔
    ∀ command, sys.Requests c 0 command → ¬ Bypasses host (sys.core c) command :=
  ⟨fun h command => h now command rfl, fun h _ command _ => h command⟩

theorem silent_ineffective (sys : System κ) (c : κ) (r : Reader) (ended : Bool) :
    Ineffective host (sys.core c) ((sys.after c (sys.core c) r ended).core c) [] :=
  ⟨rfl, keepsFiles_refl host sys.files, by decide⟩

theorem not_bypasses_of_none {now : DateTime} {core : Core} {command : Command}
    (h : execute host now core command = none) : ¬ Bypasses host core command := by
  cases command with
  | postNegative => exact not_false
  | resume id | close id => cases id <;> cases h
  | _ => cases h

theorem request_noEffect_iff {now : DateTime} (h0 : (sys.conns c).sessionId = 0)
    (h : sys.Unaccepted host c (.request c now)) :
    sys.NoEffect host c (.request c now) ↔ sys.Guarded host c (.request c now) := by
  have hread : ∀ command, sys.Requests c 0 command ↔ (sys.conns c).ended = false ∧
      (nextCommand (sys.conns c).sessionId (sys.conns c).reader).1 = some command := by
    intro command
    rw [h0]
    exact ⟨fun hr => ⟨hr.running, hr.read⟩, fun hr => ⟨hr.1, h0, hr.2⟩⟩
  simp only [noEffect_request, guarded_request, hread]
  cases hended : (sys.conns c).ended with
  | true =>
    have hsilent : ¬ lit "success" <+: [] := by decide
    rw [step, if_pos hended]
    exact iff_of_true ⟨rfl, keepsFiles_refl host sys.files, hsilent⟩
      fun _ hr => Bool.noConfusion hr.1
  | false =>
    have hsent := h now
    rw [step_request now hended] at hsent ⊢
    cases hnext : nextCommand (sys.conns c).sessionId (sys.conns c).reader with
    | mk command r =>
      rw [hnext] at hsent
      cases command with
      | none => exact iff_of_true (silent_ineffective sys c r true) fun _ hr => by cases hr.2
      | some command =>
        dsimp only at hsent ⊢
        simp only [true_and, Option.some.injEq, forall_eq']
        cases hexec : execute host now (sys.core c) command with
        | none =>
          exact iff_of_true (silent_ineffective sys c r true) (not_bypasses_of_none hexec)
        | some result =>
          rw [hexec] at hsent
          dsimp only
          rw [core_after]
          exact execute_ineffective_iff h0 hexec fun id hid =>
            hsent id rfl (congrArg (Reply.text host.newLine) hid)

theorem step_noEffect_iff (h0 : (sys.conns c).sessionId = 0) (h : sys.Unaccepted host c e) :
    sys.NoEffect host c e ↔ sys.Guarded host c e := by
  cases e with
  | sweep now => exact iff_of_true (fun _ he => by cases he) fun _ _ he => by cases he
  | request d now =>
    by_cases hd : d = c
    · subst hd
      exact request_noEffect_iff h0 h
    · refine iff_of_true (fun _ he => ?_) fun _ _ he => ?_ <;>
        exact absurd (Event.request.inj he).1 hd

/-- The requests of a connection that is given no session have no effect, in any run, exactly
    if none of them bypasses the session. -/
theorem no_effect_iff (host : Host) (sessionTimeout : ℤ) (inputs : κ → TextReader.Reader) (c : κ)
    (events : List (Event κ))
    (h : Machine.Every (step host) (Unaccepted host c) (fresh sessionTimeout inputs) events) :
    Machine.Every (step host) (NoEffect host c) (fresh sessionTimeout inputs) events ↔
      Machine.Every (step host) (Guarded host c) (fresh sessionTimeout inputs) events :=
  Machine.every_iff (I := fun sys => (sys.conns c).sessionId = 0) (step host)
    (fun _ _ h0 hu => step_unaccepted h0 hu) (fun _ _ h0 hu => step_noEffect_iff h0 hu) rfl h

theorem no_effect_iff_plain :
    let inputs : Unit → TextReader.Reader := fun _ => ⟨lit "post\na\n1\nx", []⟩
    Machine.Every (step .unix) (NoEffect .unix ()) (fresh 100 inputs) [.request () 0] ↔
      Machine.Every (step .unix) (Guarded .unix ()) (fresh 100 inputs) [.request () 0] := by
  intro inputs
  exact no_effect_iff .unix 100 inputs () [.request () 0]
    ⟨unaccepted_of_head (by decide), trivial⟩

/-- A connection without a session posts a file. -/
theorem file_without_session :
    let inputs : Unit → TextReader.Reader := fun _ => ⟨lit "post\n/a\n1\nx", []⟩
    let sys : System Unit := fresh 100 inputs
    sys.Unaccepted .unix () (.request () 0) ∧
      (sys.step .unix (.request () 0)).1.sent = Reply.success.text Host.unix.newLine ∧
      (sys.step .unix (.request () 0)).2.files = [(lit "/srv/a", lit "x")] ∧
      ¬ sys.NoEffect .unix () (.request () 0) := by
  intro inputs sys
  refine ⟨unaccepted_of_head (by decide), by decide, by decide, fun h => ?_⟩
  exact (h 0 rfl).sent (by decide)

end System
end NetServices.SDServer
