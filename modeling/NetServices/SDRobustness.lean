import NetServices.SDFaults

set_option autoImplicit false

/-!
# What the input of a client can do to the server

`Run` ends normally or through its handlers, wherever the network fails, exactly
if no pass reads a post of negative length and none has to send ill-formed text.
-/
namespace NetServices.SDServer
open Utf16 (Str lit WellFormed wellFormed_lit)
open TextReader (Reader)
open TextWriter (Writer)
open Exceptions

/-- A command that the server can answer. -/
def Harmless (host : Host) (core : Core) : Command → Prop
  | .postNegative _ => False
  | .invalid line => WellFormed line
  | .get name => core.sessionId ≠ 0 → name ≠ [] → ∀ content,
      core.table.value core.sessionId name = some content → content ≠ [] →
      WellFormed name ∧ WellFormed content
  | .post name content => host.startsWithSlash name = true → ∀ e,
      host.writeAllText core.files (pathCombine host host.currentDirectory
        (name.dropWhile (· == 0x2F))) content = some e → WellFormed e.message
  | _ => True

/-- The state of the connection before pass `k` of its loop, if every pass is answered. -/
inductive Passes (host : Host) (ticks : ℕ → Tick) (core : Core) (reader : Reader) :
    ℕ → Core → Reader → Prop where
  | start : Passes host ticks core reader 0 core reader
  | next {k : ℕ} {core' core'' : Core} {r r' : Reader} {command : Command} {reply : Reply}
      (passes : Passes host ticks core reader k core' r)
      (read : nextCommand core'.sessionId r = (some command, r'))
      (exec : execute host (ticks k).now (core'.others (ticks k)) command = some (reply, core''))
      (valid : command.isInvalid = false) : Passes host ticks core reader (k + 1) core'' r'

variable {host : Host}

theorem get_encodable_iff (now : DateTime) (core : Core) (name : Str) :
    Harmless host core (.get name) ↔ (core.get now name).1.Encodable := by
  unfold Core.get Harmless
  by_cases hid : core.sessionId = 0
  · rw [if_pos hid]
    exact iff_of_true (fun h => absurd hid h) (wellFormed_lit _)
  rw [if_neg hid]
  by_cases hname : name = []
  · rw [if_pos hname]
    exact iff_of_true (fun _ h => absurd hname h) (wellFormed_lit _)
  rw [if_neg hname]
  by_cases hopen : core.sessionId ∈ core.table.sessions
  · obtain ⟨session, -, hget⟩ := SessionTable.getSessionValue_live now name hopen
    rw [hget]
    simp only
    cases hvalue : core.table.value core.sessionId name with
    | none => exact iff_of_true (fun _ _ content hc => by cases hc) (wellFormed_lit _)
    | some content =>
      simp only [Option.getD_some]
      split_ifs with hcontent
      · refine iff_of_true (fun _ _ content' hc hne => ?_) (wellFormed_lit _)
        exact absurd (Option.some.inj hc ▸ hcontent) hne
      · refine ⟨fun h => h hid hname content rfl hcontent, fun h _ _ content' hc _ => ?_⟩
        exact Option.some.inj hc ▸ h
  · rw [SessionTable.getSessionValue_dead now name hopen]
    refine iff_of_true (fun _ _ content hc => ?_) (wellFormed_lit _)
    exact absurd (SessionTable.mem_of_value hc) hopen

theorem post_encodable_iff (now : DateTime) (core : Core) (name content : Str) :
    Harmless host core (.post name content) ↔ (core.post host now name content).1.Encodable := by
  unfold Core.post Harmless
  by_cases hslash : host.startsWithSlash name = true
  · rw [if_pos hslash]
    simp only
    cases host.writeAllText core.files (pathCombine host host.currentDirectory
        (name.dropWhile (· == 0x2F))) content with
    | none => exact iff_of_true (fun _ e he => by cases he) trivial
    | some e =>
      refine Iff.trans ?_ (Utf16.WellFormed.append_iff (wellFormed_lit "Post failed: ")).symm
      exact ⟨fun h => h hslash e rfl, fun h _ e' he => Option.some.inj he ▸ h⟩
  · rw [if_neg hslash]
    refine iff_of_true (fun h => absurd h hslash) ?_
    by_cases hopen : core.sessionId ∈ core.table.sessions
    · obtain ⟨session, -, hput⟩ := SessionTable.putSessionValue_live now name content hopen
      rw [hput]
      trivial
    · rw [SessionTable.putSessionValue_dead now name content hopen]
      exact (wellFormed_lit _).append (wellFormed_lit _)

theorem harmless_iff {now : DateTime} {core core' : Core} {command : Command} {reply : Reply}
    (exec : execute host now core command = some (reply, core')) :
    Harmless host core command ↔ reply.Encodable := by
  cases command with
  | «open» =>
    have hreply : (core.open now).1 = reply := congrArg Prod.fst (Option.some.inj exec)
    rw [← hreply]
    unfold Core.open
    split_ifs
    · exact Iff.rfl
    · exact iff_of_true trivial (wellFormed_lit _)
  | resume id =>
    cases id with
    | none =>
      cases exec
      exact iff_of_true trivial (wellFormed_lit _)
    | some id =>
      have hreply : (core.resume id).1 = reply := congrArg Prod.fst (Option.some.inj exec)
      rw [← hreply]
      unfold Core.resume
      split_ifs
      · exact Iff.rfl
      · exact iff_of_true trivial ((wellFormed_lit _).append (Numerals.decimal_wellFormed _))
      · exact iff_of_true trivial (wellFormed_lit _)
  | close id =>
    cases id with
    | none =>
      cases exec
      exact iff_of_true trivial (wellFormed_lit _)
    | some id =>
      have hreply : core.close.1 = reply := congrArg Prod.fst (Option.some.inj exec)
      rw [← hreply]
      unfold Core.close SessionTable.closeSession
      split_ifs
      · exact Iff.rfl
      · exact iff_of_true trivial (wellFormed_lit _)
  | get name =>
    have hreply : (core.get now name).1 = reply := congrArg Prod.fst (Option.some.inj exec)
    rw [← hreply]
    exact get_encodable_iff now core name
  | postUnnamed | postUnsized name =>
    cases exec
    exact iff_of_true trivial (wellFormed_lit _)
  | postNegative name => cases exec
  | post name content =>
    have hreply : (core.post host now name content).1 = reply :=
      congrArg Prod.fst (Option.some.inj exec)
    rw [← hreply]
    exact post_encodable_iff now core name content
  | invalid line =>
    cases exec
    exact (Utf16.WellFormed.append_iff (wellFormed_lit "Invalid message: ")).symm

theorem not_harmless_of_raised {now : DateTime} {core : Core} {command : Command}
    (exec : execute host now core command = none) : ¬ Harmless host core command := by
  cases command with
  | postNegative name => exact id
  | resume id => cases id <;> cases exec
  | close id => cases id <;> cases exec
  | _ => cases exec

theorem readPost_length_le (r : Reader) : (readPost r).2.chars.length ≤ r.chars.length := by
  have hname := (TextReader.readLine_suffix r).length_le
  have hlength := (TextReader.readLine_suffix r.readLine.2).length_le.trans hname
  unfold readPost
  simp only
  split_ifs
  · exact hname
  · split
    · exact hlength
    · split_ifs
      · exact hlength
      · exact (TextReader.readBlock_length_le _ _ le_rfl _).trans hlength

theorem nextCommand_shorter {r r' : Reader} {id : UInt64} {command : Command}
    (h : nextCommand id r = (some command, r')) : r'.chars.length < r.chars.length := by
  have hne : r.chars ≠ [] := by
    intro hnil
    rw [nextCommand, TextReader.Reader.readLine, if_pos hnil] at h
    cases h
  have hlt := TextReader.readLine_shorter hne
  unfold nextCommand at h
  cases hr : r.readLine with
  | mk line r₁ =>
    rw [hr] at h hlt
    have hnext := lt_of_le_of_lt (TextReader.readLine_suffix r₁).length_le hlt
    cases line with
    | none => cases h
    | some msg =>
      have hr' := congrArg Prod.snd h
      simp only at h hr'
      split_ifs at h hr' with h0 h1 h2 h3 h4 hz h5
      · cases h
      · exact hr' ▸ hlt
      · exact hr' ▸ hnext
      · exact hr' ▸ hnext
      · exact hr' ▸ hlt
      · exact hr' ▸ hnext
      · exact hr' ▸ lt_of_le_of_lt (readPost_length_le r₁) hlt
      · exact hr' ▸ hlt

section

variable (network : Network) {core : Core}

/-- A pass that reads no harmful command raises faults of the network only. -/
theorem loopBody_ready (now : DateTime) {σ : State Writer} (hclean : σ.writer.Clean)
    (hharmless : ∀ command r, nextCommand σ.sessionId σ.reader = (some command, r) →
      Harmless host σ.toCore command) :
    Ends (fun done σ' => σ'.writer.Clean ∧ (done = false → ∃ command reply,
        nextCommand σ.sessionId σ.reader = (some command, σ'.reader) ∧
        execute host now σ.toCore command = some (reply, σ'.toCore) ∧ command.isInvalid = false))
      (fun e _ => Handled e) (loopBody (host.streaming network.fails) now σ) := by
  cases read : nextCommand σ.sessionId σ.reader with
  | mk command r =>
    cases command with
    | none =>
      rw [loopBody_ended _ now read]
      exact ⟨hclean, fun h => absurd h (by decide)⟩
    | some command =>
      have hcommand := hharmless command r read
      cases exec : execute host now σ.toCore command with
      | none => exact absurd hcommand (not_harmless_of_raised exec)
      | some result =>
        obtain ⟨reply, core⟩ := result
        obtain ⟨guard, -, hbody⟩ := loopBody_replied (host.streaming network.fails) now read exec
        have hready : Triple (Ready core r) (guard.run (host.streaming network.fails)
            (reply.send (host.streaming network.fails))) (fun _ => Ready core r) (Faulted core r) :=
          guard_ready network (send_ready network ((harmless_iff exec).mp hcommand)) guard
        have hsent := hready { σ with toCore := core, reader := r } ⟨rfl, rfl, hclean⟩
        rw [hbody]
        revert hsent
        cases guard.run (host.streaming network.fails) (reply.send (host.streaming network.fails))
            { σ with toCore := core, reader := r } with
        | ok _ σ' =>
          rintro ⟨rfl, rfl, hclean'⟩
          exact ⟨hclean', fun hdone => ⟨command, reply, rfl, exec, hdone⟩⟩
        | error e σ' => exact fun h => h.1

/-- The loop ends by itself or with a fault of the network, if every pass is harmless. -/
theorem loop_ends_well {ticks : ℕ → Tick} {reader : Reader}
    (hharmless : ∀ k core' r, Passes host ticks core reader k core' r → ∀ command r',
      nextCommand core'.sessionId r = (some command, r') →
      Harmless host (core'.others (ticks k)) command)
    (fuel k : ℕ) {σ : State Writer} (hpasses : Passes host ticks core reader k σ.toCore σ.reader)
    (hclean : σ.writer.Clean) (hfuel : σ.reader.chars.length < fuel) :
    Ends (fun done _ => done = true) (fun e _ => Handled e)
      (loop (host.streaming network.fails) ticks fuel k σ) := by
  induction fuel generalizing k σ with
  | zero => cases hfuel
  | succ fuel ih =>
    let σ' : State Writer := { σ with table := (ticks k).others σ.table }
    have hpass := loopBody_ready network (σ := σ') (ticks k).now hclean
      (hharmless k σ.toCore σ.reader hpasses)
    rw [loop_succ]
    revert hpass
    cases loopBody (host.streaming network.fails) (ticks k).now σ' with
    | error e σ'' => exact id
    | ok done σ'' =>
      rintro ⟨hclean', hnext⟩
      cases done with
      | true => rfl
      | false =>
        obtain ⟨command, reply, read, exec, valid⟩ := hnext rfl
        exact ih (k + 1) (hpasses.next read exec valid) hclean'
          (lt_of_lt_of_le (nextCommand_shorter read) (Nat.le_of_lt_succ hfuel))

end

theorem loopBody_sends {network : Network} (now : DateTime) {core core' : Core} {r r' : Reader}
    {sent : Str} {command : Command} {reply : Reply}
    (read : nextCommand core.sessionId r = (some command, r'))
    (exec : execute host now core command = some (reply, core')) (h : reply.Encodable)
    (hsilent : network.SilentUpTo (sent ++ reply.text host.newLine).length) :
    loopBody (host.streaming network.fails) now (clean core r sent) =
      .ok command.isInvalid (clean core' r' (sent ++ reply.text host.newLine)) := by
  obtain ⟨guard, -, hbody⟩ := loopBody_replied (host.streaming network.fails) now
    (σ := clean core r sent) read exec
  have hsend : reply.send (host.streaming network.fails)
      { clean core r sent with toCore := core', reader := r' } = .ok () _ :=
    sends_reply h core' r' sent hsilent
  rw [hbody]
  cases guard <;> simp only [Guard.run, tryCatch_run, hsend] <;> rfl

/-- A pass that reads a harmful command ends `Run` on some network. -/
theorem loopBody_escapes (now : DateTime) {core : Core} {r r' : Reader} {command : Command}
    (sent : Str) (read : nextCommand core.sessionId r = (some command, r'))
    (h : ¬ Harmless host core command) : ∃ network : Network, network.SilentUpTo sent.length ∧
      Escapes (loopBody (host.streaming network.fails) now (clean core r sent)) := by
  cases exec : execute host now core command with
  | none =>
    refine ⟨.never, never_silent _, ?_⟩
    rw [loopBody_raised (host.streaming Network.never.fails) now (σ := clean core r sent) read exec]
    refine ⟨_, _, rfl, ?_⟩
    rintro (h | h) <;> cases h
  | some result =>
    obtain ⟨reply, core'⟩ := result
    obtain ⟨network, hsilent, e, σ, hsend, hrefuses, hunguarded⟩ :=
      send_escapes (fun hencodable => h ((harmless_iff exec).mpr hencodable)) core' r' sent
    refine ⟨network, hsilent, ?_⟩
    obtain ⟨guard, hguard, hbody⟩ := loopBody_replied (host.streaming network.fails) now
      (σ := clean core r sent) read exec
    obtain ⟨e', σ', hrun, he'⟩ :=
      guard_escapes hsend hrefuses guard fun hg => hunguarded (hguard hg)
    refine ⟨e', σ', ?_, he'⟩
    rw [hbody]
    exact congrArg (flagged command.isInvalid) hrun

/-- `Run` ends normally or through its handlers, wherever the network fails. -/
def EndsWell (host : Host) (ticks : ℕ → Tick) (core : Core) (reader : Reader) : Prop :=
  ∀ network : Network, ∃ σ,
    run (host.streaming network.fails) ticks ⟨core, reader, .fresh⟩ = .ok true σ

/-- On a silent network the loop gets to pass `k`. -/
def Reaches (host : Host) (ticks : ℕ → Tick) (core : Core) (reader : Reader) (k : ℕ)
    (core' : Core) (r : Reader) : Prop :=
  r.chars.length + k ≤ reader.chars.length ∧ ∃ sent, ∀ network : Network,
    network.SilentUpTo sent.length → ∀ fuel,
      loop (host.streaming network.fails) ticks (fuel + k) 0 ⟨core, reader, .fresh⟩ =
        loop (host.streaming network.fails) ticks fuel k (clean core' r sent)

theorem run_escapes {env : Env Writer} {ticks : ℕ → Tick} {σ : State Writer}
    (h : Escapes (loop env ticks (σ.reader.chars.length + 1) 0 σ)) : Escapes (run env ticks σ) := by
  obtain ⟨⟨kind, message⟩, σ', hloop, he⟩ := h
  rw [run, bind_run, get_run]
  simp only
  rw [tryCatch_run, hloop]
  refine ⟨⟨kind, message⟩, σ', ?_, he⟩
  cases kind with
  | socket => exact absurd (.inl rfl) he
  | io => exact absurd (.inr rfl) he
  | session | argumentOutOfRange | encoderFallback | other => rfl

section

variable {ticks : ℕ → Tick} {core core' : Core} {reader r r' : Reader} {k : ℕ} {command : Command}

theorem harmless_of_reaches (hends : EndsWell host ticks core reader)
    (hreaches : Reaches host ticks core reader k core' r)
    (read : nextCommand core'.sessionId r = (some command, r')) :
    Harmless host (core'.others (ticks k)) command := by
  by_contra hharm
  obtain ⟨hlength, sent, hloop⟩ := hreaches
  have hread : nextCommand (core'.others (ticks k)).sessionId r = (some command, r') := read
  obtain ⟨network, hsilent, e, σ', hbody, he⟩ :=
    loopBody_escapes (ticks k).now sent hread hharm
  obtain ⟨fuel, hfuel⟩ : ∃ fuel, reader.chars.length + 1 = fuel + 1 + k :=
    ⟨reader.chars.length - k, by omega⟩
  have hescapes : Escapes (run (host.streaming network.fails) ticks ⟨core, reader, .fresh⟩) := by
    apply run_escapes
    refine ⟨e, σ', ?_, he⟩
    have hpass : loopBody (host.streaming network.fails) (ticks k).now
        { clean core' r sent with table := (ticks k).others core'.table } = .error e σ' := hbody
    rw [hfuel, hloop network hsilent, loop_succ]
    simp only [clean] at hpass ⊢
    rw [hpass]
  obtain ⟨σ, hrun⟩ := hends network
  obtain ⟨e', σ'', herror, -⟩ := hescapes
  cases hrun.symm.trans herror

theorem reaches_of_passes (hends : EndsWell host ticks core reader)
    (passes : Passes host ticks core reader k core' r) :
    Reaches host ticks core reader k core' r := by
  induction passes with
  | start => exact ⟨le_rfl, [], fun _ _ _ => rfl⟩
  | @next k core' core'' r r' command reply passes read exec valid ih =>
    have hencodable := (harmless_iff exec).mp (harmless_of_reaches hends ih read)
    obtain ⟨hlength, sent, hloop⟩ := ih
    have hshort := nextCommand_shorter read
    refine ⟨by omega, sent ++ reply.text host.newLine, fun network hsilent fuel => ?_⟩
    have hsent : network.SilentUpTo sent.length :=
      hsilent.mono (List.prefix_append _ _).length_le
    have hread : nextCommand (core'.others (ticks k)).sessionId r = (some command, r') := read
    have hbody := loopBody_sends (ticks k).now hread exec hencodable hsilent
    have hpass : loopBody (host.streaming network.fails) (ticks k).now
        { clean core' r sent with table := (ticks k).others core'.table } =
          .ok false (clean core'' r' (sent ++ reply.text host.newLine)) := by
      rw [← valid]
      exact hbody
    rw [show fuel + (k + 1) = fuel + 1 + k by omega, hloop network hsent, loop_succ]
    simp only [clean] at hpass ⊢
    rw [hpass]

end

/-- Wherever the network fails, `Run` ends normally or through its handlers, exactly if no
    pass reads a post of negative length and none has to send ill-formed text. -/
theorem run_ends_well_iff (host : Host) (ticks : ℕ → Tick) (core : Core) (reader : Reader) :
    EndsWell host ticks core reader ↔
      ∀ k core' r, Passes host ticks core reader k core' r → ∀ command r',
        nextCommand core'.sessionId r = (some command, r') →
        Harmless host (core'.others (ticks k)) command := by
  constructor
  · intro hends k core' r passes command r' read
    exact harmless_of_reaches hends (reaches_of_passes hends passes) read
  · intro hharmless network
    have hloop := loop_ends_well network hharmless (reader.chars.length + 1) 0
      (σ := ⟨core, reader, .fresh⟩) .start ⟨rfl, rfl⟩ (Nat.lt_succ_self _)
    rw [run, bind_run, get_run]
    simp only
    rw [tryCatch_run]
    revert hloop
    cases loop (host.streaming network.fails) ticks (reader.chars.length + 1) 0
        ⟨core, reader, .fresh⟩ with
    | ok done σ =>
      rintro rfl
      exact ⟨σ, rfl⟩
    | error e σ =>
      obtain ⟨kind, message⟩ := e
      rintro (rfl | rfl) <;> exact ⟨σ, rfl⟩

/-- The kind of the exception that escapes `Run`. -/
def escaped {W α : Type} : EStateM.Result Exn (State W) α → Option ExnKind
  | .ok _ _ => none
  | .error e _ => some e.kind

/-- A post of negative length, and a post that cuts a surrogate pair in two. -/
theorem client_input_escapes :
    let env := Host.unix.streaming fun _ => none
    let ticks : ℕ → Tick := fun k => ⟨k, id⟩
    let core : Core := ⟨0, .new 100, []⟩
    escaped (run env ticks ⟨core, ⟨lit "post\na\n-1\n", []⟩, .fresh⟩) = some .argumentOutOfRange ∧
      escaped (run env ticks ⟨core, ⟨lit "post\na\n1\n😀\n", []⟩, .fresh⟩) =
        some .encoderFallback :=
  ⟨by decide, by decide +kernel⟩

end NetServices.SDServer
