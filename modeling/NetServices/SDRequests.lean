import NetServices.SDEncoding
import NetServices.SDRobustness

set_option autoImplicit false

/-!
# Streams of complete requests

A connection stays in step with a stream of complete requests exactly as long as
it does not handle a `get` without a session, and has no reply to send that the
encoder refuses or does not take whole. Without a session the name of the document
is left on the stream and read as the next command.
-/
namespace NetServices.SDServer
open Utf16 (Str lit)
open TextReader (Reader InputLine Terminator readLine_line lf)
open TextWriter (Writer)
open Numerals (parseInt parseULong)
open Exceptions

/-- A request with all its lines; the content of a post is as long as its length line says. -/
inductive Request where
  | open (ending : Terminator)
  | resume (ending : Terminator) (id : InputLine) (apart : ending.Apart id.chars)
  | close (ending : Terminator) (id : InputLine) (apart : ending.Apart id.chars)
  | get (ending : Terminator) (name : InputLine) (named : name.text ≠ [])
  | post (ending : Terminator) (name : InputLine) (named : name.text ≠ []) (length : InputLine)
      (content : Str) (sized : parseInt (some length.text) = some (content.length : ℤ))
      (apart : length.ending.Apart content)

namespace Request

def text : Request → Str
  | .open ending => lit "open" ++ ending.text
  | .resume ending id _ => lit "resume" ++ (ending.text ++ id.chars)
  | .close ending id _ => lit "close" ++ (ending.text ++ id.chars)
  | .get ending name _ => lit "get" ++ (ending.text ++ name.chars)
  | .post ending name _ length content _ _ =>
    lit "post" ++ (ending.text ++ (name.chars ++ (length.chars ++ content)))

def command : Request → Command
  | .open _ => .open
  | .resume _ id _ => .resume (parseULong (some id.text))
  | .close _ id _ => .close (parseULong (some id.text))
  | .get _ name _ => .get name.text
  | .post _ name _ _ content _ _ => .post name.text content

def isGet : Request → Bool
  | .get _ _ _ => true
  | _ => false

/-- A stream of complete requests. -/
def stream (requests : List Request) : Str := (requests.map text).flatten

theorem head_ne_lf (request : Request) (rest : Str) : (request.text ++ rest).head? ≠ some lf := by
  cases request <;> (intro h; cases h)

theorem stream_head_ne_lf (requests : List Request) : (stream requests).head? ≠ some lf := by
  cases requests with
  | nil => exact nofun
  | cons request requests => exact head_ne_lf request (stream requests)

theorem text_ne_nil (request : Request) : request.text ≠ [] := by
  cases request <;> (intro h; cases h)

theorem length_le_stream (requests : List Request) :
    requests.length ≤ (stream requests).length := by
  induction requests with
  | nil => exact le_rfl
  | cons request requests ih =>
    have hpos := List.length_pos_iff.mpr (text_ne_nil request)
    have hlen : (stream (request :: requests)).length =
        request.text.length + (stream requests).length :=
      List.length_append
    rw [hlen, List.length_cons]
    omega

/-- A connection reads a complete request as its command and leaves the rest, unless it
    reads a `get` without a session. -/
theorem nextCommand_request (request : Request) {rest : Str} (reads : List ℕ) {id : UInt64}
    (hrest : rest.head? ≠ some lf) (hheld : request.isGet = true → id ≠ 0) :
    ∃ reads', nextCommand id ⟨request.text ++ rest, reads⟩ =
      (some request.command, ⟨rest, reads'⟩) := by
  cases request with
  | «open» ending =>
    refine ⟨reads, nextCommand_open id ?_⟩
    rw [text, List.append_assoc]
    exact readLine_line (by decide) ending rest reads fun _ => hrest
  | resume ending line apart =>
    have hword := readLine_line (l := lit "resume") (by decide) ending _ reads (apart.append hrest)
    rw [text, List.append_assoc, List.append_assoc, nextCommand_resume id hword,
      line.readLine rest reads fun _ => hrest]
    exact ⟨reads, rfl⟩
  | close ending line apart =>
    have hword := readLine_line (l := lit "close") (by decide) ending _ reads (apart.append hrest)
    rw [text, List.append_assoc, List.append_assoc, nextCommand_close id hword,
      line.readLine rest reads fun _ => hrest]
    exact ⟨reads, rfl⟩
  | get ending name named =>
    have hword := readLine_line (l := lit "get") (by decide) ending _ reads
      fun _ => name.head_ne_lf named rest
    rw [text, List.append_assoc, List.append_assoc, nextCommand_get id hword, if_neg (hheld rfl),
      name.readLine rest reads fun _ => hrest]
    exact ⟨reads, rfl⟩
  | post ending name named length content sized apart =>
    have hlength : length.text ≠ [] := by
      intro hnil
      have hnone : parseInt (some []) = none := by decide
      rw [hnil, hnone] at sized
      cases sized
    have hword := readLine_line (l := lit "post") (by decide) ending _ reads
      fun _ => name.head_ne_lf named (length.chars ++ (content ++ rest))
    have hname := name.readLine (length.chars ++ (content ++ rest)) reads
      fun _ => length.head_ne_lf hlength (content ++ rest)
    have hline := length.readLine (content ++ rest) reads (apart.append hrest)
    obtain ⟨reads', hblock⟩ := TextReader.readBlock_eq content.length content.length le_rfl
      ⟨content ++ rest, reads⟩
    rw [List.take_left, List.drop_left] at hblock
    refine ⟨reads', ?_⟩
    simp only [text, List.append_assoc]
    rw [nextCommand_post id hword]
    simp only [readPost, hname, Option.getD_some, if_neg named, hline, sized,
      if_neg (Int.not_lt.mpr (Int.natCast_nonneg content.length)), Int.toNat_natCast, hblock,
      command]

/-- A `get` without a session leaves the name of the document on the stream. -/
theorem nextCommand_get_unheld (ending : Terminator) (name : InputLine) (named : name.text ≠ [])
    (rest : Str) (reads : List ℕ) :
    nextCommand 0 ⟨(Request.get ending name named).text ++ rest, reads⟩ =
      (some (.get []), ⟨name.chars ++ rest, reads⟩) := by
  have hword := readLine_line (l := lit "get") (by decide) ending _ reads
    fun _ => name.head_ne_lf named rest
  rw [text, List.append_assoc, List.append_assoc, nextCommand_get 0 hword, if_pos rfl]

theorem execute_request (host : Host) (now : DateTime) (core : Core) (request : Request) :
    ∃ result, execute host now core request.command = some result := by
  cases request with
  | resume ending line apart =>
    cases hid : parseULong (some line.text) <;> exact ⟨_, by rw [command, hid]; rfl⟩
  | close ending line apart =>
    cases hid : parseULong (some line.text) <;> exact ⟨_, by rw [command, hid]; rfl⟩
  | _ => exact ⟨_, rfl⟩

theorem command_isInvalid (request : Request) : request.command.isInvalid = false := by
  cases request <;> rfl

end Request

variable {host : Host} {ticks : ℕ → Tick}

/-- A pass of the loop, after what others have done. -/
def State.pass (host : Host) (tick : Tick) (σ : State Writer) :
    EStateM.Result Exn (State Writer) Bool :=
  loopBody (host.streaming fun _ => none) tick.now { σ with table := tick.others σ.table }

/-- From pass `k` on the connection executes exactly these requests in this order. It takes
    just their characters from the stream and sends one whole reply to each, until the stream
    ends. -/
inductive InStep (host : Host) (ticks : ℕ → Tick) :
    ℕ → State Writer → List Request → State Writer → Prop where
  | ended {k : ℕ} {σ σ' : State Writer} (pass : σ.pass host (ticks k) = .ok true σ')
      (empty : σ.reader.chars = []) (silent : σ'.writer = σ.writer) : InStep host ticks k σ [] σ'
  | request {k : ℕ} {σ σ' σ'' : State Writer} {request : Request} {requests : List Request}
      (reply : Reply) (pass : σ.pass host (ticks k) = .ok false σ')
      (consumed : σ.reader.chars = request.text ++ σ'.reader.chars)
      (executed : execute host (ticks k).now (σ.toCore.others (ticks k)) request.command =
        some (reply, σ'.toCore))
      (replied : σ'.writer = ⟨[], none, σ.writer.sent ++ reply.text host.newLine⟩)
      (rest : InStep host ticks (k + 1) σ' requests σ'') :
      InStep host ticks k σ (request :: requests) σ''

/-- No `get` is handled while the connection holds no session, and no request is answered
    with text that is not well-formed. -/
def Answerable (host : Host) (ticks : ℕ → Tick) : ℕ → Core → List Request → Prop
  | _, _, [] => True
  | k, core, request :: requests =>
    (request.isGet = true → core.sessionId ≠ 0) ∧
      Harmless host (core.others (ticks k)) request.command ∧
      ∀ result, execute host (ticks k).now (core.others (ticks k)) request.command = some result →
        Answerable host ticks (k + 1) result.2 requests

theorem loop_pass {σ σ' : State Writer} {k : ℕ} {done : Bool} (fuel : ℕ)
    (pass : σ.pass host (ticks k) = .ok done σ') :
    loop (host.streaming fun _ => none) ticks (fuel + 1) k σ =
      if done then .ok true σ'
      else loop (host.streaming fun _ => none) ticks fuel (k + 1) σ' := by
  have hbody : loopBody (host.streaming fun _ => none) (ticks k).now
      { σ with table := (ticks k).others σ.table } = .ok done σ' := pass
  rw [loop_succ, hbody]
  cases done <;> rfl

/-- The loop of a connection in step ends normally. -/
theorem loop_of_inStep {k : ℕ} {σ σ' : State Writer} {requests : List Request}
    (h : InStep host ticks k σ requests σ') (fuel : ℕ) (hfuel : requests.length < fuel) :
    loop (host.streaming fun _ => none) ticks fuel k σ = .ok true σ' := by
  induction h generalizing fuel with
  | ended pass empty silent =>
    obtain ⟨fuel, rfl⟩ := Nat.exists_eq_succ_of_ne_zero (Nat.ne_zero_of_lt hfuel)
    exact loop_pass fuel pass
  | request reply pass consumed executed replied rest ih =>
    obtain ⟨fuel, rfl⟩ := Nat.exists_eq_succ_of_ne_zero (Nat.ne_zero_of_lt hfuel)
    rw [Nat.succ_eq_add_one, loop_pass fuel pass]
    exact ih fuel (Nat.lt_of_succ_lt_succ hfuel)

theorem run_of_inStep {σ σ' : State Writer} {requests : List Request}
    (hstream : σ.reader.chars = Request.stream requests)
    (h : InStep host ticks 0 σ requests σ') :
    run (host.streaming fun _ => none) ticks σ = .ok true σ' := by
  unfold run
  rw [bind_run, get_run]
  simp only
  rw [tryCatch_run, loop_of_inStep h _ ?_]
  rw [hstream]
  exact Nat.lt_succ_of_le (Request.length_le_stream requests)

/-- A pass that reads a command with a reply that can be sent. -/
theorem pass_command {core : Core} {reader r : Reader} {command : Command} {result : Reply × Core}
    (tick : Tick) (sent : Str) (hread : nextCommand core.sessionId reader = (some command, r))
    (hexec : execute host tick.now (core.others tick) command = some result)
    (hencodable : result.1.Encodable) :
    State.pass host tick (clean core reader sent) =
      .ok command.isInvalid (clean result.2 r (sent ++ result.1.text host.newLine)) := by
  have hnext : nextCommand (core.others tick).sessionId reader = (some command, r) := hread
  exact @loopBody_sends host Network.never tick.now _ _ _ _ _ _ _ hnext hexec hencodable
    (never_silent _)

/-- A reply that is sent whole could be encoded. -/
theorem pass_encodable {core : Core} {reader r : Reader} {command : Command} {result : Reply × Core}
    {tick : Tick} {sent : Str} {done : Bool} {σ : State Writer}
    (hread : nextCommand core.sessionId reader = (some command, r))
    (hexec : execute host tick.now (core.others tick) command = some result)
    (hpass : State.pass host tick (clean core reader sent) = .ok done σ)
    (hreplied : σ.writer = ⟨[], none, sent ++ result.1.text host.newLine⟩) :
    result.1.Encodable := by
  have hnext : nextCommand (core.others tick).sessionId reader = (some command, r) := hread
  have hstrict := loopBody_strict host tick.now (clean (core.others tick) reader sent)
  have hbody : loopBody (host.streaming fun _ => none) tick.now
      (clean (core.others tick) reader sent) = .ok done σ := hpass
  rw [hbody] at hstrict
  cases hstrict with
  | ended r' read => cases hnext.symm.trans read
  | sent command' r' reply core' writer read exec takes =>
    cases hnext.symm.trans read
    obtain rfl := Option.some.inj (hexec.symm.trans exec)
    subst hreplied
    exact encodable_of_takes takes

/-- A pass that handles a complete request. -/
theorem pass_request {core : Core} {reader : Reader} {request : Request} {rest : Str}
    (tick : Tick) (sent : Str) (hchars : reader.chars = request.text ++ rest)
    (hrest : rest.head? ≠ some lf) (hheld : request.isGet = true → core.sessionId ≠ 0)
    (hharmless : Harmless host (core.others tick) request.command) :
    ∃ result reads, execute host tick.now (core.others tick) request.command = some result ∧
      State.pass host tick (clean core reader sent) =
        .ok false (clean result.2 ⟨rest, reads⟩ (sent ++ result.1.text host.newLine)) := by
  obtain ⟨chars, reads⟩ := reader
  obtain rfl : chars = request.text ++ rest := hchars
  obtain ⟨reads', hread⟩ := request.nextCommand_request reads hrest hheld
  obtain ⟨result, hexec⟩ := request.execute_request host tick.now (core.others tick)
  have hpass := pass_command tick sent hread hexec ((harmless_iff hexec).mp hharmless)
  rw [request.command_isInvalid] at hpass
  exact ⟨result, reads', hexec, hpass⟩

/-- A pass that handles a `get` without a session leaves the name of the document. -/
theorem pass_get_unheld {core : Core} {reader : Reader} {request : Request}
    {rest : Str} (tick : Tick) (sent : Str) (hchars : reader.chars = request.text ++ rest)
    (hget : request.isGet = true) (hid : core.sessionId = 0) :
    ∃ σ, State.pass host tick (clean core reader sent) = .ok false σ ∧
      rest.length < σ.reader.chars.length := by
  cases request with
  | get ending name named =>
    obtain ⟨chars, reads⟩ := reader
    obtain rfl : chars = (Request.get ending name named).text ++ rest := hchars
    have hread := Request.nextCommand_get_unheld ending name named rest reads
    rw [← hid] at hread
    have hexec : execute host tick.now (core.others tick) (.get []) =
        some (.error (lit "No session open. Cannot perform GET."), core.others tick) :=
      congrArg some (if_pos hid)
    refine ⟨_, pass_command tick sent hread hexec (Utf16.wellFormed_lit _), ?_⟩
    have hpos := List.length_pos_iff.mpr named
    change rest.length < (name.chars ++ rest).length
    rw [List.length_append, InputLine.chars, List.length_append]
    omega
  | _ => cases hget

theorem pass_ended {core : Core} {reader : Reader} (tick : Tick) (sent : Str)
    (hchars : reader.chars = []) : State.pass host tick (clean core reader sent) =
      .ok true (clean (core.others tick) reader sent) := by
  obtain ⟨chars, reads⟩ := reader
  obtain rfl : chars = [] := hchars
  exact loopBody_ended (host.streaming fun _ => none) tick.now rfl

theorem inStep_of_answerable {k : ℕ} {core : Core} {reader : Reader} (sent : Str)
    {requests : List Request} (hstream : reader.chars = Request.stream requests)
    (h : Answerable host ticks k core requests) :
    ∃ σ, InStep host ticks k (clean core reader sent) requests σ := by
  induction requests generalizing k core reader sent with
  | nil => exact ⟨_, .ended (pass_ended (ticks k) sent hstream) hstream rfl⟩
  | cons request requests ih =>
    obtain ⟨hheld, hharmless, hrest⟩ := h
    obtain ⟨result, reads, hexec, hpass⟩ := pass_request (ticks k) sent hstream
      (Request.stream_head_ne_lf requests) hheld hharmless
    obtain ⟨σ, hsteps⟩ := @ih (k + 1) result.2 ⟨Request.stream requests, reads⟩ _ rfl
      (hrest result hexec)
    exact ⟨σ, .request result.1 hpass hstream hexec rfl hsteps⟩

theorem answerable_of_inStep {k : ℕ} {core : Core} {reader : Reader} {sent : Str}
    {σ : State Writer} {requests : List Request} (hstream : reader.chars = Request.stream requests)
    (h : InStep host ticks k (clean core reader sent) requests σ) :
    Answerable host ticks k core requests := by
  induction requests generalizing k core reader sent with
  | nil => trivial
  | cons request requests ih =>
    cases h with
    | @request _ _ σ' _ _ _ reply pass consumed executed replied rest =>
      have hchars : σ'.reader.chars = Request.stream requests :=
        List.append_cancel_left (consumed.symm.trans hstream)
      have hheld : request.isGet = true → core.sessionId ≠ 0 := by
        intro hget hid
        obtain ⟨σ₁, hpass, hleft⟩ := pass_get_unheld (ticks k) sent hstream hget hid
        rw [pass] at hpass
        obtain rfl := (EStateM.Result.ok.inj hpass).2
        rw [hchars] at hleft
        exact absurd hleft (Nat.lt_irrefl _)
      have hencodable : reply.Encodable := by
        obtain ⟨chars, reads⟩ := reader
        obtain rfl : chars = request.text ++ Request.stream requests := hstream
        obtain ⟨reads', hread⟩ := request.nextCommand_request reads
          (Request.stream_head_ne_lf requests) hheld
        exact pass_encodable hread executed pass replied
      refine ⟨hheld, (harmless_iff executed).mpr hencodable, fun result hresult => ?_⟩
      obtain rfl := Option.some.inj (executed.symm.trans hresult)
      obtain ⟨core', reader', writer'⟩ := σ'
      obtain rfl : writer' = ⟨[], none, sent ++ reply.text host.newLine⟩ := replied
      exact ih hchars rest

/-- A connection with a new writer stays in step with a stream of complete requests, and its
    loop ends normally with the stream, exactly if it handles no `get` without a session and
    has only well-formed text to send. -/
theorem stays_in_step_iff (host : Host) (ticks : ℕ → Tick) (core : Core)
    (requests : List Request) (reads : List ℕ) :
    (∃ σ, InStep host ticks 0 ⟨core, ⟨Request.stream requests, reads⟩, .fresh⟩ requests σ ∧
        run (host.streaming fun _ => none) ticks
          ⟨core, ⟨Request.stream requests, reads⟩, .fresh⟩ = .ok true σ) ↔
      Answerable host ticks 0 core requests := by
  constructor
  · rintro ⟨σ, hsteps, -⟩
    exact @answerable_of_inStep host ticks 0 core _ [] σ requests rfl hsteps
  · intro h
    obtain ⟨σ, hsteps⟩ := @inStep_of_answerable host ticks 0 core ⟨Request.stream requests, reads⟩
      [] requests rfl h
    exact ⟨σ, hsteps, run_of_inStep rfl hsteps⟩

/-- What `Run` has sent when it ends normally. -/
def sentIn : EStateM.Result Exn (State Writer) Bool → Option Str
  | .ok true σ => some σ.writer.sent
  | _ => none

/-- On a fresh connection the name of the document is executed as a command. -/
theorem get_name_executed :
    let name : InputLine := ⟨lit "open", .lf, by decide⟩
    let requests : List Request := [.get .lf name (by decide)]
    let σ : State Writer := ⟨⟨0, .new 100, []⟩, ⟨Request.stream requests, []⟩, .fresh⟩
    let ticks : ℕ → Tick := fun k => ⟨k, id⟩
    ¬ (∃ σ', InStep .unix ticks 0 σ requests σ') ∧
      sentIn (run (Host.unix.streaming fun _ => none) ticks σ) = some
        ((Reply.error (lit "No session open. Cannot perform GET.")).text Host.unix.newLine ++
          (Reply.accepted 1).text Host.unix.newLine) := by
  intro name requests σ ticks
  refine ⟨?_, by decide +kernel⟩
  rintro ⟨σ', hsteps⟩
  exact (@answerable_of_inStep .unix ticks 0 _ _ [] σ' requests rfl hsteps).1 rfl rfl

end NetServices.SDServer
