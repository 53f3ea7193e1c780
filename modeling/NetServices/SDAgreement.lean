import NetServices.SDClientOutcomes
import NetServices.SDRequests
import NetServices.SDSystem

set_option autoImplicit false

/-!
# The session of the client and the session of the server

A client and a connection of the server, with whatever else happens on the
session table between two passes. What a call sends can be several requests, or
a part of one, and the server handles those that have come whole. The client goes
on with the text that has come back, where the real one can only wait for more
once it has read it.
-/
namespace NetServices.SDAgreement
open Utf16 (Str lit feed)
open TextReader (Reader completeLine lf)
open TextWriter (Writer encoderException)
open Numerals (parseInt)
open SDServer (Host Tick Reply Command Core StrictPass execute nextCommand)
open SDClient (Platform Operation Accepts perform)
open Exceptions

/-- The other end of the connection, with the number of passes that its loop has made. -/
structure Peer where
  server : SDServer.State Writer
  passes : ℕ
  ended : Bool

/-- The next request has come whole, with what tells that its last line has ended. -/
def arrived (sessionId : UInt64) (chars : Str) : Bool :=
  match completeLine chars with
  | none => false
  | some (msg, rest) =>
    if msg = lit "resume" ∨ msg = lit "close" then (completeLine rest).isSome
    else if msg = lit "get" then sessionId = 0 || (completeLine rest).isSome
    else if msg = lit "post" then
      match completeLine rest with
      | none => false
      | some (name, rest) =>
        if name = [] then true
        else
          match completeLine rest with
          | none => false
          | some (length, rest) =>
            match parseInt (some length) with
            | none => true
            | some length => length.toNat ≤ rest.length
    else true

def Peer.waits (peer : Peer) : Bool :=
  peer.ended || !arrived peer.server.sessionId peer.server.reader.chars

section
variable (host : Host) (ticks : ℕ → Tick)

/-- A pass of the loop. An exception ends the connection. -/
def Peer.pass (peer : Peer) : Peer :=
  match peer.server.pass host (ticks peer.passes) with
  | .ok done server => ⟨server, peer.passes + 1, done⟩
  | .error _ server => ⟨server, peer.passes + 1, true⟩

/-- The server as the next pass finds it, and the request that the pass reads. -/
def Peer.request (peer : Peer) : Option (Core × Command) :=
  (nextCommand peer.server.sessionId peer.server.reader).1.map fun command =>
    (peer.server.toCore.others (ticks peer.passes), command)

/-- The loop of the server, until it waits for the client or has ended. -/
def serve : ℕ → Peer → Peer
  | 0, peer => peer
  | fuel + 1, peer => if peer.waits then peer else serve fuel (peer.pass host ticks)

/-- The requests that the loop reads until then. -/
def requests : ℕ → Peer → List (Core × Command)
  | 0, _ => []
  | fuel + 1, peer =>
    if peer.waits then []
    else (peer.request ticks).toList ++ requests fuel (peer.pass host ticks)

def Peer.receive (text : Str) (peer : Peer) : Peer :=
  { peer with server := { peer.server with
      reader := peer.server.reader.receive text
      writer := ⟨[], peer.server.writer.held, peer.server.writer.held.toList⟩ } }

/-- What comes back from the server when it is sent a text. -/
def Peer.deliver (text : Str) (peer : Peer) : Str × Peer :=
  let peer := peer.receive text
  let peer := serve host ticks peer.server.reader.chars.length peer
  (peer.server.writer.delivered, peer)

/-- The requests that the server reads when it is sent a text. -/
def Peer.asked (text : Str) (peer : Peer) : List (Core × Command) :=
  let peer := peer.receive text
  requests host ticks peer.server.reader.chars.length peer

/-- The client sends nothing of a text that cannot be encoded. -/
def connection (platform : Platform) : SDClient.Env Peer :=
  { platform with
    deliver := fun text peer =>
      if feed none text = some none then .ok (peer.deliver host ticks text)
      else .error encoderException }

end

/-- A fresh client that is connected to a fresh connection of a server. -/
def start (table : SessionTable) (files : List (Str × Str)) (reads reads' : List ℕ) :
    SDClient.State Peer where
  connected := true
  sessionID := 0
  reader := ⟨[], reads⟩
  writer := []
  peer := ⟨⟨⟨0, table, files⟩, ⟨[], reads'⟩, .fresh⟩, 0, false⟩

/-- A call as a step of a run. -/
def call (platform : Platform) (host : Host) (ticks : ℕ → Tick) (σ : SDClient.State Peer)
    (op : Operation) : Except Exn Str × SDClient.State Peer :=
  perform (connection host ticks platform) op σ

def Agrees (σ : SDClient.State Peer) : Prop := σ.sessionID = σ.peer.server.sessionId

instance (σ : SDClient.State Peer) : Decidable (Agrees σ) := inferInstanceAs (Decidable (_ = _))

/-- The session that a command would give to a connection that holds none. -/
def offered (core : Core) : Command → Option UInt64
  | .open => some core.table.nextSessionId
  | .resume (some id) => if core.table.resumeSession id = true then some id else none
  | _ => none

/-- The session that a request gives to the connection. -/
def gives (request : Core × Command) : Option UInt64 :=
  if request.1.sessionId = 0 then (offered request.1 request.2).filter (· ≠ 0) else none

/-- The session that the requests give to the connection. -/
def given (requests : List (Core × Command)) : Option UInt64 := requests.findSome? gives

/-- The condition for a client and a server that agree before a call to agree after it. A
    call that finds text from before on its stream takes it for its reply. -/
def AgreesWhen (platform : Platform) (host : Host) (ticks : ℕ → Tick)
    (σ : SDClient.State Peer) (op : Operation) : Prop :=
  let asked := σ.peer.asked host ticks (op.text platform.newLine σ.sessionID)
  match op with
  | .open | .resume _ =>
    if σ.reader.chars = [] then given asked.tail = none
    else ∃ id rest, Accepts σ.reader.chars id rest ∧
      (given asked = some id ∨ given asked = none ∧ σ.sessionID = id)
  | .close => σ.sessionID = 0 ∧ given asked = none
  | .get _ | .post _ _ => given asked = none

section
variable {host : Host} {ticks : ℕ → Tick}

theorem gives_of_held {core : Core} (h : core.sessionId ≠ 0) (command : Command) :
    gives (core, command) = none := if_neg h

theorem gives_ne_zero {request : Core × Command} {id : UInt64} (h : gives request = some id) :
    id ≠ 0 := by
  rw [gives] at h
  split_ifs at h
  exact of_decide_eq_true (Option.filter_eq_some_iff.mp h).2

theorem given_ne_zero {asked : List (Core × Command)} {id : UInt64} (h : given asked = some id) :
    id ≠ 0 := by
  obtain ⟨request, -, hgives⟩ := List.exists_of_findSome?_eq_some h
  exact gives_ne_zero hgives

/-- A connection that holds no session has the session that it is offered. -/
theorem execute_offered {now : DateTime} {core : Core} {command : Command}
    {result : Reply × Core} (h0 : core.sessionId = 0)
    (h : execute host now core command = some result) :
    result.2.sessionId = (offered core command).getD 0 := by
  have hexecuted := SDServer.execute_executed h
  obtain ⟨reply, core'⟩ := result
  cases command with
  | «open» =>
    have hopen : core.open now = (reply, core') := Option.some.inj h
    rw [Core.open, if_pos h0] at hopen
    rw [← (Prod.mk.inj hopen).2]
    rfl
  | resume parsed =>
    cases parsed with
    | none =>
      cases hexecuted
      exact h0
    | some id =>
      have hresume : core.resume id = (reply, core') := Option.some.inj h
      rw [Core.resume, if_pos h0] at hresume
      rw [offered]
      split_ifs at hresume ⊢
      · rw [← (Prod.mk.inj hresume).2]
        rfl
      · rw [← (Prod.mk.inj hresume).2]
        exact h0
  | _ => cases hexecuted <;> exact h0

/-- A command leaves the session that it gives, or the session as it was. -/
theorem execute_gives {now : DateTime} {core : Core} {command : Command} {result : Reply × Core}
    (h : execute host now core command = some result) :
    result.2.sessionId = (gives (core, command)).getD core.sessionId := by
  by_cases h0 : core.sessionId = 0
  · rw [gives, if_pos h0, execute_offered h0 h, h0]
    cases offered core command with
    | none => rfl
    | some id =>
      by_cases hid : id = 0
      · subst hid
        rfl
      · rw [Option.filter_some, if_pos (decide_eq_true hid)]
  · rw [gives_of_held h0]
    have hexecuted := SDServer.execute_executed h
    obtain ⟨reply, core'⟩ := result
    cases hexecuted with
    | opened fresh => exact absurd fresh h0
    | resumed id fresh => exact absurd fresh h0
    | _ => rfl

theorem gives_of_raised {now : DateTime} {core : Core} {command : Command}
    (h : execute host now core command = none) : gives (core, command) = none := by
  cases command with
  | postNegative name =>
    simp only [gives, offered, Option.filter_none, ite_self]
  | resume parsed => cases parsed <;> cases h
  | close parsed => cases parsed <;> cases h
  | _ => cases h

/-- What one pass of the loop makes of the connection. -/
inductive Passed (host : Host) (ticks : ℕ → Tick) (peer : Peer) : Peer → Prop where
  | silent (r : Reader) (silent : ∀ request, peer.request ticks = some request →
        execute host (ticks peer.passes).now request.1 request.2 = none)
      (table : SessionTable) (same : table = (ticks peer.passes).others peer.server.table) :
      Passed host ticks peer ⟨{ peer.server with table := table, reader := r },
        peer.passes + 1, true⟩
  | replied (command : Command) (r : Reader) (reply : Reply) (core : Core) (writer : Writer)
      (all done : Bool) (pending : Str)
      (read : nextCommand peer.server.sessionId peer.server.reader = (some command, r))
      (exec : execute host (ticks peer.passes).now
        (peer.server.toCore.others (ticks peer.passes)) command = some (reply, core))
      (takes : peer.server.writer.takes (reply.parts host.newLine) = (all, writer))
      (refused : all = false → done = true) :
      Passed host ticks peer ⟨⟨core, r, { writer with pending := pending }⟩, peer.passes + 1, done⟩

theorem pass_passed (peer : Peer) : Passed host ticks peer (peer.pass host ticks) := by
  obtain ⟨⟨core, reader, writer⟩, passes, ended⟩ := peer
  have hstrict := SDServer.loopBody_strict host (ticks passes).now
    ⟨core.others (ticks passes), reader, writer⟩
  rw [Peer.pass, SDServer.State.pass]
  change StrictPass _ _ _ (SDServer.loopBody _ _
    ⟨{ core with table := (ticks passes).others core.table }, reader, writer⟩) at hstrict
  generalize SDServer.loopBody _ _ _ = outcome at hstrict ⊢
  cases hstrict with
  | ended r read =>
    refine .silent r (fun request hrequest => ?_) _ rfl
    have hnone : nextCommand core.sessionId reader = (none, r) := read
    rw [Peer.request, hnone] at hrequest
    cases hrequest
  | raised command r read exec =>
    refine .silent r (fun request hrequest => ?_) _ rfl
    have hsome : nextCommand core.sessionId reader = (some command, r) := read
    rw [Peer.request, hsome] at hrequest
    obtain rfl := Option.some.inj hrequest
    exact exec
  | sent command r reply core' writer' read exec takes =>
    exact .replied command r reply core' writer' true command.isInvalid writer'.pending read exec
      takes fun h => absurd h.symm Bool.false_ne_true
  | refused command r reply core' writer' pending read exec takes =>
    exact .replied command r reply core' writer' false true pending read exec takes fun _ => rfl

/-- A pass leaves the session that its request gives, or the session as it was. -/
theorem pass_sessionId (peer : Peer) : (peer.pass host ticks).server.sessionId =
    (((peer.request ticks).bind gives).getD peer.server.sessionId) := by
  have hpassed := @pass_passed host ticks peer
  generalize peer.pass host ticks = peer' at hpassed ⊢
  cases hpassed with
  | silent r silent =>
    cases hrequest : peer.request ticks with
    | none => rfl
    | some request =>
      rw [Option.bind_some, gives_of_raised (silent request hrequest)]
      rfl
  | replied command r reply core writer all done pending read exec takes refused =>
    rw [Peer.request, read]
    exact execute_gives exec

theorem given_append (request : Option (Core × Command)) (rest : List (Core × Command)) :
    given (request.toList ++ rest) = (request.bind gives).or (given rest) := by
  rw [given, List.findSome?_append]
  cases request with
  | none => rfl
  | some request =>
    rw [Option.toList_some, List.findSome?_singleton]
    rfl

/-- A connection with a session is given no other. -/
theorem requests_of_held {fuel : ℕ} {peer : Peer} (h : peer.server.sessionId ≠ 0) :
    given (requests host ticks fuel peer) = none := by
  induction fuel generalizing peer with
  | zero => rfl
  | succ fuel ih =>
    rw [requests]
    split_ifs
    · rfl
    · have hnone : (peer.request ticks).bind gives = none := by
        rw [Peer.request]
        cases (nextCommand peer.server.sessionId peer.server.reader).1 with
        | none => rfl
        | some command => exact if_neg h
      have hsame := @pass_sessionId host ticks peer
      rw [hnone, Option.getD_none] at hsame
      rw [given_append, hnone, Option.none_or]
      exact ih (hsame ▸ h)

/-- The loop leaves the session that the requests give, or the session as it was. -/
theorem serve_sessionId (fuel : ℕ) (peer : Peer) :
    (serve host ticks fuel peer).server.sessionId =
      (given (requests host ticks fuel peer)).getD peer.server.sessionId := by
  induction fuel generalizing peer with
  | zero => rfl
  | succ fuel ih =>
    rw [serve, requests]
    split_ifs
    · rfl
    · have hpass := @pass_sessionId host ticks peer
      rw [ih, given_append]
      cases hgives : (peer.request ticks).bind gives with
      | none =>
        rw [hgives, Option.getD_none] at hpass
        rw [hpass, Option.none_or]
      | some id =>
        rw [hgives, Option.getD_some] at hpass
        obtain ⟨request, -, hid⟩ := Option.bind_eq_some_iff.mp hgives
        rw [requests_of_held (hpass ▸ gives_ne_zero hid), hpass]
        rfl

/-- The session of the connection stays the same exactly if no request gives one. -/
theorem unchanged_iff {fuel : ℕ} {peer : Peer} :
    (given (requests host ticks fuel peer)).getD peer.server.sessionId = peer.server.sessionId ↔
      given (requests host ticks fuel peer) = none := by
  cases hgiven : given (requests host ticks fuel peer) with
  | none => exact iff_of_true rfl rfl
  | some id =>
    refine iff_of_false (fun hid => ?_) (Option.some_ne_none id)
    rw [Option.getD_some] at hid
    have hnone := @requests_of_held host ticks fuel peer (hid ▸ given_ne_zero hgiven)
    exact Option.some_ne_none id (hgiven.symm.trans hnone)

/-- The loop ends, or waits for the client, within a pass for each character. -/
theorem serve_waits {fuel : ℕ} {peer : Peer} (h : peer.server.reader.chars.length ≤ fuel) :
    (serve host ticks fuel peer).waits = true := by
  induction fuel generalizing peer with
  | zero =>
    have hnil := List.length_eq_zero_iff.mp (Nat.le_zero.mp h)
    rw [serve, Peer.waits, hnil]
    exact Bool.or_true _
  | succ fuel ih =>
    rw [serve]
    split_ifs with hwaits
    · exact hwaits
    · have hpassed := @pass_passed host ticks peer
      generalize peer.pass host ticks = peer' at hpassed ⊢
      cases hpassed with
      | silent r silent =>
        cases fuel with
        | zero => rfl
        | succ fuel => rfl
      | replied command r reply core writer all done pending read exec takes refused =>
        have hshort := SDServer.nextCommand_shorter read
        exact ih (Nat.le_of_lt_succ (lt_of_lt_of_le hshort h))

/-- A connection that is accepted has the session that its reply says. -/
theorem accepted_sessionId {now : DateTime} {core core' : Core} {command : Command} {id : UInt64}
    (h : execute host now core command = some (.accepted id, core')) : core'.sessionId = id := by
  have hexecuted := SDServer.execute_executed h
  generalize hreply : Reply.accepted id = reply at hexecuted
  cases hexecuted with
  | opened | resumed => exact (Reply.accepted.inj hreply).symm
  | read name session entry reply answer =>
    rcases answer with rfl | ⟨message, rfl⟩ <;> cases hreply
  | filed name content reply files slash answer =>
    rcases answer with rfl | ⟨message, rfl⟩ <;> cases hreply
  | closed | stored | rejected | refused => cases hreply

theorem serve_ended (fuel : ℕ) {peer : Peer} (h : peer.ended = true) :
    serve host ticks fuel peer = peer := by
  cases fuel with
  | zero => rfl
  | succ fuel =>
    rw [serve, Peer.waits, h]
    rfl

theorem pass_delivered (peer : Peer) :
    peer.server.writer.delivered <+: (peer.pass host ticks).server.writer.delivered := by
  have hpassed := @pass_passed host ticks peer
  generalize peer.pass host ticks = peer' at hpassed ⊢
  cases hpassed with
  | silent => exact List.prefix_rfl
  | replied command r reply core writer all done pending read exec takes refused =>
    have hdelivered := TextWriter.takes_delivered takes
    exact hdelivered

theorem serve_delivered (fuel : ℕ) (peer : Peer) : peer.server.writer.delivered <+:
    (serve host ticks fuel peer).server.writer.delivered := by
  induction fuel generalizing peer with
  | zero => exact List.prefix_rfl
  | succ fuel ih =>
    rw [serve]
    split_ifs
    · exact List.prefix_rfl
    · exact (pass_delivered peer).trans (ih _)

/-- What comes back begins with the reply to the first request, as far as it has left the
    encoder; the acceptance of a session has left it whole. -/
structure Begins (host : Host) (ticks : ℕ → Tick) (fuel : ℕ) (peer : Peer) (reply : Reply) :
    Prop where
  asked : (requests host ticks (fuel + 1) peer).tail =
    requests host ticks fuel (peer.pass host ticks)
  served : serve host ticks (fuel + 1) peer = serve host ticks fuel (peer.pass host ticks)
  word : reply.word ++ host.newLine <+: (serve host ticks (fuel + 1) peer).server.writer.delivered
  accepted : ∀ id, reply = .accepted id → (peer.pass host ticks).server.sessionId = id ∧
    reply.text host.newLine <+: (serve host ticks (fuel + 1) peer).server.writer.delivered

theorem serve_begins {fuel : ℕ} {peer : Peer} {held : Option UInt16}
    (hwriter : peer.server.writer = ⟨[], held, held.toList⟩) :
    (serve host ticks fuel peer).server.writer.delivered = [] ∨
      ∃ fuel' reply, fuel = fuel' + 1 ∧ Begins host ticks fuel' peer reply := by
  have hnil : peer.server.writer.delivered = [] := by
    rw [hwriter]
    cases held <;> rfl
  cases fuel with
  | zero => exact .inl hnil
  | succ fuel =>
    cases hwaits : peer.waits with
    | true =>
      rw [serve, if_pos hwaits]
      exact .inl hnil
    | false =>
      have hserve : serve host ticks (fuel + 1) peer =
          serve host ticks fuel (peer.pass host ticks) := by
        rw [serve, hwaits]
        rfl
      have hrequests : requests host ticks (fuel + 1) peer =
          (peer.request ticks).toList ++ requests host ticks fuel (peer.pass host ticks) := by
        rw [requests, hwaits]
        rfl
      have hbegins := @serve_delivered host ticks fuel (peer.pass host ticks)
      have hpassed := @pass_passed host ticks peer
      rw [hserve]
      generalize hpass : peer.pass host ticks = peer' at hpassed hserve hrequests hbegins ⊢
      cases hpassed with
      | silent r silent table same =>
        rw [serve_ended fuel rfl]
        exact .inl hnil
      | replied command r reply core writer all done pending read exec takes refused =>
        rw [hwriter] at takes
        cases held with
        | some u =>
          obtain ⟨kept, htakes⟩ := @SDServer.takes_held host [u] u reply
          obtain ⟨rfl, rfl⟩ := Prod.mk.inj (htakes.symm.trans takes)
          rw [serve_ended fuel (refused rfl)]
          exact .inl rfl
        | none =>
          have hword := SDServer.takes_word takes
          refine .inr ⟨fuel, reply, rfl, ⟨?_, ?_, ?_, ?_⟩⟩
          · rw [hrequests, Peer.request, read, hpass]
            rfl
          · rw [hserve, hpass]
          · rw [hserve]
            exact List.IsPrefix.trans hword hbegins
          · rintro id rfl
            have htext := @SDServer.takes_encodable host [] (.accepted id) trivial
            obtain ⟨-, rfl⟩ := Prod.mk.inj (takes.symm.trans htext)
            rw [hserve, hpass]
            exact ⟨accepted_sessionId exec, hbegins⟩

theorem word_accepted {reply : Reply} (h : reply.word = lit "accepted") :
    ∃ id, reply = .accepted id := by
  cases reply with
  | accepted id => exact ⟨id, rfl⟩
  | _ => exact absurd (congrArg List.head? h) (by decide : ¬ (some _ = some _))

/-- The first line of a reply does not end like a number. -/
theorem parseULong_word (text : Str) (reply : Reply) :
    Numerals.parseULong (some (text ++ reply.word)) = none := by
  have hletters : ∀ word ∈ SDServer.replyWords, word.dropLast ++ [word.getLastD 0] = word ∧
      0x41 ≤ (word.getLastD 0).toNat ∧ (word.getLastD 0).toNat ≤ 0x7A := by decide
  obtain ⟨hword, hletter⟩ := hletters _ (SDServer.word_mem reply)
  rw [← hword, ← List.append_assoc]
  exact Numerals.parseULong_letter hletter _

theorem append_word {text : Str} {reply : Reply} (h : text ++ reply.word = lit "accepted") :
    text = [] := by
  have hsuffix : ∀ word ∈ SDServer.replyWords, word <:+ lit "accepted" → word = lit "accepted" := by
    decide
  rw [hsuffix _ (SDServer.word_mem reply) ⟨text, h⟩] at h
  exact List.append_left_eq_self.mp h

/-- A session that is accepted with text from before is accepted by that text alone. -/
theorem accepts_unread {unread received : Str} {id : UInt64} {rest : Str} (hunread : unread ≠ [])
    (hreceived : received = [] ∨ ∃ reply : Reply, reply.word ++ host.newLine <+: received)
    (h : Accepts (unread ++ received) id rest) : ∃ rest', Accepts unread id rest' := by
  rcases hreceived with rfl | ⟨reply, more, rfl⟩
  · rw [List.append_nil] at h
    exact ⟨rest, h⟩
  obtain ⟨after, line, htext, hne, hafter, hid⟩ := h
  rw [List.append_assoc] at htext
  have hword := TextReader.splitLine_newLine (SDServer.word_isLine reply) host.isNewLine more
  have hhead : (reply.word ++ (host.newLine ++ more)).head? ≠ some lf := by
    cases reply <;> exact fun h => absurd (Option.some.inj h) (by decide)
  rcases TextReader.splitLine_append hhead unread with ⟨-, hfirst⟩ | hfirst
  · -- the text and the first line of the reply are one line
    rw [hword] at hfirst
    exact absurd (append_word (congrArg Prod.fst (hfirst.symm.trans htext))) hunread
  obtain ⟨haccepted, rfl⟩ := Prod.mk.inj (hfirst.symm.trans htext)
  by_cases hnil : (TextReader.splitLine unread).2 = []
  · -- the reply is read as the session
    rw [hnil, List.nil_append, hword] at hafter
    obtain ⟨rfl, -⟩ := Prod.mk.inj hafter
    cases (parseULong_word [] reply).symm.trans hid
  rcases TextReader.splitLine_append hhead (TextReader.splitLine unread).2 with
    ⟨-, hsecond⟩ | hsecond
  · -- the session goes on with the first line of the reply
    rw [hword] at hsecond
    obtain ⟨rfl, -⟩ := Prod.mk.inj (hafter.symm.trans hsecond)
    cases (parseULong_word _ reply).symm.trans hid
  · obtain ⟨rfl, -⟩ := Prod.mk.inj (hafter.symm.trans hsecond)
    exact ⟨_, _, _, Prod.ext haccepted rfl, hnil, rfl, hid⟩

/-- A session that is accepted with nothing unread is the one that the first request
    gives. -/
theorem accepted_first_iff {fuel : ℕ} {peer : Peer} {held : Option UInt16} {id : UInt64}
    {rest : Str} (hwriter : peer.server.writer = ⟨[], held, held.toList⟩)
    (h : Accepts (serve host ticks fuel peer).server.writer.delivered id rest) :
    (serve host ticks fuel peer).server.sessionId = id ↔
      given (requests host ticks fuel peer).tail = none := by
  rcases @serve_begins host ticks fuel peer held hwriter with hnil | ⟨fuel', reply, rfl, hbegins⟩
  · rw [hnil] at h
    exact absurd h SDClient.not_accepts_nil
  · obtain ⟨more, hmore⟩ := hbegins.word
    have hword := TextReader.splitLine_newLine (SDServer.word_isLine reply) host.isNewLine more
    have ⟨after, line, htext, _⟩ := h
    rw [← hmore, List.append_assoc, hword] at htext
    obtain ⟨id', rfl⟩ := word_accepted (congrArg Prod.fst htext)
    obtain ⟨hsession, more', hmore'⟩ := hbegins.accepted id' rfl
    rw [← hmore'] at h
    obtain ⟨rfl, -⟩ := (SDClient.accepts_accepted_iff host.isNewLine).mp h
    rw [hbegins.asked, hbegins.served, serve_sessionId, ← unchanged_iff, hsession]

/-- Whether the session that a call takes is the one of the connection after it. -/
theorem accepted_session_iff {fuel : ℕ} {peer : Peer} {held : Option UInt16} {unread : Str}
    {id : UInt64} {rest : Str} (hwriter : peer.server.writer = ⟨[], held, held.toList⟩)
    (h : Accepts (unread ++ (serve host ticks fuel peer).server.writer.delivered) id rest) :
    id = (serve host ticks fuel peer).server.sessionId ↔
      if unread = [] then given (requests host ticks fuel peer).tail = none
      else ∃ id rest, Accepts unread id rest ∧
        (given (requests host ticks fuel peer) = some id ∨
          given (requests host ticks fuel peer) = none ∧ peer.server.sessionId = id) := by
  split_ifs with hunread
  · subst hunread
    rw [eq_comm]
    exact accepted_first_iff hwriter h
  · have hreceived : (serve host ticks fuel peer).server.writer.delivered = [] ∨
        ∃ reply : Reply, reply.word ++ host.newLine <+:
          (serve host ticks fuel peer).server.writer.delivered := by
      refine (serve_begins hwriter).imp_right ?_
      rintro ⟨fuel', reply, rfl, hbegins⟩
      exact ⟨reply, hbegins.word⟩
    obtain ⟨rest', haccepts⟩ := accepts_unread hunread hreceived h
    rw [serve_sessionId]
    constructor
    · intro hid
      refine ⟨id, rest', haccepts, ?_⟩
      cases hgiven : given (requests host ticks fuel peer) with
      | none => exact .inr ⟨rfl, by rw [hid, hgiven]; rfl⟩
      | some id' => exact .inl (by rw [hid, hgiven]; rfl)
    · rintro ⟨id', rest'', haccepts', hsession⟩
      obtain rfl := SDClient.accepts_unique haccepts haccepts'
      rcases hsession with hgiven | ⟨hgiven, hsame⟩
      · rw [hgiven, Option.getD_some]
      · rw [hgiven, Option.getD_none, hsame]

end

/-- The client is connected and has sent everything. -/
def Online (σ : SDClient.State Peer) : Prop := σ.connected = true ∧ σ.writer = []

/-- A call that returns leaves the client online. Where both sides agreed before it, they
    agree after it exactly under the condition. -/
theorem call_agrees (platform : Platform) (host : Host) (ticks : ℕ → Tick)
    {σ : SDClient.State Peer} {op : Operation} {value : Str} (hσ : Online σ) (hagrees : Agrees σ)
    (hreturns : (call platform host ticks σ op).1 = .ok value) :
    Online (call platform host ticks σ op).2 ∧
      (Agrees (call platform host ticks σ op).2 ↔ AgreesWhen platform host ticks σ op) := by
  obtain ⟨connected, sessionID, ⟨unread, reads⟩, writer, peer⟩ := σ
  obtain ⟨hconnected, hwriter⟩ := hσ
  obtain rfl : connected = true := hconnected
  obtain rfl : writer = [] := hwriter
  obtain rfl : sessionID = peer.server.sessionId := hagrees
  obtain ⟨received, peer', sessionID', reader, hdeliver, hcall, htakes⟩ :=
    SDClient.perform_returned hreturns
  have hdelivered : peer.deliver host ticks (op.text platform.newLine peer.server.sessionId) =
      (received, peer') := by
    simp only [connection] at hdeliver
    split_ifs at hdeliver
    exact Except.ok.inj hdeliver
  obtain ⟨hreceived, hpeer⟩ := Prod.mk.inj hdelivered
  have hsession : peer'.server.sessionId = (given (peer.asked host ticks
      (op.text platform.newLine peer.server.sessionId))).getD peer.server.sessionId := by
    rw [← hpeer]
    exact serve_sessionId _ _
  have hafter : Agrees (call platform host ticks ⟨true, peer.server.sessionId, ⟨unread, reads⟩,
      [], peer⟩ op).2 ↔ sessionID' = peer'.server.sessionId := by
    rw [call, hcall]
    exact Iff.rfl
  refine ⟨by rw [call, hcall]; exact ⟨rfl, rfl⟩, hafter.trans ?_⟩
  generalize hasked : peer.asked host ticks
    (op.text platform.newLine peer.server.sessionId) = asked at hsession
  have hunchanged : peer.server.sessionId = peer'.server.sessionId ↔ given asked = none := by
    rw [hsession, ← hasked]
    exact eq_comm.trans unchanged_iff
  simp only [AgreesWhen, hasked]
  cases op with
  | «open» | resume id =>
    obtain ⟨rest, haccepts⟩ := htakes
    rw [← hreceived] at haccepts
    rw [← hpeer, ← hasked]
    exact accepted_session_iff rfl haccepts
  | close =>
    obtain rfl : sessionID' = 0 := htakes
    rw [hsession]
    cases hgiven : given asked with
    | none => exact eq_comm.trans (and_iff_left rfl).symm
    | some id =>
      exact iff_of_false (given_ne_zero hgiven).symm fun h => Option.some_ne_none id h.2
  | get name | post name contents =>
    obtain rfl : sessionID' = peer.server.sessionId := htakes
    exact hunchanged

/-- Along a run of calls that return, both sides agree as long as every call meets the
    condition. -/
theorem run_agrees {platform : Platform} {host : Host} {ticks : ℕ → Tick}
    {σ : SDClient.State Peer} (hσ : Online σ) (hagrees : Agrees σ) {ops : List Operation}
    (hreturns : Machine.Every (call platform host ticks)
      (fun σ op => ∃ value, (call platform host ticks σ op).1 = .ok value) σ ops) :
    Machine.Every (call platform host ticks)
        (fun σ op => Agrees (call platform host ticks σ op).2) σ ops ↔
      Machine.Every (call platform host ticks) (AgreesWhen platform host ticks) σ ops := by
  induction ops generalizing σ with
  | nil => exact Iff.rfl
  | cons op ops ih =>
    obtain ⟨⟨value, hvalue⟩, hrest⟩ := hreturns
    obtain ⟨honline, hstep⟩ := call_agrees platform host ticks hσ hagrees hvalue
    constructor
    · rintro ⟨hhead, htail⟩
      exact ⟨hstep.mp hhead, (ih honline hhead hrest).mp htail⟩
    · rintro ⟨hhead, htail⟩
      have hagrees' := hstep.mpr hhead
      exact ⟨hagrees', (ih honline hagrees' hrest).mpr htail⟩

/-- A fresh client and a fresh connection agree on the session after every call of a run in
    which every call returns exactly if no call gives the connection another session than
    the client. -/
theorem sessions_agree_iff (platform : Platform) (host : Host) (ticks : ℕ → Tick)
    (table : SessionTable) (files : List (Str × Str)) (reads reads' : List ℕ)
    (ops : List Operation)
    (hreturns : Machine.Every (call platform host ticks)
      (fun σ op => ∃ value, (call platform host ticks σ op).1 = .ok value)
      (start table files reads reads') ops) :
    Machine.Every (call platform host ticks)
        (fun σ op => Agrees (call platform host ticks σ op).2)
        (start table files reads reads') ops ↔
      Machine.Every (call platform host ticks) (AgreesWhen platform host ticks)
        (start table files reads reads') ops :=
  run_agrees (σ := start table files reads reads') ⟨rfl, rfl⟩ rfl hreturns

/-- A client opens a session, posts a document and gets it. -/
theorem sessions_agree_posted :
    let windows : Platform := ⟨lit "\r\n", .inr rfl, id, []⟩
    let ticks : ℕ → Tick := fun k => ⟨k, id⟩
    let ops : List Operation := [.open, .post (lit "a") (lit "xy"), .get (lit "a")]
    Machine.Every (call windows .unix ticks) (fun σ op => Agrees (call windows .unix ticks σ op).2)
      (start (.new 100) [] [] []) ops := by
  intro windows ticks ops
  refine (sessions_agree_iff windows .unix ticks (.new 100) [] [] [] ops ?_).mpr ?_
  · exact ⟨⟨[], by decide⟩, ⟨[], by decide⟩, ⟨lit "xy", by decide⟩, trivial⟩
  · have hunread : (start (.new 100) [] [] []).reader.chars = [] := rfl
    refine ⟨?_, ?_, ?_, trivial⟩
    · simp only [AgreesWhen, hunread, if_true]
      decide
    · simp only [AgreesWhen]
      decide
    · simp only [AgreesWhen]
      decide

/-- After a normal `CloseSession` the connection still holds the session, and the next
    `OpenSession` fails. -/
theorem closed_session_still_held :
    let windows : Platform := ⟨lit "\r\n", .inr rfl, id, []⟩
    let ticks : ℕ → Tick := fun k => ⟨k, id⟩
    let σ := Machine.final (call windows .unix ticks) (start (.new 100) [] [] []) [.open]
    let (outcome, σ') := call windows .unix ticks σ .close
    Agrees σ ∧ outcome = .ok [] ∧ ¬ Agrees σ' ∧ σ'.sessionID = 0 ∧ σ'.peer.server.sessionId = 1 ∧
      (call windows .unix ticks σ' .open).1 = .error (SDClient.exception
        (lit "Failed to open session with SD server: " ++ lit "Session already open!")) := by
  intro windows ticks σ
  exact ⟨by decide, by decide, by decide, by decide, by decide, by decide⟩

/-- A name with line breaks opens a session for the connection. -/
example : let windows : Platform := ⟨lit "\r\n", .inr rfl, id, []⟩
    let ticks : ℕ → Tick := fun k => ⟨k, id⟩
    let (outcome, σ) := call windows .unix ticks (start (.new 100) [] [] [])
      (.post (lit "/f\n0\nopen\npost\n/g") [])
    outcome = .ok [] ∧ σ.sessionID = 0 ∧ σ.peer.server.sessionId = 1 := by
  decide

end NetServices.SDAgreement
