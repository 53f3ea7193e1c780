import NetServices.SDClient
import NetServices.SDCommands

set_option autoImplicit false

/-!
# What the client makes of a reply

A call sends one request and reads one reply. The reply decides the call, and is
read to its end except in two cases: the reason of a rejection and the message
of an error that answers a post stay on the stream.
-/
namespace NetServices.SDClient
open Utf16 (Str lit)
open TextReader (Reader IsLine IsNewLine readLine_newLine)
open Numerals (decimal)
open SDServer (Reply)
open Exceptions

variable {π : Type}

def State.on (σ : State π) (chars : Str) : State π :=
  { σ with reader := { σ.reader with chars := chars } }

/-- What a call sends. -/
def Operation.text (newLine : Str) (sessionID : UInt64) : Operation → Str
  | .open => lit "open\n"
  | .resume trySessionID => lit "resume\n" ++ decimal trySessionID.toNat ++ lit "\n"
  | .close => lit "close\n" ++ decimal sessionID.toNat ++ lit "\n"
  | .get documentName => lit "get" ++ newLine ++ (documentName ++ newLine)
  | .post documentName documentContents => lit "post" ++ lit "\n" ++ documentName ++ lit "\n" ++
      decimal documentContents.length ++ lit "\n" ++ documentContents

/-- The replies with which the server answers the request of a call. -/
def Operation.Expects : Operation → Reply → Prop
  | .open, .accepted _ | .open, .error _ => True
  | .resume _, .accepted _ | .resume _, .rejected _ | .resume _, .error _ => True
  | .close, .closed _ | .close, .error _ => True
  | .get _, .document _ _ | .get _, .error _ => True
  | .post _ _, .success | .post _ _, .error _ => True
  | _, _ => False

/-- Texts that are sent as a line are one, and the length of a document fits an `int`. -/
def Sendable : Reply → Prop
  | .rejected reason => IsLine reason
  | .error message => IsLine message
  | .document name content => IsLine name ∧ content.length < 2147483648
  | _ => True

/-- What the client leaves of a reply on the stream. -/
def Operation.unread (newLine : Str) : Operation → Reply → Str
  | .resume _, .rejected reason => reason ++ newLine
  | .post _ _, .error message => message ++ newLine
  | _, _ => []

/-- The outcome of a call and the session that the client holds after it, by the reply
    and the session before it. -/
inductive Decided : Operation → Reply → UInt64 → Except Exn Str → UInt64 → Prop where
  | opened (id sessionID : UInt64) : Decided .open (.accepted id) sessionID (.ok []) id
  | openFailed (message : Str) (sessionID : UInt64) :
      Decided .open (.error message) sessionID
        (.error (exception (lit "Failed to open session with SD server: " ++ message))) sessionID
  | resumed (id sessionID : UInt64) :
      Decided (.resume id) (.accepted id) sessionID (.ok []) id
  | misresumed (trySessionID id sessionID : UInt64) (differ : id ≠ trySessionID) :
      Decided (.resume trySessionID) (.accepted id) sessionID
        (.error (exception (lit "Server returned session ID " ++ decimal id.toNat ++
          lit ", expected " ++ decimal trySessionID.toNat ++ lit "."))) sessionID
  | rejected (trySessionID sessionID : UInt64) (reason : Str) :
      Decided (.resume trySessionID) (.rejected reason) sessionID
        (.error (exception (lit "Server rejected connection attempt"))) sessionID
  | resumeFailed (trySessionID sessionID : UInt64) (message : Str) :
      Decided (.resume trySessionID) (.error message) sessionID
        (.error (exception message)) sessionID
  | closed (sessionID : UInt64) : Decided .close (.closed sessionID) sessionID (.ok []) 0
  | misclosed (id sessionID : UInt64) (differ : id ≠ sessionID) :
      Decided .close (.closed id) sessionID
        (.error (exception (lit "Server closed session ID " ++ decimal id.toNat ++
          lit ", expected " ++ decimal sessionID.toNat ++ lit "."))) sessionID
  | closeFailed (message : Str) (sessionID : UInt64) :
      Decided .close (.error message) sessionID
        (.error (exception (lit "Server error when closing session: " ++ message))) sessionID
  | posted (name contents : Str) (sessionID : UInt64) :
      Decided (.post name contents) .success sessionID (.ok []) sessionID
  | postFailed (name contents message : Str) (sessionID : UInt64) :
      Decided (.post name contents) (.error message) sessionID
        (.error (exception (lit "Error: error"))) sessionID
  | got (name name' content : Str) (sessionID : UInt64) :
      Decided (.get name) (.document name' content) sessionID (.ok content) sessionID
  | getFailed (name message : Str) (sessionID : UInt64) :
      Decided (.get name) (.error message) sessionID (.error (exception message)) sessionID

theorem parseSessionId_decimal (env : Env π) (σ : State π) (id : UInt64) :
    parseSessionId env (decimal id.toNat) σ = .ok id σ := by
  rw [parseSessionId, Numerals.parseULong_decimal]
  rfl

theorem receiveDocumentContent_on (env : Env π) (σ : State π) (rest content : Str) :
    ∃ reads, receiveDocumentContent env content.length (σ.on (content ++ rest)) =
      .ok content { σ with reader := ⟨rest, reads⟩ } := by
  obtain ⟨reads, hblock⟩ := TextReader.readBlock_eq content.length content.length le_rfl
    ⟨content ++ rest, σ.reader.reads⟩
  rw [List.take_left, List.drop_left] at hblock
  refine ⟨reads, ?_⟩
  rw [receiveDocumentContent, if_neg (Int.not_lt.mpr (Int.natCast_nonneg _)), bind_run,
    modifyGet_run]
  simp only [State.on, Int.toNat_natCast, hblock, Nat.lt_irrefl, if_false]
  rfl

section

variable {newLine : Str} (hnl : IsNewLine newLine) (env : Env π) (σ : State π) (rest : Str)
include hnl

theorem readLine_on {l : Str} (hl : IsLine l) :
    readLine (σ.on (l ++ (newLine ++ rest))) = .ok (some l) (σ.on rest) := by
  change EStateM.Result.ok _ _ = _
  have h := readLine_newLine hl hnl rest σ.reader.reads
  simp only [State.on, h]

theorem receiveSessionResponse_accepted (id : UInt64) :
    receiveSessionResponse env (σ.on ((Reply.accepted id).text newLine ++ rest)) =
      .ok id (σ.on rest) := by
  simp only [Reply.text, List.append_assoc]
  rw [receiveSessionResponse, bind_run, readLine_on hnl σ _ (by decide)]
  simp only
  rw [if_pos trivial, bind_run, readLine_on hnl σ _ (Numerals.decimal_isLine _)]
  exact parseSessionId_decimal env _ id

theorem receiveSessionResponse_rejected (reason : Str) :
    receiveSessionResponse env (σ.on ((Reply.rejected reason).text newLine ++ rest)) =
      .error (exception (lit "Server rejected connection attempt"))
        (σ.on (reason ++ (newLine ++ rest))) := by
  simp only [Reply.text, List.append_assoc]
  rw [receiveSessionResponse, bind_run, readLine_on hnl σ _ (by decide)]
  simp only
  rw [if_neg (by decide), if_pos trivial]
  rfl

theorem receiveSessionResponse_error {message : Str} (hm : IsLine message) :
    receiveSessionResponse env (σ.on ((Reply.error message).text newLine ++ rest)) =
      .error (exception message) (σ.on rest) := by
  simp only [Reply.text, List.append_assoc]
  rw [receiveSessionResponse, bind_run, readLine_on hnl σ _ (by decide)]
  simp only
  rw [if_neg (by decide), if_neg (by decide), if_pos trivial, bind_run, readLine_on hnl σ _ hm]
  rfl

theorem receiveClose_closed (id : UInt64) :
    receiveClose env (σ.on ((Reply.closed id).text newLine ++ rest)) = .ok id (σ.on rest) := by
  simp only [Reply.text, List.append_assoc]
  rw [receiveClose, bind_run, readLine_on hnl σ _ (by decide)]
  simp only
  rw [if_pos trivial, bind_run, readLine_on hnl σ _ (Numerals.decimal_isLine _)]
  exact parseSessionId_decimal env _ id

theorem receiveClose_error {message : Str} (hm : IsLine message) :
    receiveClose env (σ.on ((Reply.error message).text newLine ++ rest)) =
      .error (exception (lit "Server error when closing session: " ++ message)) (σ.on rest) := by
  simp only [Reply.text, List.append_assoc]
  rw [receiveClose, bind_run, readLine_on hnl σ _ (by decide)]
  simp only
  rw [if_neg (by decide), if_pos trivial, bind_run, readLine_on hnl σ _ hm]
  rfl

theorem receivePostResponse_success :
    receivePostResponse (σ.on (Reply.success.text newLine ++ rest)) = .ok () (σ.on rest) := by
  simp only [Reply.text, List.append_assoc]
  rw [receivePostResponse, bind_run, readLine_on hnl σ _ (by decide)]
  simp only
  rw [if_pos trivial]
  rfl

theorem receivePostResponse_error (message : Str) :
    receivePostResponse (σ.on ((Reply.error message).text newLine ++ rest)) =
      .error (exception (lit "Error: error")) (σ.on (message ++ (newLine ++ rest))) := by
  simp only [Reply.text, List.append_assoc]
  rw [receivePostResponse, bind_run, readLine_on hnl σ _ (by decide)]
  simp only
  rw [if_neg (by decide), if_pos trivial]
  rfl

theorem receiveGetResponse_document {name content : Str} (hname : IsLine name)
    (hlength : content.length < 2147483648) :
    ∃ reads, receiveGetResponse env (σ.on ((Reply.document name content).text newLine ++ rest)) =
      .ok content { σ with reader := ⟨rest, reads⟩ } := by
  simp only [Reply.text, List.append_assoc]
  rw [receiveGetResponse, bind_run, readLine_on hnl σ _ (by decide)]
  simp only
  rw [if_pos trivial, bind_run, readLine_on hnl σ _ hname]
  simp only
  rw [bind_run, readLine_on hnl σ _ (Numerals.decimal_isLine _)]
  simp only [Numerals.parseInt_decimal hlength]
  exact receiveDocumentContent_on env σ rest content

theorem receiveGetResponse_error {message : Str} (hm : IsLine message) :
    receiveGetResponse env (σ.on ((Reply.error message).text newLine ++ rest)) =
      .error (exception message) (σ.on rest) := by
  simp only [Reply.text, List.append_assoc]
  rw [receiveGetResponse, bind_run, readLine_on hnl σ _ (by decide)]
  simp only
  rw [if_neg (by decide), if_pos trivial, bind_run, readLine_on hnl σ _ hm]
  rfl

theorem receiveGetResponse_long {name content : Str} (hname : IsLine name)
    (hlength : ¬ content.length < 2147483648) :
    ∃ e σ', receiveGetResponse env (σ.on ((Reply.document name content).text newLine ++ rest)) =
      .error e σ' := by
  simp only [Reply.text, List.append_assoc]
  rw [receiveGetResponse, bind_run, readLine_on hnl σ _ (by decide)]
  simp only
  rw [if_pos trivial, bind_run, readLine_on hnl σ _ hname]
  simp only
  rw [bind_run, readLine_on hnl σ _ (Numerals.decimal_isLine _)]
  simp only [Numerals.parseInt_decimal_large hlength]
  exact ⟨_, _, rfl⟩

/-- After the line `error` or `rejected` nothing is received normally. -/
theorem receive_refused {line : Str} (hline : line = lit "error" ∨ line = lit "rejected") :
    (∃ e σ', receiveSessionResponse env (σ.on (line ++ (newLine ++ rest))) = .error e σ') ∧
      (∃ e σ', receiveClose env (σ.on (line ++ (newLine ++ rest))) = .error e σ') ∧
      (∃ e σ', receivePostResponse (σ.on (line ++ (newLine ++ rest))) = .error e σ') ∧
      (∃ e σ', receiveGetResponse env (σ.on (line ++ (newLine ++ rest))) = .error e σ') := by
  have hisLine : IsLine line := by rcases hline with rfl | rfl <;> decide
  have hread := readLine_on hnl σ rest hisLine
  refine ⟨?_, ?_, ?_, ?_⟩
  · rw [receiveSessionResponse, bind_run, hread]
    rcases hline with rfl | rfl <;> exact ⟨_, _, rfl⟩
  · rw [receiveClose, bind_run, hread]
    rcases hline with rfl | rfl <;> exact ⟨_, _, rfl⟩
  · rw [receivePostResponse, bind_run, hread]
    rcases hline with rfl | rfl <;> exact ⟨_, _, rfl⟩
  · rw [receiveGetResponse, bind_run, hread]
    rcases hline with rfl | rfl <;> exact ⟨_, _, rfl⟩

end

/-- A call, with its outcome as a value. -/
def perform (env : Env π) (op : Operation) (σ : State π) : Except Exn Str × State π :=
  match op.run env σ with
  | .ok value σ' => (.ok value, σ')
  | .error e σ' => (.error e, σ')

theorem validateConnected_run {σ : State π} (h : σ.connected = true) :
    validateConnected σ = .ok () σ := by
  rw [validateConnected, bind_run, get_run]
  simp only
  rw [if_pos h]
  rfl

/-- A flush hands over what was written, and what comes back is on the stream. -/
theorem flush_run (env : Env π) (sessionID : UInt64) (reader : Reader) (peer : π)
    {text received chars : Str} {peer' : π}
    (hdeliver : env.deliver text peer = .ok (received, peer'))
    (hstream : reader.chars ++ received = chars) :
    (write text >>= fun _ => flush env) ⟨true, sessionID, reader, [], peer⟩ =
      .ok () (State.on ⟨true, sessionID, ⟨[], reader.reads⟩, [], peer'⟩ chars) := by
  rw [bind_run, write, modify_run]
  simp only [flush, List.nil_append, hdeliver, Reader.receive, hstream]
  rfl

section

variable {env : Env π} {σ τ : State π} (hconnected : σ.connected = true)
include hconnected

theorem perform_open (hsend : sendOpen env σ = .ok () τ) :
    perform env .open σ = match receiveSessionResponse env τ with
      | .ok id τ' => (.ok [], { τ' with sessionID := id })
      | .error e τ' =>
        (.error (exception (lit "Failed to open session with SD server: " ++ e.message)), τ') := by
  simp only [perform, Operation.run, openSession, bind_run, validateConnected_run hconnected, hsend,
    tryCatch_run]
  cases receiveSessionResponse env τ <;> rfl

theorem perform_resume {id : UInt64} (hid : id ≠ 0) (hsend : sendResume env id σ = .ok () τ) :
    perform env (.resume id) σ = match receiveSessionResponse env τ with
      | .ok returnedID τ' =>
        if returnedID ≠ id then
          (.error (exception (lit "Server returned session ID " ++ decimal returnedID.toNat ++
            lit ", expected " ++ decimal id.toNat ++ lit ".")), τ')
        else (.ok [], { τ' with sessionID := returnedID })
      | .error e τ' => (.error e, τ') := by
  simp only [perform, Operation.run, resumeSession, if_neg hid, bind_run,
    validateConnected_run hconnected, hsend]
  cases receiveSessionResponse env τ with
  | ok returnedID τ' =>
    by_cases h : returnedID ≠ id
    · simp only [if_pos h, throw_run]
    · simp only [if_neg h, modify_run, pure_run]
  | error e τ' => rfl

theorem perform_close (hsend : sendClose env σ.sessionID σ = .ok () τ) :
    perform env .close σ = match receiveClose env τ with
      | .ok returnedID τ' =>
        if returnedID ≠ τ'.sessionID then
          (.error (exception (lit "Server closed session ID " ++ decimal returnedID.toNat ++
            lit ", expected " ++ decimal τ'.sessionID.toNat ++ lit ".")), τ')
        else (.ok [], { τ' with sessionID := 0 })
      | .error e τ' => (.error e, τ') := by
  simp only [perform, Operation.run, closeSession, bind_run, validateConnected_run hconnected,
    get_run, hsend]
  cases receiveClose env τ with
  | ok returnedID τ' =>
    by_cases h : returnedID ≠ τ'.sessionID
    · simp only [if_pos h, throw_run]
    · simp only [if_neg h, modify_run, pure_run]
  | error e τ' => rfl

theorem perform_get {name : Str} (hsend : sendGet env name σ = .ok () τ) :
    perform env (.get name) σ = match receiveGetResponse env τ with
      | .ok content τ' => (.ok content, τ')
      | .error e τ' => (.error e, τ') := by
  simp only [perform, Operation.run, getDocument, bind_run, validateConnected_run hconnected, hsend]

theorem perform_post {name contents : Str} (hsend : sendPost env name contents σ = .ok () τ) :
    perform env (.post name contents) σ = match receivePostResponse τ with
      | .ok _ τ' => (.ok [], τ')
      | .error e τ' => (.error e, τ') := by
  simp only [perform, Operation.run, postDocument, bind_run, validateConnected_run hconnected,
    hsend]
  cases receivePostResponse τ <;> rfl

end

/-- A call of a connected client is decided by the reply to its request, of which it
    leaves `unread` on the stream. -/
theorem perform_reply (env : Env π) (sessionID : UInt64) (reader : Reader) (peer : π)
    {op : Operation} {reply : Reply} {newLine received rest : Str} {peer' : π}
    (hnl : IsNewLine newLine) (hop : op ≠ .resume 0) (hexpects : op.Expects reply)
    (hsendable : Sendable reply)
    (hdeliver : env.deliver (op.text env.newLine sessionID) peer = .ok (received, peer'))
    (hstream : reader.chars ++ received = reply.text newLine ++ rest) :
    ∃ outcome sessionID' reads,
      perform env op ⟨true, sessionID, reader, [], peer⟩ = (outcome,
        ⟨true, sessionID', ⟨op.unread newLine reply ++ rest, reads⟩, [], peer'⟩) ∧
      Decided op reply sessionID outcome sessionID' := by
  let σ : State π := ⟨true, sessionID, reader, [], peer⟩
  let τ : State π := ⟨true, sessionID, ⟨[], reader.reads⟩, [], peer'⟩
  have hflush := flush_run env sessionID reader peer hdeliver hstream
  cases op with
  | «open» =>
    have hsend : sendOpen env σ = .ok () _ := hflush
    have hperform := perform_open rfl hsend
    cases reply with
    | accepted id =>
      rw [receiveSessionResponse_accepted hnl] at hperform
      exact ⟨_, _, _, hperform, .opened id sessionID⟩
    | error message =>
      rw [receiveSessionResponse_error hnl env τ rest hsendable] at hperform
      exact ⟨_, _, _, hperform, .openFailed message sessionID⟩
    | _ => exact hexpects.elim
  | resume id =>
    have hid : id ≠ 0 := fun h => hop (congrArg Operation.resume h)
    have hsend : sendResume env id σ = .ok () _ := hflush
    have hperform := perform_resume rfl hid hsend
    cases reply with
    | accepted returnedID =>
      rw [receiveSessionResponse_accepted hnl] at hperform
      simp only at hperform
      split_ifs at hperform with hreturned
      · exact ⟨_, _, _, hperform, .misresumed id returnedID sessionID hreturned⟩
      · obtain rfl : returnedID = id := not_not.mp hreturned
        exact ⟨_, _, _, hperform, .resumed returnedID sessionID⟩
    | rejected reason =>
      rw [receiveSessionResponse_rejected hnl, ← List.append_assoc] at hperform
      exact ⟨_, _, _, hperform, .rejected id sessionID reason⟩
    | error message =>
      rw [receiveSessionResponse_error hnl env τ rest hsendable] at hperform
      exact ⟨_, _, _, hperform, .resumeFailed id sessionID message⟩
    | _ => exact hexpects.elim
  | close =>
    have hsend : sendClose env σ.sessionID σ = .ok () _ := hflush
    have hperform := perform_close rfl hsend
    cases reply with
    | closed id =>
      rw [receiveClose_closed hnl] at hperform
      simp only at hperform
      split_ifs at hperform with hid
      · exact ⟨_, _, _, hperform, .misclosed id sessionID hid⟩
      · obtain rfl : id = sessionID := not_not.mp hid
        exact ⟨_, _, _, hperform, .closed id⟩
    | error message =>
      rw [receiveClose_error hnl env τ rest hsendable] at hperform
      exact ⟨_, _, _, hperform, .closeFailed message sessionID⟩
    | _ => exact hexpects.elim
  | get name =>
    have hsend : sendGet env name σ = .ok () _ := hflush
    have hperform := perform_get rfl hsend
    cases reply with
    | document name' content =>
      obtain ⟨reads, hreceive⟩ :=
        receiveGetResponse_document hnl env τ rest hsendable.1 hsendable.2
      rw [hreceive] at hperform
      exact ⟨_, _, _, hperform, .got name name' content sessionID⟩
    | error message =>
      rw [receiveGetResponse_error hnl env τ rest hsendable] at hperform
      exact ⟨_, _, _, hperform, .getFailed name message sessionID⟩
    | _ => exact hexpects.elim
  | post name contents =>
    have hsend : sendPost env name contents σ = .ok () _ := hflush
    have hperform := perform_post rfl hsend
    cases reply with
    | success =>
      rw [receivePostResponse_success hnl] at hperform
      exact ⟨_, _, _, hperform, .posted name contents sessionID⟩
    | error message =>
      rw [receivePostResponse_error hnl, ← List.append_assoc] at hperform
      exact ⟨_, _, _, hperform, .postFailed name contents message sessionID⟩
    | _ => exact hexpects.elim

/-- A call and the reply to its request. `ResumeSession(0)` sends none. -/
inductive Exchange where
  | unsent
  | answered (op : Operation) (reply : Reply) (sent : op ≠ .resume 0)
      (expects : op.Expects reply) (sendable : Sendable reply)

namespace Exchange

def op : Exchange → Operation
  | .unsent => .resume 0
  | .answered op _ _ _ _ => op

def text (newLine : Str) : Exchange → Str
  | .unsent => []
  | .answered _ reply _ _ _ => reply.text newLine

/-- The outcome is that of the call with this very reply. -/
def Decides (sessionID : UInt64) (outcome : Except Exn Str) (sessionID' : UInt64) :
    Exchange → Prop
  | .unsent => outcome = .error (exception (lit "Cannot resume session with ID 0.")) ∧
      sessionID' = sessionID
  | .answered op reply _ _ _ => Decided op reply sessionID outcome sessionID'

/-- A rejection, or an error that answers a post. -/
def leavesLine : Exchange → Bool
  | .answered (.resume _) (.rejected _) _ _ _ => true
  | .answered (.post _ _) (.error _) _ _ _ => true
  | _ => false

def stream (newLine : Str) (exchanges : List Exchange) : Str :=
  (exchanges.map (text newLine)).flatten

end Exchange

/-- A server that takes everything, with its replies on the stream of the client. -/
def Platform.sink (platform : Platform) : Env Str :=
  { platform with deliver := fun text sent => .ok ([], sent ++ text) }

/-- Each call takes just its own reply from the stream, and is decided by it. -/
def InStep (env : Env π) (newLine : Str) : State π → List Exchange → Prop
  | _, [] => True
  | σ, x :: xs =>
    σ.reader.chars = x.text newLine ++ (perform env x.op σ).2.reader.chars ∧
      x.Decides σ.sessionID (perform env x.op σ).1 (perform env x.op σ).2.sessionID ∧
      InStep env newLine (perform env x.op σ).2 xs

theorem unread_of_leavesLine {op : Operation} {reply : Reply} {sent : op ≠ .resume 0}
    {expects : op.Expects reply} {sendable : Sendable reply} (newLine : Str) :
    (Exchange.answered op reply sent expects sendable).leavesLine = true →
      ∃ line, op.unread newLine reply = line ++ newLine := by
  intro h
  cases op <;> cases reply <;> first | exact ⟨_, rfl⟩ | cases h

theorem unread_nil {op : Operation} {reply : Reply} {sent : op ≠ .resume 0}
    {expects : op.Expects reply} {sendable : Sendable reply} (newLine : Str) :
    (Exchange.answered op reply sent expects sendable).leavesLine = false →
      op.unread newLine reply = [] := by
  intro h
  cases op <;> cases reply <;> first | rfl | cases h

/-- The client stays in step with the replies exactly as long as no call is rejected and
    no post is answered with an error. -/
theorem replies_read_whole_iff (platform : Platform) (host : SDServer.Host) (sessionID : UInt64)
    (sent : Str) (exchanges : List Exchange) (rest : Str) (reads : List ℕ) :
    InStep platform.sink host.newLine
        ⟨true, sessionID, ⟨Exchange.stream host.newLine exchanges ++ rest, reads⟩, [], sent⟩
        exchanges ↔
      ∀ x ∈ exchanges, x.leavesLine = false := by
  induction exchanges generalizing sessionID sent reads with
  | nil => exact ⟨fun _ _ hx => (nomatch hx), fun _ => trivial⟩
  | cons x xs ih =>
    rw [List.forall_mem_cons]
    cases x with
    | unsent =>
      have hstep := ih sessionID sent reads
      exact ⟨fun h => ⟨rfl, hstep.mp h.2.2⟩, fun h => ⟨rfl, ⟨rfl, rfl⟩, hstep.mpr h.2⟩⟩
    | answered op reply hop hexpects hsendable =>
      have hstream : Exchange.stream host.newLine
          (.answered op reply hop hexpects hsendable :: xs) ++ rest =
          reply.text host.newLine ++ (Exchange.stream host.newLine xs ++ rest) :=
        List.append_assoc _ _ _
      obtain ⟨outcome, sessionID', reads', hperform, hdecided⟩ :=
        perform_reply platform.sink sessionID ⟨_, reads⟩ sent host.isNewLine hop hexpects hsendable
          rfl ((List.append_nil _).trans hstream)
      rw [InStep]
      simp only [Exchange.op, hperform]
      cases hleaves : (Exchange.answered op reply hop hexpects hsendable).leavesLine with
      | true =>
        obtain ⟨line, hunread⟩ := unread_of_leavesLine host.newLine hleaves
        refine ⟨fun h => ?_, fun h => (nomatch h.1)⟩
        have hlength := congrArg List.length (List.append_cancel_left (hstream.symm.trans h.1))
        have hpos := TextReader.newLine_pos host.isNewLine
        simp only [hunread, List.length_append] at hlength
        omega
      | false =>
        have hunread := unread_nil host.newLine hleaves
        rw [hunread, List.nil_append]
        have hrest := ih sessionID' (sent ++ op.text platform.newLine sessionID) reads'
        exact ⟨fun h => ⟨rfl, hrest.mp h.2.2⟩, fun h => ⟨hstream, hdecided, hrest.mpr h.2⟩⟩

/-- The reason of a rejection is taken for the reply to the next call. -/
theorem rejection_decides_next_call :
    let rejection : Exchange := .answered (.resume 5)
      (.rejected (lit "Failed to resume session: 5")) (by decide) trivial
      (show IsLine _ by decide)
    let acceptance : Exchange := .answered .open (.accepted 1) (by decide) trivial trivial
    let windows : Platform := ⟨lit "\r\n", .inr rfl, id, []⟩
    let σ : State Str := ⟨true, 0,
      ⟨Exchange.stream (lit "\n") [rejection, acceptance], []⟩, [], []⟩
    let (_, σ') := perform windows.sink rejection.op σ
    let (outcome, _) := perform windows.sink acceptance.op σ'
    σ.reader.chars ≠ rejection.text (lit "\n") ++ σ'.reader.chars ∧
      outcome = .error (exception (lit "Failed to open session with SD server: " ++
        lit "Expected to receive a valid session response, instead got... " ++
        lit "Failed to resume session: 5")) := by
  decide

end NetServices.SDClient
