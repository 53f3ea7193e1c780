import NetServices.SDDisclosure
import NetServices.SDRecovery
import NetServices.SDRequests

set_option autoImplicit false

/-!
# The browser's client against the running server

A call of `SDProtocolClient` on one connection of a server that goes on serving
the others. The server answers the session request in one pass of the connection
and the `get` in a later one, and anything may happen before and between them.
The process does not end by then, and what is received is well-formed text: the
encoder of the server takes nothing else.
-/
namespace NetServices.SDFetch
open SDClient (Platform Operation Accepts Delivers)
open SDProtocolClient (Call Served)
open SDServer (Command Conn Core Event Host Reply Request System)
open TextReader (InputLine IsLine Terminator)
open Numerals (decimal)
open Utf16 (Str lit)

/-- The name of the document is a line, and the length of its content fits an `int`. -/
def Clean : Operation → Prop
  | .get documentName => IsLine documentName
  | .post documentName documentContents =>
    IsLine documentName ∧ documentContents.length < 2147483648
  | _ => True

/-- The command that the server reads in a request with nothing missing. -/
def command (sessionID : UInt64) : Operation → Command
  | .open => .open
  | .resume trySessionID => .resume (some trySessionID)
  | .close => .close (some sessionID)
  | .get documentName => .get documentName
  | .post documentName documentContents => .post documentName documentContents

def Named : Operation → Prop
  | .get documentName => documentName ≠ []
  | .post documentName _ => documentName ≠ []
  | _ => True

/-- What a call sends is a complete request, unless the name of the document is missing. -/
theorem exists_request (platform : Platform) (sessionID : UInt64) {op : Operation}
    (hclean : Clean op) (hnamed : Named op) :
    ∃ request : Request, request.text = op.text platform.newLine sessionID ∧
      request.command = command sessionID op ∧
      (request.isGet = true → ∃ documentName, op = .get documentName) := by
  have hlf : lit "\n" = Terminator.lf.text := by decide
  cases op with
  | «open» => exact ⟨.open .lf, rfl, rfl, fun h => absurd h Bool.false_ne_true⟩
  | resume id =>
    have hword : lit "resume\n" = lit "resume" ++ Terminator.lf.text := by decide
    refine ⟨.resume .lf ⟨decimal id.toNat, .lf, Numerals.decimal_isLine _⟩
      (Terminator.lf_apart _), ?_, ?_, fun h => absurd h Bool.false_ne_true⟩
    · simp only [Request.text, Operation.text, InputLine.chars, hword, hlf, List.append_assoc]
    · exact congrArg Command.resume (Numerals.parseULong_decimal id)
  | close =>
    have hword : lit "close\n" = lit "close" ++ Terminator.lf.text := by decide
    refine ⟨.close .lf ⟨decimal sessionID.toNat, .lf, Numerals.decimal_isLine _⟩
      (Terminator.lf_apart _), ?_, ?_, fun h => absurd h Bool.false_ne_true⟩
    · simp only [Request.text, Operation.text, InputLine.chars, hword, hlf, List.append_assoc]
    · exact congrArg Command.close (Numerals.parseULong_decimal sessionID)
  | get name =>
    obtain ⟨ending, hending⟩ : ∃ ending : Terminator, platform.newLine = ending.text :=
      platform.isNewLine.elim (fun h => ⟨.lf, h⟩) fun h => ⟨.crlf, h⟩
    refine ⟨.get ending ⟨name, ending, hclean⟩ hnamed, ?_, rfl, fun _ => ⟨name, rfl⟩⟩
    simp only [Request.text, Operation.text, InputLine.chars, hending, List.append_assoc]
  | post name contents =>
    refine ⟨.post .lf ⟨name, .lf, hclean.1⟩ hnamed
      ⟨decimal contents.length, .lf, Numerals.decimal_isLine _⟩ contents
      (Numerals.parseInt_decimal hclean.2) (Terminator.lf_apart _), ?_, rfl,
      fun h => absurd h Bool.false_ne_true⟩
    simp only [Request.text, Operation.text, InputLine.chars, hlf, List.append_assoc]

/-- Where a call meets the server. -/
structure Meeting (κ : Type) where
  host : Host
  system : System κ
  connection : κ
  before : List (Event κ)
  time : DateTime
  between : List (Event κ)
  time' : DateTime

section
variable {κ : Type} [DecidableEq κ]

/-- The server when the session request is answered. -/
def Meeting.asked (m : Meeting κ) : System κ :=
  Machine.final (System.step m.host) m.system m.before

/-- The server after it has answered the session request. -/
def Meeting.opened (m : Meeting κ) : System κ :=
  (m.asked.step m.host (.request m.connection m.time)).2

/-- The server when the `get` is answered. -/
def Meeting.found (m : Meeting κ) : System κ :=
  Machine.final (System.step m.host) m.opened m.between

/-- The call with this session request has the connection for itself, and receives what
    the server sends on it. -/
structure Meets (platform : Platform) (call : Call) (op : Operation) (m : Meeting κ) :
    Prop where
  named : call.documentName.getD [] ≠ []
  line : IsLine (call.documentName.getD [])
  start : ∃ reads, m.system.conns m.connection = ⟨0, ⟨op.text platform.newLine 0 ++
    (Operation.get (call.documentName.getD [])).text platform.newLine 0, reads⟩, false⟩
  before : ∀ now, Event.request m.connection now ∉ m.before
  between : ∀ now, Event.request m.connection now ∉ m.between
  answer : call.server [op.text platform.newLine 0] =
    .ok (m.asked.step m.host (.request m.connection m.time)).1.sent
  answer' : call.server [op.text platform.newLine 0,
      (Operation.get (call.documentName.getD [])).text platform.newLine 0] =
    .ok (m.found.step m.host (.request m.connection m.time')).1.sent

/-- A connection is as its last pass left it. -/
theorem final_conn {host : Host} {sys : System κ} {c : κ} {events : List (Event κ)}
    (h : ∀ now, Event.request c now ∉ events) :
    (Machine.final (System.step host) sys events).conns c = sys.conns c := by
  induction events generalizing sys with
  | nil => rfl
  | cons e events ih =>
    refine (ih fun now hmem => h now (List.mem_cons_of_mem e hmem)).trans ?_
    have hs := System.step_stepped host sys e
    generalize (sys.step host e).1 = answer at hs
    generalize (sys.step host e).2 = sys' at hs
    have other {c' : κ} {now : DateTime} (he : e = .request c' now) : c ≠ c' := by
      rintro rfl
      exact h now (he ▸ List.mem_cons_self)
    cases hs with
    | ended | swept => rfl
    | silent c' now | executed c' now =>
      rw [System.after_conns, if_neg (other rfl)]

theorem read_operation (platform : Platform) {id : UInt64} {op : Operation} {rest : Str}
    (reads : List ℕ) (hclean : Clean op) (hnamed : Named op)
    (hheld : ∀ name, op = .get name → id ≠ 0) (hrest : rest.head? ≠ some TextReader.lf) :
    ∃ reads', SDServer.nextCommand id ⟨op.text platform.newLine 0 ++ rest, reads⟩ =
      (some (command 0 op), ⟨rest, reads'⟩) := by
  obtain ⟨request, htext, hcommand, hget⟩ := exists_request platform 0 hclean hnamed
  rw [← htext, ← hcommand]
  refine SDServer.Request.nextCommand_request request reads hrest fun h => ?_
  obtain ⟨name, hop⟩ := hget h
  exact hheld name hop

/-- What the pass does that answers a call. -/
theorem step_operation {platform : Platform} {host : Host} {sys : System κ} {c : κ} {id : UInt64}
    {op : Operation} {rest : Str} {reads : List ℕ} {now : DateTime} {result : Reply × Core}
    (h : sys.conns c = ⟨id, ⟨op.text platform.newLine 0 ++ rest, reads⟩, false⟩)
    (hclean : Clean op) (hnamed : Named op) (hheld : ∀ name, op = .get name → id ≠ 0)
    (hrest : rest.head? ≠ some TextReader.lf)
    (hexec : SDServer.execute host now (sys.core c) (command 0 op) = some result) :
    (sys.step host (.request c now)).1.sent = result.1.text host.newLine ∧
      ∃ reads', (sys.step host (.request c now)).2 =
        sys.after c result.2 ⟨rest, reads'⟩ false := by
  obtain ⟨reads', hread⟩ := read_operation platform reads hclean hnamed hheld hrest
  have hvalid : (command 0 op).isInvalid = false := by cases op <;> rfl
  rw [System.step_request now (congrArg Conn.ended h), h]
  simp only [hread, hexec, hvalid, true_and]
  exact ⟨reads', rfl⟩

theorem text_head (newLine : Str) (op : Operation) :
    (op.text newLine 0).head? ≠ some TextReader.lf := by
  cases op <;> nofun

section
variable {platform : Platform} {host : Host} {sys : System κ} {c : κ} {rest : Str}
  {reads : List ℕ}

theorem step_open (h : sys.conns c = ⟨0, ⟨Operation.open.text platform.newLine 0 ++ rest, reads⟩,
      false⟩) (hrest : rest.head? ≠ some TextReader.lf) (now : DateTime) :
    (sys.step host (.request c now)).1.sent =
        (Reply.accepted sys.table.nextSessionId).text host.newLine ∧
      ∃ reads', (sys.step host (.request c now)).2 = sys.after c { sys.core c with
        sessionId := sys.table.nextSessionId
        table := (sys.table.openSession now).2 } ⟨rest, reads'⟩ false := by
  have hid : (sys.core c).sessionId = 0 := congrArg Conn.sessionId h
  exact step_operation h trivial trivial nofun hrest (congrArg some (if_pos hid))

theorem step_resume {id : UInt64} (h : sys.conns c =
      ⟨0, ⟨(Operation.resume id).text platform.newLine 0 ++ rest, reads⟩, false⟩)
    (hrest : rest.head? ≠ some TextReader.lf) (now : DateTime) :
    (id ∈ sys.table.sessions ∧
      (sys.step host (.request c now)).1.sent = (Reply.accepted id).text host.newLine ∧
      ∃ reads', (sys.step host (.request c now)).2 =
        sys.after c { sys.core c with sessionId := id } ⟨rest, reads'⟩ false) ∨
    id ∉ sys.table.sessions ∧ ∃ reason,
      (sys.step host (.request c now)).1.sent = (Reply.rejected reason).text host.newLine := by
  have hid : (sys.core c).sessionId = 0 := congrArg Conn.sessionId h
  have hstep {result : Reply × Core} (hresult : (sys.core c).resume id = result) :=
    have hexec : SDServer.execute host now (sys.core c) (command 0 (.resume id)) = some result :=
      congrArg some hresult
    step_operation h trivial trivial nofun hrest hexec
  by_cases hmem : id ∈ sys.table.sessions
  · have hlive : (sys.core c).table.resumeSession id = true := AList.lookup_isSome.mpr hmem
    exact .inl ⟨hmem, hstep ((if_pos hid).trans (if_pos hlive))⟩
  · have hdead : ¬ (sys.core c).table.resumeSession id = true := fun hlive =>
      hmem (AList.lookup_isSome.mp hlive)
    exact .inr ⟨hmem, _, (hstep ((if_pos hid).trans (if_neg hdead))).1⟩

end

section
variable {newLine : Str} (hnl : TextReader.IsNewLine newLine)
include hnl

theorem accepts_accepted {id id' : UInt64} {rest : Str}
    (h : Accepts ((Reply.accepted id).text newLine) id' rest) : id' = id ∧ rest = [] := by
  rw [← List.append_nil ((Reply.accepted id).text newLine)] at h
  exact (SDClient.accepts_accepted_iff hnl).mp h

theorem not_accepts_rejected {reason rest : Str} {id : UInt64} :
    ¬ Accepts ((Reply.rejected reason).text newLine) id rest := by
  intro h
  let env := SDProtocolClient.env SDProtocolClient.windows fun _ => .ok []
  let σ := SDProtocolClient.online 0 [] [] []
  have hrun := SDClient.receiveSessionResponse_rejected hnl env σ [] reason
  rw [List.append_nil] at hrun
  have hrun' := (SDClient.receiveSessionResponse_eq_ok_iff env σ).mpr ⟨rest, h, rfl⟩
  cases hrun'.symm.trans hrun

theorem delivers_document {name content content' : Str} (hname : IsLine name)
    (h : Delivers ((Reply.document name content).text newLine) content') :
    content' = content ∧ content.length < 2147483648 := by
  let env := SDProtocolClient.env SDProtocolClient.windows fun _ => .ok []
  let σ := SDProtocolClient.online 0 [] [] []
  obtain ⟨σ', hrun'⟩ := (SDClient.receiveGetResponse_eq_ok_iff env σ).mpr h
  by_cases hlength : content.length < 2147483648
  · obtain ⟨reads, hrun⟩ := SDClient.receiveGetResponse_document hnl env σ [] hname hlength
    rw [List.append_nil] at hrun
    exact ⟨(EStateM.Result.ok.inj (hrun'.symm.trans hrun)).1, hlength⟩
  · obtain ⟨e, σ'', hrun⟩ := SDClient.receiveGetResponse_long hnl env σ [] hname hlength
    rw [List.append_nil] at hrun
    cases hrun'.symm.trans hrun

theorem not_delivers_error {message more content : Str} :
    ¬ Delivers ((Reply.error message).text newLine ++ more) content := by
  intro h
  let env := SDProtocolClient.env SDProtocolClient.windows fun _ => .ok []
  let σ := SDProtocolClient.online 0 [] [] []
  obtain ⟨σ', hrun'⟩ := (SDClient.receiveGetResponse_eq_ok_iff env σ).mpr h
  obtain ⟨-, -, -, e, σ'', hrun⟩ :=
    SDClient.receive_refused hnl env σ (message ++ newLine ++ more) (.inl rfl)
  rw [Reply.text, List.append_assoc, List.append_assoc] at hrun'
  cases hrun'.symm.trans hrun

end

section
variable {platform : Platform} {call : Call} {op : Operation} {m : Meeting κ}

/-- A call whose session request is accepted is served exactly if the document is in the
    session when the `get` is answered, and fits. -/
theorem served_iff (h : Meets platform call op m) {id : UInt64} (hid : id ≠ 0)
    (hanswer : (m.asked.step m.host (.request m.connection m.time)).1.sent =
      (Reply.accepted id).text m.host.newLine)
    (hopened : ∃ reads, m.opened.conns m.connection = ⟨id,
      ⟨(Operation.get (call.documentName.getD [])).text platform.newLine 0, reads⟩, false⟩)
    {id' : UInt64} {content : Str} :
    Served platform call op id' content ↔ id' = id ∧ content ≠ [] ∧
      content.length < 2147483648 ∧
      m.found.table.value id (call.documentName.getD []) = some content := by
  obtain ⟨reads, hopened⟩ := hopened
  have hfound : m.found.conns m.connection = ⟨id,
      ⟨(Operation.get (call.documentName.getD [])).text platform.newLine 0 ++ [], reads⟩,
      false⟩ := by
    rw [List.append_nil, ← hopened]
    exact final_conn h.between
  have hrequest : m.found.Requests m.connection id (.get (call.documentName.getD [])) := by
    obtain ⟨reads', hread⟩ := read_operation platform reads
      (show Clean (.get (call.documentName.getD [])) from h.line)
      (show Named (.get (call.documentName.getD [])) from h.named) (fun _ _ => hid)
      (show ([] : Str).head? ≠ some TextReader.lf from nofun)
    refine ⟨congrArg Conn.ended hfound, congrArg Conn.sessionId hfound, ?_⟩
    rw [hfound]
    exact congrArg Prod.fst hread
  obtain ⟨hsent, -⟩ := @System.Requests.step κ m.host _ m.found m.connection id
    (.get (call.documentName.getD [])) hrequest m.time' _ rfl
  have hdocument := @System.get_document_iff κ m.host _ m.found m.connection m.time' id
    (call.documentName.getD []) content hid h.named hrequest
  rw [Served]
  constructor
  · rintro ⟨received, rest, received', hreceived, haccepts, hreceived', hdelivers⟩
    obtain rfl := Except.ok.inj (hreceived.symm.trans h.answer)
    obtain rfl := Except.ok.inj (hreceived'.symm.trans h.answer')
    rw [hanswer] at haccepts
    obtain ⟨rfl, rfl⟩ := accepts_accepted m.host.isNewLine haccepts
    rw [List.nil_append, hsent] at hdelivers
    rcases SDServer.get_reply m.time' (m.found.core m.connection) (call.documentName.getD []) with
      ⟨content', hreply⟩ | ⟨message, hreply⟩
    · rw [hreply] at hdelivers
      obtain ⟨rfl, hlength⟩ := delivers_document m.host.isNewLine h.line hdelivers
      obtain ⟨hne, hvalue⟩ := hdocument.mp (hsent.trans (by rw [hreply]))
      exact ⟨rfl, hne, hlength, hvalue⟩
    · rw [hreply, ← List.append_nil (Reply.text _ _)] at hdelivers
      exact absurd hdelivers (not_delivers_error m.host.isNewLine)
  · rintro ⟨rfl, hne, hlength, hvalue⟩
    refine SDProtocolClient.served_of_replies platform call op m.host.isNewLine h.line hlength
      (h.answer.trans (congrArg Except.ok hanswer)) (h.answer'.trans (congrArg Except.ok ?_))
    exact hdocument.mpr ⟨hne, hvalue⟩

theorem Meets.asked_conn (h : Meets platform call op m) :
    ∃ reads, m.asked.conns m.connection = ⟨0, ⟨op.text platform.newLine 0 ++
      (Operation.get (call.documentName.getD [])).text platform.newLine 0, reads⟩, false⟩ := by
  obtain ⟨reads, hstart⟩ := h.start
  exact ⟨reads, (final_conn h.before).trans hstart⟩

/-- A session that is opened for a call has the documents that are posted into it before
    the `get`, and no others. -/
theorem served_open_iff (h : Meets platform call .open m)
    (hid : m.asked.table.nextSessionId ≠ 0) {id : UInt64} {content : Str} :
    Served platform call .open id content ↔ id = m.asked.table.nextSessionId ∧ content ≠ [] ∧
      content.length < 2147483648 ∧ System.Posted m.host m.opened m.between
        m.asked.table.nextSessionId (call.documentName.getD []) content := by
  obtain ⟨reads, hconn⟩ := h.asked_conn
  obtain ⟨hsent, reads', hopened⟩ :=
    @step_open κ _ platform m.host _ _ _ reads hconn (text_head _ _) m.time
  have hnone : m.opened.table.value m.asked.table.nextSessionId (call.documentName.getD []) =
      none := by
    rw [Meeting.opened, hopened]
    exact (SessionTable.value_insert _ _ (.new m.time) _).trans (if_pos rfl)
  have hconn' : m.opened.conns m.connection = _ :=
    (congrArg (fun sys => sys.conns m.connection) hopened).trans
      ((System.after_conns _ _ _ _ _ _).trans (if_pos rfl))
  rw [served_iff h hid hsent ⟨reads', hconn'⟩, Meeting.found,
    System.value_posted_iff m.host hnone m.between]

theorem Meeting.found_eq (m : Meeting κ) :
    m.found = Machine.final (System.step m.host) m.system
      (m.before ++ .request m.connection m.time :: m.between) :=
  (Machine.final_append (System.step m.host) m.system m.before
    (.request m.connection m.time :: m.between)).symm

/-- A session that is resumed for a call has the documents that it has in the table. -/
theorem served_resume_iff {n : UInt64} (h : Meets platform call (.resume n) m) (hn : n ≠ 0)
    {id : UInt64} {content : Str} :
    Served platform call (.resume n) id content ↔ id = n ∧ n ∈ m.asked.table.sessions ∧
      content ≠ [] ∧ content.length < 2147483648 ∧
      m.found.table.value n (call.documentName.getD []) = some content := by
  obtain ⟨reads, hconn⟩ := h.asked_conn
  rcases @step_resume κ _ platform m.host _ _ _ reads n hconn (text_head _ _) m.time with
    ⟨hmem, hsent, reads', hopened⟩ | ⟨hdead, reason, hsent⟩
  · have hconn' : m.opened.conns m.connection = _ :=
      (congrArg (fun sys => sys.conns m.connection) hopened).trans
        ((System.after_conns _ _ _ _ _ _).trans (if_pos rfl))
    rw [served_iff h hn hsent ⟨reads', hconn'⟩]
    exact and_congr_right fun _ => (and_iff_right hmem).symm
  · refine iff_of_false ?_ fun h => hdead h.2.1
    rintro ⟨received, rest, -, hreceived, haccepts, -⟩
    obtain rfl := Except.ok.inj (hreceived.symm.trans h.answer)
    rw [hsent] at haccepts
    exact not_accepts_rejected m.host.isNewLine haccepts

end

section
open SDProtocolClient (SDSession Sessions Resumable held step visit request step_run
  visit_none_eq_ok_iff visit_some_eq_ok_iff)
variable {platform : Platform} {call : Call} {m : Meeting κ} {sessions : Sessions} {ip : Str}
  {port : UInt16} {content : Str}

omit [DecidableEq κ] in
theorem step_eq_ok_iff (htarget : call.target = some (ip, port)) :
    (step platform sessions call).1 = .ok content ↔ ∃ id session',
      visit platform call (request platform call (sessions ip)) (held sessions ip port) =
        .ok content session' ∧ session'.sessionId = id := by
  rw [step_run platform call htarget]
  cases visit platform call (request platform call (sessions ip)) (held sessions ip port) with
  | ok content' session =>
    constructor
    · intro h
      obtain rfl := Except.ok.inj h
      exact ⟨_, session, rfl, rfl⟩
    · rintro ⟨_, _, h, -⟩
      obtain ⟨rfl, -⟩ := EStateM.Result.ok.inj h
      rfl
  | error e session =>
    constructor
    · intro h
      cases h
    · rintro ⟨_, _, h, -⟩
      cases h

/-- The first call to a server returns what somebody else posts into the session of the call
    while it lasts. -/
theorem first_call_iff (h : Meets platform call .open m)
    (hid : m.asked.table.nextSessionId ≠ 0) (htarget : call.target = some (ip, port))
    (hsession : sessions ip = none) :
    (step platform sessions call).1 = .ok content ↔ call.refused ip port = none ∧
      call.disconnectFailed = none ∧ content ≠ [] ∧ content.length < 2147483648 ∧
      System.Posted m.host m.opened m.between m.asked.table.nextSessionId
        (call.documentName.getD []) content := by
  have hheld : held sessions ip port = .new ip port 0 := by rw [held, hsession]; rfl
  rw [step_eq_ok_iff htarget, hsession, hheld]
  simp only [@visit_none_eq_ok_iff platform call (.new ip port 0) rfl,
    served_open_iff h hid]
  constructor
  · rintro ⟨_, hrefused, hfailed, -, hposted⟩
    exact ⟨hrefused, hfailed, hposted⟩
  · rintro ⟨hrefused, hfailed, hposted⟩
    exact ⟨_, hrefused, hfailed, rfl, hposted⟩

/-- A later call returns what its session has in the table when the `get` is answered. -/
theorem resumed_call_iff {session : SDSession} (htarget : call.target = some (ip, port))
    (hsession : sessions ip = some session) (hresumable : Resumable session)
    (h : Meets platform call (.resume session.sessionId) m) :
    (step platform sessions call).1 = .ok content ↔
      call.refused session.ipAddr session.port = none ∧ call.disconnectFailed = none ∧
      session.sessionId ∈ m.asked.table.sessions ∧ content ≠ [] ∧
      content.length < 2147483648 ∧
      m.found.table.value session.sessionId (call.documentName.getD []) = some content := by
  have hheld : held sessions ip port = session := by rw [held, hsession]; rfl
  rw [step_eq_ok_iff htarget, hsession, hheld]
  simp only [visit_some_eq_ok_iff platform call hresumable, served_resume_iff h hresumable.2]
  constructor
  · rintro ⟨_, hrefused, hfailed, -, -, hmem, hvalue⟩
    exact ⟨hrefused, hfailed, hmem, hvalue⟩
  · rintro ⟨hrefused, hfailed, hmem, hvalue⟩
    exact ⟨_, hrefused, hfailed, rfl, rfl, hmem, hvalue⟩

/-- A later call that resumes its session returns a document exactly if the session is still
    there and the document is what was last posted into it under the name. -/
theorem later_call_iff (platform : Platform) (call : Call) (m : Meeting κ) (sessions : Sessions)
    (session : SDSession) (ip : Str) (port : UInt16) (content : Str) (sessionTimeout : ℤ)
    (inputs : κ → TextReader.Reader) (hstart : m.system = System.fresh sessionTimeout inputs)
    (htarget : call.target = some (ip, port)) (hsession : sessions ip = some session)
    (hresumable : Resumable session) (h : Meets platform call (.resume session.sessionId) m) :
    (step platform sessions call).1 = .ok content ↔
      call.refused session.ipAddr session.port = none ∧ call.disconnectFailed = none ∧
      session.sessionId ∈ m.asked.table.sessions ∧ content ≠ [] ∧
      content.length < 2147483648 ∧ System.Posted m.host m.system
        (m.before ++ .request m.connection m.time :: m.between) session.sessionId
        (call.documentName.getD []) content := by
  have hnone : m.system.table.value session.sessionId (call.documentName.getD []) = none := by
    rw [hstart]
    exact System.fresh_value sessionTimeout inputs _ _
  rw [resumed_call_iff htarget hsession hresumable h, m.found_eq,
    System.value_posted_iff m.host hnone]

end
end

/-- A connection posts a document, and the browser's client resumes the session for it. -/
def resuming : Meeting Bool where
  host := .unix
  system := .fresh 100 fun c => ⟨if c then lit "resume\n1\nget\r\na\r\n"
    else lit "open\npost\na\n2\nxy", []⟩
  connection := true
  before := [.request false 0, .request false 1]
  time := 2
  between := [.sweep 3]
  time' := 4

def reading : Call where
  serverIP := some (lit "10.0.0.1")
  documentName := some (lit "a")
  lookUpPort name := .ok (some ⟨.response, name, 40001, .success⟩)
  refused _ _ := none
  reads := []
  server
    | [_] => .ok ((Reply.accepted 1).text (lit "\n"))
    | _ => .ok ((Reply.document (lit "a") (lit "xy")).text (lit "\n"))
  disconnectFailed := none

def heldSession : SDProtocolClient.SDSession := .new (lit "10.0.0.1") 40001 1

theorem resuming_meets : Meets SDProtocolClient.windows reading (.resume 1) resuming :=
  ⟨by decide, by decide, ⟨[], rfl⟩, fun now => by simp [resuming],
    fun now => by simp [resuming], rfl, rfl⟩

theorem later_call_iff_resuming :
    System.Posted .unix resuming.system
      (resuming.before ++ .request true 2 :: resuming.between) 1 (lit "a") (lit "xy") := by
  obtain ⟨-, -, -, -, -, hposted⟩ := (later_call_iff SDProtocolClient.windows reading resuming
    (fun _ => some heldSession) heldSession (lit "10.0.0.1") 40001 (lit "xy") 100 _ rfl rfl rfl
    ⟨rfl, by decide⟩ resuming_meets).mp rfl
  exact hposted

end NetServices.SDFetch
