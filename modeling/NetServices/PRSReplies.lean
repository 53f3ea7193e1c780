import NetServices.PRSEffects

set_option autoImplicit false

/-!
# Whose answer a call of the client takes

A call takes the next message that reaches its socket. What an earlier call has
left on its way to the client is taken for the answer to a later one.
-/
namespace NetServices.PRSClient
open ByteOrder (Endian)
open PRSServer (Server Pass buffer)
open Utf16 (lit)

variable {ε : Type}

/-- The server reports to the client that it could receive nothing. -/
def Reports (sys : System ε) : Event ε → Prop
  | .serveFails now errorSent =>
    PRSServer.ReportsFailure sys.server ⟨.failed, now, true, errorSent⟩ ∧
      sys.server.serverEndPoint = none
  | _ => False

/-- The network copies a datagram, a receive fails while one is on its way, or the server
    reports to the client. -/
def Confuses (sys : System ε) : Event ε → Prop
  | .receiveFails => sys.pending ≠ none ∧ (sys.requests ≠ [] ∨ sys.replies ≠ [])
  | .duplicateRequest i => i < sys.requests.length
  | .duplicateReply i => i < sys.replies.length
  | event => Reports sys event

/-- A pass of the server has sent the message. Only a failed receive answers nothing. -/
def SentBy (e : Endian) (log : List (Event ε × Record)) (answers : Option ℕ)
    (message : PRSMessage) : Prop :=
  ∃ event before after now sent, ∃ bytes ∈ sent,
    (event, .passed answers before after now sent) ∈ log ∧
    message = PRSMessage.ofBytes e (buffer bytes) ∧
    (answers = none → ∃ now errorSent, event = .serveFails now errorSent)

theorem step_answered {e e' : Endian} {call : Call} {srv : Server (Option ε)} {bytes : List UInt8}
    (hcall : call.exchange.request.getBytes e = some bytes) (now : DateTime)
    (responseSent errorSent : Bool) {datagram : List UInt8 × Option ε} :
    let pass : Pass (Option ε) := ⟨.delivered bytes none, now, responseSent, errorSent⟩
    datagram ∈ (PRSServer.step e' srv pass).1.sent →
      Answered e e' call srv.prs (PRSServer.step e' srv pass).2.prs now datagram.1 := by
  intro pass h
  cases hstopped : srv.prs.stopped with
  | true =>
    have hnone : (PRSServer.step e' srv pass).1.sent = [] := by
      simp only [PRSServer.step, PRSServer.loopBody, hstopped, if_true, List.drop_length]
    rw [hnone] at h
    cases h
  | false =>
    simp only [PRSServer.step] at h ⊢
    rw [PRSServer.loopBody_delivered e' hstopped] at h ⊢
    let handled : Server (Option ε) := { srv with
      prs := (srv.prs.handleMessage now (PRSMessage.ofBytes e' (buffer bytes))).2
      serverEndPoint := none }
    refine ⟨bytes, hcall, ?_, PRSServer.respond_sends e' handled responseSent errorSent _ h⟩
    rw [PRSServer.respond_prs]

/-- A pass on a datagram sends at most one, to its sender. -/
theorem step_sends (e : Endian) (srv : Server (Option ε)) (bytes : List UInt8) (sender : Option ε)
    (now : DateTime) (responseSent errorSent : Bool) :
    (PRSServer.step e srv ⟨.delivered bytes sender, now, responseSent, errorSent⟩).1.sent = [] ∨
      ∃ reply, (PRSServer.step e srv ⟨.delivered bytes sender, now, responseSent,
        errorSent⟩).1.sent = [(reply, sender)] := by
  have hreceived : ¬ PRSServer.ReportsFailure srv
      ⟨.delivered bytes sender, now, responseSent, errorSent⟩ := by
    rintro ⟨-, hfailed, -⟩
    cases hfailed
  rcases PRSServer.step_answers e srv _ hreceived with hnone | ⟨reply, endpoint, hfrom, hone⟩
  · exact .inl hnone
  · refine .inr ⟨reply, ?_⟩
    rw [hone]
    simp only [PRSServer.step, PRSServer.Receive.sender] at hfrom
    split_ifs at hfrom
    rw [Option.some.inj hfrom]

theorem other_sends (e : Endian) (srv : Server (Option ε)) (bytes : List UInt8) (sender : ε)
    (now : DateTime) (responseSent errorSent : Bool) :
    ∀ datagram ∈ (PRSServer.step e srv ⟨.delivered bytes (some sender), now, responseSent,
      errorSent⟩).1.sent, datagram.2 ≠ none := by
  intro datagram hsent
  rcases step_sends e srv bytes (some sender) now responseSent errorSent with
    hnone | ⟨reply, hone⟩
  · rw [hnone] at hsent
    cases hsent
  · rw [hone] at hsent
    rw [List.eq_of_mem_singleton hsent]
    exact Option.some_ne_none sender

/-- What a pass has sent to the client answers a datagram of the client, or is the report of
    a failed receive. -/
def Accounted (e e' : Endian) (made : List Call) (event : Event ε) (before after : PRS)
    (now : DateTime) (bytes : List UInt8) : Option ℕ → Prop
  | some n => ∃ call, made[n]? = some call ∧ Answered e e' call before after now bytes
  | none => ∃ now errorSent, event = .serveFails now errorSent

/-- Whatever is on its way was sent by the client or by the server. -/
structure Inv (e e' : Endian) (log : List (Event ε × Record)) (sys : System ε) : Prop where
  pending : ∀ n call, sys.pending = some (n, call) →
    n + 1 = sys.made.length ∧ sys.made[n]? = some call
  requests : ∀ request ∈ sys.requests, ∃ call, sys.made[request.call]? = some call ∧
    call.exchange.request.getBytes e = some request.bytes
  replies : ∀ reply ∈ sys.replies, ∃ event before after now sent,
    (event, .passed reply.answers before after now sent) ∈ log ∧ reply.bytes ∈ sent
  passed : ∀ event answers before after now sent,
    (event, .passed answers before after now sent) ∈ log →
      ∀ bytes ∈ sent, Accounted e e' sys.made event before after now bytes answers

variable {e e' : Endian} {log : List (Event ε × Record)} {sys sys' : System ε}

theorem start_inv (server : Server (Option ε)) : Inv e e' [] (start server) where
  pending _ _ h := nomatch h
  requests _ h := nomatch h
  replies _ h := nomatch h
  passed _ _ _ _ _ _ h := nomatch h

theorem copied_subset {α : Type} (l : List α) (i : ℕ) : l ++ l[i]?.toList ⊆ l :=
  List.append_subset.mpr
    ⟨List.Subset.refl l, fun _ h => List.mem_of_getElem? (Option.mem_toList.mp h)⟩

def Record.IsPass : Record → Prop
  | .passed _ _ _ _ _ => True
  | _ => False

/-- A step that makes no call and is no pass of the server only drops or copies datagrams. -/
theorem Inv.keep (h : Inv e e' log sys) (event : Event ε) {record : Record}
    (hrecord : ¬ record.IsPass)
    (hmade : sys'.made = sys.made) (hpending : sys'.pending = none ∨ sys'.pending = sys.pending)
    (hrequests : sys'.requests ⊆ sys.requests) (hreplies : sys'.replies ⊆ sys.replies) :
    Inv e e' (log ++ [(event, record)]) sys' where
  pending n call hcall := by
    rcases hpending with hnone | hsame
    · exact absurd (hnone.symm.trans hcall) (Option.some_ne_none _).symm
    · rw [hmade]
      exact h.pending n call (hsame.symm.trans hcall)
  requests request hrequest := by
    rw [hmade]
    exact h.requests request (hrequests hrequest)
  replies reply hreply := by
    obtain ⟨event, before, after, now, sent, hlog, hsent⟩ := h.replies reply (hreplies hreply)
    exact ⟨event, before, after, now, sent, List.mem_append_left _ hlog, hsent⟩
  passed event' answers before after now sent hlog := by
    rw [hmade]
    rcases List.mem_append.mp hlog with hlog | hlog
    · exact h.passed event' answers before after now sent hlog
    · have hlast := (Prod.mk.inj (List.eq_of_mem_singleton hlog)).2
      exact absurd (hlast ▸ trivial) hrecord

theorem Accounted.mono {made : List Call} {event : Event ε} {before after : PRS} {now : DateTime}
    {bytes : List UInt8} {answers : Option ℕ}
    (h : Accounted e e' made event before after now bytes answers) (call : Call) :
    Accounted e e' (made ++ [call]) event before after now bytes answers := by
  cases answers with
  | none => exact h
  | some n =>
    obtain ⟨call', hmade, hanswered⟩ := h
    have hn := (List.getElem?_eq_some_iff.mp hmade).1
    exact ⟨call', by rw [List.getElem?_append_left hn, hmade], hanswered⟩

theorem Inv.call (h : Inv e e' log sys) {call : Call} {bytes : List UInt8}
    (hbytes : call.exchange.request.getBytes e = some bytes) :
    Inv e e' (log ++ [(.call call, .called sys.made.length call)]) { sys with
      made := sys.made ++ [call]
      pending := some (sys.made.length, call)
      requests := sys.requests ++ [⟨bytes, sys.made.length⟩] } where
  pending n call' hcall := by
    obtain ⟨rfl, rfl⟩ := Prod.mk.inj (Option.some.inj hcall)
    have hlength : (sys.made ++ [call]).length = sys.made.length + 1 := List.length_append
    exact ⟨hlength.symm, List.getElem?_concat_length⟩
  requests request hrequest := by
    rcases List.mem_append.mp hrequest with hold | hnew
    · obtain ⟨call', hmade, hcall'⟩ := h.requests request hold
      have hn := (List.getElem?_eq_some_iff.mp hmade).1
      exact ⟨call', by rw [List.getElem?_append_left hn, hmade], hcall'⟩
    · obtain rfl := List.eq_of_mem_singleton hnew
      exact ⟨call, List.getElem?_concat_length, hbytes⟩
  replies reply hreply := by
    obtain ⟨event, before, after, now, sent, hlog, hsent⟩ := h.replies reply hreply
    exact ⟨event, before, after, now, sent, List.mem_append_left _ hlog, hsent⟩
  passed event answers before after now sent hlog bytes' hbytes' := by
    rcases List.mem_append.mp hlog with hlog | hlog
    · exact (h.passed event answers before after now sent hlog bytes' hbytes').mono call
    · cases (Prod.mk.inj (List.eq_of_mem_singleton hlog)).2

theorem Inv.pass (h : Inv e e' log sys) (event : Event ε) {requests : List Request}
    (hrequests : requests ⊆ sys.requests) (answers : Option ℕ) (pass : Pass (Option ε))
    (hsent : ∀ datagram ∈ (PRSServer.step e' sys.server pass).1.sent, datagram.2 = none →
      Accounted e e' sys.made event sys.server.prs (PRSServer.step e' sys.server pass).2.prs
        pass.now datagram.1 answers) :
    Inv e e' (log ++ [(event, (({ sys with requests := requests } : System ε).pass e' answers
      pass).1)]) (({ sys with requests := requests } : System ε).pass e' answers pass).2 where
  pending := h.pending
  requests request hrequest := h.requests request (hrequests hrequest)
  replies reply hreply := by
    rcases List.mem_append.mp hreply with hold | hnew
    · obtain ⟨event, before, after, now, sent, hlog, hsent⟩ := h.replies reply hold
      exact ⟨event, before, after, now, sent, List.mem_append_left _ hlog, hsent⟩
    · obtain ⟨bytes, hbytes, rfl⟩ := List.mem_map.mp hnew
      exact ⟨_, _, _, _, _, List.mem_append_right _ List.mem_cons_self, hbytes⟩
  passed event' answers' before after now sent hlog bytes hbytes := by
    rcases List.mem_append.mp hlog with hlog | hlog
    · exact h.passed event' answers' before after now sent hlog bytes hbytes
    · obtain ⟨rfl, hrecord⟩ := Prod.mk.inj (List.eq_of_mem_singleton hlog)
      simp only [System.pass, Record.passed.injEq] at hrecord
      obtain ⟨rfl, rfl, rfl, rfl, rfl⟩ := hrecord
      obtain ⟨datagram, hdatagram, rfl⟩ := List.mem_map.mp hbytes
      obtain ⟨hmem, hclient⟩ := List.mem_filter.mp hdatagram
      exact hsent datagram hmem (Option.isNone_iff_eq_none.mp hclient)

theorem step_inv (h : Inv e e' log sys) (event : Event ε) :
    Inv e e' (log ++ [(event, (step e e' sys event).1)]) (step e e' sys event).2 := by
  have hother : Inv e e' (log ++ [(event, .other)]) sys :=
    h.keep event id rfl (.inr rfl) (List.Subset.refl _)
      (List.Subset.refl _)
  cases event with
  | call call =>
    simp only [step]
    split_ifs with hbusy
    · exact hother
    · cases hbytes : call.exchange.request.getBytes e with
      | none => exact hother
      | some bytes => exact h.call hbytes
  | receive i =>
    simp only [step]
    cases hpending : sys.pending with
    | none => exact hother
    | some pending =>
      obtain ⟨n, call⟩ := pending
      cases hreply : sys.replies[i]? with
      | none => exact hother
      | some reply =>
        exact h.keep _ id rfl (.inl rfl) (List.Subset.refl _)
          List.eraseIdx_subset
  | receiveFails =>
    exact h.keep _ id rfl (.inl rfl) (List.Subset.refl _)
      (List.Subset.refl _)
  | closeSocket =>
    simp only [step]
    split_ifs with hclosing
    · exact h.keep _ id rfl (.inl rfl) (List.Subset.refl _)
        (List.Subset.refl _)
    · exact hother
  | serve i now responseSent errorSent =>
    simp only [step]
    cases hrequest : sys.requests[i]? with
    | none => exact hother
    | some request =>
      refine h.pass _ List.eraseIdx_subset _ _ fun datagram hsent _ => ?_
      obtain ⟨call, hmade, hbytes⟩ := h.requests request (List.mem_of_getElem? hrequest)
      exact ⟨call, hmade, step_answered hbytes now responseSent errorSent hsent⟩
  | serveOther bytes sender now responseSent errorSent =>
    exact h.pass _ (List.Subset.refl _) _ _ fun datagram hsent hclient => absurd hclient
      (other_sends e' sys.server bytes sender now responseSent errorSent datagram hsent)
  | serveFails now errorSent =>
    exact h.pass _ (List.Subset.refl _) _ _ fun datagram _ _ => ⟨now, errorSent, rfl⟩
  | loseRequest i =>
    exact h.keep _ id rfl (.inr rfl) List.eraseIdx_subset
      (List.Subset.refl _)
  | loseReply i =>
    exact h.keep _ id rfl (.inr rfl) (List.Subset.refl _)
      List.eraseIdx_subset
  | duplicateRequest i =>
    exact h.keep _ id rfl (.inr rfl) (copied_subset _ i) (List.Subset.refl _)
  | duplicateReply i =>
    exact h.keep _ id rfl (.inr rfl) (List.Subset.refl _) (copied_subset _ i)

/-- One datagram at most is on its way, and it belongs to the call that waits. -/
structure Quiet (sys : System ε) : Prop where
  closed : sys.closed = true → sys.pending = none
  idle : sys.closed = false → sys.pending = none → sys.requests = [] ∧ sys.replies = []
  busy : ∀ n call, sys.pending = some (n, call) →
    sys.requests.length + sys.replies.length ≤ 1 ∧ (∀ request ∈ sys.requests, request.call = n) ∧
      ∀ reply ∈ sys.replies, reply.answers = some n

theorem start_quiet (server : Server (Option ε)) : Quiet (start server) where
  closed _ := rfl
  idle _ _ := ⟨rfl, rfl⟩
  busy _ _ h := nomatch h

theorem Quiet.sublist (h : Quiet sys) (hpending : sys'.pending = sys.pending)
    (hclosed : sys'.closed = sys.closed) (hrequests : sys'.requests.Sublist sys.requests)
    (hreplies : sys'.replies.Sublist sys.replies) : Quiet sys' where
  closed hc := hpending.trans (h.closed (hclosed.symm.trans hc))
  idle hc hnone := by
    obtain ⟨hrequest, hreply⟩ := h.idle (hclosed.symm.trans hc) (hpending.symm.trans hnone)
    rw [hrequest] at hrequests
    rw [hreply] at hreplies
    exact ⟨List.sublist_nil.mp hrequests, List.sublist_nil.mp hreplies⟩
  busy n call hcall := by
    obtain ⟨hone, hrequest, hreply⟩ := h.busy n call (hpending.symm.trans hcall)
    have hle := hrequests.length_le
    have hle' := hreplies.length_le
    exact ⟨by omega, fun request hr => hrequest request (hrequests.subset hr),
      fun reply hr => hreply reply (hreplies.subset hr)⟩

/-- A pass that sends nothing to the client. -/
theorem Quiet.pass (h : Quiet sys) (answers : Option ℕ) (pass : Pass (Option ε))
    (hsent : ∀ datagram ∈ (PRSServer.step e' sys.server pass).1.sent, datagram.2 ≠ none) :
    Quiet (sys.pass e' answers pass).2 := by
  have hnone : (PRSServer.step e' sys.server pass).1.sent.filter
      (fun datagram => datagram.2.isNone) = [] := by
    refine List.filter_eq_nil_iff.mpr fun datagram hmem hclient => ?_
    exact hsent datagram hmem (Option.isNone_iff_eq_none.mp hclient)
  refine h.sublist rfl rfl (List.Sublist.refl _) ?_
  simp only [System.pass, hnone, List.map_nil, List.append_nil]
  exact List.Sublist.refl _

theorem Quiet.serve (h : Quiet sys) {i : ℕ} {request : Request}
    (hrequest : sys.requests[i]? = some request) (now : DateTime) (responseSent errorSent : Bool) :
    Quiet (({ sys with requests := sys.requests.eraseIdx i } : System ε).pass e'
      (some request.call) ⟨.delivered request.bytes none, now, responseSent, errorSent⟩).2 where
  closed := h.closed
  idle hclosed hnone := by
    rw [(h.idle hclosed hnone).1] at hrequest
    cases hrequest
  busy n call hcall := by
    obtain ⟨hone, hrequests, hreplies⟩ := h.busy n call hcall
    have hi := (List.getElem?_eq_some_iff.mp hrequest).1
    have hnoReply : sys.replies = [] := List.eq_nil_of_length_eq_zero (by omega)
    have herased := List.length_eraseIdx_of_lt hi
    have hsends := step_sends e' sys.server request.bytes none now responseSent errorSent
    have hmine := hrequests request (List.mem_of_getElem? hrequest)
    simp only [System.pass, hnoReply, List.nil_append, List.length_map]
    refine ⟨?_, fun other hother => hrequests other (List.eraseIdx_subset hother), ?_⟩
    · rcases hsends with hnothing | ⟨reply, hreply⟩
      · rw [hnothing]
        simp only [List.filter_nil, List.length_nil]
        omega
      · rw [hreply]
        simp only [List.filter_cons, Option.isNone_none, if_true, List.filter_nil,
          List.length_singleton]
        omega
    · intro reply hreply
      obtain ⟨bytes, -, rfl⟩ := List.mem_map.mp hreply
      exact congrArg some hmine

theorem failed_sends {now : DateTime} {errorSent : Bool}
    (h : ¬ Reports sys (.serveFails now errorSent)) :
    ∀ datagram ∈ (PRSServer.step e' sys.server ⟨.failed, now, true, errorSent⟩).1.sent,
      datagram.2 ≠ none := by
  intro datagram hsent
  let pass : Pass (Option ε) := ⟨.failed, now, true, errorSent⟩
  by_cases hreports : PRSServer.ReportsFailure sys.server pass
  · obtain ⟨bytes, hreport⟩ := PRSServer.step_reports e' hreports
    rw [hreport] at hsent
    rw [List.eq_of_mem_singleton hsent]
    exact fun hclient => h ⟨hreports, hclient⟩
  · rcases PRSServer.step_answers e' sys.server pass hreports with hnone | ⟨_, _, hfrom, -⟩
    · rw [hnone] at hsent
      cases hsent
    · have hnobody : (PRSServer.step e' sys.server pass).1.received = none := ite_self none
      rw [hnobody] at hfrom
      cases hfrom

theorem step_quiet (h : Quiet sys) {event : Event ε} (hclear : ¬ Confuses sys event) :
    Quiet (step e e' sys event).2 := by
  cases event with
  | call call =>
    simp only [step]
    split_ifs with hbusy
    · exact h
    · cases hbytes : call.exchange.request.getBytes e with
      | none => exact h
      | some bytes =>
        rw [Bool.or_eq_true, not_or, Bool.not_eq_true, Option.not_isSome_iff_eq_none] at hbusy
        obtain ⟨hrequests, hreplies⟩ := h.idle hbusy.1 hbusy.2
        refine ⟨fun hclosed => ?_, fun _ hnone => ?_, fun n call' hcall => ?_⟩
        · exact absurd (hbusy.1.symm.trans hclosed) Bool.false_ne_true
        · exact absurd hnone (Option.some_ne_none _)
        · obtain ⟨rfl, rfl⟩ := Prod.mk.inj (Option.some.inj hcall)
          rw [hrequests, hreplies]
          refine ⟨le_rfl, fun request hrequest => ?_, fun reply hreply => nomatch hreply⟩
          rw [List.eq_of_mem_singleton hrequest]
  | receive i =>
    simp only [step]
    cases hpending : sys.pending with
    | none => exact h
    | some pending =>
      obtain ⟨n, call⟩ := pending
      cases hreply : sys.replies[i]? with
      | none => exact h
      | some reply =>
        obtain ⟨hone, -, -⟩ := h.busy n call hpending
        have hi := (List.getElem?_eq_some_iff.mp hreply).1
        have herased := List.length_eraseIdx_of_lt hi
        have hrequests : sys.requests = [] := List.eq_nil_of_length_eq_zero (by omega)
        have hrest : sys.replies.eraseIdx i = [] := List.eq_nil_of_length_eq_zero (by omega)
        exact ⟨fun _ => rfl, fun _ _ => ⟨hrequests, hrest⟩, fun n' call' hcall => nomatch hcall⟩
  | receiveFails =>
    refine ⟨fun _ => rfl, fun hclosed _ => ?_, fun n call hcall => nomatch hcall⟩
    by_cases hpending : sys.pending = none
    · exact h.idle hclosed hpending
    · simp only [Confuses, not_and, not_or, not_not] at hclear
      exact hclear hpending
  | closeSocket =>
    simp only [step]
    split_ifs with hclosing
    · exact ⟨fun _ => rfl, fun hclosed => (nomatch hclosed), fun n call hcall => nomatch hcall⟩
    · exact h
  | serve i now responseSent errorSent =>
    simp only [step]
    cases hrequest : sys.requests[i]? with
    | none => exact h
    | some request => exact h.serve hrequest now responseSent errorSent
  | serveOther bytes sender now responseSent errorSent =>
    exact h.pass none _ (other_sends e' sys.server bytes sender now responseSent errorSent)
  | serveFails now errorSent =>
    exact h.pass none _ (failed_sends hclear)
  | loseRequest i =>
    exact h.sublist rfl rfl (List.eraseIdx_sublist _ _) (List.Sublist.refl _)
  | loseReply i => exact h.sublist rfl rfl (List.Sublist.refl _) (List.eraseIdx_sublist _ _)
  | duplicateRequest i =>
    have hnone : sys.requests[i]? = none := List.getElem?_eq_none (Nat.le_of_not_lt hclear)
    refine h.sublist rfl rfl ?_ (List.Sublist.refl _)
    simp only [step, hnone, Option.toList_none, List.append_nil]
    exact List.Sublist.refl _
  | duplicateReply i =>
    have hnone : sys.replies[i]? = none := List.getElem?_eq_none (Nat.le_of_not_lt hclear)
    refine h.sublist rfl rfl (List.Sublist.refl _) ?_
    simp only [step, hnone, Option.toList_none, List.append_nil]
    exact List.Sublist.refl _

/-- While call `n` waits, everything on its way belongs to it. -/
structure Owned (n : ℕ) (sys : System ε) : Prop where
  made : n < sys.made.length
  own : ∀ call, sys.pending = some (n, call) →
    (∀ request ∈ sys.requests, request.call = n) ∧ ∀ reply ∈ sys.replies, reply.answers = some n

section
variable {n : ℕ}

theorem Owned.keep (h : Owned n sys) (hmade : sys'.made = sys.made)
    (hpending : sys'.pending = none ∨ sys'.pending = sys.pending)
    (hrequests : sys'.requests ⊆ sys.requests) (hreplies : sys'.replies ⊆ sys.replies) :
    Owned n sys' where
  made := hmade ▸ h.made
  own call hcall := by
    rcases hpending with hnone | hsame
    · exact absurd (hnone.symm.trans hcall) (Option.some_ne_none _).symm
    · obtain ⟨hrequest, hreply⟩ := h.own call (hsame.symm.trans hcall)
      exact ⟨fun request hr => hrequest request (hrequests hr),
        fun reply hr => hreply reply (hreplies hr)⟩

theorem Owned.pass (h : Owned n sys) {requests : List Request} (hrequests : requests ⊆ sys.requests)
    (answers : Option ℕ) (pass : Pass (Option ε))
    (hsent : (∃ call, sys.pending = some (n, call)) →
      ∀ datagram ∈ (PRSServer.step e' sys.server pass).1.sent, datagram.2 = none →
        answers = some n) :
    Owned n (({ sys with requests := requests } : System ε).pass e' answers pass).2 where
  made := h.made
  own call hcall := by
    obtain ⟨hrequest, hreply⟩ := h.own call hcall
    refine ⟨fun request hr => hrequest request (hrequests hr), fun reply hr => ?_⟩
    rcases List.mem_append.mp hr with hold | hnew
    · exact hreply reply hold
    · obtain ⟨bytes, hbytes, rfl⟩ := List.mem_map.mp hnew
      obtain ⟨datagram, hdatagram, -⟩ := List.mem_map.mp hbytes
      obtain ⟨hmem, hclient⟩ := List.mem_filter.mp hdatagram
      exact hsent ⟨call, hcall⟩ datagram hmem (Option.isNone_iff_eq_none.mp hclient)

theorem step_owned (h : Owned n sys) {event : Event ε} (hclear : ¬ Reports sys event) :
    Owned n (step e e' sys event).2 := by
  cases event with
  | call call =>
    simp only [step]
    split_ifs with hbusy
    · exact h
    · cases hbytes : call.exchange.request.getBytes e with
      | none => exact h
      | some bytes =>
        refine ⟨?_, fun call' hcall => ?_⟩
        · exact lt_of_lt_of_le h.made (List.sublist_append_left _ _).length_le
        · have hn := (Prod.mk.inj (Option.some.inj hcall)).1
          exact absurd hn (Nat.ne_of_gt h.made)
  | receive i =>
    simp only [step]
    cases hpending : sys.pending with
    | none => exact h
    | some pending =>
      cases hreply : sys.replies[i]? with
      | none => exact h
      | some reply => exact h.keep rfl (.inl rfl) (List.Subset.refl _) List.eraseIdx_subset
  | receiveFails => exact h.keep rfl (.inl rfl) (List.Subset.refl _) (List.Subset.refl _)
  | closeSocket =>
    simp only [step]
    split_ifs with hclosing
    · exact h.keep rfl (.inl rfl) (List.Subset.refl _) (List.Subset.refl _)
    · exact h
  | serve i now responseSent errorSent =>
    simp only [step]
    cases hrequest : sys.requests[i]? with
    | none => exact h
    | some request =>
      refine h.pass List.eraseIdx_subset _ _ fun hpending datagram _ _ => ?_
      obtain ⟨call, hcall⟩ := hpending
      exact congrArg some ((h.own call hcall).1 request (List.mem_of_getElem? hrequest))
  | serveOther bytes sender now responseSent errorSent =>
    exact h.pass (List.Subset.refl _) _ _ fun _ datagram hsent hclient => absurd hclient
      (other_sends e' sys.server bytes sender now responseSent errorSent datagram hsent)
  | serveFails now errorSent =>
    exact h.pass (List.Subset.refl _) _ _ fun _ datagram hsent hclient => absurd hclient
      (failed_sends hclear datagram hsent)
  | loseRequest i => exact h.keep rfl (.inr rfl) List.eraseIdx_subset (List.Subset.refl _)
  | loseReply i => exact h.keep rfl (.inr rfl) (List.Subset.refl _) List.eraseIdx_subset
  | duplicateRequest i =>
    exact h.keep rfl (.inr rfl) (copied_subset _ i) (List.Subset.refl _)
  | duplicateReply i =>
    exact h.keep rfl (.inr rfl) (List.Subset.refl _) (copied_subset _ i)

theorem called_owned {call : Call} (h : (step e e' sys (.call call)).1 = .called n call)
    (hrequests : sys.requests = []) (hreplies : sys.replies = []) :
    Owned n (step e e' sys (.call call)).2 := by
  simp only [step] at h ⊢
  split_ifs at h ⊢ with hbusy
  cases hbytes : call.exchange.request.getBytes e with
  | none =>
    rw [hbytes] at h
    cases h
  | some bytes =>
    rw [hbytes] at h
    obtain ⟨rfl, -⟩ := Record.called.inj h
    rw [hrequests, hreplies]
    refine ⟨?_, fun call' _ => ⟨fun request hrequest => ?_, fun reply hreply => nomatch hreply⟩⟩
    · have hlength : (sys.made ++ [call]).length = sys.made.length + 1 := List.length_append
      exact hlength ▸ Nat.lt_succ_self _
    · rw [List.eq_of_mem_singleton hrequest]

end

theorem of_taken {event : Event ε} {n : ℕ} {call : Call} {answers : Option ℕ}
    {message : PRSMessage} {outcome : Except Exn Outcome}
    (h : (step e e' sys event).1 = .taken n call answers message outcome) :
    sys.pending = some (n, call) ∧ ∃ reply ∈ sys.replies, reply.answers = answers ∧
      message = PRSMessage.ofBytes e (buffer reply.bytes) ∧
      outcome = call.exchange.outcome message := by
  cases event with
  | receive i =>
    simp only [step] at h
    cases hpending : sys.pending with
    | none =>
      rw [hpending] at h
      cases h
    | some pending =>
      cases hreply : sys.replies[i]? with
      | none =>
        rw [hpending, hreply] at h
        cases h
      | some reply =>
        rw [hpending, hreply] at h
        obtain ⟨rfl, rfl, rfl, rfl, rfl⟩ := Record.taken.inj h
        exact ⟨rfl, reply, List.mem_of_getElem? hreply, rfl, rfl, rfl⟩
  | call call =>
    simp only [step] at h
    split_ifs at h
    cases hbytes : call.exchange.request.getBytes e with
    | none =>
      rw [hbytes] at h
      cases h
    | some bytes =>
      rw [hbytes] at h
      cases h
  | serve i =>
    simp only [step] at h
    cases hrequest : sys.requests[i]? with
    | none =>
      rw [hrequest] at h
      cases h
    | some request =>
      rw [hrequest] at h
      cases h
  | _ => cases h

/-- Every message that a call takes was sent by the server, in answer to a datagram of this
    or an earlier call or as the report of a failed receive. It answers this call if nothing
    was on its way when the call was made and no report came since; nothing is, unless the
    run has been confused. What a call then returns has been done. -/
theorem taken_answer (e e' : Endian) (server : Server (Option ε)) (events : List (Event ε))
    {event : Event ε} {n : ℕ} {call : Call} {answers : Option ℕ} {message : PRSMessage}
    {outcome : Except Exn Outcome}
    (h : (step e e' (Machine.final (step e e') (start server) events) event).1 =
      .taken n call answers message outcome) :
    SentBy e (Machine.trace (step e e') (start server) events) answers message ∧
      (∀ k, answers = some k → k ≤ n) ∧
      (answers = some n →
        Effected (Machine.trace (step e e') (start server) events) n call outcome) ∧
      (∀ earlier since, events = earlier ++ .call call :: since →
        let sys := Machine.final (step e e') (start server) earlier
        (step e e' sys (.call call)).1 = .called n call → sys.requests = [] → sys.replies = [] →
        Machine.Every (step e e') (fun sys event => ¬ Reports sys event)
          (step e e' sys (.call call)).2 since →
        answers = some n) ∧
      (Machine.Every (step e e') (fun sys event => ¬ Confuses sys event) (start server) events →
        answers = some n) := by
  have hinv := @Machine.trace_invariant _ _ _ (step e e') (Inv e e')
    (fun log sys event h => step_inv h event) _ (start_inv server) events
  obtain ⟨hpending, reply, hreply, rfl, rfl, rfl⟩ := of_taken h
  obtain ⟨hlast, hmade⟩ := hinv.pending n call hpending
  obtain ⟨event', before, after, now, sent, hlog, hsent⟩ := hinv.replies reply hreply
  have haccounted := hinv.passed event' reply.answers before after now sent hlog reply.bytes hsent
  refine ⟨⟨event', before, after, now, sent, reply.bytes, hsent, hlog, rfl, ?_⟩, ?_, ?_, ?_, ?_⟩
  · intro hnone
    rw [hnone] at haccounted
    exact haccounted
  · intro k hk
    rw [hk] at haccounted
    obtain ⟨call', hcall', -⟩ := haccounted
    have hlt := (List.getElem?_eq_some_iff.mp hcall').1
    omega
  · intro hown
    rw [hown] at haccounted hlog
    obtain ⟨call', hcall', hanswered⟩ := haccounted
    obtain rfl := Option.some.inj (hmade.symm.trans hcall')
    exact effected_of_answered hlog hanswered
  · rintro earlier since rfl sys hcalled hrequests hreplies hevery
    have howned := Machine.final_of_every (step e e') (I := Owned n)
      (fun sys event h hclear => step_owned h hclear) (called_owned hcalled hrequests hreplies)
      hevery
    rw [Machine.final_append] at hpending hreply
    exact (howned.own call hpending).2 reply hreply
  · intro hevery
    have hquiet := Machine.final_of_every (step e e') (I := Quiet)
      (fun sys event h hclear => step_quiet h hclear) (start_quiet server) hevery
    exact (hquiet.busy n call hpending).2.2 reply hreply

/-- A server with one free port. -/
def oneFree : Server (Option Unit) :=
  ⟨30000, ⟨40000, 40000, 10, [.new 40000], false⟩, some (), []⟩

theorem taken_answer_granted :
    let events : List (Event Unit) := [.call (.requestPort (lit "A")), .serve 0 0 true true]
    let log := Machine.trace (step .little .big) (start oneFree) events
    SentBy .little log (some 0) ⟨.response, lit "A", 40000, .success⟩ ∧
      Effected log 0 (.requestPort (lit "A")) (.ok (.port 40000)) := by
  intro events log
  have htaken : (step .little .big (Machine.final (step .little .big) (start oneFree) events)
      (.receive 0)).1 = .taken 0 (.requestPort (lit "A")) (some 0)
        ⟨.response, lit "A", 40000, .success⟩ (.ok (.port 40000)) := rfl
  obtain ⟨hsent, -, heffected, -, hown⟩ := taken_answer .little .big oneFree events htaken
  exact ⟨hsent, heffected (hown ⟨id, id, trivial⟩)⟩

/-- The receive of a keep-alive fails, and the request for another port takes the answer to
    the keep-alive while its own datagram has not reached the server. -/
theorem stale_reply_taken :
    let sys := Machine.final (step .little .little) (start oneFree)
      [.call (.requestPort (lit "A")), .serve 0 0 true true, .receive 0,
        .call (.keepPortAlive (lit "A") 40000), .serve 0 0 true true, .receiveFails,
        .call (.requestPort (lit "B"))]
    (step .little .little sys (.receive 0)).1 = .taken 2 (.requestPort (lit "B")) (some 1)
        ⟨.response, lit "A", 40000, .success⟩ (.ok (.port 40000)) ∧
      sys.requests.length = 1 ∧ sys.server.prs.NotHeld (lit "B") := by
  intro sys
  have hports : sys.server.prs.ports = [(PortReservation.new 40000).reserve (lit "A") 0] := rfl
  refine ⟨rfl, rfl, fun r hr _ => ?_⟩
  rw [hports] at hr
  rw [List.eq_of_mem_singleton hr]
  decide

end NetServices.PRSClient
