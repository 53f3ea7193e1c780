import NetServices.SDClientReplies

set_option autoImplicit false

/-!
# When a call of the client returns

Which texts on the stream the client takes for an accepted session and for a
document. However a call ends, the client stays connected or not as it was.
-/
namespace NetServices.SDClient
open TextReader (splitLine)
open Numerals (parseInt parseULong)
open Utf16 (Str lit)
open Exceptions

/-- The text begins with the acceptance of a session, and `rest` follows. -/
def Accepts (text : Str) (id : UInt64) (rest : Str) : Prop :=
  ∃ after line, splitLine text = (lit "accepted", after) ∧ after ≠ [] ∧
    splitLine after = (line, rest) ∧ parseULong (some line) = some id

/-- The text begins with a document. -/
def Delivers (text content : Str) : Prop :=
  ∃ named sized line rest, ∃ length : ℕ, splitLine text = (lit "success", named) ∧
    (splitLine named).2 = sized ∧ sized ≠ [] ∧ splitLine sized = (line, rest) ∧
    parseInt (some line) = some (length : ℤ) ∧ length ≤ rest.length ∧ content = rest.take length

theorem not_accepts_nil {id : UInt64} {rest : Str} : ¬ Accepts [] id rest := by
  rintro ⟨after, line, htext, -⟩
  exact absurd (congrArg Prod.fst htext) (List.cons_ne_nil _ _).symm

theorem accepts_unique {text : Str} {id id' : UInt64} {rest rest' : Str}
    (h : Accepts text id rest) (h' : Accepts text id' rest') : id = id' := by
  obtain ⟨after, line, htext, -, hafter, hid⟩ := h
  obtain ⟨after', line', htext', -, hafter', hid'⟩ := h'
  obtain ⟨-, rfl⟩ := Prod.mk.inj (htext.symm.trans htext')
  obtain ⟨rfl, -⟩ := Prod.mk.inj (hafter.symm.trans hafter')
  exact Option.some.inj (hid.symm.trans hid')

theorem accepts_accepted_iff {newLine : Str} (hnl : TextReader.IsNewLine newLine)
    {id id' : UInt64} {more rest : Str} :
    Accepts ((SDServer.Reply.accepted id).text newLine ++ more) id' rest ↔
      id' = id ∧ rest = more := by
  have hword := TextReader.splitLine_newLine (l := lit "accepted") (by decide) hnl
    (Numerals.decimal id.toNat ++ (newLine ++ more))
  have hnumber := TextReader.splitLine_newLine (Numerals.decimal_isLine id.toNat) hnl more
  have hparse := Numerals.parseULong_decimal id
  have hne : Numerals.decimal id.toNat ++ (newLine ++ more) ≠ [] := fun h =>
    Numerals.decimal_ne_nil _ (List.append_eq_nil_iff.mp h).1
  simp only [Accepts, SDServer.Reply.text, List.append_assoc, hword]
  constructor
  · rintro ⟨after, line, htext, -, hafter, hid⟩
    obtain rfl := (Prod.mk.inj htext).2
    obtain ⟨rfl, rfl⟩ := Prod.mk.inj (hafter.symm.trans hnumber)
    exact ⟨Option.some.inj (hid.symm.trans hparse), rfl⟩
  · rintro ⟨rfl, rfl⟩
    exact ⟨_, _, rfl, hne, hnumber, hparse⟩

section
variable {π : Type} (env : Env π) (σ : State π)

theorem readLine_split {text line rest : Str} (hne : text ≠ [])
    (h : splitLine text = (line, rest)) : readLine (σ.on text) = .ok (some line) (σ.on rest) := by
  cases text with
  | nil => exact absurd rfl hne
  | cons c cs =>
    change EStateM.Result.ok (some (splitLine (c :: cs)).1) (σ.on (splitLine (c :: cs)).2) = _
    rw [h]

theorem of_readLine {text line : Str} {σ' : State π}
    (h : readLine (σ.on text) = .ok (some line) σ') :
    ∃ rest, text ≠ [] ∧ splitLine text = (line, rest) ∧ σ' = σ.on rest := by
  by_cases hne : text = []
  · subst hne
    obtain ⟨hline, -⟩ := EStateM.Result.ok.inj h
    exact absurd hline.symm (Option.some_ne_none line)
  · have hsplit : splitLine text = ((splitLine text).1, (splitLine text).2) := rfl
    rw [readLine_split σ hne hsplit] at h
    obtain ⟨hline, rfl⟩ := EStateM.Result.ok.inj h
    exact ⟨_, hne, Prod.ext (Option.some.inj hline) rfl, rfl⟩

/-- Whether or not there is a line, what follows it is left. -/
theorem readLine_rest (text : Str) :
    ∃ line, readLine (σ.on text) = .ok line (σ.on (splitLine text).2) := by
  cases text with
  | nil => exact ⟨none, rfl⟩
  | cons c cs => exact ⟨some _, rfl⟩

theorem parseSessionId_eq_ok_iff {line : Str} {id : UInt64} {σ' : State π} :
    parseSessionId env line σ = .ok id σ' ↔ parseULong (some line) = some id ∧ σ' = σ := by
  rw [parseSessionId]
  cases parseULong (some line) with
  | none =>
    refine ⟨fun h => ?_, fun h => absurd h.1.symm (Option.some_ne_none id)⟩
    cases h
  | some parsed =>
    constructor
    · intro h
      obtain ⟨rfl, rfl⟩ := EStateM.Result.ok.inj h
      exact ⟨rfl, rfl⟩
    · rintro ⟨h, rfl⟩
      rw [Option.some.inj h]
      rfl

theorem receiveSessionResponse_eq_ok_iff {text : Str} {id : UInt64} {σ' : State π} :
    receiveSessionResponse env (σ.on text) = .ok id σ' ↔
      ∃ rest, Accepts text id rest ∧ σ' = σ.on rest := by
  rw [receiveSessionResponse, bind_eq_ok_iff]
  constructor
  · rintro ⟨first, σ₁, hfirst, h⟩
    split_ifs at h with haccepted hrejected herror
    · rw [haccepted] at hfirst
      obtain ⟨after, -, htext, rfl⟩ := of_readLine σ hfirst
      obtain ⟨line, σ₂, hline, h⟩ := bind_eq_ok_iff.mp h
      cases line with
      | none => cases h
      | some line =>
        obtain ⟨rest, hne, hafter, rfl⟩ := of_readLine σ hline
        obtain ⟨hid, rfl⟩ := (parseSessionId_eq_ok_iff env _).mp h
        exact ⟨rest, ⟨after, line, htext, hne, hafter, hid⟩, rfl⟩
    · cases h
    · obtain ⟨message, σ₂, -, h⟩ := bind_eq_ok_iff.mp h
      cases h
    · cases h
  · rintro ⟨rest, ⟨after, line, htext, hne, hafter, hid⟩, rfl⟩
    have htext' : text ≠ [] := by
      rintro rfl
      exact absurd (congrArg Prod.fst htext) (List.cons_ne_nil _ _).symm
    refine ⟨_, _, readLine_split σ htext' htext, ?_⟩
    rw [if_pos rfl, bind_run, readLine_split σ hne hafter]
    exact (parseSessionId_eq_ok_iff env _).mpr ⟨hid, rfl⟩

theorem receiveDocumentContent_eq_ok_iff {text content : Str} {length : ℤ} :
    (∃ σ', receiveDocumentContent env length (σ.on text) = .ok content σ') ↔
      ∃ count : ℕ, length = count ∧ count ≤ text.length ∧ content = text.take count := by
  rw [receiveDocumentContent]
  by_cases hneg : length < 0
  · rw [if_pos hneg]
    constructor
    · rintro ⟨σ', h⟩
      cases h
    · rintro ⟨count, rfl, -⟩
      omega
  · obtain ⟨count, rfl⟩ := Int.eq_ofNat_of_zero_le (Int.not_lt.mp hneg)
    obtain ⟨reads, hblock⟩ := TextReader.readBlock_eq count count le_rfl ⟨text, σ.reader.reads⟩
    have hread : (σ.on text).reader.readBlock count count = _ := hblock
    rw [if_neg hneg, bind_run, modifyGet_run]
    simp only [Int.toNat_natCast, hread, List.length_take]
    by_cases hshort : min count text.length < count
    · rw [if_pos hshort]
      constructor
      · rintro ⟨σ', h⟩
        cases h
      · rintro ⟨count', hcount, hle, -⟩
        omega
    · rw [if_neg hshort]
      constructor
      · rintro ⟨σ', h⟩
        obtain ⟨rfl, -⟩ := EStateM.Result.ok.inj h
        exact ⟨count, rfl, by omega, rfl⟩
      · rintro ⟨count', hcount, hle, rfl⟩
        obtain rfl : count = count' := by omega
        exact ⟨_, rfl⟩

theorem receiveGetResponse_eq_ok_iff {text content : Str} :
    (∃ σ', receiveGetResponse env (σ.on text) = .ok content σ') ↔
      Delivers text content := by
  rw [receiveGetResponse]
  simp only [bind_eq_ok_iff]
  constructor
  · rintro ⟨σ', first, σ₁, hfirst, h⟩
    split_ifs at h with hsuccess herror
    · rw [hsuccess] at hfirst
      obtain ⟨named, -, htext, rfl⟩ := of_readLine σ hfirst
      obtain ⟨_, σ₂, hname, h⟩ := bind_eq_ok_iff.mp h
      obtain ⟨name, hrest⟩ := readLine_rest σ named
      rw [hrest] at hname
      obtain ⟨-, rfl⟩ := EStateM.Result.ok.inj hname
      obtain ⟨line, σ₃, hline, h⟩ := bind_eq_ok_iff.mp h
      cases line with
      | none => cases h
      | some line =>
        obtain ⟨rest, hne, hsized, rfl⟩ := of_readLine σ hline
        cases hlength : parseInt (some line) with
        | none =>
          simp only [hlength] at h
          cases h
        | some length =>
          simp only [hlength] at h
          obtain ⟨count, rfl, hle, rfl⟩ :=
            (receiveDocumentContent_eq_ok_iff env σ).mp ⟨σ', h⟩
          exact ⟨named, _, line, rest, count, htext, rfl, hne, hsized, hlength, hle, rfl⟩
    · obtain ⟨message, σ₂, -, h⟩ := bind_eq_ok_iff.mp h
      cases h
    · cases h
  · rintro ⟨named, sized, line, rest, count, htext, rfl, hne, hsized, hlength, hle, hcontent⟩
    have htext' : text ≠ [] := by
      rintro rfl
      exact absurd (congrArg Prod.fst htext) (List.cons_ne_nil _ _).symm
    obtain ⟨σ', hreceive⟩ :=
      (receiveDocumentContent_eq_ok_iff env σ).mpr ⟨count, rfl, hle, hcontent⟩
    obtain ⟨name, hname⟩ := readLine_rest σ named
    refine ⟨σ', _, _, readLine_split σ htext' htext, ?_⟩
    rw [if_pos rfl, bind_run, hname]
    simp only
    rw [bind_run, readLine_split σ hne hsized]
    simp only [hlength]
    exact hreceive

end

section
variable {π τ : Type} (env : Env π) {part : State π → τ}

/-- A part of the client that reading leaves as it is. -/
def Apart (part : State π → τ) : Prop := ∀ σ reader, part { σ with reader := reader } = part σ

theorem readLine_leaves (hpart : Apart part) : Leaves part (readLine (π := π)) :=
  Leaves.modifyGet fun σ => hpart σ _

theorem parseSessionId_leaves (line : Str) : Leaves part (parseSessionId env line) := by
  simp only [parseSessionId]
  cases parseULong (some line) with
  | none => exact .throw _
  | some id => exact .pure id

theorem receiveSessionResponse_leaves (hpart : Apart part) :
    Leaves part (receiveSessionResponse env) := by
  refine (readLine_leaves hpart).bind fun line => ?_
  split_ifs
  · refine (readLine_leaves hpart).bind fun line => ?_
    cases line with
    | none => exact .throw _
    | some line => exact parseSessionId_leaves env line
  · exact .throw _
  · exact (readLine_leaves hpart).bind fun line => .throw _
  · exact .throw _

theorem receiveClose_leaves (hpart : Apart part) : Leaves part (receiveClose env) := by
  refine (readLine_leaves hpart).bind fun line => ?_
  split_ifs
  · refine (readLine_leaves hpart).bind fun line => ?_
    cases line with
    | none => exact .throw _
    | some line => exact parseSessionId_leaves env line
  · exact (readLine_leaves hpart).bind fun line => .throw _
  · exact .throw _

theorem receivePostResponse_leaves (hpart : Apart part) :
    Leaves part (receivePostResponse (π := π)) := by
  refine (readLine_leaves hpart).bind fun line => ?_
  split_ifs
  · exact .pure _
  · exact .throw _
  · exact .throw _

theorem receiveGetResponse_leaves (hpart : Apart part) :
    Leaves part (receiveGetResponse env) := by
  refine (readLine_leaves hpart).bind fun line => ?_
  split_ifs
  · refine (readLine_leaves hpart).bind fun _ => (readLine_leaves hpart).bind fun line => ?_
    cases line with
    | none => exact .throw _
    | some line =>
      simp only
      cases parseInt (some line) with
      | none => exact .throw _
      | some length =>
        simp only [receiveDocumentContent]
        split_ifs
        · exact .throw _
        · refine Leaves.bind (.modifyGet fun σ => hpart σ _) fun content => ?_
          split_ifs
          · exact .throw _
          · exact .pure _
  · exact (readLine_leaves hpart).bind fun line => .throw _
  · exact .throw _

end

section
variable {π : Type} (env : Env π)

theorem connected_apart : Apart (State.connected (π := π)) := fun _ _ => rfl

theorem validateConnected_leaves : Leaves State.connected (validateConnected (π := π)) := by
  refine Leaves.get.bind fun σ => ?_
  split_ifs
  · exact .pure _
  · exact .throw _

theorem write_leaves (text : Str) : Leaves State.connected (write (π := π) text) :=
  .modifyGet fun _ => rfl

theorem flush_leaves : Leaves State.connected (flush env) := by
  intro σ
  simp only [flush]
  cases env.deliver σ.writer σ.peer <;> rfl

theorem openSession_leaves : Leaves State.connected (openSession env) := by
  refine validateConnected_leaves.bind fun _ => ?_
  refine ((write_leaves _).bind fun _ => flush_leaves env).bind fun _ => ?_
  refine .tryCatch ?_ fun e => .throw _
  exact (receiveSessionResponse_leaves env connected_apart).bind fun id => .modifyGet fun _ => rfl

theorem resumeSession_leaves (id : UInt64) :
    Leaves State.connected (resumeSession env id) := by
  unfold resumeSession
  split_ifs
  · exact .throw _
  · refine validateConnected_leaves.bind fun _ => ?_
    refine ((write_leaves _).bind fun _ => flush_leaves env).bind fun _ => ?_
    refine (receiveSessionResponse_leaves env connected_apart).bind fun returned => ?_
    split_ifs
    · exact .throw _
    · exact .modifyGet fun _ => rfl

theorem getDocument_leaves (name : Str) :
    Leaves State.connected (getDocument env name) := by
  refine validateConnected_leaves.bind fun _ => ?_
  refine Leaves.bind ?_ fun _ => receiveGetResponse_leaves env connected_apart
  exact (write_leaves _).bind fun _ => (write_leaves _).bind fun _ => flush_leaves env

end

/-- The session that the client holds after a call that has returned, by what is on its
    stream and the session before the call. -/
def Operation.Takes (text : Str) (sessionID sessionID' : UInt64) : Operation → Prop
  | .open | .resume _ => ∃ rest, Accepts text sessionID' rest
  | .close => sessionID' = 0
  | .get _ | .post _ _ => sessionID' = sessionID

section
variable {π : Type} (env : Env π) {sessionID : UInt64} {reader : TextReader.Reader} {peer : π}

theorem flush_fails {text : Str} {e : Exn} (h : env.deliver text peer = .error e) : ∃ σ',
    (write text >>= fun _ => flush env) ⟨true, sessionID, reader, [], peer⟩ = .error e σ' := by
  rw [bind_run, write, modify_run]
  simp only [flush, List.nil_append, h]
  exact ⟨_, rfl⟩

theorem openSession_fails {e : Exn}
    (h : env.deliver (Operation.open.text env.newLine sessionID) peer = .error e) :
    ∃ σ', openSession env ⟨true, sessionID, reader, [], peer⟩ = .error e σ' := by
  obtain ⟨σ', hsend⟩ := @flush_fails π env sessionID reader peer _ e h
  refine ⟨σ', ?_⟩
  rw [openSession, bind_run, validateConnected_run rfl]
  exact bind_error hsend

theorem resumeSession_fails {id : UInt64} {e : Exn} (hid : id ≠ 0)
    (h : env.deliver ((Operation.resume id).text env.newLine sessionID) peer = .error e) :
    ∃ σ', resumeSession env id ⟨true, sessionID, reader, [], peer⟩ = .error e σ' := by
  obtain ⟨σ', hsend⟩ := @flush_fails π env sessionID reader peer _ e h
  refine ⟨σ', ?_⟩
  rw [resumeSession, if_neg hid, bind_run, validateConnected_run rfl]
  exact bind_error hsend

/-- A call that cannot send its request throws. -/
theorem perform_undelivered {op : Operation} {e : Exn}
    (h : env.deliver (op.text env.newLine sessionID) peer = .error e) :
    ∃ e', (perform env op ⟨true, sessionID, reader, [], peer⟩).1 = .error e' := by
  have hvalid : validateConnected ⟨true, sessionID, reader, [], peer⟩ = .ok () _ :=
    validateConnected_run rfl
  obtain ⟨σ', hsend⟩ := @flush_fails π env sessionID reader peer _ e h
  cases op with
  | «open» =>
    obtain ⟨σ', hopen⟩ := @openSession_fails π env sessionID reader peer e h
    exact ⟨e, by simp only [perform, Operation.run, bind_run, hopen]⟩
  | resume id =>
    by_cases hid : id = 0
    · subst hid
      exact ⟨_, rfl⟩
    · obtain ⟨σ', hresume⟩ := @resumeSession_fails π env sessionID reader peer id e hid h
      exact ⟨e, by simp only [perform, Operation.run, bind_run, hresume]⟩
  | close =>
    have hclose : sendClose env sessionID ⟨true, sessionID, reader, [], peer⟩ = .error e σ' := hsend
    exact ⟨e, by
      simp only [perform, Operation.run, closeSession, bind_run, hvalid, get_run, hclose]⟩
  | get name =>
    have hget : sendGet env name ⟨true, sessionID, reader, [], peer⟩ = .error e σ' := hsend
    exact ⟨e, by simp only [perform, Operation.run, getDocument, bind_run, hvalid, hget]⟩
  | post name contents =>
    have hpost : sendPost env name contents ⟨true, sessionID, reader, [], peer⟩ = .error e σ' :=
      hsend
    exact ⟨e, by simp only [perform, Operation.run, postDocument, bind_run, hvalid, hpost]⟩

end

section
variable {π : Type} {env : Env π} {sessionID : UInt64} {unread : Str} {reads : List ℕ} {peer : π}
  {op : Operation} {value : Str}

/-- The client without its reader. -/
def State.rest (σ : State π) : Bool × UInt64 × Str × π :=
  (σ.connected, σ.sessionID, σ.writer, σ.peer)

theorem State.eq_of_rest {σ : State π} {connected : Bool} {writer : Str}
    (h : σ.rest = (connected, sessionID, writer, peer)) :
    σ = ⟨connected, sessionID, σ.reader, writer, peer⟩ := by
  cases h
  rfl

/-- A call that returns has sent its request, and leaves a client that is connected and
    has sent everything. -/
theorem perform_returned
    (h : (perform env op ⟨true, sessionID, ⟨unread, reads⟩, [], peer⟩).1 = .ok value) :
    ∃ received peer' sessionID' reader,
      env.deliver (op.text env.newLine sessionID) peer = .ok (received, peer') ∧
      (perform env op ⟨true, sessionID, ⟨unread, reads⟩, [], peer⟩).2 =
        ⟨true, sessionID', reader, [], peer'⟩ ∧
      op.Takes (unread ++ received) sessionID sessionID' := by
  let σ : State π := ⟨true, sessionID, ⟨unread, reads⟩, [], peer⟩
  cases hdeliver : env.deliver (op.text env.newLine sessionID) peer with
  | error e =>
    obtain ⟨e', he⟩ := @perform_undelivered π env sessionID ⟨unread, reads⟩ peer op e hdeliver
    cases he.symm.trans h
  | ok result =>
    obtain ⟨received, peer'⟩ := result
    let τ : State π := State.on ⟨true, sessionID, ⟨[], reads⟩, [], peer'⟩ (unread ++ received)
    have hapart : Apart (State.rest (π := π)) := fun _ _ => rfl
    have hflush := @flush_run π env sessionID ⟨unread, reads⟩ peer _ _ _ _ hdeliver rfl
    cases op with
    | «open» =>
      have hperform := perform_open (σ := σ) (τ := τ) rfl hflush
      rw [hperform] at h ⊢
      cases hsession : receiveSessionResponse env τ with
      | ok id τ' =>
        obtain ⟨rest, haccepts, rfl⟩ := (receiveSessionResponse_eq_ok_iff env _).mp hsession
        exact ⟨received, peer', id, _, rfl, rfl, rest, haccepts⟩
      | error e τ' =>
        rw [hsession] at h
        cases h
    | resume id =>
      by_cases hid : id = 0
      · subst hid
        cases h
      · have hperform := perform_resume (σ := σ) (τ := τ) rfl hid hflush
        rw [hperform] at h ⊢
        cases hsession : receiveSessionResponse env τ with
        | ok returnedID τ' =>
          obtain ⟨rest, haccepts, rfl⟩ := (receiveSessionResponse_eq_ok_iff env _).mp hsession
          rw [hsession] at h
          simp only at h ⊢
          split_ifs at h ⊢ with hreturned
          exact ⟨received, peer', returnedID, _, rfl, rfl, rest, haccepts⟩
        | error e τ' =>
          rw [hsession] at h
          cases h
    | close =>
      have hperform := perform_close (σ := σ) (τ := τ) rfl hflush
      have hleaves := receiveClose_leaves env hapart τ
      rw [hperform] at h ⊢
      cases hclose : receiveClose env τ with
      | ok returnedID τ' =>
        rw [hclose] at h hleaves
        have hrest := State.eq_of_rest hleaves
        simp only at h ⊢
        split_ifs at h ⊢
        rw [hrest]
        exact ⟨received, peer', 0, _, rfl, rfl, rfl⟩
      | error e τ' =>
        rw [hclose] at h
        cases h
    | get name =>
      have hperform := perform_get (σ := σ) (τ := τ) rfl hflush
      have hleaves := receiveGetResponse_leaves env hapart τ
      rw [hperform] at h ⊢
      cases hget : receiveGetResponse env τ with
      | ok content τ' =>
        rw [hget] at hleaves
        exact ⟨received, peer', sessionID, _, rfl, State.eq_of_rest hleaves, rfl⟩
      | error e τ' =>
        rw [hget] at h
        cases h
    | post name contents =>
      have hperform := perform_post (σ := σ) (τ := τ) rfl hflush
      have hleaves := receivePostResponse_leaves hapart τ
      rw [hperform] at h ⊢
      cases hpost : receivePostResponse τ with
      | ok _ τ' =>
        rw [hpost] at hleaves
        exact ⟨received, peer', sessionID, _, rfl, State.eq_of_rest hleaves, rfl⟩
      | error e τ' =>
        rw [hpost] at h
        cases h

end

end NetServices.SDClient
