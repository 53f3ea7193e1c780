import NetServices.SDClientReplies
import NetServices.SDFaults
import NetServices.PRSMessageCodec

set_option autoImplicit false

/-!
# Documents on a stream of bytes

Client and server write a document with its length in characters, through a
strict encoder, and read it back from the decoded stream. Whatever bytes follow
and however the stream is split, the other side finds the name and the content
and is left right after them.
-/
namespace NetServices.SDFraming
open Exceptions
open Numerals (decimal)
open PRSMessage (utf8GetBytes utf8GetString)
open SDClient (Operation sendPost receiveGetResponse)
open SDServer (Host handlePost sendDocument storeDocument sendSuccess sendError)
open TextReader (IsLine IsNewLine Reader readLine_newLine)
open TextWriter (Writer)
open Utf16 (Str lit WellFormed)

/-- The bytes on the wire once the encoder holds nothing back. -/
def wire (writer : Writer) : List UInt8 := utf8GetBytes writer.sent

/-- A client that writes to a stream. -/
def clientEnv (platform : SDClient.Platform) : SDClient.Env Writer :=
  { platform with
    deliver := fun text writer =>
      match writer.write (fun _ => none) text with
      | (none, writer) => .ok ([], writer)
      | (some e, _) => .error e }

/-- A connection that writes to a stream. -/
def serverEnv (host : Host) : SDServer.Env Writer := host.streaming fun _ => none

/-- What `HandlePost` does with the document that it has received. -/
def storePosted {W : Type} (env : SDServer.Env W) (now : DateTime) (name content : Str) :
    SDServer.Server W Unit := do
  try
    storeDocument env now name content
    sendSuccess env
  catch ex => sendError env (lit "Post failed: " ++ ex.message)

theorem wellFormed_took {newLine text more : Str} (hnl : IsNewLine newLine) {w : Writer}
    (h : w.Took (text ++ newLine ++ more)) (hmore : WellFormed more) :
    WellFormed (text ++ newLine ++ more) := by
  rcases hnl with rfl | rfl
  · exact h.wellFormed (u := 10) rfl hmore
  · have hsplit : text ++ TextReader.Terminator.crlf.text = (text ++ [13]) ++ [10] := by
      rw [List.append_assoc]
      rfl
    rw [hsplit] at h ⊢
    exact h.wellFormed rfl hmore

theorem fresh_took : Writer.fresh.Took [] := ⟨rfl, rfl, rfl⟩

theorem wire_decoded {w : Writer} {text : Str} (h : w.Took text) (hwell : WellFormed text)
    (rest : List UInt8) : utf8GetString (wire w ++ rest) = text ++ utf8GetString rest := by
  rw [wire, h.2.2, PRSMessage.utf8GetString_getBytes_append hwell]

theorem sendPost_took {platform : SDClient.Platform} {name content : Str}
    {σ τ : SDClient.State Writer} (hwriter : σ.writer = []) (hpeer : σ.peer = .fresh)
    (h : sendPost (clientEnv platform) name content σ = .ok () τ) :
    τ.peer.Took ((Operation.post name content).text platform.newLine σ.sessionID) := by
  obtain ⟨connected, sessionID, reader, writer, peer⟩ := σ
  obtain rfl : writer = [] := hwriter
  obtain rfl : peer = .fresh := hpeer
  obtain ⟨_, σ', hwrite, hflush⟩ := bind_eq_ok_iff.mp h
  obtain rfl := (EStateM.Result.ok.inj hwrite).2
  have hdeliver : (SDClient.flush (clientEnv platform)
      ⟨connected, sessionID, reader,
        (Operation.post name content).text platform.newLine sessionID, .fresh⟩) = .ok () τ := hflush
  cases hw : Writer.fresh.write (fun _ => none)
      ((Operation.post name content).text platform.newLine sessionID) with
  | mk e w =>
    cases e with
    | some e =>
      simp only [SDClient.flush, clientEnv, hw] at hdeliver
      cases hdeliver
    | none =>
      simp only [SDClient.flush, clientEnv, hw] at hdeliver
      obtain rfl := (EStateM.Result.ok.inj hdeliver).2
      exact fresh_took.write hw

theorem write_took {host : Host} {text more : Str} {σ σ' : SDServer.State Writer}
    (hσ : σ.writer.Took text) (h : SDServer.write (serverEnv host) more σ = .ok () σ') :
    σ'.writer.Took (text ++ more) := by
  cases hw : σ.writer.write (fun _ => none) more with
  | mk e w =>
    cases e with
    | some e =>
      simp only [SDServer.write, serverEnv, Host.streaming, hw] at h
      cases h
    | none =>
      simp only [SDServer.write, serverEnv, Host.streaming, hw] at h
      obtain rfl := (EStateM.Result.ok.inj h).2
      exact hσ.write hw

theorem sendDocument_took {host : Host} {name content : Str} {σ τ : SDServer.State Writer}
    (hwriter : σ.writer = .fresh) (h : sendDocument (serverEnv host) name content σ = .ok () τ) :
    τ.writer.Took ((SDServer.Reply.document name content).text host.newLine) := by
  obtain ⟨_, σ₁, hsuccess, h⟩ := bind_eq_ok_iff.mp h
  obtain ⟨_, σ₂, hname, h⟩ := bind_eq_ok_iff.mp h
  obtain ⟨_, σ₃, hlength, hcontent⟩ := bind_eq_ok_iff.mp h
  have htook := write_took (write_took (write_took (write_took (hwriter ▸ fresh_took) hsuccess)
    hname) hlength) hcontent
  have htext : (SDServer.Reply.document name content).text host.newLine =
      [] ++ (lit "success" ++ host.newLine) ++ (name ++ host.newLine) ++
        (decimal content.length ++ host.newLine) ++ content := by
    simp only [SDServer.Reply.text, List.nil_append, List.append_assoc]
  rw [htext]
  exact htook

/-- `HandlePost` on a document with its length, and whatever follows. -/
theorem handlePost_framed {W : Type} (env : SDServer.Env W) (now : DateTime) (core : SDServer.Core)
    (writer : W) (reads : List ℕ) {name content : Str} (rest : Str) (hname : IsLine name)
    (hne : name ≠ []) (hshort : content.length < 0x80000000) :
    ∃ reads', handlePost env now ⟨core, ⟨name ++ (lit "\n" ++ (decimal content.length ++
        (lit "\n" ++ (content ++ rest)))), reads⟩, writer⟩ =
      storePosted env now name content ⟨core, ⟨rest, reads'⟩, writer⟩ := by
  obtain ⟨reads', hblock⟩ := TextReader.readBlock_eq content.length content.length le_rfl
    ⟨content ++ rest, reads⟩
  rw [List.take_left, List.drop_left] at hblock
  have hnl : IsNewLine (lit "\n") := .inl rfl
  have hnamed := readLine_newLine hname hnl
    (decimal content.length ++ (lit "\n" ++ (content ++ rest))) reads
  have hsized := readLine_newLine (Numerals.decimal_isLine content.length) hnl (content ++ rest)
    reads
  refine ⟨reads', ?_⟩
  rw [handlePost, bind_run, SDServer.readLine_run, hnamed]
  simp only [Option.getD_some, if_neg hne]
  rw [bind_run, SDServer.readLine_run, hsized]
  simp only [Numerals.parseInt_decimal hshort]
  rw [bind_run, SDServer.receiveDocument, if_neg (Int.not_lt.mpr (Int.natCast_nonneg _)),
    modifyGet_run]
  simp only [Int.toNat_natCast, hblock]
  rfl

theorem postText_wellFormed (platform : SDClient.Platform) (sessionID : UInt64) {name content : Str}
    (hname : WellFormed name) (hwell : WellFormed content) :
    WellFormed ((Operation.post name content).text platform.newLine sessionID) :=
  ((((((Utf16.wellFormed_lit "post").append (Utf16.wellFormed_lit "\n")).append hname).append
    (Utf16.wellFormed_lit "\n")).append (Numerals.decimal_wellFormed _)).append
      (Utf16.wellFormed_lit "\n")).append hwell

theorem sendPost_ok (platform : SDClient.Platform) {name content : Str} (hname : WellFormed name)
    (hwell : WellFormed content) {σ : SDClient.State Writer} (hwriter : σ.writer = [])
    (hpeer : σ.peer = .fresh) : ∃ τ, sendPost (clientEnv platform) name content σ = .ok () τ := by
  obtain ⟨connected, sessionID, reader, writer, peer⟩ := σ
  obtain rfl : writer = [] := hwriter
  obtain rfl : peer = .fresh := hpeer
  have hwrite : Writer.fresh.write (fun _ => none)
      ((Operation.post name content).text platform.newLine sessionID) = _ :=
    TextWriter.write_wellFormed ⟨rfl, rfl⟩ (postText_wellFormed platform sessionID hname hwell)
  refine ⟨⟨connected, sessionID, reader.receive [], [], ⟨[], none,
    [] ++ (Operation.post name content).text platform.newLine sessionID⟩⟩, ?_⟩
  change SDClient.flush (clientEnv platform) ⟨connected, sessionID, reader,
    (Operation.post name content).text platform.newLine sessionID, .fresh⟩ = _
  simp only [SDClient.flush, clientEnv, hwrite]
  rfl

theorem sendDocument_ok (host : Host) {name content : Str} (hname : WellFormed name)
    (hwell : WellFormed content) {σ : SDServer.State Writer} (hwriter : σ.writer = .fresh) :
    ∃ τ, sendDocument (serverEnv host) name content σ = .ok () τ := by
  obtain ⟨core, reader, writer⟩ := σ
  obtain rfl : writer = .fresh := hwriter
  have hencodable : (SDServer.Reply.document name content).Encodable := ⟨hname, hwell⟩
  exact ⟨_, SDServer.sends_reply hencodable core reader [] (SDServer.never_silent _)⟩

/-- However the stream is split and whatever follows, a document that was posted is taken
    by `HandlePost`, and one that was sent by `ReceiveGetResponse`, with its name and
    content, and what follows is left. -/
theorem documents_framed (platform : SDClient.Platform) (host : Host) {name content : Str}
    (hname : IsLine name) (hne : name ≠ []) (hwell : WellFormed content)
    (hshort : content.length < 0x80000000) (rest : List UInt8) (reads : List ℕ) :
    (∀ σ : SDClient.State Writer, σ.writer = [] → σ.peer = .fresh →
      (WellFormed name → ∃ τ, sendPost (clientEnv platform) name content σ = .ok () τ) ∧
      ∀ τ, sendPost (clientEnv platform) name content σ = .ok () τ →
        ∃ r, Reader.readLine ⟨utf8GetString (wire τ.peer ++ rest), reads⟩ = (some (lit "post"), r) ∧
          ∀ {W : Type} (env : SDServer.Env W) (now : DateTime) (core : SDServer.Core) (writer : W),
            ∃ reads', handlePost env now ⟨core, r, writer⟩ =
              storePosted env now name content ⟨core, ⟨utf8GetString rest, reads'⟩, writer⟩) ∧
    ∀ σ : SDServer.State Writer, σ.writer = .fresh →
      (WellFormed name → ∃ τ, sendDocument (serverEnv host) name content σ = .ok () τ) ∧
      ∀ τ, sendDocument (serverEnv host) name content σ = .ok () τ →
        ∀ {π : Type} (env : SDClient.Env π) (client : SDClient.State π), ∃ reads',
          receiveGetResponse env
              { client with reader := ⟨utf8GetString (wire τ.writer ++ rest), reads⟩ } =
            .ok content { client with reader := ⟨utf8GetString rest, reads'⟩ } := by
  constructor
  · intro σ hwriter hpeer
    refine ⟨fun hnamed => sendPost_ok platform hnamed hwell hwriter hpeer, fun τ h => ?_⟩
    have htook := sendPost_took hwriter hpeer h
    rw [wire_decoded htook (wellFormed_took (.inl rfl) htook hwell)]
    simp only [Operation.text, List.append_assoc]
    refine ⟨_, readLine_newLine (l := lit "post") (by decide) (.inl rfl) _ reads, ?_⟩
    intro W env now core writer
    exact handlePost_framed env now core writer reads _ hname hne hshort
  · intro σ hwriter
    refine ⟨fun hnamed => sendDocument_ok host hnamed hwell hwriter, fun τ h π env client => ?_⟩
    have htook := sendDocument_took hwriter h
    have htext : (SDServer.Reply.document name content).text host.newLine =
        lit "success" ++ host.newLine ++ (name ++ host.newLine ++ decimal content.length) ++
          host.newLine ++ content := by
      simp only [SDServer.Reply.text, List.append_assoc]
    have hwhole := wellFormed_took host.isNewLine (htext ▸ htook) hwell
    rw [wire_decoded htook (htext ▸ hwhole)]
    exact SDClient.receiveGetResponse_document host.isNewLine env
      { client with reader := ⟨[], reads⟩ } (utf8GetString rest) hname hshort

/-- A content that starts with a line break and holds a command and a surrogate pair, read
    one character at a time with another request after it. -/
theorem documents_framed_lines :
    let windows : SDClient.Platform := ⟨lit "\r\n", .inr rfl, id, []⟩
    let σ : SDClient.State Writer := ⟨true, 1, ⟨[], []⟩, [], .fresh⟩
    ∃ τ, sendPost (clientEnv windows) (lit "a") (lit "\nopen\n😀") σ = .ok () τ ∧
      ∃ r, Reader.readLine ⟨utf8GetString (wire τ.peer ++ utf8GetBytes (lit "close\n1\n")),
          [1, 1, 1, 1]⟩ = (some (lit "post"), r) ∧
        ∀ (env : SDServer.Env Unit) (now : DateTime) (core : SDServer.Core), ∃ reads',
          handlePost env now ⟨core, r, ()⟩ = storePosted env now (lit "a") (lit "\nopen\n😀")
            ⟨core, ⟨utf8GetString (utf8GetBytes (lit "close\n1\n")), reads'⟩, ()⟩ := by
  intro windows σ
  obtain ⟨hposted, -⟩ := @documents_framed windows .unix (lit "a") (lit "\nopen\n😀") (by decide)
    (by decide) (Utf16.wellFormed_lit _) (by decide)
    (utf8GetBytes (lit "close\n1\n")) [1, 1, 1, 1]
  obtain ⟨hok, htaken⟩ := hposted σ rfl rfl
  obtain ⟨τ, hτ⟩ := hok (Utf16.wellFormed_lit "a")
  obtain ⟨r, hline, hpost⟩ := htaken τ hτ
  exact ⟨τ, hτ, r, hline, fun env now core => hpost env now core ()⟩

end NetServices.SDFraming
