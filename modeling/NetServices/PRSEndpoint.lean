import NetServices.PRSClient

set_option autoImplicit false

/-!
# To whom the client of the port reservation server sends

`prsEndpoint` is handed to every receive by reference, and a receive leaves the
sender of its datagram there. The next request goes to whoever that was.
-/
namespace NetServices.PRSEndpoint
open ByteOrder (Endian)
open PRSClient (Call)
open Utf16 (lit)

/-- The fields of a client, null being `none`, and the call that holds `socketLock`. -/
structure Client (ε : Type) where
  prsEndpoint : Option ε
  socketOpen : Bool
  pending : Option Call
  closing : Bool

variable {ε : Type}

/-- The constructor, with the address and the port that it is given. -/
def new (prs : ε) : Client ε := ⟨some prs, true, none, false⟩

inductive Event (ε : Type) where
  | call (call : Call) (sendFails : Bool)
  | receive (bytes : List UInt8) (sender : ε)
  | receiveRaises (sender : Option ε)
  | close

inductive Record (ε : Type) where
  | sent (bytes : List UInt8) (endpoint : ε)
  | received (sender : ε)
  | other

def step (e : Endian) (client : Client ε) : Event ε → Record ε × Client ε
  | .call call sendFails =>
    if !client.socketOpen || client.pending.isSome || sendFails then (.other, client)
    else
      match call.exchange.request.getBytes e, client.prsEndpoint with
      | some bytes, some endpoint =>
        (.sent bytes endpoint, { client with pending := some call })
      | _, _ => (.other, client)
  | .receive bytes sender =>
    match client.pending with
    | none => (.other, client)
    | some call =>
      let message := PRSMessage.ofBytes e (PRSServer.buffer bytes)
      (.received sender, { client with
        prsEndpoint := some sender
        pending := none
        closing := match call.exchange.outcome message with
          | .ok .closed => true
          | _ => client.closing })
  -- a datagram that is longer than the buffer raises when its sender is known
  | .receiveRaises (some sender) =>
    match client.pending with
    | none => (.other, client)
    | some _ => (.received sender, { client with prsEndpoint := some sender, pending := none })
  | .receiveRaises none => (.other, { client with pending := none })
  -- `ClosePort` closes the socket after it has given the lock back
  | .close => (.other, if client.closing then ⟨none, false, none, true⟩ else client)

def Record.sender : Record ε → Option ε
  | .received sender => some sender
  | _ => none

/-- Who has sent the last datagram that was received. -/
def lastSender (log : List (Event ε × Record ε)) : Option ε :=
  (log.filterMap fun x => x.2.sender).getLast?

theorem lastSender_concat (log : List (Event ε × Record ε)) (x : Event ε × Record ε) :
    lastSender (log ++ [x]) = x.2.sender.or (lastSender log) := by
  rw [lastSender, List.filterMap_append, List.getLast?_append]
  cases h : x.2.sender <;> simp [h, lastSender]

/-- The endpoint is that of the last sender, or still the one of the constructor. -/
def Follows (prs : ε) (log : List (Event ε × Record ε)) (client : Client ε) : Prop :=
  ∀ endpoint, client.prsEndpoint = some endpoint → endpoint = (lastSender log).getD prs

theorem new_follows (prs : ε) : Follows prs [] (new prs) :=
  fun _ h => (Option.some.inj h).symm

theorem step_follows (e : Endian) {prs : ε} {log : List (Event ε × Record ε)} {client : Client ε}
    (h : Follows prs log client) (event : Event ε) :
    Follows prs (log ++ [(event, (step e client event).1)]) (step e client event).2 := by
  have quiet : ∀ {record : Record ε} {client' : Client ε}, record.sender = none →
      (client'.prsEndpoint = client.prsEndpoint ∨ client'.prsEndpoint = none) →
      Follows prs (log ++ [(event, record)]) client' := by
    intro record client' hsilent hkept endpoint hendpoint
    rw [lastSender_concat, hsilent, Option.none_or]
    rcases hkept with hsame | hnone
    · exact h endpoint (hsame.symm.trans hendpoint)
    · exact absurd (hnone.symm.trans hendpoint) (Option.some_ne_none endpoint).symm
  have taken : ∀ {sender : ε} {client' : Client ε}, client'.prsEndpoint = some sender →
      Follows prs (log ++ [(event, .received sender)]) client' := by
    intro sender client' hsender endpoint hendpoint
    rw [lastSender_concat]
    exact (Option.some.inj (hsender.symm.trans hendpoint)).symm
  cases event with
  | call call sendFails =>
    simp only [step]
    split_ifs
    · exact quiet rfl (.inl rfl)
    · split
      · exact quiet rfl (.inl rfl)
      · exact quiet rfl (.inl rfl)
  | receive bytes sender =>
    cases hpending : client.pending with
    | none =>
      simp only [step, hpending]
      exact quiet rfl (.inl rfl)
    | some call =>
      simp only [step, hpending]
      exact taken rfl
  | receiveRaises sender =>
    cases sender with
    | none => exact quiet rfl (.inl rfl)
    | some sender =>
      cases hpending : client.pending with
      | none =>
        simp only [step, hpending]
        exact quiet rfl (.inl rfl)
      | some call =>
        simp only [step, hpending]
        exact taken rfl
  | close =>
    simp only [step]
    split_ifs
    · exact quiet rfl (.inr rfl)
    · exact quiet rfl (.inl rfl)

theorem sent_to {e : Endian} {client : Client ε} {event : Event ε} {bytes : List UInt8}
    {endpoint : ε} (h : (step e client event).1 = .sent bytes endpoint) :
    client.prsEndpoint = some endpoint := by
  cases event with
  | call call sendFails =>
    simp only [step] at h
    split_ifs at h
    split at h
    · next hendpoint =>
      obtain ⟨-, rfl⟩ := Record.sent.inj h
      exact hendpoint
    · cases h
  | receive bytes sender =>
    simp only [step] at h
    split at h <;> cases h
  | receiveRaises sender =>
    cases sender with
    | none => cases h
    | some sender =>
      simp only [step] at h
      split at h <;> cases h
  | close => cases h

/-- In every run, whatever datagrams are received, all requests go to the endpoint of the
    constructor exactly if none is sent when the last datagram has come from elsewhere. -/
theorem requests_to_prs_iff (e : Endian) (prs : ε) (events : List (Event ε)) :
    (∀ x ∈ Machine.trace (step e) (new prs) events, ∀ bytes endpoint,
        x.2 = .sent bytes endpoint → endpoint = prs) ↔
      ∀ before x after, Machine.trace (step e) (new prs) events = before ++ x :: after →
        (∃ bytes endpoint, x.2 = .sent bytes endpoint) →
        ∀ sender, lastSender before = some sender → sender = prs := by
  have hlast : ∀ before x after bytes endpoint,
      Machine.trace (step e) (new prs) events = before ++ x :: after →
      x.2 = .sent bytes endpoint → endpoint = (lastSender before).getD prs := by
    intro before x after bytes endpoint hsplit hsent
    obtain ⟨earlier, later, -, rfl, hx, -⟩ := Machine.trace_split (step e) hsplit
    have hfollows := Machine.trace_invariant (step e) (I := Follows prs)
      (fun log client event h => step_follows e h event) (new_follows prs) earlier
    exact hfollows endpoint (sent_to (hx.symm.trans hsent))
  constructor
  · rintro h before x after hsplit ⟨bytes, endpoint, hsent⟩ sender hsender
    have hmem : x ∈ Machine.trace (step e) (new prs) events := by
      rw [hsplit]
      exact List.mem_append_right _ List.mem_cons_self
    have hendpoint := hlast before x after bytes endpoint hsplit hsent
    rw [hsender, Option.getD_some] at hendpoint
    exact hendpoint.symm.trans (h x hmem bytes endpoint hsent)
  · intro h x hx bytes endpoint hsent
    obtain ⟨before, after, hsplit⟩ := List.append_of_mem hx
    rw [hlast before x after bytes endpoint hsplit hsent]
    cases hsender : lastSender before with
    | none => rfl
    | some sender => exact h before x after hsplit ⟨bytes, endpoint, hsent⟩ sender hsender

/-- The endpoint of the server is `true`. -/
def keptAlive (sender : Bool) : List (Event Bool × Record Bool) :=
  Machine.trace (step .little) (new true)
    [.call (.requestPort (lit "A")) false,
      .receive (0x05 :: 0x41 :: (List.replicate 49 0x00 ++ [0x9C, 0x40, 0x00])) sender,
      .call (.keepPortAlive (lit "A") 40000) false]

theorem requests_to_prs_iff_answered :
    (∀ x ∈ keptAlive true, ∀ bytes endpoint, x.2 = .sent bytes endpoint → endpoint = true) ↔
      ∀ before x after, keptAlive true = before ++ x :: after →
        (∃ bytes endpoint, x.2 = .sent bytes endpoint) →
        ∀ sender, lastSender before = some sender → sender = true :=
  requests_to_prs_iff .little true _

/-- A stray datagram is taken for the answer to a request, and the keep-alive goes to its
    sender. -/
theorem keep_alive_astray :
    (∃ event bytes, (event, .sent bytes false) ∈ keptAlive false) ∧
      ¬ ∀ x ∈ keptAlive false, ∀ bytes endpoint, x.2 = .sent bytes endpoint → endpoint = true := by
  have hastray : ∃ event bytes, (event, .sent bytes false) ∈ keptAlive false :=
    ⟨_, _, List.mem_cons_of_mem _ (List.mem_cons_of_mem _ List.mem_cons_self)⟩
  refine ⟨hastray, fun h => ?_⟩
  obtain ⟨event, bytes, hsent⟩ := hastray
  exact Bool.false_ne_true (h _ hsent bytes false rfl)

end NetServices.PRSEndpoint
