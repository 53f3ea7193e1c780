import NetServices.PRSClient

set_option autoImplicit false

/-!
# Closing a port while its keep-alive loop runs

`KeepPortAlive` and `ClosePort` for one service and one port on two threads. What a
thread does under `socketLock` is one step. The loop tests its token before it takes
the lock, and `ClosePort` cancels the token after it has given the lock back, and
only if it has received `SUCCESS`, which the PRS can have answered all the same.
-/
namespace NetServices.PRSKeepAlive
open ByteOrder (Endian)
open PRSClient (Call)
open Utf16 (Str lit)

/-- Where the loop of `KeepPortAlive` stands: before its first test, before a test, between
    a test and the lock, in its delay, or past its end. -/
inductive Loop where
  | starting
  | testing
  | locking
  | delaying
  | ended
deriving DecidableEq

/-- Where `ClosePort` stands: not past its lock, before it cancels the token, waiting for the
    loop, or past its end. A call that raises can be made again. -/
inductive Close where
  | calling
  | cancelling
  | waiting
  | closed
deriving DecidableEq

structure Threads where
  loop : Loop
  close : Close
  /-- A `CLOSE_PORT` has been sent. -/
  requested : Bool
  /-- The PRS has answered it with `SUCCESS`. -/
  answered : Bool
deriving DecidableEq

/-- The loop runs, and `ClosePort` has not been called. -/
def running (loop : Loop) : Threads := ⟨loop, .calling, false, false⟩

/-- The token of the loop. -/
def Threads.cancelled (threads : Threads) : Bool :=
  threads.close = .waiting || threads.close = .closed

/-- What becomes of a request, and what is received after it. -/
inductive Exchanged where
  | sendFails
  | receiveFails
  | received (response : PRSMessage)
deriving DecidableEq

inductive Event where
  | start
  | test
  | keepAlive (exchanged : Exchanged)
  | delayEnds
  /-- By the end of the section the PRS has answered `SUCCESS` or not. The answer need not be
      what is received. -/
  | closePort (exchanged : Exchanged) (answered : Bool)
  /-- The PRS answers `SUCCESS` to a close whose section has ended. -/
  | answer
  | cancel
  | finish
deriving DecidableEq

inductive Record where
  | keptAlive (bytes : List UInt8)
  | closed
  | other
deriving DecidableEq

/-- The bytes of the request of a call, if they are sent. -/
def sent (e : Endian) (call : Call) : Exchanged → Option (List UInt8)
  | .sendFails => none
  | _ => call.exchange.request.getBytes e

section
variable (e : Endian) (serviceName : Str) (port : UInt16)

/-- Where `ClosePort` stands after what it has received. -/
def closing : Exchanged → Close
  | .received response =>
    match (PRSClient.closePort serviceName port).outcome response with
    | .ok _ => .cancelling
    | .error _ => .calling
  | _ => .calling

/-- A step of a thread that stands elsewhere does nothing. -/
def step (threads : Threads) : Event → Record × Threads
  | .start =>
    if threads.loop = .starting then
      (.other, { threads with loop := if threads.cancelled then .ended else .testing })
    else (.other, threads)
  | .test =>
    if threads.loop = .testing then
      (.other, { threads with loop := if threads.cancelled then .ended else .locking })
    else (.other, threads)
  | .keepAlive exchanged =>
    if threads.loop = .locking then
      match sent e (.keepPortAlive serviceName port) exchanged, exchanged with
      | some bytes, .received _ => (.keptAlive bytes, { threads with loop := .delaying })
      -- an exception is only logged, and the loop goes on without its delay
      | some bytes, _ => (.keptAlive bytes, { threads with loop := .testing })
      | none, _ => (.other, { threads with loop := .testing })
    else (.other, threads)
  | .delayEnds =>
    if threads.loop = .delaying then
      (.other, { threads with loop := if threads.cancelled then .ended else .testing })
    else (.other, threads)
  | .closePort exchanged answered =>
    if threads.close = .calling then
      match sent e (.closePort serviceName port) exchanged with
      | none => (.other, threads)
      | some _ => (if answered then .closed else .other, { threads with
          close := closing serviceName port exchanged
          requested := true
          answered := threads.answered || answered })
    else (.other, threads)
  | .answer =>
    if threads.requested then (.closed, { threads with answered := true }) else (.other, threads)
  | .cancel =>
    if threads.close = .cancelling then (.other, { threads with close := .waiting })
    else (.other, threads)
  | .finish =>
    if threads.close = .waiting ∧ threads.loop = .ended then
      (.other, { threads with close := .closed })
    else (.other, threads)

/-- Once the close has been answered, the next step is no keep-alive. -/
def Silent (threads : Threads) : Prop :=
  threads.answered = true →
    ∀ event bytes, (step e serviceName port threads event).1 ≠ .keptAlive bytes

/-- The answer does not come while the loop is between its test and the lock, and after the
    answer the loop does not test its token before the cancellation. -/
def Timely (threads : Threads) (event : Event) : Prop :=
  ((step e serviceName port threads event).1 = .closed → threads.loop ≠ .locking) ∧
    (event = .test → threads.loop = .testing → threads.answered = true →
      threads.cancelled = true)

/-- Only a close that was sent is answered; it could be encoded, and so can a keep-alive. -/
structure Encoded (threads : Threads) : Prop where
  requested : threads.answered = true → threads.requested = true
  keepAlive : threads.requested = true →
    ∃ bytes, (Call.keepPortAlive serviceName port).exchange.request.getBytes e = some bytes

variable {e serviceName port} {threads : Threads}

theorem keepAlive_encoded {bytes : List UInt8}
    (h : (Call.closePort serviceName port).exchange.request.getBytes e = some bytes) :
    ∃ bytes, (Call.keepPortAlive serviceName port).exchange.request.getBytes e = some bytes := by
  refine Option.ne_none_iff_exists'.mp fun hnone => ?_
  have hlong := (PRSMessage.getBytes_eq_none_iff e _).mp hnone
  have hclose := (PRSMessage.getBytes_eq_none_iff e
    (Call.closePort serviceName port).exchange.request).mpr hlong
  rw [hclose] at h
  cases h

theorem sent_eq_some {call : Call} {exchanged : Exchanged} {bytes : List UInt8}
    (h : sent e call exchanged = some bytes) : call.exchange.request.getBytes e = some bytes := by
  cases exchanged with
  | sendFails => cases h
  | receiveFails => exact h
  | received response => exact h

variable (e serviceName port threads) in
/-- The close leaves the threads, or has been sent, and the loop stands where it stood. -/
theorem closePort_cases (exchanged : Exchanged) (answered : Bool) :
    step e serviceName port threads (.closePort exchanged answered) = (.other, threads) ∨
      step e serviceName port threads (.closePort exchanged answered) =
          (if answered then .closed else .other, { threads with
            close := closing serviceName port exchanged
            requested := true
            answered := threads.answered || answered }) ∧
        ∃ bytes, (Call.closePort serviceName port).exchange.request.getBytes e = some bytes := by
  simp only [step]
  by_cases hcalling : threads.close = .calling
  · rw [if_pos hcalling]
    cases hsent : sent e (.closePort serviceName port) exchanged with
    | none => exact .inl rfl
    | some bytes => exact .inr ⟨rfl, bytes, sent_eq_some hsent⟩
  · rw [if_neg hcalling]
    exact .inl rfl

variable (e serviceName port threads) in
/-- Only a close that is sent or answered changes what has been sent and answered. -/
theorem step_kept {event : Event}
    (hclose : ∀ exchanged answered, event ≠ .closePort exchanged answered)
    (hanswer : event ≠ .answer) :
    (step e serviceName port threads event).2.requested = threads.requested ∧
      (step e serviceName port threads event).2.answered = threads.answered ∧
      (step e serviceName port threads event).1 ≠ .closed := by
  cases event with
  | closePort exchanged answered => exact absurd rfl (hclose exchanged answered)
  | answer => exact absurd rfl hanswer
  | keepAlive exchanged =>
    simp only [step]
    split_ifs
    · split <;> exact ⟨rfl, rfl, nofun⟩
    · exact ⟨rfl, rfl, nofun⟩
  | start | test | delayEnds | cancel | finish =>
    simp only [step]
    split_ifs <;> exact ⟨rfl, rfl, nofun⟩

theorem step_encoded (h : Encoded e serviceName port threads) (event : Event) :
    Encoded e serviceName port (step e serviceName port threads event).2 := by
  by_cases hclose : ∃ exchanged answered, event = .closePort exchanged answered
  · obtain ⟨exchanged, answered, rfl⟩ := hclose
    rcases closePort_cases e serviceName port threads exchanged answered with
      hsame | ⟨hsent, bytes, hbytes⟩
    · rw [hsame]
      exact h
    · rw [hsent]
      exact ⟨fun _ => rfl, fun _ => keepAlive_encoded hbytes⟩
  · by_cases hanswer : event = .answer
    · subst hanswer
      simp only [step]
      split_ifs with hrequested
      · exact ⟨fun _ => hrequested, h.keepAlive⟩
      · exact h
    · obtain ⟨hrequested, hanswered, -⟩ := step_kept e serviceName port threads
        (fun exchanged answered heq => hclose ⟨exchanged, answered, heq⟩) hanswer
      refine ⟨?_, ?_⟩
      · rw [hanswered, hrequested]
        exact h.requested
      · rw [hrequested]
        exact h.keepAlive

/-- An answer is remembered. -/
theorem step_answered {event : Event} (h : threads.answered = true ∨
    (step e serviceName port threads event).1 = .closed) :
    (step e serviceName port threads event).2.answered = true := by
  by_cases hclose : ∃ exchanged answered, event = .closePort exchanged answered
  · obtain ⟨exchanged, answered, rfl⟩ := hclose
    rcases closePort_cases e serviceName port threads exchanged answered with
      hsame | ⟨hsent, -⟩
    · rw [hsame] at h ⊢
      exact h.resolve_right fun hother => by cases hother
    · rw [hsent] at h ⊢
      cases answered with
      | true => exact Bool.or_true _
      | false => exact (Bool.or_false _).trans (h.resolve_right fun hother => by cases hother)
  · by_cases hanswer : event = .answer
    · subst hanswer
      simp only [step] at h ⊢
      split_ifs at h ⊢ with hrequested
      · rfl
      · exact h.resolve_right fun hother => by cases hother
    · obtain ⟨-, hanswered, hother⟩ := step_kept e serviceName port threads
        (fun exchanged answered heq => hclose ⟨exchanged, answered, heq⟩) hanswer
      exact hanswered.trans (h.resolve_right hother)

theorem loop_of_keptAlive {event : Event} {bytes : List UInt8}
    (h : (step e serviceName port threads event).1 = .keptAlive bytes) :
    threads.loop = .locking := by
  cases event with
  | keepAlive exchanged =>
    by_contra hloop
    simp only [step, if_neg hloop] at h
    cases h
  | closePort exchanged answered =>
    rcases closePort_cases e serviceName port threads exchanged answered with
      hsame | ⟨hsent, -⟩
    · rw [hsame] at h
      cases h
    · rw [hsent] at h
      cases answered <;> cases h
  | _ =>
    simp only [step] at h
    split_ifs at h

/-- Once the close has been answered, the loop is not about to take the lock. -/
def Clear (threads : Threads) : Prop := threads.answered = true → threads.loop ≠ .locking

theorem silent_iff (h : Encoded e serviceName port threads) :
    Silent e serviceName port threads ↔ Clear threads := by
  constructor
  · intro hsilent hanswered hloop
    obtain ⟨bytes, hbytes⟩ := h.keepAlive (h.requested hanswered)
    refine hsilent hanswered (.keepAlive .receiveFails) bytes ?_
    simp only [step, sent, hloop, hbytes, if_true]
  · intro hclear hanswered event bytes hkept
    exact hclear hanswered (loop_of_keptAlive hkept)

/-- A loop that stands elsewhere than between its test and the lock is clear. -/
theorem clear_loop (threads : Threads) {loop : Loop} (h : loop ≠ .locking) :
    Clear { threads with loop := loop } :=
  fun _ => h

theorem step_clear_iff (h : Clear threads) (event : Event) :
    Clear (step e serviceName port threads event).2 ↔ Timely e serviceName port threads event := by
  -- only the answer to the close and a test can be untimely
  have quiet : (∀ exchanged answered, event ≠ .closePort exchanged answered) →
      event ≠ .answer → event ≠ .test → Timely e serviceName port threads event := by
    intro hclose hanswer htest
    have hother := (step_kept e serviceName port threads hclose hanswer).2.2
    exact ⟨fun hclosed => absurd hclosed hother, fun hevent => absurd hevent htest⟩
  cases event with
  | start | delayEnds =>
    refine iff_of_true ?_ (quiet (by simp) (by simp) (by simp))
    simp only [step]
    split_ifs
    · exact clear_loop threads (by decide)
    · exact clear_loop threads (by decide)
    · exact h
  | keepAlive exchanged =>
    refine iff_of_true ?_ (quiet (by simp) (by simp) (by simp))
    simp only [step]
    split_ifs
    · split <;> exact clear_loop threads (by decide)
    · exact h
  | closePort exchanged answered =>
    rcases closePort_cases e serviceName port threads exchanged answered with
      hsame | ⟨hsent, -⟩
    · rw [Timely, hsame]
      exact iff_of_true h ⟨by simp, by simp⟩
    · rw [Timely, hsent]
      cases answered with
      | true => simp [Clear]
      | false => simpa [Clear] using h
  | answer =>
    simp only [Timely, step]
    split_ifs with hrequested
    · simp [Clear]
    · simpa [Clear] using h
  | cancel | finish =>
    refine iff_of_true ?_ (quiet (by simp) (by simp) (by simp))
    simp only [step]
    split_ifs <;> exact h
  | test =>
    simp only [Timely, step]
    by_cases hloop : threads.loop = .testing
    · rw [if_pos hloop]
      cases hcancelled : threads.cancelled <;> simp [Clear, hloop]
    · rw [if_neg hloop]
      exact iff_of_true h ⟨by simp, fun _ htesting => absurd htesting hloop⟩

end

section
variable (e : Endian) (serviceName : Str) (port : UInt16) (loop : Loop) (events : List Event)

theorem answered_of_closed (threads : Threads) :
    (∃ x ∈ Machine.trace (step e serviceName port) threads events, x.2 = .closed) →
      (Machine.final (step e serviceName port) threads events).answered = true := by
  refine Machine.trace_invariant (step e serviceName port)
    (I := fun log threads => (∃ x ∈ log, x.2 = .closed) → threads.answered = true)
    ?_ (fun ⟨x, hx, _⟩ => by cases hx) events
  rintro log threads event h ⟨x, hx, hclosed⟩
  rcases List.mem_append.mp hx with hx | hx
  · exact step_answered (.inl (h ⟨x, hx, hclosed⟩))
  · rw [List.eq_of_mem_singleton hx] at hclosed
    exact step_answered (.inr hclosed)

/-- In every run of the two threads, whatever the network does, no keep-alive can follow the
    answer to the close exactly if the answer and the tests of the loop are timely. Then none
    follows it in the run. -/
theorem keep_alives_end_iff :
    ((∀ before, before <+: events → Silent e serviceName port
        (Machine.final (step e serviceName port) (running loop) before)) ↔
      Machine.Every (step e serviceName port) (Timely e serviceName port) (running loop)
        events) ∧
    (Machine.Every (step e serviceName port) (Timely e serviceName port) (running loop)
        events →
      ∀ before x after, Machine.trace (step e serviceName port) (running loop) events =
        before ++ x :: after → x.2 = .closed → ∀ y ∈ after, ∀ bytes, y.2 ≠ .keptAlive bytes) := by
  have hencoded := Machine.final_invariant (step e serviceName port)
    (I := Encoded e serviceName port) (fun threads event h => step_encoded h event)
    (s := running loop) ⟨by simp [running], by simp [running]⟩
  have hiff : (∀ before, before <+: events → Silent e serviceName port
        (Machine.final (step e serviceName port) (running loop) before)) ↔
      Machine.Every (step e serviceName port) (Timely e serviceName port) (running loop)
        events := by
    rw [← Machine.prefixes_iff_every (step e serviceName port) (I := Clear)
      (fun threads event h => step_clear_iff h event) (by simp [Clear, running])]
    exact forall_congr' fun before => imp_congr_right fun _ => silent_iff (hencoded before)
  refine ⟨hiff, fun htimely before x after hsplit hclosed y hy bytes hkept => ?_⟩
  obtain ⟨between, rest, rfl⟩ := List.append_of_mem hy
  rw [← List.cons_append, ← List.append_assoc] at hsplit
  obtain ⟨earlier, later, rfl, hearlier, hstep, -⟩ :=
    Machine.trace_split (step e serviceName port) hsplit
  have hanswered := answered_of_closed e serviceName port earlier (running loop)
    ⟨x, by rw [hearlier]; exact List.mem_append_right _ List.mem_cons_self, hclosed⟩
  exact hiff.mpr htimely earlier (List.prefix_append _ _) hanswered y.1 bytes
    (hstep.symm.trans hkept)

end

/-- The close is answered while the loop is in its delay, and the loop tests its token after
    the cancellation. -/
theorem keep_alives_end_iff_delaying :
    let events : List Event := [.test, .keepAlive .receiveFails, .test,
      .keepAlive (.received ⟨.response, lit "A", 40000, .success⟩),
      .closePort (.received ⟨.response, lit "A", 40000, .success⟩) true, .delayEnds, .cancel,
      .test, .finish]
    ((∀ before, before <+: events → Silent .little (lit "A") 40000
        (Machine.final (step .little (lit "A") 40000) (running .testing) before)) ↔
      Machine.Every (step .little (lit "A") 40000) (Timely .little (lit "A") 40000)
        (running .testing) events) ∧
    ∀ before x after, Machine.trace (step .little (lit "A") 40000) (running .testing) events =
      before ++ x :: after → x.2 = .closed → ∀ y ∈ after, ∀ bytes, y.2 ≠ .keptAlive bytes := by
  intro events
  obtain ⟨hiff, hends⟩ := keep_alives_end_iff .little (lit "A") 40000 .testing events
  refine ⟨hiff, hends ?_⟩
  refine ⟨⟨?_, ?_⟩, ⟨?_, ?_⟩, ⟨?_, ?_⟩, ⟨?_, ?_⟩, ⟨?_, ?_⟩, ⟨?_, ?_⟩, ⟨?_, ?_⟩, ⟨?_, ?_⟩,
    ⟨?_, ?_⟩, trivial⟩
  all_goals decide +kernel

/-- The loop has tested its token and waits for the lock while the port is closed. Another
    process gets the port under the same name, and the keep-alive refreshes its reservation. -/
theorem keep_alive_after_close :
    let prs : PRS := ⟨40000, 40000, 10, [(PortReservation.new 40000).reserve (lit "A") 0], false⟩
    let closed := prs.handleMessage 1 ⟨.closePort, lit "A", 40000, .success⟩
    let granted := closed.2.handleMessage 2 ⟨.requestPort, lit "A", 0, .success⟩
    ∃ response bytes kept, closed.1 = some response ∧ response.status = .success ∧
      (Machine.trace (step .little (lit "A") 40000) (running .testing)
        [.test, .closePort (.received response) true, .keepAlive .receiveFails]).map Prod.snd =
          [.other, .closed, .keptAlive bytes] ∧
      granted.2.ports = [(PortReservation.new 40000).reserve (lit "A") 2] ∧
      granted.2.handleMessage 9 (PRSMessage.ofBytes .little (PRSServer.buffer bytes)) = kept ∧
      kept.2.ports = [(PortReservation.new 40000).reserve (lit "A") 9] := by
  intro prs closed granted
  exact ⟨_, _, _, rfl, rfl, rfl, rfl, rfl, by decide +kernel⟩

end NetServices.PRSKeepAlive
