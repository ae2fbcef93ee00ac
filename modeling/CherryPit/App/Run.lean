import CherryPit.App.Dispatch
import CherryPit.Conc.Channel
import CherryPit.Conc.Run

/-!
# The dispatch loop

Port of `App::run`, `run_dispatch_consumer` and `enqueue_or_log` (`cherry-pit-app/src/app.rs`) and
of `publish` of `InProcessEventBus` (`event_bus.rs`): publishers put envelopes into a bounded
channel without waiting, one consumer dispatches them in order, and `run` waits for the consumer or
for the shutdown signal.

Rust → Lean: a state machine over the steps of any number of publishers, the consumer and `run`. It
starts when `run` has registered its handler. A call of `publish` holds a snapshot of the handlers,
and with it a sender, until it is done or panics; the consumer learns that the senders are gone only
when no such call is left and the bus has been dropped. The closures and the sink answer anything at
every dispatch. `run` may be dropped. The log lines are left out.

`System.published`, `accepted`, `started` and `dispatches` are there to speak about runs.
-/

namespace CherryPit.App

open Conc

variable {E O : Type}

/-- The consumer task. -/
inductive Consumer (E : Type) where
  | waiting
  | dispatching (envelope : EventEnvelope E)
  | finished (r : Except AgentError Unit)
  | panicked (envelope : EventEnvelope E) (error : String)

/-- What `run` makes of the consumer's end. -/
def Consumer.result : Consumer E → Option (Except AgentError Unit)
  | .waiting | .dispatching _ => none
  | .finished r => some r
  | .panicked _ error => some (.error (.store (.indeterminate error)))

/-- The envelope whose dispatch has started and not returned. -/
def Consumer.current : Consumer E → List (EventEnvelope E)
  | .waiting | .finished _ => []
  | .dispatching envelope | .panicked envelope _ => [envelope]

/-- Where `run` is. -/
inductive Progress where
  | selecting
  | joining
  | returned (r : Except AgentError Unit)
  | dropped

/-- `run` is at one of its awaits. -/
def Progress.Awaits (p : Progress) : Prop := p = .selecting ∨ p = .joining

/-- A dispatch that has returned. -/
structure Dispatched (E O : Type) where
  envelope : EventEnvelope E
  turns : List (Turn O)
  result : Except AgentError Unit

/-- The running application. `publishers` are the calls of `publish` in progress, with what they
have left to publish. -/
structure System (E O : Type) where
  channel : Channel (EventEnvelope E)
  busAlive : Bool
  publishers : Nat → Option (List (EventEnvelope E))
  consumer : Consumer E
  progress : Progress
  published : List (EventEnvelope E)
  accepted : List (EventEnvelope E)
  started : List (EventEnvelope E)
  dispatches : List (Dispatched E O)

/-- `run` has registered its handler. -/
def System.start (capacity : Nat) : System E O :=
  ⟨.new capacity, true, fun _ => none, .waiting, .selecting, [], [], [], []⟩

/-- Rust `enqueue_or_log`. -/
def System.enqueueOrLog (st : System E O) (envelope : EventEnvelope E) : System E O :=
  let sent := st.channel.trySend envelope
  { st with
    channel := sent.1
    published := st.published ++ [envelope]
    accepted := match sent.2 with
      | .ok () => st.accepted ++ [envelope]
      | .error _ => st.accepted }

/-- The end of the consumer, and with it of the receiver. -/
def System.stop (st : System E O) (consumer : Consumer E) : System E O :=
  { st with consumer := consumer, channel := st.channel.close }

/-- The body of the consumer's loop after `dispatch_one`. -/
def System.dispatched (st : System E O) (envelope : EventEnvelope E)
    (done : List (Turn O) × Except AgentError Unit) : System E O :=
  let st : System E O := { st with dispatches := st.dispatches ++ [⟨envelope, done.1, done.2⟩] }
  match done.2 with
  | .ok () => { st with consumer := .waiting }
  | .error err =>
    if err.category = .reconciliationRequired then st.stop (.finished (.error err))
    else { st with consumer := .waiting }

/-- What one step of the application does. -/
inductive Label (E : Type) where
  | publish (i : Nat) (batch : List (EventEnvelope E))
  | enqueue (envelope : EventEnvelope E) (answer : Except TrySendError Unit)
  | leave (i : Nat)
  | receive (envelope : EventEnvelope E)
  | dispatch (envelope : EventEnvelope E) (r : Except AgentError Unit)
  | panic (error : String)
  | drained
  | shutdown
  | returns (r : Except AgentError Unit)
  | drop

/-- Steps of the application. -/
inductive AppStep (policies : List (PolicyAdapter E O)) :
    System E O → Label E → System E O → Prop where
  -- `InProcessEventBus::publish`
  | publish {st i batch} :
    st.busAlive = true →
    st.publishers i = none →
    AppStep policies st (.publish i batch)
      { st with publishers := Function.update st.publishers i (some batch) }
  | enqueue {st i envelope rest} :
    st.publishers i = some (envelope :: rest) →
    AppStep policies st (.enqueue envelope (st.channel.trySend envelope).2)
      { st.enqueueOrLog envelope with
        publishers := Function.update st.publishers i (some rest) }
  | leave {st i batch} :
    st.publishers i = some batch →
    AppStep policies st (.leave i)
      { st with publishers := Function.update st.publishers i none }
  -- `run_dispatch_consumer`
  | receive {st envelope channel} :
    st.consumer = .waiting →
    st.channel.recv = some (envelope, channel) →
    AppStep policies st (.receive envelope)
      { st with
        channel := channel
        consumer := .dispatching envelope
        started := st.started ++ [envelope] }
  | dispatch {st envelope done} (closures : Nat → Nat → O → CorrelationContext →
      Except AgentError Unit) (deadLetter : Nat → DeadLetterSink) :
    st.consumer = .dispatching envelope →
    dispatchOne (policies.mapIdx fun i p => { p with closure := closures i }) envelope deadLetter =
      done →
    AppStep policies st (.dispatch envelope done.2) (st.dispatched envelope done)
  | panic {st envelope error} :
    st.consumer = .dispatching envelope →
    AppStep policies st (.panic error) (st.stop (.panicked envelope error))
  | drained {st} :
    st.consumer = .waiting →
    st.channel.queue = [] →
    st.busAlive = false →
    (∀ i, st.publishers i = none) →
    AppStep policies st .drained (st.stop (.finished (.ok ())))
  -- `App::run`
  | shutdown {st} :
    st.progress = .selecting →
    AppStep policies st .shutdown { st with progress := .joining, busAlive := false }
  | returns {st r} :
    st.progress.Awaits →
    st.consumer.result = some r →
    AppStep policies st (.returns r) { st with progress := .returned r, busAlive := false }
  | drop {st} :
    st.progress.Awaits →
    AppStep policies st .drop { st with progress := .dropped, busAlive := false }

/-! ## The invariant -/

/-- What holds in every state. -/
structure Inv (capacity : Nat) (st : System E O) : Prop where
  size : st.channel.capacity = capacity
  closed : st.channel.closed = true ↔ st.consumer.result ≠ none
  opened : st.channel.closed = false → st.accepted = st.started ++ st.channel.queue
  before : st.started <+: st.accepted
  accepted : st.accepted.Sublist st.published
  current : st.dispatches.map (·.envelope) ++ st.consumer.current = st.started
  drained : st.consumer = .finished (.ok ()) → st.accepted = st.started
  unknown : ∀ {n : Nat} {d err}, st.dispatches[n]? = some d → d.result = .error err →
    err.category = .reconciliationRequired →
      n + 1 = st.dispatches.length ∧ st.consumer = .finished (.error err)
  returned : ∀ {r}, st.progress = .returned r → st.consumer.result = some r

section Steps

variable {policies : List (PolicyAdapter E O)} {capacity : Nat} {st st' : System E O}
  {d : Dispatched E O} {n : Nat}

lemma Inv.start : Inv capacity (.start capacity : System E O) where
  size := rfl
  closed := iff_of_false nofun fun no => no rfl
  opened := fun _ => rfl
  before := List.prefix_rfl
  accepted := .slnil
  current := rfl
  drained := nofun
  unknown := nofun
  returned := nofun

/-- While the consumer goes on, the receiver is there. -/
lemma Inv.running (h : Inv capacity st) (none : st.consumer.result = none) :
    st.channel.closed = false :=
  Bool.eq_false_iff.mpr fun closed => h.closed.mp closed none

/-- While the consumer goes on, no outcome is unknown. -/
lemma Inv.known (h : Inv capacity st) (none : st.consumer.result = none) {d err}
    (at' : st.dispatches[n]? = some d) (failed : d.result = .error err) :
    err.category ≠ .reconciliationRequired := by
  intro e
  rw [(h.unknown at' failed e).2] at none
  cases none

/-- An element of a list with one more at its end. -/
lemma getElem?_snoc {α : Type} {xs : List α} {a b : α} (h : (xs ++ [a])[n]? = some b) :
    xs[n]? = some b ∨ n = xs.length ∧ b = a := by
  rw [List.getElem?_append] at h
  split_ifs at h with lt
  · exact .inl h
  · obtain ⟨lt', e⟩ := List.getElem?_eq_some_iff.mp h
    rw [List.length_singleton] at lt'
    exact .inr ⟨by omega, by simpa using e.symm⟩

/-- Rust `enqueue_or_log`. -/
lemma Inv.enqueueOrLog (h : Inv capacity st) (envelope : EventEnvelope E) :
    Inv capacity (st.enqueueOrLog envelope) := by
  rcases sent : (st.channel.trySend envelope).2 with why | ⟨⟨⟩⟩
  · obtain ⟨same, -⟩ := Channel.trySend_error sent
    simp only [System.enqueueOrLog, sent, same]
    exact { h with accepted := h.accepted.trans (List.sublist_append_left _ _) }
  · obtain ⟨opened, queue⟩ := Channel.trySend_ok sent
    simp only [System.enqueueOrLog, sent]
    exact { h with
      size := Channel.trySend_capacity.trans h.size
      closed := by rw [Channel.trySend_closed]; exact h.closed
      opened := fun _ => by rw [queue, h.opened opened, List.append_assoc]
      before := h.before.trans (List.prefix_append _ _)
      accepted := h.accepted.append_right _
      drained := fun finished => by
        -- a consumer that has ended has taken the receiver with it
        have closed := h.closed.mpr (by rw [finished]; nofun)
        cases opened.symm.trans closed }

lemma Inv.receive {envelope channel} (h : Inv capacity st) (waiting : st.consumer = .waiting)
    (recv : st.channel.recv = some (envelope, channel)) :
    Inv capacity { st with
      channel := channel
      consumer := .dispatching envelope
      started := st.started ++ [envelope] } := by
  obtain ⟨queue, closed, size⟩ := Channel.recv_some recv
  have none : st.consumer.result = none := by rw [waiting]; rfl
  have opened : st.accepted = st.started ++ [envelope] ++ channel.queue := by
    rw [h.opened (h.running none), queue, List.append_assoc, List.singleton_append]
  exact
    { size := size.trans h.size
      closed := iff_of_false (by rw [closed, h.running none]; nofun) fun no => no rfl
      opened := fun _ => opened
      before := ⟨channel.queue, opened.symm⟩
      accepted := h.accepted
      current := by
        have current := h.current
        rw [waiting, Consumer.current, List.append_nil] at current
        rw [current]
        rfl
      drained := nofun
      unknown := fun at' failed e => absurd e (h.known none at' failed)
      returned := fun returned => by cases (h.returned returned).symm.trans none }

/-- The envelopes of the dispatches after another one has returned. -/
lemma Inv.current_snoc (h : Inv capacity st) (dispatching : st.consumer = .dispatching d.envelope) :
    (st.dispatches ++ [d]).map (·.envelope) = st.started := by
  have current := h.current
  rw [dispatching] at current
  rw [List.map_append]
  exact current

/-- A dispatch returns and the consumer goes on. -/
lemma Inv.goesOn (h : Inv capacity st) (dispatching : st.consumer = .dispatching d.envelope)
    (known : ∀ err, d.result = .error err → err.category ≠ .reconciliationRequired) :
    Inv capacity { st with dispatches := st.dispatches ++ [d], consumer := .waiting } := by
  have none : st.consumer.result = none := by rw [dispatching]; rfl
  exact
    { size := h.size
      closed := iff_of_false (by rw [h.running none]; nofun) fun no => no rfl
      opened := h.opened
      before := h.before
      accepted := h.accepted
      current := (List.append_nil _).trans (h.current_snoc dispatching)
      drained := nofun
      unknown := fun at' failed e => by
        rcases getElem?_snoc at' with old | ⟨-, rfl⟩
        · exact absurd e (h.known none old failed)
        · exact absurd e (known _ failed)
      returned := fun returned => by cases (h.returned returned).symm.trans none }

/-- A dispatch returns an unknown outcome and the consumer ends. -/
lemma Inv.stopsUnknown {err} (h : Inv capacity st)
    (dispatching : st.consumer = .dispatching d.envelope) (failed : d.result = .error err) :
    Inv capacity (System.stop { st with dispatches := st.dispatches ++ [d] }
      (.finished (.error err))) := by
  have none : st.consumer.result = none := by rw [dispatching]; rfl
  exact
    { size := h.size
      closed := iff_of_true rfl nofun
      opened := nofun
      before := h.before
      accepted := h.accepted
      current := (List.append_nil _).trans (h.current_snoc dispatching)
      drained := nofun
      unknown := fun at' failed' e => by
        rcases getElem?_snoc at' with old | ⟨last, same⟩
        · exact absurd e (h.known none old failed')
        · rw [same] at failed'
          cases failed'.symm.trans failed
          refine ⟨?_, rfl⟩
          rw [last]
          show st.dispatches.length + 1 = (st.dispatches ++ [d]).length
          rw [List.length_append, List.length_singleton]
      returned := fun returned => by cases (h.returned returned).symm.trans none }

lemma Inv.dispatched {envelope done} (h : Inv capacity st)
    (dispatching : st.consumer = .dispatching envelope) :
    Inv capacity (st.dispatched envelope done) := by
  unfold System.dispatched
  dsimp only
  split
  case h_1 ok => exact h.goesOn dispatching fun err failed => by cases ok.symm.trans failed
  case h_2 err failed =>
    split_ifs with e
    · exact h.stopsUnknown dispatching failed
    · refine h.goesOn dispatching fun err' failed' => ?_
      cases failed.symm.trans failed'
      exact e

/-- The consumer ends otherwise. -/
lemma Inv.stops {consumer : Consumer E} (h : Inv capacity st) (running : st.consumer.result = none)
    (ended : consumer.result ≠ none) (current : consumer.current = st.consumer.current)
    (drained : consumer = .finished (.ok ()) → st.accepted = st.started) :
    Inv capacity (st.stop consumer) where
  size := h.size
  closed := iff_of_true rfl ended
  opened := nofun
  before := h.before
  accepted := h.accepted
  current := (congrArg _ current).trans h.current
  drained := drained
  unknown := fun at' failed e => absurd e (h.known running at' failed)
  returned := fun returned => by cases (h.returned returned).symm.trans running

/-- The invariant is kept. -/
lemma Inv.step {l} (h : Inv capacity st) (step : AppStep policies st l st') :
    Inv capacity st' := by
  cases step with
  | publish => exact { h with }
  | enqueue => exact { h.enqueueOrLog _ with }
  | leave => exact { h with }
  | receive waiting recv => exact h.receive waiting recv
  | dispatch closures deadLetter dispatching done => exact h.dispatched dispatching
  | panic dispatching =>
    refine h.stops (by rw [dispatching]; rfl) nofun ?_ nofun
    rw [dispatching]
    rfl
  | drained waiting empty =>
    have running : st.consumer.result = none := by rw [waiting]; rfl
    refine h.stops running nofun ?_ fun _ => ?_
    · rw [waiting]
      rfl
    · rw [h.opened (h.running running), empty, List.append_nil]
  | shutdown => exact { h with returned := nofun }
  | returns awaits ended => exact { h with returned := fun e => by cases e; exact ended }
  | drop => exact { h with returned := nofun }

/-- The dispatch loop, for every capacity, whatever is published and in whatever order publishers,
consumer and shutdown take their steps. The envelopes whose dispatch has started are a subsequence
of the published ones. One is not accepted only if the channel holds `capacity` envelopes or the
consumer has ended. After an unknown outcome no other dispatch has started, `run` can return, and
what it returns is that error. If `run` has returned `Ok`, every accepted envelope was
dispatched. -/
theorem dispatch_in_order {tr} (run : Run (AppStep policies) (.start capacity) tr st) :
    st.started.Sublist st.published ∧
    (∀ envelope why st', AppStep policies st (.enqueue envelope (.error why)) st' →
      st.channel.queue.length = capacity ∨ st.consumer.result ≠ none) ∧
    (∀ (n : Nat) d err, st.dispatches[n]? = some d → d.result = .error err →
      err.category = .reconciliationRequired →
      n + 1 = st.started.length ∧ st.started = st.dispatches.map (·.envelope) ∧
      (∀ r, st.progress = .returned r → r = .error err) ∧
      (st.progress.Awaits → ∃ st', AppStep policies st (.returns (.error err)) st')) ∧
    (st.progress = .returned (.ok ()) →
      st.started = st.accepted ∧ st.dispatches.map (·.envelope) = st.accepted) := by
  have h : Inv capacity st := run.invariant (fun h step => h.step step) .start
  refine ⟨h.before.sublist.trans h.accepted, ?_, ?_, ?_⟩
  · intro envelope why st' step
    generalize e : (Except.error why : Except TrySendError Unit) = answer at step
    cases step with
    | enqueue at' =>
      rcases (Channel.trySend_error e.symm).2 with closed | full
      · exact .inr (h.closed.mp closed)
      · exact .inl (full.trans h.size)
  · intro n d err at' failed e
    obtain ⟨last, finished⟩ := h.unknown at' failed e
    have ended : st.consumer.result = some (.error err) := by rw [finished]; rfl
    have current := h.current
    rw [finished, Consumer.current, List.append_nil] at current
    refine ⟨?_, current.symm, fun r returned => ?_, fun awaits => ⟨_, .returns awaits ended⟩⟩
    · rw [← current, List.length_map, last]
    · exact Option.some.inj ((h.returned returned).symm.trans ended)
  · intro returned
    have finished : st.consumer = .finished (.ok ()) := by
      have ended := h.returned returned
      generalize st.consumer = consumer at ended
      cases consumer <;> cases ended
      rfl
    have current := h.current
    rw [finished, Consumer.current, List.append_nil] at current
    have all := h.drained finished
    exact ⟨all.symm, current.trans all.symm⟩

end Steps

/-- Three envelopes are published. The first two are dispatched and drained, the third finds the
channel full. -/
theorem dispatch_in_order_drained : ∃ tr st,
    Run (AppStep [notifier [7] fun _ => .ok ()]) (.start 1) tr st ∧
    st.progress = .returned (.ok ()) ∧ st.published.map (·.eventId) = [1, 2, 3] ∧
    st.accepted.map (·.eventId) = [1, 2] ∧ st.started = st.accepted ∧
    st.dispatches.map (·.turns.map (·.invocations.map (·.output))) = [[[7]], [[7]]] := by
  have publish : AppStep [notifier [7] fun _ => .ok ()] (.start 1)
      (.publish 0 [sample, { sample with eventId := 2 }, { sample with eventId := 3 }]) _ :=
    .publish rfl rfl
  have full : Run (AppStep [notifier [7] fun _ => .ok ()]) (.start 1) _ _ :=
    .cons publish <| .cons (.enqueue (i := 0) rfl) <| .cons (.receive rfl rfl) <|
    .cons (.enqueue (i := 0) rfl) <| .cons (.enqueue (i := 0) rfl) <|
    .cons (.leave (i := 0) rfl) .nil
  have dispatched := full.append <|
    .cons (.dispatch (fun _ _ _ _ => .ok ()) (fun _ _ => .ok ()) rfl rfl) <|
    .cons (.receive rfl rfl) <|
    .cons (.dispatch (fun _ _ _ _ => .ok ()) (fun _ _ => .ok ()) rfl rfl) <|
    .cons (.shutdown rfl) .nil
  have run := dispatched.append <| .cons (.drained rfl rfl rfl fun i => ?_) <|
    .cons (.returns (.inr rfl) rfl) .nil
  · exact ⟨_, _, run, rfl, rfl, rfl, ((dispatch_in_order run).2.2.2 rfl).1, rfl⟩
  · cases i with
    | zero => rfl
    | succ i => rfl

end CherryPit.App
