import CherryPit.Conc.Broadcast
import CherryPit.Conc.Run

/-!
# A projection's WebSocket session

Port of `KeepaliveState`, `send_with_timeout`, `best_effort_close`, `best_effort_flush` and
`ws_session_loop` (`cherry-pit-web/src/projection/handlers.rs`): a session subscribes to the updates
of a projection, greets its client, and then waits for whichever comes first of a frame from the
client, an update, a tick of the ping interval and the deadline of an unanswered ping.

Rust → Lean: a state machine whose labels are what happens at the session's borders. The interval
and the deadline may fire whenever the code waits for them, every frame may be sent, fail or time
out, the client may send anything, and a reading of the clock may give any instant. The source may
publish at any time and may be dropped.
-/

namespace CherryPit.Web

open Conc

/-! ## Messages -/

/-- Rust `CloseFrame`. -/
structure CloseFrame where
  code : Nat
  reason : String
  deriving DecidableEq

/-- Rust `Message`. -/
inductive Message where
  | text (payload : String)
  | binary (payload : List UInt8)
  | ping (payload : List UInt8)
  | pong (payload : List UInt8)
  | close (frame : Option CloseFrame)
  deriving DecidableEq

/-- Rust `PageUpdate`. -/
structure PageUpdate where
  pages : List String
  json : String

def connectedFrame : Message :=
  .text "\x7b\"v\":1,\"type\":\"connected\"\x7d"

def wsCloseGoingAway : Nat := 1001

/-! ## Keepalive -/

/-- Rust `KeepaliveState`. -/
structure KeepaliveState where
  pongDeadline : Option Nat
  pongDuration : Nat

namespace KeepaliveState

def new (pongDuration : Nat) : KeepaliveState :=
  ⟨none, pongDuration⟩

def armPing (k : KeepaliveState) (now : Nat) : KeepaliveState :=
  { k with pongDeadline := some (now + k.pongDuration) }

def isExpired (k : KeepaliveState) (now : Nat) : Bool :=
  match k.pongDeadline with
  | some deadline => deadline ≤ now
  | none => false

/-- The state afterwards, and whether the pong was in time. -/
def recordPong (k : KeepaliveState) (now : Nat) : KeepaliveState × Bool :=
  if k.isExpired now then (k, false) else ({ k with pongDeadline := none }, true)

def deadline (k : KeepaliveState) : Option Nat :=
  k.pongDeadline

end KeepaliveState

/-! ## The session -/

/-- What `send_with_timeout` is called with. -/
inductive Frame where
  | connected
  | update (u : PageUpdate)
  | ping

def Frame.message : Frame → Message
  | .connected => connectedFrame
  | .update u => .text u.json
  | .ping => .ping []

/-- Where `best_effort_close` is called. -/
inductive Closing where
  | lagged
  | final

def Closing.frame : Closing → Option CloseFrame
  | .lagged => some ⟨wsCloseGoingAway, "lagged; resync via snapshot"⟩
  | .final => none

/-- Where the session is. -/
inductive Phase where
  | entry
  /-- In `send_with_timeout`, before the clock is read. -/
  | send (frame : Frame) (deadline : Option Nat)
  /-- In `send_with_timeout`, waiting for the sink. -/
  | sending (frame : Frame)
  | firstTick
  | selecting
  | flushing
  /-- In `best_effort_close`. -/
  | close (site : Closing)
  /-- In `best_effort_close`, waiting for the sink. -/
  | closing (site : Closing)
  | done

/-- How a call of the sink ends. -/
inductive Outcome where
  | ok
  | failed
  | timedOut
  deriving DecidableEq

/-- A session and its source. `unread` is what its receiver has not read yet. -/
structure Session where
  phase : Phase
  unread : Option (List PageUpdate)
  sourceOpen : Bool
  keepalive : KeepaliveState
  sentClose : Bool

namespace Session

/-- Before the first step of `ws_session_loop`. -/
def start (pongDuration : Nat) : Session :=
  ⟨.entry, none, true, .new pongDuration, false⟩

/-- What follows the loop. -/
def leave (st : Session) : Session :=
  { st with phase := if st.sentClose then .done else .close .final }

/-- The loop is left after a close was sent, or when none can be. -/
def leaveClosed (st : Session) : Session :=
  { st with sentClose := true }.leave

/-- What follows `send_with_timeout`. -/
def afterSend (st : Session) (frame : Frame) (sent : Bool) (now : Nat) : Session :=
  match frame with
  | .connected => { st with phase := if sent then .firstTick else .done }
  | .update _ => if sent then { st with phase := .selecting } else st.leaveClosed
  | .ping =>
    if sent then { st with phase := .selecting, keepalive := st.keepalive.armPing now }
    else st.leaveClosed

/-- What follows `best_effort_close`. -/
def afterClose (st : Session) : Closing → Session
  | .lagged => st.leaveClosed
  | .final => { st with phase := .done }

/-- What follows a frame from the client, the end of its stream being `none`. -/
def afterReceive (st : Session) (msg : Option (Except Unit Message)) (now : Nat) : Session :=
  match msg with
  | some (.ok (.pong _)) =>
    let (keepalive, inTime) := st.keepalive.recordPong now
    if inTime then { st with keepalive := keepalive } else { st with keepalive := keepalive }.leave
  | some (.ok (.close _)) => { st with phase := .flushing }
  | some (.error _) | none => st.leaveClosed
  | some (.ok _) => st

/-- What follows an answer of the broadcast channel. -/
def afterRecv (st : Session) : Received PageUpdate → Session
  | .ok u => { st with phase := .send (.update u) st.keepalive.deadline }
  | .lagged _ => { st with phase := .close .lagged }
  | .closed => st.leave

/-- What follows a tick of the ping interval. -/
def afterTick (st : Session) : Session :=
  if st.keepalive.deadline.isSome then st else { st with phase := .send .ping none }

end Session

/-- What happens at the borders of a session. -/
inductive Label where
  | publish (u : PageUpdate)
  | dropSource
  | subscribe
  /-- A frame is handed to the sink. -/
  | attempt (m : Message)
  | sent (outcome : Outcome)
  /-- The deadline had passed before the frame was handed to the sink. -/
  | expired
  | firstTick
  | receive (msg : Option (Except Unit Message))
  | flush (outcome : Outcome)
  | recv (r : Received PageUpdate)
  | tick
  | pongDeadline

/-- Steps of a session and its source. -/
inductive SessionStep : Session → Label → Session → Prop where
  | publish {st u} :
    st.sourceOpen = true →
    SessionStep st (.publish u) { st with unread := st.unread.map (· ++ [u]) }
  | dropSource {st} :
    SessionStep st .dropSource { st with sourceOpen := false }
  | subscribe {st} :
    st.phase = .entry →
    SessionStep st .subscribe { st with unread := some [], phase := .send .connected none }
  -- `send_with_timeout`
  | attempt {st frame deadline now} :
    st.phase = .send frame deadline →
    (∀ d ∈ deadline, now < d) →
    SessionStep st (.attempt frame.message) { st with phase := .sending frame }
  | expired {st frame deadline now now'} :
    st.phase = .send frame (some deadline) →
    deadline ≤ now →
    SessionStep st .expired (st.afterSend frame false now')
  | sent {st frame outcome now} :
    st.phase = .sending frame →
    SessionStep st (.sent outcome) (st.afterSend frame (outcome = .ok) now)
  -- `best_effort_close`
  | attemptClose {st site} :
    st.phase = .close site →
    SessionStep st (.attempt (.close site.frame)) { st with phase := .closing site }
  | sentClose {st site outcome} :
    st.phase = .closing site →
    SessionStep st (.sent outcome) (st.afterClose site)
  -- `ws_session_loop`
  | firstTick {st} :
    st.phase = .firstTick →
    SessionStep st .firstTick { st with phase := .selecting }
  | receive {st msg now} :
    st.phase = .selecting →
    SessionStep st (.receive msg) (st.afterReceive msg now)
  | flush {st outcome} :
    st.phase = .flushing →
    SessionStep st (.flush outcome) st.leaveClosed
  | recv {st unread r unread'} :
    st.phase = .selecting →
    st.unread = some unread →
    Recv unread r unread' →
    (r = .closed → st.sourceOpen = false) →
    SessionStep st (.recv r) ({ st with unread := some unread' }.afterRecv r)
  | tick {st} :
    st.phase = .selecting →
    SessionStep st .tick st.afterTick
  | pongDeadline {st} :
    st.phase = .selecting →
    st.keepalive.deadline.isSome →
    SessionStep st .pongDeadline st.leave

/-! ## What a session sends -/

/-- The frame that is handed to the sink. -/
def Label.frame : Label → Option Message
  | .attempt m => some m
  | _ => none

def Label.published : Label → Option PageUpdate
  | .publish u => some u
  | _ => none

def Message.payload : Message → Option String
  | .text payload => some payload
  | _ => none

/-- The frames of a run, in order. -/
def frames (tr : List Label) : List Message :=
  tr.filterMap Label.frame

/-- The payloads of the text frames among some frames. -/
def payloads (ms : List Message) : List String :=
  ms.filterMap Message.payload

/-- The updates that are published in a run. -/
def published (tr : List Label) : List PageUpdate :=
  tr.filterMap Label.published

/-- The updates that are published after the session subscribed. -/
def publishedSince : List Label → List PageUpdate
  | [] => []
  | .subscribe :: tr => published tr
  | _ :: tr => publishedSince tr

/-- The number of unanswered pings after something has happened. A ping is answered by the next pong
that the session reads. -/
def Label.unanswered (n : Nat) : Label → Nat
  | .attempt (.ping _) => n + 1
  | .receive (some (.ok (.pong _))) => 0
  | _ => n

/-- The number of unanswered pings after a run. -/
def unanswered (n : Nat) (tr : List Label) : Nat :=
  tr.foldl Label.unanswered n

/-- What a client is shown: the greeting, then the updates published since without a gap, with pings
between them, and nothing after a lag, after a failure or after a close but the close itself. -/
structure GapFree (tr : List Label) : Prop where
  greeting : ∀ m ∈ (frames tr).head?, m = connectedFrame
  updates : payloads (frames tr).tail <+: (publishedSince tr).map PageUpdate.json
  kinds : ∀ m ∈ (frames tr).tail,
    (∃ payload, m = .text payload) ∨ m = .ping [] ∨ ∃ frame, m = .close frame
  pings : ∀ before, before <+: tr → unanswered 0 before ≤ 1
  lagged : ∀ before n after, tr = before ++ .recv (.lagged n) :: after →
    frames after = [] ∨ ∃ reason, frames after = [.close (some ⟨1001, reason⟩)]
  failed : ∀ before outcome after, tr = before ++ .sent outcome :: after → outcome ≠ .ok →
    frames after = []
  closed : ∀ before frame after, tr = before ++ .attempt (.close frame) :: after →
    frames after = []

/-! ## Sessions that have ended -/

/-- The loop is over. -/
def Phase.Ended : Phase → Prop
  | .flushing | .close _ | .closing _ | .done => True
  | _ => False

/-- The loop is over and no frame will be sent. -/
def Phase.Silent : Phase → Prop
  | .flushing | .closing _ | .done => True
  | _ => False

variable {st st' : Session} {l : Label} {tr : List Label}

lemma leave_ended : st.leave.phase.Ended := by
  rw [Session.leave]
  split <;> trivial

lemma leaveClosed_silent : st.leaveClosed.phase.Silent := trivial

lemma Phase.Silent.ended {p : Phase} (h : p.Silent) : p.Ended := by
  cases p <;> trivial

lemma afterSend_failed {frame now} : (st.afterSend frame false now).phase.Silent := by
  cases frame <;> trivial

lemma afterClose_silent {site} : (st.afterClose site).phase.Silent := by
  cases site <;> trivial

/-- A session that is silent stays so. -/
lemma SessionStep.silent (step : SessionStep st l st') (h : st.phase.Silent) :
    st'.phase.Silent ∧ l.frame = none := by
  cases step with
  | publish | dropSource => exact ⟨h, rfl⟩
  | flush => exact ⟨leaveClosed_silent, rfl⟩
  | sentClose => exact ⟨afterClose_silent, rfl⟩
  | subscribe at' | attempt at' | expired at' | sent at' | attemptClose at' | firstTick at'
  | receive at' | recv at' | tick at' | pongDeadline at' =>
    rw [at'] at h
    cases h

lemma frames_cons : frames (l :: tr) = l.frame.toList ++ frames tr := by
  rw [frames, List.filterMap_cons]
  cases l.frame <;> rfl

lemma published_cons : published (l :: tr) = l.published.toList ++ published tr := by
  rw [published, List.filterMap_cons]
  cases l.published <;> rfl

lemma run_silent (run : Run SessionStep st tr st') (h : st.phase.Silent) : frames tr = [] := by
  induction run with
  | nil => rfl
  | cons step _ ih =>
    obtain ⟨silent, none⟩ := step.silent h
    rw [frames_cons, none, ih silent]
    rfl

/-- All that is left to send is a close. -/
lemma run_close {site} (run : Run SessionStep st tr st') (h : st.phase = .close site) :
    frames tr = [] ∨ frames tr = [.close site.frame] := by
  induction run with
  | nil => exact .inl rfl
  | cons step run ih =>
    cases step with
    | publish | dropSource => exact ih h
    | attemptClose at' =>
      cases at'.symm.trans h
      rw [frames_cons, run_silent run trivial]
      exact .inr rfl
    | subscribe at' | attempt at' | expired at' | sent at' | sentClose at' | firstTick at'
    | receive at' | flush at' | recv at' | tick at' | pongDeadline at' =>
      cases at'.symm.trans h

lemma run_ended (run : Run SessionStep st tr st') (h : st.phase.Ended) :
    payloads (frames tr) = [] := by
  cases phase : st.phase with
  | close site =>
    obtain none | close := run_close run phase
    · rw [none]
      rfl
    · rw [close]
      rfl
  | flushing | closing | done =>
    rw [run_silent run (phase ▸ trivial)]
    rfl
  | entry | send | sending | firstTick | selecting =>
    rw [phase] at h
    cases h

/-! ## Sessions that go on -/

/-- The update that was read and not handed to the sink yet. -/
def Phase.held : Phase → List PageUpdate
  | .send (.update u) _ => [u]
  | _ => []

/-- The greeting was handed to the sink. -/
def Phase.Greeted : Phase → Prop
  | .entry | .send .connected _ => False
  | _ => True

/-- A frame from the client ends the session or leaves it where it is. -/
lemma afterReceive_cases (st : Session) (msg : Option (Except Unit Message)) (now : Nat) :
    (st.afterReceive msg now).phase.Ended ∨
      (st.afterReceive msg now).phase = st.phase ∧
        (st.afterReceive msg now).unread = st.unread := by
  unfold Session.afterReceive
  split
  · dsimp only
    split
    · exact .inr ⟨rfl, rfl⟩
    · exact .inl leave_ended
  · exact .inl trivial
  · exact .inl leaveClosed_silent.ended
  · exact .inl leaveClosed_silent.ended
  · exact .inr ⟨rfl, rfl⟩

/-- A session that has nothing in hand and reads and shows nothing. -/
lemma nothing_shown {q} (frame : payloads l.frame.toList = []) (quiet : l.published = none)
    (here : st.phase.held = []) (held : st'.phase.held = []) :
    payloads l.frame.toList ++ (st'.phase.held ++ q).map PageUpdate.json =
      (st.phase.held ++ q ++ l.published.toList).map PageUpdate.json := by
  rw [frame, quiet, here, held, Option.toList_none, List.append_nil]
  rfl

/-- What one step takes from the updates that are still to be shown, unless it ends the session. -/
lemma SessionStep.shows {q} (step : SessionStep st l st') (greeted : st.phase.Greeted)
    (unread : st.unread = some q) :
    (st'.phase.Ended ∧ payloads l.frame.toList = []) ∨
      st'.phase.Greeted ∧ ∃ q', st'.unread = some q' ∧
      payloads l.frame.toList ++ (st'.phase.held ++ q').map PageUpdate.json =
        (st.phase.held ++ q ++ l.published.toList).map PageUpdate.json := by
  cases step with
  | @publish u _ =>
    refine .inr ⟨greeted, q ++ [u], congrArg (Option.map (· ++ [u])) unread, ?_⟩
    rw [← List.append_assoc]
    rfl
  | dropSource =>
    exact .inr ⟨greeted, q, unread, congrArg (List.map _) (List.append_nil _).symm⟩
  | subscribe at' =>
    rw [at'] at greeted
    cases greeted
  | @attempt frame _ _ at' _ =>
    refine .inr ⟨trivial, q, unread, ?_⟩
    cases frame with
    | connected =>
      rw [at'] at greeted
      cases greeted
    | update u =>
      rw [at']
      exact congrArg (List.map _) (List.append_nil (u :: q)).symm
    | ping =>
      have held : st.phase.held = [] := at' ▸ rfl
      exact nothing_shown rfl rfl held rfl
  | expired => exact .inl ⟨afterSend_failed.ended, rfl⟩
  | @sent frame outcome now at' =>
    by_cases ok : outcome = .ok
    · have held : st.phase.held = [] := at' ▸ rfl
      rw [decide_eq_true ok]
      cases frame <;>
        exact .inr ⟨trivial, q, unread, nothing_shown rfl rfl held rfl⟩
    · rw [decide_eq_false ok]
      exact .inl ⟨afterSend_failed.ended, rfl⟩
  | attemptClose => exact .inl ⟨trivial, rfl⟩
  | sentClose => exact .inl ⟨afterClose_silent.ended, rfl⟩
  | firstTick at' =>
    have held : st.phase.held = [] := at' ▸ rfl
    exact .inr ⟨trivial, q, unread, nothing_shown rfl rfl held rfl⟩
  | @receive msg now at' =>
    have held : st.phase.held = [] := at' ▸ rfl
    obtain ended | ⟨phase, same⟩ := afterReceive_cases st msg now
    · exact .inl ⟨ended, rfl⟩
    · exact .inr ⟨phase ▸ greeted, q, same.trans unread, nothing_shown rfl rfl held (phase ▸ held)⟩
  | flush => exact .inl ⟨leaveClosed_silent.ended, rfl⟩
  | recv at' here read _ =>
    cases unread.symm.trans here
    have held : st.phase.held = [] := at' ▸ rfl
    cases read with
    | ok =>
      refine .inr ⟨trivial, _, rfl, ?_⟩
      rw [held]
      exact congrArg (List.map _) (List.append_nil _).symm
    | lagged => exact .inl ⟨trivial, rfl⟩
    | closed => exact .inl ⟨leave_ended, rfl⟩
  | tick at' =>
    have held : st.phase.held = [] := at' ▸ rfl
    unfold Session.afterTick
    split
    · exact .inr ⟨greeted, q, unread, nothing_shown rfl rfl held held⟩
    · exact .inr ⟨trivial, q, unread, nothing_shown rfl rfl held rfl⟩
  | pongDeadline => exact .inl ⟨leave_ended, rfl⟩

/-- A session that has greeted its client shows the updates it holds and reads, in order. -/
lemma run_shows {q} (run : Run SessionStep st tr st') (greeted : st.phase.Greeted)
    (unread : st.unread = some q) :
    payloads (frames tr) <+: (st.phase.held ++ q ++ published tr).map PageUpdate.json := by
  induction run generalizing q with
  | nil => exact List.nil_prefix
  | @cons st l st' tr _ step run ih =>
    rw [frames_cons, published_cons, payloads, List.filterMap_append, ← List.append_assoc,
      List.map_append]
    obtain ⟨ended, none⟩ | ⟨greeted', q', unread', shown⟩ := step.shows greeted unread
    · have rest := run_ended run ended
      rw [payloads] at none rest
      rw [none, rest]
      exact List.nil_prefix
    · have rest := ih greeted' unread'
      rw [List.map_append] at rest
      rw [← shown, List.append_assoc]
      exact (List.prefix_append_right_inj _).mpr rest

/-! ## Pings -/

/-- The session may send a ping before it reads a pong. -/
def Session.MayPing (st : Session) : Prop :=
  match st.phase with
  | .send .ping _ => True
  | .sending .ping | .flushing | .close _ | .closing _ | .done => False
  | _ => st.keepalive.deadline = none

/-- `n` pings are unanswered, and the session waits for the answer. -/
def Pinged (n : Nat) (st : Session) : Prop :=
  n ≤ 1 ∧ (st.MayPing → n = 0)

section Pings

variable {n : Nat}

lemma Pinged.keep (h : Pinged n st) (may : st'.MayPing → st.MayPing) : Pinged n st' :=
  ⟨h.1, fun m => h.2 (may m)⟩

lemma Pinged.ended (h : Pinged n st) (ended : st'.phase.Ended) : Pinged n st' := by
  refine ⟨h.1, fun may => ?_⟩
  unfold Session.MayPing at may
  cases phase : st'.phase with
  | close | flushing | closing | done =>
    rw [phase] at may
    cases may
  | entry | send | sending | firstTick | selecting =>
    rw [phase] at ended
    cases ended

/-- A session that waits may ping if no ping is unanswered. -/
lemma mayPing_selecting (h : st.phase = .selecting) :
    st.MayPing ↔ st.keepalive.deadline = none := by
  unfold Session.MayPing
  rw [h]

lemma SessionStep.pinged (step : SessionStep st l st') (h : Pinged n st) :
    Pinged (l.unanswered n) st' := by
  cases step with
  | publish | dropSource => exact h
  | subscribe at' =>
    refine h.keep fun may => ?_
    unfold Session.MayPing
    rw [at']
    exact may
  | @attempt frame _ _ at' _ =>
    have may : Session.MayPing { st with phase := .sending frame } → st.MayPing := by
      intro may
      unfold Session.MayPing
      rw [at']
      cases frame with
      | connected => exact may
      | update => exact may
      | ping => trivial
    cases frame with
    | connected => exact h.keep may
    | update => exact h.keep may
    | ping =>
      have none : n = 0 := h.2 (by unfold Session.MayPing; rw [at']; trivial)
      exact ⟨none ▸ le_rfl, fun may => may.elim⟩
  | expired => exact h.ended afterSend_failed.ended
  | @sent frame outcome now at' =>
    by_cases ok : outcome = .ok
    · rw [decide_eq_true ok]
      refine h.keep fun may => ?_
      unfold Session.MayPing
      rw [at']
      cases frame with
      | connected => exact may
      | update => exact may
      | ping => cases may
    · rw [decide_eq_false ok]
      exact h.ended afterSend_failed.ended
  | attemptClose => exact h.ended trivial
  | sentClose => exact h.ended afterClose_silent.ended
  | firstTick at' =>
    refine h.keep fun may => ?_
    unfold Session.MayPing
    rw [at']
    exact may
  | @receive msg now at' =>
    match msg with
    | some (.ok (.pong _)) => exact ⟨Nat.zero_le 1, fun _ => rfl⟩
    | some (.ok (.text _)) | some (.ok (.binary _)) | some (.ok (.ping _)) => exact h
    | some (.ok (.close _)) => exact h.ended trivial
    | some (.error _) | none => exact h.ended leaveClosed_silent.ended
  | flush => exact h.ended leaveClosed_silent.ended
  | recv at' here read _ =>
    cases read with
    | ok => exact h.keep (mayPing_selecting at').mpr
    | lagged => exact h.ended trivial
    | closed => exact h.ended leave_ended
  | tick at' =>
    unfold Session.afterTick
    split
    next => exact h
    next none =>
      refine h.keep fun _ => (mayPing_selecting at').mpr ?_
      exact Option.not_isSome_iff_eq_none.mp none
  | pongDeadline => exact h.ended leave_ended

/-- However a run is cut short, at most one ping is unanswered. -/
lemma run_pinged {before} (run : Run SessionStep st tr st') (h : Pinged n st)
    (pre : before <+: tr) : unanswered n before ≤ 1 := by
  induction run generalizing n before with
  | nil =>
    cases List.prefix_nil.mp pre
    exact h.1
  | cons step _ ih =>
    cases before with
    | nil => exact h.1
    | cons l before =>
      obtain ⟨rfl, rest⟩ := List.cons_prefix_cons.mp pre
      show unanswered (l.unanswered n) before ≤ 1
      exact ih (step.pinged h) rest

end Pings

/-! ## No gap -/

/-- Only texts, pings and closes are sent. -/
lemma SessionStep.kinds {m} (step : SessionStep st l st') (frame : l.frame = some m) :
    (∃ payload, m = .text payload) ∨ m = .ping [] ∨ ∃ frame, m = .close frame := by
  cases step with
  | @attempt sent _ _ _ _ =>
    cases frame
    cases sent with
    | connected => exact .inl ⟨_, rfl⟩
    | update => exact .inl ⟨_, rfl⟩
    | ping => exact .inr (.inl rfl)
  | attemptClose =>
    cases frame
    exact .inr (.inr ⟨_, rfl⟩)
  | publish | dropSource | subscribe | expired | sent | sentClose | firstTick | receive | flush
  | recv | tick | pongDeadline => cases frame

lemma run_kinds {m} (run : Run SessionStep st tr st') (mem : m ∈ frames tr) :
    (∃ payload, m = .text payload) ∨ m = .ping [] ∨ ∃ frame, m = .close frame := by
  induction run with
  | nil => cases mem
  | cons step _ ih =>
    rw [frames_cons, List.mem_append, Option.mem_toList] at mem
    exact mem.elim step.kinds ih

/-- After it has subscribed, a session sends the greeting first. -/
lemma run_greets {q} (run : Run SessionStep st tr st') (at' : st.phase = .send .connected none)
    (unread : st.unread = some q) :
    (∀ m ∈ (frames tr).head?, m = connectedFrame) ∧
      payloads (frames tr).tail <+: (q ++ published tr).map PageUpdate.json := by
  induction run generalizing q with
  | nil => exact ⟨nofun, List.nil_prefix⟩
  | cons step run ih =>
    cases step with
    | @publish u _ =>
      have rest := ih at' (congrArg (Option.map (· ++ [u])) unread)
      rw [List.append_assoc] at rest
      exact rest
    | dropSource => exact ih at' unread
    | attempt here =>
      cases here.symm.trans at'
      refine ⟨?_, run_shows run trivial unread⟩
      rintro m ⟨⟩
      rfl
    | expired here | subscribe here | sent here | attemptClose here | sentClose here
    | firstTick here | receive here | flush here | recv here | tick here | pongDeadline here =>
      cases here.symm.trans at'

/-- Before it has subscribed, a session sends nothing. -/
lemma run_starts (run : Run SessionStep st tr st') (at' : st.phase = .entry)
    (unread : st.unread = none) :
    (∀ m ∈ (frames tr).head?, m = connectedFrame) ∧
      payloads (frames tr).tail <+: (publishedSince tr).map PageUpdate.json := by
  induction run with
  | nil => exact ⟨nofun, List.nil_prefix⟩
  | cons step run ih =>
    cases step with
    | publish => exact ih at' (congrArg (Option.map _) unread)
    | dropSource => exact ih at' unread
    | subscribe => exact run_greets run rfl rfl
    | attempt here | expired here | sent here | attemptClose here | sentClose here
    | firstTick here | receive here | flush here | recv here | tick here | pongDeadline here =>
      cases here.symm.trans at'

lemma SessionStep.lagged {n} (step : SessionStep st (.recv (.lagged n)) st') :
    st'.phase = .close .lagged := by
  cases step
  rfl

lemma SessionStep.failed {outcome} (step : SessionStep st (.sent outcome) st')
    (ne : outcome ≠ .ok) : st'.phase.Silent := by
  cases step with
  | sent =>
    rw [decide_eq_false ne]
    exact afterSend_failed
  | sentClose => exact afterClose_silent

lemma SessionStep.closes {frame} (step : SessionStep st (.attempt (.close frame)) st') :
    st'.phase.Silent := by
  generalize eq : Label.attempt (.close frame) = l at step
  cases step with
  | @attempt sent _ _ _ _ => cases sent <;> cases eq
  | attemptClose => trivial
  | publish | dropSource | subscribe | expired | sent | sentClose | firstTick | receive | flush
  | recv | tick | pongDeadline => cases eq

/-- In every run of a session, whatever its source, its client, the clock and the sink do, its
client is shown no gap. -/
theorem session_gap_free {pongDuration} (run : Run SessionStep (.start pongDuration) tr st) :
    GapFree tr where
  greeting := (run_starts run rfl rfl).1
  updates := (run_starts run rfl rfl).2
  kinds m mem := run_kinds run (List.mem_of_mem_tail mem)
  pings before pre := run_pinged run ⟨Nat.zero_le 1, fun _ => rfl⟩ pre
  lagged before n after eq := by
    rw [eq] at run
    obtain ⟨_, -, rest⟩ := run.split
    cases rest with
    | cons step rest => exact (run_close rest step.lagged).imp id fun eq => ⟨_, eq⟩
  failed before outcome after eq ne := by
    rw [eq] at run
    obtain ⟨_, -, rest⟩ := run.split
    cases rest with
    | cons step rest => exact run_silent rest (step.failed ne)
  closed before frame after eq := by
    rw [eq] at run
    obtain ⟨_, -, rest⟩ := run.split
    cases rest with
    | cons step rest => exact run_silent rest step.closes

/-- A client is shown one update and then, its session being too slow, told to come back. -/
theorem session_gap_free_lagged :
    ∃ tr st, Run SessionStep (.start 10) tr st ∧ GapFree tr ∧
      frames tr = [connectedFrame, .text "a",
        .close (some ⟨1001, "lagged; resync via snapshot"⟩)] := by
  have greeted : Run SessionStep (.start 10) _ _ :=
    .cons (.subscribe rfl) <| .cons (@SessionStep.attempt _ _ _ 0 rfl nofun) <|
      .cons (@SessionStep.sent _ _ .ok 0 rfl) <| .cons (.firstTick rfl) .nil
  have shown := greeted.append <| .cons (@SessionStep.publish _ ⟨["index.html"], "a"⟩ rfl) <|
    .cons (.recv rfl rfl .ok nofun) <| .cons (@SessionStep.attempt _ _ _ 0 rfl nofun) <|
      .cons (@SessionStep.sent _ _ .ok 0 rfl) .nil
  have closed := shown.append <| .cons (@SessionStep.publish _ ⟨["index.html"], "b"⟩ rfl) <|
    .cons (.recv rfl rfl (.lagged Nat.one_pos le_rfl) nofun) <| .cons (.attemptClose rfl) <|
      .cons (@SessionStep.sentClose _ _ .ok rfl) .nil
  exact ⟨_, _, closed, session_gap_free closed, rfl⟩

end CherryPit.Web
