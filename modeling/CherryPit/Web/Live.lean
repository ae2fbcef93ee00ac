import CherryPit.Conc.Feed
import CherryPit.Conc.History
import CherryPit.Web.Origin
import CherryPit.Web.Session

/-!
# The serve surface under load

Port of `ws_handler`, `ws_session`, `http_concurrency_limit`, `clamp_permits`, `healthz`, `readyz`
and of the order of the layers in `build_router` (`cherry-pit-web/src/serve/runtime.rs`): any number
of requests at once, of which those for pages and upgrades pass the limit on concurrent requests,
and upgrades that pass the origin check become sessions, as many as the cap on connections admits.

Rust → Lean: one thread for each request, at an await or at an access to a semaphore. A request or
session may be dropped at any time, and gives back its permits. The clock, in nanoseconds, goes on
between steps. What the handler of a page answers is left open here, and so is what comes of a frame
that is sent, and when. The updates are a feed of which a session has read up to a position. The
loop of a session waits for whichever comes first of a frame from the client, an update, a tick of
the ping interval and the deadline of an unanswered ping; if several are there it takes any of them.
-/

namespace CherryPit.Web.Serve

open Conc Threads

/-! ## Sessions -/

/-- Rust `PageUpdateEvent`; a session reads the text. -/
structure PageUpdateEvent where
  json : String
  deriving DecidableEq

/-- Rust `Duration::from_secs`. -/
def fromSecs (secs : Nat) : Nat := secs * 1000000000

/-- Rust `WS_PING_INTERVAL_SECS`. -/
def wsPingIntervalSecs : Nat := 30

/-- Rust `WS_PONG_DEADLINE_SECS`. -/
def wsPongDeadlineSecs : Nat := 10

/-- What a session sends while it is in its loop. -/
inductive Frame where
  | update (event : PageUpdateEvent)
  | reload
  | ping
  deriving DecidableEq

def Frame.message : Frame → Message
  | .update event => .text event.json
  | .reload => .text "\x7b\"type\":\"reload\"\x7d"
  | .ping => .ping []

def connectedFrame : Message := .text "\x7b\"type\":\"connected\"\x7d"

/-- What a session knows in its loop. -/
structure Loop where
  next : Nat
  awaitingPong : Bool
  pongTimeout : Nat
  farFuture : Nat
  nextTick : Nat

/-- The points of `ws_session`. -/
inductive Session where
  | subscribe
  | greet (next : Nat)
  | interval (next : Nat)
  | firstTick (next start : Nat)
  | arm (next nextTick : Nat)
  | selecting (l : Loop)
  | sending (l : Loop) (frame : Frame)
  | closing

/-- What follows a frame from the client, the end of its stream being `none`. -/
def Loop.afterReceive (l : Loop) : Option (Except Unit Message) → Session
  | some (.ok (.pong _)) => .selecting { l with awaitingPong := false, pongTimeout := l.farFuture }
  | some (.ok (.close _)) | some (.error _) | none => .closing
  | some (.ok _) => .selecting l

/-- What follows an answer of the broadcast channel. -/
def Loop.afterRecv (l : Loop) : Received PageUpdateEvent → Session
  | .ok event => .sending l (.update event)
  | .lagged _ => .sending l .reload
  | .closed => .closing

/-- What follows a tick of the ping interval. -/
def Loop.afterTick (l : Loop) : Session :=
  if l.awaitingPong then .selecting l else .sending l .ping

/-- What follows a frame that was sent. -/
def Loop.afterSend (l : Loop) (now : Nat) : Frame → Loop
  | .ping => { l with awaitingPong := true, pongTimeout := now + fromSecs wsPongDeadlineSecs }
  | _ => l

/-- What happens in a session. -/
inductive SessionEvent where
  | subscribed (position : Nat)
  | greeted (ok : Bool)
  | interval
  | firstTick
  | armed (now : Nat)
  | received (msg : Option (Except Unit Message)) (now : Nat)
  | recv (r : Received PageUpdateEvent)
  | tick
  | sent (frame : Frame) (now : Nat)
  | failed (frame : Frame)
  | timedOut (now : Nat)
  | closed

/-- What the threads share: the clock, the feed of updates, whether the content is ready, and the
permits that are left for requests and for connections. -/
structure Surface where
  now : Nat
  log : List PageUpdateEvent
  capacity : Nat
  sourceOpen : Bool
  ready : Bool
  http : Nat
  ws : Nat

/-- One step of `ws_session`; it may return. -/
inductive SessionLocal (g : Surface) : Session → SessionEvent → Option Session → Prop where
  | subscribed :
    SessionLocal g .subscribe (.subscribed g.log.length) (some (.greet g.log.length))
  | greeted {next} :
    SessionLocal g (.greet next) (.greeted true) (some (.interval next))
  | unreachable {next} :
    SessionLocal g (.greet next) (.greeted false) none
  | interval {next} :
    SessionLocal g (.interval next) .interval (some (.firstTick next g.now))
  | firstTick {next start} :
    start ≤ g.now →
    SessionLocal g (.firstTick next start) .firstTick
      (some (.arm next (start + fromSecs wsPingIntervalSecs)))
  | armed {next nextTick} :
    SessionLocal g (.arm next nextTick) (.armed g.now)
      (some (.selecting ⟨next, false, g.now + fromSecs 86400, g.now + fromSecs 86400, nextTick⟩))
  | received {l} (msg) :
    SessionLocal g (.selecting l) (.received msg g.now) (some (l.afterReceive msg))
  | recv {l r next} :
    Feed.Recv g.capacity g.log l.next r next →
    (r = .closed → g.sourceOpen = false) →
    SessionLocal g (.selecting l) (.recv r) (some ({ l with next := next }.afterRecv r))
  | tick {l} :
    l.nextTick ≤ g.now →
    SessionLocal g (.selecting l) .tick
      (some { l with nextTick := l.nextTick + fromSecs wsPingIntervalSecs }.afterTick)
  | timedOut {l} :
    l.awaitingPong = true →
    l.pongTimeout ≤ g.now →
    SessionLocal g (.selecting l) (.timedOut g.now) (some .closing)
  | sent {l frame} :
    SessionLocal g (.sending l frame) (.sent frame g.now)
      (some (.selecting (l.afterSend g.now frame)))
  | failed {l frame} :
    SessionLocal g (.sending l frame) (.failed frame) (some .closing)
  -- `best_effort_close_outcome` makes nothing of how the close was sent
  | closed :
    SessionLocal g .closing .closed none

/-! ## Requests -/

/-- What is requested: a page or an extra route, an upgrade, or a probe. -/
inductive Kind where
  | page
  | ws (headers : HeaderMap)
  | healthz
  | readyz

/-- The points of a request, and of the session that it becomes. -/
inductive Pc where
  | idle
  /-- In `http_concurrency_limit`. -/
  | limit (k : Kind)
  | handling
  /-- In `ws_handler`. -/
  | origin (headers : HeaderMap)
  | acquire
  | accepted
  | upgrading
  | session (q : Session)
  | probe (k : Kind)
  | answered (status : Nat)
  | gone

/-- What a step of a request does. -/
inductive Event where
  | request (k : Kind)
  | shed
  | admitted
  | answered (status : Nat)
  | sameOrigin
  | full
  | permitted
  | switching
  | upgraded
  | session (a : SessionEvent)
  | dropped

/-- The permits for requests that a thread holds. -/
def Pc.http : Pc → Nat
  | .handling | .origin _ | .acquire | .accepted => 1
  | _ => 0

/-- The permits for connections that a thread holds. -/
def Pc.ws : Pc → Nat
  | .accepted | .upgrading | .session _ => 1
  | _ => 0

/-- The probes are routed around the limit on concurrent requests. -/
def Kind.route : Kind → Pc
  | .healthz => .probe .healthz
  | .readyz => .probe .readyz
  | k => .limit k

/-- The handler of a request that was admitted. -/
def Kind.handler : Kind → Pc
  | .ws headers => .origin headers
  | _ => .handling

/-- The status that a probe answers. -/
def Surface.probed (g : Surface) : Kind → Nat
  | .readyz => if g.ready then 200 else 503
  | _ => 200

/-- One step of a request. -/
inductive Local (policy : WebSocketOriginPolicy) : Surface → Pc → Event → Surface → Pc → Prop where
  | request {g} (k) :
    Local policy g .idle (.request k) g k.route
  | probed {g k} :
    Local policy g (.probe k) (.answered (g.probed k)) g (.answered (g.probed k))
  -- `http_concurrency_limit`
  | shed {g k} :
    g.http = 0 →
    Local policy g (.limit k) .shed g (.answered 503)
  | admitted {g k http} :
    g.http = http + 1 →
    Local policy g (.limit k) .admitted { g with http := http } k.handler
  | handled {g} (status) :
    Local policy g .handling (.answered status) { g with http := g.http + 1 } (.answered status)
  -- `ws_handler`
  | forbidden {g headers} :
    validateWsOrigin headers policy = false →
    Local policy g (.origin headers) (.answered 403) { g with http := g.http + 1 } (.answered 403)
  | sameOrigin {g headers} :
    validateWsOrigin headers policy = true →
    Local policy g (.origin headers) .sameOrigin g .acquire
  | full {g} :
    g.ws = 0 →
    Local policy g .acquire .full { g with http := g.http + 1 } (.answered 503)
  | permitted {g ws} :
    g.ws = ws + 1 →
    Local policy g .acquire .permitted { g with ws := ws } .accepted
  | switching {g} :
    Local policy g .accepted .switching { g with http := g.http + 1 } .upgrading
  | upgraded {g} :
    Local policy g .upgrading .upgraded g (.session .subscribe)
  -- `ws_session`
  | session {g q a q'} :
    SessionLocal g q a (some q') →
    Local policy g (.session q) (.session a) g (.session q')
  | returned {g q a} :
    SessionLocal g q a none →
    Local policy g (.session q) (.session a) { g with ws := g.ws + 1 } .gone
  -- the client goes away, or the server is stopped
  | dropped {g p} :
    Local policy g p .dropped { g with http := g.http + p.http, ws := g.ws + p.ws } .gone

/-- What others do: time passes, an update is published, the content becomes ready or not, the
sender of updates is dropped. -/
inductive Env where
  | pass (nanos : Nat)
  | publish (event : PageUpdateEvent)
  | setReady (ready : Bool)
  | dropSource

/-- The effect of the others. -/
def Env.apply (g : Surface) : Env → Surface
  | .pass nanos => { g with now := g.now + nanos }
  | .publish event => { g with log := g.log ++ [event] }
  | .setReady ready => { g with ready := ready }
  | .dropSource => { g with sourceOpen := false }

/-- What others do to the surface. -/
def envStep (g : Surface) (e : Env) (g' : Surface) : Prop := g' = e.apply g

/-- The requests of a surface. -/
abbrev Live := Threads Surface Pc

/-- The labels of a run. -/
abbrev Trace := List (Threads.Label Event Env)

/-- Steps of a surface. -/
abbrev LiveStep (policy : WebSocketOriginPolicy) :
    Live → Threads.Label Event Env → Live → Prop :=
  Step (Local policy) envStep

/-- Rust `tokio::sync::Semaphore::MAX_PERMITS`. -/
def maxPermits : Nat := (2 ^ 64 - 1) / 8

/-- Rust `clamp_permits`. -/
def clampPermits (requested : Nat) : Nat := min requested maxPermits

/-- A new surface (Rust `build_router`). -/
def Live.start (now capacity maxInflightRequests maxConnections : Nat) : Live :=
  Threads.start ⟨now, [], capacity, true, false, clampPermits maxInflightRequests,
    clampPermits maxConnections⟩ .idle

/-- How far the clock may go before the session has to move: a frame is sent without delay, and a
timer is served when it is due. -/
def Pc.Allows (now later : Nat) : Pc → Prop
  | .session (.selecting l) =>
    later ≤ l.nextTick ∧ (l.awaitingPong = true → later ≤ l.pongTimeout)
  | .session (.sending _ _) | .session .closing => later ≤ now
  | _ => True

/-- Steps of a surface whose sessions are prompt. -/
def PromptStep (policy : WebSocketOriginPolicy) (s : Live) (l : Threads.Label Event Env)
    (s' : Live) : Prop :=
  LiveStep policy s l s' ∧
    ∀ nanos, l = .env (.pass nanos) → ∀ i, (s.pc i).Allows s.shared.now (s.shared.now + nanos)

/-! ## One session alone -/

section Only

variable {policy : WebSocketOriginPolicy} {g g' : Surface} {p p' : Pc} {a : Event}

/-- One request is under way. -/
def only (g : Surface) (p : Pc) : Live := lone .idle g p

lemma only_act (st : Local policy g p a g' p') :
    PromptStep policy (only g p) (.act 0 a) (only g' p') :=
  ⟨lone_act st, nofun⟩

lemma only_publish (event : PageUpdateEvent) :
    PromptStep policy (only g p) (.env (.publish event))
      (only { g with log := g.log ++ [event] } p) :=
  ⟨.env rfl, nofun⟩

lemma only_pass (nanos : Nat) (allows : p.Allows g.now (g.now + nanos)) :
    PromptStep policy (only g p) (.env (.pass nanos)) (only { g with now := g.now + nanos } p) := by
  refine ⟨.env rfl, ?_⟩
  rintro _ ⟨⟩ i
  cases i with
  | zero => exact allows
  | succ i => trivial

/-- A surface with one permit of each kind and room for one update. -/
def small (now : Nat) (log : List PageUpdateEvent) (http ws : Nat) : Surface :=
  ⟨now, log, 1, true, false, http, ws⟩

lemma start_small : Live.start 0 1 1 1 = only (small 0 [] 1 1) .idle :=
  lone_start Pc.idle (small 0 [] 1 1)

/-- The loop of the only session. -/
def waits (next : Nat) : Loop := ⟨next, false, fromSecs 86400, fromSecs 86400, fromSecs 30⟩

/-- An upgrade without an origin becomes a session. -/
lemma run_to_loop : Run (PromptStep .allowAbsent) (.start 0 1 1 1)
    [.act 0 (.request (.ws [])), .act 0 .admitted, .act 0 .sameOrigin, .act 0 .permitted,
      .act 0 .switching, .act 0 .upgraded, .act 0 (.session (.subscribed 0)),
      .act 0 (.session (.greeted true)), .act 0 (.session .interval),
      .act 0 (.session .firstTick), .act 0 (.session (.armed 0))]
    (only (small 0 [] 1 0) (.session (.selecting (waits 0)))) := by
  rw [start_small]
  exact
    .cons (only_act (.request (.ws []))) <|
    .cons (only_act (.admitted rfl)) <|
    .cons (only_act (.sameOrigin rfl)) <|
    .cons (only_act (.permitted rfl)) <|
    .cons (only_act .switching) <|
    .cons (only_act .upgraded) <|
    .cons (only_act (.session .subscribed)) <|
    .cons (only_act (.session .greeted)) <|
    .cons (only_act (.session .interval)) <|
    .cons (only_act (.session (.firstTick le_rfl))) <|
    .cons (only_act (.session .armed)) .nil

/-- An update is lost, the next one is shown, and the client no longer answers. -/
lemma run_to_silence : Run (PromptStep .allowAbsent)
    (only (small 0 [] 1 0) (.session (.selecting (waits 0))))
    [.env (.publish ⟨"a"⟩), .env (.publish ⟨"b"⟩),
      .act 0 (.session (.recv (.lagged 1))), .act 0 (.session (.sent .reload 0)),
      .act 0 (.session (.recv (.ok ⟨"b"⟩))), .act 0 (.session (.sent (.update ⟨"b"⟩) 0)),
      .env (.pass (fromSecs 30)), .act 0 (.session .tick),
      .act 0 (.session (.sent .ping (fromSecs 30))), .env (.pass (fromSecs 10))]
    (only (small (fromSecs 40) [⟨"a"⟩, ⟨"b"⟩] 1 0)
      (.session (.selecting ⟨2, true, fromSecs 40, fromSecs 86400, fromSecs 60⟩))) :=
  .cons (only_publish ⟨"a"⟩) <|
  .cons (only_publish ⟨"b"⟩) <|
  .cons (only_act (.session (.recv (.lagged (by decide)) nofun))) <|
  .cons (only_act (.session .sent)) <|
  .cons (only_act (.session (.recv (.ok (by decide) rfl) nofun))) <|
  .cons (only_act (.session .sent)) <|
  .cons (only_pass (fromSecs 30) ⟨by decide, nofun⟩) <|
  .cons (only_act (.session (.tick (by decide)))) <|
  .cons (only_act (.session .sent)) <|
  .cons (only_pass (fromSecs 10) ⟨by decide, fun _ => by decide⟩) .nil

end Only

end CherryPit.Web.Serve
