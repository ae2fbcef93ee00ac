import CherryPit.Web.Live

/-!
# What holds of the serve surface under load

Four results about every run. The permits of the two semaphores are never lost and never exceeded,
and requests are turned away only when all are in use (`permits_kept`). What a session shows its
client is the feed from where it subscribed, with a call to reload for each stretch that was lost
(`feed_marked`). A session ends for silence only if a ping has been unanswered for as long as it
should be, and sends no second ping before the answer (`timedOut_unanswered`). If frames are sent
without delay and timers are served when they are due, a client that falls silent keeps its
connection for at most 40 seconds (`silent_let_go`).
-/

namespace CherryPit.Web.Serve

open Conc Threads

variable {policy : WebSocketOriginPolicy} {g g' : Surface} {p p' : Pc} {a : Event}
  {as : List Event} {s s' : Live} {tr : Trace} {now capacity maxRequests maxConnections : Nat}
  {q q' : Session} {last since : Option Nat} {b : SessionEvent} {l : Loop} {i : Nat}

/-! ## Permits -/

/-- A step moves permits for requests between the surface and its request. -/
lemma Local.http (st : Local policy g p a g' p') : g'.http + p'.http = g.http + p.http := by
  cases st with
  | request k => cases k <;> rfl
  | @admitted k http left =>
    rw [left]
    cases k <;> rfl
  | _ => rfl

/-- A step moves permits for connections between the surface and its request. -/
lemma Local.ws (st : Local policy g p a g' p') : g'.ws + p'.ws = g.ws + p.ws := by
  cases st with
  | request k => cases k <;> rfl
  | @admitted k => cases k <;> rfl
  | permitted left =>
    rw [left]
    rfl
  | _ => rfl

lemma http_semaphore : Semaphore (Local policy) envStep Surface.http Pc.http where
  one st := st.http
  envs {g e g'} st := by
    cases st
    cases e <;> rfl
  atMost p := by
    cases p <;> first | exact Nat.zero_le 1 | exact le_rfl

lemma ws_semaphore : Semaphore (Local policy) envStep Surface.ws Pc.ws where
  one st := st.ws
  envs {g e g'} st := by
    cases st
    cases e <;> rfl
  atMost p := by
    cases p <;> first | exact Nat.zero_le 1 | exact le_rfl

/-- What was requested, and that an upgrade which got past the check had the right origin. -/
def Pc.Vetted (policy : WebSocketOriginPolicy) (as : List Event) : Pc → Prop
  | .limit k => .request k ∈ as
  | .origin headers => .request (.ws headers) ∈ as
  | .acquire | .accepted | .upgrading | .session _ =>
    ∃ headers, .request (.ws headers) ∈ as ∧ validateWsOrigin headers policy = true
  | _ => True

lemma Local.vetted (st : Local policy g p a g' p') (h : p.Vetted policy as) :
    p'.Vetted policy (as ++ [a]) := by
  have more : ∀ {b : Event}, b ∈ as → b ∈ as ++ [a] := List.mem_append_left [a]
  cases st with
  | request k => cases k <;> first | exact List.mem_append_right as (.head _) | trivial
  | @admitted k _ _ =>
    cases k with
    | ws headers => exact more h
    | _ => trivial
  | sameOrigin same => exact ⟨_, more h, same⟩
  | permitted | switching | upgraded | session => exact h.imp fun _ h => ⟨more h.1, h.2⟩
  | _ => trivial

/-- A request is shed only if no permit is left. -/
lemma Local.shed_http (st : Local policy g p .shed g' p') : g.http = 0 := by
  cases st
  assumption

/-- An upgrade is turned away only if no permit is left. -/
lemma Local.full_ws (st : Local policy g p .full g' p') : g.ws = 0 := by
  cases st
  assumption

/-- What is kept of the permits in every state. -/
structure PermitsKept (policy : WebSocketOriginPolicy) (maxRequests maxConnections : Nat)
    (tr : Trace) (s : Live) : Prop where
  requests : ∀ ids : Finset Nat, (∀ i ∈ ids, (s.pc i).http = 1) →
    ids.card ≤ clampPermits maxRequests
  connections : ∀ ids : Finset Nat, (∀ i ∈ ids, (s.pc i).ws = 1) →
    ids.card ≤ clampPermits maxConnections
  shed : ∀ i s', LiveStep policy s (.act i .shed) s' →
    ∃ ids : Finset Nat, ids.card = clampPermits maxRequests ∧ ∀ i ∈ ids, (s.pc i).http = 1
  full : ∀ i s', LiveStep policy s (.act i .full) s' →
    ∃ ids : Finset Nat, ids.card = clampPermits maxConnections ∧ ∀ i ∈ ids, (s.pc i).ws = 1
  requestsBack : (∀ i, (s.pc i).http = 0) → s.shared.http = clampPermits maxRequests
  connectionsBack : (∀ i, (s.pc i).ws = 0) → s.shared.ws = clampPermits maxConnections
  origins : ∀ i, (s.pc i).ws = 1 → ∃ headers,
    .act i (.request (.ws headers)) ∈ tr ∧ validateWsOrigin headers policy = true

/-- In every run of the surface, whatever arrives, goes away and is answered: no more requests are
handled and no more connections are held than the semaphores admit; a request or an upgrade is
turned away only if that many are under way; when none are, no permit is missing; and
every connection had the right origin. -/
theorem permits_kept (run : Run (LiveStep policy) (.start now capacity maxRequests maxConnections)
    tr s) : PermitsKept policy maxRequests maxConnections tr s where
  requests ids held := http_semaphore.card_le (fun _ => rfl) run ids held
  connections ids held := ws_semaphore.card_le (fun _ => rfl) run ids held
  shed i s' st := by
    cases st with
    | act st => exact http_semaphore.exists_holders (fun _ => rfl) run st.shed_http
  full i s' st := by
    cases st with
    | act st => exact ws_semaphore.exists_holders (fun _ => rfl) run st.full_ws
  requestsBack idle := http_semaphore.back (fun _ => rfl) run idle
  connectionsBack idle := ws_semaphore.back (fun _ => rfl) run idle
  origins i held := by
    have vetted : (s.pc i).Vetted policy (eventsOf i tr) :=
      run_thread (J := fun p as => p.Vetted policy as) (fun st h => st.vetted h)
        (fun _ => trivial) run i
    have got : ∃ headers, .request (.ws headers) ∈ eventsOf i tr ∧
        validateWsOrigin headers policy = true := by
      generalize s.pc i = p at vetted held
      cases p <;> first | exact vetted | cases held
    exact got.imp fun headers h => ⟨mem_eventsOf.mp h.1, h.2⟩

/-- The only connection there may be is held, and the request that it came from is over. -/
theorem permits_kept_connected : ∃ tr s, Run (LiveStep .allowAbsent) (.start 0 1 1 1) tr s ∧
    PermitsKept .allowAbsent 1 1 tr s ∧ (s.pc 0).ws = 1 ∧ s.shared.ws = 0 ∧ s.shared.http = 1 := by
  have run := run_to_loop.mono fun st => st.1
  exact ⟨_, _, run, permits_kept run, rfl, rfl, rfl⟩

/-! ## The feed -/

/-- What a frame shows of the feed: an update, or that some were lost. -/
def Frame.marks : Frame → List (Option PageUpdateEvent)
  | .update event => [some event]
  | .reload => [none]
  | .ping => []

/-- What an event shows the client of the feed. -/
def Event.marks : Event → List (Option PageUpdateEvent)
  | .session (.sent frame _) => frame.marks
  | _ => []

/-- What a client was shown of the feed. -/
def shown (as : List Event) : List (Option PageUpdateEvent) := as.flatMap Event.marks

/-- The length of the feed when a session subscribed. -/
def Event.position : Event → List Nat
  | .session (.subscribed position) => [position]
  | _ => []

/-- Where a session subscribed. -/
def positions (as : List Event) : List Nat := as.flatMap Event.position

@[simp]
lemma shown_snoc : shown (as ++ [a]) = shown as ++ a.marks := by simp [shown]

@[simp]
lemma positions_snoc : positions (as ++ [a]) = positions as ++ a.position := by simp [positions]

/-- A client has been shown the feed between two positions, losses marked. -/
structure Follows (log : List PageUpdateEvent) (start stop : Nat)
    (shown : List (Option PageUpdateEvent)) : Prop where
  le : start ≤ stop
  inside : stop ≤ log.length
  marks : Feed.Marks (Feed.slice log start stop) shown

lemma Follows.start {log : List PageUpdateEvent} {n : Nat} {shown : List (Option PageUpdateEvent)}
    (le : n ≤ log.length) (none : shown = []) : Follows log n n shown where
  le := le_rfl
  inside := le
  marks := by
    rw [none, Feed.slice_self]
    exact .nil

lemma Follows.append {log more : List PageUpdateEvent} {start stop : Nat}
    {shown : List (Option PageUpdateEvent)} (h : Follows log start stop shown) :
    Follows (log ++ more) start stop shown where
  le := h.le
  inside := h.inside.trans (by simp)
  marks := (Feed.slice_append h.inside).symm ▸ h.marks

lemma Follows.recv {log : List PageUpdateEvent} {start stop next : Nat}
    {shown : List (Option PageUpdateEvent)} {r : Received PageUpdateEvent}
    (h : Follows log start stop shown) (recv : Feed.Recv capacity log stop r next) :
    Follows log start next (shown ++ Feed.shows r) :=
  have bounds := recv.bounds h.inside
  ⟨h.le.trans bounds.1, bounds.2, h.marks.recv h.le h.inside recv⟩

/-- What a client has been shown by the time its session is at a point. -/
def Session.Shows (log : List PageUpdateEvent) (as : List Event) : Session → Prop
  | .subscribe => positions as = [] ∧ shown as = []
  | .greet next | .interval next | .firstTick next _ | .arm next _ =>
    positions as = [next] ∧ next ≤ log.length ∧ shown as = []
  | .selecting l => ∃ start, positions as = [start] ∧ Follows log start l.next (shown as)
  | .sending l frame => ∃ start stop, positions as = [start] ∧ Follows log start stop (shown as) ∧
    Follows log start l.next (shown as ++ frame.marks)
  | .closing => ∃ start stop, positions as = [start] ∧ Follows log start stop (shown as)

/-- What a client has been shown by the time its request is at a point. -/
def Pc.Shows (log : List PageUpdateEvent) (as : List Event) : Pc → Prop
  | .session q => q.Shows log as
  | .gone => (positions as = [] ∧ shown as = []) ∨
    ∃ start stop, positions as = [start] ∧ Follows log start stop (shown as)
  | _ => positions as = [] ∧ shown as = []

lemma Session.Shows.append {log more : List PageUpdateEvent} (h : q.Shows log as) :
    q.Shows (log ++ more) as := by
  have longer : log.length ≤ (log ++ more).length := by simp
  cases q with
  | subscribe => exact h
  | greet | interval | firstTick | arm => exact ⟨h.1, h.2.1.trans longer, h.2.2⟩
  | selecting l => exact h.imp fun start h => ⟨h.1, h.2.append⟩
  | sending l frame =>
    obtain ⟨start, stop, at', before, after⟩ := h
    exact ⟨start, stop, at', before.append, after.append⟩
  | closing =>
    obtain ⟨start, stop, at', before⟩ := h
    exact ⟨start, stop, at', before.append⟩

/-- Whatever a session was doing when it ended. -/
lemma Session.Shows.gone {log : List PageUpdateEvent} (h : q.Shows log as) :
    Pc.gone.Shows log as := by
  cases q with
  | subscribe => exact .inl h
  | greet | interval | firstTick | arm =>
    obtain ⟨at', inside, none⟩ := h
    exact .inr ⟨_, _, at', .start inside none⟩
  | selecting l =>
    obtain ⟨start, at', before⟩ := h
    exact .inr ⟨start, _, at', before⟩
  | sending l frame =>
    obtain ⟨start, stop, at', before, -⟩ := h
    exact .inr ⟨start, stop, at', before⟩
  | closing => exact .inr h

/-- A session that waits, and what happens to it is nothing of the feed. -/
lemma Session.Shows.keep {log : List PageUpdateEvent} (h : q.Shows log as) (marks : a.marks = [])
    (position : a.position = []) : q.Shows log (as ++ [a]) := by
  have same : shown (as ++ [a]) = shown as := by simp [marks]
  have same' : positions (as ++ [a]) = positions as := by simp [position]
  unfold Session.Shows at h ⊢
  rwa [same, same']

/-- A frame from the client ends the loop or leaves the position as it is. -/
lemma afterReceive_cases (l : Loop) (msg : Option (Except Unit Message)) :
    l.afterReceive msg = .closing ∨
      ∃ l', l.afterReceive msg = .selecting l' ∧ l'.next = l.next := by
  unfold Loop.afterReceive
  split
  · exact .inr ⟨_, rfl, rfl⟩
  · exact .inl rfl
  · exact .inl rfl
  · exact .inl rfl
  · exact .inr ⟨_, rfl, rfl⟩

lemma afterSend_next (l : Loop) (now : Nat) (frame : Frame) :
    (l.afterSend now frame).next = l.next := by
  cases frame <;> rfl

/-- One step of a session, which shows what it sends. -/
lemma SessionLocal.shows {q' : Option Session} (st : SessionLocal g q b q') (h : q.Shows g.log as) :
    (q'.elim Pc.gone Pc.session).Shows g.log (as ++ [.session b]) := by
  cases st with
  | subscribed =>
    obtain ⟨at', none⟩ := h
    exact ⟨by simp [at', Event.position], le_rfl, by simp [none, Event.marks]⟩
  | greeted => exact h.keep (q := .greet _) rfl rfl
  | unreachable => exact (h.keep rfl rfl).gone
  | interval => exact h.keep (q := .interval _) rfl rfl
  | firstTick => exact h.keep (q := .firstTick _ _) rfl rfl
  | armed =>
    obtain ⟨at', inside, none⟩ := h.keep (a := .session (.armed g.now)) rfl rfl
    exact ⟨_, at', .start inside none⟩
  | @received l msg =>
    have here := h.keep (a := .session (.received msg g.now)) rfl rfl
    rcases afterReceive_cases l msg with closing | ⟨l', selecting, next⟩
    · rw [closing]
      exact here.imp fun start h => ⟨l.next, h⟩
    · rw [selecting]
      exact here.imp fun start h => ⟨h.1, next ▸ h.2⟩
  | @recv l r next recv =>
    obtain ⟨start, at', before⟩ := h
    have before' : Follows g.log start l.next (shown (as ++ [.session (.recv r)])) := by
      simpa [Event.marks] using before
    have at'' : positions (as ++ [.session (.recv r)]) = [start] := by
      simpa [Event.position] using at'
    have after := before'.recv recv
    cases r with
    | ok event => exact ⟨start, l.next, at'', before', after⟩
    | lagged n => exact ⟨start, l.next, at'', before', after⟩
    | closed => exact ⟨start, l.next, at'', before'⟩
  | @tick l due =>
    obtain ⟨start, at', before⟩ := h.keep (a := .session .tick) rfl rfl
    show Session.Shows g.log _ (Loop.afterTick _)
    unfold Loop.afterTick
    split
    · exact ⟨start, at', before⟩
    · exact ⟨start, l.next, at', before, (List.append_nil _).symm ▸ before⟩
  | @timedOut l _ _ =>
    have here := h.keep (a := .session (.timedOut g.now)) rfl rfl
    exact here.imp fun start h => ⟨l.next, h⟩
  | @sent l frame =>
    obtain ⟨start, stop, at', -, after⟩ := h
    refine ⟨start, by simpa [Event.position] using at', ?_⟩
    rw [afterSend_next, shown_snoc]
    exact after
  | @failed l frame =>
    obtain ⟨start, stop, at', before, -⟩ := h.keep (a := .session (.failed frame)) rfl rfl
    exact ⟨start, stop, at', before⟩
  | closed => exact (h.keep rfl rfl).gone

lemma Pc.Shows.append {log more : List PageUpdateEvent} (h : p.Shows log as) :
    p.Shows (log ++ more) as := by
  cases p with
  | session q => exact Session.Shows.append h
  | gone =>
    refine h.imp id ?_
    rintro ⟨start, stop, at', before⟩
    exact ⟨start, stop, at', before.append⟩
  | _ => exact h

lemma Local.log (st : Local policy g p a g' p') : g'.log = g.log := by
  cases st <;> rfl

/-- Before its session starts a client is shown nothing. -/
lemma nothing_snoc (h : positions as = [] ∧ shown as = []) (marks : a.marks = [])
    (position : a.position = []) : positions (as ++ [a]) = [] ∧ shown (as ++ [a]) = [] := by
  rw [positions_snoc, shown_snoc, marks, position, List.append_nil, List.append_nil]
  exact h

lemma Local.shows (st : Local policy g p a g' p') (h : p.Shows g.log as) :
    p'.Shows g'.log (as ++ [a]) := by
  rw [st.log]
  cases st with
  | session st => exact st.shows h
  | returned st => exact st.shows h
  | dropped =>
    cases p with
    | session q => exact (Session.Shows.keep h rfl rfl).gone
    | gone =>
      refine h.imp (fun h => nothing_snoc h rfl rfl) ?_
      rintro ⟨start, stop, at', before⟩
      exact ⟨start, stop, by simpa [Event.position] using at', by simpa [Event.marks] using before⟩
    | _ => exact .inl (nothing_snoc h rfl rfl)
  | request k => cases k <;> exact nothing_snoc h rfl rfl
  | @admitted k _ _ => cases k <;> exact nothing_snoc h rfl rfl
  | _ => exact nothing_snoc h rfl rfl

/-- A client whose session has subscribed follows the feed. -/
lemma Pc.Shows.follows {log : List PageUpdateEvent} {start : Nat} (h : p.Shows log as)
    (mem : start ∈ positions as) :
    ∃ stop, Follows log start stop (shown as) ∧
      ∀ l, p = .session (.selecting l) → stop = l.next := by
  have only : ∀ {n : Nat}, positions as = [n] → start = n := fun at' => by simpa [at'] using mem
  have never : positions as ≠ [] := List.ne_nil_of_mem mem
  cases p with
  | session q =>
    cases q with
    | subscribe => exact (never h.1).elim
    | greet | interval | firstTick | arm =>
      obtain ⟨at', inside, none⟩ := h
      obtain rfl := only at'
      exact ⟨start, .start inside none, nofun⟩
    | selecting l =>
      obtain ⟨n, at', before⟩ := h
      obtain rfl := only at'
      refine ⟨l.next, before, ?_⟩
      rintro l' ⟨⟩
      rfl
    | sending l frame =>
      obtain ⟨n, stop, at', before, -⟩ := h
      obtain rfl := only at'
      exact ⟨stop, before, nofun⟩
    | closing =>
      obtain ⟨n, stop, at', before⟩ := h
      obtain rfl := only at'
      exact ⟨stop, before, nofun⟩
  | gone =>
    rcases h with ⟨none, -⟩ | ⟨n, stop, at', before⟩
    · exact (never none).elim
    · obtain rfl := only at'
      exact ⟨stop, before, nofun⟩
  | _ => exact (never h.1).elim

lemma shows_run (run : Run (LiveStep policy) (.start now capacity maxRequests maxConnections) tr s)
    (i : Nat) : (s.pc i).Shows s.shared.log (eventsOf i tr) := by
  refine run_history (J := fun g p as => p.Shows g.log as) (fun st h => st.shows h)
    (fun st h => st.log ▸ h) ?_ run (fun _ => ⟨rfl, rfl⟩) i
  intro g b g' q as st h
  cases st
  cases b with
  | publish event => exact h.append
  | _ => exact h

lemma mem_positions {start : Nat} (subscribed : .act i (.session (.subscribed start)) ∈ tr) :
    start ∈ positions (eventsOf i tr) :=
  List.mem_flatMap.mpr ⟨_, mem_eventsOf.mpr subscribed, List.mem_singleton_self start⟩

/-- In every run of the surface a client is shown the feed from where its session subscribed, in
order and without repetition, and for each stretch of updates that it lost it is told to reload. A
session that waits has shown all that it has read. -/
theorem feed_marked (run : Run (LiveStep policy) (.start now capacity maxRequests maxConnections)
    tr s) {i start : Nat} (subscribed : .act i (.session (.subscribed start)) ∈ tr) :
    ∃ stop, start ≤ stop ∧ stop ≤ s.shared.log.length ∧
      Feed.Marks (Feed.slice s.shared.log start stop) (shown (eventsOf i tr)) ∧
      ∀ l, s.pc i = .session (.selecting l) → stop = l.next := by
  obtain ⟨stop, follows, waits⟩ := (shows_run run i).follows (mem_positions subscribed)
  exact ⟨stop, follows.le, follows.inside, follows.marks, waits⟩

/-- A client that lost the first of two updates is told to reload and shown the second. -/
theorem feed_marked_lagged : ∃ tr s, Run (LiveStep .allowAbsent) (.start 0 1 1 1) tr s ∧
    (∃ stop, 0 ≤ stop ∧ stop ≤ s.shared.log.length ∧
      Feed.Marks (Feed.slice s.shared.log 0 stop) (shown (eventsOf 0 tr)) ∧
      ∀ l, s.pc 0 = .session (.selecting l) → stop = l.next) ∧
    s.shared.log = [⟨"a"⟩, ⟨"b"⟩] ∧ shown (eventsOf 0 tr) = [none, some ⟨"b"⟩] := by
  have run := (run_to_loop.append run_to_silence).mono fun st => st.1
  exact ⟨_, _, run, feed_marked run (by simp), rfl, rfl⟩

/-! ## Pings -/

/-- When the last ping was sent, if it is unanswered. -/
def Event.unanswered (since : Option Nat) : Event → Option Nat
  | .session (.sent .ping now) => some now
  | .session (.received (some (.ok (.pong _))) _) => none
  | _ => since

/-- Since when a ping is unanswered. -/
def unanswered (as : List Event) : Option Nat := as.foldl Event.unanswered none

@[simp]
lemma unanswered_snoc : unanswered (as ++ [a]) = a.unanswered (unanswered as) := by
  simp [unanswered]

/-- The loop knows of the unanswered ping and when its time is up. -/
def Loop.Knows (l : Loop) : Option Nat → Prop
  | none => l.awaitingPong = false
  | some since =>
    l.awaitingPong = true ∧ l.pongTimeout = since + fromSecs wsPongDeadlineSecs

lemma Loop.Knows.none (h : l.Knows since) (idle : l.awaitingPong = false) : since = .none := by
  cases since with
  | none => rfl
  | some since => cases idle.symm.trans h.1

/-- What a session knows of its pings. -/
def Session.Pinged (since : Option Nat) : Session → Prop
  | .selecting l => l.Knows since
  | .sending _ .ping => since = none
  | .sending l _ => l.Knows since
  | .closing => True
  | _ => since = none

def Pc.Pinged (since : Option Nat) : Pc → Prop
  | .session q => q.Pinged since
  | .gone => True
  | _ => since = none

/-- One step of a session, its pings and their answers. -/
lemma SessionLocal.pinged (st : SessionLocal g q b (some q')) (h : q.Pinged since) :
    q'.Pinged (Event.unanswered since (.session b)) := by
  cases st with
  | armed =>
    cases h
    rfl
  | @received l msg =>
    cases msg with
    | none => trivial
    | some msg =>
      cases msg with
      | error => trivial
      | ok m =>
        cases m with
        | close => trivial
        | pong => rfl
        | _ => exact h
  | @recv l r next recv =>
    cases r with
    | closed => trivial
    | _ => exact h
  | @tick l due =>
    show (Loop.afterTick _).Pinged since
    unfold Loop.afterTick
    split
    · exact h
    · next idle => exact Loop.Knows.none h (Bool.eq_false_iff.mpr idle)
  | @sent l frame =>
    cases frame with
    | ping => exact ⟨rfl, rfl⟩
    | _ => exact h
  | timedOut | failed => trivial
  | _ => exact h

lemma Local.pinged (st : Local policy g p a g' p') (h : p.Pinged (unanswered as)) :
    p'.Pinged (unanswered (as ++ [a])) := by
  rw [unanswered_snoc]
  cases st with
  | session st => exact st.pinged h
  | returned | dropped => trivial
  | request k => cases k <;> exact h
  | @admitted k _ _ => cases k <;> exact h
  | _ => exact h

/-- What has been done when something is about to be done. -/
lemma pinged_before {before after : Trace}
    (run : Run (LiveStep policy) (.start now capacity maxRequests maxConnections)
      (before ++ .act i a :: after) s) :
    ∃ g p g' p', Local policy g p a g' p' ∧ p.Pinged (unanswered (eventsOf i before)) := by
  obtain ⟨t, first, rest⟩ := run.split
  have pinged : (t.pc i).Pinged (unanswered (eventsOf i before)) :=
    run_thread (J := fun p as => p.Pinged (unanswered as)) (fun st h => st.pinged h)
      (fun _ => rfl) first i
  cases rest with
  | cons st _ =>
    cases st with
    | act st => exact ⟨_, _, _, _, st, pinged⟩

/-- In every run of the surface: a session that ends because its client is silent has sent a ping
that was unanswered for as long as `WS_PONG_DEADLINE_SECS` says, and no ping is sent while another
one is unanswered. -/
theorem timedOut_unanswered (run : Run (LiveStep policy) (.start now capacity maxRequests
    maxConnections) tr s) (i : Nat) :
    (∀ before t after, tr = before ++ .act i (.session (.timedOut t)) :: after →
      ∃ since, unanswered (eventsOf i before) = some since ∧
        since + fromSecs wsPongDeadlineSecs ≤ t) ∧
    (∀ before t after, tr = before ++ .act i (.session (.sent .ping t)) :: after →
      unanswered (eventsOf i before) = none) := by
  constructor
  · rintro before t after rfl
    obtain ⟨g, p, g', p', st, pinged⟩ := pinged_before run
    cases st with
    | session st =>
      cases st with
      | timedOut waiting due =>
        generalize unanswered (eventsOf i before) = since at pinged
        cases since with
        | none => cases waiting.symm.trans pinged
        | some since => exact ⟨since, rfl, pinged.2 ▸ due⟩
    | returned st => cases st
  · rintro before t after rfl
    obtain ⟨g, p, g', p', st, pinged⟩ := pinged_before run
    cases st with
    | session st =>
      cases st
      exact pinged
    | returned st => cases st

/-- A ping is unanswered for ten seconds, and the session ends. -/
theorem timedOut_unanswered_silent : ∃ (before : Trace) (s : Live),
    Run (LiveStep .allowAbsent) (.start 0 1 1 1)
      (before ++ [.act 0 (.session (.timedOut (fromSecs 40)))]) s ∧
    unanswered (eventsOf 0 before) = some (fromSecs 30) ∧
    ∃ since, unanswered (eventsOf 0 before) = some since ∧
      since + fromSecs wsPongDeadlineSecs ≤ fromSecs 40 := by
  have run := ((run_to_loop.append run_to_silence).snoc
    (only_act (.session (.timedOut rfl le_rfl)))).mono fun st => st.1
  exact ⟨_, _, run, rfl, (timedOut_unanswered run 0).1 _ _ [] rfl⟩

/-! ## Silent clients -/

/-- When the client last answered; a session starts as if it had. -/
def Event.lastAnswer (last : Option Nat) : Event → Option Nat
  | .session (.armed now) | .session (.received (some (.ok (.pong _))) now) => some now
  | _ => last

/-- When the client last answered. -/
def lastAnswer (as : List Event) : Option Nat := as.foldl Event.lastAnswer none

@[simp]
lemma lastAnswer_snoc : lastAnswer (as ++ [a]) = a.lastAnswer (lastAnswer as) := by
  simp [lastAnswer]

/-- The timers of a loop whose client answered at `last`. -/
structure Loop.Timely (l : Loop) (now last : Nat) : Prop where
  tick : l.nextTick ≤ now + fromSecs wsPingIntervalSecs
  idle : l.awaitingPong = false → l.nextTick ≤ last + fromSecs wsPingIntervalSecs ∧
    now ≤ last + fromSecs wsPingIntervalSecs
  waiting : l.awaitingPong = true → now ≤ l.pongTimeout ∧
    l.pongTimeout ≤ last + fromSecs wsPingIntervalSecs + fromSecs wsPongDeadlineSecs

/-- The timers of a session. -/
def Session.Timely (now : Nat) (last : Option Nat) : Session → Prop
  | .firstTick _ start => start ≤ now
  | .arm _ nextTick => nextTick ≤ now + fromSecs wsPingIntervalSecs
  | .selecting l => ∃ t, last = some t ∧ l.Timely now t
  | .sending l .ping => ∃ t, last = some t ∧ l.nextTick ≤ now + fromSecs wsPingIntervalSecs ∧
    now ≤ t + fromSecs wsPingIntervalSecs
  | .sending l _ => ∃ t, last = some t ∧ l.Timely now t
  | .closing => ∃ t, last = some t ∧
    now ≤ t + fromSecs wsPingIntervalSecs + fromSecs wsPongDeadlineSecs
  | _ => True

def Pc.Timely (now : Nat) (last : Option Nat) : Pc → Prop
  | .session q => q.Timely now last
  | _ => True

lemma Loop.Timely.bound {now last : Nat} (h : l.Timely now last) :
    now ≤ last + fromSecs wsPingIntervalSecs + fromSecs wsPongDeadlineSecs := by
  rcases Bool.eq_false_or_eq_true l.awaitingPong with waiting | idle
  · have := h.waiting waiting
    omega
  · have := h.idle idle
    omega

/-- The client answers. -/
lemma Loop.Timely.pong {now last : Nat} (h : l.Timely now last) :
    Loop.Timely { l with awaitingPong := false, pongTimeout := l.farFuture } now now where
  tick := h.tick
  idle _ := ⟨h.tick, Nat.le_add_right ..⟩
  waiting := nofun

/-- One step of a session and its timers. -/
lemma SessionLocal.timely (st : SessionLocal g q b (some q')) (h : q.Timely g.now last) :
    q'.Timely g.now (Event.lastAnswer last (.session b)) := by
  cases st with
  | subscribed | greeted => trivial
  | interval => exact le_rfl
  | firstTick due => exact Nat.add_le_add_right due _
  | armed => exact ⟨_, rfl, h, fun _ => ⟨h, Nat.le_add_right ..⟩, nofun⟩
  | @received l msg =>
    obtain ⟨t, rfl, timely⟩ := h
    have closing : (Session.closing).Timely g.now (some t) := ⟨t, rfl, timely.bound⟩
    cases msg with
    | none => exact closing
    | some msg =>
      cases msg with
      | error => exact closing
      | ok m =>
        cases m with
        | close => exact closing
        | pong => exact ⟨_, rfl, timely.pong⟩
        | _ => exact ⟨t, rfl, timely⟩
  | @recv l r next recv =>
    obtain ⟨t, rfl, timely⟩ := h
    cases r with
    | closed => exact ⟨t, rfl, timely.bound⟩
    | _ => exact ⟨t, rfl, timely.tick, timely.idle, timely.waiting⟩
  | @tick l due =>
    obtain ⟨t, rfl, timely⟩ := h
    have next : l.nextTick + fromSecs wsPingIntervalSecs ≤ g.now + fromSecs wsPingIntervalSecs :=
      Nat.add_le_add_right due _
    show (Loop.afterTick _).Timely g.now (some t)
    unfold Loop.afterTick
    split
    · next waiting =>
      exact ⟨t, rfl, next, fun idle => absurd (waiting.symm.trans idle) nofun, timely.waiting⟩
    · next idle => exact ⟨t, rfl, next, (timely.idle (Bool.eq_false_iff.mpr idle)).2⟩
  | @timedOut l _ _ =>
    obtain ⟨t, rfl, timely⟩ := h
    exact ⟨t, rfl, timely.bound⟩
  | @sent l frame =>
    cases frame with
    | ping =>
      obtain ⟨t, rfl, tick, sent⟩ := h
      exact ⟨t, rfl, tick, nofun, fun _ => ⟨Nat.le_add_right .., Nat.add_le_add_right sent _⟩⟩
    | _ => exact h
  | @failed l frame =>
    cases frame with
    | ping =>
      obtain ⟨t, rfl, -, sent⟩ := h
      exact ⟨t, rfl, sent.trans (Nat.le_add_right ..)⟩
    | _ =>
      obtain ⟨t, rfl, timely⟩ := h
      exact ⟨t, rfl, timely.bound⟩

/-- Time passes, as far as the session allows. -/
lemma Pc.Timely.pass {now later : Nat} (h : p.Timely now last) (le : now ≤ later)
    (allows : p.Allows now later) : p.Timely later last := by
  cases p with
  | session q =>
    cases q with
    | firstTick next start => exact le_trans h le
    | arm next nextTick => exact le_trans h (Nat.add_le_add_right le _)
    | selecting l =>
      obtain ⟨t, rfl, timely⟩ := h
      obtain ⟨tick, pong⟩ := allows
      refine ⟨t, rfl, ?_, fun idle => ?_, fun waiting => ⟨pong waiting, (timely.waiting waiting).2⟩⟩
      · exact timely.tick.trans (Nat.add_le_add_right le _)
      · exact ⟨(timely.idle idle).1, tick.trans (timely.idle idle).1⟩
    | sending l frame =>
      cases le_antisymm le allows
      exact h
    | closing =>
      cases le_antisymm le allows
      exact h
    | _ => trivial
  | _ => trivial

lemma Local.clock (st : Local policy g p a g' p') : g'.now = g.now := by
  cases st <;> rfl

lemma Local.timely (st : Local policy g p a g' p') (h : p.Timely g.now (lastAnswer as)) :
    p'.Timely g'.now (lastAnswer (as ++ [a])) := by
  rw [st.clock, lastAnswer_snoc]
  cases st with
  | session st => exact st.timely h
  | request k => cases k <;> trivial
  | @admitted k _ _ => cases k <;> trivial
  | _ => trivial

/-- The session is past its greeting. -/
def Session.InLoop : Session → Prop
  | .selecting _ | .sending _ _ | .closing => True
  | _ => False

lemma Session.Timely.bound {now : Nat} (h : q.Timely now last) (inLoop : q.InLoop) :
    ∃ t, last = some t ∧
      now ≤ t + fromSecs wsPingIntervalSecs + fromSecs wsPongDeadlineSecs := by
  cases q with
  | selecting l => exact h.imp fun t h => ⟨h.1, h.2.bound⟩
  | sending l frame =>
    cases frame with
    | ping => exact h.imp fun t h => ⟨h.1, h.2.2.trans (Nat.le_add_right ..)⟩
    | _ => exact h.imp fun t h => ⟨h.1, h.2.bound⟩
  | closing => exact h
  | _ => exact inLoop.elim

/-- In every run of a surface whose sessions are prompt, a client that holds a connection has
answered within the last 40 seconds, or its session has started within them. -/
theorem silent_let_go (run : Run (PromptStep policy) (.start now capacity maxRequests
    maxConnections) tr s) {i : Nat} {q : Session} (at' : s.pc i = .session q) (inLoop : q.InLoop) :
    ∃ last, lastAnswer (eventsOf i tr) = some last ∧ s.shared.now ≤ last + fromSecs 40 := by
  have timely : (s.pc i).Timely s.shared.now (lastAnswer (eventsOf i tr)) := by
    have sub {s l s'} (st : PromptStep policy s l s') : LiveStep policy s l s' := st.1
    refine run_history_of (J := fun g p as => p.Timely g.now (lastAnswer as)) sub
      (fun st h => st.timely h) (fun st h => st.clock ▸ h) ?_ run (fun _ => trivial) i
    intro s b g i as move st h
    cases move
    cases b with
    | pass nanos => exact h.pass (Nat.le_add_right ..) (st.2 nanos rfl i)
    | _ => exact h
  rw [at'] at timely
  have forty : fromSecs wsPingIntervalSecs + fromSecs wsPongDeadlineSecs = fromSecs 40 := by decide
  simpa only [Nat.add_assoc, forty] using Session.Timely.bound timely inLoop

/-- A client that never answers is let go 40 seconds after its session has started. -/
theorem silent_let_go_forty : ∃ (tr : Trace) (s : Live),
    Run (PromptStep .allowAbsent) (.start 0 1 1 1) tr s ∧ s.shared.now = fromSecs 40 ∧
    (∃ last, lastAnswer (eventsOf 0 tr) = some last ∧
      s.shared.now ≤ last + fromSecs 40) ∧
    lastAnswer (eventsOf 0 tr) = some 0 ∧
    ∃ s', PromptStep .allowAbsent s (.act 0 (.session (.timedOut (fromSecs 40)))) s' := by
  have run := run_to_loop.append run_to_silence
  refine ⟨_, _, run, rfl, silent_let_go run rfl trivial, rfl, ?_⟩
  exact ⟨_, only_act (.session (.timedOut rfl le_rfl))⟩

end CherryPit.Web.Serve
