import CherryPit.Web.Pages
import CherryPit.Web.Session

/-!
# Snapshots and deltas

The reconnect protocol of the projection adapter (`cherry-pit-web/src/projection`): a source
publishes a new snapshot and then broadcasts an update that names the pages that changed; a client
fetches its pages from the snapshot, attaches to `/ws`, and fetches again the pages that are named
in the frames it receives.

Rust → Lean: the source, the client and the client's session (`SessionStep`) take steps in any
order. A page is fetched through `resolve_page`, which answers with another page if the key is not
there and has no extension. The bodies of the pages are of any type; the text of an update is read
back by `decode`, which gives the pages that it names.

An update that is broadcast after a page was fetched and before the session has subscribed reaches
nobody, so the client keeps the old page (`stale_after_attach`). If that does not happen, and pages
are asked for by their own keys, a client that has caught up is not stale (`fresh_when_settled`).
-/

namespace CherryPit.Web

open Conc Function

variable {C : Type}

/-! ## The three parties -/

/-- The source, the client and its session. -/
structure World (C : Type) where
  snapshot : Option (Snapshot C)
  /-- The update of a snapshot that was published and not announced yet. -/
  pending : Option PageUpdate
  /-- The session the client is attached to. -/
  session : Option Session
  /-- The frames on their way to the client. -/
  wire : List Message
  /-- What the client was answered for its pages. -/
  held : String → Option (Option C)
  /-- The pages that the client has still to fetch again. -/
  named : List String
  /-- The updates that were broadcast since the client fetched a page. -/
  since : String → List PageUpdate

namespace World

def start : World C :=
  ⟨none, none, none, [], fun _ => none, [], fun _ => []⟩

/-- The page of the current snapshot. -/
def page (w : World C) (key : String) : Option C :=
  w.snapshot.bind (· key)

/-- What the client is answered. -/
def answer (w : World C) (key : String) : Option C :=
  w.snapshot.bind (resolvePage · key)

/-- The client has fetched a page. -/
def fetched (w : World C) (key : String) : World C :=
  { w with
    held := update w.held key (some (w.answer key))
    since := update w.since key [] }

/-- An update was broadcast. -/
def announced (w : World C) (u : PageUpdate) (session : Option Session) : World C :=
  { w with
    pending := none
    session := session
    since := fun key => w.since key ++ [u] }

end World

/-- The pages that a frame names. -/
def pagesIn (decode : String → List String) : Message → List String
  | .text payload => decode payload
  | _ => []

/-- What a session does itself. -/
def Label.own : Label → Bool
  | .publish _ | .dropSource => false
  | _ => true

/-- What the three parties do. -/
inductive Act where
  | publish (u : PageUpdate)
  | broadcast (u : PageUpdate)
  | fetch (key : String)
  | attach
  | session (l : Label)
  | handle (m : Message)
  | refetch (key : String)
  | reconnect

/-- Steps of the three parties. -/
inductive WorldStep (decode : String → List String) : World C → Act → World C → Prop where
  -- the source
  | publish {w snapshot u} :
    w.pending = none →
    (∀ key, w.page key ≠ snapshot key → key ∈ u.pages) →
    decode u.json = u.pages →
    WorldStep decode w (.publish u) { w with snapshot := some snapshot, pending := some u }
  | broadcast {w u} :
    w.pending = some u →
    w.session = none →
    WorldStep decode w (.broadcast u) (w.announced u none)
  | broadcastTo {w u s s'} :
    w.pending = some u →
    w.session = some s →
    SessionStep s (.publish u) s' →
    WorldStep decode w (.broadcast u) (w.announced u (some s'))
  -- the session
  | session {w s l s'} :
    w.session = some s →
    SessionStep s l s' →
    l.own = true →
    WorldStep decode w (.session l)
      { w with session := some s', wire := w.wire ++ l.frame.toList }
  -- the client
  | fetch {w key} :
    w.session = none →
    WorldStep decode w (.fetch key) (w.fetched key)
  | attach {w pongDuration} :
    w.session = none →
    WorldStep decode w .attach { w with session := some (.start pongDuration) }
  | handle {w m wire} :
    w.wire = m :: wire →
    WorldStep decode w (.handle m) { w with wire := wire, named := w.named ++ pagesIn decode m }
  | refetch {w key named} :
    w.named = key :: named →
    WorldStep decode w (.refetch key) { w.fetched key with named := named }
  | reconnect {w s} :
    w.session = some s →
    WorldStep decode w .reconnect
      { w with session := none, wire := [], held := fun _ => none, named := [] }

/-- The session has subscribed, is open and holds no update. -/
structure Session.CaughtUp (s : Session) : Prop where
  subscribed : s.phase ≠ .entry
  isOpen : ¬ s.phase.Ended
  sent : s.phase.held = []
  read : s.unread = some []

/-- The session is open, the source is idle, every update was sent, and every frame was delivered
and handled. -/
def Settled (w : World C) : Prop :=
  w.pending = none ∧ w.wire = [] ∧ w.named = [] ∧ ∃ s, w.session = some s ∧ s.CaughtUp

/-- Every page that the client holds is that of the current snapshot. -/
def UpToDate (w : World C) : Prop :=
  ∀ key page, w.held key = some page → page = w.page key

/-- Pages are asked for by keys that are there or have an extension, and when the session
subscribes, no update was broadcast that names a page which the client had fetched before. -/
def Timely (w : World C) : Act → Prop
  | .fetch key | .refetch key => HasExtension key ∨ w.page key ≠ none
  | .session .subscribe => ∀ key, w.held key ≠ none → ∀ u ∈ w.since key, key ∉ u.pages
  | _ => True

/-! ## Updates on their way -/

/-- A session has a receiver once it has subscribed. -/
inductive Session.Wellformed (s : Session) : Prop where
  | entry : s.phase = .entry → s.unread = none → Wellformed s
  | subscribed {q} : s.phase ≠ .entry → s.unread = some q → Wellformed s
  | ended : s.phase.Ended → Wellformed s

/-- An update that names a page is in the session's hands. -/
def Session.Carries (decode : String → List String) (s : Session) (key : String) : Prop :=
  s.phase ≠ .entry ∧ ∃ q, s.unread = some q ∧ ∃ u ∈ s.phase.held ++ q, key ∈ decode u.json

/-- Where the update of a page is that the client holds an old version of. -/
inductive Underway (decode : String → List String) (w : World C) (key : String) : Prop where
  | pending {u} :
    w.pending = some u →
    key ∈ u.pages →
    Underway decode w key
  | missed {u} :
    (∀ s ∈ w.session, s.phase = .entry) →
    u ∈ w.since key →
    key ∈ u.pages →
    Underway decode w key
  | carried {s} :
    w.session = some s →
    s.phase.Ended ∨ s.Carries decode key →
    Underway decode w key
  | sent {m} :
    m ∈ w.wire →
    key ∈ pagesIn decode m →
    Underway decode w key
  | named :
    key ∈ w.named →
    Underway decode w key

/-- The client is up to date but for the updates that are on their way. -/
structure Inv (decode : String → List String) (w : World C) : Prop where
  readable : ∀ u ∈ w.pending, decode u.json = u.pages
  wellformed : ∀ s ∈ w.session, s.Wellformed
  fresh : ∀ key page, w.held key = some page → page = w.page key ∨ Underway decode w key

section Sessions

variable {decode : String → List String} {s s' : Session} {l : Label} {key : String}

/-- A step of a session that has subscribed hands on what it has not sent, or ends the session. -/
lemma SessionStep.hands {q} (step : SessionStep s l s') (subscribed : s.phase ≠ .entry)
    (unread : s.unread = some q) :
    s'.phase.Ended ∨ s'.phase ≠ .entry ∧ ∃ q', s'.unread = some q' ∧
      ∀ payload ∈ (s.phase.held ++ q).map PageUpdate.json,
        payload ∈ payloads l.frame.toList ∨
          payload ∈ (s'.phase.held ++ q').map PageUpdate.json := by
  by_cases greeted : s.phase.Greeted
  · obtain ⟨ended, -⟩ | ⟨greeted', q', unread', shown⟩ := step.shows greeted unread
    · exact .inl ended
    · refine .inr ⟨fun entry => ?_, q', unread', fun payload mem => ?_⟩
      · rw [entry] at greeted'
        cases greeted'
      · rw [← List.mem_append, shown, List.map_append]
        exact List.mem_append_left _ mem
  -- the greeting is about to be sent
  · have connecting : ∃ deadline, s.phase = .send .connected deadline := by
      unfold Phase.Greeted at greeted
      split at greeted
      next entry => exact absurd entry subscribed
      next deadline here => exact ⟨deadline, here⟩
      next => exact absurd trivial greeted
    obtain ⟨deadline, here⟩ := connecting
    cases step with
    | @publish u _ =>
      refine .inr ⟨subscribed, q ++ [u], congrArg (Option.map (· ++ [u])) unread, ?_⟩
      intro payload mem
      rw [← List.append_assoc, List.map_append]
      exact .inr (List.mem_append_left _ mem)
    | dropSource => exact .inr ⟨subscribed, q, unread, fun payload mem => .inr mem⟩
    | attempt =>
      refine .inr ⟨nofun, q, unread, fun payload mem => .inr ?_⟩
      rw [here] at mem
      exact mem
    | expired => exact .inl afterSend_failed.ended
    | subscribe at' | sent at' | attemptClose at' | sentClose at' | firstTick at'
    | receive at' | flush at' | recv at' | tick at' | pongDeadline at' =>
      cases at'.symm.trans here

/-- An update on its way is not lost but by the end of the session. -/
lemma SessionStep.carries (step : SessionStep s l s') (carries : s.Carries decode key) :
    (s'.phase.Ended ∨ s'.Carries decode key) ∨ ∃ m ∈ l.frame, key ∈ pagesIn decode m := by
  obtain ⟨subscribed, q, unread, u, mem, names⟩ := carries
  obtain ended | ⟨subscribed', q', unread', rest⟩ := step.hands subscribed unread
  · exact .inl (.inl ended)
  · obtain sent | kept := rest u.json (List.mem_map_of_mem mem)
    · obtain ⟨m, frame, payload⟩ := List.mem_filterMap.mp sent
      refine .inr ⟨m, Option.mem_toList.mp frame, ?_⟩
      cases m with
      | text =>
        cases payload
        exact names
      | binary | ping | pong | close => cases payload
    · obtain ⟨u', mem', same⟩ := List.mem_map.mp kept
      exact .inl (.inr ⟨subscribed', q', unread', u', mem', same ▸ names⟩)

/-- A session that has ended stays so. -/
lemma SessionStep.ended (step : SessionStep s l s') (h : s.phase.Ended) : s'.phase.Ended := by
  cases step with
  | publish | dropSource => exact h
  | attemptClose => trivial
  | flush => exact leaveClosed_silent.ended
  | sentClose => exact afterClose_silent.ended
  | subscribe at' | attempt at' | expired at' | sent at' | firstTick at'
  | receive at' | recv at' | tick at' | pongDeadline at' =>
    rw [at'] at h
    cases h

lemma SessionStep.wellformed (step : SessionStep s l s') (h : s.Wellformed) : s'.Wellformed := by
  cases h with
  | entry at' unread =>
    cases step with
    | publish => exact .entry at' (congrArg (Option.map _) unread)
    | dropSource => exact .entry at' unread
    | subscribe => exact .subscribed nofun rfl
    | attempt here | expired here | sent here | attemptClose here | sentClose here
    | firstTick here | receive here | flush here | recv here | tick here | pongDeadline here =>
      cases here.symm.trans at'
  | subscribed ne unread =>
    obtain ended | ⟨ne', q', unread', -⟩ := step.hands ne unread
    · exact .ended ended
    · exact .subscribed ne' unread'
  | ended ended => exact .ended (step.ended ended)

end Sessions

/-! ## Catching up -/

section Steps

variable {decode : String → List String} {w w' : World C} {key : String} {u : PageUpdate}
  {s s' : Session} {l : Label} {act : Act}

lemma inv_start : Inv decode (.start : World C) :=
  ⟨nofun, fun _ session => absurd session (Option.not_mem_none _), nofun⟩

/-- A new snapshot makes exactly the pages old that its update names. -/
lemma Inv.publish {snapshot : Snapshot C} (inv : Inv decode w) (idle : w.pending = none)
    (names : ∀ key, w.page key ≠ snapshot key → key ∈ u.pages)
    (readable : decode u.json = u.pages) :
    Inv decode { w with snapshot := some snapshot, pending := some u } where
  readable := by
    rintro _ ⟨⟩
    exact readable
  wellformed := inv.wellformed
  fresh key page held := by
    obtain same | underway := inv.fresh key page held
    · by_cases changed : w.page key = snapshot key
      · exact .inl (same.trans changed)
      · exact .inr (.pending rfl (names key changed))
    · refine .inr ?_
      cases underway with
      | pending here => cases idle.symm.trans here
      | missed entry mem names => exact .missed entry mem names
      | carried here carried => exact .carried here carried
      | sent mem names => exact .sent mem names
      | named mem => exact .named mem

/-- An update that is broadcast while the client has no session is missed. -/
lemma Inv.broadcast (inv : Inv decode w) (here : w.pending = some u) (alone : w.session = none) :
    Inv decode (w.announced u none) where
  readable := nofun
  wellformed _ session := absurd session (Option.not_mem_none _)
  fresh key page held := by
    have entry : ∀ s ∈ (w.announced u none).session, s.phase = .entry :=
      fun _ session => absurd session (Option.not_mem_none _)
    refine (inv.fresh key page held).imp id fun underway => ?_
    cases underway with
    | pending here' names =>
      cases here.symm.trans here'
      exact .missed entry (List.mem_append_right _ (List.mem_singleton_self u)) names
    | missed _ mem names => exact .missed entry (List.mem_append_left _ mem) names
    | carried session => cases alone.symm.trans session
    | sent mem names => exact .sent mem names
    | named mem => exact .named mem

/-- A session that has subscribed carries the update that was broadcast. -/
lemma SessionStep.takes (step : SessionStep s (.publish u) s') (h : s.Wellformed) :
    s'.phase = .entry ∨ s'.phase.Ended ∨ ∀ key ∈ decode u.json, s'.Carries decode key := by
  cases step
  cases h with
  | entry entry => exact .inl entry
  | ended ended => exact .inr (.inl ended)
  | @subscribed q ne unread =>
    refine .inr (.inr fun key names => ?_)
    refine ⟨ne, q ++ [u], congrArg (Option.map (· ++ [u])) unread, u, ?_, names⟩
    rw [← List.append_assoc]
    exact List.mem_append_right _ (List.mem_singleton_self u)

/-- An update that is broadcast is missed by a session that has not subscribed, and else carried. -/
lemma Inv.broadcastTo (inv : Inv decode w) (here : w.pending = some u)
    (session : w.session = some s)
    (step : SessionStep s (.publish u) s') : Inv decode (w.announced u (some s')) where
  readable := nofun
  wellformed := by
    rintro _ ⟨⟩
    exact step.wellformed (inv.wellformed s session)
  fresh key page held := by
    refine (inv.fresh key page held).imp id fun underway => ?_
    cases underway with
    | pending here' names =>
      cases here.symm.trans here'
      have named : key ∈ decode u.json := (inv.readable u here).symm ▸ names
      obtain entry | ended | carries := step.takes (inv.wellformed s session)
      · refine .missed ?_ (List.mem_append_right _ (List.mem_singleton_self u)) names
        rintro _ ⟨⟩
        exact entry
      · exact .carried rfl (.inl ended)
      · exact .carried rfl (.inr (carries key named))
    | missed entry mem names =>
      refine .missed ?_ (List.mem_append_left _ mem) names
      rintro _ ⟨⟩
      cases step
      exact entry s session
    | carried session' carried =>
      cases session.symm.trans session'
      obtain ended | carries := carried
      · exact .carried rfl (.inl (step.ended ended))
      · obtain carried | ⟨m, frame, -⟩ := step.carries carries
        · exact .carried rfl carried
        · cases frame
    | sent mem names => exact .sent mem names
    | named mem => exact .named mem

/-- A session that has not subscribed does nothing else first. -/
lemma SessionStep.subscribes (step : SessionStep s l s') (own : l.own = true)
    (entry : s.phase = .entry) : l = .subscribe := by
  cases step with
  | subscribe => rfl
  | publish | dropSource => cases own
  | attempt here | expired here | sent here | attemptClose here | sentClose here
  | firstTick here | receive here | flush here | recv here | tick here | pongDeadline here =>
    cases here.symm.trans entry

/-- A step of the session keeps an update on its way, or puts it on the wire. When the session
subscribes, the updates that were broadcast before are lost. -/
lemma Inv.session (inv : Inv decode w) (here : w.session = some s) (step : SessionStep s l s')
    (own : l.own = true) (timely : Timely w (.session l)) :
    Inv decode { w with session := some s', wire := w.wire ++ l.frame.toList } where
  readable := inv.readable
  wellformed := by
    rintro _ ⟨⟩
    exact step.wellformed (inv.wellformed s here)
  fresh key page held := by
    refine (inv.fresh key page held).imp id fun underway => ?_
    cases underway with
    | pending here names => exact .pending here names
    | missed entry mem names =>
      cases step.subscribes own (entry s here)
      exact absurd names (timely key (held ▸ Option.some_ne_none page) _ mem)
    | carried here' carried =>
      cases here.symm.trans here'
      obtain ended | carries := carried
      · exact .carried rfl (.inl (step.ended ended))
      · obtain carried | ⟨m, frame, names⟩ := step.carries carries
        · exact .carried rfl carried
        · exact .sent (List.mem_append_right _ (Option.mem_toList.mpr frame)) names
    | sent mem names => exact .sent (List.mem_append_left _ mem) names
    | named mem => exact .named mem

/-- A page that is there or has an extension is that of the snapshot when it has just been
fetched. -/
lemma fetched_fresh {page : Option C} (direct : HasExtension key ∨ w.page key ≠ none)
    (held : (w.fetched key).held key = some page) : page = w.page key := by
  have answer : w.answer key = w.page key := by
    unfold World.page at direct ⊢
    unfold World.answer
    cases snapshot : w.snapshot with
    | none => rfl
    | some pages =>
      rw [snapshot] at direct
      rcases direct with ext | there
      · exact resolvePage_of_hasExtension ext
      · exact resolvePage_of_ne_none there
  have eq : (w.fetched key).held key = some (w.answer key) := update_self ..
  rw [eq, Option.some_inj] at held
  exact held.symm.trans answer

/-- A fetch changes nothing for the other pages. -/
lemma Inv.fetched {named : List String} (inv : Inv decode w)
    (direct : HasExtension key ∨ w.page key ≠ none)
    (rest : ∀ key' ∈ w.named, key' ≠ key → key' ∈ named) :
    Inv decode { w.fetched key with named := named } where
  readable := inv.readable
  wellformed := inv.wellformed
  fresh key' page held := by
    by_cases eq : key' = key
    · subst eq
      exact .inl (fetched_fresh (w := w) direct held)
    · have same : (w.fetched key).held key' = w.held key' := update_of_ne eq ..
      have since : (w.fetched key).since key' = w.since key' := update_of_ne eq ..
      refine (inv.fresh key' page (same.symm.trans held)).imp id fun underway => ?_
      cases underway with
      | pending here names => exact .pending here names
      | missed entry mem names => exact .missed entry (since.symm ▸ mem) names
      | carried here carried => exact .carried here carried
      | sent mem names => exact .sent mem names
      | named mem => exact .named (rest key' mem eq)

/-- A client that attaches has a session that has not subscribed yet. -/
lemma Inv.attach {pongDuration : Nat} (inv : Inv decode w) (alone : w.session = none) :
    Inv decode { w with session := some (.start pongDuration) } where
  readable := inv.readable
  wellformed := by
    rintro _ ⟨⟩
    exact .entry rfl rfl
  fresh key page held := by
    refine (inv.fresh key page held).imp id fun underway => ?_
    cases underway with
    | pending here names => exact .pending here names
    | missed _ mem names =>
      refine .missed ?_ mem names
      rintro _ ⟨⟩
      rfl
    | carried session => cases alone.symm.trans session
    | sent mem names => exact .sent mem names
    | named mem => exact .named mem

/-- The pages that a frame names are fetched again. -/
lemma Inv.handle {m : Message} {wire : List Message} (inv : Inv decode w)
    (here : w.wire = m :: wire) :
    Inv decode { w with wire := wire, named := w.named ++ pagesIn decode m } where
  readable := inv.readable
  wellformed := inv.wellformed
  fresh key page held := by
    refine (inv.fresh key page held).imp id fun underway => ?_
    cases underway with
    | pending here names => exact .pending here names
    | missed entry mem names => exact .missed entry mem names
    | carried here carried => exact .carried here carried
    | sent mem names =>
      rw [here] at mem
      rcases List.mem_cons.mp mem with rfl | mem
      · exact .named (List.mem_append_right _ names)
      · exact .sent mem names
    | named mem => exact .named (List.mem_append_left _ mem)

/-- A timely step keeps the invariant. -/
lemma Inv.step (inv : Inv decode w) (step : WorldStep decode w act w') (timely : Timely w act) :
    Inv decode w' := by
  cases step with
  | publish idle names readable => exact inv.publish idle names readable
  | broadcast here alone => exact inv.broadcast here alone
  | broadcastTo here session step => exact inv.broadcastTo here session step
  | session here step own => exact inv.session here step own timely
  | fetch => exact inv.fetched timely fun key' mem _ => mem
  | attach alone => exact inv.attach alone
  | handle here => exact inv.handle here
  | refetch named =>
    refine inv.fetched timely fun key' mem ne => ?_
    rw [named] at mem
    exact List.mem_of_ne_of_mem ne mem
  | reconnect =>
    exact ⟨inv.readable, fun _ session => absurd session (Option.not_mem_none _), nofun⟩

/-- When all has settled, no update is on its way. -/
lemma Settled.not_underway (h : Settled w) : ¬ Underway decode w key := by
  obtain ⟨idle, wire, named, s, session, caught⟩ := h
  intro underway
  cases underway with
  | pending here => cases idle.symm.trans here
  | missed entry => exact caught.subscribed (entry s session)
  | carried here carried =>
    cases session.symm.trans here
    obtain ended | ⟨-, q, here, u, mem, -⟩ := carried
    · exact caught.isOpen ended
    · cases caught.read.symm.trans here
      rw [caught.sent] at mem
      cases mem
  | sent mem =>
    rw [wire] at mem
    cases mem
  | named mem =>
    rw [named] at mem
    cases mem

/-- In every run in which pages are asked for by keys that are there or have an extension, and in
which no session subscribes after an update was broadcast that names a page its client had fetched
before: a client that has caught up is not stale. -/
theorem fresh_when_settled {tr}
    (run : Run (fun w act w' => WorldStep decode w act w' ∧ Timely w act) .start tr w)
    (settled : Settled w) : UpToDate w := by
  have inv : Inv decode w := run.invariant (fun inv step => inv.step step.1 step.2) inv_start
  intro key page held
  exact (inv.fresh key page held).resolve_right settled.not_underway

end Steps

/-! ## A page that changes while a client attaches -/

/-- A snapshot of one page. -/
def onePage (version : Nat) : Snapshot Nat :=
  fun key => if key = "index.html" then some version else none

/-- The update that names this page. -/
def changed : PageUpdate := ⟨["index.html"], "index.html changed"⟩

def readChanged (payload : String) : List String :=
  if payload = "index.html changed" then ["index.html"] else []

/-- A session at `select!` with nothing unread. -/
lemma caughtUp_selecting {s : Session} (selecting : s.phase = .selecting)
    (read : s.unread = some []) : s.CaughtUp := by
  refine ⟨?_, ?_, ?_, read⟩ <;> rw [selecting]
  · exact nofun
  · exact id
  · rfl

lemma changed_names {version : Nat} {w : World Nat}
    (other : ∀ key ≠ "index.html", w.page key = none) :
    ∀ key, w.page key ≠ onePage version key → key ∈ changed.pages := by
  intro key ne
  by_contra absent
  have key_ne : key ≠ "index.html" := fun eq => absent (eq ▸ List.mem_singleton_self _)
  exact ne ((other key key_ne).trans (if_neg key_ne).symm)

/-- A session subscribes in time if its client has fetched one page and nothing happened since. -/
lemma timely_fetched {w : World C} {key : String} {session : Option Session}
    (none : ∀ key, w.held key = none) :
    Timely { w.fetched key with session := session } (.session .subscribe) := by
  intro key' held u mem
  by_cases eq : key' = key
  · subst eq
    have since : (w.fetched key').since key' = [] := update_self ..
    change u ∈ (w.fetched key').since key' at mem
    rw [since] at mem
    cases mem
  · have same : (w.fetched key).held key' = w.held key' := update_of_ne eq ..
    exact absurd (same.trans (none key')) held

/-- A client that has caught up after the page has changed again. -/
theorem fresh_when_settled_twice :
    ∃ tr w, Run (fun w act w' => WorldStep readChanged w act w' ∧ Timely w act)
        (.start : World Nat) tr w ∧
      Settled w ∧ w.page "index.html" = some 2 ∧ UpToDate w := by
  have only {version : Nat} : ∀ key ≠ "index.html", onePage version key = none :=
    fun key ne => if_neg ne
  have ext : HasExtension "index.html" := by
    unfold HasExtension
    decide
  have fetched : Run (fun w act w' => WorldStep readChanged w act w' ∧ Timely w act)
      (.start : World Nat) _ _ :=
    .cons ⟨@WorldStep.publish _ _ _ (onePage 1) changed rfl (changed_names fun _ _ => rfl) rfl,
        trivial⟩ <|
      .cons ⟨.broadcast rfl rfl, trivial⟩ <|
      .cons ⟨@WorldStep.fetch _ _ _ "index.html" rfl, .inl ext⟩ <|
      .cons ⟨@WorldStep.attach _ _ _ 10 rfl, trivial⟩ .nil
  have greeted := fetched.append <|
    .cons ⟨.session rfl (.subscribe rfl) rfl, timely_fetched fun _ => rfl⟩ <|
      .cons ⟨.session rfl (@SessionStep.attempt _ _ _ 0 rfl nofun) rfl, trivial⟩ <|
      .cons ⟨.session rfl (@SessionStep.sent _ _ .ok 0 rfl) rfl, trivial⟩ <|
      .cons ⟨.session rfl (.firstTick rfl) rfl, trivial⟩ <|
      .cons ⟨.handle rfl, trivial⟩ .nil
  have updated := greeted.append <|
    .cons ⟨@WorldStep.publish _ _ _ (onePage 2) changed rfl (changed_names only) rfl, trivial⟩ <|
      .cons ⟨.broadcastTo rfl rfl (.publish rfl), trivial⟩ <|
      .cons ⟨.session rfl (.recv rfl rfl .ok nofun) rfl, trivial⟩ <|
      .cons ⟨.session rfl (@SessionStep.attempt _ _ _ 0 rfl nofun) rfl, trivial⟩ <|
      .cons ⟨.session rfl (@SessionStep.sent _ _ .ok 0 rfl) rfl, trivial⟩ <|
      .cons ⟨.handle rfl, trivial⟩ <| .cons ⟨.refetch rfl, .inl ext⟩ .nil
  obtain ⟨tr, w, run, settled, page⟩ : ∃ tr w, Run (fun w act w' => WorldStep readChanged w act w' ∧
      Timely w act) (.start : World Nat) tr w ∧ Settled w ∧ w.page "index.html" = some 2 :=
    ⟨_, _, updated, ⟨rfl, rfl, rfl, _, rfl, caughtUp_selecting rfl rfl⟩, rfl⟩
  exact ⟨tr, w, run, settled, page, fresh_when_settled run settled⟩

/-- The page changes after the client has fetched it and before its session has subscribed. All
settles, and the client holds the old page. -/
theorem stale_after_attach :
    ∃ tr w, Run (WorldStep readChanged) (.start : World Nat) tr w ∧ Settled w ∧
      w.session.map (·.phase) = some .selecting ∧
      w.held "index.html" = some (some 1) ∧ w.page "index.html" = some 2 := by
  have only {version : Nat} : ∀ key ≠ "index.html", onePage version key = none :=
    fun key ne => if_neg ne
  have fetched : Run (WorldStep readChanged) (.start : World Nat) _ _ :=
    .cons (@WorldStep.publish _ _ _ (onePage 1) changed rfl (changed_names fun _ _ => rfl) rfl) <|
      .cons (.broadcast rfl rfl) <| .cons (@WorldStep.fetch _ _ _ "index.html" rfl) .nil
  have attached := fetched.append <|
    .cons (@WorldStep.publish _ _ _ (onePage 2) changed rfl (changed_names only) rfl) <|
      .cons (.broadcast rfl rfl) <| .cons (@WorldStep.attach _ _ _ 10 rfl) .nil
  have greeted := attached.append <|
    .cons (.session rfl (.subscribe rfl) rfl) <|
      .cons (.session rfl (@SessionStep.attempt _ _ _ 0 rfl nofun) rfl) <|
      .cons (.session rfl (@SessionStep.sent _ _ .ok 0 rfl) rfl) <|
      .cons (.session rfl (.firstTick rfl) rfl) <| .cons (.handle rfl) .nil
  exact ⟨_, _, greeted, ⟨rfl, rfl, rfl, _, rfl, caughtUp_selecting rfl rfl⟩, rfl, rfl, rfl⟩

end CherryPit.Web
