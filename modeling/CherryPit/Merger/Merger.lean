import CherryPit.Conc.Handle
import CherryPit.Conc.Run
import CherryPit.Core.Store

/-!
# The command merger

Port of `cherry-pit-merger/src/{arm,merger,shared,handle}.rs`: a single task that takes commands
from a bounded channel and handles them one after the other against an event store, a routing index
from domain keys to aggregates, a tracker of sequences and a bus.

Rust → Lean: a command is a program (`handleOne`) over the calls into the store, the bus and the two
maps; the call of `MergerArm::handle` is an operation too, so that what it saw can be told from a
run. The arm is arbitrary. The store is any store of the contract; it is written by this task only.
A poisoned map lock is recovered from and the log lines of `publish_or_trace` are left out.

`World.persisted`, `World.seen` and `World.lost` are there to speak about runs; nothing reads them.
-/

namespace CherryPit.Merger

open Conc

/-- State folded from events (Rust `Aggregate`). -/
structure Aggregate (A E : Type) where
  default : A
  apply : A → E → A

/-- Rust `PersistMode`. -/
inductive PersistMode where
  | create
  | createOrAppend (key : String)
  | appendStrict (key : String)

/-- The domain key of a command. -/
def PersistMode.key : PersistMode → Option String
  | .create => none
  | .createOrAppend key | .appendStrict key => some key

/-- Rust `MergerArm`, with the conversion of store errors into its own. -/
structure Arm (A E Cmd Err : Type) where
  persistMode : Cmd → PersistMode
  handle : A → Cmd → Except Err (List E)
  publishLabel : Cmd → String
  missingKeyError : String → Err
  fromStore : StoreError → Err

/-- A command in the channel (Rust `MergerCommand`). -/
structure Command (Cmd : Type) where
  cmd : Cmd
  ctx : CorrelationContext

/-! ## Operations -/

/-- What the task does with the outside. -/
inductive Op (A E : Type) where
  | lookup (key : String)
  | load (id : AggregateId)
  | handle (state : A)
  | create (events : List E) (ctx : CorrelationContext)
  | append (id : AggregateId) (expected : NonZeroU64) (events : List E) (ctx : CorrelationContext)
  | orInsert (key : String) (id : AggregateId)
  | track (id : AggregateId) (sequence : NonZeroU64)
  | publish (envelopes : List (EventEnvelope E)) (label : String)

/-- What it is answered. -/
@[reducible] def Op.Res {A E : Type} (Err : Type) : Op A E → Type
  | .lookup _ => Option AggregateId
  | .load _ => Except StoreError (List (EventEnvelope E))
  | .handle _ => Except Err (List E)
  | .create _ _ => Except StoreError (AggregateId × List (EventEnvelope E))
  | .append _ _ _ _ => Except StoreError (List (EventEnvelope E))
  | .orInsert _ _ => Unit
  | .track _ _ => Unit
  | .publish _ _ => Except BusError Unit

/-- The signature of the operations. -/
@[reducible] def sig (A E Err : Type) : Sig := ⟨Op A E, Op.Res Err⟩

section Programs

variable {A E Cmd Err ε : Type}

/-- The state of an aggregate with these envelopes. -/
def Aggregate.fold (agg : Aggregate A E) (envelopes : List (EventEnvelope E)) : A :=
  envelopes.foldl (fun state env => agg.apply state env.payload) agg.default

/-- Rust `load_envelopes_or_empty`. -/
def loadEnvelopesOrEmpty (existingId : Option AggregateId) :
    Prog (sig A E Err) StoreError (List (EventEnvelope E) × Option NonZeroU64) :=
  match existingId with
  | none => .ret ([], none)
  | some id => do
    let envelopes ← .attempt (.load id) fun r => r
    match envelopes.getLast? with
    | none =>
      .raise (.corruptData
        ("indexed AggregateId " ++ id.display ++ " has zero envelopes (routing index stale)"))
    | some last => .ret (envelopes, some last.sequence)

/-- The update of the sequence tracker after a write. -/
def trackLast (id : AggregateId) (envelopes : List (EventEnvelope E)) :
    Prog (sig A E Err) ε (List (EventEnvelope E)) :=
  match envelopes.getLast? with
  | none => .ret envelopes
  | some env => .op (.track id env.sequence) fun _ => .ret envelopes

/-- Rust `append_and_track`. -/
def appendAndTrack (id : AggregateId) (lastSeq : NonZeroU64) (newEvents : List E)
    (ctx : CorrelationContext) : Prog (sig A E Err) StoreError (List (EventEnvelope E)) := do
  let envs ← .attempt (.append id lastSeq newEvents ctx) fun r => r
  trackLast id envs

/-- Rust `create_fresh`. -/
def createFresh (domainKey : Option String) (newEvents : List E) (ctx : CorrelationContext) :
    Prog (sig A E Err) StoreError (List (EventEnvelope E)) := do
  let made ← .attempt (.create newEvents ctx) fun r => r
  match domainKey with
  | none => trackLast made.1 made.2
  | some key => .op (.orInsert key made.1) fun _ => trackLast made.1 made.2

/-- Rust `create_or_append`. -/
def createOrAppend (domainKey : String) (existingId : Option AggregateId)
    (lastSeq : Option NonZeroU64) (newEvents : List E) (ctx : CorrelationContext) :
    Prog (sig A E Err) StoreError (List (EventEnvelope E)) :=
  match existingId, lastSeq with
  | none, _ => do
    let made ← .attempt (.create newEvents ctx) fun r => r
    .op (.orInsert domainKey made.1) fun _ => trackLast made.1 made.2
  | some id, some seq => do
    let envs ← .attempt (.append id seq newEvents ctx) fun r => r
    trackLast id envs
  | some id, none =>
    .raise (.corruptData ("indexed AggregateId " ++ id.display ++ " without last_seq; " ++
      "load_envelopes_or_empty should have surfaced this first"))

/-- Rust `publish_or_trace`: a failure is absorbed. -/
def publishOrTrace (envelopes : List (EventEnvelope E)) (label : String) :
    Prog (sig A E Err) ε Unit :=
  .op (.publish envelopes label) fun _ => .ret ()

variable (agg : Aggregate A E) (arm : Arm A E Cmd Err)

/-- Rust `arm.handle(&state, cmd)?`. -/
def handle (state : A) : Prog (sig A E Err) Err (List E) := .attempt (.handle state) fun r => r

/-- Rust `Merger::run_create`. -/
def runCreate (ctx : CorrelationContext) (label : String) : Prog (sig A E Err) Err Unit := do
  let newEvents ← handle agg.default
  let envs ← (createFresh none newEvents ctx).mapError arm.fromStore
  publishOrTrace envs label

/-- Rust `Merger::run_create_or_append`. -/
def runCreateOrAppend (key : String) (ctx : CorrelationContext) (label : String) :
    Prog (sig A E Err) Err Unit :=
  .op (.lookup key) fun existingId => do
    let loaded ← (loadEnvelopesOrEmpty existingId).mapError arm.fromStore
    let newEvents ← handle (agg.fold loaded.1)
    let envs ← (createOrAppend key existingId loaded.2 newEvents ctx).mapError arm.fromStore
    publishOrTrace envs label

/-- Rust `Merger::run_append_strict`. -/
def runAppendStrict (key : String) (ctx : CorrelationContext) (label : String) :
    Prog (sig A E Err) Err Unit :=
  .op (.lookup key) fun existingId =>
    match existingId with
    | none => .raise (arm.missingKeyError key)
    | some id => do
      let envelopes ← .attempt (.load id) fun r => r.mapError arm.fromStore
      match envelopes.getLast? with
      | none =>
        .raise (arm.fromStore (.corruptData
          ("indexed AggregateId " ++ id.display ++ " has zero envelopes (routing index stale)")))
      | some last => do
        let newEvents ← handle (agg.fold envelopes)
        let envs ← (appendAndTrack id last.sequence newEvents ctx).mapError arm.fromStore
        publishOrTrace envs label

/-- Rust `Merger::handle_one`. -/
def handleOne (c : Command Cmd) : Prog (sig A E Err) Err Unit :=
  let label := arm.publishLabel c.cmd
  match arm.persistMode c.cmd with
  | .create => runCreate agg arm c.ctx label
  | .createOrAppend key => runCreateOrAppend agg arm key c.ctx label
  | .appendStrict key => runAppendStrict agg arm key c.ctx label

end Programs

/-! ## The world -/

section World

variable {A E Cmd Err : Type}

/-- What was persisted, with the key of the command that it was persisted for. -/
abbrev Journal (E : Type) := List (Option String × EventEnvelope E)

/-- What was persisted for a key. -/
def Journal.of (journal : Journal E) (key : Option String) : List (EventEnvelope E) :=
  (journal.filter (·.1 = key)).map (·.2)

/-- The store, the routing index, the sequence tracker, and what the bus was handed. Then what was
persisted, what each call of `handle` saw and had been persisted at that time, and the keys for
which a stream was started without the task learning of it. -/
structure World (A E Cmd : Type) where
  store : Store E
  index : String → Option AggregateId
  nextSeq : AggregateId → Option NonZeroU64
  bus : List (EventEnvelope E)
  persisted : Journal E
  seen : List (Cmd × A × Journal E)
  lost : List String

/-- A store, an index and a tracker before the merger is spawned. -/
def World.opened (store : Store E) (index : String → Option AggregateId)
    (nextSeq : AggregateId → Option NonZeroU64) : World A E Cmd :=
  ⟨store, index, nextSeq, [], [], [], []⟩

/-- Envelopes have been persisted for a key. -/
def World.persist (w : World A E Cmd) (store : Store E) (key : Option String)
    (envs : List (EventEnvelope E)) : World A E Cmd :=
  { w with store := store, persisted := w.persisted ++ envs.map (key, ·) }

/-- The keys for which `create` started a stream and did not say so. -/
def lostKeys {α : Type} (mode : PersistMode) (envs : List (EventEnvelope E))
    (r : Except StoreError α) : List String :=
  match mode, envs, r with
  | .createOrAppend key, _ :: _, .error _ => [key]
  | _, _, _ => []

/-- The store does not answer `Indeterminate`. -/
def Known : (o : Op A E) → o.Res Err → Prop
  | .load _, r => ∀ source, r ≠ .error (.indeterminate source)
  | .create _ _, r => ∀ source, r ≠ .error (.indeterminate source)
  | .append _ _ _ _, r => ∀ source, r ≠ .error (.indeterminate source)
  | _, _ => True

/-- What an operation does while a command is handled. -/
def Acts (arm : Arm A E Cmd Err) : Semantics (sig A E Err) (Command Cmd) (World A E Cmd) :=
  fun _ c w o w' =>
  match o with
  | .lookup key => fun r => w' = w ∧ r = w.index key
  | .load id => fun r => w' = w ∧ Store.Load True w.store id r
  | .handle state => fun r =>
    w' = { w with seen := w.seen ++ [(c.cmd, state, w.persisted)] } ∧ r = arm.handle state c.cmd
  | .create events ctx => fun r =>
    ∃ store envs, Store.Create True w.store events ctx store envs r ∧
      w' = { w.persist store (arm.persistMode c.cmd).key envs with
        lost := w.lost ++ lostKeys (arm.persistMode c.cmd) envs r }
  | .append id expected events ctx => fun r =>
    ∃ store envs, Store.Append True w.store id expected events ctx store envs r ∧
      w' = w.persist store (arm.persistMode c.cmd).key envs
  | .orInsert key id => fun _ =>
    w' = { w with index := Function.update w.index key (some ((w.index key).getD id)) }
  | .track id sequence => fun _ =>
    w' = { w with nextSeq := Function.update w.nextSeq id (some sequence) }
  | .publish envelopes _ => fun _ => w' = { w with bus := w.bus ++ envelopes }

/-- Operations over a store of the contract; over one that is `sure`, no outcome is unknown. -/
def Performs (sure : Prop) (arm : Arm A E Cmd Err) :
    Semantics (sig A E Err) (Command Cmd) (World A E Cmd) :=
  fun i c w o w' r => Acts arm i c w o w' r ∧ (sure → Known o r)

/-! ## The system -/

/-- The merger task. While it handles a command it remembers the world in which it took it. -/
inductive Task (A E Cmd Err : Type) where
  | idle
  | busy (start : World A E Cmd) (c : Command Cmd) (p : Prog (sig A E Err) Err Unit)
  | stopped
  | aborted

/-- The task still has its end of the channel. -/
def Task.Live (t : Task A E Cmd Err) : Prop := t ≠ .stopped ∧ t ≠ .aborted

/-- Every command that was taken has been handled to its end. -/
def Task.Quiet (t : Task A E Cmd Err) : Prop := t = .idle ∨ t = .stopped

/-- The channel, the task and the world. -/
structure System (A E Cmd Err : Type) where
  queue : List (Command Cmd)
  task : Task A E Cmd Err
  world : World A E Cmd

/-- Rust `Merger::spawn`. -/
def System.spawn (w : World A E Cmd) : System A E Cmd Err := ⟨[], .idle, w⟩

/-- Rust `MERGER_CHANNEL_CAPACITY`. -/
def mergerChannelCapacity : Nat := 1024

/-- What one step of the system does. -/
inductive Label (Cmd Err : Type) where
  | send (c : Command Cmd)
  | take (c : Command Cmd)
  | work
  | reply (c : Command Cmd) (x : Except Err Unit)
  | close
  | abort

/-- Steps of the system: any number of handles send commands as long as there is room, and the task
takes them one by one. It stops when every handle is gone and the channel is empty; it is aborted
through its join handle, or by a panic of the arm, and then leaves its command where it is. -/
inductive SystemStep (sure : Prop) (agg : Aggregate A E) (arm : Arm A E Cmd Err) :
    System A E Cmd Err → Label Cmd Err → System A E Cmd Err → Prop where
  | send {st c} :
    st.task.Live →
    st.queue.length < mergerChannelCapacity →
    SystemStep sure agg arm st (.send c) { st with queue := st.queue ++ [c] }
  | take {c rest w} :
    SystemStep sure agg arm ⟨c :: rest, .idle, w⟩ (.take c)
      ⟨rest, .busy w c (handleOne agg arm c), w⟩
  | work {queue start c o k w w' r} :
    Performs sure arm 0 c w o w' r →
    SystemStep sure agg arm ⟨queue, .busy start c (.op o k), w⟩ .work
      ⟨queue, .busy start c (k r), w'⟩
  | reply {queue start c x w} :
    SystemStep sure agg arm ⟨queue, .busy start c (.ofExcept x), w⟩ (.reply c x)
      ⟨queue, .idle, w⟩
  | close {w} :
    SystemStep sure agg arm ⟨[], .idle, w⟩ .close ⟨[], .stopped, w⟩
  | abort {st} :
    st.task.Live →
    SystemStep sure agg arm st .abort { st with task := .aborted }

end World

end CherryPit.Merger
