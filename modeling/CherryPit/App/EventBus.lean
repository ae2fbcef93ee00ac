import CherryPit.Conc.Nested

/-!
# The event bus

Port of `InProcessEventBus` (`cherry-pit-app/src/event_bus.rs`): handlers are called by `publish`,
on the thread of the publisher, for every envelope in turn. The vector of handlers is behind a
mutex. `register` puts a longer copy in its place; `publish` takes what is there and gives the mutex
back before it calls the first handler, so that handlers may use the bus.

Rust → Lean: any number of threads, each with the calls that it is in. The mutex is a flag, and a
poisoned one is taken like any other. What a handler does is left open: it may use the bus, return,
panic, or do nothing more; a panic ends the call of `publish`, and the code around that call goes on
with anything. Handlers and envelopes are of any type.
-/

namespace CherryPit.App.EventBus

open Conc Threads Function

variable {H E : Type}

/-- The bus: its handlers, and whether a thread has the mutex. -/
structure Bus (H : Type) where
  handlers : List H
  locked : Bool

/-- Rust `new`. -/
def Bus.new : Bus H := ⟨[], false⟩

/-- What can be asked of the bus. -/
inductive Op (H E : Type) where
  | register (handler : H)
  | handlerCount
  | publish (events : List E)

/-- Where a call is: before the mutex, with the mutex, with the mutex and the new vector, or in the
loops of `publish`, with the handlers that are left for the first one of the events. -/
inductive Pc (H E : Type) where
  | locking (op : Op H E)
  | locked (op : Op H E)
  | swapping (handler : H) (next : List H)
  | fanOut (snapshot left : List H) (events : List E)

/-- The call has the mutex. -/
def Pc.Holds : Pc H E → Prop
  | .locked _ | .swapping _ _ => True
  | .locking _ | .fanOut _ _ _ => False

/-- A call of `publish` that waits for a handler. -/
structure Calling (H E : Type) where
  snapshot : List H
  left : List H
  events : List E

/-- What a call does. -/
inductive Act (H E : Type) where
  | call (op : Op H E)
  | lock
  | copy
  | registered (handler : H)
  | counted (n : Nat)
  | snapshot (handlers : List H)
  | invoke (envelope : E) (handler : H)
  | returned
  | panicked
  | advance
  | done

/-- A call is over. -/
def Act.Ends : Act H E → Prop
  | .registered _ | .counted _ | .panicked | .done => True
  | _ => False

/-- A call starts. -/
inductive Enter : Act H E → Pc H E → Prop where
  | call {op} :
    Enter (.call op) (.locking op)

/-- Steps of a call. -/
inductive Acts : Bus H → Pc H E ⊕ Calling H E → Act H E → Bus H → Option (Pc H E ⊕ Calling H E) →
    Prop where
  | lock {bus op} :
    bus.locked = false →
    Acts bus (.inl (.locking op)) .lock { bus with locked := true } (some (.inl (.locked op)))
  -- `register`
  | copy {bus handler} :
    Acts bus (.inl (.locked (.register handler))) .copy bus
      (some (.inl (.swapping handler (bus.handlers ++ [handler]))))
  | registered {bus handler next} :
    Acts bus (.inl (.swapping handler next)) (.registered handler) ⟨next, false⟩ none
  -- `handler_count`
  | counted {bus} :
    Acts bus (.inl (.locked .handlerCount)) (.counted bus.handlers.length)
      { bus with locked := false } none
  -- `publish`
  | snapshot {bus events} :
    Acts bus (.inl (.locked (.publish events))) (.snapshot bus.handlers)
      { bus with locked := false } (some (.inl (.fanOut bus.handlers bus.handlers events)))
  | invoke {bus snapshot handler left envelope events} :
    Acts bus (.inl (.fanOut snapshot (handler :: left) (envelope :: events)))
      (.invoke envelope handler) bus (some (.inr ⟨snapshot, left, envelope :: events⟩))
  | returned {bus snapshot left events} :
    Acts bus (.inr ⟨snapshot, left, events⟩) .returned bus
      (some (.inl (.fanOut snapshot left events)))
  | panicked {bus calling} :
    Acts bus (.inr calling) .panicked bus none
  | advance {bus snapshot envelope events} :
    Acts bus (.inl (.fanOut snapshot [] (envelope :: events))) .advance bus
      (some (.inl (.fanOut snapshot snapshot events)))
  | done {bus snapshot left} :
    Acts bus (.inl (.fanOut snapshot left [])) .done bus none

/-- A bus and the threads that use it. -/
abbrev Users (H E : Type) := Threads (Bus H) (CallStack (Pc H E) (Calling H E))

/-- What happened: who did what, and at which depth. -/
abbrev Trace (H E : Type) := List (Threads.Label (Nat × Act H E) Empty)

/-- Steps of the threads. -/
abbrev BusStep : Users H E → Threads.Label (Nat × Act H E) Empty → Users H E → Prop :=
  Step (Nested Enter Acts) fun _ _ _ => False

/-- A new bus. -/
def Users.start : Users H E := Threads.start .new .none

/-- The handler that an action adds. -/
def adds : Nat × Act H E → Option H
  | (_, .registered handler) => some handler
  | _ => none

/-- The handlers that were registered, in this order. -/
def registered (tr : Trace H E) : List H := collect adds tr

variable {bus bus' : Bus H} {c c' : CallStack (Pc H E) (Calling H E)} {a : Nat × Act H E}
  {d : Nat} {s s' : Users H E} {tr tr' : Trace H E} {below : List (Calling H E)}

/-! ## The handlers -/

/-- The thread has the mutex. -/
def Holds (c : CallStack (Pc H E) (Calling H E)) : Prop := ∃ pc ∈ c.busy, pc.Holds

/-- A vector that is about to be put in place has one handler more than the one that is there. -/
def Fresh (bus : Bus H) (c : CallStack (Pc H E) (Calling H E)) : Prop :=
  ∀ handler next, c.busy = some (.swapping handler next) → next = bus.handlers ++ [handler]

/-- The mutex excludes, and copies are fresh. -/
structure Inv (s : Users H E) : Prop where
  mutex : Mutex Bus.locked Holds s
  fresh : ∀ i, Fresh s.shared (s.pc i)

lemma holds_place {x : Option (Pc H E ⊕ Calling H E)} :
    Holds (.place x below) ↔ ∃ pc, x = some (.inl pc) ∧ pc.Holds := by
  cases x with
  | none => simp [Holds, CallStack.place]
  | some x => cases x <;> simp [Holds, CallStack.place]

lemma Acts.respects {x act x'} (st : Acts bus x act bus' x')
    (holds : Holds c ↔ ∃ pc, x = .inl pc ∧ pc.Holds) :
    Respects Bus.locked Holds bus c bus' (.place x' below) := by
  cases st with
  | lock free =>
    exact .inr (.inl ⟨by simp [holds, Pc.Holds], by simp [holds_place, Pc.Holds], free, rfl⟩)
  | registered | counted | snapshot =>
    exact .inr (.inr ⟨by simp [holds, Pc.Holds], by simp [holds_place, Pc.Holds], rfl⟩)
  | _ => exact .inl ⟨by simp [holds, holds_place, Pc.Holds], rfl⟩

lemma respects (st : Nested Enter Acts bus c a bus' c') :
    Respects Bus.locked Holds bus c bus' c' := by
  cases st with
  | enter st =>
    cases st
    exact .inl ⟨by simp [Holds, Pc.Holds], rfl⟩
  | act st => exact st.respects (by simp [Holds])
  | resume st => exact st.respects (by simp [Holds])

/-- A step leaves the handlers as they are, or it puts a new vector in their place. -/
lemma handlers_cases (st : Nested Enter Acts bus c a bus' c') :
    (bus'.handlers = bus.handlers ∧ adds a = none) ∨
      ∃ handler, c.busy = some (.swapping handler bus'.handlers) ∧ adds a = some handler ∧
        c'.busy = none := by
  cases st with
  | enter st =>
    cases st
    exact .inl ⟨rfl, rfl⟩
  | act st =>
    cases st with
    | registered => exact .inr ⟨_, rfl, rfl, rfl⟩
    | _ => exact .inl ⟨rfl, rfl⟩
  | resume st => cases st <;> exact .inl ⟨rfl, rfl⟩

lemma Fresh.own (st : Nested Enter Acts bus c a bus' c') : Fresh bus' c' := by
  intro handler next busy
  cases st with
  | enter st =>
    cases st
    cases busy
  | act st =>
    cases st with
    | copy =>
      cases busy
      exact rfl
    | _ => cases busy
  | resume st => cases st <;> cases busy

lemma Inv.start : Inv (Users.start : Users H E) where
  mutex := .start rfl (by simp [Holds, CallStack.none])
  fresh := by
    intro i handler next busy
    cases busy

lemma Inv.step {l} (inv : Inv s) (st : BusStep s l s') : Inv s' where
  mutex := inv.mutex.step respects (fun e => e.elim) st
  fresh := by
    intro i
    cases st with
    | env e => exact e.elim
    | @act j a g c move =>
      rcases eq_or_ne i j with rfl | ne
      · simp only [update_self]
        exact Fresh.own move
      · simp only [update_of_ne ne]
        intro handler next busy
        rcases handlers_cases move with ⟨same, -⟩ | ⟨handler', busy', -⟩
        · rw [same]
          exact inv.fresh i handler next busy
        · -- both would have the mutex
          exact absurd (inv.mutex.unique ⟨_, busy, trivial⟩ ⟨_, busy', trivial⟩) ne

lemma inv_run (r : Run BusStep Users.start tr s) : Inv s :=
  r.invariant (fun inv st => inv.step st) .start

/-- The handlers after a step are those before it and the one that it registers. -/
lemma Inv.handlers {i} (inv : Inv s) (st : BusStep s (.act i a) s') :
    s'.shared.handlers = s.shared.handlers ++ (adds a).toList := by
  cases st with
  | act move =>
    rcases handlers_cases move with ⟨same, none⟩ | ⟨handler, busy, some, -⟩
    · simp [same, none]
    · simp [some, inv.fresh i _ _ busy]

/-- No handler is lost: the bus has the handlers that were registered. -/
lemma handlers_eq (r : Run BusStep Users.start tr s) : s.shared.handlers = registered tr := by
  refine r.snocInduction (motive := fun tr s => s.shared.handlers = registered tr) rfl ?_
  intro tr s l s' r st ih
  cases l with
  | env e => exact e.elim
  | act i a => rw [(inv_run r).handlers st, ih, registered, registered, collect_act]

/-! ## Calls -/

/-- What the loops of `publish` do with these handlers and events. -/
def deliveries (snapshot : List H) (events : List E) : List (Act H E) :=
  events.flatMap fun envelope =>
    snapshot.flatMap (fun handler => [.invoke envelope handler, .returned]) ++ [.advance]

/-- What the loops have left to do. -/
def remaining (snapshot left : List H) : List E → List (Act H E)
  | [] => []
  | envelope :: events =>
    left.flatMap (fun handler => [.invoke envelope handler, .returned]) ++
      .advance :: deliveries snapshot events

lemma remaining_all (snapshot : List H) (events : List E) :
    remaining snapshot snapshot events = deliveries snapshot events := by
  cases events with
  | nil => rfl
  | cons envelope events => simp [remaining, deliveries]

/-- What a call has done when it ends, if `before` were registered when it was made and `now` are
when it ends. -/
inductive Served (before now : List H) : Op H E → List (Act H E) → Act H E → Prop where
  | registered {handler} :
    Served before now (.register handler) [.lock, .copy] (.registered handler)
  | counted {snapshot} :
    before <+: snapshot →
    snapshot <+: now →
    Served before now .handlerCount [.lock] (.counted snapshot.length)
  | published {snapshot events} :
    before <+: snapshot →
    snapshot <+: now →
    Served before now (.publish events) (.lock :: .snapshot snapshot :: deliveries snapshot events)
      .done
  | panicked {snapshot events as envelope handler rest} :
    before <+: snapshot →
    snapshot <+: now →
    deliveries snapshot events = as ++ .invoke envelope handler :: .returned :: rest →
    Served before now (.publish events)
      (.lock :: .snapshot snapshot :: as ++ [.invoke envelope handler]) .panicked

/-- Where a call of `op` is and what it has done. -/
inductive Progress (before now : List H) :
    Op H E → Pc H E ⊕ Calling H E → List (Act H E) → Prop where
  | locking {op} :
    before <+: now →
    Progress before now op (.inl (.locking op)) []
  | locked {op} :
    before <+: now →
    Progress before now op (.inl (.locked op)) [.lock]
  | swapping {handler next} :
    Progress before now (.register handler) (.inl (.swapping handler next)) [.lock, .copy]
  | fanOut {snapshot left all events as} :
    before <+: snapshot →
    snapshot <+: now →
    deliveries snapshot all = as ++ remaining snapshot left events →
    Progress before now (.publish all) (.inl (.fanOut snapshot left events))
      (.lock :: .snapshot snapshot :: as)
  | calling {snapshot left all events as envelope handler} :
    before <+: snapshot →
    snapshot <+: now →
    deliveries snapshot all =
      as ++ .invoke envelope handler :: .returned :: remaining snapshot left events →
    Progress before now (.publish all) (.inr ⟨snapshot, left, events⟩)
      (.lock :: .snapshot snapshot :: as ++ [.invoke envelope handler])

section Progress

variable {before now now' : List H} {op : Op H E} {x : Pc H E ⊕ Calling H E} {as : List (Act H E)}
  {act : Act H E}

lemma Progress.mono (more : now <+: now') (h : Progress before now op x as) :
    Progress before now' op x as := by
  cases h with
  | locking known => exact .locking (known.trans more)
  | locked known => exact .locked (known.trans more)
  | swapping => exact .swapping
  | fanOut known part split => exact .fanOut known (part.trans more) split
  | calling known part split => exact .calling known (part.trans more) split

lemma Progress.keep {x'} (st : Acts bus x act bus' (some x'))
    (h : Progress before bus.handlers op x as) :
    Progress before bus'.handlers op x' (as ++ [act]) := by
  cases st with
  | lock =>
    cases h with
    | locking known => exact .locked known
  | copy =>
    cases h with
    | locked => exact .swapping
  | snapshot =>
    cases h with
    | locked known => exact .fanOut known (List.prefix_refl _) (remaining_all ..).symm
  | invoke =>
    cases h with
    | fanOut known part split => exact .calling known part (by simpa [remaining] using split)
  | returned =>
    cases h with
    | calling known part split =>
      simp only [List.cons_append, List.append_assoc]
      exact .fanOut known part (by simpa using split)
  | @advance _ _ envelope =>
    cases h with
    | fanOut known part split =>
      refine .fanOut known part ?_
      rw [remaining_all, split]
      simp [remaining]

lemma Progress.served (st : Acts bus x act bus' none) (h : Progress before bus.handlers op x as) :
    Served before bus.handlers op as act := by
  cases st with
  | registered =>
    cases h with
    | swapping => exact .registered
  | counted =>
    cases h with
    | locked known => exact .counted known (List.prefix_refl _)
  | panicked =>
    cases h with
    | calling known part split => exact .panicked known part split
  | done =>
    cases h with
    | @fanOut _ _ _ _ as known part split =>
      obtain rfl : deliveries _ _ = as := by simpa [remaining] using split
      exact .published known part

end Progress

lemma Acts.ends {x act} (st : Acts (E := E) bus x act bus' none) : act.Ends := by
  cases st <;> exact trivial

lemma Acts.ended {x act x'} (st : Acts (E := E) bus x act bus' x') (ends : act.Ends) :
    x' = none := by
  cases st <;> first | rfl | exact ends.elim

lemma called {op : Op H E} (st : Nested Enter Acts bus c (d, .call op) bus' c') :
    ∃ below, d = below.length ∧ c' = ⟨some (.locking op), below⟩ ∧ bus' = bus := by
  generalize label : (d, Act.call op) = a at st
  cases st with
  | enter st =>
    cases st
    cases label
    exact ⟨_, rfl, rfl, rfl⟩
  | act st => cases st <;> cases label
  | resume st => cases st <;> cases label

/-- In every run, every call that ends was served, on whatever thread and within whatever handler it
was made: a registration adds its handler; a count is one of the handlers of that time; and
`publish` has called the handlers of one moment during the call, those registered before it
included, in their order for each event in turn, one after the other. If a handler panics it is the
last one. -/
theorem calls_served {s₁ s₂ s₃ : Users H E} {i d : Nat} {op : Op H E} {act : Act H E}
    (r : Run BusStep Users.start tr s) (call : BusStep s (.act i (d, .call op)) s₁)
    (r' : Run BusStep s₁ tr' s₂) (going : ∀ a, .act i (d, a) ∈ tr' → ¬ a.Ends)
    (ends : BusStep s₂ (.act i (d, act)) s₃) (last : act.Ends) :
    Served (registered tr) (registered (tr ++ tr')) op (Nested.own d (eventsOf i tr'))
      act := by
  have inv := (inv_run r).step call
  have all := handlers_eq ((r.snoc call).append r')
  have nothing : registered (tr ++ [.act i (d, .call op)] ++ tr') = registered (tr ++ tr') := by
    simp only [registered, collect_append _ _ tr', collect_act, adds,
      Option.toList_none, List.append_nil]
  rw [nothing] at all
  cases call with
  | act call =>
    obtain ⟨below, rfl, rfl, rfl⟩ := called call
    have grows {s s' : Users H E} {l x as} (st : BusStep s l s' ∧ Inv s)
        (progress : Progress (registered tr) s.shared.handlers op x as) :
        Progress (registered tr) s'.shared.handlers op x as := by
      cases l with
      | env e => exact e.elim
      | act j a => exact progress.mono (st.2.handlers st.1 ▸ List.prefix_append _ _)
    have entered : (update s.pc i ⟨some (.locking op), below⟩ i).At below
        (.inl (.locking op)) := by
      rw [update_self]
      exact rfl
    obtain ⟨x, pos, progress⟩ := Nested.call_history
      (J := fun bus => Progress (registered tr) bus.handlers op) (fun st => st.1)
      (fun st => st.ends) (fun st h => h.keep st) grows
      (r'.keeping (fun inv st => inv.step st) inv) going entered
      (.locking (handlers_eq r ▸ List.prefix_refl _))
    rw [← all]
    cases ends with
    | act ends =>
      rcases ends.cases_at pos with ⟨x', st, -, -⟩ | ⟨deeper, -⟩
      · obtain rfl := st.ended last
        exact progress.served st
      · exact absurd deeper (lt_irrefl _)

section Concrete

/-- One thread uses the bus. -/
def only (handlers : List Nat) (locked : Bool) (busy : Option (Pc Nat Unit))
    (waiting : List (Calling Nat Unit)) : Users Nat Unit :=
  lone .none ⟨handlers, locked⟩ ⟨busy, waiting⟩

/-- The thread registers a handler. -/
lemma run_register (handlers : List Nat) (handler : Nat) (waiting : List (Calling Nat Unit)) :
    Run BusStep (only handlers false none waiting)
      [.act 0 (waiting.length, .call (.register handler)), .act 0 (waiting.length, .lock),
        .act 0 (waiting.length, .copy), .act 0 (waiting.length, .registered handler)]
      (only (handlers ++ [handler]) false none waiting) :=
  .cons (lone_act (.enter .call)) <|
  .cons (lone_act (.act (.lock rfl))) <|
  .cons (lone_act (.act .copy)) <|
  .cons (lone_act (.act .registered)) .nil

lemma run_first : Run BusStep Users.start
    [.act 0 (0, .call (.register 7)), .act 0 (0, .lock), .act 0 (0, .copy),
      .act 0 (0, .registered 7)]
    (only [7] false none []) := by
  have first : Users.start = only [] false none [] := lone_start CallStack.none Bus.new
  rw [first]
  exact run_register [] 7 []

/-- The thread makes a call. -/
lemma step_call (op : Op Nat Unit) (handlers : List Nat) (waiting : List (Calling Nat Unit)) :
    BusStep (only handlers false none waiting) (.act 0 (waiting.length, .call op))
      (only handlers false (some (.locking op)) waiting) :=
  lone_act (.enter .call)

/-- The thread publishes an event, and its handler is called. -/
lemma run_invoke : Run BusStep (only [7] false (some (.locking (.publish [()]))) [])
    [.act 0 (0, .lock), .act 0 (0, .snapshot [7]), .act 0 (0, .invoke () 7)]
    (only [7] false none [⟨[7], [], [()]⟩]) :=
  .cons (lone_act (.act (.lock rfl))) <|
  .cons (lone_act (.act .snapshot)) <|
  .cons (lone_act (.act .invoke)) .nil

/-- The handler returns. -/
lemma run_returned : Run BusStep (only [7, 8] false none [⟨[7], [], [()]⟩])
    [.act 0 (0, .returned), .act 0 (0, .advance)]
    (only [7, 8] false (some (.fanOut [7] [7] [])) []) :=
  .cons (lone_act (.resume .returned)) <|
  .cons (lone_act (.act .advance)) .nil

/-- A handler that registers another one: the new one is not called by the call of `publish` that is
under way. -/
theorem calls_served_reentrant : ∃ (tr tr' : Trace Nat Unit) (s s₁ s₂ s₃ : Users Nat Unit),
    Run BusStep Users.start tr s ∧ BusStep s (.act 0 (0, .call (.publish [()]))) s₁ ∧
    Run BusStep s₁ tr' s₂ ∧ BusStep s₂ (.act 0 (0, .done)) s₃ ∧
    registered tr = [7] ∧ registered (tr ++ tr') = [7, 8] ∧
    Served [7] [7, 8] (.publish [()]) (Nested.own 0 (eventsOf 0 tr')) .done ∧
    Nested.own 0 (eventsOf 0 tr') =
      [.lock, .snapshot [7], .invoke () 7, .returned, .advance] := by
  have call := step_call (.publish [()]) [7] []
  have r' := (run_invoke.append (run_register [7] 8 [⟨[7], [], [()]⟩])).append run_returned
  have ends : BusStep (only [7, 8] false (some (.fanOut [7] [7] [])) []) (.act 0 (0, .done))
      (only [7, 8] false none []) :=
    lone_act (.act Acts.done)
  refine ⟨_, _, _, _, _, _, run_first, call, r', ends, rfl, rfl, ?_, rfl⟩
  exact calls_served run_first call r' (by simp [Act.Ends]) ends trivial

end Concrete

/-! ## The mutex -/

/-- A step that takes the mutex, or that is made with it. -/
def Critical : Threads.Label (Nat × Act H E) Empty → Prop
  | .act _ (_, .lock) | .act _ (_, .copy) | .act _ (_, .registered _) | .act _ (_, .counted _)
  | .act _ (_, .snapshot _) => True
  | _ => False

/-- A step of thread `i`, which is at `c`. -/
lemma step_at {i} (at' : s.pc i = c) (st : Nested Enter Acts s.shared c a bus' c') :
    BusStep s (.act i a) ⟨bus', update s.pc i c'⟩ :=
  .act (at' ▸ st)

/-- A thread that has the mutex gives it back in two steps. -/
lemma release {i} (holds : Holds (s.pc i)) : ∃ tr s', Run BusStep s tr s' ∧ tr.length ≤ 2 ∧
    (∀ l ∈ tr, Critical l) ∧ s'.shared.locked = false ∧
      ∀ j ≠ i, s'.pc j = s.pc j := by
  obtain ⟨p, busy, held⟩ := holds
  have at' : s.pc i = ⟨some p, (s.pc i).waiting⟩ := by rw [← Option.mem_def.mp busy]
  cases p with
  | locking => exact held.elim
  | fanOut => exact held.elim
  | swapping handler next =>
    have st := step_at at' (.act .registered)
    refine ⟨_, _, .cons st .nil, by simp, by simp [Critical], rfl, ?_⟩
    exact fun j ne => update_of_ne ne ..
  | locked op =>
    cases op with
    | register handler =>
      let mid : Users H E := ⟨s.shared, update s.pc i
        ⟨some (.swapping handler (s.shared.handlers ++ [handler])), (s.pc i).waiting⟩⟩
      have first : BusStep s (.act i ((s.pc i).waiting.length, .copy)) mid :=
        step_at at' (.act Acts.copy)
      have second := step_at (s := mid) (update_self i _ _) (.act .registered)
      refine ⟨_, _, .cons first (.cons second .nil), by simp, by simp [Critical], rfl, ?_⟩
      intro j ne
      simp only [mid, update_of_ne ne]
    | handlerCount =>
      have st := step_at at' (.act .counted)
      refine ⟨_, _, .cons st .nil, by simp, by simp [Critical], rfl, ?_⟩
      exact fun j ne => update_of_ne ne ..
    | publish events =>
      have st := step_at at' (.act .snapshot)
      refine ⟨_, _, .cons st .nil, by simp, by simp [Critical], rfl, ?_⟩
      exact fun j ne => update_of_ne ne ..

/-- A call waits for no handler: in every run, a call that is before the mutex can have it within
three steps, none of which is one of a handler, however deep within handlers it was made and
whatever handlers the threads are in. -/
theorem mutex_within_reach {i : Nat} {op : Op H E} (r : Run BusStep Users.start tr s)
    (waits : (s.pc i).busy = some (.locking op)) :
    ∃ tr' s', Run BusStep s tr' s' ∧ tr'.length ≤ 3 ∧ (∀ l ∈ tr', Critical l) ∧
      (s'.pc i).busy = some (.locked op) := by
  have take {t : Users H E} (free : t.shared.locked = false) (same : t.pc i = s.pc i) :
      ∃ t', BusStep t (.act i ((s.pc i).waiting.length, .lock)) t' ∧
        (t'.pc i).busy = some (.locked op) := by
    have at' : t.pc i = ⟨some (.locking op), (s.pc i).waiting⟩ := by rw [same, ← waits]
    exact ⟨_, step_at at' (.act (.lock free)), by simp [CallStack.place]⟩
  cases free : s.shared.locked with
  | false =>
    obtain ⟨t, st, got⟩ := take free rfl
    exact ⟨_, t, .cons st .nil, by simp, by simp [Critical], got⟩
  | true =>
    obtain ⟨j, holds⟩ := (inv_run r).mutex.held.mp free
    have ne : i ≠ j := by
      rintro rfl
      obtain ⟨p, busy, held⟩ := holds
      cases waits.symm.trans busy
      exact held
    obtain ⟨tr', t, r', short, critical, free, same⟩ := release holds
    obtain ⟨t', st, got⟩ := take free (same i ne)
    refine ⟨_, t', r'.snoc st, ?_, ?_, got⟩
    · rw [List.length_append, List.length_singleton]
      omega
    · intro l mem
      rcases List.mem_append.mp mem with mem | mem
      · exact critical l mem
      · rw [List.mem_singleton.mp mem]
        exact trivial

/-- A handler can register another one, though its own call of `publish` is under way. -/
theorem mutex_within_reach_reentrant : ∃ (tr : Trace Nat Unit) (s : Users Nat Unit),
    Run BusStep Users.start tr s ∧ (s.pc 0).waiting = [⟨[7], [], [()]⟩] ∧
    (s.pc 0).busy = some (.locking (.register 8)) ∧
    ∃ tr' s', Run BusStep s tr' s' ∧ tr'.length ≤ 3 ∧ (∀ l ∈ tr', Critical l) ∧
      (s'.pc 0).busy = some (.locked (.register 8)) := by
  have r := ((run_first.snoc (step_call (.publish [()]) [7] [])).append run_invoke).snoc
    (step_call (.register 8) [7] [⟨[7], [], [()]⟩])
  exact ⟨_, _, r, rfl, rfl, mutex_within_reach r rfl⟩

end CherryPit.App.EventBus
