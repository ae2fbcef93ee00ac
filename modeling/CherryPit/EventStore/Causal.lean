import CherryPit.Data.Follow
import CherryPit.EventStore.AppendOnly

/-!
# Causal chains

Port of `InMemoryEventStore::causal_chain` in `cherry-pit-core/src/testing.rs`: from an event to its
cause, to the cause of that, and so on, inside one stream. Causes are what the callers supplied, and
the loop does not remember where it has been; that it ends is due to how streams are built. An
identity is drawn after every cause that is in the store or comes with the call was supplied, so
that causes stand before their effects (`Caused`).

Rust → Lean: the loop is `follow`, with a bound on its rounds that makes the answer `none`; a result
is what every larger bound gives.
-/

namespace CherryPit.InMemory

open Conc Store Function

variable {E : Type} {s s' : EventStoreState E} {clock : Clock} {tr : List (Done E)}

/-! ## The walk -/

/-- The correlation of the event that is asked for. -/
def targetCorrelation (history : List (EventEnvelope E)) (eventId : Uuid) : Option Uuid :=
  (history.find? (·.eventId = eventId)).bind (·.correlationId)

/-- The event of a stream with this identity, and with the correlation if there is one. -/
def findWithin (history : List (EventEnvelope E)) (correlation : Option Uuid) (currentId : Uuid) :
    Option (EventEnvelope E) :=
  history.find? fun env =>
    env.eventId = currentId ∧ (correlation = none ∨ env.correlationId = correlation)

/-- Rust `InMemoryEventStore::causal_chain`. -/
def causalChain (s : EventStoreState E) (id : AggregateId) (eventId : Uuid) (fuel : Nat) :
    Option (Except StoreError (List (EventEnvelope E))) :=
  match load s id with
  | .error e => some (.error e)
  | .ok history =>
    (follow (findWithin history (targetCorrelation history eventId)) (·.causationId) fuel
      (some eventId)).map fun chain => .ok chain.reverse

/-- What a causal chain is: the events that led to one, from the first to that one. -/
structure CausalPath (history : List (EventEnvelope E)) (eventId : Uuid)
    (chain : List (EventEnvelope E)) : Prop where
  empty : chain = [] ↔ ∀ env ∈ history, env.eventId ≠ eventId
  last : ∀ env ∈ history, env.eventId = eventId → chain.getLast? = some env
  within : ∀ env ∈ chain, env ∈ history
  increasing : chain.Pairwise (·.sequence.get < ·.sequence.get)
  caused : chain.IsChain fun cause env => env.causationId = some cause.eventId
  correlated : ∀ target ∈ chain.getLast?, target.correlationId ≠ none →
    ∀ env ∈ chain, env.correlationId = target.correlationId
  maximal : ∀ target ∈ chain.getLast?, ∀ first ∈ chain.head?, ∀ cause ∈ history,
    first.causationId = some cause.eventId →
    target.correlationId ≠ none ∧ cause.correlationId ≠ target.correlationId

/-! ## Causes come first -/

/-- What is assumed of `now_v7` beyond `Fresh`: it answers no identity that was supplied as a cause,
with this call or with one whose events are in the store. -/
structure Unforeseen (s : EventStoreState E) (clock : Clock) (c : Call E) : Prop where
  supplied : ∀ ctx ∈ c.context, ∀ i < c.events.length, ctx.causationId ≠ some (clock.uuid i)
  recorded : ∀ id stream, s.streams id = some stream → ∀ env ∈ stream, ∀ i < c.events.length,
    env.causationId ≠ some (clock.uuid i)

/-- Steps of the store under this assumption. -/
inductive CausalStep : EventStoreState E → Done E → EventStoreState E → Prop where
  | call {s c clock} :
    Fresh s clock c.events.length →
    Unforeseen s clock c →
    CausalStep s ⟨c, (perform s clock c).2⟩ (perform s clock c).1

lemma CausalStep.effect {d : Done E} (st : CausalStep s d s') :
    ∃ clock, Fresh s clock d.call.events.length ∧ Unforeseen s clock d.call ∧
      Effect s clock d.call d.answer s' := by
  cases st with
  | @call c clock fresh unforeseen => exact ⟨clock, fresh, unforeseen, perform_effect fresh⟩

/-- In every stream causes stand before their effects. -/
def Caused (s : EventStoreState E) : Prop :=
  ∀ id stream, s.streams id = some stream → ∀ env ∈ stream, ∀ cause ∈ stream,
    env.causationId = some cause.eventId → cause.sequence.get < env.sequence.get

lemma Caused.new : Caused (.new : EventStoreState E) := by
  rintro id stream ⟨⟩

/-- An event is never the cause of an earlier one or of one of its own batch: its identity is drawn
too late for that. -/
lemma Caused.effect {c : Call E} {answer : Except StoreError (Reply E)} (caused : Caused s)
    (valid : Valid s) (unforeseen : Unforeseen s clock c) (ef : Effect s clock c answer s') :
    Caused s' := by
  rcases ef.writes valid with same | ⟨id, stream, ctx, envs, old, supplies, built, written⟩
  · intro id stream at'
    exact caused id stream (same ▸ at')
  intro id' stream' at' env mem cause mem' causes
  rcases eq_or_ne id' id with rfl | ne
  · rw [written, update_self] at at'
    cases at'
    rcases List.mem_append.mp mem' with mem' | mem'
    · have here := streams_of_mem old mem'
      rcases List.mem_append.mp mem with mem | mem
      · exact caused id' stream here env mem cause mem' causes
      · exact ((valid.wellFormed id' stream here).sequence_le mem').trans_lt
          (built.stamped.lt_sequence mem)
    · obtain ⟨i, lt, drawn⟩ := built.mem mem'
      rw [drawn] at causes
      rcases List.mem_append.mp mem with mem | mem
      · have here := streams_of_mem old mem
        exact absurd causes (unforeseen.recorded id' stream here env mem i lt)
      · rw [(built.stamped.correlated mem).2] at causes
        exact absurd causes (unforeseen.supplied ctx supplies i lt)
  · rw [written, update_of_ne ne] at at'
    exact caused id' stream' at' env mem cause mem' causes

lemma valid_caused (r : Run CausalStep (.new : EventStoreState E) tr s) : Valid s ∧ Caused s := by
  refine r.invariant (I := fun s => Valid s ∧ Caused s) ?_ ⟨.new, .new⟩
  rintro s d s' ⟨valid, caused⟩ st
  obtain ⟨clock, fresh, unforeseen, ef⟩ := st.effect
  exact ⟨valid.effect fresh ef, caused.effect valid unforeseen ef⟩

/-! ## What the walk collects -/

section Walk

variable {id : AggregateId} {history : List (EventEnvelope E)} {correlation : Option Uuid}
  {eventId : Uuid} {env : EventEnvelope E}

/-- The looked up event: a stream has one of each identity. -/
lemma findWithin_eq_some (wf : EventEnvelope.WellFormed id history) :
    findWithin history correlation eventId = some env ↔
      env ∈ history ∧ env.eventId = eventId ∧
        (correlation = none ∨ env.correlationId = correlation) := by
  constructor
  · intro found
    have holds := List.find?_some found
    simp only [decide_eq_true_eq] at holds
    exact ⟨List.mem_of_find?_eq_some found, holds⟩
  · rintro ⟨mem, named, related⟩
    rcases found : findWithin history correlation eventId with - | other
    · have none' := List.find?_eq_none.mp found env mem
      simp only [decide_eq_true_eq] at none'
      exact absurd ⟨named, related⟩ none'
    · have holds := List.find?_some found
      simp only [decide_eq_true_eq] at holds
      have same : other.eventId = env.eventId := holds.1.trans named.symm
      rw [List.inj_on_of_nodup_map wf.distinct (List.mem_of_find?_eq_some found) mem same]

lemma targetCorrelation_eq (wf : EventEnvelope.WellFormed id history) (mem : env ∈ history) :
    targetCorrelation history env.eventId = env.correlationId := by
  have found : history.find? (·.eventId = env.eventId) = some env := by
    have any : findWithin history none env.eventId = some env :=
      (findWithin_eq_some wf).mpr ⟨mem, rfl, .inl rfl⟩
    simpa only [findWithin, true_or, and_true] using any
  rw [targetCorrelation, found]
  rfl

/-- What the loop collects is the causal chain, backwards. -/
lemma causalPath_reverse {path : List (EventEnvelope E)} (wf : EventEnvelope.WellFormed id history)
    (first : ∀ env ∈ history, ∀ cause ∈ history, env.causationId = some cause.eventId →
      cause.sequence.get < env.sequence.get)
    (h : Path (findWithin history (targetCorrelation history eventId)) (·.causationId)
      (some eventId) path) :
    CausalPath history eventId path.reverse := by
  have found : ∀ {key env}, findWithin history (targetCorrelation history eventId) key = some env →
      env ∈ history ∧ env.eventId = key ∧ (targetCorrelation history eventId = none ∨
        env.correlationId = targetCorrelation history eventId) :=
    fun found => (findWithin_eq_some wf).mp found
  have target : ∀ env ∈ history, env.eventId = eventId → path.head? = some env := by
    rintro env mem rfl
    rw [h.head?, findWithin_eq_some wf]
    exact ⟨mem, rfl, .inr (targetCorrelation_eq wf mem).symm⟩
  have correlation : ∀ env ∈ path.head?,
      targetCorrelation history eventId = env.correlationId := by
    intro env at'
    rw [h.head?] at at'
    obtain ⟨mem, rfl, -⟩ := found at'
    exact targetCorrelation_eq wf mem
  have links : path.IsChain fun env cause =>
      env.causationId = some cause.eventId ∧ cause.sequence.get < env.sequence.get := by
    refine h.linked.imp ?_
    rintro env cause ⟨⟨k, found'⟩, k', causes, found''⟩
    obtain ⟨mem, rfl, -⟩ := found found'
    obtain ⟨mem', rfl, -⟩ := found found''
    exact ⟨causes, first env mem cause mem' causes⟩
  refine ⟨?_, ?_, ?_, ?_, ?_, ?_, ?_⟩
  · rw [List.reverse_eq_nil_iff]
    constructor
    · rintro rfl env mem named
      cases target env mem named
    · intro absent
      rcases head : path.head? with - | env
      · exact List.head?_eq_none_iff.mp head
      · rw [h.head?] at head
        obtain ⟨mem, named, -⟩ := found head
        exact absurd named (absent env mem)
  · intro env mem named
    rw [List.getLast?_reverse]
    exact target env mem named
  · intro env mem
    obtain ⟨k, found'⟩ := h.found (List.mem_reverse.mp mem)
    exact (found found').1
  · rw [List.pairwise_reverse]
    have falls : path.IsChain fun env cause => cause.sequence.get < env.sequence.get :=
      links.imp fun _ _ link => link.2
    exact List.isChain_iff_pairwise.mp falls
  · rw [List.isChain_reverse]
    exact links.imp fun _ _ link => link.1
  · intro env at' related env' mem
    rw [List.getLast?_reverse] at at'
    obtain ⟨k, found'⟩ := h.found (List.mem_reverse.mp mem)
    obtain ⟨-, -, same⟩ := found found'
    rw [correlation env at'] at same
    exact same.resolve_left related
  · intro env at' last at'' cause mem causes
    rw [List.getLast?_reverse] at at'
    rw [List.head?_reverse] at at''
    have lost := h.maximal at'' causes
    rw [correlation env at'] at lost
    have away : ¬ (env.correlationId = none ∨ cause.correlationId = env.correlationId) := by
      intro related
      cases lost.symm.trans ((findWithin_eq_some wf).mpr ⟨mem, rfl, related⟩)
    exact not_or.mp away

lemma exists_walk (wf : EventEnvelope.WellFormed id history) (correlation : Option Uuid)
    (first : ∀ env ∈ history, ∀ cause ∈ history, env.causationId = some cause.eventId →
      cause.sequence.get < env.sequence.get) :
    ∃ path, Path (findWithin history correlation) EventEnvelope.causationId (some eventId)
      path := by
  have decreases : ∀ {key env key' cause}, findWithin history correlation key = some env →
      env.causationId = some key' → findWithin history correlation key' = some cause →
      cause.sequence.get < env.sequence.get := by
    intro key env key' cause found causes found'
    obtain ⟨mem, -⟩ := (findWithin_eq_some wf).mp found
    obtain ⟨mem', rfl, -⟩ := (findWithin_eq_some wf).mp found'
    exact first env mem cause mem' causes
  obtain ⟨path, h, -⟩ := exists_path (findWithin history correlation) EventEnvelope.causationId
    (fun env => env.sequence.get) decreases (some eventId)
  exact ⟨path, h⟩

end Walk

/-- The function `causal_chain` ends and returns the causal path. -/
theorem causalChain_causalPath (r : Run CausalStep (.new : EventStoreState E) tr s)
    (id : AggregateId) (eventId : Uuid) :
    ∃ chain enough, (∀ fuel, enough ≤ fuel → causalChain s id eventId fuel = some (.ok chain)) ∧
      CausalPath ((s.streams id).getD []) eventId chain := by
  obtain ⟨valid, caused⟩ := valid_caused r
  have stream : EventEnvelope.WellFormed id ((s.streams id).getD []) ∧
      ∀ env ∈ (s.streams id).getD [], ∀ cause ∈ (s.streams id).getD [],
        env.causationId = some cause.eventId → cause.sequence.get < env.sequence.get := by
    rcases at' : s.streams id with - | stream
    · exact ⟨.nil, by rintro env ⟨⟩⟩
    · exact ⟨valid.wellFormed id stream at', caused id stream at'⟩
  obtain ⟨wf, first⟩ := stream
  obtain ⟨path, h⟩ := exists_walk wf (targetCorrelation ((s.streams id).getD []) eventId) first
  refine ⟨path.reverse, path.length + 1, ?_, causalPath_reverse wf first h⟩
  intro fuel enough
  simp only [causalChain, valid.load_eq, h.follow enough, Option.map_some]

lemma two_lt : 2 < 2 ^ 64 := by decide

/-- The second event of the concrete run, caused by the first one. -/
def secondEnvelope : EventEnvelope Unit :=
  ⟨2, ⟨.min⟩, ⟨2, Nat.two_pos, two_lt⟩, 0, some 7, some 1, ()⟩

/-- An event and one that it caused: the chain ends with the latter. -/
theorem causalChain_causalPath_two : ∃ tr s chain enough,
    Run CausalStep (.new : EventStoreState Unit) tr s ∧
    s.streams ⟨.min⟩ = some [firstEnvelope, secondEnvelope] ∧
    (∀ fuel, enough ≤ fuel → causalChain s ⟨.min⟩ 2 fuel = some (.ok chain)) ∧
    chain.getLast? = some secondEnvelope := by
  have first : Fresh (.new : EventStoreState Unit) ⟨0, fun _ => 1⟩ 1 :=
    .one (by decide) (by rintro id stream ⟨⟩)
  have created : CausalStep (.new : EventStoreState Unit) _
      ⟨update (fun _ => none) ⟨.min⟩ (some [firstEnvelope]), _⟩ :=
    .call (c := .create [()] ⟨none, none⟩) first
      ⟨by rintro ctx ⟨⟩ i _ ⟨⟩, by rintro id stream ⟨⟩⟩
  have one : ∀ id stream, update (fun _ => none) (⟨.min⟩ : AggregateId)
      (some [firstEnvelope]) id = some stream → stream = [firstEnvelope] := by
    intro id stream at'
    rcases eq_or_ne id ⟨.min⟩ with rfl | ne
    · rw [update_self] at at'
      exact (Option.some.inj at').symm
    · rw [update_of_ne ne] at at'
      cases at'
  have second : Fresh (E := Unit)
      ⟨update (fun _ => none) ⟨.min⟩ (some [firstEnvelope]), ⟨2, by decide, by decide⟩⟩
      ⟨0, fun _ => 2⟩ 1 := by
    refine .one (by decide) ?_
    intro id stream at'
    rw [one id stream at']
    simp [firstEnvelope]
  have unforeseen : Unforeseen (E := Unit)
      ⟨update (fun _ => none) ⟨.min⟩ (some [firstEnvelope]), ⟨2, by decide, by decide⟩⟩
      ⟨0, fun _ => 2⟩ (.append ⟨.min⟩ .min [()] ⟨some 7, some 1⟩) := by
    refine ⟨?_, ?_⟩
    · rintro ctx ⟨⟩ i _
      show some (1 : Uuid) ≠ some 2
      decide
    · intro id stream at' env mem i _
      rw [one id stream at', List.mem_singleton] at mem
      rw [mem]
      simp [firstEnvelope]
  have r := Run.cons created
    (.cons (.call (c := .append ⟨.min⟩ .min [()] ⟨some 7, some 1⟩) second unforeseen) .nil)
  obtain ⟨chain, enough, ends, path⟩ := causalChain_causalPath r ⟨.min⟩ 2
  exact ⟨_, _, chain, enough, r, rfl, ends, path.last secondEnvelope (by decide) rfl⟩

end CherryPit.InMemory
