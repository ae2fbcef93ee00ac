import CherryPit.Core.Error
import CherryPit.Data.TryEach

/-!
# Dispatch of policy outputs

Port of `cherry-pit-app/src/dispatch.rs` and of the record of `dead_letter.rs`. For one envelope,
the outputs of every policy go through the policy's dispatch closure one after the other; a failure
ends the policy's turn and is routed by its category.

Rust → Lean: the closures and the dead-letter sink are arbitrary. A closure answers by the number of
the invocation within the turn, the sink by the position of the policy whose failure it records (a
turn makes at most one record), so that every sequence of answers is covered whatever it depends on.
A function returns, besides its result, the calls it made with their answers. The outputs of all
policies are values of one type. The log lines are left out.
-/

namespace CherryPit.App

variable {E O : Type}

/-- Rust `correlation_for`. -/
def correlationFor (envelopeCorrelationId : Option Uuid) (eventId : Uuid) : CorrelationContext :=
  match envelopeCorrelationId with
  | some corr => ⟨some corr, some eventId⟩
  | none => ⟨some eventId, some eventId⟩

/-- Rust `DeadLetterRecord`. -/
structure DeadLetterRecord where
  eventId : Uuid
  correlationId : Option Uuid
  causationId : Option Uuid
  errorCategory : ErrorCategory
  outputType : String
  policyIdentity : String
  errorMessage : String
  deriving DecidableEq

/-- The answers of a `DeadLetterSink`. -/
abbrev DeadLetterSink := DeadLetterRecord → Except String Unit

/-- Rust `PolicyAdapter`: a policy with its dispatch closure. -/
structure PolicyAdapter (E O : Type) where
  policyIdentity : String
  outputType : String
  react : EventEnvelope E → List O
  closure : Nat → O → CorrelationContext → Except AgentError Unit

/-- A call of a dispatch closure, with its answer. -/
structure Invocation (O : Type) where
  output : O
  ctx : CorrelationContext
  answer : Except AgentError Unit

/-- The body of the loop of `PolicyAdapter::dispatch`. -/
def PolicyAdapter.invoke (p : PolicyAdapter E O) (ctx : CorrelationContext) (n : Nat) (output : O) :
    Invocation O × Except AgentError Unit :=
  (⟨output, ctx, p.closure n output ctx⟩, p.closure n output ctx)

/-- Rust `PolicyAdapter::dispatch`. -/
def PolicyAdapter.dispatch (p : PolicyAdapter E O) (envelope : EventEnvelope E)
    (ctx : CorrelationContext) : List (Invocation O) × Except AgentError Unit :=
  tryEach (p.invoke ctx) (p.react envelope)

/-- A call of the sink, with its answer. -/
abbrev Recorded := DeadLetterRecord × Except String Unit

/-- Rust `route_failure`. A failure of the sink is logged and nothing else. -/
def routeFailure (sink : DeadLetterSink) (envelopeEventId : Uuid)
    (envelopeCorrelationId envelopeCausationId : Option Uuid) (policyIdentity outputType : String)
    (err : AgentError) : Option Recorded × Except AgentError Unit :=
  match err.category with
  | .retryable | .reconciliationRequired => (none, .error err)
  | .terminal =>
    let record : DeadLetterRecord :=
      { eventId := envelopeEventId
        correlationId := envelopeCorrelationId
        causationId := envelopeCausationId
        errorCategory := .terminal
        outputType := outputType
        policyIdentity := policyIdentity
        errorMessage := err.display }
    (some (record, sink record), .ok ())

/-- What a policy's turn left behind. -/
structure Turn (O : Type) where
  invocations : List (Invocation O)
  record : Option Recorded

/-- The body of the loop of `dispatch_one`. -/
def turn (envelope : EventEnvelope E) (sink : DeadLetterSink) (p : PolicyAdapter E O) :
    Turn O × Except AgentError Unit :=
  let ctx := correlationFor envelope.correlationId envelope.eventId
  match p.dispatch envelope ctx with
  | (calls, .ok ()) => (⟨calls, none⟩, .ok ())
  | (calls, .error err) =>
    let routed := routeFailure sink envelope.eventId envelope.correlationId envelope.causationId
      p.policyIdentity p.outputType err
    (⟨calls, routed.1⟩, routed.2)

/-- Rust `dispatch_one`. -/
def dispatchOne (policies : List (PolicyAdapter E O)) (envelope : EventEnvelope E)
    (deadLetter : Nat → DeadLetterSink) : List (Turn O) × Except AgentError Unit :=
  tryEach (fun i => turn envelope (deadLetter i)) policies

/-! ## Turns -/

/-- The context of an envelope. -/
def contextOf (envelope : EventEnvelope E) : CorrelationContext :=
  correlationFor envelope.correlationId envelope.eventId

/-- The record of a terminal failure. -/
def recordOf (envelope : EventEnvelope E) (p : PolicyAdapter E O) (err : AgentError) :
    DeadLetterRecord :=
  { eventId := envelope.eventId
    correlationId := envelope.correlationId
    causationId := envelope.causationId
    errorCategory := .terminal
    outputType := p.outputType
    policyIdentity := p.policyIdentity
    errorMessage := err.display }

/-- The `n`-th output of a policy is the first whose closure fails. -/
def PolicyAdapter.Fails (p : PolicyAdapter E O) (envelope : EventEnvelope E) (n : Nat)
    (err : AgentError) : Prop :=
  (∃ output, (p.react envelope)[n]? = some output ∧
    p.closure n output (contextOf envelope) = .error err) ∧
  ∀ m output, m < n → (p.react envelope)[m]? = some output →
    p.closure m output (contextOf envelope) = .ok ()

/-- A failure of the policy ends the dispatch of the envelope. -/
def PolicyAdapter.Stops (p : PolicyAdapter E O) (envelope : EventEnvelope E) : Prop :=
  ∃ n err, p.Fails envelope n err ∧ err.category ≠ .terminal

section Turns

variable {p : PolicyAdapter E O} {envelope : EventEnvelope E} {sink : DeadLetterSink} {n : Nat}
  {err : AgentError}

lemma fails_iff : p.Fails envelope n err ↔
    FailsAt (p.invoke (contextOf envelope)) (p.react envelope) n err :=
  and_comm

/-- The calls of a turn. -/
lemma turn_invocations :
    (turn envelope sink p).1.invocations = (p.dispatch envelope (contextOf envelope)).1 := by
  rw [turn, contextOf]
  split <;> rename_i e <;> rw [e]

/-- A turn without a failure. -/
lemma turn_of_ok (h : (p.dispatch envelope (contextOf envelope)).2 = .ok ()) :
    (turn envelope sink p).1.record = none ∧ (turn envelope sink p).2 = .ok () := by
  rw [turn]
  rw [contextOf] at h
  split
  · exact ⟨rfl, rfl⟩
  · rename_i e
    rw [e] at h
    cases h

/-- A turn with a failure. -/
lemma turn_of_error (sink : DeadLetterSink)
    (h : (p.dispatch envelope (contextOf envelope)).2 = .error err) :
    ((turn envelope sink p).1.record, (turn envelope sink p).2) =
      routeFailure sink envelope.eventId envelope.correlationId envelope.causationId
        p.policyIdentity p.outputType err := by
  rw [turn]
  rw [contextOf] at h
  split
  · rename_i e
    rw [e] at h
    cases h
  · rename_i calls err' e
    rw [e] at h
    cases h
    rfl

/-- A terminal failure is recorded. -/
lemma turn_of_terminal (sink : DeadLetterSink)
    (h : (p.dispatch envelope (contextOf envelope)).2 = .error err)
    (terminal : err.category = .terminal) :
    (turn envelope sink p).1.record =
        some (recordOf envelope p err, sink (recordOf envelope p err)) ∧
      (turn envelope sink p).2 = .ok () := by
  have routed := turn_of_error sink h
  simp only [routeFailure, terminal] at routed
  exact Prod.mk.inj routed

/-- Another failure is returned. -/
lemma turn_of_stop (h : (p.dispatch envelope (contextOf envelope)).2 = .error err)
    (ne : err.category ≠ .terminal) : (turn envelope sink p).2 = .error err := by
  have routed := turn_of_error sink h
  rw [routeFailure] at routed
  split at routed
  · exact (Prod.mk.inj routed).2
  · exact (Prod.mk.inj routed).2
  · exact absurd ‹_› ne

/-- A turn ends the dispatch if the policy stops it. -/
lemma turn_ok_iff : (turn envelope sink p).2 = .ok () ↔ ¬ p.Stops envelope := by
  rcases result : (p.dispatch envelope (contextOf envelope)).2 with err | ⟨⟨⟩⟩
  · obtain ⟨n, failed⟩ := tryEach_error.mp result
    have stops : p.Stops envelope ↔ err.category ≠ .terminal := by
      constructor
      · rintro ⟨n', err', failed', ne⟩
        rwa [(failed.unique (fails_iff.mp failed')).2]
      · exact fun ne => ⟨n, err, fails_iff.mpr failed, ne⟩
    rw [stops, not_not]
    by_cases terminal : err.category = .terminal
    · exact iff_of_true (turn_of_terminal sink result terminal).2 terminal
    · refine iff_of_false ?_ terminal
      rw [turn_of_stop result terminal]
      nofun
  · refine iff_of_true (turn_of_ok result).2 ?_
    rintro ⟨n, err, failed, -⟩
    cases result.symm.trans (tryEach_error.mpr ⟨n, fails_iff.mp failed⟩)

end Turns

/-- An envelope for concrete registries and runs. -/
def sample : EventEnvelope Unit := ⟨1, ⟨.min⟩, .min, 0, none, none, ()⟩

/-- A policy with these outputs for every event. -/
def notifier (outputs : List Nat) (closure : Nat → Except AgentError Unit) :
    PolicyAdapter Unit Nat :=
  ⟨"OrderNotifier", "Notify", fun _ => outputs, fun n _ _ => closure n⟩

end CherryPit.App
