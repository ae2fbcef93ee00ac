import Mathlib.Tactic

/-!
# Identities and event envelopes

Port of `cherry-pit-core/src/{aggregate_id,correlation,event}.rs`: the identities that the stores
and drivers share and the envelope a store puts around a domain event.

Rust → Lean: `NonZeroU64` is a natural number with its two bounds; `uuid::Uuid` is the 128-bit
number its bytes spell (so that the order of `BTreeMap` keys is the order of `BitVec`);
`jiff::Timestamp` is a number of nanoseconds. Fields keep their names in camel case.
-/

namespace CherryPit

/-- Rust `NonZeroU64`. -/
@[ext] structure NonZeroU64 where
  get : Nat
  pos : 0 < get
  lt : get < 2 ^ 64
  deriving DecidableEq

/-- Rust `NonZeroU64::MIN`. -/
def NonZeroU64.min : NonZeroU64 := ⟨1, by decide, by decide⟩

/-- Rust `uuid::Uuid`, as a big-endian number. -/
abbrev Uuid := BitVec 128

/-- The `i`-th group of a hyphenated UUID: `n` hexadecimal digits from digit `i` on. -/
def Uuid.group (u : Uuid) (i n : Nat) : String :=
  let digits := Nat.toDigits 16 u.toNat
  String.ofList (((List.replicate (32 - digits.length) '0' ++ digits).drop i).take n)

/-- Rust `Display for Uuid`: lower-case hyphenated. -/
def Uuid.display (u : Uuid) : String :=
  u.group 0 8 ++ "-" ++ u.group 8 4 ++ "-" ++ u.group 12 4 ++ "-" ++ u.group 16 4 ++ "-" ++
    u.group 20 12

/-- Rust `jiff::Timestamp`, in nanoseconds. -/
abbrev Timestamp := Int

/-- Stream partition key (Rust `AggregateId`). -/
@[ext] structure AggregateId where
  id : NonZeroU64
  deriving DecidableEq

/-- Rust `AggregateId::get`. -/
def AggregateId.get (a : AggregateId) : Nat := a.id.get

/-- Rust `Display for AggregateId`. -/
def AggregateId.display (a : AggregateId) : String := toString a.get

lemma AggregateId.get_inj {a b : AggregateId} (e : a.get = b.get) : a = b :=
  AggregateId.ext (NonZeroU64.ext e)

/-- Rust `CorrelationContext`. -/
structure CorrelationContext where
  correlationId : Option Uuid
  causationId : Option Uuid
  deriving DecidableEq

/-- Infrastructure wrapper around a domain event (Rust `EventEnvelope`). -/
structure EventEnvelope (E : Type) where
  eventId : Uuid
  aggregateId : AggregateId
  sequence : NonZeroU64
  timestamp : Timestamp
  correlationId : Option Uuid
  causationId : Option Uuid
  payload : E
  deriving DecidableEq

end CherryPit
