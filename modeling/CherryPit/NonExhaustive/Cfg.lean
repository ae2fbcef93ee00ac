import CherryPit.NonExhaustive.Tokens

/-!
# Configuration predicates

Port of `CfgTruth` and its parser (`non-exhaustive-check/src/main.rs`), which evaluates a `cfg`
predicate while it reads it, with `test` false and every other option unknown. The arguments of a
`cfg` attribute are read to a value exactly if they are written as a predicate (`Spells`) of which
this is known (`evaluateArgs_iff`), and what is known of a predicate agrees with its value under
every assignment in which `test` is false (`Predicate.truth_allows`).

Rust → Lean: the recursion of the parser has fuel, the depth of the groups that are left.
-/

namespace CherryPit.NonExhaustive

/-! ## The parser -/

mutual

/-- How deep groups are nested in a tree. -/
def TokenTree.depth : TokenTree → Nat
  | .group _ stream => depthAll stream + 1
  | .ident _ | .punct _ _ | .litStr _ | .literal => 0

/-- How deep groups are nested in a list of trees. -/
def depthAll : List TokenTree → Nat
  | [] => 0
  | token :: rest => max token.depth (depthAll rest)

end

/-- Rust `CfgTruth`. -/
inductive CfgTruth where
  | false
  | true
  | unknown
  deriving DecidableEq

/-- The value of `all(..)` or `any(..)`: one value decides, and without unknown ones the other. -/
def combine (decisive otherwise : CfgTruth) (values : List CfgTruth) : CfgTruth :=
  if values.contains decisive then decisive
  else if values.contains .unknown then .unknown
  else otherwise

/-- The value of `not(..)`. -/
def negate : CfgTruth → CfgTruth
  | .false => .true
  | .true => .false
  | .unknown => .unknown

/-- The value of a name with a list of predicates. -/
def call (name : String) (values : List CfgTruth) : Option CfgTruth :=
  if name = "all" then some (combine .false .true values)
  else if name = "any" then some (combine .true .false values)
  else if name = "not" then
    match values with
    | [value] => some (negate value)
    | _ => none
  else none

/-- Rust `input.peek(syn::LitBool)`. -/
def Ident.isLitBool (ident : Ident) : Bool :=
  ["true", "false"].contains ident.toString

/-- What is read after a name, given what reads a list of predicates: the value and what is left. -/
def parseNamed (values : List TokenTree → Option (List CfgTruth)) (name : String) :
    List TokenTree → Option (CfgTruth × List TokenTree)
  | .punct '=' _ :: .litStr _ :: rest => some (.unknown, rest)
  | .punct '=' _ :: _ => none
  | .group .parenthesis content :: rest =>
    ((values content).bind (call name)).map fun value => (value, rest)
  | rest => some (if name = "test" then .false else .unknown, rest)

/-- One call of the parser, given what reads a list of predicates. -/
def parseWith (values : List TokenTree → Option (List CfgTruth)) :
    List TokenTree → Option (CfgTruth × List TokenTree)
  | .ident ident :: rest =>
    if ident.isLitBool then some (if ident.toString = "true" then .true else .false, rest)
    else parseNamed values ident.name rest
  | _ => none

def parseTruth : Nat → List TokenTree → Option (CfgTruth × List TokenTree)
  | 0, _ => none
  | fuel + 1, tokens => parseWith (parseTerminated isComma (parseTruth fuel)) tokens

/-- Rust `<CfgTruth as Parse>::parse`. -/
def CfgTruth.parse (tokens : List TokenTree) : Option (CfgTruth × List TokenTree) :=
  parseTruth (depthAll tokens + 1) tokens

/-- The tokens are nothing, or a comma. -/
def isAtEnd : List TokenTree → Bool
  | [] => true
  | [token] => isComma token
  | _ => false

/-- What `is_cfg_disabled_without_test` reads from the arguments of an attribute: a predicate,
perhaps with a comma after it. -/
def evaluateArgs (tokens : List TokenTree) : Option CfgTruth :=
  (CfgTruth.parse tokens).bind fun read => if isAtEnd read.2 then some read.1 else none

/-! ## Predicates -/

/-- A `cfg` predicate. -/
inductive Predicate where
  | option (name : String)
  | keyValue (key value : String)
  | literal (value : Bool)
  | all (args : List Predicate)
  | any (args : List Predicate)
  | not (arg : Predicate)

/-- The tokens are a way to write the predicate. -/
inductive Spells : Predicate → List TokenTree → Prop where
  | option {ident} :
    ident.isLitBool = false →
    Spells (.option ident.name) [.ident ident]
  | keyValue {ident joint value} :
    ident.isLitBool = false →
    Spells (.keyValue ident.name value) [.ident ident, .punct '=' joint, .litStr value]
  | literal {value} :
    Spells (.literal value) [.ident ⟨false, if value then "true" else "false"⟩]
  | all {raw args content} :
    Terminated isComma Spells args content →
    Spells (.all args) [.ident ⟨raw, "all"⟩, .group .parenthesis content]
  | any {raw args content} :
    Terminated isComma Spells args content →
    Spells (.any args) [.ident ⟨raw, "any"⟩, .group .parenthesis content]
  | not {raw arg content} :
    Terminated isComma Spells [arg] content →
    Spells (.not arg) [.ident ⟨raw, "not"⟩, .group .parenthesis content]

/-- Truth values of the options and of the pairs of a key and a value. -/
structure Assignment where
  option : String → Bool
  keyValue : String → String → Bool

mutual

/-- The value of a predicate under an assignment. -/
def Predicate.holds (assignment : Assignment) : Predicate → Bool
  | .option name => assignment.option name
  | .keyValue key value => assignment.keyValue key value
  | .literal value => value
  | .all args => (holdsEach assignment args).all id
  | .any args => (holdsEach assignment args).any id
  | .not arg => !arg.holds assignment

/-- The values of predicates. -/
def holdsEach (assignment : Assignment) : List Predicate → List Bool
  | [] => []
  | arg :: args => arg.holds assignment :: holdsEach assignment args

end

mutual

/-- What is known of a predicate without tests. -/
def Predicate.truth : Predicate → CfgTruth
  | .option name => if name = "test" then .false else .unknown
  | .keyValue _ _ => .unknown
  | .literal value => if value then .true else .false
  | .all args => combine .false .true (truthEach args)
  | .any args => combine .true .false (truthEach args)
  | .not arg => negate arg.truth

/-- What is known of predicates. -/
def truthEach : List Predicate → List CfgTruth
  | [] => []
  | arg :: args => arg.truth :: truthEach args

end

/-! ## What is known is true -/

/-- A Boolean value that agrees with what is known. -/
structure CfgTruth.Allows (value : CfgTruth) (b : Bool) : Prop where
  isFalse : value = .false → b = Bool.false
  isTrue : value = .true → b = Bool.true

/-- What is known of a Boolean value. -/
def known (b : Bool) : CfgTruth := if b then .true else .false

section Sound

variable {value : CfgTruth} {b : Bool} {values : List CfgTruth} {bs : List Bool} {d : Bool}

lemma unknown_allows : CfgTruth.unknown.Allows b := by
  constructor
  · rintro ⟨⟩
  · rintro ⟨⟩

lemma known_allows : (known b).Allows b := by
  cases b
  · exact ⟨fun _ => rfl, by rintro ⟨⟩⟩
  · exact ⟨by rintro ⟨⟩, fun _ => rfl⟩

lemma CfgTruth.Allows.eq (h : (known d).Allows b) : b = d := by
  cases d
  · exact h.isFalse rfl
  · exact h.isTrue rfl

lemma negate_allows (h : value.Allows b) : (negate value).Allows (!b) := by
  cases value with
  | false => exact ⟨by rintro ⟨⟩, fun _ => by rw [h.isFalse rfl]; rfl⟩
  | true => exact ⟨fun _ => by rw [h.isTrue rfl]; rfl, by rintro ⟨⟩⟩
  | unknown => exact unknown_allows

lemma mem_of_known (h : List.Forall₂ CfgTruth.Allows values bs) (mem : known d ∈ values) :
    d ∈ bs := by
  induction h with
  | nil => cases mem
  | cons allows _ ih =>
    rcases List.mem_cons.mp mem with rfl | mem
    · rw [allows.eq]
      exact List.mem_cons_self
    · exact List.mem_cons_of_mem _ (ih mem)

lemma eq_known (d : Bool) (decided : value ≠ .unknown) (other : value ≠ known d) :
    value = known !d := by
  cases value with
  | unknown => exact absurd rfl decided
  | false =>
    cases d
    · exact absurd rfl other
    · rfl
  | true =>
    cases d
    · rfl
    · exact absurd rfl other

lemma not_mem_of_known (h : List.Forall₂ CfgTruth.Allows values bs) (decided : .unknown ∉ values)
    (other : known d ∉ values) : d ∉ bs := by
  induction h with
  | nil => exact List.not_mem_nil
  | @cons value b _ _ allows _ ih =>
    simp only [List.mem_cons, not_or] at decided other ⊢
    refine ⟨?_, ih decided.2 other.2⟩
    rw [eq_known d (Ne.symm decided.1) (Ne.symm other.1)] at allows
    rw [allows.eq]
    cases d <;> decide

/-- A decisive value decides, and without unknown values nothing else does. -/
lemma combine_allows (h : List.Forall₂ CfgTruth.Allows values bs) :
    (combine (known d) (known !d) values).Allows (if d ∈ bs then d else !d) := by
  unfold combine
  simp only [List.contains_iff_mem]
  split
  next mem =>
    rw [if_pos (mem_of_known h mem)]
    exact known_allows
  next other =>
    split
    next => exact unknown_allows
    next decided =>
      rw [if_neg (not_mem_of_known h decided other)]
      exact known_allows

lemma all_id_eq : bs.all id = if false ∈ bs then false else !false := by
  induction bs with
  | nil => rfl
  | cons b bs ih => cases b <;> simp [ih]

lemma any_id_eq : bs.any id = if true ∈ bs then true else !true := by
  induction bs with
  | nil => rfl
  | cons b bs ih => cases b <;> simp [ih]

variable {assignment : Assignment}

mutual

/-- What is known of a predicate agrees with its value under every assignment without tests. -/
lemma Predicate.truth_allows (test : assignment.option "test" = false) :
    ∀ predicate : Predicate, predicate.truth.Allows (predicate.holds assignment)
  | .option name => by
    rw [Predicate.truth, Predicate.holds]
    split
    next isTest =>
      rw [isTest, test]
      exact known_allows (b := false)
    next => exact unknown_allows
  | .keyValue key value => by
    rw [Predicate.truth, Predicate.holds]
    exact unknown_allows
  | .literal value => by
    rw [Predicate.truth, Predicate.holds]
    exact known_allows
  | .all args => by
    rw [Predicate.truth, Predicate.holds, all_id_eq]
    exact combine_allows (d := false) (truthEach_allows test args)
  | .any args => by
    rw [Predicate.truth, Predicate.holds, any_id_eq]
    exact combine_allows (d := true) (truthEach_allows test args)
  | .not arg => by
    rw [Predicate.truth, Predicate.holds]
    exact negate_allows (arg.truth_allows test)

lemma truthEach_allows (test : assignment.option "test" = false) :
    ∀ args, List.Forall₂ CfgTruth.Allows (truthEach args) (holdsEach assignment args)
  | [] => by
    rw [truthEach, holdsEach]
    exact .nil
  | arg :: args => by
    rw [truthEach, holdsEach]
    exact .cons (arg.truth_allows test) (truthEach_allows test args)

end

end Sound

/-! ## What is read -/

section Reads

variable {raw : Bool} {ident : Ident} {name : String} {fuel : Nat} {value : CfgTruth}
  {predicate : Predicate} {args : List Predicate} {tokens text rest content : List TokenTree}
  {values : List TokenTree → Option (List CfgTruth)} {read : List CfgTruth}

lemma depth_le_depthAll {token : TokenTree} (mem : token ∈ tokens) :
    token.depth ≤ depthAll tokens := by
  induction tokens with
  | nil => cases mem
  | cons head tokens ih =>
    rw [depthAll]
    rcases List.mem_cons.mp mem with rfl | mem
    · exact le_max_left _ _
    · exact le_max_of_le_right (ih mem)

lemma depthAll_mono (sub : text ⊆ tokens) : depthAll text ≤ depthAll tokens := by
  induction text with
  | nil => exact Nat.zero_le _
  | cons head text ih =>
    rw [depthAll]
    exact max_le (depth_le_depthAll (sub List.mem_cons_self))
      (ih fun token mem => sub (List.mem_cons_of_mem _ mem))

/-- What a call holds is not as deep as the call. -/
lemma depthAll_content :
    depthAll content < depthAll [.ident ident, .group .parenthesis content] := by
  have le : (TokenTree.group .parenthesis content).depth ≤
      depthAll [.ident ident, .group .parenthesis content] :=
    depth_le_depthAll (List.mem_cons_of_mem _ List.mem_cons_self)
  rw [TokenTree.depth] at le
  exact le

lemma truthEach_eq_map : truthEach args = args.map Predicate.truth := by
  induction args with
  | nil => rw [truthEach]; rfl
  | cons arg args ih => rw [truthEach, ih]; rfl

lemma Spells.ne_nil (h : Spells predicate text) : text ≠ [] := by
  cases h <;> exact List.cons_ne_nil _ _

lemma parseWith_named (named : ident.isLitBool = false) :
    parseWith values (.ident ident :: rest) = parseNamed values ident.name rest := by
  rw [parseWith, named]
  rfl

lemma parseNamed_ends (ends : Ends isComma rest) :
    parseNamed values name rest = some (if name = "test" then .false else .unknown, rest) := by
  obtain rfl | ⟨joint, more, rfl⟩ := ends_iff.mp ends
  · rfl
  · rfl

lemma parseNamed_call (reads : values content = some read) (called : call name read = some value) :
    parseNamed values name (.group .parenthesis content :: rest) = some (value, rest) := by
  rw [parseNamed, reads, Option.bind_some, called]
  rfl

/-- A predicate is read to what is known of it. -/
lemma Spells.parseTruth (h : Spells predicate text) (ends : Ends isComma rest)
    (enough : depthAll text < fuel) :
    parseTruth fuel (text ++ rest) = some (predicate.truth, rest) := by
  induction fuel generalizing predicate text rest with
  | zero => exact absurd enough (Nat.not_lt_zero _)
  | succ fuel ih =>
    -- the predicates in a group are not as deep as the group
    have each {args content ident} (spelled : Terminated isComma Spells args content)
        (deep : depthAll [.ident ident, .group .parenthesis content] < fuel + 1) :
        parseTerminated isComma (NonExhaustive.parseTruth fuel) content =
          some (truthEach args) := by
      rw [truthEach_eq_map]
      refine spelled.parseTerminated (fun _ _ => Spells.ne_nil) ?_
      intro arg text rest spelled sub ends
      have lt : depthAll content < fuel := lt_of_lt_of_le depthAll_content (Nat.le_of_lt_succ deep)
      exact ih spelled ends (lt_of_le_of_lt (depthAll_mono sub) lt)
    cases h with
    | option named =>
      rw [List.singleton_append, NonExhaustive.parseTruth, parseWith_named named,
        parseNamed_ends ends, Predicate.truth]
    | keyValue named =>
      show parseWith _ (.ident _ :: _) = _
      rw [parseWith_named named, Predicate.truth]
      rfl
    | @literal value => cases value <;> rfl
    | @all raw _ _ spelled | @any raw _ _ spelled | @not raw _ _ spelled =>
      show parseWith _ (.ident _ :: .group _ _ :: rest) = _
      rw [parseWith_named (by cases raw <;> rfl), Predicate.truth]
      exact parseNamed_call (each spelled enough) rfl

/-! ## Nothing else is read -/

lemma Ident.toString_ne (isRaw : ident.raw = true) (differs : name.toList.head? ≠ some 'r') :
    ident.toString ≠ name := by
  rintro rfl
  rw [Ident.toString, if_pos isRaw, String.toList_append] at differs
  exact differs rfl

lemma Ident.isLitBool_iff :
    ident.isLitBool = true ↔ ∃ b : Bool, ident = ⟨false, if b then "true" else "false"⟩ := by
  constructor
  · intro literal
    obtain ⟨raw, name⟩ := ident
    have word := List.contains_iff_mem.mp literal
    rw [List.mem_cons, List.mem_singleton] at word
    cases raw with
    | true =>
      rcases word with word | word
      · exact absurd word (Ident.toString_ne rfl (by decide))
      · exact absurd word (Ident.toString_ne rfl (by decide))
    | false =>
      rcases word with rfl | rfl
      · exact ⟨true, rfl⟩
      · exact ⟨false, rfl⟩
  · rintro ⟨b, rfl⟩
    cases b <;> rfl

lemma call_eq_some (h : call name read = some value) :
    (name = "all" ∧ value = combine .false .true read) ∨
      (name = "any" ∧ value = combine .true .false read) ∨
      ∃ arg, name = "not" ∧ read = [arg] ∧ value = negate arg := by
  unfold call at h
  split at h
  next isAll => exact .inl ⟨isAll, (Option.some.inj h).symm⟩
  split at h
  next isAny => exact .inr (.inl ⟨isAny, (Option.some.inj h).symm⟩)
  split at h
  next isNot =>
    split at h
    next arg => exact .inr (.inr ⟨arg, isNot, rfl, (Option.some.inj h).symm⟩)
    next => cases h
  next => cases h

lemma exists_spells_of_parseNamed (named : ident.isLitBool = false)
    (each : ∀ content read, values content = some read →
      ∃ args, Terminated isComma Spells args content ∧ args.map Predicate.truth = read)
    (h : parseNamed values ident.name tokens = some (value, rest)) :
    ∃ predicate text, Spells predicate text ∧ .ident ident :: tokens = text ++ rest ∧
      predicate.truth = value := by
  unfold parseNamed at h
  split at h
  next joint written after =>
    cases h
    exact ⟨.keyValue ident.name written, _, .keyValue named, rfl, by rw [Predicate.truth]⟩
  next => cases h
  next content after =>
    obtain ⟨v, called, eq⟩ := Option.map_eq_some_iff.mp h
    cases eq
    obtain ⟨read, reads, called⟩ := Option.bind_eq_some_iff.mp called
    obtain ⟨args, spelled, rfl⟩ := each content read reads
    obtain ⟨raw, name⟩ := ident
    rcases call_eq_some called with ⟨rfl, rfl⟩ | ⟨rfl, rfl⟩ | ⟨arg, rfl, single, rfl⟩
    · exact ⟨.all args, _, .all spelled, rfl, by rw [Predicate.truth, truthEach_eq_map]⟩
    · exact ⟨.any args, _, .any spelled, rfl, by rw [Predicate.truth, truthEach_eq_map]⟩
    · obtain ⟨predicate, rfl, rfl⟩ := List.map_eq_singleton_iff.mp single
      exact ⟨.not predicate, _, .not spelled, rfl, by rw [Predicate.truth]⟩
  next =>
    cases h
    exact ⟨.option ident.name, _, .option named, rfl, by rw [Predicate.truth]⟩

/-- What is read is written as a predicate of which the value is known. -/
lemma exists_spells (h : parseTruth fuel tokens = some (value, rest)) :
    ∃ predicate text, Spells predicate text ∧ tokens = text ++ rest ∧ predicate.truth = value := by
  induction fuel generalizing tokens value rest with
  | zero => cases h
  | succ fuel ih =>
    rw [parseTruth] at h
    unfold parseWith at h
    split at h
    next ident after =>
      split at h
      next literal =>
        obtain ⟨b, rfl⟩ := Ident.isLitBool_iff.mp literal
        cases h
        refine ⟨.literal b, _, .literal, rfl, ?_⟩
        rw [Predicate.truth]
        cases b <;> rfl
      next named =>
        refine exists_spells_of_parseNamed (Bool.eq_false_of_not_eq_true named) ?_ h
        exact fun content read => exists_terminated fun _ _ _ => ih
    next => cases h

lemma isAtEnd_iff :
    isAtEnd rest = true ↔ rest = [] ∨ ∃ comma, isComma comma = true ∧ rest = [comma] := by
  constructor
  · intro ended
    unfold isAtEnd at ended
    split at ended
    next => exact .inl rfl
    next comma => exact .inr ⟨comma, ended, rfl⟩
    next => cases ended
  · rintro (rfl | ⟨comma, isComma, rfl⟩)
    · rfl
    · exact isComma

/-- A predicate is evaluated to what is known of it. -/
lemma Spells.parse (h : Spells predicate text) (ended : isAtEnd rest = true) :
    CfgTruth.parse (text ++ rest) = some (predicate.truth, rest) := by
  have ends : Ends isComma rest := by
    rcases isAtEnd_iff.mp ended with rfl | ⟨comma, separates, rfl⟩
    · trivial
    · exact separates
  exact h.parseTruth ends (Nat.lt_succ_of_le (depthAll_mono (List.subset_append_left _ _)))

/-- The arguments of an attribute are evaluated exactly if they are written as a predicate. -/
theorem evaluateArgs_iff :
    evaluateArgs tokens = some value ↔
      ∃ predicate, Terminated isComma Spells [predicate] tokens ∧ predicate.truth = value := by
  simp only [terminated_singleton_iff, ← isAtEnd_iff]
  constructor
  · intro h
    obtain ⟨⟨v, rest⟩, read, h⟩ := Option.bind_eq_some_iff.mp h
    obtain ⟨ended, eq⟩ := Option.ite_none_right_eq_some.mp h
    cases eq
    obtain ⟨predicate, text, spelled, written, known⟩ := exists_spells read
    exact ⟨predicate, ⟨text, rest, spelled, written, ended⟩, known⟩
  · rintro ⟨predicate, ⟨text, rest, spelled, rfl, ended⟩, rfl⟩
    rw [evaluateArgs, spelled.parse ended, Option.bind_some, if_pos ended]

end Reads

end CherryPit.NonExhaustive
