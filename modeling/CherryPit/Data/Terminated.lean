import Mathlib.Tactic

/-!
# Separated lists

A list is written as its items with a separator after each but perhaps the last (`Terminated`). The
loop that reads such a list with a parser of one item returns the values of the items of a list that
is written so (`Terminated.parseTerminated`), and returns nothing else (`exists_terminated`).
-/

namespace CherryPit

variable {τ α β : Type*}

/-- The tokens are a way to write the items, of which each is written as `spells` says. -/
inductive Terminated (separates : τ → Bool) (spells : α → List τ → Prop) :
    List α → List τ → Prop where
  | nil :
    Terminated separates spells [] []
  | last {item text} :
    spells item text →
    Terminated separates spells [item] text
  | cons {item text comma items rest} :
    spells item text →
    separates comma = true →
    Terminated separates spells items rest →
    Terminated separates spells (item :: items) (text ++ comma :: rest)

/-- An item may end before these tokens. -/
def Ends (separates : τ → Bool) : List τ → Prop
  | [] => True
  | token :: _ => separates token = true

/-! ## The loop -/

section Loop

variable (separates : τ → Bool)

/-- What is read after an item: the end, or a separator and the other items. -/
def parseRest (parseItems : List τ → Option (List β)) (value : β) : List τ → Option (List β)
  | [] => some [value]
  | token :: rest => if separates token then (parseItems rest).map (value :: ·) else none

/-- Items as long as there are tokens. -/
def parseItems (parse : List τ → Option (β × List τ)) : Nat → List τ → Option (List β)
  | 0, _ => none
  | _ + 1, [] => some []
  | fuel + 1, token :: tokens => (parse (token :: tokens)).bind fun read =>
      parseRest separates (parseItems parse fuel) read.1 read.2

/-- A list of items that takes all tokens; an item takes at least one. -/
def parseTerminated (parse : List τ → Option (β × List τ)) (tokens : List τ) : Option (List β) :=
  parseItems separates parse (tokens.length + 1) tokens

end Loop

section Reads

variable {separates : τ → Bool} {spells : α → List τ → Prop} {value : α → β}
  {parse : List τ → Option (β × List τ)} {items : List α} {tokens : List τ} {fuel : Nat}
  {values : List β}

lemma parseItems_succ (ne : tokens ≠ []) :
    parseItems separates parse (fuel + 1) tokens =
      (parse tokens).bind fun read =>
        parseRest separates (parseItems separates parse fuel) read.1 read.2 := by
  rcases tokens with _ | ⟨token, rest⟩
  · exact absurd rfl ne
  · rfl

/-- A single item is written with a separator after it or without. -/
lemma terminated_singleton_iff {item : α} :
    Terminated separates spells [item] tokens ↔
      ∃ text rest, spells item text ∧ tokens = text ++ rest ∧
        (rest = [] ∨ ∃ comma, separates comma = true ∧ rest = [comma]) := by
  constructor
  · intro h
    cases h with
    | last spelled => exact ⟨_, [], spelled, (List.append_nil _).symm, .inl rfl⟩
    | cons spelled comma others =>
      cases others
      exact ⟨_, _, spelled, rfl, .inr ⟨_, comma, rfl⟩⟩
  · rintro ⟨text, rest, spelled, rfl, rfl | ⟨comma, separated, rfl⟩⟩
    · rw [List.append_nil]
      exact .last spelled
    · exact .cons spelled separated .nil

/-- The loop reads a list if the parser reads each item of it. -/
lemma Terminated.parseItems (h : Terminated separates spells items tokens)
    (nonempty : ∀ item text, spells item text → text ≠ [])
    (each : ∀ item text rest, spells item text → text ⊆ tokens → Ends separates rest →
      parse (text ++ rest) = some (value item, rest))
    (enough : tokens.length < fuel) :
    parseItems separates parse fuel tokens = some (items.map value) := by
  induction h generalizing fuel with
  | nil =>
    obtain ⟨fuel, rfl⟩ := Nat.exists_eq_add_one_of_ne_zero (Nat.ne_zero_of_lt enough)
    rfl
  | @last item text spelled =>
    obtain ⟨fuel, rfl⟩ := Nat.exists_eq_add_one_of_ne_zero (Nat.ne_zero_of_lt enough)
    have read := each item text [] spelled (List.Subset.refl _) trivial
    rw [List.append_nil] at read
    rw [parseItems_succ (nonempty item text spelled), read]
    rfl
  | @cons item text comma items rest spelled separated others ih =>
    obtain ⟨fuel, rfl⟩ := Nat.exists_eq_add_one_of_ne_zero (Nat.ne_zero_of_lt enough)
    have read := each item text (comma :: rest) spelled (List.subset_append_left _ _) separated
    have ne : text ++ comma :: rest ≠ [] :=
      List.append_ne_nil_of_right_ne_nil _ (List.cons_ne_nil _ _)
    have more : CherryPit.parseItems separates parse fuel rest = some (items.map value) := by
      refine ih (fun item part after spelled sub => each item part after spelled ?_) ?_
      · have later : rest ⊆ text ++ comma :: rest :=
          List.subset_append_of_subset_right _ (List.subset_cons_self _ _)
        exact List.Subset.trans sub later
      · rw [List.length_append, List.length_cons] at enough
        omega
    rw [parseItems_succ ne, read, Option.bind_some, parseRest, if_pos separated, more]
    rfl

/-- What is written as a list of items is read as that list. -/
lemma Terminated.parseTerminated (h : Terminated separates spells items tokens)
    (nonempty : ∀ item text, spells item text → text ≠ [])
    (each : ∀ item text rest, spells item text → text ⊆ tokens → Ends separates rest →
      parse (text ++ rest) = some (value item, rest)) :
    parseTerminated separates parse tokens = some (items.map value) :=
  h.parseItems nonempty each (Nat.lt_succ_self _)

lemma exists_terminated_of_parseItems (each : ∀ tokens b rest, parse tokens = some (b, rest) →
      ∃ item text, spells item text ∧ tokens = text ++ rest ∧ value item = b)
    (h : parseItems separates parse fuel tokens = some values) :
    ∃ items, Terminated separates spells items tokens ∧ items.map value = values := by
  induction fuel generalizing tokens values with
  | zero => cases h
  | succ fuel ih =>
    rcases tokens with _ | ⟨token, tokens⟩
    · cases h
      exact ⟨[], .nil, rfl⟩
    · rw [parseItems_succ (List.cons_ne_nil _ _)] at h
      obtain ⟨⟨b, rest⟩, read, h⟩ := Option.bind_eq_some_iff.mp h
      obtain ⟨item, text, spelled, written, rfl⟩ := each _ _ _ read
      rw [written]
      rcases rest with _ | ⟨comma, rest⟩
      · cases h
        rw [List.append_nil]
        exact ⟨[item], .last spelled, rfl⟩
      · obtain ⟨separated, h⟩ := Option.ite_none_right_eq_some.mp h
        obtain ⟨values, more, rfl⟩ := Option.map_eq_some_iff.mp h
        obtain ⟨items, others, rfl⟩ := ih more
        exact ⟨item :: items, .cons spelled separated others, rfl⟩

/-- What is read as a list is written as one, if what the parser reads is written as an item. -/
lemma exists_terminated (each : ∀ tokens b rest, parse tokens = some (b, rest) →
      ∃ item text, spells item text ∧ tokens = text ++ rest ∧ value item = b)
    (h : parseTerminated separates parse tokens = some values) :
    ∃ items, Terminated separates spells items tokens ∧ items.map value = values :=
  exists_terminated_of_parseItems each h

end Reads

end CherryPit
