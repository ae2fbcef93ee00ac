import CherryPit.Data.Terminated

/-!
# Tokens and paths

What the gate of `non-exhaustive-check` reads attributes with: token trees, and a parser of paths.

Rust → Lean: a parse stream is the list of the token trees that are left. The parser of paths is
that of the `syn` library. It is a parameter, and what is assumed of it is that a path which is
written as Rust writes it is read as that path (`PathParser.reads`). Of generic arguments nothing is
kept but that they are there; how they are written is a parameter too.
-/

namespace CherryPit.NonExhaustive

/-! ## Tokens -/

/-- Rust `proc_macro2::Ident`. -/
structure Ident where
  raw : Bool
  name : String
  deriving DecidableEq

/-- Rust `Ident::to_string`. -/
def Ident.toString (ident : Ident) : String :=
  if ident.raw then "r#" ++ ident.name else ident.name

inductive Delimiter where
  | parenthesis
  | brace
  | bracket
  deriving DecidableEq

/-- Token trees. A punctuation character is joint if another one follows at once, and of literals
only strings are told apart. -/
inductive TokenTree where
  | ident (ident : Ident)
  | punct (char : Char) (joint : Bool)
  | litStr (value : String)
  | literal
  | group (delimiter : Delimiter) (stream : List TokenTree)

/-- Rust `input.peek(Token![,])`. -/
def isComma : TokenTree → Bool
  | .punct ',' _ => true
  | _ => false

lemma ends_iff {rest : List TokenTree} :
    Ends isComma rest ↔ rest = [] ∨ ∃ joint more, rest = .punct ',' joint :: more := by
  constructor
  · intro ends
    rcases rest with _ | ⟨token, more⟩
    · exact .inl rfl
    · change isComma token = true at ends
      unfold isComma at ends
      split at ends
      · exact .inr ⟨_, _, rfl⟩
      · cases ends
  · rintro (rfl | ⟨joint, more, rfl⟩)
    · trivial
    · rfl

/-! ## Paths -/

/-- Rust `syn::PathSegment`. -/
structure PathSegment where
  ident : Ident
  arguments : Bool
  deriving DecidableEq

/-- Rust `syn::Path`. -/
structure Path where
  leadingColon : Bool
  segments : List PathSegment
  deriving DecidableEq

/-- Rust `Path::is_ident`. -/
def Path.isIdent (path : Path) (name : String) : Bool :=
  match path.segments with
  | [segment] => !path.leadingColon && !segment.arguments && segment.ident.toString == name
  | _ => false

/-- The words that are not identifiers. -/
def keywords : List String :=
  ["_", "abstract", "as", "async", "await", "become", "box", "break", "const", "continue", "crate",
    "do", "dyn", "else", "enum", "extern", "false", "final", "fn", "for", "if", "impl", "in", "let",
    "loop", "macro", "match", "mod", "move", "mut", "override", "priv", "pub", "ref", "return",
    "Self", "self", "static", "struct", "super", "trait", "true", "try", "type", "typeof", "unsafe",
    "unsized", "use", "virtual", "where", "while", "yield"]

/-- The keywords that are segments without arguments. -/
def Ident.standsAlone (ident : Ident) : Bool :=
  ["super", "self", "crate", "try"].contains ident.toString

/-- The other identifiers that are segments. -/
def Ident.takesArguments (ident : Ident) : Bool :=
  ident.toString == "Self" || !keywords.contains ident.toString

/-! ## How paths are written -/

section Spelling

variable {generics : List TokenTree → Prop}

/-- The tokens are a way to write the segment. -/
inductive SpellsSegment (generics : List TokenTree → Prop) :
    PathSegment → List TokenTree → Prop where
  | plain {ident} :
    ident.standsAlone = true ∨ ident.takesArguments = true →
    SpellsSegment generics ⟨ident, false⟩ [.ident ident]
  | generic {ident text} :
    ident.standsAlone = false →
    ident.takesArguments = true →
    generics text →
    SpellsSegment generics ⟨ident, true⟩ (.ident ident :: text)

/-- The tokens are a way to write the segments, with `::` between them. -/
inductive SpellsSegments (generics : List TokenTree → Prop) :
    List PathSegment → List TokenTree → Prop where
  | last {segment text} :
    SpellsSegment generics segment text →
    SpellsSegments generics [segment] text
  | cons {segment text joint segments rest} :
    SpellsSegment generics segment text →
    SpellsSegments generics segments rest →
    SpellsSegments generics (segment :: segments)
      (text ++ .punct ':' true :: .punct ':' joint :: rest)

/-- The tokens are a way to write the path. -/
inductive SpellsPath (generics : List TokenTree → Prop) : Path → List TokenTree → Prop where
  | relative {segments text} :
    SpellsSegments generics segments text →
    SpellsPath generics ⟨false, segments⟩ text
  | leading {segments text joint} :
    SpellsSegments generics segments text →
    SpellsPath generics ⟨true, segments⟩ (.punct ':' true :: .punct ':' joint :: text)

variable {segments : List PathSegment} {path : Path} {text rest : List TokenTree}

/-- A path begins with an identifier. -/
lemma SpellsSegments.exists_ident (h : SpellsSegments generics segments text) :
    ∃ ident more, text = .ident ident :: more := by
  have first {segment text} (h : SpellsSegment generics segment text) :
      ∃ ident more, text = .ident ident :: more := by
    cases h
    · exact ⟨_, _, rfl⟩
    · exact ⟨_, _, rfl⟩
  cases h with
  | last h => exact first h
  | cons h _ =>
    obtain ⟨ident, more, rfl⟩ := first h
    exact ⟨ident, _, rfl⟩

lemma SpellsPath.ne_nil (h : SpellsPath generics path text) : text ≠ [] := by
  cases h with
  | relative h =>
    obtain ⟨ident, more, rfl⟩ := h.exists_ident
    exact List.cons_ne_nil _ _
  | leading _ => exact List.cons_ne_nil _ _

/-! ## Reading paths -/

/-- Rust `<syn::Path as Parse>::parse`, for some way to write generic arguments: a path is read as
it is written, before the end and before a comma. -/
structure PathParser where
  generics : List TokenTree → Prop
  parse : List TokenTree → Option (Path × List TokenTree)
  reads : ∀ {path text rest}, SpellsPath generics path text → Ends isComma rest →
    parse (text ++ rest) = some (path, rest)

/-- The segments of a path without generic arguments. -/
def plainSegments : List TokenTree → List PathSegment × List TokenTree
  | .ident ident :: .punct ':' true :: .punct ':' _ :: rest =>
    (⟨ident, false⟩ :: (plainSegments rest).1, (plainSegments rest).2)
  | .ident ident :: rest => ([⟨ident, false⟩], rest)
  | rest => ([], rest)

/-- A path without generic arguments. -/
def plainPath : List TokenTree → Option (Path × List TokenTree)
  | .punct ':' true :: .punct ':' _ :: rest =>
    some (⟨true, (plainSegments rest).1⟩, (plainSegments rest).2)
  | tokens => some (⟨false, (plainSegments tokens).1⟩, (plainSegments tokens).2)

lemma SpellsSegments.plainSegments (h : SpellsSegments (fun _ => False) segments text)
    (ends : Ends isComma rest) : plainSegments (text ++ rest) = (segments, rest) := by
  induction h with
  | last h =>
    cases h with
    | plain => obtain rfl | ⟨joint, more, rfl⟩ := ends_iff.mp ends <;> rfl
    | generic _ _ none => exact none.elim
  | @cons segment text joint segments more h _ ih =>
    cases h with
    | @plain ident =>
      show (⟨ident, false⟩ :: (NonExhaustive.plainSegments (more ++ rest)).1,
        (NonExhaustive.plainSegments (more ++ rest)).2) = _
      rw [ih]
    | generic _ _ none => exact none.elim

/-- A parser of paths without generic arguments. -/
def plainPaths : PathParser where
  generics _ := False
  parse := plainPath
  reads h ends := by
    cases h with
    | relative h =>
      have read := h.plainSegments ends
      obtain ⟨ident, more, rfl⟩ := h.exists_ident
      exact congrArg (fun read => some (Path.mk false read.1, read.2)) read
    | leading h =>
      exact congrArg (fun read => some (Path.mk true read.1, read.2)) (h.plainSegments ends)

end Spelling

end CherryPit.NonExhaustive
