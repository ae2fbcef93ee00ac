import CherryPit.Data.Json
import CherryPit.Data.Numeral

/-!
# JSON texts

A parser for the texts of RFC 8259: white space around tokens, the seven two-character escapes,
`\u` escapes with surrogate pairs, no raw control characters in strings. A number is returned as it
is written. `render` is the compact printer for a given way to write characters in strings and
numbers; what it prints is read back as it was (`parse_render`).

The parser of a value gets the parser of what is nested in it, so that the recursion is on the depth
alone. Loops take the length of the text as a bound on their rounds.
-/

namespace CherryPit.Json

variable {c : Char}

/-- A text. -/
abbrev Text := List Char

/-- Reads a value from the front of a text. -/
abbrev Parser (α : Type) := Text → Option (α × Text)

/-- White space. -/
def isWs (c : Char) : Bool := c == ' ' || c == '\t' || c == '\n' || c == '\r'

/-- The text without the white space in front. -/
def skipWs (cs : Text) : Text := cs.dropWhile isWs

section Numbers

/-- `0`, or digits without a zero in front. -/
inductive IsInt : Text → Prop where
  | zero : IsInt ['0']
  | digits {c ds} : c.isDigit = true → c ≠ '0' → (∀ d ∈ ds, d.isDigit = true) → IsInt (c :: ds)

/-- A fraction, if there is one. -/
inductive IsFrac : Text → Prop where
  | absent : IsFrac []
  | digits {ds} : IsNumeral ds → IsFrac ('.' :: ds)

/-- An exponent, if there is one. -/
inductive IsExp : Text → Prop where
  | absent : IsExp []
  | digits {e sign ds} :
    e = 'e' ∨ e = 'E' → sign = [] ∨ sign = ['+'] ∨ sign = ['-'] → IsNumeral ds →
    IsExp (e :: (sign ++ ds))

/-- A number. -/
inductive IsNumber : Text → Prop where
  | mk {minus int frac exp} :
    minus = [] ∨ minus = ['-'] → IsInt int → IsFrac frac → IsExp exp →
    IsNumber (minus ++ (int ++ (frac ++ exp)))

/-- Reads one or more digits. -/
def parseDigits : Parser Text := fun cs =>
  if cs.takeWhile Char.isDigit = [] then none
  else some (cs.takeWhile Char.isDigit, cs.dropWhile Char.isDigit)

/-- Reads the sign of a number. -/
def parseMinus : Text → Text × Text
  | '-' :: cs => (['-'], cs)
  | cs => ([], cs)

/-- Reads the sign of an exponent. -/
def parseSign : Text → Text × Text
  | '+' :: cs => (['+'], cs)
  | '-' :: cs => (['-'], cs)
  | cs => ([], cs)

/-- Reads the digits before the point. -/
def parseInt : Parser Text
  | '0' :: cs => some (['0'], cs)
  | cs => parseDigits cs

/-- Reads a fraction. -/
def parseFrac : Parser Text
  | '.' :: cs => (parseDigits cs).map fun p => ('.' :: p.1, p.2)
  | cs => some ([], cs)

/-- Reads the sign and the digits of an exponent after its letter. -/
def parseExpAfter (e : Char) : Parser Text := fun cs =>
  (parseDigits (parseSign cs).2).map fun p => (e :: ((parseSign cs).1 ++ p.1), p.2)

/-- Reads an exponent. -/
def parseExp : Parser Text
  | 'e' :: cs => parseExpAfter 'e' cs
  | 'E' :: cs => parseExpAfter 'E' cs
  | cs => some ([], cs)

/-- Reads a number. -/
def parseNumber : Parser Text := fun cs => do
  let (int, cs') ← parseInt (parseMinus cs).2
  let (frac, cs'') ← parseFrac cs'
  let (exp, rest) ← parseExp cs''
  some ((parseMinus cs).1 ++ (int ++ (frac ++ exp)), rest)

/-- No number can go on here. -/
def EndsNumber (r : Text) : Prop :=
  ∀ c ∈ r.head?, c.isDigit = false ∧ c ≠ '.' ∧ c ≠ 'e' ∧ c ≠ 'E'

variable {r t ds : Text}

lemma parseDigits_append (digits : IsNumeral ds) (stop : ∀ c ∈ r.head?, c.isDigit = false) :
    parseDigits (ds ++ r) = some (ds, r) := by
  have rest : r.takeWhile Char.isDigit = [] ∧ r.dropWhile Char.isDigit = r := by
    cases r with
    | nil => exact ⟨rfl, rfl⟩
    | cons c r => simp [stop c rfl]
  have take : (ds ++ r).takeWhile Char.isDigit = ds := by
    rw [List.takeWhile_append_of_pos digits.2, rest.1, List.append_nil]
  have drop : (ds ++ r).dropWhile Char.isDigit = r := by
    rw [List.dropWhile_append_of_pos digits.2, rest.2]
  rw [parseDigits, take, drop, if_neg digits.1]

/-- A numeral does not start with a sign. -/
lemma head_numeral (digits : IsNumeral ds) :
    ∃ d rest, ds = d :: rest ∧ d.isDigit = true ∧ d ≠ '+' ∧ d ≠ '-' := by
  obtain ⟨nonempty, all⟩ := digits
  obtain ⟨d, rest, rfl⟩ := List.exists_cons_of_ne_nil nonempty
  have digit : d.isDigit = true := all d List.mem_cons_self
  refine ⟨d, rest, rfl, digit, ?_, ?_⟩
  all_goals
    rintro rfl
    exact absurd digit (by decide)

lemma parseSign_append {sign : Text} (signed : sign = [] ∨ sign = ['+'] ∨ sign = ['-'])
    (digits : IsNumeral ds) : parseSign (sign ++ (ds ++ r)) = (sign, ds ++ r) := by
  obtain ⟨d, rest, rfl, -, plus, minus⟩ := head_numeral digits
  rcases signed with rfl | rfl | rfl
  · simp only [List.nil_append, List.cons_append]
    unfold parseSign
    split <;> simp_all
  · rfl
  · rfl

lemma parseExp_append (exp : IsExp t) (stop : EndsNumber r) :
    parseExp (t ++ r) = some (t, r) := by
  cases exp with
  | absent =>
    cases r with
    | nil => rfl
    | cons c r =>
      obtain ⟨-, -, small, large⟩ := stop c rfl
      unfold parseExp
      split <;> simp_all
  | @digits e sign ds letter signed digits =>
    have after : parseExpAfter e (sign ++ ds ++ r) = some (e :: (sign ++ ds), r) := by
      rw [List.append_assoc, parseExpAfter, parseSign_append signed digits,
        parseDigits_append digits fun c h => (stop c h).1]
      rfl
    rcases letter with rfl | rfl
    · exact after
    · exact after

/-- What follows a fraction. -/
lemma head_exp (exp : IsExp t) (stop : EndsNumber r) :
    ∀ c ∈ (t ++ r).head?, c.isDigit = false ∧ c ≠ '.' := by
  cases exp with
  | absent => exact fun c h => ⟨(stop c h).1, (stop c h).2.1⟩
  | digits letter =>
    rcases letter with rfl | rfl
    · rintro _ ⟨⟩
      decide
    · rintro _ ⟨⟩
      decide

lemma parseFrac_append (frac : IsFrac t) (stop : ∀ c ∈ r.head?, c.isDigit = false ∧ c ≠ '.') :
    parseFrac (t ++ r) = some (t, r) := by
  cases frac with
  | absent =>
    cases r with
    | nil => rfl
    | cons c r =>
      have point := (stop c rfl).2
      unfold parseFrac
      split <;> simp_all
  | @digits ds digits =>
    rw [List.cons_append, parseFrac, parseDigits_append digits fun c h => (stop c h).1]
    rfl

/-- What follows the digits before the point. -/
lemma head_frac (frac : IsFrac t) (stop : ∀ c ∈ r.head?, c.isDigit = false ∧ c ≠ '.') :
    ∀ c ∈ (t ++ r).head?, c.isDigit = false := by
  cases frac with
  | absent => exact fun c h => (stop c h).1
  | digits =>
    rintro _ ⟨⟩
    decide

lemma parseInt_append (int : IsInt t) (stop : ∀ c ∈ r.head?, c.isDigit = false) :
    parseInt (t ++ r) = some (t, r) := by
  cases int with
  | zero => rfl
  | @digits c ds digit nonzero digits =>
    have numeral : IsNumeral (c :: ds) := ⟨List.cons_ne_nil _ _, by simp [digit]; exact digits⟩
    unfold parseInt
    split
    case h_1 e => simp_all
    case h_2 => exact parseDigits_append numeral stop

lemma IsInt.head (int : IsInt t) : ∃ c rest, t = c :: rest ∧ c.isDigit = true := by
  cases int with
  | zero => exact ⟨_, _, rfl, rfl⟩
  | digits digit => exact ⟨_, _, rfl, digit⟩

lemma parseMinus_append {minus : Text} (signed : minus = [] ∨ minus = ['-']) (int : IsInt t) :
    parseMinus (minus ++ (t ++ r)) = (minus, t ++ r) := by
  rcases signed with rfl | rfl
  · obtain ⟨c, rest, rfl, digit⟩ := int.head
    simp only [List.nil_append, List.cons_append]
    unfold parseMinus
    split
    case h_1 e =>
      cases e
      exact absurd digit (by decide)
    case h_2 => rfl
  · rfl

lemma parseNumber_append (number : IsNumber t) (stop : EndsNumber r) :
    parseNumber (t ++ r) = some (t, r) := by
  obtain ⟨signed, int, frac, exp⟩ := number
  have after := head_exp exp stop
  simp only [List.append_assoc, parseNumber]
  rw [parseMinus_append signed int]
  simp only [parseInt_append int (head_frac frac after), parseFrac_append frac after,
    parseExp_append exp stop, Option.bind_eq_bind, Option.bind_some]

/-- A number starts with a digit or with a minus. -/
lemma IsNumber.head (number : IsNumber t) :
    ∃ c rest, t = c :: rest ∧ (c.isDigit = true ∨ c = '-') := by
  obtain ⟨signed, int, -, -⟩ := number
  obtain ⟨c, rest, rfl, digit⟩ := int.head
  rcases signed with rfl | rfl
  · exact ⟨c, _, rfl, .inl digit⟩
  · exact ⟨'-', _, rfl, .inr rfl⟩

end Numbers

section Strings

/-- The value of a hexadecimal digit. -/
def hexVal (c : Char) : Option Nat :=
  if c.isDigit then some (c.toNat - '0'.toNat)
  else if 'a' ≤ c ∧ c ≤ 'f' then some (c.toNat - 'a'.toNat + 10)
  else if 'A' ≤ c ∧ c ≤ 'F' then some (c.toNat - 'A'.toNat + 10)
  else none

/-- The value of four hexadecimal digits. -/
def hex4 (a b c d : Char) : Option Nat := do
  some (((← hexVal a) * 16 + (← hexVal b)) * 256 + (← hexVal c) * 16 + (← hexVal d))

/-- Reads the second half of a surrogate pair. -/
def parseLow (high : Nat) : Parser Char
  | '\\' :: 'u' :: a :: b :: c :: d :: cs => do
    let low ← hex4 a b c d
    if 0xDC00 ≤ low ∧ low < 0xE000 then
      some (Char.ofNat (0x10000 + (high - 0xD800) * 0x400 + (low - 0xDC00)), cs)
    else none
  | _ => none

/-- Reads what follows `\u`. -/
def parseUnicode : Parser Char
  | a :: b :: c :: d :: cs => do
    let u ← hex4 a b c d
    if u < 0xD800 ∨ 0xE000 ≤ u then some (Char.ofNat u, cs)
    else if u < 0xDC00 then parseLow u cs
    else none
  | _ => none

/-- Reads what follows a backslash. -/
def parseEscape : Parser Char
  | '"' :: cs => some ('"', cs)
  | '\\' :: cs => some ('\\', cs)
  | '/' :: cs => some ('/', cs)
  | 'b' :: cs => some (Char.ofNat 8, cs)
  | 'f' :: cs => some (Char.ofNat 12, cs)
  | 'n' :: cs => some ('\n', cs)
  | 'r' :: cs => some ('\r', cs)
  | 't' :: cs => some ('\t', cs)
  | 'u' :: cs => parseUnicode cs
  | _ => none

/-- Reads one character of a string. -/
def parseChar : Parser Char
  | '"' :: _ => none
  | '\\' :: cs => parseEscape cs
  | c :: cs => if c.toNat < 0x20 then none else some (c, cs)
  | [] => none

/-- Reads the characters of a string and the quote after them. -/
def parseChars : Nat → Parser Text
  | 0, _ => none
  | _ + 1, '"' :: cs => some ([], cs)
  | n + 1, cs => do
    let (c, cs') ← parseChar cs
    let (s, rest) ← parseChars n cs'
    some (c :: s, rest)

/-- Reads a string after its first quote. -/
def parseString : Parser String := fun cs =>
  (parseChars cs.length cs).map fun p => (String.ofList p.1, p.2)

/-- A way to write characters that the parser understands. -/
def Escapes (enc : Char → Text) : Prop :=
  ∀ c r, parseChar (enc c ++ r) = some (c, r)

variable {enc : Char → Text} {n : Nat}

lemma parseChars_of_parseChar {cs r : Text} (h : parseChar cs = some (c, r)) :
    parseChars (n + 1) cs = (parseChars n r).map fun p => (c :: p.1, p.2) := by
  rw [parseChars]
  · simp only [h, Option.bind_eq_bind, Option.bind_some]
    cases parseChars n r <;> rfl
  · rintro rest rfl
    cases h

lemma parseChars_append (esc : Escapes enc) (s r : Text) (fuel : s.length < n) :
    parseChars n (s.flatMap enc ++ '"' :: r) = some (s, r) := by
  induction s generalizing n with
  | nil =>
    obtain ⟨n, rfl⟩ := Nat.exists_eq_add_one.mpr fuel
    rfl
  | cons c s ih =>
    obtain ⟨n, rfl⟩ := Nat.exists_eq_add_one.mpr (Nat.zero_lt_of_lt fuel)
    rw [List.flatMap_cons, List.append_assoc, parseChars_of_parseChar (esc c _),
      ih (Nat.lt_of_succ_lt_succ fuel)]
    rfl

lemma enc_length_pos (esc : Escapes enc) (c : Char) : 0 < (enc c).length := by
  refine List.length_pos_of_ne_nil fun empty => ?_
  have none := esc c []
  rw [empty] at none
  cases none

lemma length_le_flatMap (esc : Escapes enc) (s : Text) : s.length ≤ (s.flatMap enc).length := by
  induction s with
  | nil => exact Nat.le_refl _
  | cons c s ih =>
    have := enc_length_pos esc c
    simp only [List.length_cons, List.flatMap_cons, List.length_append]
    omega

lemma parseString_append (esc : Escapes enc) (s : String) (r : Text) :
    parseString (s.toList.flatMap enc ++ '"' :: r) = some (s, r) := by
  have := length_le_flatMap esc s.toList
  rw [parseString, parseChars_append esc]
  · simp
  · simp only [List.length_append, List.length_cons]
    omega

end Strings

section Values

variable {N α β : Type}

/-- Reads one or more items with commas between them, and the closing bracket. -/
def parseItems (item : Parser α) (close : Char) : Nat → Parser (List α)
  | 0, _ => none
  | n + 1, cs => do
    let (x, cs') ← item cs
    match skipWs cs' with
    | [] => none
    | c :: cs'' =>
      if c = close then some ([x], cs'')
      else if c = ',' then do
        let (xs, rest) ← parseItems item close n cs''
        some (x :: xs, rest)
      else none

/-- Reads what follows an opening bracket. -/
def parseList (item : Parser α) (close : Char) : Parser (List α) := fun cs =>
  match skipWs cs with
  | [] => none
  | c :: cs' => if c = close then some ([], cs') else parseItems item close cs.length cs

/-- Reads the colon of a member and its value. -/
def parseMemberValue (value : Parser α) (k : String) : Parser (String × α) := fun cs =>
  match skipWs cs with
  | ':' :: cs' => (value cs').map fun p => ((k, p.1), p.2)
  | _ => none

/-- Reads a member of an object. -/
def parseMember (value : Parser α) : Parser (String × α) := fun cs =>
  match skipWs cs with
  | '"' :: cs' => do
    let (k, rest) ← parseString cs'
    parseMemberValue value k rest
  | _ => none

/-- Reads the given characters. -/
def parseWord (word : Text) (v : Json Text) : Parser (Json Text) := fun cs =>
  if word.isPrefixOf cs then some (v, cs.drop word.length) else none

/-- Reads a value, with a parser for the values in it. -/
def parseValueWith (nested : Parser (Json Text)) : Parser (Json Text) := fun cs =>
  match skipWs cs with
  | [] => none
  | c :: cs' =>
    if c = '"' then (parseString cs').map fun p => (.str p.1, p.2)
    else if c = '[' then (parseList nested ']' cs').map fun p => (.arr p.1, p.2)
    else if c = '{' then (parseList (parseMember nested) '}' cs').map fun p => (.obj p.1, p.2)
    else if c = 'n' then parseWord ['u', 'l', 'l'] .null cs'
    else if c = 't' then parseWord ['r', 'u', 'e'] (.bool true) cs'
    else if c = 'f' then parseWord ['a', 'l', 's', 'e'] (.bool false) cs'
    else (parseNumber (c :: cs')).map fun p => (.num p.1, p.2)

/-- Reads a value up to a depth. -/
def parseValue : Nat → Parser (Json Text)
  | 0, _ => none
  | depth + 1, cs => parseValueWith (parseValue depth) cs

/-- Reads a JSON text. A text cannot have more levels than characters. -/
def parse (cs : Text) : Option (Json Text) := do
  let (v, rest) ← parseValue cs.length cs
  if skipWs rest = [] then some v else none

/-- A string in quotes. -/
def quote (enc : Char → Text) (s : String) : Text := '"' :: (s.toList.flatMap enc ++ ['"'])

/-- A member in compact form. -/
def renderMember (enc : Char → Text) (m : String × Text) : Text := quote enc m.1 ++ ':' :: m.2

/-- The value in compact form. -/
def render (enc : Char → Text) (num : N → Text) : Json N → Text :=
  fold {
    null := ['n', 'u', 'l', 'l']
    bool := fun b => if b then ['t', 'r', 'u', 'e'] else ['f', 'a', 'l', 's', 'e']
    num := num
    str := quote enc
    arr := fun xs => '[' :: ([','].intercalate xs ++ [']'])
    obj := fun ms => '{' :: ([','].intercalate (ms.map (renderMember enc)) ++ ['}']) }

variable {enc : Char → Text} {num : N → Text}

@[simp] lemma render_null : render enc num .null = ['n', 'u', 'l', 'l'] := rfl

@[simp] lemma render_true : render enc num (.bool true) = ['t', 'r', 'u', 'e'] := rfl

@[simp] lemma render_false : render enc num (.bool false) = ['f', 'a', 'l', 's', 'e'] := rfl

@[simp] lemma render_num (n : N) : render enc num (.num n) = num n := rfl

@[simp] lemma render_str (s : String) : render enc num (.str s) = quote enc s := rfl

lemma render_arr (xs : List (Json N)) :
    render enc num (.arr xs) = '[' :: ([','].intercalate (xs.map (render enc num)) ++ [']']) :=
  fold_arr ..

/-- The text of a member. -/
def memberText (enc : Char → Text) (num : N → Text) (m : String × Json N) : Text :=
  renderMember enc (m.1, render enc num m.2)

lemma render_obj (ms : List (String × Json N)) :
    render enc num (.obj ms) =
      '{' :: ([','].intercalate (ms.map (memberText enc num)) ++ ['}']) :=
  (fold_obj ..).trans (congrArg (fun ts => '{' :: ([','].intercalate ts ++ ['}'])) List.map_map)

lemma map_memberText (ms : List (String × Json N)) :
    ms.map (memberText enc num) = (mapMembers (render enc num) ms).map (renderMember enc) :=
  List.map_map.symm

/-- Where the text of a value can end. -/
def Follows (r : Text) : Prop := ∀ c ∈ r.head?, c = ',' ∨ c = ']' ∨ c = '}'

lemma Follows.endsNumber {r : Text} (h : Follows r) : EndsNumber r := by
  intro c mem
  rcases h c mem with rfl | rfl | rfl <;> decide

lemma follows_cons {c : Char} (h : c = ',' ∨ c = ']' ∨ c = '}') (r : Text) : Follows (c :: r) := by
  rintro _ ⟨⟩
  exact h

lemma skipWs_cons (h : isWs c = false) (r : Text) : skipWs (c :: r) = c :: r := by
  simp [skipWs, h]

/-- The text starts with something that is neither white space nor the closing bracket. -/
def Starts (close : Char) (t : Text) : Prop := ∃ c rest, t = c :: rest ∧ isWs c = false ∧ c ≠ close

section Lists

variable {item : Parser α} {txt : β → Text} {f : β → α} {close : Char} {xs : List β} {n : Nat}

lemma parseItems_append (bracket : close = ']' ∨ close = '}') (nonempty : xs ≠ [])
    (reads : ∀ x ∈ xs, ∀ r, Follows r → item (txt x ++ r) = some (f x, r)) (r : Text)
    (fuel : xs.length ≤ n) :
    parseItems item close n ([','].intercalate (xs.map txt) ++ close :: r) =
      some (xs.map f, r) := by
  have white : isWs close = false := by rcases bracket with rfl | rfl <;> rfl
  have comma : ',' ≠ close := by rcases bracket with rfl | rfl <;> decide
  induction xs generalizing n with
  | nil => exact absurd rfl nonempty
  | cons x xs ih =>
    obtain ⟨n, rfl⟩ := Nat.exists_eq_add_one.mpr (Nat.zero_lt_of_lt fuel)
    cases xs with
    | nil =>
      have first := reads x List.mem_cons_self (close :: r) (follows_cons (.inr bracket) r)
      simp [parseItems, first, skipWs_cons white]
    | cons y xs =>
      have first := reads x List.mem_cons_self
        (',' :: ([','].intercalate ((y :: xs).map txt) ++ close :: r)) (follows_cons (.inl rfl) _)
      have others := ih (List.cons_ne_nil _ _) (fun z hz => reads z (List.mem_cons_of_mem _ hz))
        (Nat.le_of_succ_le_succ fuel)
      rw [List.map_cons, List.map_cons, List.intercalate_cons_cons, ← List.map_cons,
        List.append_assoc, List.append_assoc, List.singleton_append]
      simp only [parseItems, first, Option.bind_eq_bind, Option.bind_some,
        skipWs_cons (show isWs ',' = false from rfl), comma, if_false, if_true, others]
      rfl

lemma length_intercalate (ts : List Text) : ts.length ≤ ([','].intercalate ts).length + 1 := by
  induction ts with
  | nil => exact Nat.zero_le _
  | cons t ts ih =>
    cases ts with
    | nil => simp
    | cons u ts =>
      rw [List.intercalate_cons_cons]
      simp only [List.length_cons, List.length_append] at ih ⊢
      omega

lemma parseList_append (bracket : close = ']' ∨ close = '}')
    (starts : ∀ x ∈ xs, Starts close (txt x))
    (reads : ∀ x ∈ xs, ∀ r, Follows r → item (txt x ++ r) = some (f x, r)) (r : Text) :
    parseList item close ([','].intercalate (xs.map txt) ++ close :: r) = some (xs.map f, r) := by
  have white : isWs close = false := by rcases bracket with rfl | rfl <;> rfl
  cases xs with
  | nil => simp [parseList, skipWs_cons white]
  | cons x xs =>
    have items := parseItems_append bracket (List.cons_ne_nil x xs) reads r
      (n := ([','].intercalate ((x :: xs).map txt) ++ close :: r).length) ?_
    · obtain ⟨c, rest, eq, white', ne⟩ := starts x List.mem_cons_self
      obtain ⟨tail, cons⟩ : ∃ tail, [','].intercalate ((x :: xs).map txt) = c :: tail := by
        cases xs with
        | nil => exact ⟨rest, by simp [eq]⟩
        | cons y xs =>
          rw [List.map_cons, List.map_cons, List.intercalate_cons_cons, eq]
          exact ⟨_, rfl⟩
      rw [cons] at items ⊢
      rw [parseList, List.cons_append, skipWs_cons white']
      simp only [ne, if_false]
      exact items
    · have enough := length_intercalate ((x :: xs).map txt)
      simp only [List.length_append, List.length_cons, List.length_map] at enough ⊢
      omega

end Lists

lemma parseWord_append (word : Text) (v : Json Text) (r : Text) :
    parseWord word v (word ++ r) = some (v, r) := by
  simp [parseWord]

lemma parseMember_append (esc : Escapes enc) {value : Parser α} {t r : Text} {k : String} {x : α}
    (reads : value (t ++ r) = some (x, r)) :
    parseMember value (renderMember enc (k, t) ++ r) = some ((k, x), r) := by
  have string := parseString_append esc k (':' :: (t ++ r))
  simp only [renderMember, quote, List.cons_append, List.append_assoc, List.nil_append, parseMember]
  rw [skipWs_cons rfl]
  simp only [string, Option.bind_eq_bind, Option.bind_some, parseMemberValue]
  rw [skipWs_cons rfl]
  simp only [reads, Option.map_some]

/-- A number starts with none of the other tokens. -/
lemma ne_of_number {d : Char} (start : c.isDigit = true ∨ c = '-') (nondigit : d.isDigit = false)
    (ne : d ≠ '-') : c ≠ d := by
  rintro rfl
  rcases start with digit | minus
  · exact absurd digit (by simp [nondigit])
  · exact ne minus

lemma isWs_of_number (start : c.isDigit = true ∨ c = '-') : isWs c = false := by
  have ne := @ne_of_number c
  simp [isWs, ne start rfl (by decide : ' ' ≠ '-'), ne start rfl (by decide : '\t' ≠ '-'),
    ne start rfl (by decide : '\n' ≠ '-'), ne start rfl (by decide : '\r' ≠ '-')]

lemma parseValueWith_number {nested : Parser (Json Text)} {t r : Text} (number : IsNumber t)
    (stop : EndsNumber r) : parseValueWith nested (t ++ r) = some (.num t, r) := by
  have read := parseNumber_append number stop
  obtain ⟨c, rest, rfl, start⟩ := number.head
  have ne := @ne_of_number c
  rw [List.cons_append] at read ⊢
  rw [parseValueWith, skipWs_cons (isWs_of_number start)]
  simp only [ne start rfl (by decide : '"' ≠ '-'), ne start rfl (by decide : '[' ≠ '-'),
    ne start rfl (by decide : '{' ≠ '-'), ne start rfl (by decide : 'n' ≠ '-'),
    ne start rfl (by decide : 't' ≠ '-'), ne start rfl (by decide : 'f' ≠ '-'), if_false, read,
    Option.map_some]

/-- The text of a value does not start with white space or a closing bracket. -/
lemma render_starts (valid : ∀ n, IsNumber (num n)) (v : Json N) :
    Starts ']' (render enc num v) := by
  cases v with
  | null => exact ⟨_, _, rfl, rfl, by decide⟩
  | bool b => cases b <;> exact ⟨_, _, rfl, rfl, by decide⟩
  | num n =>
    obtain ⟨c, rest, eq, start⟩ := (valid n).head
    exact ⟨c, rest, eq, isWs_of_number start, ne_of_number start rfl (by decide)⟩
  | str s => exact ⟨_, _, rfl, rfl, by decide⟩
  | arr xs => exact ⟨_, _, render_arr xs, rfl, by decide⟩
  | obj ms => exact ⟨_, _, render_obj ms, rfl, by decide⟩

lemma memberText_starts (m : String × Json N) : Starts '}' (memberText enc num m) :=
  ⟨'"', _, rfl, rfl, by decide⟩

lemma length_le_intercalate {t : Text} {ts : List Text} (mem : t ∈ ts) :
    t.length ≤ ([','].intercalate ts).length := by
  induction ts with
  | nil => exact absurd mem List.not_mem_nil
  | cons u ts ih =>
    cases ts with
    | nil =>
      rw [List.mem_singleton.mp mem, List.intercalate_singleton]
    | cons w ts =>
      rw [List.intercalate_cons_cons]
      simp only [List.length_append]
      rcases List.mem_cons.mp mem with rfl | mem
      · omega
      · have := ih mem
        omega

/-- What is printed is read back, whatever follows it. -/
lemma parseValue_render (esc : Escapes enc) (valid : ∀ n, IsNumber (num n)) (v : Json N)
    {depth : Nat} {r : Text} (enough : (render enc num v).length ≤ depth) (stop : Follows r) :
    parseValue depth (render enc num v ++ r) = some (v.map num, r) := by
  induction v generalizing depth r with
  | null =>
    obtain ⟨depth, rfl⟩ := Nat.exists_eq_add_one.mpr (Nat.zero_lt_of_lt enough)
    exact parseWord_append ['u', 'l', 'l'] .null r
  | bool b =>
    cases b with
    | true =>
      obtain ⟨depth, rfl⟩ := Nat.exists_eq_add_one.mpr (Nat.zero_lt_of_lt enough)
      exact parseWord_append ['r', 'u', 'e'] (.bool true) r
    | false =>
      obtain ⟨depth, rfl⟩ := Nat.exists_eq_add_one.mpr (Nat.zero_lt_of_lt enough)
      exact parseWord_append ['a', 'l', 's', 'e'] (.bool false) r
  | num n =>
    obtain ⟨c, rest, eq, -⟩ := (valid n).head
    rw [render_num, eq] at enough
    obtain ⟨depth, rfl⟩ := Nat.exists_eq_add_one.mpr (Nat.zero_lt_of_lt enough)
    exact parseValueWith_number (valid n) stop.endsNumber
  | str s =>
    obtain ⟨depth, rfl⟩ := Nat.exists_eq_add_one.mpr (Nat.zero_lt_of_lt enough)
    have read := parseString_append esc s r
    simp only [render_str, quote, List.cons_append, List.append_assoc, List.nil_append, parseValue,
      parseValueWith]
    rw [skipWs_cons rfl]
    simp only [if_true, read, Option.map_some, map_str]
  | arr xs ih =>
    rw [render_arr] at enough ⊢
    obtain ⟨depth, rfl⟩ := Nat.exists_eq_add_one.mpr (Nat.zero_lt_of_lt enough)
    simp only [List.length_cons, List.length_append] at enough
    have reads : ∀ x ∈ xs, ∀ r, Follows r →
        parseValue depth (render enc num x ++ r) = some (x.map num, r) := by
      intro x hx r stop
      have := length_le_intercalate (List.mem_map_of_mem (f := render enc num) hx)
      exact ih x hx (by omega) stop
    have read := parseList_append (.inl rfl) (fun x _ => render_starts valid x) reads r
    simp only [List.cons_append, List.append_assoc, List.nil_append, parseValue, parseValueWith]
    rw [skipWs_cons rfl]
    simp only [Char.reduceEq, if_true, if_false, read, Option.map_some, map_arr]
  | obj ms ih =>
    rw [render_obj] at enough ⊢
    obtain ⟨depth, rfl⟩ := Nat.exists_eq_add_one.mpr (Nat.zero_lt_of_lt enough)
    simp only [List.length_cons, List.length_append] at enough
    have reads : ∀ m ∈ ms, ∀ r, Follows r →
        parseMember (parseValue depth) (memberText enc num m ++ r) =
          some ((m.1, m.2.map num), r) := by
      intro m hm r stop
      have short := length_le_intercalate (List.mem_map_of_mem (f := memberText enc num) hm)
      simp only [memberText, renderMember, List.length_append, List.length_cons] at short
      exact parseMember_append esc (ih m hm (by omega) stop)
    have read := parseList_append (.inr rfl) (fun m _ => memberText_starts m) reads r
    simp only [List.cons_append, List.append_assoc, List.nil_append, parseValue, parseValueWith]
    rw [skipWs_cons rfl]
    simp only [Char.reduceEq, if_true, if_false, read, Option.map_some, map_obj, mapMembers]

/-- The printer and the parser are inverse. -/
theorem parse_render (esc : Escapes enc) (valid : ∀ n, IsNumber (num n)) (v : Json N) :
    parse (render enc num v) = some (v.map num) := by
  have read := parseValue_render esc valid v le_rfl (r := []) (fun _ h => nomatch h)
  rw [List.append_nil] at read
  simp only [parse, read, Option.bind_eq_bind, Option.bind_some]
  exact if_pos rfl

end Values

end CherryPit.Json
