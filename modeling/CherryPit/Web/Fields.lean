import CherryPit.Data.Split
import CherryPit.Web.Pages

/-!
# Field values

The values of header fields as texts: each byte is the character of its number, so that a text of
characters below 256 and its bytes are the same thing (`asciiText_bytes`), and `to_str` reads those
that are visible ASCII (`toStr_bytes`).

A list field (RFC 9110, section 5.6.1) has its elements between commas, with optional whitespace
around them; there may be nothing between two commas. `Place` is what stands between them.
-/

namespace CherryPit.Web

variable {c : Char}

section Texts

variable {text : List Char} {after : List Char}

/-! ## Bytes -/

/-- Every character is a byte. -/
def IsLatin1 (text : List Char) : Prop := ∀ c ∈ text, c.toNat < 256

instance IsLatin1.decidable : DecidablePred IsLatin1 := fun text =>
  List.decidableBAll (fun c : Char => c.toNat < 256) text

/-- The character of a byte that `to_str` reads. -/
def isVisible (c : Char) : Bool := isVisibleAscii (UInt8.ofNat c.toNat)

lemma ofNat_toNat_of_lt (lt : c.toNat < 256) : Char.ofNat (UInt8.ofNat c.toNat).toNat = c := by
  rw [UInt8.toNat_ofNat', Nat.mod_eq_of_lt lt, Char.ofNat_toNat]

/-- A text below 256 is read back. -/
lemma asciiText_bytes (latin : IsLatin1 text) : asciiText (bytes (String.ofList text)) = text := by
  rw [asciiText, bytes, String.toList_ofList, List.map_map]
  conv_rhs => rw [← List.map_id text]
  rw [List.map_inj_left]
  intro c mem
  exact ofNat_toNat_of_lt (latin c mem)

lemma bytes_inj {text' : List Char} (latin : IsLatin1 text) (latin' : IsLatin1 text') :
    bytes (String.ofList text) = bytes (String.ofList text') ↔ text = text' := by
  constructor
  · intro eq
    rw [← asciiText_bytes latin, eq, asciiText_bytes latin']
  · rintro rfl
    rfl

/-- Rust `to_str` reads visible ASCII and nothing else. -/
lemma toStr_bytes (latin : IsLatin1 text) :
    toStr (bytes (String.ofList text)) = if text.all isVisible then some text else none := by
  have visible : (bytes (String.ofList text)).all isVisibleAscii = text.all isVisible := by
    rw [bytes, String.toList_ofList, List.all_map]
    rfl
  rw [toStr, visible, asciiText_bytes latin]

/-! ## Whitespace -/

/-- Optional whitespace. -/
def IsOws (text : List Char) : Prop := ∀ c ∈ text, c = ' ' ∨ c = '\t'

lemma isOws_nil : IsOws [] := fun _ mem => absurd mem List.not_mem_nil

lemma isWhitespace_iff : c.isWhitespace = true ↔ c = ' ' ∨ c = '\t' ∨ c = '\r' ∨ c = '\n' := by
  simp only [Char.isWhitespace, Bool.or_eq_true, decide_eq_true_eq, or_assoc]

lemma IsOws.isWhitespace (ows : IsOws text) (mem : c ∈ text) : c.isWhitespace = true := by
  rcases ows c mem with rfl | rfl <;> rfl

lemma IsOws.not_mem (ows : IsOws text) (space : c ≠ ' ') (tab : c ≠ '\t') : c ∉ text := by
  intro mem
  rcases ows c mem with rfl | rfl
  · exact space rfl
  · exact tab rfl

lemma comma_not_mem_ows (ows : IsOws text) : ',' ∉ text :=
  ows.not_mem (by decide) (by decide)

/-- A text that begins and ends with something else than whitespace. -/
structure Trimmed (text : List Char) : Prop where
  first : ∀ c ∈ text.head?, c.isWhitespace = false
  last : ∀ c ∈ text.getLast?, c.isWhitespace = false

lemma Trimmed.of_forall (none : ∀ c ∈ text, c.isWhitespace = false) : Trimmed text where
  first c head := none c (List.mem_of_mem_head? head)
  last c last := none c (List.mem_of_mem_getLast? last)

/-- Whitespace at the end is dropped. -/
lemma rdropWhile_append_ows (ows : IsOws after) :
    (text ++ after).rdropWhile Char.isWhitespace = text.rdropWhile Char.isWhitespace := by
  rw [List.rdropWhile, List.reverse_append, List.dropWhile_append_of_pos, List.rdropWhile]
  intro c mem
  exact ows.isWhitespace (List.mem_reverse.mp mem)

/-- Nothing but the whitespace around a text is trimmed. -/
lemma trim_padded {before : List Char} (ows : IsOws before) (ows' : IsOws after)
    (trimmed : Trimmed text) : trim (before ++ (text ++ after)) = text := by
  have back : text.rdropWhile Char.isWhitespace = text := by
    rw [List.rdropWhile_eq_self_iff]
    intro ne
    rw [trimmed.last _ (List.getLast?_eq_some_getLast ne)]
    exact Bool.false_ne_true
  rw [trim, List.dropWhile_append_of_pos fun c mem => ows.isWhitespace mem]
  rcases text with _ | ⟨c, rest⟩
  · rw [List.nil_append, List.dropWhile_eq_nil_iff.mpr fun c mem => ows'.isWhitespace mem]
    rfl
  · have first : c.isWhitespace = false := trimmed.first c rfl
    rw [List.cons_append, List.dropWhile_cons_of_neg (by simp [first]), ← List.cons_append,
      rdropWhile_append_ows ows', back]

lemma trim_of_ows (ows : IsOws text) : trim text = [] := by
  rw [trim, List.dropWhile_eq_nil_iff.mpr fun c mem => ows.isWhitespace mem]
  rfl

/-- Rust `trim` has nothing to do. -/
lemma trim_of_trimmed (trimmed : Trimmed text) : trim text = text := by
  have padded := trim_padded isOws_nil isOws_nil trimmed
  rwa [List.nil_append, List.append_nil] at padded

lemma trim_sublist : (trim text).Sublist text :=
  (List.rdropWhile_prefix _ _).sublist.trans (List.dropWhile_sublist _)

/-- What is not whitespace is not trimmed. -/
lemma mem_trim (other : c.isWhitespace = false) (mem : c ∈ text) : c ∈ trim text := by
  have drop : ∀ {text : List Char}, c ∈ text → c ∈ text.dropWhile Char.isWhitespace := by
    intro text mem
    rw [← List.takeWhile_append_dropWhile (p := Char.isWhitespace) (l := text)] at mem
    rcases List.mem_append.mp mem with front | rest
    · rw [List.mem_takeWhile_imp front] at other
      cases other
    · exact rest
  rw [trim, List.rdropWhile, List.mem_reverse]
  exact drop (List.mem_reverse.mpr (drop mem))

end Texts

/-! ## Lists -/

/-- A place in a list: an element, if there is one, and the whitespace around it. -/
structure Place (α : Type) where
  before : List Char
  element : Option α
  after : List Char
  ows_before : IsOws before
  ows_after : IsOws after

section Places

variable {α : Type} (render : α → List Char)

def Place.text (place : Place α) : List Char :=
  place.before ++ ((place.element.map render).getD [] ++ place.after)

/-- The value of a list field. -/
def listText (places : List (Place α)) : List Char :=
  [','].intercalate (places.map (Place.text render))

/-- The elements of a list. -/
def elements (places : List (Place α)) : List α := places.filterMap (·.element)

/-- An element without whitespace. -/
def Place.of (element : α) : Place α := ⟨[], some element, [], isOws_nil, isOws_nil⟩

variable {render} {places : List (Place α)}

/-- A place without an element. -/
lemma Place.isOws_text {place : Place α} (element : place.element = none) :
    IsOws (place.text render) := by
  intro c mem
  rw [text, element] at mem
  rcases List.mem_append.mp mem with mem | mem
  · exact place.ows_before c mem
  · exact place.ows_after c mem

/-- A place is trimmed to its element. -/
lemma Place.trim_text (trimmed : ∀ element, Trimmed (render element)) (place : Place α) :
    trim (place.text render) = (place.element.map render).getD [] := by
  refine trim_padded place.ows_before place.ows_after ?_
  rcases place.element with _ | element
  · exact .of_forall fun _ mem => absurd mem List.not_mem_nil
  · exact trimmed element

/-- A character of a list is whitespace or one of an element, unless it is a comma. -/
lemma mem_listText (comma : c ≠ ',') (mem : c ∈ listText render places) :
    (c = ' ' ∨ c = '\t') ∨ ∃ element ∈ elements places, c ∈ render element := by
  obtain ⟨text, mapped, part⟩ := (mem_intercalate comma).mp mem
  obtain ⟨place, listed, rfl⟩ := List.mem_map.mp mapped
  simp only [Place.text, List.mem_append] at part
  rcases part with before | inner | after
  · exact .inl (place.ows_before c before)
  · rcases eq : place.element with _ | element
    · rw [eq] at inner
      cases inner
    · rw [eq] at inner
      exact .inr ⟨element, List.mem_filterMap.mpr ⟨place, listed, eq⟩, inner⟩
  · exact .inl (place.ows_after c after)

lemma mem_listText_of_mem {element : α} (comma : c ≠ ',') (listed : element ∈ elements places)
    (mem : c ∈ render element) :
    c ∈ listText render places := by
  obtain ⟨place, placed, eq⟩ := List.mem_filterMap.mp listed
  refine (mem_intercalate comma).mpr ⟨place.text render, List.mem_map_of_mem placed, ?_⟩
  rw [Place.text, eq]
  exact List.mem_append_right _ (List.mem_append_left _ mem)

/-- A list is cut at its commas place by place, so that what is found in its parts is what is found
in its elements. -/
lemma exists_part_iff {P : List Char → Prop} {Q : α → Prop} (blank : ¬ P [])
    (entry : ∀ place : Place α,
      (∃ part ∈ (place.text render).splitOn ',', P part) ↔ ∃ element ∈ place.element, Q element) :
    (∃ part ∈ (listText render places).splitOn ',', P part) ↔
      ∃ element ∈ elements places, Q element := by
  have listed : (∃ element ∈ elements places, Q element) ↔
      ∃ place ∈ places, ∃ part ∈ (place.text render).splitOn ',', P part := by
    simp only [entry, elements, List.mem_filterMap, Option.mem_def]
    exact ⟨fun ⟨element, ⟨place, mem, eq⟩, h⟩ => ⟨place, mem, element, eq, h⟩,
      fun ⟨place, mem, element, eq, h⟩ => ⟨element, ⟨place, mem, eq⟩, h⟩⟩
  rw [listed]
  rcases places with _ | ⟨place, places⟩
  · have empty : (listText render []).splitOn ',' = [[]] := rfl
    rw [empty]
    simp [blank]
  · have ne : (place :: places).map (Place.text render) ≠ [] := List.cons_ne_nil _ _
    rw [listText, splitOn_intercalate_flatMap ne, List.flatMap_map]
    simp only [List.mem_flatMap]
    exact ⟨fun ⟨part, ⟨place, mem, cut⟩, h⟩ => ⟨place, mem, part, cut, h⟩,
      fun ⟨place, mem, part, cut, h⟩ => ⟨part, ⟨place, mem, cut⟩, h⟩⟩

end Places

end CherryPit.Web
