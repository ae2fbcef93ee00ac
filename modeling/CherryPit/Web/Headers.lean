import Mathlib.Tactic

/-!
# Header maps

Header maps as lists of fields in the order in which they were added, with lower-case names; a name
may occur more than once. A value is a list of bytes, of which `to_str` reads the visible ASCII
ones.
-/

namespace CherryPit.Web

/-- The fields of a request, in order; names are lower case. -/
abbrev HeaderMap := List (String × List UInt8)

/-- The first value of a field. -/
def HeaderMap.get (headers : HeaderMap) (name : String) : Option (List UInt8) :=
  headers.lookup name

/-- All values of a field. -/
def HeaderMap.getAll (headers : HeaderMap) (name : String) : List (List UInt8) :=
  headers.filterMap fun field => if field.1 = name then some field.2 else none

/-- Replaces all values of a field. -/
def HeaderMap.insert (headers : HeaderMap) (name : String) (value : List UInt8) : HeaderMap :=
  headers.filter (·.1 ≠ name) ++ [(name, value)]

def HeaderMap.containsKey (headers : HeaderMap) (name : String) : Bool :=
  (headers.get name).isSome

def isVisibleAscii (b : UInt8) : Bool :=
  (32 ≤ b && b < 127) || b = 9

/-- The text of a value all of whose bytes are ASCII. -/
def asciiText (value : List UInt8) : List Char :=
  value.map fun b => Char.ofNat b.toNat

def toStr (value : List UInt8) : Option (List Char) :=
  if value.all isVisibleAscii then some (asciiText value) else none

/-- The bytes of a text of ASCII characters. -/
def bytes (text : String) : List UInt8 :=
  text.toList.map fun c => UInt8.ofNat c.toNat

namespace HeaderMap

variable {headers : HeaderMap} {name other : String} {value : List UInt8}

lemma get_eq_head?_getAll : headers.get name = (headers.getAll name).head? := by
  induction headers with
  | nil => rfl
  | cons field rest ih =>
    rw [get, List.lookup_cons, getAll, List.filterMap_cons]
    by_cases eq : field.1 = name
    · rw [if_pos eq, beq_iff_eq.mpr eq.symm]
      rfl
    · rw [if_neg eq, beq_eq_false_iff_ne.mpr (Ne.symm eq)]
      exact ih

@[simp]
lemma get_nil : get [] name = none := rfl

lemma lookup_filter_self : (headers.filter (·.1 ≠ name)).lookup name = none := by
  rw [List.lookup_eq_none_iff]
  intro field mem
  have ne := of_decide_eq_true (List.mem_filter.mp mem).2
  exact bne_iff_ne.mpr (Ne.symm ne)

lemma lookup_filter_of_ne (h : other ≠ name) :
    (headers.filter (·.1 ≠ name)).lookup other = headers.lookup other := by
  induction headers with
  | nil => rfl
  | cons field rest ih =>
    by_cases eq : field.1 = name
    · have ne : (other == field.1) = false := beq_eq_false_iff_ne.mpr (eq ▸ h)
      rw [List.filter_cons_of_neg (by simp [eq]), ih, List.lookup_cons, ne]
    · rw [List.filter_cons_of_pos (by simp [eq]), List.lookup_cons, List.lookup_cons, ih]

@[simp]
lemma get_insert_self : (headers.insert name value).get name = some value := by
  have last : List.lookup name [(name, value)] = some value := List.lookup_cons_self
  rw [get, insert, List.lookup_append, lookup_filter_self, last]
  rfl

@[simp]
lemma get_insert_of_ne (h : other ≠ name) :
    (headers.insert name value).get other = headers.get other := by
  have last : List.lookup other [(name, value)] = none := by
    rw [List.lookup_cons, beq_eq_false_iff_ne.mpr h]
    rfl
  rw [get, get, insert, List.lookup_append, lookup_filter_of_ne h, last, Option.or_none]

end HeaderMap

end CherryPit.Web
