import CherryPit.Data.Aliases
import CherryPit.Web.Surface

/-!
# Route aliases

Port of `populate_route_aliases` (`serve/state.rs`): the index of a directory is entered under the
name of the directory, and then every other page under its name without the extension. Each pass
looks only at keys that end in a fixed text, which it cuts off, so that a key is the alias of one
other key at most (`directory`, `cleanName`). The second pass sees what the first one has entered;
with the rule for a pass used twice this gives every lookup (`lookup_populateRouteAliases`).
-/

namespace CherryPit.Web

variable {key name dir : String}

/-- The directory of an index page. -/
def directoryOf (key : String) : Option String :=
  match key.toList.dropSuffix? "/index.html".toList with
  | some dir => if dir = [] then none else some (String.ofList dir)
  | none => none

/-- The name of a page that is not an index, without its extension. -/
def cleanNameOf (key : String) : Option String :=
  if key = "index.html" ∨ "/index.html".toList <:+ key.toList then none
  else match key.toList.dropSuffix? ".html".toList with
    | some name => if name = [] then none else some (String.ofList name)
    | none => none

def populateRouteAliases (order : IterOrder String CachedPage)
    (cache : HashMap String CachedPage) : HashMap String CachedPage :=
  addAliases order cleanNameOf (addAliases order directoryOf cache)

/-! ## Aliases and their keys -/

/-- The index page of a directory. -/
def indexOf (dir : String) : Option String :=
  if dir = "" then none else some (dir ++ "/index.html")

/-- The page of a clean name. -/
def pageOf (name : String) : Option String :=
  if name = "" ∨ name = "index" ∨ "/index".toList <:+ name.toList then none
  else some (name ++ ".html")

lemma dropSuffix?_eq_some {key suffix dir : List Char} :
    key.dropSuffix? suffix = some dir ↔ key = dir ++ suffix := by
  rw [List.dropSuffix?_eq_some_iff]
  constructor
  · rintro ⟨suffix', rfl, same⟩
    rw [eq_of_beq same]
  · rintro rfl
    exact ⟨suffix, rfl, beq_self_eq_true suffix⟩

/-- What is left of a key when a suffix is cut off. -/
lemma cut_eq_some {suffix : String} :
    (match key.toList.dropSuffix? suffix.toList with
      | some dir => if dir = [] then none else some (String.ofList dir)
      | none => none) = some dir ↔ dir ≠ "" ∧ key = dir ++ suffix := by
  constructor
  · intro found
    split at found
    next rest cut =>
      split at found
      next => cases found
      next ne =>
        cases found
        refine ⟨fun empty => ne (String.ofList_eq_empty_iff.mp empty), ?_⟩
        rw [← String.toList_inj, dropSuffix?_eq_some.mp cut, String.toList_append,
          String.toList_ofList]
    next => cases found
  · rintro ⟨ne, rfl⟩
    have cut : (dir ++ suffix).toList.dropSuffix? suffix.toList = some dir.toList :=
      dropSuffix?_eq_some.mpr String.toList_append
    rw [cut]
    show (if dir.toList = [] then none else _) = _
    rw [if_neg fun empty => ne (String.toList_eq_nil_iff.mp empty), String.ofList_toList]

lemma directoryOf_eq_some : directoryOf key = some dir ↔ indexOf dir = some key := by
  rw [directoryOf, cut_eq_some, indexOf, Option.ite_none_left_eq_some, Option.some_inj]
  exact and_congr_right fun _ => eq_comm

/-- An index page is one whose name is an index. -/
lemma index_append_html :
    (name ++ ".html" = "index.html" ∨ "/index.html".toList <:+ (name ++ ".html").toList) ↔
      (name = "index" ∨ "/index".toList <:+ name.toList) := by
  have whole : ("index" : String) ++ ".html" = "index.html" := rfl
  have nested : "/index.html".toList = "/index".toList ++ ".html".toList := rfl
  rw [← whole, String.append_left_inj, nested, String.toList_append,
    List.suffix_append_inj_of_length_eq rfl, and_iff_left rfl]

lemma cleanNameOf_eq_some : cleanNameOf key = some name ↔ pageOf name = some key := by
  rw [cleanNameOf, Option.ite_none_left_eq_some, cut_eq_some, pageOf, Option.ite_none_left_eq_some,
    Option.some_inj]
  constructor
  · rintro ⟨page, ne, rfl⟩
    rw [index_append_html] at page
    exact ⟨not_or.mpr ⟨ne, page⟩, rfl⟩
  · rintro ⟨plain, rfl⟩
    obtain ⟨ne, plain⟩ := not_or.mp plain
    exact ⟨mt index_append_html.mp plain, ne, rfl⟩

/-- Directories and their index pages. -/
def directory : String ≃. String where
  toFun := directoryOf
  invFun := indexOf
  inv _ _ := directoryOf_eq_some.symm

/-- Clean names and their pages. -/
def cleanName : String ≃. String where
  toFun := cleanNameOf
  invFun := pageOf
  inv _ _ := cleanNameOf_eq_some.symm

/-! ## Lookups -/

/-- The page that a key stands for: its own, that of the directory of this name, or that of the
file of this name, which may itself be a directory. -/
def aliased (cache : PageCache) (key : String) : Option CachedPage :=
  (cache key).or <|
    if key = "" then none
    else (cache (key ++ "/index.html")).or <|
      if key = "index" ∨ "/index".toList <:+ key.toList then none
      else (cache (key ++ ".html")).or (cache (key ++ ".html/index.html"))

/-- Whatever the order of iteration, every key has the page that it stands for. -/
theorem lookup_populateRouteAliases (order : IterOrder String CachedPage)
    (cache : HashMap String CachedPage) (key : String) :
    (populateRouteAliases order cache).lookup key = aliased (fun key => cache.lookup key) key := by
  have first : ∀ key, (addAliases order directoryOf cache).lookup key =
      (cache.lookup key).or ((indexOf key).bind fun index => cache.lookup index) :=
    lookup_addAliases order directory cache
  have second : (populateRouteAliases order cache).lookup key =
      ((addAliases order directoryOf cache).lookup key).or
        ((pageOf key).bind fun page => (addAliases order directoryOf cache).lookup page) :=
    lookup_addAliases order cleanName _ key
  rw [second, first, Option.or_assoc]
  simp only [first]
  by_cases empty : key = ""
  · simp [aliased, indexOf, pageOf, empty]
  · by_cases index : key = "index" ∨ "/index".toList <:+ key.toList
    · simp only [aliased, indexOf, pageOf, empty, index, false_or, if_true, if_false,
        Option.bind_some, Option.bind_none]
    · have nested : (key ++ ".html") ++ "/index.html" = key ++ ".html/index.html" := by
        rw [String.append_assoc]
        rfl
      have some' : key ++ ".html" ≠ "" := by
        intro eq
        have length := congrArg String.length eq
        rw [String.length_append] at length
        cases (Nat.add_eq_zero_iff.mp length).2
      simp only [aliased, indexOf, pageOf, empty, index, some', nested, false_or, if_false,
        Option.bind_some]

end CherryPit.Web
