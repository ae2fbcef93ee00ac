import CherryPit.Web.Path
import CherryPit.Web.Surface

/-!
# Page resolution

The projection surface looks a page up under the key of its path and then, as the documentation of
`resolve_page` says, under `{key}/index.html` if the path ends with a slash or its last segment has
no extension, and under `{key}.html` if neither is so (`documentedPage`). The key of a path never
ends with a slash, and `snapshot_get` hands nothing else to `resolve_page`: every path is resolved
as one without a slash (`resolvePage_key`), which makes a difference for some snapshots
(`snapshotGet_documented_iff`).
-/

namespace CherryPit.Web

variable {C : Type} {codecs : Codecs} {decoder : PercentDecoder}

/-- The path below the version of the interface. -/
def stripV1 (rawPath : List Char) : List Char :=
  if "/v1".toList <+: rawPath then rawPath.drop 3 else rawPath

/-- The request for a path, as `snapshot_get` reads it. -/
def Request.ofPath (decoder : PercentDecoder) (method : String) (rawPath : List Char)
    (headers : HeaderMap) : Request where
  method := method
  key := (normalizeRequestPath decoder (stripV1 rawPath)).map fun path => String.ofList path.key
  headers := headers

/-- The page that a key is documented to stand for. -/
def documentedPage (snapshot : Snapshot C) (key : List Char) (slash : Bool) : Option C :=
  (snapshot (String.ofList key)).or
    ((if slash = true ∨ '.' ∉ lastSegment key then snapshot (String.ofList key ++ "/index.html")
      else none).or
    (if slash = false ∧ '.' ∉ lastSegment key then snapshot (String.ofList key ++ ".html")
      else none))

/-- The answer with a page, if there is one. -/
def answer (codecs : Codecs) (headers : HeaderMap) : Option PageEntry → Response
  | some page => page.servePage codecs headers 200
  | none => textResponse 404 (bytes "not found")

/-- The pages of a snapshot for which a slash at the end of a path makes no difference. -/
def SlashBlind (snapshot : Snapshot C) (key : List Char) : Prop :=
  (snapshot (String.ofList key)).isSome ∨
  if '.' ∈ lastSegment key then snapshot (String.ofList key ++ "/index.html") = none
  else (snapshot (String.ofList key ++ "/index.html")).isSome ∨
    snapshot (String.ofList key ++ ".html") = none

variable {snapshot : Snapshot C} {key : List Char} {headers : HeaderMap}

/-- A key that does not end with a slash is resolved as documented for a path without one. -/
lemma resolvePage_key (slash : key.getLast? ≠ some '/') (ne : key ≠ [])
    (index : key ≠ "index.html".toList) (nested : ¬ "/index.html".toList <:+ key) :
    resolvePage snapshot (String.ofList key) = documentedPage snapshot key false := by
  have trimmed : key.rdropWhile (· = '/') = key := by
    rw [List.rdropWhile_eq_self_iff]
    intro ne last
    rw [List.getLast?_eq_some_getLast ne, of_decide_eq_true last] at slash
    exact slash rfl
  rcases direct : snapshot (String.ofList key) with _ | page
  · by_cases ext : '.' ∈ lastSegment key
    · simp [resolvePage, documentedPage, direct, trimmed, slash, ext]
    · simp only [resolvePage, documentedPage, direct, String.toList_ofList, trimmed, slash, ext,
        index, nested, ne, ne_eq, not_false_eq_true, false_and, or_true, and_self, if_true,
        if_false, Option.none_or]
      rcases snapshot (String.ofList key ++ "/index.html") with _ | page
      · rfl
      · rfl
  · simp [resolvePage, documentedPage, direct]

/-- A slash at the end is seen in some snapshots only. -/
lemma documentedPage_true (blind : SlashBlind snapshot key) :
    documentedPage snapshot key true = documentedPage snapshot key false := by
  rcases direct : snapshot (String.ofList key) with _ | page
  · have blind := blind.resolve_left (by simp [direct])
    by_cases ext : '.' ∈ lastSegment key
    · rw [if_pos ext] at blind
      simp [documentedPage, direct, ext, blind]
    · rw [if_neg ext] at blind
      rcases nested : snapshot (String.ofList key ++ "/index.html") with _ | page
      · have last := blind.resolve_left (by simp [nested])
        simp [documentedPage, direct, ext, nested, last]
      · simp [documentedPage, direct, ext, nested]
  · simp [documentedPage, direct]

/-- In any other snapshot a page is found with the slash or without it, and not both. -/
lemma isSome_documentedPage (seen : ¬ SlashBlind snapshot key) :
    (documentedPage snapshot key true).isSome ≠ (documentedPage snapshot key false).isSome := by
  obtain ⟨direct, seen⟩ := not_or.mp seen
  have direct : snapshot (String.ofList key) = none := Option.not_isSome_iff_eq_none.mp direct
  by_cases ext : '.' ∈ lastSegment key
  · rw [if_pos ext] at seen
    obtain ⟨page, nested⟩ := Option.ne_none_iff_exists'.mp seen
    simp [documentedPage, direct, ext, nested]
  · rw [if_neg ext] at seen
    obtain ⟨nested, last⟩ := not_or.mp seen
    obtain ⟨page, last⟩ := Option.ne_none_iff_exists'.mp last
    simp [documentedPage, direct, ext, Option.not_isSome_iff_eq_none.mp nested, last]

lemma status_servePage (page : PageEntry) (headers : HeaderMap) :
    (page.servePage codecs headers 200).status ≠ 404 := by
  rw [PageEntry.servePage]
  split
  · simp
  · split
    · simp
    · simp

lemma status_answer {page : Option PageEntry} :
    (answer codecs headers page).status ≠ 404 ↔ page.isSome = true := by
  rcases page with _ | page
  · exact iff_of_false (fun found => found rfl) Bool.false_ne_true
  · exact iff_of_true (status_servePage page headers) rfl

lemma snapshotGet_ofPath {snapshot : Snapshot PageEntry} {rawPath : List Char}
    {path : NormalizedPath} (found : normalizeRequestPath decoder (stripV1 rawPath) = some path) :
    snapshotGet codecs (some snapshot) (.ofPath decoder "GET" rawPath headers) =
      answer codecs headers (resolvePage snapshot (String.ofList path.key)) := by
  have get : ¬ ((Request.ofPath decoder "GET" rawPath headers).method ≠ "GET" ∧
      (Request.ofPath decoder "GET" rawPath headers).method ≠ "HEAD") := fun other => other.1 rfl
  have asked : (Request.ofPath decoder "GET" rawPath headers).key =
      some (String.ofList path.key) := by
    rw [Request.ofPath, found]
    rfl
  rw [snapshotGet, if_neg get, asked, Option.bind_some]
  rcases resolvePage snapshot (String.ofList path.key) with _ | page
  · rfl
  · rfl

/-- The last segment of a contained key is not empty. -/
lemma Contained.getLast? {key : List Char} (contained : Contained key) :
    key.getLast? ≠ some '/' := by
  intro slash
  obtain ⟨rest, rfl⟩ := List.getLast?_eq_some_iff.mp slash
  have last : [] ∈ (rest ++ ['/']).splitOn '/' := by
    rw [List.splitOn_append_cons_self]
    exact List.mem_append_right _ List.mem_cons_self
  exact (contained.segments [] last).1.ne_nil rfl

/-- The flag that comes with a key says how the path ends, unless the key is that of the index. -/
lemma slashOf_eq {decoded : List Char} (index : keyOf decoded ≠ "index.html".toList) :
    slashOf decoded = decide (decoded.getLast? = some '/') := by
  have some : (decoded.splitOn '/').filter kept ≠ [] := fun none => index (if_pos none)
  rw [slashOf, decide_eq_decide]
  constructor
  · rintro (none | slash)
    · exact absurd none some
    · exact slash.1
  · intro slash
    refine .inr ⟨slash, ?_⟩
    obtain ⟨rest, rfl⟩ := List.getLast?_eq_some_iff.mp slash
    rcases rest with _ | ⟨c, rest⟩
    · exact absurd rfl some
    · have pos := c.utf8Size_pos
      rw [utf8_append, utf8_cons, List.length_append, List.length_append,
        String.length_utf8EncodeChar]
      show 1 < c.utf8Size + (utf8 rest).length + 1
      omega

/-- A page is answered as documented exactly if the path does not end with a slash or the snapshot
has the same answer without it. -/
theorem snapshotGet_documented_iff (snapshot : Snapshot PageEntry) (headers : HeaderMap)
    {rawPath : List Char} {path : NormalizedPath}
    (found : normalizeRequestPath decoder (stripV1 rawPath) = some path)
    (index : path.key ≠ "index.html".toList) (nested : ¬ "/index.html".toList <:+ path.key) :
    ∃ decoded, utf8 decoded = decoder.decode (utf8 (stripV1 rawPath)) ∧
      path.hasTrailingSlash = decide (decoded.getLast? = some '/') ∧
      (snapshotGet codecs (some snapshot) (.ofPath decoder "GET" rawPath headers) =
        answer codecs headers (documentedPage snapshot path.key (decoded.getLast? = some '/')) ↔
      (decoded.getLast? ≠ some '/' ∨ SlashBlind snapshot path.key)) := by
  rw [snapshotGet_ofPath found]
  obtain ⟨decoded, decodes, accepted, rfl⟩ := exists_decoded found
  have contained : Contained (keyOf decoded) :=
    contained_of_segments fun seg mem => segment_of_mem_keyOf accepted mem
  refine ⟨decoded, decodes, slashOf_eq index, ?_⟩
  rw [resolvePage_key contained.getLast? contained.ne_nil index nested]
  by_cases slash : decoded.getLast? = some '/'
  · rw [decide_eq_true slash]
    constructor
    · intro same
      refine .inr (by_contra fun seen => isSome_documentedPage seen ?_)
      rw [Bool.eq_iff_iff, ← status_answer, ← status_answer, same]
    · intro blind
      rw [documentedPage_true (blind.resolve_left (not_not.mpr slash))]
  · rw [decide_eq_false slash]
    exact iff_of_true rfl (.inl slash)

/-- A snapshot with one page. -/
def soleSnapshot (name : String) : Snapshot PageEntry := fun key =>
  if key = name then some (.new plainCodecs "index.html".toList []) else none

/-- A directory with its index. -/
theorem snapshotGet_documented_about :
    normalizeRequestPath percentDecoder (stripV1 "/v1/about/".toList) =
      some ⟨"about".toList, true⟩ ∧
    ∃ decoded, utf8 decoded = percentDecoder.decode (utf8 (stripV1 "/v1/about/".toList)) ∧
      true = decide (decoded.getLast? = some '/') ∧
      (snapshotGet plainCodecs (some (soleSnapshot "about/index.html"))
          (.ofPath percentDecoder "GET" "/v1/about/".toList []) =
        answer plainCodecs [] (documentedPage (soleSnapshot "about/index.html") "about".toList
          (decoded.getLast? = some '/')) ↔
      (decoded.getLast? ≠ some '/' ∨
        SlashBlind (soleSnapshot "about/index.html") "about".toList)) := by
  have found : normalizeRequestPath percentDecoder (stripV1 "/v1/about/".toList) =
      some ⟨"about".toList, true⟩ := by decide
  exact ⟨found, snapshotGet_documented_iff (soleSnapshot "about/index.html") [] found (by decide)
    (by decide)⟩

/-- A page is served for a path that ends with a slash where none is documented, and the index of a
directory with a dot in its name is not found. -/
theorem slash_is_lost :
    (normalizeRequestPath percentDecoder (stripV1 "/v1/about/".toList) =
        some ⟨"about".toList, true⟩ ∧
      (snapshotGet plainCodecs (some (soleSnapshot "about.html"))
        (.ofPath percentDecoder "GET" "/v1/about/".toList [])).status = 200 ∧
      documentedPage (soleSnapshot "about.html") "about".toList true = none) ∧
    (normalizeRequestPath percentDecoder (stripV1 "/v1/v2.0/".toList) = some ⟨"v2.0".toList, true⟩ ∧
      (snapshotGet plainCodecs (some (soleSnapshot "v2.0/index.html"))
        (.ofPath percentDecoder "GET" "/v1/v2.0/".toList [])).status = 404 ∧
      (documentedPage (soleSnapshot "v2.0/index.html") "v2.0".toList true).isSome) := by
  refine ⟨⟨?_, ?_, ?_⟩, ?_, ?_, ?_⟩
  all_goals decide

end CherryPit.Web
