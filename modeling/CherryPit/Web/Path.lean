import CherryPit.Data.Percent
import CherryPit.Data.Split

/-!
# Request paths

Port of `middleware/path.rs` of `cherry-pit-web`: the check of a value that is put into a path
(`sanitizePathSegment`) and the normalisation of the path of a request (`normalizeRequestPath`).
Texts are lists of characters. The decoder of a path, `percent_decode_str`, is a parameter;
`Stands.escape` and `Stands.plain` of the library say how it reads.

A path that is accepted stays below any directory (`normalizeRequestPath_contained`). Normalisation
decodes what it is given, also where that is a key or a value that was checked: neither is left as
it is if it has an escape (`normalize_again_iff`, `segments_kept_iff`).
-/

namespace CherryPit.Web

/-! ## Segments -/

/-- Rust `PathSegmentError`. -/
structure PathSegmentError where
  field : List Char
  reason : List Char
  deriving DecidableEq

/-- Rust `char::is_control`. -/
def isControl (c : Char) : Bool :=
  c.toNat < 0x20 || (0x7f ≤ c.toNat && c.toNat ≤ 0x9f)

def dotDot : List Char := "..".toList

def sanitizePathSegment (value fieldName : List Char) : Except PathSegmentError (List Char) :=
  if value = [] then .error ⟨fieldName, fieldName ++ " is empty".toList⟩
  else if dotDot <:+: value ∨ value.contains '/' ∨ value.contains '\\' ∨ value.contains '?' ∨
      value.contains '#' then
    .error ⟨fieldName, fieldName ++ " contains invalid path characters: ".toList ++ value.take 100⟩
  else if value.any isControl then
    .error ⟨fieldName, fieldName ++ " contains control characters".toList⟩
  else .ok value

/-! ## Normalisation -/

/-- Rust `NormalizedPath`. -/
structure NormalizedPath where
  key : List Char
  hasTrailingSlash : Bool
  deriving DecidableEq

/-- The loop over the segments of a path. -/
def cleanSegments : List (List Char) → Option (List (List Char))
  | [] => some []
  | seg :: rest =>
    if seg = [] ∨ seg = ['.'] then cleanSegments rest
    else if dotDot <:+: seg then none
    else (cleanSegments rest).map (seg :: ·)

def normalizeRequestPath (decoder : PercentDecoder) (raw : List Char) : Option NormalizedPath :=
  match decodeUtf8 (decoder.decode (utf8 raw)) with
  | none => none
  | some decoded =>
    if decoded.contains '\x00' ∨ decoded.contains '\\' then none
    else
      match cleanSegments (decoded.splitOn '/') with
      | none => none
      | some segments =>
        if ['/'].intercalate segments = [] then some ⟨"index.html".toList, true⟩
        else some ⟨['/'].intercalate segments,
          decoded.getLast? = some '/' ∧ 1 < (utf8 decoded).length⟩

/-- A segment that is part of the key. -/
def kept (seg : List Char) : Bool :=
  seg ≠ [] ∧ seg ≠ ['.']

/-- The key of a decoded path. -/
def keyOf (decoded : List Char) : List Char :=
  if (decoded.splitOn '/').filter kept = [] then "index.html".toList
  else ['/'].intercalate ((decoded.splitOn '/').filter kept)

/-- Whether a decoded path is taken to end with a slash. -/
def slashOf (decoded : List Char) : Bool :=
  (decoded.splitOn '/').filter kept = [] ∨
    decoded.getLast? = some '/' ∧ 1 < (utf8 decoded).length

/-- A decoded path that is refused. -/
def Refused (decoded : List Char) : Prop :=
  '\x00' ∈ decoded ∨ '\\' ∈ decoded ∨ ∃ seg ∈ decoded.splitOn '/', dotDot <:+: seg

variable {decoder : PercentDecoder} {raw decoded seg : List Char} {segs : List (List Char)}
  {path : NormalizedPath}

lemma kept_iff : kept seg = true ↔ seg ≠ [] ∧ seg ≠ ['.'] := by
  rw [kept, decide_eq_true_iff]

lemma not_dotDot_of_not_kept (skipped : seg = [] ∨ seg = ['.']) : ¬ dotDot <:+: seg := by
  rcases skipped with rfl | rfl
  · decide
  · decide

lemma cleanSegments_eq_none : cleanSegments segs = none ↔ ∃ seg ∈ segs, dotDot <:+: seg := by
  induction segs with
  | nil => simp [cleanSegments]
  | cons seg rest ih =>
    simp only [List.mem_cons, exists_eq_or_imp]
    rw [← ih, cleanSegments]
    split
    next skipped => simp [not_dotDot_of_not_kept skipped]
    next =>
      split
      next dots => simp [dots]
      next clean => simp [clean]

lemma cleanSegments_eq_some (clean : ∀ seg ∈ segs, ¬ dotDot <:+: seg) :
    cleanSegments segs = some (segs.filter kept) := by
  induction segs with
  | nil => rfl
  | cons seg rest ih =>
    obtain ⟨here, clean⟩ := List.forall_mem_cons.mp clean
    rw [cleanSegments, ih clean]
    split
    next skipped =>
      have dropped : kept seg ≠ true := fun h => by
        rcases skipped with nil | dot
        · exact (kept_iff.mp h).1 nil
        · exact (kept_iff.mp h).2 dot
      rw [List.filter_cons_of_neg dropped]
    next taken =>
      rw [List.filter_cons_of_pos (kept_iff.mpr (not_or.mp taken))]
      rfl

lemma intercalate_eq_nil (ne : ∀ seg ∈ segs, seg ≠ []) :
    ['/'].intercalate segs = [] ↔ segs = [] := by
  match segs, ne with
  | [], _ => simp
  | [seg], ne => simpa using ne seg
  | first :: second :: rest, _ =>
    rw [List.intercalate_cons_cons]
    simp

/-- A path that is refused once it is decoded. -/
lemma normalizeRequestPath_of_refused (decodes : utf8 decoded = decoder.decode (utf8 raw))
    (refused : Refused decoded) : normalizeRequestPath decoder raw = none := by
  rw [normalizeRequestPath, decodeUtf8_eq_some.mpr decodes]
  dsimp only
  rcases refused with nul | backslash | dots
  · rw [if_pos (.inl (List.contains_iff_mem.mpr nul))]
  · rw [if_pos (.inr (List.contains_iff_mem.mpr backslash))]
  · rw [cleanSegments_eq_none.mpr dots, ite_self]

lemma normalizeRequestPath_of_accepted (decodes : utf8 decoded = decoder.decode (utf8 raw))
    (accepted : ¬ Refused decoded) :
    normalizeRequestPath decoder raw = some ⟨keyOf decoded, slashOf decoded⟩ := by
  obtain ⟨nul, accepted⟩ := not_or.mp accepted
  obtain ⟨backslash, clean⟩ := not_or.mp accepted
  have clean : ∀ seg ∈ decoded.splitOn '/', ¬ dotDot <:+: seg :=
    fun seg mem dots => clean ⟨seg, mem, dots⟩
  have pass : ¬ (decoded.contains '\x00' = true ∨ decoded.contains '\\' = true) := by
    rw [List.contains_iff_mem, List.contains_iff_mem]
    exact not_or.mpr ⟨nul, backslash⟩
  have nonempty : ∀ seg ∈ (decoded.splitOn '/').filter kept, seg ≠ [] :=
    fun seg mem => (kept_iff.mp (List.of_mem_filter mem)).1
  rw [normalizeRequestPath, decodeUtf8_eq_some.mpr decodes]
  dsimp only
  rw [if_neg pass, cleanSegments_eq_some clean]
  dsimp only
  rw [keyOf, slashOf]
  by_cases none : (decoded.splitOn '/').filter kept = []
  · rw [if_pos ((intercalate_eq_nil nonempty).mpr none)]
    simp [none]
  · rw [if_neg (mt (intercalate_eq_nil nonempty).mp none)]
    simp [none]

lemma exists_decoded (h : normalizeRequestPath decoder raw = some path) :
    ∃ decoded, utf8 decoded = decoder.decode (utf8 raw) ∧ ¬ Refused decoded ∧
      path = ⟨keyOf decoded, slashOf decoded⟩ := by
  rcases found : decodeUtf8 (decoder.decode (utf8 raw)) with _ | decoded
  · rw [normalizeRequestPath, found] at h
    cases h
  · have decodes := decodeUtf8_eq_some.mp found
    have accepted : ¬ Refused decoded := by
      intro refused
      cases (normalizeRequestPath_of_refused decodes refused).symm.trans h
    rw [normalizeRequestPath_of_accepted decodes accepted] at h
    exact ⟨decoded, decodes, accepted, (Option.some.inj h).symm⟩

lemma normalizeRequestPath_eq_none : normalizeRequestPath decoder raw = none ↔
    ∀ decoded, utf8 decoded = decoder.decode (utf8 raw) → Refused decoded := by
  constructor
  · intro none decoded decodes
    by_contra accepted
    cases none.symm.trans (normalizeRequestPath_of_accepted decodes accepted)
  · intro refused
    rcases found : normalizeRequestPath decoder raw with _ | path
    · rfl
    · obtain ⟨decoded, decodes, accepted, -⟩ := exists_decoded found
      exact absurd (refused decoded decodes) accepted

/-! ## Containment -/

/-- A segment that names something below a directory, or the directory itself. -/
structure Segment (seg : List Char) : Prop where
  ne_nil : seg ≠ []
  slash : '/' ∉ seg
  dotDot : ¬ dotDot <:+: seg
  nul : '\x00' ∉ seg
  backslash : '\\' ∉ seg

lemma splitOn_intercalate (segments : ∀ seg ∈ segs, Segment seg) (ne : segs ≠ []) :
    (['/'].intercalate segs).splitOn '/' = segs :=
  List.splitOn_intercalate '/' (fun seg mem => (segments seg mem).slash) ne

lemma segment_of_kept (accepted : ¬ Refused decoded)
    (mem : seg ∈ (decoded.splitOn '/').filter kept) : Segment seg ∧ seg ≠ ['.'] := by
  obtain ⟨part, taken⟩ := List.mem_filter.mp mem
  obtain ⟨ne, dot⟩ := kept_iff.mp taken
  refine ⟨⟨ne, not_mem_of_mem_splitOn part, ?_, ?_, ?_⟩, dot⟩
  · intro dots
    exact accepted (.inr (.inr ⟨seg, part, dots⟩))
  · intro nul
    exact accepted (.inl (mem_of_mem_splitOn part nul (by decide)))
  · intro backslash
    exact accepted (.inr (.inl (mem_of_mem_splitOn part backslash (by decide))))

/-- The segments of a key are those that were kept. -/
lemma splitOn_keyOf (accepted : ¬ Refused decoded) :
    (keyOf decoded).splitOn '/' =
      if (decoded.splitOn '/').filter kept = [] then ["index.html".toList]
      else (decoded.splitOn '/').filter kept := by
  rw [keyOf]
  split
  next => rfl
  next some => exact splitOn_intercalate (fun seg mem => (segment_of_kept accepted mem).1) some

lemma segment_of_mem_keyOf (accepted : ¬ Refused decoded)
    (mem : seg ∈ (keyOf decoded).splitOn '/') : Segment seg ∧ seg ≠ ['.'] := by
  rw [splitOn_keyOf accepted] at mem
  split at mem
  next =>
    rw [List.mem_singleton.mp mem]
    exact ⟨⟨by decide, by decide, by decide, by decide, by decide⟩, by decide⟩
  next => exact segment_of_kept accepted mem

/-- Lexical resolution of one segment in a directory. -/
def enter (dir : List (List Char)) (seg : List Char) : List (List Char) :=
  if seg = [] ∨ seg = ['.'] then dir
  else if seg = dotDot then dir.dropLast
  else dir ++ [seg]

/-- Lexical resolution of a relative path in a directory. -/
def resolve (root : List (List Char)) (path : List Char) : List (List Char) :=
  (path.splitOn '/').foldl enter root

lemma enter_segment {dir : List (List Char)} (segment : Segment seg) (dot : seg ≠ ['.']) :
    enter dir seg = dir ++ [seg] := by
  have dots : seg ≠ dotDot := by
    rintro rfl
    exact segment.dotDot (List.infix_refl _)
  rw [enter, if_neg (not_or.mpr ⟨segment.ne_nil, dot⟩), if_neg dots]

lemma foldl_enter (segments : ∀ seg ∈ segs, Segment seg ∧ seg ≠ ['.'])
    (root : List (List Char)) : segs.foldl enter root = root ++ segs := by
  induction segs generalizing root with
  | nil => exact (List.append_nil root).symm
  | cons seg rest ih =>
    obtain ⟨⟨segment, dot⟩, segments⟩ := List.forall_mem_cons.mp segments
    rw [List.foldl_cons, enter_segment segment dot, ih segments, List.append_assoc]
    rfl

/-- A key that leads nowhere but below the directory in which it is looked up. -/
structure Contained (key : List Char) : Prop where
  ne_nil : key ≠ []
  relative : key.head? ≠ some '/'
  segments : ∀ seg ∈ key.splitOn '/', Segment seg ∧ seg ≠ ['.']
  below : ∀ root, resolve root key = root ++ key.splitOn '/'

lemma contained_of_segments {key : List Char}
    (segments : ∀ seg ∈ key.splitOn '/', Segment seg ∧ seg ≠ ['.']) : Contained key := by
  constructor
  case ne_nil =>
    rintro rfl
    exact (segments [] List.mem_cons_self).1.ne_nil rfl
  case relative =>
    intro slash
    obtain ⟨rest, rfl⟩ := List.head?_eq_some_iff.mp slash
    have first : [] ∈ ('/' :: rest).splitOn '/' := by
      rw [List.splitOn_cons_eq_if_modifyHead]
      exact List.mem_cons_self
    exact (segments [] first).1.ne_nil rfl
  case segments => exact segments
  case below => exact foldl_enter segments

/-- A path is refused exactly if what it decodes to is not UTF-8 or has a byte or a segment that is
refused; else its key is what it decodes to without the segments that say nothing, and is contained
in every directory. -/
theorem normalizeRequestPath_contained (decoder : PercentDecoder) (raw : List Char) :
    (normalizeRequestPath decoder raw = none ↔
      (¬ ∃ decoded, utf8 decoded = decoder.decode (utf8 raw)) ∨
      ∃ decoded, utf8 decoded = decoder.decode (utf8 raw) ∧ Refused decoded) ∧
    ∀ path, normalizeRequestPath decoder raw = some path →
      Contained path.key ∧
      ∃ decoded, utf8 decoded = decoder.decode (utf8 raw) ∧ path.key = keyOf decoded := by
  constructor
  · rw [normalizeRequestPath_eq_none]
    constructor
    · intro refused
      by_cases decodes : ∃ decoded, utf8 decoded = decoder.decode (utf8 raw)
      · obtain ⟨decoded, decodes⟩ := decodes
        exact .inr ⟨decoded, decodes, refused decoded decodes⟩
      · exact .inl decodes
    · rintro (invalid | ⟨decoded, decodes, refused⟩) other otherDecodes
      · exact absurd ⟨other, otherDecodes⟩ invalid
      · rw [utf8_injective (otherDecodes.trans decodes.symm)]
        exact refused
  · intro path found
    obtain ⟨decoded, decodes, accepted, rfl⟩ := exists_decoded found
    refine ⟨contained_of_segments ?_, decoded, decodes, rfl⟩
    exact fun seg mem => segment_of_mem_keyOf accepted mem

/-! ## Keys and values as paths -/

lemma escaped_intercalate_iff : Escaped (utf8 (['/'].intercalate segs)) ↔
    ∃ seg ∈ segs, Escaped (utf8 seg) := by
  have slash : utf8 ['/'] = [47] := rfl
  rw [utf8_intercalate, slash, escaped_intercalate (by decide) (by decide)]
  simp only [List.mem_map, exists_exists_and_eq_and]

/-- Segments that are joined, with a slash before the first. -/
lemma cons_intercalate (ne : segs ≠ []) :
    '/' :: ['/'].intercalate segs = ['/'].intercalate ([] :: segs) := by
  rw [List.intercalate_cons_of_ne_nil ne]
  rfl

lemma splitOn_cons_intercalate (segments : ∀ seg ∈ segs, Segment seg) (ne : segs ≠ []) :
    ('/' :: ['/'].intercalate segs).splitOn '/' = [] :: segs := by
  rw [cons_intercalate ne]
  refine List.splitOn_intercalate '/' ?_ (List.cons_ne_nil _ _)
  exact List.forall_mem_cons.mpr ⟨List.not_mem_nil, fun seg mem => (segments seg mem).slash⟩

lemma not_refused_cons_intercalate (segments : ∀ seg ∈ segs, Segment seg) (ne : segs ≠ []) :
    ¬ Refused ('/' :: ['/'].intercalate segs) := by
  have absent : ∀ {c : Char}, c ≠ '/' → (∀ seg ∈ segs, c ∉ seg) →
      c ∉ '/' :: ['/'].intercalate segs := by
    intro c other absent mem
    rcases List.mem_cons.mp mem with slash | mem
    · exact other slash
    · obtain ⟨seg, part, mem⟩ := (mem_intercalate other).mp mem
      exact absent seg part mem
  rintro (nul | backslash | ⟨seg, part, dots⟩)
  · exact absent (by decide) (fun seg mem => (segments seg mem).nul) nul
  · exact absent (by decide) (fun seg mem => (segments seg mem).backslash) backslash
  · rw [splitOn_cons_intercalate segments ne] at part
    rcases List.mem_cons.mp part with rfl | mem
    · exact absurd dots (by decide)
    · exact (segments seg mem).dotDot dots

lemma filter_kept_cons : ([] :: segs).filter kept = segs.filter kept :=
  List.filter_cons_of_neg (by decide)

/-- Segments are the key of the path they make up if none of them is dropped. -/
lemma keyOf_cons_intercalate (segments : ∀ seg ∈ segs, Segment seg) (ne : segs ≠ []) :
    keyOf ('/' :: ['/'].intercalate segs) = ['/'].intercalate segs ↔
      ∀ seg ∈ segs, seg ≠ ['.'] := by
  rw [keyOf, splitOn_cons_intercalate segments ne, filter_kept_cons]
  have all : segs.filter kept = segs ↔ ∀ seg ∈ segs, seg ≠ ['.'] := by
    rw [List.filter_eq_self]
    constructor
    · intro taken seg mem
      exact (kept_iff.mp (taken seg mem)).2
    · intro dots seg mem
      exact kept_iff.mpr ⟨(segments seg mem).ne_nil, dots seg mem⟩
  rw [← all]
  constructor
  · intro same
    split at same
    next none =>
      -- the name of the index is one segment, and it is not dropped
      have index : segs = ["index.html".toList] := by
        rw [← splitOn_intercalate segments ne, ← same]
        rfl
      rw [index] at none
      exact absurd none (by decide)
    next some =>
      have parts := congrArg (List.splitOn '/') same
      rwa [splitOn_intercalate segments ne, splitOn_intercalate _ some] at parts
      exact fun seg mem => segments seg (List.mem_of_mem_filter mem)
  · intro same
    rw [same, if_neg ne]

lemma not_escaped_index : ¬ Escaped (utf8 "index.html".toList) :=
  fun escaped => absurd escaped.mem (by decide)

lemma not_escaped_of_dropped {seg : List Char} (dropped : ¬ kept seg = true) :
    ¬ Escaped (utf8 seg) := by
  intro escaped
  refine dropped (kept_iff.mpr ⟨?_, ?_⟩)
  · rintro rfl
    exact absurd escaped.mem (by decide)
  · rintro rfl
    exact absurd escaped.mem (by decide)

/-- The key has at most the bytes of the path. -/
lemma length_keyOf_le (ne : keyOf decoded ≠ "index.html".toList) :
    (utf8 (keyOf decoded)).length ≤ (utf8 decoded).length := by
  have some : (decoded.splitOn '/').filter kept ≠ [] := fun none => ne (if_pos none)
  have sublist : (['/'].intercalate ((decoded.splitOn '/').filter kept)).Sublist
      (['/'].intercalate (decoded.splitOn '/')) := intercalate_sublist List.filter_sublist
  rw [List.intercalate_splitOn] at sublist
  rw [keyOf, if_neg some]
  exact length_utf8_le sublist

/-- A path of segments is read as it stands if none has an escape, and else its key is shorter. -/
lemma normalize_joined_iff (decoder : PercentDecoder) (segments : ∀ seg ∈ segs, Segment seg)
    (ne : segs ≠ []) :
    (∃ path, normalizeRequestPath decoder ('/' :: ['/'].intercalate segs) = some path ∧
      path.key = ['/'].intercalate segs) ↔
    ∀ seg ∈ segs, seg ≠ ['.'] ∧ ¬ Escaped (utf8 seg) := by
  have wrapped : Escaped (utf8 ('/' :: ['/'].intercalate segs)) ↔
      ∃ seg ∈ segs, Escaped (utf8 seg) := by
    have nothing : ¬ Escaped (utf8 []) := fun escaped => absurd escaped.mem (by decide)
    rw [cons_intercalate ne, escaped_intercalate_iff, List.exists_mem_cons_iff]
    exact or_iff_right nothing
  by_cases escaped : ∃ seg ∈ segs, Escaped (utf8 seg)
  · constructor
    · rintro ⟨path, found, key⟩
      obtain ⟨decoded, decodes, -, rfl⟩ := exists_decoded found
      have key : keyOf decoded = ['/'].intercalate segs := key
      have index : keyOf decoded ≠ "index.html".toList := by
        intro index
        have inKey := escaped_intercalate_iff.mpr escaped
        rw [← key, index] at inKey
        exact not_escaped_index inKey
      have longest := length_keyOf_le index
      have shorter := (wrapped.mpr escaped).length_percentDecode decoder
      have slash : (utf8 ('/' :: ['/'].intercalate segs)).length =
          1 + (utf8 (['/'].intercalate segs)).length := by
        rw [utf8_cons, List.length_append]
        rfl
      rw [← decodes] at shorter
      rw [key] at longest
      omega
    · intro unescaped
      obtain ⟨seg, mem, escaped⟩ := escaped
      exact absurd escaped (unescaped seg mem).2
  · have decodes : utf8 ('/' :: ['/'].intercalate segs) =
        decoder.decode (utf8 ('/' :: ['/'].intercalate segs)) :=
      (percentDecode_of_not_escaped (mt wrapped.mp escaped)).symm
    have unescaped : ∀ seg ∈ segs, ¬ Escaped (utf8 seg) :=
      fun seg mem h => escaped ⟨seg, mem, h⟩
    rw [normalizeRequestPath_of_accepted decodes (not_refused_cons_intercalate segments ne)]
    simp only [Option.some.injEq, exists_eq_left', keyOf_cons_intercalate segments ne]
    exact forall₂_congr fun seg mem => (and_iff_left (unescaped seg mem)).symm

lemma escaped_splitOn {text : List Char} :
    Escaped (utf8 text) ↔ ∃ seg ∈ text.splitOn '/', Escaped (utf8 seg) := by
  rw [← escaped_intercalate_iff, List.intercalate_splitOn]

/-- What is dropped from a path has no escape. -/
lemma escaped_keyOf : Escaped (utf8 (keyOf decoded)) ↔ Escaped (utf8 decoded) := by
  have whole : Escaped (utf8 decoded) ↔
      ∃ seg ∈ (decoded.splitOn '/').filter kept, Escaped (utf8 seg) := by
    rw [escaped_splitOn]
    constructor
    · rintro ⟨seg, mem, escaped⟩
      have taken : kept seg = true := by_contra fun dropped =>
        not_escaped_of_dropped dropped escaped
      exact ⟨seg, List.mem_filter.mpr ⟨mem, taken⟩, escaped⟩
    · rintro ⟨seg, mem, escaped⟩
      exact ⟨seg, List.mem_of_mem_filter mem, escaped⟩
  rw [whole, keyOf]
  split
  next none =>
    rw [none]
    exact iff_of_false not_escaped_index (by simp)
  next => exact escaped_intercalate_iff

/-- The key of a path is its own key unless the path stands for one with an escape. -/
theorem normalize_again_iff {raw : List Char} {path : NormalizedPath}
    (found : normalizeRequestPath decoder raw = some path) :
    (∃ again, normalizeRequestPath decoder ('/' :: path.key) = some again ∧ again.key = path.key) ↔
      ¬ EscapedTwice (utf8 raw) := by
  obtain ⟨decoded, decodes, accepted, rfl⟩ := exists_decoded found
  have segments : ∀ seg ∈ (keyOf decoded).splitOn '/', Segment seg ∧ seg ≠ ['.'] :=
    fun seg mem => segment_of_mem_keyOf accepted mem
  have joined := normalize_joined_iff decoder (fun seg mem => (segments seg mem).1)
    (List.splitOn_ne_nil '/' (keyOf decoded))
  rw [List.intercalate_splitOn] at joined
  rw [joined, ← escaped_percentDecode, ← decodes, ← escaped_keyOf, escaped_splitOn]
  constructor
  · rintro unescaped ⟨seg, mem, escaped⟩
    exact (unescaped seg mem).2 escaped
  · intro unescaped seg mem
    exact ⟨(segments seg mem).2, fun escaped => unescaped ⟨seg, mem, escaped⟩⟩

/-- A path with a space that is encoded. -/
theorem normalize_again_space :
    normalizeRequestPath percentDecoder "/a%20b/".toList = some ⟨"a b".toList, true⟩ ∧
    ((∃ again, normalizeRequestPath percentDecoder "/a b".toList = some again ∧
      again.key = "a b".toList) ↔
      ¬ EscapedTwice (utf8 "/a%20b/".toList)) := by
  have found : normalizeRequestPath percentDecoder "/a%20b/".toList =
      some ⟨"a b".toList, true⟩ := by decide
  exact ⟨found, normalize_again_iff found⟩

/-- A percent sign that is encoded itself: the key is another one the second time, or refused. -/
theorem encoded_percent_again :
    normalizeRequestPath percentDecoder "/%2541".toList = some ⟨"%41".toList, false⟩ ∧
    normalizeRequestPath percentDecoder "/%41".toList = some ⟨"A".toList, false⟩ ∧
    normalizeRequestPath percentDecoder "/%25FF".toList = some ⟨"%FF".toList, false⟩ ∧
    normalizeRequestPath percentDecoder "/%FF".toList = none := by
  decide

/-- A value that the check lets through. -/
def Sanitized (value : List Char) : Prop :=
  ∃ fieldName, sanitizePathSegment value fieldName = .ok value

lemma Sanitized.segment {value : List Char} (accepted : Sanitized value) : Segment value := by
  obtain ⟨fieldName, ok⟩ := accepted
  rw [sanitizePathSegment] at ok
  split at ok
  · cases ok
  next ne =>
    split at ok
    · cases ok
    next clean =>
      split at ok
      · cases ok
      next control =>
        simp only [List.contains_iff_mem, not_or] at clean
        obtain ⟨dots, slash, backslash, -⟩ := clean
        have nul : '\x00' ∉ value := fun mem =>
          control (List.any_eq_true.mpr ⟨'\x00', mem, by decide⟩)
        exact ⟨ne, slash, dots, nul, backslash⟩

/-- Values that were checked are the segments of the path they are put into unless one of them is a
dot or has an escape. -/
theorem segments_kept_iff {values : List (List Char)} (ne : values ≠ [])
    (accepted : ∀ value ∈ values, Sanitized value) :
    (∃ path, normalizeRequestPath decoder ('/' :: ['/'].intercalate values) = some path ∧
      path.key.splitOn '/' = values) ↔
    ∀ value ∈ values, value ≠ ['.'] ∧ ¬ Escaped (utf8 value) := by
  have segments : ∀ value ∈ values, Segment value :=
    fun value mem => (accepted value mem).segment
  rw [← normalize_joined_iff decoder segments ne]
  refine exists_congr fun path => and_congr_right fun _ => ?_
  constructor
  · intro parts
    have whole : ['/'].intercalate (path.key.splitOn '/') = path.key := List.intercalate_splitOn '/'
    rw [← whole, parts]
  · intro key
    rw [key, splitOn_intercalate segments ne]

/-- Two values of a path. -/
theorem segments_kept_two :
    (∀ value ∈ ["main".toList, "a b".toList], Sanitized value) ∧
    ((∃ path, normalizeRequestPath percentDecoder "/main/a b".toList = some path ∧
      path.key.splitOn '/' = ["main".toList, "a b".toList]) ↔
    ∀ value ∈ ["main".toList, "a b".toList], value ≠ ['.'] ∧ ¬ Escaped (utf8 value)) := by
  have accepted : ∀ value ∈ ["main".toList, "a b".toList], Sanitized value := by
    intro value mem
    simp only [List.mem_cons, List.not_mem_nil, or_false] at mem
    rcases mem with rfl | rfl
    · exact ⟨[], by decide⟩
    · exact ⟨[], by decide⟩
  exact ⟨accepted, segments_kept_iff (by decide) accepted⟩

/-- Values that are let through and drop a segment, rewrite one, add one, or have the path
refused. -/
theorem accepted_values_steer :
    (Sanitized ".".toList ∧
      normalizeRequestPath percentDecoder "/a/./b".toList = some ⟨"a/b".toList, false⟩) ∧
    (Sanitized "%41".toList ∧
      normalizeRequestPath percentDecoder "/%41".toList = some ⟨"A".toList, false⟩) ∧
    (Sanitized "a%2Fb".toList ∧
      normalizeRequestPath percentDecoder "/a%2Fb".toList = some ⟨"a/b".toList, false⟩) ∧
    (Sanitized "%2e%2e".toList ∧ normalizeRequestPath percentDecoder "/%2e%2e".toList = none) := by
  refine ⟨⟨⟨[], ?_⟩, ?_⟩, ⟨⟨[], ?_⟩, ?_⟩, ⟨⟨[], ?_⟩, ?_⟩, ⟨[], ?_⟩, ?_⟩
  all_goals decide

end CherryPit.Web
