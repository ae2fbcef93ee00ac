import CherryPit.Web.Fields

/-!
# Conditional requests

What `if_none_match_matches` (`middleware/http.rs`) makes of the values that RFC 9110 (sections
8.8.3 and 13.1.2) allows for `If-None-Match`. Each line is cut at every comma, also within the
quotes of a tag. A tag with a comma is therefore never found, and a `*` between two commas of a tag
is taken for the wildcard; a line with a byte that is not visible ASCII is skipped
(`ifNoneMatchMatches_iff`).
-/

namespace CherryPit.Web

/-! ## Entity tags -/

/-- The characters of an entity tag. -/
def isEtagc (c : Char) : Bool :=
  c = '!' || ('#' ≤ c && c ≤ '~') || (0x80 ≤ c.toNat && c.toNat ≤ 0xff)

structure EntityTag where
  weak : Bool
  content : List Char
  etagc : ∀ c ∈ content, isEtagc c

namespace EntityTag

/-- What weak comparison compares. -/
def quoted (tag : EntityTag) : List Char := '"' :: (tag.content ++ ['"'])

/-- The mark of a weak tag. -/
def mark (tag : EntityTag) : List Char := if tag.weak then ['W', '/'] else []

def text (tag : EntityTag) : List Char := tag.mark ++ tag.quoted

/-- The parts of a tag between two commas. -/
def inner (tag : EntityTag) : List (List Char) := (tag.content.splitOn ',').tail.dropLast

variable {tag : EntityTag} {c : Char}

lemma ne_quote (mem : c ∈ tag.content) : c ≠ '"' := by
  rintro rfl
  cases tag.etagc _ mem

lemma isWhitespace_eq_false (mem : c ∈ tag.content) : c.isWhitespace = false := by
  rw [Bool.eq_false_iff]
  intro space
  have etagc := tag.etagc c mem
  rcases isWhitespace_iff.mp space with rfl | rfl | rfl | rfl <;> cases etagc

lemma toNat_lt (mem : c ∈ tag.content) : c.toNat < 256 := by
  have etagc := tag.etagc c mem
  have visible : c ≤ '~' ↔ c.toNat ≤ 126 := Iff.rfl
  simp only [isEtagc, Bool.or_eq_true, Bool.and_eq_true, decide_eq_true_eq, visible] at etagc
  rcases etagc with (rfl | ⟨-, le⟩) | ⟨-, le⟩
  · decide
  · omega
  · omega

lemma not_mem_content : '"' ∉ tag.content := fun mem => ne_quote mem rfl

lemma mem_mark (mem : c ∈ tag.mark) : c = 'W' ∨ c = '/' := by
  rw [mark] at mem
  split at mem
  · simpa using mem
  · cases mem

lemma trimmed_text : Trimmed tag.text := by
  constructor
  · intro c head
    rw [text, mark, quoted] at head
    rcases weak : tag.weak with _ | _
    · rw [weak] at head
      cases head
      rfl
    · rw [weak] at head
      cases head
      rfl
  · intro c last
    rw [text, quoted, ← List.cons_append, ← List.append_assoc, List.getLast?_append] at last
    cases last
    rfl

lemma isLatin1_text : IsLatin1 tag.text := by
  intro c mem
  simp only [text, quoted, List.mem_append, List.mem_cons, List.not_mem_nil, or_false] at mem
  rcases mem with mem | rfl | mem | rfl
  · rcases mem_mark mem with rfl | rfl <;> decide
  · decide
  · exact toNat_lt mem
  · decide

lemma count_quoted : tag.quoted.count '"' = 2 := by
  rw [quoted, List.count_cons_self, List.count_append, List.count_eq_zero.mpr not_mem_content]
  rfl

end EntityTag

/-! ## Candidates -/

/-- What is compared of a candidate. -/
def stripMark (candidate : List Char) : List Char :=
  if ['W', '/'] <+: candidate then candidate.drop 2 else candidate

/-- A candidate that is taken for a match. -/
def Hits (server : EntityTag) (candidate : List Char) : Prop :=
  candidate = ['*'] ∨ stripMark candidate = server.quoted

section Candidates

variable {server tag : EntityTag} {candidate : List Char}

/-- Rust `strip_weak` on a text. -/
lemma stripWeak_bytes (latin : IsLatin1 candidate) :
    stripWeak (bytes (String.ofList candidate)) = bytes (String.ofList (stripMark candidate)) := by
  have marked : bytes "W/" <+: bytes (String.ofList candidate) ↔ ['W', '/'] <+: candidate := by
    have front : (bytes (String.ofList candidate)).take 2 =
        bytes (String.ofList (candidate.take 2)) := by
      rw [bytes, bytes, String.toList_ofList, String.toList_ofList, List.map_take]
    have latin' : IsLatin1 (candidate.take 2) := fun c mem => latin c (List.mem_of_mem_take mem)
    rw [List.prefix_iff_eq_take, List.prefix_iff_eq_take]
    show bytes "W/" = (bytes (String.ofList candidate)).take 2 ↔ _
    rw [front]
    have mark : IsLatin1 ['W', '/'] := by decide
    exact bytes_inj mark latin'
  rw [stripWeak, stripMark]
  by_cases h : ['W', '/'] <+: candidate
  · rw [if_pos (marked.mpr h), if_pos h, bytes, bytes, String.toList_ofList, String.toList_ofList,
      List.map_drop]
  · rw [if_neg (mt marked.mp h), if_neg h]

lemma stripMark_text : stripMark tag.text = tag.quoted := by
  rw [stripMark, EntityTag.text, EntityTag.mark]
  rcases tag.weak with _ | _
  · refine if_neg fun marked => ?_
    cases (List.cons_prefix_cons.mp marked).1
  · exact if_pos ⟨_, rfl⟩

lemma stripMark_sublist : (stripMark candidate).Sublist candidate := by
  rw [stripMark]
  split
  · exact List.drop_sublist 2 candidate
  · exact List.Sublist.refl candidate

lemma isLatin1_stripMark (latin : IsLatin1 candidate) : IsLatin1 (stripMark candidate) :=
  fun c mem => latin c (stripMark_sublist.subset mem)

/-- Rust `etag_weak_match` on a candidate. -/
lemma etagWeakMatch_iff (latin : IsLatin1 candidate) :
    etagWeakMatch (bytes (String.ofList candidate)) (bytes (String.ofList server.text)) = true ↔
      Hits server candidate := by
  have wildcard : IsLatin1 ['*'] := by decide
  have star : bytes (String.ofList candidate) = bytes "*" ↔ candidate = ['*'] :=
    bytes_inj latin wildcard
  have tags : bytes (String.ofList (stripMark candidate)) =
      bytes (String.ofList (stripMark server.text)) ↔ stripMark candidate = server.quoted := by
    rw [bytes_inj (isLatin1_stripMark latin) (isLatin1_stripMark server.isLatin1_text),
      stripMark_text]
  rw [etagWeakMatch, stripWeak_bytes latin, stripWeak_bytes server.isLatin1_text, Bool.or_eq_true,
    decide_eq_true_eq, decide_eq_true_eq, star, tags, Hits]

/-- A part of a tag that has one of its quotes is no match. -/
lemma not_hits_of_quote (one : candidate.count '"' = 1) : ¬ Hits server (trim candidate) := by
  have mem : '"' ∈ trim candidate := mem_trim rfl (List.count_pos_iff.mp (by omega))
  rintro (star | same)
  · rw [star] at mem
    cases List.mem_singleton.mp mem
  · have le : (stripMark (trim candidate)).count '"' ≤ candidate.count '"' :=
      (stripMark_sublist.trans trim_sublist).count_le _
    rw [same, EntityTag.count_quoted] at le
    omega

/-- A part without quotes is a match if it is the wildcard. -/
lemma hits_of_no_quote (none : '"' ∉ candidate) : Hits server candidate ↔ candidate = ['*'] := by
  refine or_iff_left fun same => none (stripMark_sublist.subset ?_)
  rw [same]
  exact List.mem_cons_self

end Candidates

/-! ## Lines -/

/-- A line of `If-None-Match`. -/
inductive IfNoneMatch where
  | any
  | tags (places : List (Place EntityTag))

namespace IfNoneMatch

def text : IfNoneMatch → List Char
  | any => ['*']
  | tags places => listText EntityTag.text places

/-- The tags that are listed. -/
def listed : IfNoneMatch → List EntityTag
  | any => []
  | tags places => elements places

/-- Every character is one that `to_str` reads. -/
def Readable (line : IfNoneMatch) : Prop := line.text.all isVisible = true

end IfNoneMatch

/-- RFC 9110: a line is the wildcard, or a tag is listed that equals the server's by weak
comparison. -/
def Matches (lines : List IfNoneMatch) (server : EntityTag) : Prop :=
  ∃ line ∈ lines, line = .any ∨ ∃ tag ∈ line.listed, tag.quoted = server.quoted

/-- A match that is found: the line can be read, and there is no comma in the tag. -/
def Found (lines : List IfNoneMatch) (server : EntityTag) : Prop :=
  ∃ line ∈ lines, line.Readable ∧
    (line = .any ∨ ∃ tag ∈ line.listed, ',' ∉ tag.content ∧ tag.quoted = server.quoted)

/-- A part of a tag is taken for the wildcard. -/
def Mistaken (lines : List IfNoneMatch) : Prop :=
  ∃ line ∈ lines, line.Readable ∧ ∃ tag ∈ line.listed, ['*'] ∈ tag.inner

section Lines

variable {server tag : EntityTag} {place : Place EntityTag} {line : IfNoneMatch}
  {lines : List IfNoneMatch} {headers : HeaderMap}

lemma EntityTag.comma_not_mem_mark : ',' ∉ tag.mark := by
  intro mem
  rcases mem_mark mem with h | h <;> cases h

lemma EntityTag.inner_eq_nil (comma : ',' ∉ tag.content) : tag.inner = [] := by
  rw [inner, List.splitOn_eq_singleton comma]
  rfl

/-- A tag with a comma has a first part, a last part and those in between. -/
lemma EntityTag.exists_parts (comma : ',' ∈ tag.content) :
    ∃ first last, tag.content.splitOn ',' = first :: (tag.inner ++ [last]) := by
  obtain ⟨first, rest, cut⟩ := List.exists_cons_of_ne_nil (List.splitOn_ne_nil ',' tag.content)
  have some : rest ≠ [] := by
    rintro rfl
    have whole : [','].intercalate (tag.content.splitOn ',') = tag.content :=
      List.intercalate_splitOn ','
    rw [cut, List.intercalate_singleton] at whole
    have none : ',' ∉ first := not_mem_of_mem_splitOn (cut ▸ List.mem_cons_self)
    exact none (whole ▸ comma)
  refine ⟨first, rest.getLast some, ?_⟩
  rw [inner, cut, List.tail_cons, List.dropLast_concat_getLast]

/-- A place without a tag has no match. -/
lemma not_hits_of_ows {text : List Char} (ows : IsOws text) : ¬ Hits server (trim text) := by
  rw [trim_of_ows ows]
  rintro (star | same)
  · cases star
  · cases same

lemma EntityTag.count_part {part : List Char} (h : part ∈ tag.content.splitOn ',') :
    part.count '"' = 0 :=
  List.count_eq_zero.mpr fun mem => not_mem_content (subset_of_mem_splitOn h mem)

/-- The text of a place with a tag, cut where the tag can have commas. -/
lemma Place.text_eq (element : place.element = some tag) : place.text EntityTag.text =
    (place.before ++ (tag.mark ++ ['"'])) ++ (tag.content ++ '"' :: place.after) := by
  simp [Place.text, element, EntityTag.text, EntityTag.quoted]

lemma comma_not_mem_left : ',' ∉ place.before ++ (tag.mark ++ ['"']) :=
  List.not_mem_append (comma_not_mem_ows place.ows_before)
    (List.not_mem_append tag.comma_not_mem_mark (by decide))

lemma comma_not_mem_right : ',' ∉ '"' :: place.after :=
  List.not_mem_cons_of_ne_of_not_mem (by decide) (comma_not_mem_ows place.ows_after)

/-- Of a tag with a comma only a wildcard between two commas is found. -/
lemma exists_hits_of_comma (element : place.element = some tag) (comma : ',' ∈ tag.content) :
    (∃ part ∈ (place.text EntityTag.text).splitOn ',', Hits server (trim part)) ↔
      ['*'] ∈ tag.inner := by
  obtain ⟨first, last, cut⟩ := tag.exists_parts comma
  have parts : ∀ part ∈ first :: (tag.inner ++ [last]), part ∈ tag.content.splitOn ',' := by
    intro part mem
    rwa [cut]
  simp only [List.mem_cons, List.mem_append, List.not_mem_nil, or_false] at parts
  have left : (place.before ++ (tag.mark ++ ['"']) ++ first).count '"' = 1 := by
    have before : place.before.count '"' = 0 :=
      List.count_eq_zero.mpr (place.ows_before.not_mem (by decide) (by decide))
    have mark : tag.mark.count '"' = 0 := by
      refine List.count_eq_zero.mpr fun mem => ?_
      rcases EntityTag.mem_mark mem with h | h <;> cases h
    simp [before, mark, tag.count_part (parts first (.inl rfl))]
  have right : (last ++ '"' :: place.after).count '"' = 1 := by
    have after : place.after.count '"' = 0 :=
      List.count_eq_zero.mpr (place.ows_after.not_mem (by decide) (by decide))
    simp [after, tag.count_part (parts last (.inr (.inr rfl)))]
  have inner : ∀ part ∈ tag.inner, (Hits server (trim part) ↔ part = ['*']) := by
    intro part mem
    have content : part ⊆ tag.content := subset_of_mem_splitOn (parts part (.inr (.inl mem)))
    rw [trim_of_trimmed (.of_forall fun c mem => EntityTag.isWhitespace_eq_false (content mem))]
    exact hits_of_no_quote fun mem => EntityTag.not_mem_content (content mem)
  rw [Place.text_eq element, splitOn_enclosed comma_not_mem_left comma_not_mem_right cut]
  constructor
  · rintro ⟨part, mem, hits⟩
    simp only [List.mem_cons, List.mem_append, List.not_mem_nil, or_false] at mem
    rcases mem with rfl | mem | rfl
    · exact absurd hits (not_hits_of_quote left)
    · exact (inner part mem).mp hits ▸ mem
    · exact absurd hits (not_hits_of_quote right)
  · intro star
    exact ⟨['*'], List.mem_cons_of_mem _ (List.mem_append_left _ star), (inner _ star).mpr rfl⟩

/-- A tag without a comma is found. -/
lemma exists_hits_of_no_comma (element : place.element = some tag) (comma : ',' ∉ tag.content) :
    (∃ part ∈ (place.text EntityTag.text).splitOn ',', Hits server (trim part)) ↔
      tag.quoted = server.quoted := by
  have whole : ',' ∉ place.text EntityTag.text := by
    rw [Place.text_eq element]
    exact List.not_mem_append comma_not_mem_left (List.not_mem_append comma comma_not_mem_right)
  have trimmed : trim (place.text EntityTag.text) = tag.text := by
    rw [Place.trim_text fun tag => tag.trimmed_text, element]
    rfl
  have star : tag.text ≠ ['*'] := by
    intro star
    have mem : '"' ∈ tag.text := List.mem_append_right _ List.mem_cons_self
    rw [star] at mem
    cases List.mem_singleton.mp mem
  rw [List.splitOn_eq_singleton whole]
  simp only [List.mem_singleton, exists_eq_left, trimmed, Hits, stripMark_text, star, false_or]

/-- What is found in a place: its tag if there is no comma in it, and a wildcard between commas. -/
lemma exists_hits_place : (∃ part ∈ (place.text EntityTag.text).splitOn ',',
      Hits server (trim part)) ↔
    ∃ tag ∈ place.element, (',' ∉ tag.content ∧ tag.quoted = server.quoted) ∨
      ['*'] ∈ tag.inner := by
  rcases element : place.element with _ | tag
  · have ows : IsOws (place.text EntityTag.text) := Place.isOws_text element
    rw [List.splitOn_eq_singleton (comma_not_mem_ows ows)]
    simp [not_hits_of_ows ows]
  · by_cases comma : ',' ∈ tag.content
    · rw [exists_hits_of_comma element comma]
      simp [comma]
    · rw [exists_hits_of_no_comma element comma]
      simp [comma, EntityTag.inner_eq_nil comma]

/-- What is found in a line. -/
lemma exists_hits_line : (∃ part ∈ line.text.splitOn ',', Hits server (trim part)) ↔
    line = .any ∨ ∃ tag ∈ line.listed, (',' ∉ tag.content ∧ tag.quoted = server.quoted) ∨
      ['*'] ∈ tag.inner := by
  cases line with
  | any =>
    refine iff_of_true ⟨['*'], ?_, .inl rfl⟩ (.inl rfl)
    rw [IfNoneMatch.text, List.splitOn_eq_singleton (by decide)]
    exact List.mem_singleton_self _
  | tags places =>
    rw [or_iff_right IfNoneMatch.noConfusion]
    exact exists_part_iff (not_hits_of_ows isOws_nil) fun _ => exists_hits_place

lemma IfNoneMatch.isLatin1_text : IsLatin1 line.text := by
  cases line with
  | any => decide
  | tags places =>
    intro c mem
    by_cases comma : c = ','
    · rw [comma]
      decide
    · rcases mem_listText comma mem with (rfl | rfl) | ⟨tag, -, mem⟩
      · decide
      · decide
      · exact tag.isLatin1_text c mem

/-- When Rust `if_none_match_matches` says yes. -/
lemma ifNoneMatchMatches_eq_true {etag : List UInt8} :
    ifNoneMatchMatches headers etag = true ↔
      ∃ value ∈ headers.getAll "if-none-match", ∃ text, toStr value = some text ∧
        ∃ part ∈ text.splitOn ',',
          etagWeakMatch (bytes (String.ofList (trim part))) etag = true := by
  rw [ifNoneMatchMatches, List.any_eq_true]
  refine exists_congr fun value => and_congr_right fun _ => ?_
  rcases toStr value with _ | text
  · simp
  · simp

/-- What is found in a line of a request. -/
lemma exists_weakMatch_iff :
    (∃ text, toStr (bytes (String.ofList line.text)) = some text ∧ ∃ part ∈ text.splitOn ',',
      etagWeakMatch (bytes (String.ofList (trim part))) (bytes (String.ofList server.text)) =
        true) ↔
    line.Readable ∧ (line = .any ∨ ∃ tag ∈ line.listed,
      (',' ∉ tag.content ∧ tag.quoted = server.quoted) ∨ ['*'] ∈ tag.inner) := by
  rw [toStr_bytes line.isLatin1_text, ← exists_hits_line, IfNoneMatch.Readable]
  by_cases readable : line.text.all isVisible = true
  · have hits : ∀ part ∈ line.text.splitOn ',',
        (etagWeakMatch (bytes (String.ofList (trim part))) (bytes (String.ofList server.text)) =
          true ↔ Hits server (trim part)) := by
      intro part mem
      refine etagWeakMatch_iff fun c trimmed => line.isLatin1_text c ?_
      exact subset_of_mem_splitOn mem (trim_sublist.subset trimmed)
    rw [if_pos readable]
    simp only [Option.some_inj, exists_eq_left', readable, true_and]
    exact exists_congr fun part => and_congr_right fun mem => hits part mem
  · rw [if_neg readable]
    simp [readable]

/-- What is found in the lines of a request. -/
lemma ifNoneMatchMatches_iff
    (sent : headers.getAll "if-none-match" =
      lines.map fun line => bytes (String.ofList line.text)) :
    ifNoneMatchMatches headers (bytes (String.ofList server.text)) = true ↔
      Found lines server ∨ Mistaken lines := by
  rw [ifNoneMatchMatches_eq_true, sent]
  simp only [List.mem_map, exists_exists_and_eq_and, exists_weakMatch_iff]
  constructor
  · rintro ⟨line, mem, readable, any | ⟨tag, listed, same | inner⟩⟩
    · exact .inl ⟨line, mem, readable, .inl any⟩
    · exact .inl ⟨line, mem, readable, .inr ⟨tag, listed, same⟩⟩
    · exact .inr ⟨line, mem, readable, tag, listed, inner⟩
  · rintro (⟨line, mem, readable, any | ⟨tag, listed, same⟩⟩ |
      ⟨line, mem, readable, tag, listed, inner⟩)
    · exact ⟨line, mem, readable, .inl any⟩
    · exact ⟨line, mem, readable, .inr ⟨tag, listed, .inl same⟩⟩
    · exact ⟨line, mem, readable, .inr ⟨tag, listed, .inr inner⟩⟩

/-- A line of tags in visible ASCII can be read by `to_str`. -/
lemma IfNoneMatch.readable (visible : ∀ tag ∈ line.listed, tag.content.all isVisible = true) :
    line.Readable := by
  refine List.all_eq_true.mpr fun c mem => ?_
  cases line with
  | any =>
    cases List.mem_singleton.mp mem
    rfl
  | tags places =>
    by_cases comma : c = ','
    · rw [comma]
      rfl
    · rcases mem_listText comma mem with (rfl | rfl) | ⟨tag, listed, mem⟩
      · rfl
      · rfl
      · simp only [EntityTag.text, EntityTag.quoted, List.mem_append, List.mem_cons,
          List.not_mem_nil, or_false] at mem
        rcases mem with mem | rfl | mem | rfl
        · rcases EntityTag.mem_mark mem with rfl | rfl <;> rfl
        · rfl
        · exact List.all_eq_true.mp (visible tag listed) c mem
        · rfl

/-- A tag that is found matches. -/
lemma Found.matches (found : Found lines server) : Matches lines server := by
  obtain ⟨line, mem, -, any | ⟨tag, listed, -, same⟩⟩ := found
  · exact ⟨line, mem, .inl any⟩
  · exact ⟨line, mem, .inr ⟨tag, listed, same⟩⟩

/-- `if_none_match_matches` decides as RFC 9110 says if every tag listed is in visible ASCII and
has no comma. -/
lemma ifNoneMatchMatches_of_plain
    (sent : headers.getAll "if-none-match" = lines.map fun line => bytes (String.ofList line.text))
    (plain : ∀ line ∈ lines, ∀ tag ∈ line.listed,
      ',' ∉ tag.content ∧ tag.content.all isVisible = true) :
    ifNoneMatchMatches headers (bytes (String.ofList server.text)) = true ↔
      Matches lines server := by
  rw [ifNoneMatchMatches_iff sent]
  constructor
  · rintro (found | ⟨line, mem, -, tag, listed, inner⟩)
    · exact found.matches
    · rw [EntityTag.inner_eq_nil (plain line mem tag listed).1] at inner
      cases inner
  · rintro ⟨line, mem, matched⟩
    have readable := IfNoneMatch.readable fun tag listed => (plain line mem tag listed).2
    rcases matched with any | ⟨tag, listed, same⟩
    · exact .inl ⟨line, mem, readable, .inl any⟩
    · exact .inl ⟨line, mem, readable, .inr ⟨tag, listed, (plain line mem tag listed).1, same⟩⟩

end Lines

/-- `If-None-Match` is evaluated as RFC 9110 says exactly if a match is found as such, or a part of
a tag is taken for the wildcard just when there is a match. -/
theorem ifNoneMatchMatches_rfc_iff (headers : HeaderMap) (lines : List IfNoneMatch)
    (server : EntityTag)
    (sent : headers.getAll "if-none-match" =
      lines.map fun line => bytes (String.ofList line.text)) :
    (ifNoneMatchMatches headers (bytes (String.ofList server.text)) = true ↔
      Matches lines server) ↔
    (Found lines server ∨ (Mistaken lines ↔ Matches lines server)) := by
  rw [ifNoneMatchMatches_iff sent]
  by_cases found : Found lines server
  · exact iff_of_true (iff_of_true (.inl found) found.matches) (.inl found)
  · rw [or_iff_right found, or_iff_right found]

/-- A strong tag with those of these characters that it may have. -/
def EntityTag.of (content : String) : EntityTag where
  weak := false
  content := content.toList.filter isEtagc
  etagc _ mem := (List.mem_filter.mp mem).2

/-- A line with one tag. -/
def soleTag (content : String) : IfNoneMatch := .tags [.of (.of content)]

/-- A request with this line. -/
def asking (line : IfNoneMatch) : HeaderMap :=
  [("if-none-match", bytes (String.ofList line.text))]

lemma matches_soleTag {content : String} {server : EntityTag} :
    Matches [soleTag content] server ↔ (EntityTag.of content).quoted = server.quoted := by
  simp [Matches, soleTag, IfNoneMatch.listed, elements, Place.of]

/-- A tag without a comma. -/
theorem ifNoneMatchMatches_rfc_soleTag :
    (asking (soleTag "abc")).getAll "if-none-match" =
      [soleTag "abc"].map (fun line => bytes (String.ofList line.text)) ∧
    (ifNoneMatchMatches (asking (soleTag "abc")) (bytes (String.ofList (EntityTag.of "abc").text)) =
      true ↔ Matches [soleTag "abc"] (.of "abc")) := by
  have found : Found [soleTag "abc"] (.of "abc") := by
    refine ⟨_, List.mem_singleton_self _, rfl, .inr ⟨.of "abc", ?_, by decide, rfl⟩⟩
    exact List.mem_singleton_self _
  exact ⟨rfl, (ifNoneMatchMatches_rfc_iff _ [soleTag "abc"] (.of "abc") rfl).mpr (.inl found)⟩

/-- A wildcard within a tag matches everything, a tag with a comma does not match itself, and
neither does one with a byte beyond ASCII. -/
theorem tag_is_cut :
    (ifNoneMatchMatches (asking (soleTag "a,*,b")) (bytes (String.ofList (EntityTag.of "c").text)) =
        true ∧ ¬ Matches [soleTag "a,*,b"] (.of "c")) ∧
    (ifNoneMatchMatches (asking (soleTag "a,b")) (bytes (String.ofList (EntityTag.of "a,b").text)) =
        false ∧ Matches [soleTag "a,b"] (.of "a,b")) ∧
    (ifNoneMatchMatches (asking (soleTag "é")) (bytes (String.ofList (EntityTag.of "é").text)) =
        false ∧ Matches [soleTag "é"] (.of "é")) := by
  refine ⟨⟨by decide, ?_⟩, ⟨by decide, ?_⟩, by decide, ?_⟩
  · rw [matches_soleTag]
    decide
  · rw [matches_soleTag]
  · rw [matches_soleTag]

end CherryPit.Web
