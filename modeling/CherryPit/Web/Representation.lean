import CherryPit.Web.Pages

/-!
# Pages as they are sent

The two surfaces keep a page in different shapes. The serve surface drops the body of a compressed
page and decodes it again for a client that does not take zstd; the projection surface keeps both.
What they send is the same up to the policy of SVG documents (`CachedPage.servePage_new`,
`PageEntry.servePage_new`), and it represents the page (`Represents`).
-/

namespace CherryPit.Web

variable {codecs : Codecs} {filename : List Char} {body : List UInt8} {requestHeaders : HeaderMap}
  {zstd sent : List UInt8} {page : CachedPage} {right left : Response}

/-- What is assumed of zstd: a stream decodes to what it was made of, up to any number of bytes. -/
def Codecs.Lossless (codecs : Codecs) : Prop :=
  ∀ {body zstd}, codecs.zstdEncode body = some zstd →
    ∀ n, codecs.zstdDecode zstd n = some (body.take n)

lemma decodeBounded_of_lossless (lossless : codecs.Lossless)
    (encoded : codecs.zstdEncode body = some zstd) :
    decodeBounded codecs zstd body.length = some body := by
  rw [decodeBounded, lossless encoded, List.take_of_length_le (Nat.le_succ _)]
  exact if_pos rfl

/-- The compressed body of a page, if it has one. -/
def precompressed (codecs : Codecs) (filename : List Char) (body : List UInt8) :
    Option (List UInt8) :=
  if isCompressibleExt (extension filename) then compressZstd codecs body else none

lemma zstdEncode_of_precompressed (has : precompressed codecs filename body = some zstd) :
    codecs.zstdEncode body = some zstd := by
  rw [precompressed, compressZstd] at has
  split at has
  · split at has
    · cases has
    · exact has
  · cases has

lemma CachedPage.body_new : (CachedPage.new codecs filename body).body =
    match precompressed codecs filename body with
    | some zstd =>
      if filename = "index.html".toList then .dual zstd body else .compressed zstd body.length
    | none => .rawOnly body :=
  rfl

/-- Decoding on demand gives the body back. -/
lemma CachedPage.identityBytes_new (lossless : codecs.Lossless) :
    (CachedPage.new codecs filename body).body.identityBytes codecs = some body := by
  rw [CachedPage.body_new]
  rcases has : precompressed codecs filename body with - | zstd
  · rfl
  · dsimp only
    split
    · rfl
    · exact decodeBounded_of_lossless lossless (zstdEncode_of_precompressed has)

lemma CachedPage.zstd_new : (CachedPage.new codecs filename body).body.zstd =
    precompressed codecs filename body := by
  rw [CachedPage.body_new]
  rcases precompressed codecs filename body with - | zstd
  · rfl
  · dsimp only
    split <;> rfl

/-- The compressed bytes, if they are what is sent. -/
def sentZstd (codecs : Codecs) (filename : List Char) (body : List UInt8)
    (requestHeaders : HeaderMap) : Option (List UInt8) :=
  (precompressed codecs filename body).filter fun _ =>
    acceptedEncoding codecs requestHeaders = .zstd

lemma sentZstd_eq_some (sent : sentZstd codecs filename body requestHeaders = some zstd) :
    precompressed codecs filename body = some zstd ∧
      acceptedEncoding codecs requestHeaders = .zstd := by
  obtain ⟨has, accepted⟩ := Option.filter_eq_some_iff.mp sent
  exact ⟨has, of_decide_eq_true accepted⟩

/-- The header map of a page that is sent. -/
def sentHeaders (codecs : Codecs) (filename : List Char) (body sent : List UInt8) : HeaderMap :=
  (pageHeaders (contentTypeForExt (extension filename)) (computeEtag codecs body)).insert
    "content-length" (contentLengthHeader sent.length)

/-- What a page is answered with. -/
def representation (codecs : Codecs) (filename : List Char) (body : List UInt8)
    (requestHeaders : HeaderMap) : Response :=
  if ifNoneMatchMatches requestHeaders (computeEtag codecs body) = true then
    ⟨304, notModifiedHeaders (computeEtag codecs body)
      (precompressed codecs filename body).isSome, []⟩
  else match sentZstd codecs filename body requestHeaders with
  | some zstd =>
    ⟨200, withVary ((sentHeaders codecs filename body zstd).insert "content-encoding"
      (bytes "zstd")) true, zstd⟩
  | none =>
    ⟨200, withVary (sentHeaders codecs filename body body)
      (precompressed codecs filename body).isSome, body⟩

lemma PageEntry.servePage_new : (PageEntry.new codecs filename body).servePage codecs
    requestHeaders 200 = representation codecs filename body requestHeaders := by
  have new : PageEntry.new codecs filename body =
      { body := body
        bodyZstd := precompressed codecs filename body
        contentType := contentTypeForExt (extension filename)
        etag := computeEtag codecs body
        contentLength := contentLengthHeader body.length
        contentLengthZstd := (precompressed codecs filename body).map fun b =>
          contentLengthHeader b.length } := rfl
  rw [new, servePage, representation]
  split
  · rfl
  · rcases sent : sentZstd codecs filename body requestHeaders with _ | zstd
    · rw [sentZstd] at sent
      dsimp only
      rw [sent]
      rfl
    · obtain ⟨has, -⟩ := sentZstd_eq_some sent
      rw [sentZstd] at sent
      dsimp only
      rw [sent, has]
      rfl

lemma CachedPage.headersZstd_new (has : precompressed codecs filename body = some zstd) :
    (CachedPage.new codecs filename body).headersZstd =
    withSvgCsp (withVary ((sentHeaders codecs filename body zstd).insert "content-encoding"
      (bytes "zstd")) true) (contentTypeForExt (extension filename)) := by
  have eq : (CachedPage.new codecs filename body).headersZstd = withSvgCsp
      (match (precompressed codecs filename body).map fun b => contentLengthHeader b.length with
      | some length =>
        withVary (((pageHeaders (contentTypeForExt (extension filename))
          (computeEtag codecs body)).insert "content-length" length).insert
          "content-encoding" (bytes "zstd")) true
      | none => sentHeaders codecs filename body body)
      (contentTypeForExt (extension filename)) := rfl
  rw [eq, has]
  rfl

lemma CachedPage.variant_zstd (has : page.body.zstd = some zstd) :
    page.variant codecs .zstd = some (zstd, page.headersZstd) := by
  rw [variant]
  simp only [has]

lemma CachedPage.variant_raw {encoding : Encoding}
    (plain : encoding = .zstd → page.body.zstd = none) :
    page.variant codecs encoding =
      (page.body.identityBytes codecs).map fun b => (b, page.headersRaw) := by
  cases encoding with
  | identity => rfl
  | zstd =>
    unfold variant
    rw [plain rfl]

/-- The answer of the serve surface is that of the projection surface, with the policy of SVG
documents. -/
lemma CachedPage.servePage_new (lossless : codecs.Lossless) :
    (CachedPage.new codecs filename body).servePage codecs requestHeaders 200 false =
      if ifNoneMatchMatches requestHeaders (computeEtag codecs body) = true then
        representation codecs filename body requestHeaders
      else
        { representation codecs filename body requestHeaders with
          headers := withSvgCsp (representation codecs filename body requestHeaders).headers
            (contentTypeForExt (extension filename)) } := by
  have etag : (CachedPage.new codecs filename body).etag = computeEtag codecs body := rfl
  rw [servePage, etag]
  split
  next unchanged =>
    rw [if_pos unchanged.2, representation, if_pos unchanged.2]
    rfl
  next changed =>
    have changed : ¬ ifNoneMatchMatches requestHeaders (computeEtag codecs body) = true :=
      fun unchanged => changed ⟨rfl, unchanged⟩
    rw [if_neg changed, representation, if_neg changed]
    rcases sent : sentZstd codecs filename body requestHeaders with _ | zstd
    · have plain : acceptedEncoding codecs requestHeaders = .zstd →
          (CachedPage.new codecs filename body).body.zstd = none := by
        intro accepted
        rw [zstd_new, Option.eq_none_iff_forall_ne_some]
        intro zstd has
        exact Option.filter_eq_none_iff.mp sent zstd has (decide_eq_true accepted)
      rw [variant_raw plain, identityBytes_new lossless]
      rfl
    · obtain ⟨has, accepted⟩ := sentZstd_eq_some sent
      rw [accepted, variant_zstd (zstd_new.trans has), headersZstd_new has]

/-- An answer sends a page, in the encoding that it names. -/
structure Sends (codecs : Codecs) (body : List UInt8) (requestHeaders : HeaderMap)
    (response : Response) : Prop where
  status : response.status = 200
  zstd : response.headers.get "content-encoding" = some (bytes "zstd") →
    acceptedEncoding codecs requestHeaders = .zstd ∧
      response.headers.get "vary" = some (bytes "Accept-Encoding") ∧
      ∀ n, codecs.zstdDecode response.body n = some (body.take n)
  identity : response.headers.get "content-encoding" ≠ some (bytes "zstd") →
    response.headers.get "content-encoding" = none ∧ response.body = body
  length : response.headers.get "content-length" =
    some (contentLengthHeader response.body.length)

/-- An answer represents a page: it says that the client has it, or sends it. -/
structure Represents (codecs : Codecs) (body : List UInt8) (requestHeaders : HeaderMap)
    (response : Response) : Prop where
  notModified : (response.status = 304 ∧ response.body = []) ↔
    ifNoneMatchMatches requestHeaders (computeEtag codecs body) = true
  sends : ifNoneMatchMatches requestHeaders (computeEtag codecs body) = false →
    Sends codecs body requestHeaders response
  etag : response.headers.get "etag" = some (computeEtag codecs body)

/-- The headers in which the two surfaces agree. -/
def comparedHeaders : List String :=
  ["content-type", "content-length", "content-encoding", "etag", "cache-control", "vary"]

/-- Two answers are the same for a client that looks at these headers. -/
structure Alike (left right : Response) : Prop where
  status : left.status = right.status
  body : left.body = right.body
  headers : ∀ name ∈ comparedHeaders, left.headers.get name = right.headers.get name

lemma sentHeaders_encoding :
    (sentHeaders codecs filename body sent).get "content-encoding" = none := by
  rw [sentHeaders, HeaderMap.get_insert_of_ne (by decide), get_pageHeaders_eq_none (by decide)]

lemma sentHeaders_etag :
    (sentHeaders codecs filename body sent).get "etag" = some (computeEtag codecs body) := by
  rw [sentHeaders, HeaderMap.get_insert_of_ne (by decide), pageHeaders,
    HeaderMap.get_insert_of_ne (by decide), HeaderMap.get_insert_self]

/-- The body itself is sent. -/
lemma Sends.raw {hasCompressed : Bool} : Sends codecs body requestHeaders
    ⟨200, withVary (sentHeaders codecs filename body body) hasCompressed, body⟩ := by
  have encoding : (withVary (sentHeaders codecs filename body body) hasCompressed).get
      "content-encoding" = none := by
    rw [get_withVary_of_ne (by decide), sentHeaders_encoding]
  constructor
  case status => rfl
  case zstd =>
    intro named
    cases encoding.symm.trans named
  case identity =>
    intro _
    exact ⟨encoding, rfl⟩
  case length =>
    rw [get_withVary_of_ne (by decide)]
    exact HeaderMap.get_insert_self

/-- The compressed body is sent. -/
lemma Sends.compressed (lossless : codecs.Lossless)
    (sent : sentZstd codecs filename body requestHeaders = some zstd) :
    Sends codecs body requestHeaders ⟨200, withVary ((sentHeaders codecs filename body zstd).insert
      "content-encoding" (bytes "zstd")) true, zstd⟩ := by
  obtain ⟨has, accepted⟩ := sentZstd_eq_some sent
  have encoding : (withVary ((sentHeaders codecs filename body zstd).insert "content-encoding"
      (bytes "zstd")) true).get "content-encoding" = some (bytes "zstd") := by
    rw [get_withVary_of_ne (by decide)]
    exact HeaderMap.get_insert_self
  constructor
  case status => rfl
  case zstd =>
    intro _
    refine ⟨accepted, HeaderMap.get_insert_self, ?_⟩
    exact lossless (zstdEncode_of_precompressed has)
  case identity =>
    intro other
    exact absurd encoding other
  case length =>
    rw [get_withVary_of_ne (by decide), HeaderMap.get_insert_of_ne (by decide)]
    exact HeaderMap.get_insert_self

lemma represents_representation (lossless : codecs.Lossless) :
    Represents codecs body requestHeaders
      (representation codecs filename body requestHeaders) := by
  rw [representation]
  split
  next unchanged =>
    constructor
    case notModified => simp only [unchanged, and_self]
    case sends =>
      intro changed
      cases unchanged.symm.trans changed
    case etag =>
      rw [notModifiedHeaders, get_withVary_of_ne (by decide)]
      simp
  next changed =>
    split
    next zstd sent =>
      constructor
      case notModified => simp [changed]
      case sends =>
        intro _
        exact Sends.compressed lossless sent
      case etag =>
        rw [get_withVary_of_ne (by decide), HeaderMap.get_insert_of_ne (by decide),
          sentHeaders_etag]
    next =>
      constructor
      case notModified => simp [changed]
      case sends =>
        intro _
        exact Sends.raw
      case etag => rw [get_withVary_of_ne (by decide), sentHeaders_etag]

lemma Sends.of_alike (alike : Alike left right) (sends : Sends codecs body requestHeaders right) :
    Sends codecs body requestHeaders left := by
  obtain ⟨status, sent, headers⟩ := alike
  have encoding := headers "content-encoding" (by decide)
  have vary := headers "vary" (by decide)
  have length := headers "content-length" (by decide)
  constructor
  case status => exact status.trans sends.status
  case zstd =>
    rw [encoding, vary, sent]
    exact sends.zstd
  case identity =>
    rw [encoding, sent]
    exact sends.identity
  case length =>
    rw [length, sent]
    exact sends.length

lemma Represents.of_alike (alike : Alike left right)
    (represents : Represents codecs body requestHeaders right) :
    Represents codecs body requestHeaders left := by
  constructor
  case notModified =>
    rw [alike.status, alike.body]
    exact represents.notModified
  case sends =>
    intro changed
    exact (represents.sends changed).of_alike alike
  case etag =>
    rw [alike.headers "etag" (by decide)]
    exact represents.etag

/-- The two surfaces answer alike. -/
lemma alike_representation (lossless : codecs.Lossless) :
    Alike ((CachedPage.new codecs filename body).servePage codecs requestHeaders 200 false)
      (representation codecs filename body requestHeaders) := by
  rw [CachedPage.servePage_new lossless]
  split
  · exact ⟨rfl, rfl, fun _ _ => rfl⟩
  · refine ⟨rfl, rfl, fun name compared => get_withSvgCsp_of_ne ?_⟩
    rintro rfl
    exact absurd compared (by decide)

/-- Every answer of either surface represents the page, and the two surfaces answer alike. -/
theorem servePage_represents (lossless : codecs.Lossless) (filename : List Char)
    (body : List UInt8) (requestHeaders : HeaderMap) :
    let served := (CachedPage.new codecs filename body).servePage codecs requestHeaders 200 false
    let projected := (PageEntry.new codecs filename body).servePage codecs requestHeaders 200
    Represents codecs body requestHeaders served ∧
      Represents codecs body requestHeaders projected ∧ Alike served projected := by
  intro served projected
  have alike : Alike served (representation codecs filename body requestHeaders) :=
    alike_representation lossless
  have eq : projected = representation codecs filename body requestHeaders :=
    PageEntry.servePage_new
  have represents : Represents codecs body requestHeaders
      (representation codecs filename body requestHeaders) :=
    represents_representation lossless
  rw [eq]
  exact ⟨represents.of_alike alike, represents, alike⟩

/-- A codec that stores a body behind a mark, for the sake of an example. -/
def stored : Codecs where
  sha256 body := body
  zstdEncode body := some (0x28 :: body)
  zstdDecode zstd n := some (zstd.tail.take n)
  parseF32 _ := none

lemma stored_lossless : stored.Lossless := by
  rintro body _ ⟨⟩ n
  rfl

/-- A page that was compressed, for a client that takes no encoding and for one that takes zstd. -/
theorem servePage_represents_stored :
    let page := CachedPage.new stored "a.html".toList [104, 105]
    let zstd : HeaderMap := [("accept-encoding", bytes "zstd")]
    (Represents stored [104, 105] [] (page.servePage stored [] 200 false) ∧
      (page.servePage stored [] 200 false).body = [104, 105]) ∧
    (Represents stored [104, 105] zstd (page.servePage stored zstd 200 false) ∧
      (page.servePage stored zstd 200 false).body = [0x28, 104, 105]) :=
  ⟨⟨(servePage_represents stored_lossless "a.html".toList [104, 105] _).1, by decide⟩,
    (servePage_represents stored_lossless "a.html".toList [104, 105] _).1, by decide⟩

end CherryPit.Web
