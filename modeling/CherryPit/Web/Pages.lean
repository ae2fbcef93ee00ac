import CherryPit.Web.Authority
import CherryPit.Web.Headers
import Mathlib.Data.List.DropRight

/-!
# Pages

Port of the pages of the two surfaces of `cherry-pit-web` and of how one is answered: `CachedPage`
of `serve/state.rs` with `serve_page` of `serve/runtime.rs`, and `PageEntry` of
`projection/state.rs` with `serve_page` and `resolve_page` of `projection/handlers.rs`; the
negotiation both share is that of `middleware/http.rs` and `middleware/compression.rs`.

Rust → Lean: SHA-256, zstd and the parser of floats are parameters (`Codecs`).
-/

namespace CherryPit.Web

/-- What is computed by libraries. -/
structure Codecs where
  sha256 : List UInt8 → List UInt8
  zstdEncode : List UInt8 → Option (List UInt8)
  /-- At most so many bytes of what a stream decodes to. -/
  zstdDecode : List UInt8 → Nat → Option (List UInt8)
  /-- Whether a float is positive. -/
  parseF32 : List Char → Option Bool

variable {C : Type} (codecs : Codecs) {key : String}

/-! ## Negotiation -/

def trim (text : List Char) : List Char :=
  (text.dropWhile Char.isWhitespace).rdropWhile Char.isWhitespace

def stripWeak (tag : List UInt8) : List UInt8 :=
  if bytes "W/" <+: tag then tag.drop 2 else tag

def etagWeakMatch (client server : List UInt8) : Bool :=
  client = bytes "*" || stripWeak client = stripWeak server

def ifNoneMatchMatches (headers : HeaderMap) (serverEtag : List UInt8) : Bool :=
  (headers.getAll "if-none-match").any fun value =>
    match toStr value with
    | none => false
    | some text => (text.splitOn ',').any fun candidate =>
        etagWeakMatch (bytes (String.ofList (trim candidate))) serverEtag

inductive Encoding where
  | zstd
  | identity
  deriving DecidableEq

/-- Whether an entry of `Accept-Encoding` accepts zstd, if it is about zstd. -/
def zstdAccepted (part : List Char) : Option Bool :=
  let part := trim part
  let (name, params) := match splitOnce [';'] part with
    | some (n, p) => (trim n, some (trim p))
    | none => (part, none)
  if name ≠ "zstd".toList then none
  else
    let quality := params.bind fun p => (p.splitOn ';').findSome? fun param =>
      if "q=".toList <+: trim param then codecs.parseF32 (trim ((trim param).drop 2)) else none
    some (quality.getD true)

def negotiateEncoding (accept : List UInt8) : Encoding :=
  match toStr accept with
  | none => .identity
  | some s =>
    if s = "zstd".toList then .zstd
    else if ';' ∉ s then
      if (s.splitOn ',').any fun part => trim part = "zstd".toList then .zstd else .identity
    else
      let answers := (s.splitOn ',').filterMap (zstdAccepted codecs)
      -- a refusal wins over any other entry
      if false ∈ answers then .identity else if true ∈ answers then .zstd else .identity

/-- The encoding of the answer to a request. -/
def acceptedEncoding (requestHeaders : HeaderMap) : Encoding :=
  match requestHeaders.get "accept-encoding" with
  | some accept => negotiateEncoding codecs accept
  | none => .identity

/-! ## Content types -/

/-- The extension of a file name. -/
def extension (filename : List Char) : Option (List Char) :=
  match rsplitOnce '.' filename with
  | some (before, after) => if before = [] then none else some after
  | none => none

/-- The content type and whether it is compressed in advance. -/
def lookupExt (ext : Option (List Char)) : Option (String × Bool) :=
  match ext.map fun ext => String.ofList (toAsciiLowercase ext) with
  | some "html" => some ("text/html; charset=utf-8", true)
  | some "css" => some ("text/css; charset=utf-8", true)
  | some "js" | some "mjs" => some ("text/javascript; charset=utf-8", true)
  | some "json" | some "map" => some ("application/json; charset=utf-8", true)
  | some "xml" => some ("application/xml; charset=utf-8", true)
  | some "svg" => some ("image/svg+xml", true)
  | some "txt" => some ("text/plain; charset=utf-8", true)
  | some "png" => some ("image/png", false)
  | some "jpg" | some "jpeg" => some ("image/jpeg", false)
  | some "gif" => some ("image/gif", false)
  | some "webp" => some ("image/webp", false)
  | some "avif" => some ("image/avif", false)
  | some "ico" => some ("image/x-icon", false)
  | some "woff" => some ("font/woff", false)
  | some "woff2" => some ("font/woff2", false)
  | some "ttf" => some ("font/ttf", false)
  | some "otf" => some ("font/otf", false)
  | some "wasm" => some ("application/wasm", false)
  | _ => none

def contentTypeForExt (ext : Option (List Char)) : List UInt8 :=
  match lookupExt ext with
  | some (contentType, _) => bytes contentType
  | none => bytes "application/octet-stream"

def isCompressibleExt (ext : Option (List Char)) : Bool :=
  match lookupExt ext with
  | some (_, compressible) => compressible
  | none => false

def contentLengthHeader (len : Nat) : List UInt8 :=
  bytes (toString len)

def hexDigit (n : Nat) : Char :=
  if n < 10 then Char.ofNat ('0'.toNat + n) else Char.ofNat ('a'.toNat + (n - 10))

def computeEtag (body : List UInt8) : List UInt8 :=
  let digits := (codecs.sha256 body).take 16 |>.flatMap fun b =>
    [hexDigit (b.toNat / 16), hexDigit (b.toNat % 16)]
  bytes ("W/\"" ++ String.ofList digits ++ "\"")

def maxPrecompressBytes : Nat := 2 ^ 20

def compressZstd (body : List UInt8) : Option (List UInt8) :=
  if maxPrecompressBytes < body.length then none else codecs.zstdEncode body

def defaultCsp : List UInt8 :=
  bytes ("default-src 'self'; style-src 'self'; script-src 'self'; connect-src 'self'; " ++
    "base-uri 'none'; form-action 'none'")

def svgCsp : List UInt8 :=
  bytes "default-src 'none'; style-src 'unsafe-inline'; img-src 'self'"

structure Response where
  status : Nat
  headers : HeaderMap
  body : List UInt8

/-! ## The serve surface -/

/-- Rust `CachedBody`. -/
inductive CachedBody where
  | rawOnly (body : List UInt8)
  | compressed (zstd : List UInt8) (rawLen : Nat)
  | dual (zstd raw : List UInt8)

def CachedBody.zstd : CachedBody → Option (List UInt8)
  | .compressed zstd _ | .dual zstd _ => some zstd
  | .rawOnly _ => none

def decodeBounded (zstd : List UInt8) (expectedLen : Nat) : Option (List UInt8) :=
  match codecs.zstdDecode zstd (expectedLen + 1) with
  | some buf => if buf.length = expectedLen then some buf else none
  | none => none

def CachedBody.identityBytes : CachedBody → Option (List UInt8)
  | .rawOnly body => some body
  | .dual _ raw => some raw
  | .compressed zstd rawLen => decodeBounded codecs zstd rawLen

/-- Rust `CachedPage`. -/
structure CachedPage where
  body : CachedBody
  contentType : List UInt8
  etag : List UInt8
  contentLength : List UInt8
  contentLengthZstd : Option (List UInt8)
  headersZstd : HeaderMap
  headersRaw : HeaderMap
  headers304 : HeaderMap

/-- The policy of SVG documents, for those only. -/
def withSvgCsp (headers : HeaderMap) (contentType : List UInt8) : HeaderMap :=
  if contentType = bytes "image/svg+xml" then headers.insert "content-security-policy" svgCsp
  else headers

def withVary (headers : HeaderMap) (hasCompressed : Bool) : HeaderMap :=
  if hasCompressed then headers.insert "vary" (bytes "Accept-Encoding") else headers

/-- The header map of a page without its length. -/
def pageHeaders (contentType etag : List UInt8) : HeaderMap :=
  ((HeaderMap.insert [] "content-type" contentType).insert "etag" etag).insert
    "cache-control" (bytes "no-cache")

/-- The header map of a 304. -/
def notModifiedHeaders (etag : List UInt8) (hasCompressed : Bool) : HeaderMap :=
  withVary ((HeaderMap.insert [] "etag" etag).insert "cache-control" (bytes "no-cache"))
    hasCompressed

def CachedPage.new (filename : List Char) (body : List UInt8) : CachedPage :=
  let ext := extension filename
  let contentType := contentTypeForExt ext
  let etag := computeEtag codecs body
  let contentLength := contentLengthHeader body.length
  let bodyZstd := if isCompressibleExt ext then compressZstd codecs body else none
  let contentLengthZstd := bodyZstd.map fun b => contentLengthHeader b.length
  let headersRaw := withVary ((pageHeaders contentType etag).insert "content-length" contentLength)
    bodyZstd.isSome
  let headersZstd := match contentLengthZstd with
    | some length =>
      withVary (((pageHeaders contentType etag).insert "content-length" length).insert
        "content-encoding" (bytes "zstd")) true
    | none => (pageHeaders contentType etag).insert "content-length" contentLength
  { body := match bodyZstd with
      | some zstd =>
        if filename = "index.html".toList then .dual zstd body else .compressed zstd body.length
      | none => .rawOnly body
    contentType := contentType
    etag := etag
    contentLength := contentLength
    contentLengthZstd := contentLengthZstd
    headersZstd := withSvgCsp headersZstd contentType
    headersRaw := withSvgCsp headersRaw contentType
    headers304 := notModifiedHeaders etag bodyZstd.isSome }

/-- The bytes a page has for an encoding, with the headers that go with them. -/
def CachedPage.variant (page : CachedPage) (encoding : Encoding) :
    Option (List UInt8 × HeaderMap) :=
  match encoding, page.body.zstd with
  | .zstd, some b => some (b, page.headersZstd)
  | _, _ => (page.body.identityBytes codecs).map fun b => (b, page.headersRaw)

def CachedPage.servePage (page : CachedPage) (requestHeaders : HeaderMap) (status : Nat)
    (skipEtagCheck : Bool) : Response :=
  if skipEtagCheck = false ∧ ifNoneMatchMatches requestHeaders page.etag = true then
    ⟨304, page.headers304, []⟩
  else match page.variant codecs (acceptedEncoding codecs requestHeaders) with
  | some (body, headers) => ⟨status, headers, body⟩
  | none => ⟨500, [], []⟩

/-! ## The projection surface -/

/-- Rust `PageEntry`. -/
structure PageEntry where
  body : List UInt8
  bodyZstd : Option (List UInt8)
  contentType : List UInt8
  etag : List UInt8
  contentLength : List UInt8
  contentLengthZstd : Option (List UInt8)

def PageEntry.new (filename : List Char) (body : List UInt8) : PageEntry :=
  let ext := extension filename
  let bodyZstd := if isCompressibleExt ext then compressZstd codecs body else none
  { body := body
    bodyZstd := bodyZstd
    contentType := contentTypeForExt ext
    etag := computeEtag codecs body
    contentLength := contentLengthHeader body.length
    contentLengthZstd := bodyZstd.map fun b => contentLengthHeader b.length }

def withLength (headers : HeaderMap) (contentLength : Option (List UInt8)) : HeaderMap :=
  match contentLength with
  | some length => headers.insert "content-length" length
  | none => headers

def PageEntry.servePage (page : PageEntry) (requestHeaders : HeaderMap) (status : Nat) : Response :=
  if ifNoneMatchMatches requestHeaders page.etag = true then
    ⟨304, notModifiedHeaders page.etag page.bodyZstd.isSome, []⟩
  else match page.bodyZstd.filter fun _ => acceptedEncoding codecs requestHeaders = .zstd with
  | some zstd =>
    ⟨status, withVary ((withLength (pageHeaders page.contentType page.etag)
      page.contentLengthZstd).insert "content-encoding" (bytes "zstd")) page.bodyZstd.isSome, zstd⟩
  | none =>
    ⟨status, withVary (withLength (pageHeaders page.contentType page.etag)
      (some page.contentLength)) page.bodyZstd.isSome, page.body⟩

/-! ## Headers that are not set -/

section Headers

variable {headers : HeaderMap} {name : String} {contentType etag : List UInt8}
  {hasCompressed : Bool}

lemma get_withVary_of_ne (ne : name ≠ "vary") :
    (withVary headers hasCompressed).get name = headers.get name := by
  rw [withVary]
  split
  · exact HeaderMap.get_insert_of_ne ne
  · rfl

lemma get_withSvgCsp_of_ne (ne : name ≠ "content-security-policy") :
    (withSvgCsp headers contentType).get name = headers.get name := by
  rw [withSvgCsp]
  split
  · exact HeaderMap.get_insert_of_ne ne
  · rfl

lemma get_withLength_of_ne {contentLength : Option (List UInt8)} (ne : name ≠ "content-length") :
    (withLength headers contentLength).get name = headers.get name := by
  cases contentLength with
  | none => rfl
  | some length => exact HeaderMap.get_insert_of_ne ne

lemma get_pageHeaders_eq_none (unset : name ∉ ["content-type", "etag", "cache-control"]) :
    (pageHeaders contentType etag).get name = none := by
  simp only [List.mem_cons, List.not_mem_nil, or_false, not_or] at unset
  obtain ⟨type, tag, control⟩ := unset
  rw [pageHeaders, HeaderMap.get_insert_of_ne control, HeaderMap.get_insert_of_ne tag,
    HeaderMap.get_insert_of_ne type, HeaderMap.get_nil]

lemma get_notModifiedHeaders_eq_none (unset : name ∉ ["vary", "etag", "cache-control"]) :
    (notModifiedHeaders etag hasCompressed).get name = none := by
  simp only [List.mem_cons, List.not_mem_nil, or_false, not_or] at unset
  obtain ⟨vary, tag, control⟩ := unset
  rw [notModifiedHeaders, get_withVary_of_ne vary, HeaderMap.get_insert_of_ne control,
    HeaderMap.get_insert_of_ne tag, HeaderMap.get_nil]

end Headers

/-! ## Snapshots -/

/-- The pages of a snapshot. -/
abbrev Snapshot (C : Type) := String → Option C

/-- The last segment of a path. -/
def lastSegment (path : List Char) : List Char :=
  path.rtakeWhile (· ≠ '/')

def resolvePage (snapshot : Snapshot C) (key : String) : Option C :=
  match snapshot key with
  | some page => some page
  | none =>
    let trimmed := key.toList.rdropWhile (· = '/')
    let trailingSlash := key.toList.getLast? = some '/' ∧ 1 < key.length
    let noExt := '.' ∉ lastSegment trimmed
    let index :=
      if (trailingSlash ∨ noExt) ∧ trimmed ≠ "index.html".toList ∧
          ¬ "/index.html".toList <:+ trimmed then
        snapshot (if trimmed = [] then "index.html" else String.ofList trimmed ++ "/index.html")
      else none
    match index with
    | some page => some page
    | none =>
      if ¬ trailingSlash ∧ noExt ∧ trimmed ≠ [] then snapshot (String.ofList trimmed ++ ".html")
      else none

/-- The file name of a key has an extension. -/
def HasExtension (key : String) : Prop :=
  '.' ∈ lastSegment key.toList

/-- A path whose last segment is not empty does not end with a slash. -/
lemma getLast?_ne_slash {path : List Char} {c : Char} (h : c ∈ lastSegment path) :
    path.getLast? ≠ some '/' := by
  intro last
  have head : path.reverse.head? = some '/' := by rw [List.head?_reverse, last]
  obtain ⟨rest, eq⟩ := List.head?_eq_some_iff.mp head
  rw [lastSegment, List.rtakeWhile, eq, List.takeWhile_cons_of_neg (by decide)] at h
  cases h

/-- A key with an extension is not resolved to another page. -/
lemma resolvePage_of_ne_none {snapshot : Snapshot C} (there : snapshot key ≠ none) :
    resolvePage snapshot key = snapshot key := by
  obtain ⟨page, direct⟩ := Option.ne_none_iff_exists'.mp there
  simp only [resolvePage, direct]

lemma resolvePage_of_hasExtension {snapshot : Snapshot C} (h : HasExtension key) :
    resolvePage snapshot key = snapshot key := by
  have last := getLast?_ne_slash h
  have trimmed : key.toList.rdropWhile (· = '/') = key.toList := by
    rw [List.rdropWhile_eq_self_iff]
    intro ne slash
    rw [List.getLast?_eq_some_getLast ne, of_decide_eq_true slash] at last
    exact last rfl
  have ext : ¬ '.' ∉ lastSegment key.toList := not_not.mpr h
  rcases direct : snapshot key with - | page
  · simp only [resolvePage, direct, trimmed, last, ext, false_and, or_self, and_false, if_false]
  · simp only [resolvePage, direct]

end CherryPit.Web
