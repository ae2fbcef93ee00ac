import CherryPit.Web.Pages

/-!
# The surfaces

Port of the handlers that answer with a page and of the layers around them: `cache_fallback`
(`serve/runtime.rs`) under `security_headers` (`middleware/security.rs`), and `snapshot_get` under
`projection_default_csp` (`projection/handlers.rs`). A request is given by its method, its headers
and its path after normalisation; the layers that bound requests are left out.

An SVG document is to be answered under a policy that blocks scripts. The serve surface sets this
policy in the headers of the page but not in those of a 304, and the projection surface does not set
it at all (`svg_policy_iff`).
-/

namespace CherryPit.Web

variable {C : Type} (codecs : Codecs) {response : Response}

/-- Rust `ServeOptions`. -/
structure ServeOptions where
  cspOverride : Option (List UInt8)
  errorPageKey : Option String
  enforceZstd : Bool

/-- The policy of the serve surface. -/
def ServeOptions.csp (options : ServeOptions) : List UInt8 :=
  options.cspOverride.getD defaultCsp

/-- A request, with its path after normalisation. -/
structure Request where
  method : String
  key : Option String
  headers : HeaderMap

/-- A text as a response. -/
def textResponse (status : Nat) (text : List UInt8) : Response :=
  ⟨status, HeaderMap.insert [] "content-type" (bytes "text/plain; charset=utf-8"), text⟩

def Response.withHeader (response : Response) (name value : String) : Response :=
  { response with headers := response.headers.insert name (bytes value) }

def methodNotAllowed : Response :=
  (textResponse 405 (bytes "method not allowed")).withHeader "allow" "GET, HEAD"

/-- The page of a surface without pages. -/
def initializingPage : String :=
  "<!DOCTYPE html><html lang=\"en\"><head><meta charset=\"utf-8\">" ++
  "<meta name=\"viewport\" content=\"width=device-width, initial-scale=1\">" ++
  "<meta http-equiv=\"refresh\" content=\"5\"><title>gh-report — Initializing</title><style>" ++
  "body \x7b font-family: -apple-system, BlinkMacSystemFont, \"Segoe UI\", Roboto, sans-serif; " ++
  "background: #0f172a; color: #f8fafc; display: flex; align-items: center; " ++
  "justify-content: center; min-height: 100vh; margin: 0; \x7d" ++
  ".card \x7b background: #1e293b; padding: 2.5rem; border-radius: 1rem; " ++
  "border: 1px solid #334155; text-align: center; max-width: 480px; " ++
  "box-shadow: 0 10px 25px -5px rgba(0,0,0,0.3); \x7d" ++
  "h1 \x7b font-size: 1.5rem; margin-bottom: 0.75rem; color: #38bdf8; \x7d" ++
  "p \x7b color: #94a3b8; font-size: 1rem; line-height: 1.5; margin-bottom: 1.5rem; \x7d" ++
  ".spinner \x7b width: 40px; height: 40px; border: 3px solid #334155; " ++
  "border-top-color: #38bdf8; border-radius: 50%; animation: spin 1s linear infinite; " ++
  "margin: 0 auto 1.5rem; \x7d" ++
  "@keyframes spin \x7b to \x7b transform: rotate(360deg); \x7d \x7d" ++
  "</style></head><body><div class=\"card\"><div class=\"spinner\"></div>" ++
  "<h1>Initializing Report</h1><p>The initial collection is in progress. This page will " ++
  "automatically refresh as soon as evidence is published.</p></div></body></html>"

/-- The pages of the serve surface. -/
abbrev PageCache := String → Option CachedPage

def cacheFallback (options : ServeOptions) (cache : Option PageCache) (request : Request) :
    Response :=
  if request.method ≠ "GET" ∧ request.method ≠ "HEAD" then methodNotAllowed
  else match request.key with
  | none => textResponse 400 (bytes "bad request")
  | some key =>
    if options.enforceZstd = true ∧ key ≠ "index.html" ∧
        acceptedEncoding codecs request.headers ≠ .zstd then
      textResponse 406 (bytes "must support zstd level 19 compression")
    else match cache with
    | none => (textResponse 503 initializingPage.toUTF8.toList).withHeader "content-type"
        "text/html; charset=utf-8"
    | some cache =>
      match cache key with
      | some page => page.servePage codecs request.headers 200 false
      | none =>
        match options.errorPageKey.bind cache with
        | some errorPage => errorPage.servePage codecs request.headers 404 true
        | none => textResponse 404 (bytes "not found")

def securityHeaders (csp : List UInt8) (response : Response) : Response :=
  let headers := (response.headers.insert "x-frame-options" (bytes "DENY")).insert
    "x-content-type-options" (bytes "nosniff")
  let headers := if headers.containsKey "content-security-policy" then headers
    else headers.insert "content-security-policy" csp
  { response with
    headers := ((headers.insert "referrer-policy" (bytes "no-referrer")).insert
      "permissions-policy" (bytes "camera=(), microphone=(), geolocation=()")).insert
      "strict-transport-security" (bytes "max-age=63072000; includeSubDomains") }

def snapshotGet (snapshot : Option (Snapshot PageEntry)) (request : Request) : Response :=
  if request.method ≠ "GET" ∧ request.method ≠ "HEAD" then methodNotAllowed
  else match snapshot with
  | none => textResponse 503 (bytes "snapshot not yet available")
  | some snapshot =>
    match request.key.bind (resolvePage snapshot) with
    | some page => page.servePage codecs request.headers 200
    | none => textResponse 404 (bytes "not found")

def projectionDefaultCsp (response : Response) : Response :=
  if response.headers.containsKey "content-security-policy" then response
  else { response with
    headers := response.headers.insert "content-security-policy" defaultCsp }

/-- A surface with what it has to serve. -/
inductive Surface where
  | serve (options : ServeOptions) (cache : Option PageCache)
  | projection (snapshot : Option (Snapshot PageEntry))

/-- The answer of a surface, under its own layer. -/
def Surface.respond : Surface → Request → Response
  | .serve options cache, request =>
    securityHeaders options.csp (cacheFallback codecs options cache request)
  | .projection snapshot, request => projectionDefaultCsp (snapshotGet codecs snapshot request)

/-- What a request finds on a surface is the page of a file, as the error page or as itself. -/
def Surface.Finds (filename : List Char) (body : List UInt8) (asError : Bool) :
    Surface → Request → Prop
  | .serve options (some cache), request => ∃ key, request.key = some key ∧
      if asError then cache key = none ∧
        options.errorPageKey.bind cache = some (.new codecs filename body)
      else cache key = some (.new codecs filename body)
  | .projection (some snapshot), request => asError = false ∧
      request.key.bind (resolvePage snapshot) = some (.new codecs filename body)
  | _, _ => False

/-- The policy of a response. -/
def Response.policy (response : Response) : Option (List UInt8) :=
  response.headers.get "content-security-policy"

/-! ## The layers -/

/-- The layer of the serve surface keeps a policy that is there. -/
lemma securityHeaders_policy {csp : List UInt8} :
    (securityHeaders csp response).policy = some (response.policy.getD csp) := by
  have inner : ((response.headers.insert "x-frame-options" (bytes "DENY")).insert
      "x-content-type-options" (bytes "nosniff")).get "content-security-policy" =
      response.policy := by
    rw [HeaderMap.get_insert_of_ne (by decide), HeaderMap.get_insert_of_ne (by decide)]
    rfl
  rw [securityHeaders, Response.policy, HeaderMap.get_insert_of_ne (by decide),
    HeaderMap.get_insert_of_ne (by decide), HeaderMap.get_insert_of_ne (by decide),
    HeaderMap.containsKey, inner]
  cases policy : response.policy with
  | none => simp
  | some value => simp [inner, policy]

/-- So does the layer of the projection surface. -/
lemma projectionDefaultCsp_policy :
    (projectionDefaultCsp response).policy = some (response.policy.getD defaultCsp) := by
  have inner : response.headers.get "content-security-policy" = response.policy := rfl
  rw [projectionDefaultCsp, HeaderMap.containsKey, inner]
  cases policy : response.policy with
  | none => simp [Response.policy]
  | some value => simp [policy]

lemma securityHeaders_status {csp : List UInt8} :
    (securityHeaders csp response).status = response.status :=
  rfl

lemma projectionDefaultCsp_status : (projectionDefaultCsp response).status = response.status := by
  unfold projectionDefaultCsp
  split <;> rfl

/-! ## SVG documents -/

section Svg

variable {filename : List Char} {body : List UInt8} {requestHeaders : HeaderMap} {status : Nat}
  {headers : HeaderMap} {request : Request} {page : PageEntry}

/-- The file is an SVG document. -/
def IsSvg (filename : List Char) : Prop :=
  contentTypeForExt (extension filename) = bytes "image/svg+xml"

lemma withSvgCsp_policy (svg : IsSvg filename) :
    (withSvgCsp headers (contentTypeForExt (extension filename))).get "content-security-policy" =
      some svgCsp := by
  unfold IsSvg at svg
  rw [withSvgCsp, if_pos svg, HeaderMap.get_insert_self]

lemma CachedPage.variant_headers {page : CachedPage} {encoding : Encoding} {served : List UInt8}
    (eq : page.variant codecs encoding = some (served, headers)) :
    headers = page.headersZstd ∨ headers = page.headersRaw := by
  unfold CachedPage.variant at eq
  split at eq
  · cases eq
    exact .inl rfl
  · obtain ⟨b, -, eq⟩ := Option.map_eq_some_iff.mp eq
    cases eq
    exact .inr rfl

/-- On the serve surface the page of an SVG document brings its policy, but a 304 does not. -/
lemma CachedPage.servePage_policy (svg : IsSvg filename) {skip : Bool}
    (served : ((CachedPage.new codecs filename body).servePage codecs requestHeaders status
      skip).status ≠ 500) :
    ((CachedPage.new codecs filename body).servePage codecs requestHeaders status skip).policy =
      if skip = false ∧ ifNoneMatchMatches requestHeaders (computeEtag codecs body) = true then none
      else some svgCsp := by
  have raw : (CachedPage.new codecs filename body).headersRaw.get "content-security-policy" =
      some svgCsp := withSvgCsp_policy svg
  have zstd : (CachedPage.new codecs filename body).headersZstd.get "content-security-policy" =
      some svgCsp := withSvgCsp_policy svg
  have etag : (CachedPage.new codecs filename body).etag = computeEtag codecs body := rfl
  unfold CachedPage.servePage at served ⊢
  rw [etag] at served ⊢
  split
  · exact get_notModifiedHeaders_eq_none (by decide)
  next fresh =>
    rw [if_neg fresh] at served
    split
    next headers eq =>
      rcases CachedPage.variant_headers codecs eq with rfl | rfl
      · exact zstd
      · exact raw
    next none =>
      rw [none] at served
      exact absurd rfl served

/-- On the projection surface no page has a policy of its own. -/
lemma PageEntry.servePage_policy : (page.servePage codecs requestHeaders status).policy = none := by
  unfold PageEntry.servePage Response.policy
  split
  · exact get_notModifiedHeaders_eq_none (by decide)
  · have page {contentLength : Option (List UInt8)} : (withLength (pageHeaders page.contentType
        page.etag) contentLength).get "content-security-policy" = none := by
      rw [get_withLength_of_ne (by decide), get_pageHeaders_eq_none (by decide)]
    split
    · rw [get_withVary_of_ne (by decide), HeaderMap.get_insert_of_ne (by decide), page]
    · rw [get_withVary_of_ne (by decide), page]

/-- The statuses of a page, of an error page and of an unchanged page. -/
def pageStatuses : List Nat := [200, 404, 304]

lemma ne_500_of_mem (served : status ∈ pageStatuses) : status ≠ 500 := by
  rintro rfl
  exact absurd served (by decide)

/-- A request the serve surface answers with a page has passed the checks before the lookup. -/
lemma cacheFallback_lookup {options : ServeOptions} {cache : PageCache} {key : String}
    (asked : request.key = some key)
    (served : (cacheFallback codecs options (some cache) request).status ∈ pageStatuses) :
    cacheFallback codecs options (some cache) request =
      match cache key with
      | some page => page.servePage codecs request.headers 200 false
      | none =>
        match options.errorPageKey.bind cache with
        | some errorPage => errorPage.servePage codecs request.headers 404 true
        | none => textResponse 404 (bytes "not found") := by
  unfold cacheFallback at served ⊢
  split
  next method =>
    rw [if_pos method] at served
    exact absurd served (by decide)
  next method =>
    rw [if_neg method] at served
    simp only [asked] at served ⊢
    split
    next refused =>
      rw [if_pos refused] at served
      exact absurd served (by decide)
    next => rfl

/-- What the projection surface answers when the page asked for is there. -/
lemma snapshotGet_page {snapshot : Snapshot PageEntry}
    (found : request.key.bind (resolvePage snapshot) = some page)
    (served : (snapshotGet codecs (some snapshot) request).status ∈ pageStatuses) :
    snapshotGet codecs (some snapshot) request = page.servePage codecs request.headers 200 := by
  unfold snapshotGet at served ⊢
  split
  next method =>
    rw [if_pos method] at served
    exact absurd served (by decide)
  next => simp only [found]

lemma defaultCsp_ne_svgCsp : defaultCsp ≠ svgCsp := by
  intro eq
  -- what stands between the first quotes
  have first := congrArg (fun policy => policy[13]?) eq
  exact absurd first (by decide +kernel)

/-- Whether a surface answers a request under the policy of SVG documents: only the serve surface
does, and when it says that the page has not changed only if that is its policy for all pages. -/
def Surface.Blocks (body : List UInt8) (asError : Bool) : Surface → Request → Prop
  | .serve options _, request => asError = true ∨
      ifNoneMatchMatches request.headers (computeEtag codecs body) = false ∨ options.csp = svgCsp
  | .projection _, _ => False

/-- When an SVG document is served under the policy that blocks scripts. -/
theorem svg_policy_iff (surface : Surface) (request : Request) (asError : Bool)
    (svg : IsSvg filename) (finds : surface.Finds codecs filename body asError request)
    (served : (surface.respond codecs request).status ∈ pageStatuses) :
    (surface.respond codecs request).policy = some svgCsp ↔
      surface.Blocks codecs body asError request := by
  match surface with
  | .serve options none => exact finds.elim
  | .projection none => exact finds.elim
  | .serve options (some cache) =>
    obtain ⟨key, asked, found⟩ := finds
    rw [Surface.respond, securityHeaders_status] at served
    have answer := cacheFallback_lookup codecs asked served
    rw [Surface.respond, securityHeaders_policy, answer]
    rw [answer] at served
    cases asError with
    | false =>
      rw [if_neg Bool.false_ne_true] at found
      simp only [found] at served ⊢
      rw [CachedPage.servePage_policy codecs svg (ne_500_of_mem served), Surface.Blocks]
      by_cases unchanged : ifNoneMatchMatches request.headers (computeEtag codecs body) = true
      · simp [unchanged]
      · simp [unchanged]
    | true =>
      rw [if_pos rfl] at found
      simp only [found.1, found.2] at served ⊢
      rw [CachedPage.servePage_policy codecs svg (ne_500_of_mem served), Surface.Blocks]
      simp
  | .projection (some snapshot) =>
    obtain ⟨-, found⟩ := finds
    rw [Surface.respond, projectionDefaultCsp_status] at served
    rw [Surface.respond, projectionDefaultCsp_policy, snapshotGet_page codecs found served,
      PageEntry.servePage_policy, Option.getD_none, Option.some_inj]
    exact iff_of_false defaultCsp_ne_svgCsp not_false

/-- A stand-in for the libraries, without compression. -/
def plainCodecs : Codecs where
  sha256 _ := List.replicate 32 0
  zstdEncode _ := none
  zstdDecode _ _ := none
  parseF32 _ := none

/-- Pages with one document, as the two surfaces hold them. -/
def logoCache : PageCache := fun key =>
  if key = "logo.svg" then some (.new plainCodecs "logo.svg".toList (bytes "<svg/>")) else none

def logoSnapshot : Snapshot PageEntry := fun key =>
  if key = "logo.svg" then some (.new plainCodecs "logo.svg".toList (bytes "<svg/>")) else none

def logoServed : Surface := .serve ⟨none, none, false⟩ (some logoCache)

def logoProjected : Surface := .projection (some logoSnapshot)

def logoRequest (headers : HeaderMap) : Request := ⟨"GET", some "logo.svg", headers⟩

/-- A first request to the serve surface is answered under the policy. -/
theorem svg_policy_iff_served :
    (logoServed.respond plainCodecs (logoRequest [])).status ∈ pageStatuses ∧
      (logoServed.respond plainCodecs (logoRequest [])).policy = some svgCsp := by
  have found : logoServed.Finds plainCodecs "logo.svg".toList (bytes "<svg/>") false
      (logoRequest []) := ⟨"logo.svg", rfl, rfl⟩
  have status : (logoServed.respond plainCodecs (logoRequest [])).status ∈ pageStatuses :=
    List.mem_cons_self
  have svg : IsSvg "logo.svg".toList := rfl
  exact ⟨status, (svg_policy_iff plainCodecs logoServed _ false svg found status).mpr
    (.inr (.inl rfl))⟩

/-- Asked whether the document has changed, the serve surface answers under the policy of other
pages, and so does the projection surface with the document itself. -/
theorem svg_under_default_policy :
    (logoServed.respond plainCodecs (logoRequest [("if-none-match", bytes "*")])).status = 304 ∧
    (logoServed.respond plainCodecs (logoRequest [("if-none-match", bytes "*")])).policy =
      some defaultCsp ∧
    (logoProjected.respond plainCodecs (logoRequest [])).status = 200 ∧
    (logoProjected.respond plainCodecs (logoRequest [])).policy = some defaultCsp ∧
    defaultCsp ≠ svgCsp := by
  refine ⟨rfl, ?_, rfl, ?_, defaultCsp_ne_svgCsp⟩
  · have unset : (cacheFallback plainCodecs ⟨none, none, false⟩ (some logoCache)
        (logoRequest [("if-none-match", bytes "*")])).policy = none := rfl
    rw [logoServed, Surface.respond, securityHeaders_policy, unset]
    rfl
  · have unset : (snapshotGet plainCodecs (some logoSnapshot) (logoRequest [])).policy = none := rfl
    rw [logoProjected, Surface.respond, projectionDefaultCsp_policy, unset]
    rfl

end Svg

end CherryPit.Web
