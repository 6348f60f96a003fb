import Authzoo.Lib.Outcome
import Authzoo.Oauth.Metadata
import Authzoo.Tree

/-!
# Authzoo.Server.Telemetry

Traces (`telemetry.rs`): the configuration and the middleware. The router, the application, the
propagator and the `url` crate are parameters.

* `TracesConfig.deserializeOptional_iff` : the configurations that are accepted.
* `traces_disclose` : what is exported about any number of requests depends on their methods, routes,
  trace headers and statuses, and on nothing else that they carry.
-/

namespace Authzoo.Server

open Oauth

/-! ## Configuration -/

structure RawTracesConfig where
  endpoint : String
  serviceName : Option String
  excludedPaths : List String

def RawTracesConfig.ofJson (json : Json) : Option RawTracesConfig := do
  let members ← json.members ["endpoint", "service-name", "excluded-paths"] 2
  let endpoint ← (members.lookup "endpoint").bind Json.asStr
  let serviceName ← Json.nullable Json.asStr (members.lookup "service-name")
  let excludedPaths ← (members.lookup "excluded-paths").elim (some []) (Json.list Json.asStr)
  return { endpoint, serviceName, excludedPaths }

structure TracesConfig where
  endpoint : String
  serviceName : String
  excludedPaths : List String

/-- A tree that is not read, in the words of its format, or a text of the application. -/
inductive TracesError where
  | malformed
  | custom (message : String)

namespace TracesConfig

/-- An endpoint that is a scheme, a host and perhaps a port. -/
def plainEndpoint (url : Url) : Bool :=
  !(!(url.scheme = "http" || url.scheme = "https") || url.hostStr.isNone ||
    !url.username.isEmpty || url.password.isSome || !(url.path = "" || url.path = "/") ||
    url.query.isSome || url.fragment.isSome)

def excludablePath (path : String) : Bool :=
  !(!Text.startsWith path "/" || Text.contains path '?' || Text.contains path '#')

variable (U : UrlCrate)

def validate (defaultServiceName : String) (raw : RawTracesConfig) :
    Except TracesError TracesConfig :=
  match U.parse raw.endpoint with
  | none => .error (.custom
      "Invalid traces.endpoint; expected an absolute HTTP(S) gRPC endpoint")
  | some endpoint =>
    if !plainEndpoint endpoint then
      .error (.custom ("Invalid traces.endpoint; use an HTTP(S) gRPC endpoint such as " ++
        "http://tempo:4317 without /v1/traces, credentials, query or fragment"))
    else
      let serviceName := raw.serviceName.getD defaultServiceName
      if (Text.trim serviceName).isEmpty then
        .error (.custom "Invalid traces.service-name; expected a non-empty string")
      else if raw.excludedPaths.any (!excludablePath ·) then
        .error (.custom ("Invalid traces.excluded-paths; " ++
          "expected absolute URL paths without query or fragment"))
      else .ok { endpoint := raw.endpoint, serviceName, excludedPaths := raw.excludedPaths }

def deserializeOptional (json : Json) (defaultServiceName : String) :
    Except TracesError (Option TracesConfig) :=
  match json with
  | .null => .ok none
  | json =>
    match RawTracesConfig.ofJson json with
    | none => .error .malformed
    | some raw => (validate U defaultServiceName raw).map some

structure WellFormed (config : TracesConfig) : Prop where
  endpoint : ∃ url, U.parse config.endpoint = some url ∧
    (url.scheme = "http" ∨ url.scheme = "https") ∧ url.hostStr ≠ none ∧ url.username = "" ∧
    url.password = none ∧ (url.path = "" ∨ url.path = "/") ∧ url.query = none ∧ url.fragment = none
  serviceName : Text.trim config.serviceName ≠ ""
  excludedPaths : ∀ path ∈ config.excludedPaths, (∃ rest, path.toList = '/' :: rest) ∧
    '?' ∉ path.toList ∧ '#' ∉ path.toList

variable {U}

theorem plainEndpoint_iff {url : Url} : plainEndpoint url = true ↔
    (url.scheme = "http" ∨ url.scheme = "https") ∧ url.hostStr ≠ none ∧ url.username = "" ∧
      url.password = none ∧ (url.path = "" ∨ url.path = "/") ∧ url.query = none ∧
      url.fragment = none := by
  simp only [plainEndpoint, Bool.not_eq_true', Bool.or_eq_false_iff, Bool.not_eq_false',
    Bool.or_eq_true, decide_eq_true_eq, Option.isNone_eq_false_iff, Option.isSome_iff_ne_none,
    Option.isSome_eq_false_iff, Option.isNone_iff_eq_none, String.isEmpty_iff, and_assoc]

theorem excludablePath_iff {path : String} : excludablePath path = true ↔
    (∃ rest, path.toList = '/' :: rest) ∧ '?' ∉ path.toList ∧ '#' ∉ path.toList := by
  have hstart : Text.startsWith path "/" = true ↔ ∃ rest, path.toList = '/' :: rest := by
    simp only [Text.startsWith, Option.isSome_iff_exists, Text.dropPrefix_eq_some]
    rfl
  simp only [excludablePath, Bool.not_eq_true', Bool.or_eq_false_iff, Bool.not_eq_false', hstart,
    Text.contains, List.contains_eq_mem, decide_eq_false_iff_not, and_assoc]

theorem validate_iff {raw : RawTracesConfig} {defaultServiceName : String} {config : TracesConfig} :
    validate U defaultServiceName raw = .ok config ↔
      config = ⟨raw.endpoint, raw.serviceName.getD defaultServiceName, raw.excludedPaths⟩ ∧
        config.WellFormed U := by
  have hname : ∀ name : String, ¬ (Text.trim name).isEmpty = true ↔ Text.trim name ≠ "" := by
    simp
  have hpaths : ∀ paths : List String, ¬ (paths.any (!excludablePath ·)) = true ↔
      ∀ path ∈ paths, excludablePath path = true := by
    simp
  unfold validate
  constructor
  · intro h
    cases hurl : U.parse raw.endpoint with
    | none =>
      rw [hurl] at h
      cases h
    | some url =>
      rw [hurl] at h
      simp only [Outcome.guard_eq_ok, Bool.not_eq_true', Bool.not_eq_false, hname, hpaths,
        Except.ok.injEq] at h
      obtain ⟨hplain, hservice, hexcluded, rfl⟩ := h
      exact ⟨rfl, ⟨url, hurl, plainEndpoint_iff.mp hplain⟩, hservice,
        fun path hpath => excludablePath_iff.mp (hexcluded path hpath)⟩
  · rintro ⟨rfl, ⟨url, hurl, hplain⟩, hservice, hexcluded⟩
    rw [hurl]
    simp only [Outcome.guard_eq_ok, Bool.not_eq_true', Bool.not_eq_false, hname, hpaths]
    exact ⟨plainEndpoint_iff.mpr hplain, hservice,
      fun path hpath => excludablePath_iff.mpr (hexcluded path hpath), trivial⟩

/-- Traces are configured by a well-formed table, and the service name may come from the
application. -/
theorem deserializeOptional_iff {json : Json} {defaultServiceName : String} {config : TracesConfig} :
    deserializeOptional U json defaultServiceName = .ok (some config) ↔
      ∃ raw, RawTracesConfig.ofJson json = some raw ∧
        config = ⟨raw.endpoint, raw.serviceName.getD defaultServiceName, raw.excludedPaths⟩ ∧
          config.WellFormed U := by
  simp only [← validate_iff]
  unfold deserializeOptional
  split
  · constructor
    · rintro ⟨⟩
    · rintro ⟨raw, hraw, -⟩
      cases hraw
  · cases RawTracesConfig.ofJson json with
    | none => simp
    | some raw => cases hv : validate U defaultServiceName raw <;> simp [Except.map, hv]

end TracesConfig

/-! ## Requests -/

/-- A request as the middleware gets it, with the route that the router matched. -/
structure Request (B : Type) where
  method : String
  path : String
  query : Option String
  headers : List (String × List UInt8)
  body : B
  matchedPath : Option String

structure Response (B : Type) where
  status : Nat
  headers : List (String × List UInt8)
  body : B

inductive Value where
  | string (s : String)
  | i64 (n : Int)

/-- A span as it is exported, without its random identifier and its times. -/
structure Span (C : Type) where
  name : String
  parent : C
  attributes : List (String × Value)
  error : Bool

structure RequestTracing where
  excludedPaths : List String

def RequestTracing.new (config : TracesConfig) : RequestTracing := ⟨config.excludedPaths⟩

namespace Headers

def get (headers : List (String × List UInt8)) (key : String) : Option String :=
  (headers.lookup key).bind headerText

/-- The names, each once. -/
def keys (headers : List (String × List UInt8)) : List String := (headers.map Prod.fst).eraseDups

end Headers

/-- `TraceContextPropagator::extract`, which sees headers through an `Extractor`. -/
def Propagator (C : Type) : Type := (String → Option String) → List String → C

/-- The propagator reads the two headers of the W3C trace context. -/
def Propagator.W3c {C : Type} (extract : Propagator C) : Prop :=
  ∀ get get' keys keys', get "traceparent" = get' "traceparent" →
    get "tracestate" = get' "tracestate" → extract get keys = extract get' keys'

section

variable {C B R : Type} (extract : Propagator C) (tracing : RequestTracing)

def requestAttributes (request : Request B) : List (String × Value) :=
  [("http.request.method", .string request.method)] ++
    match request.matchedPath with
    | none => []
    | some route =>
      (if !Text.contains route '\x7b' then [("url.path", .string request.path)] else []) ++
        [("http.route", .string route)]

/-- The response of the inner service, and the span that is exported. -/
def traceRequest (next : Request B → Response R) (request : Request B) :
    Response R × Option (Span C) :=
  if tracing.excludedPaths.contains request.path then (next request, none)
  else
    let response := next request
    (response, some
      { name := request.matchedPath.elim request.method fun route => request.method ++ " " ++ route
        parent := extract (Headers.get request.headers) (Headers.keys request.headers)
        attributes := requestAttributes request ++
          [("http.response.status_code", .i64 response.status)]
        error := 500 ≤ response.status ∧ response.status < 600 })

/-- What an application exports about requests, in the order in which they are done. -/
def exported (next : Request B → Response R) (requests : List (Request B)) : List (Span C) :=
  requests.filterMap fun request => (traceRequest extract tracing next request).2

end

/-! ## Disclosure -/

/-- What may be known about a request from its trace. -/
structure Disclosed where
  method : String
  route : Option String
  traceparent : Option String
  tracestate : Option String
  status : Nat
  deriving DecidableEq

section

variable {C B R : Type} {extract : Propagator C} {tracing : RequestTracing}

/-- An excluded request is not traced at all. -/
def Request.disclosed (tracing : RequestTracing) (request : Request B) (status : Nat) :
    Option Disclosed :=
  if tracing.excludedPaths.contains request.path then none
  else
    some
      { method := request.method, route := request.matchedPath
        traceparent := Headers.get request.headers "traceparent"
        tracestate := Headers.get request.headers "tracestate", status }

/-- A route without parameters matches its own path only. -/
def Request.Routed (request : Request B) : Prop :=
  ∀ route, request.matchedPath = some route → '\x7b' ∉ route.toList → request.path = route

/-- The span of a request of which only this is known. -/
def Disclosed.span (extract : Propagator C) (d : Disclosed) : Span C where
  name := d.route.elim d.method fun route => d.method ++ " " ++ route
  parent := extract
    (fun key => if key = "traceparent" then d.traceparent
      else if key = "tracestate" then d.tracestate else none) []
  attributes := [("http.request.method", .string d.method)] ++
    (match d.route with
      | none => []
      | some route => (if '\x7b' ∈ route.toList then [] else [("url.path", .string route)]) ++
          [("http.route", .string route)]) ++
    [("http.response.status_code", .i64 d.status)]
  error := 500 ≤ d.status ∧ d.status < 600

theorem traceRequest_disclosed (hextract : extract.W3c) {next : Request B → Response R}
    {request : Request B} (h : request.Routed) : (traceRequest extract tracing next request).2 =
      (request.disclosed tracing (next request).status).map (Disclosed.span extract) := by
  unfold traceRequest Request.disclosed
  split
  · rfl
  · have hattributes : requestAttributes request =
        [("http.request.method", .string request.method)] ++ match request.matchedPath with
        | none => []
        | some route => (if '\x7b' ∈ route.toList then [] else [("url.path", .string route)]) ++
            [("http.route", .string route)] := by
      unfold requestAttributes
      cases hmatched : request.matchedPath with
      | none => rfl
      | some route =>
        by_cases hparameter : '\x7b' ∈ route.toList
        · simp [Text.contains, hparameter]
        · simp [Text.contains, hparameter, h route hmatched hparameter]
    have hparent : extract (Headers.get request.headers) (Headers.keys request.headers) =
        extract (fun key => if key = "traceparent" then Headers.get request.headers "traceparent"
          else if key = "tracestate" then Headers.get request.headers "tracestate" else none) [] :=
      hextract _ _ _ _ (if_pos rfl).symm (by rw [if_neg (by decide), if_pos rfl])
    dsimp only
    rw [hattributes, hparent]
    rfl

theorem exported_disclosed (hextract : extract.W3c) {next : Request B → Response R}
    {requests : List (Request B)} (h : ∀ request ∈ requests, request.Routed) :
    exported extract tracing next requests =
      (requests.filterMap fun request => request.disclosed tracing (next request).status).map
        (Disclosed.span extract) := by
  rw [exported, List.map_filterMap]
  exact List.filterMap_congr fun request hin => traceRequest_disclosed hextract (h request hin)

/-- Queries, bodies, other headers and the values in a path never reach the collector, and neither
does anything about an excluded request: two applications export the same spans about requests that
are alike in what may be disclosed. -/
theorem traces_disclose {B' R' : Type} (hextract : extract.W3c) {next : Request B → Response R}
    {next' : Request B' → Response R'} {requests : List (Request B)} {requests' : List (Request B')}
    (h : ∀ request ∈ requests, request.Routed) (h' : ∀ request ∈ requests', request.Routed)
    (hsame : (requests.filterMap fun request => request.disclosed tracing (next request).status) =
      requests'.filterMap fun request => request.disclosed tracing (next' request).status) :
    exported extract tracing next requests = exported extract tracing next' requests' := by
  rw [exported_disclosed hextract h, exported_disclosed hextract h', hsame]

-- An invitation and a query differ, and a health check stands between.
section

def invitation (token query : String) : Request String where
  method := "GET"
  path := "/accept/" ++ token
  query := some query
  headers := [("cookie", token.toUTF8.toList)]
  body := token
  matchedPath := some "/accept/\x7btoken\x7d"

def healthz : Request String where
  method := "GET"
  path := "/healthz"
  query := none
  headers := []
  body := ""
  matchedPath := some "/healthz"

def traceparentOnly : Propagator (Option String) := fun get _ => get "traceparent"

def answer (request : Request String) : Response String := ⟨200, [], request.body⟩

theorem traces_disclose_invitation :
    let tracing := RequestTracing.new ⟨"http://tempo:4317", "authzoo", ["/healthz"]⟩
    exported traceparentOnly tracing answer [invitation "a1" "code=s1", healthz] =
      exported traceparentOnly tracing answer [invitation "b2" "code=s2"] := by
  have hinvitation : ∀ token query, (invitation token query).Routed := by
    intro token query route hroute hstatic
    obtain rfl := Option.some.inj hroute
    exact absurd (by decide) hstatic
  have hhealthz : healthz.Routed := fun _ hroute _ => Option.some.inj hroute
  refine traces_disclose (fun _ _ _ _ h _ => h) ?_ ?_ (by decide +kernel)
  · simp [hinvitation, hhealthz]
  · simp [hinvitation]

end

end

end Authzoo.Server
