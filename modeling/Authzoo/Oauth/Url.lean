import Authzoo.Lib.HttpUrl
import Authzoo.Lib.Text

/-!
# Authzoo.Oauth.Url

Addresses of the standard library, and the `url` crate. The crate is not part of the repository, so
it is a parameter (`UrlCrate`). What the code relies on is the URL standard's treatment of texts that
start with `http://`, the hypothesis `UrlCrate.Whatwg`; hosts, user names, paths and queries stay
functions of their texts.
-/

namespace Authzoo.Oauth

structure Ipv4Addr where
  a : UInt8
  b : UInt8
  c : UInt8
  d : UInt8
  deriving DecidableEq

structure Ipv6Addr where
  s0 : UInt16
  s1 : UInt16
  s2 : UInt16
  s3 : UInt16
  s4 : UInt16
  s5 : UInt16
  s6 : UInt16
  s7 : UInt16
  deriving DecidableEq

def Ipv4Addr.isLoopback (ip : Ipv4Addr) : Bool := ip.a = 127

def Ipv6Addr.isLoopback (ip : Ipv6Addr) : Bool := ip = ⟨0, 0, 0, 0, 0, 0, 0, 1⟩

inductive Host where
  | domain (name : String)
  | ipv4 (ip : Ipv4Addr)
  | ipv6 (ip : Ipv6Addr)
  deriving DecidableEq

/-- The test that `valid_redirect` and `loopback_without_port` share. -/
def Host.isLoopback : Host → Bool
  | .domain name => name = "localhost"
  | .ipv4 ip => ip.isLoopback
  | .ipv6 ip => ip.isLoopback

/-- A host and its serialisation. -/
structure HostPart where
  host : Host
  text : String
  deriving DecidableEq

/-- A parsed URL. `port` is `none` for the scheme's default port. -/
structure Url where
  scheme : String
  username : String
  password : Option String
  hostPart : Option HostPart
  port : Option Nat
  path : String
  query : Option String
  fragment : Option String
  deriving DecidableEq

namespace Url

def host (url : Url) : Option Host := url.hostPart.map (·.host)

def hostStr (url : Url) : Option String := url.hostPart.map (·.text)

def portOrKnownDefault (url : Url) : Option Nat :=
  match url.port with
  | some port => some port
  | none => if url.scheme = "https" then some 443 else if url.scheme = "http" then some 80 else none

end Url

structure UrlCrate where
  parse : String → Option Url
  parseHost : List Char → Option HostPart
  encodeUserinfo : List Char → String × Option String
  parsePath : List Char → String
  encodeQuery : List Char → String
  encodeFragment : List Char → String

namespace UrlCrate

variable (U : UrlCrate)

def parsePort : Option (List Char) → Option (Option Nat)
  | none | some [] => some none
  | some digits =>
    if digits.all Char.isDigit ∧ Text.decimal digits ≤ 65535 then
      some (if Text.decimal digits = 80 then none else some (Text.decimal digits))
    else none

/-- The URL standard's parser for a text that continues `http://`. -/
def http (rest : List Char) : Option Url :=
  let parts := HttpUrl.split rest
  match U.parseHost parts.host, parsePort parts.port with
  | some hostPart, some port =>
    let userinfo := (parts.userinfo.map U.encodeUserinfo).getD ("", none)
    some
      { scheme := "http", username := userinfo.1, password := userinfo.2, hostPart := some hostPart
        port, path := U.parsePath parts.path, query := parts.query.map U.encodeQuery
        fragment := parts.fragment.map U.encodeFragment }
  | _, _ => none

/-- The crate follows the URL standard on `http://`: a host is not empty, has no blanks and closes
its bracket, and a user name that is not empty stays so. -/
structure Whatwg : Prop where
  http : ∀ rest, U.parse (.ofList ("http://".toList ++ rest)) = U.http rest
  host : ∀ text hostPart, U.parseHost text = some hostPart → HttpUrl.Plausible text
  username : ∀ c s, c ≠ ':' → (U.encodeUserinfo (c :: s)).1 ≠ ""

variable {U}

theorem http_eq_some {rest : List Char} {url : Url} : U.http rest = some url ↔
    ∃ hostPart port, U.parseHost (HttpUrl.split rest).host = some hostPart ∧
      parsePort (HttpUrl.split rest).port = some port ∧
      url =
        { scheme := "http"
          username := (((HttpUrl.split rest).userinfo.map U.encodeUserinfo).getD ("", none)).1
          password := (((HttpUrl.split rest).userinfo.map U.encodeUserinfo).getD ("", none)).2
          hostPart := some hostPart, port, path := U.parsePath (HttpUrl.split rest).path
          query := (HttpUrl.split rest).query.map U.encodeQuery
          fragment := (HttpUrl.split rest).fragment.map U.encodeFragment } := by
  simp only [http]
  constructor
  · intro h
    split at h
    · rename_i hostPart port hhost hport
      exact ⟨hostPart, port, hhost, hport, (Option.some.inj h).symm⟩
    · cases h
  · rintro ⟨hostPart, port, hhost, hport, rfl⟩
    simp only [hhost, hport]

theorem http_some {rest : List Char} {url : Url} (h : U.http rest = some url) :
    url.scheme = "http" ∧ url.hostPart = U.parseHost (HttpUrl.split rest).host ∧
      url.hostPart.isSome ∧
      url.username = (((HttpUrl.split rest).userinfo.map U.encodeUserinfo).getD ("", none)).1 ∧
      url.path = U.parsePath (HttpUrl.split rest).path ∧
      url.query = (HttpUrl.split rest).query.map U.encodeQuery := by
  obtain ⟨hostPart, port, hhost, -, rfl⟩ := http_eq_some.mp h
  exact ⟨rfl, hhost.symm, rfl, rfl, rfl, rfl⟩

theorem http_anonymous (hU : U.Whatwg) {rest : List Char} {url : Url} (h : U.http rest = some url)
    (hname : url.username = "") : HttpUrl.Anonymous (HttpUrl.split rest).userinfo := by
  intro c s hui
  obtain ⟨-, -, -, husername, -⟩ := http_some h
  rw [hui, hname] at husername
  by_contra hc
  exact hU.username c s hc husername.symm

/-- A crate for runs on fixed texts: it knows the host `127.0.0.1`, and other schemes by a table. -/
def sample (others : String → Option Url) : UrlCrate :=
  let U : UrlCrate :=
    { parse := others
      parseHost := fun text =>
        if text = "127.0.0.1".toList then some ⟨.ipv4 ⟨127, 0, 0, 1⟩, "127.0.0.1"⟩ else none
      encodeUserinfo := fun text =>
        (.ofList (text.takeWhile (· ≠ ':')), (HttpUrl.after (text.dropWhile (· ≠ ':'))).map .ofList)
      parsePath := fun text =>
        if text = [] then "/" else .ofList (text.map fun c => if c = '\\' then '/' else c)
      encodeQuery := .ofList
      encodeFragment := .ofList }
  { U with
    parse := fun text =>
      match text.toList.dropPrefix? "http://".toList with
      | some rest => U.http rest
      | none => others text }

theorem sample_http (others : String → Option Url) (rest : List Char) :
    (sample others).parse (.ofList ("http://".toList ++ rest)) = (sample others).http rest := by
  have hdrop : (String.ofList ("http://".toList ++ rest)).toList.dropPrefix? "http://".toList =
      some rest := Text.dropPrefix_eq_some.mpr String.toList_ofList
  simp only [sample]
  rw [hdrop]
  rfl

theorem sample_whatwg (others : String → Option Url) : (sample others).Whatwg where
  http := sample_http others
  host := by
    intro text hostPart h
    obtain ⟨rfl, -⟩ := Option.ite_none_right_eq_some.mp h
    have hsolid : "127.0.0.1".toList.all (!HttpUrl.isBlank ·) = true := by decide
    exact ⟨by decide, fun c hc => by simpa using List.all_eq_true.mp hsolid c hc, by decide⟩
  username := by
    intro c s hc h
    have hchars : (String.ofList ((c :: s).takeWhile (· ≠ ':'))).toList = "".toList :=
      congrArg String.toList h
    rw [String.toList_ofList, List.takeWhile_cons_of_pos (by simpa using hc)] at hchars
    cases hchars

end UrlCrate

end Authzoo.Oauth
