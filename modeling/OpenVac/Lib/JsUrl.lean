/-
  File:      OpenVac/Lib/JsUrl.lean
  Subject:   URLs of the host: what `new URL(text)` yields, and case mapping of host names.

  * `UrlParser` -- the parser itself is a parameter.
  * `Url.withoutHash` -- `url.hash = ""`: the serialized form ends before its first `#`.
-/
import OpenVac.Lib.JsString

namespace JsUrl

open JsString

/-- What `new URL(text)` yields, with the keys of its query. -/
structure Url where
  href : Text
  protocol : Text
  username : Text
  password : Text
  hostname : Text
  port : Text
  searchKeys : List Text
  deriving DecidableEq, Repr

/-- The URL parser of the host; `none` where it throws. -/
class UrlParser where
  parse : Text → Option Url

/-- `new URL(text, base)` of the host. -/
class UrlResolver where
  resolve : Text → Url → Option Url

def Url.withoutHash (url : Url) : Url := { url with href := url.href.takeWhile (· != '#') }

/-- The case tables of the host: `toLowerCase()`. -/
class CaseTables where
  toLowerCase : Text → Text

theorem Url.withoutHash_of_not_mem {url : Url} (h : '#' ∉ url.href) : url.withoutHash = url := by
  have hall : url.href.takeWhile (· != '#') = url.href := by
    rw [List.takeWhile_eq_self_iff]
    intro c hc
    have hne : c ≠ '#' := fun e => h (e ▸ hc)
    simpa using hne
  unfold withoutHash
  rw [hall]

end JsUrl
