/-
  File:      OpenVac/Knowledge/WebFetch.lean
  Subject:   The fetcher of evidence pages: `SafeWebFetcher` of server/knowledge/web-fetch.ts.

  * The world outside is a parameter: the answer of every DNS lookup and of every request, by the
    number of the hop.
  * A fetch yields its result and the connections it opened.
  * The https module connects to a literal host itself and to what the pinned lookup says for any
    other host.
-/
import OpenVac.Knowledge.IpAddress

namespace OpenVac.Knowledge

open JsString JsUrl

structure ResolvedAddress where
  address : Text
  family : Nat
  deriving DecidableEq, Repr

/-- An answer to a request; `none` for a header that is absent. -/
structure Response where
  status : Nat
  location : Option Text
  contentEncoding : Option Text
  contentType : Option Text
  contentLength : Option Nat
  body : List UInt8
  deriving DecidableEq, Repr

/-- Why a fetch ends without a page. -/
inductive FetchError where
  | emptyWhitelist
  | invalidUrl
  | urlTooLong
  | notHttps
  | credentials
  | port
  | outsideWhitelist
  | redirectLoop
  | dnsFailed
  | noAddress
  | reservedAddress
  | requestFailed
  | httpStatus (status : Nat)
  | compressed
  | contentType
  | tooLarge
  | redirectLimit
  deriving DecidableEq, Repr

/-- What the network answers, by the number of the hop; `none` for a failure, a timeout or a
    cancellation. -/
structure Network where
  dns : Nat → Text → Option (List ResolvedAddress)
  request : Nat → Url → ResolvedAddress → Option Response

/-- A connection: where it went, and the addresses checked for its hop. -/
structure Connection where
  hop : Nat
  url : Url
  checked : List ResolvedAddress
  target : ResolvedAddress
  deriving DecidableEq, Repr

structure FetchResult where
  url : Text
  status : Nat
  contentType : Text
  body : List UInt8
  deriving DecidableEq, Repr

structure FetcherOptions where
  allowedDomains : List Text
  maxBytes : Nat
  maxRedirects : Nat

def ALLOWED_CONTENT_TYPES : List Text :=
  ["text/html".toList, "text/plain".toList, "application/xhtml+xml".toList,
   "application/json".toList]

/-- A host name without its leading and trailing dots. -/
def stripDots (hostname : Text) : Text :=
  (hostname.dropWhile (· == '.')).rdropWhile (· == '.')

section Host

variable [CaseTables] [UrlParser]

def normalizeDomain (value : Text) : Text :=
  let trimmed := CaseTables.toLowerCase (trim value)
  if trimmed.isEmpty then []
  else if includes trimmed "://".toList then
    match UrlParser.parse trimmed with
    | none => []
    | some url => stripDots url.hostname
  else stripDots trimmed

def normalizeDomains (domains : List Text) : List Text :=
  (domains.map normalizeDomain).filter fun domain => !domain.isEmpty

def hostnameAllowed (hostname : Text) (allowedDomains : List Text) : Bool :=
  let normalized := normalizeDomain hostname
  allowedDomains.any fun allowed => normalized == allowed || decide ('.' :: allowed <:+ normalized)

def validateFetchUrl (input : Text) (allowedDomains : List Text) : Except FetchError Url :=
  match UrlParser.parse input with
  | none => .error .invalidUrl
  | some url =>
      if 2048 < utf16Length url.href then .error .urlTooLong
      else if url.protocol ≠ "https:".toList then .error .notHttps
      else if url.username ≠ [] ∨ url.password ≠ [] then .error .credentials
      else if url.port ≠ [] ∧ url.port ≠ "443".toList then .error .port
      else if hostnameAllowed url.hostname (normalizeDomains allowedDomains) = false then
        .error .outsideWhitelist
      else .ok url.withoutHash

variable [NetAddress]

def assertSafeResolvedAddresses (addresses : List ResolvedAddress) : Except FetchError Unit :=
  if addresses = [] then .error .noAddress
  else if addresses.any fun result =>
      (result.family != 4 && result.family != 6) ||
        NetAddress.isIP result.address != result.family || !isPublicIpAddress result.address then
    .error .reservedAddress
  else .ok ()

/-- A literal host resolves to itself, others by DNS. -/
def defaultResolver (network : Network) (hop : Nat) (hostname : Text) :
    Option (List ResolvedAddress) :=
  if NetAddress.isIP hostname ≠ 0 then
    some [{ address := hostname, family := NetAddress.isIP hostname }]
  else network.dns hop hostname

/-- The host of the request's options: brackets are stripped. -/
def requestHost (hostname : Text) : Text :=
  if hostname.head? = some '[' then hostname.tail.dropLast else hostname

/-- The lookup of the request's options answers with the checked address whatever it is asked. -/
def createPinnedLookup (address : ResolvedAddress) : Text → ResolvedAddress := fun _ => address

/-- Where the https module connects to. -/
def connectTarget (url : Url) (lookup : Text → ResolvedAddress) : ResolvedAddress :=
  let host := requestHost url.hostname
  if NetAddress.isIP host ≠ 0 then { address := host, family := NetAddress.isIP host }
  else lookup host

/-- What a single request yields. -/
inductive SingleRequestResult where
  | redirect (location : Text)
  | page (status : Nat) (contentType : Text) (body : List UInt8)

def normalizeContentType (value : Option Text) : Option Text :=
  value.map fun value => CaseTables.toLowerCase (trim ((split ';' value).headD []))

/-- The checks on a response. -/
def readResponse (maxBytes : Nat) (response : Response) : Except FetchError SingleRequestResult :=
  let location := response.location.getD []
  if 300 ≤ response.status ∧ response.status < 400 ∧ location ≠ [] then .ok (.redirect location)
  else if response.status < 200 ∨ 300 ≤ response.status then .error (.httpStatus response.status)
  else if (response.contentEncoding.any fun encoding =>
      !encoding.isEmpty && CaseTables.toLowerCase encoding != "identity".toList) = true then
    .error .compressed
  else
    match normalizeContentType response.contentType with
    | none => .error .contentType
    | some contentType =>
        if ALLOWED_CONTENT_TYPES.contains contentType = false then .error .contentType
        else if (response.contentLength.any fun length => decide (maxBytes < length)) = true then
          .error .tooLarge
        else if maxBytes < response.body.length then .error .tooLarge
        else .ok (.page response.status contentType response.body)

variable [UrlResolver]

/-- The hops from one on: what is left of the redirects counts down. -/
def fetchFrom (options : FetcherOptions) (network : Network) (left hop : Nat) (visited : List Text)
    (current : Url) : Except FetchError FetchResult × List Connection :=
  if visited.contains current.href then (.error .redirectLoop, [])
  else
    match defaultResolver network hop current.hostname with
    | none => (.error .dnsFailed, [])
    | some addresses =>
        match assertSafeResolvedAddresses addresses with
        | .error e => (.error e, [])
        | .ok () =>
            match addresses with
            | [] => (.error .noAddress, [])
            | selected :: _ =>
                let connection : Connection :=
                  { hop := hop
                    url := current
                    checked := addresses
                    target := connectTarget current (createPinnedLookup selected) }
                match network.request hop current connection.target with
                | none => (.error .requestFailed, [connection])
                | some response =>
                    match readResponse options.maxBytes response with
                    | .error e => (.error e, [connection])
                    | .ok (.page status contentType body) =>
                        (.ok { url := current.href, status := status, contentType := contentType
                               body := body }, [connection])
                    | .ok (.redirect location) =>
                        match left with
                        | 0 => (.error .redirectLimit, [connection])
                        | left + 1 =>
                            match UrlResolver.resolve location current with
                            | none => (.error .invalidUrl, [connection])
                            | some target =>
                                match validateFetchUrl target.href options.allowedDomains with
                                | .error e => (.error e, [connection])
                                | .ok next =>
                                    let rest := fetchFrom options network left (hop + 1)
                                      (current.href :: visited) next
                                    (rest.1, connection :: rest.2)

/-- `fetch(input)`, with the whitelist as the constructor normalizes it. -/
def fetch (options : FetcherOptions) (network : Network) (input : Text) :
    Except FetchError FetchResult × List Connection :=
  let options := { options with allowedDomains := (normalizeDomains options.allowedDomains).eraseDups }
  if options.allowedDomains = [] then (.error .emptyWhitelist, [])
  else
    match validateFetchUrl input options.allowedDomains with
    | .error e => (.error e, [])
    | .ok current => fetchFrom options network options.maxRedirects 0 [] current

end Host

end OpenVac.Knowledge
