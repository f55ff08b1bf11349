import Arclain.DomainWhitelist
import Arclain.Fallible
import Arclain.RateLimiter
import Arclain.Url

namespace Arclain.Network

/-!
# Authorising one request of a plugin

Before a plugin's request is sent, its URL, the addresses of its host, the domain and the
budget are checked, and the transport is pinned to these addresses.  Each answer is what
`Hop` says at that moment, since others may change it.
-/

open Text SocketAddr

def maxPluginRedirects : Nat := 5

structure PluginNetworkPolicy where
  networkEnabled : Bool
  requestsPerMinute : Nat

structure ProxyConfig where
  enabled : Bool
  address : Str
  username : Option Str
  password : Option Str

/-- The errors of `HttpError` that a checked request can end with. -/
inductive HttpError where
  | pluginNetworkNotConfigured (pluginId : Str)
  | pluginNetworkDisabled (pluginId : Str)
  | domainNotWhitelisted (domain : Str)
  | domainNeedsApproval (domain : Str)
  | rateLimited (domain : Str)
  | invalidUrl (reason : Str)
  | dnsResolutionFailed (host reason : Str)
  | unsafeResolvedAddress (address : IpAddr)
  | redirectLimitExceeded
  | pinnedResolutionUnavailable (reason : Str)
  | securityWarning (message : Str)
  | requestFailed (message : Str)
  | timeout

/-- The headers of a request, in the order the hash map yields them. -/
abbrev Headers := List (Str × Str)

/-- `FORBIDDEN`: the headers that a plugin must not set. -/
def forbiddenHeaders : List Str :=
  ["host".toList, "proxy-authorization".toList, "content-length".toList,
    "connection".toList, "proxy-connection".toList, "keep-alive".toList,
    "transfer-encoding".toList, "upgrade".toList, "te".toList, "trailer".toList, "forwarded".toList]

def isForbiddenHeader (name : Str) : Bool :=
  forbiddenHeaders.any (eqIgnoreAsciiCase name) || (name.length ≥ "x-forwarded-".toList.length &&
    eqIgnoreAsciiCase (name.take "x-forwarded-".toList.length) "x-forwarded-".toList)

def validatePluginHeaders [CharTables] (headers : Headers) : Except HttpError Unit :=
  match headers.find? fun header => isForbiddenHeader header.1 with
  | some (name, _) =>
    .error <| .securityWarning <|
      "plugin requests must not set routing header ".toList ++ debugText name
  | none => .ok ()

def validatePluginUrl (library : UrlLibrary) (value : Str) : Except HttpError Url := do
  let url ← (library.parse value).mapError .invalidUrl
  if ¬ (url.scheme = "http".toList ∨ url.scheme = "https".toList) then
    .error (.invalidUrl "plugin URLs must use HTTP or HTTPS".toList)
  else if url.host = none then .error (.invalidUrl "plugin URL has no host".toList)
  else if url.username ≠ [] ∨ url.password.isSome then
    .error (.invalidUrl "plugin URLs must not contain credentials".toList)
  else if url.fragment.isSome then
    .error (.invalidUrl "plugin URLs must not contain fragments".toList)
  else .ok url

def validateRedirectTarget (library : UrlLibrary) (current : Url)
    (location : Str) : Except HttpError Url := do
  let target ← (library.join current location).mapError fun reason =>
    .invalidUrl ("invalid redirect Location: ".toList ++ reason)
  validatePluginUrl library target.text

def validateResolvedAddresses (addresses : List IpAddr) : Except HttpError Unit :=
  if addresses = [] then
    .error (.dnsResolutionFailed "<unknown>".toList "resolver returned no addresses".toList)
  else
    match addresses.find? fun address => !isPublicAddress address with
    | some address => .error (.unsafeResolvedAddress address)
    | none => .ok ()

def multiPartTlds : List Str :=
  ["co.jp".toList, "ne.jp".toList, "or.jp".toList, "ac.jp".toList,
    "go.jp".toList, "com.au".toList, "net.au".toList, "org.au".toList,
    "co.uk".toList, "org.uk".toList, "co.nz".toList, "com.br".toList,
    "co.kr".toList, "or.kr".toList]

/-- The domain of `extract_effective_domain`, from the labels of a host. -/
def extractEffectiveDomain (parts : List Str) : Str :=
  match parts.reverse with
  | last :: second :: third :: _ =>
    if join ['.'] [second, last] ∈ multiPartTlds then join ['.'] [third, second, last]
    else join ['.'] [second, last]
  | [last, second] => join ['.'] [second, last]
  | [only] => only
  | [] => []

section

variable [CharTables]

/-- The effective domain of `analyze_url`.  Its warnings are not read here. -/
def effectiveDomain (library : UrlLibrary) (text : Str) : Except Str Str := do
  let url ← (library.parse text).mapError ("Invalid URL: ".toList ++ ·)
  match url.hostStr with
  | none => .error "URL has no host".toList
  | some host =>
    let host := CharTables.toLowercase host
    if (IpAddr.parse host).isSome then .ok host
    else .ok (extractEffectiveDomain (host.splitOn '.'))

end

/-- One of the two transports of a routing snapshot. -/
structure RoutedHttpClient where
  proxyConfig : Option ProxyConfig
  pluginRoutingAvailable : Bool

/-- The direct transport, and the one the routing policy selects for a workload. -/
structure RoutingSnapshot where
  direct : RoutedHttpClient
  clientFor : Str → Option RoutedHttpClient

/-- The URL library, the identities the routing policy accepts, and how a proxy is put
together. -/
structure PluginLibraries where
  urls : UrlLibrary
  acceptsWorkload : Str → Bool
  /-- `create_pinned_proxy`: SOCKS with names resolved locally. -/
  createPinnedProxy : ProxyConfig → Except Str Unit

structure AuthorizedPluginTarget where
  url : Url
  proxyConfig : Option ProxyConfig
  resolved : List SocketAddr

/-- What one hop of a request finds, each at the moment it is read. -/
structure Hop where
  routing : RoutingSnapshot
  policies : KeyedMap Str PluginNetworkPolicy
  /-- `lookup_host`, for the host and port of the hop. -/
  lookup : Except Str (List SocketAddr)
  whitelist : DomainWhitelist
  limiter : RateLimiter
  now : Instant
  selectedRouting : RoutingSnapshot

def registeredPolicy (hop : Hop) (pluginId : Str) : Except HttpError PluginNetworkPolicy :=
  if ¬ hop.routing.direct.pluginRoutingAvailable then
    .error (.requestFailed "plugin network routing is unavailable".toList)
  else
    match hop.policies.lookup pluginId with
    | none => .error (.pluginNetworkNotConfigured pluginId)
    | some policy =>
      if ¬ policy.networkEnabled then .error (.pluginNetworkDisabled pluginId)
      else .ok policy

def selectedPluginRoute (libraries : PluginLibraries) (routing : RoutingSnapshot)
    (pluginId : Str) : Except HttpError RoutedHttpClient :=
  if ¬ libraries.acceptsWorkload pluginId then
    .error (.requestFailed "plugin network routing identity is invalid".toList)
  else
    match routing.clientFor pluginId with
    | none =>
      .error <| .requestFailed <| ("plugin is configured to use a proxy, " ++
        "but no enabled proxy is configured").toList
    | some route =>
      if ¬ route.pluginRoutingAvailable then
        .error (.requestFailed "plugin network routing is unavailable".toList)
      else .ok route

/-- The host as the whitelist and the transport are asked about it. -/
def Host.policyText : Host → Str
  | .domain name => toAsciiLowercase name
  | .ipv4 address | .ipv6 address => address.text

/-- The host of a target, and the addresses that its name resolves to.  A host
that is an address is its own resolution. -/
def resolveTarget (hop : Hop) (host : Host) (port : UInt16) :
    Except HttpError (Str × List SocketAddr) :=
  match host with
  | .domain name =>
    let host := toAsciiLowercase name
    match hop.lookup with
    | .ok resolved => .ok (host, resolved)
    | .error reason => .error (.dnsResolutionFailed host reason)
  | .ipv4 address => .ok (address.text, [⟨.v4 address, port⟩])
  | .ipv6 address => .ok (address.text, [⟨.v6 address, port⟩])

/-- A target whose URL and addresses were checked. -/
structure CheckedTarget where
  policy : PluginNetworkPolicy
  url : Url
  host : Str
  resolved : List SocketAddr
  rateDomain : Str

def rateDomain [CharTables] (library : UrlLibrary) (url : Url) (host : Str) :
    Except HttpError Str :=
  match url.host with
  | some (.domain _) => (effectiveDomain library url.text).mapError .invalidUrl
  | _ => .ok host

section

variable [CharTables]

/-- The first half of `authorize_target`: the policy, the URL, its addresses and its domain. -/
def checkTarget (libraries : PluginLibraries) (hop : Hop) (pluginId : Str)
    (url : Url) : Except HttpError CheckedTarget := do
  let policy ← registeredPolicy hop pluginId
  let url ← validatePluginUrl libraries.urls url.text
  let port ← url.portOrKnownDefault.elim
      (.error (.invalidUrl "plugin URL has no usable port".toList)) .ok
  let found ← url.host.elim (.error (.invalidUrl "plugin URL has no host".toList)) .ok
  let (host, resolved) ← resolveTarget hop found port
  validateResolvedAddresses (resolved.map ip)
  let domain ← rateDomain libraries.urls url host
  return ⟨policy, url, host, resolved, domain⟩

def budgetScope (pluginId domain : Str) : Str := pluginId ++ '\x00' :: domain

/-- What authorising one hop did: the whitelist and the limiter after it, and the
target. -/
structure Authorization where
  whitelist : DomainWhitelist
  limiter : RateLimiter
  target : Except HttpError AuthorizedPluginTarget

def authorizeTarget (libraries : PluginLibraries) (hop : Hop) (pluginId : Str)
    (url : Url) : Authorization :=
  match checkTarget libraries hop pluginId url with
  | .error error => ⟨hop.whitelist, hop.limiter, .error error⟩
  | .ok checked =>
    match hop.whitelist.check pluginId checked.host with
    | .needsApproval => ⟨hop.whitelist, hop.limiter, .error (.domainNeedsApproval checked.host)⟩
    | .notWhitelisted =>
      ⟨hop.whitelist.addPending pluginId checked.host, hop.limiter,
        .error (.domainNotWhitelisted checked.host)⟩
    | .allowed =>
      match hop.limiter.tryAcquireWithLimit (budgetScope pluginId checked.rateDomain)
        checked.policy.requestsPerMinute hop.now with
      | (false, limiter) => ⟨hop.whitelist, limiter, .error (.rateLimited checked.rateDomain)⟩
      | (true, limiter) =>
        ⟨hop.whitelist, limiter, do
          let route ← selectedPluginRoute libraries hop.selectedRouting pluginId
          return ⟨checked.url, route.proxyConfig, checked.resolved⟩⟩

end

/-- The addresses a target's transport is pinned to. A SOCKS transport names IPv4 addresses
only. -/
def pinnedAddresses (target : AuthorizedPluginTarget) : Except HttpError (List SocketAddr) :=
  match target.proxyConfig with
  | none => .ok target.resolved
  | some _ =>
    match target.resolved.filter isIpv4 with
    | [] =>
      .error <| .pinnedResolutionUnavailable <|
        ("the locked SOCKS transport cannot encode a validated IPv6 target " ++
          "as an IP destination").toList
    | addresses => .ok addresses

/-- `reqwest::Client` as `build_pinned_client` configures it. -/
structure PinnedClient where
  host : Str
  addresses : List SocketAddr
  proxy : Option ProxyConfig

def buildPinnedClient (libraries : PluginLibraries) (built : Except Str Unit)
    (target : AuthorizedPluginTarget) : Except HttpError PinnedClient := do
  let host ← target.url.host.elim (.error (.invalidUrl "plugin URL has no host".toList)) .ok
  let addresses ← pinnedAddresses target
  target.proxyConfig.elim (.ok ()) fun config =>
    (libraries.createPinnedProxy config).mapError .requestFailed
  built.mapError fun reason =>
    .requestFailed ("failed to build pinned plugin HTTP client: ".toList ++ reason)
  return ⟨host.policyText, addresses, target.proxyConfig⟩

/-- The addresses a client can connect to for a URL: those it is pinned to, or
the address that the URL itself names. -/
def PinnedClient.reachable (client : PinnedClient) (url : Url) : List IpAddr :=
  match url.host.bind Host.literal? with
  | some address => [address]
  | none => client.addresses.map ip

structure Checked (library : UrlLibrary) (text : Str) (url : Url) : Prop where
  parsed : library.parse text = .ok url
  scheme : url.scheme = "http".toList ∨ url.scheme = "https".toList
  host : url.host ≠ none

variable {url : Url} {library : UrlLibrary}

theorem checked_of_validatePluginUrl {value : Str}
    (valid : validatePluginUrl library value = .ok url) : Checked library value url := by
  obtain ⟨_, found, rest⟩ := Fallible.bind_eq_ok.mp valid
  split at rest
  · cases rest
  next scheme =>
    split at rest
    · cases rest
    next host =>
      split at rest
      · cases rest
      · split at rest
        · cases rest
        · obtain rfl := Except.ok.inj rest
          exact ⟨Fallible.mapError_eq_ok.mp found, not_not.mp scheme, host⟩

variable {text : Str}

theorem Checked.sameOrigin_self (checked : Checked library text url) : url.SameOrigin url := by
  obtain ⟨host, hostShape⟩ := Option.ne_none_iff_exists'.mp checked.host
  have known : ∃ port, Url.knownDefaultPort url.scheme = some port := by
    rcases checked.scheme with scheme | scheme
    · exact ⟨80, by rw [scheme]; rfl⟩
    · exact ⟨443, by rw [scheme]; rfl⟩
  obtain ⟨port, default⟩ := known
  have origin : url.origin? = some (url.scheme, host, url.port.getD port) := by
    simp [Url.origin?, default, hostShape]
  exact ⟨_, origin, origin⟩

theorem public_of_validated {addresses : List IpAddr}
    (valid : validateResolvedAddresses addresses = .ok ()) {address : IpAddr}
    (mem : address ∈ addresses) : isPublicAddress address = true := by
  rw [validateResolvedAddresses] at valid
  split at valid
  · cases valid
  · split at valid
    · cases valid
    next unfound => simpa using List.find?_eq_none.mp unfound address mem

section

variable [CharTables]

/-- What `checkTarget` found before it let a target through. -/
structure TargetChecked (libraries : PluginLibraries) (hop : Hop) (pluginId : Str) (url : Url)
    (checked : CheckedTarget) : Prop where
  policy : registeredPolicy hop pluginId = .ok checked.policy
  url : validatePluginUrl libraries.urls url.text = .ok checked.url
  resolved : ∃ host port, checked.url.host = some host ∧
    resolveTarget hop host port = .ok (checked.host, checked.resolved)
  addresses : validateResolvedAddresses (checked.resolved.map ip) = .ok ()
  domain : rateDomain libraries.urls checked.url checked.host = .ok checked.rateDomain

variable {libraries : PluginLibraries} {pluginId : Str}

theorem targetChecked_of_checkTarget {hop : Hop} {url : Url} {checked : CheckedTarget}
    (passed : checkTarget libraries hop pluginId url = .ok checked) :
    TargetChecked libraries hop pluginId url checked := by
  obtain ⟨_, registered, passed⟩ := Fallible.bind_eq_ok.mp passed
  obtain ⟨valid, validated, passed⟩ := Fallible.bind_eq_ok.mp passed
  obtain ⟨port, -, passed⟩ := Fallible.bind_eq_ok.mp passed
  obtain ⟨found, named, passed⟩ := Fallible.bind_eq_ok.mp passed
  obtain ⟨⟨host, _⟩, resolution, passed⟩ := Fallible.bind_eq_ok.mp passed
  obtain ⟨_, isPublic, passed⟩ := Fallible.bind_eq_ok.mp passed
  obtain ⟨_, charged, passed⟩ := Fallible.bind_eq_ok.mp passed
  obtain rfl := Except.ok.inj passed
  refine ⟨registered, validated, ⟨found, port, ?_, resolution⟩, isPublic, charged⟩
  cases hostShape : valid.host with
  | none =>
    rw [hostShape] at named
    cases named
  | some host =>
    rw [hostShape] at named
    rw [Except.ok.inj named]

/-- What `authorizeTarget` did before it gave out a target. -/
structure Authorized (libraries : PluginLibraries) (hop : Hop) (pluginId : Str) (url : Url)
    (limiter : RateLimiter) (target : AuthorizedPluginTarget) (checked : CheckedTarget) : Prop where
  passed : TargetChecked libraries hop pluginId url checked
  allowed : hop.whitelist.check pluginId checked.host = .allowed
  acquired : hop.limiter.tryAcquireWithLimit (budgetScope pluginId checked.rateDomain)
    checked.policy.requestsPerMinute hop.now = (true, limiter)
  url : target.url = checked.url
  resolved : target.resolved = checked.resolved

theorem exists_authorized {hop : Hop} {url : Url} {target : AuthorizedPluginTarget}
    (given : (authorizeTarget libraries hop pluginId url).target = .ok target) :
    ∃ checked, Authorized libraries hop pluginId url
      (authorizeTarget libraries hop pluginId url).limiter target checked := by
  cases passed : checkTarget libraries hop pluginId url with
  | error error => simp [authorizeTarget, passed] at given
  | ok checked =>
    refine ⟨checked, ?_⟩
    cases access : hop.whitelist.check pluginId checked.host with
    | needsApproval | notWhitelisted => simp [authorizeTarget, passed, access] at given
    | allowed =>
      cases acquired : hop.limiter.tryAcquireWithLimit (budgetScope pluginId checked.rateDomain)
        checked.policy.requestsPerMinute hop.now with
      | mk granted =>
        cases granted with
        | false => simp [authorizeTarget, passed, access, acquired] at given
        | true =>
          simp only [authorizeTarget, passed, access, acquired] at given ⊢
          obtain ⟨_, -, given⟩ := Fallible.bind_eq_ok.mp given
          obtain rfl := Except.ok.inj given
          exact ⟨targetChecked_of_checkTarget passed, access, acquired, rfl, rfl⟩

end

variable {target : AuthorizedPluginTarget}

theorem subset_resolved_of_pinned {addresses : List SocketAddr}
    (pinned : pinnedAddresses target = .ok addresses) : addresses ⊆ target.resolved := by
  rw [pinnedAddresses] at pinned
  split at pinned
  · obtain rfl := Except.ok.inj pinned
    exact List.Subset.refl _
  · split at pinned
    · cases pinned
    · obtain rfl := Except.ok.inj pinned
      exact List.filter_subset_self _

variable {client : PinnedClient}

theorem subset_resolved_of_buildPinnedClient {libraries : PluginLibraries} {built : Except Str Unit}
    (pinned : buildPinnedClient libraries built target = .ok client) :
    client.addresses ⊆ target.resolved := by
  obtain ⟨_, -, pinned⟩ := Fallible.bind_eq_ok.mp pinned
  obtain ⟨_, found, pinned⟩ := Fallible.bind_eq_ok.mp pinned
  obtain ⟨_, -, pinned⟩ := Fallible.bind_eq_ok.mp pinned
  obtain ⟨_, -, pinned⟩ := Fallible.bind_eq_ok.mp pinned
  obtain rfl := Except.ok.inj pinned
  exact subset_resolved_of_pinned found

variable {hop : Hop} {resolved : List SocketAddr}

theorem reachable_subset_resolved {host : Host} {port : UInt16} (hostShape : url.host = some host)
    (resolution : resolveTarget hop host port = .ok (text, resolved))
    (pinned : client.addresses ⊆ resolved) : client.reachable url ⊆ resolved.map ip := by
  intro _ mem
  rw [PinnedClient.reachable, hostShape] at mem
  cases host with
  | domain => exact List.map_subset _ pinned mem
  | ipv4 literal | ipv6 literal =>
    obtain ⟨rfl, rfl⟩ := Prod.mk.inj (Except.ok.inj resolution)
    simpa [Host.literal?] using mem

theorem policyText_of_resolveTarget {host : Host} {port : UInt16}
    (resolution : resolveTarget hop host port = .ok (text, resolved)) : text = host.policyText := by
  cases host with
  | domain =>
    rw [resolveTarget] at resolution
    split at resolution
    · exact (Prod.mk.inj (Except.ok.inj resolution)).1.symm
    · cases resolution
  | ipv4 literal | ipv6 literal => exact (Prod.mk.inj (Except.ok.inj resolution)).1.symm

theorem policy_of_registeredPolicy {pluginId : Str} {policy : PluginNetworkPolicy}
    (registered : registeredPolicy hop pluginId = .ok policy) :
    hop.policies.lookup pluginId = some policy ∧ policy.networkEnabled = true := by
  rw [registeredPolicy] at registered
  split at registered
  · cases registered
  · split at registered
    · cases registered
    next listed =>
      split at registered
      · cases registered
      next enabled =>
        obtain rfl := Except.ok.inj registered
        exact ⟨listed, by simpa using enabled⟩

end Arclain.Network
