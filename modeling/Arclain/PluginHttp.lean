import Arclain.PluginRequest

namespace Arclain.Network

/-!
# The requests of a plugin

`PluginHttp` follows redirects itself.  At every hop it authorises the target anew, pins a
transport to the addresses that were checked there, and sends one request.
-/

open List Text

inductive HttpMethod where
  | get
  | post
  | put
  | delete
  deriving DecidableEq

structure HttpRequest where
  url : Str
  method : HttpMethod
  headers : Headers
  body : Option (List UInt8)
  timeout : Nat

/-- A response, as far as the redirect loop reads it. -/
structure HttpResponse where
  status : Nat
  /-- The `Location` header, and its value where that is text. -/
  location : Option (Option Str)
  body : List UInt8

inductive SendFailure where
  | timeout
  | failed (message : Str)

structure Exchange where
  /-- Whether the configured client can be built. -/
  built : Except Str Unit
  answer : Except SendFailure HttpResponse

/-- The texts before and after the first occurrence of a pattern. -/
def splitAtFirst (pattern : Str) : Str → Option (Str × Str)
  | [] => if pattern = [] then some ([], []) else none
  | char :: rest =>
    if pattern.isPrefixOf (char :: rest) then some ([], (char :: rest).drop pattern.length)
    else (splitAtFirst pattern rest).map fun (before, after) => (char :: before, after)

/-- `replacen` for one occurrence. -/
def replaceFirst (text old new : Str) : Str :=
  match splitAtFirst old text with
  | some (before, after) => before ++ new ++ after
  | none => text

/-- The corrected text for one prefix of `fix_dlsite_cdn_folder`. -/
def fixFolderOf (url folderPrefix : Str) : Option Str := do
  let (_, afterFolderPrefix) ← splitAtFirst ('/' :: folderPrefix) url
  let (folderDigits, afterFolder) ← splitAtFirst ['/'] afterFolderPrefix
  let (_, fromProduct) ← splitAtFirst folderPrefix afterFolder
  let productDigits := fromProduct.takeWhile Char.isDigit
  if productDigits.length < folderDigits.length ∧ folderDigits.all Char.isDigit then
    let folderNumber := Nat.ofDigitChars 10 folderDigits 0
    if folderNumber < 2 ^ 64 then
      let oldFolder := folderPrefix ++ folderDigits
      let newFolder := folderPrefix ++ paddedDecimal productDigits.length folderNumber
      if oldFolder ≠ newFolder then some (replaceFirst url oldFolder newFolder)
      else none
    else none
  else none

def fixDlsiteCdnFolder (library : UrlLibrary) (url : Str) : Str :=
  match library.parse url with
  | .ok parsed =>
    if parsed.hostStr = some "img.dlsite.jp".toList then
      (["RJ".toList, "VJ".toList, "BJ".toList, "RE".toList].findSome? (fixFolderOf url)).getD url
    else url
  | .error _ => url

/-- The folder number of an image is written with the digits of its product. -/
example : fixFolderOf "/work/RJ00361000/RJ360420_img.jpg".toList "RJ".toList =
    some "/work/RJ361000/RJ360420_img.jpg".toList := by
  decide +kernel

def isDlsiteUrl (library : UrlLibrary) (url : Str) : Bool :=
  match library.parse url with
  | .ok parsed =>
    match parsed.hostStr with
    | some host =>
      ["dlsite.com".toList, "dlsite.jp".toList].any fun apex =>
        host == apex || (match host.dropSuffix? apex with
          | some leading => endsWith leading ['.']
          | none => false)
    | none => false
  | .error _ => false

/-- The headers of `inject_dlsite_browser_headers`. -/
def dlsiteBrowserHeaders : Headers :=
  [("Cookie".toList, "adultchecked=1; locale=ja-JP".toList), ("Accept".toList,
    ("text/html,application/xhtml+xml,application/xml;q=0.9," ++ "image/webp,*/*;q=0.8").toList),
    ("Accept-Language".toList, "ja-JP,ja;q=0.9,en-US;q=0.8,en;q=0.7".toList),
    ("Accept-Encoding".toList, "gzip, deflate, br".toList),
    ("Connection".toList, "keep-alive".toList),
    ("Referer".toList, "https://www.dlsite.com/".toList), ("Sec-Fetch-Dest".toList, "image".toList),
    ("Sec-Fetch-Mode".toList, "no-cors".toList), ("Sec-Fetch-Site".toList, "cross-site".toList),
    ("Cache-Control".toList, "no-cache".toList), ("Pragma".toList, "no-cache".toList)]

def isCredentialHeader (name : Str) : Bool :=
  eqIgnoreAsciiCase name "authorization".toList || eqIgnoreAsciiCase name "cookie".toList

def isBodyHeader (name : Str) : Bool :=
  eqIgnoreAsciiCase name "content-length".toList || eqIgnoreAsciiCase name "content-type".toList ||
    eqIgnoreAsciiCase name "transfer-encoding".toList

structure Pending where
  url : Url
  method : HttpMethod
  headers : Headers
  body : Option (List UInt8)

structure SentRequest where
  hop : Nat
  url : Url
  method : HttpMethod
  /-- The headers of the host itself. -/
  hostHeaders : Headers
  /-- The headers of the plugin. -/
  headers : Headers
  body : Option (List UInt8)
  timeout : Nat
  client : PinnedClient
  /-- The limiter once the request was charged. -/
  limiter : RateLimiter

/-- What a request did: what it sent, and how it ended. -/
structure Execution where
  sent : List SentRequest
  result : Except HttpError HttpResponse

def isRedirect (status : Nat) : Bool := [301, 302, 303, 307, 308].contains status

/-- The headers that go along to the next URL: credentials only within the
origin. -/
def redirectHeaders (current next : Url) (headers : Headers) : Headers :=
  if Url.SameOrigin current next then headers
  else headers.filter fun header => !isCredentialHeader header.1

def redirected (current next : Url) (status : Nat) (pending : Pending) : Pending :=
  let headers := redirectHeaders current next pending.headers
  if status = 303 ∨ ((status = 301 ∨ status = 302) ∧ pending.method = .post) then
    { url := next
      method := .get
      headers := headers.filter fun header => !isBodyHeader header.1
      body := none }
  else { pending with url := next, headers }

def nextRequest (library : UrlLibrary) (current : Url) (response : HttpResponse) (pending : Pending)
    (remaining : Nat) : Except HttpError (Option Pending) :=
  if ¬ isRedirect response.status then .ok none
  else
    match response.location with
    | none => .ok none
    | some location =>
      if remaining = 0 then .error .redirectLimitExceeded
      else
        match location with
        | none => .error (.invalidUrl "redirect Location is not valid text".toList)
        | some location => do
          let next ← validateRedirectTarget library current location
          return some (redirected current next response.status pending)

theorem redirected_of_nextRequest {library : UrlLibrary} {current : Url} {response : HttpResponse}
    {pending next : Pending} {remaining : Nat}
    (leads : nextRequest library current response pending remaining = .ok (some next)) :
    ∃ text url, Checked library text url ∧
      next = redirected current url response.status pending := by
  rw [nextRequest] at leads
  split at leads
  · cases leads
  · split at leads
    · cases leads
    · split at leads
      · cases leads
      · split at leads
        · cases leads
        · obtain ⟨url, valid, leads⟩ := Fallible.bind_eq_ok.mp leads
          obtain ⟨target, -, valid⟩ := Fallible.bind_eq_ok.mp valid
          exact ⟨target.text, url, checked_of_validatePluginUrl valid,
            (Option.some.inj (Except.ok.inj leads)).symm⟩

@[simp] theorem url_redirected (current next : Url) (status : Nat) (pending : Pending) :
    (redirected current next status pending).url = next := by
  rw [redirected]
  split <;> rfl

/-- The credentials go to the origin of the first URL, and all headers are the caller's. -/
structure Contained (first : Url) (supplied headers : Headers) (url : Url) : Prop where
  supplied : headers ⊆ supplied
  credentials : ∀ header ∈ headers, isCredentialHeader header.1 = true → first.SameOrigin url

theorem Contained.redirected {first current next : Url} {supplied : Headers} {pending : Pending}
    (contained : Contained first supplied pending.headers current) (status : Nat) :
    Contained first supplied (Network.redirected current next status pending).headers next := by
  have along : Contained first supplied (redirectHeaders current next pending.headers) next := by
    rw [redirectHeaders]
    split
    next same =>
      exact ⟨contained.supplied, fun header mem credential =>
        (contained.credentials header mem credential).trans same⟩
    · refine ⟨fun header mem => ?_, fun header mem credential => ?_⟩
      · exact contained.supplied (mem_filter.mp mem).1
      · have dropped := (mem_filter.mp mem).2
        rw [credential] at dropped
        cases dropped
  rw [Network.redirected]
  split
  · refine ⟨fun header mem => ?_, fun header mem credential => ?_⟩
    · exact along.supplied (mem_filter.mp mem).1
    · exact along.credentials header (mem_filter.mp mem).1 credential
  · exact along

section

variable [CharTables]

def requestOf (libraries : PluginLibraries) (timeout hop : Nat) (pending : Pending)
    (limiter : RateLimiter) (target : AuthorizedPluginTarget)
    (client : PinnedClient) : SentRequest where
  hop
  url := target.url
  method := pending.method
  hostHeaders :=
    if isDlsiteUrl libraries.urls target.url.text then dlsiteBrowserHeaders
    else []
  headers := pending.headers
  body := pending.body
  timeout
  client
  limiter

/-- The loop of `execute`, with the redirects that remain. -/
def followRedirects (libraries : PluginLibraries) (pluginId : Str) (hops : Nat → Hop)
    (exchanges : Nat → Exchange) (timeout hop : Nat) (pending : Pending)
    (remaining : Nat) : Execution :=
  let authorization := authorizeTarget libraries (hops hop) pluginId pending.url
  match authorization.target with
  | .error error => ⟨[], .error error⟩
  | .ok target =>
    match buildPinnedClient libraries (exchanges hop).built target with
    | .error error => ⟨[], .error error⟩
    | .ok client =>
      let sent := requestOf libraries timeout hop pending authorization.limiter target client
      match (exchanges hop).answer with
      | .error .timeout => ⟨[sent], .error .timeout⟩
      | .error (.failed message) => ⟨[sent], .error (.requestFailed message)⟩
      | .ok response =>
        match nextRequest libraries.urls target.url response pending remaining, remaining with
        | .error error, _ => ⟨[sent], .error error⟩
        | .ok none, _ => ⟨[sent], .ok response⟩
        | .ok (some _), 0 => ⟨[sent], .error .redirectLimitExceeded⟩
        | .ok (some next), remaining + 1 =>
          let rest :=
            followRedirects libraries pluginId hops exchanges timeout (hop + 1) next remaining
          ⟨sent :: rest.sent, rest.result⟩

def initialUrl (libraries : PluginLibraries) (request : HttpRequest) : Except HttpError Url :=
  validatePluginUrl libraries.urls (fixDlsiteCdnFolder libraries.urls request.url)

def execute (libraries : PluginLibraries) (pluginId : Str) (request : HttpRequest)
    (hops : Nat → Hop) (exchanges : Nat → Exchange) : Execution :=
  match validatePluginHeaders request.headers with
  | .error error => ⟨[], .error error⟩
  | .ok () =>
    match initialUrl libraries request with
    | .error error => ⟨[], .error error⟩
    | .ok url =>
      followRedirects libraries pluginId hops exchanges request.timeout 0
        { url
          method := request.method
          headers := request.headers
          body := request.body }
        maxPluginRedirects

/-- What a plugin may do at one hop: a request to a host it may access, at public addresses
that the hop resolved, on its own budget. -/
structure Entitled (libraries : PluginLibraries) (pluginId : Str) (hop : Hop)
    (sent : SentRequest) : Prop where
  destination : ∃ host port resolved, sent.url.host = some host ∧
    hop.whitelist.check pluginId host.policyText = .allowed ∧
    resolveTarget hop host port = .ok (host.policyText, resolved) ∧
    ∀ address ∈ sent.client.reachable sent.url,
      address ∈ resolved.map SocketAddr.ip ∧ isPublicAddress address = true
  charged : ∃ policy host domain, hop.policies.lookup pluginId = some policy ∧
    policy.networkEnabled = true ∧ sent.url.host = some host ∧
    rateDomain libraries.urls sent.url host.policyText = .ok domain ∧
    RateLimiter.Charged hop.limiter sent.limiter
      (RateLimiter.isolatedScope (pluginId ++ '\x00' :: domain)) policy.requestsPerMinute hop.now

variable {libraries : PluginLibraries} {pluginId : Str} {target : AuthorizedPluginTarget}

theorem entitled_of_authorized {hop : Hop} {url : Url} {checked : CheckedTarget}
    {built : Except Str Unit} {sent : SentRequest}
    (authorized : Authorized libraries hop pluginId url sent.limiter target checked)
    (pinned : buildPinnedClient libraries built target = .ok sent.client)
    (sameUrl : sent.url = target.url) : Entitled libraries pluginId hop sent := by
  obtain ⟨host, port, hostShape, resolution⟩ := authorized.passed.resolved
  have named := policyText_of_resolveTarget resolution
  have urlShape : sent.url = checked.url := sameUrl.trans authorized.url
  constructor
  · refine ⟨host, port, checked.resolved, ?_, ?_, ?_, ?_⟩
    · rw [urlShape, hostShape]
    · rw [← named]
      exact authorized.allowed
    · rw [← named]
      exact resolution
    · intro _ mem
      have subset := subset_resolved_of_buildPinnedClient pinned
      rw [authorized.resolved] at subset
      rw [urlShape] at mem
      have listed := reachable_subset_resolved hostShape resolution subset mem
      exact ⟨listed, public_of_validated authorized.passed.addresses listed⟩
  · obtain ⟨registered, enabled⟩ := policy_of_registeredPolicy authorized.passed.policy
    refine ⟨checked.policy, host, checked.rateDomain, registered, enabled, ?_, ?_,
      RateLimiter.charged_of_acquired authorized.acquired⟩
    · rw [urlShape, hostShape]
    · rw [urlShape, ← named]
      exact authorized.passed.domain

/-- What holds of the requests that the loop sends. -/
structure Confined (libraries : PluginLibraries) (pluginId : Str) (hops : Nat → Hop) (first : Url)
    (supplied : Headers) (sent : SentRequest) : Prop where
  entitled : Entitled libraries pluginId (hops sent.hop) sent
  contained : Contained first supplied sent.headers sent.url

theorem followRedirects_cases (libraries : PluginLibraries) (pluginId : Str) (hops : Nat → Hop)
    (exchanges : Nat → Exchange) (timeout hop : Nat) (pending : Pending) (remaining : Nat) :
    let authorization := authorizeTarget libraries (hops hop) pluginId pending.url
    let execution := followRedirects libraries pluginId hops exchanges timeout hop pending remaining
    execution.sent = [] ∨ ∃ target client, authorization.target = .ok target ∧
      buildPinnedClient libraries (exchanges hop).built target = .ok client ∧
      let request := requestOf libraries timeout hop pending authorization.limiter target client
      (execution.sent = [request] ∨ ∃ next rest response, remaining = rest + 1 ∧
        nextRequest libraries.urls target.url response pending remaining = .ok (some next) ∧
        execution.sent = request :: (followRedirects libraries pluginId hops exchanges timeout
          (hop + 1) next rest).sent) := by
  dsimp only
  rw [followRedirects.eq_def]
  dsimp only
  cases given : (authorizeTarget libraries (hops hop) pluginId pending.url).target with
  | error error => exact .inl rfl
  | ok target =>
    cases pinned : buildPinnedClient libraries (exchanges hop).built target with
    | error error =>
      left
      simp [pinned]
    | ok client =>
      right
      refine ⟨target, client, rfl, pinned, ?_⟩
      simp only [pinned]
      cases answered : (exchanges hop).answer with
      | error failure =>
        left
        cases failure with
        | timeout | failed => rfl
      | ok response =>
        simp only
        cases leads : nextRequest libraries.urls target.url response pending remaining with
        | error error => exact .inl rfl
        | ok found =>
          cases found with
          | none => exact .inl rfl
          | some next =>
            cases remaining with
            | zero => exact .inl rfl
            | succ rest => exact .inr ⟨next, rest, response, rfl, leads, rfl⟩

variable {exchanges : Nat → Exchange} {supplied : Headers}

theorem requestOf_confined (reparses : libraries.urls.Reparses) {hops : Nat → Hop}
    {first : Url} {pending : Pending} {text : Str}
    (parsed : libraries.urls.parse text = .ok pending.url)
    (contained : Contained first supplied pending.headers pending.url) {hop : Nat}
    {client : PinnedClient}
    (given : (authorizeTarget libraries (hops hop) pluginId pending.url).target = .ok target)
    (pinned : buildPinnedClient libraries (exchanges hop).built target = .ok client)
    (timeout : Nat) : target.url = pending.url ∧ Confined libraries pluginId hops first supplied
      (requestOf libraries timeout hop pending
        (authorizeTarget libraries (hops hop) pluginId pending.url).limiter target client) := by
  obtain ⟨_, authorized⟩ := exists_authorized given
  have sameUrl : target.url = pending.url := by
    have again := (checked_of_validatePluginUrl authorized.passed.url).parsed
    rw [reparses parsed] at again
    rw [authorized.url, Except.ok.inj again]
  refine ⟨sameUrl, ?_, ?_⟩
  · exact entitled_of_authorized authorized pinned rfl
  · simpa only [requestOf, sameUrl] using contained

theorem followRedirects_confined (reparses : libraries.urls.Reparses)
    (pluginId : Str) (hops : Nat → Hop) {timeout : Nat} {first : Url}
    (remaining hop : Nat) (pending : Pending) {text : Str}
    (parsed : libraries.urls.parse text = .ok pending.url)
    (contained : Contained first supplied pending.headers pending.url) :
    let execution := followRedirects libraries pluginId hops exchanges timeout hop pending remaining
    (∀ sent ∈ execution.sent, Confined libraries pluginId hops first supplied sent) ∧
      execution.sent.length ≤ remaining + 1 ∧
      execution.sent.map SentRequest.hop = List.range' hop execution.sent.length := by
  induction remaining using Nat.strong_induction_on generalizing hop pending text with
  | _ remaining ih =>
    dsimp only
    rcases followRedirects_cases libraries pluginId hops exchanges timeout hop
        pending remaining with
      unsent | ⟨target, client, given, pinned, followed⟩
    · rw [unsent]
      simp
    · obtain ⟨sameUrl, confined⟩ :=
        requestOf_confined reparses parsed contained given pinned timeout
      rcases followed with
        last | ⟨next, rest, response, shorter, leads, behind⟩
      · rw [last]
        refine ⟨?_, by simp, by simp [requestOf]⟩
        intro sent mem
        rw [mem_singleton.mp mem]
        exact confined
      · obtain ⟨nextText, url, checked, rfl⟩ := redirected_of_nextRequest leads
        have checkedUrl : libraries.urls.parse nextText =
            .ok (redirected target.url url response.status pending).url := by
          rw [url_redirected]
          exact checked.parsed
        have along : Contained first supplied
            (redirected target.url url response.status pending).headers
            (redirected target.url url response.status pending).url := by
          rw [url_redirected]
          refine Contained.redirected ?_ response.status
          rw [sameUrl]
          exact contained
        obtain ⟨others, _, numbered⟩ := ih rest (by omega) (hop + 1) _ checkedUrl along
        rw [behind]
        refine ⟨?_, ?_, ?_⟩
        · intro sent mem
          rcases mem_cons.mp mem with rfl | later
          · exact confined
          · exact others sent later
        · simp only [length_cons]
          omega
        · simp [List.range'_succ, numbered, requestOf]

omit [CharTables] in
theorem isCredentialHeader_iff (name : Str) : isCredentialHeader name = true ↔
    toAsciiLowercase name = "authorization".toList ∨ toAsciiLowercase name = "cookie".toList := by
  have lower : "authorization".toList.map Char.toLower = "authorization".toList ∧
      "cookie".toList.map Char.toLower = "cookie".toList := by
    decide
  simp only [isCredentialHeader, eqIgnoreAsciiCase, Bool.or_eq_true, beq_iff_eq, lower.1, lower.2]
  rfl

/-- Every hop goes to an allowed host at public addresses on its own charge, and credentials
only reach the first origin. -/
theorem execute_confined
    {libraries : PluginLibraries}
    (reparses : libraries.urls.Reparses)
    (pluginId : Str)
    (request : HttpRequest)
    (hops : Nat → Hop)
    (exchanges : Nat → Exchange) :
    let execution := execute libraries pluginId request hops exchanges
    (∀ sent ∈ execution.sent, Entitled libraries pluginId (hops sent.hop) sent ∧
      sent.headers ⊆ request.headers ∧
      ∀ header ∈ sent.headers, toAsciiLowercase header.1 = "authorization".toList ∨
          toAsciiLowercase header.1 = "cookie".toList → ∃ first,
        initialUrl libraries request = .ok first ∧ first.SameOrigin sent.url) ∧
      execution.sent.map SentRequest.hop = List.range execution.sent.length ∧
      execution.sent.length ≤ maxPluginRedirects + 1 := by
  dsimp only
  rw [execute]
  cases validatePluginHeaders request.headers with
  | error error => simp
  | ok =>
    cases initial : initialUrl libraries request with
    | error error => simp
    | ok first =>
      have checked := checked_of_validatePluginUrl initial
      obtain ⟨confined, count, numbered⟩ :=
        followRedirects_confined reparses pluginId hops maxPluginRedirects 0
          { url := first
            method := request.method
            headers := request.headers
            body := request.body }
          checked.parsed
          ⟨List.Subset.refl _, fun _ _ _ => checked.sameOrigin_self⟩
      refine ⟨?_, ?_, count⟩
      · intro sent mem
        obtain ⟨entitled, contained⟩ := confined sent mem
        exact ⟨entitled, contained.supplied, fun header listed credential =>
          ⟨first, rfl, contained.credentials header listed
            ((isCredentialHeader_iff header.1).mpr credential)⟩⟩
      · rw [range_eq_range']
        exact numbered

end

def exampleUrl : Url where
  text := "https://example.com/".toList
  scheme := "https".toList
  username := []
  password := none
  host := some (.domain "example.com".toList)
  port := none
  fragment := none

def exampleLibraries : PluginLibraries where
  urls :=
    { parse := fun text =>
      if text = exampleUrl.text then .ok exampleUrl else .error "unknown".toList
      join := fun _ location =>
        if location = "/".toList then .ok exampleUrl else .error "unknown".toList }
  acceptsWorkload _ := true
  createPinnedProxy _ := .ok ()

theorem exampleLibraries_reparses : exampleLibraries.urls.Reparses := by
  intro _ _ parsed
  simp only [exampleLibraries] at parsed ⊢
  split at parsed
  · obtain rfl := Except.ok.inj parsed
    simp
  · cases parsed

/-- A hop at which the plugin "demo" may send a request there. -/
def exampleHop (_ : Nat) : Hop where
  routing := ⟨⟨none, true⟩, fun _ => some ⟨none, true⟩⟩
  policies := (∅ : KeyedMap Str PluginNetworkPolicy).insert "demo".toList ⟨true, 60⟩
  lookup := .ok [⟨.v4 ⟨93, 184, 216, 34⟩, 443⟩]
  whitelist := @DomainWhitelist.approve asciiTables .new "demo".toList "example.com".toList
  limiter := .new 60 0
  now := 0
  selectedRouting := ⟨⟨none, true⟩, fun _ => some ⟨none, true⟩⟩

def redirecting (_ : Nat) : Exchange where
  built := .ok ()
  answer := .ok ⟨302, some (some "/".toList), []⟩

def exampleRequest : HttpRequest where
  url := "https://example.com/".toList
  method := .get
  headers := [("Authorization".toList, "secret".toList)]
  body := none
  timeout := 30

/-- The plugin follows the redirects it may follow, and is entitled to all six requests. -/
theorem redirecting_confined :
    (@execute asciiTables exampleLibraries "demo".toList exampleRequest exampleHop
      redirecting).sent.length = 6 ∧
      ∀ sent ∈ (@execute asciiTables exampleLibraries "demo".toList exampleRequest
        exampleHop redirecting).sent,
        @Entitled asciiTables exampleLibraries "demo".toList (exampleHop sent.hop) sent :=
  ⟨by decide +kernel, fun sent mem =>
    ((@execute_confined asciiTables exampleLibraries exampleLibraries_reparses
      "demo".toList exampleRequest exampleHop redirecting).1 sent mem).1⟩

end Arclain.Network
