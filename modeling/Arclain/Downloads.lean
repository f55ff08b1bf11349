import Arclain.OrganizationPlan
import Arclain.Url

namespace Arclain.Downloads

/-!
# Fetching the scheduled downloads

`http_downloader`: one client that follows a few redirects, with a resolver that answers
only with public addresses.  The resolver judges host names; an address in a URL is
connected to as it stands.
-/

open List Network Text

def maxDownloadBytes : Nat := 50 * 1024 * 1024

def maxDownloadRedirects : Nat := 3

inductive DownloadError where
  | invalidUrl (reason : Str)
  | unsupportedUrl
  | lookup (reason : Str)
  | offPublicInternet (host : Str)
  | transport (reason : Str)
  | tooManyRedirects
  | status (status : Nat)
  | lengthOverLimit (length limit : Nat)
  | bodyPastLimit (limit : Nat)
  | body (reason : Str)

/-- A body as it is read: its bytes, and whether the connection fails behind
them. -/
structure Body where
  bytes : List UInt8
  failure : Option Str

structure Response where
  status : Nat
  /-- Where a redirect leads. -/
  location : Option Url
  contentLength : Option Nat
  body : Body

structure HopAnswer where
  /-- `to_socket_addrs` of the host name. -/
  lookup : Except Str (List SocketAddr)
  /-- The addresses that the connector tries, where several are offered. -/
  tried : List IpAddr
  response : Except Str Response

def PublicOnlyResolver.resolve (host : Str) (lookup : Except Str (List SocketAddr)) :
    Except DownloadError (List SocketAddr) := do
  let resolved ← lookup.mapError .lookup
  let isPublic := resolved.filter fun address => !isOffPublicInternet address.ip
  if isPublic.isEmpty then .error (.offPublicInternet host)
  else .ok isPublic

/-- The addresses the client connects to. It asks its resolver for a host name only. -/
def connected (url : Url) (answer : HopAnswer) : Except DownloadError (List IpAddr) :=
  match url.host with
  | none => .error .unsupportedUrl
  | some (.ipv4 address) => .ok [.v4 address]
  | some (.ipv6 address) => .ok [.v6 address]
  | some (.domain name) => do
    let offered ← PublicOnlyResolver.resolve name answer.lookup
    return answer.tried.filter fun address => address ∈ offered.map SocketAddr.ip

/-- What one request did: where it connected, and how it ended. -/
structure Fetch where
  connections : List IpAddr
  response : Except DownloadError Response

/-- Send a request and follow its redirects, as long as some remain. -/
def send (answers : Nat → HopAnswer) (hop : Nat) (url : Url) (remaining : Nat) : Fetch :=
  match connected url (answers hop) with
  | .error error => ⟨[], .error error⟩
  | .ok connections =>
    match (answers hop).response with
    | .error reason => ⟨connections, .error (.transport reason)⟩
    | .ok response =>
      match response.location, remaining with
      | none, _ => ⟨connections, .ok response⟩
      | some _, 0 => ⟨connections, .error .tooManyRedirects⟩
      | some next, remaining + 1 =>
        let rest := send answers (hop + 1) next remaining
        ⟨connections ++ rest.connections, rest.response⟩

def readBounded (body : Body) (limit : Nat) : Except DownloadError (List UInt8) :=
  match body.failure with
  | some reason =>
    -- Only the bytes up to one past the limit are asked for.
    if body.bytes.length < limit + 1 then .error (.body reason)
    else .error (.bodyPastLimit limit)
  | none =>
    if limit < body.bytes.length then .error (.bodyPastLimit limit)
    else .ok body.bytes

def readResponse (response : Response) : Except DownloadError (List UInt8) :=
  if ¬ (200 ≤ response.status ∧ response.status < 300) then .error (.status response.status)
  else
    match response.contentLength with
    | some length =>
      if maxDownloadBytes < length then .error (.lengthOverLimit length maxDownloadBytes)
      else readBounded response.body maxDownloadBytes
    | none => readBounded response.body maxDownloadBytes

structure Download where
  connections : List IpAddr
  bytes : Except DownloadError (List UInt8)

/-- The fetcher of `http_downloader`. -/
def httpDownloader (library : UrlLibrary) (answers : Nat → HopAnswer)
    (download : PendingDownload) : Download :=
  match library.parse download.url with
  | .error reason => ⟨[], .error (.invalidUrl reason)⟩
  | .ok url =>
    let fetch := send answers 0 url maxDownloadRedirects
    ⟨fetch.connections, fetch.response.bind readResponse⟩

def redirect? (url : Url) (answer : HopAnswer) : Option Url :=
  match connected url answer, answer.response with
  | .ok _, .ok response => response.location
  | _, _ => none

/-- A chain of redirects leads from a request to a later one. -/
inductive Leads (answers : Nat → HopAnswer) : Nat → Url → Nat → Url → Prop
  | here {hop : Nat} {url : Url} : Leads answers hop url hop url
  | redirected {hop last : Nat} {url next target : Url}
      (redirect : redirect? url (answers hop) = some next)
      (rest : Leads answers (hop + 1) next last target) :
      Leads answers hop url last target

/-- The URL names an address off the public internet. -/
def NamesOffPublicInternet (url : Url) : Prop :=
  ∃ address, url.host.bind Host.literal? = some address ∧ isOffPublicInternet address = true

theorem PublicOnlyResolver.public_of_resolved {host : Str} {lookup : Except Str (List SocketAddr)}
    {offered : List SocketAddr} (resolved : resolve host lookup = .ok offered)
    {address : SocketAddr} (mem : address ∈ offered) :
    isOffPublicInternet address.ip = false := by
  obtain ⟨_, -, kept⟩ := Fallible.bind_eq_ok.mp resolved
  dsimp only at kept
  split at kept
  · cases kept
  · obtain rfl := Except.ok.inj kept
    simpa using (mem_filter.mp mem).2

theorem connected_public_iff {url : Url} {answer : HopAnswer} {connections : List IpAddr}
    (done : connected url answer = .ok connections) :
    (∀ address ∈ connections, isOffPublicInternet address = false) ↔
      ¬ NamesOffPublicInternet url := by
  cases hostShape : url.host with
  | none =>
    rw [connected, hostShape] at done
    cases done
  | some host =>
    cases host with
    | ipv4 address | ipv6 address =>
      rw [connected, hostShape] at done
      obtain rfl := Except.ok.inj done
      simp [NamesOffPublicInternet, hostShape, Host.literal?]
    | domain =>
      rw [connected, hostShape] at done
      obtain ⟨_, resolved, filtered⟩ := Fallible.bind_eq_ok.mp done
      obtain rfl := Except.ok.inj filtered
      have unnamed : ¬ NamesOffPublicInternet url := by
        simp [NamesOffPublicInternet, hostShape, Host.literal?]
      refine ⟨fun _ => unnamed, fun _ address mem => ?_⟩
      obtain ⟨-, offeredAddress⟩ := mem_filter.mp mem
      obtain ⟨_, socketMember, rfl⟩ := mem_map.mp (of_decide_eq_true offeredAddress)
      exact PublicOnlyResolver.public_of_resolved resolved socketMember

theorem exists_connected_of_names (answer : HopAnswer) {url : Url}
    (names : NamesOffPublicInternet url) :
    ∃ connections, connected url answer = .ok connections := by
  obtain ⟨address, literal, -⟩ := names
  cases hostShape : url.host with
  | none =>
    rw [hostShape] at literal
    cases literal
  | some host =>
    cases host with
    | domain =>
      rw [hostShape] at literal
      cases literal
    | ipv4 address => exact ⟨[.v4 address], by rw [connected, hostShape]⟩
    | ipv6 address => exact ⟨[.v6 address], by rw [connected, hostShape]⟩

variable {answers : Nat → HopAnswer}

theorem Leads.le {hop last : Nat} {url target : Url}
    (leads : Leads answers hop url last target) : hop ≤ last := by
  induction leads with
  | here => exact Nat.le_refl _
  | redirected => omega

theorem connections_send (answers : Nat → HopAnswer) (hop : Nat) (url : Url) (remaining : Nat) :
    (send answers hop url remaining).connections =
      match connected url (answers hop), redirect? url (answers hop), remaining with
      | .ok connections, some next, remaining + 1 =>
        connections ++ (send answers (hop + 1) next remaining).connections
      | .ok connections, _, _ => connections
      | .error _, _, _ => [] := by
  rw [send.eq_def]
  cases reached : connected url (answers hop) with
  | error error => simp
  | ok connections =>
    cases answered : (answers hop).response with
    | error => simp [redirect?, reached, answered]
    | ok response =>
      cases location : response.location with
      | none => simp [redirect?, reached, answered, location]
      | some next =>
        cases remaining with
        | zero | succ remaining => simp [redirect?, reached, answered, location]

theorem mem_connections_send {address : IpAddr} (remaining hop : Nat)
    (url : Url) : address ∈ (send answers hop url remaining).connections ↔
      ∃ last target connections, Leads answers hop url last target ∧ last ≤ hop + remaining ∧
        connected target (answers last) = .ok connections ∧ address ∈ connections := by
  induction remaining generalizing hop url with
  | zero =>
    rw [connections_send]
    constructor
    · intro mem
      cases reached : connected url (answers hop) with
      | error error => simp [reached] at mem
      | ok connections =>
        refine ⟨hop, url, connections, .here, Nat.le_refl _, reached, ?_⟩
        simpa [reached] using mem
    · rintro ⟨last, target, connections, leads, bound, reached, mem⟩
      cases leads with
      | here => simpa [reached] using mem
      | redirected _ rest =>
        have later := rest.le
        omega
  | succ remaining ih =>
    rw [connections_send]
    constructor
    · intro mem
      cases reached : connected url (answers hop) with
      | error error => simp [reached] at mem
      | ok connections =>
        have own (listed : address ∈ connections) :
            ∃ last target connections, Leads answers hop url last target ∧
              last ≤ hop + (remaining + 1) ∧
              connected target (answers last) = .ok connections ∧
              address ∈ connections :=
          ⟨hop, url, connections, .here, by omega, reached, listed⟩
        cases redirect : redirect? url (answers hop) with
        | none =>
          refine own ?_
          simpa [reached, redirect] using mem
        | some next =>
          simp only [reached, redirect, mem_append] at mem
          rcases mem with listed | behind
          · exact own listed
          · obtain ⟨last, target, others, leads, bound, found, listed⟩ :=
              (ih (hop + 1) next).mp behind
            exact ⟨last, target, others, .redirected redirect leads,
              by omega, found, listed⟩
    · rintro ⟨last, target, connections, leads, bound, found, listed⟩
      cases leads with
      | here =>
        cases redirect : redirect? url (answers hop) with
        | none => simpa [found, redirect] using listed
        | some next => simp [found, listed]
      | redirected redirect rest =>
        have behind := (ih _ _).mpr ⟨last, target, connections, rest, by omega, found, listed⟩
        obtain ⟨own, reached⟩ : ∃ own, connected url (answers hop) = .ok own := by
          cases reached : connected url (answers hop) with
          | error error => simp [redirect?, reached] at redirect
          | ok own => exact ⟨own, rfl⟩
        simp [reached, redirect, behind]

/-- The fetcher stays on the public internet exactly when no URL that it gets to names an
address off it. -/
theorem httpDownloader_public_iff (library : UrlLibrary) (answers : Nat → HopAnswer)
    (download : PendingDownload) :
    (∀ address ∈ (httpDownloader library answers download).connections,
      isOffPublicInternet address = false) ↔ ∀ {url : Url}, library.parse download.url = .ok url →
        ∀ {last : Nat} {target : Url}, Leads answers 0 url last target →
          last ≤ maxDownloadRedirects → ¬ NamesOffPublicInternet target := by
  cases parsed : library.parse download.url with
  | error => simp [httpDownloader, parsed]
  | ok url =>
    rw [httpDownloader, parsed]
    constructor
    · intro isPublic _ same last target leads bound names
      obtain rfl := Except.ok.inj same
      obtain ⟨connections, found⟩ := exists_connected_of_names (answers last) names
      refine (connected_public_iff found).mp ?_ names
      intro address listed
      refine isPublic address ((mem_connections_send _ _ _).mpr ?_)
      exact ⟨last, target, connections, leads, by omega, found, listed⟩
    · intro unnamed address mem
      obtain ⟨last, target, connections, leads, bound, found, listed⟩ :=
        (mem_connections_send _ _ _).mp mem
      have clean := unnamed rfl leads (by omega)
      exact (connected_public_iff found).mpr clean address listed

def loopbackLibrary : UrlLibrary where
  parse _ :=
    .ok
      { text := "http://127.0.0.1/".toList
        scheme := "http".toList
        username := []
        password := none
        host := some (.ipv4 ⟨127, 0, 0, 1⟩)
        port := none
        fragment := none }
  join _ _ := .error []

def loopbackScreenshot : PendingDownload where
  productId := none
  url := "http://127.0.0.1/".toList
  destPath := "screenshots/image_001.jpg".toList
  cacheKey := "screenshot_0".toList
  cached := false

/-- The machine itself answers it with an empty image, and no name is looked up. -/
def loopbackAnswers (_ : Nat) : HopAnswer where
  lookup := .error "no name".toList
  tried := []
  response :=
    .ok
      { status := 200
        location := none
        contentLength := some 0
        body := ⟨[], none⟩ }

/-- It is fetched from the machine the program runs on. -/
theorem httpDownloader_connects_to_loopback : ¬ ∀ address ∈
    (httpDownloader loopbackLibrary loopbackAnswers loopbackScreenshot).connections,
    isOffPublicInternet address = false := by
  decide +kernel

end Arclain.Downloads
