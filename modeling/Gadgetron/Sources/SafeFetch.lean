import Gadgetron.Lib.Exec
import Gadgetron.Lib.Text

/-!
# The bounded fetcher of public pages

`fetch_public_https`: a URL is checked, its host is resolved, all addresses must be public, one
request is sent to them, and a redirect starts again with its target.
-/

namespace Gadgetron.Sources

open Lib Option

structure Ipv4Addr where
  octets : UInt8 × UInt8 × UInt8 × UInt8

structure Ipv6Addr where
  segments : Fin 8 → UInt16

inductive IpAddr
  | v4 (ip : Ipv4Addr)
  | v6 (ip : Ipv6Addr)

namespace Ipv4Addr

variable (ip : Ipv4Addr)

def first : ℕ := ip.octets.1.toNat
def second : ℕ := ip.octets.2.1.toNat
def third : ℕ := ip.octets.2.2.1.toNat
def isPrivate : Bool :=
  ip.first = 10 || ip.first = 172 && 16 ≤ ip.second && ip.second ≤ 31 ||
    ip.first = 192 && ip.second = 168

def isLoopback : Bool := ip.first = 127

def isLinkLocal : Bool := ip.first = 169 && ip.second = 254

def isMulticast : Bool := 224 ≤ ip.first && ip.first ≤ 239

def isUnspecified : Bool := ip.octets = (0, 0, 0, 0)

def isBroadcast : Bool := ip.octets = (255, 255, 255, 255)

def isDocumentation : Bool :=
  ip.first = 192 && ip.second = 0 && ip.third = 2 ||
    ip.first = 198 && ip.second = 51 && ip.third = 100 ||
    ip.first = 203 && ip.second = 0 && ip.third = 113

/-- The branch of `is_public_unicast` for IPv4. -/
def isPublicUnicast : Bool :=
  !ip.isPrivate && !ip.isLoopback && !ip.isLinkLocal && !ip.isMulticast && !ip.isUnspecified &&
    !ip.isBroadcast && !ip.isDocumentation && ip.first ≠ 0 && ip.first < 224 &&
    !(ip.first = 100 && 64 ≤ ip.second && ip.second ≤ 127) &&
    !(ip.first = 192 && ip.second = 0 && ip.third = 0) &&
    !(ip.first = 192 && ip.second = 88 && ip.third = 99) &&
    !(ip.first = 198 && (ip.second = 18 || ip.second = 19))

end Ipv4Addr

def Ipv6Addr.toIpv4Mapped (ip : Ipv6Addr) : Option Ipv4Addr :=
  if (∀ i, i < 5 → ip.segments i = 0) ∧ ip.segments 5 = 0xffff then
    some ⟨(ip.segments 6 >>> 8).toUInt8, (ip.segments 6).toUInt8, (ip.segments 7 >>> 8).toUInt8,
      (ip.segments 7).toUInt8⟩
  else none

def isPublicUnicast : IpAddr → Bool
  | .v4 ip => ip.isPublicUnicast
  | .v6 ip =>
    match ip.toIpv4Mapped with
    | some mapped => mapped.isPublicUnicast
    | none => ip.segments 0 &&& 0xe000 = 0x2000 &&
        !(ip.segments 0 = 0x2001 && ip.segments 1 = 0x0db8)

/-! ## Policies and checks -/

/-- The fields of a parsed URL; `port` is the one that is given or known for the scheme. -/
structure Url where
  (scheme username : String)
  (password host : Option String)
  port : Option ℕ
  fragment : Option String
  text : String

structure SafeFetchPolicy where
  (maxBytes maxRedirects : ℕ)
  allowedContentTypes : List String
  allowedDomains : Option (List String)
  timeout : ℕ

inductive SafeFetchError
  | invalidUrl (message : String)
  | urlPolicy
  | domainBlocked
  | dns (message : String)
  | privateAddress
  | invalidRedirect
  | redirectLimit
  | httpStatus (status : ℕ)
  | contentType (contentType : String)
  | tooLarge (limit : ℕ)
  | emptyBody
  | transport (message : String)

def eqIgnoreAsciiCase (left right : String) : Bool :=
  left.toList.map Char.toLower = right.toList.map Char.toLower

def validateUrl (url : Url) (allowedDomains : Option (List String)) : Except SafeFetchError Unit :=
  if url.scheme != "https" || url.port != some 443 || url.username != "" ||
      url.password.isSome || url.fragment.isSome then .error .urlPolicy
  else if allowedDomains.any fun domains => url.host.all fun host =>
      !domains.any fun domain => eqIgnoreAsciiCase host domain then .error .domainBlocked
  else .ok ()

/-- `HeaderValue::to_str`. -/
def headerText (value : List UInt8) : Option String :=
  if value.all fun b => 32 ≤ b && b < 127 || b = 9 then
    some (String.ofList (value.map fun b => Char.ofNat b.toNat))
  else none

structure ResponseHead where
  status : ℕ
  (location contentType : Option (List UInt8))
  contentLength : Option ℕ

def normalizedContentType (head : ResponseHead) : String :=
  let value := ((head.contentType.bind headerText).getD "").toList.takeWhile (· != ';')
  String.ofList ((trim (String.ofList value)).toList.map Char.toLower)

def checkedHttpStatus (status : ℕ) : Except SafeFetchError ℕ :=
  if 200 ≤ status ∧ status < 300 then .ok status else .error (.httpStatus status)

def checkedContentLength (contentLength : Option ℕ) (maxBytes : ℕ) : Except SafeFetchError Unit :=
  if contentLength.any (maxBytes < ·) then .error (.tooLarge maxBytes) else .ok ()

def usizeMax : ℕ := 2 ^ 64 - 1

/-- The largest number of bytes that a vector holds. -/
def isizeMax : ℕ := 2 ^ 63 - 1

/-- `checked_stream_size`, with the saturating addition. -/
def checkedStreamSize (accumulated chunk maxBytes : ℕ) : Except SafeFetchError Unit :=
  if maxBytes < min (accumulated + chunk) usizeMax then .error (.tooLarge maxBytes) else .ok ()

structure Buffer where
  bytes : List UInt8
  length_le : bytes.length ≤ isizeMax

def Buffer.empty : Buffer := ⟨[], Nat.zero_le _⟩

/-- `extend_from_slice`, which panics where the capacity overflows. -/
def Buffer.extend (buffer chunk : Buffer) : Option Buffer :=
  if h : (buffer.bytes ++ chunk.bytes).length ≤ isizeMax then some ⟨_, h⟩ else none

/-! ## The loop -/

structure SocketAddr where
  ip : IpAddr
  port : ℕ

/-- A request that was sent, with the addresses that its host is pinned to. -/
structure SentRequest where
  url : Url
  host : String
  addresses : List SocketAddr
  (accept userAgent : String)

structure SafeFetchResponse where
  finalUrl : String
  status : ℕ
  contentType : String
  bytes : List UInt8
  redirects : ℕ

/-- Where the loop waits, or how it has ended. -/
inductive FetchPhase
  | resolving (url : Url) (host : String)
  | requested (url : Url)
  | reading (finalUrl : String) (status : ℕ) (contentType : String) (bytes : Buffer)
  | returned (response : SafeFetchResponse)
  | failed (error : SafeFetchError)
  | panicked

structure Fetch where
  phase : FetchPhase
  redirects : ℕ
  sent : List SentRequest

inductive FetchEvent
  /-- The host is resolved; `client` is the error of building the client. -/
  | resolved (answer : Except String (List IpAddr)) (client : Option String)
  | responded (answer : Except String ResponseHead)
  | chunk (answer : Except String Buffer)
  | ended
  | expired

section

variable (parse : String → Except String Url) (join : Url → String → Option Url)
  (policy : SafeFetchPolicy)

def checkedRedirect (current : Url) (location : String) (redirects maxRedirects : ℕ) :
    Except SafeFetchError Url :=
  if maxRedirects ≤ redirects then .error .redirectLimit
  else
    match join current location with
    | some url => .ok url
    | none => .error .invalidRedirect

/-- The beginning of a turn of the loop, up to the resolution of the host. -/
def beginTurn (url : Url) (redirects : ℕ) (sent : List SentRequest) : Fetch :=
  match validateUrl url policy.allowedDomains with
  | .error error => ⟨.failed error, redirects, sent⟩
  | .ok () =>
    match url.host with
    | none => ⟨.failed (.invalidUrl "host is missing"), redirects, sent⟩
    | some host => ⟨.resolving url host, redirects, sent⟩

/-- `fetch_public_https` up to the first await. -/
def beginFetch (rawUrl : String) : Fetch :=
  if policy.timeout = 0 then ⟨.failed (.transport "source deadline is exhausted"), 0, []⟩
  else
    match parse rawUrl with
    | .error message => ⟨.failed (.invalidUrl message), 0, []⟩
    | .ok url => beginTurn policy url 0 []

/-- The addresses are checked and the request is sent. -/
def sendTo (fetch : Fetch) (url : Url) (host : String) (ips : List IpAddr)
    (client : Option String) : Fetch :=
  let addresses := ips.map fun ip => (⟨ip, 443⟩ : SocketAddr)
  if addresses.isEmpty || addresses.any fun address => !isPublicUnicast address.ip then
    { fetch with phase := .failed .privateAddress }
  else
    match client with
    | some message => { fetch with phase := .failed (.transport message) }
    | none =>
      { fetch with
        phase := .requested url
        sent := fetch.sent ++ [⟨url, host, addresses, ", ".intercalate policy.allowedContentTypes,
          "Gadgetron-Knowledge-Collector/0.7"⟩] }

def acceptHead (url : Url) (head : ResponseHead) : Except SafeFetchError FetchPhase := do
  let status ← checkedHttpStatus head.status
  let contentType := normalizedContentType head
  if policy.allowedContentTypes.contains contentType then
    checkedContentLength head.contentLength policy.maxBytes
    return .reading url.text status contentType Buffer.empty
  else .error (.contentType contentType)

def extendBody (bytes chunk : Buffer) : Except SafeFetchError (Option Buffer) := do
  checkedStreamSize bytes.bytes.length chunk.bytes.length policy.maxBytes
  return bytes.extend chunk

def onResponse (fetch : Fetch) (url : Url) (head : ResponseHead) : Fetch :=
  if 300 ≤ head.status ∧ head.status < 400 then
    match head.location.bind headerText with
    | none => { fetch with phase := .failed .invalidRedirect }
    | some location =>
      match checkedRedirect join url location fetch.redirects policy.maxRedirects with
      | .error error => { fetch with phase := .failed error }
      | .ok next => beginTurn policy next (fetch.redirects + 1) fetch.sent
  else
    match acceptHead policy url head with
    | .error error => { fetch with phase := .failed error }
    | .ok phase => { fetch with phase }

def onEnd (fetch : Fetch) (finalUrl : String) (status : ℕ) (contentType : String)
    (bytes : Buffer) : Fetch :=
  if bytes.bytes.isEmpty then { fetch with phase := .failed .emptyBody }
  else { fetch with
    phase := .returned ⟨finalUrl, status, contentType, bytes.bytes, fetch.redirects⟩ }

/-- `fetch_public_https_inner`, from one await to the next. -/
def fetchStep (fetch : Fetch) : FetchEvent → Option Fetch
  | .resolved answer client =>
    match fetch.phase with
    | .resolving url host =>
      match answer with
      | .error message => some { fetch with phase := .failed (.dns message) }
      | .ok ips => some (sendTo policy fetch url host ips client)
    | _ => none
  | .responded answer =>
    match fetch.phase with
    | .requested url =>
      match answer with
      | .error message => some { fetch with phase := .failed (.transport message) }
      | .ok head => some (onResponse join policy fetch url head)
    | _ => none
  | .chunk answer =>
    match fetch.phase with
    | .reading finalUrl status contentType bytes =>
      match answer with
      | .error message => some { fetch with phase := .failed (.transport message) }
      | .ok chunk =>
        match extendBody policy bytes chunk with
        | .error error => some { fetch with phase := .failed error }
        | .ok none => some { fetch with phase := .panicked }
        | .ok (some bytes) =>
          some { fetch with phase := .reading finalUrl status contentType bytes }
    | _ => none
  | .ended =>
    match fetch.phase with
    | .reading finalUrl status contentType bytes =>
      some (onEnd fetch finalUrl status contentType bytes)
    | _ => none
  | .expired =>
    match fetch.phase with
    | .resolving _ _ | .requested _ | .reading _ _ _ _ =>
      some { fetch with phase := .failed (.transport "source deadline exceeded") }
    | _ => none

abbrev fetchMachine : Machine Fetch FetchEvent := ⟨fetchStep join policy⟩

end

/-! ## Checked values -/

section

variable {policy : SafeFetchPolicy} {url : Url}

/-- An `https` URL of an allowed domain without credentials or a fragment. -/
structure AllowedUrl (policy : SafeFetchPolicy) (url : Url) : Prop where
  scheme : url.scheme = "https"
  port : url.port = some 443
  username : url.username = ""
  password : url.password = none
  fragment : url.fragment = none
  domain : ∀ domains ∈ policy.allowedDomains, ∃ host ∈ url.host, ∃ domain ∈ domains,
    eqIgnoreAsciiCase host domain = true

theorem validateUrl_ok (h : validateUrl url policy.allowedDomains = .ok ()) :
    AllowedUrl policy url := by
  unfold validateUrl at h
  split_ifs at h with hfields hdomains
  simp only [Bool.or_eq_true, bne_iff_ne, ne_eq, not_or, not_not, Bool.not_eq_true,
    isSome_eq_false_iff, isNone_iff_eq_none] at hfields
  obtain ⟨⟨⟨⟨hscheme, hport⟩, husername⟩, hpassword⟩, hfragment⟩ := hfields
  refine ⟨hscheme, hport, husername, hpassword, hfragment, fun domains hmem => ?_⟩
  rw [mem_def.1 hmem, any_some, Bool.not_eq_true, Option.all_eq_false] at hdomains
  obtain ⟨host, hhost, hnot⟩ := hdomains
  rw [Bool.not_eq_false', List.any_eq_true] at hnot
  exact ⟨host, hhost, hnot⟩

/-- A request to an allowed `https` URL, at public addresses only. -/
structure SafeRequest (policy : SafeFetchPolicy) (request : SentRequest) : Prop where
  url : AllowedUrl policy request.url
  host : request.url.host = some request.host
  resolved : request.addresses ≠ []
  addresses : ∀ address ∈ request.addresses, address.port = 443 ∧ isPublicUnicast address.ip = true

/-- What is known where the loop waits, and of what it returns. -/
def PhaseSound (policy : SafeFetchPolicy) (redirects sent : ℕ) : FetchPhase → Prop
  | .resolving url host => AllowedUrl policy url ∧ url.host = some host ∧ sent = redirects
  | .requested _ => sent = redirects + 1
  | .reading _ _ _ bytes => sent = redirects + 1 ∧ bytes.bytes.length ≤ policy.maxBytes
  | .returned response => sent = redirects + 1 ∧ response.redirects = redirects ∧
      response.bytes ≠ [] ∧ response.bytes.length ≤ policy.maxBytes
  | .failed _ | .panicked => sent ≤ redirects + 1

structure FetchSound (policy : SafeFetchPolicy) (fetch : Fetch) : Prop where
  requests : ∀ request ∈ fetch.sent, SafeRequest policy request
  redirects : fetch.redirects ≤ policy.maxRedirects
  phase : PhaseSound policy fetch.redirects fetch.sent.length fetch.phase

variable {fetch : Fetch}

theorem FetchSound.fail {error : SafeFetchError} (h : FetchSound policy fetch)
    (hsent : fetch.sent.length ≤ fetch.redirects + 1) :
    FetchSound policy { fetch with phase := .failed error } :=
  ⟨h.requests, h.redirects, hsent⟩

theorem FetchSound.length_sent (h : FetchSound policy fetch) :
    fetch.sent.length ≤ fetch.redirects + 1 := by
  have hphase := h.phase
  cases hcase : fetch.phase with
  | resolving url host =>
    rw [hcase] at hphase
    exact le_of_eq_of_le hphase.2.2 (Nat.le_succ _)
  | requested url =>
    rw [hcase] at hphase
    exact le_of_eq hphase
  | reading | returned =>
    rw [hcase] at hphase
    exact le_of_eq hphase.1
  | failed | panicked =>
    rw [hcase] at hphase
    exact hphase

theorem fetchSound_beginTurn {redirects : ℕ} {sent : List SentRequest}
    (hrequests : ∀ request ∈ sent, SafeRequest policy request)
    (hredirects : redirects ≤ policy.maxRedirects) (hsent : sent.length = redirects) :
    FetchSound policy (beginTurn policy url redirects sent) := by
  have hle : sent.length ≤ redirects + 1 := by omega
  unfold beginTurn
  cases hvalid : validateUrl url policy.allowedDomains with
  | error error => exact ⟨hrequests, hredirects, hle⟩
  | ok valid =>
    cases hhost : url.host with
    | none => exact ⟨hrequests, hredirects, hle⟩
    | some host => exact ⟨hrequests, hredirects, validateUrl_ok hvalid, hhost, hsent⟩

theorem fetchSound_sendTo {host : String} {ips : List IpAddr}
    {client : Option String} (h : FetchSound policy fetch)
    (hphase : PhaseSound policy fetch.redirects fetch.sent.length (.resolving url host)) :
    FetchSound policy (sendTo policy fetch url host ips client) := by
  obtain ⟨hurl, hhost, hsent⟩ := hphase
  unfold sendTo
  dsimp only
  split_ifs with haddresses
  · exact h.fail h.length_sent
  · simp only [Bool.or_eq_true, List.isEmpty_iff, List.any_eq_true, not_or, not_exists, not_and,
      Bool.not_eq_true', Bool.not_eq_false] at haddresses
    cases client with
    | some message => exact h.fail h.length_sent
    | none =>
      refine ⟨fun request hrequest => ?_, h.redirects, ?_⟩
      · rcases List.mem_append.1 hrequest with hold | hnew
        · exact h.requests request hold
        · cases List.mem_singleton.1 hnew
          refine ⟨hurl, hhost, haddresses.1, fun address haddress => ?_⟩
          obtain ⟨ip, -, rfl⟩ := List.mem_map.1 haddress
          exact ⟨rfl, haddresses.2 _ haddress⟩
      · change (fetch.sent ++ [_]).length = fetch.redirects + 1
        rw [List.length_append, hsent]
        rfl

variable {head : ResponseHead}

theorem acceptHead_ok {phase : FetchPhase} (h : acceptHead policy url head = .ok phase) :
    ∃ status contentType, phase = .reading url.text status contentType Buffer.empty := by
  unfold acceptHead at h
  obtain ⟨status, -, h⟩ := bind_eq_ok.1 h
  dsimp only at h
  split_ifs at h
  obtain ⟨_, -, h⟩ := bind_eq_ok.1 h
  cases h
  exact ⟨status, _, rfl⟩

theorem extendBody_ok {bytes chunk body : Buffer}
    (h : extendBody policy bytes chunk = .ok (some body)) :
    body.bytes.length ≤ policy.maxBytes := by
  unfold extendBody at h
  obtain ⟨_, hsize, h⟩ := bind_eq_ok.1 h
  have hextend : bytes.extend chunk = some body := Except.ok.inj h
  unfold Buffer.extend at hextend
  split_ifs at hextend with hlength
  cases hextend
  have hbytes := bytes.length_le
  have hchunk := chunk.length_le
  unfold checkedStreamSize at hsize
  split_ifs at hsize with hlimit
  change (bytes.bytes ++ chunk.bytes).length ≤ policy.maxBytes
  rw [List.length_append]
  unfold isizeMax usizeMax at *
  omega

variable {join : Url → String → Option Url}

theorem checkedRedirect_ok {location : String} {redirects maxRedirects : ℕ} {next : Url}
    (h : checkedRedirect join url location redirects maxRedirects = .ok next) :
    redirects < maxRedirects := by
  unfold checkedRedirect at h
  by_contra hlimit
  rw [if_pos (not_lt.1 hlimit)] at h
  cases h

theorem fetchSound_onResponse (h : FetchSound policy fetch)
    (hphase : PhaseSound policy fetch.redirects fetch.sent.length (.requested url)) :
    FetchSound policy (onResponse join policy fetch url head) := by
  unfold onResponse
  by_cases hstatus : 300 ≤ head.status ∧ head.status < 400
  · rw [if_pos hstatus]
    cases hlocation : head.location.bind headerText with
    | none => exact h.fail h.length_sent
    | some location =>
      dsimp only
      cases hnext : checkedRedirect join url location fetch.redirects policy.maxRedirects with
      | error error => exact h.fail h.length_sent
      | ok next => exact fetchSound_beginTurn h.requests (checkedRedirect_ok hnext) hphase
  · rw [if_neg hstatus]
    cases haccept : acceptHead policy url head with
    | error error => exact h.fail h.length_sent
    | ok phase =>
      obtain ⟨status, contentType, rfl⟩ := acceptHead_ok haccept
      exact ⟨h.requests, h.redirects, hphase, Nat.zero_le _⟩

theorem fetchSound_onEnd {finalUrl contentType : String} {status : ℕ}
    {bytes : Buffer} (h : FetchSound policy fetch)
    (hphase : PhaseSound policy fetch.redirects fetch.sent.length
      (.reading finalUrl status contentType bytes)) :
    FetchSound policy (onEnd fetch finalUrl status contentType bytes) := by
  unfold onEnd
  split_ifs with hempty
  · exact h.fail h.length_sent
  · rw [List.isEmpty_iff] at hempty
    exact ⟨h.requests, h.redirects, hphase.1, rfl, hempty, hphase.2⟩

theorem fetchSound_fetchStep {fetch fetch' : Fetch}
    {event : FetchEvent} (h : FetchSound policy fetch)
    (hstep : fetchStep join policy fetch event = some fetch') : FetchSound policy fetch' := by
  have hphase := h.phase
  cases event with
  | resolved answer client =>
    cases hcase : fetch.phase with
    | resolving url host =>
      rw [hcase] at hphase
      simp only [fetchStep, hcase] at hstep
      cases answer with
      | error message =>
        cases hstep
        exact h.fail h.length_sent
      | ok ips =>
        cases hstep
        exact fetchSound_sendTo h hphase
    | _ => simp only [fetchStep, hcase] at hstep; cases hstep
  | responded answer =>
    cases hcase : fetch.phase with
    | requested url =>
      rw [hcase] at hphase
      simp only [fetchStep, hcase] at hstep
      cases answer with
      | error message =>
        cases hstep
        exact h.fail h.length_sent
      | ok head =>
        cases hstep
        exact fetchSound_onResponse h hphase
    | _ => simp only [fetchStep, hcase] at hstep; cases hstep
  | chunk answer =>
    cases hcase : fetch.phase with
    | reading finalUrl status contentType bytes =>
      rw [hcase] at hphase
      simp only [fetchStep, hcase] at hstep
      cases answer with
      | error message =>
        cases hstep
        exact h.fail h.length_sent
      | ok chunk =>
        dsimp only at hstep
        cases hextend : extendBody policy bytes chunk with
        | error error =>
          rw [hextend] at hstep
          cases hstep
          exact h.fail h.length_sent
        | ok extended =>
          rw [hextend] at hstep
          cases extended with
          | none =>
            cases hstep
            exact ⟨h.requests, h.redirects, h.length_sent⟩
          | some body =>
            cases hstep
            exact ⟨h.requests, h.redirects, hphase.1, extendBody_ok hextend⟩
    | _ => simp only [fetchStep, hcase] at hstep; cases hstep
  | ended =>
    cases hcase : fetch.phase with
    | reading finalUrl status contentType bytes =>
      rw [hcase] at hphase
      simp only [fetchStep, hcase] at hstep
      cases hstep
      exact fetchSound_onEnd h hphase
    | _ => simp only [fetchStep, hcase] at hstep; cases hstep
  | expired =>
    have hfailed : fetch' =
        { fetch with phase := .failed (.transport "source deadline exceeded") } := by
      cases hcase : fetch.phase with
      | resolving | requested => simp only [fetchStep, hcase] at hstep; cases hstep; rfl
      | reading finalUrl status contentType bytes =>
        simp only [fetchStep, hcase] at hstep
        cases hstep
        rfl
      | _ => simp only [fetchStep, hcase] at hstep; cases hstep
    rw [hfailed]
    exact h.fail h.length_sent

theorem fetchSound_beginFetch (parse : String → Except String Url) (rawUrl : String) :
    FetchSound policy (beginFetch parse policy rawUrl) := by
  have hnone : ∀ request ∈ ([] : List SentRequest), SafeRequest policy request :=
    fun request hrequest => absurd hrequest List.not_mem_nil
  unfold beginFetch
  split_ifs with htimeout
  · exact ⟨hnone, Nat.zero_le _, Nat.zero_le _⟩
  · cases parse rawUrl with
    | error message => exact ⟨hnone, Nat.zero_le _, Nat.zero_le _⟩
    | ok url => exact fetchSound_beginTurn hnone (Nat.zero_le _) rfl

end

/-! ## Runs -/

/-- Whatever the resolver and the servers answer, every request is safe, the redirects followed are
within their limit, and a returned body is not empty and within its own. -/
theorem fetch_safe (parse : String → Except String Url) (join : Url → String → Option Url)
    (policy : SafeFetchPolicy) (rawUrl : String) {events : List FetchEvent} {fetch : Fetch}
    (hrun : (fetchMachine join policy).exec (beginFetch parse policy rawUrl) events = some fetch) :
    (∀ request ∈ fetch.sent, SafeRequest policy request) ∧
      fetch.sent.length ≤ policy.maxRedirects + 1 ∧ ∀ response, fetch.phase = .returned response →
        response.bytes ≠ [] ∧ response.bytes.length ≤ policy.maxBytes := by
  have hsound : FetchSound policy fetch :=
    (fetchMachine join policy).invariant (fun _ _ _ h hstep => fetchSound_fetchStep h hstep)
      (fetchSound_beginFetch parse rawUrl) hrun
  refine ⟨hsound.requests, ?_, fun response hresponse => ?_⟩
  · have hsent := hsound.length_sent
    have hredirects := hsound.redirects
    omega
  · have hphase := hsound.phase
    rw [hresponse] at hphase
    exact hphase.2.2

/-! ## A fetch with a redirect -/

def sampleUrl (host path : String) : Url where
  scheme := "https"
  username := ""
  password := none
  host := some host
  port := some 443
  fragment := none
  text := "https://" ++ host ++ path

def sampleFetchPolicy : SafeFetchPolicy where
  maxBytes := 3
  maxRedirects := 1
  allowedContentTypes := ["text/html"]
  allowedDomains := some ["example.com", "example.org"]
  timeout := 1000

def publicIp : IpAddr := .v4 ⟨8, 8, 8, 8⟩

def redirectHead : ResponseHead :=
  ⟨302, some [104, 116, 116, 112, 115, 58, 47, 47, 101, 120, 97, 109, 112, 108, 101, 46, 111, 114,
    103, 47, 98], none, none⟩

/-- `Text/HTML; q` -/
def pageHead : ResponseHead :=
  ⟨200, none, some [84, 101, 120, 116, 47, 72, 84, 77, 76, 59, 32, 113], some 3⟩

def sampleEvents : List FetchEvent :=
  [.resolved (.ok [publicIp]) none, .responded (.ok redirectHead), .resolved (.ok [publicIp]) none,
    .responded (.ok pageHead), .chunk (.ok ⟨[1, 2], by decide⟩), .chunk (.ok ⟨[3], by decide⟩),
    .ended]

def sampleParse : String → Except String Url := fun _ => .ok (sampleUrl "Example.com" "/a")

def sampleJoin : Url → String → Option Url := fun _ _ => some (sampleUrl "example.org" "/b")

theorem sampleFetch_safe : ∃ fetch, (fetchMachine sampleJoin sampleFetchPolicy).exec
        (beginFetch sampleParse sampleFetchPolicy "https://Example.com/a") sampleEvents =
          some fetch ∧
      fetch.sent.length = 2 ∧ ∀ request ∈ fetch.sent, SafeRequest sampleFetchPolicy request :=
  ⟨_, rfl, rfl, (fetch_safe sampleParse sampleJoin sampleFetchPolicy "https://Example.com/a"
    (show (fetchMachine sampleJoin sampleFetchPolicy).exec _ sampleEvents = some _ from rfl)).1⟩

end Gadgetron.Sources
