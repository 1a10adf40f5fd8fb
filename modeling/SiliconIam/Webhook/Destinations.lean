/-
# Webhook.Destinations -- where a delivery connects to

`deliver` checks the URL, asks the resolver once, classifies every address of the answer
and hands the answer to an HTTP client that neither follows redirects nor uses a proxy.
What the client does with it is a parameter: `ConnectsToPinned` says that such a client
connects to the literal address of the URL or to the addresses it was given for its host.

`resolve_ok` is the one lemma about resolution; `deliver_reaches_public` puts it together
with the classification of `Webhook.PublicAddresses`.

The response body comes as its digest, or as the reason why there is none.  The resolver
answers what it likes, at every call anew.
-/
import Mathlib.Data.List.Dedup
import Mathlib.Data.List.Lex
import Mathlib.Data.List.Sort
import SiliconIam.Theory.Fallible
import SiliconIam.Theory.Hex
import SiliconIam.Webhook.PublicAddresses

namespace SiliconIam.Webhook.Destinations

open SiliconIam.Theory
open SiliconIam.Theory.Hex (Bytes)
open SiliconIam.Webhook.PublicAddresses

set_option autoImplicit false

/-! ## Requests -/

inductive RuntimeEnvironment where
  | development
  | test
  | production
  deriving DecidableEq, Repr

inductive Host where
  | domain (name : String)
  | ipv4 (address : Ipv4Addr)
  | ipv6 (address : Ipv6Addr)
  deriving DecidableEq, Repr

/-- The parts of a parsed URL that a delivery looks at. -/
structure Url where
  scheme : String
  username : String
  password : Option String
  host : Option Host
  port : Option UInt16
  fragment : Option String
  deriving DecidableEq, Repr

/-- The default port of the schemes that have one. -/
def knownDefaultPort (scheme : String) : Option UInt16 :=
  if scheme = "http" || scheme = "ws" then some 80
  else if scheme = "https" || scheme = "wss" then some 443
  else if scheme = "ftp" then some 21
  else none

def Url.portOrKnownDefault (url : Url) : Option UInt16 :=
  url.port.or (knownDefaultPort url.scheme)

inductive WebhookError where
  | destinationRejected
  | resolutionFailed
  | unavailable
  | httpStatus (status : Nat)
  | responseTooLarge (status : Nat)
  | signingFailed
  deriving DecidableEq, Repr

structure WebhookReceipt where
  httpStatus : Nat
  responseDigest : Bytes
  deriving DecidableEq, Repr

def endsWith (text tail : String) : Bool := tail.toList.isSuffixOf text.toList

def validateUrl (environment : RuntimeEnvironment) (destination : Url) :
    Except WebhookError Unit :=
  let allowedScheme := destination.scheme = "https" ||
    (environment ≠ .production && destination.scheme = "http")
  let rooted := match destination.host with
    | some (.domain name) => endsWith name "."
    | _ => false
  if !allowedScheme || destination.username ≠ "" || destination.password.isSome ||
      destination.fragment.isSome || destination.host.isNone || rooted then
    .error .destinationRejected
  else .ok ()

/-! ## Resolution -/

structure SocketAddr where
  ip : IpAddr
  port : UInt16
  deriving DecidableEq, Repr

/-- What addresses are sorted by: the version, the address and the port. -/
def SocketAddr.key (address : SocketAddr) : List Nat :=
  match address.ip with
  | .v4 ip => 4 :: ip.groups ++ [address.port.toNat]
  | .v6 ip => 6 :: ip.groups ++ [address.port.toNat]

/-- The end of a lookup, within its two seconds or not. -/
inductive Lookup where
  | timedOut
  | failed
  | resolved (answer : List SocketAddr)
  deriving DecidableEq, Repr

abbrev Resolver := String × UInt16 → Lookup

def hasFinalLabel (domain label : String) : Bool :=
  domain.toList.contains '.' &&
    (domain.toList.reverse.takeWhile fun c => c ≠ '.').reverse = label.toList

/-- What a delivery may connect to, with the host name the addresses are for and the
questions asked to find them. -/
structure Resolution where
  questions : List (String × UInt16)
  outcome : Except WebhookError (Option String × List SocketAddr)

/-- Sorted, without repetitions. -/
def distinct (answer : List SocketAddr) : List SocketAddr :=
  (answer.insertionSort fun a b => a.key ≤ b.key).dedup

def resolveLiteral (ip : IpAddr) (port : UInt16) : Resolution :=
  { questions := []
    outcome :=
      if isPublicDestination ip then .ok (none, [{ ip := ip, port := port }])
      else .error .destinationRejected }

def resolvePublicAddresses (resolver : Resolver) (host : Host) (port : UInt16) : Resolution :=
  match host with
  | .ipv4 address => resolveLiteral (.v4 address) port
  | .ipv6 address => resolveLiteral (.v6 address) port
  | .domain domain =>
      let normalized := domain.toLower
      if endsWith domain "." || normalized = "" || normalized = "localhost" ||
          endsWith normalized ".localhost" || hasFinalLabel normalized "local" ||
          hasFinalLabel normalized "internal" then
        { questions := [], outcome := .error .destinationRejected }
      else
        { questions := [(normalized, port)]
          outcome :=
            match resolver (normalized, port) with
            | .timedOut => .error .resolutionFailed
            | .failed => .error .resolutionFailed
            | .resolved answer =>
                let addresses := distinct answer
                if addresses.isEmpty ||
                    addresses.any (fun address => !isPublicDestination address.ip) then
                  .error .destinationRejected
                else .ok (some normalized, addresses) }

/-! ## The client -/

inductive Redirects where
  | followed
  | none
  deriving DecidableEq, Repr

/-- The settings of a client as far as they bear on where it connects. -/
structure ClientConfig where
  /-- Proxies of the environment are used. -/
  proxy : Bool
  redirects : Redirects
  httpsOnly : Bool
  /-- Addresses given for a host name, instead of a lookup by the client. -/
  resolveToAddrs : Option (String × List SocketAddr)
  deriving DecidableEq, Repr

inductive ResponseBodyError where
  | unavailable
  | tooLarge
  deriving DecidableEq, Repr

structure Response where
  status : Nat
  body : Except ResponseBodyError Bytes

/-- What happens when a client posts: the connections it opens and the response, if one
arrives. -/
structure Exchange where
  connections : List SocketAddr
  response : Option Response

structure Client where
  /-- The settings can be built. -/
  build : ClientConfig → Bool
  post : ClientConfig → Url → Exchange

/-- Without proxies and redirects a client connects only to the literal address of the URL
or to the addresses it was given for its host. -/
def ConnectsToPinned (client : Client) : Prop :=
  ∀ (config : ClientConfig) (url : Url), config.proxy = false → config.redirects = .none →
    ∀ address ∈ (client.post config url).connections,
      match url.host with
      | some (.ipv4 literal) => address.ip = .v4 literal
      | some (.ipv6 literal) => address.ip = .v6 literal
      | some (.domain domain) => ∀ given, config.resolveToAddrs = some (domain.toLower, given) →
          ∃ pinned ∈ given, address.ip = pinned.ip
      | none => False

/-! ## Delivery -/

structure Delivered where
  questions : List (String × UInt16)
  connections : List SocketAddr
  result : Except WebhookError WebhookReceipt

def classifyResponseBodyError (status : Nat) : ResponseBodyError → WebhookError
  | .tooLarge => .responseTooLarge status
  | .unavailable => if !(200 ≤ status && status < 300) then .httpStatus status else .unavailable

def receipt (exchange : Exchange) : Except WebhookError WebhookReceipt :=
  match exchange.response with
  | none => .error .unavailable
  | some response =>
      match response.body with
      | .error error => .error (classifyResponseBodyError response.status error)
      | .ok digest =>
          if 200 ≤ response.status && response.status < 300 then
            .ok { httpStatus := response.status, responseDigest := digest }
          else .error (.httpStatus response.status)

/-- The settings of a delivery. -/
def clientConfig (environment : RuntimeEnvironment)
    (pinned : Option String × List SocketAddr) : ClientConfig :=
  { proxy := false
    redirects := .none
    httpsOnly := environment = .production
    resolveToAddrs := pinned.1.map fun hostName => (hostName, pinned.2) }

/-- `deliver`; `signed` is whether the signature can be made. -/
def deliver (client : Client) (resolver : Resolver) (environment : RuntimeEnvironment)
    (destination : Url) (signed : Bool) : Delivered :=
  let refused (error : WebhookError) : Delivered :=
    { questions := [], connections := [], result := .error error }
  match validateUrl environment destination, destination.host, destination.portOrKnownDefault with
  | .error error, _, _ => refused error
  | .ok _, none, _ => refused .destinationRejected
  | .ok _, some _, none => refused .destinationRejected
  | .ok _, some host, some port =>
      let resolution := resolvePublicAddresses resolver host port
      match resolution.outcome with
      | .error error =>
          { questions := resolution.questions, connections := [], result := .error error }
      | .ok pinned =>
          let config := clientConfig environment pinned
          if !client.build config then
            { questions := resolution.questions, connections := [], result := .error .unavailable }
          else if !signed then
            { questions := resolution.questions, connections := []
              result := .error .signingFailed }
          else
            let exchange := client.post config destination
            { questions := resolution.questions, connections := exchange.connections
              result := receipt exchange }

/-! ## What is connected to -/

/-- An address that a delivery may connect to for this host: its literal address, or one
of the answer to the question asked. -/
def Permitted (resolver : Resolver) (host : Host) (questions : List (String × UInt16))
    (ip : IpAddr) : Prop :=
  match host with
  | .ipv4 literal => ip = .v4 literal
  | .ipv6 literal => ip = .v6 literal
  | .domain _ => ∃ question answer, questions = [question] ∧
      resolver question = .resolved answer ∧ ∃ address ∈ answer, ip = address.ip

theorem mem_distinct {answer : List SocketAddr} {address : SocketAddr} :
    address ∈ distinct answer ↔ address ∈ answer := by
  rw [distinct, List.mem_dedup, List.mem_insertionSort]

theorem questions_length (resolver : Resolver) (host : Host) (port : UInt16) :
    (resolvePublicAddresses resolver host port).questions.length ≤ 1 := by
  unfold resolvePublicAddresses
  cases host with
  | ipv4 address => exact Nat.zero_le 1
  | ipv6 address => exact Nat.zero_le 1
  | domain domain =>
      dsimp only
      split
      · exact Nat.zero_le 1
      · exact Nat.le_refl 1

/-- A literal is resolved to itself if it is public. -/
theorem resolveLiteral_ok {ip : IpAddr} {port : UInt16} {pinned : Option String × List SocketAddr}
    (resolved : (resolveLiteral ip port).outcome = .ok pinned) : isPublicDestination ip = true := by
  unfold resolveLiteral at resolved
  split at resolved
  · assumption
  · cases resolved

/-- A name is resolved to public addresses of the answer to the one question, under its
lowercase form. -/
theorem resolve_domain_ok {resolver : Resolver} {domain : String} {port : UInt16}
    {pinned : Option String × List SocketAddr}
    (resolved : (resolvePublicAddresses resolver (.domain domain) port).outcome = .ok pinned) :
    pinned.1 = some domain.toLower ∧ ∃ answer,
      (resolvePublicAddresses resolver (.domain domain) port).questions =
        [(domain.toLower, port)] ∧
      resolver (domain.toLower, port) = .resolved answer ∧
      ∀ address ∈ pinned.2, address ∈ answer ∧ isPublicDestination address.ip = true := by
  unfold resolvePublicAddresses at resolved ⊢
  dsimp only at resolved ⊢
  split at resolved
  · cases resolved
  · rename_i named
    rw [if_neg named]
    cases looked : resolver (domain.toLower, port) with
    | timedOut => simp [looked] at resolved
    | failed => simp [looked] at resolved
    | resolved answer =>
        simp only [looked] at resolved
        obtain ⟨allowed, resolved⟩ := Fallible.unless_ok.mp resolved
        cases resolved
        refine ⟨rfl, answer, rfl, rfl, ?_⟩
        intro address mem
        refine ⟨mem_distinct.mp mem, ?_⟩
        rw [Bool.or_eq_true, not_or, Bool.not_eq_true, Bool.not_eq_true, List.any_eq_false]
          at allowed
        simpa using allowed.2 address mem

/-- One address of the answer that is not public ends the delivery. -/
theorem resolve_rejects {resolver : Resolver} {host : Host} {port : UInt16}
    {question : String × UInt16} {answer : List SocketAddr} {address : SocketAddr}
    (asked : question ∈ (resolvePublicAddresses resolver host port).questions)
    (looked : resolver question = .resolved answer) (mem : address ∈ answer)
    (private_ : isPublicDestination address.ip = false) :
    (resolvePublicAddresses resolver host port).outcome = .error .destinationRejected := by
  cases host with
  | ipv4 literal => cases asked
  | ipv6 literal => cases asked
  | domain domain =>
      unfold resolvePublicAddresses at asked ⊢
      dsimp only at asked ⊢
      split at asked
      · cases asked
      · rename_i named
        have same := List.mem_singleton.mp asked
        subst same
        have found : (distinct answer).any (fun address => !isPublicDestination address.ip) =
            true := by
          rw [List.any_eq_true]
          exact ⟨address, mem_distinct.mpr mem, by simp [private_]⟩
        simp only [if_neg named, looked, found, Bool.or_true, if_true]

/-- A delivery is refused before it resolves anything, or it resolves its host: if that
fails it opens no connection, otherwise at most those of one post. -/
theorem deliver_cases (client : Client) (resolver : Resolver) (environment : RuntimeEnvironment)
    (destination : Url) (signed : Bool) :
    let delivered := deliver client resolver environment destination signed
    (delivered.questions = [] ∧ delivered.connections = []) ∨
    ∃ host port, destination.host = some host ∧
      delivered.questions = (resolvePublicAddresses resolver host port).questions ∧
      ((∃ error, (resolvePublicAddresses resolver host port).outcome = .error error ∧
          delivered.connections = [] ∧ delivered.result = .error error) ∨
        ∃ pinned, (resolvePublicAddresses resolver host port).outcome = .ok pinned ∧
          (delivered.connections = [] ∨ delivered.connections =
            (client.post (clientConfig environment pinned) destination).connections)) := by
  unfold deliver
  cases valid : validateUrl environment destination with
  | error error => exact .inl ⟨rfl, rfl⟩
  | ok _ =>
      cases named : destination.host with
      | none => exact .inl ⟨rfl, rfl⟩
      | some host =>
          cases ported : destination.portOrKnownDefault with
          | none => exact .inl ⟨rfl, rfl⟩
          | some port =>
              refine .inr ⟨host, port, rfl, ?_⟩
              cases resolved : (resolvePublicAddresses resolver host port).outcome with
              | error error =>
                  simp only [resolved]
                  exact ⟨trivial, .inl ⟨error, rfl, trivial, rfl⟩⟩
              | ok pinned =>
                  simp only [resolved]
                  by_cases built : client.build (clientConfig environment pinned) = true
                  · cases signed with
                    | true =>
                        rw [if_neg (by simp [built]), if_neg (by simp)]
                        exact ⟨rfl, .inr ⟨pinned, rfl, .inr rfl⟩⟩
                    | false =>
                        rw [if_neg (by simp [built]), if_pos (by simp)]
                        exact ⟨rfl, .inr ⟨pinned, rfl, .inl rfl⟩⟩
                  · rw [if_pos (by simp [built])]
                    exact ⟨rfl, .inr ⟨pinned, rfl, .inl rfl⟩⟩

/-- Whatever the environment, the destination and the answers of the resolver: a delivery
asks at most one question; every connection it opens goes to a public address, the literal
of the URL or one of the answer to that question; and an answer with an address that is
not public rejects the delivery without a connection. -/
theorem deliver_reaches_public (client : Client) (pins : ConnectsToPinned client)
    (resolver : Resolver) (environment : RuntimeEnvironment) (destination : Url) (signed : Bool) :
    let delivered := deliver client resolver environment destination signed
    delivered.questions.length ≤ 1 ∧
    (∀ connection ∈ delivered.connections, Public connection.ip ∧ ∃ host,
      destination.host = some host ∧
        Permitted resolver host delivered.questions connection.ip) ∧
    (∀ question ∈ delivered.questions, ∀ answer, resolver question = .resolved answer →
      ∀ address ∈ answer, (isPublicDestination address.ip = false ∨ ¬Public address.ip) →
        delivered.connections = [] ∧ delivered.result = .error .destinationRejected) := by
  have cases_ := deliver_cases client resolver environment destination signed
  dsimp only at cases_ ⊢
  obtain ⟨unasked, idle⟩ | ⟨host, port, named, asked, outcome⟩ := cases_
  · rw [unasked, idle]
    refine ⟨by simp, ?_, ?_⟩
    · intro connection mem
      cases mem
    · intro question mem
      cases mem
  · refine ⟨asked ▸ questions_length resolver host port, ?_, ?_⟩
    · intro connection mem
      obtain ⟨error, -, idle, -⟩ | ⟨pinned, resolved, idle | posted⟩ := outcome
      · rw [idle] at mem
        cases mem
      · rw [idle] at mem
        cases mem
      · rw [posted] at mem
        have goes := pins _ destination rfl rfl connection mem
        rw [named] at goes
        cases host with
        | ipv4 literal =>
            have isPublic : isPublicDestination (.v4 literal) = true := resolveLiteral_ok resolved
            have same : connection.ip = .v4 literal := goes
            rw [same]
            exact ⟨public_of_isPublicDestination isPublic, _, named, rfl⟩
        | ipv6 literal =>
            have isPublic : isPublicDestination (.v6 literal) = true := resolveLiteral_ok resolved
            have same : connection.ip = .v6 literal := goes
            rw [same]
            exact ⟨public_of_isPublicDestination isPublic, _, named, rfl⟩
        | domain domain =>
            obtain ⟨hostName, answer, question, looked, allowed⟩ := resolve_domain_ok resolved
            obtain ⟨address, given, same⟩ := goes pinned.2 (by
              rw [clientConfig, hostName]
              rfl)
            obtain ⟨answered, isPublic⟩ := allowed address given
            rw [same]
            refine ⟨public_of_isPublicDestination isPublic, _, named, ?_⟩
            exact ⟨_, answer, asked.trans question, looked, address, answered, rfl⟩
    · intro question mem answer looked address answered private_
      have private_ : isPublicDestination address.ip = false := by
        rcases private_ with private_ | outside
        · exact private_
        · rw [← Bool.not_eq_true]
          exact mt public_of_isPublicDestination outside
      have rejects := resolve_rejects (asked ▸ mem) looked answered private_
      obtain ⟨error, failed, idle, result⟩ | ⟨pinned, resolved, -⟩ := outcome
      · cases rejects.symm.trans failed
        exact ⟨idle, result⟩
      · cases rejects.symm.trans resolved

/-- A client that connects to the first address it may and hears nothing. -/
def firstPinned : Client where
  build _ := true
  post config url :=
    { connections :=
        match url.host with
        | some (.ipv4 literal) => [{ ip := .v4 literal, port := 443 }]
        | some (.ipv6 literal) => [{ ip := .v6 literal, port := 443 }]
        | some (.domain _) => (config.resolveToAddrs.map fun given => given.2.take 1).getD []
        | none => []
      response := none }

theorem firstPinned_connectsToPinned : ConnectsToPinned firstPinned := by
  intro config url _ _ address mem
  cases named : url.host with
  | none =>
      simp only [firstPinned, named] at mem
      cases mem
  | some host =>
      cases host with
      | ipv4 literal =>
          simp only [firstPinned, named] at mem
          rw [List.mem_singleton.mp mem]
      | ipv6 literal =>
          simp only [firstPinned, named] at mem
          rw [List.mem_singleton.mp mem]
      | domain domain =>
          intro given settings
          simp only [firstPinned, named, settings] at mem
          exact ⟨address, List.mem_of_mem_take mem, rfl⟩

/-- A URL of a literal address. -/
def literalUrl (host : Host) : Url :=
  { scheme := "https", username := "", password := none, host := some host, port := none
    fragment := none }

/-- A delivery to a name that resolves to a public and a private address. -/
theorem deliver_mixed_answer :
    let answer : List SocketAddr :=
      [⟨.v4 ⟨8, 8, 8, 8⟩, 443⟩, ⟨.v6 ⟨0, 0, 0, 0, 0, 0xffff, 0x7f00, 1⟩, 443⟩]
    let delivered := deliver firstPinned (fun _ => .resolved answer) .production
      (literalUrl (.domain "hooks.example")) true
    delivered.connections = [] ∧ delivered.result = .error .destinationRejected := by
  dsimp only
  refine (deliver_reaches_public firstPinned firstPinned_connectsToPinned _ .production _ true).2.2
    ("hooks.example", 443) ?_ _ rfl ⟨.v6 ⟨0, 0, 0, 0, 0, 0xffff, 0x7f00, 1⟩, 443⟩ (by simp)
    (.inl (by decide))
  decide +kernel

/-- The ranges that count as public are special-purpose ranges: here `192.175.48.0/24`, and
`::ffff:0:0/96` with a public address in it. -/
theorem deliver_special_purpose :
    (deliver firstPinned (fun _ => .failed) .production
      (literalUrl (.ipv4 ⟨192, 175, 48, 1⟩)) true).connections =
        [⟨.v4 ⟨192, 175, 48, 1⟩, 443⟩] ∧
    (∃ row ∈ ipv4Registry, Ipv4Addr.inside ⟨192, 175, 48, 1⟩ row.block = true) ∧
    (deliver firstPinned (fun _ => .failed) .production
      (literalUrl (.ipv6 ⟨0, 0, 0, 0, 0, 0xffff, 0x0808, 0x0808⟩)) true).connections =
        [⟨.v6 ⟨0, 0, 0, 0, 0, 0xffff, 0x0808, 0x0808⟩, 443⟩] ∧
    (∃ row ∈ ipv6Registry,
      Ipv6Addr.inside ⟨0, 0, 0, 0, 0, 0xffff, 0x0808, 0x0808⟩ row.block = true) := by
  decide +kernel

end SiliconIam.Webhook.Destinations
