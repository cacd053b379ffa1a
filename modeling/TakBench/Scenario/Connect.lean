import TakBench.Config
import TakBench.Host
import TakBench.Safety
import TakBench.Scenario.Failure

/-!
# Making a connection

`connect` opens a TCP connection and, if TLS is enabled, makes a handshake on it with the
certificates of the files that the configuration names. The file system, the network and the TLS
library are not part of the program: a dial is given what they answer to it.

## Main definitions

* `Outside`: what a dial meets
* `buildTlsConfig`, `connect`
* `ClientConfig.Reads`: the client trusts the CA file and presents the files of the client

## Main results

* `buildTlsConfig_eq_ok_iff`, `connect_eq_ok_iff`: when a connection is made, and which
* `connect_isTls`, `connect_incomplete`: how a dial fails
-/

namespace TakBench

/-- What the network, the file system and the TLS library answer to a dial. A wait that takes
longer than its timeout has no answer. -/
structure Outside (Certificate PrivateKey ServerName : Type) where
  tcpConnect : String → Option (Except Failure Unit)
  setNodelay : Except Failure Unit
  serverName : String → Except Failure ServerName
  read : String → Except Failure (List UInt8)
  /-- `CertificateDer::pem_slice_iter` -/
  certificates : List UInt8 → List (Except Failure Certificate)
  addRoot : Certificate → Except Failure Unit
  privateKey : List UInt8 → Except Failure PrivateKey
  clientAuth : List Certificate → PrivateKey → Except Failure Unit
  /-- the handshake of a client with the given roots and client certificate -/
  handshake : List Certificate → Option (List Certificate × PrivateKey) → ServerName →
    Option (Except Failure Unit)

/-- The configuration of a TLS client. -/
structure ClientConfig (Certificate PrivateKey : Type) where
  roots : List Certificate
  clientAuth : Option (List Certificate × PrivateKey)

/-- A connection that is made. -/
inductive AsyncStream (Certificate PrivateKey ServerName : Type) where
  | tcp
  | tls (client : ClientConfig Certificate PrivateKey) (name : ServerName)

/-! ## Errors -/

/-- `.context(text)` -/
def context {α : Type} (text : String) : Except Failure α → Except Failure α :=
  Except.mapError (.message text :: ·)

/-- A timeout around a wait, with the contexts for the timeout and for the error of the wait. -/
def awaited {α : Type} (timedOut failed : String) :
    Option (Except Failure α) → Except Failure α
  | none => context timedOut (.error [.elapsed])
  | some result => context failed result

/-- `.map_err(ConnectError::..)` -/
def asError {α : Type} (error : ConnectError) : Except Failure α →
    Except (ConnectError × Failure) α :=
  Except.mapError fun source => (error, source)

variable {C K N : Type}

/-- The loop over the certificates of the CA file. -/
def addRoots (o : Outside C K N) : List (Except Failure C) → List C →
    Except (ConnectError × Failure) (List C)
  | [], roots => .ok roots
  | cert :: certs, roots => do
    let cert ← asError .caLoad (context "reading CA certificate" cert)
    asError .caLoad (context "adding CA certificate" (o.addRoot cert))
    addRoots o certs (roots ++ [cert])

/-- `collect::<Result<Vec<_>, _>>()` -/
def collect {α : Type} : List (Except Failure α) → Except Failure (List α)
  | [] => .ok []
  | item :: items => do
    let item ← item
    let rest ← collect items
    return item :: rest

/-- `build_tls_config` up to its builder: the roots of the CA file. -/
def loadRoots (o : Outside C K N) (ca : Option String) :
    Except (ConnectError × Failure) (List C) :=
  match ca with
  | none => .error (.tlsConfiguration,
      [.message "TLS requires a CA; hostname verification cannot be disabled"])
  | some caPath => do
    let caPem ← asError .caLoad (context "opening CA certificate" (o.read caPath))
    addRoots o (o.certificates caPem) []

/-- The end of `build_tls_config`: the certificate of the client. -/
def loadClientAuth (o : Outside C K N) (clientCert clientKey : Option String) :
    Except (ConnectError × Failure) (Option (List C × K)) :=
  match clientCert, clientKey with
  | none, none => .ok none
  | some certPath, some keyPath => do
    let certPem ← asError .clientCertificateLoad
      (context "opening client certificate" (o.read certPath))
    let certs ← asError .clientCertificateLoad
      (context "reading client certificate" (collect (o.certificates certPem)))
    let keyPem ← asError .clientKeyLoad (context "opening client key" (o.read keyPath))
    let key ← asError .clientKeyLoad
      (context "reading client private key" (o.privateKey keyPem))
    asError .tlsConfiguration
      (context "configuring client certificate" (o.clientAuth certs key))
    return some (certs, key)
  | _, _ => .error (.tlsConfiguration,
      [.message "both client certificate and client key are required for mTLS"])

/-- `build_tls_config` -/
def buildTlsConfig (o : Outside C K N) (tls : TlsConfig) :
    Except (ConnectError × Failure) (ClientConfig C K) := do
  let roots ← loadRoots o tls.ca
  let clientAuth ← loadClientAuth o tls.clientCert tls.clientKey
  return ⟨roots, clientAuth⟩

/-- The name that the certificate of the server is checked for. -/
def TargetConfig.serverName (target : TargetConfig) : String :=
  target.sni.getD (hostFromServer target.server)

/-- `connect` -/
def connect (o : Outside C K N) (target : TargetConfig) (tls : TlsConfig) :
    Except (ConnectError × Failure) (AsyncStream C K N) := do
  asError .tcp (awaited "connect timed out" ("connecting to " ++ target.server)
    (o.tcpConnect target.server))
  asError .tcp (context "enabling TCP_NODELAY" o.setNodelay)
  if tls.enabled then
    let name ← asError .tlsConfiguration
      (context "invalid TLS SNI hostname" (o.serverName target.serverName))
    let client ← buildTlsConfig o tls
    asError .tlsHandshake (awaited "TLS handshake timed out" "TLS handshake failed"
      (o.handshake client.roots client.clientAuth name))
    return .tls client name
  else return .tcp

variable {o : Outside C K N} {target : TargetConfig} {tls : TlsConfig}

/-! ## Connections -/

@[simp] theorem asError_eq_ok {α : Type} {error : ConnectError} {result : Except Failure α}
    {a : α} : asError error result = .ok a ↔ result = .ok a := by
  cases result <;> simp [asError, Except.mapError]

@[simp] theorem context_eq_ok {α : Type} {text : String} {result : Except Failure α} {a : α} :
    context text result = .ok a ↔ result = .ok a := by
  cases result <;> simp [context, Except.mapError]

@[simp] theorem awaited_eq_ok {α : Type} {timedOut failed : String}
    {answer : Option (Except Failure α)} {a : α} :
    awaited timedOut failed answer = .ok a ↔ answer = some (.ok a) := by
  cases answer with
  | none => simp [awaited, context, Except.mapError]
  | some result => simp [awaited]

/-- All certificates of the file are roots, and each of them is accepted. -/
theorem addRoots_eq_ok_iff {certs : List (Except Failure C)} {roots roots' : List C} :
    addRoots o certs roots = .ok roots' ↔
      ∃ added, certs = added.map .ok ∧ (∀ cert ∈ added, o.addRoot cert = .ok ()) ∧
        roots' = roots ++ added := by
  induction certs generalizing roots with
  | nil =>
    simp only [addRoots, Except.ok.injEq]
    constructor
    · rintro rfl
      exact ⟨[], rfl, by simp, by simp⟩
    · rintro ⟨added, hnone, -, rfl⟩
      rw [List.map_eq_nil_iff.mp hnone.symm, List.append_nil]
  | cons cert certs ih =>
    simp only [addRoots, bind_eq_ok, asError_eq_ok, context_eq_ok, ih]
    constructor
    · rintro ⟨first, rfl, ⟨⟩, hfirst, added, rfl, hadded, rfl⟩
      exact ⟨first :: added, rfl, List.forall_mem_cons.mpr ⟨hfirst, hadded⟩, by simp⟩
    · rintro ⟨added, hcerts, hadded, rfl⟩
      cases added with
      | nil => cases hcerts
      | cons first added =>
        obtain ⟨rfl, rfl⟩ := List.cons.inj hcerts
        obtain ⟨hfirst, hrest⟩ := List.forall_mem_cons.mp hadded
        exact ⟨first, rfl, (), hfirst, added, rfl, hrest, by simp⟩

theorem collect_eq_ok_iff {α : Type} {items : List (Except Failure α)} {collected : List α} :
    collect items = .ok collected ↔ items = collected.map .ok := by
  induction items generalizing collected with
  | nil => simp [collect, eq_comm]
  | cons item items ih =>
    simp only [collect, bind_eq_ok, ih]
    constructor
    · rintro ⟨first, rfl, rest, rfl, hcollected⟩
      exact Except.ok.inj hcollected ▸ rfl
    · intro hitems
      cases collected with
      | nil => cases hitems
      | cons first rest =>
        obtain ⟨rfl, rfl⟩ := List.cons.inj hitems
        exact ⟨first, rfl, rest, rfl, rfl⟩

/-- The roots of a client are exactly the certificates of the CA file. -/
def Trusts (o : Outside C K N) (ca : Option String) (roots : List C) : Prop :=
  ∃ caPath caPem, ca = some caPath ∧ o.read caPath = .ok caPem ∧
    o.certificates caPem = roots.map .ok ∧ ∀ root ∈ roots, o.addRoot root = .ok ()

/-- The certificates that a client presents are those of its file, with the key of its file, or it
has no files and presents none. -/
def Presents (o : Outside C K N) : Option String → Option String →
    Option (List C × K) → Prop
  | none, none, clientAuth => clientAuth = none
  | some certPath, some keyPath, clientAuth => ∃ certPem certs keyPem key,
      o.read certPath = .ok certPem ∧ o.certificates certPem = certs.map .ok ∧
      o.read keyPath = .ok keyPem ∧ o.privateKey keyPem = .ok key ∧
      o.clientAuth certs key = .ok () ∧ clientAuth = some (certs, key)
  | _, _, _ => False

theorem loadRoots_eq_ok_iff {ca : Option String} {roots : List C} :
    loadRoots o ca = .ok roots ↔ Trusts o ca roots := by
  cases ca with
  | none => simp [loadRoots, Trusts]
  | some caPath =>
    simp only [loadRoots, bind_eq_ok, asError_eq_ok, context_eq_ok, addRoots_eq_ok_iff,
      List.nil_append]
    constructor
    · rintro ⟨caPem, hread, added, hcerts, hadded, rfl⟩
      exact ⟨caPath, caPem, rfl, hread, hcerts, hadded⟩
    · rintro ⟨_, caPem, hpath, hread, hcerts, hadded⟩
      obtain rfl := Option.some.inj hpath
      exact ⟨caPem, hread, roots, hcerts, hadded, rfl⟩

theorem loadClientAuth_eq_ok_iff {clientCert clientKey : Option String}
    {clientAuth : Option (List C × K)} :
    loadClientAuth o clientCert clientKey = .ok clientAuth ↔
      Presents o clientCert clientKey clientAuth := by
  cases clientCert with
  | none =>
    cases clientKey with
    | none => simp [loadClientAuth, Presents, eq_comm]
    | some keyPath => simp [loadClientAuth, Presents]
  | some certPath =>
    cases clientKey with
    | none => simp [loadClientAuth, Presents]
    | some keyPath =>
      simp only [loadClientAuth, bind_eq_ok, asError_eq_ok, context_eq_ok, collect_eq_ok_iff]
      constructor
      · rintro ⟨certPem, hcertPem, certs, hcerts, keyPem, hkeyPem, key, hkey, ⟨⟩, hauth, hsome⟩
        exact ⟨certPem, certs, keyPem, key, hcertPem, hcerts, hkeyPem, hkey, hauth,
          (Except.ok.inj hsome).symm⟩
      · rintro ⟨certPem, certs, keyPem, key, hcertPem, hcerts, hkeyPem, hkey, hauth, rfl⟩
        exact ⟨certPem, hcertPem, certs, hcerts, keyPem, hkeyPem, key, hkey, (), hauth, rfl⟩

/-- A client that is set up as its files say. -/
structure ClientConfig.Reads (o : Outside C K N) (tls : TlsConfig) (client : ClientConfig C K) :
    Prop where
  trusts : Trusts o tls.ca client.roots
  presents : Presents o tls.clientCert tls.clientKey client.clientAuth

/-- **The client that is built** is set up as its files say, and no other. -/
theorem buildTlsConfig_eq_ok_iff {client : ClientConfig C K} :
    buildTlsConfig o tls = .ok client ↔ client.Reads o tls := by
  simp only [buildTlsConfig, bind_eq_ok, loadRoots_eq_ok_iff, loadClientAuth_eq_ok_iff]
  constructor
  · rintro ⟨roots, htrusts, clientAuth, hpresents, hclient⟩
    obtain rfl := Except.ok.inj hclient
    exact ⟨htrusts, hpresents⟩
  · rintro ⟨htrusts, hpresents⟩
    exact ⟨_, htrusts, _, hpresents, rfl⟩

/-- The connection is the one that the configuration asks for: over TLS exactly if it is enabled,
with a client that is set up as its files say and has made a handshake for the name of the
server. -/
def AsyncStream.Meets (o : Outside C K N) (target : TargetConfig) (tls : TlsConfig) :
    AsyncStream C K N → Prop
  | .tcp => tls.enabled = false
  | .tls client name => tls.enabled = true ∧ o.serverName target.serverName = .ok name ∧
      client.Reads o tls ∧ o.handshake client.roots client.clientAuth name = some (.ok ())

/-- **The connection that is made** is the one that the configuration asks for. -/
theorem connect_eq_ok_iff {stream : AsyncStream C K N} :
    connect o target tls = .ok stream ↔ o.tcpConnect target.server = some (.ok ()) ∧
      o.setNodelay = .ok () ∧ stream.Meets o target tls := by
  simp only [connect, bind_eq_ok, asError_eq_ok, awaited_eq_ok, context_eq_ok,
    Unique.exists_iff]
  refine and_congr_right fun _ => and_congr_right fun _ => ?_
  cases henabled : tls.enabled with
  | false =>
    simp only [Bool.false_eq_true, if_false]
    cases stream with
    | tcp => exact iff_of_true rfl henabled
    | tls client name =>
      exact iff_of_false (fun h => by cases h) fun h => absurd (henabled.symm.trans h.1) (by simp)
  | true =>
    simp only [if_true, bind_eq_ok, asError_eq_ok, context_eq_ok, awaited_eq_ok,
      buildTlsConfig_eq_ok_iff]
    constructor
    · rintro ⟨name, hname, client, hreads, ⟨⟩, hhandshake, hstream⟩
      obtain rfl := Except.ok.inj hstream
      exact ⟨henabled, hname, hreads, hhandshake⟩
    · intro hmeets
      cases stream with
      | tcp => cases henabled.symm.trans hmeets
      | tls client name =>
        obtain ⟨-, hname, hreads, hhandshake⟩ := hmeets
        exact ⟨name, hname, client, hreads, (), hhandshake, rfl⟩

/-! ## Dials that fail -/

/-- There is a CA, and a client certificate comes with its key. -/
def TlsConfig.isComplete (tls : TlsConfig) : Bool :=
  tls.ca.isSome && tls.clientCert.isSome == tls.clientKey.isSome

/-- **Without a CA, or with half of a client certificate, no connection is made over TLS.** -/
theorem connect_incomplete (henabled : tls.enabled = true) (hincomplete : tls.isComplete = false)
    (stream : AsyncStream C K N) : connect o target tls ≠ .ok stream := by
  intro hok
  obtain ⟨-, -, hmeets⟩ := connect_eq_ok_iff.mp hok
  cases stream with
  | tcp => cases henabled.symm.trans hmeets
  | tls client name =>
    obtain ⟨-, -, ⟨⟨caPath, -, hca, -⟩, hpresents⟩, -⟩ := hmeets
    rw [TlsConfig.isComplete, hca] at hincomplete
    revert hincomplete hpresents
    cases tls.clientCert <;> cases tls.clientKey <;> simp [Presents]

theorem asError_eq_error {α : Type} {error error' : ConnectError} {result : Except Failure α}
    {source : Failure} (h : asError error result = .error (error', source)) : error' = error := by
  cases result with
  | ok a => cases h
  | error failure => exact (Prod.mk.inj (Except.error.inj h)).1.symm

theorem bind_eq_error {ε α β : Type} {x : Except ε α} {f : α → Except ε β} {e : ε} :
    x >>= f = .error e ↔ x = .error e ∨ ∃ a, x = .ok a ∧ f a = .error e := by
  cases x <;> simp [bind, Except.bind]

/-- **Without TLS a dial fails only over TCP.** -/
theorem connect_isTls {error : ConnectError} {source : Failure}
    (h : connect o target tls = .error (error, source)) (htls : error.isTls = true) :
    tls.enabled = true := by
  by_contra hdisabled
  simp only [connect, hdisabled, bind_eq_error] at h
  rcases h with h | ⟨_, -, h | ⟨_, -, h⟩⟩
  · rw [asError_eq_error h] at htls
    cases htls
  · rw [asError_eq_error h] at htls
    cases htls
  · cases h

end TakBench
