/-
  Setting up a connection (ws_client.cc, `TcpConnect`, `WsClient::Connect`, `WsClient::Close` and
  `~WsClient`): the addresses of the host one after the other, the TLS handshake, the upgrade.

  A step makes one call to the system, OpenSSL or the client, or a few in a row; what they answer,
  and the clock, is the action of the step.  An event is an entry of the ledger of what `Connect`
  takes and gives back, or what has become of the transport.  `Connect` goes on with what `SSL_new`
  returns, also with null; what that leads to is not known.

  * `connect_resources`: as long as `SSL_new` does not return null, nothing is given back twice or
    used after it; nothing is kept by a `Connect` that fails, and one that succeeds keeps the
    descriptor and the TLS objects of its client.
  * `connect_upgraded`: what a client stands for that `Connect` returns.
-/
import TrtcAsr.Lib.Ledger
import TrtcAsr.Ws.Acceptance
import TrtcAsr.Ws.Send

namespace TrtcAsr

open Ledger (Entry)

/-! ## The system -/

/-- What has to be given back: to `freeaddrinfo`, `close`, `SSL_CTX_free` and `SSL_free`. -/
inductive Resource where
  | addrinfo
  | fd (n : ℕ)
  | sslCtx
  | ssl
  deriving DecidableEq, Repr

/-- What a C function is given of a string by `c_str()`. -/
def cString (s : Bytes) : Bytes := s.takeWhile (· ≠ 0)

/-- What the TLS object has been told: the name that it sends, whether it verifies the certificate,
    and the name that this has to be for. -/
structure TlsSettings where
  hostName : Option Bytes
  verifyPeer : Bool
  verifyHost : Option Bytes
  deriving DecidableEq, Repr

/-- The settings of `Connect`, when `SSL_set_tlsext_host_name` and `X509_VERIFY_PARAM_set1_host` have
    succeeded or failed; an empty name is no name to verify. -/
def tlsSettings (host : Bytes) (named hosted : Bool) : TlsSettings where
  hostName := if named then some (cString host) else none
  verifyPeer := true
  verifyHost := if hosted ∧ host ≠ [] then some host else none

inductive ConnectEvent where
  | entry (e : Entry Resource)
  /-- `getaddrinfo` has found these addresses -/
  | resolved (host : Bytes) (port : ℤ) (addrs : List Bytes)
  /-- the TCP connection of the descriptor to the address is established -/
  | connected (fd : ℕ) (addr : Bytes)
  /-- `X509_VERIFY_PARAM_set1_host` has failed -/
  | unhosted
  /-- `SSL_connect` has returned 1 -/
  | shaken (settings : TlsSettings)
  /-- the transport has accepted these bytes of the request -/
  | wrote (fd : ℕ) (bs : Bytes)
  deriving DecidableEq, Repr

/-- The arguments of `Connect`, OpenSSL's `SHA1`, and the bytes that the server sends, as the
    transport delivers them. -/
structure Dial where
  url : Bytes
  timeoutMs : ℤ
  sha1 : Bytes → Bytes
  stream : Bytes

/-- A client with its descriptor; it has TLS objects when it is secure. -/
structure Link where
  fd : ℕ
  secure : Bool
  client : WsClient
  deriving DecidableEq, Repr

inductive ConnectRc where
  | ok
  | inProgress
  | fail
  deriving DecidableEq, Repr

/-- What `SSL_new` returns, and whether `SSL_set_tlsext_host_name` and `X509_VERIFY_PARAM_set1_host`
    succeed for it. -/
inductive ObjectRc where
  | null
  | made (named hosted : Bool)
  deriving DecidableEq, Repr

/-- What `SSL_connect` leads to; when it has to wait, the clock and what `PollFd` returns. -/
inductive ShakeRc where
  | ok
  | want (now : ℤ) (poll : PollRc)
  | fail (what : Bytes)
  deriving DecidableEq, Repr

inductive ConnectAct where
  | go
  | resolved (r : Except Bytes (List Bytes))
  | socket (fd : Option ℕ)
  | connected (rc : ConnectRc)
  | polled (rc soerr : ℤ)
  | freed (strerror : Bytes)
  | context (ok : Bool)
  | object (rc : ObjectRc) (now : ℤ)
  | shake (rc : ShakeRc)
  | nonce (bytes : Vector UInt8 16) (now : ℤ)
  | tick (t : Tick)

/-- Where `Connect` is; `destroy` is the destructor of a client that is not returned, `nullUsed` the
    undefined behaviour of `SSL_set_fd(nullptr, fd)`. -/
inductive Connecting where
  | start
  | resolve (parts : UrlParts)
  | socket (parts : UrlParts) (addrs : List Bytes)
  | connect (parts : UrlParts) (fd : ℕ) (addr : Bytes) (addrs : List Bytes)
  | poll (parts : UrlParts) (fd : ℕ) (addr : Bytes) (addrs : List Bytes)
  | free (parts : UrlParts) (fd : Option ℕ)
  | context (parts : UrlParts) (fd : ℕ)
  | object (parts : UrlParts) (fd : ℕ)
  | nullUsed
  | shake (parts : UrlParts) (fd : ℕ) (settings : TlsSettings) (deadline : ℤ)
  | upgrade (parts : UrlParts) (fd : ℕ)
  | write (parts : UrlParts) (fd : ℕ) (key : Bytes) (c : WsClient) (w : WriteAll)
  | header (parts : UrlParts) (fd : ℕ) (key : Bytes) (c : WsClient) (u : UpgradeRead)
  | destroy (fd : ℕ) (tls : Bool) (err : Bytes)
  | done (r : Except Bytes Link)

namespace ConnectEvent

def taken (r : Resource) : ConnectEvent := entry (.taken r)
def used (r : Resource) : ConnectEvent := entry (.used r)
def returned (r : Resource) : ConnectEvent := entry (.returned r)

def toEntry : ConnectEvent → Option (Entry Resource)
  | entry e => some e
  | _ => none

@[simp] theorem toEntry_taken (r : Resource) : (taken r).toEntry = some (.taken r) := rfl
@[simp] theorem toEntry_used (r : Resource) : (used r).toEntry = some (.used r) := rfl
@[simp] theorem toEntry_returned (r : Resource) : (returned r).toEntry = some (.returned r) := rfl
@[simp] theorem toEntry_resolved (host : Bytes) (port : ℤ) (addrs : List Bytes) :
    (resolved host port addrs).toEntry = none := rfl
@[simp] theorem toEntry_connected (fd : ℕ) (addr : Bytes) :
    (connected fd addr).toEntry = none := rfl
@[simp] theorem toEntry_unhosted : unhosted.toEntry = none := rfl
@[simp] theorem toEntry_wrote (fd : ℕ) (bs : Bytes) : (wrote fd bs).toEntry = none := rfl

end ConnectEvent

/-- A call on the transport: `recv` and `send`, or `SSL_read` and `SSL_write`. -/
def transport (secure : Bool) (fd : ℕ) : List ConnectEvent :=
  .used (.fd fd) :: if secure then [.used .ssl] else []

/-- A pass of `WriteAll`, from the client before to the one after it. -/
def written (secure : Bool) (fd : ℕ) (c c' : WsClient) : List ConnectEvent :=
  transport secure fd ++ [.wrote fd (c'.tx.drop c.tx.length)]

/-- `~WsClient`. -/
def destroyed (tls : Bool) (fd : ℕ) : List ConnectEvent :=
  .used (.fd fd) :: ((if tls then [.returned .ssl, .returned .sslCtx] else []) ++
    [.returned (.fd fd)])

namespace Connecting

/-- One step of `Connect`. -/
def step (cfg : Dial) : Connecting → ConnectAct → Option (Connecting × List ConnectEvent)
  | .start, .go =>
    match parseWsUrl cfg.url with
    | .error e => some (.done (.error (ascii "invalid endpoint url: " ++ e)), [])
    | .ok parts => some (.resolve parts, [])
  -- `TcpConnect`
  | .resolve _, .resolved (.error what) =>
    some (.done (.error (ascii "dns resolve failed: " ++ what)), [])
  | .resolve parts, .resolved (.ok addrs) =>
    some (.socket parts addrs, [.taken .addrinfo, .resolved (cString parts.host) parts.port addrs])
  | .socket parts [], .go => some (.free parts none, [])
  | .socket parts (_ :: addrs), .socket none => some (.socket parts addrs, [.used .addrinfo])
  | .socket parts (addr :: addrs), .socket (some fd) =>
    some (.connect parts fd addr addrs, [.used .addrinfo, .taken (.fd fd), .used (.fd fd)])
  | .connect parts fd addr addrs, .connected rc =>
    match rc with
    | .ok => some (.free parts (some fd), [.used .addrinfo, .used (.fd fd), .connected fd addr])
    | .inProgress => some (.poll parts fd addr addrs, [.used .addrinfo, .used (.fd fd)])
    | .fail => some (.socket parts addrs, [.used .addrinfo, .used (.fd fd), .returned (.fd fd)])
  | .poll parts fd addr addrs, .polled rc soerr =>
    if 0 < rc ∧ soerr = 0 then some (.free parts (some fd), [.used (.fd fd), .connected fd addr])
    else some (.socket parts addrs, [.used (.fd fd), .returned (.fd fd)])
  | .free _ none, .freed strerror =>
    some (.done (.error (ascii "tcp connect failed: " ++ strerror)), [.returned .addrinfo])
  | .free parts (some fd), .freed _ =>
    some (if parts.secure then .context parts fd else .upgrade parts fd,
      [.returned .addrinfo, .used (.fd fd)])
  -- the TLS handshake
  | .context _ fd, .context false => some (.destroy fd false (ascii "tls ctx init failed"), [])
  | .context parts fd, .context true => some (.object parts fd, [.taken .sslCtx, .used .sslCtx])
  | .object parts fd, .object rc now =>
    match rc with
    -- not checked
    | .null => some (.nullUsed, [.used .sslCtx, .used .ssl])
    | .made named hosted =>
      some (.shake parts fd (tlsSettings parts.host named hosted) (now + cfg.timeoutMs),
        [.used .sslCtx, .taken .ssl, .used .ssl, .used (.fd fd)] ++
          if hosted then [] else [.unhosted])
  | .shake parts fd settings deadline, .shake rc =>
    match rc with
    | .ok => some (.upgrade parts fd, transport true fd ++ [.shaken settings])
    | .want now pollRc =>
      if toInt32 (deadline - now) ≤ 0 ∨ pollRc ≠ .ready then
        some (.destroy fd true (ascii "tls handshake timeout"), transport true fd)
      else some (.shake parts fd settings deadline, transport true fd)
    | .fail what =>
      some (.destroy fd true (ascii "tls handshake failed: " ++ what), transport true fd)
  -- the upgrade
  | .upgrade parts fd, .nonce bytes now =>
    let key := base64Encode bytes.toList
    some (.write parts fd key { tls := parts.secure, rx := cfg.stream }
      { rest := upgradeRequest parts key, deadline := now + cfg.timeoutMs }, [])
  | .write parts fd key c w, .tick t =>
    match c.writeAllPass w t with
    | (c', .again w) => some (.write parts fd key c' w, written parts.secure fd c c')
    | (c', .ok) =>
      some (.header parts fd key c' { deadline := t.after + cfg.timeoutMs
                                      want := acceptLine cfg.sha1 key }, written parts.secure fd c c')
    | (c', .error what) =>
      some (.destroy fd parts.secure (ascii what), written parts.secure fd c c')
  | .header parts fd key c u, .tick t =>
    match c.upgradePass u t with
    | (c, .again u) => some (.header parts fd key c u, transport parts.secure fd)
    | (c, .ok) =>
      some (.done (.ok { fd, secure := parts.secure, client := c }), transport parts.secure fd)
    | (_, .error what) => some (.destroy fd parts.secure what, transport parts.secure fd)
  | .destroy fd tls err, .go => some (.done (.error err), destroyed tls fd)
  | _, _ => none

def lts (cfg : Dial) : Lts Connecting ConnectAct ConnectEvent := ⟨step cfg⟩

/-! ## Resources -/

/-- The resources of a client. -/
def ofClient (fd : ℕ) (tls : Bool) : Finset Resource :=
  if tls then {.ssl, .sslCtx, .fd fd} else {.fd fd}

/-- The client that is returned. -/
def link : Connecting → Option Link
  | done (.ok link) => some link
  | _ => none

theorem eq_of_link {s : Connecting} {l : Link} (h : s.link = some l) : s = done (.ok l) := by
  unfold link at h
  split at h
  · cases h
    rfl
  · cases h

/-- What `Connect` holds. -/
def holds : Connecting → Finset Resource
  | start | resolve _ | nullUsed => ∅
  | socket _ _ | free _ none => {.addrinfo}
  | connect _ fd _ _ | poll _ fd _ _ | free _ (some fd) => {.fd fd, .addrinfo}
  | context _ fd => {.fd fd}
  | object _ fd => {.sslCtx, .fd fd}
  | shake _ fd _ _ => ofClient fd true
  | upgrade parts fd | write parts fd _ _ _ | header parts fd _ _ _ => ofClient fd parts.secure
  | destroy fd tls _ => ofClient fd tls
  | done (.error _) => ∅
  | done (.ok link) => ofClient link.fd link.secure

theorem mem_ofClient {r : Resource} {fd : ℕ} {tls : Bool} :
    r ∈ ofClient fd tls ↔ r = .fd fd ∨ tls = true ∧ (r = .ssl ∨ r = .sslCtx) := by
  cases tls
  · simp [ofClient]
  · simp only [ofClient, if_true, Finset.mem_insert, Finset.mem_singleton, true_and]
    tauto

/-- There is at most one descriptor. -/
theorem fd_unique {s : Connecting} {m n : ℕ} (hm : .fd m ∈ s.holds) (hn : .fd n ∈ s.holds) :
    m = n := by
  have client : ∀ {fd tls}, .fd m ∈ ofClient fd tls → .fd n ∈ ofClient fd tls → m = n := by
    intro fd tls hm hn
    simp only [mem_ofClient, Resource.fd.injEq, reduceCtorEq, or_self, and_false, or_false] at hm hn
    rw [hm, hn]
  have pair : ∀ {fd}, .fd m ∈ ({.fd fd, .addrinfo} : Finset Resource) →
      .fd n ∈ ({.fd fd, .addrinfo} : Finset Resource) → m = n := by
    intro fd hm hn
    simp only [Finset.mem_insert, Finset.mem_singleton, Resource.fd.injEq, reduceCtorEq,
      or_false] at hm hn
    rw [hm, hn]
  unfold holds at hm hn
  split at hm
  all_goals first
    | exact client hm hn
    | exact pair hm hn
    | simp at hm; done
    | skip
  -- nothing but the context beside it
  · simp only [Finset.mem_singleton, Resource.fd.injEq] at hm hn
    rw [hm, hn]
  · simp only [Finset.mem_insert, Finset.mem_singleton, Resource.fd.injEq, reduceCtorEq,
      false_or] at hm hn
    rw [hm, hn]

/-- A call on the transport needs what the client has. -/
theorem settle_transport (secure : Bool) (fd : ℕ) :
    Ledger.settle (ofClient fd secure) ((transport secure fd).filterMap ConnectEvent.toEntry) =
      some (ofClient fd secure) := by
  cases secure <;> simp [transport, ofClient, Ledger.settle]

/-- The other events take nothing and give nothing back. -/
theorem settle_snoc {held : Finset Resource} {es : List ConnectEvent} {e : ConnectEvent}
    (he : e.toEntry = none) :
    Ledger.settle held ((es ++ [e]).filterMap ConnectEvent.toEntry) =
      Ledger.settle held (es.filterMap ConnectEvent.toEntry) := by
  rw [List.filterMap_append, List.filterMap_cons_none he, List.filterMap_nil, List.append_nil]

/-- The destructor gives back what the client has. -/
theorem settle_destroyed (tls : Bool) (fd : ℕ) :
    Ledger.settle (ofClient fd tls) ((destroyed tls fd).filterMap ConnectEvent.toEntry) =
      some ∅ := by
  cases tls <;> simp [destroyed, ofClient, Ledger.settle]

/-- The TLS handshake is made for a secure URL. -/
def Secured : Connecting → Prop
  | context parts _ | object parts _ | shake parts _ _ _ => parts.secure = true
  | _ => True

theorem step_secured {cfg : Dial} {s s' : Connecting} {a : ConnectAct} {es : List ConnectEvent}
    (hsec : s.Secured) (h : (lts cfg).step s a = some (s', es)) : s'.Secured := by
  change step cfg s a = some (s', es) at h
  unfold step at h
  repeat' split at h
  all_goals cases h
  all_goals first
    | exact hsec
    | trivial

/-- `SSL_new` has not returned null. -/
def Sound : Connecting → Prop
  | nullUsed => False
  | _ => True

theorem sound_of_ne {s : Connecting} (h : s ≠ nullUsed) : s.Sound := by
  cases s with
  | nullUsed => exact absurd rfl h
  | _ => trivial

theorem step_sound {cfg : Dial} {s s' : Connecting} {a : ConnectAct} {es : List ConnectEvent}
    (h : (lts cfg).step s a = some (s', es)) : s.Sound := by
  cases s with
  | nullUsed => cases h
  | _ => trivial

/-- **A step settles**, but for the one that uses a null object. -/
theorem step_settles {cfg : Dial} {s s' : Connecting} {a : ConnectAct} {es : List ConnectEvent}
    (hsec : s.Secured) (hsound : s'.Sound) (h : (lts cfg).step s a = some (s', es)) :
    Ledger.settle s.holds (es.filterMap ConnectEvent.toEntry) = some s'.holds := by
  change step cfg s a = some (s', es) at h
  unfold step at h
  split at h
  · -- the URL
    split at h
    · cases h
      rfl
    · cases h
      rfl
  · cases h
    rfl
  · cases h
    simp [holds, Ledger.settle, List.filterMap_cons]
  · -- the addresses
    cases h
    rfl
  · cases h
    simp [holds, Ledger.settle]
  · cases h
    simp [holds, Ledger.settle]
  · split at h
    · cases h
      simp [holds, Ledger.settle, List.filterMap_cons]
    · cases h
      simp [holds, Ledger.settle]
    · cases h
      simp [holds, Ledger.settle]
  · split at h
    · cases h
      simp [holds, Ledger.settle, List.filterMap_cons]
    · cases h
      simp [holds, Ledger.settle]
  · cases h
    simp [holds, Ledger.settle]
  · rename_i parts fd _
    cases h
    have herase : ({.fd fd, .addrinfo} : Finset Resource).erase .addrinfo = {.fd fd} := by
      rw [Finset.erase_insert_of_ne (by simp), Finset.erase_singleton, Finset.insert_empty]
    cases hs : parts.secure
    · simp [holds, ofClient, Ledger.settle, hs, herase]
    · simp [holds, Ledger.settle, herase]
  · -- the TLS handshake
    cases h
    rfl
  · cases h
    simp [holds, Ledger.settle]
  · split at h
    · cases h
      exact hsound.elim
    · rename_i named hosted
      cases h
      cases hosted
      · exact (settle_snoc rfl).trans (by simp [holds, ofClient, Ledger.settle])
      · simp [holds, ofClient, Ledger.settle]
  · rename_i parts fd settings deadline rc
    have hpar : parts.secure = true := hsec
    split at h
    · cases h
      rw [settle_snoc rfl]
      show Ledger.settle (ofClient fd true) _ = some (ofClient fd parts.secure)
      rw [hpar]
      exact settle_transport _ _
    · split at h
      · cases h
        exact settle_transport _ _
      · cases h
        exact settle_transport _ _
    · cases h
      exact settle_transport _ _
  · -- the upgrade
    cases h
    rfl
  · split at h
    · cases h
      exact (settle_snoc rfl).trans (settle_transport _ _)
    · cases h
      exact (settle_snoc rfl).trans (settle_transport _ _)
    · cases h
      exact (settle_snoc rfl).trans (settle_transport _ _)
  · split at h
    · cases h
      exact settle_transport _ _
    · cases h
      exact settle_transport _ _
    · cases h
      exact settle_transport _ _
  · cases h
    exact settle_destroyed _ _
  · cases h

/-- The step that uses a null object. -/
theorem step_nullUsed {cfg : Dial} {s : Connecting} {a : ConnectAct} {es : List ConnectEvent}
    (h : (lts cfg).step s a = some (nullUsed, es)) :
    (∃ parts fd, s = object parts fd) ∧ (∃ now, a = .object .null now) ∧
      es = [.used .sslCtx, .used .ssl] := by
  change step cfg s a = some (nullUsed, es) at h
  unfold step at h
  repeat' split at h
  all_goals first
    | cases h; exact ⟨⟨_, _, rfl⟩, ⟨_, rfl⟩, rfl⟩
    | cases h

theorem step_null {cfg : Dial} {s s' : Connecting} {now : ℤ} {es : List ConnectEvent}
    (h : (lts cfg).step s (.object .null now) = some (s', es)) : s' = nullUsed := by
  cases s with
  | object parts fd =>
    cases h
    rfl
  | socket parts addrs => cases addrs <;> cases h
  | free parts fd => cases fd <;> cases h
  | _ => cases h

/-- A run comes to use a null object exactly if `SSL_new` has returned null in it. -/
theorem ne_nullUsed_iff {cfg : Dial} {as : List ConnectAct} {s : Connecting}
    {tr : List ConnectEvent} (h : (lts cfg).run .start as = some (s, tr)) :
    s ≠ nullUsed ↔ ∀ now, .object .null now ∉ as := by
  have hiff := Lts.run_iff (T := lts cfg) (C := fun _ a => ∀ now, a ≠ .object .null now)
    (I := fun _ => True) (G := fun s => s ≠ nullUsed) ?_ trivial h
  · rw [hiff, Lts.meets_labels h]
    constructor
    · intro hall now hmem
      exact hall.2 _ hmem now rfl
    · intro hno
      refine ⟨fun hs => ?_, fun a ha now heq => ?_⟩
      · cases hs
      · rw [heq] at ha
        exact hno now ha
  · intro s a s' es _ hs
    refine ⟨trivial, fun hs' => ⟨?_, ?_⟩, fun hnull hs' => ?_⟩
    · rintro rfl
      cases hs
    · rintro now rfl
      exact hs' (step_null hs)
    · subst hs'
      obtain ⟨-, ⟨now, rfl⟩, -⟩ := step_nullUsed hs
      exact hnull.2 now rfl

end Connecting

/-- What has been taken, used and given back. -/
def ledger (tr : List ConnectEvent) : List (Entry Resource) := tr.filterMap ConnectEvent.toEntry

/-- The only run that comes to use a null object: all it has done before is sound. -/
theorem Connecting.run_nullUsed {cfg : Dial} {as : List ConnectAct} {tr : List ConnectEvent}
    (h : (lts cfg).run .start as = some (.nullUsed, tr)) :
    ∃ as' parts fd pre, (lts cfg).run .start as' = some (.object parts fd, pre) ∧
      tr = pre ++ [.used .sslCtx, .used .ssl] := by
  refine Lts.run_reachable (T := lts cfg) (I := fun tr s => s = .nullUsed → ∃ as' parts fd pre,
    (lts cfg).run .start as' = some (.object parts fd, pre) ∧
      tr = pre ++ [.used .sslCtx, .used .ssl]) ?_ (fun hs => by cases hs) h rfl
  rintro as tr s a s' es hrun - hs rfl
  obtain ⟨⟨parts, fd, rfl⟩, -, rfl⟩ := step_nullUsed hs
  exact ⟨as, parts, fd, tr, hrun, rfl⟩

/-- **The resources of `Connect`**, in every run.  What it uses or gives back it holds at that time,
    so that nothing is given back twice or used afterwards, exactly if `SSL_new` has not returned
    null; and it never holds two descriptors.  When it fails, everything has been given back as often
    as it has been taken; when it returns a client, all but the descriptor of the client and the TLS
    objects that the client has. -/
theorem connect_resources (cfg : Dial) {as : List ConnectAct} {s : Connecting}
    {tr : List ConnectEvent} (h : (Connecting.lts cfg).run .start as = some (s, tr)) :
    ((∀ pre e post r, ledger tr = pre ++ e :: post → (e = .used r ∨ e = .returned r) →
      ∃ held, Ledger.settle ∅ pre = some held ∧ r ∈ held) ↔ ∀ now, .object .null now ∉ as) ∧
    (∀ m n, .fd m ∈ s.holds → .fd n ∈ s.holds → m = n) ∧
    (∀ err, s = .done (.error err) → ∀ r,
      (ledger tr).count (.taken r) = (ledger tr).count (.returned r)) ∧
    ∀ link, s = .done (.ok link) → ∀ r, (ledger tr).count (.taken r) =
      (ledger tr).count (.returned r) +
        if r = .fd link.fd ∨ link.secure = true ∧ (r = .ssl ∨ r = .sslCtx) then 1 else 0 := by
  have settles : ∀ {as s tr}, (Connecting.lts cfg).run .start as = some (s, tr) → s.Sound →
      Ledger.settle ∅ (ledger tr) = some s.holds := by
    intro as s tr h hsound
    have hstart : Connecting.start.Secured := trivial
    exact Lts.run_settles Connecting.step_secured Connecting.step_sound Connecting.step_settles
      hstart hsound h
  have hempty : ∀ r : Resource, Ledger.heldCount ∅ r = 0 := fun r => rfl
  rw [← Connecting.ne_nullUsed_iff h]
  refine ⟨⟨fun hall hs => ?_, fun hs pre e post r heq he => ?_⟩, fun m n => Connecting.fd_unique,
    fun err hs r => ?_, fun link hs r => ?_⟩
  · -- the object is used without being there
    subst hs
    obtain ⟨as', parts, fd, pre, hrun, rfl⟩ := Connecting.run_nullUsed h
    have hset := settles hrun trivial
    have hsplit : ledger (pre ++ [.used .sslCtx, .used .ssl]) =
        (ledger pre ++ [.used .sslCtx]) ++ .used .ssl :: [] := by
      simp [ledger]
    obtain ⟨held, hheld, hmem⟩ := hall _ _ _ _ hsplit (.inl rfl)
    rw [Ledger.settle_append, hset] at hheld
    simp only [Connecting.holds, Option.bind_some, Ledger.settle, Finset.mem_insert, true_or,
      if_true, Option.some.injEq] at hheld
    subst hheld
    simp at hmem
  · have hset := settles h (Connecting.sound_of_ne hs)
    rw [heq] at hset
    exact Ledger.settle_split hset he
  · subst hs
    have hbalance := Ledger.settle_balance (settles h trivial) r
    simpa [hempty, Connecting.holds] using hbalance
  · subst hs
    have hbalance := Ledger.settle_balance (settles h trivial) r
    rw [hempty, Nat.zero_add] at hbalance
    rw [hbalance]
    simp only [Ledger.heldCount, Connecting.holds, Connecting.mem_ofClient]

/-! A run over TLS whose first address refuses the connection. -/

def sampleAccepting : Bytes :=
  ascii "HTTP/1.1 101\r\nSec-WebSocket-Accept: s3pPLMBiTxaQ9kYGzzhZRbK+xOo=\r\n\r\n"

def sampleDial : Dial where
  url := ascii "wss://h/p"
  timeoutMs := 10
  sha1 _ := sampleDigest
  stream := sampleAccepting ++ [0x81, 0x00]

def samplePass : Tick where
  now := 1
  after := 1
  poll := .ready
  recv := .data 0
  send := .sent 999
  key := .replicate 4 0

def sampleAnswers : List ConnectAct :=
  [.go, .resolved (.ok [[1], [2]]), .socket (some 3), .connected .inProgress, .polled 1 111,
    .socket (some 3), .connected .inProgress, .polled 1 0, .freed [], .context true,
    .object (.made true true) 0, .shake (.want 1 .ready), .shake .ok,
    .nonce #v[0x74, 0x68, 0x65, 0x20, 0x73, 0x61, 0x6D, 0x70, 0x6C, 0x65, 0x20, 0x6E, 0x6F, 0x6E,
      0x63, 0x65] 1] ++ List.replicate 138 (.tick samplePass)

theorem sampleAnswers_run : ∃ s tr link,
    (Connecting.lts sampleDial).run .start sampleAnswers = some (s, tr) ∧ s = .done (.ok link) := by
  have hrun : ((Connecting.lts sampleDial).run .start sampleAnswers).any
      (fun r => r.1.link.isSome) = true := by
    decide +kernel
  obtain ⟨⟨s, tr⟩, heq, hlink⟩ := (Option.any_eq_true ..).1 hrun
  obtain ⟨link, hl⟩ := Option.isSome_iff_exists.1 hlink
  exact ⟨s, tr, link, heq, Connecting.eq_of_link hl⟩

/-- The same, when `SSL_new` returns null. -/
def sampleNull : List ConnectAct :=
  [.go, .resolved (.ok [[1]]), .socket (some 3), .connected .ok, .freed [], .context true,
    .object .null 0]

theorem connect_resources_after_refusal : (∃ s tr link,
    (Connecting.lts sampleDial).run .start sampleAnswers = some (s, tr) ∧ s = .done (.ok link) ∧
      (∀ pre e post r, ledger tr = pre ++ e :: post → (e = .used r ∨ e = .returned r) →
        ∃ held, Ledger.settle ∅ pre = some held ∧ r ∈ held) ∧
      ∀ r, (ledger tr).count (.taken r) = (ledger tr).count (.returned r) +
        if r = .fd link.fd ∨ link.secure = true ∧ (r = .ssl ∨ r = .sslCtx) then 1 else 0) ∧
    ∃ tr, (Connecting.lts sampleDial).run .start sampleNull = some (.nullUsed, tr) ∧
      ¬ ∀ pre e post r, ledger tr = pre ++ e :: post → (e = .used r ∨ e = .returned r) →
        ∃ held, Ledger.settle ∅ pre = some held ∧ r ∈ held := by
  constructor
  · obtain ⟨s, tr, link, hrun, hs⟩ := sampleAnswers_run
    obtain ⟨hheld, -, -, hkept⟩ := connect_resources sampleDial hrun
    exact ⟨s, tr, link, hrun, hs, hheld.2 (by simp [sampleAnswers]), hkept link hs⟩
  · have hrun : ∃ tr, (Connecting.lts sampleDial).run .start sampleNull = some (.nullUsed, tr) :=
      ⟨_, rfl⟩
    obtain ⟨tr, hrun⟩ := hrun
    refine ⟨tr, hrun, fun hall => ?_⟩
    exact (connect_resources sampleDial hrun).1.1 hall 0 (by simp [sampleNull])

/-! ## The upgrade -/

/-- What the transport has accepted. -/
def requested (tr : List ConnectEvent) : Bytes :=
  tr.flatMap fun
    | .wrote _ bs => bs
    | _ => []

/-- An address that has been found for the host and the port of the URL. -/
def Found (parts : UrlParts) (tr : List ConnectEvent) (addr : Bytes) : Prop :=
  ∃ addrs, .resolved (cString parts.host) parts.port addrs ∈ tr ∧ addr ∈ addrs

/-- The descriptor is connected to such an address, and has not been closed since. -/
def TcpUp (parts : UrlParts) (fd : ℕ) (tr : List ConnectEvent) : Prop :=
  ∃ addr pre post, tr = pre ++ .connected fd addr :: post ∧ Found parts pre addr ∧
    .returned (.fd fd) ∉ post

/-- The certificate is verified, and it has to be for the host of the URL; but for any host, if that
    one is empty or `X509_VERIFY_PARAM_set1_host` has failed, which `Connect` does not check. -/
structure Verifies (parts : UrlParts) (tr : List ConnectEvent) (settings : TlsSettings) : Prop where
  peer : settings.verifyPeer = true
  host : settings.verifyHost = some parts.host ∨ parts.host = [] ∨ .unhosted ∈ tr

/-- The transport to the host of the URL is up. -/
structure TransportUp (cfg : Dial) (parts : UrlParts) (fd : ℕ) (tr : List ConnectEvent) : Prop where
  parse : parseWsUrl cfg.url = .ok parts
  tcp : TcpUp parts fd tr
  shaken : parts.secure = true → ∃ settings, .shaken settings ∈ tr ∧ Verifies parts tr settings

theorem host_tlsSettings {host : Bytes} {named : Bool} :
    (tlsSettings host named true).verifyHost = some host ∨ host = [] := by
  by_cases hh : host = []
  · exact .inr hh
  · exact .inl (if_pos ⟨rfl, hh⟩)

theorem Found.grow {parts : UrlParts} {tr es : List ConnectEvent} {addr : Bytes}
    (h : Found parts tr addr) : Found parts (tr ++ es) addr := by
  obtain ⟨addrs, hres, hmem⟩ := h
  exact ⟨addrs, List.mem_append_left es hres, hmem⟩

theorem TcpUp.grow {parts : UrlParts} {fd : ℕ} {tr es : List ConnectEvent}
    (h : TcpUp parts fd tr) (hes : .returned (.fd fd) ∉ es) : TcpUp parts fd (tr ++ es) := by
  obtain ⟨addr, pre, post, rfl, hfound, hpost⟩ := h
  refine ⟨addr, pre, post ++ es, by simp, hfound, fun hm => ?_⟩
  rcases List.mem_append.1 hm with hm | hm
  · exact hpost hm
  · exact hes hm

theorem Verifies.grow {parts : UrlParts} {tr es : List ConnectEvent} {settings : TlsSettings}
    (h : Verifies parts tr settings) : Verifies parts (tr ++ es) settings :=
  ⟨h.peer, h.host.imp_right fun hor => hor.imp_right (List.mem_append_left es)⟩

theorem TransportUp.grow {cfg : Dial} {parts : UrlParts} {fd : ℕ} {tr es : List ConnectEvent}
    (h : TransportUp cfg parts fd tr) (hes : .returned (.fd fd) ∉ es) :
    TransportUp cfg parts fd (tr ++ es) := by
  refine ⟨h.parse, h.tcp.grow hes, fun hsec => ?_⟩
  obtain ⟨settings, hshaken, hverifies⟩ := h.shaken hsec
  exact ⟨settings, List.mem_append_left es hshaken, hverifies.grow⟩

/-- No byte goes out before the transport is up. -/
def Allowed (cfg : Dial) (pre : List ConnectEvent) : ConnectEvent → Prop
  | .wrote fd _ => ∃ parts, TransportUp cfg parts fd pre
  | _ => True

/-- A key encodes a nonce. -/
def IsKey (key : Bytes) : Prop := ∃ nonce : Vector UInt8 16, key = base64Encode nonce.toList

/-- The bytes so far of the response header; what follows them has not been read. -/
structure HeaderRead (stream : Bytes) (c : WsClient) (u : UpgradeRead) : Prop where
  stream : u.resp ++ c.unread = stream
  first : ∀ p, p <+: u.resp → p ≠ u.resp → found crlfcrlf p = false
  length_le : u.resp.length ≤ 64 * 1024
  byte : ∀ e, u.byte = some e → e.n = 1 ∧ e.buf = [] ∧ found crlfcrlf u.resp = false

/-- Where a pass of the header loop leaves it. -/
def AfterHeader (stream : Bytes) (c : WsClient) (u : UpgradeRead) : WsClient × UpgradePass → Prop
  | (c', .again u') => HeaderRead stream c' u' ∧ u'.want = u.want ∧ c'.tx = c.tx ∧ c'.tls = c.tls
  | (c', .ok) => c' = c ∧ AcceptedHeader u.want u.resp
  | (_, .error _) => True

/-- The prefixes of a text with one more byte. -/
theorem first_snoc {resp : Bytes} {b : UInt8}
    (h : ∀ p, p <+: resp → p ≠ resp → found crlfcrlf p = false)
    (hend : found crlfcrlf resp = false) :
    ∀ p, p <+: resp ++ [b] → p ≠ resp ++ [b] → found crlfcrlf p = false := by
  intro p hp hne
  rcases List.prefix_concat_iff.1 hp with rfl | hp
  · exact absurd rfl hne
  · by_cases hpr : p = resp
    · rw [hpr]
      exact hend
    · exact h p hp hpr

/-- **A pass of the header loop** reads at most one byte, and accepts a header only at its end. -/
theorem HeaderRead.pass {stream : Bytes} {c : WsClient} {u : UpgradeRead} (h : HeaderRead stream c u)
    (t : Tick) : AfterHeader stream c u (c.upgradePass u t) := by
  obtain ⟨deadline, want, resp, byte⟩ := u
  cases byte with
  | none =>
    simp only [WsClient.upgradePass]
    by_cases hend : found crlfcrlf resp = true
    · rw [if_pos hend]
      unfold UpgradeRead.check
      dsimp only
      split
      · trivial
      split
      · trivial
      · rename_i hstatus haccept
        exact ⟨rfl, hend, h.first, h.length_le, not_not.1 hstatus, not_not.1 haccept⟩
    · rw [if_neg hend]
      split
      · trivial
      · refine ⟨⟨h.stream, h.first, h.length_le, ?_⟩, rfl, rfl, rfl⟩
        rintro e he
        cases he
        exact ⟨rfl, rfl, by simpa using hend⟩
  | some e =>
    obtain ⟨hn, hbuf, hend⟩ := h.byte e rfl
    have hlt : e.buf.length < e.n := by
      rw [hn, hbuf]
      exact Nat.zero_lt_one
    simp only [WsClient.upgradePass]
    rcases c.readExactPass_cases e t hlt with ⟨c', bs, hc, hmv, hbs⟩ | hc | hc | hc
    · obtain ⟨b, rfl⟩ : ∃ b, bs = [b] := by
        have hfit := hmv.fits
        have hpos := List.length_pos_iff.2 hbs
        rw [hn, hbuf] at hfit
        exact List.length_eq_one_iff.1 (by simp at hfit; omega)
      have hst : e.store [b] = .ok [b] := by simp [ReadExact.store, hn, hbuf]
      rw [hc, hst]
      dsimp only
      split
      · trivial
      · rename_i hlen
        refine ⟨⟨?_, first_snoc h.first hend, not_lt.1 hlen, fun e he => ?_⟩, rfl, hmv.tx, hmv.tls⟩
        · have hstream := h.stream
          rw [hmv.unread] at hstream
          simpa using hstream
        · cases he
    · rw [hc]
      refine ⟨⟨h.stream, h.first, h.length_le, ?_⟩, rfl, rfl, rfl⟩
      rintro e' he
      cases he
      exact ⟨hn, hbuf, hend⟩
    · rw [hc]
      trivial
    · rw [hc]
      trivial

namespace Connecting

/-- What is known where `Connect` is. -/
def Reached (cfg : Dial) (tr : List ConnectEvent) : Connecting → Prop
  | start => requested tr = []
  | resolve parts | free parts none => parseWsUrl cfg.url = .ok parts ∧ requested tr = []
  | socket parts addrs =>
    parseWsUrl cfg.url = .ok parts ∧ requested tr = [] ∧ ∀ addr ∈ addrs, Found parts tr addr
  | connect parts _ addr addrs | poll parts _ addr addrs =>
    parseWsUrl cfg.url = .ok parts ∧ requested tr = [] ∧ Found parts tr addr ∧
      ∀ addr ∈ addrs, Found parts tr addr
  | free parts (some fd) | context parts fd | object parts fd =>
    parseWsUrl cfg.url = .ok parts ∧ requested tr = [] ∧ TcpUp parts fd tr
  | nullUsed => requested tr = []
  | shake parts fd settings _ =>
    parseWsUrl cfg.url = .ok parts ∧ requested tr = [] ∧ TcpUp parts fd tr ∧
      Verifies parts tr settings
  | upgrade parts fd => TransportUp cfg parts fd tr ∧ requested tr = []
  | write parts fd key c w =>
    TransportUp cfg parts fd tr ∧ IsKey key ∧ c.tx = requested tr ∧
      c.tx ++ w.rest = upgradeRequest parts key ∧ c.unread = cfg.stream ∧ c.tls = parts.secure
  | header parts fd key c u =>
    TransportUp cfg parts fd tr ∧ IsKey key ∧ c.tx = requested tr ∧
      c.tx = upgradeRequest parts key ∧ u.want = acceptLine cfg.sha1 key ∧
      HeaderRead cfg.stream c u ∧ c.tls = parts.secure
  | destroy _ _ _ | done (.error _) =>
    requested tr = [] ∨ ∃ parts key, parseWsUrl cfg.url = .ok parts ∧ IsKey key ∧
      requested tr <+: upgradeRequest parts key
  | done (.ok link) => ∃ parts key head, TransportUp cfg parts link.fd tr ∧ IsKey key ∧
      link.client.tx = requested tr ∧ link.client.tx = upgradeRequest parts key ∧
      cfg.stream = head ++ link.client.unread ∧ AcceptedHeader (acceptLine cfg.sha1 key) head ∧
      link.secure = parts.secure ∧ link.client.tls = parts.secure

theorem requested_append (tr es : List ConnectEvent) :
    requested (tr ++ es) = requested tr ++ requested es :=
  List.flatMap_append

theorem requested_transport (secure : Bool) (fd : ℕ) : requested (transport secure fd) = [] := by
  cases secure <;> rfl

theorem silent_transport (secure : Bool) (fd : ℕ) :
    ∀ n bs, .wrote n bs ∉ transport secure fd := by
  cases secure <;> simp [transport, ConnectEvent.used]

theorem kept_transport (secure : Bool) (fd n : ℕ) :
    .returned (.fd n) ∉ transport secure fd := by
  cases secure <;> simp [transport, ConnectEvent.used, ConnectEvent.returned]

variable {cfg : Dial} {tr es : List ConnectEvent} {s s' : Connecting} {a : ConnectAct}

/-- The bytes that go out in a step go out on the descriptor of a transport that is up. -/
def Carried (cfg : Dial) (tr es : List ConnectEvent) : Prop :=
  ∀ fd bs, .wrote fd bs ∈ es → (∃ parts, TransportUp cfg parts fd tr) ∧ .returned (.fd fd) ∉ es

theorem Carried.silent (h : ∀ fd bs, .wrote fd bs ∉ es) : Carried cfg tr es :=
  fun fd bs hm => absurd hm (h fd bs)

theorem requested_quiet (hes : requested es = []) : requested (tr ++ es) = requested tr := by
  rw [requested_append, hes, List.append_nil]

/-- The addresses of the host, one after the other. -/
theorem reached_tcp {parts : UrlParts} {addr : Bytes} {addrs : List Bytes} (fd : ℕ)
    (es : List ConnectEvent)
    (h : parseWsUrl cfg.url = .ok parts ∧ requested tr = [] ∧ Found parts tr addr ∧
      ∀ addr ∈ addrs, Found parts tr addr) (hes : requested es = []) :
    (socket parts addrs).Reached cfg (tr ++ es) ∧ (poll parts fd addr addrs).Reached cfg (tr ++ es) ∧
      (requested (es ++ [.connected fd addr]) = [] →
        (free parts (some fd)).Reached cfg (tr ++ (es ++ [.connected fd addr]))) := by
  obtain ⟨hparse, hnil, haddr, haddrs⟩ := h
  have hrest : ∀ addr ∈ addrs, Found parts (tr ++ es) addr := fun addr hm => (haddrs addr hm).grow
  refine ⟨⟨hparse, (requested_quiet hes).trans hnil, hrest⟩,
    ⟨hparse, (requested_quiet hes).trans hnil, haddr.grow, hrest⟩, fun hes' => ?_⟩
  refine ⟨hparse, (requested_quiet hes').trans hnil, addr, tr ++ es, [], by simp, haddr.grow, ?_⟩
  exact List.not_mem_nil

/-- A step, and the bytes that go out in it. -/
theorem reached_step (h : s.Reached cfg tr) (hs : (lts cfg).step s a = some (s', es)) :
    s'.Reached cfg (tr ++ es) ∧ Carried cfg tr es := by
  change step cfg s a = some (s', es) at hs
  unfold step at hs
  split at hs
  · -- the URL
    split at hs
    · cases hs
      exact ⟨.inl ((requested_quiet rfl).trans h), .silent (by simp)⟩
    · rename_i parts hparts
      cases hs
      exact ⟨⟨hparts, (requested_quiet rfl).trans h⟩, .silent (by simp)⟩
  · cases hs
    exact ⟨.inl ((requested_quiet rfl).trans h.2), .silent (by simp)⟩
  · rename_i parts addrs
    cases hs
    refine ⟨⟨h.1, (requested_quiet rfl).trans h.2, fun addr hm => ⟨addrs, by simp, hm⟩⟩, .silent ?_⟩
    simp [ConnectEvent.taken]
  · -- the addresses
    cases hs
    exact ⟨⟨h.1, (requested_quiet rfl).trans h.2.1⟩, .silent (by simp)⟩
  · cases hs
    refine ⟨⟨h.1, (requested_quiet rfl).trans h.2.1, fun addr hm => ?_⟩,
      .silent (by simp [ConnectEvent.used])⟩
    exact (h.2.2 addr (List.mem_cons_of_mem _ hm)).grow
  · cases hs
    refine ⟨⟨h.1, (requested_quiet rfl).trans h.2.1, ?_, fun addr hm => ?_⟩,
      .silent (by simp [ConnectEvent.used, ConnectEvent.taken])⟩
    · exact (h.2.2 _ (List.mem_cons_self ..)).grow
    · exact (h.2.2 addr (List.mem_cons_of_mem _ hm)).grow
  · split at hs
    · cases hs
      exact ⟨(reached_tcp _ [_, _] h rfl).2.2 rfl, .silent (by simp [ConnectEvent.used])⟩
    · cases hs
      exact ⟨(reached_tcp _ _ h rfl).2.1, .silent (by simp [ConnectEvent.used])⟩
    · rename_i fd addr _ _ _
      cases hs
      exact ⟨(reached_tcp 0 _ h rfl).1,
        .silent (by simp [ConnectEvent.used, ConnectEvent.returned])⟩
  · split at hs
    · cases hs
      exact ⟨(reached_tcp _ [_] h rfl).2.2 rfl, .silent (by simp [ConnectEvent.used])⟩
    · cases hs
      exact ⟨(reached_tcp 0 _ h rfl).1,
        .silent (by simp [ConnectEvent.used, ConnectEvent.returned])⟩
  · cases hs
    exact ⟨.inl ((requested_quiet rfl).trans h.2), .silent (by simp [ConnectEvent.returned])⟩
  · rename_i parts fd _
    cases hs
    obtain ⟨hparse, hnil, htcp⟩ := h
    have htcp' : TcpUp parts fd (tr ++ [.returned .addrinfo, .used (.fd fd)]) :=
      htcp.grow (by simp [ConnectEvent.used, ConnectEvent.returned])
    refine ⟨?_, .silent (by simp [ConnectEvent.used, ConnectEvent.returned])⟩
    cases hp : parts.secure
    · refine ⟨⟨hparse, htcp', fun hyes => ?_⟩, (requested_quiet rfl).trans hnil⟩
      rw [hp] at hyes
      cases hyes
    · exact ⟨hparse, (requested_quiet rfl).trans hnil, htcp'⟩
  · -- the TLS handshake
    cases hs
    exact ⟨.inl ((requested_quiet rfl).trans h.2.1), .silent (by simp)⟩
  · cases hs
    refine ⟨⟨h.1, (requested_quiet rfl).trans h.2.1, h.2.2.grow ?_⟩, .silent ?_⟩
    · simp [ConnectEvent.used, ConnectEvent.taken, ConnectEvent.returned]
    · simp [ConnectEvent.used, ConnectEvent.taken]
  · obtain ⟨hparse, hnil, htcp⟩ := h
    split at hs
    · cases hs
      exact ⟨(requested_quiet rfl).trans hnil, .silent (by simp [ConnectEvent.used])⟩
    · rename_i named hosted
      cases hs
      refine ⟨⟨hparse, ?_, htcp.grow ?_, rfl, ?_⟩, .silent ?_⟩
      · cases hosted <;> exact (requested_quiet rfl).trans hnil
      · cases hosted <;> simp [ConnectEvent.used, ConnectEvent.taken, ConnectEvent.returned]
      · cases hosted
        · exact .inr (.inr (by simp))
        · exact host_tlsSettings.imp_right .inl
      · cases hosted <;> simp [ConnectEvent.used, ConnectEvent.taken]
  · rename_i parts fd settings deadline rc
    obtain ⟨hparse, hnil, htcp, hverifies⟩ := h
    have htransport := requested_transport true fd
    have hgone : requested (tr ++ transport true fd) = [] := (requested_quiet htransport).trans hnil
    split at hs
    · cases hs
      refine ⟨⟨⟨hparse, htcp.grow ?_, fun _ => ⟨settings, by simp, hverifies.grow⟩⟩, ?_⟩, .silent ?_⟩
      · intro hm
        have hm := (List.mem_append.1 hm).resolve_right (by simp [ConnectEvent.returned])
        exact kept_transport _ _ _ hm
      · rw [← List.append_assoc, requested_append, hgone]
        rfl
      · intro n bs hm
        exact silent_transport _ _ n bs ((List.mem_append.1 hm).resolve_right (by simp))
    · split at hs
      · cases hs
        exact ⟨.inl hgone, .silent (silent_transport _ _)⟩
      · cases hs
        exact ⟨⟨hparse, hgone, htcp.grow (kept_transport _ _ _), hverifies.grow⟩,
          .silent (silent_transport _ _)⟩
    · cases hs
      exact ⟨.inl hgone, .silent (silent_transport _ _)⟩
  · -- the upgrade
    rename_i parts fd nonce now
    cases hs
    obtain ⟨hup, hnil⟩ := h
    refine ⟨⟨hup.grow List.not_mem_nil, ⟨nonce, rfl⟩, ?_, rfl, rfl, rfl⟩, .silent (by simp)⟩
    exact ((requested_quiet rfl).trans hnil).symm
  · rename_i parts fd key c w t
    obtain ⟨hup, hkey, htx, hreq, hun, htls⟩ := h
    have kept : ∀ c', .returned (.fd fd) ∉ written parts.secure fd c c' := by
      intro c' hm
      have hm := (List.mem_append.1 hm).resolve_right (by simp [ConnectEvent.returned])
      exact kept_transport _ _ _ hm
    have carried : ∀ c', Carried cfg tr (written parts.secure fd c c') := by
      intro c' n bs hm
      rcases List.mem_append.1 hm with hm | hm
      · exact absurd hm (silent_transport _ _ n bs)
      · cases List.mem_singleton.1 hm
        exact ⟨⟨parts, hup⟩, kept c'⟩
    -- the bytes of the pass
    have sent : ∀ bs, requested (tr ++ written parts.secure fd c { c with tx := c.tx ++ bs }) =
        c.tx ++ bs := by
      intro bs
      rw [requested_append, written, requested_append, requested_transport, htx]
      simp [requested]
    have unsent : requested (tr ++ written parts.secure fd c c) = c.tx := by
      have hnil := sent []
      rwa [List.append_nil] at hnil
    rcases c.writeAllPass_cases w t with ⟨bs, rest, heq, hrest, -⟩ | ⟨heq, -⟩ | ⟨heq | ⟨what, heq⟩, -⟩
    · rw [heq] at hs
      cases hs
      refine ⟨⟨hup.grow (kept _), hkey, (sent bs).symm, ?_, hun, htls⟩, carried _⟩
      show c.tx ++ bs ++ rest = _
      rw [List.append_assoc, ← hrest]
      exact hreq
    · rw [heq] at hs
      cases hs
      refine ⟨⟨hup.grow (kept _), hkey, (sent w.rest).symm, hreq, rfl, ⟨?_, ?_, ?_, ?_⟩, htls⟩,
        carried _⟩
      · show [] ++ c.unread = cfg.stream
        exact hun
      · intro p hp hne
        exact absurd (List.prefix_nil.1 hp) hne
      · exact Nat.zero_le _
      · rintro e he
        cases he
    · rw [heq] at hs
      cases hs
      exact ⟨⟨hup.grow (kept _), hkey, unsent.symm, hreq, hun, htls⟩, carried _⟩
    · rw [heq] at hs
      cases hs
      refine ⟨.inr ⟨parts, key, hup.parse, hkey, ?_⟩, carried _⟩
      rw [unsent, ← hreq]
      exact List.prefix_append _ _
  · rename_i parts fd key c u t
    obtain ⟨hup, hkey, htx, hreq, hwant, hread, htls⟩ := h
    have hsame : requested (tr ++ transport parts.secure fd) = requested tr :=
      requested_quiet (requested_transport _ _)
    have hup' := hup.grow (kept_transport parts.secure fd fd)
    have hpass := hread.pass t
    split at hs
    · rename_i c' u' heq
      rw [heq] at hpass
      obtain ⟨hread', hwant', htx', htls'⟩ := hpass
      cases hs
      exact ⟨⟨hup', hkey, htx'.trans (htx.trans hsame.symm), htx'.trans hreq, hwant'.trans hwant,
        hread', htls'.trans htls⟩, .silent (silent_transport _ _)⟩
    · rename_i c' heq
      rw [heq] at hpass
      obtain ⟨rfl, hacc⟩ := hpass
      cases hs
      rw [hwant] at hacc
      exact ⟨⟨parts, key, u.resp, hup', hkey, htx.trans hsame.symm, hreq, hread.stream.symm,
        hacc, rfl, htls⟩, .silent (silent_transport _ _)⟩
    · cases hs
      refine ⟨.inr ⟨parts, key, hup.parse, hkey, ?_⟩, .silent (silent_transport _ _)⟩
      rw [hsame, ← htx, hreq]
  · rename_i fd tls err
    cases hs
    have hnil : requested (destroyed tls fd) = [] := by
      cases tls <;> rfl
    refine ⟨?_, .silent ?_⟩
    · show requested _ = [] ∨ _
      rw [requested_quiet hnil]
      exact h
    · cases tls <;> simp [destroyed, ConnectEvent.used, ConnectEvent.returned]
  · cases hs

end Connecting

/-- **What a client stands for that `Connect` returns.**  In every run, no byte goes out before the
    transport to the host of the URL is up: a TCP connection to an address that has been found for it,
    and for a secure URL a TLS handshake that has verified the certificate; and what goes out is a
    first part of the upgrade request.  When a client is returned, its transport is up and it is the
    whole request, with the encoding of a nonce as its key; what the server has sent is an accepted
    header for this key, and behind it the client reads on. -/
theorem connect_upgraded (cfg : Dial) {as : List ConnectAct} {s : Connecting}
    {tr : List ConnectEvent} (h : (Connecting.lts cfg).run .start as = some (s, tr)) :
    (∀ pre fd bs post, tr = pre ++ .wrote fd bs :: post → ∃ parts, TransportUp cfg parts fd pre) ∧
    (requested tr = [] ∨ ∃ parts key, parseWsUrl cfg.url = .ok parts ∧ IsKey key ∧
      requested tr <+: upgradeRequest parts key) ∧
    ∀ link, s = .done (.ok link) → ∃ parts key head, TransportUp cfg parts link.fd tr ∧ IsKey key ∧
      link.client.tx = requested tr ∧ link.client.tx = upgradeRequest parts key ∧
      cfg.stream = head ++ link.client.unread ∧ AcceptedHeader (acceptLine cfg.sha1 key) head ∧
      link.secure = parts.secure ∧ link.client.tls = parts.secure := by
  have hinv : Causal (Allowed cfg) tr ∧ s.Reached cfg tr := by
    refine Lts.run_invariant (I := fun tr s => Causal (Allowed cfg) tr ∧ s.Reached cfg tr) ?_
      ⟨causal_nil, rfl⟩ h
    rintro tr s a s' es ⟨hcausal, hreached⟩ hs
    obtain ⟨hreached', hcarried⟩ := Connecting.reached_step hreached hs
    refine ⟨hcausal.append fun mid e post heq => ?_, hreached'⟩
    cases e with
    | wrote fd bs =>
      obtain ⟨⟨parts, hup⟩, hkept⟩ := hcarried fd bs (by rw [heq]; simp)
      exact ⟨parts, hup.grow fun hm => hkept (by rw [heq]; exact List.mem_append_left _ hm)⟩
    | _ => trivial
  obtain ⟨hcausal, hreached⟩ := hinv
  refine ⟨fun pre fd bs post heq => hcausal pre _ post heq, ?_, ?_⟩
  · cases s with
    | write parts fd key c w =>
      obtain ⟨hup, hkey, htx, hreq, -⟩ := hreached
      exact .inr ⟨parts, key, hup.parse, hkey, htx ▸ ⟨w.rest, hreq⟩⟩
    | header parts fd key c u =>
      obtain ⟨hup, hkey, htx, hreq, -⟩ := hreached
      exact .inr ⟨parts, key, hup.parse, hkey, by rw [← htx, hreq]⟩
    | start => exact .inl hreached
    | nullUsed => exact .inl hreached
    | destroy fd tls err => exact hreached
    | done r =>
      cases r with
      | error err => exact hreached
      | ok link =>
        obtain ⟨parts, key, head, hup, hkey, htx, hreq, -⟩ := hreached
        exact .inr ⟨parts, key, hup.parse, hkey, by rw [← htx, hreq]⟩
    | free parts fd =>
      cases fd with
      | none => exact .inl hreached.2
      | some fd => exact .inl hreached.2.1
    | resolve parts => exact .inl hreached.2
    | upgrade parts fd => exact .inl hreached.2
    | _ => exact .inl hreached.2.1
  · rintro link rfl
    exact hreached

theorem connect_upgraded_after_refusal : ∃ s tr link parts key head,
    (Connecting.lts sampleDial).run .start sampleAnswers = some (s, tr) ∧ s = .done (.ok link) ∧
      TransportUp sampleDial parts link.fd tr ∧ IsKey key ∧
      link.client.tx = upgradeRequest parts key ∧
      sampleDial.stream = head ++ link.client.unread ∧
      AcceptedHeader (acceptLine sampleDial.sha1 key) head := by
  obtain ⟨s, tr, link, hrun, hs⟩ := sampleAnswers_run
  obtain ⟨parts, key, head, hup, hkey, -, hreq, hstream, hacc, -⟩ :=
    (connect_upgraded sampleDial hrun).2.2 link hs
  exact ⟨s, tr, link, parts, key, head, hrun, hs, hup, hkey, hreq, hstream, hacc⟩

end TrtcAsr
