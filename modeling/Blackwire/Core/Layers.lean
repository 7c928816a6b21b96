import Blackwire.Core.Built

/-!
# The layers of a connection on both sides

Which layers an outbound puts on a connection, which layers the inbound with the same settings peels
off, and when the security that the settings ask for is among them.
-/

namespace Blackwire.Core

open Schema Routing Failure List Option ClientLayer Except

/-! ### Layers of the client -/

def securityKinds : SecurityType → List LayerKind
  | .tls => [.tls]
  | .shadowTls => [.shadowTls]
  | .none | .reality => []

def networkKinds : NetworkType → List LayerKind
  | .ws => [.ws]
  | .httpUpgrade => [.httpUpgrade]
  | .splitHttp => [.splitHttp]
  | .grpc => [.grpc]
  | .tcp | .quic | .kcp => []

def transportKinds (network : NetworkType) (security : SecurityType) : List LayerKind :=
  match network with
  | .quic => [.quic]
  | .kcp => [.mkcp]
  | .httpUpgrade => [.tcp, .httpUpgrade]
  | .tcp | .ws | .grpc | .splitHttp => .tcp :: (securityKinds security ++ networkKinds network)

variable (protocol : Protocol) {side tag : String} {settings : StreamSettingsConfig}
  {handler : OutboundHandler} {security : SecurityType}

def outboundKinds (network : NetworkType) (security : SecurityType) : List LayerKind :=
  match protocol with
  | .hysteria2 => [.hysteria2]
  | .vless => if security = .reality then [.tcp, .reality] else transportKinds network security
  | .trojan | .vmess => transportKinds network security
  | .freedom | .shadowsocks | .shadowTls | .socks | .http => [.tcp]

theorem rejectUnfinished_ok
    (h : rejectUnfinishedTransportSettings side tag (some settings) = .ok ()) :
    (settings.security = .shadowTls → ∃ shadow, settings.shadowTlsSettings = some shadow ∧
      ∀ version nonEmpty, checkShadowTls shadow version nonEmpty = .ok ()) ∧
    (settings.network = .kcp → ∀ kcp, settings.kcpSettings = some kcp →
      ∃ header, HeaderType.fromStr kcp.header = .ok header) := by
  obtain ⟨⟨⟩, hshadow, hkcp⟩ := bind_eq_ok.1 h
  constructor
  · intro hsecurity
    rw [rejectShadowTls, if_pos hsecurity] at hshadow
    obtain ⟨shadow, hsome, hcheck⟩ := bind_eq_ok.1 hshadow
    refine ⟨shadow, okOr_eq_ok.1 hsome, fun version nonEmpty => ?_⟩
    rw [lift_eq_ok] at hcheck
    unfold checkShadowTls at hcheck ⊢
    split_ifs at hcheck ⊢
    rfl
  · intro hnetwork kcp hsome
    rw [rejectKcp, if_pos hnetwork, hsome, elim_some] at hkcp
    cases hheader : HeaderType.fromStr kcp.header with
    | ok header => exact ⟨header, rfl⟩
    | error e =>
      rw [hheader] at hkcp
      cases hkcp

theorem kinds_securityLayers
    (h : settings.security = .shadowTls → ∃ shadow, settings.shadowTlsSettings = some shadow ∧
      ∀ version nonEmpty, checkShadowTls shadow version nonEmpty = .ok ()) :
    ∃ layers, securityLayers settings = .ok layers ∧
      layers.map kind = securityKinds settings.security := by
  unfold securityLayers
  cases hsecurity : settings.security with
  | shadowTls =>
    obtain ⟨shadow, hshadow, hcheck⟩ := h hsecurity
    simp only [hshadow, elim_some, hcheck]
    exact ⟨_, rfl, rfl⟩
  | tls | none | reality => exact ⟨_, rfl, rfl⟩

theorem kinds_networkLayers (settings : StreamSettingsConfig)
    (h : settings.network ≠ .httpUpgrade) :
    (networkLayers settings).map kind = networkKinds settings.network := by
  unfold networkLayers
  cases hnetwork : settings.network with
  | httpUpgrade => exact absurd hnetwork h
  | tcp | ws | grpc | quic | kcp | splitHttp => rfl

theorem kinds_connectTransport
    (h : rejectUnfinishedTransportSettings side tag (some settings) = .ok ())
    (server : SocketAddr) :
    ∃ layers, connectTransport server (some settings) = .ok layers ∧
      layers.map kind = transportKinds settings.network settings.security := by
  obtain ⟨hshadow, hkcp⟩ := rejectUnfinished_ok h
  obtain ⟨security, hsecurity, hkinds⟩ := kinds_securityLayers hshadow
  have hover (hne : settings.network ≠ .httpUpgrade) :
      ((securityLayers settings).map fun security =>
        tcp server :: (security ++ networkLayers settings)) =
          .ok (.tcp server :: (security ++ networkLayers settings)) ∧
      (tcp server :: (security ++ networkLayers settings)).map kind =
        .tcp :: (securityKinds settings.security ++ networkKinds settings.network) := by
    rw [hsecurity, map_cons, map_append, hkinds, kinds_networkLayers settings hne]
    exact ⟨rfl, rfl⟩
  unfold connectTransport transportKinds
  cases hnetwork : settings.network with
  | quic | httpUpgrade =>
    simp only [hnetwork]
    exact ⟨_, rfl, rfl⟩
  | kcp =>
    have hconfig : ∃ config, buildMkcpConfig server (some settings) = .ok config := by
      unfold buildMkcpConfig
      simp only [bind_some]
      cases hsettings : settings.kcpSettings with
      | none => exact ⟨_, rfl⟩
      | some kcp =>
        obtain ⟨header, hheader⟩ := hkcp hnetwork kcp hsettings
        simp only [elim_some, hheader]
        exact ⟨_, rfl⟩
    obtain ⟨config, hconfig⟩ := hconfig
    simp only [hnetwork, hconfig]
    exact ⟨_, rfl, rfl⟩
  | tcp | ws | grpc | splitHttp =>
    obtain ⟨hok, hmap⟩ := hover (by simp [hnetwork])
    rw [hnetwork] at hmap
    simp only [hnetwork]
    exact ⟨_, hok, hmap⟩

theorem transportKinds_of_plain (h : usesOutboundTransport (some settings) = false) :
    transportKinds settings.network settings.security = [.tcp] := by
  unfold usesOutboundTransport usesSecurity usesNetwork at h
  cases hnetwork : settings.network <;> cases hsecurity : settings.security <;>
    simp [hnetwork, hsecurity] at h <;> rfl

theorem kinds_transport
    (hreject : rejectUnfinishedTransportSettings side tag (some settings) = .ok ())
    {server : SocketAddr} {plain transport : OutboundHandler}
    (hplain : plain.connect = .ok [.tcp server])
    (htransport : transport.connect = connectTransport server (some settings))
    (h : (if usesOutboundTransport (some settings) then (pure transport : Except Failure _)
      else pure plain) = .ok handler) :
    ∃ layers, handler.connect = .ok layers ∧
      layers.map kind = transportKinds settings.network settings.security := by
  cases huses : usesOutboundTransport (some settings) with
  | true =>
    rw [huses] at h
    obtain rfl : transport = handler := ok.inj h
    rw [htransport]
    exact kinds_connectTransport hreject server
  | false =>
    rw [huses] at h
    obtain rfl : plain = handler := ok.inj h
    exact ⟨_, hplain, (transportKinds_of_plain huses).symm⟩

theorem kinds_connect [Text] {env : Env} {dns : Option DnsModuleConfig} {config : Config}
    {cfg : OutboundConfig} (hsettings : cfg.streamSettings = some settings)
    (h : buildOutbound env dns config cfg = .ok handler) :
    ∃ layers, handler.connect = .ok layers ∧
      layers.map kind =
        outboundKinds cfg.protocol settings.network settings.security := by
  obtain ⟨⟨⟩, hreject, h⟩ := bind_eq_ok.1 h
  rw [hsettings] at hreject
  cases hprotocol : cfg.protocol <;> rw [hprotocol] at h
  case freedom =>
    obtain rfl := ok.inj h
    exact ⟨_, rfl, rfl⟩
  case vless =>
    obtain ⟨server, -, h⟩ := bind_eq_ok.1 (withContext_eq_ok.1 h)
    obtain ⟨id, -, h⟩ := bind_eq_ok.1 h
    obtain ⟨uuid, -, h⟩ := bind_eq_ok.1 h
    rw [hsettings] at h
    by_cases hreality : settings.security = .reality
    · rw [if_pos (by simp [usesSecurity, hreality])] at h
      obtain ⟨dial, -, h⟩ := bind_eq_ok.1 h
      obtain rfl := ok.inj h
      exact ⟨_, rfl, by rw [outboundKinds, if_pos hreality]; rfl⟩
    · rw [if_neg (by simpa [usesSecurity] using hreality)] at h
      simp only [outboundKinds, if_neg hreality]
      exact kinds_transport hreject rfl rfl h
  case trojan =>
    obtain ⟨server, -, h⟩ := bind_eq_ok.1 (withContext_eq_ok.1 h)
    obtain ⟨password, -, h⟩ := bind_eq_ok.1 h
    rw [hsettings] at h
    exact kinds_transport hreject rfl rfl h
  case vmess =>
    obtain ⟨server, -, h⟩ := bind_eq_ok.1 (withContext_eq_ok.1 h)
    obtain ⟨id, -, h⟩ := bind_eq_ok.1 h
    obtain ⟨uuid, -, h⟩ := bind_eq_ok.1 h
    rw [hsettings] at h
    exact kinds_transport hreject rfl rfl h
  case shadowsocks =>
    obtain ⟨server, -, h⟩ := bind_eq_ok.1 (withContext_eq_ok.1 h)
    obtain ⟨password, -, h⟩ := bind_eq_ok.1 h
    obtain rfl := ok.inj h
    exact ⟨_, rfl, rfl⟩
  case hysteria2 =>
    obtain ⟨text, -, h⟩ := bind_eq_ok.1 (withContext_eq_ok.1 h)
    obtain ⟨server, -, h⟩ := bind_eq_ok.1 h
    obtain rfl := ok.inj h
    exact ⟨_, rfl, rfl⟩
  case shadowTls | socks | http => cases h

/-! ### Layers of the server -/

def inboundKinds (network : NetworkType) (security : SecurityType) : List LayerKind :=
  if protocol = .hysteria2 then [.hysteria2]
  else if network = .kcp then [.mkcp]
  else if network = .quic then [.quic]
  else if security = .reality then [.tcp, .reality]
  else .tcp :: (securityKinds security ++ networkKinds network)

section Inbound

variable {env : Env} {host : Host} {settings : StreamSettingsConfig} {layer : ServerLayer}

theorem kind_serverTlsLayer (h : serverTlsLayer env settings = .ok layer) : layer.kind = .tls := by
  obtain ⟨tls, -, h⟩ := bind_eq_ok.1 h
  obtain ⟨-, -, h⟩ := bind_eq_ok.1 h
  obtain ⟨certPem, -, h⟩ := bind_eq_ok.1 h
  obtain ⟨keyPem, -, h⟩ := bind_eq_ok.1 h
  obtain ⟨-, -, h⟩ := bind_eq_ok.1 h
  obtain rfl := ok.inj h
  rfl

theorem kind_serverShadowTlsLayer (h : serverShadowTlsLayer settings = .ok layer) :
    layer.kind = .shadowTls := by
  obtain ⟨shadow, -, h⟩ := bind_eq_ok.1 h
  obtain ⟨-, -, h⟩ := bind_eq_ok.1 h
  obtain rfl := ok.inj h
  rfl

theorem kind_buildRealityServer (h : buildRealityServer env settings = .ok layer) :
    layer.kind = .reality := by
  obtain ⟨reality, -, h⟩ := bind_eq_ok.1 h
  obtain ⟨dest, -, h⟩ := bind_eq_ok.1 h
  obtain ⟨fallback, -, h⟩ := bind_eq_ok.1 h
  obtain ⟨shortIds, -, h⟩ := bind_eq_ok.1 h
  obtain ⟨-, -, h⟩ := bind_eq_ok.1 h
  obtain ⟨privateKey, -, h⟩ := bind_eq_ok.1 h
  obtain rfl := ok.inj h
  rfl

variable [Text] {layers : List ServerLayer} {cfg : InboundConfig}

theorem kinds_buildConnHandler (hne : settings.security ≠ .reality)
    (h : buildConnHandler env settings = .ok layers) :
    layers.map ServerLayer.kind =
      securityKinds settings.security ++ networkKinds settings.network := by
  have hnetwork : (serverNetworkLayers settings).map ServerLayer.kind =
      networkKinds settings.network := by
    unfold serverNetworkLayers
    cases settings.network <;> rfl
  unfold buildConnHandler at h
  cases hsecurity : settings.security with
  | reality => exact absurd hsecurity hne
  | none =>
    simp only [hsecurity] at h
    obtain rfl := ok.inj h
    exact hnetwork
  | tls =>
    simp only [hsecurity] at h
    obtain ⟨layer, hlayer, rfl⟩ := map_eq_ok.1 h
    rw [map_cons, kind_serverTlsLayer hlayer, hnetwork]
    rfl
  | shadowTls =>
    simp only [hsecurity] at h
    obtain ⟨layer, hlayer, rfl⟩ := map_eq_ok.1 h
    rw [map_cons, kind_serverShadowTlsLayer hlayer, hnetwork]
    rfl

section

variable (hsettings : cfg.streamSettings = some settings)
include hsettings

theorem kinds_connHandlerFor (h : connHandlerFor env cfg = .ok layers) :
    layers.map ServerLayer.kind =
      if settings.security = .reality then [.reality]
      else securityKinds settings.security ++ networkKinds settings.network := by
  simp only [connHandlerFor, hsettings, elim_some] at h
  by_cases hreality : settings.security = .reality
  · rw [if_pos hreality, withContext_eq_ok] at h
    obtain ⟨layer, hlayer, rfl⟩ := map_eq_ok.1 h
    rw [if_pos hreality, map_singleton, kind_buildRealityServer hlayer]
  · rw [if_neg hreality, withContext_eq_ok] at h
    rw [if_neg hreality, kinds_buildConnHandler hreality h]

theorem kinds_transportListener {limits : LimitsConfig} {addr : SocketAddr}
    {handler : InboundHandler} {listener : Listener} (hprotocol : cfg.protocol ≠ .hysteria2)
    (h : transportListener env limits cfg addr handler = some listener) :
    listener.kinds = inboundKinds cfg.protocol settings.network settings.security := by
  unfold transportListener at h
  simp only [usesNetwork, hsettings, any_some, decide_eq_true_eq] at h
  rw [inboundKinds, if_neg hprotocol]
  by_cases hkcp : settings.network = .kcp
  · rw [if_pos hkcp] at h ⊢
    obtain ⟨mkcp, -, rfl⟩ := map_eq_some_iff.1 h
    rfl
  · rw [if_neg hkcp] at h ⊢
    by_cases hquic : settings.network = .quic
    · rw [if_pos hquic] at h ⊢
      obtain ⟨pems, -, rfl⟩ := map_eq_some_iff.1 h
      rfl
    · rw [if_neg hquic] at h ⊢
      obtain ⟨layers, hlayers, rfl⟩ := map_eq_some_iff.1 h
      have hkinds := kinds_connHandlerFor hsettings (toOption_eq_some.1 hlayers)
      show .tcp :: layers.map ServerLayer.kind = _
      rw [hkinds]
      split_ifs <;> rfl

theorem kinds_startInbound {config : Config} {n : ℕ} {registries : Registries}
    {listeners : List Listener × Registries}
    (h : (startInbound env host config n registries cfg).result = .ok listeners) :
    listeners.1 ≠ [] ∧ ∀ listener ∈ listeners.1,
      listener.kinds = inboundKinds cfg.protocol settings.network settings.security ∨
        cfg.protocol = .shadowsocks ∧ listener.kinds = [.udp] := by
  obtain ⟨hlisteners, -, hne, -⟩ := startInbound_ok h
  refine ⟨hne, fun listener hmem => ?_⟩
  rw [hlisteners] at hmem
  obtain ⟨hhysteria, _, rfl⟩ | ⟨hss, _, _, rfl⟩ | ⟨hother, addr, handler, -, hlistener⟩ :=
    mem_listenersOf_cases hmem
  · exact .inl (by rw [inboundKinds, if_pos hhysteria]; rfl)
  · exact .inr ⟨hss, rfl⟩
  · exact .inl (kinds_transportListener hsettings hother hlistener)

end

end Inbound

/-! ### Security -/

def LayerKind.security? : LayerKind → Option SecurityType
  | .tls | .quic | .hysteria2 => some .tls
  | .shadowTls => some .shadowTls
  | .reality => some .reality
  | .tcp | .udp | .mkcp | .ws | .httpUpgrade | .splitHttp | .grpc => none

/-- One of the layers is that of the security. -/
def Secured (security : SecurityType) (kinds : List LayerKind) : Prop :=
  ∃ kind ∈ kinds, kind.security? = some security

instance (security : SecurityType) (kinds : List LayerKind) : Decidable (Secured security kinds) :=
  inferInstanceAs (Decidable (∃ kind ∈ kinds, kind.security? = some security))

def Transported : Prop :=
  protocol = .vless ∨ protocol = .trojan ∨ protocol = .vmess

instance (protocol : Protocol) : Decidable (Transported protocol) :=
  inferInstanceAs (Decidable (_ ∨ _))

/-- The combinations in which an outbound applies the security. -/
def Honoured (network : NetworkType) (security : SecurityType) : Prop :=
  (protocol = .vless ∧ security = .reality) ∨
  (protocol = .hysteria2 ∧ security = .tls) ∨
  (Transported protocol ∧ security = .tls ∧ network ≠ .httpUpgrade ∧ network ≠ .kcp) ∨
  (Transported protocol ∧ security = .shadowTls ∧ network ≠ .httpUpgrade ∧ network ≠ .kcp ∧
    network ≠ .quic)

instance (protocol : Protocol) (network : NetworkType) (security : SecurityType) :
    Decidable (Honoured protocol network security) :=
  inferInstanceAs (Decidable (_ ∨ _))

/-- The combinations in which both ends have the same layers. -/
def Mirrored (network : NetworkType) (security : SecurityType) : Prop :=
  protocol = .hysteria2 ∨
  (protocol = .vless ∧ security = .reality ∧ network ≠ .kcp ∧ network ≠ .quic) ∨
  (Transported protocol ∧ protocol ≠ .vless ∧ security = .reality ∧
    (network = .kcp ∨ network = .quic)) ∨
  (Transported protocol ∧ security ≠ .reality ∧ network ≠ .httpUpgrade)

instance (protocol : Protocol) (network : NetworkType) (security : SecurityType) :
    Decidable (Mirrored protocol network security) :=
  inferInstanceAs (Decidable (_ ∨ _))

theorem secured_outboundKinds (protocol : Protocol) (network : NetworkType) (h : security ≠ .none) :
    Secured security (outboundKinds protocol network security) ↔
      Honoured protocol network security := by
  cases security with
  | none => exact absurd rfl h
  | tls | reality | shadowTls => cases protocol <;> cases network <;> decide

theorem inboundKinds_eq_iff (protocol : Protocol) (network : NetworkType) (h : security ≠ .none) :
    inboundKinds protocol network security = outboundKinds protocol network security ↔
      Mirrored protocol network security := by
  cases security with
  | none => exact absurd rfl h
  | tls | reality | shadowTls => cases protocol <;> cases network <;> decide

/-- **Security and mirrored layers.**  Take an outbound with security that construction accepts.
Connecting does not fail for its settings; its bytes go through the security that it asks for
exactly in the combinations `Honoured`; and the listeners of any inbound with the same protocol and
settings that construction accepts peel off the layers of the outbound, in the order in which they
were put on, exactly in the combinations `Mirrored`. -/
theorem layered_iff [Text] (env : Env) (host : Host) (dns : Option DnsModuleConfig)
    (config : Config) (outbound : OutboundConfig) (settings : StreamSettingsConfig)
    (handler : OutboundHandler) (hsettings : outbound.streamSettings = some settings)
    (hsecurity : settings.security ≠ .none)
    (hbuilt : buildOutbound env dns config outbound = .ok handler) :
    ∃ layers, handler.connect = .ok layers ∧
      (Secured settings.security (layers.map kind) ↔
        Honoured outbound.protocol settings.network settings.security) ∧
      ∀ n registries inbound listeners, inbound.protocol = outbound.protocol →
        inbound.streamSettings = some settings →
        (startInbound env host config n registries inbound).result = .ok listeners →
        ((∀ listener ∈ listeners.1, listener.kinds = layers.map kind) ↔
          Mirrored outbound.protocol settings.network settings.security) := by
  obtain ⟨layers, hconnect, hkinds⟩ := kinds_connect hsettings hbuilt
  refine ⟨layers, hconnect, ?_, ?_⟩
  · rw [hkinds]
    exact secured_outboundKinds _ _ hsecurity
  · intro n registries inbound listeners hprotocol hinbound hstart
    obtain ⟨hne, hlisteners⟩ := kinds_startInbound hinbound hstart
    rw [hprotocol] at hlisteners
    rw [hkinds, ← inboundKinds_eq_iff _ _ hsecurity]
    constructor
    · intro hall
      obtain ⟨listener, hmem⟩ := exists_mem_of_ne_nil _ hne
      rcases hlisteners listener hmem with hl | ⟨hss, hl⟩
      · rw [← hl, hall listener hmem]
      · have := hl.symm.trans (hall listener hmem)
        rw [hss] at this
        exact absurd this (by simp [outboundKinds])
    · intro heq listener hmem
      rcases hlisteners listener hmem with hl | ⟨hss, -⟩
      · rw [hl, heq]
      · have hmirrored := (inboundKinds_eq_iff _ _ hsecurity).1 heq
        rw [hss] at hmirrored
        simp [Mirrored, Transported] at hmirrored

section

variable (network : NetworkType)

def tlsOver : StreamSettingsConfig where
  network := network
  security := .tls
  tlsSettings := some ⟨"example.com", false, [], "cert.pem", "key.pem"⟩

def vlessOver : OutboundConfig where
  tag := "proxy"
  protocol := .vless
  settings := .object [("address", .string "10.0.0.3"), ("port", .number 443),
    ("users", .array [.object [("id", .string "u")]])]
  streamSettings := some (tlsOver network)

def vlessInboundOver : InboundConfig where
  tag := "in"
  protocol := .vless
  listen := anyV4
  port := 443
  settings := .object [("clients", .array [.object [("id", .string "u")]])]
  streamSettings := some (tlsOver network)

def labConfig : Config where
  inbounds := [vlessInboundOver network]
  outbounds := [vlessOver network]

end

/-- VLESS over a WebSocket with TLS: the header goes through TLS, and the inbound peels off TCP, TLS
and the WebSocket. -/
theorem layered_ws :
    ∃ handler layers listeners, buildOutbound labEnv none (labConfig .ws) (vlessOver .ws) =
        .ok handler ∧ handler.connect = .ok layers ∧
      Secured .tls (layers.map kind) ∧
      (startInbound labEnv labHost (labConfig .ws) 0 (fun _ => none)
        (vlessInboundOver .ws)).result = .ok listeners ∧
      ∀ listener ∈ listeners.1, listener.kinds = layers.map kind := by
  obtain ⟨layers, hconnect, hsecured, hmirrored⟩ := layered_iff labEnv labHost none
    (labConfig .ws) (vlessOver .ws) (tlsOver .ws) _ rfl (by decide) rfl
  refine ⟨_, layers, _, rfl, hconnect, hsecured.2 (by decide), rfl, ?_⟩
  exact (hmirrored 0 (fun _ => none) (vlessInboundOver .ws) _ rfl rfl rfl).2 (by decide)

/-- VLESS over HTTPUpgrade with TLS is accepted on both sides, and the outbound writes its header to
a plain TCP connection behind the upgrade; the inbound waits for TLS. -/
theorem httpupgrade_in_the_clear :
    ∃ handler layers listeners, buildOutbound labEnv none (labConfig .httpUpgrade)
        (vlessOver .httpUpgrade) = .ok handler ∧ handler.connect = .ok layers ∧
      layers.map kind = [.tcp, .httpUpgrade] ∧
      ¬ Secured .tls (layers.map kind) ∧
      (startInbound labEnv labHost (labConfig .httpUpgrade) 0 (fun _ => none)
        (vlessInboundOver .httpUpgrade)).result = .ok listeners ∧
      listeners.1.map Listener.kinds = [[.tcp, .tls, .httpUpgrade]] := by
  exact ⟨_, _, _, rfl, rfl, rfl, by decide, rfl, rfl⟩

end Blackwire.Core
