import Blackwire.App.Routing
import Blackwire.Config.Schema
import Blackwire.Lib.Acquire

/-!
# The panel's database and the configuration that it describes

The tables of `black-ui/server/src/db.rs`, and `config.rs`, which makes an engine configuration of
them.
-/

namespace Blackwire.Panel

open Json Routing Failure List Value

/-! ### Tables -/

structure Settings where
  grpcAddress : String := "127.0.0.1:62789"
  adaptiveRoutingEnabled : Bool := false

structure Inbound where
  id : ℤ
  tag : String
  listen : String
  port : ℕ
  protocol : String
  enabled : Bool := true
  transport : String := "tcp"
  settings : String := ""
  streamSettings : String := ""
  sniffing : String := ""
  limits : String := ""

structure Outbound where
  id : ℤ
  tag : String
  protocol : String
  enabled : Bool := true
  settings : String := "\x7b\x7d"
  streamSettings : String := ""

structure ConfigSection where
  name : String
  enabled : Bool
  value : String

structure ManagedUser where
  id : ℤ
  inboundId : ℤ
  email : String
  uuid : String
  flow : String := ""
  credential : Value := .object []
  enabled : Bool := true
  enforcementStatus : String := "active"
  deriving DecidableEq

/-- The tables, each in the order of its ids, with the columns that are unique. -/
structure Database where
  settings : Settings := {}
  inbounds : List Inbound
  outbounds : List Outbound
  sections : List ConfigSection := []
  users : List ManagedUser
  inbounds_sorted : inbounds.Pairwise (fun a b => a.id < b.id) := by decide
  inbounds_tags : (inbounds.map fun i => i.tag).Nodup := by decide
  outbounds_sorted : outbounds.Pairwise (fun a b => a.id < b.id) := by decide
  outbounds_tags : (outbounds.map fun o => o.tag).Nodup := by decide
  users_sorted : users.Pairwise (fun a b => a.id < b.id) := by decide
  users_emails : (users.map fun u => u.email).Nodup := by decide

/-! ### The configuration -/

/-- An error, or a panic of `serde_json`. -/
inductive Fault
  | error (e : Failure)
  | panic (text : String)

/-- `serde_json::from_str`. -/
structure Codec where
  fromStr : String → Except String Value

/-- `target[key] = value` of `serde_json`, which panics on what is no object and not null. -/
def assign (target : Value) (key : String) (value : Value) : Except Fault Value :=
  match target with
  | .object fields => .ok (.object (insertField key value fields))
  | .null => .ok (.object [(key, value)])
  | other => .error (.panic ("cannot access key \"" ++ key ++ "\" in JSON " ++ other.typeName))

variable (protocol : String) {value : Value} {users : List ManagedUser}

/-- The entry of a user in the `clients` of an inbound: email, and credential by protocol. -/
def clientEntry (user : ManagedUser) : Value :=
  let entry := insertField "email" (.string user.email) (user.credential.asObject.getD [])
  if protocol = "vless" ∨ protocol = "vmess" then
    let entry := orInsertField "id" (.string user.uuid) entry
    if protocol = "vless" ∧ user.flow ≠ "" then
      .object (orInsertField "flow" (.string user.flow) entry)
    else .object entry
  else if protocol = "trojan" ∨ protocol = "shadowsocks" then
    .object (orInsertField "password" (.string user.uuid) entry)
  else if protocol = "hysteria2" then
    .object (orInsertField "auth" (.string user.uuid) entry)
  else .object entry

def protocolUsesClients : Bool :=
  protocol ∈ ["vless", "vmess", "trojan", "shadowsocks", "hysteria2"]

/-- The users of an inbound that are enabled and not stopped by enforcement. -/
def activeOn (inbound : Inbound) (user : ManagedUser) : Bool :=
  user.inboundId = inbound.id ∧ user.enabled ∧ user.enforcementStatus = "active"

/-- The routing section that replaces the configured one in adaptive mode. -/
def adaptiveRoutingSection (outbounds : List Outbound) : Value :=
  let tags := outbounds.map fun o => o.tag
  let rule (tag : String) : Value := .array [.object [("outboundTag", .string tag)]]
  if tags.length < 2 then .object [("rules", rule (tags.head?.getD "freedom"))]
  else
    let profile (entry : String × ℕ) : Value := .object [
      ("name", .string (if entry.2 = 0 then "stable" else "backup-" ++ toString entry.2)),
      ("outboundTag", .string entry.1)]
    let balancer : Value := .object [
      ("adaptive", .object [("cooldownSecs", .number 30), ("ewmaAlpha", .float "0.2"),
        ("failureThreshold", .number 2), ("switchMargin", .float "0.15")]),
      ("health_check", .object [("interval_secs", .number 30), ("max_failures", .number 2),
        ("timeout_secs", .number 5), ("url", .string "http://www.gstatic.com/generate_204")]),
      ("profiles", .array (tags.zipIdx.map profile)),
      ("selector", .array (tags.map .string)),
      ("strategy", .string "adaptive"),
      ("tag", .string "auto-proxy")]
    .object [("balancers", .array [balancer]), ("rules", rule "auto-proxy")]

section Build

variable [Text] (codec : Codec) (raw : String) (sections : List ConfigSection) {db : Database}
  {entry : Value} {inbound : Inbound}

def parseJson : Except Fault Value :=
  (codec.fromStr raw).mapError fun e => .error [e]

def optionalJson : Except Fault (Option Value) :=
  if Text.trim raw = "" then .ok none else (parseJson codec raw).map some

def objectOrEmpty : Except Fault Value :=
  (optionalJson codec raw).map fun value => value.getD (.object [])

def plainStream (network : String) (more : List (String × Value)) : Value :=
  .object (insertField "network" (.string network)
    (insertField "security" (.string "none") more))

/-- The stored stream settings, or those that the transport stands for. -/
def streamSettings (inbound : Inbound) : Except Fault (Option Value) :=
  let path := ("path", string ("/" ++ inbound.tag))
  if Text.trim inbound.streamSettings ≠ "" then
    (parseJson codec inbound.streamSettings).map some
  else match inbound.transport with
  | "tcp" => .ok none
  | "ws" => .ok (some (plainStream "ws" [("wsSettings", .object [path])]))
  | "reality" => .error (.error ["REALITY inbound '" ++ inbound.tag ++ "' requires streamSettings"])
  | "grpc" => .ok (some (plainStream "grpc"
      [("grpcSettings", .object [("serviceName", .string inbound.tag)])]))
  | "httpupgrade" => .ok (some (plainStream "httpupgrade"
      [("httpupgradeSettings", .object [path])]))
  | "splithttp" => .ok (some (plainStream "splithttp"
      [("splithttpSettings", .object [("mode", .string "stream-one"), path])]))
  | "kcp" => .ok (some (plainStream "kcp" []))
  | "quic" => .ok (some (plainStream "quic" []))
  | other => .error (.error ["unsupported transport '" ++ other ++ "'"])

/-- The stored settings, with the active users as `clients` if there are any. -/
def settingsWithClients (users : List ManagedUser) (inbound : Inbound) : Except Fault Value := do
  let clients := (users.filter (activeOn inbound)).map (clientEntry inbound.protocol)
  let settings ← objectOrEmpty codec inbound.settings
  if clients ≠ [] ∨ protocolUsesClients inbound.protocol ∧ settings.get "clients" = none then
    assign settings "clients" (.array clients)
  else .ok settings

/-- An inbound as the engine's configuration has it. -/
def inboundEntry (users : List ManagedUser) (inbound : Inbound) : Except Fault Value := do
  let settings ← settingsWithClients codec users inbound
  let stream ← streamSettings codec inbound
  let sniffing ← optionalJson codec inbound.sniffing
  let limits ← optionalJson codec inbound.limits
  let entry : Value := .object [("listen", .string inbound.listen), ("port", .number inbound.port),
    ("protocol", .string inbound.protocol), ("settings", settings), ("tag", .string inbound.tag)]
  return ((entry.insertSome "streamSettings" stream).insertSome "sniffing" sniffing).insertSome
    "limits" limits

/-- An outbound as the engine's configuration has it. -/
def outboundEntry (outbound : Outbound) : Except Fault Value := do
  let settings ← objectOrEmpty codec outbound.settings
  let stream ← optionalJson codec outbound.streamSettings
  let entry : Value := .object [("protocol", .string outbound.protocol), ("settings", settings),
    ("tag", .string outbound.tag)]
  return entry.insertSome "streamSettings" stream

/-- A section of the configuration, if it is there and enabled. -/
def enabledSection (key : String) : Except Fault (Option Value) :=
  match sections.find? fun s => s.name = key with
  | none => .ok none
  | some s => if s.enabled then (parseJson codec s.value).map some else .ok none

def sectionOrDefault (key : String) (default : Value) : Except Fault Value :=
  (enabledSection codec sections key).map fun value => value.getD default

def copySections : List String → Value → Except Fault Value
  | [], root => .ok root
  | key :: keys, root => do
    let value ← enabledSection codec sections key
    copySections keys (root.insertSome key value)

def freedomEntry : Value := .object [("protocol", .string "freedom"), ("tag", .string "freedom")]

/-- `build_value`: the engine's configuration that the database describes. -/
def buildValue (db : Database) : Except Fault Value := do
  let inbounds ← (db.inbounds.filter fun i => i.enabled).mapM (inboundEntry codec db.users)
  let enabledOutbounds := db.outbounds.filter fun o => o.enabled
  let entries ← enabledOutbounds.mapM (outboundEntry codec)
  let outbounds := if entries = [] then [freedomEntry] else entries
  let log ← sectionOrDefault codec db.sections "log"
    (.object [("json", .bool false), ("level", .string "info")])
  let api ← sectionOrDefault codec db.sections "api"
    (.object [("listen", .string db.settings.grpcAddress)])
  let root ← copySections codec db.sections ["dns", "routing", "tun", "limits", "stats", "fast"]
    (.object [("api", api), ("inbounds", .array inbounds), ("log", log),
      ("outbounds", .array outbounds)])
  let root := if db.settings.adaptiveRoutingEnabled then
    root.insert "routing" (adaptiveRoutingSection enabledOutbounds) else root
  copySections codec db.sections ["metricsAddr", "profile"] root

/-! ### What a configuration is made of -/

omit [Text] in
theorem get_copySections {sections : List ConfigSection} {keys : List String} {root : Value}
    {key : String} (hkey : key ∉ keys) (h : copySections codec sections keys root = .ok value) :
    value.get key = root.get key := by
  induction keys generalizing root with
  | nil =>
    obtain rfl := Except.ok.inj h
    rfl
  | cons k keys ih =>
    rw [mem_cons, not_or] at hkey
    obtain ⟨v, -, h⟩ := bind_eq_ok.1 h
    rw [ih hkey.2 h, get_insertSome_ne hkey.1]

theorem buildValue_ok (h : buildValue codec db = .ok value) :
    ∃ inbounds entries,
      (db.inbounds.filter fun i => i.enabled).mapM (inboundEntry codec db.users) = .ok inbounds ∧
      (db.outbounds.filter fun o => o.enabled).mapM (outboundEntry codec) = .ok entries ∧
      value.field "inbounds" = .array inbounds ∧
      value.field "outbounds" = .array (if entries = [] then [freedomEntry] else entries) := by
  obtain ⟨inbounds, hinbounds, h⟩ := bind_eq_ok.1 h
  obtain ⟨entries, hentries, h⟩ := bind_eq_ok.1 h
  obtain ⟨log, -, h⟩ := bind_eq_ok.1 h
  obtain ⟨api, -, h⟩ := bind_eq_ok.1 h
  obtain ⟨root, hroot, h⟩ := bind_eq_ok.1 h
  have hget : ∀ key, key ∉ ["dns", "routing", "tun", "limits", "stats", "fast"] →
      key ∉ ["metricsAddr", "profile"] → value.get key = (object [("api", api),
        ("inbounds", .array inbounds), ("log", log),
        ("outbounds", .array (if entries = [] then [freedomEntry] else entries))]).get key := by
    intro key hkey hkey'
    rw [get_copySections codec hkey' h, ← get_copySections codec hkey hroot]
    split_ifs
    · exact get_insert_ne (by rintro rfl; simp at hkey) _ _
    · rfl
  refine ⟨inbounds, entries, hinbounds, hentries, ?_, ?_⟩
  · rw [field, hget "inbounds" (by decide) (by decide)]
    rfl
  · rw [field, hget "outbounds" (by decide) (by decide)]
    rfl

theorem tag_outboundEntry {outbound : Outbound} (h : outboundEntry codec outbound = .ok entry) :
    entry.field "tag" = .string outbound.tag := by
  obtain ⟨settings, -, h⟩ := bind_eq_ok.1 h
  obtain ⟨stream, -, h⟩ := bind_eq_ok.1 h
  obtain rfl := Except.ok.inj h
  rw [field, get_insertSome_ne (by decide)]
  rfl

theorem inboundEntry_ok (h : inboundEntry codec users inbound = .ok entry) :
    entry.field "tag" = .string inbound.tag ∧
      settingsWithClients codec users inbound = .ok (entry.field "settings") := by
  obtain ⟨settings, hsettings, h⟩ := bind_eq_ok.1 h
  obtain ⟨stream, -, h⟩ := bind_eq_ok.1 h
  obtain ⟨sniffing, -, h⟩ := bind_eq_ok.1 h
  obtain ⟨limits, -, h⟩ := bind_eq_ok.1 h
  obtain rfl := Except.ok.inj h
  rw [field, get_insertSome_ne (by decide), get_insertSome_ne (by decide),
    get_insertSome_ne (by decide), field, get_insertSome_ne (by decide),
    get_insertSome_ne (by decide), get_insertSome_ne (by decide), hsettings]
  exact ⟨rfl, rfl⟩

theorem inbounds_of_buildValue (h : buildValue codec db = .ok value) :
    ∀ entry ∈ value.items "inbounds", ∃ tag, entry.field "tag" = .string tag := by
  obtain ⟨inbounds, -, hentries, -, hinbounds, -⟩ := buildValue_ok codec h
  intro entry hentry
  rw [items, hinbounds] at hentry
  obtain ⟨inbound, -, hbuilt⟩ := exists_of_mem_mapM hentries hentry
  exact ⟨inbound.tag, (inboundEntry_ok codec hbuilt).1⟩

theorem outbounds_of_buildValue (h : buildValue codec db = .ok value) :
    ∃ tags : List String, tags.Nodup ∧ tags ≠ [] ∧
      (value.items "outbounds").map (fun entry => entry.field "tag") = tags.map .string := by
  obtain ⟨-, entries, -, hentries, -, houtbounds⟩ := buildValue_ok codec h
  rw [items, houtbounds]
  have hall := mapM_eq_ok.1 hentries
  split_ifs with hempty
  · exact ⟨["freedom"], by simp, by simp, rfl⟩
  · refine ⟨(db.outbounds.filter fun o => o.enabled).map fun o => o.tag,
      db.outbounds_tags.sublist (filter_sublist.map _), ?_, ?_⟩
    · intro hnil
      rw [map_eq_nil_iff.1 hnil] at hall
      exact hempty (forall₂_nil_left_iff.1 hall)
    · show entries.map _ = _
      clear hempty houtbounds hentries
      generalize (db.outbounds.filter fun o => o.enabled) = rows at hall
      induction hall with
      | nil => rfl
      | cons hentry _ ih => rw [map_cons, map_cons, map_cons, ih, tag_outboundEntry codec hentry]

end Build

/-! ### Who is listed -/

/-- A client entry with the email of the user, or with the credential of the user. -/
def namesUser (user : ManagedUser) (client : Value) : Bool :=
  client.field "email" = .string user.email ||
    ["id", "password", "auth"].any fun key => client.field key = .string user.uuid

/-- Some inbound of the configuration has a client entry for the user. -/
def listed (value : Value) (user : ManagedUser) : Bool :=
  (value.items "inbounds").any fun entry =>
    ((entry.field "settings").items "clients").any (namesUser user)

/-! ### A small panel -/

def labCodec : Codec where
  fromStr _ := .ok (.object [])

def firstUser : ManagedUser := { id := 1, inboundId := 1, email := "a@example", uuid := "u" }

def secondUser : ManagedUser := { id := 2, inboundId := 1, email := "b@example", uuid := "w" }

def panelInbound : Inbound :=
  { id := 1, tag := "in", listen := "0.0.0.0", port := 443, protocol := "vless" }

def emptyPanel : Database where
  inbounds := [panelInbound]
  outbounds := [{ id := 1, tag := "direct", protocol := "freedom" }]
  users := []

end Blackwire.Panel
