import Blackwire.Cli.RuntimeControl
import Blackwire.Lib.Run

/-!
# Who may connect

Which users the VLESS inbounds accept while users are added and removed, inbounds and outbounds are
changed and configuration files are read.
-/

namespace Blackwire.Cli

open Schema Routing Router Failure Vless Core List Control VlessUserRegistry

/-! ### Users -/

variable (env : Env) (config : Config)

section Users

variable {IpNet : Type} [IpNetApi IpNet] (ctl : Control)

def State.registries (s : State IpNet) : Registries :=
  s.slot.elim (fun _ => none) fun running => running.inst.reload.registries

def Authenticates (s : State IpNet) (tag : String) (uuid : Octets 16) (user : VlessUser) : Prop :=
  (s.registries tag).bind (validate uuid) = some user

instance (s : State IpNet) (tag : String) (uuid : Octets 16) (user : VlessUser) :
    Decidable (Authenticates s tag uuid user) := inferInstanceAs (Decidable (_ = _))

def usersOn (tag : String) : List VlessUser :=
  ((vlessInbounds config).filter fun cfg => cfg.tag = tag).flatMap (listedUsers env)

def Lists (tag : String) (user : VlessUser) : Op → Prop
  | .addVlessUser t email uuid flow =>
    t = tag ∧ ∃ bytes, ctl.env.parseUuid uuid = .ok bytes ∧ user = ⟨email, bytes, flow⟩
  | .configFile file => user ∈ usersOn ctl.env file tag
  | .mutate (.addInbound config) => ∃ endpoint, ctl.parseInboundEndpoint config = .ok endpoint ∧
      endpoint.protocol = .vless ∧ endpoint.tag = tag ∧ user ∈ listedUsers ctl.env endpoint
  | _ => False

/-- The operation takes the user away from the inbound. -/
def Revokes (tag : String) (user : VlessUser) : Op → Prop
  | .addVlessUser t email uuid flow =>
    t = tag ∧ ∃ bytes, ctl.env.parseUuid uuid = .ok bytes ∧
      normaliseUuid bytes = normaliseUuid user.uuid ∧ user ≠ ⟨email, bytes, flow⟩
  | .removeVlessUser t email => t = tag ∧ user.email = email
  | .configFile file => user ∉ usersOn ctl.env file tag ∨ ∃ other ∈ usersOn ctl.env file tag,
      other ≠ user ∧ normaliseUuid other.uuid = normaliseUuid user.uuid
  | .mutate (.removeInbound t) => t = tag
  | .mutate _ => False

/-- The stored configuration lists the users that are accepted. -/
def Current (running : RunningInstance IpNet) : Prop :=
  ∀ tag, SameRegistry (running.inst.reload.registries tag)
    (registriesOf ctl.env running.config tag)

end Users

/-! ### Registries of configurations -/

theorem lastFor_append (tag : String) (inbounds more : List InboundConfig) :
    lastFor tag (inbounds ++ more) = (lastFor tag more).or (lastFor tag inbounds) := by
  rw [lastFor, filter_append, List.getLast?_append]
  rfl

theorem registriesOf_addInbound (endpoint : InboundConfig) (tag : String) :
    registriesOf env { config with inbounds := config.inbounds ++ [endpoint] } tag =
      if endpoint.protocol = .vless ∧ endpoint.tag = tag then
        some (populateVlessRegistry env endpoint).1
      else registriesOf env config tag := by
  rw [registriesOf_apply, registriesOf_apply, vlessInbounds, filter_append, lastFor_append]
  split_ifs with h
  · simp [lastFor, h.1, h.2]
  · have hnone : lastFor tag ([endpoint].filter fun cfg => cfg.protocol = .vless) = none := by
      by_cases hvless : endpoint.protocol = .vless
      · have hne : endpoint.tag ≠ tag := fun htag => h ⟨hvless, htag⟩
        simp [lastFor, hvless, hne]
      · simp [lastFor, hvless]
    rw [hnone]
    rfl

theorem registriesOf_removeInbound (removed tag : String) :
    registriesOf env { config with inbounds := config.inbounds.filter fun i => i.tag ≠ removed }
        tag =
      if tag = removed then none else registriesOf env config tag := by
  rw [registriesOf_apply, registriesOf_apply]
  have hfilter : lastFor tag (vlessInbounds
      { config with inbounds := config.inbounds.filter fun i => i.tag ≠ removed }) =
      if tag = removed then none else lastFor tag (vlessInbounds config) := by
    simp only [lastFor, vlessInbounds, filter_filter]
    split_ifs with htag
    · rw [filter_eq_nil_iff.2]
      · rfl
      · simp +contextual [htag]
    · refine congrArg List.getLast? (filter_congr fun cfg _ => ?_)
      by_cases h : cfg.tag = tag
      · simp [h, htag]
      · simp [h]
  rw [hfilter]
  split_ifs <;> rfl

theorem registriesOf_edit {ctl : Control} {mutation : Mutation} {old new : Config}
    (h : ctl.edit mutation old = .ok new) (env : Env) (tag : String) :
    registriesOf env new tag = registriesOf env old tag ∨
      (mutation = .removeInbound tag ∧ registriesOf env new tag = none) ∨
      ∃ config endpoint, mutation = .addInbound config ∧
        ctl.parseInboundEndpoint config = .ok endpoint ∧ endpoint.protocol = .vless ∧
        endpoint.tag = tag ∧ endpoint ∈ new.inbounds ∧ registriesOf env old tag = none ∧
        registriesOf env new tag = some (populateVlessRegistry env endpoint).1 := by
  have hedits := edits_of_edit h
  cases mutation with
  | addInbound config =>
    obtain ⟨endpoint, hendpoint, hnew, rfl⟩ := hedits
    rw [registriesOf_addInbound]
    split_ifs with hvless
    · refine .inr (.inr ⟨config, endpoint, rfl, hendpoint, hvless.1, hvless.2, by simp, ?_, rfl⟩)
      rw [registriesOf_apply, Option.map_eq_none_iff]
      by_contra hsome
      obtain ⟨cfg, hcfg⟩ := Option.ne_none_iff_exists'.1 hsome
      obtain ⟨hmem, htag⟩ := mem_of_lastFor hcfg
      exact hnew cfg (mem_vlessInbounds.1 hmem).1 (htag.trans hvless.2.symm)
    · exact .inl rfl
  | removeInbound removed =>
    obtain rfl := hedits
    rw [registriesOf_removeInbound]
    split_ifs with htag
    · exact .inr (.inl ⟨by rw [htag], rfl⟩)
    · exact .inl rfl
  | addOutbound config =>
    obtain ⟨endpoint, -, rfl⟩ := hedits
    exact .inl rfl
  | removeOutbound removed =>
    obtain rfl := hedits
    exact .inl rfl
  | alterOutbound config =>
    obtain ⟨endpoint, outbounds, -, -, rfl⟩ := hedits
    exact .inl rfl

def KeyedRegistries (registries : Registries) : Prop :=
  ∀ tag registry, registries tag = some registry → Keyed registry

theorem keyedRegistries_none : KeyedRegistries fun _ => none := by
  intro tag registry h
  cases h

variable {registries : Registries} {tag : String} {file : Config} {user : VlessUser}
  {uuid : Octets 16} {registries' : Registries}

theorem KeyedRegistries.set (h : KeyedRegistries registries) (tag : String)
    {registry : VlessUserRegistry} (hkeyed : Keyed registry) :
    KeyedRegistries (registries.set tag registry) := by
  intro t found hfound
  unfold Registries.set at hfound
  split_ifs at hfound
  · exact Option.some.inj hfound ▸ hkeyed
  · exact h t found hfound

theorem KeyedRegistries.writeAll (h : KeyedRegistries registries) (env : Env)
    (inbounds : List InboundConfig) : KeyedRegistries (writeAll env inbounds registries) := by
  intro tag registry hregistry
  rw [writeAll_apply] at hregistry
  cases hlast : lastFor tag inbounds with
  | none =>
    rw [hlast] at hregistry
    exact h tag registry hregistry
  | some cfg =>
    rw [hlast] at hregistry
    exact Option.some.inj hregistry ▸ keyed_populate cfg

theorem keyed_registriesOf : KeyedRegistries (registriesOf env config) :=
  KeyedRegistries.writeAll keyedRegistries_none env _

/-! ### Registries from a file -/

/-- The registries after a file was read: those of the inbounds of the file, and no others. -/
structure FromFile (env : Env) (file : Config) (registries registries' : Registries) : Prop where
  only : ∀ tag registry, registries' tag = some registry → ∃ cfg ∈ vlessInbounds file,
    cfg.tag = tag ∧ WellFormed env cfg ∧ registry = (populateVlessRegistry env cfg).1
  kept : ∀ tag, (registries tag).isSome → (∃ cfg ∈ vlessInbounds file, cfg.tag = tag) →
    (registries' tag).isSome

theorem mem_usersOn {env : Env} :
    user ∈ usersOn env file tag ↔
      ∃ cfg ∈ vlessInbounds file, cfg.tag = tag ∧ user ∈ listedUsers env cfg := by
  simp [usersOn, and_assoc]

section

variable {env : Env} (h : FromFile env file registries registries')
include h

theorem FromFile.listed
    (haccepts : (registries' tag).bind (validate uuid) = some user) :
    user ∈ usersOn env file tag := by
  obtain ⟨registry, hregistry, hvalidate⟩ := Option.bind_eq_some_iff.1 haccepts
  obtain ⟨cfg, hcfg, htag, hwell, rfl⟩ := h.only tag registry hregistry
  exact mem_usersOn.2 ⟨cfg, hcfg, htag, (acceptsExactly_populate hwell uuid).2 user hvalidate⟩

theorem FromFile.stays (hnodup : ((vlessInbounds file).map fun cfg => cfg.tag).Nodup)
    (hkeyed : KeyedRegistries registries)
    (haccepts : (registries tag).bind (validate uuid) = some user)
    (hlisted : user ∈ usersOn env file tag) (hunique : ∀ other ∈ usersOn env file tag,
      normaliseUuid other.uuid = normaliseUuid user.uuid → other = user) :
    (registries' tag).bind (validate uuid) = some user := by
  obtain ⟨registry, hregistry, hvalidate⟩ := Option.bind_eq_some_iff.1 haccepts
  have hkey := (hkeyed tag registry hregistry).normaliseUuid_of_validate hvalidate
  obtain ⟨listing, hlisting, htag, huser⟩ := mem_usersOn.1 hlisted
  obtain ⟨registry', hregistry'⟩ := Option.isSome_iff_exists.1
    (h.kept tag (by rw [hregistry]; rfl) ⟨listing, hlisting, htag⟩)
  obtain ⟨cfg, hcfg, htag', hwell, rfl⟩ := h.only tag registry' hregistry'
  obtain rfl := inj_on_of_nodup_map hnodup hcfg hlisting (htag'.trans htag.symm)
  obtain ⟨hsome, hmem⟩ := acceptsExactly_populate hwell uuid
  obtain ⟨found, hfound⟩ := Option.isSome_iff_exists.1 (hsome.2 ⟨user, huser, hkey⟩)
  have hfoundKey := (keyed_populate cfg).normaliseUuid_of_validate hfound
  obtain rfl := hunique found (mem_usersOn.2 ⟨cfg, hcfg, htag', hmem found hfound⟩)
    (hfoundKey.trans hkey.symm)
  rw [hregistry', Option.bind_some, hfound]

end

open State

/-! ### What the operations do to the registries -/

section Cases

variable {IpNet : Type} [IpNetApi IpNet] {ctl : Control}

theorem withRegistry_cases (tag : String)
    (f : VlessUserRegistry → Except String VlessUserRegistry) (s : State IpNet) :
    (∃ e, withRegistry tag f s = (s, .error e)) ∨
      ∃ registry changed, s.registries tag = some registry ∧ f registry = .ok changed ∧
        (withRegistry tag f s).1.registries = s.registries.set tag changed := by
  unfold withRegistry registries
  cases hslot : s.slot with
  | none => exact .inl ⟨_, rfl⟩
  | some running =>
    simp only [Option.elim_some]
    cases hregistry : running.inst.reload.registries tag with
    | none => exact .inl ⟨_, rfl⟩
    | some registry =>
      dsimp only
      cases hf : f registry with
      | error e => exact .inl ⟨e, rfl⟩
      | ok changed => exact .inr ⟨registry, changed, rfl, hf, rfl⟩

theorem addVlessUser_cases (tag email uuid flow : String) (s : State IpNet) :
    (∃ e, ctl.addVlessUser tag email uuid flow s = (s, .error e)) ∨
      ∃ registry bytes, s.registries tag = some registry ∧ ctl.env.parseUuid uuid = .ok bytes ∧
        (ctl.addVlessUser tag email uuid flow s).1.registries =
          s.registries.set tag (registry.addUser ⟨email, bytes, flow⟩) := by
  refine (withRegistry_cases tag _ s).imp id ?_
  rintro ⟨registry, changed, hregistry, hf, hstep⟩
  obtain ⟨bytes, hbytes, rfl⟩ := map_eq_ok.1 hf
  exact ⟨registry, bytes, hregistry, mapError_eq_ok.1 hbytes, hstep⟩

theorem removeVlessUser_cases (tag email : String) (s : State IpNet) :
    (∃ e, removeVlessUser tag email s = (s, .error e)) ∨
      ∃ registry, s.registries tag = some registry ∧
        (removeVlessUser tag email s).1.registries =
          s.registries.set tag (registry.removeUserByEmail email) := by
  refine (withRegistry_cases tag _ s).imp id ?_
  rintro ⟨registry, changed, hregistry, hf, hstep⟩
  split_ifs at hf
  obtain rfl := Except.ok.inj hf
  exact ⟨registry, hregistry, hstep⟩

variable [Text] [Automata]

theorem registries_of_build {machine : Machine IpNet} {config : Config} {inst : Instance IpNet}
    (h : ctl.build machine config = .ok inst) :
    inst.reload.registries = registriesOf ctl.env config := (fromConfig_ok h).registries

end Cases

/-! ### One operation -/

section Step

variable {IpNet : Type} [IpNetApi IpNet] (ctl : Control) {s : State IpNet} {input : Input IpNet}

/-- A step accepts only whom it lists, and drops only whom it takes away. -/
def Orderly (input : Input IpNet) (s s' : State IpNet) : Prop :=
  ∀ tag uuid user,
    (Authenticates s' tag uuid user → Authenticates s tag uuid user ∨ Lists ctl tag user input.op) ∧
    (Authenticates s tag uuid user → ¬ Revokes ctl tag user input.op →
      Authenticates s' tag uuid user)

variable {ctl} in
theorem Orderly.of_same {s' : State IpNet}
    (h : ∀ tag, SameRegistry (s.registries tag) (s'.registries tag)) : Orderly ctl input s s' := by
  intro tag uuid user
  unfold Authenticates
  rw [(h tag).2 uuid]
  exact ⟨.inl, fun hold _ => hold⟩

variable {ctl} {email : String}

theorem orderly_addVlessUser {uuid flow : String}
    (hop : input.op = .addVlessUser tag email uuid flow) (hkeyed : KeyedRegistries s.registries) :
    Orderly ctl input s (ctl.addVlessUser tag email uuid flow s).1 := by
  rcases addVlessUser_cases tag email uuid flow s with
    ⟨e, hfails⟩ | ⟨registry, bytes, hregistry, hparsed, hstep⟩
  · rw [hfails]
    exact .of_same fun _ => .refl _
  intro other shown user
  unfold Authenticates
  rw [hstep, hop]
  by_cases htag : other = tag
  · subst htag
    simp only [Registries.set, if_true, hregistry, Option.bind_some, validate_addUser]
    split_ifs with hkey
    · -- the UUID that is shown is that of the new user
      refine ⟨fun h => .inr ⟨rfl, bytes, hparsed, (Option.some.inj h).symm⟩,
        fun hold hrevokes => ?_⟩
      have hkeys := (hkeyed other registry hregistry).normaliseUuid_of_validate hold
      by_contra hne
      exact hrevokes ⟨rfl, bytes, hparsed, (hkeys.trans hkey).symm, fun heq => hne (by rw [heq])⟩
    · exact ⟨.inl, fun hold _ => hold⟩
  · simp only [Registries.set, if_neg htag]
    exact ⟨.inl, fun hold _ => hold⟩

theorem orderly_removeVlessUser (hop : input.op = .removeVlessUser tag email)
    (hkeyed : KeyedRegistries s.registries) :
    Orderly ctl input s (removeVlessUser tag email s).1 := by
  rcases removeVlessUser_cases tag email s with ⟨e, hfails⟩ | ⟨registry, hregistry, hstep⟩
  · rw [hfails]
    exact .of_same fun _ => .refl _
  intro other shown user
  unfold Authenticates
  rw [hstep, hop]
  by_cases htag : other = tag
  · subst htag
    simp only [Registries.set, if_true, hregistry, Option.bind_some,
      (hkeyed other registry hregistry).validate_removeUserByEmail]
    refine ⟨fun h => .inl (Option.filter_eq_some_iff.1 h).1, fun hold hrevokes => ?_⟩
    have hemail : user.email ≠ email := fun h => hrevokes ⟨rfl, h⟩
    exact Option.filter_eq_some_iff.2 ⟨hold, by simpa using hemail⟩
  · simp only [Registries.set, if_neg htag]
    exact ⟨.inl, fun hold _ => hold⟩

theorem removed_not_authenticates (hkeyed : KeyedRegistries s.registries)
    (hok : (removeVlessUser tag email s).2 = .ok ())
    (h : Authenticates (removeVlessUser tag email s).1 tag uuid user) : user.email ≠ email := by
  rcases removeVlessUser_cases tag email s with ⟨e, hfails⟩ | ⟨registry, hregistry, hstep⟩
  · rw [hfails] at hok
    cases hok
  · unfold Authenticates at h
    rw [hstep, Registries.set, if_pos rfl, Option.bind_some,
      (hkeyed tag registry hregistry).validate_removeUserByEmail] at h
    simpa using (Option.filter_eq_some_iff.1 h).2

theorem added_authenticates {uuid flow : String} {bytes : Octets 16}
    (hok : (ctl.addVlessUser tag email uuid flow s).2 = .ok ())
    (hparsed : ctl.env.parseUuid uuid = .ok bytes) :
    Authenticates (ctl.addVlessUser tag email uuid flow s).1 tag bytes ⟨email, bytes, flow⟩ := by
  rcases addVlessUser_cases tag email uuid flow s with
    ⟨e, hfails⟩ | ⟨registry, found, -, hfound, hstep⟩
  · rw [hfails] at hok
    cases hok
  · obtain rfl := Except.ok.inj (hparsed.symm.trans hfound)
    unfold Authenticates
    rw [hstep, Registries.set, if_pos rfl, Option.bind_some, validate_addUser, if_pos rfl]

variable (ctl) [Text] [Automata]

/-- The condition on a step: whoever rebuilds from the stored configuration finds it current. -/
def Steady (s : State IpNet) (input : Input IpNet) : Prop :=
  ∀ running, s.slot = some running →
    match input.op with
    | .addVlessUser _ _ _ _ | .removeVlessUser _ _ => True
    | .mutate mutation => ∀ config, ctl.edit mutation running.config = .ok config →
        Current ctl running ∧ ((∃ inst, ctl.build input.now config = .ok inst) ∨
          ∃ inst, ctl.build input.later running.config = .ok inst)
    | .configFile file =>
      ((vlessInbounds file).map fun cfg => cfg.tag).Nodup ∧
        if requiresInstanceRestart running.config (ctl.runtimeConfig file) then
          (∃ inst, ctl.build input.now (ctl.runtimeConfig file) = .ok inst) ∨
            Current ctl running ∧ ∃ inst, ctl.build input.later running.config = .ok inst
        else
          (running.inst.reload.apply ctl.env ctl.toUppercase input.now.files
              (ctl.runtimeConfig file)).2 = .ok () ∧
            ∀ tag, (running.inst.reload.registries tag).isSome →
              ∃ cfg ∈ vlessInbounds file, cfg.tag = tag

variable {ctl} {machine : Machine IpNet}

theorem orderly_mutate {mutation : Mutation} (hop : input.op = .mutate mutation)
    (hsteady : Steady ctl s input) :
    Orderly ctl input s (ctl.mutateConfig input.now input.later mutation s).1 := by
  rcases mutateConfig_cases ctl input.now input.later mutation s with
    hsame | ⟨running, config, hslot, hedit, hstep⟩
  · rw [hsame]
    exact .of_same fun _ => .refl _
  have hcondition := hsteady running hslot
  rw [hop] at hcondition
  obtain ⟨hcurrent, hbuilds⟩ := hcondition config hedit
  have hregistries : s.registries = running.inst.reload.registries := by
    rw [registries, hslot, Option.elim_some]
  rw [hstep]
  rcases rebuild_cases ctl input.now input.later config running with
    ⟨inst, hbuild, hslot'⟩ | ⟨hfails, ⟨inst, hbuild, hslot'⟩ | ⟨hfails', -⟩⟩
  · -- an instance of the edited configuration
    rw [hslot']
    intro tag uuid user
    have hnew : (⟨some ⟨config, inst⟩, s.reloading⟩ : State IpNet).registries tag =
        registriesOf ctl.env config tag := congrFun (registries_of_build hbuild) tag
    have hold := (hcurrent tag).2 uuid
    unfold Authenticates
    rw [hnew, hregistries, hold, hop]
    rcases registriesOf_edit hedit ctl.env tag with
      heq | ⟨rfl, hnone⟩ | ⟨added, endpoint, rfl, hendpoint, hvless, htag, hmem, hnone, hsome⟩
    · rw [heq]
      exact ⟨.inl, fun h _ => h⟩
    · rw [hnone]
      refine ⟨fun h => ?_, fun _ hrevokes => absurd rfl hrevokes⟩
      cases h
    · rw [hnone, hsome]
      refine ⟨fun h => .inr ?_, fun h => ?_⟩
      · have hwell := ((fromConfig_ok hbuild).wellFormed endpoint hmem hvless).1
        exact ⟨endpoint, hendpoint, hvless, htag,
          (acceptsExactly_populate hwell uuid).2 user h⟩
      · cases h
  · -- an instance of the stored configuration
    rw [hslot']
    refine .of_same fun tag => ?_
    have hnew : (⟨some ⟨running.config, inst⟩, s.reloading⟩ : State IpNet).registries tag =
        registriesOf ctl.env running.config tag := congrFun (registries_of_build hbuild) tag
    rw [hnew, hregistries]
    exact hcurrent tag
  · rcases hbuilds with hbuild | hbuild
    · exact absurd hbuild hfails
    · exact absurd hbuild hfails'

theorem fromFile_apply {inst : Instance IpNet}
    (happly : (inst.reload.apply ctl.env ctl.toUppercase machine.files
      (ctl.runtimeConfig file)).2 = .ok ())
    (hall : ∀ tag, (inst.reload.registries tag).isSome →
      ∃ cfg ∈ vlessInbounds file, cfg.tag = tag) :
    FromFile ctl.env file inst.reload.registries
      (inst.reloaded ctl.env ctl.toUppercase machine.files
        (ctl.runtimeConfig file)).reload.registries := by
  obtain ⟨hregistries, hwell⟩ := registries_apply_ok ctl.env machine.files ctl.toUppercase happly
  have happly (tag : String) : (inst.reloaded ctl.env ctl.toUppercase machine.files
      (ctl.runtimeConfig file)).reload.registries tag =
      (lastFor tag (refreshedInbounds (ctl.runtimeConfig file) inst.reload.registries)).elim
        (inst.reload.registries tag) fun cfg => some (populateVlessRegistry ctl.env cfg).1 :=
    (congrFun hregistries tag).trans (writeAll_apply _ _ tag)
  constructor
  · intro tag registry hregistry
    rw [happly] at hregistry
    cases hlast : lastFor tag (refreshedInbounds (ctl.runtimeConfig file)
        inst.reload.registries) with
    | some cfg =>
      rw [hlast] at hregistry
      obtain ⟨hmem, htag⟩ := mem_of_lastFor hlast
      exact ⟨cfg, (mem_refreshedInbounds.1 hmem).1, htag, hwell cfg hmem,
        (Option.some.inj hregistry).symm⟩
    | none =>
      rw [hlast] at hregistry
      -- the file has an inbound for each registry
      obtain ⟨cfg, hcfg, rfl⟩ := hall tag (Option.isSome_iff_exists.2 ⟨registry, hregistry⟩)
      have hmem : cfg ∈ refreshedInbounds (ctl.runtimeConfig file) inst.reload.registries :=
        mem_refreshedInbounds.2 ⟨hcfg, Option.isSome_iff_exists.2 ⟨registry, hregistry⟩⟩
      obtain ⟨last, hsome⟩ := exists_lastFor hmem
      rw [hlast] at hsome
      cases hsome
  · intro tag hsome hlisted
    rw [happly]
    cases lastFor tag (refreshedInbounds (ctl.runtimeConfig file) inst.reload.registries) with
    | some cfg => rfl
    | none => exact hsome

theorem fromFile_build {inst : Instance IpNet}
    (hbuild : ctl.build machine (ctl.runtimeConfig file) = .ok inst) (registries : Registries) :
    FromFile ctl.env file registries inst.reload.registries := by
  rw [registries_of_build hbuild]
  constructor
  · intro tag registry hregistry
    rw [registriesOf_apply] at hregistry
    obtain ⟨cfg, hlast, rfl⟩ := Option.map_eq_some_iff.1 hregistry
    obtain ⟨hmem, htag⟩ := mem_of_lastFor hlast
    obtain ⟨hinbound, hvless⟩ := mem_vlessInbounds.1 hmem
    exact ⟨cfg, hmem, htag, ((fromConfig_ok hbuild).wellFormed cfg hinbound hvless).1, rfl⟩
  · rintro tag - ⟨cfg, hcfg, rfl⟩
    exact registriesOf_isSome hcfg

theorem orderly_configFile (hop : input.op = .configFile file) (hsteady : Steady ctl s input)
    (hkeyed : KeyedRegistries s.registries) :
    Orderly ctl input s (ctl.notified input.now input.later file s) := by
  have hfile {s' : State IpNet} (hnodup : ((vlessInbounds file).map fun cfg => cfg.tag).Nodup)
      (h : FromFile ctl.env file s.registries s'.registries) : Orderly ctl input s s' := by
    intro tag uuid user
    rw [hop]
    refine ⟨fun hnew => .inr (h.listed hnew), fun hold hrevokes => ?_⟩
    simp only [Revokes, not_or, not_not, not_exists, not_and] at hrevokes
    refine h.stays hnodup hkeyed hold hrevokes.1 fun other hother hkey => ?_
    by_contra hne
    exact hrevokes.2 other hother hne hkey
  rcases notified_cases ctl input.now input.later file s with
    hsame | ⟨running, hslot, ⟨hrestart, hslot'⟩ | ⟨hrestart, hslot'⟩⟩
  · refine .of_same fun tag => ?_
    rw [registries, registries, hsame]
    exact .refl _
  · have hregistries : s.registries = running.inst.reload.registries := by
      rw [registries, hslot, Option.elim_some]
    have hcondition := hsteady running hslot
    rw [hop] at hcondition
    obtain ⟨hnodup, hbuilds⟩ := hcondition
    rw [if_pos hrestart] at hbuilds
    rcases rebuild_cases ctl input.now input.later (ctl.runtimeConfig file) running with
      ⟨inst, hbuild, hrebuilt⟩ | ⟨hfails, ⟨inst, hbuild, hrebuilt⟩ | ⟨hfails', -⟩⟩
    · refine hfile hnodup ?_
      rw [registries, registries, hslot', hrebuilt]
      exact fromFile_build hbuild _
    · obtain ⟨hcurrent, -⟩ := hbuilds.resolve_left hfails
      refine .of_same fun tag => ?_
      have hnew : (ctl.notified input.now input.later file s).registries =
          registriesOf ctl.env running.config := by
        rw [registries, hslot', hrebuilt]
        exact registries_of_build hbuild
      rw [hnew, hregistries]
      exact hcurrent tag
    · exact absurd (hbuilds.resolve_left hfails).2 hfails'
  · have hcondition := hsteady running hslot
    rw [hop] at hcondition
    obtain ⟨hnodup, happly⟩ := hcondition
    rw [if_neg (by simp [hrestart])] at happly
    refine hfile hnodup ?_
    rw [registries, registries, hslot', hslot]
    exact fromFile_apply happly.1 happly.2

theorem keyed_rebuild (ctl : Control) (now later : Machine IpNet) (config : Config)
    (running : RunningInstance IpNet) (reloading : Bool) :
    KeyedRegistries
      (⟨(ctl.rebuild now later config running).1, reloading⟩ : State IpNet).registries := by
  unfold registries
  rcases rebuild_cases ctl now later config running with
    ⟨inst, hbuild, hslot⟩ | ⟨-, ⟨inst, hbuild, hslot⟩ | ⟨-, hslot⟩⟩
  on_goal 3 =>
    simp only [hslot]
    exact keyedRegistries_none
  all_goals
    simp only [hslot, Option.elim_some, registries_of_build hbuild]
    exact keyed_registriesOf _ _

theorem keyed_apply {s : ReloadState IpNet} (h : KeyedRegistries s.registries) (env : Env)
    (toUppercase : String → String) (files : GeoFiles IpNet) (config : Config) :
    KeyedRegistries (s.apply env toUppercase files config).1.registries := by
  cases hrules : (configRules toUppercase config (collectOutboundTags config) :
      Except Failure (List (CompiledRule IpNet))) with
  | error e =>
    rw [ReloadState.apply, hrules]
    exact h
  | ok rules =>
    rw [(apply_of_rules env files toUppercase hrules s).1]
    exact h.writeAll env _

theorem keyed_step (h : KeyedRegistries s.registries) (input : Input IpNet) :
    KeyedRegistries (ctl.step s input).registries := by
  unfold step perform
  cases input.op with
  | addVlessUser tag email uuid flow =>
    show KeyedRegistries (ctl.addVlessUser tag email uuid flow s).1.registries
    rcases addVlessUser_cases tag email uuid flow s with
      ⟨e, hfails⟩ | ⟨registry, bytes, hregistry, -, hstep⟩
    · rw [hfails]
      exact h
    · rw [hstep]
      exact h.set tag ((h tag registry hregistry).addUser _)
  | removeVlessUser tag email =>
    show KeyedRegistries (removeVlessUser tag email s).1.registries
    rcases removeVlessUser_cases tag email s with ⟨e, hfails⟩ | ⟨registry, hregistry, hstep⟩
    · rw [hfails]
      exact h
    · rw [hstep]
      exact h.set tag ((h tag registry hregistry).removeUserByEmail _)
  | mutate mutation =>
    rcases mutateConfig_cases ctl input.now input.later mutation s with
      hsame | ⟨running, config, -, -, hstep⟩
    · simp only [hsame]
      exact h
    · simp only [hstep]
      exact keyed_rebuild ctl _ _ _ _ _
  | configFile file =>
    rcases notified_cases ctl input.now input.later file s with
      hsame | ⟨running, hslot, ⟨-, hslot'⟩ | ⟨-, hslot'⟩⟩
    · simp only [registries, hsame]
      exact h
    · have hkeyed := keyed_rebuild ctl input.now input.later (ctl.runtimeConfig file)
        running true
      simpa only [registries, hslot'] using hkeyed
    · rw [registries, hslot] at h
      simp only [registries, hslot', Option.elim_some]
      exact keyed_apply h _ _ _ _

/-- **One operation.**  No user appears that a steady operation does not list, and none vanishes
that it does not revoke. -/
theorem authenticates_step (hkeyed : KeyedRegistries s.registries) (hsteady : Steady ctl s input) :
    Orderly ctl input s (ctl.step s input) := by
  unfold step perform
  cases hop : input.op with
  | addVlessUser tag email uuid flow => exact orderly_addVlessUser hop hkeyed
  | removeVlessUser tag email => exact orderly_removeVlessUser hop hkeyed
  | mutate mutation => exact orderly_mutate hop hsteady
  | configFile file => exact orderly_configFile hop hsteady hkeyed

/-! ### Runs -/

/-- **Runs of operations.** -/
theorem authenticates_run {inputs : List (Input IpNet)}
    (hkeyed : KeyedRegistries s.registries) (hmeets : Run.Meets (Steady ctl) ctl.step s inputs)
    (tag : String) (uuid : Octets 16) (user : VlessUser) :
    (Authenticates (inputs.foldl ctl.step s) tag uuid user →
        Authenticates s tag uuid user ∨ ∃ input ∈ inputs, Lists ctl tag user input.op) ∧
      (Authenticates s tag uuid user → (∀ input ∈ inputs, ¬ Revokes ctl tag user input.op) →
        Authenticates (inputs.foldl ctl.step s) tag uuid user) := by
  induction inputs generalizing s with
  | nil => exact ⟨.inl, fun hold _ => hold⟩
  | cons input inputs ih =>
    obtain ⟨hsteady, hmeets⟩ := hmeets
    obtain ⟨hgain, hloss⟩ := authenticates_step hkeyed hsteady tag uuid user
    obtain ⟨hgains, hlosses⟩ := ih (keyed_step hkeyed input) hmeets
    constructor
    · intro hfinal
      rcases hgains hfinal with hnext | ⟨later, hmem, hlists⟩
      · rcases hgain hnext with hold | hlists
        · exact .inl hold
        · exact .inr ⟨input, mem_cons_self, hlists⟩
      · exact .inr ⟨later, mem_cons_of_mem _ hmem, hlists⟩
    · intro hold hrevokes
      refine hlosses (hloss hold (hrevokes input mem_cons_self)) fun later hmem => ?_
      exact hrevokes later (mem_cons_of_mem _ hmem)

theorem reloaded_listed {running : RunningInstance IpNet} (hop : input.op = .configFile file)
    (hsteady : Steady ctl s input) (hreloading : s.reloading = true) (hslot : s.slot = some running)
    (hrestart : requiresInstanceRestart running.config (ctl.runtimeConfig file) = false)
    (h : Authenticates (ctl.notified input.now input.later file s) tag uuid user) :
    user ∈ usersOn ctl.env file tag := by
  have hcondition := hsteady running hslot
  rw [hop] at hcondition
  obtain ⟨-, happly⟩ := hcondition
  rw [if_neg (by simp [hrestart])] at happly
  have hslot' : (ctl.notified input.now input.later file s).slot = some { running with
      inst := running.inst.reloaded ctl.env ctl.toUppercase input.now.files
        (ctl.runtimeConfig file) } := by
    simp [notified, hreloading, hslot, hrestart]
  unfold Authenticates registries at h
  rw [hslot'] at h
  exact (fromFile_apply happly.1 happly.2).listed h

variable (ctl) in
/-- What an operation says about users holds until a later one says otherwise. -/
structure Respected (s : State IpNet) (input : Input IpNet)
    (later : List (Input IpNet)) : Prop where
  /-- A user who was removed is not accepted until an operation lists the user again. -/
  removed : ∀ tag email, input.op = .removeVlessUser tag email → (ctl.perform s input).2 = .ok () →
    ∀ uuid user, user.email = email → (∀ i ∈ later, ¬ Lists ctl tag user i.op) →
      ¬ Authenticates (later.foldl ctl.step (ctl.step s input)) tag uuid user
  unlisted : ∀ file running, input.op = .configFile file → s.reloading = true →
    s.slot = some running →
    requiresInstanceRestart running.config (ctl.runtimeConfig file) = false →
    ∀ tag uuid user, user ∉ usersOn ctl.env file tag → (∀ i ∈ later, ¬ Lists ctl tag user i.op) →
      ¬ Authenticates (later.foldl ctl.step (ctl.step s input)) tag uuid user
  /-- A user who was added is accepted until an operation takes the user away. -/
  added : ∀ tag email uuid flow bytes, input.op = .addVlessUser tag email uuid flow →
    (ctl.perform s input).2 = .ok () → ctl.env.parseUuid uuid = .ok bytes →
    (∀ i ∈ later, ¬ Revokes ctl tag ⟨email, bytes, flow⟩ i.op) →
      Authenticates (later.foldl ctl.step (ctl.step s input)) tag bytes ⟨email, bytes, flow⟩

/-- **Users.**  For every run from the start of the program whose operations are steady: a user who
was removed, or whom a file that was read does not list, is not accepted until an operation lists
the user again, and a user who was added is accepted until an operation takes the user away. -/
theorem respected_of_steady (ctl : Control) (machine : Machine IpNet) (config : Config)
    (inst : Instance IpNet) (hstart : ctl.build machine config = .ok inst)
    (before later : List (Input IpNet)) (input : Input IpNet)
    (hmeets : Run.Meets (Steady ctl) ctl.step (started config inst) (before ++ input :: later)) :
    Respected ctl (before.foldl ctl.step (started config inst)) input later := by
  have hinitial : KeyedRegistries (started config inst).registries := by
    show KeyedRegistries inst.reload.registries
    rw [registries_of_build hstart]
    exact keyed_registriesOf _ _
  have hkeyed : KeyedRegistries (before.foldl ctl.step (started config inst)).registries :=
    Run.invariant_of_meets (P := fun s => KeyedRegistries s.registries)
      (fun _ i h _ => keyed_step h i) hinitial hmeets.of_append
  obtain ⟨hsteady, hlater⟩ := hmeets.after_append
  have hrun := authenticates_run (keyed_step hkeyed input) hlater
  refine ⟨?_, ?_, ?_⟩
  · intro tag email hop hok uuid user hemail hnot hfinal
    rcases (hrun tag uuid user).1 hfinal with hnext | ⟨i, hi, hlists⟩
    · unfold step at hnext
      unfold perform at hok hnext
      rw [hop] at hok hnext
      exact removed_not_authenticates hkeyed hok hnext hemail
    · exact hnot i hi hlists
  · intro file running hop hreloading hslot hrestart tag uuid user hunlisted hnot hfinal
    rcases (hrun tag uuid user).1 hfinal with hnext | ⟨i, hi, hlists⟩
    · unfold step perform at hnext
      rw [hop] at hnext
      exact hunlisted (reloaded_listed hop hsteady hreloading hslot hrestart hnext)
    · exact hnot i hi hlists
  · intro tag email uuid flow bytes hop hok hparsed hnot
    refine (hrun tag bytes _).2 ?_ hnot
    unfold step
    unfold perform at hok ⊢
    rw [hop] at hok ⊢
    exact added_authenticates hok hparsed

end Step

/-! ### A small program -/

def oneUser : Config where
  inbounds := [vlessWith [labClient]]
  outbounds := [{ tag := "direct", protocol := .freedom }]

def removeUser : Input Router.Cidr :=
  ⟨.removeVlessUser "in" "a@example", labMachine, labMachine⟩

def addMore : Input Router.Cidr :=
  ⟨.mutate (.addOutbound ⟨"more", .null⟩), labMachine, labMachine⟩

def addOther : Input Router.Cidr :=
  ⟨.addVlessUser "in" "b@example" "u" "", labMachine, labMachine⟩

/-- An outbound is added, then the user is removed, and then another one is added under the same
UUID. -/
theorem respected_removal :
    letI := plainAutomata
    ∃ inst, labControl.build labMachine oneUser = .ok inst ∧
      Respected labControl ([addMore].foldl labControl.step (started oneUser inst)) removeUser
        [addOther] := by
  let _ := plainAutomata
  refine ⟨_, rfl, respected_of_steady labControl labMachine oneUser _ rfl [addMore] [addOther]
    removeUser ⟨?_, ?_, ?_, trivial⟩⟩
  · intro running hrunning config hedit
    obtain rfl := Option.some.inj hrunning
    obtain rfl := Except.ok.inj hedit
    exact ⟨fun tag => .refl _, .inl ⟨_, rfl⟩⟩
  · intro running hrunning
    trivial
  · intro running hrunning
    trivial

/-- The user is removed, and then an outbound is added: the user is accepted again. -/
theorem removed_user_returns :
    letI := plainAutomata
    ∃ inst, labControl.build labMachine oneUser = .ok inst ∧
      (labControl.perform (started oneUser inst) removeUser).2 = .ok () ∧
      (∀ uuid user, user.email = labUser.email →
        ¬ Authenticates (labControl.step (started oneUser inst) removeUser) "in" uuid user) ∧
      (labControl.perform (labControl.step (started oneUser inst) removeUser) addMore).2 = .ok () ∧
      ¬ Lists labControl "in" labUser addMore.op ∧
      Authenticates ([addMore].foldl labControl.step
        (labControl.step (started oneUser inst) removeUser)) "in" labUser.uuid labUser ∧
      ¬ Respected labControl (started oneUser inst) removeUser [addMore] := by
  let _ := plainAutomata
  have hkeyed : KeyedRegistries (registriesOf labEnv oneUser) := keyed_registriesOf _ _
  refine ⟨_, rfl, rfl, fun uuid user hemail hauth => ?_, rfl, id, by decide +kernel, fun h => ?_⟩
  · have hremoved {s : State Router.Cidr}
        (h : Authenticates (labControl.step s removeUser) "in" uuid user)
        (hkeyed : KeyedRegistries s.registries)
        (hok : (labControl.perform s removeUser).2 = .ok ()) : user.email ≠ "a@example" :=
      removed_not_authenticates hkeyed hok h
    exact hremoved hauth hkeyed rfl hemail
  · refine h.removed "in" "a@example" rfl rfl labUser.uuid labUser rfl ?_ (by decide +kernel)
    intro i hi
    rw [mem_singleton.1 hi]
    exact id

end Blackwire.Cli
