import Blackwire.Panel.Service

/-!
# Bringing the engine in line with the panel

`sync_config` of `black-ui/server/src/runtime.rs`, against the engine's management service and the
`RuntimeControl` behind it.  The panel lists the inbounds of the engine, removes those whose tags it
does not have, and adds those whose tags the engine does not have; then it lists the outbounds,
removes, and replaces or adds.
-/

namespace Blackwire.Panel

open Json Routing Router Failure Schema Core Cli List Except Value Request

section Calls

variable {IpNet : Type} [IpNetApi IpNet] [Text] [Automata] (link : Link IpNet)

/-! ### The calls of the panel -/

def tagOf (entry : Value) : String := (entry.field "tag").asStr.getD ""

def tagsOf (entries : List Value) : List String :=
  entries.filterMap fun entry => (entry.field "tag").asStr

/-- Every inbound but a VLESS one without clients. -/
def isLiveRunnableInbound (inbound : Value) : Bool :=
  if (inbound.get "protocol").bind asStr ≠ some "vless" then true
  else (((inbound.get "settings").bind fun settings => settings.get "clients").bind
    asArray).any fun clients => !clients.isEmpty

def targetInbounds (value : Value) : List Value :=
  (value.items "inbounds").filter isLiveRunnableInbound

def staleTags (current : List String) (targets : List Value) : List String :=
  current.filter fun tag => tag ∉ tagsOf targets

/-- Removes, then adds; an inbound whose tag the engine has is left as it is. -/
def syncInbounds (targets : List Value) (s : Session IpNet) : Session IpNet × Except String Unit :=
  match (s.ask link .listInbounds).2 with
  | .error e => ((s.ask link .listInbounds).1, .error e)
  | .ok () =>
    let current := listInboundTags s.engine
    let removed := (s.ask link .listInbounds).1.askAll link
      ((staleTags current targets).map .removeInbound)
    removed.insist link ((targets.filter fun entry => tagOf entry ∉ current).map fun entry =>
      .addInbound (tagOf entry) entry)

def outboundRequest (current : List String) (entry : Value) : Request :=
  if tagOf entry ∈ current then .alterOutbound (tagOf entry) entry
  else .addOutbound (tagOf entry) entry

/-- Removes, then alters or adds each outbound of the panel. -/
def syncOutbounds (targets : List Value) (s : Session IpNet) :
    Session IpNet × Except String Unit :=
  match (s.ask link .listOutbounds).2 with
  | .error e => ((s.ask link .listOutbounds).1, .error e)
  | .ok () =>
    let current := listOutboundTags s.engine
    let removed := (s.ask link .listOutbounds).1.askAll link
      ((staleTags current targets).map .removeOutbound)
    removed.insist link (targets.map (outboundRequest current))

def syncValue (value : Value) (s : Session IpNet) : Session IpNet × Except String Unit :=
  match (syncInbounds link (targetInbounds value) s).2 with
  | .error e => ((syncInbounds link (targetInbounds value) s).1, .error e)
  | .ok () =>
    syncOutbounds link (value.items "outbounds") (syncInbounds link (targetInbounds value) s).1

/-- `sync_config`. -/
def syncConfig (codec : Codec) (db : Database) (engine : State IpNet) :
    Session IpNet × Except Fault Unit :=
  match buildValue codec db with
  | .error e => (⟨engine, []⟩, .error e)
  | .ok value =>
    match link.connect with
    | .error e => (⟨engine, []⟩, .error (.error [e]))
    | .ok () =>
      ((syncValue link value ⟨engine, []⟩).1,
        (syncValue link value ⟨engine, []⟩).2.mapError fun e => .error [e])

/-! ### Inbounds -/

variable {link} {s : Session IpNet} {targets entries : List Value} {current : List String}
  {config : Config} {value : Value} {engine : State IpNet}

omit [Text] [Automata] in
theorem endpointJson_of_tag {kind : String} {entry : Value} {tag : String}
    (h : entry.field "tag" = .string tag) : endpointJson kind (tagOf entry) entry =
      .ok ⟨tagOf entry, entry⟩ := by
  have htag : tagOf entry = tag := by rw [tagOf, h]; rfl
  cases entry with
  | object fields =>
    have hget : (object fields).get "tag" = some (.string tag) := by
      unfold field at h
      cases hfield : (object fields).get "tag" with
      | none => simp [hfield] at h
      | some value => simpa [hfield] using h
    simp [endpointJson, hget, htag, asObject, asStr]
  | _ => cases h

theorem config_addInbounds
    (htags : ∀ entry ∈ entries, ∃ tag, entry.field "tag" = .string tag)
    (hconfig : configOf s.engine = some config)
    (h : (s.insist link (entries.map fun entry => .addInbound (tagOf entry) entry)).2 = .ok ()) :
    ∃ added, entries.map link.ctl.parseInbound = added.map ok ∧
      configOf (s.insist link (entries.map fun entry => .addInbound (tagOf entry) entry)).1.engine =
        some { config with inbounds := config.inbounds ++ added } := by
  induction entries generalizing s config with
  | nil => exact ⟨[], rfl, by simpa [Session.insist] using hconfig⟩
  | cons entry entries ih =>
    obtain ⟨hok, hrest⟩ := insist_cons_ok h
    rw [map_cons, hrest] at h
    obtain ⟨tag, htag⟩ := htags entry mem_cons_self
    have hmutation : (addInbound (tagOf entry) entry).mutation =
        .ok (some (.addInbound ⟨tagOf entry, entry⟩)) := by
      rw [mutation, endpointJson_of_tag htag]
      rfl
    obtain ⟨edited, ⟨endpoint, hendpoint, -, rfl⟩, hedited, -⟩ := ask_ok hmutation hconfig hok
    obtain ⟨added, hadded, hfinal⟩ := ih (fun e he => htags e (mem_cons_of_mem entry he)) hedited h
    refine ⟨endpoint :: added, ?_, ?_⟩
    · rw [map_cons, map_cons, hadded, (Control.parseInboundEndpoint_ok hendpoint).1]
    · rw [map_cons, hrest, hfinal]
      simp

/-! ### Outbounds -/

omit [Text] [Automata] in
theorem replaceFirst_spec {endpoint : OutboundConfig} {old new : List OutboundConfig}
    (h : replaceFirst (fun o => o.tag = endpoint.tag) endpoint old = some new) :
    new.map (fun o => o.tag) = old.map (fun o => o.tag) ∧ endpoint ∈ new ∧
      ∀ o ∈ old, o.tag ≠ endpoint.tag → o ∈ new := by
  induction old generalizing new with
  | nil => cases h
  | cons o old ih =>
    unfold replaceFirst at h
    split_ifs at h with htag
    · obtain rfl := Option.some.inj h
      have htag : o.tag = endpoint.tag := of_decide_eq_true htag
      refine ⟨by simp [htag], mem_cons_self, fun o' ho' hne => ?_⟩
      rcases mem_cons.1 ho' with rfl | hmem
      · exact absurd htag hne
      · exact mem_cons_of_mem _ hmem
    · obtain ⟨rest, hrest, rfl⟩ := Option.map_eq_some_iff.1 h
      obtain ⟨htags, hmem, hkeep⟩ := ih hrest
      refine ⟨by simp [htags], mem_cons_of_mem o hmem, fun o' ho' hne => ?_⟩
      rcases mem_cons.1 ho' with rfl | hmem'
      · exact mem_cons_self
      · exact mem_cons_of_mem o (hkeep o' hmem' hne)

theorem config_outbound {entry : Value} (htag : ∃ tag, entry.field "tag" = .string tag)
    (hconfig : configOf s.engine = some config)
    (h : (s.ask link (outboundRequest current entry)).2 = .ok ()) :
    ∃ o outbounds, link.ctl.parseOutbound entry = .ok o ∧ o.tag = tagOf entry ∧
      configOf (s.ask link (outboundRequest current entry)).1.engine =
        some { config with outbounds } ∧
      outbounds.map (fun o => o.tag) = config.outbounds.map (fun o => o.tag) ++
        (if tagOf entry ∈ current then [] else [tagOf entry]) ∧
      o ∈ outbounds ∧ (∀ o' ∈ config.outbounds, o'.tag ≠ o.tag → o' ∈ outbounds) ∧
      Fresh link.ctl (s.ask link (outboundRequest current entry)).1.engine := by
  obtain ⟨tag, htag⟩ := htag
  unfold outboundRequest at h ⊢
  split_ifs at h ⊢ with hcurrent
  · have hmutation : (alterOutbound (tagOf entry) entry).mutation =
        .ok (some (.alterOutbound ⟨tagOf entry, entry⟩)) := by
      obtain ⟨asked, hasked⟩ := mutation_of_ok h
      simp only [mutation, endpointJson_of_tag htag] at hasked ⊢
      split_ifs at hasked ⊢
      rfl
    obtain ⟨edited, ⟨o, outbounds, ho, hreplaced, rfl⟩, hedited, hfresh⟩ :=
      ask_ok hmutation hconfig h
    obtain ⟨hparsed, hotag⟩ := Control.parseOutboundEndpoint_ok ho
    obtain ⟨htags, hmem, hkeep⟩ := replaceFirst_spec hreplaced
    exact ⟨o, outbounds, hparsed, hotag, hedited, by simpa using htags, hmem, hkeep, hfresh⟩
  · have hmutation : (addOutbound (tagOf entry) entry).mutation =
        .ok (some (.addOutbound ⟨tagOf entry, entry⟩)) := by
      rw [mutation, endpointJson_of_tag htag]
      rfl
    obtain ⟨edited, ⟨o, ho, rfl⟩, hedited, hfresh⟩ := ask_ok hmutation hconfig h
    obtain ⟨hparsed, hotag⟩ := Control.parseOutboundEndpoint_ok ho
    refine ⟨o, config.outbounds ++ [o], hparsed, hotag, hedited, by simp [hotag], by simp, ?_,
      hfresh⟩
    intro o' ho' _
    exact mem_append_left _ ho'

theorem config_outbounds
    (htags : ∀ entry ∈ entries, ∃ tag, entry.field "tag" = .string tag)
    (hnodup : (entries.map tagOf).Nodup) (hconfig : configOf s.engine = some config)
    (h : (s.insist link (entries.map (outboundRequest current))).2 = .ok ()) :
    ∃ outbounds, configOf (s.insist link (entries.map (outboundRequest current))).1.engine =
        some { config with outbounds } ∧
      outbounds.map (fun o => o.tag) = config.outbounds.map (fun o => o.tag) ++
        (entries.filter fun entry => tagOf entry ∉ current).map tagOf ∧
      (∀ entry ∈ entries, ∃ o ∈ outbounds, link.ctl.parseOutbound entry = .ok o ∧
        o.tag = tagOf entry) ∧
      (∀ o ∈ config.outbounds, o.tag ∉ entries.map tagOf → o ∈ outbounds) ∧
      (Fresh link.ctl s.engine ∨ entries ≠ [] →
        Fresh link.ctl (s.insist link (entries.map (outboundRequest current))).1.engine) := by
  induction entries generalizing s config with
  | nil => exact ⟨config.outbounds, hconfig, by simp, by simp, fun o ho _ => ho,
      fun h => h.resolve_right (by simp)⟩
  | cons entry entries ih =>
    obtain ⟨hok, hrest⟩ := insist_cons_ok h
    rw [map_cons, hrest] at h
    rw [map_cons, nodup_cons] at hnodup
    obtain ⟨o, outbounds, hparsed, hotag, hedited, hmap, hmem, hkeep, hfresh⟩ :=
      config_outbound (htags entry mem_cons_self) hconfig hok
    obtain ⟨final, hfinal, hmap', hall, hkeep', hfresh'⟩ :=
      ih (fun e he => htags e (mem_cons_of_mem entry he)) hnodup.2 hedited h
    refine ⟨final, ?_, ?_, ?_, ?_, ?_⟩
    · rw [map_cons, hrest]
      exact hfinal
    · rw [hmap', hmap]
      split_ifs with hcurrent <;> simp [hcurrent]
    · intro e he
      rcases mem_cons.1 he with rfl | he
      · exact ⟨o, hkeep' o hmem (hotag ▸ hnodup.1), hparsed, hotag⟩
      · exact hall e he
    · intro o' ho' hnot
      rw [map_cons, mem_cons, not_or] at hnot
      exact hkeep' o' (hkeep o' ho' (hotag ▸ hnot.1)) hnot.2
    · rw [map_cons, hrest]
      exact fun _ => hfresh' (.inl hfresh)

omit [Text] [Automata] in
/-- Outbounds among which every entry is, and no tag that is not an entry's, are the entries exactly
if no two have one tag. -/
theorem perm_outbounds_iff {parse : Value → Except String OutboundConfig}
    {outbounds : List OutboundConfig} (hnodup : (entries.map tagOf).Nodup)
    (hall : ∀ entry ∈ entries, ∃ o ∈ outbounds, parse entry = .ok o ∧ o.tag = tagOf entry)
    (hsub : outbounds.map (fun o => o.tag) ⊆ entries.map tagOf) :
    (outbounds.map ok).Perm (entries.map parse) ↔
      (outbounds.map fun o => o.tag).Nodup := by
  let tag (parsed : Except String OutboundConfig) : String := parsed.toOption.elim "" fun o => o.tag
  have hok : (outbounds.map ok).map tag = outbounds.map fun o => o.tag := by
    rw [map_map]
    rfl
  have hparse : (entries.map parse).map tag = entries.map tagOf := by
    rw [map_map]
    refine map_congr_left fun entry hentry => ?_
    obtain ⟨o, -, hparsed, hotag⟩ := hall entry hentry
    rw [Function.comp_apply, hparsed]
    exact hotag
  constructor
  · intro hperm
    have htags := hperm.map tag
    rw [hok, hparse] at htags
    exact htags.nodup_iff.2 hnodup
  · intro hunique
    have hsubset : entries.map parse ⊆ outbounds.map ok := by
      intro parsed hparsed
      obtain ⟨entry, hentry, rfl⟩ := mem_map.1 hparsed
      obtain ⟨o, ho, heq, -⟩ := hall entry hentry
      rw [heq]
      exact mem_map_of_mem ho
    have hdistinct : (entries.map parse).Nodup := List.Nodup.of_map tag (hparse ▸ hnodup)
    refine (List.Subperm.perm_of_length_le (subperm_of_subset hdistinct hsubset) ?_).symm
    have hlength := (subperm_of_subset hunique hsub).length_le
    simpa using hlength

/-! ### The two halves -/

theorem syncInbounds_ok (h : (syncInbounds link targets s).2 = .ok ()) :
    (s.ask link .listInbounds).2 = .ok () ∧ syncInbounds link targets s =
      ((s.ask link .listInbounds).1.askAll link
          ((staleTags (listInboundTags s.engine) targets).map .removeInbound)).insist link
        ((targets.filter fun entry => tagOf entry ∉ listInboundTags s.engine).map fun entry =>
          .addInbound (tagOf entry) entry) := by
  unfold syncInbounds at h ⊢
  cases hlist : (s.ask link .listInbounds).2 with
  | error e => simp [hlist] at h
  | ok _ => exact ⟨rfl, rfl⟩

theorem syncOutbounds_ok (h : (syncOutbounds link targets s).2 = .ok ()) :
    (s.ask link .listOutbounds).2 = .ok () ∧ syncOutbounds link targets s =
      ((s.ask link .listOutbounds).1.askAll link
          ((staleTags (listOutboundTags s.engine) targets).map .removeOutbound)).insist link
        (targets.map (outboundRequest (listOutboundTags s.engine))) := by
  unfold syncOutbounds at h ⊢
  cases hlist : (s.ask link .listOutbounds).2 with
  | error e => simp [hlist] at h
  | ok _ => exact ⟨rfl, rfl⟩

theorem config_syncInbounds {running : RunningInstance IpNet}
    (htags : ∀ entry ∈ targets, ∃ tag, entry.field "tag" = .string tag)
    (hslot : s.engine.slot = some running) (hok : (syncInbounds link targets s).2 = .ok ())
    (hobeyed : Obeyed (syncInbounds link targets s).1) :
    ∃ added, (targets.filter fun entry => tagOf entry ∉ running.inst.reload.inboundTags).map
        link.ctl.parseInbound = added.map ok ∧
      configOf (syncInbounds link targets s).1.engine = some { running.config with
        inbounds := (running.config.inbounds.filter fun i =>
          i.tag ∉ staleTags running.inst.reload.inboundTags targets) ++ added } := by
  obtain ⟨-, heq⟩ := syncInbounds_ok hok
  rw [heq] at hok hobeyed ⊢
  have hcurrent : listInboundTags s.engine = running.inst.reload.inboundTags := by
    rw [listInboundTags, hslot]
    rfl
  rw [hcurrent] at hok hobeyed ⊢
  have hlisted : configOf (s.ask link .listInbounds).1.engine = some running.config := by
    rw [engine_ask_list rfl, configOf, hslot]
    rfl
  have hremoved := config_removeInbounds hlisted (hobeyed.of_log (calls_insist _ _).log)
  exact config_addInbounds (fun entry hentry => htags entry (mem_filter.1 hentry).1) hremoved
    hok

omit [Text] [Automata] in
theorem tagsOf_eq (htags : ∀ entry ∈ entries, ∃ tag, entry.field "tag" = .string tag) :
    tagsOf entries = entries.map tagOf := by
  induction entries with
  | nil => rfl
  | cons entry entries ih =>
    rw [forall_mem_cons] at htags
    obtain ⟨tag, htag⟩ := htags.1
    have hrest := ih htags.2
    unfold tagsOf at hrest ⊢
    rw [filterMap_cons, map_cons, hrest, tagOf, htag]
    rfl

theorem config_syncOutbounds
    (htags : ∀ entry ∈ targets, ∃ tag, entry.field "tag" = .string tag)
    (hnodup : (targets.map tagOf).Nodup) (hne : targets ≠ []) (hlisted : OutboundsListed s.engine)
    (hconfig : configOf s.engine = some config)
    (hok : (syncOutbounds link targets s).2 = .ok ())
    (hobeyed : Obeyed (syncOutbounds link targets s).1) :
    ∃ outbounds, configOf (syncOutbounds link targets s).1.engine =
        some { config with outbounds } ∧
      ((outbounds.map ok).Perm (targets.map link.ctl.parseOutbound) ↔
        ((config.outbounds.filter fun o => o.tag ∈ tagsOf targets).map fun o => o.tag).Nodup) ∧
      Fresh link.ctl (syncOutbounds link targets s).1.engine := by
  obtain ⟨-, heq⟩ := syncOutbounds_ok hok
  rw [heq] at hok hobeyed ⊢
  obtain ⟨running, hslot, rfl⟩ := Option.map_eq_some_iff.1 hconfig
  have hcurrent : listOutboundTags s.engine = running.config.outbounds.map fun o => o.tag := by
    rw [listOutboundTags, hslot]
    exact hlisted running hslot
  rw [hcurrent] at hok hobeyed ⊢
  have hlist : configOf (s.ask link .listOutbounds).1.engine = some running.config := by
    rw [engine_ask_list rfl, hconfig]
  have hremoved := config_removeOutbounds hlist (hobeyed.of_log (calls_insist _ _).log)
  obtain ⟨outbounds, hfinal, hmap, hall, -, hfresh⟩ := config_outbounds htags hnodup hremoved hok
  refine ⟨outbounds, hfinal, ?_, hfresh (.inr hne)⟩
  -- what is not stale among the outbounds is what the panel has
  have hkept : (running.config.outbounds.filter fun o =>
      o.tag ∉ staleTags (running.config.outbounds.map fun o => o.tag) targets) =
      running.config.outbounds.filter fun o => o.tag ∈ tagsOf targets := by
    refine filter_congr fun o ho => ?_
    have hmem : o.tag ∈ running.config.outbounds.map fun o => o.tag := mem_map_of_mem ho
    simp [staleTags, hmem]
  rw [hkept] at hmap
  have hsub : outbounds.map (fun o => o.tag) ⊆ targets.map tagOf := by
    rw [hmap, ← tagsOf_eq htags]
    intro tag htag
    rcases mem_append.1 htag with htag | htag
    · obtain ⟨o, ho, rfl⟩ := mem_map.1 htag
      exact of_decide_eq_true (mem_filter.1 ho).2
    · rw [tagsOf_eq htags]
      exact (filter_sublist.map tagOf).subset htag
  rw [perm_outbounds_iff hnodup hall hsub, hmap, nodup_append]
  refine and_iff_left_iff_imp.2 fun _ => ⟨hnodup.sublist (filter_sublist.map tagOf), ?_⟩
  rintro tag htag _ hnew rfl
  obtain ⟨o, ho, rfl⟩ := mem_map.1 htag
  obtain ⟨entry, hentry, heq⟩ := mem_map.1 hnew
  have hnot := of_decide_eq_true (mem_filter.1 hentry).2
  rw [heq] at hnot
  exact hnot (mem_map_of_mem (mem_filter.1 ho).1)

/-! ### Success -/

/-- The engine runs an instance of exactly the inbounds and outbounds of the panel. -/
def Synced (ctl : Control) (value : Value) (s : State IpNet) : Prop :=
  ∃ running machine, s.slot = some running ∧ ctl.build machine running.config = .ok running.inst ∧
    (running.config.inbounds.map ok).Perm
      ((targetInbounds value).map ctl.parseInbound) ∧
    (running.config.outbounds.map ok).Perm
      ((value.items "outbounds").map ctl.parseOutbound)

/-- What the engine keeps of the inbounds is as in the panel, and tags are not used twice. -/
structure Settled (ctl : Control) (value : Value) (running : RunningInstance IpNet) : Prop where
  inbounds : ((running.config.inbounds.filter fun i =>
      i.tag ∉ staleTags running.inst.reload.inboundTags (targetInbounds value)).map
        ok).Perm
    (((targetInbounds value).filter fun entry =>
      tagOf entry ∈ running.inst.reload.inboundTags).map ctl.parseInbound)
  outbounds : ((running.config.outbounds.filter fun o =>
    o.tag ∈ tagsOf (value.items "outbounds")).map fun o => o.tag).Nodup

theorem synced_iff_config {ctl : Control} {s : State IpNet}
    (hconfig : configOf s = some config) (hfresh : Fresh ctl s) :
    Synced ctl value s ↔
      (config.inbounds.map ok).Perm ((targetInbounds value).map ctl.parseInbound) ∧
      (config.outbounds.map ok).Perm ((value.items "outbounds").map ctl.parseOutbound) := by
  obtain ⟨running, machine, hslot, hbuild⟩ := hfresh
  rw [configOf, hslot] at hconfig
  obtain rfl := Option.some.inj hconfig
  constructor
  · rintro ⟨running', machine', hslot', -, hinbounds, houtbounds⟩
    obtain rfl := Option.some.inj (hslot'.symm.trans hslot)
    exact ⟨hinbounds, houtbounds⟩
  · rintro ⟨hinbounds, houtbounds⟩
    exact ⟨running, machine, hslot, hbuild, hinbounds, houtbounds⟩

omit [Text] [Automata] in
/-- The inbounds that were kept and those that were added are the panel's exactly if those that were
kept are those that were not added. -/
theorem perm_inbounds_iff {parse : Value → Except String InboundConfig}
    {kept added : List InboundConfig}
    (hadded : (targets.filter fun entry => tagOf entry ∉ current).map parse =
      added.map ok) :
    ((kept ++ added).map ok).Perm (targets.map parse) ↔
      (kept.map ok).Perm
        ((targets.filter fun entry => tagOf entry ∈ current).map parse) := by
  have hsplit : ((targets.filter fun entry => tagOf entry ∈ current).map parse ++
      added.map ok).Perm (targets.map parse) := by
    rw [← hadded, ← map_append]
    refine List.Perm.map parse ?_
    simpa only [decide_not] using filter_append_perm
      (fun entry => decide (tagOf entry ∈ current)) targets
  rw [map_append]
  constructor
  · intro h
    exact (perm_append_right_iff _).1 (h.trans hsplit.symm)
  · intro h
    exact ((perm_append_right_iff _).2 h).trans hsplit

theorem syncValue_ok (h : (syncValue link value s).2 = .ok ()) :
    (syncInbounds link (targetInbounds value) s).2 = .ok () ∧
      syncValue link value s = syncOutbounds link (value.items "outbounds")
        (syncInbounds link (targetInbounds value) s).1 := by
  unfold syncValue at h ⊢
  cases hinbounds : (syncInbounds link (targetInbounds value) s).2 with
  | error e => simp [hinbounds] at h
  | ok _ => exact ⟨rfl, rfl⟩

theorem calls_syncInbounds (hok : (syncInbounds link targets s).2 = .ok ()) :
    Calls link s (syncInbounds link targets s).1 := by
  rw [(syncInbounds_ok hok).2]
  exact ((calls_ask _ _).trans (calls_askAll _ _)).trans (calls_insist _ _)

theorem calls_syncOutbounds (hok : (syncOutbounds link targets s).2 = .ok ()) :
    Calls link s (syncOutbounds link targets s).1 := by
  rw [(syncOutbounds_ok hok).2]
  exact ((calls_ask _ _).trans (calls_askAll _ _)).trans (calls_insist _ _)

theorem insisted_syncValue (h : (syncValue link value ⟨engine, []⟩).2 = .ok ()) :
    Insisted (syncValue link value ⟨engine, []⟩).1 := by
  obtain ⟨hinbounds, heq⟩ := syncValue_ok h
  rw [heq] at h ⊢
  obtain ⟨hlist, heq⟩ := syncInbounds_ok hinbounds
  obtain ⟨hlist', heq'⟩ := syncOutbounds_ok h
  have hempty : Insisted ⟨engine, []⟩ := fun _ hexchange => by cases hexchange
  have hremovals {tags : List String} (request : String → Request)
      (hrequest : ∀ tag, (request tag).IsRemoval) :
      ∀ r ∈ tags.map request, r.IsRemoval := by
    rintro _ hr
    obtain ⟨tag, -, rfl⟩ := mem_map.1 hr
    exact hrequest tag
  have hfirst : Insisted (syncInbounds link (targetInbounds value) ⟨engine, []⟩).1 := by
    rw [heq] at hinbounds ⊢
    exact ((hempty.ask (.inr hlist)).askAll (hremovals .removeInbound fun _ => trivial)).insist
      hinbounds
  rw [heq'] at h ⊢
  exact ((hfirst.ask (.inr hlist')).askAll (hremovals .removeOutbound fun _ => trivial)).insist h

theorem slot_none_mutateConfig {ctl : Control} (now later : Machine IpNet) (mutation : Mutation)
    (s : State IpNet) (h : s.slot = none) :
    (ctl.mutateConfig now later mutation s).1.slot = none := by
  rcases Control.mutateConfig_cases ctl now later mutation s with heq | ⟨running, -, hslot, -⟩
  · rw [heq, h]
  · cases h.symm.trans hslot

theorem synced_syncValue_iff
    (hinbounds : ∀ entry ∈ value.items "inbounds", ∃ tag, entry.field "tag" = .string tag)
    (houtbounds : ∃ tags : List String, tags.Nodup ∧ tags ≠ [] ∧
      (value.items "outbounds").map (fun entry => entry.field "tag") = tags.map .string)
    (hlisted : OutboundsListed engine) (hok : (syncValue link value ⟨engine, []⟩).2 = .ok ()) :
    (Synced link.ctl value (syncValue link value ⟨engine, []⟩).1.engine ∧
        ∀ exchange ∈ (syncValue link value ⟨engine, []⟩).1.log, exchange.answer = .ok ()) ↔
      Obeyed (syncValue link value ⟨engine, []⟩).1 ∧
        ∃ running, engine.slot = some running ∧ Settled link.ctl value running := by
  obtain ⟨tags, hnodup, hne, hmap⟩ := houtbounds
  have hinsisted := insisted_syncValue hok
  obtain ⟨hfirst, heq⟩ := syncValue_ok hok
  have hall : (∀ exchange ∈ (syncValue link value ⟨engine, []⟩).1.log, exchange.answer = .ok ()) ↔
      Obeyed (syncValue link value ⟨engine, []⟩).1 := by
    refine ⟨fun h exchange hexchange _ => h exchange hexchange, fun h exchange hexchange => ?_⟩
    by_cases hremoval : exchange.request.IsRemoval
    · exact h exchange hexchange hremoval
    · exact hinsisted exchange hexchange hremoval
  rw [hall, and_comm]
  refine and_congr_right fun hobeyed => ?_
  rw [heq] at hok hobeyed ⊢
  cases hslot : engine.slot with
  | none =>
    have hnone := (calls_syncOutbounds hok).invariant slot_none_mutateConfig
      ((calls_syncInbounds hfirst).invariant slot_none_mutateConfig hslot)
    constructor
    · rintro ⟨running, -, hrunning, -⟩
      cases hnone.symm.trans hrunning
    · rintro ⟨running, hrunning, -⟩
      cases hrunning
  | some running =>
    have htags : ∀ entry ∈ value.items "outbounds", ∃ tag, entry.field "tag" = .string tag := by
      intro entry hentry
      have hmem : entry.field "tag" ∈ tags.map string :=
        hmap ▸ mem_map_of_mem hentry
      obtain ⟨tag, -, htag⟩ := mem_map.1 hmem
      exact ⟨tag, htag.symm⟩
    have htagOf : (value.items "outbounds").map tagOf = tags :=
      calc (value.items "outbounds").map tagOf
          = ((value.items "outbounds").map fun entry => entry.field "tag").map
              fun tag => tag.asStr.getD "" := by rw [map_map]; rfl
        _ = tags := by rw [hmap, map_map]; exact map_id tags
    have hentries : value.items "outbounds" ≠ [] := by
      intro hnil
      rw [hnil] at htagOf
      exact hne htagOf.symm
    obtain ⟨added, hadded, hconfig⟩ := config_syncInbounds
      (fun entry hentry => hinbounds entry (mem_filter.1 hentry).1) hslot hfirst
      (hobeyed.of_log (calls_syncOutbounds hok).log)
    obtain ⟨outbounds, hfinal, hperm, hfresh⟩ := config_syncOutbounds htags (htagOf ▸ hnodup)
      hentries ((calls_syncInbounds hfirst).invariant outboundsListed_mutateConfig hlisted) hconfig
      hok hobeyed
    refine (synced_iff_config hfinal hfresh).trans
      ((and_congr (perm_inbounds_iff hadded) hperm).trans ?_)
    constructor
    · rintro ⟨hin, hout⟩
      exact ⟨running, rfl, hin, hout⟩
    · rintro ⟨running', hrunning', hin, hout⟩
      obtain rfl := Option.some.inj hrunning'
      exact ⟨hin, hout⟩

/-- **Synchronisation.**  For every state of the engine that its operations lead to, and every
content of the database: when `sync_config` reports success, the engine runs the inbounds and
outbounds of the panel's configuration and no call has failed exactly if every removal was answered
well, the inbounds that the engine keeps are those of the configuration already, and no two of the
outbounds that it keeps have one tag. -/
theorem synced_iff (codec : Codec) (link : Link IpNet) (machine : Machine IpNet) (config : Config)
    (inst : Instance IpNet) (hbuild : link.ctl.build machine config = .ok inst)
    (inputs : List (Control.Input IpNet)) (db : Database) (value : Value)
    (hvalue : buildValue codec db = .ok value)
    (hok : (syncConfig link codec db (inputs.foldl link.ctl.step (started config inst))).2 =
      .ok ()) :
    (Synced link.ctl value
          (syncConfig link codec db (inputs.foldl link.ctl.step (started config inst))).1.engine ∧
        ∀ exchange ∈
          (syncConfig link codec db (inputs.foldl link.ctl.step (started config inst))).1.log,
          exchange.answer = .ok ()) ↔
      Obeyed (syncConfig link codec db (inputs.foldl link.ctl.step (started config inst))).1 ∧
        ∃ running, (inputs.foldl link.ctl.step (started config inst)).slot = some running ∧
          Settled link.ctl value running := by
  have hlisted := outboundsListed_run hbuild inputs
  unfold syncConfig at hok ⊢
  simp only [hvalue] at hok ⊢
  cases hconnect : link.connect with
  | error e => simp [hconnect] at hok
  | ok _ =>
    simp only [hconnect] at hok ⊢
    exact synced_syncValue_iff (inbounds_of_buildValue codec hvalue)
      (outbounds_of_buildValue codec hvalue) hlisted (mapError_eq_ok.1 hok)

end Calls

/-! ### A small panel -/

def panelControl : Control :=
  { labControl with
    parseInbound := fun entry =>
      .ok { vlessWith [] with tag := tagOf entry, settings := entry.field "settings" }
    parseOutbound := fun entry => .ok { tag := tagOf entry, protocol := .freedom } }

def panelLink : Link Router.Cidr :=
  ⟨panelControl, .ok (), fun _ => { now := labMachine, later := labMachine }⟩

def panelBefore : Database :=
  { emptyPanel with
    outbounds := [{ id := 1, tag := "direct", protocol := "freedom" },
      { id := 2, tag := "new", protocol := "freedom" }]
    users := [firstUser]
    outbounds_sorted := by decide
    outbounds_tags := by decide
    users_sorted := by decide
    users_emails := by decide }

def panelAfter : Database :=
  { emptyPanel with
    users := [{ firstUser with enabled := false, enforcementStatus := "expired" }, secondUser]
    users_sorted := by decide
    users_emails := by decide }

def engineConfig : Config where
  inbounds := [vlessWith [clientEntry "vless" firstUser]]
  outbounds := [{ tag := "direct", protocol := .freedom }]

def engineBefore : Config :=
  { engineConfig with
    outbounds := [{ tag := "direct", protocol := .freedom },
      { tag := "old", protocol := .freedom }] }

/-- An outbound of the engine is removed, another one is added. -/
theorem synced_outbounds :
    letI := plainAutomata
    ∃ inst value, panelControl.build labMachine engineBefore = .ok inst ∧
      buildValue labCodec panelBefore = .ok value ∧
      (syncConfig panelLink labCodec panelBefore (started engineBefore inst)).2 = .ok () ∧
      Synced panelControl value
        (syncConfig panelLink labCodec panelBefore (started engineBefore inst)).1.engine := by
  let _ := plainAutomata
  refine ⟨_, _, rfl, rfl, rfl, ((synced_iff labCodec panelLink labMachine engineBefore _ rfl []
    panelBefore _ rfl rfl).2 ⟨?_, _, rfl, .refl _, ?_⟩).1⟩
  · intro exchange hexchange _
    have hmem : exchange ∈ [⟨.listInbounds, .ok ()⟩, ⟨.listOutbounds, .ok ()⟩,
      ⟨.removeOutbound "old", .ok ()⟩, ⟨.alterOutbound "direct" _, .ok ()⟩,
      ⟨.addOutbound "new" _, .ok ()⟩] := hexchange
    simp only [mem_cons, not_mem_nil, or_false] at hmem
    rcases hmem with rfl | rfl | rfl | rfl | rfl <;> rfl
  · decide

/-- The user was disabled, success is reported, and the engine still accepts the user. -/
theorem clients_not_updated :
    letI := plainAutomata
    ∃ inst value, panelControl.build labMachine engineConfig = .ok inst ∧
      buildValue labCodec panelAfter = .ok value ∧ listed value firstUser = false ∧
      (syncConfig panelLink labCodec panelAfter (started engineConfig inst)).2 = .ok () ∧
      ((syncConfig panelLink labCodec panelAfter (started engineConfig inst)).1.engine.slot.bind
        fun running => (running.inst.reload.registries "in").bind
          (Vless.VlessUserRegistry.validate labUser.uuid)) = some labUser ∧
      ¬ Synced panelControl value
        (syncConfig panelLink labCodec panelAfter (started engineConfig inst)).1.engine := by
  refine ⟨_, _, rfl, rfl, by decide, rfl, by decide +kernel, ?_⟩
  rintro ⟨running, -, hslot, -, hinbounds, -⟩
  obtain rfl := Option.some.inj hslot
  have hsame : vlessWith [clientEntry "vless" firstUser] =
      vlessWith [clientEntry "vless" secondUser] :=
    ok.inj (head_eq_of_cons_eq (perm_singleton.1 hinbounds))
  exact absurd hsame (by decide)

end Blackwire.Panel
