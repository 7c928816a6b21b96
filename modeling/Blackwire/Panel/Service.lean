import Blackwire.Cli.RuntimeControl
import Blackwire.Panel.Database

/-!
# Management calls

The engine's management service (`blackwire-api/src/handler_service.rs`) in front of the
`RuntimeControl`, and the calls that the panel makes to it.  A call may get lost on the way, in
either direction.

* `outboundsListed_run`: the outbounds that an engine lists are those of its configuration, whatever
  was done with it.
-/

namespace Blackwire.Panel

open Json Routing Router Schema Core Cli List

/-! ### The management service -/

inductive Request
  | listInbounds
  | removeInbound (tag : String)
  | addInbound (tag : String) (config : Value)
  | listOutbounds
  | removeOutbound (tag : String)
  | addOutbound (tag : String) (config : Value)
  | alterOutbound (tag : String) (config : Value)

def Request.IsRemoval : Request → Prop
  | .removeInbound _ | .removeOutbound _ => True
  | _ => False

/-- The tag of a request and that of its JSON must agree; either may be left out. -/
def endpointJson (kind tag : String) (config : Value) : Except String NativeEndpointConfig :=
  if config.asObject = none then .error (kind ++ " config JSON must be an object")
  else ((config.get "tag").bind Value.asStr).elim
    (if tag = "" then .error (kind ++ " config JSON must include tag when request tag is empty")
      else .ok ⟨tag, config.insert "tag" (.string tag)⟩)
    fun existing =>
      if tag ≠ "" ∧ existing ≠ tag then
        .error (kind ++ " tag mismatch: request tag '" ++ tag ++ "' != JSON tag '" ++ existing ++
          "'")
      else .ok ⟨existing, config⟩

/-- The change that a request asks the `RuntimeControl` for; `none` where it only lists. -/
def Request.mutation : Request → Except String (Option Mutation)
  | .listInbounds | .listOutbounds => .ok none
  | .removeInbound tag =>
    if tag = "" then .error "RemoveInboundRequest.tag is required"
    else .ok (some (.removeInbound tag))
  | .addInbound tag config =>
    (endpointJson "inbound" tag config).map fun endpoint => some (.addInbound endpoint)
  | .removeOutbound tag =>
    if tag = "" then .error "RemoveOutboundRequest.tag is required"
    else .ok (some (.removeOutbound tag))
  | .addOutbound tag config =>
    (endpointJson "outbound" tag config).map fun endpoint => some (.addOutbound endpoint)
  | .alterOutbound tag config =>
    if tag = "" then .error "AlterOutboundRequest.tag is required"
    else (endpointJson "outbound" tag config).map fun endpoint => some (.alterOutbound endpoint)

/-- How a call goes: the machines on which the engine builds, whether the request reaches it, and
whether the answer comes back. -/
structure Attempt (IpNet : Type) [IpNetApi IpNet] where
  now : Machine IpNet
  later : Machine IpNet
  delivered : Bool := true
  answered : Bool := true

structure Link (IpNet : Type) [IpNetApi IpNet] where
  ctl : Control
  connect : Except String Unit
  attempts : ℕ → Attempt IpNet

structure Exchange where
  request : Request
  answer : Except String Unit

structure Session (IpNet : Type) [IpNetApi IpNet] where
  engine : State IpNet
  log : List Exchange

section Calls

variable {IpNet : Type} [IpNetApi IpNet]

def listInboundTags (s : State IpNet) : List String :=
  s.slot.elim [] fun running => running.inst.reload.inboundTags

def listOutboundTags (s : State IpNet) : List String :=
  s.slot.elim [] fun running => running.inst.reload.outboundTags

variable [Text] [Automata] (link : Link IpNet)

/-- A handler of the management service. -/
def handle (ctl : Control) (now later : Machine IpNet) (request : Request) (s : State IpNet) :
    State IpNet × Except String Unit :=
  match request.mutation with
  | .error e => (s, .error e)
  | .ok none => (s, .ok ())
  | .ok (some mutation) => ctl.mutateConfig now later mutation s

def Link.serve (attempt : Attempt IpNet) (request : Request) (s : State IpNet) :
    State IpNet × Except String Unit :=
  if attempt.delivered then
    let handled := handle link.ctl attempt.now attempt.later request s
    (handled.1, if attempt.answered then handled.2 else .error "transport error")
  else (s, .error "transport error")

/-- One call, with its answer in the log. -/
def Session.ask (s : Session IpNet) (request : Request) : Session IpNet × Except String Unit :=
  let served := link.serve (link.attempts s.log.length) request s.engine
  (⟨served.1, s.log ++ [⟨request, served.2⟩]⟩, served.2)

/-- Calls whose answers are ignored. -/
def Session.askAll (s : Session IpNet) (requests : List Request) : Session IpNet :=
  requests.foldl (fun s request => (s.ask link request).1) s

/-- Calls up to the first one that fails. -/
def Session.insist (s : Session IpNet) : List Request → Session IpNet × Except String Unit
  | [] => (s, .ok ())
  | request :: requests =>
    match (s.ask link request).2 with
    | .error e => ((s.ask link request).1, .error e)
    | .ok () => Session.insist (s.ask link request).1 requests

/-! ### What the calls do -/

variable {link} {s s' : Session IpNet} {request : Request} {requests : List Request}
  {config : Config} {tags : List String} {ctl : Control} {machine : Machine IpNet}

def configOf (s : State IpNet) : Option Config := s.slot.map fun running => running.config

def Fresh (ctl : Control) (s : State IpNet) : Prop :=
  ∃ running machine, s.slot = some running ∧ ctl.build machine running.config = .ok running.inst

theorem log_ask (s : Session IpNet) (request : Request) :
    (s.ask link request).1.log = s.log ++ [⟨request, (s.ask link request).2⟩] := rfl

theorem engine_ask_list (h : request.mutation = .ok none) :
    (s.ask link request).1.engine = s.engine := by
  unfold Session.ask Link.serve handle
  simp only [h]
  split_ifs <;> rfl

theorem ask_ok {mutation : Mutation} (hmutation : request.mutation = .ok (some mutation))
    (hconfig : configOf s.engine = some config) (h : (s.ask link request).2 = .ok ()) :
    ∃ edited, link.ctl.Edits config edited mutation ∧
      configOf (s.ask link request).1.engine = some edited ∧
      Fresh link.ctl (s.ask link request).1.engine := by
  unfold Session.ask Link.serve handle at h ⊢
  simp only [hmutation] at h ⊢
  split_ifs at h ⊢ with hdelivered hanswered
  obtain ⟨running, edited, inst, hslot, hedit, hbuild, hstate⟩ := Control.mutateConfig_ok h
  rw [configOf, hslot] at hconfig
  obtain rfl := Option.some.inj hconfig
  refine ⟨edited, Control.edits_of_edit hedit, ?_, ⟨edited, inst⟩, _, ?_, hbuild⟩
  · simp only [hstate]
    rfl
  · simp only [hstate]

theorem engine_ask (link : Link IpNet) (s : Session IpNet) (request : Request) :
    (s.ask link request).1.engine = s.engine ∨
      ∃ now later mutation, (s.ask link request).1.engine =
        (link.ctl.mutateConfig now later mutation s.engine).1 := by
  show (link.serve _ request s.engine).1 = _ ∨ ∃ now later mutation,
    (link.serve _ request s.engine).1 = _
  unfold Link.serve
  by_cases hdelivered : (link.attempts s.log.length).delivered
  · simp only [hdelivered, if_true]
    unfold handle
    cases request.mutation with
    | error e => exact .inl rfl
    | ok asked =>
      cases asked with
      | none => exact .inl rfl
      | some mutation => exact .inr ⟨_, _, mutation, rfl⟩
  · simp only [hdelivered]
    exact .inl rfl

/-- The panel makes some calls. -/
def Calls (link : Link IpNet) : Session IpNet → Session IpNet → Prop :=
  Relation.ReflTransGen fun s s' => ∃ request, s' = (s.ask link request).1

section

variable (s : Session IpNet)

theorem calls_ask (request : Request) :
    Calls link s (s.ask link request).1 := .single ⟨request, rfl⟩

theorem calls_askAll (requests : List Request) : Calls link s (s.askAll link requests) := by
  induction requests generalizing s with
  | nil => exact .refl
  | cons request requests ih => exact (calls_ask s request).trans (ih _)

theorem calls_insist (requests : List Request) : Calls link s (s.insist link requests).1 := by
  induction requests generalizing s with
  | nil => exact .refl
  | cons request requests ih =>
    unfold Session.insist
    split
    · exact calls_ask s request
    · exact (calls_ask s request).trans (ih _)

end

theorem Calls.invariant {P : State IpNet → Prop}
    (hP : ∀ now later mutation s, P s → P (link.ctl.mutateConfig now later mutation s).1)
    (h : Calls link s s') (hs : P s.engine) : P s'.engine := by
  induction h with
  | refl => exact hs
  | @tail s _ _ hcall ih =>
    obtain ⟨request, rfl⟩ := hcall
    rcases engine_ask link s request with heq | ⟨now, later, mutation, heq⟩
    · rw [heq]
      exact ih
    · rw [heq]
      exact hP now later mutation s.engine ih

theorem Calls.log (h : Calls link s s') : s.log <+: s'.log := by
  induction h with
  | refl => exact prefix_refl _
  | tail _ hcall ih =>
    obtain ⟨request, rfl⟩ := hcall
    exact ih.trans (prefix_append _ _)

theorem insist_cons_ok (h : (s.insist link (request :: requests)).2 = .ok ()) :
    (s.ask link request).2 = .ok () ∧
      s.insist link (request :: requests) = (s.ask link request).1.insist link requests := by
  unfold Session.insist at h
  split at h
  · cases h
  · rename_i hok
    refine ⟨hok, ?_⟩
    rw [Session.insist, hok]

/-- Every removal was answered well. -/
def Obeyed (s : Session IpNet) : Prop :=
  ∀ exchange ∈ s.log, exchange.request.IsRemoval → exchange.answer = .ok ()

omit [Text] [Automata] in
theorem Obeyed.of_log (h : Obeyed s') (hlog : s.log <+: s'.log) : Obeyed s :=
  fun exchange hexchange => h exchange (hlog.subset hexchange)

theorem Obeyed.head (hremoval : request.IsRemoval)
    (h : Obeyed (s.askAll link (request :: requests))) : (s.ask link request).2 = .ok () :=
  h ⟨request, (s.ask link request).2⟩
    ((calls_askAll (s.ask link request).1 requests).log.subset (by simp [log_ask])) hremoval

theorem mutation_of_ok (h : (s.ask link request).2 = .ok ()) :
    ∃ asked, request.mutation = .ok asked := by
  cases hmutation : request.mutation with
  | ok asked => exact ⟨asked, rfl⟩
  | error e =>
    unfold Session.ask Link.serve handle at h
    simp only [hmutation] at h
    split_ifs at h

theorem config_askAll {request : String → Request} {mutation : String → Mutation}
    {erase : String → Config → Config} (eraseAll : List String → Config → Config)
    (hnil : ∀ config, eraseAll [] config = config)
    (hcons : ∀ tag tags config, eraseAll (tag :: tags) config = eraseAll tags (erase tag config))
    (hremoval : ∀ tag, (request tag).IsRemoval) (hmutation : ∀ tag, ∃ e, (request tag).mutation =
      if tag = "" then .error e else .ok (some (mutation tag)))
    (hedits : ∀ tag config edited, link.ctl.Edits config edited (mutation tag) →
      edited = erase tag config)
    (hconfig : configOf s.engine = some config) (h : Obeyed (s.askAll link (tags.map request))) :
    configOf (s.askAll link (tags.map request)).engine = some (eraseAll tags config) := by
  induction tags generalizing s config with
  | nil =>
    rw [hnil]
    exact hconfig
  | cons tag tags ih =>
    have hok : (s.ask link (request tag)).2 = .ok () := h.head (hremoval tag)
    have hasked : (request tag).mutation = .ok (some (mutation tag)) := by
      obtain ⟨asked, hasked⟩ := mutation_of_ok hok
      obtain ⟨e, heq⟩ := hmutation tag
      rw [heq] at hasked ⊢
      split_ifs at hasked ⊢
      rfl
    obtain ⟨edited, hedit, hedited, -⟩ := ask_ok hasked hconfig hok
    rw [hcons, ← hedits tag config edited hedit]
    exact ih hedited h

omit [Text] [Automata] in
theorem filter_not_mem_cons {α : Type} (tag : α → String) (removed : String) (tags : List String)
    (entries : List α) :
    entries.filter (fun a => tag a ∉ removed :: tags) =
      (entries.filter fun a => tag a ≠ removed).filter fun a => tag a ∉ tags := by
  rw [filter_filter]
  refine filter_congr fun a _ => ?_
  simp only [mem_cons, not_or, Bool.decide_and, ne_eq]
  exact Bool.and_comm _ _

theorem config_removeInbounds (hconfig : configOf s.engine = some config)
    (h : Obeyed (s.askAll link (tags.map .removeInbound))) :
    configOf (s.askAll link (tags.map .removeInbound)).engine =
      some { config with inbounds := config.inbounds.filter fun i => i.tag ∉ tags } := by
  refine config_askAll (fun tags config =>
    { config with inbounds := config.inbounds.filter fun i => i.tag ∉ tags }) ?_ ?_
    (fun _ => trivial) (fun _ => ⟨_, rfl⟩) (fun _ _ _ hedits => hedits) hconfig h
  · simp
  · intro tag tags config
    rw [filter_not_mem_cons]

theorem config_removeOutbounds (hconfig : configOf s.engine = some config)
    (h : Obeyed (s.askAll link (tags.map .removeOutbound))) :
    configOf (s.askAll link (tags.map .removeOutbound)).engine =
      some { config with outbounds := config.outbounds.filter fun o => o.tag ∉ tags } := by
  refine config_askAll (fun tags config =>
    { config with outbounds := config.outbounds.filter fun o => o.tag ∉ tags }) ?_ ?_
    (fun _ => trivial) (fun _ => ⟨_, rfl⟩) (fun _ _ _ hedits => hedits) hconfig h
  · simp
  · intro tag tags config
    rw [filter_not_mem_cons]

/-! ### Reports of success -/

def Insisted (s : Session IpNet) : Prop :=
  ∀ exchange ∈ s.log, ¬ exchange.request.IsRemoval → exchange.answer = .ok ()

theorem Insisted.ask (h : Insisted s) (hok : request.IsRemoval ∨ (s.ask link request).2 = .ok ()) :
    Insisted (s.ask link request).1 := by
  intro exchange hexchange hnot
  rw [log_ask, mem_append, mem_singleton] at hexchange
  rcases hexchange with hold | rfl
  · exact h exchange hold hnot
  · exact hok.resolve_left hnot

theorem Insisted.askAll (h : Insisted s) (hremoval : ∀ request ∈ requests, request.IsRemoval) :
    Insisted (s.askAll link requests) := by
  induction requests generalizing s with
  | nil => exact h
  | cons request requests ih =>
    rw [forall_mem_cons] at hremoval
    exact ih (h.ask (.inl hremoval.1)) hremoval.2

theorem Insisted.insist (h : Insisted s) (hok : (s.insist link requests).2 = .ok ()) :
    Insisted (s.insist link requests).1 := by
  induction requests generalizing s with
  | nil => exact h
  | cons request requests ih =>
    obtain ⟨hfirst, hrest⟩ := insist_cons_ok hok
    rw [hrest] at hok ⊢
    exact ih (h.ask (.inr hfirst)) hok

/-! ### The tags that the engine lists -/

/-- The tags that the engine lists are those of its configuration. -/
def OutboundsListed (s : State IpNet) : Prop :=
  ∀ running, s.slot = some running →
    running.inst.reload.outboundTags = running.config.outbounds.map fun o => o.tag

theorem outboundTags_of_build {config : Config} {inst : Instance IpNet}
    (h : ctl.build machine config = .ok inst) :
    inst.reload.outboundTags = config.outbounds.map fun o => o.tag := by
  obtain ⟨rules, -, hreload⟩ := (fromConfig_ok h).rules
  rw [hreload]
  rfl

theorem outboundsListed_rebuild (ctl : Control) (now later : Machine IpNet) (config : Config)
    (running : RunningInstance IpNet) (reloading : Bool) :
    OutboundsListed ⟨(ctl.rebuild now later config running).1, reloading⟩ := by
  intro rebuilt hrebuilt
  rcases Control.rebuild_cases ctl now later config running with
    ⟨inst, hbuild, hslot⟩ | ⟨-, ⟨inst, hbuild, hslot⟩ | ⟨-, hslot⟩⟩
  on_goal 3 => cases hslot.symm.trans hrebuilt
  all_goals
    obtain rfl := Option.some.inj (hslot.symm.trans hrebuilt)
    exact outboundTags_of_build hbuild

theorem outboundsListed_mutateConfig (now later : Machine IpNet) (mutation : Mutation)
    (s : State IpNet) (h : OutboundsListed s) :
    OutboundsListed (ctl.mutateConfig now later mutation s).1 := by
  rcases Control.mutateConfig_cases ctl now later mutation s with
    heq | ⟨running, config, -, -, heq⟩
  · rw [heq]
    exact h
  · rw [heq]
    exact outboundsListed_rebuild ctl now later config running s.reloading

omit [Text] [Automata] in
theorem outboundsListed_withRegistry (tag : String)
    (f : Vless.VlessUserRegistry → Except String Vless.VlessUserRegistry) {s : State IpNet}
    (h : OutboundsListed s) : OutboundsListed (Control.withRegistry tag f s).1 := by
  unfold Control.withRegistry
  split
  · exact h
  · rename_i running hslot
    split
    · exact h
    · split
      · exact h
      · intro changed hchanged
        obtain rfl := Option.some.inj hchanged
        exact h running hslot

theorem outboundsListed_notified (now later : Machine IpNet) (file : Config) {s : State IpNet}
    (h : OutboundsListed s) : OutboundsListed (ctl.notified now later file s) := by
  intro running hrunning
  rcases Control.notified_cases ctl now later file s with
    hslot | ⟨before, hbefore, ⟨-, hslot⟩ | ⟨hrestart, hslot⟩⟩
  · exact h running (hslot.symm.trans hrunning)
  · exact outboundsListed_rebuild ctl now later _ before true running (hslot.symm.trans hrunning)
  · -- a reload lists the outbounds of the file, and they are those of the configuration
    obtain rfl := Option.some.inj (hslot.symm.trans hrunning)
    obtain ⟨houtbounds, -, -⟩ := requiresInstanceRestart_eq_false hrestart
    show (before.inst.reload.apply _ _ _ _).1.outboundTags = _
    unfold ReloadState.apply
    split
    · exact h before hbefore
    · rw [houtbounds]
      rfl

theorem outboundsListed_step {s : State IpNet} (h : OutboundsListed s)
    (input : Control.Input IpNet) : OutboundsListed (ctl.step s input) := by
  unfold Control.step Control.perform
  cases input.op with
  | addVlessUser tag | removeVlessUser tag => exact outboundsListed_withRegistry tag _ h
  | mutate mutation => exact outboundsListed_mutateConfig _ _ mutation s h
  | configFile file => exact outboundsListed_notified _ _ file h

theorem outboundsListed_run {config : Config} {inst : Instance IpNet}
    (h : ctl.build machine config = .ok inst) (inputs : List (Control.Input IpNet)) :
    OutboundsListed (inputs.foldl ctl.step (started config inst)) := by
  have hstarted : OutboundsListed (started config inst) := by
    intro running hrunning
    obtain rfl := Option.some.inj hrunning
    exact outboundTags_of_build h
  generalize started config inst = s at hstarted
  induction inputs generalizing s with
  | nil => exact hstarted
  | cons input inputs ih => exact ih _ (outboundsListed_step hstarted input)

end Calls

end Blackwire.Panel
