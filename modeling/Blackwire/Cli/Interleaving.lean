import Blackwire.Cli.RuntimeControl
import Blackwire.Lib.Run

/-!
# Management operations at the same time

`RuntimeControl` and the reload task share one slot behind a lock, and release the lock between
reading the configuration, taking the instance and storing the next one.  Each time that the lock is
held is one step here, and the steps of all tasks come in any order; every instance can be built.
-/

namespace Blackwire.Cli

open Schema Routing Router Core List Function

/-! ### Tasks -/

inductive Refusal
  | noRunningInstance
  | other (text : String)

def Refusal.text : Refusal → String
  | .noRunningInstance => "no running instance is available"
  | .other text => text

inductive Call
  | idle
  | edited (mutation : Mutation) (config base : Config)
  | building (mutation : Mutation) (config base : Config)
  | answered (answer : Except Refusal Unit)

inductive ReloadTask
  | waiting
  | restarting (file base : Config)
  | building (file base : Config)
  | applying (file : Config)
  | stopped

/-- The tasks of a program: the configuration in the slot, the operations, the reload task, the
operations that returned `Ok`, and the files that were handled. -/
structure Tasks where
  slot : Option Config
  calls : ℕ → Call
  reload : ReloadTask
  acknowledged : List Mutation
  handled : List Config

def Tasks.init (config : Config) : Tasks := ⟨some config, fun _ => .idle, .waiting, [], []⟩

inductive Event
  | call (task : ℕ) (mutation : Mutation)
  | take (task : ℕ)
  | store (task : ℕ)
  | notify (file : Config)
  | reloadTake
  | reloadStore
  | reloadApply

namespace Tasks

def setCall (s : Tasks) (task : ℕ) (call : Call) : Tasks :=
  { s with calls := update s.calls task call }

variable (ctl : Control)

/-- `mutate_config` up to its first release of the lock, and the checks of `rebuild_with_config`. -/
def beginCall (s : Tasks) (task : ℕ) (mutation : Mutation) : Tasks :=
  match ctl.closure mutation, s.slot with
  | .error e, _ => s.setCall task (.answered (.error (.other e)))
  | .ok _, none => s.setCall task (.answered (.error .noRunningInstance))
  | .ok _, some config =>
    match ctl.edit mutation config with
    | .error e => s.setCall task (.answered (.error (.other e)))
    | .ok edited => s.setCall task (.edited mutation edited config)

def beginReload (s : Tasks) (file : Config) : Tasks :=
  match s.slot with
  | none => { s with reload := .stopped }
  | some config =>
    if requiresInstanceRestart config (ctl.runtimeConfig file) then
      { s with reload := .restarting file config }
    else { s with reload := .applying file }

def step (s : Tasks) : Event → Tasks
  | .call task mutation =>
    match s.calls task with
    | .idle => s.beginCall ctl task mutation
    | _ => s
  | .take task =>
    match s.calls task with
    | .edited mutation config base =>
      if s.slot.isSome then
        { s.setCall task (.building mutation config base) with slot := none }
      else s.setCall task (.answered (.error .noRunningInstance))
    | _ => s
  | .store task =>
    match s.calls task with
    | .building mutation config _ =>
      { s.setCall task (.answered (.ok ())) with
        slot := some config
        acknowledged := s.acknowledged ++ [mutation] }
    | _ => s
  | .notify file =>
    match s.reload with
    | .waiting => s.beginReload ctl file
    | _ => s
  | .reloadTake =>
    match s.reload with
    | .restarting file base =>
      if s.slot.isSome then { s with slot := none, reload := .building file base }
      else { s with reload := .stopped }
    | _ => s
  | .reloadStore =>
    match s.reload with
    | .building file _ =>
      { s with
        slot := some (ctl.runtimeConfig file)
        reload := .waiting
        handled := s.handled ++ [file] }
    | _ => s
  | .reloadApply =>
    match s.reload with
    | .applying file =>
      if s.slot.isSome then { s with reload := .waiting, handled := s.handled ++ [file] }
      else { s with reload := .stopped }
    | _ => s

end Tasks

open Tasks

/-! ### One operation without others -/

section Alone

variable {IpNet : Type} [IpNetApi IpNet] [Text] [Automata]

/-- **An operation alone.**  Without others in between, its three steps leave the configuration that
`mutate_config` leaves, and give its answer, if what is to be built can be built. -/
theorem foldl_alone (ctl : Control) (now later : Machine IpNet) (mutation : Mutation)
    (s : State IpNet) (t : Tasks) (task : ℕ)
    (hbuild : ∀ running ∈ s.slot, ∀ config, ctl.edit mutation running.config = .ok config →
      ∃ inst, ctl.build now config = .ok inst)
    (hslot : t.slot = s.slot.map fun running => running.config) (hidle : t.calls task = .idle) :
    let t' := [.call task mutation, .take task, .store task].foldl (step ctl) t
    t'.slot = (ctl.mutateConfig now later mutation s).1.slot.map (fun running => running.config) ∧
      ∃ answer, t'.calls task = .answered answer ∧
        answer.mapError Refusal.text = (ctl.mutateConfig now later mutation s).2 := by
  -- once an operation is answered, its other steps do nothing
  have hanswered (answer : Except Refusal Unit) :
      ((t.setCall task (.answered answer)).step ctl (.take task)).step ctl (.store task) =
        t.setCall task (.answered answer) := by
    simp [step, setCall]
  simp only [foldl_cons, foldl_nil]
  unfold Control.mutateConfig
  have hcall : t.step ctl (.call task mutation) = t.beginCall ctl task mutation := by
    simp [step, hidle]
  rw [hcall, beginCall]
  cases hclosure : ctl.closure mutation with
  | error e =>
    rw [hanswered]
    exact ⟨hslot, _, update_self .., rfl⟩
  | ok f =>
    cases hrunning : s.slot with
    | none =>
      rw [hrunning] at hslot
      simp only [hslot, Option.map_none]
      rw [hanswered]
      exact ⟨by simp [setCall, hrunning, hslot], _, update_self .., rfl⟩
    | some running =>
      rw [hrunning] at hslot
      simp only [hslot, Option.map_some]
      cases hedit : ctl.edit mutation running.config with
      | error e =>
        rw [hanswered]
        exact ⟨by simp [setCall, hrunning, hslot], _, update_self .., rfl⟩
      | ok config =>
        obtain ⟨inst, hinst⟩ := hbuild running hrunning config hedit
        simp only [Control.rebuild, hinst]
        simp [step, setCall, hslot, Except.mapError]

end Alone

/-! ### One after the other -/

inductive Entry
  | change (mutation : Mutation)
  | reload (file : Config)

def Entry.mutation? : Entry → Option Mutation
  | .change mutation => some mutation
  | .reload _ => none

open Entry

def Entry.file? : Entry → Option Config
  | .change _ => none
  | .reload file => some file

section Sequential

variable (ctl : Control)

def Entry.run (config : Config) : Entry → Except String Config
  | .change mutation => ctl.edit mutation config
  | .reload file => .ok (if requiresInstanceRestart config (ctl.runtimeConfig file) then
      ctl.runtimeConfig file else config)

def sequential (config : Config) (order : List Entry) : Except String Config :=
  order.foldlM (run ctl) config

theorem sequential_concat {start config : Config} {order : List Entry}
    (h : sequential ctl start order = .ok config) (entry : Entry) :
    sequential ctl start (order ++ [entry]) = entry.run ctl config := by
  unfold sequential at h ⊢
  rw [foldlM_append, h]
  show (List.foldlM (run ctl) config [entry]) = _
  rw [foldlM_cons]
  cases entry.run ctl config <;> rfl

/-- The outcome is that of the operations that returned `Ok` and the files that were handled, in
some order, one after the other. -/
def Serialized (start : Config) (s : Tasks) : Prop :=
  ∃ order config, order.filterMap mutation? = s.acknowledged ∧
    order.filterMap file? = s.handled ∧ s.slot = some config ∧
    sequential ctl start order = .ok config

/-- No operation and no reload is in progress. -/
structure AtRest (s : Tasks) : Prop where
  calls : ∀ task, s.calls task = .idle ∨ ∃ answer, s.calls task = .answered answer
  reload : s.reload = .waiting ∨ s.reload = .stopped

/-- The slot is filled when it is looked at, and what is taken is what was read. -/
def Undisturbed (s : Tasks) : Event → Prop
  | .call _ _ | .notify _ | .reloadApply => s.slot.isSome
  | .take task => ∀ mutation config base, s.calls task = .edited mutation config base →
      s.slot = some base
  | .reloadTake => ∀ file base, s.reload = .restarting file base → s.slot = some base
  | .store _ | .reloadStore => True

end Sequential

/-! ### What the steps keep -/

def Tasks.Builds (s : Tasks) (base : Config) : Option ℕ → Prop
  | some task => ∃ mutation config, s.calls task = .building mutation config base
  | none => ∃ file, s.reload = .building file base

def pending : ReloadTask → List Config
  | .applying file => [file]
  | _ => []

structure Consistent (ctl : Control) (start : Config) (s : Tasks) (order : List Entry) : Prop where
  mutations : order.filterMap mutation? = s.acknowledged
  files : order.filterMap file? = s.handled ++ pending s.reload
  edited : ∀ task mutation config base,
    s.calls task = .edited mutation config base ∨ s.calls task = .building mutation config base →
      ctl.edit mutation base = .ok config
  compared : ∀ file base, s.reload = .restarting file base ∨ s.reload = .building file base →
    requiresInstanceRestart base (ctl.runtimeConfig file) = true
  filled : ∀ config, s.slot = some config →
    sequential ctl start order = .ok config ∧ ∀ who base, ¬ s.Builds base who
  empty : s.slot = none → ∃ who base, s.Builds base who ∧ sequential ctl start order = .ok base ∧
    ∀ who' base', s.Builds base' who' → who' = who
  answers : ∀ task, s.calls task ≠ .answered (.error .noRunningInstance)
  runs : s.reload ≠ .stopped

theorem consistent_init (ctl : Control) (start : Config) :
    Consistent ctl start (.init start) [] := by
  refine ⟨rfl, rfl, by simp [init], by simp [init], ?_, by simp [init],
    by simp [init], by simp [init]⟩
  rintro config hconfig
  obtain rfl := Option.some.inj hconfig
  refine ⟨rfl, fun who base hbuilds => ?_⟩
  cases who <;> simp [Builds, init] at hbuilds

section Step

variable {ctl : Control} {start : Config} {s : Tasks} {order : List Entry} {base : Config}
  {task : ℕ}

theorem Consistent.of_builds (h : Consistent ctl start s order) {who : Option ℕ}
    (hbuilds : s.Builds base who) :
    sequential ctl start order = .ok base ∧ ∀ who' base', s.Builds base' who' → who' = who := by
  cases hslot : s.slot with
  | some config => exact absurd hbuilds ((h.filled config hslot).2 who base)
  | none =>
    obtain ⟨builder, taken, htaken, hsequential, hunique⟩ := h.empty hslot
    obtain rfl := hunique who base hbuilds
    have hbase : taken = base := by
      cases who with
      | some task =>
        obtain ⟨_, _, hcall⟩ := hbuilds
        obtain ⟨_, _, hcall'⟩ := htaken
        exact (Call.building.inj (hcall'.symm.trans hcall)).2.2
      | none =>
        obtain ⟨_, hreload⟩ := hbuilds
        obtain ⟨_, hreload'⟩ := htaken
        exact (ReloadTask.building.inj (hreload'.symm.trans hreload)).2
    exact ⟨hbase ▸ hsequential, hunique⟩

section

variable (h : Consistent ctl start s order)
include h

theorem Consistent.setCall {call : Call}
    (hbefore : ∀ mutation config base, s.calls task ≠ .building mutation config base)
    (hafter : ∀ mutation config base, call ≠ .building mutation config base)
    (hedited : ∀ mutation config base, call = .edited mutation config base →
      ctl.edit mutation base = .ok config)
    (hanswer : call ≠ .answered (.error .noRunningInstance)) :
    Consistent ctl start (s.setCall task call) order := by
  have hbuilds (who : Option ℕ) (base : Config) :
      (s.setCall task call).Builds base who ↔ s.Builds base who := by
    cases who with
    | none => exact Iff.rfl
    | some other =>
      by_cases htask : other = task
      · subst htask
        simp [Tasks.Builds, Tasks.setCall, hbefore, hafter]
      · simp [Tasks.Builds, Tasks.setCall, htask]
  refine ⟨h.mutations, h.files, ?_, h.compared, ?_, ?_, ?_, h.runs⟩
  · intro other mutation config base hcall
    by_cases htask : other = task
    · subst htask
      simp only [Tasks.setCall, update_self] at hcall
      rcases hcall with hcall | hcall
      · exact hedited mutation config base hcall
      · exact absurd hcall (hafter mutation config base)
    · simp only [Tasks.setCall, update_of_ne htask] at hcall
      exact h.edited other mutation config base hcall
  · simp only [hbuilds]
    exact h.filled
  · simp only [hbuilds]
    exact h.empty
  · intro other
    by_cases htask : other = task
    · subst htask
      simpa [Tasks.setCall] using hanswer
    · simpa [Tasks.setCall, htask] using h.answers other

theorem Consistent.beginCall (hidle : s.calls task = .idle)
    (hslot : s.slot.isSome) (mutation : Mutation) :
    Consistent ctl start (s.beginCall ctl task mutation) order := by
  have hbefore : ∀ mutation config base, s.calls task ≠ .building mutation config base := by
    simp [hidle]
  obtain ⟨config, hconfig⟩ := Option.isSome_iff_exists.1 hslot
  unfold Tasks.beginCall
  rw [hconfig]
  cases ctl.closure mutation with
  | error e => exact h.setCall hbefore (by simp) (by simp) (by simp)
  | ok f =>
    dsimp only
    cases hedit : ctl.edit mutation config with
    | error e => exact h.setCall hbefore (by simp) (by simp) (by simp)
    | ok edited =>
      refine h.setCall hbefore (by simp) ?_ (by simp)
      rintro _ _ _ heq
      obtain ⟨rfl, rfl, rfl⟩ := Call.edited.inj heq
      exact hedit

theorem Consistent.take {mutation : Mutation} {config : Config}
    (hcall : s.calls task = .edited mutation config base) (hslot : s.slot = some base) :
    Consistent ctl start { s.setCall task (.building mutation config base) with slot := none }
      order := by
  obtain ⟨hsequential, hnobody⟩ := h.filled base hslot
  have hcalls (other : ℕ) : (s.setCall task (.building mutation config base)).calls other =
      if other = task then .building mutation config base else s.calls other := by
    simp [Tasks.setCall, update_apply]
  refine ⟨h.mutations, h.files, ?_, h.compared, by simp, fun _ => ?_, ?_, h.runs⟩
  · intro other m c b hother
    simp only [hcalls] at hother
    split_ifs at hother with htask
    · rcases hother with heq | heq
      · cases heq
      · obtain ⟨rfl, rfl, rfl⟩ := Call.building.inj heq
        exact h.edited task _ _ _ (.inl hcall)
    · exact h.edited other m c b hother
  · refine ⟨some task, base, ⟨mutation, config, by simp [hcalls]⟩, hsequential, ?_⟩
    rintro (_ | other) base' hbuilds
    · exact absurd hbuilds (hnobody none base')
    · by_contra hne
      obtain ⟨m, c, hother⟩ := hbuilds
      simp only [hcalls] at hother
      rw [if_neg fun htask => hne (by rw [htask])] at hother
      exact hnobody (some other) base' ⟨m, c, hother⟩
  · intro other
    simp only [hcalls]
    split_ifs
    · simp
    · exact h.answers other

theorem Consistent.store {mutation : Mutation} {config : Config}
    (hcall : s.calls task = .building mutation config base) :
    Consistent ctl start { s.setCall task (.answered (.ok ())) with
      slot := some config
      acknowledged := s.acknowledged ++ [mutation] } (order ++ [.change mutation]) := by
  obtain ⟨hsequential, hunique⟩ := h.of_builds
    (show s.Builds base (some task) from ⟨mutation, config, hcall⟩)
  have hcalls (other : ℕ) : (s.setCall task (.answered (.ok ()))).calls other =
      if other = task then .answered (.ok ()) else s.calls other := by
    simp [Tasks.setCall, update_apply]
  refine ⟨?_, ?_, ?_, h.compared, ?_, by simp, ?_, h.runs⟩
  · simp [h.mutations, Entry.mutation?]
  · rw [filterMap_append]
    exact (append_nil _).trans h.files
  · intro other m c b hother
    simp only [hcalls] at hother
    split_ifs at hother with htask
    · simp at hother
    · exact h.edited other m c b hother
  · rintro stored hstored
    obtain rfl := Option.some.inj hstored
    refine ⟨?_, ?_⟩
    · rw [sequential_concat ctl hsequential]
      exact h.edited task mutation config base (.inr hcall)
    · rintro (_ | other) base' hbuilds
      · cases hunique none base' hbuilds
      · obtain ⟨m, c, hother⟩ := hbuilds
        simp only [hcalls] at hother
        split_ifs at hother with htask
        exact htask (Option.some.inj (hunique (some other) base' ⟨m, c, hother⟩))
  · intro other
    simp only [hcalls]
    split_ifs
    · simp
    · exact h.answers other

theorem Consistent.setReload {reload : ReloadTask} {handled : List Config}
    (hfiles : handled ++ pending reload = s.handled ++ pending s.reload)
    (hbefore : ∀ file base, s.reload ≠ .building file base)
    (hafter : ∀ file base, reload ≠ .building file base)
    (hcompared : ∀ file base, reload = .restarting file base →
      requiresInstanceRestart base (ctl.runtimeConfig file) = true)
    (hruns : reload ≠ .stopped) :
    Consistent ctl start { s with reload, handled } order := by
  have hbuilds (who : Option ℕ) (base : Config) :
      ({ s with reload, handled }).Builds base who ↔ s.Builds base who := by
    cases who with
    | none => simp [Builds, hbefore, hafter]
    | some other => exact Iff.rfl
  refine ⟨h.mutations, h.files.trans hfiles.symm, h.edited, ?_, ?_, ?_, h.answers, hruns⟩
  · rintro file base (heq | heq)
    · exact hcompared file base heq
    · exact absurd heq (hafter file base)
  · simp only [hbuilds]
    exact h.filled
  · simp only [hbuilds]
    exact h.empty

theorem Consistent.beginReload (hwaiting : s.reload = .waiting)
    (hslot : s.slot.isSome) (file : Config) :
    ∃ order', Consistent ctl start (s.beginReload ctl file) order' := by
  have hbefore : ∀ file base, s.reload ≠ .building file base := by simp [hwaiting]
  unfold Tasks.beginReload
  split
  · rename_i hnone
    rw [hnone] at hslot
    cases hslot
  rename_i config hconfig
  split_ifs with hrestart
  · refine ⟨order, h.setReload (by rw [hwaiting]; rfl) hbefore (by simp) ?_ (by simp)⟩
    rintro _ _ heq
    obtain ⟨rfl, rfl⟩ := ReloadTask.restarting.inj heq
    exact hrestart
  · -- the file takes its place in the order when it is compared
    obtain ⟨hsequential, hnobody⟩ := h.filled config hconfig
    refine ⟨order ++ [.reload file], ?_, ?_, h.edited, by simp, ?_, ?_, h.answers, by simp⟩
    · rw [filterMap_append]
      exact (append_nil _).trans h.mutations
    · rw [filterMap_append, h.files, hwaiting]
      simp [pending, Entry.file?]
    · intro found hfound
      obtain rfl := Option.some.inj (hconfig.symm.trans hfound)
      refine ⟨?_, ?_⟩
      · rw [sequential_concat ctl hsequential, Entry.run, if_neg hrestart]
      · rintro (_ | task) base hbuilds
        · obtain ⟨_, heq⟩ := hbuilds
          cases heq
        · exact hnobody (some task) base hbuilds
    · intro hnone
      cases hconfig.symm.trans hnone

theorem Consistent.reloadTake {file : Config}
    (hreload : s.reload = .restarting file base) (hslot : s.slot = some base) :
    Consistent ctl start { s with slot := none, reload := .building file base } order := by
  obtain ⟨hsequential, hnobody⟩ := h.filled base hslot
  refine ⟨h.mutations, ?_, h.edited, ?_, by simp, fun _ => ?_, h.answers, by simp⟩
  · rw [h.files, hreload]
    rfl
  · rintro _ _ (heq | heq)
    · cases heq
    · obtain ⟨rfl, rfl⟩ := ReloadTask.building.inj heq
      exact h.compared file base (.inl hreload)
  · refine ⟨none, base, ⟨file, rfl⟩, hsequential, ?_⟩
    rintro (_ | other) base' hbuilds
    · rfl
    · exact absurd hbuilds (hnobody (some other) base')

theorem Consistent.reloadStore {file : Config} (hreload : s.reload = .building file base) :
    Consistent ctl start { s with
      slot := some (ctl.runtimeConfig file)
      reload := .waiting
      handled := s.handled ++ [file] } (order ++ [.reload file]) := by
  obtain ⟨hsequential, hunique⟩ := h.of_builds
    (show s.Builds base none from ⟨file, hreload⟩)
  refine ⟨?_, ?_, h.edited, by simp, ?_, by simp, h.answers, by simp⟩
  · rw [filterMap_append]
    exact (append_nil _).trans h.mutations
  · rw [filterMap_append, h.files, hreload]
    simp [pending, file?]
  · intro stored hstored
    obtain rfl := Option.some.inj hstored
    refine ⟨?_, ?_⟩
    · rw [sequential_concat ctl hsequential, run,
        if_pos (h.compared file base (.inr hreload))]
    · rintro (_ | other) base' hbuilds
      · obtain ⟨_, heq⟩ := hbuilds
        cases heq
      · cases hunique (some other) base' hbuilds

/-- **One step.** -/
theorem consistent_step {event : Event} (hundisturbed : Undisturbed s event) :
    ∃ order', Consistent ctl start (s.step ctl event) order' := by
  cases event with
  | call task mutation =>
    cases hcall : s.calls task with
    | idle => exact ⟨order, by simpa [step, hcall] using h.beginCall hcall hundisturbed _⟩
    | _ => exact ⟨order, by simpa [step, hcall] using h⟩
  | take task =>
    cases hcall : s.calls task with
    | edited mutation config base =>
      have hslot := hundisturbed mutation config base hcall
      exact ⟨order, by simpa [step, hcall, hslot] using h.take hcall hslot⟩
    | _ => exact ⟨order, by simpa [step, hcall] using h⟩
  | store task =>
    cases hcall : s.calls task with
    | building mutation config base => exact ⟨_, by simpa [step, hcall] using h.store hcall⟩
    | _ => exact ⟨order, by simpa [step, hcall] using h⟩
  | notify file =>
    cases hreload : s.reload with
    | waiting =>
      obtain ⟨order', horder'⟩ := h.beginReload hreload hundisturbed file
      exact ⟨order', by simpa [step, hreload] using horder'⟩
    | _ => exact ⟨order, by simpa [step, hreload] using h⟩
  | reloadTake =>
    cases hreload : s.reload with
    | restarting file base =>
      have hslot := hundisturbed file base hreload
      exact ⟨order, by simpa [step, hreload, hslot] using h.reloadTake hreload hslot⟩
    | _ => exact ⟨order, by simpa [step, hreload] using h⟩
  | reloadStore =>
    cases hreload : s.reload with
    | building file base => exact ⟨_, by simpa [step, hreload] using h.reloadStore hreload⟩
    | _ => exact ⟨order, by simpa [step, hreload] using h⟩
  | reloadApply =>
    cases hreload : s.reload with
    | applying file =>
      have hslot : s.slot.isSome := hundisturbed
      have happlied : Consistent ctl start
          { s with reload := .waiting, handled := s.handled ++ [file] } order :=
        h.setReload (by simp [hreload, pending]) (by simp [hreload]) (by simp) (by simp) (by simp)
      exact ⟨order, by simpa [step, hreload, hslot] using happlied⟩
    | _ => exact ⟨order, by simpa [step, hreload] using h⟩

end

end Step

/-- **Operations at the same time.**  For every interleaving of operations and notifications in
which no step is disturbed: no operation fails for want of a running instance, the reload task is in
its loop, and when nothing is in progress the configuration that runs is that of the operations that
returned `Ok` and of the files that were handled, in some order, one after the other. -/
theorem serialized_of_undisturbed (ctl : Control) (start : Config) (events : List Event)
    (hmeets : Run.Meets Undisturbed (step ctl) (.init start) events) :
    (∀ task, (events.foldl (step ctl) (.init start)).calls task ≠
        .answered (.error .noRunningInstance)) ∧
      (events.foldl (step ctl) (.init start)).reload ≠ .stopped ∧
      (AtRest (events.foldl (step ctl) (.init start)) →
        Serialized ctl start (events.foldl (step ctl) (.init start))) := by
  obtain ⟨order, h⟩ := Run.invariant_of_meets (P := fun s => ∃ order, Consistent ctl start s order)
    (fun s event hs hok => hs.elim fun order h => consistent_step h hok)
    ⟨[], consistent_init ctl start⟩ hmeets
  refine ⟨h.answers, h.runs, fun hrest => ?_⟩
  have hwaiting := hrest.reload.resolve_right h.runs
  cases hslot : (events.foldl (step ctl) (.init start)).slot with
  | none =>
    -- nobody builds, so that the slot is filled
    obtain ⟨_ | task, base, hbuilds, -, -⟩ := h.empty hslot
    · obtain ⟨file, hfile⟩ := hbuilds
      rw [hwaiting] at hfile
      cases hfile
    · obtain ⟨mutation, config, hcall⟩ := hbuilds
      rcases hrest.calls task with hidle | ⟨answer, hanswer⟩
      · rw [hidle] at hcall
        cases hcall
      · rw [hanswer] at hcall
        cases hcall
  | some config =>
    refine ⟨order, config, h.mutations, ?_, hslot, (h.filled config hslot).1⟩
    rw [h.files, hwaiting]
    exact append_nil _

/-! ### Interleavings -/

def threeOutbounds : Config where
  inbounds := [socksOn "in" anyV4 1080]
  outbounds := [{ tag := "direct", protocol := .freedom }, { tag := "a", protocol := .freedom },
    { tag := "b", protocol := .freedom }]

def after (events : List Event) : Tasks :=
  events.foldl (step labControl) (.init threeOutbounds)

/-- Removing an outbound of a running instance. -/
theorem foldl_alone_removal :
    letI := plainAutomata
    ∃ inst, labControl.build labMachine threeOutbounds = .ok inst ∧
      (after [.call 0 (.removeOutbound "a"), .take 0, .store 0]).slot =
        (labControl.mutateConfig labMachine labMachine (.removeOutbound "a")
          ⟨some ⟨threeOutbounds, inst⟩, false⟩).1.slot.map fun running => running.config := by
  let _ := plainAutomata
  refine ⟨_, rfl, (foldl_alone labControl labMachine labMachine (.removeOutbound "a")
    ⟨some ⟨threeOutbounds, _⟩, false⟩ (.init threeOutbounds) 0 ?_ rfl rfl).1⟩
  rintro _ ⟨⟩ _ ⟨⟩
  exact ⟨_, rfl⟩

/-- Two outbounds are removed; while the first removal is in progress, a third one is refused. -/
def twoRemovals : List Event :=
  [.call 0 (.removeOutbound "a"), .call 1 (.removeOutbound "c"), .take 0, .store 0,
    .call 2 (.removeOutbound "b"), .take 2, .store 2]

theorem serialized_two_removals :
    (after twoRemovals).slot.map (fun config => config.outbounds.map fun o => o.tag) =
        some ["direct"] ∧
      Serialized labControl threeOutbounds (after twoRemovals) := by
  refine ⟨rfl, (serialized_of_undisturbed labControl threeOutbounds twoRemovals
    ⟨rfl, rfl, ?_, trivial, rfl, ?_, trivial, trivial⟩).2.2 ⟨?_, .inl rfl⟩⟩
  · rintro mutation config base hcall
    obtain ⟨-, -, rfl⟩ := Call.edited.inj hcall
    rfl
  · rintro mutation config base hcall
    obtain ⟨-, -, rfl⟩ := Call.edited.inj hcall
    rfl
  · rintro (_ | _ | _ | task)
    · exact .inr ⟨_, rfl⟩
    · exact .inr ⟨_, rfl⟩
    · exact .inr ⟨_, rfl⟩
    · exact .inl rfl

theorem eq_map_change {order : List Entry} (h : order.filterMap file? = []) :
    order = (order.filterMap mutation?).map .change := by
  induction order with
  | nil => rfl
  | cons entry order ih =>
    cases entry with
    | change mutation => exact congrArg (change mutation :: ·) (ih h)
    | reload file => cases h

/-- Two outbounds are removed at the same time.  Both operations return `Ok`, and the first removal
is lost.  An operation that begins while another builds finds no instance, and a notification at
that time ends the reload task. -/
theorem interleaved_changes_lost :
    (after [.call 0 (.removeOutbound "a"), .call 1 (.removeOutbound "b"), .take 0, .store 0,
        .take 1, .store 1]).acknowledged = [.removeOutbound "a", .removeOutbound "b"] ∧
      (after [.call 0 (.removeOutbound "a"), .call 1 (.removeOutbound "b"), .take 0, .store 0,
        .take 1, .store 1]).slot.map (fun config => config.outbounds.map fun o => o.tag) =
          some ["direct", "a"] ∧
      ¬ Serialized labControl threeOutbounds (after [.call 0 (.removeOutbound "a"),
        .call 1 (.removeOutbound "b"), .take 0, .store 0, .take 1, .store 1]) ∧
      (after [.call 0 (.removeOutbound "a"), .take 0, .call 1 (.removeOutbound "b")]).calls 1 =
        .answered (.error .noRunningInstance) ∧
      (after [.call 0 (.removeOutbound "a"), .take 0, .notify threeOutbounds]).reload =
        .stopped := by
  refine ⟨rfl, rfl, ?_, rfl, rfl⟩
  rintro ⟨order, config, hmutations, hfiles, hslot, hsequential⟩
  rw [eq_map_change hfiles, hmutations] at hsequential
  have hdirect : config.outbounds.map (fun o => o.tag) = ["direct"] := by
    rw [← Except.ok.inj hsequential]
    rfl
  rw [← Option.some.inj hslot] at hdirect
  cases hdirect

end Blackwire.Cli
