import Blackwire.Core.Inbound

/-!
# The users of VLESS inbounds

What `populate_vless_registry` leaves in a registry, and which users a registry accepts.
-/

namespace Blackwire.Core

open Schema Json Vless List

/-! ### Registries as maps -/

@[simp] theorem validate_empty (uuid : Octets 16) :
    (⟨[]⟩ : VlessUserRegistry).validate uuid = none := rfl

theorem lookup_filter_ne {κ β : Type} [BEq κ] [LawfulBEq κ] [DecidableEq κ] (key k : κ)
    (entries : List (κ × β)) :
    (entries.filter fun entry => entry.1 ≠ key).lookup k =
      if k = key then none else entries.lookup k := by
  induction entries with
  | nil => simp
  | cons entry entries ih =>
    obtain ⟨name, value⟩ := entry
    rw [filter_cons]
    by_cases hname : name = key
    · rw [if_neg (by simpa using hname), ih, hname]
      split_ifs with hk
      · rfl
      · rw [lookup_cons, beq_eq_false_iff_ne.2 hk]
    · rw [if_pos (by simpa using hname), lookup_cons, lookup_cons, ih]
      by_cases hk : k = name
      · simp [hk, hname]
      · simp [beq_eq_false_iff_ne.2 hk]

theorem validate_addUser (user : VlessUser) (registry : VlessUserRegistry) (uuid : Octets 16) :
    (registry.addUser user).validate uuid =
      if normaliseUuid uuid = normaliseUuid user.uuid then some user
      else registry.validate uuid := by
  show ((normaliseUuid user.uuid, user) :: registry.users.filter
    fun entry => entry.1 ≠ normaliseUuid user.uuid).lookup (normaliseUuid uuid) = _
  rw [lookup_cons, lookup_filter_ne]
  by_cases h : normaliseUuid uuid = normaliseUuid user.uuid
  · simp [h]
  · simp [h, beq_eq_false_iff_ne.2 h, VlessUserRegistry.validate]

structure Keyed (registry : VlessUserRegistry) : Prop where
  nodup : (registry.users.map fun entry => entry.1).Nodup
  keys : ∀ entry ∈ registry.users, entry.1 = normaliseUuid entry.2.uuid

theorem lookup_filter {κ β : Type} [BEq κ] [LawfulBEq κ] [DecidableEq κ] {entries : List (κ × β)}
    (h : (entries.map fun entry => entry.1).Nodup) (p : β → Bool) (k : κ) :
    (entries.filter fun entry => p entry.2).lookup k = (entries.lookup k).filter p := by
  induction entries with
  | nil => rfl
  | cons entry entries ih =>
    obtain ⟨name, value⟩ := entry
    obtain ⟨hnotMem, hnodup⟩ := nodup_cons.1 h
    rw [filter_cons, lookup_cons]
    by_cases hk : k = name
    · subst hk
      have hnone : entries.lookup k = none := by
        rw [lookup_eq_none_iff]
        intro e he
        have hne : k ≠ e.1 := fun heq => hnotMem (mem_map.2 ⟨e, he, heq.symm⟩)
        simpa using hne
      by_cases hp : p value
      · simp [hp, Option.filter]
      · simp [hp, ih hnodup, hnone, Option.filter]
    · rw [beq_eq_false_iff_ne.2 hk]
      split_ifs with hp
      · rw [lookup_cons, beq_eq_false_iff_ne.2 hk]
        exact ih hnodup
      · exact ih hnodup

theorem keyed_empty : Keyed ⟨[]⟩ := ⟨nodup_nil, by simp⟩

namespace Keyed

variable {registry : VlessUserRegistry}

section

variable (h : Keyed registry)
include h

theorem addUser (user : VlessUser) : Keyed (registry.addUser user) := by
  constructor
  · show (((normaliseUuid user.uuid, user) :: registry.users.filter
      fun entry => entry.1 ≠ normaliseUuid user.uuid).map fun entry => entry.1).Nodup
    rw [map_cons, nodup_cons]
    refine ⟨?_, h.nodup.sublist (filter_sublist.map _)⟩
    simp
  · intro entry hentry
    rcases mem_cons.1 hentry with rfl | hmem
    · rfl
    · exact h.keys entry (mem_of_mem_filter hmem)

theorem removeUserByEmail (email : String) : Keyed (registry.removeUserByEmail email) :=
  ⟨h.nodup.sublist (filter_sublist.map _),
    fun entry hentry => h.keys entry (mem_of_mem_filter hentry)⟩

theorem normaliseUuid_of_validate {uuid : Octets 16} {user : VlessUser}
    (hvalidate : registry.validate uuid = some user) :
    normaliseUuid user.uuid = normaliseUuid uuid := by
  obtain ⟨entries, rest, hsplit, -⟩ := lookup_eq_some_iff.1 hvalidate
  exact (h.keys (normaliseUuid uuid, user) (by rw [hsplit]; simp)).symm

theorem validate_removeUserByEmail (email : String) (uuid : Octets 16) :
    (registry.removeUserByEmail email).validate uuid =
      (registry.validate uuid).filter fun user => user.email ≠ email :=
  lookup_filter h.nodup (fun user => user.email ≠ email) (normaliseUuid uuid)

end

end Keyed

/-! ### Sequences of changes -/

inductive RegistryOp
  | addUser (user : VlessUser)
  | removeUserByEmail (email : String)
  | clear

variable (registry : VlessUserRegistry) (ops : List RegistryOp)

def RegistryOp.apply : RegistryOp → VlessUserRegistry
  | .addUser user => registry.addUser user
  | .removeUserByEmail email => registry.removeUserByEmail email
  | .clear => ⟨[]⟩

/-- The operation leaves an entry of the user as it is. -/
def RegistryOp.Spares (user : VlessUser) : RegistryOp → Prop
  | .addUser later => normaliseUuid later.uuid ≠ normaliseUuid user.uuid
  | .removeUserByEmail email => user.email ≠ email
  | .clear => False

open RegistryOp

def registryAfter : VlessUserRegistry := ops.foldl apply ⟨[]⟩

theorem registryAfter_concat (op : RegistryOp) :
    registryAfter (ops ++ [op]) = op.apply (registryAfter ops) := foldl_concat ..

theorem keyed_registryAfter : Keyed (registryAfter ops) := by
  induction ops using List.reverseRecOn with
  | nil => exact keyed_empty
  | append_singleton ops op ih =>
    rw [registryAfter_concat]
    cases op with
    | addUser user => exact ih.addUser user
    | removeUserByEmail email => exact ih.removeUserByEmail email
    | clear => exact keyed_empty

theorem validate_apply {registry : VlessUserRegistry} (h : Keyed registry) (op : RegistryOp)
    (uuid : Octets 16) (user : VlessUser) :
    (op.apply registry).validate uuid = some user ↔
      op = .addUser user ∧ normaliseUuid user.uuid = normaliseUuid uuid ∨
      registry.validate uuid = some user ∧ op.Spares user := by
  have hkey : registry.validate uuid = some user → _ := h.normaliseUuid_of_validate
  cases op with
  | addUser later =>
    simp only [apply, validate_addUser, Spares, addUser.injEq]
    grind
  | removeUserByEmail email =>
    simp [apply, h.validate_removeUserByEmail, Spares,
      Option.filter_eq_some_iff]
  | clear => simp [apply, Spares]

/-- **Changes of a registry.**  A UUID is accepted as a user exactly if the user was added under it
and neither another user under the same UUID, nor a removal by the user's email, nor a clearing has
come since; and after a removal nobody with that email is accepted. -/
theorem validate_registryAfter (uuid : Octets 16) (user : VlessUser) :
    ((registryAfter ops).validate uuid = some user ↔
      ∃ before after, ops = before ++ .addUser user :: after ∧
        normaliseUuid user.uuid = normaliseUuid uuid ∧ ∀ op ∈ after, op.Spares user) ∧
    (registryAfter (ops ++ [.removeUserByEmail user.email])).validate uuid ≠ some user := by
  constructor
  · induction ops using List.reverseRecOn with
    | nil => simp [registryAfter]
    | append_singleton ops op ih =>
      rw [registryAfter_concat, validate_apply (keyed_registryAfter ops), ih]
      constructor
      · rintro (⟨rfl, hkey⟩ | ⟨⟨before, after, rfl, hkey, hspares⟩, hop⟩)
        · exact ⟨ops, [], rfl, hkey, by simp⟩
        · refine ⟨before, after ++ [op], by simp, hkey, ?_⟩
          simpa [or_imp, forall_and, hop] using hspares
      · rintro ⟨before, after, hops, hkey, hspares⟩
        rcases eq_nil_or_concat' after with rfl | ⟨after, last, rfl⟩
        · exact .inl ⟨(cons.inj (append_inj' hops rfl).2).1, hkey⟩
        · rw [← cons_append, ← append_assoc] at hops
          obtain ⟨rfl, hlast⟩ := append_inj' hops rfl
          obtain rfl := (cons.inj hlast).1
          refine .inr ⟨⟨before, after, rfl, hkey, fun op hop => ?_⟩, hspares op (by simp)⟩
          exact hspares op (mem_append_left _ hop)
  · rw [registryAfter_concat, Ne, validate_apply (keyed_registryAfter ops)]
    simp [Spares]

def listed (email : String) : VlessUser := ⟨email, ⟨replicate 16 0, rfl⟩, ""⟩

/-- The first user, replaced by a second one under the same UUID, is not accepted again when the
second one is removed. -/
theorem replaced_not_restored :
    (registryAfter [.addUser (listed "a"), .addUser (listed "b"),
      .removeUserByEmail "b"]).validate (listed "a").uuid = none := by
  decide +kernel

/-! ### Lists of clients -/

section Clients

variable (env : Env)

def usersOf (clients : List Value) : List VlessUser :=
  clients.filterMap fun client => (parseClient env client).toOption

def listedUsers (cfg : InboundConfig) : List VlessUser :=
  usersOf env ((cfg.settings.field "clients").asArray.getD [])

def AcceptsExactly (users : List VlessUser) : Prop :=
  ∀ uuid, ((registry.validate uuid).isSome ↔
      ∃ user ∈ users, normaliseUuid user.uuid = normaliseUuid uuid) ∧
    ∀ user, registry.validate uuid = some user → user ∈ users

variable {env} {registry : VlessUserRegistry}

theorem usersOf_cons {client : Value} {user : VlessUser} (h : parseClient env client = .ok user)
    (clients : List Value) : usersOf env (client :: clients) = user :: usersOf env clients := by
  rw [usersOf, filterMap_cons, h]
  rfl

theorem addClients_ok {clients : List Value} (h : (addClients env clients registry).2 = .ok ())
    {users : List VlessUser} (haccepts : AcceptsExactly registry users) :
    AcceptsExactly (addClients env clients registry).1 (users ++ usersOf env clients) := by
  induction clients generalizing registry users with
  | nil => simpa [addClients, usersOf] using haccepts
  | cons client clients ih =>
    cases hclient : parseClient env client with
    | error e =>
      simp only [addClients, hclient] at h
      cases h
    | ok user =>
      simp only [addClients, hclient] at h ⊢
      have hadded : AcceptsExactly (registry.addUser user) (users ++ [user]) := by
        intro uuid
        obtain ⟨hsome, hmem⟩ := haccepts uuid
        rw [validate_addUser]
        split_ifs with hkey
        · simp [hkey.symm]
        · have hne : ¬ normaliseUuid user.uuid = normaliseUuid uuid := fun h => hkey h.symm
          refine ⟨?_, fun found hfound => mem_append_left _ (hmem found hfound)⟩
          rw [hsome]
          simp [or_and_right, exists_or, hne]
      rw [usersOf_cons hclient, append_cons]
      exact ih h hadded

/-- **Registries and lists.**  A list of clients that is accepted becomes a registry that accepts
its users and no others. -/
theorem acceptsExactly_populate {cfg : InboundConfig}
    (h : (populateVlessRegistry env cfg).2 = .ok ()) :
    AcceptsExactly (populateVlessRegistry env cfg).1 (listedUsers env cfg) := by
  unfold populateVlessRegistry at h ⊢
  unfold listedUsers
  cases hclients : (cfg.settings.field "clients").asArray with
  | none =>
    rw [hclients] at h
    cases h
  | some clients =>
    simp only [hclients, Option.elim_some, Option.getD_some] at h ⊢
    split_ifs at h ⊢ with hempty
    · cases h
    · have haccepts : AcceptsExactly ⟨[]⟩ [] := fun uuid => by simp
      exact addClients_ok h haccepts

theorem keyed_addClients (clients : List Value) (h : Keyed registry) :
    Keyed (addClients env clients registry).1 := by
  induction clients generalizing registry with
  | nil => exact h
  | cons client clients ih =>
    rw [addClients]
    cases parseClient env client with
    | error e => exact h
    | ok user => exact ih (h.addUser user)

theorem keyed_populate (cfg : InboundConfig) : Keyed (populateVlessRegistry env cfg).1 := by
  unfold populateVlessRegistry
  cases (cfg.settings.field "clients").asArray with
  | none => exact keyed_empty
  | some clients =>
    rw [Option.elim_some]
    split_ifs
    · exact keyed_empty
    · exact keyed_addClients clients keyed_empty

end Clients

end Blackwire.Core
