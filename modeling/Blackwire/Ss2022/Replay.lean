import Blackwire.Lib.Run
import Blackwire.Ss2022.Header

/-!
# Replayed handshakes

`SaltReplay` of `ss2022/replay.rs`, and the handshakes of `Ss2022Inbound::handle` that share one
filter.  A handshake passes three points: its salt is looked up and recorded, its fixed header is
opened and its timestamp compared with the clock, and its variable header is opened.
-/

namespace Blackwire.Ss2022

open Socks5Address List Vmess

/-! ### The filter -/

def ttlSecs : ℕ := 60

def nanosPerSec : ℕ := 1000000000

def ttl : ℕ := ttlSecs * nanosPerSec

def asSecs (nanos : ℕ) : ℕ := nanos / nanosPerSec

theorem asSecs_add_ttl (t : ℕ) : asSecs (t + ttl) = asSecs t + ttlSecs :=
  Nat.add_mul_div_right t ttlSecs (by decide)

abbrev SaltReplay := List (Octets 32 × ℕ)

namespace SaltReplay

def checkAndInsert (replay : SaltReplay) (now : ℕ) (salt : Octets 32) : Bool × SaltReplay :=
  match replay.lookup salt with
  | some _ => (false, replay)
  | none => (true, (salt, now) :: replay)

def reap (replay : SaltReplay) (now : ℕ) : SaltReplay :=
  replay.filter fun entry => now - entry.2 < ttl

end SaltReplay

/-! ### Handshakes -/

/-- How far a handshake has come.  `readAt` is the time when its salt was recorded. -/
inductive Phase
  | salted (salt : Octets 32) (readAt : ℕ)
  | headed (salt : Octets 32) (readAt : ℕ) (ts : UInt64) (variableLen : ℕ)
  | accepted (salt : Octets 32) (readAt : ℕ) (ts : UInt64) (dest : Address) (payload : Bytes)
  | closed

structure Server where
  now : ℕ
  replay : SaltReplay
  handshakes : List Phase

def Server.new (start : ℕ) : Server := ⟨start, [], []⟩

/-- What happens at the server.  The handshakes are numbered in the order of their salts. -/
inductive Event
  | advance (nanos : ℕ)
  | tick
  | salt (salt : Octets 32)
  | fixedHeader (i : ℕ) (fixedCt : Octets 27)
  | variableHeader (i : ℕ) (varCt : Bytes)

variable (crypto : Ss2022Crypto) (psk : Octets 32)

def onFixedHeader (now : ℕ) (fixedCt : Octets 27) : Phase → Phase
  | .salted salt readAt =>
    match openFixedHeader crypto (deriveSubkey crypto psk salt) (asSecs now) fixedCt with
    | .ok (ts, variableLen) => .headed salt readAt ts variableLen
    | .error _ => .closed
  | phase => phase

def onVariableHeader (varCt : Bytes) : Phase → Phase
  | .headed salt readAt ts variableLen =>
    if varCt.length = variableLen + 16 then
      match openVariableHeader crypto (deriveSubkey crypto psk salt) varCt with
      | .ok (dest, payload) => .accepted salt readAt ts dest payload
      | .error _ => .closed
    else .headed salt readAt ts variableLen
  | phase => phase

def Server.step (s : Server) : Event → Server
  | .advance nanos => { s with now := s.now + nanos }
  | .tick => { s with replay := s.replay.reap s.now }
  | .salt salt =>
    match s.replay.checkAndInsert s.now salt with
    | (true, replay) =>
      { s with replay := replay, handshakes := s.handshakes ++ [.salted salt s.now] }
    | (false, replay) => { s with replay := replay, handshakes := s.handshakes ++ [.closed] }
  | .fixedHeader i fixedCt =>
    { s with handshakes := s.handshakes.modify i (onFixedHeader crypto psk s.now fixedCt) }
  | .variableHeader i varCt =>
    { s with handshakes := s.handshakes.modify i (onVariableHeader crypto psk varCt) }

def Phase.acceptedPair : Phase → Option (Octets 32 × UInt64)
  | .accepted salt _ ts _ _ => some (salt, ts)
  | _ => none

def Server.acceptedPairs (s : Server) : List (Octets 32 × UInt64) :=
  s.handshakes.filterMap Phase.acceptedPair

/-- The condition on a step: a fixed header whose timestamp is within the window has a timestamp
less than `MAX_TIME_DIFF` seconds ahead of the second in which the salt was recorded. -/
def Timely (s : Server) : Event → Prop
  | .fixedHeader i fixedCt => ∀ salt readAt ts variableLen,
    s.handshakes[i]? = some (.salted salt readAt) →
    decodeFixedHeader crypto (deriveSubkey crypto psk salt) fixedCt = .ok (ts, variableLen) →
    Nat.dist ts.toNat (asSecs s.now) ≤ maxTimeDiff →
    ts.toNat < asSecs readAt + maxTimeDiff
  | _ => True

/-! ### What the filter guarantees -/

def Phase.passed : Phase → Option (Octets 32 × ℕ)
  | .salted salt readAt => some (salt, readAt)
  | .headed salt readAt _ _ => some (salt, readAt)
  | .accepted salt readAt _ _ _ => some (salt, readAt)
  | .closed => none

def Phase.stamp : Phase → Option UInt64
  | .headed _ _ ts _ => some ts
  | .accepted _ _ ts _ _ => some ts
  | _ => none

def Phase.Stamped (p : Phase) : Prop :=
  ∀ salt readAt ts, p.passed = some (salt, readAt) → p.stamp = some ts →
    asSecs readAt ≤ ts.toNat + maxTimeDiff ∧ ts.toNat < asSecs readAt + maxTimeDiff

structure Server.Inv (s : Server) : Prop where
  /-- Salts were recorded in the past; those that are no longer in the filter, long ago. -/
  kept : ∀ p ∈ s.handshakes, ∀ salt readAt, p.passed = some (salt, readAt) → readAt ≤ s.now ∧
    ((∃ at', (salt, at') ∈ s.replay ∧ readAt ≤ at') ∨ readAt + ttl ≤ s.now)
  /-- Two handshakes got past the filter with one salt only with the retention time between. -/
  apart : s.handshakes.Pairwise fun p q => ∀ salt t u,
    p.passed = some (salt, t) → q.passed = some (salt, u) → t + ttl ≤ u
  stamped : ∀ p ∈ s.handshakes, p.Stamped

variable {crypto psk} {s : Server}

theorem mem_modify_cases {α : Type} {f : α → α} {l : List α} {i : ℕ} {b : α}
    (h : b ∈ l.modify i f) : ∃ a ∈ l, b = a ∨ (l[i]? = some a ∧ b = f a) := by
  obtain ⟨k, hk⟩ := mem_iff_getElem?.1 h
  rw [List.getElem?_modify] at hk
  obtain ⟨a, ha, hb⟩ := Option.map_eq_some_iff.1 hk
  refine ⟨a, mem_of_getElem? ha, ?_⟩
  split_ifs at hb with hik
  · subst hik
    exact .inr ⟨ha, hb.symm⟩
  · exact .inl hb.symm

theorem pairwise_modify {α : Type} {R : α → α → Prop} {f : α → α}
    (hleft : ∀ a b, R a b → R (f a) b) (hright : ∀ a b, R a b → R a (f b)) {l : List α}
    (h : l.Pairwise R) (i : ℕ) : (l.modify i f).Pairwise R := by
  induction l generalizing i with
  | nil => simp
  | cons a l ih =>
    rw [pairwise_cons] at h
    cases i with
    | zero =>
      rw [modify_zero_cons, pairwise_cons]
      exact ⟨fun b hb => hleft a b (h.1 b hb), h.2⟩
    | succ i =>
      rw [modify_succ_cons, pairwise_cons]
      refine ⟨fun b hb => ?_, ih h.2 i⟩
      obtain ⟨c, hc, rfl | ⟨-, rfl⟩⟩ := mem_modify_cases hb
      · exact h.1 b hc
      · exact hright a c (h.1 c hc)

open Server

namespace Server

theorem inv_new (start : ℕ) : (new start).Inv :=
  ⟨fun _ h => (by cases h), .nil, fun _ h => (by cases h)⟩

section

variable (h : s.Inv)
include h

theorem Inv.modify {i : ℕ} {f : Phase → Phase}
    (hpassed : ∀ p x, (f p).passed = some x → p.passed = some x)
    (hstamped : ∀ p, s.handshakes[i]? = some p → p.Stamped → (f p).Stamped) :
    Inv { s with handshakes := s.handshakes.modify i f } where
  kept q hq salt readAt hsalt := by
    obtain ⟨p, hp, rfl | ⟨-, rfl⟩⟩ := mem_modify_cases hq
    · exact h.kept q hp salt readAt hsalt
    · exact h.kept p hp salt readAt (hpassed p _ hsalt)
  apart := by
    refine pairwise_modify ?_ ?_ h.apart i
    · intro p q hpq salt t u hp hq
      exact hpq salt t u (hpassed p _ hp) hq
    · intro p q hpq salt t u hp hq
      exact hpq salt t u hp (hpassed q _ hq)
  stamped q hq := by
    obtain ⟨p, hp, rfl | ⟨hi, rfl⟩⟩ := mem_modify_cases hq
    · exact h.stamped q hp
    · exact hstamped p hi (h.stamped p hp)

theorem Inv.refuse : Inv { s with handshakes := s.handshakes ++ [.closed] } where
  kept p hp salt readAt hsalt := by
    obtain hp | hp := mem_append.1 hp
    · exact h.kept p hp salt readAt hsalt
    · rw [mem_singleton.1 hp] at hsalt
      cases hsalt
  apart := by
    refine pairwise_append.2 ⟨h.apart, pairwise_singleton .., ?_⟩
    intro p _ q hq salt t u _ hu
    rw [mem_singleton.1 hq] at hu
    cases hu
  stamped p hp := by
    obtain hp | hp := mem_append.1 hp
    · exact h.stamped p hp
    · rw [mem_singleton.1 hp]
      intro salt readAt ts hsalt
      cases hsalt

theorem Inv.record {salt : Octets 32} (hnew : s.replay.lookup salt = none) :
    Inv { s with replay := (salt, s.now) :: s.replay,
                 handshakes := s.handshakes ++ [.salted salt s.now] } where
  kept p hp salt' readAt hsalt := by
    obtain hp | hp := mem_append.1 hp
    · obtain ⟨hle, ⟨at', hmem, hat'⟩ | hold⟩ := h.kept p hp salt' readAt hsalt
      · exact ⟨hle, .inl ⟨at', mem_cons_of_mem _ hmem, hat'⟩⟩
      · exact ⟨hle, .inr hold⟩
    · rw [mem_singleton.1 hp] at hsalt
      obtain ⟨rfl, rfl⟩ := Prod.mk.inj (Option.some.inj hsalt)
      exact ⟨le_rfl, .inl ⟨s.now, mem_cons_self, le_rfl⟩⟩
  apart := by
    refine pairwise_append.2 ⟨h.apart, pairwise_singleton .., ?_⟩
    intro p hp q hq salt' t u ht hu
    rw [mem_singleton.1 hq] at hu
    obtain ⟨rfl, rfl⟩ := Prod.mk.inj (Option.some.inj hu)
    obtain ⟨-, ⟨at', hmem, -⟩ | hold⟩ := h.kept p hp salt t ht
    · exact absurd (beq_self_eq_true salt) (by simpa using lookup_eq_none_iff.1 hnew _ hmem)
    · exact hold
  stamped p hp := by
    obtain hp | hp := mem_append.1 hp
    · exact h.stamped p hp
    · rw [mem_singleton.1 hp]
      intro salt readAt ts _ hts
      cases hts

theorem Inv.advance (nanos : ℕ) : Inv { s with now := s.now + nanos } where
  kept p hp salt readAt hsalt := by
    obtain ⟨hle, hkept | hold⟩ := h.kept p hp salt readAt hsalt
    · exact ⟨Nat.le_add_right_of_le hle, .inl hkept⟩
    · exact ⟨Nat.le_add_right_of_le hle, .inr (Nat.le_add_right_of_le hold)⟩
  apart := h.apart
  stamped := h.stamped

theorem Inv.reap : Inv { s with replay := s.replay.reap s.now } where
  kept p hp salt readAt hsalt := by
    obtain ⟨hle, ⟨at', hmem, hat'⟩ | hold⟩ := h.kept p hp salt readAt hsalt
    · refine ⟨hle, ?_⟩
      by_cases hfresh : s.now - at' < ttl
      · exact .inl ⟨at', mem_filter.2 ⟨hmem, by simpa using hfresh⟩, hat'⟩
      · refine .inr ?_
        show readAt + ttl ≤ s.now
        omega
    · exact ⟨hle, .inr hold⟩
  apart := h.apart
  stamped := h.stamped

end

theorem passed_onFixedHeader (now : ℕ) (fixedCt : Octets 27) (p : Phase) (x : Octets 32 × ℕ)
    (h : (onFixedHeader crypto psk now fixedCt p).passed = some x) : p.passed = some x := by
  unfold onFixedHeader at h
  split at h
  · split at h
    · exact h
    · cases h
  · exact h

theorem passed_onVariableHeader (varCt : Bytes) (p : Phase) (x : Octets 32 × ℕ)
    (h : (onVariableHeader crypto psk varCt p).passed = some x) : p.passed = some x := by
  unfold onVariableHeader at h
  split at h
  · split at h
    · split at h
      · exact h
      · cases h
    · exact h
  · exact h

theorem stamped_onVariableHeader (varCt : Bytes) {p : Phase} (h : p.Stamped) :
    (onVariableHeader crypto psk varCt p).Stamped := by
  unfold onVariableHeader
  split
  · split
    · split
      · exact fun salt readAt ts hsalt hts => h salt readAt ts hsalt hts
      · exact fun _ _ _ hsalt => by cases hsalt
    · exact h
  · exact h

theorem openFixedHeader_eq_ok {reqSubkey : Octets 32} {now : ℕ} {fixedCt : Octets 27}
    {ts : UInt64} {variableLen : ℕ}
    (h : openFixedHeader crypto reqSubkey now fixedCt = .ok (ts, variableLen)) :
    decodeFixedHeader crypto reqSubkey fixedCt = .ok (ts, variableLen) ∧
      Nat.dist ts.toNat now ≤ maxTimeDiff := by
  obtain ⟨⟨ts', variableLen'⟩, hdecode, h⟩ := bind_eq_ok.1 h
  obtain ⟨⟨⟩, hcheck, h⟩ := bind_eq_ok.1 h
  obtain ⟨rfl, rfl⟩ := Prod.mk.inj (Except.ok.inj h)
  exact ⟨hdecode, checkTimestamp_eq_ok.1 hcheck⟩

theorem stamped_onFixedHeader (h : s.Inv) {i : ℕ} {fixedCt : Octets 27}
    (htimely : Timely crypto psk s (.fixedHeader i fixedCt)) {p : Phase}
    (hi : s.handshakes[i]? = some p) : (onFixedHeader crypto psk s.now fixedCt p).Stamped := by
  unfold onFixedHeader
  split
  · rename_i salt readAt
    split
    · rename_i ts variableLen hopen
      obtain ⟨hdecode, hwindow⟩ := openFixedHeader_eq_ok hopen
      intro salt' readAt' ts' hsalt hts
      obtain ⟨rfl, rfl⟩ := Prod.mk.inj (Option.some.inj hsalt)
      obtain rfl := Option.some.inj hts
      refine ⟨?_, htimely salt readAt ts variableLen hi hdecode hwindow⟩
      -- the salt was recorded before the header arrived, in the window of the timestamp
      have hpast := (h.kept _ (mem_of_getElem? hi) salt readAt rfl).1
      have hsecs : asSecs readAt ≤ asSecs s.now := Nat.div_le_div_right hpast
      unfold Nat.dist at hwindow
      omega
    · exact fun _ _ _ hsalt => by cases hsalt
  · exact h.stamped p (mem_of_getElem? hi)

theorem inv_step (h : s.Inv) {event : Event} (htimely : Timely crypto psk s event) :
    (s.step crypto psk event).Inv := by
  cases event with
  | advance nanos => exact h.advance nanos
  | tick => exact h.reap
  | salt salt =>
    cases hlookup : s.replay.lookup salt with
    | some _ =>
      simp only [step, SaltReplay.checkAndInsert, hlookup]
      exact h.refuse
    | none =>
      simp only [step, SaltReplay.checkAndInsert, hlookup]
      exact h.record hlookup
  | fixedHeader i fixedCt =>
    exact h.modify (passed_onFixedHeader s.now fixedCt) fun p hi _ =>
      stamped_onFixedHeader h htimely hi
  | variableHeader i varCt =>
    exact h.modify (passed_onVariableHeader varCt) fun p _ hp => stamped_onVariableHeader varCt hp

theorem acceptedPair_eq_some {p : Phase} {salt : Octets 32} {ts : UInt64}
    (h : p.acceptedPair = some (salt, ts)) :
    p.stamp = some ts ∧ ∃ readAt, p.passed = some (salt, readAt) := by
  cases p with
  | accepted salt' readAt ts' dest payload =>
    obtain ⟨rfl, rfl⟩ := Prod.mk.inj (Option.some.inj h)
    exact ⟨rfl, readAt, rfl⟩
  | salted => cases h
  | headed => cases h
  | closed => cases h

theorem Inv.nodup (h : s.Inv) : s.acceptedPairs.Nodup := by
  have hdistinct : s.handshakes.Pairwise fun p q =>
      ∀ pair, p.acceptedPair = some pair → q.acceptedPair ≠ some pair := by
    refine h.apart.imp_of_mem ?_
    rintro p q hp hq hapart ⟨salt, ts⟩ hpair hpair'
    obtain ⟨hts, t, ht⟩ := acceptedPair_eq_some hpair
    obtain ⟨hts', u, hu⟩ := acceptedPair_eq_some hpair'
    have hlate : asSecs (t + ttl) ≤ asSecs u := Nat.div_le_div_right (hapart salt t u ht hu)
    rw [asSecs_add_ttl] at hlate
    obtain ⟨-, hahead⟩ := h.stamped p hp salt t ts ht hts
    obtain ⟨hbehind, -⟩ := h.stamped q hq salt u ts hu hts'
    unfold maxTimeDiff at hahead hbehind
    unfold ttlSecs at hlate
    omega
  refine hdistinct.filterMap _ ?_
  intro p q hpq b hb c hc hbc
  subst hbc
  exact hpq b hb hc

end Server

/-! ### Replays -/

/-- The request header opens to this time and destination. -/
def Carries (crypto : Ss2022Crypto) (subkey : Octets 32) (ts : UInt64) (dest : Address)
    (fixedCt : Octets 27) (varCt : Bytes) : Prop :=
  decodeFixedHeader crypto subkey fixedCt = .ok (ts, varCt.length - 16) ∧ 16 ≤ varCt.length ∧
    openVariableHeader crypto subkey varCt = .ok (dest, [])

theorem length_writeSocks5Address {dest : Address} {buf : Bytes}
    (h : writeSocks5Address dest = .ok buf) : buf.length ≤ 259 := by
  cases dest with
  | ipv4 ip port | ipv6 ip port =>
    obtain rfl := Except.ok.inj h
    simp [ip.property]
  | domain name port =>
    obtain ⟨len, hlen, h⟩ := bind_eq_ok.1 h
    obtain rfl := Except.ok.inj h
    have hname := (domainWireLen_eq_ok hlen).2
    simp
    omega

theorem exists_carries (hcrypto : crypto.Lawful) (subkey : Octets 32) (ts : UInt64) {dest : Address}
    {buf : Bytes} (hbuf : writeSocks5Address dest = .ok buf) :
    ∃ fixedCt varCt, Carries crypto subkey ts dest fixedCt varCt := by
  have hbound := length_writeSocks5Address hbuf
  have hlen : (buf ++ Bytes.toBe 2 0).length = buf.length + 2 := by simp
  have hshort : (buf ++ Bytes.toBe 2 0).length ≤ 65536 := by omega
  have hfixedShort : (requestFixedHeader ts (buf.length + 2)).length ≤ 65536 := by
    rw [length_requestFixedHeader]
    omega
  obtain ⟨varCt, -, hvarLen, hvar⟩ := sealWith_openWith hcrypto subkey 1 hshort ""
  obtain ⟨fixedCt, -, hfixedLen, hfixed⟩ := sealWith_openWith hcrypto subkey 0 hfixedShort ""
  rw [length_requestFixedHeader] at hfixedLen
  refine ⟨⟨fixedCt, hfixedLen⟩, varCt, ?_, by omega, ?_⟩
  · rw [hvarLen, hlen]
    exact decodeFixedHeader_seal (by omega) hfixed
  · have hpad : ([] : Bytes).length < 65536 := by decide
    exact bind_eq_ok.2 ⟨_, hvar _, parseVariableHeader_append hbuf hpad []⟩

/-- A handshake whose fixed header arrives `delay` after its salt, and the same bytes again, once
the reaper has removed the salt. -/
def replayEvents (salt : Octets 32) (delay : ℕ) (fixedCt : Octets 27) (varCt : Bytes) :
    List Event :=
  [.salt salt, .advance delay, .fixedHeader 0 fixedCt, .variableHeader 0 varCt,
    .advance (ttl - delay), .tick, .salt salt, .fixedHeader 1 fixedCt, .variableHeader 1 varCt]

section Replay

variable {salt : Octets 32} {ts : UInt64} {dest : Address} {fixedCt : Octets 27} {varCt : Bytes}
  (hcarries : Carries crypto (deriveSubkey crypto psk salt) ts dest fixedCt varCt)

include hcarries

theorem onFixedHeader_salted {now : ℕ} (hwindow : Nat.dist ts.toNat (asSecs now) ≤ maxTimeDiff)
    (readAt : ℕ) : onFixedHeader crypto psk now fixedCt (.salted salt readAt) =
      .headed salt readAt ts (varCt.length - 16) := by
  have hopen : openFixedHeader crypto (deriveSubkey crypto psk salt) (asSecs now) fixedCt =
      .ok (ts, varCt.length - 16) :=
    bind_eq_ok.2 ⟨_, hcarries.1, bind_eq_ok.2 ⟨(), checkTimestamp_eq_ok.2 hwindow, rfl⟩⟩
  simp only [onFixedHeader, hopen]

theorem onVariableHeader_headed (readAt : ℕ) :
    onVariableHeader crypto psk varCt (.headed salt readAt ts (varCt.length - 16)) =
      .accepted salt readAt ts dest [] := by
  have hlen : varCt.length = varCt.length - 16 + 16 := (Nat.sub_add_cancel hcarries.2.1).symm
  simp only [onVariableHeader, if_pos hlen, hcarries.2.2]

theorem acceptedPairs_replayEvents {start delay : ℕ}
    (hwindow : Nat.dist ts.toNat (asSecs (start + delay)) ≤ maxTimeDiff)
    (hahead : asSecs start + maxTimeDiff ≤ ts.toNat) :
    ((replayEvents salt delay fixedCt varCt).foldl (Server.step crypto psk)
      (Server.new start)).acceptedPairs = [(salt, ts), (salt, ts)] := by
  have hlater : Nat.dist ts.toNat (asSecs (start + delay + (ttl - delay))) ≤ maxTimeDiff := by
    have hmono : asSecs (start + delay) ≤ asSecs (start + delay + (ttl - delay)) :=
      Nat.div_le_div_right (Nat.le_add_right _ _)
    unfold Nat.dist at hwindow ⊢
    -- either the retention time is over by then, or the clock has not moved
    by_cases hdelay : delay ≤ ttl
    · rw [Nat.add_assoc, Nat.add_sub_cancel' hdelay, asSecs_add_ttl] at hmono ⊢
      unfold maxTimeDiff ttlSecs at *
      omega
    · rw [Nat.sub_eq_zero_of_le (Nat.le_of_not_le hdelay)]
      exact hwindow
  have hreaped : ¬ start + delay + (ttl - delay) - start < ttl := by omega
  simp only [replayEvents, foldl_cons, foldl_nil, Server.new, Server.step,
    SaltReplay.checkAndInsert, SaltReplay.reap, lookup_nil, nil_append,
    modify_zero_cons, onFixedHeader_salted hcarries hwindow, onVariableHeader_headed hcarries,
    filter_cons, filter_nil, hreaped, decide_false, Bool.false_eq_true, if_false,
    cons_append, modify_succ_cons, onFixedHeader_salted hcarries hlater,
    Server.acceptedPairs]
  rfl

end Replay

/-- **Replays.**  In a run whose fixed headers are all timely, no salt and timestamp are accepted
twice.  A handshake that is not timely and that the server accepts can be replayed: whatever the
delay between its salt and its fixed header, the same bytes are accepted again when the reaper has
removed the salt. -/
theorem ss2022_accepted_once (hcrypto : crypto.Lawful) (psk : Octets 32) (start : ℕ) :
    (∀ events, Run.Meets (Timely crypto psk) (Server.step crypto psk) (Server.new start) events →
      (events.foldl (Server.step crypto psk) (Server.new start)).acceptedPairs.Nodup) ∧
    ∀ (salt : Octets 32) (delay : ℕ) (ts : UInt64) (dest : Address) (buf : Bytes),
      writeSocks5Address dest = .ok buf →
      Nat.dist ts.toNat (asSecs (start + delay)) ≤ maxTimeDiff →
      ¬ ts.toNat < asSecs start + maxTimeDiff →
      ∃ fixedCt varCt, ((replayEvents salt delay fixedCt varCt).foldl (Server.step crypto psk)
        (Server.new start)).acceptedPairs = [(salt, ts), (salt, ts)] := by
  refine ⟨fun events h => ?_, fun salt delay ts dest buf hbuf hwindow hahead => ?_⟩
  · exact (Run.invariant_of_meets (P := Server.Inv) (fun _ _ hinv hok => Server.inv_step hinv hok)
      (Server.inv_new start) h).nodup
  · obtain ⟨fixedCt, varCt, hcarries⟩ := exists_carries hcrypto _ ts hbuf
    exact ⟨fixedCt, varCt, acceptedPairs_replayEvents hcarries hwindow (not_lt.1 hahead)⟩

def millis (n : ℕ) : ℕ := n * 1000000

def sampleRequest (salt : Octets 32) : Bytes × Bytes :=
  let subkey := deriveSubkey sampleCrypto (digest 32 [1]) salt
  (((sampleCrypto.aes256Gcm.encrypt subkey (makeNonce 0) [] (requestFixedHeader 1030 9)).getD []),
    ((sampleCrypto.aes256Gcm.encrypt subkey (makeNonce 1) []
      [1, 192, 0, 2, 1, 1, 187, 0, 0]).getD []))

def sampleEvents : List Event :=
  let salt := digest 32 [2]
  let fixedCt : Octets 27 := ⟨(sampleRequest salt).1, by decide +kernel⟩
  let varCt := (sampleRequest salt).2
  [.tick, .advance (millis 29700), .salt salt, .fixedHeader 0 fixedCt, .variableHeader 0 varCt,
    .advance (millis 300), .tick, .advance (millis 30000), .tick, .advance (millis 30000), .tick,
    .advance (millis 100), .salt salt, .fixedHeader 1 fixedCt, .variableHeader 1 varCt]

/-- A client whose clock is 30 seconds ahead is accepted, and so is the replay of its handshake
after the reaper has removed the salt. -/
theorem replay_accepted_after_ttl :
    ¬ (sampleEvents.foldl (step sampleCrypto (digest 32 [1]))
      (new (millis 970500))).acceptedPairs.Nodup := by
  have hpairs : (sampleEvents.foldl (step sampleCrypto (digest 32 [1]))
      (new (millis 970500))).acceptedPairs =
        [(digest 32 [2], 1030), (digest 32 [2], 1030)] := by decide +kernel
  rw [hpairs]
  exact not_nodup_pair _

/-- A handshake with the timestamp 1030 at 1001 seconds, with its replay a second later, is timely.
-/
theorem timely_handshake_once :
    ((([.salt (digest 32 [2]), .fixedHeader 0 ⟨(sampleRequest (digest 32 [2])).1, by
        decide +kernel⟩, .variableHeader 0 (sampleRequest (digest 32 [2])).2,
        .advance (millis 1000), .tick, .salt (digest 32 [2])] : List Event).foldl
      (step sampleCrypto (digest 32 [1]))
      (new (millis 1001000))).acceptedPairs).Nodup := by
  refine (ss2022_accepted_once sampleCrypto_lawful (digest 32 [1]) (millis 1001000)).1 _
    ⟨trivial, ?_, trivial, trivial, trivial, trivial, trivial⟩
  intro salt readAt ts variableLen hsalted hdecode _
  obtain ⟨rfl, rfl⟩ : digest 32 [2] = salt ∧ millis 1001000 = readAt := by
    simpa [step, new, SaltReplay.checkAndInsert] using hsalted
  have hts : decodeFixedHeader sampleCrypto
      (deriveSubkey sampleCrypto (digest 32 [1]) (digest 32 [2]))
      ⟨(sampleRequest (digest 32 [2])).1, by decide +kernel⟩ = .ok (1030, 9) := by
    decide +kernel
  rw [hts] at hdecode
  obtain ⟨rfl, -⟩ := Prod.mk.inj (Except.ok.inj hdecode)
  decide

end Blackwire.Ss2022
