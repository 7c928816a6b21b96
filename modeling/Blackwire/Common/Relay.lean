import Blackwire.Common.Address
import Blackwire.Lib.Run

/-!
# Replay and relay

`PrependedStream` of `blackwire-common/src/stream.rs`, which serves bytes that were already read
before it reads on, and the relay of `relay.rs`: `copy_one_way_with_idle`, and two of it under one
idle timer (`IdleRelay`).
-/

namespace Blackwire

open AsyncIO AsyncIO.AsyncRead List

/-! ### The prepended stream -/

structure PrependedStream (σ : Type) where
  prefixBytes : Bytes
  prefixPos : ℕ
  inner : σ

namespace PrependedStream

variable {σ : Type} [AsyncRead σ] {s : PrependedStream σ}

def new (inner : σ) (prefixBytes : Bytes) : PrependedStream σ := ⟨prefixBytes, 0, inner⟩

def pollRead (n : ℕ) (s : PrependedStream σ) : PollRead × PrependedStream σ :=
  if s.prefixPos < s.prefixBytes.length then
    let remaining := s.prefixBytes.drop s.prefixPos
    let k := min remaining.length n
    (.ready (remaining.take k), { s with prefixPos := s.prefixPos + k })
  else
    let (answer, inner) := AsyncRead.pollRead n s.inner
    (answer, { s with inner })

def contents (s : PrependedStream σ) : Bytes := s.prefixBytes.drop s.prefixPos ++ rest s.inner

theorem pollRead_cases {n : ℕ} {s' : PrependedStream σ} {answer : PollRead}
    (h : pollRead n s = (answer, s')) :
    (∃ k, k ≤ n ∧ (0 < n → 0 < k) ∧ k ≤ (s.prefixBytes.drop s.prefixPos).length ∧
      answer = .ready ((s.prefixBytes.drop s.prefixPos).take k) ∧
      s' = { s with prefixPos := s.prefixPos + k }) ∨
    (s.prefixBytes.drop s.prefixPos = [] ∧
      ∃ inner, AsyncRead.pollRead n s.inner = (answer, inner) ∧ s' = { s with inner }) := by
  unfold pollRead at h
  split_ifs at h with hpos
  · left
    simp only [Prod.mk.injEq] at h
    refine ⟨min (s.prefixBytes.drop s.prefixPos).length n, ?_, ?_, ?_, h.1.symm, h.2.symm⟩
    · omega
    · rw [length_drop]
      omega
    · omega
  · right
    refine ⟨drop_eq_nil_of_le (by omega), ?_⟩
    cases hp : AsyncRead.pollRead n s.inner with
    | mk a inner =>
      simp only [hp, Prod.mk.injEq] at h
      exact ⟨inner, by rw [h.1], h.2.symm⟩

instance : AsyncRead (PrependedStream σ) where
  pollRead := pollRead
  rest := contents
  stalls s := stalls s.inner
  length_ready h := by
    obtain ⟨k, hk, -, -, ha, -⟩ | ⟨-, inner, hp, -⟩ := pollRead_cases h
    · obtain rfl := PollRead.ready.inj ha
      rw [length_take]
      omega
    · exact length_ready hp
  rest_ready h := by
    obtain ⟨k, -, -, -, ha, rfl⟩ | ⟨hnil, inner, hp, rfl⟩ := pollRead_cases h
    · obtain rfl := PollRead.ready.inj ha
      simp only [contents, ← drop_drop]
      rw [← append_assoc, take_append_drop]
    · simp only [contents, hnil, nil_append]
      exact rest_ready hp
  rest_eof h := by
    obtain ⟨k, -, hpos, hk, ha, -⟩ | ⟨hnil, inner, hp, -⟩ := pollRead_cases h
    · have hlen := congrArg List.length (PollRead.ready.inj ha)
      rw [length_take, length_nil] at hlen
      have := hpos (Nat.succ_pos _)
      omega
    · rw [contents, hnil, rest_eof hp, append_nil]
  rest_pending h := by
    obtain ⟨k, -, -, -, ha, -⟩ | ⟨hnil, inner, hp, rfl⟩ := pollRead_cases h
    · cases ha
    · simp only [contents, rest_pending hp]
  stalls_ready h := by
    obtain ⟨k, -, -, -, -, rfl⟩ | ⟨-, inner, hp, rfl⟩ := pollRead_cases h
    · exact le_rfl
    · exact stalls_ready hp
  stalls_pending h := by
    obtain ⟨k, -, -, -, ha, -⟩ | ⟨-, inner, hp, rfl⟩ := pollRead_cases h
    · cases ha
    · exact stalls_pending hp

theorem pollRead_preserves {P : σ → Prop} (hpoll : ∀ n s, P s → P (AsyncRead.pollRead n s).2)
    (n : ℕ) (hs : P s.inner) : P (AsyncRead.pollRead n s).2.inner := by
  obtain ⟨k, -, -, -, -, hs'⟩ | ⟨-, inner, hp, hs'⟩ :=
    pollRead_cases (s := s) (Prod.mk.eta).symm
  · show P (pollRead n s).2.inner
    rw [hs']
    exact hs
  · show P (pollRead n s).2.inner
    rw [hs']
    have h := hpoll n s.inner hs
    rwa [hp] at h

theorem pollRead_ne_pending {n : ℕ} {e : Bool} (h : (AsyncRead.pollRead n s.inner).1 ≠ .pending e) :
    (AsyncRead.pollRead n s).1 ≠ .pending e := by
  obtain ⟨k, -, -, -, ha, -⟩ | ⟨-, inner, hp, -⟩ :=
    pollRead_cases (s := s) (Prod.mk.eta).symm
  · show (pollRead n s).1 ≠ _
    rw [ha]
    exact PollRead.noConfusion
  · rwa [hp] at h

end PrependedStream

/-! ### The relay -/

structure Peer where
  received : Bytes
  limit : Option ℕ

def Peer.writeAll (bs : Bytes) (peer : Peer) : Bool × Peer :=
  match peer.limit with
  | none => (true, { peer with received := peer.received ++ bs })
  | some k =>
    if bs.length ≤ k then (true, ⟨peer.received ++ bs, some (k - bs.length)⟩)
    else (false, ⟨peer.received ++ bs.take k, some 0⟩)

inductive RelayEnd
  | eof
  | idle
  | writeError
  deriving DecidableEq

def relayBufSize : ℕ := 16 * 1024

variable {σ : Type} [AsyncRead σ] {peer : Peer} {reader : σ} {result : RelayEnd × Peer}

/-- The loop of `copy_one_way_with_idle`, with fuel for the polls.  A pending answer whose deadline
has passed is the idle timer going off. -/
def copyOneWayAux : ℕ → σ → Peer → RelayEnd × Peer
  | 0, _, peer => (.eof, peer)
  | fuel + 1, reader, peer =>
    match pollRead relayBufSize reader with
    | (.pending true, _) => (.idle, peer)
    | (.pending false, reader) => copyOneWayAux fuel reader peer
    | (.ready [], _) => (.eof, peer)
    | (.ready bs, reader) =>
      match peer.writeAll bs with
      | (true, peer) => copyOneWayAux fuel reader peer
      | (false, peer) => (.writeError, peer)

def copyOneWayWithIdle (reader : σ) (peer : Peer) : RelayEnd × Peer :=
  copyOneWayAux ((rest reader).length + stalls reader + 1) reader peer

theorem Peer.writeAll_cases (bs : Bytes) (peer : Peer) :
    (∃ limit, peer.writeAll bs = (true, ⟨peer.received ++ bs, limit⟩) ∧
      (peer.limit = none → limit = none)) ∨
    (peer.limit ≠ none ∧ ∃ k,
      peer.writeAll bs = (false, ⟨peer.received ++ bs.take k, some 0⟩)) := by
  unfold Peer.writeAll
  cases hl : peer.limit with
  | none => exact .inl ⟨none, rfl, fun _ => rfl⟩
  | some k =>
    by_cases hk : bs.length ≤ k
    · exact .inl ⟨some (k - bs.length), by simp [hk], by simp⟩
    · exact .inr ⟨by simp, k, by simp [hk]⟩

structure Relayed (reader : σ) (peer : Peer) (result : RelayEnd × Peer) : Prop where
  delivered : ∃ moved, moved <+: rest reader ∧ result.2.received = peer.received ++ moved ∧
    (result.1 = .eof → moved = rest reader)
  writeError : result.1 = .writeError → peer.limit ≠ none

theorem Relayed.of_pending {reader' : σ} (hrest : rest reader' = rest reader)
    (h : Relayed reader' peer result) : Relayed reader peer result := by
  obtain ⟨moved, hpre, hrec, heof⟩ := h.delivered
  rw [hrest] at hpre heof
  exact ⟨⟨moved, hpre, hrec, heof⟩, h.writeError⟩

theorem Relayed.of_written {reader' : σ} {bs : Bytes} {limit : Option ℕ}
    (hrest : rest reader = bs ++ rest reader') (hlimit : peer.limit = none → limit = none)
    (h : Relayed reader' ⟨peer.received ++ bs, limit⟩ result) : Relayed reader peer result := by
  obtain ⟨moved, hpre, hrec, heof⟩ := h.delivered
  refine ⟨⟨bs ++ moved, ?_, ?_, ?_⟩, fun he hnone => h.writeError he (hlimit hnone)⟩
  · rw [hrest]
    exact (prefix_append_right_inj bs).2 hpre
  · rw [hrec, append_assoc]
  · intro he
    rw [heof he, hrest]

theorem copyOneWayAux_relayed {fuel : ℕ} (hfuel : (rest reader).length + stalls reader < fuel) :
    Relayed reader peer (copyOneWayAux fuel reader peer) := by
  induction fuel generalizing reader peer with
  | zero => omega
  | succ fuel ih =>
    unfold copyOneWayAux
    split
    · exact ⟨⟨[], nil_prefix, by simp, by simp⟩, by simp⟩
    · rename_i reader' hp
      have hlt := stalls_pending hp
      have hrest := rest_pending hp
      exact (ih (by rw [hrest]; omega)).of_pending hrest
    · rename_i reader' hp
      exact ⟨⟨[], nil_prefix, by simp, by simp [rest_eof hp]⟩, by simp⟩
    · rename_i bs reader' hne hp
      have hle := stalls_ready hp
      have hrest := rest_ready hp
      have hpos : 0 < bs.length := length_pos_iff.2 fun hnil => hne (by rw [hnil])
      obtain ⟨limit, hw, hlimit⟩ | ⟨hbroken, k, hw⟩ := peer.writeAll_cases bs
      · rw [hw]
        refine (ih ?_).of_written hrest hlimit
        rw [hrest, length_append] at hfuel
        omega
      · rw [hw]
        refine ⟨⟨bs.take k, ?_, rfl, by simp⟩, fun _ => hbroken⟩
        rw [hrest]
        exact (List.take_prefix k bs).trans (prefix_append bs _)

/-- **The relay loop.**  It delivers a prefix of what its reader has to give, and all of it when the
reader has ended. -/
theorem copyOneWay_relayed (reader : σ) (peer : Peer) :
    Relayed reader peer (copyOneWayWithIdle reader peer) :=
  copyOneWayAux_relayed (Nat.lt_succ_self _)

theorem copyOneWay_ne_idle {P : σ → Prop} (hpoll : ∀ n s, P s → P (pollRead n s).2)
    (hidle : ∀ n s, P s → (pollRead n s).1 ≠ .pending true) (h : P reader) (peer : Peer) :
    (copyOneWayWithIdle reader peer).1 ≠ .idle := by
  unfold copyOneWayWithIdle
  generalize (rest reader).length + stalls reader + 1 = fuel
  induction fuel generalizing reader peer with
  | zero => simp [copyOneWayAux]
  | succ fuel ih =>
    have hnext := hpoll relayBufSize reader h
    have hne := hidle relayBufSize reader h
    unfold copyOneWayAux
    split <;> rename_i hp <;> rw [hp] at hnext hne
    · exact absurd rfl hne
    · exact ih hnext peer
    · exact RelayEnd.noConfusion
    · split
      · exact ih hnext _
      · exact RelayEnd.noConfusion

/-! ### Both directions -/

/-- `CONNECTION_IDLE_TIMEOUT`, in milliseconds. -/
def connectionIdleTimeout : ℕ := 300000

namespace IdleRelay

/-- One direction of `copy_bidirectional_with_idle`: what its reader has yet to give, its writer,
and how its loop has ended. -/
structure Half where
  left : Bytes
  writer : Peer
  ended : Option RelayEnd

/-- A poll of both directions, `elapsed` milliseconds after the one before it.  With `some n` a side
is ready: it has `n + 1` bytes for the relay, or else what is left of its stream. -/
structure Wake where
  elapsed : ℕ
  readyA : Option ℕ
  readyB : Option ℕ

/-- `last_activity` is shared by the two directions. -/
structure State where
  now : ℕ
  lastActivity : ℕ
  up : Half
  down : Half

def readLen (n : ℕ) : ℕ := min (n + 1) relayBufSize

section Model

variable (idle now lastActivity : ℕ)

/-- A poll of one direction, and the time of the last activity after it.  The `select` is biased:
the idle timer is looked at only if there is nothing to read. -/
def Half.poll (ready : Option ℕ) (half : Half) : Half × ℕ :=
  if half.ended ≠ none then (half, lastActivity)
  else
    match ready with
    | none =>
      (if lastActivity + idle ≤ now then { half with ended := some .idle } else half, lastActivity)
    | some n =>
      if half.left = [] then ({ half with ended := some .eof }, lastActivity)
      else
        match half.writer.writeAll (half.left.take (readLen n)) with
        | (true, writer) => ({ half with left := half.left.drop (readLen n), writer }, now)
        | (false, writer) => (⟨half.left.drop (readLen n), writer, some .writeError⟩, lastActivity)

/-- What comes behind the deadline is not there yet when the idle timer goes off. -/
def State.step (r : State) (w : Wake) : State :=
  let now := r.now + w.elapsed
  let late := r.lastActivity + idle < now
  let up := r.up.poll idle now r.lastActivity (if late then none else w.readyB)
  let down := r.down.poll idle now up.2 (if late then none else w.readyA)
  ⟨now, down.2, up.1, down.1⟩

def State.start (fromB : Bytes) (toA : Peer) (fromA : Bytes) (toB : Peer) : State :=
  ⟨0, 0, ⟨fromB, toA, none⟩, ⟨fromA, toB, none⟩⟩

/-- The number of bytes of a ready side that a poll reads. -/
def readCount : Option ℕ → ℕ
  | none => 0
  | some n => readLen n

/-- The number of bytes that side `a` had for the relay in the course of the polls. -/
def arrived : List Wake → ℕ
  | [] => 0
  | w :: ws => readCount w.readyA + arrived ws

/-- The direction is open and moves bytes in a poll in which its reader is ready. -/
def Half.Moves (half : Half) (ready : Option ℕ) : Prop :=
  half.ended = none ∧ half.left ≠ [] ∧
    ready.any (fun n => (half.writer.writeAll (half.left.take (readLen n))).1) = true

instance Half.Moves.decidable (half : Half) (ready : Option ℕ) : Decidable (half.Moves ready) :=
  inferInstanceAs (Decidable (_ ∧ _ ∧ _))

/-- The condition on a poll while a direction is open: less than the idle limit has passed since
bytes were moved in either direction.  In the very millisecond of the limit it is enough that both
open directions have something to read, or the first one moves bytes. -/
def State.Lively (r : State) (w : Wake) : Prop :=
  r.up.ended = none ∨ r.down.ended = none →
    r.now + w.elapsed < r.lastActivity + idle ∨
      r.now + w.elapsed = r.lastActivity + idle ∧ (r.up.ended = none → w.readyB ≠ none) ∧
        (r.down.ended = none → w.readyA ≠ none ∨ r.up.Moves w.readyB)

instance State.Lively.decidable (r : State) (w : Wake) : Decidable (r.Lively idle w) :=
  inferInstanceAs (Decidable (_ → _))

/-- Neither direction was closed by the idle timer. -/
def State.Alive (r : State) : Prop := r.up.ended ≠ some .idle ∧ r.down.ended ≠ some .idle

end Model

variable {idle now lastActivity : ℕ} {half start : Half} {ready : Option ℕ} {r : State} {w : Wake}
  {m : ℕ} {wakes : List Wake}

theorem Half.poll_of_ended (h : half.ended ≠ none) :
    half.poll idle now lastActivity ready = (half, lastActivity) := by
  unfold poll
  rw [if_pos h]

theorem Half.poll_eq_idle_iff :
    (half.poll idle now lastActivity ready).1.ended = some .idle ↔
      half.ended = some .idle ∨
        half.ended = none ∧ ready = none ∧ lastActivity + idle ≤ now := by
  by_cases hopen : half.ended = none
  · unfold poll
    rw [if_neg (not_not.2 hopen), hopen]
    rcases ready with _ | n
    · dsimp only
      split_ifs with hidle <;> simp [hidle, hopen]
    · dsimp only
      split_ifs with hleft
      · simp
      · split <;> simp
  · rw [poll_of_ended hopen]
    simp [hopen]

/-- A direction whose writer takes everything has moved the first `m` bytes. -/
structure Half.Served (start : Half) (m : ℕ) (half : Half) : Prop where
  writer : half.writer = ⟨start.writer.received ++ start.left.take m, none⟩
  left : half.left = start.left.drop m
  ended : half.ended ≠ none → half.left = []

theorem Half.Served.of_end (h : start.Served m half) (hnil : half.left = []) (k : ℕ)
    (ended : Option RelayEnd) : start.Served (m + k) { half with ended := ended } := by
  have hlen : start.left.length ≤ m := drop_eq_nil_iff.1 (h.left.symm.trans hnil)
  refine ⟨?_, ?_, fun _ => hnil⟩
  · show half.writer = _
    rw [h.writer, take_of_length_le hlen, take_of_length_le (by omega)]
  · show half.left = _
    rw [hnil, drop_eq_nil_of_le (by omega)]

theorem Half.Served.poll (h : start.Served m half)
    (halive : (half.poll idle now lastActivity ready).1.ended ≠ some .idle) :
    start.Served (m + readCount ready) (half.poll idle now lastActivity ready).1 := by
  by_cases hopen : half.ended = none
  swap
  · rw [poll_of_ended hopen]
    exact h.of_end (h.ended hopen) _ half.ended
  rw [ne_eq, poll_eq_idle_iff, not_or] at halive
  unfold Half.poll
  rw [if_neg (not_not.2 hopen)]
  rcases ready with _ | n
  · have hidle : ¬lastActivity + idle ≤ now := fun hle => halive.2 ⟨hopen, rfl, hle⟩
    dsimp only
    rw [if_neg hidle]
    exact h
  · dsimp only
    split_ifs with hleft
    · exact h.of_end hleft _ (some .eof)
    · have hwrite : half.writer.writeAll (half.left.take (readLen n)) =
          (true, ⟨start.writer.received ++ start.left.take (m + readLen n), none⟩) := by
        rw [h.writer, h.left, Peer.writeAll]
        dsimp only
        rw [append_assoc, ← take_add]
      rw [hwrite]
      refine ⟨rfl, ?_, fun hended => absurd hopen hended⟩
      show half.left.drop _ = _
      rw [h.left, drop_drop]
      rfl

/-- A direction has moved a first part of what its reader had. -/
def Half.Moved (start half : Half) : Prop :=
  ∃ moved, moved <+: start.left ∧ half.writer.received = start.writer.received ++ moved ∧
    (half.ended = none → start.left = moved ++ half.left)

theorem Half.Moved.refl (half : Half) : half.Moved half :=
  ⟨[], nil_prefix, (append_nil _).symm, fun _ => rfl⟩

theorem Half.Moved.trans {next : Half} (h : start.Moved half) (hopen : half.ended = none)
    (hnext : half.Moved next) : start.Moved next := by
  obtain ⟨moved, -, hreceived, hleft⟩ := h
  obtain ⟨piece, hpiece, hreceived', hleft'⟩ := hnext
  have hsplit := hleft hopen
  refine ⟨moved ++ piece, ?_, ?_, fun hend => ?_⟩
  · rw [hsplit]
    exact (prefix_append_right_inj moved).2 hpiece
  · rw [hreceived', hreceived, append_assoc]
  · rw [hsplit, hleft' hend, append_assoc]

theorem Half.moved_poll (hopen : half.ended = none) :
    half.Moved (half.poll idle now lastActivity ready).1 := by
  unfold poll
  rw [if_neg (not_not.2 hopen)]
  rcases ready with _ | n
  · dsimp only
    split_ifs
    · exact ⟨[], nil_prefix, (append_nil _).symm, fun h => by cases h⟩
    · exact .refl half
  · dsimp only
    split_ifs
    · exact ⟨[], nil_prefix, (append_nil _).symm, fun h => by cases h⟩
    · obtain ⟨limit, hwrite, -⟩ | ⟨-, k, hwrite⟩ :=
        half.writer.writeAll_cases (half.left.take (readLen n))
      · rw [hwrite]
        exact ⟨_, List.take_prefix _ _, rfl, fun _ => (take_append_drop _ _).symm⟩
      · rw [hwrite]
        exact ⟨_, (List.take_prefix _ _).trans (List.take_prefix _ _), rfl, fun h => by cases h⟩

theorem Half.Moved.poll (h : start.Moved half) (idle now lastActivity : ℕ) (ready : Option ℕ) :
    start.Moved (half.poll idle now lastActivity ready).1 := by
  by_cases hopen : half.ended = none
  · exact h.trans hopen (moved_poll hopen)
  · rwa [poll_of_ended hopen]

end IdleRelay

end Blackwire
