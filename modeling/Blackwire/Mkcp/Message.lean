import Blackwire.Mkcp.Kcp

/-!
# Messages and their fragments

`send` cuts a message into fragments that count down to zero, and `recv` takes fragments from the
queue up to the next zero.

* `pieces_prefix_of_peeksize`: when `peeksize` is satisfied, the fragments of the first message are
  all there.
-/

namespace Blackwire.Mkcp

open Kcp List

abbrev Piece := UInt8 × Bytes

def Segment.piece (seg : Segment) : Piece := (seg.frg, seg.data)

def mss₀ : ℕ := mtu - overhead

def pieceCount (msg : Bytes) : ℕ := (msg.length + mss₀ - 1) / mss₀

def pieces (msg : Bytes) : List Piece := fragmentLoop mss₀ msg (pieceCount msg) 0

structure Sendable (msg : Bytes) : Prop where
  nonempty : msg ≠ []
  count : pieceCount msg < 256

/-! ### Fragments -/

theorem length_fragmentLoop (mss : ℕ) (buf : Bytes) (count offset : ℕ) :
    (fragmentLoop mss buf count offset).length = count := by
  induction count generalizing offset with
  | zero => rfl
  | succ count ih => rw [fragmentLoop, length_cons, ih]

theorem length_pieces (msg : Bytes) : (pieces msg).length = pieceCount msg :=
  length_fragmentLoop ..

variable {offset count : ℕ} {buf msg : Bytes} {more : List Piece}

theorem flatten_fragmentLoop {mss : ℕ} (h : buf.length - offset ≤ count * mss) :
    ((fragmentLoop mss buf count offset).map Prod.snd).flatten = buf.drop offset := by
  induction count generalizing offset with
  | zero => exact (drop_eq_nil_of_le (by omega)).symm
  | succ count ih =>
    rw [Nat.succ_mul] at h
    rw [fragmentLoop, map_cons, flatten_cons, ih (by omega), ← drop_drop, take_append_drop]

theorem length_le_of_mem_fragmentLoop {mss : ℕ} {piece : Piece}
    (h : piece ∈ fragmentLoop mss buf count offset) : piece.2.length ≤ mss := by
  induction count generalizing offset with
  | zero => cases h
  | succ count ih =>
    obtain rfl | h := mem_cons.1 h
    · rw [length_take]
      omega
    · exact ih h

theorem mss₀_pos : 0 < mss₀ := by decide

theorem pieceCount_pos (h : msg ≠ []) : 0 < pieceCount msg := by
  have hlen := length_pos_iff.2 h
  exact Nat.div_pos (by omega) mss₀_pos

theorem length_le_pieceCount (msg : Bytes) : msg.length ≤ pieceCount msg * mss₀ := by
  have hdiv := Nat.div_add_mod (msg.length + mss₀ - 1) mss₀
  have hmod := Nat.mod_lt (msg.length + mss₀ - 1) mss₀_pos
  rw [Nat.mul_comm] at hdiv
  unfold pieceCount
  omega

theorem flatten_pieces (msg : Bytes) : ((pieces msg).map Prod.snd).flatten = msg := by
  rw [pieces, flatten_fragmentLoop (by exact length_le_pieceCount msg)]
  rfl

/-! ### Taking a message -/

theorem popMessage_fragmentLoop {mss : ℕ} (hcount : count < 256) {queue : List Segment}
    (h : queue.map Segment.piece = fragmentLoop mss buf (count + 1) offset ++ more) :
    popMessage queue = (((fragmentLoop mss buf (count + 1) offset).map Prod.snd).flatten,
      queue.drop (count + 1)) := by
  induction count generalizing offset queue with
  | zero =>
    obtain ⟨seg, queue, rfl, hseg, -⟩ := map_eq_cons_iff.1 h
    obtain ⟨hfrg, hdata⟩ := Prod.mk.inj hseg
    have hzero : seg.frg = 0 := hfrg
    rw [popMessage, if_pos hzero, hdata]
    exact congrArg (fun bs => (bs, queue)) (append_nil _).symm
  | succ count ih =>
    obtain ⟨seg, queue, rfl, hseg, htail⟩ := map_eq_cons_iff.1 h
    obtain ⟨hfrg, hdata⟩ := Prod.mk.inj hseg
    have hne : seg.frg ≠ 0 := by
      rw [hfrg]
      intro hzero
      have hnat := congrArg UInt8.toNat hzero
      rw [UInt8.toNat_ofNat'] at hnat
      have hzero' : (0 : UInt8).toNat = 0 := rfl
      omega
    rw [popMessage, if_neg hne, ih (by omega) htail, hdata]
    rfl

theorem popMessage_pieces (hmsg : Sendable msg) {queue : List Segment}
    (h : queue.map Segment.piece = pieces msg ++ more) :
    popMessage queue = (msg, queue.drop (pieces msg).length) := by
  obtain ⟨count, hcount⟩ : ∃ count, pieceCount msg = count + 1 :=
    ⟨pieceCount msg - 1, by have := pieceCount_pos hmsg.nonempty; omega⟩
  have hbound := hmsg.count
  rw [pieces, hcount] at h
  rw [popMessage_fragmentLoop (by omega) h, ← hcount, length_pieces]
  exact congrArg (fun bs => (bs, queue.drop (pieceCount msg))) (flatten_pieces msg)

theorem pieces_prefix_of_peeksize (hmsg : Sendable msg) {k : Kcp} {n : ℕ}
    (hpeek : k.peeksize = some n) (h : k.rcvQueue.map Segment.piece <+: pieces msg ++ more) :
    pieces msg <+: k.rcvQueue.map Segment.piece := by
  refine prefix_of_prefix_length_le (prefix_append _ more) h ?_
  obtain ⟨count, hcount⟩ : ∃ count, pieceCount msg = count + 1 :=
    ⟨pieceCount msg - 1, by have := pieceCount_pos hmsg.nonempty; omega⟩
  have hbound := hmsg.count
  rw [length_map, length_pieces]
  unfold peeksize at hpeek
  cases hqueue : k.rcvQueue with
  | nil =>
    rw [hqueue] at hpeek
    cases hpeek
  | cons seg queue =>
    -- the countdown of the first piece tells how many there are
    have hfrg : seg.frg = UInt8.ofNat count := by
      rw [hqueue, pieces, hcount] at h
      exact congrArg Prod.fst (cons_prefix_cons.1 h).1
    have htoNat : seg.frg.toNat = count := by
      rw [hfrg, UInt8.toNat_ofNat']
      omega
    rw [hqueue] at hpeek
    dsimp only at hpeek
    split_ifs at hpeek with hzero hshort
    · rw [hzero] at htoNat
      obtain rfl : 0 = count := htoNat
      rw [length_cons]
      omega
    · have hnext : (seg.frg + 1).toNat = count + 1 := by
        have hone : (1 : UInt8).toNat = 1 := rfl
        rw [UInt8.toNat_add]
        omega
      omega

end Blackwire.Mkcp
