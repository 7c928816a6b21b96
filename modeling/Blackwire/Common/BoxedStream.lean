import Blackwire.Common.Relay

/-!
# Recovering the TCP stream

`try_into_tcp_stream_with_prefix` of `blackwire-common/src/stream.rs` takes a boxed stream apart, as
far as it consists of wrappers that it knows, into a TCP stream and the bytes in front of it that
were read and not delivered.
-/

namespace Blackwire

open AsyncIO AsyncIO.AsyncRead

namespace PrependedStream

variable {σ : Type}

def intoParts (s : PrependedStream σ) : σ × Bytes :=
  (s.inner, if s.prefixBytes.length ≤ s.prefixPos then [] else s.prefixBytes.drop s.prefixPos)

theorem rest_eq_intoParts [AsyncRead σ] (s : PrependedStream σ) :
    rest s = s.intoParts.2 ++ rest s.intoParts.1 := by
  show s.contents = _
  rw [contents, intoParts]
  split_ifs with hpos
  · rw [List.drop_eq_nil_of_le hpos]
  · rfl

end PrependedStream

/-- `PooledStream`, which reads as its inner stream does. -/
def PooledStream (σ : Type) : Type := σ

instance {σ : Type} [AsyncRead σ] : AsyncRead (PooledStream σ) := inferInstanceAs (AsyncRead σ)

variable {τ ω : Type}

/-- The streams that are not a `PrependedStream<BoxedStream>`: `TcpStream`,
`PrependedStream<TcpStream>`, `PooledStream<TcpStream>`, or any other. -/
abbrev LeafStream (τ ω : Type) : Type := τ ⊕ PrependedStream τ ⊕ PooledStream τ ⊕ ω

/-- The boxed streams with at most `depth` layers of `PrependedStream<BoxedStream>`. -/
def BoxedStream (τ ω : Type) : ℕ → Type
  | 0 => LeafStream τ ω
  | depth + 1 => LeafStream τ ω ⊕ PrependedStream (BoxedStream τ ω depth)

instance BoxedStream.asyncRead [AsyncRead τ] [AsyncRead ω] :
    (depth : ℕ) → AsyncRead (BoxedStream τ ω depth)
  | 0 => inferInstanceAs (AsyncRead (LeafStream τ ω))
  | depth + 1 =>
    have : AsyncRead (BoxedStream τ ω depth) := BoxedStream.asyncRead depth
    inferInstanceAs (AsyncRead (LeafStream τ ω ⊕ PrependedStream (BoxedStream τ ω depth)))

def LeafStream.intoTcp : LeafStream τ ω → Except (LeafStream τ ω) (τ × Bytes)
  | .inl tcp => .ok (tcp, [])
  | .inr (.inl prepended) => .ok prepended.intoParts
  | .inr (.inr (.inl pooled)) => .ok (pooled, [])
  | .inr (.inr (.inr other)) => .error (.inr (.inr (.inr other)))

def tryIntoTcpStreamWithPrefix :
    (depth : ℕ) → BoxedStream τ ω depth → Except (BoxedStream τ ω depth) (τ × Bytes)
  | 0, stream => LeafStream.intoTcp stream
  | _ + 1, .inl leaf => (LeafStream.intoTcp leaf).mapError .inl
  | depth + 1, .inr prepended =>
    match prepended.intoParts with
    | (inner, unread) =>
      match tryIntoTcpStreamWithPrefix depth inner with
      | .ok (tcp, innerUnread) =>
        if unread = [] then .ok (tcp, innerUnread)
        else if innerUnread = [] then .ok (tcp, unread)
        else .ok (tcp, unread ++ innerUnread)
      | .error inner => .error (.inr (PrependedStream.new inner unread))

variable [AsyncRead τ] [AsyncRead ω]

/-- What is left to read of the result of taking a stream apart. -/
def leftOver {σ : Type} [AsyncRead σ] : Except σ (τ × Bytes) → Bytes
  | .ok (tcp, unread) => unread ++ rest tcp
  | .error stream => rest stream

theorem leftOver_intoTcp (leaf : LeafStream τ ω) : leftOver leaf.intoTcp = rest leaf := by
  rcases leaf with tcp | prepended | pooled | other
  · rfl
  · exact prepended.rest_eq_intoParts.symm
  · rfl
  · rfl

/-- **Recovery.**  However a stream is nested and wherever its prefixes stand, what is left to read
of the parts is what was left to read of the stream. -/
theorem leftOver_tryIntoTcpStreamWithPrefix (depth : ℕ) (stream : BoxedStream τ ω depth) :
    leftOver (tryIntoTcpStreamWithPrefix depth stream) = rest stream := by
  induction depth with
  | zero => exact leftOver_intoTcp stream
  | succ depth ih =>
    obtain leaf | prepended := stream
    · have hleaf := leftOver_intoTcp leaf
      rw [tryIntoTcpStreamWithPrefix]
      cases hparts : leaf.intoTcp <;> rw [hparts] at hleaf <;> exact hleaf
    · have hrest : rest prepended = _ := prepended.rest_eq_intoParts
      show _ = rest prepended
      rw [hrest, ← ih, tryIntoTcpStreamWithPrefix]
      rcases prepended.intoParts with ⟨inner, unread⟩
      cases hinner : tryIntoTcpStreamWithPrefix depth inner with
      | error inner' =>
        simp only [hinner]
        rfl
      | ok parts =>
        simp only [hinner]
        split_ifs with hunread hinnerUnread
        · simp [leftOver, hunread]
        · simp [leftOver, hinnerUnread]
        · simp [leftOver]

end Blackwire
