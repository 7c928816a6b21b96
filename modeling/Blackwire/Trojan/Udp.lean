import Blackwire.Lib.Frames
import Blackwire.Lib.Segments
import Blackwire.Trojan.Codec
import Blackwire.Udp.Exchange

/-!
# The Trojan UDP relay

`relay_trojan_udp` of `trojan/udp.rs`: it collects what it reads from the stream in an accumulator,
takes every whole datagram off its front, and serves each one that is not empty.

* `readDatagrams_eq`: below the bound the relay serves the datagrams of the stream, however it is
  split into reads.
-/

namespace Blackwire.Trojan

open AsyncIO Udp Frames List Bytes AsyncRead

/-- What `relay_trojan_udp` and `exchange_udp_datagram` make of errors: each of them ends the
relay.  A reply is handed to the task that writes to the client. -/
def relayPolicy : RelayPolicy where
  resolveError := some
  sendError e := some (.transport ("Trojan UDP send: " ++ e))
  recvError e := some (.transport ("Trojan UDP recv: " ++ e))
  encode := encodeUdpDatagram
  encodeError := some
  replyError _ := some (.transport "Trojan UDP reply channel closed")

def maxAccumulated : ℕ := 65507

def bufferOverflow : ProxyError := .protocol "Trojan UDP datagram buffer overflow"

/-- The loop over the datagrams in the accumulator, from the offset `consumed` on: the requests
served, and the offset at which it stops.  Each datagram has at least one byte, so the length of the
accumulator is enough fuel. -/
def drainDatagrams (world : ℕ → Answers) (acc : Bytes) :
    ℕ → ℕ → ℕ → List Request × Except ProxyError ℕ
  | 0, _, consumed => ([], .ok consumed)
  | fuel + 1, k, consumed =>
    if acc = [] then ([], .ok consumed)
    else
      match parseUdpDatagram (acc.drop consumed) with
      | .ok (dest, payload, n) =>
        if payload = [] then drainDatagrams world acc fuel k (consumed + n)
        else
          match (exchange relayPolicy (world k) k (dest, payload)).2 with
          | some e => ([(dest, payload)], .error e)
          | none =>
            let (requests, result) := drainDatagrams world acc fuel (k + 1) (consumed + n)
            ((dest, payload) :: requests, result)
      | .error (.protocol _) =>
        if acc.length > maxAccumulated then ([], .error bufferOverflow) else ([], .ok consumed)
      | .error e => ([], .error e)

def readDatagrams {σ : Type} [AsyncRead σ] (world : ℕ → Answers) :
    ℕ → ℕ → Bytes → σ → List Request × Except ProxyError Unit
  | 0, _, _, _ => ([], .ok ())
  | fuel + 1, k, acc, reader =>
    match readSome false 65535 reader with
    | (.error e, _) => ([], .error (.transport (ioErrorText e)))
    | (.ok [], _) => ([], .ok ())
    | (.ok bs, reader) =>
      match drainDatagrams world (acc ++ bs) ((acc ++ bs).length + 1) k 0 with
      | (requests, .error e) => (requests, .error e)
      | (requests, .ok consumed) =>
        let (more, result) :=
          readDatagrams world fuel (k + requests.length) ((acc ++ bs).drop consumed) reader
        (requests ++ more, result)

/-- `relay_trojan_udp`, given how binding the socket and writing the replies end: the requests
served, and the result. -/
def relayTrojanUdp {σ : Type} [AsyncRead σ] (bind : Except String Unit) (world : ℕ → Answers)
    (writeResult : Except ProxyError Unit) (reader : σ) : List Request × Except ProxyError Unit :=
  match bind with
  | .error e => ([], .error (.transport ("Trojan UDP bind: " ++ e)))
  | .ok _ =>
    let (requests, readResult) := readDatagrams world ((rest reader).length + 1) 0 [] reader
    (requests, do
      readResult
      writeResult)

/-! ### The accumulator -/

structure Datagram where
  dest : Address
  payload : Bytes
  bytes : Bytes
  encoded : encodeUdpDatagram dest payload = .ok bytes

variable (d : Datagram) {world : ℕ → Answers} {acc tail : Bytes} {ds : List Datagram}

namespace Datagram

def frame (_ : Unit) (d : Datagram) : Bytes × Unit := (d.bytes, ())

def stream (ds : List Datagram) : Bytes := encodeAll frame () ds

def requests (ds : List Datagram) : List Request :=
  (ds.filter fun d => d.payload ≠ []).map fun d => (d.dest, d.payload)

theorem bytes_ne_nil : d.bytes ≠ [] := by
  intro hnil
  have hparse := parseUdpDatagram_append d.encoded []
  rw [hnil] at hparse
  cases hparse

theorem requests_append (ds es : List Datagram) :
    requests (ds ++ es) = requests ds ++ requests es := by
  simp [requests]

variable (ds : List Datagram)

theorem stream_cons : stream (d :: ds) = d.bytes ++ stream ds :=
  rfl

theorem stream_append (ds es : List Datagram) : stream (ds ++ es) = stream ds ++ stream es :=
  encodeAll_append frame () ds es

theorem stream_eq_flatMap : stream ds = ds.flatMap bytes := by
  induction ds with
  | nil => rfl
  | cons d ds ih => rw [stream_cons, ih, flatMap_cons]

theorem length_le_stream : ds.length ≤ (stream ds).length := by
  rw [stream_eq_flatMap]
  exact length_le_flatMap bytes_ne_nil ds

theorem parse_incomplete {ds : List Datagram} {tail : Bytes} (h : Incomplete frame () ds tail) :
    ∃ msg, parseUdpDatagram tail = .error (.protocol msg) := by
  cases ds with
  | nil =>
    obtain rfl := h
    exact ⟨_, rfl⟩
  | cons d ds => exact parseUdpDatagram_short d.encoded h.1 h.2

end Datagram

open Datagram

theorem drainDatagrams_eq (hne : acc ≠ []) (hlen : acc.length ≤ maxAccumulated)
    (htail : ∃ msg, parseUdpDatagram tail = .error (.protocol msg)) {fuel k : ℕ} {served : Bytes}
    (hacc : acc = served ++ (stream ds ++ tail)) (hfuel : ds.length < fuel)
    (hworld : ∀ i request, (requests ds)[i]? = some request →
      (exchange relayPolicy (world (k + i)) (k + i) request).2 = none) :
    drainDatagrams world acc fuel k served.length =
      (requests ds, .ok (served ++ stream ds).length) := by
  -- what was served stays in front: the loop only moves an offset
  induction ds generalizing fuel k served with
  | nil =>
    obtain ⟨fuel, rfl⟩ : ∃ n, fuel = n + 1 := ⟨fuel - 1, by omega⟩
    obtain ⟨msg, hmsg⟩ := htail
    have hdrop : acc.drop served.length = tail := by
      rw [hacc]
      exact drop_left
    rw [drainDatagrams, if_neg hne, hdrop, hmsg]
    rw [if_neg (by omega)]
    exact congrArg (fun bs : Bytes => (([]), Except.ok bs.length))
      (append_nil served).symm
  | cons d ds ih =>
    obtain ⟨fuel, rfl⟩ : ∃ n, fuel = n + 1 := ⟨fuel - 1, by omega⟩
    have hparse : parseUdpDatagram (acc.drop served.length) =
        .ok (d.dest, d.payload, d.bytes.length) := by
      rw [hacc, drop_left, stream_cons, append_assoc]
      exact parseUdpDatagram_append d.encoded _
    have hacc' : acc = (served ++ d.bytes) ++ (stream ds ++ tail) := by
      rw [hacc, stream_cons, append_assoc, append_assoc]
    have hend : (served ++ d.bytes) ++ stream ds = served ++ stream (d :: ds) := by
      rw [stream_cons, append_assoc]
    rw [drainDatagrams, if_neg hne, hparse]
    dsimp only
    rw [← length_append, ← hend]
    by_cases hnil : d.payload = []
    · have hrequests : requests (d :: ds) = requests ds := by simp [requests, hnil]
      rw [if_pos hnil, hrequests]
      exact ih hacc' (by simpa using hfuel) (hrequests ▸ hworld)
    · have hrequests : requests (d :: ds) = (d.dest, d.payload) :: requests ds := by
        simp [requests, hnil]
      have hfirst := hworld 0 (d.dest, d.payload) (by rw [hrequests]; rfl)
      rw [Nat.add_zero] at hfirst
      have hrest := ih (k := k + 1) hacc' (by simpa using hfuel) fun i request hi => by
        rw [Nat.add_right_comm]
        exact hworld (i + 1) request (by rw [hrequests]; exact hi)
      rw [if_neg hnil, hfirst, hrequests]
      rw [hrest]

/-- The size guard looks at the whole accumulator, also at what has been served: one that is too
long ends the relay with an error, whatever is in it. -/
theorem drainDatagrams_of_overflow (hlong : maxAccumulated < acc.length) {fuel k consumed : ℕ}
    (hconsumed : consumed ≤ acc.length) (hfuel : acc.length < consumed + fuel) :
    ∃ e, (drainDatagrams world acc fuel k consumed).2 = .error e := by
  induction fuel generalizing k consumed with
  | zero => omega
  | succ fuel ih =>
    have hne : acc ≠ [] := length_pos_iff.1 (by omega)
    rw [drainDatagrams, if_neg hne]
    rcases hparse : parseUdpDatagram (acc.drop consumed) with e | ⟨dest, payload, n⟩
    · obtain ⟨msg, rfl⟩ := parseUdpDatagram_error hparse
      dsimp only
      exact ⟨bufferOverflow, by rw [if_pos hlong]⟩
    · obtain ⟨hpos, hle, -⟩ := parseUdpDatagram_append_of_ok hparse []
      rw [length_drop] at hle
      dsimp only
      split_ifs
      · exact ih (by omega) (by omega)
      · cases (exchange relayPolicy (world k) k (dest, payload)).2 with
        | some e => exact ⟨e, rfl⟩
        | none => exact ih (by omega) (by omega)

/-! ### The relay -/

/-- What is left of the first `n` bytes behind the whole datagrams in them. -/
def leftover : List Datagram → ℕ → ℕ
  | [], n => n
  | d :: ds, n => if d.bytes.length ≤ n then leftover ds (n - d.bytes.length) else n

/-- The guard is not met: what is left of the first `n` bytes fits into the accumulator with what
the next read delivers, and so on. -/
def Fits (ds : List Datagram) : ℕ → List Segment → Prop
  | _, [] => True
  | n, seg :: segs =>
    leftover ds n + seg.val.length ≤ maxAccumulated ∧ Fits ds (n + seg.val.length) segs

theorem leftover_append (ds es : List Datagram) (n : ℕ) :
    leftover (ds ++ es) ((stream ds).length + n) = leftover es n := by
  induction ds with
  | nil => exact congrArg (leftover es) (Nat.zero_add n)
  | cons d ds ih =>
    rw [cons_append, leftover, stream_cons, length_append, if_pos (by omega),
      show d.bytes.length + (stream ds).length + n - d.bytes.length = (stream ds).length + n by
        omega]
    exact ih

theorem leftover_incomplete (h : Incomplete frame () ds tail) :
    leftover ds tail.length = tail.length := by
  cases ds with
  | nil => rfl
  | cons d ds =>
    have hlt : tail.length < d.bytes.length := h.2
    rw [leftover, if_neg (by omega)]

theorem fits_append {es : List Datagram} {n : ℕ} {segs : List Segment}
    (h : Fits (ds ++ es) ((stream ds).length + n) segs) : Fits es n segs := by
  induction segs generalizing n with
  | nil => trivial
  | cons seg segs ih =>
    rw [Fits, leftover_append] at h
    exact ⟨h.1, ih (by rw [← Nat.add_assoc]; exact h.2)⟩

theorem readDatagrams_eq {segs : List Segment} {source : Source} {fuel k : ℕ}
    (hsegs : source.segments = segs) (htail : Incomplete frame () ds tail)
    (hstream : tail ++ Source.bytesOf segs = stream ds)
    (hfits : Fits ds tail.length segs) (hfuel : segs.length < fuel)
    (hworld : ∀ i request, (requests ds)[i]? = some request →
      (exchange relayPolicy (world (k + i)) (k + i) request).2 = none) :
    readDatagrams world fuel k tail source = (requests ds, .ok ()) := by
  induction segs generalizing source fuel k ds tail with
  | nil =>
    obtain ⟨fuel, rfl⟩ : ∃ n, fuel = n + 1 := ⟨fuel - 1, by omega⟩
    obtain ⟨source', hread⟩ := Source.readSome_of_segments_nil 65535 hsegs
    obtain rfl : tail = stream ds := (append_nil tail).symm.trans hstream
    obtain rfl := Incomplete.eq_nil htail
    rw [readDatagrams, hread]
    rfl
  | cons seg segs ih =>
    obtain ⟨fuel, rfl⟩ : ∃ n, fuel = n + 1 := ⟨fuel - 1, by omega⟩
    obtain ⟨hbound, hfits⟩ := hfits
    rw [leftover_incomplete htail] at hbound
    have hseg : seg.val.length ≤ 65535 := by
      have hmax : maxAccumulated ≤ 65535 := by decide
      omega
    obtain ⟨source', hread, hsource'⟩ := Source.readSome_of_segments hsegs hseg
    rw [Source.bytesOf_cons, ← append_assoc] at hstream
    -- the read completes some datagrams and leaves the beginning of another one
    have hbeginning : tail ++ seg.val <+: encodeAll frame () ds := ⟨_, hstream⟩
    obtain ⟨done, todo, tail', rfl, hsplit, htail'⟩ := exists_split_of_prefix hbeginning
    replace hsplit : tail ++ seg.val = stream done ++ tail' := hsplit
    have hlen : tail.length + seg.val.length = (stream done).length + tail'.length := by
      rw [← length_append, hsplit, length_append]
    have hnext : tail' ++ Source.bytesOf segs = stream todo := by
      rw [hsplit, append_assoc, stream_append] at hstream
      exact append_cancel_left hstream
    rw [requests_append] at hworld
    have hcount : done.length < (tail ++ seg.val).length + 1 := by
      have hdone := length_le_stream done
      rw [length_append]
      omega
    have hne : tail ++ seg.val ≠ [] := by simp [seg.property]
    have hacc : tail ++ seg.val = [] ++ (stream done ++ tail') := hsplit
    have hdrain : drainDatagrams world (tail ++ seg.val) ((tail ++ seg.val).length + 1) k 0 =
        (requests done, .ok (stream done).length) := by
      refine drainDatagrams_eq hne (by rw [length_append]; exact hbound)
        (parse_incomplete htail') hacc hcount fun i request hi => hworld i request ?_
      rw [List.getElem?_append_left (List.getElem?_eq_some_iff.1 hi).1]
      exact hi
    have hdrop : (tail ++ seg.val).drop (stream done).length = tail' := by
      rw [hsplit]
      exact drop_left
    have hrest : readDatagrams world fuel (k + (requests done).length) tail' source' =
        (requests todo, .ok ()) := by
      refine ih hsource' htail' hnext (fits_append (hlen ▸ hfits)) (by simpa using hfuel) ?_
      intro i request hi
      rw [Nat.add_assoc]
      refine hworld _ request ?_
      rw [List.getElem?_append_right (Nat.le_add_right ..), Nat.add_sub_cancel_left]
      exact hi
    obtain ⟨b, bs, hbs⟩ := exists_cons_of_ne_nil seg.property
    rw [readDatagrams, hread, hbs]
    dsimp only
    rw [← hbs, hdrain]
    dsimp only
    rw [hdrop, hrest, requests_append]

/-- The network lets the exchange succeed. -/
structure Cooperative (answers : Answers) (dest : Address) : Prop where
  resolves : ∃ upstream, resolveUdpDest answers dest = .ok upstream
  sends : answers.send = .ok ()
  receives : ∀ e, answers.recv ≠ .failed e
  short : ∀ peer payload, answers.recv = .received peer payload → payload.length ≤ maxUdpPayloadLen
  takes : answers.reply = .ok ()

theorem Cooperative.exchange_eq {answers : Answers} (h : Cooperative answers d.dest) (k : ℕ) :
    (exchange relayPolicy answers k (d.dest, d.payload)).2 = none := by
  obtain ⟨upstream, hresolve⟩ := h.resolves
  simp only [exchange, hresolve, h.sends]
  cases hrecv : answers.recv with
  | timedOut => rfl
  | failed e => exact absurd hrecv (h.receives e)
  | received peer payload =>
    dsimp only
    split_ifs
    · rfl
    -- the destination has an encoding, since the datagram has one
    obtain ⟨addr, haddr⟩ : ∃ addr, Socks5Address.writeSocks5Address d.dest = .ok addr := by
      have hencoded := d.encoded
      rw [encodeUdpDatagram] at hencoded
      split_ifs at hencoded
      obtain ⟨addr, haddr, -⟩ := bind_eq_ok.1 hencoded
      exact ⟨addr, haddr⟩
    have hencode : relayPolicy.encode d.dest payload = .ok (addr ++
        (toBe 2 payload.length ++ ([13, 10] ++ payload))) := by
      show encodeUdpDatagram d.dest payload = _
      rw [encodeUdpDatagram, if_neg (not_lt.2 (h.short peer payload hrecv)), haddr]
      rfl
    rw [hencode, h.takes]

theorem exists_of_mem_requests {request : Request} (h : request ∈ requests ds) :
    ∃ d ∈ ds, request = (d.dest, d.payload) := by
  obtain ⟨d, hd, rfl⟩ := mem_map.1 h
  exact ⟨d, (mem_filter.1 hd).1, rfl⟩

/-- **Forwarding.**  However the encodings of datagrams are split into reads, as long as the guard
is not met, the relay sends each datagram that has a payload exactly once, in order, to the address
of its own destination, and ends well at the end of the stream. -/
theorem relayTrojanUdp_forwards (ds : List Datagram) (world : ℕ → Answers) (source : Source)
    (hsource : source.contents = stream ds) (hfits : Fits ds 0 source.segments)
    (hworld : ∀ k dest payload, (requests ds)[k]? = some (dest, payload) →
      Cooperative (world k) dest) :
    relayTrojanUdp (.ok ()) world (.ok ()) source = (requests ds, .ok ()) ∧
      List.Forall₂ (Forwards world) (requests ds).zipIdx
        (sentDatagrams (log relayPolicy world (requests ds))) := by
  constructor
  · have hincomplete : Incomplete frame () ds [] := by
      cases ds with
      | nil => rfl
      | cons d ds => exact ⟨List.nil_prefix, length_pos_iff.2 d.bytes_ne_nil⟩
    rw [Source.contents_eq_bytesOf] at hsource
    have hcount : source.segments.length < source.contents.length + 1 := by
      rw [Source.contents_eq_bytesOf]
      exact Nat.lt_succ_of_le (Source.length_le_bytesOf _)
    have hread : readDatagrams world (source.contents.length + 1) 0 [] source =
        (requests ds, .ok ()) := by
      refine readDatagrams_eq rfl hincomplete hsource hfits hcount fun k request hrequest => ?_
      rw [Nat.zero_add]
      obtain ⟨d, -, rfl⟩ := exists_of_mem_requests (mem_of_getElem? hrequest)
      exact Cooperative.exchange_eq d (hworld k d.dest d.payload hrequest) k
    unfold relayTrojanUdp
    rw [Source.rest_eq, hread]
    rfl
  · refine forwards_log fun k request hrequest => ?_
    have hcooperative := hworld k request.1 request.2 hrequest
    exact ⟨hcooperative.resolves, hcooperative.sends⟩

def silentWorld : ℕ → Answers := fun _ =>
  ⟨.ok [.v4 ⟨[93, 184, 216, 34], rfl⟩ 53], .ok (), .timedOut, .ok ()⟩

theorem cooperative_silentWorld (k : ℕ) (dest : Address) : Cooperative (silentWorld k) dest where
  resolves := by cases dest <;> exact ⟨_, rfl⟩
  sends := rfl
  receives e h := by cases h
  short peer payload h := by cases h
  takes := rfl

def sampleDatagram : Datagram :=
  ⟨.ipv4 firstServer 53, [1, 2], [1, 8, 8, 8, 8, 0, 53, 0, 2, 13, 10, 1, 2], by decide⟩

def sampleDomainDatagram : Datagram :=
  ⟨.domain "a" 53, [3], [3, 1, 97, 0, 53, 0, 1, 13, 10, 3], by decide⟩

def emptyDatagram : Datagram :=
  ⟨.ipv4 firstServer 53, [], [1, 8, 8, 8, 8, 0, 53, 0, 0, 13, 10], by decide⟩

def sampleSource : Source :=
  [.data ⟨[1, 8, 8, 8, 8, 0, 53, 0, 2, 13, 10, 1, 2, 3, 1], by decide⟩, .pending false,
    .data ⟨[97, 0, 53, 0, 1, 13, 10, 3], by decide⟩]

theorem sampleSource_forwarded :
    relayTrojanUdp (.ok ()) silentWorld (.ok ()) sampleSource =
      ([(.ipv4 ⟨[8, 8, 8, 8], rfl⟩ 53, [1, 2]), (.domain "a" 53, [3])], .ok ()) :=
  (relayTrojanUdp_forwards [sampleDatagram, sampleDomainDatagram] silentWorld sampleSource
    (by decide) ⟨by decide, by decide, trivial⟩
    fun k dest _ _ => cooperative_silentWorld k dest).1

theorem relayTrojanUdp_of_long {dest : Address} {addr payload raw : Bytes}
    (haddr : Socks5Address.writeSocks5Address dest = .ok addr)
    (hlong : maxUdpPayloadLen < payload.length)
    (hraw : raw = addr ++ (toBe 2 payload.length ++ ([13, 10] ++ payload)))
    (hlen : raw.length ≤ maxAccumulated) (hne : raw ≠ []) (world : ℕ → Answers) :
    relayTrojanUdp (.ok ()) world (.ok ()) (Source.ofSegments [⟨raw, hne⟩]) = ([], .ok ()) := by
  have hpayload : payload.length < 2 ^ 16 := by
    have hmax : maxAccumulated < 2 ^ 16 := by decide
    rw [hraw, length_append, length_append, length_append] at hlen
    omega
  have hdrain : drainDatagrams world raw (raw.length + 1) 0 0 = ([], .ok 0) := by
    rw [drainDatagrams, if_neg hne, drop_zero, hraw,
      parseUdpDatagram_of_long haddr hlong hpayload, ← hraw]
    exact if_neg (not_lt.2 hlen)
  have hread : readSome false 65535 (Source.ofSegments [⟨raw, hne⟩]) = (.ok raw, []) := by
    have hpoll : pollRead 65535 (Source.ofSegments [⟨raw, hne⟩]) = (.ready raw, []) :=
      Source.pollRead_ofSegments_cons (hlen.trans (by decide)) []
    rw [readSome, readSomeAux, hpoll]
  have hend : ∀ fuel, readDatagrams world (fuel + 1) 0 raw ([] : Source) = ([], .ok ()) :=
    fun _ => rfl
  obtain ⟨b, bs, hbs⟩ := exists_cons_of_ne_nil hne
  have hloop : ∀ fuel, readDatagrams world (fuel + 2) 0 [] (Source.ofSegments [⟨raw, hne⟩]) =
      ([], .ok ()) := by
    intro fuel
    rw [readDatagrams, hread]
    simp only [hbs]
    rw [← hbs, nil_append, hdrain]
    exact congrArg (fun r : List Request × Except ProxyError Unit => ([] ++ r.1, r.2)) (hend fuel)
  have hfuel : (rest (Source.ofSegments [⟨raw, hne⟩])).length + 1 = bs.length + 2 := by simp [hbs]
  unfold relayTrojanUdp
  rw [hfuel, hloop]
  rfl

def longDatagram : Bytes :=
  [1, 8, 8, 8, 8, 0, 53] ++
    (toBe 2 (List.replicate 8193 (0 : UInt8)).length ++ ([13, 10] ++ List.replicate 8193 0))

/-- Neither an empty datagram nor one of 8193 bytes is forwarded. -/
theorem datagrams_not_forwarded :
    relayTrojanUdp (.ok ()) silentWorld (.ok ())
      (Source.ofSegments [⟨emptyDatagram.bytes, by decide⟩]) = ([], .ok ()) ∧
    relayTrojanUdp (.ok ()) silentWorld (.ok ())
      (Source.ofSegments [⟨longDatagram, cons_ne_nil _ _⟩]) = ([], .ok ()) := by
  constructor
  · decide
  · have haddr : Socks5Address.writeSocks5Address (.ipv4 ⟨[8, 8, 8, 8], rfl⟩ 53) =
        .ok [1, 8, 8, 8, 8, 0, 53] := by decide
    have hlong : maxUdpPayloadLen < (List.replicate 8193 (0 : UInt8)).length := by
      rw [length_replicate]
      decide
    refine relayTrojanUdp_of_long haddr hlong rfl ?_ _ _
    simp only [length_append, length_toBe, length_replicate]
    decide

end Blackwire.Trojan
