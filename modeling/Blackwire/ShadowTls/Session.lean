import Blackwire.ShadowTls.V3
import Blackwire.Lib.Link
import Blackwire.Lib.RollingMac
import Blackwire.Lib.Run

/-!
# Integrity of a ShadowTLS v3 session

The two directions of a session and the tainting of the backend's records, all under one key, with
an attacker in between who decides what is delivered.  The log of the session holds every byte
string that a holder of the key has computed a tag of.
-/

namespace Blackwire.ShadowTls

open List Function

/-! ### The session -/

/-- One direction: its two ends, what was sent, and the data payloads that were accepted. -/
structure Flow where
  encoder : V3FrameEncoder
  decoder : V3FrameDecoder
  sent : List Bytes
  accepted : List Bytes

structure Session where
  psk : Bytes
  serverRandom : Octets 32
  flow : Dir → Flow
  residual : ShadowHmac
  tagged : List Bytes

def Session.start (psk : Bytes) (serverRandom : Octets 32) : Session where
  psk := psk
  serverRandom := serverRandom
  flow
    | .up => ⟨.clientToServer psk serverRandom, .clientToServer psk serverRandom, [], []⟩
    | .down => ⟨.serverToClient psk serverRandom, .serverToClient psk serverRandom, [], []⟩
  residual := residualHandshakeMac psk serverRandom
  tagged := []

/-- What can happen: one end sends, the server taints a record of the backend, or the attacker
delivers a record of any bytes. -/
inductive Event
  | send (d : Dir) (plaintext : Bytes)
  | taint (record : Bytes)
  | deliver (d : Dir) (record : Bytes)

variable (crypto : ShadowCrypto) (s : Session)

def Session.send (d : Dir) (plaintext : Bytes) : Session :=
  match (s.flow d).encoder.encodeApplicationData crypto plaintext with
  | (.error _, _) => s
  | (.ok _, encoder) =>
    { s with
      flow := update s.flow d
        { s.flow d with encoder := encoder, sent := (s.flow d).sent ++ [plaintext] }
      tagged := s.tagged ++ [(s.flow d).encoder.mac.input ++ plaintext] }

def Session.taint (record : Bytes) : Session :=
  match taintBackendApplicationData crypto s.residual s.psk s.serverRandom record with
  | (.error _, _) => s
  | (.ok _, residual) => { s with residual := residual, tagged := s.tagged ++ [residual.input] }

def Session.deliver (d : Dir) (record : Bytes) : Session :=
  match (s.flow d).decoder.decodeApplicationData crypto record with
  | (.ok (.data, data), decoder) =>
    { s with
      flow := update s.flow d
        { s.flow d with decoder := decoder, accepted := (s.flow d).accepted ++ [data] } }
  | (_, decoder) =>
    { s with flow := update s.flow d { s.flow d with decoder := decoder } }

def Session.step : Event → Session
  | .send d plaintext => s.send crypto d plaintext
  | .taint record => s.taint crypto record
  | .deliver d record => s.deliver crypto d record

/-! ### Conditions -/

def frameOf (record : Bytes) : Option (Bytes × Bytes) :=
  match applicationPayload record with
  | .error _ => none
  | .ok payload =>
    if payload.length < tagLen then none else some (payload.take tagLen, payload.drop tagLen)

def V3FrameDecoder.macs (decoder : V3FrameDecoder) : List ShadowHmac :=
  decoder.residualMac.toList ++ [decoder.dataMac]

/-- A tag that fits was made by an end of the session. -/
def Authentic : Event → Prop
  | .deliver d record =>
    ∀ frame ∈ frameOf record, ∀ mac ∈ (s.flow d).decoder.macs,
      (nextTag crypto mac frame.2).val = frame.1 → mac.input ++ frame.2 ∈ s.tagged
  | _ => True

def origin (serverRandom : Octets 32) : Dir → Bytes
  | .up => serverRandom.val ++ [0x43]
  | .down => serverRandom.val ++ [0x53]

/-- No tag of the handshake or of another frame fits by chance. -/
def Separated : Event → Prop
  | .send _ _ => True
  | .taint record =>
    ∀ payload ∈ (applicationPayload record).toOption, ∀ d,
      ¬ origin s.serverRandom d <+:
        s.residual.input ++ xorWithHandshakeMask crypto payload s.psk s.serverRandom
  | .deliver d record =>
    ∀ frame ∈ frameOf record,
      (nextTag crypto (s.flow d).decoder.dataMac frame.2).val = frame.1 →
      ∀ next ∈ (s.flow d).sent[(s.flow d).accepted.length]?,
        ¬ next ++ (nextTag crypto (s.flow d).decoder.dataMac next).val <+: frame.2

instance Authentic.decidable : ∀ e, Decidable (Authentic crypto s e)
  | .send _ _ | .taint _ => isTrue trivial
  | .deliver d record => inferInstanceAs (Decidable (∀ frame ∈ frameOf record,
      ∀ mac ∈ (s.flow d).decoder.macs,
        (nextTag crypto mac frame.2).val = frame.1 → mac.input ++ frame.2 ∈ s.tagged))

instance Separated.decidable (e : Event) : Decidable (Separated crypto s e) := by
  unfold Separated
  split <;> infer_instance

/-! ### What the decoder does -/

theorem V3FrameDecoder.decodeApplicationData_cases (decoder : V3FrameDecoder) (record : Bytes) :
    (∃ candidate data, frameOf record = some (candidate, data) ∧
        (nextTag crypto decoder.dataMac data).val = candidate ∧
        decoder.decodeApplicationData crypto record =
          (.ok (.data, data), ⟨(decoder.dataMac.update data).update candidate, none⟩)) ∨
      ∃ result decoder', decoder.decodeApplicationData crypto record = (result, decoder') ∧
        (∀ data, result ≠ .ok (.data, data)) ∧ decoder'.dataMac = decoder.dataMac := by
  unfold decodeApplicationData frameOf
  cases applicationPayload record with
  | error e => exact .inr ⟨_, _, rfl, nofun, rfl⟩
  | ok payload =>
    dsimp only
    by_cases hshort : payload.length < tagLen
    · rw [if_pos hshort, if_pos hshort]
      exact .inr ⟨_, _, rfl, nofun, rfl⟩
    rw [if_neg hshort, if_neg hshort]
    -- the check against the data direction, which both kinds of decoder end with
    have hdata : (∃ candidate data,
        some (payload.take tagLen, payload.drop tagLen) = some (candidate, data) ∧
        (nextTag crypto decoder.dataMac data).val = candidate ∧
        decodeData crypto decoder (payload.take tagLen) (payload.drop tagLen) =
          (.ok (.data, data), ⟨(decoder.dataMac.update data).update candidate, none⟩)) ∨
        ∃ result decoder',
          decodeData crypto decoder (payload.take tagLen) (payload.drop tagLen) =
            (result, decoder') ∧
          (∀ data, result ≠ .ok (.data, data)) ∧ decoder'.dataMac = decoder.dataMac := by
      unfold decodeData
      by_cases htag : (nextTag crypto decoder.dataMac (payload.drop tagLen)).val =
          payload.take tagLen
      · rw [if_neg (not_not.2 htag)]
        exact .inl ⟨_, _, rfl, htag, rfl⟩
      · rw [if_pos htag]
        exact .inr ⟨_, _, rfl, nofun, rfl⟩
    cases decoder.residualMac with
    | none => exact hdata
    | some mac =>
      dsimp only
      by_cases htag : (nextTag crypto mac (payload.drop tagLen)).val = payload.take tagLen
      · rw [if_pos htag]
        exact .inr ⟨_, _, rfl, by simp, rfl⟩
      · rw [if_neg htag]
        exact hdata

/-! ### Integrity -/

def tagOf (psk x : Bytes) : Bytes := (firstTag crypto ⟨psk, x⟩).val

theorem tagOf_ne_nil (psk x : Bytes) : tagOf crypto psk x ≠ [] := by
  intro h
  have hlen := (firstTag crypto ⟨psk, x⟩).property
  rw [show (firstTag crypto ⟨psk, x⟩).val = [] from h] at hlen
  cases hlen

theorem not_origin_isPrefix {serverRandom : Octets 32} {d d' : Dir} (h : d' ≠ d) {x : Bytes}
    (hx : origin serverRandom d <+: x) : ¬ origin serverRandom d' <+: x := by
  intro hx'
  have hlen : (origin serverRandom d').length = (origin serverRandom d).length := by
    cases d <;> cases d' <;> simp [origin]
  have heq := (prefix_of_prefix_length_le hx' hx hlen.le).eq_of_length hlen
  cases d <;> cases d' <;> simp [origin] at h heq

/-- A direction along a run: the MAC of each end has been fed what its messages tell, and the tags
are sound. -/
structure Flow.Sound (psk start : Bytes) (tagged : List Bytes) (flow : Flow) : Prop where
  encoder : flow.encoder.mac = ⟨psk, RollingMac.fed (tagOf crypto psk) start flow.sent⟩
  decoder : flow.decoder.dataMac = ⟨psk, RollingMac.fed (tagOf crypto psk) start flow.accepted⟩
  sound : RollingMac.Sound (tagOf crypto psk) start tagged flow.sent flow.accepted

structure Session.Sound (psk : Bytes) (serverRandom : Octets 32) (s : Session) : Prop where
  serverRandom_eq : s.serverRandom = serverRandom
  flow : ∀ d, (s.flow d).Sound crypto psk (origin serverRandom d) s.tagged

variable {crypto} {psk : Bytes} {serverRandom : Octets 32} {s : Session}

theorem Session.start_sound : (Session.start psk serverRandom).Sound crypto psk serverRandom where
  serverRandom_eq := rfl
  flow d := by
    cases d with
    | up | down => exact ⟨rfl, rfl, prefix_rfl, fun x hx => absurd hx not_mem_nil⟩

namespace Session.Sound

section

variable (h : s.Sound crypto psk serverRandom)
include h

theorem send (d : Dir) (plaintext : Bytes) :
    (s.send crypto d plaintext).Sound crypto psk serverRandom := by
  unfold Session.send V3FrameEncoder.encodeApplicationData
  by_cases hlong : maxTlsPlaintext < plaintext.length
  · rw [if_pos hlong]
    exact h
  rw [if_neg hlong]
  refine ⟨h.serverRandom_eq, fun d' => ?_⟩
  dsimp only
  by_cases hd : d' = d
  · subst hd
    rw [update_self, (h.flow d').encoder]
    refine ⟨?_, (h.flow d').decoder, (h.flow d').sound.send plaintext⟩
    rw [RollingMac.fed_append]
    rfl
  · rw [update_of_ne hd]
    refine ⟨(h.flow d').encoder, (h.flow d').decoder, (h.flow d').sound.foreign ?_⟩
    rw [(h.flow d).encoder]
    refine not_origin_isPrefix hd ?_
    exact (RollingMac.start_isPrefix_fed _ _).trans (prefix_append _ _)

theorem taint {record : Bytes} (hseparated : Separated crypto s (.taint record)) :
    (s.taint crypto record).Sound crypto psk serverRandom := by
  unfold Session.taint taintBackendApplicationData
  simp only [Separated] at hseparated
  cases hpayload : applicationPayload record with
  | error e => exact h
  | ok payload =>
    rw [hpayload, h.serverRandom_eq] at hseparated
    refine ⟨h.serverRandom_eq, fun d => ⟨(h.flow d).encoder, (h.flow d).decoder, ?_⟩⟩
    refine (h.flow d).sound.foreign ?_
    rw [h.serverRandom_eq]
    exact hseparated payload rfl d

theorem deliver {d : Dir} {record : Bytes} (hauthentic : Authentic crypto s (.deliver d record))
    (hseparated : Separated crypto s (.deliver d record)) :
    (s.deliver crypto d record).Sound crypto psk serverRandom := by
  -- the other direction stays as it is
  have hupdate : ∀ flow : Flow, flow.Sound crypto psk (origin serverRandom d) s.tagged →
      ({ s with flow := update s.flow d flow }).Sound crypto psk serverRandom :=
    fun flow hflow => ⟨h.serverRandom_eq, Dir.forall_update h.flow hflow⟩
  unfold Session.deliver
  obtain ⟨candidate, data, hframe, htag, hdecode⟩ | ⟨result, decoder, hdecode, hresult, hmac⟩ :=
    (s.flow d).decoder.decodeApplicationData_cases crypto record
  · rw [hdecode]
    have hlog := hauthentic (candidate, data) hframe _ (by simp [V3FrameDecoder.macs]) htag
    have hends := hseparated (candidate, data) hframe htag
    rw [(h.flow d).decoder] at hlog hends
    refine hupdate _ ⟨(h.flow d).encoder, ?_,
      (h.flow d).sound.accept (tagOf_ne_nil crypto psk) hlog hends⟩
    rw [← htag, (h.flow d).decoder, RollingMac.fed_append]
    rfl
  · rw [hdecode]
    -- no data was accepted, and the MAC of the direction is as it was
    have hkept := hupdate { s.flow d with decoder := decoder }
      ⟨(h.flow d).encoder, hmac.trans (h.flow d).decoder, (h.flow d).sound⟩
    rcases result with e | ⟨_ | _, data⟩
    · exact hkept
    · exact hkept
    · exact absurd rfl (hresult data)

theorem step {e : Event} (he : Authentic crypto s e ∧ Separated crypto s e) :
    (s.step crypto e).Sound crypto psk serverRandom := by
  cases e with
  | send d plaintext => exact h.send d plaintext
  | taint record => exact h.taint he.2
  | deliver d record => exact h.deliver he.1 he.2

end

end Session.Sound

/-- **Integrity.**  For every run of a session in which the attacker has no tags but those of the
log, in which the residue of the handshake does not begin like a data direction, and in which no
accepted record goes on behind the tag of the message it begins with: the data payloads that an end
has accepted are the first plaintexts that the other end has sent. -/
theorem v3_accepts_sent (crypto : ShadowCrypto) (psk : Bytes) (serverRandom : Octets 32)
    (events : List Event)
    (hideal : Run.Meets (Authentic crypto) (Session.step crypto) (.start psk serverRandom) events)
    (hseparated :
      Run.Meets (Separated crypto) (Session.step crypto) (.start psk serverRandom) events)
    (d : Dir) :
    let flow := (events.foldl (Session.step crypto) (.start psk serverRandom)).flow d
    flow.accepted.flatten = (flow.sent.take flow.accepted.length).flatten := by
  intro flow
  have hsound := Run.invariant_of_meets
    (fun s e hs he => hs.step he) Session.start_sound (hideal.and hseparated)
  have haccepted := (hsound.flow d).sound.accepted_sent
  rw [← prefix_iff_eq_take.1 haccepted]

/-! ### Two attacks -/

def sampleStart : Session := .start [9] (.replicate 32 5)

def sampleEvents : List Event :=
  [.send .up [1], .send .up [2], .taint [23, 3, 3, 0, 1, 8], .send .down [3],
    .deliver .up [23, 3, 3, 0, 5, 1, 0x43, 5, 5, 1],
    .deliver .up [23, 3, 3, 0, 5, 2, 5, 5, 0x43, 2],
    .deliver .down [23, 3, 3, 0, 5, 8, 5, 5, 5, 8],
    .deliver .down [23, 3, 3, 0, 5, 3, 0x53, 5, 5, 3]]

open Session

theorem v3_accepts_sent_sample :
    Run.Meets (Authentic sampleCrypto) (step sampleCrypto) sampleStart sampleEvents ∧
      let flow := (sampleEvents.foldl (step sampleCrypto) sampleStart).flow .up
      flow.accepted = [[1], [2]] ∧
      flow.accepted.flatten = (flow.sent.take flow.accepted.length).flatten :=
  ⟨by decide +kernel, by decide +kernel,
    v3_accepts_sent sampleCrypto [9] (.replicate 32 5) sampleEvents (by decide +kernel)
      (by decide +kernel) .up⟩

def mergedEvents : List Event :=
  [.send .up [1], .send .up [2],
    .deliver .up [23, 3, 3, 0, 10, 2, 5, 5, 0x43, 1, 1, 0x43, 5, 5, 2]]

/-- The attacker cuts off the first byte of residue that begins with the direction `S`. -/
def residueEvents : List Event :=
  [.taint [23, 3, 3, 0, 2, 0x53, 7], .deliver .down [23, 3, 3, 0, 5, 7, 0x53, 5, 5, 7]]

/-- **Both attacks succeed** with no other tags than those of the log: the server accepts a tag as
data, and the client accepts data that nobody sent. -/
theorem v3_accepts_unsent :
    (Run.Meets (Authentic sampleCrypto) (step sampleCrypto) sampleStart mergedEvents ∧
      let flow := (mergedEvents.foldl (step sampleCrypto) sampleStart).flow .up
      flow.sent = [[1], [2]] ∧ flow.accepted = [[1, 1, 0x43, 5, 5, 2]] ∧
      ¬ flow.accepted.flatten <+: flow.sent.flatten) ∧
    (Run.Meets (Authentic sampleCrypto) (step sampleCrypto) sampleStart residueEvents ∧
      let flow := (residueEvents.foldl (step sampleCrypto) sampleStart).flow .down
      flow.sent = [] ∧ flow.accepted = [[7]]) := by
  decide +kernel

end Blackwire.ShadowTls
