import Blackwire.Common.Address
import Blackwire.Lib.Loop

/-!
# The server name of a TLS ClientHello

`tls_sni` of `sniff.rs`: the first bytes of a connection are searched for the name of the server
that a TLS client asks for.  An index or a slice outside of the bytes panics.
-/

namespace Blackwire.Sniff

open Loop List Bytes UInt8

/-! ### The parser -/

def maxSniff : ℕ := 8192

variable (data : Bytes) (pos : ℕ) (rest : ℕ → Except Stop (Option String))

def byteAt (i : ℕ) : Except Stop UInt8 :=
  match data[i]? with
  | some b => .ok b
  | none => .error .panic

def wordAt : Except Stop ℕ := do
  let hi ← byteAt data pos
  let lo ← byteAt data (pos + 1)
  pure (ofBe [hi, lo])

def sliceAt (a b : ℕ) : Except Stop Bytes :=
  if a ≤ b ∧ b ≤ data.length then .ok ((data.drop a).take (b - a)) else .error .panic

/-- The name of an extension whose content is at `pos`.  With `none` the loop goes on. -/
def nameAt (etype elen pos : ℕ) : Except Stop (Option (Option String)) :=
  if etype = 0 ∧ 5 < elen then do
    let nameType ← byteAt data (pos + 2)
    if nameType = 0 then do
      let nameLen ← wordAt data (pos + 3)
      if pos + 5 + nameLen ≤ data.length then do
        let name ← sliceAt data (pos + 5) (pos + 5 + nameLen)
        pure (some (fromUtf8 name))
      else pure none
    else pure none
  else pure none

def leave : Option (Option String) → Step ℕ (Option String)
  | some name => .done name
  | none => .next pos

def extensionAt : Except Stop (Step ℕ (Option String)) := do
  let etype ← wordAt data pos
  let elen ← wordAt data (pos + 2)
  let pos := pos + 4
  if data.length < pos + elen then pure (.done none)
  else do
    let found ← nameAt data etype elen pos
    pure (leave (pos + elen) found)

def outcome : Except Stop (Step ℕ (Option String)) → Step ℕ (Except Stop (Option String))
  | .error e => .done (.error e)
  | .ok (.done name) => .done (.ok name)
  | .ok (.next pos) => .next pos

def extensionStep (stop pos : ℕ) : Step ℕ (Except Stop (Option String)) :=
  if pos + 4 ≤ min stop data.length then outcome (extensionAt data pos) else .done (.ok none)

def walkExtensions (stop pos : ℕ) : Except Stop (Option String) :=
  match run (extensionStep data stop) (data.length + 1) pos with
  | .done result => result
  | .next _ => .error .hang

def extensions : Except Stop (Option String) :=
  if data.length < pos + 2 then .ok none
  else do
    let extLen ← wordAt data pos
    walkExtensions data (pos + 2 + extLen) (pos + 2)

def skipLong : Except Stop (Option String) :=
  if data.length < pos + 2 then .ok none
  else do
    let len ← wordAt data pos
    rest (pos + (2 + len))

def skipShort : Except Stop (Option String) :=
  if data.length ≤ pos then .ok none
  else do
    let len ← byteAt data pos
    rest (pos + (1 + len.toNat))

def clientHelloAt : Except Stop (Option String) :=
  skipLong data pos fun pos =>
    -- the cipher suites and the compression methods
    skipLong data pos fun pos => skipShort data pos fun pos => extensions data pos

/-- `tls_sni`.  The length of the session id, at `43`, is skipped with what is before it. -/
def tlsSni : Except Stop (Option String) :=
  if data.length < 5 then .ok none
  else do
    let recordType ← byteAt data 0
    if recordType ≠ 0x16 then pure none
    else if data.length ≤ 5 then pure none
    else do
      let messageType ← byteAt data 5
      if messageType ≠ 0x01 then pure none
      else clientHelloAt data (5 + 4 + (2 + 32 + 1))

/-! ### No read is outside of the bytes -/

variable {data : Bytes} {pos stop : ℕ} {found : Option (Option String)}
  {rest : ℕ → Except Stop (Option String)}

theorem byteAt_of_lt (h : pos < data.length) : ∃ b, byteAt data pos = .ok b := by
  refine ⟨data[pos], ?_⟩
  simp only [byteAt, List.getElem?_eq_getElem h]

theorem wordAt_of_le (h : pos + 2 ≤ data.length) : ∃ n, wordAt data pos = .ok n := by
  obtain ⟨hi, hhi⟩ := byteAt_of_lt (show pos < data.length by omega)
  obtain ⟨lo, hlo⟩ := byteAt_of_lt (show pos + 1 < data.length by omega)
  refine ⟨ofBe [hi, lo], ?_⟩
  rw [wordAt, hhi, hlo]
  rfl

theorem nameAt_returns {etype elen : ℕ} (h : pos + elen ≤ data.length) :
    ∃ found, nameAt data etype elen pos = .ok found := by
  unfold nameAt
  split_ifs with hname
  · obtain ⟨nameType, htype⟩ := byteAt_of_lt (show pos + 2 < data.length by omega)
    obtain ⟨nameLen, hlen⟩ := wordAt_of_le (show pos + 3 + 2 ≤ data.length by omega)
    rw [htype]
    show ∃ found, (if nameType = 0 then _ else _) = _
    split_ifs with hzero
    · rw [hlen]
      show ∃ found, (if pos + 5 + nameLen ≤ data.length then _ else _) = _
      split_ifs with hfits
      · have hslice : pos + 5 ≤ pos + 5 + nameLen ∧ pos + 5 + nameLen ≤ data.length :=
          ⟨by omega, hfits⟩
        rw [sliceAt, if_pos hslice]
        exact ⟨_, rfl⟩
      · exact ⟨none, rfl⟩
    · exact ⟨none, rfl⟩
  · exact ⟨none, rfl⟩

theorem extensionAt_eq {etype elen : ℕ} (htype : wordAt data pos = .ok etype)
    (hlen : wordAt data (pos + 2) = .ok elen) (hfits : pos + 4 + elen ≤ data.length)
    (hfound : nameAt data etype elen (pos + 4) = .ok found) :
    extensionAt data pos = .ok (leave (pos + 4 + elen) found) := by
  rw [extensionAt, htype, hlen]
  show (if data.length < pos + 4 + elen then _ else _) = _
  rw [if_neg (by omega), hfound]
  rfl

theorem extensionAt_cases (h : pos + 4 ≤ data.length) :
    (∃ name, extensionAt data pos = .ok (.done name)) ∨
      ∃ pos', pos < pos' ∧ pos' ≤ data.length ∧ extensionAt data pos = .ok (.next pos') := by
  obtain ⟨etype, htype⟩ := wordAt_of_le (show pos + 2 ≤ data.length by omega)
  obtain ⟨elen, hlen⟩ := wordAt_of_le (show pos + 2 + 2 ≤ data.length by omega)
  by_cases hfits : pos + 4 + elen ≤ data.length
  · obtain ⟨found, hfound⟩ : ∃ found, nameAt data etype elen (pos + 4) = .ok found :=
      nameAt_returns hfits
    have heq := extensionAt_eq htype hlen hfits hfound
    cases found with
    | some name => exact .inl ⟨name, heq⟩
    | none => exact .inr ⟨pos + 4 + elen, by omega, hfits, heq⟩
  · refine .inl ⟨none, ?_⟩
    rw [extensionAt, htype, hlen]
    show (if data.length < pos + 4 + elen then _ else _) = _
    rw [if_pos (by omega)]
    rfl

theorem extensionStep_cases (data : Bytes) (stop pos : ℕ) :
    (∃ name, extensionStep data stop pos = .done (.ok name)) ∨
      ∃ pos', pos < pos' ∧ pos' ≤ data.length ∧ extensionStep data stop pos = .next pos' := by
  unfold extensionStep
  split_ifs with hmore
  · rcases extensionAt_cases (hmore.trans (Nat.min_le_right _ _)) with
      ⟨name, heq⟩ | ⟨pos', hlt, hle, heq⟩
    · exact .inl ⟨name, by rw [heq, outcome]⟩
    · exact .inr ⟨pos', hlt, hle, by rw [heq, outcome]⟩
  · exact .inl ⟨none, rfl⟩

theorem walkExtensions_returns (data : Bytes) (stop pos : ℕ) :
    ∃ name, walkExtensions data stop pos = .ok name := by
  obtain ⟨result, hrun⟩ : ∃ result,
      run (extensionStep data stop) (data.length + 1) pos = .done result := by
    refine exists_run_eq_done_of_le (fun pos => data.length - pos) (Nat.sub_le _ _) ?_
    intro pos pos' _ hnext
    rcases extensionStep_cases data stop pos with ⟨name, heq⟩ | ⟨pos'', hlt, hle, heq⟩
    · cases heq.symm.trans hnext
    · cases heq.symm.trans hnext
      omega
  obtain ⟨last, -, hlast⟩ := exists_visits_of_run_eq_done hrun
  rcases extensionStep_cases data stop last with ⟨name, heq⟩ | ⟨pos', _, _, heq⟩
  · cases heq.symm.trans hlast
    exact ⟨name, by rw [walkExtensions, hrun]⟩
  · cases heq.symm.trans hlast

theorem extensions_returns (data : Bytes) (pos : ℕ) : ∃ name, extensions data pos = .ok name := by
  unfold extensions
  split_ifs with hshort
  · exact ⟨none, rfl⟩
  · obtain ⟨extLen, hlen⟩ := wordAt_of_le (show pos + 2 ≤ data.length by omega)
    rw [hlen]
    exact walkExtensions_returns data _ _

theorem skipLong_returns (hrest : ∀ pos, ∃ name, rest pos = .ok name) (data : Bytes) (pos : ℕ) :
    ∃ name, skipLong data pos rest = .ok name := by
  unfold skipLong
  split_ifs with hshort
  · exact ⟨none, rfl⟩
  · obtain ⟨len, hlen⟩ := wordAt_of_le (show pos + 2 ≤ data.length by omega)
    rw [hlen]
    exact hrest _

theorem skipShort_returns (hrest : ∀ pos, ∃ name, rest pos = .ok name) (data : Bytes) (pos : ℕ) :
    ∃ name, skipShort data pos rest = .ok name := by
  unfold skipShort
  split_ifs with hshort
  · exact ⟨none, rfl⟩
  · obtain ⟨len, hlen⟩ := byteAt_of_lt (show pos < data.length by omega)
    rw [hlen]
    exact hrest _

theorem clientHelloAt_returns (data : Bytes) (pos : ℕ) :
    ∃ name, clientHelloAt data pos = .ok name :=
  skipLong_returns
    (skipLong_returns (skipShort_returns (extensions_returns data) data) data) data pos

/-- **The parser reads no byte outside of the bytes it is given**, whatever they are, and it
ends. -/
theorem tlsSni_returns (data : Bytes) : ∃ name, tlsSni data = .ok name := by
  by_cases hshort : data.length < 5
  · exact ⟨none, by rw [tlsSni, if_pos hshort]⟩
  obtain ⟨recordType, hrecord⟩ := byteAt_of_lt (show 0 < data.length by omega)
  rw [tlsSni, if_neg hshort, hrecord]
  show ∃ name, (if recordType ≠ 0x16 then _ else _) = _
  split_ifs with htype hfive
  · exact ⟨none, rfl⟩
  · exact ⟨none, rfl⟩
  obtain ⟨messageType, hmessage⟩ := byteAt_of_lt (show 5 < data.length by omega)
  rw [hmessage]
  show ∃ name, (if messageType ≠ 0x01 then _ else _) = _
  split_ifs
  · exact ⟨none, rfl⟩
  · exact clientHelloAt_returns data _

/-! ### Well-formed records -/

structure ServerName where
  nameType : UInt8
  name : Bytes
  pos : 0 < name.length
  fits : name.length < 65536
  deriving DecidableEq

namespace ServerName

def encode (entry : ServerName) : Bytes :=
  entry.nameType :: (toBe 2 entry.name.length ++ entry.name)

def IsHostName (entry : ServerName) (h : String) : Prop :=
  entry.nameType = 0 ∧ entry.name = utf8 h

end ServerName

def encodeNames (names : List ServerName) : Bytes :=
  toBe 2 (names.flatMap ServerName.encode).length ++ names.flatMap ServerName.encode

structure Extension where
  extensionType : UInt16
  content : Bytes
  fits : content.length < 65536

def Extension.encode (extension : Extension) : Bytes :=
  toBe 2 extension.extensionType.toNat ++
    (toBe 2 extension.content.length ++ extension.content)

open Extension

/-- A ClientHello in a record of its own.  No two of its extensions have the same type. -/
structure ClientHello where
  recordVersion : Octets 2
  version : Octets 2
  random : Octets 32
  sessionId : Bytes
  cipherSuites : Bytes
  compressionMethods : Bytes
  extensions : List Extension
  sessionId_le : sessionId.length ≤ 32
  cipherSuites_even : 2 ∣ cipherSuites.length
  cipherSuites_pos : 0 < cipherSuites.length
  cipherSuites_fits : cipherSuites.length < 65536
  compressionMethods_pos : 0 < compressionMethods.length
  compressionMethods_fits : compressionMethods.length < 256
  extensions_fits : (extensions.flatMap encode).length < 65536
  extensions_nodup : (extensions.map extensionType).Nodup

namespace ClientHello

variable (hello : ClientHello) (names : List ServerName)

def tail : Bytes :=
  toBe 2 hello.cipherSuites.length ++ (hello.cipherSuites ++
    (ofNat hello.compressionMethods.length :: (hello.compressionMethods ++
      (toBe 2 (hello.extensions.flatMap encode).length ++
        hello.extensions.flatMap encode))))

def body : Bytes :=
  hello.version.val ++ (hello.random.val ++
    (ofNat hello.sessionId.length :: (hello.sessionId ++ hello.tail)))

def handshake : Bytes :=
  0x01 :: (toBe 3 hello.body.length ++ hello.body)

def encode : Bytes :=
  0x16 :: (hello.recordVersion.val ++ (toBe 2 hello.handshake.length ++ hello.handshake))

/-- The record has a `server_name` extension with the entries `names`, of which no two have the
same type. -/
def HasNames : Prop :=
  (names.map ServerName.nameType).Nodup ∧
    ∃ extension ∈ hello.extensions,
      extension.extensionType = 0 ∧ extension.content = encodeNames names

/-- The record fits, and its server names include the host. -/
def Names (h : String) : Prop :=
  hello.encode.length ≤ maxSniff ∧ hello.HasNames names ∧ ∃ entry ∈ names, entry.IsHostName h

/-- The session id reads as a length and as many bytes. -/
def BeginsWithLength (sessionId : Bytes) : Prop :=
  2 ≤ sessionId.length ∧ ofBe (sessionId.take 2) + 2 = sessionId.length

end ClientHello

/-! ### Reading a record -/

variable {tail : Bytes}

theorem byteAt_of_drop {b : UInt8} (h : data.drop pos = b :: tail) : byteAt data pos = .ok b := by
  rw [byteAt, ← List.head?_drop, h]
  rfl

theorem wordAt_of_drop {hi lo : UInt8} (h : data.drop pos = hi :: lo :: tail) :
    wordAt data pos = .ok (ofBe [hi, lo]) := by
  rw [wordAt, byteAt_of_drop h, byteAt_of_drop (drop_add [hi] h length_singleton)]
  rfl

theorem wordAt_toBe {n : ℕ} (hn : n < 65536)
    (h : data.drop pos = toBe 2 n ++ tail) : wordAt data pos = .ok n := by
  rw [wordAt_of_drop h, ← toBe_two, ofBe_toBe hn]

theorem skipLong_eq {field tail : Bytes} {n : ℕ} (h : data.drop pos = field ++ tail)
    (hword : wordAt data pos = .ok n) (hfield : field.length = 2 + n)
    (rest : ℕ → Except Stop (Option String)) :
    skipLong data pos rest = rest (pos + field.length) := by
  have hlen := length_sub_of_drop h
  rw [skipLong, if_neg (by omega), hword, hfield]
  rfl

theorem skipShort_eq {field tail : Bytes} (hfield : field.length < 256)
    (h : data.drop pos = (ofNat field.length :: field) ++ tail)
    (rest : ℕ → Except Stop (Option String)) :
    skipShort data pos rest = rest (pos + (field.length + 1)) := by
  have hlen := length_sub_of_drop h
  have hbyte : (ofNat field.length).toNat = field.length := toNat_ofNat_of_lt' hfield
  rw [skipShort, if_neg (by simp at hlen; omega), byteAt_of_drop h]
  show rest (pos + (1 + (ofNat field.length).toNat)) = _
  rw [hbyte, Nat.add_comm 1]

variable {names : List ServerName} {first : ServerName} {tail : Bytes} {extension : Extension}
  {extensions : List Extension} {fuel : ℕ}

theorem nameAt_first (h : data.drop pos = encodeNames (first :: names) ++ tail) :
    nameAt data 0 (encodeNames (first :: names)).length pos =
      .ok (if first.nameType = 0 then some (fromUtf8 first.name) else none) := by
  have hlong : 5 < (encodeNames (first :: names)).length := by
    have hpos := first.pos
    simp only [encodeNames, ServerName.encode, flatMap_cons, length_append,
      length_cons, length_toBe]
    omega
  have htype : data.drop (pos + 2) = [first.nameType] ++ (toBe 2 first.name.length ++
      (first.name ++ (names.flatMap ServerName.encode ++ tail))) := by
    rw [encodeNames, append_assoc] at h
    rw [drop_add _ h (length_toBe ..)]
    simp [ServerName.encode]
  have hlen := drop_add _ htype length_singleton
  have hname := drop_add _ hlen (length_toBe ..)
  have hfits := length_sub_of_drop hname
  have hpos := first.pos
  have hslice : sliceAt data (pos + 5) (pos + 5 + first.name.length) = .ok first.name := by
    rw [sliceAt, if_pos (by omega), Nat.add_sub_cancel_left, hname, take_left]
  rw [nameAt, if_pos ⟨rfl, hlong⟩, byteAt_of_drop htype]
  simp only [bind, Except.bind]
  split_ifs
  · rw [wordAt_toBe first.fits hlen]
    simp only [if_pos (show pos + 5 + first.name.length ≤ data.length by omega), hslice]
    rfl
  · rfl

theorem nameAt_of_ne {etype : UInt16} (h : etype ≠ 0) (elen pos : ℕ) :
    nameAt data etype.toNat elen pos = .ok none := by
  rw [nameAt, if_neg]
  · rfl
  · rintro ⟨hzero, -⟩
    exact h (UInt16.toNat_inj.1 hzero)

theorem Extension.length_encode (extension : Extension) :
    extension.encode.length = 4 + extension.content.length := by
  simp only [encode, length_append, length_toBe]
  omega

section

variable (h : data.drop pos = extension.encode ++ tail)
include h

theorem Extension.drop_content : data.drop (pos + 4) = extension.content ++ tail := by
  rw [encode, ← append_assoc, append_assoc] at h
  exact drop_add _ h (by simp)

theorem extensionStep_eq (hstop : pos + extension.encode.length ≤ stop)
    (hfound : nameAt data extension.extensionType.toNat extension.content.length (pos + 4) =
      .ok found) :
    extensionStep data stop pos = outcome (.ok (leave (pos + extension.encode.length) found)) := by
  have hlength := extension.length_encode
  have hfits := length_sub_of_drop h
  rw [encode, append_assoc] at h
  have htype := wordAt_toBe extension.extensionType.toNat_lt h
  have hlen := wordAt_toBe extension.fits (drop_add _ h (length_toBe ..))
  rw [extensionStep, if_pos (by omega), extensionAt_eq htype hlen (by omega) hfound, hlength,
    Nat.add_assoc]

end

def Passed (data : Bytes) (extension : Extension) : Prop :=
  ∀ pos tail, data.drop pos = extension.encode ++ tail →
    nameAt data extension.extensionType.toNat extension.content.length (pos + 4) = .ok none

theorem run_passed {passed : List Extension} (hpassed : ∀ extension ∈ passed, Passed data extension)
    (h : data.drop pos = passed.flatMap encode ++ tail)
    (hstop : pos + (passed.flatMap encode).length ≤ stop) :
    run (extensionStep data stop) passed.length pos =
      .next (pos + (passed.flatMap encode).length) := by
  induction passed generalizing pos with
  | nil => simp [run]
  | cons next passed ih =>
    obtain ⟨hnext, hlater⟩ := forall_mem_cons.1 hpassed
    rw [flatMap_cons, append_assoc] at h
    rw [flatMap_cons, length_append, ← Nat.add_assoc] at hstop ⊢
    have hfits : pos + next.encode.length ≤ stop := by omega
    have hstep := extensionStep_eq h hfits (hnext _ _ h)
    rw [length_cons, run_succ_of_next (hstep.trans rfl)]
    exact ih hlater (drop_add _ h rfl) hstop

theorem run_extensionStep {host : String} (htype : extension.extensionType = 0)
    (hcontent : extension.content = encodeNames (first :: names)) (hhost : first.IsHostName host)
    (hmem : extension ∈ extensions) (hnodup : (extensions.map extensionType).Nodup)
    (hfuel : extensions.length ≤ fuel) (h : data.drop pos = extensions.flatMap encode ++ []) :
    run (extensionStep data data.length) fuel pos = .done (.ok (some host)) := by
  obtain ⟨before, after, rfl⟩ := append_of_mem hmem
  have hpassed : ∀ other ∈ before, Passed data other := by
    intro other hin _ _ _
    refine nameAt_of_ne (fun hzero => ?_) _ _
    rw [map_append] at hnodup
    exact disjoint_of_nodup_append hnodup (mem_map.2 ⟨other, hin, hzero⟩)
      (mem_map.2 ⟨extension, mem_cons_self, htype⟩)
  obtain ⟨k, rfl⟩ : ∃ k, fuel = before.length + (k + 1) :=
    ⟨fuel - before.length - 1, by simp at hfuel; omega⟩
  rw [flatMap_append, flatMap_cons, append_assoc, append_assoc] at h
  have hlen := length_sub_of_drop h
  have hfour := extension.length_encode
  rw [length_append] at hlen
  rw [run_add_of_next (run_passed hpassed h (by omega))]
  have h' := drop_add _ h rfl
  have hfound := nameAt_first (hcontent ▸ drop_content h')
  rw [← hcontent, if_pos hhost.1, hhost.2, fromUtf8_utf8] at hfound
  have hstep := extensionStep_eq h' (show _ ≤ data.length by omega) (by rw [htype]; exact hfound)
  simp only [run, hstep, leave, outcome]

theorem run_extensionStep_none (hpassed : ∀ extension ∈ extensions, Passed data extension)
    (hfuel : extensions.length < fuel) (hpos : pos ≤ data.length)
    (h : data.drop pos = extensions.flatMap encode ++ []) :
    run (extensionStep data data.length) fuel pos = .done (.ok none) := by
  obtain ⟨k, rfl⟩ : ∃ k, fuel = extensions.length + (k + 1) :=
    ⟨fuel - extensions.length - 1, by omega⟩
  have hlen := length_sub_of_drop h
  rw [length_nil] at hlen
  rw [run_add_of_next (run_passed hpassed h (by omega))]
  simp only [run, extensionStep]
  rw [if_neg (by omega)]

theorem walkExtensions_iff {hello : ClientHello} (hpos : pos ≤ data.length)
    (h : data.drop pos = hello.extensions.flatMap encode ++ []) {host : String}
    (hnames : hello.Names (first :: names) host) :
    walkExtensions data data.length pos = .ok (some host) ↔ first.IsHostName host := by
  obtain ⟨-, ⟨hnodup, extension, hmem, htype, hcontent⟩, entry, hentry, hname⟩ := hnames
  have hfuel : hello.extensions.length < data.length + 1 := by
    have hle : hello.extensions.length ≤ (hello.extensions.flatMap encode).length := by
      refine length_le_flatMap (fun extension hnil => ?_) hello.extensions
      have hfour := extension.length_encode
      rw [hnil, length_nil] at hfour
      omega
    have hlen := length_sub_of_drop h
    omega
  refine ⟨fun hfound => ?_, fun hfirst => ?_⟩
  · rcases mem_cons.1 hentry with rfl | hlater
    · exact hname
    · -- the host name is a later entry, so the first one is of another type
      have hother : first.nameType ≠ 0 := by
        intro hzero
        refine (nodup_cons.1 hnodup).1 ?_
        rw [hzero, ← hname.1]
        exact mem_map_of_mem hlater
      have hpassed : ∀ other ∈ hello.extensions, Passed data other := by
        intro other hin
        by_cases hzero : other.extensionType = 0
        · obtain rfl := inj_on_of_nodup_map hello.extensions_nodup hin hmem
            (hzero.trans htype.symm)
          intro pos tail hdrop
          have hfirst := nameAt_first (hcontent ▸ drop_content hdrop)
          rw [if_neg hother, ← hcontent] at hfirst
          rw [hzero]
          exact hfirst
        · exact fun _ _ _ => nameAt_of_ne hzero _ _
      rw [walkExtensions, run_extensionStep_none hpassed hfuel hpos h] at hfound
      cases hfound
  · rw [walkExtensions, run_extensionStep htype hcontent hfirst hmem hello.extensions_nodup hfuel.le
      h]

theorem clientHelloAt_tail {hello : ClientHello} (h : data.drop pos = hello.sessionId ++ hello.tail)
    (hsession : ClientHello.BeginsWithLength hello.sessionId) :
    ∃ pos', pos' ≤ data.length ∧
      data.drop pos' = hello.extensions.flatMap encode ++ [] ∧
      clientHelloAt data pos = walkExtensions data data.length pos' := by
  obtain ⟨htwo, hlength⟩ := hsession
  obtain ⟨hi, lo, id, hid⟩ : ∃ hi lo id, hello.sessionId = hi :: lo :: id := by
    match hello.sessionId, htwo with
    | hi :: lo :: id, _ => exact ⟨hi, lo, id, rfl⟩
  have hword : wordAt data pos = .ok (ofBe [hi, lo]) := by
    rw [hid] at h
    exact wordAt_of_drop h
  have hskip : hello.sessionId.length = 2 + ofBe [hi, lo] := by
    rw [← hlength, hid, Nat.add_comm]
    rfl
  rw [clientHelloAt, skipLong_eq h hword hskip]
  have hsuites := drop_add _ h rfl
  rw [ClientHello.tail] at hsuites
  generalize pos + hello.sessionId.length = pos at hsuites ⊢
  have hsuitesLen := wordAt_toBe hello.cipherSuites_fits hsuites
  rw [← append_assoc] at hsuites
  rw [skipLong_eq hsuites hsuitesLen (by simp)]
  have hmethods := drop_add _ hsuites rfl
  rw [← cons_append] at hmethods
  generalize pos + (toBe 2 hello.cipherSuites.length ++ hello.cipherSuites).length = pos
    at hmethods ⊢
  rw [skipShort_eq hello.compressionMethods_fits hmethods]
  have hwire := drop_add _ hmethods rfl
  generalize pos + (hello.compressionMethods.length + 1) = pos at hwire ⊢
  have hlen := length_sub_of_drop hwire
  rw [length_toBe] at hlen
  refine ⟨pos + 2, by omega, ?_, ?_⟩
  · rw [append_nil]
    exact drop_add _ hwire (length_toBe ..)
  · rw [extensions, if_neg (by omega), wordAt_toBe hello.extensions_fits hwire]
    show walkExtensions data (pos + 2 + _) (pos + 2) = _
    congr 1
    omega

theorem tlsSni_eq (hlong : 5 < data.length) (hrecord : byteAt data 0 = .ok 0x16)
    (hmessage : byteAt data 5 = .ok 0x01) : tlsSni data = clientHelloAt data 44 := by
  have hmore : ¬data.length ≤ 5 := by omega
  rw [tlsSni, if_neg (by omega), hrecord]
  simp only [bind, Except.bind, ne_eq, not_true_eq_false, if_false, if_neg hmore, hmessage]

theorem ClientHello.drop_encode (hello : ClientHello) :
    hello.encode.drop 5 = 0x01 :: (toBe 3 hello.body.length ++ hello.body) ∧
      hello.encode.drop 44 = hello.sessionId ++ hello.tail := by
  have hfive : hello.encode.drop 5 = 0x01 :: (toBe 3 hello.body.length ++ hello.body) := by
    have h : hello.encode.drop 0 = (0x16 :: (hello.recordVersion.val ++
        toBe 2 hello.handshake.length)) ++ hello.handshake := by
      simp [encode]
    exact drop_add (n := 5) _ h (by simp [hello.recordVersion.property])
  refine ⟨hfive, ?_⟩
  have h : hello.encode.drop 5 = (0x01 :: (toBe 3 hello.body.length ++ (hello.version.val ++
      (hello.random.val ++ [ofNat hello.sessionId.length])))) ++
      (hello.sessionId ++ hello.tail) := by
    rw [hfive, body]
    simp
  exact drop_add (n := 39) _ h (by simp [hello.version.property, hello.random.property])

/-- **The name of a record is found** if its session id begins with its own length less two and the
host name is the first entry of the `server_name` extension; of the records with such a session id,
in no others. And for any bytes whatsoever no byte outside of them is read. -/
theorem tlsSni_clientHello (data : Bytes) (hello : ClientHello) (names : List ServerName)
    (first : ServerName) (h : String) :
    (∃ name, tlsSni data = .ok name) ∧
      (hello.Names (first :: names) h → ClientHello.BeginsWithLength hello.sessionId →
        (tlsSni hello.encode = .ok (some h) ↔ first.IsHostName h)) := by
  refine ⟨tlsSni_returns data, fun hnames hsession => ?_⟩
  obtain ⟨hfive, htail⟩ := hello.drop_encode
  have hlong : 5 < hello.encode.length := by
    have hlen := congrArg List.length hfive
    rw [length_drop, length_cons] at hlen
    omega
  rw [tlsSni_eq hlong rfl (byteAt_of_drop hfive)]
  obtain ⟨pos, hpos, hdrop, hwalk⟩ := clientHelloAt_tail htail hsession
  rw [hwalk]
  exact walkExtensions_iff hpos hdrop hnames

/-! ### Records that are read, and records that are not -/

def hostEntry : ServerName := ⟨0, utf8 "a.com", by decide, by decide⟩

def otherEntry : ServerName := ⟨1, [0], by decide, by decide⟩

def sampleExtensions (names : List ServerName) (hnames : (encodeNames names).length < 256) :
    List Extension :=
  [⟨10, [0, 2, 0, 29], by decide⟩, ⟨0, encodeNames names, by omega⟩]

def sampleHello (sessionId : Bytes) (names : List ServerName) (hid : sessionId.length ≤ 32)
    (hnames : (encodeNames names).length < 256) : ClientHello where
  recordVersion := ⟨[3, 1], rfl⟩
  version := ⟨[3, 3], rfl⟩
  random := ⟨List.replicate 32 7, rfl⟩
  sessionId := sessionId
  cipherSuites := [0x13, 0x01]
  compressionMethods := [0]
  extensions := sampleExtensions names hnames
  sessionId_le := hid
  cipherSuites_even := by decide
  cipherSuites_pos := by decide
  cipherSuites_fits := by decide
  compressionMethods_pos := by decide
  compressionMethods_fits := by decide
  extensions_fits := by
    simp only [sampleExtensions, flatMap_cons, flatMap_nil, length_append,
      length_encode, length_cons, length_nil]
    omega
  extensions_nodup := by
    show [(10 : UInt16), 0].Nodup
    decide

def thirty : Bytes := 0 :: 30 :: List.replicate 30 7

def emptyId : ClientHello := sampleHello [] [hostEntry] (by decide) (by decide)

def plainId : ClientHello := sampleHello (List.replicate 32 7) [hostEntry] (by decide) (by decide)

def thirtyId : ClientHello := sampleHello thirty [hostEntry] (by decide) (by decide)

def otherFirst : ClientHello := sampleHello thirty [otherEntry, hostEntry] (by decide) (by decide)

theorem sampleHello_names {sessionId : Bytes} (hid : sessionId.length ≤ 32)
    (hnames : (encodeNames names).length < 256) (hnodup : (names.map ServerName.nameType).Nodup)
    (hmem : hostEntry ∈ names) : (sampleHello sessionId names hid hnames).Names names "a.com" := by
  refine ⟨?_, ⟨hnodup, _, mem_cons_of_mem _ (mem_singleton_self _), rfl, rfl⟩,
    hostEntry, hmem, rfl, rfl⟩
  simp [ClientHello.encode, ClientHello.handshake, ClientHello.body, ClientHello.tail, sampleHello,
    sampleExtensions, length_encode, maxSniff]
  omega

theorem tlsSni_clientHello_thirty :
    thirtyId.Names [hostEntry] "a.com" ∧ ClientHello.BeginsWithLength thirtyId.sessionId ∧
      hostEntry.IsHostName "a.com" ∧ tlsSni thirtyId.encode = .ok (some "a.com") := by
  have hnames : thirtyId.Names [hostEntry] "a.com" :=
    sampleHello_names _ _ (by decide) (mem_singleton_self _)
  have hhost : hostEntry.IsHostName "a.com" := ⟨rfl, rfl⟩
  have hsession : ClientHello.BeginsWithLength thirtyId.sessionId := by
    constructor <;> decide
  exact ⟨hnames, hsession, hhost,
    ((tlsSni_clientHello [] thirtyId [] hostEntry "a.com").2 hnames hsession).2 hhost⟩

/-- **Ordinary records are not read**: without a session id, with one of 32 arbitrary bytes, and
with an entry of another type in front of the host name. -/
theorem tlsSni_missed :
    (emptyId.Names [hostEntry] "a.com" ∧ tlsSni emptyId.encode = .ok none) ∧
      (plainId.Names [hostEntry] "a.com" ∧ tlsSni plainId.encode = .ok none) ∧
        otherFirst.Names [otherEntry, hostEntry] "a.com" ∧
          tlsSni otherFirst.encode = .ok none := by
  refine ⟨⟨?_, by decide +kernel⟩, ⟨?_, by decide +kernel⟩, ?_, by decide +kernel⟩
  all_goals exact sampleHello_names _ _ (by decide) (by decide)

end Blackwire.Sniff
