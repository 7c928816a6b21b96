import Blackwire.App.HttpHost
import Blackwire.Common.Relay
import Blackwire.Config.Schema
import Blackwire.Lib.BufReader

/-!
# The HTTPUpgrade transport

`httpupgrade.rs`: a request and a `101` response, behind which the connection is a raw tunnel.  The
server reads the request line by line through a buffer and gives back what the buffer holds beyond
it; the client takes whatever its first read of 4096 bytes returns for the response, and throws all
of it away.
-/

namespace Blackwire.HttpUpgrade

open AsyncIO AsyncIO.AsyncRead AsyncIO.ReadM Schema Sniff List Bytes

/-! ### The model -/

def maxHeaderBytes : ℕ := 8192

def eqIgnoreAsciiCase (a b : Bytes) : Bool := a.map asciiLower = b.map asciiLower

def text (bs : Bytes) : String := (fromUtf8 bs).getD ""

variable (settings : StreamSettingsConfig) (destDomain : String)

def httpupgradePathHost : String × String :=
  let cfg := settings.httpupgradeSettings.or settings.wsSettings
  let path := (cfg.map fun c => c.path).getD "/"
  let header := cfg.bind fun c =>
    (c.headers.find? fun entry => eqIgnoreAsciiCase (utf8 entry.1) (utf8 "host")).map
      fun entry => entry.2
  let serverName := (settings.tlsSettings.map fun t => t.serverName).filter fun s => s ≠ ""
  (path, (header.or serverName).getD destDomain)

def upgradeRequest (path host : String) : Bytes :=
  utf8 ("GET " ++ path ++ " HTTP/1.1\r\nHost: " ++ host ++
    "\r\nConnection: Upgrade\r\nUpgrade: websocket\r\n\r\n")

def upgradeResponse : Bytes :=
  utf8
    "HTTP/1.1 101 Switching Protocols\r\nConnection: upgrade\r\nUpgrade: websocket\r\n\r\n"

def switches (response : Bytes) : Bool :=
  (utf8 "HTTP/1.1 101").isPrefixOf response || (utf8 "HTTP/1.0 101").isPrefixOf response

section Sides

variable {σ : Type} [AsyncRead σ] (line : Bytes) (expectedPath : Option String)

def checkResponse (buf : Bytes) : Except ProxyError Unit :=
  if (fromUtf8 buf).isNone then .error (.protocol "HTTPUpgrade response not UTF-8")
  else if switches buf then .ok ()
  else .error (.protocol ("HTTPUpgrade expected 101, got: " ++ text ((lines buf).headD [])))

def dialHttpupgrade (connect : Except ProxyError σ) (send : Bytes → Except ProxyError Unit)
    (destDomain : String) (settings : StreamSettingsConfig) : Except ProxyError σ := do
  let (path, host) := httpupgradePathHost settings destDomain
  let stream ← connect
  send (upgradeRequest path host)
  match readSome false 4096 stream with
  | (.error e, _) => .error (FromIo.ofIo e)
  | (.ok buf, stream) => do
    checkResponse buf
    pure stream

def readLine : ReadM (BufReader σ) ProxyError Bytes := fun timed r =>
  match r.readUntil 10 timed with
  | (.error e, r) => (.error (FromIo.ofIo e), r)
  | (.ok line, r) =>
    if (fromUtf8 line).isSome then (.ok line, r) else (.error (.io .invalidData), r)

def splitOnce (sep : UInt8) (bs : Bytes) : Bytes × Option Bytes :=
  (bs.takeWhile (· ≠ sep), if sep ∈ bs then some (bs.dropWhile (· ≠ sep)).tail else none)

def parseGetLine : Except ProxyError (Bytes × Bytes) :=
  let (method, rest) := splitOnce 32 line
  let (path, version) := rest.elim ([], none) (splitOnce 32)
  if path = [] then .error (.protocol "HTTPUpgrade: missing path")
  else if version.isNone then .error (.protocol "HTTPUpgrade: missing HTTP version")
  else .ok (method, path)

def checkPath (path : Bytes) : Except ProxyError Unit :=
  expectedPath.elim (.ok ()) fun want =>
    let got := path.takeWhile (· ≠ 63)
    let wantBase := (utf8 want).takeWhile (· ≠ 63)
    if got = wantBase then .ok ()
    else
      .error (.protocol ("HTTPUpgrade: path mismatch (got '" ++ text got ++ "', want '" ++
        text wantBase ++ "')"))

def IsBlank : Prop := line = [13, 10] ∨ line = [10]

instance IsBlank.decidable : Decidable (IsBlank line) :=
  inferInstanceAs (Decidable (line = [13, 10] ∨ line = [10]))

def isUpgrade : Bool := (utf8 "upgrade:").isPrefixOf (line.map asciiLower)

def readHeaders : ℕ → ℕ → Bool → ReadM (BufReader σ) ProxyError Bool
  | 0, _, _ => ReadM.fail (.protocol "HTTPUpgrade: headers too large")
  | fuel + 1, total, hasUpgrade => do
    let line ← readLine
    if line = [] then ReadM.fail (.protocol "HTTPUpgrade: unexpected EOF in headers")
    else if total + line.length > maxHeaderBytes then
      ReadM.fail (.protocol "HTTPUpgrade: headers too large")
    else if IsBlank line then pure hasUpgrade
    else readHeaders fuel (total + line.length) (hasUpgrade || isUpgrade line)

def checkUpgrade (method : Bytes) (hasUpgrade : Bool) : Except ProxyError Unit :=
  if !eqIgnoreAsciiCase method (utf8 "GET") then
    .error (.protocol ("HTTPUpgrade: expected GET, got '" ++ text method ++ "'"))
  else if !hasUpgrade then .error (.protocol "HTTPUpgrade: missing Upgrade header")
  else .ok ()

def readRequest : ReadM (BufReader σ) ProxyError Unit := do
  let firstLine ← readLine
  if firstLine = [] then ReadM.fail (.protocol "HTTPUpgrade: unexpected EOF")
  else do
    let (method, path) ← ofExcept (parseGetLine (trim firstLine))
    ofExcept (checkPath expectedPath path)
    let hasUpgrade ← readHeaders (maxHeaderBytes + 1) firstLine.length false
    ofExcept (checkUpgrade method hasUpgrade)

def acceptHttpupgrade (send : Bytes → Except ProxyError Unit) (stream : σ)
    (expectedPath : Option String) : Except ProxyError (σ ⊕ PrependedStream σ) :=
  match readRequest expectedPath false (BufReader.new stream) with
  | (.error e, _) => .error e
  | (.ok (), reader) => do
    send upgradeResponse
    pure (if reader.buffer = [] then .inl reader.inner
      else .inr (PrependedStream.new reader.inner reader.buffer))

end Sides

/-! ### Heads -/

abbrev Line := {bs : Bytes // ∃ body, bs = body ++ [10] ∧ 10 ∉ body}

/-- The head of a request or of a response: a first line, header lines, and a blank line. -/
structure Head where
  first : Line
  fields : List Line
  blank : Line
  fields_ne : ∀ field ∈ fields, ¬ IsBlank field.val
  blank_eq : IsBlank blank.val

def joined (ls : List Line) : Bytes := ls.flatMap Subtype.val

def Head.bytes (head : Head) : Bytes := head.first.val ++ (joined head.fields ++ head.blank.val)

section Reading

variable {σ : Type} [AsyncRead σ] (line : Line) (tail : Bytes) {r : BufReader σ}

theorem through_line : BufReader.through 10 (line.val ++ tail) = line.val := by
  obtain ⟨body, hline, hbody⟩ := line.property
  rw [hline, append_assoc, BufReader.through_append_of_notMem hbody]
  rfl

theorem Line.ne_nil : line.val ≠ [] := by
  obtain ⟨body, hline, -⟩ := line.property
  rw [hline]
  simp

theorem readLine_line (h : r.contents = line.val ++ tail) :
    ∃ r', r'.contents = tail ∧
      readLine false r = (if (fromUtf8 line.val).isSome then .ok line.val
        else .error (.io .invalidData), r') := by
  obtain ⟨r', hread, hrest⟩ := r.readUntil_ok 10
  rw [h, through_line] at hread hrest
  refine ⟨r', append_cancel_left hrest, ?_⟩
  unfold readLine
  rw [hread]
  dsimp only
  split_ifs <;> rfl

theorem readHeaders_line (fuel total : ℕ) (up : Bool) (h : r.contents = line.val ++ tail) :
    ∃ r', r'.contents = tail ∧ readHeaders (fuel + 1) total up false r =
      if (fromUtf8 line.val).isSome then
        if total + line.val.length > maxHeaderBytes then
          (.error (.protocol "HTTPUpgrade: headers too large"), r')
        else if IsBlank line.val then (.ok up, r')
        else readHeaders fuel (total + line.val.length) (up || isUpgrade line.val) false r'
      else (.error (.io .invalidData), r') := by
  obtain ⟨r', hrest, hline⟩ := readLine_line line tail h
  refine ⟨r', hrest, ?_⟩
  rw [readHeaders]
  by_cases hutf8 : (fromUtf8 line.val).isSome
  · rw [if_pos hutf8] at hline ⊢
    rw [bind_ok hline, if_neg (Line.ne_nil line)]
    split_ifs <;> rfl
  · rw [if_neg hutf8] at hline ⊢
    rw [bind_error hline]

theorem readHeaders_rest {fields : List Line} {blank : Line}
    (hfields : ∀ field ∈ fields, ¬ IsBlank field.val) (hblank : IsBlank blank.val) {tail : Bytes}
    {fuel total : ℕ} {up found : Bool} {r' : BufReader σ}
    (h : r.contents = joined fields ++ (blank.val ++ tail))
    (hread : readHeaders fuel total up false r = (.ok found, r')) : r'.contents = tail := by
  induction fuel generalizing fields total up r with
  | zero => cases hread
  | succ fuel ih =>
    cases fields with
    | nil =>
      obtain ⟨r₁, hrest, hround⟩ := readHeaders_line blank tail fuel total up h
      rw [hround] at hread
      split_ifs at hread
      · cases hread
      · obtain ⟨-, rfl⟩ := Prod.mk.inj hread
        exact hrest
      · cases hread
    | cons field fields =>
      have hsplit : r.contents = field.val ++ (joined fields ++ (blank.val ++ tail)) := by
        rw [h, joined, flatMap_cons, append_assoc]
        rfl
      obtain ⟨r₁, hrest, hround⟩ := readHeaders_line field _ fuel total up hsplit
      rw [hround, if_neg (hfields field mem_cons_self)] at hread
      split_ifs at hread
      · cases hread
      · exact ih (fun f hf => hfields f (mem_cons_of_mem _ hf)) hrest hread
      · cases hread

theorem readHeaders_ok {fields : List Line} {blank : Line}
    (hfields : ∀ field ∈ fields, ¬ IsBlank field.val ∧ (fromUtf8 field.val).isSome)
    (hblank : IsBlank blank.val) {tail : Bytes} {fuel total : ℕ} (up : Bool)
    (h : r.contents = joined fields ++ (blank.val ++ tail)) (hfuel : fields.length < fuel)
    (htotal : total + (joined fields ++ blank.val).length ≤ maxHeaderBytes) :
    ∃ r', readHeaders fuel total up false r =
      (.ok (up || fields.any fun field => isUpgrade field.val), r') := by
  induction fields generalizing fuel total up r with
  | nil =>
    obtain ⟨fuel, rfl⟩ : ∃ n, fuel = n + 1 := ⟨fuel - 1, by omega⟩
    obtain ⟨r₁, -, hround⟩ := readHeaders_line blank tail fuel total up h
    have hutf8 : (fromUtf8 blank.val).isSome := by rcases hblank with hb | hb <;> rw [hb] <;> decide
    rw [hround, if_pos hutf8, if_neg (by simpa [joined] using htotal), if_pos hblank]
    simp
  | cons field fields ih =>
    obtain ⟨fuel, rfl⟩ : ∃ n, fuel = n + 1 := ⟨fuel - 1, by omega⟩
    have hjoined : joined (field :: fields) = field.val ++ joined fields := rfl
    obtain ⟨hne, hutf8⟩ := hfields field mem_cons_self
    rw [hjoined, append_assoc] at h htotal
    rw [length_append] at htotal
    obtain ⟨r₁, hrest, hround⟩ := readHeaders_line field _ fuel total up h
    rw [hround, if_pos hutf8, if_neg (by omega), if_neg hne]
    have htotal' : total + field.val.length + (joined fields ++ blank.val).length ≤
        maxHeaderBytes := by omega
    obtain ⟨r', hr'⟩ := ih (fun f hf => hfields f (mem_cons_of_mem _ hf))
      (up || isUpgrade field.val) hrest (by simpa using hfuel) htotal'
    exact ⟨r', by rw [hr', any_cons, Bool.or_assoc]⟩

end Reading

/-! ### The server's side -/

structure Acceptable (expectedPath : Option String) (head : Head) : Prop where
  utf8 : (Bytes.fromUtf8 head.first.val).isSome ∧
    ∀ field ∈ head.fields, (Bytes.fromUtf8 field.val).isSome
  length : head.bytes.length ≤ maxHeaderBytes
  line : ∃ method path, parseGetLine (trim head.first.val) = .ok (method, path) ∧
    checkPath expectedPath path = .ok () ∧ eqIgnoreAsciiCase method (Bytes.utf8 "GET") = true
  upgrade : ∃ field ∈ head.fields, isUpgrade field.val = true

section Accept

variable {σ : Type} [AsyncRead σ] {expectedPath : Option String} {tail : Bytes} {head : Head}
  {send : Bytes → Except ProxyError Unit}

theorem readRequest_rest {r r' : BufReader σ} (h : r.contents = head.bytes ++ tail)
    (hread : readRequest expectedPath false r = (.ok (), r')) : r'.contents = tail := by
  rw [Head.bytes, append_assoc, append_assoc] at h
  obtain ⟨first, r₁, hfirst, hread⟩ := of_bind_ok hread
  obtain ⟨r₂, hrest, hline⟩ := readLine_line head.first _ h
  obtain ⟨-, rfl⟩ := Prod.mk.inj (hfirst.symm.trans hline)
  split_ifs at hread with hempty
  · cases hread
  · obtain ⟨_, _, hparse, hread⟩ := of_bind_ok hread
    obtain ⟨-, rfl⟩ := Prod.mk.inj hparse
    obtain ⟨_, _, hpath, hread⟩ := of_bind_ok hread
    obtain ⟨-, rfl⟩ := Prod.mk.inj hpath
    obtain ⟨_, _, hheaders, hread⟩ := of_bind_ok hread
    obtain ⟨-, rfl⟩ := Prod.mk.inj hread
    exact readHeaders_rest head.fields_ne head.blank_eq hrest hheaders

theorem length_le_joined (ls : List Line) : ls.length ≤ (joined ls).length :=
  length_le_flatMap Line.ne_nil ls

theorem readRequest_ok {r : BufReader σ} (h : r.contents = head.bytes ++ tail)
    (hhead : Acceptable expectedPath head) :
    ∃ r', readRequest expectedPath false r = (.ok (), r') := by
  obtain ⟨method, path, hparse, hpath, hget⟩ := hhead.line
  have hlength := hhead.length
  rw [Head.bytes, length_append] at hlength
  rw [Head.bytes, append_assoc, append_assoc] at h
  obtain ⟨r₁, hrest, hline⟩ := readLine_line head.first _ h
  rw [if_pos hhead.utf8.1] at hline
  have hfields : ∀ field ∈ head.fields,
      ¬ IsBlank field.val ∧ (fromUtf8 field.val).isSome :=
    fun field hmem => ⟨head.fields_ne field hmem, hhead.utf8.2 field hmem⟩
  have hfew : head.fields.length < maxHeaderBytes + 1 := by
    have hle := length_le_joined head.fields
    rw [length_append] at hlength
    omega
  obtain ⟨r', hheaders⟩ := readHeaders_ok hfields head.blank_eq false hrest hfew hlength
  have hup : head.fields.any (fun field => isUpgrade field.val) = true := by
    simpa using hhead.upgrade
  refine ⟨r', ?_⟩
  unfold readRequest
  rw [bind_ok hline, if_neg (Line.ne_nil head.first), hparse, ofExcept_ok_bind]
  dsimp only
  rw [hpath, ofExcept_ok_bind, bind_ok hheaders, hup, checkUpgrade, hget]
  rfl

/-- **The server's stream.**  However the request and what follows it are cut into reads, the stream
that the server goes on with yields what follows the request. -/
theorem acceptHttpupgrade_rest {stream : σ} (h : rest stream = head.bytes ++ tail)
    {upgraded : σ ⊕ PrependedStream σ}
    (haccept : acceptHttpupgrade send stream expectedPath = .ok upgraded) :
    rest upgraded = tail := by
  unfold acceptHttpupgrade at haccept
  rcases hread : readRequest expectedPath false (BufReader.new stream) with ⟨_ | _, reader⟩
  · rw [hread] at haccept
    cases haccept
  · rw [hread] at haccept
    obtain ⟨_, -, hupgraded⟩ := bind_eq_ok.1 haccept
    have hrest : reader.contents = tail := readRequest_rest (r := BufReader.new stream) h hread
    obtain rfl := Except.ok.inj hupgraded
    split_ifs with hempty
    · rw [← hrest, BufReader.contents, hempty]
      rfl
    · rw [← hrest]
      rfl

theorem acceptHttpupgrade_ok {stream : σ} (h : rest stream = head.bytes ++ tail)
    (hhead : Acceptable expectedPath head) (hsend : send upgradeResponse = .ok ()) :
    ∃ upgraded, acceptHttpupgrade send stream expectedPath = .ok upgraded := by
  obtain ⟨reader, hread⟩ := readRequest_ok (r := BufReader.new stream) h hhead
  unfold acceptHttpupgrade
  rw [hread, hsend]
  exact ⟨_, rfl⟩

end Accept

/-! ### The client's side -/

def firstSegment : Source → Bytes
  | [] => []
  | .pending _ :: s => firstSegment s
  | .data seg :: _ => seg.val

theorem readSomeAux_source (n : ℕ) {fuel : ℕ} {source : Source} (hf : stalls source < fuel) :
    ∃ s', readSomeAux false n fuel source = (.ok ((firstSegment source).take n), s') := by
  induction fuel generalizing source with
  | zero => omega
  | succ fuel ih =>
    rcases source with _ | ⟨_ | seg, source⟩
    · exact ⟨[], by simp [readSomeAux, pollRead, Source.pollRead, firstSegment]⟩
    · have hf' : stalls source < fuel := by simpa [stalls, Source.stalls] using hf
      obtain ⟨s', hs'⟩ := ih hf'
      exact ⟨s', by simpa [readSomeAux, pollRead, Source.pollRead, firstSegment] using hs'⟩
    · by_cases hlong : n < seg.val.length
      · exact ⟨_, by simp [readSomeAux, pollRead, Source.pollRead, firstSegment, hlong]; rfl⟩
      · simp [readSomeAux, pollRead, Source.pollRead, firstSegment, hlong,
          take_of_length_le (not_lt.1 hlong)]

theorem readSome_source (n : ℕ) (source : Source) :
    ∃ s', readSome false n source = (.ok ((firstSegment source).take n), s') ∧
      rest source = (firstSegment source).take n ++ rest s' := by
  obtain ⟨s', hs'⟩ := readSomeAux_source n (Nat.lt_succ_self (stalls source))
  obtain ⟨bs, s₁, hread, hrest, -⟩ := readSome_ok n source
  obtain ⟨hbs, rfl⟩ := Prod.mk.inj (hread.symm.trans hs')
  obtain rfl := Except.ok.inj hbs
  exact ⟨s₁, hs', hrest⟩

theorem dialHttpupgrade_eq
    {send : Bytes → Except ProxyError Unit} (hsend : ∀ bs, send bs = .ok ()) (source : Source) :
    ∃ s', rest source = (firstSegment source).take 4096 ++ rest s' ∧
      dialHttpupgrade (.ok source) send destDomain settings =
        (checkResponse ((firstSegment source).take 4096)).map fun _ => s' := by
  obtain ⟨s', hread, hrest⟩ := readSome_source 4096 source
  refine ⟨s', hrest, ?_⟩
  unfold dialHttpupgrade
  simp only [bind, Except.bind, hsend, hread]
  cases checkResponse ((firstSegment source).take 4096) <;> rfl

/-- **The tunnel behind the upgrade.**  For the head of a message and the bytes behind it, in any
segmentation: the stream that `dial_httpupgrade` returns yields these bytes if and only if its first
read of at most 4096 bytes is the head, no more and no less, and then it does return a stream if the
head is that of a `101` response.  The stream that `accept_httpupgrade` returns always yields them,
and it returns one whenever the head is that of an acceptable request. -/
theorem upgraded_rest_iff
    (expectedPath : Option String) (send : Bytes → Except ProxyError Unit) (head : Head)
    (tail : Bytes) (source : Source) (hsource : rest source = head.bytes ++ tail)
    (hsend : ∀ bs, send bs = .ok ()) :
    (∀ stream, dialHttpupgrade (.ok source) send destDomain settings = .ok stream →
      (rest stream = tail ↔ (firstSegment source).take 4096 = head.bytes)) ∧
    ((firstSegment source).take 4096 = head.bytes → checkResponse head.bytes = .ok () →
      ∃ stream, dialHttpupgrade (.ok source) send destDomain settings = .ok stream) ∧
    (∀ stream, acceptHttpupgrade send source expectedPath = .ok stream → rest stream = tail) ∧
    (Acceptable expectedPath head →
      ∃ stream, acceptHttpupgrade send source expectedPath = .ok stream) := by
  obtain ⟨s', hrest, hdial⟩ := dialHttpupgrade_eq settings destDomain hsend source
  rw [hdial]
  refine ⟨?_, ?_, ?_, ?_⟩
  · intro stream hstream
    cases hcheck : checkResponse ((firstSegment source).take 4096) with
    | error e =>
      rw [hcheck] at hstream
      cases hstream
    | ok _ =>
      rw [hcheck] at hstream
      obtain rfl : s' = stream := Except.ok.inj hstream
      rw [hsource] at hrest
      constructor
      · intro htail
        rw [htail] at hrest
        exact (append_cancel_right hrest).symm
      · intro hhead
        rw [hhead] at hrest
        exact (append_cancel_left hrest).symm
  · intro hhead hcheck
    rw [hhead, hcheck]
    exact ⟨s', rfl⟩
  · intro stream hstream
    exact acceptHttpupgrade_rest hsource hstream
  · intro hhead
    exact acceptHttpupgrade_ok hsource hhead (hsend _)

/-! ### A response and a byte of the tunnel in one read -/

def lineOf (body : Bytes) (h : 10 ∉ body) : Line := ⟨body ++ [10], body, rfl, h⟩

def shortHead : Head where
  first := lineOf [72, 84, 84, 80, 47, 49, 46, 49, 32, 49, 48, 49, 13] (by decide)
  fields := []
  blank := lineOf [13] (by decide)
  fields_ne := by simp
  blank_eq := .inl rfl

def whole : Source := [.data ⟨shortHead.bytes, by decide⟩, .data ⟨[7], by decide⟩]

def coalesced : Source := [.data ⟨shortHead.bytes ++ [7], by decide⟩]

def sendAll : Bytes → Except ProxyError Unit := fun _ => .ok ()

/-- A response in a segment of its own is followed by the tunnel. -/
theorem upgraded_rest_whole :
    ∃ stream, dialHttpupgrade (.ok whole) sendAll "localhost" {} = .ok stream ∧
      rest stream = [7] := by
  obtain ⟨hiff, hok, -, -⟩ := upgraded_rest_iff {} "localhost" none sendAll shortHead [7] whole
    (by decide) fun _ => rfl
  have hfirst : (firstSegment whole).take 4096 = shortHead.bytes := by decide
  obtain ⟨stream, hstream⟩ := hok hfirst (by decide +kernel)
  exact ⟨stream, hstream, (hiff stream hstream).2 hfirst⟩

/-- A response that arrives with a byte of the tunnel swallows it. -/
theorem dialHttpupgrade_swallows :
    rest coalesced = shortHead.bytes ++ [7] ∧
      ∃ stream, dialHttpupgrade (.ok coalesced) sendAll "localhost" {} = .ok stream ∧
        rest stream ≠ [7] := by
  refine ⟨by decide, [], ?_, by decide⟩
  decide +kernel

end Blackwire.HttpUpgrade
