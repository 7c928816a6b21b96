import Blackwire.Lib.Bytes
import Mathlib.Data.List.DropRight

/-!
# The host of an HTTP request

`http_host` of `sniff.rs`: the value of the `Host` header in the first bytes of a connection.  A
`str` is modelled by its bytes; of the operations that are used here only `trim` looks at characters
that are not ASCII.
-/

namespace Blackwire.Sniff

open List Bytes

/-! ### The model -/

def splitInclusive : List UInt8 → List Bytes
  | [] => []
  | b :: bs =>
    if b = 10 then [10] :: splitInclusive bs
    else
      match splitInclusive bs with
      | [] => [[b]]
      | piece :: pieces => (b :: piece) :: pieces

def stripLineEnd (piece : Bytes) : Bytes :=
  if piece.getLast? = some 10 then
    if piece.dropLast.getLast? = some 13 then piece.dropLast.dropLast else piece.dropLast
  else piece

def lines (text : Bytes) : List Bytes := (splitInclusive text).map stripLineEnd

def asciiLower (b : UInt8) : UInt8 := if 65 ≤ b ∧ b ≤ 90 then b + 32 else b

def isWhitespace (c : Char) : Bool :=
  c.toNat = 0x20 ∨ (0x09 ≤ c.toNat ∧ c.toNat ≤ 0x0d) ∨ c.toNat = 0x85 ∨ c.toNat = 0xa0 ∨
    c.toNat = 0x1680 ∨ (0x2000 ≤ c.toNat ∧ c.toNat ≤ 0x200a) ∨ c.toNat = 0x2028 ∨
    c.toNat = 0x2029 ∨ c.toNat = 0x202f ∨ c.toNat = 0x205f ∨ c.toNat = 0x3000

def trim (text : Bytes) : Bytes :=
  (fromUtf8 text).elim text fun s =>
    utf8 (.ofList ((s.toList.dropWhile isWhitespace).rdropWhile isWhitespace))

def knownMethods : List Bytes :=
  ["GET", "POST", "PUT", "HEAD", "CONNECT"].map utf8

def scanHost : List Bytes → Option Bytes
  | [] => none
  | line :: rest =>
    if line = [] then none
    else
      let lower := line.map asciiLower
      if (utf8 "host:").isPrefixOf lower then
        let host := (trim (lower.drop 5)).takeWhile (· ≠ 58)
        if host ≠ [] then some host else scanHost rest
      else scanHost rest

def httpHost (data : Bytes) : Option Bytes :=
  if (fromUtf8 data).isNone then none
  else
    match lines data with
    | [] => none
    | first :: rest =>
      if knownMethods.any fun method => (method ++ [32]).isPrefixOf first then scanHost rest
      else none

/-! ### Requests -/

section

variable (b : UInt8)

def isDigit : Bool := 48 ≤ b ∧ b ≤ 57

def isAlpha : Bool := 65 ≤ b ∧ b ≤ 90 ∨ 97 ≤ b ∧ b ≤ 122

def isTokenByte : Bool := isAlpha b || isDigit b || b ∈ utf8 "!#$%&'*+-.^_`|~"

def isVisible : Bool := 33 ≤ b ∧ b ≤ 126

def isValueByte : Bool := b = 9 ∨ 32 ≤ b ∧ b ≠ 127

def isNameByte : Bool := isAlpha b || isDigit b || b ∈ utf8 "-._~%!$&'()*+,;="

def isIpv6Byte : Bool :=
  isDigit b || decide (65 ≤ b ∧ b ≤ 70 ∨ 97 ≤ b ∧ b ≤ 102) || b = 58 || b = 46

end

abbrev Word (p : UInt8 → Bool) := {bs : Bytes // bs ≠ [] ∧ ∀ b ∈ bs, p b}

abbrev Blanks := {bs : Bytes // ∀ b ∈ bs, b = 32 ∨ b = 9}

def crlf : Bytes := [13, 10]

structure Field where
  name : Word isTokenByte
  value : {bs : Bytes // ∀ b ∈ bs, isValueByte b}
  not_host : name.val.map asciiLower ≠ utf8 "host"

def Field.line (field : Field) : Bytes := field.name.val ++ 58 :: field.value.val

inductive HostName
  | name (bs : Word isNameByte)
  | ipv6 (bs : {bs : Bytes // 58 ∈ bs ∧ ∀ b ∈ bs, isIpv6Byte b})

def HostName.bytes : HostName → Bytes
  | .name bs => bs.val
  | .ipv6 bs => 91 :: (bs.val ++ [93])

structure Request where
  method : Word isTokenByte
  target : Word isVisible
  minor : {b : UInt8 // isDigit b}
  before : List Field
  hostName : {bs : Bytes // bs.map asciiLower = utf8 "host"}
  leading : Blanks
  host : HostName
  port : Option {bs : Bytes // ∀ b ∈ bs, isDigit b}
  trailing : Blanks
  after : List Field

namespace Request

variable (r : Request)

def portBytes : Bytes :=
  match r.port with
  | none => []
  | some digits => 58 :: digits.val

def requestLine : Bytes :=
  r.method.val ++ 32 :: (r.target.val ++ (utf8 " HTTP/1." ++ [r.minor.val]))

def hostLine : Bytes :=
  r.hostName.val ++ 58 :: (r.leading.val ++ ((r.host.bytes ++ r.portBytes) ++ r.trailing.val))

def head : Bytes :=
  (r.requestLine :: (r.before.map Field.line ++ r.hostLine :: r.after.map Field.line) ++
    [[]]).flatMap (· ++ crlf)

end Request

/-! ### Lines -/

theorem splitInclusive_line {line : Bytes} (h : 10 ∉ line) (tail : Bytes) :
    splitInclusive (line ++ (crlf ++ tail)) = (line ++ crlf) :: splitInclusive tail := by
  induction line with
  | nil => rfl
  | cons b line ih =>
    rw [mem_cons, not_or] at h
    rw [cons_append, splitInclusive, if_neg (Ne.symm h.1), ih h.2]
    rfl

theorem stripLineEnd_crlf (line : Bytes) : stripLineEnd (line ++ crlf) = line := by
  have hsplit : line ++ crlf = (line ++ [13]) ++ [10] := by rw [append_assoc]; rfl
  rw [stripLineEnd, hsplit, List.getLast?_concat, if_pos rfl, dropLast_concat,
    List.getLast?_concat, if_pos rfl, dropLast_concat]

theorem lines_append {ls : List Bytes} (h : ∀ line ∈ ls, 10 ∉ line) (tail : Bytes) :
    lines (ls.flatMap (· ++ crlf) ++ tail) = ls ++ lines tail := by
  induction ls with
  | nil => rfl
  | cons line ls ih =>
    rw [flatMap_cons, append_assoc, append_assoc, lines,
      splitInclusive_line (h line mem_cons_self), map_cons, stripLineEnd_crlf]
    exact congrArg (line :: ·) (ih fun l hl => h l (mem_cons_of_mem _ hl))

/-! ### Separators -/

theorem takeWhile_sep {sep : UInt8} {word : Bytes} (h : sep ∉ word) (tail : Bytes) :
    (word ++ sep :: tail).takeWhile (· ≠ sep) = word := by
  rw [takeWhile_append_of_pos fun b hb => ?_]
  · simp
  · exact decide_eq_true fun hsep => h (hsep ▸ hb)

theorem isPrefixOf_sep {sep : UInt8} {word first : Bytes} (hword : sep ∉ word)
    (hfirst : sep ∉ first)
    (tail : Bytes) : (word ++ [sep]).isPrefixOf (first ++ sep :: tail) ↔ word = first := by
  rw [List.isPrefixOf_iff_prefix]
  constructor
  · rintro ⟨more, h⟩
    rw [append_assoc] at h
    rw [← takeWhile_sep hword, ← takeWhile_sep hfirst]
    exact congrArg _ h
  · rintro rfl
    exact ⟨tail, by rw [append_assoc]; rfl⟩

/-! ### ASCII -/

theorem forall_byte {p : UInt8 → Prop} (h : ∀ n : Fin 256, p (.ofFin n)) (b : UInt8) : p b :=
  h b.toFin

def asciiChar (b : UInt8) : Char := Char.ofNat b.toNat

theorem utf8EncodeChar_asciiChar : ∀ b : UInt8, b < 128 →
    String.utf8EncodeChar (asciiChar b) = [b] := forall_byte (by decide +kernel)

theorem isVisible_ascii : ∀ b : UInt8, isVisible b → b < 128 ∧ isWhitespace (asciiChar b) = false :=
  forall_byte (by decide +kernel)

section

variable (b : UInt8)
include b

theorem isVisible_asciiLower (h : isVisible b) : isVisible (asciiLower b) := by
  grind [isVisible, asciiLower]

theorem isVisible_ne (h : isVisible b) : b ≠ 10 ∧ b ≠ 32 := by
  grind [isVisible]

theorem isDigit_visible (h : isDigit b) : isVisible b := by
  grind [isVisible, isDigit]

theorem isAlphanumeric_visible (h : (isAlpha b || isDigit b) = true) :
    isVisible b ∧ b ≠ 58 ∧ asciiLower b ≠ 58 := by
  grind [isAlpha, isDigit, isVisible, asciiLower]

theorem isNameByte_visible (h : isNameByte b) : isVisible b ∧ b ≠ 58 ∧ asciiLower b ≠ 58 := by
  have hmark : ∀ b ∈ utf8 "-._~%!$&'()*+,;=",
      isVisible b ∧ b ≠ 58 ∧ asciiLower b ≠ 58 := by decide +kernel
  rw [isNameByte, Bool.or_eq_true, decide_eq_true_eq] at h
  exact h.elim (isAlphanumeric_visible b) (hmark b)

theorem isTokenByte_visible (h : isTokenByte b) : isVisible b ∧ asciiLower b ≠ 58 := by
  have hmark : ∀ b ∈ utf8 "!#$%&'*+-.^_`|~", isVisible b ∧ asciiLower b ≠ 58 := by decide +kernel
  rw [isTokenByte, Bool.or_eq_true, decide_eq_true_eq] at h
  exact h.elim (fun h => (isAlphanumeric_visible b h).imp_right And.right) (hmark b)

theorem isIpv6Byte_visible (h : isIpv6Byte b) : isVisible b := by
  grind [isVisible, isIpv6Byte, isDigit]

theorem isValueByte_ne (h : isValueByte b) : b ≠ 10 := by
  grind [isValueByte]

theorem isWhitespace_blank (h : b = 32 ∨ b = 9) :
    b < 128 ∧ isWhitespace (asciiChar b) = true ∧ asciiLower b = b := by
  obtain rfl | rfl := h <;> decide

end

theorem utf8_ascii {bs : Bytes} (h : ∀ b ∈ bs, b < 128) :
    utf8 (.ofList (bs.map asciiChar)) = bs := by
  have hflat : (bs.map asciiChar).flatMap String.utf8EncodeChar = bs := by
    induction bs with
    | nil => rfl
    | cons b bs ih =>
      rw [map_cons, flatMap_cons, utf8EncodeChar_asciiChar b (h b mem_cons_self),
        ih fun b hb => h b (mem_cons_of_mem _ hb)]
      rfl
  rw [utf8, String.toByteArray_ofList, List.utf8Encode, hflat]
  simp

theorem dropWhile_word {α : Type} {p : α → Bool} {word : List α} (hne : word ≠ [])
    (h : ∀ a ∈ word, p a = false) (tail : List α) : (word ++ tail).dropWhile p = word ++ tail := by
  cases word with
  | nil => exact absurd rfl hne
  | cons a word => rw [cons_append, dropWhile_cons_of_neg (by simp [h a mem_cons_self])]

theorem rdropWhile_dropWhile {α : Type} {p : α → Bool} {leading word trailing : List α}
    (hleading : ∀ a ∈ leading, p a) (hne : word ≠ []) (hword : ∀ a ∈ word, p a = false)
    (htrailing : ∀ a ∈ trailing, p a) :
    ((leading ++ (word ++ trailing)).dropWhile p).rdropWhile p = word := by
  have hback := dropWhile_word (reverse_ne_nil_iff.2 hne)
    (fun a ha => hword a (mem_reverse.1 ha)) []
  rw [append_nil] at hback
  rw [dropWhile_append_of_pos hleading, dropWhile_word hne hword, List.rdropWhile, reverse_append,
    dropWhile_append_of_pos fun a ha => htrailing a (mem_reverse.1 ha),
    hback, reverse_reverse]

theorem trim_blanks (leading trailing : Blanks) (word : Word isVisible) :
    trim (leading.val ++ (word.val ++ trailing.val)) = word.val := by
  have hword : ∀ b ∈ word.val, b < 128 ∧ isWhitespace (asciiChar b) = false := fun b hb =>
    isVisible_ascii b (word.property.2 b hb)
  have hblank (blanks : Blanks) : ∀ b ∈ blanks.val,
      b < 128 ∧ isWhitespace (asciiChar b) = true := fun b hb =>
    ⟨(isWhitespace_blank b (blanks.property b hb)).1,
      (isWhitespace_blank b (blanks.property b hb)).2.1⟩
  have hascii : ∀ b ∈ leading.val ++ (word.val ++ trailing.val), b < 128 := by
    intro b hb
    rw [mem_append, mem_append] at hb
    obtain hb | hb | hb := hb
    · exact (hblank leading b hb).1
    · exact (hword b hb).1
    · exact (hblank trailing b hb).1
  have hspaces (blanks : Blanks) : ∀ c ∈ blanks.val.map asciiChar, isWhitespace c = true := by
    intro c hc
    obtain ⟨b, hb, rfl⟩ := mem_map.1 hc
    exact (hblank blanks b hb).2
  have hchars : ∀ c ∈ word.val.map asciiChar, isWhitespace c = false := by
    intro c hc
    obtain ⟨b, hb, rfl⟩ := mem_map.1 hc
    exact (hword b hb).2
  have hne : word.val.map asciiChar ≠ [] := fun h => word.property.1 (map_eq_nil_iff.1 h)
  have hdecode : fromUtf8 (leading.val ++ (word.val ++ trailing.val)) =
      some (.ofList ((leading.val ++ (word.val ++ trailing.val)).map asciiChar)) := by
    rw [← utf8_ascii hascii, fromUtf8_utf8, utf8_ascii hascii]
  rw [trim, hdecode, Option.elim_some, String.toList_ofList, map_append, map_append,
    rdropWhile_dropWhile (hspaces leading) hne hchars (hspaces trailing),
    utf8_ascii fun b hb => (hword b hb).1]

/-! ### The scan -/

theorem utf8_host : utf8 "host:" = utf8 "host" ++ [58] := by decide

theorem colon_notMem_host : (58 : UInt8) ∉ utf8 "host" := by decide

theorem scanHost_field (field : Field) (rest : List Bytes) :
    scanHost (field.line :: rest) = scanHost rest := by
  have hname : (58) ∉ field.name.val.map asciiLower := by
    intro hmem
    obtain ⟨b, hb, heq⟩ := mem_map.1 hmem
    exact (isTokenByte_visible b (field.name.property.2 b hb)).2 heq
  have hlower : field.line.map asciiLower =
      field.name.val.map asciiLower ++ 58 :: field.value.val.map asciiLower := by
    rw [Field.line, map_append]
    rfl
  have hhost : ¬(utf8 "host:").isPrefixOf (field.line.map asciiLower) := by
    rw [hlower, utf8_host, isPrefixOf_sep colon_notMem_host hname]
    exact Ne.symm field.not_host
  rw [scanHost, if_neg, if_neg hhost]
  intro hnil
  exact append_ne_nil_of_right_ne_nil _ (cons_ne_nil _ _) hnil

theorem scanHost_fields (fields : List Field) (rest : List Bytes) :
    scanHost (fields.map Field.line ++ rest) = scanHost rest := by
  induction fields with
  | nil => rfl
  | cons field fields ih => rw [map_cons, cons_append, scanHost_field, ih]

namespace Request

variable (r : Request)

theorem visible_portBytes : ∀ b ∈ r.portBytes, isVisible b := by
  unfold portBytes
  split
  · intro b hb
    exact absurd hb not_mem_nil
  · rename_i digits _
    intro b hb
    obtain rfl | hb := mem_cons.1 hb
    · decide
    · exact isDigit_visible b (digits.property b hb)

theorem visible_host (host : HostName) : host.bytes ≠ [] ∧ ∀ b ∈ host.bytes, isVisible b := by
  cases host with
  | name bs => exact ⟨bs.property.1, fun b hb => (isNameByte_visible b (bs.property.2 b hb)).1⟩
  | ipv6 bs =>
    refine ⟨cons_ne_nil _ _, fun b hb => ?_⟩
    rw [HostName.bytes, mem_cons, mem_append, mem_singleton] at hb
    obtain rfl | hb | rfl := hb
    · decide
    · exact isIpv6Byte_visible b (bs.property.2 b hb)
    · decide

def lowerValue : Word isVisible :=
  ⟨(r.host.bytes ++ r.portBytes).map asciiLower, by
    obtain ⟨hne, hvisible⟩ := visible_host r.host
    constructor
    · simp [hne]
    · intro b hb
      obtain ⟨c, hc, rfl⟩ := mem_map.1 hb
      refine isVisible_asciiLower c ?_
      exact (mem_append.1 hc).elim (hvisible c) (r.visible_portBytes c)⟩

theorem lowerValue_val : r.lowerValue.val = (r.host.bytes ++ r.portBytes).map asciiLower := rfl

theorem map_asciiLower_blanks (blanks : Blanks) : blanks.val.map asciiLower = blanks.val :=
  (map_congr_left fun b hb => (isWhitespace_blank b (blanks.property b hb)).2.2).trans
    (map_id _)

theorem takeWhile_lowerValue_ne_nil : r.lowerValue.val.takeWhile (· ≠ 58) ≠ [] := by
  rw [lowerValue_val]
  cases r.host with
  | name bs =>
    obtain ⟨_ | ⟨b, bs⟩, hne, hname⟩ := bs
    · exact absurd rfl hne
    · have hb := (isNameByte_visible b (hname b mem_cons_self)).2.2
      simp [HostName.bytes, hb]
  | ipv6 bs =>
    have hbracket : asciiLower 91 ≠ 58 := by decide
    simp [HostName.bytes, hbracket]

theorem scanHost_hostLine (rest : List Bytes) :
    scanHost (r.hostLine :: rest) = some (r.lowerValue.val.takeWhile (· ≠ 58)) := by
  have hlower : r.hostLine.map asciiLower = utf8 "host:" ++
      (r.leading.val ++ (r.lowerValue.val ++ r.trailing.val)) := by
    rw [hostLine, map_append, r.hostName.property, map_cons, map_append,
      map_append, map_asciiLower_blanks, map_asciiLower_blanks]
    rfl
  have hlen : (utf8 "host:").length = 5 := by decide
  have hhost : (utf8 "host:").isPrefixOf (r.hostLine.map asciiLower) := by
    rw [hlower, isPrefixOf_iff_prefix]
    exact prefix_append _ _
  rw [scanHost, if_neg, if_pos hhost, hlower, drop_left' hlen, trim_blanks]
  · exact if_pos r.takeWhile_lowerValue_ne_nil
  · intro hnil
    exact append_ne_nil_of_right_ne_nil _ (cons_ne_nil _ _) hnil

theorem takeWhile_lowerValue_eq_iff :
    r.lowerValue.val.takeWhile (· ≠ 58) = r.host.bytes.map asciiLower ↔
      ∃ bs, r.host = .name bs := by
  cases hhost : r.host with
  | name bs =>
    refine iff_of_true ?_ ⟨bs, rfl⟩
    have hname : ∀ b ∈ bs.val.map asciiLower, decide (b ≠ 58) = true := by
      intro b hb
      obtain ⟨c, hc, rfl⟩ := mem_map.1 hb
      exact decide_eq_true (isNameByte_visible c (bs.property.2 c hc)).2.2
    have hport : (r.portBytes.map asciiLower).takeWhile (· ≠ 58) = [] := by
      unfold portBytes
      split
      · rfl
      · rfl
    rw [lowerValue_val, hhost, HostName.bytes, map_append,
      takeWhile_append_of_pos hname, hport, append_nil]
  | ipv6 bs =>
    refine iff_of_false (fun heq => ?_) fun ⟨_, h⟩ => by cases h
    -- an address has colons
    have hcolon : (58) ∈ (HostName.ipv6 bs).bytes.map asciiLower := by
      refine mem_map.2 ⟨58, ?_, by decide⟩
      exact mem_cons_of_mem _ (mem_append_left _ bs.property.1)
    rw [← heq] at hcolon
    have hne := mem_takeWhile_imp hcolon
    exact absurd rfl (of_decide_eq_true hne)

/-! ### The whole request -/

theorem lf_notMem_requestLine : 10 ∉ r.requestLine := by
  have hversion : (10) ∉ utf8 " HTTP/1." := by decide
  intro h
  simp only [requestLine, mem_append, mem_cons, not_mem_nil, or_false] at h
  obtain h | h | h | h | h := h
  · exact (isVisible_ne _ (isTokenByte_visible _ (r.method.property.2 _ h)).1).1 rfl
  · exact absurd h (by decide)
  · exact (isVisible_ne _ (r.target.property.2 _ h)).1 rfl
  · exact hversion h
  · exact (isVisible_ne _ (isDigit_visible _ (h ▸ r.minor.property))).1 rfl

theorem lf_notMem_field (field : Field) : 10 ∉ field.line := by
  intro h
  simp only [Field.line, mem_append, mem_cons] at h
  obtain h | h | h := h
  · exact (isVisible_ne _ (isTokenByte_visible _ (field.name.property.2 _ h)).1).1 rfl
  · exact absurd h (by decide)
  · exact isValueByte_ne _ (field.value.property _ h) rfl

theorem lf_notMem_blanks (blanks : Blanks) : 10 ∉ blanks.val := by
  intro h
  exact absurd (blanks.property _ h) (by decide)

theorem lf_notMem_hostLine : 10 ∉ r.hostLine := by
  have hhost : (10) ∉ utf8 "host" := by decide
  intro h
  simp only [hostLine, mem_append, mem_cons] at h
  obtain h | h | h | (h | h) | h := h
  · have hlower := mem_map_of_mem (f := asciiLower) h
    rw [r.hostName.property] at hlower
    exact hhost hlower
  · exact absurd h (by decide)
  · exact lf_notMem_blanks _ h
  · exact (isVisible_ne _ ((visible_host r.host).2 _ h)).1 rfl
  · exact (isVisible_ne _ (r.visible_portBytes _ h)).1 rfl
  · exact lf_notMem_blanks _ h

theorem lines_head (body : Bytes) :
    lines (r.head ++ body) = r.requestLine ::
      (r.before.map Field.line ++ r.hostLine :: (r.after.map Field.line ++ [] :: lines body)) := by
  rw [head, lines_append]
  · simp
  · intro line hline
    simp only [mem_append, mem_cons, mem_map, not_mem_nil, or_false, cons_append] at hline
    obtain rfl | (⟨field, -, rfl⟩ | rfl | ⟨field, -, rfl⟩) | rfl := hline
    · exact r.lf_notMem_requestLine
    · exact lf_notMem_field field
    · exact r.lf_notMem_hostLine
    · exact lf_notMem_field field
    · exact not_mem_nil

theorem known_requestLine :
    (knownMethods.any fun method => (method ++ [32]).isPrefixOf r.requestLine) = true ↔
      r.method.val ∈ knownMethods := by
  have hknown : ∀ method ∈ knownMethods, (32) ∉ method := by decide
  have hmethod : (32) ∉ r.method.val := fun h =>
    (isVisible_ne _ (isTokenByte_visible _ (r.method.property.2 _ h)).1).2 rfl
  rw [any_eq_true]
  constructor
  · rintro ⟨method, hmem, hstart⟩
    rwa [← (isPrefixOf_sep (hknown method hmem) hmethod _).1 hstart]
  · intro hmem
    exact ⟨_, hmem, (isPrefixOf_sep hmethod hmethod _).2 rfl⟩

theorem httpHost_head (body : Bytes) :
    httpHost (r.head ++ body) =
      if (fromUtf8 (r.head ++ body)).isSome ∧ r.method.val ∈ knownMethods then
        some (r.lowerValue.val.takeWhile (· ≠ 58))
      else none := by
  rw [httpHost, lines_head]
  dsimp only
  rw [scanHost_fields, scanHost_hostLine]
  by_cases hvalid : (fromUtf8 (r.head ++ body)).isSome
  · rw [if_neg (by simpa using Option.isSome_iff_ne_none.1 hvalid)]
    by_cases hmethod : r.method.val ∈ knownMethods
    · rw [if_pos (r.known_requestLine.2 hmethod), if_pos ⟨hvalid, hmethod⟩]
    · rw [if_neg (mt r.known_requestLine.1 hmethod), if_neg fun h => hmethod h.2]
  · rw [if_pos (by simpa using hvalid), if_neg fun h => hvalid h.1]

end Request

/-- **The host of an HTTP request.**  For every head of a request, in any order and spelling of its
headers, and any bytes behind it: its host is found, in lower case and without its port, if and only
if the method is one of the known ones, the host is not an IPv6 address in brackets, and all of the
bytes are valid UTF-8. -/
theorem httpHost_request_iff (r : Request) (body : Bytes) :
    httpHost (r.head ++ body) = some (r.host.bytes.map asciiLower) ↔
      r.method.val ∈ knownMethods ∧ (∃ bs, r.host = .name bs) ∧
        (fromUtf8 (r.head ++ body)).isSome := by
  rw [r.httpHost_head, ← r.takeWhile_lowerValue_eq_iff]
  split_ifs with h
  · simp [h.1, h.2]
  · refine iff_of_false (by simp) fun h' => h ⟨h'.2.2, h'.1⟩

def sampleRequest (method : Word isTokenByte) (host : HostName) : Request where
  method := method
  target := ⟨[47], by simp [isVisible]⟩
  minor := ⟨49, rfl⟩
  before := [⟨⟨[65], by simp [isTokenByte, isAlpha]⟩, ⟨[32, 49], by simp [isValueByte]⟩, by decide⟩]
  hostName := ⟨[72, 111, 115, 116], by decide⟩
  leading := ⟨[32], by simp⟩
  host := host
  port := some ⟨[56, 48], by simp [isDigit]⟩
  trailing := ⟨[], by simp⟩
  after := []

def post : Word isTokenByte := ⟨[80, 79, 83, 84], by simp [isTokenByte, isAlpha]⟩

def delete : Word isTokenByte := ⟨[68, 69, 76, 69, 84, 69], by simp [isTokenByte, isAlpha]⟩

def dotted : HostName := .name ⟨[65, 46, 98], by simp [isNameByte, isAlpha]; decide⟩

def loopback : HostName := .ipv6 ⟨[58, 58, 49], by simp [isIpv6Byte, isDigit]⟩

/-- The host of a request is found in front of nothing, and not in front of a body that is no text;
it is not found for `DELETE`, and of the address `[::1]` only the bracket is. -/
theorem httpHost_hidden :
    httpHost ((sampleRequest post dotted).head ++ []) = some [97, 46, 98] ∧
    httpHost ((sampleRequest post dotted).head ++ [0xff]) = none ∧
    httpHost ((sampleRequest delete dotted).head ++ []) = none ∧
    httpHost ((sampleRequest post loopback).head ++ []) = some [91] := by
  decide +kernel

end Blackwire.Sniff
