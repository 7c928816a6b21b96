import Blackwire.App.Routing

/-!
# The domain matchers

`DomainMatcher` of `router.rs` and `GeoSiteMatcher` of `geo/geosite.rs`: how they are built from
patterns, and the walk over the labels of a domain with which both look for a suffix.  The patterns
are brought to lower case when a matcher is built; a domain only if it has an ASCII letter in upper
case.
-/

namespace Blackwire.Routing

open List Text String

/-! ### The walk over the labels -/

/-- The loop over `lower[start..]`: the domain itself, and what stands behind each of its dots. -/
def suffixWalk (suffix : List String) : List Char → Bool
  | [] => false
  | c :: cs =>
    if suffix.contains (ofList (c :: cs)) then true
    else
      match (c :: cs).findIdx? (· == '.') with
      | some dot => suffixWalk suffix ((c :: cs).drop (dot + 1))
      | none => false
termination_by rest => rest.length

/-- A name and the names below it: `domain` is `name`, or it ends with a dot and `name`. -/
def Covers (name domain : String) : Prop :=
  domain = name ∨ '.' :: name.toList <:+ domain.toList

instance (name domain : String) : Decidable (Covers name domain) :=
  inferInstanceAs (Decidable (_ ∨ _))

theorem labelSuffixes_false (cs : List Char) :
    labelSuffixes false cs =
      match cs.findIdx? (· == '.') with
      | some dot => labelSuffixes true (cs.drop (dot + 1))
      | none => [] := by
  induction cs with
  | nil => rfl
  | cons c cs ih =>
    rw [labelSuffixes, List.findIdx?_cons]
    by_cases hdot : c == '.'
    · rw [hdot]
      rfl
    · rw [Bool.eq_false_of_not_eq_true hdot, ih]
      cases cs.findIdx? (· == '.') <;> rfl

theorem suffixWalk_eq_any (suffix : List String) (rest : List Char) :
    suffixWalk suffix rest =
      (labelSuffixes true rest).any fun s => suffix.contains (ofList s) := by
  fun_induction suffixWalk suffix rest with
  | case1 => rfl
  | case2 c cs hit => rw [labelSuffixes, any_cons, hit, Bool.true_or]
  | case3 c cs miss dot hdot ih =>
    have hnext := labelSuffixes_false (c :: cs)
    rw [hdot] at hnext
    rw [ih, labelSuffixes, any_cons, Bool.eq_false_of_not_eq_true miss]
    exact congrArg (List.any · _) hnext.symm
  | case4 c cs miss hdot =>
    have hnext := labelSuffixes_false (c :: cs)
    rw [hdot] at hnext
    rw [labelSuffixes, any_cons, Bool.eq_false_of_not_eq_true miss]
    exact congrArg (List.any · _) hnext.symm

theorem mem_labelSuffixes {s cs : List Char} {fresh : Bool} :
    s ∈ labelSuffixes fresh cs ↔ s ≠ [] ∧ (fresh = true ∧ s = cs ∨ '.' :: s <:+ cs) := by
  induction cs generalizing fresh with
  | nil =>
    have hnil : ¬ ('.' :: s <:+ []) := by simp
    rw [labelSuffixes]
    simp only [not_mem_nil, false_iff]
    rintro ⟨hne, ⟨-, rfl⟩ | hsuffix⟩
    · exact hne rfl
    · exact hnil hsuffix
  | cons c cs ih =>
    have hdot : ('.' :: s = c :: cs) ↔ (c == '.') = true ∧ s = cs := by
      rw [List.cons.injEq, beq_iff_eq, eq_comm]
    cases fresh with
    | false => simp only [labelSuffixes, ih, suffix_cons_iff, hdot, Bool.false_eq_true,
        false_and, false_or]
    | true =>
      simp only [labelSuffixes, mem_cons, ih, suffix_cons_iff, hdot, true_and]
      constructor
      · rintro (rfl | ⟨hne, hrest⟩)
        · exact ⟨cons_ne_nil _ _, .inl rfl⟩
        · exact ⟨hne, .inr hrest⟩
      · rintro ⟨hne, rfl | hrest⟩
        · exact .inl rfl
        · exact .inr ⟨hne, hrest⟩

variable {suffix : List String}

/-- **The walk.**  Among names that are not empty it finds one that covers the domain. -/
theorem suffixWalk_iff (hne : ∀ name ∈ suffix, name ≠ "") (domain : String) :
    suffixWalk suffix domain.toList = true ↔ ∃ name ∈ suffix, Covers name domain := by
  rw [suffixWalk_eq_any, any_eq_true]
  constructor
  · rintro ⟨s, hs, hmem⟩
    obtain ⟨-, hs⟩ := mem_labelSuffixes.1 hs
    refine ⟨ofList s, contains_iff_mem.1 hmem, ?_⟩
    rcases hs with ⟨-, rfl⟩ | hsuffix
    · exact .inl ofList_toList.symm
    · exact .inr (by rwa [toList_ofList])
  · rintro ⟨name, hmem, hcovers⟩
    have hnil : name.toList ≠ [] := fun h => hne name hmem (toList_eq_nil_iff.1 h)
    refine ⟨name.toList, mem_labelSuffixes.2 ⟨hnil, ?_⟩, ?_⟩
    · exact hcovers.imp (fun h => ⟨rfl, by rw [h]⟩) id
    · rw [ofList_toList]
      exact contains_iff_mem.2 hmem

/-! ### The matchers -/

/-- The automata of `aho_corasick`, with `ascii_case_insensitive`, and of `regex`: how they are
built, which may fail, and what they accept. -/
class Automata where
  ahoCorasick : List String → Option (String → Bool)
  regexOk : String → Bool
  regexSet : List String → Option (String → Bool)

/-- What is known of lower case. -/
class LawfulText [Text] : Prop where
  any_isUpper : ∀ s : String, (toLowercase s).toList.any Char.isUpper = false
  toLowercase_toLowercase : ∀ s : String, toLowercase (toLowercase s) = toLowercase s
  length_le : ∀ s : String, s.length ≤ (toLowercase s).length

open Automata

class LawfulAutomata [Automata] : Prop where
  ahoCorasick_nil : ahoCorasick [] = some fun _ => false
  regexSet_nil : regexSet [] = some fun _ => false

section

variable [Text]

inductive DomainType
  | plain
  | regex
  | domain
  | full
  deriving DecidableEq

def DomainType.tryFrom (i : Int32) : Option DomainType :=
  if i = 0 then some .plain
  else if i = 1 then some .regex
  else if i = 2 then some .domain
  else if i = 3 then some .full
  else none

structure Domain where
  type : Int32
  value : String

def Domain.kind (domain : Domain) : DomainType := (DomainType.tryFrom domain.type).getD .plain

structure Buckets where
  full : List String
  suffix : List String
  keywords : List String
  regexPatterns : List String

def Buckets.insert (buckets : Buckets) (domain : Domain) : Buckets :=
  match domain.kind with
  | .full => { buckets with full := buckets.full ++ [toLowercase domain.value] }
  | .domain => { buckets with suffix := buckets.suffix ++ [toLowercase domain.value] }
  | .plain => { buckets with keywords := buckets.keywords ++ [toLowercase domain.value] }
  | .regex => { buckets with regexPatterns := buckets.regexPatterns ++ [domain.value] }

def rootDomains (entry : List Domain) : List String :=
  (entry.filter (·.kind = .domain)).map Domain.value

theorem Buckets.suffix_foldl_insert (entry : List Domain) (buckets : Buckets) :
    (entry.foldl Buckets.insert buckets).suffix =
      buckets.suffix ++ (rootDomains entry).map toLowercase := by
  induction entry generalizing buckets with
  | nil => simp [rootDomains]
  | cons domain entry ih =>
    rw [foldl_cons, ih]
    cases hkind : domain.kind <;> simp [Buckets.insert, rootDomains, hkind]

variable [Automata]

def DomainMatcher.new (full suffix keywords regexes : List String) : Option DomainMatcher := do
  let keyword ← ahoCorasick keywords
  let regex ← regexSet regexes
  return ⟨full.map toLowercase, suffix.map toLowercase, keyword, regex⟩

/-- `GeoSiteMatcher::from_proto`, for the entries of a `GeoSite`; its country code is not looked at.
An automaton that cannot be built is replaced by one that accepts nothing, after a second try
without the regular expressions that are not valid. -/
def GeoSiteMatcher.fromProto (entry : List Domain) : GeoSiteMatcher :=
  let buckets := entry.foldl Buckets.insert ⟨[], [], [], []⟩
  let keyword := (ahoCorasick buckets.keywords).getD fun _ => false
  let regex := match regexSet buckets.regexPatterns with
    | some regex => regex
    | none => (regexSet (buckets.regexPatterns.filter regexOk)).getD fun _ => false
  ⟨buckets.full, buckets.suffix, keyword, regex⟩

def GeoSiteMatcher.fromParts (full suffix keywords regexes : List String) :
    Option GeoSiteMatcher := do
  let keyword ← ahoCorasick keywords
  let regex ← regexSet regexes
  return ⟨full.map toLowercase, suffix.map toLowercase, keyword, regex⟩

def DomainMatcher.Built (suffix : List String) (matcher : DomainMatcher) : Prop :=
  ∃ full keywords regexes, DomainMatcher.new full suffix keywords regexes = some matcher

def GeoSiteMatcher.Built (suffix : List String) (matcher : GeoSiteMatcher) : Prop :=
  (∃ entry, rootDomains entry = suffix ∧ GeoSiteMatcher.fromProto entry = matcher) ∨
    ∃ full keywords regexes, GeoSiteMatcher.fromParts full suffix keywords regexes = some matcher

theorem DomainMatcher.Built.suffix_eq {matcher : DomainMatcher} (h : matcher.Built suffix) :
    matcher.suffix = suffix.map toLowercase := by
  obtain ⟨full, keywords, regexes, h⟩ := h
  simp only [DomainMatcher.new, Option.bind_eq_bind, Option.bind_eq_some_iff] at h
  obtain ⟨keyword, -, regex, -, h⟩ := h
  rw [← Option.some.inj h]

theorem GeoSiteMatcher.Built.suffix_eq {matcher : GeoSiteMatcher} (h : matcher.Built suffix) :
    matcher.suffix = suffix.map toLowercase := by
  rcases h with ⟨entry, rfl, rfl⟩ | ⟨full, keywords, regexes, h⟩
  · exact Buckets.suffix_foldl_insert entry ⟨[], [], [], []⟩
  · simp only [GeoSiteMatcher.fromParts, Option.bind_eq_bind, Option.bind_eq_some_iff] at h
    obtain ⟨keyword, -, regex, -, h⟩ := h
    rw [← Option.some.inj h]

end

/-! ### Upper and lower case -/

section

variable [Text]

def lazyLower (domain : String) : String :=
  if domain.toList.any Char.isUpper then toLowercase domain else domain

def DomainMatcher.walk (matcher : DomainMatcher) (domain : String) : Bool :=
  suffixWalk matcher.suffix (lazyLower domain).toList

def GeoSiteMatcher.walk (matcher : GeoSiteMatcher) (domain : String) : Bool :=
  suffixWalk matcher.suffix (lazyLower domain).toList

theorem domainHit_eq (full suffix : List String) (keyword regex : String → Bool) (domain : String) :
    domainHit full suffix keyword regex domain =
      (full.contains (lazyLower domain) || suffixWalk suffix (lazyLower domain).toList ||
        keyword (lazyLower domain) || regex (lazyLower domain)) := by
  rw [suffixWalk_eq_any]
  rfl

theorem domainHit_congr {domain domain' : String} (h : lazyLower domain = lazyLower domain')
    (full suffix : List String) (keyword regex : String → Bool) :
    domainHit full suffix keyword regex domain = domainHit full suffix keyword regex domain' := by
  rw [domainHit_eq, domainHit_eq, h]

theorem lazyLower_eq_iff (domain : String) :
    lazyLower domain = toLowercase domain ↔
      domain.toList.any Char.isUpper = true ∨ toLowercase domain = domain := by
  rw [lazyLower]
  by_cases hupper : domain.toList.any Char.isUpper = true
  · simp [hupper, true_or]
  · rw [if_neg hupper]
    exact ⟨fun h => .inr h.symm, fun h => (h.resolve_left hupper).symm⟩

/-- The domain is one of the names, or lies below one. -/
def CoveredBy (patterns : List String) (domain : String) : Prop :=
  ∃ name ∈ patterns, Covers (toLowercase name) (toLowercase domain)

variable [LawfulText]

theorem toLowercase_ne_empty {s : String} (h : s ≠ "") : toLowercase s ≠ "" := by
  intro hempty
  have hlen := LawfulText.length_le s
  rw [hempty] at hlen
  exact h (length_eq_zero_iff.1 (Nat.le_zero.1 hlen))

theorem lazyLower_toLowercase (domain : String) :
    lazyLower (toLowercase domain) = toLowercase domain := by
  rw [lazyLower, LawfulText.any_isUpper]
  rfl

theorem walk_iff_coveredBy {patterns : List String} {domain : String}
    (hne : ∀ name ∈ patterns, name ≠ "") (h : lazyLower domain = toLowercase domain) :
    suffixWalk (patterns.map toLowercase) (lazyLower domain).toList = true ↔
      CoveredBy patterns domain := by
  have hlower : ∀ name ∈ patterns.map toLowercase, name ≠ "" := by
    intro name hname
    obtain ⟨pattern, hpattern, rfl⟩ := mem_map.1 hname
    exact toLowercase_ne_empty (hne pattern hpattern)
  rw [suffixWalk_iff hlower, h, CoveredBy]
  simp

variable [Automata] [LawfulAutomata]

/-- **Case.**  For a domain both matchers find the root domains that cover it, and treat it as the
same domain in lower case, exactly if it has an ASCII letter in upper case or lower case changes
nothing of it. -/
theorem domainMatchers_foldCase_iff (domain : String) :
    ((∀ patterns : List String, (∀ name ∈ patterns, name ≠ "") →
        (∀ matcher : DomainMatcher, matcher.Built patterns →
          (matcher.walk domain = true ↔ CoveredBy patterns domain)) ∧
        ∀ matcher : GeoSiteMatcher, matcher.Built patterns →
          (matcher.walk domain = true ↔ CoveredBy patterns domain)) ∧
      ∀ patterns : List String,
        (∀ matcher : DomainMatcher, matcher.Built patterns →
          matcher.matchesDomain domain = matcher.matchesDomain (toLowercase domain)) ∧
        ∀ matcher : GeoSiteMatcher, matcher.Built patterns →
          matcher.matchDomain domain = matcher.matchDomain (toLowercase domain)) ↔
      domain.toList.any Char.isUpper = true ∨ toLowercase domain = domain := by
  rw [← lazyLower_eq_iff]
  constructor
  · -- a matcher for the domain itself tells it from its lower case
    rintro ⟨-, hsame⟩
    have hbuilt : DomainMatcher.Built [] ⟨[toLowercase domain], [], fun _ => false,
        fun _ => false⟩ := by
      refine ⟨[domain], [], [], ?_⟩
      rw [DomainMatcher.new, LawfulAutomata.ahoCorasick_nil, LawfulAutomata.regexSet_nil]
      rfl
    have hsame := (hsame []).1 _ hbuilt
    simpa [DomainMatcher.matchesDomain, domainHit_eq, lazyLower_toLowercase, suffixWalk_eq_any]
      using hsame
  · intro h
    have hlazy : lazyLower domain = lazyLower (toLowercase domain) := by
      rw [h, lazyLower_toLowercase]
    refine ⟨fun patterns hne => ⟨fun matcher hbuilt => ?_, fun matcher hbuilt => ?_⟩,
      fun patterns => ⟨fun matcher _ => ?_, fun matcher _ => ?_⟩⟩
    · rw [DomainMatcher.walk, hbuilt.suffix_eq]
      exact walk_iff_coveredBy hne h
    · rw [GeoSiteMatcher.walk, hbuilt.suffix_eq]
      exact walk_iff_coveredBy hne h
    · exact domainHit_congr hlazy _ _ _ _
    · exact domainHit_congr hlazy _ _ _ _

end

/-! ### A domain that is missed -/

def accentLower (c : Char) : Char :=
  if c = 'É' then 'é' else if c.isUpper then Char.ofNat (c.toNat + 32) else c

theorem forall_isUpper (p : Char → Prop) (h : ∀ n < 26, p (Char.ofNat (65 + n))) {c : Char}
    (hc : c.isUpper = true) : p c := by
  have hrange : 65 ≤ c.toNat ∧ c.toNat ≤ 90 := of_decide_eq_true hc
  have hletter := h (c.toNat - 65) (by omega)
  rwa [Nat.add_sub_cancel' hrange.1, Char.ofNat_toNat] at hletter

theorem isUpper_accentLower (c : Char) : (accentLower c).isUpper = false := by
  by_cases hupper : c.isUpper = true
  · exact forall_isUpper (fun c => (accentLower c).isUpper = false) (by decide) hupper
  · rw [accentLower]
    split
    · rfl
    · exact Bool.eq_false_of_not_eq_true hupper

theorem accentLower_accentLower (c : Char) : accentLower (accentLower c) = accentLower c := by
  by_cases hupper : c.isUpper = true
  · exact forall_isUpper (fun c => accentLower (accentLower c) = accentLower c) (by decide) hupper
  · by_cases haccent : c = 'É'
    · rw [haccent]
      decide
    · have hself : accentLower c = c := by rw [accentLower, if_neg haccent, if_neg hupper]
      rw [hself, hself]

@[reducible]
def accentText : Text where
  trim := id
  toLowercase s := ofList (s.toList.map accentLower)

@[reducible]
def plainAutomata : Automata where
  ahoCorasick keywords := some fun s => keywords.any fun k => decide (k.toList <:+: s.toList)
  regexOk _ := false
  regexSet regexes := if regexes.isEmpty then some fun _ => false else none

theorem accentText_lawful : @LawfulText accentText := by
  refine @LawfulText.mk accentText (fun s => ?_) (fun s => ?_) fun s => ?_
  · simp [toLowercase, isUpper_accentLower]
  · simp [toLowercase, accentLower_accentLower, Function.comp_def]
  · simp [toLowercase, length_toList]

theorem plainAutomata_lawful : @LawfulAutomata plainAutomata :=
  @LawfulAutomata.mk plainAutomata rfl rfl

def accentMatcher : DomainMatcher := ⟨[], ["é.fr"], fun _ => false, fun _ => false⟩

def accentSite : GeoSiteMatcher := ⟨[], ["é.fr"], fun _ => false, fun _ => false⟩

theorem accentMatcher_built :
    @DomainMatcher.Built accentText plainAutomata ["É.fr"] accentMatcher :=
  ⟨[], [], [], rfl⟩

theorem accentSite_built : @GeoSiteMatcher.Built accentText plainAutomata ["É.fr"] accentSite :=
  .inl ⟨[⟨2, "É.fr"⟩], rfl, rfl⟩

theorem domainMatchers_foldCase_upper :
    @DomainMatcher.walk accentText accentMatcher "www.É.FR" = true ∧
      @GeoSiteMatcher.walk accentText accentSite "www.É.FR" = true := by
  have h := ((@domainMatchers_foldCase_iff accentText accentText_lawful plainAutomata
    plainAutomata_lawful "www.É.FR").2 (.inl (by decide))).1 ["É.fr"] (by decide)
  have hcovered : @CoveredBy accentText ["É.fr"] "www.É.FR" :=
    ⟨"É.fr", mem_singleton_self _, by decide +kernel⟩
  exact ⟨(h.1 _ accentMatcher_built).2 hcovered, (h.2 _ accentSite_built).2 hcovered⟩

/-- `É` is not an ASCII letter: a domain with no other letter in upper case is searched for as it
is, and a pattern with the same letters does not match it. -/
theorem domainMatchers_miss_accent :
    @CoveredBy accentText ["É.fr"] "É.fr" ∧
      (@DomainMatcher.Built accentText plainAutomata ["É.fr"] accentMatcher ∧
        @DomainMatcher.walk accentText accentMatcher "É.fr" = false ∧
        @DomainMatcher.matchesDomain accentText accentMatcher "É.fr" = false ∧
        @DomainMatcher.matchesDomain accentText accentMatcher
          (@Text.toLowercase accentText "É.fr") = true) ∧
      @GeoSiteMatcher.Built accentText plainAutomata ["É.fr"] accentSite ∧
        @GeoSiteMatcher.walk accentText accentSite "É.fr" = false ∧
        @GeoSiteMatcher.matchDomain accentText accentSite "É.fr" = false ∧
        @GeoSiteMatcher.matchDomain accentText accentSite
          (@Text.toLowercase accentText "É.fr") = true := by
  have hcovered : @CoveredBy accentText ["É.fr"] "É.fr" :=
    ⟨"É.fr", mem_singleton_self _, by decide +kernel⟩
  have hwalk : suffixWalk ["é.fr"] (@lazyLower accentText "É.fr").toList = false := by
    decide +kernel
  exact ⟨hcovered,
    ⟨accentMatcher_built, hwalk, by decide +kernel, by decide +kernel⟩,
    accentSite_built, hwalk, by decide +kernel, by decide +kernel⟩

end Blackwire.Routing
