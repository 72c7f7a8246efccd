import Mathlib.Data.List.Nodup
import PortMate.McpHttpSettings

namespace PortMate

open List Nat

section Lengths

theorem octet_lengths : ((List.range 256).all fun n => (toString n).toList.length ≤ 3) = true := by
  decide +kernel

theorem length_ipv4Text (bits : Nat) : (ipv4Text bits).length ≤ 15 := by
  have octet : ∀ n, n < 256 → (toString n).toList.length ≤ 3 := by
    intro n small
    simpa using all_eq_true.mp octet_lengths n (mem_range.mpr small)
  have first := octet (bits / 2 ^ 24 % 256) (Nat.mod_lt _ (by decide))
  have second := octet (bits / 2 ^ 16 % 256) (Nat.mod_lt _ (by decide))
  have third := octet (bits / 2 ^ 8 % 256) (Nat.mod_lt _ (by decide))
  have fourth := octet (bits % 256) (Nat.mod_lt _ (by decide))
  simp only [ipv4Text, map_cons, map_nil, intercalate_cons_cons, length_append,
    length_singleton, intercalate_singleton]
  omega

theorem length_groupsText {groups : List Nat} (small : ∀ group ∈ groups, group < 65536) :
    (groupsText groups).length ≤ 5 * groups.length := by
  induction groups with
  | nil => simp [groupsText, List.intercalate]
  | cons group groups ih =>
    obtain ⟨first, others⟩ := forall_mem_cons.mp small
    have digits := length_toDigits group 4 (by decide) first
    cases groups with
    | nil =>
      have alone : groupsText [group] = toDigits 16 group := by
        simp [groupsText, List.intercalate]
      rw [alone, length_singleton]
      omega
    | cons next groups =>
      have rest := ih others
      rw [groupsText_cons, length_append, length_cons, length_cons]
      omega

theorem length_ipv6Text (bits : Nat) : (ipv6Text bits).length ≤ 42 := by
  by_cases mapped : isIpv4Mapped bits
  · rw [ipv6Text_mapped mapped, length_append]
    have short := length_ipv4Text (bits % 2 ^ 32)
    have front : "::ffff:".toList.length = 7 := by decide
    omega
  · rw [ipv6Text_unmapped mapped, compressedText]
    have small : ∀ group ∈ ipv6Groups bits, group < 65536 := fun _ mem => ipv6Groups_small mem
    have eight : (ipv6Groups bits).length = 8 := by simp [ipv6Groups]
    split
    next long =>
      generalize (zeroRuns (ipv6Groups bits)).foldl max 0 = length at long ⊢
      generalize (zeroRuns (ipv6Groups bits)).findIdx (· = length) = start
      have front := length_groupsText fun group mem =>
        small group (mem_of_mem_take (i := start) mem)
      have back := length_groupsText fun group mem =>
        small group (mem_of_mem_drop (i := start + length) mem)
      rw [length_take] at front
      rw [length_drop] at back
      have colons : "::".toList.length = 2 := by decide
      rw [length_append, length_append]
      omega
    next =>
      have whole := length_groupsText small
      omega

theorem IpAddr.length_text (address : IpAddr) : utf8Length address.text ≤ 42 := by
  rw [utf8Length_ascii fun c mem => (IpAddr.text_addressChar mem).size]
  cases address with
  | v4 bits => exact Nat.le_trans (length_ipv4Text bits) (by decide)
  | v6 bits => exact length_ipv6Text bits

theorem length_decimal (port : UInt16) : (toDigits 10 port.toNat).length ≤ 5 := by
  have digits : ∀ width n, 0 < width → n < 10 ^ width → (toDigits 10 n).length ≤ width := by
    intro width
    induction width with
    | zero => omega
    | succ width ih =>
      intro n _ small
      rw [toDigits_eq_if (by decide)]
      split
      next => simp
      next large =>
        have wide : 0 < width := by
          cases width with
          | zero => omega
          | succ width => omega
        have shorter := ih (n / 10) wide (by rw [Nat.pow_succ] at small; omega)
        rw [length_append, length_singleton]
        omega
  have small := port.toNat_lt
  exact digits 5 _ (by decide) (by omega)

end Lengths

open IpAddr

section Laws

def UrlHost.Plain : UrlHost → Prop
  | domain name => PlainText name ∧ ':' ∉ name
  | ipv4 bits => bits < 2 ^ 32
  | ipv6 bits => bits < 2 ^ 128

/-- The URL that has only a scheme, a host and a port. -/
def originUrl (scheme : List Char) (host : UrlHost) (port : Nat) : WebUrl where
  scheme := scheme
  username := []
  password := none
  host := some host
  port := port
  path := ['/']
  query := none
  fragment := none

/-- What the settings rely on: the crate reads what it writes, and its hosts have no forbidden
characters. -/
structure UrlCrate.Lawful (urls : UrlCrate) : Prop where
  hostPlain : ∀ text host, urls.parseHost text = some host → host.Plain
  hostAgain : ∀ text host, urls.parseHost text = some host → urls.parseHost host.text = some host
  hostColon : ∀ text, ':' ∈ text → text.head? ≠ some '[' → urls.parseHost text = none
  urlPlain : ∀ text url host, urls.parse text = some url → url.host = some host → host.Plain
  urlAgain : ∀ text url host, urls.parse text = some url → isHttpScheme url.scheme = true →
    url.host = some host →
    urls.parse (originText url.scheme host url.port) = some (originUrl url.scheme host url.port)

/-- The host of a URL in the way that the settings write it. -/
def UrlHost.plainText : UrlHost → List Char
  | domain name => name
  | ipv4 bits => ipv4Text bits
  | ipv6 bits => '[' :: (ipv6Text bits ++ [']'])

def addressOrigin (port : UInt16) (host : UrlHost) : List Char :=
  "http://".toList ++ (host.plainText ++ ':' :: toDigits 10 port.toNat)

def loopbackBits : Nat := 0x7f000001

theorem loopback_text : ipv4Text loopbackBits = "127.0.0.1".toList := by decide

/-- The hosts under which a bridge is reached that listens at the address. -/
def ownHosts (bindIp : IpAddr) : List UrlHost :=
  if bindIp.isUnspecified then [.ipv4 loopbackBits, .domain "localhost".toList]
  else
    match bindIp with
    | .v4 bits => [.ipv4 bits]
    | .v6 bits => [.ipv6 bits]

theorem addressOrigin_eq (port : UInt16) {host : UrlHost} {text : List Char}
    (same : host.plainText = text) :
    "http://".toList ++ (text ++ ':' :: toDigits 10 port.toNat) = addressOrigin port host := by
  subst same
  unfold addressOrigin
  exact Eq.refl _

theorem addressOrigin_parts (port : UInt16) (host : UrlHost) :
    addressOrigin port host =
      "http://".toList ++ (host.plainText ++ ([':'] ++ toDigits 10 port.toNat)) := by
  unfold addressOrigin
  rw [singleton_append]

theorem defaultMcpHttpOrigins_eq (bindIp : IpAddr) (port : UInt16) :
    defaultMcpHttpOrigins bindIp port = (ownHosts bindIp).map (addressOrigin port) := by
  unfold defaultMcpHttpOrigins ownHosts
  by_cases unspecified : bindIp.isUnspecified = true
  · rw [if_pos unspecified, if_pos unspecified]
    have first := @addressOrigin_eq port (.ipv4 loopbackBits) _ loopback_text
    have second := @addressOrigin_eq port (.domain "localhost".toList) _ rfl
    exact congrArg₂ (fun first second => [first, second]) first second
  · rw [if_neg unspecified, if_neg unspecified]
    cases bindIp with
    | v4 bits => exact congrArg (fun text => [text]) (@addressOrigin_eq port (.ipv4 bits) _ rfl)
    | v6 bits => exact congrArg (fun text => [text]) (@addressOrigin_eq port (.ipv6 bits) _ rfl)

/-- The crate reads the default origins as what they are meant to be. -/
def UrlCrate.ReadsDefaults (urls : UrlCrate) (bindIp : IpAddr) (port : UInt16) : Prop :=
  ∀ host ∈ ownHosts bindIp,
    urls.parse (addressOrigin port host) = some (originUrl "http".toList host port.toNat)

end Laws

open UrlHost

section Texts

theorem digit_addressChar {port : Nat} {c : Char} (mem : c ∈ toDigits 10 port) : AddressChar c :=
  isDigit_addressChar (toDigits_isDigit mem)

theorem UrlHost.text_printable {host : UrlHost} (plain : host.Plain) :
    ∀ c ∈ host.text, isUnprintable c = false := by
  intro c mem
  cases host with
  | domain name => exact plain.1.printable c mem
  | ipv4 bits => exact (ipv4Text_addressChar mem).printable
  | ipv6 bits =>
    rcases mem_cons.mp mem with rfl | mem
    · decide
    · rcases mem_append.mp mem with inside | last
      · exact (compressedText_char inside).1.printable
      · rw [mem_singleton.mp last]
        decide

theorem originText_printable {scheme : List Char} (http : isHttpScheme scheme = true) {host : UrlHost}
    (plain : host.Plain) (port : Nat) : ∀ c ∈ originText scheme host port, isUnprintable c = false := by
  have schemes : ∀ c ∈ scheme ++ "://".toList, isUnprintable c = false := by
    rw [isHttpScheme, Bool.or_eq_true, decide_eq_true_eq, decide_eq_true_eq] at http
    have checked : ((scheme ++ "://".toList).all fun c => !isUnprintable c) = true := by
      rcases http with rfl | rfl <;> decide
    intro c mem
    simpa using all_eq_true.mp checked c mem
  intro c mem
  rw [originText, ← append_assoc] at mem
  rcases mem_append.mp mem with front | mem
  · exact schemes c front
  · rcases mem_append.mp mem with middle | last
    · exact text_printable plain c middle
    · split at last
      · cases last
      · rcases mem_cons.mp last with rfl | digit
        · decide
        · exact (digit_addressChar digit).printable

theorem originText_head {scheme : List Char} (http : isHttpScheme scheme = true) (host : UrlHost)
    (port : Nat) : ∃ rest, originText scheme host port = 'h' :: rest := by
  rw [isHttpScheme, Bool.or_eq_true, decide_eq_true_eq, decide_eq_true_eq] at http
  rcases http with rfl | rfl
  · exact ⟨_, rfl⟩
  · exact ⟨_, rfl⟩

end Texts

section Origins

variable {urls : UrlCrate} {origin clean : List Char}

theorem normalizeMcpHttpOrigin_ok (ok : normalizeMcpHttpOrigin urls origin = .ok clean) :
    (trimText origin = ['*'] ∧ clean = ['*']) ∨ ∃ url host, trimText origin ≠ ['*'] ∧
      urls.parse (trimText origin) = some url ∧ isHttpScheme url.scheme = true ∧
      url.host = some host ∧ clean = originText url.scheme host url.port := by
  unfold normalizeMcpHttpOrigin at ok
  dsimp only at ok
  split at ok
  · cases ok
  · split at ok
    next any => exact .inl ⟨any, (Except.ok.inj ok).symm.trans any⟩
    next other =>
      split at ok
      next => cases ok
      next url parsed =>
        split at ok
        next => cases ok
        next authority =>
          split at ok
          · cases ok
          · simp only [Bool.or_eq_true, not_or, Bool.not_eq_true', Bool.not_eq_false,
              Bool.not_eq_true] at authority
            obtain ⟨⟨⟨⟨⟨⟨http, host⟩, -⟩, -⟩, -⟩, -⟩, -⟩ := authority
            obtain ⟨host, found⟩ := Option.isSome_iff_exists.mp (by simpa using host)
            refine .inr ⟨url, host, other, parsed, http, found, ?_⟩
            rw [← Except.ok.inj ok, WebUrl.asciiOrigin, found]
            exact if_pos http

theorem normalizeMcpHttpOrigin_url {scheme : List Char} {host : UrlHost} {port : Nat}
    (http : isHttpScheme scheme = true) (filled : origin ≠ []) (any : origin ≠ ['*'])
    (printable : ∀ c ∈ origin, isUnprintable c = false)
    (parsed : urls.parse origin = some (originUrl scheme host port)) :
    (utf8Length origin ≤ maxMcpHttpOriginBytes ∧ ',' ∉ origin ∧
        normalizeMcpHttpOrigin urls origin = .ok (originText scheme host port)) ∨
      (¬(utf8Length origin ≤ maxMcpHttpOriginBytes ∧ ',' ∉ origin) ∧
        ∃ error, normalizeMcpHttpOrigin urls origin = .error error) := by
  have ascii : (originUrl scheme host port).asciiOrigin = originText scheme host port := if_pos http
  have network : originText scheme host port ≠ "null".toList := by
    obtain ⟨rest, text⟩ := originText_head http host port
    rw [text]
    intro same
    exact absurd (List.cons.inj same).1 (by decide)
  unfold normalizeMcpHttpOrigin
  rw [trimText_printable printable]
  dsimp only
  split
  next bad =>
    refine .inr ⟨?_, _, rfl⟩
    rintro ⟨short, comma⟩
    have unprintable : origin.any isUnprintable = false :=
      any_eq_false.mpr fun c mem => by simp [printable c mem]
    simp only [Bool.or_eq_true, List.isEmpty_iff, decide_eq_true_eq, unprintable, Bool.false_eq_true,
      or_false, contains_iff_mem] at bad
    rcases bad with (empty | long) | found
    · exact filled empty
    · omega
    · exact comma found
  next good =>
    simp only [Bool.or_eq_true, not_or, decide_eq_true_eq, contains_iff_mem] at good
    refine .inl ⟨by omega, good.2, ?_⟩
    rw [parsed]
    dsimp only
    rw [ascii, if_neg network, if_neg]
    simp [originUrl, http]

/-- The origin of the URL is still short enough and has no comma. -/
def OriginStays (urls : UrlCrate) (origin : List Char) : Prop :=
  ∀ url, trimText origin ≠ ['*'] → urls.parse (trimText origin) = some url →
    utf8Length url.asciiOrigin ≤ maxMcpHttpOriginBytes ∧ ',' ∉ url.asciiOrigin

theorem origin_plain (lawful : urls.Lawful) (ok : normalizeMcpHttpOrigin urls origin = .ok clean) :
    clean ≠ [] ∧ ∀ c ∈ clean, isUnprintable c = false := by
  rcases normalizeMcpHttpOrigin_ok ok with ⟨-, rfl⟩ | ⟨url, host, -, parsed, http, found, rfl⟩
  · exact ⟨nofun, fun c mem => mem_singleton.mp mem ▸ by decide⟩
  · refine ⟨?_, originText_printable http (lawful.urlPlain _ _ _ parsed found) _⟩
    obtain ⟨rest, text⟩ := originText_head http host url.port
    rw [text]
    exact nofun

theorem origin_again (lawful : urls.Lawful) (ok : normalizeMcpHttpOrigin urls origin = .ok clean) :
    normalizeMcpHttpOrigin urls clean = .ok clean ↔ OriginStays urls origin := by
  rcases normalizeMcpHttpOrigin_ok ok with ⟨star, rfl⟩ | ⟨url, host, other, parsed, http, found, rfl⟩
  · refine ⟨fun _ url other => absurd star other, fun _ => ?_⟩
    have trimmed : trimText ['*'] = ['*'] := by decide
    unfold normalizeMcpHttpOrigin
    rw [trimmed]
    rfl
  · have ascii : url.asciiOrigin = originText url.scheme host url.port := by
      rw [WebUrl.asciiOrigin, found]
      exact if_pos http
    have plain := origin_plain lawful ok
    have any : originText url.scheme host url.port ≠ ['*'] := by
      obtain ⟨rest, text⟩ := originText_head http host url.port
      rw [text]
      intro same
      exact absurd (List.cons.inj same).1 (by decide)
    have stays : OriginStays urls origin ↔
        utf8Length (originText url.scheme host url.port) ≤ maxMcpHttpOriginBytes ∧
          ',' ∉ originText url.scheme host url.port := by
      constructor
      · intro stays
        exact ascii ▸ stays url other parsed
      · rintro fits url' - parsed'
        obtain rfl := Option.some.inj (parsed.symm.trans parsed')
        exact ascii.symm ▸ fits
    rw [stays]
    rcases normalizeMcpHttpOrigin_url http plain.1 any plain.2
      (lawful.urlAgain _ _ _ parsed http found) with ⟨short, comma, again⟩ | ⟨long, error, refused⟩
    · exact ⟨fun _ => ⟨short, comma⟩, fun _ => again⟩
    · refine ⟨fun again => ?_, fun fits => absurd fits long⟩
      rw [refused] at again
      cases again

theorem normalizeMcpHttpOrigins_ok_iff {origins cleans seen : List (List Char)} :
    normalizeMcpHttpOrigins urls seen origins = .ok cleans ↔
      List.Forall₂ (fun origin clean => normalizeMcpHttpOrigin urls origin = .ok clean)
        origins cleans ∧ cleans.Nodup ∧ ∀ clean ∈ cleans, clean ∉ seen := by
  induction origins generalizing seen cleans with
  | nil =>
    rw [normalizeMcpHttpOrigins]
    constructor
    · intro ok
      obtain rfl := Except.ok.inj ok
      exact ⟨.nil, nodup_nil, nofun⟩
    · rintro ⟨each, -⟩
      cases each
      rfl
  | cons origin origins ih =>
    rw [normalizeMcpHttpOrigins]
    constructor
    · intro ok
      obtain ⟨clean, first, ok⟩ := except_bind_eq_ok ok
      split at ok
      next => cases ok
      next fresh =>
        rw [contains_iff_mem] at fresh
        obtain ⟨others, rest, ok⟩ := except_bind_eq_ok ok
        obtain rfl := Except.ok.inj ok
        obtain ⟨each, distinct, unseen⟩ := ih.mp rest
        refine ⟨.cons first each, nodup_cons.mpr ⟨?_, distinct⟩, ?_⟩
        · exact fun mem => unseen clean mem mem_cons_self
        · exact forall_mem_cons.mpr
            ⟨fresh, fun other mem seen => unseen other mem (mem_cons_of_mem _ seen)⟩
    · rintro ⟨each, distinct, unseen⟩
      cases each with
      | @cons _ clean _ cleans first others =>
        obtain ⟨fresh, distinct⟩ := nodup_cons.mp distinct
        obtain ⟨new, unseen⟩ := forall_mem_cons.mp unseen
        have apart : ∀ other ∈ cleans, other ∉ clean :: seen := by
          intro other mem
          rw [mem_cons, not_or]
          exact ⟨fun same => fresh (same ▸ mem), unseen other mem⟩
        have rest := ih.mpr ⟨others, distinct, apart⟩
        rw [first, except_bind_ok, if_neg (by rwa [contains_iff_mem]), rest]
        rfl

theorem origins_again_iff {cleans : List (List Char)} (distinct : cleans.Nodup) :
    normalizeMcpHttpOrigins urls [] cleans = .ok cleans ↔
      ∀ clean ∈ cleans, normalizeMcpHttpOrigin urls clean = .ok clean := by
  rw [normalizeMcpHttpOrigins_ok_iff, forall₂_same]
  exact ⟨fun again => again.1, fun each => ⟨each, distinct, fun _ _ => not_mem_nil⟩⟩

end Origins

section ClientHosts

variable {urls : UrlCrate} {value clean : List Char}

/-- The client's host is no IPv6 address, and a name is short enough once it is in ASCII. -/
def ClientHostStays (urls : UrlCrate) (value : List Char) : Prop :=
  ∀ host, urls.parseHost (stripBrackets (trimText value)) = some host →
    match host with
    | .domain name => utf8Length name ≤ maxMcpHttpClientHostBytes
    | .ipv4 _ => True
    | .ipv6 _ => False

theorem normalizeMcpHttpClientHost_ok (ok : normalizeMcpHttpClientHost urls value = .ok clean) :
    ∃ host, urls.parseHost (stripBrackets (trimText value)) = some host ∧
      clientHostText (some host) = .ok clean := by
  unfold normalizeMcpHttpClientHost at ok
  dsimp only at ok
  split at ok
  · cases ok
  · cases found : urls.parseHost (stripBrackets (trimText value)) with
    | none =>
      rw [found] at ok
      cases ok
    | some host => exact ⟨host, rfl, found ▸ ok⟩

theorem normalizeMcpHttpClientHost_plain (plain : PlainText value) :
    ∃ error, normalizeMcpHttpClientHost urls value =
      if maxMcpHttpClientHostBytes < utf8Length value then .error error
      else clientHostText (urls.parseHost value) := by
  have unprintable : value.any isUnprintable = false :=
    any_eq_false.mpr fun c mem => by simp [plain.printable c mem]
  have filled : value.isEmpty = false := by simpa using plain.filled
  unfold normalizeMcpHttpClientHost
  rw [trimText_printable plain.printable, stripBrackets_bare plain.bare]
  dsimp only
  rw [unprintable, filled, Bool.or_false, Bool.false_or]
  simp only [decide_eq_true_eq]
  exact ⟨_, rfl⟩

theorem ipv4Text_printable (bits : Nat) : PlainText (ipv4Text bits) :=
  plainText_of_address (ne_nil_of_mem (dot_mem_ipv4Text bits))
    fun _ mem => ipv4Text_addressChar mem

theorem ipv6Text_printable (bits : Nat) : PlainText (ipv6Text bits) :=
  plainText_of_address (ne_nil_of_mem (colon_mem_ipv6Text bits))
    fun _ mem => ipv6Text_addressChar mem

theorem clientHost_again (lawful : urls.Lawful)
    (ok : normalizeMcpHttpClientHost urls value = .ok clean) :
    normalizeMcpHttpClientHost urls clean = .ok clean ↔ ClientHostStays urls value := by
  obtain ⟨host, found, read⟩ := normalizeMcpHttpClientHost_ok ok
  have plain := lawful.hostPlain _ _ found
  have again := lawful.hostAgain _ _ found
  have only : ∀ other, urls.parseHost (stripBrackets (trimText value)) = some other → other = host :=
    fun other found' => Option.some.inj (found'.symm.trans found)
  cases host with
  | domain name =>
    obtain rfl : name = clean := Except.ok.inj read
    obtain ⟨error, outcome⟩ := @normalizeMcpHttpClientHost_plain urls _ plain.1
    rw [outcome, show urls.parseHost name = _ from again, read]
    constructor
    · intro same other found'
      rw [only other found']
      split at same
      next => cases same
      next short => exact Nat.le_of_not_lt short
    · intro stays
      exact if_neg (Nat.not_lt.mpr (stays _ found))
  | ipv4 bits =>
    have text : ipv4Text bits = clean := by
      have specified := read
      rw [clientHostText] at specified
      split at specified
      · cases specified
      · exact Except.ok.inj specified
    subst text
    obtain ⟨error, outcome⟩ := @normalizeMcpHttpClientHost_plain urls _ (ipv4Text_printable bits)
    have short : utf8Length (ipv4Text bits) ≤ maxMcpHttpClientHostBytes :=
      Nat.le_trans (length_text (.v4 bits)) (by decide)
    rw [outcome, show urls.parseHost (ipv4Text bits) = _ from again, read,
      if_neg (Nat.not_lt.mpr short)]
    refine ⟨fun _ other found' => ?_, fun _ => rfl⟩
    rw [only other found']
    trivial
  | ipv6 bits =>
    have text : ipv6Text bits = clean := by
      have specified := read
      rw [clientHostText] at specified
      split at specified
      · cases specified
      · exact Except.ok.inj specified
    subst text
    obtain ⟨error, outcome⟩ := @normalizeMcpHttpClientHost_plain urls _ (ipv6Text_printable bits)
    rw [outcome, lawful.hostColon _ (colon_mem_ipv6Text bits) (ipv6Text_printable bits).bare]
    constructor
    · intro same
      split at same
      · cases same
      · cases same
    · intro stays
      exact (stays _ found).elim

end ClientHosts

section Defaults

variable {urls : UrlCrate} {bindIp : IpAddr} {port : UInt16}

/-- What the hosts of a listener have in common. -/
structure OwnHost (host : UrlHost) : Prop where
  plain : host.Plain
  short : utf8Length host.plainText ≤ 44
  printable : ∀ c ∈ host.plainText, isUnprintable c = false
  comma : ',' ∉ host.plainText

theorem ownHost_of_mem (valid : bindIp.Valid) {host : UrlHost} (mem : host ∈ ownHosts bindIp) :
    OwnHost host := by
  have ipv4 : ∀ bits, bits < 2 ^ 32 → OwnHost (.ipv4 bits) := fun bits small =>
    ⟨small, Nat.le_trans (length_text (.v4 bits)) (by decide), (ipv4Text_printable bits).printable,
      fun mem => (ipv4Text_addressChar mem).comma rfl⟩
  unfold ownHosts at mem
  split at mem
  · rcases mem_cons.mp mem with rfl | mem
    · exact ipv4 loopbackBits (by decide)
    · obtain rfl := mem_singleton.mp mem
      have checked : ("localhost".toList.all fun c => !isUnprintable c) = true := by decide
      have printable : ∀ c ∈ "localhost".toList, isUnprintable c = false := fun c mem => by
        simpa using all_eq_true.mp checked c mem
      exact ⟨⟨⟨by decide, printable, by decide⟩, by decide⟩, by decide, printable, by decide⟩
  · cases bindIp with
    | v4 bits =>
      obtain rfl := mem_singleton.mp mem
      exact ipv4 bits valid
    | v6 bits =>
      obtain rfl := mem_singleton.mp mem
      have short := length_text (.v6 bits)
      have bracket : ∀ c ∈ plainText (.ipv6 bits), c = '[' ∨ c ∈ ipv6Text bits ∨ c = ']' := by
        intro c mem
        rcases mem_cons.mp mem with same | mem
        · exact .inl same
        · rcases mem_append.mp mem with inside | last
          · exact .inr (.inl inside)
          · exact .inr (.inr (mem_singleton.mp last))
      refine ⟨valid, ?_, ?_, ?_⟩
      · simp only [IpAddr.text] at short
        have opening : '['.utf8Size = 1 := by decide
        have closing : ']'.utf8Size = 1 := by decide
        simp only [plainText, utf8Length, map_cons, map_append, map_nil,
          sum_cons, List.sum_append, sum_nil] at short ⊢
        omega
      · intro c mem
        rcases bracket c mem with rfl | inside | rfl
        · decide
        · exact (ipv6Text_addressChar inside).printable
        · decide
      · intro mem
        rcases bracket ',' mem with same | inside | same
        · exact absurd same (by decide)
        · exact (ipv6Text_addressChar inside).comma rfl
        · exact absurd same (by decide)

theorem addressOrigin_chars {host : UrlHost} {c : Char} (mem : c ∈ addressOrigin port host) :
    c ∈ "http://".toList ∨ c ∈ host.plainText ∨ c = ':' ∨ c ∈ toDigits 10 port.toNat := by
  unfold addressOrigin at mem
  rwa [mem_append, mem_append, mem_cons] at mem

theorem addressOrigin_sound {host : UrlHost} (own : OwnHost host) :
    (∀ c ∈ addressOrigin port host, isUnprintable c = false) ∧
      utf8Length (addressOrigin port host) ≤ maxMcpHttpOriginBytes ∧
      ',' ∉ addressOrigin port host := by
  have front : ("http://".toList.all fun c => !isUnprintable c && c != ',') = true := by decide
  refine ⟨fun c mem => ?_, ?_, fun mem => ?_⟩
  · rcases addressOrigin_chars mem with start | inside | rfl | digit
    · have plain := all_eq_true.mp front c start
      rw [Bool.and_eq_true, Bool.not_eq_true'] at plain
      exact plain.1
    · exact own.printable c inside
    · decide
    · exact (digit_addressChar digit).printable
  · have digits := length_decimal port
    rw [← utf8Length_ascii fun c mem => (digit_addressChar mem).size] at digits
    have short := own.short
    have first : utf8Length "http://".toList = 7 := by decide
    have colon : utf8Length [':'] = 1 := by decide
    rw [addressOrigin_parts, utf8Length_append, utf8Length_append, utf8Length_append]
    show _ ≤ 512
    omega
  · rcases addressOrigin_chars mem with start | inside | same | digit
    · exact absurd (all_eq_true.mp front _ start) (by decide)
    · exact own.comma inside
    · exact absurd same (by decide)
    · exact (digit_addressChar digit).comma rfl

def IpAddr.isIpv4Mapped : IpAddr → Prop
  | v4 _ => False
  | v6 bits => PortMate.isIpv4Mapped bits

theorem originText_http (host : UrlHost) (port : Nat) :
    originText "http".toList host port = "http://".toList ++ (host.text ++
      if port = 80 then [] else ':' :: toDigits 10 port) := by
  have standard : (defaultPort "http".toList = some port) = (port = 80) := by
    have known : defaultPort "http".toList = some 80 := by decide
    rw [known, Option.some.injEq]
    exact propext eq_comm
  have front : "http".toList ++ "://".toList = "http://".toList := by decide
  unfold originText
  rw [← append_assoc, front]
  simp only [standard]

theorem plainText_ne_text_append (host : UrlHost) (digit : Char) (notBracket : digit ≠ ']')
    (front : List Char) : host.plainText ++ ':' :: (front ++ [digit]) ≠ host.text := by
  have same : ∀ text : List Char, text ++ ':' :: (front ++ [digit]) ≠ text := by
    intro text whole
    have length := congrArg List.length whole
    simp at length
  cases host with
  | domain name => exact same name
  | ipv4 bits => exact same (ipv4Text bits)
  | ipv6 bits =>
    intro whole
    have left : (plainText (.ipv6 bits) ++ ':' :: (front ++ [digit])).getLast? = some digit := by
      rw [append_cons, ← append_assoc, getLast?_concat]
    have right : (UrlHost.text (.ipv6 bits)).getLast? = some ']' := by
      rw [UrlHost.text, ← cons_append, getLast?_concat]
    rw [whole, right] at left
    exact notBracket (Option.some.inj left).symm

theorem addressOrigin_eq_iff (host : UrlHost) :
    addressOrigin port host = originText "http".toList host port.toNat ↔
      port ≠ 80 ∧ host.plainText = host.text := by
  rw [originText_http]
  unfold addressOrigin
  rw [append_cancel_left_eq]
  by_cases standard : port = 80
  · subst standard
    have digits : toDigits 10 (80 : UInt16).toNat = ['8'] ++ ['0'] := by decide
    rw [digits]
    constructor
    · intro same
      exact absurd same (by simpa using plainText_ne_text_append host '0' (by decide) ['8'])
    · exact fun ⟨other, _⟩ => absurd rfl other
  · have other : port.toNat ≠ 80 := fun same => standard (UInt16.toNat_inj.mp same)
    rw [if_neg other, append_cancel_right_eq]
    exact ⟨fun same => ⟨standard, same⟩, fun both => both.2⟩

theorem plainText_eq_text (bindIp : IpAddr) :
    (∀ host ∈ ownHosts bindIp, host.plainText = host.text) ↔ ¬bindIp.isIpv4Mapped := by
  unfold ownHosts
  split
  next unspecified =>
    refine ⟨fun _ mapped => ?_, fun _ => ?_⟩
    · cases bindIp with
      | v4 bits => exact mapped
      | v6 bits =>
        obtain rfl : bits = 0 := by simpa [isUnspecified] using unspecified
        have embedded : 0 / 2 ^ 32 = 0xffff := mapped
        exact absurd embedded (by decide)
    · exact forall_mem_cons.mpr ⟨rfl, forall_mem_singleton.mpr rfl⟩
  next =>
    cases bindIp with
    | v4 bits => exact ⟨fun _ => id, fun _ => forall_mem_singleton.mpr rfl⟩
    | v6 bits =>
      rw [forall_mem_singleton, plainText, UrlHost.text, List.cons.injEq,
        append_cancel_right_eq, ipv6Text_eq_compressed_iff]
      exact ⟨fun both => both.2, fun unmapped => ⟨rfl, unmapped⟩⟩

theorem ownHosts_ne_nil (bindIp : IpAddr) : ownHosts bindIp ≠ [] := by
  unfold ownHosts
  split
  · exact nofun
  · cases bindIp <;> exact nofun

theorem nodup_defaults (bindIp : IpAddr) (port : UInt16) :
    (defaultMcpHttpOrigins bindIp port).Nodup := by
  unfold defaultMcpHttpOrigins
  split
  · refine nodup_cons.mpr ⟨fun mem => ?_, nodup_singleton _⟩
    have same := congrArg (List.take 8) (mem_singleton.mp mem)
    rw [take_append_of_le_length (by decide), take_append_of_le_length (by decide)] at same
    exact absurd same (by decide)
  · exact nodup_singleton _

theorem addressOrigin_normalized (valid : bindIp.Valid) (reads : urls.ReadsDefaults bindIp port)
    {host : UrlHost} (mem : host ∈ ownHosts bindIp) :
    normalizeMcpHttpOrigin urls (addressOrigin port host) =
      .ok (originText "http".toList host port.toNat) := by
  obtain ⟨printable, short, comma⟩ := addressOrigin_sound (ownHost_of_mem valid mem)
  have filled : addressOrigin port host ≠ [] := by
    rw [addressOrigin_parts]
    exact append_ne_nil_of_left_ne_nil (by decide) _
  have any : addressOrigin port host ≠ ['*'] := by
    rw [addressOrigin_parts]
    intro same
    have length := congrArg List.length same
    have seven : "http://".toList.length = 7 := by decide
    rw [length_append, seven, length_singleton] at length
    omega
  rcases normalizeMcpHttpOrigin_url (by decide) filled any printable (reads host mem) with
    ⟨-, -, ok⟩ | ⟨unfit, -⟩
  · exact ok
  · exact absurd ⟨short, comma⟩ unfit

theorem defaults_again_iff (valid : bindIp.Valid) (reads : urls.ReadsDefaults bindIp port) :
    (∀ origin ∈ defaultMcpHttpOrigins bindIp port, normalizeMcpHttpOrigin urls origin = .ok origin) ↔
      port ≠ 80 ∧ ¬bindIp.isIpv4Mapped := by
  have each : ∀ host ∈ ownHosts bindIp,
      (normalizeMcpHttpOrigin urls (addressOrigin port host) = .ok (addressOrigin port host) ↔
        port ≠ 80 ∧ host.plainText = host.text) := by
    intro host mem
    rw [addressOrigin_normalized valid reads mem, Except.ok.injEq, eq_comm, addressOrigin_eq_iff]
  rw [defaultMcpHttpOrigins_eq, forall_mem_map, ← plainText_eq_text]
  constructor
  · intro all
    obtain ⟨host, mem⟩ := exists_mem_of_ne_nil _ (ownHosts_ne_nil bindIp)
    exact ⟨((each host mem).mp (all host mem)).1, fun host mem => ((each host mem).mp (all host mem)).2⟩
  · rintro ⟨other, same⟩ host mem
    exact (each host mem).mpr ⟨other, same host mem⟩

end Defaults

section Settings

variable {urls : UrlCrate} {request settings : McpHttpSettings} {bindIp : IpAddr}

/-- What the settings promise of what they accepted. -/
structure SettingsHold (urls : UrlCrate) (request settings : McpHttpSettings) (bindIp : IpAddr) :
    Prop where
  again : normalizeMcpHttpSettings urls settings = .ok (settings, bindIp)
  ownPage : request.allowedOrigins = [] → ∀ host ∈ ownHosts bindIp,
    validateOrigin (some (originText "http".toList host settings.port.toNat)) settings.bridgeOrigins =
      .ok ()
  others : ∀ origin, validateOrigin (some origin) settings.bridgeOrigins = .ok () →
    trimText origin = [] ∨ trimText origin ∈ settings.allowedOrigins ∨
      ['*'] ∈ settings.allowedOrigins

/-- When they keep it: what is listed fits in its normal form, and the origins that are listed by
default are in it. -/
structure SettingsFit (urls : UrlCrate) (request : McpHttpSettings) (bindIp : IpAddr) : Prop where
  client : ClientHostStays urls request.clientHost
  listed : ∀ origin ∈ request.allowedOrigins, OriginStays urls origin
  defaults : request.allowedOrigins = [] → request.port ≠ 80 ∧ ¬bindIp.isIpv4Mapped

/-- What becomes of the settings that are accepted. -/
structure Normalized (urls : UrlCrate) (request settings : McpHttpSettings) (bindIp : IpAddr)
    (origins : List (List Char)) : Prop where
  address : parseIpAddr (stripBrackets (trimText request.listenHost)) = some bindIp
  port : request.port ≠ 0
  loopback : ¬(!bindIp.isLoopback && !request.allowRemote) = true
  client : normalizeMcpHttpClientHost urls request.clientHost = .ok settings.clientHost
  clientId : normalizeMcpClientId request.clientId = .ok settings.clientId
  few : request.allowedOrigins.length ≤ maxMcpHttpOrigins
  listed : normalizeMcpHttpOrigins urls [] request.allowedOrigins = .ok origins
  settings : settings = {
    listenHost := bindIp.text
    clientHost := settings.clientHost
    port := request.port
    allowedOrigins := if origins.isEmpty then defaultMcpHttpOrigins bindIp request.port else origins
    clientId := settings.clientId
    trusted := false
    allowRemote := !bindIp.isLoopback }

theorem normalizeMcpHttpSettings_ok_iff :
    normalizeMcpHttpSettings urls request = .ok (settings, bindIp) ↔
      ∃ origins, Normalized urls request settings bindIp origins := by
  constructor
  · intro ok
    unfold normalizeMcpHttpSettings at ok
    split at ok
    next => cases ok
    next address read =>
      split at ok
      next => cases ok
      next port =>
        split at ok
        next => cases ok
        next loopback =>
          obtain ⟨clientHost, client, ok⟩ := except_bind_eq_ok ok
          obtain ⟨clientId, identity, ok⟩ := except_bind_eq_ok ok
          split at ok
          next => cases ok
          next few =>
            obtain ⟨origins, listed, ok⟩ := except_bind_eq_ok ok
            obtain ⟨same, rfl⟩ := Prod.mk.inj (Except.ok.inj ok)
            subst same
            exact ⟨origins,
              ⟨read, port, loopback, client, identity, Nat.le_of_not_lt few, listed, rfl⟩⟩
  · rintro ⟨origins, address, port, loopback, client, identity, few, listed, same⟩
    rw [normalizeMcpHttpSettings, address]
    dsimp only
    rw [if_neg port, if_neg loopback, client, except_bind_ok, identity, except_bind_ok,
      if_neg (Nat.not_lt.mpr few), listed, except_bind_ok, ← same]

theorem allowedOrigins_ne_nil {origins : List (List Char)}
    (normalized : Normalized urls request settings bindIp origins) : settings.allowedOrigins ≠ [] := by
  rw [normalized.settings]
  dsimp only
  split
  next =>
    rw [defaultMcpHttpOrigins_eq]
    exact fun none => ownHosts_ne_nil bindIp (map_eq_nil_iff.mp none)
  next filled => exact fun none => filled (List.isEmpty_iff.mpr none)

theorem origins_eq_nil_iff {origins : List (List Char)}
    (normalized : Normalized urls request settings bindIp origins) :
    origins = [] ↔ request.allowedOrigins = [] := by
  have each := (normalizeMcpHttpOrigins_ok_iff.mp normalized.listed).1
  constructor
  · intro none
    rw [none] at each
    exact forall₂_nil_right_iff.mp each
  · intro none
    rw [none] at each
    exact forall₂_nil_left_iff.mp each

theorem nodup_allowedOrigins {origins : List (List Char)}
    (normalized : Normalized urls request settings bindIp origins) : settings.allowedOrigins.Nodup := by
  rw [normalized.settings]
  dsimp only
  split
  · exact nodup_defaults _ _
  · exact (normalizeMcpHttpOrigins_ok_iff.mp normalized.listed).2.1

theorem length_allowedOrigins {origins : List (List Char)}
    (normalized : Normalized urls request settings bindIp origins) :
    settings.allowedOrigins.length ≤ maxMcpHttpOrigins := by
  rw [normalized.settings]
  dsimp only
  split
  · unfold defaultMcpHttpOrigins
    split
    · exact (by decide : 2 ≤ 32)
    · exact (by decide : 1 ≤ 32)
  · have each := (normalizeMcpHttpOrigins_ok_iff.mp normalized.listed).1
    exact each.length_eq ▸ normalized.few

theorem settings_again_iff {origins : List (List Char)}
    (normalized : Normalized urls request settings bindIp origins) :
    normalizeMcpHttpSettings urls settings = .ok (settings, bindIp) ↔
      normalizeMcpHttpClientHost urls settings.clientHost = .ok settings.clientHost ∧
        ∀ origin ∈ settings.allowedOrigins, normalizeMcpHttpOrigin urls origin = .ok origin := by
  have distinct := nodup_allowedOrigins normalized
  have filled := allowedOrigins_ne_nil normalized
  have valid := parseIpAddr_valid normalized.address
  have whole := normalized.settings
  rw [← origins_again_iff distinct, normalizeMcpHttpSettings_ok_iff]
  constructor
  · rintro ⟨again, kept⟩
    refine ⟨kept.client, ?_⟩
    have same : again = settings.allowedOrigins := by
      have listed := congrArg McpHttpSettings.allowedOrigins kept.settings
      have some : again.isEmpty = false := by
        rw [isEmpty_eq_false_iff]
        exact fun none => filled ((origins_eq_nil_iff kept).mp none)
      rw [some] at listed
      exact listed.symm
    exact same ▸ kept.listed
  · rintro ⟨client, listed⟩
    have text : settings.listenHost = bindIp.text := by rw [whole]
    have port : settings.port = request.port := by rw [whole]
    have trusted : settings.trusted = false := by rw [whole]
    have remote : settings.allowRemote = !bindIp.isLoopback := by rw [whole]
    have some : settings.allowedOrigins.isEmpty = false := isEmpty_eq_false_iff.mpr filled
    have plain := bindIp.text_plain
    refine ⟨settings.allowedOrigins, ⟨?_, port ▸ normalized.port, ?_, client,
      normalizeMcpClientId_idem normalized.clientId, length_allowedOrigins normalized, listed, ?_⟩⟩
    · rw [text, trimText_printable plain.printable, stripBrackets_bare plain.bare,
        parseIpAddr_text valid]
    · rw [remote]
      simp
    · rw [some]
      exact McpHttpSettings.ext text rfl rfl rfl rfl trusted remote

theorem normalizeMcpHttpOrigin_comma {origin clean : List Char}
    (ok : normalizeMcpHttpOrigin urls origin = .ok clean) : ',' ∉ trimText origin := by
  unfold normalizeMcpHttpOrigin at ok
  dsimp only at ok
  split at ok
  next => cases ok
  next good =>
    simp only [Bool.or_eq_true, not_or, contains_iff_mem] at good
    exact good.2

theorem bridgeOrigins_eq (lawful : urls.Lawful) (filled : settings.allowedOrigins ≠ [])
    (each : ∀ origin ∈ settings.allowedOrigins, normalizeMcpHttpOrigin urls origin = .ok origin) :
    settings.bridgeOrigins = settings.allowedOrigins := by
  have trimmed : ∀ origin ∈ settings.allowedOrigins, trimText origin = origin := fun origin mem =>
    trimText_printable (origin_plain lawful (each origin mem)).2
  have comma : ∀ origin ∈ settings.allowedOrigins, ',' ∉ origin := fun origin mem =>
    trimmed origin mem ▸ normalizeMcpHttpOrigin_comma (each origin mem)
  have same : (settings.allowedOrigins.map trimText).filter (fun origin => !origin.isEmpty) =
      settings.allowedOrigins := by
    rw [map_congr_left trimmed, map_id'', filter_eq_self]
    · intro origin mem
      simpa using (origin_plain lawful (each origin mem)).1
    · exact fun _ => rfl
  unfold McpHttpSettings.bridgeOrigins environmentOrigins
  rw [splitOn_intercalate ',' comma filled, same]
  dsimp only
  rw [if_neg]
  simpa using filled

theorem validateOrigin_ok_iff {origin : List Char} {allowedOrigins : List (List Char)} :
    validateOrigin (some origin) allowedOrigins = .ok () ↔
      trimText origin = [] ∨ trimText origin ∈ allowedOrigins ∨ ['*'] ∈ allowedOrigins := by
  unfold validateOrigin
  rw [Option.map_some, Option.filter_some]
  by_cases blank : trimText origin = []
  · simp [blank]
  · rw [if_pos (by simpa using blank)]
    dsimp only
    split
    next found =>
      simp only [any_eq_true, Bool.or_eq_true, decide_eq_true_eq] at found
      obtain ⟨allowed, mem, any | same⟩ := found
      · exact iff_of_true rfl (.inr (.inr (any ▸ mem)))
      · exact iff_of_true rfl (.inr (.inl (same ▸ mem)))
    next missing =>
      simp only [any_eq_true, Bool.or_eq_true, decide_eq_true_eq, not_exists, not_and, not_or]
        at missing
      refine iff_of_false nofun ?_
      rintro (empty | mem | any)
      · exact blank empty
      · exact (missing _ mem).2 rfl
      · exact (missing _ any).1 rfl

theorem listed_again_iff (lawful : urls.Lawful) {given origins : List (List Char)}
    (each : List.Forall₂ (fun origin clean => normalizeMcpHttpOrigin urls origin = .ok clean)
      given origins) :
    (∀ clean ∈ origins, normalizeMcpHttpOrigin urls clean = .ok clean) ↔
      ∀ origin ∈ given, OriginStays urls origin := by
  induction each with
  | nil => exact ⟨fun _ => nofun, fun _ => nofun⟩
  | cons first _ ih =>
    rw [forall_mem_cons, forall_mem_cons, origin_again lawful first, ih]

/-- The settings that are accepted keep what they promise just where they fit. -/
theorem settingsHold_iff (lawful : urls.Lawful)
    (accepted : normalizeMcpHttpSettings urls request = .ok (settings, bindIp))
    (reads : urls.ReadsDefaults bindIp request.port) :
    SettingsHold urls request settings bindIp ↔ SettingsFit urls request bindIp := by
  obtain ⟨origins, normalized⟩ := normalizeMcpHttpSettings_ok_iff.mp accepted
  have valid := parseIpAddr_valid normalized.address
  have empty := origins_eq_nil_iff normalized
  have each := (normalizeMcpHttpOrigins_ok_iff.mp normalized.listed).1
  have port : settings.port = request.port := by rw [normalized.settings]
  have allowed : settings.allowedOrigins =
      if origins.isEmpty then defaultMcpHttpOrigins bindIp request.port else origins := by
    rw [normalized.settings]
  have client := clientHost_again lawful normalized.client
  have again := settings_again_iff normalized
  have fixed : (∀ origin ∈ settings.allowedOrigins, normalizeMcpHttpOrigin urls origin = .ok origin) ↔
      (∀ origin ∈ request.allowedOrigins, OriginStays urls origin) ∧
        (request.allowedOrigins = [] → request.port ≠ 80 ∧ ¬bindIp.isIpv4Mapped) := by
    by_cases none : origins = []
    · rw [allowed, if_pos (List.isEmpty_iff.mpr none), defaults_again_iff valid reads, empty.mp none]
      exact ⟨fun fits => ⟨nofun, fun _ => fits⟩, fun both => both.2 rfl⟩
    · rw [allowed, if_neg (by simpa using none), listed_again_iff lawful each]
      exact ⟨fun fits => ⟨fits, fun none' => absurd (empty.mpr none') none⟩, fun both => both.1⟩
  constructor
  · intro hold
    obtain ⟨kept, fit⟩ := again.mp hold.again
    obtain ⟨listed, defaults⟩ := fixed.mp fit
    exact ⟨client.mp kept, listed, defaults⟩
  · intro fit
    have whole := fixed.mpr ⟨fit.listed, fit.defaults⟩
    have bridge := bridgeOrigins_eq lawful (allowedOrigins_ne_nil normalized) whole
    refine ⟨again.mpr ⟨client.mpr fit.client, whole⟩, fun none host mem => ?_, fun origin ok => ?_⟩
    · obtain ⟨other, unmapped⟩ := fit.defaults none
      have text := (addressOrigin_eq_iff host).mpr ⟨other, (plainText_eq_text bindIp).mpr unmapped host mem⟩
      have plain := (@addressOrigin_sound request.port host (ownHost_of_mem valid mem)).1
      rw [bridge, port, ← text, validateOrigin_ok_iff, trimText_printable plain, allowed,
        if_pos (List.isEmpty_iff.mpr (empty.mpr none)), defaultMcpHttpOrigins_eq]
      exact .inr (.inl (mem_map_of_mem mem))
    · rw [bridge, validateOrigin_ok_iff] at ok
      exact ok

end Settings

section Samples

def loopbackTable : List (String × UrlHost × Nat) :=
  [ ("http://127.0.0.1:8787", .ipv4 loopbackBits, 8787),
    ("http://localhost:8787", .domain "localhost".toList, 8787),
    ("http://127.0.0.1:80", .ipv4 loopbackBits, 80), ("http://127.0.0.1", .ipv4 loopbackBits, 80),
    ("http://localhost:80", .domain "localhost".toList, 80),
    ("http://localhost", .domain "localhost".toList, 80) ]

/-- A crate that knows the URLs of a listener at the loopback address. -/
def loopbackUrls : UrlCrate where
  parse text :=
    (loopbackTable.find? fun entry => entry.1.toList = text).map fun entry =>
      originUrl "http".toList entry.2.1 entry.2.2
  parseHost text := if text = "127.0.0.1".toList then some (.ipv4 loopbackBits) else none

def loopbackRequest (port : UInt16) : McpHttpSettings where
  listenHost := "127.0.0.1".toList
  clientHost := "127.0.0.1".toList
  port := port
  allowedOrigins := []
  clientId := "agent"
  trusted := false
  allowRemote := false

theorem loopbackUrls_parse {text : List Char} {url : WebUrl} (found : loopbackUrls.parse text = some url) :
    ∃ entry ∈ loopbackTable, url = originUrl "http".toList entry.2.1 entry.2.2 := by
  obtain ⟨entry, first, rfl⟩ := Option.map_eq_some_iff.mp found
  exact ⟨entry, mem_of_find?_eq_some first, rfl⟩

theorem loopbackUrls_parseHost {text : List Char} {host : UrlHost}
    (found : loopbackUrls.parseHost text = some host) :
    text = "127.0.0.1".toList ∧ host = .ipv4 loopbackBits := by
  have found : (if text = "127.0.0.1".toList then some (UrlHost.ipv4 loopbackBits) else none) =
    some host := found
  split at found
  next same => exact ⟨same, (Option.some.inj found).symm⟩
  next => cases found

theorem loopbackTable_plain : ∀ entry ∈ loopbackTable, entry.2.1.Plain := by
  have checked : (loopbackTable.all fun entry =>
      entry.2.1 == .ipv4 loopbackBits || entry.2.1 == .domain "localhost".toList) = true := by
    decide
  intro entry mem
  have kind := all_eq_true.mp checked entry mem
  rw [Bool.or_eq_true, beq_iff_eq, beq_iff_eq] at kind
  have own : entry.2.1 ∈ ownHosts (.v4 0) := by
    rcases kind with same | same
    · exact same ▸ mem_cons_self
    · exact same ▸ mem_cons_of_mem _ mem_cons_self
  exact (@ownHost_of_mem (.v4 0) (by decide : 0 < 2 ^ 32) _ own).plain

theorem loopbackUrls_lawful : loopbackUrls.Lawful where
  hostPlain text host found := by
    rw [(loopbackUrls_parseHost found).2]
    exact (by decide : loopbackBits < 2 ^ 32)
  hostAgain text host found := by
    rw [(loopbackUrls_parseHost found).2]
    decide
  hostColon text colon _ := by
    cases found : loopbackUrls.parseHost text with
    | none => rfl
    | some host =>
      rw [(loopbackUrls_parseHost found).1] at colon
      exact absurd colon (by decide)
  urlPlain text url host found here := by
    obtain ⟨entry, mem, rfl⟩ := loopbackUrls_parse found
    obtain rfl : entry.2.1 = host := Option.some.inj here
    exact loopbackTable_plain entry mem
  urlAgain text url host found _ here := by
    have checked : (loopbackTable.all fun entry =>
        loopbackUrls.parse (originText "http".toList entry.2.1 entry.2.2) ==
          some (originUrl "http".toList entry.2.1 entry.2.2)) = true := by
      decide
    obtain ⟨entry, mem, rfl⟩ := loopbackUrls_parse found
    obtain rfl : entry.2.1 = host := Option.some.inj here
    exact beq_iff_eq.mp (all_eq_true.mp checked entry mem)

def loopbackSettings (port : UInt16) : McpHttpSettings :=
  { loopbackRequest port with
    allowedOrigins := defaultMcpHttpOrigins (.v4 loopbackBits) port }

set_option maxRecDepth 4000 in
theorem loopback_settings_hold :
    let page := "http://localhost:8787".toList
    SettingsHold loopbackUrls { loopbackRequest 8787 with allowedOrigins := [page] }
      { loopbackSettings 8787 with allowedOrigins := [page] } (.v4 loopbackBits) := by
  refine (settingsHold_iff loopbackUrls_lawful (by decide) ?_).mpr ⟨?_, ?_, nofun⟩
  · intro host mem
    obtain rfl : host = .ipv4 loopbackBits := mem_singleton.mp mem
    decide
  · intro host found
    rw [(loopbackUrls_parseHost found).2]
    trivial
  · intro origin mem url _ parsed
    rw [mem_singleton.mp mem] at parsed
    cases Option.some.inj (parsed.symm.trans
      (by decide : _ = some (originUrl "http".toList (.domain "localhost".toList) 8787)))
    decide

set_option maxRecDepth 4000 in
/-- At the standard port the page of the bridge itself is refused, and the settings are changed when
they are saved again. -/
theorem standard_port_refused :
    normalizeMcpHttpSettings loopbackUrls (loopbackRequest 80) =
        .ok (loopbackSettings 80, .v4 loopbackBits) ∧
      originText "http".toList (.ipv4 loopbackBits) 80 = "http://127.0.0.1".toList ∧
      (validateOrigin (some "http://127.0.0.1".toList) (loopbackSettings 80).bridgeOrigins).isOk = false ∧
      normalizeMcpHttpSettings loopbackUrls (loopbackSettings 80) ≠
        .ok (loopbackSettings 80, .v4 loopbackBits) := by
  decide

end Samples

end PortMate
