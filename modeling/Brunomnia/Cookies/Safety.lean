import Brunomnia.Cookies.Jar
import Brunomnia.Library.Runs

/-!
# What the jar gives away

A jar that is filled by responses keeps one cookie for a name, domain and path and sends a cookie
to the host that set it or to the names under the domain that it carried. That holds if no
`Max-Age` goes beyond the last date, none is followed by `Expires` alone, and an address is not
given a domain that other addresses end in.
-/

namespace Brunomnia.Cookies

open Codegen (Text trimText)
open Library

variable {runtime : Runtime}

/-! ## What is expected -/

def attributeDomain (attributes : List Attribute) : Option Text :=
  (attributes.filterMap fun
    | .domain domain => some domain
    | _ => none).getLast?

/-- The last finite `Max-Age` among the attributes. -/
def lastMaxAge (attributes : List Attribute) : Option ℚ :=
  (attributes.filterMap fun
    | .maxAge seconds => some seconds
    | _ => none).getLast?

/-- A path that is the cookie's or lies below it. -/
def PathCovers (cookiePath requestPath : Text) : Prop :=
  ∃ rest, requestPath = cookiePath ++ rest ∧
    (rest = [] ∨ cookiePath.getLast? = some '/' ∨ rest.head? = some '/')

def requestPath (url : Url) : Text :=
  if url.pathname = [] then ['/'] else url.pathname

/-- A registered name that is the domain or lies below it. -/
def NameUnder (domain hostname : Text) : Prop :=
  isIpAddress hostname = false ∧ (hostname = domain ∨ '.' :: domain <:+ hostname)

/-- A header of one of the responses sets the cookie. -/
structure SetBy (runtime : Runtime) (calls : List Call) (call : Call) (header : Text)
    (cookie : CookieRecord) : Prop where
  callMem : call ∈ calls
  headerMem : header ∈ call.headers
  parsed : parseSetCookie runtime header call.url call.now = .ok (some cookie)

structure JarSafe (runtime : Runtime) (calls : List Call) (jar : List CookieRecord) : Prop where
  keysDistinct : (jar.map CookieRecord.key).Nodup
  setByHeader : ∀ cookie ∈ jar, ∃ call header, SetBy runtime calls call header cookie
  unexpired : ∀ url now, ∀ cookie ∈ cookiesForUrl runtime jar url now,
    ∀ expires ∈ cookie.expires, now.ms < expires.ms
  pathCovers : ∀ url now, ∀ cookie ∈ cookiesForUrl runtime jar url now,
    PathCovers cookie.path (requestPath url)
  secureOnly : ∀ url now, ∀ cookie ∈ cookiesForUrl runtime jar url now, cookie.secure = true →
    url.protocol = "https:".toList ∨ url.protocol = "wss:".toList
  longestFirst : ∀ url now, (cookiesForUrl runtime jar url now).Pairwise fun left right =>
    textLength right.path ≤ textLength left.path
  isolated : ∀ url now, ∀ cookie ∈ cookiesForUrl runtime jar url now, ∀ call header,
    SetBy runtime calls call header cookie →
    url.hostname = call.url.hostname ∨
      ∃ domain, .domain domain ∈ headerAttributes runtime header ∧
        NameUnder domain call.url.hostname ∧ NameUnder domain url.hostname
  maxAgeDecides : ∀ call header cookie, SetBy runtime calls call header cookie →
    ∀ seconds, lastMaxAge (headerAttributes runtime header) = some seconds →
      ∃ expires, maxAgeExpiry runtime call.now seconds = .ok expires ∧
        cookie.expires = some expires

/-- The responses are stored without an error, and the jar that they leave is safe. -/
def StoredSafely (runtime : Runtime) (calls : List Call) : Prop :=
  ∃ jar, storeAll runtime calls = .ok jar ∧ JarSafe runtime calls jar

/-! ## When it holds -/

def Attribute.isExpiry : Attribute → Bool
  | .expires _ | .maxAge _ => true
  | _ => false

/-- A header whose `Max-Age`s are within the range of dates; when its domain is accepted, it has
no `Expires` behind the last `Max-Age`, and an address has no domain but itself. -/
structure HeaderSound (runtime : Runtime) (url : Url) (now : Instant) (header : Text) : Prop where
  inRange : nameAndValue header ≠ none →
    ∀ seconds, .maxAge seconds ∈ headerAttributes runtime header →
      |runtime.round (now.ms + runtime.round (seconds * 1000))| ≤ maxTime
  maxAgeLast : nameAndValue header ≠ none →
    (∀ domain ∈ attributeDomain (headerAttributes runtime header),
      domainCovers domain url.hostname) →
    ∀ seconds ∈ lastMaxAge (headerAttributes runtime header),
      ((headerAttributes runtime header).filter Attribute.isExpiry).getLast? =
        some (.maxAge seconds)
  ownAddress : nameAndValue header ≠ none → isIpAddress url.hostname = true →
    ∀ domain ∈ attributeDomain (headerAttributes runtime header),
      domainCovers domain url.hostname → domain = url.hostname

/-! ## The attributes -/

theorem Settings.apply_domain {now : Instant} {settings after : Settings} {attr : Attribute}
    (applied : settings.apply runtime now attr = .ok after) :
    (∃ domain, attr = .domain domain ∧ after.domain = domain ∧ after.hostOnly = false) ∨
      (∀ domain, attr ≠ .domain domain) ∧ after.domain = settings.domain ∧
        after.hostOnly = settings.hostOnly := by
  cases attr with
  | domain domain =>
      cases applied
      exact .inl ⟨domain, rfl, rfl, rfl⟩
  | maxAge seconds =>
      apply Or.inr
      simp only [Settings.apply] at applied
      cases expiry : maxAgeExpiry runtime now seconds with
      | error failure => simp [expiry, bind, Except.bind] at applied
      | ok expires =>
          simp only [expiry, bind, Except.bind, pure, Except.pure, Except.ok.injEq] at applied
          subst applied
          exact ⟨by simp, rfl, rfl⟩
  | _ =>
      cases applied
      exact .inr ⟨by simp, rfl, rfl⟩

/-- The domain is the last one among the attributes, or the host as before. -/
theorem domain_of_attributes {now : Instant} (attributes : List Attribute)
    {settings after : Settings}
    (applied : attributes.foldlM (Settings.apply runtime now) settings = .ok after) :
    after.domain = (attributeDomain attributes).getD settings.domain ∧
      after.hostOnly = (settings.hostOnly && (attributeDomain attributes).isNone) := by
  induction attributes generalizing settings with
  | nil =>
      cases applied
      simp [attributeDomain]
  | cons attr attributes ih =>
      rw [List.foldlM_cons] at applied
      cases first : settings.apply runtime now attr with
      | error failure => simp [first, bind, Except.bind] at applied
      | ok next =>
          simp only [first, bind, Except.bind] at applied
          rcases ih applied with ⟨domainEq, hostOnlyEq⟩
          rcases Settings.apply_domain first with
            ⟨domain, rfl, nextDomain, nextHostOnly⟩ | ⟨noDomain, nextDomain, nextHostOnly⟩
          · have last : attributeDomain (.domain domain :: attributes) =
                some ((attributeDomain attributes).getD domain) := by
              exact List.getLast?_cons
            rw [domainEq, hostOnlyEq, last, nextDomain, nextHostOnly]
            simp
          · have last : attributeDomain (attr :: attributes) = attributeDomain attributes := by
              cases attr with
              | domain domain => exact absurd rfl (noDomain domain)
              | _ => rfl
            rw [domainEq, hostOnlyEq, last, nextDomain, nextHostOnly]
            exact ⟨rfl, rfl⟩

theorem maxAgeExpiry_ok {now : Instant} {seconds : ℚ}
    (inRange : |runtime.round (now.ms + runtime.round (seconds * 1000))| ≤ maxTime) :
    ∃ expires, maxAgeExpiry runtime now seconds = .ok expires := by
  simp only [maxAgeExpiry, dif_pos inRange]
  exact ⟨_, rfl⟩

theorem attributes_apply {now : Instant} {attributes : List Attribute}
    (inRange : ∀ seconds, .maxAge seconds ∈ attributes →
      |runtime.round (now.ms + runtime.round (seconds * 1000))| ≤ maxTime)
    (settings : Settings) :
    ∃ after, attributes.foldlM (Settings.apply runtime now) settings = .ok after := by
  have applies : ∃ after, attributes.foldlM (Settings.apply runtime now) settings = .ok after ∧
      True := by
    refine exists_foldlM_eq_ok (fun _ => True) attributes trivial ?_
    intro state attr attrMem _
    cases attr with
    | maxAge seconds =>
        rcases maxAgeExpiry_ok (inRange seconds attrMem) with ⟨expires, expiry⟩
        refine ⟨{ state with expires := some expires }, ?_, trivial⟩
        simp [Settings.apply, expiry, bind, Except.bind, pure, Except.pure]
    | _ => exact ⟨_, rfl, trivial⟩
  rcases applies with ⟨after, applied, _⟩
  exact ⟨after, applied⟩

theorem Settings.apply_expires {now : Instant} {settings after : Settings} {attr : Attribute}
    (applied : settings.apply runtime now attr = .ok after) :
    (attr.isExpiry = false → after.expires = settings.expires) ∧
      ∀ seconds, attr = .maxAge seconds →
        ∃ expires, maxAgeExpiry runtime now seconds = .ok expires ∧
          after.expires = some expires := by
  cases attr with
  | maxAge seconds =>
      simp only [Settings.apply] at applied
      cases expiry : maxAgeExpiry runtime now seconds with
      | error failure => simp [expiry, bind, Except.bind] at applied
      | ok expires =>
          simp only [expiry, bind, Except.bind, pure, Except.pure, Except.ok.injEq] at applied
          subst applied
          refine ⟨by simp [Attribute.isExpiry], ?_⟩
          rintro _ ⟨rfl⟩
          exact ⟨expires, expiry, rfl⟩
  | expires expires => exact ⟨by simp [Attribute.isExpiry], by simp⟩
  | _ =>
      cases applied
      exact ⟨fun _ => rfl, by simp⟩

/-- The last attribute that sets the expiry decides it. -/
theorem expires_of_attributes {now : Instant} (attributes : List Attribute)
    {settings after : Settings}
    (applied : attributes.foldlM (Settings.apply runtime now) settings = .ok after) :
    ((attributes.filter Attribute.isExpiry).getLast? = none →
        after.expires = settings.expires) ∧
      ∀ seconds, (attributes.filter Attribute.isExpiry).getLast? = some (.maxAge seconds) →
        ∃ expires, maxAgeExpiry runtime now seconds = .ok expires ∧
          after.expires = some expires := by
  induction attributes generalizing settings with
  | nil =>
      cases applied
      exact ⟨fun _ => rfl, by simp⟩
  | cons attr attributes ih =>
      rw [List.foldlM_cons] at applied
      cases first : settings.apply runtime now attr with
      | error failure => simp [first, bind, Except.bind] at applied
      | ok next =>
          simp only [first, bind, Except.bind] at applied
          rcases Settings.apply_expires first with ⟨kept, set⟩
          rcases ih applied with ⟨keptLater, setLater⟩
          cases expiry : attr.isExpiry with
          | false =>
              rw [List.filter_cons_of_neg (by simp [expiry])]
              exact ⟨fun noLast => (keptLater noLast).trans (kept expiry), setLater⟩
          | true =>
              rw [List.filter_cons_of_pos expiry, List.getLast?_cons]
              refine ⟨by simp, fun seconds last => ?_⟩
              cases later : (attributes.filter Attribute.isExpiry).getLast? with
              | none =>
                  rw [later, Option.getD_none, Option.some.injEq] at last
                  rcases set seconds last with ⟨expires, expiryOk, nextExpires⟩
                  exact ⟨expires, expiryOk, (keptLater later).trans nextExpires⟩
              | some lastAttr =>
                  rw [later, Option.getD_some, Option.some.injEq] at last
                  exact setLater seconds (last ▸ later)

/-! ## A parsed cookie -/

theorem lowerCase_hostname (url : Url) : runtime.lowerCase url.hostname = url.hostname :=
  runtime.lowerCase_of_lower url.hostname url.lower

theorem domainCovers_iff {domain hostname : Text} :
    domainCovers domain hostname = true ↔ hostname = domain ∨ '.' :: domain <:+ hostname := by
  simp [domainCovers]

/-- What holds of a cookie that a header sets. -/
theorem parsed_cases {header : Text} {url : Url} {now : Instant} {cookie : CookieRecord}
    (parsed : parseSetCookie runtime header url now = .ok (some cookie)) :
    nameAndValue header ≠ none ∧
      ∃ settings, (headerAttributes runtime header).foldlM (Settings.apply runtime now)
          (initialSettings runtime url) = .ok settings ∧
        cookie.expires = settings.expires ∧
        ((attributeDomain (headerAttributes runtime header) = none ∧ cookie.hostOnly = true ∧
            cookie.domain = url.hostname) ∨
          ∃ domain, attributeDomain (headerAttributes runtime header) = some domain ∧
            cookie.hostOnly = false ∧ cookie.domain = domain ∧
            domainCovers domain url.hostname = true) := by
  simp only [parseSetCookie] at parsed
  cases pair : nameAndValue header with
  | none => simp [pair] at parsed
  | some nameValue =>
      rcases nameValue with ⟨name, value⟩
      refine ⟨by simp, ?_⟩
      simp only [pair] at parsed
      cases applied : (headerAttributes runtime header).foldlM (Settings.apply runtime now)
          (initialSettings runtime url) with
      | error failure => simp [applied, bind, Except.bind] at parsed
      | ok settings =>
          rcases domain_of_attributes _ applied with ⟨domainEq, hostOnlyEq⟩
          simp only [initialSettings, lowerCase_hostname, Bool.true_and] at domainEq hostOnlyEq
          simp only [applied, bind, Except.bind, lowerCase_hostname] at parsed
          refine ⟨settings, rfl, ?_⟩
          cases carried : attributeDomain (headerAttributes runtime header) with
          | none =>
              simp only [carried, Option.isNone_none, Option.getD_none] at hostOnlyEq domainEq
              simp [hostOnlyEq, domainEq, pure, Except.pure] at parsed
              subst parsed
              exact ⟨rfl, .inl ⟨rfl, rfl, rfl⟩⟩
          | some domain =>
              simp only [carried, Option.isNone_some, Option.getD_some] at hostOnlyEq domainEq
              cases covers : domainCovers domain url.hostname with
              | false => simp [hostOnlyEq, domainEq, covers, pure, Except.pure] at parsed
              | true =>
                  simp [hostOnlyEq, domainEq, covers, pure, Except.pure] at parsed
                  subst parsed
                  exact ⟨rfl, .inr ⟨domain, rfl, rfl, rfl, covers⟩⟩

/-! ## Hosts under a domain -/

theorem labels_of_suffix {domain hostname : Text} (suffix : '.' :: domain <:+ hostname) :
    (labels hostname).getLast? = (labels domain).getLast? ∧
      (labels domain).length < (labels hostname).length := by
  rcases suffix with ⟨before, rfl⟩
  have split : labels (before ++ '.' :: domain) = labels before ++ labels domain :=
    List.splitOn_append_cons_self before domain
  have nonempty : labels domain ≠ [] := List.splitOn_ne_nil '.' domain
  have beforeNonempty : labels before ≠ [] := List.splitOn_ne_nil '.' before
  rw [split]
  refine ⟨List.getLast?_append_of_ne_nil _ nonempty, ?_⟩
  rw [List.length_append]
  have positive := List.length_pos_of_ne_nil beforeNonempty
  omega

theorem lastLabel_of_covers {domain hostname : Text}
    (covers : domainCovers domain hostname = true) :
    (labels hostname).getLast? = (labels domain).getLast? := by
  rcases domainCovers_iff.mp covers with rfl | suffix
  · rfl
  · exact (labels_of_suffix suffix).1

theorem lastLabel_of_isIpv4 {hostname : Text} (address : isIpv4 hostname = true) :
    ∃ label ∈ (labels hostname).getLast?, isNumeric label = true := by
  simp only [isIpv4, decide_eq_true_eq, Bool.decide_and, Bool.and_eq_true] at address
  have nonempty : labels hostname ≠ [] := List.splitOn_ne_nil '.' hostname
  refine ⟨_, List.getLast?_eq_some_getLast nonempty, ?_⟩
  exact List.all_eq_true.mp (by simpa using address.2) _ (List.getLast_mem nonempty)

theorem bracket_of_isIpv6 {hostname : Text} (address : isIpv6 hostname = true) :
    '[' ∈ hostname := by
  simp only [isIpv6, decide_eq_true_eq] at address
  exact List.mem_of_head? address

theorem isIpAddress_of_covers {named addressed : Url} {domain : Text}
    (coversNamed : domainCovers domain named.hostname = true)
    (coversAddressed : domainCovers domain addressed.hostname = true)
    (address : isIpAddress addressed.hostname = true) : isIpAddress named.hostname = true := by
  simp only [isIpAddress, Bool.or_eq_true] at address ⊢
  rcases address with ipv4 | ipv6
  · apply Or.inl
    rcases lastLabel_of_isIpv4 ipv4 with ⟨label, isLast, numeric⟩
    rw [lastLabel_of_covers coversAddressed, ← lastLabel_of_covers coversNamed] at isLast
    exact named.numeric label isLast numeric
  · have bracket := bracket_of_isIpv6 ipv6
    have noDot := (addressed.bracketed bracket).2
    rcases domainCovers_iff.mp coversAddressed with same | suffix
    · apply Or.inr
      have bracketNamed : '[' ∈ named.hostname := by
        rw [same] at bracket
        rcases domainCovers_iff.mp coversNamed with sameNamed | suffixNamed
        · exact sameNamed ▸ bracket
        · exact suffixNamed.subset (List.mem_cons_of_mem _ bracket)
      exact (named.bracketed bracketNamed).1
    · exact absurd (suffix.subset List.mem_cons_self) noDot

theorem eq_of_covers_address {addressed other : Url}
    (address : isIpAddress addressed.hostname = true)
    (covers : domainCovers addressed.hostname other.hostname = true) :
    other.hostname = addressed.hostname := by
  rcases domainCovers_iff.mp covers with same | suffix
  · exact same
  · simp only [isIpAddress, Bool.or_eq_true] at address
    rcases address with ipv4 | ipv6
    · rcases lastLabel_of_isIpv4 ipv4 with ⟨label, isLast, numeric⟩
      rw [← (labels_of_suffix suffix).1] at isLast
      have otherIpv4 := other.numeric label isLast numeric
      have longer := (labels_of_suffix suffix).2
      simp only [isIpv4, decide_eq_true_eq, Bool.decide_and, Bool.and_eq_true] at ipv4 otherIpv4
      omega
    · have bracket : '[' ∈ other.hostname :=
        suffix.subset (List.mem_cons_of_mem _ (bracket_of_isIpv6 ipv6))
      exact absurd (suffix.subset List.mem_cons_self) (other.bracketed bracket).2

theorem mem_of_attributeDomain {attributes : List Attribute} {domain : Text}
    (last : attributeDomain attributes = some domain) : .domain domain ∈ attributes := by
  rcases List.mem_filterMap.mp (List.mem_of_getLast? last) with ⟨attr, attrMem, isDomain⟩
  cases attr with
  | domain carried =>
      simp only [Option.some.injEq] at isDomain
      exact isDomain ▸ attrMem
  | _ => simp at isDomain

/-- A cookie is sent to the host of the header that set it, or under the domain it carried. -/
theorem isolated_of_sound {header : Text} {url later : Url} {now : Instant} {cookie : CookieRecord}
    (sound : HeaderSound runtime url now header)
    (parsed : parseSetCookie runtime header url now = .ok (some cookie))
    (matched : domainMatches cookie (runtime.lowerCase later.hostname) = true) :
    later.hostname = url.hostname ∨
      ∃ domain, .domain domain ∈ headerAttributes runtime header ∧
        NameUnder domain url.hostname ∧ NameUnder domain later.hostname := by
  rw [lowerCase_hostname] at matched
  rcases parsed_cases parsed with ⟨hasPair, settings, _, _, own | carried⟩
  · rcases own with ⟨_, hostOnly, domainEq⟩
    simp only [domainMatches, hostOnly, if_true, decide_eq_true_eq] at matched
    exact .inl (matched.trans domainEq)
  · rcases carried with ⟨domain, last, hostOnly, domainEq, covers⟩
    simp only [domainMatches, hostOnly, domainEq, Bool.false_eq_true, if_false] at matched
    cases address : isIpAddress url.hostname with
    | true =>
        apply Or.inl
        have same := sound.ownAddress hasPair address domain last covers
        exact eq_of_covers_address address (same ▸ matched)
    | false =>
        refine .inr ⟨domain, mem_of_attributeDomain last, ⟨address, domainCovers_iff.mp covers⟩,
          ?_, domainCovers_iff.mp matched⟩
        cases laterAddress : isIpAddress later.hostname with
        | false => rfl
        | true =>
            have contradiction := isIpAddress_of_covers covers matched laterAddress
            rw [address] at contradiction
            exact absurd contradiction (by simp)

theorem maxAge_of_sound {header : Text} {url : Url} {now : Instant} {cookie : CookieRecord}
    {seconds : ℚ} (sound : HeaderSound runtime url now header)
    (parsed : parseSetCookie runtime header url now = .ok (some cookie))
    (last : lastMaxAge (headerAttributes runtime header) = some seconds) :
    ∃ expires, maxAgeExpiry runtime now seconds = .ok expires ∧ cookie.expires = some expires := by
  rcases parsed_cases parsed with ⟨hasPair, settings, applied, expiresEq, accepted⟩
  have isLast := sound.maxAgeLast hasPair ?_ seconds last
  · rw [expiresEq]
    exact (expires_of_attributes _ applied).2 seconds isLast
  · intro domain carried
    rcases accepted with ⟨noDomain, _⟩ | ⟨acceptedDomain, isCarried, _, _, covers⟩
    · rw [noDomain] at carried
      exact absurd carried (by simp)
    · rw [isCarried] at carried
      exact Option.some.inj carried ▸ covers

theorem parse_of_sound {header : Text} {url : Url} {now : Instant}
    (sound : HeaderSound runtime url now header) :
    ∃ parsed, parseSetCookie runtime header url now = .ok parsed := by
  simp only [parseSetCookie]
  cases pair : nameAndValue header with
  | none => exact ⟨none, rfl⟩
  | some nameValue =>
      rcases nameValue with ⟨name, value⟩
      have inRange := sound.inRange (by simp [pair])
      rcases attributes_apply inRange (initialSettings runtime url) with ⟨settings, applied⟩
      simp only [applied, bind, Except.bind]
      split <;> split <;> exact ⟨_, rfl⟩

/-! ## The jar -/

theorem mem_storeCookie {output : List CookieRecord} {parsed cookie : CookieRecord}
    {now : Instant} (cookieMem : cookie ∈ storeCookie output parsed now) :
    cookie = parsed ∨ cookie ∈ output := by
  simp only [storeCookie] at cookieMem
  split at cookieMem
  case h_1 index found =>
      split at cookieMem
      case isTrue => exact .inr ((List.eraseIdx_sublist _ _).subset cookieMem)
      case isFalse => exact (List.mem_or_eq_of_mem_set cookieMem).symm
  case h_2 =>
      split at cookieMem
      case isTrue => exact .inr cookieMem
      case isFalse =>
          rcases List.mem_append.mp cookieMem with before | isNew
          · exact .inr before
          · exact .inl (List.mem_singleton.mp isNew)

theorem storeCookie_keys {output : List CookieRecord} (parsed : CookieRecord) (now : Instant)
    (distinct : (output.map CookieRecord.key).Nodup) :
    ((storeCookie output parsed now).map CookieRecord.key).Nodup := by
  simp only [storeCookie]
  split
  case h_1 index found =>
      rcases List.findIdx?_eq_some_iff_getElem.mp found with ⟨inRange, sameKey, _⟩
      split
      case isTrue => exact distinct.sublist ((List.eraseIdx_sublist _ _).map _)
      case isFalse =>
          have unchanged : (output.set index parsed).map CookieRecord.key =
              output.map CookieRecord.key := by
            rw [List.map_set, ← of_decide_eq_true sameKey]
            apply List.ext_getElem?
            intro position
            rw [List.getElem?_set]
            split
            case isTrue same =>
                subst same
                simp [inRange]
            case isFalse => rfl
          rw [unchanged]
          exact distinct
  case h_2 notFound =>
      split
      case isTrue => exact distinct
      case isFalse =>
          rw [List.map_append, List.map_singleton, List.nodup_append]
          refine ⟨distinct, List.nodup_singleton _, ?_⟩
          intro key keyMem other otherMem
          rcases List.mem_map.mp keyMem with ⟨cookie, cookieMem, rfl⟩
          rw [List.mem_singleton.mp otherMem]
          have different := List.findIdx?_eq_none_iff.mp notFound cookie cookieMem
          simpa using different

/-- The keys are distinct and every cookie was set by a header. -/
structure JarKnown (runtime : Runtime) (calls : List Call) (jar : List CookieRecord) : Prop where
  keysDistinct : (jar.map CookieRecord.key).Nodup
  setByHeader : ∀ cookie ∈ jar, ∃ call header, SetBy runtime calls call header cookie

theorem storeHeader_known {calls : List Call} {call : Call} {header : Text}
    {jar : List CookieRecord} (callMem : call ∈ calls) (headerMem : header ∈ call.headers)
    (sound : HeaderSound runtime call.url call.now header) (known : JarKnown runtime calls jar) :
    ∃ after, storeHeader runtime call.url call.now jar header = .ok after ∧
      JarKnown runtime calls after := by
  rcases parse_of_sound sound with ⟨parsed, parsedOk⟩
  simp only [storeHeader, parsedOk, bind, Except.bind]
  cases parsed with
  | none => exact ⟨jar, rfl, known⟩
  | some cookie =>
      refine ⟨storeCookie jar cookie call.now, rfl,
        storeCookie_keys cookie call.now known.keysDistinct, ?_⟩
      intro stored storedMem
      rcases mem_storeCookie storedMem with rfl | before
      · exact ⟨call, header, callMem, headerMem, parsedOk⟩
      · exact known.setByHeader stored before

theorem storeAll_known {calls : List Call}
    (sound : ∀ call ∈ calls, ∀ header ∈ call.headers,
      HeaderSound runtime call.url call.now header) :
    ∃ jar, storeAll runtime calls = .ok jar ∧ JarKnown runtime calls jar := by
  apply exists_foldlM_eq_ok (JarKnown runtime calls) calls
  · exact ⟨List.nodup_nil, by simp⟩
  · intro jar call callMem known
    apply exists_foldlM_eq_ok (JarKnown runtime calls) call.headers known
    intro output header headerMem outputKnown
    exact storeHeader_known callMem headerMem (sound call callMem header headerMem) outputKnown

/-! ## What is sent -/

theorem mem_cookiesForUrl {jar : List CookieRecord} {url : Url} {now : Instant}
    {cookie : CookieRecord} :
    cookie ∈ cookiesForUrl runtime jar url now ↔
      cookie ∈ jar ∧ isSent runtime cookie url now = true := by
  simp [cookiesForUrl]

theorem isSent_iff {cookie : CookieRecord} {url : Url} {now : Instant} :
    isSent runtime cookie url now = true ↔
      cookie.isExpired now = false ∧
        (cookie.secure = true → url.protocol = "https:".toList ∨ url.protocol = "wss:".toList) ∧
        domainMatches cookie (runtime.lowerCase url.hostname) = true ∧
        pathMatches cookie.path (requestPath url) = true := by
  simp only [isSent, requestPath]
  cases expired : cookie.isExpired now with
  | true => simp
  | false =>
      cases secure : cookie.secure with
      | false => simp
      | true =>
          by_cases https : url.protocol = "https:".toList <;> simp [https]

theorem pathCovers_of_matches {cookiePath path : Text}
    (isMatch : pathMatches cookiePath path = true) :
    PathCovers cookiePath path := by
  simp only [pathMatches, decide_eq_true_eq] at isMatch
  rcases isMatch with rfl | ⟨⟨rest, rfl⟩, boundary⟩
  · exact ⟨[], by simp, .inl rfl⟩
  · refine ⟨rest, rfl, .inr ?_⟩
    rcases boundary with slash | next
    · exact .inl slash
    · apply Or.inr
      rw [List.getElem?_append_right (Nat.le_refl _), Nat.sub_self] at next
      rw [List.head?_eq_getElem?]
      exact next

theorem sentBefore_total (runtime : Runtime) (left right : CookieRecord) :
    (sentBefore runtime left right || sentBefore runtime right left) = true := by
  have createdTotal := runtime.createdLe_total left.createdAt right.createdAt
  simp only [sentBefore, Bool.or_eq_true, decide_eq_true_eq] at createdTotal ⊢
  rcases Nat.lt_trichotomy (textLength left.path) (textLength right.path) with lt | eq | gt
  · exact .inr (.inl lt)
  · rcases createdTotal with created | created
    · exact .inl (.inr ⟨eq.symm, created⟩)
    · exact .inr (.inr ⟨eq, created⟩)
  · exact .inl (.inl gt)

theorem sentBefore_trans (runtime : Runtime) (first second third : CookieRecord)
    (firstSecond : sentBefore runtime first second = true)
    (secondThird : sentBefore runtime second third = true) :
    sentBefore runtime first third = true := by
  simp only [sentBefore, decide_eq_true_eq] at firstSecond secondThird ⊢
  rcases firstSecond with longer | ⟨sameLength, created⟩
  · rcases secondThird with longerAgain | ⟨sameAgain, _⟩
    · exact .inl (longerAgain.trans longer)
    · exact .inl (sameAgain ▸ longer)
  · rcases secondThird with longerAgain | ⟨sameAgain, createdAgain⟩
    · exact .inl (sameLength ▸ longerAgain)
    · exact .inr ⟨sameAgain.trans sameLength,
        runtime.createdLe_trans _ _ _ created createdAgain⟩

theorem cookiesForUrl_sorted (jar : List CookieRecord) (url : Url) (now : Instant) :
    (cookiesForUrl runtime jar url now).Pairwise fun left right =>
      textLength right.path ≤ textLength left.path := by
  have sorted := List.pairwise_mergeSort (sentBefore_trans runtime)
    (sentBefore_total runtime) (jar.filter fun cookie => isSent runtime cookie url now)
  apply sorted.imp
  intro left right before
  simp only [sentBefore, decide_eq_true_eq] at before
  rcases before with longer | ⟨same, _⟩
  · exact longer.le
  · exact same.le

/-- Responses whose headers are sound are stored, in a jar that is safe for every later request. -/
theorem cookies_safe (runtime : Runtime) (calls : List Call)
    (sound : ∀ call ∈ calls, ∀ header ∈ call.headers,
      HeaderSound runtime call.url call.now header) : StoredSafely runtime calls := by
  rcases storeAll_known sound with ⟨jar, stored, known⟩
  refine ⟨jar, stored, known.keysDistinct, known.setByHeader, ?_, ?_, ?_, ?_, ?_, ?_⟩
  · intro url now cookie sent expires hasExpiry
    have notExpired := (isSent_iff.mp (mem_cookiesForUrl.mp sent).2).1
    rw [Option.mem_def] at hasExpiry
    simpa [CookieRecord.isExpired, hasExpiry] using notExpired
  · exact fun url now cookie sent =>
      pathCovers_of_matches (isSent_iff.mp (mem_cookiesForUrl.mp sent).2).2.2.2
  · exact fun url now cookie sent =>
      (isSent_iff.mp (mem_cookiesForUrl.mp sent).2).2.1
  · exact cookiesForUrl_sorted jar
  · intro url now cookie sent call header set
    exact isolated_of_sound (sound call set.callMem header set.headerMem) set.parsed
      (isSent_iff.mp (mem_cookiesForUrl.mp sent).2).2.2.1
  · intro call header cookie set seconds last
    exact maxAge_of_sound (sound call set.callMem header set.headerMem) set.parsed last

/-! ## Two jars -/

theorem toLower_of_not_isUpper {letter : Char} (lower : ¬ letter.isUpper) :
    letter.toLower = letter := by
  simp only [Char.isUpper, decide_eq_true_eq] at lower
  simp only [Char.toLower]
  exact dif_neg lower

/-- What the runtime knows about the texts below. -/
def plainRuntime : Runtime where
  lowerCase := List.map Char.toLower
  lowerCase_of_lower text lower := by
    conv_rhs => rw [← List.map_id text]
    apply List.map_congr_left
    intro letter letterMem
    have isLower := List.all_eq_true.mp lower letter letterMem
    simp only [isLowerAscii, Bool.and_eq_true, Bool.not_eq_true'] at isLower
    exact toLower_of_not_isUpper (by simp [isLower.2])
  number text :=
    if text ≠ [] ∧ text.all Char.isDigit then
      some (text.foldl (fun value digit => 10 * value + (digit.toNat - '0'.toNat : ℕ)) 0)
    else none
  round value := value
  parseDate text :=
    if text = "Thu, 01 Jan 1970 00:00:00 GMT".toList then some ⟨0, by decide⟩ else none
  createdLe left right := left.ms ≤ right.ms
  createdLe_total left right := by simpa using le_total left.ms right.ms
  createdLe_trans first second third := by simpa using le_trans

def shop : Url where
  protocol := "https:".toList
  hostname := "shop.example.com".toList
  pathname := "/cart/items".toList
  lower := by decide
  numeric := by decide
  bracketed := by decide

def shopHeader : Text :=
  "id=7; Domain=example.com; Expires=Thu, 01 Jan 1970 00:00:00 GMT; Max-Age=60; Secure".toList

theorem cookies_safe_shop :
    StoredSafely plainRuntime [⟨shop, [shopHeader], ⟨1000, by decide⟩⟩] := by
  apply cookies_safe
  have attributes : headerAttributes plainRuntime shopHeader =
      [.domain "example.com".toList, .expires (some ⟨0, by decide⟩), .maxAge 60, .secure] := by
    decide +kernel
  intro call callMem header headerMem
  rw [List.mem_singleton.mp callMem] at headerMem ⊢
  rw [List.mem_singleton.mp headerMem]
  refine ⟨fun _ seconds secondsMem => ?_, fun _ _ seconds last => ?_, fun _ address => ?_⟩
  · rw [attributes] at secondsMem
    have sixty : seconds = 60 := by simpa using secondsMem
    rw [sixty]
    decide +kernel
  · rw [attributes] at last ⊢
    have sixty : seconds = 60 := by simpa [lastMaxAge] using last.symm
    rw [sixty]
    decide
  · exact absurd address (by decide)

def address : Url where
  protocol := "http:".toList
  hostname := "1.2.3.4".toList
  pathname := ['/']
  lower := by decide
  numeric := by decide
  bracketed := by decide

def otherAddress : Url where
  protocol := "http:".toList
  hostname := "9.8.3.4".toList
  pathname := ['/']
  lower := by decide
  numeric := by decide
  bracketed := by decide

def addressCookie : CookieRecord where
  id := "cookie-3.4-%2F-id".toList
  name := "id".toList
  value := "7".toList
  domain := "3.4".toList
  path := ['/']
  expires := none
  secure := false
  httpOnly := false
  sameSite := .unset
  hostOnly := false
  createdAt := ⟨1000, by decide⟩

theorem address_shares :
    ¬ StoredSafely plainRuntime
      [⟨address, ["id=7; Domain=3.4".toList], ⟨1000, by decide⟩⟩] := by
  rintro ⟨jar, stored, safe⟩
  have jarEq : storeAll plainRuntime [⟨address, ["id=7; Domain=3.4".toList], ⟨1000, by decide⟩⟩] =
      .ok [addressCookie] := by rfl
  rw [jarEq, Except.ok.injEq] at stored
  subst stored
  have set : SetBy plainRuntime [⟨address, ["id=7; Domain=3.4".toList], ⟨1000, by decide⟩⟩]
      ⟨address, ["id=7; Domain=3.4".toList], ⟨1000, by decide⟩⟩ "id=7; Domain=3.4".toList
      addressCookie :=
    ⟨List.mem_singleton_self _, List.mem_singleton_self _, by rfl⟩
  have sent : addressCookie ∈ cookiesForUrl plainRuntime [addressCookie] otherAddress
      ⟨1000, by decide⟩ := by decide +kernel
  rcases safe.isolated otherAddress ⟨1000, by decide⟩ addressCookie sent _ _ set with
    same | ⟨domain, _, ⟨notAddress, _⟩, _⟩
  · exact absurd same (by decide)
  · exact absurd notAddress (by decide)

end Brunomnia.Cookies
