import WalletCore.Lib.WebUrl
import WalletCore.Send.Letters
import WalletCore.Send.Lnurl

/-! # The host of a callback

A callback is bound to the domain of its address by the host that the wallet reads in it, but the request goes
to the host that the client reads, and from there to where the answers send it. The client's reader of hosts and
what is answered are parameters.
-/

namespace WalletCore.Send

open Lib
open WebUrl (httpsHost hostText hostAndPort splitPort portFits PlainHost StandardHosts)

/-- A host is a domain or is below it, whatever the case of their letters. -/
def InDomain (host domain : List Char) : Prop :=
  host.map Char.toLower = domain.map Char.toLower ∨ '.' :: domain.map Char.toLower <:+ host.map Char.toLower

instance (host domain : List Char) : Decidable (InDomain host domain) := inferInstanceAs (Decidable (_ ∨ _))

/-- Between the scheme and the path, the query or the fragment, the host stands behind the last at sign and
in front of a port. -/
inductive Writes : List Char → List Char → Prop
  | intro (user host port tail : List Char) (hUser : user = [] ∨ user.getLast? = some '@') (hHost : host ≠ [])
      (hSign : '@' ∉ host ++ port) (hPort : if host.head? = some '[' then port = [] else ':' ∉ host ∧ ∀ c ∈ port.head?, c = ':')
      (hEnds : ∀ c ∈ user ++ (host ++ port), endsAuthority c = false) (hTail : ∀ c ∈ tail.head?, endsAuthority c = true) :
      Writes ("https://".toList ++ (user ++ (host ++ port) ++ tail)) host

/-- A host is a domain as it stands or is below it. -/
def Below (host domain : List Char) : Prop := host = domain ∨ '.' :: domain <:+ host

/-- The host that a callback writes is, in small letters, the domain as it stands or below it. -/
def WrittenIn (callback domain : List Char) : Prop := ∃ host, Writes callback host ∧ Below (toLowercase host) domain

/-- The client reads a host in the domain. -/
def ReadIn (hostParser : List Char → Option (List Char)) (callback domain : List Char) : Prop :=
  ∃ host, httpsHost hostParser callback = some host ∧ InDomain host domain

/-! ## The client -/

/-- A host that is asked, and the address it is asked for. -/
structure Place where
  host : List Char
  address : List Char
deriving DecidableEq

/-- A place sends the client on to another one, or it answers. -/
inductive Reply where
  | redirect (target : Place)
  | body (text : List Char)
  | failure
  | late

/-- What the client makes of the last answer. -/
def Reply.read : Reply → Option (Except ResolveError (List Char))
  | .redirect _ => some (.error .invoiceFetchFailed)
  | .body text => some (.ok text)
  | .failure => some (.error .invoiceFetchFailed)
  | .late => none

def maxRedirects : Nat := 10

section

variable (hostParser : List Char → Option (List Char)) (serve : Place → Reply)

def get : Nat → Place → Option (Except ResolveError (List Char))
  | 0, place => (serve place).read
  | limit + 1, place =>
    match serve place with
    | .redirect target => get limit target
    | reply => reply.read

/-- The places that are asked, from the first on. -/
def trail : Nat → Place → List Place
  | 0, place => [place]
  | limit + 1, place =>
    match serve place with
    | .redirect target => place :: trail limit target
    | _ => [place]

def firstPlace (url : List Char) : Option Place := (httpsHost hostParser url).map fun host => { host, address := url }

def lnurlCallback (url : List Char) : Option (Except ResolveError (List Char)) :=
  match firstPlace hostParser url with
  | none => some (.error .invoiceFetchFailed)
  | some place => get serve maxRedirects place

def asked (url : List Char) : List Place :=
  match firstPlace hostParser url with
  | none => []
  | some place => trail serve maxRedirects place

/-- No redirect that the client follows leads out of the domain. -/
def Stays (domain : List Char) : Nat → Place → Prop
  | 0, _ => True
  | limit + 1, place =>
    match serve place with
    | .redirect target => InDomain target.host domain ∧ Stays domain limit target
    | _ => True

/-- None leads out of it from the callback, whatever is asked for. -/
def StaysIn (init : LnurlInit) (domain : List Char) : Prop :=
  ∀ amountMsat, init.minSendableMsat ≤ amountMsat → amountMsat ≤ init.maxSendableMsat →
    ∀ place ∈ firstPlace hostParser (callbackUrl init.callback amountMsat), Stays serve domain maxRedirects place

/-- A callback is accepted if its host is in the domain, and no host outside is asked for the invoice or heard. -/
structure BindsHost (init : LnurlInit) (user domain raw : List Char) : Prop where
  accepted : (∃ classified, finishLnurl init user domain raw = .ok classified) ↔ ReadIn hostParser init.callback domain
  dialled : ∀ metadata kept, finishLnurl init user domain raw = .ok (.lnurl metadata kept) →
    ∀ amountMsat, metadata.minSendableMsat ≤ amountMsat → amountMsat ≤ metadata.maxSendableMsat →
    ∀ place ∈ asked hostParser serve (callbackUrl metadata.callback amountMsat), InDomain place.host domain
  heard : ∀ metadata kept, finishLnurl init user domain raw = .ok (.lnurl metadata kept) →
    ∀ fromStr parsers others amountMsat now, (∀ place, InDomain place.host domain → serve place = others place) →
    fetchLnurlInvoice fromStr parsers (lnurlCallback hostParser serve) metadata amountMsat now =
      fetchLnurlInvoice fromStr parsers (lnurlCallback hostParser others) metadata amountMsat now

/-- The wallet reads in the callback what the client reads there, or it reads nothing: the host stands where it seems
to, and the client takes it as it is but for its case, or takes no host from it. -/
inductive Regular (callback : List Char) : Prop
  | unwritten (hNone : ∀ host, ¬ Writes callback host)
  | invalid (host : List Char) (port : Option (List Char)) (hText : hostText callback = some (host, port))
      (hNone : port.all portFits = false ∨ hostParser host = none)
  | valid (host : List Char) (port : Option (List Char)) (hText : hostText callback = some (host, port))
      (hFits : port.all portFits = true) (hSame : hostParser host = some (toLowercase host))

/-- A callback that is refused for its form is outside the domain, one that the client refuses does not write the domain,
and one in the domain meets no capital letters there and no redirect that leads out. -/
structure Bound (init : LnurlInit) (domain : List Char) : Prop where
  unwritten : (∀ host, ¬ Writes init.callback host) → ¬ ReadIn hostParser init.callback domain
  invalid : ∀ host port, hostText init.callback = some (host, port) → port.all portFits = false ∨ hostParser host = none →
    ¬ Below (toLowercase host) domain
  valid : ∀ host port, hostText init.callback = some (host, port) → port.all portFits = true →
    hostParser host = some (toLowercase host) → InDomain (toLowercase host) domain →
    domain.map Char.toLower = domain ∧ StaysIn hostParser serve init domain

end

/-! ## What the wallet reads -/

section

variable {callback host : List Char}

theorem getD_rsplitOnce (text : List Char) : ((rsplitOnce '@' text).map Prod.snd).getD text = hostAndPort text := by
  cases hCut : rsplitOnce '@' text with
  | none => exact (WebUrl.hostAndPort_of_notMem (rsplitOnce_eq_none.mp hCut)).symm
  | some cut =>
    obtain ⟨rfl, hSign⟩ := rsplitOnce_eq_some.mp hCut
    exact (WebUrl.hostAndPort_behind hSign _).symm

theorem hostAndPort_cut (text : List Char) :
    ∃ user, text = user ++ hostAndPort text ∧ (user = [] ∨ user.getLast? = some '@') ∧ '@' ∉ hostAndPort text := by
  cases hCut : rsplitOnce '@' text with
  | none =>
    have hSign := rsplitOnce_eq_none.mp hCut
    rw [WebUrl.hostAndPort_of_notMem hSign]
    exact ⟨[], rfl, .inl rfl, hSign⟩
  | some cut =>
    obtain ⟨rfl, hSign⟩ := rsplitOnce_eq_some.mp hCut
    rw [WebUrl.hostAndPort_behind hSign]
    exact ⟨cut.1 ++ ['@'], List.append_cons _ _ _, .inr List.getLast?_concat, hSign⟩

/-- The host in a text that has a port behind it. -/
def hostPart (hostPort : List Char) : List Char :=
  if hostPort.head? = some '[' then hostPort else hostPort.takeWhile (· != ':')

theorem urlHostname_https (afterScheme : List Char) :
    urlHostname ("https://".toList ++ afterScheme) =
      let host := hostPart (hostAndPort (afterScheme.takeWhile (! endsAuthority ·)))
      if host = [] then none else some (toLowercase host) := by
  have hCut : splitOnceAt "://".toList ("https://".toList ++ afterScheme) = some ("https".toList, afterScheme) := rfl
  rw [urlHostname, hCut, Option.bind_some]
  dsimp only
  rw [hostPortOf, getD_rsplitOnce]
  rfl

theorem hostPart_cut (hostPort : List Char) : ∃ port, hostPort = hostPart hostPort ++ port ∧
    if (hostPart hostPort).head? = some '[' then port = [] else ':' ∉ hostPart hostPort ∧ ∀ c ∈ port.head?, c = ':' := by
  by_cases hBracket : hostPort.head? = some '['
  · have hPart : hostPart hostPort = hostPort := if_pos hBracket
    rw [hPart]
    exact ⟨[], (List.append_nil _).symm, (if_pos hBracket).mpr rfl⟩
  · have hPart : hostPart hostPort = hostPort.takeWhile (· != ':') := if_neg hBracket
    have hHead : ¬ (hostPort.takeWhile (· != ':')).head? = some '[' := by
      rw [List.head?_takeWhile, Option.filter_eq_some_iff]
      exact fun h => hBracket h.1
    rw [hPart]
    refine ⟨hostPort.dropWhile (· != ':'), List.takeWhile_append_dropWhile.symm, (if_neg hHead).mpr ⟨?_, ?_⟩⟩
    · intro hColon
      exact absurd (List.mem_takeWhile_imp hColon) (by decide)
    · intro c hc
      have hStop := List.head?_dropWhile_not (· != ':') hostPort
      rw [Option.mem_def.mp hc] at hStop
      simpa using hStop

theorem Writes.urlHostname_eq (h : Writes callback host) : urlHostname callback = some (toLowercase host) := by
  obtain ⟨user, _, port, tail, hUser, hHost, hSign, hPort, hEnds, hTail⟩ := h
  have hAuthority : (user ++ (host ++ port) ++ tail).takeWhile (! endsAuthority ·) = user ++ (host ++ port) := by
    apply WebUrl.takeWhile_front
    · intro c hc
      rw [hEnds c hc]
      rfl
    · intro c hc
      rw [hTail c hc]
      rfl
  have hHostPort : hostAndPort (user ++ (host ++ port)) = host ++ port := by
    obtain rfl | hLast := hUser
    · exact WebUrl.hostAndPort_of_notMem hSign
    · obtain ⟨credentials, rfl⟩ := List.getLast?_eq_some_iff.mp hLast
      rw [List.append_assoc]
      exact WebUrl.hostAndPort_behind hSign credentials
  have hPart : hostPart (host ++ port) = host := by
    rw [hostPart, List.head?_append_of_ne_nil _ hHost]
    split_ifs at hPort ⊢
    · rw [hPort, List.append_nil]
    · apply WebUrl.takeWhile_front
      · intro c hc
        apply bne_iff_ne.mpr
        rintro rfl
        exact hPort.1 hc
      · intro c hc
        rw [hPort.2 c hc]
        rfl
  rw [urlHostname_https, hAuthority, hHostPort, hPart]
  exact if_neg hHost

theorem writes_of_urlHostname {lower afterScheme : List Char}
    (h : urlHostname ("https://".toList ++ afterScheme) = some lower) :
    ∃ host, Writes ("https://".toList ++ afterScheme) host ∧ lower = toLowercase host := by
  rw [urlHostname_https] at h
  obtain ⟨hHost, hLower⟩ := Option.ite_none_left_eq_some.mp h
  obtain ⟨user, hForm, hUser, hSign⟩ := hostAndPort_cut (afterScheme.takeWhile (! endsAuthority ·))
  have hEnds : ∀ c ∈ afterScheme.takeWhile (! endsAuthority ·), endsAuthority c = false := by
    intro c hc
    simpa using List.mem_takeWhile_imp hc
  have hTail : ∀ c ∈ (afterScheme.dropWhile (! endsAuthority ·)).head?, endsAuthority c = true := by
    intro c hc
    have hStop := List.head?_dropWhile_not (! endsAuthority ·) afterScheme
    rw [Option.mem_def.mp hc] at hStop
    simpa using hStop
  have hWhole := List.takeWhile_append_dropWhile (p := (! endsAuthority ·)) (l := afterScheme)
  generalize afterScheme.takeWhile (! endsAuthority ·) = authority at *
  generalize hostAndPort authority = hostPort at *
  subst hForm
  refine ⟨hostPart hostPort, ?_, (Option.some.inj hLower).symm⟩
  obtain ⟨port, hPort, hCut⟩ := hostPart_cut hostPort
  rw [hPort] at hSign hEnds hWhole
  rw [← hWhole]
  exact .intro user (hostPart hostPort) port _ hUser hHost hSign hCut hEnds hTail

theorem writtenIn_iff {domain : List Char} : WrittenIn callback domain ↔ stripPrefix "https://".toList callback ≠ none ∧
    ∃ lower, urlHostname callback = some lower ∧ Below lower domain := by
  constructor
  · rintro ⟨host, hWrites, hIn⟩
    refine ⟨?_, _, hWrites.urlHostname_eq, hIn⟩
    obtain ⟨user, _, port, tail⟩ := hWrites
    rw [stripPrefix_eq_some.mpr rfl]
    exact Option.some_ne_none _
  · rintro ⟨hScheme, lower, hLower, hIn⟩
    obtain ⟨afterScheme, hForm⟩ := Option.ne_none_iff_exists'.mp hScheme
    rw [stripPrefix_eq_some.mp hForm] at hLower ⊢
    obtain ⟨host, hWrites, rfl⟩ := writes_of_urlHostname hLower
    exact ⟨host, hWrites, hIn⟩

theorem finishLnurl_written {init : LnurlInit} {user domain raw : List Char} :
    (∃ classified, finishLnurl init user domain raw = .ok classified) ↔ WrittenIn init.callback domain := by
  rw [writtenIn_iff, finishLnurl]
  split_ifs with hScheme
  · exact iff_of_false (fun ⟨_, h⟩ => nomatch h) (fun h => h.1 hScheme)
  · cases hHost : urlHostname init.callback with
    | none => exact iff_of_false (fun ⟨_, h⟩ => nomatch h) (fun ⟨_, _, h, _⟩ => nomatch h)
    | some host =>
      dsimp only
      split_ifs with hForeign
      · apply iff_of_false
        · rintro ⟨_, ⟨⟩⟩
        · rintro ⟨-, _, ⟨⟩, hIn⟩
          obtain rfl | hBelow := hIn
          · exact hForeign.1 rfl
          · exact hForeign.2 (List.isSuffixOf_iff_suffix.mpr hBelow)
      · apply iff_of_true ⟨_, rfl⟩
        refine ⟨hScheme, host, rfl, ?_⟩
        rw [not_and_or, not_not, not_not] at hForeign
        exact hForeign.imp id List.isSuffixOf_iff_suffix.mp

end

/-! ## Hosts that both read -/

section

variable {callback host domain : List Char} {port : Option (List Char)}

theorem toLowercase_plain (h : ∀ c ∈ host, WebUrl.isHostLetter c = true) : toLowercase host = host.map Char.toLower := by
  induction host with
  | nil => rfl
  | cons c host ih =>
    obtain ⟨hc, hHost⟩ := List.forall_mem_cons.mp h
    have hLetter : Sweep.lowerChar c = [c.toLower] := by
      rw [Sweep.lowerChar, if_neg, if_neg]
      · rintro rfl
        exact absurd hc (by decide)
      · rintro rfl
        exact absurd hc (by decide)
    have hRest := ih hHost
    rw [toLowercase] at hRest ⊢
    rw [List.flatMap_cons, hLetter, hRest, List.map_cons, List.singleton_append]

theorem toLowercase_small (text : List Char) : (toLowercase text).map Char.toLower = toLowercase text := by
  have hLetter : ∀ c, (Sweep.lowerChar c).map Char.toLower = Sweep.lowerChar c := by
    intro c
    rw [Sweep.lowerChar]
    split_ifs
    · decide
    · decide
    · rw [List.map_singleton, toLower_toLower]
  rw [toLowercase, List.map_flatMap, funext hLetter]

/-- What the wallet compares are small letters, so the domain must have none but these. -/
theorem below_iff_inDomain : Below (toLowercase host) domain ↔
    InDomain (toLowercase host) domain ∧ domain.map Char.toLower = domain := by
  have hSmall := toLowercase_small host
  generalize toLowercase host = lower at hSmall
  constructor
  · rintro (rfl | hBelow)
    · exact ⟨.inl rfl, hSmall⟩
    · have hAll : ∀ c ∈ lower, c.toLower = id c := by
        apply List.map_inj_left.mp
        rw [hSmall, List.map_id]
      have hDomain : domain.map Char.toLower = domain := by
        rw [List.map_congr_left fun c hc => hAll c (hBelow.subset (List.mem_cons_of_mem _ hc)), List.map_id]
      refine ⟨.inr ?_, hDomain⟩
      rwa [hSmall, hDomain]
  · rintro ⟨hIn, hDomain⟩
    rwa [InDomain, hSmall, hDomain] at hIn

theorem urlHostname_hostText (h : hostText callback = some (host, port)) :
    urlHostname callback = some (toLowercase host) := by
  obtain ⟨authority, tail, rfl, hTail, hOutside, -, hCut, hNonempty, hBracket⟩ := WebUrl.hostText_eq_some h
  have hAuthority : (authority ++ tail).takeWhile (! endsAuthority ·) = authority := by
    apply WebUrl.takeWhile_front
    · intro c hc
      have hLetter := hOutside c hc
      rw [WebUrl.endsAuthority, WebUrl.isSlash] at hLetter
      rw [endsAuthority]
      simp only [Bool.or_eq_false_iff, Bool.not_eq_true'] at hLetter ⊢
      exact ⟨⟨hLetter.1.1.1, hLetter.1.2⟩, hLetter.2⟩
    · intro c hc
      obtain rfl | rfl | rfl := hTail c hc
      · decide
      · decide
      · decide
  have hPart : hostPart (hostAndPort authority) = host := by
    by_cases hInside : '[' ∈ host
    · obtain ⟨hFirst, rfl⟩ := hBracket hInside
      rw [hostPart, if_pos hFirst, WebUrl.splitPort_none hCut]
    · have hHost : (hostAndPort authority).takeWhile (· != ':') = host := by
        rw [← WebUrl.splitPort_fst (by rwa [hCut]), hCut]
      rw [hostPart, if_neg, hHost]
      intro hFirst
      apply hInside
      rw [← hHost]
      apply List.mem_of_mem_head?
      rw [List.head?_takeWhile, hFirst]
      rfl
  rw [List.append_assoc, urlHostname_https, hAuthority, hPart]
  exact if_neg hNonempty

theorem scheme_hostText (h : hostText callback = some (host, port)) : ∃ behind, callback = "https://".toList ++ behind := by
  obtain ⟨authority, tail, rfl, -⟩ := WebUrl.hostText_eq_some h
  exact ⟨authority ++ tail, List.append_assoc _ _ _⟩

theorem writes_of_hostText (h : hostText callback = some (host, port)) : ∃ written, Writes callback written := by
  have hLower := urlHostname_hostText h
  obtain ⟨behind, rfl⟩ := scheme_hostText h
  obtain ⟨written, hWrites, -⟩ := writes_of_urlHostname hLower
  exact ⟨written, hWrites⟩

theorem writtenIn_hostText (h : hostText callback = some (host, port)) :
    WrittenIn callback domain ↔ Below (toLowercase host) domain := by
  rw [writtenIn_iff, urlHostname_hostText h]
  constructor
  · rintro ⟨-, _, ⟨⟩, hIn⟩
    exact hIn
  · intro hIn
    obtain ⟨behind, hForm⟩ := scheme_hostText h
    refine ⟨?_, _, rfl, hIn⟩
    rw [stripPrefix_eq_some.mpr hForm]
    exact Option.some_ne_none _

end

/-! ## Requests -/

section

variable {hostParser : List Char → Option (List Char)} {serve others : Place → Reply} {init : LnurlInit}
  {user domain raw : List Char}

theorem callbackUrl_host (hParser : StandardHosts hostParser) {callback host other : List Char} {amountMsat : UInt64}
    (h : httpsHost hostParser callback = some host) (hOther : httpsHost hostParser (callbackUrl callback amountMsat) = some other) :
    other = host := by
  have hDigits : ∀ c ∈ "amount=".toList ++ Nat.toDigits 10 amountMsat.toNat, WebUrl.isControlOrSpace c = false := by
    intro c hc
    obtain hName | hDigit := List.mem_append.mp hc
    · have hAll : ∀ c ∈ "amount=".toList, WebUrl.isControlOrSpace c = false := by decide
      exact hAll c hName
    · exact WebUrl.not_control_of_isDigit (Nat.isDigit_of_mem_toDigits (by decide) (by decide) hDigit)
  rw [callbackUrl, List.append_assoc, List.cons_append] at hOther
  split_ifs at hOther with hQuery
  · exact WebUrl.httpsHost_append hParser (List.forall_mem_cons.mpr ⟨by decide, hDigits⟩) (.inr ⟨rfl, hQuery⟩) h hOther
  · exact WebUrl.httpsHost_append hParser (List.forall_mem_cons.mpr ⟨by decide, hDigits⟩) (.inl rfl) h hOther

theorem firstPlace_callbackUrl (hParser : StandardHosts hostParser) {callback : List Char} {amountMsat : UInt64} {place : Place}
    (hRead : ReadIn hostParser callback domain) (h : firstPlace hostParser (callbackUrl callback amountMsat) = some place) :
    InDomain place.host domain := by
  obtain ⟨own, hOwn, hIn⟩ := hRead
  obtain ⟨host, hHost, rfl⟩ := Option.map_eq_some_iff.mp h
  rwa [callbackUrl_host hParser hOwn hHost]

/-- What is answered at places that are not asked does not matter. -/
theorem get_congr {limit : Nat} {place : Place} (h : ∀ other ∈ trail serve limit place, serve other = others other) :
    get serve limit place = get others limit place := by
  induction limit generalizing place with
  | zero =>
    rw [get, get, h place List.mem_cons_self]
  | succ limit ih =>
    rw [trail] at h
    rw [get, get]
    cases hReply : serve place with
    | redirect target =>
      rw [hReply] at h
      obtain ⟨hHere, hRest⟩ := List.forall_mem_cons.mp h
      rw [← hHere]
      dsimp only
      rw [hReply]
      exact ih hRest
    | _ =>
      rw [hReply] at h
      rw [← h place List.mem_cons_self, hReply]

theorem trail_inDomain_iff {limit : Nat} {place : Place} : (∀ other ∈ trail serve limit place, InDomain other.host domain) ↔
    InDomain place.host domain ∧ Stays serve domain limit place := by
  induction limit generalizing place with
  | zero =>
    rw [trail, List.forall_mem_singleton, Stays, and_true]
  | succ limit ih =>
    rw [trail, Stays]
    cases serve place with
    | redirect target => rw [List.forall_mem_cons, ih]
    | _ => rw [List.forall_mem_singleton, and_true]

theorem asked_inDomain_iff {url : List Char} : (∀ other ∈ asked hostParser serve url, InDomain other.host domain) ↔
    ∀ place ∈ firstPlace hostParser url, InDomain place.host domain ∧ Stays serve domain maxRedirects place := by
  rw [asked]
  cases firstPlace hostParser url with
  | none => exact iff_of_true (List.forall_mem_nil _) (fun _ h => nomatch h)
  | some place =>
    constructor
    · rintro hAll _ ⟨⟩
      exact trail_inDomain_iff.mp hAll
    · intro hPlace
      exact trail_inDomain_iff.mpr (hPlace place rfl)

theorem lnurlCallback_congr {url : List Char} (h : ∀ other ∈ asked hostParser serve url, serve other = others other) :
    lnurlCallback hostParser serve url = lnurlCallback hostParser others url := by
  rw [asked] at h
  rw [lnurlCallback, lnurlCallback]
  cases hFirst : firstPlace hostParser url with
  | none => rfl
  | some place =>
    rw [hFirst] at h
    exact get_congr h

/-- Where every redirect leads into the domain, none leads out of it. -/
theorem Stays.of_redirects (h : ∀ place target, serve place = .redirect target → InDomain target.host domain) (limit : Nat) (place : Place) :
    Stays serve domain limit place := by
  induction limit generalizing place with
  | zero => trivial
  | succ limit ih =>
    rw [Stays]
    cases hReply : serve place with
    | redirect target => exact ⟨h place target hReply, ih target⟩
    | _ => trivial

theorem finishLnurl_kept {metadata : LnurlPayMetadata} {kept : List Char}
    (h : finishLnurl init user domain raw = .ok (.lnurl metadata kept)) : metadata.callback = init.callback ∧
      metadata.minSendableMsat = init.minSendableMsat ∧ metadata.maxSendableMsat = init.maxSendableMsat := by
  rw [finishLnurl] at h
  split_ifs at h with hScheme
  split at h
  · cases h
  · split_ifs at h with hForeign
    cases h
    exact ⟨rfl, rfl, rfl⟩

theorem finishLnurl_lnurl {classified : Classified} (h : finishLnurl init user domain raw = .ok classified) :
    ∃ metadata kept, classified = .lnurl metadata kept := by
  rw [finishLnurl] at h
  split_ifs at h with hScheme
  split at h
  · cases h
  · split_ifs at h with hForeign
    cases h
    exact ⟨_, _, rfl⟩

/-- What is accepted is in the domain, and the client stays there. -/
theorem bindsHost_iff (hParser : StandardHosts hostParser) : BindsHost hostParser serve init user domain raw ↔
    (WrittenIn init.callback domain ↔ ReadIn hostParser init.callback domain) ∧
    (WrittenIn init.callback domain → StaysIn hostParser serve init domain) := by
  constructor
  · intro hBinds
    refine ⟨by rw [← hBinds.accepted, finishLnurl_written], ?_⟩
    intro hWritten amountMsat hMin hMax place hPlace
    obtain ⟨classified, hFinish⟩ := finishLnurl_written.mpr hWritten
    obtain ⟨metadata, kept, rfl⟩ := finishLnurl_lnurl hFinish
    obtain ⟨hCallback, hLeast, hMost⟩ := finishLnurl_kept hFinish
    have hAsked := hBinds.dialled metadata kept hFinish amountMsat (hLeast ▸ hMin) (hMost ▸ hMax)
    rw [hCallback] at hAsked
    exact (asked_inDomain_iff.mp hAsked place hPlace).2
  · rintro ⟨hSame, hStays⟩
    have hDialled : ∀ metadata kept, finishLnurl init user domain raw = .ok (.lnurl metadata kept) → ∀ amountMsat,
        metadata.minSendableMsat ≤ amountMsat → amountMsat ≤ metadata.maxSendableMsat →
        ∀ place ∈ asked hostParser serve (callbackUrl metadata.callback amountMsat), InDomain place.host domain := by
      intro metadata kept hFinish amountMsat hMin hMax
      have hWritten := finishLnurl_written.mp ⟨_, hFinish⟩
      obtain ⟨hCallback, hLeast, hMost⟩ := finishLnurl_kept hFinish
      rw [hCallback, asked_inDomain_iff]
      intro place hPlace
      constructor
      · exact firstPlace_callbackUrl hParser (hSame.mp hWritten) hPlace
      · exact hStays hWritten amountMsat (hLeast ▸ hMin) (hMost ▸ hMax) place hPlace
    constructor
    · rw [finishLnurl_written, hSame]
    · exact hDialled
    · intro metadata kept hFinish fromStr parsers others amountMsat now hAgree
      rw [fetchLnurlInvoice, fetchLnurlInvoice]
      split_ifs with hBounds
      · rfl
      · rw [not_or, UInt64.not_lt, UInt64.not_lt] at hBounds
        have hPlaces := hDialled metadata kept hFinish amountMsat hBounds.1 hBounds.2
        rw [lnurlCallback_congr fun place hPlace => hAgree place (hPlaces place hPlace)]

theorem bindsHost_unwritten (hParser : StandardHosts hostParser) (hNone : ∀ host, ¬ Writes init.callback host) :
    BindsHost hostParser serve init user domain raw ↔ ¬ ReadIn hostParser init.callback domain := by
  have hOutside : ¬ WrittenIn init.callback domain := fun ⟨host, hWrites, _⟩ => hNone host hWrites
  rw [bindsHost_iff hParser]
  constructor
  · rintro ⟨hSame, -⟩
    rwa [← hSame]
  · intro hRead
    exact ⟨iff_of_false hOutside hRead, fun hWritten => absurd hWritten hOutside⟩

section

variable {host : List Char} {port : Option (List Char)} (hText : hostText init.callback = some (host, port))

include hText

theorem bindsHost_invalid (hParser : StandardHosts hostParser) (hNone : port.all portFits = false ∨ hostParser host = none) :
    BindsHost hostParser serve init user domain raw ↔ ¬ Below (toLowercase host) domain := by
  have hRead : ¬ ReadIn hostParser init.callback domain := by
    rintro ⟨other, hOther, -⟩
    rw [WebUrl.httpsHost_hostText hText] at hOther
    obtain ⟨hFits, hSome⟩ := Option.ite_none_right_eq_some.mp hOther
    obtain hBad | hRefused := hNone
    · rw [hFits] at hBad
      cases hBad
    · rw [hRefused] at hSome
      cases hSome
  rw [bindsHost_iff hParser, writtenIn_hostText hText]
  constructor
  · rintro ⟨hSame, -⟩
    rwa [hSame]
  · intro hBelow
    exact ⟨iff_of_false hBelow hRead, fun h => absurd h hBelow⟩

theorem bindsHost_valid (hParser : StandardHosts hostParser) (hFits : port.all portFits = true)
    (hSame : hostParser host = some (toLowercase host)) : BindsHost hostParser serve init user domain raw ↔
      (InDomain (toLowercase host) domain → domain.map Char.toLower = domain ∧ StaysIn hostParser serve init domain) := by
  have hRead : ReadIn hostParser init.callback domain ↔ InDomain (toLowercase host) domain := by
    rw [ReadIn, WebUrl.httpsHost_hostText hText, if_pos hFits, hSame]
    constructor
    · rintro ⟨_, ⟨⟩, hIn⟩
      exact hIn
    · intro hIn
      exact ⟨_, rfl, hIn⟩
  rw [bindsHost_iff hParser, writtenIn_hostText hText, hRead, below_iff_inDomain]
  constructor
  · rintro ⟨hIff, hStays⟩ hIn
    exact ⟨(hIff.mpr hIn).2, hStays (hIff.mpr hIn)⟩
  · intro hBound
    exact ⟨⟨fun h => h.1, fun hIn => ⟨hIn, (hBound hIn).1⟩⟩, fun h => (hBound h.1).2⟩

end

/-- A callback that the wallet reads as the client does is bound to its domain, unless the two differ on its form or
on the case of the domain, or its place sends the client out of the domain. -/
theorem callback_bound_iff (hParser : StandardHosts hostParser) (hRegular : Regular hostParser init.callback) :
    BindsHost hostParser serve init user domain raw ↔ Bound hostParser serve init domain := by
  constructor
  · intro hBinds
    constructor
    · intro hNone
      exact (bindsHost_unwritten hParser hNone).mp hBinds
    · intro host port hText hNone
      exact (bindsHost_invalid hText hParser hNone).mp hBinds
    · intro host port hText hFits hSame
      exact (bindsHost_valid hText hParser hFits hSame).mp hBinds
  · intro hBound
    cases hRegular with
    | unwritten hNone => exact (bindsHost_unwritten hParser hNone).mpr (hBound.unwritten hNone)
    | invalid host port hText hNone =>
      exact (bindsHost_invalid hText hParser hNone).mpr (hBound.invalid host port hText hNone)
    | valid host port hText hFits hSame =>
      exact (bindsHost_valid hText hParser hFits hSame).mpr (hBound.valid host port hText hFits hSame)

/-- Behind a backslash, which ends the authority for the client, the wallet still takes an at sign for the end
of credentials. -/
theorem backslash_misread (hParser : StandardHosts hostParser) {foreign : List Char} (hForeign : PlainHost foreign)
    (hDomain : PlainHost domain) (hSmall : domain.map Char.toLower = domain) :
    WrittenIn ("https://".toList ++ (foreign ++ '\\' :: '@' :: domain)) domain ∧
    httpsHost hostParser ("https://".toList ++ (foreign ++ '\\' :: '@' :: domain)) = some (foreign.map Char.toLower) := by
  constructor
  · have hNotIn : ∀ c, WebUrl.isHostLetter c = false → c ∉ domain := by
      intro c hc hMem
      exact WebUrl.ne_of_hostLetter (hDomain.letters c hMem) hc rfl
    have hEnds : ∀ c, WebUrl.isHostLetter c = true → endsAuthority c = false := by
      intro c hc
      rw [endsAuthority]
      simp only [Bool.or_eq_false_iff, beq_eq_false_iff_ne]
      exact ⟨⟨WebUrl.ne_of_hostLetter hc (by decide), WebUrl.ne_of_hostLetter hc (by decide)⟩,
        WebUrl.ne_of_hostLetter hc (by decide)⟩
    refine ⟨domain, ?_, .inl ?_⟩
    · have hForm : foreign ++ '\\' :: '@' :: domain = (foreign ++ ['\\', '@']) ++ (domain ++ []) ++ [] := by simp
      rw [hForm]
      apply Writes.intro
      · exact .inr (by simp)
      · exact hDomain.ne_nil
      · rw [List.append_nil]
        exact hNotIn '@' (by decide)
      · rw [if_neg]
        · exact ⟨hNotIn ':' (by decide), nofun⟩
        · exact fun hBracket => hNotIn '[' (by decide) (List.mem_of_mem_head? hBracket)
      · intro c hc
        rw [List.append_nil, List.mem_append, List.mem_append] at hc
        obtain (hc | hc) | hc := hc
        · exact hEnds c (hForeign.letters c hc)
        · obtain rfl | rfl := List.mem_pair.mp hc
          · decide
          · decide
        · exact hEnds c (hDomain.letters c hc)
      · rintro _ ⟨⟩
    · rw [toLowercase_plain hDomain.letters, hSmall]
  · apply WebUrl.httpsHost_backslash hParser hForeign
    intro c hc
    obtain rfl | hRest := List.mem_cons.mp hc
    · decide
    · exact WebUrl.visible_of_hostLetter (hDomain.letters c hRest)

end

/-! ## Callbacks of one provider -/

/-- Takes the plain hosts alone. -/
def plainHosts (host : List Char) : Option (List Char) := if PlainHost host then some (host.map Char.toLower) else none

theorem plainHosts_standard : StandardHosts plainHosts := by
  constructor
  · intro host h
    exact if_pos h
  · rintro host ⟨c, hc, hBlank⟩
    apply if_neg
    intro h
    rw [WebUrl.not_control_of_visible (WebUrl.visible_of_hostLetter (h.letters c hc))] at hBlank
    cases hBlank

def servedInit (callback : String) : LnurlInit where
  callback := callback.toList
  minSendableMsat := 1000
  maxSendableMsat := 5000000000
  description := none
  expectedDescriptionHash := none

/-- Every place sends the client on to a host, which answers. -/
def sentTo (host : String) (place : Place) : Reply :=
  if place.host = host.toList then .body "\x7b\x7d".toList
  else .redirect { host := host.toList, address := "https://".toList ++ host.toList }

theorem sentTo_redirect {host : String} {place target : Place} (h : sentTo host place = .redirect target) : target.host = host.toList := by
  rw [sentTo] at h
  split_ifs at h
  cases h
  rfl

theorem own_callback_bound :
    BindsHost plainHosts (sentTo "example.com") (servedInit "https://pay.Example.com/cb?id=7") "tips".toList
      "example.com".toList "tips@example.com".toList ∧
    ¬ BindsHost plainHosts (sentTo "evil.com") (servedInit "https://pay.Example.com/cb?id=7") "tips".toList
      "example.com".toList "tips@example.com".toList := by
  have hText : hostText (servedInit "https://pay.Example.com/cb?id=7").callback = some ("pay.Example.com".toList, none) := by
    decide +kernel
  have hSame : plainHosts "pay.Example.com".toList = some (toLowercase "pay.Example.com".toList) := by decide +kernel
  have hRegular : Regular plainHosts (servedInit "https://pay.Example.com/cb?id=7").callback := .valid _ _ hText rfl hSame
  constructor
  · apply (callback_bound_iff plainHosts_standard hRegular).mpr
    constructor
    · intro hNone
      obtain ⟨host, hWrites⟩ := writes_of_hostText hText
      exact absurd hWrites (hNone host)
    · intro host port hOther hNone
      rw [hText] at hOther
      cases hOther
      rw [hSame] at hNone
      exact absurd hNone (by decide)
    · intro host port hOther hFits hParsed hIn
      refine ⟨by decide +kernel, ?_⟩
      intro amountMsat hMin hMax place hPlace
      apply Stays.of_redirects
      intro place target hTarget
      rw [sentTo_redirect hTarget]
      exact .inl rfl
  · intro hBinds
    have hBound := (callback_bound_iff plainHosts_standard hRegular).mp hBinds
    obtain ⟨-, hStays⟩ := hBound.valid _ _ hText rfl hSame (.inr (by decide +kernel))
    have hOut := hStays 1000 (by decide) (by decide) _ (show firstPlace plainHosts _ = some
      { host := "pay.example.com".toList, address := "https://pay.Example.com/cb?id=7&amount=1000".toList } by decide +kernel)
    exact absurd hOut.1 (by decide +kernel)

/-- A name is what is on the two sides of its at sign. -/
def nameParsers : Parsers where
  bolt11 _ := none
  offer _ := none
  humanReadableName text := splitOnce '@' text

/-- A host outside the domain is accepted and asked behind a backslash. The domain's own host is refused when the name
was typed with a capital letter. A place in the domain sends the client to a host outside, which is asked. -/
theorem foreign_callback_accepted :
    classifyAt nameParsers "tips@example.com".toList 0 =
      .ok (.bip353 "tips".toList "example.com".toList "tips@example.com".toList) ∧
    (∃ classified, finishLnurl (servedInit "https://evil.com\\@example.com/") "tips".toList "example.com".toList
      "tips@example.com".toList = .ok classified) ∧
    (asked plainHosts (sentTo "evil.com") (callbackUrl "https://evil.com\\@example.com/".toList 1000)).map (·.host) =
      ["evil.com".toList] ∧
    ¬ BindsHost plainHosts (sentTo "evil.com") (servedInit "https://evil.com\\@example.com/") "tips".toList
      "example.com".toList "tips@example.com".toList ∧
    classifyAt nameParsers "tips@Example.com".toList 0 =
      .ok (.bip353 "tips".toList "Example.com".toList "tips@Example.com".toList) ∧
    finishLnurl (servedInit "https://example.com/cb") "tips".toList "Example.com".toList "tips@Example.com".toList =
      .error .callbackDomainMismatch ∧
    ¬ BindsHost plainHosts (sentTo "example.com") (servedInit "https://example.com/cb") "tips".toList "Example.com".toList
      "tips@Example.com".toList ∧
    (∃ classified, finishLnurl (servedInit "https://example.com/cb") "tips".toList "example.com".toList
      "tips@example.com".toList = .ok classified) ∧
    (asked plainHosts (sentTo "evil.com") (callbackUrl "https://example.com/cb".toList 1000)).map (·.host) =
      ["example.com".toList, "evil.com".toList] ∧
    ¬ BindsHost plainHosts (sentTo "evil.com") (servedInit "https://example.com/cb") "tips".toList "example.com".toList
      "tips@example.com".toList := by
  have hForeign : ¬ InDomain "evil.com".toList "example.com".toList := by decide +kernel
  have hRead : httpsHost plainHosts "https://example.com/cb".toList = some "example.com".toList := by decide +kernel
  have hRefused : finishLnurl (servedInit "https://example.com/cb") "tips".toList "Example.com".toList
      "tips@Example.com".toList = .error .callbackDomainMismatch := by decide +kernel
  have hMisread : (asked plainHosts (sentTo "evil.com") (callbackUrl "https://evil.com\\@example.com/".toList 1000)).map
      (·.host) = ["evil.com".toList] := by decide +kernel
  have hSentOn : (asked plainHosts (sentTo "evil.com") (callbackUrl "https://example.com/cb".toList 1000)).map (·.host) =
      ["example.com".toList, "evil.com".toList] := by decide +kernel
  -- A callback that is accepted is not bound where the foreign host is asked.
  have hUnbound : ∀ callback, (∃ classified, finishLnurl (servedInit callback) "tips".toList "example.com".toList
      "tips@example.com".toList = .ok classified) →
      "evil.com".toList ∈ (asked plainHosts (sentTo "evil.com") (callbackUrl callback.toList 1000)).map (·.host) →
      ¬ BindsHost plainHosts (sentTo "evil.com") (servedInit callback) "tips".toList "example.com".toList
        "tips@example.com".toList := by
    rintro callback ⟨classified, hFinish⟩ hAsked hBinds
    obtain ⟨metadata, kept, rfl⟩ := finishLnurl_lnurl hFinish
    obtain ⟨hCallback, hLeast, hMost⟩ := finishLnurl_kept hFinish
    obtain ⟨place, hPlace, hHost⟩ := List.mem_map.mp hAsked
    have hMin : metadata.minSendableMsat ≤ 1000 := by
      rw [hLeast]
      exact UInt64.le_refl _
    have hMax : 1000 ≤ metadata.maxSendableMsat := by
      rw [hMost]
      change (1000 : UInt64) ≤ 5000000000
      decide
    have hIn := hBinds.dialled metadata kept hFinish 1000 hMin hMax place (by rwa [hCallback])
    rw [hHost] at hIn
    exact hForeign hIn
  refine ⟨by decide +kernel, ⟨_, rfl⟩, hMisread, ?_, by decide +kernel, hRefused, ?_, ⟨_, rfl⟩, hSentOn, ?_⟩
  · apply hUnbound _ ⟨_, rfl⟩
    rw [hMisread]
    exact List.mem_cons_self
  · intro hBinds
    obtain ⟨classified, hOk⟩ := hBinds.accepted.mpr ⟨_, hRead, .inl (by decide)⟩
    rw [hRefused] at hOk
    cases hOk
  · apply hUnbound _ ⟨_, rfl⟩
    rw [hSentOn]
    exact List.mem_cons_of_mem _ List.mem_cons_self

end WalletCore.Send
