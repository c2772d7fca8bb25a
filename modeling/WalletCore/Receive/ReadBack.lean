import WalletCore.Receive.Uri

/-! # Receive URIs are read back

What the receive screen writes, as it is and in capitals, is classified as a URI of the same amount and
address, paid by the offer, the invoice or the address, in this order.
-/

namespace WalletCore.Receive

open Lib Lib.Regex Send
open Wallet (isWhiteSpace)

/-! ## Requests -/

/-- What is put in one URI, with what its texts stand for. -/
structure Request where
  address : Option (List Char)
  amountSats : Option UInt64
  invoice : Option (List Char × Invoice)
  offer : Option (List Char × Offer)

namespace Request

def uri (r : Request) : List Char :=
  buildBip321UriParts r.address r.amountSats (r.invoice.map Prod.fst) (r.offer.map Prod.fst)

def amount (r : Request) : Option UInt64 := r.amountSats.filter (0 < ·)

/-- What the URI is to be paid by, from its texts as they are written. -/
def preferred (r : Request) (form : List Char → List Char) (fallback : Option (List Char)) : Option Classified :=
  match r.offer, r.invoice with
  | some (text, offer), _ => some (offer.classified (form text))
  | none, some (text, invoice) => some (invoice.classified (form text))
  | none, none => fallback.map (Classified.onchain · r.amount)

structure Payable (r : Request) (parsers : Parsers) (now : Nat) : Prop where
  address : ∀ address ∈ r.address, address.map Char.toLower ∈ bech32Grammar.matches'
  invoice : ∀ invoice ∈ r.invoice, parsers.bolt11 invoice.1 = some invoice.2 ∧ invoice.2.network = .bitcoin ∧
    invoice.2.wouldExpire now = false
  offer : ∀ offer ∈ r.offer, parsers.offer offer.1 = some offer.2 ∧ offer.2.supportsChain .bitcoin = true ∧
    offer.2.isExpiredNoStd now = false
  method : r.address ≠ none ∨ r.invoice ≠ none ∨ r.offer ≠ none
  fits : r.uri.length ≤ maxInputChars

end Request

/-- The texts of invoices and offers: letters and digits, in an offer also plus signs that spaces may follow.
In capitals they stand for the same. -/
structure Bech32 (parsers : Parsers) : Prop where
  invoice_letters : ∀ text invoice, parsers.bolt11 text = some invoice → text ≠ [] ∧ ∀ c ∈ text, c.isAlphanum = true
  invoice_upper : ∀ text invoice, parsers.bolt11 text = some invoice → parsers.bolt11 (toUppercase text) = some invoice
  offer_letters : ∀ text offer, parsers.offer text = some offer →
    text ≠ [] ∧ ∀ c ∈ text, c.isAlphanum = true ∨ c = '+' ∨ isWhiteSpace c = true
  offer_last : ∀ text offer, parsers.offer text = some offer → ∀ c ∈ text.getLast?, isWhiteSpace c = false
  offer_upper : ∀ text offer, parsers.offer text = some offer → parsers.offer (toUppercase text) = some offer

/-! ## Queries -/

def joinPair (pair : List Char × List Char) : List Char := pair.1 ++ '=' :: pair.2

def queryText (pairs : List (List Char × List Char)) : List Char :=
  if pairs = [] then [] else '?' :: ['&'].intercalate (pairs.map joinPair)

/-- A pair that is read as it is written. -/
structure PlainPair (pair : List Char × List Char) : Prop where
  key : '=' ∉ pair.1
  nonempty : pair.2 ≠ []
  plain : ∀ c ∈ joinPair pair, c ≠ '&' ∧ c ≠ '?' ∧ c ≠ '%'
  last : ∀ c ∈ pair.2.getLast?, isWhiteSpace c = false

theorem PlainPair.of_value {key value : List Char} (hKey : '=' ∉ key ∧ ∀ c ∈ key ++ ['='], c ≠ '&' ∧ c ≠ '?' ∧ c ≠ '%')
    (hNonempty : value ≠ []) (hValue : ∀ c ∈ value, c ≠ '&' ∧ c ≠ '?' ∧ c ≠ '%')
    (hLast : ∀ c ∈ value.getLast?, isWhiteSpace c = false) : PlainPair (key, value) := by
  constructor
  · exact hKey.1
  · exact hNonempty
  · intro c hc
    rw [joinPair, ← List.singleton_append, ← List.append_assoc] at hc
    exact (List.mem_append.mp hc).elim (hKey.2 c) (hValue c)
  · exact hLast

theorem plain_of_alphanum {c : Char} (h : c.isAlphanum = true) : c ≠ '&' ∧ c ≠ '?' ∧ c ≠ '%' := by
  refine ⟨?_, ?_, ?_⟩ <;>
  · rintro rfl
    exact absurd h (by decide)

theorem percentDecode_plain {text : List Char} (h : '%' ∉ text) : percentDecode text = some text := by
  rw [percentDecode_eq]
  induction text with
  | nil => rw [decodeUriComponent]
  | cons c text ih =>
    rw [List.mem_cons, not_or] at h
    rw [decodeUriComponent_plain (Ne.symm h.1), ih h.2, Option.map_some]

theorem readPair_join (parts : UriParts) {pair : List Char × List Char} (h : PlainPair pair) :
    readPair parts (joinPair pair) = .ok (some (parts.set pair.1 pair.2)) := by
  obtain ⟨key, value⟩ := pair
  have hNonempty : joinPair (key, value) ≠ [] := List.append_ne_nil_of_right_ne_nil _ (List.cons_ne_nil _ _)
  have hFind : find (· == '=') (joinPair (key, value)) = some (byteLen key) := by
    rw [find_eq, joinPair, splitOnce_eq_some.mpr ⟨rfl, h.key⟩, Option.map_some]
  have hKey : '%' ∉ key := fun hMem => (h.plain '%' (List.mem_append_left _ hMem)).2.2 rfl
  have hValue : '%' ∉ value :=
    fun hMem => (h.plain '%' (List.mem_append_right _ (List.mem_cons_of_mem _ hMem))).2.2 rfl
  rw [readPair, if_neg hNonempty, hFind]
  simp only [joinPair, sliceTo_append, sliceFrom_cons key value (by decide : ('=' : Char).toNat < 128)]
  simp only [Except.bind, Except.map, percentDecode_plain hKey, percentDecode_plain hValue]

def setPairs (parts : UriParts) (pairs : List (List Char × List Char)) : UriParts :=
  pairs.foldl (fun parts pair => parts.set pair.1 pair.2) parts

theorem readPairs_join {pairs : List (List Char × List Char)} (parts : UriParts) (h : ∀ pair ∈ pairs, PlainPair pair) :
    readPairs parts (pairs.map joinPair) = .ok (some (setPairs parts pairs)) := by
  induction pairs generalizing parts with
  | nil => rfl
  | cons pair pairs ih =>
    obtain ⟨hPair, hPairs⟩ := List.forall_mem_cons.mp h
    rw [List.map_cons, readPairs, readPair_join parts hPair]
    exact ih _ hPairs

theorem mem_intercalate {c : Char} {texts : List (List Char)} (h : c ∈ ['&'].intercalate texts) :
    c = '&' ∨ ∃ text ∈ texts, c ∈ text := by
  induction texts with
  | nil => cases h
  | cons text texts ih =>
    cases texts with
    | nil =>
      rw [List.intercalate_singleton] at h
      exact .inr ⟨text, List.mem_cons_self, h⟩
    | cons next texts =>
      rw [List.intercalate_cons_cons, List.append_assoc, List.mem_append, List.singleton_append, List.mem_cons] at h
      obtain hText | rfl | hRest := h
      · exact .inr ⟨text, List.mem_cons_self, hText⟩
      · exact .inl rfl
      · obtain hAmp | ⟨other, hOther, hMem⟩ := ih hRest
        · exact .inl hAmp
        · exact .inr ⟨other, List.mem_cons_of_mem _ hOther, hMem⟩

theorem getLast?_intercalate {texts : List (List Char)} (hNonempty : texts ≠ []) (h : ∀ text ∈ texts, text ≠ []) :
    ∃ text ∈ texts, (['&'].intercalate texts).getLast? = text.getLast? ∧ ['&'].intercalate texts ≠ [] := by
  induction texts with
  | nil => exact absurd rfl hNonempty
  | cons text texts ih =>
    obtain ⟨hText, hTexts⟩ := List.forall_mem_cons.mp h
    cases texts with
    | nil => exact ⟨text, List.mem_cons_self, by rw [List.intercalate_singleton], by rwa [List.intercalate_singleton]⟩
    | cons next texts =>
      obtain ⟨last, hMem, hLast, hRest⟩ := ih (List.cons_ne_nil _ _) hTexts
      rw [List.intercalate_cons_cons]
      exact ⟨last, List.mem_cons_of_mem _ hMem, by rw [List.getLast?_append_of_ne_nil _ hRest, hLast],
        List.append_ne_nil_of_right_ne_nil _ hRest⟩

/-! ## Cutting the URI -/

theorem cutUri_address {address : List Char} (h : '?' ∉ address) (hTight : Tight address) :
    cutUri address = (address, none) := by
  rw [cutUri, splitOnce_eq_none.mpr h]
  dsimp only
  rw [hTight.trim_eq]

theorem cutUri_query {address query : List Char} (h : '?' ∉ address) (hTight : Tight address) (hQuery : '?' ∉ query) :
    cutUri (address ++ '?' :: query) = (address, some query) := by
  rw [cutUri, splitOnce_eq_some.mpr ⟨rfl, h⟩]
  dsimp only
  rw [hTight.trim_eq, splitOnce_eq_none.mpr hQuery]
  rfl

/-! ## The texts of a request -/

theorem toLowercase_ascii {text : List Char} (h : ∀ c ∈ text, c.toNat < 128) : toLowercase text = text.map Char.toLower := by
  induction text with
  | nil => rfl
  | cons c text ih =>
    obtain ⟨hc, hText⟩ := List.forall_mem_cons.mp h
    have hKelvin : c ≠ '\u212A' := by
      rintro rfl
      exact absurd hc (by decide)
    have hDotted : c ≠ '\u0130' := by
      rintro rfl
      exact absurd hc (by decide)
    have hLower : Sweep.lowerChar c = [c.toLower] := by rw [Sweep.lowerChar, if_neg hKelvin, if_neg hDotted]
    have hRest : toLowercase text = text.map Char.toLower := ih hText
    rw [toLowercase, List.flatMap_cons, hLower, List.map_cons, ← hRest]
    rfl

theorem bech32_letters {text : List Char} (h : text ∈ bech32Grammar.matches') :
    text ≠ [] ∧ ∀ c ∈ text, c ∈ Send.lowercase ++ digits := by
  obtain ⟨_, hScheme, rest, hRest, rfl⟩ := mem_seq.mp h
  rw [mem_literal.mp hScheme]
  constructor
  · exact List.cons_ne_nil _ _
  · intro c hc
    obtain hPrefix | hData := List.mem_append.mp hc
    · have hLetters : ∀ c ∈ ['b', 'c', '1'], c ∈ Send.lowercase ++ digits := by decide
      exact hLetters c hPrefix
    · exact ((mem_repeated_oneOf (by decide)).mp hRest).2 c hData

section

variable {form : Char → Char} (hForm : KeepsLetters form)

include hForm

theorem isWhiteSpace_form (c : Char) : isWhiteSpace (form c) = isWhiteSpace c := by
  cases hSpace : isWhiteSpace c with
  | true => rw [form_caseless hForm (caseless_of_space hSpace), hSpace]
  | false =>
    by_contra hOther
    rw [Bool.not_eq_false] at hOther
    have hSame := eq_of_toLower (hForm c).symm (caseless_of_space hOther)
    rw [← hSame, hSpace] at hOther
    cases hOther

theorem toLowercase_key {key : List Char} (h : ∀ c ∈ key, c.toNat < 128 ∧ c.toLower = c) : toLowercase (key.map form) = key := by
  rw [toLowercase_ascii]
  · rw [List.map_map]
    conv_rhs => rw [← List.map_id key]
    exact List.map_congr_left fun c hc => (hForm c).trans (h c hc).2
  · intro c hc
    obtain ⟨d, hd, rfl⟩ := List.mem_map.mp hc
    exact toNat_of_toLower (hForm d) (h d hd).1

theorem tight_map_form {text : List Char} (h : Tight text) : Tight (text.map form) := by
  constructor
  · intro c hc
    rw [List.head?_map] at hc
    obtain ⟨d, hd, rfl⟩ := Option.map_eq_some_iff.mp hc
    rw [isWhiteSpace_form hForm]
    exact h.first d hd
  · intro c hc
    rw [List.getLast?_map] at hc
    obtain ⟨d, hd, rfl⟩ := Option.map_eq_some_iff.mp hc
    rw [isWhiteSpace_form hForm]
    exact h.last d hd

theorem PlainPair.map_form {pair : List Char × List Char} (h : PlainPair pair) :
    PlainPair (pair.1.map form, pair.2.map form) := by
  have hJoin : joinPair (pair.1.map form, pair.2.map form) = (joinPair pair).map form := by
    rw [joinPair, joinPair, List.map_append, List.map_cons, form_caseless hForm (by decide : Caseless '=')]
  constructor
  · rw [mem_map_form hForm (by decide)]
    exact h.key
  · intro hNil
    exact h.nonempty (List.map_eq_nil_iff.mp hNil)
  · have hMem : ∀ c, Caseless c → c ∉ joinPair pair → c ∉ (joinPair pair).map form :=
      fun c hc hNot hIn => hNot ((mem_map_form hForm hc).mp hIn)
    rw [hJoin]
    intro c hc
    refine ⟨?_, ?_, ?_⟩
    · rintro rfl
      exact hMem '&' (by decide) (fun hIn => (h.plain _ hIn).1 rfl) hc
    · rintro rfl
      exact hMem '?' (by decide) (fun hIn => (h.plain _ hIn).2.1 rfl) hc
    · rintro rfl
      exact hMem '%' (by decide) (fun hIn => (h.plain _ hIn).2.2 rfl) hc
  · intro c hc
    rw [List.getLast?_map] at hc
    obtain ⟨d, hd, rfl⟩ := Option.map_eq_some_iff.mp hc
    rw [isWhiteSpace_form hForm]
    exact h.last d hd

theorem queryText_form (pairs : List (List Char × List Char)) :
    (queryText pairs).map form = queryText (pairs.map fun pair => (pair.1.map form, pair.2.map form)) := by
  have hAmp : form '&' = '&' := form_caseless hForm (by decide)
  have hEquals : form '=' = '=' := form_caseless hForm (by decide)
  have hJoin : ∀ texts : List (List Char), (['&'].intercalate texts).map form = ['&'].intercalate (texts.map (·.map form)) := by
    intro texts
    induction texts with
    | nil => rfl
    | cons text texts ih =>
      cases texts with
      | nil => rw [List.intercalate_singleton, List.map_singleton, List.intercalate_singleton]
      | cons next texts =>
        rw [List.intercalate_cons_cons, List.map_append, List.map_append, ih, List.map_singleton, hAmp, List.map_cons,
          List.map_cons, List.map_cons, List.intercalate_cons_cons]
  rw [queryText, queryText]
  cases pairs with
  | nil => rfl
  | cons pair pairs =>
    rw [if_neg (List.cons_ne_nil _ _), if_neg (by simp), List.map_cons, hJoin,
      form_caseless hForm (by decide : Caseless '?'), List.map_map, List.map_map]
    congr 2
    apply List.map_congr_left
    intro pair _
    simp only [Function.comp_apply, joinPair, List.map_append, List.map_cons, hEquals]

end

namespace Request

def addressText (r : Request) : List Char := (r.address.map toUppercase).getD []

def pairs (r : Request) : List (List Char × List Char) :=
  (r.amount.map fun amount => ("amount".toList, satsToBtcString amount)).toList ++
    (r.invoice.map fun invoice => ("lightning".toList, invoice.1)).toList ++
    (r.offer.map fun offer => ("lno".toList, offer.1)).toList

section

variable {r : Request} {parsers : Parsers} {now : Nat}

theorem address_ne_nil (h : r.Payable parsers now) : ∀ address ∈ r.address, address ≠ [] := by
  rintro address hAddress rfl
  exact (bech32_letters (h.address [] hAddress)).1 rfl

theorem invoice_ne_nil (hParsers : Bech32 parsers) (h : r.Payable parsers now) :
    ∀ text ∈ r.invoice.map Prod.fst, text ≠ [] := by
  intro text hText
  obtain ⟨invoice, hInvoice, rfl⟩ := Option.map_eq_some_iff.mp hText
  exact (hParsers.invoice_letters _ _ (h.invoice invoice hInvoice).1).1

theorem offer_ne_nil (hParsers : Bech32 parsers) (h : r.Payable parsers now) :
    ∀ text ∈ r.offer.map Prod.fst, text ≠ [] := by
  intro text hText
  obtain ⟨offer, hOffer, rfl⟩ := Option.map_eq_some_iff.mp hText
  exact (hParsers.offer_letters _ _ (h.offer offer hOffer).1).1

theorem filter_nonempty {text : Option (List Char)} (h : ∀ chars ∈ text, chars ≠ []) : text.filter (· ≠ []) = text := by
  cases text with
  | none => rfl
  | some chars => rw [Option.filter_some, if_pos (decide_eq_true (h chars rfl))]

theorem uri_eq (hParsers : Bech32 parsers) (h : r.Payable parsers now) :
    r.uri = "bitcoin:".toList ++ r.addressText ++ queryText r.pairs := by
  have hParams : ∀ pairs : List (List Char × List Char), (if pairs.map joinPair = [] then "bitcoin:".toList ++ r.addressText
      else "bitcoin:".toList ++ r.addressText ++ '?' :: ['&'].intercalate (pairs.map joinPair)) =
      "bitcoin:".toList ++ r.addressText ++ queryText pairs := by
    intro pairs
    cases pairs with
    | nil => exact (List.append_nil _).symm
    | cons pair pairs => rfl
  have hPairs : (r.amount.map fun amount => "amount=".toList ++ satsToBtcString amount).toList ++
      ((r.invoice.map Prod.fst).map fun invoice => "lightning=".toList ++ invoice).toList ++
      ((r.offer.map Prod.fst).map fun offer => "lno=".toList ++ offer).toList = r.pairs.map joinPair := by
    rw [pairs]
    cases r.amount <;> cases r.invoice <;> cases r.offer <;> rfl
  rewrite [← hParams, ← hPairs, uri, buildBip321UriParts, filter_nonempty (address_ne_nil h),
    filter_nonempty (invoice_ne_nil hParsers h), filter_nonempty (offer_ne_nil hParsers h), addressText]
  cases r.address with
  | none =>
    rewrite [Option.map_none, Option.getD_none, List.append_nil]
    rfl
  | some address => rfl

theorem pairs_plain (hParsers : Bech32 parsers) (h : r.Payable parsers now) : ∀ pair ∈ r.pairs, PlainPair pair := by
  intro pair hPair
  obtain hFront | hOffer := List.mem_append.mp hPair
  · obtain hAmount | hInvoice := List.mem_append.mp hFront
    · obtain ⟨amount, -, rfl⟩ := Option.map_eq_some_iff.mp (Option.mem_toList.mp hAmount)
      have hLetters : ∀ c ∈ '.' :: digits, c ≠ '&' ∧ c ≠ '?' ∧ c ≠ '%' := by decide
      apply PlainPair.of_value (by decide)
      · exact List.append_ne_nil_of_right_ne_nil _ (List.cons_ne_nil _ _)
      · exact fun c hc => hLetters c (satsToBtcString_letters amount c hc)
      · exact fun c hc => decimal_notSpace c (satsToBtcString_letters amount c (List.mem_of_mem_getLast? hc))
    · obtain ⟨invoice, hMem, rfl⟩ := Option.map_eq_some_iff.mp (Option.mem_toList.mp hInvoice)
      obtain ⟨hNonempty, hLetters⟩ := hParsers.invoice_letters _ _ (h.invoice invoice hMem).1
      apply PlainPair.of_value (by decide) hNonempty
      · exact fun c hc => plain_of_alphanum (hLetters c hc)
      · exact fun c hc => notSpace_of_alphanum (hLetters c (List.mem_of_mem_getLast? hc))
  · obtain ⟨offer, hMem, rfl⟩ := Option.map_eq_some_iff.mp (Option.mem_toList.mp hOffer)
    obtain ⟨hNonempty, hLetters⟩ := hParsers.offer_letters _ _ (h.offer offer hMem).1
    apply PlainPair.of_value (by decide) hNonempty
    · intro c hc
      obtain hAlphanum | rfl | hSpace := hLetters c hc
      · exact plain_of_alphanum hAlphanum
      · decide
      · refine ⟨?_, ?_, ?_⟩ <;>
        · rintro rfl
          exact absurd hSpace (by decide)
    · exact hParsers.offer_last _ _ (h.offer offer hMem).1

end

end Request

/-! ## Both forms -/

/-- A way to write a URI that its readers do not mind. -/
structure ReadAlike (parsers : Parsers) (form : Char → Char) : Prop where
  letters : KeepsLetters form
  invoice : ∀ text invoice, parsers.bolt11 text = some invoice → parsers.bolt11 (text.map form) = some invoice
  offer : ∀ text offer, parsers.offer text = some offer → parsers.offer (text.map form) = some offer

theorem Bech32.asWritten {parsers : Parsers} : ReadAlike parsers id := by
  constructor
  · exact fun _ => rfl
  · intro text invoice h
    rwa [List.map_id]
  · intro text offer h
    rwa [List.map_id]

theorem Bech32.inCapitals {parsers : Parsers} (h : Bech32 parsers) : ReadAlike parsers Char.toUpper :=
  ⟨toUpper_keepsLetters, h.invoice_upper, h.offer_upper⟩

namespace Request

section

variable {r : Request} {parsers : Parsers} {now : Nat} {form : Char → Char} (hForm : KeepsLetters form)

include hForm

theorem address_lower (h : r.Payable parsers now) :
    (r.addressText.map form).map Char.toLower = (r.address.map (·.map Char.toLower)).getD [] ∧
      ∀ c ∈ r.addressText.map form, c.toLower ∈ Send.lowercase ++ digits := by
  have hLower : (r.addressText.map form).map Char.toLower = (r.address.map (·.map Char.toLower)).getD [] := by
    rw [addressText]
    cases r.address with
    | none => rfl
    | some address =>
      simp only [Option.map_some, Option.getD_some, toUppercase, List.map_map]
      apply List.map_congr_left
      intro c _
      exact (hForm c.toUpper).trans (toUpper_keepsLetters c)
  constructor
  · exact hLower
  · intro c hc
    have hMem : c.toLower ∈ (r.addressText.map form).map Char.toLower := List.mem_map_of_mem hc
    rw [hLower] at hMem
    cases hAddress : r.address with
    | none =>
      rw [hAddress] at hMem
      cases hMem
    | some address =>
      rw [hAddress] at hMem
      exact (bech32_letters (h.address address hAddress)).2 _ hMem

theorem address_notSpace (h : r.Payable parsers now) : ∀ c ∈ r.addressText.map form, isWhiteSpace c = false := by
  have hNotSpace : ∀ c ∈ Send.lowercase ++ digits, isWhiteSpace c = false := by decide
  intro c hc
  by_contra hSpace
  rw [Bool.not_eq_false] at hSpace
  have hMem := (address_lower hForm h).2 c hc
  rw [(caseless_of_space hSpace).1] at hMem
  rw [hNotSpace c hMem] at hSpace
  cases hSpace

theorem address_tight (h : r.Payable parsers now) : '?' ∉ r.addressText.map form ∧ Tight (r.addressText.map form) := by
  constructor
  · intro hMem
    exact absurd ((address_lower hForm h).2 '?' hMem) (by decide)
  · exact Tight.of_all (address_notSpace hForm h)

theorem onchainFallback_eq (h : r.Payable parsers now) {address : List Char} (hAddress : r.address = some address) :
    r.addressText.map form ≠ [] ∧ onchainFallbackOf (r.addressText.map form) = some (r.addressText.map form) := by
  obtain ⟨hLower, hLetters⟩ := address_lower hForm h
  have hGrammar := h.address address hAddress
  rw [hAddress, Option.map_some, Option.getD_some] at hLower
  have hSmall : ∀ c ∈ Send.lowercase ++ digits, c.toLower = c ∧ c.toNat < 128 := by decide
  have hAscii : ∀ c ∈ r.addressText.map form, c.toNat < 128 := by
    intro c hc
    obtain ⟨hSame, hLow⟩ := hSmall _ (hLetters c hc)
    exact toNat_of_toLower hSame.symm hLow
  have hNonempty : r.addressText.map form ≠ [] := by
    intro hNil
    rw [hNil] at hLower
    exact (bech32_letters hGrammar).1 hLower.symm
  have hMainnet : isBech32Mainnet (toLowercase (r.addressText.map form)) = true := by
    rw [toLowercase_ascii hAscii, hLower, isBech32Mainnet_iff]
    exact hGrammar
  constructor
  · exact hNonempty
  · rw [onchainFallbackOf, if_pos ⟨hNonempty, .inl hMainnet⟩]

/-- The pairs set the three parts, in either form of their keys. -/
theorem setPairs_pairs : setPairs ⟨none, none, none⟩ (r.pairs.map fun pair => (pair.1.map form, pair.2.map form)) =
    ⟨r.offer.map (·.1.map form), r.invoice.map (·.1.map form), r.amount.map satsToBtcString⟩ := by
  have hAmountKey := toLowercase_key hForm (by decide : ∀ c ∈ "amount".toList, c.toNat < 128 ∧ c.toLower = c)
  have hInvoiceKey := toLowercase_key hForm (by decide : ∀ c ∈ "lightning".toList, c.toNat < 128 ∧ c.toLower = c)
  have hOfferKey := toLowercase_key hForm (by decide : ∀ c ∈ "lno".toList, c.toNat < 128 ∧ c.toLower = c)
  have hAmount : ∀ parts : UriParts, ∀ value, parts.set ("amount".toList.map form) value = { parts with amount := some value } := by
    intro parts value
    rw [UriParts.set, hAmountKey, if_neg (by decide), if_neg (by decide), if_pos rfl]
  have hInvoice : ∀ parts : UriParts, ∀ value,
      parts.set ("lightning".toList.map form) value = { parts with lightning := some value } := by
    intro parts value
    rw [UriParts.set, hInvoiceKey, if_neg (by decide), if_pos rfl]
  have hOffer : ∀ parts : UriParts, ∀ value, parts.set ("lno".toList.map form) value = { parts with lno := some value } := by
    intro parts value
    rw [UriParts.set, hOfferKey, if_pos rfl]
  have hDigits : ∀ amount, (satsToBtcString amount).map form = satsToBtcString amount := by
    have hCaseless : ∀ c ∈ '.' :: digits, Caseless c := by decide
    exact fun amount => map_form_caseless hForm fun c hc => hCaseless c (satsToBtcString_letters amount c hc)
  rw [pairs, setPairs]
  cases r.amount <;> cases r.invoice <;> cases r.offer <;>
    simp only [Option.map_none, Option.map_some, Option.toList_none, Option.toList_some, List.nil_append, List.append_nil,
      List.cons_append, List.map_nil, List.map_cons, List.foldl_nil, List.foldl_cons, hAmount,
      hInvoice, hOffer, hDigits]

theorem pairs_form_plain (hParsers : Bech32 parsers) (h : r.Payable parsers now) :
    ∀ pair ∈ r.pairs.map fun pair => (pair.1.map form, pair.2.map form), PlainPair pair := by
  intro pair hPair
  obtain ⟨written, hWritten, rfl⟩ := List.mem_map.mp hPair
  exact (pairs_plain hParsers h written hWritten).map_form hForm

theorem cutUri_form (hParsers : Bech32 parsers) (h : r.Payable parsers now) :
    ∃ query, cutUri ((r.addressText ++ queryText r.pairs).map form) = (r.addressText.map form, query) ∧
      (query.map (·.splitOn '&')).getD [] = (r.pairs.map fun pair => (pair.1.map form, pair.2.map form)).map joinPair ∧
      ((query = none ∨ query = some []) → r.pairs = []) := by
  obtain ⟨hMark, hTight⟩ := address_tight hForm h
  have hPlain := pairs_form_plain hForm hParsers h
  rw [List.map_append, queryText_form hForm]
  cases hPairs : r.pairs with
  | nil => exact ⟨none, by rw [List.map_nil, queryText, if_pos rfl, List.append_nil, cutUri_address hMark hTight], rfl,
      fun _ => rfl⟩
  | cons pair rest =>
    rw [hPairs] at hPlain
    have hNonempty : (pair :: rest).map (fun pair => (pair.1.map form, pair.2.map form)) ≠ [] := List.cons_ne_nil _ _
    generalize (pair :: rest).map (fun pair => (pair.1.map form, pair.2.map form)) = pairs at hPlain hNonempty
    have hTexts : pairs.map joinPair ≠ [] := fun hNil => hNonempty (List.map_eq_nil_iff.mp hNil)
    have hLetters : ∀ text ∈ pairs.map joinPair, text ≠ [] ∧ '&' ∉ text ∧ '?' ∉ text := by
      intro text hText
      obtain ⟨plain, hMem, rfl⟩ := List.mem_map.mp hText
      refine ⟨List.append_ne_nil_of_right_ne_nil _ (List.cons_ne_nil _ _), ?_, ?_⟩
      · exact fun hAmp => ((hPlain plain hMem).plain _ hAmp).1 rfl
      · exact fun hQuestion => ((hPlain plain hMem).plain _ hQuestion).2.1 rfl
    have hQuery : '?' ∉ ['&'].intercalate (pairs.map joinPair) := by
      intro hMem
      obtain hAmp | ⟨text, hText, hIn⟩ := mem_intercalate hMem
      · exact absurd hAmp (by decide)
      · exact (hLetters text hText).2.2 hIn
    obtain ⟨-, -, -, hFull⟩ := getLast?_intercalate hTexts fun text hText => (hLetters text hText).1
    rw [queryText, if_neg hNonempty, cutUri_query hMark hTight hQuery]
    use some (['&'].intercalate (pairs.map joinPair))
    constructor
    · rfl
    · constructor
      · exact List.splitOn_intercalate '&' (fun text hText => (hLetters text hText).2.1) hTexts
      · rintro (hNone | hEmpty)
        · cases hNone
        · exact absurd (Option.some.inj hEmpty) hFull

theorem startsCi_form {start : List Char} (rest : List Char) : startsCi ((start ++ rest).map form) start = true := by
  rw [startsCi, List.map_append, ← List.length_map form, List.take_left, eqIgnoreAsciiCase, List.map_map, decide_eq_true_eq]
  exact List.map_congr_left fun c _ => hForm c

end

section

variable {r : Request} {parsers : Parsers} {now : Nat} {form : Char → Char}

theorem preferredOf_eq (hRead : ReadAlike parsers form) (h : r.Payable parsers now) :
    ∃ preferred, preferredOf parsers ⟨r.offer.map (·.1.map form), r.invoice.map (·.1.map form), r.amount.map satsToBtcString⟩
        (r.addressText.map form) r.amount now = .ok preferred ∧
      r.preferred (·.map form) (onchainFallbackOf (r.addressText.map form)) = some preferred := by
  cases hOffer : r.offer with
  | some offer =>
    obtain ⟨hParse, hChain, hAlive⟩ := h.offer offer hOffer
    use offer.2.classified (offer.1.map form)
    constructor
    · simp only [Option.map_some, preferredOf, parseBolt12, hRead.offer _ _ hParse, hChain, hAlive]
      rfl
    · rw [preferred, hOffer]
  | none =>
    cases hInvoice : r.invoice with
    | some invoice =>
      obtain ⟨hParse, hChain, hAlive⟩ := h.invoice invoice hInvoice
      use invoice.2.classified (invoice.1.map form)
      constructor
      · simp only [Option.map_none, Option.map_some, preferredOf, parseBolt11, hRead.invoice _ _ hParse, hChain, hAlive]
        rfl
      · rw [preferred, hOffer, hInvoice]
    | none =>
      have hMethod := h.method
      rw [hOffer, hInvoice] at hMethod
      simp only [ne_eq, not_true_eq_false, or_false] at hMethod
      obtain ⟨address, hAddress⟩ := Option.ne_none_iff_exists'.mp hMethod
      obtain ⟨hNonempty, hFallback⟩ := onchainFallback_eq hRead.letters h hAddress
      use .onchain (r.addressText.map form) r.amount
      constructor
      · simp only [Option.map_none, preferredOf, hNonempty, if_false, hFallback]
      · rw [preferred, hOffer, hInvoice, hFallback]
        rfl

theorem uri_form (hParsers : Bech32 parsers) (hRead : ReadAlike parsers form) (h : r.Payable parsers now) :
    startsCi (r.uri.map form) "bitcoin:".toList = true ∧
      (r.uri.map form).drop "bitcoin:".toList.length = (r.addressText ++ queryText r.pairs).map form := by
  have hUri : r.uri.map form = ("bitcoin:".toList ++ (r.addressText ++ queryText r.pairs)).map form := by
    rw [uri_eq hParsers h, List.append_assoc]
  constructor
  · rw [hUri]
    exact startsCi_form hRead.letters _
  · rw [hUri, List.map_append, ← List.length_map form, List.drop_left]

theorem parseBip321_form (hParsers : Bech32 parsers) (hRead : ReadAlike parsers form) (h : r.Payable parsers now) :
    ∃ preferred, parseBip321 parsers (r.uri.map form) now =
        .ok (.bip321 preferred (onchainFallbackOf (r.addressText.map form)) r.amount) ∧
      r.preferred (·.map form) (onchainFallbackOf (r.addressText.map form)) = some preferred := by
  obtain ⟨query, hCut, hSplit, hEmpty⟩ := cutUri_form hRead.letters hParsers h
  obtain ⟨preferred, hPreferred, hExpected⟩ := preferredOf_eq hRead h
  obtain ⟨hStarts, hDrop⟩ := uri_form hParsers hRead h
  have hPlain := pairs_form_plain hRead.letters hParsers h
  have hSome : ¬ ((query = none ∨ query = some []) ∧ r.addressText.map form = []) := by
    rintro ⟨hNone, hNil⟩
    have hPairs := hEmpty hNone
    rw [pairs, List.append_eq_nil_iff, List.append_eq_nil_iff, Option.toList_eq_nil_iff, Option.toList_eq_nil_iff,
      Option.toList_eq_nil_iff, Option.map_eq_none_iff, Option.map_eq_none_iff, Option.map_eq_none_iff] at hPairs
    have hMethod := h.method
    rw [hPairs.1.2, hPairs.2] at hMethod
    simp only [ne_eq, not_true_eq_false, or_false] at hMethod
    obtain ⟨address, hAddress⟩ := Option.ne_none_iff_exists'.mp hMethod
    exact (onchainFallback_eq hRead.letters h hAddress).1 hNil
  have hAmount : ∀ lno lightning, UriParts.amountSats ⟨lno, lightning, r.amount.map satsToBtcString⟩ = .ok r.amount := by
    intro lno lightning
    rw [UriParts.amountSats]
    cases r.amount with
    | none => rfl
    | some amount => exact btcStringToSats_satsToBtcString amount
  use preferred
  constructor
  · rw [parseBip321, sliceFrom_behind (by decide) hStarts, hDrop]
    simp only [Except.bind, hCut, if_neg hSome, hSplit, readPairs_join _ hPlain, setPairs_pairs hRead.letters, hAmount, Except.map,
      hPreferred]
  · exact hExpected

theorem uri_tight (hParsers : Bech32 parsers) (h : r.Payable parsers now) : Tight r.uri := by
  have hAddress : ∀ c ∈ "bitcoin:".toList ++ r.addressText, isWhiteSpace c = false := by
    have hScheme : ∀ c ∈ "bitcoin:".toList, isWhiteSpace c = false := by decide
    have hData := address_notSpace (fun _ => rfl : KeepsLetters id) h
    rw [List.map_id] at hData
    intro c hc
    exact (List.mem_append.mp hc).elim (hScheme c) (hData c)
  have hPlain := pairs_plain hParsers h
  rw [uri_eq hParsers h, queryText]
  cases hPairs : r.pairs with
  | nil =>
    rw [if_pos rfl, List.append_nil]
    exact Tight.of_all hAddress
  | cons pair pairs =>
    rw [if_neg (List.cons_ne_nil _ _)]
    have hTexts : ∀ text ∈ (pair :: pairs).map joinPair, text ≠ [] := by
      intro text hText
      obtain ⟨plain, -, rfl⟩ := List.mem_map.mp hText
      exact List.append_ne_nil_of_right_ne_nil _ (List.cons_ne_nil _ _)
    have hNonempty : (pair :: pairs).map joinPair ≠ [] := List.cons_ne_nil _ _
    obtain ⟨text, hText, hLast, hFull⟩ := getLast?_intercalate hNonempty hTexts
    constructor
    · intro c hc
      cases hc
      rfl
    · intro c hc
      rw [List.getLast?_append_of_ne_nil _ (List.cons_ne_nil _ _), List.getLast?_cons_of_ne_nil hFull, hLast] at hc
      obtain ⟨plain, hMem, rfl⟩ := List.mem_map.mp hText
      have hValue := hPlain plain (hPairs ▸ hMem)
      rw [joinPair, List.getLast?_append_of_ne_nil _ (List.cons_ne_nil _ _),
        List.getLast?_cons_of_ne_nil hValue.nonempty] at hc
      exact hValue.last c hc

theorem classifyAt_form (hParsers : Bech32 parsers) (hRead : ReadAlike parsers form) (h : r.Payable parsers now) :
    ∃ preferred fallback, classifyAt parsers (r.uri.map form) now = .ok (.bip321 preferred fallback r.amount) ∧
      fallback.map (·.map Char.toLower) = r.address.map (·.map Char.toLower) ∧
      r.preferred (·.map form) fallback = some preferred := by
  obtain ⟨preferred, hParse, hExpected⟩ := parseBip321_form hParsers hRead h
  have hFits := h.fits
  have hLength : ¬ maxInputChars < (r.uri.map form).length := by
    rw [List.length_map]
    omega
  obtain ⟨hStarts, -⟩ := uri_form hParsers hRead h
  refine ⟨preferred, onchainFallbackOf (r.addressText.map form), ?_, ?_, hExpected⟩
  · rw [classifyAt_eq, if_neg hLength, (tight_map_form hRead.letters (uri_tight hParsers h)).trim_eq, if_pos hStarts, hParse]
  · cases hAddress : r.address with
    | none =>
      rw [addressText, hAddress]
      rfl
    | some address =>
      rw [(onchainFallback_eq hRead.letters h hAddress).2, Option.map_some, (address_lower hRead.letters h).1, hAddress]
      rfl

end

end Request

/-! ## Reading back -/

/-- What the receive screen shows, copied or scanned, is a URI with its amount and address, paid by its
offer, its invoice or its address. -/
theorem receive_uris_read_back {r : Request} {parsers : Parsers} {now : Nat} (hParsers : Bech32 parsers)
    (h : r.Payable parsers now) :
    (∀ sats, btcStringToSats (satsToBtcString sats) = .ok (some sats)) ∧
    ∀ form ∈ [id, toUppercase], ∃ preferred fallback,
      classifyAt parsers (form r.uri) now = .ok (.bip321 preferred fallback r.amount) ∧
      fallback.map (·.map Char.toLower) = r.address.map (·.map Char.toLower) ∧
      r.preferred form fallback = some preferred := by
  constructor
  · exact btcStringToSats_satsToBtcString
  · intro form hForm
    rw [List.mem_cons, List.mem_singleton] at hForm
    obtain rfl | rfl := hForm
    · have hId : (fun text : List Char => text.map id) = id := funext List.map_id
      have hWritten := Request.classifyAt_form hParsers Bech32.asWritten h
      rwa [List.map_id, hId] at hWritten
    · exact Request.classifyAt_form hParsers hParsers.inCapitals h

@[irreducible] def demoInvoiceText : List Char := [
    "lnbc1pvjluezsp5zyg3zyg3zyg3zyg3zy", "g3zyg3zyg3zyg3zyg3zyg3zyg3zyg3zyg", "spp5qqqsyqcyq5rqwzqfqqqsyqcyq5rqw",
    "zqfqqqsyqcyq5rqwzqfqypqdpl2pkx2ct", "nv5sxxmmwwd5kgetjypeh2ursdae8g6tw", "vus8g6rfwvs8qun0dfjkxaq9qrsgq357w",
    "nc5r2ueh7ck6q93dj32dlqnls087fxdwk", "8qakdyafkq3yap9us6v52vjjsrvywa6rt", "52cm9r9zqt8r2t7mlcwspyetp5h2tztug",
    "p9lfyql"].flatMap String.toList

def demoInvoice : Invoice where
  paymentHash := [0, 1, 2, 3, 4, 5, 6, 7, 8, 9, 0, 1, 2, 3, 4, 5, 6, 7, 8, 9, 0, 1, 2, 3, 4, 5, 6, 7, 8, 9, 1, 2]
  network := .bitcoin
  amountMilliSatoshis := none
  expiresAt := 1496318258
  description := .direct "Please consider supporting this project".toList

@[irreducible] def demoOfferText : List Char := [
    "lno1pgx9getnwss8vetrw3hhyucwq3j48", "ugqzcss9mk8y3wkklfvevcrszlmu23kfr", "xh49px20665dqwmn4p72pksese"].flatMap String.toList

def demoOffer : Offer where
  supportsChain chain := chain = .bitcoin
  absoluteExpiry := some 1700000000
  amount := none
  description := some "Test vectors".toList

/-- A parser of one text, which is known in capitals too. -/
def parseOne {α : Type} (written : List Char) (value : α) (text : List Char) : Option α :=
  if text = written ∨ text = toUppercase written then some value else none

theorem parseOne_eq_some {α : Type} {written text : List Char} {value result : α} :
    parseOne written value text = some result ↔ (text = written ∨ text = toUppercase written) ∧ value = result := by
  rw [parseOne, Option.ite_none_right_eq_some, Option.some_inj]

theorem parseOne_self {α : Type} (written : List Char) (value : α) : parseOne written value written = some value :=
  parseOne_eq_some.mpr ⟨.inl rfl, rfl⟩

theorem parseOne_upper {α : Type} {written text : List Char} {value result : α} (h : parseOne written value text = some result) :
    parseOne written value (toUppercase text) = some result := by
  have hTable : ∀ n < 128, (Char.ofNat n).toUpper.toUpper = (Char.ofNat n).toUpper := by decide +kernel
  have hTwice : ∀ text, toUppercase (toUppercase text) = toUppercase text := by
    intro text
    rw [toUppercase, toUppercase, List.map_map]
    apply List.map_congr_left
    intro c _
    obtain hSmall | hLarge : c.toNat < 128 ∨ 128 ≤ c.toNat := by omega
    · have hRow := hTable c.toNat hSmall
      rwa [Char.ofNat_toNat] at hRow
    · have hSame : c.toUpper = c := (caseless_of_range (by omega)).2
      rw [Function.comp_apply, hSame, hSame]
  obtain ⟨hText, rfl⟩ := parseOne_eq_some.mp h
  obtain rfl | rfl := hText
  · exact parseOne_eq_some.mpr ⟨.inr rfl, rfl⟩
  · exact parseOne_eq_some.mpr ⟨.inr (hTwice _), rfl⟩

theorem isAlphanum_toUpper {c : Char} (h : c.isAlphanum = true) : c.toUpper.isAlphanum = true := by
  have hTable : ∀ n < 128, (Char.ofNat n).isAlphanum = true → (Char.ofNat n).toUpper.isAlphanum = true := by
    decide +kernel
  have hSmall : c.toNat < 128 := by
    rw [isAlphanum_iff] at h
    omega
  have hRow := hTable c.toNat hSmall
  rw [Char.ofNat_toNat] at hRow
  exact hRow h

theorem parseOne_letters {α : Type} {written text : List Char} {value result : α} (hNonempty : written ≠ [])
    (hLetters : ∀ c ∈ written, c.isAlphanum = true) (h : parseOne written value text = some result) :
    text ≠ [] ∧ ∀ c ∈ text, c.isAlphanum = true := by
  obtain ⟨rfl | rfl, -⟩ := parseOne_eq_some.mp h
  · exact ⟨hNonempty, hLetters⟩
  · constructor
    · exact fun hNil => hNonempty (List.map_eq_nil_iff.mp hNil)
    · intro c hc
      obtain ⟨letter, hLetter, rfl⟩ := List.mem_map.mp hc
      exact isAlphanum_toUpper (hLetters letter hLetter)

theorem parseOne_bech32 {invoiceText offerText : List Char} {invoice : Invoice} {offer : Offer}
    {name : List Char → Option (List Char × List Char)}
    (hInvoice : invoiceText ≠ [] ∧ ∀ c ∈ invoiceText, c.isAlphanum = true)
    (hOffer : offerText ≠ [] ∧ ∀ c ∈ offerText, c.isAlphanum = true) :
    Bech32 ⟨parseOne invoiceText invoice, parseOne offerText offer, name⟩ := by
  constructor
  · intro text invoice h
    exact parseOne_letters hInvoice.1 hInvoice.2 h
  · intro text invoice h
    exact parseOne_upper h
  · intro text offer h
    obtain ⟨hNonempty, hLetters⟩ := parseOne_letters hOffer.1 hOffer.2 h
    exact ⟨hNonempty, fun c hc => .inl (hLetters c hc)⟩
  · intro text offer h c hc
    exact notSpace_of_alphanum ((parseOne_letters hOffer.1 hOffer.2 h).2 c (List.mem_of_mem_getLast? hc))
  · intro text offer h
    exact parseOne_upper h

def demoParsers : Parsers where
  bolt11 := parseOne demoInvoiceText demoInvoice
  offer := parseOne demoOfferText demoOffer
  humanReadableName _ := none

theorem demoParsers_bech32 : Bech32 demoParsers := parseOne_bech32 (by decide +kernel) (by decide +kernel)

def demoRequest : Request where
  address := some "bc1qw508d6qejxtdg4y5r3zarvary0c5xw7kv8f3t4".toList
  amountSats := some 3000
  invoice := some (demoInvoiceText, demoInvoice)
  offer := some (demoOfferText, demoOffer)

theorem demoRequest_read_back : ∃ fallback, classifyAt demoParsers (toUppercase demoRequest.uri) 1496314700 =
    .ok (.bip321 (demoOffer.classified (toUppercase demoOfferText)) fallback (some 3000)) := by
  have hPayable : demoRequest.Payable demoParsers 1496314700 := by
    constructor
    · intro address hAddress
      rw [← Option.some.inj hAddress, ← isBech32Mainnet_iff]
      decide +kernel
    · intro invoice hInvoice
      rw [← Option.some.inj hInvoice]
      exact ⟨parseOne_self demoInvoiceText demoInvoice, rfl, by decide +kernel⟩
    · intro offer hOffer
      rw [← Option.some.inj hOffer]
      exact ⟨parseOne_self demoOfferText demoOffer, rfl, by decide +kernel⟩
    · decide
    · decide +kernel
  obtain ⟨preferred, fallback, hClassified, -, hPreferred⟩ :=
    (receive_uris_read_back demoParsers_bech32 hPayable).2 toUppercase (List.mem_cons_of_mem _ List.mem_cons_self)
  cases hPreferred
  exact ⟨fallback, hClassified⟩

/-- The address of an anchor output is too short for the grammar, and an offer may have run out by the time it
is read. -/
theorem unread_uris :
    classifyAt demoParsers (buildBip321Uri "bc1pfeessrawgf".toList none none) 0 = .ok (.invalid errUriAddressNetwork) ∧
    demoParsers.offer demoOfferText = some demoOffer ∧ demoOffer.supportsChain .bitcoin = true ∧
    classifyAt demoParsers (buildBolt12PageUri demoOfferText) 1700000001 =
      .ok (.bip321 (.invalid errOfferExpired) none none) := by
  constructor
  · decide +kernel
  constructor
  · exact parseOne_self demoOfferText demoOffer
  constructor
  · rfl
  · decide +kernel

end WalletCore.Receive
