import WalletCore.Send.Letters
import WalletCore.Send.Lnurl

/-! # The invoice that was agreed on

An invoice that a callback delivers is handed over only if it is for the requested amount, within the served
window, and commits to the served metadata. A text that is read differently the second time is refused.
-/

namespace WalletCore.Send

open Lib
open Restore (bind_ok)

/-- The texts of invoices: letters and digits, and the prefix of the network. -/
structure Bolt11Texts (parsers : Parsers) : Prop where
  letters : ∀ text invoice, parsers.bolt11 text = some invoice → ∀ c ∈ text, c.isAlphanum = true
  mainnet : ∀ text invoice, parsers.bolt11 text = some invoice → invoice.network = .bitcoin →
    startsCi text "lnbc".toList = true

section

variable {parsers : Parsers} {now : Nat}

/-! ## Classified invoices -/

theorem map_ok {α β : Type} {run : Run α} {f : α → β} {result : β} (h : run.map f = .ok result) :
    ∃ value, run = .ok value ∧ f value = result := by
  cases run with
  | error halt => cases h
  | ok value => exact ⟨value, rfl, Except.ok.inj h⟩

theorem parseBip321_cases {input : List Char} {result : Classified} (h : parseBip321 parsers input now = .ok result) :
    (∃ reason, result = .invalid reason) ∨
      ∃ preferred fallback amountSats, result = .bip321 preferred fallback amountSats := by
  obtain ⟨withoutScheme, -, hCut⟩ := bind_ok h
  obtain ⟨address, query⟩ := cutUri withoutScheme
  dsimp only at hCut
  split at hCut
  · cases hCut
    exact .inl ⟨_, rfl⟩
  · obtain ⟨read, -, hRead⟩ := bind_ok hCut
    cases read with
    | none =>
      cases hRead
      exact .inl ⟨_, rfl⟩
    | some parts =>
      obtain ⟨amountSats, -, hPreferred⟩ := map_ok hRead
      split at hPreferred
      · exact .inl ⟨_, hPreferred.symm⟩
      · exact .inr ⟨_, _, _, hPreferred.symm⟩

theorem parseBolt11_cases {input : List Char} {result : Classified} (h : parseBolt11 parsers input now = result) :
    (∃ reason, result = .invalid reason) ∨
      ∃ invoice, parsers.bolt11 input = some invoice ∧ invoice.network = .bitcoin ∧ invoice.wouldExpire now = false ∧
        result = invoice.classified input := by
  rw [parseBolt11] at h
  cases hParse : parsers.bolt11 input with
  | none =>
    rw [hParse] at h
    exact .inl ⟨_, h.symm⟩
  | some invoice =>
    rw [hParse] at h
    dsimp only at h
    split_ifs at h with hNetwork hExpired
    · exact .inl ⟨_, h.symm⟩
    · exact .inl ⟨_, h.symm⟩
    · rw [not_not] at hNetwork
      exact .inr ⟨invoice, rfl, hNetwork, Bool.eq_false_iff.mpr hExpired, h.symm⟩

theorem parseBolt12_cases {input : List Char} {result : Classified} (h : parseBolt12 parsers input now = result) :
    (∃ reason, result = .invalid reason) ∨ ∃ offer : Offer, result = offer.classified input := by
  rw [parseBolt12] at h
  cases hParse : parsers.offer input with
  | none =>
    rw [hParse] at h
    exact .inl ⟨_, h.symm⟩
  | some offer =>
    rw [hParse] at h
    dsimp only at h
    split_ifs at h
    · exact .inl ⟨_, h.symm⟩
    · exact .inr ⟨offer, h.symm⟩
    · exact .inl ⟨_, h.symm⟩

def Classified.isBolt11 : Classified → Bool
  | .bolt11 .. => true
  | _ => false

theorem classifyPlain_ne_bolt11 {input : List Char} {result : Classified} (h : classifyPlain parsers input = .ok result) :
    result.isBolt11 = false := by
  obtain ⟨candidate, -, hResult⟩ := map_ok h
  subst hResult
  split
  · rw [parseBip353]
    split <;> rfl
  · split <;> rfl

/-- An invoice is what is left of a text when its prefixes are taken off. -/
theorem classifyAt_bolt11 {pr : List Char} {result : Classified} (h : classifyAt parsers pr now = .ok result)
    (hBolt11 : result.isBolt11 = true) : pr.length ≤ maxInputChars ∧
      ∃ text invoice, parsers.bolt11 text = some invoice ∧ invoice.network = .bitcoin ∧ invoice.wouldExpire now = false ∧
        result = invoice.classified text ∧ (startsCi (trim pr) "lightning:".toList = false → text = trim pr) := by
  induction hLength : pr.length using Nat.strong_induction_on generalizing pr with
  | _ n ih =>
    rw [classifyAt_eq] at h
    split_ifs at h with hLong hUri hStrip hInvoice hOffer
    · cases h
      cases hBolt11
    · obtain ⟨_, rfl⟩ | ⟨_, _, _, rfl⟩ := parseBip321_cases h
      · cases hBolt11
      · cases hBolt11
    · have hShorter := lightning_shrinks hStrip
      obtain ⟨-, text, invoice, hParse, hNetwork, hAlive, hResult, -⟩ := ih _ (hLength ▸ hShorter) h rfl
      refine ⟨by omega, text, invoice, hParse, hNetwork, hAlive, hResult, ?_⟩
      intro hBare
      rw [hStrip] at hBare
      cases hBare
    · obtain ⟨_, rfl⟩ | ⟨invoice, hParse, hNetwork, hAlive, hResult⟩ := parseBolt11_cases (Except.ok.inj h)
      · cases hBolt11
      · exact ⟨by omega, trim pr, invoice, hParse, hNetwork, hAlive, hResult, fun _ => rfl⟩
    · obtain ⟨_, rfl⟩ | ⟨offer, rfl⟩ := parseBolt12_cases (Except.ok.inj h)
      · cases hBolt11
      · cases hBolt11
    · rw [classifyPlain_ne_bolt11 h] at hBolt11
      cases hBolt11

/-! ## Bare invoices -/

/-- A text in which nothing is taken off. -/
def Bare (pr : List Char) : Prop := trim pr = pr ∧ startsCi pr "lightning:".toList = false

theorem startsCi_alphanum {text start : List Char} (hStart : ':' ∈ start) (h : ∀ c ∈ text, c.isAlphanum = true) :
    startsCi text start = false := by
  by_contra hStarts
  rw [Bool.not_eq_false] at hStarts
  have hSame : (text.take start.length).map Char.toLower = start.map Char.toLower := of_decide_eq_true hStarts
  have hColon : (':' : Char).toLower ∈ (text.take start.length).map Char.toLower := by
    rw [hSame]
    exact List.mem_map_of_mem hStart
  obtain ⟨c, hc, hLower⟩ := List.mem_map.mp hColon
  have hMem := h c (List.mem_of_mem_take hc)
  rw [eq_of_toLower hLower (by decide)] at hMem
  exact absurd hMem (by decide)

theorem Bolt11Texts.bare (hParsers : Bolt11Texts parsers) {pr : List Char} {invoice : Invoice}
    (h : parsers.bolt11 pr = some invoice) : Bare pr := by
  have hLetters := hParsers.letters pr invoice h
  constructor
  · exact (Tight.of_all fun c hc => notSpace_of_alphanum (hLetters c hc)).trim_eq
  · exact startsCi_alphanum (by decide) hLetters

theorem classifyAt_bare (hParsers : Bolt11Texts parsers) {pr : List Char} {invoice : Invoice}
    (h : parsers.bolt11 pr = some invoice) (hNetwork : invoice.network = .bitcoin) (hAlive : invoice.wouldExpire now = false)
    (hLength : pr.length ≤ maxInputChars) : classifyAt parsers pr now = .ok (invoice.classified pr) := by
  obtain ⟨hTrim, hStrip⟩ := hParsers.bare h
  have hUri : startsCi pr "bitcoin:".toList = false := startsCi_alphanum (by decide) (hParsers.letters pr invoice h)
  have hMainnet := hParsers.mainnet pr invoice h hNetwork
  have hParse : parseBolt11 parsers pr now = invoice.classified pr := by
    rw [parseBolt11, h]
    dsimp only
    rw [if_neg (not_not.mpr hNetwork), hAlive, if_neg Bool.false_ne_true]
  rw [classifyAt_eq, if_neg (by omega), hTrim, hUri, hStrip, if_neg Bool.false_ne_true, if_neg Bool.false_ne_true,
    if_pos (.inl hMainnet), hParse]

theorem startsCi_append (start rest : List Char) : startsCi (start ++ rest) start = true := by
  rw [startsCi, List.take_left]
  exact decide_eq_true rfl

/-- A prefix in front of an invoice or an offer is as good as none. -/
theorem classifyAt_lightning {text : List Char} (hLetters : ∀ c ∈ text, c.isAlphanum = true)
    (hLength : text.length + 10 ≤ maxInputChars) :
    classifyAt parsers ("lightning:".toList ++ text) now = classifyAt parsers text now := by
  have hScheme : ∀ c ∈ "lightning:".toList, Wallet.isWhiteSpace c = false := by decide
  have hTrim : trim ("lightning:".toList ++ text) = "lightning:".toList ++ text := by
    apply (Tight.of_all _).trim_eq
    intro c hc
    exact (List.mem_append.mp hc).elim (hScheme c) fun hText => notSpace_of_alphanum (hLetters c hText)
  have hUri : startsCi ("lightning:".toList ++ text) "bitcoin:".toList = false := by
    rw [startsCi, List.take_append_of_le_length (by decide)]
    decide
  have hShort : ¬ maxInputChars < ("lightning:".toList ++ text).length := by
    have hTen : "lightning:".toList.length = 10 := by decide
    rw [List.length_append, hTen]
    omega
  rw [classifyAt_eq, if_neg hShort, hTrim, hUri, startsCi_append, if_neg Bool.false_ne_true, if_pos rfl, List.drop_left]

end

/-! ## What was served -/

section

variable (fromStr : List Char → Option Json) (sha256 : List UInt8 → List UInt8) (parsers : Parsers)

def served (body : List Char) (key : String) : Option Json := (fromStr body).bind (field · key)

def servedText (body : List Char) (key : String) : Option (List Char) := (fromStr body).bind (strField · key)

/-- The invoice is for the requested amount, in the served window, and commits to the served metadata. -/
structure Agreed (initBody : List Char) (amountMsat : UInt64) (now : Nat) (invoice : Invoice) : Prop where
  mainnet : invoice.network = .bitcoin
  alive : invoice.wouldExpire now = false
  amount : invoice.amountMilliSatoshis = some amountMsat
  least : ∃ least, (served fromStr initBody "minSendable").bind Json.asU64 = some least ∧ least ≤ amountMsat
  most : ∃ most, (served fromStr initBody "maxSendable").bind Json.asU64 = some most ∧ amountMsat ≤ most
  described : ∀ metadata, servedText fromStr initBody "metadata" = some metadata →
    invoice.description = .hash (sha256 (utf8 metadata))

/-- The text stands for an invoice, bare or in a form that is classified as it. -/
def Names (now : Nat) (pr text : List Char) (invoice : Invoice) : Prop :=
  parsers.bolt11 text = some invoice ∧ (pr = text ∨ classifyAt parsers pr now = .ok (invoice.classified text))

/-- What is handed over was agreed on, and what was agreed on is handed over. -/
structure KeepsAgreement (initBody body : List Char) (amountMsat : UInt64) (now : Nat)
    (fetched : Run (Except ResolveError Classified)) : Prop where
  handedOver : ∀ classified, fetched = .ok (.ok classified) → ∃ text invoice, parsers.bolt11 text = some invoice ∧
    classified = invoice.classified text ∧ Agreed fromStr sha256 initBody amountMsat now invoice
  accepted : ∀ pr text invoice, servedText fromStr body "pr" = some pr → Names parsers now pr text invoice →
    Agreed fromStr sha256 initBody amountMsat now invoice → fetched = .ok (.ok (invoice.classified text))

/-- The response is no error, and its text fits and, where metadata was served, is bare. -/
structure Readable (initBody body pr : List Char) : Prop where
  status : servedText fromStr body "status" ≠ some "ERROR".toList
  fits : pr.length ≤ maxInputChars
  bare : servedText fromStr initBody "metadata" = none ∨ Bare pr

end

section

variable {fromStr : List Char → Option Json} {sha256 : List UInt8 → List UInt8} {parsers : Parsers} {now : Nat}
  {initBody body : List Char} {init : LnurlInit} {amountMsat : UInt64}

theorem getD_zero {value : Option UInt64} (h : value.getD 0 ≠ 0) : value = some (value.getD 0) := by
  cases value with
  | none => exact absurd rfl h
  | some value => rfl

theorem validateLnurlInit_ok (h : validateLnurlInit fromStr sha256 initBody = .ok (some init)) :
    (served fromStr initBody "minSendable").bind Json.asU64 = some init.minSendableMsat ∧
    (served fromStr initBody "maxSendable").bind Json.asU64 = some init.maxSendableMsat ∧
    init.expectedDescriptionHash =
      (servedText fromStr initBody "metadata").map fun metadata => sha256 (utf8 metadata) := by
  rw [validateLnurlInit] at h
  cases hBody : fromStr initBody with
  | none =>
    rw [hBody] at h
    cases h
  | some data =>
    rw [hBody] at h
    dsimp only at h
    split_ifs at h with hStatus hTag hBounds
    · cases h
    · split at h <;> cases h
    · split at h
      · cases h
      · cases h
        rw [not_or] at hBounds
        rw [served, served, servedText, hBody]
        exact ⟨getD_zero hBounds.1, getD_zero hBounds.2, rfl⟩

theorem finishLnurl_ok {user domain raw : List Char} {metadata : LnurlPayMetadata} {shown : List Char}
    (h : finishLnurl init user domain raw = .ok (.lnurl metadata shown)) :
    metadata.minSendableMsat = init.minSendableMsat ∧ metadata.maxSendableMsat = init.maxSendableMsat ∧
    metadata.expectedDescriptionHash = init.expectedDescriptionHash := by
  rw [finishLnurl] at h
  split_ifs at h with hScheme
  split at h
  · cases h
  · split_ifs at h with hForeign
    cases h
    exact ⟨rfl, rfl, rfl⟩

theorem validateLnurlInvoice_ok {expected : Option (List UInt8)} {classified : Classified} :
    validateLnurlInvoice fromStr parsers body amountMsat expected now = .ok (.ok classified) ↔
      servedText fromStr body "status" ≠ some "ERROR".toList ∧ ∃ pr, servedText fromStr body "pr" = some pr ∧ pr ≠ [] ∧
        classifyAt parsers pr now = .ok classified ∧
        (∃ raw description paymentHash, classified = .bolt11 raw (some amountMsat) description paymentHash) ∧
        ∀ hash, expected = some hash → ∃ invoice, parsers.bolt11 pr = some invoice ∧ invoice.description = .hash hash := by
  rw [validateLnurlInvoice, servedText, servedText]
  cases hBody : fromStr body with
  | none =>
    apply iff_of_false
    · rintro ⟨⟩
    · rintro ⟨-, pr, ⟨⟩, -⟩
  | some data =>
    simp only [Option.bind_some]
    by_cases hStatus : strField data "status" = some "ERROR".toList
    · rw [if_pos hStatus]
      apply iff_of_false
      · rintro ⟨⟩
      · rintro ⟨hOk, -⟩
        exact hOk hStatus
    · rw [if_neg hStatus]
      cases hPr : strField data "pr" with
      | none =>
        apply iff_of_false
        · rintro ⟨⟩
        · rintro ⟨-, pr, ⟨⟩, -⟩
      | some pr =>
        by_cases hEmpty : pr = []
        · rw [hEmpty]
          apply iff_of_false
          · rintro ⟨⟩
          · rintro ⟨-, _, ⟨⟩, hNonempty, -⟩
            exact hNonempty rfl
        · rw [Option.filter_some, if_pos (decide_eq_true hEmpty)]
          dsimp only
          constructor
          · intro h
            obtain ⟨result, hClassified, hResult⟩ := map_ok h
            refine ⟨hStatus, pr, rfl, hEmpty, ?_⟩
            rw [hClassified]
            split at hResult
            · next raw amount description paymentHash =>
              split_ifs at hResult with hAmount
              rw [not_not] at hAmount
              cases expected with
              | none =>
                cases hResult
                exact ⟨rfl, ⟨raw, description, paymentHash, by rw [hAmount]⟩, fun _ hNone => nomatch hNone⟩
              | some hash =>
                dsimp only at hResult
                split at hResult
                · cases hResult
                · next invoice hParse =>
                  split_ifs at hResult with hHash
                  cases hResult
                  refine ⟨rfl, ⟨raw, description, paymentHash, by rw [hAmount]⟩, ?_⟩
                  rintro _ ⟨⟩
                  exact ⟨invoice, hParse, hHash⟩
            · cases hResult
          · rintro ⟨-, _, ⟨⟩, -, hClassified, ⟨raw, description, paymentHash, rfl⟩, hHash⟩
            rw [hClassified]
            simp only [Except.map, ne_eq, not_true_eq_false, if_false]
            cases expected with
            | none => rfl
            | some hash =>
              obtain ⟨invoice, hParse, hCommits⟩ := hHash hash rfl
              simp only [hParse, hCommits, if_true]

theorem fetchLnurlInvoice_ok {lnurlCallback : List Char → Option (Except ResolveError (List Char))}
    {metadata : LnurlPayMetadata} {classified : Classified}
    (hAnswer : lnurlCallback (callbackUrl metadata.callback amountMsat) = some (.ok body)) :
    fetchLnurlInvoice fromStr parsers lnurlCallback metadata amountMsat now = .ok (.ok classified) ↔
      (metadata.minSendableMsat ≤ amountMsat ∧ amountMsat ≤ metadata.maxSendableMsat) ∧
        validateLnurlInvoice fromStr parsers body amountMsat metadata.expectedDescriptionHash now = .ok (.ok classified) := by
  rw [fetchLnurlInvoice, hAnswer]
  split
  · next hOutside =>
    apply iff_of_false
    · rintro ⟨⟩
    · rintro ⟨⟨hLeast, hMost⟩, -⟩
      obtain hBelow | hAbove := hOutside
      · exact absurd hBelow (UInt64.not_lt.mpr hLeast)
      · exact absurd hAbove (UInt64.not_lt.mpr hMost)
  · next hInside =>
    rw [not_or, UInt64.not_lt, UInt64.not_lt] at hInside
    exact (and_iff_right hInside).symm

/-- Where an invoice was agreed on, it is handed over exactly if it can be read twice. What is handed over was
agreed on in any case. -/
theorem fetched_invoice_agreed_iff (hParsers : Bolt11Texts parsers)
    {lnurlCallback : List Char → Option (Except ResolveError (List Char))} {metadata : LnurlPayMetadata}
    {user domain raw : List Char} (hInit : validateLnurlInit fromStr sha256 initBody = .ok (some init))
    (hFinish : finishLnurl init user domain raw = .ok (.lnurl metadata raw))
    (hAnswer : lnurlCallback (callbackUrl metadata.callback amountMsat) = some (.ok body)) :
    KeepsAgreement fromStr sha256 parsers initBody body amountMsat now
        (fetchLnurlInvoice fromStr parsers lnurlCallback metadata amountMsat now) ↔
      ∀ pr text invoice, servedText fromStr body "pr" = some pr → Names parsers now pr text invoice →
        Agreed fromStr sha256 initBody amountMsat now invoice → Readable fromStr initBody body pr := by
  obtain ⟨hServedLeast, hServedMost, hServedHash⟩ := validateLnurlInit_ok hInit
  obtain ⟨hLeast, hMost, hHash⟩ := finishLnurl_ok hFinish
  have hExpected : metadata.expectedDescriptionHash =
      (servedText fromStr initBody "metadata").map fun served => sha256 (utf8 served) := hHash.trans hServedHash
  constructor
  · rintro ⟨-, hAccepted⟩ pr text invoice hPr hNames hAgreed
    have hFetched := hAccepted pr text invoice hPr hNames hAgreed
    rw [fetchLnurlInvoice_ok hAnswer, validateLnurlInvoice_ok] at hFetched
    obtain ⟨-, hStatus, other, hOther, -, hClassified, -, hCommits⟩ := hFetched
    rw [hPr] at hOther
    cases hOther
    constructor
    · exact hStatus
    · exact (classifyAt_bolt11 hClassified rfl).1
    · cases hServed : servedText fromStr initBody "metadata" with
      | none => exact .inl rfl
      | some served =>
        right
        obtain ⟨reread, hReread, -⟩ := hCommits (sha256 (utf8 served)) (by rw [hExpected, hServed]; rfl)
        exact hParsers.bare hReread
  · intro hReadable
    constructor
    · intro classified hFetched
      rw [fetchLnurlInvoice_ok hAnswer, validateLnurlInvoice_ok] at hFetched
      obtain ⟨⟨hAbove, hBelow⟩, -, pr, -, -, hClassified, ⟨raw, description, paymentHash, rfl⟩, hCommits⟩ := hFetched
      obtain ⟨-, text, invoice, hParse, hNetwork, hAlive, hResult, hBare⟩ := classifyAt_bolt11 hClassified rfl
      refine ⟨text, invoice, hParse, hResult, hNetwork, hAlive, ?_, ?_, ?_, ?_⟩
      · injection hResult with _ hAmount
        exact hAmount.symm
      · exact ⟨_, hServedLeast, hLeast ▸ hAbove⟩
      · exact ⟨_, hServedMost, hMost ▸ hBelow⟩
      · intro served hServed
        obtain ⟨reread, hReread, hCommitted⟩ := hCommits (sha256 (utf8 served)) (by rw [hExpected, hServed]; rfl)
        -- The text that was read twice is bare, so both readings are of the same invoice.
        obtain ⟨hTrim, hStrip⟩ := hParsers.bare hReread
        rw [hTrim] at hBare
        rw [hBare hStrip, hReread] at hParse
        cases hParse
        exact hCommitted
    · intro pr text invoice hPr hNames hAgreed
      obtain ⟨hStatus, hFits, hMetadata⟩ := hReadable pr text invoice hPr hNames hAgreed
      obtain ⟨hParse, hForm⟩ := hNames
      have hClassified : classifyAt parsers pr now = .ok (invoice.classified text) := by
        obtain rfl | hClassified := hForm
        · exact classifyAt_bare hParsers hParse hAgreed.mainnet hAgreed.alive hFits
        · exact hClassified
      obtain ⟨-, other, otherInvoice, hOther, hNetwork, -, hSame, hBare⟩ := classifyAt_bolt11 hClassified rfl
      have hText : other = text := by
        injection hSame with hRaw
        exact hRaw.symm
      subst hText
      rw [fetchLnurlInvoice_ok hAnswer, validateLnurlInvoice_ok]
      refine ⟨⟨?_, ?_⟩, hStatus, pr, hPr, ?_, hClassified, ?_, ?_⟩
      · obtain ⟨least, hServed, hAbove⟩ := hAgreed.least
        rw [hServedLeast] at hServed
        cases hServed
        rwa [hLeast]
      · obtain ⟨most, hServed, hBelow⟩ := hAgreed.most
        rw [hServedMost] at hServed
        cases hServed
        rwa [hMost]
      · rintro rfl
        have hEmpty : other = [] := hBare (by decide)
        rw [hEmpty] at hOther
        exact absurd (hParsers.mainnet [] _ hOther hNetwork) (by decide)
      · rw [Invoice.classified, hAgreed.amount]
        exact ⟨other, _, _, rfl⟩
      · intro hash hCommits
        rw [hExpected] at hCommits
        obtain ⟨served, hServed, rfl⟩ := Option.map_eq_some_iff.mp hCommits
        obtain hNone | ⟨hTrim, hStrip⟩ := hMetadata
        · rw [hNone] at hServed
          cases hServed
        · rw [hTrim] at hBare
          rw [← hBare hStrip]
          exact ⟨invoice, hParse, hAgreed.described served hServed⟩

end

/-! ## A decorated invoice -/

@[irreducible] def agreedText : List Char := [
    "lnbc20m1pvjluezsp5zyg3zyg3zyg3zyg", "3zyg3zyg3zyg3zyg3zyg3zyg3zyg3zyg3", "zygshp52h8xkt2zdyzpksp6f642mek2z8",
    "6mw9umwy0g0s7q8n495xmqmkxqpp5qqqs", "yqcyq5rqwzqfqqqsyqcyq5rqwzqfqqqsy", "qcyq5rqwzqfqypq9qrsgq9mplw7mlaqv2",
    "zlwgmm873hum4vwuf0vawtgcryz3dvsn8", "agcfhryvmwytcsu49dz4knhsrtq0ux4wk", "etenyewkl6tu03pewckgp9jyqqm84rnd"].flatMap String.toList

def servedMetadata : List Char := '[' :: "[\"text/plain\",\"Tip\"]]".toList

def metadataHash : List UInt8 :=
  [85, 206, 107, 45, 66, 105, 4, 27, 64, 58, 78, 170, 173, 230, 202, 17, 245, 183, 23, 155, 113, 30, 135, 195, 192, 60, 234,
    90, 27, 96, 221, 140]

def agreedInvoice : Invoice where
  paymentHash := [0, 1, 2, 3, 4, 5, 6, 7, 8, 9, 0, 1, 2, 3, 4, 5, 6, 7, 8, 9, 0, 1, 2, 3, 4, 5, 6, 7, 8, 9, 1, 2]
  network := .bitcoin
  amountMilliSatoshis := some 2000000000
  expiresAt := 1496318258
  description := .hash metadataHash

def tipParsers : Parsers where
  bolt11 text := if text = agreedText then some agreedInvoice else none
  offer _ := none
  humanReadableName _ := none

def tipHash (bytes : List UInt8) : List UInt8 := if bytes = utf8 servedMetadata then metadataHash else []

def tipInitBody : List Char :=
  '\x7b' :: '\"' :: 't' :: ["ag\":\"payRequest\",\"callback\":\"", "https://example.com/cb\",\"minSendable\"", ":1000,",
    "\"maxSendable\":5000000000,", "\"metadata\":\"[[\\\"text/plain\\\",\\\"Tip\\\"]]\"\x7d"].flatMap String.toList

def tipBody (pr : List Char) : List Char := ['\x7b', '\"', 'p', 'r', '\"', ':', '\"'] ++ pr ++ ['\"', '\x7d']

def tipInitData : Json :=
  .object [("tag", .string "payRequest"), ("callback", .string "https://example.com/cb"),
    ("minSendable", .ofU64 1000), ("maxSendable", .ofU64 5000000000), ("metadata", .string (.ofList servedMetadata))]

/-- Reads the bodies of one exchange, whose response holds this text. -/
def tipFromStr (pr text : List Char) : Option Json :=
  if text = tipBody pr then some (.object [("pr", .string (.ofList pr))])
  else if text = tipInitBody then some tipInitData
  else if text = servedMetadata then some (.array [.array [.string "text/plain", .string "Tip"]])
  else none

def tipMetadata : LnurlPayMetadata where
  domain := "example.com".toList
  user := "tips".toList
  callback := "https://example.com/cb".toList
  minSendableMsat := 1000
  maxSendableMsat := 5000000000
  description := "Tip".toList
  expectedDescriptionHash := some metadataHash

def tipInit : LnurlInit where
  callback := "https://example.com/cb".toList
  minSendableMsat := 1000
  maxSendableMsat := 5000000000
  description := some "Tip".toList
  expectedDescriptionHash := some metadataHash

def fetchTip (pr : List Char) : Run (Except ResolveError Classified) :=
  fetchLnurlInvoice (tipFromStr pr) tipParsers (fun _ => some (.ok (tipBody pr))) tipMetadata 2000000000 1496314700

section

variable (pr : List Char)

theorem tipFromStr_body : tipFromStr pr (tipBody pr) = some (.object [("pr", .string (.ofList pr))]) := if_pos rfl

theorem tipFromStr_init : tipFromStr pr tipInitBody = some tipInitData := by
  have hOther : tipInitBody ≠ tipBody pr := by
    intro hSame
    have hThird : some 't' = some 'p' := congrArg (·[2]?) hSame
    exact absurd hThird (by decide)
  rw [tipFromStr, if_neg hOther, if_pos rfl]

theorem tipBody_served :
    servedText (tipFromStr pr) (tipBody pr) "pr" = some pr ∧ servedText (tipFromStr pr) (tipBody pr) "status" = none := by
  have hText : field (.object [("pr", .string (.ofList pr))]) "pr" = some (.string (.ofList pr)) := rfl
  have hStatus : field (.object [("pr", .string (.ofList pr))]) "status" = none := rfl
  rw [servedText, servedText, tipFromStr_body, Option.bind_some, Option.bind_some, strField, strField, hText, hStatus]
  constructor
  · exact congrArg some String.toList_ofList
  · rfl

theorem tipFromStr_metadata :
    tipFromStr pr servedMetadata = some (.array [.array [.string "text/plain", .string "Tip"]]) := by
  have hBody : servedMetadata ≠ tipBody pr := by
    intro hSame
    have hFirst : some '[' = some '\x7b' := congrArg (·[0]?) hSame
    exact absurd hFirst (by decide)
  have hInit : servedMetadata ≠ tipInitBody := by
    intro hSame
    have hFirst : some '[' = some '\x7b' := congrArg (·[0]?) hSame
    exact absurd hFirst (by decide)
  rw [tipFromStr, if_neg hBody, if_neg hInit, if_pos rfl]

theorem tipInit_served : validateLnurlInit (tipFromStr pr) tipHash tipInitBody = .ok (some tipInit) ∧
    servedText (tipFromStr pr) tipInitBody "metadata" = some servedMetadata := by
  have hStatus : strField tipInitData "status" = none := rfl
  have hTag : strField tipInitData "tag" = some "payRequest".toList := rfl
  have hCallback : strField tipInitData "callback" = some "https://example.com/cb".toList := rfl
  have hLeast : (field tipInitData "minSendable").bind Json.asU64 = some 1000 := rfl
  have hMost : (field tipInitData "maxSendable").bind Json.asU64 = some 5000000000 := rfl
  have hMetadata : strField tipInitData "metadata" = some servedMetadata := by
    have hField : field tipInitData "metadata" = some (.string (.ofList servedMetadata)) := rfl
    rw [strField, hField]
    exact congrArg some String.toList_ofList
  have hText : metadataText (tipFromStr pr) servedMetadata = some "Tip".toList := by
    rw [metadataText, tipFromStr_metadata]
    rfl
  have hHash : tipHash (utf8 servedMetadata) = metadataHash := if_pos rfl
  constructor
  · rw [validateLnurlInit, tipFromStr_init]
    simp only [hStatus, hTag, hCallback, hLeast, hMost, hMetadata, Option.map_some, hHash, Option.bind_some, hText]
    rfl
  · rw [servedText, tipFromStr_init, Option.bind_some, hMetadata]

end

theorem tipInit_finished : finishLnurl tipInit "tips".toList "example.com".toList "tips@example.com".toList =
    .ok (.lnurl tipMetadata "tips@example.com".toList) := by
  decide +kernel

theorem agreedText_letters : ∀ c ∈ agreedText, c.isAlphanum = true := by decide +kernel

theorem agreedText_length : agreedText.length = 296 := by decide +kernel

theorem agreedText_mainnet : startsCi agreedText "lnbc".toList = true := by decide +kernel

theorem agreedText_parsed : tipParsers.bolt11 agreedText = some agreedInvoice := if_pos rfl

theorem tipParsers_texts : Bolt11Texts tipParsers := by
  constructor
  · intro text invoice h
    obtain ⟨rfl, -⟩ := Option.ite_none_right_eq_some.mp h
    exact agreedText_letters
  · intro text invoice h _
    obtain ⟨rfl, -⟩ := Option.ite_none_right_eq_some.mp h
    exact agreedText_mainnet

theorem agreedInvoice_agreed (pr : List Char) :
    Agreed (tipFromStr pr) tipHash tipInitBody 2000000000 1496314700 agreedInvoice := by
  constructor
  · rfl
  · decide +kernel
  · rfl
  · rw [served, tipFromStr_init]
    exact ⟨1000, rfl, by decide +kernel⟩
  · rw [served, tipFromStr_init]
    exact ⟨5000000000, rfl, by decide +kernel⟩
  · intro metadata hServed
    rw [(tipInit_served pr).2] at hServed
    cases hServed
    exact congrArg InvoiceDescription.hash (if_pos rfl).symm

theorem bare_invoice_accepted : KeepsAgreement (tipFromStr agreedText) tipHash tipParsers tipInitBody (tipBody agreedText)
    2000000000 1496314700 (fetchTip agreedText) := by
  obtain ⟨hServed, hStatus⟩ := tipBody_served agreedText
  apply (fetched_invoice_agreed_iff tipParsers_texts (tipInit_served agreedText).1 tipInit_finished rfl).mpr
  intro pr text invoice hPr _ _
  rw [hServed] at hPr
  cases hPr
  constructor
  · rw [hStatus]
    rintro ⟨⟩
  · rw [agreedText_length]
    decide
  · exact .inr (tipParsers_texts.bare agreedText_parsed)

def decoratedText : List Char := "lightning:".toList ++ agreedText

theorem decoratedText_eq : decoratedText = "lightning:".toList ++ agreedText := rfl

theorem decoratedText_classified :
    classifyAt tipParsers decoratedText 1496314700 = .ok (agreedInvoice.classified agreedText) := by
  have hShort : agreedText.length + 10 ≤ maxInputChars := by
    rw [agreedText_length]
    decide
  have hAlive : agreedInvoice.wouldExpire 1496314700 = false := by decide +kernel
  rw [decoratedText_eq, classifyAt_lightning agreedText_letters hShort]
  exact classifyAt_bare tipParsers_texts agreedText_parsed rfl hAlive (Nat.le_of_add_right_le hShort)

theorem fetchTip_decorated : fetchTip decoratedText = .ok (.error .invalidProviderInvoice) := by
  obtain ⟨hServed, hStatus⟩ := tipBody_served decoratedText
  have hDifferent : decoratedText ≠ agreedText := by
    intro hSame
    have hLength := congrArg List.length hSame
    rw [decoratedText_eq, List.length_append, Nat.add_eq_right] at hLength
    cases hLength
  have hReread : tipParsers.bolt11 decoratedText = none := if_neg hDifferent
  have hNonempty : decoratedText ≠ [] := by
    rw [decoratedText_eq]
    exact List.append_ne_nil_of_left_ne_nil (by decide) _
  have hWindow : ¬ ((2000000000 : UInt64) < tipMetadata.minSendableMsat ∨ tipMetadata.maxSendableMsat < 2000000000) := by
    decide +kernel
  have hHash : tipMetadata.expectedDescriptionHash = some metadataHash := rfl
  rw [servedText, tipFromStr_body, Option.bind_some] at hServed hStatus
  rw [fetchTip, fetchLnurlInvoice, if_neg hWindow]
  dsimp only
  rw [validateLnurlInvoice, tipFromStr_body]
  dsimp only
  rw [hStatus, hServed, if_neg (by rintro ⟨⟩), Option.filter_some, if_pos (decide_eq_true hNonempty)]
  dsimp only
  rw [decoratedText_classified, hHash]
  simp only [Except.map, Invoice.classified, hReread]
  rfl

/-- The invoice that was agreed on is refused when its text is decorated, though it was classified as it. -/
theorem decorated_invoice_refused :
    validateLnurlInit (tipFromStr decoratedText) tipHash tipInitBody = .ok (some tipInit) ∧
    finishLnurl tipInit "tips".toList "example.com".toList "tips@example.com".toList =
      .ok (.lnurl tipMetadata "tips@example.com".toList) ∧
    classifyAt tipParsers decoratedText 1496314700 = .ok (agreedInvoice.classified agreedText) ∧
    fetchTip decoratedText = .ok (.error .invalidProviderInvoice) ∧
    ¬ KeepsAgreement (tipFromStr decoratedText) tipHash tipParsers tipInitBody (tipBody decoratedText) 2000000000 1496314700
      (fetchTip decoratedText) := by
  constructor
  · exact (tipInit_served decoratedText).1
  constructor
  · exact tipInit_finished
  constructor
  · exact decoratedText_classified
  constructor
  · exact fetchTip_decorated
  · intro hKeeps
    have hNames : Names tipParsers 1496314700 decoratedText agreedText agreedInvoice :=
      ⟨agreedText_parsed, .inr decoratedText_classified⟩
    have hOk := hKeeps.accepted decoratedText agreedText agreedInvoice (tipBody_served decoratedText).1 hNames
      (agreedInvoice_agreed decoratedText)
    rw [fetchTip_decorated] at hOk
    injection hOk with hError
    cases hError

end WalletCore.Send
