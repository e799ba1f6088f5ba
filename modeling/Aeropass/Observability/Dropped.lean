import Aeropass.Lib.TwoRuns
import Aeropass.Observability.Privacy

/-!
# Events that the privacy filter loses

An exception in `before_send` makes the SDK discard the event. On events in the shapes that the
filter checks for (`ErrorChecked`, `TransactionChecked`) only `urlsplit` raises: a URL that it does
not read, such as one whose host the client named with a single bracket, loses the error or the
transaction it belongs to. Every cleaning function has a lemma that says exactly when it returns.
-/

open Json PyStr

namespace Aeropass

variable {parse : UrlParse} {d e : Dict} {v : Json} {key : String}

/-! ## The shapes that are checked -/

/-- A list of dictionaries, or a value that `or []` replaces. -/
def ListChecked (v : Json) : Prop :=
  v.truthy = false ∨ ∃ items, v = .array items ∧ ∀ item ∈ items, item.isObject = true

/-- An error event whose `exception`, if it has one, has a list of dictionaries as its values. -/
def ErrorChecked (e : Dict) : Prop :=
  (e.get "exception").truthy = false ∨
    ∃ x : Dict, e.get "exception" = .object x ∧ ListChecked (x.get "values")

/-- A transaction whose spans, if it has any, are a list of dictionaries. -/
def TransactionChecked (e : Dict) : Prop := ListChecked (e.get "spans")

/-! ## The URLs that can be split -/

/-- The URL can be split, and so can what `strip_query` makes of it. -/
def UrlParse.Splits (parse : UrlParse) (url : String) : Prop :=
  ∃ parts, parse.urlsplit url = some parts ∧
    (parse.urlsplit (parse.urlunsplit { parts with query := "", fragment := "" })).isSome = true

/-- The URL of the request, if there is one, can be split. -/
def RequestShaped (parse : UrlParse) (e : Dict) : Prop :=
  ∀ r : Dict, e.get "request" = .object r → ∀ url, r.get "url" = .str url →
    ∃ parts, parse.urlsplit url = some parts

/-- What the host of a call is read from can be split: the cleaned URL, or the empty one. -/
def HostSplits (parse : UrlParse) : Json → Prop
  | .str url => parse.Splits url
  | v => v.truthy = false ∧ (parse.urlsplit "").isSome = true

/-- The URL of a span, if there is one, can be split, and so can what the host of an outgoing call
without an address is read from. -/
def SpanSplits (parse : UrlParse) (span : Dict) : Prop :=
  ∀ data : Dict, span.get "data" = .object data →
    (∀ url, data.get "url" = .str url → ∃ parts, parse.urlsplit url = some parts) ∧
    ((span.get "op").eqStr "http.client" = true → (data.get "server.address").truthy = false →
      HostSplits parse (data.get "url"))

/-- So can the URL of the request and those of all spans. -/
def TransactionSplits (parse : UrlParse) (e : Dict) : Prop :=
  RequestShaped parse e ∧ ∀ items, e.get "spans" = .array items → ∀ span : Dict,
    .object span ∈ items → SpanSplits parse span

/-- The items of a list that is checked. -/
theorem ListChecked.items {items : List Json} (h : ListChecked (.array items)) :
    ∀ item ∈ items, item.isObject = true := by
  rcases h with hfalse | ⟨_, ⟨⟩, hall⟩
  · have hnil : items = [] := by simpa [truthy] using hfalse
    rw [hnil]
    exact List.forall_mem_nil _
  · exact hall

/-! ## What each function returns on -/

theorem cleanUrl_of_not_str (h : (d.get "url").isStr = false) : cleanUrl parse d = .ok d := by
  unfold cleanUrl
  split
  · next url hurl =>
    rw [hurl] at h
    cases h
  · rfl

theorem stripQuery_returns {url : String} :
    Returns (stripQuery parse url) ↔ ∃ parts, parse.urlsplit url = some parts := by
  unfold stripQuery
  cases parse.urlsplit url with
  | none => simp
  | some parts => simp

/-- Cleaning a URL returns exactly when `urlsplit` does. -/
theorem cleanUrl_returns : Returns (cleanUrl parse d) ↔
    ∀ url, d.get "url" = .str url → ∃ parts, parse.urlsplit url = some parts := by
  cases hurl : (d.get "url").isStr with
  | false =>
    rw [cleanUrl_of_not_str hurl]
    refine iff_of_true (Returns.ok d) fun url hstr => ?_
    rw [hstr] at hurl
    cases hurl
  | true =>
    obtain ⟨url, hstr⟩ := exists_of_isStr hurl
    rw [cleanUrl, hstr]
    dsimp only
    rw [Returns.bind_pure_iff, stripQuery_returns]
    constructor
    · rintro h _ ⟨⟩
      exact h
    · intro h
      exact h url rfl

/-- A request that is no dictionary is left alone. -/
theorem cleanRequest_of_not_dict (h : ((d.pop "user").get "request").isObject = false) :
    cleanRequest parse d = .ok (d.pop "user") := by
  unfold cleanRequest
  dsimp only
  split
  · next request hr =>
    rw [hr] at h
    cases h
  · rfl

/-- Cleaning the request returns exactly on its shape. -/
theorem cleanRequest_returns : Returns (cleanRequest parse e) ↔ RequestShaped parse e := by
  have hget : (e.pop "user").get "request" = e.get "request" :=
    Dict.get_congr (by rw [Dict.lookup_pop, if_neg (by decide)])
  cases hreq : ((e.pop "user").get "request").isObject with
  | false =>
    rw [cleanRequest_of_not_dict hreq]
    refine iff_of_true (Returns.ok _) fun r hr => ?_
    rw [hget, hr] at hreq
    cases hreq
  | true =>
    obtain ⟨r, hr⟩ := exists_of_isObject hreq
    have hurl : (Dict.popAll requestFieldsDropped r).get "url" = Dict.get "url" r :=
      Dict.get_congr (by rw [Dict.lookup_popAll, if_neg (by decide)])
    simp only [cleanRequest, hr]
    rw [Returns.bind_pure_iff, cleanUrl_returns, hurl, RequestShaped, ← hget, hr]
    constructor
    · rintro h _ ⟨⟩
      exact h
    · intro h
      exact h r rfl

/-- A list that is checked is cleaned when its items are. -/
theorem cleanEach_returns {clean : Json → Except PyError Json} (h : ListChecked (d.get key)) :
    Returns (cleanEach key clean d) ↔
      ∀ items, d.get key = .array items → ∀ item ∈ items, Returns (clean item) := by
  unfold cleanEach
  generalize d.get key = v at h ⊢
  rcases h with hfalse | ⟨items, rfl, -⟩
  · cases v with
    | array items =>
      have hnil : items = [] := by simpa [truthy] using hfalse
      subst hnil
      refine iff_of_true ⟨_, rfl⟩ ?_
      rintro _ ⟨⟩ item hitem
      cases hitem
    | str s =>
      have hempty : s = "" := by simpa [truthy] using hfalse
      subst hempty
      exact iff_of_true ⟨d, rfl⟩ fun _ heq => by cases heq
    | object entries =>
      have hnil : entries = [] := by simpa [truthy] using hfalse
      subst hnil
      exact iff_of_true ⟨d, rfl⟩ fun _ heq => by cases heq
    | _ =>
      dsimp only
      rw [hfalse]
      exact iff_of_true ⟨d, rfl⟩ fun _ heq => by cases heq
  · dsimp only
    rw [Returns.bind_pure_iff, Returns.mapM_iff]
    constructor
    · rintro h _ ⟨⟩
      exact h
    · intro h
      exact h items rfl

theorem cleanException_returns (value : Dict) : Returns (cleanException (.object value)) := by
  unfold cleanException
  dsimp only
  split
  · exact Returns.ok _
  · exact Returns.ok _

/-- Cleaning the exceptions of an event with the checked fields returns. -/
theorem cleanExceptions_returns (h : ErrorChecked e) : Returns (cleanExceptions e) := by
  unfold cleanExceptions ErrorChecked at *
  generalize e.get "exception" = v at h ⊢
  cases v with
  | object x =>
    have hlist : ListChecked (Dict.get "values" x) := by
      rcases h with hfalse | ⟨_, ⟨⟩, hlist⟩
      · have hnil : x = [] := by simpa [truthy] using hfalse
        rw [hnil]
        exact .inl rfl
      · exact hlist
    dsimp only
    rw [Returns.bind_pure_iff, cleanEach_returns hlist]
    intro items hitems item hitem
    obtain ⟨value, rfl⟩ := exists_of_isObject ((hitems ▸ hlist).items item hitem)
    exact cleanException_returns value
  | _ =>
    rcases h with hfalse | ⟨_, ⟨⟩, -⟩
    dsimp only
    rw [hfalse]
    exact Returns.ok e

/-- The host is added when what it is read from can be split. -/
theorem addServerAddress_returns {op : Json} : Returns (addServerAddress parse op d) ↔
    (op.eqStr "http.client" = true → (d.get "server.address").truthy = false →
      ∃ url, (if (d.get "url").truthy then d.get "url" else .str "") = .str url ∧
        (parse.urlsplit url).isSome = true) := by
  unfold addServerAddress
  cases hop : op.eqStr "http.client" with
  | false => simp
  | true =>
    cases haddress : (d.get "server.address").truthy with
    | true => simp
    | false =>
      generalize (if (d.get "url").truthy then d.get "url" else .str "") = v
      simp only [Bool.not_false, Bool.and_self, if_true, forall_const]
      cases v with
      | str url =>
        dsimp only
        cases hsplit : parse.urlsplit url with
        | none => simp [hsplit]
        | some parts =>
          refine iff_of_true ?_ ⟨url, rfl, by rw [hsplit]; rfl⟩
          dsimp only
          split
          · exact Returns.ok _
          · exact Returns.ok _
      | _ =>
        refine iff_of_false (Returns.not_error _) ?_
        rintro ⟨url, hurl, -⟩
        cases hurl

/-- A string is what `or ""` leaves of it. -/
theorem str_or_empty (s : String) :
    (if (Json.str s).truthy then Json.str s else .str "") = .str s := by
  by_cases hs : s = ""
  · subst hs
    rfl
  · rw [if_pos (by simpa [truthy] using hs)]

/-- Where there is no URL to clean, the host is read from the empty one. -/
theorem hostSplits_of_not_str (h : v.isStr = false) : HostSplits parse v ↔
    ∃ url, (if v.truthy then v else .str "") = .str url ∧
      (parse.urlsplit url).isSome = true := by
  have hdef : HostSplits parse v ↔ v.truthy = false ∧ (parse.urlsplit "").isSome = true := by
    cases v with
    | str s => cases h
    | _ => exact Iff.rfl
  rw [hdef]
  cases ht : v.truthy with
  | false =>
    constructor
    · rintro ⟨-, hsplit⟩
      exact ⟨"", rfl, hsplit⟩
    · rintro ⟨_, ⟨⟩, hsplit⟩
      exact ⟨rfl, hsplit⟩
  | true =>
    refine iff_of_false (by simp) ?_
    rintro ⟨url, hurl, -⟩
    rw [if_pos rfl] at hurl
    rw [hurl] at h
    cases h

/-- Cleaning the data of a span returns exactly when its URLs split. -/
theorem cleanSpanData_returns {op : Json} {data : Dict} :
    Returns (cleanSpanData parse op data) ↔
      (∀ url, data.get "url" = .str url → ∃ parts, parse.urlsplit url = some parts) ∧
      (op.eqStr "http.client" = true → (data.get "server.address").truthy = false →
        HostSplits parse (data.get "url")) := by
  have hget : ∀ key ∉ spanDataDropped, (data.popAll spanDataDropped).get key = data.get key :=
    fun key hkey => Dict.get_congr (by rw [Dict.lookup_popAll, if_neg hkey])
  have hurl := hget "url" (by decide)
  have haddress := hget "server.address" (by decide)
  rw [cleanSpanData, Returns.bind_iff]
  cases hstr : (data.get "url").isStr with
  | false =>
    have hclean : cleanUrl parse (data.popAll spanDataDropped) =
        .ok (data.popAll spanDataDropped) := cleanUrl_of_not_str (hurl ▸ hstr)
    have hnone : ∀ url, data.get "url" = .str url → ∃ parts, parse.urlsplit url = some parts := by
      intro url heq
      rw [heq] at hstr
      cases hstr
    rw [hclean, hostSplits_of_not_str hstr, ← hurl, ← haddress, ← addServerAddress_returns,
      and_iff_right (hurl ▸ hnone)]
    constructor
    · rintro ⟨_, ⟨⟩, h⟩
      exact h
    · intro h
      exact ⟨_, rfl, h⟩
  | true =>
    obtain ⟨url, hstring⟩ := exists_of_isStr hstr
    cases hsplit : parse.urlsplit url with
    | none =>
      refine iff_of_false ?_ ?_
      · rintro ⟨a, h, -⟩
        simp only [cleanUrl, hurl, hstring, stripQuery, hsplit] at h
        cases h
      · rintro ⟨h, -⟩
        obtain ⟨parts, hparts⟩ := h url hstring
        rw [hsplit] at hparts
        cases hparts
    | some parts =>
      have hsome : ∀ url', data.get "url" = .str url' →
          ∃ parts, parse.urlsplit url' = some parts := by
        intro url' heq
        rw [hstring] at heq
        cases heq
        exact ⟨parts, hsplit⟩
      obtain ⟨stripped, hstripped⟩ :
          ∃ s, s = parse.urlunsplit { parts with query := "", fragment := "" } := ⟨_, rfl⟩
      -- what is left of the URL takes its place
      obtain ⟨cleaned, hclean, hnew, hold⟩ : ∃ cleaned : Dict,
          cleanUrl parse (data.popAll spanDataDropped) = .ok cleaned ∧
          cleaned.get "url" = .str stripped ∧
          cleaned.get "server.address" = data.get "server.address" := by
        refine ⟨(data.popAll spanDataDropped).set "url" (.str stripped), ?_, ?_, ?_⟩
        · simp only [cleanUrl, hurl, hstring, stripQuery, hsplit, hstripped]
          rfl
        · rw [Dict.get, Dict.lookup_set, if_pos rfl]
          rfl
        · rw [← haddress]
          exact Dict.get_congr (by rw [Dict.lookup_set, if_neg (by decide)])
      have hhost : HostSplits parse (data.get "url") ↔
          ∃ url, Json.str stripped = .str url ∧ (parse.urlsplit url).isSome = true := by
        rw [hstring]
        constructor
        · rintro ⟨parts', hparts', h⟩
          rw [hsplit] at hparts'
          cases hparts'
          exact ⟨stripped, rfl, hstripped ▸ h⟩
        · rintro ⟨_, ⟨⟩, h⟩
          exact ⟨parts, hsplit, hstripped ▸ h⟩
      have haddress' : Returns (addServerAddress parse op cleaned) ↔
          (op.eqStr "http.client" = true → (data.get "server.address").truthy = false →
            HostSplits parse (data.get "url")) := by
        rw [addServerAddress_returns, hnew, str_or_empty, hold, hhost]
      rw [hclean, and_iff_right hsome, ← haddress']
      constructor
      · rintro ⟨_, ⟨⟩, h⟩
        exact h
      · intro h
        exact ⟨cleaned, rfl, h⟩

/-! ## Spans and events -/

theorem cleanSpan_object (span : Dict) :
    cleanSpan parse (.object span) =
      match span.get "data" with
      | .object data => do
        let data ← cleanSpanData parse (span.get "op") data
        return .object (cutDescription (span.set "data" (.object data)))
      | _ => return .object (cutDescription span) := rfl

/-- Of a span without data only the description is cut. -/
theorem cleanSpan_object_of_not_dict {span : Dict} (h : (span.get "data").isObject = false) :
    cleanSpan parse (.object span) = .ok (.object (cutDescription span)) := by
  rw [cleanSpan_object]
  split
  · next data hdata =>
    rw [hdata] at h
    cases h
  · rfl

/-- Cleaning a span returns exactly when its URLs split. -/
theorem cleanSpan_returns {span : Dict} :
    Returns (cleanSpan parse (.object span)) ↔ SpanSplits parse span := by
  cases hdata : (Dict.get "data" span).isObject with
  | false =>
    rw [cleanSpan_object_of_not_dict hdata]
    refine iff_of_true (Returns.ok _) fun data hobj => ?_
    rw [hobj] at hdata
    cases hdata
  | true =>
    obtain ⟨data, hobj⟩ := exists_of_isObject hdata
    rw [cleanSpan_object, hobj]
    dsimp only
    rw [Returns.bind_pure_iff, cleanSpanData_returns, SpanSplits, hobj]
    constructor
    · rintro h _ ⟨⟩
      exact h
    · intro h
      exact h data rfl

/-- Cleaning the request leaves the fields besides it and the user. -/
theorem cleanRequest_get {a : Dict} (h : cleanRequest parse e = .ok a)
    (hk : key ∉ ["user", "request"]) : a.get key = e.get key := by
  rw [List.mem_cons, List.mem_singleton, not_or] at hk
  have hpop : (e.pop "user").lookup key = e.lookup key := by
    rw [Dict.lookup_pop, if_neg hk.1]
  unfold cleanRequest at h
  dsimp only at h
  split at h
  · next request _ =>
    cases hclean : cleanUrl parse (Dict.popAll requestFieldsDropped request) with
    | error err =>
      rw [hclean] at h
      cases h
    | ok r =>
      rw [hclean] at h
      cases h
      exact Dict.get_congr (by rw [Dict.lookup_set, if_neg hk.2, hpop])
  · cases h
    exact Dict.get_congr hpop

namespace SentryPrivacyFilter

/-- An error is lost when the URL of its request cannot be split. -/
theorem beforeSend_returns (h : ErrorChecked e) :
    Returns (beforeSend parse e) ↔ RequestShaped parse e := by
  rw [beforeSend, Returns.bind_iff, ← cleanRequest_returns]
  constructor
  · rintro ⟨a, ha, -⟩
    exact ⟨a, ha⟩
  · rintro ⟨a, ha⟩
    have hchecked : ErrorChecked a := by
      rwa [ErrorChecked, cleanRequest_get ha (by decide)]
    exact ⟨a, ha, Returns.bind_pure_iff.2 (cleanExceptions_returns hchecked)⟩

/-- A transaction is lost when that URL or one of a span cannot. -/
theorem beforeSendTransaction_returns (h : TransactionChecked e) :
    Returns (beforeSendTransaction parse e) ↔ TransactionSplits parse e := by
  have hspans : (∀ items, e.get "spans" = .array items →
      ∀ item ∈ items, Returns (cleanSpan parse item)) ↔
      ∀ items, e.get "spans" = .array items → ∀ span : Dict, .object span ∈ items →
        SpanSplits parse span := by
    refine forall_congr' fun items => forall_congr' fun hitems => ?_
    constructor
    · intro hall span hspan
      exact cleanSpan_returns.1 (hall _ hspan)
    · intro hall item hitem
      obtain ⟨span, rfl⟩ := exists_of_isObject (ListChecked.items (hitems ▸ h) item hitem)
      exact cleanSpan_returns.2 (hall span hitem)
  rw [beforeSendTransaction, Returns.bind_iff, TransactionSplits, ← cleanRequest_returns, ← hspans]
  constructor
  · rintro ⟨a, ha, hreturns⟩
    have hget : a.get "spans" = e.get "spans" := cleanRequest_get ha (by decide)
    rw [cleanEach_returns (hget ▸ h), hget] at hreturns
    exact ⟨⟨a, ha⟩, hreturns⟩
  · rintro ⟨⟨a, ha⟩, hall⟩
    have hget : a.get "spans" = e.get "spans" := cleanRequest_get ha (by decide)
    refine ⟨a, ha, ?_⟩
    rw [cleanEach_returns (hget ▸ h), hget]
    exact hall

end SentryPrivacyFilter

open SentryPrivacyFilter

/-- **What the privacy filter loses.** In the shapes that it checks for, an error is sent exactly
when the URL of its request can be split, and a transaction when those of its spans can, too. -/
theorem privacyFilter_returns_iff (parse : UrlParse) :
    (∀ e : Dict, ErrorChecked e →
      ((∃ sent, beforeSend parse e = .ok sent) ↔ RequestShaped parse e)) ∧
    ∀ e : Dict, TransactionChecked e →
      ((∃ sent, beforeSendTransaction parse e = .ok sent) ↔ TransactionSplits parse e) :=
  ⟨fun _ h => beforeSend_returns h, fun _ h => beforeSendTransaction_returns h⟩

/-- `urllib.parse` on absolute URLs without user information. -/
def absoluteUrls : UrlParse where
  urlsplit url :=
    let located := url.toList.takeWhile (· != '#')
    let address := located.takeWhile (· != '?')
    let rest := ((address.dropWhile (· != ':')).drop 3)
    some
      { scheme := String.ofList (address.takeWhile (· != ':'))
        netloc := String.ofList (rest.takeWhile (· != '/'))
        path := String.ofList (rest.dropWhile (· != '/'))
        query := String.ofList ((located.dropWhile (· != '?')).drop 1)
        fragment := String.ofList ((url.toList.dropWhile (· != '#')).drop 1) }
  urlunsplit parts := parts.scheme ++ "://" ++ parts.netloc ++ parts.path
  hostname netloc := some (String.ofList (netloc.toList.takeWhile (· != ':')))

/-- The same, where a `netloc` with only one of the brackets is refused. -/
def bracketUrls : UrlParse where
  urlsplit url := (absoluteUrls.urlsplit url).filter fun parts =>
    parts.netloc.toList.contains '[' == parts.netloc.toList.contains ']'
  urlunsplit := absoluteUrls.urlunsplit
  hostname := absoluteUrls.hostname

/-- An event of a request to a host. -/
def eventAt (host : String) : Dict :=
  [("level", .str "error"),
    ("request", .object [("url", .str ("http://" ++ host ++ "/v1/passengers"))])]

theorem privacyFilter_returns_sample :
    ∃ sent, beforeSend bracketUrls (eventAt "aeropass.test") = .ok sent := by
  refine ((privacyFilter_returns_iff bracketUrls).1 (eventAt "aeropass.test") (.inl rfl)).2 ?_
  rintro r ⟨⟩ url ⟨⟩
  exact ⟨_, rfl⟩

/-- A client that names `[` as the host has its errors and transactions discarded. -/
theorem privacyFilter_drops :
    beforeSend bracketUrls (eventAt "[") = .error .valueError ∧
    beforeSendTransaction bracketUrls (eventAt "[") = .error .valueError ∧
    (¬ ∀ e : Dict, ErrorChecked e → ∃ sent, beforeSend bracketUrls e = .ok sent) ∧
    ¬ ∀ e : Dict, TransactionChecked e →
        ∃ sent, beforeSendTransaction bracketUrls e = .ok sent := by
  have hsend : beforeSend bracketUrls (eventAt "[") = .error .valueError := by rfl
  have htransaction : beforeSendTransaction bracketUrls (eventAt "[") = .error .valueError := by
    rfl
  refine ⟨hsend, htransaction, fun h => ?_, fun h => ?_⟩
  · obtain ⟨sent, hsent⟩ := h (eventAt "[") (.inl rfl)
    rw [hsend] at hsent
    cases hsent
  · obtain ⟨sent, hsent⟩ := h (eventAt "[") (.inl rfl)
    rw [htransaction] at hsent
    cases hsent

end Aeropass
