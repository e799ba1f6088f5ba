import Aeropass.Observability.Dropped

/-!
# What the privacy filter does not let through

Two events are alike when they differ only in what the filter is there to remove (`ErrorAlike`,
`TransactionAlike`): each level of the event has a relation of its own, which says what may differ
there. Cleaning alike events goes the same way in both runs and leaves equal ones; every cleaning
function has a lemma that says so in terms of the keys it writes (`Dict.Written`).
-/

open Json PyStr

namespace Aeropass

/-! ## Events that are alike -/

/-- Equal values, or two dictionaries that are related. -/
inductive OrAlike (R : Dict → Dict → Prop) : Json → Json → Prop
  | equal {v w : Json} (h : v.Equal w) : OrAlike R v w
  | dict {d d' : Dict} (h : R d d') : OrAlike R (.object d) (.object d')

/-- Equal values, or two lists with items that are equal or related in their places. -/
inductive ListAlike (R : Dict → Dict → Prop) : Json → Json → Prop
  | equal {v w : Json} (h : v.Equal w) : ListAlike R v w
  | array {xs ys : List Json} (h : List.Forall₂ (OrAlike R) xs ys) :
    ListAlike R (.array xs) (.array ys)

/-- Two URLs that differ in query and fragment. -/
inductive UrlAlike (parse : UrlParse) : Json → Json → Prop
  | equal {v w : Json} (h : v.Equal w) : UrlAlike parse v w
  | split {url url' : String} {parts parts' : SplitResult} (h : parse.urlsplit url = some parts)
    (h' : parse.urlsplit url' = some parts') (scheme : parts.scheme = parts'.scheme)
    (netloc : parts.netloc = parts'.netloc) (path : parts.path = parts'.path) :
    UrlAlike parse (.str url) (.str url')

/-- The kept headers are equal. -/
structure HeadersAlike (h h' : Dict) : Prop where
  kept : ∀ k, lower k ∈ keptHeaders → h.EqualAt h' k

/-- Two requests that differ in the dropped fields, in the headers that are not kept, and in query
and fragment of the URL. -/
structure RequestAlike (parse : UrlParse) (r r' : Dict) : Prop where
  url : Option.Rel (UrlAlike parse) (r.lookup "url") (r'.lookup "url")
  headers : Option.Rel (OrAlike HeadersAlike) (r.lookup "headers") (r'.lookup "headers")
  rest : ∀ k, k ∉ "url" :: "headers" :: requestFieldsDropped → r.EqualAt r' k

/-- Two exceptions that differ in a message that is not the program's own. -/
structure ExceptionAlike (x x' : Dict) : Prop where
  value : x.EqualAt x' "value" ∨
    (x.get "value").truthy = true ∧ (x'.get "value").truthy = true ∧ isOwn (x.get "module") = false
  rest : ∀ k, k ≠ "value" → x.EqualAt x' k

/-- Two `exception` entries with alike exceptions. -/
structure ExceptionsAlike (x x' : Dict) : Prop where
  values : Option.Rel (ListAlike ExceptionAlike) (x.lookup "values") (x'.lookup "values")
  rest : ∀ k, k ≠ "values" → x.EqualAt x' k

/-- Two error events that differ in what the filter removes. -/
structure ErrorAlike (parse : UrlParse) (e e' : Dict) : Prop where
  request : Option.Rel (OrAlike (RequestAlike parse)) (e.lookup "request") (e'.lookup "request")
  exception : Option.Rel (OrAlike ExceptionsAlike) (e.lookup "exception") (e'.lookup "exception")
  logentry : e.EqualAt e' "logentry" ∨
    (e.lookup "logentry").isSome = true ∧ (e'.lookup "logentry").isSome = true ∧
      (e.get "logger").isNull = false ∧ isOwn (e.get "logger") = false
  rest : ∀ k, k ∉ ["user", "request", "exception", "logentry"] → e.EqualAt e' k

/-- Two descriptions that differ after the first `?`. -/
inductive DescriptionAlike : Json → Json → Prop
  | equal {v w : Json} (h : v.Equal w) : DescriptionAlike v w
  | cut {s s' : String} (h : s.toList.takeWhile (· != '?') = s'.toList.takeWhile (· != '?')) :
    DescriptionAlike (.str s) (.str s')

/-- The data of two spans that differ in the dropped fields and in query and fragment of the URL. -/
structure SpanDataAlike (parse : UrlParse) (d d' : Dict) : Prop where
  url : Option.Rel (UrlAlike parse) (d.lookup "url") (d'.lookup "url")
  rest : ∀ k, k ∉ "url" :: spanDataDropped → d.EqualAt d' k

/-- Two spans with alike data and descriptions. -/
structure SpanAlike (parse : UrlParse) (s s' : Dict) : Prop where
  data : Option.Rel (OrAlike (SpanDataAlike parse)) (s.lookup "data") (s'.lookup "data")
  description : Option.Rel DescriptionAlike (s.lookup "description") (s'.lookup "description")
  rest : ∀ k, k ∉ ["data", "description"] → s.EqualAt s' k

/-- Two transactions that differ in what the filter removes. -/
structure TransactionAlike (parse : UrlParse) (e e' : Dict) : Prop where
  request : Option.Rel (OrAlike (RequestAlike parse)) (e.lookup "request") (e'.lookup "request")
  spans : Option.Rel (ListAlike (SpanAlike parse)) (e.lookup "spans") (e'.lookup "spans")
  rest : ∀ k, k ∉ ["user", "request", "spans"] → e.EqualAt e' k

variable {parse : UrlParse} {d d' e e' : Dict} {v w op op' : Json} {key : String}

/-! ## Equal dictionaries are alike -/

theorem optionRel_mono {R S : Json → Json → Prop} {x y : Option Json} (h : Option.Rel R x y)
    (hRS : ∀ v w, R v w → S v w) : Option.Rel S x y := by
  cases h with
  | none => exact .none
  | some h => exact .some (hRS _ _ h)

theorem HeadersAlike.of_equal (h : d.Equal d') : HeadersAlike d d' := ⟨fun k _ => h k⟩

theorem RequestAlike.of_equal (h : d.Equal d') : RequestAlike parse d d' where
  url := optionRel_mono (h "url") fun _ _ => .equal
  headers := optionRel_mono (h "headers") fun _ _ => .equal
  rest k _ := h k

theorem ExceptionAlike.of_equal (h : d.Equal d') : ExceptionAlike d d' where
  value := .inl (h "value")
  rest k _ := h k

theorem ExceptionsAlike.of_equal (h : d.Equal d') : ExceptionsAlike d d' where
  values := optionRel_mono (h "values") fun _ _ => .equal
  rest k _ := h k

theorem SpanDataAlike.of_equal (h : d.Equal d') : SpanDataAlike parse d d' where
  url := optionRel_mono (h "url") fun _ _ => .equal
  rest k _ := h k

theorem SpanAlike.of_equal (h : d.Equal d') : SpanAlike parse d d' where
  data := optionRel_mono (h "data") fun _ _ => .equal
  description := optionRel_mono (h "description") fun _ _ => .equal
  rest k _ := h k

/-- The two ways in which values can be alike: related dictionaries, or equal values that are no
dictionaries. -/
theorem OrAlike.cases {R : Dict → Dict → Prop} (hR : ∀ d d', Dict.Equal d d' → R d d')
    (h : OrAlike R v w) :
    (∃ a a', v = .object a ∧ w = .object a' ∧ R a a') ∨
      v.isObject = false ∧ w.isObject = false ∧ v.Equal w := by
  cases h with
  | dict h => exact .inl ⟨_, _, rfl, rfl, h⟩
  | equal h =>
    rcases h.dict_cases with ⟨a, a', hv, hw, heq⟩ | ⟨hv, hw⟩
    · exact .inl ⟨a, a', hv, hw, hR a a' heq⟩
    · exact .inr ⟨hv, hw, h⟩

/-- The same of the entries of a key. -/
theorem OrAlike.entries {R : Dict → Dict → Prop} (hR : ∀ d d', Dict.Equal d d' → R d d')
    (h : Option.Rel (OrAlike R) (d.lookup key) (d'.lookup key)) :
    (∃ a a', d.get key = .object a ∧ d'.get key = .object a' ∧ R a a') ∨
      (d.get key).isObject = false ∧ (d'.get key).isObject = false ∧ d.EqualAt d' key := by
  unfold Dict.get Dict.EqualAt
  generalize d.lookup key = x at h ⊢
  generalize d'.lookup key = y at h ⊢
  cases h with
  | none => exact .inr ⟨rfl, rfl, .none⟩
  | some h =>
    rcases h.cases hR with ⟨a, a', hv, hw, halike⟩ | ⟨hv, hw, heq⟩
    · exact .inl ⟨a, a', hv, hw, halike⟩
    · exact .inr ⟨hv, hw, .some heq⟩

/-! ## URLs -/

/-- Query and fragment do not matter to `strip_query`. -/
theorem stripQuery_twoRuns {url url' : String} {parts parts' : SplitResult}
    (h : parse.urlsplit url = some parts) (h' : parse.urlsplit url' = some parts')
    (scheme : parts.scheme = parts'.scheme) (netloc : parts.netloc = parts'.netloc)
    (path : parts.path = parts'.path) :
    TwoRuns Eq (stripQuery parse url) (stripQuery parse url') := by
  simp only [stripQuery, h, h', scheme, netloc, path]
  exact TwoRuns.refl _

/-- Two URLs to clean are strings that `strip_query` does not tell apart, or equal entries that are
no strings. -/
theorem UrlAlike.entries (h : Option.Rel (UrlAlike parse) (d.lookup "url") (d'.lookup "url")) :
    (∃ url url', d.get "url" = .str url ∧ d'.get "url" = .str url' ∧
      TwoRuns Eq (stripQuery parse url) (stripQuery parse url')) ∨
    (d.get "url").isStr = false ∧ (d'.get "url").isStr = false ∧ d.EqualAt d' "url" := by
  unfold Dict.get Dict.EqualAt
  generalize d.lookup "url" = x at h ⊢
  generalize d'.lookup "url" = y at h ⊢
  cases h with
  | none => exact .inr ⟨rfl, rfl, .none⟩
  | some h =>
    cases h with
    | split h h' scheme netloc path =>
      exact .inl ⟨_, _, rfl, rfl, stripQuery_twoRuns h h' scheme netloc path⟩
    | equal h =>
      rcases h.str_cases with ⟨url, hv, hw⟩ | ⟨hv, hw⟩
      · exact .inl ⟨url, url, hv, hw, TwoRuns.refl _⟩
      · exact .inr ⟨hv, hw, .some h⟩

/-- Two runs on alike URLs agree on whether they return, and on the URL. -/
theorem cleanUrl_twoRuns (h : Option.Rel (UrlAlike parse) (d.lookup "url") (d'.lookup "url")) :
    TwoRuns (Dict.Written ["url"] d d') (cleanUrl parse d) (cleanUrl parse d') := by
  rcases UrlAlike.entries h with ⟨url, url', hurl, hurl', hstrip⟩ | ⟨hurl, hurl', heq⟩
  · rw [cleanUrl, cleanUrl, hurl, hurl']
    refine TwoRuns.bind hstrip fun stripped stripped' hs => ?_
    subst hs
    exact Dict.Written.set "url" (.str stripped)
  · rw [cleanUrl_of_not_str hurl, cleanUrl_of_not_str hurl']
    exact TwoRuns.pure (Dict.Written.same_key heq)

/-! ## Requests -/

theorem cleanHeaders_of_not_dict (h : (d.get "headers").isObject = false) : cleanHeaders d = d := by
  unfold cleanHeaders
  split
  · next headers hh =>
    rw [hh] at h
    cases h
  · rfl

/-- Two runs on headers that differ where the filter removes them write the same. -/
theorem cleanHeaders_written
    (h : Option.Rel (OrAlike HeadersAlike) (d.lookup "headers") (d'.lookup "headers")) :
    Dict.Written ["headers"] d d' (cleanHeaders d) (cleanHeaders d') := by
  rcases OrAlike.entries (fun _ _ => HeadersAlike.of_equal) h with
    ⟨a, a', ha, ha', hkept⟩ | ⟨ha, ha', heq⟩
  · rw [cleanHeaders, cleanHeaders, ha, ha']
    refine Dict.Written.set "headers" (.object fun k => ?_)
    rw [Dict.lookup_keep, Dict.lookup_keep]
    by_cases hk : lower k ∈ keptHeaders
    · simp only [hk, decide_true, if_true]
      exact hkept.kept k hk
    · simp [hk]
  · rw [cleanHeaders_of_not_dict ha, cleanHeaders_of_not_dict ha']
    exact Dict.Written.same_key heq

/-- The request of `_clean_request`. -/
theorem request_twoRuns {r r' : Dict} (h : RequestAlike parse r r') :
    TwoRuns (fun a b => (Json.object (cleanHeaders a)).Equal (.object (cleanHeaders b)))
      (cleanUrl parse (r.popAll requestFieldsDropped))
      (cleanUrl parse (r'.popAll requestFieldsDropped)) := by
  have hpop : Dict.Written requestFieldsDropped r r' _ _ := Dict.Written.popAll _
  refine (cleanUrl_twoRuns (hpop.entry (by decide) h.url)).mono fun a b hurl => ?_
  have hwritten := hpop.trans hurl
  have hheaders := cleanHeaders_written (hwritten.entry (by decide) h.headers)
  refine .object ((hwritten.trans hheaders).done fun k hk => h.rest k fun hmem => hk ?_)
  simp only [List.mem_append, List.mem_cons, List.not_mem_nil, or_false] at hmem ⊢
  tauto

/-- Two runs on alike requests agree on whether they return, and on the request. -/
theorem cleanRequest_twoRuns (h : Option.Rel (OrAlike (RequestAlike parse)) (d.lookup "request")
    (d'.lookup "request")) :
    TwoRuns (Dict.Written ["user", "request"] d d') (cleanRequest parse d)
      (cleanRequest parse d') := by
  have huser : Dict.Written ["user"] d d' (d.pop "user") (d'.pop "user") := Dict.Written.pop _
  have hreq := huser.entry (by decide) h
  rcases OrAlike.entries (fun _ _ => RequestAlike.of_equal) hreq with
    ⟨r, r', hr, hr', halike⟩ | ⟨hr, hr', heq⟩
  · simp only [cleanRequest, hr, hr']
    refine TwoRuns.bind (request_twoRuns halike) fun a b hab => ?_
    exact TwoRuns.pure (huser.trans (Dict.Written.set "request" hab))
  · rw [cleanRequest_of_not_dict hr, cleanRequest_of_not_dict hr']
    exact TwoRuns.pure (huser.trans (Dict.Written.same_key heq))

/-! ## Lists of dictionaries -/

/-- A cleaning function raises on the strings of a string or a dictionary. -/
theorem mapM_raises {α : Type} {clean : Json → Except PyError Json} {err : PyError}
    (hstr : ∀ s, clean (.str s) = .error err) (f : α → String) {xs : List α} (hne : xs ≠ []) :
    (xs.mapM fun x => clean (.str (f x))) = .error err := by
  obtain ⟨x, xs, rfl⟩ := List.exists_cons_of_ne_nil hne
  rw [List.mapM_cons, hstr]
  rfl

/-- Equal values that are no lists go through `cleanEach` in one way. -/
theorem cleanEach_equal {R : Dict → Dict → Prop} {clean : Json → Except PyError Json}
    {err : PyError} (hclean : ∀ v w, OrAlike R v w → TwoRuns Json.Equal (clean v) (clean w))
    (hstr : ∀ s, clean (.str s) = .error err) (h : d.EqualAt d' key) :
    TwoRuns (Dict.Written [key] d d') (cleanEach key clean d) (cleanEach key clean d') := by
  have hsame := Dict.Written.same_key h
  have hget := h.get
  unfold cleanEach
  generalize d.get key = v at hget ⊢
  generalize d'.get key = w at hget ⊢
  cases hget with
  | @array xs ys hitems =>
    refine TwoRuns.bind (TwoRuns.mapM hitems fun v w hvw => hclean v w (.equal hvw)) ?_
    exact fun xs ys hxs => TwoRuns.pure (Dict.Written.set key (.array hxs))
  | @object a a' hentries =>
    by_cases ha : a = []
    · have ha' := (Equal.nil_iff hentries).1 ha
      subst ha ha'
      exact hsame
    · have ha' := fun hnil => ha ((Equal.nil_iff hentries).2 hnil)
      dsimp only
      rw [mapM_raises hstr _ ha, mapM_raises hstr _ ha']
      exact TwoRuns.error err
  | str s =>
    refine TwoRuns.bind (TwoRuns.refl _) fun _ _ _ => ?_
    exact TwoRuns.pure hsame
  | null => exact hsame
  | bool b => exact TwoRuns.ite (TwoRuns.error _) hsame
  | int n => exact TwoRuns.ite (TwoRuns.error _) hsame
  | float x => exact TwoRuns.ite (TwoRuns.error _) hsame

/-- Lists of alike items are cleaned in step. -/
theorem cleanEach_twoRuns {R : Dict → Dict → Prop} {clean : Json → Except PyError Json}
    {err : PyError} (hclean : ∀ v w, OrAlike R v w → TwoRuns Json.Equal (clean v) (clean w))
    (hstr : ∀ s, clean (.str s) = .error err)
    (h : Option.Rel (ListAlike R) (d.lookup key) (d'.lookup key)) :
    TwoRuns (Dict.Written [key] d d') (cleanEach key clean d) (cleanEach key clean d') := by
  have hentries : d.EqualAt d' key ∨ ∃ xs ys, d.get key = .array xs ∧ d'.get key = .array ys ∧
      List.Forall₂ (OrAlike R) xs ys := by
    unfold Dict.EqualAt Dict.get
    generalize d.lookup key = x at h ⊢
    generalize d'.lookup key = y at h ⊢
    cases h with
    | none => exact .inl .none
    | some h =>
      cases h with
      | equal h => exact .inl (.some h)
      | array h => exact .inr ⟨_, _, rfl, rfl, h⟩
  rcases hentries with heq | ⟨xs, ys, hxs, hys, hitems⟩
  · exact cleanEach_equal hclean hstr heq
  · simp only [cleanEach, hxs, hys]
    refine TwoRuns.bind (TwoRuns.mapM hitems hclean) fun xs ys hxys => ?_
    exact TwoRuns.pure (Dict.Written.set key (.array hxys))

/-! ## Exceptions -/

theorem isOwn_equal (h : v.Equal w) : isOwn v = isOwn w := by
  cases h <;> rfl

theorem cleanException_of_not_dict (h : v.isObject = false) :
    cleanException v = .error .attributeError := by
  cases v with
  | object value => cases h
  | _ => rfl

/-- Two runs on alike exceptions agree on whether they return, and on the exception. -/
theorem cleanException_twoRuns (h : OrAlike ExceptionAlike v w) :
    TwoRuns Json.Equal (cleanException v) (cleanException w) := by
  rcases h.cases fun _ _ => ExceptionAlike.of_equal with
    ⟨x, x', rfl, rfl, halike⟩ | ⟨hv, hw, -⟩
  · have hown : isOwn (Dict.get "module" x) = isOwn (Dict.get "module" x') :=
      isOwn_equal (halike.rest "module" (by decide)).get
    have hset : Dict.Equal (Dict.set "value" (.str redacted) x)
        (Dict.set "value" (.str redacted) x') :=
      (Dict.Written.set "value" (.str redacted)).done fun k hk =>
        halike.rest k fun hkey => hk (List.mem_singleton.2 hkey)
    unfold cleanException
    dsimp only
    rw [hown]
    rcases halike.value with heq | ⟨ht, ht', hfalse⟩
    · have hsame : Dict.Equal x x' := (Dict.Written.same_key heq).done fun k hk =>
        halike.rest k fun hkey => hk (List.mem_singleton.2 hkey)
      rw [heq.get.truthy]
      exact TwoRuns.ite (TwoRuns.pure (.object hset)) (TwoRuns.pure (.object hsame))
    · rw [ht, ht', ← hown, hfalse]
      exact TwoRuns.pure (.object hset)
  · rw [cleanException_of_not_dict hv, cleanException_of_not_dict hw]
    exact TwoRuns.error _

/-- Exceptions that are no dictionary are left, or raise. -/
theorem cleanExceptions_of_not_dict (h : (d.get "exception").isObject = false) :
    cleanExceptions d =
      if (d.get "exception").truthy then .error .attributeError else .ok d := by
  unfold cleanExceptions
  split
  · next exception he =>
    rw [he] at h
    cases h
  · rfl

/-- Two runs on alike exceptions agree on whether they return, and on them. -/
theorem cleanExceptions_twoRuns
    (h : Option.Rel (OrAlike ExceptionsAlike) (d.lookup "exception") (d'.lookup "exception")) :
    TwoRuns (Dict.Written ["exception"] d d') (cleanExceptions d) (cleanExceptions d') := by
  rcases OrAlike.entries (fun _ _ => ExceptionsAlike.of_equal) h with
    ⟨x, x', hx, hx', halike⟩ | ⟨hx, hx', heq⟩
  · simp only [cleanExceptions, hx, hx']
    refine TwoRuns.bind (cleanEach_twoRuns (fun _ _ => cleanException_twoRuns) (fun _ => rfl)
      halike.values) fun a b hab => TwoRuns.pure (Dict.Written.set "exception" (.object ?_))
    exact hab.done fun k hk => halike.rest k fun hkey => hk (List.mem_singleton.2 hkey)
  · rw [cleanExceptions_of_not_dict hx, cleanExceptions_of_not_dict hx', heq.get.truthy]
    exact TwoRuns.ite (TwoRuns.error _) (TwoRuns.pure (Dict.Written.same_key heq))

/-! ## Log entries -/

/-- Two runs on alike log entries write the same. -/
theorem cleanLogentry_written
    (h : d.EqualAt d' "logentry" ∨ (d.lookup "logentry").isSome = true ∧
      (d'.lookup "logentry").isSome = true ∧ (d.get "logger").isNull = false ∧
      isOwn (d.get "logger") = false)
    (hlogger : d.EqualAt d' "logger") :
    Dict.Written ["logentry"] d d' (cleanLogentry d) (cleanLogentry d') := by
  have hown : isOwn (d.get "logger") = isOwn (d'.get "logger") := isOwn_equal hlogger.get
  have hset : Dict.Written ["logentry"] d d' _ _ :=
    Dict.Written.set "logentry" (Equal.refl (.object [("message", .str redacted)]))
  unfold cleanLogentry
  rw [← hown, ← hlogger.get.isNull]
  rcases h with heq | ⟨hs, hs', hnamed, hother⟩
  · rw [heq.isSome]
    split
    · exact hset
    · exact Dict.Written.same_key heq
  · rw [hs, hs', hnamed, hother]
    exact hset

/-! ## Spans -/

/-- The host added comes from the cleaned URL. -/
theorem addServerAddress_twoRuns (hop : op.Equal op') (hurl : d.EqualAt d' "url")
    (haddress : d.EqualAt d' "server.address") :
    TwoRuns (Dict.Written ["server.address"] d d') (addServerAddress parse op d)
      (addServerAddress parse op' d') := by
  have hsame := Dict.Written.same_key haddress
  have hget := hurl.get
  unfold addServerAddress
  rw [hop.eqStr, haddress.get.truthy]
  refine TwoRuns.ite ?_ (TwoRuns.pure hsame)
  have hor : (if (d.get "url").truthy then d.get "url" else .str "").Equal
      (if (d'.get "url").truthy then d'.get "url" else .str "") := by
    rw [hget.truthy]
    split
    · exact hget
    · exact .str ""
  generalize (if (d.get "url").truthy then d.get "url" else .str "") = v at hor ⊢
  generalize (if (d'.get "url").truthy then d'.get "url" else .str "") = w at hor ⊢
  cases hor with
  | str url =>
    dsimp only
    cases parse.urlsplit url with
    | none => exact TwoRuns.error _
    | some parts =>
      exact TwoRuns.ite (TwoRuns.pure hsame)
        (TwoRuns.pure (Dict.Written.set "server.address" (.str _)))
  | _ => exact TwoRuns.error _

/-- A description that is no string is left alone. -/
theorem cutDescription_of_not_str (h : (d.get "description").isStr = false) :
    cutDescription d = d := by
  unfold cutDescription
  split
  · next s hs =>
    rw [hs] at h
    cases h
  · rfl

/-- What `cutDescription` leaves under the key. -/
theorem cutDescription_lookup {s : String} (h : d.get "description" = .str s) :
    (cutDescription d).lookup "description" =
      some (.str (String.ofList (s.toList.takeWhile (· != '?')))) := by
  simp only [cutDescription, h]
  split
  · rw [Dict.lookup_set, if_pos rfl]
  · next hmark =>
    have hall : s.toList.takeWhile (· != '?') = s.toList := by
      refine List.takeWhile_eq_self_iff.2 fun c hc => ?_
      rw [bne_iff_ne]
      rintro rfl
      exact hmark (List.contains_iff_mem.2 hc)
    rw [hall, String.ofList_toList]
    exact Dict.lookup_of_get h rfl

/-- It writes to no other key. -/
theorem cutDescription_frame {k : String} (hk : k ≠ "description") :
    (cutDescription d).lookup k = d.lookup k := by
  unfold cutDescription
  split
  · split
    · rw [Dict.lookup_set, if_neg hk]
    · rfl
  · rfl

/-- Two runs on alike descriptions write the same. -/
theorem cutDescription_written
    (h : Option.Rel DescriptionAlike (d.lookup "description") (d'.lookup "description")) :
    Dict.Written ["description"] d d' (cutDescription d) (cutDescription d') := by
  have hentries : (∃ s s', d.get "description" = .str s ∧ d'.get "description" = .str s' ∧
      s.toList.takeWhile (· != '?') = s'.toList.takeWhile (· != '?')) ∨
      (d.get "description").isStr = false ∧ (d'.get "description").isStr = false ∧
        d.EqualAt d' "description" := by
    unfold Dict.EqualAt Dict.get
    generalize d.lookup "description" = x at h ⊢
    generalize d'.lookup "description" = y at h ⊢
    cases h with
    | none => exact .inr ⟨rfl, rfl, .none⟩
    | some h =>
      cases h with
      | cut h => exact .inl ⟨_, _, rfl, rfl, h⟩
      | equal h =>
        rcases h.str_cases with ⟨s, hv, hw⟩ | ⟨hv, hw⟩
        · exact .inl ⟨s, s, hv, hw, rfl⟩
        · exact .inr ⟨hv, hw, .some h⟩
  rcases hentries with ⟨s, s', hs, hs', hcut⟩ | ⟨hs, hs', heq⟩
  · refine ⟨fun k hk => ?_, fun k hk => ?_⟩
    · rw [List.mem_singleton.1 hk, Dict.EqualAt, cutDescription_lookup hs,
        cutDescription_lookup hs', hcut]
      exact .some (.str _)
    · have hne : k ≠ "description" := fun hkey => hk (List.mem_singleton.2 hkey)
      exact ⟨cutDescription_frame hne, cutDescription_frame hne⟩
  · rw [cutDescription_of_not_str hs, cutDescription_of_not_str hs']
    exact Dict.Written.same_key heq

/-- Two runs on alike data of a span agree on whether they return, and on the data. -/
theorem cleanSpanData_twoRuns (hop : op.Equal op') (h : SpanDataAlike parse d d') :
    TwoRuns Dict.Equal (cleanSpanData parse op d) (cleanSpanData parse op' d') := by
  have hpop : Dict.Written spanDataDropped d d' _ _ := Dict.Written.popAll _
  refine TwoRuns.bind (cleanUrl_twoRuns (hpop.entry (by decide) h.url)) fun a b hurl => ?_
  have hwritten := hpop.trans hurl
  have haddress : a.EqualAt b "server.address" :=
    hwritten.entry (by decide) (h.rest "server.address" (by decide))
  refine (addServerAddress_twoRuns hop (hurl.equal "url" (by decide)) haddress).mono
    fun a' b' hab => ?_
  refine (hwritten.trans hab).done fun k hk => h.rest k fun hmem => hk ?_
  simp only [List.mem_append, List.mem_cons, List.not_mem_nil, or_false] at hmem ⊢
  tauto

theorem cleanSpan_of_not_dict (h : v.isObject = false) :
    cleanSpan parse v = .error .attributeError := by
  cases v with
  | object span => cases h
  | _ => rfl

/-- Two runs on alike spans agree on whether they return, and on the span. -/
theorem cleanSpan_twoRuns (h : OrAlike (SpanAlike parse) v w) :
    TwoRuns Json.Equal (cleanSpan parse v) (cleanSpan parse w) := by
  rcases h.cases fun _ _ => SpanAlike.of_equal with ⟨s, s', rfl, rfl, halike⟩ | ⟨hv, hw, -⟩
  · have hop : (Dict.get "op" s).Equal (Dict.get "op" s') := (halike.rest "op" (by decide)).get
    -- the data first, then the description
    have hcut : ∀ {a b : Dict}, Dict.Written ["data"] s s' a b →
        (Json.object (cutDescription a)).Equal (.object (cutDescription b)) := by
      intro a b hab
      have hdesc := cutDescription_written (hab.entry (by decide) halike.description)
      exact .object ((hab.trans hdesc).done fun k hk => halike.rest k hk)
    rcases OrAlike.entries (fun _ _ => SpanDataAlike.of_equal) halike.data with
      ⟨a, a', ha, ha', hdata⟩ | ⟨ha, ha', heq⟩
    · simp only [cleanSpan_object, ha, ha']
      refine TwoRuns.bind (cleanSpanData_twoRuns hop hdata) fun b b' hb => ?_
      exact TwoRuns.pure (hcut (Dict.Written.set "data" (.object hb)))
    · rw [cleanSpan_object_of_not_dict ha, cleanSpan_object_of_not_dict ha']
      exact TwoRuns.pure (hcut (Dict.Written.same_key heq))
  · rw [cleanSpan_of_not_dict hv, cleanSpan_of_not_dict hw]
    exact TwoRuns.error _

/-! ## Runs that return -/

/-- A missing list, or a list of dictionaries with a property. -/
def ListShaped (P : Dict → Prop) (v : Json) : Prop :=
  v = .null ∨ ∃ items, v = .array items ∧ ∀ item ∈ items, ∃ d, item = .object d ∧ P d

/-- An error event in the shape that the filter reads. -/
structure ErrorShaped (parse : UrlParse) (e : Dict) : Prop where
  request : RequestShaped parse e
  exception : e.get "exception" = .null ∨ ∃ x : Dict, e.get "exception" = .object x ∧
    ListShaped (fun _ => True) (x.get "values")

/-- A span in the shape that the filter reads; a missing URL counts as the empty one. -/
def SpanShaped (parse : UrlParse) (span : Dict) : Prop :=
  ∀ data : Dict, span.get "data" = .object data →
    data.get "url" = .null ∧ (parse.urlsplit "").isSome = true ∨
      ∃ url, data.get "url" = .str url ∧ parse.Splits url

/-- A transaction in the shape that the filter reads. -/
structure TransactionShaped (parse : UrlParse) (e : Dict) : Prop where
  request : RequestShaped parse e
  spans : ListShaped (SpanShaped parse) (e.get "spans")

theorem ListShaped.checked {P : Dict → Prop} (h : ListShaped P v) : ListChecked v := by
  rcases h with rfl | ⟨items, rfl, hall⟩
  · exact .inl rfl
  · refine .inr ⟨items, rfl, fun item hitem => ?_⟩
    obtain ⟨x, rfl, -⟩ := hall item hitem
    rfl

theorem ErrorShaped.returns (h : ErrorShaped parse e) :
    Returns (SentryPrivacyFilter.beforeSend parse e) := by
  have hchecked : ErrorChecked e := by
    rcases h.exception with hnull | ⟨x, hx, hvalues⟩
    · exact .inl (by rw [hnull]; rfl)
    · exact .inr ⟨x, hx, hvalues.checked⟩
  exact (SentryPrivacyFilter.beforeSend_returns hchecked).2 h.request

/-- The URLs of a span of the SDK's shape split. -/
theorem SpanShaped.splits {span : Dict} (h : SpanShaped parse span) : SpanSplits parse span := by
  intro data hdata
  rcases h data hdata with ⟨hnull, hempty⟩ | ⟨url, hurl, hsplits⟩
  · rw [hnull]
    refine ⟨?_, fun _ _ => ⟨rfl, hempty⟩⟩
    rintro _ ⟨⟩
  · obtain ⟨parts, hparts, -⟩ := id hsplits
    rw [hurl]
    refine ⟨?_, fun _ _ => hsplits⟩
    rintro _ ⟨⟩
    exact ⟨parts, hparts⟩

/-- The filter returns on transactions of the SDK's shape. -/
theorem TransactionShaped.returns (h : TransactionShaped parse e) :
    Returns (SentryPrivacyFilter.beforeSendTransaction parse e) := by
  refine (SentryPrivacyFilter.beforeSendTransaction_returns h.spans.checked).2 ⟨h.request, ?_⟩
  intro items hitems span hspan
  rcases h.spans with hnull | ⟨items', hitems', hall⟩
  · rw [hitems] at hnull
    cases hnull
  · rw [hitems] at hitems'
    cases hitems'
    obtain ⟨_, ⟨⟩, hshaped⟩ := hall _ hspan
    exact hshaped.splits

/-! ## Events -/

namespace SentryPrivacyFilter

/-- Two runs of `before_send` on alike events agree on whether they return, and on the event. -/
theorem beforeSend_twoRuns (h : ErrorAlike parse e e') :
    TwoRuns Dict.Equal (beforeSend parse e) (beforeSend parse e') := by
  refine TwoRuns.bind (cleanRequest_twoRuns h.request) fun a b hreq => ?_
  refine TwoRuns.bind (cleanExceptions_twoRuns (hreq.entry (by decide) h.exception))
    fun a' b' hexc => ?_
  have hwritten := hreq.trans hexc
  have hget : ∀ {k : String}, k ∉ ["user", "request"] ++ ["exception"] →
      a'.lookup k = e.lookup k ∧ b'.lookup k = e'.lookup k := fun hk => hwritten.frame _ hk
  have hlogger : a'.EqualAt b' "logger" :=
    hwritten.entry (by decide) (h.rest "logger" (by decide))
  have hlogentry : Dict.Written ["logentry"] a' b' (cleanLogentry a') (cleanLogentry b') := by
    refine cleanLogentry_written ?_ hlogger
    rw [Dict.EqualAt, Dict.get, (hget (by decide)).1, (hget (by decide)).2,
      (hget (by decide)).1]
    exact h.logentry
  exact TwoRuns.pure ((hwritten.trans hlogentry).done h.rest)

theorem beforeSendTransaction_twoRuns (h : TransactionAlike parse e e') :
    TwoRuns Dict.Equal (beforeSendTransaction parse e) (beforeSendTransaction parse e') := by
  refine TwoRuns.bind (cleanRequest_twoRuns h.request) fun a b hreq => ?_
  refine (cleanEach_twoRuns (fun _ _ => cleanSpan_twoRuns) (fun _ => rfl)
    (hreq.entry (by decide) h.spans)).mono fun a' b' hspans => ?_
  exact (hreq.trans hspans).done h.rest

end SentryPrivacyFilter

open SentryPrivacyFilter

/-- **The privacy filter.** Events that differ only in what it removes are sent as equal ones, or
not at all for the same exception; those in the shape it reads are sent. -/
theorem privacyFilter_unseen (parse : UrlParse) :
    (∀ e e' : Dict, ErrorAlike parse e e' →
      TwoRuns Dict.Equal (beforeSend parse e) (beforeSend parse e') ∧
      (ErrorShaped parse e → ∃ sent sent', beforeSend parse e = .ok sent ∧
        beforeSend parse e' = .ok sent' ∧ sent.Equal sent')) ∧
    ∀ e e' : Dict, TransactionAlike parse e e' →
      TwoRuns Dict.Equal (beforeSendTransaction parse e) (beforeSendTransaction parse e') ∧
      (TransactionShaped parse e → ∃ sent sent', beforeSendTransaction parse e = .ok sent ∧
        beforeSendTransaction parse e' = .ok sent' ∧ sent.Equal sent') := by
  refine ⟨fun e e' h => ⟨beforeSend_twoRuns h, fun hshape => ?_⟩,
    fun e e' h => ⟨beforeSendTransaction_twoRuns h, fun hshape => ?_⟩⟩
  · obtain ⟨sent, hsent⟩ := hshape.returns
    obtain ⟨sent', hsent', heq⟩ := (beforeSend_twoRuns h).ok hsent
    exact ⟨sent, sent', hsent, hsent', heq⟩
  · obtain ⟨sent, hsent⟩ := hshape.returns
    obtain ⟨sent', hsent', heq⟩ := (beforeSendTransaction_twoRuns h).ok hsent
    exact ⟨sent, sent', hsent, hsent', heq⟩

/-- A failed registration, with personal data in the request and in the message of the database. -/
def failedRegistration (token numero : String) : Dict :=
  [("level", .str "error"), ("user", .object [("id", .str token)]),
    ("request", .object [
      ("url", .str ("https://aeropass.test/v1/passengers?token=" ++ token)),
      ("data", .object [("numero_documento", .str numero)]),
      ("headers", .object [("Authorization", .str token), ("Content-Type", .str "text/plain")])]),
    ("exception", .object [
      ("values", .array
        [.object [("value", .str numero), ("module", .str "asyncpg.exceptions")]])])]

/-- Two failed registrations differ in what is removed. -/
theorem failedRegistration_alike {token token' numero numero' : String}
    (hurl : UrlAlike absoluteUrls (.str ("https://aeropass.test/v1/passengers?token=" ++ token))
      (.str ("https://aeropass.test/v1/passengers?token=" ++ token')))
    (hnumero : (Json.str numero).truthy = true) (hnumero' : (Json.str numero').truthy = true) :
    ErrorAlike absoluteUrls (failedRegistration token numero)
      (failedRegistration token' numero') := by
  have hheaders : HeadersAlike
      [("Authorization", .str token), ("Content-Type", .str "text/plain")]
      [("Authorization", .str token'), ("Content-Type", .str "text/plain")] := by
    refine ⟨fun k hk => .cons_of_ne ?_ (.refl _ k)⟩
    rintro rfl
    exact absurd hk (by decide +kernel)
  have hmodule : Dict.get "module" [("value", .str numero), ("module", .str "asyncpg.exceptions")] =
      .str "asyncpg.exceptions" := rfl
  have hexception : ExceptionAlike [("value", .str numero), ("module", .str "asyncpg.exceptions")]
      [("value", .str numero'), ("module", .str "asyncpg.exceptions")] :=
    ⟨.inr ⟨hnumero, hnumero', by rw [hmodule]; decide⟩, fun k hk => .cons_of_ne hk (.refl _ k)⟩
  refine ⟨.some (.dict ⟨.some hurl, .some (.dict hheaders), fun k hk => ?_⟩),
    .some (.dict ⟨.some (.array (.cons (.dict hexception) .nil)), fun k hk => ?_⟩),
    .inl .none, fun k hk => ?_⟩
  · simp only [requestFieldsDropped, List.mem_cons, not_or] at hk
    exact .cons_of_ne hk.1 (.cons_of_ne hk.2.2.1 (.cons_of_ne hk.2.1 (.refl _ k)))
  · exact .cons_of_ne hk (.refl _ k)
  · simp only [List.mem_cons, not_or] at hk
    exact .cons_self (.cons_of_ne hk.1 (.cons_of_ne hk.2.1 (.cons_of_ne hk.2.2.1 (.refl _ k))))

/-- Two failed registrations that differ in what is private are sent alike. -/
theorem privacyFilter_unseen_sample : ∃ sent sent',
    beforeSend absoluteUrls (failedRegistration "abc" "1020345678") = .ok sent ∧
    beforeSend absoluteUrls (failedRegistration "xyz" "999999") = .ok sent' ∧
    sent.Equal sent' := by
  have halike : ErrorAlike absoluteUrls (failedRegistration "abc" "1020345678")
      (failedRegistration "xyz" "999999") :=
    failedRegistration_alike (.split rfl rfl (by decide) (by decide) (by decide)) (by decide)
      (by decide)
  refine ((privacyFilter_unseen absoluteUrls).1 _ _ halike).2 ⟨?_, ?_⟩
  · intro r hr url hurl
    exact ⟨_, rfl⟩
  · refine .inr ⟨_, rfl, .inr ⟨_, rfl, fun item hitem => ?_⟩⟩
    rw [List.mem_singleton.1 hitem]
    exact ⟨_, rfl, trivial⟩

end Aeropass
