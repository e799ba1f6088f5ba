import Aeropass.Lib.PyDict
import Aeropass.Lib.PyLower
import Aeropass.Observability.Catalog

/-!
# The privacy filter

`SentryPrivacyFilter` as the SDK calls it, on events, transactions, logs and metrics that are
serialised already, with the exceptions that dictionaries of another shape make it raise. What the
source changes in place is written back where it was read. `urllib.parse` is a parameter.
-/

open Json PyStr

namespace Aeropass

/-- `SplitResult`. -/
structure SplitResult where
  scheme : String
  netloc : String
  path : String
  query : String
  fragment : String
  deriving DecidableEq

/-- `urllib.parse`: `urlsplit`, `none` where it raises `ValueError`, `urlunsplit`, and the
`hostname` that a result reads from its `netloc`. -/
structure UrlParse where
  urlsplit : String → Option SplitResult
  urlunsplit : SplitResult → String
  hostname : String → Option String

/-- `REDACTED`. -/
def redacted : String := "[redactado]"

/-- `_KEPT_HEADERS`. -/
def keptHeaders : List String := ["content-type", "user-agent"]

/-- `_REQUEST_FIELDS_DROPPED`. -/
def requestFieldsDropped : List String := ["data", "cookies", "query_string", "env"]

/-- `_SPAN_DATA_DROPPED`. -/
def spanDataDropped : List String := ["http.query", "http.fragment"]

/-- `strip_query`. -/
def stripQuery (parse : UrlParse) (url : String) : Except PyError String :=
  match parse.urlsplit url with
  | none => .error .valueError
  | some parts => .ok (parse.urlunsplit { parts with query := "", fragment := "" })

/-- `_is_own`. -/
def isOwn : Json → Bool
  | .str name => "aeropass.".toList.isPrefixOf name.toList
  | _ => false

/-- `for v in d.get(key) or []: clean(v)`, where `clean` changes the items of a list in place. A
string or a dictionary there yields strings. -/
def cleanEach (key : String) (clean : Json → Except PyError Json) (d : Dict) :
    Except PyError Dict :=
  match d.get key with
  | .array items => do
    return d.set key (.array (← items.mapM clean))
  | .str s => do
    let _ ← s.toList.mapM fun c => clean (.str (String.singleton c))
    return d
  | .object entries => do
    let _ ← entries.mapM fun entry => clean (.str entry.1)
    return d
  | v => if v.truthy then .error .typeError else .ok d

/-- A `url` that is a string loses query and fragment, in the request and in the data of a span. -/
def cleanUrl (parse : UrlParse) (d : Dict) : Except PyError Dict :=
  match d.get "url" with
  | .str url => do return d.set "url" (.str (← stripQuery parse url))
  | _ => return d

/-- What `_clean_request` leaves of the headers. -/
def cleanHeaders (request : Dict) : Dict :=
  match request.get "headers" with
  | .object headers =>
    request.set "headers" (.object (Dict.keep (fun k => lower k ∈ keptHeaders) headers))
  | _ => request

/-- `_clean_request`. -/
def cleanRequest (parse : UrlParse) (event : Dict) : Except PyError Dict :=
  let event := event.pop "user"
  match event.get "request" with
  | .object request => do
    let request ← cleanUrl parse (Dict.popAll requestFieldsDropped request)
    return event.set "request" (.object (cleanHeaders request))
  | _ => return event

/-- What `_clean_exceptions` does to one of the values. -/
def cleanException : Json → Except PyError Json
  | .object value =>
    if (Dict.get "value" value).truthy && !isOwn (Dict.get "module" value) then
      .ok (.object (Dict.set "value" (.str redacted) value))
    else .ok (.object value)
  | _ => .error .attributeError

/-- `_clean_exceptions`. -/
def cleanExceptions (event : Dict) : Except PyError Dict :=
  match event.get "exception" with
  | .object exception => do
    return event.set "exception" (.object (← cleanEach "values" cleanException exception))
  | v => if v.truthy then .error .attributeError else .ok event

/-- `_clean_logentry`. -/
def cleanLogentry (event : Dict) : Dict :=
  if (event.lookup "logentry").isSome && !(event.get "logger").isNull &&
      !isOwn (event.get "logger") then
    event.set "logentry" (.object [("message", .str redacted)])
  else event

/-- The host of an outgoing call, where the integration has recorded the URL only. `urlsplit` hashes
its argument, for its cache, before it decodes it. -/
def addServerAddress (parse : UrlParse) (op : Json) (data : Dict) : Except PyError Dict :=
  if op.eqStr "http.client" && !(data.get "server.address").truthy then
    match if (data.get "url").truthy then data.get "url" else .str "" with
    | .str url =>
      match parse.urlsplit url with
      | none => .error .valueError
      | some parts =>
        let host := (parse.hostname parts.netloc).getD ""
        if host = "" then .ok data else .ok (data.set "server.address" (.str host))
    | .array _ | .object _ => .error .typeError
    | _ => .error .attributeError
  else .ok data

/-- The description up to its first `?`. -/
def cutDescription (span : Dict) : Dict :=
  match span.get "description" with
  | .str s =>
    if s.toList.contains '?' then
      span.set "description" (.str (String.ofList (s.toList.takeWhile (· != '?'))))
    else span
  | _ => span

/-- What `_clean_span` does to the data. -/
def cleanSpanData (parse : UrlParse) (op : Json) (data : Dict) : Except PyError Dict := do
  let data ← cleanUrl parse (data.popAll spanDataDropped)
  addServerAddress parse op data

/-- `_clean_span`. -/
def cleanSpan (parse : UrlParse) : Json → Except PyError Json
  | .object span =>
    match Dict.get "data" span with
    | .object data => do
      let data ← cleanSpanData parse (Dict.get "op" span) data
      return .object (cutDescription (Dict.set "data" (.object data) span))
    | _ => return .object (cutDescription span)
  | _ => .error .attributeError

/-- `_SDK_LOG_PREFIXES`. -/
def sdkLogPrefixes : List String := ["sentry.", "server.", "code.", "logger."]

/-- `_SDK_METRIC_PREFIXES`. -/
def sdkMetricPrefixes : List String := ["sentry.", "server."]

/-- `_keep`. -/
def keepAllowed (attributes : Dict) (allowed prefixes : List String) : Dict :=
  attributes.keep fun k => k ∈ allowed || prefixes.any fun start => start.toList.isPrefixOf k.toList

/-- `v or {}`. -/
def orEmpty (v : Json) : Json := if v.truthy then v else .object []

namespace SentryPrivacyFilter

/-- `before_send`. -/
def beforeSend (parse : UrlParse) (event : Dict) : Except PyError Dict := do
  let event ← cleanRequest parse event
  let event ← cleanExceptions event
  return cleanLogentry event

/-- `before_send_transaction`. -/
def beforeSendTransaction (parse : UrlParse) (event : Dict) : Except PyError Dict := do
  let event ← cleanRequest parse event
  cleanEach "spans" (cleanSpan parse) event

/-- `before_send_log`; `none` where it returns `None`. Neither strings nor lists have the methods of
a dictionary, and numbers are not searched for the event. -/
def beforeSendLog (log : Dict) : Except PyError (Option Dict) :=
  match orEmpty (log.get "attributes") with
  | .object attributes =>
    if (attributes.lookup eventAttribute).isNone && !isOwn (Dict.get "logger.name" attributes) then
      .ok none
    else
      .ok (some (log.set "attributes"
        (.object (keepAllowed attributes logAttributes sdkLogPrefixes))))
  | .str _ | .array _ => .error .attributeError
  | _ => .error .typeError

/-- `before_send_metric`; a list or a dictionary is no key. -/
def beforeSendMetric (metric : Dict) : Except PyError (Option Dict) :=
  match metricAttributes with
  | none => .error .keyError
  | some rules =>
    match (metric.lookup "name").getD (.str "") with
    | .str name =>
      match rules.lookup name with
      | none => .ok none
      | some allowed =>
        match orEmpty (metric.get "attributes") with
        | .object attributes =>
          .ok (some (metric.set "attributes"
            (.object (keepAllowed attributes allowed sdkMetricPrefixes))))
        | _ => .error .attributeError
    | .array _ | .object _ => .error .typeError
    | _ => .ok none

end SentryPrivacyFilter

end Aeropass
