import Strij.OpenWorkflow.Yaml
import Strij.OpenWorkflow.Parser.Document

/-! The structural parser of documents. A decoder asks for the shape of its node, refuses the keys that it does
not know and reads the others in a fixed order. -/
namespace Strij.OpenWorkflow.Parser
open Strij.Lib YamlNode

structure ParseError where
  message : String
  deriving DecidableEq, Repr

section Helpers
variable {α : Type}

def fail (message : String) : Except ParseError α := .error ⟨message⟩

def requireMap (node : YamlNode) (what : String) : Except ParseError Unit :=
  if node.isMap then .ok () else fail (what ++ " must be a mapping")

def requireSequence (node : YamlNode) (what : String) : Except ParseError Unit :=
  if node.isSequence then .ok () else fail (what ++ " must be a sequence")

def missingKey (key what : String) : Except ParseError α :=
  fail ("missing required key '" ++ key ++ "' in " ++ what)

def requireKey (node : YamlNode) (key what : String) : Except ParseError Unit :=
  if node.has key then .ok () else missingKey key what

def rejectUnknownKeys (node : YamlNode) (allowed : List String) (what : String) : Except ParseError Unit :=
  match node.keys.find? (fun key => key ∉ allowed) with
  | none => .ok ()
  | some key => fail ("unknown key '" ++ key ++ "' in " ++ what)

def decodeRequired (decode : YamlNode → Except ParseError α) (node : YamlNode) (key what : String) :
    Except ParseError α :=
  if node.has key then decode (node.getChild key) else missingKey key what

/-- `decodeOptional`, and every `if (has(node, key))` that decodes the child. -/
def decodeOptional (decode : YamlNode → Except ParseError α) (node : YamlNode) (key : String) :
    Except ParseError (Option α) :=
  if node.has key then some <$> decode (node.getChild key) else .ok none

def asString : YamlNode → Except ParseError String
  | .null => .ok "null"
  | .scalar _ text => .ok text
  | _ => fail "bad conversion"

def asScalar (read : String → Option α) : YamlNode → Except ParseError α
  | .scalar _ text => match read text with
    | some value => .ok value
    | none => fail "bad conversion"
  | _ => fail "bad conversion"

def decodeStringList (node : YamlNode) (key : String) : Except ParseError (List String) :=
  if node.has key then do
    requireSequence (node.getChild key) key
    (node.getChild key).items.mapM asString
  else .ok []

/-- A text, or what the decoder makes of a node that is no scalar. -/
def stringOr (decode : YamlNode → Except ParseError α) (node : YamlNode) : Except ParseError (String ⊕ α) :=
  if node.isScalar then .inl <$> asString node else .inr <$> decode node

/-- The entries of a mapping, emplaced into a `std::map`. -/
def decodeNamed (decode : YamlNode → Except ParseError α) (what : String) (node : YamlNode) :
    Except ParseError (List (String × α)) := do
  requireMap node what
  node.entries.foldlM (fun out entry => do
    let value ← decode entry.2
    return Value.emplace entry.1 value out) []

def singleEntry (node : YamlNode) (what message : String) : Except ParseError (String × YamlNode) := do
  requireMap node what
  match node.entries with
  | [entry] => return entry
  | _ => fail message

def selectOne (node : YamlNode) (keys : List String) (what : String) : Except ParseError String :=
  match keys.filter node.has with
  | [] => fail ("expected exactly one " ++ what ++ " key but found none among " ++
      ", ".intercalate (keys.map fun key => "'" ++ key ++ "'"))
  | [key] => .ok key
  | first :: second :: _ =>
    fail ("keys '" ++ first ++ "' and '" ++ second ++ "' are mutually exclusive for " ++ what)

end Helpers

section Shapes
variable (yaml : Conversions)

def asInt : YamlNode → Except ParseError Int64 := asScalar yaml.int

def asBool : YamlNode → Except ParseError Bool := asScalar yaml.bool

def anyValue (node : YamlNode) : Except ParseError Value := .ok (decodeValue yaml node)

def decodeDurationUnits (node : YamlNode) : Except ParseError DurationUnits := do
  requireMap node "duration"
  rejectUnknownKeys node ["days","hours","minutes","seconds","milliseconds"] "duration"
  return {
    days := ← decodeOptional (asInt yaml) node "days"
    hours := ← decodeOptional (asInt yaml) node "hours"
    minutes := ← decodeOptional (asInt yaml) node "minutes"
    seconds := ← decodeOptional (asInt yaml) node "seconds"
    milliseconds := ← decodeOptional (asInt yaml) node "milliseconds" }

def decodeDuration (node : YamlNode) : Except ParseError Duration :=
  if node.isScalar then .inl <$> asString node
  else if node.isMap then .inr <$> decodeDurationUnits yaml node
  else fail "duration must be a string or a mapping"

def decodeOAuth2Token (node : YamlNode) : Except ParseError OAuth2Token := do
  requireMap node "oauth2 token"
  rejectUnknownKeys node ["token","type"] "oauth2 token"
  return {
    token := ← decodeRequired asString node "token" "oauth2 token"
    type := ← decodeRequired asString node "type" "oauth2 token" }

def decodeOAuth2Client (node : YamlNode) : Except ParseError OAuth2Client := do
  requireMap node "oauth2 client"
  rejectUnknownKeys node ["id","secret","assertion","authentication"] "oauth2 client"
  return {
    id := ← decodeOptional asString node "id"
    secret := ← decodeOptional asString node "secret"
    assertion := ← decodeOptional asString node "assertion"
    authentication := ← decodeOptional asString node "authentication" }

def decodeOAuth2Request (node : YamlNode) : Except ParseError OAuth2Request := do
  requireMap node "oauth2 request"
  rejectUnknownKeys node ["encoding"] "oauth2 request"
  return { encoding := ← decodeOptional asString node "encoding" }

def decodeOAuth2Endpoints (node : YamlNode) : Except ParseError OAuth2Endpoints := do
  requireMap node "oauth2 endpoints"
  rejectUnknownKeys node ["token","introspection"] "oauth2 endpoints"
  return {
    token := ← decodeOptional asString node "token"
    introspection := ← decodeOptional asString node "introspection" }

def decodeOAuth2Properties (node : YamlNode) : Except ParseError OAuth2AuthenticationProperties := do
  requireMap node "oauth2 authentication"
  rejectUnknownKeys node ["authority","grant","client","request","endpoints","issuers","scopes","audiences",
    "username","password","subject","actor"] "oauth2 authentication"
  return {
    authority := ← decodeRequired asString node "authority" "oauth2 authentication"
    grant := ← decodeRequired asString node "grant" "oauth2 authentication"
    issuers := ← decodeStringList node "issuers"
    scopes := ← decodeStringList node "scopes"
    audiences := ← decodeStringList node "audiences"
    username := ← decodeOptional asString node "username"
    password := ← decodeOptional asString node "password"
    client := ← decodeOptional decodeOAuth2Client node "client"
    request := ← decodeOptional decodeOAuth2Request node "request"
    endpoints := ← decodeOptional decodeOAuth2Endpoints node "endpoints"
    subject := ← decodeOptional decodeOAuth2Token node "subject"
    actor := ← decodeOptional decodeOAuth2Token node "actor" }

/-- A policy that is a reference to a named one, or given in place. -/
def orReference {α : Type} (what : String) (reference : String → α) (inPlace : YamlNode → Except ParseError α)
    (node : YamlNode) : Except ParseError α := do
  requireMap node what
  if node.has "use" then
    rejectUnknownKeys node ["use"] (what ++ " reference")
    reference <$> decodeRequired asString node "use" (what ++ " reference")
  else inPlace node

def decodePassword (what : String) : YamlNode → Except ParseError PasswordAuthentication :=
  orReference what (fun name => { use := some name }) fun node => do
    rejectUnknownKeys node ["username","password"] what
    return {
      username := some (← decodeRequired asString node "username" what)
      password := some (← decodeRequired asString node "password" what) }

def decodeBasicAuthentication : YamlNode → Except ParseError PasswordAuthentication :=
  decodePassword "basic authentication"

def decodeBearerAuthentication : YamlNode → Except ParseError BearerAuthentication :=
  orReference "bearer authentication" (fun name => { use := some name }) fun node => do
    rejectUnknownKeys node ["token"] "bearer authentication"
    return { token := some (← decodeRequired asString node "token" "bearer authentication") }

def decodeDigestAuthentication : YamlNode → Except ParseError PasswordAuthentication :=
  decodePassword "digest authentication"

def decodeOAuth2Authentication : YamlNode → Except ParseError OAuth2Authentication :=
  orReference "oauth2 authentication" (fun name => { use := some name }) fun node => do
    return { properties := some (← decodeOAuth2Properties node) }

def decodeOidcAuthentication : YamlNode → Except ParseError OAuth2Authentication :=
  orReference "oidc authentication" (fun name => { use := some name }) fun node => do
    return { properties := some (← decodeOAuth2Properties node) }

def authenticationSchemes : List String := ["basic","bearer","digest","oauth2","oidc"]

def decodeAuthentication (node : YamlNode) : Except ParseError Authentication := do
  requireMap node "authentication"
  if node.has "use" then
    rejectUnknownKeys node ["use"] "authentication"
    .reference <$> decodeRequired asString node "use" "authentication"
  else
    let scheme ← selectOne node authenticationSchemes "authentication scheme"
    rejectUnknownKeys node authenticationSchemes "authentication"
    let schemeNode := node.getChild scheme
    match scheme with
    | "basic" => .basic <$> decodeBasicAuthentication schemeNode
    | "bearer" => .bearer <$> decodeBearerAuthentication schemeNode
    | "digest" => .digest <$> decodeDigestAuthentication schemeNode
    | "oauth2" => .oauth2 <$> decodeOAuth2Authentication schemeNode
    | _ => .oidc <$> decodeOidcAuthentication schemeNode

def decodeEndpointObject (node : YamlNode) : Except ParseError EndpointObject := do
  requireMap node "endpoint"
  rejectUnknownKeys node ["uri","authentication"] "endpoint"
  return {
    uri := ← decodeRequired asString node "uri" "endpoint"
    authentication := ← decodeOptional decodeAuthentication node "authentication" }

def decodeEndpoint (node : YamlNode) : Except ParseError Endpoint :=
  if node.isScalar then .inl <$> asString node
  else if node.isMap then .inr <$> decodeEndpointObject node
  else fail "endpoint must be a string or a mapping"

def decodeExternalResource (node : YamlNode) : Except ParseError ExternalResource := do
  requireMap node "external resource"
  rejectUnknownKeys node ["name","endpoint"] "external resource"
  requireKey node "endpoint" "external resource"
  return {
    name := ← decodeOptional asString node "name"
    endpoint := ← decodeEndpoint (node.getChild "endpoint") }

def decodeSchema (node : YamlNode) : Except ParseError Schema := do
  requireMap node "schema"
  rejectUnknownKeys node ["format","document","resource"] "schema"
  let source ← selectOne node ["document","resource"] "schema source"
  let sourceNode := node.getChild source
  return {
    format := (← decodeOptional asString node "format").getD "json"
    source := ← match source with
      | "document" => .inl <$> anyValue yaml sourceNode
      | _ => .inr <$> decodeExternalResource sourceNode }

/-- A schema and a slot, under the key of the slot. -/
def decodeShaped (what slot : String) (node : YamlNode) : Except ParseError (Option Schema × Option Slot) := do
  requireMap node what
  rejectUnknownKeys node ["schema",slot] what
  return (← decodeOptional (decodeSchema yaml) node "schema",
    ← decodeOptional (stringOr (anyValue yaml)) node slot)

def decodeInput (node : YamlNode) : Except ParseError Input := do
  let (schema,slot) ← decodeShaped yaml "input" "from" node
  return ⟨schema,slot⟩

def decodeOutput (node : YamlNode) : Except ParseError Output := do
  let (schema,slot) ← decodeShaped yaml "output" "as" node
  return ⟨schema,slot⟩

def decodeExport (node : YamlNode) : Except ParseError Output := do
  let (schema,slot) ← decodeShaped yaml "export" "as" node
  return ⟨schema,slot⟩

def errorKeys : List String := ["type","status","instance","title","detail"]

def decodeError (node : YamlNode) : Except ParseError Error := do
  requireMap node "error"
  rejectUnknownKeys node errorKeys "error"
  return {
    type := ← decodeRequired asString node "type" "error"
    status := ← decodeRequired (asInt yaml) node "status" "error"
    instance_ := ← decodeOptional asString node "instance"
    title := ← decodeOptional asString node "title"
    detail := ← decodeOptional asString node "detail" }

def decodeErrorFilter (node : YamlNode) : Except ParseError ErrorFilter := do
  requireMap node "error filter"
  rejectUnknownKeys node errorKeys "error filter"
  return {
    type := ← decodeOptional asString node "type"
    status := ← decodeOptional (asInt yaml) node "status"
    instance_ := ← decodeOptional asString node "instance"
    title := ← decodeOptional asString node "title"
    detail := ← decodeOptional asString node "detail" }

def decodeBackoff (node : YamlNode) : Except ParseError Backoff := do
  requireMap node "retry backoff"
  let kind ← selectOne node ["constant","exponential","linear"] "retry backoff branch"
  rejectUnknownKeys node ["constant","exponential","linear"] "retry backoff"
  return { kind, parameters := decodeValue yaml (node.getChild kind) }

def decodeJitter (node : YamlNode) : Except ParseError Jitter := do
  requireMap node "retry jitter"
  rejectUnknownKeys node ["from","to"] "retry jitter"
  requireKey node "from" "retry jitter"
  requireKey node "to" "retry jitter"
  return {
    from_ := ← decodeDuration yaml (node.getChild "from")
    to_ := ← decodeDuration yaml (node.getChild "to") }

def decodeRetryAttempt (node : YamlNode) : Except ParseError RetryAttempt := do
  requireMap node "retry attempt"
  rejectUnknownKeys node ["count","duration"] "retry attempt"
  return {
    count := ← decodeOptional (asInt yaml) node "count"
    duration := ← decodeOptional (decodeDuration yaml) node "duration" }

def decodeRetryLimit (node : YamlNode) : Except ParseError RetryLimit := do
  requireMap node "retry limit"
  rejectUnknownKeys node ["attempt","duration"] "retry limit"
  return {
    attempt := ← decodeOptional (decodeRetryAttempt yaml) node "attempt"
    duration := ← decodeOptional (decodeDuration yaml) node "duration" }

def decodeRetryPolicy (node : YamlNode) : Except ParseError RetryPolicy := do
  requireMap node "retry policy"
  rejectUnknownKeys node ["when","exceptWhen","delay","backoff","limit","jitter"] "retry policy"
  return {
    when_ := ← decodeOptional asString node "when"
    exceptWhen := ← decodeOptional asString node "exceptWhen"
    delay := ← decodeOptional (decodeDuration yaml) node "delay"
    backoff := ← decodeOptional (decodeBackoff yaml) node "backoff"
    limit := ← decodeOptional (decodeRetryLimit yaml) node "limit"
    jitter := ← decodeOptional (decodeJitter yaml) node "jitter" }

def decodeCatalog (node : YamlNode) : Except ParseError Catalog := do
  requireMap node "catalog"
  rejectUnknownKeys node ["endpoint"] "catalog"
  requireKey node "endpoint" "catalog"
  return { endpoint := ← decodeEndpoint (node.getChild "endpoint") }

def decodeTimeout (node : YamlNode) : Except ParseError Timeout := do
  requireMap node "timeout"
  rejectUnknownKeys node ["after"] "timeout"
  requireKey node "after" "timeout"
  return { after := ← decodeDuration yaml (node.getChild "after") }

end Shapes

section Events
variable (yaml : Conversions)

def decodeEventProperties (node : YamlNode) : Except ParseError EventProperties := do
  requireMap node "event properties"
  rejectUnknownKeys node ["id","source","type","time","subject","datacontenttype","dataschema","data"]
    "event properties"
  return {
    id := ← decodeOptional asString node "id"
    source := ← decodeOptional asString node "source"
    type := ← decodeOptional asString node "type"
    time := ← decodeOptional asString node "time"
    subject := ← decodeOptional asString node "subject"
    datacontenttype := ← decodeOptional asString node "datacontenttype"
    dataschema := ← decodeOptional asString node "dataschema"
    data := ← decodeOptional (anyValue yaml) node "data" }

def decodeCorrelation (node : YamlNode) : Except ParseError Correlation := do
  requireMap node "correlation"
  rejectUnknownKeys node ["from","expect"] "correlation"
  return {
    from_ := ← decodeRequired asString node "from" "correlation"
    expect := ← decodeOptional asString node "expect" }

def decodeEventFilter (node : YamlNode) : Except ParseError EventFilter := do
  requireMap node "event filter"
  rejectUnknownKeys node ["with","correlate"] "event filter"
  requireKey node "with" "event filter"
  return {
    with_ := ← decodeEventProperties yaml (node.getChild "with")
    correlate := (← decodeOptional (decodeNamed decodeCorrelation "event correlation") node "correlate").getD [] }

def decodeEventFilterList (node : YamlNode) : Except ParseError (List EventFilter) := do
  requireSequence node "event list"
  node.items.mapM (decodeEventFilter yaml)

/-- `until` is allowed beside every strategy and read by `any` only. -/
def decodeEventConsumptionStrategy (node : YamlNode) : Except ParseError EventConsumptionStrategy := do
  requireMap node "event consumption strategy"
  let mode ← selectOne node ["all","any","one"] "event consumption strategy"
  rejectUnknownKeys node ["all","any","one","until"] "event consumption strategy"
  match mode with
  | "all" => return ⟨.all,← decodeEventFilterList yaml (node.getChild "all"),none⟩
  | "any" => return ⟨.any,← decodeEventFilterList yaml (node.getChild "any"),
      ← decodeOptional (anyValue yaml) node "until"⟩
  | _ => return ⟨.one,[← decodeEventFilter yaml (node.getChild "one")],none⟩

end Events

section Processes
variable (yaml : Conversions)

def decodeContainerLifetime (node : YamlNode) : Except ParseError ContainerLifetime := do
  requireMap node "container lifetime"
  rejectUnknownKeys node ["cleanup","after"] "container lifetime"
  return {
    cleanup := ← decodeRequired asString node "cleanup" "container lifetime"
    after := ← decodeOptional (decodeDuration yaml) node "after" }

def decodeContainerProcess (node : YamlNode) : Except ParseError ContainerProcess := do
  requireMap node "container process"
  rejectUnknownKeys node ["image","name","command","ports","volumes","environment","stdin","arguments",
    "lifetime","pullPolicy"] "container process"
  return {
    image := ← decodeRequired asString node "image" "container process"
    name := ← decodeOptional asString node "name"
    command := ← decodeOptional asString node "command"
    stdin := ← decodeOptional asString node "stdin"
    arguments := ← decodeStringList node "arguments"
    pullPolicy := ← decodeOptional asString node "pullPolicy"
    ports := ← decodeOptional (anyValue yaml) node "ports"
    volumes := ← decodeOptional (anyValue yaml) node "volumes"
    environment := ← decodeOptional (anyValue yaml) node "environment"
    lifetime := ← decodeOptional (decodeContainerLifetime yaml) node "lifetime" }

def decodeScriptProcess (node : YamlNode) : Except ParseError ScriptProcess := do
  requireMap node "script process"
  let source ← selectOne node ["code","resource"] "script process source"
  rejectUnknownKeys node ["language","stdin","arguments","environment","code","resource"] "script process"
  return {
    language := ← decodeRequired asString node "language" "script process"
    stdin := ← decodeOptional asString node "stdin"
    arguments := ← decodeStringList node "arguments"
    environment := ← decodeOptional (anyValue yaml) node "environment"
    source := ← match source with
      | "code" => .code <$> decodeRequired asString node "code" "script process"
      | _ => .resource <$> decodeExternalResource (node.getChild "resource") }

def decodeShellProcess (node : YamlNode) : Except ParseError ShellProcess := do
  requireMap node "shell process"
  rejectUnknownKeys node ["command","stdin","arguments","environment"] "shell process"
  return {
    command := ← decodeRequired asString node "command" "shell process"
    stdin := ← decodeOptional asString node "stdin"
    arguments := ← decodeStringList node "arguments"
    environment := ← decodeOptional (anyValue yaml) node "environment" }

def decodeWorkflowProcess (node : YamlNode) : Except ParseError WorkflowProcess := do
  requireMap node "workflow process"
  rejectUnknownKeys node ["namespace","name","version","input"] "workflow process"
  return {
    namespace_ := ← decodeRequired asString node "namespace" "workflow process"
    name := ← decodeRequired asString node "name" "workflow process"
    version := ← decodeRequired asString node "version" "workflow process"
    input := ← decodeOptional (anyValue yaml) node "input" }

end Processes

section Bodies
variable (yaml : Conversions) (tasks : YamlNode → Except ParseError Tasks)

def decodeSubscriptionIterator (node : YamlNode) : Except ParseError (SubscriptionIterator Task) := do
  requireMap node "subscription iterator"
  rejectUnknownKeys node ["item","at","do","output","export"] "subscription iterator"
  return {
    item := ← decodeOptional asString node "item"
    at_ := ← decodeOptional asString node "at"
    do_ := (← decodeOptional tasks node "do").getD []
    output := ← decodeOptional (decodeOutput yaml) node "output"
    export_ := ← decodeOptional (decodeExport yaml) node "export" }

def decodeCallBody (node : YamlNode) : Except ParseError CallBody := do
  requireKey node "call" "call task"
  return {
    call := ← decodeRequired asString node "call" "call task"
    with_ := (← decodeOptional (anyValue yaml) node "with").getD .null }

def decodeDoBody (node : YamlNode) : Except ParseError Tasks := do
  requireKey node "do" "do task"
  tasks (node.getChild "do")

def decodeEvent (node : YamlNode) : Except ParseError EventProperties := do
  requireMap node "event"
  rejectUnknownKeys node ["with"] "event"
  return (← decodeOptional (decodeEventProperties yaml) node "with").getD {}

def decodeEmitBody (node : YamlNode) : Except ParseError EventProperties := do
  requireKey node "emit" "emit task"
  let emit := node.getChild "emit"
  requireMap emit "emit task"
  rejectUnknownKeys emit ["event"] "emit task"
  requireKey emit "event" "emit task"
  decodeEvent yaml (emit.getChild "event")

def decodeForSpec (node : YamlNode) : Except ParseError ForSpec := do
  requireMap node "for"
  rejectUnknownKeys node ["each","at","in"] "for"
  requireKey node "in" "for"
  return {
    each := ← decodeOptional asString node "each"
    at_ := ← decodeOptional asString node "at"
    in_ := ← stringOr (anyValue yaml) (node.getChild "in") }

def decodeForBody (node : YamlNode) : Except ParseError (ForBody (NamedTask Task)) := do
  requireKey node "for" "for task"
  requireKey node "do" "for task"
  return {
    for_ := ← decodeForSpec yaml (node.getChild "for")
    while_ := ← decodeOptional asString node "while"
    do_ := ← tasks (node.getChild "do") }

def decodeForkBody (node : YamlNode) : Except ParseError (ForkBody (NamedTask Task)) := do
  requireKey node "fork" "fork task"
  let fork := node.getChild "fork"
  requireMap fork "fork task"
  rejectUnknownKeys fork ["branches","compete"] "fork task"
  requireKey fork "branches" "fork task"
  return {
    branches := ← tasks (fork.getChild "branches")
    compete := (← decodeOptional (asBool yaml) fork "compete").getD false }

def decodeListenBody (node : YamlNode) : Except ParseError (ListenBody Task) := do
  requireKey node "listen" "listen task"
  let listen := node.getChild "listen"
  requireMap listen "listen task"
  rejectUnknownKeys listen ["to","read"] "listen task"
  requireKey listen "to" "listen task"
  return {
    to_ := ← decodeEventConsumptionStrategy yaml (listen.getChild "to")
    read := ← decodeOptional asString listen "read"
    foreach := ← decodeOptional (decodeSubscriptionIterator yaml tasks) node "foreach" }

def decodeRaiseBody (node : YamlNode) : Except ParseError (String ⊕ Error) := do
  requireKey node "raise" "raise task"
  let raise := node.getChild "raise"
  requireMap raise "raise task"
  rejectUnknownKeys raise ["error"] "raise task"
  requireKey raise "error" "raise task"
  stringOr (decodeError yaml) (raise.getChild "error")

def decodeRunBody (node : YamlNode) : Except ParseError RunBody := do
  requireKey node "run" "run task"
  let run := node.getChild "run"
  requireMap run "run task"
  let kind ← selectOne run ["container","shell","script","workflow"] "run process kind"
  rejectUnknownKeys run ["container","shell","script","workflow","await","return"] "run task"
  let process := run.getChild kind
  return {
    await := ← decodeOptional (asBool yaml) run "await"
    return_ := ← decodeOptional asString run "return"
    process := ← match kind with
      | "container" => .container <$> decodeContainerProcess yaml process
      | "shell" => .shell <$> decodeShellProcess yaml process
      | "script" => .script <$> decodeScriptProcess yaml process
      | _ => .workflow <$> decodeWorkflowProcess yaml process }

def decodeSetBody (node : YamlNode) : Except ParseError SetBody := do
  requireKey node "set" "set task"
  return { set := ← stringOr (anyValue yaml) (node.getChild "set") }

def decodeCase (item : YamlNode) : Except ParseError NamedCase := do
  let (name,body) ← singleEntry item "switch case" "each switch case must have exactly one name"
  requireMap body "switch case"
  rejectUnknownKeys body ["when","then"] "switch case"
  return {
    name
    when_ := ← decodeOptional asString body "when"
    then_ := ← decodeOptional asString body "then" }

def decodeSwitchBody (node : YamlNode) : Except ParseError SwitchBody := do
  requireKey node "switch" "switch task"
  requireSequence (node.getChild "switch") "switch task"
  return { cases := ← (node.getChild "switch").items.mapM decodeCase }

def decodeCatchErrors (errors : YamlNode) : Except ParseError (Option ErrorFilter) := do
  requireMap errors "catch errors"
  rejectUnknownKeys errors ["with"] "catch errors"
  decodeOptional (decodeErrorFilter yaml) errors "with"

def decodeCatch (node : YamlNode) : Except ParseError (Catch Task) := do
  requireMap node "catch"
  rejectUnknownKeys node ["errors","as","when","exceptWhen","retry","do","then"] "catch"
  return {
    as_ := ← decodeOptional asString node "as"
    when_ := ← decodeOptional asString node "when"
    exceptWhen := ← decodeOptional asString node "exceptWhen"
    then_ := ← decodeOptional asString node "then"
    errors := (← decodeOptional (decodeCatchErrors yaml) node "errors").join
    retry := ← decodeOptional (stringOr (decodeRetryPolicy yaml)) node "retry"
    do_ := (← decodeOptional tasks node "do").getD [] }

def decodeTryBody (node : YamlNode) : Except ParseError (TryBody Task) := do
  requireKey node "try" "try task"
  return {
    try_ := ← tasks (node.getChild "try")
    catch_ := ← decodeOptional (decodeCatch yaml tasks) node "catch" }

def decodeWaitBody (node : YamlNode) : Except ParseError Duration := do
  requireKey node "wait" "wait task"
  decodeDuration yaml (node.getChild "wait")

end Bodies

section Union
variable (yaml : Conversions) (tasks : YamlNode → Except ParseError Tasks)

def taskKinds : List String :=
  ["call","do","emit","for","fork","listen","raise","run","set","switch","try","wait"]

def taskKeys : List String :=
  ["if","input","output","export","timeout","then","metadata","call","do","emit","for","fork","listen","raise",
    "run","set","switch","try","wait","with","foreach","while","catch"]

/-- The kinds that a task declares; the `do` beside a `for` belongs to it. -/
def declaredKinds (node : YamlNode) : List String :=
  let present := taskKinds.filter node.has
  if node.has "for" then present.filter (· ≠ "do") else present

def decodeKind (node : YamlNode) : Except ParseError String :=
  match declaredKinds node with
  | [] => fail ("task must declare exactly one task kind (call, do, emit, for, fork, listen, raise, " ++
      "run, set, switch, try, wait)")
  | [kind] => .ok kind
  | first :: second :: _ => fail ("task declares mutually exclusive kinds '" ++ first ++ "' and '" ++ second ++ "'")

def decodeBody (kind : String) (node : YamlNode) : Except ParseError (TaskBody Task) :=
  match kind with
  | "call" => .call <$> decodeCallBody yaml node
  | "do" => .do_ <$> decodeDoBody tasks node
  | "emit" => .emit <$> decodeEmitBody yaml node
  | "for" => .for_ <$> decodeForBody yaml tasks node
  | "fork" => .fork <$> decodeForkBody yaml tasks node
  | "listen" => .listen <$> decodeListenBody yaml tasks node
  | "raise" => .raise <$> decodeRaiseBody yaml node
  | "run" => .run <$> decodeRunBody yaml node
  | "set" => .set <$> decodeSetBody yaml node
  | "switch" => .switch <$> decodeSwitchBody node
  | "try" => .try_ <$> decodeTryBody yaml tasks node
  | _ => .wait <$> decodeWaitBody yaml node

def decodeTaskWith (node : YamlNode) : Except ParseError Task := do
  requireMap node "task"
  rejectUnknownKeys node taskKeys "task"
  return {
    if_ := ← decodeOptional asString node "if"
    then_ := ← decodeOptional asString node "then"
    input := ← decodeOptional (decodeInput yaml) node "input"
    output := ← decodeOptional (decodeOutput yaml) node "output"
    export_ := ← decodeOptional (decodeExport yaml) node "export"
    timeout := ← decodeOptional (stringOr (decodeTimeout yaml)) node "timeout"
    metadata := (← decodeOptional (anyValue yaml) node "metadata").getD .null
    body := ← do
      let kind ← decodeKind node
      decodeBody yaml tasks kind node }

def decodeNamedTask (task : YamlNode → Except ParseError Task) (entry : String × YamlNode) :
    Except ParseError (NamedTask Task) :=
  NamedTask.mk entry.1 <$> task entry.2

def decodeTaskItem (task : YamlNode → Except ParseError Task) (item : YamlNode) :
    Except ParseError (NamedTask Task) := do
  let entry ← singleEntry item "task collection" "each task entry must be a single-key mapping"
  decodeNamedTask task entry

def decodeTasksWith (task : YamlNode → Except ParseError Task) : YamlNode → Except ParseError Tasks
  | .sequence items => items.mapM (decodeTaskItem task)
  | .map entries => entries.mapM (decodeNamedTask task)
  | _ => fail "task collection must be a sequence or a mapping"

def decodeTasksAt : ℕ → YamlNode → Except ParseError Tasks
  | 0 => fun _ => fail "too deep"
  | n+1 => decodeTasksWith (decodeTaskWith yaml (decodeTasksAt n))

def decodeTasks (node : YamlNode) : Except ParseError Tasks := decodeTasksAt yaml (node.height+1) node

def decodeTask (node : YamlNode) : Except ParseError Task := decodeTaskWith yaml (decodeTasks yaml) node

end Union

section Whole
variable (yaml : Conversions)

def decodeExtension (node : YamlNode) : Except ParseError Extension := do
  requireMap node "extension"
  rejectUnknownKeys node ["extend","when","before","after"] "extension"
  return {
    extend := ← decodeRequired asString node "extend" "extension"
    when_ := ← decodeOptional asString node "when"
    before := (← decodeOptional (decodeTasks yaml) node "before").getD []
    after := (← decodeOptional (decodeTasks yaml) node "after").getD [] }

def decodeNamedExtension (item : YamlNode) : Except ParseError NamedExtension := do
  let entry ← singleEntry item "use.extensions" "each extension must be a single-key mapping"
  NamedExtension.mk entry.1 <$> decodeExtension yaml entry.2

def decodeExtensions (extensions : YamlNode) : Except ParseError (List NamedExtension) := do
  requireSequence extensions "use.extensions"
  extensions.items.mapM (decodeNamedExtension yaml)

def decodeUse (node : YamlNode) : Except ParseError Use := do
  requireMap node "use"
  rejectUnknownKeys node ["authentications","errors","extensions","functions","retries","secrets","timeouts",
    "catalogs"] "use"
  return {
    authentications :=
      (← decodeOptional (decodeNamed decodeAuthentication "use.authentications") node "authentications").getD []
    errors := (← decodeOptional (decodeNamed (decodeError yaml) "use.errors") node "errors").getD []
    extensions := (← decodeOptional (decodeExtensions yaml) node "extensions").getD []
    functions := (← decodeOptional (decodeNamed (decodeTask yaml) "use.functions") node "functions").getD []
    retries := (← decodeOptional (decodeNamed (decodeRetryPolicy yaml) "use.retries") node "retries").getD []
    secrets := ← decodeStringList node "secrets"
    timeouts := (← decodeOptional (decodeNamed (decodeTimeout yaml) "use.timeouts") node "timeouts").getD []
    catalogs := (← decodeOptional (decodeNamed decodeCatalog "use.catalogs") node "catalogs").getD [] }

def decodeDocumentInfo (node : YamlNode) : Except ParseError DocumentInfo := do
  requireMap node "document"
  rejectUnknownKeys node ["dsl","namespace","name","version","title","summary","tags","metadata"] "document"
  return {
    dsl := ← decodeRequired asString node "dsl" "document"
    namespace_ := ← decodeRequired asString node "namespace" "document"
    name := ← decodeRequired asString node "name" "document"
    version := ← decodeRequired asString node "version" "document"
    title := ← decodeOptional asString node "title"
    summary := ← decodeOptional asString node "summary"
    tags := (← decodeOptional (anyValue yaml) node "tags").getD .null
    metadata := (← decodeOptional (anyValue yaml) node "metadata").getD .null }

def decodeSchedule (node : YamlNode) : Except ParseError Schedule := do
  requireMap node "schedule"
  rejectUnknownKeys node ["every","cron","after","on","read"] "schedule"
  return {
    cron := ← decodeOptional asString node "cron"
    read := ← decodeOptional asString node "read"
    every := ← decodeOptional (decodeDuration yaml) node "every"
    after := ← decodeOptional (decodeDuration yaml) node "after"
    on := ← decodeOptional (decodeEventConsumptionStrategy yaml) node "on" }

def decodeEvaluate (node : YamlNode) : Except ParseError Evaluate := do
  requireMap node "evaluate"
  rejectUnknownKeys node ["language","mode"] "evaluate"
  return {
    language := ← decodeOptional asString node "language"
    mode := ← decodeOptional asString node "mode" }

def decodeDocumentImpl (node : YamlNode) : Except ParseError Document := do
  requireMap node "workflow"
  rejectUnknownKeys node ["document","input","use","do","timeout","output","schedule","evaluate"] "workflow"
  requireKey node "document" "workflow"
  requireKey node "do" "workflow"
  return {
    document := ← decodeDocumentInfo yaml (node.getChild "document")
    do_ := ← decodeTasks yaml (node.getChild "do")
    input := ← decodeOptional (decodeInput yaml) node "input"
    use := ← decodeOptional (decodeUse yaml) node "use"
    timeout := ← decodeOptional (stringOr (decodeTimeout yaml)) node "timeout"
    output := ← decodeOptional (decodeOutput yaml) node "output"
    schedule := ← decodeOptional (decodeSchedule yaml) node "schedule"
    evaluate := ← decodeOptional (decodeEvaluate) node "evaluate" }

/-- `Parse`. `load` stands for `YAML::Load`, which gives no node for a text without a document. -/
def parse (load : String → Except ParseError (Option YamlNode)) (text : String) : Except ParseError Document := do
  match ← load text with
  | none => fail "bad conversion"
  | some root => decodeDocumentImpl yaml root

end Whole
end Strij.OpenWorkflow.Parser
