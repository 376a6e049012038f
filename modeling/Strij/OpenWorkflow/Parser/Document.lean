import Strij.OpenWorkflow.Document

/-! The documents that the parser returns, with every field of the DSL. A `std::map` is listed by
ascending key. -/
namespace Strij.OpenWorkflow.Parser

structure DurationUnits where
  days : Option Int64
  hours : Option Int64
  minutes : Option Int64
  seconds : Option Int64
  milliseconds : Option Int64

abbrev Duration := String ⊕ DurationUnits

structure OAuth2Token where
  token : String
  type : String

structure OAuth2Client where
  id : Option String
  secret : Option String
  assertion : Option String
  authentication : Option String

structure OAuth2Request where
  encoding : Option String

structure OAuth2Endpoints where
  token : Option String
  introspection : Option String

structure OAuth2AuthenticationProperties where
  authority : String
  grant : String
  client : Option OAuth2Client
  request : Option OAuth2Request
  endpoints : Option OAuth2Endpoints
  issuers : List String
  scopes : List String
  audiences : List String
  username : Option String
  password : Option String
  subject : Option OAuth2Token
  actor : Option OAuth2Token

structure PasswordAuthentication where
  username : Option String := none
  password : Option String := none
  use : Option String := none

structure BearerAuthentication where
  token : Option String := none
  use : Option String := none

structure OAuth2Authentication where
  properties : Option OAuth2AuthenticationProperties := none
  use : Option String := none

inductive Authentication
  | reference (use : String)
  | basic (scheme : PasswordAuthentication)
  | bearer (scheme : BearerAuthentication)
  | digest (scheme : PasswordAuthentication)
  | oauth2 (scheme : OAuth2Authentication)
  | oidc (scheme : OAuth2Authentication)

structure EndpointObject where
  uri : String
  authentication : Option Authentication

abbrev Endpoint := String ⊕ EndpointObject

structure ExternalResource where
  name : Option String
  endpoint : Endpoint

structure Schema where
  format : String
  source : Value ⊕ ExternalResource

structure Input where
  schema : Option Schema
  from_ : Option Slot

structure Output where
  schema : Option Schema
  as_ : Option Slot

structure Error where
  type : String
  status : Int64
  instance_ : Option String
  title : Option String
  detail : Option String

structure ErrorFilter where
  type : Option String
  status : Option Int64
  instance_ : Option String
  title : Option String
  detail : Option String

structure Backoff where
  kind : String
  parameters : Value

structure Jitter where
  from_ : Duration
  to_ : Duration

structure RetryAttempt where
  count : Option Int64
  duration : Option Duration

structure RetryLimit where
  attempt : Option RetryAttempt
  duration : Option Duration

structure RetryPolicy where
  when_ : Option String
  exceptWhen : Option String
  delay : Option Duration
  backoff : Option Backoff
  limit : Option RetryLimit
  jitter : Option Jitter

structure Catalog where
  endpoint : Endpoint

structure Timeout where
  after : Duration

structure EventProperties where
  id : Option String := none
  source : Option String := none
  type : Option String := none
  time : Option String := none
  subject : Option String := none
  datacontenttype : Option String := none
  dataschema : Option String := none
  data : Option Value := none

structure Correlation where
  from_ : String
  expect : Option String

structure EventFilter where
  with_ : EventProperties
  correlate : List (String × Correlation)

inductive EventMode
  | all
  | any
  | one
  deriving DecidableEq, Repr

structure EventConsumptionStrategy where
  mode : EventMode
  filters : List EventFilter
  until_ : Option Value

structure ContainerLifetime where
  cleanup : String
  after : Option Duration

structure ContainerProcess where
  image : String
  name : Option String
  command : Option String
  ports : Option Value
  volumes : Option Value
  environment : Option Value
  stdin : Option String
  arguments : List String
  lifetime : Option ContainerLifetime
  pullPolicy : Option String

inductive ScriptSource
  | code (code : String)
  | resource (source : ExternalResource)

structure ScriptProcess where
  language : String
  stdin : Option String
  arguments : List String
  environment : Option Value
  source : ScriptSource

structure ShellProcess where
  command : String
  stdin : Option String
  arguments : List String
  environment : Option Value

structure WorkflowProcess where
  namespace_ : String
  name : String
  version : String
  input : Option Value

inductive RunProcess
  | container (process : ContainerProcess)
  | shell (process : ShellProcess)
  | script (process : ScriptProcess)
  | workflow (process : WorkflowProcess)

structure RunBody where
  process : RunProcess
  await : Option Bool
  return_ : Option String

structure NamedTask (τ : Type) where
  name : String
  task : τ

structure SubscriptionIterator (τ : Type) where
  item : Option String
  at_ : Option String
  do_ : List (NamedTask τ)
  output : Option Output
  export_ : Option Output

structure ListenBody (τ : Type) where
  to_ : EventConsumptionStrategy
  read : Option String
  foreach : Option (SubscriptionIterator τ)

structure Catch (τ : Type) where
  errors : Option ErrorFilter
  as_ : Option String
  when_ : Option String
  exceptWhen : Option String
  retry : Option (String ⊕ RetryPolicy)
  do_ : List (NamedTask τ)
  then_ : Option String

structure TryBody (τ : Type) where
  try_ : List (NamedTask τ)
  catch_ : Option (Catch τ)

inductive TaskBody (τ : Type)
  | call (body : CallBody)
  | do_ (tasks : List (NamedTask τ))
  | emit (with_ : EventProperties)
  | for_ (body : ForBody (NamedTask τ))
  | fork (body : ForkBody (NamedTask τ))
  | listen (body : ListenBody τ)
  | raise (error : String ⊕ Error)
  | run (body : RunBody)
  | set (body : SetBody)
  | switch (body : SwitchBody)
  | try_ (body : TryBody τ)
  | wait (wait : Duration)

structure Task where
  if_ : Option String
  input : Option Input
  output : Option Output
  export_ : Option Output
  timeout : Option (String ⊕ Timeout)
  then_ : Option String
  metadata : Value
  body : TaskBody Task

abbrev Tasks := List (NamedTask Task)

structure Extension where
  extend : String
  when_ : Option String
  before : Tasks
  after : Tasks

structure NamedExtension where
  name : String
  extension : Extension

structure Use where
  authentications : List (String × Authentication)
  errors : List (String × Error)
  extensions : List NamedExtension
  functions : List (String × Task)
  retries : List (String × RetryPolicy)
  secrets : List String
  timeouts : List (String × Timeout)
  catalogs : List (String × Catalog)

structure DocumentInfo where
  dsl : String
  namespace_ : String
  name : String
  version : String
  title : Option String
  summary : Option String
  tags : Value
  metadata : Value

structure Schedule where
  every : Option Duration
  cron : Option String
  after : Option Duration
  on : Option EventConsumptionStrategy
  read : Option String

structure Evaluate where
  language : Option String
  mode : Option String

structure Document where
  document : DocumentInfo
  input : Option Input
  use : Option Use
  do_ : Tasks
  timeout : Option (String ⊕ Timeout)
  output : Option Output
  schedule : Option Schedule
  evaluate : Option Evaluate

end Strij.OpenWorkflow.Parser
