import Mathlib
import Strij.Config.Message
import Strij.Config.Numbers
import Strij.Lib.Checks
import Strij.Lib.Yaml

/-! Loading a config: the YAML file, the environment and the overrides are merged into a message, which is then
validated. -/
namespace Strij.Config
open Strij.Lib

/-- What the libraries decide: the conversions of floating point numbers, regular expressions (`none` for
an invalid pattern) and the bytes of a serialized message. -/
structure Library where
  stod : String → Except Failure UInt64
  stof : String → Except Failure UInt32
  doubleToString : UInt64 → String
  regexMatch : String → String → Option Bool
  serialize : String → Message → String

/-- A library for configs without floating point numbers and patterns. -/
def plainLibrary : Library where
  stod _ := .error .exception
  stof _ := .error .exception
  doubleToString _ := ""
  regexMatch _ _ := none
  serialize _ _ := ""

variable (lib : Library) (pool : Pool)

/-- The value that a text is converted to; `SetInt64` on an `int32` field and `SetString` on an enum do
not return. -/
def parseScalar (type : ScalarType) (text : String) : Except Failure ScalarValue :=
  match type with
  | .int32 => do
    let _ ← stoll text
    .error .fatal
  | .int64 => do .ok (.int64 (← stoll text))
  | .uint32 => do .ok (.uint32 (← stoull text).toUInt32)
  | .uint64 => do .ok (.uint64 (← stoull text))
  | .double => do .ok (.double (← lib.stod text))
  | .float => do .ok (.float (← lib.stof text))
  | .bool => .ok (.bool (text = "true" || text = "1" || text = "yes"))
  | .string => .ok (.string text)
  | .enum => .error .fatal

/-- A setter on a repeated field does not return either. -/
def setFieldFromString (field : FieldDescriptor) (text : String) (m : Message) : Except Failure Message :=
  match field.type with
  | .message _ => .error (.status ("Unsupported field type for CLI override: " ++ field.fullName))
  | .scalar type => do
    let value ← parseScalar lib type text
    if field.repeated then .error .fatal else .ok (m.set field.name (.scalar value))

section Yaml

def asString : YamlNode → Except Failure String
  | .scalar _ text => .ok text
  | _ => .error .exception

abbrev Merge := String → String → YamlNode → Message → Except Failure Message

def expected (path kind : String) : Failure := .status ("Field '" ++ path ++ "' expected " ++ kind)

/-- An entry of a proto map. -/
def mergeMapEntry (type : String) (entry : String × YamlNode) : Except Failure Message :=
  match (pool.descriptor type).find "key", (pool.descriptor type).find "value" with
  | some keyField, some valueField => do
    let m ← setFieldFromString lib keyField entry.1 []
    setFieldFromString lib valueField (← asString entry.2) m
  | _, _ => .error .fatal

def mergeRepeated (merge : Merge) (field : FieldDescriptor) (path : String) (value : YamlNode) (m : Message) :
    Except Failure Message :=
  match field.type, value with
  | .message type, .map entries =>
    if (pool.descriptor type).mapEntry then
      entries.foldlM (fun m entry => do
        .ok (m.addMessage field.name (← mergeMapEntry lib pool type entry))) m
    else .error (expected path "sequence")
  | .message type, .sequence items =>
    items.foldlM (fun m item => do .ok (m.addMessage field.name (← merge type path item []))) m
  | .scalar .string, .sequence items =>
    items.foldlM (fun m item => do
      .ok (m.set field.name (.scalars (m.getScalars field.name ++ [.string (← asString item)])))) m
  | .scalar _, .sequence [] => .ok m
  | .scalar _, .sequence _ =>
    .error (.status ("Repeated field '" ++ path ++ "' only supports message or string type"))
  | _, _ => .error (expected path "sequence")

def typeUrl : String := "type.googleapis.com/"

def stripTypeUrl (name : String) : String :=
  if typeUrl.toList.isPrefixOf name.toList then String.ofList (name.toList.drop typeUrl.length) else name

def assign (entries : List (String × YamlNode)) (entry : String × YamlNode) : List (String × YamlNode) :=
  if entries.any (·.1 = entry.1) then entries.map (fun e => if e.1 = entry.1 then entry else e)
  else entries ++ [entry]

/-- The concrete message is made from the other entries and packed. -/
def mergeAnyYamlField (merge : Merge) (field : FieldDescriptor) (path : String)
    (entries : List (String × YamlNode)) (m : Message) : Except Failure Message :=
  match entries.lookup "@type" with
  | none => .error (.status ("Field '" ++ path ++ "': google.protobuf.Any requires '@type' key"))
  | some node => do
    let type := stripTypeUrl (← asString node)
    if (pool type).isNone then
      .error (.status ("Field '" ++ path ++ "': unknown type '" ++ type ++ "'"))
    else
      let inner := (entries.filter (·.1 ≠ "@type")).foldl assign []
      let owned ← merge type path (.map inner) []
      .ok (m.set field.name (.message [("type_url",.scalar (.string (typeUrl ++ type))),
        ("value",.scalar (.string (lib.serialize type owned)))]))

def mergeEntry (merge : Merge) (type path : String) (m : Message) (entry : String × YamlNode) :
    Except Failure Message :=
  let path := if path = "" then entry.1 else path ++ "." ++ entry.1
  match (pool.descriptor type).find entry.1 with
  | none => .ok m
  | some field =>
    if field.repeated then mergeRepeated lib pool merge field path entry.2 m
    else match field.type with
      | .scalar _ => do setFieldFromString lib field (← asString entry.2) m
      | .message sub => match entry.2 with
        | .map entries =>
          if sub = "google.protobuf.Any" then mergeAnyYamlField lib pool merge field path entries m
          else do .ok (m.set field.name (.message (← merge sub path entry.2 (m.getMessage field.name))))
        | _ => .error (expected path "map")

/-- The loop over the entries; the elements of a sequence have no key to read. -/
def mergeYamlIntoProto : ℕ → Merge
  | 0 => fun _ _ _ _ => .error .stackOverflow
  | depth+1 => fun type path yaml m => match yaml with
    | .map entries => entries.foldlM (mergeEntry lib pool (mergeYamlIntoProto depth) type path) m
    | .sequence (_ :: _) => .error .exception
    | _ => .ok m

end Yaml

section Environment
variable (env : List (String × String))

def toUpper (text : String) : String := String.ofList (text.toList.map Char.toUpper)

/-- One element of a repeated field, with whether a variable of it was found; the first one that is adds
the element. -/
def discoverSubField (field : FieldDescriptor) (start : String) (found : Bool × Message)
    (sub : FieldDescriptor) : Except Failure (Bool × Message) :=
  match sub.type with
  | .message _ => .ok found
  | .scalar _ => match env.lookup (start ++ toUpper sub.name) with
    | none => .ok found
    | some text =>
      let items := if found.1 then found.2.getMessages field.name else found.2.getMessages field.name ++ [[]]
      do
        let last ← setFieldFromString lib sub text (items.getLastD [])
        .ok (true,found.2.set field.name (.messages (items.dropLast ++ [last])))

/-- The loop over the indices, from one on; it ends at the first index without a variable, so the
environment bounds the number of turns. -/
def discoverIndices (field : FieldDescriptor) (subFields : List FieldDescriptor) (start : String) :
    ℕ → ℕ → Message → Except Failure Message
  | 0, _, m => .ok m
  | turns+1, idx, m => do
    let (found,m) ← subFields.foldlM
      (discoverSubField lib env field (start ++ "__" ++ toString idx ++ "__")) (false,m)
    if found then discoverIndices field subFields start turns (idx+1) m else .ok m

def discoverRepeatedEnvFields (field : FieldDescriptor) (type envName : String) (m : Message) :
    Except Failure Message :=
  discoverIndices lib env field (pool.descriptor type).fields envName (env.length+1) 0 m

/-- The part of a variable's name that stands for a field. -/
def envPath (upper name : String) : String :=
  if upper = "" then toUpper name else upper ++ "_" ++ toUpper name

def discoverField (discover : String → String → Message → Except Failure Message) (envStart upper : String)
    (m : Message) (field : FieldDescriptor) : Except Failure Message :=
  let path := envPath upper field.name
  match field.type with
  | .message type =>
    if field.repeated then discoverRepeatedEnvFields lib pool env field type (envStart ++ path) m
    -- `MutableMessage` stores the message, whatever is found for it
    else do .ok (m.set field.name (.message (← discover type path (m.getMessage field.name))))
  | .scalar _ => match env.lookup (envStart ++ path) with
    | none => .ok m
    | some text => setFieldFromString lib field text m

def discoverAndApplyEnvVars (envStart : String) : ℕ → String → String → Message → Except Failure Message
  | 0, _, _, _ => .error .stackOverflow
  | depth+1, type, upper, m => (pool.descriptor type).fields.foldlM
      (discoverField lib pool env (discoverAndApplyEnvVars envStart depth) envStart upper) m

def applyEnvOverrides (depth : ℕ) (type service : String) (m : Message) : Except Failure Message :=
  discoverAndApplyEnvVars lib pool env ("STRIJ_" ++ service ++ "_") depth type "" m

end Environment

section Overrides

def applyCliOverridePath (text : String) : List String → String → Message → Except Failure Message
  | [], _, m => .ok m
  | part :: parts, type, m => match (pool.descriptor type).find part with
    | none => .ok m
    | some field => match parts, field.type with
      | [], .message _ => if field.repeated then .ok m else setFieldFromString lib field text m
      | [], .scalar _ => setFieldFromString lib field text m
      | _ :: _, .scalar _ => .ok m
      | _ :: _, .message sub =>
        if field.repeated then .error .fatal
        else do
          let inner ← applyCliOverridePath text parts sub (m.getMessage field.name)
          .ok (m.set field.name (.message inner))

/-- The path and the text of an override; one without `=` is skipped. -/
def splitOverride (override : String) : Option (List String × String) :=
  match override.toList.span (· ≠ '=') with
  | (_,[]) => none
  | (path,_ :: text) => some ((path.splitOn '.').map String.ofList,String.ofList text)

def applyCliOverride (type : String) (m : Message) (override : String) : Except Failure Message :=
  match splitOverride override with
  | none => .ok m
  | some (parts,text) => applyCliOverridePath lib pool text parts type m

def applyCliOverridesInternal (type : String) (overrides : List String) (m : Message) : Except Failure Message :=
  overrides.foldlM (applyCliOverride lib pool type) m

end Overrides

section Validation

structure FieldValueInfo where
  strVal : String
  numVal : Option UInt64 := none

/-- `GetInt64` of an `int32` field, `GetDouble` of a float and `GetString` of an enum do not return. -/
def extractFieldValue (type : ScalarType) (value : ScalarValue) : Except Failure FieldValueInfo :=
  match type, value with
  | .uint32, .uint32 v => .ok ⟨toString v.toNat,some v.toUInt64⟩
  | .uint64, .uint64 v => .ok ⟨toString v.toNat,some v⟩
  | .int64, .int64 v => .ok ⟨toString v.toInt,some v.toUInt64⟩
  | .double, .double bits => .ok ⟨lib.doubleToString bits,none⟩
  | .bool, .bool v => .ok ⟨if v then "true" else "false",none⟩
  | .string, .string v => .ok ⟨v,none⟩
  | _, _ => .error .fatal

def fieldError (path message : String) : Failure := .status ("Field '" ++ path ++ "': value " ++ message)

def checkBound (beyond : UInt64 → UInt64 → Bool) (what path : String) (info : FieldValueInfo)
    (bound : Option String) : Except Failure Unit :=
  match info.numVal, bound with
  | some value, some bound => do
    let limit ← stoull bound
    if beyond value limit then .error (fieldError path (info.strVal ++ what ++ bound)) else .ok ()
  | _, _ => .ok ()

def checkEnumValues (path : String) (info : FieldValueInfo) (values : List String) : Except Failure Unit :=
  if values ≠ [] ∧ info.strVal ∉ values then
    .error (fieldError path ("'" ++ info.strVal ++ "' not in allowed values: " ++ ", ".intercalate values))
  else .ok ()

def checkPattern (path : String) (info : FieldValueInfo) (pattern : Option String) : Except Failure Unit :=
  match pattern with
  | none => .ok ()
  | some pattern => match lib.regexMatch pattern info.strVal with
    | some false => .error (fieldError path ("'" ++ info.strVal ++ "' does not match pattern '" ++ pattern ++ "'"))
    | _ => .ok ()

def validateFieldValue (path : String) (options : FieldOptions) (info : FieldValueInfo) : Except Failure Unit := do
  checkBound (· < ·) " below minimum " path info options.rangeMin
  checkBound (· > ·) " exceeds maximum " path info options.rangeMax
  checkEnumValues path info options.enumValues
  checkPattern lib path info options.pattern

def notSet (path : String) : Failure := .status ("Required field '" ++ path ++ "' is not set")

/-- A repeated scalar field: every string of it, or its first value. -/
def validateScalars (type : ScalarType) (path : String) (options : FieldOptions) :
    List ScalarValue → Except Failure Unit
  | [] => if options.required then .error (notSet path) else .ok ()
  | values@(value :: _) =>
    if type = .string then values.forM fun value => do
      validateFieldValue lib path options (← extractFieldValue lib .string value)
    else do validateFieldValue lib path options (← extractFieldValue lib type value)

def validateScalar (type : ScalarType) (path : String) (field : FieldDescriptor) (m : Message) :
    Except Failure Unit :=
  if m.hasScalar field then match m.getScalar field.name with
    | some value => do validateFieldValue lib path field.options (← extractFieldValue lib type value)
    | none => .ok ()
  else if field.options.required then .error (notSet path) else .ok ()

def validateField (validate : String → String → Message → Except Failure Unit) (path : String) (m : Message)
    (field : FieldDescriptor) : Except Failure Unit :=
  let path := if path = "" then field.name else path ++ "." ++ field.name
  match field.type with
  | .message type =>
    if field.repeated then
      if m.getMessages field.name = [] ∧ field.options.required then .error (notSet path)
      else (m.getMessages field.name).forM (validate type path)
    else validate type path (m.getMessage field.name)
  | .scalar type =>
    if field.repeated then validateScalars lib type path field.options (m.getScalars field.name)
    else validateScalar lib type path field m

def validateMessage : ℕ → String → String → Message → Except Failure Unit
  | 0, _, _, _ => .error .stackOverflow
  | depth+1, type, path, m => (pool.descriptor type).fields.forM (validateField lib (validateMessage depth) path m)

end Validation

inductive ConfigFile
  | absent
  | unparsable (message : String)
  | yaml (root : YamlNode)

structure Sources where
  path : String := ""
  file : ConfigFile := .absent
  env : List (String × String) := []
  overrides : List String := []

/-- The message type of a config, and what stands for it in the names of variables. -/
structure Service where
  type : String
  name : String

section Load
variable (depth : ℕ) (service : Service) (sources : Sources)

def mergeFile : Except Failure Message :=
  match sources.file with
  | .absent => .ok []
  | .unparsable message => .error (.status message)
  | .yaml (.map entries) => mergeYamlIntoProto lib pool depth service.type "" (.map entries) []
  | .yaml _ => .error (.status ("Config file '" ++ sources.path ++ "' must be a YAML map"))

def mergeSources : Except Failure Message := do
  let m ← mergeFile lib pool depth service sources
  let m ← applyEnvOverrides lib pool sources.env depth service.type service.name m
  applyCliOverridesInternal lib pool service.type sources.overrides m

def loadConfig : Except Failure Message := do
  let m ← mergeSources lib pool depth service sources
  validateMessage lib pool depth service.type "" m
  .ok m

end Load
end Strij.Config
