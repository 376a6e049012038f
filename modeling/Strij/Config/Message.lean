import Mathlib.Data.List.Basic
import Mathlib.Data.List.Nodup

/-! Protobuf messages as the reflection interface shows them: a descriptor pool, whose types may refer to
each other in any way, and messages in which a field that was never touched is absent. -/
namespace Strij.Config

inductive ScalarType
  | int32 | int64 | uint32 | uint64 | double | float | bool | string | enum
  deriving DecidableEq, Repr

inductive FieldType
  | scalar (type : ScalarType)
  | message (type : String)
  deriving DecidableEq, Repr

structure FieldOptions where
  required : Bool := false
  rangeMin : Option String := none
  rangeMax : Option String := none
  enumValues : List String := []
  pattern : Option String := none

structure FieldDescriptor where
  name : String
  fullName : String
  type : FieldType
  repeated : Bool := false
  /-- Declared `optional`, so that a scalar that was set to its default is present. -/
  optional : Bool := false
  options : FieldOptions := {}

structure Descriptor where
  fields : List FieldDescriptor := []
  mapEntry : Bool := false
  distinct : (fields.map FieldDescriptor.name).Nodup := by decide

def Descriptor.find (d : Descriptor) (name : String) : Option FieldDescriptor :=
  d.fields.find? (·.name = name)

abbrev Pool := String → Option Descriptor

def Pool.descriptor (pool : Pool) (type : String) : Descriptor := (pool type).getD {}

/-- A stored scalar; doubles and floats by their bits. -/
inductive ScalarValue
  | int64 (value : Int64)
  | uint32 (value : UInt32)
  | uint64 (value : UInt64)
  | double (bits : UInt64)
  | float (bits : UInt32)
  | bool (value : Bool)
  | string (value : String)
  deriving DecidableEq, Repr

def ScalarValue.isDefault : ScalarValue → Bool
  | .int64 value => value = 0
  | .uint32 value => value = 0
  | .uint64 value => value = 0
  | .double bits => bits = 0
  | .float bits => bits = 0
  | .bool value => !value
  | .string value => value = ""

/-- What is stored for a field; a message is the list of its stored fields. -/
inductive FieldState
  | scalar (value : ScalarValue)
  | scalars (values : List ScalarValue)
  | message (fields : List (String × FieldState))
  | messages (items : List (List (String × FieldState)))

abbrev Message := List (String × FieldState)

namespace Message
variable {m : Message} {name k : String} {state : FieldState}

def get (m : Message) (name : String) : Option FieldState := m.lookup name

def set (name : String) (state : FieldState) : Message → Message
  | [] => [(name,state)]
  | (k,s) :: rest => if k = name then (k,state) :: rest else (k,s) :: set name state rest

/-- `GetMessage`: an absent message reads as the empty one. -/
def getMessage (m : Message) (name : String) : Message :=
  match m.get name with
  | some (.message sub) => sub
  | _ => []

def getMessages (m : Message) (name : String) : List Message :=
  match m.get name with
  | some (.messages items) => items
  | _ => []

def getScalars (m : Message) (name : String) : List ScalarValue :=
  match m.get name with
  | some (.scalars values) => values
  | _ => []

def getScalar (m : Message) (name : String) : Option ScalarValue :=
  match m.get name with
  | some (.scalar value) => some value
  | _ => none

def addMessage (m : Message) (name : String) (sub : Message) : Message :=
  m.set name (.messages (m.getMessages name ++ [sub]))

def hasScalar (m : Message) (field : FieldDescriptor) : Bool :=
  match m.getScalar field.name with
  | some value => field.optional || !value.isDefault
  | none => false

lemma get_set_self : (m.set name state).get name = some state := by
  induction m with
  | nil => simp [set,get]
  | cons entry rest ih =>
    obtain ⟨k,s⟩ := entry
    rw [set]
    split
    · next h => simp [get,h]
    · next h =>
      rw [get,List.lookup_cons,beq_false_of_ne (Ne.symm h)]
      exact ih

lemma get_set_ne (h : k ≠ name) : (m.set name state).get k = m.get k := by
  induction m with
  | nil => simp [set,get,h]
  | cons entry rest ih =>
    obtain ⟨j,s⟩ := entry
    rw [set]
    split
    · next heq =>
      subst heq
      rw [get,get,List.lookup_cons,List.lookup_cons,beq_false_of_ne h]
    · rw [get,get,List.lookup_cons,List.lookup_cons]
      cases k == j
      · exact ih
      · rfl

lemma set_get (h : m.get name = some state) : m.set name state = m := by
  induction m with
  | nil => cases h
  | cons entry rest ih =>
    obtain ⟨k,s⟩ := entry
    rw [get,List.lookup_cons] at h
    rw [set]
    by_cases heq : k = name
    · subst heq
      rw [if_pos rfl]
      simp at h
      rw [h]
    · rw [if_neg heq]
      rw [beq_false_of_ne (Ne.symm heq)] at h
      rw [ih h]

lemma getMessage_set_self {sub : Message} : (m.set name (.message sub)).getMessage name = sub := by
  rw [getMessage,get_set_self]

end Message

section GatewayConfig

def scalarField (type name : String) (t : ScalarType) (options : FieldOptions := {}) : FieldDescriptor where
  name := name
  fullName := type ++ "." ++ name
  type := .scalar t
  options := options

def messageField (type name sub : String) : FieldDescriptor where
  name := name
  fullName := type ++ "." ++ name
  type := .message sub

def gatewayPool : Pool
  | "strij.config.GatewayConfig" => some {
      fields := [messageField "strij.config.GatewayConfig" "http_listener" "strij.config.HttpListener",
        { messageField "strij.config.GatewayConfig" "node_connections" "strij.config.NodeConnection" with
          repeated := true },
        messageField "strij.config.GatewayConfig" "logging" "strij.config.Logging",
        messageField "strij.config.GatewayConfig" "node_discovery" "strij.config.ExtensionConfig",
        { messageField "strij.config.GatewayConfig" "schedulers" "strij.config.SchedulerConfig" with
          repeated := true, options := { required := true } }] }
  | "strij.config.HttpListener" => some {
      fields := [scalarField "strij.config.HttpListener" "address" .string,
        scalarField "strij.config.HttpListener" "port" .uint32
          { required := true, rangeMin := some "1", rangeMax := some "65535" }] }
  | "strij.config.NodeConnection" => some {
      fields := [scalarField "strij.config.NodeConnection" "address" .string
        { required := true, pattern := some "^[^:]+:\\d+$" }] }
  | "strij.config.Logging" => some {
      fields := [scalarField "strij.config.Logging" "level" .string
          { enumValues := ["trace","debug","info","warn","error"] },
        scalarField "strij.config.Logging" "format" .string { enumValues := ["text","json"] },
        scalarField "strij.config.Logging" "output" .string { enumValues := ["stdout","stderr"] },
        scalarField "strij.config.Logging" "include_source_location" .bool] }
  | "strij.config.SchedulerConfig" => some {
      fields := [messageField "strij.config.SchedulerConfig" "extension" "strij.config.ExtensionConfig",
        scalarField "strij.config.SchedulerConfig" "task_type" .string] }
  | "strij.config.ExtensionConfig" => some {
      fields := [scalarField "strij.config.ExtensionConfig" "name" .string,
        messageField "strij.config.ExtensionConfig" "typed_config" "google.protobuf.Any"] }
  | "google.protobuf.Any" => some {
      fields := [scalarField "google.protobuf.Any" "type_url" .string,
        scalarField "google.protobuf.Any" "value" .string] }
  | _ => none

end GatewayConfig
end Strij.Config
