import Strij.OpenWorkflow.Value

/-! Workflow documents. A task's body holds the tasks nested in it, so documents are built by levels:
a body of level `n+1` holds tasks of level `n`, and there is no body of level 0. -/
namespace Strij.OpenWorkflow

abbrev Slot := String ⊕ Value

def slotValue : Slot → Value
  | .inl text => .string text
  | .inr value => value

structure Input where
  from_ : Option Slot

structure Output where
  as_ : Option Slot

structure Export where
  as_ : Option Slot

structure CallBody where
  call : String
  with_ : Value

structure ForSpec where
  each : Option String
  at_ : Option String
  in_ : Slot

structure ForBody (τ : Type) where
  for_ : ForSpec
  while_ : Option String
  do_ : List τ

structure ForkBody (τ : Type) where
  branches : List τ
  compete : Bool

structure WorkflowProcess where
  namespace_ : String
  name : String
  input : Option Value

/-- The process of a `run` task; nothing is read of the kinds other than `workflow`. -/
inductive RunProcess
  | container
  | shell
  | script
  | workflow (process : WorkflowProcess)

structure RunBody where
  process : RunProcess
  await : Option Bool
  return_ : Option String

structure SetBody where
  set : Slot

structure NamedCase where
  name : String
  when_ : Option String
  then_ : Option String

structure SwitchBody where
  cases : List NamedCase

/-- The kind of a task. The kinds that are not supported are only told apart. -/
inductive TaskBody (τ : Type)
  | call (body : CallBody)
  | do_ (tasks : List τ)
  | emit
  | for_ (body : ForBody τ)
  | fork (body : ForkBody τ)
  | listen
  | raise
  | run (body : RunBody)
  | set (body : SetBody)
  | switch (body : SwitchBody)
  | try_
  | wait

structure Task (β : Type) where
  if_ : Option String := none
  input : Option Input := none
  output : Option Output := none
  export_ : Option Export := none
  then_ : Option String := none
  body : β

structure NamedTask (β : Type) where
  name : String
  task : Task β

def Body : ℕ → Type
  | 0 => Empty
  | n+1 => TaskBody (NamedTask (Body n))

abbrev Tasks (n : ℕ) := List (NamedTask (Body n))

structure Document (n : ℕ) where
  input : Option Input := none
  functions : List String := []
  do_ : Tasks n
  output : Option Output := none
  evaluateMode : Option String := none

abbrev AnyDocument := Σ n, Document n

namespace TaskBody
variable {τ : Type}

def nested : TaskBody τ → List τ
  | .do_ tasks => tasks
  | .for_ body => body.do_
  | .fork body => body.branches
  | _ => []

def isContainer : TaskBody τ → Bool
  | .do_ _ | .for_ _ | .fork _ => true
  | _ => false

end TaskBody

/-- What a `then` directive does next. -/
inductive FlowDirective
  | continue_
  | jump (target : ℕ)
  | exit
  | end_
  deriving DecidableEq, Repr

def resolveFlowDirective (scope : List String) (then_ : String) : Except String FlowDirective :=
  if then_ = "" ∨ then_ = "continue" then .ok .continue_
  else if then_ = "exit" then .ok .exit
  else if then_ = "end" then .ok .end_
  else match scope.findIdxs (· = then_) with
    | [] => .error ("flow directive '" ++ then_ ++ "' does not name a task in the same sequence")
    | [target] => .ok (.jump target)
    | _ => .error ("flow directive '" ++ then_ ++ "' is ambiguous in its sequence")

def EveryTask (p : {τ : Type} → Task (TaskBody τ) → Prop) : (n : ℕ) → Tasks n → Prop
  | 0, _ => True
  | n+1, tasks => ∀ t ∈ tasks, p t.task ∧ EveryTask p n (TaskBody.nested t.task.body)

def NoExport {n : ℕ} (tasks : Tasks n) : Prop := EveryTask (fun t => t.export_ = none) n tasks

end Strij.OpenWorkflow
