import Strij.OpenWorkflow.Lifecycle

/-! The task handler: the interpreters of its tasks, and the runner they share for embedded workflows. Calls
happen inside calls; the interpreters whose calls are under way are busy. -/
namespace Strij.OpenWorkflow

/-- An interpreter: that of a task, or that of a nested run by the number of the run. -/
inductive Party
  | task (k : ℕ)
  | nested (n : ℕ)
  deriving DecidableEq

structure HandlerSetup where
  engine : ExpressionEngine
  parse : Parser
  generateId : Option Party → ℕ → String
  taskId : ℕ → String

inductive Request
  | submit (id : String)
  | startRun (id : Option String) (definition input : String)
  deriving DecidableEq

def Event.request? : Event → Option Request
  | .submit id _ => some (.submit id)
  | .startRun id definition input => some (.startRun id definition input)
  | _ => none

namespace World
variable (w w' : World)

def since : List Event := w'.log.take (w'.log.length-w.log.length)

def requests : List Request := ((w.since w').filterMap Event.request?).reverse

def completion : Option TaskResult := (w.since w').findSome? Event.result?

end World

def toChildOutcome (result : TaskResult) : ChildOutcome :=
  if result.status = .ok then { body := result.body, status := .ok }
  else { reason := result.body, status := result.status }

def WorkflowInterpreter.outstanding (i : WorkflowInterpreter) : List String :=
  if i.state.isTerminal then [] else i.world.owners.keys

/-- An interpreter and what it was constructed with: its id, its depth, and the interpreter that its
`on_done` resumes, if it has one. -/
structure Hosted where
  interpreter : WorkflowInterpreter := .create []
  key : String := ""
  depth : ℕ := 0
  parent : Option Party := none

namespace HandlerSetup
variable (H : HandlerSetup)

def setup (p : Party) (key : String) : Setup where
  engine := H.engine
  parse := H.parse
  freshId := H.generateId (some p)
  parentId := key
  runner := true

def called (p : Party) (call : Call) (h : Hosted) (replies : List Reply) : WorkflowInterpreter :=
  { h.interpreter with world := { h.interpreter.world with script := replies } }.step
    (H.setup p h.key) call

end HandlerSetup

inductive RunnerEvent
  | started (n depth : ℕ) (definition : String)
  | refused (depth : ℕ) (definition : String)
  | onDone (p : Party)

structure Handler where
  host : Party → Hosted := fun _ => {}
  runs : AList (fun _ : String => ℕ) := ∅
  started : ℕ := 0
  generated : ℕ := 0
  log : List RunnerEvent := []

abbrev Delivery := Party × String × ChildOutcome

def outcomesFor (p : Party) (ds : List Delivery) : List (String × ChildOutcome) :=
  ds.filterMap (fun d => if d.1 = p then some d.2 else none)

def others (p : Party) (ds : List Delivery) : List Delivery := ds.filter (fun d => d.1 ≠ p)

namespace Handler
variable (H : HandlerSetup) (s : Handler)

/-- The interpreter can be called: a nested one as long as the runner holds it. -/
def Holds : Party → Prop
  | .task _ => True
  | .nested n => s.runs.lookup (s.host (.nested n)).key = some n

instance : (p : Party) → Decidable (s.Holds p)
  | .task _ => .isTrue trivial
  | .nested n => inferInstanceAs (Decidable (s.runs.lookup (s.host (.nested n)).key = some n))

def put (i : WorkflowInterpreter) (p : Party) : Handler :=
  { s with host := Function.update s.host p { s.host p with interpreter := i } }

def callbacks (result : Option TaskResult) (p : Party) : List Delivery :=
  match result, (s.host p).parent with
  | some result, some parent => [(parent,(s.host p).key,toChildOutcome result)]
  | _, _ => []

def callBack (p : Party) (ds : List Delivery) : Handler :=
  { s with log := ds.map (fun _ => .onDone p) ++ s.log }

def finish (result : Option TaskResult) : Party → Handler
  | .task _ => s
  | .nested n => if result.isSome then { s with runs := s.runs.erase (s.host (.nested n)).key } else s

/-- The key under which `Start` puts a run: the id of an awaited child, or a new one. -/
def runKey (id : Option String) : String := id.getD (H.generateId none s.generated)

def start (p : Party) (id : Option String) (definition : String) : Handler where
  host := Function.update s.host (.nested s.started)
    { key := s.runKey H id, depth := (s.host p).depth+1, parent := id.map (fun _ => p) }
  runs := s.runs.insert (s.runKey H id) s.started
  started := s.started+1
  generated := if id.isSome then s.generated else s.generated+1
  log := .started s.started ((s.host p).depth+1) definition :: s.log

def refuse (p : Party) (definition : String) : Handler :=
  { s with log := .refused ((s.host p).depth+1) definition :: s.log }

def refusal (depth : ℕ) : String :=
  "embedded workflow nesting depth " ++ toString depth ++ " exceeds the limit of " ++
    toString kDefaultEmbeddedNestingLimit

def cancelOne (p : Party) : Handler := s.put (H.called p .cancel (s.host p) []) p

/-- `Cancel` of the runner, and of the interpreter it finds. Each run is taken out before its own
children are cancelled, so the number of runs bounds the depth. -/
def cancelRun : ℕ → Handler → String → Handler
  | 0, s, _ => s
  | k+1, s, key => match s.runs.lookup key with
    | none => s
    | some n => (s.host (.nested n)).interpreter.outstanding.foldl (cancelRun k)
        ({ s with runs := s.runs.erase key }.cancelOne H (.nested n))

/-- An interpreter is cancelled: that of a task by the handler, a nested one by the runner if it is
still there. -/
def cancel : Party → Handler
  | .task k => (s.host (.task k)).interpreter.outstanding.foldl (cancelRun H s.runs.keys.length)
      (s.cancelOne H (.task k))
  | .nested n =>
    if s.Holds (.nested n) then cancelRun H s.runs.keys.length s (s.host (.nested n)).key else s

/-- What happens in one go, inside a call or on its own. -/
inductive Job
  | call (p : Party) (call : Call)
  /-- The calls that leave an interpreter, with their replies. -/
  | serve (p : Party) (requests : List (Request × Reply))
  | deliver (ds : List Delivery)

/-- A job is done while some interpreters are busy; outcomes for these are left over, and wait in their
queues. -/
inductive Does : List Party → Handler → Job → Handler → List Delivery → Prop
  | gone {busy s p call} (h : ¬ s.Holds p) : Does busy s (.call p call) s []
  /-- The interpreter runs until it suspends or completes. If it completes, `on_done` is called before
  the run is let go. -/
  | call {busy s s₁ s₂ p call i requests result outs outs'} (hidle : p ∉ busy) (hheld : s.Holds p)
      (hcall : i = H.called p call (s.host p) (requests.map Prod.snd))
      (hrequests : (s.host p).interpreter.world.requests i.world = requests.map Prod.fst)
      (hresult : result = (s.host p).interpreter.world.completion i.world)
      (hserve : Does (p :: busy) s (.serve p requests) s₁ outs)
      (hdone : Does (p :: busy) ((s₁.put i p).callBack p (s₁.callbacks result p))
        (.deliver (s₁.callbacks result p)) s₂ outs') :
      Does busy s (.call p call) (s₂.finish result p) (outs ++ others p outs')
  | served {busy s p} : Does busy s (.serve p []) s []
  | submit {busy s s₁ s₂ p id requests ds outs outs'} (hinside : Does busy s (.deliver ds) s₁ outs)
      (hrest : Does busy s₁ (.serve p requests) s₂ outs') :
      Does busy s (.serve p ((.submit id,⟨outcomesFor p outs,.ok ()⟩) :: requests)) s₂
        (others p outs ++ outs')
  | refuse {busy s s' p id definition input requests outs}
      (hdepth : kDefaultEmbeddedNestingLimit < (s.host p).depth+1)
      (hrest : Does busy (s.refuse p definition) (.serve p requests) s' outs) :
      Does busy s (.serve p ((.startRun id definition input,⟨[],.error (refusal ((s.host p).depth+1))⟩) ::
        requests)) s' outs
  | start {busy s s₁ s₂ p id definition input requests outs outs'}
      (hdepth : (s.host p).depth+1 ≤ kDefaultEmbeddedNestingLimit)
      (hinside : Does busy (s.start H p id definition)
        (.call (.nested s.started) (.start definition input)) s₁ outs)
      (hrest : Does busy s₁ (.serve p requests) s₂ outs') :
      Does busy s (.serve p ((.startRun id definition input,⟨outcomesFor p outs,.ok ()⟩) :: requests)) s₂
        (others p outs ++ outs')
  | delivered {busy s} : Does busy s (.deliver []) s []
  | queue {busy s s' p id outcome ds outs} (hbusy : p ∈ busy) (hrest : Does busy s (.deliver ds) s' outs) :
      Does busy s (.deliver ((p,id,outcome) :: ds)) s' ((p,id,outcome) :: outs)
  | pass {busy s s₁ s₂ p id outcome ds outs outs'} (hidle : p ∉ busy)
      (hcall : Does busy s (.call p (.onChildOutcome id outcome)) s₁ outs)
      (hrest : Does busy s₁ (.deliver ds) s₂ outs') :
      Does busy s (.deliver ((p,id,outcome) :: ds)) s₂ (outs ++ outs')

lemma Does.ongoing {busy : List Party} {s s₁ : Handler} {p : Party} {call : Call}
    {requests : List (Request × Reply)} {outs : List Delivery} (hidle : p ∉ busy) (hheld : s.Holds p)
    (hrequests : (s.host p).interpreter.world.requests
      (H.called p call (s.host p) (requests.map Prod.snd)).world = requests.map Prod.fst)
    (hresult : (s.host p).interpreter.world.completion
      (H.called p call (s.host p) (requests.map Prod.snd)).world = none)
    (hserve : Does H (p :: busy) s (.serve p requests) s₁ outs) :
    Does H busy s (.call p call) (s₁.put (H.called p call (s.host p) (requests.map Prod.snd)) p) outs := by
  have hcall := Does.call hidle hheld rfl hrequests hresult.symm hserve .delivered
  rw [others,List.filter_nil,List.append_nil] at hcall
  cases p <;> exact hcall

inductive Stimulus
  | start (k : ℕ) (text input : String)
  | outcome (p : Party) (id : String) (outcome : ChildOutcome)
  | cancel (p : Party)

inductive Step : Handler → Stimulus → Handler → Prop
  | start {s s' k text input outs} (h : Does H [] s (.call (.task k) (.start text input)) s' outs) :
      Step s (.start k text input) s'
  | outcome {s s' p id outcome outs} (h : Does H [] s (.call p (.onChildOutcome id outcome)) s' outs) :
      Step s (.outcome p id outcome) s'
  | cancel {s p} : Step s (.cancel p) (s.cancel H p)

def initial : Handler where
  host
    | .task k => { key := H.taskId k }
    | .nested _ => {}

/-- The handler after a sequence of stimuli, the latest first. -/
inductive Runs : List Stimulus → Handler → Prop
  | initial : Runs [] (initial H)
  | step {s s' stimulus stimuli} (h : Runs stimuli s) (hstep : Step H s stimulus s') :
      Runs (stimulus :: stimuli) s'

end Handler
end Strij.OpenWorkflow
