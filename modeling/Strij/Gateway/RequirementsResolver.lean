import Strij.Config.Numbers
import Strij.Lib.FiniteMap
import Strij.NodeAgent.AdmissionController

/-! The task that the HTTP handler builds from a request, and the requirements it reads off the request's headers. -/
namespace Strij.Gateway
open Strij.Lib Strij.Config
open Strij.NodeAgent (ResourceRequirements assignResource mem_foldl_assignResource)
variable {walk : AList (fun _ : String => String) → List (String × String)} {request : HttpRequest} {key pool value : String}

def stripStart (start text : String) : Option String :=
  (start.toList.isPrefixOf? text.toList).map String.ofList

lemma stripStart_eq_some {start text rest : String} : stripStart start text = some rest ↔ text = start ++ rest := by
  simp only [stripStart,Option.map_eq_some_iff,List.isPrefixOf?_eq_some_iff_append_eq]
  constructor
  · rintro ⟨chars,heq,rfl⟩
    rw [← String.toList_inj,String.toList_append,String.toList_ofList,heq]
  · rintro rfl
    exact ⟨rest.toList,String.toList_append.symm,String.ofList_toList⟩

structure HttpRequest where
  path : String
  body : String
  headers : List (String × String)

structure HttpTask where
  id : String
  type : String
  body : String
  parameters : AList (fun _ : String => String)
  requirements : ResourceRequirements

/-- `ParseTaskType`: what stands between `/tasks/` and the query. -/
def parseTaskType (path : String) : Option String :=
  (stripStart "/tasks/" path).map (fun type => String.ofList (type.toList.takeWhile (· ≠ '?')))

/-- `PopulateParametersFromHeaders`: names are compared in lower case, and a later header overwrites. -/
def populateParametersFromHeaders (headers : List (String × String)) : AList (fun _ : String => String) :=
  headers.foldl (fun parameters (name,value) =>
    match stripStart "x-strij-" (String.ofList (name.toList.map Char.toLower)) with
    | none => parameters
    | some key => if key = "" then parameters else parameters.insert key value) ∅

/-- The pool that a parameter names, `resources.` being tried before `resources-`. -/
def poolOf (key : String) : Option String :=
  ((stripStart "resources." key).or (stripStart "resources-" key)).filter (· ≠ "")

lemma poolOf_eq_some :
    poolOf key = some pool ↔ pool ≠ "" ∧ (key = "resources." ++ pool ∨ key = "resources-" ++ pool) := by
  rw [poolOf,Option.filter_eq_some_iff,Option.or_eq_some_iff,stripStart_eq_some,stripStart_eq_some,decide_eq_true_eq,and_comm]
  refine and_congr_right fun _ => or_congr_right ⟨fun h => h.2,fun h => ⟨?_,h⟩⟩
  -- A text that starts with one of the two does not start with the other.
  rw [Option.eq_none_iff_forall_ne_some]
  intro rest hrest
  rw [stripStart_eq_some,h] at hrest
  have hchars := congrArg String.toList hrest
  rw [String.toList_append,String.toList_append] at hchars
  simp at hchars

/-- What one parameter assigns: nothing when it names no pool or `std::stoull` throws. -/
def amountOf (parameter : String × String) : Option (String × UInt64) :=
  match poolOf parameter.1 with
  | none => none
  | some pool =>
    match stoull parameter.2 with
    | .ok amount => some (pool,amount)
    | .error _ => none

/-- `ParamsOnlyRequirementsResolver::Resolve`, the parameters in the order in which the map is walked. -/
def resolve (parameters : List (String × String)) : ResourceRequirements :=
  parameters.foldl (fun requirements parameter =>
    match amountOf parameter with
    | none => requirements
    | some (pool,amount) => assignResource requirements pool amount) ⟨[],List.nodup_nil⟩

def pairs (m : AList (fun _ : String => String)) : List (String × String) := m.entries.map (fun x => (x.1,x.2))

lemma mem_pairs {m : AList (fun _ : String => String)} :
    (key,value) ∈ pairs m ↔ m.lookup key = some value := by
  rw [← Option.mem_def,AList.mem_lookup_iff,pairs,List.mem_map]
  constructor
  · rintro ⟨x,hx,heq⟩
    cases heq
    exact hx
  · exact fun h => ⟨_,h,rfl⟩

/-- `GatewayHttpHandler::HandleMessage` up to the scheduler: the task, or the status and reason of the answer. -/
def handleMessage (walk : AList (fun _ : String => String) → List (String × String)) (taskId : String)
    (request : HttpRequest) : Except (ℕ × String) HttpTask :=
  match parseTaskType request.path with
  | none => .error (404,"Not Found")
  | some type =>
    if type = "" then .error (400,"Bad Request")
    else
      let parameters := populateParametersFromHeaders request.headers
      .ok ⟨taskId,type,request.body,parameters,resolve (walk parameters)⟩

structure PlainAmounts (parameters : List (String × String)) : Prop where
  whole : ∀ p ∈ parameters, (amountOf p).isSome = true → p.2.toList.all Char.isDigit = true
  agree : ∀ p ∈ parameters, ∀ q ∈ parameters, ∀ a ∈ amountOf p, ∀ b ∈ amountOf q, a.1 = b.1 → a.2 = b.2

lemma amountOf_eq_some {v : UInt64} :
    amountOf (key,value) = some (pool,v) ↔ poolOf key = some pool ∧ stoull value = .ok v := by
  rw [amountOf]
  cases poolOf key with
  | none => simp
  | some found =>
    cases stoull value with
    | error e => simp
    | ok amount => simp

lemma resolve_eq (parameters : List (String × String)) : resolve parameters =
      (parameters.filterMap amountOf).foldl (fun r x => assignResource r x.1 x.2) ⟨[],List.nodup_nil⟩ := by
  rw [resolve,List.foldl_filterMap]
  congr
  funext requirements parameter
  cases amountOf parameter with
  | none => rfl
  | some x => rfl

section Amounts
variable {parameters order : List (String × String)}

lemma PlainAmounts.of_perm (h : PlainAmounts parameters) (horder : order.Perm parameters) :
    PlainAmounts order where
  whole p hp := h.whole p (horder.mem_iff.mp hp)
  agree p hp q hq := h.agree p (horder.mem_iff.mp hp) q (horder.mem_iff.mp hq)

lemma PlainAmounts.mem_resolve (h : PlainAmounts parameters) (pool : String) (v : UInt64) :
    (pool,v) ∈ (resolve parameters).resources ↔
      ∃ key text, (key,text) ∈ parameters ∧ poolOf key = some pool ∧ IsNumeral text v.toNat := by
  have hagree : ∀ x ∈ parameters.filterMap amountOf, ∀ y ∈ parameters.filterMap amountOf,
      x.1 = y.1 → x.2 = y.2 := by
    intro x hx y hy
    obtain ⟨p,hp,hpx⟩ := List.mem_filterMap.mp hx
    obtain ⟨q,hq,hqy⟩ := List.mem_filterMap.mp hy
    exact h.agree p hp q hq x hpx y hqy
  rw [resolve_eq,mem_foldl_assignResource hagree,List.mem_filterMap]
  simp only [List.not_mem_nil,and_false,or_false]
  constructor
  · rintro ⟨⟨key,text⟩,hmem,hamount⟩
    obtain ⟨hpool,hread⟩ := amountOf_eq_some.mp hamount
    have hdigits : text.toList.all Char.isDigit = true := h.whole _ hmem (by rw [hamount]; rfl)
    exact ⟨key,text,hmem,hpool,(stoull_digits hdigits).mp hread⟩
  · rintro ⟨key,text,hmem,hpool,hnumeral⟩
    exact ⟨(key,text),hmem,amountOf_eq_some.mpr ⟨hpool,(stoull_digits hnumeral.digits).mpr hnumeral⟩⟩

lemma PlainAmounts.mem_resolve_walk {m : AList (fun _ : String => String)} (h : PlainAmounts (pairs m))
    (horder : order.Perm (pairs m)) (pool : String) (v : UInt64) :
    (pool,v) ∈ (resolve order).resources ↔ pool ≠ "" ∧ ∃ text,
      (m.lookup ("resources." ++ pool) = some text ∨ m.lookup ("resources-" ++ pool) = some text) ∧
        IsNumeral text v.toNat := by
  rw [(h.of_perm horder).mem_resolve]
  simp only [horder.mem_iff,mem_pairs,poolOf_eq_some]
  constructor
  · rintro ⟨key,text,htext,⟨hpool,hkey | hkey⟩,hnumeral⟩
    · exact ⟨hpool,text,.inl (hkey ▸ htext),hnumeral⟩
    · exact ⟨hpool,text,.inr (hkey ▸ htext),hnumeral⟩
  · rintro ⟨hpool,text,htext | htext,hnumeral⟩
    · exact ⟨_,text,htext,⟨hpool,.inl rfl⟩,hnumeral⟩
    · exact ⟨_,text,htext,⟨hpool,.inr rfl⟩,hnumeral⟩

end Amounts

lemma handleMessage_eq_ok {taskId : String} {task : HttpTask} : handleMessage walk taskId request = .ok task ↔
      ∃ type, parseTaskType request.path = some type ∧ type ≠ "" ∧
        task = ⟨taskId,type,request.body,populateParametersFromHeaders request.headers,
          resolve (walk (populateParametersFromHeaders request.headers))⟩ := by
  rw [handleMessage]
  cases parseTaskType request.path with
  | none => simp
  | some type =>
    by_cases htype : type = ""
    · simp [htype]
    · simp [htype,eq_comm]

lemma handleMessage_parameters {taskId : String}
    {task : HttpTask} (h : handleMessage walk taskId request = .ok task) :
    task.parameters = populateParametersFromHeaders request.headers := by
  obtain ⟨type,-,-,rfl⟩ := handleMessage_eq_ok.mp h
  rfl

end Strij.Gateway
