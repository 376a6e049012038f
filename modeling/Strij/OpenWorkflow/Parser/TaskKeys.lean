import Strij.OpenWorkflow.Parser.Collections

/-! The keys of a task. One list of allowed keys serves all kinds, and a decoder reads only those of its own. -/
namespace Strij.OpenWorkflow.Parser
open Strij.Lib YamlNode

def kindOfKey : List (String × String) := [("with","call"),("foreach","listen"),("while","for"),("catch","try")]

def Reads {α : Type} (decode : YamlNode → Except ParseError α) (node : YamlNode) (key : String) (field : Option α) :
    Prop := ∃ value, decode (node.getChild key) = .ok value ∧ field = some value

section Reflection
variable (yaml : Conversions) (tasks : YamlNode → Except ParseError Tasks) (node : YamlNode)

/-- The value of the key is in the task. The value of a kind is in the body that its decoder makes. -/
def Reflected (task : Task) (key : String) : Prop :=
  match key with
  | "if" => Reads asString node "if" task.if_
  | "then" => Reads asString node "then" task.then_
  | "input" => Reads (decodeInput yaml) node "input" task.input
  | "output" => Reads (decodeOutput yaml) node "output" task.output
  | "export" => Reads (decodeExport yaml) node "export" task.export_
  | "timeout" => Reads (stringOr (decodeTimeout yaml)) node "timeout" task.timeout
  | "metadata" => Reads (anyValue yaml) node "metadata" (some task.metadata)
  | "with" => ∃ body, task.body = .call body ∧ Reads (anyValue yaml) node "with" (some body.with_)
  | "foreach" => ∃ body, task.body = .listen body ∧
      Reads (decodeSubscriptionIterator yaml tasks) node "foreach" body.foreach
  | "while" => ∃ body, task.body = .for_ body ∧ Reads asString node "while" body.while_
  | "catch" => ∃ body, task.body = .try_ body ∧ Reads (decodeCatch yaml tasks) node "catch" body.catch_
  | "do" => decodeBody yaml tasks "do" node = .ok task.body ∨
      ∃ body, task.body = .for_ body ∧ Reads tasks node "do" (some body.do_)
  | kind => kind ∈ taskKinds ∧ decodeBody yaml tasks kind node = .ok task.body

end Reflection

variable {yaml : Conversions} {tasks : YamlNode → Except ParseError Tasks} {node : YamlNode} {key : String}

lemma mem_keys_of_has (h : node.has key = true) : key ∈ node.keys := by
  cases node with
  | map entries =>
    rw [has,getChild] at h
    cases hlookup : entries.lookup key with
    | none =>
      rw [hlookup] at h
      cases h
    | some value =>
      obtain ⟨before,after,rfl,-⟩ := List.lookup_eq_some_iff.mp hlookup
      simp [keys]
  | _ => cases h

lemma reads_of_optional {α : Type} {decode : YamlNode → Except ParseError α} {field : Option α}
    (h : decodeOptional decode node key = .ok field) (hkey : node.has key = true) : Reads decode node key field := by
  rw [decodeOptional,if_pos hkey] at h
  cases hvalue : decode (node.getChild key) with
  | error e =>
    rw [hvalue] at h
    cases h
  | ok value =>
    rw [hvalue] at h
    cases h
    exact ⟨value,hvalue,rfl⟩

lemma mem_of_rejectUnknownKeys {allowed : List String} {what : String}
    (h : rejectUnknownKeys node allowed what = .ok ()) (hkey : node.has key = true) : key ∈ allowed := by
  rw [rejectUnknownKeys] at h
  split at h
  · next hfind => simpa using List.find?_eq_none.mp hfind key (mem_keys_of_has hkey)
  · cases h

lemma map_eq_ok {α β : Type} {f : α → β} {x : Except ParseError α} {b : β} :
    f <$> x = .ok b ↔ ∃ a, x = .ok a ∧ f a = b := by
  cases x <;> simp [Functor.map,Except.map]

lemma reflected_of_decodeTask {task : Task} (h : decodeTaskWith yaml tasks node = .ok task)
    (howner : ∀ owned ∈ kindOfKey, node.has owned.1 = true → node.has owned.2 = true) (hkey : node.has key = true) :
    Reflected yaml tasks node task key := by
  rw [decodeTaskWith] at h
  simp only [bind_eq_ok] at h
  obtain ⟨_,_,_,hknown,_,hif,_,hthen,_,hinput,_,houtput,_,hexport,_,htimeout,_,hmetadata,kind,hkind,body,hbody,h⟩ := h
  cases h
  have hmem : key ∈ taskKeys := mem_of_rejectUnknownKeys hknown hkey
  -- the kind is the one that is declared
  have hkinds : ∀ {other}, other ∈ taskKinds → node.has other = true → (other = "do" → node.has "for" = false) →
      decodeBody yaml tasks other node = .ok body := by
    intro other hother hhas hdo
    have hdeclared := mem_declaredKinds.mpr ⟨hother,hhas,hdo⟩
    rw [decodeKind_eq_ok.mp hkind,List.mem_singleton] at hdeclared
    rwa [hdeclared]
  have howned : ∀ owned ∈ kindOfKey, node.has owned.1 = true → decodeBody yaml tasks owned.2 node = .ok body := by
    intro owned howned hhas
    have hkind : ∀ owned ∈ kindOfKey, owned.2 ∈ taskKinds ∧ owned.2 ≠ "do" := by decide
    exact hkinds (hkind owned howned).1 (howner owned howned hhas) fun hdo => absurd hdo (hkind owned howned).2
  unfold Reflected
  split
  · exact reads_of_optional hif hkey
  · exact reads_of_optional hthen hkey
  · exact reads_of_optional hinput hkey
  · exact reads_of_optional houtput hkey
  · exact reads_of_optional hexport hkey
  · exact reads_of_optional htimeout hkey
  · obtain ⟨value,hvalue,rfl⟩ := reads_of_optional hmetadata hkey
    exact ⟨value,hvalue,rfl⟩
  · have hcall := howned ("with","call") (by decide) hkey
    simp only [decodeBody,map_eq_ok,decodeCallBody,bind_eq_ok] at hcall
    obtain ⟨_,⟨_,_,_,_,_,hwith,h⟩,rfl⟩ := hcall
    cases h
    obtain ⟨value,hvalue,rfl⟩ := reads_of_optional hwith hkey
    exact ⟨_,rfl,value,hvalue,rfl⟩
  · have hlisten := howned ("foreach","listen") (by decide) hkey
    simp only [decodeBody,map_eq_ok,decodeListenBody,bind_eq_ok] at hlisten
    obtain ⟨_,⟨_,_,_,_,_,_,_,_,_,_,_,_,_,hforeach,h⟩,rfl⟩ := hlisten
    cases h
    exact ⟨_,rfl,reads_of_optional hforeach hkey⟩
  · have hfor := howned ("while","for") (by decide) hkey
    simp only [decodeBody,map_eq_ok,decodeForBody,bind_eq_ok] at hfor
    obtain ⟨_,⟨_,_,_,_,_,_,_,hwhile,_,_,h⟩,rfl⟩ := hfor
    cases h
    exact ⟨_,rfl,reads_of_optional hwhile hkey⟩
  · have htry := howned ("catch","try") (by decide) hkey
    simp only [decodeBody,map_eq_ok,decodeTryBody,bind_eq_ok] at htry
    obtain ⟨_,⟨_,_,_,_,_,hcatch,h⟩,rfl⟩ := htry
    cases h
    exact ⟨_,rfl,reads_of_optional hcatch hkey⟩
  · cases hfor : node.has "for" with
    | false => exact .inl (hkinds (by decide) hkey fun _ => hfor)
    | true =>
      have hbody := hkinds (by decide) hfor (by simp)
      simp only [decodeBody,map_eq_ok,decodeForBody,bind_eq_ok] at hbody
      obtain ⟨_,⟨_,_,_,_,_,_,_,_,_,hdo,h⟩,rfl⟩ := hbody
      cases h
      exact .inr ⟨_,rfl,_,hdo,rfl⟩
  · have hkind : key ∈ taskKinds := by
      simp only [taskKeys,List.mem_cons,List.not_mem_nil,or_false] at hmem
      simp_all [taskKinds]
    exact ⟨hkind,hkinds hkind hkey (by simp_all)⟩

lemma until_of_strategy {strategy : EventConsumptionStrategy}
    (h : decodeEventConsumptionStrategy yaml node = .ok strategy) (hany : node.has "any" = true)
    (huntil : node.has "until" = true) : Reads (anyValue yaml) node "until" strategy.until_ := by
  rw [decodeEventConsumptionStrategy] at h
  simp only [bind_eq_ok] at h
  obtain ⟨_,_,mode,hmode,_,_,h⟩ := h
  have hselected : "any" ∈ ["all","any","one"].filter node.has := List.mem_filter.mpr ⟨by decide,hany⟩
  rw [selectOne] at hmode
  split at hmode <;> cases hmode
  next hone =>
  rw [hone,List.mem_singleton] at hselected
  subst hselected
  simp only [bind_eq_ok] at h
  obtain ⟨_,_,_,hoptional,h⟩ := h
  cases h
  exact reads_of_optional hoptional huntil

end Strij.OpenWorkflow.Parser
