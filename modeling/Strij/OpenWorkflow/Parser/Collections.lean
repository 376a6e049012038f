import Strij.Lib.Checks
import Strij.Lib.YamlGrammar
import Strij.OpenWorkflow.Parser.Decode

/-! The two forms of a task collection. -/
namespace Strij.OpenWorkflow.Parser
open Strij.Lib YamlNode

/-- The nodes of a document that task collections are reached through. -/
inductive Place
  | workflow
  | use
  | extensions
  | namedExtension
  | extension
  | functions
  | tasks
  | namedTask
  | task
  | fork
  | catch_
  | foreach
  | plain
  deriving DecidableEq

def Place.child : Place → String → Place
  | .workflow, "do" => .tasks
  | .workflow, "use" => .use
  | .use, "extensions" => .extensions
  | .use, "functions" => .functions
  | .namedExtension, _ => .extension
  | .extension, "before" => .tasks
  | .extension, "after" => .tasks
  | .functions, _ => .task
  | .tasks, _ => .task
  | .namedTask, _ => .task
  | .task, "do" => .tasks
  | .task, "try" => .tasks
  | .task, "fork" => .fork
  | .task, "catch" => .catch_
  | .task, "foreach" => .foreach
  | .fork, "branches" => .tasks
  | .catch_, "do" => .tasks
  | .foreach, "do" => .tasks
  | _, _ => .plain

def Place.item : Place → Place
  | .tasks => .namedTask
  | .extensions => .namedExtension
  | _ => .plain

def grammar : Grammar Place where
  child := Place.child
  item := Place.item
  IsCollection p := p = .tasks
  plain := .plain
  child_plain _ := rfl
  item_plain := rfl
  not_collection_plain := by decide

section Reads
variable {α : Type} {p : Place} {node node' : YamlNode} {key : String}

variable (h : Rewritten grammar p node node')
include h

variable (hp : p ≠ .tasks)
include hp

lemma child_congr (key : String) : Rewritten grammar (p.child key) (node.getChild key) (node'.getChild key) :=
  h.getChild hp key

lemma has_congr : node.has = node'.has :=
  funext fun key => (h.getChild hp key).present_eq

lemma getChild_congr (hkey : p.child key = .plain) : node.getChild key = node'.getChild key :=
  (h.getChild hp key).eq_of_plain hkey

lemma requireMap_congr (what : String) : requireMap node what = requireMap node' what := by
  rw [requireMap,requireMap,h.isMap_eq hp]

lemma rejectUnknownKeys_congr (allowed : List String)
    (what : String) : rejectUnknownKeys node allowed what = rejectUnknownKeys node' allowed what := by
  rw [rejectUnknownKeys,rejectUnknownKeys,h.keys_eq hp]

lemma requireKey_congr (key what : String) : requireKey node key what = requireKey node' key what := by
  rw [requireKey,requireKey,has_congr h hp]

lemma decodeOptional_congr {decode decode' : YamlNode → Except ParseError α}
    (hchild : decode (node.getChild key) = decode' (node'.getChild key)) :
    decodeOptional decode node key = decodeOptional decode' node' key := by
  rw [decodeOptional,decodeOptional,has_congr h hp,hchild]

lemma decodeOptional_plain (hkey : p.child key = .plain)
    (decode : YamlNode → Except ParseError α) : decodeOptional decode node key = decodeOptional decode node' key :=
  decodeOptional_congr h hp (congrArg decode (getChild_congr h hp hkey))

lemma decodeRequired_plain (hkey : p.child key = .plain)
    (decode : YamlNode → Except ParseError α) (what : String) :
    decodeRequired decode node key what = decodeRequired decode node' key what := by
  rw [decodeRequired,decodeRequired,has_congr h hp,getChild_congr h hp hkey]

lemma decodeStringList_plain (hkey : p.child key = .plain) :
    decodeStringList node key = decodeStringList node' key := by
  rw [decodeStringList,decodeStringList,has_congr h hp,getChild_congr h hp hkey]

lemma singleEntry_congr {what message : String} {f g : String × YamlNode → Except ParseError α}
    (hentry : ∀ (key : String) (v v' : YamlNode), Rewritten grammar (p.child key) v v' → v.height < node.height →
      v'.height < node'.height → f (key,v) = g (key,v')) :
    (singleEntry node what message >>= f) = (singleEntry node' what message >>= g) := by
  have hmap : ∀ entries entries', RewrittenEntries grammar p entries entries' → node = .map entries →
      node' = .map entries' →
      (singleEntry node what message >>= f) = (singleEntry node' what message >>= g) := by
    rintro entries entries' hentries rfl rfl
    cases hentries with
    | nil => rfl
    | cons key hnode hrest =>
      cases hrest with
      | nil =>
        exact hentry key _ _ hnode (height_lt_map List.mem_cons_self) (height_lt_map List.mem_cons_self)
      | cons => rfl
  cases h with
  | same =>
    cases node with
    | map entries => exact hmap entries entries (.refl p entries) rfl rfl
    | _ => rfl
  | map hentries => exact hmap _ _ hentries rfl rfl
  | sequence => rfl
  | toSequence hcollection => exact absurd hcollection hp
  | toMap hcollection => exact absurd hcollection hp

end Reads

structure Below (n m : ℕ) (p : Place) (node node' : YamlNode) : Prop where
  rewritten : Rewritten grammar p node node'
  left : node.height < n
  right : node'.height < m

section Tasks
variable {yaml : Conversions} {n m : ℕ} {p : Place} {node node' : YamlNode}
  {f g : YamlNode → Except ParseError Tasks}

lemma Below.getChild (h : Below n m p node node') (hp : p ≠ .tasks) (key : String) :
    Below n m (p.child key) (node.getChild key) (node'.getChild key) where
  rewritten := h.rewritten.getChild hp key
  left := (height_getChild_le key node).trans_lt h.left
  right := (height_getChild_le key node').trans_lt h.right

def Agree (n m : ℕ) (f g : YamlNode → Except ParseError Tasks) : Prop :=
  ∀ node node', Below n m .tasks node node' → f node = g node'

variable (hfg : Agree n m f g)
include hfg

lemma decodeSubscriptionIterator_congr (h : Below n m .foreach node node') :
    decodeSubscriptionIterator yaml f node = decodeSubscriptionIterator yaml g node' := by
  have hnode := h.rewritten
  have hdo : decodeOptional f node "do" = decodeOptional g node' "do" :=
    decodeOptional_congr hnode (by decide) (hfg _ _ (h.getChild (by decide) "do"))
  simp (disch := decide) only [decodeSubscriptionIterator,requireMap_congr hnode,rejectUnknownKeys_congr hnode,
    decodeOptional_plain hnode,hdo]

variable (h : Below n m .task node node')
include h

lemma decodeDoBody_congr : decodeDoBody f node = decodeDoBody g node' := by
  rw [decodeDoBody,decodeDoBody,requireKey_congr h.rewritten (by decide),hfg _ _ (h.getChild (by decide) "do")]

lemma decodeForBody_congr : decodeForBody yaml f node = decodeForBody yaml g node' := by
  have hnode := h.rewritten
  have hdo := hfg _ _ (h.getChild (by decide) "do")
  simp (disch := decide) only [decodeForBody,requireKey_congr hnode,getChild_congr hnode,
    decodeOptional_plain hnode,hdo]

lemma decodeForkBody_congr : decodeForkBody yaml f node = decodeForkBody yaml g node' := by
  have hfork : Below n m .fork (node.getChild "fork") (node'.getChild "fork") := h.getChild (by decide) "fork"
  have hbranches := hfg _ _ (hfork.getChild (by decide) "branches")
  simp (disch := decide) only [decodeForkBody,requireKey_congr h.rewritten,requireMap_congr hfork.rewritten,
    rejectUnknownKeys_congr hfork.rewritten,requireKey_congr hfork.rewritten,
    decodeOptional_plain hfork.rewritten,hbranches]

lemma decodeListenBody_congr : decodeListenBody yaml f node = decodeListenBody yaml g node' := by
  have hnode := h.rewritten
  have hforeach : decodeOptional (decodeSubscriptionIterator yaml f) node "foreach" =
      decodeOptional (decodeSubscriptionIterator yaml g) node' "foreach" :=
    decodeOptional_congr hnode (by decide)
      (decodeSubscriptionIterator_congr hfg (h.getChild (by decide) "foreach"))
  simp (disch := decide) only [decodeListenBody,requireKey_congr hnode,getChild_congr hnode,hforeach]

omit h in
lemma decodeCatch_congr (h : Below n m .catch_ node node') :
    decodeCatch yaml f node = decodeCatch yaml g node' := by
  have hnode := h.rewritten
  have hdo : decodeOptional f node "do" = decodeOptional g node' "do" :=
    decodeOptional_congr hnode (by decide) (hfg _ _ (h.getChild (by decide) "do"))
  simp (disch := decide) only [decodeCatch,requireMap_congr hnode,rejectUnknownKeys_congr hnode,
    decodeOptional_plain hnode,hdo]

lemma decodeTryBody_congr : decodeTryBody yaml f node = decodeTryBody yaml g node' := by
  have hnode := h.rewritten
  have htry := hfg _ _ (h.getChild (by decide) "try")
  have hcatch : decodeOptional (decodeCatch yaml f) node "catch" =
      decodeOptional (decodeCatch yaml g) node' "catch" :=
    decodeOptional_congr hnode (by decide) (decodeCatch_congr hfg (h.getChild (by decide) "catch"))
  simp (disch := decide) only [decodeTryBody,requireKey_congr hnode,htry,hcatch]

lemma decodeBody_congr (kind : String) : decodeBody yaml f kind node = decodeBody yaml g kind node' := by
  have hnode := h.rewritten
  unfold decodeBody
  simp only [decodeDoBody_congr hfg h,decodeForBody_congr hfg h,decodeForkBody_congr hfg h,
    decodeListenBody_congr hfg h,decodeTryBody_congr hfg h]
  -- the other kinds hold no collection
  simp (disch := decide) only [decodeCallBody,decodeEmitBody,decodeRaiseBody,decodeRunBody,decodeSetBody,
    decodeSwitchBody,decodeWaitBody,requireKey_congr hnode,getChild_congr hnode,decodeRequired_plain hnode,
    decodeOptional_plain hnode]

omit h in
omit hfg in
lemma decodeKind_congr (h : Rewritten grammar .task node node') : decodeKind node = decodeKind node' := by
  rw [decodeKind,decodeKind,declaredKinds,declaredKinds,has_congr h (by decide)]

lemma decodeTaskWith_congr : decodeTaskWith yaml f node = decodeTaskWith yaml g node' := by
  have hnode := h.rewritten
  simp (disch := decide) only [decodeTaskWith,requireMap_congr hnode,rejectUnknownKeys_congr hnode,
    decodeOptional_plain hnode,decodeKind_congr hnode,decodeBody_congr hfg h]

end Tasks

section Collections
variable {yaml : Conversions} {n m : ℕ} {node node' : YamlNode} {entries entries' : List (String × YamlNode)}
  {t t' : YamlNode → Except ParseError Task}

lemma height_lt_singles {entry : String × YamlNode} (h : entry ∈ entries) :
    entry.2.height + 1 < (YamlNode.sequence (singles entries)).height :=
  Nat.lt_of_le_of_lt (height_lt_map List.mem_cons_self)
    (height_lt_sequence (List.mem_map_of_mem (f := fun entry => YamlNode.map [entry]) h))

variable (ht : ∀ v v', Below n m .task v v' → t v = t' v')
include ht

lemma decodeTaskItem_congr (h : Below n m .namedTask node node') :
    decodeTaskItem t node = decodeTaskItem t' node' :=
  singleEntry_congr h.rewritten (by decide) fun key v v' hv hleft hright =>
    congrArg (NamedTask.mk key <$> ·) (ht v v' ⟨hv,hleft.trans h.left,hright.trans h.right⟩)

lemma decodeNamedTask_forall₂
    (h : RewrittenEntries grammar .tasks entries entries') (hleft : ∀ e ∈ entries, e.2.height < n)
    (hright : ∀ e ∈ entries', e.2.height < m) :
    List.Forall₂ (fun e e' => decodeNamedTask t e = decodeNamedTask t' e') entries entries' := by
  refine h.forall₂.imp ?_
  rintro ⟨key,v⟩ ⟨_,v'⟩ ⟨hmem,hmem',rfl,hnode⟩
  exact congrArg (NamedTask.mk key <$> ·) (ht v v' ⟨hnode,hleft _ hmem,hright _ hmem'⟩)

lemma decodeTasksWith_congr
    (h : Below (n+1) (m+1) .tasks node node') : decodeTasksWith t node = decodeTasksWith t' node' := by
  obtain ⟨h,hleft,hright⟩ := h
  -- by the shapes of the two nodes; a node that stays as it is has its entries or items in common
  have hmaps : ∀ {entries entries'}, RewrittenEntries grammar .tasks entries entries' →
      (YamlNode.map entries).height < n+1 → (YamlNode.map entries').height < m+1 →
      decodeTasksWith t (.map entries) = decodeTasksWith t' (.map entries') := fun hentries hn hm =>
    mapM_congr_forall₂ (decodeNamedTask_forall₂ ht hentries
      (fun e he => (height_lt_map he).trans_le (Nat.le_of_lt_succ hn))
      (fun e he => (height_lt_map he).trans_le (Nat.le_of_lt_succ hm)))
  have hsequences : ∀ {nodes nodes'}, RewrittenItems grammar .tasks nodes nodes' →
      (YamlNode.sequence nodes).height < n+1 → (YamlNode.sequence nodes').height < m+1 →
      decodeTasksWith t (.sequence nodes) = decodeTasksWith t' (.sequence nodes') := fun hitems hn hm =>
    mapM_congr_forall₂ (hitems.forall₂.imp fun v v' ⟨hmem,hmem',hv⟩ => decodeTaskItem_congr ht
      ⟨hv,(height_lt_sequence hmem).trans_le (Nat.le_of_lt_succ hn),
        (height_lt_sequence hmem').trans_le (Nat.le_of_lt_succ hm)⟩)
  cases h with
  | same =>
    cases node with
    | map entries => exact hmaps (.refl _ _) hleft hright
    | sequence nodes => exact hsequences (.refl _ _) hleft hright
    | _ => rfl
  | map hentries => exact hmaps hentries hleft hright
  | sequence hitems => exact hsequences hitems hleft hright
  | toSequence _ hentries =>
    refine mapM_congr_forall₂ (List.forall₂_map_right_iff.mpr (decodeNamedTask_forall₂ ht hentries ?_ ?_))
    · exact fun e he => (height_lt_map he).trans_le (Nat.le_of_lt_succ hleft)
    · exact fun e he => Nat.lt_of_succ_lt_succ ((height_lt_singles he).trans hright)
  | toMap _ hentries =>
    refine mapM_congr_forall₂ (List.forall₂_map_left_iff.mpr (decodeNamedTask_forall₂ ht hentries ?_ ?_))
    · exact fun e he => Nat.lt_of_succ_lt_succ ((height_lt_singles he).trans hleft)
    · exact fun e he => (height_lt_map he).trans_le (Nat.le_of_lt_succ hright)

omit ht

/-- Collections that are rewritings of each other decode alike, to whatever depths reach their ends. -/
lemma decodeTasksAt_congr (n m : ℕ) : Agree n m (decodeTasksAt yaml n) (decodeTasksAt yaml m) := by
  induction n generalizing m with
  | zero => exact fun _ _ h => absurd h.left (Nat.not_lt_zero _)
  | succ n ih =>
    intro node node' h
    cases m with
    | zero => exact absurd h.right (Nat.not_lt_zero _)
    | succ m => exact decodeTasksWith_congr (fun _ _ => decodeTaskWith_congr (ih m)) h

lemma decodeTasks_congr (h : Rewritten grammar .tasks node node') : decodeTasks yaml node = decodeTasks yaml node' :=
  decodeTasksAt_congr _ _ node node' ⟨h,Nat.lt_succ_self _,Nat.lt_succ_self _⟩

lemma decodeTask_congr (h : Rewritten grammar .task node node') : decodeTask yaml node = decodeTask yaml node' :=
  decodeTaskWith_congr (fun _ _ h => decodeTasks_congr h.rewritten) ⟨h,Nat.lt_succ_self _,Nat.lt_succ_self _⟩

theorem decodeTasks_eq (yaml : Conversions) (node : YamlNode) :
    decodeTasks yaml node = decodeTasksWith (decodeTask yaml) node := by
  refine decodeTasksWith_congr (n := node.height) (m := node.height) (fun v v' h => ?_)
    ⟨.same _ _,Nat.lt_succ_self _,Nat.lt_succ_self _⟩
  refine decodeTaskWith_congr (fun u u' hu => ?_) h
  exact decodeTasksAt_congr _ _ u u' ⟨hu.rewritten,hu.left,Nat.lt_succ_self _⟩

end Collections

section Documents
variable {yaml : Conversions} {node node' : YamlNode}

lemma decodeExtension_congr (h : Rewritten grammar .extension node node') :
    decodeExtension yaml node = decodeExtension yaml node' := by
  have hbefore : decodeOptional (decodeTasks yaml) node "before" = decodeOptional (decodeTasks yaml) node' "before" :=
    decodeOptional_congr h (by decide) (decodeTasks_congr (child_congr h (by decide) "before"))
  have hafter : decodeOptional (decodeTasks yaml) node "after" = decodeOptional (decodeTasks yaml) node' "after" :=
    decodeOptional_congr h (by decide) (decodeTasks_congr (child_congr h (by decide) "after"))
  simp (disch := decide) only [decodeExtension,requireMap_congr h,rejectUnknownKeys_congr h,
    decodeRequired_plain h,decodeOptional_plain h,hbefore,hafter]

lemma decodeNamedExtension_congr (h : Rewritten grammar .namedExtension node node') :
    decodeNamedExtension yaml node = decodeNamedExtension yaml node' :=
  singleEntry_congr h (by decide) fun key _ _ hv _ _ =>
    congrArg (NamedExtension.mk key <$> ·) (decodeExtension_congr hv)

lemma decodeExtensions_congr (h : Rewritten grammar .extensions node node') :
    decodeExtensions yaml node = decodeExtensions yaml node' := by
  cases h with
  | same => rfl
  | map => rfl
  | sequence hitems => exact mapM_congr_forall₂ (hitems.forall₂.imp fun _ _ h => decodeNamedExtension_congr h.2.2)
  | toSequence hp => cases hp
  | toMap hp => cases hp

lemma decodeFunctions_congr (h : Rewritten grammar .functions node node') :
    decodeNamed (decodeTask yaml) "use.functions" node = decodeNamed (decodeTask yaml) "use.functions" node' := by
  cases h with
  | same => rfl
  | map hentries =>
    refine foldlM_congr_forall₂ (hentries.forall₂.imp ?_) []
    rintro ⟨key,v⟩ ⟨_,v'⟩ ⟨-,-,rfl,hv⟩ out
    rw [decodeTask_congr hv]
  | sequence => rfl
  | toSequence hp => cases hp
  | toMap hp => cases hp

lemma decodeUse_congr (h : Rewritten grammar .use node node') : decodeUse yaml node = decodeUse yaml node' := by
  have hextensions : decodeOptional (decodeExtensions yaml) node "extensions" =
      decodeOptional (decodeExtensions yaml) node' "extensions" :=
    decodeOptional_congr h (by decide) (decodeExtensions_congr (child_congr h (by decide) "extensions"))
  have hfunctions : decodeOptional (decodeNamed (decodeTask yaml) "use.functions") node "functions" =
      decodeOptional (decodeNamed (decodeTask yaml) "use.functions") node' "functions" :=
    decodeOptional_congr h (by decide) (decodeFunctions_congr (child_congr h (by decide) "functions"))
  simp (disch := decide) only [decodeUse,requireMap_congr h,rejectUnknownKeys_congr h,decodeOptional_plain h,
    decodeStringList_plain h,hextensions,hfunctions]

lemma decodeDocumentImpl_congr (h : Rewritten grammar .workflow node node') :
    decodeDocumentImpl yaml node = decodeDocumentImpl yaml node' := by
  have hdo : decodeTasks yaml (node.getChild "do") = decodeTasks yaml (node'.getChild "do") :=
    decodeTasks_congr (child_congr h (by decide) "do")
  have huse : decodeOptional (decodeUse yaml) node "use" = decodeOptional (decodeUse yaml) node' "use" :=
    decodeOptional_congr h (by decide) (decodeUse_congr (child_congr h (by decide) "use"))
  simp (disch := decide) only [decodeDocumentImpl,requireMap_congr h,rejectUnknownKeys_congr h,requireKey_congr h,
    getChild_congr h,decodeOptional_plain h,hdo,huse]

end Documents

section Kinds
variable {yaml : Conversions} {node : YamlNode} {kind : String}

lemma mem_declaredKinds : kind ∈ declaredKinds node ↔
    kind ∈ taskKinds ∧ node.has kind = true ∧ (kind = "do" → node.has "for" = false) := by
  rw [declaredKinds]
  cases hfor : node.has "for" with
  | true => simp [and_comm]
  | false => simp

lemma decodeKind_eq_ok : decodeKind node = .ok kind ↔ declaredKinds node = [kind] := by
  rw [decodeKind]
  split
  · next hkinds => simp [hkinds,fail]
  · next hkinds => simp [hkinds]
  · next hkinds => simp [hkinds,fail]

lemma decodeTaskWith_kind {f : YamlNode → Except ParseError Tasks} {task : Task}
    (h : decodeTaskWith yaml f node = .ok task) : ∃ kind, decodeKind node = .ok kind := by
  rw [decodeTaskWith] at h
  simp only [bind_eq_ok] at h
  obtain ⟨_,_,_,_,_,_,_,_,_,_,_,_,_,_,_,_,_,_,kind,hkind,_⟩ := h
  exact ⟨kind,hkind⟩

end Kinds

/-- The form in which its task collections are written, at any depth, makes no difference to what a document
parses to; and a task that decodes declares exactly one kind. -/
theorem task_collections_one_meaning (yaml : Conversions) :
    (∀ (load : String → Except ParseError (Option YamlNode)) (text text' : String) (root root' : YamlNode),
      load text = .ok (some root) → load text' = .ok (some root') → Rewritten grammar .workflow root root' →
      parse yaml load text = parse yaml load text') ∧
    ∀ (node : YamlNode) (task : Task), decodeTask yaml node = .ok task →
      ∃! kind, kind ∈ taskKinds ∧ node.has kind = true ∧ (kind = "do" → node.has "for" = false) := by
  constructor
  · intro load text text' root root' htext htext' h
    rw [parse,parse,htext,htext']
    exact decodeDocumentImpl_congr h
  · intro node task h
    obtain ⟨kind,hkind⟩ := decodeTaskWith_kind h
    have hkinds := decodeKind_eq_ok.mp hkind
    refine ⟨kind,mem_declaredKinds.mp (hkinds ▸ List.mem_singleton_self kind),fun other hother => ?_⟩
    exact List.mem_singleton.mp (hkinds ▸ mem_declaredKinds.mpr hother)

def workflowOf (tasks : YamlNode) : YamlNode :=
  .map [("document",.map [("dsl",.scalar true "1.0.3"),("namespace",.scalar false "demo"),
      ("name",.scalar false "forms"),("version",.scalar true "0.1.0")]),("do",tasks)]

def forkOf (branches : YamlNode) : YamlNode := .map [("fork",.map [("branches",branches)])]

/-- The workflow with mappings, and with a sequence inside a sequence. -/
theorem task_collections_one_meaning_nestedFork : let wait : YamlNode := .map [("wait",.scalar false "PT1S")]
    let mappings := workflowOf (.map [("both",forkOf (.map [("pause",wait)]))])
    let sequences := workflowOf (.sequence [.map [("both",forkOf (.sequence [.map [("pause",wait)]]))]])
    let load := fun text => Except.ok (some (if text = "mappings" then mappings else sequences))
    Rewritten grammar .workflow mappings sequences ∧
      parse plainConversions load "mappings" = parse plainConversions load "sequences" ∧
      (parse plainConversions load "mappings").isOk = true ∧
      (decodeTask plainConversions wait).isOk = true ∧
      ∃! kind, kind ∈ taskKinds ∧ wait.has kind = true ∧ (kind = "do" → wait.has "for" = false) := by
  intro wait mappings sequences load
  have hfork : Rewritten grammar .task (forkOf (.map [("pause",wait)])) (forkOf (.sequence [.map [("pause",wait)]])) :=
    .map (.cons "fork" (.map (.cons "branches" (.toSequence rfl (.refl _ [("pause",wait)])) .nil)) .nil)
  have hrewritten : Rewritten grammar .workflow mappings sequences :=
    .map (.cons "document" (.same _ _) (.cons "do" (.toSequence rfl (.cons "both" hfork .nil)) .nil))
  have hok : (decodeTask plainConversions wait).isOk = true := by decide +kernel
  cases hwait : decodeTask plainConversions wait with
  | error e =>
    rw [hwait] at hok
    cases hok
  | ok task =>
    exact ⟨hrewritten,(task_collections_one_meaning plainConversions).1 load _ _ _ _ rfl rfl hrewritten,
      by decide +kernel,rfl,(task_collections_one_meaning plainConversions).2 wait task hwait⟩

end Strij.OpenWorkflow.Parser
