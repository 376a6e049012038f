import Strij.Config.ConfigLoader

/-! The environment layer. It gives a field the text of its variable and touches no other field, except
that every singular message field is present after it. -/
namespace Strij.Config
open Strij.Lib

section Names
variable (pool : Pool)

/-- The names that the scheme makes for the fields of a type, behind what stands for the service. -/
inductive EnvName : String → String → String → Prop
  | scalar {type upper : String} {field : FieldDescriptor} {t : ScalarType}
      (hfield : field ∈ (pool.descriptor type).fields) (ht : field.type = .scalar t) :
      EnvName type upper (envPath upper field.name)
  | nested {type upper sub name : String} {field : FieldDescriptor}
      (hfield : field ∈ (pool.descriptor type).fields) (ht : field.type = .message sub)
      (hsingular : field.repeated = false) (hname : EnvName sub (envPath upper field.name) name) :
      EnvName type upper name
  | indexed {type upper sub : String} {field item : FieldDescriptor} {t : ScalarType} (idx : ℕ)
      (hfield : field ∈ (pool.descriptor type).fields) (ht : field.type = .message sub)
      (hrepeated : field.repeated = true) (hitem : item ∈ (pool.descriptor sub).fields)
      (hti : item.type = .scalar t) :
      EnvName type upper (envPath upper field.name ++ "__" ++ toString idx ++ "__" ++ toUpper item.name)

/-- The singular message fields are present, at every level; the type has fewer levels than given. -/
def Filled : ℕ → String → Message → Prop
  | 0, _, _ => False
  | depth+1, type, m => ∀ field ∈ (pool.descriptor type).fields, ∀ sub, field.type = .message sub →
      field.repeated = false → ∃ inner, m.get field.name = some (.message inner) ∧ Filled depth sub inner

end Names

section Frame
variable {lib : Library} {pool : Pool} {env : List (String × String)} {field : FieldDescriptor} {m m' : Message}
  {k : String} {discover : String → String → Message → Except Failure Message} {start envStart : String}
  {upper : String}

lemma setFieldFromString_get_ne {text : String} (h : setFieldFromString lib field text m = .ok m')
    (hk : k ≠ field.name) : m'.get k = m.get k := by
  rw [setFieldFromString] at h
  cases htype : field.type with
  | message type =>
    rw [htype] at h
    cases h
  | scalar type =>
    rw [htype] at h
    obtain ⟨value,-,hset⟩ := bind_eq_ok.mp h
    cases hrepeated : field.repeated with
    | true =>
      rw [hrepeated] at hset
      cases hset
    | false =>
      rw [hrepeated] at hset
      cases hset
      exact Message.get_set_ne hk

lemma discoverSubField_get_ne {found found' : Bool × Message} {sub : FieldDescriptor}
    (h : discoverSubField lib env field start found sub = .ok found') (hk : k ≠ field.name) :
    found'.2.get k = found.2.get k := by
  rw [discoverSubField] at h
  cases htype : sub.type with
  | message type =>
    rw [htype] at h
    cases h
    rfl
  | scalar type =>
    rw [htype] at h
    cases hvar : env.lookup (start ++ toUpper sub.name) with
    | none =>
      simp only [hvar] at h
      cases h
      rfl
    | some text =>
      simp only [hvar] at h
      obtain ⟨last,-,hset⟩ := bind_eq_ok.mp h
      cases hset
      exact Message.get_set_ne hk

lemma discoverIndices_get_ne {subFields : List FieldDescriptor} {turns idx : ℕ}
    (h : discoverIndices lib env field subFields start turns idx m = .ok m') (hk : k ≠ field.name) :
    m'.get k = m.get k := by
  induction turns generalizing idx m with
  | zero =>
    cases h
    rfl
  | succ turns ih =>
    rw [discoverIndices] at h
    obtain ⟨⟨found,m₁⟩,hturn,hrest⟩ := bind_eq_ok.mp h
    have hm₁ : m₁.get k = m.get k :=
      foldlM_keeps (fun found : Bool × Message => found.2.get k) (fun _ _ _ _ hs => discoverSubField_get_ne hs hk) hturn
    cases found with
    | false =>
      cases hrest
      exact hm₁
    | true => exact (ih hrest).trans hm₁

lemma discoverField_get_ne
    (h : discoverField lib pool env discover envStart upper m field = .ok m') (hk : k ≠ field.name) :
    m'.get k = m.get k := by
  rw [discoverField] at h
  cases htype : field.type with
  | message type =>
    simp only [htype] at h
    cases hrepeated : field.repeated with
    | true =>
      simp only [hrepeated,if_true] at h
      exact discoverIndices_get_ne h hk
    | false =>
      simp only [hrepeated,Bool.false_eq_true,if_false] at h
      obtain ⟨inner,-,hset⟩ := bind_eq_ok.mp h
      cases hset
      exact Message.get_set_ne hk
  | scalar type =>
    simp only [htype] at h
    cases hvar : env.lookup (envStart ++ envPath upper field.name) with
    | none =>
      simp only [hvar] at h
      cases h
      rfl
    | some text =>
      simp only [hvar] at h
      exact setFieldFromString_get_ne h hk

lemma discoverFields_get
    {fields : List FieldDescriptor} (h : fields.foldlM (discoverField lib pool env discover envStart upper) m = .ok m')
    (hk : k ∉ fields.map FieldDescriptor.name) : m'.get k = m.get k :=
  foldlM_keeps (fun m => Message.get m k) (fun _ _ _ hfield hs => discoverField_get_ne hs fun heq =>
    hk (heq ▸ List.mem_map_of_mem hfield)) h

end Frame

section Unset
variable {lib : Library} {pool : Pool} {env : List (String × String)} {envStart : String}
  {discover : String → String → Message → Except Failure Message} {field : FieldDescriptor} {type : String} {m : Message}
  {upper : String}

lemma discoverIndices_unset {subFields : List FieldDescriptor} {start : String}
    {turns : ℕ} (m : Message) (h : ∀ item ∈ subFields, ∀ t, item.type = .scalar t →
      env.lookup (start ++ "__" ++ toString 0 ++ "__" ++ toUpper item.name) = none) :
    discoverIndices lib env field subFields start turns 0 m = .ok m := by
  have hstep : subFields.foldlM (discoverSubField lib env field (start ++ "__" ++ toString 0 ++ "__")) (false,m) =
      .ok (false,m) := by
    induction subFields with
    | nil => rfl
    | cons item rest ih =>
      have hitem : discoverSubField lib env field (start ++ "__" ++ toString 0 ++ "__") (false,m) item =
          .ok (false,m) := by
        rw [discoverSubField]
        cases htype : item.type with
        | message type => rfl
        | scalar t => simp only [h item List.mem_cons_self t htype]
      rw [List.foldlM_cons,hitem]
      exact ih fun item hitem => h item (List.mem_cons_of_mem _ hitem)
  cases turns with
  | zero => rfl
  | succ turns =>
    rw [discoverIndices,hstep]
    rfl

variable (hunset : ∀ name, EnvName pool type upper name → env.lookup (envStart ++ name) = none)
include hunset

lemma discoverField_unset (hfield : field ∈ (pool.descriptor type).fields)
    (hkind : ∀ sub, field.type = .message sub → field.repeated = true) (m : Message) :
    discoverField lib pool env discover envStart upper m field = .ok m := by
  rw [discoverField]
  cases htype : field.type with
  | message sub =>
    simp only [hkind sub htype,if_true]
    refine discoverIndices_unset m fun item hitem t ht => ?_
    have hname := hunset _ (.indexed 0 hfield htype (hkind sub htype) hitem ht)
    simpa only [String.append_assoc] using hname
  | scalar t => simp only [hunset _ (.scalar hfield htype)]

lemma discoverFields_eq_self {fields : List FieldDescriptor}
    (hmem : ∀ field ∈ fields, field ∈ (pool.descriptor type).fields)
    (hdistinct : (fields.map FieldDescriptor.name).Nodup) :
    fields.foldlM (discoverField lib pool env discover envStart upper) m = .ok m ↔
      ∀ field ∈ fields, ∀ sub, field.type = .message sub → field.repeated = false →
        ∃ inner, discover sub (envPath upper field.name) (m.getMessage field.name) = .ok inner ∧
          m.get field.name = some (.message inner) := by
  induction fields with
  | nil => exact iff_of_true rfl (by simp)
  | cons field rest ih =>
    obtain ⟨hnew,hdistinct⟩ := List.nodup_cons.mp hdistinct
    have ih := ih (fun f hf => hmem f (List.mem_cons_of_mem _ hf)) hdistinct
    rw [List.foldlM_cons,List.forall_mem_cons,bind_eq_ok]
    refine Iff.trans ?_ (and_congr_right' ih)
    by_cases hkind : ∀ sub, field.type = .message sub → field.repeated = true
    · rw [discoverField_unset hunset (hmem field List.mem_cons_self) hkind]
      constructor
      · rintro ⟨_,heq,hrest⟩
        cases heq
        exact ⟨fun sub ht hsingular => (by rw [hkind sub ht] at hsingular; cases hsingular),hrest⟩
      · exact fun h => ⟨m,rfl,h.2⟩
    · push Not at hkind
      obtain ⟨sub,htype,hsingular⟩ := hkind
      have hsingular : field.repeated = false := by simpa using hsingular
      have hturn : discoverField lib pool env discover envStart upper m field =
          (discover sub (envPath upper field.name) (m.getMessage field.name) >>= fun inner =>
            .ok (m.set field.name (.message inner))) := by
        rw [discoverField]
        simp only [htype,hsingular,Bool.false_eq_true,if_false]
      rw [hturn]
      constructor
      · rintro ⟨m₁,hfirst,hrest⟩
        obtain ⟨inner,hinner,hset⟩ := bind_eq_ok.mp hfirst
        cases hset
        -- the rest does not touch the field, so what was stored is what was there
        have hget : m.get field.name = some (.message inner) := by
          rw [discoverFields_get hrest hnew,Message.get_set_self]
        rw [Message.set_get hget] at hrest
        refine ⟨fun sub' ht' _ => ?_,hrest⟩
        cases htype.symm.trans ht'
        exact ⟨inner,hinner,hget⟩
      · rintro ⟨hfirst,hrest⟩
        obtain ⟨inner,hinner,hget⟩ := hfirst sub htype hsingular
        refine ⟨m,?_,hrest⟩
        rw [hinner]
        exact congrArg Except.ok (Message.set_get hget)

lemma discoverAndApplyEnvVars_eq_self {depth : ℕ} :
    discoverAndApplyEnvVars lib pool env envStart depth type upper m = .ok m ↔ Filled pool depth type m := by
  induction depth generalizing type upper m with
  | zero => exact ⟨nofun,nofun⟩
  | succ depth ih =>
    rw [discoverAndApplyEnvVars,discoverFields_eq_self hunset (fun _ h => h) (pool.descriptor type).distinct,Filled]
    refine forall₂_congr fun field hfield => forall₃_congr fun sub htype hsingular => exists_congr fun inner => ?_
    have ih : discoverAndApplyEnvVars lib pool env envStart depth sub (envPath upper field.name) inner = .ok inner ↔
        Filled pool depth sub inner := ih fun name hname => hunset name (.nested hfield htype hsingular hname)
    rw [and_comm]
    refine and_congr_right fun hget => ?_
    rw [← ih,Message.getMessage,hget]

omit hunset

/-- Without a variable of the naming scheme the environment layer leaves a config as it is exactly if
every singular message field of it is present already. -/
theorem applyEnvOverrides_eq_self_iff (lib : Library) (pool : Pool) (env : List (String × String))
    (type service : String) (m : Message)
    (hunset : ∀ name, EnvName pool type "" name → env.lookup ("STRIJ_" ++ service ++ "_" ++ name) = none) :
    (∃ depth, applyEnvOverrides lib pool env depth type service m = .ok m) ↔ ∃ depth, Filled pool depth type m :=
  exists_congr fun _ => discoverAndApplyEnvVars_eq_self hunset

def filledConfig : Message :=
  [("http_listener",.message [("port",.scalar (.uint32 8080))]),("logging",.message []),
    ("node_discovery",.message [("typed_config",.message [])])]

theorem applyEnvOverrides_eq_self_filled :
    (∃ depth, Filled gatewayPool depth "strij.config.GatewayConfig" filledConfig) ∧
      ∃ depth, applyEnvOverrides plainLibrary gatewayPool [("PATH","/bin")] depth "strij.config.GatewayConfig" "GATEWAY"
        filledConfig = .ok filledConfig := by
  have hunset : ∀ name, EnvName gatewayPool "strij.config.GatewayConfig" "" name →
      [("PATH","/bin")].lookup ("STRIJ_" ++ "GATEWAY" ++ "_" ++ name) = none := by
    intro name _
    have hne : "STRIJ_" ++ "GATEWAY" ++ "_" ++ name ≠ "PATH" := fun heq => by
      have := congrArg (fun s => s.toList.head?) heq
      simp at this
    rw [List.lookup_cons,beq_false_of_ne hne,List.lookup_nil]
  have h := applyEnvOverrides_eq_self_iff plainLibrary gatewayPool [("PATH","/bin")] "strij.config.GatewayConfig"
    "GATEWAY" filledConfig hunset
  have hself : ∃ depth, applyEnvOverrides plainLibrary gatewayPool [("PATH","/bin")] depth
      "strij.config.GatewayConfig" "GATEWAY" filledConfig = .ok filledConfig := ⟨3,rfl⟩
  exact ⟨h.mp hself,hself⟩

/-- A gateway config without `node_discovery` has one after the layer, in an empty environment. -/
theorem node_discovery_appears : ∃ m,
    applyEnvOverrides plainLibrary gatewayPool [] 3 "strij.config.GatewayConfig" "GATEWAY"
      [("http_listener",.message [("port",.scalar (.uint32 8080))])] = .ok m ∧
    Message.get [("http_listener",.message [("port",.scalar (.uint32 8080))])] "node_discovery" = none ∧
    m.get "node_discovery" = some (.message [("typed_config",.message [])]) :=
  ⟨_,rfl,rfl,rfl⟩

end Unset
end Strij.Config
