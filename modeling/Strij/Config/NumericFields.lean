import Strij.Config.Environment

/-! Numbers in a config. The last text that the sources give a field decides what it holds, and a text
that is a numeral of a number that fits is read exactly; the conversion takes other texts too. -/
namespace Strij.Config
open Strij.Lib

section Places
variable (pool : Pool)

def Message.inside (m : Message) : List String → Message
  | [] => m
  | name :: path => (m.getMessage name).inside path

inductive Reaches : String → List String → String → Prop
  | here {type : String} : Reaches type [] type
  | nested {type sub target : String} {path : List String} {field : FieldDescriptor}
      (hfield : field ∈ (pool.descriptor type).fields) (htype : field.type = .message sub)
      (hsingular : field.repeated = false) (hany : sub ≠ "google.protobuf.Any") (hpath : Reaches sub path target) :
      Reaches type (field.name :: path) target

structure Place (type : String) (path : List String) (field : FieldDescriptor) (t : ScalarType) : Prop where
  reaches : ∃ target, Reaches pool type path target ∧ field ∈ (pool.descriptor target).fields
  scalar : field.type = .scalar t
  singular : field.repeated = false

end Places

section Texts

def latest {α : Type} (text : α → Option String) : List α → Option String
  | [] => none
  | a :: l => (latest text l).or (text a)

/-- The text that a YAML map gives the field of this name inside the messages. -/
def yamlText (name : String) : List String → YamlNode → Option String
  | [], .map entries => latest (fun e => if e.1 = name then (asString e.2).toOption else none) entries
  | part :: path, .map entries => latest (fun e => if e.1 = part then yamlText name path e.2 else none) entries
  | _, _ => none

def fileText (name : String) (path : List String) : ConfigFile → Option String
  | .yaml root => yamlText name path root
  | _ => none

def envText (env : List (String × String)) (envStart name : String) : String → List String → Option String
  | upper, [] => env.lookup (envStart ++ envPath upper name)
  | upper, part :: path => envText env envStart name (envPath upper part) path

def overrideText (name : String) (path : List String) (override : String) : Option String :=
  match splitOverride override with
  | some (parts,text) => if parts = path ++ [name] then some text else none
  | none => none

/-- The text that the sources give a field: a later layer decides. -/
def Sources.text (sources : Sources) (service : Service) (path : List String) (name : String) : Option String :=
  (latest (overrideText name path) sources.overrides).or
    ((envText sources.env ("STRIJ_" ++ service.name ++ "_") name "" path).or (fileText name path sources.file))

end Texts

section Layers
variable {lib : Library} {pool : Pool} {t : ScalarType} {type : String} {path : List String}
  {field : FieldDescriptor} {m m' : Message} {k : String} {d : Descriptor}

variable (lib t) in
/-- A layer that gives this text, or none, makes the second value of the first. -/
def Reads (text : Option String) (old new : Option ScalarValue) : Prop :=
  match text with
  | none => new = old
  | some text => ∃ value, parseScalar lib t text = .ok value ∧ new = some value

lemma Reads.trans {a b : Option String} {x y z : Option ScalarValue} (h : Reads lib t a x y)
    (h' : Reads lib t b y z) : Reads lib t (b.or a) x z := by
  cases b with
  | none =>
    cases h'
    exact h
  | some text => exact h'

lemma foldlM_reads {α : Type} {step : Message → α → Except Failure Message} {l : List α} {text : α → Option String}
    (value : Message → Option ScalarValue)
    (hstep : ∀ m m', ∀ a ∈ l, step m a = .ok m' → Reads lib t (text a) (value m) (value m'))
    (h : l.foldlM step m = .ok m') : Reads lib t (latest text l) (value m) (value m') := by
  induction l generalizing m with
  | nil =>
    cases h
    exact rfl
  | cons a l ih =>
    rw [List.foldlM_cons] at h
    obtain ⟨m₁,hfirst,hrest⟩ := bind_eq_ok.mp h
    exact (hstep m m₁ a List.mem_cons_self hfirst).trans
      (ih (fun m m' a ha => hstep m m' a (List.mem_cons_of_mem _ ha)) hrest)

lemma Descriptor.find_of_mem (h : field ∈ d.fields) : d.find field.name = some field := by
  have hdistinct := d.distinct
  rw [find]
  generalize d.fields = fields at h hdistinct ⊢
  induction fields with
  | nil => cases h
  | cons f rest ih =>
    obtain ⟨hnew,hdistinct⟩ := List.nodup_cons.mp hdistinct
    rcases List.mem_cons.mp h with rfl | h
    · simp
    · have hne : f.name ≠ field.name := fun heq => hnew (heq ▸ List.mem_map_of_mem h)
      rw [List.find?_cons_of_neg (by simpa using hne)]
      exact ih h hdistinct

lemma Descriptor.name_of_find {name : String} (h : d.find name = some field) : field.name = name := by
  simpa using List.find?_some h

lemma setFieldFromString_reads {text : String} (htype : field.type = .scalar t)
    (h : setFieldFromString lib field text m = .ok m') :
    Reads lib t (some text) (m.getScalar field.name) (m'.getScalar field.name) := by
  rw [setFieldFromString] at h
  simp only [htype] at h
  obtain ⟨value,hvalue,hset⟩ := bind_eq_ok.mp h
  refine ⟨value,hvalue,?_⟩
  cases hrepeated : field.repeated with
  | true =>
    rw [hrepeated] at hset
    cases hset
  | false =>
    rw [hrepeated] at hset
    cases hset
    rw [Message.getScalar,Message.get_set_self]

lemma inside_of_get_eq {part : String} (h : m'.get part = m.get part) :
    m'.inside (part :: path) = m.inside (part :: path) := by
  rw [Message.inside,Message.inside,Message.getMessage,Message.getMessage,h]

lemma getScalar_of_get_eq {name : String} (h : m'.get name = m.get name) : m'.getScalar name = m.getScalar name := by
  rw [Message.getScalar,Message.getScalar,h]

section Yaml
variable {merge : Merge} {entry : String × YamlNode} {start : String}

lemma mergeRepeated_get_ne {value : YamlNode} (h : mergeRepeated lib pool merge field start value m = .ok m')
    (hk : k ≠ field.name) : m'.get k = m.get k := by
  unfold mergeRepeated at h
  split at h
  · split at h
    · refine foldlM_keeps (fun m => Message.get m k) (fun m m' entry _ hstep => ?_) h
      obtain ⟨sub,-,hset⟩ := bind_eq_ok.mp hstep
      cases hset
      exact Message.get_set_ne hk
    · cases h
  · refine foldlM_keeps (fun m => Message.get m k) (fun m m' item _ hstep => ?_) h
    obtain ⟨sub,-,hset⟩ := bind_eq_ok.mp hstep
    cases hset
    exact Message.get_set_ne hk
  · refine foldlM_keeps (fun m => Message.get m k) (fun m m' item _ hstep => ?_) h
    obtain ⟨text,-,hset⟩ := bind_eq_ok.mp hstep
    cases hset
    exact Message.get_set_ne hk
  · cases h
    rfl
  · cases h
  · cases h

lemma mergeAnyYamlField_get_ne {entries : List (String × YamlNode)}
    (h : mergeAnyYamlField lib pool merge field start entries m = .ok m') (hk : k ≠ field.name) :
    m'.get k = m.get k := by
  rw [mergeAnyYamlField] at h
  split at h
  · cases h
  · obtain ⟨name,-,h⟩ := bind_eq_ok.mp h
    simp only at h
    split at h
    · cases h
    · obtain ⟨owned,-,hset⟩ := bind_eq_ok.mp h
      cases hset
      exact Message.get_set_ne hk

lemma mergeEntry_message {sub : String} (hfield : field ∈ (pool.descriptor type).fields)
    (htype : field.type = .message sub) (hsingular : field.repeated = false) (hany : sub ≠ "google.protobuf.Any")
    (hname : entry.1 = field.name) (h : mergeEntry lib pool merge type start m entry = .ok m') :
    ∃ start' inner, merge sub start' entry.2 (m.getMessage field.name) = .ok inner ∧
      m' = m.set field.name (.message inner) := by
  rw [mergeEntry,hname] at h
  simp only [Descriptor.find_of_mem hfield,hsingular,Bool.false_eq_true,if_false,htype] at h
  split at h
  · rw [if_neg hany] at h
    obtain ⟨inner,hinner,hset⟩ := bind_eq_ok.mp h
    exact ⟨_,inner,hinner,(Except.ok.inj hset).symm⟩
  · cases h

lemma mergeEntry_scalar (hfield : field ∈ (pool.descriptor type).fields) (htype : field.type = .scalar t)
    (hsingular : field.repeated = false) (hname : entry.1 = field.name)
    (h : mergeEntry lib pool merge type start m entry = .ok m') :
    Reads lib t (asString entry.2).toOption (m.getScalar field.name) (m'.getScalar field.name) := by
  rw [mergeEntry,hname] at h
  simp only [Descriptor.find_of_mem hfield,hsingular,Bool.false_eq_true,if_false,htype] at h
  obtain ⟨text,htext,hset⟩ := bind_eq_ok.mp h
  rw [htext]
  exact setFieldFromString_reads htype hset

lemma mergeEntry_get_ne (h : mergeEntry lib pool merge type start m entry = .ok m') (hk : k ≠ entry.1) :
    m'.get k = m.get k := by
  rw [mergeEntry] at h
  cases hfind : (pool.descriptor type).find entry.1 with
  | none =>
    simp only [hfind] at h
    cases h
    rfl
  | some field =>
    have hk : k ≠ field.name := fun heq => hk (heq.trans (Descriptor.name_of_find hfind))
    simp only [hfind] at h
    split at h
    · exact mergeRepeated_get_ne h hk
    split at h
    · obtain ⟨text,-,hset⟩ := bind_eq_ok.mp h
      exact setFieldFromString_get_ne hset hk
    split at h
    · split at h
      · exact mergeAnyYamlField_get_ne h hk
      · obtain ⟨inner,-,hset⟩ := bind_eq_ok.mp h
        cases hset
        exact Message.get_set_ne hk
    · cases h

lemma mergeYamlIntoProto_reads {depth : ℕ} {yaml : YamlNode} (hplace : Place pool type path field t)
    (h : mergeYamlIntoProto lib pool depth type start yaml m = .ok m') :
    Reads lib t (yamlText field.name path yaml) ((m.inside path).getScalar field.name)
      ((m'.inside path).getScalar field.name) := by
  obtain ⟨⟨target,hreaches,hmem⟩,hscalar,hsingular⟩ := hplace
  induction hreaches generalizing depth start yaml m m' with
  | @here type =>
    cases depth with
    | zero => cases h
    | succ depth =>
      cases yaml with
      | map entries =>
        refine foldlM_reads (fun m => (m.inside []).getScalar field.name) (fun m m' entry _ hstep => ?_) h
        by_cases hname : entry.1 = field.name
        · rw [if_pos hname]
          exact mergeEntry_scalar hmem hscalar hsingular hname hstep
        · rw [if_neg hname]
          exact getScalar_of_get_eq (mergeEntry_get_ne hstep (Ne.symm hname))
      | sequence items =>
        cases items with
        | nil =>
          cases h
          exact rfl
        | cons => cases h
      | _ =>
        cases h
        exact rfl
  | @nested type sub target path part hpart htype hone hany _ ih =>
    cases depth with
    | zero => cases h
    | succ depth =>
      cases yaml with
      | map entries =>
        refine foldlM_reads (fun m => (m.inside (part.name :: path)).getScalar field.name)
          (fun m m' entry _ hstep => ?_) h
        by_cases hname : entry.1 = part.name
        · rw [if_pos hname]
          obtain ⟨start',inner,hinner,rfl⟩ := mergeEntry_message hpart htype hone hany hname hstep
          simp only [Message.inside,Message.getMessage_set_self]
          exact ih hinner hmem
        · rw [if_neg hname]
          exact congrArg (fun m => Message.getScalar m field.name)
            (inside_of_get_eq (mergeEntry_get_ne hstep (Ne.symm hname)))
      | sequence items =>
        cases items with
        | nil =>
          cases h
          exact rfl
        | cons => cases h
      | _ =>
        cases h
        exact rfl

end Yaml

section Environment
variable {env : List (String × String)} {envStart upper : String}

lemma discoverFields_own {discover : String → String → Message → Except Failure Message}
    {fields : List FieldDescriptor} (hmem : field ∈ fields) (hdistinct : (fields.map FieldDescriptor.name).Nodup)
    (h : fields.foldlM (discoverField lib pool env discover envStart upper) m = .ok m') :
    ∃ m₁ m₂, discoverField lib pool env discover envStart upper m₁ field = .ok m₂ ∧
      m₁.get field.name = m.get field.name ∧ m'.get field.name = m₂.get field.name := by
  induction fields generalizing m with
  | nil => cases hmem
  | cons f rest ih =>
    obtain ⟨hnew,hdistinct⟩ := List.nodup_cons.mp hdistinct
    rw [List.foldlM_cons] at h
    obtain ⟨m₁,hfirst,hrest⟩ := bind_eq_ok.mp h
    rcases List.mem_cons.mp hmem with rfl | hmem
    · exact ⟨m,m₁,hfirst,rfl,discoverFields_get hrest hnew⟩
    · obtain ⟨a,b,hturn,hbefore,hafter⟩ := ih hmem hdistinct hrest
      have hne : field.name ≠ f.name := fun heq => hnew (heq ▸ List.mem_map_of_mem hmem)
      exact ⟨a,b,hturn,hbefore.trans (discoverField_get_ne hfirst hne),hafter⟩

lemma discoverAndApplyEnvVars_reads {depth : ℕ} (hplace : Place pool type path field t)
    (h : discoverAndApplyEnvVars lib pool env envStart depth type upper m = .ok m') :
    Reads lib t (envText env envStart field.name upper path) ((m.inside path).getScalar field.name)
      ((m'.inside path).getScalar field.name) := by
  obtain ⟨⟨target,hreaches,hmem⟩,hscalar,hsingular⟩ := hplace
  induction hreaches generalizing depth upper m m' with
  | @here type =>
    cases depth with
    | zero => cases h
    | succ depth =>
      obtain ⟨m₁,m₂,hturn,hbefore,hafter⟩ := discoverFields_own hmem (pool.descriptor type).distinct h
      rw [Message.inside,Message.inside,getScalar_of_get_eq hafter,← getScalar_of_get_eq hbefore,envText]
      rw [discoverField] at hturn
      simp only [hscalar] at hturn
      cases hvar : env.lookup (envStart ++ envPath upper field.name) with
      | none =>
        simp only [hvar] at hturn
        cases hturn
        exact rfl
      | some text =>
        simp only [hvar] at hturn
        exact setFieldFromString_reads hscalar hturn
  | @nested type sub target path part hpart htype hone hany _ ih =>
    cases depth with
    | zero => cases h
    | succ depth =>
      obtain ⟨m₁,m₂,hturn,hbefore,hafter⟩ := discoverFields_own hpart (pool.descriptor type).distinct h
      rw [inside_of_get_eq hafter,← inside_of_get_eq hbefore,envText]
      rw [discoverField] at hturn
      simp only [htype,hone,Bool.false_eq_true,if_false] at hturn
      obtain ⟨inner,hinner,hset⟩ := bind_eq_ok.mp hturn
      cases hset
      simp only [Message.inside,Message.getMessage_set_self]
      exact ih hinner hmem

end Environment

section Overrides
variable {text : String} {parts : List String}

lemma applyCliOverridePath_get_ne {part : String}
    (h : applyCliOverridePath lib pool text (part :: parts) type m = .ok m') (hk : k ≠ part) :
    m'.get k = m.get k := by
  rw [applyCliOverridePath] at h
  cases hfind : (pool.descriptor type).find part with
  | none =>
    simp only [hfind] at h
    cases h
    rfl
  | some field =>
    have hk : k ≠ field.name := fun heq => hk (heq.trans (Descriptor.name_of_find hfind))
    simp only [hfind] at h
    split at h
    · split at h
      · cases h
        rfl
      · exact setFieldFromString_get_ne h hk
    · exact setFieldFromString_get_ne h hk
    · cases h
      rfl
    · split at h
      · cases h
      · obtain ⟨inner,-,hset⟩ := bind_eq_ok.mp h
        cases hset
        exact Message.get_set_ne hk

lemma applyCliOverridePath_reads (hplace : Place pool type path field t)
    (h : applyCliOverridePath lib pool text parts type m = .ok m') :
    Reads lib t (if parts = path ++ [field.name] then some text else none) ((m.inside path).getScalar field.name)
      ((m'.inside path).getScalar field.name) := by
  obtain ⟨⟨target,hreaches,hmem⟩,hscalar,hsingular⟩ := hplace
  induction hreaches generalizing parts m m' with
  | @here type =>
    cases parts with
    | nil =>
      cases h
      exact rfl
    | cons part parts =>
      by_cases hpart : part = field.name
      · subst hpart
        rw [applyCliOverridePath] at h
        simp only [Descriptor.find_of_mem hmem] at h
        cases parts with
        | nil =>
          simp only [hscalar] at h
          rw [List.nil_append,if_pos rfl]
          exact setFieldFromString_reads hscalar h
        | cons part' parts =>
          simp only [hscalar] at h
          cases h
          rw [if_neg (by simp)]
          exact rfl
      · rw [if_neg (by simp [hpart])]
        exact getScalar_of_get_eq (applyCliOverridePath_get_ne h (Ne.symm hpart))
  | @nested type sub target path f hf htype hone hany _ ih =>
    cases parts with
    | nil =>
      cases h
      exact rfl
    | cons part parts =>
      by_cases hpart : part = f.name
      · subst hpart
        rw [applyCliOverridePath] at h
        simp only [Descriptor.find_of_mem hf,htype] at h
        cases parts with
        | nil =>
          simp only [hone,Bool.false_eq_true,if_false,setFieldFromString,htype] at h
          cases h
        | cons part' parts =>
          simp only [hone,Bool.false_eq_true,if_false] at h
          obtain ⟨inner,hinner,hset⟩ := bind_eq_ok.mp h
          cases hset
          simp only [Message.inside,Message.getMessage_set_self,List.cons_append,List.cons.injEq,true_and]
          exact ih hinner hmem
      · rw [if_neg (by simp [hpart])]
        exact congrArg (fun m => Message.getScalar m field.name)
          (inside_of_get_eq (applyCliOverridePath_get_ne h (Ne.symm hpart)))

lemma applyCliOverride_reads {override : String} (hplace : Place pool type path field t)
    (h : applyCliOverride lib pool type m override = .ok m') :
    Reads lib t (overrideText field.name path override) ((m.inside path).getScalar field.name)
      ((m'.inside path).getScalar field.name) := by
  rw [applyCliOverride] at h
  rw [overrideText]
  cases hsplit : splitOverride override with
  | none =>
    rw [hsplit] at h
    cases h
    exact rfl
  | some split =>
    rw [hsplit] at h
    exact applyCliOverridePath_reads hplace h

end Overrides

lemma mergeSources_reads {depth : ℕ} {service : Service} {sources : Sources} (hplace : Place pool service.type path field t)
    (h : mergeSources lib pool depth service sources = .ok m) :
    Reads lib t (sources.text service path field.name) (Message.getScalar (Message.inside [] path) field.name)
      ((m.inside path).getScalar field.name) := by
  obtain ⟨m₁,hfile,h⟩ := bind_eq_ok.mp h
  obtain ⟨m₂,henv,hcli⟩ := bind_eq_ok.mp h
  have hfirst : Reads lib t (fileText field.name path sources.file)
      (Message.getScalar (Message.inside [] path) field.name) ((m₁.inside path).getScalar field.name) := by
    rw [mergeFile] at hfile
    cases hsource : sources.file with
    | absent =>
      rw [hsource] at hfile
      cases hfile
      exact rfl
    | unparsable message =>
      rw [hsource] at hfile
      cases hfile
    | yaml root =>
      rw [hsource] at hfile
      cases root with
      | map entries => exact mergeYamlIntoProto_reads hplace hfile
      | _ => cases hfile
  have hsecond := discoverAndApplyEnvVars_reads hplace henv
  exact (hfirst.trans hsecond).trans (foldlM_reads (fun m => (m.inside path).getScalar field.name)
    (fun m m' override _ hstep => applyCliOverride_reads hplace hstep) hcli)

end Layers

section Validated
variable {lib : Library} {pool : Pool} {t : ScalarType} {type : String} {path : List String}
  {field : FieldDescriptor} {m : Message}

lemma validateMessage_field {depth : ℕ} {start : String} (hplace : Place pool type path field t)
    (h : validateMessage lib pool depth type start m = .ok ()) :
    ∃ start', validateScalar lib t start' field (m.inside path) = .ok () := by
  obtain ⟨⟨target,hreaches,hmem⟩,hscalar,hsingular⟩ := hplace
  induction hreaches generalizing depth start m with
  | @here type =>
    cases depth with
    | zero => cases h
    | succ depth =>
      have hcheck := forM_eq_ok.mp h field hmem
      rw [validateField] at hcheck
      simp only [hscalar,hsingular,Bool.false_eq_true,if_false] at hcheck
      exact ⟨_,hcheck⟩
  | @nested type sub target path part hpart htype hone hany _ ih =>
    cases depth with
    | zero => cases h
    | succ depth =>
      have hcheck := forM_eq_ok.mp h part hpart
      rw [validateField] at hcheck
      simp only [htype,hone,Bool.false_eq_true,if_false] at hcheck
      exact ih hcheck hmem

end Validated

section Numerals

lemma parseScalar_numeral (lib : Library) {text : String} {n : ℕ} (h : IsNumeral text n) (hfits : n < 2^32) :
    parseScalar lib .uint32 text = .ok (.uint32 (UInt32.ofNat n)) := by
  have hread : stoull text = .ok (UInt64.ofNat n) := stoull_numeral h (by omega)
  rw [parseScalar,hread,← UInt64.toUInt32_ofNat']
  rfl

end Numerals

section Ranges
variable {lib : Library} {field : FieldDescriptor} {m : Message} {start : String} {value : UInt32} {min max : UInt64}
  {info : FieldValueInfo}

structure Ranges (field : FieldDescriptor) (min max : UInt64) : Prop where
  min : ∃ text, field.options.rangeMin = some text ∧ stoull text = .ok min
  max : ∃ text, field.options.rangeMax = some text ∧ stoull text = .ok max

lemma checkBound_number {beyond : UInt64 → UInt64 → Bool} {what bound : String} {number limit : UInt64}
    (hinfo : info.numVal = some number) (hbound : stoull bound = .ok limit) :
    checkBound beyond what start info (some bound) =
      if beyond number limit then .error (fieldError start (info.strVal ++ what ++ bound)) else .ok () := by
  unfold checkBound
  simp only [hinfo,hbound]
  rfl

lemma validateFieldValue_number (h : Ranges field min max) {number : UInt64}
    (hinfo : info.numVal = some number) :
    (min ≤ number ∧ number ≤ max) ∨ ∃ message, validateFieldValue lib start field.options info = .error (.status message) := by
  obtain ⟨⟨minText,hmin,hminText⟩,maxText,hmax,hmaxText⟩ := h
  rw [validateFieldValue,hmin,hmax,checkBound_number hinfo hminText,checkBound_number hinfo hmaxText]
  by_cases hlow : number < min
  · rw [if_pos (decide_eq_true hlow)]
    exact .inr ⟨_,rfl⟩
  by_cases hhigh : number > max
  · rw [if_neg (by simpa using hlow),if_pos (decide_eq_true hhigh)]
    exact .inr ⟨_,rfl⟩
  · exact .inl ⟨UInt64.not_lt.mp hlow,UInt64.not_lt.mp hhigh⟩

lemma validateScalar_number (h : Ranges field min max) (hvalue : m.getScalar field.name = some (.uint32 value))
    (hzero : value = 0 → field.options.required = true ∨ field.optional = true ∨ min = 0) :
    (min ≤ value.toUInt64 ∧ value.toUInt64 ≤ max) ∨
      ∃ message, validateScalar lib .uint32 start field m = .error (.status message) := by
  rw [validateScalar]
  cases hhas : m.hasScalar field with
  | true =>
    rw [if_pos rfl,hvalue]
    exact validateFieldValue_number h rfl
  | false =>
    rw [if_neg (by simp)]
    simp only [Message.hasScalar,hvalue,ScalarValue.isDefault,Bool.or_eq_false_iff,Bool.not_eq_false',
      decide_eq_true_eq] at hhas
    obtain ⟨hnot,rfl⟩ := hhas
    rcases hzero rfl with hrequired | hoptional | rfl
    · rw [if_pos hrequired]
      exact .inr ⟨_,rfl⟩
    · cases hnot.symm.trans hoptional
    · exact .inl ⟨UInt64.le_refl _,UInt64.zero_le⟩

end Ranges

/-- A gateway whose file gives one port and the command line another. -/
def portSources (port : String) : Sources where
  file := .yaml (.map [("http_listener",.map [("port",.scalar false "9090")]),
    ("schedulers",.sequence [.map [("task_type",.scalar true "batch")]])])
  overrides := ["http_listener.port=" ++ port]

def gatewayService : Service := ⟨"strij.config.GatewayConfig","GATEWAY"⟩

def loadedPort (sources : Sources) : Except Failure (Option ScalarValue) :=
  (loadConfig plainLibrary gatewayPool 4 gatewayService sources).map
    fun config => (config.inside ["http_listener"]).getScalar "port"

lemma inside_nil (path : List String) : Message.inside [] path = [] := by
  induction path with
  | nil => rfl
  | cons part path ih => exact ih

def levelSources : Sources where
  file := .yaml (.map [("http_listener",.map [("port",.scalar false "9090")]),
    ("logging",.map [("level",.scalar false "warn")]),
    ("schedulers",.sequence [.map [("task_type",.scalar true "batch")]])])
  env := [("STRIJ_GATEWAY_LOGGING_LEVEL","debug")]

end Strij.Config
