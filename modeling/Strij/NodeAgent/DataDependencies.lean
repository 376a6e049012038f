import Mathlib.Data.List.AList
import Strij.Lib.Checks
import Strij.Wire.TaskMessages

/-! The data dependencies of tasks: the objects that were fetched, and which of a task's dependencies the
node still has to wait for. -/
namespace Strij.NodeAgent
open Strij.Lib Strij.Wire

structure InMemoryObjectCache where
  objects : AList (fun _ : String => String) := ∅

namespace InMemoryObjectCache
variable (cache : InMemoryObjectCache)

def cacheKey (ref : DataRef) : String := ref.source ++ ":" ++ ref.key

def populate (ref : DataRef) (data : String) : InMemoryObjectCache :=
  { cache with objects := cache.objects.insert (cacheKey ref) data }

def isCached (ref : DataRef) : Bool := cacheKey ref ∈ cache.objects

def populateAll (calls : List (DataRef × String)) : InMemoryObjectCache :=
  calls.foldl (fun cache call => cache.populate call.1 call.2) cache

variable {cache} {ref other : DataRef}

lemma isCached_populate {data : String} :
    (cache.populate other data).isCached ref = true ↔ cacheKey other = cacheKey ref ∨ cache.isCached ref = true := by
  simp only [isCached,populate,decide_eq_true_iff,AList.mem_insert,eq_comm (a := cacheKey other)]

lemma isCached_populateAll {calls : List (DataRef × String)} : (cache.populateAll calls).isCached ref = true ↔
    (∃ call ∈ calls, cacheKey call.1 = cacheKey ref) ∨ cache.isCached ref = true := by
  induction calls generalizing cache with
  | nil => simp [populateAll]
  | cons call calls ih =>
    rw [populateAll,List.foldl_cons,← populateAll,ih,isCached_populate,List.exists_mem_cons_iff,or_left_comm,
      or_assoc]

/-- Without a separator in the sources the key of an object tells its source from the rest. -/
lemma cacheKey_eq_iff (h : ':' ∉ ref.source.toList) (h' : ':' ∉ other.source.toList) :
    cacheKey other = cacheKey ref ↔ other.source = ref.source ∧ other.key = ref.key := by
  refine ⟨fun heq => ?_,fun ⟨hsource,hkey⟩ => by rw [cacheKey,cacheKey,hsource,hkey]⟩
  have hlist : other.source.toList ++ ':' :: other.key.toList = ref.source.toList ++ ':' :: ref.key.toList := by
    simpa [cacheKey] using congrArg String.toList heq
  have hstart {source : List Char} (rest : List Char) (h : ':' ∉ source) :
      (source ++ ':' :: rest).takeWhile (· ≠ ':') = source := by
    rw [List.takeWhile_append_of_pos]
    · simp
    · rintro c hc
      exact decide_eq_true (ne_of_mem_of_not_mem hc h)
  have hsource : other.source.toList = ref.source.toList := by
    rw [← hstart other.key.toList h',hlist,hstart ref.key.toList h]
  rw [hsource,List.append_cancel_left_eq,List.cons.injEq] at hlist
  exact ⟨String.toList_injective hsource,String.toList_injective hlist.2⟩

end InMemoryObjectCache

structure DataDependencyFetcherRouter where
  cache : InMemoryObjectCache := {}
  bySource : List String := []

namespace DataDependencyFetcherRouter
variable (router : DataDependencyFetcherRouter)

def allCached (deps : List DataRef) : Bool :=
  deps.all (fun ref => !router.bySource.contains ref.source || router.cache.isCached ref)

/-- A dependency can be fetched and is not there. -/
def Missing (deps : List DataRef) : Prop :=
  ∃ ref ∈ deps, ref.source ∈ router.bySource ∧ router.cache.isCached ref = false

def claimScheme (known : List String) (scheme : String) : Except String (List String) :=
  if scheme ∈ known then
    .error ("Duplicate source scheme '" ++ scheme ++ "' claimed by more than one data dependency fetcher")
  else .ok (known ++ [scheme])

def build (cache : InMemoryObjectCache) (fetchers : List (List String)) :
    Except String DataDependencyFetcherRouter := do
  return { cache := cache, bySource := ← fetchers.flatten.foldlM claimScheme [] }

lemma foldlM_claimScheme {schemes known known' : List String} (h : schemes.foldlM claimScheme known = .ok known') :
    known' = known ++ schemes := by
  induction schemes generalizing known with
  | nil =>
    cases h
    exact (List.append_nil _).symm
  | cons scheme schemes ih =>
    rw [List.foldlM_cons,claimScheme] at h
    split at h
    · cases h
    · rw [ih h,List.append_assoc,List.singleton_append]

lemma build_eq_ok {cache : InMemoryObjectCache} {fetchers : List (List String)} {router : DataDependencyFetcherRouter}
    (h : build cache fetchers = .ok router) : router = { cache := cache, bySource := fetchers.flatten } := by
  obtain ⟨known,hknown,heq⟩ := bind_eq_ok.mp h
  cases heq
  rw [foldlM_claimScheme hknown,List.nil_append]

/-- Each of the references that a fetcher takes was populated. -/
def Populated (calls : List (DataRef × String)) (deps : List DataRef) : Prop :=
  ∀ ref ∈ deps, ref.source ∈ router.bySource →
    ∃ call ∈ calls, call.1.source = ref.source ∧ call.1.key = ref.key

lemma allCached_iff_populated {calls : List (DataRef × String)}
    (hschemes : ∀ scheme ∈ router.bySource, ':' ∉ scheme.toList) (hcalls : ∀ call ∈ calls, ':' ∉ call.1.source.toList)
    (deps : List DataRef) : ({ router with cache := InMemoryObjectCache.populateAll {} calls } :
      DataDependencyFetcherRouter).allCached deps = true ↔ router.Populated calls deps := by
  rw [allCached,List.all_eq_true]
  refine forall₂_congr fun ref _ => ?_
  rw [Bool.or_eq_true,Bool.not_eq_true',List.contains_eq_mem,decide_eq_false_iff_not,← imp_iff_not_or,
    InMemoryObjectCache.isCached_populateAll]
  refine imp_congr_right fun hsource => ?_
  have hempty : InMemoryObjectCache.isCached {} ref = false := rfl
  rw [hempty,or_iff_left Bool.false_ne_true]
  exact exists_congr fun call => and_congr_right fun hcall =>
    InMemoryObjectCache.cacheKey_eq_iff (hschemes _ hsource) (hcalls call hcall)

lemma allCached_eq_false {deps : List DataRef} : router.allCached deps = false ↔ router.Missing deps := by
  simp [allCached,Missing]

end DataDependencyFetcherRouter
end Strij.NodeAgent
