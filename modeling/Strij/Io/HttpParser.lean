import Strij.Lib.Runs
import Strij.Lib.Slice

/-! The HTTP parser over its chunks: it notes the ranges of the body that the library reports, and puts the body
together when the message is complete. -/
namespace Strij.Io.Http
open Strij.Lib

def chunkSize : ℕ := 4096

structure BodySpan where
  start : ℕ
  size : ℕ
  deriving DecidableEq, Repr

structure Chunk where
  data : List UInt8
  size : data.length = chunkSize
  writeCursor : ℕ := 0
  bodies : List BodySpan := []

namespace Chunk

def fresh : Chunk := { data := List.replicate chunkSize 0, size := List.length_replicate }

def room (c : Chunk) : ℕ := c.data.length-c.writeCursor

def advanceCursor (n : ℕ) (c : Chunk) : Chunk := { c with writeCursor := c.writeCursor+n }

def addBody (start size : ℕ) (c : Chunk) : Chunk := { c with bodies := c.bodies ++ [⟨start,size⟩] }

def hasBodies (c : Chunk) : Bool := ¬c.bodies.isEmpty

def isFull (c : Chunk) : Bool := c.writeCursor ≥ c.data.length

def bytes (c : Chunk) (span : BodySpan) : List UInt8 := slice c.data span.start span.size

/-- The kernel's write into the writable span. -/
def store (bytes : List UInt8) (c : Chunk) : Chunk :=
  if h : c.writeCursor+bytes.length ≤ chunkSize then { c with
    data := splice c.data c.writeCursor bytes
    size := by rw [splice_length (by rw [c.size]; exact h),c.size] }
  else c

end Chunk

structure HttpRequest where
  path : List UInt8
  body : List UInt8
  headers : List (List UInt8 × List UInt8)
  deriving DecidableEq, Repr

/-- A call of the library; a part of the body is a range of the bytes that the library was given. -/
inductive Callback
  | url (text : List UInt8)
  | headerField (text : List UInt8)
  | headerValue (text : List UInt8)
  | headerValueComplete
  | headersComplete
  | body (start length : ℕ)
  | messageComplete
  deriving DecidableEq, Repr

/-- The library: what it calls when it is given bytes, with ranges of these bytes. -/
structure Llhttp (S : Type*) where
  execute : S → List UInt8 → List Callback × S
  inRange : ∀ s data start length, .body start length ∈ (execute s data).1 → start+length ≤ data.length

structure LlhttpParser (S : Type*) where
  parser : S
  activeChunk : Chunk := .fresh
  isMessageComplete : Bool := false
  bodyChunks : List Chunk := []
  path : List UInt8 := []
  headers : List (List UInt8 × List UInt8) := []
  headerField : List UInt8 := []
  headerValue : List UInt8 := []
  headerFieldPending : Bool := false
  messages : List HttpRequest := []

inductive Action
  | needMoreData
  | messageComplete
  deriving DecidableEq, Repr

namespace LlhttpParser
variable {S : Type*} (p : LlhttpParser S)

def getReadBuffer : LlhttpParser S :=
  if p.activeChunk.isFull then { p with bodyChunks := p.bodyChunks ++ [p.activeChunk], activeChunk := .fresh }
  else p

def onMessage (body : List UInt8) : LlhttpParser S :=
  { p with messages := p.messages ++ [⟨p.path,body,p.headers⟩], headers := [] }

def copiedBody : List UInt8 :=
  p.bodyChunks.flatMap (fun chunk => chunk.bodies.flatMap chunk.bytes) ++
    p.activeChunk.bodies.flatMap p.activeChunk.bytes

def finalizeMessage : LlhttpParser S :=
  if ¬p.activeChunk.hasBodies ∧ p.bodyChunks.isEmpty then p.onMessage []
  else
    match p.bodyChunks,p.activeChunk.bodies with
    | [],[span] => p.onMessage (p.activeChunk.bytes span)
    | [chunk],[] =>
      match chunk.bodies with
      | [span] => { p.onMessage (chunk.bytes span) with bodyChunks := [] }
      | _ => { p.onMessage p.copiedBody with bodyChunks := [] }
    | _,_ => { p.onMessage p.copiedBody with bodyChunks := [] }

def flushHeader : LlhttpParser S :=
  if p.headerFieldPending then { p with
    headers := p.headers ++ [(p.headerField,p.headerValue)]
    headerField := []
    headerValue := []
    headerFieldPending := false }
  else p

def callback (offset : ℕ) : Callback → LlhttpParser S
  | .url text => { p with path := p.path ++ text }
  | .headerField text => { p with headerField := p.headerField ++ text, headerFieldPending := true }
  | .headerValue text => { p with headerValue := p.headerValue ++ text }
  | .headerValueComplete => p.flushHeader
  | .headersComplete => p.flushHeader
  | .body start length => { p with activeChunk := p.activeChunk.addBody (offset+start) length }
  | .messageComplete => { p with isMessageComplete := true }

variable (llhttp : Llhttp S)

def parse (offset length : ℕ) : LlhttpParser S :=
  let r := llhttp.execute p.parser (slice p.activeChunk.data offset length)
  r.1.foldl (fun p c => p.callback offset c) { p with parser := r.2 }

def onData (bytesRead : ℕ) : Action × LlhttpParser S :=
  let p := p.parse llhttp p.activeChunk.writeCursor bytesRead
  let p := { p with activeChunk := p.activeChunk.advanceCursor bytesRead }
  if p.isMessageComplete then (.messageComplete,p.finalizeMessage) else (.needMoreData,p)

def read (llhttp : Llhttp S) (p : LlhttpParser S) (data : List UInt8) : Option (LlhttpParser S) :=
  let p := p.getReadBuffer
  if data.length ≤ p.activeChunk.room then
    some (onData { p with activeChunk := p.activeChunk.store data } llhttp data.length).2
  else none

end LlhttpParser

def Callback.part (data : List UInt8) : Callback → List UInt8
  | .body start length => slice data start length
  | _ => []

def Callback.text : Callback → List UInt8
  | .url text => text
  | _ => []

def Callback.span (offset : ℕ) : Callback → Option BodySpan
  | .body start length => some ⟨offset+start,length⟩
  | _ => none

def trace {S : Type*} (llhttp : Llhttp S) : S → List (List UInt8) → List (List UInt8 × List Callback)
  | _,[] => []
  | s,data :: reads => (data,(llhttp.execute s data).1) :: trace llhttp (llhttp.execute s data).2 reads

def bodyOf (t : List (List UInt8 × List Callback)) : List UInt8 := t.flatMap (fun r => r.2.flatMap (Callback.part r.1))

def callsOf (t : List (List UInt8 × List Callback)) : List Callback := t.flatMap Prod.snd

structure HeaderState where
  headers : List (List UInt8 × List UInt8) := []
  field : List UInt8 := []
  value : List UInt8 := []
  pending : Bool := false
  deriving DecidableEq, Repr

namespace HeaderState

def flush (h : HeaderState) : HeaderState :=
  if h.pending then { headers := h.headers ++ [(h.field,h.value)] } else h

def call (h : HeaderState) : Callback → HeaderState
  | .headerField text => { h with field := h.field ++ text, pending := true }
  | .headerValue text => { h with value := h.value ++ text }
  | .headerValueComplete | .headersComplete => h.flush
  | _ => h

end HeaderState

namespace LlhttpParser
variable {S : Type*} {p : LlhttpParser S} {llhttp : Llhttp S}
  {t : List (List UInt8 × List Callback)} {q : LlhttpParser S}

def headerState (p : LlhttpParser S) : HeaderState := ⟨p.headers,p.headerField,p.headerValue,p.headerFieldPending⟩

lemma flushHeader_eq : p.flushHeader = { p with
    headers := p.headerState.flush.headers
    headerField := p.headerState.flush.field
    headerValue := p.headerState.flush.value
    headerFieldPending := p.headerState.flush.pending } := by
  have hflush : p.headerState.flush = if p.headerFieldPending then { headers := p.headers ++ [(p.headerField,p.headerValue)] }
      else p.headerState := rfl
  rw [flushHeader,hflush]
  split <;> rfl

structure Called (p : LlhttpParser S) (offset : ℕ) (calls : List Callback) (q : LlhttpParser S) : Prop where
  parser : q.parser = p.parser
  active : q.activeChunk = { p.activeChunk with
    bodies := p.activeChunk.bodies ++ calls.filterMap (Callback.span offset) }
  chunks : q.bodyChunks = p.bodyChunks
  path : q.path = p.path ++ calls.flatMap Callback.text
  header : q.headerState = calls.foldl HeaderState.call p.headerState
  complete : q.isMessageComplete = (p.isMessageComplete || calls.contains .messageComplete)
  messages : q.messages = p.messages

lemma Called.cons {offset : ℕ} {c : Callback} {calls : List Callback}
    (h : Called (p.callback offset c) offset calls q) : Called p offset (c :: calls) q := by
  obtain ⟨hparser,hactive,hchunks,hpath,hheader,hcomplete,hmessages⟩ := h
  cases c with
  | url text =>
    exact ⟨hparser,hactive,hchunks,hpath.trans (List.append_assoc _ _ _),hheader,hcomplete,hmessages⟩
  | headerField text => exact ⟨hparser,hactive,hchunks,hpath,hheader,hcomplete,hmessages⟩
  | headerValue text => exact ⟨hparser,hactive,hchunks,hpath,hheader,hcomplete,hmessages⟩
  | headerValueComplete | headersComplete =>
    simp only [callback,flushHeader_eq] at *
    exact ⟨hparser,hactive,hchunks,hpath,hheader,hcomplete,hmessages⟩
  | body start length =>
    refine ⟨hparser,hactive.trans ?_,hchunks,hpath,hheader,hcomplete,hmessages⟩
    simp [callback,Chunk.addBody,Callback.span]
  | messageComplete =>
    refine ⟨hparser,hactive,hchunks,hpath,hheader,hcomplete.trans ?_,hmessages⟩
    simp [callback]

lemma foldl_callback (p : LlhttpParser S) (offset : ℕ) (calls : List Callback) :
    Called p offset calls (calls.foldl (fun p c => p.callback offset c) p) := by
  induction calls generalizing p with
  | nil => exact ⟨rfl,by simp,rfl,by simp,rfl,by simp,rfl⟩
  | cons c calls ih => exact (ih (p.callback offset c)).cons

lemma flatMap_spans (c : Chunk) (offset : ℕ) {n : ℕ} {calls : List Callback}
    (h : ∀ start length, .body start length ∈ calls → start+length ≤ n) :
    (calls.filterMap (Callback.span offset)).flatMap c.bytes = calls.flatMap (Callback.part (slice c.data offset n)) := by
  induction calls with
  | nil => rfl
  | cons x calls ih =>
    have hrest := ih fun start length hmem => h start length (List.mem_cons_of_mem _ hmem)
    cases x with
    | body start length =>
      have hpart : c.bytes ⟨offset+start,length⟩ = slice (slice c.data offset n) start length :=
        (slice_slice _ (h start length List.mem_cons_self)).symm
      exact congrArg₂ (· ++ ·) hpart hrest
    | _ => exact hrest

structure Collected (p : LlhttpParser S) (t : List (List UInt8 × List Callback)) : Prop where
  body : p.copiedBody = bodyOf t
  within : ∀ span ∈ p.activeChunk.bodies, span.start+span.size ≤ p.activeChunk.writeCursor
  path : p.path = (callsOf t).flatMap Callback.text
  header : p.headerState = (callsOf t).foldl HeaderState.call {}
  complete : p.isMessageComplete = (callsOf t).contains .messageComplete
  messages : p.messages = []

lemma Collected.getReadBuffer (h : p.Collected t) : p.getReadBuffer.Collected t := by
  rw [LlhttpParser.getReadBuffer]
  split
  · refine ⟨?_,nofun,h.path,h.header,h.complete,h.messages⟩
    rw [← h.body]
    simp [copiedBody,Chunk.fresh]
  · exact h

lemma Collected.store (h : p.Collected t) (data : List UInt8)
    (hroom : p.activeChunk.writeCursor+data.length ≤ chunkSize) :
    Collected { p with activeChunk := p.activeChunk.store data } t ∧
      slice (p.activeChunk.store data).data p.activeChunk.writeCursor data.length = data ∧
      (p.activeChunk.store data).writeCursor = p.activeChunk.writeCursor := by
  have hstore : p.activeChunk.store data = { p.activeChunk with
      data := splice p.activeChunk.data p.activeChunk.writeCursor data
      size := by rw [splice_length (by rw [p.activeChunk.size]; exact hroom),p.activeChunk.size] } := dif_pos hroom
  have hsize := p.activeChunk.size
  rw [hstore]
  refine ⟨⟨?_,h.within,h.path,h.header,h.complete,h.messages⟩,slice_splice_self (by omega),rfl⟩
  rw [← h.body,copiedBody,copiedBody]
  refine congrArg (p.bodyChunks.flatMap (fun chunk => chunk.bodies.flatMap chunk.bytes) ++ ·) ?_
  refine List.flatMap_congr fun span hspan => ?_
  exact slice_splice_before (h.within span hspan) (by omega)

def received (p : LlhttpParser S) (llhttp : Llhttp S) (data : List UInt8) : LlhttpParser S :=
  let p := { p.getReadBuffer with activeChunk := p.getReadBuffer.activeChunk.store data }
  let p := p.parse llhttp p.activeChunk.writeCursor data.length
  { p with activeChunk := p.activeChunk.advanceCursor data.length }

lemma read_eq (data : List UInt8) : p.read llhttp data =
    if data.length ≤ p.getReadBuffer.activeChunk.room then
      some (if (p.received llhttp data).isMessageComplete then (p.received llhttp data).finalizeMessage
        else p.received llhttp data) else none := by
  rw [read]
  split
  · rw [onData]
    split
    · next hcomplete => exact congrArg some (if_pos hcomplete).symm
    · next hcomplete => exact congrArg some (if_neg hcomplete).symm
  · rfl

lemma getReadBuffer_room (p : LlhttpParser S) : p.getReadBuffer.activeChunk.writeCursor < chunkSize := by
  rw [getReadBuffer]
  split
  · exact Nat.zero_lt_succ _
  · next hfull =>
    rw [Chunk.isFull,p.activeChunk.size] at hfull
    simpa using hfull

lemma getReadBuffer_keeps (p : LlhttpParser S) : p.getReadBuffer.parser = p.parser := by
  rw [getReadBuffer]
  split <;> rfl

lemma bodyOf_append (t u : List (List UInt8 × List Callback)) : bodyOf (t ++ u) = bodyOf t ++ bodyOf u :=
  List.flatMap_append

lemma callsOf_snoc (t : List (List UInt8 × List Callback)) (data : List UInt8) (calls : List Callback) :
    callsOf (t ++ [(data,calls)]) = callsOf t ++ calls := by
  simp [callsOf]

lemma Collected.parse {data : List UInt8} (h : p.Collected t)
    (hdata : slice p.activeChunk.data p.activeChunk.writeCursor data.length = data) :
    let q := p.parse llhttp p.activeChunk.writeCursor data.length
    Collected { q with activeChunk := q.activeChunk.advanceCursor data.length }
        (t ++ [(data,(llhttp.execute p.parser data).1)]) ∧
      q.parser = (llhttp.execute p.parser data).2 := by
  have hrange := llhttp.inRange p.parser data
  have hcalled := foldl_callback { p with parser := (llhttp.execute p.parser data).2 } p.activeChunk.writeCursor
    (llhttp.execute p.parser data).1
  simp only [LlhttpParser.parse,hdata]
  generalize (llhttp.execute p.parser data).1 = calls at hrange hcalled ⊢
  obtain ⟨hparser,hactive,hchunks,hpath,hheader,hcomplete,hmessages⟩ := hcalled
  refine ⟨⟨?_,fun span hspan => ?_,?_,?_,?_,?_⟩,hparser⟩
  · have hparts := flatMap_spans p.activeChunk p.activeChunk.writeCursor hrange
    rw [hdata] at hparts
    simp only [copiedBody,hchunks,hactive,Chunk.advanceCursor]
    change p.bodyChunks.flatMap _ ++ List.flatMap p.activeChunk.bytes (_ ++ _) = _
    rw [List.flatMap_append,hparts,← List.append_assoc,bodyOf_append,← h.body]
    simp [bodyOf,copiedBody]
  · simp only [hactive,Chunk.advanceCursor] at hspan ⊢
    rcases List.mem_append.mp hspan with hspan | hspan
    · have hbefore := h.within span hspan
      omega
    · obtain ⟨c,hc,hreported⟩ := List.mem_filterMap.mp hspan
      cases c with
      | body start length =>
        obtain rfl := Option.some.inj hreported
        have hend := hrange start length hc
        simp only
        omega
      | _ => cases hreported
  · rw [hpath,callsOf_snoc,List.flatMap_append,← h.path]
  · rw [callsOf_snoc,List.foldl_append,← h.header]
    exact hheader
  · rw [callsOf_snoc]
    rw [hcomplete,h.complete]
    simp
  · exact hmessages.trans h.messages

lemma Collected.received {data : List UInt8} (h : p.Collected t)
    (llhttp : Llhttp S) (hroom : data.length ≤ p.getReadBuffer.activeChunk.room) :
    (p.received llhttp data).Collected (t ++ [(data,(llhttp.execute p.parser data).1)]) ∧
      (p.received llhttp data).parser = (llhttp.execute p.parser data).2 := by
  have hcursor := p.getReadBuffer_room
  rw [Chunk.room,p.getReadBuffer.activeChunk.size] at hroom
  obtain ⟨hstored,hslice,hsame⟩ := h.getReadBuffer.store data (by omega)
  rw [← p.getReadBuffer_keeps]
  exact hstored.parse (by rw [hsame]; exact hslice)

lemma finalizeMessage_messages (p : LlhttpParser S) :
    p.finalizeMessage.messages = p.messages ++ [⟨p.path,p.copiedBody,p.headers⟩] := by
  rw [finalizeMessage]
  split
  · next hnone =>
    have hbody : p.copiedBody = [] := by
      obtain ⟨hactive,hchunks⟩ := hnone
      simp only [Chunk.hasBodies,decide_eq_true_eq,Decidable.not_not,List.isEmpty_iff] at hactive hchunks
      rw [copiedBody,hactive,hchunks]
      rfl
    rw [hbody]
    rfl
  · split
    · next span hchunks hbodies =>
      have hbody : p.copiedBody = p.activeChunk.bytes span := by
        rw [copiedBody,hchunks,hbodies]
        simp
      rw [hbody]
      rfl
    · next chunk hchunks hbodies =>
      split
      · next span hspan =>
        have hbody : p.copiedBody = chunk.bytes span := by
          rw [copiedBody,hchunks,hbodies]
          simp [hspan]
        rw [hbody]
        rfl
      · rfl
    · rfl

lemma Collected.init (s : S) : Collected { parser := s } [] := ⟨rfl,nofun,rfl,rfl,rfl,rfl⟩

lemma Collected.run (h : p.Collected t) {reads : List (List UInt8)}
    (hrun : runAll (read llhttp) p reads = some q)
    (hopen : .messageComplete ∉ callsOf (t ++ trace llhttp p.parser reads)) :
    q.Collected (t ++ trace llhttp p.parser reads) ∧ ∀ later,
      trace llhttp p.parser (reads ++ later) = trace llhttp p.parser reads ++ trace llhttp q.parser later := by
  induction reads generalizing p t with
  | nil =>
    cases hrun
    rw [trace,List.append_nil]
    exact ⟨h,fun later => rfl⟩
  | cons data reads ih =>
    obtain ⟨m,hread,hrest⟩ := Option.bind_eq_some_iff.mp hrun
    rw [read_eq] at hread
    split at hread
    · next hroom =>
      obtain ⟨hreceived,hparser⟩ := h.received llhttp hroom
      have hsplit : t ++ trace llhttp p.parser (data :: reads) =
          t ++ [(data,(llhttp.execute p.parser data).1)] ++ trace llhttp (p.received llhttp data).parser reads := by
        rw [hparser,trace,List.append_assoc,List.singleton_append]
      have hincomplete : ¬(p.received llhttp data).isMessageComplete = true := by
        rw [hreceived.complete,List.contains_iff_mem]
        intro hmem
        rw [hsplit,callsOf,List.flatMap_append] at hopen
        exact hopen (List.mem_append_left _ hmem)
      rw [if_neg hincomplete] at hread
      obtain rfl := Option.some.inj hread
      obtain ⟨hcollected,hlater⟩ := ih hreceived hrest (hsplit ▸ hopen)
      refine ⟨hsplit ▸ hcollected,fun later => ?_⟩
      rw [List.cons_append,trace,trace,← hparser,hlater,List.cons_append]
    · cases hread

end LlhttpParser

/-- How the library reports a header: its name and its value in parts, and then that the value or all headers are
complete. -/
structure HeaderReport where
  field : List (List UInt8)
  value : List (List UInt8)
  named : field ≠ []
  /-- The value's completion is not reported, but that of all headers. -/
  last : Bool := false

namespace HeaderReport

def calls (h : HeaderReport) : List Callback :=
  h.field.map .headerField ++ h.value.map .headerValue ++
    [if h.last then .headersComplete else .headerValueComplete]

def pair (h : HeaderReport) : List UInt8 × List UInt8 := (h.field.flatten,h.value.flatten)

end HeaderReport

def Callback.isHeader : Callback → Bool
  | .headerField _ | .headerValue _ | .headerValueComplete | .headersComplete => true
  | _ => false

/-- The calls report these headers. -/
inductive Reports : List HeaderReport → List Callback → Prop
  | nil : Reports [] []
  | headersComplete {headers : List HeaderReport} {calls : List Callback} (h : Reports headers calls) :
    Reports headers (.headersComplete :: calls)
  | header (report : HeaderReport) {headers : List HeaderReport} {calls : List Callback} (h : Reports headers calls) :
    Reports (report :: headers) (report.calls ++ calls)

namespace HeaderState

lemma foldl_filter (h : HeaderState) (calls : List Callback) :
    (calls.filter Callback.isHeader).foldl call h = calls.foldl call h := by
  induction calls generalizing h with
  | nil => rfl
  | cons c calls ih => cases c <;> exact ih _

lemma foldl_fields (h : HeaderState) {parts : List (List UInt8)} (hne : parts ≠ []) :
    (parts.map Callback.headerField).foldl call h = { h with field := h.field ++ parts.flatten, pending := true } := by
  induction parts generalizing h with
  | nil => exact absurd rfl hne
  | cons part parts ih =>
    cases parts with
    | nil => simp [call]
    | cons next parts =>
      rw [List.map_cons,List.foldl_cons,ih _ (List.cons_ne_nil _ _)]
      simp [call]

lemma foldl_values (h : HeaderState) (parts : List (List UInt8)) :
    (parts.map Callback.headerValue).foldl call h = { h with value := h.value ++ parts.flatten } := by
  induction parts generalizing h with
  | nil => simp
  | cons part parts ih =>
    rw [List.map_cons,List.foldl_cons,ih]
    simp [call]

lemma foldl_report (headers : List (List UInt8 × List UInt8)) (report : HeaderReport) :
    report.calls.foldl call { headers := headers } = { headers := headers ++ [report.pair] } := by
  rw [HeaderReport.calls,List.foldl_append,List.foldl_append,foldl_fields _ report.named,foldl_values]
  cases report.last <;> simp [call,flush,HeaderReport.pair]

lemma foldl_reports {reports : List HeaderReport} {calls : List Callback} (h : Reports reports calls)
    (headers : List (List UInt8 × List UInt8)) :
    calls.foldl call { headers := headers } = { headers := headers ++ reports.map HeaderReport.pair } := by
  induction h generalizing headers with
  | nil => simp
  | headersComplete h ih => exact ih headers
  | header report h ih => rw [List.foldl_append,foldl_report,ih,List.map_cons,List.append_assoc,List.singleton_append]

end HeaderState

/-- When the message is complete, the request that is delivered has the parts of the body that the library reported in
order, in whatever reads they came, and the headers with their parts joined; and the branches that do not copy the
body deliver what the copying one would. -/
theorem message_reassembled {S : Type*} (llhttp : Llhttp S) (s : S) (reads : List (List UInt8)) (last : List UInt8)
    (p : LlhttpParser S) (hrun : runAll (LlhttpParser.read llhttp) { parser := s } (reads ++ [last]) = some p)
    (hopen : .messageComplete ∉ callsOf (trace llhttp s reads))
    (hcomplete : .messageComplete ∈ callsOf (trace llhttp s (reads ++ [last])))
    (headers : List HeaderReport)
    (hheaders : Reports headers ((callsOf (trace llhttp s (reads ++ [last]))).filter Callback.isHeader)) :
    p.messages = [⟨(callsOf (trace llhttp s (reads ++ [last]))).flatMap Callback.text,
      bodyOf (trace llhttp s (reads ++ [last])),headers.map HeaderReport.pair⟩] ∧
    ∀ q : LlhttpParser S, q.finalizeMessage.messages = q.messages ++ [⟨q.path,q.copiedBody,q.headers⟩] := by
  refine ⟨?_,LlhttpParser.finalizeMessage_messages⟩
  rw [runAll_append] at hrun
  obtain ⟨m,hbefore,hafter⟩ := Option.bind_eq_some_iff.mp hrun
  obtain ⟨hcollected,hlater⟩ := (LlhttpParser.Collected.init s).run hbefore hopen
  obtain ⟨n,hread,hdone⟩ := Option.bind_eq_some_iff.mp hafter
  obtain rfl := Option.some.inj hdone
  rw [LlhttpParser.read_eq] at hread
  split at hread
  · next hroom =>
    obtain ⟨hreceived,-⟩ := hcollected.received llhttp hroom
    have htrace : trace llhttp s (reads ++ [last]) = [] ++ trace llhttp s reads ++ [(last,(llhttp.execute m.parser last).1)] :=
      hlater [last]
    rw [← htrace] at hreceived
    have hmessage : (m.received llhttp last).isMessageComplete = true := by
      rw [hreceived.complete,List.contains_iff_mem]
      exact hcomplete
    rw [if_pos hmessage] at hread
    obtain rfl := Option.some.inj hread
    have hheader := HeaderState.foldl_reports hheaders []
    rw [HeaderState.foldl_filter,← hreceived.header] at hheader
    have hpairs : (m.received llhttp last).headers = headers.map HeaderReport.pair :=
      congrArg HeaderState.headers hheader
    rw [LlhttpParser.finalizeMessage_messages,hreceived.messages,hreceived.path,hreceived.body,hpairs,List.nil_append]
  · cases hread

/-- A library that reports what a script says of each read. -/
def scripted : Llhttp (List (List Callback)) where
  execute script data := (script.headD [] |>.filter fun
    | .body start length => start+length ≤ data.length
    | _ => true,script.tail)
  inRange script data start length h := by simpa using (List.mem_filter.mp h).2

/-- A header's name comes in two reads, and so does the body. -/
def twoPartBody : List (List Callback) :=
  [[.url [47],.headerField [72]],[.headerField [111],.headerValue [120],.headerValueComplete,.headersComplete,.body 3 2],
    [.body 0 1,.messageComplete]]

theorem message_reassembled_twoPartBody :
    ∃ p, runAll (LlhttpParser.read scripted) { parser := twoPartBody } [[47,72],[111,58,120,97,98],[99]] = some p ∧
      p.messages = [⟨[47],[97,98,99],[([72,111],[120])]⟩] := by
  have hrun : (runAll (LlhttpParser.read scripted) { parser := twoPartBody } [[47,72],[111,58,120,97,98],[99]]).isSome = true := by
    decide +kernel
  obtain ⟨p,hp⟩ := Option.isSome_iff_exists.mp hrun
  exact ⟨p,hp,(message_reassembled scripted twoPartBody [[47,72],[111,58,120,97,98]] [99] p hp (by decide +kernel)
    (by decide +kernel) [⟨[[72],[111]],[[120]],by decide,false⟩] (.header _ (.headersComplete .nil))).1⟩

end Strij.Io.Http
