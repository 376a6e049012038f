import Strij.Io.Connection
import Strij.Lib.Http
import Strij.Wire.TaskMessages

/-! The HTTP receiver: the framer that turns results into the frames of one HTTP response, and the receiver that
writes them to the client's connection. -/
namespace Strij.Gateway
open Strij.Lib.Http Strij.Io Strij.Wire

def taskStatusToHttpStatus : TaskStatus → ℕ
  | .ok => 200
  | .malformedRequest => 400
  | .notFound => 404
  | .unimplemented => 501
  | .deadlineExceeded => 504
  | .capacityRefused => 429
  | .internal => 500
  | .unavailable => 503
  | .unrecognized _ => 500

def httpStatusPhrase (httpStatus : ℕ) : String :=
  match httpStatus with
  | 200 => "OK"
  | 400 => "Bad Request"
  | 404 => "Not Found"
  | 429 => "Too Many Requests"
  | 501 => "Not Implemented"
  | 503 => "Service Unavailable"
  | 504 => "Gateway Timeout"
  | _ => "Internal Server Error"

def statusLine (httpStatus : ℕ) : Bytes :=
  ascii "HTTP/1.1 " ++ (number 10 httpStatus ++ (ascii " " ++ ascii (httpStatusPhrase httpStatus)))

def chunkFrame (body : Bytes) : Bytes := number 16 body.length ++ ascii "\r\n" ++ body ++ ascii "\r\n"

inductive FramerState
  | idle
  | chunked
  | done
  deriving DecidableEq, Repr

structure HttpResponseFramer where
  state : FramerState := .idle
  deriving DecidableEq, Repr

namespace HttpResponseFramer
variable (framer : HttpResponseFramer)

def next (body : Bytes) (isFinal : Bool) : List Bytes × HttpResponseFramer :=
  let line := statusLine (taskStatusToHttpStatus .ok)
  match framer.state with
  | .idle =>
    if isFinal then
      ([line ++ ascii "\r\nContent-Length: " ++ number 10 body.length ++
        ascii "\r\nContent-Type: text/plain\r\nConnection: close\r\n\r\n" ++ body],⟨.done⟩)
    else
      ([line ++ ascii
        "\r\nTransfer-Encoding: chunked\r\nContent-Type: text/plain\r\nConnection: close\r\n\r\n",
        chunkFrame body],⟨.chunked⟩)
  | .chunked =>
    if isFinal then ([chunkFrame body,ascii "0\r\n\r\n"],⟨.done⟩) else ([chunkFrame body],framer)
  | .done => ([],framer)

def errorResponse (reason : Bytes) (status : TaskStatus) : List Bytes × HttpResponseFramer :=
  if framer.state ≠ .idle then ([],framer)
  else ([statusLine (taskStatusToHttpStatus status) ++
      ascii "\r\nContent-Type: text/plain\r\nContent-Length: " ++ number 10 reason.length ++
      ascii "\r\nConnection: close\r\n\r\n" ++ reason],⟨.done⟩)

end HttpResponseFramer

inductive HttpCall
  | deliver (value : Bytes) (isFinal : Bool)
  | deliverError (reason : Bytes) (status : TaskStatus)

def HttpCall.terminal : HttpCall → Bool
  | .deliver _ isFinal => isFinal
  | .deliverError _ _ => true

structure HttpResultReceiver (σ κ : Type*) where
  conn : Io.Connection σ κ
  framer : HttpResponseFramer := {}

namespace HttpResponseFramer

def frames (framer : HttpResponseFramer) : HttpCall → List Bytes × HttpResponseFramer
  | .deliver value isFinal => framer.next value isFinal
  | .deliverError reason status => framer.errorResponse reason status

def allFrames (framer : HttpResponseFramer) : List HttpCall → List Bytes
  | [] => []
  | call :: calls => (framer.frames call).1 ++ (framer.frames call).2.allFrames calls

end HttpResponseFramer

namespace HttpResultReceiver
variable {σ κ : Type*}

def call (receiver : HttpResultReceiver σ κ) (call : HttpCall) : HttpResultReceiver σ κ :=
  ⟨(receiver.framer.frames call).1.foldl Io.Connection.write receiver.conn,(receiver.framer.frames call).2⟩

end HttpResultReceiver

def partials (bodies : List Bytes) : List HttpCall := bodies.map (fun body => .deliver body false)

section Head

lemma httpStatus_mem (status : TaskStatus) :
    taskStatusToHttpStatus status ∈ [200,400,404,429,500,501,503,504] := by
  cases status <;> simp [taskStatusToHttpStatus]

lemma statusLine_read (status : TaskStatus) : 13 ∉ statusLine (taskStatusToHttpStatus status) ∧
    readStatusLine (statusLine (taskStatusToHttpStatus status)) = some (taskStatusToHttpStatus status) := by
  have hall : ∀ n ∈ [200,400,404,429,500,501,503,504],
      13 ∉ statusLine n ∧ readStatusLine (statusLine n) = some n := by decide +kernel
  exact hall _ (httpStatus_mem status)

lemma framing_status (status : TaskStatus) (fields : List (Bytes × Bytes)) :
    framing (taskStatusToHttpStatus status) fields = framing 200 fields := by
  have hall : ∀ n ∈ [200,400,404,429,500,501,503,504], ¬ (n < 200 ∨ n = 204 ∨ n = 304) := by decide
  rw [framing,framing,if_neg (hall _ (httpStatus_mem status)),if_neg (by decide)]

lemma isField_contentType : IsField (ascii "Content-Type: text/plain") (ascii "content-type",ascii "text/plain") :=
  ⟨by decide,by decide⟩

lemma isField_connection : IsField (ascii "Connection: close") (ascii "connection",ascii "close") :=
  ⟨by decide,by decide⟩

lemma isField_chunked :
    IsField (ascii "Transfer-Encoding: chunked") (ascii "transfer-encoding",ascii "chunked") :=
  ⟨by decide,by decide⟩

lemma isField_contentLength (n : ℕ) :
    IsField (ascii "Content-Length: " ++ number 10 n) (ascii "content-length",number 10 n) := by
  have hline : ascii "Content-Length: " = ascii "Content-Length" ++ [58,32] := by decide
  have hname : ascii "content-length" = (ascii "Content-Length").map lower := by decide
  have hplain : ∀ b ∈ ascii "Content-Length", b ∉ [9,13,32,58] := by decide +kernel
  rw [hline,hname,List.append_assoc]
  refine isField_of_plain (by decide) hplain number_ne_nil (fun b hb => ?_)
  have := mem_number (by decide) (by decide) hb
  simp_all

lemma readResponse_length {fields : List (Bytes × Bytes)} {lines : List Bytes} (status : TaskStatus)
    (body : Bytes) (h : List.Forall₂ IsField lines fields)
    (hlength : framing 200 fields = (readNumber 10 (number 10 body.length)).map .length) :
    readResponse (head (statusLine (taskStatusToHttpStatus status)) lines ++ body) =
      some (⟨taskStatusToHttpStatus status,fields,body⟩,[]) := by
  obtain ⟨hcr,hstatus⟩ := statusLine_read status
  refine readResponse_head hcr hstatus h (f := .length body.length) ?_ ?_
  · rw [framing_status,hlength,readNumber_number (by decide) (by decide)]
    rfl
  · simpa using @readBody_length body []

lemma readResponse_single (body : Bytes) :
    ∃ fields, readResponse ((HttpResponseFramer.next {} body true).1.flatten) = some (⟨200,fields,body⟩,[]) := by
  have hlines : List.Forall₂ IsField
      [ascii "Content-Length: " ++ number 10 body.length,ascii "Content-Type: text/plain",
        ascii "Connection: close"]
      [(ascii "content-length",number 10 body.length),(ascii "content-type",ascii "text/plain"),
        (ascii "connection",ascii "close")] :=
    .cons (isField_contentLength _) (.cons isField_contentType (.cons isField_connection .nil))
  refine ⟨_,Eq.trans (congrArg readResponse ?_) (readResponse_length .ok body hlines rfl)⟩
  have hbefore : ascii "\r\nContent-Length: " = crlf ++ ascii "Content-Length: " := by decide
  have hafter : ascii "\r\nContent-Type: text/plain\r\nConnection: close\r\n\r\n" =
      crlf ++ (ascii "Content-Type: text/plain" ++ (crlf ++ (ascii "Connection: close" ++ (crlf ++ crlf)))) := by
    decide
  simp only [HttpResponseFramer.next,if_true,List.flatten_cons,List.flatten_nil,List.append_nil,head,
    List.flatMap_cons,List.flatMap_nil,hbefore,hafter,List.append_assoc]

lemma readResponse_error (reason : Bytes) (status : TaskStatus) :
    ∃ fields, readResponse ((HttpResponseFramer.errorResponse {} reason status).1.flatten) =
      some (⟨taskStatusToHttpStatus status,fields,reason⟩,[]) := by
  have hlines : List.Forall₂ IsField
      [ascii "Content-Type: text/plain",ascii "Content-Length: " ++ number 10 reason.length,
        ascii "Connection: close"]
      [(ascii "content-type",ascii "text/plain"),(ascii "content-length",number 10 reason.length),
        (ascii "connection",ascii "close")] :=
    .cons isField_contentType (.cons (isField_contentLength _) (.cons isField_connection .nil))
  refine ⟨_,Eq.trans (congrArg readResponse ?_) (readResponse_length status reason hlines rfl)⟩
  have hbefore : ascii "\r\nContent-Type: text/plain\r\nContent-Length: " =
      crlf ++ (ascii "Content-Type: text/plain" ++ (crlf ++ ascii "Content-Length: ")) := by decide
  have hafter : ascii "\r\nConnection: close\r\n\r\n" =
      crlf ++ (ascii "Connection: close" ++ (crlf ++ crlf)) := by decide
  simp only [HttpResponseFramer.errorResponse,ne_eq,not_true_eq_false,if_false,List.flatten_cons,
    List.flatten_nil,List.append_nil,head,List.flatMap_cons,List.flatMap_nil,hbefore,hafter,List.append_assoc]

end Head

section Stream

lemma chunkFrame_eq (body : Bytes) : chunkFrame body = chunk body := by
  have hcrlf : ascii "\r\n" = crlf := by decide
  rw [chunkFrame,chunk,hcrlf,List.append_assoc,List.append_assoc]

lemma frames_chunked (bodies : List Bytes) (last : Bytes) :
    (HttpResponseFramer.allFrames ⟨.chunked⟩ (partials bodies ++ [.deliver last true])).flatten =
      (bodies ++ [last]).flatMap chunk ++ lastChunk := by
  induction bodies with
  | nil =>
    have hlast : ascii "0\r\n\r\n" = lastChunk := by decide +kernel
    simp [partials,HttpResponseFramer.allFrames,HttpResponseFramer.frames,HttpResponseFramer.next,
      chunkFrame_eq,hlast]
  | cons body bodies ih =>
    have hstep : HttpResponseFramer.allFrames ⟨.chunked⟩ (partials (body :: bodies) ++ [.deliver last true]) =
        chunkFrame body :: HttpResponseFramer.allFrames ⟨.chunked⟩ (partials bodies ++ [.deliver last true]) := rfl
    rw [hstep,List.flatten_cons,ih,chunkFrame_eq,List.cons_append,List.flatMap_cons,List.append_assoc]

lemma readResponse_streamed (first : Bytes) (bodies : List Bytes) (last : Bytes)
    (h : ∀ body ∈ first :: bodies ++ [last], body ≠ []) :
    ∃ fields, readResponse ((HttpResponseFramer.allFrames {}
        (partials (first :: bodies) ++ [.deliver last true])).flatten) =
      some (⟨200,fields,(first :: bodies ++ [last]).flatten⟩,[]) := by
  have hlines : List.Forall₂ IsField
      [ascii "Transfer-Encoding: chunked",ascii "Content-Type: text/plain",ascii "Connection: close"]
      [(ascii "transfer-encoding",ascii "chunked"),(ascii "content-type",ascii "text/plain"),
        (ascii "connection",ascii "close")] :=
    .cons isField_chunked (.cons isField_contentType (.cons isField_connection .nil))
  obtain ⟨hcr,hstatus⟩ := statusLine_read .ok
  have hbody : readBody .chunked ((first :: bodies ++ [last]).flatMap chunk ++ (lastChunk ++ [])) =
      some ((first :: bodies ++ [last]).flatten,[]) := readBody_chunks h
  refine ⟨_,Eq.trans (congrArg readResponse ?_)
    (readResponse_head hcr hstatus hlines (f := .chunked) rfl hbody)⟩
  have hhead : ascii
      "\r\nTransfer-Encoding: chunked\r\nContent-Type: text/plain\r\nConnection: close\r\n\r\n" =
      crlf ++ (ascii "Transfer-Encoding: chunked" ++ (crlf ++ (ascii "Content-Type: text/plain" ++
        (crlf ++ (ascii "Connection: close" ++ (crlf ++ crlf)))))) := by decide
  have hstep : HttpResponseFramer.allFrames {} (partials (first :: bodies) ++ [.deliver last true]) =
      (statusLine 200 ++ ascii
        "\r\nTransfer-Encoding: chunked\r\nContent-Type: text/plain\r\nConnection: close\r\n\r\n") ::
      chunkFrame first :: HttpResponseFramer.allFrames ⟨.chunked⟩ (partials bodies ++ [.deliver last true]) := rfl
  rw [hstep,List.flatten_cons,List.flatten_cons,frames_chunked,chunkFrame_eq,hhead]
  simp [head,taskStatusToHttpStatus]

end Stream

/-- Results that are read back as they were delivered: a single one, or streamed ones that are not
empty. -/
def Streamable (bodies : List Bytes) (last : Bytes) : Prop :=
  bodies = [] ∨ ∀ body ∈ bodies ++ [last], body ≠ []

lemma readResponse_results {bodies : List Bytes} {last : Bytes} (h : Streamable bodies last) :
    ∃ fields, readResponse ((HttpResponseFramer.allFrames {}
        (partials bodies ++ [.deliver last true])).flatten) =
      some (⟨200,fields,(bodies ++ [last]).flatten⟩,[]) := by
  cases bodies with
  | nil =>
    obtain ⟨fields,hread⟩ := readResponse_single last
    refine ⟨fields,Eq.trans ?_ (hread.trans ?_)⟩
    · simp [partials,HttpResponseFramer.allFrames,HttpResponseFramer.frames]
    · simp
  | cons first bodies => exact readResponse_streamed first bodies last (h.resolve_left (by simp))

section Writes
variable {σ κ : Type*} {receiver : HttpResultReceiver σ κ} {c : Io.Connection σ κ}

lemma writes_open (frames : List Bytes) (h : c.isOpen = true) :
    (frames.foldl Io.Connection.write c).isOpen = true ∧
      (frames.foldl Io.Connection.write c).written = c.written ++ frames.flatten := by
  induction frames generalizing c with
  | nil => exact ⟨h,by simp⟩
  | cons frame frames ih =>
    have hwrite : (c.write frame).isOpen = true ∧ (c.write frame).written = c.written ++ frame := by
      rw [Io.Connection.write,if_neg (by simp [h])]
      exact ⟨h,rfl⟩
    obtain ⟨hopen,hwritten⟩ := ih hwrite.1
    exact ⟨hopen,by rw [List.foldl_cons,hwritten,hwrite.2,List.flatten_cons,List.append_assoc]⟩

lemma writes_closed (frames : List Bytes) (h : c.isOpen = false) :
    frames.foldl Io.Connection.write c = c := by
  induction frames with
  | nil => rfl
  | cons frame frames ih =>
    rw [List.foldl_cons,Io.Connection.write,if_pos (by simp [h]),ih]

lemma calls_open (calls : List HttpCall) (h : receiver.conn.isOpen = true) :
    (calls.foldl HttpResultReceiver.call receiver).conn.written =
      receiver.conn.written ++ (receiver.framer.allFrames calls).flatten := by
  induction calls generalizing receiver with
  | nil => simp [HttpResponseFramer.allFrames]
  | cons call calls ih =>
    obtain ⟨hopen,hwritten⟩ := writes_open (receiver.framer.frames call).1 h
    rw [List.foldl_cons,ih hopen,HttpResponseFramer.allFrames,List.flatten_append,← List.append_assoc]
    exact congrArg (· ++ _) hwritten

lemma calls_closed (calls : List HttpCall) (h : receiver.conn.isOpen = false) :
    (calls.foldl HttpResultReceiver.call receiver).conn.isOpen = false := by
  induction calls generalizing receiver with
  | nil => exact h
  | cons call calls ih =>
    refine ih ?_
    rw [HttpResultReceiver.call,writes_closed _ h]
    exact h

end Writes

/-- The last call finishes a response that can be finished: results that are read back as delivered, or
an error before any result. -/
def Finishable (bodies : List Bytes) : HttpCall → Prop
  | .deliver last _ => Streamable bodies last
  | .deliverError _ _ => bodies = []

def freshReceiver : HttpResultReceiver Unit Unit := ⟨.init (),{}⟩

end Strij.Gateway
