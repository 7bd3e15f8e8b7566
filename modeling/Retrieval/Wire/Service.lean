import Retrieval.Session.Endpoint
import Retrieval.Wire.Message

/-!
# Serving sessions

A server reads requests from a stream, passes them on to an endpoint, and replies to each of
them, until the stream ends or the endpoint has told its end. A frame that holds no request is
answered as well, and the server goes on.
-/

namespace Retrieval

/-- What a server does with a frame: its reply, the endpoint after it, and what was remarked. -/
structure Service (σ : Type) where
  reply : Reply
  state : σ
  remarks : List Remark

namespace Service

variable {σ : Type} [Endpoint σ]

/-- The reply that tells the answer of a turn. -/
def ofTurn {α : Type} (reply : α → Reply) (t : Turn σ α) : Service σ :=
  { reply := match t.answer with
      | .ok a => reply a
      | .error e => .error e.code e.message
    state := t.state
    remarks := t.remarks }

/-- Answers a request. -/
def answer (s : σ) : Request → Service σ
  | .send fragment flags => ofTurn .sent (Endpoint.send s fragment flags)
  | .recv => ofTurn .value (Endpoint.recv s)

/-- Answers a frame that holds no request. -/
def refuse (s : σ) (e : Error) : Service σ :=
  { reply := .error Category.format.code ("invalid request: " ++ e.detail)
    state := s
    remarks := [.refusedRequest e.detail] }

/-- Answers what was read from a stream. -/
def answerRead (s : σ) : Except Error Request → Service σ
  | .ok request => answer s request
  | .error e => refuse s e

/-- Whether a reply tells that the endpoint has ended. -/
def isLast (service : Service σ) : Bool :=
  match service.reply with
  | .value r => r.flags.has .quit
  | _ => false

end Service

/-- What a server has done with a stream: its replies, the endpoint after them, and what was
remarked. -/
structure Served (σ : Type) where
  replies : List Reply
  state : σ
  remarks : List Remark

/-- Serves an endpoint to the client that sends a stream. -/
def serve {σ : Type} [Endpoint σ] (s : σ) (input : List UInt8) : Served σ :=
  let read := Frame.readMessage Request.ofJson? input
  if _h : Frame.isEnd read.1 then ⟨[], s, []⟩
  else
    let service := Service.answerRead s read.1
    if service.isLast then ⟨[service.reply], service.state, service.remarks ++ [.sessionQuit]⟩
    else
      let rest := serve service.state read.2
      ⟨service.reply :: rest.replies, rest.state, service.remarks ++ rest.remarks⟩
termination_by input.length
decreasing_by
  apply Frame.length_readMessage_lt
  intro hread
  simp [Frame.isEnd, read, hread] at _h

end Retrieval
