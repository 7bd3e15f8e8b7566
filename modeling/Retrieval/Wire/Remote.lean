import Retrieval.Wire.Service

/-!
# Remote sessions

A client asks a server instead of a session of its own. `Remote` is a client that reads the
replies from a stream, and `Link` one that is connected with an endpoint on the other side.
-/

namespace Retrieval

/-! ### What replies mean to a client -/

namespace Reply

/-- The answer to a fragment. -/
def toSent : Reply → Except Error Bool
  | sent ready => .ok ready
  | error code message => .error (.ofCode code message)
  | reply => .error (.unexpectedReply .send reply.describe)

/-- The answer to a request for a response. -/
def toValue : Reply → Except Error Response
  | value r => .ok r
  | error code message => .error (.ofCode code message)
  | reply => .error (.unexpectedReply .recv reply.describe)

end Reply

/-! ### Clients of a stream -/

/-- A client that reads the replies to its requests from a stream. -/
structure Remote where
  /-- The stream of replies. -/
  incoming : List UInt8
  /-- The requests that were sent, the first one first. -/
  requests : List Request
deriving DecidableEq, Repr

namespace Remote

/-- A client that has sent nothing yet. -/
def start (incoming : List UInt8) : Remote :=
  ⟨incoming, []⟩

/-- Sends a request and reads the reply, which `meaning` turns into an answer. -/
def ask {α : Type} (meaning : Reply → Except Error α) (request : Request) (c : Remote) :
    Turn Remote α :=
  match Frame.ofJson request.toJson with
  | .error e => .fail c e
  | .ok _ =>
    let read := Frame.readMessage Reply.ofJson? c.incoming
    { state := ⟨read.2, c.requests ++ [request]⟩
      answer := read.1.bind meaning
      remarks := [] }

/-- Sends a fragment. -/
def send (c : Remote) (fragment : String) (flags : Flags) : Turn Remote Bool :=
  c.ask Reply.toSent (.send fragment flags)

/-- Receives a response. -/
def recv (c : Remote) : Turn Remote Response :=
  c.ask Reply.toValue .recv

/-- What there is to receive: the bytes that have not been read. -/
def waiting (c : Remote) : Nat × Nat :=
  (c.incoming.length, 0)

theorem waiting_recv {c : Remote} {r : Response} (h : c.recv.answer = .ok r) :
  PairLt c.recv.state.waiting c.waiting
  := by
  unfold recv ask at h ⊢
  split
  · rename_i heq
    rw [heq] at h
    cases h
  · rename_i heq
    rw [heq] at h
    apply Prod.Lex.left
    apply Frame.length_readMessage_lt
    intro hend
    simp only [hend] at h
    cases h

instance : Endpoint Remote where
  send := send
  recv := recv
  waiting := waiting
  waiting_recv := waiting_recv

end Remote

/-! ### Clients of an endpoint -/

/-- A client whose server has the endpoint `peer`. -/
structure Link (σ : Type) where
  peer : σ
  /-- Whether the server still listens. -/
  connected : Bool

namespace Link

variable {σ : Type} [Endpoint σ]

/-- A client whose server has answered nothing yet. -/
def start (peer : σ) : Link σ :=
  ⟨peer, true⟩

/-- Sends a request and takes the reply, which `meaning` turns into an answer. After the reply
that tells its end the server listens no more. -/
def ask {α : Type} (meaning : Reply → Except Error α) (request : Request) (c : Link σ) :
    Turn (Link σ) α :=
  if c.connected then
    let service := Service.answer c.peer request
    ⟨⟨service.state, !service.isLast⟩, meaning service.reply, service.remarks⟩
  else .fail c .endOfStream

/-- Sends a fragment. -/
def send (c : Link σ) (fragment : String) (flags : Flags) : Turn (Link σ) Bool :=
  c.ask Reply.toSent (.send fragment flags)

/-- Receives a response. -/
def recv (c : Link σ) : Turn (Link σ) Response :=
  c.ask Reply.toValue .recv

/-- What there is to receive from the server. -/
def waiting (c : Link σ) : Nat × Nat :=
  Endpoint.waiting c.peer

theorem waiting_recv {c : Link σ} {r : Response} (h : c.recv.answer = .ok r) :
  PairLt c.recv.state.waiting c.waiting
  := by
  unfold recv ask at h ⊢
  split
  · rename_i hconnected
    rw [if_pos hconnected] at h
    cases hanswer : (Endpoint.recv c.peer).answer with
    | ok r => exact Endpoint.waiting_recv hanswer
    | error e =>
      simp only [Service.answer, Service.ofTurn, hanswer] at h
      cases h
  · rename_i hconnected
    rw [if_neg hconnected] at h
    cases h

instance : Endpoint (Link σ) where
  send := send
  recv := recv
  waiting := waiting
  waiting_recv := waiting_recv

end Link

end Retrieval
