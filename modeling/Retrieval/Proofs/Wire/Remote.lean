import Retrieval.Proofs.Session.Run
import Retrieval.Proofs.Wire.Message
import Retrieval.Wire.Remote

/-!
# Remote sessions and local ones

A client asks a server over two streams of frames, one of requests and one of replies. The server
answers the requests one by one, so the reply to a request is in the stream of replies as soon as
the request is in the other one. What the client makes of a reply is what the session of the server
has answered, but for the wording of errors, of which only the codes are kept. So the calls of a
client come to the same as calls of a session of its own, until the session tells its end.
-/

namespace Retrieval

open Session (Call)

/-! ### Calls of endpoints -/

/-- What a call comes to. -/
abbrev Answer := Except Error (Bool ⊕ Response)

namespace Answer

/-- Whether an answer tells that the endpoint has ended. -/
def tellsEnd : Answer → Bool
  | .ok (.inr r) => r.flags.has .quit
  | _ => false

/-- Two answers are the same, or errors with the same code. -/
inductive Agrees : Answer → Answer → Prop where
  | ok (a : Bool ⊕ Response) : Agrees (.ok a) (.ok a)
  | error {e e' : Error} (h : e.code = e'.code) : Agrees (.error e) (.error e')

theorem error_of_map {α : Type} {f : α → Bool ⊕ Response} {answer : Except Error α} {e : Error}
    (h : answer.map f = .error e) :
  answer = .error e
  := by
  cases answer with
  | ok a => cases h
  | error e' =>
    cases h
    rfl

end Answer

namespace Endpoint

variable {σ : Type} [Endpoint σ]

/-- The answer to a call. -/
def answer (s : σ) : Call → Answer
  | .send fragment flags => (send s fragment flags).answer.map .inl
  | .recv => (recv s).answer.map .inr

/-- The endpoint after a call. -/
def call (s : σ) : Call → σ
  | .send fragment flags => (send s fragment flags).state
  | .recv => (recv s).state

/-- The answers to a run of calls. -/
def answers (s : σ) : List Call → List Answer
  | [] => []
  | c :: calls => answer s c :: answers (call s c) calls

/-- The endpoint after a run of calls. -/
def after (s : σ) : List Call → σ
  | [] => s
  | c :: calls => after (call s c) calls

theorem length_answers (s : σ) (calls : List Call) :
  (answers s calls).length = calls.length
  := by
  induction calls generalizing s with
  | nil => rfl
  | cons c calls ih => rw [answers, List.length_cons, ih, List.length_cons]

end Endpoint

/-- The request that a client makes of a call. -/
def Session.Call.request : Call → Request
  | .send fragment flags => .send fragment flags
  | .recv => .recv

/-! ### Servers -/

namespace Service

variable {σ : Type} [Endpoint σ]

/-- A server has its endpoint do what is asked for. -/
theorem state_answer (s : σ) (c : Call) :
  (answer s c.request).state = Endpoint.call s c
  := by
  cases c <;> rfl

/-- The replies to requests, up to the one that tells the end. -/
def replies (s : σ) : List Request → List Reply
  | [] => []
  | request :: requests =>
    let service := answer s request
    service.reply :: if service.isLast then [] else replies service.state requests

/-- The reply to a request does not depend on later requests. -/
theorem replies_take (s : σ) (requests : List Request) (n : Nat) :
  replies s (requests.take n) = (replies s requests).take n
  := by
  induction requests generalizing s n with
  | nil => simp [replies]
  | cons request requests ih =>
    cases n with
    | zero => rfl
    | succ n =>
      rw [List.take_succ_cons, replies, replies, List.take_succ_cons]
      split
      · rw [List.take_nil]
      · rw [ih]

end Service

namespace Frame

/-- The length of the message that writes a value. -/
def size (j : Json) : Nat :=
  (Text.encode j.compact).length

/-- The frames of values one after another. -/
def values (js : List Json) : List UInt8 :=
  js.flatMap ofValue

end Frame

/-- A server makes of the frames of requests the replies to them. -/
theorem replies_serve {σ : Type} [Endpoint σ] (s : σ) {requests : List Request}
    (hsize : ∀ request ∈ requests, Frame.size request.toJson ≤ Frame.maxSize) :
  (serve s (Frame.values (requests.map Request.toJson))).replies = Service.replies s requests
  := by
  induction requests generalizing s with
  | nil =>
    rw [Service.replies]
    simp [Frame.values, serve_nil]
  | cons request requests ih =>
    obtain ⟨hfirst, hmore⟩ := List.forall_mem_cons.mp hsize
    have hread := Frame.readMessage_ofValue request.written request.ofJson?_toJson hfirst
      (Frame.values (requests.map Request.toJson))
    rw [Service.replies, ← ih _ hmore]
    apply (serve_of_read hread rfl).1

/-! ### What a client makes of replies -/

/-- What a reply means as the answer to a call. -/
def Reply.meaning (reply : Reply) : Call → Answer
  | .send .. => reply.toSent.map .inl
  | .recv => reply.toValue.map .inr

/-- A code of its own category is kept by a peer, and all but one of the categories have one. -/
theorem Error.code_ofCode {e : Error} (h : e.category ≠ .format) (text : String) :
  (ofCode e.code text).code = e.code
  := by
  have hcode : ∀ category : Category, category ≠ .format →
      (Category.ofCode category.code).code = category.code := by
    intro category
    cases category <;> decide
  apply hcode e.category h

/-- The answer of a turn and what a client makes of the reply that tells it. -/
theorem Service.agrees_ofTurn {σ α : Type} (reply : α → Reply) (meaning : Reply → Except Error α)
    (hreply : ∀ a, meaning (reply a) = .ok a)
    (herror : ∀ code text, meaning (.error code text) = .error (.ofCode code text))
    (t : Turn σ α) (h : ∀ e, t.answer = .error e → e.category ≠ .format) (f : α → Bool ⊕ Response) :
  Answer.Agrees ((meaning (ofTurn reply t).reply).map f) (t.answer.map f)
  := by
  rw [ofTurn]
  cases hanswer : t.answer with
  | ok a =>
    dsimp only
    rw [hreply]
    apply Answer.Agrees.ok
  | error e =>
    dsimp only
    rw [herror]
    apply Answer.Agrees.error
    apply Error.code_ofCode (h e hanswer)

/-- A client makes of the reply of a server what the endpoint of the server has answered. -/
theorem Service.agrees_meaning {σ : Type} [Endpoint σ] {s : σ} {c : Call}
    (h : ∀ e, Endpoint.answer s c = .error e → e.category ≠ .format) :
  Answer.Agrees ((answer s c.request).reply.meaning c) (Endpoint.answer s c)
  := by
  cases c with
  | send fragment flags =>
    apply agrees_ofTurn Reply.sent Reply.toSent (fun _ => rfl) (fun _ _ => rfl)
    intro e he
    apply h
    rw [Endpoint.answer, he]
    rfl
  | recv =>
    apply agrees_ofTurn Reply.value Reply.toValue (fun _ => rfl) (fun _ _ => rfl)
    intro e he
    apply h
    rw [Endpoint.answer, he]
    rfl

/-- The last reply of a server is the one that tells the end. -/
theorem Service.isLast_answer {σ : Type} [Endpoint σ] (s : σ) (c : Call) :
  (answer s c.request).isLast = (Endpoint.answer s c).tellsEnd
  := by
  rw [isLast_eq]
  cases c with
  | send fragment flags =>
    rw [Call.request, answer, ofTurn, Endpoint.answer]
    cases (Endpoint.send s fragment flags).answer <;> rfl
  | recv =>
    rw [Call.request, answer, ofTurn, Endpoint.answer]
    cases (Endpoint.recv s).answer <;> rfl

namespace Remote

/-- A client reads the reply to its request. -/
theorem ask_reply {α : Type} (meaning : Reply → Except Error α) {request : Request} {reply : Reply}
    (hrequest : Frame.size request.toJson ≤ Frame.maxSize)
    (hreply : Frame.size reply.toJson ≤ Frame.maxSize) (rest : List UInt8)
    (requests : List Request) :
  ask meaning request ⟨Frame.ofValue reply.toJson ++ rest, requests⟩
    = ⟨⟨rest, requests ++ [request]⟩, meaning reply, []⟩
  := by
  rw [ask, Frame.ofJson_eq hrequest]
  dsimp only
  rw [Frame.readMessage_ofValue reply.written reply.ofJson?_toJson hreply]
  rfl

/-- A call of a client comes to what the next reply means. -/
theorem call_reply {c : Call} {reply : Reply}
    (hrequest : Frame.size c.request.toJson ≤ Frame.maxSize)
    (hreply : Frame.size reply.toJson ≤ Frame.maxSize) (rest : List UInt8)
    (requests : List Request) :
  let client : Remote := ⟨Frame.ofValue reply.toJson ++ rest, requests⟩
  Endpoint.answer client c = reply.meaning c
    ∧ Endpoint.call client c = ⟨rest, requests ++ [c.request]⟩
  := by
  cases c with
  | send fragment flags =>
    have hask := ask_reply Reply.toSent hrequest hreply rest requests
    exact ⟨congrArg (fun t => (t.answer.map Sum.inl : Answer)) hask, congrArg Turn.state hask⟩
  | recv =>
    have hask := ask_reply Reply.toValue hrequest hreply rest requests
    exact ⟨congrArg (fun t => (t.answer.map Sum.inr : Answer)) hask, congrArg Turn.state hask⟩

/-- Whatever a client reads, it sends the request for a call. -/
theorem requests_call (client : Remote) {c : Call}
    (hsize : Frame.size c.request.toJson ≤ Frame.maxSize) :
  (Endpoint.call client c).requests = client.requests ++ [c.request]
  := by
  have hask : ∀ {α : Type} (meaning : Reply → Except Error α),
      (client.ask meaning c.request).state.requests = client.requests ++ [c.request] := by
    intro α meaning
    rw [ask, Frame.ofJson_eq hsize]
  cases c with
  | send fragment flags =>
    have hcall : Endpoint.call client (.send fragment flags)
        = (client.ask Reply.toSent (Call.request (.send fragment flags))).state := rfl
    rw [hcall, hask]
  | recv =>
    have hcall : Endpoint.call client .recv
        = (client.ask Reply.toValue (Call.request .recv)).state := rfl
    rw [hcall, hask]

theorem requests_after (client : Remote) {calls : List Call}
    (hsize : ∀ c ∈ calls, Frame.size c.request.toJson ≤ Frame.maxSize) :
  (Endpoint.after client calls).requests = client.requests ++ calls.map Call.request
  := by
  induction calls generalizing client with
  | nil => simp [Endpoint.after]
  | cons c calls ih =>
    obtain ⟨hfirst, hmore⟩ := List.forall_mem_cons.mp hsize
    rw [Endpoint.after, ih _ hmore, requests_call client hfirst, List.append_assoc,
      List.singleton_append, List.map_cons]

end Remote

/-! ### Sessions behind servers -/

namespace Session

variable {index : Index} {settings : Settings} {s : Session}

/-- No answer of a session is an error of a category that has no code of its own. -/
theorem category_answer (hvalid : settings.validate = .ok ()) (h : s.Sound index settings)
    (c : Call) {e : Error} (he : Endpoint.answer s c = .error e) :
  e.category ≠ .format
  := by
  cases c with
  | send fragment flags =>
    have hsend := Answer.error_of_map he
    change (s.send fragment flags).answer = .error e at hsend
    rw [send] at hsend
    split at hsend
    · cases hsend
      decide
    · dsimp only at hsend
      split at hsend <;> cases hsend
  | recv =>
    have hrecv := Answer.error_of_map he
    change s.recv.answer = .error e at hrecv
    have hreceives := receives_recv hvalid h
    rw [hrecv] at hreceives
    generalize s.recv.state = s' at hreceives
    cases hreceives with
    | closed => decide
    | nothing => decide
    | fails _ _ _ hS =>
      rw [Statement.category_of_responses hvalid hS]
      decide

/-- A call leaves a session sound. -/
theorem Sound.endpoint_call (hvalid : settings.validate = .ok ()) (h : s.Sound index settings)
    (c : Call) :
  (Endpoint.call s c).Sound index settings
  := by
  cases c with
  | send fragment flags => exact h.call hvalid (.send fragment flags)
  | recv => exact h.call hvalid .recv

/-- The calls of a client whose server has a session come to the same as calls of the session, until
it tells its end. -/
theorem Sound.agrees (hvalid : settings.validate = .ok ()) (h : s.Sound index settings)
    {calls : List Call}
    (hrequests : ∀ c ∈ calls, Frame.size c.request.toJson ≤ Frame.maxSize)
    (hreplies : ∀ reply ∈ Service.replies s (calls.map Call.request),
      Frame.size reply.toJson ≤ Frame.maxSize)
    (requests : List Request) {i : Nat} {a b : Answer}
    (ha : (Endpoint.answers
      (⟨Frame.values ((Service.replies s (calls.map Call.request)).map Reply.toJson), requests⟩
        : Remote) calls)[i]? = some a)
    (hb : (Endpoint.answers s calls)[i]? = some b)
    (hstay : ∀ j < i, ∀ b' : Answer, (Endpoint.answers s calls)[j]? = some b' →
      b'.tellsEnd = false) :
  a.Agrees b
  := by
  induction calls generalizing s requests i with
  | nil =>
    rw [Endpoint.answers] at hb
    cases hb
  | cons c calls ih =>
    obtain ⟨hrequest, hrequests⟩ := List.forall_mem_cons.mp hrequests
    rw [List.map_cons, Service.replies, Service.state_answer] at ha hreplies
    obtain ⟨hreply, hreplies⟩ := List.forall_mem_cons.mp hreplies
    rw [List.map_cons, Frame.values, List.flatMap_cons, ← Frame.values, Endpoint.answers] at ha
    rw [Endpoint.answers] at hb hstay
    obtain ⟨hanswer, hcall⟩ := Remote.call_reply hrequest hreply _ requests
    cases i with
    | zero =>
      rw [List.getElem?_cons_zero, hanswer] at ha
      rw [List.getElem?_cons_zero] at hb
      obtain rfl := Option.some.inj ha
      obtain rfl := Option.some.inj hb
      apply Service.agrees_meaning fun e he => category_answer hvalid h c he
    | succ i =>
      have hlast := hstay 0 (Nat.succ_pos i) _ rfl
      rw [← Service.isLast_answer] at hlast
      rw [hlast, if_neg Bool.false_ne_true] at hreplies
      rw [List.getElem?_cons_succ, hcall, hlast, if_neg Bool.false_ne_true] at ha
      rw [List.getElem?_cons_succ] at hb
      apply ih (h.endpoint_call hvalid c) hrequests hreplies _ ha hb
      intro j hj b' hb'
      apply hstay (j + 1) (Nat.succ_lt_succ hj) b' hb'

end Session

/-- A remote session behaves like a local one. The client writes a frame for each call, the server
replies to the frames one by one, without waiting for later ones, and each call of the client comes
to the same as the call of a local session, or fails with the same code, up to the first call that
tells the end of the session. Between the two stand the streams of frames only. -/
theorem Remote.agrees_with_session {index : Index} {settings : Settings}
    (hvalid : settings.validate = .ok ()) {calls : List Call}
    (hrequests : ∀ c ∈ calls, Frame.size c.request.toJson ≤ Frame.maxSize)
    (hreplies : ∀ reply ∈ (serve (Session.start index settings)
        (Frame.values ((calls.map Call.request).map Request.toJson))).replies,
      Frame.size reply.toJson ≤ Frame.maxSize) :
  let own : Session := .start index settings
  let requests := calls.map Call.request
  let served := serve own (Frame.values (requests.map Request.toJson))
  let client : Remote := .start (Frame.values (served.replies.map Reply.toJson))
  (∀ request ∈ requests, Frame.ofJson request.toJson = .ok (Frame.ofValue request.toJson))
    ∧ (∀ reply ∈ served.replies, Frame.ofJson reply.toJson = .ok (Frame.ofValue reply.toJson))
    ∧ (Endpoint.after client calls).requests = requests
    ∧ (∀ n : Nat, (serve own (Frame.values ((requests.take n).map Request.toJson))).replies
      = served.replies.take n)
    ∧ (Endpoint.answers client calls).length = calls.length
    ∧ (Endpoint.answers own calls).length = calls.length
    ∧ ∀ (i : Nat) (a b : Answer), (Endpoint.answers client calls)[i]? = some a →
      (Endpoint.answers own calls)[i]? = some b →
      (∀ j < i, ∀ b' : Answer, (Endpoint.answers own calls)[j]? = some b' →
        b'.tellsEnd = false) →
      a.Agrees b
  := by
  intro own requests served client
  have hsize : ∀ request ∈ requests, Frame.size request.toJson ≤ Frame.maxSize := by
    intro request hrequest
    obtain ⟨c, hc, rfl⟩ := List.mem_map.mp hrequest
    apply hrequests c hc
  have hserved : served.replies = Service.replies own requests := replies_serve own hsize
  refine ⟨?_, ?_, ?_, ?_, Endpoint.length_answers _ _, Endpoint.length_answers _ _, ?_⟩
  · intro request hrequest
    apply Frame.ofJson_eq (hsize request hrequest)
  · intro reply hreply
    apply Frame.ofJson_eq (hreplies reply hreply)
  · rw [requests_after client hrequests]
    rfl
  · intro n
    rw [hserved, ← Service.replies_take]
    apply replies_serve
    intro request hrequest
    apply hsize request (List.mem_of_mem_take hrequest)
  · intro i a b ha hb hstay
    have hsizes : ∀ reply ∈ Service.replies own requests,
        Frame.size reply.toJson ≤ Frame.maxSize := by
      rw [← hserved]
      exact hreplies
    apply (Session.Sound.start index settings).agrees hvalid hrequests hsizes [] _ hb hstay
    rw [← hserved]
    exact ha

/-- Before the statement that ends the session a call has nothing to receive, and a statement
fails. -/
theorem Remote.agrees_with_session_failing :
  let settings : Settings := { Settings.standard with budget := 1 }
  let calls : List Call := [.send "\"é" .none, .recv, .recv, .send "quit" .none, .recv, .recv]
  let own : Session := .start (fun _ => []) settings
  let served := serve own (Frame.values ((calls.map Call.request).map Request.toJson))
  let client : Remote := .start (Frame.values (served.replies.map Reply.toJson))
  settings.validate = .ok ()
    ∧ (∀ c ∈ calls, Frame.size c.request.toJson ≤ Frame.maxSize)
    ∧ (∀ reply ∈ served.replies, Frame.size reply.toJson ≤ Frame.maxSize)
    ∧ (Endpoint.answers own calls).map Answer.tellsEnd = [false, false, false, false, true, false]
    ∧ ∀ i < 5, ∀ a b : Answer, (Endpoint.answers client calls)[i]? = some a →
      (Endpoint.answers own calls)[i]? = some b → a.Agrees b
  := by
  intro settings calls own served client
  have hvalid : settings.validate = .ok () := rfl
  have hrequests : ∀ c ∈ calls, Frame.size c.request.toJson ≤ Frame.maxSize := by decide +kernel
  have hserved : served.replies = Service.replies own (calls.map Call.request) :=
    replies_serve own (by simpa using hrequests)
  have hreplies : ∀ reply ∈ served.replies, Frame.size reply.toJson ≤ Frame.maxSize := by
    rw [hserved]
    decide +kernel
  have hends : (Endpoint.answers own calls).map Answer.tellsEnd
      = [false, false, false, false, true, false] := by decide +kernel
  have hbefore : ∀ j < 4, [false, false, false, false, true, false][j]? = some false := by decide
  refine ⟨hvalid, hrequests, hreplies, hends, ?_⟩
  intro i hi a b ha hb
  obtain ⟨-, -, -, -, -, -, hagrees⟩ := agrees_with_session hvalid hrequests hreplies
  apply hagrees i a b ha hb
  intro j hj b' hb'
  have hend := hbefore j (by omega)
  rw [← hends, List.getElem?_map, hb'] at hend
  exact Option.some.inj hend

end Retrieval
