import Retrieval.Session.Basic
import Retrieval.Wire.Service

/-!
# Where frames end

A frame is read back from its bytes whatever follows them, and what follows is left as it is, if
the message of the frame is not too long. So a server answers each frame by itself: whether it
holds a request or not, the next frame is read from where this one ends. Of a frame that is too
long only the length is taken up, and its message is read as if it were frames of its own.
-/

namespace Retrieval

/-! ### Frames -/

/-- The four bytes of a number write the number. -/
theorem Bytes.littleEndian_eq (n : UInt32) :
  ∃ a b c d, littleEndian n = [a, b, c, d] ∧ ofLittleEndian a b c d = n.toNat
  := by
  refine ⟨_, _, _, _, rfl, ?_⟩
  have hn := n.toNat_lt
  simp only [ofLittleEndian, UInt32.toNat_toUInt8, UInt32.toNat_shiftRight,
    Nat.shiftRight_eq_div_pow, UInt32.reduceToNat, Nat.reduceMod, Nat.reducePow]
  omega

namespace Frame

/-- The bytes of the frame with a message. -/
def bytes (message : List UInt8) : List UInt8 :=
  Bytes.littleEndian (UInt32.ofNat message.length) ++ message

/-- The bytes of frames one after another. -/
def stream (messages : List (List UInt8)) : List UInt8 :=
  messages.flatMap bytes

@[simp]
theorem stream_nil :
  stream [] = []
  := rfl

@[simp]
theorem stream_cons (message : List UInt8) (messages : List (List UInt8)) :
  stream (message :: messages) = bytes message ++ stream messages
  := rfl

theorem write_eq_bytes {message : List UInt8} (h : message.length < UInt32.size) :
  write message = .ok (bytes message)
  := if_pos h

/-- After the length of a frame its message is read. -/
theorem read_bytes_append {message : List UInt8} (h : message.length < UInt32.size)
    (rest : List UInt8) :
  read (bytes message ++ rest) = readBody message.length (message ++ rest)
  := by
  obtain ⟨a, b, c, d, hbytes, hlength⟩ := Bytes.littleEndian_eq (UInt32.ofNat message.length)
  rw [UInt32.toNat_ofNat_of_lt' h] at hlength
  rw [bytes, hbytes, List.append_assoc, ← hlength]
  rfl

/-- A frame is taken from the start of a stream, and the stream goes on behind it. -/
theorem read_bytes {message : List UInt8} (h : message.length ≤ maxSize) (rest : List UInt8) :
  read (bytes message ++ rest) = (.ok message, rest)
  := by
  have hsize : message.length < UInt32.size := Nat.lt_of_le_of_lt h (by decide)
  rw [read_bytes_append hsize, readBody, if_neg (Nat.not_lt.mpr h), if_neg]
  · rw [List.take_left, List.drop_left]
  · simp

/-- Of a frame that is too long only the length is taken from a stream. -/
theorem read_bytes_of_oversized {message : List UInt8} (h : maxSize < message.length)
    (hsize : message.length < UInt32.size) (rest : List UInt8) :
  read (bytes message ++ rest) = (.error .oversizedMessage, message ++ rest)
  := by
  rw [read_bytes_append hsize, readBody, if_pos h]

variable {α : Type} {read? : Json → Option α}

/-- What a message says, if it writes a value that `read?` reads. -/
def meaning? (read? : Json → Option α) (message : List UInt8) : Option α := do
  read? (← Json.parse? (← Text.decode? message).toList)

/-- Whether a message says anything or not, the stream goes on behind its frame. -/
theorem readMessage_bytes {message : List UInt8} (h : message.length ≤ maxSize)
    (rest : List UInt8) :
  readMessage read? (bytes message ++ rest)
    = ((meaning? read? message).elim (.error .unreadableMessage) .ok, rest)
  := by
  rw [readMessage, read_bytes h]
  dsimp only
  rw [← meaning?]
  cases meaning? read? message <;> rfl

theorem readMessage_bytes_of_oversized {message : List UInt8} (h : maxSize < message.length)
    (hsize : message.length < UInt32.size) (rest : List UInt8) :
  readMessage read? (bytes message ++ rest) = (.error .oversizedMessage, message ++ rest)
  := by
  rw [readMessage, read_bytes_of_oversized h hsize]

end Frame

/-! ### Replies -/

/-- Whether a reply tells that the endpoint has ended. -/
def Reply.tellsEnd : Reply → Bool
  | value r => r.flags.has .quit
  | _ => false

theorem Service.isLast_eq {σ : Type} (service : Service σ) :
  service.isLast = service.reply.tellsEnd
  := by
  obtain ⟨reply, state, remarks⟩ := service
  cases reply <;> rfl

namespace Service

variable {σ : Type} [Endpoint σ]

/-- What a server does with a message by itself. -/
def answerMessage (s : σ) (message : List UInt8) : Service σ :=
  if Frame.maxSize < message.length then refuse s .oversizedMessage
  else (Frame.meaning? Request.ofJson? message).elim (refuse s .unreadableMessage) (answer s)

/-- A message that is no request is refused, and the endpoint is left as it is. -/
theorem answerMessage_of_unacceptable (s : σ) {message : List UInt8}
    (h : Frame.maxSize < message.length ∨ Frame.meaning? Request.ofJson? message = none) :
  ∃ e : Error, answerMessage s message = refuse s e
  := by
  rw [answerMessage]
  split
  · exact ⟨_, rfl⟩
  · rename_i hsize
    rw [h.resolve_left hsize]
    exact ⟨_, rfl⟩

end Service

/-! ### Serving -/

section serve

variable {σ : Type} [Endpoint σ]

/-- A server does nothing at the end of a stream. -/
theorem serve_nil (s : σ) :
  serve s [] = ⟨[], s, []⟩
  := by
  rw [serve]
  rfl

/-- A server replies to what is read first, and goes on with what is left unless that was the
end of its endpoint. -/
theorem serve_of_read {s : σ} {input rest : List UInt8} {read : Except Error Request}
    (hread : Frame.readMessage Request.ofJson? input = (read, rest))
    (hend : Frame.isEnd read = false) :
  let service := Service.answerRead s read
  let next := serve service.state rest
  (serve s input).replies = service.reply :: (if service.isLast then [] else next.replies)
    ∧ (serve s input).state = if service.isLast then service.state else next.state
  := by
  rw [serve, hread]
  dsimp only
  rw [dif_neg (by simp [hend])]
  split <;> exact ⟨rfl, rfl⟩

/-- The bytes that a server reads after a frame. -/
def restAfter (message rest : List UInt8) : List UInt8 :=
  if Frame.maxSize < message.length then message ++ rest else rest

/-- A server replies to a frame by itself. -/
theorem serve_bytes (s : σ) {message : List UInt8} (hsize : message.length < UInt32.size)
    (rest : List UInt8) :
  let service := Service.answerMessage s message
  let next := serve service.state (restAfter message rest)
  (serve s (Frame.bytes message ++ rest)).replies
      = service.reply :: (if service.isLast then [] else next.replies)
    ∧ (serve s (Frame.bytes message ++ rest)).state
      = if service.isLast then service.state else next.state
  := by
  rw [Service.answerMessage, restAfter]
  by_cases h : Frame.maxSize < message.length
  · rw [if_pos h, if_pos h]
    apply serve_of_read (Frame.readMessage_bytes_of_oversized h hsize rest) rfl
  · rw [if_neg h, if_neg h]
    have hread : Frame.readMessage Request.ofJson? (Frame.bytes message ++ rest) = _ :=
      Frame.readMessage_bytes (Nat.not_lt.mp h) rest
    cases hmeaning : Frame.meaning? Request.ofJson? message with
    | some request =>
      rw [hmeaning] at hread
      apply serve_of_read hread rfl
    | none =>
      rw [hmeaning] at hread
      apply serve_of_read hread rfl

/-- A server goes on behind a frame, unless its reply tells the end. -/
theorem serve_bytes_of_stay {s : σ} {message : List UInt8} (hsize : message.length ≤ Frame.maxSize)
    (hstay : (Service.answerMessage s message).reply.tellsEnd = false) (rest : List UInt8) :
  let service := Service.answerMessage s message
  (serve s (Frame.bytes message ++ rest)).replies
      = service.reply :: (serve service.state rest).replies
    ∧ (serve s (Frame.bytes message ++ rest)).state = (serve service.state rest).state
  := by
  have hlength : message.length < UInt32.size := Nat.lt_of_le_of_lt hsize (by decide)
  have hserve := serve_bytes s hlength rest
  dsimp only at hserve ⊢
  rw [Service.isLast_eq, hstay, restAfter, if_neg (Nat.not_lt.mpr hsize)] at hserve
  exact hserve

/-- A server refuses a frame that is too long, and goes on with the message of that frame. -/
theorem serve_bytes_of_oversized (s : σ) {message : List UInt8}
    (hlong : Frame.maxSize < message.length) (hsize : message.length < UInt32.size)
    (rest : List UInt8) :
  (serve s (Frame.bytes message ++ rest)).replies
      = (Service.refuse s .oversizedMessage).reply :: (serve s (message ++ rest)).replies
    ∧ (serve s (Frame.bytes message ++ rest)).state = (serve s (message ++ rest)).state
  := serve_of_read (Frame.readMessage_bytes_of_oversized hlong hsize rest) rfl

/-- As long as no reply tells the end, a server makes one reply to each frame of a stream, and then
goes on with what follows the frames. -/
theorem serve_stream_append (s : σ) {messages : List (List UInt8)}
    (hsize : ∀ message ∈ messages, message.length ≤ Frame.maxSize)
    (hstay : ∀ reply ∈ (serve s (Frame.stream messages)).replies, reply.tellsEnd = false) :
  let served := serve s (Frame.stream messages)
  served.replies.length = messages.length
    ∧ ∀ rest : List UInt8,
      (serve s (Frame.stream messages ++ rest)).replies
          = served.replies ++ (serve served.state rest).replies
        ∧ (serve s (Frame.stream messages ++ rest)).state = (serve served.state rest).state
  := by
  induction messages generalizing s with
  | nil => simp [serve_nil]
  | cons message messages ih =>
    obtain ⟨hmessage, hsize⟩ := List.forall_mem_cons.mp hsize
    have hlength : message.length < UInt32.size := Nat.lt_of_le_of_lt hmessage (by decide)
    rw [Frame.stream_cons, (serve_bytes s hlength _).1, List.forall_mem_cons] at hstay
    obtain ⟨hfirst, hstay⟩ := hstay
    have hserve := serve_bytes_of_stay hmessage hfirst
    rw [Service.isLast_eq, hfirst, restAfter, if_neg (Nat.not_lt.mpr hmessage)] at hstay
    obtain ⟨hcount, hmore⟩ := ih _ hsize hstay
    dsimp only at hserve hcount hmore ⊢
    constructor
    · rw [Frame.stream_cons, (hserve _).1, List.length_cons, List.length_cons, hcount]
    · intro rest
      rw [Frame.stream_cons, List.append_assoc, (hserve _).1, (hserve _).2, (hserve _).1,
        (hserve _).2, (hmore rest).1, (hmore rest).2, List.cons_append]
      exact ⟨rfl, rfl⟩

/-- A server answers the frames of a stream one by one: there is one reply to each frame, in
order, up to the one that tells the end. The reply to a message is found from the message alone
and the state of the endpoint that the frames before it have left. A message that is no request
is answered with an error and changes nothing. The next frame is read from where a frame ends, but
for a message that is too long, which is read as if it were frames. -/
theorem serve_frame (s : σ) {before : List (List UInt8)} {message : List UInt8}
    (hbefore : ∀ m ∈ before, m.length ≤ Frame.maxSize) (hmessage : message.length < UInt32.size)
    (hstay : ∀ reply ∈ (serve s (Frame.stream before)).replies, reply.tellsEnd = false)
    (rest : List UInt8) :
  let served := serve s (Frame.stream before)
  let service := Service.answerMessage served.state message
  let next := serve service.state (restAfter message rest)
  let all := serve s (Frame.stream before ++ (Frame.bytes message ++ rest))
  served.replies.length = before.length
    ∧ all.replies
      = served.replies ++ service.reply :: (if service.reply.tellsEnd then [] else next.replies)
    ∧ all.state = (if service.reply.tellsEnd then service.state else next.state)
    ∧ (∀ request : Request, message.length ≤ Frame.maxSize →
      Frame.meaning? Request.ofJson? message = some request →
      service = Service.answer served.state request)
    ∧ (Frame.maxSize < message.length ∨ Frame.meaning? Request.ofJson? message = none →
      service.state = served.state
        ∧ ∃ text : String, service.reply = .error Category.format.code text)
  := by
  obtain ⟨hcount, hmore⟩ := serve_stream_append s hbefore hstay
  intro served service next all
  obtain ⟨hreplies, hstate⟩ := serve_bytes served.state hmessage rest
  refine ⟨hcount, ?_, ?_, ?_, ?_⟩
  · rw [← Service.isLast_eq, ← hreplies]
    apply (hmore _).1
  · rw [← Service.isLast_eq, ← hstate]
    apply (hmore _).2
  · intro request hsize hmeaning
    rw [show service = Service.answerMessage served.state message from rfl, Service.answerMessage,
      if_neg (Nat.not_lt.mpr hsize), hmeaning]
    rfl
  · intro hunacceptable
    obtain ⟨e, he⟩ := Service.answerMessage_of_unacceptable served.state hunacceptable
    rw [show service = Service.refuse served.state e from he]
    exact ⟨rfl, _, rfl⟩

/-- Between a request that is answered and another one stands a message that is none. -/
theorem serve_frame_refused :
  let s : Session := .start (fun _ => []) .standard
  let before := [Text.encode (Request.send "a" .none).toJson.compact,
    Text.encode Request.recv.toJson.compact]
  let message := Text.encode "\x7b]"
  let rest := Frame.bytes (Text.encode (Request.send "b" .more).toJson.compact)
  let served := serve s (Frame.stream before)
  (∀ m ∈ before, m.length ≤ Frame.maxSize)
    ∧ message.length < UInt32.size
    ∧ (∀ reply ∈ served.replies, reply.tellsEnd = false)
    ∧ Frame.meaning? Request.ofJson? message = none
    ∧ served.replies.length = 2
    ∧ (serve s (Frame.stream before ++ (Frame.bytes message ++ rest))).replies
      = served.replies ++ .error 2 "invalid request: not a message of the expected type"
        :: (serve served.state rest).replies
  := by
  intro s before message rest served
  have hbefore : ∀ m ∈ before, m.length ≤ Frame.maxSize := by decide +kernel
  have hmessage : message.length < UInt32.size := by decide +kernel
  have hstay : ∀ reply ∈ served.replies, reply.tellsEnd = false := by decide +kernel
  have hmeaning : Frame.meaning? Request.ofJson? message = none := by decide +kernel
  obtain ⟨hcount, hreplies, -, -, -⟩ := serve_frame s hbefore hmessage hstay rest
  refine ⟨hbefore, hmessage, hstay, hmeaning, hcount, ?_⟩
  rw [hreplies, Service.answerMessage, if_neg (by decide +kernel), hmeaning]
  rfl

end serve

/-- One frame with two replies: its message is too long, and begins like the frame of a request. -/
theorem serve_oversized_twice :
  let s : Session := .start (fun _ => []) .standard
  let request := Text.encode Request.recv.toJson.compact
  let message := Frame.bytes request ++ List.replicate Frame.maxSize 0
  message.length < UInt32.size
    ∧ ∃ more : List Reply, (serve s (Frame.stream [message])).replies
      = .error 2 "invalid request: message too large"
        :: .error 5 "protocol error: recv with no pending statement" :: more
  := by
  intro s request message
  have hshort : request.length ≤ Frame.maxSize := by decide +kernel
  have hmeaning : Frame.meaning? Request.ofJson? request = some .recv := by decide +kernel
  have hrequest : (Frame.bytes request).length = 19 := by decide +kernel
  have hlength : message.length = 19 + Frame.maxSize := by
    rw [List.length_append, List.length_replicate, hrequest]
  have hsize : message.length < UInt32.size := by
    rw [hlength]
    decide
  have hlong : Frame.maxSize < message.length := by omega
  have hanswered : Service.answerMessage s request = Service.answer s .recv := by
    rw [Service.answerMessage, if_neg (Nat.not_lt.mpr hshort), hmeaning]
    rfl
  have hstay : (Service.answerMessage s request).reply.tellsEnd = false := by
    rw [hanswered]
    rfl
  have hsecond := (serve_bytes_of_stay hshort hstay (List.replicate Frame.maxSize 0)).1
  rw [hanswered] at hsecond
  refine ⟨hsize,
    (serve (Service.answer s .recv).state (List.replicate Frame.maxSize 0)).replies, ?_⟩
  rw [Frame.stream_cons, Frame.stream_nil, (serve_bytes_of_oversized s hlong hsize []).1,
    List.append_nil, hsecond]
  rfl

end Retrieval
