import Retrieval.Proofs.Text.Place
import Retrieval.Proofs.Wire.Message

/-!
# Streams of messages

Messages whose frames stand one after another are read back in order, and then the stream is at
its end. If the stream breaks off within a frame, the messages of the frames before it are read
back, and then the stream ends as well. This needs messages that are no longer than what is read:
a longer one is written, but from its length on nothing is read any more.
-/

namespace Retrieval

namespace Frame

/-! ### Kinds of messages -/

/-- A kind of messages: how a message is written as a JSON value, and read back from it. -/
structure Codec (α : Type) where
  toJson : α → Json
  ofJson? : Json → Option α
  written (m : α) : (toJson m).Written
  ofJson?_toJson (m : α) : ofJson? (toJson m) = some m

namespace Codec

variable {α : Type} (c : Codec α)

/-- The bytes of a message, without their length. -/
def encode (m : α) : List UInt8 :=
  Text.encode (c.toJson m).compact

/-- The frame of a message. -/
def frame (m : α) : List UInt8 :=
  bytes (c.encode m)

/-- Whether a message is short enough to be read. -/
def Fits (m : α) : Prop :=
  (c.encode m).length ≤ maxSize

instance (m : α) : Decidable (c.Fits m) :=
  inferInstanceAs (Decidable (_ ≤ _))

/-- A message that fits is read back from its frame. -/
theorem readMessage_frame {m : α} (h : c.Fits m) (rest : List UInt8) :
  readMessage c.ofJson? (c.frame m ++ rest) = (.ok m, rest)
  := readMessage_ofValue (c.written m) (c.ofJson?_toJson m) h rest

/-- The frames of messages that can be written are their lengths and their bytes. -/
theorem frames_eq {messages : List α} {frames : List (List UInt8)}
    (h : messages.mapM (fun m => ofJson (c.toJson m)) = .ok frames) :
  frames = messages.map c.frame
    ∧ ∀ m ∈ messages, (c.encode m).length < UInt32.size
  := by
  induction messages generalizing frames with
  | nil =>
    cases h
    exact ⟨rfl, fun m hm => absurd hm List.not_mem_nil⟩
  | cons m messages ih =>
    rw [List.mapM_cons, ofJson, ← encode] at h
    by_cases hsize : (c.encode m).length < UInt32.size
    · rw [write_eq_bytes hsize] at h
      cases hmore : messages.mapM (fun m => ofJson (c.toJson m)) with
      | error e =>
        rw [hmore] at h
        cases h
      | ok more =>
        rw [hmore] at h
        cases h
        obtain ⟨rfl, hsizes⟩ := ih hmore
        exact ⟨rfl, List.forall_mem_cons.mpr ⟨hsize, hsizes⟩⟩
    · rw [write, if_neg hsize] at h
      cases h

end Codec

end Frame

/-- Requests. -/
def Request.codec : Frame.Codec Request :=
  ⟨toJson, ofJson?, written, ofJson?_toJson⟩

/-- Replies. -/
def Reply.codec : Frame.Codec Reply :=
  ⟨toJson, ofJson?, written, ofJson?_toJson⟩

namespace Frame

variable {α : Type}

/-! ### Streams that break off -/

/-- From a part of a frame nothing is read: the stream ends before the length of the message or
before its last byte. -/
theorem read_of_partial {message l : List UInt8} (hsize : message.length < UInt32.size)
    (hl : l <+: bytes message) (hne : l ≠ bytes message)
    (hshort : message.length ≤ maxSize ∨ l.length < 4) :
  (read l).1 = .error .endOfStream
  := by
  obtain ⟨a, b, c, d, hbytes, hlength⟩ := Bytes.littleEndian_eq (UInt32.ofNat message.length)
  rw [UInt32.toNat_ofNat_of_lt' hsize] at hlength
  have hframe : bytes message = a :: b :: c :: d :: message := by
    rw [bytes, hbytes]
    rfl
  rw [hframe] at hl hne
  rcases l with _ | ⟨a', _ | ⟨b', _ | ⟨c', _ | ⟨d', l⟩⟩⟩⟩
  · rfl
  · rfl
  · rfl
  · rfl
  · simp only [List.cons_prefix_cons] at hl
    obtain ⟨rfl, rfl, rfl, rfl, hl⟩ := hl
    have hfits : message.length ≤ maxSize := by
      apply hshort.resolve_right
      simp
    have hlt : l.length < message.length := by
      apply Nat.lt_of_le_of_ne hl.length_le
      intro heq
      apply hne
      rw [hl.eq_of_length heq]
    rw [read, readBody, hlength, if_neg (Nat.not_lt.mpr hfits), if_pos hlt]

/-- From the length of a message on that is too long nothing is read. -/
theorem read_of_oversized {message l : List UInt8} (hsize : message.length < UInt32.size)
    (hlong : maxSize < message.length) (hl : (bytes message).take 4 <+: l) :
  (read l).1 = .error .oversizedMessage
  := by
  obtain ⟨a, b, c, d, hbytes, hlength⟩ := Bytes.littleEndian_eq (UInt32.ofNat message.length)
  rw [UInt32.toNat_ofNat_of_lt' hsize] at hlength
  rw [bytes, hbytes] at hl
  obtain ⟨rest, rfl⟩ := hl
  change (readBody (Bytes.ofLittleEndian a b c d) rest).1 = .error .oversizedMessage
  rw [readBody, hlength, if_pos hlong]

/-! ### Reading on -/

/-- Reads messages until one cannot be read: the messages, and why there is not one more. -/
def readAll (read? : Json → Option α) (l : List UInt8) : List α × Error :=
  match h : (readMessage read? l).1 with
  | .error e => ([], e)
  | .ok m =>
    have := @length_readMessage_lt _ read? l (by simp [h])
    let (more, e) := readAll read? (readMessage read? l).2
    (m :: more, e)
termination_by l.length

variable {read? : Json → Option α} {l rest : List UInt8}

theorem readAll_of_ok {m : α} (h : readMessage read? l = (.ok m, rest)) :
  readAll read? l = (m :: (readAll read? rest).1, (readAll read? rest).2)
  := by
  rw [readAll]
  split
  · rename_i heq
    rw [h] at heq
    cases heq
  · rename_i heq
    rw [h] at heq
    cases heq
    simp only [h]

theorem readAll_of_error {e : Error} (h : (read l).1 = .error e) :
  readAll read? l = ([], e)
  := by
  have hmessage : (readMessage read? l).1 = .error e := by simp only [readMessage, h]
  rw [readAll]
  split
  · rename_i heq
    rw [hmessage] at heq
    cases heq
    rfl
  · rename_i heq
    rw [hmessage] at heq
    cases heq

/-- Messages that are not too long are read back, and what follows their frames is read after
them. -/
theorem readAll_append (c : Codec α) {messages : List α} (h : ∀ m ∈ messages, c.Fits m)
    (l : List UInt8) :
  readAll c.ofJson? ((messages.map c.frame).flatten ++ l)
    = (messages ++ (readAll c.ofJson? l).1, (readAll c.ofJson? l).2)
  := by
  induction messages with
  | nil => rfl
  | cons m messages ih =>
    obtain ⟨hm, hmore⟩ := List.forall_mem_cons.mp h
    rw [List.map_cons, List.flatten_cons, List.append_assoc]
    rw [readAll_of_ok (c.readMessage_frame hm _), ih hmore]
    rfl

/-- Messages that are written one after another are read back in order, and then the stream is at
its end. Where the stream breaks off within a frame, the messages before that frame are read back,
and then the stream ends. This holds as far as the messages are not too long: of the first message
that is, its length is the last thing that is read. -/
theorem readAll_written (c : Codec α) {messages : List α} {frames : List (List UInt8)}
    (hwrite : messages.mapM (fun m => ofJson (c.toJson m)) = .ok frames) :
  ((∀ m ∈ messages, c.Fits m) → readAll c.ofJson? frames.flatten = (messages, .endOfStream))
    ∧ ∀ (n : Nat) (m : α) (frame : List UInt8),
      messages[n]? = some m → frames[n]? = some frame → (∀ m ∈ messages.take n, c.Fits m) →
      (∀ l, l <+: frame → l ≠ frame → c.Fits m ∨ l.length < 4 →
        readAll c.ofJson? ((frames.take n).flatten ++ l) = (messages.take n, .endOfStream))
      ∧ (¬c.Fits m → ∀ l, frame.take 4 <+: l →
        readAll c.ofJson? ((frames.take n).flatten ++ l) = (messages.take n, .oversizedMessage))
  := by
  obtain ⟨rfl, hsizes⟩ := c.frames_eq hwrite
  constructor
  · intro hfits
    have hall := readAll_append c hfits []
    have hend : readAll c.ofJson? [] = ([], .endOfStream) := readAll_of_error rfl
    rw [List.append_nil, hend, List.append_nil] at hall
    exact hall
  · intro n m frame hm hframe hfits
    have hsize := hsizes m (List.mem_of_getElem? hm)
    rw [List.getElem?_map, hm] at hframe
    obtain rfl := Option.some.inj hframe
    constructor
    · intro l hl hne hshort
      rw [← List.map_take, readAll_append c hfits,
        readAll_of_error (read_of_partial hsize hl hne hshort), List.append_nil]
    · intro hlong l hl
      rw [← List.map_take, readAll_append c hfits,
        readAll_of_error (read_of_oversized hsize (Nat.not_le.mp hlong) hl), List.append_nil]

/-- Requests and replies are read back, one of which takes more bytes than characters and two of
which hold characters that are escaped. A stream of replies that breaks off in the second one still
gives the first one. -/
theorem readAll_written_two :
  let requests := [Request.send "é?" .more, .recv]
  let replies := [Reply.value ⟨"\"", .head⟩, .error (-1) "\n"]
  ∃ frames frames',
    requests.mapM (fun m => ofJson (Request.codec.toJson m)) = .ok frames
    ∧ replies.mapM (fun m => ofJson (Reply.codec.toJson m)) = .ok frames'
    ∧ readAll Request.codec.ofJson? frames.flatten = (requests, .endOfStream)
    ∧ readAll Reply.codec.ofJson? frames'.flatten = (replies, .endOfStream)
    ∧ ∃ frame, frames'[1]? = some frame
      ∧ readAll Reply.codec.ofJson? ((frames'.take 1).flatten ++ frame.take 20)
        = ([.value ⟨"\"", .head⟩], .endOfStream)
  := by
  intro requests replies
  have hwrite : requests.mapM (fun m => ofJson (Request.codec.toJson m))
      = .ok (requests.map Request.codec.frame) := by decide +kernel
  have hwrite' : replies.mapM (fun m => ofJson (Reply.codec.toJson m))
      = .ok (replies.map Reply.codec.frame) := by decide +kernel
  have hfits : ∀ m ∈ requests, Request.codec.Fits m := by decide +kernel
  have hfits' : ∀ m ∈ replies, Reply.codec.Fits m := by decide +kernel
  obtain ⟨hall', hpart'⟩ := readAll_written Reply.codec hwrite'
  refine ⟨_, _, hwrite, hwrite', (readAll_written Request.codec hwrite).1 hfits, hall' hfits',
    _, rfl, ?_⟩
  apply (hpart' 1 _ _ rfl rfl (by decide +kernel)).1 _ (List.take_prefix _ _) (by decide +kernel)
  exact .inl (by decide +kernel)

end Frame

/-! ### A message that is too long -/

theorem Text.byteLength_replicate (n : Nat) :
  byteLength (List.replicate n 'a') = n
  := by
  induction n with
  | zero => rfl
  | succ n ih =>
    rw [List.replicate_succ, byteLength_cons, ih]
    exact Nat.add_comm 1 n

theorem Json.escape_replicate (n : Nat) :
  escape (List.replicate n 'a') = List.replicate n 'a'
  := by
  induction n with
  | zero => rfl
  | succ n ih =>
    rw [List.replicate_succ, escape, List.flatMap_cons, ← escape, ih]
    rfl

namespace Request

/-- A request that sends some text is the text between two fixed ones. -/
theorem compactChars_send (fragment : String) :
  (send fragment .none).toJson.compactChars
    = "\x7b\"type\":\"Send\",\"fragment\":\"".toList
      ++ (Json.escape fragment.toList ++ "\",\"flags\":0\x7d".toList)
  := by
  have hflags : Flags.none.toJson.compactChars = ['0'] := by decide +kernel
  simp [toJson, Json.record, Json.text, Json.name, hflags, Json.compactChars, Json.compactFields,
    Json.scalarChars, Json.inQuotes, Json.escape, Json.escapeChar]

/-- The request that sends a text of so many letters. -/
def sendLetters (n : Nat) : Request :=
  send (String.ofList (List.replicate n 'a')) .none

theorem length_encode_sendLetters (n : Nat) :
  (codec.encode (sendLetters n)).length = n + 39
  := by
  have hbytes : (codec.encode (sendLetters n)).length
      = Text.byteLength (sendLetters n).toJson.compactChars := Text.length_encode_ofList _
  have hletters : (String.ofList (List.replicate n 'a')).toList = List.replicate n 'a' :=
    String.toList_ofList
  rw [hbytes, sendLetters, compactChars_send, hletters, Json.escape_replicate,
    Text.byteLength_append, Text.byteLength_append, Text.byteLength_replicate]
  have hbefore : Text.byteLength "\x7b\"type\":\"Send\",\"fragment\":\"".toList = 27 := by decide
  have hafter : Text.byteLength "\",\"flags\":0\x7d".toList = 12 := by decide
  omega

/-- A request that is one byte too long is written and is not read back. Where the stream breaks off
in its frame, it is not told that the stream ends. -/
theorem readAll_oversized :
  let request := sendLetters (Frame.maxSize - 38)
  ∃ frame, Frame.ofJson request.toJson = .ok frame
    ∧ Frame.readAll ofJson? frame = ([], .oversizedMessage)
    ∧ frame.take 4 = [1, 0, 64, 6]
    ∧ Frame.readAll ofJson? (frame.take 4) = ([], .oversizedMessage)
  := by
  intro request
  have hlength : (codec.encode request).length = Frame.maxSize + 1 := by
    rw [length_encode_sendLetters]
    decide
  have hsize : (codec.encode request).length < UInt32.size := by
    rw [hlength]
    decide
  have hlong : Frame.maxSize < (codec.encode request).length := by
    rw [hlength]
    apply Nat.lt_succ_self
  refine ⟨codec.frame request, Frame.write_eq_bytes hsize, ?_, ?_, ?_⟩
  · exact Frame.readAll_of_error (Frame.read_of_oversized hsize hlong (List.take_prefix _ _))
  · rw [Frame.Codec.frame, Frame.bytes, hlength]
    rfl
  · exact Frame.readAll_of_error (Frame.read_of_oversized hsize hlong List.prefix_rfl)

end Request

end Retrieval
