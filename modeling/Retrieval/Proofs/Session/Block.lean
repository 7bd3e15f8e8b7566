import Mathlib.Data.List.Induction
import Retrieval.Proofs.Session.Run
import Retrieval.Proofs.Session.Values

/-!
# Blocks of responses

The responses to a statement are received one after another, and no other response between them. So
what a run receives are the blocks of the statements that it completes, in order, as far as it asks
for them. A statement that ends the session is the exception: it ends the session as soon as its
first response is received, and the others are lost.
-/

namespace Retrieval

/-! ### The block of a statement -/

namespace Statement

section block

variable (index : Index) (settings : Settings) (S : Statement)

/-- The responses to a statement. There are none if one of its queries fails. -/
def block : List Response :=
  (S.responses index settings).toOption.getD []

/-- Whether the session ends when the statement is run. If the statement fails it does not. -/
def ends : Bool :=
  S.quits && !(S.block index settings).isEmpty

end block

variable {index : Index} {settings : Settings} {S : Statement} {responses : List Response}

theorem block_of_responses (h : S.responses index settings = .ok responses) :
  S.block index settings = responses
  := by
  rw [block, h]
  rfl

theorem block_of_error {e : Error} (h : S.responses index settings = .error e) :
  S.block index settings = []
  := by
  rw [block, h]
  rfl

/-- A statement with responses does not fail. -/
theorem responses_of_block (h : S.block index settings = responses) (hne : responses ≠ []) :
  S.responses index settings = .ok responses
  := by
  cases hresponses : S.responses index settings with
  | error e =>
    rw [block_of_error hresponses] at h
    exact absurd h.symm hne
  | ok rs => rw [← h, block_of_responses hresponses]

theorem ends_of_block (h : S.block index settings = responses) (hne : responses ≠ []) :
  S.ends index settings = S.quits
  := by
  rw [ends, h, List.isEmpty_eq_false_iff.mpr hne, Bool.not_false, Bool.and_true]

theorem ends_of_error {e : Error} (h : S.responses index settings = .error e) :
  S.ends index settings = false
  := by
  rw [ends, block_of_error h, List.isEmpty_nil, Bool.not_true, Bool.and_false]

/-- The flags of a response tell its place in the block. -/
theorem flags_of_block {place : Nat} {r : Response}
    (h : (S.block index settings)[place]? = some r) :
  r.flags.Tells S.quits place (S.block index settings).length
  := by
  apply flags_of_responses (responses_of_block rfl ?_) h
  intro hnil
  rw [hnil] at h
  cases h

/-- After blocks that are whole nothing more follows. -/
theorem more_of_getLast_blocks (statements : List Statement) {r : Response}
    (h : r ∈ (statements.flatMap (block index settings)).getLast?) :
  r.flags.has .more = false
  := by
  induction statements using List.reverseRecOn with
  | nil => cases h
  | append_singleton statements S ih =>
    rw [List.flatMap_append, List.flatMap_singleton, List.getLast?_append] at h
    rcases List.eq_nil_or_concat (S.block index settings) with hnil | ⟨init, last, hlast⟩
    · rw [hnil] at h
      exact ih h
    · rw [hlast, List.concat_eq_append, List.getLast?_concat] at h
      obtain rfl := Option.some.inj h
      have hplace : (S.block index settings)[init.length]? = some last := by
        rw [hlast, List.concat_eq_append, List.getElem?_concat_length]
      rw [← Bool.not_eq_true, (flags_of_block hplace).more, hlast, List.length_concat]
      exact fun hne => hne rfl

end Statement

namespace Session

variable {index : Index} {settings : Settings} {s s' : Session} {done : List Statement}
  {received : List Response}

/-! ### How far a run has come -/

/-- How far a session has come with the statements that a run completes, where so much has been
received of their blocks. -/
inductive Delivers (index : Index) (settings : Settings) (s : Session) (done : List Statement)
    (received : List Response) : Prop where
  /-- No statement has begun. -/
  | nothing (hclosed : s.closed = false) (hresponses : s.responses = [])
      (hdone : done = s.statements) (hreceived : received = [])
  /-- `S` is the last statement that has begun. The blocks before its block are whole. -/
  | block {earlier : List Statement} {S : Statement} {before : List Response}
      (hdone : done = earlier ++ S :: s.statements)
      (hreceived : received = earlier.flatMap (Statement.block index settings) ++ before)
      (hblock : S.block index settings = before ++ s.responses)
      (hbefore : before = [] → s.responses = [])
      (hearlier : ∀ T ∈ earlier, T.ends index settings = false)
      (hclosed : s.closed = S.ends index settings)
      (hfirst : S.ends index settings = true → before.length = 1)

theorem Delivers.start (index : Index) (settings : Settings) :
  (start index settings).Delivers index settings [] []
  := .nothing rfl rfl rfl rfl

/-- Where nothing waits in an open session, all blocks that have begun are whole. -/
theorem Delivers.whole (h : s.Delivers index settings done received) (hopen : s.closed = false)
    (hresponses : s.responses = []) :
  ∃ earlier : List Statement, done = earlier ++ s.statements
    ∧ received = earlier.flatMap (Statement.block index settings)
    ∧ ∀ T ∈ earlier, T.ends index settings = false
  := by
  cases h with
  | nothing _ _ hdone hreceived => exact ⟨[], hdone, hreceived, by simp⟩
  | @block earlier S before hdone hreceived hblock _ hearlier hclosed =>
    rw [hresponses, List.append_nil] at hblock
    refine ⟨earlier ++ [S], ?_, ?_, ?_⟩
    · rw [hdone, List.append_assoc, List.singleton_append]
    · rw [hreceived, List.flatMap_append, List.flatMap_singleton, hblock]
    · intro T hT
      rcases List.mem_append.mp hT with hT | hT
      · exact hearlier T hT
      · rw [List.mem_singleton.mp hT, ← hclosed, hopen]

/-- What is received goes on the block that has begun, or begins the next one. -/
theorem Receives.delivers {answer : Except Error Response}
    (hreceives : Receives index settings s answer s')
    (h : s.Delivers index settings done received) :
  s'.Delivers index settings done (received ++ answer.toOption.toList)
  := by
  cases hreceives with
  | closed => simpa [Except.toOption] using h
  | nothing => simpa [Except.toOption] using h
  | @next r responses hopen hresponses =>
    cases h with
    | nothing _ hnil =>
      rw [hnil] at hresponses
      cases hresponses
    | @block earlier S before hdone hreceived hblock _ hearlier hclosed =>
      have hreceived' : received ++ [r]
          = earlier.flatMap (Statement.block index settings) ++ (before ++ [r]) := by
        rw [hreceived, List.append_assoc]
      have hblock' : S.block index settings = before ++ [r] ++ responses := by
        rw [hblock, hresponses, List.append_assoc, List.singleton_append]
      refine .block hdone hreceived' hblock' (by simp) hearlier hclosed ?_
      rw [← hclosed, hopen]
      simp
  | @run S statements r responses cache hopen hresponses hstatements hS =>
    obtain ⟨earlier, hdone, rfl, hearlier⟩ := h.whole hopen hresponses
    have hblock := Statement.block_of_responses hS
    rw [hstatements] at hdone
    have hends : S.quits = S.ends index settings := (Statement.ends_of_block hblock (by simp)).symm
    exact .block hdone rfl hblock nofun hearlier hends (fun _ => rfl)
  | @fails S statements e cache hopen hresponses hstatements hS =>
    obtain ⟨earlier, hdone, rfl, hearlier⟩ := h.whole hopen hresponses
    have hblock : S.block index settings = [] ++ s.responses := by
      rw [Statement.block_of_error hS, hresponses, List.append_nil]
    have hends := Statement.ends_of_error hS
    rw [hstatements] at hdone
    refine .block hdone rfl hblock (fun _ => hresponses) hearlier (hopen.trans hends.symm) ?_
    simp [hends]

theorem Delivers.call (hvalid : settings.validate = .ok ()) (hsound : s.Sound index settings)
    (h : s.Delivers index settings done received) (c : Call) :
  (s.call c).Delivers index settings (done ++ s.completedBy c)
    (received ++ (s.receivedBy c).filterMap Except.toOption)
  := by
  cases c with
  | send fragment flags =>
    obtain ⟨draft, hstate⟩ := s.exists_state_send fragment flags
    rw [Session.call, hstate, receivedBy, List.filterMap_nil, List.append_nil]
    cases h with
    | nothing hclosed hresponses hdone hreceived =>
      exact .nothing hclosed hresponses (by rw [hdone]) hreceived
    | block hdone hreceived hblock hbefore hearlier hclosed hfirst =>
      refine .block ?_ hreceived hblock hbefore hearlier hclosed hfirst
      rw [hdone, List.append_assoc, List.cons_append]
  | recv =>
    have hdelivers := (receives_recv hvalid hsound).delivers h
    rw [completedBy, List.append_nil, receivedBy]
    cases hanswer : s.recv.answer with
    | error e => rwa [hanswer] at hdelivers
    | ok r => rwa [hanswer] at hdelivers

/-- What a run receives are the blocks of the statements that have begun, one after another. -/
theorem Delivers.after (hvalid : settings.validate = .ok ()) (hsound : s.Sound index settings)
    (h : s.Delivers index settings done received) (calls : List Call) :
  (s.after calls).Delivers index settings (done ++ s.completed calls)
    (received ++ (s.received calls).filterMap Except.toOption)
  := by
  induction calls generalizing s done received with
  | nil => simpa [Session.after, completed, Session.received] using h
  | cons c calls ih =>
    rw [completed, Session.received, List.filterMap_append, ← List.append_assoc,
      ← List.append_assoc]
    exact ih (hsound.call hvalid c) (h.call hvalid hsound c)

/-! ### What follows -/

/-- Sending does not change what waits to be received, and does not end the session. -/
theorem responses_sendAll (s : Session) (sent : List (String × Flags)) :
  (s.sendAll sent).responses = s.responses ∧ (s.sendAll sent).closed = s.closed
  := by
  induction sent generalizing s with
  | nil => exact ⟨rfl, rfl⟩
  | cons x sent ih =>
    obtain ⟨draft, hstate⟩ := s.exists_state_send x.1 x.2
    rw [sendAll_cons, hstate]
    exact ih _

/-- A response that waits in an open session is received. -/
theorem recv_of_responses (hopen : s.closed = false) {r : Response} {responses : List Response}
    (h : s.responses = r :: responses) :
  s.recv = .pure { s with responses } r
  := by
  rw [recv, if_neg (by simp [hopen]), if_neg (by simp [h]), take, h]

/-- A response that waits is received, unless the session has ended. -/
theorem answer_recv_of_responses {r : Response} {responses : List Response}
    (h : s.responses = r :: responses) :
  s.recv.answer = if s.closed then .error .sessionClosed else .ok r
  := by
  cases hclosed : s.closed with
  | false =>
    rw [recv_of_responses hclosed h]
    rfl
  | true =>
    rw [recv, if_pos hclosed]
    rfl

/-- What waits in an open session is received first, once it is asked for so many responses. -/
theorem prefix_received {responses : List Response} (hopen : s.closed = false)
    (hresponses : s.responses = responses) {calls : List Call}
    (hcalls : responses.length ≤ calls.count .recv) :
  responses <+: (s.received calls).filterMap Except.toOption
  := by
  induction calls generalizing s responses with
  | nil =>
    rw [List.count_nil, Nat.le_zero, List.length_eq_zero_iff] at hcalls
    rw [hcalls]
    apply List.nil_prefix
  | cons c calls ih =>
    cases c with
    | send fragment flags =>
      obtain ⟨draft, hstate⟩ := s.exists_state_send fragment flags
      rw [List.count_cons_of_ne (by simp)] at hcalls
      rw [Session.received, receivedBy, List.nil_append, Session.call, hstate]
      exact ih hopen hresponses hcalls
    | recv =>
      cases responses with
      | nil => apply List.nil_prefix
      | cons r responses =>
        rw [List.count_cons_self, List.length_cons] at hcalls
        rw [Session.received, receivedBy, Session.call, recv_of_responses hopen hresponses]
        apply List.cons_prefix_cons.mpr
        exact ⟨rfl, ih hopen rfl (Nat.le_of_succ_le_succ hcalls)⟩

/-- Where responses wait after a run the last one that was received says so. -/
theorem Delivers.more_iff (h : s.Delivers index settings done received) :
  (∃ r ∈ received.getLast?, r.flags.has .more = true) ↔ s.responses ≠ []
  := by
  cases h with
  | nothing _ hresponses _ hreceived => simp [hresponses, hreceived]
  | @block earlier S before _ hreceived hblock hbefore =>
    by_cases hwaits : s.responses = []
    · have hwhole : received = (earlier ++ [S]).flatMap (Statement.block index settings) := by
        rw [hreceived, List.flatMap_append, List.flatMap_singleton, hblock, hwaits, List.append_nil]
      constructor
      · rintro ⟨r, hr, hmore⟩
        rw [hwhole] at hr
        rw [Statement.more_of_getLast_blocks _ hr] at hmore
        cases hmore
      · intro hne
        exact absurd hwaits hne
    · obtain ⟨init, last, rfl⟩ := (List.eq_nil_or_concat' before).resolve_left (hwaits ∘ hbefore)
      have hplace : (S.block index settings)[init.length]? = some last := by
        rw [hblock, List.append_assoc, List.getElem?_append_right (Nat.le_refl _), Nat.sub_self]
        rfl
      have hlength : init.length + 1 ≠ (S.block index settings).length := by
        have hpos := List.length_pos_iff.mpr hwaits
        rw [hblock, List.length_append, List.length_append, List.length_singleton]
        omega
      refine ⟨fun _ => hwaits, fun _ => ⟨last, ?_, ?_⟩⟩
      · rw [hreceived, ← List.append_assoc, List.getLast?_concat]
        rfl
      · exact (Statement.flags_of_block hplace).more.mpr hlength

/-! ### Blocks are received whole -/

/-- What a run receives are the blocks of the statements that have begun, in order, and what still
waits is the rest of the last one of them. The flags of each response tell its place in its block, so
more are to follow on the last one received exactly if responses wait. Then whatever is sent, the next
call for a response gives the next one, and once it is asked for as many responses as wait the block
is whole. Only a statement that ends the session is cut off: its first response is received, and
then each call fails. -/
theorem delivered_in_blocks (hvalid : settings.validate = .ok ()) (calls : List Call) :
  let s := (start index settings).after calls
  let received (calls : List Call) : List Response :=
    ((start index settings).received calls).filterMap Except.toOption
  ∃ begun : List Statement,
    (start index settings).completed calls = begun ++ s.statements
      ∧ received calls ++ s.responses = begun.flatMap (Statement.block index settings)
      ∧ (∀ S ∈ begun, ∀ (place : Nat) (r : Response), (S.block index settings)[place]? = some r →
        r.flags.Tells S.quits place (S.block index settings).length)
      ∧ ((∃ r ∈ (received calls).getLast?, r.flags.has .more = true) ↔ s.responses ≠ [])
      ∧ ∀ (earlier : List Statement) (S : Statement), begun = earlier ++ [S] →
        (∀ T ∈ earlier, T.ends index settings = false)
          ∧ (∃ before : List Response, S.block index settings = before ++ s.responses
            ∧ received calls = earlier.flatMap (Statement.block index settings) ++ before
            ∧ (S.ends index settings = true → before.length = 1))
          ∧ (∀ (next : Response) (rest : List Response), s.responses = next :: rest →
            ∀ sent : List (String × Flags), (s.sendAll sent).recv.answer
              = if S.ends index settings then .error .sessionClosed else .ok next)
          ∧ (S.ends index settings = false → ∀ more : List Call,
            s.responses.length ≤ more.count .recv →
            begun.flatMap (Statement.block index settings) <+: received (calls ++ more))
  := by
  intro s received
  have hdelivers := (Delivers.start index settings).after hvalid (.start index settings) calls
  have hmore := hdelivers.more_iff
  rw [List.nil_append, List.nil_append] at hdelivers
  cases hdelivers with
  | nothing _ hresponses hdone hreceived =>
    refine ⟨[], hdone, ?_, by simp, hmore, by simp⟩
    rw [List.flatMap_nil, List.append_eq_nil_iff]
    exact ⟨hreceived, hresponses⟩
  | @block earlier S before hdone hreceived hblock _ hearlier hclosed hfirst =>
    have hbegun : (earlier ++ [S]).flatMap (Statement.block index settings)
        = received calls ++ s.responses := by
      rw [List.flatMap_append, List.flatMap_singleton, hblock, ← List.append_assoc]
      exact congrArg (· ++ s.responses) hreceived.symm
    refine ⟨earlier ++ [S], ?_, hbegun.symm, ?_, hmore, ?_⟩
    · rw [hdone, List.append_assoc, List.singleton_append]
    · exact fun T _ place r h => Statement.flags_of_block h
    · intro earlier' S' heq
      obtain ⟨rfl, hS⟩ := List.append_inj' heq rfl
      obtain rfl := (List.cons.inj hS).1
      refine ⟨hearlier, ⟨before, hblock, hreceived, hfirst⟩, ?_, ?_⟩
      · intro next rest hnext sent
        obtain ⟨hresponses', hclosed'⟩ := responses_sendAll s sent
        rw [answer_recv_of_responses (hresponses'.trans hnext), hclosed', hclosed]
      · intro hopen more hcount
        rw [hbegun]
        change _ <+: ((start index settings).received (calls ++ more)).filterMap _
        rw [received_append, List.filterMap_append, List.prefix_append_right_inj]
        exact prefix_received (hclosed.trans hopen) rfl hcount

theorem exists_ok_of_any {answer : Except Error Response} {p : Response → Bool}
    (h : answer.toOption.any p = true) :
  ∃ r, answer = .ok r ∧ p r = true
  := by
  cases answer with
  | error e => cases h
  | ok r => exact ⟨r, rfl, h⟩

/-- Of four responses two have been received. The next one is the same as the last one, and is
received all the same. -/
theorem delivered_in_blocks_alike :
  let index : Index := fun lookup => if lookup.term = "alpha" then [⟨⟨.number 7, 1, 0⟩, 1⟩] else []
  let calls : List Call := [.send "alpha; alpha" .more, .recv, .send "; alpha; alpha" .none, .recv,
    .send "beta" .more, .recv]
  let S : Statement := ⟨"alpha; alpha; alpha; alpha".toList, false⟩
  let s := (start index .standard).after calls
  let received (calls : List Call) : List Response :=
    ((start index .standard).received calls).filterMap Except.toOption
  ∃ (next last : Response), Settings.standard.validate = .ok ()
    ∧ (start index .standard).completed calls = [S]
    ∧ received calls ++ [next, last] = S.block index .standard
    ∧ (S.block index .standard).map (fun r => r.flags.bits) = [5, 1, 1, 2]
    ∧ (received calls).getLast? = some next
    ∧ (∀ sent : List (String × Flags), (s.sendAll sent).recv.answer = .ok next)
    ∧ S.block index .standard <+: received (calls ++ [.recv, .send "; alpha" .none, .recv])
  := by
  intro index calls S s received
  have hvalid : Settings.standard.validate = .ok () := rfl
  have hcompleted : (start index .standard).completed calls = [S] := by decide +kernel
  have hstatements : s.statements = [] := by decide +kernel
  have hwait : s.responses.length = 2 := by decide +kernel
  have hgoes : S.ends index .standard = false := by decide +kernel
  obtain ⟨begun, hbegun, hreceived, -, -, hblock⟩ :=
    @delivered_in_blocks index .standard hvalid calls
  rw [hcompleted, hstatements, List.append_nil] at hbegun
  obtain ⟨-, -, hnext, hwhole⟩ := hblock [] S hbegun.symm
  rw [← hbegun, List.flatMap_singleton] at hreceived hwhole
  obtain ⟨next, last, hresponses⟩ := List.length_eq_two.mp hwait
  rw [hgoes] at hnext
  refine ⟨next, last, hvalid, hcompleted, ?_, ?_, ?_, hnext next [last] hresponses, ?_⟩
  · rw [← hresponses]
    exact hreceived
  · decide +kernel
  · have hsame : (received calls).getLast? = s.responses.head? := by decide +kernel
    rw [hsame, hresponses]
    rfl
  · apply hwhole hgoes
    rw [hwait]
    decide

/-- A statement that finds something and ends the session is cut off: more is to follow on its first
response, but the session has ended then, and the response that would tell so waits forever. -/
theorem recv_fails_after_more :
  let s := (start (fun _ => []) .standard).after [.send "alpha; beta; quit" .none]
  (∃ r, s.recv.answer = .ok r ∧ r.flags.has .more = true)
    ∧ s.recv.state.recv.answer = .error .sessionClosed
    ∧ s.recv.state.responses.map Response.flags = [Flags.tail.union .quit]
  := by
  intro s
  refine ⟨?_, ?_, ?_⟩
  · apply exists_ok_of_any
    decide +kernel
  · have hclosed : s.recv.state.closed = true := by decide +kernel
    rw [recv, if_pos hclosed]
    rfl
  · decide +kernel

end Session

end Retrieval
