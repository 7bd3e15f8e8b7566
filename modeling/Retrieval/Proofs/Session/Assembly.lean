import Retrieval.Proofs.Session.Contents
import Retrieval.Proofs.Session.Run

/-!
# Assembling statements in a run

In a run of a session the statement that is being put together is composed of what has been sent
since it began. Composing it never fails for want of a count, calls for responses do not change it,
and when it is complete it joins the statements that wait, behind the others.
-/

namespace Retrieval

namespace Session

/-! ### What a run sends and composes -/

/-- What has been sent since the statement that is being put together began, after one more
call. -/
def sentAfter (s : Session) (sent : List (String × Flags)) : Call → List (String × Flags)
  | .send fragment flags =>
    match (s.send fragment flags).answer with
    | .ok true => []
    | .ok false => sent ++ [(fragment, flags)]
    | .error _ => sent
  | .recv => sent

/-- What has been sent since the statement that is being put together began, after a run of
calls. -/
def unfinished (s : Session) (sent : List (String × Flags)) : List Call → List (String × Flags)
  | [] => sent
  | call :: calls => (s.call call).unfinished (s.sentAfter sent call) calls

/-- A composition after one more call. What is sent to a session that has ended does not count. -/
def composedAfter (s : Session) (c : Composition) : Call → Option Composition
  | .send fragment flags => if s.closed then some c else (c.send fragment.toList flags).map Prod.fst
  | .recv => some c

/-- A composition after a run of calls. -/
def composed (s : Session) (c : Composition) : List Call → Option Composition
  | [] => some c
  | call :: calls => (s.composedAfter c call).bind fun c => (s.call call).composed c calls

variable {s : Session} {sent : List (String × Flags)} {c : Composition}

/-- A composition, and what has been sent since it began, come to what a session is putting
together. -/
structure Assembles (s : Session) (sent : List (String × Flags)) (c : Composition) : Prop where
  consistent : c.Consistent
  draft_eq : c.draft = s.draft
  holds : (s.draft.getD .start).Holds sent
  idle_iff : s.draft = none ↔ sent = []

theorem Assembles.start (index : Index) (settings : Settings) :
  (start index settings).Assembles [] .start
  := ⟨.start, rfl, .start, by simp [Session.start]⟩

/-! ### Calls for responses -/

theorem draft_take (s : Session) :
  s.take.state.draft = s.draft
  := by
  unfold take
  split <;> rfl

theorem draft_runStatement (s : Session) (S : Statement) :
  (s.runStatement S).state.draft = s.draft
  := by
  unfold runStatement
  dsimp only
  split <;> rfl

/-- A call for a response does not change the statement that is being put together. -/
theorem draft_recv (s : Session) :
  s.recv.state.draft = s.draft
  := by
  rw [recv]
  split
  · rfl
  split
  · split
    · apply draft_take
    · rw [Turn.andThen]
      split
      · rw [draft_take]
        apply draft_runStatement
      · apply draft_runStatement
  · apply draft_take

/-! ### Sending -/

/-- Sending changes what an open session is putting together. If that is complete then, which it is
if each place has a value and no more is to come, the answer says so, and the statement waits behind
the others. -/
theorem Assembles.send (h : s.Assembles sent c) (hopen : s.closed = false) (fragment : String)
    (flags : Flags) :
  let whole := Contents.ofSent (sent ++ [(fragment, flags)])
  ∃ c' done, c.send fragment.toList flags = some (c', done)
    ∧ (s.send fragment flags).answer = .ok done.isSome
    ∧ (s.send fragment flags).state
      = { s with draft := c'.draft, statements := s.statements ++ done.toList }
    ∧ (s.send fragment flags).state.Assembles
      (if done.isSome then [] else sent ++ [(fragment, flags)]) c'
    ∧ (done.isSome = true ↔ whole.values.length = whole.literal.count none
      ∧ flags.has .more = false)
    ∧ ∀ S ∈ done, S.MadeOf (sent ++ [(fragment, flags)])
  := by
  intro whole
  obtain ⟨c', done, hsend, hconsistent, hpair⟩ := h.consistent.send fragment.toList flags
  refine ⟨c', done, hsend, ?_⟩
  have hholds := h.holds.add fragment flags
  rw [Session.send, if_neg (by simp [hopen])]
  rw [h.draft_eq] at hpair
  dsimp only at hpair ⊢
  generalize (s.draft.getD .start).add fragment.toList (flags.has .quiet) = d at *
  by_cases hwaits : d.awaitsValue = true ∨ flags.has .more = true
  · rw [if_pos hwaits] at hpair ⊢
    obtain ⟨hdraft, rfl⟩ := Prod.mk.inj hpair
    refine ⟨rfl, ?_, ⟨hconsistent, hdraft, hholds, by simp [Turn.pure]⟩, ?_, by simp⟩
    · rw [hdraft]
      simp [Turn.pure]
    · apply iff_of_false (by simp)
      rintro ⟨hfull, hmore⟩
      rcases hwaits with hvalue | hmore'
      · exact absurd hfull (Nat.ne_of_lt (hholds.awaitsValue_iff.mp hvalue))
      · rw [hmore] at hmore'
        cases hmore'
  · rw [if_neg hwaits] at hpair ⊢
    obtain ⟨hdraft, rfl⟩ := Prod.mk.inj hpair
    obtain ⟨hawaits, hmore⟩ := not_or.mp hwaits
    obtain ⟨hfull, hmade⟩ := hholds.finish hawaits
    refine ⟨rfl, ?_, ⟨hconsistent, hdraft, .start, by simp⟩, ?_, ?_⟩
    · rw [hdraft]
      rfl
    · exact iff_of_true rfl ⟨hfull, eq_false_of_ne_true hmore⟩
    · rintro S ⟨⟩
      exact hmade

/-! ### Runs -/

/-- What a session is putting together stays what has been sent since it began. -/
theorem Assembles.call (h : s.Assembles sent c) (call : Call) :
  ∃ c', s.composedAfter c call = some c'
    ∧ (s.call call).Assembles (s.sentAfter sent call) c'
  := by
  cases call with
  | recv =>
    refine ⟨c, rfl, h.consistent, ?_, ?_, ?_⟩
    · rw [h.draft_eq, Session.call, draft_recv]
    · rw [Session.call, draft_recv]
      exact h.holds
    · rw [Session.call, draft_recv]
      exact h.idle_iff
  | send fragment flags =>
    rw [composedAfter, sentAfter, Session.call]
    by_cases hclosed : s.closed = true
    · rw [if_pos hclosed, Session.send, if_pos hclosed]
      exact ⟨c, rfl, h⟩
    · obtain ⟨c', done, hsend, hanswer, -, hassembles, -⟩ :=
        h.send (eq_false_of_ne_true hclosed) fragment flags
      rw [if_neg hclosed, hsend, hanswer]
      refine ⟨c', rfl, ?_⟩
      cases done with
      | none => exact hassembles
      | some S => exact hassembles

theorem Assembles.after (h : s.Assembles sent c) (calls : List Call) :
  ∃ c', s.composed c calls = some c'
    ∧ (s.after calls).Assembles (s.unfinished sent calls) c'
  := by
  induction calls generalizing s sent c with
  | nil => exact ⟨c, rfl, h⟩
  | cons call calls ih =>
    obtain ⟨c', hcomposed, hassembles⟩ := h.call call
    rw [composed, hcomposed, Option.bind_some]
    exact ih hassembles

/-- In every run, composing what is sent never fails for want of a count, and comes to what the
session is putting together: values are awaited exactly as long as the count is not spent, the
count is the number of holes, and when the next statement begins no pieces are left. Calls for
responses change nothing of this. A fragment that is sent to an open session completes a statement
exactly if the answer says so, and this statement is made of what has been sent since it began. -/
theorem assembles_after (index : Index) (settings : Settings) (calls : List Call) :
  let s := (start index settings).after calls
  let sent := (start index settings).unfinished [] calls
  ∃ c, (start index settings).composed .start calls = some c
    ∧ c.draft = s.draft
    ∧ (c.phase = .awaitingValue ↔ 0 < c.holes)
    ∧ c.holes = c.pieces.count .hole
    ∧ (c.phase = .idle → c.pieces = [])
    ∧ (c.phase = .idle ↔ sent = [])
    ∧ s.recv.state.draft = s.draft
    ∧ ∀ (fragment : String) (flags : Flags), s.closed = false →
      let whole := Contents.ofSent (sent ++ [(fragment, flags)])
      ∃ c' done, c.send fragment.toList flags = some (c', done)
        ∧ (s.send fragment flags).answer = .ok done.isSome
        ∧ (s.send fragment flags).state
          = { s with draft := c'.draft, statements := s.statements ++ done.toList }
        ∧ (done.isSome = true ↔ whole.values.length = whole.literal.count none
          ∧ flags.has .more = false)
        ∧ ∀ S ∈ done, S.MadeOf (sent ++ [(fragment, flags)])
  := by
  intro s sent
  obtain ⟨c, hcomposed, hassembles⟩ := (Assembles.start index settings).after calls
  refine ⟨c, hcomposed, hassembles.draft_eq, hassembles.consistent.awaits_iff,
    hassembles.consistent.holes_eq, hassembles.consistent.pieces_idle, ?_, draft_recv s, ?_⟩
  · rw [← hassembles.idle_iff, ← hassembles.draft_eq, Composition.draft]
    simp
  · intro fragment flags hopen
    obtain ⟨c', done, hsend, hanswer, hstate, -, hdone⟩ := hassembles.send hopen fragment flags
    exact ⟨c', done, hsend, hanswer, hstate, hdone⟩

/-- A statement is begun between quotes and goes on after them, with a place, a question mark that
is none, and a value that is quoted. One of its texts is quiet, and a response is asked for in the
meantime. -/
theorem assembles_after_value :
  let s : Session := .start (fun _ => []) .standard
  let calls : List Call := [.send "beta; \"a" .more, .recv, .send "?\" and ? or \\?" .quiet]
  (s.after calls).closed = false
    ∧ ∃ c c' S, s.composed .start calls = some c
      ∧ c.phase = .awaitingValue ∧ c.holes = 1
      ∧ c.send "x\"y".toList .none = some (c', some S)
      ∧ ((s.after calls).send "x\"y" .none).state.statements = [S]
      ∧ S.MadeOf (s.unfinished [] calls ++ [("x\"y", .none)])
      ∧ S = ⟨"beta; \"a?\" and \"x\\\"y\" or ?".toList, true⟩
  := by
  intro s calls
  have hopen : (s.after calls).closed = false := rfl
  obtain ⟨c, hcomposed, -, -, -, -, -, -, hsends⟩ :=
    assembles_after (fun _ => []) .standard calls
  obtain ⟨c', done, hsend, hanswer, hstate, -, hmade⟩ := hsends "x\"y" .none hopen
  have hdone : Except.ok done.isSome = (.ok true : Except Error Bool) := hanswer.symm.trans rfl
  obtain ⟨S, rfl⟩ := Option.isSome_iff_exists.mp (Except.ok.inj hdone)
  have hstatements := congrArg Session.statements hstate
  cases hcomposed
  refine ⟨hopen, _, c', S, rfl, rfl, rfl, hsend, hstatements, hmade S rfl, ?_⟩
  exact (List.cons.inj (hstatements.symm.trans rfl)).1

end Session

end Retrieval
