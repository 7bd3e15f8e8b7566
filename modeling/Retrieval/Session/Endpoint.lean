import Retrieval.Remark
import Retrieval.Session.Response

/-!
# Endpoints

An endpoint is a place to send fragments of statements to and to receive responses from. Every
exchange is a turn: it has an answer and leaves the endpoint in a new state. `exec` sends
fragments and receives the responses of the statements that they complete.
-/

namespace Retrieval

/-- The outcome of an exchange: the state after it, the answer, and what was remarked. -/
structure Turn (σ α : Type) where
  state : σ
  answer : Except Error α
  remarks : List Remark

namespace Turn

variable {σ α β : Type}

/-- A turn that changes nothing and succeeds. -/
def pure (state : σ) (a : α) : Turn σ α :=
  ⟨state, .ok a, []⟩

/-- A turn that changes nothing and fails. -/
def fail (state : σ) (e : Error) : Turn σ α :=
  ⟨state, .error e, []⟩

/-- A turn and, if it succeeds, the one that follows on it. -/
def andThen (t : Turn σ α) (f : σ → α → Turn σ β) : Turn σ β :=
  match t.answer with
  | .ok a =>
    let next := f t.state a
    { next with remarks := t.remarks ++ next.remarks }
  | .error e => ⟨t.state, .error e, t.remarks⟩

/-- The turn with another answer. -/
def map (f : α → β) (t : Turn σ α) : Turn σ β :=
  ⟨t.state, t.answer.map f, t.remarks⟩

end Turn

/-- The order of pairs of numbers by the first and then the second number. -/
def PairLt : Nat × Nat → Nat × Nat → Prop :=
  Prod.Lex (· < ·) (· < ·)

theorem wellFounded_pairLt :
  WellFounded PairLt
  := (Prod.lex ⟨(· < ·), Nat.lt_wfRel.wf⟩ ⟨(· < ·), Nat.lt_wfRel.wf⟩).wf

/-- A place to send fragments of statements to and to receive responses from. -/
class Endpoint (σ : Type) where
  /-- Sends a fragment, or a value for the first open place. The answer is whether this
  completes a statement. -/
  send : σ → String → Flags → Turn σ Bool
  /-- Receives the next response of the first statement that is complete. -/
  recv : σ → Turn σ Response
  /-- What there is to receive, which a response makes less. -/
  waiting : σ → Nat × Nat
  waiting_recv {s : σ} {r : Response} (h : (recv s).answer = .ok r) :
    PairLt (waiting (recv s).state) (waiting s)

namespace Endpoint

variable {σ : Type} [Endpoint σ]

/-- Receives responses until one of them is the last of its statement. -/
def drain (s : σ) : Turn σ (List Response) :=
  let t := recv s
  match _h : t.answer with
  | .error e => ⟨t.state, .error e, t.remarks⟩
  | .ok r =>
    if r.flags.has .more then
      let rest := drain t.state
      ⟨rest.state, rest.answer.map (r :: ·), t.remarks ++ rest.remarks⟩
    else ⟨t.state, .ok [r], t.remarks⟩
termination_by wellFounded_pairLt.wrap (waiting s)
decreasing_by exact waiting_recv _h

/-- Sends the remaining fragments and receives what they complete. The last fragment must not
leave a statement open. -/
def execFrom (isOpen : Bool) (s : σ) : List String → Turn σ (List Response)
  | [] => if isOpen then .fail s .nothingCompleted else .pure s []
  | fragment :: fragments =>
    (send s fragment .none).andThen fun s ready =>
      if ready then
        (drain s).andThen fun s responses =>
          (execFrom false s fragments).map (responses ++ ·)
      else execFrom true s fragments

/-- Sends fragments in order, and receives the responses of each statement as soon as it is
complete. -/
def exec (s : σ) (fragments : List String) : Turn σ (List Response) :=
  execFrom true s fragments

end Endpoint

end Retrieval
