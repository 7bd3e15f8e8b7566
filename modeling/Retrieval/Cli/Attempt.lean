import Retrieval.Remark

/-!
# Attempts

A command of the program may fail. What is told then is a failure: what could not be done, and
why. The remarks that were made before the failure are kept.
-/

namespace Retrieval.Cli

/-- What could not be done, and its causes, the nearest first. -/
structure Failure where
  message : String
  causes : List String
deriving DecidableEq, Repr

namespace Failure

/-- A failure told in the words of the system. -/
def system (e : Error) : Failure :=
  ⟨e.detail, []⟩

/-- A failure of the library. Where the library passes on a failure from elsewhere, that one
is told as its cause. -/
def ofError (e : Error) : Failure :=
  match e.category with
  | .stream | .format => ⟨e.message, [e.detail]⟩
  | _ => ⟨e.message, []⟩

/-- The failure of what is done by means of something that failed. -/
def within (message : String) (f : Failure) : Failure :=
  ⟨message, f.message :: f.causes⟩

/-- The causes as an indented list, which is numbered if there are several. -/
def causeLines : List String → List String
  | [cause] => [s!"    {cause}\n"]
  | causes => causes.zipIdx.map fun (cause, i) =>
    "".pushn ' ' (5 - (toString i).length) ++ s!"{i}: {cause}\n"

/-- The text that tells a failure. -/
def text (f : Failure) : String :=
  s!"Error: {f.message}\n"
    ++ if f.causes.isEmpty then "" else "\nCaused by:\n" ++ String.join (causeLines f.causes)

end Failure

/-- The outcome of something that may fail, and the remarks made on the way. -/
structure Attempt (α : Type) where
  remarks : List Remark
  outcome : Except Failure α

namespace Attempt

variable {α β : Type}

/-- Does one thing after another, until something fails. -/
def andThen (a : Attempt α) (f : α → Attempt β) : Attempt β :=
  match a.outcome with
  | .ok x => { f x with remarks := a.remarks ++ (f x).remarks }
  | .error failure => ⟨a.remarks, .error failure⟩

instance : Monad Attempt where
  pure x := ⟨[], .ok x⟩
  bind := andThen

/-- Makes a remark. -/
def remark (r : Remark) : Attempt Unit :=
  ⟨[r], .ok ()⟩

/-- Fails. -/
def fail (f : Failure) : Attempt α :=
  ⟨[], .error f⟩

/-- The outcome of the library, its failures told by `tell`. -/
def ofExcept (tell : Error → Failure) : Except Error α → Attempt α
  | .ok x => pure x
  | .error e => fail (tell e)

/-- A value of the library with its remarks. -/
def ofNoted (n : Noted (Except Error α)) : Attempt α :=
  ⟨n.remarks, n.value.mapError Failure.ofError⟩

end Attempt

end Retrieval.Cli
