import Retrieval.Proofs.Query.Rounds
import Retrieval.Proofs.Session.Run

/-!
# Running a query in rounds

A session runs what is left of a query as a query, and looks each time whether less is left than
before. It would not have to: each round leaves less, whatever comes of running its query, and the
loop without that look ends as the one with it does.
-/

namespace Retrieval

namespace Session

/-- Runs a query, and then what was left of it, for so many rounds at most, and never looks whether
less is left than before. There is no answer if the last round leaves something that is not blank.
What comes of running a query, success or failure, is given. -/
def runRounds (run : Query → Except Error Evaluation) (settings : Settings) :
    Nat → QueryCache → String → Option (Turn QueryCache (List String))
  | 0, _, _ => none
  | rounds + 1, cache, text =>
    let read := QueryCache.read settings.readOptions settings.cacheSize.toNat text cache
    let cache := read.value.2
    match read.value.1 with
    | .error e => some ⟨cache, .error e, read.remarks⟩
    | .ok q =>
      match run q with
      | .error e => some ⟨cache, .error e, read.remarks⟩
      | .ok found =>
        let body := (QueryResult.ofRecords found.records).toJson.compact
        let remarks := read.remarks ++ found.remarks
        if (Text.trim q.rest).isEmpty then some ⟨cache, .ok [body], remarks⟩
        else (runRounds run settings rounds cache q.rest).map fun next =>
          { state := next.state
            answer := next.answer.map (body :: ·)
            remarks := remarks ++ .continuing q.rest :: next.remarks }

variable {index : Index} {settings : Settings} {cache : QueryCache} {rounds : Nat} {text : String}

/-- The rounds come to an end, whatever comes of running queries. -/
theorem isSome_runRounds (run : Query → Except Error Evaluation)
    (h : cache.Sound settings.readOptions) (hrounds : text.length < rounds) :
  (runRounds run settings rounds cache text).isSome = true
  := by
  induction rounds generalizing cache text with
  | zero => exact absurd hrounds (Nat.not_lt_zero _)
  | succ rounds ih =>
    obtain ⟨hread, hsound⟩ := h.read settings.cacheSize.toNat text
    rw [runRounds]
    cases hq :
      (QueryCache.read settings.readOptions settings.cacheSize.toNat text cache).value.1 with
    | error e => rfl
    | ok q =>
      dsimp only
      cases run q with
      | error e => rfl
      | ok found =>
        rw [hread] at hq
        dsimp only
        split
        · rfl
        · rename_i hblank
          have hlt := Query.length_rest_lt hq (Text.ne_empty_of_trim hblank)
          rw [Option.isSome_map]
          apply ih hsound
          omega

/-- The loop that looks whether less is left gives what the rounds give. -/
theorem runRounds_eq (h : cache.Sound settings.readOptions) (hrounds : text.length < rounds) :
  runRounds (Executor.ofSettings index settings).execute settings rounds cache text
    = some (runQuery index settings cache text)
  := by
  induction rounds generalizing cache text with
  | zero => exact absurd hrounds (Nat.not_lt_zero _)
  | succ rounds ih =>
    obtain ⟨hread, hsound⟩ := h.read settings.cacheSize.toNat text
    rw [runRounds, runQuery]
    cases hq :
      (QueryCache.read settings.readOptions settings.cacheSize.toNat text cache).value.1 with
    | error e => rfl
    | ok q =>
      dsimp only
      cases (Executor.ofSettings index settings).execute q with
      | error e => rfl
      | ok found =>
        rw [hread] at hq
        dsimp only
        split
        · rfl
        · rename_i hblank
          have hne := Text.ne_empty_of_trim hblank
          have hlt := Query.length_rest_lt hq hne
          rw [ih hsound (by omega), dif_pos (Query.byteSize_rest_lt hq hne)]
          rfl

/-- The queries that a session has kept when it runs a query: those that it has kept after a run of
calls, and after the queries before it in its statement. -/
def keptAfter (index : Index) (settings : Settings) (calls : List Call) (queries : List String) :
    QueryCache :=
  (runQueries index settings ((start index settings).after calls).cache queries).state

theorem sound_keptAfter (hvalid : settings.validate = .ok ()) (calls : List Call)
    (queries : List String) :
  (keptAfter index settings calls queries).Sound settings.readOptions
  := by
  have hsound := (Sound.start index settings).after hvalid calls
  exact (runQueries_eq index hvalid hsound.cache_sound queries).2

/-- Reading on after the budget always ends. What is left of a query takes up fewer bytes than its
text, or nothing is left; so reading what is left, again and again, comes to a failure or leaves
nothing after one round more than the text has characters at most. A session in any state runs any
query in as many rounds at most, even if running a query may fail in between, and although it looks
whether less is left each time it never finds that this is not so. -/
theorem rounds_end {settings : Settings} (hvalid : settings.validate = .ok ()) (index : Index)
    (calls : List Call) (queries : List String) (text : String) :
  let cache := keptAfter index settings calls queries
  (∀ options : ReadOptions,
      (∀ q : Query, (Query.read options text).value = .ok q → q.rest ≠ "" →
        q.rest.utf8ByteSize < text.utf8ByteSize)
      ∧ (Query.readRounds options (text.length + 1) text).isSome = true)
    ∧ (∀ run : Query → Except Error Evaluation,
      (runRounds run settings (text.length + 1) cache text).isSome = true)
    ∧ runRounds (Executor.ofSettings index settings).execute settings (text.length + 1) cache text
      = some (runQuery index settings cache text)
    ∧ ∀ rest : String, (runQuery index settings cache text).answer ≠ .error (.noProgress rest)
  := by
  intro cache
  have hsound : cache.Sound settings.readOptions := sound_keptAfter hvalid calls queries
  refine ⟨?_, ?_, ?_, ?_⟩
  · intro options
    constructor
    · intro q hread hrest
      apply Query.byteSize_rest_lt hread hrest
    · apply Query.isSome_readRounds (Nat.lt_succ_self _)
  · intro run
    apply isSome_runRounds run hsound (Nat.lt_succ_self _)
  · apply runRounds_eq hsound (Nat.lt_succ_self _)
  · intro rest hanswer
    rw [(runQuery_eq index hvalid hsound text).1] at hanswer
    cases hread : Query.readThrough settings.readOptions text with
    | error e =>
      rw [hread] at hanswer
      obtain rfl := Except.error.inj hanswer
      obtain h | h := Query.error_readThrough hread
      · cases h
      · cases h
    | ok qs =>
      rw [hread] at hanswer
      cases hanswer

/-- Three words with a budget for one of them, in a session that has kept two queries. The rounds
that it takes give three bodies. -/
theorem rounds_end_three :
  let settings : Settings := { Settings.standard with budget := 1 }
  let index : Index := fun _ => []
  let cache := keptAfter index settings [.send "x y z" .none, .recv] ["y z"]
  let rounds := runRounds (Executor.ofSettings index settings).execute settings 6 cache "x y z"
  settings.validate = .ok ()
    ∧ rounds = some (runQuery index settings cache "x y z")
    ∧ rounds.map (fun turn => turn.answer.map List.length) = some (.ok 3)
    ∧ ∀ rest : String,
      (runQuery index settings cache "x y z").answer ≠ .error (.noProgress rest)
  := by
  intro settings index cache rounds
  have hvalid : settings.validate = .ok () := rfl
  obtain ⟨-, -, hrounds, hprogress⟩ :=
    rounds_end hvalid index [.send "x y z" .none, .recv] ["y z"] "x y z"
  refine ⟨hvalid, hrounds, ?_, hprogress⟩
  decide +kernel

end Session

end Retrieval
