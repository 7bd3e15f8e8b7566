import Retrieval.Proofs.Evaluation.Records
import Retrieval.Proofs.Query.Rest
import Retrieval.Session.Basic

/-!
# Outcomes of statements

What a statement comes to is told without a session: each of its queries is read and run on its
own, and so is what is left of it, until nothing is left but blanks. A session that runs the
statement comes to the same, whatever queries it has kept, since what it has kept is what it would
read.
-/

namespace Retrieval

/-! ### Reading queries to their end -/

/-- Where one thing after another is done and this fails, one of them fails. -/
theorem exists_error_of_mapM {α β ε : Type} {f : α → Except ε β} {l : List α} {e : ε}
    (h : l.mapM f = .error e) :
  ∃ a ∈ l, f a = .error e
  := by
  induction l with
  | nil => cases h
  | cons a l ih =>
    rw [List.mapM_cons] at h
    cases hfirst : f a with
    | error e' =>
      rw [hfirst] at h
      cases h
      exact ⟨a, List.mem_cons_self, hfirst⟩
    | ok b =>
      cases hrest : l.mapM f with
      | error e' =>
        rw [hfirst, hrest] at h
        cases h
        obtain ⟨a', ha', hfails⟩ := ih hrest
        exact ⟨a', List.mem_cons_of_mem a ha', hfails⟩
      | ok bs =>
        rw [hfirst, hrest] at h
        cases h

/-- A text that is not blank is not empty. -/
theorem Text.ne_empty_of_trim {s : String} (h : ¬(trim s).isEmpty = true) :
  s ≠ ""
  := by
  rintro rfl
  exact h rfl

namespace Query

/-- The queries that a text is read as: what is left of each is read as the next one, unless it is
blank. -/
def readThrough (options : ReadOptions) (text : String) : Except Error (List Query) :=
  match h : (read options text).value with
  | .error e => .error e
  | .ok q =>
    if hblank : (Text.trim q.rest).isEmpty then .ok [q]
    else
      have := byteSize_rest_lt h (Text.ne_empty_of_trim hblank)
      (readThrough options q.rest).map (q :: ·)
termination_by text.utf8ByteSize

variable {options : ReadOptions}

theorem readThrough_eq (text : String) :
  readThrough options text
    = match (read options text).value with
      | .error e => .error e
      | .ok q =>
        if (Text.trim q.rest).isEmpty then .ok [q] else (readThrough options q.rest).map (q :: ·)
  := by
  rw [readThrough]
  split
  · rename_i h
    simp only [h]
  · rename_i h
    simp only [h]
    split <;> rfl

theorem error_readThrough {text : String} {e : Error} (h : readThrough options text = .error e) :
  e = .noBudget ∨ e = .phraseBeyondBudget
  := by
  fun_induction readThrough options text with
  | case1 text e' hread =>
    cases h
    exact error_read hread
  | case2 => cases h
  | case3 text q hread hblank _ ih =>
    cases hrest : readThrough options q.rest with
    | error e' =>
      rw [hrest] at h
      cases h
      exact ih hrest
    | ok qs =>
      rw [hrest] at h
      cases h

/-- Where a text cannot be read to its end, the text or the options are at fault. -/
theorem category_of_readThrough {text : String} {e : Error}
    (h : readThrough options text = .error e) :
  e.category = .invalidArgument
  := by
  obtain rfl | rfl := error_readThrough h <;> rfl

end Query

/-! ### Responses by their places -/

/-- The flags of the response at a place among so many of a statement. -/
def Flags.placed (quits : Bool) (place count : Nat) : Flags :=
  let last := if place + 1 = count then (if quits then tail.union quit else tail) else more
  if place = 0 then last.union head else last

/-- Flags tell the place of a response: the first one of a statement is its head, the last one is
its tail, which ends the session if the statement does, and after all others more follow. -/
structure Flags.Tells (quits : Bool) (place count : Nat) (f : Flags) : Prop where
  head : f.has .head = true ↔ place = 0
  tail : f.has .tail = true ↔ place + 1 = count
  more : f.has .more = true ↔ place + 1 ≠ count
  quit : f.has .quit = true ↔ quits = true ∧ place + 1 = count

theorem Flags.tells_placed (quits : Bool) (place count : Nat) :
  (placed quits place count).Tells quits place count
  := by
  rw [placed]
  by_cases hlast : place + 1 = count <;> by_cases hplace : place = 0 <;> cases quits
  all_goals
    constructor <;>
      simp only [hlast, if_true, if_false, ne_eq, not_true_eq_false, not_false_eq_true] <;>
      simp only [hplace, if_true, if_false] <;> decide

/-- The response that tells what a query has found, or tells nothing. -/
def Response.telling (found : Option QueryResult) (flags : Flags) : Response :=
  ⟨found.elim "" fun result => result.toJson.compact, flags⟩

/-- After the first response only how many are left counts. -/
theorem Flags.placed_succ (quits : Bool) (place count : Nat) :
  placed quits (place + 2) (count + 1) = placed quits (place + 1) count
  := by
  simp [placed]

/-- The responses that tell results, with flags by their places. -/
def Response.ofResults (quits : Bool) (results : List (Option QueryResult)) : List Response :=
  results.mapIdx fun i found => telling found (Flags.placed quits i results.length)

theorem Response.following_eq (quits : Bool) (bodies : List String) :
  following quits bodies
    = bodies.mapIdx fun i body => ⟨body, Flags.placed quits (i + 1) (bodies.length + 1)⟩
  := by
  fun_induction following quits bodies with
  | case1 => rfl
  | case2 body => rfl
  | case3 body bodies hne ih =>
    have hmore : Flags.placed quits 1 ((body :: bodies).length + 1) = .more := by
      have hlength : 1 + 1 ≠ (body :: bodies).length + 1 := by
        intro heq
        exact hne (List.length_eq_zero_iff.mp (by simpa using heq))
      rw [Flags.placed, if_neg hlength]
      rfl
    rw [ih, List.mapIdx_cons, hmore]
    simp only [List.length_cons, Flags.placed_succ]

/-- The responses of a block have their flags by their places. -/
theorem Response.block_eq (quits : Bool) (bodies : List String) :
  block quits bodies = bodies.mapIdx fun i body => ⟨body, Flags.placed quits i bodies.length⟩
  := by
  rw [block, following_eq]
  cases bodies with
  | nil => rfl
  | cons body bodies =>
    rw [List.mapIdx_cons, List.mapIdx_cons]
    dsimp only
    congr 1
    · rw [Flags.placed, Flags.placed]
      simp
    · simp only [List.length_cons, Flags.placed_succ]

/-! ### What a statement comes to -/

namespace Statement

variable (index : Index) (settings : Settings) (S : Statement)

/-- Whether a statement ends the session. -/
def quits : Bool :=
  (queries S.text).contains "quit"

/-- The queries of a statement that are run: those before the one that ends the session. -/
def queriesToRun : List String :=
  (queries S.text).takeWhile (· ≠ "quit")

/-- What the queries of a statement find, each of them read and run on its own: the records, and
how many they are. A statement without queries, or one that is to give no results, has nothing to
tell. -/
def results : Except Error (List (Option QueryResult)) := do
  let read ← S.queriesToRun.mapM (Query.readThrough settings.readOptions)
  let found ← read.flatten.mapM fun q => do
    let executed ← (Executor.ofSettings index settings).execute q
    return { count := executed.records.records.length, records := executed.records.records }
  return if S.quiet ∨ found.isEmpty then [none] else found.map some

/-- The responses to a statement: one for each result, with flags by its place. -/
def responses : Except Error (List Response) := do
  return Response.ofResults S.quits (← S.results index settings)

/-- What is received for a statement: its responses, or the failure of its first query that cannot
be read. -/
def outcomes : List (Except Error Response) :=
  match S.responses index settings with
  | .error e => [.error e]
  | .ok responses => responses.map .ok

end Statement

/-! ### Running queries -/

/-- What an executor finds for a query if the shape of its results is valid. -/
def Executor.found (e : Executor) (q : Query) : QueryResult :=
  let executed := e.executeInto q .or (.empty e.shape)
  { count := executed.records.records.length, records := executed.records.records }

/-- Queries can be read and run. -/
theorem Settings.valid_of_validate {settings : Settings} (h : settings.validate = .ok ()) :
  settings.readOptions.budget ≠ 0 ∧ settings.shape.validate = .ok ()
  := by
  rw [validate] at h
  split at h
  · cases h
  · exact ⟨‹_›, h⟩

namespace QueryCache

/-- The cache holds what would be read. -/
def Sound (options : ReadOptions) (cache : QueryCache) : Prop :=
  ∀ e ∈ cache, (Query.read options e.1).value = .ok e.2

variable {options : ReadOptions} {cache : QueryCache}

theorem Sound.touch (h : cache.Sound options) {text : String} {q : Query}
    (hq : (Query.read options text).value = .ok q) :
  (touch text q cache).Sound options
  := by
  intro e he
  rcases List.mem_cons.mp he with rfl | he
  · exact hq
  · exact h e (List.mem_filter.mp he).1

/-- What a cache holds does not change what is read. -/
theorem Sound.read (h : cache.Sound options) (room : Nat) (text : String) :
  (read options room text cache).value.1 = (Query.read options text).value
    ∧ (read options room text cache).value.2.Sound options
  := by
  rw [QueryCache.read]
  split
  · rename_i q hq
    obtain ⟨before, after, hcache, -⟩ := List.lookup_eq_some_iff.mp hq
    have hread := h (text, q) (hcache ▸ List.mem_append_right before List.mem_cons_self)
    exact ⟨hread.symm, h.touch hread⟩
  · refine ⟨rfl, ?_⟩
    dsimp only
    split
    · rename_i q hread
      exact fun e he => h.touch hread e (List.mem_of_mem_take he)
    · exact h

end QueryCache

namespace Session

variable {index : Index} {settings : Settings} {cache : QueryCache}

/-- The body that tells what a query finds. -/
def body (index : Index) (settings : Settings) (q : Query) : String :=
  ((Executor.ofSettings index settings).found q).toJson.compact

/-- A query is run as it is without a cache, and the cache stays sound. -/
theorem runQuery_eq (index : Index) (hvalid : settings.validate = .ok ())
    (h : cache.Sound settings.readOptions) (text : String) :
  (runQuery index settings cache text).answer
      = (Query.readThrough settings.readOptions text).map (·.map (body index settings))
    ∧ (runQuery index settings cache text).state.Sound settings.readOptions
  := by
  have hexecute := Executor.execute_eq (e := Executor.ofSettings index settings)
    (Settings.valid_of_validate hvalid).2
  induction hsize : text.utf8ByteSize using Nat.strongRecOn generalizing text cache with
  | ind size ih =>
    subst hsize
    obtain ⟨hread, hsound⟩ := h.read settings.cacheSize.toNat text
    rw [runQuery, Query.readThrough_eq]
    dsimp only
    split
    · rename_i e he
      rw [hread] at he
      rw [he]
      exact ⟨rfl, hsound⟩
    · rename_i q hq
      rw [hread] at hq
      rw [hexecute, hq]
      dsimp only
      split
      · exact ⟨rfl, hsound⟩
      · rename_i hblank
        have hlt := Query.byteSize_rest_lt hq (Text.ne_empty_of_trim hblank)
        obtain ⟨hanswer, hnext⟩ := ih _ hlt hsound _ rfl
        rw [dif_pos hlt]
        dsimp only
        rw [hanswer]
        refine ⟨?_, hnext⟩
        cases Query.readThrough settings.readOptions q.rest <;> rfl

/-- The queries before the one that ends the session are run one after another. -/
theorem runQueries_eq (index : Index) (hvalid : settings.validate = .ok ())
    (h : cache.Sound settings.readOptions) (queries : List String) :
  ((runQueries index settings cache queries).answer
      = ((queries.takeWhile (· ≠ "quit")).mapM (Query.readThrough settings.readOptions)).map
        fun read => (read.flatten.map (body index settings), queries.contains "quit"))
    ∧ (runQueries index settings cache queries).state.Sound settings.readOptions
  := by
  fun_induction runQueries index settings cache queries with
  | case1 cache => exact ⟨rfl, h⟩
  | case2 cache queries =>
    refine ⟨?_, h⟩
    rw [List.takeWhile_cons_of_neg (by simp), List.contains_cons]
    rfl
  | case3 cache query queries hquit ih =>
    obtain ⟨hanswer, hsound⟩ := runQuery_eq index hvalid h query
    obtain ⟨hrest, hrestSound⟩ := ih _ hsound
    rw [List.takeWhile_cons_of_pos (by simpa using hquit), List.mapM_cons, List.contains_cons,
      beq_eq_false_iff_ne.mpr (Ne.symm hquit), Bool.false_or, Turn.andThen, hanswer]
    cases Query.readThrough settings.readOptions query with
    | error e => exact ⟨rfl, hsound⟩
    | ok read =>
      refine ⟨?_, hrestSound⟩
      change (runQueries index settings _ queries).answer.map _ = _
      rw [hrest]
      cases (queries.takeWhile (· ≠ "quit")).mapM (Query.readThrough settings.readOptions) with
      | error e => rfl
      | ok more =>
        change Except.ok (read.map _ ++ more.flatten.map _, _)
          = Except.ok ((read :: more).flatten.map _, _)
        rw [List.flatten_cons, List.map_append]

/-- Where the settings are valid a statement fails only if a query cannot be read. -/
theorem results_eq (hvalid : settings.validate = .ok ()) (S : Statement) :
  S.results index settings
    = (S.queriesToRun.mapM (Query.readThrough settings.readOptions)).map fun read =>
      if S.quiet ∨ read.flatten.isEmpty then [none]
      else read.flatten.map fun q => some ((Executor.ofSettings index settings).found q)
  := by
  have hexecute := Executor.execute_eq (e := Executor.ofSettings index settings)
    (Settings.valid_of_validate hvalid).2
  have hfound : (fun q => do
        let executed ← (Executor.ofSettings index settings).execute q
        return (⟨executed.records.records.length, executed.records.records⟩ : QueryResult))
      = fun q => (Pure.pure ((Executor.ofSettings index settings).found q) : Except Error _) := by
    funext q
    rw [hexecute]
    rfl
  rw [Statement.results, hfound]
  cases S.queriesToRun.mapM (Query.readThrough settings.readOptions) with
  | error e => rfl
  | ok read =>
    change (Bind.bind (read.flatten.mapM _) _ : Except Error (List (Option QueryResult))) = _
    rw [List.mapM_pure]
    change Except.ok _ = Except.ok _
    rw [List.isEmpty_map, List.map_map]
    rfl

/-- The bodies of a block tell what the queries find. -/
theorem respond_eq (quiet quits : Bool) (qs : List Query) :
  respond quiet quits (qs.map (body index settings))
    = Response.ofResults quits (if quiet ∨ qs.isEmpty then [none]
      else qs.map fun q => some ((Executor.ofSettings index settings).found q))
  := by
  rw [respond, Response.block_eq, List.isEmpty_map]
  split
  · rfl
  · apply List.ext_getElem?
    intro i
    simp only [Response.ofResults, List.getElem?_mapIdx, List.getElem?_map, List.length_map,
      Option.map_map]
    rfl

/-- A statement that is run comes to what it comes to on its own. -/
theorem runStatement_eq (hvalid : settings.validate = .ok ()) {s : Session}
    (hindex : s.index = index) (hsettings : s.settings = settings)
    (hcache : s.cache.Sound settings.readOptions) (S : Statement) :
  ∃ cache : QueryCache, cache.Sound settings.readOptions ∧
    match S.responses index settings with
    | .error e =>
      (s.runStatement S).answer = .error e ∧ (s.runStatement S).state = { s with cache }
    | .ok responses =>
      (s.runStatement S).answer = .ok ()
        ∧ (s.runStatement S).state
          = { s with responses, cache, closed := s.closed || S.quits }
  := by
  subst hindex hsettings
  obtain ⟨hanswer, hsound⟩ := runQueries_eq s.index hvalid hcache (Statement.queries S.text)
  refine ⟨_, hsound, ?_⟩
  rw [Statement.responses, results_eq hvalid, Statement.queriesToRun, runStatement]
  dsimp only
  rw [hanswer]
  cases ((Statement.queries S.text).takeWhile (· ≠ "quit")).mapM
      (Query.readThrough s.settings.readOptions) with
  | error e => exact ⟨rfl, rfl⟩
  | ok read =>
    refine ⟨rfl, ?_⟩
    dsimp only [Except.map]
    rw [respond_eq]
    rfl

end Session

namespace Statement

variable {index : Index} {settings : Settings} {S : Statement}

/-- A statement is told something in any case. -/
theorem responses_ne_nil (hvalid : settings.validate = .ok ()) {responses : List Response}
    (h : S.responses index settings = .ok responses) :
  responses ≠ []
  := by
  rw [Statement.responses, Session.results_eq hvalid] at h
  cases hread : S.queriesToRun.mapM (Query.readThrough settings.readOptions) with
  | error e =>
    rw [hread] at h
    cases h
  | ok read =>
    rw [hread] at h
    obtain rfl := Except.ok.inj h
    rw [Response.ofResults, List.mapIdx_ne_nil_iff]
    dsimp only
    split
    · simp
    · rename_i hne
      rw [not_or, List.isEmpty_iff] at hne
      simpa using hne.2

/-- The flags of a response tell its place. -/
theorem flags_of_responses {responses : List Response}
    (h : S.responses index settings = .ok responses) {i : Nat} {r : Response}
    (hr : responses[i]? = some r) :
  r.flags.Tells S.quits i responses.length
  := by
  rw [Statement.responses] at h
  cases hresults : S.results index settings with
  | error e =>
    rw [hresults] at h
    cases h
  | ok results =>
    rw [hresults] at h
    obtain rfl := Except.ok.inj h
    rw [Response.ofResults, List.getElem?_mapIdx, Option.map_eq_some_iff] at hr
    obtain ⟨found, -, rfl⟩ := hr
    rw [Response.ofResults, List.length_mapIdx]
    apply Flags.tells_placed

/-- Where a statement fails, its text or the options are at fault. -/
theorem category_of_responses (hvalid : settings.validate = .ok ()) {e : Error}
    (h : S.responses index settings = .error e) :
  e.category = .invalidArgument
  := by
  rw [Statement.responses, Session.results_eq hvalid] at h
  cases hqueries : S.queriesToRun.mapM (Query.readThrough settings.readOptions) with
  | error e' =>
    rw [hqueries] at h
    cases h
    obtain ⟨text, -, htext⟩ := exists_error_of_mapM hqueries
    exact Query.category_of_readThrough htext
  | ok read =>
    rw [hqueries] at h
    cases h

end Statement

end Retrieval
