import Mathlib.Data.List.Perm.Basic
import Mathlib.Tactic.Use
import Retrieval.Proofs.Query.Dropped
import Retrieval.Proofs.Query.Lexeme

/-!
# Queries that differ in phrases

Two texts whose lexemes differ in the texts of some phrases only are put together in the same
way. What comes out are expressions that differ in the texts of these phrases, in their order. A
phrase that is in neither expression is in an operand that is dropped, or stands in the text that is
left after a bracket that closes nothing, and there it is on both sides.
-/

namespace Retrieval

/-! ### What is kept -/

/-- The elements of `zs` are those of `rs`, in their order, and those of `ls`. -/
structure Parted {α : Type} (zs rs ls : List α) : Prop where
  sublist : rs.Sublist zs
  perm : zs.Perm (rs ++ ls)

namespace Parted

variable {α : Type} {zs rs ss ls ms : List α}

theorem refl (zs : List α) :
  Parted zs zs []
  := ⟨.refl zs, by rw [List.append_nil]⟩

theorem behind (ls rs : List α) :
  Parted (ls ++ rs) rs ls
  := ⟨List.sublist_append_right ls rs, List.perm_append_comm⟩

theorem trans (h : Parted zs rs ls) (h' : Parted rs ss ms) :
  Parted zs ss (ls ++ ms)
  := by
  use h'.sublist.trans h.sublist
  calc zs.Perm (rs ++ ls) := h.perm
    List.Perm _ (ss ++ ms ++ ls) := h'.perm.append_right ls
    List.Perm _ (ss ++ (ls ++ ms)) := by
      rw [List.append_assoc]
      exact List.perm_append_comm.append_left ss

theorem append_right (h : Parted zs rs ls) (us : List α) :
  Parted (zs ++ us) (rs ++ us) ls
  := by
  use h.sublist.append_right us
  calc (zs ++ us).Perm (rs ++ ls ++ us) := h.perm.append_right us
    List.Perm _ (rs ++ us ++ ls) := by
      rw [List.append_assoc, List.append_assoc]
      exact List.perm_append_comm.append_left rs

theorem append_left (h : Parted zs rs ls) (us : List α) :
  Parted (us ++ zs) (us ++ rs) ls
  := by
  use h.sublist.append_left us
  rw [List.append_assoc]
  apply h.perm.append_left us

/-- Where nothing else is there all is kept. -/
theorem eq_of_nil (h : Parted zs rs []) :
  rs = zs
  := by
  apply h.sublist.eq_of_length
  rw [h.perm.length_eq, List.append_nil]

end Parted

/-! ### Expressions -/

/-- Two expressions that are the same up to the texts of some phrases. Those on both sides are
given as pairs, from left to right. -/
inductive Expr.Varies : List (String × String) → Expr → Expr → Prop where
  | empty : Varies [] .empty .empty
  | term (t : Term) : Varies [] (.term t) (.term t)
  | phrase {t : Term} (h : t.isPhrase = true) (v w : String) :
      Varies [(v, w)] (.term { t with text := v }) (.term { t with text := w })
  | group {zs : List (String × String)} {e e' : Expr} (h : Varies zs e e') :
      Varies zs (.group e) (.group e')
  | join {ys zs : List (String × String)} {left left' right right' : Expr}
      (connective : Connective) (hleft : Varies ys left left') (hright : Varies zs right right') :
      Varies (ys ++ zs) (.join connective left right) (.join connective left' right')

namespace Operand

/-- Operands that are the same up to the texts of some phrases. -/
inductive Vary : List (String × String) → List Operand → List Operand → Prop where
  | nil : Vary [] [] []
  | cons {ys zs : List (String × String)} {e e' : Expr} {xs xs' : List Operand}
      (connective : Option Connective) (h : e.Varies ys e') (hs : Vary zs xs xs') :
      Vary (ys ++ zs) (⟨connective, e⟩ :: xs) (⟨connective, e'⟩ :: xs')

variable {ys zs : List (String × String)} {xs xs' : List Operand}

/-- Where there are no operands there are no phrases. -/
theorem Vary.eq_nil (h : Vary zs [] xs') :
  zs = []
  := by
  cases h
  rfl

theorem Vary.push (h : Vary zs xs xs') (connective : Option Connective) {e e' : Expr}
    (he : e.Varies ys e') :
  Vary (zs ++ ys) (xs ++ [⟨connective, e⟩]) (xs' ++ [⟨connective, e'⟩])
  := by
  induction h with
  | nil =>
    rw [List.nil_append, ← List.append_nil ys]
    exact .cons connective he .nil
  | cons connective hx hxs ih =>
    rw [List.append_assoc]
    exact .cons connective hx ih

theorem Vary.foldl (standard : Connective) {left left' : Expr} (hleft : left.Varies ys left')
    (h : Vary zs xs xs') :
  (xs.foldl (attach standard) left).Varies (ys ++ zs) (xs'.foldl (attach standard) left')
  := by
  induction h generalizing ys left left' with
  | nil =>
    rw [List.append_nil]
    apply hleft
  | cons connective he hxs ih =>
    rw [← List.append_assoc]
    apply ih
    exact .join (connective.getD standard) hleft he

theorem Vary.append (h : Vary ys xs xs') {us us' : List Operand} (h' : Vary zs us us') :
  Vary (ys ++ zs) (xs ++ us) (xs' ++ us')
  := by
  induction h with
  | nil => exact h'
  | cons connective hx hxs ih =>
    rw [List.append_assoc]
    exact .cons connective hx ih

/-- Operands are combined in the same way, and exclusions at the start are dropped. -/
theorem Vary.fold (h : Vary zs xs xs') (standard : Connective) :
  ∃ ls rs, zs = ls ++ rs ∧ Vary ls (dropped xs) (dropped xs')
    ∧ (fold standard xs).Varies rs (fold standard xs')
  := by
  induction h with
  | nil => exact ⟨[], [], rfl, .nil, .empty⟩
  | @cons ys zs e e' xs xs' connective he hxs ih =>
    by_cases hbut : connective = some .but
    · subst hbut
      obtain ⟨ls, rs, rfl, hdropped, hrs⟩ := ih
      exact ⟨ys ++ ls, rs, (List.append_assoc ys ls rs).symm, .cons _ he hdropped, hrs⟩
    · have hkept : ∀ (e : Expr), ¬isExclusion ⟨connective, e⟩ = true := by
        intro e
        simp [isExclusion, hbut]
      refine ⟨[], ys ++ zs, rfl, ?_, ?_⟩
      · rw [dropped, dropped, List.takeWhile_cons_of_neg (hkept e),
          List.takeWhile_cons_of_neg (hkept e')]
        exact .nil
      unfold Operand.fold
      rw [List.dropWhile_cons_of_neg (hkept e), List.dropWhile_cons_of_neg (hkept e')]
      cases hxs with
      | nil =>
        rw [List.append_nil]
        apply he
      | @cons ys' zs' x x' xs xs' connective' hx hxs =>
        rw [← List.append_assoc]
        apply Vary.foldl _ _ hxs
        exact .join _ he hx

end Operand

/-! ### Levels -/

/-- Levels that are the same up to the texts of some phrases. -/
structure Level.Varies (zs : List (String × String)) (level level' : Level) : Prop where
  operands : Operand.Vary zs level.operands level'.operands
  connective : level.connective = level'.connective
  mode : level.mode = level'.mode

namespace Level

variable {ys zs : List (String × String)} {level level' : Level}

theorem Varies.start :
  Varies [] start start
  := ⟨.nil, rfl, rfl⟩

theorem Varies.push (h : Varies zs level level') {e e' : Expr} (he : e.Varies ys e') :
  Varies (zs ++ ys) (push e level) (push e' level')
  := by
  refine ⟨?_, rfl, rfl⟩
  rw [Level.push]
  rw [h.connective]
  apply h.operands.push _ he

/-- Levels around others, the nearest first. The phrases of a level come after those of the
levels around it. -/
inductive Vary : List (String × String) → List Level → List Level → Prop where
  | nil : Vary [] [] []
  | cons {ys zs : List (String × String)} {level level' : Level} {outer outer' : List Level}
      (h : Varies zs level level') (hs : Vary ys outer outer') :
      Vary (ys ++ zs) (level :: outer) (level' :: outer')

/-- Levels are closed in the same way. -/
theorem Vary.collapse {outer outer' : List Level} (houter : Vary ys outer outer')
    (hinner : Varies zs level level') (standard : Connective) :
  ∃ rs ls, (Assembly.collapse standard level outer).value.Varies rs
      (Assembly.collapse standard level' outer').value
    ∧ Operand.Vary ls (Assembly.droppedCollapse standard level outer)
      (Assembly.droppedCollapse standard level' outer')
    ∧ Parted (ys ++ zs) rs ls
  := by
  induction houter generalizing zs level level' with
  | nil =>
    obtain ⟨ls, rs, rfl, hdropped, hrs⟩ := hinner.operands.fold standard
    exact ⟨rs, ls, hrs, hdropped, .behind ls rs⟩
  | @cons ys ms outermost outermost' outer outer' hlevel houter ih =>
    obtain ⟨ls, rs, rfl, hdropped, hrs⟩ := hinner.operands.fold standard
    obtain ⟨rs', ls', hrs', hdropped', hparted⟩ := ih (hlevel.push hrs.group)
    refine ⟨rs', ls ++ ls', hrs', hdropped.append hdropped', ?_⟩
    rw [← List.append_assoc] at hparted
    exact ((Parted.behind ls rs).append_left _).trans hparted

end Level

/-! ### Assemblies -/

/-- Lexemes that are the same up to the texts of some phrases, none of which is empty. -/
inductive PlacedLexeme.Vary :
    List (String × String) → List PlacedLexeme → List PlacedLexeme → Prop where
  | nil : Vary [] [] []
  | same {zs : List (String × String)} {x x' : PlacedLexeme} {xs xs' : List PlacedLexeme}
      (h : x.lexeme = x'.lexeme) (hs : Vary zs xs xs') : Vary zs (x :: xs) (x' :: xs')
  | phrase {zs : List (String × String)} {x x' : PlacedLexeme} {xs xs' : List PlacedLexeme}
      {v w : String} {isPrefix : Bool} (hv : v ≠ "") (hw : w ≠ "")
      (hx : x.lexeme = .phrase v.toList true isPrefix)
      (hx' : x'.lexeme = .phrase w.toList true isPrefix) (hs : Vary zs xs xs') :
      Vary ((v, w) :: zs) (x :: xs) (x' :: xs')

/-- Assemblies that are the same up to the texts of some phrases. -/
structure Assembly.Varies (ys zs : List (String × String)) (a a' : Assembly) : Prop where
  outer : Level.Vary ys a.outer a'.outer
  inner : Level.Varies zs a.inner a'.inner
  budget : a.budget = a'.budget

namespace Assembly

variable {ys zs : List (String × String)} {a a' : Assembly} {setting setting' : Setting}

theorem Varies.start (budget : Nat) :
  Varies [] [] (start budget) (start budget)
  := ⟨.nil, .start, rfl⟩

/-- A term is added on both sides. -/
theorem Varies.push (h : Varies ys zs a a') {xs : List (String × String)} {e e' : Expr}
    (he : e.Varies xs e') :
  Varies ys (zs ++ xs) { a with inner := a.inner.push e, budget := a.budget - 1 }
    { a' with inner := a'.inner.push e', budget := a'.budget - 1 }
  := ⟨h.outer, h.inner.push he, by rw [h.budget]⟩

theorem Varies.addTerm (h : Varies ys zs a a')
    (hweight : setting.termWeight = setting'.termWeight) (text : List Char)
    (isPrefix isPhrase : Bool) :
  Varies ys zs (a.addTerm setting text isPrefix isPhrase)
    (a'.addTerm setting' text isPrefix isPhrase)
  := by
  unfold Assembly.addTerm
  rw [← h.inner.mode, ← hweight, ← List.append_nil zs]
  apply h.push (.term _)

/-- What lexemes make of two assemblies, where operands are dropped on both sides: both go on, or
both end after a bracket that closes nothing. -/
inductive StepVaries (zs : List (String × String)) (a : Assembly) (x x' : PlacedLexeme) :
    List Operand → List Operand → Noted Progress → Noted Progress → Prop where
  | goOn {ps qs ls : List (String × String)} {b b' : Assembly} {dropped dropped' : List Operand}
      {remarks remarks' : List Remark} (h : Varies ps qs b b')
      (hdropped : Operand.Vary ls dropped dropped') (hparted : Parted zs (ps ++ qs) ls)
      (hbudget : a.budget ≤ b.budget + 1) :
      StepVaries zs a x x' dropped dropped' ⟨remarks, .goOn b⟩ ⟨remarks', .goOn b'⟩
  | halt {ps qs : List (String × String)} {b b' : Assembly} {remarks remarks' : List Remark}
      (h : Varies ps qs b b') (hkept : ps ++ qs = zs)
      (hclose : ∃ place, .unmatchedClose place ∈ remarks) :
      StepVaries zs a x x' [] [] ⟨remarks, .halt b x.rest⟩ ⟨remarks', .halt b' x'.rest⟩

section step

variable {x x' : PlacedLexeme}

/-- The same term is added on both sides. -/
theorem Varies.goOn_addTerm (h : Varies ys zs a a')
    (hweight : setting.termWeight = setting'.termWeight) (remarks : List Remark)
    (text : List Char) (isPrefix isPhrase : Bool) :
  StepVaries (ys ++ zs) a x x' [] []
    ⟨remarks, .goOn (a.addTerm setting text isPrefix isPhrase)⟩
    ⟨remarks, .goOn (a'.addTerm setting' text isPrefix isPhrase)⟩
  := by
  apply StepVaries.goOn (h.addTerm hweight text isPrefix isPhrase) .nil (.refl _)
  simp only [Assembly.addTerm]
  omega

/-- A level is opened on both sides. -/
theorem Varies.openLevel (h : Varies ys zs a a') :
  StepVaries (ys ++ zs) a x x' [] [] ⟨a.openLevel.remarks, .goOn a.openLevel.value⟩
    ⟨a'.openLevel.remarks, .goOn a'.openLevel.value⟩
  := by
  have hopened : Varies (ys ++ zs) [] a.openLevel.value a'.openLevel.value := by
    refine ⟨?_, .start, ?_⟩
    · exact .cons ⟨h.inner.operands, h.inner.connective, rfl⟩ h.outer
    · simp [Assembly.openLevel, h.budget]
  apply StepVaries.goOn hopened .nil
  · rw [List.append_nil]
    apply Parted.refl
  · simp only [Assembly.openLevel]
    omega

/-- A level is closed on both sides, or both assemblies end. -/
theorem Varies.step_closing (h : Varies ys zs a a')
    (hstandard : setting.standard = setting'.standard) (hx : x.lexeme = .closing)
    (hx' : x'.lexeme = .closing) :
  StepVaries (ys ++ zs) a x x' (a.droppedAt x) (a'.droppedAt x') (a.step setting x)
    (a'.step setting' x')
  := by
  obtain ⟨inner, outer, budget⟩ := a
  obtain ⟨inner', outer', budget'⟩ := a'
  obtain ⟨houter, hinner, hsame⟩ := h
  simp only [Assembly.step, droppedAt, hx, hx']
  cases houter with
  | nil => exact .halt ⟨.nil, hinner, hsame⟩ rfl ⟨_, List.mem_singleton_self _⟩
  | @cons ys zs level level' outer outer' hlevel houter =>
    obtain ⟨ls, rs, rfl, hdropped, hrs⟩ := hinner.operands.fold setting.standard
    have hclosed : Varies _ _ ⟨Level.push _ _, _, budget⟩ ⟨Level.push _ _, _, budget'⟩ :=
      ⟨houter, hlevel.push hrs.group, hsame⟩
    simp only [Assembly.closeLevel, Level.expr, ← hstandard]
    apply StepVaries.goOn hclosed hdropped
    · rw [← List.append_assoc ys]
      apply (Parted.behind ls rs).append_left
    · apply Nat.le_succ

/-- The same phrase is added on both sides. A phrase without an end asks for a budget that is
not exhausted. -/
theorem Varies.addPhrase (h : Varies ys zs a a')
    (hweight : setting.termWeight = setting'.termWeight) (hbudget : 1 < a.budget)
    (text : List Char) (closed isPrefix : Bool) :
  StepVaries (ys ++ zs) a x x' [] [] (a.addPhrase setting text closed isPrefix)
    (a'.addPhrase setting' text closed isPrefix)
  := by
  simp only [Assembly.addPhrase]
  by_cases htext : text.isEmpty = true
  · rw [if_pos htext, if_pos htext]
    exact .goOn ⟨h.outer, ⟨h.inner.operands, h.inner.connective, rfl⟩, h.budget⟩ .nil (.refl _)
      (Nat.le_succ _)
  rw [if_neg htext, if_neg htext]
  cases closed with
  | true => apply h.goOn_addTerm hweight
  | false =>
    have hbudget' : ¬a'.budget ≤ 1 := by
      rw [← h.budget]
      omega
    simp only [Bool.false_eq_true, if_false]
    rw [if_neg (by omega), if_neg hbudget']
    apply h.goOn_addTerm hweight

/-- The same lexeme is added to both assemblies. -/
theorem Varies.step (h : Varies ys zs a a') (hstandard : setting.standard = setting'.standard)
    (hweight : setting.termWeight = setting'.termWeight) (hx : x.lexeme = x'.lexeme)
    (hbudget : 1 < a.budget) :
  StepVaries (ys ++ zs) a x x' (a.droppedAt x) (a'.droppedAt x') (a.step setting x)
    (a'.step setting' x')
  := by
  by_cases hclosing : x.lexeme = .closing
  · exact h.step_closing hstandard hclosing (hx ▸ hclosing)
  simp only [Assembly.step, droppedAt, ← hx]
  cases hlexeme : x.lexeme with
  | closing => exact absurd hlexeme hclosing
  | mode choice =>
    exact .goOn ⟨h.outer, ⟨h.inner.operands, h.inner.connective, rfl⟩, h.budget⟩ .nil (.refl _)
      (Nat.le_succ _)
  | connective c =>
    exact .goOn ⟨h.outer, ⟨h.inner.operands, rfl, h.inner.mode⟩, h.budget⟩ .nil (.refl _)
      (Nat.le_succ _)
  | opening => apply h.openLevel
  | phrase text closed isPrefix => apply h.addPhrase hweight hbudget
  | word text isPrefix => apply h.goOn_addTerm hweight

/-- Phrases with different texts are added. -/
theorem Varies.step_phrase (h : Varies ys zs a a')
    (hweight : setting.termWeight = setting'.termWeight) {v w : String}
    {isPrefix : Bool} (hv : v ≠ "") (hw : w ≠ "")
    (hx : x.lexeme = .phrase v.toList true isPrefix)
    (hx' : x'.lexeme = .phrase w.toList true isPrefix) :
  StepVaries (ys ++ zs ++ [(v, w)]) a x x' (a.droppedAt x) (a'.droppedAt x') (a.step setting x)
    (a'.step setting' x')
  := by
  have hv' : v.toList.isEmpty = false := by simpa using hv
  have hw' : w.toList.isEmpty = false := by simpa using hw
  have hpushed : Varies ys (zs ++ [(v, w)]) (a.addTerm setting v.toList isPrefix true)
      (a'.addTerm setting' w.toList isPrefix true) := by
    rw [Assembly.addTerm, Assembly.addTerm, ← h.inner.mode, ← hweight, String.ofList_toList,
      String.ofList_toList]
    apply h.push
    exact .phrase (t := ⟨v, isPrefix, true, setting.termWeight, a.inner.mode⟩) rfl v w
  simp only [Assembly.step, droppedAt, hx, hx', Assembly.addPhrase, hv', hw', Noted.plain]
  apply StepVaries.goOn hpushed .nil
  · rw [List.append_assoc]
    apply Parted.refl
  · simp only [Assembly.addTerm]
    omega

end step

/-! ### Runs -/

variable {vs : List (String × String)} {isSpace : Char → Bool}

/-- Two runs that both give expressions, where operands are dropped on both sides and a text is left.
The phrases `zs` are read already, and the phrases `vs` come after them. Of these some may be in the
text that is left after a bracket that closes nothing. All others are in the expressions, in their
order, or in the operands that are dropped. -/
def RunVaries (isSpace : Char → Bool) (zs vs : List (String × String))
    (dropped dropped' : List Operand) (run run' : Noted (Except Error (Expr × List Char))) :
    Prop :=
  ∃ e e' rest rest' rs ls ms us, run.value = .ok (e, rest) ∧ run'.value = .ok (e', rest')
    ∧ vs = ms ++ us ∧ Parted (zs ++ ms) rs ls
    ∧ e.Varies rs e' ∧ Operand.Vary ls dropped dropped'
    ∧ PlacedLexeme.Vary us (lexemes isSpace rest) (lexemes isSpace rest')
    ∧ (us ≠ [] → ∃ place, .unmatchedClose place ∈ run.remarks)

/-- Operands that were dropped before. -/
theorem RunVaries.after {dropped dropped' ds ds' : List Operand}
    {run run' : Noted (Except Error (Expr × List Char))}
    (h : RunVaries isSpace ys vs dropped dropped' run run') {ls : List (String × String)}
    (hds : Operand.Vary ls ds ds') (hparted : Parted zs ys ls) (remarks remarks' : List Remark) :
  RunVaries isSpace zs vs (ds ++ dropped) (ds' ++ dropped') (run.after remarks)
    (run'.after remarks')
  := by
  obtain ⟨e, e', rest, rest', rs, ls', ms, us, he, he', rfl, hparted', hrs, hdropped, hleft,
    hclose⟩ := h
  refine ⟨e, e', rest, rest', rs, ls ++ ls', ms, us, he, he', rfl, ?_, hrs, hds.append hdropped,
    hleft, ?_⟩
  · exact (hparted.append_right ms).trans hparted'
  · intro hus
    obtain ⟨place, hplace⟩ := hclose hus
    use place
    apply List.mem_append_right remarks hplace

/-- A phrase that is read next. -/
theorem RunVaries.shift {dropped dropped' : List Operand}
    {run run' : Noted (Except Error (Expr × List Char))} {z : String × String}
    (h : RunVaries isSpace (zs ++ [z]) vs dropped dropped' run run') :
  RunVaries isSpace zs (z :: vs) dropped dropped' run run'
  := by
  obtain ⟨e, e', rest, rest', rs, ls, ms, us, he, he', rfl, hparted, hrest⟩ := h
  refine ⟨e, e', rest, rest', rs, ls, z :: ms, us, he, he', rfl, ?_, hrest⟩
  rwa [List.append_assoc, List.singleton_append] at hparted

/-- The end of two assemblies, before texts whose lexemes are the same up to the texts of some
phrases. -/
theorem Varies.stop (h : Varies ys zs a a') (hstandard : setting.standard = setting'.standard)
    {rest rest' : List Char}
    (hleft : PlacedLexeme.Vary vs (lexemes isSpace rest) (lexemes isSpace rest'))
    (remarks remarks' : List Remark)
    (hclose : vs ≠ [] → ∃ place, .unmatchedClose place ∈ remarks) :
  RunVaries isSpace (ys ++ zs) vs (a.droppedFinish setting) (a'.droppedFinish setting')
    ((a.stop setting rest).after remarks) ((a'.stop setting' rest').after remarks')
  := by
  obtain ⟨rs, ls, hrs, hdropped, hparted⟩ := h.outer.collapse h.inner setting.standard
  refine ⟨_, _, rest, rest', rs, ls, [], vs, rfl, rfl, rfl, ?_, ?_, ?_, hleft, ?_⟩
  · rw [List.append_nil]
    exact hparted
  · simp only [finish, ← hstandard]
    exact hrs
  · rw [droppedFinish, droppedFinish, ← hstandard]
    exact hdropped
  · intro hvs
    obtain ⟨place, hplace⟩ := hclose hvs
    use place
    apply List.mem_append_left _ hplace

/-- Two runs after a first lexeme, if they go on in the same way. What comes after a bracket
that closes nothing is left. -/
theorem StepVaries.run {x x' : PlacedLexeme} {xs xs' : List PlacedLexeme}
    (h : StepVaries zs a x x' (a.droppedAt x) (a'.droppedAt x') (a.step setting x)
      (a'.step setting' x'))
    (hstandard : setting.standard = setting'.standard) (hpos : a.budget ≠ 0)
    (hpos' : a'.budget ≠ 0)
    (hvary : PlacedLexeme.Vary vs (lexemes isSpace x.rest) (lexemes isSpace x'.rest))
    (hrun : ∀ {ps qs : List (String × String)} {b b' : Assembly}, Varies ps qs b b' →
      a.budget ≤ b.budget + 1 → RunVaries isSpace (ps ++ qs) vs (b.dropped setting xs)
        (b'.dropped setting' xs') (b.run setting xs) (b'.run setting' xs')) :
  RunVaries isSpace zs vs (a.dropped setting (x :: xs)) (a'.dropped setting' (x' :: xs'))
    (a.run setting (x :: xs)) (a'.run setting' (x' :: xs'))
  := by
  rw [Assembly.run, Assembly.run, Assembly.dropped, Assembly.dropped, if_neg hpos, if_neg hpos',
    if_neg hpos, if_neg hpos']
  generalize a.droppedAt x = ds at h
  generalize a'.droppedAt x' = ds' at h
  cases hstep : a.step setting x with
  | mk remarks progress =>
  cases hstep' : a'.step setting' x' with
  | mk remarks' progress' =>
  rw [hstep, hstep'] at h
  cases h with
  | goOn hb hds hparted hbudget => exact (hrun hb hbudget).after hds hparted _ _
  | halt hb hsame hclose =>
    subst hsame
    exact hb.stop hstandard hvary _ _ fun _ => hclose

theorem lexemes_rest {l : List Char} {x : PlacedLexeme} {xs : List PlacedLexeme}
    (h : lexemes isSpace l = x :: xs) :
  lexemes isSpace x.rest = xs
  := by
  rw [lexemes] at h
  split at h
  · cases h
  · obtain ⟨rfl, rfl⟩ := List.cons.inj h
    rfl

/-- Lexemes that are the same up to the texts of some phrases are put together in the same way,
if the budget exceeds their number. -/
theorem Varies.run (h : Varies ys zs a a') (hstandard : setting.standard = setting'.standard)
    (hweight : setting.termWeight = setting'.termWeight) {l l' : List Char}
    (hvary : PlacedLexeme.Vary vs (lexemes isSpace l) (lexemes isSpace l'))
    (hbudget : (lexemes isSpace l).length < a.budget) :
  RunVaries isSpace (ys ++ zs) vs (a.dropped setting (lexemes isSpace l))
    (a'.dropped setting' (lexemes isSpace l')) (a.run setting (lexemes isSpace l))
    (a'.run setting' (lexemes isSpace l'))
  := by
  generalize hl : lexemes isSpace l = xs at hvary hbudget
  generalize hl' : lexemes isSpace l' = xs' at hvary
  induction hvary generalizing ys zs a a' l l' with
  | nil =>
    have hleft : PlacedLexeme.Vary [] (lexemes isSpace []) (lexemes isSpace []) := by
      rw [lexemes_nil]
      exact .nil
    exact h.stop hstandard hleft [] [] fun hne => absurd rfl hne
  | @same vs x x' xs xs' hx hs ih =>
    rw [List.length_cons] at hbudget
    have hpos : a.budget ≠ 0 := by omega
    have hrest := lexemes_rest hl
    have hrest' := lexemes_rest hl'
    apply (h.step hstandard hweight hx (by omega)).run hstandard hpos (h.budget ▸ hpos)
    · rwa [hrest, hrest']
    · intro ps qs b b' hb hle
      exact ih hb hrest (by omega) hrest'
  | @phrase vs x x' xs xs' v w isPrefix hv hw hx hx' hs ih =>
    rw [List.length_cons] at hbudget
    have hpos : a.budget ≠ 0 := by omega
    have hrest := lexemes_rest hl
    have hrest' := lexemes_rest hl'
    apply RunVaries.shift
    apply (h.step_phrase hweight hv hw hx hx').run hstandard hpos (h.budget ▸ hpos)
    · rwa [hrest, hrest']
    · intro ps qs b b' hb hle
      exact ih hb hrest (by omega) hrest'

end Assembly

end Retrieval
