import RowReduction.Proofs.Elimination.Clearing
import RowReduction.Proofs.Elimination.Recording
import RowReduction.Step.Description

/-!
Logs that can be replayed. A step names a row operation and shows the tableau that the operation led
to, so the steps of a log lead from tableau to tableau. What a sweep records falls into blocks, one
for each place: the exchange that brings the pivot row up, if it is not there already, and then the
steps of the clearing rule. A sweep that stalls has recorded the blocks of the places before.
-/
namespace RowReduction

variable {α : Type} {m n : Nat}

namespace Step

variable {τ σ : Type}

/-- The rows that a step exchanges. -/
def exchange? : Step τ σ α → Option (Int × Int)
  | swap row pivotRow _ => some (row, pivotRow)
  | _ => none

/-- The pivot that a step divides by. -/
def divisor? : Step τ σ α → Option α
  | normalize _ pivot _ => some pivot
  | _ => none

/-- The factor that a step multiplies the pivot row by. -/
def factor? : Step τ σ α → Option α
  | eliminate _ _ factor _ => some factor
  | _ => none

/-- A step shows, entry by entry, a tableau that has a property. -/
def Shows (P : Tableau α m n → Prop) (s : RowStep α) : Prop :=
  ∃ M : Tableau α m n, s.tableau? = some (List.ofFn fun i => List.ofFn (M i)) ∧ P M

end Step

/-- The exchanges in a log, first to last. -/
def Log.exchanges? (log : Log α) : Option (List (Int × Int)) :=
  log.steps?.map (·.filterMap Step.exchange?)

theorem Log.Extended.exchanges?_eq {log later : Log α} {new : List (RowStep α)}
    (h : log.Extended new later) :
    later.exchanges? = log.exchanges?.map (· ++ new.filterMap Step.exchange?) := by
  rw [exchanges?, exchanges?, h, Option.map_map, Option.map_map]
  congr 1
  funext old
  exact List.filterMap_append

/-- A step that is no exchange leaves the exchanges of a log as they are. -/
theorem Log.exchanges?_record {log : Log α} {step : Unit → RowStep α}
    (h : (step ()).exchange? = none) : (log.record step).exchanges? = log.exchanges? := by
  rw [(log.extended_record step).exchanges?_eq, List.filterMap_cons_none h]
  simp

/-! ## One operation after the other -/

/-- `N` is what the operation that a step records makes of `M`, entry by entry, and the step
shows `N`, row by row and entry by entry. -/
inductive Replays [Sub α] [Mul α] [Div α] (M : Tableau α m n) :
    RowStep α → Tableau α m n → Prop
  | swap {N : Tableau α m n} (i p : Fin m)
      (h : ∀ r j, N r j = if r = i then M p j else if r = p then M i j else M r j) :
      Replays M (.swap i.val p.val (List.ofFn fun r => List.ofFn (N r))) N
  | normalize {N : Tableau α m n} (i : Fin m) (pivot : α)
      (h : ∀ r j, N r j = if r = i ∧ i.val ≤ j.val then M r j / pivot else M r j) :
      Replays M (.normalize i.val pivot (List.ofFn fun r => List.ofFn (N r))) N
  | eliminate {N : Tableau α m n} (i target : Fin m) (factor : α)
      (h : ∀ r j, N r j =
        if r = target ∧ i.val ≤ j.val then M r j - factor * M i j else M r j) :
      Replays M (.eliminate i.val target.val factor (List.ofFn fun r => List.ofFn (N r))) N

namespace Replays

variable [Sub α] [Mul α] [Div α] {M N : Tableau α m n} {step : RowStep α} {rows : List (List α)}

/-- A step shows what it led to. -/
theorem tableau?_eq (h : Replays M step N) : step.tableau? = some N.toLists := by
  rw [N.toLists_eq_ofFn]
  cases h with
  | swap _ _ _ => rfl
  | normalize _ _ _ => rfl
  | eliminate _ _ _ _ => rfl

theorem shows {P : Tableau α m n → Prop} (h : Replays M step N) (hN : P N) : step.Shows P :=
  ⟨N, N.toLists_eq_ofFn ▸ h.tableau?_eq, hN⟩

theorem swap_apply {i p : Fin m} (h : Replays M (.swap i.val p.val rows) N) (r : Fin m)
    (j : Fin n) : N r j = if r = i then M p j else if r = p then M i j else M r j := by
  generalize hstep : Step.swap (i.val : Int) (p.val : Int) rows = step at h
  cases h with
  | swap i' p' happly =>
      injection hstep with hi hp _
      rw [Fin.ext (Int.ofNat.inj hi), Fin.ext (Int.ofNat.inj hp)]
      exact happly r j
  | normalize _ _ _ => exact nomatch hstep
  | eliminate _ _ _ _ => exact nomatch hstep

theorem normalize_apply {i : Fin m} {pivot : α} (h : Replays M (.normalize i.val pivot rows) N)
    (r : Fin m) (j : Fin n) :
    N r j = if r = i ∧ i.val ≤ j.val then M r j / pivot else M r j := by
  generalize hstep : Step.normalize (i.val : Int) pivot rows = step at h
  cases h with
  | swap _ _ _ => exact nomatch hstep
  | normalize i' pivot' happly =>
      injection hstep with hi hpivot _
      rw [Fin.ext (Int.ofNat.inj hi), hpivot]
      exact happly r j
  | eliminate _ _ _ _ => exact nomatch hstep

theorem eliminate_apply {i target : Fin m} {factor : α}
    (h : Replays M (.eliminate i.val target.val factor rows) N) (r : Fin m) (j : Fin n) :
    N r j = if r = target ∧ i.val ≤ j.val then M r j - factor * M i j else M r j := by
  generalize hstep : Step.eliminate (i.val : Int) (target.val : Int) factor rows = step at h
  cases h with
  | swap _ _ _ => exact nomatch hstep
  | normalize _ _ _ => exact nomatch hstep
  | eliminate i' target' factor' happly =>
      injection hstep with hi htarget hfactor _
      rw [Fin.ext (Int.ofNat.inj hi), Fin.ext (Int.ofNat.inj htarget), hfactor]
      exact happly r j

end Replays

/-- The steps lead from `M` to `N`, each of them from the tableau that the one before shows. -/
inductive Trail [Sub α] [Mul α] [Div α] :
    Tableau α m n → List (RowStep α) → Tableau α m n → Prop
  | nil (M : Tableau α m n) : Trail M [] M
  | cons {M K N : Tableau α m n} {s : RowStep α} {steps : List (RowStep α)} :
      Replays M s K → Trail K steps N → Trail M (s :: steps) N

theorem Trail.append [Sub α] [Mul α] [Div α] {M K N : Tableau α m n}
    {first second : List (RowStep α)} (hfirst : Trail M first K) (hsecond : Trail K second N) :
    Trail M (first ++ second) N := by
  induction hfirst with
  | nil => exact hsecond
  | cons hs _ ih => exact .cons hs (ih hsecond)

variable [Scalar α]

/-- The steps that bring up the pivot row of a place: none when it is there already. -/
inductive BringsUp (d : Diagonal m n) (M : Tableau α m n) :
    List (RowStep α) → Tableau α m n → Prop
  | inPlace (h : M.pivotRow d.row d.column = d.row) : BringsUp d M [] M
  | exchanged {N : Tableau α m n} (h : d.row < M.pivotRow d.row d.column)
      (hN : Replays M (.swap d.index (M.pivotRow d.row d.column).val N.toLists) N) :
      BringsUp d M [.swap d.index (M.pivotRow d.row d.column).val N.toLists] N

/-- The steps that eliminate the entries of a column in the listed rows, one row after the other.
The factor is read off the tableau as it is when the row has its turn; a row whose factor is skipped
stays as it is and takes no step. -/
inductive Eliminates (d : Diagonal m n) (factor : Tableau α m n → Fin m → α) (skips : α → Bool) :
    List (Fin m) → Tableau α m n → List (RowStep α) → Tableau α m n → Prop
  | nil (M : Tableau α m n) : Eliminates d factor skips [] M [] M
  | skip {M N : Tableau α m n} {r : Fin m} {rows : List (Fin m)} {steps : List (RowStep α)}
      (h : skips (factor M r) = true) (rest : Eliminates d factor skips rows M steps N) :
      Eliminates d factor skips (r :: rows) M steps N
  | eliminate {M K N : Tableau α m n} {r : Fin m} {rows : List (Fin m)}
      {steps : List (RowStep α)} (h : skips (factor M r) = false)
      (hK : Replays M (.eliminate d.index r.val (factor M r) K.toLists) K)
      (rest : Eliminates d factor skips rows K steps N) :
      Eliminates d factor skips (r :: rows) M
        (.eliminate d.index r.val (factor M r) K.toLists :: steps) N

/-- **The blocks of a log**: the pivots and the steps of the first places of a sweep, from `S` to the
tableau after them. `Clears` says which steps clear a column once the pivot row is up. -/
inductive Blocks (Clears : Diagonal m n → Tableau α m n → List (RowStep α) → Tableau α m n → Prop)
    (S : Tableau α m n) : Nat → List α → List (RowStep α) → Tableau α m n → Prop
  | start : Blocks Clears S 0 [] [] S
  | place {d : Diagonal m n} {pivots : List α} {steps exchange cleared : List (RowStep α)}
      {M K N : Tableau α m n} (before : Blocks Clears S d.index pivots steps M)
      (up : BringsUp d M exchange K) (clears : Clears d K cleared N) :
      Blocks Clears S (d.index + 1) (pivots ++ [K d.row d.column])
        (steps ++ (exchange ++ cleared)) N

variable {d : Diagonal m n} {M N S : Tableau α m n} {steps : List (RowStep α)}

theorem BringsUp.trail (h : BringsUp d M steps N) : Trail M steps N := by
  cases h with
  | inPlace _ => exact .nil _
  | exchanged _ hN => exact .cons hN (.nil _)

/-- Bringing up a pivot row takes exchanges only. -/
theorem BringsUp.exchanges (h : BringsUp d M steps N) :
    (steps.filterMap Step.exchange?).length = steps.length ∧
      steps.filterMap Step.divisor? = [] := by
  cases h with
  | inPlace _ => exact ⟨rfl, rfl⟩
  | exchanged _ _ => exact ⟨rfl, rfl⟩

/-- The one exchange is that of the place with its pivot row. -/
theorem BringsUp.exchange_eq (h : BringsUp d M steps N) :
    steps.filterMap Step.exchange? =
      if M.pivotRow d.row d.column = d.row then []
      else [((d.index : Int), ((M.pivotRow d.row d.column).val : Int))] := by
  cases h with
  | inPlace h => rw [if_pos h]; rfl
  | exchanged h _ => rw [if_neg h.ne']; rfl

section Eliminations

variable {factor : Tableau α m n → Fin m → α} {skips : α → Bool} {rows : List (Fin m)}

theorem Eliminates.trail (h : Eliminates d factor skips rows M steps N) : Trail M steps N := by
  induction h with
  | nil => exact .nil _
  | skip _ _ ih => exact ih
  | eliminate _ hK _ ih => exact .cons hK ih

/-- Eliminations are neither exchanges nor divisions. -/
theorem Eliminates.only_eliminations (h : Eliminates d factor skips rows M steps N) :
    steps.filterMap Step.exchange? = [] ∧ steps.filterMap Step.divisor? = [] := by
  induction h with
  | nil => exact ⟨rfl, rfl⟩
  | skip _ _ ih => exact ih
  | eliminate _ _ _ ih => exact ih

theorem Eliminates.kinds (h : Eliminates d factor skips rows M steps N) :
    steps.map Step.kind ⊆ ["eliminate"] := by
  induction h with
  | nil => exact List.nil_subset _
  | skip _ _ ih => exact ih
  | eliminate _ _ _ ih => exact List.cons_subset.mpr ⟨List.mem_cons_self, ih⟩

/-- When no row is skipped, every row takes a step. -/
theorem Eliminates.length (h : Eliminates d factor (fun _ => false) rows M steps N) :
    steps.length = rows.length := by
  induction h with
  | nil => rfl
  | skip hskip _ _ => exact nomatch hskip
  | eliminate _ _ _ ih => rw [List.length_cons, List.length_cons, ih]

end Eliminations

section Places

variable {Clears : Diagonal m n → Tableau α m n → List (RowStep α) → Tableau α m n → Prop}
  {k : Nat} {pivots : List α}

/-- Blocks whose clearing steps lead from tableau to tableau do so altogether. -/
theorem Blocks.trail (hclears : ∀ {d K cleared N}, Clears d K cleared N → Trail K cleared N)
    (h : Blocks Clears S k pivots steps N) : Trail S steps N := by
  induction h with
  | start => exact .nil _
  | place _ up clears ih => exact ih.append (up.trail.append (hclears clears))

/-- Besides exchanges, blocks hold the kinds of steps that clear a column. -/
theorem Blocks.kinds {kinds : List String}
    (hclears : ∀ {d K cleared N}, Clears d K cleared N → cleared.map Step.kind ⊆ kinds)
    (h : Blocks Clears S k pivots steps N) : steps.map Step.kind ⊆ "swap" :: kinds := by
  induction h with
  | start => exact List.nil_subset _
  | place _ up clears ih =>
      have hcleared := List.subset_cons_of_subset "swap" (hclears clears)
      rw [List.map_append, List.map_append]
      refine List.append_subset.mpr ⟨ih, List.append_subset.mpr ⟨?_, hcleared⟩⟩
      cases up with
      | inPlace _ => exact List.nil_subset _
      | exchanged _ _ => exact List.cons_subset.mpr ⟨List.mem_cons_self, List.nil_subset _⟩

end Places

/-! ## What a sweep records -/

namespace Progress

theorem bringUp_replays (s : Progress α m n) (i p : Fin m) :
    Replays s.working (.swap i.val p.val (s.working.swapRows i p).toLists)
      (s.working.swapRows i p) := by
  rw [Tableau.toLists_eq_ofFn]
  exact .swap i p fun r j => s.working.swapRows_apply i p r j

theorem normalize_replays (s : Progress α m n) (d : Diagonal m n) :
    Replays s.working
      (.normalize d.index (s.working d.row d.column) (s.normalize d).working.toLists)
      (s.normalize d).working := by
  rw [Tableau.toLists_eq_ofFn]
  exact .normalize d.row _ fun r j => s.working.divideRow_apply d.row d.index _ r j

theorem eliminate_replays (s : Progress α m n) (d : Diagonal m n) (factor : α) (r : Fin m) :
    Replays s.working (.eliminate d.index r.val factor (s.eliminate d factor r).working.toLists)
      (s.eliminate d factor r).working := by
  rw [Tableau.toLists_eq_ofFn]
  exact .eliminate d.row r factor fun q j => s.working.subtractRow_apply d.row r d.index factor q j

/-- Bringing up a pivot row is recorded. -/
theorem pivoted_bringsUp (s : Progress α m n) (d : Diagonal m n) :
    ∃ exchange, BringsUp d s.working exchange (s.pivoted d).working ∧
      s.log.Extended exchange (s.pivoted d).log ∧
      (s.pivoted d).swaps = s.swaps + exchange.length := by
  by_cases hchoice : s.choice d = d.row
  · have hpivoted : s.bringUp d.row (s.choice d) = s := if_pos hchoice
    refine ⟨[], ?_, ?_, ?_⟩
    · rw [pivoted, hpivoted]
      exact .inPlace hchoice
    · rw [pivoted, hpivoted]
      exact .refl _
    · rw [pivoted, hpivoted]
      rfl
  · have hbelow : d.row < s.choice d := lt_of_le_of_ne (s.le_choice d) (Ne.symm hchoice)
    refine ⟨[.swap d.index (s.choice d).val (s.working.swapRows d.row (s.choice d)).toLists],
      ?_, ?_, ?_⟩
    · rw [pivoted_working]
      exact .exchanged hbelow (s.bringUp_replays d.row (s.choice d))
    · rw [pivoted, bringUp, if_neg hchoice]
      exact s.log.extended_record _
    · rw [pivoted_swaps, if_neg hchoice]
      rfl

/-- **A loop over rows records its eliminations.** The pivot row is not among the rows, so every
turn of the loop finds it as the loop found it. -/
theorem foldl_eliminates {d : Diagonal m n} {factor : Tableau α m n → Fin m → α}
    {skips : α → Bool} {f : Progress α m n → Fin m → Progress α m n} {pivotRow : Fin n → α}
    (hf : ∀ t : Progress α m n, t.working d.row = pivotRow → ∀ r, f t r =
      if skips (factor t.working r) then t else t.eliminate d (factor t.working r) r)
    {rows : List (Fin m)} (hd : d.row ∉ rows) :
    ∀ s : Progress α m n, s.working d.row = pivotRow →
      ∃ steps, Eliminates d factor skips rows s.working steps (rows.foldl f s).working ∧
        s.log.Extended steps (rows.foldl f s).log := by
  induction rows with
  | nil =>
      intro s _
      exact ⟨[], .nil _, .refl _⟩
  | cons r rest ih =>
      intro s hs
      have hr : d.row ≠ r := List.ne_of_not_mem_cons hd
      have hrest : d.row ∉ rest := List.not_mem_of_not_mem_cons hd
      rw [List.foldl_cons, hf s hs r]
      cases hskip : skips (factor s.working r) with
      | true =>
          rw [if_pos rfl]
          obtain ⟨steps, heliminates, hlog⟩ := ih hrest s hs
          exact ⟨steps, .skip hskip heliminates, hlog⟩
      | false =>
          rw [if_neg Bool.false_ne_true]
          have hkeeps : (s.eliminate d (factor s.working r) r).working d.row = pivotRow := by
            rw [← hs]
            funext j
            rw [eliminate, become_working, Tableau.subtractRow_apply, if_neg (fun h => hr h.1)]
          obtain ⟨steps, heliminates, hlog⟩ := ih hrest _ hkeeps
          refine ⟨_ :: steps, .eliminate hskip (s.eliminate_replays d _ r) heliminates, ?_⟩
          exact (s.log.extended_record _).trans hlog

/-- What a clearing rule records: it takes the steps that `Clears` asks for, none of them an
exchange, and leaves the counts of the sweep alone. -/
structure Takes (Clears : Diagonal m n → Tableau α m n → List (RowStep α) → Tableau α m n → Prop)
    (clear : Diagonal m n → Progress α m n → Progress α m n) : Prop where
  steps : ∀ d s, ∃ cleared, Clears d s.working cleared (clear d s).working ∧
    s.log.Extended cleared (clear d s).log
  no_exchange : ∀ {d K cleared N}, Clears d K cleared N → cleared.filterMap Step.exchange? = []
  swaps : ∀ d s, (clear d s).swaps = s.swaps
  pivots : ∀ d s, (clear d s).pivots = s.pivots

/-- The exchanges of a place, once its column is cleared. -/
theorem Takes.exchanges?_eq
    {Clears : Diagonal m n → Tableau α m n → List (RowStep α) → Tableau α m n → Prop}
    {clear : Diagonal m n → Progress α m n → Progress α m n} (hclear : Takes Clears clear)
    (d : Diagonal m n) (s : Progress α m n) :
    (clear d (s.pivoted d)).log.exchanges? = s.log.exchanges?.map
      (· ++ if s.choice d = d.row then [] else [((d.index : Int), ((s.choice d).val : Int))]) := by
  obtain ⟨exchange, hup, hexchange, _⟩ := s.pivoted_bringsUp d
  obtain ⟨cleared, hclears, hcleared⟩ := hclear.steps d (s.pivoted d)
  rw [(hexchange.trans hcleared).exchanges?_eq, List.filterMap_append,
    hclear.no_exchange hclears, List.append_nil, hup.exchange_eq]
  rfl

end Progress

namespace Sweep

variable {Clears : Diagonal m n → Tableau α m n → List (RowStep α) → Tableau α m n → Prop}
  {clear : Diagonal m n → Progress α m n → Progress α m n}

/-- **A sweep records blocks**: one for every place that it has cleared, and nothing else. -/
theorem run_blocks (hclear : Progress.Takes Clears clear) {tolerance : α} {log : Log α} {k : Nat}
    {hm : k ≤ m} {hn : k ≤ n} {t : Progress α m n}
    (h : run clear tolerance (.start S log) k hm hn = complete t) :
    ∃ steps, Blocks Clears S k t.pivots steps t.working ∧ log.Extended steps t.log ∧
      (steps.filterMap Step.exchange?).length = t.swaps := by
  apply run_complete (I := fun k t => ∃ steps, Blocks Clears S k t.pivots steps t.working ∧
    log.Extended steps t.log ∧ (steps.filterMap Step.exchange?).length = t.swaps) _ _ k hm hn h
  · exact ⟨[], .start, .refl log, rfl⟩
  · rintro d s ⟨steps, hblocks, hlog, hswaps⟩ _
    obtain ⟨exchange, hup, hexchange, hcount⟩ := s.pivoted_bringsUp d
    obtain ⟨cleared, hclears, hcleared⟩ := hclear.steps d (s.pivoted d)
    refine ⟨steps ++ (exchange ++ cleared), ?_, hlog.trans (hexchange.trans hcleared), ?_⟩
    · rw [hclear.pivots, Progress.pivoted_pivots]
      exact .place hblocks hup hclears
    · rw [hclear.swaps, hcount, List.filterMap_append, List.filterMap_append,
        hclear.no_exchange hclears, List.append_nil, List.length_append, hswaps,
        hup.exchanges.1]

end Sweep

end RowReduction
