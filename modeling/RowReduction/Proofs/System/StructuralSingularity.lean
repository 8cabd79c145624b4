import Mathlib
import RowReduction.Proofs.Elimination.EqualRows
import RowReduction.Proofs.Exact.Determinant
import RowReduction.Proofs.System.CramerRule
import RowReduction.Proofs.System.Finiteness

/-!
Matrices whose singularity can be seen in their entries: a zero row, a zero column or two equal rows.
As long as no entry overflows, rounding does not hide it from triangular reduction: the determinant
is zero, and Cramer's rule refuses every system with such a matrix. Gauss-Jordan reduction refuses
zero rows and zero columns. Equal rows it refuses unless what the rounding has left of one of them
reaches the tolerance, and then it solves equations that have no unique solution.
-/
namespace RowReduction

variable {tolerance : Binary64} {recording : Bool}

/-- A determinant whose reduction stalls is zero. -/
theorem SquareMatrix.determinant_of_stalled {m : SquareMatrix} {c : Nat}
    (h : ∀ log, (m.entries.triangulate tolerance log).singularColumn = some c) :
    (m.determinant tolerance recording).value = .zero ∧
      (m.determinant tolerance recording).singularColumn = some c :=
  ⟨Tableau.triangulate_value_singular (h (.start recording)), h (.start recording)⟩

namespace LinearSystem

variable {s : LinearSystem} {routines : MatrixRoutines}

/-- Cramer's rule refuses a system with such a matrix. -/
theorem solve_cramer_of_stalled (htol : Tolerance.IsUsable tolerance) {c : Nat}
    (h : ∀ log, (s.matrix.entries.triangulate tolerance log).singularColumn = some c) :
    s.solve routines .cramer tolerance recording =
      .error (.zeroDeterminant .zero tolerance (some c)) := by
  have hdeterminant : (s.matrix.determinant tolerance recording).value = .zero ∧
      (s.matrix.determinant tolerance recording).singularColumn = some c :=
    SquareMatrix.determinant_of_stalled h
  obtain ⟨hvalue, hcolumn⟩ := hdeterminant
  have hlt : (s.matrix.determinant tolerance recording).value.abs.lt tolerance = true := by
    rw [hvalue]
    exact htol.2
  rw [solve_cramer_of_lt hlt, hvalue, hcolumn]

/-- A Gauss-Jordan reduction that breaks down is reported as a singular matrix. -/
theorem solve_gaussJordan_of_error {f : Breakdown Binary64}
    (h : s.matrix.entries.gaussJordan s.constants tolerance (.start recording) = .error f) :
    s.solve routines .gaussJordan tolerance recording = .error (.ofBreakdown f) := by
  simp only [solve, h]

end LinearSystem

namespace SquareMatrix

/-- Gauss-Jordan reduction refuses the matrix: the reduction breaks down for every right-hand side,
and every call that solves a system with this matrix reports it as singular. -/
def RefusedByGaussJordan (m : SquareMatrix) (tolerance : Binary64) : Prop :=
  (∀ b log, ∃ f, m.entries.gaussJordan b tolerance log = .error f) ∧
    ∀ (routines : MatrixRoutines) (source : SystemSource) (b : Value) (s : LinearSystem)
        (recording : Bool),
      source.resolve b = .ok s → s.matrix = m →
      ∃ f, RowReduction.solve routines source b
          ⟨.text "gauss_jordan", .bool recording, .float tolerance⟩ = .error f ∧
        f.kind = .singularMatrix

/-- Every breakdown of the reduction is reported. -/
theorem refusedByGaussJordan {m : SquareMatrix} (htol : Tolerance.IsUsable tolerance)
    (h : ∀ b log, ∃ f, m.entries.gaussJordan b tolerance log = .error f) :
    m.RefusedByGaussJordan tolerance := by
  refine ⟨h, ?_⟩
  rintro routines source b s recording hsource rfl
  have hcall : RowReduction.solve routines source b
      ⟨.text "gauss_jordan", .bool recording, .float tolerance⟩ =
        s.solve routines .gaussJordan tolerance recording :=
    solve_eq_solve hsource htol .gaussJordan
  obtain ⟨f, hf⟩ := h s.constants (.start recording)
  exact ⟨_, hcall.trans (LinearSystem.solve_gaussJordan_of_error hf), rfl⟩

/-- **Singularity that can be seen in the entries is recognised, whatever is rounded.** When no entry
overflows, the triangular reduction of a matrix with two equal rows, a zero row or a zero column
stalls, at a zero column at the latest. So its determinant is zero and marked as singular, and
Cramer's rule refuses every system with it for that reason. Gauss-Jordan reduction refuses every
system whose matrix has a zero row or a zero column. -/
theorem structurally_singular (m : SquareMatrix) (htol : Tolerance.IsUsable tolerance) :
    (m.entries.HasEqualRows ∨ m.entries.HasZeroRow ∨ (∃ j, m.entries.IsZeroColumn j) →
      m.entries.StaysFinite Progress.clearBelow tolerance →
      ∃ c : Nat, (∀ j, m.entries.IsZeroColumn j → c ≤ j.val) ∧
        (∀ log, (m.entries.triangulate tolerance log).value = .zero ∧
          (m.entries.triangulate tolerance log).singularColumn = some c) ∧
        (∀ source recording, source.resolve = .ok m →
          ∃ D, RowReduction.determinant source ⟨.bool recording, .float tolerance⟩ = .ok D ∧
            D.value = .zero ∧ D.isSingular = true ∧ D.singularColumn = some c) ∧
        ∀ routines source b s recording, source.resolve b = .ok s → s.matrix = m →
          ∃ f, RowReduction.solve routines source b
              ⟨.text "cramer", .bool recording, .float tolerance⟩ = .error f ∧
            f.kind = .singularMatrix ∧ f = .zeroDeterminant .zero tolerance (some c)) ∧
    (m.entries.HasZeroRow ∨ (∃ j, m.entries.IsZeroColumn j) →
      m.entries.StaysFinite Progress.clearColumn tolerance →
      m.RefusedByGaussJordan tolerance) := by
  constructor
  · intro h hfinite
    obtain ⟨c, hstalled, hc⟩ := Tableau.triangulate_singularColumn_of_zeros htol.2 hfinite h
    refine ⟨c, hc, fun log => ⟨Tableau.triangulate_value_singular (hstalled log), hstalled log⟩,
      ?_, ?_⟩
    · intro source recording hsource
      obtain ⟨hvalue, hcolumn⟩ := determinant_of_stalled hstalled
      refine ⟨_, determinant_eq_ok hsource htol, hvalue, ?_, hcolumn⟩
      rw [DeterminantSolution.isSingular, hcolumn]
      rfl
    · rintro routines source b s recording hsource rfl
      have hcall : RowReduction.solve routines source b
          ⟨.text "cramer", .bool recording, .float tolerance⟩ =
            s.solve routines .cramer tolerance recording := solve_eq_solve hsource htol .cramer
      exact ⟨_, hcall.trans (LinearSystem.solve_cramer_of_stalled htol hstalled), rfl, rfl⟩
  · intro h hfinite
    apply refusedByGaussJordan htol
    intro b log
    obtain ⟨f, hf, _⟩ := Tableau.gaussJordan_error_of_zeros htol.2 hfinite h b log
    exact ⟨f, hf⟩

/-- Three equations, the last of which repeats the first. -/
def repeatedEquation : SquareMatrix where
  order := 3
  entries :=
    ⟨#v[#v[.ofDecimal false 1 (-1), .ofDecimal false 3 (-1), .ofDecimal false 7 (-1)],
      #v[.ofDecimal false 2 (-1), .ofDecimal false 1 (-1), .zero],
      #v[.ofDecimal false 1 (-1), .ofDecimal false 3 (-1), .ofDecimal false 7 (-1)]]⟩
  order_pos := by decide
  finite := by decide +kernel

/-- Three equations, the second of which has no coefficients. -/
def emptyEquation : SquareMatrix where
  order := 3
  entries :=
    ⟨#v[#v[.ofDecimal false 1 (-1), .ofDecimal false 3 (-1), .ofDecimal false 7 (-1)],
      #v[.zero, .finite true .zero, .zero],
      #v[.ofDecimal false 2 (-1), .ofDecimal false 1 (-1), .zero]]⟩
  order_pos := by decide
  finite := by decide +kernel

theorem structurally_singular_three :
    Tolerance.IsUsable Tolerance.pivot ∧ repeatedEquation.entries.HasEqualRows ∧
      repeatedEquation.entries.StaysFinite Progress.clearBelow Tolerance.pivot ∧
      emptyEquation.entries.HasZeroRow ∧
      emptyEquation.entries.StaysFinite Progress.clearColumn Tolerance.pivot ∧
      (∃ D, RowReduction.determinant (.matrix repeatedEquation)
          ⟨.bool false, .float Tolerance.pivot⟩ = .ok D ∧
        D.value = .zero ∧ D.isSingular = true ∧ D.singularColumn = some 2) ∧
      emptyEquation.RefusedByGaussJordan Tolerance.pivot := by
  have htol : Tolerance.IsUsable Tolerance.pivot := by decide +kernel
  have hequal : repeatedEquation.entries.HasEqualRows := by decide +kernel
  have hfinite : repeatedEquation.entries.StaysFinite Progress.clearBelow Tolerance.pivot := by
    decide +kernel
  have hzero : emptyEquation.entries.HasZeroRow := by decide +kernel
  have hfinite' : emptyEquation.entries.StaysFinite Progress.clearColumn Tolerance.pivot := by
    decide +kernel
  have hcolumn : (repeatedEquation.entries.triangulate Tolerance.pivot .off).singularColumn =
      some 2 := by decide +kernel
  obtain ⟨c, _, hkernel, hcall, _⟩ :=
    (structurally_singular repeatedEquation htol).1 (.inl hequal) hfinite
  have hrefused := (structurally_singular emptyEquation htol).2 (.inl hzero) hfinite'
  have hc : c = 2 := Option.some.inj ((hkernel .off).2.symm.trans hcolumn)
  subst hc
  exact ⟨htol, hequal, hfinite, hzero, hfinite', hcall _ false rfl, hrefused⟩

/-- **Equal rows are refused by Gauss-Jordan reduction unless a remainder is accepted**: the
reduction has an answer only if what the rounding has left of one of the equal rows reaches the
tolerance in some later column. When no entry overflows and, wherever a row with a twin is chosen,
its quotients multiply back, nothing is left, and every system with the matrix is refused. -/
theorem equal_rows_refused (m : SquareMatrix) (htol : Tolerance.IsUsable tolerance)
    (hequal : m.entries.HasEqualRows) :
    (m.entries.AcceptsRemainder tolerance ∨ m.RefusedByGaussJordan tolerance) ∧
    (m.entries.StaysFinite Progress.clearColumn tolerance → m.entries.TwinsMultiplyBack tolerance →
      m.RefusedByGaussJordan tolerance) := by
  have hrefused (h : ¬ m.entries.AcceptsRemainder tolerance) : m.RefusedByGaussJordan tolerance :=
    refusedByGaussJordan htol (hequal.gaussJordan_error h)
  refine ⟨or_iff_not_imp_left.mpr hrefused, fun hfinite hback => ?_⟩
  exact hrefused (Tableau.not_acceptsRemainder htol.2 hfinite hback)

theorem equal_rows_refused_three :
    Tolerance.IsUsable Tolerance.pivot ∧ repeatedEquation.entries.HasEqualRows ∧
      repeatedEquation.entries.StaysFinite Progress.clearColumn Tolerance.pivot ∧
      repeatedEquation.entries.TwinsMultiplyBack Tolerance.pivot ∧
      repeatedEquation.RefusedByGaussJordan Tolerance.pivot := by
  have htol : Tolerance.IsUsable Tolerance.pivot := by decide +kernel
  have hequal : repeatedEquation.entries.HasEqualRows := by decide +kernel
  have hfinite : repeatedEquation.entries.StaysFinite Progress.clearColumn Tolerance.pivot := by
    decide +kernel
  have hback : repeatedEquation.entries.TwinsMultiplyBack Tolerance.pivot := by decide +kernel
  exact ⟨htol, hequal, hfinite, hback, (equal_rows_refused _ htol hequal).2 hfinite hback⟩

/-- One equation, `4900000 x + 100000 y = 1`, given twice. -/
def doubledEquation : LinearSystem where
  matrix :=
    { order := 2
      entries := ⟨#v[#v[.ofInt 4900000, .ofInt 100000], #v[.ofInt 4900000, .ofInt 100000]]⟩
      order_pos := Nat.two_pos
      finite := by decide +kernel }
  constants := #v[.ofInt 1, .ofInt 1]
  finite := by decide +kernel

/-- **A remainder is taken for a pivot**: the quotient of `100000` by `4900000` does not multiply
back, what is left is not below the default tolerance, and the one equation for two unknowns gets an
answer. -/
theorem equal_rows_solved :
    doubledEquation.matrix.entries.HasEqualRows ∧
      (doubledEquation.matrix.entries.augment doubledEquation.constants).StaysFinite
        Progress.clearColumn Tolerance.pivot ∧
      ¬ doubledEquation.matrix.entries.TwinsMultiplyBack Tolerance.pivot ∧
      ∃ x, RowReduction.solve .hardware (.system doubledEquation) .none
          ⟨.text "gauss_jordan", .bool false, .float Tolerance.pivot⟩ = .ok x ∧
        x.unknowns.toList = [.ofRatio false 1 4900000, .zero] := by
  have hreduction : (doubledEquation.matrix.entries.gaussJordan doubledEquation.constants
      Tolerance.pivot (.start false)).toOption.map (fun r => r.solution.toList) =
        some [.ofRatio false 1 4900000, .zero] := by decide +kernel
  obtain ⟨r, hr, hsolution⟩ := eq_ok_of_toOption_map_eq_some hreduction
  have htol : Tolerance.IsUsable Tolerance.pivot := by decide +kernel
  exact ⟨by decide +kernel, by decide +kernel, by decide +kernel, _,
    (solve_eq_solve rfl htol .gaussJordan).trans (LinearSystem.solve_gaussJordan_of_ok hr),
    hsolution⟩

end SquareMatrix

end RowReduction
