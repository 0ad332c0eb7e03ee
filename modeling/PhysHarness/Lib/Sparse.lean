import PhysHarness.Lib.Json
import Mathlib.Algebra.MvPolynomial.Funext
import Mathlib.Data.List.ToFinsupp
import Mathlib.Tactic.Ring

/-!
Sparse polynomials as dictionaries from exponent lists to coefficients.

The exponent lists of one dictionary have one length, which is the number of variables. A dictionary without
zero coefficients is determined by the function that it is, over every infinite domain.
-/
namespace Sparse

abbrev Poly (R : Type) := List (List Nat × R)

variable {R : Type} [CommRing R]

/-- The product of the powers of the variables. -/
def power (x : Nat → R) (powers : List Nat) : R :=
  ∏ i ∈ Finset.range powers.length, x i ^ powers.getD i 0

def eval (x : Nat → R) (poly : Poly R) : R := (poly.map fun term => term.2 * power x term.1).sum

/-- Add a term to the dictionary. -/
def accumulate (poly : Poly R) (powers : List Nat) (value : R) : Poly R :=
  Dict.set poly powers ((Dict.get poly powers).getD 0 + value)

/-- Each exponent list once, and all of one length. -/
structure Lawful (n : Nat) (poly : Poly R) : Prop where
  distinct : (poly.map Prod.fst).Nodup
  lengths : ∀ term ∈ poly, term.1.length = n

variable {n : Nat} {x : Nat → R} {poly : Poly R}

theorem eval_nil (x : Nat → R) : eval x [] = 0 := rfl

theorem eval_cons (x : Nat → R) (term : List Nat × R) (poly : Poly R) :
    eval x (term :: poly) = term.2 * power x term.1 + eval x poly := by
  rw [eval, List.map_cons, List.sum_cons, eval]

theorem eval_append (x : Nat → R) (first second : Poly R) :
    eval x (first ++ second) = eval x first + eval x second := by
  rw [eval, List.map_append, List.sum_append, eval, eval]

/-- Powers of two exponent lists multiply when the lists are added. -/
theorem power_add (x : Nat → R) {first second : List Nat} (same : first.length = second.length) :
    power x (List.zipWith (· + ·) first second) = power x first * power x second := by
  have length : (List.zipWith (· + ·) first second).length = first.length := by
    rw [List.length_zipWith, same, Nat.min_self]
  rw [power, power, power, length, ← same, ← Finset.prod_mul_distrib]
  refine Finset.prod_congr rfl fun i inside => ?_
  have bound := Finset.mem_range.mp inside
  rw [← pow_add, List.getD_eq_getElem _ _ (length ▸ bound), List.getElem_zipWith,
    List.getD_eq_getElem _ _ bound, List.getD_eq_getElem _ _ (same ▸ bound)]

theorem power_zero (x : Nat → R) (n : Nat) : power x (List.replicate n 0) = 1 := by
  refine Finset.prod_eq_one fun i inside => ?_
  rw [List.getD_eq_getElem _ _ (Finset.mem_range.mp inside), List.getElem_replicate, pow_zero]

/-- The list that is 1 at one place stands for one variable. -/
theorem power_unit (x : Nat → R) {n index : Nat} (inside : index < n) :
    power x ((List.range n).map fun i => if i = index then 1 else 0) = x index := by
  rw [power, List.length_map, List.length_range, Finset.prod_eq_single index]
  · rw [List.getD_eq_getElem _ _ (by simpa using inside)]
    simp
  · intro i bound other
    rw [List.getD_eq_getElem _ _ (by simpa using bound)]
    simp [other]
  · exact fun absent => absurd (Finset.mem_range.mpr inside) absent

/-- Only the variables that there are matter. -/
theorem eval_congr {x y : Nat → R} (lengths : ∀ term ∈ poly, term.1.length = n)
    (same : ∀ i < n, x i = y i) : eval x poly = eval y poly := by
  rw [eval, eval]
  congr 1
  refine List.map_congr_left fun term member => ?_
  congr 1
  refine Finset.prod_congr rfl fun i inside => ?_
  rw [same i (lengths term member ▸ Finset.mem_range.mp inside)]

/-! ### Terms -/

/-- What is stored under other exponents does not change. -/
theorem eval_map_ne (x : Nat → R) {powers : List Nat} (absent : powers ∉ poly.map Prod.fst) (value : R) :
    eval x (poly.map fun item => if item.1 = powers then (powers, value) else item) = eval x poly := by
  congr 1
  refine (List.map_congr_left fun item member => ?_).trans (List.map_id poly)
  exact if_neg fun same => absent (List.mem_map.mpr ⟨item, member, same⟩)

theorem eval_accumulate (distinct : (poly.map Prod.fst).Nodup) (powers : List Nat) (value : R) :
    eval x (accumulate poly powers value) = eval x poly + value * power x powers := by
  rw [accumulate, Dict.set]
  split
  next known =>
    induction poly with
    | nil => exact absurd known List.not_mem_nil
    | cons item poly ih =>
      obtain ⟨apart, distinct⟩ := List.nodup_cons.mp distinct
      by_cases here : item.1 = powers
      · rw [List.map_cons, if_pos here, eval_cons, eval_cons, eval_map_ne x (here ▸ apart)]
        have read : (Dict.get (item :: poly) powers).getD 0 = item.2 := by simp [Dict.get, here]
        rw [read, here]
        ring
      · have later : powers ∈ poly.map Prod.fst :=
          (List.mem_cons.mp known).resolve_left fun same => here same.symm
        have read : Dict.get (item :: poly) powers = Dict.get poly powers := by simp [Dict.get, here]
        rw [List.map_cons, if_neg here, eval_cons, eval_cons, read, ih distinct later, add_assoc]
  next unknown =>
    have read : Dict.get poly powers = none := by
      by_contra found
      obtain ⟨value, found⟩ := Option.ne_none_iff_exists'.mp found
      exact unknown (Dict.mem_keys_of_get found)
    rw [read, Option.getD_none, zero_add, eval_append, eval_cons, eval_nil, add_zero]

theorem Lawful.accumulate (lawful : Lawful n poly) {powers : List Nat} (length : powers.length = n)
    (value : R) : Lawful n (accumulate poly powers value) := by
  refine ⟨Dict.nodup_set lawful.distinct _ _, fun term member => ?_⟩
  rcases Dict.mem_set.mp member with rfl | ⟨old, -⟩
  · exact length
  · exact lawful.lengths term old

omit [CommRing R] in
theorem Lawful.nil : Lawful n ([] : Poly R) := ⟨List.nodup_nil, nofun⟩

omit [CommRing R] in
theorem Lawful.singleton {powers : List Nat} (length : powers.length = n) (value : R) :
    Lawful n [(powers, value)] :=
  ⟨List.nodup_singleton _, fun _ member => List.mem_singleton.mp member ▸ length⟩

/-! ### Sums and products -/

/-- `out[powers] = out.get(powers, 0) + value` for all terms. -/
def merge (left right : Poly R) : Poly R :=
  right.foldl (fun out term => accumulate out term.1 term.2) left

theorem merge_spec {left right : Poly R} (first : Lawful n left) (second : ∀ term ∈ right, term.1.length = n) :
    Lawful n (merge left right) ∧ ∀ x, eval x (merge left right) = eval x left + eval x right := by
  induction right generalizing left with
  | nil => exact ⟨first, fun x => by rw [merge, List.foldl_nil, eval_nil, add_zero]⟩
  | cons term right ih =>
    obtain ⟨length, second⟩ := List.forall_mem_cons.mp second
    obtain ⟨lawful, sum⟩ := ih (first.accumulate length term.2) second
    refine ⟨lawful, fun x => ?_⟩
    rw [merge, List.foldl_cons, ← merge, sum x, eval_accumulate first.distinct, eval_cons, add_assoc]

/-- The terms of the product of a term and a polynomial. -/
def scaled (term : List Nat × R) (right : Poly R) : Poly R :=
  right.map fun other => (List.zipWith (· + ·) term.1 other.1, term.2 * other.2)

theorem eval_scaled {term : List Nat × R} {right : Poly R}
    (lengths : ∀ other ∈ right, other.1.length = term.1.length) (x : Nat → R) :
    eval x (scaled term right) = term.2 * power x term.1 * eval x right := by
  induction right with
  | nil => rw [scaled, List.map_nil, eval_nil, mul_zero]
  | cons other right ih =>
    obtain ⟨length, lengths⟩ := List.forall_mem_cons.mp lengths
    rw [scaled, List.map_cons, ← scaled, eval_cons, eval_cons, ih lengths, power_add x length.symm]
    ring

/-- All terms of the product, merged one after another. -/
def product (left right : Poly R) : Poly R :=
  left.foldl (fun out term => merge out (scaled term right)) []

theorem product_spec {left right : Poly R} (first : Lawful n left) (second : Lawful n right) :
    Lawful n (product left right) ∧ ∀ x, eval x (product left right) = eval x left * eval x right := by
  have each : ∀ {out : Poly R} {some : Poly R}, Lawful n out → (∀ term ∈ some, term.1.length = n) →
      Lawful n (some.foldl (fun out term => merge out (scaled term right)) out) ∧
        ∀ x, eval x (some.foldl (fun out term => merge out (scaled term right)) out) =
          eval x out + eval x some * eval x right := by
    intro out some lawful lengths
    induction some generalizing out with
    | nil => exact ⟨lawful, fun x => by rw [List.foldl_nil, eval_nil, zero_mul, add_zero]⟩
    | cons term some ih =>
      obtain ⟨length, lengths⟩ := List.forall_mem_cons.mp lengths
      have same : ∀ other ∈ right, other.1.length = term.1.length :=
        fun other member => (second.lengths other member).trans length.symm
      have scaledLengths : ∀ other ∈ scaled term right, other.1.length = n := by
        intro other member
        obtain ⟨source, listed, rfl⟩ := List.mem_map.mp member
        rw [List.length_zipWith, length, second.lengths source listed, Nat.min_self]
      obtain ⟨merged, sum⟩ := merge_spec lawful scaledLengths
      obtain ⟨rest, total⟩ := ih merged lengths
      refine ⟨rest, fun x => ?_⟩
      rw [List.foldl_cons, total x, sum x, eval_scaled same, eval_cons]
      ring
  obtain ⟨lawful, total⟩ := each .nil first.lengths
  exact ⟨lawful, fun x => by rw [product, total x, eval_nil, zero_add]⟩

/-! ### Zero coefficients -/

section

variable [DecidableEq R]

def prune (poly : Poly R) : Poly R := poly.filter fun term => term.2 ≠ 0

theorem eval_prune (x : Nat → R) (poly : Poly R) : eval x (prune poly) = eval x poly := by
  induction poly with
  | nil => rfl
  | cons term poly ih =>
    rw [prune, List.filter_cons, ← prune]
    split
    next => rw [eval_cons, eval_cons, ih]
    next zero =>
      have none : term.2 = 0 := by simpa using zero
      rw [eval_cons, ih, none, zero_mul, zero_add]

theorem Lawful.prune (lawful : Lawful n poly) : Lawful n (prune poly) :=
  ⟨lawful.distinct.sublist (List.filter_sublist.map _),
    fun term member => lawful.lengths term (List.mem_of_mem_filter member)⟩

theorem ne_zero_of_mem_prune {term : List Nat × R} (member : term ∈ Sparse.prune poly) : term.2 ≠ 0 :=
  of_decide_eq_true (List.mem_filter.mp member).2

end

/-! ### Polynomials as functions -/

open MvPolynomial in
/-- The polynomial that the dictionary stands for. -/
noncomputable def toMvPolynomial (poly : Poly R) : MvPolynomial ℕ R :=
  (poly.map fun term => monomial term.1.toFinsupp term.2).sum

theorem eval_toMvPolynomial (x : Nat → R) (poly : Poly R) :
    MvPolynomial.eval x (toMvPolynomial poly) = eval x poly := by
  rw [toMvPolynomial, map_list_sum, List.map_map, eval]
  congr 1
  refine List.map_congr_left fun term _ => ?_
  rw [Function.comp_apply, MvPolynomial.eval_monomial, power,
    Finsupp.prod_of_support_subset _ (List.toFinsupp_support_subset term.1) _ fun _ _ => pow_zero _]
  rfl

/-- Lists of one length are told apart by their exponents. -/
theorem toFinsupp_inj {first second : List Nat} (length : first.length = second.length)
    (same : first.toFinsupp = second.toFinsupp) : first = second := by
  refine List.ext_getElem length fun i left right => ?_
  have equal := congrArg (fun f => f i) same
  simpa [List.toFinsupp_apply, left, right] using equal

theorem coeff_sum_eq_zero {exponents : ℕ →₀ ℕ} (absent : ∀ term ∈ poly, term.1.toFinsupp ≠ exponents) :
    MvPolynomial.coeff exponents (toMvPolynomial poly) = 0 := by
  induction poly with
  | nil => exact MvPolynomial.coeff_zero _
  | cons term poly ih =>
    obtain ⟨other, absent⟩ := List.forall_mem_cons.mp absent
    rw [toMvPolynomial, List.map_cons, List.sum_cons, ← toMvPolynomial, MvPolynomial.coeff_add,
      MvPolynomial.coeff_monomial, if_neg other, zero_add, ih absent]

/-- **A dictionary without zero coefficients is empty when it is zero everywhere.** -/
theorem eq_nil_of_eval [IsDomain R] [Infinite R] (lawful : Lawful n poly)
    (nonzero : ∀ term ∈ poly, term.2 ≠ 0) (zero : ∀ x, eval x poly = 0) : poly = [] := by
  have vanishes : toMvPolynomial poly = 0 := MvPolynomial.funext fun x => by
    rw [eval_toMvPolynomial, zero x, map_zero]
  cases poly with
  | nil => rfl
  | cons term poly =>
    -- the coefficient of the first exponents is that of the first term
    have coefficient := congrArg (MvPolynomial.coeff term.1.toFinsupp) vanishes
    rw [MvPolynomial.coeff_zero, toMvPolynomial, List.map_cons, List.sum_cons, ← toMvPolynomial,
      MvPolynomial.coeff_add, MvPolynomial.coeff_monomial, if_pos rfl] at coefficient
    have apart : ∀ other ∈ poly, other.1.toFinsupp ≠ term.1.toFinsupp := by
      intro other member same
      have lengths := (lawful.lengths other (List.mem_cons_of_mem _ member)).trans
        (lawful.lengths term List.mem_cons_self).symm
      exact (List.nodup_cons.mp lawful.distinct).1
        (toFinsupp_inj lengths same ▸ List.mem_map_of_mem member)
    rw [coeff_sum_eq_zero apart, add_zero] at coefficient
    exact absurd coefficient (nonzero term List.mem_cons_self)

end Sparse
