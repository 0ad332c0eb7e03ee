import PhysHarness.Science.Statement
import Mathlib.Algebra.CharZero.Infinite

/-!
What a check of a polynomial identity has settled.

An expression is a function of its variables. The expansion of an expression is the same function, and so is
the term that its source text reads as.
-/
namespace PhysHarness.Certificates

open Metering Python Sparse Statement

theorem sizeOf_lookup (fields : Record) (name : String) :
    sizeOf (lookup fields name) < sizeOf (Json.obj fields) := by
  rw [lookup]
  cases found : Dict.get fields name with
  | none =>
    simp only [Option.getD_none, Json.null.sizeOf_spec, Json.obj.sizeOf_spec]
    have positive : 0 < sizeOf fields := by cases fields <;> simp
    omega
  | some value =>
    have listed := List.sizeOf_lt_of_mem (Dict.mem_of_get found)
    simp only [Prod.mk.sizeOf_spec] at listed
    simp only [Option.getD_some, Json.obj.sizeOf_spec]
    omega

section

variable [DecimalDigit] (σ : String → ℚ)

/-- The number that an expression is under an assignment of numbers to the names. -/
def evaluate : Json → Option ℚ
  | .obj fields =>
    match lookup fields "op" with
    | .str op =>
      if op = "const" then coefficient (lookup fields "value")
      else if op = "var" then (asText (lookup fields "name")).map σ
      else if op = "pow" then
        (asNat (lookup fields "exponent")).bind fun exponent =>
          (evaluate (lookup fields "base")).map fun value => value ^ exponent
      else
        match _source : lookup fields "args" with
        | .arr args =>
          if op = "add" then (args.attach.mapM fun arg => evaluate arg.1).map List.sum
          else if op = "mul" then (args.attach.mapM fun arg => evaluate arg.1).map List.prod
          else none
        | _ => none
    | _ => none
  | _ => none
termination_by node => sizeOf node
decreasing_by
  · exact sizeOf_lookup fields "base"
  all_goals
    have inside := List.sizeOf_lt_of_mem arg.2
    have outside := _source ▸ sizeOf_lookup fields "args"
    rw [Json.arr.sizeOf_spec] at outside
    omega

variable {σ} {fields : Record}

theorem evaluate_const (op : lookup fields "op" = .str "const") :
    evaluate σ (.obj fields) = coefficient (lookup fields "value") := by
  rw [evaluate, op]
  rfl

theorem evaluate_var (op : lookup fields "op" = .str "var") {name : String}
    (read : lookup fields "name" = .str name) : evaluate σ (.obj fields) = some (σ name) := by
  rw [evaluate, op, read]
  rfl

theorem evaluate_pow (op : lookup fields "op" = .str "pow") {exponent : Nat}
    (read : lookup fields "exponent" = .int exponent) :
    evaluate σ (.obj fields) = (evaluate σ (lookup fields "base")).map fun value => value ^ exponent := by
  rw [evaluate, op, read]
  rfl

theorem mapM_attach (args : List Json) :
    (args.attach.mapM fun arg => evaluate σ arg.1) = args.mapM (evaluate σ) := by
  conv_rhs => rw [← List.attach_map_subtype_val args]
  rw [List.mapM_map]
  rfl

theorem evaluate_add (op : lookup fields "op" = .str "add") {args : List Json}
    (read : lookup fields "args" = .arr args) :
    evaluate σ (.obj fields) = (args.mapM (evaluate σ)).map List.sum := by
  rw [evaluate, op]
  simp only [show ("add" : String) ≠ "const" by decide, show ("add" : String) ≠ "var" by decide,
    show ("add" : String) ≠ "pow" by decide, if_false, if_true]
  split
  next others source =>
    cases source.symm.trans read
    rw [mapM_attach]
  next other => exact absurd read (other args)

theorem evaluate_mul (op : lookup fields "op" = .str "mul") {args : List Json}
    (read : lookup fields "args" = .arr args) :
    evaluate σ (.obj fields) = (args.mapM (evaluate σ)).map List.prod := by
  rw [evaluate, op]
  simp only [show ("mul" : String) ≠ "const" by decide, show ("mul" : String) ≠ "var" by decide,
    show ("mul" : String) ≠ "pow" by decide, show ("mul" : String) ≠ "add" by decide, if_false, if_true]
  split
  next others source =>
    cases source.symm.trans read
    rw [mapM_attach]
  next other => exact absurd read (other args)

end

/-! ### Expansion -/

/-- The variables of a polynomial under an assignment to the names. -/
def point (names : List String) (σ : String → ℚ) (i : Nat) : ℚ := σ (names.getD i "")

/-- What comes after a check may use that it has passed. -/
theorem raiseIf_yields {condition : Prop} [Decidable condition] {error : CertificateError} {α : Type}
    {rest : Unit → Bounded α} {post : α → Prop} (ends : ¬ condition → Yields (rest ()) post) :
    Yields (raiseIf condition error >>= rest) post := by
  rw [raiseIf]
  split
  next =>
    have never : Yields (throw error : Bounded Unit) fun _ => False := .throw
    exact never.bind fun _ impossible => impossible.elim
  next passed => exact ends passed

theorem bounded_yields (poly : Sparse.Poly ℚ) : Yields (bounded poly) fun out => out = prune poly :=
  raiseIf_yields fun _ => raiseIf_yields fun _ => .pure rfl

/-- The result is this function, has the variables and has no zero coefficients. -/
structure Computes (n : Nat) (out : Sparse.Poly ℚ) (function : (Nat → ℚ) → ℚ) : Prop where
  lawful : Lawful n out
  nonzero : ∀ term ∈ out, term.2 ≠ 0
  equal : ∀ x, eval x out = function x

theorem computes_prune {n : Nat} {poly : Sparse.Poly ℚ} {function : (Nat → ℚ) → ℚ}
    (lawful : Lawful n poly) (equal : ∀ x, eval x poly = function x) : Computes n (prune poly) function :=
  ⟨lawful.prune, fun _ => ne_zero_of_mem_prune, fun x => (eval_prune x poly).trans (equal x)⟩

theorem add_yields {n : Nat} {left right : Sparse.Poly ℚ} (first : Lawful n left)
    (second : Lawful n right) :
    Yields (add left right) fun out => Computes n out fun x => eval x left + eval x right := by
  obtain ⟨lawful, equal⟩ := merge_spec first second.lengths
  refine .after fun _ => (bounded_yields _).mono fun out same => ?_
  exact same ▸ computes_prune lawful equal

theorem multiply_yields {n : Nat} {left right : Sparse.Poly ℚ} (first : Lawful n left)
    (second : Lawful n right) :
    Yields (multiply left right) fun out => Computes n out fun x => eval x left * eval x right := by
  obtain ⟨lawful, equal⟩ := product_spec first second
  refine .after fun _ => (bounded_yields _).mono fun out same => ?_
  exact same ▸ computes_prune lawful equal

variable {names : List String}

/-- A constant term. -/
theorem eval_const (x : Nat → ℚ) (value : ℚ) : eval x [(zero names, value)] = value := by
  rw [eval_cons, eval_nil, zero, power_zero, mul_one, add_zero]

theorem lawful_const (value : ℚ) : Lawful names.length [(zero names, value)] :=
  .singleton (List.length_replicate ..) value

theorem repeated_yields {base : Sparse.Poly ℚ} (lawful : Lawful names.length base) (exponent : Nat)
    {out : Sparse.Poly ℚ} (start : Lawful names.length out) :
    Yields (repeated base exponent out) fun result =>
      Lawful names.length result ∧ ∀ x, eval x result = eval x out * eval x base ^ exponent := by
  induction exponent generalizing out with
  | zero => exact .pure ⟨start, fun x => by rw [pow_zero, mul_one]⟩
  | succ exponent ih =>
    refine (multiply_yields start lawful).bind fun out next => (ih next.lawful).mono ?_
    rintro result ⟨all, equal⟩
    exact ⟨all, fun x => by rw [equal x, next.equal x, pow_succ']; ring⟩

variable [DecimalDigit]

/-- The polynomial is the expression, and so is the term that the source reads as. -/
structure Expands (names : List String) (node : Json) (poly : Sparse.Poly ℚ)
    (source : List Char) : Prop where
  lawful : Lawful names.length poly
  means : ∀ σ, evaluate σ node = some (eval (point names σ) poly)
  reads : ∃ term, Reads source term ∧ ∀ x, term.value x = eval x poly

/-- The arguments have polynomials, which are combined, and terms that are the same functions. -/
structure Combines (names : List String) (args : List Json) (op : ℚ → ℚ → ℚ)
    (start out : Sparse.Poly ℚ) (source : List (List Char)) : Prop where
  lawful : Lawful names.length out
  each : ∃ polys : List (Sparse.Poly ℚ), ∃ terms : List Term,
    (∀ σ, args.mapM (evaluate σ) = some (polys.map (eval (point names σ)))) ∧
      List.Forall₂ Reads source terms ∧ (∀ x, terms.map (Term.value x) = polys.map (eval x)) ∧
      ∀ x, eval x out = (polys.map (eval x)).foldl op (eval x start)

theorem combine_yields {one : Json → Bounded (Sparse.Poly ℚ × List Char)}
    {merged : Sparse.Poly ℚ → Sparse.Poly ℚ → Bounded (Sparse.Poly ℚ)} {op : ℚ → ℚ → ℚ}
    (merges : ∀ {left right}, Lawful names.length left → Lawful names.length right →
      Yields (merged left right) fun out =>
        Computes names.length out fun x => op (eval x left) (eval x right))
    {args : List Json} (each : ∀ child, Yields (one child) fun result =>
      Expands names child result.1 result.2) {start : Sparse.Poly ℚ} (begins : Lawful names.length start) :
    Yields (combine one merged args start) fun result =>
      Combines names args op start result.1 result.2 := by
  induction args generalizing start with
  | nil => exact .pure ⟨begins, [], [], fun _ => rfl, .nil, fun _ => rfl, fun _ => rfl⟩
  | cons child args ih =>
    refine (each child).bind fun first expands => ?_
    refine (merges begins expands.lawful).bind fun out next => ?_
    refine (ih next.lawful).bind fun rest combines => .pure ?_
    obtain ⟨term, reads, value⟩ := expands.reads
    obtain ⟨polys, terms, means, all, values, equal⟩ := combines.each
    refine ⟨combines.lawful, first.1 :: polys, term :: terms, fun σ => ?_, .cons reads all,
      fun x => ?_, fun x => ?_⟩
    · rw [List.mapM_cons, expands.means σ, means σ]
      rfl
    · rw [List.map_cons, List.map_cons, value x, values x]
    · rw [equal x, next.equal x, List.map_cons, List.foldl_cons]

omit [DecimalDigit] in
theorem value_foldl {make : Term → Term → Term} {op : ℚ → ℚ → ℚ} {x : Nat → ℚ}
    (values : ∀ left right, (make left right).value x = op (left.value x) (right.value x))
    (terms : List Term) (first : Term) :
    (terms.foldl make first).value x = (terms.map (Term.value x)).foldl op (first.value x) := by
  induction terms generalizing first with
  | nil => rfl
  | cons term terms ih => rw [List.foldl_cons, ih, List.map_cons, List.foldl_cons, values]

/-! ### Nodes -/

theorem rational_yields (value : Json) : Yields (rational value) fun number =>
    coefficient value = some number := by
  unfold rational
  split
  next => exact raiseIf_yields fun _ => .pure rfl
  next =>
    refine raiseIf_yields fun _ => ?_
    split
    next read => exact .pure read
    next => exact .throw
  next => exact .throw

variable {fields : Record}

theorem const_yields (op : lookup fields "op" = .str "const") :
    Yields (do
      let value ← rational (lookup fields "value")
      return (← bounded [(zero names, value)], leanRat value)) fun result =>
        Expands names (.obj fields) result.1 result.2 := by
  refine (rational_yields _).bind fun value read => (bounded_yields _).bind fun out same => .pure ?_
  have equal (x : Nat → ℚ) : eval x out = value := by rw [same, eval_prune, eval_const]
  refine ⟨same ▸ (lawful_const value).prune, fun σ => ?_, _, .rat value, fun x => ?_⟩
  · rw [evaluate_const op, read, equal]
  · rw [equal]
    exact Rat.num_div_den value

theorem var_yields (op : lookup fields "op" = .str "var") {name : String}
    (read : lookup fields "name" = .str name) (known : name ∈ names) :
    Expands names (.obj fields) [(unit names (names.idxOf name), 1)]
      ('v' :: Json.digits (names.idxOf name)) := by
  have inside := List.idxOf_lt_length_of_mem known
  have equal (x : Nat → ℚ) : eval x [(unit names (names.idxOf name), 1)] = x (names.idxOf name) := by
    rw [eval_cons, eval_nil, unit, power_unit x inside, one_mul, add_zero]
  refine ⟨.singleton (by simp [unit]) 1, fun σ => ?_, _, .var _, fun x => (equal x).symm⟩
  rw [evaluate_var op read, equal, point, List.getD_eq_getElem _ _ inside, List.getElem_idxOf]

/-- The text of the arguments in parentheses reads as their combination. -/
theorem Combines.reads {args : List Json} {op : ℚ → ℚ → ℚ} {start out : Sparse.Poly ℚ}
    {source : List (List Char)} (combines : Combines names args op start out source)
    (nonempty : args ≠ []) {mark : Char} {make : Term → Term → Term}
    (known : (mark = '+' ∧ make = .add) ∨ factors mark = some make)
    (values : ∀ left right x, (make left right).value x = op (left.value x) (right.value x))
    (neutral : ∀ x value, op (eval x start) value = value) :
    ∃ term, Reads (join [' ', mark, ' '] source) term ∧ ∀ x, term.value x = eval x out := by
  obtain ⟨polys, terms, means, reads, same, equal⟩ := combines.each
  cases reads with
  | nil =>
    have none : polys = [] := List.map_eq_nil_iff.mp (same fun _ => 0).symm
    have read := means fun _ => 0
    cases args with
    | nil => exact absurd rfl nonempty
    | cons arg args => rw [none, List.mapM_cons] at read; simp [Option.bind_eq_some_iff] at read
  | @cons text term texts terms first others =>
    cases polys with
    | nil => exact absurd (same fun _ => 0) (List.cons_ne_nil _ _)
    | cons poly polys =>
      refine ⟨_, first.join known others, fun x => ?_⟩
      obtain ⟨head, rest⟩ := List.cons.inj (same x)
      rw [value_foldl fun left right => values left right x, rest, head, equal x, List.map_cons,
        List.foldl_cons, neutral]

theorem add_node_yields {one : Json → Bounded (Sparse.Poly ℚ × List Char)}
    (op : lookup fields "op" = .str "add") {args : List Json} (read : lookup fields "args" = .arr args)
    (nonempty : args ≠ []) (each : ∀ child, Yields (one child) fun result =>
      Expands names child result.1 result.2) :
    Yields (do
      let (out, source) ← combine one add args []
      return (out, join [' ', '+', ' '] source)) fun result =>
        Expands names (.obj fields) result.1 result.2 := by
  refine (combine_yields add_yields each .nil).bind fun result combines => .pure ?_
  refine ⟨combines.lawful, fun σ => ?_, combines.reads nonempty (.inl ⟨rfl, rfl⟩) (fun _ _ _ => rfl)
    fun x value => zero_add value⟩
  obtain ⟨polys, _, means, _, _, equal⟩ := combines.each
  rw [evaluate_add op read, means σ, equal, eval_nil, Option.map_some, List.sum_eq_foldl]

theorem mul_node_yields {one : Json → Bounded (Sparse.Poly ℚ × List Char)}
    (op : lookup fields "op" = .str "mul") {args : List Json} (read : lookup fields "args" = .arr args)
    (nonempty : args ≠ []) (each : ∀ child, Yields (one child) fun result =>
      Expands names child result.1 result.2) :
    Yields (do
      let (out, source) ← combine one multiply args [(zero names, 1)]
      return (out, join [' ', '*', ' '] source)) fun result =>
        Expands names (.obj fields) result.1 result.2 := by
  refine (combine_yields multiply_yields each (lawful_const 1)).bind fun result combines => .pure ?_
  refine ⟨combines.lawful, fun σ => ?_, combines.reads nonempty (.inr rfl) (fun _ _ _ => rfl)
    fun x value => by rw [eval_const, one_mul]⟩
  obtain ⟨polys, _, means, _, _, equal⟩ := combines.each
  rw [evaluate_mul op read, means σ, equal, eval_const, Option.map_some, List.prod_eq_foldl]

theorem pow_yields {one : Json → Bounded (Sparse.Poly ℚ × List Char)}
    (op : lookup fields "op" = .str "pow") {exponent : Nat} (read : lookup fields "exponent" = .int exponent)
    (each : ∀ child, Yields (one child) fun result => Expands names child result.1 result.2) :
    Yields (do
      let (base, term) ← one (lookup fields "base")
      let out ← repeated base exponent [(zero names, 1)]
      return (out, '(' :: (term ++ [' ', '^', ' '] ++ Json.digits exponent ++ [')']))) fun result =>
        Expands names (.obj fields) result.1 result.2 := by
  refine (each _).bind fun base expands => ?_
  refine (repeated_yields expands.lawful exponent (lawful_const 1)).bind fun out raised => .pure ?_
  obtain ⟨term, reads, value⟩ := expands.reads
  have equal (x : Nat → ℚ) : eval x out = eval x base.1 ^ exponent := by
    rw [raised.2 x, eval_const, one_mul]
  refine ⟨raised.1, fun σ => ?_, _, reads.pow exponent, fun x => ?_⟩
  · rw [evaluate_pow op read, expands.means σ, equal]
    rfl
  · rw [Term.value, value x, equal]

/-- **The polynomial of an expression and its source are the function that the expression is.** -/
theorem normalize_yields (levels : Nat) (node : Json) :
    Yields (normalize names levels node) fun result => Expands names node result.1 result.2 := by
  induction levels generalizing node with
  | zero => exact .throw
  | succ levels ih =>
    unfold normalize
    refine .after fun _ => .after fun budget => raiseIf_yields fun _ => ?_
    split
    next fields =>
      split
      next op tag =>
        split
        next const =>
          simp only [Bool.and_eq_true, decide_eq_true_eq] at const
          exact const_yields (const.1 ▸ tag)
        split
        next var =>
          simp only [Bool.and_eq_true, decide_eq_true_eq] at var
          split
          next name read =>
            exact raiseIf_yields fun known => .pure (var_yields (var.1 ▸ tag) read (not_not.mp known))
          next => exact .throw
        split
        next combined =>
          simp only [Bool.and_eq_true, Bool.or_eq_true, decide_eq_true_eq] at combined
          split
          next args read =>
            refine raiseIf_yields fun few => ?_
            have nonempty : args ≠ [] := by
              rintro rfl
              exact few fun some => absurd some.1 (by decide)
            split
            next sum => exact add_node_yields (sum ▸ tag) read nonempty ih
            next other =>
              exact mul_node_yields (combined.1.resolve_left other ▸ tag) read nonempty ih
          next => exact .throw
        split
        next pow =>
          simp only [Bool.and_eq_true, decide_eq_true_eq] at pow
          split
          next exponent read => exact raiseIf_yields fun _ => pow_yields (pow.1 ▸ tag) read ih
          next => exact .throw
        · exact .throw
      next => exact .throw
    next => exact .throw

/-! ### The check -/

omit [DecimalDigit] in
/-- Assignments to the names give the variables all numbers. -/
theorem exists_point (distinct : names.Nodup) (x : Nat → ℚ) :
    ∃ σ, ∀ i < names.length, point names σ i = x i := by
  refine ⟨fun name => x (names.idxOf name), fun i inside => ?_⟩
  rw [point, List.getD_eq_getElem _ _ inside, distinct.idxOf_getElem i inside]

omit [DecimalDigit] in
/-- A polynomial without zero coefficients is empty when it is zero at all assignments. -/
theorem residual_empty (distinct : names.Nodup) {residual : Sparse.Poly ℚ}
    {function : (Nat → ℚ) → ℚ} (computes : Computes names.length residual function) :
    residual = [] ↔ ∀ σ, function (point names σ) = 0 := by
  constructor
  · rintro rfl σ
    rw [← computes.equal, eval_nil]
  · intro zeros
    refine eq_nil_of_eval computes.lawful computes.nonzero fun x => ?_
    obtain ⟨σ, agrees⟩ := exists_point distinct x
    rw [← eval_congr computes.lawful.lengths agrees, computes.equal, zeros]

omit [DecimalDigit] in
theorem eval_negated (x : Nat → ℚ) (poly : Sparse.Poly ℚ) : eval x (negated poly) = -eval x poly := by
  induction poly with
  | nil => rw [negated, List.map_nil, eval_nil, neg_zero]
  | cons term poly ih =>
    rw [negated, List.map_cons, ← negated, eval_cons, eval_cons, ih]
    ring

omit [DecimalDigit] in
theorem lawful_negated {n : Nat} {poly : Sparse.Poly ℚ} (lawful : Lawful n poly) :
    Lawful n (negated poly) := by
  refine ⟨?_, fun term member => ?_⟩
  · rw [negated, List.map_map]
    exact lawful.distinct
  · obtain ⟨source, listed, rfl⟩ := List.mem_map.mp member
    exact lawful.lengths source listed

omit [DecimalDigit] in
theorem declared_spec {variableNames : Json} (known : declared variableNames = some names) :
    variableNames = .arr (names.map .str) ∧ names.Nodup := by
  cases variableNames with
  | arr items =>
    obtain ⟨texts, read, rest⟩ := Option.bind_eq_some_iff.mp known
    obtain ⟨u, checked, same⟩ := Option.bind_eq_some_iff.mp rest
    obtain rfl : texts = names := Option.some.inj same
    refine ⟨congrArg Json.arr ?_, ((Option.guard_eq_some' _).mp checked).2.2.2⟩
    clear known rest same checked
    induction items generalizing texts with
    | nil =>
      obtain rfl : [] = texts := Option.some.inj read
      rfl
    | cons item items ih =>
      rw [List.mapM_cons] at read
      obtain ⟨text, first, read⟩ := Option.bind_eq_some_iff.mp read
      obtain ⟨others, later, same⟩ := Option.bind_eq_some_iff.mp read
      obtain rfl : text :: others = texts := Option.some.inj same
      cases item with
      | str own =>
        obtain rfl : own = text := Option.some.inj first
        rw [List.map_cons, ← ih others later]
      | _ => cases first
  | _ => cases known

/-- What a check says about two functions of the named variables. -/
structure Exact (names : List String) (left right : (String → ℚ) → ℚ) (result : ComputationResult) :
    Prop where
  checked : result.status = .checkedComputation ↔ ∀ σ, left σ = right σ
  refuted : result.status = .refuted ↔ ∃ σ, left σ ≠ right σ
  residual : ∃ residual diagnostics, result.diagnostics = some diagnostics ∧
    diagnostics.residual = residualRows residual ∧ Lawful names.length residual ∧
      (∀ term ∈ residual, term.2 ≠ 0) ∧ (result.status = .refuted ↔ residual ≠ []) ∧
        ∀ σ, eval (point names σ) residual = left σ - right σ
  statement : ∃ obligation text lhs rhs, result.obligation = some obligation ∧
    obligation.variableMapping = variableMapping names ∧
      obligation.source = obligationSource text "ring".toList ((variableMapping names).map Prod.snd) ∧
        readEquation text = some (lhs, rhs) ∧
          (∀ σ, lhs.value (point names σ) = left σ ∧ rhs.value (point names σ) = right σ) ∧
            ((∀ x, lhs.value x = rhs.value x) ↔ result.status = .checkedComputation)

variable [ContentHash]

omit [DecimalDigit] in
theorem obligation_yields (statement tactic : List Char) (mapping : List (String × List Char)) :
    Yields (obligation statement tactic mapping) fun result => result.variableMapping = mapping ∧
      result.source = obligationSource statement tactic (mapping.map Prod.snd) :=
  raiseIf_yields fun _ => .pure ⟨rfl, rfl⟩

theorem checkIdentity_yields (digest : Option Digest) (variableNames left right : Json) :
    Yields (checkIdentity digest variableNames left right) fun result =>
      ∃ names l r, variableNames = .arr (names.map .str) ∧ names.Nodup ∧
        (∀ σ, evaluate σ left = some (l σ) ∧ evaluate σ right = some (r σ)) ∧
          Exact names l r result := by
  refine raiseIf_yields fun _ => ?_
  split
  next names known =>
    obtain ⟨shape, distinct⟩ := declared_spec known
    refine (normalize_yields 33 left).bind fun lhs first => ?_
    refine (normalize_yields 33 right).bind fun rhs second => ?_
    refine (add_yields first.lawful (lawful_negated second.lawful)).bind fun residual computes => ?_
    refine (obligation_yields _ _ _).bind fun proof written => .after fun budget => .pure ?_
    obtain ⟨leftTerm, readsLeft, leftValue⟩ := first.reads
    obtain ⟨rightTerm, readsRight, rightValue⟩ := second.reads
    have difference (x : Nat → ℚ) : eval x residual = eval x lhs.1 - eval x rhs.1 := by
      rw [computes.equal, eval_negated, sub_eq_add_neg]
    have empty : residual = [] ↔
        ∀ σ, eval (point names σ) lhs.1 = eval (point names σ) rhs.1 := by
      rw [residual_empty distinct computes]
      refine forall_congr' fun σ => ?_
      rw [← computes.equal, difference, sub_eq_zero]
    -- the variables of the statement take all values, not only those of an assignment
    have everywhere : residual = [] ↔ ∀ x, eval x lhs.1 = eval x rhs.1 := by
      refine ⟨fun none x => ?_, fun all => empty.mpr fun σ => all _⟩
      rw [← sub_eq_zero, ← difference, none, eval_nil]
    refine ⟨names, fun σ => eval (point names σ) lhs.1, fun σ => eval (point names σ) rhs.1, shape,
      distinct, fun σ => ⟨first.means σ, second.means σ⟩, ?_⟩
    have checked : (if residual = [] then ComputationStatus.checkedComputation else .refuted) =
        .checkedComputation ↔ residual = [] := by simp
    have refuted : (if residual = [] then ComputationStatus.checkedComputation else .refuted) =
        .refuted ↔ residual ≠ [] := by simp
    refine ⟨checked.trans empty, refuted.trans ?_, ⟨residual, _, rfl, rfl, computes.lawful,
      computes.nonzero, refuted, fun σ => difference _⟩, ⟨proof, _, leftTerm, rightTerm, rfl, written.1,
      written.2, readEquation_of_reads readsLeft readsRight,
      fun σ => ⟨leftValue _, rightValue _⟩, ?_⟩⟩
    · rw [Ne, empty, not_forall]
    · rw [checked, everywhere]
      refine forall_congr' fun x => ?_
      rw [leftValue, rightValue]
  next => exact .throw

/-- **An exact check of a polynomial identity is sound and complete.** A result that is not `blocked` compares
both expressions as functions of the declared variables, and its statement is the same comparison. -/
theorem polynomial_identity_exact (variableNames left right : Json) :
    (checkPolynomialIdentity variableNames left right).status = .blocked ∨
      ∃ names l r, variableNames = .arr (names.map .str) ∧ names.Nodup ∧
        (∀ σ, evaluate σ left = some (l σ) ∧ evaluate σ right = some (r σ)) ∧
          Exact names l r (checkPolynomialIdentity variableNames left right) := by
  unfold checkPolynomialIdentity
  dsimp only
  split
  next result budget done => exact .inr (checkIdentity_yields _ _ _ _ _ _ _ done)
  next => exact .inl rfl

end PhysHarness.Certificates
