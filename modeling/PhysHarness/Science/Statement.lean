import PhysHarness.Science.Certificates

/-!
A reading of the arithmetic part of Lean's terms.

The operators bind as in Lean: `^` before `*` and `/` before `+`, and the last three to the left. What stands
before an operator and after it is separated by spaces, and an integer may be cast to the rationals.
-/
namespace PhysHarness.Statement

inductive Term where
  | var (index : Nat)
  | number (value : Int)
  | add (left right : Term)
  | mul (left right : Term)
  | div (left right : Term)
  | pow (base : Term) (exponent : Nat)

def Term.value (x : Nat → ℚ) : Term → ℚ
  | .var index => x index
  | .number value => value
  | .add left right => left.value x + right.value x
  | .mul left right => left.value x * right.value x
  | .div left right => left.value x / right.value x
  | .pow base exponent => base.value x ^ exponent

abbrev Reader (α : Type) := List Char → Option (α × List Char)

def readNat : Reader Nat := fun text =>
  let digits := text.takeWhile Char.isDigit
  if digits = [] then none else some (Nat.ofDigitChars 10 digits 0, text.dropWhile Char.isDigit)

/-- `-1 : ℚ)`, after the parenthesis. -/
def readCast : Reader Int := fun text => do
  let (number, rest) ← readNat (JsonNumber.unsigned text)
  guard (rest.take 5 = [' ', ':', ' ', 'ℚ', ')'])
  return (if text.head? = some '-' then -(number : Int) else number, rest.drop 5)

def readPower (atom : Reader Term) : Reader Term := fun text => do
  let (base, rest) ← atom text
  match rest with
  | ' ' :: '^' :: ' ' :: rest =>
    let (exponent, rest) ← readNat rest
    return (.pow base exponent, rest)
  | rest => return (base, rest)

/-- Operators of one level, to the left. -/
def readChain (operator : Char → Option (Term → Term → Term)) (operand : Reader Term) :
    Nat → Term → Reader Term
  | 0, _, _ => none
  | fuel + 1, first, ' ' :: mark :: ' ' :: text =>
    match operator mark with
    | some make => do
      let (second, rest) ← operand text
      readChain operator operand fuel (make first second) rest
    | none => some (first, ' ' :: mark :: ' ' :: text)
  | _ + 1, first, text => some (first, text)

def factors : Char → Option (Term → Term → Term)
  | '*' => some .mul
  | '/' => some .div
  | _ => none

def summands : Char → Option (Term → Term → Term)
  | '+' => some .add
  | _ => none

def readProduct (atom : Reader Term) : Reader Term := fun text => do
  let (first, rest) ← readPower atom text
  readChain factors (readPower atom) (rest.length + 1) first rest

def readSum (atom : Reader Term) : Reader Term := fun text => do
  let (first, rest) ← readProduct atom text
  readChain summands (readProduct atom) (rest.length + 1) first rest

/-- A variable, a number, a cast or what stands in parentheses. The text's length is fuel enough. -/
def readAtom : Nat → Reader Term
  | 0, _ => none
  | _ + 1, 'v' :: text => (readNat text).map fun (index, rest) => (.var index, rest)
  | fuel + 1, '(' :: text =>
    match readCast text with
    | some (number, rest) => some (.number number, rest)
    | none =>
      match readSum (readAtom fuel) text with
      | some (term, ')' :: rest) => some (term, rest)
      | _ => none
  | _ + 1, text => (readNat text).map fun (number, rest) => (.number number, rest)

/-- Both sides of an equation. -/
def readEquation (text : List Char) : Option (Term × Term) :=
  match readSum (readAtom text.length) text with
  | some (left, ' ' :: '=' :: ' ' :: rest) =>
    match readSum (readAtom text.length) rest with
    | some (right, []) => some (left, right)
    | _ => none
  | _ => none

/-! ### Numbers -/

/-- No digit follows. -/
def Stops (text : List Char) : Prop := ∀ c ∈ text.head?, c.isDigit = false

theorem Stops.cons {c : Char} (other : c.isDigit = false) (text : List Char) : Stops (c :: text) := by
  intro first same
  obtain rfl := Option.some.inj same
  exact other

theorem readNat_digits (n : Nat) {rest : List Char} (stops : Stops rest) :
    readNat (Json.digits n ++ rest) = some (n, rest) := by
  have none : rest.takeWhile Char.isDigit = [] ∧ rest.dropWhile Char.isDigit = rest := by
    cases rest with
    | nil => simp
    | cons c rest => simp [stops c rfl]
  have taken : (Json.digits n ++ rest).takeWhile Char.isDigit = Json.digits n := by
    rw [List.takeWhile_append_of_pos Json.digits_isDigit, none.1, List.append_nil]
  have left : (Json.digits n ++ rest).dropWhile Char.isDigit = rest := by
    rw [List.dropWhile_append_of_pos Json.digits_isDigit, none.2]
  have nonempty : Json.digits n ≠ [] := Nat.toDigits_ne_nil
  rw [readNat, taken, if_neg nonempty, left, Json.digits, Nat.ofDigitChars_ten_toDigits]

theorem digits_cons (n : Nat) : ∃ c text, Json.digits n = c :: text ∧ c.isDigit = true := by
  obtain ⟨c, text, same⟩ := List.exists_cons_of_ne_nil (Nat.toDigits_ne_nil (b := 10) (n := n))
  exact ⟨c, text, same, Json.digits_isDigit c (by rw [Json.digits, same]; exact List.mem_cons_self)⟩

/-- An integer is written with its sign, and its digits follow. -/
theorem renderInt_unsigned (number : Int) (rest : List Char) :
    JsonNumber.unsigned (Json.renderInt number ++ rest) = Json.digits number.natAbs ++ rest ∧
      ((Json.renderInt number ++ rest).head? = some '-' ↔ number < 0) := by
  cases number with
  | ofNat n =>
    obtain ⟨c, text, same, digit⟩ := digits_cons n
    have plain : c ≠ '-' := by
      rintro rfl
      exact absurd digit (by decide)
    constructor
    · rw [Json.renderInt, same]
      simp [JsonNumber.unsigned, plain, same]
    · rw [Json.renderInt, same]
      simp [plain]
  | negSucc n => exact ⟨by simp [Json.renderInt, JsonNumber.unsigned], by simp [Json.renderInt]⟩

theorem readCast_int (number : Int) (rest : List Char) :
    readCast (Json.renderInt number ++ ' ' :: ':' :: ' ' :: 'ℚ' :: ')' :: rest) =
      some (number, rest) := by
  obtain ⟨digits, sign⟩ := renderInt_unsigned number (' ' :: ':' :: ' ' :: 'ℚ' :: ')' :: rest)
  have signed : (if number < 0 then -(number.natAbs : Int) else number.natAbs) = number := by
    split <;> omega
  rw [readCast, digits, readNat_digits _ (.cons rfl _)]
  simp only [Option.bind_eq_bind, Option.bind_some, List.take_succ_cons, List.take_zero, guard_true,
    Option.pure_def, List.drop_succ_cons, List.drop_zero, sign, signed]

/-! ### Operators -/

/-- No digit and none of the operators follows. -/
structure Follows (operators : List Char) (rest : List Char) : Prop where
  stops : Stops rest
  other : ∀ mark text, rest = ' ' :: mark :: ' ' :: text → mark ∉ operators

theorem Follows.mark {operators : List Char} {mark : Char} (other : mark ∉ operators) (text : List Char) :
    Follows operators (' ' :: mark :: ' ' :: text) :=
  ⟨.cons rfl _, fun _ _ same => by
    injection same with _ same
    injection same with same _
    exact same ▸ other⟩

theorem Follows.close (operators : List Char) (text : List Char) : Follows operators (')' :: text) :=
  ⟨.cons rfl _, fun _ _ same => absurd (List.cons.inj same).1 (by decide)⟩

theorem Follows.nil (operators : List Char) : Follows operators [] := ⟨nofun, nofun⟩

theorem Follows.fewer {operators fewer : List Char} {rest : List Char} (follows : Follows operators rest)
    (part : fewer ⊆ operators) : Follows fewer rest :=
  ⟨follows.stops, fun mark text same member => follows.other mark text same (part member)⟩

/-- The reader takes this text, whatever follows of this kind. -/
def Takes (reader : Reader Term) (operators : List Char) (text : List Char) (term : Term) : Prop :=
  ∀ rest, Follows operators rest → reader (text ++ rest) = some (term, rest)

theorem readPower_takes {atom : Reader Term} {text : List Char} {term : Term}
    (takes : Takes atom [] text term) : Takes (readPower atom) ['^'] text term := by
  intro rest follows
  have taken := takes rest (follows.fewer (List.nil_subset _))
  simp only [readPower, taken, Option.bind_eq_bind, Option.bind_some]
  split
  next more => exact absurd List.mem_cons_self (follows.other '^' more rfl)
  next => rfl

/-- A chain ends where no operator of its level follows. -/
theorem readChain_stop {operator : Char → Option (Term → Term → Term)} {operand : Reader Term}
    {rest : List Char} (ends : ∀ mark text, rest = ' ' :: mark :: ' ' :: text → operator mark = none)
    (fuel : Nat) (first : Term) : readChain operator operand (fuel + 1) first rest = some (first, rest) := by
  unfold readChain
  split
  next => contradiction
  next mark text same =>
    cases same
    rw [ends mark text rfl]
  next same _ => rfl

/-- The operands after the first, each after the operator. -/
def tail (mark : Char) (texts : List (List Char)) : List Char :=
  texts.flatMap fun text => ' ' :: mark :: ' ' :: text

theorem length_tail (mark : Char) (texts : List (List Char)) : texts.length ≤ (tail mark texts).length := by
  induction texts with
  | nil => exact le_rfl
  | cons text texts ih =>
    rw [tail, List.flatMap_cons, ← tail, List.length_cons, List.length_append, List.length_cons]
    omega

theorem readChain_takes {operator : Char → Option (Term → Term → Term)} {operand : Reader Term}
    {mark : Char} {make : Term → Term → Term} {operators : List Char}
    (known : operator mark = some make) (apart : mark ∉ operators) {texts : List (List Char)} {terms : List Term}
    (each : List.Forall₂ (Takes operand operators) texts terms) {rest : List Char}
    (follows : Follows operators rest)
    (ends : ∀ mark text, rest = ' ' :: mark :: ' ' :: text → operator mark = none) {fuel : Nat}
    (enough : texts.length < fuel) (first : Term) :
    readChain operator operand fuel first (tail mark texts ++ rest) =
      some (terms.foldl make first, rest) := by
  induction each generalizing fuel first with
  | nil =>
    cases fuel with
    | zero => exact absurd enough (Nat.not_lt_zero _)
    | succ fuel => exact readChain_stop ends fuel first
  | @cons text term texts terms takes _ ih =>
    cases fuel with
    | zero => exact absurd enough (Nat.not_lt_zero _)
    | succ fuel =>
      have after : Follows operators (tail mark texts ++ rest) := by
        cases texts with
        | nil => exact follows
        | cons => exact .mark apart _
      have shape : tail mark (text :: texts) ++ rest =
          ' ' :: mark :: ' ' :: (text ++ (tail mark texts ++ rest)) := by simp [tail]
      rw [shape, readChain]
      simp only [known, Option.bind_eq_bind]
      rw [takes _ after, Option.bind_some, List.foldl_cons]
      exact ih (Nat.lt_of_succ_lt_succ enough) (make first term)

theorem readProduct_takes {atom : Reader Term} {text : List Char} {term : Term}
    (takes : Takes atom [] text term) : Takes (readProduct atom) ['^', '*', '/'] text term := by
  intro rest follows
  have taken := readPower_takes takes rest (follows.fewer (by decide))
  have ends : ∀ mark text, rest = ' ' :: mark :: ' ' :: text → factors mark = none := by
    intro mark text same
    have other := follows.other mark text same
    unfold factors
    split
    next => exact absurd other (by decide)
    next => exact absurd other (by decide)
    next => rfl
  simp only [readProduct, taken, Option.bind_eq_bind, Option.bind_some]
  exact readChain_stop ends rest.length term

/-! ### Parentheses -/

variable {fuel : Nat} {first : List Char} {start : Term} {texts : List (List Char)} {terms : List Term}

/-- A text in parentheses that is no cast. -/
theorem readAtom_parens {text rest : List Char} {term : Term}
    (other : readCast text = none) (inside : readSum (readAtom fuel) text = some (term, ')' :: rest)) :
    readAtom (fuel + 1) ('(' :: text) = some (term, rest) := by
  simp only [readAtom, other, inside]

/-- `+` and `*` are not mixed without parentheses. -/
theorem readSum_sum {atom : Reader Term} (takes : Takes atom [] first start)
    (each : List.Forall₂ (Takes atom []) texts terms) (rest : List Char) :
    readSum atom (first ++ tail '+' texts ++ ')' :: rest) =
      some (terms.foldl .add start, ')' :: rest) := by
  have follows : Follows ['^', '*', '/'] (tail '+' texts ++ ')' :: rest) := by
    cases texts with
    | nil => exact .close _ rest
    | cons => exact .mark (by decide) _
  have taken := readProduct_takes takes _ follows
  have enough := length_tail '+' texts
  rw [List.append_assoc]
  simp only [readSum, taken, Option.bind_eq_bind, Option.bind_some]
  refine readChain_takes rfl (by decide) (each.imp fun _ _ one => readProduct_takes one) (.close _ rest)
    (fun mark text same => absurd (List.cons.inj same).1 (by decide)) ?_ start
  rw [List.length_append]
  omega

theorem readSum_factors {mark : Char} {make : Term → Term → Term} (known : factors mark = some make)
    {atom : Reader Term} (takes : Takes atom [] first start)
    (each : List.Forall₂ (Takes atom []) texts terms) (rest : List Char) :
    readSum atom (first ++ tail mark texts ++ ')' :: rest) =
      some (terms.foldl make start, ')' :: rest) := by
  have apart : mark ∉ ['^'] := by
    intro member
    obtain rfl := List.mem_singleton.mp member
    exact absurd known (by simp [factors])
  have follows : Follows ['^'] (tail mark texts ++ ')' :: rest) := by
    cases texts with
    | nil => exact .close _ rest
    | cons => exact .mark apart _
  have taken := readPower_takes takes _ follows
  have enough := length_tail mark texts
  have product : readProduct atom (first ++ tail mark texts ++ ')' :: rest) =
      some (terms.foldl make start, ')' :: rest) := by
    rw [List.append_assoc]
    simp only [readProduct, taken, Option.bind_eq_bind, Option.bind_some]
    refine readChain_takes known apart (each.imp fun _ _ one => readPower_takes one) (.close _ rest)
      (fun mark text same => absurd (List.cons.inj same).1 (by decide)) ?_ start
    rw [List.length_append]
    omega
  simp only [readSum, product, Option.bind_eq_bind, Option.bind_some]
  exact readChain_stop (fun mark text same => absurd (List.cons.inj same).1 (by decide)) _ _

theorem readSum_takes {atom : Reader Term} (takes : Takes atom [] first start) :
    Takes (readSum atom) ['^', '*', '/', '+'] first start := by
  intro rest follows
  have taken := readProduct_takes takes rest (follows.fewer (by decide))
  have ends : ∀ mark text, rest = ' ' :: mark :: ' ' :: text → summands mark = none := by
    intro mark text same
    have other := follows.other mark text same
    unfold summands
    split
    next => exact absurd other (by decide)
    next => rfl
  simp only [readSum, taken, Option.bind_eq_bind, Option.bind_some]
  exact readChain_stop ends rest.length start

/-- A term that stands for itself between operators, whatever they are. -/
structure Reads (text : List Char) (term : Term) : Prop where
  opens : ∃ c more, text = c :: more ∧ (c = '(' ∨ c = 'v')
  takes : ∀ fuel, text.length ≤ fuel → Takes (readAtom fuel) [] text term

/-- No cast begins with a parenthesis or a variable. -/
theorem Reads.no_cast {text : List Char} {term : Term} (reads : Reads text term) (rest : List Char) :
    readCast (text ++ rest) = none := by
  obtain ⟨c, more, rfl, rfl | rfl⟩ := reads.opens <;>
    simp [readCast, JsonNumber.unsigned, readNat]

theorem Reads.var (index : Nat) : Reads ('v' :: Json.digits index) (.var index) := by
  refine ⟨⟨_, _, rfl, .inr rfl⟩, fun fuel enough rest follows => ?_⟩
  cases fuel with
  | zero => exact absurd enough (Nat.not_succ_le_zero _)
  | succ fuel =>
    rw [List.cons_append, readAtom, readNat_digits _ follows.stops]
    rfl

theorem readAtom_digits (fuel n : Nat) : Takes (readAtom (fuel + 1)) [] (Json.digits n) (.number n) := by
  intro rest follows
  have read := readNat_digits n follows.stops
  obtain ⟨c, text, same, digit⟩ := digits_cons n
  rw [same, List.cons_append] at read ⊢
  unfold readAtom
  split
  next => contradiction
  next opens =>
    injection opens with first _
    exact absurd (first ▸ digit) (by decide)
  next opens =>
    injection opens with first _
    exact absurd (first ▸ digit) (by decide)
  next => rw [read]; rfl

theorem readAtom_cast (fuel : Nat) (number : Int) : Takes (readAtom (fuel + 1)) []
    ('(' :: (Json.renderInt number ++ [' ', ':', ' ', 'ℚ', ')'])) (.number number) := by
  intro rest _
  have cast := readCast_int number rest
  have shape : '(' :: (Json.renderInt number ++ [' ', ':', ' ', 'ℚ', ')']) ++ rest =
      '(' :: (Json.renderInt number ++ ' ' :: ':' :: ' ' :: 'ℚ' :: ')' :: rest) := by simp
  rw [shape, readAtom, cast]

theorem Reads.rat (value : ℚ) :
    Reads (Certificates.leanRat value) (.div (.number value.num) (.number value.den)) := by
  refine ⟨⟨_, _, rfl, .inl rfl⟩, fun fuel enough rest _ => ?_⟩
  cases fuel with
  | zero => exact absurd enough (Nat.not_succ_le_zero _)
  | succ fuel =>
    cases fuel with
    | zero => simp [Certificates.leanRat] at enough
    | succ fuel =>
      have inside := readSum_factors (rfl : factors '/' = some .div) (readAtom_cast fuel value.num)
        (.cons (readAtom_digits fuel value.den) .nil) rest
      refine readAtom_parens ?_ ?_
      · simp [readCast, JsonNumber.unsigned, readNat]
      · simpa [tail] using inside

theorem intercalate_tail (mark : Char) (first : List Char) (texts : List (List Char)) :
    [' ', mark, ' '].intercalate (first :: texts) = first ++ tail mark texts := by
  induction texts generalizing first with
  | nil => simp [List.intercalate, tail]
  | cons text texts ih =>
    rw [List.intercalate_cons_cons, ih]
    simp [tail]

/-- The arguments of a sum or a product stand for themselves, so the whole does. -/
theorem Reads.join {mark : Char} {make : Term → Term → Term}
    (known : (mark = '+' ∧ make = .add) ∨ factors mark = some make) (reads : Reads first start)
    (each : List.Forall₂ Reads texts terms) :
    Reads (Certificates.join [' ', mark, ' '] (first :: texts)) (terms.foldl make start) := by
  refine ⟨⟨_, _, rfl, .inl rfl⟩, fun fuel enough rest _ => ?_⟩
  cases fuel with
  | zero => exact absurd enough (Nat.not_succ_le_zero _)
  | succ fuel =>
    have shape : Certificates.join [' ', mark, ' '] (first :: texts) ++ rest =
        '(' :: (first ++ tail mark texts ++ ')' :: rest) := by
      simp [Certificates.join, intercalate_tail]
    have room : first.length + (tail mark texts).length ≤ fuel := by
      simp only [Certificates.join, intercalate_tail, List.length_cons, List.length_append] at enough
      omega
    have takes := reads.takes fuel (by omega)
    have others : List.Forall₂ (Takes (readAtom fuel) []) texts terms := by
      have small : ∀ text ∈ texts, text.length ≤ fuel := by
        intro text member
        have part : text.length ≤ (tail mark texts).length := by
          rw [tail, List.length_flatMap]
          refine le_trans ?_ (List.single_le_sum (fun _ _ => Nat.zero_le _) _
            (List.mem_map_of_mem member))
          simp
          omega
        omega
      exact (List.forall₂_and_left _ _ |>.mpr ⟨small, each⟩).imp
        fun _ _ both => both.2.takes fuel both.1
    rw [shape]
    refine readAtom_parens ?_ ?_
    · rw [List.append_assoc]
      exact reads.no_cast _
    · rcases known with ⟨rfl, rfl⟩ | factor
      · exact readSum_sum takes others rest
      · exact readSum_factors factor takes others rest

theorem Reads.pow {text : List Char} {term : Term} (reads : Reads text term) (n : Nat) :
    Reads ('(' :: (text ++ [' ', '^', ' '] ++ Json.digits n ++ [')'])) (.pow term n) := by
  refine ⟨⟨_, _, rfl, .inl rfl⟩, fun fuel enough rest _ => ?_⟩
  cases fuel with
  | zero => exact absurd enough (Nat.not_succ_le_zero _)
  | succ fuel =>
    have room : text.length ≤ fuel := by
      simp only [List.length_cons, List.length_append] at enough
      omega
    have shape : '(' :: (text ++ [' ', '^', ' '] ++ Json.digits n ++ [')']) ++ rest =
        '(' :: (text ++ ' ' :: '^' :: ' ' :: (Json.digits n ++ ')' :: rest)) := by simp
    have taken := reads.takes fuel room (' ' :: '^' :: ' ' :: (Json.digits n ++ ')' :: rest))
      (.mark List.not_mem_nil _)
    have exponent := readNat_digits n (.cons rfl rest : Stops (')' :: rest))
    have closed (mark : Char) (more : List Char) (same : ')' :: rest = ' ' :: mark :: ' ' :: more)
        (operator : Char → Option (Term → Term → Term)) : operator mark = none :=
      absurd (List.cons.inj same).1 (by decide)
    rw [shape]
    refine readAtom_parens (reads.no_cast _) ?_
    simp only [readSum, readProduct, readPower, taken, exponent, Option.bind_eq_bind, Option.bind_some,
      Option.pure_def]
    rw [readChain_stop fun mark more same => closed mark more same factors, Option.bind_some,
      readChain_stop fun mark more same => closed mark more same summands]

theorem readEquation_of_reads {left right : List Char} {lhs rhs : Term} (first : Reads left lhs)
    (second : Reads right rhs) :
    readEquation (left ++ [' ', '=', ' '] ++ right) = some (lhs, rhs) := by
  have long : left.length ≤ (left ++ [' ', '=', ' '] ++ right).length ∧
      right.length ≤ (left ++ [' ', '=', ' '] ++ right).length := by
    simp only [List.length_append]
    omega
  have one := readSum_takes (first.takes _ long.1) (' ' :: '=' :: ' ' :: right) (.mark (by decide) right)
  have two := readSum_takes (second.takes _ long.2) [] (.nil _)
  have shape : left ++ [' ', '=', ' '] ++ right = left ++ ' ' :: '=' :: ' ' :: right := by simp
  rw [List.append_nil] at two
  rw [shape] at one two ⊢
  simp only [readEquation, one, two]

end PhysHarness.Statement
