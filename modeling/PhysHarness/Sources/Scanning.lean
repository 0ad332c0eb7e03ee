import PhysHarness.Sources.Scan
import Mathlib.Data.Bool.AllAny
import Mathlib.Data.List.Find

/-!
# What the scanner reads of a part

The scanner looks back over the last three characters and ahead over a few more. So a piece that ends
is read the same with more text behind it, when that begins with a blank; and text behind a place that
no identifier reaches is read as a text of its own.
-/
namespace PhysHarness

namespace Sources

open Lexing

/-! ### Contexts -/

section

variable [Alphanumerics]

/-- The same characters down to a place that no identifier reaches. -/
def SameContext (first second : List Char) : Prop :=
  ∃ shared rest other, first = shared ++ rest ∧ second = shared ++ other ∧
    identBefore rest = false ∧ identBefore other = false

theorem isAlnum_latin {c : Char} (small : c.toNat ≤ 0xff) :
    Alphanumerics.isAlnum c = isAlnumLatin c :=
  Alphanumerics.latin c small

theorem SameContext.cons {first second : List Char} (c : Char) (same : SameContext first second) :
    SameContext (c :: first) (c :: second) := by
  obtain ⟨shared, rest, other, rfl, rfl, one, two⟩ := same
  exact ⟨c :: shared, rest, other, rfl, rfl, one, two⟩

theorem SameContext.append {first second : List Char} (text : List Char)
    (same : SameContext first second) : SameContext (text ++ first) (text ++ second) := by
  induction text with
  | nil => exact same
  | cons c text ih => exact ih.cons c

theorem identBefore_same {first second : List Char} (same : SameContext first second) :
    identBefore first = identBefore second := by
  obtain ⟨shared, rest, other, rfl, rfl, one, two⟩ := same
  cases shared with
  | nil => exact one.trans two.symm
  | cons c shared => rfl

/-- A letter of an interpolation prefix, or its exclamation mark, is part of an identifier. -/
theorem interpolationPrefix_clear {shared rest : List Char} (clear : identBefore rest = false) :
    interpolationPrefix (shared ++ rest) = interpolationPrefix shared := by
  have letters : ∀ letter ∈ ['f', 'm', 's'], Alphanumerics.isAlnum letter = true := by
    have small : ∀ letter ∈ ['f', 'm', 's'], letter.toNat ≤ 0xff := by simp
    have latin : ∀ letter ∈ ['f', 'm', 's'], isAlnumLatin letter = true :=
      List.all_iff_forall_prop.mp (by decide)
    intro letter member
    rw [isAlnum_latin (small letter member), latin letter member]
  have head : ∀ c tail, rest = c :: tail →
      Alphanumerics.isAlnum c = false ∧ c ∉ ['_', '\'', '!', '?', '.'] := by
    rintro c tail rfl
    simpa [identBefore] using clear
  match shared with
  | [] =>
    cases rest with
    | nil => rfl
    | cons c tail =>
      have other : c ≠ '!' := by
        rintro rfl
        exact (head _ _ rfl).2 (by decide)
      simp [interpolationPrefix, other]
  | [c] =>
    cases rest with
    | nil => rfl
    | cons d tail =>
      by_cases mark : c = '!'
      · have other : d ∉ ['f', 'm', 's'] := fun member => by
          simpa [letters d member] using (head _ _ rfl).1
        simp [interpolationPrefix, mark, other]
      · simp [interpolationPrefix, mark]
  | [c, d] =>
    have start : identBefore [] = false := rfl
    by_cases mark : c = '!'
    · simp [interpolationPrefix, mark, clear, start]
    · simp [interpolationPrefix, mark]
  | c :: d :: e :: shared =>
    by_cases mark : c = '!'
    · simp [interpolationPrefix, mark, identBefore]
    · simp [interpolationPrefix, mark]

theorem interpolationPrefix_same {first second : List Char} (same : SameContext first second) :
    interpolationPrefix first = interpolationPrefix second := by
  obtain ⟨shared, rest, other, rfl, rfl, one, two⟩ := same
  rw [interpolationPrefix_clear one, interpolationPrefix_clear two]

/-- The nested scanner cannot tell apart contexts that are the same. -/
def ContextFree (nested : Char → List Char → List Char → Extent) : Prop :=
  ∀ close first second text, SameContext first second →
    nested close first text = nested close second text

variable {nested : Char → List Char → List Char → Extent}

theorem stringEnd_same (free : ContextFree nested) (interpolated : Bool)
    (text : List Char) :
    ∀ {first second : List Char} (skip : Nat), SameContext first second →
      stringEnd nested interpolated first skip text =
        stringEnd nested interpolated second skip text := by
  induction text with
  | nil =>
    intro first second skip same
    cases skip <;> rfl
  | cons c rest ih =>
    intro first second skip same
    cases skip with
    | succ skip => rw [stringEnd, stringEnd, ih skip (same.cons c)]
    | zero =>
      rw [stringEnd, stringEnd, free _ _ _ rest (same.cons c), ih 1 (same.cons c),
        ih 0 (same.cons c)]
      simp only [ih _ (same.cons c)]

theorem opening_same {first second : List Char} (same : SameContext first second) (c : Char)
    (rest : List Char) : opening first c rest = opening second c rest := by
  rw [opening, opening, identBefore_same same]

theorem token_same (free : ContextFree nested) {first second : List Char}
    (same : SameContext first second) (text : List Char) :
    token nested first text = token nested second text := by
  cases text with
  | nil => rfl
  | cons c rest =>
    have string := stringEnd_same free (interpolationPrefix second) rest 0 (same.cons c)
    have quotation := fun bracket =>
      free ')' _ _ (rest.drop bracket) ((same.cons c).append (rest.take bracket).reverse)
    simp only [token, opening_same same, interpolationPrefix_same same, string, quotation]

theorem scanTo_same (free : ContextFree nested) (close : Char) (text : List Char) :
    ∀ {first second : List Char} (depth skip : Nat), SameContext first second →
      scanTo nested close depth first skip text = scanTo nested close depth second skip text := by
  induction text with
  | nil =>
    intro first second depth skip same
    cases skip <;> rfl
  | cons c rest ih =>
    intro first second depth skip same
    cases skip with
    | succ skip => rw [scanTo, scanTo, ih depth skip (same.cons c)]
    | zero =>
      rw [scanTo, scanTo, token_same free same, ih (depth + 1) 0 (same.cons c),
        ih (depth - 1) 0 (same.cons c), ih depth 0 (same.cons c)]
      simp only [ih _ _ (same.cons c)]

theorem nestedScan_same (limit : Nat) : ContextFree (nestedScan limit) := by
  induction limit with
  | zero => exact fun _ _ _ _ _ => rfl
  | succ limit ih => exact fun close _ _ text same => scanTo_same ih close text 0 0 same

theorem nextPiece_same (limit : Nat) (first second text : List Char)
    (same : SameContext first second) : nextPiece limit first text = nextPiece limit second text := by
  rw [nextPiece, nextPiece, token_same (nestedScan_same limit) same]

/-- Behind a place that no identifier reaches, a text is read as one of its own. -/
theorem reads_alone {limit : Nat} {before text rest : List Char} {list : List Piece}
    (clear : identBefore before = false) :
    Reads (nextPiece limit) before text list rest ↔ Reads (nextPiece limit) [] text list rest := by
  have grows : ∀ c first second, SameContext first second → SameContext (c :: first) (c :: second) :=
    fun c _ _ same => same.cons c
  have start : SameContext before [] := ⟨[], before, [], rfl, rfl, clear, rfl⟩
  have back : SameContext [] before := ⟨[], [], before, rfl, rfl, rfl, clear⟩
  exact ⟨fun reads => reads.context grows (nextPiece_same limit) start,
    fun reads => reads.context grows (nextPiece_same limit) back⟩

end

/-! ### Ends are inside the text -/

theorem findEnd_le {closer text : List Char} {length : Nat} (found : findEnd closer text = .upTo length) :
    length ≤ text.length := by
  induction text generalizing length with
  | nil => cases found
  | cons c rest ih =>
    rw [findEnd] at found
    split at found
    next here =>
      obtain rfl := Extent.upTo.inj found
      exact (List.isPrefixOf_iff_prefix.mp here).length_le
    next =>
      obtain ⟨more, inner, rfl⟩ := Extent.shift_eq_upTo.mp found
      exact Nat.succ_le_succ (ih inner)

theorem lineEnd_le {text : List Char} {length : Nat} (found : lineEnd text = .upTo length) :
    length ≤ text.length := by
  induction text generalizing length with
  | nil => cases found
  | cons c rest ih =>
    rw [lineEnd] at found
    split at found
    · obtain rfl := Extent.upTo.inj found
      exact Nat.zero_le _
    · obtain ⟨more, inner, rfl⟩ := Extent.shift_eq_upTo.mp found
      exact Nat.succ_le_succ (ih inner)

theorem blockCommentEnd_le {depth : Nat} {text : List Char} {length : Nat}
    (found : blockCommentEnd depth text = .upTo length) : length ≤ text.length := by
  fun_induction blockCommentEnd depth text generalizing length with
  | case1 => cases found
  | case2 => cases found
  | case3 depth c d rest opens ih =>
    obtain ⟨more, inner, rfl⟩ := Extent.shift_eq_upTo.mp found
    exact Nat.add_le_add_right (ih inner) 2
  | case4 depth c d rest other closes last =>
    obtain rfl := Extent.upTo.inj found
    exact Nat.le_add_left 2 _
  | case5 depth c d rest other closes more ih =>
    obtain ⟨more, inner, rfl⟩ := Extent.shift_eq_upTo.mp found
    exact Nat.add_le_add_right (ih inner) 2
  | case6 depth c d rest other inside ih =>
    obtain ⟨more, inner, rfl⟩ := Extent.shift_eq_upTo.mp found
    exact Nat.succ_le_succ (ih inner)

theorem charEnd_le {text : List Char} {length : Nat} (found : charEnd text = some length) :
    length ≤ text.length := by
  unfold charEnd at found
  split at found
  · cases found
  next c rest =>
    split at found
    · obtain ⟨escape, first, rfl⟩ := Option.map_eq_some_iff.mp found
      have closes := List.find?_some first
      simp only [decide_eq_true_eq] at closes
      have inside := (List.getElem?_eq_some_iff.mp closes).1
      simp only [List.length_cons]
      omega
    · split at found
      · cases found
      · split at found
        next closes =>
          obtain rfl := Option.some.inj found
          cases rest with
          | nil => cases closes
          | cons => simp
        next => cases found

theorem rawHashes_lt {text : List Char} {hashes : Nat} (raw : rawHashes text = some hashes) :
    hashes < text.length := by
  simp only [rawHashes] at raw
  split at raw
  next quote =>
    obtain rfl := Option.some.inj raw
    exact (List.getElem?_eq_some_iff.mp quote).1
  next => cases raw

section

variable {nested : Char → List Char → List Char → Extent}

/-- The nested scanner finds its ends inside the text. -/
def Within (nested : Char → List Char → List Char → Extent) : Prop :=
  ∀ close before text length, nested close before text = .upTo length → length ≤ text.length

theorem stringEnd_le {interpolated : Bool} {text : List Char} :
    ∀ {before : List Char} {skip length : Nat},
      stringEnd nested interpolated before skip text = .upTo length → length ≤ text.length := by
  induction text with
  | nil =>
    intro before skip length found
    cases skip <;> cases found
  | cons c rest ih =>
    intro before skip length found
    have tail : ∀ {skip : Nat}, (stringEnd nested interpolated (c :: before) skip rest).shift 1 =
        .upTo length → length ≤ (c :: rest).length := by
      intro skip found
      obtain ⟨more, inner, rfl⟩ := Extent.shift_eq_upTo.mp found
      exact Nat.succ_le_succ (ih inner)
    cases skip with
    | succ skip => exact tail found
    | zero =>
      rw [stringEnd] at found
      split at found
      · exact tail found
      · split at found
        · obtain rfl := Extent.upTo.inj found
          exact Nat.le_add_left 1 _
        · split at found
          · split at found
            · exact tail found
            next other =>
              rw [found] at other
              exact absurd rfl (other length)
          · exact tail found

variable [Alphanumerics]

/-- What a branch takes for granted behind the first character. -/
def Opening.reach : Opening → Nat
  | .block => 1
  | .raw hashes => hashes + 1
  | .char length => length
  | .quotation bracket => bracket
  | _ => 0

theorem opening_reach (before : List Char) (c : Char) (rest : List Char) :
    (opening before c rest).reach ≤ rest.length := by
  have head : ∀ {d}, rest.head? = some d → 1 ≤ rest.length := by
    intro d found
    cases rest with
    | nil => cases found
    | cons => exact Nat.succ_le_succ (Nat.zero_le _)
  unfold opening
  split
  · exact Nat.zero_le _
  split
  next block => exact head block.2
  split
  · exact Nat.zero_le _
  split
  next hashes raw =>
    split at raw
    · exact rawHashes_lt raw
    · cases raw
  split
  next length char =>
    split at char
    · exact charEnd_le char
    · cases char
  split
  · exact Nat.zero_le _
  split
  next quotation => exact head quotation.2
  split
  next double =>
    have two := congrArg List.length double.2
    simp only [List.length_take, List.length_cons, List.length_nil] at two
    simp only [Opening.reach]
    omega
  · exact Nat.zero_le _

theorem token_le (inside : Within nested) {before text : List Char} {length : Nat}
    (found : (token nested before text).2 = .upTo length) : 0 < length ∧ length ≤ text.length := by
  cases text with
  | nil => cases found
  | cons c rest =>
    have behind : ∀ {extent : Extent} {passed : Nat}, 0 < passed →
        (∀ length, extent = .upTo length → length + passed ≤ (c :: rest).length) →
        extent.shift passed = .upTo length → 0 < length ∧ length ≤ (c :: rest).length := by
      intro extent passed positive bound found
      obtain ⟨more, inner, rfl⟩ := Extent.shift_eq_upTo.mp found
      exact ⟨Nat.add_pos_right _ positive, bound _ inner⟩
    have size : (c :: rest).length = rest.length + 1 := List.length_cons
    have there := opening_reach before c rest
    rw [token] at found
    cases here : opening before c rest with
    | line =>
      rw [here] at found
      exact behind Nat.one_pos (fun _ ends => Nat.succ_le_succ (lineEnd_le ends)) found
    | block =>
      rw [here] at found there
      refine behind (by decide) (fun length ends => ?_) found
      have tail := blockCommentEnd_le ends
      rw [List.length_tail] at tail
      simp only [Opening.reach] at there
      omega
    | string =>
      rw [here] at found
      exact behind Nat.one_pos (fun _ ends => Nat.succ_le_succ (stringEnd_le ends)) found
    | raw hashes =>
      rw [here] at found there
      refine behind (Nat.succ_pos _) (fun length ends => ?_) found
      have tail := findEnd_le ends
      rw [List.length_drop] at tail
      simp only [Opening.reach] at there
      omega
    | char body =>
      rw [here] at found there
      obtain rfl := Extent.upTo.inj found
      exact ⟨Nat.succ_pos _, Nat.succ_le_succ there⟩
    | escaped =>
      rw [here] at found
      exact behind Nat.one_pos (fun _ ends => Nat.succ_le_succ (findEnd_le ends)) found
    | quotation bracket =>
      rw [here] at found there
      refine behind (Nat.succ_pos _) (fun length ends => ?_) found
      have tail := inside _ _ _ _ ends
      rw [List.length_drop] at tail
      simp only [Opening.reach] at there
      omega
    | symbol =>
      rw [here] at found
      obtain rfl := Extent.upTo.inj found
      exact ⟨Nat.one_pos, Nat.succ_le_succ (Nat.zero_le _)⟩

theorem scanTo_le {close : Char} {text : List Char} :
    ∀ {depth skip length : Nat} {before : List Char},
      scanTo nested close depth before skip text = .upTo length → length ≤ text.length := by
  induction text with
  | nil =>
    intro depth skip length before found
    cases skip <;> cases found
  | cons c rest ih =>
    intro depth skip length before found
    have tail : ∀ {depth skip : Nat}, (scanTo nested close depth (c :: before) skip rest).shift 1 =
        .upTo length → length ≤ (c :: rest).length := by
      intro depth skip found
      obtain ⟨more, inner, rfl⟩ := Extent.shift_eq_upTo.mp found
      exact Nat.succ_le_succ (ih inner)
    cases skip with
    | succ skip => exact tail found
    | zero =>
      rw [scanTo] at found
      split at found
      · split at found
        · exact tail found
        · split at found
          · split at found
            · obtain rfl := Extent.upTo.inj found
              exact Nat.le_add_left 1 _
            · exact tail found
          · exact tail found
      · exact tail found
      next other _ => exact absurd found (other length)

theorem nestedScan_le (limit : Nat) : Within (nestedScan limit) := by
  cases limit with
  | zero => exact fun _ _ _ _ found => nomatch found
  | succ limit => exact fun _ _ _ _ found => scanTo_le found

theorem nextPiece_exact (limit : Nat) : Exact (nextPiece limit) := by
  intro before text form length filled found
  unfold nextPiece at found
  split at found
  · cases found
  · obtain ⟨-, rfl⟩ := Prod.mk.inj (Option.some.inj found)
    exact ⟨List.length_pos_of_ne_nil filled, le_rfl⟩
  next ends =>
    obtain ⟨-, rfl⟩ := Prod.mk.inj (Option.some.inj found)
    exact token_le (nestedScan_le limit) (congrArg Prod.snd ends)

theorem pieces_iff {limit : Nat} {text : List Char} {list : List Piece} :
    pieces limit text = some list ↔ Reads (nextPiece limit) [] text list [] :=
  read_iff (nextPiece_exact limit)

end

/-! ### Text behind a piece -/

/-- A blank, and no apostrophe behind it that a character literal could end at. -/
def Quiet (added : List Char) : Prop :=
  ∃ c rest, added = c :: rest ∧ (c = ' ' ∨ c = '\n') ∧ rest.head? ≠ some '\''

section

variable {added : List Char} (quiet : Quiet added)

include quiet

/-- The first of the added characters is none that the scanner looks for. -/
theorem Quiet.head {x : Char} (blank : x ≠ ' ') (line : x ≠ '\n') (text : List Char) :
    (text ++ added).head? = some x ↔ text.head? = some x := by
  obtain ⟨c, rest, rfl, first, -⟩ := quiet
  cases text with
  | nil =>
    have other : c ≠ x := by rcases first with rfl | rfl <;> [exact blank.symm; exact line.symm]
    simp [other]
  | cons => rfl

theorem Quiet.getElem {x : Char} (blank : x ≠ ' ') (line : x ≠ '\n') (text : List Char) {index : Nat}
    (inside : index ≤ text.length) : (text ++ added)[index]? = some x ↔ text[index]? = some x := by
  rcases Nat.lt_or_eq_of_le inside with less | rfl
  · rw [List.getElem?_append_left less]
  · have head := quiet.head blank line []
    obtain ⟨c, rest, rfl, -⟩ := quiet
    simpa using head

theorem Quiet.takeWhile {p : Char → Bool} (blank : p ' ' = false) (line : p '\n' = false)
    (text : List Char) : (text ++ added).takeWhile p = text.takeWhile p := by
  obtain ⟨c, rest, rfl, first, -⟩ := quiet
  have stops : p c = false := by rcases first with rfl | rfl <;> assumption
  induction text with
  | nil => simp [stops]
  | cons a text ih => simp [List.takeWhile_cons, ih]

theorem Quiet.isPrefixOf {closer : List Char} (blank : ' ' ∉ closer) (line : '\n' ∉ closer)
    (text : List Char) : closer.isPrefixOf (text ++ added) = closer.isPrefixOf text := by
  obtain ⟨c, rest, rfl, first, -⟩ := quiet
  have outside : c ∉ closer := by rcases first with rfl | rfl <;> assumption
  induction text generalizing closer with
  | nil =>
    cases closer with
    | nil => rfl
    | cons x closer =>
      have other : x ≠ c := fun same => outside (same ▸ List.mem_cons_self)
      simp [List.isPrefixOf, other]
  | cons a text ih =>
    cases closer with
    | nil => rfl
    | cons x closer =>
      simp only [List.cons_append, List.isPrefixOf,
        ih (fun member => blank (List.mem_cons_of_mem _ member))
          (fun member => line (List.mem_cons_of_mem _ member))
          (fun member => outside (List.mem_cons_of_mem _ member))]

theorem Quiet.ticks (text : List Char) :
    (text ++ added).take 2 = ['\u0060', '('] ↔ text.take 2 = ['\u0060', '('] := by
  obtain ⟨c, rest, rfl, first, -⟩ := quiet
  match text with
  | [] => rcases first with rfl | rfl <;> simp
  | [x] => rcases first with rfl | rfl <;> simp
  | x :: y :: text => rfl

theorem findEnd_append {closer : List Char} (blank : ' ' ∉ closer) (line : '\n' ∉ closer)
    {text : List Char} (ends : findEnd closer text ≠ .runsOff) :
    findEnd closer (text ++ added) = findEnd closer text := by
  induction text with
  | nil => exact absurd rfl ends
  | cons c rest ih =>
    rw [findEnd] at ends
    rw [List.cons_append, findEnd, findEnd, ← List.cons_append, quiet.isPrefixOf blank line]
    split
    · rfl
    next other =>
      rw [if_neg other, ne_eq, Extent.shift_eq_runsOff] at ends
      rw [ih ends]

omit quiet in
theorem lineEnd_append {text : List Char} (ends : lineEnd text ≠ .runsOff) :
    lineEnd (text ++ added) = lineEnd text := by
  induction text with
  | nil => exact absurd rfl ends
  | cons c rest ih =>
    rw [lineEnd] at ends
    rw [List.cons_append, lineEnd, lineEnd]
    split
    · rfl
    next other =>
      rw [if_neg other, ne_eq, Extent.shift_eq_runsOff] at ends
      rw [ih ends]

omit quiet in
theorem blockCommentEnd_append {depth : Nat} {text : List Char}
    (ends : blockCommentEnd depth text ≠ .runsOff) :
    blockCommentEnd depth (text ++ added) = blockCommentEnd depth text := by
  fun_induction blockCommentEnd depth text with
  | case1 => exact absurd rfl ends
  | case2 => exact absurd rfl ends
  | case3 depth c d rest opens ih =>
    rw [ne_eq, Extent.shift_eq_runsOff] at ends
    rw [List.cons_append, List.cons_append, blockCommentEnd, if_pos opens, ih ends]
  | case4 depth c d rest other closes last =>
    rw [List.cons_append, List.cons_append, blockCommentEnd, if_neg other, if_pos closes, if_pos last]
  | case5 depth c d rest other closes more ih =>
    rw [ne_eq, Extent.shift_eq_runsOff] at ends
    rw [List.cons_append, List.cons_append, blockCommentEnd, if_neg other, if_pos closes, if_neg more,
      ih ends]
  | case6 depth c d rest other inside ih =>
    rw [ne_eq, Extent.shift_eq_runsOff] at ends
    rw [List.cons_append, List.cons_append, blockCommentEnd, if_neg other, if_neg inside,
      ← List.cons_append, ih ends]

theorem rawHashes_append (text : List Char) : rawHashes (text ++ added) = rawHashes text := by
  have inside : (text.takeWhile (· = '#')).length ≤ text.length :=
    (List.takeWhile_prefix _).length_le
  simp only [rawHashes, quiet.takeWhile (p := (· = '#')) (by decide) (by decide),
    quiet.getElem (x := '"') (by decide) (by decide) text inside]

theorem hexRun_append (text : List Char) : hexRun (text ++ added) = hexRun text := by
  rw [hexRun, quiet.takeWhile (by decide) (by decide), hexRun]

omit quiet in
theorem hexRun_le (text : List Char) : hexRun text ≤ text.length :=
  (List.takeWhile_prefix _).length_le

theorem escapeLengths_append {text : List Char} (filled : text ≠ []) :
    escapeLengths (text ++ added) = escapeLengths text := by
  obtain ⟨c, rest, rfl⟩ := List.exists_cons_of_ne_nil filled
  have run := hexRun_append quiet rest
  cases rest with
  | nil =>
    have brace := quiet.head (x := '\x7b') (by decide) (by decide) []
    simp only [List.nil_append, List.head?_nil, reduceCtorEq, iff_false] at brace run
    simp [escapeLengths, run, brace]
  | cons d rest =>
    have digits := quiet.getElem (x := '\x7d') (by decide) (by decide) rest (hexRun_le rest)
    simp only [List.cons_append] at run ⊢
    simp [escapeLengths, run, hexRun_append quiet rest, digits]

omit quiet in
theorem escapeLengths_le (text : List Char) : ∀ length ∈ escapeLengths text, length ≤ text.length := by
  cases text with
  | nil => simp [escapeLengths]
  | cons c rest =>
    have run := hexRun_le rest
    have inner := hexRun_le rest.tail
    intro length member
    simp only [escapeLengths, List.mem_append] at member
    rcases member with ((member | member) | member) | member <;> split at member <;>
      simp only [List.mem_singleton, List.not_mem_nil] at member
    · simp only [List.length_cons]
      omega
    · simp only [List.length_cons]
      omega
    next found =>
      have positive : hexRun rest.tail < rest.tail.length :=
        (List.getElem?_eq_some_iff.mp found.2.2.2).1
      rw [List.length_tail] at positive
      simp only [List.length_cons]
      omega
    · simp only [List.length_cons]
      omega

theorem charEnd_append (text : List Char) : charEnd (text ++ added) = charEnd text := by
  have apostrophe := quiet.getElem (x := '\'') (by decide) (by decide)
  cases text with
  | nil =>
    obtain ⟨c, rest, rfl, first, second⟩ := quiet
    rcases first with rfl | rfl <;> simp [charEnd, second]
  | cons c rest =>
    have head := quiet.head (x := '\'') (by decide) (by decide) rest
    simp only [List.cons_append, charEnd, head]
    cases rest with
    | nil =>
      obtain ⟨e, rest, rfl, first, second⟩ := quiet
      rw [List.head?_eq_getElem?] at second
      rcases first with rfl | rfl <;> simp [escapeLengths, hexRun, second]
    | cons d rest =>
      have same : (escapeLengths (d :: rest ++ added)).find?
            (fun length => (d :: rest ++ added)[length]? = some '\'') =
          (escapeLengths (d :: rest)).find? (fun length => (d :: rest)[length]? = some '\'') := by
        rw [escapeLengths_append quiet (List.cons_ne_nil d rest)]
        refine List.find?_congr fun length member => ?_
        simp only [apostrophe _ (escapeLengths_le _ length member)]
      rw [same]

omit quiet in
theorem blank_closer (hashes : Nat) {c : Char} (quote : c ≠ '"') (hash : c ≠ '#') :
    c ∉ '"' :: List.replicate hashes '#' := by
  simp [quote, hash, List.mem_replicate]

/-- An end that the nested scanner finds is not moved by more text behind it. -/
def Settles (added : List Char) (nested : Char → List Char → List Char → Extent) : Prop :=
  ∀ close before text, nested close before text ≠ .runsOff →
    nested close before (text ++ added) = nested close before text

variable {nested : Char → List Char → List Char → Extent} (settles : Settles added nested)

include settles

omit quiet in
theorem stringEnd_append (interpolated : Bool) {text : List Char} :
    ∀ {before : List Char} {skip : Nat}, stringEnd nested interpolated before skip text ≠ .runsOff →
      stringEnd nested interpolated before skip (text ++ added) =
        stringEnd nested interpolated before skip text := by
  induction text with
  | nil =>
    intro before skip ends
    cases skip <;> exact absurd rfl ends
  | cons c rest ih =>
    intro before skip ends
    cases skip with
    | succ skip =>
      rw [stringEnd, ne_eq, Extent.shift_eq_runsOff] at ends
      rw [List.cons_append, stringEnd, stringEnd, ih ends]
    | zero =>
      rw [stringEnd] at ends
      rw [List.cons_append, stringEnd, stringEnd]
      split
      next escape =>
        rw [if_pos escape, ne_eq, Extent.shift_eq_runsOff] at ends
        rw [ih ends]
      next plain =>
        rw [if_neg plain] at ends
        split
        · rfl
        next inside =>
          rw [if_neg inside] at ends
          split
          next opens =>
            rw [if_pos opens] at ends
            -- the code between the braces is scanned first
            cases found : nested '\x7d' (c :: before) rest with
            | runsOff => simp [found] at ends
            | tooDeep => simp [settles _ _ _ (by rw [found]; simp), found]
            | upTo length =>
              simp only [found, ne_eq, Extent.shift_eq_runsOff] at ends
              simp only [settles _ _ _ (show nested '\x7d' (c :: before) rest ≠ .runsOff by
                rw [found]; simp), found, ih ends]
          next other =>
            rw [if_neg other, ne_eq, Extent.shift_eq_runsOff] at ends
            rw [ih ends]

variable [Alphanumerics]

omit settles in
theorem opening_append (before : List Char) (c : Char) (rest : List Char) :
    opening before c (rest ++ added) = opening before c rest := by
  have dash := quiet.head (x := '-') (by decide) (by decide) rest
  have paren := quiet.head (x := '(') (by decide) (by decide) rest
  simp only [opening, dash, paren, quiet.ticks rest, rawHashes_append quiet, charEnd_append quiet]

theorem token_append (before : List Char) {text : List Char} (filled : text ≠ []) :
    (token nested before (text ++ added)).1 = (token nested before text).1 ∧
      ((token nested before text).2 ≠ .runsOff →
        (token nested before (text ++ added)).2 = (token nested before text).2) := by
  obtain ⟨c, rest, rfl⟩ := List.exists_cons_of_ne_nil filled
  have there := opening_reach before c rest
  rw [List.cons_append, token, token, opening_append quiet]
  cases here : opening before c rest with
  | line =>
    refine ⟨rfl, fun ends => ?_⟩
    rw [ne_eq, Extent.shift_eq_runsOff] at ends
    rw [lineEnd_append ends]
  | block =>
    rw [here] at there
    refine ⟨rfl, fun ends => ?_⟩
    rw [ne_eq, Extent.shift_eq_runsOff] at ends
    rw [List.tail_append_of_ne_nil (List.ne_nil_of_length_pos there), blockCommentEnd_append ends]
  | string =>
    refine ⟨rfl, fun ends => ?_⟩
    rw [ne_eq, Extent.shift_eq_runsOff] at ends
    rw [stringEnd_append settles _ ends]
  | raw hashes =>
    rw [here, Opening.reach] at there
    refine ⟨rfl, fun ends => ?_⟩
    rw [ne_eq, Extent.shift_eq_runsOff] at ends
    dsimp only
    rw [List.drop_append_of_le_length there, findEnd_append quiet
      (blank_closer _ (by decide) (by decide)) (blank_closer _ (by decide) (by decide)) ends]
  | char => exact ⟨rfl, fun _ => rfl⟩
  | escaped =>
    refine ⟨rfl, fun ends => ?_⟩
    rw [ne_eq, Extent.shift_eq_runsOff] at ends
    rw [findEnd_append quiet (by decide) (by decide) ends]
  | quotation bracket =>
    rw [here, Opening.reach] at there
    refine ⟨rfl, fun ends => ?_⟩
    rw [ne_eq, Extent.shift_eq_runsOff] at ends
    dsimp only
    rw [List.take_append_of_le_length there, List.drop_append_of_le_length there,
      settles _ _ _ ends]
  | symbol => exact ⟨rfl, fun _ => rfl⟩

theorem scanTo_append (close : Char) {text : List Char} :
    ∀ {depth : Nat} {before : List Char} {skip : Nat},
      scanTo nested close depth before skip text ≠ .runsOff →
        scanTo nested close depth before skip (text ++ added) =
          scanTo nested close depth before skip text := by
  induction text with
  | nil =>
    intro depth before skip ends
    cases skip <;> exact absurd rfl ends
  | cons c rest ih =>
    intro depth before skip ends
    cases skip with
    | succ skip =>
      rw [scanTo, ne_eq, Extent.shift_eq_runsOff] at ends
      rw [List.cons_append, scanTo, scanTo, ih ends]
    | zero =>
      obtain ⟨kind, extent⟩ := token_append quiet settles before (List.cons_ne_nil c rest)
      rw [scanTo] at ends
      rw [List.cons_append, scanTo, scanTo, ← List.cons_append]
      generalize token nested before (c :: rest) = first at kind extent ends ⊢
      generalize token nested before (c :: rest ++ added) = second at kind extent ⊢
      obtain ⟨form, length⟩ := first
      obtain ⟨form', length'⟩ := second
      obtain rfl : form' = form := kind
      by_cases symbol : form' = .symbol
      · subst symbol
        simp only at ends ⊢
        split
        next opens =>
          rw [if_pos opens, ne_eq, Extent.shift_eq_runsOff] at ends
          rw [ih ends]
        next other =>
          rw [if_neg other] at ends
          split
          next closes =>
            rw [if_pos closes] at ends
            split
            · rfl
            next inside =>
              rw [if_neg inside, ne_eq, Extent.shift_eq_runsOff] at ends
              rw [ih ends]
          next plain =>
            rw [if_neg plain, ne_eq, Extent.shift_eq_runsOff] at ends
            rw [ih ends]
      · have found : length ≠ .runsOff := by
          rintro rfl
          cases form' <;> simp at ends symbol
        obtain rfl := extent found
        cases length' with
        | runsOff => exact absurd rfl found
        | tooDeep => cases form' <;> simp at symbol ⊢
        | upTo length =>
          cases form' <;> simp only [reduceCtorEq, not_true_eq_false, ne_eq,
            Extent.shift_eq_runsOff] at symbol ends ⊢ <;> rw [ih ends]

omit settles in
theorem nestedScan_append (limit : Nat) : Settles added (nestedScan limit) := by
  induction limit with
  | zero => exact fun _ _ _ _ => rfl
  | succ limit ih => exact fun close _ _ ends => scanTo_append quiet ih close ends

omit settles in
/-- More text behind a piece that ends, or behind a text that is nested too deeply. -/
theorem nextPiece_append (limit : Nat) (before : List Char) {text : List Char} (filled : text ≠ []) :
    (nextPiece limit before text = none → nextPiece limit before (text ++ added) = none) ∧
    ∀ kind length, nextPiece limit before text = some (⟨kind, true⟩, length) →
      nextPiece limit before (text ++ added) = some (⟨kind, true⟩, length) := by
  obtain ⟨kind, extent⟩ :=
    token_append quiet (nestedScan_append quiet limit) before filled
  unfold nextPiece
  generalize token (nestedScan limit) before text = first at kind extent ⊢
  generalize token (nestedScan limit) before (text ++ added) = second at kind extent ⊢
  obtain ⟨form, length⟩ := first
  obtain ⟨form', length'⟩ := second
  obtain rfl : form' = form := kind
  cases length with
  | runsOff => simp
  | tooDeep =>
    obtain rfl : length' = .tooDeep := extent (by simp)
    simp
  | upTo length =>
    obtain rfl : length' = .upTo length := extent (by simp)
    simp

omit settles in
/-- Pieces that end are read the same with more text behind them. -/
theorem reads_append {limit : Nat} {before text rest : List Char} {list : List Piece}
    (reads : Reads (nextPiece limit) before text list rest) (ended : ∀ piece ∈ list, piece.1.ended = true) :
    Reads (nextPiece limit) before (text ++ added) list (rest ++ added) := by
  have same : ∀ (before piece rest : List Char) (form : Form), piece ≠ [] → form.ended = true →
      nextPiece limit before (piece ++ rest) = some (form, piece.length) →
        nextPiece limit before (piece ++ (rest ++ added)) = some (form, piece.length) := by
    rintro before piece rest ⟨kind, _⟩ filled rfl found
    rw [← List.append_assoc]
    exact (nextPiece_append quiet limit before (by simp [filled])).2 kind _ found
  exact reads.extend same ended

end

end Sources

end PhysHarness
