import PhysHarness.Sources.Scanning
import Mathlib.Data.Bool.AllAny

/-!
# Texts that end inside a comment or a literal

The end mark behind a text shows in its code exactly when no block comment, literal or quotation is
left open: a line comment ends at the newline before the mark, and nothing else ends there.
-/
namespace PhysHarness

namespace Sources

open Lexing

/-- What `_unterminated` writes behind the text. -/
def markLine : List Char := ['\n', endMark]

theorem markLine_quiet : Quiet markLine := ⟨'\n', [endMark], rfl, .inr rfl, by decide⟩

/-! ### What is left open stays open -/

theorem findEnd_mark {closer : List Char} {text : List Char} (filled : closer ≠ [])
    (blank : ' ' ∉ closer) (line : '\n' ∉ closer) (mark : endMark ∉ closer)
    (off : findEnd closer text = .runsOff) : findEnd closer (text ++ markLine) = .runsOff := by
  induction text with
  | nil =>
    obtain ⟨x, closer, rfl⟩ := List.exists_cons_of_ne_nil filled
    have first : x ≠ '\n' := fun same => line (same ▸ List.mem_cons_self)
    have second : x ≠ endMark := fun same => mark (same ▸ List.mem_cons_self)
    simp [markLine, findEnd, List.isPrefixOf, first, second, Extent.shift]
  | cons c rest ih =>
    rw [findEnd] at off
    rw [List.cons_append, findEnd, ← List.cons_append, markLine_quiet.isPrefixOf blank line]
    split at off
    · cases off
    next other =>
      rw [if_neg other]
      rw [Extent.shift_eq_runsOff] at off ⊢
      exact ih off

theorem blockCommentEnd_mark {depth : Nat} {text : List Char}
    (off : blockCommentEnd depth text = .runsOff) :
    blockCommentEnd depth (text ++ markLine) = .runsOff := by
  fun_induction blockCommentEnd depth text with
  | case1 => simp [markLine, blockCommentEnd, endMark, Extent.shift]
  | case2 depth c =>
    by_cases slash : c = '/' <;> by_cases dash : c = '-' <;>
      simp [markLine, blockCommentEnd, endMark, Extent.shift]
  | case3 depth c d rest opens ih =>
    rw [Extent.shift_eq_runsOff] at off
    rw [List.cons_append, List.cons_append, blockCommentEnd, if_pos opens, ih off]
    rfl
  | case4 => cases off
  | case5 depth c d rest other closes more ih =>
    rw [Extent.shift_eq_runsOff] at off
    rw [List.cons_append, List.cons_append, blockCommentEnd, if_neg other, if_pos closes, if_neg more,
      ih off]
    rfl
  | case6 depth c d rest other inside ih =>
    rw [Extent.shift_eq_runsOff] at off
    rw [List.cons_append, List.cons_append, blockCommentEnd, if_neg other, if_neg inside,
      ← List.cons_append, ih off]
    rfl

theorem lineEnd_eq_runsOff {text : List Char} : lineEnd text = .runsOff ↔ '\n' ∉ text := by
  induction text with
  | nil => simp [lineEnd]
  | cons c rest ih =>
    by_cases line : c = '\n'
    · simp [lineEnd, line]
    · simp [lineEnd, line, ih, Ne.symm line]

/-- A line comment that runs off the text ends at the newline. -/
theorem lineEnd_newline {text added : List Char} (off : lineEnd text = .runsOff) :
    lineEnd (text ++ '\n' :: added) = .upTo text.length := by
  induction text with
  | nil => rfl
  | cons c rest ih =>
    rw [lineEnd] at off
    rw [List.cons_append, lineEnd]
    split at off
    · cases off
    next other =>
      rw [Extent.shift_eq_runsOff] at off
      rw [if_neg other, ih off]
      rfl

section

variable {nested : Char → List Char → List Char → Extent}

/-- Code that is left open in a nested text stays open. -/
def StaysOpen (nested : Char → List Char → List Char → Extent) : Prop :=
  ∀ close ∈ [')', '\x7d'], ∀ before text, nested close before text = .runsOff →
    nested close before (text ++ markLine) = .runsOff

theorem stringEnd_mark (settles : Settles markLine nested) (opened : StaysOpen nested)
    {interpolated : Bool} {text : List Char} :
    ∀ {before : List Char} {skip : Nat}, stringEnd nested interpolated before skip text = .runsOff →
      stringEnd nested interpolated before skip (text ++ markLine) = .runsOff := by
  induction text with
  | nil =>
    intro before skip _
    match skip with
    | 0 => simp [markLine, stringEnd, endMark, Extent.shift]
    | 1 => simp [markLine, stringEnd, endMark, Extent.shift]
    | skip + 2 => simp [markLine, stringEnd, Extent.shift]
  | cons c rest ih =>
    intro before skip off
    cases skip with
    | succ skip =>
      rw [stringEnd, Extent.shift_eq_runsOff] at off
      rw [List.cons_append, stringEnd, ih off]
      rfl
    | zero =>
      rw [stringEnd] at off
      rw [List.cons_append, stringEnd]
      split
      next escape =>
        rw [if_pos escape, Extent.shift_eq_runsOff] at off
        rw [ih off]
        rfl
      next plain =>
        rw [if_neg plain] at off
        split
        next quote => simp [quote] at off
        next inside =>
          rw [if_neg inside] at off
          split
          next opens =>
            rw [if_pos opens] at off
            cases found : nested '\x7d' (c :: before) rest with
            | runsOff => rw [opened _ (by decide) _ _ found]
            | tooDeep => simp [found] at off
            | upTo length =>
              simp only [found, Extent.shift_eq_runsOff] at off
              rw [settles _ _ _ (by rw [found]; simp), found]
              simp [ih off]
          next other =>
            rw [if_neg other, Extent.shift_eq_runsOff] at off
            rw [ih off]
            rfl

variable [Alphanumerics]

/-- Everything but a line comment goes on over the mark. -/
theorem token_mark (settles : Settles markLine nested) (opened : StaysOpen nested)
    (before : List Char) {text : List Char} (filled : text ≠ [])
    (off : (token nested before text).2 = .runsOff) :
    (token nested before (text ++ markLine)).2 =
      if (token nested before text).1 = .lineComment then .upTo text.length else .runsOff := by
  obtain ⟨c, rest, rfl⟩ := List.exists_cons_of_ne_nil filled
  have there := opening_reach before c rest
  rw [token] at off ⊢
  rw [List.cons_append, token, opening_append markLine_quiet]
  cases here : opening before c rest with
  | line =>
    rw [here, Extent.shift_eq_runsOff] at off
    dsimp only
    rw [show rest ++ markLine = rest ++ '\n' :: [endMark] from rfl, lineEnd_newline off]
    rfl
  | block =>
    rw [here] at there off
    rw [Extent.shift_eq_runsOff] at off
    dsimp only
    rw [List.tail_append_of_ne_nil (List.ne_nil_of_length_pos there), blockCommentEnd_mark off]
    rfl
  | string =>
    rw [here, Extent.shift_eq_runsOff] at off
    dsimp only
    rw [stringEnd_mark settles opened off]
    rfl
  | raw hashes =>
    rw [here] at there off
    rw [Extent.shift_eq_runsOff] at off
    rw [Opening.reach] at there
    dsimp only
    rw [List.drop_append_of_le_length there, findEnd_mark (List.cons_ne_nil _ _)
      (blank_closer _ (by decide) (by decide)) (blank_closer _ (by decide) (by decide))
      (blank_closer _ (by decide) (by decide)) off]
    rfl
  | char => rw [here] at off; cases off
  | escaped =>
    rw [here, Extent.shift_eq_runsOff] at off
    dsimp only
    rw [findEnd_mark (by decide) (by decide) (by decide) (by decide) off]
    rfl
  | quotation bracket =>
    rw [here] at there off
    rw [Extent.shift_eq_runsOff] at off
    rw [Opening.reach] at there
    dsimp only
    rw [List.take_append_of_le_length there, List.drop_append_of_le_length there,
      opened _ (by decide) _ _ off]
    rfl
  | symbol => rw [here] at off; cases off

/-- The mark itself is two symbols. -/
theorem token_blank {before : List Char} {c : Char} (rest : List Char) (mark : c ∈ markLine) :
    token nested before (c :: rest) = (.symbol, .upTo 1) := by
  have here : opening before c rest = .symbol := by
    rcases List.mem_cons.mp mark with rfl | other
    · simp [opening]
    · obtain rfl := List.mem_singleton.mp other
      simp [opening, endMark]
  rw [token, here]

theorem scanTo_skipped {close : Char} {text : List Char} :
    ∀ {depth : Nat} {before : List Char},
      scanTo nested close depth before text.length text = .runsOff := by
  induction text with
  | nil => exact fun {_ _} => rfl
  | cons c rest ih =>
    intro depth before
    rw [List.length_cons, scanTo, ih]
    rfl

theorem scanTo_mark (settles : Settles markLine nested) (opened : StaysOpen nested) {close : Char}
    (closes : close ∈ [')', '\x7d']) {text : List Char} :
    ∀ {depth skip : Nat} {before : List Char},
      scanTo nested close depth before skip text = .runsOff →
        scanTo nested close depth before skip (text ++ markLine) = .runsOff := by
  have other : ∀ c ∈ markLine, c ≠ opener close ∧ c ≠ close := by
    rcases List.mem_pair.mp closes with rfl | rfl
    · exact List.all_iff_forall_prop.mp (by decide)
    · exact List.all_iff_forall_prop.mp (by decide)
  have passed : ∀ {c : Char} {rest before : List Char} {depth : Nat}, c ∈ markLine →
      scanTo nested close depth before 0 (c :: rest) =
        (scanTo nested close depth (c :: before) 0 rest).shift 1 := by
    intro c rest before depth mark
    rw [scanTo, token_blank rest mark]
    simp only [if_neg (other c mark).1, if_neg (other c mark).2]
  have ends : ∀ {depth skip : Nat} {before : List Char},
      scanTo nested close depth before skip markLine = .runsOff := by
    intro depth skip before
    rcases skip with _ | _ | skip
    · rw [markLine, passed List.mem_cons_self, passed (List.mem_cons_of_mem _ List.mem_cons_self)]
      rfl
    · rw [markLine, scanTo, passed (List.mem_cons_of_mem _ List.mem_cons_self)]
      rfl
    · simp [markLine, scanTo, Extent.shift]
  induction text with
  | nil => exact fun _ => ends
  | cons c rest ih =>
    intro depth skip before off
    cases skip with
    | succ skip =>
      rw [scanTo, Extent.shift_eq_runsOff] at off
      rw [List.cons_append, scanTo, ih off]
      rfl
    | zero =>
      have kind := (token_append markLine_quiet settles before (List.cons_ne_nil c rest)).1
      have settled :=
        (token_append markLine_quiet settles before (List.cons_ne_nil c rest)).2
      have unsettled := token_mark settles opened before (List.cons_ne_nil c rest)
      rw [scanTo] at off
      rw [List.cons_append, scanTo, ← List.cons_append]
      generalize token nested before (c :: rest) = first at kind settled unsettled off
      generalize token nested before (c :: rest ++ markLine) = second at kind settled unsettled ⊢
      obtain ⟨form, length⟩ := first
      obtain ⟨form', length'⟩ := second
      obtain rfl : form' = form := kind
      by_cases symbol : form' = .symbol
      · subst symbol
        simp only at off ⊢
        split
        next opens =>
          rw [if_pos opens, Extent.shift_eq_runsOff] at off
          rw [ih off]
          rfl
        next plain =>
          rw [if_neg plain] at off
          split
          next last =>
            rw [if_pos last] at off
            split
            next outer => simp [outer] at off
            next inner =>
              rw [if_neg inner, Extent.shift_eq_runsOff] at off
              rw [ih off]
              rfl
          next more =>
            rw [if_neg more, Extent.shift_eq_runsOff] at off
            rw [ih off]
            rfl
      · cases length with
        | tooDeep => cases form' <;> simp at symbol off
        | upTo length =>
          obtain rfl : length' = .upTo length := settled (by simp)
          cases form' <;> simp only [reduceCtorEq, not_true_eq_false,
            Extent.shift_eq_runsOff] at symbol off ⊢ <;> exact ih off
        | runsOff =>
          obtain rfl : length' = _ := unsettled rfl
          -- a line comment is skipped to its end, anything else has no end
          cases form' with
          | symbol => exact absurd rfl symbol
          | lineComment =>
            simp only [if_true, List.length_cons, Nat.add_one_sub_one, Extent.shift_eq_runsOff]
            exact ih scanTo_skipped
          | blockComment => rfl
          | literal => rfl

theorem nestedScan_mark (limit : Nat) : StaysOpen (nestedScan limit) := by
  induction limit with
  | zero => exact fun _ _ _ _ off => nomatch off
  | succ limit ih =>
    exact fun close closes _ _ off =>
      scanTo_mark (nestedScan_append markLine_quiet limit) ih closes off

theorem token_symbol (nested : Char → List Char → List Char → Extent) (before : List Char)
    {text : List Char} (filled : text ≠ [])
    (symbol : (token nested before text).1 = .symbol) :
    (token nested before text).2 = .upTo 1 := by
  obtain ⟨c, rest, rfl⟩ := List.exists_cons_of_ne_nil filled
  rw [token] at symbol ⊢
  cases here : opening before c rest <;> rw [here] at symbol <;> first | rfl | cases symbol

end

/-! ### The end mark -/

section

variable [Alphanumerics] {limit : Nat}

/-- What one turn of the loop may find. -/
theorem nextPiece_cases (limit : Nat) (before : List Char) {text : List Char} (filled : text ≠ []) :
    nextPiece limit before text = none ∨
    (∃ kind piece rest, piece ≠ [] ∧ text = piece ++ rest ∧
      nextPiece limit before text = some (⟨kind, true⟩, piece.length)) ∨
    ∃ kind, kind ≠ .symbol ∧ token (nestedScan limit) before text = (kind, .runsOff) ∧
      nextPiece limit before text = some (⟨kind, false⟩, text.length) := by
  rcases here : token (nestedScan limit) before text with ⟨kind, extent⟩
  cases extent with
  | tooDeep => exact .inl (by rw [nextPiece, here])
  | runsOff =>
    refine .inr (.inr ⟨kind, ?_, rfl, by rw [nextPiece, here]⟩)
    rintro rfl
    have one := token_symbol (nestedScan limit) before filled
      (congrArg Prod.fst here)
    rw [here] at one
    cases one
  | upTo length =>
    have found : nextPiece limit before text = some (⟨kind, true⟩, length) := by rw [nextPiece, here]
    obtain ⟨positive, inside⟩ := nextPiece_exact limit before text _ _ filled found
    have taken : (text.take length).length = length := List.length_take_of_le inside
    refine .inr (.inl ⟨kind, text.take length, text.drop length, ?_,
      (List.take_append_drop length text).symm, by rw [taken, found]⟩)
    exact List.ne_nil_of_length_pos (by omega)

/-- A piece is left open only as a line comment. -/
def Closed (list : List Piece) : Prop :=
  ∀ piece ∈ list, piece.1.ended = true ∨ piece.1.kind = .lineComment

variable [LiteralDigest]

omit [Alphanumerics] in
theorem Piece.code_ne_nil {piece : Piece} (filled : piece.2 ≠ []) : piece.code ≠ [] := by
  unfold Piece.code
  split <;> simp [opaqueToken, filled]

theorem codeOf_ne_nil {before text rest : List Char} {list : List Piece} (nonempty : list ≠ [])
    (reads : Reads (nextPiece limit) before text list rest) : codeOf list ≠ [] := by
  cases reads with
  | done => exact absurd rfl nonempty
  | step found filled _ =>
    intro empty
    exact Piece.code_ne_nil filled (List.append_eq_nil_iff.mp empty).1

/-- Only a newline and the mark show the mark behind what is left open. -/
theorem reads_of_mark {text : List Char} : ∀ {before : List Char} {marked : List Piece},
    Reads (nextPiece limit) before (text ++ markLine) marked [] →
      (codeOf marked).getLast? = some endMark →
        ∃ list, Reads (nextPiece limit) before text list [] ∧ Closed list := by
  induction size : text.length using Nat.strongRecOn generalizing text with
  | ind size ih =>
    subst size
    intro before marked reads last
    rcases Decidable.em (text = []) with rfl | filled
    · exact ⟨[], .done _ _, by simp [Closed]⟩
    obtain ⟨deep, same⟩ :=
      nextPiece_append markLine_quiet limit before filled
    rcases nextPiece_cases limit before filled with
      stuck | ⟨kind, piece, rest, nonempty, rfl, found⟩ | ⟨kind, literal, off, found⟩
    · exact absurd (deep stuck) (reads.not_stuck (by simp [filled]))
    · have behind := same _ _ found
      rw [List.append_assoc] at reads behind
      obtain ⟨more, rfl, inner⟩ := reads.head behind nonempty
      have shorter : rest.length < (piece ++ rest).length := by
        rw [List.length_append]
        exact Nat.lt_add_of_pos_left (List.length_pos_of_ne_nil nonempty)
      have filledMore : more ≠ [] := by
        rintro rfl
        have text := inner.text_eq
        simp [markLine] at text
      rw [codeOf_cons, List.getLast?_append_of_ne_nil _ (codeOf_ne_nil filledMore inner)] at last
      obtain ⟨list, alone, closed⟩ := ih _ shorter rfl inner last
      refine ⟨(⟨kind, true⟩, piece) :: list, .step found nonempty alone, ?_⟩
      intro member listed
      rcases List.mem_cons.mp listed with rfl | listed
      · exact .inl rfl
      · exact closed _ listed
    · by_cases line : kind = .lineComment
      · refine ⟨[(⟨kind, false⟩, text)], ?_, by simp [Closed, line]⟩
        have whole : Reads (nextPiece limit) before (text ++ []) [(⟨kind, false⟩, text)] [] :=
          .step (by simpa using found) filled (.done _ _)
        simpa using whole
      · -- what is left open takes the mark too, and its code does not end with it
        have behind := token_mark (nestedScan_append markLine_quiet limit) (nestedScan_mark limit)
          before filled (congrArg Prod.snd off)
        have form := (token_append markLine_quiet (nestedScan_append markLine_quiet limit)
          before filled).1
        rw [off] at behind form
        rw [if_neg line] at behind
        have whole : nextPiece limit before (text ++ markLine ++ []) =
            some (⟨kind, false⟩, (text ++ markLine).length) := by
          rw [List.append_nil, nextPiece, Prod.ext form behind]
        rw [← List.append_nil (text ++ markLine)] at reads
        obtain ⟨more, rfl, inner⟩ := reads.head whole (by simp [filled])
        obtain rfl := inner.of_nil
        cases kind with
        | symbol => exact absurd rfl literal
        | lineComment => exact absurd rfl line
        | blockComment =>
          have member := List.mem_of_getLast? last
          simp [codeOf, Piece.code, endMark] at member
        | literal =>
          have code : codeOf [((⟨.literal, false⟩ : Form), text ++ markLine)] =
              opaqueToken (text ++ markLine) := List.append_nil _
          rw [code, opaqueToken, List.getLast?_concat] at last
          exact absurd (Option.some.inj last) (by decide)

/-- A text that passes the check is read to its end, and only a line comment may be open there. -/
theorem reads_of_unterminated {text : List Char} (passes : unterminated limit text = false) :
    ∃ list, Reads (nextPiece limit) [] text list [] ∧ Closed list := by
  unfold unterminated at passes
  split at passes
  · cases passes
  next code scanned =>
    obtain ⟨marked, found, rfl⟩ := Option.map_eq_some_iff.mp scanned
    exact reads_of_mark (pieces_iff.mp found) (by simpa using passes)

end

end Sources

end PhysHarness
