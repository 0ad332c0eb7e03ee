import PhysHarness.Knowledge.Titles

/-!
Readings of a text whose boundaries can each be read joined or split, and the fragments inside its
marked text: a fragment is inside exactly when some reading has its words.
-/
namespace PhysHarness

namespace Knowledge

/-! ### Readings -/

/-- A reading of the words: each soft boundary is read joined or split, and a hard one split. -/
inductive Reading : List (List Char) → List Gap → List (List Char) → Prop
  | none : Reading [] [] []
  | last (word : List Char) : Reading [word] [] [word]
  | cut {word : List Char} {gap : Gap} {words : List (List Char)} {gaps : List Gap} {read : List (List Char)}
      (rest : Reading words gaps read) (more : words ≠ []) : Reading (word :: words) (gap :: gaps) (word :: read)
  | glue {word first : List Char} {gap : Gap} {words : List (List Char)} {gaps : List Gap}
      {read : List (List Char)} (soft : gap ≠ .hard) (rest : Reading words gaps (first :: read)) :
      Reading (word :: words) (gap :: gaps) ((word ++ first) :: read)

/-- There is one boundary less than there are words. -/
inductive Tokens : List (List Char) → List Gap → Prop
  | last (word : List Char) : Tokens [word] []
  | more {word : List Char} {gap : Gap} {words : List (List Char)} {gaps : List Gap}
      (rest : Tokens words gaps) : Tokens (word :: words) (gap :: gaps)

variable {words : List (List Char)} {gaps : List Gap} {read : List (List Char)}

theorem Tokens.ne_nil (tokens : Tokens words gaps) : words ≠ [] := by
  cases tokens <;> exact List.cons_ne_nil _ _

theorem Tokens.reading (tokens : Tokens words gaps) : Reading words gaps words := by
  induction tokens with
  | last word => exact .last word
  | more rest ih => exact .cut ih rest.ne_nil

/-- The letters of a reading are those of the text. -/
theorem Reading.flatten (reading : Reading words gaps read) : read.flatten = words.flatten := by
  induction reading with
  | none => rfl
  | last word => rfl
  | cut rest more ih => rw [List.flatten_cons, List.flatten_cons, ih]
  | glue soft rest ih =>
    rw [List.flatten_cons, List.append_assoc, ← List.flatten_cons, ih, List.flatten_cons]

/-- Some last words with the boundaries between them. -/
inductive Final : List (List Char) → List Gap → List (List Char) → List Gap → Prop
  | here (words : List (List Char)) (gaps : List Gap) : Final words gaps words gaps
  | later {word : List Char} {gap : Gap} {words words' : List (List Char)} {gaps gaps' : List Gap}
      (rest : Final words gaps words' gaps') : Final (word :: words) (gap :: gaps) words' gaps'

theorem Final.tokens {words' : List (List Char)} {gaps' : List Gap} (final : Final words gaps words' gaps')
    (tokens : Tokens words gaps) : Tokens words' gaps' := by
  induction final with
  | here words gaps => exact tokens
  | later rest ih =>
    cases tokens with
    | more tokens => exact ih tokens

theorem Final.subset {words' : List (List Char)} {gaps' : List Gap} (final : Final words gaps words' gaps') :
    words' ⊆ words := by
  induction final with
  | here words gaps => exact List.Subset.refl _
  | later rest ih => exact List.subset_cons_of_subset _ ih

/-- A reading of the last words is the end of one of all words. -/
theorem Final.reading {words' : List (List Char)} {gaps' : List Gap} (final : Final words gaps words' gaps')
    (reading : Reading words' gaps' read) (some_ : words' ≠ []) :
    ∃ front, Reading words gaps (front ++ read) := by
  induction final with
  | here words gaps => exact ⟨[], reading⟩
  | @later word gap words words' gaps gaps' rest ih =>
    obtain ⟨front, whole⟩ := ih reading some_
    have more : words ≠ [] := by
      rintro rfl
      cases rest
      exact some_ rfl
    exact ⟨word :: front, .cut whole more⟩

/-- The end of a reading begins at some word of the text. -/
theorem Reading.final {front : List (List Char)} (reading : Reading words gaps (front ++ read))
    (some_ : read ≠ []) : ∃ words' gaps', Final words gaps words' gaps' ∧ Reading words' gaps' read := by
  generalize whole : front ++ read = all at reading
  induction reading generalizing front with
  | none => exact absurd (List.append_eq_nil_iff.mp whole).2 some_
  | last word =>
    cases front with
    | nil => exact ⟨_, _, .here _ _, whole ▸ .last word⟩
    | cons first front => exact absurd (List.append_eq_nil_iff.mp (List.cons.inj whole).2).2 some_
  | @cut word gap words gaps rest' rest more ih =>
    cases front with
    | nil =>
      obtain rfl : read = word :: rest' := whole
      exact ⟨_, _, .here _ _, .cut rest more⟩
    | cons first front =>
      obtain ⟨words', gaps', final, ends⟩ := ih (List.cons.inj whole).2
      exact ⟨words', gaps', .later final, ends⟩
  | @glue word first' gap words gaps rest' soft rest ih =>
    cases front with
    | nil =>
      obtain rfl : read = (word ++ first') :: rest' := whole
      exact ⟨_, _, .here _ _, .glue soft rest⟩
    | cons first front =>
      have shorter : (first' :: front) ++ read = first' :: rest' :=
        congrArg (first' :: ·) (List.cons.inj whole).2
      obtain ⟨words', gaps', final, ends⟩ := ih shorter
      exact ⟨words', gaps', .later final, ends⟩

/-! ### Spelling -/

/-- The characters of a word, with soft boundaries between some of them. -/
inductive Spelled : List Char → List Char → Prop
  | last (c : Char) : Spelled [c] [c]
  | next {c d : Char} {word taken : List Char} (rest : Spelled (d :: word) taken) :
      Spelled (c :: d :: word) (c :: taken)
  | soft {c d : Char} {word taken : List Char} (rest : Spelled (d :: word) taken) :
      Spelled (c :: d :: word) (c :: softJoin :: taken)

theorem spelled_self {word : List Char} (some_ : word ≠ []) : Spelled word word := by
  induction word with
  | nil => exact absurd rfl some_
  | cons c word ih =>
    cases word with
    | nil => exact .last c
    | cons d word => exact .next (ih (List.cons_ne_nil _ _))

theorem Spelled.ne_nil {word taken : List Char} (spelled : Spelled word taken) : word ≠ [] := by
  cases spelled <;> exact List.cons_ne_nil _ _

/-- A soft boundary between two spelled parts. -/
theorem Spelled.glue {word first taken : List Char} (some_ : word ≠ []) (spelled : Spelled first taken) :
    Spelled (word ++ first) (word ++ softJoin :: taken) := by
  induction word with
  | nil => exact absurd rfl some_
  | cons c word ih =>
    cases word with
    | nil =>
      cases first with
      | nil => exact absurd rfl spelled.ne_nil
      | cons d first => exact .soft spelled
    | cons d word => exact .next (ih (List.cons_ne_nil _ _))

/-- Without soft boundaries the text is the word. -/
theorem Spelled.plain {word taken : List Char} (spelled : Spelled word taken) (hard : softJoin ∉ taken) :
    taken = word := by
  induction spelled with
  | last c => rfl
  | next rest ih => rw [ih fun member => hard (List.mem_cons_of_mem _ member)]
  | soft rest ih => exact absurd (List.mem_cons_of_mem _ List.mem_cons_self) hard

theorem Spelled.mem {word taken : List Char} (spelled : Spelled word taken) {c : Char} (member : c ∈ taken) :
    c = softJoin ∨ c ∈ word := by
  induction spelled with
  | last d => exact .inr member
  | next rest ih =>
    rcases List.mem_cons.mp member with rfl | later
    · exact .inr List.mem_cons_self
    · exact (ih later).imp id (List.mem_cons_of_mem _)
  | soft rest ih =>
    rcases List.mem_cons.mp member with rfl | later
    · exact .inr List.mem_cons_self
    rcases List.mem_cons.mp later with rfl | later
    · exact .inl rfl
    · exact (ih later).imp id (List.mem_cons_of_mem _)

/-- What is spelled up to the first soft boundary is the beginning of the word. -/
theorem Spelled.split {word front taken : List Char} (spelled : Spelled word (front ++ softJoin :: taken))
    (hard : softJoin ∉ front) (own : softJoin ∉ word) :
    ∃ rest, word = front ++ rest ∧ Spelled rest taken ∧ front ≠ [] := by
  generalize whole : front ++ softJoin :: taken = all at spelled
  induction spelled generalizing front with
  | last c =>
    cases front with
    | nil => exact absurd (List.mem_singleton.mpr (List.cons.inj whole).1) own
    | cons d front => exact absurd (List.cons.inj whole).2 (by simp)
  | @next c d word taken' rest ih =>
    cases front with
    | nil => exact absurd ((List.cons.inj whole).1 ▸ List.mem_cons_self) own
    | cons e front =>
      obtain ⟨rfl, tail⟩ := List.cons.inj whole
      obtain ⟨more, same, spelled, -⟩ := ih (fun member => hard (List.mem_cons_of_mem _ member))
        (fun member => own (List.mem_cons_of_mem _ member)) tail
      exact ⟨more, congrArg (e :: ·) same, spelled, List.cons_ne_nil _ _⟩
  | @soft c d word taken' rest ih =>
    cases front with
    | nil => exact absurd ((List.cons.inj whole).1 ▸ List.mem_cons_self) own
    | cons e front =>
      obtain ⟨rfl, tail⟩ := List.cons.inj whole
      cases front with
      | nil =>
        obtain rfl := (List.cons.inj tail).2
        exact ⟨d :: word, rfl, rest, List.cons_ne_nil _ _⟩
      | cons f front =>
        obtain ⟨rfl, -⟩ := List.cons.inj tail
        exact absurd (List.mem_cons_of_mem _ List.mem_cons_self) hard

/-- The words of a fragment, each spelled, with a boundary between two of them. -/
inductive Joined : List (List Char) → List Char → Prop
  | last {word taken : List Char} (spelled : Spelled word taken) : Joined [word] taken
  | next {word taken rest : List Char} {words : List (List Char)} (spelled : Spelled word taken) {boundary : Char}
      (between : isBoundary boundary = true) (joined : Joined words rest) :
      Joined (word :: words) (taken ++ boundary :: rest)

/-- A text of words: each with its boundary after it, the last one with a space. -/
def tailText : List (List Char) → List Gap → List Char
  | [], _ => []
  | [word], _ => word ++ [' ']
  | word :: words, [] => word ++ ' ' :: tailText words []
  | word :: words, gap :: gaps => word ++ (if gap = .hard then ' ' else softJoin) :: tailText words gaps

theorem tailText_cons {word : List Char} {gap : Gap} (tokens : Tokens words gaps) :
    tailText (word :: words) (gap :: gaps) =
      word ++ (if gap = .hard then ' ' else softJoin) :: tailText words gaps := by
  cases tokens <;> rfl

/-- Letters and digits, and so no boundaries. -/
def IsWord (word : List Char) : Prop := word ≠ [] ∧ ∀ c ∈ word, isBoundary c = false

theorem gap_boundary (gap : Gap) : isBoundary (if gap = .hard then ' ' else softJoin) = true := by
  split <;> rfl

theorem IsWord.soft {word : List Char} (isWord : IsWord word) : softJoin ∉ word := fun member =>
  Bool.noConfusion (isWord.2 softJoin member)

theorem IsWord.hard {word : List Char} (isWord : IsWord word) : ' ' ∉ word := fun member =>
  Bool.noConfusion (isWord.2 ' ' member)

/-- Where a spelled word ends at a boundary of the text, it is the first word of the text, or the first
word and more after a soft boundary. -/
theorem spelled_cases {word taken first tail rest : List Char} {between boundary : Char} (isWord : IsWord word)
    (isFirst : IsWord first) (between_ : isBoundary between = true) (boundary_ : isBoundary boundary = true)
    (same : first ++ between :: tail = taken ++ boundary :: rest) (spelled : Spelled word taken) :
    (word = first ∧ taken = first ∧ between = boundary ∧ tail = rest) ∨
      ∃ word' taken', word = first ++ word' ∧ taken = first ++ softJoin :: taken' ∧ between = softJoin ∧
        Spelled word' taken' ∧ tail = taken' ++ boundary :: rest := by
  rcases List.append_eq_append_iff.mp same with ⟨more, taken_, tail_⟩ | ⟨more, first_, tail_⟩
  · cases more with
    | nil =>
      obtain ⟨rfl, rfl⟩ := List.cons.inj tail_
      rw [List.append_nil] at taken_
      have plain := spelled.plain (taken_ ▸ isFirst.soft)
      exact .inl ⟨plain.symm.trans taken_, taken_, rfl, rfl⟩
    | cons c more =>
      obtain ⟨rfl, rfl⟩ := List.cons.inj tail_
      have inside : between ∈ taken := taken_ ▸ List.mem_append_right _ List.mem_cons_self
      have join : between = softJoin := (spelled.mem inside).resolve_right fun member =>
        Bool.noConfusion ((isWord.2 between member).symm.trans between_)
      subst join
      rw [taken_] at spelled
      obtain ⟨word', rfl, rest', -⟩ := spelled.split isFirst.soft isWord.soft
      exact .inr ⟨word', more, rfl, taken_, rfl, rest', rfl⟩
  · cases more with
    | nil =>
      obtain ⟨rfl, rfl⟩ := List.cons.inj tail_
      rw [List.append_nil] at first_
      have plain := spelled.plain (first_ ▸ isFirst.soft)
      exact .inl ⟨plain.symm.trans first_.symm, first_.symm, rfl, rfl⟩
    | cons c more =>
      obtain ⟨rfl, -⟩ := List.cons.inj tail_
      have inside : boundary ∈ first := first_ ▸ List.mem_append_right _ List.mem_cons_self
      exact Bool.noConfusion ((isFirst.2 boundary inside).symm.trans boundary_)

theorem Joined.ne_nil {fragment : List (List Char)} {taken : List Char} (joined : Joined fragment taken) :
    fragment ≠ [] := by
  cases joined <;> exact List.cons_ne_nil _ _

/-- A fragment that is joined at the beginning of the text begins a reading. -/
theorem Joined.reading (tokens : Tokens words gaps) (areWords : ∀ word ∈ words, IsWord word)
    {fragment : List (List Char)} (isFragment : ∀ word ∈ fragment, IsWord word) {taken rest : List Char}
    {boundary : Char} (boundary_ : isBoundary boundary = true)
    (same : tailText words gaps = taken ++ boundary :: rest) (joined : Joined fragment taken) :
    ∃ read, Reading words gaps read ∧ fragment <+: read := by
  induction tokens generalizing fragment taken with
  | last word =>
    have first := areWords word List.mem_cons_self
    have text : word ++ ' ' :: [] = taken ++ boundary :: rest := same
    cases joined with
    | @last spelledWord _ spelled =>
      have own := isFragment spelledWord List.mem_cons_self
      rcases spelled_cases own first rfl boundary_ text spelled with ⟨rfl, -⟩ | ⟨word', taken', -, -, soft, -⟩
      · exact ⟨_, .last _, List.prefix_refl _⟩
      · exact absurd soft (by decide)
    | @next spelledWord taken tail fragment spelled between between_ joined =>
      have own := isFragment spelledWord List.mem_cons_self
      rw [List.append_assoc, List.cons_append] at text
      rcases spelled_cases own first rfl between_ text spelled with ⟨-, -, -, none⟩ | ⟨-, -, -, -, soft, -⟩
      · exact absurd none.symm (by simp)
      · exact absurd soft (by decide)
  | @more word gap words gaps tokens ih =>
    have first := areWords word List.mem_cons_self
    have others : ∀ word ∈ words, IsWord word := fun other member => areWords other (List.mem_cons_of_mem _ member)
    rw [tailText_cons tokens] at same
    have soft : (if gap = .hard then ' ' else softJoin) = softJoin → gap ≠ .hard := by
      rintro same rfl
      exact absurd same (by decide)
    cases joined with
    | @last spelledWord _ spelled =>
      have own := isFragment spelledWord List.mem_cons_self
      rcases spelled_cases own first (gap_boundary gap) boundary_ same spelled with
        ⟨rfl, -⟩ | ⟨word', taken', rfl, -, join, spelled', tail⟩
      · exact ⟨_, .cut tokens.reading tokens.ne_nil, by simp⟩
      · have own' : IsWord word' := ⟨spelled'.ne_nil, fun c member => own.2 c (List.mem_append_right _ member)⟩
        obtain ⟨read, reading, begins⟩ := ih others (by simpa using own') tail (.last spelled')
        obtain ⟨more, rfl⟩ := begins
        exact ⟨_, .glue (soft join) reading, by simp⟩
    | @next spelledWord taken tail' fragment spelled between between_ joined =>
      have own := isFragment spelledWord List.mem_cons_self
      have isRest : ∀ word ∈ fragment, IsWord word := fun other member => isFragment other (List.mem_cons_of_mem _ member)
      rw [List.append_assoc, List.cons_append] at same
      rcases spelled_cases own first (gap_boundary gap) between_ same spelled with
        ⟨rfl, -, -, tail⟩ | ⟨word', taken', rfl, -, join, spelled', tail⟩
      · obtain ⟨read, reading, begins⟩ := ih others isRest tail joined
        exact ⟨_, .cut reading tokens.ne_nil, List.cons_prefix_cons.mpr ⟨rfl, begins⟩⟩
      · have own' : IsWord word' := ⟨spelled'.ne_nil, fun c member => own.2 c (List.mem_append_right _ member)⟩
        have both : ∀ word ∈ word' :: fragment, IsWord word := List.forall_mem_cons.mpr ⟨own', isRest⟩
        rw [← List.cons_append, ← List.append_assoc] at tail
        obtain ⟨read, reading, begins⟩ := ih others both tail (.next spelled' between_ joined)
        obtain ⟨more, rfl⟩ := begins
        exact ⟨_, .glue (soft join) reading, by simp⟩

/-- A fragment that begins a reading is joined at the beginning of the text. -/
theorem Reading.joined (reading : Reading words gaps read) (areWords : ∀ word ∈ words, IsWord word)
    (tokens : Tokens words gaps) {fragment : List (List Char)} (some_ : fragment ≠ [])
    (begins : fragment <+: read) : ∃ taken boundary rest, isBoundary boundary = true ∧
      tailText words gaps = taken ++ boundary :: rest ∧ Joined fragment taken := by
  induction reading generalizing fragment with
  | none => exact absurd rfl tokens.ne_nil
  | last word =>
    have own := areWords word List.mem_cons_self
    rcases List.prefix_cons_iff.mp begins with none | ⟨more, rfl, rest⟩
    · exact absurd none some_
    · obtain rfl := List.prefix_nil.mp rest
      exact ⟨word, ' ', [], rfl, rfl, .last (spelled_self own.1)⟩
  | @cut word gap words gaps read rest more ih =>
    have own := areWords word List.mem_cons_self
    have others : ∀ word ∈ words, IsWord word := fun other member => areWords other (List.mem_cons_of_mem _ member)
    cases tokens with
    | more tokens =>
      rw [tailText_cons tokens]
      rcases List.prefix_cons_iff.mp begins with none | ⟨fragment, rfl, later⟩
      · exact absurd none some_
      · by_cases only : fragment = []
        · subst only
          exact ⟨word, _, _, gap_boundary gap, rfl, .last (spelled_self own.1)⟩
        · obtain ⟨taken, boundary, tail, boundary_, same, joined⟩ := ih others tokens only later
          refine ⟨word ++ (if gap = .hard then ' ' else softJoin) :: taken, boundary, tail, boundary_, ?_, ?_⟩
          · rw [same, List.append_assoc, List.cons_append]
          · exact .next (spelled_self own.1) (gap_boundary gap) joined
  | @glue word first gap words gaps read soft rest ih =>
    have own := areWords word List.mem_cons_self
    have others : ∀ word ∈ words, IsWord word := fun other member => areWords other (List.mem_cons_of_mem _ member)
    cases tokens with
    | more tokens =>
      rw [tailText_cons tokens, if_neg soft]
      rcases List.prefix_cons_iff.mp begins with none | ⟨fragment, rfl, later⟩
      · exact absurd none some_
      · obtain ⟨taken, boundary, tail, boundary_, same, joined⟩ := ih others tokens (List.cons_ne_nil _ _)
          (List.cons_prefix_cons.mpr ⟨rfl, later⟩)
        refine ⟨word ++ softJoin :: taken, boundary, tail, boundary_, ?_, ?_⟩
        · rw [same, List.append_assoc, List.cons_append]
        · cases joined with
          | last spelled => exact .last (spelled.glue own.1)
          | @next _ taken tail _ spelled between between_ joined =>
            rw [← List.cons_append, ← List.append_assoc]
            exact .next (spelled.glue own.1) between_ joined

/-! ### Places -/

/-- A place of the text after a boundary is the beginning of its last words. -/
theorem place_final (tokens : Tokens words gaps) (areWords : ∀ word ∈ words, IsWord word) {start boundary : Char}
    (boundary_ : isBoundary boundary = true) {before rest : List Char} (some_ : rest ≠ [])
    (same : start :: tailText words gaps = before ++ boundary :: rest) :
    ∃ words' gaps', Final words gaps words' gaps' ∧ rest = tailText words' gaps' := by
  have outside : ∀ word ∈ words, ∀ front back, word ≠ front ++ boundary :: back := by
    rintro _ member front back rfl
    have inside : boundary ∈ front ++ boundary :: back := List.mem_append_right _ List.mem_cons_self
    exact Bool.noConfusion (((areWords _ member).2 boundary inside).symm.trans boundary_)
  induction tokens generalizing start before with
  | last word =>
    cases before with
    | nil => exact ⟨_, _, .here _ _, (List.cons.inj same).2.symm⟩
    | cons c before =>
      have tail : word ++ [' '] = before ++ boundary :: rest := (List.cons.inj same).2
      rcases List.append_eq_append_iff.mp tail with ⟨more, -, ends⟩ | ⟨more, inside, ends⟩
      · rcases List.cons_eq_append_iff.mp ends with ⟨-, last⟩ | ⟨_, -, none⟩
        · exact absurd (List.cons.inj last).2 some_
        · simp at none
      · cases more with
        | nil => exact absurd (List.cons.inj ends).2 some_
        | cons d more =>
          obtain ⟨rfl, -⟩ := List.cons.inj ends
          exact absurd inside (outside word List.mem_cons_self before more)
  | @more word gap words gaps tokens ih =>
    cases before with
    | nil => exact ⟨_, _, .here _ _, (List.cons.inj same).2.symm⟩
    | cons c before =>
      have tail := (List.cons.inj same).2
      rw [tailText_cons tokens] at tail
      rcases List.append_eq_append_iff.mp tail with ⟨more, -, ends⟩ | ⟨more, inside, ends⟩
      · obtain ⟨words', gaps', final, text⟩ := ih (fun other member => areWords other (List.mem_cons_of_mem _ member))
          ends fun other member => outside other (List.mem_cons_of_mem _ member)
        exact ⟨words', gaps', .later final, text⟩
      · cases more with
        | nil => exact ⟨_, _, .later (.here _ _), (List.cons.inj ends).2⟩
        | cons d more =>
          obtain ⟨rfl, -⟩ := List.cons.inj ends
          exact absurd inside (outside word List.mem_cons_self before more)

/-- The last words begin after a boundary. -/
theorem Final.place {words' : List (List Char)} {gaps' : List Gap} (final : Final words gaps words' gaps')
    (tokens : Tokens words gaps) (start : Char) (start_ : isBoundary start = true) :
    ∃ before boundary, isBoundary boundary = true ∧
      start :: tailText words gaps = before ++ boundary :: tailText words' gaps' := by
  induction final generalizing start with
  | here words gaps => exact ⟨[], start, start_, rfl⟩
  | @later word gap words words' gaps gaps' rest ih =>
    cases tokens with
    | more tokens =>
      obtain ⟨before, boundary, boundary_, same⟩ := ih tokens _ (gap_boundary gap)
      refine ⟨start :: word ++ before, boundary, boundary_, ?_⟩
      rw [tailText_cons tokens, same]
      simp

/-- A fragment in a text of words, with a boundary on each side. -/
def Inside (fragment : List (List Char)) (text : List Char) : Prop :=
  ∃ before left taken right after, text = before ++ left :: (taken ++ right :: after) ∧
    isBoundary left = true ∧ isBoundary right = true ∧ Joined fragment taken

/-- A fragment is inside a text exactly when some reading has its words one after the other. -/
theorem inside_iff (tokens : Tokens words gaps) (areWords : ∀ word ∈ words, IsWord word)
    {fragment : List (List Char)} (isFragment : ∀ word ∈ fragment, IsWord word) (some_ : fragment ≠ []) :
    Inside fragment (' ' :: tailText words gaps) ↔ ∃ read, Reading words gaps read ∧ fragment <:+: read := by
  constructor
  · rintro ⟨before, left, taken, right, after, same, left_, right_, joined⟩
    obtain ⟨words', gaps', final, text⟩ := place_final tokens areWords left_ (by simp) same
    have own : ∀ word ∈ words', IsWord word := fun word member => areWords word (final.subset member)
    obtain ⟨read, reading, begins⟩ := joined.reading (final.tokens tokens) own isFragment right_ text.symm
    obtain ⟨front, whole⟩ := final.reading reading (final.tokens tokens).ne_nil
    exact ⟨_, whole, begins.isInfix.trans (List.suffix_append _ _).isInfix⟩
  · rintro ⟨_, reading, front, back, rfl⟩
    rw [List.append_assoc] at reading
    obtain ⟨words', gaps', final, ends⟩ := reading.final (by simp [some_])
    have own : ∀ word ∈ words', IsWord word := fun word member => areWords word (final.subset member)
    obtain ⟨taken, right, after, right_, text, joined⟩ := ends.joined own (final.tokens tokens) some_
      (List.prefix_append _ _)
    obtain ⟨before, left, left_, same⟩ := final.place tokens ' ' rfl
    exact ⟨before, left, taken, right, after, text ▸ same, left_, right_, joined⟩

end Knowledge

end PhysHarness
