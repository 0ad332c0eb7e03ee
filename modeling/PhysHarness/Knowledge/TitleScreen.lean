import PhysHarness.Knowledge.TitleReadings

/-!
The title screen finds a fragment exactly when some reading of the text has its words: a soft boundary
of the text can be read joined or split, independently of the others. The path for texts with hard
boundaries only and the search of the letters without boundaries do not change the verdict.

Main result: `titleHit_iff`.
-/
namespace PhysHarness

namespace Knowledge

open Regex (char maybe seq results)

variable {words : List (List Char)} {gaps : List Gap} {read : List (List Char)}

/-! ### The pattern -/

/-- The place after a part of the text. -/
def past (cursor : Regex.Cursor) (taken rest : List Char) : Regex.Cursor :=
  { cursor with before := taken.reverse ++ cursor.before, rest }

theorem mem_char {c : Char} {cursor next : Regex.Cursor} :
    next ∈ results (char c) cursor ↔ ∃ rest, cursor.rest = c :: rest ∧ next = past cursor [c] rest := by
  obtain ⟨before, rest, groups⟩ := cursor
  cases rest with
  | nil => simp [results, char]
  | cons d rest =>
    by_cases same : d = c
    · simp [results, char, same, past]
    · simp [results, char, same]

/-- What `softWord` matches. -/
theorem mem_softWord {word : List Char} (some_ : word ≠ []) {cursor next : Regex.Cursor} :
    next ∈ results (softWord word) cursor ↔
      ∃ taken rest, cursor.rest = taken ++ rest ∧ Spelled word taken ∧ next = past cursor taken rest := by
  induction word generalizing cursor with
  | nil => exact absurd rfl some_
  | cons c word ih =>
    cases word with
    | nil =>
      rw [softWord, mem_char]
      constructor
      · rintro ⟨rest, same, rfl⟩
        exact ⟨[c], rest, same, .last c, rfl⟩
      · rintro ⟨taken, rest, same, spelled, rfl⟩
        cases spelled
        exact ⟨rest, same, rfl⟩
    | cons d word =>
      rw [show softWord (c :: d :: word) = seq (char c) (seq (maybe (char softJoin)) (softWord (d :: word))) from rfl]
      simp only [maybe, Regex.mem_seq, Regex.mem_either, Regex.mem_empty, mem_char]
      constructor
      · rintro ⟨_, ⟨rest, same, rfl⟩, middle, gap, later⟩
        obtain ⟨taken, tail, text, spelled, rfl⟩ := (ih (List.cons_ne_nil _ _)).mp later
        rcases gap with ⟨rest', soft, rfl⟩ | rfl
        · obtain rfl : rest = softJoin :: rest' := soft
          obtain rfl : rest' = taken ++ tail := text
          exact ⟨c :: softJoin :: taken, tail, same, .soft spelled, by simp [past]⟩
        · obtain rfl : rest = taken ++ tail := text
          exact ⟨c :: taken, tail, same, .next spelled, by simp [past]⟩
      · rintro ⟨taken, tail, same, spelled, rfl⟩
        cases spelled with
        | @next _ _ _ taken rest =>
          refine ⟨_, ⟨taken ++ tail, same, rfl⟩, _, .inr rfl, (ih (List.cons_ne_nil _ _)).mpr ?_⟩
          exact ⟨taken, tail, rfl, rest, by simp [past]⟩
        | @soft _ _ _ taken rest =>
          refine ⟨_, ⟨softJoin :: taken ++ tail, same, rfl⟩, _, .inl ⟨taken ++ tail, rfl, rfl⟩,
            (ih (List.cons_ne_nil _ _)).mpr ?_⟩
          exact ⟨taken, tail, rfl, rest, by simp [past]⟩

theorem mem_boundary {cursor next : Regex.Cursor} : next ∈ results (.set isBoundary) cursor ↔
    ∃ c rest, isBoundary c = true ∧ cursor.rest = c :: rest ∧ next = past cursor [c] rest := by
  obtain ⟨before, rest, groups⟩ := cursor
  cases rest with
  | nil => simp [results]
  | cons d rest =>
    by_cases boundary : isBoundary d = true
    · simp [results, boundary, past]
    · simp only [results, if_neg boundary, List.not_mem_nil, false_iff]
      rintro ⟨c, rest', boundary', same, -⟩
      exact boundary ((List.cons.inj same).1 ▸ boundary')

/-- What `softWords` matches. -/
theorem mem_softWords {fragment : List (List Char)} (some_ : fragment ≠ []) (nonempty : ∀ word ∈ fragment, word ≠ [])
    {cursor next : Regex.Cursor} : next ∈ results (softWords fragment) cursor ↔
      ∃ taken rest, cursor.rest = taken ++ rest ∧ Joined fragment taken ∧ next = past cursor taken rest := by
  induction fragment generalizing cursor with
  | nil => exact absurd rfl some_
  | cons word fragment ih =>
    have own := nonempty word List.mem_cons_self
    cases fragment with
    | nil =>
      rw [softWords, mem_softWord own]
      constructor
      · rintro ⟨taken, rest, same, spelled, rfl⟩
        exact ⟨taken, rest, same, .last spelled, rfl⟩
      · rintro ⟨taken, rest, same, joined, rfl⟩
        cases joined with
        | last spelled => exact ⟨taken, rest, same, spelled, rfl⟩
        | next spelled between joined => exact absurd rfl joined.ne_nil
    | cons other fragment =>
      have later := @ih (List.cons_ne_nil _ _) fun word member => nonempty word (List.mem_cons_of_mem _ member)
      rw [show softWords (word :: other :: fragment) =
        seq (softWord word) (seq (.set isBoundary) (softWords (other :: fragment))) from rfl]
      simp only [Regex.mem_seq]
      constructor
      · rintro ⟨_, first, _, between, last⟩
        obtain ⟨taken, rest, same, spelled, rfl⟩ := (mem_softWord own).mp first
        obtain ⟨c, rest', boundary, gap, rfl⟩ := mem_boundary.mp between
        obtain ⟨taken', tail, text, joined, rfl⟩ := later.mp last
        obtain rfl : rest = c :: rest' := gap
        obtain rfl : rest' = taken' ++ tail := text
        exact ⟨taken ++ c :: taken', tail, by simp [same], .next spelled boundary joined, by simp [past]⟩
      · rintro ⟨_, tail, same, joined, rfl⟩
        cases joined with
        | @next _ taken rest _ spelled c boundary joined =>
          refine ⟨_, (mem_softWord own).mpr ⟨taken, c :: (rest ++ tail), by simp [same], spelled, rfl⟩, _,
            mem_boundary.mpr ⟨c, rest ++ tail, boundary, rfl, rfl⟩, later.mpr ?_⟩
          exact ⟨rest, tail, rfl, joined, by simp [past]⟩

/-! ### Patterns and tokens -/

section

variable [UnicodeText]

open UnicodeText

theorem softPattern_search {title text : List Char} (some_ : splitWords title ≠ []) :
    ((softPattern title).search text).isSome = true ↔ Inside (splitWords title) text := by
  have nonempty : ∀ word ∈ splitWords title, word ≠ [] := by
    intro word member
    exact of_decide_eq_true (List.mem_filter.mp member).2
  rw [Regex.search_iff]
  simp only [softPattern, Regex.mem_seq, Regex.mem_behind, Regex.mem_ahead]
  constructor
  · rintro ⟨before, rest, next, rfl, _, ⟨⟨c, passed, behind_, left⟩, rfl⟩, middle, inside, ⟨found, ahead_⟩, -⟩
    obtain ⟨taken, tail, same, joined, rfl⟩ := (mem_softWords some_ nonempty).mp inside
    obtain ⟨right, after, right_, follows, -⟩ := mem_boundary.mp ahead_
    obtain rfl : tail = right :: after := follows
    obtain rfl : rest = taken ++ right :: after := same
    have front : before = passed.reverse ++ [c] := by
      rw [← List.reverse_reverse before, show before.reverse = c :: passed from behind_, List.reverse_cons]
    exact ⟨passed.reverse, c, taken, right, after, by rw [front]; simp, left, right_, joined⟩
  · rintro ⟨before, left, taken, right, after, rfl, left_, right_, joined⟩
    refine ⟨before ++ [left], taken ++ right :: after, _, by simp, _, ⟨⟨left, before.reverse, by simp, left_⟩, rfl⟩,
      _, (mem_softWords some_ nonempty).mpr ⟨taken, right :: after, rfl, joined, rfl⟩,
      ⟨past _ [right] after, mem_boundary.mpr ⟨right, after, right_, rfl, rfl⟩⟩, rfl⟩

/-- The words of a text are letters or digits. -/
theorem mem_titleTokens {text : String} {word : List Char} (member : word ∈ (titleTokens text).1) :
    word ≠ [] ∧ ∀ c ∈ word, isLetter c = true ∨ isDigit c = true := by
  obtain ⟨found, here, rfl⟩ := List.mem_map.mp member
  obtain ⟨start, next, result, consumed⟩ := Regex.mem_finditer here
  rcases Regex.mem_either.mp result with letters | digits
  · obtain ⟨taken, own, some_, all⟩ := Regex.some_set_consumes letters
    rw [consumed.unique own]
    exact ⟨some_, fun c inside => .inl (all c inside)⟩
  · obtain ⟨taken, own, some_, all⟩ := Regex.some_set_consumes digits
    rw [consumed.unique own]
    exact ⟨some_, fun c inside => .inr (all c inside)⟩

theorem boundary_of_word {c : Char} (word : isLetter c = true ∨ isDigit c = true) : isBoundary c = false := by
  have space : c ≠ ' ' := by
    rintro rfl
    exact Bool.noConfusion ((word_not_space ' ' word).symm.trans UnicodeText.space)
  have soft : c ≠ Knowledge.softJoin := by
    rintro rfl
    have marks : isLetter (Knowledge.softJoin) = false ∧ isDigit Knowledge.softJoin = false := UnicodeText.softJoin
    rw [marks.1, marks.2] at word
    simp at word
  simp [isBoundary, space, soft]

theorem titleTokens_words {text : String} {word : List Char} (member : word ∈ (titleTokens text).1) :
    IsWord word :=
  ⟨(mem_titleTokens member).1, fun c inside => boundary_of_word ((mem_titleTokens member).2 c inside)⟩

omit [UnicodeText] in
theorem tokens_of_length {words : List (List Char)} {gaps : List Gap} (length : words.length = gaps.length + 1) :
    Tokens words gaps := by
  induction gaps generalizing words with
  | nil =>
    obtain ⟨word, rfl⟩ := List.length_eq_one_iff.mp length
    exact .last word
  | cons gap gaps ih =>
    cases words with
    | nil => cases length
    | cons word words => exact .more (ih (Nat.succ.inj length))

theorem titleTokens_tokens (text : String) :
    titleTokens text = ([], []) ∨ Tokens (titleTokens text).1 (titleTokens text).2 := by
  unfold titleTokens
  dsimp only
  cases (wordPattern.finditer (marked text)).1 with
  | nil => exact .inl rfl
  | cons found more => exact .inr (tokens_of_length (by simp))

/-! ### Fragments -/

/-- Words as `normalize_title` leaves them: letters or digits. -/
def Plain (words : List (List Char)) : Prop :=
  ∀ word ∈ words, word ≠ [] ∧ ∀ c ∈ word, isLetter c = true ∨ isDigit c = true

theorem Plain.isWord {words : List (List Char)} (plain : Plain words) : ∀ word ∈ words, IsWord word :=
  fun word member => ⟨(plain word member).1, fun c inside => boundary_of_word ((plain word member).2 c inside)⟩

theorem Plain.cons {word : List Char} {words : List (List Char)} (some_ : word ≠ [])
    (letters : ∀ c ∈ word, isLetter c = true ∨ isDigit c = true) (plain : Plain words) : Plain (word :: words) :=
  List.forall_mem_cons.mpr ⟨⟨some_, letters⟩, plain⟩

/-- The text of the words with their boundaries as `normalize_title` writes it. -/
def normalText : List Gap → List (List Char) → List Char
  | gaps, words => (gaps.zip words).flatMap fun (gap, word) => (if gap = .join then [] else [' ']) ++ word

omit [UnicodeText] in
theorem normalText_cons {gap : Gap} {gaps : List Gap} {word : List Char} {words : List (List Char)} :
    normalText (gap :: gaps) (word :: words) =
      (if gap = .join then [] else [' ']) ++ word ++ normalText gaps words := rfl

/-- A normalized text is its words with one space between two of them. -/
theorem normalText_words {first : List Char} (tokens : Tokens (first :: words) gaps) (plain : Plain (first :: words)) :
    ∃ fragment, Plain fragment ∧ fragment ≠ [] ∧ first ++ normalText gaps words = [' '].intercalate fragment := by
  generalize whole : first :: words = all at tokens
  induction tokens generalizing first words with
  | last word =>
    obtain ⟨rfl, rfl⟩ := List.cons.inj whole
    exact ⟨[first], plain, List.cons_ne_nil _ _, by simp [normalText, List.intercalate_singleton]⟩
  | @more word gap rest gaps tokens ih =>
    obtain ⟨rfl, rfl⟩ := List.cons.inj whole
    obtain ⟨second, rest, rfl⟩ := List.exists_cons_of_ne_nil tokens.ne_nil
    have own := plain first List.mem_cons_self
    have others : Plain (second :: rest) := fun word member => plain word (List.mem_cons_of_mem _ member)
    obtain ⟨fragment, plainFragment, some_, text⟩ := ih others rfl
    rw [normalText_cons, List.append_assoc, text]
    by_cases join : gap = .join
    · -- a joined word continues the first one
      obtain ⟨word, fragment, rfl⟩ := List.exists_cons_of_ne_nil some_
      have letters : ∀ c ∈ first ++ word, isLetter c = true ∨ isDigit c = true := by
        intro c member
        rcases List.mem_append.mp member with left | right
        · exact own.2 c left
        · exact (plainFragment word List.mem_cons_self).2 c right
      have rest : Plain fragment := fun word member => plainFragment word (List.mem_cons_of_mem _ member)
      refine ⟨(first ++ word) :: fragment, rest.cons (by simp [own.1]) letters, List.cons_ne_nil _ _, ?_⟩
      rw [if_pos join, List.nil_append]
      cases fragment with
      | nil => simp only [List.intercalate_singleton]
      | cons third fragment => simp only [List.intercalate_cons_cons, List.append_assoc]
    · refine ⟨first :: fragment, List.forall_mem_cons.mpr ⟨own, plainFragment⟩, List.cons_ne_nil _ _, ?_⟩
      rw [if_neg join, List.intercalate_cons_of_ne_nil some_, List.append_assoc]

theorem normalizeTitle_words {source : String} (some_ : normalizeTitle source ≠ []) :
    ∃ fragment, Plain fragment ∧ fragment ≠ [] ∧ normalizeTitle source = [' '].intercalate fragment := by
  have plain : Plain (titleTokens source).1 := fun word member => mem_titleTokens member
  have tokens := titleTokens_tokens source
  unfold normalizeTitle at some_ ⊢
  generalize titleTokens source = found at plain tokens some_ ⊢
  obtain ⟨words, gaps⟩ := found
  cases words with
  | nil => exact absurd rfl some_
  | cons first words =>
    rcases tokens with none | tokens
    · cases none
    · exact normalText_words tokens plain

/-- Splitting at spaces gives the words back. -/
theorem splitWords_intercalate {fragment : List (List Char)} (plain : Plain fragment) (some_ : fragment ≠ []) :
    splitWords ([' '].intercalate fragment) = fragment := by
  have noSpace : ∀ word ∈ fragment, ∀ c ∈ word, UnicodeText.isSpace c = false := fun word member c inside =>
    word_not_space c ((plain word member).2 c inside)
  have all : ([' '].intercalate fragment).splitOnP UnicodeText.isSpace = fragment := by
    clear plain
    induction fragment with
    | nil => exact absurd rfl some_
    | cons word fragment ih =>
      by_cases only : fragment = []
      · subst only
        rw [List.intercalate_singleton]
        exact List.splitOnP_eq_singleton (noSpace word List.mem_cons_self)
      · have rest := ih only fun word member => noSpace word (List.mem_cons_of_mem _ member)
        rw [List.intercalate_cons_of_ne_nil only, List.append_assoc, List.singleton_append,
          List.splitOnP_append_cons_of_forall_mem (noSpace word List.mem_cons_self) ' ' UnicodeText.space, rest]
  rw [splitWords, all, List.filter_eq_self]
  intro word member
  exact decide_eq_true (plain word member).1

/-- Without its spaces a fragment is its words one after the other. -/
theorem filter_intercalate {fragment : List (List Char)} (plain : Plain fragment) :
    ([' '].intercalate fragment).filter (· ≠ ' ') = fragment.flatten := by
  have own : ∀ word ∈ fragment, word.filter (· ≠ ' ') = word := by
    intro word member
    rw [List.filter_eq_self]
    intro c inside
    apply decide_eq_true
    rintro rfl
    exact (plain.isWord word member).hard inside
  clear plain
  induction fragment with
  | nil => rfl
  | cons word fragment ih =>
    have first := own word List.mem_cons_self
    by_cases only : fragment = []
    · subst only
      rw [List.intercalate_singleton, first, List.flatten_singleton]
    · have rest := ih fun word member => own word (List.mem_cons_of_mem _ member)
      rw [List.intercalate_cons_of_ne_nil only, List.filter_append, List.filter_append, first, rest,
        List.flatten_cons]
      simp

/-! ### The screen -/

omit [UnicodeText] in
/-- The haystack of a text with soft boundaries. -/
theorem haystack_text (tokens : Tokens words gaps) (gap : Gap) :
    (((gap :: gaps).zip words).flatMap fun (gap, word) => (if gap = .hard then ' ' else softJoin) :: word) ++ [' '] =
      (if gap = .hard then ' ' else softJoin) :: tailText words gaps := by
  induction tokens generalizing gap with
  | last word => simp [tailText]
  | @more word next words gaps tokens ih =>
    rw [tailText_cons tokens, ← ih next]
    simp

omit [UnicodeText] in
/-- The haystack of a text without soft boundaries. -/
theorem haystack_hard (tokens : Tokens words gaps) (hard : ∀ gap ∈ gaps, gap = Gap.hard) :
    [' '].intercalate words ++ [' '] = tailText words gaps := by
  induction tokens with
  | last word => simp [tailText, List.intercalate_singleton]
  | @more word gap words gaps tokens ih =>
    have rest := ih fun gap member => hard gap (List.mem_cons_of_mem _ member)
    rw [tailText_cons tokens, if_pos (hard gap List.mem_cons_self), ← rest,
      List.intercalate_cons_of_ne_nil tokens.ne_nil]
    simp

omit [UnicodeText] in
theorem tailText_hard (tokens : Tokens words gaps) (areWords : ∀ word ∈ words, IsWord word)
    (hard : ∀ gap ∈ gaps, gap = Gap.hard) : softJoin ∉ tailText words gaps := by
  induction tokens with
  | last word =>
    intro member
    rcases List.mem_append.mp member with own | space
    · exact (areWords word List.mem_cons_self).soft own
    · exact absurd (List.mem_singleton.mp space) (by decide)
  | @more word gap words gaps tokens ih =>
    rw [tailText_cons tokens, if_pos (hard gap List.mem_cons_self)]
    intro member
    rcases List.mem_append.mp member with own | later
    · exact (areWords word List.mem_cons_self).soft own
    rcases List.mem_cons.mp later with space | later
    · exact absurd space (by decide)
    · exact ih (fun other inside => areWords other (List.mem_cons_of_mem _ inside))
        (fun gap inside => hard gap (List.mem_cons_of_mem _ inside)) later

omit [UnicodeText] in
theorem joined_intercalate {fragment : List (List Char)} (nonempty : ∀ word ∈ fragment, word ≠ [])
    (some_ : fragment ≠ []) : Joined fragment ([' '].intercalate fragment) := by
  induction fragment with
  | nil => exact absurd rfl some_
  | cons word fragment ih =>
    have own := nonempty word List.mem_cons_self
    by_cases only : fragment = []
    · subst only
      rw [List.intercalate_singleton]
      exact .last (spelled_self own)
    · have rest := ih (fun word member => nonempty word (List.mem_cons_of_mem _ member)) only
      rw [List.intercalate_cons_of_ne_nil only, List.append_assoc, List.singleton_append]
      exact .next (spelled_self own) rfl rest

omit [UnicodeText] in
/-- Without soft boundaries a joined fragment is its words with one space between two of them. -/
theorem Joined.plain {fragment : List (List Char)} {taken : List Char} (joined : Joined fragment taken)
    (hard : softJoin ∉ taken) : taken = [' '].intercalate fragment := by
  induction joined with
  | last spelled => rw [spelled.plain hard, List.intercalate_singleton]
  | @next word taken rest fragment spelled boundary between joined ih =>
    have own := spelled.plain fun member => hard (List.mem_append_left _ member)
    have later := ih fun member => hard (List.mem_append_right _ (List.mem_cons_of_mem _ member))
    have space : boundary = ' ' := by
      rcases Bool.or_eq_true_iff.mp between with space | join
      · exact of_decide_eq_true space
      · obtain rfl := of_decide_eq_true join
        exact absurd (List.mem_append_right _ List.mem_cons_self) hard
    rw [own, later, space, List.intercalate_cons_of_ne_nil joined.ne_nil]
    simp

omit [UnicodeText] in
/-- In a text without soft boundaries the plain search is enough. -/
theorem plain_inside {fragment : List (List Char)} (nonempty : ∀ word ∈ fragment, word ≠ []) (some_ : fragment ≠ [])
    {text : List Char} (hard : softJoin ∉ text) :
    [' '] ++ [' '].intercalate fragment ++ [' '] <:+: text ↔ Inside fragment text := by
  constructor
  · rintro ⟨before, after, rfl⟩
    exact ⟨before, ' ', [' '].intercalate fragment, ' ', after, by simp, rfl, rfl, joined_intercalate nonempty some_⟩
  · rintro ⟨before, left, taken, right, after, rfl, left_, right_, joined⟩
    have space : ∀ c, isBoundary c = true → c ∈ before ++ left :: (taken ++ right :: after) → c = ' ' := by
      intro c boundary member
      rcases Bool.or_eq_true_iff.mp boundary with space | join
      · exact of_decide_eq_true space
      · exact absurd (of_decide_eq_true join ▸ member) hard
    have first := space left left_ (by simp)
    have last := space right right_ (by simp)
    have own := joined.plain fun member => hard (by simp [member])
    subst first last own
    exact ⟨before, after, by simp⟩

/-- A fragment of the blocklist: a normalized title with words. -/
structure TitleFragment where
  key : List Char
  source : String
  normalized : normalizeTitle source = key
  nonempty : key ≠ []

/-- The words of a fragment. -/
def TitleFragment.wordList (fragment : TitleFragment) : List (List Char) := splitWords fragment.key

theorem TitleFragment.plain (fragment : TitleFragment) :
    Plain fragment.wordList ∧ fragment.wordList ≠ [] ∧ fragment.key = [' '].intercalate fragment.wordList := by
  obtain ⟨words, plain, some_, same⟩ := normalizeTitle_words (fragment.normalized ▸ fragment.nonempty)
  rw [fragment.normalized] at same
  have own : fragment.wordList = words := by
    rw [TitleFragment.wordList, same, splitWords_intercalate plain some_]
  rw [own]
  exact ⟨plain, some_, same⟩

/-- What the screen decides for one fragment of a text with words, on either path. -/
theorem screen_iff (tokens : Tokens words gaps) (plain : Plain words) (fragment : TitleFragment) :
    Inside fragment.wordList (' ' :: tailText words gaps) ↔
      ∃ read, Reading words gaps read ∧ fragment.wordList <:+: read :=
  inside_iff tokens plain.isWord fragment.plain.1.isWord fragment.plain.2.1

/-- The letters of a fragment that is read are together in the text. -/
theorem compact_of_reading {fragment : TitleFragment} (reading : Reading words gaps read)
    (inside : fragment.wordList <:+: read) : fragment.key.filter (· ≠ ' ') <:+: words.flatten := by
  obtain ⟨front, back, rfl⟩ := inside
  rw [fragment.plain.2.2, filter_intercalate fragment.plain.1, ← reading.flatten]
  exact ⟨front.flatten, back.flatten, by simp⟩

end

namespace Scenario

/-- The tables for ASCII text without entities. -/
instance asciiText : UnicodeText where
  unescape := id
  nfkd := id
  casefold text := text.map Char.toLower
  isLetter := Char.isAlpha
  isDigit := Char.isDigit
  isSpace := Char.isWhitespace
  isFormat _ := false
  isCombining _ := false
  word_not_space := by
    intro c word
    by_contra blank
    have blank : c = ' ' ∨ c = '\t' ∨ c = '\r' ∨ c = '\n' := by
      simpa [Char.isWhitespace, or_assoc, or_iff_not_imp_left] using blank
    rcases blank with rfl | rfl | rfl | rfl <;> exact absurd word (by decide)
  space := rfl
  softJoin := ⟨rfl, rfl⟩

/-- A word broken over two lines is read joined or split, and only as a whole. -/
example : titleHit ["two body".toList] "a two-\nbody map" = true ∧
    titleHit ["twobody map".toList] "a two-\nbody map" = true ∧
    titleHit ["wo body map".toList] "a two-\nbody map" = false := by decide +kernel

end Scenario

end Knowledge

end PhysHarness
