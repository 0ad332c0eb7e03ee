import PhysHarness.Lib.JsonRead
import PhysHarness.Service
import Mathlib.Data.List.Infix

/-!
What the model sees of a tool output under a context budget.

An output is shown whole, as a truncated view (a head and a recall handle) or, once it is old, as a
stub. Lengths count characters: a dispatched result has no lone surrogates, so `backslashreplace`
changes nothing.
-/
namespace PhysHarness

abbrev Text := List Char

/-- The items of a JSON object, in their order. -/
abbrev Fields := List (String × Json)

/-- Opt-in context shaping. The bounds are those of the fields. -/
structure ContextBudget where
  elideMinChars : Nat := 4000
  elideAfterTurns : Nat := 5
  elideEveryTurns : Nat := 10
  maxOutputChars : Option Nat := some 24000
  elideMinBounds : 500 ≤ elideMinChars ∧ elideMinChars ≤ 1000000 := by decide
  elideAfterBounds : 1 ≤ elideAfterTurns ∧ elideAfterTurns ≤ 1000 := by decide
  elideEveryBounds : 1 ≤ elideEveryTurns ∧ elideEveryTurns ≤ 1000 := by decide
  maxOutputBounds : ∀ limit ∈ maxOutputChars, 20000 ≤ limit ∧ limit ≤ 1000000 := by decide

/-- A function call of a provider response. -/
structure FunctionCall where
  callId : String
  name : String
  arguments : String
  deriving DecidableEq

def recallOutput : String := "recall_output"

/-- `json.dumps(value, ensure_ascii=False)` -/
def dumped (value : Json) : Text := Json.render {} value

/-- `json.dumps(visible, allow_nan=False, ensure_ascii=False, sort_keys=True)`, the stored text that
recall pages. -/
def storedText (visible : Fields) : Text := dumped (Json.sortKeys (.obj visible))

/-- The head of a text that is over the cap, and the handle for what follows it. -/
def truncatedView (name callId : String) (text : Text) (head : Nat) : Text :=
  dumped (.obj [
    ("truncated", .bool true),
    ("tool", .str name),
    ("total_chars", .int text.length),
    ("head", .str (.ofList (text.take head))),
    ("recall", .obj [
      ("tool", .str recallOutput),
      ("call_id", .str callId),
      ("next_offset", .int head)])])

/-- `_tool_output_text` under a budget. -/
def toolOutputText (budget : ContextBudget) (call : FunctionCall) (visible : Fields) : Text :=
  let text := dumped (.obj visible)
  match budget.maxOutputChars with
  | none => text
  | some limit =>
    if call.name ≠ recallOutput ∧ limit < text.length then
      -- the head uses the order of the stored text, which recall pages
      truncatedView call.name call.callId (storedText visible) (limit / 2)
    else text

/-! ### Recall pages -/

def recallPageChars : Nat := 16000

/-- `len(json.dumps(page, ensure_ascii=False)) - 2` -/
def escapedSize (page : Text) : Nat := (dumped (.str (.ofList page))).length - 2

theorem escapedSize_eq (page : Text) :
    escapedSize page = (page.flatMap Json.escapeChar).length := by
  simp [escapedSize, dumped, Json.render, Json.quoted]

theorem escapeChar_length (c : Char) : (Json.escapeChar c).length ≤ 6 := by
  unfold Json.escapeChar
  repeat' split
  all_goals simp

/-- An escape takes at most six characters. -/
theorem escapedSize_le (page : Text) : escapedSize page ≤ 6 * page.length := by
  rw [escapedSize_eq]
  induction page with
  | nil => simp
  | cons c page ih =>
    have one := escapeChar_length c
    rw [List.flatMap_cons, List.length_append, List.length_cons]
    omega

/-- The loop of `_recall_page`: cut the page in proportion until it fits. -/
def shrinkPage (page : Text) : Text :=
  let size := escapedSize page
  if recallPageChars < size then
    shrinkPage (page.take (page.length * recallPageChars / size))
  else page
termination_by page.length
decreasing_by
  rename_i beyond
  have beyond : recallPageChars < escapedSize page := beyond
  rw [List.length_take]
  have filled : 0 < page.length := by
    by_contra empty
    have nothing : page = [] := List.eq_nil_of_length_eq_zero (by omega)
    simp [nothing, escapedSize_eq] at beyond
  have cut : page.length * recallPageChars / escapedSize page < page.length :=
    Nat.div_lt_of_lt_mul (by
      rw [Nat.mul_comm (escapedSize page)]
      exact Nat.mul_lt_mul_of_pos_left beyond filled)
  omega

/-- The page of a text at an offset. -/
def recallPage (text : Text) (offset : Nat) : Text :=
  shrinkPage ((text.drop offset).take recallPageChars)

theorem shrinkPage_begins (page : Text) : shrinkPage page <+: page := by
  induction page using shrinkPage.induct with
  | case1 page size beyond ih =>
    unfold shrinkPage
    rw [if_pos beyond]
    exact ih.trans (List.take_prefix _ _)
  | case2 page size fits =>
    unfold shrinkPage
    rw [if_neg fits]

/-- What is left of a non-empty page is not empty: a page is cut by at most its escapes. -/
theorem shrinkPage_ne_nil (page : Text) (filled : page ≠ []) : shrinkPage page ≠ [] := by
  induction page using shrinkPage.induct with
  | case1 page size beyond ih =>
    unfold shrinkPage
    rw [if_pos beyond]
    refine ih ?_
    have length := List.length_pos_of_ne_nil filled
    have bounded := escapedSize_le page
    have kept : 0 < page.length * recallPageChars / escapedSize page :=
      Nat.div_pos (by unfold recallPageChars; omega) (by omega)
    simpa [List.take_eq_nil_iff, filled] using kept.ne'
  | case2 page size fits =>
    unfold shrinkPage
    rwa [if_neg fits]

theorem shrinkPage_fits (page : Text) : escapedSize (shrinkPage page) ≤ recallPageChars := by
  induction page using shrinkPage.induct with
  | case1 page size beyond ih =>
    unfold shrinkPage
    rwa [if_pos beyond]
  | case2 page size fits =>
    unfold shrinkPage
    rw [if_neg fits]
    exact Nat.le_of_not_lt fits

/-! ### Stubs -/

section

variable [ContentHash]

/-- What an elided output leaves in context. The handle of a recalled page has the page's offset. -/
def elisionStub (tool callId : String) (output : Text) (offset : Option Nat) : Text :=
  let handle := [("tool", .str recallOutput), ("call_id", .str callId)] ++
    (offset.map fun offset => ("offset", Json.int offset)).toList
  Json.render Json.compact (.obj [
    ("elided", .bool true),
    ("tool", .str tool),
    ("chars", .int output.length),
    ("sha256", .str (.ofList ((ContentHash.sha256 (.ofList output)).toList.take 16))),
    ("head", .str (.ofList (output.take 160))),
    ("recall", .obj handle)])

def stubMark : Text := "\x7b\"elided\":true".toList

def isElisionStub (output : Text) : Bool := stubMark.isPrefixOf output

theorem isElisionStub_stub (tool callId : String) (output : Text) (offset : Option Nat) :
    isElisionStub (elisionStub tool callId output offset) = true := rfl

omit [ContentHash] in
/-- An escaped character is itself and no quote, or it starts with a backslash. -/
theorem escapeChar_cases (c : Char) :
    (Json.escapeChar c = [c] ∧ c ≠ '"') ∨ ∃ rest, Json.escapeChar c = '\\' :: rest := by
  unfold Json.escapeChar
  repeat' split
  all_goals simp_all

omit [ContentHash] in
/-- A quoted text followed by a colon and a space does not start as one followed by a colon and
something else does. -/
theorem quoted_mark (word key : List Char) {c : Char} {mark rest : List Char} (other : c ≠ ' ')
    (plain : '"' ∉ word ∧ '\\' ∉ word) :
    ¬ (word ++ '"' :: ':' :: c :: mark) <+:
      (key.flatMap Json.escapeChar ++ '"' :: ':' :: ' ' :: rest) := by
  induction word generalizing key with
  | nil =>
    cases key with
    | nil => simp [other]
    | cons d key =>
      rcases escapeChar_cases d with ⟨same, quote⟩ | ⟨_, escaped⟩
      · simp [same, quote.symm]
      · simp [escaped]
  | cons a word ih =>
    simp only [List.mem_cons, not_or] at plain
    cases key with
    | nil => simp [Ne.symm plain.1.1]
    | cons d key =>
      rcases escapeChar_cases d with ⟨same, quote⟩ | ⟨_, escaped⟩
      · have later := ih key ⟨plain.1.2, plain.2.2⟩
        simp_all
      · simp [escaped, Ne.symm plain.2.1]

omit [ContentHash] in
/-- No output passes for a stub: its colons are followed by a space. -/
theorem isElisionStub_dumped (visible : Fields) : isElisionStub (dumped (.obj visible)) = false := by
  cases visible with
  | nil => rfl
  | cons field visible =>
    obtain ⟨key, value⟩ := field
    refine Bool.eq_false_iff.mpr fun passes => ?_
    have starts := List.isPrefixOf_iff_prefix.mp passes
    have parts : stubMark = '{' :: '"' :: ("elided".toList ++ '"' :: ':' :: "true".toList) := rfl
    rw [parts] at starts
    simp only [dumped, Json.render, Json.quoted, List.cons_append, List.append_assoc,
      List.nil_append, List.cons_prefix_cons, true_and] at starts
    exact quoted_mark "elided".toList key.toList (by decide) (by decide) starts

end

end PhysHarness
