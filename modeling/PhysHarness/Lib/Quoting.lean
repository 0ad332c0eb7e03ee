import PhysHarness.Lib.JsonRead
import PhysHarness.Lib.Lines

/-!
Lines in which a program embeds foreign text as JSON strings. A reader that skips the strings sees the
program's own text and nothing of what the strings say, and it gets back what was embedded.
-/
namespace Quoting

/-- A part of a line: the program's own text, or foreign text as a string. -/
inductive Piece where
  | plain (text : String)
  | quoted (text : String)

def Piece.render : Piece → List Char
  | .plain text => text.toList
  | .quoted text => Json.quoted text

def render (pieces : List Piece) : List Char := pieces.flatMap Piece.render

/-- The program's own text; a string leaves its two quotes. -/
def outside : List Piece → List Char
  | [] => []
  | .plain text :: pieces => text.toList ++ outside pieces
  | .quoted _ :: pieces => '"' :: '"' :: outside pieces

/-- The embedded texts. -/
def inside : List Piece → List String
  | [] => []
  | .plain _ :: pieces => inside pieces
  | .quoted text :: pieces => text :: inside pieces

/-- Read a line: the text outside its strings, and the strings. A string without an end is left as it
stands. -/
def scan : Nat → List Char → List Char × List String
  | 0, _ => ([], [])
  | _ + 1, [] => ([], [])
  | fuel + 1, c :: text =>
    if c = '"' then
      match Json.readString text.length text with
      | none => (c :: text, [])
      | some (string, rest) =>
        let (before, strings) := scan fuel rest
        ('"' :: '"' :: before, .ofList string :: strings)
    else
      let (before, strings) := scan fuel text
      (c :: before, strings)

def read (line : List Char) : List Char × List String := scan line.length line

/-! ### Reading back -/

theorem scan_nil (fuel : Nat) : scan fuel [] = ([], []) := by
  cases fuel <;> simp [scan]

theorem scan_plain {text : List Char} (unquoted : '"' ∉ text) (fuel : Nat) (rest : List Char) :
    scan (text.length + fuel) (text ++ rest) =
      (text ++ (scan fuel rest).1, (scan fuel rest).2) := by
  induction text with
  | nil => simp
  | cons c text ih =>
    have other : c ≠ '"' := by
      rintro rfl
      exact unquoted (List.mem_cons_self ..)
    have later := ih fun member => unquoted (List.mem_cons_of_mem _ member)
    rw [List.length_cons, Nat.add_right_comm, List.cons_append, scan, if_neg other, later]
    simp

theorem scan_quoted (text : String) (fuel : Nat) (rest : List Char) :
    scan (fuel + 1) (Json.quoted text ++ rest) =
      ('"' :: '"' :: (scan fuel rest).1, text :: (scan fuel rest).2) := by
  rw [Json.quoted_append, scan, if_pos rfl, Json.readString_quoted]
  simp

/-- A line is read back when no quote stands in the program's own text. -/
theorem scan_render {pieces : List Piece} (unquoted : ∀ text, Piece.plain text ∈ pieces → '"' ∉ text.toList)
    {fuel : Nat} (enough : (render pieces).length ≤ fuel) :
    scan fuel (render pieces) = (outside pieces, inside pieces) := by
  induction pieces generalizing fuel with
  | nil => simp [render, outside, inside, scan_nil]
  | cons piece pieces ih =>
    have later := fun text member => unquoted text (List.mem_cons_of_mem piece member)
    have whole : render (piece :: pieces) = piece.render ++ render pieces := List.flatMap_cons
    rw [whole, List.length_append] at enough
    rw [whole]
    cases piece with
    | plain text =>
      obtain ⟨left, rfl⟩ := Nat.exists_eq_add_of_le (Nat.le_trans (Nat.le_add_right _ _) enough)
      have room : (render pieces).length ≤ left := Nat.le_of_add_le_add_left enough
      rw [Piece.render, scan_plain (unquoted text (List.mem_cons_self ..)), ih later room]
      simp [outside, inside]
    | quoted text =>
      have one : 1 ≤ (Piece.quoted text).render.length := by simp [Piece.render, Json.quoted]
      obtain ⟨left, rfl⟩ := Nat.exists_eq_add_of_le' (one.trans ((Nat.le_add_right _ _).trans enough))
      have room : (render pieces).length ≤ left := by omega
      rw [Piece.render, scan_quoted, ih later room]
      simp [outside, inside]

theorem read_render {pieces : List Piece} (unquoted : ∀ text, Piece.plain text ∈ pieces → '"' ∉ text.toList) :
    read (render pieces) = (outside pieces, inside pieces) := scan_render unquoted le_rfl

/-! ### Characters -/

/-- An escaped character is itself or printable ASCII. -/
theorem mem_escapeChar {c d : Char} (member : d ∈ Json.escapeChar c) :
    d = c ∨ (32 ≤ d.toNat ∧ d.toNat < 127) := by
  have digit : ∀ n < 16, 32 ≤ (Json.hexDigit n).toNat ∧ (Json.hexDigit n).toNat < 127 := by decide
  unfold Json.escapeChar at member
  repeat' split at member
  all_goals simp only [List.mem_cons, List.not_mem_nil, or_false] at member
  all_goals first
    | exact .inl member
    | rcases member with rfl | rfl <;> exact .inr (by decide)
    | rcases member with rfl | rfl | rfl | rfl | rfl | rfl
      iterate 4 exact .inr (by decide)
      · exact .inr (digit _ (by omega))
      · exact .inr (digit _ (by omega))

theorem mem_quoted {text : String} {d : Char} (member : d ∈ Json.quoted text) :
    d ∈ text.toList ∨ (32 ≤ d.toNat ∧ d.toNat < 127) := by
  simp only [Json.quoted, List.mem_cons, List.mem_append, List.mem_flatMap, List.not_mem_nil,
    or_false] at member
  rcases member with rfl | ⟨c, listed, escaped⟩ | rfl
  · exact .inr (by decide)
  · rcases mem_escapeChar escaped with rfl | printed
    · exact .inl listed
    · exact .inr printed
  · exact .inr (by decide)

end Quoting
