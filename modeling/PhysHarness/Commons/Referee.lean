import PhysHarness.Lib.Json
import PhysHarness.Lib.Regex
import PhysHarness.Lib.Replace
import PhysHarness.Sources.LineMap

/-!
# Lean results for referees

With modules inlined, a referee reads as Lean wrote it only what is on its own lines. The text of a
message or a hole inside a module is withheld, the text of one without a line is fenced as author data,
and the axiom report keeps the declarations of the referee's own source.

Main result: `referee_unexposed_iff`. The automation suggestion of a hole without a line is left as it is.
-/
namespace PhysHarness

namespace Referee

open Sources (CheckItem Expansion Segment segmentAt isSpace strip isWord linesOf)
open scoped Sources

/-! ### Author data -/

def nodeDataBegin : List Char := "<<<NODE_DATA_BEGIN>>>".toList

def nodeDataEnd : List Char := "<<<NODE_DATA_END>>>".toList

/-- Three escapes of a character, as `_encode_node_data` writes them. -/
def escapedRun (hex : String) : List Char := (List.replicate 3 ("\\u00" ++ hex).toList).flatten

/-- `_encode_node_data` of a text -/
def encodeNodeData (text : List Char) : List Char :=
  Replace.replace (List.replicate 3 '>') (escapedRun "3e")
    (Replace.replace (List.replicate 3 '<') (escapedRun "3c") (Json.quoted (.ofList text)))

def fenceAuthorData (text : List Char) : List Char :=
  nodeDataBegin ++ '\n' :: encodeNodeData text ++ '\n' :: nodeDataEnd

theorem encodeNodeData_run (text : List Char) : ¬ List.replicate 3 '<' <:+: encodeNodeData text := by
  intro inside
  have first := Replace.replace_infix (by decide) (by decide) (by decide) inside
  exact Replace.replace_gone (by decide) (by decide) (by decide) first

/-- A fenced text has no marker. -/
theorem encodeNodeData_markers (text : List Char) :
    ¬ nodeDataBegin <:+: encodeNodeData text ∧ ¬ nodeDataEnd <:+: encodeNodeData text := by
  constructor
  · intro inside
    exact encodeNodeData_run text (List.IsInfix.trans ⟨[], "NODE_DATA_BEGIN>>>".toList, by decide⟩ inside)
  · intro inside
    exact encodeNodeData_run text (List.IsInfix.trans ⟨[], "NODE_DATA_END>>>".toList, by decide⟩ inside)

/-! ### The names of a source -/

/-- `_DECLARATION`, with the name as its group -/
def declarationPattern : Regex :=
  let attributeList := Regex.sequence
    [Regex.text "@[", .many (.set (· ≠ ']')), Regex.char ']', .many (.set isSpace)]
  let modifier := Regex.seq (Regex.oneOf ["private", "protected", "noncomputable", "nonrec"]) (.some (.set isSpace))
  Regex.sequence
    [.many attributeList, .many modifier, Regex.oneOf ["theorem", "lemma"], .some (.set isSpace),
      .group 1 (.some (.set fun c => !isSpace c && c ∉ ['(', '[', '\x7b', ':']))]

/-- The name that a line declares. -/
def declaredName (line : List Char) : Option (List Char) := do
  let found ← declarationPattern.matchAt line
  (found.groups.find? fun entry => entry.1 = 1).map Prod.snd

section

variable [Sources.Alphanumerics]

/-- A `\b` behind a word. -/
def wordEnds : Regex := .notAhead (.set isWord)

/-- `_BLOCK`, with its last word as its group -/
def blockPattern : Regex :=
  .seq
    (.either
      (.seq (Regex.maybe (.seq (Regex.text "noncomputable") (.some (.set isSpace)))) (.group 1 (Regex.text "section")))
      (.group 1 (Regex.oneOf ["namespace", "mutual"])))
    wordEnds

def blockWord (line : List Char) : Option (List Char) := do
  let found ← blockPattern.matchAt line
  (found.groups.find? fun entry => entry.1 = 1).map Prod.snd

def endsBlock (line : List Char) : Bool := ((Regex.seq (Regex.text "end") wordEnds).matchAt line).isSome

/-- The state of the loop of `top_level_names`. -/
structure NameScan where
  names : List (List Char) := []
  blocks : List (List Char) := []
  inComment : Bool := false

/-- `MAX_HOLES` -/
def maxHoles : Nat := 32

def NameScan.line (scan : NameScan) (raw : List Char) : NameScan :=
  let stripped := strip raw
  if scan.inComment then { scan with inComment := !decide (['-', '/'] <:+: stripped) }
  else if ['/', '-'] <+: stripped then { scan with inComment := !decide (['-', '/'] <:+: stripped.drop 2) }
  else
    match blockWord stripped with
    | some word => { scan with blocks := scan.blocks ++ [word] }
    | none =>
      if endsBlock stripped then { scan with blocks := scan.blocks.dropLast }
      else
        match declaredName stripped with
        | none => scan
        | some name =>
          if "namespace".toList ∉ scan.blocks ∧ name ∉ scan.names ∧ scan.names.length < maxHoles then
            { scan with names := scan.names ++ [name] }
          else scan

/-- `top_level_names` -/
def topLevelNames (source : List Char) : List (List Char) :=
  ((linesOf source).foldl NameScan.line {}).names

theorem NameScan.line_names (scan : NameScan) (raw : List Char) :
    ∀ name ∈ (scan.line raw).names, name ∈ scan.names ∨ declaredName (strip raw) = some name := by
  intro name member
  unfold NameScan.line at member
  dsimp only at member
  split at member
  · exact .inl member
  split at member
  · exact .inl member
  split at member
  · exact .inl member
  split at member
  · exact .inl member
  split at member
  · exact .inl member
  next declared =>
    split at member
    · rcases List.mem_append.mp member with old | new
      · exact .inl old
      · rw [List.mem_singleton.mp new]
        exact .inr declared
    · exact .inl member

/-- A line of the source declares each of its names. -/
theorem mem_topLevelNames {source name : List Char} (member : name ∈ topLevelNames source) :
    ∃ line ∈ linesOf source, declaredName (strip line) = some name := by
  suffices every : ∀ (lines : List (List Char)) (scan : NameScan), name ∈ (lines.foldl NameScan.line scan).names →
      name ∈ scan.names ∨ ∃ line ∈ lines, declaredName (strip line) = some name from
    (every (linesOf source) {} member).resolve_left List.not_mem_nil
  intro lines
  induction lines with
  | nil => exact fun _ old => .inl old
  | cons line lines ih =>
    intro scan member
    rcases ih _ member with old | ⟨other, later, declared⟩
    · rcases scan.line_names line name old with older | declared
      · exact .inl older
      · exact .inr ⟨line, List.mem_cons_self, declared⟩
    · exact .inr ⟨other, List.mem_cons_of_mem _ later, declared⟩

end

/-! ### Results -/

inductive Severity where
  | error | warning | info
  deriving DecidableEq

/-- `AUTOMATION` -/
inductive AutomationTactic where
  | rfl | normNum | simp | simpAll | linarith | nlinarith | positivity | omega | aesop | exact
  deriving DecidableEq

structure Message where
  severity : Severity
  col : Option Nat
  text : List Char
  deriving DecidableEq

structure Automation where
  closedBy : Option AutomationTactic := none
  suggestion : Option (List Char) := none
  tried : List AutomationTactic := []
  deriving DecidableEq

/-- A hole; a referee reads some of its entries not at all. -/
structure Hole where
  index : Nat
  col : Option Nat
  goal : Option (List Char)
  automation : Option Automation
  deriving DecidableEq

def Hole.suggestion (hole : Hole) : Option (List Char) := hole.automation.bind Automation.suggestion

/-- A Lean result: what Lean wrote, and the other entries, which the platform writes. -/
structure LeanResult (ρ : Type) where
  platform : ρ
  messages : List (CheckItem Message)
  holes : List (CheckItem Hole)
  axioms : List (List Char × List (List Char))
  note : Bool := false
  axiomsWithheld : Option Nat := none

variable {ρ : Type}

/-- `remap` of a result -/
def remapped (result : LeanResult ρ) (expansion : Expansion) : LeanResult ρ :=
  { result with
    messages := Sources.remap expansion result.messages
    holes := Sources.remap expansion result.holes }

def refereeAxioms : List (List Char) := (standardAxioms ++ ["sorryAx"]).map String.toList

def withheldAxiom : List Char := "(another axiom; name withheld from referees)".toList

/-- What stands for a text inside a module. -/
def withheldText (what module field : List Char) : List Char :=
  "(".toList ++ what ++ " inside inlined module ".toList ++ module ++ "; ".toList ++ field ++
    " withheld from referees)".toList

/-- `shown`: the field of an item and what is kept of an item inside a module -/
def shown {β : Type} (kept : β → β) (get : β → Option (List Char)) (set : β → List Char → β) (field what : String)
    (item : CheckItem β) : CheckItem β :=
  match item.module with
  | some module =>
    { item with line := none, content := set (kept item.content) (withheldText what.toList module field.toList) }
  | none =>
    match item.line, get item.content with
    | none, some text => { item with content := set item.content (fenceAuthorData text) }
    | _, _ => item

def shownMessage : CheckItem Message → CheckItem Message :=
  shown (fun message => { message with col := none }) (fun message => some message.text)
    (fun message text => { message with text }) "text" "message"

def shownHole : CheckItem Hole → CheckItem Hole :=
  shown (fun hole => { hole with col := none, automation := none }) Hole.goal
    (fun hole goal => { hole with goal := some goal }) "goal" "hole"

section

variable [Sources.Alphanumerics]

/-- `_referee_lean_result` -/
def refereeLeanResult (result : LeanResult ρ) (source : List Char) (expansion : Expansion) : LeanResult ρ :=
  if expansion.modules = [] then result
  else
    let own := topLevelNames source
    let axioms := (result.axioms.filter fun entry => entry.1 ∈ own).map fun entry =>
      (entry.1, entry.2.map fun name => if name ∈ refereeAxioms then name else withheldAxiom)
    { result with
      messages := result.messages.map shownMessage
      holes := result.holes.map shownHole
      axioms := axioms
      note := true
      axiomsWithheld := some (result.axioms.length - axioms.length) }

end

/-! ### What a referee reads -/

/-- The item is on the referee's own lines. -/
def OnOwnLine {β : Type} (expansion : Expansion) (item : CheckItem β) : Prop :=
  ∃ line segment, item.line = some line ∧ segmentAt expansion.segments line = some segment ∧ segment.module = none

/-- The item is on a line of an inlined module. -/
def InModule {β : Type} (expansion : Expansion) (item : CheckItem β) (module : List Char) : Prop :=
  ∃ line segment, item.line = some line ∧ segmentAt expansion.segments line = some segment ∧
    segment.module = some module

/-- What may stand for a text that Lean wrote: nothing, a placeholder, or the text behind a fence that it
cannot close. -/
inductive Covered (inside : List Char → Prop) (own : Option (List Char)) : Option (List Char) → Prop
  | absent : Covered inside own none
  | withheld {what module field : List Char} (here : inside module) :
      Covered inside own (some (withheldText what module field))
  | fenced {text : List Char} (same : own = some text)
      (closed : ¬ nodeDataBegin <:+: encodeNodeData text ∧ ¬ nodeDataEnd <:+: encodeNodeData text) :
      Covered inside own (some (fenceAuthorData text))

/-- Nothing that Lean wrote for another line than the referee's own is shown as it is. -/
structure Unexposed (source : List Char) (expansion : Expansion) (checked view : LeanResult ρ) : Prop where
  messages : List.Forall₂ (fun item shown => ¬ OnOwnLine expansion item →
    Covered (InModule expansion item) (some item.content.text) (some shown.content.text)) checked.messages view.messages
  goals : List.Forall₂ (fun item shown => ¬ OnOwnLine expansion item →
    Covered (InModule expansion item) item.content.goal shown.content.goal) checked.holes view.holes
  suggestions : List.Forall₂ (fun item shown => ¬ OnOwnLine expansion item →
    Covered (InModule expansion item) item.content.suggestion shown.content.suggestion) checked.holes view.holes
  axiomNames : ∀ entry ∈ view.axioms,
    (∃ line ∈ linesOf source, declaredName (strip line) = some entry.1) ∧
      ∀ name ∈ entry.2, name ∈ refereeAxioms ∨ name = withheldAxiom

/-- A result of Lean itself, which knows no modules. -/
structure LeanCheck (ρ : Type) where
  result : LeanResult ρ
  messages : ∀ item ∈ result.messages, item.module = none
  holes : ∀ item ∈ result.holes, item.module = none

/-- Each hole with a suggestion has a line of a segment: the referee's own or a module's. -/
def SuggestionsPlaced (expansion : Expansion) (checked : LeanResult ρ) : Prop :=
  ∀ hole ∈ checked.holes, hole.content.suggestion ≠ none →
    ∃ line segment, hole.line = some line ∧ segmentAt expansion.segments line = some segment

/-- An item is on an own line, in a module, or nowhere; and what `remap` makes of it. -/
theorem placed_cases {β : Type} {expansion : Expansion} (item : CheckItem β) (fresh : item.module = none) :
    OnOwnLine expansion item ∨
      (∃ module, InModule expansion item module ∧ (item.moved expansion.segments).module = some module ∧
        (item.moved expansion.segments).content = item.content) ∨
      (∀ line, item.line = some line → segmentAt expansion.segments line = none) ∧
        (item.moved expansion.segments).module = none ∧ (item.moved expansion.segments).line = none ∧
        (item.moved expansion.segments).content = item.content := by
  cases here : item.line with
  | none =>
    have same : item.moved expansion.segments = item := by rw [CheckItem.moved, here]
    rw [same]
    exact .inr (.inr ⟨fun line own => (Option.some_ne_none line own.symm).elim, fresh, here, rfl⟩)
  | some line =>
    cases found : segmentAt expansion.segments line with
    | none =>
      rw [Sources.moved_none item here found]
      refine .inr (.inr ⟨fun other same => ?_, fresh, rfl, rfl⟩)
      obtain rfl := Option.some.inj same
      exact found
    | some segment =>
      rw [Sources.moved_found item here found]
      cases label : segment.module with
      | none => exact .inl ⟨line, segment, here, found, label⟩
      | some module => exact .inr (.inl ⟨module, ⟨line, segment, here, found, label⟩, rfl, rfl⟩)

section

variable {β : Type} {kept : β → β} {get : β → Option (List Char)} {set : β → List Char → β} {field what : String}

theorem shown_inside {item : CheckItem β} {module : List Char} (inside : item.module = some module) :
    (shown kept get set field what item).content =
      set (kept item.content) (withheldText what.toList module field.toList) := by
  rw [shown, inside]

theorem shown_nowhere {item : CheckItem β} (outside : item.module = none) (unplaced : item.line = none) :
    (shown kept get set field what item).content = match get item.content with
      | some text => set item.content (fenceAuthorData text)
      | none => item.content := by
  rw [shown, outside, unplaced]
  cases get item.content <;> rfl

variable (get) in
/-- The field that is shown of an item that is not on an own line. -/
theorem shown_covered {expansion : Expansion} {item : CheckItem β} (fresh : item.module = none)
    (setGet : ∀ content text, get (set content text) = some text) (other : ¬ OnOwnLine expansion item) :
    Covered (InModule expansion item) (get item.content)
      (get (shown kept get set field what (item.moved expansion.segments)).content) := by
  rcases placed_cases item fresh with own | ⟨module, inside, label, -⟩ | ⟨-, outside, unplaced, content⟩
  · exact absurd own other
  · rw [shown_inside label, setGet]
    exact .withheld inside
  · rw [shown_nowhere outside unplaced, content]
    cases own : get item.content with
    | none =>
      dsimp only
      rw [own]
      exact .absent
    | some text =>
      dsimp only
      rw [setGet]
      exact .fenced rfl (encodeNodeData_markers text)

end

theorem length_le_quoted (text : List Char) : text.length ≤ (Json.quoted (.ofList text)).length := by
  have escaped : ∀ c, 0 < (Json.escapeChar c).length := by
    intro c
    unfold Json.escapeChar
    repeat' split
    all_goals exact Nat.zero_lt_succ _
  rw [Json.quoted, String.toList_ofList, List.length_cons, List.length_append]
  have inner : text.length ≤ (text.flatMap Json.escapeChar).length := by
    induction text with
    | nil => exact Nat.zero_le _
    | cons c text ih =>
      have first := escaped c
      rw [List.flatMap_cons, List.length_append, List.length_cons]
      omega
  omega

theorem fenceAuthorData_ne (text : List Char) : fenceAuthorData text ≠ text := by
  intro same
  have quoted := length_le_quoted text
  have first := Replace.length_le_replace (List.replicate 3 '<') (escapedRun "3c") (by decide) (by decide)
    (Json.quoted (.ofList text))
  have second : _ ≤ (encodeNodeData text).length :=
    Replace.length_le_replace (List.replicate 3 '>') (escapedRun "3e") (by decide) (by decide) _
  have length := congrArg List.length same
  simp only [fenceAuthorData, List.length_append, List.length_cons] at length
  omega

/-- Lean's own text is covered only when it is absent. -/
theorem covered_self {inside : List Char → Prop} {own seen : Option (List Char)} (outside : ∀ module, ¬ inside module)
    (covered : Covered inside own seen) (same : own = seen) : own = none := by
  cases covered with
  | absent => exact same
  | withheld here => exact absurd here (outside _)
  | fenced text closed =>
    rw [text] at same
    exact absurd (Option.some.inj same).symm (fenceAuthorData_ne _)

/-- What is shown of the suggestion of a hole. -/
theorem suggestion_shown {expansion : Expansion} {hole : CheckItem Hole} (fresh : hole.module = none)
    (other : ¬ OnOwnLine expansion hole) :
    Covered (InModule expansion hole) hole.content.suggestion
        (shownHole (hole.moved expansion.segments)).content.suggestion ↔
      (hole.content.suggestion ≠ none →
        ∃ line segment, hole.line = some line ∧ segmentAt expansion.segments line = some segment) := by
  rcases placed_cases hole fresh with own | ⟨module, inside, label, -⟩ | ⟨nowhere, outside, unplaced, content⟩
  · exact absurd own other
  · have absent : (shownHole (hole.moved expansion.segments)).content.suggestion = none := by
      rw [shownHole, shown_inside label]
      rfl
    rw [absent]
    obtain ⟨line, segment, here, found, -⟩ := inside
    exact iff_of_true .absent fun _ => ⟨line, segment, here, found⟩
  · have same : (shownHole (hole.moved expansion.segments)).content.suggestion = hole.content.suggestion := by
      rw [shownHole, shown_nowhere outside unplaced, content]
      cases hole.content.goal <;> rfl
    rw [same]
    constructor
    · intro covered
      refine fun some_ => absurd (covered_self (fun module here => ?_) covered rfl) some_
      obtain ⟨line, segment, placed, found, -⟩ := here
      rw [nowhere line placed] at found
      cases found
    · intro placed
      cases own : hole.content.suggestion with
      | none => exact .absent
      | some text =>
        obtain ⟨line, segment, here, found⟩ := placed (by rw [own]; exact Option.some_ne_none _)
        rw [nowhere line here] at found
        cases found

/-- What is shown for the items of a result. -/
theorem shown_items {β : Type} {expansion : Expansion} (inlined : expansion.modules ≠ [])
    (show_ : CheckItem β → CheckItem β) (relation : CheckItem β → CheckItem β → Prop) (items : List (CheckItem β)) :
    List.Forall₂ relation items ((Sources.remap expansion items).map show_) ↔
      ∀ item ∈ items, relation item (show_ (item.moved expansion.segments)) := by
  rw [Sources.remap, if_neg inlined, List.map_map, List.forall₂_map_right_iff, List.forall₂_same]
  rfl

section

variable [Sources.Alphanumerics]

/-- `lean_check` of a referee -/
def refereeCheck (source : List Char) (expansion : Expansion) (checked : LeanCheck ρ) : LeanResult ρ :=
  refereeLeanResult (remapped checked.result expansion) source expansion

/-- With modules inlined, nothing that Lean wrote for another line is shown as it is exactly when each hole
with a suggestion has a line of the referee's source or of a module. -/
theorem referee_unexposed_iff (source : List Char) {expansion : Expansion} (inlined : expansion.modules ≠ [])
    (checked : LeanCheck ρ) :
    Unexposed source expansion checked.result (refereeCheck source expansion checked) ↔
      SuggestionsPlaced expansion checked.result := by
  have view : refereeCheck source expansion checked = _ := if_neg inlined
  constructor
  · intro unexposed hole member some_
    by_cases own : OnOwnLine expansion hole
    · obtain ⟨line, segment, here, found, -⟩ := own
      exact ⟨line, segment, here, found⟩
    · have suggestions := unexposed.suggestions
      rw [view] at suggestions
      have covered := (shown_items inlined shownHole _ _).mp suggestions hole member own
      exact (suggestion_shown (checked.holes hole member) own).mp covered some_
  · intro placed
    rw [view]
    constructor
    · apply (shown_items inlined shownMessage _ _).mpr
      intro item member other
      exact shown_covered (fun message : Message => some message.text) (checked.messages item member)
        (fun _ _ => rfl) other
    · apply (shown_items inlined shownHole _ _).mpr
      intro item member other
      exact shown_covered Hole.goal (checked.holes item member) (fun _ _ => rfl) other
    · apply (shown_items inlined shownHole _ _).mpr
      intro item member other
      exact (suggestion_shown (checked.holes item member) other).mpr (placed item member)
    · intro entry member
      obtain ⟨whole, kept, rfl⟩ := List.mem_map.mp member
      refine ⟨mem_topLevelNames (of_decide_eq_true (List.mem_filter.mp kept).2), fun name listed => ?_⟩
      obtain ⟨own, -, rfl⟩ := List.mem_map.mp listed
      by_cases standard : own ∈ refereeAxioms
      · exact .inl (by rwa [if_pos standard])
      · exact .inr (if_neg standard)

end

end Referee

namespace Scenario

open Referee

section

local instance refereeLetters : Sources.Alphanumerics := latinLetters

/-- A published lemma. -/
def helperModule : Sources.Module where
  name := "Commons.N22222222".toList
  nodeId := "helper".toList
  source := "theorem helper : True := trivial".toList
  rank := .published .complete
  stale := false
  name_line := by decide
  node_line := by decide

/-- A referee's source with the lemma inlined. -/
def refereeExpansion : Sources.Expansion :=
  Sources.assemble ⟨["Commons.N22222222".toList], [], ["theorem own : True := helper".toList], 1⟩
    [⟨helperModule, ⟨[], [], ["theorem helper : True := trivial".toList], 0⟩, []⟩]

/-- A check with a message and a hole. -/
def refereeResult (line : Option Nat) : LeanCheck Unit where
  result :=
    { platform := ()
      messages := [{ line := some 3, content := ⟨.info, some 0, "note to the referee".toList⟩ }]
      holes := [{ line, content := ⟨0, none, some "True".toList, some { suggestion := some "exact this".toList }⟩ }]
      axioms := [("helper".toList, ["propext".toList])] }
  messages := by simp
  holes := by simp

/-- A hole without a line shows its suggestion as Lean wrote it. -/
theorem unplacedHole_exposed :
    ¬ Unexposed [] refereeExpansion (refereeResult none).result
      (refereeCheck [] refereeExpansion (refereeResult none)) := by
  intro unexposed
  have same : ∃ shown, (refereeCheck [] refereeExpansion (refereeResult none)).holes = [shown] ∧
      shown.content.suggestion = some "exact this".toList := ⟨_, rfl, rfl⟩
  obtain ⟨shown, holes, suggestion⟩ := same
  have suggestions := unexposed.suggestions
  rw [holes] at suggestions
  cases suggestions with
  | cons covered rest =>
    have unplaced : ¬ OnOwnLine refereeExpansion
        { line := none, content := (⟨0, none, some "True".toList, some { suggestion := some "exact this".toList }⟩ : Hole) } := by
      rintro ⟨line, segment, here, -⟩
      cases here
    have seen := covered unplaced
    rw [suggestion] at seen
    have absent := covered_self (fun module here => ?_) seen rfl
    · cases absent
    · obtain ⟨line, segment, here, -⟩ := here
      cases here

/-- A hole of the module shows nothing. -/
theorem moduleHole_unexposed :
    Unexposed [] refereeExpansion (refereeResult (some 3)).result
      (refereeCheck [] refereeExpansion (refereeResult (some 3))) := by
  apply (referee_unexposed_iff [] (by decide) (refereeResult (some 3))).mpr
  intro hole member _
  obtain rfl := List.mem_singleton.mp member
  exact ⟨3, ⟨1, 4, some "Commons.N22222222".toList, 1⟩, rfl, by decide⟩

end

end Scenario

end PhysHarness
