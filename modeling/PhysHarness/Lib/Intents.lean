import Mathlib.Data.List.Basic

/-!
Effects that are named before they happen.

A party keeps a record and saves copies of it. Before an effect the record names it and is saved; once the
outcome is known the record accounts for the effect and names nothing. What was not saved may be lost at any
time. A saved record that names nothing accounts for every effect, and an effect of unknown outcome is the
last one, named by whatever was saved.
-/
namespace Intents

/-- How records and effects are read. -/
structure Reading (ρ ε ο : Type) where
  /-- The effect that the record names. -/
  mark : ρ → Option ο
  accounts : ρ → List ε → Prop
  /-- The outcome of the effect is known. -/
  closed : ε → Prop
  name : ε → ο

variable {ρ ε ο : Type} (reading : Reading ρ ε ο)

/-- The record is right about the effects. -/
structure Agrees (record : ρ) (log : List ε) : Prop where
  accounted : reading.mark record = none → reading.accounts record log
  named : ∀ effect ∈ log.getLast?, ¬ reading.closed effect → reading.mark record = some (reading.name effect)

/-- The record and its saved copy are right about the effects, of which all but the last are closed. -/
structure Sound (memory : ρ) (saved : Option ρ) (log : List ε) : Prop where
  memory : Agrees reading memory log
  saved : ∀ record ∈ saved, Agrees reading record log
  settled : ∀ effect ∈ log.dropLast, reading.closed effect

variable {reading} {memory other : ρ} {saved : Option ρ} {log : List ε} {effect : ε}

theorem agrees_of_closed (closed : ∀ effect ∈ log, reading.closed effect)
    (accounts : reading.mark memory = none → reading.accounts memory log) : Agrees reading memory log where
  accounted := accounts
  named effect last unknown := absurd (closed effect (List.mem_of_getLast? last)) unknown

/-- A record that names the last effect is right. -/
theorem agrees_of_mark (marked : reading.mark memory = some (reading.name effect)) :
    Agrees reading memory (log ++ [effect]) where
  accounted unmarked := by rw [marked] at unmarked; cases unmarked
  named last same _ := by
    rw [List.getLast?_concat, Option.mem_some] at same
    rw [marked, same]

/-- Nothing else has an unknown outcome before it. -/
theorem Sound.last (before : ∀ earlier ∈ log, reading.closed earlier)
    (agrees : Agrees reading memory (log ++ [effect]))
    (marked : ∀ record ∈ saved, reading.mark record = some (reading.name effect)) :
    Sound reading memory saved (log ++ [effect]) where
  memory := agrees
  saved record member := agrees_of_mark (marked record member)
  settled := by rwa [List.dropLast_concat]

theorem Sound.save (sound : Sound reading memory saved log) : Sound reading memory (some memory) log where
  memory := sound.memory
  saved record member := by
    obtain rfl := Option.mem_some.mp member
    exact sound.memory
  settled := sound.settled

theorem Sound.load (sound : Sound reading memory saved log) (member : other ∈ saved) :
    Sound reading other saved log where
  memory := sound.saved other member
  saved := sound.saved
  settled := sound.settled

theorem Sound.replace (sound : Sound reading memory saved log) (agrees : Agrees reading other log) :
    Sound reading other saved log where
  memory := agrees
  saved := sound.saved
  settled := sound.settled

/-- A record that names nothing knows the outcome of every effect. -/
theorem Sound.closed (sound : Sound reading memory saved log) (unmarked : reading.mark memory = none) :
    ∀ effect ∈ log, reading.closed effect := by
  intro effect member
  by_contra unknown
  rcases List.eq_nil_or_concat log with rfl | ⟨before, final, rfl⟩
  · cases member
  · rw [List.concat_eq_append] at member sound
    rcases List.mem_append.mp member with earlier | last
    · exact unknown (sound.settled effect (by rwa [List.dropLast_concat]))
    · obtain rfl := List.mem_singleton.mp last
      have marked := sound.memory.named effect (List.getLast?_concat ..) unknown
      rw [unmarked] at marked
      cases marked

/-- A change of what records account for. -/
theorem Sound.imp {changed : Reading ρ ε ο} (sound : Sound reading memory saved log)
    (marks : changed.mark = reading.mark) (names : changed.name = reading.name)
    (closes : changed.closed = reading.closed)
    (accounts : ∀ record, reading.accounts record log → changed.accounts record log) :
    Sound changed memory saved log := by
  have agrees : ∀ record, Agrees reading record log → Agrees changed record log := by
    intro record agrees
    constructor
    · rw [marks]
      exact fun unmarked => accounts record (agrees.accounted unmarked)
    · rw [marks, names, closes]
      exact agrees.named
  constructor
  · exact agrees memory sound.memory
  · exact fun record member => agrees record (sound.saved record member)
  · rw [closes]
    exact sound.settled

/-- An effect of unknown outcome is the last one, and every saved record names it. -/
theorem Sound.unknown (sound : Sound reading memory saved log) (member : effect ∈ log)
    (unknown : ¬ reading.closed effect) :
    log.getLast? = some effect ∧ ∀ record ∈ saved, reading.mark record = some (reading.name effect) := by
  have last : log.getLast? = some effect := by
    rcases List.eq_nil_or_concat log with rfl | ⟨before, final, rfl⟩
    · cases member
    · rw [List.concat_eq_append] at member sound ⊢
      rcases List.mem_append.mp member with earlier | now
      · exact absurd (sound.settled effect (by rwa [List.dropLast_concat])) unknown
      · rw [List.getLast?_concat, List.mem_singleton.mp now]
  exact ⟨last, fun record saved => (sound.saved record saved).named effect last unknown⟩

end Intents
