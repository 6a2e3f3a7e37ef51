import DiffScope.Grammar.Rule

/-!
# Productions

A rule of a grammar, spelled out as plain sequences of symbols. Alternatives are multiplied out,
repetitions become rules of their own, and every step of a sequence keeps the level, the side,
the field and the display name that held where it stood.
-/

namespace DiffScope.Grammar

open DiffScope.Lexicon

/-- One symbol of a production with what was said about its place. -/
structure Step (σ : Type) where
  /-- The symbol. -/
  symbol : σ
  /-- The binding level once this step is passed. -/
  level : Level
  /-- The side once this step is passed. -/
  side : Option Side
  /-- The display name that replaces the symbol's own. -/
  label : Option Label
  /-- The field the symbol's nodes carry. -/
  field : Option String
  deriving DecidableEq, Hashable, Repr, Inhabited

/-- A sequence of symbols that a rule matches, with its weight among finished readings. -/
structure Sequence (σ : Type) where
  steps : List (Step σ)
  weight : Int
  deriving DecidableEq, Hashable, Repr, Inhabited

namespace Rule

/-! ## Repetitions -/

/-- A repetition that became a rule of its own. -/
structure Repetition where
  name : String
  body : Rule
  deriving Inhabited

/-- Replaces every repetition in a rule by a reference to a rule of its own; equal repetitions
share one. New names are made from the owner's name. -/
def liftRepetitions (owner : String) : Rule → List Repetition → Rule × List Repetition
  | blank, seen => (blank, seen)
  | word t, seen => (word t, seen)
  | lexeme l, seen => (lexeme l, seen)
  | ref n, seen => (ref n, seen)
  | both a b, seen =>
    let (a, seen) := liftRepetitions owner a seen
    let (b, seen) := liftRepetitions owner b seen
    (both a b, seen)
  | either a b, seen =>
    let (a, seen) := liftRepetitions owner a seen
    let (b, seen) := liftRepetitions owner b seen
    (either a b, seen)
  | many1 r, seen =>
    let (body, seen) := liftRepetitions owner r seen
    match seen.find? (·.body == body) with
    | some old => (ref old.name, seen)
    | none =>
      let name := s!"{owner} repetition {seen.length + 1}"
      (ref name, seen ++ [⟨name, body⟩])
  | bind l s r, seen =>
    let (r, seen) := liftRepetitions owner r seen
    (bind l s r, seen)
  | weigh n r, seen =>
    let (r, seen) := liftRepetitions owner r seen
    (weigh n r, seen)
  | field n r, seen =>
    let (r, seen) := liftRepetitions owner r seen
    (field n r, seen)
  | shownAs l r, seen =>
    let (r, seen) := liftRepetitions owner r seen
    (shownAs l r, seen)

/-- The rule of a repetition: twice itself, or its body once. -/
def Repetition.rule (r : Repetition) : Rule :=
  either (both (ref r.name) (ref r.name)) r.body

/-! ## Alternatives -/

/-- The readings of a rule without alternatives, in the order they are written. -/
def readings : Rule → List Rule
  | both a b => a.readings.flatMap fun x => b.readings.map fun y => both x y
  | either a b => a.readings ++ b.readings
  | bind l s r => r.readings.map (bind l s)
  | weigh n r => r.readings.map (weigh n)
  | field n r => r.readings.map (field n)
  | shownAs l r => r.readings.map (shownAs l)
  | r => [r]

/-- What holds around a part of a rule. -/
structure Surroundings where
  level : Level
  side : Option Side
  label : Option Label
  field : Option String

/-- Replaces the last element of a list. -/
def mapLast (f : α → α) : List α → List α
  | [] => []
  | [a] => [f a]
  | a :: as => a :: mapLast f as

/-- Of two weights, the one that is farther from zero; the first when they are equally far. -/
def heavier (a b : Int) : Int := if a.natAbs < b.natAbs then b else a

/-- The steps and the weight of a reading. A level or side that ends before the reading does gives
way, behind its last step, to the one around it. -/
def steps : Rule → Surroundings → Bool → List (Step Rule) × Int
  | both a b, s, last =>
    let (xs, m) := steps a s false
    let (ys, n) := steps b s last
    (xs ++ ys, heavier m n)
  | bind l side r, s, last =>
    let (xs, n) := steps r { s with
      level := if l = .unset then s.level else l
      side := side.orElse fun _ => s.side } last
    if last then (xs, n) else
      (mapLast (fun x => { x with
        level := if l = .unset then x.level else s.level
        side := if side.isNone then x.side else s.side }) xs, n)
  | weigh n r, s, last =>
    let (xs, m) := steps r s last
    (xs, heavier n m)
  | field n r, s, last => steps r { s with field := some n } last
  | shownAs l r, s, last => steps r { s with label := some l } last
  | blank, _, _ => ([], 0)
  | r, s, _ => ([⟨r, s.level, s.side, s.label, s.field⟩], 0)

/-- The productions of a rule without repetitions. -/
def sequences (r : Rule) : List (Sequence Rule) :=
  (r.readings.map fun x =>
    let (steps, weight) := x.steps ⟨.unset, none, none, none⟩ true
    ⟨steps, weight⟩).eraseDups

end Rule

/-- Puts the sequences of inlined rules in the place of every step that names one. The fuel bounds
the depth to which inlined rules use each other. -/
def Sequence.inline (expand : Rule → Option (List (Sequence Rule))) :
    Nat → Sequence Rule → List (Sequence Rule)
  | 0, s => [s]
  | fuel + 1, s =>
    s.steps.foldl (fun done step =>
      match expand step.symbol with
      | none => done.map fun d => { d with steps := d.steps ++ [step] }
      | some bodies =>
        let bodies := bodies.flatMap (Sequence.inline expand fuel)
        done.flatMap fun d => bodies.map fun b =>
          { steps := d.steps ++ placed step b.steps, weight := Rule.heavier d.weight b.weight })
      [⟨[], s.weight⟩]
where
  /-- The steps of an inlined rule as they stand in the place of one step. -/
  placed (step : Step Rule) (body : List (Step Rule)) : List (Step Rule) :=
    let body := body.map fun x => { x with
      label := step.label.orElse fun _ => x.label
      field := step.field.orElse fun _ => x.field }
    Rule.mapLast (fun x => { x with
      level := if x.level = .unset then step.level else x.level
      side := x.side.orElse fun _ => step.side }) body

end DiffScope.Grammar
