import DiffScope.Command.Run
import DiffScope.Proofs.Diff.Hunks

/-! # The views of a diff agree

What a diff adds can be taken from its lines one by one, as the extraction does, or from its map, as
it is printed. Both are the same, and no line is lost on the way to the map.
-/

namespace DiffScope.Command

open DiffScope.Diff DiffScope.Extract DiffScope.Project

/-- What is printed of a diff, with the added lines taken from its lines one by one. -/
theorem printLines_eq (s : Setting) (path : Path) :
    printLines s path false = do
      let diff ← readDiff s path
      let added ← checked (AddedLines.ofDiff diff)
      let m ← checked (LineMap.ofDiff diff)
      return ⟨0, (Json.object [("added_lines", added.toJson),
        ("hunks", .ofList Hunk.toJson m.hunks)]).pretty ++ "\n", ""⟩ := by
  rw [printLines]
  congr 1
  funext diff
  rw [ofDiff_eq_map, if_neg Bool.false_ne_true]
  cases LineMap.ofDiff diff <;> rfl

/-- What is read line by line and what the map holds are the same: the positions of the added lines,
the set of their numbers and how many lines there are. The set holds the positive numbers, each
once and in ascending order. A file is extracted for the lines that the map adds, and what is
printed of a diff begins with the lines that a file would be extracted for. -/
theorem views_of_a_diff_agree (diff : List Char) :
    addedPositions diff = (LineMap.ofDiff diff).map LineMap.addedPositions ∧
    AddedLines.ofDiff diff = (LineMap.ofDiff diff).map LineMap.addedLines ∧
    (events diff).map (List.countP Event.isLine) =
      (LineMap.ofDiff diff).map (fun m => m.entries.length) ∧
    (∀ m : LineMap, m.addedLines.toList.Pairwise (· < ·) ∧
      ∀ l, l ∈ m.addedLines.toList ↔ 0 < l ∧ ∃ e ∈ m.entries, e.role = .added l) ∧
    (∀ (w : Workspace) (path : Path), w.extractDiff path diff =
      (LineMap.ofDiff diff).map fun m => w.extractFile path m.addedLines) ∧
    ∀ (s : Setting) (path : Path), printLines s path false = do
      let text ← readDiff s path
      let added ← checked (AddedLines.ofDiff text)
      let m ← checked (LineMap.ofDiff text)
      return ⟨0, (Json.object [("added_lines", added.toJson),
        ("hunks", .ofList Hunk.toJson m.hunks)]).pretty ++ "\n", ""⟩ := by
  refine ⟨addedPositions_eq_map diff, ofDiff_eq_map diff, ?_, fun m => ⟨?_, ?_⟩, ?_, ?_⟩
  · rw [events_eq_map]
    cases LineMap.ofDiff diff with
    | error e => rfl
    | ok m => exact congrArg Except.ok (countP_isLine_hunks m.hunks)
  · exact m.addedLines.ascending
  · exact fun l => mem_addedLines
  · intro w path
    rw [Workspace.extractDiff, ofDiff_eq_map]
    cases LineMap.ofDiff diff <;> rfl
  · exact printLines_eq

end DiffScope.Command
